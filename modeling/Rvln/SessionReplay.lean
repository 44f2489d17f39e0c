/-
# A recording, shown by the viewer

The page of `app/logger/tools/visualize.py` reads a session's directory over HTTP and
plays its camera frames: it reads `meta.json`, without which it shows nothing, parses
`camera/frames.csv`, gives every row the time and the file of its frame, and finds the
frame of a moment by binary search.  Transcribed are `parseCSV`, `load` up to the camera's
frames, `idxAtOrBefore` and the camera part of `seek`.

* `parseCSV`, `loadFrames`, `idxAtOrBefore`, `seekFrame` : the viewer;
* `parseCSV_frameTable` : the table of a session is parsed row by row;
* `idxAtOrBefore_spec` : the binary search;
* `replay_frames`, `replay_at` : what is shown of a finished session, and at a moment.

JavaScript's numbers are NaN (`none`) or a value of a linear order `F`; `JsFloat` holds
what the viewer uses of them, and `JsonParse` what it relies on of `JSON.parse`.
-/
import Mathlib.Algebra.Order.Field.Basic
import Mathlib.Algebra.Order.Ring.Rat
import Rvln.Python
import Rvln.SessionRecord
import Rvln.TextTable

namespace SessionFiles

/-! ## The viewer -/

/-- JavaScript's numbers without NaN: `Number(text)`, `x / 1e9` and `String(x)`.  Whole
numbers are rounded to the nearest number there is, and up to 2^53 there is one. -/
structure JsFloat (F : Type) [LinearOrder F] where
  ofText : String → Option F
  ofInt : ℤ → F
  seconds : F → F
  toText : F → String
  ofText_repr : ∀ a : ℤ, ofText a.repr = some (ofInt a)
  toText_ofInt : ∀ n : ℕ, n ≤ 2 ^ 53 → toText (ofInt n) = n.repr
  ofInt_mono : ∀ a b : ℤ, a ≤ b → ofInt a ≤ ofInt b
  seconds_mono : ∀ x y : F, x ≤ y → seconds x ≤ seconds y

/-- `JSON.parse`, as far as it returns a value whose fields can be read, which is any but
`null`: it does on every text of the grammar, which has no `null`. -/
structure JsonParse where
  accepts : String → Bool
  accepts_of_value : ∀ text : String, JsonGrammar.Value text.toList → accepts text = true

/-- A value of a parsed row: a column that the row does not have, a text, or a number. -/
inductive Cell (F : Type)
  | undefined
  | text (s : String)
  | number (x : F)
  deriving DecidableEq

/-- A character that `trim` cuts. -/
def jsBlank (c : Char) : Bool :=
  (9 ≤ c.toNat && c.toNat ≤ 13) || c.toNat ∈
    [0x20, 0xA0, 0x1680, 0x2000, 0x2001, 0x2002, 0x2003, 0x2004, 0x2005, 0x2006, 0x2007, 0x2008,
      0x2009, 0x200A, 0x2028, 0x2029, 0x202F, 0x205F, 0x3000, 0xFEFF]

section Viewer

variable {F : Type} [LinearOrder F] (js : JsFloat F)

/-- A column of a row: a number when it is one. -/
def cellOf (v : String) : Cell F :=
  match js.ofText v with
  | some n => if v = "" then .text v else .number n
  | none => .text v

/-- The columns of a row under their names. -/
def assignColumns : PyDict String (Cell F) → List String → List String → PyDict String (Cell F)
  | o, [], _ => o
  | o, k :: ks, [] => assignColumns (o.set k .undefined) ks []
  | o, k :: ks, v :: vs => assignColumns (o.set k (cellOf js v)) ks vs

/-- `parseCSV`. -/
def parseCSV (text : String) : List (PyDict String (Cell F)) :=
  let fields (line : List Char) : List String := (TextTable.splitFields line).map String.ofList
  match TextTable.lines (TextTable.trim jsBlank text.toList) with
  | [] => []
  | head :: rest =>
      (rest.filter (· ≠ [])).map fun line => assignColumns js .empty (fields head) (fields line)

/-- A value in a calculation: `none` is NaN. -/
def Cell.toNumber : Cell F → Option F
  | .undefined => none
  | .text s => js.ofText s
  | .number x => some x

/-- `String(value)`. -/
def Cell.toText : Cell F → String
  | .undefined => "undefined"
  | .text s => s
  | .number x => js.toText x

/-- `padStart(width, '0')`. -/
def padStart (width : ℕ) (s : String) : String := String.ofList (s.toList.leftpad width '0')

/-- A frame of the viewer: its time in seconds, its file and its number. -/
structure ViewerFrame (F : Type) where
  t : Option F
  src : String
  no : Cell F

/-- The response to `GET path`, from the directory of a session. -/
def fetchBytes (disk : Disk) (dir : DiskPath) (path : String) : Option (List UInt8) :=
  let words := (path.toList.splitOn '/').map String.ofList
  disk (dir ++ words.filter fun word => word ∉ ["", ".", ".."])

/-- `fetchText`, of a file in UTF-8. -/
def fetchText (disk : Disk) (dir : DiskPath) (path : String) : Option String := do
  let bytes ← fetchBytes disk dir path
  let chars ← Utf8.decode bytes
  pure (String.ofList chars)

/-- A row of `frames.csv` as a frame. -/
def frameOfRow (row : PyDict String (Cell F)) : ViewerFrame F where
  t := ((row.get? "t_mono_ns").getD .undefined).toNumber js |>.map js.seconds
  src := "camera/frames/" ++
    padStart 8 (((row.get? "frame_no").getD .undefined).toText js) ++ ".jpg"
  no := (row.get? "frame_no").getD .undefined

/-- `load`, up to the camera's frames: `none` when it raises before. -/
def loadFrames (json : JsonParse) (disk : Disk) (dir : DiskPath) :
    Option (List (ViewerFrame F)) := do
  let description ← fetchText disk dir "meta.json"
  if json.accepts description then
    let text ← fetchText disk dir "camera/frames.csv"
    pure ((parseCSV js text).map (frameOfRow js))
  else none

/-- `times[i] <= t`: false when the time is NaN. -/
def atOrBefore (times : List (Option F)) (t : F) (i : ℕ) : Bool :=
  match times[i]? with
  | some (some x) => x ≤ t
  | _ => false

/-- `t < times[0]`. -/
def beforeFirst (times : List (Option F)) (t : F) : Bool :=
  match times with
  | some x :: _ => t < x
  | _ => false

/-- The loop of `idxAtOrBefore`. -/
def bisect (p : ℕ → Bool) (lo hi : ℤ) (ans : ℕ) : ℕ :=
  if lo ≤ hi then
    let mid := (lo + hi) / 2
    if p mid.toNat then bisect p (mid + 1) hi mid.toNat else bisect p lo (mid - 1) ans
  else ans
termination_by (hi + 1 - lo).toNat
decreasing_by all_goals omega

/-- `idxAtOrBefore`: `none` is -1. -/
def idxAtOrBefore (times : List (Option F)) (t : F) : Option ℕ :=
  if times = [] then none
  else if beforeFirst times t then some 0
  else some (bisect (atOrBefore times t) 0 ((times.length : ℤ) - 1) 0)

/-- `seek`, as far as the camera: the frame that is shown at a time of the recording. -/
def seekFrame (frames : List (ViewerFrame F)) (t : F) : Option (ViewerFrame F) :=
  (idxAtOrBefore (frames.map ViewerFrame.t) t).bind fun fi => frames[fi]?

end Viewer

/-! ## What the viewer reads -/

section Reading

variable {D F : Type} [LinearOrder F] (js : JsFloat F) (json : JsonParse)

/-- The frame that the viewer makes of a recorded one. -/
def shownFrame (f : NewFrame × ℕ) : ViewerFrame F where
  t := some (js.seconds (js.ofInt f.1.tNs))
  src := "camera/frames/" ++ padLeft 8 f.2 ++ ".jpg"
  no := .number (js.ofInt f.2)

/-- A path of plain words leads to the file of that path. -/
theorem fetchBytes_intercalate (disk : Disk) (dir : DiskPath) {words : List String}
    (hne : words ≠ []) (hslash : ∀ word ∈ words, '/' ∉ word.toList)
    (hword : ∀ word ∈ words, word ∉ ["", ".", ".."]) :
    fetchBytes disk dir (String.intercalate "/" words) = disk (dir ++ words) := by
  have hsplit : (String.intercalate "/" words).toList.splitOn '/' = words.map String.toList := by
    rw [String.toList_intercalate]
    refine List.splitOn_intercalate '/' ?_ (by simpa using hne)
    intro l hl
    obtain ⟨word, hmem, rfl⟩ := List.mem_map.mp hl
    exact hslash word hmem
  have hwords : (words.map String.toList).map String.ofList = words := by
    rw [List.map_map]
    exact (List.map_congr_left fun w _ => String.ofList_toList).trans (List.map_id' words)
  simp only [fetchBytes, hsplit, hwords]
  rw [List.filter_eq_self.mpr fun word hmem => decide_eq_true (hword word hmem)]

theorem decode_utf8 (s : String) : Utf8.decode (utf8 s) = some s.toList :=
  Utf8.decode_encode s.toList

theorem toList_repr_negSucc (n : ℕ) :
    (Int.repr (Int.negSucc n)).toList = '-' :: (n + 1).repr.toList := by
  show ("-" ++ Nat.repr (n + 1)).toList = _
  rw [String.toList_append]
  rfl

/-- The characters of a whole number. -/
theorem mem_repr {a : ℤ} {c : Char} (h : c ∈ a.repr.toList) : c = '-' ∨ c.isDigit := by
  have hnat {n : ℕ} (hc : c ∈ n.repr.toList) : c.isDigit :=
    Nat.isDigit_of_mem_toDigits (by decide) (by decide) (Nat.toList_repr ▸ hc)
  cases a with
  | ofNat n => exact .inr (hnat h)
  | negSucc n =>
      rw [toList_repr_negSucc, List.mem_cons] at h
      exact h.imp id hnat

theorem repr_toList_ne_nil (a : ℤ) : a.repr.toList ≠ [] := by
  cases a with
  | ofNat n =>
      show n.repr.toList ≠ []
      rw [Nat.toList_repr]
      exact Nat.toDigits_ne_nil
  | negSucc n => simp [toList_repr_negSucc]

/-- Digits and signs are no blanks. -/
theorem jsBlank_of_digit {c : Char} (h : c = '-' ∨ c.isDigit) : jsBlank c = false := by
  rcases h with rfl | h
  · decide
  · have hdigit : 48 ≤ c.toNat ∧ c.toNat ≤ 57 := by
      simp only [Char.isDigit, Bool.and_eq_true, decide_eq_true_eq, ge_iff_le,
        UInt32.le_iff_toNat_le] at h
      exact h
    have hfalse : ¬ jsBlank c := by
      intro hblank
      simp only [jsBlank, Bool.or_eq_true, Bool.and_eq_true, decide_eq_true_eq, List.mem_cons,
        List.not_mem_nil, or_false] at hblank
      omega
    exact Bool.eq_false_iff.mpr hfalse

/-- A whole number is a field of its own. -/
theorem plain_repr (a : ℤ) : TextTable.Plain jsBlank a.repr.toList where
  nonempty := repr_toList_ne_nil a
  noComma h := by
    rcases mem_repr h with h | h
    · exact absurd h (by decide)
    · exact absurd h (by decide)
  noBlank c h := jsBlank_of_digit (mem_repr h)

/-- The names of the columns of `frames.csv`. -/
def frameColumns : List String := ["frame_no", "t_mono_ns", "width", "height"]

/-- The fields of the table, line by line. -/
def frameTable (kept : List (NewFrame × ℕ)) : List (List (List Char)) :=
  (frameColumns :: kept.map frameFields).map (List.map String.toList)

theorem plainRow_frameTable {kept : List (NewFrame × ℕ)} :
    ∀ row ∈ frameTable kept, TextTable.PlainRow jsBlank row := by
  intro row hrow
  obtain ⟨fields, hfields, rfl⟩ := List.mem_map.mp hrow
  rcases List.mem_cons.mp hfields with rfl | hfields
  · refine ⟨by decide, fun field hfield => ?_⟩
    simp only [frameColumns, List.map_cons, List.map_nil, List.mem_cons, List.not_mem_nil,
      or_false] at hfield
    rcases hfield with rfl | rfl | rfl | rfl <;>
      exact TextTable.plain_of_all (by decide) (by decide)
  · obtain ⟨f, -, rfl⟩ := List.mem_map.mp hfields
    refine ⟨by simp [frameFields], fun field hfield => ?_⟩
    simp only [frameFields, List.map_cons, List.map_nil, List.mem_cons, List.not_mem_nil,
      or_false] at hfield
    rcases hfield with rfl | rfl | rfl | rfl
    · exact plain_repr (f.2 : ℤ)
    · exact plain_repr f.1.tNs
    · exact plain_repr f.1.width
    · exact plain_repr f.1.height

/-- A line's fields, as texts again. -/
theorem splitFields_map {fields : List String}
    (h : TextTable.PlainRow jsBlank (fields.map String.toList)) :
    (TextTable.splitFields (TextTable.line (fields.map String.toList))).map String.ofList =
      fields := by
  rw [TextTable.splitFields_line h, List.map_map]
  exact (List.map_congr_left fun w _ => String.ofList_toList).trans (List.map_id' fields)

/-- **The table of frames is parsed row by row.** -/
theorem parseCSV_frameTable (kept : List (NewFrame × ℕ)) :
    parseCSV js (String.ofList (TextTable.text (frameTable kept))) =
      kept.map fun f => assignColumns js .empty frameColumns (frameFields f) := by
  have hplain := @plainRow_frameTable kept
  have hlines := TextTable.lines_trim_text (by decide) (by decide) (by decide)
    (show frameTable kept ≠ [] by simp [frameTable]) hplain
  have hrow {fields : List String} (hmem : fields ∈ frameColumns :: kept.map frameFields) :
      TextTable.PlainRow jsBlank (fields.map String.toList) :=
    hplain _ (List.mem_map_of_mem hmem)
  have hall : ((kept.map frameFields).map fun fields =>
        TextTable.line (fields.map String.toList)).filter (· ≠ []) =
      (kept.map frameFields).map fun fields => TextTable.line (fields.map String.toList) := by
    rw [List.filter_eq_self]
    intro l hl
    obtain ⟨fields, hmem, rfl⟩ := List.mem_map.mp hl
    exact decide_eq_true (TextTable.line_ne_nil (hrow (List.mem_cons_of_mem _ hmem)))
  have hlines' : TextTable.lines (TextTable.trim jsBlank (TextTable.text (frameTable kept))) =
      TextTable.line (frameColumns.map String.toList) ::
        (kept.map frameFields).map fun fields => TextTable.line (fields.map String.toList) := by
    rw [hlines, frameTable, List.map_map, List.map_cons]
    rfl
  simp only [parseCSV, String.toList_ofList, hlines', hall]
  rw [splitFields_map (hrow List.mem_cons_self), List.map_map, List.map_map]
  refine List.map_congr_left fun f hf => ?_
  show assignColumns js .empty frameColumns _ = _
  rw [splitFields_map (hrow (List.mem_cons_of_mem _ (List.mem_map_of_mem hf)))]

/-- A number in a column. -/
theorem cellOf_repr (a : ℤ) : cellOf js a.repr = .number (js.ofInt a) := by
  rw [cellOf, js.ofText_repr]
  refine if_neg fun h => repr_toList_ne_nil a ?_
  rw [h]
  rfl

/-- A row becomes the frame it was written for. -/
theorem frameOfRow_frameFields {f : NewFrame × ℕ} (hno : f.2 ≤ 2 ^ 53) :
    frameOfRow js (assignColumns js .empty frameColumns (frameFields f)) = shownFrame js f := by
  have hcell : cellOf js f.2.repr = .number (js.ofInt (f.2 : ℤ)) := cellOf_repr js (f.2 : ℤ)
  have hpad : padStart 8 (js.toText (js.ofInt (f.2 : ℤ))) = padLeft 8 f.2 := by
    rw [js.toText_ofInt f.2 hno]
    rfl
  simp only [frameFields, frameColumns, assignColumns, cellOf_repr, hcell, frameOfRow]
  simp (disch := decide) only [PyDict.get?_set_self, PyDict.get?_set_of_ne, Option.getD_some,
    Cell.toNumber, Cell.toText, Option.map_some, hpad, shownFrame]

/-- The bytes of the table are its text. -/
theorem flatten_framePieces (kept : List (NewFrame × ℕ)) :
    (framePieces kept).flatten = utf8 (String.ofList (TextTable.text (frameTable kept))) := by
  have hrow (fields : List String) : rowBytes (csvRow fields) =
      (TextTable.line (fields.map String.toList) ++ ['\n']).flatMap String.utf8EncodeChar := by
    rw [rowBytes, utf8, Utf8.encode, String.toList_append, csvRow, String.toList_intercalate]
    rfl
  have hheader : csvRow frameColumns = "frame_no,t_mono_ns,width,height" := by decide
  have hpieces : framePieces kept =
      (frameColumns :: kept.map frameFields).map fun fields => rowBytes (csvRow fields) := by
    simp only [framePieces, List.map_cons, List.map_map, hheader, Function.comp_def]
  rw [hpieces, utf8, Utf8.encode, String.toList_ofList, TextTable.text, frameTable,
    List.flatMap_map, List.flatMap_assoc, ← List.flatMap_def]
  exact congrArg (List.flatMap · _) (funext hrow)

/-- The file of a frame the viewer shows. -/
theorem fetchBytes_shownFrame (disk : Disk) (s : SessionWriter D) (f : NewFrame × ℕ) :
    fetchBytes disk s.dir (shownFrame js f).src = disk (s.framePath f.2) := by
  have hdigits : ∀ c ∈ (padLeft 8 f.2).toList, c.isDigit := by
    intro c hc
    rw [padLeft, String.toList_ofList, paddedInt, List.leftpad, List.mem_append] at hc
    rcases hc with hc | hc
    · rw [List.eq_of_mem_replicate hc]
      decide
    · exact Nat.isDigit_of_mem_toDigits (by decide) (by decide)
        (Nat.toList_repr (n := f.2) ▸ hc)
  have hlen : 4 ≤ (padLeft 8 f.2 ++ ".jpg").toList.length := by
    rw [String.toList_append, List.length_append]
    exact Nat.le_add_left _ _
  have hsrc : (shownFrame js f).src =
      String.intercalate "/" ["camera", "frames", padLeft 8 f.2 ++ ".jpg"] := by
    apply String.toList_injective
    simp [shownFrame]
  rw [hsrc, SessionWriter.framePath]
  refine fetchBytes_intercalate disk s.dir (by simp) ?_ ?_
  · intro word hword
    simp only [List.mem_cons, List.not_mem_nil, or_false] at hword
    rcases hword with rfl | rfl | rfl
    · decide
    · decide
    · rw [String.toList_append, List.mem_append, not_or]
      exact ⟨fun h => absurd (hdigits _ h) (by decide), by decide⟩
  · intro word hword
    simp only [List.mem_cons, List.not_mem_nil, or_false] at hword
    rcases hword with rfl | rfl | rfl
    · decide
    · decide
    · intro hmem
      have hshort : ∀ word ∈ ["", ".", ".."], word.toList.length < 4 := by decide
      exact absurd hlen (not_le.mpr (hshort _ hmem))

/-- The viewer's frames are those of the table's text, in a session with a description. -/
theorem loadFrames_of_text {disk : Disk} {dir : DiskPath} {text : String}
    (hmeta : ∃ content : String, JsonGrammar.Value content.toList ∧
      disk (dir ++ ["meta.json"]) = some (utf8 content))
    (h : disk (dir ++ ["camera", "frames.csv"]) = some (utf8 text)) :
    loadFrames js json disk dir = some ((parseCSV js text).map (frameOfRow js)) := by
  obtain ⟨content, hvalue, hcontent⟩ := hmeta
  have hpath : "camera/frames.csv" = String.intercalate "/" ["camera", "frames.csv"] := by decide
  have hdescription : fetchBytes disk dir "meta.json" = some (utf8 content) := by
    have hword : "meta.json" = String.intercalate "/" ["meta.json"] := by decide
    rw [hword, fetchBytes_intercalate disk dir (by decide) (by decide) (by decide), hcontent]
  have hfetch : fetchBytes disk dir "camera/frames.csv" = some (utf8 text) := by
    rw [hpath, fetchBytes_intercalate disk dir (by decide) (by decide) (by decide), h]
  simp [loadFrames, fetchText, hdescription, hfetch, decode_utf8,
    json.accepts_of_value content hvalue]

/-- The frames whose rows are on the disk. -/
theorem loadFrames_of_recorded {s : SessionWriter D} {disk : Disk} {calls : List (Call D)}
    {kept pend : List (NewFrame × ℕ)} (h : Recorded s disk calls kept pend)
    (hmeta : ∃ content : String, JsonGrammar.Value content.toList ∧
      disk (s.dir ++ ["meta.json"]) = some (utf8 content))
    (hopen : (s.sinks .framesCsv).opened = true) (hfew : s.frameNo ≤ 2 ^ 53) :
    ∃ n, loadFrames js json disk s.dir = some ((kept.take n).map (shownFrame js)) ∧
      (kept.take n = [] ∨
        disk (s.dir ++ ["camera", "frames.csv"]) = some (framePieces (kept.take n)).flatten) ∧
      ((s.sinks .framesCsv).queue = [] → kept.take n = kept) := by
  have htable := h.table
  rw [Sink.Holds, if_pos hopen, h.placed .framesCsv] at htable
  obtain ⟨done, hpieces, hfile, -⟩ := htable
  have hsmall : ∀ f ∈ kept, f.2 ≤ 2 ^ 53 := by
    intro f hf
    have hlt := List.snd_lt_of_mem_zipIdx (h.taken f (List.mem_append_left _ hf))
    rw [← h.count] at hlt
    omega
  cases done with
  -- not even the header is on the disk yet
  | nil =>
      refine ⟨0, loadFrames_of_text js json hmeta (show _ = some (utf8 "") from hfile), .inl rfl,
        fun hqueue => ?_⟩
      rw [List.nil_append, hqueue] at hpieces
      cases hpieces
  | cons header rows =>
      rw [framePieces, List.cons_append, List.cons_eq_cons] at hpieces
      obtain ⟨rfl, hrows⟩ := hpieces
      -- the header and some first rows
      have hdone : rowBytes "frame_no,t_mono_ns,width,height" :: rows =
          framePieces (kept.take rows.length) := by
        rw [framePieces, List.map_take, hrows, List.take_left]
      rw [hdone] at hfile
      refine ⟨rows.length, ?_, .inr hfile, fun hqueue => ?_⟩
      · rw [flatten_framePieces] at hfile
        rw [loadFrames_of_text js json hmeta hfile, parseCSV_frameTable, List.map_map]
        refine congrArg some (List.map_congr_left fun f hf => ?_)
        exact frameOfRow_frameFields js (hsmall f (List.mem_of_mem_take hf))
      · rw [hqueue, List.append_nil] at hrows
        have hlen := congrArg List.length hrows
        rw [List.length_map] at hlen
        exact List.take_of_length_le hlen.le

end Reading

/-! ## The search -/

/-- **The loop finds the last index** at which `p` holds, when `p` holds on a first part of
the indices: all before `lo` and none behind `hi`. -/
theorem bisect_spec {p : ℕ → Bool} {n : ℕ} (hp : ∀ i j, i ≤ j → j < n → p j = true → p i = true)
    (lo hi : ℤ) (ans : ℕ) (hlo : 0 ≤ lo) (hle : lo ≤ hi + 1) (hhi : hi < n)
    (hbelow : ∀ i : ℕ, (i : ℤ) < lo → p i = true)
    (habove : ∀ i : ℕ, hi < i → i < n → p i = false)
    (hans : lo = 0 ∧ ans = 0 ∨ (ans : ℤ) = lo - 1) :
    (bisect p lo hi ans = 0 ∨ p (bisect p lo hi ans) = true) ∧
      ∀ j, bisect p lo hi ans < j → j < n → p j = false := by
  unfold bisect
  by_cases hrange : lo ≤ hi
  · rw [if_pos hrange]
    obtain ⟨mid, hmid⟩ : ∃ mid : ℕ, (mid : ℤ) = (lo + hi) / 2 :=
      ⟨((lo + hi) / 2).toNat, Int.toNat_of_nonneg (by omega)⟩
    simp only [← hmid, Int.toNat_natCast]
    by_cases hpm : p mid = true
    · rw [if_pos hpm]
      refine bisect_spec hp (mid + 1) hi mid (by omega) (by omega) hhi ?_ habove (.inr (by omega))
      intro i hi'
      exact hp i mid (by omega) (by omega) hpm
    · rw [if_neg hpm]
      refine bisect_spec hp lo (mid - 1) ans hlo (by omega) (by omega) hbelow ?_ hans
      intro i hi' hn
      by_contra hpi
      exact hpm (hp mid i (by omega) hn (by simpa using hpi))
  · rw [if_neg hrange]
    refine ⟨?_, fun j hj hn => habove j (by omega) hn⟩
    rcases hans with ⟨-, rfl⟩ | hans
    · exact .inl rfl
    · exact .inr (hbelow ans (by omega))
termination_by (hi + 1 - lo).toNat
decreasing_by all_goals omega

/-- **What `idxAtOrBefore` finds** among ascending times: the last one that is not after `t`,
or the first one when all are. -/
theorem idxAtOrBefore_spec {F : Type} [LinearOrder F] {xs : List F} (hne : xs ≠ [])
    (hsorted : xs.Pairwise (· ≤ ·)) (t : F) :
    ∃ r, ∃ hr : r < xs.length, idxAtOrBefore (xs.map some) t = some r ∧ (r = 0 ∨ xs[r] ≤ t) ∧
      ∀ j, r < j → ∀ hj : j < xs.length, t < xs[j] := by
  have hlen : 0 < xs.length := List.length_pos_iff.mpr hne
  have hp (i : ℕ) : atOrBefore (xs.map some) t i = true ↔ ∃ h : i < xs.length, xs[i] ≤ t := by
    rw [atOrBefore, List.getElem?_map]
    by_cases hi : i < xs.length <;> simp [hi]
  have hmono {i j : ℕ} (hij : i ≤ j) (hj : j < xs.length) : xs[i] ≤ xs[j] := by
    rcases Nat.eq_or_lt_of_le hij with rfl | hlt
    · exact le_rfl
    · exact List.pairwise_iff_getElem.mp hsorted i j _ hj hlt
  by_cases hfirst : beforeFirst (xs.map some) t = true
  · refine ⟨0, hlen, ?_, .inl rfl, fun j _ hj => ?_⟩
    · rw [idxAtOrBefore, if_neg (by simpa using hne), if_pos hfirst]
    · have ht : t < xs[0] := by
        cases xs with
        | nil => exact absurd rfl hne
        | cons x rest => simpa [beforeFirst] using hfirst
      exact ht.trans_le (hmono (Nat.zero_le j) hj)
  -- "not after `t`" holds of a first part of the times, so the loop finds its end
  · have hspec := bisect_spec (p := atOrBefore (xs.map some) t) (n := xs.length) ?_ 0
      ((xs.length : ℤ) - 1) 0 le_rfl (by omega) (by omega) (fun i hi => by omega)
      (fun i hi hn => by omega) (.inl ⟨rfl, rfl⟩)
    · obtain ⟨hfound, hlast⟩ := hspec
      have hr : bisect (atOrBefore (xs.map some) t) 0 ((xs.length : ℤ) - 1) 0 < xs.length := by
        rcases hfound with h | h
        · omega
        · exact ((hp _).mp h).1
      refine ⟨_, hr, ?_, hfound.imp id fun h => ((hp _).mp h).2, fun j hj hjlen => ?_⟩
      · rw [idxAtOrBefore, if_neg (by simpa using hne), if_neg hfirst, List.length_map]
      · by_contra hle
        have hpj := (hp j).mpr ⟨hjlen, not_lt.mp hle⟩
        rw [hlast j hj hjlen] at hpj
        cases hpj
    · intro i j hij hj hpj
      obtain ⟨_, hle⟩ := (hp j).mp hpj
      exact (hp i).mpr ⟨by omega, (hmono hij hj).trans hle⟩

/-! ## A recording of two frames -/

/-- Exact numbers. -/
def exactNumbers : JsFloat ℚ where
  ofText s := if (readPadded s.toList).repr = s then some (readPadded s.toList) else none
  ofInt a := a
  seconds x := x / 1000000000
  toText x := x.num.repr
  ofText_repr a := by rw [readPadded_repr, if_pos rfl]
  toText_ofInt _ _ := rfl
  ofInt_mono _ _ h := Int.cast_le.mpr h
  seconds_mono _ _ h := div_le_div_of_nonneg_right h (by decide)

open Classical in
/-- A parser for the grammar. -/
noncomputable def grammarParse : JsonParse where
  accepts text := decide (JsonGrammar.Value text.toList)
  accepts_of_value _ h := decide_eq_true h

/-- A recording of two frames, half a second apart, that is finished and whose table is on the
disk. -/
def twoFrames : List (Event String) :=
  [.start 0 defaultConfig, .call 0 (.drain .framesCsv), .call 0 (.drain .framesCsv),
    .call 0 (.addFrame [0xFF, 0xD8, 0x01] 0 640 480),
    .call 0 (.addFrame [0xFF, 0xD8, 0x02] 500000000 640 480),
    .call 0 (.frameSaved 0), .call 0 (.frameSaved 0),
    .call 0 (.finish "android" "1.0.0" 600000000), .call 0 .metaSaved,
    .call 0 (.drain .framesCsv), .call 0 (.drain .framesCsv)]

/-- The phone after it. -/
def recordedPhone : World String := (recording (fun _ => 0) [] id).exec emptyPhone twoFrames

theorem recordedPhone_run : (recording (fun _ => 0) [] id).Run twoFrames recordedPhone :=
  Machine.run_of_enabled rfl (by decide)

/-- Its session. -/
def recordedSession : SessionWriter String :=
  recordedPhone.sessions.headD (SessionWriter.create (fun _ => 0) [] defaultConfig 0)

theorem encodes_recordedSession : recordedSession.config.Encodes id := by
  have htexts : ∀ d ∈ ["4.0", "30.0", "50.0", "1.0"], JsonGrammar.Number d.toList := by
    simp only [List.forall_mem_cons, List.not_mem_nil, false_implies, implies_true, and_true]
    exact ⟨JsonGrammar.number_decimal (by decide : JsonGrammar.Whole ['4']) (by decide),
      JsonGrammar.number_decimal (by decide : JsonGrammar.Whole ['3', '0']) (by decide),
      JsonGrammar.number_decimal (by decide : JsonGrammar.Whole ['5', '0']) (by decide),
      JsonGrammar.number_decimal (by decide : JsonGrammar.Whole ['1']) (by decide)⟩
  exact htexts

/-! ## Replays -/

section Replays

variable {D F : Type} [LinearOrder F] (js : JsFloat F) (json : JsonParse)
variable {zone : ℤ → ℤ} {base : DiskPath} {text : D → String}

/-- **The viewer shows what was recorded**, from the moment `finish` has written `meta.json`:
the frames whose rows are on the disk, in the order in which their JPEGs were done.  Every frame
it shows has its number and time, its file is on the disk with the JPEG that was taken under that
number, and no number comes twice.  Once the table is flushed, they are the frames whose JPEGs
were done before `meta.json` was, and only those are missing whose JPEGs were done after it or
still are under way. -/
theorem replay_frames {es : List (Event D)} {w : World D}
    (hrun : (recording zone base text).Run es w)
    (hapart : (startTimes es).Pairwise fun a b => localSecond zone a ≠ localSecond zone b)
    {i : ℕ} {s : SessionWriter D} (hs : w.sessions[i]? = some s) (hconfig : s.config.Encodes text)
    (hmeta : (ledgerOf (callsOf i es)).described = true)
    (hopen : (s.sinks .framesCsv).opened = true) (hfew : s.frameNo ≤ 2 ^ 53) :
    ∃ kept : List (NewFrame × ℕ),
      loadFrames js json w.disk s.dir = some (kept.map (shownFrame js)) ∧
        (kept = [] ∨
          w.disk (s.dir ++ ["camera", "frames.csv"]) = some (framePieces kept).flatten) ∧
        (∀ f ∈ kept, (framesOf (callsOf i es))[f.2]? = some f.1 ∧
          fetchBytes w.disk s.dir (shownFrame js f).src = some f.1.jpeg) ∧
        (kept.map Prod.snd).Nodup ∧
        kept.map Prod.snd <+: (ledgerOf (callsOf i es)).inTime ∧
        ((s.sinks .framesCsv).queue = [] →
          kept.map Prod.snd = (ledgerOf (callsOf i es)).inTime ∧
            (kept.map Prod.snd ++ (ledgerOf (callsOf i es)).late ++
              (ledgerOf (callsOf i es)).waiting).Perm
                (List.range (framesOf (callsOf i es)).length)) := by
  obtain ⟨kept, pend, hrec, htallies, -⟩ := recorded_of_run hrun hapart hs
  have hdescribed := described_of_run hrun hapart hs hconfig
  obtain ⟨n, hload, hrows, hall⟩ := loadFrames_of_recorded js json hrec
    (hdescribed.saved (htallies.unflushed_ne hmeta)) hopen hfew
  refine ⟨kept.take n, hload, hrows, fun f hf => ?_, ?_, ?_, fun hqueue => ?_⟩
  -- a row is written only once its image is on the disk
  · have hmem := List.mem_of_mem_take hf
    refine ⟨List.mem_zipIdx_iff_getElem?.mp (hrec.taken f (List.mem_append_left _ hmem)), ?_⟩
    rw [fetchBytes_shownFrame]
    exact hrec.saved f hmem
  · have hsub : (kept.take n).Sublist (kept ++ pend) :=
      (List.take_sublist n kept).trans (List.sublist_append_left kept pend)
    exact hrec.once.sublist (hsub.map Prod.snd)
  · rw [← htallies.inTime]
    exact (List.take_prefix n kept).map Prod.snd
  · rw [hall hqueue, htallies.inTime, ← hrec.count, htallies.next]
    exact ⟨rfl, perm_ledgerOf _⟩

theorem replay_frames_twoFrames :
    ∃ kept : List (NewFrame × ℕ),
      loadFrames exactNumbers grammarParse recordedPhone.disk recordedSession.dir =
          some (kept.map (shownFrame exactNumbers)) ∧
        kept.map Prod.snd = [0, 1] ∧
        ∀ f ∈ kept, (framesOf (callsOf 0 twoFrames))[f.2]? = some f.1 ∧
          fetchBytes recordedPhone.disk recordedSession.dir (shownFrame exactNumbers f).src =
            some f.1.jpeg := by
  obtain ⟨kept, hload, -, hframes, -, -, hall⟩ := replay_frames exactNumbers grammarParse
    recordedPhone_run (by decide) (i := 0) rfl encodes_recordedSession (by decide) (by decide)
    (by decide)
  exact ⟨kept, hload, (hall (by decide)).1, hframes⟩

/-- Of the first frames of a session, the viewer finds the one of the moment, when the clock
does not go back. -/
theorem seekFrame_first {added : List NewFrame} {shown : List (NewFrame × ℕ)}
    (hfirst : shown <+: added.zipIdx) (hclock : added.Pairwise fun f g => f.tNs ≤ g.tNs)
    (hne : shown ≠ []) (t : F) :
    ∃ no f, shown[no]? = some (f, no) ∧ added[no]? = some f ∧
      seekFrame (shown.map (shownFrame js)) t = some (shownFrame js (f, no)) ∧
      (no = 0 ∨ js.seconds (js.ofInt f.tNs) ≤ t) ∧
      ∀ later g, no < later → later < shown.length → added[later]? = some g →
        t < js.seconds (js.ofInt g.tNs) := by
  have hlen : shown.length ≤ added.length := by
    simpa using hfirst.length_le
  have hget {no : ℕ} (hno : no < shown.length) : shown[no] = (added[no], no) := by
    rw [hfirst.getElem hno, List.getElem_zipIdx, Nat.zero_add]
  -- the times that the binary search runs over
  let xs : List F := shown.map fun f => js.seconds (js.ofInt f.1.tNs)
  have htimes : (shown.map (shownFrame js)).map ViewerFrame.t = xs.map some := by
    simp only [xs, List.map_map]
    rfl
  have hxslen : xs.length = shown.length := List.length_map _
  have hxs {no : ℕ} (hno : no < xs.length) :
      ∃ f, added[no]? = some f ∧ xs[no] = js.seconds (js.ofInt f.tNs) := by
    have hno' := hxslen ▸ hno
    refine ⟨added[no], List.getElem?_eq_getElem _, ?_⟩
    simp only [xs, List.getElem_map, hget hno']
  have hsorted : xs.Pairwise (· ≤ ·) := by
    rw [List.pairwise_iff_getElem]
    intro a b ha hb hab
    obtain ⟨f, hf, ha'⟩ := hxs ha
    obtain ⟨g, hg, hb'⟩ := hxs hb
    rw [ha', hb']
    obtain ⟨_, rfl⟩ := List.getElem?_eq_some_iff.mp hf
    obtain ⟨_, rfl⟩ := List.getElem?_eq_some_iff.mp hg
    exact js.seconds_mono _ _ (js.ofInt_mono _ _ (List.pairwise_iff_getElem.mp hclock a b _ _ hab))
  have hxsne : xs ≠ [] := by simpa [xs] using hne
  obtain ⟨no, hno, hidx, hat, hlater⟩ := idxAtOrBefore_spec hxsne hsorted t
  have hno' : no < shown.length := hxslen ▸ hno
  obtain ⟨f, hf, hxf⟩ := hxs hno
  have hshown : shown[no]? = some (f, no) := by
    obtain ⟨_, hf⟩ := List.getElem?_eq_some_iff.mp hf
    rw [List.getElem?_eq_getElem hno', hget hno', hf]
  refine ⟨no, f, hshown, hf, ?_, hxf ▸ hat, ?_⟩
  · rw [seekFrame, htimes, hidx, Option.bind_some, List.getElem?_map, hshown, Option.map_some]
  · intro later g hlt hll hg
    rw [← hxslen] at hll
    obtain ⟨g', hg', hxg⟩ := hxs hll
    rw [hg, Option.some.injEq] at hg'
    rw [hg', ← hxg]
    exact hlater later hlt hll

/-- **What the viewer shows at a moment** of a session with its `meta.json`, when its JPEGs are
written in turn and its clock does not go back: of the frames in the table, which are the first of
the session, the last one that was not taken after that moment, or the first one when all were.
Once the table is flushed, they are the frames whose JPEGs were done before `meta.json` was. -/
theorem replay_at {es : List (Event D)} {w : World D}
    (hrun : (recording zone base text).Run es w)
    (hapart : (startTimes es).Pairwise fun a b => localSecond zone a ≠ localSecond zone b)
    {i : ℕ} {s : SessionWriter D} (hs : w.sessions[i]? = some s) (hconfig : s.config.Encodes text)
    (hmeta : (ledgerOf (callsOf i es)).described = true)
    (hopen : (s.sinks .framesCsv).opened = true) (hfew : s.frameNo ≤ 2 ^ 53)
    (hturn : InTurn (callsOf i es))
    (hclock : (framesOf (callsOf i es)).Pairwise fun f g => f.tNs ≤ g.tNs) :
    ∃ frames, loadFrames js json w.disk s.dir = some frames ∧
      frames.length ≤ (framesOf (callsOf i es)).length ∧
      ((s.sinks .framesCsv).queue = [] →
        frames.length = (ledgerOf (callsOf i es)).inTime.length) ∧
      ∀ t, frames ≠ [] → ∃ no f, no < frames.length ∧ (framesOf (callsOf i es))[no]? = some f ∧
        seekFrame frames t = some (shownFrame js (f, no)) ∧
        fetchBytes w.disk s.dir (shownFrame js (f, no)).src = some f.jpeg ∧
        (no = 0 ∨ js.seconds (js.ofInt f.tNs) ≤ t) ∧
        ∀ later g, no < later → later < frames.length →
          (framesOf (callsOf i es))[later]? = some g → t < js.seconds (js.ofInt g.tNs) := by
  obtain ⟨kept, pend, hrec, htallies, hord⟩ := recorded_of_run hrun hapart hs
  have hdescribed := described_of_run hrun hapart hs hconfig
  obtain ⟨n, hload, -, hall⟩ := loadFrames_of_recorded js json hrec
    (hdescribed.saved (htallies.unflushed_ne hmeta)) hopen hfew
  have hflushed : (s.sinks .framesCsv).queue = [] →
      (kept.take n).length = (ledgerOf (callsOf i es)).inTime.length := by
    intro hqueue
    rw [hall hqueue, ← htallies.inTime, List.length_map]
  have hfirst := (List.take_prefix n kept).trans (hord hturn).first
  have hlen : (kept.take n).length ≤ (framesOf (callsOf i es)).length := by
    simpa using hfirst.length_le
  refine ⟨(kept.take n).map (shownFrame js), hload, by rwa [List.length_map],
    by rwa [List.length_map], fun t hne => ?_⟩
  obtain ⟨no, f, hshown, hf, hseek, hat, hlater⟩ :=
    seekFrame_first js hfirst hclock (fun hnil => hne (by rw [hnil, List.map_nil])) t
  have hmem : (f, no) ∈ kept := List.mem_of_mem_take (List.mem_of_getElem? hshown)
  refine ⟨no, f, ?_, hf, hseek, ?_, hat, by rwa [List.length_map]⟩
  · rw [List.length_map]
    exact (List.getElem?_eq_some_iff.mp hshown).1
  · rw [fetchBytes_shownFrame]
    exact hrec.saved _ hmem

theorem replay_at_twoFrames :
    ∃ frames, loadFrames exactNumbers grammarParse recordedPhone.disk recordedSession.dir =
        some frames ∧
      frames.length = 2 ∧
      ∀ t, ∃ no f, no < frames.length ∧ (framesOf (callsOf 0 twoFrames))[no]? = some f ∧
        seekFrame frames t = some (shownFrame exactNumbers (f, no)) ∧
        (no = 0 ∨ exactNumbers.seconds (exactNumbers.ofInt f.tNs) ≤ t) := by
  obtain ⟨frames, hload, -, hlen, hshown⟩ := replay_at exactNumbers grammarParse
    recordedPhone_run (by decide) (i := 0) rfl encodes_recordedSession (by decide) (by decide)
    (by decide)
    (by simp [InTurn, callsOf, twoFrames]) (by decide)
  have htwo : frames.length = 2 := hlen (by decide)
  refine ⟨frames, hload, htwo, fun t => ?_⟩
  obtain ⟨no, f, hno, hf, hseek, -, hat, -⟩ := hshown t (by rintro rfl; cases htwo)
  exact ⟨no, f, hno, hf, hseek, hat⟩

end Replays

end SessionFiles
