/-
# Result files

`write_json` of `artifacts.py`, called any number of times by any number of processes: the
text of `json.dumps(data, indent=2)` and a line feed, in UTF-8, is written to a temporary
file, flushed, synced, renamed, and what is left of the temporary name is removed.  A reader
takes a file with `json.loads(path.read_text(encoding="utf-8"))`.

A call whose data `json.dumps` refuses is one that fails before it writes.  The parents of
the path are there; a directory is not renamed or removed.

* `readText` : the text of bytes;
* `jsonBytes`, `loadsFile` : what a call writes, and what a reader makes of bytes;
* `results_whole` : a file has at every moment its initial bytes or the data of one call, on
  the medium too, and while the power is not lost the newest that was put in its place.
-/
import Rvln.AtomicReplace
import Rvln.FileSink
import Rvln.PyJsonDumps

namespace ResultFile

open Json AtomicReplace

/-! ## The text of a file -/

/-- The line ends that a text file is read with. -/
def universalNewlines : Text → Text
  | [] => []
  | ['\r'] => ['\n']
  | '\r' :: '\n' :: rest => '\n' :: universalNewlines rest
  | '\r' :: c :: rest => '\n' :: universalNewlines (c :: rest)
  | c :: rest => c :: universalNewlines rest

/-- `path.read_text(encoding="utf-8")`. -/
def readText (bytes : List UInt8) : Option Text := (Utf8.decode bytes).map universalNewlines

theorem universalNewlines_of_plain {text : Text} (h : ∀ c ∈ text, c ≠ '\r') :
    universalNewlines text = text := by
  induction text with
  | nil => rfl
  | cons c rest ih =>
      obtain ⟨hc, hrest⟩ := List.forall_mem_cons.mp h
      rw [universalNewlines.eq_5 _ _ (by simp [hc]) (by simp [hc]) (by simp [hc]), ih hrest]

theorem readText_utf8 {text : Text} (h : ∀ c ∈ text, c ≠ '\r') :
    readText (Utf8.encode text) = some text := by
  rw [readText, Utf8.decode_encode, Option.map_some, universalNewlines_of_plain h]

/-! ## One call and one reading -/

section

variable (dtoa : Dtoa) (levels : ℕ)

/-- What `write_json` writes for some data. -/
def jsonBytes (data : Json) : Except Raised (List UInt8) :=
  (dumps dtoa (some 2) levels data).map fun text => Utf8.encode (text ++ ['\n'])

/-- `json.loads(path.read_text(encoding="utf-8"))`, of the bytes that are read. -/
def loadsFile (bytes : List UInt8) : Except Raised Json :=
  match readText bytes with
  | none => .error .valueError
  | some text => loads levels text

end

variable {dtoa : Dtoa} {levels levels' : ℕ}

theorem loadsFile_of_jsonBytes {data : Json} {bytes : List UInt8}
    (h : jsonBytes dtoa levels data = .ok bytes) (hdata : Doubles data)
    (hlevels : levels ≤ levels') : loadsFile levels' bytes = .ok data := by
  unfold jsonBytes at h
  cases htext : dumps dtoa (some 2) levels data with
  | error e =>
      rw [htext] at h
      cases h
  | ok text =>
      rw [htext] at h
      obtain rfl := Except.ok.inj h
      have hplain := isPlain_encode htext hdata
      have hreturn : ∀ c ∈ text ++ ['\n'], c ≠ '\r' := by
        intro c hc
        rcases List.mem_append.mp hc with hc | hc
        · rintro rfl
          exact absurd (hplain '\r' hc) (by decide)
        · rw [List.mem_singleton.mp hc]
          decide
      rw [loadsFile, readText_utf8 hreturn]
      exact loads_of_dumps htext hdata hlevels (by simp [isWhitespace])

/-! ## Every file is whole -/

variable {Path Tag : Type} [DecidableEq Path]

theorem mem_puts {path : Path} {called : List (Path × Content)} {es : List (Event Path Tag)}
    {content : Content} (h : content ∈ puts path called es) :
    (path, content) ∈ called ++ calls es := by
  induction es generalizing called with
  | nil => cases h
  | cons e es ih =>
      have hcalls : calls (e :: es) = calls [e] ++ calls es := calls_append [e] es
      rw [hcalls, ← List.append_assoc]
      rcases List.mem_append.mp h with h | h
      · refine List.mem_append_left _ (List.mem_append_left _ ?_)
        cases e with
        | replace j =>
            rw [Option.mem_toList] at h
            obtain ⟨call, hcall, h⟩ := Option.bind_eq_some_iff.mp h
            split at h
            · next hpath =>
                obtain rfl := Option.some.inj h
                exact hpath ▸ List.mem_of_getElem? hcall
            · cases h
        | _ => cases h
      · exact ih h

/-- What a file has had is what it had first, or the content of a call for it. -/
theorem of_mem_versions {fs₀ : FileSystem Path Tag} {es : List (Event Path Tag)} {path : Path}
    {content : Option Content} (h : content ∈ versions fs₀ es path) :
    content = fs₀.read path ∨ ∃ bytes, content = some bytes ∧ (path, bytes) ∈ calls es := by
  rcases List.mem_append.mp h with h | h
  · obtain ⟨bytes, hbytes, rfl⟩ := List.mem_map.mp h
    exact .inr ⟨bytes, rfl, mem_puts (List.mem_reverse.mp hbytes)⟩
  · exact .inl (List.mem_singleton.mp h)

/-- Every call is a `write_json` of some data. -/
def Writes (dtoa : Dtoa) (levels : ℕ) (es : List (Event Path Tag)) : Prop :=
  ∀ call ∈ calls es, ∃ data, Doubles data ∧ jsonBytes dtoa levels data = .ok call.2

/-- A reader gets the data of a call for the file. -/
def ReadsCall (dtoa : Dtoa) (levels levels' : ℕ) (es : List (Event Path Tag)) (path : Path)
    (content : Option Content) : Prop :=
  ∃ data bytes, (path, bytes) ∈ calls es ∧ jsonBytes dtoa levels data = .ok bytes ∧
    content = some bytes ∧ loadsFile levels' bytes = .ok data

variable [DecidableEq Tag]

/-- **A result file is never torn.**  In every run of any number of `write_json` calls, with
calls that fail or are killed at any step and with losses of power at any moment, a file has
its first content, or a reader gets from it the data of one call for it; so has what is on
the medium.  As long as the power is not lost, the content is the newest that was put in the
file's place, and a call that has replaced its file is among those. -/
theorem results_whole {fs₀ : FileSystem Path Tag} (h₀ : fs₀.AtRest) (hlevels : levels ≤ levels')
    {es : List (Event Path Tag)} {w : World Path Tag} (h : (replacing fs₀).Run es w)
    (hwrites : Writes dtoa levels es) (path : Path) :
    (w.fs.read path = fs₀.read path ∨ ReadsCall dtoa levels levels' es path (w.fs.read path)) ∧
      (w.fs.stableRead path = fs₀.read path ∨
        ReadsCall dtoa levels levels' es path (w.fs.stableRead path)) ∧
      (.losePower ∉ es → (versions fs₀ es path).head? = some (w.fs.read path)) ∧
      ∀ (j : ℕ) (writer : AtomicReplace.Writer Path Tag), w.writers[j]? = some writer →
        writer.stage.hasReplaced = true → writer.path = path →
        some writer.content ∈ versions fs₀ es path := by
  have hwhole := Whole.of_run h₀ h
  have hversion {content : Option Content} (hc : content ∈ versions fs₀ es path) :
      content = fs₀.read path ∨ ReadsCall dtoa levels levels' es path content := by
    rcases of_mem_versions hc with hc | ⟨bytes, hc, hcall⟩
    · exact .inl hc
    · obtain ⟨data, hdata, hbytes⟩ := hwrites _ hcall
      exact .inr ⟨data, bytes, hcall, hbytes, hc, loadsFile_of_jsonBytes hbytes hdata hlevels⟩
  refine ⟨hversion (hwhole.read path), hversion (hwhole.stableRead path),
    fun hpower => hwhole.newest hpower path, ?_⟩
  rintro j writer hj hr rfl
  exact mem_versions_of_replaced h₀ h hj hr

/-- A file system without files. -/
def emptyDisk : FileSystem Bool ℕ := ⟨fun _ => none, fun _ => none, fun _ => [], fun _ => [], 0⟩

/-- The record of an episode that has started. -/
def started : Json := .object [("status".toList, .str "started".toList)]

/-- The file of that record. -/
def startedBytes : Content := Utf8.encode "\x7b\n  \"status\": \"started\"\n\x7d\n".toList

/-- The record is put in the place of a file, the file's name settles, and the power is lost
while a second call writes. -/
def interrupted : List (Event Bool ℕ) :=
  [.call true startedBytes, .create 0 0, .write 0 100, .sync 0, .replace 0,
    .settleName (.file true), .clean 0, .call true startedBytes, .create 1 1, .write 1 5,
    .losePower]

theorem results_whole_interrupted :
    ((replacing emptyDisk).exec ⟨emptyDisk, [], []⟩ interrupted).fs.read true = some startedBytes ∧
      ReadsCall Dtoa.exact 2 2 interrupted true
        (((replacing emptyDisk).exec ⟨emptyDisk, [], []⟩ interrupted).fs.read true) := by
  have hrun := Machine.run_of_enabled (M := replacing emptyDisk) rfl
    (by decide : (replacing emptyDisk).Enabled ⟨emptyDisk, [], []⟩ interrupted)
  have hwrites : Writes Dtoa.exact 2 interrupted := by
    have hcalls : calls interrupted = [(true, startedBytes), (true, startedBytes)] := rfl
    intro call hcall
    have hstarted : Doubles started := .object (by simpa using .str _)
    refine ⟨started, hstarted, ?_⟩
    have hcontent : call.2 = startedBytes := by
      rw [hcalls] at hcall
      simp at hcall
      rw [hcall]
    rw [hcontent]
    rfl
  have hread : ((replacing emptyDisk).exec ⟨emptyDisk, [], []⟩ interrupted).fs.read true =
      some startedBytes := rfl
  refine ⟨hread, (results_whole ⟨rfl, rfl, by simp [emptyDisk]⟩ le_rfl hrun hwrites
    true).1.resolve_left ?_⟩
  rw [hread]
  nofun

end ResultFile
