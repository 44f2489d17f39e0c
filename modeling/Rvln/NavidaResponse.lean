/-
# The grammar of a NaVIDA response

`action_to_embedding` of `backends/navida.py`: the answer between the tags, its
first part between commas, and the anchored pattern `_ACTION`, with the defaults
and the ranges of the magnitudes.

The second half puts the grammar under the scan of `chunk_actions`.  The scan of a
response is the scan of its answer, part by part, and of what stands around it
(`findall_answer`, `findall_splitCommas`); in a part that the grammar accepts it
finds nothing, or the one match that stands for the same action
(`findall_of_readPart`).
-/
import Mathlib.Data.List.DropRight
import Rvln.NavidaBridge

namespace NavidaText

/-! ## The code -/

/-- `str.strip`. -/
def strip (s : Text) : Text := (s.dropWhile isSpace).rdropWhile isSpace

/-- `str.rstrip(".")`. -/
def rstripDots (s : Text) : Text := s.rdropWhile (· == '.')

/-- `str.split(",")`: the first part and the others. -/
def splitCommas : Text → Text × List Text
  | [] => ([], [])
  | c :: cs =>
      let (first, others) := splitCommas cs
      if c = ',' then ([], first :: others) else (c :: first, others)

/-- The text before and after the first occurrence of a tag, in either case. -/
def findTag (tag : Text) : Text → Option (Text × Text)
  | [] => (eat sameIgnoringCase tag []).map fun rest => ([], rest)
  | c :: cs =>
      match eat sameIgnoringCase tag (c :: cs) with
      | some rest => some ([], rest)
      | none => (findTag tag cs).map fun m => (c :: m.1, m.2)

/-- `_ANSWER.search`: the text before the first pair of tags, inside it and
after it. -/
def searchAnswer (response : Text) : Option (Text × Text × Text) :=
  match findTag "<answer>".toList response with
  | none => none
  | some (before, rest) =>
      (findTag "</answer>".toList rest).map fun m => (before, m.1, m.2)

/-- The answer, with what stands before and after it. -/
def answer (response : Text) : Text × Text × Text :=
  match searchAnswer response with
  | some m => m
  | none => ([], response, [])

/-- What a match of `_ACTION` captures: the spaces behind `move`, the side, the
digits. -/
inductive ActionMatch
  | forward (spaces : Option Text) (digits : Option Text)
  | turn (left : Bool) (digits : Option Text)
  | stop
  deriving DecidableEq

/-- `(?:\s+(\d+)\s*unit)?` up to the end of the text. -/
def optionalNumber (units : List Text) (s : Text) : Option (Option Text) :=
  if s = [] then some none
  else
    match spacedNumber s with
    | none => none
    | some (digits, t) =>
        if ∃ u ∈ units, eat sameIgnoringCase u (t.dropWhile isSpace) = some [] then
          some (some digits)
        else none

/-- `(?:move\s+)?`: the spaces and the rest. -/
def dropMove (s : Text) : Option Text × Text :=
  match eat sameIgnoringCase "move".toList s with
  | none => (none, s)
  | some t =>
      if t.takeWhile isSpace = [] then (none, s)
      else (some (t.takeWhile isSpace), t.dropWhile isSpace)

/-- `_ACTION.fullmatch`, its alternatives in order. -/
def fullmatch (s : Text) : Option ActionMatch :=
  let (spaces, t) := dropMove s
  match eat sameIgnoringCase "forward".toList t with
  | some rest => (optionalNumber ["cm".toList] rest).map (.forward spaces)
  | none =>
      match eat sameIgnoringCase "turn".toList s with
      | some t =>
          -- at least one space
          if t.takeWhile isSpace = [] then none
          else
            let units := ["degree".toList, "degrees".toList]
            match eat sameIgnoringCase "left".toList (t.dropWhile isSpace) with
            | some rest => (optionalNumber units rest).map (.turn true)
            | none =>
                match eat sameIgnoringCase "right".toList (t.dropWhile isSpace) with
                | some rest => (optionalNumber units rest).map (.turn false)
                | none => none
      | none => if eat sameIgnoringCase "stop".toList s = some [] then some .stop else none

/-- An action of the response: centimetres ahead, or degrees to one side. -/
inductive Instr
  | stop
  | forward (distance : ℕ)
  | turn (left : Bool) (degrees : ℕ)
  deriving DecidableEq, Repr

/-- `int(match.group(i) or default)`. -/
def magnitude (digits : Option Text) (default : ℕ) : Except PyError ℕ :=
  match digits with
  | none => .ok default
  | some digits => intOf digits

/-- `action_to_embedding` from the stripped first part on.  Where neither the
text nor the groups tell a `forward`, `match.group(2)` may be `None`. -/
def readAction (first : Text) : Except PyError Instr :=
  match fullmatch first with
  | none => .error .valueError
  | some .stop =>
      if first.map Char.toLower = "stop".toList then .ok .stop
      -- `match.group(2).lower()` of a turn without a side
      else .error .attributeError
  | some (.forward spaces digits) =>
      if digits.isSome ∨ spaces = none ∨ spaces = some [' '] then
        match magnitude digits 25 with
        | .error e => .error e
        | .ok distance =>
            if 0 < distance ∧ distance ≤ 75 then .ok (.forward distance) else .error .valueError
      else .error .attributeError
  | some (.turn left digits) =>
      match magnitude digits 15 with
      | .error e => .error e
      | .ok degrees =>
          if 0 < degrees ∧ degrees ≤ 45 then .ok (.turn left degrees) else .error .valueError

/-- The first action of the grammar in a part between commas. -/
def readPart (part : Text) : Except PyError Instr := readAction (rstripDots (strip part))

section

variable {K : Type*} [Field K] [LinearOrder K] [Trig K]

/-- The single row that an action becomes. -/
def Instr.embedding : Instr → List (PyFloat K)
  | .stop => [.fin 0, .fin 0, .fin 1, .fin 0]
  | .forward distance => [.fin (distance / 100), .fin 0, .fin 1, .fin 0]
  | .turn left degrees =>
      let yaw : K := Trig.radians (degrees : K) * if left then 1 else -1
      [.fin 0, .fin 0, .fin (Trig.cos yaw), .fin (Trig.sin yaw)]

/-- `action_to_embedding`. -/
def actionToEmbedding (response : Text) : Except PyError (List (PyFloat K)) :=
  (readPart (splitCommas (answer response).2.1).1).map Instr.embedding

/-- The motion that an action stands for. -/
def Instr.action : Instr → NavidaAction K
  | .stop => ⟨0, 0⟩
  | .forward distance => ⟨distance / 100, 0⟩
  | .turn left degrees =>
      ⟨0, if left then Trig.radians (degrees : K) else -Trig.radians (degrees : K)⟩

end

/-! ## The scan of a response -/

theorem splitCommas_join (s : Text) :
    s = (splitCommas s).1 ++ (splitCommas s).2.flatMap (',' :: ·) := by
  induction s with
  | nil => rfl
  | cons c cs ih =>
      rw [splitCommas]
      dsimp only
      split
      · rename_i hc
        rw [List.nil_append, List.flatMap_cons, List.cons_append, ← ih, hc]
      · rw [List.cons_append, ← ih]

/-- The scan of a text is the scan of the parts between its commas. -/
theorem findall_splitCommas (s : Text) :
    findall s = findall (splitCommas s).1 ++ (splitCommas s).2.flatMap findall := by
  have hjoin : ∀ (first : Text) (others : List Text),
      findall (first ++ others.flatMap (',' :: ·)) = findall first ++ others.flatMap findall := by
    intro first others
    induction others generalizing first with
    | nil => simp
    | cons part others ih =>
        rw [List.flatMap_cons, List.flatMap_cons, List.cons_append, findall_sep separates_comma,
          ih part]
  conv_lhs => rw [splitCommas_join s]
  exact hjoin _ _

theorem findTag_spec {tag s : Text} {m : Text × Text} (h : findTag tag s = some m) :
    ∃ w, s = m.1 ++ (w ++ m.2) ∧
      List.Forall₂ (fun p c => sameIgnoringCase p c = true) tag w := by
  induction s generalizing m with
  | nil =>
      obtain ⟨rest, hrest, rfl⟩ := Option.map_eq_some_iff.mp h
      exact eq_of_eat hrest
  | cons c cs ih =>
      rw [findTag] at h
      split at h
      · rename_i rest hrest
        cases h
        exact eq_of_eat hrest
      · obtain ⟨m, hm, rfl⟩ := Option.map_eq_some_iff.mp h
        obtain ⟨w, hs, hw⟩ := ih hm
        exact ⟨w, by rw [hs, List.cons_append], hw⟩

/-- The scan passes over a tag, and no match reaches across it. -/
theorem findall_of_findTag (name : Text) {s : Text} {m : Text × Text}
    (hname : EveryLetter (isSpace · = false) name)
    (h : findTag ('<' :: (name ++ ['>'])) s = some m) :
    findall s = findall m.1 ++ findall m.2 := by
  obtain ⟨w, hs, hw⟩ := findTag_spec h
  obtain ⟨c, w', hopen, hw', rfl⟩ := List.forall₂_cons_left_iff.mp hw
  obtain ⟨v, u, rfl, hv, hu⟩ := exists_append_of_forall₂ hw'
  obtain ⟨d, u', hclose, hu', rfl⟩ := List.forall₂_cons_left_iff.mp hu
  obtain rfl := List.forall₂_nil_left_iff.mp hu'
  have hc : c = '<' := by simpa [sameIgnoringCase] using hopen
  have hd : d = '>' := by simpa [sameIgnoringCase] using hclose
  have hspace : ∀ e ∈ v, isSpace e = false := hname.matched hv
  rw [hs, hc, hd, List.cons_append, findall_sep separates_open, List.append_assoc,
    List.singleton_append, findall_sep separates_close, findall_of_no_space hspace,
    List.nil_append]

/-- The scan of a response is the scan of what stands before the answer, of the
answer, and of what stands behind it. -/
theorem findall_answer (response : Text) :
    findall response = findall (answer response).1 ++ findall (answer response).2.1 ++
      findall (answer response).2.2 := by
  unfold answer searchAnswer
  cases hopen : findTag "<answer>".toList response with
  | none => simp
  | some m =>
      cases hclose : findTag "</answer>".toList m.2 with
      | none => simp only [hclose, Option.map_none, findall_nil, List.nil_append, List.append_nil]
      | some m' =>
          have h₁ : findall response = findall m.1 ++ findall m.2 :=
            findall_of_findTag "answer".toList (by decide) hopen
          have h₂ : findall m.2 = findall m'.1 ++ findall m'.2 :=
            findall_of_findTag "/answer".toList (by decide) hclose
          simp only [hclose, Option.map_some, h₁, h₂, List.append_assoc]

/-! ## A part that the grammar accepts

`strip` and `rstrip(".")` leave spaces and dots behind the action, which the scan
still sees. -/

/-- A character that `strip` or `rstrip(".")` removes. -/
def Trailing (c : Char) : Prop := c = '.' ∨ isSpace c = true

theorem Trailing.quiet {c : Char} (h : Trailing c) : Quiet c := by
  rcases h with rfl | h
  · decide
  · exact quiet_of_isSpace h

theorem Trailing.isDigit {c : Char} (h : Trailing c) : isDigit c = false := by
  rcases h with rfl | h
  · decide
  · exact isDigit_of_isSpace h

/-- There is no number in what is stripped. -/
theorem spacedNumber_trailing {e : Text} (he : ∀ c ∈ e, Trailing c) : spacedNumber e = none := by
  by_contra hne
  obtain ⟨d, hd⟩ := Option.ne_none_iff_exists'.mp hne
  obtain ⟨-, hdigits, hsplit, hdigit, -⟩ := spacedNumber_spec hd
  obtain ⟨c, hc⟩ := List.exists_mem_of_ne_nil _ hdigits
  have hmem : c ∈ e := by
    rw [hsplit]
    exact List.mem_append_right _ (List.mem_append_left _ hc)
  exact Bool.noConfusion ((he c hmem).isDigit.symm.trans (hdigit c hc))

/-- A part around the action that is read from it. -/
theorem exists_trailing (part : Text) :
    ∃ front e, part = front ++ (rstripDots (strip part) ++ e) ∧ (∀ c ∈ front, Quiet c) ∧
      ∀ c ∈ e, Trailing c := by
  let rest := part.dropWhile isSpace
  refine ⟨part.takeWhile isSpace,
    (strip part).rtakeWhile (· == '.') ++ rest.rtakeWhile isSpace, ?_, ?_, ?_⟩
  · have hdots : rstripDots (strip part) ++ (strip part).rtakeWhile (· == '.') = strip part :=
      List.rdropWhile_append_rtakeWhile ..
    have hspaces : strip part ++ rest.rtakeWhile isSpace = rest :=
      List.rdropWhile_append_rtakeWhile ..
    rw [← List.append_assoc (rstripDots (strip part)), hdots, hspaces]
    exact List.takeWhile_append_dropWhile.symm
  · exact quiet_takeWhile_isSpace part
  · refine List.forall_mem_append.mpr ⟨fun c hc => ?_, fun c hc => ?_⟩
    · have hdot : (c == '.') = true := List.mem_rtakeWhile_imp (p := (· == '.')) hc
      exact .inl (beq_iff_eq.mp hdot)
    · exact .inr (List.mem_rtakeWhile_imp hc)

/-! ### The number -/

/-- Units that the scan passes over. -/
def QuietUnits (units : List Text) : Prop :=
  ∀ u ∈ units, u ≠ [] ∧ EveryLetter Quiet u

instance (units : List Text) : Decidable (QuietUnits units) := by
  unfold QuietUnits
  infer_instance

/-- The end of an action is quiet, and if it is not empty, its number ends
within it. -/
theorem optionalNumber_spec {units : List Text} {tail : Text} {digits : Option Text}
    (hunits : QuietUnits units) (h : optionalNumber units tail = some digits) :
    (∀ c ∈ tail, Quiet c) ∧
      (tail = [] ∨ ∃ d, spacedNumber tail = some d ∧ digits = some d.1 ∧ d.2 ≠ []) := by
  unfold optionalNumber at h
  split at h
  · rename_i hnil
    rw [hnil]
    exact ⟨nofun, .inl rfl⟩
  · split at h
    · cases h
    · rename_i ds t hd
      split at h
      · rename_i hunit
        cases h
        obtain ⟨u, hu, heat⟩ := hunit
        obtain ⟨w, hw, hletters⟩ := eq_of_eat heat
        obtain ⟨hne, hquiet⟩ := hunits u hu
        rw [List.append_nil] at hw
        obtain ⟨-, -, hsplit, hdigit, -⟩ := spacedNumber_spec hd
        have ht : ∀ c ∈ t, Quiet c := by
          rw [← List.takeWhile_append_dropWhile (p := isSpace) (l := t), hw]
          exact List.forall_mem_append.mpr
            ⟨quiet_takeWhile_isSpace t, hquiet.matched hletters⟩
        refine ⟨?_, .inr ⟨_, hd, rfl, ?_⟩⟩
        · have hdigits : ∀ c ∈ ds, Quiet c := fun c hc => quiet_of_isDigit (hdigit c hc)
          rw [hsplit]
          exact List.forall_mem_append.mpr
            ⟨quiet_takeWhile_isSpace tail, List.forall_mem_append.mpr ⟨hdigits, ht⟩⟩
        · rintro rfl
          have hnil : w = [] := hw.symm
          rw [hnil] at hletters
          exact hne (List.forall₂_nil_right_iff.mp hletters)
      · cases h

/-- Nothing behind a verb can begin a match. -/
theorem quiet_end {units : List Text} {tail e : Text} {digits : Option Text}
    (hunits : QuietUnits units) (h : optionalNumber units tail = some digits)
    (he : ∀ c ∈ e, Trailing c) : ∀ c ∈ tail ++ e, Quiet c :=
  List.forall_mem_append.mpr ⟨(optionalNumber_spec hunits h).1, fun c hc => (he c hc).quiet⟩

/-- The number that the scan finds behind a verb is the one that the grammar
finds there. -/
theorem number_of_optionalNumber {units : List Text} {tail e : Text} {digits : Option Text}
    {d : Text × Text} (hunits : QuietUnits units) (h : optionalNumber units tail = some digits)
    (he : ∀ c ∈ e, Trailing c) (hd : spacedNumber (tail ++ e) = some d) :
    digits = some d.1 ∧ ∀ c ∈ d.2, Quiet c := by
  obtain ⟨hquiet, rfl | ⟨d', hd', rfl, hne⟩⟩ := optionalNumber_spec hunits h
  · rw [List.nil_append, spacedNumber_trailing he] at hd
    cases hd
  · rw [spacedNumber_append_of_ne hd' hne] at hd
    obtain rfl := Option.some.inj hd
    obtain ⟨-, -, hsplit, -, -⟩ := spacedNumber_spec hd'
    have hrest : ∀ c ∈ d'.2, Quiet c := by
      intro c hc
      apply hquiet
      rw [hsplit]
      exact List.mem_append_right _ (List.mem_append_right _ hc)
    exact ⟨rfl, List.forall_mem_append.mpr ⟨hrest, fun c hc => (he c hc).quiet⟩⟩

/-! ### The verb -/

/-- The side of a turn. -/
def sideText (left : Bool) : Text := if left then "left".toList else "right".toList

/-- The verb of the scan for a turn to one side. -/
def Verb.side (left : Bool) : Verb := if left then .turnLeft else .turnRight

theorem Verb.side_text (left : Bool) :
    (Verb.side left).text = "turn".toList ++ ' ' :: sideText left := by
  cases left <;> rfl

/-- A `t` that no `u` follows is passed over. -/
theorem findall_t {t : Char} {x : Text} (ht : sameIgnoringCase 't' t = true)
    (hx : ∀ c ∈ x, Quiet c) : findall (t :: x) = [] := by
  have hf : t ≠ 'f' := by
    rintro rfl
    exact absurd ht (by decide)
  have hu : x.head? ≠ some 'u' := by
    intro hu
    exact (hx 'u' (List.mem_of_mem_head? hu)).ne.2.2 rfl
  rw [findall_cons_of_none (matchAt_none_of_second (fun h => absurd h hf) (fun _ => hu))]
  exact findall_quiet hx

/-- `left` and `right` are passed over. -/
theorem findall_side {left : Bool} {w x : Text}
    (hw : List.Forall₂ (fun p c => sameIgnoringCase p c = true) (sideText left) w)
    (hx : ∀ c ∈ x, Quiet c) : findall (w ++ x) = [] := by
  cases left with
  | true =>
      have hw : List.Forall₂ (fun p c => sameIgnoringCase p c = true)
        (['l', 'e'] ++ ['f', 't']) w := hw
      obtain ⟨le, ft, rfl, hle, hft⟩ := exists_append_of_forall₂ hw
      obtain ⟨f, ft', -, hft', rfl⟩ := List.forall₂_cons_left_iff.mp hft
      obtain ⟨t, w', ht, hw', rfl⟩ := List.forall₂_cons_left_iff.mp hft'
      obtain rfl := List.forall₂_nil_left_iff.mp hw'
      have ho : t ≠ 'o' ∧ t ≠ 'u' := by
        constructor <;> rintro rfl <;> exact absurd ht (by decide)
      have hskip : matchAt (f :: t :: x) = none :=
        matchAt_none_of_second (fun _ h => ho.1 (Option.some.inj h))
          (fun _ h => ho.2 (Option.some.inj h))
      rw [List.append_assoc, findall_quiet_append (EveryLetter.matched (by decide) hle)]
      show findall (f :: t :: x) = []
      rw [findall_cons_of_none hskip]
      exact findall_t ht hx
  | false =>
      have hw : List.Forall₂ (fun p c => sameIgnoringCase p c = true)
        (['r', 'i', 'g', 'h'] ++ ['t']) w := hw
      obtain ⟨righ, t', rfl, hrigh, ht'⟩ := exists_append_of_forall₂ hw
      obtain ⟨t, w', ht, hw', rfl⟩ := List.forall₂_cons_left_iff.mp ht'
      obtain rfl := List.forall₂_nil_left_iff.mp hw'
      rw [List.append_assoc, findall_quiet_append (EveryLetter.matched (by decide) hrigh)]
      exact findall_t ht hx

/-- `stop` is passed over. -/
theorem findall_stop {w x : Text}
    (hw : List.Forall₂ (fun p c => sameIgnoringCase p c = true) "stop".toList w)
    (hx : ∀ c ∈ x, Quiet c) : findall (w ++ x) = [] := by
  have hw : List.Forall₂ (fun p c => sameIgnoringCase p c = true) ['s', 't', 'o', 'p'] w := hw
  obtain ⟨s, w₁, hs, hw₁, rfl⟩ := List.forall₂_cons_left_iff.mp hw
  obtain ⟨t, w₂, ht, hw₂, rfl⟩ := List.forall₂_cons_left_iff.mp hw₁
  have hsf : s ≠ 'f' ∧ s ≠ 't' := by
    constructor <;> rintro rfl <;> exact absurd hs (by decide)
  have hop : ∀ c ∈ w₂ ++ x, Quiet c :=
    List.forall_mem_append.mpr ⟨EveryLetter.matched (by decide) hw₂, hx⟩
  rw [List.cons_append, findall_cons_of_none (matchAt_none_of_ne hsf.1 hsf.2)]
  exact findall_t ht hop

/-- The scan finds `forward` only with the number that the grammar finds. -/
theorem findall_forward {w tail e : Text} {digits : Option Text}
    (hw : List.Forall₂ (fun p c => sameIgnoringCase p c = true) "forward".toList w)
    (h : optionalNumber ["cm".toList] tail = some digits) (he : ∀ c ∈ e, Trailing c) :
    findall (w ++ (tail ++ e)) = [] ∨
      ∃ ds, digits = some ds ∧ findall (w ++ (tail ++ e)) = [(.forward, ds)] := by
  have hunits : QuietUnits ["cm".toList] := by decide
  have hletters : List.Forall₂ (fun p c => sameIgnoringCase p c = true)
    ('f' :: ['o', 'r', 'w', 'a', 'r', 'd']) w := hw
  obtain ⟨f, w₁, hf, hw₁, rfl⟩ := List.forall₂_cons_left_iff.mp hletters
  rw [List.cons_append, findall_cons]
  cases hm : matchAt (f :: (w₁ ++ (tail ++ e))) with
  | none =>
      left
      have hletters : ∀ c ∈ w₁, Quiet c := EveryLetter.matched (by decide) hw₁
      exact findall_quiet (List.forall_mem_append.mpr ⟨hletters, quiet_end hunits h he⟩)
  | some m =>
      right
      obtain ⟨v, t, d, hs, hd, rfl⟩ := matchAt_spec hm
      have hft : f ≠ 't' := by
        rintro rfl
        exact absurd hf (by decide)
      cases v with
      | forward =>
          have hs : (f :: w₁) ++ (tail ++ e) = Verb.forward.text ++ t := hs
          have hlen : (f :: w₁).length = Verb.forward.text.length := hw.length_eq.symm
          obtain ⟨-, ht⟩ := List.append_inj hs hlen
          obtain ⟨hdigits, hrest⟩ := number_of_optionalNumber hunits h he (ht ▸ hd)
          refine ⟨d.1, hdigits, ?_⟩
          show (Verb.forward, d.1) :: findall d.2 = _
          rw [findall_quiet hrest]
      | turnLeft => exact absurd (List.cons.inj hs).1 hft
      | turnRight => exact absurd (List.cons.inj hs).1 hft

/-- A matched turn has one space, and the side that the grammar finds. -/
theorem side_of_match {left side : Bool} {spaces dir x y : Text}
    (hspaces : ∀ c ∈ spaces, isSpace c = true)
    (hdir : List.Forall₂ (fun p c => sameIgnoringCase p c = true) (sideText left) dir)
    (h : spaces ++ (dir ++ x) = ' ' :: (sideText side ++ y)) : side = left ∧ x = y := by
  have hlen : dir.length = (sideText left).length := hdir.length_eq.symm
  obtain ⟨d, dir, hd, rfl⟩ : ∃ d dir', sameIgnoringCase (if left then 'l' else 'r') d = true ∧
      dir = d :: dir' := by
    cases left with
    | true =>
        obtain ⟨d, dir', hd, -, rfl⟩ := List.forall₂_cons_left_iff.mp hdir
        exact ⟨d, dir', hd, rfl⟩
    | false =>
        obtain ⟨d, dir', hd, -, rfl⟩ := List.forall₂_cons_left_iff.mp hdir
        exact ⟨d, dir', hd, rfl⟩
  rcases spaces with _ | ⟨c, _ | ⟨c', spaces⟩⟩
  · have hspace : d = ' ' := (List.cons.inj h).1
    rw [hspace] at hd
    cases left <;> exact absurd hd (by decide)
  · have h : (d :: dir) ++ x = sideText side ++ y := (List.cons.inj h).2
    have hside : side = left := by
      cases left <;> cases side <;> first | rfl |
        exact absurd ((List.cons.inj h).1 ▸ hd) (by decide)
    rw [hside] at h
    exact ⟨hside, (List.append_inj h hlen).2⟩
  · have h : c' :: (spaces ++ ((d :: dir) ++ x)) = sideText side ++ y := (List.cons.inj h).2
    have hc' : isSpace c' = true := hspaces c' (by simp)
    cases side with
    | true =>
        rw [show c' = 'l' from (List.cons.inj h).1] at hc'
        exact absurd hc' (by decide)
    | false =>
        rw [show c' = 'r' from (List.cons.inj h).1] at hc'
        exact absurd hc' (by decide)

/-- The scan finds a turn only to the side and with the number that the grammar
finds. -/
theorem findall_turn {left : Bool} {w spaces dir tail e : Text} {digits : Option Text}
    (hw : List.Forall₂ (fun p c => sameIgnoringCase p c = true) "turn".toList w)
    (hspaces : ∀ c ∈ spaces, isSpace c = true)
    (hdir : List.Forall₂ (fun p c => sameIgnoringCase p c = true) (sideText left) dir)
    (h : optionalNumber ["degree".toList, "degrees".toList] tail = some digits)
    (he : ∀ c ∈ e, Trailing c) :
    findall (w ++ (spaces ++ (dir ++ (tail ++ e)))) = [] ∨
      ∃ ds, digits = some ds ∧
        findall (w ++ (spaces ++ (dir ++ (tail ++ e)))) = [(.side left, ds)] := by
  have hunits : QuietUnits ["degree".toList, "degrees".toList] := by decide
  have hletters : List.Forall₂ (fun p c => sameIgnoringCase p c = true)
    ('t' :: 'u' :: ['r', 'n']) w := hw
  obtain ⟨t, w₁, ht, hw₁, rfl⟩ := List.forall₂_cons_left_iff.mp hletters
  obtain ⟨u, rn, hu, hrn, rfl⟩ := List.forall₂_cons_left_iff.mp hw₁
  rw [List.cons_append, findall_cons]
  cases hm : matchAt (t :: (u :: rn ++ (spaces ++ (dir ++ (tail ++ e))))) with
  | none =>
      left
      -- no match here, so none at the letters, the spaces and the side behind
      have huf : u ≠ 'f' ∧ u ≠ 't' := by
        constructor <;> rintro rfl <;> exact absurd hu (by decide)
      show findall (u :: (rn ++ (spaces ++ (dir ++ (tail ++ e))))) = []
      rw [findall_cons_of_none (matchAt_none_of_ne huf.1 huf.2),
        findall_quiet_append (EveryLetter.matched (by decide) hrn),
        findall_quiet_append fun c hc => quiet_of_isSpace (hspaces c hc)]
      exact findall_side hdir (quiet_end hunits h he)
  | some m =>
      right
      obtain ⟨v, rest, d, hs, hd, rfl⟩ := matchAt_spec hm
      -- a match here is a turn, with one space, in the same letters
      obtain ⟨side, rfl⟩ : ∃ side, v = Verb.side side := by
        cases v with
        | forward =>
            have htf : t = 'f' := (List.cons.inj hs).1
            rw [htf] at ht
            exact absurd ht (by decide)
        | turnLeft => exact ⟨true, rfl⟩
        | turnRight => exact ⟨false, rfl⟩
      have htext : (Verb.side side).text ++ rest =
          "turn".toList ++ (' ' :: (sideText side ++ rest)) := by
        rw [Verb.side_text, List.append_assoc, List.cons_append]
      have hs : (t :: u :: rn) ++ (spaces ++ (dir ++ (tail ++ e))) =
          "turn".toList ++ (' ' :: (sideText side ++ rest)) := hs.trans htext
      obtain ⟨-, hs⟩ := List.append_inj hs hw.length_eq.symm
      obtain ⟨rfl, rfl⟩ := side_of_match hspaces hdir hs
      obtain ⟨hdigits, hrest⟩ := number_of_optionalNumber hunits h he hd
      refine ⟨d.1, hdigits, ?_⟩
      show (Verb.side side, d.1) :: findall d.2 = _
      rw [findall_quiet hrest]

/-! ### The whole part -/

/-- What a match of the grammar is to the scan: the match of the scan that has the
same verb and the same digits, if the number is written out. -/
def ActionMatch.written : ActionMatch → Option (Verb × Text)
  | .forward _ digits => digits.map fun ds => (.forward, ds)
  | .turn left digits => digits.map fun ds => (.side left, ds)
  | .stop => none

/-- The spaces behind `move`, in the text. -/
theorem dropMove_spec (s : Text) :
    ∃ move, s = move ++ (dropMove s).2 ∧ ∀ c ∈ move, Quiet c := by
  unfold dropMove
  split
  · exact ⟨[], rfl, nofun⟩
  · rename_i t ht
    split
    · exact ⟨[], rfl, nofun⟩
    · obtain ⟨w, rfl, hw⟩ := eq_of_eat ht
      refine ⟨w ++ t.takeWhile isSpace, ?_, ?_⟩
      · rw [List.append_assoc]
        show w ++ t = w ++ (t.takeWhile isSpace ++ t.dropWhile isSpace)
        rw [List.takeWhile_append_dropWhile]
      · exact List.forall_mem_append.mpr
          ⟨EveryLetter.matched (by decide) hw, quiet_takeWhile_isSpace t⟩

/-- The scan of a turn of the grammar, up to the side. -/
theorem findall_turn_of_eat (left : Bool) {s t rest e : Text} {digits : Option Text}
    (ht : eat sameIgnoringCase "turn".toList s = some t)
    (hrest : eat sameIgnoringCase (sideText left) (t.dropWhile isSpace) = some rest)
    (h : optionalNumber ["degree".toList, "degrees".toList] rest = some digits)
    (he : ∀ c ∈ e, Trailing c) :
    findall (s ++ e) = [] ∨
      ∃ ds, digits = some ds ∧ findall (s ++ e) = [(.side left, ds)] := by
  obtain ⟨w, rfl, hw⟩ := eq_of_eat ht
  obtain ⟨dir, hdir, hside⟩ := eq_of_eat hrest
  have hsplit : t = t.takeWhile isSpace ++ (dir ++ rest) := by
    rw [← hdir, List.takeWhile_append_dropWhile]
  have htext : (w ++ t) ++ e = w ++ (t.takeWhile isSpace ++ (dir ++ (rest ++ e))) := by
    conv_lhs => rw [hsplit]
    simp only [List.append_assoc]
  rw [htext]
  exact findall_turn hw (fun c hc => List.mem_takeWhile_imp hc) hside h he

/-- The scan of an action of the grammar finds nothing, or the action as written. -/
theorem findall_of_fullmatch {s e : Text} {m : ActionMatch} (h : fullmatch s = some m)
    (he : ∀ c ∈ e, Trailing c) :
    findall (s ++ e) = [] ∨ ∃ found, m.written = some found ∧ findall (s ++ e) = [found] := by
  unfold fullmatch at h
  dsimp only at h
  split at h
  · rename_i rest hrest
    obtain ⟨digits, hdigits, rfl⟩ := Option.map_eq_some_iff.mp h
    -- `move` is quiet, so the scan begins at `forward`
    obtain ⟨move, hmove, hquiet⟩ := dropMove_spec s
    obtain ⟨w, hw, hletters⟩ := eq_of_eat hrest
    have htext : s ++ e = move ++ (w ++ (rest ++ e)) := by
      rw [hmove, hw]
      simp only [List.append_assoc]
    rw [htext, findall_quiet_append hquiet]
    rcases findall_forward hletters hdigits he with hnil | ⟨ds, rfl, hone⟩
    · exact .inl hnil
    · exact .inr ⟨_, rfl, hone⟩
  · split at h
    · rename_i t ht
      split at h
      · cases h
      · split at h
        · rename_i rest hrest
          obtain ⟨digits, hdigits, rfl⟩ := Option.map_eq_some_iff.mp h
          rcases findall_turn_of_eat true ht hrest hdigits he with hnil | ⟨ds, rfl, hone⟩
          · exact .inl hnil
          · exact .inr ⟨_, rfl, hone⟩
        · split at h
          · rename_i rest hrest
            obtain ⟨digits, hdigits, rfl⟩ := Option.map_eq_some_iff.mp h
            rcases findall_turn_of_eat false ht hrest hdigits he with hnil | ⟨ds, rfl, hone⟩
            · exact .inl hnil
            · exact .inr ⟨_, rfl, hone⟩
          · cases h
    · split at h
      · rename_i hstop
        cases h
        obtain ⟨w, rfl, hw⟩ := eq_of_eat hstop
        rw [List.append_nil]
        exact .inl (findall_stop hw fun c hc => (he c hc).quiet)
      · cases h

/-- The scan's match is the action, written out with a number that `int` reads. -/
def Instr.Written (found : Verb × Text) : Instr → Prop
  | .stop => False
  | .forward distance => found.1 = .forward ∧ intOf found.2 = .ok distance
  | .turn left degrees => found.1 = .side left ∧ intOf found.2 = .ok degrees

/-- The magnitudes that `action_to_embedding` lets through. -/
def Instr.Valid : Instr → Prop
  | .stop => True
  | .forward distance => 0 < distance ∧ distance ≤ 75
  | .turn _ degrees => 0 < degrees ∧ degrees ≤ 45

/-- What `readAction` makes of a match: a valid action, and the written one if
there is one. -/
theorem readAction_spec {first : Text} {i : Instr} (h : readAction first = .ok i) :
    ∃ m, fullmatch first = some m ∧ i.Valid ∧ ∀ found, m.written = some found →
      i.Written found := by
  unfold readAction at h
  split at h
  · cases h
  · rename_i hm
    split at h
    · cases h
      exact ⟨_, hm, trivial, fun _ hnone => by cases hnone⟩
    · cases h
  · rename_i spaces digits hm
    split at h
    · split at h
      · cases h
      · rename_i distance hdistance
        split at h
        · rename_i hrange
          cases h
          refine ⟨_, hm, hrange, fun found hfound => ?_⟩
          obtain ⟨ds, rfl, rfl⟩ := Option.map_eq_some_iff.mp hfound
          exact ⟨rfl, hdistance⟩
        · cases h
    · cases h
  · rename_i left digits hm
    split at h
    · cases h
    · rename_i degrees hdegrees
      split at h
      · rename_i hrange
        cases h
        refine ⟨_, hm, hrange, fun found hfound => ?_⟩
        obtain ⟨ds, rfl, rfl⟩ := Option.map_eq_some_iff.mp hfound
        exact ⟨rfl, hdegrees⟩
      · cases h

theorem readPart_valid {part : Text} {i : Instr} (h : readPart part = .ok i) : i.Valid := by
  obtain ⟨-, -, hvalid, -⟩ := readAction_spec h
  exact hvalid

/-- **A part of the grammar under the scan**: nothing, or the one match that
stands for the same action. -/
theorem findall_of_readPart {part : Text} {i : Instr} (h : readPart part = .ok i) :
    findall part = [] ∨ ∃ found, i.Written found ∧ findall part = [found] := by
  obtain ⟨m, hm, -, hwritten⟩ := readAction_spec h
  obtain ⟨front, e, hpart, hfront, he⟩ := exists_trailing part
  rw [hpart, findall_quiet_append hfront]
  rcases findall_of_fullmatch hm he with hnil | ⟨found, hfound, hone⟩
  · exact .inl hnil
  · exact .inr ⟨found, hwritten found hfound, hone⟩

end NavidaText
