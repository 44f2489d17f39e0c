/-
# The language of `_ACTION`

The action grammar of a NaVIDA response as a set of texts: `Grammar m s` says that `s`
is a spelling of the match `m`, in any letter case and with any whitespace.
`fullmatch_iff`: the pattern matches exactly these spellings.

`action_to_embedding` decides its branch from the text once more, so a spelling of one
action can end in the branch of another; `meets_iff` says for which ones it does.  The
row is of single-precision numbers, and `decode_action` reads it back within their
rounding (`decodeAction_near`).
-/
import Mathlib.Analysis.Real.Pi.Bounds
import Rvln.HalfCodec
import Rvln.NavidaAgreement

namespace NavidaText

/-! ## The grammar -/

/-- A literal in any letter case. -/
def Spelled (lit w : Text) : Prop :=
  List.Forall₂ (fun p c => sameIgnoringCase p c = true) lit w

/-- Some whitespace, or none. -/
def Blank (w : Text) : Prop := ∀ c ∈ w, isSpace c = true

/-- A magnitude: left out, or whitespace, digits and a unit. -/
inductive Amount (units : List Text) : Option Text → Text → Prop
  | implied : Amount units none []
  | written {spaces digits gap unit lit : Text} : Blank spaces → spaces ≠ [] →
      (∀ c ∈ digits, isDigit c = true) → digits ≠ [] → Blank gap → lit ∈ units →
      Spelled lit unit → Amount units (some digits) (spaces ++ (digits ++ (gap ++ unit)))

/-- The word `move` and whitespace, or nothing. -/
inductive Moved : Option Text → Text → Prop
  | bare : Moved none []
  | moved {move spaces : Text} : Spelled "move".toList move → Blank spaces → spaces ≠ [] →
      Moved (some spaces) (move ++ spaces)

/-- The spellings of a match. -/
inductive Grammar : ActionMatch → Text → Prop
  | forward {spaces digits : Option Text} {move w tail : Text} : Moved spaces move →
      Spelled "forward".toList w → Amount ["cm".toList] digits tail →
      Grammar (.forward spaces digits) (move ++ (w ++ tail))
  | turn {left : Bool} {digits : Option Text} {w spaces side tail : Text} :
      Spelled "turn".toList w → Blank spaces → spaces ≠ [] → Spelled (sideText left) side →
      Amount ["degree".toList, "degrees".toList] digits tail →
      Grammar (.turn left digits) (w ++ (spaces ++ (side ++ tail)))
  | stop {w : Text} : Spelled "stop".toList w → Grammar .stop w

/-! ## Scanning a spelling -/

/-- A spelled literal is eaten, whatever follows it. -/
theorem eat_of_spelled {lit w : Text} (h : Spelled lit w) (rest : Text) :
    eat sameIgnoringCase lit (w ++ rest) = some rest := by
  induction h with
  | nil => rfl
  | cons hpc _ ih =>
      rw [List.cons_append, eat, if_pos hpc]
      exact ih

/-- All that a letter is spelled with meets `P`. -/
def EachSpelling (P : Char → Prop) (q : Char) : Prop :=
  EveryLetter (fun c => sameIgnoringCase q c = true → P c) [q]

instance (P : Char → Prop) [DecidablePred P] (q : Char) : Decidable (EachSpelling P q) :=
  inferInstanceAs (Decidable (EveryLetter _ _))

theorem EachSpelling.of_same {P : Char → Prop} {q c : Char} (h : EachSpelling P q)
    (hc : sameIgnoringCase q c = true) : P c :=
  h q List.mem_cons_self c (mem_variants hc) hc

/-- A literal is not eaten where another one begins, if their first letters are apart. -/
theorem eat_of_apart {p q : Char} {lit lit' w : Text} (h : Spelled (q :: lit') w)
    (hapart : EachSpelling (sameIgnoringCase p · = false) q) (rest : Text) :
    eat sameIgnoringCase (p :: lit) (w ++ rest) = none := by
  obtain ⟨c, w', hqc, -, rfl⟩ := List.forall₂_cons_left_iff.mp h
  have hp : sameIgnoringCase p c = false := hapart.of_same hqc
  rw [List.cons_append, eat, hp]
  exact if_neg Bool.false_ne_true

/-- Whitespace ends where a text begins that does not begin with it. -/
theorem span_blank {p : Char → Bool} {w rest : Text} (hw : ∀ c ∈ w, p c = true)
    (hrest : ∀ c ∈ rest.head?, p c = false) :
    (w ++ rest).takeWhile p = w ∧ (w ++ rest).dropWhile p = rest := by
  rw [List.takeWhile_append_of_pos hw, List.dropWhile_append_of_pos hw]
  cases rest with
  | nil => exact ⟨List.append_nil w, rfl⟩
  | cons c rest =>
      have hc : ¬ p c = true := by
        rw [hrest c rfl]
        exact Bool.false_ne_true
      rw [List.takeWhile_cons_of_neg hc, List.dropWhile_cons_of_neg hc, List.append_nil]
      exact ⟨rfl, rfl⟩

/-- A spelling begins with one of its letters. -/
theorem head_of_spelled {p : Char → Bool} {lit w : Text} (h : Spelled lit w) (hne : lit ≠ [])
    (hlit : EveryLetter (p · = false) lit) (rest : Text) :
    ∀ c ∈ (w ++ rest).head?, p c = false := by
  have hw : ∀ c ∈ w, p c = false := hlit.matched h
  cases h with
  | nil => exact absurd rfl hne
  | cons _ _ =>
      rintro c ⟨⟩
      exact hw _ List.mem_cons_self

/-- A scanned magnitude is a spelled one. -/
theorem amount_of_optionalNumber {units : List Text} {digits : Option Text} {tail : Text}
    (h : optionalNumber units tail = some digits) : Amount units digits tail := by
  unfold optionalNumber at h
  split at h
  · rename_i hnil
    cases h
    rw [hnil]
    exact .implied
  · split at h
    · cases h
    · rename_i ds t hd
      split at h
      · rename_i hunit
        cases h
        obtain ⟨u, hu, heat⟩ := hunit
        obtain ⟨w, hw, hletters⟩ := eq_of_eat heat
        obtain ⟨hspaces, hdigits, hsplit, hdigit, -⟩ := spacedNumber_spec hd
        have ht : t = t.takeWhile isSpace ++ w := by
          rw [List.append_nil] at hw
          rw [← hw, List.takeWhile_append_dropWhile]
        rw [hsplit]
        show Amount units (some ds) (tail.takeWhile isSpace ++ (ds ++ t))
        rw [ht]
        exact .written (fun c hc => List.mem_takeWhile_imp hc) hspaces hdigit hdigits
          (fun c hc => List.mem_takeWhile_imp hc) hu hletters
      · cases h

/-- Whitespace and digits are taken apart where something else follows. -/
theorem spacedNumber_written {spaces digits rest : Text} (hspaces : Blank spaces)
    (hne : spaces ≠ []) (hdigits : ∀ d ∈ digits, isDigit d = true) (hdne : digits ≠ [])
    (hrest : ∀ c ∈ rest.head?, isDigit c = false) :
    spacedNumber (spaces ++ (digits ++ rest)) = some (digits, rest) := by
  have hdigitSpace : ∀ c ∈ (digits ++ rest).head?, isSpace c = false := by
    cases digits with
    | nil => exact absurd rfl hdne
    | cons d digits =>
        rintro _ ⟨⟩
        by_contra hspace
        have hd := isDigit_of_isSpace (Bool.eq_true_of_not_eq_false hspace)
        rw [hdigits d List.mem_cons_self] at hd
        exact Bool.noConfusion hd
  obtain ⟨htake, hdrop⟩ := span_blank hspaces hdigitSpace
  obtain ⟨htake', hdrop'⟩ := span_blank hdigits hrest
  unfold spacedNumber
  dsimp only
  rw [htake, hdrop, htake', hdrop', if_neg (not_or.mpr ⟨hne, hdne⟩)]

/-- **The magnitude**, spelled and scanned. -/
theorem optionalNumber_iff {units : List Text} (hunits : ∀ u ∈ units, u ≠ [] ∧
    EveryLetter (isSpace · = false) u ∧ EveryLetter (isDigit · = false) u)
    {digits : Option Text} {tail : Text} :
    optionalNumber units tail = some digits ↔ Amount units digits tail := by
  refine ⟨amount_of_optionalNumber, ?_⟩
  rintro (_ | ⟨hspaces, hne, hdigits, hdne, hgap, hu, hunit⟩)
  · rfl
  · rename_i spaces digits gap unit lit
    obtain ⟨hlit, hnospace, hnodigit⟩ := hunits lit hu
    -- what follows the digits begins with no digit, and what follows the gap with no space
    have hunitDigit : ∀ c ∈ (gap ++ unit).head?, isDigit c = false := by
      cases gap with
      | nil =>
          have hhead := head_of_spelled hunit hlit hnodigit []
          rwa [List.append_nil] at hhead
      | cons c gap =>
          rintro _ ⟨⟩
          exact isDigit_of_isSpace (hgap c List.mem_cons_self)
    have hunitSpace : ∀ c ∈ unit.head?, isSpace c = false := by
      have hhead := head_of_spelled hunit hlit hnospace []
      rwa [List.append_nil] at hhead
    have heat : eat sameIgnoringCase lit ((gap ++ unit).dropWhile isSpace) = some [] := by
      have heat := eat_of_spelled hunit []
      rwa [List.append_nil, ← (span_blank hgap hunitSpace).2] at heat
    have htail : spaces ++ (digits ++ (gap ++ unit)) ≠ [] :=
      List.append_ne_nil_of_left_ne_nil hne _
    unfold optionalNumber
    rw [if_neg htail, spacedNumber_written hspaces hne hdigits hdne hunitDigit]
    exact if_pos ⟨lit, hu, heat⟩

theorem centimetres_iff {digits : Option Text} {tail : Text} :
    optionalNumber ["cm".toList] tail = some digits ↔ Amount ["cm".toList] digits tail :=
  optionalNumber_iff (by decide)

theorem degrees_iff {digits : Option Text} {tail : Text} :
    optionalNumber ["degree".toList, "degrees".toList] tail = some digits ↔
      Amount ["degree".toList, "degrees".toList] digits tail :=
  optionalNumber_iff (by decide)

/-! ### The pattern matches spellings only -/

theorem moved_dropMove (s : Text) :
    ∃ move, s = move ++ (dropMove s).2 ∧ Moved (dropMove s).1 move := by
  unfold dropMove
  split
  · exact ⟨[], rfl, .bare⟩
  · rename_i t ht
    split
    · exact ⟨[], rfl, .bare⟩
    · rename_i hne
      obtain ⟨w, rfl, hw⟩ := eq_of_eat ht
      refine ⟨w ++ t.takeWhile isSpace, ?_, .moved hw (fun c hc => List.mem_takeWhile_imp hc) hne⟩
      rw [List.append_assoc]
      show w ++ t = w ++ (t.takeWhile isSpace ++ t.dropWhile isSpace)
      rw [List.takeWhile_append_dropWhile]

/-- A turn that the pattern matches, up to its side. -/
theorem grammar_turn (left : Bool) {s t rest : Text} {digits : Option Text}
    (ht : eat sameIgnoringCase "turn".toList s = some t) (hne : t.takeWhile isSpace ≠ [])
    (hrest : eat sameIgnoringCase (sideText left) (t.dropWhile isSpace) = some rest)
    (h : optionalNumber ["degree".toList, "degrees".toList] rest = some digits) :
    Grammar (.turn left digits) s := by
  obtain ⟨w, rfl, hw⟩ := eq_of_eat ht
  obtain ⟨side, hside, hletters⟩ := eq_of_eat hrest
  have hsplit : t = t.takeWhile isSpace ++ (side ++ rest) := by
    rw [← hside, List.takeWhile_append_dropWhile]
  rw [hsplit]
  exact .turn hw (fun c hc => List.mem_takeWhile_imp hc) hne hletters (degrees_iff.mp h)

theorem grammar_of_fullmatch {s : Text} {m : ActionMatch} (h : fullmatch s = some m) :
    Grammar m s := by
  unfold fullmatch at h
  dsimp only at h
  split at h
  · rename_i rest hrest
    obtain ⟨digits, hdigits, rfl⟩ := Option.map_eq_some_iff.mp h
    obtain ⟨move, hmove, hmoved⟩ := moved_dropMove s
    obtain ⟨w, hw, hletters⟩ := eq_of_eat hrest
    have hs : s = move ++ (w ++ rest) := by
      rw [← hw]
      exact hmove
    have hgrammar := Grammar.forward hmoved hletters (centimetres_iff.mp hdigits)
    rwa [← hs] at hgrammar
  · split at h
    · rename_i t ht
      split at h
      · cases h
      · rename_i hne
        split at h
        · rename_i rest hrest
          obtain ⟨digits, hdigits, rfl⟩ := Option.map_eq_some_iff.mp h
          exact grammar_turn true ht hne hrest hdigits
        · split at h
          · rename_i rest hrest
            obtain ⟨digits, hdigits, rfl⟩ := Option.map_eq_some_iff.mp h
            exact grammar_turn false ht hne hrest hdigits
          · cases h
    · split at h
      · rename_i hstop
        cases h
        obtain ⟨w, rfl, hw⟩ := eq_of_eat hstop
        rw [List.append_nil]
        exact .stop hw
      · cases h

/-! ### The pattern matches every spelling -/

theorem dropMove_of_moved {spaces : Option Text} {move w : Text} (h : Moved spaces move)
    (hw : Spelled "forward".toList w) (tail : Text) :
    dropMove (move ++ (w ++ tail)) = (spaces, w ++ tail) := by
  cases h with
  | bare =>
      have hnone : eat sameIgnoringCase "move".toList (w ++ tail) = none :=
        eat_of_apart hw (by decide) tail
      show dropMove (w ++ tail) = _
      unfold dropMove
      rw [hnone]
  | @moved move spaces hmove hspaces hne =>
      have heat := eat_of_spelled hmove (spaces ++ (w ++ tail))
      have hhead : ∀ c ∈ (w ++ tail).head?, isSpace c = false :=
        head_of_spelled hw (by decide) (by decide) tail
      obtain ⟨htake, hdrop⟩ := span_blank hspaces hhead
      rw [List.append_assoc]
      unfold dropMove
      rw [heat]
      dsimp only
      rw [htake, hdrop, if_neg hne]

/-- A text that begins with another letter has no `move`, and no `forward` in front. -/
theorem dropMove_of_apart {q : Char} {lit w : Text} (h : Spelled (q :: lit) w)
    (hm : EachSpelling (sameIgnoringCase 'm' · = false) q)
    (hf : EachSpelling (sameIgnoringCase 'f' · = false) q) (rest : Text) :
    dropMove (w ++ rest) = (none, w ++ rest) ∧
      eat sameIgnoringCase "forward".toList (w ++ rest) = none := by
  have hmove : eat sameIgnoringCase "move".toList (w ++ rest) = none := eat_of_apart h hm rest
  have hforward : eat sameIgnoringCase "forward".toList (w ++ rest) = none :=
    eat_of_apart h hf rest
  unfold dropMove
  rw [hmove]
  exact ⟨rfl, hforward⟩

theorem fullmatch_of_grammar {s : Text} {m : ActionMatch} (h : Grammar m s) :
    fullmatch s = some m := by
  cases h with
  | @forward spaces digits move w tail hmoved hw hamount =>
      unfold fullmatch
      rw [dropMove_of_moved hmoved hw tail]
      dsimp only
      rw [eat_of_spelled hw tail]
      dsimp only
      rw [centimetres_iff.mpr hamount]
      rfl
  | @turn left digits w spaces side tail hw hspaces hne hside hamount =>
      -- the first letter rules out the earlier alternatives
      have hletters : Spelled ('t' :: ['u', 'r', 'n']) w := hw
      obtain ⟨hmove, hforward⟩ := dropMove_of_apart hletters (by decide) (by decide)
        (spaces ++ (side ++ tail))
      have hhead : ∀ c ∈ (side ++ tail).head?, isSpace c = false := by
        cases left with
        | true => exact head_of_spelled hside (by decide) (by decide) tail
        | false => exact head_of_spelled hside (by decide) (by decide) tail
      obtain ⟨htake, hdrop⟩ := span_blank hspaces hhead
      have hdigits := degrees_iff.mpr hamount
      unfold fullmatch
      rw [hmove]
      dsimp only
      rw [hforward, eat_of_spelled hw (spaces ++ (side ++ tail))]
      dsimp only
      rw [htake, hdrop, if_neg hne]
      cases left with
      | true =>
          have hleft := eat_of_spelled hside tail
          rw [show "left".toList = sideText true from rfl, hleft]
          dsimp only
          rw [hdigits]
          rfl
      | false =>
          have hright := eat_of_spelled hside tail
          have hletters : Spelled ('r' :: ['i', 'g', 'h', 't']) side := hside
          -- `left` is tried first, and an `r` is no `l`
          have hnone : eat sameIgnoringCase "left".toList (side ++ tail) = none :=
            eat_of_apart hletters (by decide) tail
          rw [hnone, show "right".toList = sideText false from rfl, hright]
          dsimp only
          rw [hdigits]
          rfl
  | stop hw =>
      have hletters : Spelled ('s' :: ['t', 'o', 'p']) s := hw
      obtain ⟨hmove, hforward⟩ := dropMove_of_apart hletters (by decide) (by decide) []
      have hturn : eat sameIgnoringCase "turn".toList (s ++ []) = none :=
        eat_of_apart hletters (by decide) []
      have hstop := eat_of_spelled hw []
      rw [List.append_nil] at hmove hforward hturn hstop
      unfold fullmatch
      rw [hmove]
      dsimp only
      rw [hforward, hturn]
      exact if_pos hstop

/-- **The pattern matches exactly the spellings of its actions.** -/
theorem fullmatch_iff {s : Text} {m : ActionMatch} : fullmatch s = some m ↔ Grammar m s :=
  ⟨grammar_of_fullmatch, fullmatch_of_grammar⟩

/-! ## The row in single precision -/

/-- The first part of the answer, stripped and without trailing dots. -/
def firstPart (response : Text) : Text :=
  rstripDots (strip (splitCommas (answer response).2.1).1)

/-- A number in the precision of `np.float32`. -/
noncomputable def float32 (x : ℝ) : ℝ :=
  if x < 0 then -HalfCodec.single.round |x| else HalfCodec.single.round |x|

/-- `np.float32(x)`; beyond its range it is infinite. -/
noncomputable def toFloat32 : PyFloat ℝ → PyFloat ℝ
  | .fin x =>
      if 255 * 2 ^ 23 ≤ HalfCodec.single.encode |x| then if x < 0 then .negInf else .posInf
      else .fin (float32 x)
  | x => x

/-- The row of an action in single precision. -/
noncomputable def Instr.row (i : Instr) : List (PyFloat ℝ) := (i.embedding).map toFloat32

/-- `action_to_embedding`, down to its array of single precision. -/
noncomputable def actionToRow (response : Text) : Except PyError (List (PyFloat ℝ)) :=
  (readAction (firstPart response)).map Instr.row

/-- The digits that a match has captured. -/
def ActionMatch.digits : ActionMatch → Option Text
  | .forward _ digits => digits
  | .turn _ digits => digits
  | .stop => none

/-- The action that a match stands for. -/
def ActionMatch.instr : ActionMatch → Instr
  | .forward _ digits => .forward ((digits.map number).getD 25)
  | .turn left digits => .turn left ((digits.map number).getD 15)
  | .stop => .stop

/-- The digits are more than `int` reads. -/
def ActionMatch.Overlong (m : ActionMatch) : Prop :=
  ∃ digits, m.digits = some digits ∧ maxStrDigits < digits.length

theorem magnitude_of_short {digits : Option Text}
    (h : ¬ ∃ ds, digits = some ds ∧ maxStrDigits < ds.length) (default : ℕ) :
    magnitude digits default = .ok ((digits.map number).getD default) := by
  cases digits with
  | none => rfl
  | some ds => exact if_neg fun hlong => h ⟨ds, rfl, hlong⟩

theorem magnitude_of_long {digits : Option Text}
    (h : ∃ ds, digits = some ds ∧ maxStrDigits < ds.length) (default : ℕ) :
    magnitude digits default = .error .valueError := by
  obtain ⟨ds, rfl, hlong⟩ := h
  exact if_pos hlong

/-! ## Which spellings are read -/

/-- The branch behind the match is not the match's own: `stop` with a long s, and `move`
with other whitespace than one space before a `forward` without a number. -/
def ActionMatch.Strays (first : Text) : ActionMatch → Prop
  | .stop => first.head? = some 'ſ'
  | .forward (some spaces) none => spaces ≠ [' ']
  | _ => False

/-- An action is spelled so that the code strays from it, or with more digits than `int`
reads. -/
def Misread (first : Text) : Prop :=
  ∃ m, Grammar m first ∧ m.instr.Valid ∧ (m.Strays first ∨ m.Overlong)

/-- `first.lower() == "stop"` fails for the long s only. -/
theorem lower_stop {first : Text} (h : Spelled "stop".toList first) :
    first.map Char.toLower = "stop".toList ↔ first.head? ≠ some 'ſ' := by
  have hletters : Spelled ['s', 't', 'o', 'p'] first := h
  obtain ⟨s, w₁, hs, h₁, rfl⟩ := List.forall₂_cons_left_iff.mp hletters
  obtain ⟨t, w₂, ht, h₂, rfl⟩ := List.forall₂_cons_left_iff.mp h₁
  obtain ⟨o, w₃, ho, h₃, rfl⟩ := List.forall₂_cons_left_iff.mp h₂
  obtain ⟨p, w₄, hp, h₄, rfl⟩ := List.forall₂_cons_left_iff.mp h₃
  obtain rfl := List.forall₂_nil_left_iff.mp h₄
  have hlowerT : EachSpelling (·.toLower = 't') 't' := by decide
  have hlowerO : EachSpelling (·.toLower = 'o') 'o' := by decide
  have hlowerP : EachSpelling (·.toLower = 'p') 'p' := by decide
  have hlowerS : EachSpelling (fun c => c.toLower = 's' ↔ c ≠ 'ſ') 's' := by decide
  have hrest : [t, o, p].map Char.toLower = ['t', 'o', 'p'] := by
    rw [List.map_cons, List.map_cons, List.map_cons, List.map_nil, hlowerT.of_same ht,
      hlowerO.of_same ho, hlowerP.of_same hp]
  show s.toLower :: [t, o, p].map Char.toLower = 's' :: ['t', 'o', 'p'] ↔ some s ≠ some 'ſ'
  rw [hrest, List.cons.injEq, and_iff_left rfl, ne_eq, Option.some.injEq]
  exact hlowerS.of_same hs

/-- The branch test finds a `forward` unless the match strays. -/
theorem strays_forward {first : Text} {spaces digits : Option Text} :
    (ActionMatch.forward spaces digits).Strays first ↔
      ¬ (digits.isSome ∨ spaces = none ∨ spaces = some [' ']) := by
  cases digits with
  | some ds => exact iff_of_false (by cases spaces <;> exact id) (fun h => h (.inl rfl))
  | none =>
      cases spaces with
      | none => exact iff_of_false id fun h => h (.inr (.inl rfl))
      | some spaces =>
          show spaces ≠ [' '] ↔ _
          simp

/-- The actions that are strayed from are in range. -/
theorem valid_of_strays {first : Text} {m : ActionMatch} (h : m.Strays first) : m.instr.Valid := by
  cases m with
  | stop => trivial
  | forward spaces digits =>
      have hnot := strays_forward.mp h
      cases digits with
      | some ds => exact absurd (.inl rfl) hnot
      | none => exact ⟨by decide, by decide⟩
  | turn left digits => exact absurd h id

theorem readAction_of_strays {first : Text} {m : ActionMatch} (h : Grammar m first)
    (hstray : m.Strays first) : readAction first = .error .attributeError := by
  unfold readAction
  rw [fullmatch_iff.mpr h]
  cases m with
  | stop =>
      cases h with
      | stop hw => exact if_neg fun hlower => (lower_stop hw).mp hlower hstray
  | forward spaces digits => exact if_neg (strays_forward.mp hstray)
  | turn left digits => exact absurd hstray id

theorem readAction_of_overlong {first : Text} {m : ActionMatch} (h : Grammar m first)
    (hstray : ¬ m.Strays first) (hlong : m.Overlong) :
    readAction first = .error .valueError := by
  unfold readAction
  rw [fullmatch_iff.mpr h]
  cases m with
  | stop =>
      obtain ⟨_, hnone, -⟩ := hlong
      cases hnone
  | forward spaces digits =>
      have hmagnitude : magnitude digits 25 = _ := magnitude_of_long hlong 25
      dsimp only
      rw [if_pos (not_not.mp (mt strays_forward.mpr hstray)), hmagnitude]
  | turn left digits =>
      have hmagnitude : magnitude digits 15 = _ := magnitude_of_long hlong 15
      dsimp only
      rw [hmagnitude]

instance (i : Instr) : Decidable i.Valid :=
  match i with
  | .stop => inferInstanceAs (Decidable True)
  | .forward _ => inferInstanceAs (Decidable (_ ∧ _))
  | .turn _ _ => inferInstanceAs (Decidable (_ ∧ _))

/-- Any other spelling is read as its action, or refused for its range. -/
theorem readAction_of_grammar {first : Text} {m : ActionMatch} (h : Grammar m first)
    (hstray : ¬ m.Strays first) (hshort : ¬ m.Overlong) :
    readAction first = if m.instr.Valid then .ok m.instr else .error .valueError := by
  unfold readAction
  rw [fullmatch_iff.mpr h]
  cases m with
  | stop =>
      cases h with
      | stop hw => exact if_pos ((lower_stop hw).mpr hstray)
  | forward spaces digits =>
      have hmagnitude : magnitude digits 25 = _ := magnitude_of_short hshort 25
      dsimp only
      rw [if_pos (not_not.mp (mt strays_forward.mpr hstray)), hmagnitude]
      rfl
  | turn left digits =>
      have hmagnitude : magnitude digits 15 = _ := magnitude_of_short hshort 15
      dsimp only
      rw [hmagnitude]
      rfl

/-! ## What the row is read back as -/

theorem abs_mul_add_mul_le {a b u v ε : ℝ} (ha : |a| ≤ ε) (hb : |b| ≤ ε) (hu : |u| ≤ 1)
    (hv : |v| ≤ 1) : |a * u + b * v| ≤ 2 * ε := by
  have hε : 0 ≤ ε := (abs_nonneg a).trans ha
  calc |a * u + b * v| ≤ |a| * |u| + |b| * |v| := by
        rw [← abs_mul, ← abs_mul]
        exact abs_add_le _ _
    _ ≤ ε * 1 + ε * 1 := by gcongr
    _ = 2 * ε := by ring

/-- A direction near the one of an angle is the direction of a near angle. -/
theorem abs_arg_sub_le {angle cosine sine ε : ℝ} (hangle : |angle| ≤ Real.pi / 4)
    (hε : ε ≤ 1 / 100) (hc : |cosine - Real.cos angle| ≤ ε) (hs : |sine - Real.sin angle| ≤ ε) :
    |Complex.arg ⟨cosine, sine⟩ - angle| ≤ Real.pi * ε / (1 - 2 * ε) := by
  have hpi : 0 < Real.pi := Real.pi_pos
  let z : ℂ := ⟨cosine, sine⟩
  -- the parts of the direction along the angle and across it
  have hre : ‖z‖ * Real.cos (z.arg) = cosine := Complex.norm_mul_cos_arg z
  have him : ‖z‖ * Real.sin (z.arg) = sine := Complex.norm_mul_sin_arg z
  have hcircle := Real.sin_sq_add_cos_sq angle
  have hcos1 : |Real.cos angle| ≤ 1 := Real.abs_cos_le_one angle
  have hsin1 : |Real.sin angle| ≤ 1 := Real.abs_sin_le_one angle
  have halong : 1 - 2 * ε ≤ ‖z‖ * Real.cos (z.arg - angle) := by
    have hsum : ‖z‖ * Real.cos (z.arg - angle) = 1 + ((cosine - Real.cos angle) * Real.cos angle +
        (sine - Real.sin angle) * Real.sin angle) := by
      rw [Real.cos_sub, mul_add, ← mul_assoc, ← mul_assoc, hre, him]
      linarith
    rw [hsum]
    linarith [(abs_le.mp (abs_mul_add_mul_le hc hs hcos1 hsin1)).1]
  have hacross : |‖z‖ * Real.sin (z.arg - angle)| ≤ 2 * ε := by
    have hdiff : ‖z‖ * Real.sin (z.arg - angle) = (sine - Real.sin angle) * Real.cos angle +
        (cosine - Real.cos angle) * -Real.sin angle := by
      rw [Real.sin_sub, mul_sub, ← mul_assoc, ← mul_assoc, hre, him]
      ring
    rw [hdiff]
    exact abs_mul_add_mul_le hs hc hcos1 (by rwa [abs_neg])
  have hnorm : 1 - 2 * ε ≤ ‖z‖ := by
    have hle : ‖z‖ * Real.cos (z.arg - angle) ≤ ‖z‖ * 1 := by
      gcongr
      exact Real.cos_le_one _
    linarith
  have hcospos : 0 < Real.cos (z.arg - angle) := by
    by_contra hneg
    have hle : ‖z‖ * Real.cos (z.arg - angle) ≤ 0 :=
      mul_nonpos_of_nonneg_of_nonpos (norm_nonneg z) (not_lt.mp hneg)
    linarith
  have hquarter : |z.arg - angle| ≤ Real.pi / 2 := by
    by_contra hfar
    have harg : |z.arg| ≤ Real.pi := Complex.abs_arg_le_pi z
    have hdiff : |z.arg - angle| ≤ Real.pi + Real.pi / 2 := by
      have htriangle : |z.arg - angle| ≤ |z.arg| + |angle| := abs_sub _ _
      linarith
    have hcos := Real.cos_nonpos_of_pi_div_two_le_of_le (not_le.mp hfar).le hdiff
    rw [Real.cos_abs] at hcos
    linarith
  have hjordan : 2 / Real.pi * |z.arg - angle| ≤ |Real.sin (z.arg - angle)| :=
    Real.mul_abs_le_abs_sin hquarter
  have hpos : 0 < 1 - 2 * ε := by linarith
  have hprod : (1 - 2 * ε) * (2 / Real.pi * |z.arg - angle|) ≤ 2 * ε := by
    calc (1 - 2 * ε) * (2 / Real.pi * |z.arg - angle|)
        ≤ ‖z‖ * |Real.sin (z.arg - angle)| := by gcongr
      _ = |‖z‖ * Real.sin (z.arg - angle)| := by rw [abs_mul, abs_of_nonneg (norm_nonneg z)]
      _ ≤ 2 * ε := hacross
  rw [le_div_iff₀ hpos]
  have hscaled := mul_le_mul_of_nonneg_left hprod hpi.le
  have hcancel : Real.pi * ((1 - 2 * ε) * (2 / Real.pi * |z.arg - angle|)) =
      2 * (|z.arg - angle| * (1 - 2 * ε)) := by
    field_simp
  rw [hcancel] at hscaled
  linarith

/-- A straight row: the direction is rounded, and still ahead. -/
theorem decodeAction_straight {x cosine : ℝ} (hx : 0 ≤ x ∧ x ≤ 75 / 100)
    (hlow : x = 0 ∨ 1 / 100 - 1 / 10 ^ 6 ≤ x) (hc : |cosine - 1| ≤ 1 / 2 ^ 24) :
    StepCycle.decodeAction [.fin x, .fin 0, .fin cosine, .fin 0] = .ok ⟨x, 0⟩ := by
  have hpi : 3 < Real.pi := Real.pi_gt_three
  have hnear := abs_le.mp hc
  have hpos : 0 ≤ cosine := by norm_num at hnear ⊢; linarith
  have hzero : (Trig.atan2 0 cosine : ℝ) = 0 := Complex.arg_ofReal_of_nonneg hpos
  have hunit : |cosine * cosine + 0 * 0 - 1| ≤ 1 / 1000 := by
    have hfactor : cosine * cosine + 0 * 0 - 1 = (cosine - 1) * (cosine + 1) := by ring
    have hsum : |cosine + 1| ≤ 3 := by
      rw [abs_le]
      constructor <;> norm_num at hnear ⊢ <;> linarith
    rw [hfactor, abs_mul]
    calc |cosine - 1| * |cosine + 1| ≤ 1 / 2 ^ 24 * 3 := by gcongr
      _ ≤ 1 / 1000 := by norm_num
  have hmax : |(Trig.atan2 0 cosine : ℝ)| ≤ Trig.radians 45 + 1 / 10 ^ 6 := by
    rw [hzero, abs_zero]
    show (0 : ℝ) ≤ 45 * Real.pi / 180 + 1 / 10 ^ 6
    positivity
  rw [decodeAction_accepts hx hlow hunit (.inl hzero) hmax
    (.inr (by rw [hzero, abs_zero]; positivity)), hzero]

/-- The square of a rounded sine or cosine. -/
theorem abs_mul_self_sub_sq_le {u v : ℝ} (hv : |v| ≤ 1) (huv : |u - v| ≤ 1 / 2 ^ 24) :
    |u * u - v ^ 2| ≤ 1 / 10000 := by
  have hfactor : u * u - v ^ 2 = (u - v) * ((u - v) + 2 * v) := by ring
  have hsum : |(u - v) + 2 * v| ≤ 3 := by
    have htriangle := abs_add_le (u - v) (2 * v)
    rw [abs_mul, abs_two] at htriangle
    norm_num at huv
    linarith
  rw [hfactor, abs_mul]
  calc |u - v| * |(u - v) + 2 * v| ≤ 1 / 2 ^ 24 * 3 := by gcongr
    _ ≤ 1 / 10000 := by norm_num

/-- A turn: the angle is read back within the rounding of its sine and cosine. -/
theorem decodeAction_turn {angle cosine sine : ℝ} (hlow : Trig.radians 1 ≤ |angle|)
    (hhigh : |angle| ≤ Trig.radians 45) (hc : |cosine - Real.cos angle| ≤ 1 / 2 ^ 24)
    (hs : |sine - Real.sin angle| ≤ 1 / 2 ^ 24) :
    ∃ a, StepCycle.decodeAction [.fin 0, .fin 0, .fin cosine, .fin sine] = .ok ⟨0, a⟩ ∧
      |a - angle| ≤ 1 / 2 ^ 22 := by
  have hlow : 1 * Real.pi / 180 ≤ |angle| := hlow
  have hhigh : |angle| ≤ 45 * Real.pi / 180 := hhigh
  have hnear : |(Trig.atan2 sine cosine : ℝ) - angle| ≤ 1 / 2 ^ 22 := by
    have hquarter : |angle| ≤ Real.pi / 4 := by linarith
    refine (abs_arg_sub_le hquarter (by norm_num) hc hs).trans ?_
    rw [div_le_iff₀ (by norm_num)]
    have hpi : Real.pi < 3.15 := Real.pi_lt_d2
    norm_num at hpi ⊢
    linarith
  have hback : |(|(Trig.atan2 sine cosine : ℝ)| - |angle|)| ≤ 1 / 2 ^ 22 :=
    (abs_abs_sub_abs_le _ _).trans hnear
  have hrange := abs_le.mp hback
  have hunit : |cosine * cosine + sine * sine - 1| ≤ 1 / 1000 := by
    have hcircle := Real.sin_sq_add_cos_sq angle
    have h₁ := abs_le.mp (abs_mul_self_sub_sq_le (Real.abs_cos_le_one angle) hc)
    have h₂ := abs_le.mp (abs_mul_self_sub_sq_le (Real.abs_sin_le_one angle) hs)
    rw [abs_le]
    constructor <;> linarith
  refine ⟨_, decodeAction_accepts ⟨le_refl 0, by norm_num⟩ (.inl rfl) hunit (.inr ?_) ?_ (.inl rfl),
    hnear⟩
  · show 1 * Real.pi / 180 - 1 / 10 ^ 6 ≤ _
    norm_num at hrange ⊢
    linarith
  · show _ ≤ 45 * Real.pi / 180 + 1 / 10 ^ 6
    norm_num at hrange ⊢
    linarith

/-! ### Single precision -/

section

variable {x : ℝ}

theorem exponent_le_zero (hx : |x| ≤ 1) : HalfCodec.single.exponent |x| ≤ 0 :=
  HalfCodec.single.exponent_le (by decide) (abs_nonneg x) (by norm_num; linarith)

theorem float32_near (hx : |x| ≤ 1) : |float32 x - x| ≤ 1 / 2 ^ 24 := by
  have hround : |(HalfCodec.single.round |x| - |x|)| ≤ 1 / 2 ^ 24 := by
    refine (HalfCodec.single.abs_round_sub_le (abs_nonneg x)).trans ?_
    have hstep : (2 : ℝ) ^ (HalfCodec.single.exponent |x| - HalfCodec.single.width) ≤
        2 ^ (-23 : ℤ) :=
      zpow_le_zpow_right₀ one_le_two (by have := exponent_le_zero hx; show _ - (23 : ℤ) ≤ _; omega)
    have hval : (2 : ℝ) ^ (-23 : ℤ) = 2 * (1 / 2 ^ 24) := by norm_num
    rw [hval] at hstep
    linarith
  unfold float32
  split
  · rename_i hneg
    rw [abs_of_neg hneg] at hround ⊢
    rw [← abs_neg]
    rwa [show -(-HalfCodec.single.round (-x) - x) = HalfCodec.single.round (-x) - -x by ring]
  · rename_i hpos
    rwa [abs_of_nonneg (not_lt.mp hpos)] at hround ⊢

/-- Numbers up to one are in range. -/
theorem toFloat32_fin (hx : |x| ≤ 1) : toFloat32 (.fin x) = .fin (float32 x) := by
  have hle := HalfCodec.single.encode_le (e := 0) (by decide) (abs_nonneg x)
    (by norm_num; linarith)
  exact if_neg (not_le.mpr (lt_of_le_of_lt hle (by decide)))

theorem float32_zero : float32 0 = 0 := by
  unfold float32
  rw [abs_zero, if_neg (lt_irrefl _), BinaryFloat.round_zero]

/-- The largest distance is a number of the format. -/
theorem float32_max : float32 (75 / 100) = 75 / 100 := by
  have hpos : (0 : ℝ) ≤ 75 / 100 := by positivity
  have hexp : HalfCodec.single.exponent (75 / 100 : ℝ) ≤ -1 :=
    HalfCodec.single.exponent_le (by decide) hpos (by norm_num)
  have hround : HalfCodec.single.round (75 / 100 : ℝ) = 75 / 100 :=
    HalfCodec.single.round_eq_self (m := 3) (k := -2) (by norm_num)
      (by show _ - (23 : ℤ) ≤ -2; omega)
  unfold float32
  rw [abs_of_nonneg hpos, if_neg (not_lt.mpr hpos), hround]

end

/-- The row of an action, its entries rounded. -/
theorem row_eq {i : Instr} (h : |(i.action : NavidaAction ℝ).distance| ≤ 1) :
    i.row = [.fin (float32 (i.action : NavidaAction ℝ).distance), .fin 0,
      .fin (float32 (Real.cos (i.action : NavidaAction ℝ).angle)),
      .fin (float32 (Real.sin (i.action : NavidaAction ℝ).angle))] := by
  have hzero : toFloat32 (.fin 0) = .fin 0 := by
    rw [toFloat32_fin (by rw [abs_zero]; exact zero_le_one), float32_zero]
  unfold Instr.row
  rw [embedding_eq]
  show [_, _, _, _] = _
  rw [toFloat32_fin h, hzero]
  exact congrArg₂ (fun c s => [_, _, c, s]) (toFloat32_fin (Real.abs_cos_le_one _))
    (toFloat32_fin (Real.abs_sin_le_one _))

/-- A distance in range is read in range, since the greatest one is exact. -/
theorem float32_metres {distance : ℕ} (hlow : 1 ≤ distance) (hhigh : distance ≤ 75) :
    |float32 ((distance : ℝ) / 100) - (distance : ℝ) / 100| ≤ 1 / 2 ^ 24 ∧
      1 / 100 - 1 / 10 ^ 6 ≤ float32 ((distance : ℝ) / 100) ∧
      float32 ((distance : ℝ) / 100) ≤ 75 / 100 := by
  have hlow' : (1 : ℝ) ≤ distance := by exact_mod_cast hlow
  have hhigh' : (distance : ℝ) ≤ 75 := by exact_mod_cast hhigh
  have hunit : |(distance : ℝ) / 100| ≤ 1 := by
    rw [abs_of_nonneg (by positivity)]
    linarith
  have hnear := float32_near hunit
  have hrange := abs_le.mp hnear
  refine ⟨hnear, ?_, ?_⟩
  · norm_num at hrange ⊢
    linarith
  · rcases Nat.lt_or_ge distance 75 with hlt | hge
    · have hlt' : (distance : ℝ) ≤ 74 := by exact_mod_cast Nat.le_of_lt_succ hlt
      norm_num at hrange ⊢
      linarith
    · rw [le_antisymm hhigh hge]
      exact float32_max.le

/-- **The row of a valid action is accepted** and read back within its rounding. -/
theorem decodeAction_row {i : Instr} (h : i.Valid) :
    ∃ a, StepCycle.decodeAction i.row = .ok a ∧
      |a.distance - (i.action : NavidaAction ℝ).distance| ≤ 1 / 2 ^ 24 ∧
      |a.angle - (i.action : NavidaAction ℝ).angle| ≤ 1 / 2 ^ 22 := by
  have hone : |float32 1 - 1| ≤ 1 / 2 ^ 24 := float32_near (by rw [abs_one])
  cases i with
  | stop =>
      have hrow := row_eq (i := .stop) (by show |(0 : ℝ)| ≤ 1; rw [abs_zero]; exact zero_le_one)
      rw [hrow]
      show ∃ a, StepCycle.decodeAction [.fin (float32 0), .fin 0, .fin (float32 (Real.cos 0)),
        .fin (float32 (Real.sin 0))] = .ok a ∧ |a.distance - 0| ≤ 1 / 2 ^ 24 ∧
          |a.angle - 0| ≤ 1 / 2 ^ 22
      rw [Real.cos_zero, Real.sin_zero, float32_zero]
      refine ⟨_, decodeAction_straight ⟨le_refl 0, by norm_num⟩ (.inl rfl) hone, ?_, ?_⟩ <;>
        norm_num
  | forward distance =>
      obtain ⟨hnear, hleast, hmost⟩ := float32_metres h.1 h.2
      have hunit : |(distance : ℝ) / 100| ≤ 1 := by
        have hhigh : (distance : ℝ) ≤ 75 := by exact_mod_cast h.2
        rw [abs_of_nonneg (by positivity)]
        linarith
      have hrow := row_eq (i := .forward distance) hunit
      rw [hrow]
      show ∃ a, StepCycle.decodeAction [.fin (float32 ((distance : ℝ) / 100)), .fin 0,
        .fin (float32 (Real.cos 0)), .fin (float32 (Real.sin 0))] = .ok a ∧
          |a.distance - (distance : ℝ) / 100| ≤ 1 / 2 ^ 24 ∧ |a.angle - 0| ≤ 1 / 2 ^ 22
      rw [Real.cos_zero, Real.sin_zero, float32_zero]
      -- the rounding of a positive distance is not negative
      have hpos : 0 ≤ float32 ((distance : ℝ) / 100) := by
        norm_num at hleast
        linarith
      exact ⟨_, decodeAction_straight ⟨hpos, hmost⟩ (.inr hleast) hone, hnear, by norm_num⟩
  | turn left degrees =>
      have hrow := row_eq (i := .turn left degrees)
        (by show |(0 : ℝ)| ≤ 1; rw [abs_zero]; exact zero_le_one)
      rw [hrow]
      obtain ⟨hleast, hmost⟩ := turn_angle_range left h
      obtain ⟨a, hdecode, hnear⟩ := decodeAction_turn hleast hmost
        (float32_near (Real.abs_cos_le_one _)) (float32_near (Real.abs_sin_le_one _))
      refine ⟨⟨0, a⟩, ?_, ?_, hnear⟩
      · show StepCycle.decodeAction [.fin (float32 0), _, _, _] = _
        rw [float32_zero]
        exact hdecode
      · show |(0 : ℝ) - 0| ≤ 1 / 2 ^ 24
        norm_num

/-! ## The contract -/

/-- An action in the words of the grammar, with its magnitude in range. -/
def Phrase (i : Instr) (first : Text) : Prop := ∃ m, Grammar m first ∧ m.instr = i ∧ i.Valid

/-- What `action_to_embedding` owes a response: the row of its first action, which is read
back within its rounding, or a `ValueError`. -/
structure Meets (response : Text) : Prop where
  accepted : ∀ i, Phrase i (firstPart response) → actionToRow response = .ok i.row ∧
    ∃ a, StepCycle.decodeAction i.row = .ok a ∧
      |a.distance - (i.action : NavidaAction ℝ).distance| ≤ 1 / 2 ^ 24 ∧
      |a.angle - (i.action : NavidaAction ℝ).angle| ≤ 1 / 2 ^ 22
  refused : (∀ i, ¬ Phrase i (firstPart response)) → actionToRow response = .error .valueError

/-- **The contract holds but for the misread spellings.** -/
theorem meets_iff (response : Text) : Meets response ↔ ¬ Misread (firstPart response) := by
  unfold Misread
  constructor
  · rintro hmeets ⟨m, hm, hvalid, hbad⟩
    have hok : actionToRow response = .ok m.instr.row :=
      (hmeets.accepted m.instr ⟨m, hm, rfl, hvalid⟩).1
    -- a valid action that is refused: it strays, or its number is too long
    have herror : ∃ e, readAction (firstPart response) = .error e := by
      by_cases hstray : m.Strays (firstPart response)
      · exact ⟨_, readAction_of_strays hm hstray⟩
      · exact ⟨_, readAction_of_overlong hm hstray (hbad.resolve_left hstray)⟩
    obtain ⟨e, he⟩ := herror
    unfold actionToRow at hok
    rw [he] at hok
    cases hok
  · intro hread
    refine ⟨?_, ?_⟩
    · rintro i ⟨m, hm, rfl, hvalid⟩
      obtain ⟨hstray, hlong⟩ := not_or.mp fun hbad => hread ⟨m, hm, hvalid, hbad⟩
      have hok := readAction_of_grammar hm hstray hlong
      rw [if_pos hvalid] at hok
      unfold actionToRow
      rw [hok]
      exact ⟨rfl, decodeAction_row hvalid⟩
    · intro hnone
      unfold actionToRow
      cases hmatch : fullmatch (firstPart response) with
      | none =>
          have herror : readAction (firstPart response) = .error .valueError := by
            unfold readAction
            rw [hmatch]
          rw [herror]
          rfl
      | some m =>
          have hm := fullmatch_iff.mp hmatch
          have hinvalid : ¬ m.instr.Valid := fun hvalid => hnone m.instr ⟨m, hm, rfl, hvalid⟩
          -- an action out of range does not stray, so its error is the range's or the number's
          have hstray : ¬ m.Strays (firstPart response) :=
            fun hstray => hinvalid (valid_of_strays hstray)
          have herror : readAction (firstPart response) = .error .valueError := by
            by_cases hlong : m.Overlong
            · exact readAction_of_overlong hm hstray hlong
            · rw [readAction_of_grammar hm hstray hlong, if_neg hinvalid]
          rw [herror]
          rfl

/-- `move  forward` with two spaces, and `stop` with a long s. -/
theorem misread_spellings :
    ¬ Meets "move  forward".toList ∧ ¬ Meets ['ſ', 't', 'o', 'p'] := by
  have hmove : fullmatch (firstPart "move  forward".toList) =
      some (.forward (some [' ', ' ']) none) := by
    decide +kernel
  have hstop : fullmatch (firstPart ['ſ', 't', 'o', 'p']) = some .stop := by
    decide +kernel
  constructor
  · rintro ⟨haccepted, -⟩
    have hok := (haccepted (.forward 25) ⟨_, grammar_of_fullmatch hmove, rfl, by decide⟩).1
    have herror : readAction (firstPart "move  forward".toList) = .error .attributeError := by
      decide +kernel
    unfold actionToRow at hok
    rw [herror] at hok
    cases hok
  · rintro ⟨haccepted, -⟩
    have hok := (haccepted .stop ⟨_, grammar_of_fullmatch hstop, rfl, trivial⟩).1
    have herror : readAction (firstPart ['ſ', 't', 'o', 'p']) = .error .attributeError := by
      decide +kernel
    unfold actionToRow at hok
    rw [herror] at hok
    cases hok

end NavidaText
