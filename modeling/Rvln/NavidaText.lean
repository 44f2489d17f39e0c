/-
# Scanning the text of a NaVIDA response

What `action_to_embedding` of `backends/navida.py` and `chunk_actions` of
`live_navida.py` do with a response: the regular expressions of both, as functions
on lists of characters, and `str.split`, `str.strip` and `str.rstrip`.  The
character classes are Python's: `\s` and `\d` over all of Unicode, and the
letters that `re.IGNORECASE` identifies.

`findall` is the unanchored scan for `(forward|turn left|turn right)\s+(\d+)`.  A
comma or an angle bracket ends every match (`findall_sep`), so a text can be
scanned piece by piece; letters other than `f`, `t` and `u` are passed over
(`findall_quiet_append`).
-/
import Mathlib.Data.List.Basic
import Mathlib.Data.List.Forall2
import Mathlib.Data.List.TakeWhile
import Mathlib.Data.Nat.Init
import Mathlib.Tactic.Basic
import Rvln.Python

/-- A Python `str`. -/
abbrev Text : Type := List Char

namespace NavidaText

/-! ## Characters -/

/-- `\s`, which is `str.isspace`. -/
def isSpace (c : Char) : Bool :=
  let n := c.toNat
  (9 ≤ n && n ≤ 13) || (28 ≤ n && n ≤ 32) || n == 0x85 || n == 0xA0 || n == 0x1680 ||
    (0x2000 ≤ n && n ≤ 0x200A) || n == 0x2028 || n == 0x2029 || n == 0x202F || n == 0x205F ||
    n == 0x3000

/-- The zeros of the decimal digits of Unicode, ten consecutive characters each. -/
def digitZeros : List ℕ :=
  [0x30, 0x660, 0x6F0, 0x7C0, 0x966, 0x9E6, 0xA66, 0xAE6, 0xB66, 0xBE6, 0xC66, 0xCE6, 0xD66,
    0xDE6, 0xE50, 0xED0, 0xF20, 0x1040, 0x1090, 0x17E0, 0x1810, 0x1946, 0x19D0, 0x1A80, 0x1A90,
    0x1B50, 0x1BB0, 0x1C40, 0x1C50, 0xA620, 0xA8D0, 0xA900, 0xA9D0, 0xA9F0, 0xAA50, 0xABF0,
    0xFF10, 0x104A0, 0x10D30, 0x11066, 0x110F0, 0x11136, 0x111D0, 0x112F0, 0x11450, 0x114D0,
    0x11650, 0x116C0, 0x11730, 0x118E0, 0x11950, 0x11C50, 0x11D50, 0x11DA0, 0x11F50, 0x16A60,
    0x16AC0, 0x16B50, 0x1D7CE, 0x1D7D8, 0x1D7E2, 0x1D7EC, 0x1D7F6, 0x1E140, 0x1E2F0, 0x1E4F0,
    0x1E950, 0x1FBF0]

/-- The value of a decimal digit. -/
def digitValue? (c : Char) : Option ℕ :=
  (digitZeros.find? fun z => z ≤ c.toNat && c.toNat < z + 10).map fun z => c.toNat - z

/-- `\d`. -/
def isDigit (c : Char) : Bool := (digitValue? c).isSome

/-- The number that a string of digits stands for. -/
def number (digits : Text) : ℕ :=
  digits.foldl (fun acc c => 10 * acc + (digitValue? c).getD 0) 0

/-- `sys.get_int_max_str_digits()`. -/
def maxStrDigits : ℕ := 4300

/-- `int` of a string of digits. -/
def intOf (digits : Text) : Except PyError ℕ :=
  if maxStrDigits < digits.length then .error .valueError else .ok (number digits)

theorem intOf_eq_ok {digits : Text} {n : ℕ} :
    intOf digits = .ok n ↔ digits.length ≤ maxStrDigits ∧ number digits = n := by
  unfold intOf
  by_cases hlong : maxStrDigits < digits.length
  · rw [if_pos hlong]
    exact iff_of_false (fun h => by cases h) fun h => absurd hlong (Nat.not_lt.mpr h.1)
  · rw [if_neg hlong, Except.ok.injEq]
    exact (and_iff_right (Nat.not_lt.mp hlong)).symm

/-- A lower-case ASCII letter of a pattern against a character of the text, under
`re.IGNORECASE`. -/
def sameIgnoringCase (p c : Char) : Bool :=
  c == p || c == p.toUpper || (p == 's' && c == 'ſ') || (p == 'i' && (c == 'İ' || c == 'ı'))

/-- The digits are apart from the spaces. -/
theorem digitZeros_apart : ∀ z ∈ digitZeros, 33 ≤ z ∧ (z + 9 < 0x85 ∨ 0xA0 < z) ∧
    (z + 9 < 0x1680 ∨ 0x1680 < z) ∧ (z + 9 < 0x2000 ∨ 0x205F < z) ∧
      (z + 9 < 0x3000 ∨ 0x3000 < z) := by
  decide

theorem isDigit_of_isSpace {c : Char} (h : isSpace c = true) : isDigit c = false := by
  have hnone : digitZeros.find? (fun z => z ≤ c.toNat && c.toNat < z + 10) = none := by
    rw [List.find?_eq_none]
    intro z hz
    have hapart := digitZeros_apart z hz
    unfold isSpace at h
    simp only [Bool.or_eq_true, Bool.and_eq_true, decide_eq_true_eq, beq_iff_eq] at h ⊢
    omega
  unfold isDigit digitValue?
  rw [hnone]
  rfl

/-- What `sameIgnoringCase` can identify a letter with. -/
def variants (p : Char) : List Char := [p, p.toUpper, 'ſ', 'İ', 'ı']

theorem mem_variants {p c : Char} (h : sameIgnoringCase p c = true) : c ∈ variants p := by
  unfold sameIgnoringCase at h
  simp only [Bool.or_eq_true, Bool.and_eq_true, beq_iff_eq] at h
  simp only [variants, List.mem_cons, List.not_mem_nil, or_false]
  tauto

/-- All that the letters of a literal can be identified with meets `P`. -/
def EveryLetter (P : Char → Prop) (lit : Text) : Prop := ∀ p ∈ lit, ∀ c ∈ variants p, P c

-- along the lists: `Char` is finite, but large
instance (P : Char → Prop) [DecidablePred P] (lit : Text) : Decidable (EveryLetter P lit) :=
  have : DecidablePred fun p => ∀ c ∈ variants p, P c := fun p => List.decidableBAll P (variants p)
  List.decidableBAll (fun p => ∀ c ∈ variants p, P c) lit

/-- Then so does all that the literal matches. -/
theorem EveryLetter.matched {P : Char → Prop} {lit w : Text} (hlit : EveryLetter P lit)
    (hw : List.Forall₂ (fun p c => sameIgnoringCase p c = true) lit w) : ∀ c ∈ w, P c := by
  induction hw with
  | nil => exact fun c hc => absurd hc List.not_mem_nil
  | cons hpc _ ih =>
      obtain ⟨hp, hps⟩ := List.forall_mem_cons.mp hlit
      exact List.forall_mem_cons.mpr ⟨hp _ (mem_variants hpc), ih hps⟩

/-- A literal in two pieces matches a text in two pieces. -/
theorem exists_append_of_forall₂ {R : Char → Char → Prop} {lit₁ lit₂ w : Text}
    (h : List.Forall₂ R (lit₁ ++ lit₂) w) :
    ∃ w₁ w₂, w = w₁ ++ w₂ ∧ List.Forall₂ R lit₁ w₁ ∧ List.Forall₂ R lit₂ w₂ := by
  induction lit₁ generalizing w with
  | nil => exact ⟨[], w, rfl, .nil, h⟩
  | cons p lit₁ ih =>
      obtain ⟨c, w, hpc, hw, rfl⟩ := List.forall₂_cons_left_iff.mp h
      obtain ⟨w₁, w₂, rfl, hw₁, hw₂⟩ := ih hw
      exact ⟨c :: w₁, w₂, rfl, .cons hpc hw₁, hw₂⟩

/-! ## Literals and numbers -/

/-- The text after a literal at its start. -/
def eat (same : Char → Char → Bool) : Text → Text → Option Text
  | [], s => some s
  | p :: ps, c :: cs => if same p c then eat same ps cs else none
  | _ :: _, [] => none

/-- What a literal consumes matches it letter by letter. -/
theorem eq_of_eat {same : Char → Char → Bool} {lit s rest : Text}
    (h : eat same lit s = some rest) :
    ∃ w, s = w ++ rest ∧ List.Forall₂ (fun p c => same p c = true) lit w := by
  induction lit generalizing s with
  | nil =>
      cases h
      exact ⟨[], rfl, .nil⟩
  | cons p ps ih =>
      cases s with
      | nil => cases h
      | cons c cs =>
          rw [eat] at h
          split at h
          · rename_i hpc
            obtain ⟨w, rfl, hw⟩ := ih h
            exact ⟨c :: w, rfl, .cons hpc hw⟩
          · cases h

/-- A literal that ends before a character it has not is found with or without
what follows. -/
theorem eat_append {same : Char → Char → Bool} {lit : Text} {sep : Char}
    (hsep : ∀ p ∈ lit, same p sep = false) (xs ys : Text) :
    eat same lit (xs ++ sep :: ys) = (eat same lit xs).map (· ++ sep :: ys) := by
  induction lit generalizing xs with
  | nil => rfl
  | cons p ps ih =>
      cases xs with
      | nil =>
          have hp : same p sep = false := hsep p List.mem_cons_self
          simp [eat, hp]
      | cons c cs =>
          have hps := ih (fun q hq => hsep q (List.mem_cons_of_mem p hq)) cs
          simp only [List.cons_append, eat]
          split
          · exact hps
          · rfl

theorem takeWhile_append_sep {p : Char → Bool} {sep : Char} (hsep : p sep = false)
    (xs ys : Text) : (xs ++ sep :: ys).takeWhile p = xs.takeWhile p := by
  induction xs with
  | nil => simp [hsep]
  | cons x xs ih =>
      rw [List.cons_append, List.takeWhile_cons, List.takeWhile_cons, ih]

theorem dropWhile_append_sep {p : Char → Bool} {sep : Char} (hsep : p sep = false)
    (xs ys : Text) : (xs ++ sep :: ys).dropWhile p = xs.dropWhile p ++ sep :: ys := by
  induction xs with
  | nil => simp [hsep]
  | cons x xs ih =>
      rw [List.cons_append, List.dropWhile_cons, List.dropWhile_cons]
      split
      · exact ih
      · rfl

/-- `\s+(\d+)` at the start: the digits and the text after them. -/
def spacedNumber (s : Text) : Option (Text × Text) :=
  let t := s.dropWhile isSpace
  if s.takeWhile isSpace = [] ∨ t.takeWhile isDigit = [] then none
  else some (t.takeWhile isDigit, t.dropWhile isDigit)

theorem spacedNumber_append {sep : Char} (hspace : isSpace sep = false)
    (hdigit : isDigit sep = false) (xs ys : Text) :
    spacedNumber (xs ++ sep :: ys) =
      (spacedNumber xs).map fun m => (m.1, m.2 ++ sep :: ys) := by
  unfold spacedNumber
  simp only [takeWhile_append_sep hspace, dropWhile_append_sep hspace,
    takeWhile_append_sep hdigit, dropWhile_append_sep hdigit]
  split <;> rfl

/-! ## The scan of `chunk_actions` -/

/-- The alternatives of the pattern. -/
inductive Verb
  | forward
  | turnLeft
  | turnRight
  deriving DecidableEq, Repr

/-- The letters of an alternative. -/
def Verb.text : Verb → Text
  | .forward => ['f', 'o', 'r', 'w', 'a', 'r', 'd']
  | .turnLeft => ['t', 'u', 'r', 'n', ' ', 'l', 'e', 'f', 't']
  | .turnRight => ['t', 'u', 'r', 'n', ' ', 'r', 'i', 'g', 'h', 't']

/-- Two characters are the same. -/
def same (p c : Char) : Bool := p == c

/-- One alternative at the start of a text: the verb, its digits, and the text
after the match. -/
def matchVerb (v : Verb) (s : Text) : Option ((Verb × Text) × Text) :=
  match eat same v.text s with
  | none => none
  | some t => (spacedNumber t).map fun m => ((v, m.1), m.2)

/-- The pattern at the start of a text, its alternatives in order. -/
def matchAt (s : Text) : Option ((Verb × Text) × Text) :=
  match matchVerb .forward s with
  | some m => some m
  | none =>
      match matchVerb .turnLeft s with
      | some m => some m
      | none => matchVerb .turnRight s

/-- The scan, with the length of the text as fuel. -/
def findallAux : ℕ → Text → List (Verb × Text)
  | 0, _ => []
  | _ + 1, [] => []
  | fuel + 1, c :: cs =>
      match matchAt (c :: cs) with
      | some (found, rest) => found :: findallAux fuel rest
      | none => findallAux fuel cs

/-- `re.findall(r"(forward|turn left|turn right)\s+(\d+)", raw)`. -/
def findall (raw : Text) : List (Verb × Text) := findallAux raw.length raw

/-! ### What the scan finds -/

theorem spacedNumber_length {s : Text} {m : Text × Text} (h : spacedNumber s = some m) :
    m.2.length ≤ s.length := by
  unfold spacedNumber at h
  dsimp only at h
  split at h
  · cases h
  · cases h
    have hspaces := (List.dropWhile_suffix (l := s) isSpace).length_le
    have hdigits := (List.dropWhile_suffix (l := s.dropWhile isSpace) isDigit).length_le
    exact Nat.le_trans hdigits hspaces

theorem matchVerb_length {v : Verb} {s : Text} {m : (Verb × Text) × Text}
    (h : matchVerb v s = some m) : m.2.length < s.length := by
  unfold matchVerb at h
  split at h
  · cases h
  · rename_i t ht
    obtain ⟨n, hn, rfl⟩ := Option.map_eq_some_iff.mp h
    obtain ⟨w, rfl, hw⟩ := eq_of_eat ht
    have hlen := spacedNumber_length hn
    have hpos : 0 < w.length := by
      rw [← hw.length_eq]
      cases v <;> decide
    show n.2.length < (w ++ t).length
    rw [List.length_append]
    omega

/-- A match of the pattern is a match of one of its alternatives. -/
theorem matchAt_some {s : Text} {m : (Verb × Text) × Text} (h : matchAt s = some m) :
    ∃ v, matchVerb v s = some m := by
  unfold matchAt at h
  split at h
  · rename_i hm
    exact ⟨_, hm.trans h⟩
  · split at h
    · rename_i hm
      exact ⟨_, hm.trans h⟩
    · exact ⟨_, h⟩

/-- A match consumes something. -/
theorem matchAt_length {s : Text} {m : (Verb × Text) × Text} (h : matchAt s = some m) :
    m.2.length < s.length := by
  obtain ⟨v, hv⟩ := matchAt_some h
  exact matchVerb_length hv

/-- Enough fuel is enough. -/
theorem findallAux_eq {fuel : ℕ} {s : Text} (h : s.length ≤ fuel) :
    findallAux fuel s = findall s := by
  unfold findall
  induction fuel using Nat.strong_induction_on generalizing s with
  | _ fuel ih =>
      cases s with
      | nil => cases fuel <;> rfl
      | cons c cs =>
          have hlen : cs.length + 1 ≤ fuel := h
          obtain ⟨fuel, rfl⟩ : ∃ k, fuel = k + 1 := ⟨fuel - 1, by omega⟩
          have hle : cs.length ≤ fuel := by omega
          show findallAux (fuel + 1) (c :: cs) = findallAux (cs.length + 1) (c :: cs)
          unfold findallAux
          split
          · rename_i found rest hm
            have hrest : rest.length < cs.length + 1 := matchAt_length hm
            have hone := ih fuel (by omega) (show rest.length ≤ fuel by omega)
            rw [hone]
            rcases Nat.lt_or_ge cs.length fuel with hlt | hge
            · rw [ih cs.length (by omega) (show rest.length ≤ cs.length by omega)]
            · rw [show cs.length = fuel by omega, hone]
          · exact ih fuel (by omega) hle

@[simp] theorem findall_nil : findall [] = [] := rfl

/-- One step of the scan: a match and the scan of what follows it, or the scan
from the next character on. -/
theorem findall_cons (c : Char) (cs : Text) :
    findall (c :: cs) =
      match matchAt (c :: cs) with
      | some (found, rest) => found :: findall rest
      | none => findall cs := by
  show findallAux (cs.length + 1) (c :: cs) = _
  unfold findallAux
  split
  · rename_i found rest hm
    have hrest : rest.length < cs.length + 1 := matchAt_length hm
    rw [findallAux_eq (show rest.length ≤ cs.length by omega)]
  · rfl

theorem findall_cons_of_none {c : Char} {cs : Text} (h : matchAt (c :: cs) = none) :
    findall (c :: cs) = findall cs := by
  rw [findall_cons, h]

/-! ### Separators -/

/-- A character that is in no match. -/
structure Separates (c : Char) : Prop where
  space : isSpace c = false
  digit : isDigit c = false
  verb : ∀ v : Verb, ∀ p ∈ v.text, same p c = false

instance (c : Char) : Decidable (Separates c) :=
  have : DecidablePred fun v : Verb => ∀ p ∈ v.text, same p c = false :=
    fun v => List.decidableBAll (fun p => same p c = false) v.text
  decidable_of_iff (isSpace c = false ∧ isDigit c = false ∧
      ∀ v ∈ [Verb.forward, Verb.turnLeft, Verb.turnRight], ∀ p ∈ v.text, same p c = false)
    ⟨fun h => ⟨h.1, h.2.1, fun v => h.2.2 v (by cases v <;> decide)⟩,
      fun h => ⟨h.space, h.digit, fun v _ => h.verb v⟩⟩

theorem separates_comma : Separates ',' := by decide

theorem separates_open : Separates '<' := by decide

theorem separates_close : Separates '>' := by decide

theorem matchVerb_sep {sep : Char} (hsep : Separates sep) (v : Verb) (xs ys : Text) :
    matchVerb v (xs ++ sep :: ys) =
      (matchVerb v xs).map fun m => (m.1, m.2 ++ sep :: ys) := by
  unfold matchVerb
  rw [eat_append (hsep.verb v)]
  cases eat same v.text xs with
  | none => rfl
  | some t =>
      simp only [Option.map_some, spacedNumber_append hsep.space hsep.digit, Option.map_map]
      rfl

theorem matchAt_sep {sep : Char} (hsep : Separates sep) (xs ys : Text) :
    matchAt (xs ++ sep :: ys) = (matchAt xs).map fun m => (m.1, m.2 ++ sep :: ys) := by
  unfold matchAt
  rw [matchVerb_sep hsep, matchVerb_sep hsep, matchVerb_sep hsep]
  cases matchVerb .forward xs with
  | some m => rfl
  | none =>
      cases matchVerb .turnLeft xs with
      | some m => rfl
      | none => rfl

/-- **The scan stops at a separator** and starts anew behind it. -/
theorem findall_sep {sep : Char} (hsep : Separates sep) (xs ys : Text) :
    findall (xs ++ sep :: ys) = findall xs ++ findall ys := by
  induction hn : xs.length using Nat.strong_induction_on generalizing xs with
  | _ n ih =>
      cases xs with
      | nil =>
          have hnone : matchAt (sep :: ys) = none := matchAt_sep hsep [] ys
          exact findall_cons_of_none hnone
      | cons c cs =>
          have hlen : cs.length + 1 = n := hn
          have hmatch := matchAt_sep hsep (c :: cs) ys
          rw [List.cons_append] at hmatch ⊢
          rw [findall_cons, findall_cons, hmatch]
          cases hm : matchAt (c :: cs) with
          | some m =>
              have hrest : m.2.length < cs.length + 1 := matchAt_length hm
              have hih := ih m.2.length (by omega) m.2 rfl
              simp only [Option.map_some, hih, List.cons_append]
          | none => exact ih cs.length (by omega) cs rfl

/-- Without a space there is no match. -/
theorem findall_of_no_space {s : Text} (h : ∀ c ∈ s, isSpace c = false) : findall s = [] := by
  have hnone : ∀ t : Text, (∀ c ∈ t, isSpace c = false) → matchAt t = none := by
    intro t ht
    by_contra hne
    obtain ⟨m, hm⟩ := Option.ne_none_iff_exists'.mp hne
    obtain ⟨v, hv⟩ := matchAt_some hm
    unfold matchVerb at hv
    split at hv
    · cases hv
    · rename_i u hu
      obtain ⟨w, rfl, -⟩ := eq_of_eat hu
      obtain ⟨n, hn, -⟩ := Option.map_eq_some_iff.mp hv
      have hspace : u.takeWhile isSpace = [] := by
        cases u with
        | nil => rfl
        | cons c cs =>
            have hc := ht c (List.mem_append_right w List.mem_cons_self)
            simp [hc]
      unfold spacedNumber at hn
      rw [if_pos (Or.inl hspace)] at hn
      cases hn
  induction s with
  | nil => rfl
  | cons c cs ih =>
      rw [findall_cons_of_none (hnone _ h)]
      exact ih fun d hd => h d (List.mem_cons_of_mem c hd)

/-! ### Where a match can be -/

/-- A match of the pattern is a verb and a number behind it. -/
theorem matchAt_spec {s : Text} {m : (Verb × Text) × Text} (h : matchAt s = some m) :
    ∃ v t d, s = v.text ++ t ∧ spacedNumber t = some d ∧ m = ((v, d.1), d.2) := by
  obtain ⟨v, hv⟩ := matchAt_some h
  unfold matchVerb at hv
  split at hv
  · cases hv
  · rename_i t ht
    obtain ⟨d, hd, rfl⟩ := Option.map_eq_some_iff.mp hv
    obtain ⟨w, rfl, hw⟩ := eq_of_eat ht
    have hsame : w = v.text := by
      refine (List.forall₂_eq_eq_eq ▸ hw.imp ?_ : v.text = w).symm
      intro p c hpc
      exact (beq_iff_eq.mp hpc).symm ▸ rfl
    exact ⟨v, t, d, by rw [hsame], hd, rfl⟩

/-- A match begins with the first two letters of a verb. -/
theorem matchAt_none_of_second {c : Char} {cs : Text}
    (hforward : c = 'f' → cs.head? ≠ some 'o') (hturn : c = 't' → cs.head? ≠ some 'u') :
    matchAt (c :: cs) = none := by
  by_contra hne
  obtain ⟨m, hm⟩ := Option.ne_none_iff_exists'.mp hne
  obtain ⟨v, t, d, hs, -, -⟩ := matchAt_spec hm
  obtain ⟨hc, hcs⟩ : c = v.text.head (by cases v <;> decide) ∧ cs = v.text.tail ++ t := by
    cases v <;> exact List.cons.inj hs
  cases v with
  | forward => exact hforward hc (by rw [hcs]; rfl)
  | turnLeft => exact hturn hc (by rw [hcs]; rfl)
  | turnRight => exact hturn hc (by rw [hcs]; rfl)

/-- A match begins with the first letter of a verb. -/
theorem matchAt_none_of_ne {c : Char} {cs : Text} (hf : c ≠ 'f') (ht : c ≠ 't') :
    matchAt (c :: cs) = none :=
  matchAt_none_of_second (fun h => absurd h hf) (fun h => absurd h ht)

/-- A character that is neither the first letter of a verb nor the second letter
of `turn`. -/
def Quiet (c : Char) : Prop := c ∉ ['f', 't', 'u']

instance (c : Char) : Decidable (Quiet c) := inferInstanceAs (Decidable (c ∉ ['f', 't', 'u']))

theorem Quiet.ne {c : Char} (h : Quiet c) : c ≠ 'f' ∧ c ≠ 't' ∧ c ≠ 'u' := by
  refine ⟨?_, ?_, ?_⟩ <;> rintro rfl <;> exact h (by decide)

/-- Quiet characters are skipped. -/
theorem findall_quiet_append {u : Text} (hu : ∀ c ∈ u, Quiet c) (v : Text) :
    findall (u ++ v) = findall v := by
  induction u with
  | nil => rfl
  | cons c u ih =>
      obtain ⟨hc, hu⟩ := List.forall_mem_cons.mp hu
      rw [List.cons_append, findall_cons_of_none (matchAt_none_of_ne hc.ne.1 hc.ne.2.1)]
      exact ih hu

theorem findall_quiet {u : Text} (hu : ∀ c ∈ u, Quiet c) : findall u = [] := by
  have h := findall_quiet_append hu []
  rwa [List.append_nil] at h

theorem quiet_of_isSpace {c : Char} (h : isSpace c = true) : Quiet c := by
  intro hc
  simp only [List.mem_cons, List.not_mem_nil, or_false] at hc
  rcases hc with rfl | rfl | rfl <;> exact absurd h (by decide)

theorem quiet_takeWhile_isSpace (s : Text) : ∀ c ∈ s.takeWhile isSpace, Quiet c :=
  fun _ hc => quiet_of_isSpace (List.mem_takeWhile_imp hc)

theorem quiet_of_isDigit {c : Char} (h : isDigit c = true) : Quiet c := by
  intro hc
  simp only [List.mem_cons, List.not_mem_nil, or_false] at hc
  rcases hc with rfl | rfl | rfl <;> exact absurd h (by decide)

/-! ### Numbers in front of more text -/

theorem takeWhile_append_of_dropWhile {p : Char → Bool} {s : Text} (h : s.dropWhile p ≠ [])
    (x : Text) : (s ++ x).takeWhile p = s.takeWhile p ∧
      (s ++ x).dropWhile p = s.dropWhile p ++ x := by
  induction s with
  | nil => exact absurd rfl h
  | cons c s ih =>
      rw [List.dropWhile_cons] at h
      rw [List.cons_append, List.takeWhile_cons, List.takeWhile_cons, List.dropWhile_cons,
        List.dropWhile_cons]
      split at h
      · rename_i hc
        obtain ⟨htake, hdrop⟩ := ih h
        rw [if_pos hc, if_pos hc, if_pos hc, if_pos hc, htake]
        exact ⟨rfl, hdrop⟩
      · rename_i hc
        rw [if_neg hc, if_neg hc, if_neg hc, if_neg hc]
        exact ⟨rfl, rfl⟩

/-- The parts of a spaced number. -/
theorem spacedNumber_spec {s : Text} {d : Text × Text} (h : spacedNumber s = some d) :
    s.takeWhile isSpace ≠ [] ∧ d.1 ≠ [] ∧ s = s.takeWhile isSpace ++ (d.1 ++ d.2) ∧
      (∀ c ∈ d.1, isDigit c = true) ∧
      d = ((s.dropWhile isSpace).takeWhile isDigit, (s.dropWhile isSpace).dropWhile isDigit) := by
  unfold spacedNumber at h
  dsimp only at h
  split at h
  · cases h
  · rename_i hne
    obtain ⟨hspace, hdigit⟩ := not_or.mp hne
    cases h
    refine ⟨hspace, hdigit, ?_, fun c hc => List.mem_takeWhile_imp hc, rfl⟩
    rw [List.takeWhile_append_dropWhile, List.takeWhile_append_dropWhile]

/-- A number that ends within a text is the same number when the text goes on. -/
theorem spacedNumber_append_of_ne {s : Text} {d : Text × Text} (h : spacedNumber s = some d)
    (hrest : d.2 ≠ []) (x : Text) : spacedNumber (s ++ x) = some (d.1, d.2 ++ x) := by
  obtain ⟨hspace, hdigit, -, -, rfl⟩ := spacedNumber_spec h
  have hmore : s.dropWhile isSpace ≠ [] := by
    intro hnil
    rw [hnil] at hrest
    exact hrest rfl
  obtain ⟨htake, hdrop⟩ := takeWhile_append_of_dropWhile hmore x
  obtain ⟨htake', hdrop'⟩ := takeWhile_append_of_dropWhile hrest x
  unfold spacedNumber
  dsimp only
  rw [htake, hdrop, htake', hdrop', if_neg (not_or.mpr ⟨hspace, hdigit⟩)]

end NavidaText
