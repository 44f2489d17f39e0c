/-
# The grammar of JSON

The part of the grammar of JSON texts that objects of strings, numbers and objects need, with
the blanks that an indented text has.

* `Value` : the texts of the grammar;
* `number_repr` : the text of a whole number is one;
* `members_intercalate` : so are the lines of an object, one member a line.
-/
import Mathlib.Data.Int.Notation
import Mathlib.Data.List.Basic
import Mathlib.Data.Nat.Notation

namespace JsonGrammar

/-- Blanks. -/
def Blank (t : List Char) : Prop := ∀ c ∈ t, c ∈ [' ', '\n', '\r', '\t']

/-! ## Numbers -/

/-- Decimal digits. -/
def Digits (t : List Char) : Prop := t ≠ [] ∧ ∀ c ∈ t, c.isDigit

/-- The digits before the point, which start with a zero only when that is all. -/
def Whole (t : List Char) : Prop := Digits t ∧ (t.head? = some '0' → t = ['0'])

-- along the list: `Char` is finite, but large
instance (t : List Char) : Decidable (Digits t) :=
  have : Decidable (∀ c ∈ t, c.isDigit) := List.decidableBAll (fun c => c.isDigit) t
  inferInstanceAs (Decidable (t ≠ [] ∧ ∀ c ∈ t, c.isDigit))

instance (t : List Char) : Decidable (Whole t) := inferInstanceAs (Decidable (_ ∧ _))

/-- The point and the digits behind it. -/
def Fraction (t : List Char) : Prop := t = [] ∨ ∃ ds, Digits ds ∧ t = '.' :: ds

/-- The exponent. -/
def Exponent (t : List Char) : Prop :=
  t = [] ∨ ∃ e ∈ ['e', 'E'], ∃ sign ∈ [[], ['+'], ['-']], ∃ ds, Digits ds ∧ t = e :: (sign ++ ds)

/-- A number. -/
def Number (t : List Char) : Prop :=
  ∃ sign ∈ [[], ['-']], ∃ whole fraction exponent, Whole whole ∧ Fraction fraction ∧
    Exponent exponent ∧ t = sign ++ whole ++ fraction ++ exponent

theorem number_decimal {whole ds : List Char} (hwhole : Whole whole) (hds : Digits ds) :
    Number (whole ++ '.' :: ds) :=
  ⟨[], by simp, whole, '.' :: ds, [], hwhole, .inr ⟨ds, hds, rfl⟩, .inl rfl, by simp⟩

/-- The first digit of a positive number. -/
theorem head_toDigits {n : ℕ} (h : 0 < n) : (Nat.toDigits 10 n).head? ≠ some '0' := by
  induction n using Nat.strongRecOn with
  | _ n ih =>
      by_cases hn : n < 10
      · rw [Nat.toDigits_of_lt_base hn, List.head?_cons]
        intro hzero
        have := Nat.digitChar_eq_zero.mp (Option.some.inj hzero)
        omega
      · rw [Nat.toDigits_of_base_le (by decide) (by omega), List.head?_append_of_ne_nil]
        · exact ih (n / 10) (by omega) (by omega)
        · exact Nat.toDigits_ne_nil

theorem digits_toDigits (n : ℕ) : Digits (Nat.toDigits 10 n) :=
  ⟨Nat.toDigits_ne_nil, fun _ h => Nat.isDigit_of_mem_toDigits (by decide) (by decide) h⟩

theorem whole_toDigits (n : ℕ) : Whole (Nat.toDigits 10 n) := by
  refine ⟨digits_toDigits n, fun h => ?_⟩
  rcases Nat.eq_zero_or_pos n with rfl | hn
  · rfl
  · exact absurd h (head_toDigits hn)

/-- **A whole number's text is a number.** -/
theorem number_repr (a : ℤ) : Number a.repr.toList := by
  cases a with
  | ofNat n =>
      refine ⟨[], by simp, n.repr.toList, [], [], ?_, .inl rfl, .inl rfl, by simp [Int.repr]⟩
      rw [Nat.toList_repr]
      exact whole_toDigits n
  | negSucc n =>
      refine ⟨['-'], by simp, (n + 1).repr.toList, [], [], ?_, .inl rfl, .inl rfl, ?_⟩
      · rw [Nat.toList_repr]
        exact whole_toDigits (n + 1)
      · show ("-" ++ Nat.repr (n + 1)).toList = _
        rw [String.toList_append]
        simp

/-! ## Strings -/

/-- What stands between the quotes of a string. -/
inductive Chars : List Char → Prop
  | nil : Chars []
  | plain {c : Char} {t : List Char} (hc : 32 ≤ c.toNat ∧ c ≠ '"' ∧ c ≠ '\\') (ht : Chars t) :
      Chars (c :: t)
  | escape {c : Char} {t : List Char} (hc : c ∈ ['"', '\\', '/', 'b', 'f', 'n', 'r', 't'])
      (ht : Chars t) : Chars ('\\' :: c :: t)
  | unicode {digits t : List Char} (hlen : digits.length = 4)
      (hhex : ∀ c ∈ digits, c ∈ "0123456789abcdefABCDEF".toList) (ht : Chars t) :
      Chars ('\\' :: 'u' :: (digits ++ t))

/-- A string. -/
def Quoted (t : List Char) : Prop := ∃ body, Chars body ∧ t = '"' :: (body ++ ['"'])

theorem Chars.append {s t : List Char} (hs : Chars s) (ht : Chars t) : Chars (s ++ t) := by
  induction hs with
  | nil => exact ht
  | plain hc _ ih => exact .plain hc ih
  | escape hc _ ih => exact .escape hc ih
  | unicode hlen hhex _ ih =>
      rw [List.cons_append, List.cons_append, List.append_assoc]
      exact .unicode hlen hhex ih

theorem chars_flatMap {f : Char → List Char} (h : ∀ c, Chars (f c)) (t : List Char) :
    Chars (t.flatMap f) := by
  induction t with
  | nil => exact .nil
  | cons c t ih => exact (h c).append ih

/-! ## Values -/

mutual

/-- A value. -/
inductive Value : List Char → Prop
  | number {t : List Char} (h : Number t) : Value t
  | string {t : List Char} (h : Quoted t) : Value t
  | object {t : List Char} (h : Members t) : Value ('{' :: (t ++ ['}']))

/-- A member of an object. -/
inductive Member : List Char → Prop
  | mk {before key between after value behind : List Char} (hbefore : Blank before)
      (hkey : Quoted key) (hbetween : Blank between) (hafter : Blank after) (hvalue : Value value)
      (hbehind : Blank behind) :
      Member (before ++ key ++ between ++ ':' :: (after ++ value ++ behind))

/-- The members of an object. -/
inductive Members : List Char → Prop
  | one {t : List Char} (h : Member t) : Members t
  | more {s t : List Char} (hs : Member s) (ht : Members t) : Members (s ++ ',' :: t)

end

/-- **Members one a line**, with blanks behind the last. -/
theorem members_intercalate {entries : List (List Char)} (hne : entries ≠ [])
    (h : ∀ entry ∈ entries, ∀ behind, Blank behind → Member ('\n' :: entry ++ behind))
    {tail : List Char} (htail : Blank tail) :
    Members ('\n' :: (List.intercalate [',', '\n'] entries ++ tail)) := by
  induction entries with
  | nil => exact absurd rfl hne
  | cons entry rest ih =>
      have hentry := h entry List.mem_cons_self
      cases rest with
      | nil => simpa using Members.one (hentry tail htail)
      | cons entry' rest =>
          have hfirst := hentry [] (by simp [Blank])
          have hrest := ih (by simp) fun e he => h e (List.mem_cons_of_mem _ he)
          simpa [List.intercalate_cons_cons] using Members.more hfirst hrest

end JsonGrammar
