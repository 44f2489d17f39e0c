/-
# `json.dumps`, read back by `json.loads`

Python's JSON encoder with its default options: every character that is not a printable
ASCII one is escaped, a character outside the basic plane as a pair of surrogates; an
integer of more digits than `int` reads raises `ValueError`; a float is written as
`float.__repr__` lays out its shortest digits, which are a parameter here (`Dtoa`), or as
`NaN`, `Infinity`, `-Infinity`; lists and objects stand in one line, or with an
indentation over many.

* `encode`, `dumps` : the encoder, with the levels of recursion that are left;
* `scanString_encodeString`, `scanNumber_encodeInt`, `scanNumber_layout` : the parts are
  read back;
* `scan_encode` : a value is read back, whatever a list or an object has behind it;
* `loads_dumps` : a text that `dumps` writes is read as the value it was written for.
-/
import Mathlib.Data.Nat.Log
import Mathlib.Data.Nat.Prime.Basic
import Mathlib.Tactic.FieldSimp
import Mathlib.Tactic.IntervalCases
import Mathlib.Tactic.Ring
import Rvln.JsonGrammar
import Rvln.PyJson

namespace Json

open NavidaText

/-! ## Writing strings -/

/-- The four digits of `\uXXXX`. -/
def hexDigits (n : ℕ) : Text :=
  [n / 4096 % 16, n / 256 % 16, n / 16 % 16, n % 16].map Nat.digitChar

/-- `'\\u{0:04x}'.format(n)`. -/
def escapeUnit (n : ℕ) : Text := '\\' :: 'u' :: hexDigits n

/-- `ESCAPE_DCT`, for the characters that have a letter. -/
def escapeLetter (c : Char) : Option Char :=
  if c = '\\' then some '\\'
  else if c = '"' then some '"'
  else if c.toNat = 8 then some 'b'
  else if c.toNat = 12 then some 'f'
  else if c = '\n' then some 'n'
  else if c = '\r' then some 'r'
  else if c = '\t' then some 't'
  else none

/-- The surrogates of a character, or the character itself. -/
def units (c : Char) : List ℕ :=
  if c.toNat < 0x10000 then [c.toNat]
  else [0xD800 + (c.toNat - 0x10000) / 0x400, 0xDC00 + (c.toNat - 0x10000) % 0x400]

/-- `replace` of `py_encode_basestring_ascii`. -/
def encodeChar (c : Char) : Text :=
  match escapeLetter c with
  | some letter => ['\\', letter]
  | none => if 32 ≤ c.toNat ∧ c.toNat < 127 then [c] else (units c).flatMap escapeUnit

/-- `py_encode_basestring_ascii`. -/
def encodeString (s : Text) : Text := '"' :: (s.flatMap encodeChar ++ ['"'])

/-! ## Strings are read back -/

/-- A hexadecimal digit is read as its value. -/
theorem hexValue_digitChar : ∀ d, d < 16 → hexValue (Nat.digitChar d) = some d := by decide

/-- The four digits of an escape are read as its code unit. -/
theorem hexCode_hexDigits {n : ℕ} (h : n < 0x10000) (rest : Text) :
    ∃ a b c d, hexDigits n ++ rest = a :: b :: c :: d :: rest ∧ hexCode a b c d = some n := by
  refine ⟨_, _, _, _, rfl, ?_⟩
  simp only [hexCode, hexValue_digitChar _ (Nat.mod_lt _ (by decide : 0 < 16)), Option.bind_eq_bind,
    Option.bind_some, Option.pure_def, Option.some.injEq]
  omega

/-- An escaped code unit is scanned as itself. -/
theorem scanUnits_escapeUnit {n : ℕ} (h : n < 0x10000) (rest : Text) :
    scanUnits (escapeUnit n ++ rest) = (scanUnits rest).map fun r => (n :: r.1, r.2) := by
  obtain ⟨a, b, c, d, hdigits, hcode⟩ := hexCode_hexDigits h rest
  rw [escapeUnit, List.cons_append, List.cons_append, hdigits, scanUnits, hcode]
  cases scanUnits rest <;> rfl

/-- So are several of them in a row. -/
theorem scanUnits_flatMap_escapeUnit {ns : List ℕ} (h : ∀ n ∈ ns, n < 0x10000) (rest : Text) :
    scanUnits (ns.flatMap escapeUnit ++ rest) =
      (scanUnits rest).map fun r => (ns ++ r.1, r.2) := by
  induction ns with
  | nil => cases h : scanUnits rest <;> simp [h, Except.map]
  | cons n ns ih =>
      obtain ⟨hn, hns⟩ := List.forall_mem_cons.mp h
      rw [List.flatMap_cons, List.append_assoc, scanUnits_escapeUnit hn, ih hns]
      cases scanUnits rest <;> rfl

/-- A character is below the end of Unicode. -/
theorem toNat_lt (c : Char) : c.toNat < 0x110000 := by
  rcases c.valid with h | h
  · exact Nat.lt_trans h (by decide)
  · exact h.2

/-- A code unit of UTF-16 has 16 bits. -/
theorem lt_of_mem_units {c : Char} {n : ℕ} (h : n ∈ units c) : n < 0x10000 := by
  have := toNat_lt c
  unfold units at h
  split at h
  · rw [List.mem_singleton] at h
    omega
  · simp only [List.mem_cons, List.not_mem_nil, or_false] at h
    omega

/-- An escape of one letter is scanned as the unit that it stands for. -/
theorem scanUnits_letter {letter : Char} {n : ℕ} (hletter : escape letter = some n) (rest : Text) :
    scanUnits ('\\' :: letter :: rest) = (scanUnits rest).map fun r => (n :: r.1, r.2) := by
  have hu : letter ≠ 'u' := by
    rintro rfl
    have hnone : escape 'u' = none := by decide
    rw [hnone] at hletter
    cases hletter
  rw [scanUnits.eq_4 _ _ (by intro a b c d rest h; exact (hu h).elim), hletter]
  cases scanUnits rest <;> rfl

/-- The letter that a character is escaped by stands for that character. -/
theorem escape_of_escapeLetter {c letter : Char} (h : escapeLetter c = some letter) :
    escape letter = some c.toNat ∧ units c = [c.toNat] := by
  unfold escapeLetter at h
  split_ifs at h with h1 h2 h3 h4 h5 h6 h7 <;> obtain rfl := Option.some.inj h
  · exact ⟨by rw [h1]; rfl, by rw [h1]; rfl⟩
  · exact ⟨by rw [h2]; rfl, by rw [h2]; rfl⟩
  · exact ⟨by rw [h3]; rfl, by simp [units, h3]⟩
  · exact ⟨by rw [h4]; rfl, by simp [units, h4]⟩
  · exact ⟨by rw [h5]; rfl, by rw [h5]; rfl⟩
  · exact ⟨by rw [h6]; rfl, by rw [h6]; rfl⟩
  · exact ⟨by rw [h7]; rfl, by rw [h7]; rfl⟩

/-- An encoded character is scanned as its code units. -/
theorem scanUnits_encodeChar (c : Char) (rest : Text) :
    scanUnits (encodeChar c ++ rest) = (scanUnits rest).map fun r => (units c ++ r.1, r.2) := by
  unfold encodeChar
  split
  · next letter h =>
      obtain ⟨hescape, hunits⟩ := escape_of_escapeLetter h
      rw [hunits]
      exact scanUnits_letter hescape rest
  · next h =>
      split
      · next hprint =>
          have hq : c ≠ '"' := by
            rintro rfl
            exact absurd h (by decide)
          have hb : c ≠ '\\' := by
            rintro rfl
            exact absurd h (by decide)
          rw [List.singleton_append, scanUnits.eq_5, if_neg (by simp [hb]; omega), units,
            if_pos (by omega)]
          · cases scanUnits rest <;> rfl
          all_goals simp_all
      · exact scanUnits_flatMap_escapeUnit (fun n => lt_of_mem_units) rest

/-- An encoded text is scanned as its code units, up to the closing quote. -/
theorem scanUnits_flatMap_encodeChar (s rest : Text) :
    scanUnits (s.flatMap encodeChar ++ '"' :: rest) = .ok (s.flatMap units, rest) := by
  induction s with
  | nil => rfl
  | cons c s ih => simp [scanUnits_encodeChar, ih, Except.map]

/-- A code point is the character that it was taken from. -/
theorem charOf_toNat (c : Char) : charOf c.toNat = c := by
  have hvalid : c.toNat.isValidChar := c.valid
  rw [charOf, if_pos hvalid, Char.ofNat_toNat]

/-- No character is a surrogate. -/
theorem not_surrogate (c : Char) : ¬(0xD800 ≤ c.toNat ∧ c.toNat ≤ 0xDFFF) := by
  rcases c.valid with h | ⟨h, -⟩
  · have : c.toNat < 0xD800 := h
    omega
  · have : 0xDFFF < c.toNat := h
    omega

/-- The code units of a character are joined to that character. -/
theorem joinSurrogates_units (c : Char) (ns : List ℕ) :
    joinSurrogates (units c ++ ns) = c :: joinSurrogates ns := by
  have hlt := toNat_lt c
  unfold units
  split
  · cases ns with
    | nil => simp [joinSurrogates, charOf_toNat]
    | cons m ns =>
        have := not_surrogate c
        rw [List.singleton_append, joinSurrogates, if_neg (by omega), charOf_toNat]
  · simp only [List.cons_append, List.nil_append]
    rw [joinSurrogates, if_pos (by omega)]
    have hn : 0x10000 + (0xD800 + (c.toNat - 0x10000) / 0x400 - 0xD800) * 0x400 +
        (0xDC00 + (c.toNat - 0x10000) % 0x400 - 0xDC00) = c.toNat := by omega
    rw [hn, charOf_toNat]

/-- The code units of a text are joined to that text. -/
theorem joinSurrogates_flatMap_units (s : Text) : joinSurrogates (s.flatMap units) = s := by
  induction s with
  | nil => rfl
  | cons c s ih => rw [List.flatMap_cons, joinSurrogates_units, ih]

/-- **A string is read back.** -/
theorem scanString_encodeString (s rest : Text) :
    scanString (s.flatMap encodeChar ++ '"' :: rest) = .ok (s, rest) := by
  rw [scanString, scanUnits_flatMap_encodeChar]
  exact congrArg (fun t => Except.ok (t, rest)) (joinSurrogates_flatMap_units s)

/-! ## Numbers are read back -/

/-- What may stand behind a value. -/
def follows (c : Char) : Bool := c == ',' || c == ']' || c == '}' || isWhitespace c

/-- Behind a value there is nothing, or a character that does not go on with a number. -/
def Ends (rest : Text) : Prop := ∀ c ∈ rest.head?, follows c = true

/-- A number ends where the text does. -/
theorem ends_nil : Ends [] := nofun

/-- A number ends in front of a comma, a closing bracket or whitespace. -/
theorem ends_cons {c : Char} (h : follows c = true) (rest : Text) : Ends (c :: rest) := by
  intro d hd
  obtain rfl : c = d := by simpa using hd
  exact h

/-- What may follow a number is none of its own characters. -/
theorem ne_of_follows {c : Char} (h : follows c = true) :
    isAsciiDigit c = false ∧ c ≠ '.' ∧ c ≠ 'e' ∧ c ≠ 'E' := by
  simp only [follows, isWhitespace, Bool.or_eq_true, beq_iff_eq] at h
  rcases h with ((rfl | rfl) | rfl) | ((rfl | rfl) | rfl) | rfl <;> decide

/-- Digits, and behind them no digit. -/
theorem span_digits {ds rest : Text} (hds : ∀ c ∈ ds, isAsciiDigit c = true)
    (hrest : ∀ c ∈ rest.head?, isAsciiDigit c = false) :
    (ds ++ rest).takeWhile isAsciiDigit = ds ∧ (ds ++ rest).dropWhile isAsciiDigit = rest := by
  rw [List.takeWhile_append_of_pos hds, List.dropWhile_append_of_pos hds]
  cases rest with
  | nil => exact ⟨List.append_nil ds, rfl⟩
  | cons c rest =>
      have hc := hrest c rfl
      rw [List.takeWhile_cons, List.dropWhile_cons, hc]
      exact ⟨List.append_nil ds, rfl⟩

/-- The point and the digits behind it. -/
def fractionText (fraction : Text) : Text := if fraction = [] then [] else '.' :: fraction

/-- The exponent, with a sign. -/
def exponentText : Option (Bool × Text) → Text
  | none => []
  | some (negative, digits) => 'e' :: (if negative then '-' else '+') :: digits

/-- The value of an exponent. -/
def exponentValue (e : Bool × Text) : ℤ := if e.1 then -(number e.2 : ℤ) else number e.2

/-- The digits before the point, as JSON wants them. -/
structure IntegerDigits (ds : Text) : Prop where
  digits : ∀ c ∈ ds, isAsciiDigit c = true
  ne_nil : ds ≠ []
  zero : ds.head? = some '0' → ds = ['0']

theorem isAsciiDigit_zero : ∀ c ∈ ['0'], isAsciiDigit c = true := by simp [isAsciiDigit]

theorem integerDigits_zero : IntegerDigits ['0'] := ⟨isAsciiDigit_zero, by simp, fun _ => rfl⟩

/-- The digits of an integer are scanned up to what ends them. -/
theorem scanInteger_append {ds rest : Text} (h : IntegerDigits ds)
    (hrest : ∀ c ∈ rest.head?, isAsciiDigit c = false) :
    scanInteger (ds ++ rest) = (ds, rest) := by
  obtain ⟨htake, hdrop⟩ := span_digits h.digits hrest
  cases ds with
  | nil => exact absurd rfl h.ne_nil
  | cons d ds =>
      by_cases hd : d = '0'
      · have hzero := h.zero (by rw [List.head?_cons, hd])
        obtain ⟨rfl, rfl⟩ := List.cons.inj hzero
        rfl
      · rw [List.cons_append, scanInteger.eq_2 _ (fun _ h => hd (List.cons.inj h).1)]
        exact Prod.ext htake hdrop

/-- So are those of a fraction. -/
theorem scanFraction_append {fraction rest : Text} (h : ∀ c ∈ fraction, isAsciiDigit c = true)
    (hrest : ∀ c ∈ rest.head?, isAsciiDigit c = false ∧ c ≠ '.') :
    scanFraction (fractionText fraction ++ rest) = (fraction, rest) := by
  obtain ⟨htake, hdrop⟩ := span_digits h fun c hc => (hrest c hc).1
  unfold fractionText
  split
  · next hf =>
      rw [hf, List.nil_append, scanFraction.eq_2]
      rintro t rfl
      exact (hrest '.' rfl).2 rfl
  · next hf => rw [List.cons_append, scanFraction, htake, hdrop, if_neg hf]

/-- So are those of an exponent. -/
theorem scanExponent_append {e : Option (Bool × Text)} {rest : Text}
    (h : ∀ p ∈ e, p.2 ≠ [] ∧ ∀ c ∈ p.2, isAsciiDigit c = true)
    (hrest : ∀ c ∈ rest.head?, isAsciiDigit c = false ∧ c ≠ 'e' ∧ c ≠ 'E') :
    scanExponent (exponentText e ++ rest) = (e.map exponentValue, rest) := by
  cases e with
  | none =>
      cases rest with
      | nil => rfl
      | cons c rest =>
          have hc := (hrest c rfl).2
          rw [exponentText, List.nil_append, scanExponent, if_neg (by simp [hc])]
          rfl
  | some p =>
      obtain ⟨hne, hdigits⟩ := h p rfl
      obtain ⟨htake, hdrop⟩ := span_digits hdigits fun c hc => (hrest c hc).1
      obtain ⟨negative, ds⟩ := p
      cases negative <;>
        simp only [exponentText, List.cons_append, scanExponent, scanSign, htake, hdrop, if_neg hne,
          true_or, if_true, exponentValue, Option.map_some, if_false, Bool.false_eq_true]

/-- A number of its parts. -/
def numberText (integer fraction : Text) (exponent : Option (Bool × Text)) : Text :=
  integer ++ (fractionText fraction ++ exponentText exponent)

/-- The number is read from its parts. -/
theorem scanNumber_numberText {integer fraction : Text} {exponent : Option (Bool × Text)}
    (hinteger : IntegerDigits integer) (hfraction : ∀ c ∈ fraction, isAsciiDigit c = true)
    (hexponent : ∀ p ∈ exponent, p.2 ≠ [] ∧ ∀ c ∈ p.2, isAsciiDigit c = true) {rest : Text}
    (hrest : Ends rest) (negative : Bool) :
    scanNumber negative (numberText integer fraction exponent ++ rest) =
      if fraction = [] ∧ exponent = none then
        if maxStrDigits < integer.length then .error .valueError
        else .ok (.int (if negative then -(number integer : ℤ) else number integer), rest)
      else
        .ok (.float (toDouble negative (number (integer ++ fraction) *
          (10 : ℚ) ^ ((exponent.map exponentValue).getD 0 - fraction.length))), rest) := by
  have hend (c : Char) (hc : c ∈ rest.head?) := ne_of_follows (hrest c hc)
  have hexp : ∀ c ∈ (exponentText exponent ++ rest).head?, isAsciiDigit c = false ∧ c ≠ '.' := by
    cases exponent with
    | none => exact fun c hc => ⟨(hend c hc).1, (hend c hc).2.1⟩
    | some p =>
        intro c hc
        obtain rfl : 'e' = c := by simpa [exponentText] using hc
        decide
  have hfrac : ∀ c ∈ (fractionText fraction ++ (exponentText exponent ++ rest)).head?,
      isAsciiDigit c = false := by
    unfold fractionText
    split
    · exact fun c hc => (hexp c hc).1
    · intro c hc
      obtain rfl : '.' = c := by simpa using hc
      decide
  have hinteger' := scanInteger_append hinteger hfrac
  have hfraction' := scanFraction_append hfraction hexp
  have hexponent' := scanExponent_append hexponent fun c hc => ⟨(hend c hc).1, (hend c hc).2.2⟩
  simp only [scanNumber, numberText, List.append_assoc, hinteger', hfraction', hexponent',
    if_neg hinteger.ne_nil, Option.map_eq_none_iff]

/-! ## Writing numbers -/

/-- `int.__repr__`, without the sign. -/
def encodeNat (n : ℕ) : Text := Nat.toDigits 10 n

/-- `int.__repr__`. -/
def encodeInt (n : ℤ) : Except Raised Text :=
  if maxStrDigits < (encodeNat n.natAbs).length then .error .valueError
  else .ok (if n < 0 then '-' :: encodeNat n.natAbs else encodeNat n.natAbs)

/-- The number is one of the doubles. -/
def IsDouble (x : ℚ) : Prop := toDouble false |x| = .fin |x|

instance (x : ℚ) : Decidable (IsDouble x) :=
  inferInstanceAs (Decidable (toDouble false |x| = .fin |x|))

/-- `_Py_dg_dtoa` in its mode 0: the digits `d₁d₂…` of a positive double, and the place of
the point, so that `0.d₁d₂… * 10 ^ place` is read as the double. -/
structure Dtoa where
  digits : ℚ → Text
  place : ℚ → ℤ
  isDigit : ∀ x, 0 < x → IsDouble x → ∀ c ∈ digits x, isAsciiDigit c = true
  head : ∀ x, 0 < x → IsDouble x → ∃ d ∈ (digits x).head?, d ≠ '0'
  reads : ∀ x, 0 < x → IsDouble x →
    toDouble false (number (digits x) * (10 : ℚ) ^ (place x - (digits x).length)) = .fin x

/-- Two digits of an exponent, or more. -/
def exponentDigits (n : ℕ) : Text := if n < 10 then ['0', Nat.digitChar n] else encodeNat n

/-- `format_float_short` for `repr`: a point among the digits or beside them, and an exponent
for the large and the small numbers. -/
def layout (digits : Text) (place : ℤ) : Text :=
  if place ≤ -4 ∨ 16 < place then
    numberText (digits.take 1) (digits.drop 1)
      (some (decide (place - 1 < 0), exponentDigits (place - 1).natAbs))
  else if place ≤ 0 then
    numberText ['0'] (List.replicate place.natAbs '0' ++ digits) none
  else if digits.length ≤ place.natAbs then
    numberText (digits ++ List.replicate (place.natAbs - digits.length) '0') ['0'] none
  else numberText (digits.take place.natAbs) (digits.drop place.natAbs) none

/-- `floatstr`. -/
def encodeFloat (dtoa : Dtoa) : PyFloat ℚ → Text
  | .nan => "NaN".toList
  | .posInf => "Infinity".toList
  | .negInf => "-Infinity".toList
  | .fin x =>
    if x = 0 then "0.0".toList
    else if x < 0 then '-' :: layout (dtoa.digits (-x)) (dtoa.place (-x))
    else layout (dtoa.digits x) (dtoa.place x)

/-! ## Digits -/

/-- A decimal digit is read as its value. -/
theorem digitValue?_digitChar : ∀ d, d < 10 → digitValue? (Nat.digitChar d) = some d := by decide

/-- The digits of `str` are ASCII digits. -/
theorem isAsciiDigit_digitChar : ∀ d, d < 10 → isAsciiDigit (Nat.digitChar d) = true := by decide

/-- The ASCII digits by their code points. -/
theorem isAsciiDigit_iff {c : Char} : isAsciiDigit c = true ↔ 48 ≤ c.toNat ∧ c.toNat ≤ 57 := by
  simp only [isAsciiDigit, Bool.and_eq_true, decide_eq_true_eq]
  exact Iff.rfl

theorem isAsciiDigit_of_isDigit {c : Char} (h : c.isDigit = true) : isAsciiDigit c = true := by
  simp only [Char.isDigit, Bool.and_eq_true, decide_eq_true_eq] at h
  exact isAsciiDigit_iff.mpr h

/-- An ASCII digit is the digit of its value. -/
theorem eq_digitChar {c : Char} (h : isAsciiDigit c = true) :
    ∃ d, d < 10 ∧ c = Nat.digitChar d := by
  have hc := isAsciiDigit_iff.mp h
  refine ⟨c.toNat - 48, by omega, Char.toNat_inj.mp ?_⟩
  rw [Nat.toNat_digitChar_of_lt_ten (by omega)]
  omega

/-- The number of digits with one more behind them. -/
theorem number_concat (ds : Text) (c : Char) :
    number (ds ++ [c]) = 10 * number ds + (digitValue? c).getD 0 := by
  simp [number]

/-- The number of two texts of digits in a row. -/
theorem number_append (a b : Text) :
    number (a ++ b) = number a * 10 ^ b.length + number b := by
  induction b using List.reverseRecOn with
  | nil => simp [number]
  | append_singleton b c ih =>
      rw [← List.append_assoc, number_concat, number_concat, ih, List.length_append,
        List.length_singleton]
      ring

/-- Zeros make zero. -/
theorem number_replicate_zero (k : ℕ) : number (List.replicate k '0') = 0 := by
  have hzero : digitValue? '0' = some 0 := digitValue?_digitChar 0 (by decide)
  induction k with
  | zero => rfl
  | succ k ih => rw [List.replicate_succ', number_concat, ih, hzero]; rfl

/-- **`int(str(n))`** is `n`. -/
theorem number_encodeNat (n : ℕ) : number (encodeNat n) = n := by
  have hdigits : ∀ ds : Text, (∀ c ∈ ds, isAsciiDigit c = true) →
      number ds = Nat.ofDigitChars 10 ds 0 := by
    intro ds
    induction ds using List.reverseRecOn with
    | nil => exact fun _ => rfl
    | append_singleton ds c ih =>
        intro h
        obtain ⟨d, hd, rfl⟩ := eq_digitChar (h c (by simp))
        rw [number_concat, digitValue?_digitChar d hd, ih fun c hc => h c (by simp [hc]),
          Nat.ofDigitChars_append]
        simp [Nat.ofDigitChars, Nat.toNat_digitChar_of_lt_ten hd]
  rw [encodeNat, hdigits _ fun c hc => isAsciiDigit_of_isDigit
    (Nat.isDigit_of_mem_toDigits (by decide) (by decide) hc), Nat.ofDigitChars_ten_toDigits]

/-- `str` of a number consists of ASCII digits. -/
theorem isAsciiDigit_encodeNat {n : ℕ} {c : Char} (h : c ∈ encodeNat n) : isAsciiDigit c = true :=
  isAsciiDigit_of_isDigit (Nat.isDigit_of_mem_toDigits (by decide) (by decide) h)

/-- It has no leading zero. -/
theorem integerDigits_encodeNat (n : ℕ) : IntegerDigits (encodeNat n) where
  digits _ := isAsciiDigit_encodeNat
  ne_nil := Nat.toDigits_ne_nil
  zero h := by
    rcases Nat.eq_zero_or_pos n with rfl | hn
    · rfl
    · exact absurd h (JsonGrammar.head_toDigits hn)

/-- The digits of an exponent are read as its value. -/
theorem exponentDigits_spec (n : ℕ) :
    number (exponentDigits n) = n ∧ exponentDigits n ≠ [] ∧
      ∀ c ∈ exponentDigits n, isAsciiDigit c = true := by
  unfold exponentDigits
  split
  · next hn =>
      have hzero : digitValue? '0' = some 0 := digitValue?_digitChar 0 (by decide)
      refine ⟨?_, by simp, ?_⟩
      · simp [number, digitValue?_digitChar n hn, hzero]
      · simp only [List.mem_cons, List.not_mem_nil, or_false, forall_eq_or_imp, forall_eq]
        exact ⟨by decide, isAsciiDigit_digitChar n hn⟩
  · exact ⟨number_encodeNat n, Nat.toDigits_ne_nil, fun _ => isAsciiDigit_encodeNat⟩

/-- **An integer is read back.** -/
theorem scanNumber_encodeNat {n : ℕ} (h : (encodeNat n).length ≤ maxStrDigits) {rest : Text}
    (hrest : Ends rest) (negative : Bool) :
    scanNumber negative (encodeNat n ++ rest) =
      .ok (.int (if negative then -(n : ℤ) else n), rest) := by
  have htext : encodeNat n = numberText (encodeNat n) [] none := by
    simp [numberText, fractionText, exponentText]
  rw [htext, scanNumber_numberText (integerDigits_encodeNat n) (by simp) (by simp) hrest,
    if_pos ⟨rfl, rfl⟩, if_neg (Nat.not_lt.mpr h), number_encodeNat]

section Layout

variable {digits : Text} {place : ℤ}

/-- The digits of a double are no integer part with a zero in front. -/
theorem integerDigits_of_head {ds : Text} (h : ∀ c ∈ ds, isAsciiDigit c = true)
    (hhead : ∃ d ∈ ds.head?, d ≠ '0') : IntegerDigits ds where
  digits := h
  ne_nil := by
    rintro rfl
    obtain ⟨d, hd, -⟩ := hhead
    cases hd
  zero hzero := by
    obtain ⟨d, hd, hne⟩ := hhead
    rw [hzero] at hd
    exact absurd (Option.some.inj hd).symm hne

/-- The first digit of a cut text. -/
theorem head?_take {ds : Text} {k : ℕ} (hk : 0 < k) : (ds.take k).head? = ds.head? := by
  rw [List.head?_take, if_neg (Nat.ne_of_gt hk)]

/-- **The digits of a float are read back**, wherever the point stands. -/
theorem scanNumber_layout (hdigits : ∀ c ∈ digits, isAsciiDigit c = true)
    (hhead : ∃ d ∈ digits.head?, d ≠ '0') {rest : Text} (hrest : Ends rest) (negative : Bool) :
    scanNumber negative (layout digits place ++ rest) =
      .ok (.float (toDouble negative
        (number digits * (10 : ℚ) ^ (place - (digits.length : ℤ)))), rest) := by
  have hlen : 0 < digits.length := by
    obtain ⟨d, hd, -⟩ := hhead
    cases digits with
    | nil => cases hd
    | cons c cs => exact Nat.succ_pos _
  have htake (k : ℕ) : ∀ c ∈ digits.take k, isAsciiDigit c = true := fun c hc =>
    hdigits c (List.mem_of_mem_take hc)
  have hdrop (k : ℕ) : ∀ c ∈ digits.drop k, isAsciiDigit c = true := fun c hc =>
    hdigits c (List.mem_of_mem_drop hc)
  have hzeros (k : ℕ) : ∀ c ∈ List.replicate k '0', isAsciiDigit c = true := by
    intro c hc
    rw [(List.mem_replicate.mp hc).2]
    decide
  unfold layout
  split_ifs with hexp hplace hlong
  -- one digit, the others behind the point, and an exponent
  · obtain ⟨hvalue, hne, hexponent⟩ := exponentDigits_spec (place - 1).natAbs
    rw [scanNumber_numberText (integerDigits_of_head (htake 1) (by rwa [head?_take one_pos]))
      (hdrop 1) (by rintro p ⟨⟩; exact ⟨hne, hexponent⟩) hrest, if_neg (by simp),
      List.take_append_drop]
    have he : exponentValue (decide (place - 1 < 0), exponentDigits (place - 1).natAbs) =
        place - 1 := by
      simp only [exponentValue, hvalue, decide_eq_true_eq]
      split_ifs <;> omega
    have hshift : place - 1 - ((digits.drop 1).length : ℤ) = place - digits.length := by
      rw [List.length_drop]
      omega
    rw [Option.map_some, Option.getD_some, he, hshift]
  -- zeros between the point and the digits
  · rw [scanNumber_numberText integerDigits_zero ?_ (by simp) hrest, if_neg ?_]
    · have hnumber : number (['0'] ++ (List.replicate place.natAbs '0' ++ digits)) =
          number digits := by
        rw [← List.append_assoc, number_append,
          show ['0'] ++ List.replicate place.natAbs '0' = List.replicate (place.natAbs + 1) '0'
            from List.replicate_succ.symm, number_replicate_zero, Nat.zero_mul, Nat.zero_add]
      have hshift : (0 : ℤ) - ((List.replicate place.natAbs '0' ++ digits).length : ℤ) =
          place - digits.length := by
        rw [List.length_append, List.length_replicate]
        omega
      rw [hnumber, Option.map_none, Option.getD_none, hshift]
    · rintro ⟨hnil, -⟩
      rw [List.append_eq_nil_iff] at hnil
      simp [hnil.2] at hlen
    · intro c hc
      exact (List.mem_append.mp hc).elim (hzeros _ c) (hdigits c)
  -- zeros between the digits and the point
  · rw [scanNumber_numberText (integerDigits_of_head ?_ ?_) isAsciiDigit_zero (by simp) hrest,
      if_neg (by simp)]
    · have hnumber : number (digits ++ List.replicate (place.natAbs - digits.length) '0' ++ ['0']) =
          number digits * 10 ^ (place.natAbs - digits.length + 1) := by
        rw [List.append_assoc, number_append,
          show List.replicate (place.natAbs - digits.length) '0' ++ ['0'] =
            List.replicate (place.natAbs - digits.length + 1) '0' from List.replicate_succ'.symm,
          number_replicate_zero, List.length_replicate, Nat.add_zero]
      have hshift : (((place.natAbs - digits.length + 1 : ℕ) : ℤ) + (0 - 1)) =
          place - digits.length := by omega
      rw [hnumber, Option.map_none, Option.getD_none, Nat.cast_mul, mul_assoc, Nat.cast_pow,
        ← zpow_natCast, Nat.cast_ofNat, ← zpow_add₀ (by norm_num), List.length_singleton,
        Nat.cast_one, hshift]
    · intro c hc
      exact (List.mem_append.mp hc).elim (hdigits c) (hzeros _ c)
    · obtain ⟨d, hd, hne⟩ := hhead
      exact ⟨d, by rw [List.head?_append_of_ne_nil _ (List.length_pos_iff.mp hlen)]; exact hd, hne⟩
  -- the point among the digits
  · rw [scanNumber_numberText (integerDigits_of_head (htake _) (by rwa [head?_take (by omega)]))
      (hdrop _) (by simp) hrest, if_neg ?_, List.take_append_drop]
    · have hshift : (0 : ℤ) - ((digits.drop place.natAbs).length : ℤ) = place - digits.length := by
        rw [List.length_drop]
        omega
      rw [Option.map_none, Option.getD_none, hshift]
    · rintro ⟨hnil, -⟩
      rw [List.drop_eq_nil_iff] at hnil
      omega

end Layout

/-! ## Writing values -/

/-- A line feed and the indentation of a level; nothing where all stands in one line. -/
def newline : Option ℕ → ℕ → Text
  | none, _ => []
  | some width, level => '\n' :: List.replicate (width * level) ' '

/-- What stands between two items. -/
def separator : Option ℕ → ℕ → Text
  | none, _ => [',', ' ']
  | some width, level => ',' :: newline (some width) level

/-- The items of a list or the fields of an object, in their brackets. -/
def bracketed (indent : Option ℕ) (level : ℕ) (opening closing : Char) (texts : List Text) : Text :=
  if texts = [] then [opening, closing]
  else
    opening :: (newline indent (level + 1) ++ ((separator indent (level + 1)).intercalate texts ++
      (newline indent level ++ [closing])))

/-- A field of an object. -/
def encodeField (key value : Text) : Text := encodeString key ++ ':' :: ' ' :: value

section Encode

variable (dtoa : Dtoa) (indent : Option ℕ)

/-- `_iterencode`, with the levels that are left and the level of the value. -/
def encode : ℕ → ℕ → Json → Except Raised Text
  | _, _, .null => .ok "null".toList
  | _, _, .bool true => .ok "true".toList
  | _, _, .bool false => .ok "false".toList
  | _, _, .int n => encodeInt n
  | _, _, .float x => .ok (encodeFloat dtoa x)
  | _, _, .str s => .ok (encodeString s)
  | 0, _, .list _ => .error .recursionError
  | 0, _, .object _ => .error .recursionError
  | left + 1, level, .list items => do
    let texts ← items.mapM (encode left (level + 1))
    pure (bracketed indent level '[' ']' texts)
  | left + 1, level, .object fields => do
    let texts ← fields.mapM fun f => do pure (encodeField f.1 (← encode left (level + 1) f.2))
    pure (bracketed indent level '{' '}' texts)

/-- `json.dumps(value, indent=indent)`. -/
def dumps (levels : ℕ) (v : Json) : Except Raised Text := encode dtoa indent levels 0 v

end Encode

section

variable {dtoa : Dtoa} {indent : Option ℕ} {left level : ℕ}

/-- A list is written if its items are. -/
theorem exists_encode_list {items : List Json}
    (h : ∀ v ∈ items, ∃ text, encode dtoa indent left (level + 1) v = .ok text) :
    ∃ text, encode dtoa indent (left + 1) level (.list items) = .ok text := by
  obtain ⟨texts, htexts⟩ := Except.exists_mapM_ok h
  exact ⟨_, Except.bind_eq_ok htexts rfl⟩

/-- An object is written if its values are. -/
theorem exists_encode_object {fields : List (Text × Json)}
    (h : ∀ f ∈ fields, ∃ text, encode dtoa indent left (level + 1) f.2 = .ok text) :
    ∃ text, encode dtoa indent (left + 1) level (.object fields) = .ok text := by
  have hfields : ∀ f ∈ fields, ∃ text,
      (do pure (encodeField f.1 (← encode dtoa indent left (level + 1) f.2))) =
        (.ok text : Except Raised Text) := by
    intro f hf
    obtain ⟨text, htext⟩ := h f hf
    exact ⟨_, Except.bind_eq_ok htext rfl⟩
  obtain ⟨texts, htexts⟩ := Except.exists_mapM_ok hfields
  exact ⟨_, Except.bind_eq_ok htexts rfl⟩

end

/-- The floats of a value are doubles. -/
inductive Doubles : Json → Prop
  | null : Doubles .null
  | bool (b : Bool) : Doubles (.bool b)
  | int (n : ℤ) : Doubles (.int n)
  | nan : Doubles (.float .nan)
  | posInf : Doubles (.float .posInf)
  | negInf : Doubles (.float .negInf)
  | fin {x : ℚ} : IsDouble x → Doubles (.float (.fin x))
  | str (s : Text) : Doubles (.str s)
  | list {items : List Json} : (∀ v ∈ items, Doubles v) → Doubles (.list items)
  | object {fields : List (Text × Json)} : (∀ f ∈ fields, Doubles f.2) → Doubles (.object fields)

/-! ## Values are read back -/

/-- Whitespace in front is skipped. -/
theorem skip_append {ws rest : Text} {c : Char} (hws : ∀ d ∈ ws, isWhitespace d = true)
    (hc : isWhitespace c = false) : skip (ws ++ c :: rest) = c :: rest := by
  rw [skip, List.dropWhile_append_of_pos hws, List.dropWhile_cons, hc]
  rfl

/-- Nothing is skipped where there is no whitespace. -/
theorem skip_cons {c : Char} (hc : isWhitespace c = false) (rest : Text) :
    skip (c :: rest) = c :: rest := by
  rw [skip, List.dropWhile_cons, hc]
  rfl

/-- A line break with its indent is whitespace. -/
theorem isWhitespace_newline (indent : Option ℕ) (level : ℕ) :
    ∀ c ∈ newline indent level, isWhitespace c = true := by
  cases indent with
  | none => nofun
  | some width =>
      intro c hc
      rcases List.mem_cons.mp hc with rfl | hc
      · decide
      · rw [(List.mem_replicate.mp hc).2]
        decide

theorem isWhitespace_blank : ∀ c ∈ [' '], isWhitespace c = true := by simp [isWhitespace]

/-- A separator is a comma and whitespace. -/
theorem separator_eq (indent : Option ℕ) (level : ℕ) :
    ∃ gap, separator indent level = ',' :: gap ∧ ∀ c ∈ gap, isWhitespace c = true := by
  cases indent with
  | none => exact ⟨[' '], rfl, isWhitespace_blank⟩
  | some width => exact ⟨_, rfl, isWhitespace_newline (some width) level⟩

/-- A text that an item is read from, whatever stands behind it. -/
structure Written {α : Type} (item : Text → Except Raised (α × Text)) (v : α) (text : Text) :
    Prop where
  head : ∃ c ∈ text.head?, isWhitespace c = false ∧ c ≠ ']' ∧ c ≠ '}'
  reads : ∀ rest, Ends rest → item (text ++ rest) = .ok (v, rest)

section Separated

variable {α : Type} {item : Text → Except Raised (α × Text)}

/-- A written text begins with no whitespace and no closing bracket. -/
theorem Written.cons {v : α} {text : Text} (h : Written item v text) :
    ∃ c t, text = c :: t ∧ isWhitespace c = false ∧ c ≠ ']' ∧ c ≠ '}' := by
  obtain ⟨c, hc, hhead⟩ := h.head
  cases text with
  | nil => cases hc
  | cons d t =>
      obtain rfl : d = c := by simpa using hc
      exact ⟨d, t, rfl, hhead⟩

/-- Whitespace in front of a written text is skipped, and nothing of the text. -/
theorem Written.skip_eq {v : α} {text : Text} (h : Written item v text) {ws : Text}
    (hws : ∀ c ∈ ws, isWhitespace c = true) (rest : Text) :
    skip (ws ++ (text ++ rest)) = text ++ rest := by
  obtain ⟨c, t, rfl, hc, -⟩ := h.cons
  exact skip_append hws hc

/-- An item and the character behind it. -/
theorem scanSeparated_succ {closing c : Char} {bound : ℕ} {s rest t : Text} {v : α}
    (hitem : item s = .ok (v, rest)) (hskip : skip rest = c :: t) :
    scanSeparated item closing (bound + 1) s =
      if c = closing then .ok ([v], t)
      else if c = ',' then
        (scanSeparated item closing bound (skip t)).map fun r => (v :: r.1, r.2)
      else .error .valueError := by
  rw [scanSeparated, hitem]
  simp only [bind, Except.bind, hskip]
  split_ifs
  · rfl
  · cases scanSeparated item closing bound (skip t) <;> rfl
  · rfl

/-- Joined texts begin with the first of them. -/
theorem intercalate_cons_eq (sep text : Text) (texts : List Text) :
    ∃ tail, sep.intercalate (text :: texts) = text ++ tail := by
  cases texts with
  | nil => exact ⟨[], by rw [List.intercalate_singleton, List.append_nil]⟩
  | cons text' texts => exact ⟨_, by rw [List.intercalate_cons_cons, List.append_assoc]⟩

/-- The items are read back one by one. -/
theorem scanSeparated_intercalate {closing : Char} (hclosing : closing = ']' ∨ closing = '}')
    {gap ws : Text} (hgap : ∀ c ∈ gap, isWhitespace c = true)
    (hws : ∀ c ∈ ws, isWhitespace c = true) {vs : List α} {texts : List Text}
    (h : List.Forall₂ (Written item) vs texts) (hne : texts ≠ []) {bound : ℕ}
    (hbound : texts.length ≤ bound) (rest : Text) :
    scanSeparated item closing bound
      ((',' :: gap).intercalate texts ++ (ws ++ closing :: rest)) = .ok (vs, rest) := by
  have hblank : isWhitespace closing = false ∧ follows closing = true := by
    rcases hclosing with rfl | rfl <;> decide
  induction h generalizing bound with
  | nil => exact absurd rfl hne
  | @cons v text vs texts hv hvs ih =>
      cases bound with
      | zero => simp at hbound
      | succ bound =>
          cases hvs with
          | nil =>
              -- the last item: blanks or the bracket end it
              have hends : Ends (ws ++ closing :: rest) := by
                cases ws with
                | nil => exact ends_cons hblank.2 rest
                | cons w ws =>
                    refine ends_cons ?_ _
                    have hw := hws w List.mem_cons_self
                    rw [follows, hw, Bool.or_true]
              rw [List.intercalate_singleton,
                scanSeparated_succ (hv.reads _ hends) (skip_append hws hblank.1), if_pos rfl]
          | @cons w text' vs texts hw hvs =>
              -- a comma follows, and the next item is behind its gap
              have hread := ih (by simp) (Nat.le_of_succ_le_succ hbound)
              obtain ⟨tail, htail⟩ := intercalate_cons_eq (',' :: gap) text' texts
              have hcomma : ',' ≠ closing := by
                rcases hclosing with rfl | rfl <;> decide
              rw [htail, List.append_assoc] at hread
              rw [List.intercalate_cons_cons, htail, List.append_assoc, List.append_assoc,
                List.append_assoc, List.cons_append,
                scanSeparated_succ (hv.reads _ (ends_cons (by decide) _))
                  (skip_cons (by decide) _),
                if_neg hcomma, if_pos rfl, hw.skip_eq hgap, hread]
              rfl

end Separated

/-- Joined texts have at least a comma for each text behind the first. -/
theorem length_le_intercalate (gap : Text) (texts : List Text) :
    texts.length ≤ ((',' :: gap).intercalate texts).length + 1 := by
  induction texts with
  | nil => exact Nat.zero_le _
  | cons text texts ih =>
      cases texts with
      | nil => exact Nat.le_add_left 1 _
      | cons text' texts =>
          rw [List.intercalate_cons_cons]
          simp only [List.length_append, List.length_cons] at ih ⊢
          omega

section Brackets

variable {value : Text → Except Raised (Json × Text)} {indent : Option ℕ} {level : ℕ}

/-- The items in their brackets are read back. -/
theorem scanSeparated_bracketed {α : Type} {item : Text → Except Raised (α × Text)}
    (indent : Option ℕ) (level : ℕ) (opening : Char) {closing : Char}
    (hclosing : closing = ']' ∨ closing = '}') {vs : List α} {texts : List Text}
    (h : List.Forall₂ (Written item) vs texts) (hne : texts ≠ []) (rest : Text) :
    ∃ c t, bracketed indent level opening closing texts ++ rest =
        opening :: (newline indent (level + 1) ++ c :: t) ∧
      isWhitespace c = false ∧ c ≠ ']' ∧ c ≠ '}' ∧
      scanSeparated item closing ((c :: t).length + 1) (c :: t) = .ok (vs, rest) := by
  obtain ⟨gap, hgap, hblank⟩ := separator_eq indent (level + 1)
  have hread (bound : ℕ) (hbound : texts.length ≤ bound) :
      scanSeparated item closing bound
        ((',' :: gap).intercalate texts ++ (newline indent level ++ closing :: rest)) =
          .ok (vs, rest) :=
    scanSeparated_intercalate hclosing hblank (isWhitespace_newline indent level) h hne hbound rest
  have hlen := length_le_intercalate gap texts
  cases h with
  | nil => exact absurd rfl hne
  | @cons v text vs texts hv hvs =>
      obtain ⟨tail, htail⟩ := intercalate_cons_eq (',' :: gap) text texts
      obtain ⟨c, t, rfl, hc, hlist, hobject⟩ := hv.cons
      rw [htail] at hread hlen
      refine ⟨c, t ++ (tail ++ (newline indent level ++ closing :: rest)), ?_, hc, hlist, hobject,
        ?_⟩
      · rw [bracketed, if_neg hne, hgap, htail]
        simp only [List.cons_append, List.append_assoc, List.nil_append]
      · have hread' := hread (((c :: t) ++ tail ++ (newline indent level ++ closing :: rest)).length
          + 1) (by rw [List.length_append]; omega)
        simpa only [List.cons_append, List.append_assoc] using hread'

/-- A bracketed text begins with its opening bracket. -/
theorem head_bracketed (opening closing : Char) (texts : List Text) :
    (bracketed indent level opening closing texts).head? = some opening := by
  unfold bracketed
  split <;> rfl

/-- A list is read back. -/
theorem scanList_bracketed {items : List Json} {texts : List Text}
    (h : List.Forall₂ (Written value) items texts) (rest : Text) :
    ∃ s, bracketed indent level '[' ']' texts ++ rest = '[' :: s ∧
      scanList value s = .ok (.list items, rest) := by
  by_cases hne : texts = []
  · subst hne
    cases h
    exact ⟨']' :: rest, rfl, rfl⟩
  · obtain ⟨c, t, htext, hc, hlist, -, hread⟩ :=
      scanSeparated_bracketed indent level '[' (.inl rfl) h hne rest
    refine ⟨_, htext, ?_⟩
    rw [scanList, skip_append (isWhitespace_newline indent (level + 1)) hc]
    split
    · next heq => exact absurd (List.cons.inj heq).1 hlist
    · rw [hread]
      rfl

/-- An object is read back. -/
theorem scanObject_bracketed {fields : List (Text × Json)} {texts : List Text}
    (h : List.Forall₂ (Written (scanField value)) fields texts) (rest : Text) :
    ∃ s, bracketed indent level '{' '}' texts ++ rest = '{' :: s ∧
      scanObject value s = .ok (.object fields, rest) := by
  by_cases hne : texts = []
  · subst hne
    cases h
    exact ⟨'}' :: rest, rfl, rfl⟩
  · obtain ⟨c, t, htext, hc, -, hobject, hread⟩ :=
      scanSeparated_bracketed indent level '{' (.inr rfl) h hne rest
    refine ⟨_, htext, ?_⟩
    rw [scanObject, skip_append (isWhitespace_newline indent (level + 1)) hc]
    split
    · next heq => exact absurd (List.cons.inj heq).1 hobject
    · rw [hread]
      rfl

/-- A field is read back. -/
theorem Written.field {v : Json} {text : Text} (h : Written value v text) (key : Text) :
    Written (scanField value) (key, v) (encodeField key text) where
  head := ⟨'"', rfl, by decide, by decide, by decide⟩
  reads rest hrest := by
    have hskip : skip (' ' :: (text ++ rest)) = text ++ rest :=
      h.skip_eq isWhitespace_blank rest
    simp only [encodeField, encodeString, List.cons_append, List.append_assoc, List.nil_append]
    rw [scanField]
    refine Except.bind_eq_ok (scanString_encodeString key _) ?_
    show (value (skip (' ' :: (text ++ rest))) >>= _) = _
    rw [hskip]
    exact Except.bind_eq_ok (h.reads rest hrest) rfl

end Brackets

/-! ## Atoms -/

/-- What begins with no bracket is scanned as an atom. -/
theorem scan_atom {s : Text} (hlist : s.head? ≠ some '[') (hobject : s.head? ≠ some '{')
    (levels : ℕ) : scan levels s = scanAtom s := by
  cases levels <;> unfold scan <;> split <;> simp_all

/-- What begins with a digit is scanned as a number. -/
theorem scanAtom_digit {c : Char} (h : isAsciiDigit c = true) (s : Text) :
    scanAtom (c :: s) = scanNumber false (c :: s) ∧
      scanAtom ('-' :: c :: s) = scanNumber true (c :: s) := by
  obtain ⟨d, hd, rfl⟩ := eq_digitChar h
  interval_cases d <;> exact ⟨rfl, rfl⟩

/-- A number begins with a digit. -/
theorem head_of_scanNumber {negative : Bool} {s : Text} {r : Json × Text}
    (h : scanNumber negative s = .ok r) : ∃ c t, s = c :: t ∧ isAsciiDigit c = true := by
  have hne : (scanInteger s).1 ≠ [] := by
    intro hnil
    simp only [scanNumber, hnil, if_true] at h
    cases h
  match s with
  | [] => exact absurd rfl hne
  | c :: t =>
      refine ⟨c, t, rfl, ?_⟩
      by_cases hc : isAsciiDigit c = true
      · exact hc
      · have hzero : c ≠ '0' := by
          rintro rfl
          exact hc (by decide)
        rw [scanInteger.eq_2 _ fun _ h => hzero (List.cons.inj h).1, List.takeWhile_cons,
          if_neg hc] at hne
        exact absurd rfl hne

/-- A character that no bracket and no whitespace is. -/
def startsAtom (c : Char) : Bool :=
  !isWhitespace c && c != ']' && c != '}' && c != '[' && c != '{'

/-- A digit begins an atom. -/
theorem startsAtom_of_digit {c : Char} (h : isAsciiDigit c = true) : startsAtom c = true := by
  obtain ⟨d, hd, rfl⟩ := eq_digitChar h
  interval_cases d <;> decide

/-- A value that opens no bracket. -/
theorem written_atom {v : Json} {c : Char} {t : Text} (hc : startsAtom c = true)
    (h : ∀ rest, Ends rest → scanAtom (c :: (t ++ rest)) = .ok (v, rest)) (levels : ℕ) :
    Written (scan levels) v (c :: t) := by
  simp only [startsAtom, Bool.and_eq_true, Bool.not_eq_true', bne_iff_ne] at hc
  obtain ⟨⟨⟨⟨hblank, hlist⟩, hobject⟩, hopen⟩, hopen'⟩ := hc
  refine ⟨⟨c, rfl, hblank, hlist, hobject⟩, fun rest hrest => ?_⟩
  rw [List.cons_append, scan_atom (by simpa using hopen) (by simpa using hopen')]
  exact h rest hrest

/-- A number without a sign. -/
theorem written_unsigned {v : Json} {text : Text}
    (h : ∀ rest, Ends rest → scanNumber false (text ++ rest) = .ok (v, rest)) (levels : ℕ) :
    Written (scan levels) v text := by
  have hnil := h [] ends_nil
  rw [List.append_nil] at hnil
  obtain ⟨c, t, rfl, hc⟩ := head_of_scanNumber hnil
  exact written_atom (startsAtom_of_digit hc)
    (fun rest hrest => (scanAtom_digit hc _).1.trans (h rest hrest)) levels

/-- A number behind its minus. -/
theorem written_signed {v : Json} {text : Text}
    (h : ∀ rest, Ends rest → scanNumber true (text ++ rest) = .ok (v, rest)) (levels : ℕ) :
    Written (scan levels) v ('-' :: text) := by
  have hnil := h [] ends_nil
  rw [List.append_nil] at hnil
  obtain ⟨c, t, rfl, hc⟩ := head_of_scanNumber hnil
  exact written_atom (by decide)
    (fun rest hrest => (scanAtom_digit hc _).2.trans (h rest hrest)) levels

/-- **`dumps` of an integer** is read back. -/
theorem written_int {n : ℤ} {text : Text} (h : encodeInt n = .ok text) (levels : ℕ) :
    Written (scan levels) (.int n) text := by
  unfold encodeInt at h
  split at h
  · cases h
  · next hlen =>
      obtain rfl := Except.ok.inj h
      have hread {rest : Text} (hrest : Ends rest) (negative : Bool) :=
        scanNumber_encodeNat (Nat.not_lt.mp hlen) hrest negative
      split_ifs with hn
      · refine written_signed (fun rest hrest => ?_) levels
        rw [hread hrest, if_pos rfl, show -(n.natAbs : ℤ) = n by omega]
      · refine written_unsigned (fun rest hrest => ?_) levels
        rw [hread hrest, if_neg (by decide), show (n.natAbs : ℤ) = n by omega]

/-- A double by its code: infinite from the code of infinity on, rounded below. -/
theorem toDouble_eq (negative : Bool) (v : ℚ) :
    toDouble negative v =
      if 2047 * 2 ^ 52 ≤ (⟨52, 1023⟩ : BinaryFloat).encode v then
        if negative then .negInf else .posInf
      else .fin (if negative then -(⟨52, 1023⟩ : BinaryFloat).round v
        else (⟨52, 1023⟩ : BinaryFloat).round v) := rfl

/-- The double of a number with a minus sign. -/
theorem toDouble_true {v x : ℚ} (h : toDouble false v = .fin x) : toDouble true v = .fin (-x) := by
  rw [toDouble_eq] at h ⊢
  by_cases hbig : 2047 * 2 ^ 52 ≤ (⟨52, 1023⟩ : BinaryFloat).encode v
  · rw [if_pos hbig, if_neg (by decide)] at h
    cases h
  · rw [if_neg hbig, if_neg (by decide)] at h
    rw [if_neg hbig, if_pos rfl, PyFloat.fin.inj h]

/-- Zero is a double. -/
theorem toDouble_zero : toDouble false 0 = .fin 0 := by
  have hexponent : (⟨52, 1023⟩ : BinaryFloat).exponent (0 : ℚ) = -1022 := by
    simp [BinaryFloat.exponent]
  have hencode : (⟨52, 1023⟩ : BinaryFloat).encode (0 : ℚ) = 0 := by
    have hround : roundEven (0 : ℚ) = 0 := by exact_mod_cast roundEven_intCast (K := ℚ) 0
    simp [BinaryFloat.encode, BinaryFloat.significand, hexponent, hround]
  rw [toDouble_eq, hencode, if_neg (by norm_num), if_neg (by decide), BinaryFloat.round_zero]

/-- **What a number is read as** is a double. -/
theorem isDouble_toDouble {negative : Bool} {v x : ℚ} (hv : 0 ≤ v)
    (h : toDouble negative v = .fin x) : IsDouble x := by
  have hnonneg := (⟨52, 1023⟩ : BinaryFloat).round_nonneg hv
  rw [toDouble_eq] at h
  split at h
  · split at h <;> cases h
  · next hsmall =>
      have habs : |x| = (⟨52, 1023⟩ : BinaryFloat).round v := by
        obtain rfl := PyFloat.fin.inj h
        split
        · rw [abs_neg, abs_of_nonneg hnonneg]
        · exact abs_of_nonneg hnonneg
      rw [IsDouble, habs, toDouble_eq, (⟨52, 1023⟩ : BinaryFloat).encode_round hv, if_neg hsmall,
        if_neg (by decide), (⟨52, 1023⟩ : BinaryFloat).round_round hv]

/-- A double, laid out. -/
theorem scanNumber_double (dtoa : Dtoa) {x : ℚ} (hpos : 0 < x) (hx : IsDouble x)
    {negative : Bool} {y : ℚ} (hy : y = if negative then -x else x) {rest : Text}
    (hrest : Ends rest) :
    scanNumber negative (layout (dtoa.digits x) (dtoa.place x) ++ rest) =
      .ok (.float (.fin y), rest) := by
  have hreads := dtoa.reads x hpos hx
  rw [scanNumber_layout (dtoa.isDigit x hpos hx) (dtoa.head x hpos hx) hrest]
  cases negative with
  | false => rw [hreads, hy, if_neg (by decide)]
  | true => rw [toDouble_true hreads, hy, if_pos rfl]

/-- `0.0` is scanned as the float zero. -/
theorem scanNumber_zero {rest : Text} (hrest : Ends rest) :
    scanNumber false ("0.0".toList ++ rest) = .ok (.float (.fin 0), rest) := by
  have htext : "0.0".toList = numberText ['0'] ['0'] none := by decide
  have hnumber : number (['0'] ++ ['0']) = 0 := number_replicate_zero 2
  rw [htext, scanNumber_numberText integerDigits_zero isAsciiDigit_zero (by simp) hrest,
    if_neg (by simp), hnumber, Nat.cast_zero, zero_mul, toDouble_zero]

/-- `repr` of a finite double: its sign, and the digits of its absolute value. -/
theorem encodeFloat_fin (dtoa : Dtoa) (x : ℚ) :
    encodeFloat dtoa (.fin x) =
      if x = 0 then "0.0".toList
      else if x < 0 then '-' :: layout (dtoa.digits (-x)) (dtoa.place (-x))
      else layout (dtoa.digits x) (dtoa.place x) := rfl

/-- **`dumps` of a float** is read back. -/
theorem written_float (dtoa : Dtoa) {x : PyFloat ℚ} (h : ∀ y, x = .fin y → IsDouble y)
    (levels : ℕ) : Written (scan levels) (.float x) (encodeFloat dtoa x) := by
  cases x with
  | nan => exact written_atom (by decide) (fun _ _ => rfl) levels
  | posInf => exact written_atom (by decide) (fun _ _ => rfl) levels
  | negInf => exact written_atom (by decide) (fun _ _ => rfl) levels
  | fin y =>
      have hy := h y rfl
      rw [encodeFloat_fin]
      split_ifs with hzero hneg
      · rw [hzero]
        exact written_unsigned (fun _ => scanNumber_zero) levels
      · refine written_signed (fun rest hrest => ?_) levels
        exact scanNumber_double dtoa (neg_pos.mpr hneg) (by rwa [IsDouble, abs_neg])
          (by rw [if_pos rfl, neg_neg]) hrest
      · refine written_unsigned (fun rest hrest => ?_) levels
        exact scanNumber_double dtoa (lt_of_le_of_ne (not_lt.mp hneg) (Ne.symm hzero)) hy
          (by rw [if_neg (by decide)]) hrest

/-- **`dumps` of a string** is read back. -/
theorem written_str (s : Text) (levels : ℕ) : Written (scan levels) (.str s) (encodeString s) := by
  refine written_atom (by decide) (fun rest _ => ?_) levels
  rw [List.append_assoc]
  exact Except.bind_eq_ok (scanString_encodeString s rest) rfl

/-! ## The round trip -/

/-- What holds of each value and its text holds of the lists. -/
theorem forall₂_of_mapM_ok {α : Type} {f : α → Except Raised Text} {R : α → Text → Prop}
    {as : List α} {texts : List Text} (h : as.mapM f = .ok texts)
    (hR : ∀ a ∈ as, ∀ text, f a = .ok text → R a text) : List.Forall₂ R as texts := by
  induction as generalizing texts with
  | nil =>
      cases h
      exact .nil
  | cons a as ih =>
      obtain ⟨text, more, htext, hmore, rfl⟩ := Except.mapM_cons_eq_ok h
      obtain ⟨ha, has⟩ := List.forall_mem_cons.mp hR
      exact .cons (ha text htext) (ih hmore has)

/-- A value that is no list and no object. -/
theorem written_of_atom {dtoa : Dtoa} {indent : Option ℕ} {left level : ℕ} {v : Json} {text : Text}
    (h : encode dtoa indent left level v = .ok text) (hv : Doubles v)
    (hlist : ∀ items, v ≠ .list items) (hobject : ∀ fields, v ≠ .object fields) (levels : ℕ) :
    Written (scan levels) v text := by
  cases hv with
  | null =>
      rw [encode] at h
      exact Except.ok.inj h ▸ written_atom (by decide) (fun _ _ => rfl) levels
  | bool b =>
      cases b <;> rw [encode] at h
      · exact Except.ok.inj h ▸ written_atom (by decide) (fun _ _ => rfl) levels
      · exact Except.ok.inj h ▸ written_atom (by decide) (fun _ _ => rfl) levels
  | int n =>
      rw [encode] at h
      exact written_int h levels
  | nan | posInf | negInf =>
      rw [encode] at h
      exact Except.ok.inj h ▸ written_float dtoa (by simp) levels
  | fin hx =>
      rw [encode] at h
      refine Except.ok.inj h ▸ written_float dtoa (fun y hy => ?_) levels
      exact PyFloat.fin.inj hy ▸ hx
  | str s =>
      rw [encode] at h
      exact Except.ok.inj h ▸ written_str s levels
  | list _ => exact absurd rfl (hlist _)
  | object _ => exact absurd rfl (hobject _)

/-- **A value is read back**, by a scanner with no fewer levels. -/
theorem scan_encode {dtoa : Dtoa} {indent : Option ℕ} {left level : ℕ} {v : Json} {text : Text}
    (h : encode dtoa indent left level v = .ok text) (hv : Doubles v) {left' : ℕ}
    (hleft : left ≤ left') : Written (scan left') v text := by
  induction left generalizing level v text left' with
  | zero =>
      cases v with
      | list items => cases h
      | object fields => cases h
      | null | bool | int | float | str => exact written_of_atom h hv nofun nofun left'
  | succ left ih =>
      obtain ⟨left', rfl⟩ := Nat.exists_eq_add_of_le' (Nat.le_trans (Nat.le_add_left 1 left) hleft)
      have hle := Nat.le_of_succ_le_succ hleft
      cases hv with
      -- the scanner has a level for each bracket that the writer opened
      | list hitems =>
          obtain ⟨texts, htexts, h⟩ := Except.of_bind_ok h
          obtain rfl := Except.ok.inj h
          have hwritten := forall₂_of_mapM_ok htexts fun v hv text ht => ih ht (hitems v hv) hle
          refine ⟨⟨'[', head_bracketed _ _ _, by decide, by decide, by decide⟩, fun rest _ => ?_⟩
          obtain ⟨s, hs, hread⟩ := scanList_bracketed hwritten rest
          exact hs ▸ hread
      | object hfields =>
          obtain ⟨texts, htexts, h⟩ := Except.of_bind_ok h
          obtain rfl := Except.ok.inj h
          have hwritten := forall₂_of_mapM_ok htexts fun f hf text ht => by
            obtain ⟨value, hvalue, ht⟩ := Except.of_bind_ok ht
            exact Except.ok.inj ht ▸ (ih hvalue (hfields f hf) hle).field f.1
          refine ⟨⟨'{', head_bracketed _ _ _, by decide, by decide, by decide⟩, fun rest _ => ?_⟩
          obtain ⟨s, hs, hread⟩ := scanObject_bracketed hwritten rest
          exact hs ▸ hread
      | null | bool | int | nan | posInf | negInf | fin | str =>
          exact written_of_atom h (by constructor <;> assumption) nofun nofun (left' + 1)

/-- No value begins with a byte order mark. -/
theorem scan_bom (levels : ℕ) (t : Text) :
    scan levels ('\uFEFF' :: t) = .error .valueError := by
  rw [scan_atom (by simp) (by simp)]
  rfl

/-- A number ends in front of whitespace. -/
theorem ends_of_isWhitespace {ws : Text} (h : ∀ c ∈ ws, isWhitespace c = true) : Ends ws := by
  intro c hc
  rw [follows, h c (List.mem_of_mem_head? hc), Bool.or_true]

/-- **`json.loads` reads what `json.dumps` writes**, with whitespace behind it. -/
theorem loads_of_dumps {dtoa : Dtoa} {indent : Option ℕ} {levels levels' : ℕ} {v : Json}
    {text : Text} (h : dumps dtoa indent levels v = .ok text) (hv : Doubles v)
    (hlevels : levels ≤ levels') {ws : Text} (hws : ∀ c ∈ ws, isWhitespace c = true) :
    loads levels' (text ++ ws) = .ok v := by
  have hwritten := scan_encode h hv hlevels
  have hscan := hwritten.reads ws (ends_of_isWhitespace hws)
  obtain ⟨c, t, rfl, hc, -⟩ := hwritten.cons
  have hbom : c ≠ '\uFEFF' := by
    rintro rfl
    rw [List.cons_append, scan_bom] at hscan
    cases hscan
  have hskip : skip (c :: (t ++ ws)) = c :: (t ++ ws) := skip_cons hc _
  have hrest : skip ws = [] := List.dropWhile_eq_nil_iff.mpr hws
  rw [loads, if_neg (by simpa using hbom), List.cons_append, hskip]
  refine Except.bind_eq_ok hscan ?_
  show (if skip ws = [] then _ else _) = _
  rw [if_pos hrest]
  rfl

/-! ## The characters of a text -/

/-- A line feed, or a printable ASCII character. -/
def IsPlain (c : Char) : Prop := c = '\n' ∨ (32 ≤ c.toNat ∧ c.toNat < 127)

instance (c : Char) : Decidable (IsPlain c) := inferInstanceAs (Decidable (_ ∨ _))

/-- A fixed text is checked character by character. -/
theorem isPlain_of_all {t : Text} (h : t.all (fun c => decide (IsPlain c)) = true) :
    ∀ c ∈ t, IsPlain c := fun c hc => of_decide_eq_true (List.all_eq_true.mp h c hc)

/-- Digits are plain. -/
theorem isPlain_digit {c : Char} (h : isAsciiDigit c = true) : IsPlain c := by
  have := isAsciiDigit_iff.mp h
  exact .inr (by omega)

/-- An encoded character is plain: what is not printable ASCII is escaped. -/
theorem isPlain_encodeChar (c : Char) : ∀ d ∈ encodeChar c, IsPlain d := by
  have hdigit : ∀ n, n < 16 → IsPlain (Nat.digitChar n) := by decide
  unfold encodeChar
  split
  · next letter h =>
      have hletter : IsPlain letter := by
        unfold escapeLetter at h
        split_ifs at h <;> cases h <;> decide
      intro d hd
      rcases List.mem_cons.mp hd with rfl | hd
      · decide
      · rw [List.mem_singleton.mp hd]
        exact hletter
  · split
    · next h =>
        intro d hd
        rw [List.mem_singleton.mp hd]
        exact .inr h
    · intro d hd
      obtain ⟨n, -, hd⟩ := List.mem_flatMap.mp hd
      simp only [escapeUnit, hexDigits, List.map_cons, List.map_nil, List.mem_cons,
        List.not_mem_nil, or_false] at hd
      rcases hd with rfl | rfl | rfl | rfl | rfl | rfl
      · decide
      · decide
      all_goals exact hdigit _ (Nat.mod_lt _ (by decide))

/-- So is an encoded string. -/
theorem isPlain_encodeString (s : Text) : ∀ c ∈ encodeString s, IsPlain c := by
  intro c hc
  simp only [encodeString, List.mem_cons, List.mem_append, List.not_mem_nil, or_false,
    List.mem_flatMap] at hc
  rcases hc with rfl | ⟨d, -, hc⟩ | rfl
  · decide
  · exact isPlain_encodeChar d c hc
  · decide

/-- So is the text of a number. -/
theorem isPlain_numberText {integer fraction : Text} {exponent : Option (Bool × Text)}
    (hinteger : ∀ c ∈ integer, isAsciiDigit c = true)
    (hfraction : ∀ c ∈ fraction, isAsciiDigit c = true)
    (hexponent : ∀ p ∈ exponent, ∀ c ∈ p.2, isAsciiDigit c = true) :
    ∀ c ∈ numberText integer fraction exponent, IsPlain c := by
  have hfrac : ∀ c ∈ fractionText fraction, IsPlain c := by
    unfold fractionText
    split
    · nofun
    · exact List.forall_mem_cons.mpr ⟨by decide, fun c hc => isPlain_digit (hfraction c hc)⟩
  have hexp : ∀ c ∈ exponentText exponent, IsPlain c := by
    cases exponent with
    | none => nofun
    | some p =>
        refine List.forall_mem_cons.mpr ⟨by decide, List.forall_mem_cons.mpr ⟨?_, fun c hc =>
          isPlain_digit (hexponent p rfl c hc)⟩⟩
        split <;> decide
  intro c hc
  rcases List.mem_append.mp hc with hc | hc
  · exact isPlain_digit (hinteger c hc)
  · exact (List.mem_append.mp hc).elim (hfrac c) (hexp c)

/-- So are the digits of a float, laid out around its point. -/
theorem isPlain_layout {digits : Text} {place : ℤ} (h : ∀ c ∈ digits, isAsciiDigit c = true) :
    ∀ c ∈ layout digits place, IsPlain c := by
  have hzeros (k : ℕ) : ∀ c ∈ List.replicate k '0', isAsciiDigit c = true := by
    intro c hc
    rw [(List.mem_replicate.mp hc).2]
    decide
  have htake (k : ℕ) : ∀ c ∈ digits.take k, isAsciiDigit c = true := fun c hc =>
    h c (List.mem_of_mem_take hc)
  have hdrop (k : ℕ) : ∀ c ∈ digits.drop k, isAsciiDigit c = true := fun c hc =>
    h c (List.mem_of_mem_drop hc)
  have happend {a b : Text} (ha : ∀ c ∈ a, isAsciiDigit c = true)
      (hb : ∀ c ∈ b, isAsciiDigit c = true) : ∀ c ∈ a ++ b, isAsciiDigit c = true :=
    fun c hc => (List.mem_append.mp hc).elim (ha c) (hb c)
  unfold layout
  split_ifs
  · exact isPlain_numberText (htake 1) (hdrop 1) (by
      rintro p ⟨⟩
      exact (exponentDigits_spec _).2.2)
  · exact isPlain_numberText isAsciiDigit_zero (happend (hzeros _) h) (by simp)
  · exact isPlain_numberText (happend h (hzeros _)) isAsciiDigit_zero (by simp)
  · exact isPlain_numberText (htake _) (hdrop _) (by simp)

/-- So is an encoded float. -/
theorem isPlain_encodeFloat (dtoa : Dtoa) {x : PyFloat ℚ} (h : ∀ y, x = .fin y → IsDouble y) :
    ∀ c ∈ encodeFloat dtoa x, IsPlain c := by
  cases x with
  | nan => exact isPlain_of_all rfl
  | posInf => exact isPlain_of_all rfl
  | negInf => exact isPlain_of_all rfl
  | fin y =>
      have hy := h y rfl
      rw [encodeFloat_fin]
      split_ifs with hzero hneg
      · exact isPlain_of_all rfl
      · exact List.forall_mem_cons.mpr ⟨by decide, isPlain_layout (dtoa.isDigit (-y)
          (neg_pos.mpr hneg) (by rwa [IsDouble, abs_neg]))⟩
      · exact isPlain_layout (dtoa.isDigit y (lt_of_le_of_ne (not_lt.mp hneg) (Ne.symm hzero)) hy)

/-- So is an indented line break. -/
theorem isPlain_newline (indent : Option ℕ) (level : ℕ) :
    ∀ c ∈ newline indent level, IsPlain c := by
  cases indent with
  | none => nofun
  | some width =>
      refine List.forall_mem_cons.mpr ⟨by decide, fun c hc => ?_⟩
      rw [(List.mem_replicate.mp hc).2]
      decide

/-- A character of the whole is one of a text or of a separator. -/
theorem mem_intercalate {sep : Text} {texts : List Text} {c : Char}
    (h : c ∈ sep.intercalate texts) : c ∈ sep ∨ ∃ text ∈ texts, c ∈ text := by
  induction texts with
  | nil => cases h
  | cons text texts ih =>
      cases texts with
      | nil =>
          rw [List.intercalate_singleton] at h
          exact .inr ⟨text, List.mem_cons_self, h⟩
      | cons text' texts =>
          rw [List.intercalate_cons_cons] at h
          rcases List.mem_append.mp h with h | h
          · exact (List.mem_append.mp h).elim (fun h => .inr ⟨text, List.mem_cons_self, h⟩) .inl
          · exact (ih h).imp id fun ⟨t, ht, hc⟩ => ⟨t, List.mem_cons_of_mem text ht, hc⟩

/-- A bracketed text is plain if its parts are. -/
theorem isPlain_bracketed {indent : Option ℕ} {level : ℕ} {opening closing : Char}
    (hopening : IsPlain opening) (hclosing : IsPlain closing) {texts : List Text}
    (h : ∀ text ∈ texts, ∀ c ∈ text, IsPlain c) :
    ∀ c ∈ bracketed indent level opening closing texts, IsPlain c := by
  have hsep : ∀ c ∈ separator indent (level + 1), IsPlain c := by
    cases indent with
    | none => exact isPlain_of_all rfl
    | some width =>
        exact List.forall_mem_cons.mpr ⟨by decide, isPlain_newline (some width) (level + 1)⟩
  intro c hc
  unfold bracketed at hc
  split at hc
  · rcases List.mem_cons.mp hc with rfl | hc
    · exact hopening
    · rw [List.mem_singleton.mp hc]
      exact hclosing
  · rcases List.mem_cons.mp hc with rfl | hc
    · exact hopening
    rcases List.mem_append.mp hc with hc | hc
    · exact isPlain_newline indent (level + 1) c hc
    rcases List.mem_append.mp hc with hc | hc
    · rcases mem_intercalate hc with hc | ⟨text, ht, hc⟩
      · exact hsep c hc
      · exact h text ht c hc
    rcases List.mem_append.mp hc with hc | hc
    · exact isPlain_newline indent level c hc
    · rw [List.mem_singleton.mp hc]
      exact hclosing

/-- A field is plain if its value is. -/
theorem isPlain_encodeField {key value : Text} (h : ∀ c ∈ value, IsPlain c) :
    ∀ c ∈ encodeField key value, IsPlain c := by
  intro c hc
  rcases List.mem_append.mp hc with hc | hc
  · exact isPlain_encodeString key c hc
  · rcases List.mem_cons.mp hc with rfl | hc
    · decide
    · rcases List.mem_cons.mp hc with rfl | hc
      · decide
      · exact h c hc

/-- An encoded integer is plain. -/
theorem isPlain_encodeInt {n : ℤ} {text : Text} (h : encodeInt n = .ok text) :
    ∀ c ∈ text, IsPlain c := by
  have hdigits : ∀ c ∈ encodeNat n.natAbs, IsPlain c := fun _ hc =>
    isPlain_digit (isAsciiDigit_encodeNat hc)
  unfold encodeInt at h
  split at h
  · cases h
  · obtain rfl := Except.ok.inj h
    split_ifs
    · exact List.forall_mem_cons.mpr ⟨by decide, hdigits⟩
    · exact hdigits

/-- **A text has only line feeds and printable ASCII characters.** -/
theorem isPlain_encode {dtoa : Dtoa} {indent : Option ℕ} {left level : ℕ} {v : Json} {text : Text}
    (h : encode dtoa indent left level v = .ok text) (hv : Doubles v) : ∀ c ∈ text, IsPlain c := by
  induction hv generalizing left level text with
  | null =>
      rw [encode] at h
      exact Except.ok.inj h ▸ isPlain_of_all rfl
  | bool b =>
      cases b <;> rw [encode] at h <;> exact Except.ok.inj h ▸ isPlain_of_all rfl
  | int n =>
      rw [encode] at h
      exact isPlain_encodeInt h
  | nan | posInf | negInf =>
      rw [encode] at h
      exact Except.ok.inj h ▸ isPlain_encodeFloat dtoa (by simp)
  | fin hx =>
      rw [encode] at h
      exact Except.ok.inj h ▸ isPlain_encodeFloat dtoa fun y hy => PyFloat.fin.inj hy ▸ hx
  | str s =>
      rw [encode] at h
      exact Except.ok.inj h ▸ isPlain_encodeString s
  | list _ ih =>
      cases left with
      | zero => cases h
      | succ left =>
          obtain ⟨texts, htexts, h⟩ := Except.of_bind_ok h
          refine Except.ok.inj h ▸ isPlain_bracketed (by decide) (by decide) fun text ht => ?_
          obtain ⟨v, hv, hvt⟩ := Except.mem_of_mapM_ok htexts ht
          exact ih v hv hvt
  | object _ ih =>
      cases left with
      | zero => cases h
      | succ left =>
          obtain ⟨texts, htexts, h⟩ := Except.of_bind_ok h
          refine Except.ok.inj h ▸ isPlain_bracketed (by decide) (by decide) fun text ht => ?_
          obtain ⟨f, hf, hft⟩ := Except.mem_of_mapM_ok htexts ht
          obtain ⟨value, hvalue, hft⟩ := Except.of_bind_ok hft
          exact Except.ok.inj hft ▸ isPlain_encodeField (ih f hf hvalue)

/-! ## Exact digits -/

/-- A double is a whole number of some negative power of two. -/
theorem den_of_isDouble {x : ℚ} (hpos : 0 < x) (hx : IsDouble x) : x.den = 2 ^ Nat.log 2 x.den := by
  have hdvd : ∃ n, x.den ∣ 2 ^ n := by
    rw [IsDouble, toDouble_eq, abs_of_pos hpos] at hx
    split at hx
    · cases hx
    · rw [if_neg (by decide)] at hx
      have hround : (⟨52, 1023⟩ : BinaryFloat).round x = x := PyFloat.fin.inj hx
      rw [BinaryFloat.round] at hround
      generalize (⟨52, 1023⟩ : BinaryFloat).significand x = m at hround
      generalize (⟨52, 1023⟩ : BinaryFloat).exponent x - ((52 : ℕ) : ℤ) = k at hround
      refine ⟨(-k).toNat, ?_⟩
      have hx : x = ((m * 2 ^ k.toNat : ℕ) : ℤ) / ((2 ^ (-k).toNat : ℕ) : ℤ) := by
        rw [← hround]
        push_cast
        rw [eq_div_iff (by positivity), mul_assoc, ← zpow_natCast, ← zpow_natCast,
          ← zpow_add₀ (by norm_num)]
        congr 2
        omega
      have := Rat.den_dvd ((m * 2 ^ k.toNat : ℕ) : ℤ) ((2 ^ (-k).toNat : ℕ) : ℤ)
      rw [Rat.divInt_eq_div, ← hx] at this
      exact_mod_cast this
  obtain ⟨n, hdvd⟩ := hdvd
  obtain ⟨p, -, hp⟩ := (Nat.dvd_prime_pow Nat.prime_two).mp hdvd
  rw [hp, Nat.log_pow (by decide)]

/-- All digits of a double. -/
def Dtoa.exact : Dtoa where
  digits x := encodeNat (x.num.natAbs * 5 ^ Nat.log 2 x.den)
  place x := (encodeNat (x.num.natAbs * 5 ^ Nat.log 2 x.den)).length - Nat.log 2 x.den
  isDigit _ _ _ _ := isAsciiDigit_encodeNat
  head x hpos _ := by
    have hnum : 0 < x.num.natAbs := Int.natAbs_pos.mpr (Rat.num_pos.mpr hpos).ne'
    have hhead := JsonGrammar.head_toDigits (Nat.mul_pos hnum (Nat.pow_pos (by decide : 0 < 5)
      (n := Nat.log 2 x.den)))
    cases hdigits : encodeNat (x.num.natAbs * 5 ^ Nat.log 2 x.den) with
    | nil => exact absurd hdigits Nat.toDigits_ne_nil
    | cons d ds =>
        refine ⟨d, rfl, ?_⟩
        rintro rfl
        rw [← encodeNat, hdigits] at hhead
        exact hhead rfl
  reads x hpos hx := by
    have hden := den_of_isDouble hpos hx
    generalize Nat.log 2 x.den = p at hden
    have hvalue : ((x.num.natAbs * 5 ^ p : ℕ) : ℚ) * (10 : ℚ) ^ (-(p : ℤ)) = x := by
      have hnum : ((x.num.natAbs : ℕ) : ℚ) = x.num := by
        rw [Nat.cast_natAbs, abs_of_pos (Rat.num_pos.mpr hpos)]
      have hdiv : x = x.num / 2 ^ p := by
        have := Rat.num_div_den x
        rw [hden] at this
        exact_mod_cast this.symm
      rw [zpow_neg, zpow_natCast, Nat.cast_mul, hnum, Nat.cast_pow, Nat.cast_ofNat,
        show (10 : ℚ) = 5 * 2 by norm_num, mul_pow]
      conv_rhs => rw [hdiv]
      field_simp
    have hshift (n : ℕ) : ((n : ℤ) - (p : ℤ)) - (n : ℤ) = -(p : ℤ) := by omega
    rw [number_encodeNat, hshift, hvalue]
    rwa [IsDouble, abs_of_pos hpos] at hx

end Json
