/-
# `json.loads` and the conversions of JSON values

Python's JSON scanner on lists of characters: the literals `NaN`, `Infinity` and
`-Infinity`, numbers, strings, lists and objects, and what `int`, `float`, `bool`, `len`, a
subscript, an iteration and `b64decode(.., validate=True)` make of a value.

Every list and every object that is opened takes one level of the interpreter's
recursion limit, so the scanner is a recursion on the levels that are left, and the
only errors are `ValueError` and, on a text that opens more brackets than there are
levels, `RecursionError` (`loads_error`).

An escaped surrogate without its partner is read as the replacement character.
-/
import Rvln.BinaryFloat
import Rvln.NavidaText
import Rvln.PyFloat

/-- The classes of the exceptions of this part. -/
inductive Raised
  | py (e : PyError)
  | keyError
  | typeError
  | overflowError
  | recursionError
  deriving DecidableEq

namespace Raised

/-- `ValueError`, and its subclasses of `json` and `binascii`. -/
abbrev valueError : Raised := py .valueError

end Raised

/-- A JSON value as Python reads it; an object keeps its fields in the order of the
text. -/
inductive Json
  | null
  | bool (b : Bool)
  | int (n : ℤ)
  | float (x : PyFloat ℚ)
  | str (s : Text)
  | list (items : List Json)
  | object (fields : List (Text × Json))

namespace Json

open NavidaText

/-- `dict.get(key)` of an object: the last field of the name. -/
def field (fields : List (Text × Json)) (key : Text) : Option Json :=
  (fields.reverse.find? fun f => f.1 = key).map Prod.snd

/-! ## Strings -/

/-- The value of a hexadecimal digit. -/
def hexValue (c : Char) : Option ℕ :=
  if '0' ≤ c ∧ c ≤ '9' then some (c.toNat - 48)
  else if 'a' ≤ c ∧ c ≤ 'f' then some (c.toNat - 87)
  else if 'A' ≤ c ∧ c ≤ 'F' then some (c.toNat - 55)
  else none

/-- The code point of `\uXXXX`. -/
def hexCode (a b c d : Char) : Option ℕ := do
  let a ← hexValue a
  let b ← hexValue b
  let c ← hexValue c
  let d ← hexValue d
  pure (4096 * a + 256 * b + 16 * c + d)

/-- The code point of a one-letter escape. -/
def escape : Char → Option ℕ
  | '"' => some 34
  | '\\' => some 92
  | '/' => some 47
  | 'b' => some 8
  | 'f' => some 12
  | 'n' => some 10
  | 'r' => some 13
  | 't' => some 9
  | _ => none

/-- The code points up to the closing quote, and what follows it. -/
def scanUnits : Text → Except Raised (List ℕ × Text)
  | [] => .error .valueError
  | '"' :: rest => .ok ([], rest)
  | '\\' :: 'u' :: a :: b :: c :: d :: rest =>
    match hexCode a b c d with
    | none => .error .valueError
    | some n => do
      let (units, rest) ← scanUnits rest
      pure (n :: units, rest)
  | '\\' :: c :: rest =>
    match escape c with
    | none => .error .valueError
    | some n => do
      let (units, rest) ← scanUnits rest
      pure (n :: units, rest)
  | c :: rest =>
    -- a control character, or a backslash at the end of the text
    if c.toNat < 32 ∨ c = '\\' then .error .valueError
    else do
      let (units, rest) ← scanUnits rest
      pure (c.toNat :: units, rest)

/-- The character of a code point. -/
def charOf (n : ℕ) : Char := if n.isValidChar then Char.ofNat n else '\uFFFD'

/-- Pairs of surrogates are one character. -/
def joinSurrogates : List ℕ → Text
  | [] => []
  | [n] => [charOf n]
  | hi :: lo :: rest =>
    if 0xD800 ≤ hi ∧ hi ≤ 0xDBFF ∧ 0xDC00 ≤ lo ∧ lo ≤ 0xDFFF then
      charOf (0x10000 + (hi - 0xD800) * 0x400 + (lo - 0xDC00)) :: joinSurrogates rest
    else charOf hi :: joinSurrogates (lo :: rest)

/-- `scanstring`, after the opening quote. -/
def scanString (s : Text) : Except Raised (Text × Text) := do
  let (units, rest) ← scanUnits s
  pure (joinSurrogates units, rest)

/-! ## Numbers -/

/-- An ASCII digit. -/
def isAsciiDigit (c : Char) : Bool := '0' ≤ c && c ≤ '9'

/-- The double nearest to a number with the given sign. -/
def toDouble (negative : Bool) (x : ℚ) : PyFloat ℚ :=
  let double : BinaryFloat := ⟨52, 1023⟩
  if 2047 * 2 ^ 52 ≤ double.encode x then if negative then .negInf else .posInf
  else .fin (if negative then -double.round x else double.round x)

/-- A number that rounds to an infinite double. -/
def TooLarge (x : ℚ) : Prop := 2047 * 2 ^ 52 ≤ BinaryFloat.encode ⟨52, 1023⟩ |x|

instance (x : ℚ) : Decidable (TooLarge x) :=
  inferInstanceAs (Decidable (2047 * 2 ^ 52 ≤ BinaryFloat.encode ⟨52, 1023⟩ |x|))

/-- The fraction digits of a number, and what follows. -/
def scanFraction : Text → Text × Text
  | '.' :: rest =>
    if rest.takeWhile isAsciiDigit = [] then ([], '.' :: rest)
    else (rest.takeWhile isAsciiDigit, rest.dropWhile isAsciiDigit)
  | rest => ([], rest)

/-- The sign of an exponent, and what follows. -/
def scanSign : Text → Bool × Text
  | '-' :: rest => (true, rest)
  | '+' :: rest => (false, rest)
  | rest => (false, rest)

/-- The exponent of a number, and what follows. -/
def scanExponent : Text → Option ℤ × Text
  | [] => (none, [])
  | c :: rest =>
    if c = 'e' ∨ c = 'E' then
      let (negative, digits) := scanSign rest
      if digits.takeWhile isAsciiDigit = [] then (none, c :: rest)
      else
        let n : ℤ := number (digits.takeWhile isAsciiDigit)
        (some (if negative then -n else n), digits.dropWhile isAsciiDigit)
    else (none, c :: rest)

/-- The digits before the point: a zero, or digits that begin with no zero. -/
def scanInteger : Text → Text × Text
  | '0' :: rest => (['0'], rest)
  | rest => (rest.takeWhile isAsciiDigit, rest.dropWhile isAsciiDigit)

/-- `_match_number`, after a minus sign if there is one. -/
def scanNumber (negative : Bool) (s : Text) : Except Raised (Json × Text) :=
  let (integer, rest) := scanInteger s
  if integer = [] then .error .valueError
  else
    let (fraction, rest) := scanFraction rest
    let (exponent, rest) := scanExponent rest
    if fraction = [] ∧ exponent = none then
      -- `int` refuses a longer text
      if maxStrDigits < integer.length then .error .valueError
      else
        let n : ℤ := number integer
        .ok (.int (if negative then -n else n), rest)
    else
      let scale : ℤ := exponent.getD 0 - fraction.length
      .ok (.float (toDouble negative (number (integer ++ fraction) * (10 : ℚ) ^ scale)), rest)

/-! ## Values -/

/-- JSON's whitespace. -/
def isWhitespace (c : Char) : Bool := c == ' ' || c == '\t' || c == '\n' || c == '\r'

/-- Skip whitespace. -/
def skip (s : Text) : Text := s.dropWhile isWhitespace

/-- The items of a list or the fields of an object up to the closing bracket, one of them
at least; the number is a bound for the characters left. -/
def scanSeparated {α : Type} (item : Text → Except Raised (α × Text)) (closing : Char) :
    ℕ → Text → Except Raised (List α × Text)
  | 0, _ => .error .valueError
  | bound + 1, s => do
    let (v, rest) ← item s
    match skip rest with
    | [] => .error .valueError
    | c :: rest =>
      if c = closing then pure ([v], rest)
      else if c = ',' then do
        let (vs, rest) ← scanSeparated item closing bound (skip rest)
        pure (v :: vs, rest)
      else .error .valueError

section

variable (value : Text → Except Raised (Json × Text))

/-- One field of an object. -/
def scanField : Text → Except Raised ((Text × Json) × Text)
  | '"' :: s => do
    let (key, rest) ← scanString s
    match skip rest with
    | ':' :: rest => do
      let (v, rest) ← value (skip rest)
      pure ((key, v), rest)
    | _ => .error .valueError
  | _ => .error .valueError

/-- A list, after its opening bracket. -/
def scanList (s : Text) : Except Raised (Json × Text) :=
  match skip s with
  | ']' :: rest => .ok (.list [], rest)
  | rest => do
    let (vs, rest) ← scanSeparated value ']' (rest.length + 1) rest
    pure (.list vs, rest)

/-- An object, after its opening brace. -/
def scanObject (s : Text) : Except Raised (Json × Text) :=
  match skip s with
  | '}' :: rest => .ok (.object [], rest)
  | rest => do
    let (fs, rest) ← scanSeparated (scanField value) '}' (rest.length + 1) rest
    pure (.object fs, rest)

end

/-- A value that opens no bracket. -/
def scanAtom : Text → Except Raised (Json × Text)
  | '"' :: s => do
    let (text, rest) ← scanString s
    pure (.str text, rest)
  | 'n' :: 'u' :: 'l' :: 'l' :: rest => .ok (.null, rest)
  | 't' :: 'r' :: 'u' :: 'e' :: rest => .ok (.bool true, rest)
  | 'f' :: 'a' :: 'l' :: 's' :: 'e' :: rest => .ok (.bool false, rest)
  | 'N' :: 'a' :: 'N' :: rest => .ok (.float .nan, rest)
  | 'I' :: 'n' :: 'f' :: 'i' :: 'n' :: 'i' :: 't' :: 'y' :: rest => .ok (.float .posInf, rest)
  | '-' :: 'I' :: 'n' :: 'f' :: 'i' :: 'n' :: 'i' :: 't' :: 'y' :: rest =>
    .ok (.float .negInf, rest)
  | '-' :: rest => scanNumber true rest
  | rest => scanNumber false rest

/-- `scan_once`, with the levels that are left. -/
def scan : ℕ → Text → Except Raised (Json × Text)
  | 0, s =>
    match s with
    | '[' :: _ => .error .recursionError
    | '{' :: _ => .error .recursionError
    | s => scanAtom s
  | levels + 1, s =>
    match s with
    | '[' :: rest => scanList (scan levels) rest
    | '{' :: rest => scanObject (scan levels) rest
    | s => scanAtom s

/-- `json.loads`. -/
def loads (levels : ℕ) (text : Text) : Except Raised Json :=
  if text.head? = some '\uFEFF' then .error .valueError
  else do
    let (v, rest) ← scan levels (skip text)
    if skip rest = [] then pure v else .error .valueError

/-! ## Conversions -/

/-- `_PyUnicode_TransformDecimalAndSpaceToASCII`, for one character. -/
def toAscii (c : Char) : Char :=
  if c.toNat < 127 then c
  else if isSpace c then ' '
  else
    match digitValue? c with
    | some d => Char.ofNat (48 + d)
    | none => '?'

/-- C's `isspace`. -/
def isAsciiSpace (c : Char) : Bool := (9 ≤ c.toNat && c.toNat ≤ 13) || c.toNat == 32

/-- Digits, with an underscore between two of them at most. -/
def plainDigits : Text → Option Text
  | [] => none
  | [c] => if isDigit c then some [c] else none
  | c :: '_' :: rest => if isDigit c then (plainDigits rest).map (c :: ·) else none
  | c :: rest => if isDigit c then (plainDigits rest).map (c :: ·) else none

/-- What `int` and `float` read of a text: converted to ASCII, then without C's spaces at
both ends, so that U+001C to U+001F stay. -/
def toAsciiStripped (s : Text) : Text :=
  (((s.map toAscii).dropWhile isAsciiSpace).reverse.dropWhile isAsciiSpace).reverse

/-- `int(text)`. -/
def intOfText (s : Text) : Option ℤ := do
  let (negative, rest) := scanSign (toAsciiStripped s)
  let digits ← plainDigits rest
  if maxStrDigits < digits.length then none
  else
    let n : ℤ := number digits
    pure (if negative then -n else n)

/-- `int(value)`. -/
def toInt : Json → Except Raised ℤ
  | bool b => .ok (if b then 1 else 0)
  | int n => .ok n
  | float (.fin x) => .ok (truncInt x)
  | float .nan => .error .valueError
  | float _ => .error .overflowError
  | str s =>
    match intOfText s with
    | none => .error .valueError
    | some n => .ok n
  | _ => .error .typeError

/-- Underscores stand between two digits, and are dropped. -/
def dropUnderscores : Option Char → Text → Option Text
  | _, [] => some []
  | previous, '_' :: rest =>
    if (previous.any isAsciiDigit && rest.head?.any isAsciiDigit) = true then
      dropUnderscores none rest
    else none
  | _, c :: rest => (dropUnderscores (some c) rest).map (c :: ·)

/-- `float(text)`. -/
def floatOfText (s : Text) : Option (PyFloat ℚ) := do
  let (negative, rest) := scanSign (← dropUnderscores none (toAsciiStripped s))
  let word := rest.map Char.toLower
  if word = "inf".toList ∨ word = "infinity".toList then
    pure (if negative then .negInf else .posInf)
  else if word = "nan".toList then pure .nan
  else
    let integer := rest.takeWhile isAsciiDigit
    let (fraction, rest) :=
      match rest.dropWhile isAsciiDigit with
      | '.' :: rest => (rest.takeWhile isAsciiDigit, rest.dropWhile isAsciiDigit)
      | rest => ([], rest)
    let (exponent, rest) := scanExponent rest
    if integer ++ fraction = [] ∨ rest ≠ [] then none
    else
      -- the point moved behind the fraction
      let scale : ℤ := exponent.getD 0 - fraction.length
      pure (toDouble negative (number (integer ++ fraction) * (10 : ℚ) ^ scale))

/-- The double nearest to an integer, or `OverflowError`. -/
def floatOfInt (n : ℤ) : Except Raised (PyFloat ℚ) :=
  match toDouble (decide (n < 0)) |(n : ℚ)| with
  | .fin x => .ok (.fin x)
  | _ => .error .overflowError

-- about the functions: on an argument the kernel evaluates the bound of `toDouble`
theorem floatOfInt_eq : floatOfInt = fun n : ℤ =>
    match toDouble (decide (n < 0)) |(n : ℚ)| with
    | .fin x => .ok (.fin x)
    | _ => .error .overflowError := rfl

/-- `float(value)`. -/
def toFloat : Json → Except Raised (PyFloat ℚ)
  | bool b => .ok (.fin (if b then 1 else 0))
  | int n => floatOfInt n
  | float x => .ok x
  | str s =>
    match floatOfText s with
    | none => .error .valueError
    | some x => .ok x
  | _ => .error .typeError

/-- The keys of an object, in the order of a `dict`. -/
def keys (fields : List (Text × Json)) : List Text := (fields.map Prod.fst).eraseDups

/-- `len(value)`. -/
def len : Json → Except Raised ℕ
  | str s => .ok s.length
  | list items => .ok items.length
  | object fields => .ok (keys fields).length
  | _ => .error .typeError

/-- `value[0]`; no key of an object is a number. -/
def head : Json → Except Raised Json
  | str [] => .error (.py .indexError)
  | str (c :: _) => .ok (str [c])
  | list [] => .error (.py .indexError)
  | list (v :: _) => .ok v
  | object _ => .error .keyError
  | _ => .error .typeError

/-- `value[key]`. -/
def subscript (v : Json) (key : String) : Except Raised Json :=
  match v with
  | object fields =>
    match field fields key.toList with
    | none => .error .keyError
    | some v => .ok v
  | _ => .error .typeError

/-- What an iteration over the value yields. -/
def items : Json → Except Raised (List Json)
  | str s => .ok (s.map fun c => str [c])
  | list vs => .ok vs
  | object fields => .ok ((keys fields).map str)
  | _ => .error .typeError

/-- `bool(value)`. -/
def toBool : Json → Bool
  | null => false
  | bool b => b
  | int n => n ≠ 0
  | float x => x ≠ .fin 0
  | str s => s ≠ []
  | list items => ¬ items.isEmpty
  | object fields => ¬ fields.isEmpty

/-- The six bits of a base64 character. -/
def sextet (c : Char) : Option ℕ :=
  if 'A' ≤ c ∧ c ≤ 'Z' then some (c.toNat - 65)
  else if 'a' ≤ c ∧ c ≤ 'z' then some (c.toNat - 71)
  else if '0' ≤ c ∧ c ≤ '9' then some (c.toNat + 4)
  else if c = '+' then some 62
  else if c = '/' then some 63
  else none

/-- `a2b_base64`, for sextets followed by some padding characters. -/
def joinSextets : List ℕ → ℕ → Option (List UInt8)
  | [], _ => some []
  | [_], _ => none
  | [a, b], pads => if pads < 2 then none else some [UInt8.ofNat (4 * a + b / 16)]
  | [a, b, c], pads =>
    if pads < 1 then none
    else some [UInt8.ofNat (4 * a + b / 16), UInt8.ofNat (b % 16 * 16 + c / 4)]
  | a :: b :: c :: d :: rest, pads =>
    (joinSextets rest pads).map fun bytes =>
      UInt8.ofNat (4 * a + b / 16) :: UInt8.ofNat (b % 16 * 16 + c / 4) ::
        UInt8.ofNat (c % 4 * 64 + d) :: bytes

/-- `base64.b64decode(value, validate=True)`: `[A-Za-z0-9+/]*={0,2}`. -/
def b64decode : Json → Except Raised (List UInt8)
  | str s =>
    let pads := s.dropWhile fun c => (sextet c).isSome
    if pads.any (· ≠ '=') ∨ 2 < pads.length then .error .valueError
    else
      match joinSextets (s.filterMap sextet) pads.length with
      | none => .error .valueError
      | some bytes => .ok bytes
  | _ => .error .typeError

/-! ## What a scanner leaves and raises -/

/-- The brackets of a text that open a list or an object. -/
def openings (s : Text) : ℕ := s.countP fun c => c == '[' || c == '{'

theorem openings_le_of_suffix {s t : Text} (h : s <:+ t) : openings s ≤ openings t :=
  h.sublist.countP_le

/-- A scanner leaves less than it got, and raises `ValueError`, or `RecursionError` on a
text that opens more brackets than there are levels. -/
def Scans {α : Type} (levels : ℕ) (s : Text) : Except Raised (α × Text) → Prop
  | .ok (_, rest) => rest <:+ s ∧ rest.length < s.length
  | .error e => e = .valueError ∨ e = .recursionError ∧ levels < openings s

section

variable {α β : Type} {levels : ℕ} {s t : Text}

theorem Scans.valueError : Scans levels s (.error .valueError : Except Raised (α × Text)) :=
  Or.inl rfl

theorem Scans.of_suffix {r : Except Raised (α × Text)} (h : Scans levels s r) (hs : s <:+ t) :
    Scans levels t r := by
  match r, h with
  | .ok (_, rest), ⟨hrest, hlen⟩ => exact ⟨hrest.trans hs, hlen.trans_le hs.length_le⟩
  | .error e, h => exact h.imp_right fun ⟨he, hlt⟩ =>
      ⟨he, hlt.trans_le (openings_le_of_suffix hs)⟩

/-- One scanner after the other. -/
theorem Scans.bind {r : Except Raised (α × Text)} {f : α × Text → Except Raised (β × Text)}
    (h : Scans levels s r) (hf : ∀ a rest, rest <:+ s → rest.length < s.length →
      Scans levels s (f (a, rest))) : Scans levels s (r >>= f) := by
  match r, h with
  | .ok (a, rest), ⟨hrest, hlen⟩ => exact hf a rest hrest hlen
  | .error e, h => exact h

theorem skip_suffix (s : Text) : skip s <:+ s := List.dropWhile_suffix _

theorem suffix_of_cons {c : Char} {rest : Text} (h : c :: rest <:+ s) :
    rest <:+ s ∧ rest.length < s.length := by
  have hlen := h.length_le
  rw [List.length_cons] at hlen
  exact ⟨(List.suffix_cons c rest).trans h, hlen⟩

/-! ### Strings and numbers -/

theorem scanUnits_scans (s : Text) : Scans levels s (scanUnits s) := by
  fun_induction scanUnits s with
  | case1 => exact Scans.valueError
  | case2 rest => exact suffix_of_cons (List.suffix_refl _)
  | case3 a b c d rest h => exact Scans.valueError
  | case4 a b c d rest n h ih =>
      have hsuffix : rest <:+ '\\' :: 'u' :: a :: b :: c :: d :: rest :=
        ⟨['\\', 'u', a, b, c, d], rfl⟩
      exact (ih.of_suffix hsuffix).bind fun _ _ hrest hlen => ⟨hrest, hlen⟩
  | case5 c rest _ h => exact Scans.valueError
  | case6 c rest _ n h ih =>
      have hsuffix : rest <:+ '\\' :: c :: rest := ⟨['\\', c], rfl⟩
      exact (ih.of_suffix hsuffix).bind fun _ _ hrest hlen => ⟨hrest, hlen⟩
  | case7 => exact Scans.valueError
  | case8 c rest _ _ _ h ih =>
      exact (ih.of_suffix (List.suffix_cons c rest)).bind fun _ _ hrest hlen => ⟨hrest, hlen⟩

theorem scanString_scans (s : Text) : Scans levels s (scanString s) :=
  (scanUnits_scans s).bind fun _ _ hrest hlen => ⟨hrest, hlen⟩

theorem scanInteger_suffix (s : Text) :
    (scanInteger s).2 <:+ s ∧ ((scanInteger s).1 ≠ [] → (scanInteger s).2.length < s.length) := by
  unfold scanInteger
  split
  · next rest => exact ⟨List.suffix_cons _ _, fun _ => Nat.lt_succ_self _⟩
  · refine ⟨List.dropWhile_suffix _, fun hne => ?_⟩
    dsimp only at hne ⊢
    have hlen := congrArg List.length
      (List.takeWhile_append_dropWhile (p := isAsciiDigit) (l := s))
    rw [List.length_append] at hlen
    have hpos := List.length_pos_iff.mpr hne
    omega

theorem scanFraction_suffix (s : Text) : (scanFraction s).2 <:+ s := by
  unfold scanFraction
  split
  · next rest =>
      split
      · exact List.suffix_refl _
      · exact (List.dropWhile_suffix _).trans (List.suffix_cons _ _)
  · exact List.suffix_refl _

theorem scanSign_suffix (s : Text) : (scanSign s).2 <:+ s := by
  unfold scanSign
  split
  · exact List.suffix_cons _ _
  · exact List.suffix_cons _ _
  · exact List.suffix_refl _

theorem scanExponent_suffix (s : Text) : (scanExponent s).2 <:+ s := by
  unfold scanExponent
  split
  · exact List.suffix_refl _
  · next c rest =>
      split
      · dsimp only
        split
        · exact List.suffix_refl _
        · exact ((List.dropWhile_suffix _).trans (scanSign_suffix rest)).trans
            (List.suffix_cons c rest)
      · exact List.suffix_refl _

theorem scanNumber_scans (negative : Bool) (s : Text) : Scans levels s (scanNumber negative s) := by
  obtain ⟨hinteger, hlen⟩ := scanInteger_suffix s
  have hrest : (scanExponent (scanFraction (scanInteger s).2).2).2 <:+ (scanInteger s).2 :=
    (scanExponent_suffix _).trans (scanFraction_suffix _)
  unfold scanNumber
  dsimp only
  split
  · exact Scans.valueError
  · next hne =>
      have hleft := And.intro (hrest.trans hinteger) (hrest.length_le.trans_lt (hlen hne))
      split
      · split
        · exact Scans.valueError
        · exact hleft
      · exact hleft

theorem append_left (word : Text) {rest : Text} (h : 0 < word.length) :
    rest <:+ word ++ rest ∧ rest.length < (word ++ rest).length := by
  refine ⟨List.suffix_append word rest, ?_⟩
  rw [List.length_append]
  omega

theorem scanAtom_scans (s : Text) : Scans levels s (scanAtom s) := by
  unfold scanAtom
  split
  · next s =>
      exact ((scanString_scans s).of_suffix (List.suffix_cons _ _)).bind
        fun _ _ hrest hlen => ⟨hrest, hlen⟩
  · next rest => exact append_left ['n', 'u', 'l', 'l'] (by decide)
  · next rest => exact append_left ['t', 'r', 'u', 'e'] (by decide)
  · next rest => exact append_left ['f', 'a', 'l', 's', 'e'] (by decide)
  · next rest => exact append_left ['N', 'a', 'N'] (by decide)
  · next rest => exact append_left ['I', 'n', 'f', 'i', 'n', 'i', 't', 'y'] (by decide)
  · next rest => exact append_left ['-', 'I', 'n', 'f', 'i', 'n', 'i', 't', 'y'] (by decide)
  · next rest _ => exact (scanNumber_scans true rest).of_suffix (List.suffix_cons _ _)
  · exact scanNumber_scans false s

/-! ### Lists and objects -/

section

variable {item : Text → Except Raised (α × Text)} (hitem : ∀ s, Scans levels s (item s))

include hitem

theorem scanSeparated_scans (closing : Char) (bound : ℕ) (s : Text) :
    Scans levels s (scanSeparated item closing bound s) := by
  induction bound generalizing s with
  | zero => exact Scans.valueError
  | succ bound ih =>
      refine (hitem s).bind fun v rest hrest _ => ?_
      have hskip := (skip_suffix rest).trans hrest
      dsimp only
      split
      · exact Scans.valueError
      · next c rest h =>
          have hleft := suffix_of_cons (h ▸ hskip)
          split
          · exact hleft
          · split
            · exact ((ih (skip rest)).of_suffix ((skip_suffix rest).trans hleft.1)).bind
                fun _ _ hrest hlen => ⟨hrest, hlen⟩
            · exact Scans.valueError

end

section

variable {value : Text → Except Raised (Json × Text)} (hvalue : ∀ s, Scans levels s (value s))

include hvalue

theorem scanField_scans (s : Text) : Scans levels s (scanField value s) := by
  unfold scanField
  split
  · next s =>
      have hkey : Scans levels ('"' :: s) (scanString s) :=
        (scanString_scans s).of_suffix (List.suffix_cons '"' s)
      refine hkey.bind fun key rest hrest _ => ?_
      have hskip := (skip_suffix rest).trans hrest
      dsimp only
      split
      · next rest h =>
          have hnext := (skip_suffix rest).trans (suffix_of_cons (h ▸ hskip)).1
          exact ((hvalue (skip rest)).of_suffix hnext).bind fun _ _ hrest hlen => ⟨hrest, hlen⟩
      · exact Scans.valueError
  · exact Scans.valueError

theorem scanList_scans (s : Text) : Scans levels s (scanList value s) := by
  unfold scanList
  split
  · next rest h => exact suffix_of_cons (h ▸ skip_suffix s)
  · exact ((scanSeparated_scans hvalue _ _ _).of_suffix (skip_suffix s)).bind
      fun _ _ hrest hlen => ⟨hrest, hlen⟩

theorem scanObject_scans (s : Text) : Scans levels s (scanObject value s) := by
  unfold scanObject
  split
  · next rest h => exact suffix_of_cons (h ▸ skip_suffix s)
  · exact ((scanSeparated_scans (scanField_scans hvalue) _ _ _).of_suffix (skip_suffix s)).bind
      fun _ _ hrest hlen => ⟨hrest, hlen⟩

end

/-- A bracket takes a level, and is one more opening of the text. -/
theorem Scans.opened {r : Except Raised (α × Text)} {c : Char} (h : Scans levels s r)
    (hc : (c == '[' || c == '{') = true) : Scans (levels + 1) (c :: s) r := by
  have hopen : openings (c :: s) = openings s + 1 := List.countP_cons_of_pos hc
  match r, h with
  | .ok (_, rest), ⟨hrest, hlen⟩ =>
      exact ⟨hrest.trans (List.suffix_cons c s), hlen.trans (Nat.lt_succ_self _)⟩
  | .error e, h => exact h.imp_right fun ⟨he, hlt⟩ => ⟨he, hopen ▸ Nat.succ_lt_succ hlt⟩

theorem scan_scans (levels : ℕ) (s : Text) : Scans levels s (scan levels s) := by
  induction levels generalizing s with
  | zero =>
      unfold scan
      split
      · exact Or.inr ⟨rfl, by simp [openings]⟩
      · exact Or.inr ⟨rfl, by simp [openings]⟩
      · exact scanAtom_scans s
  | succ levels ih =>
      unfold scan
      split
      · exact (scanList_scans ih _).opened rfl
      · exact (scanObject_scans ih _).opened rfl
      · exact scanAtom_scans s

end

/-- **`json.loads` raises two classes of errors**, and `RecursionError` only on a text
that opens more brackets than there are levels. -/
theorem loads_error {levels : ℕ} {text : Text} {e : Raised} (h : loads levels text = .error e) :
    e = .valueError ∨ e = .recursionError ∧ levels < openings text := by
  have hscan := (scan_scans levels (skip text)).of_suffix (skip_suffix text)
  unfold loads at h
  split at h
  · cases h
    exact Or.inl rfl
  · cases hs : scan levels (skip text) with
    | error e' =>
        rw [hs] at h hscan
        cases h
        exact hscan
    | ok r =>
        obtain ⟨v, rest⟩ := r
        simp only [hs, Bind.bind, Except.bind] at h
        split at h
        · cases h
        · cases h
          exact Or.inl rfl

end Json
