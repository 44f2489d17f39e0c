/-
# The words of a text

What the CLIP tokenizer does to a text before its merges, in both ports: it cleans the
text, cuts it into words with one regular expression, encodes each word in UTF-8 and
writes each byte as one printable character.

A text is its code points; a surrogate without its partner is one of its own.  The tables
of Unicode are parameters (`Unicode`), with the few facts about them that matter here: no
word goes on after an end mark (`not_endoftext_append`).
-/
import Mathlib.Data.List.Basic
import Mathlib.Data.List.Forall2
import Mathlib.Data.List.TakeWhile
import Mathlib.Data.Fin.Basic

namespace ClipTokenizer

/-- A code point. -/
abbrev CodePoint := Fin 0x110000

/-- A string as its UTF-16 code units. -/
abbrev Str := List ℕ

/-- The code units of a literal of the code. -/
def units (s : String) : Str := s.toList.map Char.toNat

/-- The code points of a literal of the code. -/
def points (s : String) : List CodePoint := s.toList.map fun c => Fin.ofNat _ c.toNat

/-- `<|endoftext|>`. -/
def ENDOFTEXT : String := "<|endoftext|>"

/-- `<|startoftext|>`. -/
def STARTOFTEXT : String := "<|startoftext|>"

/-! ## Unicode -/

/-- The functions of the string libraries, and the classes of the regular expression with
its flags `i` and `u`: a character is in a class if it is one of its characters up to
case folding. -/
structure Unicode where
  trim : List CodePoint → List CodePoint
  toLowerCase : List CodePoint → List CodePoint
  /-- `\s`. -/
  isSpace : CodePoint → Bool
  /-- `\p` of the letters. -/
  isLetter : CodePoint → Bool
  /-- `\p` of the numbers. -/
  isNumber : CodePoint → Bool
  /-- A character of the pattern and one of the text, up to case folding. -/
  same : CodePoint → CodePoint → Bool
  letter_e : isLetter (Fin.ofNat _ 'e'.toNat) = true
  not_letter_lt : isLetter (Fin.ofNat _ '<'.toNat) = false
  not_same_s_e : same (Fin.ofNat _ 's'.toNat) (Fin.ofNat _ 'e'.toNat) = false
  not_same_bar_lt : same (Fin.ofNat _ '|'.toNat) (Fin.ofNat _ '<'.toNat) = false

namespace Unicode

/-- A letter of ASCII in lower case. -/
def lowerAscii (c : CodePoint) : CodePoint :=
  if 65 ≤ c.val ∧ c.val ≤ 90 then Fin.ofNat _ (c.val + 32) else c

/-- Whitespace of ASCII. -/
def isSpaceAscii (c : CodePoint) : Bool := 9 ≤ c.val && c.val ≤ 13 || c.val == 32

/-- Unicode, as far as ASCII goes. -/
def ascii : Unicode where
  trim s := ((s.dropWhile isSpaceAscii).reverse.dropWhile isSpaceAscii).reverse
  toLowerCase s := s.map lowerAscii
  isSpace := isSpaceAscii
  isLetter c := 97 ≤ (lowerAscii c).val && (lowerAscii c).val ≤ 122
  isNumber c := 48 ≤ c.val && c.val ≤ 57
  same a c := lowerAscii a == lowerAscii c
  letter_e := by decide
  not_letter_lt := by decide
  not_same_s_e := by decide
  not_same_bar_lt := by decide

variable (U : Unicode)

/-- `.replace(/\s+/g, ' ')`, with a bound for the length of the text. -/
def squeeze : ℕ → List CodePoint → List CodePoint
  | 0, _ => []
  | _ + 1, [] => []
  | fuel + 1, c :: cs =>
      if U.isSpace c then Fin.ofNat _ ' '.toNat :: squeeze fuel (cs.dropWhile U.isSpace)
      else c :: squeeze fuel cs

/-- `text.trim().toLowerCase().replace(/\s+/g, ' ')`. -/
def clean (text : List CodePoint) : List CodePoint :=
  let lowered := U.toLowerCase (U.trim text)
  U.squeeze lowered.length lowered

/-! ## The pattern -/

/-- The literals of `PAT`, in their order. -/
def LITERALS : List (List CodePoint) :=
  [points STARTOFTEXT, points ENDOFTEXT, points "'s", points "'t", points "'re", points "'ve",
    points "'m", points "'ll", points "'d"]

/-- A literal at the front of the text: what it matches, and what follows. -/
def eat : List CodePoint → List CodePoint → Option (List CodePoint × List CodePoint)
  | [], s => some ([], s)
  | _ :: _, [] => none
  | l :: ls, c :: cs => if U.same l c then (eat ls cs).map fun m => (c :: m.1, m.2) else none

/-- The characters of the last alternative. -/
def isOther (c : CodePoint) : Bool := !(U.isSpace c || U.isLetter c || U.isNumber c)

/-- A match of `PAT` at the front of the text, and what follows. -/
def matchAt (s : List CodePoint) : Option (List CodePoint × List CodePoint) :=
  match LITERALS.findSome? fun l => U.eat l s with
  | some m => some m
  | none =>
      match s with
      | [] => none
      | c :: cs =>
          if U.isLetter c then some (c :: cs.takeWhile U.isLetter, cs.dropWhile U.isLetter)
          else if U.isNumber c then some ([c], cs)
          else if U.isOther c then some (c :: cs.takeWhile U.isOther, cs.dropWhile U.isOther)
          else none

/-- `matchAll(PAT)`, with a bound for the length of the text. -/
def matchAll : ℕ → List CodePoint → List (List CodePoint)
  | 0, _ => []
  | _ + 1, [] => []
  | fuel + 1, c :: cs =>
      match U.matchAt (c :: cs) with
      | some (word, rest) => word :: matchAll fuel rest
      | none => matchAll fuel cs

/-- The words of a text. -/
def words (text : List CodePoint) : List (List CodePoint) :=
  U.matchAll (U.clean text).length (U.clean text)

/-- What `PAT` matches. -/
inductive Word : List CodePoint → Prop
  | literal {l w : List CodePoint} : l ∈ LITERALS →
      List.Forall₂ (fun a c => U.same a c) l w → Word w
  | letters {w : List CodePoint} : w ≠ [] → (∀ c ∈ w, U.isLetter c) → Word w
  | number {c : CodePoint} : U.isNumber c → Word [c]
  | others {w : List CodePoint} : w ≠ [] → (∀ c ∈ w, U.isOther c) → Word w

variable {U}

theorem eat_spec {l s w rest : List CodePoint} (h : U.eat l s = some (w, rest)) :
    List.Forall₂ (fun a c => U.same a c) l w := by
  induction l generalizing s w rest with
  | nil =>
      cases h
      exact .nil
  | cons a l ih =>
      cases s with
      | nil => cases h
      | cons c cs =>
          unfold eat at h
          split at h
          · rename_i hsame
            obtain ⟨m, hm, heq⟩ := Option.map_eq_some_iff.mp h
            cases heq
            exact .cons hsame (ih hm)
          · cases h

theorem all_cons_takeWhile {p : CodePoint → Bool} {c : CodePoint} (hc : p c)
    (cs : List CodePoint) : ∀ c' ∈ c :: cs.takeWhile p, p c' := by
  intro c' hc'
  rcases List.mem_cons.mp hc' with rfl | hc'
  · exact hc
  · exact List.mem_takeWhile_imp hc'

theorem matchAt_spec {s w rest : List CodePoint} (h : U.matchAt s = some (w, rest)) : U.Word w := by
  unfold matchAt at h
  split at h
  · rename_i m hm
    cases h
    obtain ⟨l, hl, hw⟩ := List.exists_of_findSome?_eq_some hm
    exact .literal hl (eat_spec hw)
  · split at h
    · cases h
    · split at h
      · rename_i hc
        cases h
        exact .letters (List.cons_ne_nil _ _) (all_cons_takeWhile hc _)
      · split at h
        · rename_i hc
          cases h
          exact .number hc
        · split at h
          · rename_i hc
            cases h
            exact .others (List.cons_ne_nil _ _) (all_cons_takeWhile hc _)
          · cases h

theorem matchAll_spec (fuel : ℕ) (s : List CodePoint) : ∀ w ∈ U.matchAll fuel s, U.Word w := by
  induction fuel generalizing s with
  | zero => exact nofun
  | succ fuel ih =>
      cases s with
      | nil => exact nofun
      | cons c cs =>
          unfold matchAll
          cases hm : U.matchAt (c :: cs) with
          | none => exact ih cs
          | some m =>
              intro w hw
              rcases List.mem_cons.mp hw with rfl | hw
              · exact matchAt_spec hm
              · exact ih m.2 w hw

/-- **The words of a text** are matches of the pattern. -/
theorem word_of_mem {text w : List CodePoint} (h : w ∈ U.words text) : U.Word w :=
  matchAll_spec _ _ w h

theorem literals_ne_nil : ∀ l ∈ LITERALS, l ≠ [] := by decide

theorem Word.ne_nil {w : List CodePoint} (h : U.Word w) : w ≠ [] := by
  cases h with
  | literal hl hw =>
      rintro rfl
      cases hw
      exact literals_ne_nil _ hl rfl
  | letters hne => exact hne
  | number => exact List.cons_ne_nil _ _
  | others hne => exact hne

end Unicode

/-! ## Bytes -/

/-- UTF-8, for one code point. -/
def utf8 (c : CodePoint) : List ℕ :=
  if c.val < 0x80 then [c.val]
  else if c.val < 0x800 then [0xC0 + c.val / 64, 0x80 + c.val % 64]
  -- the replacement character for a surrogate without its partner
  else if 0xD800 ≤ c.val ∧ c.val < 0xE000 then [0xEF, 0xBF, 0xBD]
  else if c.val < 0x10000 then
    [0xE0 + c.val / 4096, 0x80 + c.val / 64 % 64, 0x80 + c.val % 64]
  else
    [0xF0 + c.val / 262144, 0x80 + c.val / 4096 % 64, 0x80 + c.val / 64 % 64, 0x80 + c.val % 64]

/-- The bytes that stand for themselves, `!` to `~`, `¡` to `¬` and `®` to `ÿ`. -/
def printable : List ℕ := List.range' 33 94 ++ List.range' 161 12 ++ List.range' 174 82

/-- `bytesToUnicode`: the other bytes are written from 256 on. -/
def bytesToUnicode : List (ℕ × ℕ) :=
  (printable.map fun b => (b, b)) ++
    (((List.range 256).filter fun b => !printable.contains b).zipIdx.map fun e =>
      (e.1, 256 + e.2))

/-- `byteEncoder.get(b)`. -/
def byteEncoder (b : ℕ) : Option ℕ := bytesToUnicode.lookup b

/-- The bytes of a word, one character each. -/
def mapped (w : List CodePoint) : Str := (w.flatMap utf8).filterMap byteEncoder

/-- Every byte has a character, its own or one of those from 256 on. -/
theorem byteEncoder_isSome {b : ℕ} (hb : b < 256) : (byteEncoder b).isSome = true := by
  refine List.lookup_isSome_iff.mpr ?_
  by_cases hprintable : b ∈ printable
  · have hmem : (b, b) ∈ bytesToUnicode :=
      List.mem_append_left _ (List.mem_map_of_mem (f := fun b => (b, b)) hprintable)
    exact ⟨(b, b), hmem, beq_self_eq_true b⟩
  · have hother : b ∈ (List.range 256).filter fun b => !printable.contains b := by
      rw [List.mem_filter, List.contains_eq_mem, decide_eq_false hprintable]
      exact ⟨List.mem_range.mpr hb, rfl⟩
    obtain ⟨i, hi⟩ := List.mem_iff_getElem?.mp hother
    have hmem : (b, 256 + i) ∈ bytesToUnicode :=
      List.mem_append_right _ (List.mem_map.mpr ⟨(b, i), List.mem_zipIdx_iff_getElem?.mpr hi, rfl⟩)
    exact ⟨(b, 256 + i), hmem, beq_self_eq_true b⟩

theorem mem_bytesToUnicode {b x : ℕ} (h : byteEncoder b = some x) : (b, x) ∈ bytesToUnicode := by
  obtain ⟨u, v, hsplit, -⟩ := List.lookup_eq_some_iff.mp h
  rw [hsplit]
  exact List.mem_append_right u List.mem_cons_self

/-- A byte stands for itself behind the blank, or is written from 256 on. -/
theorem byteEncoder_cases {b x : ℕ} (h : byteEncoder b = some x) : x = b ∧ 32 < x ∨ 256 ≤ x := by
  rcases List.mem_append.mp (mem_bytesToUnicode h) with hmem | hmem
  · obtain ⟨c, hc, heq⟩ := List.mem_map.mp hmem
    cases heq
    simp only [printable, List.mem_append, List.mem_range'_1] at hc
    exact .inl ⟨rfl, by omega⟩
  · obtain ⟨e, -, heq⟩ := List.mem_map.mp hmem
    cases heq
    exact .inr (Nat.le_add_right 256 e.2)

theorem utf8_of_lt {c : CodePoint} (h : c.val < 0x80) : utf8 c = [c.val] := if_pos h

theorem utf8_bounds {c : CodePoint} (h : 0x80 ≤ c.val) : ∀ b ∈ utf8 c, 0x80 ≤ b ∧ b < 256 := by
  have hc := c.isLt
  intro b hb
  unfold utf8 at hb
  rw [if_neg (not_lt.mpr h)] at hb
  split at hb
  · simp only [List.mem_cons, List.not_mem_nil, or_false] at hb
    omega
  · split at hb
    · simp only [List.mem_cons, List.not_mem_nil, or_false] at hb
      omega
    · split at hb
      · simp only [List.mem_cons, List.not_mem_nil, or_false] at hb
        omega
      · simp only [List.mem_cons, List.not_mem_nil, or_false] at hb
        omega

theorem utf8_lt {c : CodePoint} {b : ℕ} (h : b ∈ utf8 c) : b < 256 := by
  by_cases hc : c.val < 0x80
  · rw [utf8_of_lt hc, List.mem_singleton] at h
    omega
  · exact (utf8_bounds (not_lt.mp hc) b h).2

theorem utf8_ne_nil (c : CodePoint) : utf8 c ≠ [] := by
  unfold utf8
  split
  · exact List.cons_ne_nil _ _
  · split
    · exact List.cons_ne_nil _ _
    · split
      · exact List.cons_ne_nil _ _
      · split
        · exact List.cons_ne_nil _ _
        · exact List.cons_ne_nil _ _

theorem mapped_cons (c : CodePoint) (w : List CodePoint) :
    mapped (c :: w) = (utf8 c).filterMap byteEncoder ++ mapped w := by
  unfold mapped
  rw [List.flatMap_cons, List.filterMap_append]

theorem encoded_ne_nil (c : CodePoint) : (utf8 c).filterMap byteEncoder ≠ [] := by
  obtain ⟨b, bs, hbs⟩ := List.exists_cons_of_ne_nil (utf8_ne_nil c)
  have hb : b < 256 := utf8_lt (hbs ▸ List.mem_cons_self)
  obtain ⟨v, hv⟩ := Option.isSome_iff_exists.mp (byteEncoder_isSome hb)
  rw [hbs, List.filterMap_cons_some hv]
  exact List.cons_ne_nil _ _

theorem mapped_eq_nil {w : List CodePoint} (h : mapped w = []) : w = [] := by
  cases w with
  | nil => rfl
  | cons c w =>
      rw [mapped_cons] at h
      exact absurd (List.append_eq_nil_iff.mp h).1 (encoded_ne_nil c)

/-- Each character stands for a byte. -/
theorem exists_byte_of_mem {w : List CodePoint} {x : ℕ} (h : x ∈ mapped w) :
    ∃ b < 256, byteEncoder b = some x := by
  obtain ⟨b, hb, hx⟩ := List.mem_filterMap.mp h
  obtain ⟨c, -, hc⟩ := List.mem_flatMap.mp hb
  exact ⟨b, utf8_lt hc, hx⟩

/-- No character stands for a blank as such. -/
theorem ne_blank_of_byte {b x : ℕ} (h : byteEncoder b = some x) : x ≠ 32 := by
  have hcases := byteEncoder_cases h
  omega

/-- A character of ASCII comes from the code point that it is. -/
theorem of_mem_encoded {c : CodePoint} {x : ℕ} (h : x ∈ (utf8 c).filterMap byteEncoder)
    (hx : x ≤ 126) : c.val = x ∧ (utf8 c).filterMap byteEncoder = [x] := by
  obtain ⟨b, hb, hbx⟩ := List.mem_filterMap.mp h
  have hbyte := byteEncoder_cases hbx
  obtain rfl : b = x := by omega
  have hc : c.val < 0x80 := by
    by_contra hc
    have hlow := (utf8_bounds (not_lt.mp hc) b hb).1
    omega
  rw [utf8_of_lt hc, List.mem_singleton] at hb
  subst hb
  exact ⟨rfl, by rw [utf8_of_lt hc, List.filterMap_cons_some hbx]; rfl⟩

/-- Where a character of ASCII stands among the characters of a word, the word has it
there. -/
theorem split_mapped {w : List CodePoint} {x : ℕ} (hx : x ≤ 126) (pre : Str)
    {post : Str} (h : mapped w = pre ++ x :: post) :
    ∃ v c t, w = v ++ c :: t ∧ c.val = x ∧ mapped v = pre ∧ mapped t = post := by
  induction w generalizing pre with
  | nil => exact absurd h.symm (List.append_ne_nil_of_right_ne_nil _ (List.cons_ne_nil _ _))
  | cons c w ih =>
      rw [mapped_cons] at h
      rcases List.append_eq_append_iff.mp h with ⟨rest, rfl, hrest⟩ | ⟨rest, hrest, hpost⟩
      · -- the first character of the word is in front of it
        obtain ⟨v, d, t, rfl, hd, rfl, ht⟩ := ih rest hrest
        exact ⟨c :: v, d, t, rfl, hd, mapped_cons c v, ht⟩
      · cases rest with
        | nil =>
            obtain ⟨v, d, t, rfl, hd, hv, ht⟩ := ih [] hpost.symm
            refine ⟨c :: v, d, t, rfl, hd, ?_, ht⟩
            rw [mapped_cons, hv, hrest, List.append_nil, List.append_nil]
        | cons y rest =>
            obtain ⟨rfl, rfl⟩ := List.cons.inj hpost
            have hmem : x ∈ (utf8 c).filterMap byteEncoder := by
              rw [hrest]
              exact List.mem_append_right pre List.mem_cons_self
            obtain ⟨hc, hone⟩ := of_mem_encoded hmem hx
            rw [hone] at hrest
            have hpre : pre = [] ∧ rest = [] := by
              have hlength := congrArg List.length hrest
              simp only [List.length_append, List.length_cons, List.length_nil] at hlength
              exact ⟨List.length_eq_zero_iff.mp (by omega), List.length_eq_zero_iff.mp (by omega)⟩
            obtain ⟨rfl, rfl⟩ := hpre
            exact ⟨[], c, w, rfl, hc, rfl, rfl⟩

/-- A literal at the front of the characters is one at the front of the word. -/
theorem prefix_mapped {w : List CodePoint} {lit post : Str} (hlit : ∀ x ∈ lit, x ≤ 126)
    (h : mapped w = lit ++ post) :
    ∃ l t, w = l ++ t ∧ l.map Fin.val = lit ∧ mapped t = post := by
  induction lit generalizing w with
  | nil => exact ⟨[], w, rfl, rfl, h⟩
  | cons x lit ih =>
      obtain ⟨v, c, t, rfl, hc, hv, ht⟩ := split_mapped (hlit x List.mem_cons_self) [] h
      obtain rfl := mapped_eq_nil hv
      obtain ⟨l, t', rfl, hl, ht'⟩ := ih (fun y hy => hlit y (List.mem_cons_of_mem x hy)) ht
      exact ⟨c :: l, t', rfl, by rw [List.map_cons, hc, hl], ht'⟩

/-! ## The end mark -/

theorem ascii_endoftext : ∀ x ∈ units ENDOFTEXT, x ≤ 126 := by decide

theorem units_endoftext : (points ENDOFTEXT).map Fin.val = units ENDOFTEXT := by decide

theorem length_endoftext : (points ENDOFTEXT).length = 13 := by decide

/-- A literal that is longer than the end mark is the start mark. -/
theorem eq_startoftext : ∀ l ∈ Unicode.LITERALS, 13 < l.length → l = points STARTOFTEXT := by
  decide

/-- The characters of an end mark in the text, position by position. -/
theorem points_mapped {w : List CodePoint} {pre post : Str}
    (h : mapped w = pre ++ (units ENDOFTEXT ++ post)) :
    ∃ v t, w = v ++ (points ENDOFTEXT ++ t) ∧ mapped v = pre ∧ mapped t = post := by
  obtain ⟨v, c, t, rfl, hc, hv, ht⟩ := split_mapped (x := '<'.toNat) (by decide) pre h
  have hrest : mapped (c :: t) = units ENDOFTEXT ++ post := by
    have hascii : c.val < 0x80 := hc.trans_lt (by decide)
    have hone : byteEncoder '<'.toNat = some '<'.toNat := by decide +kernel
    rw [mapped_cons, utf8_of_lt hascii, hc, List.filterMap_cons_some hone, ht]
    rfl
  obtain ⟨l, t', hl, hval, ht'⟩ := prefix_mapped ascii_endoftext hrest
  rw [← units_endoftext] at hval
  obtain rfl := Fin.val_injective.list_map hval
  exact ⟨v, t', by rw [hl], hv, ht'⟩

namespace Unicode

variable {U : Unicode}

theorem same_of_getElem? {l w : List CodePoint} (h : List.Forall₂ (fun a c => U.same a c) l w)
    {i : ℕ} {a c : CodePoint} (ha : l[i]? = some a) (hc : w[i]? = some c) : U.same a c = true := by
  induction h generalizing i with
  | nil => cases ha
  | cons hsame _ ih =>
      cases i with
      | zero =>
          cases ha
          cases hc
          exact hsame
      | succ i => exact ih ha hc

/-- The start mark holds no end mark: two of their letters are apart. -/
theorem not_same_startoftext {w v t : List CodePoint}
    (hsame : List.Forall₂ (fun a c => U.same a c) (points STARTOFTEXT) w)
    (hw : w = v ++ (points ENDOFTEXT ++ t)) (hv : v.length ≤ 1) : False := by
  obtain hv | hv : v.length = 0 ∨ v.length = 1 := by omega
  · -- `<|e` against `<|s`
    obtain rfl := List.length_eq_zero_iff.mp hv
    have hat : w[2]? = some (Fin.ofNat _ 'e'.toNat) := by
      rw [hw, List.nil_append, List.getElem?_append_left (by decide)]
      decide
    have hyes := same_of_getElem? hsame (i := 2) (a := Fin.ofNat _ 's'.toNat) (by decide) hat
    rw [U.not_same_s_e] at hyes
    cases hyes
  · -- a character and `<` against `<|`
    have hat : w[1]? = some (Fin.ofNat _ '<'.toNat) := by
      rw [hw, List.getElem?_append_right (by omega), hv, List.getElem?_append_left (by decide)]
      decide
    have hyes := same_of_getElem? hsame (i := 1) (a := Fin.ofNat _ '|'.toNat) (by decide) hat
    rw [U.not_same_bar_lt] at hyes
    cases hyes

/-- **No word goes on after an end mark.**  The end mark itself is one word; other words
with its first character have no letters, and the start mark has other letters. -/
theorem Word.of_endoftext {w v t : List CodePoint} (h : U.Word w)
    (hw : w = v ++ (points ENDOFTEXT ++ t)) : t = [] := by
  by_contra hne
  have hpos : 0 < t.length := List.length_pos_iff.mpr hne
  have hlength : w.length = v.length + (13 + t.length) := by
    rw [hw, List.length_append, List.length_append, length_endoftext]
  have hmem : ∀ c ∈ points ENDOFTEXT, c ∈ w := by
    intro c hc
    rw [hw]
    exact List.mem_append_right v (List.mem_append_left t hc)
  cases h with
  | @literal l _ hl hsame =>
      have hll : l.length = w.length := hsame.length_eq
      obtain rfl := eq_startoftext l hl (by omega)
      have h15 : (points STARTOFTEXT).length = 15 := by decide
      exact not_same_startoftext hsame hw (by omega)
  | letters _ hall =>
      have hyes := hall _ (hmem (Fin.ofNat _ '<'.toNat) (by decide))
      rw [U.not_letter_lt] at hyes
      cases hyes
  | number =>
      rw [List.length_singleton] at hlength
      omega
  | others _ hall =>
      have hyes := hall _ (hmem (Fin.ofNat _ 'e'.toNat) (by decide))
      unfold isOther at hyes
      rw [U.letter_e, Bool.or_true, Bool.true_or] at hyes
      cases hyes

/-- The same for the characters of the word. -/
theorem Word.eq_nil_of_mapped {w : List CodePoint} (h : U.Word w) {pre post : Str}
    (hw : mapped w = pre ++ (units ENDOFTEXT ++ post)) : post = [] := by
  obtain ⟨v, t, hsplit, -, rfl⟩ := points_mapped hw
  rw [h.of_endoftext hsplit]
  rfl

end Unicode

end ClipTokenizer
