/-
# JSON bodies of HTTP requests

What the clients and the servers of the benchmark make of a body: `json.dumps(..).encode`,
`json.loads` of the bytes, and the images in base64.

* `b64decode_b64encode` : the bytes of an image;
* `loads_cut` : fewer recursion levels change a result for a `RecursionError` only;
* `loadsBody_dumpsBody` : a body is read back, unless the reader runs out of levels.
-/
import Rvln.PolicySession
import Rvln.ResultFile

/-! ## Base64 -/

namespace Json

open PolicySession (base64Char b64encode)

theorem sextet_base64Char : ∀ n, n < 64 → sextet (base64Char n) = some n := by decide

theorem sextet_pad : sextet '=' = none := by decide

/-- Characters of sextets, followed by some padding. -/
theorem b64decode_of_sextets {ns : List ℕ} {pads : ℕ} {bytes : List UInt8}
    (hns : ∀ n ∈ ns, n < 64) (hpads : pads ≤ 2) (h : joinSextets ns pads = some bytes) :
    b64decode (.str (ns.map base64Char ++ List.replicate pads '=')) = .ok bytes := by
  have hsextets : (ns.map base64Char).filterMap sextet = ns := by
    rw [List.filterMap_map]
    refine (List.filterMap_congr fun n hn => ?_).trans List.filterMap_some
    exact sextet_base64Char n (hns n hn)
  -- decoding stops at the padding
  have hskip : (ns.map base64Char ++ List.replicate pads '=').dropWhile
      (fun c => (sextet c).isSome) = List.replicate pads '=' := by
    rw [List.dropWhile_append_of_pos]
    · cases pads with
      | zero => rfl
      | succ pads => rw [List.replicate_succ, List.dropWhile_cons_of_neg (by decide)]
    · intro c hc
      obtain ⟨n, hn, rfl⟩ := List.mem_map.mp hc
      rw [sextet_base64Char n (hns n hn)]
      rfl
  have hnone : (List.replicate pads '=').filterMap sextet = [] := by
    rw [List.filterMap_eq_nil_iff]
    intro c hc
    rw [(List.mem_replicate.mp hc).2]
    exact sextet_pad
  have hclean : ¬ ((List.replicate pads '=').any (· ≠ '=') = true ∨
      2 < (List.replicate pads '=').length) := by
    rw [List.length_replicate, not_or]
    refine ⟨?_, by omega⟩
    simp [List.any_replicate]
  unfold b64decode
  dsimp only
  rw [hskip, if_neg hclean, List.filterMap_append, hsextets, hnone, List.append_nil,
    List.length_replicate, h]

theorem toNat_lt_256 (b : UInt8) : b.toNat < 256 := b.toNat_lt

theorem ofNat_of_eq {b : UInt8} {n : ℕ} (h : n = b.toNat) : UInt8.ofNat n = b := by
  rw [h, UInt8.ofNat_toNat]

/-- What the encoder writes, as sextets. -/
theorem b64encode_sextets (bytes : List UInt8) : ∃ ns pads,
    b64encode bytes = ns.map base64Char ++ List.replicate pads '=' ∧ (∀ n ∈ ns, n < 64) ∧
      pads ≤ 2 ∧ joinSextets ns pads = some bytes := by
  fun_induction b64encode bytes with
  | case1 => exact ⟨[], 0, rfl, nofun, by omega, rfl⟩
  | case2 a =>
      have ha := toNat_lt_256 a
      refine ⟨[a.toNat / 4, a.toNat % 4 * 16], 2, rfl, ?_, by omega, ?_⟩
      · simp only [List.forall_mem_cons, List.not_mem_nil, false_implies, implies_true, and_true]
        omega
      · simp only [joinSextets, if_neg (by omega : ¬ 2 < 2)]
        rw [ofNat_of_eq (b := a) (by omega)]
  | case3 a b =>
      have ha := toNat_lt_256 a
      have hb := toNat_lt_256 b
      refine ⟨[a.toNat / 4, a.toNat % 4 * 16 + b.toNat / 16, b.toNat % 16 * 4], 1, rfl, ?_,
        by omega, ?_⟩
      · simp only [List.forall_mem_cons, List.not_mem_nil, false_implies, implies_true, and_true]
        omega
      · simp only [joinSextets, if_neg (by omega : ¬ 1 < 1)]
        rw [ofNat_of_eq (b := a) (by omega), ofNat_of_eq (b := b) (by omega)]
  | case4 a b c rest ih =>
      have ha := toNat_lt_256 a
      have hb := toNat_lt_256 b
      have hc := toNat_lt_256 c
      obtain ⟨ns, pads, hencode, hns, hpads, hjoin⟩ := ih
      refine ⟨a.toNat / 4 :: (a.toNat % 4 * 16 + b.toNat / 16) ::
        (b.toNat % 16 * 4 + c.toNat / 64) :: (c.toNat % 64) :: ns, pads, ?_, ?_, hpads, ?_⟩
      · rw [hencode]
        rfl
      · simp only [List.forall_mem_cons]
        exact ⟨by omega, by omega, by omega, by omega, hns⟩
      · rw [joinSextets, hjoin, Option.map_some, ofNat_of_eq (b := a) (by omega),
          ofNat_of_eq (b := b) (by omega), ofNat_of_eq (b := c) (by omega)]

/-- **Base64 is read back.** -/
theorem b64decode_b64encode (bytes : List UInt8) :
    b64decode (.str (b64encode bytes)) = .ok bytes := by
  obtain ⟨ns, pads, hencode, hns, hpads, hjoin⟩ := b64encode_sextets bytes
  rw [hencode]
  exact b64decode_of_sextets hns hpads hjoin

/-! ## Floats -/

/-- A conversion to a float gives a double. -/
theorem doubles_toFloat {v : Json} (hv : Doubles v) {x : PyFloat ℚ} (h : toFloat v = .ok x) :
    Doubles (.float x) := by
  have hof : ∀ {negative : Bool} {y : ℚ}, 0 ≤ y → Doubles (.float (toDouble negative y)) := by
    intro negative y hy
    cases hdouble : toDouble negative y with
    | fin z => exact .fin (isDouble_toDouble hy hdouble)
    | posInf => exact .posInf
    | negInf => exact .negInf
    | nan => exact .nan
  cases v with
  | float y =>
      cases h
      exact hv
  | bool b =>
      have hone : toDouble false 1 = .fin 1 := by decide +kernel
      cases h
      cases b with
      | false => exact .fin (isDouble_toDouble le_rfl toDouble_zero)
      | true => exact .fin (isDouble_toDouble zero_le_one hone)
  | int n =>
      have h : floatOfInt n = .ok x := h
      rw [floatOfInt_eq] at h
      dsimp only at h
      split at h
      · next y hy =>
          cases h
          exact .fin (isDouble_toDouble (abs_nonneg _) hy)
      · cases h
  | str s =>
      unfold toFloat at h
      dsimp only at h
      split at h
      · cases h
      · next y hy =>
          cases h
          unfold floatOfText at hy
          obtain ⟨digits, -, hy⟩ := Option.bind_eq_some_iff.mp hy
          dsimp only at hy
          split at hy
          · cases hy
            split
            · exact .negInf
            · exact .posInf
          · split at hy
            · cases hy
              exact .nan
            · -- with a fraction and without
              split at hy <;> split at hy
              · cases hy
              · cases hy
                exact hof (by positivity)
              · cases hy
              · cases hy
                exact hof (by positivity)
  | null => cases h
  | list items => cases h
  | object fields => cases h

/-! ## Recursion levels -/

/-- The same result, unless the levels run out. -/
def Cut {α : Type} (x y : Except Raised α) : Prop := x = .error .recursionError ∨ x = y

section

variable {α β : Type}

theorem Cut.refl (x : Except Raised α) : Cut x x := Or.inr rfl

theorem Cut.bind {x y : Except Raised α} {f g : α → Except Raised β} (h : Cut x y)
    (hfg : ∀ a, Cut (f a) (g a)) : Cut (x >>= f) (y >>= g) := by
  rcases h with rfl | rfl
  · exact Or.inl rfl
  · cases x with
    | error e => exact Or.inr rfl
    | ok a => exact hfg a

theorem Cut.trans {x y z : Except Raised α} (h : Cut x y) (h' : Cut y z) : Cut x z := by
  rcases h with rfl | rfl
  · exact Or.inl rfl
  · exact h'

theorem scanSeparated_cut {item item' : Text → Except Raised (α × Text)}
    (h : ∀ s, Cut (item s) (item' s)) (closing : Char) (bound : ℕ) (s : Text) :
    Cut (scanSeparated item closing bound s) (scanSeparated item' closing bound s) := by
  induction bound generalizing s with
  | zero => exact Cut.refl _
  | succ bound ih =>
      refine (h s).bind fun r => ?_
      obtain ⟨v, rest⟩ := r
      dsimp only
      split
      · exact Cut.refl _
      · split
        · exact Cut.refl _
        · split
          · exact (ih _).bind fun _ => Cut.refl _
          · exact Cut.refl _

variable {value value' : Text → Except Raised (Json × Text)}
  (h : ∀ s, Cut (value s) (value' s))

include h

theorem scanField_cut (s : Text) : Cut (scanField value s) (scanField value' s) := by
  unfold scanField
  split
  · refine (Cut.refl _).bind fun r => ?_
    dsimp only
    split
    · exact (h _).bind fun _ => Cut.refl _
    · exact Cut.refl _
  · exact Cut.refl _

theorem scanList_cut (s : Text) : Cut (scanList value s) (scanList value' s) := by
  unfold scanList
  split
  · exact Cut.refl _
  · exact (scanSeparated_cut h _ _ _).bind fun _ => Cut.refl _

theorem scanObject_cut (s : Text) : Cut (scanObject value s) (scanObject value' s) := by
  unfold scanObject
  split
  · exact Cut.refl _
  · exact (scanSeparated_cut (scanField_cut h) _ _ _).bind fun _ => Cut.refl _

end

theorem scan_cut_succ (levels : ℕ) (s : Text) : Cut (scan levels s) (scan (levels + 1) s) := by
  induction levels generalizing s with
  | zero =>
      unfold scan
      split
      · exact Or.inl rfl
      · exact Or.inl rfl
      · exact Cut.refl _
  | succ levels ih =>
      unfold scan
      split
      · exact scanList_cut ih _
      · exact scanObject_cut ih _
      · exact Cut.refl _

theorem scan_cut {levels levels' : ℕ} (h : levels ≤ levels') (s : Text) :
    Cut (scan levels s) (scan levels' s) := by
  induction h with
  | refl => exact Cut.refl _
  | step _ ih => exact ih.trans (scan_cut_succ _ s)

/-- **Fewer levels** give the same value, or run out. -/
theorem loads_cut {levels levels' : ℕ} (h : levels ≤ levels') (text : Text) :
    Cut (loads levels text) (loads levels' text) := by
  unfold loads
  split
  · exact Cut.refl _
  · exact (scan_cut h _).bind fun _ => Cut.refl _

/-- A written value is read back, unless the reader runs out of levels. -/
theorem loads_dumps_cut {dtoa : Dtoa} {indent : Option ℕ} {levels : ℕ} {v : Json} {text : Text}
    (h : dumps dtoa indent levels v = .ok text) (hv : Doubles v) (levels' : ℕ) :
    Cut (loads levels' text) (.ok v) := by
  have hread := loads_of_dumps h hv (le_refl levels) (List.forall_mem_nil _)
  rw [List.append_nil] at hread
  rcases le_total levels' levels with hle | hle
  · rw [← hread]
    exact loads_cut hle text
  · have := loads_of_dumps h hv hle (List.forall_mem_nil _)
    rw [List.append_nil] at this
    exact Or.inr this

end Json

/-! ## Bodies -/

namespace HttpBody

open Json ResultFile

/-- `json.dumps(value).encode("utf-8")`. -/
def dumpsBody (dtoa : Dtoa) (levels : ℕ) (v : Json) : Except Raised (List UInt8) :=
  (dumps dtoa none levels v).map Utf8.encode

/-- A byte order mark of UTF-32, UTF-16 or UTF-8. -/
def hasBom (bytes : List UInt8) : Bool :=
  [[0x00, 0x00, 0xFE, 0xFF], [0xFF, 0xFE, 0x00, 0x00], [0xFE, 0xFF], [0xFF, 0xFE],
    [0xEF, 0xBB, 0xBF]].any fun mark => mark.isPrefixOf bytes

/-- `detect_encoding(bytes) == "utf-8"`. -/
def detectsUtf8 (bytes : List UInt8) : Bool :=
  !hasBom bytes && match bytes with
    | a :: b :: _ :: _ :: _ => a != 0 && b != 0
    | [a, b] => a != 0 && b != 0
    | _ => true

variable (other : List UInt8 → Option Text)

/-- The text that `json.loads` reads from bytes; `other` is what the other codecs make of them,
`none` a `UnicodeDecodeError`. -/
def bodyText (bytes : List UInt8) : Option Text :=
  (if detectsUtf8 bytes then Utf8.decode bytes else none).or (other bytes)

/-- `json.loads` of bytes. -/
def loadsBody (levels : ℕ) (bytes : List UInt8) : Except Raised Json :=
  match bodyText other bytes with
  | none => .error .valueError
  | some text => loads levels text

/-- The byte of an ASCII character that is not NUL. -/
theorem utf8EncodeChar_of_plain {c : Char} (h : IsPlain c) :
    ∃ b, String.utf8EncodeChar c = [b] ∧ b ≠ 0 ∧ b < 0x80 := by
  have hlow : 0 < c.toNat ∧ c.toNat < 127 := by
    rcases h with rfl | h
    · decide
    · omega
  refine ⟨UInt8.ofNat c.toNat, ?_, ?_, ?_⟩
  · unfold String.utf8EncodeChar
    dsimp only
    exact if_pos (show c.toNat ≤ 0x7f by omega)
  · intro hzero
    have := congrArg UInt8.toNat hzero
    rw [UInt8.toNat_ofNat_of_lt' (Nat.lt_trans hlow.2 (by decide))] at this
    exact hlow.1.ne' this
  · rw [UInt8.lt_iff_toNat_lt, UInt8.toNat_ofNat_of_lt' (Nat.lt_trans hlow.2 (by decide))]
    exact Nat.lt_succ_of_lt hlow.2

theorem encode_of_plain {text : Text} (h : ∀ c ∈ text, IsPlain c) :
    ∀ b ∈ Utf8.encode text, b ≠ 0 ∧ b < 0x80 := by
  intro b hb
  obtain ⟨c, hc, hb⟩ := List.mem_flatMap.mp hb
  obtain ⟨b', hencode, hsmall⟩ := utf8EncodeChar_of_plain (h c hc)
  rw [hencode, List.mem_singleton] at hb
  exact hb ▸ hsmall

/-- Small bytes have no mark, and the first two are not zero. -/
theorem detectsUtf8_of_small {bytes : List UInt8} (h : ∀ b ∈ bytes, b ≠ 0 ∧ b < 0x80) :
    detectsUtf8 bytes = true := by
  have hmark : hasBom bytes = false := by
    cases bytes with
    | nil => rfl
    | cons b rest =>
        obtain ⟨hzero, hlt⟩ := h b List.mem_cons_self
        have hne : ∀ m : UInt8, 0x80 ≤ m → (m == b) = false := by
          intro m hm
          rw [beq_eq_false_iff_ne]
          rintro rfl
          exact absurd hm (UInt8.not_le.mpr hlt)
        have hzero' : ((0 : UInt8) == b) = false := beq_eq_false_iff_ne.mpr (Ne.symm hzero)
        simp only [hasBom, List.any_cons, List.any_nil, List.isPrefixOf, hzero',
          hne 0xFF (by decide), hne 0xFE (by decide), hne 0xEF (by decide), Bool.false_and,
          Bool.or_self]
  unfold detectsUtf8
  rw [hmark]
  split
  · next a b _ _ _ =>
      simp [(h a (by simp)).1, (h b (by simp)).1]
  · next a b =>
      simp [(h a (by simp)).1, (h b (by simp)).1]
  · rfl

/-- The text of a written value is what its bytes are read as. -/
theorem bodyText_encode {text : Text} (h : ∀ c ∈ text, IsPlain c) :
    bodyText other (Utf8.encode text) = some text := by
  unfold bodyText
  rw [detectsUtf8_of_small (encode_of_plain h), if_pos rfl, Utf8.decode_encode]
  rfl

/-- **A body is read back**, unless the reader has fewer levels and runs out of them. -/
theorem loadsBody_dumpsBody {dtoa : Dtoa} {levels : ℕ} {v : Json} {bytes : List UInt8}
    (h : dumpsBody dtoa levels v = .ok bytes) (hv : Doubles v) (levels' : ℕ) :
    ∃ text, bodyText other bytes = some text ∧ Cut (loads levels' text) (.ok v) ∧
      (levels ≤ levels' → loads levels' text = .ok v) := by
  unfold dumpsBody at h
  cases hdumps : dumps dtoa none levels v with
  | error e =>
      rw [hdumps] at h
      cases h
  | ok text =>
      rw [hdumps] at h
      cases h
      refine ⟨text, bodyText_encode other (isPlain_encode hdumps hv),
        loads_dumps_cut hdumps hv levels', fun hle => ?_⟩
      have hread := loads_of_dumps hdumps hv hle (List.forall_mem_nil _)
      rwa [List.append_nil] at hread

/-- What is read from a body is what was written. -/
theorem eq_of_loads {dtoa : Dtoa} {levels levels' : ℕ} {v r : Json} {bytes : List UInt8}
    {text : Text} (h : dumpsBody dtoa levels v = .ok bytes) (hv : Doubles v)
    (hbody : bodyText other bytes = some text) (hload : loads levels' text = .ok r) : r = v := by
  obtain ⟨text', hbody', hcut, -⟩ := loadsBody_dumpsBody other h hv levels'
  rw [hbody'] at hbody
  cases hbody
  rcases hcut with hcut | hcut
  · rw [hcut] at hload
    cases hload
  · rw [hcut] at hload
    exact (Except.ok.inj hload).symm

theorem eq_of_loadsBody {dtoa : Dtoa} {levels levels' : ℕ} {v r : Json} {bytes : List UInt8}
    (h : dumpsBody dtoa levels v = .ok bytes) (hv : Doubles v)
    (hload : loadsBody other levels' bytes = .ok r) : r = v := by
  unfold loadsBody at hload
  split at hload
  · cases hload
  · next hbody => exact eq_of_loads other h hv hbody hload

end HttpBody
