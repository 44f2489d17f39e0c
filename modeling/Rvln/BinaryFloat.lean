/-
# Binary floating-point formats

The codes of a binary interchange format without their sign bit: an exponent
field over `width` bits of mantissa, with a bias.  `magnitude` is the number a
code stands for, subnormals included, and `encode` the code of the number nearest
to a given one, ties to even.

* `magnitude_strictMono` : a larger code stands for a larger number;
* `magnitude_encode` : `encode` gives a code of the rounded number;
* `abs_magnitude_encode_sub_le` : the rounding error, relative above the smallest
  normal number and absolute below.

Infinities are the codes with the largest exponent field; a rounding that
overflows gives one of them or a larger code.
-/
import Mathlib.Algebra.Order.Archimedean.Basic
import Mathlib.Algebra.Order.Field.Power
import Mathlib.Algebra.Order.Floor.Ring
import Mathlib.Data.Int.Log
import Mathlib.Tactic.FieldSimp
import Mathlib.Tactic.Linarith
import Mathlib.Tactic.Positivity
import Mathlib.Tactic.Ring

/-! ## Rounding to an integer -/

section

variable {K : Type*} [Field K] [LinearOrder K] [FloorRing K]

/-- The nearest integer, ties to even. -/
def roundEven (x : K) : ℤ :=
  if 2 * Int.fract x < 1 then ⌊x⌋
  else if 1 < 2 * Int.fract x then ⌊x⌋ + 1
  else if Even ⌊x⌋ then ⌊x⌋ else ⌊x⌋ + 1

theorem roundEven_cases (x : K) :
    roundEven x = ⌊x⌋ ∧ 2 * Int.fract x ≤ 1 ∨ roundEven x = ⌊x⌋ + 1 ∧ 1 ≤ 2 * Int.fract x := by
  unfold roundEven
  split
  · next h => exact Or.inl ⟨rfl, h.le⟩
  · next h =>
      rw [not_lt] at h
      split
      · exact Or.inr ⟨rfl, h⟩
      · next h' =>
          rw [not_lt] at h'
          split
          · exact Or.inl ⟨rfl, h'⟩
          · exact Or.inr ⟨rfl, h⟩

variable [IsStrictOrderedRing K]

/-- The nearest integer is at most one half away. -/
theorem abs_roundEven_sub_le (x : K) : |(roundEven x : K) - x| ≤ 1 / 2 := by
  have hfract := Int.self_sub_floor x
  have hnonneg := Int.fract_nonneg x
  have hlt := Int.fract_lt_one x
  rcases roundEven_cases x with ⟨h, hle⟩ | ⟨h, hle⟩
  · rw [h, abs_le]
    constructor <;> linarith
  · rw [h, abs_le]
    push_cast
    constructor <;> linarith

omit [IsStrictOrderedRing K] in
theorem le_roundEven {n : ℤ} {x : K} (h : (n : K) ≤ x) : n ≤ roundEven x := by
  have hfloor := Int.le_floor.mpr h
  rcases roundEven_cases x with ⟨heq, -⟩ | ⟨heq, -⟩ <;> omega

@[simp] theorem roundEven_intCast (n : ℤ) : roundEven (n : K) = n := by
  unfold roundEven
  rw [Int.fract_intCast, Int.floor_intCast, mul_zero]
  exact if_pos one_pos

theorem roundEven_le {n : ℤ} {x : K} (h : x ≤ n) : roundEven x ≤ n := by
  rcases h.lt_or_eq with hlt | rfl
  · have hfloor := Int.floor_lt.mpr hlt
    rcases roundEven_cases x with ⟨heq, -⟩ | ⟨heq, -⟩ <;> omega
  · rcases roundEven_cases (n : K) with ⟨heq, -⟩ | ⟨-, hle⟩
    · rw [heq, Int.floor_intCast]
    · rw [Int.fract_intCast] at hle
      linarith

end

/-! ## Formats -/

/-- The width of the mantissa field, and the bias of the exponent. -/
structure BinaryFloat where
  width : ℕ
  bias : ℤ

namespace BinaryFloat

variable (f : BinaryFloat) {K : Type*} [Field K]

/-- The exponent of the last place of a code. -/
def lastPlace (code : ℕ) : ℤ := max (code / 2 ^ f.width : ℕ) 1 - f.bias - f.width

/-- The mantissa of a code, with the hidden bit. -/
def mantissa (code : ℕ) : ℕ :=
  if code / 2 ^ f.width = 0 then code else 2 ^ f.width + code % 2 ^ f.width

/-- The number a code stands for. -/
def magnitude (K : Type*) [Field K] (code : ℕ) : K := f.mantissa code * 2 ^ f.lastPlace code

/-- A code in its parts, the mantissa with its hidden bit. -/
theorem magnitude_add {k s : ℕ} (hs : s < 2 * 2 ^ f.width) (hk : k = 0 ∨ 2 ^ f.width ≤ s) :
    f.magnitude K (k * 2 ^ f.width + s) = s * 2 ^ ((k : ℤ) + 1 - f.bias - f.width) := by
  have hpos : 0 < 2 ^ f.width := Nat.two_pow_pos _
  rcases Nat.lt_or_ge s (2 ^ f.width) with hlt | hge
  · have hk0 : k = 0 := hk.resolve_right (Nat.not_le.mpr hlt)
    subst hk0
    have hdiv : s / 2 ^ f.width = 0 := Nat.div_eq_of_lt hlt
    simp [magnitude, mantissa, lastPlace, hdiv]
  · have hcode : k * 2 ^ f.width + s = (s - 2 ^ f.width) + (k + 1) * 2 ^ f.width := by
      rw [Nat.add_mul, Nat.one_mul]
      omega
    have hrem : s - 2 ^ f.width < 2 ^ f.width := by omega
    have hdiv : (k * 2 ^ f.width + s) / 2 ^ f.width = k + 1 := by
      rw [hcode, Nat.add_mul_div_right _ _ hpos, Nat.div_eq_of_lt hrem, Nat.zero_add]
    have hmod : (k * 2 ^ f.width + s) % 2 ^ f.width = s - 2 ^ f.width := by
      rw [hcode, Nat.add_mul_mod_self_right, Nat.mod_eq_of_lt hrem]
    have hmantissa : f.mantissa (k * 2 ^ f.width + s) = s := by
      rw [mantissa, if_neg (by omega), hmod]
      omega
    have hlast : f.lastPlace (k * 2 ^ f.width + s) = (k : ℤ) + 1 - f.bias - f.width := by
      rw [lastPlace, hdiv, max_eq_left (by omega)]
      push_cast
      ring
    rw [magnitude, hmantissa, hlast]

/-- The carry into the exponent field is the one of the number. -/
theorem magnitude_carry [LinearOrder K] [IsStrictOrderedRing K] (k : ℕ) :
    f.magnitude K (k * 2 ^ f.width + 2 * 2 ^ f.width) =
      (2 * 2 ^ f.width : ℕ) * 2 ^ ((k : ℤ) + 1 - f.bias - f.width) := by
  have hcode : k * 2 ^ f.width + 2 * 2 ^ f.width = (k + 1) * 2 ^ f.width + 2 ^ f.width := by
    ring
  have hlt : 2 ^ f.width < 2 * 2 ^ f.width := by
    have hpos := Nat.two_pow_pos f.width
    omega
  rw [hcode, magnitude_add f hlt (Or.inr (le_refl _))]
  push_cast
  rw [show (k : ℤ) + 1 + 1 - f.bias - f.width = ((k : ℤ) + 1 - f.bias - f.width) + 1 by ring,
    zpow_add_one₀ two_ne_zero]
  ring

/-- Every code, in its parts. -/
theorem exists_parts (code : ℕ) :
    ∃ k s, code = k * 2 ^ f.width + s ∧ s < 2 * 2 ^ f.width ∧ (k = 0 ∨ 2 ^ f.width ≤ s) := by
  have hpos : 0 < 2 ^ f.width := Nat.two_pow_pos _
  have hdm := Nat.div_add_mod' code (2 ^ f.width)
  have hmod := Nat.mod_lt code hpos
  rcases Nat.eq_zero_or_pos (code / 2 ^ f.width) with h0 | h0
  · refine ⟨0, code, by ring, ?_, Or.inl rfl⟩
    rw [h0] at hdm
    omega
  · obtain ⟨q, hq⟩ := Nat.exists_eq_add_of_lt h0
    refine ⟨q, 2 ^ f.width + code % 2 ^ f.width, ?_, by omega, Or.inr (by omega)⟩
    rw [hq, show 0 + q + 1 = q + 1 by ring, Nat.add_mul, Nat.one_mul] at hdm
    omega

section

variable [LinearOrder K] [IsStrictOrderedRing K]

/-- A code stands for less than the next one. -/
theorem magnitude_lt_succ (code : ℕ) : f.magnitude K code < f.magnitude K (code + 1) := by
  obtain ⟨k, s, rfl, hs, hk⟩ := f.exists_parts code
  have hlast : (0 : K) < 2 ^ ((k : ℤ) + 1 - f.bias - f.width) := by positivity
  have hsucc : f.magnitude K (k * 2 ^ f.width + s + 1) =
      (s + 1 : ℕ) * 2 ^ ((k : ℤ) + 1 - f.bias - f.width) := by
    rcases Nat.lt_or_ge (s + 1) (2 * 2 ^ f.width) with hlt | hge
    · exact f.magnitude_add hlt (hk.imp_right fun h => h.trans (Nat.le_succ s))
    · have heq : s + 1 = 2 * 2 ^ f.width := le_antisymm hs hge
      rw [Nat.add_assoc, heq]
      exact f.magnitude_carry k
  rw [hsucc, f.magnitude_add hs hk]
  exact mul_lt_mul_of_pos_right (Nat.cast_lt.mpr (Nat.lt_succ_self s)) hlast

/-- **Larger codes stand for larger numbers.** -/
theorem magnitude_strictMono : StrictMono (f.magnitude K) :=
  strictMono_nat_of_lt_succ f.magnitude_lt_succ

omit [LinearOrder K] [IsStrictOrderedRing K] in
theorem magnitude_zero : f.magnitude K 0 = 0 := by
  simp [magnitude, mantissa]

theorem magnitude_nonneg (code : ℕ) : 0 ≤ f.magnitude K code := by
  rw [← f.magnitude_zero]
  exact (f.magnitude_strictMono).monotone (Nat.zero_le code)

/-! ## Rounding -/

variable [FloorRing K]

/-- The exponent of a number, not below that of the smallest normal number. -/
def exponent (x : K) : ℤ := if x = 0 then 1 - f.bias else max (Int.log 2 x) (1 - f.bias)

/-- The rounded mantissa of a number. -/
def significand (x : K) : ℕ := (roundEven (x / 2 ^ (f.exponent x - f.width))).toNat

/-- The code of the nearest number. -/
def encode (x : K) : ℕ := (f.exponent x + f.bias - 1).toNat * 2 ^ f.width + f.significand x

/-- The nearest number of the format. -/
def round (x : K) : K := f.significand x * 2 ^ (f.exponent x - f.width)

omit [IsStrictOrderedRing K] in
theorem one_sub_bias_le_exponent (x : K) : 1 - f.bias ≤ f.exponent x := by
  unfold exponent
  split
  · exact le_refl _
  · exact le_max_right _ _

variable {x : K}

theorem significand_le (hx : 0 ≤ x) : f.significand x ≤ 2 * 2 ^ f.width := by
  have hlt : x / 2 ^ (f.exponent x - f.width) ≤ ((2 * 2 ^ f.width : ℕ) : ℤ) := by
    rw [div_le_iff₀ (by positivity)]
    push_cast
    rw [zpow_sub₀ two_ne_zero, zpow_natCast]
    have hpow : x ≤ 2 * 2 ^ f.exponent x := by
      rcases hx.eq_or_lt with rfl | hpos
      · positivity
      · have hlog := Int.lt_zpow_succ_log_self (b := 2) one_lt_two x
        have hle : Int.log 2 x + 1 ≤ f.exponent x + 1 := by
          rw [exponent, if_neg hpos.ne']
          exact Int.add_le_add_right (le_max_left _ _) 1
        have hmono : (2 : K) ^ (Int.log 2 x + 1) ≤ 2 ^ (f.exponent x + 1) :=
          zpow_le_zpow_right₀ one_le_two hle
        rw [zpow_add_one₀ two_ne_zero (f.exponent x)] at hmono
        push_cast at hlog
        linarith
    calc x ≤ 2 * 2 ^ f.exponent x := hpow
      _ = 2 * 2 ^ f.width * (2 ^ f.exponent x / 2 ^ f.width) := by field_simp
  have hround := roundEven_le hlt
  unfold significand
  omega

omit [IsStrictOrderedRing K] in
/-- Above the smallest normal number the exponent is the logarithm. -/
theorem exponent_eq_log (hx : 0 ≤ x) (h : 1 - f.bias < f.exponent x) :
    0 < x ∧ f.exponent x = Int.log 2 x := by
  rcases hx.eq_or_lt with rfl | hpos
  · rw [exponent, if_pos rfl] at h
    exact absurd h (lt_irrefl _)
  · refine ⟨hpos, ?_⟩
    rw [exponent, if_neg hpos.ne'] at h ⊢
    rcases max_choice (Int.log 2 x) (1 - f.bias) with hmax | hmax
    · exact hmax
    · rw [hmax] at h
      exact absurd h (lt_irrefl _)

theorem le_significand (hx : 0 ≤ x) (hexp : 1 - f.bias < f.exponent x) :
    2 ^ f.width ≤ f.significand x := by
  obtain ⟨hpos, hlog⟩ := f.exponent_eq_log hx hexp
  have hge : (((2 ^ f.width : ℕ) : ℤ) : K) ≤ x / 2 ^ (f.exponent x - f.width) := by
    rw [le_div_iff₀ (by positivity)]
    push_cast
    rw [zpow_sub₀ two_ne_zero, zpow_natCast, hlog]
    have hle := Int.zpow_log_le_self (b := 2) one_lt_two hpos
    push_cast at hle
    calc (2 : K) ^ f.width * (2 ^ Int.log 2 x / 2 ^ f.width) = 2 ^ Int.log 2 x := by field_simp
      _ ≤ x := hle
  have hround := le_roundEven hge
  unfold significand
  omega

/-- **The code of a number stands for the rounded number.** -/
theorem magnitude_encode (hx : 0 ≤ x) : f.magnitude K (f.encode x) = f.round x := by
  have hexp := f.one_sub_bias_le_exponent x
  have hk : ((f.exponent x + f.bias - 1).toNat : ℤ) + 1 - f.bias - f.width =
      f.exponent x - f.width := by
    omega
  have hcase : (f.exponent x + f.bias - 1).toNat = 0 ∨ 2 ^ f.width ≤ f.significand x := by
    rcases hexp.eq_or_lt with heq | hlt
    · left
      omega
    · exact Or.inr (f.le_significand hx hlt)
  unfold encode round
  rcases (f.significand_le hx).lt_or_eq with hlt | heq
  · rw [f.magnitude_add hlt hcase, hk]
  · rw [heq, f.magnitude_carry, hk]

/-- The exponent of a number below a power of two. -/
theorem exponent_le {e : ℤ} (he : 1 - f.bias ≤ e) (hx : 0 ≤ x) (hlt : x < 2 ^ (e + 1)) :
    f.exponent x ≤ e := by
  unfold exponent
  split
  · exact he
  · rename_i hne
    have hpos : 0 < x := lt_of_le_of_ne hx (Ne.symm hne)
    have hlog : Int.log 2 x < e + 1 :=
      (Int.lt_zpow_iff_log_lt one_lt_two hpos).mp (by exact_mod_cast hlt)
    exact max_le (by omega) he

/-- The code of a number below a power of two. -/
theorem encode_le {e : ℤ} (he : 1 - f.bias ≤ e) (hx : 0 ≤ x) (hlt : x < 2 ^ (e + 1)) :
    f.encode x ≤ (e + f.bias - 1).toNat * 2 ^ f.width + 2 * 2 ^ f.width := by
  have hexp : (f.exponent x + f.bias - 1).toNat ≤ (e + f.bias - 1).toNat := by
    have hle := f.exponent_le he hx hlt
    omega
  exact Nat.add_le_add (Nat.mul_le_mul_right _ hexp) (f.significand_le hx)

/-- A number with few enough places is not rounded. -/
theorem round_eq_self {m : ℕ} {k : ℤ} (hx : x = m * 2 ^ k) (hk : f.exponent x - f.width ≤ k) :
    f.round x = x := by
  obtain ⟨j, hj⟩ := Int.eq_ofNat_of_zero_le (sub_nonneg.mpr hk)
  have hne : (2 : K) ^ (f.exponent x - f.width) ≠ 0 := zpow_ne_zero _ two_ne_zero
  have hquot : x / 2 ^ (f.exponent x - f.width) = ((m * 2 ^ j : ℕ) : ℤ) := by
    rw [div_eq_iff hne]
    push_cast
    rw [mul_assoc, ← zpow_natCast, ← zpow_add₀ two_ne_zero, ← hj, sub_add_cancel]
    exact hx
  unfold round significand
  rw [hquot, roundEven_intCast, Int.toNat_natCast]
  refine (div_eq_iff hne).mp ?_ |>.symm
  rw [hquot]
  exact Int.cast_natCast _

theorem round_nonneg (hx : 0 ≤ x) : 0 ≤ f.round x := by
  rw [← f.magnitude_encode hx]
  exact f.magnitude_nonneg _

/-- **A rounded number is not rounded again.** -/
theorem round_round (hx : 0 ≤ x) : f.round (f.round x) = f.round x := by
  have hexp := f.one_sub_bias_le_exponent x
  have hscale : (2 : K) ^ f.exponent x = 2 ^ f.width * 2 ^ (f.exponent x - f.width) := by
    rw [zpow_sub₀ two_ne_zero, zpow_natCast]
    field_simp
  rcases (f.significand_le hx).lt_or_eq with hlt | heq
  · refine f.round_eq_self rfl (sub_le_sub_right (f.exponent_le hexp (f.round_nonneg hx) ?_) _)
    have hcast : (f.significand x : K) < 2 * 2 ^ f.width := by exact_mod_cast hlt
    rw [zpow_add_one₀ two_ne_zero, hscale, round]
    calc (f.significand x : K) * 2 ^ (f.exponent x - f.width)
        < 2 * 2 ^ f.width * 2 ^ (f.exponent x - f.width) :=
          mul_lt_mul_of_pos_right hcast (by positivity)
      _ = 2 ^ f.width * 2 ^ (f.exponent x - f.width) * 2 := by ring
  · -- the carry of the mantissa: a power of two
    have hpow : f.round x = 2 ^ (f.exponent x + 1) := by
      rw [zpow_add_one₀ two_ne_zero, hscale, round, heq]
      push_cast
      ring
    have hle : f.exponent (f.round x) ≤ f.exponent x + 1 := by
      refine f.exponent_le (by omega) (f.round_nonneg hx) ?_
      rw [hpow]
      exact zpow_lt_zpow_right₀ one_lt_two (by omega)
    refine f.round_eq_self (m := 2 ^ f.width) (k := f.exponent x + 1 - f.width) ?_ (by omega)
    rw [hpow, zpow_sub₀ two_ne_zero (f.exponent x + 1), zpow_natCast]
    push_cast
    field_simp

theorem encode_round (hx : 0 ≤ x) : f.encode (f.round x) = f.encode x := by
  apply (f.magnitude_strictMono (K := K)).injective
  rw [f.magnitude_encode (f.round_nonneg hx), f.round_round hx, f.magnitude_encode hx]

@[simp] theorem round_zero : f.round (0 : K) = 0 := by
  unfold round significand
  rw [zero_div, ← Int.cast_zero, roundEven_intCast]
  simp

/-- The rounding error is at most half a step. -/
theorem abs_round_sub_le (hx : 0 ≤ x) :
    |f.round x - x| ≤ 2 ^ (f.exponent x - f.width) / 2 := by
  have hstep : (0 : K) < 2 ^ (f.exponent x - f.width) := by positivity
  have hround := abs_roundEven_sub_le (x / 2 ^ (f.exponent x - f.width))
  have hnonneg : 0 ≤ roundEven (x / 2 ^ (f.exponent x - f.width)) := by
    apply le_roundEven
    push_cast
    positivity
  have hcast : (f.significand x : K) = (roundEven (x / 2 ^ (f.exponent x - f.width)) : K) := by
    unfold significand
    rw [← Int.cast_natCast, Int.toNat_of_nonneg hnonneg]
  unfold round
  rw [hcast]
  calc |(roundEven (x / 2 ^ (f.exponent x - f.width)) : K) * 2 ^ (f.exponent x - f.width) - x|
      = |(roundEven (x / 2 ^ (f.exponent x - f.width)) : K) - x / 2 ^ (f.exponent x - f.width)| *
          2 ^ (f.exponent x - f.width) := by
        rw [← abs_of_pos hstep, ← abs_mul, sub_mul, abs_of_pos hstep, div_mul_cancel₀ _ hstep.ne']
    _ ≤ 1 / 2 * 2 ^ (f.exponent x - f.width) := mul_le_mul_of_nonneg_right hround hstep.le
    _ = 2 ^ (f.exponent x - f.width) / 2 := by ring

/-- **The rounding error**, relative for normal numbers and absolute below them. -/
theorem abs_magnitude_encode_sub_le (hx : 0 ≤ x) :
    |f.magnitude K (f.encode x) - x| ≤
      x / (2 * 2 ^ f.width) + 2 ^ (1 - f.bias - f.width) / 2 := by
  rw [f.magnitude_encode hx]
  refine (f.abs_round_sub_le hx).trans ?_
  have hsmall : (0 : K) < 2 ^ (1 - f.bias - f.width) := by positivity
  have hrel : 0 ≤ x / (2 * 2 ^ f.width) := by positivity
  rcases (f.one_sub_bias_le_exponent x).eq_or_lt with heq | hlt
  · rw [← heq]
    linarith
  · obtain ⟨hpos, hlog⟩ := f.exponent_eq_log hx hlt
    have hle := Int.zpow_log_le_self (b := 2) one_lt_two hpos
    push_cast at hle
    have hstep : (2 : K) ^ (f.exponent x - f.width) / 2 ≤ x / (2 * 2 ^ f.width) := by
      rw [hlog, zpow_sub₀ two_ne_zero, zpow_natCast, div_div, mul_comm (2 ^ f.width : K) 2]
      exact div_le_div_of_nonneg_right hle (by positivity)
    linarith

end

end BinaryFloat
