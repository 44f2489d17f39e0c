/-
# Python floats

The numbers of an ordered field extended with `inf`, `-inf` and `nan`, under the
comparison, `min`, `max` and arithmetic rules of Python and of its `math` module.
Arithmetic on finite numbers is exact: rounding, overflow and the sign of `nan`
are left out.  A `PyFloat` has one zero; where the sign of a zero decides, which is
in `atan2`, a `SignedFloat` keeps it beside the value.

A comparison with `nan` is false, so `min` and `max` keep their first argument
when the second is `nan`; `clip` is what the usual pair of them makes of any
float.
-/
import Rvln.Python
import Rvln.Trig

/-- A Python `float` over the numbers `K`. -/
inductive PyFloat (K : Type*)
  | fin (x : K)
  | posInf
  | negInf
  | nan
  deriving DecidableEq

namespace PyFloat

variable {K : Type*}

/-- `math.isfinite`. -/
def IsFinite : PyFloat K → Prop
  | fin _ => True
  | _ => False

instance : (a : PyFloat K) → Decidable a.IsFinite
  | fin _ => inferInstanceAs (Decidable True)
  | posInf => inferInstanceAs (Decidable False)
  | negInf => inferInstanceAs (Decidable False)
  | nan => inferInstanceAs (Decidable False)

@[simp] theorem isFinite_fin (x : K) : (fin x).IsFinite := trivial

@[simp] theorem not_isFinite_posInf : ¬ (posInf : PyFloat K).IsFinite := id

@[simp] theorem not_isFinite_negInf : ¬ (negInf : PyFloat K).IsFinite := id

@[simp] theorem not_isFinite_nan : ¬ (nan : PyFloat K).IsFinite := id

/-! ## Comparison -/

section Order

variable [LinearOrder K]

/-- `a < b`. -/
def lt : PyFloat K → PyFloat K → Bool
  | fin x, fin y => decide (x < y)
  | fin _, posInf => true
  | negInf, fin _ => true
  | negInf, posInf => true
  | _, _ => false

/-- `a <= b`. -/
def le : PyFloat K → PyFloat K → Bool
  | fin x, fin y => decide (x ≤ y)
  | fin _, posInf => true
  | posInf, posInf => true
  | negInf, fin _ => true
  | negInf, posInf => true
  | negInf, negInf => true
  | _, _ => false

/-- `min(a, b)`. -/
def pyMin (a b : PyFloat K) : PyFloat K := if b.lt a then b else a

/-- `max(a, b)`. -/
def pyMax (a b : PyFloat K) : PyFloat K := if a.lt b then b else a

@[simp] theorem lt_fin (x y : K) : (fin x).lt (fin y) = decide (x < y) := rfl

@[simp] theorem le_fin (x y : K) : (fin x).le (fin y) = decide (x ≤ y) := rfl

/-- What `max(lo, min(hi, a))` makes of `a`: a `nan` ends at the upper bound. -/
def clip (lo hi : K) : PyFloat K → K
  | fin x => max lo (min hi x)
  | posInf => max lo hi
  | negInf => lo
  | nan => max lo hi

/-- **Clamping makes every float finite**, whatever it was before. -/
theorem pyMax_pyMin (lo hi : K) (a : PyFloat K) :
    pyMax (fin lo) (pyMin (fin hi) a) = fin (clip lo hi a) := by
  have hmax : ∀ x y : K, pyMax (fin x) (fin y) = fin (max x y) := by
    intro x y
    by_cases h : x < y
    · simp [pyMax, h, max_eq_right h.le]
    · simp [pyMax, h, max_eq_left (not_lt.mp h)]
  cases a with
  | fin x =>
      by_cases h : x < hi
      · simp [pyMin, h, hmax, clip, min_eq_right h.le]
      · simp [pyMin, h, hmax, clip, min_eq_left (not_lt.mp h)]
  | posInf => exact hmax lo hi
  | negInf => rfl
  | nan => exact hmax lo hi

theorem le_clip (lo hi : K) (a : PyFloat K) : lo ≤ clip lo hi a := by
  cases a with
  | negInf => exact le_rfl
  | fin x => exact le_max_left _ _
  | posInf => exact le_max_left _ _
  | nan => exact le_max_left _ _

theorem clip_le {lo hi : K} (h : lo ≤ hi) (a : PyFloat K) : clip lo hi a ≤ hi := by
  cases a with
  | fin x => exact max_le h (min_le_left hi x)
  | posInf => exact max_le h le_rfl
  | negInf => exact h
  | nan => exact max_le h le_rfl

variable [Zero K]

/-- A clip around zero makes zero of zero only. -/
theorem clip_fin_eq_zero_iff {lo hi x : K} (hlo : lo < 0) (hhi : 0 < hi) :
    clip lo hi (fin x) = 0 ↔ x = 0 := by
  simp only [clip]
  constructor
  · intro h
    rcases le_total (min hi x) lo with hle | hle
    · rw [max_eq_left hle] at h
      exact absurd h hlo.ne
    · rw [max_eq_right hle] at h
      rcases le_total hi x with hx | hx
      · rw [min_eq_left hx] at h
        exact absurd h hhi.ne'
      · rwa [min_eq_right hx] at h
  · rintro rfl
    rw [min_eq_right hhi.le, max_eq_right hlo.le]

/-- A clip from zero on makes zero of what is not positive. -/
theorem clip_zero_fin_eq_zero_iff {hi x : K} (hhi : 0 < hi) :
    clip 0 hi (fin x) = 0 ↔ x ≤ 0 := by
  simp only [clip]
  rw [max_eq_left_iff, min_le_iff, or_iff_right (not_le.mpr hhi)]

end Order

/-! ## Arithmetic -/

section Field

variable [Field K] [LinearOrder K]

/-- `abs(a)`. -/
def abs : PyFloat K → PyFloat K
  | fin x => fin |x|
  | nan => nan
  | _ => posInf

/-- `x * inf`. -/
def infTimes (x : K) : PyFloat K := if x = 0 then nan else if 0 < x then posInf else negInf

/-- `a * b`. -/
def mul : PyFloat K → PyFloat K → PyFloat K
  | fin x, fin y => fin (x * y)
  | nan, _ => nan
  | _, nan => nan
  | fin x, posInf => infTimes x
  | fin x, negInf => infTimes (-x)
  | posInf, fin y => infTimes y
  | negInf, fin y => infTimes (-y)
  | posInf, posInf => posInf
  | negInf, negInf => posInf
  | _, _ => negInf

/-- `a / b`, which raises on a zero divisor. -/
def div : PyFloat K → PyFloat K → Except PyError (PyFloat K)
  | a, fin y => if y = 0 then .error .zeroDivisionError else .ok (a.mul (fin y⁻¹))
  | fin _, posInf => .ok (fin 0)
  | fin _, negInf => .ok (fin 0)
  | _, _ => .ok nan

/-- `math.copysign(magnitude, sign)`. -/
def copysign (magnitude : K) : PyFloat K → K
  | fin y => Trig.copysign magnitude y
  | negInf => -|magnitude|
  | _ => |magnitude|

@[simp] theorem abs_fin (x : K) : (fin x).abs = fin |x| := rfl

@[simp] theorem mul_fin (x y : K) : (fin x).mul (fin y) = fin (x * y) := rfl

theorem div_fin {y : K} (hy : y ≠ 0) (x : K) : (fin x).div (fin y) = .ok (fin (x / y)) := by
  rw [div, if_neg hy, mul_fin, div_eq_mul_inv]

@[simp] theorem div_zero (a : PyFloat K) : a.div (fin 0) = .error .zeroDivisionError := by
  cases a <;> simp [div]

theorem infTimes_pos {x : K} (hx : 0 < x) : infTimes x = posInf := by
  unfold infTimes
  rw [if_neg hx.ne', if_pos hx]

theorem infTimes_neg {x : K} (hx : x < 0) : infTimes x = negInf := by
  unfold infTimes
  rw [if_neg hx.ne, if_neg hx.not_gt]

theorem infTimes_cases {x : K} (hx : x ≠ 0) : infTimes x = posInf ∨ infTimes x = negInf := by
  unfold infTimes
  rw [if_neg hx]
  split
  · exact Or.inl rfl
  · exact Or.inr rfl

/-- A product with a finite number is finite exactly when the other factor is. -/
theorem isFinite_mul_fin (a : PyFloat K) (y : K) : (a.mul (fin y)).IsFinite ↔ a.IsFinite := by
  have hinf : ∀ x : K, ¬ (infTimes x).IsFinite := by
    intro x
    unfold infTimes
    split
    · exact id
    · split <;> exact id
  cases a with
  | fin x => exact iff_of_true trivial trivial
  | posInf => exact iff_of_false (hinf y) id
  | negInf => exact iff_of_false (hinf (-y)) id
  | nan => exact iff_of_false id id

end Field

/-! ## Trigonometry -/

section Trig

variable [Field K] [LinearOrder K] [Trig K]

/-- `math.atan`. -/
def atan : PyFloat K → PyFloat K
  | fin x => fin (Trig.atan x)
  | posInf => fin (Trig.pi / 2)
  | negInf => fin (-(Trig.pi / 2))
  | nan => nan

/-- `math.sin`, which raises on an infinity. -/
def sin : PyFloat K → Except PyError (PyFloat K)
  | fin x => .ok (fin (Trig.sin x))
  | nan => .ok nan
  | _ => .error .valueError

/-- `math.cos`, which raises on an infinity. -/
def cos : PyFloat K → Except PyError (PyFloat K)
  | fin x => .ok (fin (Trig.cos x))
  | nan => .ok nan
  | _ => .error .valueError

/-- `math.atan2(y, x)`, less the signs of zeros. -/
def atan2 : PyFloat K → PyFloat K → PyFloat K
  | nan, _ => nan
  | _, nan => nan
  | fin y, fin x => fin (Trig.atan2 y x)
  | fin _, posInf => fin 0
  | fin y, negInf => fin (Trig.copysign Trig.pi y)
  | posInf, fin _ => fin (Trig.pi / 2)
  | posInf, posInf => fin (Trig.pi / 4)
  | posInf, negInf => fin (3 * Trig.pi / 4)
  | negInf, fin _ => fin (-(Trig.pi / 2))
  | negInf, posInf => fin (-(Trig.pi / 4))
  | negInf, negInf => fin (-(3 * Trig.pi / 4))

end Trig

end PyFloat

/-! ## The sign of a zero -/

/-- A `float` with the sign of its zero. -/
structure SignedFloat (K : Type*) [Zero K] where
  value : PyFloat K
  /-- The value is `-0.0`. -/
  negZero : Bool
  zero_of_negZero : negZero = true → value = .fin 0
  deriving DecidableEq

namespace SignedFloat

open PyFloat

variable {K : Type*}

/-- A float whose zero is `0.0`. -/
def ofFloat [Zero K] (a : PyFloat K) : SignedFloat K :=
  ⟨a, false, fun h => absurd h Bool.false_ne_true⟩

/-- `-0.0`. -/
def minusZero (K : Type*) [Zero K] : SignedFloat K := ⟨.fin 0, true, fun _ => rfl⟩

/-- A number whose zero is `0.0`. -/
def num [Zero K] (x : K) : SignedFloat K := ofFloat (.fin x)

@[simp] theorem num_value [Zero K] (x : K) : (num x).value = .fin x := rfl

@[simp] theorem num_negZero [Zero K] (x : K) : (num x).negZero = false := rfl

variable [Field K] [LinearOrder K]

/-- A float whose zero has the sign that is given. -/
def signed (a : PyFloat K) (negative : Bool) : SignedFloat K where
  value := a
  negZero := negative && decide (a = .fin 0)
  zero_of_negZero h := of_decide_eq_true (Bool.and_eq_true_iff.mp h).2

@[simp] theorem signed_value (a : PyFloat K) (negative : Bool) : (signed a negative).value = a :=
  rfl

/-- The sign bit. -/
def negative (a : SignedFloat K) : Bool :=
  match a.value with
  | fin x => a.negZero || decide (x < 0)
  | negInf => true
  | _ => false

/-- The sign bit of a number. -/
theorem negative_fin {a : SignedFloat K} {x : K} (h : a.value = fin x) :
    a.negative = false ↔ 0 ≤ x ∧ a.negZero = false := by
  unfold negative
  rw [h]
  simp [and_comm]

variable [Trig K]

/-- `math.sin`. -/
def sin (a : SignedFloat K) : Except PyError (SignedFloat K) := do
  let s ← a.value.sin
  return signed s a.negative

/-- `math.cos`. -/
def cos (a : SignedFloat K) : Except PyError (SignedFloat K) := do
  let c ← a.value.cos
  return signed c false

/-- `math.atan2(y, x)`: of a zero `y` the sign bit of `x` decides between zero and half a turn,
and the result has the sign of `y`. -/
def atan2 (y x : SignedFloat K) : SignedFloat K :=
  if y.value = fin 0 ∧ x.value ≠ nan then
    if x.negative then signed (fin (if y.negZero then -Trig.pi else Trig.pi)) y.negZero
    else signed (fin 0) y.negZero
  else signed (y.value.atan2 x.value) y.negative

theorem atan2_of_zero {y x : SignedFloat K} (hy : y.value = fin 0) (hx : x.value ≠ nan) :
    (y.atan2 x).value =
      fin (if x.negative then if y.negZero then -Trig.pi else Trig.pi else 0) := by
  unfold atan2
  rw [if_pos ⟨hy, hx⟩]
  split <;> rfl

theorem atan2_of_ne {y x : SignedFloat K} (h : y.value ≠ fin 0 ∨ x.value = nan) :
    (y.atan2 x).value = y.value.atan2 x.value := by
  unfold atan2
  rw [if_neg (by tauto)]
  rfl

end SignedFloat
