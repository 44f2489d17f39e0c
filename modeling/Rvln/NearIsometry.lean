/-
# Matrices that almost keep lengths

A square matrix whose columns are orthonormal up to a tolerance changes the square of a length
by that tolerance times the dimension, at most.

* `NearIsometry` : every entry of `Aᵀ * A` is within the tolerance of the identity's;
* `NearIsometry.abs_normSq_sub_le` : the squares of the lengths of a vector and its image.
-/
import Mathlib.Algebra.Order.Chebyshev
import Mathlib.Data.Matrix.Mul
import Mathlib.Tactic.Linarith
import Mathlib.Tactic.Ring

open Matrix

variable {n K : Type*} [Fintype n] [Field K]

/-- The square of a length. -/
def normSq (v : n → K) : K := v ⬝ᵥ v

theorem normSq_mulVec (A : Matrix n n K) (v : n → K) :
    normSq (A *ᵥ v) = v ⬝ᵥ ((Aᵀ * A) *ᵥ v) := by
  rw [normSq, ← mulVec_mulVec, dotProduct_mulVec, dotProduct_mulVec, vecMul_transpose,
    dotProduct_mulVec]

theorem normSq_eq_sum (v : n → K) : normSq v = ∑ i, v i ^ 2 := by
  simp only [normSq, dotProduct, sq]

variable [LinearOrder K] [IsStrictOrderedRing K]

theorem normSq_nonneg (v : n → K) : 0 ≤ normSq v := by
  rw [normSq_eq_sum]
  exact Finset.sum_nonneg fun i _ => sq_nonneg (v i)

variable [DecidableEq n]

/-- The columns of a matrix are orthonormal up to a tolerance. -/
def NearIsometry (A : Matrix n n K) (tol : K) : Prop :=
  ∀ i j, |(Aᵀ * A) i j - (1 : Matrix n n K) i j| ≤ tol

namespace NearIsometry

variable {A : Matrix n n K} {tol : K}

/-- **Squares of lengths are almost kept.** -/
theorem abs_normSq_sub_le (h : NearIsometry A tol) (v : n → K) :
    |normSq (A *ᵥ v) - normSq v| ≤ Fintype.card n * tol * normSq v := by
  cases isEmpty_or_nonempty n with
  | inl _ => simp [normSq_eq_sum]
  | inr hne =>
      obtain ⟨i₀⟩ := hne
      have htol : 0 ≤ tol := (abs_nonneg _).trans (h i₀ i₀)
      have hdiff : normSq (A *ᵥ v) - normSq v = ∑ i, v i * ∑ j, (Aᵀ * A - 1) i j * v j := by
        have hone : normSq v = v ⬝ᵥ ((1 : Matrix n n K) *ᵥ v) := by rw [one_mulVec, normSq]
        rw [normSq_mulVec, hone, ← dotProduct_sub, ← sub_mulVec]
        rfl
      have hterm (i : n) : |v i * ∑ j, (Aᵀ * A - 1) i j * v j| ≤ |v i| * (tol * ∑ j, |v j|) := by
        rw [abs_mul]
        apply mul_le_mul_of_nonneg_left _ (abs_nonneg _)
        rw [Finset.mul_sum]
        refine (Finset.abs_sum_le_sum_abs _ _).trans (Finset.sum_le_sum fun j _ => ?_)
        rw [abs_mul]
        exact mul_le_mul_of_nonneg_right (h i j) (abs_nonneg _)
      have hsq : (∑ i, |v i|) ^ 2 ≤ Fintype.card n * normSq v := by
        have := sq_sum_le_card_mul_sum_sq (s := Finset.univ) (f := fun i => |v i|)
        simpa only [sq_abs, Finset.card_univ, normSq_eq_sum] using this
      calc |normSq (A *ᵥ v) - normSq v|
          ≤ ∑ i, |v i * ∑ j, (Aᵀ * A - 1) i j * v j| := by
            rw [hdiff]
            exact Finset.abs_sum_le_sum_abs _ _
        _ ≤ ∑ i, |v i| * (tol * ∑ j, |v j|) := Finset.sum_le_sum fun i _ => hterm i
        _ = tol * (∑ i, |v i|) ^ 2 := by rw [← Finset.sum_mul]; ring
        _ ≤ tol * (Fintype.card n * normSq v) := mul_le_mul_of_nonneg_left hsq htol
        _ = Fintype.card n * tol * normSq v := by ring

end NearIsometry
