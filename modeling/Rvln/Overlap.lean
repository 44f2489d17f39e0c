/-
# Overlaps of intervals

How much of an interval lies in another one, and what the overlaps with the cells of a
partition sum to.

* `share a b c d` : the length of the part of `[c, d]` that lies in `[a, b]`;
* `share_eq_sub` : as a difference of two clamped ends, so that the shares of the cells of
  a partition telescope;
* `sum_share_Ico`, `sum_share_cells` : the shares of unit cells, and of equal cells.
-/
import Mathlib.Algebra.BigOperators.Intervals
import Mathlib.Algebra.Order.Field.Basic
import Mathlib.Tactic.Linarith

namespace Overlap

open Finset

variable {K : Type*} [Field K] [LinearOrder K]

/-- The signed length of what two intervals have in common. -/
def signed (a b c d : K) : K := min b d - max a c

/-- **The share of `[a, b]` in `[c, d]`**: the length of what they have in common. -/
def share (a b c d : K) : K := max 0 (signed a b c d)

/-- A point, moved into an interval. -/
def clamp (a b t : K) : K := max a (min b t)

theorem share_comm (a b c d : K) : share a b c d = share c d a b := by
  rw [share, share, signed, signed, min_comm, max_comm c]

variable [IsStrictOrderedRing K]

/-- What two intervals have in common is positive if each begins before the other ends. -/
theorem signed_pos {a b c d : K} (hab : a < b) (hcd : c < d) (had : a < d) (hcb : c < b) :
    0 < signed a b c d := by
  rw [signed, sub_pos]
  exact max_lt (lt_min hab had) (lt_min hcb hcd)

/-- Intervals one behind the other share nothing. -/
theorem share_eq_zero {a b c d : K} (h : d ≤ a ∨ b ≤ c) : share a b c d = 0 := by
  refine max_eq_left ?_
  rw [signed, sub_nonpos]
  rcases h with h | h
  · exact (min_le_right b d).trans (h.trans (le_max_left a c))
  · exact (min_le_left b d).trans (h.trans (le_max_right a c))

/-- A share is what lies between the two clamped ends. -/
theorem share_eq_sub {a b c d : K} (hab : a ≤ b) (hcd : c ≤ d) :
    share a b c d = clamp a b d - clamp a b c := by
  unfold clamp
  rcases le_total d a with hda | had
  · rw [share_eq_zero (Or.inl hda), max_eq_left ((min_le_right b d).trans hda),
      max_eq_left ((min_le_right b c).trans (hcd.trans hda)), sub_self]
  · rcases le_total b c with hbc | hcb
    · rw [share_eq_zero (Or.inr hbc), min_eq_left (hbc.trans hcd), min_eq_left hbc, sub_self]
    · have hle : max a c ≤ min b d := max_le (le_min hab had) (le_min hcb hcd)
      rw [share, signed, max_eq_right (sub_nonneg.mpr hle), max_eq_right (le_min hab had),
        min_eq_right hcb]

/-! ## Sums of shares -/

/-- **Unit cells**: the shares of an interval in the cells between two bounds around it. -/
theorem sum_share_Ico {a b : K} (hab : a ≤ b) {m n : ℕ} (hm : (m : K) ≤ a) (hn : b ≤ n) :
    ∑ i ∈ Ico m n, share a b (i : K) (i + 1) = b - a := by
  have hmn : m ≤ n := Nat.cast_le.mp (hm.trans (hab.trans hn))
  have hstep : ∀ i ∈ Ico m n,
      share a b (i : K) (i + 1) = clamp a b ((i + 1 : ℕ) : K) - clamp a b (i : K) := by
    intro i _
    rw [share_eq_sub hab (le_add_of_nonneg_right zero_le_one), Nat.cast_add, Nat.cast_one]
  rw [sum_congr rfl hstep, sum_Ico_sub (fun i : ℕ => clamp a b (i : K)) hmn]
  rw [clamp, clamp, min_eq_left hn, max_eq_right hab, max_eq_left ((min_le_right b _).trans hm)]

/-- **Equal cells**: the shares of an interval in the cells of a grid that covers it. -/
theorem sum_share_cells {a b s : K} (hab : a ≤ b) (hs : 0 ≤ s) {n : ℕ} (ha : 0 ≤ a)
    (hb : b ≤ n * s) : ∑ j ∈ range n, share a b (j * s) (j * s + s) = b - a := by
  have hstep : ∀ j ∈ range n,
      share a b (j * s) (j * s + s) =
        clamp a b (((j + 1 : ℕ) : K) * s) - clamp a b ((j : K) * s) := by
    intro j _
    rw [share_eq_sub hab (le_add_of_nonneg_right hs), Nat.cast_add, Nat.cast_one, add_mul, one_mul]
  rw [sum_congr rfl hstep, sum_range_sub (fun j : ℕ => clamp a b ((j : K) * s)), Nat.cast_zero,
    zero_mul]
  rw [clamp, clamp, min_eq_left hb, max_eq_right hab, max_eq_left ((min_le_right b 0).trans ha)]

end Overlap
