/-
# Rigid motions of the plane

A rigid motion moves a point `z` to `pos + dir * z`: a translation and a direction, composed
from left to right as a body moves, each step in the frame of the steps before it.

* `RigidMotion` : the group of the rigid motions;
* `ofPose` : the motion of a position and a heading, which determines the heading up to
  whole turns (`ofPose_eq_iff`);
* `RunningProduct.running` : the products of the initial parts of a list, in any monoid, and
  the law of splitting the list (`running_append`);
* `RunningProduct.steps` : the factors between consecutive elements of a group, whose product
  leads from the first element to the last (`prod_steps`).
-/
import Mathlib.Algebra.BigOperators.Group.List.Basic
import Mathlib.Analysis.SpecialFunctions.Complex.Circle

/-! ## Running products -/

namespace RunningProduct

variable {M : Type*} [Monoid M]

/-- The products of the initial parts of a list, behind a first factor. -/
def running (a : M) : List M → List M
  | [] => []
  | b :: l => (a * b) :: running (a * b) l

@[simp] theorem length_running (a : M) (l : List M) : (running a l).length = l.length := by
  induction l generalizing a with
  | nil => rfl
  | cons b l ih => exact congrArg Nat.succ (ih (a * b))

/-- The running products of two lists, one behind the other. -/
theorem running_append (a : M) (l m : List M) :
    running a (l ++ m) = running a l ++ running (a * l.prod) m := by
  induction l generalizing a with
  | nil => simp [running]
  | cons b l ih =>
      rw [List.cons_append, running, ih, running, List.prod_cons, mul_assoc]
      rfl

/-- A first factor can be multiplied last. -/
theorem running_eq_map (a : M) (l : List M) : running a l = (running 1 l).map (a * ·) := by
  induction l generalizing a with
  | nil => rfl
  | cons b l ih =>
      rw [running, running, ih (a * b), ih (1 * b), List.map_cons, List.map_map, one_mul]
      congr 1
      refine List.map_congr_left fun c _ => ?_
      exact mul_assoc a b c

/-- **A running product is the product of an initial part.** -/
theorem getElem?_running (a : M) (l : List M) (i : ℕ) :
    (running a l)[i]? = if i < l.length then some (a * (l.take (i + 1)).prod) else none := by
  induction l generalizing a i with
  | nil => rfl
  | cons b l ih =>
      cases i with
      | zero => simp [running]
      | succ i =>
          rw [running, List.getElem?_cons_succ, ih, List.take_succ_cons, List.prod_cons, mul_assoc,
            List.length_cons]
          simp

/-- The last running product is the product of all. -/
theorem getLast?_running (a : M) {l : List M} (h : l ≠ []) :
    (running a l).getLast? = some (a * l.prod) := by
  obtain ⟨l, b, rfl⟩ := (List.eq_nil_or_concat' l).resolve_left h
  rw [running_append, List.prod_append, List.prod_singleton, ← mul_assoc]
  exact List.getLast?_concat

/-! ## Steps -/

section Group

variable {G : Type*} [Group G]

/-- What leads from each element of a list to the next one. -/
def steps (l : List G) : List G := List.zipWith (fun a b => a⁻¹ * b) l l.tail

/-- **The steps telescope**: their product leads from the first element to the last. -/
theorem prod_steps {l : List G} {a b : G} (hhead : l.head? = some a)
    (hlast : l.getLast? = some b) : (steps l).prod = a⁻¹ * b := by
  induction l generalizing a with
  | nil => cases hhead
  | cons c l ih =>
      obtain rfl : c = a := Option.some.inj hhead
      cases l with
      | nil =>
          obtain rfl : c = b := Option.some.inj hlast
          simp [steps]
      | cons d l =>
          have htail : (steps (d :: l)).prod = d⁻¹ * b := ih rfl (by simpa using hlast)
          show (c⁻¹ * d) * (steps (d :: l)).prod = c⁻¹ * b
          rw [htail, mul_assoc, mul_inv_cancel_left]

end Group

end RunningProduct

/-! ## The group -/

/-- A translation and a direction. -/
@[ext] structure RigidMotion where
  pos : ℂ
  dir : Circle

namespace RigidMotion

noncomputable instance : Mul RigidMotion := ⟨fun a b => ⟨a.pos + a.dir * b.pos, a.dir * b.dir⟩⟩

noncomputable instance : One RigidMotion := ⟨⟨0, 1⟩⟩

noncomputable instance : Inv RigidMotion := ⟨fun a => ⟨-((a.dir⁻¹ : Circle) * a.pos), a.dir⁻¹⟩⟩

@[simp] theorem mul_pos (a b : RigidMotion) : (a * b).pos = a.pos + a.dir * b.pos := rfl

@[simp] theorem mul_dir (a b : RigidMotion) : (a * b).dir = a.dir * b.dir := rfl

@[simp] theorem one_pos : (1 : RigidMotion).pos = 0 := rfl

@[simp] theorem one_dir : (1 : RigidMotion).dir = 1 := rfl

@[simp] theorem inv_pos (a : RigidMotion) : a⁻¹.pos = -((a.dir⁻¹ : Circle) * a.pos) := rfl

@[simp] theorem inv_dir (a : RigidMotion) : a⁻¹.dir = a.dir⁻¹ := rfl

noncomputable instance : Group RigidMotion where
  mul_assoc a b c := by
    ext
    · simp [mul_add, add_assoc, mul_assoc]
    · simp [mul_assoc]
  one_mul a := by ext <;> simp
  mul_one a := by ext <;> simp
  inv_mul_cancel a := by ext <;> simp

/-- The directions of motions are multiplied. -/
theorem dir_prod (l : List RigidMotion) : l.prod.dir = (l.map dir).prod := by
  induction l with
  | nil => rfl
  | cons a l ih => rw [List.prod_cons, List.map_cons, List.prod_cons, mul_dir, ih]

/-! ## Positions and headings -/

/-- The motion of a position and a heading. -/
noncomputable def ofPose (x y theta : ℝ) : RigidMotion := ⟨⟨x, y⟩, Circle.exp theta⟩

/-- **A pose determines its position, and its heading up to whole turns.** -/
theorem ofPose_eq_iff {x y theta x' y' theta' : ℝ} :
    ofPose x y theta = ofPose x' y' theta' ↔
      x = x' ∧ y = y' ∧ ∃ k : ℤ, theta = theta' + k * (2 * Real.pi) := by
  rw [RigidMotion.ext_iff, ← Circle.exp_eq_exp]
  constructor
  · rintro ⟨hpos, hdir⟩
    exact ⟨congrArg Complex.re hpos, congrArg Complex.im hpos, hdir⟩
  · rintro ⟨rfl, rfl, hdir⟩
    exact ⟨rfl, hdir⟩

theorem coe_exp (theta : ℝ) :
    (Circle.exp theta : ℂ) = ⟨Real.cos theta, Real.sin theta⟩ := by
  rw [Circle.coe_exp, Complex.exp_mul_I]
  apply Complex.ext <;> simp [Complex.cos_ofReal_re, Complex.sin_ofReal_re]

/-- **The composition in coordinates**: the second position is rotated by the first heading, and
the headings add up. -/
theorem ofPose_mul (x y theta dx dy dtheta : ℝ) :
    ofPose x y theta * ofPose dx dy dtheta =
      ofPose (x + (Real.cos theta * dx - Real.sin theta * dy))
        (y + (Real.sin theta * dx + Real.cos theta * dy)) (theta + dtheta) := by
  ext
  · have hrotate : (Circle.exp theta : ℂ) * ⟨dx, dy⟩ =
        ⟨Real.cos theta * dx - Real.sin theta * dy, Real.sin theta * dx + Real.cos theta * dy⟩ := by
      rw [coe_exp]
      apply Complex.ext <;> simp
      ring
    show (⟨x, y⟩ : ℂ) + (Circle.exp theta : ℂ) * ⟨dx, dy⟩ = _
    rw [hrotate]
    rfl
  · simp [ofPose]

/-- The direction of a sum of headings. -/
theorem exp_sum (l : List ℝ) : Circle.exp l.sum = (l.map Circle.exp).prod := by
  induction l with
  | nil => exact Circle.exp_zero
  | cons theta l ih => rw [List.sum_cons, List.map_cons, List.prod_cons, Circle.exp_add, ih]

/-- The direction of a complex number that is not 0. -/
theorem exp_arg_coe {z : ℂ} (hz : z ≠ 0) : (Circle.exp (Complex.arg z) : ℂ) = z / ‖z‖ := by
  rw [Circle.coe_exp, eq_div_iff (Complex.ofReal_ne_zero.mpr (norm_ne_zero_iff.mpr hz)), mul_comm]
  exact Complex.norm_mul_exp_arg_mul_I z

end RigidMotion
