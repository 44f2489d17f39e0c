/-
# The accumulated deltas of the AsyncVLA adapter

`_delta_to_pose_np` of `asyncvla.py` turns a batch of deltas `(dx, dy, c, s)` into poses
`(x, y, cos, sin)`: it keeps position and angle of every batch entry, an angle that is
recovered with `arctan2` and expanded again with `cos` and `sin`.

`delta_to_pose_is_composition` : over the reals, the rows of an entry are the running products
of the rigid motions of its deltas; so a sequence may be split anywhere, and an entry depends on
its own deltas only.

An array of shape `(N, T, 4)` is the list of its `T` columns, each with a delta for every
entry.
-/
import Rvln.RigidMotion
import Rvln.Trig

namespace DeltaPose

/-! ## The function -/

/-- A delta `(dx, dy, c, s)`. -/
structure Delta (R : Type*) where
  dx : R
  dy : R
  c : R
  s : R

/-- A row `(x, y, cos, sin)`. -/
@[ext] structure PoseRow (R : Type*) where
  x : R
  y : R
  cos : R
  sin : R

section

variable {R : Type*} [Field R] [Trig R] {N : ℕ}

/-- `dtheta`. -/
def dtheta (delta : Fin N → Delta R) : Fin N → R := fun n => Trig.atan2 (delta n).s (delta n).c

/-- What is written to `poses[:, t]`. -/
def row (x y theta : Fin N → R) : Fin N → PoseRow R :=
  fun n => ⟨x n, y n, Trig.cos (theta n), Trig.sin (theta n)⟩

/-- The loop of `_delta_to_pose_np`, over the columns that are left. -/
def loop (x y theta : Fin N → R) : List (Fin N → Delta R) → List (Fin N → PoseRow R)
  | [] => []
  | delta :: deltas =>
      let ct := fun n => Trig.cos (theta n)
      let st := fun n => Trig.sin (theta n)
      let dxW := fun n => ct n * (delta n).dx - st n * (delta n).dy
      let dyW := fun n => st n * (delta n).dx + ct n * (delta n).dy
      let x' := fun n => x n + dxW n
      let y' := fun n => y n + dyW n
      let theta' := fun n => theta n + dtheta delta n
      row x' y' theta' :: loop x' y' theta' deltas

/-- `_delta_to_pose_np`; without a column `dx[:, 0]` is out of range. -/
def deltaToPoseNp : List (Fin N → Delta R) → Option (List (Fin N → PoseRow R))
  | [] => none
  | delta :: deltas =>
      let x := fun n => (delta n).dx
      let y := fun n => (delta n).dy
      let theta := dtheta delta
      some (row x y theta :: loop x y theta deltas)

end

/-! ## The motions -/

open RunningProduct (running length_running running_append running_eq_map getElem?_running
  getLast?_running)

/-- The motion of a delta: its step, and the direction of `(c, s)`. -/
noncomputable def motion (delta : Delta ℝ) : RigidMotion :=
  RigidMotion.ofPose delta.dx delta.dy (Complex.arg ⟨delta.c, delta.s⟩)

/-- A motion, written as a row. -/
noncomputable def rowOf (m : RigidMotion) : PoseRow ℝ :=
  ⟨m.pos.re, m.pos.im, (m.dir : ℂ).re, (m.dir : ℂ).im⟩

/-- The pose `b`, seen from the frame that `a` is given in, when it is given in the frame of
`a`. -/
def compose (a b : PoseRow ℝ) : PoseRow ℝ where
  x := a.x + (a.cos * b.x - a.sin * b.y)
  y := a.y + (a.sin * b.x + a.cos * b.y)
  cos := a.cos * b.cos - a.sin * b.sin
  sin := a.sin * b.cos + a.cos * b.sin

/-- The direction is the one of `(c, s)`, normalized. -/
theorem motion_dir {delta : Delta ℝ} (h : (⟨delta.c, delta.s⟩ : ℂ) ≠ 0) :
    ((motion delta).dir : ℂ) = ⟨delta.c, delta.s⟩ / ‖(⟨delta.c, delta.s⟩ : ℂ)‖ :=
  RigidMotion.exp_arg_coe h

theorem rowOf_mul (a b : RigidMotion) : rowOf (a * b) = compose (rowOf a) (rowOf b) := by
  ext
  · simp [rowOf, compose]
  · simp [rowOf, compose]
    ring
  · simp [rowOf, compose]
  · simp [rowOf, compose]
    ring

theorem rowOf_cos_sq_add_sin_sq (m : RigidMotion) : (rowOf m).cos ^ 2 + (rowOf m).sin ^ 2 = 1 := by
  have hnorm := Circle.normSq_coe m.dir
  rw [Complex.normSq_apply] at hnorm
  rw [sq, sq]
  exact hnorm

theorem rowOf_ofPose (x y theta : ℝ) :
    rowOf (RigidMotion.ofPose x y theta) = ⟨x, y, Real.cos theta, Real.sin theta⟩ := by
  rw [rowOf, RigidMotion.ofPose, RigidMotion.coe_exp]

/-! ## The loop -/

variable {N : ℕ}

/-- **The loop composes**: behind a pose, the rows of an entry are the running products of its
motions. -/
theorem loop_eq (x y theta : Fin N → ℝ) (deltas : List (Fin N → Delta ℝ)) (n : Fin N) :
    (loop x y theta deltas).map (fun poses => poses n) =
      (running (RigidMotion.ofPose (x n) (y n) (theta n))
        (deltas.map fun delta => motion (delta n))).map rowOf := by
  induction deltas generalizing x y theta with
  | nil => rfl
  | cons delta deltas ih =>
      rw [loop, List.map_cons, ih, List.map_cons, running, List.map_cons, motion,
        RigidMotion.ofPose_mul, rowOf_ofPose]
      rfl

theorem length_loop (x y theta : Fin N → ℝ) (deltas : List (Fin N → Delta ℝ)) :
    (loop x y theta deltas).length = deltas.length := by
  induction deltas generalizing x y theta with
  | nil => rfl
  | cons delta deltas ih => exact congrArg Nat.succ (ih _ _ _)

/-- **The rows of an entry** are the running products of its motions. -/
theorem deltaToPoseNp_eq {deltas : List (Fin N → Delta ℝ)} (hne : deltas ≠ []) :
    ∃ poses, deltaToPoseNp deltas = some poses ∧ poses.length = deltas.length ∧ ∀ n,
      poses.map (fun pose => pose n) =
        (running 1 (deltas.map fun delta => motion (delta n))).map rowOf := by
  cases deltas with
  | nil => exact absurd rfl hne
  | cons delta deltas =>
      refine ⟨_, rfl, congrArg Nat.succ (length_loop _ _ _ deltas), ?_⟩
      intro n
      rw [List.map_cons, loop_eq, List.map_cons, running, List.map_cons, one_mul, motion,
        rowOf_ofPose]
      rfl

/-- Columns are equal if all their entries are. -/
theorem eq_of_map_eq {α : Type*} {l m : List (Fin N → α)} (hlen : l.length = m.length)
    (h : ∀ n, l.map (fun a => a n) = m.map fun a => a n) : l = m := by
  induction l generalizing m with
  | nil => exact (List.length_eq_zero_iff.mp hlen.symm).symm
  | cons a l ih =>
      cases m with
      | nil => cases hlen
      | cons b m =>
          have hhead : a = b := funext fun n => (List.cons.inj (h n)).1
          have htail : l = m := ih (Nat.succ.inj hlen) fun n => (List.cons.inj (h n)).2
          rw [hhead, htail]

/-- **Splitting**: the rows of the second part stand behind the last row of the first. -/
theorem deltaToPoseNp_append {first second : List (Fin N → Delta ℝ)} (hfirst : first ≠ [])
    (hsecond : second ≠ []) {poses : List (Fin N → PoseRow ℝ)}
    (hposes : deltaToPoseNp (first ++ second) = some poses) :
    ∃ posesFirst posesSecond last, deltaToPoseNp first = some posesFirst ∧
      deltaToPoseNp second = some posesSecond ∧ posesFirst.getLast? = some last ∧
      poses = posesFirst ++ posesSecond.map fun pose n => compose (last n) (pose n) := by
  obtain ⟨posesFirst, hposesFirst, hlenFirst, hrowsFirst⟩ := deltaToPoseNp_eq hfirst
  obtain ⟨posesSecond, hposesSecond, hlenSecond, hrowsSecond⟩ := deltaToPoseNp_eq hsecond
  have hboth : first ++ second ≠ [] := List.append_ne_nil_of_left_ne_nil hfirst second
  obtain ⟨poses', hposes', hlen, hrows⟩ := deltaToPoseNp_eq hboth
  obtain rfl : poses' = poses := Option.some.inj (hposes'.symm.trans hposes)
  have hne : posesFirst ≠ [] := by
    rintro rfl
    exact hfirst (List.length_eq_zero_iff.mp hlenFirst.symm)
  -- the first part ends at the product of its motions
  have hlast : ∀ n, (posesFirst.getLast hne) n =
      rowOf (first.map fun delta => motion (delta n)).prod := by
    intro n
    have hmap : (posesFirst.map fun pose => pose n).getLast? =
        some (rowOf (first.map fun delta => motion (delta n)).prod) := by
      rw [hrowsFirst, List.getLast?_map, getLast?_running 1 (by simpa using hfirst), one_mul]
      rfl
    rw [List.getLast?_map, List.getLast?_eq_getLast_of_ne_nil hne] at hmap
    exact Option.some.inj hmap
  refine ⟨posesFirst, posesSecond, posesFirst.getLast hne, hposesFirst, hposesSecond,
    List.getLast?_eq_getLast_of_ne_nil hne, ?_⟩
  refine eq_of_map_eq ?_ ?_
  · rw [hlen, List.length_append, List.length_append, List.length_map, hlenFirst, hlenSecond]
  · intro n
    -- composing behind that row is multiplying by that product
    have hcompose : rowOf ∘ ((first.map fun delta => motion (delta n)).prod * ·) =
        compose (posesFirst.getLast hne n) ∘ rowOf := by
      funext m
      rw [Function.comp_apply, Function.comp_apply, rowOf_mul, hlast]
    have hbehind : (running (first.map fun delta => motion (delta n)).prod
          (second.map fun delta => motion (delta n))).map rowOf =
        (posesSecond.map fun pose n => compose (posesFirst.getLast hne n) (pose n)).map
          fun pose => pose n := by
      rw [running_eq_map, List.map_map, hcompose, ← List.map_map, ← hrowsSecond n, List.map_map,
        List.map_map]
      rfl
    rw [hrows, List.map_append, List.map_append, running_append, List.map_append, hrowsFirst,
      one_mul, hbehind]

/-- **An entry depends on its own deltas.** -/
theorem deltaToPoseNp_entry {N' : ℕ} {deltas : List (Fin N → Delta ℝ)}
    {deltas' : List (Fin N' → Delta ℝ)} {poses : List (Fin N → PoseRow ℝ)}
    {poses' : List (Fin N' → PoseRow ℝ)} (hposes : deltaToPoseNp deltas = some poses)
    (hposes' : deltaToPoseNp deltas' = some poses') {n : Fin N} {n' : Fin N'}
    (h : deltas'.map (fun delta => delta n') = deltas.map fun delta => delta n) :
    poses'.map (fun pose => pose n') = poses.map fun pose => pose n := by
  have hne : deltas ≠ [] := by
    rintro rfl
    cases hposes
  have hne' : deltas' ≠ [] := by
    rintro rfl
    cases hposes'
  obtain ⟨_, heq, -, hrows⟩ := deltaToPoseNp_eq hne
  obtain ⟨_, heq', -, hrows'⟩ := deltaToPoseNp_eq hne'
  obtain rfl := Option.some.inj (heq.symm.trans hposes)
  obtain rfl := Option.some.inj (heq'.symm.trans hposes')
  have hmotions : deltas'.map (fun delta => motion (delta n')) =
      deltas.map fun delta => motion (delta n) := by
    have hmap := congrArg (List.map motion) h
    rwa [List.map_map, List.map_map] at hmap
  rw [hrows, hrows', hmotions]

/-! ## The result -/

/-- **Accumulating deltas is composing rigid motions.**  For every batch with a column, of
deltas whose `(c, s)` are not both zero: row `t` of an entry is the product of the motions of its
deltas up to `t`, and its `cos` and `sin` are on the unit circle; the rows of a sequence in two
parts are the rows of the first part, then those of the second behind the last of the first; and
an entry does not depend on the other entries, nor on how many there are. -/
theorem delta_to_pose_is_composition {deltas : List (Fin N → Delta ℝ)} (hne : deltas ≠ [])
    (hdir : ∀ delta ∈ deltas, ∀ n, ¬ ((delta n).c = 0 ∧ (delta n).s = 0)) :
    (∀ delta ∈ deltas, ∀ n, ((motion (delta n)).dir : ℂ) =
      ⟨(delta n).c, (delta n).s⟩ / ‖(⟨(delta n).c, (delta n).s⟩ : ℂ)‖) ∧
    ∃ poses, deltaToPoseNp deltas = some poses ∧ poses.length = deltas.length ∧
      (∀ n, ∀ t < deltas.length, ∃ pose, poses[t]? = some pose ∧
        pose n = rowOf ((deltas.map fun delta => motion (delta n)).take (t + 1)).prod ∧
        (pose n).cos ^ 2 + (pose n).sin ^ 2 = 1) ∧
      (∀ first second, deltas = first ++ second → first ≠ [] → second ≠ [] →
        ∃ posesFirst posesSecond last, deltaToPoseNp first = some posesFirst ∧
          deltaToPoseNp second = some posesSecond ∧ posesFirst.getLast? = some last ∧
          poses = posesFirst ++
            posesSecond.map fun pose n => compose (last n) (pose n)) ∧
      ∀ (N' : ℕ) (deltas' : List (Fin N' → Delta ℝ)) (poses' : List (Fin N' → PoseRow ℝ)),
        deltaToPoseNp deltas' = some poses' → ∀ n n',
          deltas'.map (fun delta => delta n') = deltas.map (fun delta => delta n) →
          poses'.map (fun pose => pose n') = poses.map fun pose => pose n := by
  constructor
  · intro delta hdelta n
    refine motion_dir fun hzero => hdir delta hdelta n ?_
    exact ⟨congrArg Complex.re hzero, congrArg Complex.im hzero⟩
  · obtain ⟨poses, hposes, hlen, hrows⟩ := deltaToPoseNp_eq hne
    refine ⟨poses, hposes, hlen, ?_, ?_, ?_⟩
    · intro n t ht
      have hlt : t < poses.length := by omega
      have hget : (poses.map fun pose => pose n)[t]? =
          some (rowOf ((deltas.map fun delta => motion (delta n)).take (t + 1)).prod) := by
        rw [hrows, List.getElem?_map, getElem?_running, List.length_map, if_pos ht, one_mul]
        rfl
      rw [List.getElem?_map, List.getElem?_eq_getElem hlt] at hget
      have hrow : poses[t] n =
          rowOf ((deltas.map fun delta => motion (delta n)).take (t + 1)).prod :=
        Option.some.inj hget
      refine ⟨_, List.getElem?_eq_getElem hlt, hrow, ?_⟩
      rw [hrow]
      exact rowOf_cos_sq_add_sin_sq _
    · rintro first second rfl hfirst hsecond
      exact deltaToPoseNp_append hfirst hsecond hposes
    · exact fun N' deltas' poses' hposes' n n' h => deltaToPoseNp_entry hposes hposes' h

/-- A turn to the left on the spot, then a step ahead whose direction is not normalized. -/
def turnAndStep : List (Fin 1 → Delta ℝ) := [fun _ => ⟨0, 0, 0, 1⟩, fun _ => ⟨1, 0, 2, 0⟩]

theorem delta_to_pose_is_composition_turn :
    ∃ poses, deltaToPoseNp turnAndStep = some poses ∧ poses.length = 2 := by
  have hdir : ∀ delta ∈ turnAndStep, ∀ n, ¬ ((delta n).c = 0 ∧ (delta n).s = 0) := by
    intro delta hdelta n
    rcases List.mem_cons.mp hdelta with rfl | hdelta
    · exact fun h => one_ne_zero h.2
    · rw [List.mem_singleton.mp hdelta]
      exact fun h => two_ne_zero h.1
  obtain ⟨-, poses, hposes, hlen, -⟩ :=
    delta_to_pose_is_composition (List.cons_ne_nil _ _) hdir
  exact ⟨poses, hposes, hlen⟩

end DeltaPose
