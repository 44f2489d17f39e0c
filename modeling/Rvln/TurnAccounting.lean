/-
# Turn accounting of the step cycle

Over the reals, with the wrap of an angle to (-pi, pi]: `turn_progress` is the sum of
the wrapped yaw differences of the odometry taken over since the start, as long as the
turn target is set.

* `Winding.total` : the sum of wrapped differences along a list of readings, and
  `Winding.total_eq`: it is the difference of its ends up to whole periods;
* `angleDelta_eq` : `angle_delta` is the wrap;
* `turn_accounting` : the account along every run, how a target can be cleared, and
  the sign of the time steps that `observe` divides by.
-/
import Mathlib.Algebra.Order.ToIntervalMod
import Mathlib.Analysis.SpecialFunctions.Complex.Arg
import Rvln.StepRuns

/-! ## Sums of wrapped differences -/

namespace Winding

variable {R : Type*} [AddCommGroup R] [LinearOrder R] [IsOrderedAddMonoid R] [Archimedean R]
  {p : R} (hp : 0 < p) (a : R)

/-- The sum of the differences between neighbours, newest reading first, each wrapped to
`(a, a + p]`. -/
noncomputable def total : List R → R
  | y :: x :: readings => total (x :: readings) + toIocMod hp a (y - x)
  | _ => 0

theorem total_cons_cons (y x : R) (readings : List R) :
    total hp a (y :: x :: readings) = total hp a (x :: readings) + toIocMod hp a (y - x) := rfl

/-- **The sum telescopes** up to whole periods. -/
theorem total_eq (y : R) (readings : List R) :
    ∃ k : ℤ, total hp a (y :: readings) =
      y - (y :: readings).getLast (List.cons_ne_nil y readings) + k • p := by
  induction readings generalizing y with
  | nil => exact ⟨0, by rw [List.getLast_singleton, sub_self, zero_smul, add_zero]; rfl⟩
  | cons x readings ih =>
      obtain ⟨k, hk⟩ := ih x
      have hwrap : toIocMod hp a (y - x) = y - x - toIocDiv hp a (y - x) • p := rfl
      refine ⟨k - toIocDiv hp a (y - x), ?_⟩
      rw [total_cons_cons, hk, hwrap, List.getLast_cons (List.cons_ne_nil x readings), sub_smul]
      abel

end Winding

namespace StepCycle

/-! ## The wrap of the code -/

/-- `angle_delta` wraps the difference to (-pi, pi]. -/
theorem angleDelta_eq (current previous : ℝ) :
    angleDelta current previous = toIocMod Real.two_pi_pos (-Real.pi) (current - previous) := by
  show Complex.arg ⟨Real.cos (current - previous), Real.sin (current - previous)⟩ = _
  generalize current - previous = angle
  rw [← Complex.arg_cos_add_sin_mul_I_eq_toIocMod]
  congr 1
  apply Complex.ext
  · simp [Complex.cos_ofReal_re]
  · simp [Complex.sin_ofReal_re]

/-- The yaw that a list of poses has turned over. -/
theorem turnedOver_eq (poses : List (Pose ℝ)) :
    turnedOver poses =
      Winding.total Real.two_pi_pos (-Real.pi) (poses.map Pose.yaw) := by
  induction poses with
  | nil => rfl
  | cons pose poses ih =>
      cases poses with
      | nil => rfl
      | cons previous poses =>
          show turnedOver (previous :: poses) + angleDelta pose.yaw previous.yaw =
            Winding.total Real.two_pi_pos (-Real.pi) ((previous :: poses).map Pose.yaw) +
              toIocMod Real.two_pi_pos (-Real.pi) (pose.yaw - previous.yaw)
          rw [ih, angleDelta_eq]

/-! ## The account -/

/-- The time step that `observe` divides by, if it gets as far. -/
def timeStep? {K : Type*} [Field K] (c : StepCycle K) (stampNs : ℤ) : Option K :=
  if stampNs ≤ c.odomNs ∨ c.settling = false ∨ stampNs ≤ max c.stopNs c.settleNotBeforeNs then none
  else c.settlePose.map fun _ => ((stampNs - c.settleStampNs : ℤ) : K) / 10 ^ 9

/-- The state of a turn `a` that is accounted for: the primitive `p` was started last, with
that angle and from the pose `origin`, and `turn_progress` sums up the yaw since. -/
structure Account (s : CycleRun ℝ) (a : ℝ) (p : Primitive ℝ) (origin pose : Pose ℝ) : Prop where
  last : primitive? s.log = some p
  angle : p.action.angle = a
  measured : p.cycle.pose = some origin
  kept : s.cycle.origin = some origin
  latest : s.cycle.pose = some pose
  sum : s.cycle.turnProgress =
    Winding.total Real.two_pi_pos (-Real.pi) (p.poses.map Pose.yaw)
  modulo : ∃ k : ℤ, s.cycle.turnProgress = pose.yaw - origin.yaw + k • (2 * Real.pi)

/-- A call ends the turn `a` by a confirmed standstill near its target. -/
def Completes (c : StepCycle ℝ) (a : ℝ) (call : Call ℝ) : Prop :=
  ∃ pose stampNs nowNs, call = .observe pose stampNs call.now nowNs ∧ c.odomNs < stampNs ∧
    (c.refresh pose stampNs call.now).Standstill pose stampNs ∧
    |(|a| - Trig.copysign 1 a * (c.call call).turnProgress)| ≤ min (Trig.radians 5) (|a| / 3)

/-- A target is cleared by a cancel, a fault, a new start, or a completed turn. -/
def ClearedFor (c : StepCycle ℝ) (a : ℝ) (call : Call ℝ) : Prop :=
  (∃ nowNs now stopped, call = .cancel nowNs now stopped) ∨ (c.call call).fault.isSome ∨
    (c.started? call).isSome ∨ Completes c a call

/-- The last pose behind the odometry is the one that was measured at the start. -/
theorem getLast_poses {p : Primitive ℝ} {origin : Pose ℝ} (h : p.cycle.pose = some origin)
    (hne : p.poses.map Pose.yaw ≠ []) : (p.poses.map Pose.yaw).getLast hne = origin.yaw := by
  have hposes : p.poses.map Pose.yaw = (p.since.filterMap Made.sample?).map Pose.yaw ++
      [origin.yaw] := by
    unfold Primitive.poses
    rw [h, List.map_append]
    rfl
  rw [List.getLast_congr hne (by simp) hposes, List.getLast_append_singleton]

variable {maxV maxW : ℝ} {s : CycleRun ℝ}

/-- The invariant keeps the account of a turn. -/
theorem Follows.account (h : Follows maxV maxW s) {a : ℝ} (ha : s.cycle.turnTarget = some a) :
    ∃ p origin pose, Account s a p origin pose := by
  obtain ⟨p, hp, hpursues⟩ := h.motion (.inr (Option.isSome_iff_exists.mpr ⟨a, ha⟩))
  obtain ⟨origin, horigin⟩ := Option.isSome_iff_exists.mp hpursues.measured
  obtain ⟨pose, poses, hposes⟩ := List.exists_cons_of_ne_nil (p.poses_ne_nil hpursues.measured)
  have hsum : s.cycle.turnProgress =
      Winding.total Real.two_pi_pos (-Real.pi) (p.poses.map Pose.yaw) :=
    hpursues.turned.trans (turnedOver_eq p.poses)
  refine ⟨p, origin, pose, hp, (hpursues.target a ha).symm, horigin,
    hpursues.origin.trans horigin, ?_, hsum, ?_⟩
  · rw [hpursues.pose, hposes]
    rfl
  · have hlast := getLast_poses horigin (by rw [hposes]; exact List.cons_ne_nil _ _)
    obtain ⟨k, hk⟩ := Winding.total_eq Real.two_pi_pos (-Real.pi) pose.yaw (poses.map Pose.yaw)
    refine ⟨k, ?_⟩
    rw [hsum]
    simp only [hposes, List.map_cons] at hlast ⊢
    rw [hk, hlast]

/-- **How a target is cleared**, over one call. -/
theorem clearedFor_call (c : StepCycle ℝ) (call : Call ℝ) {a : ℝ} (ha : c.turnTarget = some a)
    (hnone : (c.call call).turnTarget = none) : ClearedFor c a call := by
  have heffect := effect_call c call
  unfold ClearedFor Completes
  generalize c.call call = c' at heffect hnone ⊢
  cases heffect with
  | kept _ _ hkeep =>
      rw [hkeep.turnTarget, ha] at hnone
      cases hnone
  | dropped _ _ _ hwhy => exact hwhy.imp_right .inl
  | started hstart _ _ => exact .inr (.inr (.inl (by rw [hstart]; rfl)))
  | @sampled pose stampNs nowNs _ _ hnew hcall hrest =>
      refine .inr (.inr (.inr ⟨pose, stampNs, nowNs, hcall, hnew, ?_⟩))
      have htarget : (c.refresh pose stampNs call.now).turnTarget = some a := ha
      cases hrest with
      | waits _ =>
          rw [htarget] at hnone
          cases hnone
      | corrects _ _ =>
          rw [htarget] at hnone
          cases hnone
      | confirms hrest hcorrection =>
          have hnear := near_of_correction hcorrection ha
          exact ⟨hrest, hnear⟩

/-- A window of a stop is older than any odometry still to come. -/
theorem Tracks.timeStep_pos (h : Tracks maxV maxW s) {stampNs : ℤ} {dt : ℝ}
    (hdt : s.cycle.timeStep? stampNs = some dt) : 0 < dt := by
  unfold timeStep? at hdt
  split at hdt
  · cases hdt
  · rename_i hgo
    obtain ⟨hnew, -⟩ := not_or.mp hgo
    obtain ⟨previous, hprevious, rfl⟩ := Option.map_eq_some_iff.mp hdt
    have hold : s.cycle.settleStampNs ≤ s.cycle.odomNs :=
      h.window (Option.isSome_iff_exists.mpr ⟨previous, hprevious⟩)
    have hpos : 0 < stampNs - s.cycle.settleStampNs := by omega
    exact div_pos (Int.cast_pos.mpr hpos) (by positivity)

/-- **Turn accounting**: at the end of every run, the progress of a turn whose target is set
is the yaw turned since its start; a call clears the target only for one of four reasons; and
`observe` divides by positive time steps only. -/
theorem turn_accounting {calls : List (Call ℝ)} (h : (cycleMachine maxV maxW).Run calls s) :
    (∀ a, s.cycle.turnTarget = some a → ∃ p origin pose, Account s a p origin pose) ∧
      (∀ a call, s.cycle.turnTarget = some a → (s.cycle.call call).turnTarget = none →
        ClearedFor s.cycle a call) ∧
      ∀ stampNs dt, s.cycle.timeStep? stampNs = some dt → 0 < dt := by
  have hfollows := follows_invariant.of_run h
  refine ⟨fun a ha => hfollows.account ha, fun a call => clearedFor_call s.cycle call, ?_⟩
  intro stampNs dt hdt
  exact hfollows.toTracks.timeStep_pos hdt

/-- A turn by half a radian, of which a fifth is made. -/
noncomputable def firstTurn : List (Call ℝ) :=
  [.observe ⟨0, 0, 0, 0⟩ 1 0 1, .confirmMotorDisabled 5 0, .start ⟨0, 1 / 2⟩ 0 6,
    .observe ⟨0, 0, 1 / 10, 1⟩ 3 0 7]

/-- The end of the first turn. -/
noncomputable def firstTurned : CycleRun ℝ :=
  (cycleMachine (1 / 10) (35 / 100)).exec ⟨fresh (1 / 10) (35 / 100), []⟩ firstTurn

theorem run_firstTurn : (cycleMachine (1 / 10) (35 / 100)).Run firstTurn firstTurned := by
  have hinit : (cycleMachine (1 / 10 : ℝ) (35 / 100)).Init ⟨fresh (1 / 10) (35 / 100), []⟩ := by
    refine ⟨if_neg ?_, rfl⟩
    unfold TURN_DRIVE_SPEED
    norm_num
  exact Machine.run_of_enabled hinit ⟨trivial, trivial, trivial, trivial, trivial⟩

/-- A turn is engaged on fresh odometry. -/
theorem start_firstTurn {c : StepCycle ℝ} (hstop : c.stopped = false) (hpose : c.pose.isSome)
    (hat : c.odomAt = some 0) : (c.start ⟨0, 1 / 2⟩ 0 6).1 = c.engage ⟨0, 1 / 2⟩ 0 := by
  have hcan : ¬ (c.stopped || c.pose.isNone || c.odomStale 0) = true := by
    unfold odomStale
    rw [hstop, hat, Option.isNone_eq_false_iff.mpr hpose]
    norm_num
  have hturn : ¬ ((⟨0, 1 / 2⟩ : NavidaAction ℝ).distance = 0 ∧
      (⟨0, 1 / 2⟩ : NavidaAction ℝ).angle = 0) := by
    norm_num
  unfold start
  rw [if_neg hcan, if_neg hturn]

/-- The target is set, and the account holds. -/
theorem turn_accounting_first :
    firstTurned.cycle.turnTarget = some (1 / 2) ∧
      ∃ p origin pose, Account firstTurned (1 / 2) p origin pose := by
  have htarget : firstTurned.cycle.turnTarget = some (1 / 2) := by
    show ((StepCycle.start _ ⟨0, 1 / 2⟩ 0 6).1.observe _ 3 0 7).turnTarget = some (1 / 2)
    rw [start_firstTurn rfl rfl rfl]
    norm_num [cycleMachine, call, observe, settle, refresh, engage, fresh, confirmMotorDisabled,
      beginSettling]
  exact ⟨htarget, (turn_accounting run_firstTurn).1 (1 / 2) htarget⟩

end StepCycle
