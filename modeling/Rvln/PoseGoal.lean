/-
# Pose goals in the frame of the robot

`_pose_goal_in_base_link` of the edge node turns a goal in the odometry frame into a goal
relative to the robot, and `_goal_to_python` of the inference node reads it.  A position and
a unit quaternion about the vertical axis are a rigid motion of the plane; the quaternion is a
square root of its direction, so it comes with two signs.

`relative_goal_correct` : the motion of the robot, composed with the relative goal, is the
motion of the goal; the inference node reads the relative goal back; and the relative goal
depends only on how the two poses lie to each other.
-/
import Rvln.EdgeNode
import Rvln.RigidMotion

/-! ## The inference node -/

section

variable {R Image Pil : Type*} [Field R] [LinearOrder R] [Trig R]

/-- `_goal_to_python`: the pose, the text and the image for the backend. -/
def goalToPython (decodeImage : Image → Pil) (goal : GoalSpec R Image) :
    Except String (Option (R × R × R) × String × Option Pil) :=
  if goal.mode = GoalSpec.MODE_POSE then
    let q := goal.pose
    let yaw := Trig.atan2 (2 * (q.qw * q.qz + q.qx * q.qy)) (1 - 2 * (q.qy * q.qy + q.qz * q.qz))
    .ok (some (q.x, q.y, yaw), "", none)
  else if goal.mode = GoalSpec.MODE_TEXT then .ok (none, goal.text, none)
  else if goal.mode = GoalSpec.MODE_IMAGE then .ok (none, "", some (decodeImage goal.image))
  else .error s!"unknown goal mode {goal.mode}"

end

namespace PoseGoal

/-! ## Poses and motions -/

/-- A unit quaternion about the vertical axis. -/
structure YawOnly (qx qy qz qw : ℝ) : Prop where
  qx : qx = 0
  qy : qy = 0
  unit : qz ^ 2 + qw ^ 2 = 1

variable {qx qy qz qw : ℝ}

/-- Half of the turn that a quaternion stands for. -/
noncomputable def YawOnly.half (h : YawOnly qx qy qz qw) : Circle :=
  ⟨⟨qw, qz⟩, mem_sphere_zero_iff_norm.mpr (by
    rw [Complex.norm_eq_sqrt_sq_add_sq, add_comm, h.unit, Real.sqrt_one])⟩

/-- The motion of a position and a quaternion. -/
noncomputable def YawOnly.motion (h : YawOnly qx qy qz qw) (x y : ℝ) : RigidMotion :=
  ⟨⟨x, y⟩, h.half * h.half⟩

/-- `_quat_to_yaw` and the inference node take the angle of the whole turn. -/
theorem YawOnly.arg_eq (h : YawOnly qx qy qz qw) :
    Trig.atan2 (2 * (qw * qz + qx * qy)) (1 - 2 * (qy * qy + qz * qz)) =
      Complex.arg ((h.half * h.half : Circle) : ℂ) := by
  have hturn : (⟨1 - 2 * (qy * qy + qz * qz), 2 * (qw * qz + qx * qy)⟩ : ℂ) =
      ((h.half * h.half : Circle) : ℂ) := by
    have hunit := h.unit
    apply Complex.ext
    · show 1 - 2 * (qy * qy + qz * qz) = qw * qw - qz * qz
      rw [h.qy]
      linarith
    · show 2 * (qw * qz + qx * qy) = qw * qz + qz * qw
      rw [h.qy]
      ring
  exact congrArg Complex.arg hturn

theorem YawOnly.quatToYaw_eq (h : YawOnly qx qy qz qw) :
    quatToYaw qx qy qz qw = Complex.arg ((h.half * h.half : Circle) : ℂ) := by
  have hne : ¬ (qx = 0 ∧ qy = 0 ∧ qz = 0 ∧ qw = 0) := by
    rintro ⟨-, -, rfl, rfl⟩
    have hunit := h.unit
    norm_num at hunit
  rw [quatToYaw, if_neg hne]
  exact h.arg_eq

/-- **The motion of a pose** is the one of its position and its yaw. -/
theorem YawOnly.motion_eq (h : YawOnly qx qy qz qw) (x y : ℝ) :
    h.motion x y = RigidMotion.ofPose x y (quatToYaw qx qy qz qw) := by
  rw [motion, RigidMotion.ofPose, h.quatToYaw_eq, Circle.exp_arg]

/-- The quaternion of an angle. -/
theorem yawOnly_of_angle (angle : ℝ) :
    YawOnly 0 0 (Real.sin (angle / 2)) (Real.cos (angle / 2)) :=
  ⟨rfl, rfl, Real.sin_sq_add_cos_sq _⟩

/-- **Half angles**: the quaternion of an angle turns by the angle. -/
theorem motion_of_angle {angle : ℝ}
    (h : YawOnly 0 0 (Real.sin (angle / 2)) (Real.cos (angle / 2))) (x y : ℝ) :
    h.motion x y = RigidMotion.ofPose x y angle := by
  have hhalf : h.half = Circle.exp (angle / 2) := Circle.ext (RigidMotion.coe_exp _).symm
  rw [YawOnly.motion, RigidMotion.ofPose, hhalf, ← Circle.exp_add, add_halves]

/-- A motion determines the quaternion up to its sign. -/
theorem YawOnly.eq_or_eq_neg {qx' qy' qz' qw' x y x' y' : ℝ} (h : YawOnly qx qy qz qw)
    (h' : YawOnly qx' qy' qz' qw') (heq : h'.motion x' y' = h.motion x y) :
    x' = x ∧ y' = y ∧ (qz' = qz ∧ qw' = qw ∨ qz' = -qz ∧ qw' = -qw) := by
  have hpos : (⟨x', y'⟩ : ℂ) = ⟨x, y⟩ := congrArg RigidMotion.pos heq
  have hdir : h'.half * h'.half = h.half * h.half := congrArg RigidMotion.dir heq
  have hsq : (h'.half : ℂ) * h'.half = (h.half : ℂ) * h.half := by
    rw [← Circle.coe_mul, hdir, Circle.coe_mul]
  refine ⟨congrArg Complex.re hpos, congrArg Complex.im hpos, ?_⟩
  rcases mul_self_eq_mul_self_iff.mp hsq with hsame | hneg
  · exact Or.inl ⟨congrArg Complex.im hsame, congrArg Complex.re hsame⟩
  · exact Or.inr ⟨congrArg Complex.im hneg, congrArg Complex.re hneg⟩

/-! ## The relative goal -/

variable {Image Pil Emb Jpeg : Type}

/-- The motion of the robot. -/
noncomputable def odomMotion (odom : Odometry ℝ) (h : YawOnly odom.qx odom.qy odom.qz odom.qw) :
    RigidMotion :=
  h.motion odom.x odom.y

/-- The motion of a goal. -/
noncomputable def goalMotion (goal : GoalPose ℝ) (h : YawOnly goal.qx goal.qy goal.qz goal.qw) :
    RigidMotion :=
  h.motion goal.x goal.y

section

variable (blank : Image) (goal : GoalSpec ℝ Image) (odom : Odometry ℝ)

/-- The quaternion of the relative goal is one of an angle. -/
theorem relative_yawOnly :
    YawOnly (poseGoalInBaseLink blank goal odom).pose.qx
      (poseGoalInBaseLink blank goal odom).pose.qy (poseGoalInBaseLink blank goal odom).pose.qz
      (poseGoalInBaseLink blank goal odom).pose.qw :=
  yawOnly_of_angle _

/-- The motion of the relative goal: the difference, rotated into the frame of the robot, and the
difference of the yaws, wherever it lies. -/
theorem relative_motion_eq :
    goalMotion (poseGoalInBaseLink blank goal odom).pose (relative_yawOnly blank goal odom) =
      RigidMotion.ofPose (poseGoalInBaseLink blank goal odom).pose.x
        (poseGoalInBaseLink blank goal odom).pose.y
        (quatToYaw goal.pose.qx goal.pose.qy goal.pose.qz goal.pose.qw -
          quatToYaw odom.qx odom.qy odom.qz odom.qw) :=
  motion_of_angle _ _ _

/-- **The robot, then the relative goal, is the goal.** -/
theorem odomMotion_mul (hr : YawOnly odom.qx odom.qy odom.qz odom.qw)
    (hg : YawOnly goal.pose.qx goal.pose.qy goal.pose.qz goal.pose.qw) :
    odomMotion odom hr *
        goalMotion (poseGoalInBaseLink blank goal odom).pose (relative_yawOnly blank goal odom) =
      goalMotion goal.pose hg := by
  have hsq := Real.sin_sq_add_cos_sq (quatToYaw odom.qx odom.qy odom.qz odom.qw)
  have hx : (poseGoalInBaseLink blank goal odom).pose.x =
      Real.cos (quatToYaw odom.qx odom.qy odom.qz odom.qw) * (goal.pose.x - odom.x) +
        Real.sin (quatToYaw odom.qx odom.qy odom.qz odom.qw) * (goal.pose.y - odom.y) := rfl
  have hy : (poseGoalInBaseLink blank goal odom).pose.y =
      -Real.sin (quatToYaw odom.qx odom.qy odom.qz odom.qw) * (goal.pose.x - odom.x) +
        Real.cos (quatToYaw odom.qx odom.qy odom.qz odom.qw) * (goal.pose.y - odom.y) := rfl
  rw [relative_motion_eq, odomMotion, goalMotion, hr.motion_eq, hg.motion_eq,
    RigidMotion.ofPose_mul, add_sub_cancel, hx, hy]
  congr 1
  · linear_combination (goal.pose.x - odom.x) * hsq
  · linear_combination (goal.pose.y - odom.y) * hsq

/-- **The inference node reads the relative goal back.** -/
theorem goalToPython_relative (decodeImage : Image → Pil) (hmode : goal.mode = GoalSpec.MODE_POSE) :
    goalToPython decodeImage (poseGoalInBaseLink blank goal odom) =
      .ok (some ((poseGoalInBaseLink blank goal odom).pose.x,
        (poseGoalInBaseLink blank goal odom).pose.y,
        Complex.arg (((relative_yawOnly blank goal odom).half *
          (relative_yawOnly blank goal odom).half : Circle) : ℂ)), "", none) := by
  have hmode' : (poseGoalInBaseLink blank goal odom).mode = GoalSpec.MODE_POSE := hmode
  rw [goalToPython, if_pos hmode', ← (relative_yawOnly blank goal odom).arg_eq]

end

/-- A send of the node leaves its stored goal. -/
theorem sendObservationTick_goal (n : EdgeNode ℝ Image Emb) (params : EdgeParams)
    (env : EdgeNode.SendEnv Image Jpeg) :
    (n.sendObservationTick params env).1.observations.goal = n.observations.goal := by
  rcases n.sendObservationTick_cases params env with h | ⟨obs, observations, h, img, hrec⟩
  · rw [h]
  · obtain ⟨-, -, -, hledger⟩ := ObservationLedger.recordSent_some hrec
    rw [h, hledger]

/-! ## The result -/

/-- **Pose goals are expressed in the frame of the robot.**  For unit quaternions about the
vertical axis, of either sign and any yaw:
the motion of the robot, then the relative goal, is the motion of the goal, its yaw up to whole
turns; the inference node reads position and yaw of the relative goal back; a robot and a goal
that are moved together have the same relative goal, up to the sign of the quaternion; and the
node's goal stays as it is. -/
theorem relative_goal_correct (Emb Jpeg : Type) (blank : Image) (decodeImage : Image → Pil)
    (goal : GoalSpec ℝ Image) (odom : Odometry ℝ)
    (hr : YawOnly odom.qx odom.qy odom.qz odom.qw)
    (hg : YawOnly goal.pose.qx goal.pose.qy goal.pose.qz goal.pose.qw) :
    let relative := (poseGoalInBaseLink blank goal odom).pose
    ∃ h : YawOnly relative.qx relative.qy relative.qz relative.qw,
      odomMotion odom hr * goalMotion relative h = goalMotion goal.pose hg ∧
      (∃ k : ℤ, quatToYaw goal.pose.qx goal.pose.qy goal.pose.qz goal.pose.qw =
        quatToYaw odom.qx odom.qy odom.qz odom.qw +
          quatToYaw relative.qx relative.qy relative.qz relative.qw + k * (2 * Real.pi)) ∧
      (goal.mode = GoalSpec.MODE_POSE → ∃ yaw,
        goalToPython decodeImage (poseGoalInBaseLink blank goal odom) =
          .ok (some (relative.x, relative.y, yaw), "", none) ∧
        RigidMotion.ofPose relative.x relative.y yaw = goalMotion relative h ∧
        ∃ k : ℤ, yaw = quatToYaw goal.pose.qx goal.pose.qy goal.pose.qz goal.pose.qw -
          quatToYaw odom.qx odom.qy odom.qz odom.qw + k * (2 * Real.pi)) ∧
      (∀ (g : RigidMotion) (goal' : GoalSpec ℝ Image) (odom' : Odometry ℝ)
        (hr' : YawOnly odom'.qx odom'.qy odom'.qz odom'.qw)
        (hg' : YawOnly goal'.pose.qx goal'.pose.qy goal'.pose.qz goal'.pose.qw),
        odomMotion odom' hr' = g * odomMotion odom hr →
        goalMotion goal'.pose hg' = g * goalMotion goal.pose hg →
        let relative' := (poseGoalInBaseLink blank goal' odom').pose
        relative'.x = relative.x ∧ relative'.y = relative.y ∧
          (relative'.qz = relative.qz ∧ relative'.qw = relative.qw ∨
            relative'.qz = -relative.qz ∧ relative'.qw = -relative.qw)) ∧
      ∀ (n : EdgeNode ℝ Image Emb) (params : EdgeParams) (env : EdgeNode.SendEnv Image Jpeg),
        (n.sendObservationTick params env).1.observations.goal = n.observations.goal := by
  intro relative
  have hmul := odomMotion_mul blank goal odom hr hg
  refine ⟨relative_yawOnly blank goal odom, hmul, ?_, ?_, ?_, fun n => sendObservationTick_goal n⟩
  · rw [odomMotion, goalMotion, goalMotion, hr.motion_eq, hg.motion_eq, YawOnly.motion_eq,
      RigidMotion.ofPose_mul] at hmul
    exact (RigidMotion.ofPose_eq_iff.mp hmul.symm).2.2
  · intro hmode
    have hread : RigidMotion.ofPose relative.x relative.y
        (Complex.arg (((relative_yawOnly blank goal odom).half *
          (relative_yawOnly blank goal odom).half : Circle) : ℂ)) =
        goalMotion relative (relative_yawOnly blank goal odom) := by
      rw [RigidMotion.ofPose, Circle.exp_arg]
      rfl
    refine ⟨_, goalToPython_relative blank goal odom decodeImage hmode, hread, ?_⟩
    rw [relative_motion_eq] at hread
    exact (RigidMotion.ofPose_eq_iff.mp hread).2.2
  · intro g goal' odom' hr' hg' hodom hgoal
    -- the common motion cancels, and half angles of one motion are equal up to sign
    have hmul' := odomMotion_mul blank goal' odom' hr' hg'
    rw [hgoal, ← hmul, ← mul_assoc, ← hodom] at hmul'
    exact YawOnly.eq_or_eq_neg (relative_yawOnly blank goal odom)
      (relative_yawOnly blank goal' odom') (mul_left_cancel hmul')

/-- A robot at (1, 1), turned by half a turn, with the quaternion of the other sign. -/
def turnedRobot : Odometry ℝ := ⟨1, 1, 0, 0, -1, 0⟩

/-- A goal at (2, 3), straight ahead. -/
def farGoal : GoalSpec ℝ Unit := ⟨GoalSpec.MODE_POSE, ⟨"odom", 2, 3, 0, 0, 0, 1⟩, "", ()⟩

theorem relative_goal_correct_turned :
    ∃ (hr : YawOnly turnedRobot.qx turnedRobot.qy turnedRobot.qz turnedRobot.qw)
      (hg : YawOnly farGoal.pose.qx farGoal.pose.qy farGoal.pose.qz farGoal.pose.qw)
      (h : _), odomMotion turnedRobot hr *
        goalMotion (poseGoalInBaseLink () farGoal turnedRobot).pose h =
          goalMotion farGoal.pose hg := by
  have hr : YawOnly turnedRobot.qx turnedRobot.qy turnedRobot.qz turnedRobot.qw :=
    ⟨rfl, rfl, by norm_num [turnedRobot]⟩
  have hg : YawOnly farGoal.pose.qx farGoal.pose.qy farGoal.pose.qz farGoal.pose.qw :=
    ⟨rfl, rfl, by norm_num [farGoal]⟩
  obtain ⟨h, hmul, -⟩ := relative_goal_correct Unit Unit () (fun _ => ()) farGoal
    turnedRobot hr hg
  exact ⟨hr, hg, h, hmul⟩

end PoseGoal
