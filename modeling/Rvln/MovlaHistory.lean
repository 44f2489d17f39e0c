/-
# The motion history of the MoVLA backend

`backends/movla.py` keeps the newest measured poses of the robot in a bounded deque and turns
them into the input `history` of the policy: stationary rows, then the relative motions of
consecutive poses, written at negative indices.

`motion_history` : after any calls the rows are those of the poses accepted since the last
warmup, their composition is the newest retained pose in the frame of the oldest one, and the
yaw of the status line is the sum of their yaws up to whole turns; and a rejected pose changes
nothing.

The policy, the images and the formatted numbers are parameters; the policy may raise.
-/
import Rvln.DeltaPose
import Rvln.PyFloat
import Rvln.Window

namespace Movla

open DeltaPose (PoseRow rowOf compose rowOf_mul rowOf_ofPose)

variable {R Image V : Type*}

/-! ## Data -/

/-- A measured pose, or a waypoint. -/
structure Pose (R : Type*) where
  x : R
  y : R
  a : R

/-- `NavBatch`, without the inputs that never change. -/
structure NavBatch (R Image : Type*) where
  images : List Image
  instruction : String
  statusLine : String
  subgoalLine : String
  history : List (PoseRow R)
  velocity : R × R

/-- What the backend is built on. -/
structure Lib (R Image V : Type*) where
  /-- `float`. -/
  float : V → Except String (PyFloat R)
  /-- `format(x, "+.0f")`. -/
  signed0f : R → String
  /-- `format(x, ".2f")`. -/
  fixed2f : R → String
  /-- `convert("RGB")`. -/
  convertRgb : Image → Image
  /-- A copy that went through `thumbnail`. -/
  thumbnail : ℕ → Image → Image
  /-- The image of `warmup`. -/
  gray : Image
  /-- `predict_chunk`; `none` is an exception. -/
  predictChunk : NavBatch R Image → Option (List (Pose R))

/-- The state of `MovlaBackend`. -/
structure MovlaBackend (R Image : Type*) where
  contextSize : ℕ
  contextFrames : ℕ
  historyLen : ℕ
  past : List Image
  poses : List (Pose R)
  velocity : R × R
  motionHistoryM : R
  warnedGoal : Bool

/-- What `infer` returns, without the time it took. -/
structure Reply (R : Type*) where
  embedding : List (PoseRow R)
  motionHistorySamples : ℕ
  motionVelocity : R × R
  motionHistoryM : R

/-- `_DEFAULT_INSTRUCTION`. -/
def defaultInstruction : String := "go straight ahead"

/-! ## Measured states -/

/-- One number of a motion state. -/
def measured (lib : Lib R Image V) (x : V) : Except String R := do
  match ← lib.float x with
  | .fin x => return x
  | _ => .error "nonfinite MoVLA motion state"

/-- The checks of `set_motion_state`. -/
def motionState (lib : Lib R Image V) (pose velocity : List V) :
    Except String (Pose R × R × R) :=
  match pose, velocity with
  | [x, y, a], [v, w] => do
      let x ← measured lib x
      let y ← measured lib y
      let a ← measured lib a
      let v ← measured lib v
      let w ← measured lib w
      return (⟨x, y, a⟩, v, w)
  | _, _ => .error "invalid MoVLA motion state shape"

/-! ## The history -/

section

variable [Field R] [Trig R]

/-- `_status_line`. -/
def statusLine [LinearOrder R] (lib : Lib R Image V) (cumYawDeg vMps : R) : String :=
  let turning :=
    if 20 < cumYawDeg then "turning left"
    else if cumYawDeg < -20 then "turning right"
    else "going straight"
  let cumulative := lib.signed0f cumYawDeg
  let speed := lib.fixed2f vMps
  s!"Status: {turning} (recent cumulative {cumulative}deg), v={speed}m/s"

/-- `_chunk_to_embedding`. -/
def chunkToEmbedding (waypoints : List (Pose R)) : List (PoseRow R) :=
  waypoints.map fun wp => ⟨wp.x, wp.y, Trig.cos wp.a, Trig.sin wp.a⟩

/-- The stationary padding `(dx, dy, cos(dyaw), sin(dyaw))`. -/
def stationary : PoseRow R := ⟨0, 0, 1, 0⟩

/-- The row of two consecutive poses. -/
def relativeRow (p q : Pose R) : PoseRow R :=
  let dx := q.x - p.x
  let dy := q.y - p.y
  let c := Trig.cos p.a
  let s := Trig.sin p.a
  let da := Trig.atan2 (Trig.sin (q.a - p.a)) (Trig.cos (q.a - p.a))
  ⟨c * dx + s * dy, -s * dx + c * dy, Trig.cos da, Trig.sin da⟩

/-- `rows[index] = row`, where a negative index counts from the end. -/
def setItem {α : Type*} (rows : List α) (index : ℤ) (row : α) : Option (List α) :=
  let i := if index < 0 then index + rows.length else index
  if 0 ≤ i ∧ i < rows.length then some (rows.set i.toNat row) else none

/-- The body of the loop of `_build_batch`. -/
def writeRow (poses : List (Pose R)) (history : List (PoseRow R)) (i : ℕ) :
    Option (List (PoseRow R)) := do
  let p ← poses[i - 1]?
  let q ← poses[i]?
  setItem history (-((poses.length : ℤ) - i)) (relativeRow p q)

/-- The loop of `_build_batch`. -/
def buildHistory (historyLen : ℕ) (poses : List (Pose R)) : Option (List (PoseRow R)) :=
  (List.range' 1 (poses.length - 1)).foldlM (writeRow poses) (List.replicate historyLen stationary)

/-- `cum_yaw`. -/
def cumYaw (poses : List (Pose R)) : R :=
  let yawDelta :=
    match poses.head?, poses.getLast? with
    | some oldest, some newest => newest.a - oldest.a
    | _, _ => 0
  Trig.degrees (Trig.atan2 (Trig.sin yawDelta) (Trig.cos yawDelta))

end

/-! ## The backend -/

namespace MovlaBackend

/-- `__init__`. -/
def new [Zero R] (contextSize contextFrames historyLen : ℕ) : MovlaBackend R Image where
  contextSize := contextSize
  contextFrames := contextFrames
  historyLen := historyLen
  past := []
  poses := []
  velocity := (0, 0)
  motionHistoryM := 0
  warnedGoal := false

/-- `_context_images`. -/
def contextImages (lib : Lib R Image V) (b : MovlaBackend R Image) (current : Image) :
    List Image :=
  let thumbs := if b.past.isEmpty then [lib.thumbnail b.contextSize current] else b.past
  let pad := thumbs.head?.toList.flatMap (List.replicate (b.contextFrames - thumbs.length))
  pad ++ thumbs ++ [current]

section

variable [Field R] [LinearOrder R] [Trig R] (lib : Lib R Image V)

/-- `_build_batch`. -/
def buildBatch (b : MovlaBackend R Image) (images : List Image) (instruction : String) :
    Option (NavBatch R Image) :=
  (buildHistory b.historyLen b.poses).map fun history =>
    { images
      instruction
      statusLine := statusLine lib (cumYaw b.poses) b.velocity.1
      subgoalLine := s!"Subgoal: {instruction}"
      history
      velocity := b.velocity }

/-- `set_motion_state`. -/
def setMotionState (b : MovlaBackend R Image) (pose velocity : List V) :
    MovlaBackend R Image × Except String Unit :=
  match motionState lib pose velocity with
  | .error e => (b, .error e)
  | .ok (pose, velocity) =>
      let poses := Window.push (b.historyLen + 1) b.poses pose
      let lengths := List.zipWith (fun a b => Trig.hypot (b.x - a.x) (b.y - a.y)) poses poses.tail
      ({ b with poses, velocity, motionHistoryM := lengths.sum }, .ok ())

/-- `infer`; `none` is an exception. -/
def infer (b : MovlaBackend R Image) (currentImage : Image) (langInstruction : String)
    (goalImage : Option Image) (goalPoseXyTheta : Option (R × R × R)) :
    MovlaBackend R Image × Option (Reply R) :=
  let goal := goalImage.isSome || goalPoseXyTheta.isSome
  let b := { b with warnedGoal := b.warnedGoal || goal }
  let instruction := if langInstruction = "" then defaultInstruction else langInstruction
  let current := lib.convertRgb currentImage
  let images := b.contextImages lib current
  match (b.buildBatch lib images instruction).bind lib.predictChunk with
  | none => (b, none)
  | some chunk =>
      -- only a frame with a prediction becomes a past one
      let thumb := lib.thumbnail b.contextSize current
      ({ b with past := Window.push b.contextFrames b.past thumb },
        some ⟨chunkToEmbedding chunk, b.poses.length, b.velocity, b.motionHistoryM⟩)

/-- The loop of `warmup`, and whether it came to its end. -/
def warmupLoop (b : MovlaBackend R Image) : ℕ → MovlaBackend R Image × Bool
  | 0 => (b, true)
  | n + 1 =>
      match b.infer lib lib.gray defaultInstruction none none with
      | (b, none) => (b, false)
      | (b, some _) => warmupLoop b n

/-- `warmup`, and whether it came to its end. -/
def warmup (b : MovlaBackend R Image) (numIters : ℤ) : MovlaBackend R Image × Bool :=
  match warmupLoop lib b (max 1 numIters).toNat with
  | (b, false) => (b, false)
  | (b, true) => ({ b with past := [], poses := [], motionHistoryM := 0 }, true)

end

end MovlaBackend

/-! ## Runs -/

/-- A call of the backend. -/
inductive Call (R Image V : Type*)
  | warmup (numIters : ℤ)
  | setMotionState (pose velocity : List V)
  | infer (currentImage : Image) (langInstruction : String) (goalImage : Option Image)
      (goalPoseXyTheta : Option (R × R × R))

section

variable [Field R] [LinearOrder R] [Trig R] (lib : Lib R Image V)

/-- The state after a call. -/
def MovlaBackend.call (b : MovlaBackend R Image) : Call R Image V → MovlaBackend R Image
  | .warmup numIters => (b.warmup lib numIters).1
  | .setMotionState pose velocity => (b.setMotionState lib pose velocity).1
  | .infer currentImage langInstruction goalImage goalPoseXyTheta =>
      (b.infer lib currentImage langInstruction goalImage goalPoseXyTheta).1

/-- What a call does to the retained poses: an accepted pose is added, a warmup that comes to
its end drops them all. -/
def MovlaBackend.ops (b : MovlaBackend R Image) : Call R Image V → List (Window.Op (Pose R))
  | .warmup numIters => if (b.warmup lib numIters).2 then [.reset] else []
  | .setMotionState pose velocity =>
      match motionState lib pose velocity with
      | .error _ => []
      | .ok (pose, _) => [.push pose]
  | .infer .. => []

/-- A backend after some calls, and what they did to its retained poses. -/
def run (b : MovlaBackend R Image) (calls : List (Call R Image V)) :
    MovlaBackend R Image × List (Window.Op (Pose R)) :=
  calls.foldl (fun s call => (s.1.call lib call, s.2 ++ s.1.ops lib call)) (b, [])

/-- The poses accepted since the last warmup. -/
def accepted (b : MovlaBackend R Image) (calls : List (Call R Image V)) : List (Pose R) :=
  Window.sinceReset (run lib b calls).2

end

/-! ## Placement -/

/-- The entry at a negative index is replaced. -/
theorem setItem_neg {α : Type*} (front back : List α) (old row : α) :
    setItem (front ++ old :: back) (-((back.length : ℤ) + 1)) row =
      some (front ++ row :: back) := by
  have hlen : (front ++ old :: back).length = front.length + (back.length + 1) := by
    rw [List.length_append, List.length_cons]
  have hindex : -((back.length : ℤ) + 1) + (front ++ old :: back).length = front.length := by
    rw [hlen]
    omega
  have hneg : -((back.length : ℤ) + 1) < 0 := by omega
  have hrange : (0 : ℤ) ≤ front.length ∧ (front.length : ℤ) < (front ++ old :: back).length := by
    rw [hlen]
    omega
  simp only [setItem, if_pos hneg, hindex, if_pos hrange, Int.toNat_natCast]
  rw [List.set_append_right _ _ le_rfl, Nat.sub_self, List.set_cons_zero]

section

variable [Field R] [Trig R]

/-- The rows of consecutive poses. -/
def relativeRows (poses : List (Pose R)) : List (PoseRow R) :=
  List.zipWith relativeRow poses poses.tail

theorem length_relativeRows (poses : List (Pose R)) :
    (relativeRows poses).length = poses.length - 1 := by
  rw [relativeRows, List.length_zipWith, List.length_tail]
  omega

/-- **One step of the loop** writes the next row behind those that are written. -/
theorem writeRow_eq {poses : List (Pose R)} {n : ℕ} (hn : n + 1 < poses.length)
    (front : List (PoseRow R)) :
    writeRow poses
      (front ++ (relativeRows poses).take n ++
        List.replicate (poses.length - 1 - n) stationary) (1 + n) =
      some (front ++ (relativeRows poses).take (n + 1) ++
        List.replicate (poses.length - 1 - (n + 1)) stationary) := by
  have hlt : n < (relativeRows poses).length := by
    rw [length_relativeRows]
    omega
  have hrow : (relativeRows poses)[n] = relativeRow poses[n] poses[n + 1] := by
    simp only [relativeRows, List.getElem_zipWith, List.getElem_tail]
  have hback : poses.length - 1 - n = (poses.length - 1 - (n + 1)) + 1 := by omega
  have hindex : -((poses.length : ℤ) - ((1 + n : ℕ) : ℤ)) =
      -(((List.replicate (poses.length - 1 - (n + 1))
        (stationary : PoseRow R)).length : ℤ) + 1) := by
    rw [List.length_replicate]
    omega
  have hold : poses[1 + n - 1]? = some poses[n] := by
    rw [Nat.add_sub_cancel_left, List.getElem?_eq_getElem]
  have hnew : poses[1 + n]? = some poses[n + 1] := by
    rw [Nat.add_comm, List.getElem?_eq_getElem]
  rw [writeRow, hold, hnew, hback, List.replicate_succ, List.take_succ_eq_append_getElem hlt, hrow]
  simp only [Option.bind_eq_bind, Option.bind_some]
  rw [hindex, setItem_neg, ← List.append_assoc, List.append_assoc _ [_], List.singleton_append]

/-- **The loop**: behind stationary rows, the rows of the poses. -/
theorem buildHistory_eq {historyLen : ℕ} {poses : List (Pose R)}
    (hcapacity : poses.length ≤ historyLen + 1) :
    buildHistory historyLen poses =
      some (List.replicate (historyLen - (poses.length - 1)) stationary ++
        relativeRows poses) := by
  have hloop : ∀ n ≤ poses.length - 1,
      (List.range' 1 n).foldlM (writeRow poses) (List.replicate historyLen stationary) =
        some (List.replicate (historyLen - (poses.length - 1)) stationary ++
          (relativeRows poses).take n ++
          List.replicate (poses.length - 1 - n) stationary) := by
    intro n hn
    induction n with
    | zero =>
        have hlen : historyLen - (poses.length - 1) + (poses.length - 1 - 0) = historyLen := by
          omega
        rw [List.take_zero, List.append_nil, List.replicate_append_replicate, hlen]
        rfl
    | succ n ih =>
        rw [List.range'_1_concat, List.foldlM_append, ih (by omega)]
        show writeRow poses _ (1 + n) >>= pure = _
        rw [bind_pure, writeRow_eq (by omega)]
  rw [buildHistory, hloop _ le_rfl, Nat.sub_self, List.replicate_zero, List.append_nil,
    ← length_relativeRows, List.take_length]

end

/-! ## The motions -/

/-- The motion of a pose. -/
noncomputable def Pose.motion (p : Pose ℝ) : RigidMotion := RigidMotion.ofPose p.x p.y p.a

/-- The yaw change of a row. -/
noncomputable def yaw (row : PoseRow ℝ) : ℝ := Trig.atan2 row.sin row.cos

/-- Wrapping an angle keeps its direction. -/
theorem exp_wrap (theta : ℝ) :
    Circle.exp (Trig.atan2 (Trig.sin theta) (Trig.cos theta)) = Circle.exp theta := by
  show Circle.exp (Complex.arg ⟨Real.cos theta, Real.sin theta⟩) = Circle.exp theta
  rw [← RigidMotion.coe_exp, Circle.exp_arg]

/-- **A row is a relative motion**: that of the later pose in the frame of the earlier one. -/
theorem relativeRow_eq (p q : Pose ℝ) : relativeRow p q = rowOf (p.motion⁻¹ * q.motion) := by
  have hturn : p.motion⁻¹ * q.motion = RigidMotion.ofPose
      (Real.cos p.a * (q.x - p.x) + Real.sin p.a * (q.y - p.y))
      (-Real.sin p.a * (q.x - p.x) + Real.cos p.a * (q.y - p.y)) (q.a - p.a) := by
    rw [inv_mul_eq_iff_eq_mul, Pose.motion, Pose.motion, RigidMotion.ofPose_mul]
    have hunit := Real.cos_sq_add_sin_sq p.a
    congr 1
    · linear_combination (p.x - q.x) * hunit
    · linear_combination (p.y - q.y) * hunit
    · ring
  have hdir := exp_wrap (q.a - p.a)
  have hwrap := congrArg (fun u : Circle => (u : ℂ)) hdir
  simp only [RigidMotion.coe_exp] at hwrap
  rw [hturn, rowOf_ofPose]
  have hcos := congrArg Complex.re hwrap
  have hsin := congrArg Complex.im hwrap
  exact PoseRow.ext rfl rfl hcos hsin

theorem relativeRows_eq (poses : List (Pose ℝ)) :
    relativeRows poses = (RunningProduct.steps (poses.map Pose.motion)).map rowOf := by
  rw [RunningProduct.steps, ← List.map_tail, List.zipWith_map, List.map_zipWith, relativeRows]
  congr 1
  funext p q
  exact relativeRow_eq p q

theorem stationary_eq : (stationary : PoseRow ℝ) = rowOf 1 := by
  rw [rowOf]
  simp [stationary]

/-- Rows are composed as their motions are multiplied. -/
theorem foldl_compose (a : RigidMotion) (l : List RigidMotion) :
    (l.map rowOf).foldl compose (rowOf a) = rowOf (a * l.prod) := by
  induction l generalizing a with
  | nil => rw [List.prod_nil, mul_one]; rfl
  | cons b l ih => rw [List.map_cons, List.foldl_cons, ← rowOf_mul, ih, List.prod_cons, mul_assoc]

/-- The yaw of a row is that of its motion. -/
theorem exp_yaw (m : RigidMotion) : Circle.exp (yaw (rowOf m)) = m.dir := Circle.exp_arg m.dir

/-- The motions of the history. -/
noncomputable def motions (n : ℕ) (poses : List (Pose ℝ)) : List RigidMotion :=
  List.replicate n 1 ++ RunningProduct.steps (poses.map Pose.motion)

theorem history_eq (n : ℕ) (poses : List (Pose ℝ)) :
    List.replicate n stationary ++ relativeRows poses = (motions n poses).map rowOf := by
  rw [motions, List.map_append, List.map_replicate, stationary_eq, relativeRows_eq]

/-- The motions of the history lead from the oldest pose to the newest one. -/
theorem prod_motions {n : ℕ} {poses : List (Pose ℝ)} {oldest newest : Pose ℝ}
    (holdest : poses.head? = some oldest) (hnewest : poses.getLast? = some newest) :
    (motions n poses).prod = oldest.motion⁻¹ * newest.motion := by
  have hhead : (poses.map Pose.motion).head? = some oldest.motion := by
    rw [List.head?_map, holdest]
    rfl
  have hlast : (poses.map Pose.motion).getLast? = some newest.motion := by
    rw [List.getLast?_map, hnewest]
    rfl
  rw [motions, List.prod_append, List.prod_replicate, one_pow, one_mul,
    RunningProduct.prod_steps hhead hlast]

/-- **The composition** of the history is the newest pose in the frame of the oldest one. -/
theorem foldl_history {n : ℕ} {poses : List (Pose ℝ)} {oldest newest : Pose ℝ}
    (holdest : poses.head? = some oldest) (hnewest : poses.getLast? = some newest) :
    (List.replicate n stationary ++ relativeRows poses).foldl compose stationary =
      rowOf (oldest.motion⁻¹ * newest.motion) := by
  rw [history_eq, stationary_eq, foldl_compose, one_mul, prod_motions holdest hnewest]

/-- The direction of the reported yaw is that of the composition. -/
theorem exp_cumYaw (n : ℕ) (poses : List (Pose ℝ)) :
    Circle.exp (Trig.radians (cumYaw poses)) = (motions n poses).prod.dir := by
  have hradians : ∀ theta : ℝ, Trig.radians (Trig.degrees theta) = theta := by
    intro theta
    show theta * 180 / Real.pi * Real.pi / 180 = theta
    field_simp
  rw [cumYaw, hradians, exp_wrap]
  rcases poses.eq_nil_or_concat with rfl | ⟨older, newest, rfl⟩
  · simp [motions, RunningProduct.steps]
  · have hnewest : (older.concat newest).getLast? = some newest := by simp
    obtain ⟨oldest, holdest⟩ : ∃ oldest, (older.concat newest).head? = some oldest := by
      cases older with
      | nil => exact ⟨newest, rfl⟩
      | cons oldest older => exact ⟨oldest, rfl⟩
    rw [holdest, hnewest, prod_motions holdest hnewest, RigidMotion.mul_dir, RigidMotion.inv_dir,
      Circle.exp_sub, div_eq_inv_mul]
    rfl

/-- **The reported yaw** is the sum of the yaws of the rows, up to whole turns. -/
theorem cumYaw_eq (n : ℕ) (poses : List (Pose ℝ)) :
    ∃ k : ℤ, Trig.radians (cumYaw poses) =
      ((List.replicate n stationary ++ relativeRows poses).map yaw).sum + k * (2 * Real.pi) := by
  have hyaw : (Circle.exp ∘ yaw) ∘ rowOf = RigidMotion.dir := by
    funext m
    exact exp_yaw m
  rw [← Circle.exp_eq_exp, exp_cumYaw n, history_eq, RigidMotion.exp_sum, RigidMotion.dir_prod,
    List.map_map, List.map_map, hyaw]

/-! ## The result -/

section

variable [Field R] [LinearOrder R] [Trig R] (lib : Lib R Image V)

/-- What inferring leaves alone. -/
theorem MovlaBackend.infer_frame (b : MovlaBackend R Image) (currentImage : Image)
    (langInstruction : String) (goalImage : Option Image) (goalPoseXyTheta : Option (R × R × R)) :
    let b' := (b.infer lib currentImage langInstruction goalImage goalPoseXyTheta).1
    b'.historyLen = b.historyLen ∧ b'.poses = b.poses := by
  simp only [infer]
  split
  · exact ⟨rfl, rfl⟩
  · exact ⟨rfl, rfl⟩

theorem MovlaBackend.warmupLoop_frame (b : MovlaBackend R Image) (n : ℕ) :
    (warmupLoop lib b n).1.historyLen = b.historyLen ∧ (warmupLoop lib b n).1.poses = b.poses := by
  induction n generalizing b with
  | zero => exact ⟨rfl, rfl⟩
  | succ n ih =>
      have hinfer := infer_frame lib b lib.gray defaultInstruction none none
      rw [warmupLoop]
      split
      · rename_i b' heq
        rw [heq] at hinfer
        exact hinfer
      · rename_i b' reply heq
        rw [heq] at hinfer
        exact ⟨(ih b').1.trans hinfer.1, (ih b').2.trans hinfer.2⟩

/-- A warmup drops the retained poses if it comes to its end. -/
theorem MovlaBackend.warmup_frame (b : MovlaBackend R Image) (numIters : ℤ) :
    (b.warmup lib numIters).1.historyLen = b.historyLen ∧
      ((b.warmup lib numIters).2 = true → (b.warmup lib numIters).1.poses = []) ∧
      ((b.warmup lib numIters).2 = false → (b.warmup lib numIters).1.poses = b.poses) := by
  have hloop := warmupLoop_frame lib b (max 1 numIters).toNat
  rw [warmup]
  split
  · rename_i b' heq
    rw [heq] at hloop
    exact ⟨hloop.1, fun h => (by cases h), fun _ => hloop.2⟩
  · rename_i b' heq
    rw [heq] at hloop
    exact ⟨hloop.1, fun _ => rfl, fun h => (by cases h)⟩

/-- **One call** does to the retained poses what it is meant to do. -/
theorem MovlaBackend.call_poses {b : MovlaBackend R Image} {ops : List (Window.Op (Pose R))}
    (hposes : b.poses = Window.run (b.historyLen + 1) ops) (call : Call R Image V) :
    (b.call lib call).historyLen = b.historyLen ∧
      (b.call lib call).poses = Window.run (b.historyLen + 1) (ops ++ b.ops lib call) := by
  cases call with
  | warmup numIters =>
      obtain ⟨hlen, hdropped, hkept⟩ := warmup_frame lib b numIters
      simp only [MovlaBackend.call, MovlaBackend.ops]
      split
      · rename_i hdone
        rw [Window.run_reset]
        exact ⟨hlen, hdropped hdone⟩
      · rename_i hdone
        rw [List.append_nil, ← hposes]
        exact ⟨hlen, hkept (Bool.eq_false_iff.mpr hdone)⟩
  | setMotionState pose velocity =>
      simp only [MovlaBackend.call, MovlaBackend.ops, setMotionState]
      split
      · exact ⟨rfl, by simpa using hposes⟩
      · rw [Window.run_push, ← hposes]
        exact ⟨rfl, rfl⟩
  | infer currentImage langInstruction goalImage goalPoseXyTheta =>
      obtain ⟨hlen, hkept⟩ :=
        infer_frame lib b currentImage langInstruction goalImage goalPoseXyTheta
      simp only [MovlaBackend.call, MovlaBackend.ops]
      exact ⟨hlen, by rw [hkept, hposes, List.append_nil]⟩

/-- **The retained poses** are the newest of those accepted since the last warmup. -/
theorem run_poses (contextSize contextFrames historyLen : ℕ) (calls : List (Call R Image V)) :
    let b := MovlaBackend.new contextSize contextFrames historyLen
    (run lib b calls).1.historyLen = historyLen ∧
      (run lib b calls).1.poses = (accepted lib b calls).rtake (historyLen + 1) := by
  intro b
  have hrun : (run lib b calls).1.historyLen = historyLen ∧
      (run lib b calls).1.poses = Window.run (historyLen + 1) (run lib b calls).2 := by
    induction calls using List.reverseRecOn with
    | nil => exact ⟨rfl, rfl⟩
    | append_singleton calls call ih =>
        obtain ⟨hlen, hposes⟩ := ih
        have hcall := MovlaBackend.call_poses lib (hlen ▸ hposes) call
        rw [hlen] at hcall
        rw [run, List.foldl_append]
        exact hcall
  rw [accepted, ← Window.run_eq]
  exact hrun

end

/-- **The motion history.**  For every history length and all calls, with the poses accepted
since the last warmup: the newest of them are retained; the history has its length, and is
stationary rows in front of the motions of consecutive retained poses, each in the frame of
the earlier one; composed, it is the newest retained pose in the frame of the oldest one; the
yaw that the status line reports is the sum of the yaws of the rows up to whole turns; and
a rejected motion state changes nothing. -/
theorem motion_history (lib : Lib ℝ Image V) (contextSize contextFrames historyLen : ℕ)
    (calls : List (Call ℝ Image V)) :
    let new : MovlaBackend ℝ Image := .new contextSize contextFrames historyLen
    let b := (run lib new calls).1
    let retained := (accepted lib new calls).rtake (historyLen + 1)
    retained.length = min (historyLen + 1) (accepted lib new calls).length ∧
    (∀ images instruction, ∃ batch, b.buildBatch lib images instruction = some batch ∧
      batch.history.length = historyLen ∧
      batch.history = List.replicate (historyLen - (retained.length - 1)) ⟨0, 0, 1, 0⟩ ++
        List.zipWith (fun p q => rowOf (p.motion⁻¹ * q.motion)) retained retained.tail ∧
      (∀ oldest newest, retained.head? = some oldest → retained.getLast? = some newest →
        batch.history.foldl compose ⟨0, 0, 1, 0⟩ = rowOf (oldest.motion⁻¹ * newest.motion)) ∧
      batch.statusLine = statusLine lib (cumYaw retained) b.velocity.1 ∧
      ∃ k : ℤ, Trig.radians (cumYaw retained) =
        (batch.history.map yaw).sum + k * (2 * Real.pi)) ∧
    ∀ pose velocity e, (b.setMotionState lib pose velocity).2 = .error e →
      (b.setMotionState lib pose velocity).1 = b := by
  intro new b retained
  obtain ⟨hlen, hposes⟩ := run_poses lib contextSize contextFrames historyLen calls
  -- the poses of the backend are the last accepted ones
  have hretained : retained.length = min (historyLen + 1) (accepted lib new calls).length :=
    Window.length_rtake _ _
  have hbuild : buildHistory b.historyLen b.poses = some
      (List.replicate (historyLen - (retained.length - 1)) stationary ++
        relativeRows retained) := by
    rw [hlen, hposes]
    exact buildHistory_eq (hretained.trans_le (Nat.min_le_left _ _))
  have hrows : relativeRows retained =
      List.zipWith (fun p q => rowOf (p.motion⁻¹ * q.motion)) retained retained.tail := by
    rw [relativeRows]
    congr 1
    funext p q
    exact relativeRow_eq p q
  refine ⟨hretained, ?_, ?_⟩
  · intro images instruction
    refine ⟨_, by rw [MovlaBackend.buildBatch, hbuild, Option.map_some], ?_, ?_, ?_, ?_, ?_⟩
    · rw [List.length_append, List.length_replicate, length_relativeRows]
      omega
    · rw [hrows]
      rfl
    · exact fun oldest newest holdest hnewest => foldl_history holdest hnewest
    · show statusLine lib (cumYaw b.poses) b.velocity.1 = _
      rw [hposes]
    · exact cumYaw_eq _ retained
  · intro pose velocity e he
    simp only [MovlaBackend.setMotionState] at he ⊢
    split
    · rfl
    · rename_i hok
      rw [hok] at he
      cases he

end Movla
