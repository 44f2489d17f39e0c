/-
# The edge lifecycle node

`VLAEdgeNode` of `edge_node.py`: the attributes its callbacks read, the
lifecycle callbacks that create and drop them, the goal, odometry, image and
embedding callbacks, and the observation send.  The action tick has a module of
its own.

A publisher, subscription or timer attribute is a `Bool` here: set, or `None`.
Log lines are left out.
-/
import Mathlib.Algebra.Order.Field.Basic
import Rvln.GoalCorrelation
import Rvln.Trig

/-! ## Messages -/

/-- The pose of a `GoalSpec`: header frame, planar position, orientation. -/
structure GoalPose (R : Type*) where
  frameId : String
  x : R
  y : R
  qx : R
  qy : R
  qz : R
  qw : R

/-- `rvln_msgs/GoalSpec`. -/
structure GoalSpec (R Image : Type*) where
  mode : ℕ
  pose : GoalPose R
  text : String
  image : Image

namespace GoalSpec

def MODE_POSE : ℕ := 0
def MODE_TEXT : ℕ := 1
def MODE_IMAGE : ℕ := 2

end GoalSpec

/-- The pose of a `nav_msgs/Odometry` message. -/
structure Odometry (R : Type*) where
  x : R
  y : R
  qx : R
  qy : R
  qz : R
  qw : R

/-- `rvln_msgs/Observation`; the capture stamp as whole seconds and the rest. -/
structure Observation (R Image Jpeg : Type*) where
  frameId : ℕ
  stampSec : ℤ
  stampNanosec : ℤ
  jpeg : Jpeg
  goal : GoalSpec R Image

/-- `EdgeGoal`: what an adapter that runs the policy on the edge is given. -/
inductive EdgeGoal (R Image : Type*)
  | pose (x y theta : R)
  | text (text : String)
  | image (imageRgb : Image)

/-- An `EdgeAdapter`: whether it runs the whole policy on the edge, and the
goal it holds then. -/
structure EdgeAdapter (R Image : Type*) where
  isLocal : Bool
  goal : Option (EdgeGoal R Image)

/-- `set_goal`: the adapters that use the cloud embedding ignore it. -/
def EdgeAdapter.setGoal {R Image : Type*} (a : EdgeAdapter R Image) (goal : EdgeGoal R Image) :
    EdgeAdapter R Image :=
  if a.isLocal then { a with goal := some goal } else a

/-! ## Planar poses -/

section Planar

variable {R Image : Type*} [Field R] [LinearOrder R] [Trig R]

/-- `_quat_to_yaw`. -/
def quatToYaw (qx qy qz qw : R) : R :=
  if qx = 0 ∧ qy = 0 ∧ qz = 0 ∧ qw = 0 then 0
  else Trig.atan2 (2 * (qw * qz + qx * qy)) (1 - 2 * (qy * qy + qz * qz))

/-- `_pose_goal_in_base_link`; the fields of a new message that the function
does not set keep their defaults. -/
def poseGoalInBaseLink (blank : Image) (goal : GoalSpec R Image) (odom : Odometry R) :
    GoalSpec R Image :=
  let yaw := quatToYaw odom.qx odom.qy odom.qz odom.qw
  let dx := goal.pose.x - odom.x
  let dy := goal.pose.y - odom.y
  let goalYaw := quatToYaw goal.pose.qx goal.pose.qy goal.pose.qz goal.pose.qw
  let relativeYaw := goalYaw - yaw
  { mode := goal.mode
    pose :=
      { frameId := "base_link"
        -- the way to the goal, turned back by the heading
        x := Trig.cos yaw * dx + Trig.sin yaw * dy
        y := -Trig.sin yaw * dx + Trig.cos yaw * dy
        qx := 0
        qy := 0
        qz := Trig.sin (relativeYaw / 2)
        qw := Trig.cos (relativeYaw / 2) }
    text := ""
    image := blank }

/-- `_ros_goal_to_edge_goal`; `decode` is `imgmsg_to_cv2`, `none` its failure. -/
def rosGoalToEdgeGoal (decode : Image → Option Image) (goal : GoalSpec R Image) :
    Option (EdgeGoal R Image) :=
  if goal.mode = GoalSpec.MODE_POSE then
    some (.pose goal.pose.x goal.pose.y
      (quatToYaw goal.pose.qx goal.pose.qy goal.pose.qz goal.pose.qw))
  else if goal.mode = GoalSpec.MODE_TEXT then some (.text goal.text)
  else if goal.mode = GoalSpec.MODE_IMAGE then (decode goal.image).map .image
  else none

end Planar

/-! ## The node -/

/-- The node parameters the modelled callbacks read. -/
structure EdgeParams where
  imageMaxAgeSec : ℚ
  odomMaxAgeSec : ℚ
  embeddingMaxAgeSec : ℚ
  embeddingHardTimeoutSec : ℚ
  cameraDevice : String
  publishEmbeddingDebug : Bool

/-- The values `_declare_parameters` declares. -/
def EdgeParams.defaults : EdgeParams where
  imageMaxAgeSec := 2
  odomMaxAgeSec := 1
  embeddingMaxAgeSec := 6
  embeddingHardTimeoutSec := 15
  cameraDevice := ""
  publishEmbeddingDebug := true

/-- The attributes of `VLAEdgeNode`. -/
structure EdgeNode (R Image Emb : Type*) where
  cameraFrames : CameraFrameStore Image
  observations : ObservationLedger (GoalSpec R Image) Image
  lastDiagLogNs : ℤ
  cache : Option (EmbeddingCache Emb Image)
  observationPub : Bool
  remoteEmbeddingSub : Bool
  adapter : Option (EdgeAdapter R Image)
  localMode : Bool
  sendTimer : Bool
  actionTimer : Bool
  goalSub : Bool
  pathPub : Bool
  embeddingPub : Bool
  latestOdom : Option (Odometry R)
  odomReceivedNs : ℤ

/-- What a transition callback returns; `error` is an exception in it. -/
inductive TransitionCallbackReturn
  | success
  | failure
  | error
  deriving DecidableEq

namespace EdgeNode

variable {R Image Emb : Type*}

/-- `VLAEdgeNode.__init__`. -/
def new : EdgeNode R Image Emb where
  cameraFrames := CameraFrameStore.new
  observations := ObservationLedger.new 8
  lastDiagLogNs := 0
  cache := none
  observationPub := false
  remoteEmbeddingSub := false
  adapter := none
  localMode := false
  sendTimer := false
  actionTimer := false
  goalSub := false
  pathPub := false
  embeddingPub := false
  latestOdom := none
  odomReceivedNs := 0

/-! ### Lifecycle callbacks -/

/-- `on_configure`.  `built` is what `_build_adapter` returned, `none` for its
`ValueError`; `cameraOpens` is the answer of `_open_camera`. -/
def onConfigure (n : EdgeNode R Image Emb) (params : EdgeParams)
    (built : Option (EdgeAdapter R Image)) (cameraOpens : Bool) :
    EdgeNode R Image Emb × TransitionCallbackReturn :=
  match EmbeddingCache.new? params.embeddingMaxAgeSec params.embeddingHardTimeoutSec with
  | none => (n, .error)
  | some cache =>
      let n := { n with cache := some cache }
      match built with
      -- the new cache stays, the rest is as before
      | none => (n, .error)
      | some adapter =>
          let n := { n with adapter := some adapter, localMode := adapter.isLocal }
          let n := if adapter.isLocal then n
            else { n with observationPub := true, remoteEmbeddingSub := true }
          if params.cameraDevice ≠ "" ∧ !cameraOpens then (n, .failure)
          else
            ({ n with
                -- from here on a goal can come in
                goalSub := true
                pathPub := true
                embeddingPub := if params.publishEmbeddingDebug then true else n.embeddingPub },
              .success)

/-- **What `on_configure` does** to the attributes with a longer life: the ledger
and the timers stay, a success leaves an empty cache without a floor, and
nothing else creates the goal subscription. -/
theorem onConfigure_spec (n : EdgeNode R Image Emb) (params : EdgeParams)
    (built : Option (EdgeAdapter R Image)) (cameraOpens : Bool) :
    let r := n.onConfigure params built cameraOpens
    r.1.observations = n.observations ∧ r.1.sendTimer = n.sendTimer ∧
      r.1.actionTimer = n.actionTimer ∧
      (r.2 = .success → ∃ cache, r.1.cache = some cache ∧ cache.latest = none ∧
        cache.floor = none) ∧
      (r.2 ≠ .success → r.1.goalSub = n.goalSub) := by
  simp only [onConfigure]
  cases hnew : EmbeddingCache.new? params.embeddingMaxAgeSec params.embeddingHardTimeoutSec with
  | none => simp
  | some cache =>
      have hempty : cache.latest = none ∧ cache.floor = none := by
        unfold EmbeddingCache.new? at hnew
        split at hnew
        · cases hnew
        · cases hnew
          exact ⟨rfl, rfl⟩
      cases built with
      | none => simp
      | some adapter =>
          dsimp only
          by_cases hcam : params.cameraDevice ≠ "" ∧ !cameraOpens
          · rw [if_pos hcam]
            split <;> simp
          · rw [if_neg hcam]
            split <;> simp [hempty]

/-- `on_activate`. -/
def onActivate (n : EdgeNode R Image Emb) : EdgeNode R Image Emb :=
  { n with
    sendTimer := if n.localMode then n.sendTimer else true
    actionTimer := true }

/-- `on_deactivate`. -/
def onDeactivate (n : EdgeNode R Image Emb) : EdgeNode R Image Emb :=
  { n with cameraFrames := n.cameraFrames.clear, sendTimer := false, actionTimer := false }

/-- `on_cleanup`; closing the camera clears the frame store. -/
def onCleanup (n : EdgeNode R Image Emb) : EdgeNode R Image Emb :=
  { n with
    cameraFrames := n.cameraFrames.clear
    observations := n.observations.reset
    remoteEmbeddingSub := false
    observationPub := false
    cache := none
    adapter := none
    localMode := false
    goalSub := false
    latestOdom := none
    odomReceivedNs := 0
    pathPub := false
    embeddingPub := false }

/-! ### Subscribers -/

/-- `_on_image` and `_on_compressed_image`, once the image is decoded. -/
def onImage (n : EdgeNode R Image Emb) (image : Image) (stampNs sourceStampNs : ℤ) :
    EdgeNode R Image Emb :=
  { n with cameraFrames := n.cameraFrames.put image stampNs sourceStampNs }

/-- `_on_odom`. -/
def onOdom (n : EdgeNode R Image Emb) (msg : Odometry R) (nowNs : ℤ) : EdgeNode R Image Emb :=
  { n with latestOdom := some msg, odomReceivedNs := nowNs }

/-- `_on_goal`: the ledger, the cache's floor, and the adapter if the goal can
be converted. -/
def onGoal [Field R] [LinearOrder R] [Trig R] (decode : Image → Option Image)
    (n : EdgeNode R Image Emb) (msg : GoalSpec R Image) : EdgeNode R Image Emb :=
  let changed := n.observations.changeGoal msg
  { n with
    observations := changed.1
    cache := n.cache.map fun c => c.invalidate (some changed.2)
    adapter := n.adapter.map fun a =>
      match rosGoalToEdgeGoal decode msg with
      | none => a
      | some edgeGoal => a.setGoal edgeGoal }

/-- `_on_embedding_received`; the second component is what goes out on the
debug topic. -/
def onEmbeddingReceived [PyLen Emb] (n : EdgeNode R Image Emb) (emb : ActionEmbedding Emb)
    (nowNs : ℤ) : EdgeNode R Image Emb × Option (ActionEmbedding Emb) :=
  match n.cache with
  | none => (n, none)
  | some cache =>
      if emb.shapeOk then
        let taken := n.observations.takeReplyFrame emb.frameId
        ({ n with
            observations := taken.1
            cache := some (cache.put (emb.cached nowNs taken.2)) },
          if n.embeddingPub then some emb else none)
      else (n, none)

/-- A well-shaped reply goes through the ledger to the cache. -/
theorem onEmbeddingReceived_of_shapeOk [PyLen Emb] {n : EdgeNode R Image Emb}
    {cache : EmbeddingCache Emb Image} (hcache : n.cache = some cache)
    {emb : ActionEmbedding Emb} (hshape : emb.shapeOk = true) (nowNs : ℤ) :
    (n.onEmbeddingReceived emb nowNs).1 =
      { n with
        observations := (n.observations.takeReplyFrame emb.frameId).1
        cache := some
          (cache.put (emb.cached nowNs (n.observations.takeReplyFrame emb.frameId).2)) } := by
  simp only [onEmbeddingReceived, hcache, hshape, if_true]

/-- Without a cache, or with a wrong shape, a reply changes nothing. -/
theorem onEmbeddingReceived_of_not [PyLen Emb] {n : EdgeNode R Image Emb}
    {emb : ActionEmbedding Emb} (h : ¬ (n.cache.isSome && emb.shapeOk) = true) (nowNs : ℤ) :
    (n.onEmbeddingReceived emb nowNs).1 = n := by
  unfold onEmbeddingReceived
  split
  · rfl
  · rename_i cache hcache
    split
    · rename_i hshape
      exact absurd (by simp [hcache, hshape]) h
    · rfl

/-- `_fresh_odom`. -/
def freshOdom (n : EdgeNode R Image Emb) (params : EdgeParams) (nowNs : ℤ) :
    Option (Odometry R) :=
  if truncInt (params.odomMaxAgeSec * 10 ^ 9) < nowNs - n.odomReceivedNs then none
  else n.latestOdom

/-- `_fresh_image`. -/
def freshImage (n : EdgeNode R Image Emb) (params : EdgeParams) (nowNs : ℤ) : Option Image :=
  n.cameraFrames.fresh (truncInt (params.imageMaxAgeSec * 10 ^ 9)) nowNs

/-! ### The observation send -/

/-- What the send tick reads besides the node: clock readings, the JPEG encoder
(`none` is its exception) and the image of a new `GoalSpec` message. -/
structure SendEnv (Image Jpeg : Type*) where
  imageNs : ℤ
  odomNs : ℤ
  resizeAndJpeg : Image → Option Jpeg
  blank : Image

/-- The goal an observation carries: `none` when the tick skips it. -/
def goalToSend [Field R] [LinearOrder R] [Trig R] {Jpeg : Type*} (n : EdgeNode R Image Emb)
    (params : EdgeParams) (env : SendEnv Image Jpeg) (goal : GoalSpec R Image) :
    Option (GoalSpec R Image) :=
  if goal.mode = GoalSpec.MODE_POSE then
    let frame := if goal.pose.frameId = "" then "base_link" else goal.pose.frameId
    if frame = "odom" then
      (n.freshOdom params env.odomNs).map fun odom => poseGoalInBaseLink env.blank goal odom
    else if frame ≠ "base_link" then none
    else some goal
  else some goal

/-- `_send_observation_tick`, as one callback. -/
def sendObservationTick [Field R] [LinearOrder R] [Trig R] {Jpeg : Type*}
    (n : EdgeNode R Image Emb) (params : EdgeParams) (env : SendEnv Image Jpeg) :
    EdgeNode R Image Emb × Option (Observation R Image Jpeg) :=
  if n.observationPub then
    let capture := n.cameraFrames.freshWithStamp
      (truncInt (params.imageMaxAgeSec * 10 ^ 9)) env.imageNs
    let snapshot := n.observations.snapshotGoal
    match capture, snapshot.1 with
    | some (img, captureNs), some goal =>
        match n.goalToSend params env goal with
        | none => (n, none)
        | some goal =>
            match env.resizeAndJpeg img with
            | none => (n, none)
            | some jpeg =>
                match n.observations.recordSent snapshot.2 img with
                -- a goal that came after the snapshot: nothing is sent
                | (observations, none) => ({ n with observations := observations }, none)
                | (observations, some frameId) =>
                    ({ n with observations := observations },
                      some
                        { frameId := frameId
                          stampSec := captureNs / 1000000000
                          stampNanosec := captureNs % 1000000000
                          jpeg := jpeg
                          goal := goal })
    | _, _ => (n, none)
  else (n, none)

/-- **What one send tick can do**: nothing, or issue the next frame id under
the current generation, with a goal set. -/
theorem sendObservationTick_cases [Field R] [LinearOrder R] [Trig R] {Jpeg : Type*}
    (n : EdgeNode R Image Emb) (params : EdgeParams) (env : SendEnv Image Jpeg) :
    n.sendObservationTick params env = (n, none) ∨
      ∃ obs observations, n.sendObservationTick params env =
          ({ n with observations := observations }, some obs) ∧
        ∃ img, n.observations.recordSent n.observations.generation img =
          (observations, some obs.frameId) := by
  unfold sendObservationTick
  split
  · dsimp only
    split
    · split
      · exact Or.inl rfl
      · split
        · exact Or.inl rfl
        · split
          · rename_i hrec
            rw [ObservationLedger.recordSent_none hrec]
            exact Or.inl rfl
          · rename_i hrec
            exact Or.inr ⟨_, _, rfl, _, hrec⟩
    · exact Or.inl rfl
  · exact Or.inl rfl

end EdgeNode
