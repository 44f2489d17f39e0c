/-
# The NaVIDA executor

`NavidaStepBridge` of `live_navida.py`: the five callbacks, the motor-power
state machine that they drive, and the HTTP inference.  A future is pending
until an event of the environment completes it.

`World` is the node with its history: what the node did and saw, newest first,
each entry with the node as it was there.  Sleeping and printing are left out;
the printed events are entries of the history.  Each callback reads the two
clocks up to twice: at its start, and again in `_stop_power`.
-/
import Rvln.EdgeNode
import Rvln.History
import Rvln.Machine
import Rvln.PyJson
import Rvln.StepCycle

/-! ## Data -/

/-- A future and the result it was completed with. -/
inductive Future (α : Type*)
  | pending
  | done (result : α)
  deriving DecidableEq

/-- `Reply`. -/
structure Reply (K : Type*) where
  frameId : ℤ
  action : NavidaAction K
  rawResponse : Text
  deriving DecidableEq

/-- How a call of `infer` can end: with a reply, in one of the exceptions that
`_finish_request` catches, or in any other. -/
inductive HttpOutcome (K : Type*)
  | reply (reply : Reply K)
  | caught (reason : String)
  | uncaught
  deriving DecidableEq

/-- How a `/motor_power` call can end: with a response, or in one of the
exceptions that `_power_tick` catches. -/
inductive PowerOutcome
  | response (success : Bool)
  | raised (reason : String)
  deriving DecidableEq

/-- `power_state`. -/
inductive PowerState
  | stop
  | disabling
  | off
  | enabling
  | verify
  | ready
  deriving DecidableEq, Repr

/-- `nav_msgs/Odometry`: the stamp, the planar pose and the yaw rate. -/
structure OdometryMsg (K : Type*) where
  stampSec : ℤ
  stampNanosec : ℤ
  x : PyFloat K
  y : PyFloat K
  qx : PyFloat K
  qy : PyFloat K
  qz : PyFloat K
  qw : PyFloat K
  yawRate : PyFloat K

/-- The attributes of `NavidaStepBridge`. -/
structure NavidaStepBridge (K Image Jpeg : Type*) where
  cycle : StepCycle K
  goal : Option String
  latest : Option (Observation K Image Jpeg)
  future : Option (Future (HttpOutcome K))
  requestToken : Option Request
  queue : List (NavidaAction K)
  lastFault : Option String
  powerFuture : Option (Future PowerOutcome)
  powerState : PowerState
  powerAt : K
  powerPose : Option (Pose K)
  powerStamp : ℤ
  powerStable : ℤ

/-- The events that the node prints. -/
inductive NavidaEvent (K : Type*)
  | goalChanged (generation : ℕ)
  | stopped (barrierNs : ℤ) (turnDeg : K)
  | requestFailed (reason : String)
  | actionStarted (frameId : ℤ) (distanceM angleDeg : K) (raw : Text)
  | replyDiscarded (frameId : ℤ)
  | actionZero (turnDeg : K)
  | fault (reason : String)
  | chunkActionStarted (distanceM angleDeg : K) (remaining : ℕ)
  | request (frameId captureNs barrierNs : ℤ)
  deriving DecidableEq

/-- What the node does and sees. -/
inductive Act (K Jpeg : Type*)
  /-- A `Twist` on `/cmd_vel`. -/
  | publish (linear angular : K) (nowNs : ℤ)
  /-- A `/motor_power` request. -/
  | callPower (enable : Bool)
  /-- A `/motor_power` request is found to be acknowledged successfully. -/
  | powerAcked
  /-- `power_state` becomes `ready`. -/
  | ready (nowNs : ℤ)
  /-- `observe` takes over a pose whose stamp has advanced. -/
  | sample (pose : Pose K) (stampNs : ℤ)
  /-- `observe` clears `settling`. -/
  | standstill
  /-- `stopped` becomes true. -/
  | halted
  /-- The request to end the forced stop is handled. -/
  | resumed
  /-- An inference is handed to the worker. -/
  | submit (token : Request) (goal : String) (jpeg : Jpeg)
  /-- The worker completes an inference. -/
  | inferred (outcome : HttpOutcome K)
  /-- `accept` starts the primitive of a reply. -/
  | replyStarted (token : Request) (reply : Reply K)
  /-- `start` starts the first primitive of the queue. -/
  | queueStarted (action : NavidaAction K)
  | event (e : NavidaEvent K)
  deriving DecidableEq

/-- An entry of the history: the act, and the node there. -/
structure Entry (K Image Jpeg : Type*) where
  act : Act K Jpeg
  node : NavidaStepBridge K Image Jpeg

/-- The node, its history and the newest clock reading. -/
structure World (K Image Jpeg : Type*) where
  node : NavidaStepBridge K Image Jpeg
  trace : List (Entry K Image Jpeg)
  clockNs : ℤ

/-- One reading of `time.monotonic()` and of the ROS clock. -/
structure Clocks (K : Type*) where
  now : K
  nowNs : ℤ

/-! ## The text of a reply -/

section

variable {K : Type*} [Field K] [LinearOrder K] [Trig K]

/-- The primitive of a match, when its number can be read. -/
def matchAction : NavidaText.Verb × Text → NavidaAction K
  | (.forward, digits) => ⟨min (75 / 100) ((NavidaText.number digits : K) / 100), 0⟩
  | (.turnLeft, digits) => ⟨0, Trig.radians (min 45 (NavidaText.number digits : K))⟩
  | (.turnRight, digits) => ⟨0, -Trig.radians (min 45 (NavidaText.number digits : K))⟩

/-- What `chunk_actions` appends for one match, or raises. -/
def chunkAction (m : NavidaText.Verb × Text) : Except Raised (NavidaAction K) :=
  match NavidaText.intOf m.2 with
  | .error e => .error (.py e)
  | .ok value =>
      -- `int(value) / 100`
      if m.1 = .forward ∧ Json.TooLarge (value / 100) then .error .overflowError
      else .ok (matchAction m)

/-- `chunk_actions`. -/
def chunkActions (raw : Text) : Except Raised (List (NavidaAction K)) :=
  ((NavidaText.findall raw).drop 1).mapM chunkAction

/-- The number of a match is more than `int` reads, or a distance that is no float. -/
def NavidaText.Unreadable (m : Verb × Text) : Prop :=
  maxStrDigits < m.2.length ∨ m.1 = .forward ∧ Json.TooLarge (number m.2 / 100)

theorem chunkAction_eq_ok {m : NavidaText.Verb × Text} {a : NavidaAction K} :
    chunkAction m = .ok a ↔ ¬ NavidaText.Unreadable m ∧ matchAction m = a := by
  unfold chunkAction NavidaText.intOf NavidaText.Unreadable
  by_cases hlong : NavidaText.maxStrDigits < m.2.length
  · rw [if_pos hlong]
    exact iff_of_false (fun h => by cases h) fun h => h.1 (.inl hlong)
  · rw [if_neg hlong]
    dsimp only
    by_cases hlarge : m.1 = .forward ∧ Json.TooLarge (NavidaText.number m.2 / 100)
    · rw [if_pos hlarge]
      exact iff_of_false (fun h => by cases h) fun h => h.1 (.inr hlarge)
    · rw [if_neg hlarge, Except.ok.injEq]
      exact (and_iff_right (not_or.mpr ⟨hlong, hlarge⟩)).symm

end

/-- The text of a goal, if it is a text goal. -/
def GoalSpec.text? {K Image : Type*} (msg : GoalSpec K Image) : Option String :=
  if msg.mode = GoalSpec.MODE_TEXT ∧ msg.text ≠ "" then some msg.text else none

/-- The stamp of an odometry message. -/
def OdometryMsg.stampNs {K : Type*} (msg : OdometryMsg K) : ℤ :=
  msg.stampSec * 1000000000 + msg.stampNanosec

/-- The pose of an odometry message that passes the checks of `_odom`. -/
def OdometryMsg.pose? {K : Type*} [Field K] [LinearOrder K] [Trig K] (msg : OdometryMsg K)
    (nowNs : ℤ) : Option (Pose K) :=
  match msg.x, msg.y, msg.qx, msg.qy, msg.qz, msg.qw, msg.yawRate with
  | .fin x, .fin y, .fin qx, .fin qy, .fin qz, .fin qw, .fin yawRate =>
      if msg.stampNs ≤ 0 ∨ 300000000 < nowNs - msg.stampNs ∨ nowNs < msg.stampNs ∨
          1 / 100 < |qx * qx + qy * qy + qz * qz + qw * qw - 1| then none
      else
        let yaw := Trig.atan2 (2 * (qw * qz + qx * qy)) (1 - 2 * (qy * qy + qz * qz))
        some ⟨x, y, yaw, yawRate⟩
  | _, _, _, _, _, _, _ => none

namespace World

variable {K Image Jpeg : Type*}

/-- Add an entry to the history. -/
def record (w : World K Image Jpeg) (act : Act K Jpeg) : World K Image Jpeg :=
  { w with trace := ⟨act, w.node⟩ :: w.trace }

/-- Replace the cycle; a cycle that becomes stopped is an entry of the history. -/
def setCycle (w : World K Image Jpeg) (c : StepCycle K) : World K Image Jpeg :=
  let rises := c.stopped && !w.node.cycle.stopped
  let w := { w with node := { w.node with cycle := c } }
  if rises then w.record .halted else w

/-- Replace `power_state`. -/
def setPower (w : World K Image Jpeg) (s : PowerState) : World K Image Jpeg :=
  { w with node := { w.node with powerState := s } }

/-- `_publish`. -/
def publish (w : World K Image Jpeg) (nowNs : ℤ) (linear angular : K) : World K Image Jpeg :=
  w.record (.publish linear angular nowNs)

section

variable [Field K] [LinearOrder K]

/-- `NavidaStepBridge.__init__`; `cycle` is `StepCycle(max_v, max_w)`. -/
def new (cycle : StepCycle K) (clocks : Clocks K) : World K Image Jpeg where
  node := {
    cycle := cycle
    goal := none
    latest := none
    future := none
    requestToken := none
    queue := []
    lastFault := none
    powerFuture := none
    powerState := .stop
    powerAt := clocks.now
    powerPose := none
    powerStamp := 0
    powerStable := 0 }
  trace := []
  clockNs := clocks.nowNs

/-! ## Motor power -/

/-- `_power_tick`, the `except` branch. -/
def powerFailed (w : World K Image Jpeg) (reason : String) (now : K) (nowNs : ℤ) :
    World K Image Jpeg :=
  ((w.setCycle (w.node.cycle.fail reason now nowNs)).publish nowNs 0 0).setPower .stop

/-- `_power_tick`, the `else` branch. -/
def powerAcked (w : World K Image Jpeg) (now : K) (nowNs : ℤ) : World K Image Jpeg :=
  let w := w.record .powerAcked
  match w.node.powerState with
  | .disabling => (w.setPower .off).setCycle (w.node.cycle.confirmMotorDisabled nowNs now)
  | .enabling =>
      { w with node := { w.node with
          powerState := .verify
          powerAt := now
          powerPose := none
          powerStamp := nowNs
          powerStable := 0 } }
  | _ => w

/-- `_power_tick`, from the check of the `verify` timeout on. -/
def powerRequest (w : World K Image Jpeg) (now : K) (nowNs : ℤ) : World K Image Jpeg :=
  let w :=
    if w.node.powerState = .verify ∧ 2 < now - w.node.powerAt then
      (w.setCycle (w.node.cycle.fail "post-enable stop not confirmed" now nowNs)).setPower .stop
    else w
  let enable := w.node.powerState = .off ∧ w.node.cycle.settling = false
  if w.node.powerState = .stop ∨ enable then
    let w := w.publish nowNs 0 0
    let w := { w with node := { w.node with
        powerAt := now
        powerState := if enable then .enabling else .disabling
        powerFuture := some .pending } }
    w.record (.callPower (decide enable))
  else w

/-- `_power_tick`. -/
def powerTick (w : World K Image Jpeg) (now : K) (nowNs : ℤ) : World K Image Jpeg :=
  let taken := { w with node := { w.node with powerFuture := none } }
  match w.node.powerFuture with
  | none => w.powerRequest now nowNs
  -- still in flight, for two seconds at most
  | some .pending =>
      if now - w.node.powerAt ≤ 2 then w
      else (taken.powerFailed "motor power timeout" now nowNs).powerRequest now nowNs
  | some (.done (.response false)) =>
      (taken.powerFailed "motor power rejected" now nowNs).powerRequest now nowNs
  | some (.done (.raised reason)) =>
      (taken.powerFailed reason now nowNs).powerRequest now nowNs
  | some (.done (.response true)) => (taken.powerAcked now nowNs).powerRequest now nowNs

/-- `_stop_power`. -/
def stopPower (w : World K Image Jpeg) (clocks : Clocks K) : World K Image Jpeg :=
  let w := w.publish clocks.nowNs 0 0
  let w :=
    if w.node.powerState = .stop ∨ w.node.powerState = .disabling then w else w.setPower .stop
  w.powerTick clocks.now clocks.nowNs

/-! ## Goals, observations and the forced stop -/

/-- `_set_goal`. -/
def setGoal (w : World K Image Jpeg) (text : Option String) (restart : Bool)
    (first second : Clocks K) : World K Image Jpeg :=
  if restart = true ∨ text ≠ w.node.goal then
    let w := { w with node := { w.node with goal := text, latest := none, queue := [] } }
    -- a goal without a text stops the cycle, and none ends a stop
    let w := w.setCycle (w.node.cycle.cancel first.nowNs first.now
      (w.node.cycle.stopped || text.isNone))
    let w := w.stopPower second
    w.record (.event (.goalChanged w.node.cycle.generation))
  else w

/-- `_goal`. -/
def onGoal (w : World K Image Jpeg) (msg : GoalSpec K Image) (first second : Clocks K) :
    World K Image Jpeg :=
  w.setGoal msg.text? true first second

/-- `_observation`. -/
def onObservation (w : World K Image Jpeg) (msg : Observation K Image Jpeg)
    (first second : Clocks K) : World K Image Jpeg :=
  let w := w.setGoal msg.goal.text? false first second
  { w with node := { w.node with latest := some msg } }

/-- `_forced_stop`; the response is always a success. -/
def onForcedStop (w : World K Image Jpeg) (data : Bool) (first second : Clocks K) :
    World K Image Jpeg :=
  let w := w.setCycle (w.node.cycle.cancel first.nowNs first.now data)
  let w := if data then w else w.record .resumed
  let w := { w with node := { w.node with queue := [] } }
  w.stopPower second

variable [Trig K]

/-! ## Odometry -/

/-- The call of `observe`, and what the history keeps of it. -/
def observe (w : World K Image Jpeg) (pose : Pose K) (stampNs : ℤ) (now : K) (nowNs : ℤ) :
    World K Image Jpeg :=
  let before := w.node.cycle
  let w := w.setCycle (before.observe pose stampNs now nowNs)
  let w := if before.odomNs < stampNs then w.record (.sample pose stampNs) else w
  if before.settling && !w.node.cycle.settling then w.record .standstill else w

/-- `power_state` becomes `ready`. -/
def verified (w : World K Image Jpeg) (nowNs : ℤ) : World K Image Jpeg :=
  let w := (w.setPower .ready).record (.ready nowNs)
  if w.node.cycle.action.isNone then
    -- no primitive in progress: only exposures from now on show the standstill
    let w := w.setCycle { w.node.cycle with floorNs := nowNs }
    w.record (.event (.stopped nowNs (Trig.degrees w.node.cycle.turnProgress)))
  else w

/-- `_odom`, the check after an enable. -/
def verifyPower (w : World K Image Jpeg) (pose : Pose K) (stampNs nowNs : ℤ) :
    World K Image Jpeg :=
  if w.node.powerState = .verify ∧ w.node.powerStamp < stampNs then
    let previous := w.node.powerPose
    let previousStamp := w.node.powerStamp
    let w := { w with node := { w.node with
        powerPose := w.node.cycle.pose
        powerStamp := stampNs } }
    if previous.any fun previous => StepCycle.Still previous previousStamp pose stampNs then
      -- at rest for 200 ms with the motors on
      if 200000000 ≤ stampNs - w.node.powerStable then w.verified nowNs else w
    else { w with node := { w.node with powerStable := stampNs } }
  else w

/-- `_odom`. -/
def onOdom (w : World K Image Jpeg) (msg : OdometryMsg K) (first second : Clocks K) :
    World K Image Jpeg :=
  match msg.pose? first.nowNs with
  | none =>
      (w.setCycle (w.node.cycle.fail "invalid odometry" first.now first.nowNs)).stopPower second
  | some pose =>
      (w.observe pose msg.stampNs first.now first.nowNs).verifyPower pose msg.stampNs first.nowNs

/-! ## The timer -/

/-- `_finish_request`, the `except` branch. -/
def requestFailed (w : World K Image Jpeg) (token : Request) (reason : String) (now : K)
    (nowNs : ℤ) : World K Image Jpeg :=
  let w :=
    if token.generation = w.node.cycle.generation then
      w.setCycle (w.node.cycle.fail reason now nowNs)
    else w
  w.record (.event (.requestFailed reason))

/-- `_finish_request`, the reply to the request; the second component says that an
exception leaves it. -/
def acceptReply (w : World K Image Jpeg) (token : Request) (reply : Reply K) (now : K)
    (nowNs : ℤ) : World K Image Jpeg × Bool :=
  let (c, started) := w.node.cycle.accept token reply.action now nowNs
  let w := w.setCycle c
  if started then
    let w := w.record (.replyStarted token reply)
    match chunkActions reply.rawResponse with
    -- the primitive has started, and the tick ends here
    | .error _ => (w, true)
    | .ok queue =>
        let w := { w with node := { w.node with queue := queue } }
        (w.record (.event (.actionStarted token.frameId reply.action.distance
          (Trig.degrees reply.action.angle) reply.rawResponse)), false)
  else (w.record (.event (.replyDiscarded token.frameId)), false)

/-- `_finish_request`; the second component says that an exception leaves it. -/
def finishRequest (w : World K Image Jpeg) (now : K) (nowNs : ℤ) : World K Image Jpeg × Bool :=
  match w.node.future, w.node.requestToken with
  | some (.done outcome), some token =>
      let w := { w with node := { w.node with future := none, requestToken := none } }
      match outcome with
      | .uncaught => (w, true)
      | .caught reason => (w.requestFailed token reason now nowNs, false)
      | .reply reply =>
          if reply.frameId ≠ token.frameId then
            (w.requestFailed token "reply frame ID mismatch" now nowNs, false)
          else w.acceptReply token reply now nowNs
  | _, _ => (w, false)

/-- `_tick`, the command and the stop behind it. -/
def drive (w : World K Image Jpeg) (first second : Clocks K) : World K Image Jpeg :=
  let (c, linear, angular) :=
    w.node.cycle.command first.now first.nowNs (decide (w.node.powerState = .ready))
  let w := (w.setCycle c).publish first.nowNs linear angular
  if w.node.cycle.settling = true ∧
      (w.node.powerState = .ready ∨ w.node.powerState = .enabling ∨ w.node.powerState = .verify)
  then w.stopPower second
  else w

/-- `_tick`, the event of a primitive that has ended. -/
def reportZero (w : World K Image Jpeg) (active : Bool) : World K Image Jpeg :=
  if active && w.node.cycle.action.isNone then
    w.record (.event (.actionZero (Trig.degrees w.node.cycle.turnProgress)))
  else w

/-- `_tick`, the event of a new fault. -/
def reportFault (w : World K Image Jpeg) : World K Image Jpeg :=
  if w.node.cycle.fault ≠ w.node.lastFault then
    let w := { w with node := { w.node with lastFault := w.node.cycle.fault } }
    match w.node.cycle.fault with
    | none => w
    | some reason => w.record (.event (.fault reason))
  else w

/-- `_tick`, the queue of a stopped cycle. -/
def dropQueue (w : World K Image Jpeg) : World K Image Jpeg :=
  if w.node.cycle.stopped then { w with node := { w.node with queue := [] } } else w

/-- `_tick`, the request for the newest observation. -/
def ask (w : World K Image Jpeg) (now : K) (nowNs : ℤ) : World K Image Jpeg :=
  match w.node.latest, w.node.goal with
  | some obs, some goal =>
      if w.node.powerState = .ready ∧ w.node.future.isNone then
        let captureNs := obs.stampSec * 1000000000 + obs.stampNanosec
        if w.node.cycle.canRequest captureNs now nowNs then
          match w.node.cycle.request obs.frameId captureNs now nowNs with
          -- an eligible observation is not refused
          | .error _ => w
          | .ok (c, token) =>
              let w := w.setCycle c
              let w := { w with node := { w.node with requestToken := some token } }
              let w := w.record (.event (.request token.frameId captureNs w.node.cycle.floorNs))
              let w := w.record (.submit token goal obs.jpeg)
              { w with node := { w.node with future := some .pending } }
        else w
      else w
  | _, _ => w

/-- `_tick`, from the check of the queue on. -/
def proceed (w : World K Image Jpeg) (now : K) (nowNs : ℤ) : World K Image Jpeg :=
  match w.node.queue with
  | [] => w.ask now nowNs
  | action :: queue =>
      if w.node.powerState = .ready ∧ w.node.future.isNone ∧ w.node.cycle.action.isNone ∧
          w.node.cycle.settling = false then
        let (c, started) := w.node.cycle.start action now nowNs
        let w := w.setCycle c
        if started then
          let w := w.record (.queueStarted action)
          let w := { w with node := { w.node with queue := queue } }
          w.record (.event (.chunkActionStarted action.distance (Trig.degrees action.angle)
            queue.length))
        -- a refused start leaves the queue, and the tick goes on
        else w.ask now nowNs
      else w.ask now nowNs

/-- `_tick`, up to the reply; the second component says that an exception leaves
it. -/
def collect (w : World K Image Jpeg) (clocks : Clocks K) : World K Image Jpeg × Bool :=
  let w := w.powerTick clocks.now clocks.nowNs
  if w.node.powerState = .ready then w.finishRequest clocks.now clocks.nowNs else (w, false)

/-- `_tick`, from the command on. -/
def act (w : World K Image Jpeg) (first second : Clocks K) : World K Image Jpeg :=
  let active := w.node.cycle.action.isSome
  ((((w.drive first second).reportZero active).reportFault).dropQueue).proceed
    first.now first.nowNs

/-- `_tick`. -/
def onTick (w : World K Image Jpeg) (first second : Clocks K) : World K Image Jpeg :=
  let (w, raised) := w.collect first
  if raised then w else w.act first second

end

/-! ## The environment -/

/-- The worker completes the inference in flight. -/
def httpDone (w : World K Image Jpeg) (outcome : HttpOutcome K) : World K Image Jpeg :=
  let w := { w with node := { w.node with future := some (.done outcome) } }
  w.record (.inferred outcome)

/-- The executor completes the power call in flight. -/
def powerDone (w : World K Image Jpeg) (outcome : PowerOutcome) : World K Image Jpeg :=
  { w with node := { w.node with powerFuture := some (.done outcome) } }

end World

namespace NavidaStepBridge

/-! ## Runs -/

/-- A callback with its message, or the completion of a future. -/
inductive Input (K Image Jpeg : Type*)
  | goal (msg : GoalSpec K Image)
  | observation (msg : Observation K Image Jpeg)
  | odom (msg : OdometryMsg K)
  | forcedStop (data : Bool)
  | tick
  | httpDone (outcome : HttpOutcome K)
  | powerDone (outcome : PowerOutcome)

/-- An input with the clock readings of its callback. -/
structure Event (K Image Jpeg : Type*) where
  input : Input K Image Jpeg
  first : Clocks K
  second : Clocks K

variable {K Image Jpeg : Type*}

/-- Only what is in flight can be completed. -/
def enabled (w : World K Image Jpeg) : Input K Image Jpeg → Prop
  | .httpDone _ => w.node.future = some .pending
  | .powerDone _ => w.node.powerFuture = some .pending
  | _ => True

instance [DecidableEq K] (w : World K Image Jpeg) :
    (input : Input K Image Jpeg) → Decidable (enabled w input)
  | .httpDone _ => inferInstanceAs (Decidable (w.node.future = some .pending))
  | .powerDone _ => inferInstanceAs (Decidable (w.node.powerFuture = some .pending))
  | .goal _ | .observation _ | .odom _ | .forcedStop _ | .tick => inferInstanceAs (Decidable True)

variable [Field K] [LinearOrder K] [Trig K]

/-- The callback of an event. -/
def step (w : World K Image Jpeg) (e : Event K Image Jpeg) : World K Image Jpeg :=
  match e.input with
  | .goal msg => w.onGoal msg e.first e.second
  | .observation msg => w.onObservation msg e.first e.second
  | .odom msg => w.onOdom msg e.first e.second
  | .forcedStop data => w.onForcedStop data e.first e.second
  | .tick => w.onTick e.first e.second
  | .httpDone outcome => w.httpDone outcome
  | .powerDone outcome => w.powerDone outcome

/-- The node under any order of its callbacks and any outcome of its calls, with
a ROS clock that does not run backwards. -/
def machine (maxV maxW : K) : Machine (World K Image Jpeg) (Event K Image Jpeg) where
  Init w := ∃ cycle clocks, StepCycle.new maxV maxW = .ok cycle ∧ w = World.new cycle clocks
  Guard w e := w.clockNs ≤ e.first.nowNs ∧ e.first.nowNs ≤ e.second.nowNs ∧ enabled w e.input
  next w e := { step w e with clockNs := e.second.nowNs }

instance (maxV maxW : K) (w : World K Image Jpeg) (e : Event K Image Jpeg) :
    Decidable ((machine maxV maxW).Guard w e) :=
  inferInstanceAs (Decidable (_ ∧ _ ∧ enabled w e.input))

/-! ## A first request and a first move -/

/-- `math` for a robot that never turns: `pi` is `math.pi`, and the functions are
exact at angle zero and along an axis. -/
scoped instance levelTrig : Trig ℚ where
  pi := 884279719003555 / 281474976710656
  sin x := x
  cos _ := 1
  atan x := x
  atan2 y x := y / x
  hypot x y := max |x| |y|

/-- The node as it is built, both clocks at zero. -/
def switchedOn : World ℚ Unit Unit := World.new (StepCycle.fresh (1 / 10) (35 / 100)) ⟨0, 0⟩

/-- An input at a time in milliseconds. -/
def atMs (ms : ℤ) (input : Input ℚ Unit Unit) : Event ℚ Unit Unit :=
  ⟨input, ⟨ms / 1000, ms * 1000000⟩, ⟨ms / 1000, ms * 1000000⟩⟩

/-- The origin, stamped in milliseconds. -/
def originAt (ms : ℤ) : OdometryMsg ℚ :=
  ⟨0, ms * 1000000, .fin 0, .fin 0, .fin 0, .fin 0, .fin 0, .fin 1, .fin 0⟩

/-- A text goal. -/
def doorGoal : GoalSpec ℚ Unit := ⟨GoalSpec.MODE_TEXT, ⟨"", 0, 0, 0, 0, 0, 0⟩, "go to the door", ()⟩

/-- A goal, a motor-power cycle with a standstill behind each request, and an
image. -/
def firstRequest : List (Event ℚ Unit Unit) :=
  [atMs 1000 (.goal doorGoal), atMs 1010 (.powerDone (.response true)), atMs 1050 .tick,
    atMs 1110 (.odom (originAt 1100)), atMs 1270 (.odom (originAt 1260)), atMs 1300 .tick,
    atMs 1310 (.powerDone (.response true)), atMs 1350 .tick, atMs 1410 (.odom (originAt 1400)),
    atMs 1620 (.odom (originAt 1610)), atMs 1660 (.observation ⟨1, 0, 1650000000, (), doorGoal⟩),
    atMs 1700 .tick]

/-- The reply to the first request and the tick that carries it out. -/
def firstMove : List (Event ℚ Unit Unit) :=
  firstRequest ++ [atMs 1800 (.httpDone (.reply ⟨1, ⟨1 / 4, 0⟩, "forward 25 cm".toList⟩)),
    atMs 1850 .tick]

theorem init_switchedOn :
    (machine (1 / 10) (35 / 100) : Machine (World ℚ Unit Unit) _).Init switchedOn :=
  ⟨StepCycle.fresh (1 / 10) (35 / 100), ⟨0, 0⟩, by decide +kernel, rfl⟩

end NavidaStepBridge
