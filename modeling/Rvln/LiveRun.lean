/-
# The run of a live episode

`run` of `live_transport.py` takes one episode from its manifest, waits for the simulator,
has the follower stopped, publishes the goal, and once a first embedding has been published it
turns the motor on and lets the follower go.  It drives until the goal is near, the time is up
or five errors have come in, has the follower stopped and waits until the robot stands still.
Whatever goes wrong on the way, the `finally` block stops the follower and turns the motor off,
and the report says what there is.

A run is a procedure of `Procedure`: what it does to the node, the clock and the two services.
What comes from outside is in a `Script`, without any assumption: how long each step takes, which
callbacks run while the node spins, what they are given, what the services answer, and where an
exception is raised.  The texts of the libraries' exceptions are parameters.
-/
import Mathlib.Data.NNRat.Defs
import Rvln.LiveTransport
import Rvln.Procedure
import Rvln.Trig

namespace LiveRun

open LiveTransport (Observation Video HttpCall)

/-! ## The node -/

/-- A row of `trace`. -/
structure TraceRow where
  tSec : ℚ
  x : ℚ
  y : ℚ
  yaw : ℚ
  cmdV : ℚ
  cmdW : ℚ
  deriving DecidableEq

/-- The pose of a message: a position in the plane and a quaternion. -/
structure RosPose where
  x : ℚ
  y : ℚ
  qw : ℚ
  qx : ℚ
  qy : ℚ
  qz : ℚ

/-- An entry of `path_samples`. -/
structure PathSample where
  tSec : Option ℚ
  waypoints : ℕ
  frameId : String
  firstXy : ℚ × ℚ
  selectedXy : ℚ × ℚ
  selectedCosSin : ℚ × ℚ

/-- `Episode`, with what the run and the other callbacks use of it. -/
structure Node extends LiveTransport.Episode where
  trace : List TraceRow
  pathCount : ℕ
  nonemptyPaths : ℕ
  pathSamples : List PathSample
  lastCmd : ℚ × ℚ
  lastCmdAt : ℚ
  lastPose : Option (ℚ × ℚ × ℚ)
  lastOdomPose : Option (ℚ × ℚ)
  lastOdomVelocity : ℚ × ℚ

/-- A message that is handed to a callback.  An inference takes some time. -/
inductive Callback
  | odom (pose : RosPose) (v w : ℚ)
  | state (pose : RosPose)
  | command (v w : ℚ)
  | path (frameId : String) (poses : List RosPose)
  | observation (msg : Observation) (video : Video) (call : HttpCall) (elapsed : NNRat)

/-- How long a callback takes. -/
def Callback.elapsed : Callback → ℚ
  | .observation _ _ _ elapsed => elapsed
  | _ => 0

theorem Callback.elapsed_nonneg (c : Callback) : 0 ≤ c.elapsed := by
  cases c with
  | observation msg video call elapsed => exact elapsed.2
  | _ => exact le_rfl

/-- What the callbacks use of the libraries. -/
structure Libraries where
  fits : PyFloat ℚ → Bool
  levels : ℕ
  norm : List (PyFloat ℚ) → PyFloat ℚ
  describe : LiveTransport.Exn → String

section

variable [Trig ℚ]

namespace Node

/-- `__init__`. -/
def new (instruction : String) : Node where
  toEpisode := .new instruction
  trace := []
  pathCount := 0
  nonemptyPaths := 0
  pathSamples := []
  lastCmd := (0, 0)
  lastCmdAt := 0
  lastPose := none
  lastOdomPose := none
  lastOdomVelocity := (0, 0)

/-- The row that the node would write now. -/
def row (n : Node) (t x y yaw : ℚ) : TraceRow := ⟨t, x, y, yaw, n.lastCmd.1, n.lastCmd.2⟩

/-- `_odom`. -/
def odom (n : Node) (pose : RosPose) (v w : ℚ) : Node :=
  { n with lastOdomPose := some (pose.x, pose.y), lastOdomVelocity := (v, w) }

/-- `_state`. -/
def state (n : Node) (clock : ℚ) (pose : RosPose) : Node :=
  let yaw := Trig.atan2 (2 * (pose.qw * pose.qz + pose.qx * pose.qy))
    (1 - 2 * (pose.qy * pose.qy + pose.qz * pose.qz))
  let n := { n with lastPose := some (pose.x, pose.y, yaw) }
  match n.startedAt with
  | none => n
  | some startedAt =>
      let now := clock - startedAt
      if n.trace.getLast?.all fun last => 9 / 100 ≤ now - last.tSec then
        { n with trace := n.trace ++ [n.row now pose.x pose.y yaw] }
      else n

/-- `_command`. -/
def command (n : Node) (clock v w : ℚ) : Node := { n with lastCmd := (v, w), lastCmdAt := clock }

/-- `_path`. -/
def path (n : Node) (clock : ℚ) (frameId : String) (poses : List RosPose) : Node :=
  let n := { n with pathCount := n.pathCount + 1 }
  match poses with
  | [] => n
  | first :: rest =>
      let n := { n with nonemptyPaths := n.nonemptyPaths + 1 }
      if n.pathSamples.length < 10 then
        let point := (first :: rest)[min 4 rest.length]?.getD first
        { n with pathSamples := n.pathSamples ++ [{
            tSec := n.startedAt.map fun startedAt => clock - startedAt
            waypoints := rest.length + 1
            frameId
            firstXy := (first.x, first.y)
            selectedXy := (point.x, point.y)
            selectedCosSin := (point.qw, point.qz) }] }
      else n

/-- One callback, and the exception that leaves it. -/
def call (lib : Libraries) (n : Node) (clock : ℚ) : Callback → Node × Option LiveTransport.Exn
  | .odom pose v w => (n.odom pose v w, none)
  | .state pose => (n.state clock pose, none)
  | .command v w => (n.command clock v w, none)
  | .path frameId poses => (n.path clock frameId poses, none)
  | .observation msg video call elapsed =>
      let r := n.toEpisode.observation lib.fits lib.levels lib.norm lib.describe msg video call
        (elapsed * 1000)
      ({ n with toEpisode := r.1 }, r.2)

end Node

/-! ## What a run does -/

/-- The two `SetBool` services. -/
inductive Service
  | followerStop
  | motor
  deriving DecidableEq

/-- `client.srv_name`. -/
def Service.srvName : Service → String
  | .followerStop => "/rvln/follower_stop"
  | .motor => "/motor_power"

/-- `stop_reason`. -/
inductive StopReason
  | startupFailure
  | timeout
  | goalTolerance
  | remoteError
  | unconfirmedStop
  deriving DecidableEq

def StopReason.text : StopReason → String
  | .startupFailure => "startup_failure"
  | .timeout => "timeout"
  | .goalTolerance => "goal_tolerance"
  | .remoteError => "remote_error"
  | .unconfirmedStop => "unconfirmed_stop"

/-- The effects of a run. -/
inductive Effect
  /-- Time passes. -/
  | pass (d : NNRat)
  | callback (c : Callback)
  /-- `call_async`. -/
  | request (service : Service) (value : Bool)
  /-- What `set_bool` returns. -/
  | reply (service : Service) (value : Bool) (success : Bool)
  /-- `publish_goal`. -/
  | goal
  /-- From `started_at` on to the first row of the trace. -/
  | start
  /-- `stop_reason = reason`. -/
  | reason (reason : StopReason)
  /-- `confirmed_stop = still`. -/
  | confirmed (still : Bool)
  /-- The last row of the trace. -/
  | finalPose
  /-- `errors.append`. -/
  | error (text : String)
  /-- The writer is released, the node destroyed and ROS shut down. -/
  | close

/-- What the run has asked of the follower and of the motor. -/
structure Asked where
  /-- The last request to the follower, if there was one: whether it is to stop. -/
  follower : Option Bool
  /-- The last request to the motor, if there was one: whether it is to be on. -/
  motor : Option Bool
  /-- The follower has confirmed a stop and was not let go since. -/
  held : Bool
  /-- The motor has confirmed that it is on and was not asked to be off since. -/
  powered : Bool
  /-- The goal is published. -/
  goal : Bool

namespace Asked

/-- A request. -/
def request (a : Asked) : Service → Bool → Asked
  | .followerStop, true => { a with follower := some true }
  | .followerStop, false => { a with follower := some false, held := false }
  | .motor, true => { a with motor := some true }
  | .motor, false => { a with motor := some false, powered := false }

/-- An answer. -/
def reply (a : Asked) : Service → Bool → Bool → Asked
  | .followerStop, true, true => { a with held := true }
  | .motor, true, true => { a with powered := true }
  | _, _, _ => a

end Asked

/-- The clock, the node, the locals of `run` that outlive an exception, and what was asked. -/
structure World where
  clock : ℚ
  node : Node
  stopReason : StopReason
  confirmedStop : Bool
  asked : Asked

namespace World

/-- Where the `try` block starts. -/
def new (clock : ℚ) (instruction : String) : World where
  clock
  node := .new instruction
  stopReason := .startupFailure
  confirmedStop := false
  asked := ⟨none, none, false, false, false⟩

/-- The last command is fresh, and there is next to no motion in it. -/
def still (w : World) : Bool :=
  w.clock - w.node.lastCmdAt < 1 / 2 && max |w.node.lastCmd.1| |w.node.lastCmd.2| < 1 / 1000

/-- The pose is near the goal. -/
def near (w : World) (goalXy : ℚ × ℚ) (tolerance : ℚ) : Bool :=
  w.node.lastPose.any fun pose =>
    Trig.hypot (pose.1 - goalXy.1) (pose.2.1 - goalXy.2) ≤ tolerance

/-- One effect. -/
def next (lib : Libraries) (w : World) : Effect → World
  | .pass d => { w with clock := w.clock + d }
  | .callback c =>
      { w with clock := w.clock + c.elapsed, node := (w.node.call lib w.clock c).1 }
  | .request service value => { w with asked := w.asked.request service value }
  | .reply service value success => { w with asked := w.asked.reply service value success }
  | .goal => { w with asked := { w.asked with goal := true } }
  | .start =>
      { w with node := { w.node with
          startedAt := some w.clock
          trace := w.node.trace ++ (w.node.lastPose.map fun pose =>
            TraceRow.mk 0 pose.1 pose.2.1 pose.2.2 0 0).toList } }
  | .reason reason => { w with stopReason := reason }
  | .confirmed still => { w with confirmedStop := still }
  | .finalPose =>
      { w with node := { w.node with
          trace := w.node.trace ++ (w.node.startedAt.bind fun startedAt =>
            w.node.lastPose.map fun pose =>
              w.node.row (w.clock - startedAt) pose.1 pose.2.1 pose.2.2).toList } }
  | .error text => { w with node := { w.node with errors := w.node.errors ++ [text] } }
  | .close => w

end World

/-- The machine that a run has its effects on. -/
def bench (lib : Libraries) : Machine World Effect where
  Init w := ∃ clock instruction, w = .new clock instruction
  Guard _ _ := True
  next := World.next lib

/-! ## What comes from outside -/

/-- The exceptions of a run. -/
inductive Exn
  /-- One that leaves a callback. -/
  | callback (e : LiveTransport.Exn)
  /-- One that `run` or `set_bool` raises. -/
  | runtime (text : String)
  /-- Another `Exception`, with its text. -/
  | library (text : String)
  /-- No `Exception`, such as `KeyboardInterrupt`. -/
  | interrupt
  deriving DecidableEq

/-- `except Exception`. -/
def Exn.isException : Exn → Bool
  | .interrupt => false
  | _ => true

/-- `str(exc)`. -/
def Exn.text (lib : Libraries) : Exn → String
  | .callback e => LiveTransport.reasonOf lib.describe e
  | .runtime text => text
  | .library text => text
  | .interrupt => ""

/-- Spinning: the callbacks that run, each after some time, and what rclpy itself raises. -/
structure Spin where
  callbacks : List (NNRat × Callback)
  rest : NNRat
  raises : Option Exn

/-- A round of a loop: whether `rclpy.ok()`, and how long it takes to the reading of the clock and
from the end of the spinning to the next one. -/
structure Turn where
  ok : Bool
  before : NNRat
  spin : Spin
  after : NNRat

/-- `set_bool`: what `wait_for_service` does and how long it takes, the spinning, and whether there
is a result with `success` by then. -/
structure Call where
  waited : NNRat
  service : Except Exn Bool
  spin : Spin
  success : Bool

/-- What comes from outside while a node runs, in the order of the source.  A loop may still go
on where its list ends. -/
structure Script where
  toDeadline : NNRat
  startup : List Turn
  followerWaited : NNRat
  followerService : Except Exn Bool
  gate : Call
  goal : List Turn
  toStart : NNRat
  power : Call
  release : Call
  toDrive : NNRat
  drive : List Turn
  stop : Call
  toSettle : NNRat
  settle : List Turn
  toFinal : NNRat
  stopAgain : Call
  powerOff : Call
  toEnd : NNRat

/-! ## The procedures -/

/-- What ends a run without a report: an exception, or that the script ends inside a loop. -/
inductive Stop
  | raised (e : Exn)
  | waiting

section

variable (lib : Libraries)

/-- A piece of the run. -/
abbrev RunM (α : Type) := Procedure (bench lib) Stop α

open Procedure

/-- `raise`. -/
def raise {α : Type} (e : Exn) : RunM lib α := fail (.raised e)

/-- `time.monotonic()`, some time later. -/
def monotonic (d : NNRat) : RunM lib ℚ := do
  emit (.pass d)
  look World.clock

/-- One callback. -/
def runCallback (c : Callback) : RunM lib Unit := do
  let raised ← look fun w => (w.node.call lib w.clock c).2
  emit (.callback c)
  match raised with
  | some e => raise lib (.callback e)
  | none => pure ()

/-- Callbacks, one after the other. -/
def runCallbacks : List (NNRat × Callback) → RunM lib Unit
  | [] => pure ()
  | (d, c) :: rest => do
      emit (.pass d)
      runCallback lib c
      runCallbacks rest

/-- `rclpy.spin_once` and `rclpy.spin_until_future_complete`. -/
def spin (x : Spin) : RunM lib Unit := do
  runCallbacks lib x.callbacks
  emit (.pass x.rest)
  match x.raises with
  | some e => raise lib e
  | none => pure ()

/-- `wait_for_service`. -/
def waitForService (d : NNRat) (service : Except Exn Bool) : RunM lib Bool := do
  emit (.pass d)
  match service with
  | .error e => raise lib e
  | .ok available => pure available

/-- `set_bool`. -/
def setBool (service : Service) (value : Bool) (x : Call) : RunM lib Bool := do
  let available ← waitForService lib x.waited x.service
  if available then
    emit (.request service value)
    spin lib x.spin
    emit (.reply service value x.success)
    pure x.success
  else raise lib (.runtime ("service unavailable: " ++ service.srvName))

/-- `spin_until`. -/
def spinUntil (condition : World → Bool) (deadline : ℚ) : List Turn → RunM lib Bool
  | [] => fail .waiting
  | t :: ts =>
      if t.ok then do
        let now ← monotonic lib t.before
        if now < deadline then
          spin lib t.spin
          let _ ← monotonic lib t.after
          let holds ← look condition
          if holds then pure true else spinUntil condition deadline ts
        else pure false
      else pure false

/-- The arguments of the command line. -/
structure Args where
  model : String
  deployment : String
  episode : String
  text : String
  worldSource : String
  video : String
  startupTimeout : ℚ
  duration : ℚ
  tolerance : ℚ

/-- An episode of the manifest. -/
structure Spec where
  id : String
  scene : String
  text : String
  goalXy : ℚ × ℚ
  shortestM : PyFloat ℚ

/-- The loop that drives. -/
def driveLoop (goalXy : ℚ × ℚ) (tolerance deadline : ℚ) : List Turn → RunM lib Unit
  | [] => fail .waiting
  | t :: ts => do
      let now ← monotonic lib t.before
      if now < deadline then
        spin lib t.spin
        let w ← look id
        if w.node.lastPose.isNone then driveLoop goalXy tolerance deadline ts
        else if w.near goalXy tolerance then emit (.reason .goalTolerance)
        else if 5 ≤ w.node.errors.length then emit (.reason .remoteError)
        else driveLoop goalXy tolerance deadline ts
      else pure ()

/-- `raise RuntimeError(text)` unless the call returned true. -/
def require (result : RunM lib Bool) (text : String) : RunM lib Unit := do
  let ok ← result
  if ok then pure () else raise lib (.runtime text)

/-- The `try` block up to the loop that drives. -/
def startUp (args : Args) (x : Script) : RunM lib Unit := do
  let now ← monotonic lib x.toDeadline
  let deadline := now + args.startupTimeout
  require lib (spinUntil lib (fun w => w.node.lastPose.isSome) deadline x.startup)
    "no Isaac ground-truth pose"
  require lib (waitForService lib x.followerWaited x.followerService)
    "no local follower stop service"
  require lib (setBool lib .followerStop true x.gate) "cannot gate follower"
  emit .goal
  require lib (spinUntil lib (fun w => 0 < w.node.published) deadline x.goal)
    "no remote embedding after goal"
  emit (.pass x.toStart)
  emit .start
  -- the unpacking of `last_pose` behind `started_at`
  require lib (look fun w => w.node.lastPose.isSome) "cannot unpack non-iterable NoneType object"
  require lib (setBool lib .motor true x.power) "cannot enable simulator motor"
  require lib (setBool lib .followerStop false x.release) "cannot release follower"

/-- A goal that was reached counts only with a confirmed stop. -/
def checkStop (still : Bool) : RunM lib Unit := do
  let reason ← look World.stopReason
  if reason = .goalTolerance && !still then emit (.reason .unconfirmedStop) else pure ()

/-- The `try` block behind the loop. -/
def comeToRest (x : Script) : RunM lib Unit := do
  let _ ← setBool lib .followerStop true x.stop
  let now ← monotonic lib x.toSettle
  let still ← spinUntil lib World.still (now + 3) x.settle
  emit (.confirmed still)
  checkStop lib still
  emit (.pass x.toFinal)
  emit .finalPose

/-- The `try` block. -/
def body (args : Args) (goalXy : ℚ × ℚ) (x : Script) : RunM lib Unit := do
  startUp lib args x
  emit (.reason .timeout)
  let now ← monotonic lib x.toDrive
  driveLoop lib goalXy args.tolerance (now + args.duration) x.drive
  comeToRest lib x

/-- `try: p`, `except Exception as exc: errors.append(prefix + str(exc))`: the exception that goes
on, if there is one. -/
def catching (head : String) (p : RunM lib Unit) : RunM lib (Option Exn) := do
  match ← attempt p with
  | .ok _ => pure none
  | .error .waiting => fail .waiting
  | .error (.raised e) =>
      if e.isException then
        emit (.error (head ++ e.text lib))
        pure none
      else pure (some e)

/-- The calls of the `finally` block. -/
def switchOff (x : Script) : RunM lib Unit := do
  let _ ← setBool lib .followerStop true x.stopAgain
  let _ ← setBool lib .motor false x.powerOff

/-- The `finally` block. -/
def shutdown (x : Script) : RunM lib Unit := do
  match ← catching lib "shutdown: " (switchOff lib x) with
  | some e => raise lib e
  | none => emit .close

end

/-! ## The report -/

/-- A report, without the fields that are the same in all of them. -/
structure Report (Oracle : Type) where
  spec : Spec
  model : String
  deployment : String
  oracle : Oracle
  worldSourceSha256 : String
  usdSha256 : String
  wallStartedAt : Option ℚ
  wallEndedAt : ℚ
  instructionSent : String
  trace : List TraceRow
  stopReason : StopReason
  confirmedStop : Bool
  observations : ℕ
  embeddings : ℕ
  paths : ℕ
  nonemptyPaths : ℕ
  pathSamples : List PathSample
  modelVersion : Option Text
  inferences : List LiveTransport.Inference
  errors : List String
  video : String
  videoFrames : ℕ
  finalOdomXy : Option (ℚ × ℚ)

variable {Oracle : Type}

/-- The manifest. -/
structure Manifest (Oracle : Type) where
  episodes : List Spec
  worldSha256 : PyDict String String
  oracle : Oracle

/-- What a run has found out before the node is there. -/
structure Prepared (Oracle : Type) where
  spec : Spec
  instruction : String
  oracle : Oracle
  worldHash : String
  usdHash : String

/-- What comes from outside before the node is there: the hashes of the two files, the answer of
the reset, whether the video opens. -/
structure Files where
  world : Except Exn String
  usd : Except Exn String
  reset : Except Exn Bool
  opened : Except Exn Unit
  readyAt : ℚ

/-- `run` up to the `try` block. -/
def prepare (args : Args) (manifest : Manifest Oracle) (files : Files) :
    Except Exn (Prepared Oracle) := do
  match manifest.episodes.find? fun x => x.id = args.episode with
  | none => .error (.library "")
  | some spec =>
      let worldHash ← files.world
      match manifest.worldSha256.get? spec.scene with
      | none => .error (.library spec.scene)
      | some expected =>
          if worldHash ≠ expected then
            .error (.runtime
              ("world changed since shortest path calculation: " ++ args.worldSource))
          else
            let usdHash ← files.usd
            let reset ← files.reset
            if reset then
              files.opened
              return {
                spec
                instruction := if args.text = "" then spec.text else args.text
                oracle := manifest.oracle
                worldHash
                usdHash }
            else .error (.runtime "remote reset failed")

/-- `assemble_result`. -/
def assembleResult (args : Args) (found : Prepared Oracle) (w : World) : Report Oracle where
  spec := found.spec
  model := args.model
  deployment := args.deployment
  oracle := found.oracle
  worldSourceSha256 := found.worldHash
  usdSha256 := found.usdHash
  wallStartedAt := w.node.startedAt
  wallEndedAt := w.clock
  instructionSent := w.node.instruction
  trace := w.node.trace
  stopReason := w.stopReason
  confirmedStop := w.confirmedStop
  observations := w.node.received
  embeddings := w.node.published
  paths := w.node.pathCount
  nonemptyPaths := w.node.nonemptyPaths
  pathSamples := w.node.pathSamples
  modelVersion := w.node.modelVersion
  inferences := w.node.inferences
  errors := w.node.errors
  video := args.video
  videoFrames := w.node.videoFrames
  finalOdomXy := w.node.lastOdomPose

section

variable (lib : Libraries)

open Procedure

/-- `run` from the `try` block on. -/
def execute (args : Args) (found : Prepared Oracle) (x : Script) : RunM lib (Report Oracle) := do
  let leaving ← catching lib "" (body lib args found.spec.goalXy x)
  shutdown lib x
  match leaving with
  | some e => raise lib e
  | none =>
      let _ ← monotonic lib x.toEnd
      look (assembleResult args found)

/-- `run`: what it does to the node and the services, and how it ends. -/
def run (args : Args) (manifest : Manifest Oracle) (files : Files) (x : Script) :
    List Effect × Except Stop (Report Oracle) :=
  match prepare args manifest files with
  | .error e => ([], .error (.raised e))
  | .ok found => execute lib args found x (.new files.readyAt found.instruction)

end

end

end LiveRun
