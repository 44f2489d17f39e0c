/-
# The small steps of the NaVIDA executor

The callbacks of the executor call one another: five of them drive the power
state machine, and a tick runs it up to twice.  `SmallStep` lists once what any
of this can do to the node, as fourteen kinds of small step at one reading of
the ROS clock.  Every callback is a sequence of small steps, first at its first
reading and then at its second one (`step_smallSteps`), so that an invariant of
the executor needs one proof for each kind (`invariant_of_smallStep`).
-/
import Mathlib.Logic.Relation
import Rvln.NavidaBridge

namespace World

variable {K Image Jpeg : Type*}

/-! ## What the parts of a callback leave alone -/

@[simp] theorem record_node (w : World K Image Jpeg) (act : Act K Jpeg) :
    (w.record act).node = w.node := rfl

@[simp] theorem setCycle_node (w : World K Image Jpeg) (c : StepCycle K) :
    (w.setCycle c).node = { w.node with cycle := c } := by
  unfold setCycle
  dsimp only
  split <;> rfl

@[simp] theorem setPower_node (w : World K Image Jpeg) (s : PowerState) :
    (w.setPower s).node = { w.node with powerState := s } := rfl

@[simp] theorem publish_node (w : World K Image Jpeg) (nowNs : ℤ) (linear angular : K) :
    (w.publish nowNs linear angular).node = w.node := rfl

/-- The history after `setCycle`. -/
theorem setCycle_trace (w : World K Image Jpeg) (c : StepCycle K) :
    (w.setCycle c).trace =
      if c.stopped && !w.node.cycle.stopped then ⟨.halted, { w.node with cycle := c }⟩ :: w.trace
      else w.trace := by
  unfold setCycle
  dsimp only
  split <;> rfl

section

variable [Field K] [LinearOrder K] [Trig K]

/-- The node after `observe`. -/
theorem observe_node (w : World K Image Jpeg) (pose : Pose K) (stampNs : ℤ) (now : K)
    (nowNs : ℤ) : (w.observe pose stampNs now nowNs).node =
      { w.node with cycle := w.node.cycle.observe pose stampNs now nowNs } := by
  rw [← setCycle_node]
  unfold observe
  dsimp only
  split <;> split <;> rfl

/-- The history after `observe`. -/
theorem observe_trace (w : World K Image Jpeg) (pose : Pose K) (stampNs : ℤ) (now : K)
    (nowNs : ℤ) :
    let c := w.node.cycle.observe pose stampNs now nowNs
    let node := { w.node with cycle := c }
    let trace := if w.node.cycle.odomNs < stampNs then ⟨.sample pose stampNs, node⟩ :: w.trace
      else w.trace
    (w.observe pose stampNs now nowNs).trace =
      if w.node.cycle.settling && !c.settling then ⟨.standstill, node⟩ :: trace else trace := by
  have htrace : (w.setCycle (w.node.cycle.observe pose stampNs now nowNs)).trace = w.trace := by
    rw [setCycle_trace, StepCycle.observe_stopped]
    cases w.node.cycle.stopped <;> rfl
  unfold observe
  dsimp only
  by_cases hnew : w.node.cycle.odomNs < stampNs
  · simp only [hnew, if_true, setCycle_node, record, htrace]
    split <;> rfl
  · simp only [hnew, if_false, setCycle_node]
    split
    · exact congrArg₂ List.cons (by rw [setCycle_node]) htrace
    · exact htrace

end

end World

namespace StepCycle

/-- The cycle is where it was on its way to a confirmed stop; an action may have
started. -/
structure Keeps {K : Type*} (c c' : StepCycle K) : Prop where
  settling : c'.settling = c.settling
  stopNs : c'.stopNs = c.stopNs
  settlePose : c'.settlePose = c.settlePose
  settleStampNs : c'.settleStampNs = c.settleStampNs
  stableSinceNs : c'.stableSinceNs = c.stableSinceNs
  settleNotBeforeNs : c'.settleNotBeforeNs = c.settleNotBeforeNs
  rest : c'.action = none → c.action = none ∧ c'.floorNs = c.floorNs

/-- What a call other than `observe` can do to a stop: begin it or leave it. -/
structure Turns {K : Type*} (c c' : StepCycle K) (nowNs : ℤ) : Prop where
  odomNs : c'.odomNs = c.odomNs
  stop : c'.Begun nowNs ∨ c.Keeps c'

/-- A cycle keeps itself. -/
theorem Keeps.refl {K : Type*} (c : StepCycle K) : c.Keeps c :=
  ⟨rfl, rfl, rfl, rfl, rfl, rfl, fun h => ⟨h, rfl⟩⟩

/-- `cancel` begins a stop. -/
theorem turns_cancel {K : Type*} [Field K] (c : StepCycle K) (nowNs : ℤ) (now : K)
    (stopped : Bool) : c.Turns (c.cancel nowNs now stopped) nowNs :=
  ⟨rfl, Or.inl (begun_cancel c nowNs now stopped)⟩

/-- So does `fail`. -/
theorem turns_fail {K : Type*} [Field K] (c : StepCycle K) (reason : String) (now : K)
    (nowNs : ℤ) : c.Turns (c.fail reason now nowNs) nowNs :=
  ⟨rfl, Or.inl (begun_fail c reason now nowNs)⟩

section

variable {K : Type*} [Field K] [LinearOrder K] {c : StepCycle K} {now : K} {nowNs : ℤ}

/-- A start turns to a new motion, or begins a stop at once. -/
theorem Started.turns {action : NavidaAction K} {r : StepCycle K × Bool}
    (h : Started c action now nowNs r) :
    c.Turns r.1 nowNs ∧ r.1.stopped = c.stopped ∧ (r.2 = true → c.stopped = false) := by
  cases h with
  | refused => exact ⟨⟨rfl, Or.inr (.refl c)⟩, rfl, fun h => by cases h⟩
  | settles hstop =>
      exact ⟨⟨rfl, Or.inl (begun_beginSettling _ _ _ _)⟩, rfl, fun _ => hstop⟩
  | engaged hstop =>
      exact ⟨⟨rfl, Or.inr ⟨rfl, rfl, rfl, rfl, rfl, rfl, fun h => by cases h⟩⟩, rfl,
        fun _ => hstop⟩

/-- A reply starts a motion, begins a stop or is turned down, and none of them ends a
forced stop. -/
theorem Accepted.turns {action : NavidaAction K} {r : StepCycle K × Bool}
    (h : Accepted c action now nowNs r) :
    c.Turns r.1 nowNs ∧ (c.stopped = true → r.1.stopped = true) ∧
      (r.2 = true → r.1.stopped = false) := by
  cases h with
  | discarded => exact ⟨⟨rfl, Or.inr (.refl c)⟩, id, fun h => by cases h⟩
  | expired =>
      exact ⟨⟨rfl, Or.inl (begun_fail _ _ now nowNs)⟩, fun _ => rfl, fun h => by cases h⟩
  | started hr =>
      obtain ⟨hturns, hstop, hstarted⟩ := hr.turns
      have hstop : r.1.stopped = c.stopped := hstop
      refine ⟨⟨hturns.odomNs, hturns.stop.imp id fun hkeeps => ?_⟩, ?_, ?_⟩
      · exact { hkeeps with rest := hkeeps.rest }
      · rw [hstop]
        exact id
      · rw [hstop]
        exact hstarted

end

/-- A command turns to nothing but a stop, and moves only a cycle that is
neither stopped nor settling. -/
theorem Commanded.turns {K : Type*} [Field K] {c : StepCycle K} {now : K} {nowNs : ℤ}
    {motionEnabled : Bool} {r : StepCycle K × K × K}
    (h : Commanded c now nowNs motionEnabled r) :
    c.Turns r.1 nowNs ∧ (c.stopped = true → r.1.stopped = true) ∧
      (r.2 = (0, 0) ∨ motionEnabled = true ∧ r.1.stopped = false ∧ r.1.settling = false ∧
        r.1.action.isSome = true) := by
  cases h with
  | idle => exact ⟨⟨rfl, Or.inr (.refl c)⟩, id, Or.inl rfl⟩
  | failed reason => exact ⟨turns_fail c reason now nowNs, fun _ => rfl, Or.inl rfl⟩
  | held =>
      exact ⟨⟨rfl, Or.inr ⟨rfl, rfl, rfl, rfl, rfl, rfl, fun h => ⟨h, rfl⟩⟩⟩, id, Or.inl rfl⟩
  | arrived =>
      exact ⟨⟨rfl, Or.inl (begun_beginSettling _ _ _ _)⟩, id, Or.inl rfl⟩
  | moved _ _ _ _ _ henabled hsettle hstop haction =>
      exact ⟨⟨rfl, Or.inr ⟨rfl, rfl, rfl, rfl, rfl, rfl, fun h => ⟨h, rfl⟩⟩⟩, id,
        Or.inr ⟨henabled, hstop, hsettle, haction⟩⟩

end StepCycle

namespace NavidaStepBridge

open World

variable {K Image Jpeg : Type*}

/-! ## The small steps -/

/-- The start of a primitive, of a reply or of the queue, or the event that is printed
of it. -/
def IsStart : Act K Jpeg → Prop
  | .replyStarted .. => True
  | .queueStarted _ => True
  | .event (.actionStarted ..) => True
  | .event (.chunkActionStarted ..) => True
  | _ => False

variable [Field K] [LinearOrder K]

/-- Acts that no property is about: a stop command, an acknowledgement, and the
printed events other than a start. -/
def Quiet : Act K Jpeg → Prop
  | .publish linear angular _ => linear = 0 ∧ angular = 0
  | .powerAcked => True
  | .event e => ¬ IsStart (.event e : Act K Jpeg)
  | _ => False

variable [Trig K]

/-- One small step of the executor at the reading `nowNs` of the ROS clock. -/
inductive SmallStep (nowNs : ℤ) : World K Image Jpeg → World K Image Jpeg → Prop
  /-- Attributes that no property is about. -/
  | aside {w : World K Image Jpeg} (n : NavidaStepBridge K Image Jpeg) :
      n.cycle = w.node.cycle → n.powerState = w.node.powerState → n.future = w.node.future →
      SmallStep nowNs w { w with node := n }
  | note {w : World K Image Jpeg} (act : Act K Jpeg) : Quiet act →
      SmallStep nowNs w (w.record act)
  /-- A call of the cycle that neither observes nor ends a forced stop. -/
  | turn {w : World K Image Jpeg} (c : StepCycle K) : w.node.cycle.Turns c nowNs →
      (w.node.cycle.stopped = true → c.stopped = true) → SmallStep nowNs w (w.setCycle c)
  /-- The forced stop ends. -/
  | resume {w : World K Image Jpeg} (now : K) :
      SmallStep nowNs w ((w.setCycle (w.node.cycle.cancel nowNs now false)).record .resumed)
  /-- A command of an active primitive. -/
  | move {w : World K Image Jpeg} (linear angular : K) : w.node.powerState = .ready →
      w.node.cycle.stopped = false → w.node.cycle.settling = false →
      w.node.cycle.action.isSome = true → SmallStep nowNs w (w.publish nowNs linear angular)
  /-- A primitive has started. -/
  | start {w : World K Image Jpeg} (act : Act K Jpeg) : IsStart act →
      w.node.cycle.stopped = false → SmallStep nowNs w (w.record act)
  | observe {w : World K Image Jpeg} (pose : Pose K) (stampNs : ℤ) (now : K) : stampNs ≤ nowNs →
      SmallStep nowNs w (w.observe pose stampNs now nowNs)
  /-- The motors are to be switched off. -/
  | toStop {w : World K Image Jpeg} : SmallStep nowNs w (w.setPower .stop)
  | callDisable {w : World K Image Jpeg} (n : NavidaStepBridge K Image Jpeg) :
      w.node.powerState = .stop → n.cycle = w.node.cycle → n.powerState = .disabling →
      n.future = w.node.future →
      SmallStep nowNs w (World.record { w with node := n } (.callPower false))
  | callEnable {w : World K Image Jpeg} (n : NavidaStepBridge K Image Jpeg) :
      w.node.powerState = .off → w.node.cycle.settling = false → n.cycle = w.node.cycle →
      n.powerState = .enabling → n.future = w.node.future →
      SmallStep nowNs w (World.record { w with node := n } (.callPower true))
  /-- The disable is acknowledged. -/
  | disabled {w : World K Image Jpeg} (now : K) : w.node.powerState = .disabling →
      SmallStep nowNs w (((w.record .powerAcked).setPower .off).setCycle
        (w.node.cycle.confirmMotorDisabled nowNs now))
  /-- The enable is acknowledged. -/
  | enabled {w : World K Image Jpeg} (n : NavidaStepBridge K Image Jpeg) :
      w.node.powerState = .enabling → n.cycle = w.node.cycle → n.powerState = .verify →
      n.future = w.node.future → SmallStep nowNs w { w.record .powerAcked with node := n }
  /-- The robot stands still after the enable. -/
  | verified {w : World K Image Jpeg} : w.node.powerState = .verify →
      SmallStep nowNs w (w.verified nowNs)
  /-- The worker is handed an inference. -/
  | submit {w : World K Image Jpeg} (token : Request) (goal : String) (jpeg : Jpeg) :
      w.node.cycle.settling = false → w.node.cycle.action = none →
      w.node.cycle.floorNs < token.captureNs → w.node.future = none →
      SmallStep nowNs w { w.record (.submit token goal jpeg) with
        node := { w.node with future := some .pending } }
  /-- The result of an inference is taken. -/
  | take {w : World K Image Jpeg} (outcome : HttpOutcome K) :
      w.node.future = some (.done outcome) →
      SmallStep nowNs w { w with node := { w.node with future := none, requestToken := none } }
  /-- The worker completes an inference. -/
  | inferred {w : World K Image Jpeg} (outcome : HttpOutcome K) :
      w.node.future = some .pending → SmallStep nowNs w (w.httpDone outcome)

/-- A sequence of small steps at one reading of the clock. -/
def SmallSteps (nowNs : ℤ) : World K Image Jpeg → World K Image Jpeg → Prop :=
  Relation.ReflTransGen (SmallStep nowNs)

variable {w : World K Image Jpeg} {now : K} {nowNs : ℤ}

/-- One small step is a sequence of them. -/
theorem SmallStep.steps {w w' : World K Image Jpeg} (h : SmallStep nowNs w w') :
    SmallSteps nowNs w w' := Relation.ReflTransGen.single h

/-! ## Motor power -/

/-- A failure of the cycle, then possibly a stop command, then the motors off. -/
theorem fail_setPower_steps (w : World K Image Jpeg) (reason : String) (now : K) (nowNs : ℤ) :
    SmallSteps nowNs w
      ((w.setCycle (w.node.cycle.fail reason now nowNs)).setPower .stop) := by
  have hfail : SmallStep nowNs w (w.setCycle (w.node.cycle.fail reason now nowNs)) :=
    .turn _ (StepCycle.turns_fail _ reason now nowNs) fun _ => rfl
  exact hfail.steps.tail .toStop

/-- A failed power request fails the cycle and stops the robot. -/
theorem powerFailed_steps (w : World K Image Jpeg) (reason : String) (now : K) (nowNs : ℤ) :
    SmallSteps nowNs w (w.powerFailed reason now nowNs) := by
  have hfail : SmallStep nowNs w (w.setCycle (w.node.cycle.fail reason now nowNs)) :=
    .turn _ (StepCycle.turns_fail _ reason now nowNs) fun _ => rfl
  exact (hfail.steps.tail (.note (.publish 0 0 nowNs) ⟨rfl, rfl⟩)).tail .toStop

/-- An acknowledgement confirms that the motors are off, or leaves them to be verified. -/
theorem powerAcked_steps (w : World K Image Jpeg) (now : K) (nowNs : ℤ) :
    SmallSteps nowNs w (w.powerAcked now nowNs) := by
  unfold powerAcked
  dsimp only [record_node]
  split
  · rename_i hpower
    exact SmallStep.steps (.disabled now hpower)
  · rename_i hpower
    exact SmallStep.steps (.enabled _ hpower rfl rfl rfl)
  · exact SmallStep.steps (.note .powerAcked trivial)

/-- A stop command comes before every power request. -/
theorem powerRequest_steps (w : World K Image Jpeg) (now : K) (nowNs : ℤ) :
    SmallSteps nowNs w (w.powerRequest now nowNs) := by
  -- the request itself, after the check of the timeout
  have hrequest : ∀ w : World K Image Jpeg,
      SmallSteps nowNs w
        (if w.node.powerState = .stop ∨
            (w.node.powerState = .off ∧ w.node.cycle.settling = false) then
          World.record { (w.publish nowNs 0 0) with node := { w.node with
              powerAt := now
              powerState := if w.node.powerState = .off ∧ w.node.cycle.settling = false then
                .enabling else .disabling
              powerFuture := some .pending } }
            (.callPower (decide (w.node.powerState = .off ∧ w.node.cycle.settling = false)))
        else w) := by
    intro w
    have hpublish : SmallStep nowNs w (w.publish nowNs 0 0) := .note _ ⟨rfl, rfl⟩
    split
    · rename_i hcall
      by_cases henable : w.node.powerState = .off ∧ w.node.cycle.settling = false
      · rw [decide_eq_true henable]
        refine hpublish.steps.tail (.callEnable _ henable.1 henable.2 rfl ?_ rfl)
        exact if_pos henable
      · rw [decide_eq_false henable]
        refine hpublish.steps.tail (.callDisable _ (hcall.resolve_right henable) rfl ?_ rfl)
        exact if_neg henable
    · exact Relation.ReflTransGen.refl
  unfold powerRequest
  dsimp only
  split
  · exact (fail_setPower_steps w _ now nowNs).trans (hrequest _)
  · exact hrequest w

/-- The power state machine takes up an answer and asks anew. -/
theorem powerTick_steps (w : World K Image Jpeg) (now : K) (nowNs : ℤ) :
    SmallSteps nowNs w (w.powerTick now nowNs) := by
  have htaken : SmallSteps nowNs w { w with node := { w.node with powerFuture := none } } :=
    SmallStep.steps (.aside _ rfl rfl rfl)
  unfold powerTick
  dsimp only
  split
  · exact powerRequest_steps w now nowNs
  · split
    · exact Relation.ReflTransGen.refl
    · exact (htaken.trans (powerFailed_steps _ _ now nowNs)).trans (powerRequest_steps _ now nowNs)
  · exact (htaken.trans (powerFailed_steps _ _ now nowNs)).trans (powerRequest_steps _ now nowNs)
  · exact (htaken.trans (powerFailed_steps _ _ now nowNs)).trans (powerRequest_steps _ now nowNs)
  · exact (htaken.trans (powerAcked_steps _ now nowNs)).trans (powerRequest_steps _ now nowNs)

/-- Switching off stops the robot first. -/
theorem stopPower_steps (w : World K Image Jpeg) (clocks : Clocks K) :
    SmallSteps clocks.nowNs w (w.stopPower clocks) := by
  have hpublish : SmallStep clocks.nowNs w (w.publish clocks.nowNs 0 0) := .note _ ⟨rfl, rfl⟩
  unfold stopPower
  dsimp only
  split
  · exact hpublish.steps.trans (powerTick_steps _ _ _)
  · exact (hpublish.steps.tail .toStop).trans (powerTick_steps _ _ _)

/-- A callback: small steps at its first reading of the clock, then at its second. -/
def Callback (first second : Clocks K) (w w' : World K Image Jpeg) : Prop :=
  ∃ mid, SmallSteps first.nowNs w mid ∧ SmallSteps second.nowNs mid w'

variable {first second : Clocks K}

/-- A callback that reads the clock once. -/
theorem Callback.of_first {w' : World K Image Jpeg} (h : SmallSteps first.nowNs w w') :
    Callback first second w w' := ⟨w', h, Relation.ReflTransGen.refl⟩

/-! ## Goals, observations and the forced stop -/

/-- A new goal cancels what is in progress and switches off. -/
theorem setGoal_callback (w : World K Image Jpeg) (text : Option String) (restart : Bool)
    (first second : Clocks K) : Callback first second w (w.setGoal text restart first second) := by
  unfold setGoal
  split
  · let w' : World K Image Jpeg :=
      { w with node := { w.node with goal := text, latest := none, queue := [] } }
    let c := w.node.cycle.cancel first.nowNs first.now (w.node.cycle.stopped || text.isNone)
    have haside : SmallStep first.nowNs w w' := .aside _ rfl rfl rfl
    have hcancel : SmallStep first.nowNs w' (w'.setCycle c) := by
      refine .turn c (StepCycle.turns_cancel _ _ _ _) fun hstop => ?_
      show (w.node.cycle.stopped || text.isNone) = true
      rw [show w.node.cycle.stopped = true from hstop, Bool.true_or]
    have hstop := stopPower_steps (w'.setCycle c) second
    exact ⟨w'.setCycle c, haside.steps.tail hcancel, hstop.tail (.note _ id)⟩
  · exact Callback.of_first Relation.ReflTransGen.refl

/-- An observation with another goal sets it. -/
theorem onObservation_callback (w : World K Image Jpeg) (msg : Observation K Image Jpeg) :
    Callback first second w (w.onObservation msg first second) := by
  obtain ⟨mid, hfirst, hsecond⟩ :=
    setGoal_callback w msg.goal.text? false first second
  exact ⟨mid, hfirst, hsecond.tail (.aside _ rfl rfl rfl)⟩

/-- A forced stop cancels, and its end resumes. -/
theorem onForcedStop_callback (w : World K Image Jpeg) (data : Bool) :
    Callback first second w (w.onForcedStop data first second) := by
  let c := w.node.cycle.cancel first.nowNs first.now data
  have hcancel : SmallSteps first.nowNs w
      (if data then w.setCycle c else (w.setCycle c).record .resumed) := by
    cases data with
    | true => exact SmallStep.steps (.turn c (StepCycle.turns_cancel _ _ _ _) fun _ => rfl)
    | false => exact SmallStep.steps (.resume first.now)
  unfold onForcedStop
  dsimp only
  exact ⟨_, hcancel.tail (.aside { World.node _ with queue := [] } rfl rfl rfl),
    stopPower_steps _ second⟩

/-! ## Odometry -/

/-- The stamp of a pose that passes the checks is not in the future. -/
theorem stampNs_le_of_pose? {msg : OdometryMsg K} {pose : Pose K}
    (h : msg.pose? nowNs = some pose) : msg.stampNs ≤ nowNs := by
  unfold OdometryMsg.pose? at h
  split at h
  · split at h
    · cases h
    · rename_i hvalid
      simp only [not_or, not_lt] at hvalid
      exact hvalid.2.2.1
  · cases h

/-- The motors become ready once the robot has stood still for 200 ms. -/
theorem verifyPower_steps (w : World K Image Jpeg) (pose : Pose K) (stampNs nowNs : ℤ) :
    SmallSteps nowNs w (w.verifyPower pose stampNs nowNs) := by
  unfold verifyPower
  split
  · rename_i hverify
    dsimp only
    split
    · split
      · have haside : SmallStep nowNs w { w with node := { w.node with
            powerPose := w.node.cycle.pose
            powerStamp := stampNs } } := .aside _ rfl rfl rfl
        exact haside.steps.tail (.verified hverify.1)
      · exact SmallStep.steps (.aside _ rfl rfl rfl)
    · exact SmallStep.steps (.aside _ rfl rfl rfl)
  · exact Relation.ReflTransGen.refl

/-- Odometry is observed and verifies the motors; a message that fails the checks fails
the cycle. -/
theorem onOdom_callback (w : World K Image Jpeg) (msg : OdometryMsg K) :
    Callback first second w (w.onOdom msg first second) := by
  unfold onOdom
  split
  · have hfail : SmallStep first.nowNs w
        (w.setCycle (w.node.cycle.fail "invalid odometry" first.now first.nowNs)) :=
      .turn _ (StepCycle.turns_fail _ _ _ _) fun _ => rfl
    exact ⟨_, hfail.steps, stopPower_steps _ second⟩
  · rename_i pose hpose
    have hobserve : SmallStep first.nowNs w
        (w.observe pose msg.stampNs first.now first.nowNs) :=
      .observe pose msg.stampNs first.now (stampNs_le_of_pose? hpose)
    exact Callback.of_first (hobserve.steps.trans (verifyPower_steps _ pose _ _))

/-! ## The timer -/

/-- A failed request fails the cycle, or is left to the generation that runs by now. -/
theorem requestFailed_steps (w : World K Image Jpeg) (token : Request) (reason : String)
    (now : K) (nowNs : ℤ) : SmallSteps nowNs w (w.requestFailed token reason now nowNs) := by
  unfold requestFailed
  dsimp only
  split
  · have hfail : SmallStep nowNs w (w.setCycle (w.node.cycle.fail reason now nowNs)) :=
      .turn _ (StepCycle.turns_fail _ reason now nowNs) fun _ => rfl
    exact hfail.steps.tail (.note _ id)
  · exact SmallStep.steps (.note _ id)

/-- A reply is taken: the call of `accept`, then the start and what is queued behind it. -/
theorem acceptReply_steps (w : World K Image Jpeg) (token : Request) (reply : Reply K) (now : K)
    (nowNs : ℤ) : SmallSteps nowNs w (w.acceptReply token reply now nowNs).1 := by
  obtain ⟨hturns, hstop, hstarted⟩ :=
    (StepCycle.accept_cases w.node.cycle token reply.action now nowNs).turns
  have hturn : SmallStep nowNs w
      (w.setCycle (w.node.cycle.accept token reply.action now nowNs).1) := .turn _ hturns hstop
  unfold acceptReply
  dsimp only
  split
  · rename_i h
    let w₁ := w.setCycle (w.node.cycle.accept token reply.action now nowNs).1
    have hrun : w₁.node.cycle.stopped = false := by
      show (World.setCycle _ _).node.cycle.stopped = false
      rw [setCycle_node]
      exact hstarted h
    let w₂ := w₁.record (.replyStarted token reply)
    have hstart : SmallSteps nowNs w w₂ := hturn.steps.tail (.start _ trivial hrun)
    split
    · exact hstart
    · rename_i queue _
      have hqueue : SmallStep nowNs w₂ { w₂ with node := { w₂.node with queue := queue } } :=
        .aside _ rfl rfl rfl
      exact (hstart.tail hqueue).tail (.start (.event (.actionStarted ..)) trivial hrun)
  · exact hturn.steps.tail (.note _ id)

/-- The future is taken, and its request fails or is answered. -/
theorem finishRequest_steps (w : World K Image Jpeg) (now : K) (nowNs : ℤ) :
    SmallSteps nowNs w (w.finishRequest now nowNs).1 := by
  unfold finishRequest
  split
  · rename_i outcome token hfuture _
    have htake : SmallStep nowNs w
        { w with node := { w.node with future := none, requestToken := none } } :=
      .take outcome hfuture
    dsimp only
    split
    · exact htake.steps
    · exact htake.steps.trans (requestFailed_steps _ token _ now nowNs)
    · split
      · exact htake.steps.trans (requestFailed_steps _ token _ now nowNs)
      · exact htake.steps.trans (acceptReply_steps _ token _ now nowNs)
  · exact Relation.ReflTransGen.refl

/-- What a tick prints and drops behind the command. -/
theorem report_steps (w : World K Image Jpeg) (active : Bool) (nowNs : ℤ) :
    SmallSteps nowNs w (((w.reportZero active).reportFault).dropQueue) := by
  have hzero : SmallSteps nowNs w (w.reportZero active) := by
    unfold reportZero
    split
    · exact SmallStep.steps (.note _ id)
    · exact Relation.ReflTransGen.refl
  have hfault : ∀ w : World K Image Jpeg, SmallSteps nowNs w w.reportFault := by
    intro w
    have haside : SmallStep nowNs w
        { w with node := { w.node with lastFault := w.node.cycle.fault } } := .aside _ rfl rfl rfl
    unfold reportFault
    split
    · dsimp only
      split
      · exact haside.steps
      · exact haside.steps.tail (.note _ id)
    · exact Relation.ReflTransGen.refl
  have hqueue : ∀ w : World K Image Jpeg, SmallSteps nowNs w w.dropQueue := by
    intro w
    unfold dropQueue
    split
    · exact SmallStep.steps (.aside _ rfl rfl rfl)
    · exact Relation.ReflTransGen.refl
  exact (hzero.trans (hfault _)).trans (hqueue _)

/-- A request is pending before it is submitted. -/
theorem ask_steps (w : World K Image Jpeg) (now : K) (nowNs : ℤ) :
    SmallSteps nowNs w (w.ask now nowNs) := by
  unfold ask
  split
  · rename_i obs goal _ _
    split
    · rename_i hready
      dsimp only
      split
      · split
        · exact Relation.ReflTransGen.refl
        · rename_i c token hrequest
          obtain ⟨hsettle, haction, hfloor, rfl, hcapture⟩ := StepCycle.request_ok hrequest
          have hturn : SmallStep nowNs w
              (w.setCycle { w.node.cycle with pending := some token }) :=
            .turn _ ⟨rfl, Or.inr ⟨rfl, rfl, rfl, rfl, rfl, rfl, fun h => ⟨h, rfl⟩⟩⟩ id
          let w₁ := w.setCycle { w.node.cycle with pending := some token }
          let w₂ := { w₁ with node := { w₁.node with requestToken := some token } }
          have haside : SmallStep nowNs w₁ w₂ := .aside _ rfl rfl rfl
          -- pending, token and event come before the submission, which sees them all
          have hnode : w₂.node = { w.node with
              cycle := { w.node.cycle with pending := some token }
              requestToken := some token } := by
            show { (World.setCycle _ _).node with requestToken := some token } = _
            rw [setCycle_node]
          have hnote : SmallStep nowNs w₂ (w₂.record (.event (.request token.frameId
              (obs.stampSec * 1000000000 + obs.stampNanosec) w₂.node.cycle.floorNs))) :=
            .note _ id
          refine ((hturn.steps.tail haside).tail hnote).tail
            (.submit token goal obs.jpeg ?_ ?_ ?_ ?_)
          all_goals rw [record_node, hnode]
          · exact hsettle
          · exact haction
          · rw [hcapture]
            exact hfloor
          · exact Option.isNone_iff_eq_none.mp hready.2
      · exact Relation.ReflTransGen.refl
    · exact Relation.ReflTransGen.refl
  · exact Relation.ReflTransGen.refl

/-- The next queued primitive is started, or the next request is made. -/
theorem proceed_steps (w : World K Image Jpeg) (now : K) (nowNs : ℤ) :
    SmallSteps nowNs w (w.proceed now nowNs) := by
  unfold proceed
  split
  · exact ask_steps w now nowNs
  · rename_i action queue _
    split
    · obtain ⟨hturns, hstop, hstarted⟩ :=
        (StepCycle.start_cases w.node.cycle action now nowNs).turns
      have hturn : SmallStep nowNs w
          (w.setCycle (w.node.cycle.start action now nowNs).1) :=
        .turn _ hturns fun h => hstop.trans h
      dsimp only
      split
      · rename_i h
        let w₁ := w.setCycle (w.node.cycle.start action now nowNs).1
        have hrun : w₁.node.cycle.stopped = false := by
          show (World.setCycle _ _).node.cycle.stopped = false
          rw [setCycle_node]
          exact hstop.trans (hstarted h)
        let w₂ := w₁.record (.queueStarted action)
        have hstart : SmallSteps nowNs w w₂ := hturn.steps.tail (.start _ trivial hrun)
        have hqueue : SmallStep nowNs w₂ { w₂ with node := { w₂.node with queue := queue } } :=
          .aside _ rfl rfl rfl
        exact (hstart.tail hqueue).tail (.start (.event (.chunkActionStarted ..)) trivial hrun)
      · exact hturn.steps.trans (ask_steps _ now nowNs)
    · exact ask_steps w now nowNs

/-! ### Past the motor power -/

omit [Trig K] in
/-- Only the odometry callback makes the motors ready. -/
theorem ready_of_powerRequest (h : (w.powerRequest now nowNs).node.powerState = .ready) :
    w.node.powerState = .ready := by
  unfold powerRequest at h
  by_cases hverify : w.node.powerState = .verify ∧ 2 < now - w.node.powerAt
  · simp only [hverify, and_self, if_true, setPower_node, true_or] at h
    simp [record, publish] at h
  · simp only [if_neg hverify] at h
    split at h
    · rename_i hcall
      simp only [record_node] at h
      split at h <;> cases h
    · exact h

omit [Trig K] in
/-- So it is for the whole of `_power_tick`. -/
theorem ready_of_powerTick (h : (w.powerTick now nowNs).node.powerState = .ready) :
    w.node.powerState = .ready := by
  unfold powerTick at h
  dsimp only at h
  split at h
  · exact ready_of_powerRequest h
  · split at h
    · exact h
    · cases ready_of_powerRequest h
  · cases ready_of_powerRequest h
  · cases ready_of_powerRequest h
  · have hacked := ready_of_powerRequest h
    unfold powerAcked at hacked
    dsimp only [record_node] at hacked
    split at hacked
    · rw [setCycle_node] at hacked
      cases hacked
    · cases hacked
    · exact hacked

omit [Trig K] in
/-- After `_stop_power` the motors are not ready. -/
theorem not_ready_stopPower (w : World K Image Jpeg) (clocks : Clocks K) :
    (w.stopPower clocks).node.powerState ≠ .ready := by
  intro h
  have hready := ready_of_powerTick h
  split at hready
  · rename_i hoff
    rcases hoff with hoff | hoff <;> rw [hready] at hoff <;> cases hoff
  · cases hready

omit [LinearOrder K] in
/-- What a tick prints and drops leaves the power state alone. -/
theorem report_powerState (w : World K Image Jpeg) (active : Bool) :
    (((w.reportZero active).reportFault).dropQueue).node.powerState = w.node.powerState := by
  have hzero : (w.reportZero active).node.powerState = w.node.powerState := by
    unfold reportZero
    split <;> rfl
  have hfault : ∀ w : World K Image Jpeg,
      w.reportFault.node.powerState = w.node.powerState := by
    intro w
    unfold reportFault
    split
    · dsimp only
      split <;> rfl
    · rfl
  have hqueue : ∀ w : World K Image Jpeg, w.dropQueue.node.powerState = w.node.powerState := by
    intro w
    unfold dropQueue
    split <;> rfl
  rw [hqueue, hfault, hzero]

/-- Without the motors a tick starts nothing and asks for nothing. -/
theorem proceed_of_not_ready (h : w.node.powerState ≠ .ready) : w.proceed now nowNs = w := by
  have hask : w.ask now nowNs = w := by
    unfold ask
    split
    · rw [if_neg fun hr => h hr.1]
    · rfl
  unfold proceed
  split
  · exact hask
  · rw [if_neg fun hr => h hr.1, hask]

/-- The command, and the stop behind it if the cycle settles. -/
theorem drive_cases (w : World K Image Jpeg) (first second : Clocks K) :
    SmallSteps first.nowNs w (w.drive first second) ∨
      Callback first second w (w.drive first second) ∧
        (w.drive first second).node.powerState ≠ .ready := by
  obtain ⟨hturns, hstop, hmove⟩ := (StepCycle.command_cases w.node.cycle first.now first.nowNs
    (decide (w.node.powerState = .ready))).turns
  let r := w.node.cycle.command first.now first.nowNs (decide (w.node.powerState = .ready))
  let w₁ := w.setCycle r.1
  have hturn : SmallStep first.nowNs w w₁ := .turn _ hturns hstop
  have hnode : w₁.node = { w.node with cycle := r.1 } := setCycle_node w r.1
  have hpublish : SmallStep first.nowNs w₁ (w₁.publish first.nowNs r.2.1 r.2.2) := by
    rcases hmove with hzero | ⟨henabled, hstopped, hsettle, haction⟩
    · exact .note _ (by rw [show r.2 = (0, 0) from hzero]; exact ⟨rfl, rfl⟩)
    · have hready : w₁.node.powerState = .ready := by
        rw [hnode]
        exact of_decide_eq_true henabled
      refine .move r.2.1 r.2.2 hready ?_ ?_ ?_
      all_goals rw [hnode]
      · exact hstopped
      · exact hsettle
      · exact haction
  have hsteps : SmallSteps first.nowNs w (w₁.publish first.nowNs r.2.1 r.2.2) :=
    hturn.steps.tail hpublish
  unfold drive
  dsimp only
  split
  · exact Or.inr ⟨⟨_, hsteps, stopPower_steps _ second⟩, not_ready_stopPower _ second⟩
  · exact Or.inl hsteps

/-- A tick begins with the power requests, and takes up a reply with the motors ready. -/
theorem collect_steps (w : World K Image Jpeg) (clocks : Clocks K) :
    SmallSteps clocks.nowNs w (w.collect clocks).1 := by
  have hpower := powerTick_steps w clocks.now clocks.nowNs
  unfold collect
  dsimp only
  split
  · exact hpower.trans (finishRequest_steps _ clocks.now clocks.nowNs)
  · exact hpower

/-- From the command of a tick on. -/
theorem act_callback (w : World K Image Jpeg) (first second : Clocks K) :
    Callback first second w (w.act first second) := by
  have hreport := report_steps (w.drive first second) w.node.cycle.action.isSome
  rcases drive_cases w first second with hdrive | ⟨⟨mid, hmid, hsecond⟩, hoff⟩
  · exact Callback.of_first ((hdrive.trans (hreport first.nowNs)).trans (proceed_steps _ _ _))
  · have hact : w.act first second = (((w.drive first second).reportZero
        w.node.cycle.action.isSome).reportFault).dropQueue := by
      apply proceed_of_not_ready
      rw [report_powerState]
      exact hoff
    rw [hact]
    exact ⟨mid, hmid, hsecond.trans (hreport second.nowNs)⟩

/-- **A tick** is the power requests and the reply, then the command and what follows. -/
theorem onTick_callback (w : World K Image Jpeg) :
    Callback first second w (w.onTick first second) := by
  have hcollect := collect_steps w first
  unfold onTick
  dsimp only
  split
  · exact Callback.of_first hcollect
  · obtain ⟨mid, hmid, hsecond⟩ := act_callback (w.collect first).1 first second
    exact ⟨mid, hcollect.trans hmid, hsecond⟩

/-! ## Every callback -/

/-- **Every callback is a sequence of small steps**, first at its first reading
of the clock, then at its second one. -/
theorem step_smallSteps (w : World K Image Jpeg) (e : Event K Image Jpeg)
    (h : enabled w e.input) : Callback e.first e.second w (step w e) := by
  obtain ⟨input, first, second⟩ := e
  cases input with
  | goal msg => exact setGoal_callback w msg.text? true first second
  | observation msg => exact onObservation_callback w msg
  | odom msg => exact onOdom_callback w msg
  | forcedStop data => exact onForcedStop_callback w data
  | tick => exact onTick_callback w
  | httpDone outcome => exact Callback.of_first (SmallStep.steps (.inferred outcome h))
  | powerDone outcome => exact Callback.of_first (SmallStep.steps (.aside _ rfl rfl rfl))

/-- **The rule for invariants**: what holds initially, is kept by every small
step and does not get lost as time passes is an invariant of the node. -/
theorem invariant_of_smallStep {I : ℤ → World K Image Jpeg → Prop} {maxV maxW : K}
    (init : ∀ cycle clocks, StepCycle.new maxV maxW = .ok cycle →
      I clocks.nowNs (World.new cycle clocks))
    (step : ∀ nowNs w w', I nowNs w → SmallStep nowNs w w' → I nowNs w')
    (later : ∀ nowNs nowNs' w, nowNs ≤ nowNs' → I nowNs w → I nowNs' w)
    (clock : ∀ nowNs w clockNs, I nowNs w → I nowNs { w with clockNs := clockNs }) :
    (machine maxV maxW : Machine (World K Image Jpeg) _).Invariant fun w => I w.clockNs w where
  init := by
    rintro _ ⟨cycle, clocks, hcycle, rfl⟩
    exact init cycle clocks hcycle
  step := by
    rintro w e h ⟨hfirst, hsecond, henabled⟩
    have hsteps : ∀ {nowNs : ℤ} {w w' : World K Image Jpeg}, I nowNs w →
        SmallSteps nowNs w w' → I nowNs w' := by
      intro nowNs w w' hw hsteps
      induction hsteps with
      | refl => exact hw
      | tail _ hstep ih => exact step _ _ _ ih hstep
    obtain ⟨mid, hmid, hend⟩ := step_smallSteps w e henabled
    have hmid := hsteps (later _ _ w hfirst h) hmid
    exact clock _ _ _ (hsteps (later _ _ mid hsecond hmid) hend)

end NavidaStepBridge
