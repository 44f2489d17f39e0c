/-
# The NaVIDA step cycle

`navida_step.py`: one request, one motion consumed from odometry, and the
confirmed stop behind it.  Numbers are exact, over an ordered field with the
functions of `math`; a stamp of -infinity is `none`.

What a method can leave behind is said once, in its `_cases` lemma: `observe_cases`
and `command_cases` are what the properties of the executor rest on.
-/
import Mathlib.Algebra.Order.Field.Basic
import Rvln.PyFloat

/-! ## Data -/

/-- `Pose`. -/
structure Pose (K : Type*) where
  x : K
  y : K
  yaw : K
  yawRate : K
  deriving DecidableEq

/-- `Action`. -/
structure NavidaAction (K : Type*) where
  distance : K
  angle : K
  deriving DecidableEq

/-- `Request`. -/
structure Request where
  frameId : ℤ
  generation : ℕ
  captureNs : ℤ
  deriving DecidableEq

/-- `StepDataError`. -/
structure StepDataError where
  reason : String
  deriving DecidableEq

/-- `StepCycle`. -/
structure StepCycle (K : Type*) where
  maxV : K
  maxW : K
  pose : Option (Pose K)
  odomNs : ℤ
  odomAt : Option K
  generation : ℕ
  floorNs : ℤ
  pending : Option Request
  action : Option (NavidaAction K)
  origin : Option (Pose K)
  turnProgress : K
  yawRate : K
  motionAt : K
  settling : Bool
  stopped : Bool
  fault : Option String
  stopNs : ℤ
  settleAt : K
  settlePose : Option (Pose K)
  settleStampNs : ℤ
  stableSinceNs : ℤ
  turnTarget : Option K
  turnIntegral : K
  turnControlAt : K
  turnEmitted : Bool
  settleNotBeforeNs : ℤ
  deriving DecidableEq

namespace StepCycle

/-! ## The code -/

section

variable {K : Type*} [Field K] [LinearOrder K]

/-- `TURN_DRIVE_SPEED`. -/
def TURN_DRIVE_SPEED : K := 35 / 100

/-- What `StepCycle.__init__` sets. -/
def fresh (maxV maxW : K) : StepCycle K where
  maxV := maxV
  maxW := maxW
  pose := none
  odomNs := 0
  odomAt := none
  generation := 0
  floorNs := 0
  pending := none
  action := none
  origin := none
  turnProgress := 0
  yawRate := 0
  motionAt := 0
  settling := true
  stopped := false
  fault := none
  stopNs := 0
  settleAt := 0
  settlePose := none
  settleStampNs := 0
  stableSinceNs := 0
  turnTarget := none
  turnIntegral := 0
  turnControlAt := 0
  turnEmitted := false
  settleNotBeforeNs := 0

/-- `StepCycle.__init__`. -/
def new (maxV maxW : K) : Except PyError (StepCycle K) :=
  if maxV < 15 / 1000 ∨ maxW < TURN_DRIVE_SPEED then .error .valueError
  else .ok (fresh maxV maxW)

/-- `_begin_settling`. -/
def beginSettling (c : StepCycle K) (nowNs : ℤ) (now : K) (retainAction : Bool) : StepCycle K :=
  { c with
    action := if retainAction then c.action else none
    settleNotBeforeNs :=
      if c.turnEmitted then max c.settleNotBeforeNs (nowNs + 555000000) else c.settleNotBeforeNs
    turnEmitted := false
    settling := true
    stopNs := nowNs
    settleAt := now
    settlePose := none
    settleStampNs := 0
    stableSinceNs := 0 }

/-- `cancel`. -/
def cancel (c : StepCycle K) (nowNs : ℤ) (now : K) (stopped : Bool) : StepCycle K :=
  beginSettling { c with
    generation := c.generation + 1
    pending := none
    action := none
    origin := none
    turnProgress := 0
    stopped := stopped
    fault := none
    turnTarget := none } nowNs now false

/-- `fail`. -/
def fail (c : StepCycle K) (reason : String) (now : K) (nowNs : ℤ) : StepCycle K :=
  { c.cancel nowNs now true with
    turnProgress := c.turnProgress
    fault := some reason }

/-- `confirm_motor_disabled`. -/
def confirmMotorDisabled (c : StepCycle K) (nowNs : ℤ) (now : K) : StepCycle K :=
  { c.beginSettling nowNs now true with settleNotBeforeNs := nowNs }

/-- `now - self.odom_at > 0.3`. -/
def odomStale (c : StepCycle K) (now : K) : Bool :=
  match c.odomAt with
  | none => true
  | some odomAt => decide (3 / 10 < now - odomAt)

/-- `can_request`. -/
def canRequest (c : StepCycle K) (captureNs : ℤ) (now : K) (nowNs : ℤ) : Bool :=
  !c.stopped && !c.settling && c.action.isNone && c.pending.isNone && c.pose.isSome &&
    !c.odomStale now && decide (c.floorNs < captureNs) && decide (captureNs ≤ nowNs) &&
    decide (nowNs - captureNs ≤ 750000000)

/-- `request`. -/
def request (c : StepCycle K) (frameId captureNs : ℤ) (now : K) (nowNs : ℤ) :
    Except StepDataError (StepCycle K × Request) :=
  if c.canRequest captureNs now nowNs then
    let pending : Request := ⟨frameId, c.generation, captureNs⟩
    .ok ({ c with pending := some pending }, pending)
  else .error ⟨"observation is not eligible"⟩

/-- `duration` of a motion, and the budget it is given. -/
def budget (c : StepCycle K) (action : NavidaAction K) : K :=
  3 * max (action.distance / c.maxV) (|action.angle| / c.maxW) + 8

variable [Trig K]

/-- `decode_action`. -/
def decodeAction (values : List (PyFloat K)) : Except StepDataError (NavidaAction K) :=
  match values with
  | [.fin x, .fin y, .fin cosine, .fin sine] =>
      let angle := Trig.atan2 sine cosine
      if y ≠ 0 ∨ ¬ (0 ≤ x ∧ x ≤ 75 / 100) ∨ 1 / 1000 < |cosine * cosine + sine * sine - 1| ∨
          (0 < x ∧ x < 1 / 100 - 1 / 10 ^ 6) ∨
          (0 < |angle| ∧ |angle| < Trig.radians 1 - 1 / 10 ^ 6) ∨
          Trig.radians 45 + 1 / 10 ^ 6 < |angle| ∨ (0 < x ∧ 1 / 10 ^ 6 < |angle|) then
        .error ⟨"action is not a NaVIDA primitive"⟩
      else .ok ⟨x, angle⟩
  | _ => .error ⟨"invalid action token"⟩

/-- `angle_delta`. -/
def angleDelta (current previous : K) : K :=
  Trig.atan2 (Trig.sin (current - previous)) (Trig.cos (current - previous))

/-- Two stamped poses are at rest: at most 5 mm/s and 0.01 rad/s in between. -/
def Still (previous : Pose K) (previousStampNs : ℤ) (pose : Pose K) (stampNs : ℤ) : Prop :=
  let dt : K := ((stampNs - previousStampNs : ℤ) : K) / 10 ^ 9
  Trig.hypot (pose.x - previous.x) (pose.y - previous.y) / dt ≤ 5 / 1000 ∧
    |angleDelta pose.yaw previous.yaw| / dt ≤ 1 / 100

instance (previous : Pose K) (previousStampNs : ℤ) (pose : Pose K) (stampNs : ℤ) :
    Decidable (Still previous previousStampNs pose stampNs) :=
  inferInstanceAs (Decidable (_ ∧ _))

/-- The turn left over when the stop is confirmed, if it has to be corrected. -/
def correction (c : StepCycle K) : Option K :=
  match c.turnTarget with
  | none => none
  | some turnTarget =>
      let target := |turnTarget|
      let progress := Trig.copysign 1 turnTarget * c.turnProgress
      let tolerance := min (Trig.radians 5) (target / 3)
      if tolerance < |target - progress| then some turnTarget else none

/-- `observe` once the stamp has advanced and the pose is taken over. -/
def settle (c : StepCycle K) (pose : Pose K) (stampNs nowNs : ℤ) : StepCycle K :=
  if c.settling = false ∨ stampNs ≤ max c.stopNs c.settleNotBeforeNs then c
  else
    let previous := c.settlePose
    let previousStamp := c.settleStampNs
    let c := { c with settlePose := some pose, settleStampNs := stampNs }
    match previous with
    -- the first pose of the window
    | none => { c with stableSinceNs := stampNs }
    | some previous =>
        if Still previous previousStamp pose stampNs then
          -- at rest for 150 ms: confirmed, or a turn is corrected first
          if 150000000 ≤ stampNs - c.stableSinceNs then
            match c.correction with
            | some turnTarget => { c with action := some ⟨0, turnTarget⟩, settling := false }
            | none =>
                { c with turnTarget := none, action := none, settling := false, floorNs := nowNs }
          else c
        -- a pose in motion starts the window anew
        else { c with stableSinceNs := stampNs }

/-- `turn_progress` after a new pose. -/
def turned (c : StepCycle K) (pose : Pose K) : K :=
  match c.pose with
  | none => c.turnProgress
  | some previous =>
      if (c.action.isSome || c.settling) && c.origin.isSome then
        c.turnProgress + angleDelta pose.yaw previous.yaw
      else c.turnProgress

/-- The fields that an advancing stamp always refreshes. -/
def refresh (c : StepCycle K) (pose : Pose K) (stampNs : ℤ) (now : K) : StepCycle K :=
  { c with
    yawRate := pose.yawRate
    settleAt := if c.pose.isNone && c.settling then now else c.settleAt
    turnProgress := c.turned pose
    pose := some pose
    odomNs := stampNs
    odomAt := some now }

/-- `observe`. -/
def observe (c : StepCycle K) (pose : Pose K) (stampNs : ℤ) (now : K) (nowNs : ℤ) :
    StepCycle K :=
  if stampNs ≤ c.odomNs then c else (c.refresh pose stampNs now).settle pose stampNs nowNs

/-- The fields that `start` sets. -/
def engage (c : StepCycle K) (action : NavidaAction K) (now : K) : StepCycle K :=
  { c with
    origin := c.pose
    action := some action
    turnProgress := 0
    motionAt := now
    turnTarget := if action.angle = 0 then none else some action.angle
    turnIntegral := Trig.copysign TURN_DRIVE_SPEED action.angle
    turnControlAt := now }

/-- `start`: the new state and the result. -/
def start (c : StepCycle K) (action : NavidaAction K) (now : K) (nowNs : ℤ) : StepCycle K × Bool :=
  if c.stopped || c.pose.isNone || c.odomStale now then (c, false)
  else if action.distance = 0 ∧ action.angle = 0 then
    ((c.engage action now).beginSettling nowNs now false, true)
  else (c.engage action now, true)

/-- `accept`: the new state and the result. -/
def accept (c : StepCycle K) (request : Request) (action : NavidaAction K) (now : K) (nowNs : ℤ) :
    StepCycle K × Bool :=
  if some request ≠ c.pending ∨ request.generation ≠ c.generation then (c, false)
  else
    let c := { c with pending := none }
    if 1500000000 < nowNs - request.captureNs then (c.fail "reply expired" now nowNs, false)
    else c.start action now nowNs

/-- The turn controller of `command`, for the rest of the turn still to go: the
new integral and the angular speed. -/
def turnControl (c : StepCycle K) (action : NavidaAction K) (remaining now : K) : K × K :=
  -- past the target the integral of the way there is dropped
  let integral := if remaining * action.angle < 0 ∧ 0 < c.turnIntegral * action.angle then 0
    else c.turnIntegral
  let desiredRate := max (-c.maxW) (min c.maxW (2 * (remaining - 65 / 100 * c.yawRate)))
  let error := desiredRate - c.yawRate
  let raw := integral + 1 / 2 * error
  -- no windup: it is fed within the limits, or back towards them
  let integral := if |raw| < c.maxW ∨ raw * error < 0 then
      max (-c.maxW) (min c.maxW (integral + 2 * error * (now - c.turnControlAt)))
    else integral
  (integral, max (-c.maxW) (min c.maxW (integral + 1 / 2 * error)))

/-- `command` on an active primitive with the motors enabled: the new state and
the linear and angular speeds. -/
def drive (c : StepCycle K) (pose origin : Pose K) (action : NavidaAction K) (now : K) (nowNs : ℤ) :
    StepCycle K × K × K :=
  if 0 < action.distance then
    let progress := (pose.x - origin.x) * Trig.cos origin.yaw +
      (pose.y - origin.y) * Trig.sin origin.yaw
    let remaining := action.distance - progress
    let tolerance := min (5 / 100) (action.distance / 4)
    if tolerance < remaining then (c, min c.maxV (max (15 / 1000) (1 / 2 * remaining)), 0)
    else (c.beginSettling nowNs now false, 0, 0)
  else
    let remaining := action.angle - c.turnProgress
    let tolerance := min (Trig.radians 5) (|action.angle| / 3)
    -- a turn is over when it is near its target and slow
    if tolerance < |remaining| ∨ 8 / 100 < |c.yawRate| then
      let (integral, angular) :=
        if tolerance < |remaining| then c.turnControl action remaining now
        else (c.turnIntegral, 0)
      ({ c with turnIntegral := integral, turnControlAt := now, turnEmitted := true }, 0, angular)
    else (c.beginSettling nowNs now false, 0, 0)

/-- `command`: the new state and the linear and angular speeds. -/
def command (c : StepCycle K) (now : K) (nowNs : ℤ) (motionEnabled : Bool) :
    StepCycle K × K × K :=
  match c.pose with
  | none => (c, 0, 0)
  | some pose =>
      if c.stopped then (c, 0, 0)
      else if c.odomStale now then (c.fail "odometry stale" now nowNs, 0, 0)
      else if (c.action.any fun action =>
          c.origin.isSome && decide (c.budget action < now - c.motionAt)) then
        (c.fail "motion timeout" now nowNs, 0, 0)
      else if c.settling then
        -- a stop in progress commands zero
        if 2 < now - c.settleAt then (c.fail "stop not confirmed" now nowNs, 0, 0)
        else (c, 0, 0)
      else
        match c.action, c.origin with
        | some action, some origin =>
            if motionEnabled then c.drive pose origin action now nowNs
            -- the motors are not ready: the primitive waits
            else ({ c with turnControlAt := now }, 0, 0)
        | _, _ => (c, 0, 0)

end

/-! ## What the methods leave behind -/

/-- A stop has just begun. -/
structure Begun {K : Type*} (c : StepCycle K) (nowNs : ℤ) : Prop where
  settling : c.settling = true
  stopNs : c.stopNs = nowNs
  settlePose : c.settlePose = none

theorem begun_beginSettling {K : Type*} (c : StepCycle K) (nowNs : ℤ) (now : K)
    (retainAction : Bool) : (c.beginSettling nowNs now retainAction).Begun nowNs :=
  ⟨rfl, rfl, rfl⟩

theorem begun_confirmMotorDisabled {K : Type*} (c : StepCycle K) (nowNs : ℤ) (now : K) :
    (c.confirmMotorDisabled nowNs now).Begun nowNs :=
  ⟨rfl, rfl, rfl⟩

theorem begun_cancel {K : Type*} [Field K] (c : StepCycle K) (nowNs : ℤ) (now : K)
    (stopped : Bool) : (c.cancel nowNs now stopped).Begun nowNs :=
  ⟨rfl, rfl, rfl⟩

theorem begun_fail {K : Type*} [Field K] (c : StepCycle K) (reason : String) (now : K)
    (nowNs : ℤ) : (c.fail reason now nowNs).Begun nowNs :=
  ⟨rfl, rfl, rfl⟩

section

variable {K : Type*} [Field K] [LinearOrder K] {c c' : StepCycle K} {now : K} {nowNs : ℤ}

/-- A cycle that is built is the fresh one. -/
theorem new_ok {maxV maxW : K} (h : new maxV maxW = .ok c) : c = fresh maxV maxW := by
  unfold new at h
  split at h
  · cases h
  · cases h
    rfl

/-- A request is issued only to a cycle at rest, behind the barrier. -/
theorem request_ok {frameId captureNs : ℤ} {token : Request}
    (h : c.request frameId captureNs now nowNs = .ok (c', token)) :
    c.settling = false ∧ c.action = none ∧ c.floorNs < captureNs ∧
      c' = { c with pending := some token } ∧ token.captureNs = captureNs := by
  unfold request at h
  split at h
  · rename_i hcan
    cases h
    simp only [canRequest, Bool.and_eq_true, Bool.not_eq_true', Option.isNone_iff_eq_none,
      decide_eq_true_eq] at hcan
    obtain ⟨⟨⟨⟨⟨⟨⟨⟨-, hsettle⟩, haction⟩, -⟩, -⟩, -⟩, hfloor⟩, -⟩, -⟩ := hcan
    exact ⟨hsettle, haction, hfloor, rfl, rfl⟩
  · cases h

/-- What `start` can do. -/
inductive Started (c : StepCycle K) (action : NavidaAction K) (now : K) (nowNs : ℤ) :
    StepCycle K × Bool → Prop
  | refused : Started c action now nowNs (c, false)
  | settles : c.stopped = false → action.distance = 0 ∧ action.angle = 0 →
      Started c action now nowNs ((c.engage action now).beginSettling nowNs now false, true)
  | engaged : c.stopped = false → ¬ (action.distance = 0 ∧ action.angle = 0) →
      Started c action now nowNs (c.engage action now, true)

theorem start_cases (c : StepCycle K) (action : NavidaAction K) (now : K) (nowNs : ℤ) :
    Started c action now nowNs (c.start action now nowNs) := by
  unfold start
  split
  · exact .refused
  · rename_i hcan
    have hstop : c.stopped = false := by
      simp only [Bool.or_eq_true, not_or] at hcan
      exact Bool.eq_false_iff.mpr hcan.1.1
    split
    · rename_i hzero
      exact .settles hstop hzero
    · rename_i hmoves
      exact .engaged hstop hmoves

/-- What `accept` can do. -/
inductive Accepted (c : StepCycle K) (action : NavidaAction K) (now : K) (nowNs : ℤ) :
    StepCycle K × Bool → Prop
  | discarded : Accepted c action now nowNs (c, false)
  | expired : Accepted c action now nowNs
      (fail { c with pending := none } "reply expired" now nowNs, false)
  | started {r : StepCycle K × Bool} : Started { c with pending := none } action now nowNs r →
      Accepted c action now nowNs r

theorem accept_cases (c : StepCycle K) (request : Request) (action : NavidaAction K) (now : K)
    (nowNs : ℤ) : Accepted c action now nowNs (c.accept request action now nowNs) := by
  unfold accept
  split
  · exact .discarded
  · dsimp only
    split
    · exact .expired
    · exact .started (start_cases _ action now nowNs)

variable [Trig K]

/-- What is corrected is the turn that was to be made. -/
theorem turnTarget_of_correction {turnTarget : K} (h : c.correction = some turnTarget) :
    c.turnTarget = some turnTarget := by
  unfold correction at h
  split at h
  · cases h
  · rename_i target htarget
    dsimp only at h
    split at h
    · rw [htarget, ← Option.some.inj h]
    · cases h

/-- What one advancing odometry stamp can do to a settling cycle. -/
inductive Settled (c : StepCycle K) (pose : Pose K) (stampNs nowNs : ℤ) : StepCycle K → Prop
  /-- There is nothing to settle, or the stamp is too early for it. -/
  | ignored : c.settling = false ∨ stampNs ≤ max c.stopNs c.settleNotBeforeNs →
      Settled c pose stampNs nowNs c
  /-- A new window of stable stamps starts here. -/
  | restarted : c.settling = true → max c.stopNs c.settleNotBeforeNs < stampNs →
      Settled c pose stampNs nowNs
        { c with settlePose := some pose, settleStampNs := stampNs, stableSinceNs := stampNs }
  /-- The window grows, and is still too short. -/
  | grown {previous : Pose K} : c.settling = true → max c.stopNs c.settleNotBeforeNs < stampNs →
      c.settlePose = some previous → Still previous c.settleStampNs pose stampNs →
      Settled c pose stampNs nowNs
        { c with settlePose := some pose, settleStampNs := stampNs }
  /-- The robot stands still, short of or beyond the turn it was to make. -/
  | corrected {previous : Pose K} {turnTarget : K} : c.settling = true →
      max c.stopNs c.settleNotBeforeNs < stampNs →
      c.settlePose = some previous → Still previous c.settleStampNs pose stampNs →
      150000000 ≤ stampNs - c.stableSinceNs → c.turnTarget = some turnTarget →
      Settled c pose stampNs nowNs
        { c with
          settlePose := some pose
          settleStampNs := stampNs
          action := some ⟨0, turnTarget⟩
          settling := false }
  /-- The robot stands still where it was to stop. -/
  | confirmed {previous : Pose K} : c.settling = true →
      max c.stopNs c.settleNotBeforeNs < stampNs →
      c.settlePose = some previous → Still previous c.settleStampNs pose stampNs →
      150000000 ≤ stampNs - c.stableSinceNs →
      Settled c pose stampNs nowNs
        { c with
          settlePose := some pose
          settleStampNs := stampNs
          turnTarget := none
          action := none
          settling := false
          floorNs := nowNs }

theorem settle_cases (c : StepCycle K) (pose : Pose K) (stampNs nowNs : ℤ) :
    Settled c pose stampNs nowNs (c.settle pose stampNs nowNs) := by
  unfold settle
  split
  · rename_i h
    exact .ignored h
  · rename_i h
    obtain ⟨hsettle, hstamp⟩ := not_or.mp h
    have hsettle : c.settling = true := by simpa using hsettle
    have hstamp : max c.stopNs c.settleNotBeforeNs < stampNs := not_le.mp hstamp
    dsimp only
    split
    · exact .restarted hsettle hstamp
    · rename_i previous hpose
      split
      · rename_i hstill
        split
        · rename_i hlong
          split
          · rename_i turnTarget hcorrection
            have htarget := turnTarget_of_correction hcorrection
            exact .corrected hsettle hstamp hpose hstill hlong htarget
          · exact .confirmed hsettle hstamp hpose hstill hlong
        · exact .grown hsettle hstamp hpose hstill
      · exact .restarted hsettle hstamp

/-- `observe` with an advancing stamp, by its cases. -/
theorem observe_cases {stampNs : ℤ} (h : c.odomNs < stampNs) (pose : Pose K) (now : K)
    (nowNs : ℤ) :
    Settled (c.refresh pose stampNs now) pose stampNs nowNs (c.observe pose stampNs now nowNs) := by
  unfold observe
  rw [if_neg (not_le.mpr h)]
  exact settle_cases _ pose stampNs nowNs

theorem observe_of_le {pose : Pose K} {stampNs : ℤ} (h : stampNs ≤ c.odomNs) :
    c.observe pose stampNs now nowNs = c := if_pos h

/-- Odometry neither stops nor resumes. -/
@[simp] theorem observe_stopped (c : StepCycle K) (pose : Pose K) (stampNs : ℤ) (now : K)
    (nowNs : ℤ) : (c.observe pose stampNs now nowNs).stopped = c.stopped := by
  rcases lt_or_ge c.odomNs stampNs with hnew | hold
  · have hcases := observe_cases hnew pose now nowNs
    generalize c.observe pose stampNs now nowNs = c' at hcases ⊢
    cases hcases <;> rfl
  · rw [observe_of_le hold]

/-- What one call of `command` can do. -/
inductive Commanded (c : StepCycle K) (now : K) (nowNs : ℤ) (motionEnabled : Bool) :
    StepCycle K × K × K → Prop
  | idle : Commanded c now nowNs motionEnabled (c, 0, 0)
  | failed (reason : String) : Commanded c now nowNs motionEnabled (c.fail reason now nowNs, 0, 0)
  | held : Commanded c now nowNs motionEnabled ({ c with turnControlAt := now }, 0, 0)
  /-- The target is reached. -/
  | arrived : motionEnabled = true → c.settling = false → c.stopped = false →
      Commanded c now nowNs motionEnabled (c.beginSettling nowNs now false, 0, 0)
  /-- The robot moves; only the fields of the turn controller change. -/
  | moved (integral controlAt : K) (emitted : Bool) (linear angular : K) :
      motionEnabled = true → c.settling = false → c.stopped = false → c.action.isSome = true →
      Commanded c now nowNs motionEnabled
        ({ c with turnIntegral := integral, turnControlAt := controlAt, turnEmitted := emitted },
          linear, angular)

theorem drive_cases {pose origin : Pose K} {action : NavidaAction K} (hsettle : c.settling = false)
    (hstop : c.stopped = false) (haction : c.action.isSome = true) :
    Commanded c now nowNs true (c.drive pose origin action now nowNs) := by
  unfold drive
  split
  · dsimp only
    split
    · exact .moved c.turnIntegral c.turnControlAt c.turnEmitted _ _ rfl hsettle hstop haction
    · exact .arrived rfl hsettle hstop
  · dsimp only
    split
    · exact .moved _ _ _ _ _ rfl hsettle hstop haction
    · exact .arrived rfl hsettle hstop

theorem command_cases (c : StepCycle K) (now : K) (nowNs : ℤ) (motionEnabled : Bool) :
    Commanded c now nowNs motionEnabled (c.command now nowNs motionEnabled) := by
  unfold command
  split
  · exact .idle
  · split
    · exact .idle
    · rename_i hstop
      have hstop : c.stopped = false := Bool.eq_false_iff.mpr hstop
      split
      · exact .failed _
      · split
        · exact .failed _
        · split
          · split
            · exact .failed _
            · exact .idle
          · rename_i hsettle
            have hsettle : c.settling = false := Bool.eq_false_iff.mpr hsettle
            split
            · rename_i action origin haction _
              cases motionEnabled with
              | true => exact drive_cases hsettle hstop (by rw [haction]; rfl)
              | false => exact .held
            · exact .idle

end

end StepCycle
