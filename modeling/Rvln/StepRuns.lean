/-
# Runs of the step cycle and the envelope of its commands

`StepCycle` is driven by calls of its methods, in any order.  A run keeps the log of
the calls that were made, newest first, and each call with the cycle it was made on.
The log says which primitive was started last (`primitive?`) and which odometry was
taken over since.

`Effect` lists what one call can do to a motion: leave it alone or stop it, drop it,
start another, or feed it one sample.  `Follows` is the invariant read off it: an
action, or a turn target, always belongs to the last primitive that was started.
The internal restarts of a turn happen in `observe` and leave `motion_at` alone, so
they do not move the deadline.
-/
import Rvln.Machine
import Rvln.NavidaBridge

namespace StepCycle

/-! ## Calls -/

/-- A call of a method. -/
inductive Call (K : Type*)
  | observe (pose : Pose K) (stampNs : ℤ) (now : K) (nowNs : ℤ)
  | request (frameId captureNs : ℤ) (now : K) (nowNs : ℤ)
  | accept (request : Request) (action : NavidaAction K) (now : K) (nowNs : ℤ)
  | start (action : NavidaAction K) (now : K) (nowNs : ℤ)
  | confirmMotorDisabled (nowNs : ℤ) (now : K)
  | cancel (nowNs : ℤ) (now : K) (stopped : Bool)
  | fail (reason : String) (now : K) (nowNs : ℤ)
  | command (now : K) (nowNs : ℤ) (motionEnabled : Bool)
  deriving DecidableEq

/-- The argument `now` of a call. -/
def Call.now {K : Type*} : Call K → K
  | .observe _ _ now _ => now
  | .request _ _ now _ => now
  | .accept _ _ now _ => now
  | .start _ now _ => now
  | .confirmMotorDisabled _ now => now
  | .cancel _ now _ => now
  | .fail _ now _ => now
  | .command now _ _ => now

section

variable {K : Type*} [Field K] [LinearOrder K]

/-- The primitive that a call starts. -/
def started? (c : StepCycle K) : Call K → Option (NavidaAction K)
  | .accept request action now nowNs =>
      if (c.accept request action now nowNs).2 then some action else none
  | .start action now nowNs => if (c.start action now nowNs).2 then some action else none
  | _ => none

/-- The pose that a call takes over. -/
def sample? (c : StepCycle K) : Call K → Option (Pose K)
  | .observe pose stampNs _ _ => if c.odomNs < stampNs then some pose else none
  | _ => none

/-- The cycle after a call.  A request that raises leaves it as it was. -/
def call [Trig K] (c : StepCycle K) : Call K → StepCycle K
  | .observe pose stampNs now nowNs => c.observe pose stampNs now nowNs
  | .request frameId captureNs now nowNs =>
      match c.request frameId captureNs now nowNs with
      | .ok (c', _) => c'
      | .error _ => c
  | .accept request action now nowNs => (c.accept request action now nowNs).1
  | .start action now nowNs => (c.start action now nowNs).1
  | .confirmMotorDisabled nowNs now => c.confirmMotorDisabled nowNs now
  | .cancel nowNs now stopped => c.cancel nowNs now stopped
  | .fail reason now nowNs => c.fail reason now nowNs
  | .command now nowNs motionEnabled => (c.command now nowNs motionEnabled).1

end

/-! ## Runs -/

/-- A call that was made, and the cycle it was made on. -/
structure Made (K : Type*) where
  call : Call K
  before : StepCycle K

/-- A cycle and the calls made on it, newest first. -/
structure CycleRun (K : Type*) where
  cycle : StepCycle K
  log : List (Made K)

/-- A primitive that was started. -/
structure Primitive (K : Type*) where
  action : NavidaAction K
  /-- The cycle it was started on. -/
  cycle : StepCycle K
  startedAt : K
  /-- The calls made since, newest first. -/
  since : List (Made K)

section

variable {K : Type*}

/-- The pose that the call took over. -/
def Made.sample? (e : Made K) : Option (Pose K) := e.before.sample? e.call

/-- When odometry was last taken over. -/
def sampleAt : List (Made K) → Option K
  | [] => none
  | e :: log =>
      match e.sample? with
      | some _ => some e.call.now
      | none => sampleAt log

/-- The odometry since a start, newest first, behind it the pose at the start. -/
def Primitive.poses (p : Primitive K) : List (Pose K) :=
  p.since.filterMap Made.sample? ++ p.cycle.pose.toList

variable [LinearOrder K]

/-- No call is made with an earlier `now` than those before it. -/
def Onward (s : CycleRun K) (call : Call K) : Prop := ∀ e ∈ s.log, e.call.now ≤ call.now

instance (s : CycleRun K) (call : Call K) : Decidable (Onward s call) :=
  inferInstanceAs (Decidable (∀ e ∈ s.log, e.call.now ≤ call.now))

variable [Field K]

/-- The primitive that the call started. -/
def Made.started? (e : Made K) : Option (NavidaAction K) := e.before.started? e.call

/-- The primitive that was started last. -/
def primitive? : List (Made K) → Option (Primitive K)
  | [] => none
  | e :: log =>
      match e.started? with
      | some action => some ⟨action, e.before, e.call.now, []⟩
      | none => (primitive? log).map fun p => { p with since := e :: p.since }

variable [Trig K]

/-- The wrapped yaw differences along a list of poses, newest first. -/
def turnedOver : List (Pose K) → K
  | pose :: previous :: poses =>
      turnedOver (previous :: poses) + angleDelta pose.yaw previous.yaw
  | _ => 0

/-- A cycle under calls in any order. -/
def cycleMachine (maxV maxW : K) : Machine (CycleRun K) (Call K) where
  Init s := StepCycle.new maxV maxW = .ok s.cycle ∧ s.log = []
  Guard _ _ := True
  next s call := ⟨s.cycle.call call, ⟨call, s.cycle⟩ :: s.log⟩

end

section

variable {K : Type*} {e : Made K} {log : List (Made K)} {pose : Pose K}

theorem sampleAt_cons_of_none (h : e.sample? = none) : sampleAt (e :: log) = sampleAt log := by
  rw [sampleAt, h]

theorem sampleAt_cons_of_some (h : e.sample? = some pose) :
    sampleAt (e :: log) = some e.call.now := by
  rw [sampleAt, h]

/-- The last sample was taken over by a call of the log. -/
theorem sampleAt_mem {t : K} (h : sampleAt log = some t) :
    ∃ e ∈ log, e.sample?.isSome ∧ e.call.now = t := by
  induction log with
  | nil => cases h
  | cons e log ih =>
      cases hs : e.sample? with
      | some pose =>
          rw [sampleAt_cons_of_some hs] at h
          exact ⟨e, List.mem_cons_self, by rw [hs]; rfl, Option.some.inj h⟩
      | none =>
          rw [sampleAt_cons_of_none hs] at h
          obtain ⟨e', he', hsample⟩ := ih h
          exact ⟨e', List.mem_cons_of_mem _ he', hsample⟩

theorem Primitive.poses_cons_of_none (p : Primitive K) (h : e.sample? = none) :
    Primitive.poses { p with since := e :: p.since } = p.poses := by
  unfold Primitive.poses
  rw [List.filterMap_cons_none h]

theorem Primitive.poses_cons_of_some (p : Primitive K) (h : e.sample? = some pose) :
    Primitive.poses { p with since := e :: p.since } = pose :: p.poses := by
  unfold Primitive.poses
  rw [List.filterMap_cons_some h]
  rfl

/-- The pose that the primitive started from is behind its odometry. -/
theorem Primitive.poses_ne_nil {p : Primitive K} (h : p.cycle.pose.isSome) : p.poses ≠ [] := by
  obtain ⟨pose, hpose⟩ := Option.isSome_iff_exists.mp h
  unfold Primitive.poses
  rw [hpose]
  exact List.append_ne_nil_of_right_ne_nil _ (List.cons_ne_nil pose [])

variable [Field K] [LinearOrder K]

theorem primitive?_cons_of_some {action : NavidaAction K} (h : e.started? = some action) :
    primitive? (e :: log) = some ⟨action, e.before, e.call.now, []⟩ := by
  rw [primitive?, h]

theorem primitive?_cons_of_none (h : e.started? = none) :
    primitive? (e :: log) = (primitive? log).map fun p => { p with since := e :: p.since } := by
  rw [primitive?, h]

/-- The last primitive was started by a call of the log. -/
theorem primitive?_mem {p : Primitive K} (h : primitive? log = some p) :
    ∃ e ∈ log, e.started? = some p.action ∧ e.before = p.cycle ∧ e.call.now = p.startedAt := by
  induction log generalizing p with
  | nil => cases h
  | cons e log ih =>
      cases hs : e.started? with
      | some action =>
          rw [primitive?_cons_of_some hs] at h
          cases h
          exact ⟨e, List.mem_cons_self, hs, rfl, rfl⟩
      | none =>
          rw [primitive?_cons_of_none hs] at h
          obtain ⟨q, hq, rfl⟩ := Option.map_eq_some_iff.mp h
          obtain ⟨e', he', hstart⟩ := ih hq
          exact ⟨e', List.mem_cons_of_mem _ he', hstart⟩

end

/-! ## What a call can do to a motion -/

/-- The limits and the odometry are the same. -/
structure SameOdometry {K : Type*} (c c' : StepCycle K) : Prop where
  maxV : c'.maxV = c.maxV
  maxW : c'.maxW = c.maxW
  pose : c'.pose = c.pose
  odomNs : c'.odomNs = c.odomNs
  odomAt : c'.odomAt = c.odomAt
  /-- The window of a stop is kept or closed. -/
  window : c'.settlePose = c.settlePose ∧ c'.settleStampNs = c.settleStampNs ∨ c'.settlePose = none

/-- The motion is left alone, or stopped on its way. -/
structure KeepsMotion {K : Type*} (c c' : StepCycle K) : Prop extends SameOdometry c c' where
  origin : c'.origin = c.origin
  motionAt : c'.motionAt = c.motionAt
  turnProgress : c'.turnProgress = c.turnProgress
  turnTarget : c'.turnTarget = c.turnTarget
  action : c'.action = c.action ∧ (c'.settling = c.settling ∨ c'.settling = true) ∨
    c'.action = none ∧ c'.settling = true

/-- The motion is dropped. -/
structure DropsMotion {K : Type*} (c c' : StepCycle K) : Prop extends SameOdometry c c' where
  action : c'.action = none
  turnTarget : c'.turnTarget = none

/-- A motion is started. -/
structure StartsMotion {K : Type*} [Zero K] [DecidableEq K] (c : StepCycle K)
    (action : NavidaAction K) (now : K) (c' : StepCycle K) : Prop extends SameOdometry c c' where
  measured : c.pose.isSome
  origin : c'.origin = c.pose
  motionAt : c'.motionAt = now
  turnProgress : c'.turnProgress = 0
  turnTarget : c'.turnTarget = if action.angle = 0 then none else some action.angle
  action : c'.action = some action ∨ c'.action = none ∧ action.angle = 0

section

variable {K : Type*} {c : StepCycle K}

theorem SameOdometry.refl (c : StepCycle K) : SameOdometry c c :=
  ⟨rfl, rfl, rfl, rfl, rfl, .inl ⟨rfl, rfl⟩⟩

theorem KeepsMotion.refl (c : StepCycle K) : KeepsMotion c c :=
  ⟨.refl c, rfl, rfl, rfl, rfl, .inl ⟨rfl, .inl rfl⟩⟩

theorem sameOdometry_beginSettling (c : StepCycle K) (nowNs : ℤ) (now : K) (retainAction : Bool) :
    SameOdometry c (c.beginSettling nowNs now retainAction) :=
  ⟨rfl, rfl, rfl, rfl, rfl, .inr rfl⟩

theorem keeps_beginSettling (c : StepCycle K) (nowNs : ℤ) (now : K) (retainAction : Bool) :
    KeepsMotion c (c.beginSettling nowNs now retainAction) := by
  refine ⟨sameOdometry_beginSettling c nowNs now retainAction, rfl, rfl, rfl, rfl, ?_⟩
  cases retainAction with
  | true => exact .inl ⟨rfl, .inr rfl⟩
  | false => exact .inr ⟨rfl, rfl⟩

theorem keeps_confirmMotorDisabled (c : StepCycle K) (nowNs : ℤ) (now : K) :
    KeepsMotion c (c.confirmMotorDisabled nowNs now) :=
  ⟨⟨rfl, rfl, rfl, rfl, rfl, .inr rfl⟩, rfl, rfl, rfl, rfl, .inl ⟨rfl, .inr rfl⟩⟩

/-- The pending request is no part of the motion. -/
theorem keeps_pending (c : StepCycle K) (pending : Option Request) :
    KeepsMotion c { c with pending := pending } :=
  ⟨⟨rfl, rfl, rfl, rfl, rfl, .inl ⟨rfl, rfl⟩⟩, rfl, rfl, rfl, rfl, .inl ⟨rfl, .inl rfl⟩⟩

/-- The fields of the turn controller are no part of the motion either. -/
theorem keeps_control (c : StepCycle K) (integral controlAt : K) (emitted : Bool) :
    KeepsMotion c
      { c with turnIntegral := integral, turnControlAt := controlAt, turnEmitted := emitted } :=
  ⟨⟨rfl, rfl, rfl, rfl, rfl, .inl ⟨rfl, rfl⟩⟩, rfl, rfl, rfl, rfl, .inl ⟨rfl, .inl rfl⟩⟩

variable [Field K]

theorem drops_cancel (c : StepCycle K) (nowNs : ℤ) (now : K) (stopped : Bool) :
    DropsMotion c (c.cancel nowNs now stopped) :=
  ⟨⟨rfl, rfl, rfl, rfl, rfl, .inr rfl⟩, rfl, rfl⟩

theorem drops_fail (c : StepCycle K) (reason : String) (now : K) (nowNs : ℤ) :
    DropsMotion c (c.fail reason now nowNs) :=
  ⟨⟨rfl, rfl, rfl, rfl, rfl, .inr rfl⟩, rfl, rfl⟩

variable [LinearOrder K] {now : K} {nowNs : ℤ} {action : NavidaAction K}

/-- A start that is refused leaves the cycle alone. -/
theorem start_of_false (h : (c.start action now nowNs).2 = false) :
    (c.start action now nowNs).1 = c := by
  have hcases := start_cases c action now nowNs
  generalize c.start action now nowNs = r at h hcases ⊢
  cases hcases with
  | refused => rfl
  | settles _ => cases h
  | engaged _ => cases h

/-- A start that succeeds takes its origin from the measured pose. -/
theorem start_of_true (h : (c.start action now nowNs).2 = true) :
    StartsMotion c action now (c.start action now nowNs).1 := by
  unfold start at h ⊢
  split at h
  · cases h
  · rename_i hcan
    rw [if_neg hcan]
    have hpose : c.pose.isSome := by
      rw [Bool.or_eq_true, Bool.or_eq_true, not_or, not_or] at hcan
      exact Option.isSome_iff_ne_none.mpr fun hnone => hcan.1.2 (by rw [hnone]; rfl)
    split
    · rename_i hzero
      exact ⟨⟨rfl, rfl, rfl, rfl, rfl, .inr rfl⟩, hpose, rfl, rfl, rfl, rfl, .inr ⟨rfl, hzero.2⟩⟩
    · exact ⟨⟨rfl, rfl, rfl, rfl, rfl, .inl ⟨rfl, rfl⟩⟩, hpose, rfl, rfl, rfl, rfl, .inl rfl⟩

/-- A reply that does not start a motion is discarded, or is a fault. -/
theorem accept_of_false {request : Request}
    (h : (c.accept request action now nowNs).2 = false) :
    KeepsMotion c (c.accept request action now nowNs).1 ∨
      DropsMotion c (c.accept request action now nowNs).1 ∧
        (c.accept request action now nowNs).1.fault.isSome := by
  unfold accept at h ⊢
  split at h
  · rename_i hlate
    rw [if_pos hlate]
    exact .inl (.refl c)
  · rename_i hmatch
    rw [if_neg hmatch]
    dsimp only at h ⊢
    split at h
    · rename_i hold
      rw [if_pos hold]
      exact .inr ⟨⟨⟨rfl, rfl, rfl, rfl, rfl, .inr rfl⟩, rfl, rfl⟩, rfl⟩
    · rename_i hfresh
      rw [if_neg hfresh, start_of_false h]
      exact .inl (keeps_pending c none)

theorem accept_of_true {request : Request} (h : (c.accept request action now nowNs).2 = true) :
    StartsMotion c action now (c.accept request action now nowNs).1 := by
  unfold accept at h ⊢
  split at h
  · cases h
  · rename_i hmatch
    rw [if_neg hmatch]
    dsimp only at h ⊢
    split at h
    · cases h
    · rename_i hfresh
      rw [if_neg hfresh]
      -- the request that is answered is the only other field that changes
      have hstart := start_of_true h
      exact { hstart with }

/-- A request changes nothing but the pending one. -/
theorem keeps_request [Trig K] (c : StepCycle K) (frameId captureNs : ℤ) (now : K) (nowNs : ℤ) :
    KeepsMotion c (c.call (.request frameId captureNs now nowNs)) := by
  show KeepsMotion c (match c.request frameId captureNs now nowNs with
    | .ok (c', _) => c'
    | .error _ => c)
  cases h : c.request frameId captureNs now nowNs with
  | error _ => exact .refl c
  | ok r =>
      obtain ⟨c', token⟩ := r
      obtain ⟨-, -, -, hc, -⟩ := request_ok h
      show KeepsMotion c c'
      rw [hc]
      exact keeps_pending c (some token)

/-- A command leaves the motion alone, stops it, or is a fault. -/
theorem command_keeps [Trig K] (c : StepCycle K) (now : K) (nowNs : ℤ) (motionEnabled : Bool) :
    KeepsMotion c (c.command now nowNs motionEnabled).1 ∨
      DropsMotion c (c.command now nowNs motionEnabled).1 ∧
        (c.command now nowNs motionEnabled).1.fault.isSome := by
  have hcases := command_cases c now nowNs motionEnabled
  generalize c.command now nowNs motionEnabled = r at hcases ⊢
  cases hcases with
  | idle => exact .inl (.refl c)
  | failed reason => exact .inr ⟨drops_fail c reason now nowNs, rfl⟩
  | held => exact .inl (keeps_control c c.turnIntegral now c.turnEmitted)
  | arrived => exact .inl (keeps_beginSettling c nowNs now false)
  | moved integral controlAt emitted => exact .inl (keeps_control c integral controlAt emitted)

end

/-! ## What a sample can do to a motion -/

section

variable {K : Type*} [Field K] [LinearOrder K] [Trig K]

/-- The odometry sample confirms a stop: it is later than the stop, at rest since the pose
before it, and the poses have been at rest for 150 ms. -/
structure Standstill (c : StepCycle K) (pose : Pose K) (stampNs : ℤ) : Prop where
  settling : c.settling = true
  later : max c.stopNs c.settleNotBeforeNs < stampNs
  still : ∃ previous, c.settlePose = some previous ∧ Still previous c.settleStampNs pose stampNs
  long : 150000000 ≤ stampNs - c.stableSinceNs

/-- What `settle` does to the motion. -/
inductive Rests (c : StepCycle K) (pose : Pose K) (stampNs nowNs : ℤ) : StepCycle K → Prop
  /-- The stop is not confirmed, or there is none. -/
  | waits {settlePose : Option (Pose K)} {settleStampNs stableSinceNs : ℤ} :
      settlePose = c.settlePose ∧ settleStampNs = c.settleStampNs ∨ settleStampNs = stampNs →
      Rests c pose stampNs nowNs
        { c with
          settlePose := settlePose
          settleStampNs := settleStampNs
          stableSinceNs := stableSinceNs }
  /-- The turn is resumed. -/
  | corrects {turnTarget : K} : c.Standstill pose stampNs → c.correction = some turnTarget →
      Rests c pose stampNs nowNs
        { c with
          settlePose := some pose
          settleStampNs := stampNs
          action := some ⟨0, turnTarget⟩
          settling := false }
  /-- The motion is over. -/
  | confirms : c.Standstill pose stampNs → c.correction = none →
      Rests c pose stampNs nowNs
        { c with
          settlePose := some pose
          settleStampNs := stampNs
          turnTarget := none
          action := none
          settling := false
          floorNs := nowNs }

theorem settle_rests (c : StepCycle K) (pose : Pose K) (stampNs nowNs : ℤ) :
    Rests c pose stampNs nowNs (c.settle pose stampNs nowNs) := by
  unfold settle
  split
  · exact .waits (.inl ⟨rfl, rfl⟩)
  · rename_i h
    obtain ⟨hsettle, hlater⟩ := not_or.mp h
    have hsettle : c.settling = true := by simpa using hsettle
    have hlater : max c.stopNs c.settleNotBeforeNs < stampNs := not_le.mp hlater
    dsimp only
    split
    · exact .waits (.inr rfl)
    · rename_i previous hprevious
      split
      · rename_i hstill
        split
        · rename_i hlong
          have hrest : c.Standstill pose stampNs :=
            ⟨hsettle, hlater, ⟨previous, hprevious, hstill⟩, hlong⟩
          split
          · rename_i turnTarget hcorrection
            exact .corrects hrest hcorrection
          · rename_i hcorrection
            exact .confirms hrest hcorrection
        · exact .waits (.inr rfl)
      · exact .waits (.inr rfl)

/-- Without a correction, the turn is done within the tolerance. -/
theorem near_of_correction {c : StepCycle K} {turnTarget : K} (h : c.correction = none)
    (htarget : c.turnTarget = some turnTarget) :
    |(|turnTarget| - Trig.copysign 1 turnTarget * c.turnProgress)| ≤
      min (Trig.radians 5) (|turnTarget| / 3) := by
  unfold correction at h
  rw [htarget] at h
  dsimp only at h
  split at h
  · cases h
  · rename_i hnear
    exact not_lt.mp hnear

/-! ## What a call can do -/

/-- What a call can do to a motion. -/
inductive Effect (c : StepCycle K) (call : Call K) : StepCycle K → Prop
  | kept {c' : StepCycle K} : c.started? call = none → c.sample? call = none → KeepsMotion c c' →
      Effect c call c'
  | dropped {c' : StepCycle K} : c.started? call = none → c.sample? call = none → DropsMotion c c' →
      (∃ nowNs now stopped, call = .cancel nowNs now stopped) ∨ c'.fault.isSome →
      Effect c call c'
  | started {c' : StepCycle K} {action : NavidaAction K} : c.started? call = some action →
      c.sample? call = none → StartsMotion c action call.now c' → Effect c call c'
  | sampled {c' : StepCycle K} {pose : Pose K} {stampNs nowNs : ℤ} :
      c.started? call = none → c.sample? call = some pose → c.odomNs < stampNs →
      call = .observe pose stampNs call.now nowNs →
      Rests (c.refresh pose stampNs call.now) pose stampNs nowNs c' → Effect c call c'

theorem effect_call (c : StepCycle K) (call : Call K) : Effect c call (c.call call) := by
  cases call with
  | observe pose stampNs now nowNs =>
      -- only a newer stamp is a sample
      rcases lt_or_ge c.odomNs stampNs with hnew | hold
      · refine .sampled rfl (if_pos hnew) hnew rfl ?_
        show Rests _ pose stampNs nowNs (c.observe pose stampNs now nowNs)
        unfold observe
        rw [if_neg (not_le.mpr hnew)]
        exact settle_rests _ pose stampNs nowNs
      · refine .kept rfl (if_neg (not_lt.mpr hold)) ?_
        show KeepsMotion c (c.observe pose stampNs now nowNs)
        rw [observe_of_le hold]
        exact .refl c
  | request frameId captureNs now nowNs =>
      exact .kept rfl rfl (keeps_request c frameId captureNs now nowNs)
  | accept request action now nowNs =>
      cases h : (c.accept request action now nowNs).2 with
      | true =>
          exact .started (show (if _ then _ else _) = _ by rw [if_pos h]) rfl (accept_of_true h)
      | false =>
          have hnone : c.started? (.accept request action now nowNs) = none := by
            show (if _ then _ else _) = _
            rw [h]
            exact if_neg Bool.false_ne_true
          -- a reply to another request changes nothing, an expired one is a fault
          rcases accept_of_false h with hkeep | ⟨hdrop, hfault⟩
          · exact .kept hnone rfl hkeep
          · exact .dropped hnone rfl hdrop (.inr hfault)
  | start action now nowNs =>
      cases h : (c.start action now nowNs).2 with
      | true =>
          exact .started (show (if _ then _ else _) = _ by rw [if_pos h]) rfl (start_of_true h)
      | false =>
          refine .kept ?_ rfl ?_
          · show (if _ then _ else _) = _
            rw [h]
            exact if_neg Bool.false_ne_true
          · show KeepsMotion c (c.start action now nowNs).1
            rw [start_of_false h]
            exact .refl c
  | confirmMotorDisabled nowNs now =>
      exact .kept rfl rfl (keeps_confirmMotorDisabled c nowNs now)
  | cancel nowNs now stopped =>
      exact .dropped rfl rfl (drops_cancel c nowNs now stopped) (.inl ⟨nowNs, now, stopped, rfl⟩)
  | fail reason now nowNs =>
      exact .dropped rfl rfl (drops_fail c reason now nowNs) (.inr rfl)
  | command now nowNs motionEnabled =>
      rcases command_keeps c now nowNs motionEnabled with hkeep | ⟨hdrop, hfault⟩
      · exact .kept rfl rfl hkeep
      · exact .dropped rfl rfl hdrop (.inr hfault)

end

/-! ## The motion belongs to the last start -/

section

variable {K : Type*} [Field K] [LinearOrder K] [Trig K]

/-- The motion of the cycle is the primitive's, or the rest of its turn. -/
structure Pursues (c : StepCycle K) (p : Primitive K) : Prop where
  action : ∀ a, c.action = some a → a = p.action ∨ a = ⟨0, p.action.angle⟩
  target : ∀ t, c.turnTarget = some t → t = p.action.angle
  motionAt : c.motionAt = p.startedAt
  origin : c.origin = p.cycle.pose
  measured : p.cycle.pose.isSome
  pose : c.pose = p.poses.head?
  turned : c.turnProgress = turnedOver p.poses

omit [Field K] [LinearOrder K] [Trig K] in
/-- The limits are the ones of the constructor, and the odometry fields are the last sample's. -/
structure Tracks (maxV maxW : K) (s : CycleRun K) : Prop where
  maxV : s.cycle.maxV = maxV
  maxW : s.cycle.maxW = maxW
  odomAt : s.cycle.odomAt = sampleAt s.log
  window : s.cycle.settlePose.isSome → s.cycle.settleStampNs ≤ s.cycle.odomNs

/-- **The invariant of a run**: an action or a turn target belongs to the last start. -/
structure Follows (maxV maxW : K) (s : CycleRun K) : Prop extends Tracks maxV maxW s where
  motion : s.cycle.action.isSome ∨ s.cycle.turnTarget.isSome →
    ∃ p, primitive? s.log = some p ∧ s.cycle.Pursues p
  driven : s.cycle.turnTarget.isSome → s.cycle.action.isSome ∨ s.cycle.settling = true

variable {c c' : StepCycle K} {e : Made K} {p : Primitive K}

omit [LinearOrder K] in
/-- A call that leaves the motion alone takes no sample over. -/
theorem Pursues.of_keeps (h : c.Pursues p) (hkeep : KeepsMotion c c') (hsample : e.sample? = none) :
    c'.Pursues { p with since := e :: p.since } where
  action a ha := by
    rcases hkeep.action with ⟨haction, -⟩ | ⟨haction, -⟩
    · exact h.action a (haction ▸ ha)
    · rw [haction] at ha
      cases ha
  target t ht := h.target t (hkeep.turnTarget ▸ ht)
  motionAt := hkeep.motionAt.trans h.motionAt
  origin := hkeep.origin.trans h.origin
  measured := h.measured
  pose := by
    rw [hkeep.pose, p.poses_cons_of_none hsample]
    exact h.pose
  turned := by
    rw [hkeep.turnProgress, p.poses_cons_of_none hsample]
    exact h.turned

/-- A start begins with the pose it was measured from. -/
theorem pursues_of_startsMotion {action : NavidaAction K}
    (hstart : StartsMotion e.before action e.call.now c') :
    c'.Pursues ⟨action, e.before, e.call.now, []⟩ where
  action a ha := by
    rcases hstart.action with haction | ⟨haction, -⟩
    · rw [haction] at ha
      exact .inl (Option.some.inj ha).symm
    · rw [haction] at ha
      cases ha
  target t ht := by
    rw [hstart.turnTarget] at ht
    split at ht
    · cases ht
    · exact (Option.some.inj ht).symm
  motionAt := hstart.motionAt
  origin := hstart.origin
  measured := hstart.measured
  pose := by
    obtain ⟨pose, hpose⟩ := Option.isSome_iff_exists.mp hstart.measured
    show c'.pose = e.before.pose.toList.head?
    rw [hstart.toSameOdometry.pose, hpose]
    rfl
  turned := by
    obtain ⟨pose, hpose⟩ := Option.isSome_iff_exists.mp hstart.measured
    show c'.turnProgress = turnedOver e.before.pose.toList
    rw [hstart.turnProgress, hpose]
    rfl

omit [LinearOrder K] in
/-- **A sample adds its yaw increment**, once, while there is a motion or its stop. -/
theorem Pursues.of_refresh (h : c.Pursues p) (hlive : c.action.isSome ∨ c.settling = true)
    {pose : Pose K} {stampNs : ℤ} {now : K} (hsample : e.sample? = some pose) :
    (c.refresh pose stampNs now).Pursues { p with since := e :: p.since } where
  action := h.action
  target := h.target
  motionAt := h.motionAt
  origin := h.origin
  measured := h.measured
  pose := by
    rw [p.poses_cons_of_some hsample]
    rfl
  turned := by
    rw [p.poses_cons_of_some hsample]
    obtain ⟨previous, poses, hposes⟩ := List.exists_cons_of_ne_nil (p.poses_ne_nil h.measured)
    have hpose : c.pose = some previous := by
      rw [h.pose, hposes]
      rfl
    have hcond : ((c.action.isSome || c.settling) && c.origin.isSome) = true := by
      rw [h.origin, h.measured, Bool.and_true, Bool.or_eq_true]
      exact hlive
    show c.turned pose = turnedOver (pose :: p.poses)
    unfold StepCycle.turned
    rw [hpose, hposes]
    show (if _ then _ else _) = _
    rw [if_pos hcond, h.turned, hposes]
    rfl

/-- Settling resumes the turn of the primitive, or ends the motion. -/
theorem Pursues.of_rests (h : c.Pursues p) {pose : Pose K} {stampNs nowNs : ℤ}
    (hrest : Rests c pose stampNs nowNs c') : c'.Pursues p := by
  cases hrest with
  | waits _ => exact ⟨h.action, h.target, h.motionAt, h.origin, h.measured, h.pose, h.turned⟩
  | corrects _ hcorrection =>
      refine ⟨fun a ha => ?_, h.target, h.motionAt, h.origin, h.measured, h.pose, h.turned⟩
      rw [← Option.some.inj ha, h.target _ (turnTarget_of_correction hcorrection)]
      exact .inr rfl
  | confirms _ _ =>
      exact ⟨nofun, nofun, h.motionAt, h.origin, h.measured, h.pose, h.turned⟩

end

/-! ## The invariant along a run -/

section

variable {K : Type*} [Field K] [LinearOrder K] [Trig K] {maxV maxW : K}

theorem follows_init {s : CycleRun K} (h : (cycleMachine maxV maxW).Init s) :
    Follows maxV maxW s := by
  obtain ⟨cycle, log⟩ := s
  obtain ⟨hnew, hlog⟩ := h
  have hcycle : cycle = fresh maxV maxW := new_ok hnew
  have hlog : log = [] := hlog
  subst hcycle hlog
  exact ⟨⟨rfl, rfl, rfl, nofun⟩, fun h => h.elim nofun nofun, nofun⟩

variable {s : CycleRun K} {call : Call K} {c' : StepCycle K}

omit [Field K] [LinearOrder K] [Trig K] in
/-- A call that takes no sample over. -/
theorem Tracks.same (h : Tracks maxV maxW s) (hsample : s.cycle.sample? call = none)
    (hsame : SameOdometry s.cycle c') : Tracks maxV maxW ⟨c', ⟨call, s.cycle⟩ :: s.log⟩ where
  maxV := hsame.maxV.trans h.maxV
  maxW := hsame.maxW.trans h.maxW
  odomAt := by
    rw [sampleAt_cons_of_none (e := ⟨call, s.cycle⟩) hsample]
    exact hsame.odomAt.trans h.odomAt
  window hwin := by
    rcases hsame.window with ⟨hpose, hstamp⟩ | hnone
    · show c'.settleStampNs ≤ c'.odomNs
      rw [hstamp, hsame.odomNs]
      exact h.window (hpose ▸ hwin)
    · rw [hnone] at hwin
      cases hwin

/-- A call that takes a sample over. -/
theorem Tracks.sampled (h : Tracks maxV maxW s) {pose : Pose K} {stampNs nowNs : ℤ}
    (hsample : s.cycle.sample? call = some pose) (hnew : s.cycle.odomNs < stampNs)
    (hrest : Rests (s.cycle.refresh pose stampNs call.now) pose stampNs nowNs c') :
    Tracks maxV maxW ⟨c', ⟨call, s.cycle⟩ :: s.log⟩ := by
  have hat : sampleAt (⟨call, s.cycle⟩ :: s.log) = some call.now :=
    sampleAt_cons_of_some (e := ⟨call, s.cycle⟩) hsample
  cases hrest with
  | waits hwindow =>
      refine ⟨h.maxV, h.maxW, hat.symm, fun hwin => ?_⟩
      rcases hwindow with ⟨hpose, hstamp⟩ | hstamp
      · -- the window of before is older than the sample
        have hold : s.cycle.settleStampNs ≤ s.cycle.odomNs := h.window (hpose ▸ hwin)
        exact (le_of_eq_of_le hstamp hold).trans hnew.le
      · exact hstamp.le
  | corrects _ _ => exact ⟨h.maxV, h.maxW, hat.symm, fun _ => le_refl stampNs⟩
  | confirms _ _ => exact ⟨h.maxV, h.maxW, hat.symm, fun _ => le_refl stampNs⟩

omit [Trig K] in
/-- A primitive of the log stays the last one under a call that starts none. -/
theorem primitive?_made {p : Primitive K} (h : primitive? s.log = some p)
    (hstart : s.cycle.started? call = none) :
    primitive? (⟨call, s.cycle⟩ :: s.log) =
      some { p with since := ⟨call, s.cycle⟩ :: p.since } := by
  rw [primitive?_cons_of_none (e := ⟨call, s.cycle⟩) hstart, h]
  rfl

theorem Follows.kept (h : Follows maxV maxW s) (hstart : s.cycle.started? call = none)
    (hsample : s.cycle.sample? call = none) (hkeep : KeepsMotion s.cycle c') :
    Follows maxV maxW ⟨c', ⟨call, s.cycle⟩ :: s.log⟩ where
  toTracks := h.toTracks.same hsample hkeep.toSameOdometry
  motion hlive := by
    have hlive : s.cycle.action.isSome ∨ s.cycle.turnTarget.isSome := by
      rcases hlive with haction | htarget
      · rcases hkeep.action with ⟨hsame, -⟩ | ⟨hnone, -⟩
        · exact .inl (hsame ▸ haction)
        · rw [hnone] at haction
          cases haction
      · exact .inr (hkeep.turnTarget ▸ htarget)
    obtain ⟨p, hp, hpursues⟩ := h.motion hlive
    exact ⟨_, primitive?_made hp hstart, hpursues.of_keeps hkeep hsample⟩
  driven htarget := by
    rcases hkeep.action with ⟨hsame, hsettle | hsettle⟩ | ⟨-, hsettle⟩
    · rw [hsame, hsettle]
      exact h.driven (hkeep.turnTarget ▸ htarget)
    · exact .inr hsettle
    · exact .inr hsettle

theorem Follows.dropped (h : Follows maxV maxW s) (hsample : s.cycle.sample? call = none)
    (hdrop : DropsMotion s.cycle c') : Follows maxV maxW ⟨c', ⟨call, s.cycle⟩ :: s.log⟩ where
  toTracks := h.toTracks.same hsample hdrop.toSameOdometry
  motion hlive := by
    rw [hdrop.action, hdrop.turnTarget] at hlive
    exact hlive.elim nofun nofun
  driven htarget := by
    rw [hdrop.turnTarget] at htarget
    cases htarget

theorem Follows.started (h : Follows maxV maxW s) {action : NavidaAction K}
    (hstart : s.cycle.started? call = some action) (hsample : s.cycle.sample? call = none)
    (hengage : StartsMotion s.cycle action call.now c') :
    Follows maxV maxW ⟨c', ⟨call, s.cycle⟩ :: s.log⟩ where
  toTracks := h.toTracks.same hsample hengage.toSameOdometry
  motion _ := ⟨_, primitive?_cons_of_some (e := ⟨call, s.cycle⟩) hstart,
    pursues_of_startsMotion (e := ⟨call, s.cycle⟩) hengage⟩
  driven htarget := by
    rcases hengage.action with haction | ⟨-, hangle⟩
    · rw [haction]
      exact .inl rfl
    · rw [hengage.turnTarget, if_pos hangle] at htarget
      cases htarget

theorem Follows.sampled (h : Follows maxV maxW s) (hstart : s.cycle.started? call = none)
    {pose : Pose K} {stampNs nowNs : ℤ} (hsample : s.cycle.sample? call = some pose)
    (hnew : s.cycle.odomNs < stampNs)
    (hrest : Rests (s.cycle.refresh pose stampNs call.now) pose stampNs nowNs c') :
    Follows maxV maxW ⟨c', ⟨call, s.cycle⟩ :: s.log⟩ where
  toTracks := h.toTracks.sampled hsample hnew hrest
  motion hlive := by
    -- a motion after the sample is a motion before it, and counts the increment
    have hbefore : s.cycle.action.isSome ∨ s.cycle.turnTarget.isSome := by
      cases hrest with
      | waits _ => exact hlive
      | corrects _ hcorrection =>
          have htarget := turnTarget_of_correction hcorrection
          exact .inr (Option.isSome_iff_exists.mpr ⟨_, htarget⟩)
      | confirms _ _ => exact hlive.elim nofun nofun
    obtain ⟨p, hp, hpursues⟩ := h.motion hbefore
    have hcounts : s.cycle.action.isSome ∨ s.cycle.settling = true := hbefore.elim .inl h.driven
    exact ⟨_, primitive?_made hp hstart,
      (hpursues.of_refresh (e := ⟨call, s.cycle⟩) hcounts hsample).of_rests hrest⟩
  driven htarget := by
    cases hrest with
    | waits _ => exact h.driven htarget
    | corrects _ _ => exact .inl rfl
    | confirms _ _ => cases htarget

/-- **One call** keeps the invariant. -/
theorem Follows.next (h : Follows maxV maxW s) (call : Call K) :
    Follows maxV maxW ((cycleMachine maxV maxW).next s call) := by
  show Follows maxV maxW ⟨s.cycle.call call, ⟨call, s.cycle⟩ :: s.log⟩
  have heffect := effect_call s.cycle call
  generalize s.cycle.call call = c' at heffect ⊢
  cases heffect with
  | kept hstart hsample hkeep => exact h.kept hstart hsample hkeep
  | dropped _ hsample hdrop _ => exact h.dropped hsample hdrop
  | started hstart hsample hengage => exact h.started hstart hsample hengage
  | sampled hstart hsample hnew _ hrest => exact h.sampled hstart hsample hnew hrest

/-- **Every run** keeps the invariant. -/
theorem follows_invariant : (cycleMachine maxV maxW).Invariant (Follows maxV maxW) where
  init _ hs := follows_init hs
  step _ call h _ := h.next call

end

/-! ## What a command returns -/

section

variable {K : Type*} [Field K] [LinearOrder K] [Trig K]

/-- The conditions under which `command` lets a primitive move the robot. -/
structure Driving (c : StepCycle K) (now : K) (motionEnabled : Bool) (pose origin : Pose K)
    (action : NavidaAction K) : Prop where
  stopped : c.stopped = false
  fresh : c.odomStale now = false
  settling : c.settling = false
  enabled : motionEnabled = true
  inTime : now - c.motionAt ≤ c.budget action
  measured : c.pose = some pose ∧ c.origin = some origin
  active : c.action = some action

/-- A command is zero, or drives the primitive of the cycle. -/
theorem command_zero_or_driving (c : StepCycle K) (now : K) (nowNs : ℤ) (motionEnabled : Bool) :
    (c.command now nowNs motionEnabled).2 = (0, 0) ∨
      ∃ pose origin action, c.Driving now motionEnabled pose origin action ∧
        (c.command now nowNs motionEnabled).2 = (c.drive pose origin action now nowNs).2 := by
  unfold command
  split
  · exact .inl rfl
  · rename_i pose hpose
    split
    · exact .inl rfl
    · rename_i hstop
      split
      · exact .inl rfl
      · rename_i hfresh
        split
        · exact .inl rfl
        · rename_i htime
          split
          · split <;> exact .inl rfl
          · rename_i hsettle
            split
            · rename_i action origin haction horigin
              cases motionEnabled with
              | false => exact .inl rfl
              | true =>
                  refine .inr ⟨pose, origin, action, ⟨Bool.eq_false_iff.mpr hstop,
                    Bool.eq_false_iff.mpr hfresh, Bool.eq_false_iff.mpr hsettle, rfl, ?_,
                    ⟨hpose, horigin⟩, haction⟩, rfl⟩
                  rw [haction, horigin] at htime
                  refine le_of_not_gt fun hlate => htime ?_
                  show (true && decide _) = true
                  rw [Bool.true_and, decide_eq_true hlate]
            · exact .inl rfl

variable [IsStrictOrderedRing K]

omit [Trig K] in
/-- A value clamped to a symmetric range lies in it. -/
theorem abs_clamp_le {w x : K} (hw : 0 ≤ w) : |max (-w) (min w x)| ≤ w :=
  abs_le.mpr ⟨le_max_left _ _, max_le (neg_le_self hw) (min_le_left _ _)⟩

omit [Trig K] in
/-- The turn controller stays within the limit, whatever its integral was. -/
theorem abs_turnControl_le {c : StepCycle K} (hw : 0 ≤ c.maxW) (action : NavidaAction K)
    (remaining now : K) : |(c.turnControl action remaining now).2| ≤ c.maxW :=
  abs_clamp_le hw

/-- **The speeds** of a primitive: forward, within both limits, and one at a time. -/
theorem drive_speeds {c : StepCycle K} (hv : 15 / 1000 ≤ c.maxV) (hw : 0 ≤ c.maxW)
    (pose origin : Pose K) (action : NavidaAction K) (now : K) (nowNs : ℤ) {v w : K}
    (h : (c.drive pose origin action now nowNs).2 = (v, w)) :
    (0 ≤ v ∧ v ≤ c.maxV) ∧ |w| ≤ c.maxW ∧ v * w = 0 := by
  have hv₀ : 0 ≤ c.maxV := le_trans (by positivity) hv
  have hzero : (0 ≤ (0 : K) ∧ 0 ≤ c.maxV) ∧ |(0 : K)| ≤ c.maxW ∧ (0 : K) * 0 = 0 :=
    ⟨⟨le_refl 0, hv₀⟩, by rwa [abs_zero], mul_zero 0⟩
  unfold drive at h
  split at h
  · dsimp only at h
    split at h
    · cases h
      refine ⟨⟨le_min hv₀ ?_, min_le_left _ _⟩, by rwa [abs_zero], mul_zero _⟩
      exact le_trans (by positivity) (le_max_left _ _)
    · cases h
      exact hzero
  · dsimp only at h
    split at h
    · cases h
      refine ⟨⟨le_refl 0, hv₀⟩, ?_, zero_mul _⟩
      split
      · exact abs_turnControl_le hw action _ now
      · rwa [abs_zero]
    · cases h
      exact hzero

omit [Trig K] in
/-- The rest of a turn has no larger budget than the primitive it belongs to. -/
theorem budget_rest_le (c : StepCycle K) (hw : 0 ≤ c.maxW) (action : NavidaAction K) :
    c.budget ⟨0, action.angle⟩ ≤ c.budget action := by
  unfold budget
  have hangle : 0 ≤ |action.angle| / c.maxW := div_nonneg (abs_nonneg _) hw
  have hmax : max (0 / c.maxV) (|action.angle| / c.maxW) ≤
      max (action.distance / c.maxV) (|action.angle| / c.maxW) := by
    rw [zero_div, max_eq_right hangle]
    exact le_max_right _ _
  linarith

end

/-! ## The envelope -/

section

variable {K : Type*} [Field K] [LinearOrder K] [Trig K]

/-- The envelope of a command `(v, w)` at `now`, after a run of a cycle with the limits. -/
structure Envelope (maxV maxW : K) (s : CycleRun K) (now : K) (motionEnabled : Bool) (v w : K) :
    Prop where
  linear : 0 ≤ v ∧ v ≤ maxV
  angular : |w| ≤ maxW
  apart : v * w = 0
  /-- Odometry with an advancing stamp was observed at most 0.3 s ago. -/
  fresh : (v, w) ≠ (0, 0) → ∃ e ∈ s.log, e.sample?.isSome ∧
    0 ≤ now - e.call.now ∧ now - e.call.now ≤ 3 / 10
  active : (v, w) ≠ (0, 0) → s.cycle.stopped = false ∧ s.cycle.settling = false ∧
    motionEnabled = true ∧ s.cycle.action.isSome ∧ s.cycle.origin.isSome
  /-- The motion is the last primitive that was started or the rest of its turn, and its
  origin is the pose measured then; the deadline counts from that start. -/
  deadline : (v, w) ≠ (0, 0) → ∃ p, primitive? s.log = some p ∧
    (s.cycle.action = some p.action ∨ s.cycle.action = some ⟨0, p.action.angle⟩) ∧
    s.cycle.origin = p.cycle.pose ∧ 0 ≤ now - p.startedAt ∧
    now - p.startedAt ≤ 3 * max (p.action.distance / maxV) (|p.action.angle| / maxW) + 8

omit [Trig K] in
theorem limits_of_new [IsStrictOrderedRing K] {maxV maxW : K} {c : StepCycle K}
    (h : new maxV maxW = .ok c) : 15 / 1000 ≤ maxV ∧ 0 ≤ maxW := by
  unfold new at h
  split at h
  · cases h
  · rename_i hlimits
    obtain ⟨hv, hw⟩ := not_or.mp hlimits
    refine ⟨not_lt.mp hv, le_trans ?_ (not_lt.mp hw)⟩
    unfold TURN_DRIVE_SPEED
    positivity

variable [IsStrictOrderedRing K] {maxV maxW : K}

/-- The envelope follows from the invariant. -/
theorem Follows.envelope {s : CycleRun K} (h : Follows maxV maxW s) (hv : 15 / 1000 ≤ maxV)
    (hw : 0 ≤ maxW) {now : K} {nowNs : ℤ} {motionEnabled : Bool}
    (honward : Onward s (.command now nowNs motionEnabled)) {v w : K}
    (hresult : (s.cycle.command now nowNs motionEnabled).2 = (v, w)) :
    Envelope maxV maxW s now motionEnabled v w := by
  rcases command_zero_or_driving s.cycle now nowNs motionEnabled with hzero | hdriving
  · rw [hzero] at hresult
    cases hresult
    exact ⟨⟨le_refl 0, le_trans (by positivity) hv⟩, by rwa [abs_zero], mul_zero 0,
      fun hne => absurd rfl hne, fun hne => absurd rfl hne, fun hne => absurd rfl hne⟩
  · obtain ⟨pose, origin, action, hdrive, heq⟩ := hdriving
    rw [heq] at hresult
    have hspeeds := drive_speeds (by rw [h.maxV]; exact hv) (by rw [h.maxW]; exact hw)
      pose origin action now nowNs hresult
    rw [h.maxV, h.maxW] at hspeeds
    refine ⟨hspeeds.1, hspeeds.2.1, hspeeds.2.2, fun _ => ?_, fun _ => ?_, fun _ => ?_⟩
    · have hfresh := hdrive.fresh
      unfold odomStale at hfresh
      split at hfresh
      · cases hfresh
      · rename_i at_ hat
        obtain ⟨e, he, hsample, hnow⟩ := sampleAt_mem (h.odomAt.symm.trans hat)
        refine ⟨e, he, hsample, sub_nonneg.mpr (honward e he), ?_⟩
        rw [hnow]
        exact not_lt.mp (of_decide_eq_false hfresh)
    · exact ⟨hdrive.stopped, hdrive.settling, hdrive.enabled, by rw [hdrive.active]; rfl,
        by rw [hdrive.measured.2]; rfl⟩
    · obtain ⟨p, hp, hpursues⟩ := h.motion (.inl (by rw [hdrive.active]; rfl))
      obtain ⟨e, he, -, -, hstart⟩ := primitive?_mem hp
      have haction := hpursues.action action hdrive.active
      refine ⟨p, hp, ?_, hpursues.origin, sub_nonneg.mpr (hstart ▸ honward e he), ?_⟩
      · rw [hdrive.active]
        exact haction.imp (congrArg some) (congrArg some)
      · -- a resumed turn has a budget of its own, and it is no larger
        have hbudget : s.cycle.budget action ≤ s.cycle.budget p.action := by
          rcases haction with rfl | rfl
          · exact le_refl _
          · exact budget_rest_le s.cycle (by rw [h.maxW]; exact hw) p.action
        have htime := hdrive.inTime.trans hbudget
        unfold budget at htime
        rwa [hpursues.motionAt, h.maxV, h.maxW] at htime

/-- **Commands stay in their envelope**: at the end of every run in which `now` never goes
back, whatever a command returns there. -/
theorem command_envelope {calls : List (Call K)} {s : CycleRun K}
    (h : ((cycleMachine maxV maxW).restrict Onward).Run calls s) {now : K} {nowNs : ℤ}
    {motionEnabled : Bool} (honward : Onward s (.command now nowNs motionEnabled)) {v w : K}
    (hresult : (s.cycle.command now nowNs motionEnabled).2 = (v, w)) :
    Envelope maxV maxW s now motionEnabled v w := by
  obtain ⟨s₀, hs₀, -⟩ := h.exists_exec
  have hlimits := limits_of_new hs₀.1
  exact (follows_invariant.of_run h.of_restrict).envelope hlimits.1 hlimits.2 honward hresult

end

open scoped NavidaStepBridge

/-- A stop confirmed over 160 ms, then a primitive of 25 cm. -/
def firstPrimitive : List (Call ℚ) :=
  [.observe ⟨0, 0, 0, 0⟩ 1000000 (1 / 1000) 1000000,
    .observe ⟨0, 0, 0, 0⟩ 161000000 (161 / 1000) 161000000,
    .start ⟨1 / 4, 0⟩ (2 / 10) 200000000]

/-- The end of the first primitive. -/
def firstStarted : CycleRun ℚ :=
  (cycleMachine (1 / 10) (35 / 100)).exec ⟨fresh (1 / 10) (35 / 100), []⟩ firstPrimitive

theorem run_firstPrimitive :
    ((cycleMachine (1 / 10) (35 / 100)).restrict Onward).Run firstPrimitive firstStarted := by
  have henabled : ((cycleMachine (1 / 10) (35 / 100)).restrict Onward).Enabled
      ⟨fresh (1 / 10) (35 / 100), []⟩ firstPrimitive := by
    refine ⟨⟨trivial, ?_⟩, ⟨trivial, ?_⟩, ⟨trivial, ?_⟩, trivial⟩ <;> decide +kernel
  have hinit : ((cycleMachine (1 / 10) (35 / 100)).restrict Onward).Init
      (⟨fresh (1 / 10) (35 / 100), []⟩ : CycleRun ℚ) := ⟨by decide +kernel, rfl⟩
  have hrun := Machine.run_of_enabled hinit henabled
  rwa [Machine.restrict_exec] at hrun

/-- A primitive drives at full speed 50 ms after its start. -/
theorem command_envelope_first :
    Envelope (1 / 10) (35 / 100) firstStarted (25 / 100) true (1 / 10) 0 :=
  command_envelope run_firstPrimitive
    (show Onward firstStarted (.command (25 / 100) 250000000 true) by decide +kernel)
    (by decide +kernel)

end StepCycle
