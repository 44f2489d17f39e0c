/-
# The capture barrier of the NaVIDA executor

An inference sees only an image that was exposed after the robot had come to
rest: later than every moving command, later than the last time the motors
became ready, and later than a window of odometry that confirms the stop.

`Barred` says so of one entry of the history and of the entries before it;
`Barrier` is the invariant, at one reading of the clock.  Its two main parts
are what a settling cycle has seen so far (`Settling`) and what a cycle at rest
has seen (`Rested`).
-/
import Mathlib.Data.List.Chain
import Mathlib.Data.List.Count
import Rvln.NavidaSteps

namespace NavidaStepBridge

open World History

variable {K Image Jpeg : Type*}

/-! ## What the history says -/

/-- The clock readings of the ticks that published a non-zero command. -/
def moveTimes [Zero K] (trace : List (Entry K Image Jpeg)) : Set ℤ :=
  {u | ∃ e ∈ trace, ∃ linear angular, e.act = .publish linear angular u ∧
    (linear ≠ 0 ∨ angular ≠ 0)}

/-- The clock readings at which `power_state` became `ready`. -/
def readyTimes (trace : List (Entry K Image Jpeg)) : Set ℤ :=
  {u | ∃ e ∈ trace, e.act = .ready u}

/-- The pose of an accepted odometry message and its stamp. -/
def Act.sample? : Act K Jpeg → Option (Pose K × ℤ)
  | .sample pose stampNs => some (pose, stampNs)
  | _ => none

/-- The accepted odometry, newest first. -/
def samples (trace : List (Entry K Image Jpeg)) : List (Pose K × ℤ) :=
  trace.filterMap fun e => Act.sample? e.act

/-- How many inferences were handed to the worker. -/
def submitted (trace : List (Entry K Image Jpeg)) : ℕ :=
  trace.countP fun e => match e.act with
    | .submit .. => true
    | _ => false

/-- How many inferences the worker has completed. -/
def completed (trace : List (Entry K Image Jpeg)) : ℕ :=
  trace.countP fun e => match e.act with
    | .inferred _ => true
    | _ => false

/-- The inferences that the node waits for. -/
def inFlight : Option (Future (HttpOutcome K)) → ℕ
  | some .pending => 1
  | _ => 0

/-- An act that leaves all of these alone. -/
def Neutral [Zero K] : Act K Jpeg → Prop
  | .publish linear angular _ => linear = 0 ∧ angular = 0
  | .ready _ => False
  | .sample .. => False
  | .submit .. => False
  | .inferred _ => False
  | _ => True

section

variable {e : Entry K Image Jpeg} {trace : List (Entry K Image Jpeg)}

theorem readyTimes_cons_of_ne (he : ∀ u, e.act ≠ .ready u) :
    readyTimes (e :: trace) = readyTimes trace := by
  ext u
  simp [readyTimes, he]

theorem samples_cons (e : Entry K Image Jpeg) (trace : List (Entry K Image Jpeg)) :
    samples (e :: trace) = (Act.sample? e.act).toList ++ samples trace := by
  unfold samples
  rw [List.filterMap_cons]
  cases Act.sample? e.act <;> rfl

variable [Zero K]

theorem moveTimes_cons_of_zero
    (he : ∀ linear angular u, e.act = .publish linear angular u → linear = 0 ∧ angular = 0) :
    moveTimes (e :: trace) = moveTimes trace := by
  ext u
  constructor
  · rintro ⟨m, hm, linear, angular, hact, hne⟩
    rcases List.mem_cons.mp hm with rfl | hm
    · obtain ⟨hlinear, hangular⟩ := he _ _ _ hact
      rcases hne with hne | hne
      · exact absurd hlinear hne
      · exact absurd hangular hne
    · exact ⟨m, hm, linear, angular, hact, hne⟩
  · rintro ⟨m, hm, hmove⟩
    exact ⟨m, List.mem_cons_of_mem e hm, hmove⟩

/-- What a neutral entry leaves alone. -/
theorem neutral_cons (trace : List (Entry K Image Jpeg)) (he : Neutral e.act) :
    moveTimes (e :: trace) = moveTimes trace ∧ readyTimes (e :: trace) = readyTimes trace ∧
      samples (e :: trace) = samples trace ∧ submitted (e :: trace) = submitted trace ∧
      completed (e :: trace) = completed trace := by
  obtain ⟨act, node⟩ := e
  refine ⟨moveTimes_cons_of_zero ?_, readyTimes_cons_of_ne ?_, ?_, ?_, ?_⟩
  · rintro linear angular u rfl
    exact he
  · rintro u rfl
    exact he
  · rw [samples_cons]
    cases act <;> first | rfl | exact he.elim
  · cases act <;> first | rfl | exact he.elim
  · cases act <;> first | rfl | exact he.elim

/-- A sample is no command. -/
theorem moveTimes_sample (pose : Pose K) (stampNs : ℤ) (node : NavidaStepBridge K Image Jpeg) :
    moveTimes (⟨.sample pose stampNs, node⟩ :: trace) = moveTimes trace :=
  moveTimes_cons_of_zero nofun

omit [Zero K] in
theorem readyTimes_sample (pose : Pose K) (stampNs : ℤ) (node : NavidaStepBridge K Image Jpeg) :
    readyTimes (⟨.sample pose stampNs, node⟩ :: trace) = readyTimes trace :=
  readyTimes_cons_of_ne nofun

end

/-! ## The stop behind an image -/

section

variable [Field K] [LinearOrder K] [Trig K]

/-- A window of odometry, newest first, over which the robot stood still: every
two consecutive poses are at rest, and it lasts 150 ms. -/
structure StoodStillOver (window : List (Pose K × ℤ)) : Prop where
  still : window.IsChain fun new old => StepCycle.Still old.1 old.2 new.1 new.2
  lasts : ∃ newest ∈ window.head?, ∃ oldest ∈ window.getLast?,
    150000000 ≤ newest.2 - oldest.2

/-- What the barrier asks of an entry and the entries before it.  The stop that
an inference relies on is the last one that the cycle began, at `stopNs`. -/
def Barred (e : Entry K Image Jpeg) (older : List (Entry K Image Jpeg)) : Prop :=
  match e.act with
  | .submit token _ _ =>
      (∀ u ∈ moveTimes older, u < token.captureNs) ∧
      (∀ u ∈ readyTimes older, u < token.captureNs) ∧
      (∃ window, window <:+: samples older ∧ StoodStillOver window ∧
        (∀ u ∈ moveTimes older, u ≤ e.node.cycle.stopNs) ∧
        ∀ s ∈ window, e.node.cycle.stopNs < s.2 ∧ s.2 < token.captureNs) ∧
      submitted older = completed older
  | _ => True

/-- What a settling cycle has seen: no command since the stop began, and from
`stableSinceNs` on a window over which the robot stood still. -/
structure Settling (c : StepCycle K) (trace : List (Entry K Image Jpeg)) : Prop where
  moves : ∀ u ∈ moveTimes trace, u ≤ c.stopNs
  window : ∀ pose, c.settlePose = some pose →
    ∃ window oldest, window <+: samples trace ∧
      window.head? = some (pose, c.settleStampNs) ∧ window.getLast? = some oldest ∧
      oldest.2 = c.stableSinceNs ∧
      (window.IsChain fun new old => StepCycle.Still old.1 old.2 new.1 new.2) ∧
      (∀ s ∈ window, c.stopNs < s.2)
  newest : c.settlePose ≠ none → max c.stopNs c.settleNotBeforeNs < c.odomNs

/-- What a cycle at rest has seen: a confirmed stop, behind which the barrier
stands. -/
structure Rested (c : StepCycle K) (trace : List (Entry K Image Jpeg)) : Prop where
  moves : ∀ u ∈ moveTimes trace, u ≤ c.stopNs
  readys : ∀ u ∈ readyTimes trace, u ≤ c.floorNs
  window : ∃ window, window <:+: samples trace ∧ StoodStillOver window ∧
    ∀ s ∈ window, c.stopNs < s.2 ∧ s.2 ≤ c.floorNs

/-- The invariant of the barrier, at the reading `t` of the clock. -/
structure Barrier (t : ℤ) (w : World K Image Jpeg) : Prop where
  barred : Each Barred w.trace
  moves : ∀ u ∈ moveTimes w.trace, u ≤ t
  readys : ∀ u ∈ readyTimes w.trace, u ≤ t
  stamps : ∀ s ∈ samples w.trace, s.2 ≤ t
  settling : w.node.cycle.settling = true → Settling w.node.cycle w.trace
  rested : w.node.cycle.settling = false → w.node.cycle.action = none →
    Rested w.node.cycle w.trace
  flight : submitted w.trace = completed w.trace + inFlight w.node.future

/-! ## Keeping the barrier -/

variable {t : ℤ} {w : World K Image Jpeg} {c c' : StepCycle K}

/-- A settling cycle has seen the same if an entry is neutral, or if it is the
`ready` of the motors. -/
theorem Settling.congr {trace trace' : List (Entry K Image Jpeg)} (h : Settling c trace)
    (hmoves : moveTimes trace' = moveTimes trace) (hsamples : samples trace' = samples trace) :
    Settling c trace' := by
  refine ⟨?_, ?_, h.newest⟩
  · rw [hmoves]
    exact h.moves
  · rw [hsamples]
    exact h.window

theorem Rested.congr {trace trace' : List (Entry K Image Jpeg)} (h : Rested c trace)
    (hmoves : moveTimes trace' = moveTimes trace) (hreadys : readyTimes trace' = readyTimes trace)
    (hsamples : samples trace' = samples trace) : Rested c trace' := by
  refine ⟨?_, ?_, ?_⟩
  · rw [hmoves]
    exact h.moves
  · rw [hreadys]
    exact h.readys
  · rw [hsamples]
    exact h.window

/-- A neutral act may happen. -/
theorem Barrier.record (h : Barrier t w) (act : Act K Jpeg) (hneutral : Neutral act) :
    Barrier t (w.record act) := by
  obtain ⟨hmoves, hreadys, hsamples, hsubmitted, hcompleted⟩ :=
    neutral_cons (e := ⟨act, w.node⟩) w.trace hneutral
  have hbarred : Barred ⟨act, w.node⟩ w.trace := by
    cases act <;> trivial
  refine ⟨⟨hbarred, h.barred⟩, ?_, ?_, ?_, ?_, ?_, ?_⟩
  · show ∀ u ∈ moveTimes (_ :: w.trace), u ≤ t
    rw [hmoves]
    exact h.moves
  · show ∀ u ∈ readyTimes (_ :: w.trace), u ≤ t
    rw [hreadys]
    exact h.readys
  · show ∀ s ∈ samples (_ :: w.trace), s.2 ≤ t
    rw [hsamples]
    exact h.stamps
  · exact fun hsettle => (h.settling hsettle).congr hmoves hsamples
  · exact fun hsettle haction => (h.rested hsettle haction).congr hmoves hreadys hsamples
  · show submitted (_ :: w.trace) = completed (_ :: w.trace) + _
    rw [hsubmitted, hcompleted]
    exact h.flight

/-- Other attributes of the node do not matter. -/
theorem Barrier.aside (h : Barrier t w) {n : NavidaStepBridge K Image Jpeg}
    (hcycle : n.cycle = w.node.cycle) (hfuture : n.future = w.node.future) :
    Barrier t { w with node := n } := by
  refine ⟨h.barred, h.moves, h.readys, h.stamps, ?_, ?_, ?_⟩
  · show n.cycle.settling = true → Settling n.cycle w.trace
    rw [hcycle]
    exact h.settling
  · show n.cycle.settling = false → n.cycle.action = none → Rested n.cycle w.trace
    rw [hcycle]
    exact h.rested
  · show _ = _ + inFlight n.future
    rw [hfuture]
    exact h.flight

/-- A stop that begins has seen nothing yet; no command is later. -/
theorem settling_of_begun {trace : List (Entry K Image Jpeg)}
    (hmoves : ∀ u ∈ moveTimes trace, u ≤ t) (h : c.Begun t) : Settling c trace where
  moves := by
    rw [h.stopNs]
    exact hmoves
  window := by
    intro pose hpose
    rw [h.settlePose] at hpose
    cases hpose
  newest := fun hpose => absurd h.settlePose hpose

/-- A cycle that keeps its way to the stop has seen the same. -/
theorem Settling.keeps {trace : List (Entry K Image Jpeg)} (h : Settling c trace)
    (hkeeps : c.Keeps c') (hodom : c'.odomNs = c.odomNs) : Settling c' trace := by
  refine ⟨?_, ?_, ?_⟩
  · rw [hkeeps.stopNs]
    exact h.moves
  · rw [hkeeps.settlePose, hkeeps.settleStampNs, hkeeps.stableSinceNs, hkeeps.stopNs]
    exact h.window
  · rw [hkeeps.settlePose, hkeeps.stopNs, hkeeps.settleNotBeforeNs, hodom]
    exact h.newest

/-- A call that begins a stop or leaves it keeps the barrier. -/
theorem Barrier.turn (h : Barrier t w) (hturns : w.node.cycle.Turns c t) :
    Barrier t (w.setCycle c) := by
  have hset : Barrier t { w with node := { w.node with cycle := c } } := by
    refine ⟨h.barred, h.moves, h.readys, h.stamps, ?_, ?_, h.flight⟩
    · intro hsettle
      rcases hturns.stop with hbegun | hkeeps
      · exact settling_of_begun h.moves hbegun
      · exact (h.settling (hkeeps.settling.symm.trans hsettle)).keeps hkeeps hturns.odomNs
    · intro hsettle haction
      rcases hturns.stop with hbegun | hkeeps
      · exact absurd (hbegun.settling.symm.trans hsettle) Bool.noConfusion
      · obtain ⟨hnone, hfloor⟩ := hkeeps.rest haction
        have hrested := h.rested (hkeeps.settling.symm.trans hsettle) hnone
        show Rested c w.trace
        refine ⟨?_, ?_, ?_⟩
        · rw [hkeeps.stopNs]
          exact hrested.moves
        · rw [hfloor]
          exact hrested.readys
        · rw [hkeeps.stopNs, hfloor]
          exact hrested.window
  unfold World.setCycle
  dsimp only
  split
  · exact hset.record .halted trivial
  · exact hset

/-- A still pose makes the window grow. -/
theorem Settling.grow {trace : List (Entry K Image Jpeg)} {pose previous : Pose K} {stampNs : ℤ}
    (h : Settling c trace) (hlate : max c.stopNs c.settleNotBeforeNs < stampNs)
    (hpose : c.settlePose = some previous)
    (hstill : StepCycle.Still previous c.settleStampNs pose stampNs) :
    ∃ window oldest, window <+: (pose, stampNs) :: samples trace ∧
      window.head? = some (pose, stampNs) ∧ window.getLast? = some oldest ∧
      oldest.2 = c.stableSinceNs ∧
      (window.IsChain fun new old => StepCycle.Still old.1 old.2 new.1 new.2) ∧
      ∀ s ∈ window, c.stopNs < s.2 := by
  obtain ⟨window, oldest, hfront, hhead, hlast, hsince, hchain, hafter⟩ :=
    h.window previous hpose
  obtain ⟨rest, rfl⟩ : ∃ rest, window = (previous, c.settleStampNs) :: rest := by
    cases window with
    | nil => cases hhead
    | cons s rest =>
        cases hhead
        exact ⟨rest, rfl⟩
  refine ⟨(pose, stampNs) :: (previous, c.settleStampNs) :: rest, oldest,
    List.cons_prefix_cons.mpr ⟨rfl, hfront⟩, rfl, ?_, hsince,
    List.isChain_cons_cons.mpr ⟨hstill, hchain⟩, ?_⟩
  · rw [List.getLast?_cons_cons]
    exact hlast
  · intro s hs
    rcases List.mem_cons.mp hs with rfl | hs
    · exact lt_of_le_of_lt (le_max_left _ _) hlate
    · exact hafter s hs

/-- A pose that comes too early for the window finds none: a window is older than
every new stamp. -/
theorem Settling.unseen {trace : List (Entry K Image Jpeg)} {stampNs : ℤ} (h : Settling c trace)
    (hnew : c.odomNs < stampNs) (hearly : stampNs ≤ max c.stopNs c.settleNotBeforeNs) :
    c.settlePose = none := by
  by_contra hpose
  exact absurd (lt_trans (h.newest hpose) hnew) (not_lt.mpr hearly)

section

variable {trace : List (Entry K Image Jpeg)} {pose : Pose K} {stampNs : ℤ} (now : K)
  (node : NavidaStepBridge K Image Jpeg)

/-- A sample that no window is open for. -/
theorem Settling.ignore (h : Settling c trace) (hpose : c.settlePose = none) :
    Settling (c.refresh pose stampNs now) (⟨.sample pose stampNs, node⟩ :: trace) where
  moves := by
    rw [moveTimes_sample]
    exact h.moves
  window p hp := absurd (hpose.symm.trans hp) nofun
  newest hne := absurd hpose hne

/-- A sample after the stop. -/
theorem Rested.ignore (h : Rested c trace) :
    Rested (c.refresh pose stampNs now) (⟨.sample pose stampNs, node⟩ :: trace) := by
  obtain ⟨window, hpart, hwindow⟩ := h.window
  refine ⟨?_, ?_, window, List.infix_cons hpart, hwindow⟩
  · rw [moveTimes_sample]
    exact h.moves
  · rw [readyTimes_sample]
    exact h.readys

/-- A window of one sample. -/
theorem Settling.restart (h : Settling c trace)
    (hlate : max c.stopNs c.settleNotBeforeNs < stampNs) :
    Settling
      { c.refresh pose stampNs now with
        settlePose := some pose, settleStampNs := stampNs, stableSinceNs := stampNs }
      (⟨.sample pose stampNs, node⟩ :: trace) := by
  refine ⟨?_, ?_, fun _ => hlate⟩
  · rw [moveTimes_sample]
    exact h.moves
  · rintro p hp
    cases hp
    refine ⟨[(pose, stampNs)], (pose, stampNs), ?_, rfl, rfl, rfl, List.isChain_singleton _, ?_⟩
    · exact List.cons_prefix_cons.mpr ⟨rfl, List.nil_prefix⟩
    · intro s hs
      rw [List.mem_singleton.mp hs]
      exact lt_of_le_of_lt (le_max_left _ _) hlate

/-- A window that grows. -/
theorem Settling.extend {previous : Pose K} (h : Settling c trace)
    (hlate : max c.stopNs c.settleNotBeforeNs < stampNs) (hpose : c.settlePose = some previous)
    (hstill : StepCycle.Still previous c.settleStampNs pose stampNs) :
    Settling
      { c.refresh pose stampNs now with settlePose := some pose, settleStampNs := stampNs }
      (⟨.sample pose stampNs, node⟩ :: trace) := by
  refine ⟨?_, ?_, fun _ => hlate⟩
  · rw [moveTimes_sample]
    exact h.moves
  · rintro p hp
    cases hp
    exact h.grow hlate hpose hstill

/-- A window that is long enough: all that was seen so far is in time for the floor. -/
theorem Settling.confirm {previous : Pose K} (h : Settling c trace)
    (hlate : max c.stopNs c.settleNotBeforeNs < stampNs) (hpose : c.settlePose = some previous)
    (hstill : StepCycle.Still previous c.settleStampNs pose stampNs)
    (hlong : 150000000 ≤ stampNs - c.stableSinceNs) (hstamp : stampNs ≤ t)
    (hstamps : ∀ s ∈ samples trace, s.2 ≤ t) (hreadys : ∀ u ∈ readyTimes trace, u ≤ t) :
    Rested
      { c.refresh pose stampNs now with
        settlePose := some pose, settleStampNs := stampNs, turnTarget := none,
        action := none, settling := false, floorNs := t }
      (⟨.sample pose stampNs, node⟩ :: trace) := by
  obtain ⟨window, oldest, hfront, hhead, hlast, hsince, hchain, hafter⟩ :=
    h.grow hlate hpose hstill
  refine ⟨?_, ?_, window, hfront.isInfix, ⟨hchain, _, hhead, _, hlast, ?_⟩, fun s hs => ?_⟩
  · rw [moveTimes_sample]
    exact h.moves
  · rw [readyTimes_sample]
    exact hreadys
  · rw [hsince]
    exact hlong
  · refine ⟨hafter s hs, ?_⟩
    show s.2 ≤ t
    rcases List.mem_cons.mp (hfront.subset hs) with rfl | hs
    · exact hstamp
    · exact hstamps s hs

/-- Odometry of an advancing stamp: the window grows, starts anew or confirms
the stop. -/
theorem settled_sample (hnew : c.odomNs < stampNs) (hstamp : stampNs ≤ t)
    (hstamps : ∀ s ∈ samples trace, s.2 ≤ t) (hreadys : ∀ u ∈ readyTimes trace, u ≤ t)
    (hsettling : c.settling = true → Settling c trace)
    (hrested : c.settling = false → c.action = none → Rested c trace)
    (h : StepCycle.Settled (c.refresh pose stampNs now) pose stampNs t c') :
    (c'.settling = true → Settling c' (⟨.sample pose stampNs, node⟩ :: trace)) ∧
      (c'.settling = false → c'.action = none →
        Rested c' (⟨.sample pose stampNs, node⟩ :: trace)) := by
  cases h with
  | ignored hskip =>
      refine ⟨fun hsettle => ?_, fun hsettle haction => (hrested hsettle haction).ignore now node⟩
      refine (hsettling hsettle).ignore now node ?_
      -- the cycle does not settle, or the stamp is too early for it
      rcases hskip with hskip | hearly
      · exact absurd (hskip.symm.trans hsettle) Bool.noConfusion
      · exact (hsettling hsettle).unseen hnew hearly
  | restarted hsettle hlate =>
      refine ⟨fun _ => (hsettling hsettle).restart now node hlate, fun h => ?_⟩
      exact absurd (hsettle.symm.trans h) Bool.noConfusion
  | grown hsettle hlate hpose hstill =>
      refine ⟨fun _ => (hsettling hsettle).extend now node hlate hpose hstill, fun h => ?_⟩
      exact absurd (hsettle.symm.trans h) Bool.noConfusion
  | corrected hsettle hlate hpose hstill hlong =>
      constructor
      · intro h
        cases h
      · intro _ h
        cases h
  | confirmed hsettle hlate hpose hstill hlong =>
      refine ⟨fun h => absurd h Bool.noConfusion, fun _ _ => ?_⟩
      exact (hsettling hsettle).confirm now node hlate hpose hstill hlong hstamp hstamps hreadys

end

/-- The barrier is about the node and its history only. -/
theorem Barrier.congr {w' : World K Image Jpeg} (h : Barrier t w) (hnode : w'.node = w.node)
    (htrace : w'.trace = w.trace) : Barrier t w' := by
  obtain ⟨node, trace, clockNs⟩ := w'
  cases hnode
  cases htrace
  exact ⟨h.barred, h.moves, h.readys, h.stamps, h.settling, h.rested, h.flight⟩

theorem Barrier.observe (h : Barrier t w) (pose : Pose K) {stampNs : ℤ} (hstamp : stampNs ≤ t)
    (now : K) : Barrier t (w.observe pose stampNs now t) := by
  let c := w.node.cycle.observe pose stampNs now t
  let node := { w.node with cycle := c }
  have hnode : (w.observe pose stampNs now t).node = node := observe_node w pose stampNs now t
  have htrace := observe_trace w pose stampNs now t
  dsimp only at htrace
  rcases lt_or_ge w.node.cycle.odomNs stampNs with hnew | hold
  · obtain ⟨hsettling, hrested⟩ := settled_sample now node hnew hstamp h.stamps h.readys
      h.settling h.rested (StepCycle.observe_cases hnew pose now t)
    have hsampled : Barrier t
        { w with node := node, trace := ⟨.sample pose stampNs, node⟩ :: w.trace } := by
      refine ⟨⟨trivial, h.barred⟩, ?_, ?_, ?_, hsettling, hrested, h.flight⟩
      · rw [moveTimes_sample]
        exact h.moves
      · rw [readyTimes_sample]
        exact h.readys
      · intro s hs
        rcases List.mem_cons.mp hs with rfl | hs
        · exact hstamp
        · exact h.stamps s hs
    rw [if_pos hnew] at htrace
    split at htrace
    · exact (hsampled.record .standstill trivial).congr hnode htrace
    · exact hsampled.congr hnode htrace
  -- an old stamp is not taken over
  · have hc : c = w.node.cycle := StepCycle.observe_of_le hold
    have hnode : (w.observe pose stampNs now t).node = w.node := by
      rw [hnode]
      show { w.node with cycle := c } = w.node
      rw [hc]
    rw [if_neg (not_lt.mpr hold), show w.node.cycle.observe pose stampNs now t = _ from hc,
      Bool.and_not_self, if_neg Bool.false_ne_true] at htrace
    exact h.congr hnode htrace

theorem Barrier.verified (h : Barrier t w) : Barrier t (w.verified t) := by
  let ready : Entry K Image Jpeg := ⟨.ready t, (w.setPower .ready).node⟩
  have hmoves : moveTimes (ready :: w.trace) = moveTimes w.trace := moveTimes_cons_of_zero nofun
  have hsamples : samples (ready :: w.trace) = samples w.trace := rfl
  have hreadys : ∀ u ∈ readyTimes (ready :: w.trace), u ≤ t := by
    rintro u ⟨m, hm, hact⟩
    rcases List.mem_cons.mp hm with rfl | hm
    · cases hact
      exact le_rfl
    · exact h.readys u ⟨m, hm, hact⟩
  unfold World.verified
  dsimp only
  split
  · -- at rest: the barrier is raised to the present, which nothing seen is later than
    let c := { w.node.cycle with floorNs := t }
    have hraised : Barrier t
        { w with
          node := { w.node with powerState := .ready, cycle := c }
          trace := ready :: w.trace } := by
      refine ⟨⟨trivial, h.barred⟩, ?_, hreadys, ?_, ?_, ?_, h.flight⟩
      · rw [hmoves]
        exact h.moves
      · exact h.stamps
      · intro hsettle
        have hseen : Settling c w.trace := ⟨(h.settling hsettle).moves, (h.settling hsettle).window,
          (h.settling hsettle).newest⟩
        exact hseen.congr hmoves hsamples
      · intro hsettle haction
        have hrested := h.rested hsettle haction
        obtain ⟨window, hpart, hwindow, hafter⟩ := hrested.window
        refine ⟨?_, hreadys, window, hpart, hwindow, fun s hs => ⟨(hafter s hs).1, ?_⟩⟩
        · rw [hmoves]
          exact hrested.moves
        · exact h.stamps s (hpart.subset hs)
    have hset : Barrier t (((w.setPower .ready).record (.ready t)).setCycle c) := by
      refine hraised.congr ?_ ?_
      · rw [setCycle_node]
        rfl
      · rw [setCycle_trace]
        exact if_neg fun hc => Bool.false_ne_true ((Bool.and_not_self _).symm.trans hc)
    exact hset.record _ trivial
  · rename_i haction
    refine ⟨⟨trivial, h.barred⟩, ?_, hreadys, h.stamps, ?_, ?_, h.flight⟩
    · show ∀ u ∈ moveTimes (ready :: w.trace), u ≤ t
      rw [hmoves]
      exact h.moves
    · exact fun hsettle => (h.settling hsettle).congr hmoves hsamples
    · exact fun _ hnone => absurd (Option.isNone_iff_eq_none.mpr hnone) haction

/-- A command moves only a cycle that neither settles nor rests. -/
theorem Barrier.move (h : Barrier t w) (linear angular : K)
    (hsettle : w.node.cycle.settling = false) (haction : w.node.cycle.action.isSome = true) :
    Barrier t (w.publish t linear angular) := by
  refine ⟨⟨trivial, h.barred⟩, ?_, ?_, h.stamps, ?_, ?_, h.flight⟩
  · rintro u ⟨m, hm, l, a, hact, hne⟩
    rcases List.mem_cons.mp hm with rfl | hm
    · cases hact
      exact le_rfl
    · exact h.moves u ⟨m, hm, l, a, hact, hne⟩
  · have hreadys : readyTimes (w.publish t linear angular).trace = readyTimes w.trace :=
      readyTimes_cons_of_ne nofun
    rw [hreadys]
    exact h.readys
  · exact fun hs => absurd (hsettle.symm.trans hs) Bool.noConfusion
  · intro _ hnone
    rw [publish_node] at hnone
    rw [hnone] at haction
    cases haction

/-- An inference is submitted only for an image from behind the barrier. -/
theorem Barrier.submit (h : Barrier t w) {token : Request} {goal : String} {jpeg : Jpeg}
    (hsettle : w.node.cycle.settling = false) (haction : w.node.cycle.action = none)
    (hfloor : w.node.cycle.floorNs < token.captureNs) (hfuture : w.node.future = none) :
    Barrier t { w.record (.submit token goal jpeg) with
      node := { w.node with future := some .pending } } := by
  have hrested := h.rested hsettle haction
  have hflight : submitted w.trace = completed w.trace := by
    have hflight := h.flight
    rw [hfuture] at hflight
    exact hflight
  have hbarred : Barred ⟨.submit token goal jpeg, w.node⟩ w.trace := by
    obtain ⟨window, hpart, hwindow, hafter⟩ := hrested.window
    refine ⟨fun u hu => ?_, fun u hu => lt_of_le_of_lt (hrested.readys u hu) hfloor,
      ⟨window, hpart, hwindow, hrested.moves, fun s hs => ?_⟩, hflight⟩
    · -- no command is later than the stop, and the window lies between
      obtain ⟨newest, hnewest, -⟩ := hwindow.lasts
      obtain ⟨hlate, hearly⟩ := hafter newest (List.mem_of_mem_head? hnewest)
      have hstop := hrested.moves u hu
      omega
    · exact ⟨(hafter s hs).1, lt_of_le_of_lt (hafter s hs).2 hfloor⟩
  have hmoves : moveTimes (⟨.submit token goal jpeg, w.node⟩ :: w.trace) = moveTimes w.trace :=
    moveTimes_cons_of_zero nofun
  have hreadys : readyTimes (⟨.submit token goal jpeg, w.node⟩ :: w.trace) =
      readyTimes w.trace := readyTimes_cons_of_ne nofun
  refine ⟨⟨hbarred, h.barred⟩, ?_, ?_, h.stamps, ?_, ?_, ?_⟩
  · show ∀ u ∈ moveTimes (_ :: w.trace), u ≤ t
    rw [hmoves]
    exact h.moves
  · show ∀ u ∈ readyTimes (_ :: w.trace), u ≤ t
    rw [hreadys]
    exact h.readys
  · exact fun hs => absurd (hsettle.symm.trans hs) Bool.noConfusion
  · exact fun _ _ => hrested.congr hmoves hreadys rfl
  · show submitted (_ :: w.trace) = completed (_ :: w.trace) + 1
    rw [submitted, List.countP_cons_of_pos rfl, completed,
      List.countP_cons_of_neg Bool.false_ne_true]
    exact congrArg (· + 1) hflight

theorem Barrier.inferred (h : Barrier t w) {outcome : HttpOutcome K}
    (hfuture : w.node.future = some .pending) : Barrier t (w.httpDone outcome) := by
  let node := { w.node with future := some (.done outcome) }
  have hmoves : moveTimes (⟨.inferred outcome, node⟩ :: w.trace) = moveTimes w.trace :=
    moveTimes_cons_of_zero nofun
  have hreadys : readyTimes (⟨.inferred outcome, node⟩ :: w.trace) = readyTimes w.trace :=
    readyTimes_cons_of_ne nofun
  refine ⟨⟨trivial, h.barred⟩, ?_, ?_, h.stamps, ?_, ?_, ?_⟩
  · show ∀ u ∈ moveTimes (⟨.inferred outcome, node⟩ :: w.trace), u ≤ t
    rw [hmoves]
    exact h.moves
  · show ∀ u ∈ readyTimes (⟨.inferred outcome, node⟩ :: w.trace), u ≤ t
    rw [hreadys]
    exact h.readys
  · exact fun hsettle => (h.settling hsettle).congr hmoves rfl
  · exact fun hsettle haction => (h.rested hsettle haction).congr hmoves hreadys rfl
  · have hflight := h.flight
    rw [hfuture] at hflight
    show submitted (⟨.inferred outcome, node⟩ :: w.trace) =
      completed (⟨.inferred outcome, node⟩ :: w.trace) + 0
    rw [submitted, List.countP_cons_of_neg Bool.false_ne_true, completed,
      List.countP_cons_of_pos rfl]
    exact hflight

/-- **Every small step keeps the barrier.** -/
theorem Barrier.smallStep {w w' : World K Image Jpeg} (h : Barrier t w)
    (hstep : SmallStep t w w') : Barrier t w' := by
  cases hstep with
  | aside n hcycle _ hfuture => exact h.aside hcycle hfuture
  | note act hquiet =>
      refine h.record act ?_
      cases act <;> first | exact hquiet | trivial
  | turn c hturns _ => exact h.turn hturns
  | resume now => exact (h.turn (StepCycle.turns_cancel _ _ _ _)).record .resumed trivial
  | move linear angular _ _ hsettle haction => exact h.move linear angular hsettle haction
  | start act hstart _ =>
      refine h.record act ?_
      cases act <;> first | exact hstart.elim | trivial
  | observe pose stampNs now hstamp => exact h.observe pose hstamp now
  | toStop => exact h.aside rfl rfl
  | callDisable n _ hcycle _ hfuture => exact (h.aside hcycle hfuture).record _ trivial
  | callEnable n _ _ hcycle _ hfuture => exact (h.aside hcycle hfuture).record _ trivial
  | disabled now _ =>
      have hoff : Barrier t ((w.record .powerAcked).setPower .off) :=
        (h.record .powerAcked trivial).aside rfl rfl
      exact hoff.turn ⟨rfl, Or.inl (StepCycle.begun_confirmMotorDisabled _ _ _)⟩
  | enabled n _ hcycle _ hfuture => exact (h.record .powerAcked trivial).aside hcycle hfuture
  | verified _ => exact h.verified
  | submit token goal jpeg hsettle haction hfloor hfuture =>
      exact h.submit hsettle haction hfloor hfuture
  | take outcome hfuture =>
      refine ⟨h.barred, h.moves, h.readys, h.stamps, h.settling, h.rested, ?_⟩
      have hflight := h.flight
      rw [hfuture] at hflight
      exact hflight
  | inferred outcome hfuture => exact h.inferred hfuture

/-! ## Every run -/

/-- The barrier is an invariant of the node, at its newest reading of the clock. -/
theorem barrier_invariant (maxV maxW : K) :
    (machine maxV maxW : Machine (World K Image Jpeg) _).Invariant
      fun w => Barrier w.clockNs w := by
  refine invariant_of_smallStep ?_ (fun _ _ _ h hstep => h.smallStep hstep) ?_ ?_
  · intro cycle clocks hcycle
    have hbegun : cycle.Begun 0 := by
      rw [StepCycle.new_ok hcycle]
      exact ⟨rfl, rfl, rfl⟩
    have hmoves : moveTimes ([] : List (Entry K Image Jpeg)) = ∅ := by
      ext u
      simp [moveTimes]
    refine ⟨trivial, ?_, ?_, nofun, fun _ => ?_, fun hsettle => ?_, rfl⟩
    · show ∀ u ∈ moveTimes [], u ≤ _
      rw [hmoves]
      exact nofun
    · rintro u ⟨m, hm, -⟩
      cases hm
    · refine settling_of_begun ?_ hbegun
      show ∀ u ∈ moveTimes [], u ≤ 0
      rw [hmoves]
      exact nofun
    · exact absurd (hbegun.settling.symm.trans hsettle) Bool.noConfusion
  · intro t t' w hle h
    exact ⟨h.barred, fun u hu => (h.moves u hu).trans hle, fun u hu => (h.readys u hu).trans hle,
      fun s hs => (h.stamps s hs).trans hle, h.settling, h.rested, h.flight⟩
  · exact fun _ _ _ h => h.congr rfl rfl

/-- **Inference only from a post-standstill exposure**, in every run of the
node: every submitted inference is behind the barrier, and at most one is in
flight. -/
theorem capture_barrier {maxV maxW : K} {es : List (Event K Image Jpeg)}
    {w : World K Image Jpeg} (h : (machine maxV maxW).Run es w) :
    (∀ newer e older, w.trace = newer ++ e :: older → Barred e older) ∧
      submitted w.trace ≤ completed w.trace + 1 := by
  have hbarrier : Barrier w.clockNs w := (barrier_invariant maxV maxW).of_run h
  refine ⟨each_iff.mp hbarrier.barred, ?_⟩
  rw [hbarrier.flight]
  rcases w.node.future with _ | _ | _
  · exact Nat.le_succ _
  · exact le_rfl
  · exact Nat.le_succ _

end

/-- The history of the first request ends in the inference it is for. -/
theorem capture_barrier_first_request :
    ∃ w : World ℚ Unit Unit, (machine (1 / 10) (35 / 100)).Run firstRequest w ∧
      w.trace.head?.map Entry.act = some (.submit ⟨1, 1, 1650000000⟩ "go to the door" ()) ∧
      (∀ newer e older, w.trace = newer ++ e :: older → Barred e older) ∧
      submitted w.trace ≤ completed w.trace + 1 := by
  have hrun : (machine (1 / 10) (35 / 100)).Run firstRequest
      ((machine (1 / 10) (35 / 100)).exec switchedOn firstRequest) :=
    Machine.run_of_enabled init_switchedOn (by decide +kernel)
  exact ⟨_, hrun, by decide +kernel, capture_barrier hrun⟩

end NavidaStepBridge
