/-
# What a live run keeps to

Whatever the script of a run is, its effects come in an order that keeps the robot safe, and its
report is true to them.

* `Permits` : the motor is turned on only while the follower has confirmed its stop, after the
  goal and with an embedding published; the follower is let go only when the motor has confirmed
  that it is on; the motor is turned off only when the last request to the follower was to stop;
* `supervised_run` : every run keeps to that, effect by effect, and has no effect before the world
  was compared and the server reset;
* `report_run` : the fields of a report agree with one another, and a run that reports leaves
  follower and motor asked to be off unless its last error says that the shutdown failed.

What a callback leaves of the node (`Grows`), what spinning leaves of the world (`Spun`) and what
every effect keeps (`Supervised`) are proved one by one; the rules of `Procedure` put the pieces of
a run together.
-/
import Rvln.LiveRun

namespace LiveRun

open LiveTransport (Observation Video HttpCall)

/-! ## What an observation leaves of an episode -/

/-- What an observation leaves of the episode. -/
structure Grows (n n' : LiveTransport.Episode) : Prop where
  startedAt : n'.startedAt = n.startedAt
  published : n.published ≤ n'.published
  errors : n.errors <+: n'.errors

theorem Grows.refl (n : LiveTransport.Episode) : Grows n n :=
  ⟨rfl, le_rfl, List.prefix_refl _⟩

theorem Grows.trans {a b c : LiveTransport.Episode} (hab : Grows a b) (hbc : Grows b c) :
    Grows a c :=
  ⟨hbc.startedAt.trans hab.startedAt, hab.published.trans hbc.published,
    hab.errors.trans hbc.errors⟩

section

variable (fits : PyFloat ℚ → Bool) (levels : ℕ) (norm : List (PyFloat ℚ) → PyFloat ℚ)
variable (describe : LiveTransport.Exn → String)

theorem grows_publish (n : LiveTransport.Episode) (result : Json) (tokens : LiveTransport.Tokens)
    (output : LiveTransport.ActionEmbedding) (elapsedMs : ℚ) :
    Grows n (n.publish norm result tokens output elapsedMs).1 := by
  unfold LiveTransport.Episode.publish
  split
  · exact .refl n
  · dsimp only
    split <;> exact ⟨rfl, Nat.le_succ _, List.prefix_refl _⟩

theorem grows_infer (n : LiveTransport.Episode) (msg : Observation) (call : HttpCall)
    (elapsedMs : ℚ) : Grows n (n.infer fits levels norm msg call elapsedMs).1 := by
  unfold LiveTransport.Episode.infer
  split
  · exact .refl n
  · split
    · exact .refl n
    · exact grows_publish norm n _ _ _ _

theorem grows_handle (n : LiveTransport.Episode) (msg : Observation) (call : HttpCall)
    (elapsedMs : ℚ) : Grows n (n.handle fits levels norm describe msg call elapsedMs).1 := by
  unfold LiveTransport.Episode.handle
  have hinfer := grows_infer fits levels norm n msg call elapsedMs
  split
  · exact ⟨rfl, le_rfl, List.prefix_append _ _⟩
  · split
    · exact ⟨rfl, le_rfl, List.prefix_append _ _⟩
    · split
      · rename_i n' heq
        rw [heq] at hinfer
        exact hinfer
      · rename_i n' e heq
        rw [heq] at hinfer
        split
        · exact hinfer.trans ⟨rfl, le_rfl, List.prefix_append _ _⟩
        · exact hinfer

theorem grows_recordVideo (n : LiveTransport.Episode) (video : Video) :
    Grows n (n.recordVideo video).1 := by
  cases video with
  | written => exact ⟨rfl, le_rfl, List.prefix_refl _⟩
  | undecodable => exact ⟨rfl, le_rfl, List.prefix_append _ _⟩
  | raises e => exact .refl n

theorem grows_observation (n : LiveTransport.Episode) (msg : Observation) (video : Video)
    (call : HttpCall) (elapsedMs : ℚ) :
    Grows n (n.observation fits levels norm describe msg video call elapsedMs).1 := by
  unfold LiveTransport.Episode.observation
  dsimp only
  have hreceived : Grows n { n with received := n.received + 1 } :=
    ⟨rfl, le_rfl, List.prefix_refl _⟩
  have hvideo : Grows n (if n.startedAt.isSome then
      ({ n with received := n.received + 1 } : LiveTransport.Episode).recordVideo video
      else ({ n with received := n.received + 1 }, none)).1 := by
    split
    · exact hreceived.trans (grows_recordVideo _ video)
    · exact hreceived
  split
  · rename_i n' e heq
    rw [heq] at hvideo
    exact hvideo
  · rename_i n' heq
    rw [heq] at hvideo
    exact hvideo.trans (grows_handle fits levels norm describe n' msg call elapsedMs)

end

variable {Oracle : Type}

/-! ## Points of a run -/

/-- What spinning leaves of the world. -/
structure Spun (w w' : World) : Prop where
  clock : w.clock ≤ w'.clock
  asked : w'.asked = w.asked
  stopReason : w'.stopReason = w.stopReason
  confirmedStop : w'.confirmedStop = w.confirmedStop
  startedAt : w'.node.startedAt = w.node.startedAt
  lastPose : w.node.lastPose.isSome = true → w'.node.lastPose.isSome = true
  published : w.node.published ≤ w'.node.published
  errors : w.node.errors <+: w'.node.errors

/-- The trace of a node at a time: it starts with the episode, at rest, and its times do not
decrease and are past. -/
structure Timed (n : Node) (clock : ℚ) : Prop where
  before : n.startedAt = none → n.trace = []
  started : ∀ startedAt, n.startedAt = some startedAt → startedAt ≤ clock ∧
    (∃ first, n.trace.head? = some first ∧ first.tSec = 0 ∧ first.cmdV = 0 ∧ first.cmdW = 0) ∧
    (n.trace.map TraceRow.tSec).Pairwise (· ≤ ·) ∧
    ∀ row ∈ n.trace, row.tSec ≤ clock - startedAt

/-- **What holds all along a run.**  The follower moves only while the motor has confirmed that
it is on, and the motor is on only in an episode that has started, with the goal and an embedding
published. -/
structure Supervised (w : World) : Prop where
  released : w.asked.follower = some false → w.asked.powered = true
  powered : w.asked.powered = true → w.asked.motor = some true
  motorOn : w.asked.motor = some true →
    w.asked.goal = true ∧ 0 < w.node.published ∧ w.node.startedAt.isSome = true
  remoteError : w.stopReason = .remoteError → 5 ≤ w.node.errors.length
  timed : Timed w.node w.clock

theorem supervised_new (clock : ℚ) (instruction : String) :
    Supervised (.new clock instruction) where
  released := nofun
  powered := nofun
  motorOn := nofun
  remoteError := nofun
  timed := ⟨fun _ => rfl, nofun⟩

/-- Time passes. -/
theorem Timed.later {n : Node} {clock clock' : ℚ} (h : Timed n clock) (hle : clock ≤ clock') :
    Timed n clock' where
  before := h.before
  started startedAt hstarted := by
    obtain ⟨hclock, hfirst, hsorted, hpast⟩ := h.started startedAt hstarted
    refine ⟨hclock.trans hle, hfirst, hsorted, fun row hrow => ?_⟩
    exact (hpast row hrow).trans (sub_le_sub_right hle startedAt)

/-- The node has the trace and the start of another one. -/
theorem Timed.congr {n n' : Node} {clock : ℚ} (h : Timed n clock)
    (htrace : n'.trace = n.trace) (hstarted : n'.startedAt = n.startedAt) : Timed n' clock where
  before := by
    rw [htrace, hstarted]
    exact h.before
  started := by
    rw [htrace, hstarted]
    exact h.started

/-- A row of now is added. -/
theorem Timed.append {n n' : Node} {clock startedAt : ℚ} (h : Timed n clock)
    (hstarted : n.startedAt = some startedAt) (hstarted' : n'.startedAt = n.startedAt)
    (row : TraceRow) (hrow : row.tSec = clock - startedAt) (htrace : n'.trace = n.trace ++ [row]) :
    Timed n' clock where
  before := by
    rw [hstarted', hstarted]
    nofun
  started := by
    rw [hstarted', htrace]
    intro t ht
    obtain rfl : startedAt = t := Option.some.inj (hstarted.symm.trans ht)
    obtain ⟨hclock, ⟨first, hfirst, hrest⟩, hsorted, hpast⟩ := h.started startedAt hstarted
    refine ⟨hclock, ⟨first, ?_, hrest⟩, ?_, ?_⟩
    · rw [List.head?_append, hfirst]
      rfl
    · rw [List.map_append, List.pairwise_append]
      refine ⟨hsorted, List.pairwise_singleton _ _, ?_⟩
      simpa [hrow] using hpast
    · intro r hr
      rcases List.mem_append.mp hr with hr | hr
      · exact hpast r hr
      · rw [List.mem_singleton.mp hr, hrow]

/-- Spinning keeps what does not depend on the trace. -/
theorem Supervised.of_spun {w w' : World} (h : Supervised w) (hspun : Spun w w')
    (htimed : Timed w'.node w'.clock) : Supervised w' where
  released := by
    rw [hspun.asked]
    exact h.released
  powered := by
    rw [hspun.asked]
    exact h.powered
  motorOn := by
    rw [hspun.asked, hspun.startedAt]
    intro hon
    obtain ⟨hgoal, hpublished, hstarted⟩ := h.motorOn hon
    exact ⟨hgoal, hpublished.trans_le hspun.published, hstarted⟩
  remoteError := by
    rw [hspun.stopReason]
    exact fun hremote => (h.remoteError hremote).trans hspun.errors.length_le
  timed := htimed

/-- What spinning keeps. -/
def Stable (A : World → Prop) : Prop := ∀ w w', Spun w w' → A w → A w'

/-- Spinning asks for nothing. -/
theorem Stable.asked {A : World → Prop} (hA : Stable A) (f : Asked → Prop) :
    Stable fun w => A w ∧ f w.asked := by
  rintro w w' hspun ⟨hw, hasked⟩
  exact ⟨hA w w' hspun hw, hspun.asked ▸ hasked⟩

/-- Before the episode starts. -/
def Idle (w : World) : Prop := w.node.startedAt = none ∧ w.asked.follower ≠ some false

theorem stable_idle : Stable Idle := by
  rintro w w' hspun ⟨hnone, hreleased⟩
  exact ⟨hspun.startedAt.trans hnone, hspun.asked ▸ hreleased⟩

/-- There is a pose. -/
def Posed (w : World) : Prop := Idle w ∧ w.node.lastPose.isSome = true

theorem stable_posed : Stable Posed := by
  rintro w w' hspun ⟨hidle, hpose⟩
  exact ⟨stable_idle w w' hspun hidle, hspun.lastPose hpose⟩

/-- The follower is held, and the goal is published. -/
def Held (w : World) : Prop := Posed w ∧ w.asked.held = true ∧ w.asked.goal = true

theorem stable_held : Stable Held := by
  rintro w w' hspun ⟨hposed, hheld, hgoal⟩
  exact ⟨stable_posed w w' hspun hposed, hspun.asked ▸ hheld, hspun.asked ▸ hgoal⟩

/-- An embedding was published as well. -/
def Ready (w : World) : Prop := Held w ∧ 0 < w.node.published

theorem stable_ready : Stable Ready := by
  rintro w w' hspun ⟨hheld, hpublished⟩
  exact ⟨stable_held w w' hspun hheld, hpublished.trans_le hspun.published⟩

/-- The episode has started. -/
def Begun (w : World) : Prop := ∃ startedAt, w.node.startedAt = some startedAt ∧ startedAt ≤ w.clock

theorem stable_begun : Stable Begun := by
  rintro w w' hspun ⟨startedAt, hstarted, hle⟩
  exact ⟨startedAt, hspun.startedAt.trans hstarted, hle.trans hspun.clock⟩

/-- The episode has started behind the held follower. -/
def Started (w : World) : Prop :=
  Begun w ∧ w.asked.held = true ∧ w.asked.goal = true ∧ 0 < w.node.published

theorem stable_started : Stable Started := by
  rintro w w' hspun ⟨hbegun, hheld, hgoal, hpublished⟩
  exact ⟨stable_begun w w' hspun hbegun, hspun.asked ▸ hheld, hspun.asked ▸ hgoal,
    hpublished.trans_le hspun.published⟩

theorem Begun.isSome {w : World} (h : Begun w) : w.node.startedAt.isSome = true := by
  obtain ⟨startedAt, hstarted, -⟩ := h
  rw [hstarted]
  rfl

/-- In the loop that drives, entered at a time. -/
def Driving (now : ℚ) (w : World) : Prop :=
  (∃ startedAt, w.node.startedAt = some startedAt ∧ startedAt ≤ now) ∧ w.stopReason = .timeout

theorem stable_driving (now : ℚ) : Stable (Driving now) := by
  rintro w w' hspun ⟨⟨startedAt, hstarted, hle⟩, hreason⟩
  exact ⟨⟨startedAt, hspun.startedAt.trans hstarted, hle⟩, hspun.stopReason.trans hreason⟩

/-- Behind that loop. -/
def Driven (duration : ℚ) (w : World) : Prop :=
  ∃ startedAt, w.node.startedAt = some startedAt ∧
    (w.stopReason = .timeout ∧ startedAt + duration ≤ w.clock ∨
      w.stopReason = .goalTolerance ∨ w.stopReason = .remoteError)

theorem stable_driven (duration : ℚ) : Stable (Driven duration) := by
  rintro w w' hspun ⟨startedAt, hstarted, hreason⟩
  refine ⟨startedAt, hspun.startedAt.trans hstarted, ?_⟩
  rw [hspun.stopReason]
  exact hreason.imp_left fun h => ⟨h.1, h.2.trans hspun.clock⟩

/-- At the end of the `try` block. -/
def Rested (duration : ℚ) (w : World) : Prop :=
  ∃ startedAt, w.node.startedAt = some startedAt ∧
    (w.stopReason = .timeout ∧ startedAt + duration ≤ w.clock ∨
      w.stopReason = .goalTolerance ∧ w.confirmedStop = true ∨
      w.stopReason = .unconfirmedStop ∧ w.confirmedStop = false ∨
      w.stopReason = .remoteError)

theorem stable_rested (duration : ℚ) : Stable (Rested duration) := by
  rintro w w' hspun ⟨startedAt, hstarted, hreason⟩
  refine ⟨startedAt, hspun.startedAt.trans hstarted, ?_⟩
  rw [hspun.stopReason, hspun.confirmedStop]
  exact hreason.imp_left fun h => ⟨h.1, h.2.trans hspun.clock⟩

/-- The last error has a head. -/
def LastError (head : String) (w : World) : Prop :=
  ∃ text, w.node.errors.getLast? = some (head ++ text)

/-- The last request to the follower was to stop, and the last one to the motor was to be off. -/
def Off (w : World) : Prop := w.asked.follower = some true ∧ w.asked.motor = some false

/-- The `try` block came to its end, or there is an error. -/
def Told (duration : ℚ) (w : World) : Prop := Rested duration w ∨ w.node.errors ≠ []

theorem stable_told (duration : ℚ) : Stable (Told duration) := by
  rintro w w' hspun (hrested | herrors)
  · exact .inl (stable_rested duration w w' hspun hrested)
  · exact .inr (hspun.errors.ne_nil herrors)

theorem LastError.ne_nil {head : String} {w : World} (h : LastError head w) :
    w.node.errors ≠ [] := by
  obtain ⟨text, htext⟩ := h
  rintro hnil
  rw [hnil] at htext
  cases htext

theorem idle_new (clock : ℚ) (instruction : String) : Idle (.new clock instruction) := ⟨rfl, nofun⟩

section

variable [Trig ℚ]

/-! ## What time and the callbacks leave alone -/

theorem spun_pass (lib : Libraries) (w : World) (d : NNRat) : Spun w (w.next lib (.pass d)) where
  clock := le_add_of_nonneg_right d.2
  asked := rfl
  stopReason := rfl
  confirmedStop := rfl
  startedAt := rfl
  lastPose := id
  published := le_rfl
  errors := List.prefix_refl _

/-- What a callback leaves of the node. -/
theorem call_grows (lib : Libraries) (n : Node) (clock : ℚ) (c : Callback) :
    Grows n.toEpisode (n.call lib clock c).1.toEpisode ∧
      (n.lastPose.isSome = true → (n.call lib clock c).1.lastPose.isSome = true) := by
  cases c with
  | odom pose v w => exact ⟨.refl _, id⟩
  | state pose =>
      unfold Node.call Node.state
      dsimp only
      split
      · exact ⟨.refl _, fun _ => rfl⟩
      · split <;> exact ⟨.refl _, fun _ => rfl⟩
  | command v w => exact ⟨.refl _, id⟩
  | path frameId poses =>
      unfold Node.call Node.path
      dsimp only
      split
      · exact ⟨.refl _, id⟩
      · split <;> exact ⟨.refl _, id⟩
  | observation msg video call elapsed =>
      exact ⟨grows_observation lib.fits lib.levels lib.norm lib.describe _ msg video call _, id⟩

theorem spun_callback (lib : Libraries) (w : World) (c : Callback) :
    Spun w (w.next lib (.callback c)) := by
  obtain ⟨hgrows, hpose⟩ := call_grows lib w.node w.clock c
  exact {
    clock := le_add_of_nonneg_right c.elapsed_nonneg
    asked := rfl
    stopReason := rfl
    confirmedStop := rfl
    startedAt := hgrows.startedAt
    lastPose := hpose
    published := hgrows.published
    errors := hgrows.errors }

/-! ## What a run may do, and when -/

/-- The effect is permitted in a world. -/
def Permits (goalXy : ℚ × ℚ) (tolerance : ℚ) (w : World) : Effect → Prop
  | .goal => w.asked.held = true
  | .start => w.asked.held = true ∧ w.asked.goal = true ∧ 0 < w.node.published ∧
      w.node.startedAt = none ∧ w.node.lastPose.isSome = true
  | .request .motor true => w.asked.held = true ∧ w.asked.goal = true ∧ 0 < w.node.published ∧
      w.node.startedAt.isSome = true
  | .request .followerStop false => w.asked.held = true ∧ w.asked.powered = true
  | .request .motor false => w.asked.follower = some true
  | .reply .motor true _ => w.asked.motor = some true
  | .reply .followerStop true _ => w.asked.follower = some true
  | .reason .goalTolerance => w.near goalXy tolerance = true
  | .reason .remoteError => 5 ≤ w.node.errors.length
  | .reason .unconfirmedStop => w.stopReason = .goalTolerance ∧ w.confirmedStop = false
  | .confirmed still => w.asked.follower = some true ∧ (still = true → w.still = true)
  | _ => True

/-- A callback keeps the trace in order. -/
theorem Timed.call {n : Node} {clock : ℚ} (h : Timed n clock) (lib : Libraries) (c : Callback) :
    Timed (n.call lib clock c).1 clock := by
  cases c with
  | odom pose v w => exact h.congr rfl rfl
  | state pose =>
      unfold Node.call Node.state
      dsimp only
      split
      · exact h.congr rfl rfl
      · rename_i startedAt hstarted
        split
        · exact h.append hstarted rfl _ rfl rfl
        · exact h.congr rfl rfl
  | command v w => exact h.congr rfl rfl
  | path frameId poses =>
      unfold Node.call Node.path
      dsimp only
      split
      · exact h.congr rfl rfl
      · split <;> exact h.congr rfl rfl
  | observation msg video call elapsed =>
      exact h.congr rfl (grows_observation lib.fits lib.levels lib.norm lib.describe _ msg video
        call _).startedAt

variable {lib : Libraries} {goalXy : ℚ × ℚ} {tolerance : ℚ}

/-- **A permitted effect keeps the run supervised.** -/
theorem Supervised.next {w : World} {x : Effect} (h : Supervised w)
    (hx : Permits goalXy tolerance w x) : Supervised (w.next lib x) := by
  cases x with
  | pass d =>
      have hspun := spun_pass lib w d
      exact h.of_spun hspun (h.timed.later hspun.clock)
  | callback c =>
      have hspun := spun_callback lib w c
      exact h.of_spun hspun ((h.timed.call lib c).later hspun.clock)
  | request service value =>
      match service, value with
      | .followerStop, true => exact { h with released := nofun }
      | .followerStop, false => exact { h with released := fun _ => hx.2 }
      | .motor, true => exact { h with motorOn := fun _ => hx.2, powered := fun _ => rfl }
      | .motor, false =>
          -- the guard: without it a follower could be left without power
          refine { h with released := fun hreleased => ?_, powered := nofun, motorOn := nofun }
          exact absurd (hx.symm.trans hreleased) (by decide)
  | reply service value success =>
      match service, value, success with
      | .followerStop, true, true => exact { h with }
      | .motor, true, true => exact { h with released := fun _ => rfl, powered := fun _ => hx }
      | .followerStop, true, false => exact h
      | .motor, true, false => exact h
      | .followerStop, false, _ => exact h
      | .motor, false, _ => exact h
  | goal =>
      refine { h with motorOn := fun hon => ?_ }
      exact ⟨rfl, (h.motorOn hon).2⟩
  | start =>
      obtain ⟨-, -, -, hnone, hpose⟩ := hx
      obtain ⟨pose, hpose⟩ := Option.isSome_iff_exists.mp hpose
      -- nothing is traced before the start, so the first row is the only one
      have htrace : (w.next lib .start).node.trace =
          [⟨0, pose.1, pose.2.1, pose.2.2, 0, 0⟩] := by
        show w.node.trace ++ _ = _
        rw [h.timed.before hnone, hpose]
        rfl
      refine {
        released := h.released
        powered := h.powered
        motorOn := fun hon => ⟨(h.motorOn hon).1, (h.motorOn hon).2.1, rfl⟩
        remoteError := h.remoteError
        timed := ⟨nofun, ?_⟩ }
      rintro _ ⟨⟩
      rw [htrace]
      refine ⟨le_rfl, ⟨_, rfl, rfl, rfl, rfl⟩, List.pairwise_singleton _ _, ?_⟩
      intro row hrow
      rw [List.mem_singleton.mp hrow]
      exact sub_nonneg.mpr le_rfl
  | reason reason =>
      refine { h with remoteError := ?_ }
      rintro rfl
      exact hx
  | confirmed still => exact { h with }
  | finalPose =>
      refine { h with timed := ?_ }
      cases hstarted : w.node.startedAt with
      | none =>
          -- without a start, or without a pose, no row is written
          refine h.timed.congr ?_ rfl
          show w.node.trace ++ _ = _
          rw [hstarted]
          exact List.append_nil _
      | some startedAt =>
          cases hpose : w.node.lastPose with
          | none =>
              refine h.timed.congr ?_ rfl
              show w.node.trace ++ _ = _
              rw [hstarted, hpose]
              exact List.append_nil _
          | some pose =>
              refine h.timed.append hstarted rfl
                (w.node.row (w.clock - startedAt) pose.1 pose.2.1 pose.2.2) rfl ?_
              show w.node.trace ++ _ = _
              rw [hstarted, hpose]
              rfl
  | error text =>
      refine { h with remoteError := fun hremote => ?_, timed := h.timed.congr rfl rfl }
      show 5 ≤ (w.node.errors ++ [text]).length
      rw [List.length_append]
      exact (h.remoteError hremote).trans (Nat.le_add_right _ _)
  | close => exact h

/-! ## The pieces of a run keep to it -/

section

open Procedure

/-- The piece keeps to what is permitted, from `A` to `C`. -/
def Keeps {α : Type} (goalXy : ℚ × ℚ) (tolerance : ℚ) (A : World → Prop) (p : RunM lib α)
    (C : α → World → Prop) : Prop :=
  Meets (Permits goalXy tolerance) A p C

variable {A B : World → Prop}

theorem keeps_raise {α : Type} {C : α → World → Prop} (e : Exn) :
    Keeps goalXy tolerance A (raise lib e) C := Meets.fail

theorem keeps_pass (hA : Stable A) (d : NNRat) :
    Keeps goalXy tolerance A (emit (.pass d) : RunM lib Unit) fun _ => A :=
  Meets.emit fun w hw => ⟨trivial, trivial, hA _ _ (spun_pass lib w d) hw⟩

theorem keeps_monotonic (hA : Stable A) (d : NNRat) :
    Keeps goalXy tolerance A (monotonic lib d) fun now w => A w ∧ now = w.clock :=
  Meets.bind (keeps_pass hA d) fun _ => Meets.look fun _ hw => ⟨hw, rfl⟩

theorem keeps_runCallback (hA : Stable A) (c : Callback) :
    Keeps goalXy tolerance A (runCallback lib c) fun _ => A := by
  refine Meets.bind (Q := fun _ => A) (Meets.look fun _ hw => hw) fun raised => ?_
  refine Meets.bind (Q := fun _ => A) (Meets.emit fun w hw =>
    ⟨trivial, trivial, hA _ _ (spun_callback lib w c) hw⟩) fun _ => ?_
  cases raised with
  | some e => exact keeps_raise _
  | none => exact Meets.pure fun _ hw => hw

theorem keeps_runCallbacks (hA : Stable A) (cs : List (NNRat × Callback)) :
    Keeps goalXy tolerance A (runCallbacks lib cs) fun _ => A := by
  induction cs with
  | nil => exact Meets.pure fun _ hw => hw
  | cons c cs ih =>
      refine Meets.bind (keeps_pass hA c.1) fun _ => ?_
      exact Meets.bind (keeps_runCallback hA c.2) fun _ => ih

theorem keeps_spin (hA : Stable A) (x : Spin) :
    Keeps goalXy tolerance A (spin lib x) fun _ => A := by
  refine Meets.bind (keeps_runCallbacks hA x.callbacks) fun _ => ?_
  refine Meets.bind (keeps_pass hA x.rest) fun _ => ?_
  split
  · exact keeps_raise _
  · exact Meets.pure fun _ hw => hw

theorem keeps_waitForService (hA : Stable A) (d : NNRat) (service : Except Exn Bool) :
    Keeps goalXy tolerance A (waitForService lib d service) fun _ => A := by
  refine Meets.bind (keeps_pass hA d) fun _ => ?_
  cases service with
  | error e => exact keeps_raise _
  | ok available => exact Meets.pure fun _ hw => hw

/-- `set_bool`, from what its request and its reply are permitted in. -/
theorem keeps_setBool {service : Service} {value : Bool} (x : Call) {C : Bool → World → Prop}
    (hA : Stable A) (hB : Stable B)
    (hrequest : ∀ w, A w → Permits goalXy tolerance w (.request service value) ∧
      B (w.next lib (.request service value)))
    (hreply : ∀ w success, B w → Permits goalXy tolerance w (.reply service value success) ∧
      C success (w.next lib (.reply service value success))) :
    Keeps goalXy tolerance A (setBool lib service value x) C := by
  refine Meets.bind (keeps_waitForService hA x.waited x.service) fun available => ?_
  split
  · refine Meets.bind (Q := fun _ => B) (Meets.emit fun w hw => ⟨trivial, hrequest w hw⟩)
      fun _ => ?_
    refine Meets.bind (keeps_spin hB x.spin) fun _ => ?_
    refine Meets.bind (Q := fun _ => C x.success)
      (Meets.emit fun w hw => ⟨trivial, hreply w x.success hw⟩) fun _ => ?_
    exact Meets.pure fun _ hw => hw
  · exact keeps_raise _

/-- The follower is asked to stop. -/
theorem keeps_stop (x : Call) (hA : Stable A) (hasked : ∀ w asked, A w → A { w with asked }) :
    Keeps goalXy tolerance A (setBool lib .followerStop true x) fun _ w =>
      A w ∧ w.asked.follower = some true := by
  refine keeps_setBool x hA (hA.asked fun a => a.follower = some true) ?_ ?_
  · intro w hw
    exact ⟨trivial, hasked w _ hw, rfl⟩
  · rintro w success ⟨hw, hreleased⟩
    refine ⟨hreleased, hasked w _ hw, ?_⟩
    -- the answer says whether the follower is held; it is not let go either way
    cases success with
    | true => exact hreleased
    | false => exact hreleased

/-- `spin_until` returns true only where its condition holds. -/
theorem keeps_spinUntil (hA : Stable A) (condition : World → Bool) (deadline : ℚ)
    (ts : List Turn) :
    Keeps goalXy tolerance A (spinUntil lib condition deadline ts) fun holds w =>
      A w ∧ (holds = true → condition w = true) := by
  induction ts with
  | nil => exact Meets.fail
  | cons t ts ih =>
      have hfalse : Keeps goalXy tolerance A (pure false : RunM lib Bool) fun holds w =>
          A w ∧ (holds = true → condition w = true) := Meets.pure fun _ hw => ⟨hw, nofun⟩
      unfold spinUntil
      split
      · refine Meets.bind (Meets.weaken (keeps_monotonic hA t.before) (fun _ hw => hw)
          fun _ _ hw => hw.1) fun now => ?_
        split
        · refine Meets.bind (keeps_spin hA t.spin) fun _ => ?_
          refine Meets.bind (Meets.weaken (keeps_monotonic hA t.after) (fun _ hw => hw)
            fun _ _ hw => hw.1) fun _ => ?_
          refine Meets.bind (Q := fun holds w => A w ∧ holds = condition w)
            (Meets.look fun _ hw => ⟨hw, rfl⟩) fun holds => ?_
          split
          · rename_i hholds
            exact Meets.pure fun w hw => ⟨hw.1, fun _ => hw.2.symm.trans hholds⟩
          · exact Meets.weaken ih (fun _ hw => hw.1) fun _ _ hw => hw
        · exact hfalse
      · exact hfalse

/-- A call that must return true. -/
theorem keeps_require {result : RunM lib Bool} {C : Bool → World → Prop}
    (h : Keeps goalXy tolerance A result C) (text : String) :
    Keeps goalXy tolerance A (require lib result text) fun _ => C true := by
  refine Meets.bind h fun ok => ?_
  cases ok with
  | true => exact Meets.pure fun _ hw => hw
  | false => exact keeps_raise _

/-- **The start of an episode.** -/
theorem keeps_startUp (args : Args) (x : Script) :
    Keeps goalXy tolerance Idle (startUp lib args x) fun _ => Begun := by
  refine Meets.bind (Meets.weaken (keeps_monotonic stable_idle x.toDeadline) (fun _ hw => hw)
    fun _ _ hw => hw.1) fun now => ?_
  refine Meets.bind (keeps_require (keeps_spinUntil stable_idle _ _ x.startup) _) fun _ => ?_
  refine Meets.bind (Q := fun _ => Posed) (keeps_require (C := fun _ => Posed)
    (Meets.weaken (keeps_waitForService stable_posed x.followerWaited x.followerService)
      (fun _ hw => ⟨hw.1, hw.2 rfl⟩) fun _ _ hw => hw) _) fun _ => ?_
  -- the gate: behind it the follower is held
  refine Meets.bind (keeps_require (C := fun success w => Posed w ∧
    (success = true → w.asked.held = true))
    (keeps_setBool (B := fun w => Posed w ∧ w.asked.follower = some true) x.gate stable_posed
      (stable_posed.asked fun a => a.follower = some true) ?_ ?_) _) fun _ => ?_
  · rintro w ⟨⟨hnone, -⟩, hpose⟩
    exact ⟨trivial, ⟨⟨hnone, fun h => by cases h⟩, hpose⟩, rfl⟩
  · rintro w success ⟨hposed, hstop⟩
    cases success with
    | true => exact ⟨hstop, hposed, fun _ => rfl⟩
    | false => exact ⟨hstop, hposed, nofun⟩
  refine Meets.bind (Q := fun _ => Held) (Meets.emit fun w hw =>
    ⟨trivial, hw.2 rfl, hw.1, hw.2 rfl, rfl⟩) fun _ => ?_
  refine Meets.bind (keeps_require (keeps_spinUntil stable_held _ _ x.goal) _) fun _ => ?_
  refine Meets.bind (Q := fun _ => Ready) (Meets.weaken (keeps_pass stable_ready x.toStart)
    (fun w hw => ⟨hw.1, of_decide_eq_true (hw.2 rfl)⟩) fun _ _ hw => hw) fun _ => ?_
  -- the episode starts, with a pose to start the trace with
  refine Meets.bind (Q := fun _ => Started) (Meets.emit ?_) fun _ => ?_
  · rintro w ⟨⟨⟨⟨hnone, -⟩, hpose⟩, hheld, hgoal⟩, hpublished⟩
    exact ⟨trivial, ⟨hheld, hgoal, hpublished, hnone, hpose⟩, ⟨w.clock, rfl, le_rfl⟩, hheld, hgoal,
      hpublished⟩
  refine Meets.bind (keeps_require (C := fun _ => Started) (Meets.look fun _ hw => hw) _)
    fun _ => ?_
  -- the motor is asked to be on before it is known to be
  refine Meets.bind (keeps_require (C := fun success w => Started w ∧
    (success = true → w.asked.powered = true))
    (keeps_setBool (B := fun w => Started w ∧ w.asked.motor = some true) x.power stable_started
      (stable_started.asked fun a => a.motor = some true) ?_ ?_) _) fun _ => ?_
  · rintro w hw
    exact ⟨⟨hw.2.1, hw.2.2.1, hw.2.2.2, hw.1.isSome⟩, hw, rfl⟩
  · rintro w success ⟨hstarted, hon⟩
    cases success with
    | true => exact ⟨hon, hstarted, fun _ => rfl⟩
    | false => exact ⟨hon, hstarted, nofun⟩
  refine keeps_require (C := fun _ => Begun) (keeps_setBool
    (A := fun w => Started w ∧ w.asked.powered = true) (B := Begun) x.release
      (stable_started.asked fun a => a.powered = true) stable_begun ?_ ?_) _ |>.weaken
      (fun w hw => ⟨hw.1, hw.2 rfl⟩) fun _ _ hw => hw
  · rintro w ⟨hstarted, hpowered⟩
    exact ⟨⟨hstarted.2.1, hpowered⟩, hstarted.1⟩
  · rintro w success hw
    exact ⟨trivial, hw⟩

theorem keeps_driveLoop (now duration : ℚ) (ts : List Turn) :
    Keeps goalXy tolerance (Driving now) (driveLoop lib goalXy tolerance (now + duration) ts)
      fun _ => Driven duration := by
  induction ts with
  | nil => exact Meets.fail
  | cons t ts ih =>
      refine Meets.bind (keeps_monotonic (stable_driving now) t.before) fun read => ?_
      refine Meets.ite (fun _ => ?_) fun hlate => ?_
      · refine Meets.bind (Meets.weaken (keeps_spin (stable_driving now) t.spin)
          (fun _ hw => hw.1) fun _ _ hw => hw) fun _ => ?_
        refine Meets.bind (Q := fun seen w => Driving now w ∧ w = seen)
          (Meets.look fun _ hw => ⟨hw, rfl⟩) fun seen => ?_
        refine Meets.ite (fun _ => Meets.weaken ih (fun _ hw => hw.1) fun _ _ hw => hw) fun _ => ?_
        refine Meets.ite (fun hnear => Meets.emit ?_) fun _ => ?_
        · rintro w ⟨⟨⟨startedAt, hstarted, -⟩, -⟩, rfl⟩
          exact ⟨trivial, hnear, startedAt, hstarted, .inr (.inl rfl)⟩
        · refine Meets.ite (fun hmany => Meets.emit ?_) fun _ =>
            Meets.weaken ih (fun _ hw => hw.1) fun _ _ hw => hw
          rintro w ⟨⟨⟨startedAt, hstarted, -⟩, -⟩, rfl⟩
          exact ⟨trivial, hmany, startedAt, hstarted, .inr (.inr rfl)⟩
      -- the clock was read past the deadline, which is later than the start by `duration`
      · refine Meets.pure ?_
        rintro w ⟨⟨⟨startedAt, hstarted, hle⟩, hreason⟩, rfl⟩
        refine ⟨startedAt, hstarted, .inl ⟨hreason, ?_⟩⟩
        exact (add_le_add_left hle duration).trans (not_lt.mp hlate)

theorem keeps_checkStop (duration : ℚ) (still : Bool) :
    Keeps goalXy tolerance (fun w => Driven duration w ∧ w.confirmedStop = still)
      (checkStop lib still) fun _ => Rested duration := by
  refine Meets.bind (Q := fun reason w => (Driven duration w ∧ w.confirmedStop = still) ∧
    w.stopReason = reason) (Meets.look fun _ hw => ⟨hw, rfl⟩) fun reason => ?_
  refine Meets.ite (fun hcheck => Meets.emit ?_) fun hcheck => Meets.pure ?_
  · rintro w ⟨⟨⟨startedAt, hstarted, -⟩, hconfirmed⟩, hreason⟩
    obtain ⟨hgoal, hmoves⟩ := (Bool.and_eq_true _ _).mp hcheck
    have hfalse : w.confirmedStop = false := by
      rw [hconfirmed]
      simpa using hmoves
    exact ⟨trivial, ⟨hreason.trans (of_decide_eq_true hgoal), hfalse⟩, startedAt, hstarted,
      .inr (.inr (.inl ⟨rfl, hfalse⟩))⟩
  · rintro w ⟨⟨⟨startedAt, hstarted, hw⟩, hconfirmed⟩, hreason⟩
    refine ⟨startedAt, hstarted, ?_⟩
    rcases hw with htimeout | hgoal | hremote
    · exact .inl htimeout
    · refine .inr (.inl ⟨hgoal, ?_⟩)
      rw [hconfirmed]
      rw [← hreason, hgoal] at hcheck
      simpa using hcheck
    · exact .inr (.inr (.inr hremote))

/-- **The end of the drive.** -/
theorem keeps_comeToRest (duration : ℚ) (x : Script) :
    Keeps goalXy tolerance (Driven duration) (comeToRest lib x) fun _ => Rested duration := by
  have hstable : Stable fun w => Driven duration w ∧ w.asked.follower = some true :=
    (stable_driven duration).asked fun a => a.follower = some true
  refine Meets.bind (keeps_stop x.stop (stable_driven duration) fun _ _ hw => hw) fun _ => ?_
  refine Meets.bind (Meets.weaken (keeps_monotonic hstable x.toSettle) (fun _ hw => hw)
    fun _ _ hw => hw.1) fun now => ?_
  refine Meets.bind (keeps_spinUntil hstable _ _ x.settle) fun still => ?_
  refine Meets.bind (Q := fun _ w => Driven duration w ∧ w.confirmedStop = still)
    (Meets.emit fun w hw => ⟨trivial, ⟨hw.1.2, hw.2⟩, hw.1.1, rfl⟩) fun _ => ?_
  refine Meets.bind (keeps_checkStop duration still) fun _ => ?_
  refine Meets.bind (keeps_pass (stable_rested duration) x.toFinal) fun _ => ?_
  exact Meets.emit fun w hw => ⟨trivial, trivial, hw⟩

/-- **The `try` block.** -/
theorem keeps_body (args : Args) (goalXy : ℚ × ℚ) (x : Script) :
    Keeps goalXy args.tolerance Idle (body lib args goalXy x) fun _ => Rested args.duration := by
  refine Meets.bind (keeps_startUp args x) fun _ => ?_
  have hstable : Stable fun w => Begun w ∧ w.stopReason = .timeout := by
    rintro w w' hspun ⟨hbegun, hreason⟩
    exact ⟨stable_begun w w' hspun hbegun, hspun.stopReason.trans hreason⟩
  refine Meets.bind (Q := fun _ w => Begun w ∧ w.stopReason = .timeout)
    (Meets.emit fun w hw => ⟨trivial, trivial, hw, rfl⟩) fun _ => ?_
  refine Meets.bind (keeps_monotonic hstable x.toDrive) fun now => ?_
  refine Meets.bind (Meets.weaken (keeps_driveLoop now args.duration x.drive) ?_
    fun _ _ hw => hw) fun _ => keeps_comeToRest args.duration x
  rintro w ⟨⟨hbegun, hreason⟩, rfl⟩
  exact ⟨hbegun, hreason⟩

/-! ## Whatever is raised -/

/-- A caught exception is the last error. -/
theorem keeps_catching {C : World → Prop} (head : String) {p : RunM lib Unit}
    (h : Keeps goalXy tolerance A p fun _ => C) :
    Keeps goalXy tolerance A (catching lib head p) fun leaving w =>
      leaving = none → C w ∨ LastError head w := by
  refine Meets.bind (Meets.attempt (I := fun _ => True) h (fun _ _ _ _ _ => trivial)
    fun _ _ => trivial) fun ended => ?_
  match ended with
  | .ok a => exact Meets.pure fun w hw _ => .inl (hw.2 a rfl)
  | .error .waiting => exact Meets.fail
  | .error (.raised e) =>
      refine Meets.ite (fun _ => ?_) fun _ => Meets.pure fun w _ => nofun
      refine Meets.bind (Q := fun _ => LastError head) (Meets.emit fun w _ => ?_) fun _ =>
        Meets.pure fun w hw _ => .inr hw
      exact ⟨trivial, trivial, e.text lib, List.getLast?_concat⟩

/-- **The two calls of the `finally` block.** -/
theorem keeps_switchOff (duration : ℚ) (leaving : Option Exn) (x : Script) :
    Keeps goalXy tolerance (fun w => leaving = none → Told duration w) (switchOff lib x)
      fun _ w => (leaving = none → Told duration w) ∧ Off w := by
  have htold : Stable fun w => leaving = none → Told duration w :=
    fun w w' hspun hw hleaving => stable_told duration w w' hspun (hw hleaving)
  refine Meets.bind (keeps_stop x.stopAgain htold fun _ _ hw => hw) fun _ => ?_
  refine Meets.bind (keeps_setBool (C := fun _ w => (leaving = none → Told duration w) ∧ Off w)
    x.powerOff (htold.asked fun a => a.follower = some true)
    (htold.asked fun a => a.follower = some true ∧ a.motor = some false) ?_ ?_) fun _ =>
      Meets.pure fun _ hw => hw
  · rintro w ⟨hw, hreleased⟩
    exact ⟨hreleased, hw, hreleased, rfl⟩
  · rintro w success hw
    exact ⟨trivial, hw⟩

/-- **The `finally` block.** -/
theorem keeps_shutdown (duration : ℚ) (leaving : Option Exn) (x : Script) :
    Keeps goalXy tolerance (fun w => leaving = none → Told duration w) (shutdown lib x)
      fun _ w => leaving = none → Told duration w ∧ (Off w ∨ LastError "shutdown: " w) := by
  refine Meets.bind (keeps_catching "shutdown: " (keeps_switchOff duration leaving x))
    fun ended => ?_
  cases ended with
  | some e => exact keeps_raise e
  | none =>
      refine Meets.emit fun w hw => ⟨trivial, trivial, fun hleaving => ?_⟩
      rcases hw rfl with ⟨htold, hoff⟩ | hlast
      · exact ⟨htold hleaving, .inl hoff⟩
      · exact ⟨.inr hlast.ne_nil, .inr hlast⟩

variable (lib) in
/-- **The run of an episode.** -/
theorem keeps_execute (args : Args) (found : Prepared Oracle) (x : Script) :
    Keeps found.spec.goalXy args.tolerance Idle (execute lib args found x) fun report w =>
      report = assembleResult args found w ∧ Told args.duration w ∧
        (Off w ∨ LastError "shutdown: " w) := by
  refine Meets.bind (keeps_catching "" (keeps_body args found.spec.goalXy x)) fun leaving => ?_
  refine Meets.bind (Meets.weaken (keeps_shutdown args.duration leaving x) ?_
    fun _ _ hw => hw) fun _ => ?_
  · rintro w hw hleaving
    exact (hw hleaving).imp_right LastError.ne_nil
  cases leaving with
  | some e => exact keeps_raise e
  | none =>
      refine Meets.bind (Q := fun _ w => Told args.duration w ∧
        (Off w ∨ LastError "shutdown: " w)) ?_ fun _ => Meets.look fun w hw => ⟨rfl, hw⟩
      refine Meets.bind (Q := fun _ w => Told args.duration w ∧
        (Off w ∨ LastError "shutdown: " w)) (Meets.emit ?_) fun _ => Meets.look fun _ hw => hw
      rintro w hw
      obtain ⟨htold, hoff⟩ := hw rfl
      exact ⟨trivial, trivial, stable_told _ _ _ (spun_pass lib w x.toEnd) htold, hoff⟩

/-! ## The results -/

/-- What a run has made sure of before it has any effect: the world is the one that the shortest
paths are for, and the server has been reset. -/
structure Prepared.Sound (found : Prepared Oracle) (args : Args) (manifest : Manifest Oracle)
    (files : Files) : Prop where
  mem : found.spec ∈ manifest.episodes
  id : found.spec.id = args.episode
  world : files.world = .ok found.worldHash
  unchanged : manifest.worldSha256.get? found.spec.scene = some found.worldHash
  reset : files.reset = .ok true

omit [Trig ℚ] in
theorem prepare_sound {args : Args} {manifest : Manifest Oracle} {files : Files}
    {found : Prepared Oracle} (h : prepare args manifest files = .ok found) :
    found.Sound args manifest files := by
  unfold prepare at h
  split at h
  · cases h
  · rename_i spec hspec
    obtain ⟨worldHash, hworld, h⟩ := Except.of_bind_ok h
    split at h
    · cases h
    · rename_i expected hexpected
      split at h
      · cases h
      · rename_i hsame
        obtain ⟨usdHash, -, h⟩ := Except.of_bind_ok h
        obtain ⟨reset, hreset, h⟩ := Except.of_bind_ok h
        split at h
        · rename_i htrue
          obtain ⟨-, -, h⟩ := Except.of_bind_ok h
          cases h
          exact {
            mem := List.mem_of_find?_eq_some hspec
            id := by simpa using List.find?_some hspec
            world := hworld
            unchanged := hexpected.trans (congrArg some (not_not.mp hsame).symm)
            reset := hreset.trans (congrArg Except.ok htrue) }
        · cases h

variable {args : Args} {manifest : Manifest Oracle} {files : Files}

theorem run_of_prepare (x : Script) {found : Prepared Oracle}
    (h : prepare args manifest files = .ok found) :
    run lib args manifest files x =
      execute lib args found x (.new files.readyAt found.instruction) := by
  rw [run, h]

theorem run_of_error (x : Script) {e : Exn} (h : prepare args manifest files = .error e) :
    run lib args manifest files x = ([], .error (.raised e)) := by
  rw [run, h]

/-- **A supervised run.**  Whatever the callbacks, the services and the clock do, and wherever an
exception is raised: a run that has any effect was prepared, each of its effects is one that is
permitted where it happens, and the run is supervised after it. -/
theorem supervised_run (x : Script) {before after : List Effect} {effect : Effect}
    (h : (run lib args manifest files x).1 = before ++ effect :: after) :
    ∃ found : Prepared Oracle, found.Sound args manifest files ∧
      Permits found.spec.goalXy args.tolerance
        ((bench lib).exec (.new files.readyAt found.instruction) before) effect ∧
      Supervised ((bench lib).exec (.new files.readyAt found.instruction)
        (before ++ [effect])) := by
  cases hprepare : prepare args manifest files with
  | error e =>
      rw [run_of_error x hprepare] at h
      exact absurd h (by simp)
  | ok found =>
      rw [run_of_prepare x hprepare] at h
      have hkeeps := keeps_execute lib args found x
      have hpermits := Meets.at_effect hkeeps (idle_new _ _) h
      have hbefore := Meets.at_prefix hkeeps (fun w x hw _ hx => Supervised.next hw hx)
        (idle_new _ _) (supervised_new _ _) h
      refine ⟨found, prepare_sound hprepare, hpermits, ?_⟩
      rw [Machine.exec_append]
      exact hbefore.next hpermits

/-- A report whose fields agree with one another, for a time to drive. -/
structure Report.Sound (r : Report Oracle) (duration : ℚ) : Prop where
  /-- Without a start there is no trace. -/
  unstarted : r.wallStartedAt = none → r.trace = []
  /-- The trace starts with the episode, at rest; its times are in order and within the wall
  times. -/
  started : ∀ startedAt, r.wallStartedAt = some startedAt → startedAt ≤ r.wallEndedAt ∧
    (∃ first, r.trace.head? = some first ∧ first.tSec = 0 ∧ first.cmdV = 0 ∧ first.cmdW = 0) ∧
    (r.trace.map TraceRow.tSec).Pairwise (· ≤ ·) ∧
    ∀ row ∈ r.trace, row.tSec ≤ r.wallEndedAt - startedAt
  /-- Five errors end a drive. -/
  remoteError : r.stopReason = .remoteError → 5 ≤ r.errors.length
  /-- Without errors the episode was driven to its time-out, or to its goal, where the robot is
  known to stand exactly if that is the reason. -/
  clean : r.errors = [] → ∃ startedAt, r.wallStartedAt = some startedAt ∧
    (r.stopReason = .timeout ∧ startedAt + duration ≤ r.wallEndedAt ∨
      r.stopReason = .goalTolerance ∧ r.confirmedStop = true ∨
      r.stopReason = .unconfirmedStop ∧ r.confirmedStop = false)

theorem prepared_of_ok (x : Script) {report : Report Oracle}
    (h : (run lib args manifest files x).2 = .ok report) :
    ∃ found, prepare args manifest files = .ok found := by
  cases hprepare : prepare args manifest files with
  | error e =>
      rw [run_of_error x hprepare] at h
      cases h
  | ok found => exact ⟨found, rfl⟩

/-- The report of an episode that was prepared. -/
theorem report_execute {found : Prepared Oracle} {readyAt : ℚ} (x : Script)
    {report : Report Oracle}
    (h : (execute lib args found x (.new readyAt found.instruction)).2 = .ok report) :
    report.spec = found.spec ∧ report.Sound args.duration ∧
      (Off ((bench lib).exec (.new readyAt found.instruction)
          (execute lib args found x (.new readyAt found.instruction)).1) ∨
        ∃ text, report.errors.getLast? = some ("shutdown: " ++ text)) := by
  have hkeeps := keeps_execute lib args found x
  have hidle := idle_new readyAt found.instruction
  have hsupervised := Meets.at_end hkeeps (I := Supervised)
    (fun w x hw _ hx => hw.next hx) hidle (supervised_new readyAt found.instruction)
  obtain ⟨-, hvalue⟩ := hkeeps _ hidle
  obtain ⟨rfl, htold, hoff⟩ := hvalue report h
  refine ⟨rfl, ?_, hoff⟩
  exact {
    -- the trace and the errors are those of the world at the end of the run
    unstarted := hsupervised.timed.before
    started := hsupervised.timed.started
    remoteError := hsupervised.remoteError
    clean := by
      intro hclean
      obtain ⟨startedAt, hstarted, hreason⟩ := htold.resolve_right (not_not_intro hclean)
      refine ⟨startedAt, hstarted, ?_⟩
      rcases hreason with htimeout | hgoal | hunconfirmed | hremote
      · exact .inl htimeout
      · exact .inr (.inl hgoal)
      · exact .inr (.inr hunconfirmed)
      · have hfive := hsupervised.remoteError hremote
        have hnone := congrArg List.length hclean
        exact absurd (hfive.trans_eq hnone) (by decide) }

/-- **What a report is worth.**  The run was prepared and the fields of the report agree with one
another; and the last requests of the run were for the follower to stop and for the motor to be
off, unless the last error says that the shutdown failed. -/
theorem report_run (x : Script) {report : Report Oracle}
    (h : (run lib args manifest files x).2 = .ok report) :
    ∃ found : Prepared Oracle, found.Sound args manifest files ∧ report.spec = found.spec ∧
      report.Sound args.duration ∧
      (Off ((bench lib).exec (.new files.readyAt found.instruction)
          (run lib args manifest files x).1) ∨
        ∃ text, report.errors.getLast? = some ("shutdown: " ++ text)) := by
  obtain ⟨found, hprepare⟩ := prepared_of_ok x h
  rw [run_of_prepare x hprepare] at h ⊢
  obtain ⟨hspec, hsound, hoff⟩ := report_execute x h
  exact ⟨found, prepare_sound hprepare, hspec, hsound, hoff⟩

end

end

/-! ## A run to the goal -/

/-- Distances along the axes. -/
local instance gridTrig : Trig ℚ where
  pi := 3
  sin x := x
  cos _ := 1
  atan x := x
  atan2 y _ := y
  hypot x y := |x| + |y|

/-- A call that succeeds at once. -/
def prompt : Call := ⟨0, .ok true, ⟨[], 0, none⟩, true⟩

/-- A round of so many milliseconds, with some callbacks. -/
def roundOf (ms : ℕ) (callbacks : List Callback) : Turn :=
  ⟨true, 0, ⟨callbacks.map fun c => (0, c), ms / 1000, none⟩, 0⟩

/-- A metre ahead of the origin, or at it. -/
def poseAt (x : ℚ) : RosPose := ⟨x, 0, 1, 0, 0, 0⟩

/-- The robot drives to a goal a metre ahead, and stands still there. -/
def aMetreAhead : Script where
  toDeadline := 0
  startup := [roundOf 100 [.state (poseAt 0)]]
  followerWaited := 0
  followerService := .ok true
  gate := prompt
  goal := [roundOf 100 [.observation LiveTransport.frame9 .written
    (.body (LiveTransport.replyText ", \"server_wall_ms\": 3.0")) 0]]
  toStart := 0
  power := prompt
  release := prompt
  toDrive := 0
  drive := [roundOf 100 [.path "base_link" [poseAt 1], .command (1 / 10) 0,
      .state (poseAt (1 / 2))],
    roundOf 100 [.state (poseAt 1)]]
  stop := prompt
  toSettle := 0
  settle := [roundOf 100 [.command 0 0]]
  toFinal := 0
  stopAgain := prompt
  powerOff := prompt
  toEnd := 0

/-- A manifest of one episode, with its goal a metre ahead. -/
def metreManifest : Manifest Unit where
  episodes := [⟨"one", "room", "Go forward.", (1, 0), .fin 1⟩]
  worldSha256 := PyDict.empty.set "room" "hash"
  oracle := ()

/-- The files are there, and the server has been reset. -/
def metreFiles : Files := ⟨.ok "hash", .ok "usd", .ok true, .ok (), 0⟩

/-- The arguments for that episode. -/
def metreArgs : Args := ⟨"model", "remote", "one", "", "room", "video.mp4", 30, 25, 3 / 10⟩

/-- Libraries that take everything. -/
def anyLibraries : Libraries := ⟨fun _ => true, 900, fun _ => .fin 0, fun _ => ""⟩

/-- That run. -/
def metreRun : List Effect × Except Stop (Report Unit) :=
  run anyLibraries metreArgs metreManifest metreFiles aMetreAhead

/-- The follower is let go. -/
def Effect.releases : Effect → Bool
  | .request service value => service = .followerStop ∧ value = false
  | _ => false

theorem Effect.eq_of_releases {effect : Effect} (h : effect.releases = true) :
    effect = .request .followerStop false := by
  cases effect with
  | request service value =>
      obtain ⟨rfl, rfl⟩ := of_decide_eq_true h
      rfl
  | _ => cases h

/-- A run to a goal a metre ahead lets the follower go, and is supervised then. -/
theorem supervised_run_aMetreAhead : ∃ (instruction : String) (before after : List Effect),
    metreRun.1 = before ++ .request .followerStop false :: after ∧
      Supervised ((bench anyLibraries).exec (.new 0 instruction)
        (before ++ [.request .followerStop false])) := by
  have hreleases : metreRun.1.any Effect.releases = true := by decide +kernel
  obtain ⟨effect, hmem, heffect⟩ := List.any_eq_true.mp hreleases
  obtain rfl := Effect.eq_of_releases heffect
  obtain ⟨before, after, hrun⟩ := List.append_of_mem hmem
  obtain ⟨found, -, -, hsupervised⟩ := supervised_run aMetreAhead hrun
  exact ⟨found.instruction, before, after, hrun, hsupervised⟩

/-- Its report says that the robot stands at the goal. -/
theorem report_run_aMetreAhead : ∃ report, metreRun.2 = .ok report ∧
    report.stopReason = .goalTolerance ∧ report.confirmedStop = true := by
  have hclean : (match metreRun.2 with
      | .ok r => decide (r.errors = [] ∧ r.stopReason = .goalTolerance)
      | .error _ => false) = true := by
    decide +kernel
  cases hrun : metreRun.2 with
  | error e =>
      rw [hrun] at hclean
      cases hclean
  | ok report =>
      rw [hrun] at hclean
      obtain ⟨herrors, hreason⟩ := of_decide_eq_true hclean
      obtain ⟨found, -, -, hsound, -⟩ := report_run aMetreAhead hrun
      refine ⟨report, rfl, hreason, ?_⟩
      obtain ⟨startedAt, -, ⟨hother, -⟩ | ⟨-, hconfirmed⟩ | ⟨hother, -⟩⟩ := hsound.clean herrors
      · cases hreason.symm.trans hother
      · exact hconfirmed
      · cases hreason.symm.trans hother

end LiveRun
