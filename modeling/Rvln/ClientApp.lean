/-
# The browser and the phone app

`VlaApp.tsx` and `home_page.dart`: the inference tick, the goal, the run/pause
toggle and the connection to the Pi, around the current `CoalescingSender`.

A tick awaits `inferChunk`, and a connection request awaits the `close` of the
old sender; everything else happens between.  `_generation` counts the goal
changes, the pauses and the requests, and a tick whose count is old drops its
chunk; `_connectionGeneration` counts the requests, and one that has been
superseded replaces nothing.

Each sender is the one of `CoalescingSender`, drains and all.  The history has
what the app did, newest first, and `Proper` says what a submission owes to the
older acts.
-/
import Mathlib.Data.List.Nodup
import Mathlib.Logic.Function.Basic
import Rvln.CoalescingSender

namespace ClientApp

variable {Prompt Chunk : Type*}

/-! ## The state -/

/-- The two apps. -/
inductive App
  | browser
  | phone
  deriving DecidableEq

/-- A goal; `prompt` is what the engine makes of it. -/
structure ClientGoal (Prompt : Type*) where
  id : String
  prompt : Prompt
  deriving DecidableEq

/-- What is sent along with a chunk. -/
structure SendMeta where
  frameId : ℕ
  goalId : String
  deriving DecidableEq

/-- A chunk, with the tick it was inferred in. -/
structure Inferred (Prompt Chunk : Type*) where
  tick : ℕ
  goal : ClientGoal Prompt
  chunk : Chunk
  deriving DecidableEq

/-- A sender of the app. -/
abbrev Sender (Prompt Chunk : Type*) : Type _ :=
  CoalescingSender.World (Inferred Prompt Chunk) SendMeta

/-- A tick that awaits `inferChunk`, with what it captured. -/
structure Tick (Prompt : Type*) where
  id : ℕ
  goal : ClientGoal Prompt
  generation : ℕ
  deriving DecidableEq

/-- A request that awaits the `close` of the old sender. -/
structure Request where
  connection : ℕ
  old : ℕ
  toPi : Bool
  deriving DecidableEq

/-- What the app does. -/
inductive Act (Prompt : Type*)
  | tickStarted (tick : ℕ) (goal : ClientGoal Prompt)
  | submitted (tick : ℕ) (goal : ClientGoal Prompt)
  | goalSet (goal : ClientGoal Prompt)
  | paused
  | requested
  deriving DecidableEq

/-- The attributes of the app, its senders by number, the callbacks that are
suspended, the clock, and the history. -/
structure World (Prompt Chunk : Type*) where
  goal : Option (ClientGoal Prompt)
  running : Bool
  busy : Bool
  mounted : Bool
  frameId : ℕ
  generation : ℕ
  connection : ℕ
  senders : ℕ → Sender Prompt Chunk
  nextSender : ℕ
  current : ℕ
  ticks : List (Tick Prompt)
  nextTick : ℕ
  requests : List Request
  now : ℤ
  trace : List (Act Prompt)

namespace World

/-- The app when its page comes up. -/
def new (now : ℤ) : World Prompt Chunk where
  goal := none
  running := true
  busy := false
  mounted := true
  frameId := 0
  generation := 0
  connection := 0
  senders _ := .new ⟨0, ""⟩ now
  nextSender := 1
  current := 0
  ticks := []
  nextTick := 0
  requests := []
  now := now
  trace := []

/-! ## The code -/

/-- Add an act to the history. -/
def record (w : World Prompt Chunk) (act : Act Prompt) : World Prompt Chunk :=
  { w with trace := act :: w.trace }

/-- A sender takes a step. -/
def call (minInterval : ℤ) (w : World Prompt Chunk) (id : ℕ)
    (input : CoalescingSender.Input (Inferred Prompt Chunk) SendMeta)
    (t : CoalescingSender.Clock) : World Prompt Chunk :=
  { w with
    senders := Function.update w.senders id
      ((CoalescingSender.machine minInterval).next (w.senders id) ⟨input, t⟩) }

/-- `tick`, up to its `await`; `frameReady` says that engine and video are there. -/
def tick (w : World Prompt Chunk) (frameReady : Bool) : World Prompt Chunk :=
  match w.goal with
  | none => w
  | some goal =>
      if w.busy ∨ w.running = false ∨ frameReady = false then w
      else
        World.record
          { w with
            busy := true
            ticks := ⟨w.nextTick, goal, w.generation⟩ :: w.ticks
            nextTick := w.nextTick + 1 }
          (.tickStarted w.nextTick goal)

/-- The tests of `tick` after its `await`; the phone makes three. -/
def superseded (app : App) (w : World Prompt Chunk) (t : Tick Prompt) : Bool :=
  match app with
  | .browser => t.generation ≠ w.generation
  | .phone => !w.mounted || t.generation ≠ w.generation || !w.running

/-- `tick`, after its `await`. -/
def inferred [DecidableEq Prompt] (app : App) (minInterval : ℤ) (w : World Prompt Chunk)
    (t : Tick Prompt) (result : Except String Chunk) (clock : CoalescingSender.Clock) :
    World Prompt Chunk :=
  let w := { w with busy := false, ticks := w.ticks.erase t }
  match result with
  | .error _ => w
  | .ok chunk =>
      if w.superseded app t then w
      else
        let w := { w with frameId := w.frameId + 1 }
        (w.record (.submitted t.id t.goal)).call minInterval w.current
          (.submit (⟨t.id, t.goal, chunk⟩, ⟨w.frameId, t.goal.id⟩)) clock

/-- `handleGoal`, `_setGoal`. -/
def setGoal (minInterval : ℤ) (w : World Prompt Chunk) (goal : ClientGoal Prompt)
    (clock : CoalescingSender.Clock) : World Prompt Chunk :=
  let w := { w with generation := w.generation + 1 }
  let w := w.call minInterval w.current .clearPending clock
  World.record { w with goal := some goal } (.goalSet goal)

/-- What a pause does to the generation and the sender. -/
def pause (minInterval : ℤ) (w : World Prompt Chunk) (clock : CoalescingSender.Clock) :
    World Prompt Chunk :=
  let w := { w with generation := w.generation + 1 }
  (w.call minInterval w.current .clearPending clock).record .paused

/-- `handleToggleRunning`, and the phone's button. -/
def toggleRunning (minInterval : ℤ) (w : World Prompt Chunk) (clock : CoalescingSender.Clock) :
    World Prompt Chunk :=
  let next := !w.running
  let w := if next then w else w.pause minInterval clock
  { w with running := next }

/-- `handleWsConnect` and `handleWsDisconnect`, `_connectPi` and `_disconnectPi`, up
to the `await` of the old sender's `close`. -/
def request (minInterval : ℤ) (w : World Prompt Chunk) (toPi : Bool)
    (clock : CoalescingSender.Clock) : World Prompt Chunk :=
  let w := { w with generation := w.generation + 1, connection := w.connection + 1 }
  let w := { w with requests := ⟨w.connection, w.current, toPi⟩ :: w.requests }
  (w.call minInterval w.current .close clock).record .requested

/-- The same, after the `await`: unless superseded, a new sender.  What follows
`connect` of a new client touches no sender. -/
def oldClosed (app : App) (w : World Prompt Chunk) (r : Request)
    (clock : CoalescingSender.Clock) : World Prompt Chunk :=
  let w := { w with requests := w.requests.erase r }
  if (app = .phone ∧ w.mounted = false) ∨ r.connection ≠ w.connection then w
  else
    { w with
      senders := Function.update w.senders w.nextSender (.new ⟨0, ""⟩ clock.second)
      current := w.nextSender
      nextSender := w.nextSender + 1 }

/-- The cleanup of the page, `dispose`. -/
def dispose (minInterval : ℤ) (w : World Prompt Chunk) (clock : CoalescingSender.Clock) :
    World Prompt Chunk :=
  let w := { w with
    mounted := false
    generation := w.generation + 1
    connection := w.connection + 1 }
  w.call minInterval w.current .close clock

end World

/-! ## Runs -/

/-- What the user does, and what the event loop does next. -/
inductive Input (Prompt Chunk : Type*)
  | tick (frameReady : Bool)
  | inferred (t : Tick Prompt) (result : Except String Chunk)
  | setGoal (goal : ClientGoal Prompt)
  | toggleRunning
  /-- `didChangeAppLifecycleState` of the phone. -/
  | appPaused
  | request (toPi : Bool)
  | oldClosed (r : Request)
  | dispose
  | sender (id : ℕ) (input : CoalescingSender.Input (Inferred Prompt Chunk) SendMeta)

/-- An input with the readings of the clock. -/
structure Event (Prompt Chunk : Type*) where
  input : Input Prompt Chunk
  clock : CoalescingSender.Clock

section

variable [DecidableEq Prompt] (app : App) (minInterval : ℤ)

/-- The step of an event. -/
def step (w : World Prompt Chunk) (e : Event Prompt Chunk) : World Prompt Chunk :=
  match e.input with
  | .tick frameReady => w.tick frameReady
  | .inferred t result => w.inferred app minInterval t result e.clock
  | .setGoal goal => w.setGoal minInterval goal e.clock
  | .toggleRunning => w.toggleRunning minInterval e.clock
  | .appPaused => w.pause minInterval e.clock
  | .request toPi => w.request minInterval toPi e.clock
  | .oldClosed r => w.oldClosed app r e.clock
  | .dispose => w.dispose minInterval e.clock
  | .sender id input => w.call minInterval id input e.clock

/-- The page takes input while it is mounted; a suspended callback goes on when what
it awaits is there. -/
def enabled (w : World Prompt Chunk) (clock : CoalescingSender.Clock) : Input Prompt Chunk → Prop
  | .inferred t _ => t ∈ w.ticks
  | .oldClosed r => r ∈ w.requests ∧ .clientClosed ∈ (w.senders r.old).trace
  | .sender id input =>
      id < w.nextSender ∧ input.Internal ∧ CoalescingSender.enabled (w.senders id) clock input
  | .appPaused => app = .phone ∧ w.mounted = true
  | _ => w.mounted = true

/-- The app under any interleaving of its callbacks. -/
def machine : Machine (World Prompt Chunk) (Event Prompt Chunk) where
  Init w := ∃ now, w = World.new now
  Guard w e := w.now ≤ e.clock.first ∧ e.clock.first ≤ e.clock.second ∧
    enabled app w e.clock e.input
  next w e := { step app minInterval w e with now := e.clock.second }

end

/-! ## What a submission owes to the older acts -/

/-- No goal change, no pause and no request. -/
def Act.Quiet : Act Prompt → Prop
  | .goalSet _ | .paused | .requested => False
  | _ => True

/-- The tick started after the newest goal change, pause and request. -/
def Current (tick : ℕ) (goal : ClientGoal Prompt) (older : List (Act Prompt)) : Prop :=
  History.Since Act.Quiet (fun act _ => act = .tickStarted tick goal) older

/-- The goal that was set last. -/
def newestGoal : List (Act Prompt) → Option (ClientGoal Prompt)
  | [] => none
  | .goalSet goal :: _ => some goal
  | _ :: older => newestGoal older

/-- The chunk of a current tick, for the current goal. -/
def Proper : Act Prompt → List (Act Prompt) → Prop
  | .submitted tick goal, older => Current tick goal older ∧ newestGoal older = some goal
  | _, _ => True

/-! ## The invariant -/

/-- An open current sender holds no chunk but one of a current tick. -/
def PendingCurrent (w : World Prompt Chunk) : Prop :=
  (w.senders w.current).sender.closed = false →
    ∀ item ∈ (w.senders w.current).sender.pending,
      Current item.1.tick item.1.goal w.trace ∧ w.goal = some item.1.goal

/-- The invariant of the app. -/
structure Inv (w : World Prompt Chunk) : Prop where
  proper : History.Each Proper w.trace
  goal : newestGoal w.trace = w.goal
  idle : w.busy = false → w.ticks = []
  one : w.ticks.length ≤ 1
  fresh : ∀ t ∈ w.ticks, t.generation ≤ w.generation ∧
    (t.generation = w.generation → Current t.id t.goal w.trace ∧ w.goal = some t.goal)
  current : w.current < w.nextSender
  replaced : ∀ i < w.nextSender, i ≠ w.current → (w.senders i).sender.closed = true
  pending : PendingCurrent w
  requests : ∀ r ∈ w.requests, r.connection ≤ w.connection ∧
    (r.connection = w.connection → (w.senders w.current).sender.closed = true)
  distinct : (w.requests.map Request.connection).Nodup

variable {minInterval : ℤ} {w : World Prompt Chunk} {clock : CoalescingSender.Clock}

theorem call_senders (id : ℕ)
    (input : CoalescingSender.Input (Inferred Prompt Chunk) SendMeta) :
    (w.call minInterval id input clock).senders id =
      (CoalescingSender.machine minInterval).next (w.senders id) ⟨input, clock⟩ :=
  Function.update_self ..

theorem call_senders_of_ne {id i : ℕ} (hi : i ≠ id)
    (input : CoalescingSender.Input (Inferred Prompt Chunk) SendMeta) :
    (w.call minInterval id input clock).senders i = w.senders i :=
  Function.update_of_ne hi ..

/-- What is closed stays closed. -/
theorem next_closed (s : Sender Prompt Chunk)
    (input : CoalescingSender.Input (Inferred Prompt Chunk) SendMeta)
    (h : s.sender.closed = true) :
    ((CoalescingSender.machine minInterval).next s ⟨input, clock⟩).sender.closed = true := by
  match input with
  | .submit item => exact (CoalescingSender.submit_closed s item clock).trans h
  | .clearPending => exact h
  | .close => rfl
  | .wake id | .settle id error | .resume id error | .drained id | .clientClose awaited =>
      refine (CoalescingSender.internal_closed ?_).trans h
      exact trivial

theorem call_closed (id : ℕ)
    (input : CoalescingSender.Input (Inferred Prompt Chunk) SendMeta) {i : ℕ}
    (h : (w.senders i).sender.closed = true) :
    ((w.call minInterval id input clock).senders i).sender.closed = true := by
  by_cases hi : i = id
  · subst hi
    rw [call_senders]
    exact next_closed _ _ h
  · rw [call_senders_of_ne hi]
    exact h

theorem call_clearPending (w : World Prompt Chunk) (id : ℕ) :
    ((w.call minInterval id .clearPending clock).senders id).sender.pending = none := by
  rw [call_senders]
  rfl

theorem call_close (w : World Prompt Chunk) (id : ℕ) :
    ((w.call minInterval id .close clock).senders id).sender.closed = true := by
  rw [call_senders]
  rfl

/-- A call keeps the invariant if it leaves nothing stale in the current sender. -/
theorem Inv.call (h : Inv w) (id : ℕ)
    (input : CoalescingSender.Input (Inferred Prompt Chunk) SendMeta)
    (hpending : PendingCurrent (w.call minInterval id input clock)) :
    Inv (w.call minInterval id input clock) :=
  { h with
    replaced := fun i hi hne => call_closed id input (h.replaced i hi hne)
    pending := hpending
    requests := fun r hr =>
      ⟨(h.requests r hr).1, fun heq => call_closed id input ((h.requests r hr).2 heq)⟩ }

/-- A quiet act that is no submission keeps what the invariant says of the older
ones. -/
theorem Inv.started (h : Inv w) (goal : ClientGoal Prompt) :
    Inv (w.record (.tickStarted w.nextTick goal)) where
  proper := ⟨trivial, h.proper⟩
  goal := h.goal
  idle := h.idle
  one := h.one
  fresh t ht := by
    refine ⟨(h.fresh t ht).1, fun heq => ?_⟩
    obtain ⟨hcur, hgoal⟩ := (h.fresh t ht).2 heq
    exact ⟨hcur.cons trivial, hgoal⟩
  current := h.current
  replaced := h.replaced
  pending hopen item hitem := by
    obtain ⟨hcur, hgoal⟩ := h.pending hopen item hitem
    exact ⟨hcur.cons trivial, hgoal⟩
  requests := h.requests
  distinct := h.distinct

/-- `tick`, up to its `await`. -/
theorem Inv.tick (h : Inv w) (frameReady : Bool) : Inv (w.tick frameReady) := by
  unfold World.tick
  split
  · exact h
  · next goal hgoal =>
      split
      · exact h
      · next hcond =>
          have hticks : w.ticks = [] := by
            apply h.idle
            rw [← Bool.not_eq_true]
            exact fun hbusy => hcond (Or.inl hbusy)
          have hs := h.started goal
          refine { hs with idle := ?_, one := ?_, fresh := ?_ }
          · rintro ⟨⟩
          · simp [World.record, hticks]
          · intro t ht
            have ht : t = ⟨w.nextTick, goal, w.generation⟩ := by
              simpa [World.record, hticks] using ht
            subst ht
            exact ⟨le_refl _, fun _ => ⟨Or.inl rfl, hgoal⟩⟩

/-- An act after which no tick is current: the counter goes up, and the current
sender is empty or closed. -/
theorem Inv.interrupt (h : Inv w) {v : World Prompt Chunk}
    (hproper : History.Each Proper v.trace) (hgoal : newestGoal v.trace = v.goal)
    (hbusy : v.busy = w.busy) (hticks : v.ticks = w.ticks)
    (hgeneration : v.generation = w.generation + 1)
    (hcurrent : v.current = w.current) (hnext : v.nextSender = w.nextSender)
    (hclosed : ∀ i, (w.senders i).sender.closed = true → (v.senders i).sender.closed = true)
    (hempty : (v.senders v.current).sender.closed = false →
      (v.senders v.current).sender.pending = none)
    (hrequests : ∀ r ∈ v.requests, r.connection ≤ v.connection ∧
      (r.connection = v.connection → (v.senders v.current).sender.closed = true))
    (hdistinct : (v.requests.map Request.connection).Nodup) : Inv v where
  proper := hproper
  goal := hgoal
  idle hb := by
    rw [hticks]
    exact h.idle (hbusy ▸ hb)
  one := by
    rw [hticks]
    exact h.one
  fresh t ht := by
    rw [hticks] at ht
    have hle := (h.fresh t ht).1
    rw [hgeneration]
    exact ⟨by omega, fun heq => by omega⟩
  current := by
    rw [hcurrent, hnext]
    exact h.current
  replaced i hi hne := by
    rw [hnext] at hi
    rw [hcurrent] at hne
    exact hclosed i (h.replaced i hi hne)
  pending hopen item hitem := by
    rw [hempty hopen] at hitem
    cases hitem
  requests := hrequests
  distinct := hdistinct

/-- `handleGoal`, `_setGoal`. -/
theorem Inv.setGoal (h : Inv w) (goal : ClientGoal Prompt) :
    Inv (w.setGoal minInterval goal clock) := by
  refine h.interrupt ⟨trivial, h.proper⟩ rfl rfl rfl rfl rfl rfl ?_ ?_ ?_ h.distinct
  · exact fun i hi => call_closed w.current .clearPending hi
  · intro _
    exact call_clearPending { w with generation := w.generation + 1 } w.current
  · intro r hr
    exact ⟨(h.requests r hr).1, fun heq =>
      call_closed w.current .clearPending ((h.requests r hr).2 heq)⟩

theorem Inv.pause (h : Inv w) : Inv (w.pause minInterval clock) := by
  refine h.interrupt ⟨trivial, h.proper⟩ h.goal rfl rfl rfl rfl rfl ?_ ?_ ?_ h.distinct
  · exact fun i hi => call_closed w.current .clearPending hi
  · intro _
    exact call_clearPending { w with generation := w.generation + 1 } w.current
  · intro r hr
    exact ⟨(h.requests r hr).1, fun heq =>
      call_closed w.current .clearPending ((h.requests r hr).2 heq)⟩

/-- `handleToggleRunning`. -/
theorem Inv.toggleRunning (h : Inv w) : Inv (w.toggleRunning minInterval clock) := by
  unfold World.toggleRunning
  dsimp only
  split
  · exact { h with }
  · have hpause : Inv (w.pause minInterval clock) := h.pause
    exact { hpause with }

theorem request_closed (toPi : Bool) :
    ((w.request minInterval toPi clock).senders w.current).sender.closed = true :=
  call_close { w with
    generation := w.generation + 1
    connection := w.connection + 1
    requests := ⟨w.connection + 1, w.current, toPi⟩ :: w.requests } w.current

/-- `handleWsConnect` and the other requests. -/
theorem Inv.request (h : Inv w) (toPi : Bool) : Inv (w.request minInterval toPi clock) := by
  refine h.interrupt ⟨trivial, h.proper⟩ h.goal rfl rfl rfl rfl rfl ?_ ?_ ?_ ?_
  · exact fun i hi => call_closed w.current .close hi
  · intro hopen
    cases (request_closed toPi).symm.trans hopen
  · intro r hr
    refine ⟨?_, fun _ => request_closed toPi⟩
    rcases List.mem_cons.mp hr with rfl | hr
    · exact le_refl _
    · exact (h.requests r hr).1.trans (Nat.le_succ _)
  · refine List.nodup_cons.mpr ⟨?_, h.distinct⟩
    intro hmem
    obtain ⟨r, hr, heq⟩ := List.mem_map.mp hmem
    have hle := (h.requests r hr).1
    change r.connection = w.connection + 1 at heq
    omega

/-- `dispose`. -/
theorem Inv.dispose (h : Inv w) : Inv (w.dispose minInterval clock) := by
  have hclose : ((w.dispose minInterval clock).senders w.current).sender.closed = true :=
    call_close { w with
      mounted := false
      generation := w.generation + 1
      connection := w.connection + 1 } w.current
  refine h.interrupt h.proper h.goal rfl rfl rfl rfl rfl ?_ ?_ ?_ h.distinct
  · exact fun i hi => call_closed w.current .close hi
  · intro hopen
    cases hclose.symm.trans hopen
  · intro r hr
    exact ⟨(h.requests r hr).1.trans (Nat.le_succ _), fun _ => hclose⟩

/-- A tick is over. -/
theorem Inv.tickDone [DecidableEq Prompt] (h : Inv w) {t : Tick Prompt} (ht : t ∈ w.ticks) :
    Inv { w with busy := false, ticks := w.ticks.erase t } := by
  have hnil : w.ticks.erase t = [] := by
    rw [← List.length_eq_zero_iff, List.length_erase_of_mem ht]
    have hone := h.one
    omega
  rw [hnil]
  exact { h with
    idle := fun _ => rfl
    one := Nat.zero_le 1
    fresh := fun _ hmem => absurd hmem List.not_mem_nil }

/-- The submission of a current tick. -/
theorem Inv.submit (h : Inv w) {tick : ℕ} {goal : ClientGoal Prompt}
    (hcur : Current tick goal w.trace) (hgoal : w.goal = some goal) (chunk : Chunk)
    (sendMeta : SendMeta) :
    Inv ((w.record (.submitted tick goal)).call minInterval w.current
      (.submit (⟨tick, goal, chunk⟩, sendMeta)) clock) := by
  have hrecord : Inv (w.record (.submitted tick goal)) :=
    { h with
      proper := ⟨⟨hcur, h.goal.trans hgoal⟩, h.proper⟩
      fresh := fun t ht => ⟨(h.fresh t ht).1, fun heq =>
        ⟨((h.fresh t ht).2 heq).1.cons trivial, ((h.fresh t ht).2 heq).2⟩⟩
      pending := fun hopen item hitem =>
        ⟨(h.pending hopen item hitem).1.cons trivial, (h.pending hopen item hitem).2⟩ }
  refine hrecord.call w.current _ ?_
  intro hopen item hitem
  change ((World.call minInterval _ w.current _ clock).senders w.current).sender.closed = false
    at hopen
  change item ∈ ((World.call minInterval _ w.current _ clock).senders w.current).sender.pending
    at hitem
  rw [call_senders] at hopen hitem
  rcases CoalescingSender.submit_pending _ _ clock item hitem with ⟨hclosed, -⟩ | rfl
  · cases (next_closed _ _ hclosed).symm.trans hopen
  · exact ⟨hcur.cons trivial, hgoal⟩

/-- A tick that is not superseded is current. -/
theorem generation_of_not_superseded {app : App} {t : Tick Prompt}
    (h : w.superseded app t = false) : t.generation = w.generation := by
  cases app with
  | browser => simpa [World.superseded] using h
  | phone =>
      simp only [World.superseded, Bool.or_eq_false_iff, decide_eq_false_iff_not,
        Decidable.not_not] at h
      exact h.1.2

/-- `tick`, after its `await`. -/
theorem Inv.inferred [DecidableEq Prompt] (h : Inv w) (app : App) {t : Tick Prompt}
    (ht : t ∈ w.ticks) (result : Except String Chunk) :
    Inv (w.inferred app minInterval t result clock) := by
  have hdone := h.tickDone ht
  unfold World.inferred
  dsimp only
  split
  · exact hdone
  · next chunk =>
      split
      · exact hdone
      · next hnot =>
          rw [Bool.not_eq_true] at hnot
          obtain ⟨hcur, hgoal⟩ := (h.fresh t ht).2 (generation_of_not_superseded hnot)
          have hframe : Inv
              { w with busy := false, ticks := w.ticks.erase t, frameId := w.frameId + 1 } :=
            { hdone with }
          exact hframe.submit hcur hgoal chunk _

/-- A request goes on after the `close` it awaited. -/
theorem Inv.oldClosed (h : Inv w) (app : App) {r : Request} (hr : r ∈ w.requests) :
    Inv (w.oldClosed app r clock) := by
  have hmem : ∀ r' ∈ w.requests.erase r, r' ∈ w.requests := fun r' => List.mem_of_mem_erase
  have hdistinct : ((w.requests.erase r).map Request.connection).Nodup :=
    h.distinct.sublist ((List.erase_sublist ..).map _)
  unfold World.oldClosed
  dsimp only
  split
  · exact { h with
      requests := fun r' hr' => h.requests r' (hmem r' hr')
      distinct := hdistinct }
  · next hcond =>
      have hconnection : r.connection = w.connection := by
        by_contra hne
        exact hcond (Or.inr hne)
      have hclosed := (h.requests r hr).2 hconnection
      refine { h with
        current := Nat.lt_succ_self _
        replaced := ?_
        pending := ?_
        requests := ?_
        distinct := hdistinct }
      · intro i hi hne
        change i < w.nextSender + 1 at hi
        change i ≠ w.nextSender at hne
        change (Function.update w.senders w.nextSender _ i).sender.closed = true
        rw [Function.update_of_ne hne]
        rcases eq_or_ne i w.current with rfl | hi'
        · exact hclosed
        · exact h.replaced i (by omega) hi'
      · intro _ item hitem
        change item ∈ (Function.update w.senders w.nextSender _ w.nextSender).sender.pending
          at hitem
        rw [Function.update_self] at hitem
        cases hitem
      · intro r' hr'
        refine ⟨(h.requests r' (hmem r' hr')).1, fun heq => ?_⟩
        -- the other requests have other numbers
        have hnodup : w.requests.Nodup := List.Nodup.of_map _ h.distinct
        have hne := hnodup.mem_erase_iff.mp hr'
        have heq' := heq.trans hconnection.symm
        exact absurd (List.inj_on_of_nodup_map h.distinct hne.2 hr heq') hne.1

/-- The event loop goes on with a drain. -/
theorem Inv.sender (h : Inv w) (id : ℕ)
    {input : CoalescingSender.Input (Inferred Prompt Chunk) SendMeta} (hinput : input.Internal) :
    Inv (w.call minInterval id input clock) := by
  refine h.call id input ?_
  intro hopen item hitem
  change ((World.call minInterval w id input clock).senders w.current).sender.closed = false
    at hopen
  change item ∈ ((World.call minInterval w id input clock).senders w.current).sender.pending
    at hitem
  by_cases hid : w.current = id
  · rw [hid, call_senders] at hopen hitem
    have hclosed : (w.senders id).sender.closed = false :=
      (CoalescingSender.internal_closed hinput).symm.trans hopen
    have hin := CoalescingSender.internal_pending hinput item hitem
    rw [← hid] at hclosed hin
    exact h.pending hclosed item hin
  · rw [call_senders_of_ne hid] at hopen hitem
    exact h.pending hopen item hitem

/-! ## Every run -/

theorem inv_new (now : ℤ) : Inv (World.new now : World Prompt Chunk) where
  proper := trivial
  goal := rfl
  idle _ := rfl
  one := Nat.zero_le 1
  fresh _ ht := absurd ht List.not_mem_nil
  current := Nat.zero_lt_one
  replaced i hi hne := absurd (Nat.lt_one_iff.mp hi) hne
  pending _ item hitem := by cases hitem
  requests _ hr := absurd hr List.not_mem_nil
  distinct := List.nodup_nil

/-- The invariant, one case for each input. -/
theorem inv_invariant [DecidableEq Prompt] (app : App) (minInterval : ℤ) :
    (machine app minInterval : Machine (World Prompt Chunk) _).Invariant Inv where
  init := by
    rintro _ ⟨now, rfl⟩
    exact inv_new now
  step := by
    rintro w ⟨input, clock⟩ h ⟨-, -, henabled⟩
    have hstep : Inv (step app minInterval w ⟨input, clock⟩) := by
      cases input with
      | tick frameReady => exact h.tick frameReady
      | inferred t result => exact h.inferred app henabled result
      | setGoal goal => exact h.setGoal goal
      | toggleRunning => exact h.toggleRunning
      | appPaused => exact h.pause
      | request toPi => exact h.request toPi
      | oldClosed r => exact h.oldClosed app henabled.1
      | dispose => exact h.dispose
      | sender id input => exact h.sender id henabled.2.1
    exact { hstep with }

/-- After a goal change or a pause, and before anything else, no open sender holds
a chunk. -/
theorem Inv.pending_none (h : Inv w) {act : Act Prompt} (hact : ¬ act.Quiet)
    (hhead : w.trace.head? = some act) {i : ℕ} (hi : i < w.nextSender)
    (hopen : (w.senders i).sender.closed = false) : (w.senders i).sender.pending = none := by
  have hcurrent : i = w.current := by
    by_contra hne
    cases (h.replaced i hi hne).symm.trans hopen
  subst hcurrent
  cases hpending : (w.senders w.current).sender.pending with
  | none => rfl
  | some item =>
      have hcur := (h.pending hopen item hpending).1
      obtain ⟨older, holder⟩ := List.head?_eq_some_iff.mp hhead
      rw [holder] at hcur
      rcases hcur with rfl | ⟨hquiet, -⟩
      · exact absurd trivial hact
      · exact absurd hquiet hact

/-- **The app, whatever the order of its callbacks**: every submission is of a
current tick for the current goal; an open sender holds no other chunk, and none
when the newest act is a goal change or a pause; the replaced senders are closed;
at most one inference is in flight. -/
theorem no_stale_chunk [DecidableEq Prompt] {app : App}
    {es : List (Event Prompt Chunk)} (h : (machine app minInterval).Run es w) :
    (∀ newer act older, w.trace = newer ++ act :: older → Proper act older) ∧
      (∀ i < w.nextSender, (w.senders i).sender.closed = false →
        ∀ item ∈ (w.senders i).sender.pending,
          Current item.1.tick item.1.goal w.trace ∧ w.goal = some item.1.goal) ∧
      (∀ act, w.trace.head? = some act → (act = .paused ∨ ∃ goal, act = .goalSet goal) →
        ∀ i < w.nextSender, (w.senders i).sender.closed = false →
          (w.senders i).sender.pending = none) ∧
      (∀ i < w.nextSender, i ≠ w.current → (w.senders i).sender.closed = true) ∧
      w.ticks.length ≤ 1 := by
  have hinv := (inv_invariant app minInterval).of_run h
  refine ⟨History.each_iff.mp hinv.proper, ?_, ?_, hinv.replaced, hinv.one⟩
  · intro i hi hopen item hitem
    have hcurrent : i = w.current := by
      by_contra hne
      cases (hinv.replaced i hi hne).symm.trans hopen
    subst hcurrent
    exact hinv.pending hopen item hitem
  · intro act hhead hact i hi hopen
    refine hinv.pending_none ?_ hhead hi hopen
    rcases hact with rfl | ⟨goal, rfl⟩ <;> exact id

/-- The goal changes while the second tick awaits its chunk. -/
def goalChange : List (Event Unit ℕ) :=
  [⟨.setGoal ⟨"a", ()⟩, ⟨1000, 1000⟩⟩, ⟨.tick true, ⟨1000, 1000⟩⟩,
    ⟨.inferred ⟨0, ⟨"a", ()⟩, 1⟩ (.ok 7), ⟨1010, 1010⟩⟩, ⟨.tick true, ⟨1500, 1500⟩⟩,
    ⟨.setGoal ⟨"b", ()⟩, ⟨1510, 1510⟩⟩, ⟨.inferred ⟨1, ⟨"a", ()⟩, 1⟩ (.ok 8), ⟨1520, 1520⟩⟩]

theorem no_stale_chunk_goalChange :
    ∃ w, (machine .browser 100).Run goalChange w ∧
      w.trace = [.goalSet ⟨"b", ()⟩, .tickStarted 1 ⟨"a", ()⟩, .submitted 0 ⟨"a", ()⟩,
        .tickStarted 0 ⟨"a", ()⟩, .goalSet ⟨"a", ()⟩] ∧
      w.goal = some ⟨"b", ()⟩ ∧ (w.senders 0).sender.pending = none ∧ w.ticks.length ≤ 1 := by
  have henabled : (machine .browser 100).Enabled (World.new 1000) goalChange := by
    refine ⟨⟨by decide, by decide, rfl⟩, ⟨by decide, by decide, rfl⟩, ⟨by decide, by decide, ?_⟩,
      ⟨by decide, by decide, rfl⟩, ⟨by decide, by decide, rfl⟩, ⟨by decide, by decide, ?_⟩,
      trivial⟩ <;> exact List.mem_singleton.mpr rfl
  have hrun := Machine.run_of_enabled (M := machine .browser 100) ⟨1000, rfl⟩ henabled
  obtain ⟨-, -, hnone, -, hone⟩ := no_stale_chunk hrun
  exact ⟨_, hrun, rfl, rfl, hnone _ rfl (Or.inr ⟨_, rfl⟩) 0 Nat.zero_lt_one rfl, hone⟩

/-! ## The senders run -/

/-- Each sender is at the end of a run of its own, not ahead of the clock. -/
def Run (minInterval now : ℤ) (senders : ℕ → Sender Prompt Chunk) : Prop :=
  ∀ i, (CoalescingSender.machine minInterval).Reachable (senders i) ∧ (senders i).now ≤ now

theorem Run.mono {now now' : ℤ} {senders : ℕ → Sender Prompt Chunk}
    (h : Run minInterval now senders) (hnow : now ≤ now') : Run minInterval now' senders :=
  fun i => ⟨(h i).1, (h i).2.trans hnow⟩

theorem Run.update {now now' : ℤ} {senders : ℕ → Sender Prompt Chunk}
    (h : Run minInterval now senders) (hnow : now ≤ now') (id : ℕ) {s : Sender Prompt Chunk}
    (hs : (CoalescingSender.machine minInterval).Reachable s) (hle : s.now ≤ now') :
    Run minInterval now' (Function.update senders id s) := by
  intro i
  by_cases hi : i = id
  · subst hi
    rw [Function.update_self]
    exact ⟨hs, hle⟩
  · rw [Function.update_of_ne hi]
    exact h.mono hnow i

/-- A call that is enabled is a step of the sender's run. -/
theorem Run.call (h : Run minInterval w.now w.senders) (id : ℕ)
    {input : CoalescingSender.Input (Inferred Prompt Chunk) SendMeta}
    (hinput : CoalescingSender.enabled (w.senders id) clock input)
    (hfirst : w.now ≤ clock.first) (hsecond : clock.first ≤ clock.second) :
    Run minInterval clock.second (w.call minInterval id input clock).senders := by
  obtain ⟨⟨es, hrun⟩, hnow⟩ := h id
  exact h.update (hfirst.trans hsecond) id
    ⟨_, hrun.snoc ⟨hnow.trans hfirst, hsecond, hinput⟩⟩ (le_refl _)

/-- **The senders of the app are coalescing senders**: whatever the app does, each of
them runs as `CoalescingSender.machine` does. -/
theorem senders_reachable [DecidableEq Prompt] {app : App} {es : List (Event Prompt Chunk)}
    (h : (machine app minInterval).Run es w) :
    ∀ i, (CoalescingSender.machine minInterval).Reachable (w.senders i) := by
  have hinv : (machine app minInterval : Machine (World Prompt Chunk) _).Invariant
      fun w => Run minInterval w.now w.senders := by
    constructor
    · rintro _ ⟨now, rfl⟩
      exact fun i => ⟨⟨[], .init ⟨_, _, rfl⟩⟩, le_refl _⟩
    · rintro w ⟨input, clock⟩ h ⟨hfirst, hsecond, henabled⟩
      -- a sender that is not called waits until the clock has moved on
      have hmono := h.mono (hfirst.trans hsecond)
      show Run minInterval clock.second (step app minInterval w ⟨input, clock⟩).senders
      cases input with
      | tick frameReady =>
          simp only [step, World.tick]
          split
          · exact hmono
          · split <;> exact hmono
      | inferred t result =>
          simp only [step, World.inferred]
          split
          · exact hmono
          · split
            · exact hmono
            · exact Run.call (w := World.record { w with
                busy := false, ticks := w.ticks.erase t, frameId := w.frameId + 1 } _) h w.current
                trivial hfirst hsecond
      | setGoal goal =>
          exact Run.call (w := { w with generation := w.generation + 1 }) h w.current trivial
            hfirst hsecond
      | toggleRunning =>
          simp only [step, World.toggleRunning]
          split
          · exact hmono
          · exact Run.call (w := { w with generation := w.generation + 1 }) h w.current trivial
              hfirst hsecond
      | appPaused =>
          exact Run.call (w := { w with generation := w.generation + 1 }) h w.current trivial
            hfirst hsecond
      | request toPi => exact h.call w.current trivial hfirst hsecond
      | oldClosed r =>
          simp only [step, World.oldClosed]
          split
          · exact hmono
          · exact h.update (hfirst.trans hsecond) w.nextSender ⟨[], .init ⟨_, _, rfl⟩⟩ (le_refl _)
      | dispose => exact h.call w.current trivial hfirst hsecond
      | sender id input => exact h.call id henabled.2.2 hfirst hsecond
  exact fun i => (hinv.of_run h i).1

/-! ## Steps that keep the connection -/

/-- Everything but a change of the connection. -/
def Input.KeepsSender : Input Prompt Chunk → Prop
  | .request _ | .oldClosed _ | .dispose => False
  | _ => True

/-- What such a step adds to the history. -/
inductive Moves (w w' : World Prompt Chunk) : Prop
  | quiet : w'.trace = w.trace → w'.generation = w.generation → w'.nextTick = w.nextTick →
      Moves w w'
  | started (goal : ClientGoal Prompt) : w'.trace = .tickStarted w.nextTick goal :: w.trace →
      w'.generation = w.generation → w'.nextTick = w.nextTick + 1 → Moves w w'
  | submitted (tick : ℕ) (goal : ClientGoal Prompt) :
      w'.trace = .submitted tick goal :: w.trace →
      w'.generation = w.generation → w'.nextTick = w.nextTick → Moves w w'
  | interrupted (act : Act Prompt) : ¬ act.Quiet → w'.trace = act :: w.trace →
      w'.generation = w.generation + 1 → w'.nextTick = w.nextTick → Moves w w'

variable {w' : World Prompt Chunk}

/-- One case for each input. -/
theorem moves_step [DecidableEq Prompt] (app : App) (w : World Prompt Chunk)
    {e : Event Prompt Chunk} (he : e.input.KeepsSender) :
    Moves w ((machine app minInterval).next w e) ∧
      ((machine app minInterval).next w e).current = w.current := by
  obtain ⟨input, clock⟩ := e
  simp only [machine]
  cases input with
  | tick frameReady =>
      simp only [step, World.tick]
      split
      · exact ⟨.quiet rfl rfl rfl, rfl⟩
      · next goal _ =>
          split
          · exact ⟨.quiet rfl rfl rfl, rfl⟩
          · exact ⟨.started goal rfl rfl rfl, rfl⟩
  | inferred t result =>
      simp only [step, World.inferred]
      split
      · exact ⟨.quiet rfl rfl rfl, rfl⟩
      · split
        · exact ⟨.quiet rfl rfl rfl, rfl⟩
        · exact ⟨.submitted t.id t.goal rfl rfl rfl, rfl⟩
  | setGoal goal => exact ⟨.interrupted (.goalSet goal) id rfl rfl rfl, rfl⟩
  | toggleRunning =>
      simp only [step, World.toggleRunning]
      split
      · exact ⟨.quiet rfl rfl rfl, rfl⟩
      · exact ⟨.interrupted .paused id rfl rfl rfl, rfl⟩
  | appPaused => exact ⟨.interrupted .paused id rfl rfl rfl, rfl⟩
  | request toPi => exact he.elim
  | oldClosed r => exact he.elim
  | dispose => exact he.elim
  | sender id input => exact ⟨.quiet rfl rfl rfl, rfl⟩

/-- The ticks that started have numbers. -/
def Numbered (w : World Prompt Chunk) : Prop :=
  ∀ tick goal, .tickStarted tick goal ∈ w.trace → tick < w.nextTick

theorem Moves.numbered (h : Moves w w') (hw : Numbered w) : Numbered w' := by
  intro tick goal hmem
  rcases h with ⟨ht, -, hn⟩ | ⟨_, ht, -, hn⟩ | ⟨_, _, ht, -, hn⟩ | ⟨act, hact, ht, -, hn⟩
  · rw [ht] at hmem
    exact hn ▸ hw tick goal hmem
  · rw [ht] at hmem
    rcases List.mem_cons.mp hmem with heq | hmem
    · cases heq
      omega
    · have hlt := hw tick goal hmem
      omega
  · rw [ht] at hmem
    rcases List.mem_cons.mp hmem with heq | hmem
    · cases heq
    · exact hn ▸ hw tick goal hmem
  · rw [ht] at hmem
    rcases List.mem_cons.mp hmem with heq | hmem
    · subst heq
      exact absurd trivial hact
    · exact hn ▸ hw tick goal hmem

theorem numbered_invariant [DecidableEq Prompt] (app : App) (minInterval : ℤ) :
    (machine app minInterval : Machine (World Prompt Chunk) _).Invariant Numbered where
  init := by
    rintro _ ⟨now, rfl⟩ tick goal hmem
    exact absurd hmem List.not_mem_nil
  step := by
    intro w e h _
    by_cases hkeeps : e.input.KeepsSender
    · exact (moves_step app w hkeeps).1.numbered h
    · obtain ⟨input, clock⟩ := e
      cases input with
      | request toPi =>
          intro tick goal hmem
          rcases List.mem_cons.mp hmem with heq | hmem
          · cases heq
          · exact h tick goal hmem
      | oldClosed r =>
          simp only [machine, step, World.oldClosed]
          split <;> exact h
      | dispose => exact h
      | _ => exact absurd trivial hkeeps

/-- A tick stays current until the generation goes up. -/
theorem Moves.current_iff (h : Moves w w') {tick : ℕ} (htick : tick < w.nextTick)
    (goal : ClientGoal Prompt) :
    Current tick goal w'.trace ↔ Current tick goal w.trace ∧ w'.generation = w.generation := by
  rcases h with ⟨ht, hg, -⟩ | ⟨goal', ht, hg, -⟩ | ⟨_, _, ht, hg, -⟩ | ⟨act, hact, ht, hg, -⟩
  · rw [ht]
    exact (and_iff_left hg).symm
  · rw [ht, and_iff_left hg]
    -- the tick that starts has a new number
    constructor
    · rintro (heq | ⟨-, hc⟩)
      · cases heq
        exact absurd htick (Nat.lt_irrefl _)
      · exact hc
    · exact fun hc => hc.cons trivial
  · rw [ht, and_iff_left hg]
    constructor
    · rintro (heq | ⟨-, hc⟩)
      · cases heq
      · exact hc
    · exact fun hc => hc.cons trivial
  · rw [ht]
    constructor
    · rintro (rfl | ⟨hquiet, -⟩)
      · exact absurd trivial hact
      · exact absurd hquiet hact
    · rintro ⟨-, heq⟩
      omega

end ClientApp
