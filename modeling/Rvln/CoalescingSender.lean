/-
# The coalescing sender

`CoalescingSender` of `edgeSender.ts` and of `edge_action_client.dart`: one slot
for the newest chunk, and a drain loop that sends it, at most one chunk in a
minimum interval.

Everything runs on one thread.  A drain runs until its next `await`: it sleeps,
it awaits `client.send`, or it has ended and its completion callback is due.
`Phase` is where it is suspended; between any two of these the methods may be
called.  `send` is settled at any later time, with an error or without.

The history has what the sender and its client do, newest first, and `Proper`
says what the acts owe to the older ones.  The two clients differ in where they
keep the frame and goal id of the pending chunk (`pendingMeta` is Dart's).
-/
import Mathlib.Algebra.Order.Ring.Int
import Rvln.History
import Rvln.Machine

/-- The attributes of `CoalescingSender`; a drain is known by its number. -/
structure CoalescingSender (Chunk SendMeta : Type*) where
  pending : Option (Chunk × SendMeta)
  pendingMeta : SendMeta
  sending : Bool
  lastSent : ℤ
  closed : Bool
  draining : Option ℕ
  sendError : Option String
  deriving DecidableEq

namespace CoalescingSender

variable {Chunk SendMeta : Type*}

/-! ## The code -/

/-- Where a drain is suspended. -/
inductive Phase
  | sleeping (wakeAt : ℤ)
  | sending
  /-- `client.send` is settled, and the drain has not gone on yet. -/
  | settled (error : Option String)
  /-- The drain has ended, and its completion callback is due. -/
  | finished
  deriving DecidableEq

/-- What the sender and its client do. -/
inductive Act (Chunk SendMeta : Type*)
  | submitted (item : Chunk × SendMeta)
  | cleared
  | sendStarted (item : Chunk × SendMeta) (time : ℤ)
  | sendSettled
  | closeCalled
  | clientClosed
  deriving DecidableEq

/-- The sender with its drains, the calls of `close` that wait, each for the drain
it awaits, the clock, and the history. -/
structure World (Chunk SendMeta : Type*) where
  sender : CoalescingSender Chunk SendMeta
  drains : List (ℕ × Phase)
  nextDrain : ℕ
  closing : List (Option ℕ)
  now : ℤ
  trace : List (Act Chunk SendMeta)
  deriving DecidableEq

/-- Two readings of the clock in one go of the event loop. -/
structure Clock where
  first : ℤ
  second : ℤ

namespace World

/-- A new sender. -/
def new (blank : SendMeta) (now : ℤ) : World Chunk SendMeta where
  sender :=
    { pending := none
      pendingMeta := blank
      sending := false
      lastSent := 0
      closed := false
      draining := none
      sendError := none }
  drains := []
  nextDrain := 0
  closing := []
  now := now
  trace := []

/-- Add an act to the history. -/
def record (w : World Chunk SendMeta) (act : Act Chunk SendMeta) : World Chunk SendMeta :=
  { w with trace := act :: w.trace }

/-- `drain`, its end. -/
def leave (w : World Chunk SendMeta) : World Chunk SendMeta × Phase :=
  ({ w with sender := { w.sender with sending := false } }, .finished)

/-- `drain`, from the sleep to the `await` of `client.send`. -/
def takeItem (w : World Chunk SendMeta) (time : ℤ) : World Chunk SendMeta × Phase :=
  match w.sender.closed, w.sender.pending with
  | false, some item =>
      (World.record { w with sender := { w.sender with pending := none, lastSent := time } }
        (.sendStarted item time), .sending)
  | _, _ => w.leave

/-- `drain`, the loop from its test on. -/
def loop (minInterval : ℤ) (w : World Chunk SendMeta) (t : Clock) :
    World Chunk SendMeta × Phase :=
  if w.sender.closed = false ∧ w.sender.pending.isSome then
    let since := t.first - w.sender.lastSent
    if since < minInterval then (w, .sleeping (t.first + (minInterval - since)))
    else w.takeItem t.second
  else w.leave

/-- `drain`, up to its first `await`. -/
def drain (minInterval : ℤ) (w : World Chunk SendMeta) (t : Clock) :
    World Chunk SendMeta × Phase :=
  if w.sender.sending then (w, .finished)
  else World.loop minInterval { w with sender := { w.sender with sending := true } } t

/-- `startDrain`. -/
def startDrain (minInterval : ℤ) (w : World Chunk SendMeta) (t : Clock) :
    World Chunk SendMeta :=
  match w.sender.draining with
  | some _ => w
  | none =>
      let (w', phase) := w.drain minInterval t
      { w' with
        sender := { w'.sender with draining := some w.nextDrain }
        drains := (w.nextDrain, phase) :: w'.drains
        nextDrain := w.nextDrain + 1 }

/-- `submit`. -/
def submit (minInterval : ℤ) (w : World Chunk SendMeta) (item : Chunk × SendMeta) (t : Clock) :
    World Chunk SendMeta :=
  if w.sender.closed then w
  else
    let sender := { w.sender with pending := some item, pendingMeta := item.2 }
    (World.record { w with sender := sender } (.submitted item)).startDrain minInterval t

/-- `clearPending`. -/
def clearPending (w : World Chunk SendMeta) : World Chunk SendMeta :=
  World.record { w with sender := { w.sender with pending := none } } .cleared

/-- `close`, up to its `await`. -/
def close (w : World Chunk SendMeta) : World Chunk SendMeta :=
  let w := World.record { w with sender := { w.sender with closed := true } } .closeCalled
  let w := w.clearPending
  { w with closing := w.sender.draining :: w.closing }

/-- A drain goes on to its next suspension. -/
def suspend (w : World Chunk SendMeta) (id : ℕ) (phase : Phase) : World Chunk SendMeta :=
  { w with drains := w.drains.map fun d => if d.1 = id then (id, phase) else d }

/-- The sleep of a drain is over. -/
def wake (w : World Chunk SendMeta) (id : ℕ) (t : Clock) : World Chunk SendMeta :=
  let (w, phase) := w.takeItem t.second
  w.suspend id phase

/-- `client.send` is settled. -/
def settle (w : World Chunk SendMeta) (id : ℕ) (error : Option String) :
    World Chunk SendMeta :=
  (w.record .sendSettled).suspend id (.settled error)

/-- A drain goes on after `client.send`. -/
def resume (minInterval : ℤ) (w : World Chunk SendMeta) (id : ℕ) (error : Option String)
    (t : Clock) : World Chunk SendMeta :=
  let (w, phase) := World.loop minInterval
    { w with sender := { w.sender with sendError := error } } t
  w.suspend id phase

/-- The completion callback of a drain. -/
def drained (minInterval : ℤ) (w : World Chunk SendMeta) (id : ℕ) (t : Clock) :
    World Chunk SendMeta :=
  let w := { w with
    sender := { w.sender with draining := none }
    drains := w.drains.filter fun d => d.1 ≠ id }
  if w.sender.closed = false ∧ w.sender.pending.isSome then w.startDrain minInterval t else w

/-- `close`, after its `await`. -/
def clientClose (w : World Chunk SendMeta) (awaited : Option ℕ) : World Chunk SendMeta :=
  World.record { w with closing := w.closing.erase awaited } .clientClosed

end World

/-! ## Runs -/

/-- A call of a method, or what the event loop does next. -/
inductive Input (Chunk SendMeta : Type*)
  | submit (item : Chunk × SendMeta)
  | clearPending
  | close
  | wake (id : ℕ)
  | settle (id : ℕ) (error : Option String)
  | resume (id : ℕ) (error : Option String)
  | drained (id : ℕ)
  | clientClose (awaited : Option ℕ)

/-- An input with the readings of the clock. -/
structure Event (Chunk SendMeta : Type*) where
  input : Input Chunk SendMeta
  clock : Clock

/-- The step of an event. -/
def step (minInterval : ℤ) (w : World Chunk SendMeta) (e : Event Chunk SendMeta) :
    World Chunk SendMeta :=
  match e.input with
  | .submit item => w.submit minInterval item e.clock
  | .clearPending => w.clearPending
  | .close => w.close
  | .wake id => w.wake id e.clock
  | .settle id error => w.settle id error
  | .resume id error => w.resume minInterval id error e.clock
  | .drained id => w.drained minInterval id e.clock
  | .clientClose awaited => w.clientClose awaited

/-- What the event loop may do; timers are never early, and a call of `close` goes
on when the drain it awaits has ended. -/
def enabled (w : World Chunk SendMeta) (t : Clock) : Input Chunk SendMeta → Prop
  | .wake id => ∃ wakeAt ≤ t.first, (id, Phase.sleeping wakeAt) ∈ w.drains
  | .settle id _ => (id, Phase.sending) ∈ w.drains
  | .resume id error => (id, Phase.settled error) ∈ w.drains
  | .drained id => (id, Phase.finished) ∈ w.drains
  | .clientClose awaited =>
      awaited ∈ w.closing ∧ ∀ id ∈ awaited, ∀ phase, (id, phase) ∈ w.drains → phase = .finished
  | _ => True

/-- The sender under any order of calls, of settled sends and of timers. -/
def machine (minInterval : ℤ) : Machine (World Chunk SendMeta) (Event Chunk SendMeta) where
  Init w := ∃ blank now, w = World.new blank now
  Guard w e := w.now ≤ e.clock.first ∧ e.clock.first ≤ e.clock.second ∧ enabled w e.clock e.input
  next w e := { step minInterval w e with now := e.clock.second }

/-! ## What the acts owe to the older ones -/

/-- A call of `client.send` is outstanding. -/
def inFlight : List (Act Chunk SendMeta) → Bool
  | [] => false
  | .sendStarted _ _ :: _ => true
  | .sendSettled :: _ => false
  | _ :: older => inFlight older

/-- No submission, no clearing and no send. -/
def Act.Quiet : Act Chunk SendMeta → Prop
  | .submitted _ | .cleared | .sendStarted _ _ => False
  | _ => True

/-- The newest submission is `item`; it was not cleared, and not sent. -/
def Waiting (item : Chunk × SendMeta) (older : List (Act Chunk SendMeta)) : Prop :=
  History.Since Act.Quiet (fun act _ => act = .submitted item) older

/-- A send takes the chunk that waits, when no other is outstanding, `minInterval`
after the others and before any `close`; only an outstanding send is settled; the
client is closed after `close`, with no send outstanding. -/
def Proper (minInterval : ℤ) : Act Chunk SendMeta → List (Act Chunk SendMeta) → Prop
  | .sendStarted item time, older =>
      inFlight older = false ∧ Waiting item older ∧ .closeCalled ∉ older ∧
        ∀ item' time', .sendStarted item' time' ∈ older → time' + minInterval ≤ time
  | .sendSettled, older => inFlight older = true
  | .clientClosed, older => inFlight older = false ∧ .closeCalled ∈ older
  | _, _ => True

/-! ## The invariant -/

/-- What the sender keeps, whether or not a drain runs; `now` is a reading of the
clock no send is ahead of. -/
structure Kept (minInterval now : ℤ) (w : World Chunk SendMeta) : Prop where
  proper : History.Each (Proper minInterval) w.trace
  sent : ∀ item time, .sendStarted item time ∈ w.trace → time ≤ w.sender.lastSent ∧ time ≤ now
  pending : ∀ item ∈ w.sender.pending,
    Waiting item w.trace ∧ w.sender.pendingMeta = item.2 ∧ w.sender.closed = false
  closed : w.sender.closed = true ↔ .closeCalled ∈ w.trace
  closing : w.closing ≠ [] → w.sender.closed = true

/-- The sender as a drain of phase `phase` leaves it. -/
structure InPhase (minInterval : ℤ) (w : World Chunk SendMeta) (phase : Phase) : Prop where
  sending : w.sender.sending = true ↔ phase ≠ .finished
  flight : inFlight w.trace = true ↔ phase = .sending
  sleeping : ∀ wakeAt, phase = .sleeping wakeAt → wakeAt = w.sender.lastSent + minInterval

/-- No drain, and nothing to send. -/
structure Idle (w : World Chunk SendMeta) : Prop where
  drains : w.drains = []
  sending : w.sender.sending = false
  pending : w.sender.pending = none
  flight : inFlight w.trace = false

/-- The drains there are: none, or the one the handle `draining` is for. -/
def Drained (minInterval : ℤ) (w : World Chunk SendMeta) : Prop :=
  match w.sender.draining with
  | none => Idle w
  | some i => ∃ phase, w.drains = [(i, phase)] ∧ InPhase minInterval w phase

/-- A call of `close` awaits the drain there is, or one that has ended. -/
def Awaited (w : World Chunk SendMeta) : Prop :=
  ∀ awaited ∈ w.closing, w.sender.draining = none ∨ w.sender.draining = awaited

/-- The invariant of the sender. -/
structure Inv (minInterval : ℤ) (w : World Chunk SendMeta) : Prop where
  kept : Kept minInterval w.now w
  drained : Drained minInterval w
  awaited : Awaited w

variable {minInterval now : ℤ} {w : World Chunk SendMeta}

theorem Kept.mono {now' : ℤ} (h : Kept minInterval now w) (hnow : now ≤ now') :
    Kept minInterval now' w := by
  refine { h with sent := ?_ }
  intro item time hmem
  exact ⟨(h.sent item time hmem).1, (h.sent item time hmem).2.trans hnow⟩

/-- An act that waits for nothing can be added while nothing is pending. -/
theorem Kept.record (h : Kept minInterval now w) (hnone : w.sender.pending = none)
    {act : Act Chunk SendMeta} (hact : Proper minInterval act w.trace)
    (hsend : ∀ item time, act ≠ .sendStarted item time) (hclose : act ≠ .closeCalled) :
    Kept minInterval now (w.record act) where
  proper := ⟨hact, h.proper⟩
  sent item time hmem := by
    rcases List.mem_cons.mp hmem with heq | hmem
    · exact absurd heq.symm (hsend item time)
    · exact h.sent item time hmem
  pending item hitem := by
    change item ∈ w.sender.pending at hitem
    rw [hnone] at hitem
    cases hitem
  closed := by
    refine h.closed.trans (Iff.trans ?_ List.mem_cons.symm)
    exact (or_iff_right hclose.symm).symm
  closing := h.closing

/-! ## A drain from one suspension to the next -/

/-- Where a drain that goes on in `w` is suspended, and what it leaves alone. -/
structure Left (minInterval now : ℤ) (w : World Chunk SendMeta)
    (r : World Chunk SendMeta × Phase) : Prop where
  kept : Kept minInterval now r.1
  phase : InPhase minInterval r.1 r.2
  drains : r.1.drains = w.drains
  draining : r.1.sender.draining = w.sender.draining
  closing : r.1.closing = w.closing

theorem Kept.leave (h : Kept minInterval now w) (hflight : inFlight w.trace = false) :
    Left minInterval now w w.leave where
  kept := { h with }
  phase :=
    { sending := by simp [World.leave]
      flight := by simp [World.leave, hflight]
      sleeping := by simp [World.leave] }
  drains := rfl
  draining := rfl
  closing := rfl

/-- The send takes the chunk that waits. -/
theorem Kept.takeItem (h : Kept minInterval now w) (hsending : w.sender.sending = true)
    (hflight : inFlight w.trace = false) {time : ℤ} (hnow : now ≤ time)
    (hlast : w.sender.lastSent + minInterval ≤ time) :
    Left minInterval time w (w.takeItem time) := by
  unfold World.takeItem
  split
  · next item hopen hpending =>
      have hclose : .closeCalled ∉ w.trace := by
        rw [← h.closed, hopen]
        exact Bool.false_ne_true
      refine ⟨⟨⟨?_, h.proper⟩, ?_, ?_, ?_, h.closing⟩, ⟨?_, ?_, ?_⟩, rfl, rfl, rfl⟩
      -- `lastSent` bounds every older send
      · refine ⟨hflight, (h.pending item hpending).1, hclose, ?_⟩
        intro item' time' hmem
        have hsent := (h.sent item' time' hmem).1
        omega
      · intro item' time' hmem
        rcases List.mem_cons.mp hmem with heq | hmem
        · cases heq
          exact ⟨le_refl _, le_refl _⟩
        · have hsent := (h.sent item' time' hmem).2
          exact ⟨hsent.trans hnow, hsent.trans hnow⟩
      · rintro item' ⟨⟩
      · exact h.closed.trans (by simp [World.record])
      · simp [World.record, hsending]
      · simp [World.record, inFlight]
      · simp
  · exact (h.mono hnow).leave hflight

theorem Kept.loop (h : Kept minInterval now w) (hsending : w.sender.sending = true)
    (hflight : inFlight w.trace = false) {t : Clock} (hfirst : now ≤ t.first)
    (hsecond : t.first ≤ t.second) : Left minInterval t.second w (w.loop minInterval t) := by
  have hnow := hfirst.trans hsecond
  unfold World.loop
  split
  · dsimp only
    split
    · refine ⟨h.mono hnow, ⟨?_, ?_, ?_⟩, rfl, rfl, rfl⟩
      · simp [hsending]
      · simp [hflight]
      · rintro wakeAt ⟨⟩
        show t.first + (minInterval - (t.first - w.sender.lastSent)) =
          w.sender.lastSent + minInterval
        omega
    · exact h.takeItem hsending hflight hnow (by omega)
  · exact (h.mono hnow).leave hflight

/-! ## The steps -/

theorem startDrain_running {i : ℕ} (hdraining : w.sender.draining = some i) (t : Clock) :
    w.startDrain minInterval t = w := by
  rw [World.startDrain, hdraining]

theorem startDrain_eq (hdraining : w.sender.draining = none) (t : Clock) :
    w.startDrain minInterval t =
      { (w.drain minInterval t).1 with
        sender := { (w.drain minInterval t).1.sender with draining := some w.nextDrain }
        drains := (w.nextDrain, (w.drain minInterval t).2) :: (w.drain minInterval t).1.drains
        nextDrain := w.nextDrain + 1 } := by
  rw [World.startDrain, hdraining]

/-- `startDrain`, when no drain runs. -/
theorem Kept.startDrain (h : Kept minInterval now w) (hdraining : w.sender.draining = none)
    (hdrains : w.drains = []) (hsending : w.sender.sending = false)
    (hflight : inFlight w.trace = false) (hclosed : w.sender.closed = false)
    {t : Clock} (hfirst : now ≤ t.first) (hsecond : t.first ≤ t.second) :
    Kept minInterval t.second (w.startDrain minInterval t) ∧
      Drained minInterval (w.startDrain minInterval t) ∧ Awaited (w.startDrain minInterval t) := by
  let w' : World Chunk SendMeta := { w with sender := { w.sender with sending := true } }
  have hw' : Kept minInterval now w' := { h with }
  have hrun : Left minInterval t.second w' (w.drain minInterval t) := by
    rw [World.drain, hsending]
    exact hw'.loop rfl hflight hfirst hsecond
  rw [startDrain_eq hdraining]
  refine ⟨{ hrun.kept with }, ?_, ?_⟩
  · refine ⟨_, ?_, { hrun.phase with }⟩
    rw [hrun.drains, hdrains]
  · intro awaited hmem
    have hclosing : w.closing ≠ [] := by
      rw [show w.closing = (w.drain minInterval t).1.closing from hrun.closing.symm]
      exact List.ne_nil_of_mem hmem
    rw [h.closing hclosing] at hclosed
    cases hclosed

/-- The invariant at the end of a step. -/
theorem Kept.inv (h : Kept minInterval now w) (hdrained : Drained minInterval w)
    (hawaited : Awaited w) : Inv minInterval { w with now := now } where
  kept := { h with }
  drained := by
    unfold Drained at hdrained ⊢
    revert hdrained
    dsimp only
    split
    · exact fun hidle => { hidle with }
    · rintro ⟨phase, hdrains, hphase⟩
      exact ⟨phase, hdrains, { hphase with }⟩
  awaited := hawaited

theorem Drained.idle (h : Drained minInterval w) (hdraining : w.sender.draining = none) :
    Idle w := by
  unfold Drained at h
  rw [hdraining] at h
  exact h

/-- The drain there is. -/
theorem Drained.of_mem (h : Drained minInterval w) {id : ℕ} {phase : Phase}
    (hmem : (id, phase) ∈ w.drains) :
    w.sender.draining = some id ∧ w.drains = [(id, phase)] ∧ InPhase minInterval w phase := by
  unfold Drained at h
  split at h
  · rw [h.drains] at hmem
    cases hmem
  · next i hi =>
      obtain ⟨phase', hdrains, hphase⟩ := h
      rw [hdrains, List.mem_singleton] at hmem
      cases hmem
      exact ⟨hi, hdrains, hphase⟩

/-- No send is in flight but in the phase that waits for it. -/
theorem InPhase.not_inFlight {phase : Phase} (h : InPhase minInterval w phase)
    (hphase : phase ≠ .sending) : inFlight w.trace = false := by
  rw [← Bool.not_eq_true, h.flight]
  exact hphase

/-- A drain that goes on, to its next suspension. -/
theorem Left.inv {r : World Chunk SendMeta × Phase} (h : Left minInterval now w r) {id : ℕ}
    {phase : Phase} (hdraining : w.sender.draining = some id) (hdrains : w.drains = [(id, phase)])
    (hawaited : Awaited w) : Inv minInterval { r.1.suspend id r.2 with now := now } := by
  refine Kept.inv (w := r.1.suspend id r.2) { h.kept with } ?_ ?_
  · have hsome : (r.1.suspend id r.2).sender.draining = some id := h.draining.trans hdraining
    unfold Drained
    rw [hsome]
    refine ⟨r.2, ?_, { h.phase with }⟩
    rw [World.suspend, h.drains, hdrains]
    simp
  · intro awaited hmem
    change awaited ∈ r.1.closing at hmem
    rw [h.closing] at hmem
    change r.1.sender.draining = none ∨ r.1.sender.draining = awaited
    rw [h.draining]
    exact hawaited awaited hmem

/-- A step that leaves the drains alone. -/
theorem Inv.quiet {v : World Chunk SendMeta} (h : Inv minInterval w)
    (hkept : Kept minInterval now v) (hdrains : v.drains = w.drains)
    (hdraining : v.sender.draining = w.sender.draining)
    (hsending : v.sender.sending = w.sender.sending)
    (hlast : v.sender.lastSent = w.sender.lastSent)
    (hflight : inFlight v.trace = inFlight w.trace)
    (hpending : w.sender.draining = none → v.sender.pending = none) (hawaited : Awaited v) :
    Inv minInterval { v with now := now } := by
  refine hkept.inv ?_ hawaited
  have hdrained := h.drained
  unfold Drained at hdrained ⊢
  rw [hdraining]
  split at hdrained
  · next hnone =>
      exact ⟨hdrains.trans hdrained.drains, hsending.trans hdrained.sending, hpending hnone,
        hflight.trans hdrained.flight⟩
  · obtain ⟨phase, hlist, hphase⟩ := hdrained
    refine ⟨phase, hdrains.trans hlist, ⟨?_, ?_, ?_⟩⟩
    · rw [hsending]
      exact hphase.sending
    · rw [hflight]
      exact hphase.flight
    · rw [hlast]
      exact hphase.sleeping

/-- Nothing is pending: a new submission is what waits. -/
theorem Kept.submitted (h : Kept minInterval now w) (hopen : w.sender.closed = false)
    (item : Chunk × SendMeta) :
    Kept minInterval now
      (World.record
        { w with sender := { w.sender with pending := some item, pendingMeta := item.2 } }
        (.submitted item)) where
  proper := ⟨trivial, h.proper⟩
  sent item' time hmem := by
    rcases List.mem_cons.mp hmem with heq | hmem
    · cases heq
    · exact h.sent item' time hmem
  pending item' hitem := by
    cases hitem
    exact ⟨Or.inl rfl, rfl, hopen⟩
  closed := h.closed.trans (by simp [World.record])
  closing := h.closing

/-- `submit`. -/
theorem Inv.submit (h : Inv minInterval w) (item : Chunk × SendMeta) {t : Clock}
    (hfirst : w.now ≤ t.first) (hsecond : t.first ≤ t.second) :
    Inv minInterval { w.submit minInterval item t with now := t.second } := by
  have hnow := hfirst.trans hsecond
  unfold World.submit
  split
  · exact (h.kept.mono hnow).inv h.drained h.awaited
  · next hopen =>
      rw [Bool.not_eq_true] at hopen
      have hkept := h.kept.submitted hopen item
      cases hdraining : w.sender.draining with
      | none =>
          have hidle := h.drained.idle hdraining
          obtain ⟨hk, hd, ha⟩ := hkept.startDrain hdraining hidle.drains hidle.sending
            hidle.flight hopen hfirst hsecond
          exact hk.inv hd ha
      | some i =>
          dsimp only
          rw [startDrain_running (w := World.record
            { w with sender := { w.sender with pending := some item, pendingMeta := item.2 } }
            (.submitted item)) hdraining]
          refine h.quiet (hkept.mono hnow) rfl rfl rfl rfl rfl ?_ h.awaited
          intro hnone
          cases hdraining.symm.trans hnone

/-- Nothing waits after a clearing. -/
theorem Kept.clearPending (h : Kept minInterval now w) : Kept minInterval now w.clearPending := by
  have hcleared : Kept minInterval now { w with sender := { w.sender with pending := none } } :=
    { h with pending := fun item hitem => by cases hitem }
  exact hcleared.record rfl trivial (fun _ _ heq => by cases heq) (fun heq => by cases heq)

/-- `clearPending`. -/
theorem Inv.clearPending (h : Inv minInterval w) (hnow : w.now ≤ now) :
    Inv minInterval { w.clearPending with now := now } :=
  h.quiet (h.kept.clearPending.mono hnow) rfl rfl rfl rfl rfl (fun _ => rfl) h.awaited

/-- `close`. -/
theorem Inv.close (h : Inv minInterval w) (hnow : w.now ≤ now) :
    Inv minInterval { w.close with now := now } := by
  refine h.quiet (v := w.close) ?_ rfl rfl rfl rfl rfl (fun _ => rfl) ?_
  · refine ⟨⟨trivial, trivial, h.kept.proper⟩, ?_, ?_, ?_, fun _ => rfl⟩
    · intro item time hmem
      have hold : .sendStarted item time ∈ w.trace := by
        simpa [World.close, World.clearPending, World.record] using hmem
      exact ⟨(h.kept.sent item time hold).1, (h.kept.sent item time hold).2.trans hnow⟩
    · intro item hitem
      cases hitem
    · simp [World.close, World.clearPending, World.record]
  · intro awaited hmem
    rcases List.mem_cons.mp hmem with rfl | hmem
    · exact Or.inr rfl
    · exact h.awaited awaited hmem

/-- The sleep of a drain is over. -/
theorem Inv.wake (h : Inv minInterval w) {id : ℕ} {wakeAt : ℤ}
    (hmem : (id, Phase.sleeping wakeAt) ∈ w.drains) {t : Clock} (hwake : wakeAt ≤ t.first)
    (hfirst : w.now ≤ t.first) (hsecond : t.first ≤ t.second) :
    Inv minInterval { w.wake id t with now := t.second } := by
  obtain ⟨hdraining, hdrains, hphase⟩ := h.drained.of_mem hmem
  have hsending : w.sender.sending = true := hphase.sending.mpr (by simp)
  have hflight : inFlight w.trace = false := hphase.not_inFlight nofun
  have hlast : w.sender.lastSent + minInterval ≤ t.second := by
    rw [← hphase.sleeping wakeAt rfl]
    exact hwake.trans hsecond
  have hleft := h.kept.takeItem hsending hflight (hfirst.trans hsecond) hlast
  exact hleft.inv hdraining hdrains h.awaited

/-- `client.send` is settled. -/
theorem Inv.settle (h : Inv minInterval w) {id : ℕ} (hmem : (id, Phase.sending) ∈ w.drains)
    (error : Option String) (hnow : w.now ≤ now) :
    Inv minInterval { w.settle id error with now := now } := by
  obtain ⟨hdraining, hdrains, hphase⟩ := h.drained.of_mem hmem
  have hflight : inFlight w.trace = true := hphase.flight.mpr rfl
  have hleft : Left minInterval now w (w.record .sendSettled, .settled error) := by
    refine ⟨⟨⟨hflight, h.kept.proper⟩, ?_, ?_, ?_, h.kept.closing⟩, ⟨?_, ?_, ?_⟩, rfl, rfl, rfl⟩
    · intro item time hmem
      have hold : .sendStarted item time ∈ w.trace := by simpa [World.record] using hmem
      exact ⟨(h.kept.sent item time hold).1, (h.kept.sent item time hold).2.trans hnow⟩
    · intro item hitem
      obtain ⟨hwait, hmeta, hopen⟩ := h.kept.pending item hitem
      exact ⟨hwait.cons trivial, hmeta, hopen⟩
    · exact h.kept.closed.trans (by simp [World.record])
    · simpa [World.record] using hphase.sending
    · simp [World.record, inFlight]
    · simp
  exact hleft.inv hdraining hdrains h.awaited

/-- A drain goes on after `client.send`. -/
theorem Inv.resume (h : Inv minInterval w) {id : ℕ} {error : Option String}
    (hmem : (id, Phase.settled error) ∈ w.drains) {t : Clock} (hfirst : w.now ≤ t.first)
    (hsecond : t.first ≤ t.second) :
    Inv minInterval { w.resume minInterval id error t with now := t.second } := by
  obtain ⟨hdraining, hdrains, hphase⟩ := h.drained.of_mem hmem
  have hsending : w.sender.sending = true := hphase.sending.mpr (by simp)
  have hflight : inFlight w.trace = false := hphase.not_inFlight nofun
  let w' : World Chunk SendMeta := { w with sender := { w.sender with sendError := error } }
  have hw' : Kept minInterval w.now w' := { h.kept with }
  have hleft : Left minInterval t.second w' (w'.loop minInterval t) :=
    hw'.loop hsending hflight hfirst hsecond
  exact hleft.inv hdraining hdrains h.awaited

/-- The completion callback of a drain. -/
theorem Inv.drained_callback (h : Inv minInterval w) {id : ℕ}
    (hmem : (id, Phase.finished) ∈ w.drains) {t : Clock} (hfirst : w.now ≤ t.first)
    (hsecond : t.first ≤ t.second) :
    Inv minInterval { w.drained minInterval id t with now := t.second } := by
  obtain ⟨-, hdrains, hphase⟩ := h.drained.of_mem hmem
  have hsending : w.sender.sending = false := by
    rw [← Bool.not_eq_true, hphase.sending]
    simp
  have hflight : inFlight w.trace = false := hphase.not_inFlight nofun
  let w' : World Chunk SendMeta :=
    { w with
      sender := { w.sender with draining := none }
      drains := w.drains.filter fun d => d.1 ≠ id }
  have hw' : Kept minInterval w.now w' := { h.kept with }
  have hempty : w'.drains = [] := by
    show w.drains.filter _ = []
    rw [hdrains]
    simp
  unfold World.drained
  dsimp only
  split
  · next hcond =>
      obtain ⟨hk, hd, ha⟩ := hw'.startDrain rfl hempty hsending hflight hcond.1 hfirst hsecond
      exact hk.inv hd ha
  · next hcond =>
      -- a chunk that is pending is pending in an open sender
      have hpending : w.sender.pending = none := by
        rw [← Option.not_isSome_iff_eq_none]
        intro hsome
        obtain ⟨item, hitem⟩ := Option.isSome_iff_exists.mp hsome
        exact hcond ⟨(h.kept.pending item hitem).2.2, hsome⟩
      have hidle : Idle w' := ⟨hempty, hsending, hpending, hflight⟩
      exact (hw'.mono (hfirst.trans hsecond)).inv hidle fun _ _ => Or.inl rfl

/-- `close` closes the client. -/
theorem Inv.clientClose (h : Inv minInterval w) {awaited : Option ℕ}
    (hmem : awaited ∈ w.closing)
    (hended : ∀ id ∈ awaited, ∀ phase, (id, phase) ∈ w.drains → phase = .finished)
    (hnow : w.now ≤ now) : Inv minInterval { w.clientClose awaited with now := now } := by
  have hclosed : w.sender.closed = true := h.kept.closing (List.ne_nil_of_mem hmem)
  have hpending : w.sender.pending = none := by
    cases hp : w.sender.pending with
    | none => rfl
    | some item =>
        rw [(h.kept.pending item hp).2.2] at hclosed
        cases hclosed
  have hflight : inFlight w.trace = false := by
    cases hdraining : w.sender.draining with
    | none => exact (h.drained.idle hdraining).flight
    | some i =>
        -- the drain that is left is the awaited one, and it has ended
        have hd := h.drained
        simp only [Drained, hdraining] at hd
        obtain ⟨phase, hdrains, hphase⟩ := hd
        have hi : awaited = some i := by
          rcases h.awaited awaited hmem with hnone | hsome
          · cases hdraining.symm.trans hnone
          · exact hsome.symm.trans hdraining
        have hfinished : phase = .finished := hended i hi phase (by simp [hdrains])
        exact hphase.not_inFlight (hfinished ▸ nofun)
  have hkept : Kept minInterval now (w.clientClose awaited) := by
    have hrest : Kept minInterval now { w with closing := w.closing.erase awaited } :=
      { h.kept.mono hnow with closing := fun _ => hclosed }
    exact hrest.record hpending ⟨hflight, h.kept.closed.mp hclosed⟩
      (fun _ _ heq => by cases heq) (fun heq => by cases heq)
  refine h.quiet hkept rfl rfl rfl rfl rfl (fun _ => hpending) ?_
  exact fun other hother => h.awaited other (List.mem_of_mem_erase hother)

/-! ## Every run -/

theorem inv_new (blank : SendMeta) (now : ℤ) :
    Inv minInterval (World.new blank now : World Chunk SendMeta) where
  kept :=
    { proper := trivial
      sent := fun _ _ hmem => absurd hmem List.not_mem_nil
      pending := fun _ hitem => by cases hitem
      closed := by simp [World.new]
      closing := fun h => absurd rfl h }
  drained := ⟨rfl, rfl, rfl, rfl⟩
  awaited := fun _ hmem => absurd hmem List.not_mem_nil

/-- The invariant, one case for each input. -/
theorem inv_invariant (minInterval : ℤ) :
    (machine minInterval : Machine (World Chunk SendMeta) _).Invariant (Inv minInterval) where
  init := by
    rintro _ ⟨blank, now, rfl⟩
    exact inv_new blank now
  step := by
    rintro w ⟨input, t⟩ h ⟨hfirst, hsecond, henabled⟩
    have hnow := hfirst.trans hsecond
    cases input with
    | submit item => exact h.submit item hfirst hsecond
    | clearPending => exact h.clearPending hnow
    | close => exact h.close hnow
    | wake id =>
        obtain ⟨wakeAt, hwake, hmem⟩ := henabled
        exact h.wake hmem hwake hfirst hsecond
    | settle id error => exact h.settle henabled error hnow
    | resume id error => exact h.resume henabled hfirst hsecond
    | drained id => exact h.drained_callback henabled hfirst hsecond
    | clientClose awaited => exact h.clientClose henabled.1 henabled.2 hnow

/-- A send is outstanding exactly while a drain awaits it. -/
theorem Drained.inFlight_iff (h : Drained minInterval w) :
    inFlight w.trace = true ↔ ∃ d ∈ w.drains, d.2 = .sending := by
  cases hdraining : w.sender.draining with
  | none =>
      have hidle := h.idle hdraining
      simp [hidle.flight, hidle.drains]
  | some i =>
      simp only [Drained, hdraining] at h
      obtain ⟨phase, hdrains, hphase⟩ := h
      simp [hphase.flight, hdrains]

theorem Drained.length_le (h : Drained minInterval w) : w.drains.length ≤ 1 := by
  unfold Drained at h
  split at h
  · simp [h.drains]
  · obtain ⟨phase, hdrains, -⟩ := h
    simp [hdrains]

/-- **The sender, whatever the order of calls, settled sends and timers**: each act
is proper with regard to the older ones; at most one drain runs, and it awaits
the one send there may be; what is pending, under the frame and goal it was
submitted with, has a drain that is running or whose completion callback is due. -/
theorem coalesce_and_pace {es : List (Event Chunk SendMeta)}
    (h : (machine minInterval).Run es w) :
    (∀ newer act older, w.trace = newer ++ act :: older → Proper minInterval act older) ∧
      w.drains.length ≤ 1 ∧
      (inFlight w.trace = true ↔ ∃ d ∈ w.drains, d.2 = .sending) ∧
      (∀ item ∈ w.sender.pending, w.sender.pendingMeta = item.2) ∧
      (w.sender.closed = false → w.sender.pending.isSome →
        ∃ id phase, w.sender.draining = some id ∧ (id, phase) ∈ w.drains) := by
  have hinv := (inv_invariant minInterval).of_run h
  refine ⟨History.each_iff.mp hinv.kept.proper, hinv.drained.length_le, hinv.drained.inFlight_iff,
    fun item hitem => (hinv.kept.pending item hitem).2.1, ?_⟩
  intro _ hsome
  have hdrained := hinv.drained
  cases hdraining : w.sender.draining with
  | none =>
      rw [(hdrained.idle hdraining).pending] at hsome
      cases hsome
  | some i =>
      simp only [Drained, hdraining] at hdrained
      obtain ⟨phase, hdrains, -⟩ := hdrained
      exact ⟨i, phase, rfl, by simp [hdrains]⟩

/-- Three submissions while the first is sent: the first and the last go out. -/
def burst : List (Event ℕ ℕ) :=
  [⟨.submit (1, 1), ⟨1000, 1000⟩⟩, ⟨.submit (2, 2), ⟨1010, 1010⟩⟩, ⟨.submit (3, 3), ⟨1020, 1020⟩⟩,
    ⟨.settle 0 none, ⟨1030, 1030⟩⟩, ⟨.resume 0 none, ⟨1030, 1030⟩⟩, ⟨.wake 0, ⟨1100, 1101⟩⟩]

theorem coalesce_and_pace_burst :
    ∃ w, (machine 100).Run burst w ∧
      w.trace.head? = some (.sendStarted (3, 3) 1101) ∧
      Proper 100 (.sendStarted (3, 3) 1101) w.trace.tail ∧ w.drains.length ≤ 1 := by
  have henabled : (machine 100).Enabled (World.new 0 1000) burst := by
    refine ⟨⟨by decide, by decide, trivial⟩, ⟨by decide, by decide, trivial⟩,
      ⟨by decide, by decide, trivial⟩, ⟨by decide, by decide, ?_⟩, ⟨by decide, by decide, ?_⟩,
      ⟨by decide, by decide, 1100, by decide, ?_⟩, trivial⟩ <;> exact List.mem_singleton.mpr rfl
  have hrun := Machine.run_of_enabled (M := machine 100) ⟨0, 1000, rfl⟩ henabled
  have hpace := coalesce_and_pace hrun
  exact ⟨_, hrun, rfl, hpace.1 [] _ _ rfl, hpace.2.1⟩

/-! ## The slot -/

variable {w' : World Chunk SendMeta}

/-- What the code of a drain does to the slot: nothing, or it sends what is in it. -/
inductive Taken (w w' : World Chunk SendMeta) : Prop
  | nothing : w'.sender.pending = w.sender.pending → w'.sender.closed = w.sender.closed →
      w'.trace = w.trace → Taken w w'
  | sent (item : Chunk × SendMeta) (time : ℤ) : w.sender.pending = some item →
      w.sender.closed = false → w'.sender.pending = none → w'.sender.closed = false →
      w'.trace = .sendStarted item time :: w.trace → Taken w w'

theorem taken_takeItem (w : World Chunk SendMeta) (time : ℤ) : Taken w (w.takeItem time).1 := by
  unfold World.takeItem
  split
  · next item hopen hpending => exact .sent item time hpending hopen rfl hopen rfl
  · exact .nothing rfl rfl rfl

theorem taken_loop (w : World Chunk SendMeta) (t : Clock) :
    Taken w (w.loop minInterval t).1 := by
  unfold World.loop
  split
  · dsimp only
    split
    · exact .nothing rfl rfl rfl
    · exact taken_takeItem w t.second
  · exact .nothing rfl rfl rfl

theorem Taken.congr {v v' : World Chunk SendMeta} (h : Taken w w')
    (hpending : v.sender.pending = w.sender.pending) (hclosed : v.sender.closed = w.sender.closed)
    (htrace : v.trace = w.trace) (hpending' : v'.sender.pending = w'.sender.pending)
    (hclosed' : v'.sender.closed = w'.sender.closed) (htrace' : v'.trace = w'.trace) :
    Taken v v' := by
  rcases h with ⟨hp, hc, ht⟩ | ⟨item, time, hp, hc, hp', hc', ht⟩
  · exact .nothing (by rw [hpending', hp, hpending]) (by rw [hclosed', hc, hclosed])
      (by rw [htrace', ht, htrace])
  · exact .sent item time (hpending.trans hp) (hclosed.trans hc) (hpending'.trans hp')
      (hclosed'.trans hc') (by rw [htrace', ht, htrace])

theorem taken_startDrain (w : World Chunk SendMeta) (t : Clock) :
    Taken w (w.startDrain minInterval t) := by
  cases hdraining : w.sender.draining with
  | some i =>
      rw [startDrain_running hdraining]
      exact .nothing rfl rfl rfl
  | none =>
      rw [startDrain_eq hdraining, World.drain]
      split
      · exact .nothing rfl rfl rfl
      · exact (taken_loop { w with sender := { w.sender with sending := true } } t).congr
          rfl rfl rfl rfl rfl rfl

theorem taken_wake (w : World Chunk SendMeta) (id : ℕ) (t : Clock) : Taken w (w.wake id t) :=
  (taken_takeItem w t.second).congr rfl rfl rfl rfl rfl rfl

theorem taken_resume (w : World Chunk SendMeta) (id : ℕ) (error : Option String) (t : Clock) :
    Taken w (w.resume minInterval id error t) :=
  (taken_loop { w with sender := { w.sender with sendError := error } } t).congr
    rfl rfl rfl rfl rfl rfl

theorem taken_drained (w : World Chunk SendMeta) (id : ℕ) (t : Clock) :
    Taken w (w.drained minInterval id t) := by
  unfold World.drained
  dsimp only
  split
  · exact (taken_startDrain { w with
      sender := { w.sender with draining := none }
      drains := w.drains.filter fun d => d.1 ≠ id } t).congr rfl rfl rfl rfl rfl rfl
  · exact .nothing rfl rfl rfl

/-- What the event loop does next, and not a call of a method. -/
def Input.Internal : Input Chunk SendMeta → Prop
  | .submit _ | .clearPending | .close => False
  | _ => True

/-- The event loop only ever empties the slot, by a send, and leaves `closed`. -/
theorem internal_step (w : World Chunk SendMeta) {e : Event Chunk SendMeta}
    (he : e.input.Internal) :
    Taken w (step minInterval w e) ∨
      (step minInterval w e).sender.pending = w.sender.pending ∧
        (step minInterval w e).sender.closed = w.sender.closed ∧
        ∃ act, (step minInterval w e).trace = act :: w.trace ∧
          (act = .sendSettled ∨ act = .clientClosed) := by
  obtain ⟨input, t⟩ := e
  match input, he with
  | .wake id, _ => exact Or.inl (taken_wake w id t)
  | .resume id error, _ => exact Or.inl (taken_resume w id error t)
  | .drained id, _ => exact Or.inl (taken_drained w id t)
  | .settle id error, _ => exact Or.inr ⟨rfl, rfl, _, rfl, Or.inl rfl⟩
  | .clientClose awaited, _ => exact Or.inr ⟨rfl, rfl, _, rfl, Or.inr rfl⟩

theorem Taken.pending_subset (h : Taken w w') : ∀ item ∈ w'.sender.pending,
    item ∈ w.sender.pending := by
  intro item hitem
  rcases h with ⟨hp, -, -⟩ | ⟨_, _, -, -, hp, -, -⟩
  · rwa [hp] at hitem
  · rw [hp] at hitem
    cases hitem

theorem Taken.closed_eq (h : Taken w w') : w'.sender.closed = w.sender.closed := by
  rcases h with ⟨-, hc, -⟩ | ⟨_, _, -, hc, -, hc', -⟩
  · exact hc
  · exact hc'.trans hc.symm

theorem internal_pending {e : Event Chunk SendMeta} (he : e.input.Internal) :
    ∀ item ∈ (step minInterval w e).sender.pending, item ∈ w.sender.pending := by
  rcases internal_step w he with h | ⟨hp, -⟩
  · exact h.pending_subset
  · rw [hp]
    exact fun _ hitem => hitem

theorem internal_closed {e : Event Chunk SendMeta} (he : e.input.Internal) :
    (step minInterval w e).sender.closed = w.sender.closed := by
  rcases internal_step w he with h | ⟨-, hc, -⟩
  · exact h.closed_eq
  · exact hc

/-- A submission is ignored, or it fills the slot and a drain may run. -/
theorem submit_cases (w : World Chunk SendMeta) (item : Chunk × SendMeta) (t : Clock) :
    w.sender.closed = true ∧ w.submit minInterval item t = w ∨
      ∃ v : World Chunk SendMeta, v.sender.pending = some item ∧ v.sender.closed = false ∧
        w.sender.closed = false ∧ v.trace = .submitted item :: w.trace ∧
        Taken v (w.submit minInterval item t) := by
  unfold World.submit
  split
  · next hclosed => exact Or.inl ⟨hclosed, rfl⟩
  · next hopen =>
      rw [Bool.not_eq_true] at hopen
      let v : World Chunk SendMeta := World.record
        { w with sender := { w.sender with pending := some item, pendingMeta := item.2 } }
        (.submitted item)
      exact Or.inr ⟨v, rfl, hopen, hopen, rfl, taken_startDrain v t⟩

/-- After a submission the slot has the submission or nothing. -/
theorem submit_pending (w : World Chunk SendMeta) (item : Chunk × SendMeta) (t : Clock) :
    ∀ item' ∈ (w.submit minInterval item t).sender.pending,
      (w.sender.closed = true ∧ item' ∈ w.sender.pending) ∨ item' = item := by
  intro item' hitem
  rcases submit_cases w item t with ⟨hclosed, heq⟩ | ⟨v, hpending, -, -, -, htaken⟩
  · rw [heq] at hitem
    exact Or.inl ⟨hclosed, hitem⟩
  · have hin := htaken.pending_subset item' hitem
    rw [hpending] at hin
    exact Or.inr (Option.some.inj hin).symm

theorem submit_closed (w : World Chunk SendMeta) (item : Chunk × SendMeta) (t : Clock) :
    (w.submit minInterval item t).sender.closed = w.sender.closed := by
  rcases submit_cases w item t with ⟨-, heq⟩ | ⟨v, -, hv, hw, -, htaken⟩
  · rw [heq]
  · rw [htaken.closed_eq, hv, hw]

end CoalescingSender
