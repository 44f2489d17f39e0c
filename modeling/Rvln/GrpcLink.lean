/-
# The links under the coalescing sender

`GrpcEdgeClient` of `edge_action_client.dart`, under the current sender of the
phone, and `WsEdgeClient` of `wsEdgeClient.ts`, under that of the browser.

The gRPC client hands a chunk to the request controller of its stream, which
keeps it while the channel is not connected; a stream that ends takes its
controller along, and the next `send` opens another.  The WebSocket client drops
a chunk while the socket is not open.  `Law` is what both should keep: at most
one chunk waits, and what goes out is of a current tick.
`law_iff_oneWaiting` says in which runs the gRPC client keeps it.
-/
import Rvln.ClientApp

namespace GrpcLink

open ClientApp

variable {Prompt Chunk : Type*}

/-! ## The gRPC client -/

/-- What `send` is called with. -/
abbrev Item (Prompt Chunk : Type*) : Type _ := Inferred Prompt Chunk × SendMeta

/-- A chunk in a controller, and the app's generation when it was put there. -/
structure Waiting (Prompt Chunk : Type*) where
  item : Item Prompt Chunk
  generation : ℕ

/-- A request controller; oldest chunk first. -/
structure Requests (Prompt Chunk : Type*) where
  id : ℕ
  buffer : List (Waiting Prompt Chunk)

/-- The attributes of `GrpcEdgeClient`. -/
structure GrpcEdgeClient (Prompt Chunk : Type*) where
  requests : Option (Requests Prompt Chunk)
  nextStream : ℕ

namespace GrpcEdgeClient

/-- `_ensureStream`. -/
def ensureStream (c : GrpcEdgeClient Prompt Chunk) : GrpcEdgeClient Prompt Chunk :=
  match c.requests with
  | some _ => c
  | none => { requests := some ⟨c.nextStream, []⟩, nextStream := c.nextStream + 1 }

/-- `connect`, of a new client. -/
def connect : GrpcEdgeClient Prompt Chunk :=
  ensureStream { requests := none, nextStream := 0 }

/-- `_dropStream`. -/
def dropStream (c : GrpcEdgeClient Prompt Chunk) (id : ℕ) : GrpcEdgeClient Prompt Chunk :=
  { c with requests := c.requests.filter fun r => r.id ≠ id }

/-- `send`. -/
def send (c : GrpcEdgeClient Prompt Chunk) (chunk : Waiting Prompt Chunk) :
    GrpcEdgeClient Prompt Chunk :=
  let c := c.ensureStream
  { c with requests := c.requests.map fun r => { r with buffer := r.buffer ++ [chunk] } }

/-- The chunks that were accepted and not handed to the network. -/
def waiting (c : GrpcEdgeClient Prompt Chunk) : List (Waiting Prompt Chunk) :=
  match c.requests with
  | none => []
  | some r => r.buffer

/-- The connected channel takes what the controller has. -/
def release (c : GrpcEdgeClient Prompt Chunk) : GrpcEdgeClient Prompt Chunk :=
  { c with requests := c.requests.map fun r => { r with buffer := [] } }

@[simp] theorem waiting_connect : (connect : GrpcEdgeClient Prompt Chunk).waiting = [] := rfl

@[simp] theorem waiting_ensureStream (c : GrpcEdgeClient Prompt Chunk) :
    c.ensureStream.waiting = c.waiting := by
  cases hr : c.requests <;> simp [ensureStream, waiting, hr]

@[simp] theorem waiting_send (c : GrpcEdgeClient Prompt Chunk) (chunk : Waiting Prompt Chunk) :
    (c.send chunk).waiting = c.waiting ++ [chunk] := by
  rw [← waiting_ensureStream c]
  have hsome : ∃ r, c.ensureStream.requests = some r := by
    unfold ensureStream
    split
    · next r hr => exact ⟨r, hr⟩
    · exact ⟨_, rfl⟩
  obtain ⟨r, hr⟩ := hsome
  simp [send, waiting, hr]

@[simp] theorem waiting_release (c : GrpcEdgeClient Prompt Chunk) : c.release.waiting = [] := by
  cases hr : c.requests <;> simp [release, waiting, hr]

/-- A stream that ends takes its chunks along, or was not the current one. -/
theorem waiting_dropStream (c : GrpcEdgeClient Prompt Chunk) (id : ℕ) :
    (c.dropStream id).waiting = [] ∨ (c.dropStream id).waiting = c.waiting := by
  cases hr : c.requests with
  | none => exact Or.inl (by simp [dropStream, waiting, hr])
  | some r =>
      by_cases hid : r.id = id
      · exact Or.inl (by simp [dropStream, waiting, hr, Option.filter, hid])
      · exact Or.inr (by simp [dropStream, waiting, hr, Option.filter, hid])

end GrpcEdgeClient

/-! ## The app on its link -/

/-- A chunk that was handed to the network, and the app's history at that time. -/
structure Handed (Prompt Chunk : Type*) where
  item : Item Prompt Chunk
  trace : List (Act Prompt)

/-- The chunk is of a tick after the newest goal change and pause. -/
def Handed.Fresh (h : Handed Prompt Chunk) : Prop :=
  Current h.item.1.tick h.item.1.goal h.trace

/-- The call of `client.send` that a step of the sender makes, if any: its newest
act. -/
def newSend (old new : List (CoalescingSender.Act (Inferred Prompt Chunk) SendMeta)) :
    Option (Item Prompt Chunk) :=
  match new with
  | .sendStarted item _ :: rest => if old.length ≤ rest.length then some item else none
  | _ => none

/-- The history of the current sender. -/
def sends (w : ClientApp.World Prompt Chunk) :
    List (CoalescingSender.Act (Inferred Prompt Chunk) SendMeta) :=
  (w.senders w.current).trace

/-- The app, its client, whether the channel is connected, and what was handed to
the network. -/
structure World (Prompt Chunk : Type*) where
  app : ClientApp.World Prompt Chunk
  client : GrpcEdgeClient Prompt Chunk
  up : Bool
  handed : List (Handed Prompt Chunk)

/-- What happens to the app and to the link. -/
inductive Event (Prompt Chunk : Type*)
  | app (e : ClientApp.Event Prompt Chunk)
  | linkUp
  | linkDown
  | streamEnded (id : ℕ)

namespace World

/-- The app with a new client. -/
def new (app : ClientApp.World Prompt Chunk) : World Prompt Chunk where
  app := app
  client := .connect
  up := false
  handed := []

/-- While the channel is connected, the network takes what waits. -/
def handOver (w : World Prompt Chunk) : World Prompt Chunk :=
  if w.up then
    { w with
      client := w.client.release
      handed := w.client.waiting.reverse.map (fun x => ⟨x.item, w.app.trace⟩) ++ w.handed }
  else w

end World

section

variable [DecidableEq Prompt] (minInterval : ℤ)

/-- The app after an event of its own. -/
def appStep (app : App) (w : ClientApp.World Prompt Chunk) (e : ClientApp.Event Prompt Chunk) :
    ClientApp.World Prompt Chunk :=
  (ClientApp.machine app minInterval).next w e

/-- The chunk that an event of the app makes the current sender send. -/
def sent (app : App) (w : ClientApp.World Prompt Chunk) (e : ClientApp.Event Prompt Chunk) :
    Option (Item Prompt Chunk) :=
  newSend (sends w) (sends (appStep minInterval app w e))

/-- The step of an event. -/
def step (w : World Prompt Chunk) : Event Prompt Chunk → World Prompt Chunk
  | .app e =>
      let app := appStep minInterval .phone w.app e
      match sent minInterval .phone w.app e with
      | none => { w with app := app }
      | some item =>
          World.handOver { w with app := app, client := w.client.send ⟨item, app.generation⟩ }
  | .linkUp => World.handOver { w with up := true }
  | .linkDown => { w with up := false }
  | .streamEnded id => { w with client := w.client.dropStream id }

/-- The phone from `start` on, with one connection. -/
def machine (start : ClientApp.World Prompt Chunk) :
    Machine (World Prompt Chunk) (Event Prompt Chunk) where
  Init w := w = World.new start
  Guard w
    | .app e => (ClientApp.machine .phone minInterval).Guard w.app e ∧ e.input.KeepsSender
    | _ => True
  next := step minInterval

end

/-! ## The law -/

/-- At most one chunk waits, and what went out was fresh. -/
structure Law (w : World Prompt Chunk) : Prop where
  one : w.client.waiting.length ≤ 1
  fresh : ∀ h ∈ w.handed, h.Fresh

/-- No chunk is sent while another waits and the link is down, and none waits
across a goal change or a pause until the link is up. -/
def OneWaiting [DecidableEq Prompt] (minInterval : ℤ) (w : World Prompt Chunk) :
    Event Prompt Chunk → Prop
  | .app e => (sent minInterval .phone w.app e).isSome → w.up = true ∨ w.client.waiting = []
  | .linkUp => ∀ x ∈ w.client.waiting, x.generation = w.app.generation
  | _ => True

/-! ## What a step of the app sends -/

section

variable {minInterval : ℤ} {w : ClientApp.World Prompt Chunk}

theorem newSend_self (old : List (CoalescingSender.Act (Inferred Prompt Chunk) SendMeta)) :
    newSend old old = none := by
  unfold newSend
  split
  · next item time rest =>
      rw [if_neg]
      simp
  · rfl

/-- A step of the sender's drain sends what was in the slot. -/
theorem newSend_taken {s s' : Sender Prompt Chunk} (h : CoalescingSender.Taken s s')
    {item : Item Prompt Chunk} (hsend : newSend s.trace s'.trace = some item) :
    s.sender.pending = some item ∧ s.sender.closed = false := by
  rcases h with ⟨-, -, htrace⟩ | ⟨item', time, hpending, hclosed, -, -, htrace⟩
  · rw [htrace, newSend_self] at hsend
    cases hsend
  · rw [htrace, newSend, if_pos (le_refl _)] at hsend
    cases hsend
    exact ⟨hpending, hclosed⟩

theorem newSend_internal {s : Sender Prompt Chunk}
    {e : CoalescingSender.Event (Inferred Prompt Chunk) SendMeta} (he : e.input.Internal)
    {item : Item Prompt Chunk}
    (hsend : newSend s.trace (CoalescingSender.step minInterval s e).trace = some item) :
    s.sender.pending = some item ∧ s.sender.closed = false := by
  rcases CoalescingSender.internal_step s he with h | ⟨-, -, act, htrace, rfl | rfl⟩
  · exact newSend_taken h hsend
  · rw [htrace] at hsend
    cases hsend
  · rw [htrace] at hsend
    cases hsend

/-- A submission that is sent at once. -/
theorem newSend_submit {s : Sender Prompt Chunk} {item item' : Item Prompt Chunk}
    {clock : CoalescingSender.Clock}
    (hsend : newSend s.trace (s.submit minInterval item clock).trace = some item') :
    item' = item := by
  rcases CoalescingSender.submit_cases s item clock with ⟨-, heq⟩ | ⟨v, hv, -, -, htrace, htaken⟩
  · rw [heq, newSend_self] at hsend
    cases hsend
  · rcases htaken with ⟨-, -, htrace'⟩ | ⟨item'', time, hpending, -, -, -, htrace'⟩
    · rw [htrace', htrace] at hsend
      cases hsend
    · rw [htrace', htrace, newSend, if_pos (by simp)] at hsend
      rw [hv] at hpending
      cases hsend
      exact (Option.some.inj hpending).symm

theorem newSend_clearPending (w : ClientApp.World Prompt Chunk) (clock : CoalescingSender.Clock) :
    newSend (w.senders w.current).trace
      ((w.call minInterval w.current .clearPending clock).senders w.current).trace = none := by
  rw [call_senders]
  rfl

/-- **What a step of the app sends is of a current tick.** -/
theorem sent_current [DecidableEq Prompt] (app : App) (h : ClientApp.Inv w)
    {e : ClientApp.Event Prompt Chunk} (hguard : (ClientApp.machine app minInterval).Guard w e)
    (hkeeps : e.input.KeepsSender) {item : Item Prompt Chunk}
    (hsent : sent minInterval app w e = some item) :
    Current item.1.tick item.1.goal (appStep minInterval app w e).trace := by
  obtain ⟨input, clock⟩ := e
  obtain ⟨-, -, henabled⟩ := hguard
  change newSend (sends w) (sends (ClientApp.step app minInterval w ⟨input, clock⟩)) = _ at hsent
  change Current item.1.tick item.1.goal (ClientApp.step app minInterval w ⟨input, clock⟩).trace
  have hself : newSend (sends w) (sends w) ≠ some item := by
    rw [newSend_self]
    exact fun heq => by cases heq
  cases input with
  | tick frameReady =>
      simp only [ClientApp.step, World.tick] at hsent
      split at hsent
      · exact absurd hsent hself
      · split at hsent <;> exact absurd hsent hself
  | inferred t result =>
      have hdone := h.tickDone henabled
      simp only [ClientApp.step, World.inferred] at hsent ⊢
      split at hsent
      · exact absurd hsent hself
      · next chunk =>
          split at hsent
          · exact absurd hsent hself
          · next hnot =>
              -- the tick passed the test of its generation, so it is a current one
              rw [Bool.not_eq_true] at hnot
              obtain ⟨hcur, -⟩ := (h.fresh t henabled).2 (generation_of_not_superseded hnot)
              rw [if_neg (by rw [hnot]; exact Bool.false_ne_true)]
              change newSend (sends w) ((World.call minInterval _ w.current _ clock).senders
                w.current).trace = some item at hsent
              rw [call_senders] at hsent
              have hitem := newSend_submit hsent
              subst hitem
              exact hcur.cons trivial
  | setGoal goal =>
      cases (newSend_clearPending { w with generation := w.generation + 1 } clock).symm.trans hsent
  | toggleRunning =>
      simp only [ClientApp.step, World.toggleRunning] at hsent
      split at hsent
      · exact absurd hsent hself
      · cases (newSend_clearPending { w with generation := w.generation + 1 } clock).symm.trans
          hsent
  | appPaused =>
      cases (newSend_clearPending { w with generation := w.generation + 1 } clock).symm.trans hsent
  | request toPi => exact hkeeps.elim
  | oldClosed r => exact hkeeps.elim
  | dispose => exact hkeeps.elim
  | sender id input =>
      change newSend (w.senders w.current).trace
        ((w.call minInterval id input clock).senders w.current).trace = some item at hsent
      -- the drain of the current sender, or one that is being closed
      by_cases hid : w.current = id
      · subst hid
        rw [call_senders] at hsent
        obtain ⟨hpending, hopen⟩ := newSend_internal henabled.2.1 hsent
        exact (h.pending hopen item hpending).1
      · rw [call_senders_of_ne hid] at hsent
        exact absurd hsent hself

end

/-! ## The invariant of the link -/

/-- A waiting chunk is of a tick that started, and fresh as long as the generation
is the one it was sent in. -/
structure Tracked (app : ClientApp.World Prompt Chunk) (x : Waiting Prompt Chunk) : Prop where
  numbered : x.item.1.tick < app.nextTick
  le : x.generation ≤ app.generation
  current : Current x.item.1.tick x.item.1.goal app.trace ↔ x.generation = app.generation

theorem Tracked.moves {app app' : ClientApp.World Prompt Chunk} {x : Waiting Prompt Chunk}
    (h : Tracked app x) (hmoves : Moves app app') : Tracked app' x := by
  have hcur := hmoves.current_iff h.numbered x.item.1.goal
  rw [h.current] at hcur
  have hle := h.le
  have hnum := h.numbered
  refine ⟨?_, ?_, hcur.trans ?_⟩ <;>
    rcases hmoves with ⟨-, hg, hn⟩ | ⟨_, -, hg, hn⟩ | ⟨_, _, -, hg, hn⟩ | ⟨_, -, -, hg, hn⟩ <;>
    omega

/-- What the link keeps while every step meets the condition. -/
structure Inv (w : World Prompt Chunk) : Prop where
  law : Law w
  app : ClientApp.Inv w.app
  numbered : Numbered w.app
  tracked : ∀ x ∈ w.client.waiting, Tracked w.app x
  released : w.up = true → w.client.waiting = []

section

variable {w : World Prompt Chunk}

/-- What waits is handed over, if it is fresh. -/
theorem law_handOver (hone : w.client.waiting.length ≤ 1) (hfresh : ∀ h ∈ w.handed, h.Fresh)
    (hwaiting : w.up = true → ∀ x ∈ w.client.waiting,
      Current x.item.1.tick x.item.1.goal w.app.trace) : Law w.handOver := by
  unfold World.handOver
  split
  · next hup =>
      refine ⟨by simp, ?_⟩
      intro h hmem
      rcases List.mem_append.mp hmem with hmem | hmem
      · obtain ⟨x, hx, rfl⟩ := List.mem_map.mp hmem
        exact hwaiting hup x (List.mem_reverse.mp hx)
      · exact hfresh h hmem
  · exact ⟨hone, hfresh⟩

theorem handOver_app (w : World Prompt Chunk) : w.handOver.app = w.app := by
  unfold World.handOver
  split <;> rfl

theorem handOver_waiting (w : World Prompt Chunk) :
    w.handOver.client.waiting = if w.up then [] else w.client.waiting := by
  unfold World.handOver
  split <;> simp

theorem handOver_up (w : World Prompt Chunk) : w.handOver.up = w.up := by
  unfold World.handOver
  split <;> rfl

/-- After the hand-over nothing waits while the channel is connected. -/
theorem inv_handOver (hlaw : Law w.handOver) (happ : ClientApp.Inv w.app)
    (hnumbered : Numbered w.app) (htracked : ∀ x ∈ w.client.waiting, Tracked w.app x) :
    Inv w.handOver where
  law := hlaw
  app := by
    rw [handOver_app]
    exact happ
  numbered := by
    rw [handOver_app]
    exact hnumbered
  tracked x hx := by
    rw [handOver_app]
    rw [handOver_waiting] at hx
    split at hx
    · exact absurd hx List.not_mem_nil
    · exact htracked x hx
  released hup := by
    rw [handOver_up] at hup
    rw [handOver_waiting, if_pos hup]

end

/-! ## The runs that keep the law -/

section

variable [DecidableEq Prompt] {minInterval : ℤ} {w : World Prompt Chunk}

/-- The app's part of a step. -/
structure AppStep (minInterval : ℤ) (w : World Prompt Chunk) (e : ClientApp.Event Prompt Chunk) :
    Prop where
  app : ClientApp.Inv (appStep minInterval .phone w.app e)
  numbered : Numbered (appStep minInterval .phone w.app e)
  tracked : ∀ x ∈ w.client.waiting, Tracked (appStep minInterval .phone w.app e) x
  sent : ∀ item, sent minInterval .phone w.app e = some item →
    Tracked (appStep minInterval .phone w.app e)
      ⟨item, (appStep minInterval .phone w.app e).generation⟩ ∧
    Current item.1.tick item.1.goal (appStep minInterval .phone w.app e).trace

theorem Inv.appStep (h : Inv w) {e : ClientApp.Event Prompt Chunk}
    (hguard : (ClientApp.machine .phone minInterval).Guard w.app e)
    (hkeeps : e.input.KeepsSender) : AppStep minInterval w e := by
  have hmoves : Moves w.app (GrpcLink.appStep minInterval .phone w.app e) :=
    (moves_step .phone w.app hkeeps).1
  have hnumbered := hmoves.numbered h.numbered
  refine ⟨(inv_invariant .phone minInterval).step w.app e h.app hguard, hnumbered,
    fun x hx => (h.tracked x hx).moves hmoves, fun item hsent => ?_⟩
  have hcur := sent_current .phone h.app hguard hkeeps hsent
  exact ⟨⟨hnumbered _ _ (History.Since.mem hcur), le_refl _, iff_of_true hcur rfl⟩, hcur⟩

/-- A step under the condition. -/
theorem inv_step (h : Inv w) {e : Event Prompt Chunk} {start : ClientApp.World Prompt Chunk}
    (hguard : (machine minInterval start).Guard w e) (hcond : OneWaiting minInterval w e) :
    Inv (step minInterval w e) := by
  cases e with
  | app e =>
      have happ := h.appStep hguard.1 hguard.2
      simp only [step]
      split
      · refine ⟨⟨h.law.one, h.law.fresh⟩, happ.app, happ.numbered, happ.tracked, h.released⟩
      · next item hsent =>
          obtain ⟨htracked, hcur⟩ := happ.sent item hsent
          -- the chunk that is sent is the only one that waits
          have hempty : w.client.waiting = [] := by
            rcases hcond (by rw [hsent]; rfl) with hup | hempty
            · exact h.released hup
            · exact hempty
          refine inv_handOver (law_handOver ?_ h.law.fresh ?_) happ.app happ.numbered ?_ <;>
            simp only [GrpcEdgeClient.waiting_send, hempty, List.nil_append, List.mem_singleton]
          · simp
          · rintro - x rfl
            exact hcur
          · rintro x rfl
            exact htracked
  | linkUp =>
      refine inv_handOver (law_handOver h.law.one h.law.fresh ?_) h.app h.numbered h.tracked
      intro _ x hx
      exact (h.tracked x hx).current.mpr (hcond x hx)
  | linkDown =>
      exact ⟨⟨h.law.one, h.law.fresh⟩, h.app, h.numbered, h.tracked, fun hup => by cases hup⟩
  | streamEnded id =>
      rcases w.client.waiting_dropStream id with hnil | hsame
      · refine ⟨⟨?_, h.law.fresh⟩, h.app, h.numbered, ?_, fun _ => hnil⟩
        · simp [step, hnil]
        · intro x hx
          simp [step, hnil] at hx
      · refine ⟨⟨?_, h.law.fresh⟩, h.app, h.numbered, ?_, fun hup => hsame.trans (h.released hup)⟩
        · simpa [step, hsame] using h.law.one
        · intro x hx
          simp only [step, hsame] at hx
          exact h.tracked x hx

/-- A step that keeps the law meets the condition. -/
theorem oneWaiting_of_law (h : Inv w) {e : Event Prompt Chunk}
    (hlaw : Law (step minInterval w e)) : OneWaiting minInterval w e := by
  cases e with
  | app e =>
      intro hsome
      obtain ⟨item, hitem⟩ := Option.isSome_iff_exists.mp hsome
      by_contra hnot
      rw [not_or, Bool.not_eq_true] at hnot
      have hone := hlaw.one
      have hlength := List.length_pos_iff.mpr hnot.2
      simp only [step, hitem, handOver_waiting, hnot.1, GrpcEdgeClient.waiting_send,
        Bool.false_eq_true, if_false, List.length_append, List.length_singleton] at hone
      omega
  | linkUp =>
      intro x hx
      rw [← (h.tracked x hx).current]
      refine hlaw.fresh ⟨x.item, w.app.trace⟩ ?_
      simp only [step, World.handOver, if_true]
      refine List.mem_append_left _ (List.mem_map.mpr ⟨x, List.mem_reverse.mpr hx, rfl⟩)
  | linkDown => trivial
  | streamEnded id => trivial

/-- **When the phone's link keeps the law**: all along a run, from a reachable
state of the app in which the client is new, exactly if no chunk is sent while
another waits for the link, and none waits across a goal change or a pause until
the link is up. -/
theorem law_iff_oneWaiting {start : ClientApp.World Prompt Chunk}
    (hstart : (ClientApp.machine .phone minInterval).Reachable start)
    {es : List (Event Prompt Chunk)} (h : (machine minInterval start).Run es w) :
    (∀ fs v, fs <+: es → (machine minInterval start).Run fs v → Law v) ↔
      ((machine minInterval start).restrict (OneWaiting minInterval)).Run es w := by
  refine Machine.restrict_run_iff (J := Inv) ?_ ⟨?_, ?_⟩ (fun _ hj => hj.law) ?_ h
  · rintro _ _ rfl rfl
    rfl
  · rintro _ rfl
    refine ⟨⟨Nat.zero_le 1, fun _ hmem => absurd hmem List.not_mem_nil⟩,
      (inv_invariant .phone minInterval).of_reachable hstart,
      (numbered_invariant .phone minInterval).of_reachable hstart, ?_, fun _ => rfl⟩
    exact fun _ hx => absurd hx List.not_mem_nil
  · exact fun v e hj hguard => inv_step hj hguard.1 hguard.2
  · exact fun v e hj _ hlaw => oneWaiting_of_law hj hlaw

end

/-! ## The WebSocket client -/

/-- The browser's app, whether the socket is open, and what was sent on it. -/
structure WsWorld (Prompt Chunk : Type*) where
  app : ClientApp.World Prompt Chunk
  isOpen : Bool
  handed : List (Handed Prompt Chunk)

/-- What happens to the app and to its socket. -/
inductive WsEvent (Prompt Chunk : Type*)
  | app (e : ClientApp.Event Prompt Chunk)
  | onopen
  | onclose

section

variable [DecidableEq Prompt] {minInterval : ℤ}

/-- `send` of `WsEdgeClient`: what is sent while the socket is not open is dropped. -/
def WsWorld.send (w : WsWorld Prompt Chunk) (item : Item Prompt Chunk) : WsWorld Prompt Chunk :=
  if w.isOpen then { w with handed := ⟨item, w.app.trace⟩ :: w.handed } else w

/-- The browser from `start` on, with one connection. -/
def wsMachine (minInterval : ℤ) (start : ClientApp.World Prompt Chunk) :
    Machine (WsWorld Prompt Chunk) (WsEvent Prompt Chunk) where
  Init w := w = ⟨start, false, []⟩
  Guard w
    | .app e => (ClientApp.machine .browser minInterval).Guard w.app e ∧ e.input.KeepsSender
    | _ => True
  next w
    | .app e =>
        let app := appStep minInterval .browser w.app e
        match sent minInterval .browser w.app e with
        | none => { w with app := app }
        | some item => WsWorld.send { w with app := app } item
    | .onopen => { w with isOpen := true }
    | .onclose => { w with isOpen := false }

/-- The browser's link keeps the law in every run: nothing waits, and what goes out
is fresh. -/
theorem ws_fresh {start : ClientApp.World Prompt Chunk}
    (hstart : (ClientApp.machine .browser minInterval).Reachable start)
    {es : List (WsEvent Prompt Chunk)} {w : WsWorld Prompt Chunk}
    (h : (wsMachine minInterval start).Run es w) : ∀ h ∈ w.handed, h.Fresh := by
  have hinv : (wsMachine minInterval start).Invariant
      fun w => ClientApp.Inv w.app ∧ ∀ h ∈ w.handed, h.Fresh := by
    constructor
    · rintro _ rfl
      exact ⟨(inv_invariant .browser minInterval).of_reachable hstart,
        fun _ hmem => absurd hmem List.not_mem_nil⟩
    · rintro w e ⟨happ, hfresh⟩ hguard
      cases e with
      | app e =>
          have happ' : ClientApp.Inv (appStep minInterval .browser w.app e) :=
            (inv_invariant .browser minInterval).step w.app e happ hguard.1
          simp only [wsMachine]
          split
          · exact ⟨happ', hfresh⟩
          · next item hsent =>
              have hcur := sent_current .browser happ hguard.1 hguard.2 hsent
              unfold WsWorld.send
              split
              · refine ⟨happ', fun h hmem => ?_⟩
                rcases List.mem_cons.mp hmem with rfl | hmem
                · exact hcur
                · exact hfresh h hmem
              · exact ⟨happ', hfresh⟩
      | onopen => exact ⟨happ, hfresh⟩
      | onclose => exact ⟨happ, hfresh⟩
  exact (hinv.of_run h).2

end

/-! ## A backlog -/

/-- Two ticks send their chunks while the link is down. -/
def backlog : List (Event Unit ℕ) :=
  [.app ⟨.setGoal ⟨"a", ()⟩, ⟨1000, 1000⟩⟩, .app ⟨.tick true, ⟨1000, 1000⟩⟩,
    .app ⟨.inferred ⟨0, ⟨"a", ()⟩, 1⟩ (.ok 7), ⟨1010, 1010⟩⟩,
    .app ⟨.sender 0 (.settle 0 none), ⟨1010, 1010⟩⟩,
    .app ⟨.sender 0 (.resume 0 none), ⟨1010, 1010⟩⟩,
    .app ⟨.sender 0 (.drained 0), ⟨1010, 1010⟩⟩, .app ⟨.tick true, ⟨1500, 1500⟩⟩,
    .app ⟨.inferred ⟨1, ⟨"a", ()⟩, 1⟩ (.ok 8), ⟨1510, 1510⟩⟩]

/-- The goal changes, and the link comes up. -/
def release : List (Event Unit ℕ) :=
  [.app ⟨.setGoal ⟨"b", ()⟩, ⟨2000, 2000⟩⟩, .linkUp]

/-- The app with a new client. -/
def start : ClientApp.World Unit ℕ := ClientApp.World.new 1000

theorem start_reachable : (ClientApp.machine .phone 100).Reachable start :=
  ⟨[], .init ⟨1000, rfl⟩⟩

theorem backlog_enabled : (machine 100 start).Enabled (World.new start) backlog := by
  refine ⟨⟨⟨by decide, by decide, rfl⟩, trivial⟩, ⟨⟨by decide, by decide, rfl⟩, trivial⟩,
    ⟨⟨by decide, by decide, ?_⟩, trivial⟩,
    ⟨⟨by decide, by decide, by decide, trivial, ?_⟩, trivial⟩,
    ⟨⟨by decide, by decide, by decide, trivial, ?_⟩, trivial⟩,
    ⟨⟨by decide, by decide, by decide, trivial, ?_⟩, trivial⟩,
    ⟨⟨by decide, by decide, rfl⟩, trivial⟩, ⟨⟨by decide, by decide, ?_⟩, trivial⟩, trivial⟩ <;>
    exact List.mem_singleton.mpr rfl

theorem backlog_run : (machine 100 start).Run backlog
    ((machine 100 start).exec (World.new start) backlog) :=
  Machine.run_of_enabled rfl backlog_enabled

/-- Both chunks wait, and both go out after the goal has changed. -/
theorem stale_chunks_released :
    (∃ w, (machine 100 start).Run backlog w ∧ w.client.waiting.length = 2) ∧
      ∃ w, (machine 100 start).Run (backlog ++ release) w ∧ w.handed.length = 2 ∧
        ∀ h ∈ w.handed, ¬ h.Fresh := by
  have hrelease : (machine 100 start).Enabled
      ((machine 100 start).exec (World.new start) backlog) release :=
    ⟨⟨⟨by decide, by decide, rfl⟩, trivial⟩, trivial, trivial⟩
  refine ⟨⟨_, backlog_run, rfl⟩, _, backlog_run.exec release hrelease, rfl, ?_⟩
  intro h hmem
  have htrace : h.trace.head? = some (.goalSet ⟨"b", ()⟩) := by
    rcases List.mem_cons.mp hmem with rfl | hmem
    · rfl
    · rcases List.mem_singleton.mp hmem with rfl
      rfl
  obtain ⟨older, holder⟩ := List.head?_eq_some_iff.mp htrace
  rw [Handed.Fresh, holder]
  rintro (heq | ⟨hquiet, -⟩)
  · cases heq
  · exact hquiet

/-- With the link up, the same two chunks go out one by one. -/
theorem law_iff_oneWaiting_up :
    ∃ w, (machine 100 start).Run (.linkUp :: backlog) w ∧ w.handed.length = 2 ∧ Law w := by
  have henabled : ((machine 100 start).restrict (OneWaiting 100)).Enabled (World.new start)
      (.linkUp :: backlog) := by
    refine ⟨⟨trivial, ?_⟩, ⟨⟨⟨by decide, by decide, rfl⟩, trivial⟩, fun _ => Or.inl rfl⟩,
      ⟨⟨⟨by decide, by decide, rfl⟩, trivial⟩, fun _ => Or.inl rfl⟩,
      ⟨⟨⟨by decide, by decide, ?_⟩, trivial⟩, fun _ => Or.inl rfl⟩,
      ⟨⟨⟨by decide, by decide, by decide, trivial, ?_⟩, trivial⟩, fun _ => Or.inl rfl⟩,
      ⟨⟨⟨by decide, by decide, by decide, trivial, ?_⟩, trivial⟩, fun _ => Or.inl rfl⟩,
      ⟨⟨⟨by decide, by decide, by decide, trivial, ?_⟩, trivial⟩, fun _ => Or.inl rfl⟩,
      ⟨⟨⟨by decide, by decide, rfl⟩, trivial⟩, fun _ => Or.inl rfl⟩,
      ⟨⟨⟨by decide, by decide, ?_⟩, trivial⟩, fun _ => Or.inl rfl⟩, trivial⟩
    · exact fun x hx => absurd hx List.not_mem_nil
    all_goals exact List.mem_singleton.mpr rfl
  have hrun := Machine.run_of_enabled (M := (machine 100 start).restrict (OneWaiting 100)) rfl
    henabled
  exact ⟨_, hrun.of_restrict, rfl,
    (law_iff_oneWaiting start_reachable hrun.of_restrict).mpr hrun _ _ (List.prefix_refl _)
      hrun.of_restrict⟩

end GrpcLink
