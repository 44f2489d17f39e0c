/-
# Requests, replies and the chunk queue of the executor

A request, the future of its inference and the token that names it are set
together, and cleared in different callbacks; the queue is filled from the text
of an accepted reply and emptied in others.  What ties them together is the
generation, which every goal change, forced stop and failure raises.

`Proper` says what the history is like at every request and every start:

* a request is made with an empty queue;
* a reply starts its primitive in the generation of its request, as the server
  answered that request, and nothing was started by a reply since;
* a start of the queue is the next action of the newest accepted text, in the
  generation in which that text was accepted;
* the cycle carries out what is started (`CarriesOut`), and what is printed is
  what was started.

What the cycle carries out at any time is the newest start, or the rest of its
turn (`BusyWith`), and without another start it only goes on with that (`Onward`).
`Calm` is what everything but the reply, the queue's start and the request can do
to these.
-/
import Rvln.NavidaSteps

/-! ## The generation -/

namespace StepCycle

variable {K : Type*}

/-- The generation is the same, and so are the stop and the fault; or it has been
raised. -/
def Progress (c c' : StepCycle K) : Prop :=
  (c'.generation = c.generation ∧ c'.stopped = c.stopped ∧ c'.fault = c.fault) ∨
    c.generation < c'.generation

theorem Progress.refl (c : StepCycle K) : c.Progress c := Or.inl ⟨rfl, rfl, rfl⟩

theorem Progress.trans {c c' c'' : StepCycle K} (h : c.Progress c') (h' : c'.Progress c'') :
    c.Progress c'' := by
  rcases h with ⟨hgen, hstop, hfault⟩ | hlt <;> rcases h' with ⟨hgen', hstop', hfault'⟩ | hlt'
  · exact Or.inl ⟨hgen'.trans hgen, hstop'.trans hstop, hfault'.trans hfault⟩
  · exact Or.inr (by omega)
  · exact Or.inr (by omega)
  · exact Or.inr (by omega)

theorem Progress.le {c c' : StepCycle K} (h : c.Progress c') : c.generation ≤ c'.generation := by
  rcases h with ⟨hgen, -, -⟩ | hlt
  · exact hgen.ge
  · exact hlt.le

/-- What a call does to the pending request: nothing, or it clears it. -/
def Clears (c c' : StepCycle K) : Prop :=
  c'.pending = none ∨ c'.pending = c.pending ∧ c'.generation = c.generation

theorem Clears.trans {c c' c'' : StepCycle K} (h : c.Clears c') (h' : c'.Clears c'') :
    c.Clears c'' := by
  rcases h' with hnone | ⟨hpending', hgen'⟩
  · exact Or.inl hnone
  · rcases h with hnone | ⟨hpending, hgen⟩
    · exact Or.inl (hpending'.trans hnone)
    · exact Or.inr ⟨hpending'.trans hpending, hgen'.trans hgen⟩

/-- A call that neither raises the generation nor sets a request. -/
structure Steady (c c' : StepCycle K) : Prop where
  generation : c'.generation = c.generation
  stopped : c'.stopped = c.stopped
  fault : c'.fault = c.fault
  pending : c'.pending = none ∨ c'.pending = c.pending

theorem Steady.refl (c : StepCycle K) : c.Steady c := ⟨rfl, rfl, rfl, Or.inr rfl⟩

theorem Steady.progress {c c' : StepCycle K} (h : c.Steady c') : c.Progress c' :=
  Or.inl ⟨h.generation, h.stopped, h.fault⟩

theorem Steady.clears {c c' : StepCycle K} (h : c.Steady c') : c.Clears c' :=
  h.pending.imp id fun hpending => ⟨hpending, h.generation⟩

section

variable [Field K]

/-- The cycle has begun to carry out a primitive: it is the action in progress, or
there is nothing to do but to settle. -/
def CarriesOut [DecidableEq K] (c : StepCycle K) (action : NavidaAction K) : Prop :=
  if action.distance = 0 ∧ action.angle = 0 then c.action = none ∧ c.settling = true
  else c.action = some action

/-- The cycle is busy with the primitive that was started, or with the rest of its
turn. -/
structure BusyWith (c : StepCycle K) (started : Option (NavidaAction K)) : Prop where
  action : ∀ a ∈ c.action, ∃ s ∈ started, a = s ∨ a = ⟨0, s.angle⟩
  target : ∀ t ∈ c.turnTarget, ∃ s ∈ started, t = s.angle

/-- A call that goes on with what was started, or ends it. -/
def Continues (c c' : StepCycle K) : Prop := ∀ started, c.BusyWith started → c'.BusyWith started

/-- An idle cycle is busy with nothing. -/
theorem busyWith_idle {c : StepCycle K} (haction : c.action = none) (htarget : c.turnTarget = none)
    (started : Option (NavidaAction K)) : c.BusyWith started where
  action := by
    intro a ha
    rw [haction] at ha
    cases ha
  target := by
    intro t ht
    rw [htarget] at ht
    cases ht

/-- The action and the target of the turn stay, or are dropped. -/
theorem continues_of {c c' : StepCycle K} (haction : c'.action = none ∨ c'.action = c.action)
    (htarget : c'.turnTarget = none ∨ c'.turnTarget = c.turnTarget) : c.Continues c' := by
  intro started h
  refine ⟨fun a ha => ?_, fun t ht => ?_⟩
  · rcases haction with hnone | hsame
    · rw [hnone] at ha
      cases ha
    · exact h.action a (hsame ▸ ha)
  · rcases htarget with hnone | hsame
    · rw [hnone] at ht
      cases ht
    · exact h.target t (hsame ▸ ht)

theorem Continues.refl (c : StepCycle K) : c.Continues c := fun _ h => h

/-- `cancel` ends what is in progress. -/
theorem continues_cancel (c : StepCycle K) (nowNs : ℤ) (now : K) (stopped : Bool) :
    c.Continues (c.cancel nowNs now stopped) :=
  continues_of (Or.inl rfl) (Or.inl rfl)

/-- So does `fail`. -/
theorem continues_fail (c : StepCycle K) (reason : String) (now : K) (nowNs : ℤ) :
    c.Continues (c.fail reason now nowNs) :=
  continues_of (Or.inl rfl) (Or.inl rfl)

/-- `cancel` raises the generation and clears the request. -/
theorem generation_cancel (c : StepCycle K) (nowNs : ℤ) (now : K) (stopped : Bool) :
    c.generation < (c.cancel nowNs now stopped).generation ∧
      (c.cancel nowNs now stopped).pending = none :=
  ⟨Nat.lt_succ_self _, rfl⟩

/-- So does `fail`. -/
theorem generation_fail (c : StepCycle K) (reason : String) (now : K) (nowNs : ℤ) :
    c.generation < (c.fail reason now nowNs).generation ∧
      (c.fail reason now nowNs).pending = none :=
  ⟨Nat.lt_succ_self _, rfl⟩

variable [LinearOrder K] {c : StepCycle K} {now : K} {nowNs : ℤ}

omit [LinearOrder K] in
/-- A command is steady, or it fails. -/
theorem Commanded.steady {motionEnabled : Bool} {r : StepCycle K × K × K}
    (h : Commanded c now nowNs motionEnabled r) :
    c.Steady r.1 ∨ ∃ reason, r.1 = c.fail reason now nowNs := by
  cases h with
  | failed reason => exact Or.inr ⟨reason, rfl⟩
  | _ => exact Or.inl ⟨rfl, rfl, rfl, Or.inr rfl⟩

omit [LinearOrder K] in
/-- A command goes on with what is in progress, or ends it. -/
theorem Commanded.continues {motionEnabled : Bool} {r : StepCycle K × K × K}
    (h : Commanded c now nowNs motionEnabled r) : c.Continues r.1 := by
  cases h with
  | idle => exact .refl c
  | failed reason => exact continues_fail c reason now nowNs
  | held => exact continues_of (Or.inr rfl) (Or.inr rfl)
  | arrived => exact continues_of (Or.inl rfl) (Or.inr rfl)
  | moved => exact continues_of (Or.inr rfl) (Or.inr rfl)

/-- **A start carries out its primitive.** -/
theorem Started.carriesOut {action : NavidaAction K} {r : StepCycle K × Bool}
    (h : Started c action now nowNs r) (hstarted : r.2 = true) :
    r.1.CarriesOut action ∧ r.1.BusyWith (some action) := by
  have htarget : ∀ t ∈ (c.engage action now).turnTarget, ∃ s ∈ some action, t = s.angle := by
    intro t ht
    show ∃ s ∈ some action, t = s.angle
    have ht : (if action.angle = 0 then none else some action.angle) = some t := ht
    split at ht
    · cases ht
    · exact ⟨action, rfl, (Option.some.inj ht).symm⟩
  cases h with
  | refused => cases hstarted
  | settles _ hzero => exact ⟨(if_pos hzero).mpr ⟨rfl, rfl⟩, fun a ha => (by cases ha), htarget⟩
  | engaged _ hmoves =>
      refine ⟨(if_neg hmoves).mpr rfl, fun a ha => ⟨action, rfl, Or.inl ?_⟩, htarget⟩
      exact (Option.some.inj ha).symm

/-- A start is steady, and starts only a cycle that is not stopped. -/
theorem Started.steady {action : NavidaAction K} {r : StepCycle K × Bool}
    (h : Started c action now nowNs r) :
    c.Steady r.1 ∧ (r.2 = true → c.stopped = false) ∧ (r.2 = false → r.1 = c) := by
  cases h with
  | refused => exact ⟨.refl c, fun h => Bool.noConfusion h, fun _ => rfl⟩
  | settles hstop =>
      exact ⟨⟨rfl, rfl, rfl, Or.inr rfl⟩, fun _ => hstop, fun h => Bool.noConfusion h⟩
  | engaged hstop =>
      exact ⟨⟨rfl, rfl, rfl, Or.inr rfl⟩, fun _ => hstop, fun h => Bool.noConfusion h⟩

/-- What a request is issued with. -/
theorem request_token {c' : StepCycle K} {frameId captureNs : ℤ} {token : Request}
    (h : c.request frameId captureNs now nowNs = .ok (c', token)) :
    token.frameId = frameId ∧ token.generation = c.generation ∧
      c' = { c with pending := some token } := by
  unfold request at h
  split at h
  · cases h
    exact ⟨rfl, rfl, rfl⟩
  · cases h

variable [Trig K]

/-- Odometry is steady. -/
theorem steady_observe (c : StepCycle K) (pose : Pose K) (stampNs : ℤ) (now : K) (nowNs : ℤ) :
    c.Steady (c.observe pose stampNs now nowNs) := by
  rcases lt_or_ge c.odomNs stampNs with hnew | hold
  · have hcases := observe_cases hnew pose now nowNs
    generalize c.observe pose stampNs now nowNs = c' at hcases ⊢
    cases hcases <;> exact ⟨rfl, rfl, rfl, Or.inr rfl⟩
  · rw [observe_of_le hold]
    exact .refl c

/-- Odometry goes on with what is in progress: the correction is the rest of its turn. -/
theorem continues_observe (c : StepCycle K) (pose : Pose K) (stampNs : ℤ) (now : K) (nowNs : ℤ) :
    c.Continues (c.observe pose stampNs now nowNs) := by
  rcases lt_or_ge c.odomNs stampNs with hnew | hold
  · have hcases := observe_cases hnew pose now nowNs
    generalize c.observe pose stampNs now nowNs = c' at hcases ⊢
    cases hcases with
    | ignored => exact continues_of (Or.inr rfl) (Or.inr rfl)
    | restarted => exact continues_of (Or.inr rfl) (Or.inr rfl)
    | grown => exact continues_of (Or.inr rfl) (Or.inr rfl)
    | @corrected _ turnTarget _ _ _ _ _ htarget =>
        intro started h
        refine ⟨fun a ha => ?_, h.target⟩
        obtain ⟨s, hs, rfl⟩ := h.target turnTarget htarget
        exact ⟨s, hs, Or.inr (Option.some.inj ha).symm⟩
    | confirmed => exact continues_of (Or.inl rfl) (Or.inl rfl)
  · rw [observe_of_le hold]
    exact .refl c

end

end StepCycle

/-- The generation in which an entry was made. -/
def Entry.generation {K Image Jpeg : Type*} (e : Entry K Image Jpeg) : ℕ := e.node.cycle.generation

namespace NavidaStepBridge

open World History

variable {K Image Jpeg : Type*}

/-! ## What the history has to be like -/

/-- A reply starts a primitive. -/
def IsReplyStart : Act K Jpeg → Prop
  | .replyStarted .. => True
  | _ => False

def IsSubmit : Act K Jpeg → Prop
  | .submit .. => True
  | _ => False

/-- An act that neither requests, answers nor starts anything. -/
def Minor : Act K Jpeg → Prop
  | .submit .. => False
  | .inferred _ => False
  | .replyStarted .. => False
  | .queueStarted _ => False
  | .event e => ¬ IsStart (.event e : Act K Jpeg)
  | _ => True

/-- The token's request was made in the generation `g`, which has lasted since,
and no other request was made and no reply started anything since. -/
def AskedIn (token : Request) (g : ℕ) : List (Entry K Image Jpeg) → Prop :=
  Since (fun e => e.generation = g ∧ ¬ IsReplyStart e.act ∧ ¬ IsSubmit e.act)
    fun e _ => e.generation = g ∧ ∃ goal jpeg, e.act = .submit token goal jpeg

/-- How the inference of the newest request has ended. -/
def answered : List (Entry K Image Jpeg) → Option (HttpOutcome K)
  | [] => none
  | e :: h =>
      match e.act with
      | .submit .. => none
      | .inferred outcome => some outcome
      | _ => answered h

/-- The generation in which the newest accepted reply came. -/
def acceptedIn : List (Entry K Image Jpeg) → Option ℕ
  | [] => none
  | e :: h =>
      match e.act with
      | .replyStarted .. => some (e.generation)
      | _ => acceptedIn h

/-- The primitive that was started last. -/
def started : List (Entry K Image Jpeg) → Option (NavidaAction K)
  | [] => none
  | e :: h =>
      match e.act with
      | .replyStarted _ reply => some reply.action
      | .queueStarted action => some action
      | _ => started h

/-- How many primitives were started. -/
def starts : List (Entry K Image Jpeg) → ℕ
  | [] => 0
  | e :: h =>
      match e.act with
      | .replyStarted .. => starts h + 1
      | .queueStarted _ => starts h + 1
      | _ => starts h

section

variable [Field K] [LinearOrder K] [Trig K]

/-- The actions behind the first one that a text has in it, or none when
`chunk_actions` raises. -/
def queuedBy (raw : Text) : List (NavidaAction K) :=
  match chunkActions raw with
  | .ok queue => queue
  | .error _ => []

/-- The actions of the newest accepted text that have not been started. -/
def owed : List (Entry K Image Jpeg) → List (NavidaAction K)
  | [] => []
  | e :: h =>
      match e.act with
      | .replyStarted _ reply => queuedBy reply.rawResponse
      | .queueStarted _ => (owed h).tail
      | _ => owed h

/-- What an entry owes to those before it. -/
def Proper (e : Entry K Image Jpeg) (older : List (Entry K Image Jpeg)) : Prop :=
  match e.act with
  | .submit .. => e.node.queue = []
  | .replyStarted token reply =>
      reply.frameId = token.frameId ∧ answered older = some (.reply reply) ∧
        token.generation = e.generation ∧ AskedIn token (e.generation) older ∧
        e.node.cycle.CarriesOut reply.action
  | .queueStarted action =>
      acceptedIn older = some (e.generation) ∧ (∃ rest, owed older = action :: rest) ∧
        e.node.cycle.CarriesOut action
  -- what is printed of a start that was just made
  | .event (.actionStarted frameId distanceM angleDeg raw) =>
      ∃ token reply node, older.head? = some ⟨.replyStarted token reply, node⟩ ∧
        frameId = token.frameId ∧ distanceM = reply.action.distance ∧
        angleDeg = Trig.degrees reply.action.angle ∧ raw = reply.rawResponse
  | .event (.chunkActionStarted distanceM angleDeg remaining) =>
      ∃ action node, older.head? = some ⟨.queueStarted action, node⟩ ∧
        distanceM = action.distance ∧ angleDeg = Trig.degrees action.angle ∧
        remaining = (owed older).length
  | _ => True

theorem proper_of_minor {e : Entry K Image Jpeg} (h : Minor e.act)
    (older : List (Entry K Image Jpeg)) : Proper e older := by
  obtain ⟨act, node⟩ := e
  cases act with
  | event ev =>
      cases ev with
      | actionStarted frameId distanceM angleDeg raw => exact absurd trivial h
      | chunkActionStarted distanceM angleDeg remaining => exact absurd trivial h
      | _ => exact trivial
  | submit => exact h.elim
  | replyStarted => exact h.elim
  | queueStarted => exact h.elim
  | _ => exact trivial

/-- The newer history has the same answer, acceptance, starts and queue as the older one. -/
structure Unmoved (older newer : List (Entry K Image Jpeg)) : Prop where
  answered : answered newer = answered older
  accepted : acceptedIn newer = acceptedIn older
  started : started newer = started older
  starts : starts newer = starts older
  owed : owed newer = owed older

/-- A printed event moves nothing, whatever it says. -/
theorem unmoved_event (e : NavidaEvent K) (node : NavidaStepBridge K Image Jpeg)
    (older : List (Entry K Image Jpeg)) : Unmoved older (⟨.event e, node⟩ :: older) :=
  ⟨rfl, rfl, rfl, rfl, rfl⟩

/-- Minor entries change nothing that a start looks at. -/
theorem minor_cons {e : Entry K Image Jpeg} (h : Minor e.act) (older : List (Entry K Image Jpeg)) :
    Unmoved older (e :: older) ∧ ¬ IsReplyStart e.act ∧ ¬ IsSubmit e.act := by
  obtain ⟨act, node⟩ := e
  cases act with
  | event ev => exact ⟨unmoved_event ev node older, id, id⟩
  | submit => exact h.elim
  | inferred => exact h.elim
  | replyStarted => exact h.elim
  | queueStarted => exact h.elim
  | _ => exact ⟨⟨rfl, rfl, rfl, rfl, rfl⟩, id, id⟩

theorem minor_append {newer : List (Entry K Image Jpeg)} (h : ∀ e ∈ newer, Minor e.act)
    (older : List (Entry K Image Jpeg)) : Unmoved older (newer ++ older) := by
  induction newer with
  | nil => exact ⟨rfl, rfl, rfl, rfl, rfl⟩
  | cons e newer ih =>
      have hold := ih fun e he => h e (List.mem_cons_of_mem _ he)
      obtain ⟨hnew, -, -⟩ := minor_cons (h e List.mem_cons_self) (newer ++ older)
      exact ⟨hnew.answered.trans hold.answered, hnew.accepted.trans hold.accepted,
        hnew.started.trans hold.started, hnew.starts.trans hold.starts,
        hnew.owed.trans hold.owed⟩

end

/-! ## What leaves requests and the queue alone -/

section

variable [Field K]

/-- The request in flight is the same, only minor entries were added, nothing was
started or queued, and the generation, if it changed, was raised. -/
structure Aside (w w' : World K Image Jpeg) : Prop where
  future : w'.node.future = w.node.future
  token : w'.node.requestToken = w.node.requestToken
  progress : w.node.cycle.Progress w'.node.cycle
  clears : w.node.cycle.Clears w'.node.cycle
  continues : w.node.cycle.Continues w'.node.cycle
  kept : w'.node.queue = w.node.queue ∨ w'.node.queue = []
  history : ∃ newer, w'.trace = newer ++ w.trace ∧ ∀ e ∈ newer, Minor e.act ∧
    w.node.cycle.generation ≤ e.generation ∧ e.generation ≤ w'.node.cycle.generation

/-- Besides, a queue that can be started from was there before, in the same
generation. -/
structure Calm (w w' : World K Image Jpeg) : Prop extends Aside w w' where
  queue : w'.node.queue ≠ [] → w'.node.cycle.stopped = false →
    w.node.queue = w'.node.queue ∧ w.node.cycle.stopped = false ∧
      w'.node.cycle.generation = w.node.cycle.generation

theorem Aside.trans {w w' w'' : World K Image Jpeg} (h : Aside w w') (h' : Aside w' w'') :
    Aside w w'' where
  future := h'.future.trans h.future
  token := h'.token.trans h.token
  progress := h.progress.trans h'.progress
  clears := h.clears.trans h'.clears
  continues := fun started hs => h'.continues started (h.continues started hs)
  kept := by
    rcases h'.kept with hsame | hnone
    · rw [hsame]
      exact h.kept
    · exact Or.inr hnone
  history := by
    obtain ⟨newer, htrace, hminor⟩ := h.history
    obtain ⟨newer', htrace', hminor'⟩ := h'.history
    refine ⟨newer' ++ newer, by rw [htrace', htrace, List.append_assoc], ?_⟩
    have hle := h.progress.le
    have hle' := h'.progress.le
    intro e he
    rcases List.mem_append.mp he with he | he
    · obtain ⟨hm, hge, hge'⟩ := hminor' e he
      exact ⟨hm, hle.trans hge, hge'⟩
    · obtain ⟨hm, hge, hge'⟩ := hminor e he
      exact ⟨hm, hge, hge'.trans hle'⟩

theorem Calm.trans {w w' w'' : World K Image Jpeg} (h : Calm w w') (h' : Calm w' w'') :
    Calm w w'' where
  toAside := h.toAside.trans h'.toAside
  queue := by
    intro hqueue hstop
    obtain ⟨hqueue', hstop', hgen'⟩ := h'.queue hqueue hstop
    obtain ⟨hqueue'', hstop'', hgen''⟩ := h.queue (by rwa [hqueue']) hstop'
    exact ⟨hqueue''.trans hqueue', hstop'', hgen'.trans hgen''⟩

/-- The attributes that a request and a start look at stay; the queue may be
emptied. -/
theorem calm_node {w : World K Image Jpeg} {n : NavidaStepBridge K Image Jpeg}
    (hcycle : n.cycle = w.node.cycle) (hfuture : n.future = w.node.future)
    (htoken : n.requestToken = w.node.requestToken)
    (hqueue : n.queue = w.node.queue ∨ n.queue = []) : Calm w { w with node := n } where
  future := hfuture
  token := htoken
  progress := by
    show w.node.cycle.Progress n.cycle
    rw [hcycle]
    exact .refl _
  clears := Or.inr ⟨congrArg StepCycle.pending hcycle, congrArg StepCycle.generation hcycle⟩
  continues := by
    show w.node.cycle.Continues n.cycle
    rw [hcycle]
    exact .refl _
  kept := hqueue
  history := ⟨[], rfl, fun e he => absurd he List.not_mem_nil⟩
  queue := by
    intro hne hstop
    replace hstop : n.cycle.stopped = false := hstop
    rw [hcycle] at hstop
    exact ⟨(hqueue.resolve_right hne).symm, hstop, congrArg StepCycle.generation hcycle⟩

theorem Calm.refl (w : World K Image Jpeg) : Calm w w := calm_node rfl rfl rfl (Or.inl rfl)

theorem calm_record (w : World K Image Jpeg) (act : Act K Jpeg) (h : Minor act) :
    Calm w (w.record act) where
  future := rfl
  token := rfl
  progress := .refl _
  clears := Or.inr ⟨rfl, rfl⟩
  continues := .refl _
  kept := Or.inl rfl
  history := by
    refine ⟨[⟨act, w.node⟩], rfl, ?_⟩
    intro e he
    rw [List.mem_singleton.mp he]
    exact ⟨h, le_refl _, le_refl _⟩
  queue := fun _ hstop => ⟨rfl, hstop, rfl⟩

theorem aside_setCycle {w : World K Image Jpeg} {c : StepCycle K}
    (hprogress : w.node.cycle.Progress c) (hclears : w.node.cycle.Clears c)
    (hcontinues : w.node.cycle.Continues c) : Aside w (w.setCycle c) where
  future := by rw [setCycle_node]
  token := by rw [setCycle_node]
  progress := by rwa [setCycle_node]
  clears := by rwa [setCycle_node]
  continues := by rwa [setCycle_node]
  kept := Or.inl (by rw [setCycle_node])
  history := by
    rw [setCycle_trace, setCycle_node]
    split
    · refine ⟨[⟨.halted, { w.node with cycle := c }⟩], rfl, ?_⟩
      intro e he
      rw [List.mem_singleton.mp he]
      exact ⟨trivial, hprogress.le, le_refl _⟩
    · exact ⟨[], rfl, fun e he => absurd he List.not_mem_nil⟩

/-- A steady call of the cycle that starts nothing. -/
theorem calm_setCycle {w : World K Image Jpeg} {c : StepCycle K} (h : w.node.cycle.Steady c)
    (hcontinues : w.node.cycle.Continues c) : Calm w (w.setCycle c) where
  toAside := aside_setCycle h.progress h.clears hcontinues
  queue := by
    rw [setCycle_node]
    intro _ hstop
    exact ⟨rfl, h.stopped.symm.trans hstop, h.generation⟩

/-- A failure of the cycle: what is still queued cannot be started from. -/
theorem calm_fail (w : World K Image Jpeg) (reason : String) (now : K) (nowNs : ℤ) :
    Calm w (w.setCycle (w.node.cycle.fail reason now nowNs)) where
  toAside := aside_setCycle (Or.inr (StepCycle.generation_fail _ reason now nowNs).1)
    (Or.inl (StepCycle.generation_fail _ reason now nowNs).2)
    (StepCycle.continues_fail _ reason now nowNs)
  queue := by
    rw [setCycle_node]
    intro _ hstop
    cases hstop

/-- A cancel with an empty queue. -/
theorem calm_cancel {w : World K Image Jpeg} (hqueue : w.node.queue = []) (nowNs : ℤ) (now : K)
    (stopped : Bool) : Calm w (w.setCycle (w.node.cycle.cancel nowNs now stopped)) where
  toAside := aside_setCycle (Or.inr (StepCycle.generation_cancel _ nowNs now stopped).1)
    (Or.inl (StepCycle.generation_cancel _ nowNs now stopped).2)
    (StepCycle.continues_cancel _ nowNs now stopped)
  queue := by
    rw [setCycle_node]
    intro hne _
    exact absurd hqueue hne

variable [LinearOrder K] {now : K} {nowNs : ℤ}

/-! ### The parts of the callbacks -/

omit [LinearOrder K] in
theorem calm_powerFailed (w : World K Image Jpeg) (reason : String) :
    Calm w (w.powerFailed reason now nowNs) :=
  ((calm_fail w reason now nowNs).trans (calm_record _ (.publish 0 0 nowNs) trivial)).trans
    (calm_node rfl rfl rfl (Or.inl rfl))

omit [LinearOrder K] in
theorem calm_powerAcked (w : World K Image Jpeg) : Calm w (w.powerAcked now nowNs) := by
  have hacked : Calm w (w.record .powerAcked) := calm_record w _ trivial
  unfold powerAcked
  dsimp only
  split
  · have hoff : Calm (w.record .powerAcked) ((w.record .powerAcked).setPower .off) :=
      calm_node rfl rfl rfl (Or.inl rfl)
    exact (hacked.trans hoff).trans (calm_setCycle ⟨rfl, rfl, rfl, Or.inr rfl⟩
      (StepCycle.continues_of (Or.inr rfl) (Or.inr rfl)))
  · exact hacked.trans (calm_node rfl rfl rfl (Or.inl rfl))
  · exact hacked

theorem calm_powerRequest (w : World K Image Jpeg) : Calm w (w.powerRequest now nowNs) := by
  -- the request itself, after the check of the timeout
  have hcall : ∀ (w : World K Image Jpeg) (s : PowerState) (enable : Bool),
      Calm w (World.record { (w.publish nowNs 0 0) with node := { w.node with
        powerAt := now, powerState := s, powerFuture := some .pending } } (.callPower enable)) := by
    intro w s enable
    have hpublish : Calm w (w.publish nowNs 0 0) := calm_record w _ trivial
    have hnode : Calm (w.publish nowNs 0 0) { (w.publish nowNs 0 0) with node := { w.node with
        powerAt := now, powerState := s, powerFuture := some .pending } } :=
      calm_node rfl rfl rfl (Or.inl rfl)
    exact (hpublish.trans hnode).trans (calm_record _ _ trivial)
  have hfail : Calm w ((w.setCycle (w.node.cycle.fail "post-enable stop not confirmed" now
      nowNs)).setPower .stop) :=
    (calm_fail w _ now nowNs).trans (calm_node rfl rfl rfl (Or.inl rfl))
  unfold powerRequest
  dsimp only
  split
  · split
    · exact hfail.trans (hcall _ _ _)
    · exact hfail
  · split
    · exact hcall w _ _
    · exact .refl w

theorem calm_powerTick (w : World K Image Jpeg) : Calm w (w.powerTick now nowNs) := by
  have htaken : Calm w { w with node := { w.node with powerFuture := none } } :=
    calm_node rfl rfl rfl (Or.inl rfl)
  unfold powerTick
  dsimp only
  split
  · exact calm_powerRequest w
  · split
    · exact .refl w
    · exact (htaken.trans (calm_powerFailed _ _)).trans (calm_powerRequest _)
  · exact (htaken.trans (calm_powerFailed _ _)).trans (calm_powerRequest _)
  · exact (htaken.trans (calm_powerFailed _ _)).trans (calm_powerRequest _)
  · exact (htaken.trans (calm_powerAcked _)).trans (calm_powerRequest _)

theorem calm_stopPower (w : World K Image Jpeg) (clocks : Clocks K) :
    Calm w (w.stopPower clocks) := by
  have hpublish : Calm w (w.publish clocks.nowNs 0 0) := calm_record w _ trivial
  refine hpublish.trans (Calm.trans ?_ (calm_powerTick _))
  split
  · exact .refl _
  · exact calm_node rfl rfl rfl (Or.inl rfl)

theorem calm_setGoal (w : World K Image Jpeg) (text : Option String) (restart : Bool)
    (first second : Clocks K) : Calm w (w.setGoal text restart first second) := by
  unfold setGoal
  split
  · have hclear : Calm w { w with node := { w.node with
        goal := text, latest := none, queue := [] } } :=
      calm_node rfl rfl rfl (Or.inr rfl)
    exact ((hclear.trans (calm_cancel rfl _ _ _)).trans (calm_stopPower _ second)).trans
      (calm_record _ _ id)
  · exact .refl w

theorem calm_onObservation (w : World K Image Jpeg) (msg : Observation K Image Jpeg)
    (first second : Clocks K) : Calm w (w.onObservation msg first second) :=
  (calm_setGoal w _ _ first second).trans (calm_node rfl rfl rfl (Or.inl rfl))

/-- The queue is emptied after the cancel here. -/
theorem calm_onForcedStop (w : World K Image Jpeg) (data : Bool) (first second : Clocks K) :
    Calm w (w.onForcedStop data first second) := by
  let w₁ := w.setCycle (w.node.cycle.cancel first.nowNs first.now data)
  let w₂ := if data then w₁ else w₁.record .resumed
  have hcancel : Aside w w₁ :=
    aside_setCycle (Or.inr (StepCycle.generation_cancel _ first.nowNs first.now data).1)
      (Or.inl (StepCycle.generation_cancel _ first.nowNs first.now data).2)
      (StepCycle.continues_cancel _ first.nowNs first.now data)
  have hresume : Calm w₁ w₂ := by
    unfold w₂
    split
    · exact .refl w₁
    · exact calm_record w₁ _ trivial
  have hempty : Calm w₂ { w₂ with node := { w₂.node with queue := [] } } :=
    calm_node rfl rfl rfl (Or.inr rfl)
  have hdropped : Calm w { w₂ with node := { w₂.node with queue := [] } } :=
    ⟨(hcancel.trans hresume.toAside).trans hempty.toAside, fun hne => absurd rfl hne⟩
  exact hdropped.trans (calm_stopPower _ second)

omit [LinearOrder K] in
theorem calm_reportZero (w : World K Image Jpeg) [Trig K] (active : Bool) :
    Calm w (w.reportZero active) := by
  unfold reportZero
  split
  · exact calm_record w _ id
  · exact .refl w

omit [LinearOrder K] in
theorem calm_reportFault (w : World K Image Jpeg) : Calm w w.reportFault := by
  unfold reportFault
  split
  · have hlast : Calm w { w with node := { w.node with lastFault := w.node.cycle.fault } } :=
      calm_node rfl rfl rfl (Or.inl rfl)
    dsimp only
    split
    · exact hlast
    · exact hlast.trans (calm_record _ _ id)
  · exact .refl w

omit [LinearOrder K] in
theorem calm_dropQueue (w : World K Image Jpeg) : Calm w w.dropQueue := by
  unfold dropQueue
  split
  · exact calm_node rfl rfl rfl (Or.inr rfl)
  · exact .refl w

variable [Trig K]

theorem calm_observe (w : World K Image Jpeg) (pose : Pose K) (stampNs : ℤ) :
    Calm w (w.observe pose stampNs now nowNs) := by
  have hobserve : Calm w (w.setCycle (w.node.cycle.observe pose stampNs now nowNs)) :=
    calm_setCycle (StepCycle.steady_observe _ pose stampNs now nowNs)
      (StepCycle.continues_observe _ pose stampNs now nowNs)
  have hnote : ∀ (w : World K Image Jpeg) (p : Prop) [Decidable p] (act : Act K Jpeg),
      Minor act → Calm w (if p then w.record act else w) := by
    intro w p _ act hact
    split
    · exact calm_record w act hact
    · exact .refl w
  exact (hobserve.trans (hnote _ _ (.sample pose stampNs) trivial)).trans
    (hnote _ _ .standstill trivial)

omit [LinearOrder K] in
theorem calm_verified (w : World K Image Jpeg) : Calm w (w.verified nowNs) := by
  have hpower : Calm w (w.setPower .ready) := calm_node rfl rfl rfl (Or.inl rfl)
  have hready : Calm w ((w.setPower .ready).record (.ready nowNs)) :=
    hpower.trans (calm_record _ _ trivial)
  unfold verified
  dsimp only
  split
  · have hfloor : ∀ w : World K Image Jpeg,
        Calm w (w.setCycle { w.node.cycle with floorNs := nowNs }) :=
      fun w => calm_setCycle ⟨rfl, rfl, rfl, Or.inr rfl⟩
        (StepCycle.continues_of (Or.inr rfl) (Or.inr rfl))
    exact (hready.trans (hfloor _)).trans (calm_record _ _ id)
  · exact hready

theorem calm_verifyPower (w : World K Image Jpeg) (pose : Pose K) (stampNs : ℤ) :
    Calm w (w.verifyPower pose stampNs nowNs) := by
  unfold verifyPower
  split
  · have hpose : Calm w { w with node := { w.node with
        powerPose := w.node.cycle.pose, powerStamp := stampNs } } :=
      calm_node rfl rfl rfl (Or.inl rfl)
    dsimp only
    split
    · split
      · exact hpose.trans (calm_verified _)
      · exact hpose
    · exact hpose.trans (calm_node rfl rfl rfl (Or.inl rfl))
  · exact .refl w

theorem calm_onOdom (w : World K Image Jpeg) (msg : OdometryMsg K) (first second : Clocks K) :
    Calm w (w.onOdom msg first second) := by
  unfold onOdom
  split
  · exact (calm_fail w _ first.now first.nowNs).trans (calm_stopPower _ second)
  · exact (calm_observe w _ _).trans (calm_verifyPower _ _ _)

theorem calm_drive (w : World K Image Jpeg) (first second : Clocks K) :
    Calm w (w.drive first second) := by
  have hcases := StepCycle.command_cases w.node.cycle first.now first.nowNs
    (decide (w.node.powerState = .ready))
  have hcycle : Calm w (w.setCycle (w.node.cycle.command first.now first.nowNs
      (decide (w.node.powerState = .ready))).1) := by
    rcases hcases.steady with hsteady | ⟨reason, hfail⟩
    · exact calm_setCycle hsteady hcases.continues
    · rw [hfail]
      exact calm_fail w reason first.now first.nowNs
  have hpublish : ∀ (w : World K Image Jpeg) (linear angular : K),
      Calm w (w.publish first.nowNs linear angular) :=
    fun w _ _ => calm_record w _ trivial
  unfold drive
  dsimp only
  split
  · exact (hcycle.trans (hpublish _ _ _)).trans (calm_stopPower _ second)
  · exact hcycle.trans (hpublish _ _ _)

/-- From the command of a tick to its next request. -/
theorem calm_report (w : World K Image Jpeg) (first second : Clocks K) :
    Calm w ((((w.drive first second).reportZero
      w.node.cycle.action.isSome).reportFault).dropQueue) :=
  ((calm_drive w first second).trans (calm_reportZero _ _)).trans
    ((calm_reportFault _).trans (calm_dropQueue _))

end

/-! ## The invariant -/

section

variable [Field K] [LinearOrder K] [Trig K]

/-- The token of a request of the current generation is that of the newest
request, a future that is done has the newest answer, a queue that can be started
from is what the newest accepted text still owes, the cycle is busy with the
newest start, and the history is proper. -/
structure Tracked (w : World K Image Jpeg) : Prop where
  token : ∀ token ∈ w.node.requestToken, token.generation ≤ w.node.cycle.generation ∧
    (token.generation = w.node.cycle.generation → AskedIn token w.node.cycle.generation w.trace)
  answer : ∀ outcome, w.node.future = some (.done outcome) → answered w.trace = some outcome
  queue : w.node.queue ≠ [] → w.node.cycle.stopped = false →
    owed w.trace = w.node.queue ∧ acceptedIn w.trace = some w.node.cycle.generation
  busy : w.node.cycle.BusyWith (started w.trace)
  history : Each Proper w.trace

/-- A pending request has its token and its future. -/
def Backed (w : World K Image Jpeg) : Prop :=
  ∀ token ∈ w.node.cycle.pending,
    w.node.requestToken = some token ∧ w.node.future.isSome = true

/-- The invariant: besides, a pending request is one of the current generation, and
nothing is queued beside it. -/
structure Orderly (w : World K Image Jpeg) : Prop extends Tracked w where
  backed : Backed w
  generation : ∀ token ∈ w.node.cycle.pending, token.generation = w.node.cycle.generation
  idle : w.node.cycle.pending ≠ none → w.node.queue = []

variable {w w' : World K Image Jpeg}

omit [Field K] [LinearOrder K] [Trig K] in
theorem AskedIn.append {token : Request} {g : ℕ} {newer older : List (Entry K Image Jpeg)}
    (h : AskedIn token g older)
    (hnewer : ∀ e ∈ newer, e.generation = g ∧ ¬ IsReplyStart e.act ∧ ¬ IsSubmit e.act) :
    AskedIn token g (newer ++ older) := by
  induction newer with
  | nil => exact h
  | cons e newer ih =>
      have hold := ih fun e he => hnewer e (List.mem_cons_of_mem _ he)
      exact Since.cons hold (hnewer e List.mem_cons_self)

theorem Tracked.calm (h : Tracked w) (hcalm : Calm w w') : Tracked w' := by
  obtain ⟨newer, htrace, hminor⟩ := hcalm.history
  have hle := hcalm.progress.le
  have hsame := minor_append (fun e he => (hminor e he).1) w.trace
  refine ⟨?_, ?_, ?_, ?_, ?_⟩
  · intro token htoken
    rw [hcalm.token] at htoken
    obtain ⟨hle', hasked⟩ := h.token token htoken
    refine ⟨hle'.trans hle, ?_⟩
    intro heq
    -- the generation only grows, so it did not move in between
    have hsame : w'.node.cycle.generation = w.node.cycle.generation := by omega
    rw [htrace, hsame]
    refine (hasked (heq.trans hsame)).append ?_
    intro e he
    obtain ⟨hm, hge, hge'⟩ := hminor e he
    obtain ⟨-, hstart, hsubmit⟩ := minor_cons hm []
    exact ⟨by omega, hstart, hsubmit⟩
  · intro outcome hdone
    rw [hcalm.future] at hdone
    rw [htrace, hsame.answered]
    exact h.answer outcome hdone
  · intro hne hstop
    obtain ⟨hqueue, hstop', hgen⟩ := hcalm.queue hne hstop
    obtain ⟨howed, haccepted⟩ := h.queue (by rwa [hqueue]) hstop'
    rw [htrace, hsame.owed, hsame.accepted, hgen]
    exact ⟨howed.trans hqueue, haccepted⟩
  · rw [htrace, hsame.started]
    exact hcalm.continues _ h.busy
  · rw [htrace]
    clear htrace hsame
    induction newer with
    | nil => exact h.history
    | cons e newer ih =>
        exact ⟨proper_of_minor (hminor e List.mem_cons_self).1 _,
          ih fun e he => hminor e (List.mem_cons_of_mem _ he)⟩

theorem Orderly.calm (h : Orderly w) (hcalm : Calm w w') : Orderly w' := by
  have hpending : ∀ token ∈ w'.node.cycle.pending, token ∈ w.node.cycle.pending ∧
      w'.node.cycle.generation = w.node.cycle.generation := by
    intro token htoken
    rcases hcalm.clears with hnone | ⟨hsame, hgen⟩
    · rw [hnone] at htoken
      cases htoken
    · rw [hsame] at htoken
      exact ⟨htoken, hgen⟩
  refine ⟨h.toTracked.calm hcalm, ?_, ?_, ?_⟩
  · intro token htoken
    rw [hcalm.token, hcalm.future]
    exact h.backed token (hpending token htoken).1
  · intro token htoken
    obtain ⟨hold, hgen⟩ := hpending token htoken
    rw [hgen]
    exact h.generation token hold
  · intro hne
    obtain ⟨token, htoken⟩ := Option.ne_none_iff_exists'.mp hne
    have hempty : w.node.queue = [] := by
      refine h.idle fun hnone => ?_
      have hold := (hpending token htoken).1
      rw [hnone] at hold
      cases hold
    rcases hcalm.kept with hsame | hnone
    · exact hsame.trans hempty
    · exact hnone

/-- With the request cleared, nothing is left to be backed. -/
theorem Tracked.orderly (h : Tracked w) (hpending : w.node.cycle.pending = none) : Orderly w where
  toTracked := h
  backed := by
    intro token htoken
    rw [hpending] at htoken
    cases htoken
  generation := by
    intro token htoken
    rw [hpending] at htoken
    cases htoken
  idle := fun hne => absurd hpending hne

/-! ### Replies -/

variable {now : K} {nowNs : ℤ} {token : Request}

omit [Field K] [LinearOrder K] [Trig K] in
/-- A call that leaves the stop alone adds nothing to the history. -/
theorem setCycle_of_stopped {c : StepCycle K} (h : c.stopped = w.node.cycle.stopped) :
    w.setCycle c = { w with node := { w.node with cycle := c } } := by
  unfold setCycle
  rw [h]
  cases w.node.cycle.stopped <;> rfl

/-- A request whose future and token are gone, and which may be pending still. -/
structure Taken (w : World K Image Jpeg) (request : Request) : Prop extends Tracked w where
  future : w.node.future = none
  noToken : w.node.requestToken = none
  pending : w.node.cycle.pending = none ∨ w.node.cycle.pending = some request ∧
    request.generation = w.node.cycle.generation ∧ w.node.queue = []
  asked : request.generation = w.node.cycle.generation →
    AskedIn request w.node.cycle.generation w.trace

/-- A reply that starts its primitive. -/
theorem Taken.replyStart (h : Taken w token) {reply : Reply K}
    (hframe : reply.frameId = token.frameId) (hanswer : answered w.trace = some (.reply reply))
    (hgen : token.generation = w.node.cycle.generation) (hqueue : w.node.queue = [])
    {c : StepCycle K} (hsteady : w.node.cycle.Steady c) (hpending : c.pending = none)
    (hcarries : c.CarriesOut reply.action) (hbusy : c.BusyWith (some reply.action)) :
    Orderly ((w.setCycle c).record (.replyStarted token reply)) := by
  rw [setCycle_of_stopped hsteady.stopped]
  refine Tracked.orderly ⟨?_, ?_, ?_, hbusy, ?_⟩ hpending
  · intro token' htoken'
    replace htoken' : token' ∈ w.node.requestToken := htoken'
    rw [h.noToken] at htoken'
    cases htoken'
  · intro outcome hdone
    replace hdone : w.node.future = some (.done outcome) := hdone
    rw [h.future] at hdone
    cases hdone
  · exact fun hne => absurd hqueue hne
  · refine ⟨⟨hframe, hanswer, hgen.trans hsteady.generation.symm, ?_, hcarries⟩, h.history⟩
    show AskedIn token c.generation w.trace
    rw [hsteady.generation]
    exact h.asked hgen

/-- The rest of its text is queued, and the start is printed. -/
theorem Orderly.replyQueued {reply : Reply K}
    (h : Orderly (w.record (.replyStarted token reply))) (hnone : w.node.cycle.pending = none)
    {queue : List (NavidaAction K)} (hqueue : chunkActions reply.rawResponse = .ok queue) :
    Orderly (World.record { w.record (.replyStarted token reply) with
      node := { w.node with queue := queue } } (.event (.actionStarted token.frameId
        reply.action.distance (Trig.degrees reply.action.angle) reply.rawResponse))) := by
  refine Tracked.orderly ⟨?_, h.answer, fun _ _ => ⟨?_, rfl⟩, h.busy, ?_⟩ hnone
  · intro token' htoken'
    obtain ⟨hle, hasked⟩ := h.token token' htoken'
    exact ⟨hle, fun heq => Since.cons (hasked heq) ⟨rfl, id, id⟩⟩
  · show queuedBy reply.rawResponse = queue
    rw [queuedBy, hqueue]
  · exact ⟨⟨token, reply, w.node, rfl, rfl, rfl, rfl, rfl⟩, h.history⟩

theorem Taken.acceptReply (h : Taken w token) {reply : Reply K}
    (hframe : reply.frameId = token.frameId) (hanswer : answered w.trace = some (.reply reply)) :
    Orderly (w.acceptReply token reply now nowNs).1 := by
  unfold World.acceptReply StepCycle.accept
  rcases h.pending with hpending | ⟨hpending, hgen, hqueue⟩
  · -- the request was cancelled
    rw [if_pos (Or.inl (by rw [hpending]; exact Option.some_ne_none token))]
    have hcalm : Calm w ((w.setCycle w.node.cycle).record
        (.event (.replyDiscarded token.frameId))) :=
      (calm_setCycle (.refl _) (.refl _)).trans (calm_record _ _ id)
    refine (h.toTracked.calm hcalm).orderly ?_
    rw [record_node, setCycle_node]
    exact hpending
  · rw [if_neg (by rw [hpending]; simp [hgen])]
    dsimp only
    split
    · -- the reply came too late
      have hcalm : Calm w ((w.setCycle (w.node.cycle.fail "reply expired" now nowNs)).record
          (.event (.replyDiscarded token.frameId))) :=
        (calm_fail w _ now nowNs).trans (calm_record _ _ id)
      refine (h.toTracked.calm hcalm).orderly ?_
      rw [record_node, setCycle_node]
      rfl
    · have hcases := StepCycle.start_cases
        { w.node.cycle with pending := none } reply.action now nowNs
      obtain ⟨hsteady, hstopped, hrefused⟩ := hcases.steady
      have hcleared : w.node.cycle.Steady (StepCycle.start
          { w.node.cycle with pending := none } reply.action now nowNs).1 :=
        ⟨hsteady.generation, hsteady.stopped, hsteady.fault, Or.inl (hsteady.pending.elim id id)⟩
      have hnone : (StepCycle.start
          { w.node.cycle with pending := none } reply.action now nowNs).1.pending = none :=
        hsteady.pending.elim id id
      -- in time; the cycle may still refuse to start
      split
      · rename_i hstarted
        obtain ⟨hcarries, hbusy⟩ := hcases.carriesOut hstarted
        have hstart := h.replyStart hframe hanswer hgen hqueue hcleared hnone hcarries hbusy
        split
        · -- the text cannot be queued
          exact hstart
        · rename_i queue hchunk
          refine hstart.replyQueued ?_ hchunk
          rw [setCycle_node]
          exact hnone
      · rename_i hnot
        have hsame := hrefused (Bool.eq_false_iff.mpr hnot)
        have hcontinues : w.node.cycle.Continues (StepCycle.start
            { w.node.cycle with pending := none } reply.action now nowNs).1 := by
          rw [hsame]
          exact StepCycle.continues_of (Or.inr rfl) (Or.inr rfl)
        have hcalm := (calm_setCycle hcleared hcontinues).trans
          (calm_record _ (.event (.replyDiscarded token.frameId)) id)
        refine (h.toTracked.calm hcalm).orderly ?_
        rw [record_node, setCycle_node]
        exact hnone

theorem Taken.requestFailed (h : Taken w token) (reason : String) :
    Orderly (w.requestFailed token reason now nowNs) := by
  unfold World.requestFailed
  dsimp only
  split
  · have hcalm := (calm_fail w reason now nowNs).trans
      (calm_record _ (.event (.requestFailed reason)) id)
    refine (h.toTracked.calm hcalm).orderly ?_
    rw [record_node, setCycle_node]
    rfl
  · rename_i hgen
    have hcalm : Calm w (w.record (.event (.requestFailed reason))) := calm_record w _ id
    exact (h.toTracked.calm hcalm).orderly (h.pending.resolve_right fun hp => hgen hp.2.1)

/-- The future and its token are taken. -/
theorem Orderly.taken (h : Orderly w) (htoken : w.node.requestToken = some token) :
    Taken { w with node := { w.node with future := none, requestToken := none } } token where
  token := by
    intro token htoken
    cases htoken
  answer := by
    intro outcome hdone
    cases hdone
  queue := h.queue
  busy := h.busy
  history := h.history
  future := rfl
  noToken := rfl
  pending := by
    show w.node.cycle.pending = none ∨ w.node.cycle.pending = some token ∧ _
    cases hp : w.node.cycle.pending with
    | none => exact Or.inl rfl
    | some pending =>
        obtain ⟨hback, -⟩ := h.backed pending hp
        obtain rfl : token = pending := Option.some.inj (htoken.symm.trans hback)
        exact Or.inr ⟨rfl, h.generation token hp, h.idle (by rw [hp]; exact Option.some_ne_none _)⟩
  asked := (h.token token htoken).2

/-- **The reply to a request** is taken with its token; only an exception that
`_finish_request` does not catch leaves the cycle waiting. -/
theorem Orderly.finishRequest (h : Orderly w)
    (hcaught : w.node.future = some (.done .uncaught) → w.node.cycle.pending = none) :
    Orderly (w.finishRequest now nowNs).1 := by
  unfold World.finishRequest
  split
  · rename_i outcome token hfuture htoken
    have htaken := h.taken htoken
    dsimp only
    split
    · -- nothing handles the exception, and the future is gone
      exact htaken.toTracked.orderly (hcaught hfuture)
    · exact htaken.requestFailed _
    · split
      · exact htaken.requestFailed _
      · rename_i hframe
        exact htaken.acceptReply (not_not.mp hframe) (h.answer _ hfuture)
  · exact h

/-! ### The queue and the next request -/

/-- A request with an empty queue. -/
theorem Orderly.ask (h : Orderly w) (hqueue : w.node.queue = []) :
    Orderly (w.ask now nowNs) := by
  unfold World.ask
  split
  · split
    · dsimp only
      split
      · split
        · exact h
        · rename_i c token hrequest
          obtain ⟨-, hgen, hc⟩ := StepCycle.request_token hrequest
          rw [setCycle_of_stopped (by rw [hc])]
          subst hc
          refine ⟨⟨?_, ?_, ?_, ⟨h.busy.action, h.busy.target⟩, ?_⟩, ?_, ?_, fun _ => hqueue⟩
          · intro token' htoken'
            obtain rfl : token = token' := Option.some.inj htoken'
            exact ⟨hgen.le, fun _ => Or.inl ⟨rfl, _, _, rfl⟩⟩
          · intro outcome hdone
            cases hdone
          · exact fun hne => absurd hqueue hne
          · exact ⟨hqueue, trivial, h.history⟩
          · intro token' htoken'
            exact ⟨htoken', rfl⟩
          · intro token' htoken'
            obtain rfl : token = token' := Option.some.inj htoken'
            exact hgen
      · exact h
    · exact h
  · exact h

omit [Trig K] in
/-- A cycle that cannot request is not asked to. -/
theorem ask_eq_self (h : w.node.powerState = .ready → w.node.future.isNone = true →
    ∀ captureNs, w.node.cycle.canRequest captureNs now nowNs = false) : w.ask now nowNs = w := by
  unfold World.ask
  split
  · split
    · rename_i hready
      dsimp only
      rw [if_neg (by rw [h hready.1 hready.2]; exact Bool.false_ne_true)]
    · rfl
  · rfl

/-- The start of the next queued action, and what is printed of it. -/
theorem Orderly.queueStart (h : Orderly w) {action : NavidaAction K}
    {rest : List (NavidaAction K)} (hqueue : w.node.queue = action :: rest)
    (hstop : w.node.cycle.stopped = false) {c : StepCycle K} (hsteady : w.node.cycle.Steady c)
    (hcarries : c.CarriesOut action) (hbusy : c.BusyWith (some action)) :
    Orderly (World.record { (w.setCycle c).record (.queueStarted action) with
      node := { (w.setCycle c).node with queue := rest } }
        (.event (.chunkActionStarted action.distance (Trig.degrees action.angle)
          rest.length))) := by
  have hne : w.node.queue ≠ [] := by
    rw [hqueue]
    exact List.cons_ne_nil _ _
  obtain ⟨howed, haccepted⟩ := h.queue hne hstop
  rw [hqueue] at howed
  rw [setCycle_of_stopped hsteady.stopped]
  have hgen : c.generation = w.node.cycle.generation := hsteady.generation
  -- nothing is pending beside a queue
  have hnone : w.node.cycle.pending = none := by
    by_contra hpending
    exact hne (h.idle hpending)
  have hcleared : c.pending = none := hsteady.pending.elim id fun hsame => hsame.trans hnone
  refine Tracked.orderly ⟨?_, h.answer, fun _ _ => ⟨?_, ?_⟩, hbusy, ?_⟩ hcleared
  · intro token htoken
    obtain ⟨hle, hasked⟩ := h.token token htoken
    refine ⟨hle.trans hgen.ge, ?_⟩
    intro heq
    show AskedIn token c.generation (_ :: _ :: w.trace)
    rw [hgen]
    exact Since.cons (Since.cons (hasked (heq.trans hgen)) ⟨hgen, id, id⟩) ⟨hgen, id, id⟩
  · -- the start takes the first of the actions that are owed
    show (owed w.trace).tail = rest
    rw [howed]
    rfl
  · show acceptedIn w.trace = some c.generation
    rw [haccepted, hgen]
  · refine ⟨⟨action, _, rfl, rfl, rfl, ?_⟩, ⟨?_, ⟨rest, howed⟩, hcarries⟩, h.history⟩
    · show rest.length = (owed w.trace).tail.length
      rw [howed]
      rfl
    · show acceptedIn w.trace = some c.generation
      rw [haccepted, hgen]

omit [Trig K] in
/-- `start` refuses only what `can_request` refuses too. -/
theorem not_canRequest_of_refused {c : StepCycle K} {action : NavidaAction K}
    (h : (c.start action now nowNs).2 = false) (captureNs : ℤ) :
    c.canRequest captureNs now nowNs = false := by
  unfold StepCycle.start at h
  split at h
  · rename_i hrefused
    simp only [Bool.or_eq_true] at hrefused
    unfold StepCycle.canRequest
    rcases hrefused with (hstop | hpose) | hodom
    · rw [hstop]
      rfl
    · have hnone : c.pose.isSome = false := by simpa using hpose
      rw [hnone]
      simp
    · rw [hodom]
      simp
  · split at h <;> cases h

theorem Orderly.proceed (h : Orderly w) : Orderly (w.proceed now nowNs) := by
  unfold World.proceed
  split
  · rename_i hqueue
    exact h.ask hqueue
  · rename_i action rest hqueue
    split
    · rename_i hready
      have hcases := StepCycle.start_cases w.node.cycle action now nowNs
      obtain ⟨hsteady, hstopped, hrefused⟩ := hcases.steady
      dsimp only
      split
      · rename_i hstarted
        obtain ⟨hcarries, hbusy⟩ := hcases.carriesOut hstarted
        exact h.queueStart hqueue (hstopped hstarted) hsteady hcarries hbusy
      · rename_i hnot
        -- what refuses the start refuses a request too
        have hnot := Bool.eq_false_iff.mpr hnot
        rw [hrefused hnot, setCycle_of_stopped rfl]
        rw [ask_eq_self fun _ _ => not_canRequest_of_refused hnot]
        exact h
    · rename_i hnot
      rw [ask_eq_self ?_]
      · exact h
      · intro hready hfuture captureNs
        unfold StepCycle.canRequest
        by_cases haction : w.node.cycle.action.isNone = true
        · have hsettle : w.node.cycle.settling = true := by
            by_contra hsettle
            exact hnot ⟨hready, hfuture, haction, Bool.eq_false_iff.mpr hsettle⟩
          rw [hsettle]
          simp
        · rw [Bool.eq_false_iff.mpr haction]
          simp

/-! ### Every callback -/

/-- A condition on the ticks: no tick takes up an inference that ended in an
exception other than those that `_finish_request` catches, while its request is
pending. -/
def Answered (w : World K Image Jpeg) (e : Event K Image Jpeg) : Prop :=
  match e.input with
  | .tick => w.node.powerState = .ready → w.node.future = some (.done .uncaught) →
      w.node.cycle.pending = none
  | _ => True

theorem Orderly.onTick (h : Orderly w) {first : Clocks K} (second : Clocks K)
    (hanswered : w.node.powerState = .ready → w.node.future = some (.done .uncaught) →
      w.node.cycle.pending = none) : Orderly (w.onTick first second) := by
  have hpower : Calm w (w.powerTick first.now first.nowNs) := calm_powerTick w
  have hcollect : Orderly (w.collect first).1 := by
    unfold collect
    dsimp only
    split
    · rename_i hready
      refine (h.calm hpower).finishRequest ?_
      intro hfuture
      rw [hpower.future] at hfuture
      have hnone := hanswered (ready_of_powerTick hready) hfuture
      rcases hpower.clears with hcleared | ⟨hsame, -⟩
      · exact hcleared
      · exact hsame.trans hnone
    · exact h.calm hpower
  unfold World.onTick
  dsimp only
  split
  · exact hcollect
  · exact (hcollect.calm (calm_report (w.collect first).1 first second)).proceed

theorem Orderly.httpDone (h : Orderly w) (outcome : HttpOutcome K) :
    Orderly (w.httpDone outcome) := by
  refine ⟨⟨?_, ?_, h.queue, h.busy, ⟨trivial, h.history⟩⟩, ?_, h.generation, h.idle⟩
  · intro token htoken
    obtain ⟨hle, hasked⟩ := h.token token htoken
    exact ⟨hle, fun heq => Since.cons (hasked heq) ⟨rfl, id, id⟩⟩
  · intro outcome' hdone
    exact congrArg some (Future.done.inj (Option.some.inj hdone))
  · intro token htoken
    exact ⟨(h.backed token htoken).1, rfl⟩

theorem Orderly.step (h : Orderly w) {e : Event K Image Jpeg} (hanswered : Answered w e) :
    Orderly (step w e) := by
  obtain ⟨input, first, second⟩ := e
  cases input with
  | goal msg => exact h.calm (calm_setGoal w msg.text? true first second)
  | observation msg => exact h.calm (calm_onObservation w msg first second)
  | odom msg => exact h.calm (calm_onOdom w msg first second)
  | forcedStop data => exact h.calm (calm_onForcedStop w data first second)
  | tick => exact h.onTick second hanswered
  | httpDone outcome => exact h.httpDone outcome
  | powerDone outcome => exact h.calm (calm_node rfl rfl rfl (Or.inl rfl))

theorem orderly_invariant (maxV maxW : K) :
    ((machine maxV maxW : Machine (World K Image Jpeg) _).restrict Answered).Invariant Orderly where
  init := by
    rintro _ ⟨cycle, clocks, hcycle, rfl⟩
    rw [StepCycle.new_ok hcycle]
    refine Tracked.orderly ⟨?_, ?_, fun hne => absurd rfl hne, ?_, trivial⟩ rfl
    · intro token htoken
      cases htoken
    · intro outcome hdone
      cases hdone
    · exact StepCycle.busyWith_idle rfl rfl none
  step := by
    rintro w e h ⟨-, hanswered⟩
    have hstep := h.step hanswered
    exact ⟨⟨hstep.token, hstep.answer, hstep.queue, hstep.busy, hstep.history⟩, hstep.backed,
      hstep.generation, hstep.idle⟩

/-! ## What raises the generation -/

/-- A goal message, an observation with another goal, a request to stop or to
resume, and an odometry message that fails the checks. -/
def Interrupts (w : World K Image Jpeg) (e : Event K Image Jpeg) : Prop :=
  match e.input with
  | .goal _ => True
  | .observation msg => msg.goal.text? ≠ w.node.goal
  | .forcedStop _ => True
  | .odom msg => msg.pose? e.first.nowNs = none
  | _ => False

omit [Trig K] in
theorem generation_setGoal {text : Option String} {restart : Bool}
    (h : restart = true ∨ text ≠ w.node.goal) (first second : Clocks K) :
    w.node.cycle.generation < (w.setGoal text restart first second).node.cycle.generation := by
  unfold setGoal
  rw [if_pos h]
  have hstop := (calm_stopPower (World.setCycle { w with node := { w.node with
      goal := text, latest := none, queue := [] } } (w.node.cycle.cancel first.nowNs first.now
        (w.node.cycle.stopped || text.isNone))) second).progress.le
  rw [setCycle_node] at hstop
  exact lt_of_lt_of_le (Nat.lt_succ_self _) hstop

/-- **Interruptions raise the generation.** -/
theorem generation_interrupt {e : Event K Image Jpeg} (h : Interrupts w e) :
    w.node.cycle.generation < (step w e).node.cycle.generation := by
  obtain ⟨input, first, second⟩ := e
  cases input with
  | goal msg => exact generation_setGoal (Or.inl rfl) first second
  | observation msg => exact generation_setGoal (Or.inr h) first second
  | forcedStop data =>
      show w.node.cycle.generation < (w.onForcedStop data first second).node.cycle.generation
      have hcancel : w.node.cycle.generation < (w.setCycle (w.node.cycle.cancel first.nowNs
          first.now data)).node.cycle.generation := by
        rw [setCycle_node]
        exact Nat.lt_succ_self _
      unfold onForcedStop
      dsimp only
      split
      · refine lt_of_lt_of_le ?_ (calm_stopPower _ second).progress.le
        exact hcancel
      · refine lt_of_lt_of_le ?_ (calm_stopPower _ second).progress.le
        exact hcancel
  | odom msg =>
      show w.node.cycle.generation < (w.onOdom msg first second).node.cycle.generation
      have hnone : msg.pose? first.nowNs = none := h
      unfold onOdom
      rw [hnone]
      have hfail : w.node.cycle.generation < (w.setCycle (w.node.cycle.fail "invalid odometry"
          first.now first.nowNs)).node.cycle.generation := by
        rw [setCycle_node]
        exact Nat.lt_succ_self _
      exact lt_of_lt_of_le hfail (calm_stopPower _ second).progress.le
  | tick => exact absurd h id
  | httpDone outcome => exact absurd h id
  | powerDone outcome => exact absurd h id

/-! ## What a step goes on with -/

/-- The generation is raised, or the stop and the fault are left alone; and without
another start the cycle goes on with what was started, or ends it. -/
structure Onward (w w' : World K Image Jpeg) : Prop where
  progress : w.node.cycle.Progress w'.node.cycle
  grows : starts w.trace ≤ starts w'.trace
  continues : starts w'.trace = starts w.trace → w.node.cycle.Continues w'.node.cycle

omit [LinearOrder K] [Trig K] in
theorem Onward.trans {w'' : World K Image Jpeg} (h : Onward w w') (h' : Onward w' w'') :
    Onward w w'' where
  progress := h.progress.trans h'.progress
  grows := h.grows.trans h'.grows
  continues := by
    intro hsame started hbusy
    have hfirst : starts w'.trace = starts w.trace := le_antisymm (hsame ▸ h'.grows) h.grows
    exact h'.continues (hsame.trans hfirst.symm) started (h.continues hfirst started hbusy)

omit [LinearOrder K] [Trig K] in
/-- The cycle and the starts are as they were. -/
theorem onward_of_eq (hcycle : w'.node.cycle = w.node.cycle)
    (hstarts : starts w'.trace = starts w.trace) : Onward w w' where
  progress := by
    rw [hcycle]
    exact .refl _
  grows := hstarts.ge
  continues := by
    intro _
    rw [hcycle]
    exact .refl _

omit [LinearOrder K] [Trig K] in
/-- Something was started. -/
theorem onward_of_lt (hprogress : w.node.cycle.Progress w'.node.cycle)
    (hlt : starts w.trace < starts w'.trace) : Onward w w' :=
  ⟨hprogress, hlt.le, fun hsame => absurd hsame hlt.ne'⟩

theorem Calm.onward (h : Calm w w') : Onward w w' := by
  obtain ⟨newer, htrace, hminor⟩ := h.history
  have hstarts : starts w'.trace = starts w.trace := by
    rw [htrace]
    exact (minor_append (fun e he => (hminor e he).1) w.trace).starts
  exact ⟨h.progress, hstarts.ge, fun _ => h.continues⟩

omit [Field K] [LinearOrder K] [Trig K] in
/-- A call of the cycle starts nothing by itself. -/
theorem starts_setCycle (w : World K Image Jpeg) (c : StepCycle K) :
    starts (w.setCycle c).trace = starts w.trace := by
  rw [setCycle_trace]
  split <;> rfl

omit [Trig K] in
/-- `accept` raises the generation or leaves the stop and the fault alone. -/
theorem progress_accept (c : StepCycle K) (request : Request) (action : NavidaAction K) (now : K)
    (nowNs : ℤ) : c.Progress (c.accept request action now nowNs).1 := by
  have haccepted := StepCycle.accept_cases c request action now nowNs
  generalize c.accept request action now nowNs = r at haccepted ⊢
  cases haccepted with
  | discarded => exact .refl c
  | expired => exact Or.inr (Nat.lt_succ_self _)
  | started hstarted =>
      obtain ⟨hsteady, -, -⟩ := hstarted.steady
      exact Or.inl ⟨hsteady.generation, hsteady.stopped, hsteady.fault⟩

omit [Trig K] in
/-- An `accept` that starts nothing goes on with what was started, or ends it. -/
theorem continues_accept {c : StepCycle K} {request : Request} {action : NavidaAction K} {now : K}
    {nowNs : ℤ} (h : (c.accept request action now nowNs).2 = false) :
    c.Continues (c.accept request action now nowNs).1 := by
  have haccepted := StepCycle.accept_cases c request action now nowNs
  generalize c.accept request action now nowNs = r at h haccepted ⊢
  cases haccepted with
  | discarded => exact .refl c
  | expired => exact StepCycle.continues_of (Or.inl rfl) (Or.inl rfl)
  | started hstarted =>
      obtain ⟨-, -, hrefused⟩ := hstarted.steady
      rw [hrefused h]
      exact StepCycle.continues_of (Or.inr rfl) (Or.inr rfl)

theorem onward_acceptReply (w : World K Image Jpeg) (token : Request) (reply : Reply K) (now : K)
    (nowNs : ℤ) : Onward w (w.acceptReply token reply now nowNs).1 := by
  let w₁ := w.setCycle (w.node.cycle.accept token reply.action now nowNs).1
  have hprogress : w.node.cycle.Progress w₁.node.cycle := by
    rw [setCycle_node]
    exact progress_accept w.node.cycle token reply.action now nowNs
  have hstarts : starts w₁.trace = starts w.trace := starts_setCycle w _
  unfold World.acceptReply
  dsimp only
  split
  · have hlt : starts w.trace < starts (w₁.record (.replyStarted token reply)).trace :=
      hstarts.ge.trans_lt (Nat.lt_succ_self _)
    split
    · exact onward_of_lt hprogress hlt
    · exact onward_of_lt hprogress hlt
  · rename_i hnot
    refine ⟨hprogress, hstarts.ge, fun _ => ?_⟩
    show w.node.cycle.Continues w₁.node.cycle
    rw [setCycle_node]
    exact continues_accept (Bool.eq_false_iff.mpr hnot)

theorem onward_finishRequest (w : World K Image Jpeg) (now : K) (nowNs : ℤ) :
    Onward w (w.finishRequest now nowNs).1 := by
  have hfailed : ∀ (w : World K Image Jpeg) (token : Request) (reason : String),
      Onward w (w.requestFailed token reason now nowNs) := by
    intro w token reason
    unfold World.requestFailed
    dsimp only
    split
    · exact ((calm_fail w reason now nowNs).trans
        (calm_record _ (.event (.requestFailed reason)) id)).onward
    · exact (calm_record w (.event (.requestFailed reason)) id).onward
  have htaken : Onward w { w with node := { w.node with future := none, requestToken := none } } :=
    onward_of_eq rfl rfl
  unfold World.finishRequest
  split
  · dsimp only
    split
    · exact htaken
    · exact htaken.trans (hfailed _ _ _)
    · split
      · exact htaken.trans (hfailed _ _ _)
      · exact htaken.trans (onward_acceptReply _ _ _ now nowNs)
  · exact onward_of_eq rfl rfl

omit [Trig K] in
theorem onward_ask (w : World K Image Jpeg) (now : K) (nowNs : ℤ) :
    Onward w (w.ask now nowNs) := by
  have hsame : Onward w w := onward_of_eq rfl rfl
  unfold World.ask
  split
  · split
    · dsimp only
      split
      · split
        · exact hsame
        · rename_i c token hrequest
          obtain ⟨-, -, rfl⟩ := StepCycle.request_token hrequest
          let w₁ := w.setCycle { w.node.cycle with pending := some token }
          have hpending : Onward w w₁ := by
            refine ⟨?_, (starts_setCycle w _).ge, fun _ => ?_⟩
            · rw [setCycle_node]
              exact Or.inl ⟨rfl, rfl, rfl⟩
            · rw [setCycle_node]
              exact StepCycle.continues_of (Or.inr rfl) (Or.inr rfl)
          exact hpending.trans (onward_of_eq rfl rfl)
      · exact hsame
    · exact hsame
  · exact hsame

theorem onward_proceed (w : World K Image Jpeg) (now : K) (nowNs : ℤ) :
    Onward w (w.proceed now nowNs) := by
  unfold World.proceed
  split
  · exact onward_ask w now nowNs
  · split
    · rename_i action rest _ _
      obtain ⟨hsteady, -, hrefused⟩ :=
        (StepCycle.start_cases w.node.cycle action now nowNs).steady
      let w₁ := w.setCycle (w.node.cycle.start action now nowNs).1
      have hprogress : w.node.cycle.Progress w₁.node.cycle := by
        rw [setCycle_node]
        exact hsteady.progress
      have hstarts : starts w₁.trace = starts w.trace := starts_setCycle w _
      dsimp only
      split
      · exact onward_of_lt hprogress (hstarts.ge.trans_lt (Nat.lt_succ_self _))
      · rename_i hnot
        have hstill : Onward w w₁ := by
          refine onward_of_eq ?_ hstarts
          rw [setCycle_node]
          exact hrefused (Bool.eq_false_iff.mpr hnot)
        exact hstill.trans (onward_ask _ now nowNs)
    · exact onward_ask w now nowNs

/-- **No event lowers the generation**, and one that stops or resumes the cycle or
changes its fault raises it; no event starts anything but what the history says. -/
theorem onward_step (w : World K Image Jpeg) (e : Event K Image Jpeg) : Onward w (step w e) := by
  obtain ⟨input, first, second⟩ := e
  cases input with
  | goal msg => exact (calm_setGoal w msg.text? true first second).onward
  | observation msg => exact (calm_onObservation w msg first second).onward
  | odom msg => exact (calm_onOdom w msg first second).onward
  | forcedStop data => exact (calm_onForcedStop w data first second).onward
  | httpDone outcome => exact onward_of_eq rfl rfl
  | powerDone outcome => exact onward_of_eq rfl rfl
  | tick =>
      show Onward w (w.onTick first second)
      have hcollect : Onward w (w.collect first).1 := by
        have hpower : Onward w (w.powerTick first.now first.nowNs) := (calm_powerTick w).onward
        unfold collect
        dsimp only
        split
        · exact hpower.trans (onward_finishRequest _ _ _)
        · exact hpower
      unfold World.onTick
      dsimp only
      split
      · exact hcollect
      · have hcalm := calm_report (w.collect first).1 first second
        exact (hcollect.trans hcalm.onward).trans (onward_proceed _ _ _)

/-! ## Consistency -/

/-- **Requests, replies and the queue are consistent** in every run whose ticks are
all answered: a pending request is backed by its future and its token, every entry
of the history is proper, and the cycle is busy with nothing but the newest start.
An event that adds no start to the history begins nothing, and the generation that
the history speaks of is raised by every interruption. -/
theorem request_reply_consistent {maxV maxW : K} {es : List (Event K Image Jpeg)}
    {w : World K Image Jpeg} (h : ((machine maxV maxW).restrict Answered).Run es w) :
    Backed w ∧ (∀ newer e older, w.trace = newer ++ e :: older → Proper e older) ∧
      w.node.cycle.BusyWith (started w.trace) ∧
      ∀ e, w.node.cycle.Progress (step w e).node.cycle ∧
        (Interrupts w e → w.node.cycle.generation < (step w e).node.cycle.generation) ∧
        (starts (step w e).trace = starts w.trace →
          w.node.cycle.Continues (step w e).node.cycle) := by
  have horderly : Orderly w := (orderly_invariant maxV maxW).of_run h
  refine ⟨horderly.backed, each_iff.mp horderly.history, horderly.busy, fun e => ?_⟩
  have honward := onward_step w e
  exact ⟨honward.progress, generation_interrupt, honward.continues⟩

end

/-! ## A reply, and an exception in its place -/

instance [DecidableEq K] (w : World K Image Jpeg) :
    (e : Event K Image Jpeg) → Decidable (Answered w e)
  | ⟨.tick, _, _⟩ => inferInstanceAs (Decidable (_ → _ → _))
  | ⟨.goal _, _, _⟩ => inferInstanceAs (Decidable True)
  | ⟨.observation _, _, _⟩ => inferInstanceAs (Decidable True)
  | ⟨.odom _, _, _⟩ => inferInstanceAs (Decidable True)
  | ⟨.forcedStop _, _, _⟩ => inferInstanceAs (Decidable True)
  | ⟨.httpDone _, _, _⟩ => inferInstanceAs (Decidable True)
  | ⟨.powerDone _, _, _⟩ => inferInstanceAs (Decidable True)

instance [Field K] [LinearOrder K] [Trig K] (maxV maxW : K) (w : World K Image Jpeg)
    (e : Event K Image Jpeg) : Decidable (((machine maxV maxW).restrict Answered).Guard w e) :=
  inferInstanceAs (Decidable ((machine maxV maxW).Guard w e ∧ Answered w e))

/-- A quarter of a metre ahead of the origin, stamped in milliseconds. -/
def aheadAt (ms : ℤ) : OdometryMsg ℚ :=
  ⟨0, ms * 1000000, .fin (1 / 4), .fin 0, .fin 0, .fin 0, .fin 0, .fin 1, .fin 0⟩

/-- The reply to the first request has two actions; the second one is started
once the first is done, and the motors are on again. -/
def firstChunk : List (Event ℚ Unit Unit) :=
  firstRequest ++ [atMs 1800 (.httpDone (.reply ⟨1, ⟨1 / 4, 0⟩,
    "forward 25 cm, turn left 30 degrees".toList⟩)), atMs 1850 .tick,
    atMs 1900 (.odom (aheadAt 1890)), atMs 1950 .tick, atMs 1960 (.powerDone (.response true)),
    atMs 2000 .tick, atMs 2060 (.odom (aheadAt 2050)), atMs 2220 (.odom (aheadAt 2210)),
    atMs 2260 .tick, atMs 2270 (.powerDone (.response true)), atMs 2310 .tick,
    atMs 2370 (.odom (aheadAt 2360)), atMs 2580 (.odom (aheadAt 2570)), atMs 2600 .tick]

/-- The server answers the first request with a status line that `http.client`
rejects. -/
def badStatusLine : List (Event ℚ Unit Unit) :=
  firstRequest ++ [atMs 1800 (.httpDone .uncaught), atMs 1850 .tick]

/-- The reply with two actions: in the end the second one is under way. -/
theorem request_reply_consistent_first_chunk :
    ∃ w : World ℚ Unit Unit, ((machine (1 / 10) (35 / 100)).restrict Answered).Run firstChunk w ∧
      w.node.cycle.action = some ⟨0, Trig.radians 30⟩ ∧ w.node.queue = [] ∧ Backed w ∧
      (∀ newer e older, w.trace = newer ++ e :: older → Proper e older) ∧
      w.node.cycle.BusyWith (started w.trace) := by
  have hrun : ((machine (1 / 10) (35 / 100)).restrict Answered).Run firstChunk
      ((machine (1 / 10) (35 / 100)).exec switchedOn firstChunk) := by
    rw [← Machine.restrict_exec Answered]
    exact Machine.run_of_enabled (M := (machine (1 / 10) (35 / 100)).restrict Answered)
      init_switchedOn (by decide +kernel)
  obtain ⟨hbacked, hproper, hbusy, -⟩ := request_reply_consistent hrun
  exact ⟨_, hrun, by decide +kernel, by decide +kernel, hbacked, hproper, hbusy⟩

/-- **An exception that is not caught leaves the cycle waiting for nothing**: the
request is pending, and there is neither a future nor a token. -/
theorem pending_without_future :
    ∃ w : World ℚ Unit Unit, (machine (1 / 10) (35 / 100)).Run badStatusLine w ∧
      w.node.future = none ∧ w.node.requestToken = none ∧ ¬ Backed w := by
  have hrun : (machine (1 / 10) (35 / 100)).Run badStatusLine
      ((machine (1 / 10) (35 / 100)).exec switchedOn badStatusLine) :=
    Machine.run_of_enabled init_switchedOn (by decide +kernel)
  have hfuture : ((machine (1 / 10) (35 / 100)).exec switchedOn badStatusLine).node.future =
      none := by
    decide +kernel
  have hpending : ((machine (1 / 10) (35 / 100)).exec switchedOn
      badStatusLine).node.cycle.pending.isSome = true := by
    decide +kernel
  refine ⟨_, hrun, hfuture, by decide +kernel, ?_⟩
  intro hbacked
  obtain ⟨token, htoken⟩ := Option.isSome_iff_exists.mp hpending
  obtain ⟨-, hsome⟩ := hbacked token htoken
  rw [hfuture] at hsome
  cases hsome

end NavidaStepBridge
