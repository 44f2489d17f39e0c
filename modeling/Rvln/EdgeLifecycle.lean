/-
# The edge node over its whole lifecycle

Runs of the edge node made of lifecycle transitions, goals, observations,
replies, action ticks and restarts of the process.  The replies to all
observations ever sent stay in flight, also over a cleanup or a restart, and
may be delivered at any time and in any order.

A reply is tagged with the observation it answers; the tag travels inside the
payload, which the code never inspects.  `epoch` counts the configure attempts
and restarts, so an observation answers the current goal of the current period
exactly when its epoch and its generation are the current ones (`Current`).

The floor that keeps replies to an older goal out lives in the cache object,
which `on_configure` creates anew without a floor.  `Separated` is what holds
in every run in which no reply of an earlier period gets past such a cache.
-/
import Rvln.ActionTick

namespace EdgeLifecycle

variable {R Image Emb Jpeg : Type*}

/-- An observation that was sent: in which period, for which goal, under which
frame id. -/
structure SentObs where
  epoch : ℕ
  generation : ℕ
  frameId : ℕ
  deriving DecidableEq, Repr

/-- A payload with the observation it answers. -/
abbrev Tagged (Emb : Type*) : Type _ := SentObs × Emb

instance [PyLen Emb] : PyLen (Tagged Emb) := ⟨fun e => PyLen.len e.2⟩

/-- The primary lifecycle states. -/
inductive Primary
  | unconfigured
  | inactive
  | active
  deriving DecidableEq, Repr

/-- The node in its process, and the history: the period, whether a goal came
in it, the observations sent so far, and those whose well-shaped reply reached
the cache. -/
structure World (R Image Emb : Type*) where
  node : EdgeNode R Image (Tagged Emb)
  primary : Primary
  epoch : ℕ
  goalSinceConfigure : Bool
  sent : List SentObs
  answered : List SentObs

/-- What can happen to the node; parameters may change at any time. -/
inductive Event (R Image Emb Jpeg : Type*)
  | configure (params : EdgeParams) (built : Option (EdgeAdapter R Image)) (cameraOpens : Bool)
  | activate
  | deactivate
  | cleanup
  | goal (msg : GoalSpec R Image)
  | image (image : Image) (stampNs sourceStampNs : ℤ)
  | odom (msg : Odometry R) (nowNs : ℤ)
  | sendTick (params : EdgeParams) (env : EdgeNode.SendEnv Image Jpeg)
  | reply (o : SentObs) (emb : ActionEmbedding (Tagged Emb)) (nowNs : ℤ)
  | actionTick (params : EdgeParams) (env : TickEnv R Image (Tagged Emb))
  | restart

section

variable [Field R] [LinearOrder R] [Trig R] [PyLen Emb] (decode : Image → Option Image)

/-- The node's own state after an event. -/
def stepNode (w : World R Image Emb) : Event R Image Emb Jpeg → EdgeNode R Image (Tagged Emb)
  | .configure params built cameraOpens => (w.node.onConfigure params built cameraOpens).1
  | .activate => w.node.onActivate
  | .deactivate => w.node.onDeactivate
  | .cleanup => w.node.onCleanup
  | .goal msg => w.node.onGoal decode msg
  | .image image stampNs sourceStampNs => w.node.onImage image stampNs sourceStampNs
  | .odom msg nowNs => w.node.onOdom msg nowNs
  | .sendTick params env => (w.node.sendObservationTick params env).1
  | .reply _ emb nowNs => (w.node.onEmbeddingReceived emb nowNs).1
  | .actionTick params env =>
      (EdgeNode.actionTick decode params env Gaps.none ⟨w.node, none⟩).1.node
  | .restart => EdgeNode.new

/-- The node's state with the history. -/
def step (w : World R Image Emb) (e : Event R Image Emb Jpeg) : World R Image Emb :=
  let w' := { w with node := stepNode decode w e }
  match e with
  | .configure params built cameraOpens =>
      { w' with
        primary :=
          if (w.node.onConfigure params built cameraOpens).2 = .success then .inactive
          else .unconfigured
        epoch := w.epoch + 1
        goalSinceConfigure := false }
  | .activate => { w' with primary := .active }
  | .deactivate => { w' with primary := .inactive }
  | .cleanup => { w' with primary := .unconfigured }
  | .goal _ => { w' with goalSinceConfigure := true }
  | .sendTick params env =>
      match (w.node.sendObservationTick params env).2 with
      | none => w'
      | some obs =>
          { w' with sent := ⟨w.epoch, w.node.observations.generation, obs.frameId⟩ :: w.sent }
  | .reply o emb _ =>
      if w.node.cache.isSome && emb.shapeOk then { w' with answered := o :: w.answered } else w'
  | .restart =>
      { w' with primary := .unconfigured, epoch := w.epoch + 1, goalSinceConfigure := false }
  | _ => w'

/-- Which events the lifecycle, the node's own subscriptions and timers, and
the network allow. -/
def Guard (w : World R Image Emb) : Event R Image Emb Jpeg → Prop
  | .configure .. => w.primary = .unconfigured
  | .activate => w.primary = .inactive
  | .deactivate => w.primary = .active
  | .cleanup => w.primary = .inactive
  | .goal _ => w.node.goalSub = true
  | .sendTick .. => w.node.sendTimer = true
  | .reply o emb _ =>
      w.node.remoteEmbeddingSub = true ∧ o ∈ w.sent ∧ emb.frameId = o.frameId ∧
        emb.embedding.1 = o
  | .actionTick .. => w.node.actionTimer = true
  | _ => True

instance (w : World R Image Emb) : (e : Event R Image Emb Jpeg) → Decidable (Guard w e)
  | .configure .. => inferInstanceAs (Decidable (_ = _))
  | .activate => inferInstanceAs (Decidable (_ = _))
  | .deactivate => inferInstanceAs (Decidable (_ = _))
  | .cleanup => inferInstanceAs (Decidable (_ = _))
  | .goal _ => inferInstanceAs (Decidable (_ = _))
  | .sendTick .. => inferInstanceAs (Decidable (_ = _))
  | .reply .. => inferInstanceAs (Decidable (_ ∧ _))
  | .actionTick .. => inferInstanceAs (Decidable (_ = _))
  | .image .. => inferInstanceAs (Decidable True)
  | .odom .. => inferInstanceAs (Decidable True)
  | .restart => inferInstanceAs (Decidable True)

/-- The process has just started and nothing was ever sent. -/
def World.new : World R Image Emb where
  node := EdgeNode.new
  primary := .unconfigured
  epoch := 0
  goalSinceConfigure := false
  sent := []
  answered := []

/-- The edge node from the start of its first process on. -/
def machine : Machine (World R Image Emb) (Event R Image Emb Jpeg) where
  Init w := w = World.new
  Guard := Guard
  next := step decode

instance (w : World R Image Emb) (e : Event R Image Emb Jpeg) :
    Decidable ((machine decode).Guard w e) :=
  inferInstanceAs (Decidable (Guard w e))

/-! ## No driving on an embedding of an older goal -/

/-- The observation was sent for the current goal of the current period. -/
def World.Current (w : World R Image Emb) (o : SentObs) : Prop :=
  o ∈ w.sent ∧ o.epoch = w.epoch ∧ o.generation = w.node.observations.generation

/-- An action tick that publishes a predicted path predicted it from an answer
to the current goal, which came after the last configure. -/
def DrivesOnCurrentGoal (w : World R Image Emb) : Prop :=
  ∀ params env emb, w.node.actionTimer = true →
    (EdgeNode.actionTick decode params env Gaps.none ⟨w.node, none⟩).2.source = some emb →
    w.goalSinceConfigure = true ∧ w.Current emb.embedding.1

/-- A well-shaped reply to the current goal that is newer than all earlier ones
to the current goal is stored. -/
def StoresNewerReply (w : World R Image Emb) : Prop :=
  ∀ o emb nowNs, w.node.remoteEmbeddingSub = true → emb.frameId = o.frameId →
    emb.embedding.1 = o → emb.shapeOk = true → w.Current o →
    (∀ o' ∈ w.answered, w.Current o' → o'.frameId < o.frameId) →
    ∃ img, (w.node.onEmbeddingReceived emb nowNs).1.latestRaw = some (emb.cached nowNs img)

/-- The cache stores the reply. -/
def Stores (n : EdgeNode R Image (Tagged Emb)) (emb : ActionEmbedding (Tagged Emb)) : Prop :=
  emb.shapeOk = true ∧ ∃ cache ∈ n.cache, cache.Accepts emb.frameId

/-- No reply to an observation of an earlier period is stored by the cache of a
configured node. -/
def NoLeftover (w : World R Image Emb) : Event R Image Emb Jpeg → Prop
  | .reply o emb _ => w.primary ≠ .unconfigured → o.epoch ≠ w.epoch → ¬ Stores w.node emb
  | _ => True

end

/-! ## The invariant -/

/-- The cache of a configured node, tied to the ledger and the history. -/
structure CacheSeparated (w : World R Image Emb)
    (cache : EmbeddingCache (Tagged Emb) Image) : Prop where
  /-- Without a floor no goal came in this period, so nothing was sent in it. -/
  noFloor : cache.floor = none →
    w.node.observations.goal = none ∧ ∀ o ∈ w.sent, o.epoch ≠ w.epoch
  goal : ∀ f ∈ cache.floor, w.goalSinceConfigure = true
  floor_le : ∀ f ∈ cache.floor, f ≤ w.node.observations.frameCounter
  /-- Within the period the floor separates the current goal from older ones. -/
  above_floor : ∀ f ∈ cache.floor, ∀ o ∈ w.sent, o.epoch = w.epoch →
    (f < o.frameId ↔ o.generation = w.node.observations.generation)
  /-- What the cache holds answers an observation of the period. -/
  latest : ∀ emb ∈ cache.latest, emb.embedding.1 ∈ w.sent ∧ emb.embedding.1.epoch = w.epoch ∧
    emb.embedding.1.frameId = emb.frameId ∧ emb.embedding.1 ∈ w.answered
  latest_above : ∀ emb ∈ cache.latest, ∀ f ∈ cache.floor, f < emb.frameId

/-- What holds in every run without leftovers. -/
structure Separated (w : World R Image Emb) : Prop where
  epochs_le : ∀ o ∈ w.sent, o.epoch ≤ w.epoch
  ids_le : ∀ o ∈ w.sent, o.epoch = w.epoch → o.frameId ≤ w.node.observations.frameCounter
  generations_le : ∀ o ∈ w.sent, o.epoch = w.epoch →
    o.generation ≤ w.node.observations.generation
  unconfigured : w.primary = .unconfigured → w.node.observations.goal = none ∧
    w.node.goalSub = false ∧ ∀ o, ¬ w.Current o
  timers : w.node.sendTimer = true ∨ w.node.actionTimer = true → w.primary = .active
  configured : w.primary ≠ .unconfigured → ∃ cache, w.node.cache = some cache ∧
    CacheSeparated w cache

theorem World.new_separated : Separated (World.new : World R Image Emb) where
  epochs_le o ho := by cases ho
  ids_le o ho := by cases ho
  generations_le o ho := by cases ho
  unconfigured _ := ⟨rfl, rfl, fun o ho => by cases ho.1⟩
  timers h := by rcases h with h | h <;> cases h
  configured h := absurd rfl h

section

variable {w : World R Image Emb}

/-- A new period: everything sent so far belongs to an earlier one. -/
theorem Separated.epoch_lt (h : Separated w) {o : SentObs} (ho : o ∈ w.sent) :
    o.epoch ≠ w.epoch + 1 := by
  have hle := h.epochs_le o ho
  omega

theorem Separated.configure (h : Separated w) (params : EdgeParams)
    (built : Option (EdgeAdapter R Image)) (cameraOpens : Bool)
    (hg : w.primary = .unconfigured) :
    Separated { w with
      node := (w.node.onConfigure params built cameraOpens).1
      primary := if (w.node.onConfigure params built cameraOpens).2 = .success then .inactive
        else .unconfigured
      epoch := w.epoch + 1
      goalSinceConfigure := false } := by
  obtain ⟨hobs, hsend, haction, hok, hfail⟩ := w.node.onConfigure_spec params built cameraOpens
  obtain ⟨hgoal, hsub, -⟩ := h.unconfigured hg
  -- the new period has sent nothing, so the floor may be missing
  have hold : ∀ o ∈ w.sent, o.epoch ≠ w.epoch + 1 := fun o ho => h.epoch_lt ho
  refine ⟨?_, ?_, ?_, ?_, ?_, ?_⟩
  · intro o ho
    exact Nat.le_succ_of_le (h.epochs_le o ho)
  · intro o ho he
    exact absurd he (hold o ho)
  · intro o ho he
    exact absurd he (hold o ho)
  · intro hp
    have hne : (w.node.onConfigure params built cameraOpens).2 ≠ .success := by
      intro hs
      simp [hs] at hp
    refine ⟨?_, ?_, ?_⟩
    · rw [hobs]
      exact hgoal
    · rw [hfail hne]
      exact hsub
    · rintro o ⟨ho, he, -⟩
      exact hold o ho he
  · intro ht
    rw [hsend, haction] at ht
    rw [h.timers ht] at hg
    cases hg
  · intro hp
    have hs : (w.node.onConfigure params built cameraOpens).2 = .success := by
      by_contra hne
      simp [hne] at hp
    obtain ⟨cache, hcache, hlatest, hfloor⟩ := hok hs
    refine ⟨cache, hcache, ?_⟩
    exact {
      noFloor := fun _ => ⟨by rw [hobs]; exact hgoal, hold⟩
      goal := by simp [hfloor]
      floor_le := by simp [hfloor]
      above_floor := by simp [hfloor]
      latest := by simp [hlatest]
      latest_above := by simp [hlatest] }

theorem Separated.restart (h : Separated w) :
    Separated ({ w with
      node := EdgeNode.new
      primary := .unconfigured
      epoch := w.epoch + 1
      goalSinceConfigure := false } : World R Image Emb) where
  epochs_le o ho := Nat.le_succ_of_le (h.epochs_le o ho)
  ids_le o ho he := absurd he (h.epoch_lt ho)
  generations_le o ho he := absurd he (h.epoch_lt ho)
  unconfigured _ := ⟨rfl, rfl, fun _ ho => h.epoch_lt ho.1 ho.2.1⟩
  timers ht := by rcases ht with ht | ht <;> cases ht
  configured hp := absurd rfl hp

/-- The new generation of `reset` is above that of everything sent. -/
theorem Separated.cleanup (h : Separated w) (hg : w.primary = .inactive) :
    Separated { w with node := w.node.onCleanup, primary := .unconfigured } where
  epochs_le := h.epochs_le
  ids_le := h.ids_le
  generations_le o ho he := Nat.le_succ_of_le (h.generations_le o ho he)
  unconfigured _ := by
    refine ⟨rfl, rfl, ?_⟩
    rintro o ⟨ho, he, hgen⟩
    have hle := h.generations_le o ho he
    have hgen' : o.generation = w.node.observations.generation + 1 := hgen
    omega
  timers ht := by
    rw [h.timers ht] at hg
    cases hg
  configured hp := absurd rfl hp

/-- A goal raises the floor of the cache to the frame counter. -/
theorem Separated.goal [Field R] [LinearOrder R] [Trig R] (h : Separated w)
    (decode : Image → Option Image) (msg : GoalSpec R Image) (hg : w.node.goalSub = true) :
    Separated { w with node := w.node.onGoal decode msg, goalSinceConfigure := true } := by
  have hconf : w.primary ≠ .unconfigured := by
    intro hp
    rw [(h.unconfigured hp).2.1] at hg
    cases hg
  obtain ⟨cache, hcache, -⟩ := h.configured hconf
  exact {
    epochs_le := h.epochs_le
    ids_le := h.ids_le
    generations_le := fun o ho he => Nat.le_succ_of_le (h.generations_le o ho he)
    unconfigured := fun hp => absurd hp hconf
    timers := h.timers
    configured := by
      intro _
      refine ⟨cache.invalidate (some w.node.observations.frameCounter), ?_, ?_⟩
      · simp only [EdgeNode.onGoal, hcache, Option.map_some, ObservationLedger.changeGoal_floor]
      · exact {
          noFloor := by
            intro hf
            cases hf
          goal := fun _ _ => rfl
          floor_le := by
            intro f hf
            cases hf
            exact le_rfl
          above_floor := by
            intro f hf o ho he
            cases hf
            -- every id so far is at most the counter and of an older generation
            have hid := h.ids_le o ho he
            have hgen := h.generations_le o ho he
            show _ < _ ↔ _ = w.node.observations.generation + 1
            constructor <;> intro <;> omega
          latest := by
            intro emb hemb
            cases hemb
          latest_above := by
            intro emb hemb
            cases hemb } }

/-- A send issues the next id, above the floor, under the current generation. -/
theorem Separated.send (h : Separated w) {frameId : ℕ} {image : Image}
    {observations : ObservationLedger (GoalSpec R Image) Image}
    (hrec : w.node.observations.recordSent w.node.observations.generation image =
      (observations, some frameId)) (hg : w.node.sendTimer = true) :
    Separated { w with
      node := { w.node with observations := observations }
      sent := ⟨w.epoch, w.node.observations.generation, frameId⟩ :: w.sent } := by
  obtain ⟨-, hgoal, rfl, rfl⟩ := ObservationLedger.recordSent_some hrec
  have hactive := h.timers (Or.inl hg)
  have hconf : w.primary ≠ .unconfigured := by
    rw [hactive]
    decide
  obtain ⟨cache, hcache, hsep⟩ := h.configured hconf
  have hfloor : cache.floor ≠ none := by
    intro hf
    rw [(hsep.noFloor hf).1] at hgoal
    cases hgoal
  exact {
    epochs_le := by
      intro o ho
      rcases List.mem_cons.mp ho with rfl | ho
      · exact le_rfl
      · exact h.epochs_le o ho
    ids_le := by
      intro o ho he
      rcases List.mem_cons.mp ho with rfl | ho
      · exact le_rfl
      · exact Nat.le_succ_of_le (h.ids_le o ho he)
    generations_le := by
      intro o ho he
      rcases List.mem_cons.mp ho with rfl | ho
      · exact le_rfl
      · exact h.generations_le o ho he
    unconfigured := fun hp => absurd hp hconf
    timers := h.timers
    configured := by
      intro _
      refine ⟨cache, hcache, ?_⟩
      exact {
        noFloor := fun hf => absurd hf hfloor
        goal := hsep.goal
        floor_le := fun f hf => Nat.le_succ_of_le (hsep.floor_le f hf)
        above_floor := by
          intro f hf o ho he
          rcases List.mem_cons.mp ho with rfl | ho
          -- the new id is next to the counter, and so above the floor
          · exact iff_of_true (Nat.lt_succ_of_le (hsep.floor_le f hf)) rfl
          · exact hsep.above_floor f hf o ho he
        latest := by
          intro emb hemb
          obtain ⟨ho, hrest⟩ := hsep.latest emb hemb
          exact ⟨List.mem_cons_of_mem _ ho, hrest⟩
        latest_above := hsep.latest_above } }

/-- A reply of the current period may be stored; one of an earlier period is
not. -/
theorem Separated.reply [PyLen Emb] (h : Separated w) {o : SentObs}
    {emb : ActionEmbedding (Tagged Emb)} (nowNs : ℤ) (ho : o ∈ w.sent)
    (hid : emb.frameId = o.frameId) (htag : emb.embedding.1 = o)
    (hleft : w.primary ≠ .unconfigured → o.epoch ≠ w.epoch → ¬ Stores w.node emb)
    {cache : EmbeddingCache (Tagged Emb) Image} (hcache : w.node.cache = some cache)
    (hshape : emb.shapeOk = true) :
    Separated { w with
      node := (w.node.onEmbeddingReceived emb nowNs).1
      answered := o :: w.answered } := by
  rw [EdgeNode.onEmbeddingReceived_of_shapeOk hcache hshape]
  refine ⟨h.epochs_le, h.ids_le, h.generations_le, h.unconfigured, h.timers, ?_⟩
  intro hp
  refine ⟨_, rfl, ?_⟩
  obtain ⟨cache', hcache', hsep⟩ := h.configured hp
  cases hcache.symm.trans hcache'
  have hold : ∀ e ∈ cache.latest, e.embedding.1 ∈ w.sent ∧ e.embedding.1.epoch = w.epoch ∧
      e.embedding.1.frameId = e.frameId ∧ e.embedding.1 ∈ o :: w.answered := by
    intro e he
    obtain ⟨h₁, h₂, h₃, h₄⟩ := hsep.latest e he
    exact ⟨h₁, h₂, h₃, List.mem_cons_of_mem _ h₄⟩
  by_cases hacc : cache.Accepts emb.frameId
  -- a stored reply is none of an earlier period
  · have hepoch : o.epoch = w.epoch := by
      by_contra hne
      exact hleft hp hne ⟨hshape, cache, hcache, hacc⟩
    rw [EmbeddingCache.put_of_accepts hacc]
    exact {
      noFloor := hsep.noFloor
      goal := hsep.goal
      floor_le := hsep.floor_le
      above_floor := hsep.above_floor
      latest := by
        intro e he
        cases he
        show emb.embedding.1 ∈ w.sent ∧ emb.embedding.1.epoch = w.epoch ∧
          emb.embedding.1.frameId = emb.frameId ∧ emb.embedding.1 ∈ o :: w.answered
        rw [htag]
        exact ⟨ho, hepoch, hid.symm, List.mem_cons_self⟩
      latest_above := by
        intro e he
        cases he
        exact hacc.1 }
  · rw [EmbeddingCache.put_of_not_accepts hacc]
    exact {
      noFloor := hsep.noFloor
      goal := hsep.goal
      floor_le := hsep.floor_le
      above_floor := hsep.above_floor
      latest := hold
      latest_above := hsep.latest_above }

end

/-- A separated world stores every newer reply to the current goal. -/
theorem Separated.storesNewerReply [PyLen Emb] {w : World R Image Emb} (h : Separated w) :
    StoresNewerReply w := by
  intro o emb nowNs _ hid htag hshape hcur hnewer
  have hconf : w.primary ≠ .unconfigured := fun hp => (h.unconfigured hp).2.2 o hcur
  obtain ⟨cache, hcache, hsep⟩ := h.configured hconf
  have habove : ∀ f ∈ cache.floor, f < emb.frameId := by
    intro f hf
    rw [hid]
    exact (hsep.above_floor f hf o hcur.1 hcur.2.1).mpr hcur.2.2
  -- what the cache holds answers the current goal, so it came earlier and is older
  have holder : ∀ e ∈ cache.latest, e.frameId < emb.frameId := by
    intro e he
    obtain ⟨hsent, hepoch, heid, hans⟩ := hsep.latest e he
    have hgen : e.embedding.1.generation = w.node.observations.generation := by
      cases hf : cache.floor with
      | none => exact absurd hepoch ((hsep.noFloor hf).2 _ hsent)
      | some f =>
          have hlt := hsep.latest_above e he f hf
          rw [← heid] at hlt
          exact (hsep.above_floor f hf _ hsent hepoch).mp hlt
    have hlt := hnewer _ hans ⟨hsent, hepoch, hgen⟩
    omega
  have hacc : cache.Accepts emb.frameId := ⟨habove, holder⟩
  refine ⟨(w.node.observations.takeReplyFrame emb.frameId).2, ?_⟩
  rw [EdgeNode.onEmbeddingReceived_of_shapeOk hcache hshape, EdgeNode.latestRaw,
    Option.bind_some, EmbeddingCache.put_of_accepts hacc]
  rfl

section

variable [Field R] [LinearOrder R] [Trig R] [PyLen Emb] {decode : Image → Option Image}

/-- **The invariant of a run without leftovers.** -/
theorem separated_invariant :
    ((machine decode : Machine (World R Image Emb) (Event R Image Emb Jpeg)).restrict
      NoLeftover).Invariant Separated where
  init := by
    rintro _ rfl
    exact World.new_separated
  step := by
    rintro w e h ⟨hg, hleft⟩
    cases e with
    | configure params built cameraOpens => exact h.configure params built cameraOpens hg
    | activate =>
        have hp : w.primary = .inactive := hg
        have hconf := h.configured (by rw [hp]; decide)
        exact { h with
          unconfigured := fun hp => by cases hp
          timers := fun _ => rfl
          configured := fun _ => hconf.imp fun _ hc => ⟨hc.1, { hc.2 with }⟩ }
    | deactivate =>
        have hp : w.primary = .active := hg
        have hconf := h.configured (by rw [hp]; decide)
        exact { h with
          unconfigured := fun hp => by cases hp
          timers := by rintro (ht | ht) <;> cases ht
          configured := fun _ => hconf.imp fun _ hc => ⟨hc.1, { hc.2 with }⟩ }
    | cleanup => exact h.cleanup hg
    | goal msg => exact h.goal decode msg hg
    | image image stampNs sourceStampNs =>
        exact { h with
          configured := fun hp => (h.configured hp).imp fun _ hc => ⟨hc.1, { hc.2 with }⟩ }
    | odom msg nowNs =>
        exact { h with
          configured := fun hp => (h.configured hp).imp fun _ hc => ⟨hc.1, { hc.2 with }⟩ }
    | sendTick params env =>
        show Separated (step decode w (.sendTick params env))
        rcases w.node.sendObservationTick_cases params env with
          hnone | ⟨obs, observations, hsome, img, hrec⟩
        · simp only [step, stepNode, hnone]
          exact h
        · simp only [step, stepNode, hsome]
          exact h.send hrec hg
    | reply o emb nowNs =>
        obtain ⟨-, ho, hid, htag⟩ := hg
        show Separated (step decode w (.reply o emb nowNs))
        -- without a cache or with a wrong shape the reply is dropped
        by_cases hok : (w.node.cache.isSome && emb.shapeOk) = true
        · obtain ⟨hsome, hshape⟩ := Bool.and_eq_true_iff.mp hok
          obtain ⟨cache, hcache⟩ := Option.isSome_iff_exists.mp hsome
          simp only [step, stepNode, hok, if_true]
          exact h.reply nowNs ho hid htag hleft hcache hshape
        · simp only [step, stepNode, if_neg hok, EdgeNode.onEmbeddingReceived_of_not hok]
          exact h
    | actionTick params env =>
        show Separated (step decode w (.actionTick params env))
        obtain ⟨ns, hns⟩ := EdgeNode.actionTick_node decode params env w.node
        simp only [step, stepNode, hns]
        exact { h with
          configured := fun hp => (h.configured hp).imp fun _ hc => ⟨hc.1, { hc.2 with }⟩ }
    | restart => exact h.restart

/-- An action tick of a separated world drives on the current goal only. -/
theorem Separated.drivesOnCurrentGoal {w : World R Image Emb} (h : Separated w) :
    DrivesOnCurrentGoal decode w := by
  intro params env emb htimer hsource
  have hraw : w.node.latestRaw = some emb := EdgeNode.latestRaw_of_source hsource
  have hactive := h.timers (Or.inr htimer)
  obtain ⟨cache, hcache, hsep⟩ := h.configured (by rw [hactive]; decide)
  have hlatest : emb ∈ cache.latest := by
    rw [EdgeNode.latestRaw, hcache] at hraw
    exact hraw
  obtain ⟨hsent, hepoch, hid, -⟩ := hsep.latest emb hlatest
  cases hf : cache.floor with
  | none => exact absurd hepoch ((hsep.noFloor hf).2 _ hsent)
  | some f =>
      have habove := hsep.latest_above emb hlatest f hf
      rw [← hid] at habove
      exact ⟨hsep.goal f hf, hsent, hepoch, (hsep.above_floor f hf _ hsent hepoch).mp habove⟩

/-- **No driving on an embedding of an older goal**, over every run in which no
reply to an observation of an earlier period is stored by a configured node:
at every point of the run an action tick predicts only from an answer to the
current goal, and every newer answer to the current goal is stored. -/
theorem drives_on_current_goal {es : List (Event R Image Emb Jpeg)} {w : World R Image Emb}
    (h : ((machine decode).restrict NoLeftover).Run es w) :
    DrivesOnCurrentGoal decode w ∧ StoresNewerReply w := by
  have hsep : Separated w := separated_invariant.of_run h
  exact ⟨hsep.drivesOnCurrentGoal, hsep.storesNewerReply⟩

end

/-! ## Replies in time and leftovers -/

section

variable [Field R] [LinearOrder R] [Trig R]

/-- Configure in cloud mode, activate, and a camera frame. -/
def bringUp : List (Event R ℕ (List ℕ) ℕ) :=
  [.configure .defaults (some ⟨false, none⟩) true, .activate, .image 7 0 0]

/-- A goal, and an observation sent for it. -/
def ask : List (Event R ℕ (List ℕ) ℕ) :=
  [.goal EdgeNode.textGoal, .sendTick .defaults ⟨0, 0, some, 0⟩]

/-- The one-token answer to an observation. -/
def answer (o : SentObs) : ActionEmbedding (Tagged (List ℕ)) := ⟨o.frameId, 1, 2, (o, [5, 6])⟩

/-- A tick on an OK embedding, with an adapter that goes straight on. -/
def straightOn : TickEnv R ℕ (Tagged (List ℕ)) :=
  ⟨1, 1, 1, 1, fun _ => .ok ⟨"base_link", [⟨1, 0, 1, 0⟩]⟩⟩

/-- The answer to the only observation comes at once. -/
def answeredInTime : List (Event R ℕ (List ℕ) ℕ) :=
  bringUp ++ ask ++ [.reply ⟨1, 1, 1⟩ (answer ⟨1, 1, 1⟩) 0]

/-- The answer to the only observation comes after a cleanup and a new
configure. -/
def leftoverAfterCleanup : List (Event R ℕ (List ℕ) ℕ) :=
  bringUp ++ ask ++ [.deactivate, .cleanup] ++ bringUp ++ [.reply ⟨1, 1, 1⟩ (answer ⟨1, 1, 1⟩) 0]

/-- The answer to the second observation before a restart comes after the first
observation since. -/
def leftoverAfterRestart : List (Event R ℕ (List ℕ) ℕ) :=
  bringUp ++ ask ++ ask ++ [.restart] ++ bringUp ++ ask ++
    [.reply ⟨1, 2, 2⟩ (answer ⟨1, 2, 2⟩) 0]

end

/-- The first reply of the first period. -/
theorem drives_on_current_goal_in_time :
    DrivesOnCurrentGoal some ((machine some).exec World.new (answeredInTime (R := ℝ))) ∧
      StoresNewerReply ((machine some).exec World.new (answeredInTime (R := ℝ))) := by
  have henabled : ((machine some).restrict NoLeftover).Enabled World.new
      (answeredInTime (R := ℝ)) := by
    refine ⟨⟨rfl, trivial⟩, ⟨by decide +kernel, trivial⟩, ⟨trivial, trivial⟩,
      ⟨by decide +kernel, trivial⟩, ⟨by decide +kernel, trivial⟩, ⟨by decide +kernel, ?_⟩, trivial⟩
    intro _ hne
    exact absurd (by decide +kernel) hne
  simpa using drives_on_current_goal (Machine.run_of_enabled rfl henabled)

/-- **Leftover replies drive the robot**: in one run the robot drives although no
goal came since the configure; in another a leftover with a high frame id keeps
the first answer to the current goal out. -/
theorem leftovers_are_stored :
    (∃ w : World ℝ ℕ (List ℕ), (machine some).Run (leftoverAfterCleanup (R := ℝ)) w ∧
      ¬ DrivesOnCurrentGoal some w) ∧
    (∃ w : World ℝ ℕ (List ℕ), (machine some).Run (leftoverAfterRestart (R := ℝ)) w ∧
      ¬ StoresNewerReply w) := by
  constructor
  · refine ⟨_, Machine.run_of_enabled rfl (by decide +kernel), ?_⟩
    intro h
    have hsource := h .defaults straightOn ⟨1, 0, (⟨1, 1, 1⟩, [5, 6]), 1, 2, none⟩
      (by decide +kernel) (by decide +kernel)
    have hgoal : ((machine some).exec World.new
        (leftoverAfterCleanup (R := ℝ))).goalSinceConfigure = false := by
      decide +kernel
    exact absurd (hgoal.symm.trans hsource.1) (by decide)
  · refine ⟨_, Machine.run_of_enabled rfl (by decide +kernel), ?_⟩
    intro h
    obtain ⟨img, himg⟩ := h ⟨3, 1, 1⟩ (answer ⟨3, 1, 1⟩) 0 (by decide +kernel) rfl rfl rfl
      (by unfold World.Current; decide +kernel) (by unfold World.Current; decide +kernel)
    have hkept : ∀ emb ∈ (((machine some).exec World.new (leftoverAfterRestart
        (R := ℝ))).node.onEmbeddingReceived (answer ⟨3, 1, 1⟩) 0).1.latestRaw,
        emb.frameId = 2 := by
      decide +kernel
    exact absurd (hkept _ himg) (show ¬ 1 = 2 by decide)

end EdgeLifecycle
