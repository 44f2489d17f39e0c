/-
# The ROS entities of the edge node

ROS keeps a publisher, a subscription or a timer alive, and goes on calling its
callback, until it is destroyed.  The node reaches it through an attribute only.
A `Slot` is one attribute together with the entities ever created for it: what
`on_configure` and `on_activate` create overwrites the attribute, and
`on_deactivate` and `on_cleanup` destroy what the attribute holds.

`on_configure` creates the cloud entities before it opens the camera, so a
failure there leaves them alive in an unconfigured node; `on_shutdown` destroys
nothing.  `prescribed_iff` : these two are all that goes wrong.
-/
import Rvln.ActionTick
import Rvln.Machine

namespace NodeEntities

/-! ## Slots -/

/-- An attribute, with the entities created for it that are still alive, by the
order of their creation. -/
structure Slot where
  held : Option ℕ
  live : List ℕ
  made : ℕ
  deriving DecidableEq

namespace Slot

def empty : Slot := ⟨none, [], 0⟩

/-- `self.attr = self.create_...(...)`. -/
def create (s : Slot) : Slot := ⟨some s.made, s.made :: s.live, s.made + 1⟩

/-- `if self.attr is not None: self.destroy_...(self.attr); self.attr = None`. -/
def destroy (s : Slot) : Slot :=
  match s.held with
  | none => s
  | some i => { s with held := none, live := s.live.filter fun j => j ≠ i }

/-- There is one entity, and the attribute holds it; or there is none, and the
attribute is `None`. -/
def Tidy (s : Slot) (present : Bool) : Prop :=
  match s.held with
  | none => present = false ∧ s.live = []
  | some i => present = true ∧ s.live = [i]

/-- What a tidy slot holds. -/
theorem tidy_iff {s : Slot} {present : Bool} :
    s.Tidy present ↔
      s.held.isSome = present ∧ s.live = s.held.toList := by
  unfold Tidy
  cases s.held <;> simp [eq_comm]

/-- A destroyed attribute is `None`. -/
@[simp] theorem destroy_held (s : Slot) : s.destroy.held = none := by
  unfold Slot.destroy
  split
  · assumption
  · rfl

theorem tidy_empty : empty.Tidy false := ⟨rfl, rfl⟩

/-- Creating fills an empty slot. -/
theorem Tidy.create {s : Slot} (h : s.Tidy false) : s.create.Tidy true := by
  obtain ⟨hheld, hlive⟩ := tidy_iff.mp h
  rw [Option.isSome_eq_false_iff, Option.isNone_iff_eq_none] at hheld
  refine ⟨rfl, ?_⟩
  rw [Slot.create, hlive, hheld, Option.toList_none]

/-- Destroying empties a tidy slot. -/
theorem Tidy.destroy {s : Slot} {present : Bool} (h : s.Tidy present) : s.destroy.Tidy false := by
  obtain ⟨-, hlive⟩ := tidy_iff.mp h
  unfold Slot.destroy
  cases hheld : s.held with
  | none =>
      refine tidy_iff.mpr ⟨by rw [hheld]; rfl, ?_⟩
      rw [hlive]
  | some i =>
      refine ⟨rfl, ?_⟩
      rw [hlive, hheld]
      simp

/-- A tidy slot has as many live entities as it should. -/
theorem Tidy.length {s : Slot} {present : Bool} (h : s.Tidy present) :
    s.live.length = present.toNat := by
  obtain ⟨hheld, hlive⟩ := tidy_iff.mp h
  rw [hlive, ← hheld]
  cases s.held <;> rfl

end Slot

/-! ## The attributes -/

/-- The attributes of `VLAEdgeNode` that hold an entity. -/
inductive Attr
  | observationPub
  | remoteEmbeddingSub
  | imageSub
  | goalSub
  | odomSub
  | pathPub
  | statusPub
  | embeddingPub
  | sendTimer
  | actionTimer
  | statusTimer
  deriving DecidableEq

/-- The entities of the node, attribute by attribute. -/
abbrev Slots : Type := Attr → Slot

namespace Slots

/-- Change the slots of the attributes, one after the other. -/
def modify (f : Slot → Slot) (s : Slots) (attrs : List Attr) : Slots :=
  attrs.foldl (fun s a => Function.update s a (f (s a))) s

/-- Create an entity for each of the attributes. -/
def create (s : Slots) (attrs : List Attr) : Slots := s.modify Slot.create attrs

/-- Destroy what the attributes hold. -/
def destroy (s : Slots) (attrs : List Attr) : Slots := s.modify Slot.destroy attrs

/-- A slot depends on its own attribute only. -/
theorem modify_apply (f : Slot → Slot) {attrs : List Attr} (hnodup : attrs.Nodup) (s : Slots)
    (a : Attr) : s.modify f attrs a = if a ∈ attrs then f (s a) else s a := by
  induction attrs generalizing s with
  | nil => rfl
  | cons b attrs ih =>
      obtain ⟨hb, hnodup⟩ := List.nodup_cons.mp hnodup
      rw [show s.modify f (b :: attrs) = Slots.modify f (Function.update s b (f (s b))) attrs
        from rfl, ih hnodup]
      by_cases h : a = b
      · subst h
        rw [if_neg hb, if_pos List.mem_cons_self, Function.update_self]
      · rw [Function.update_of_ne h]
        simp only [List.mem_cons, h, false_or]

/-! ### What the callbacks do to them -/

/-- What `on_configure` creates before it opens the camera. -/
def cloudAttrs (localMode : Bool) : List Attr :=
  if localMode then [] else [.observationPub, .remoteEmbeddingSub]

/-- What `on_configure` creates after that. -/
def topicAttrs (params : EdgeParams) : List Attr :=
  (if params.cameraDevice ≠ "" then [] else [.imageSub]) ++
    [.goalSub, .odomSub, .pathPub, .statusPub] ++
      if params.publishEmbeddingDebug then [.embeddingPub] else []

/-- `on_configure`. -/
def onConfigure (s : Slots) (params : EdgeParams) (localMode cameraOpens : Bool) : Slots :=
  let s := s.create (cloudAttrs localMode)
  if params.cameraDevice ≠ "" ∧ !cameraOpens then s else s.create (topicAttrs params)

/-- What `on_activate` creates. -/
def timerAttrs (localMode : Bool) : List Attr :=
  if localMode then [.actionTimer, .statusTimer] else [.sendTimer, .actionTimer, .statusTimer]

/-- `on_activate`. -/
def onActivate (s : Slots) (localMode : Bool) : Slots := s.create (timerAttrs localMode)

/-- `on_deactivate`. -/
def onDeactivate (s : Slots) : Slots := s.destroy [.sendTimer, .actionTimer, .statusTimer]

/-- What `on_cleanup` destroys. -/
def cleanupAttrs : List Attr :=
  [.remoteEmbeddingSub, .observationPub, .imageSub, .goalSub, .odomSub, .pathPub, .statusPub,
    .embeddingPub]

/-- `on_cleanup`. -/
def onCleanup (s : Slots) : Slots := s.destroy cleanupAttrs

/-- `on_shutdown`. -/
def onShutdown (s : Slots) : Slots := s

theorem onConfigure_apply (s : Slots) (params : EdgeParams) (localMode cameraOpens : Bool)
    (a : Attr) :
    s.onConfigure params localMode cameraOpens a =
      if a ∈ cloudAttrs localMode then (s a).create
      else if ¬ (params.cameraDevice ≠ "" ∧ !cameraOpens) ∧ a ∈ topicAttrs params then
        (s a).create
      else s a := by
  have hcloud : (cloudAttrs localMode).Nodup := by cases localMode <;> decide
  have htopic : (topicAttrs params).Nodup := by
    unfold topicAttrs
    split <;> split <;> decide
  have hdisjoint : a ∈ cloudAttrs localMode → a ∉ topicAttrs params := by
    intro hc ht
    unfold topicAttrs at ht
    cases localMode
    · rcases List.mem_pair.mp hc with rfl | rfl <;> revert ht <;> split <;> split <;> decide
    · cases hc
  unfold onConfigure create
  by_cases hcam : params.cameraDevice ≠ "" ∧ !cameraOpens
  · rw [if_pos hcam, modify_apply _ hcloud, if_neg (fun h => h.1 hcam : ¬ (¬ _ ∧ a ∈ _))]
  · rw [if_neg hcam, modify_apply _ htopic, modify_apply _ hcloud]
    by_cases hc : a ∈ cloudAttrs localMode
    · rw [if_neg (hdisjoint hc), if_pos hc, if_pos hc]
    · simp only [hc, if_false, hcam, not_false_eq_true, true_and]

theorem onActivate_apply (s : Slots) (localMode : Bool) (a : Attr) :
    s.onActivate localMode a = if a ∈ timerAttrs localMode then (s a).create else s a :=
  modify_apply _ (by cases localMode <;> decide) s a

theorem onDeactivate_apply (s : Slots) (a : Attr) :
    s.onDeactivate a = if a ∈ timerAttrs false then (s a).destroy else s a :=
  modify_apply _ (by decide) s a

theorem onCleanup_apply (s : Slots) (a : Attr) :
    s.onCleanup a = if a ∈ cleanupAttrs then (s a).destroy else s a :=
  modify_apply _ (by decide) s a

end Slots

/-! ## The node and its entities -/

/-- The primary lifecycle states. -/
inductive Primary
  | unconfigured
  | inactive
  | active
  | finalized
  deriving DecidableEq

/-- What a configuration is made with. -/
structure Config where
  params : EdgeParams
  localMode : Bool

/-- The entities that a configured node has, and its timers when it is active. -/
def Config.has (c : Config) : Attr → Bool
  | .observationPub | .remoteEmbeddingSub | .sendTimer => !c.localMode
  | .imageSub => c.params.cameraDevice = ""
  | .embeddingPub => c.params.publishEmbeddingDebug
  | _ => true

def Attr.isTimer : Attr → Bool
  | .sendTimer | .actionTimer | .statusTimer => true
  | _ => false

/-- The node, its entities, its primary state and the last configuration that
succeeded. -/
structure World (R Image Emb : Type*) where
  node : EdgeNode R Image Emb
  slots : Slots
  primary : Primary
  config : Config

/-- The lifecycle transitions; parameters may change before every configure. -/
inductive Event (R Image : Type*)
  | configure (params : EdgeParams) (built : EdgeAdapter R Image) (cameraOpens : Bool)
  | activate
  | deactivate
  | cleanup
  | shutdown

namespace World

variable {R Image Emb : Type*}

/-- A node that was just started. -/
def new : World R Image Emb :=
  ⟨EdgeNode.new, fun _ => .empty, .unconfigured, ⟨.defaults, false⟩⟩

/-- One transition. -/
def step (w : World R Image Emb) : Event R Image → World R Image Emb
  | .configure params built cameraOpens =>
      let r := w.node.onConfigure params (some built) cameraOpens
      { node := r.1
        slots := w.slots.onConfigure params built.isLocal cameraOpens
        primary := if r.2 = .success then .inactive else .unconfigured
        config := if r.2 = .success then ⟨params, built.isLocal⟩ else w.config }
  | .activate =>
      { w with
        node := w.node.onActivate
        slots := w.slots.onActivate w.node.localMode
        primary := .active }
  | .deactivate =>
      { w with
        node := w.node.onDeactivate
        slots := w.slots.onDeactivate
        primary := .inactive }
  | .cleanup =>
      { w with
        node := w.node.onCleanup
        slots := w.slots.onCleanup
        primary := .unconfigured }
  | .shutdown => { w with slots := w.slots.onShutdown, primary := .finalized }

/-- Where the transitions start; the time-outs of a configure are in order, and
the adapter can be built. -/
def Guard (w : World R Image Emb) : Event R Image → Prop
  | .configure params .. =>
      w.primary = .unconfigured ∧ params.embeddingMaxAgeSec ≤ params.embeddingHardTimeoutSec
  | .activate => w.primary = .inactive
  | .deactivate => w.primary = .active
  | .cleanup => w.primary = .inactive
  | .shutdown => w.primary ≠ .finalized

/-- The node over any sequence of transitions. -/
def machine : Machine (World R Image Emb) (Event R Image) where
  Init w := w = new
  Guard := Guard
  next := step

/-! ### What a primary state prescribes -/

/-- The attributes that hold an entity in the current primary state. -/
def prescribed (w : World R Image Emb) (a : Attr) : Bool :=
  match w.primary with
  | .unconfigured | .finalized => false
  | .inactive => !a.isTimer && w.config.has a
  | .active => w.config.has a

/-- A message on the embedding topic reaches every live subscription. -/
def deliverEmbedding [PyLen Emb] (w : World R Image Emb) (emb : ActionEmbedding Emb)
    (nowNs : ℤ) : EdgeNode R Image Emb :=
  (w.slots .remoteEmbeddingSub).live.foldl (fun n _ => (n.onEmbeddingReceived emb nowNs).1) w.node

/-- The paths that the live action timers publish when their time comes. -/
def timerPaths [Field R] [LinearOrder R] [Trig R] [PyLen Emb] (w : World R Image Emb)
    (decode : Image → Option Image) (params : EdgeParams) (env : TickEnv R Image Emb) :
    List (NavPath R) :=
  (w.slots .actionTimer).live.flatMap fun _ =>
    (EdgeNode.actionTick decode params env Gaps.none ⟨w.node, none⟩).2.published

/-- The live entities are those that the primary state prescribes; so an
embedding message is handled once, and only active nodes publish paths. -/
structure Prescribed [Field R] [LinearOrder R] [Trig R] [PyLen Emb] (w : World R Image Emb) :
    Prop where
  entities : ∀ a, (w.slots a).live.length = (w.prescribed a).toNat
  embeddingOnce : w.prescribed .remoteEmbeddingSub = true → ∀ emb nowNs,
    w.deliverEmbedding emb nowNs = (w.node.onEmbeddingReceived emb nowNs).1
  noPath : w.primary ≠ .active → ∀ decode params env, w.timerPaths decode params env = []

/-- A condition on the transitions of a run: the camera opens in every configure
that needs it, unless the policy is on board, and only an unconfigured node is
shut down. -/
def Clean (w : World R Image Emb) : Event R Image → Prop
  | .configure params built cameraOpens =>
      built.isLocal = true ∨ params.cameraDevice = "" ∨ cameraOpens = true
  | .shutdown => w.primary = .unconfigured
  | _ => True

/-! ### Clean runs -/

/-- `on_configure` without an exception. -/
theorem onConfigure_result {n : EdgeNode R Image Emb} {params : EdgeParams}
    (hcache : params.embeddingMaxAgeSec ≤ params.embeddingHardTimeoutSec)
    (built : EdgeAdapter R Image) (cameraOpens : Bool) :
    ((n.onConfigure params (some built) cameraOpens).2 =
        if params.cameraDevice ≠ "" ∧ !cameraOpens then .failure else .success) ∧
      (n.onConfigure params (some built) cameraOpens).1.localMode = built.isLocal := by
  unfold EdgeNode.onConfigure EmbeddingCache.new?
  rw [if_neg (not_lt.mpr hcache)]
  dsimp only
  by_cases hcam : params.cameraDevice ≠ "" ∧ !cameraOpens
  · rw [if_pos hcam, if_pos hcam]
    refine ⟨rfl, ?_⟩
    split <;> rfl
  · rw [if_neg hcam, if_neg hcam]
    refine ⟨rfl, ?_⟩
    dsimp only
    split <;> rfl

/-- What a successful `on_configure` creates. -/
theorem mem_configured_iff (params : EdgeParams) (localMode : Bool) (a : Attr) :
    (a ∈ Slots.cloudAttrs localMode ∨ a ∈ Slots.topicAttrs params) ↔
      (!a.isTimer && Config.has ⟨params, localMode⟩ a) = true := by
  unfold Slots.topicAttrs
  by_cases hcam : params.cameraDevice = "" <;> by_cases hdebug : params.publishEmbeddingDebug <;>
    cases localMode <;> cases a <;>
    simp [Slots.cloudAttrs, Attr.isTimer, Config.has, hcam, hdebug]

/-- What `on_activate` creates. -/
theorem mem_timerAttrs_iff (c : Config) (a : Attr) :
    a ∈ Slots.timerAttrs c.localMode ↔ (a.isTimer && c.has a) = true := by
  obtain ⟨params, localMode⟩ := c
  cases localMode <;> cases a <;> simp [Slots.timerAttrs, Attr.isTimer, Config.has]

/-- The slots are those that the primary state prescribes, and a configured node
knows its mode. -/
structure TidyNode (w : World R Image Emb) : Prop where
  slots : ∀ a, (w.slots a).Tidy (w.prescribed a)
  localMode : w.primary = .inactive ∨ w.primary = .active →
    w.node.localMode = w.config.localMode

variable {w : World R Image Emb}

theorem TidyNode.configure (h : TidyNode w) (hprimary : w.primary = .unconfigured)
    {params : EdgeParams} {built : EdgeAdapter R Image} {cameraOpens : Bool}
    (hcache : params.embeddingMaxAgeSec ≤ params.embeddingHardTimeoutSec)
    (hclean : built.isLocal = true ∨ params.cameraDevice = "" ∨ cameraOpens = true) :
    TidyNode (w.step (.configure params built cameraOpens)) := by
  obtain ⟨hresult, hmode⟩ := onConfigure_result (n := w.node) hcache built cameraOpens
  have hempty : ∀ a, (w.slots a).Tidy false := by
    intro a
    have ha := h.slots a
    rwa [prescribed, hprimary] at ha
  by_cases hcam : params.cameraDevice ≠ "" ∧ !cameraOpens
  · -- the open fails, so the policy is on board and nothing was created
    rw [if_pos hcam] at hresult
    have hlocal : built.isLocal = true := by
      rcases hclean with hlocal | hdevice | hopens
      · exact hlocal
      · exact absurd hdevice hcam.1
      · exact absurd hopens (by simpa using hcam.2)
    refine ⟨?_, ?_⟩
    · intro a
      show (w.slots.onConfigure params built.isLocal cameraOpens a).Tidy _
      rw [Slots.onConfigure_apply, hlocal, if_neg (show a ∉ Slots.cloudAttrs true from
        List.not_mem_nil), if_neg (fun h => h.1 hcam : ¬ (¬ _ ∧ a ∈ _))]
      simp only [step, hresult, prescribed]
      exact hempty a
    · intro hp
      simp [step, hresult] at hp
  · -- everything that is created is new: no attribute held anything
    rw [if_neg hcam] at hresult
    refine ⟨?_, fun _ => by simpa [step, hresult] using hmode⟩
    intro a
    have hhas := mem_configured_iff params built.isLocal a
    show (w.slots.onConfigure params built.isLocal cameraOpens a).Tidy _
    rw [Slots.onConfigure_apply]
    simp only [step, hresult, prescribed, if_true]
    by_cases hc : a ∈ Slots.cloudAttrs built.isLocal
    · rw [if_pos hc, hhas.mp (Or.inl hc)]
      exact (hempty a).create
    · rw [if_neg hc]
      by_cases ht : a ∈ Slots.topicAttrs params
      · rw [if_pos ⟨hcam, ht⟩, hhas.mp (Or.inr ht)]
        exact (hempty a).create
      · rw [if_neg (fun h => ht h.2), Bool.eq_false_iff.mpr
          (fun hb => (hhas.mpr hb).elim hc ht)]
        exact hempty a

theorem TidyNode.activate (h : TidyNode w) (hprimary : w.primary = .inactive) :
    TidyNode (w.step .activate) := by
  have hmode : w.node.localMode = w.config.localMode := h.localMode (Or.inl hprimary)
  refine ⟨?_, fun _ => hmode⟩
  intro a
  have hslot : (w.slots a).Tidy (!a.isTimer && w.config.has a) := by
    have ha := h.slots a
    rwa [prescribed, hprimary] at ha
  have htimer := mem_timerAttrs_iff w.config a
  show (w.slots.onActivate w.node.localMode a).Tidy (w.config.has a)
  rw [Slots.onActivate_apply, hmode]
  by_cases ht : a ∈ Slots.timerAttrs w.config.localMode
  · obtain ⟨hisTimer, hhas⟩ := Bool.and_eq_true_iff.mp (htimer.mp ht)
    rw [hisTimer] at hslot
    rw [if_pos ht, hhas]
    exact hslot.create
  · have hnot : ¬ (a.isTimer && w.config.has a) = true := fun hb => ht (htimer.mpr hb)
    rw [if_neg ht]
    revert hslot hnot
    cases a.isTimer <;> cases w.config.has a <;> simp

theorem TidyNode.deactivate (h : TidyNode w) (hprimary : w.primary = .active) :
    TidyNode (w.step .deactivate) := by
  refine ⟨?_, fun _ => h.localMode (Or.inr hprimary)⟩
  intro a
  have hslot : (w.slots a).Tidy (w.config.has a) := by
    have ha := h.slots a
    rwa [prescribed, hprimary] at ha
  show (w.slots.onDeactivate a).Tidy (!a.isTimer && w.config.has a)
  have htimer : a ∈ Slots.timerAttrs false ↔ a.isTimer = true := by cases a <;> decide
  rw [Slots.onDeactivate_apply]
  by_cases ht : a.isTimer = true
  · rw [if_pos (htimer.mpr ht), ht]
    exact hslot.destroy
  · rw [if_neg (fun hm => ht (htimer.mp hm)), Bool.eq_false_of_not_eq_true ht]
    exact hslot

theorem TidyNode.cleanup (h : TidyNode w) (hprimary : w.primary = .inactive) :
    TidyNode (w.step .cleanup) := by
  refine ⟨?_, fun hp => by simp [step] at hp⟩
  intro a
  have hslot : (w.slots a).Tidy (!a.isTimer && w.config.has a) := by
    have ha := h.slots a
    rwa [prescribed, hprimary] at ha
  show (w.slots.onCleanup a).Tidy false
  have htimer : a ∈ Slots.cleanupAttrs ↔ a.isTimer = false := by cases a <;> decide
  rw [Slots.onCleanup_apply]
  by_cases ht : a.isTimer = false
  · rw [if_pos (htimer.mpr ht)]
    exact hslot.destroy
  · rw [if_neg (fun hm => ht (htimer.mp hm))]
    rw [Bool.not_eq_false] at ht
    rwa [ht] at hslot

theorem tidyNode_invariant :
    ((machine : Machine (World R Image Emb) _).restrict Clean).Invariant TidyNode where
  init := by
    rintro _ rfl
    exact ⟨fun _ => Slot.tidy_empty, fun hp => by simp [new] at hp⟩
  step := by
    rintro w e h ⟨hg, hclean⟩
    cases e with
    | configure params built cameraOpens => exact h.configure hg.1 hg.2 hclean
    | activate => exact h.activate hg
    | deactivate => exact h.deactivate hg
    | cleanup => exact h.cleanup hg
    | shutdown =>
        refine ⟨?_, fun hp => by rcases hp with hp | hp <;> cases hp⟩
        intro a
        have ha := h.slots a
        rwa [prescribed, show w.primary = .unconfigured from hclean] at ha

/-! ### When the lifecycle is inverted -/

section

variable [Field R] [LinearOrder R] [Trig R] [PyLen Emb]

theorem TidyNode.prescribed (h : TidyNode w) : Prescribed w where
  entities a := (h.slots a).length
  embeddingOnce := by
    intro hsub emb nowNs
    have hlength : (w.slots .remoteEmbeddingSub).live.length = 1 := by
      rw [(h.slots .remoteEmbeddingSub).length, hsub]
      rfl
    obtain ⟨i, hi⟩ := List.length_eq_one_iff.mp hlength
    rw [deliverEmbedding, hi]
    rfl
  noPath := by
    intro hprimary decode params env
    have hnone : w.prescribed .actionTimer = false := by
      unfold World.prescribed
      cases hp : w.primary with
      | active => exact absurd hp hprimary
      | _ => rfl
    have hlength : (w.slots .actionTimer).live.length = 0 := by
      rw [(h.slots .actionTimer).length, hnone]
      rfl
    rw [timerPaths, List.length_eq_zero_iff.mp hlength]
    rfl

omit [Field R] [LinearOrder R] [Trig R] [PyLen Emb] in
/-- A failed open leaves the embedding subscription of the cloud mode behind. -/
theorem live_of_failed_open (w : World R Image Emb) (params : EdgeParams)
    {built : EdgeAdapter R Image} (hcloud : built.isLocal = false) (cameraOpens : Bool) :
    (w.slots .remoteEmbeddingSub).made ∈
      ((w.step (.configure params built cameraOpens)).slots .remoteEmbeddingSub).live := by
  show _ ∈ (w.slots.onConfigure params built.isLocal cameraOpens .remoteEmbeddingSub).live
  rw [Slots.onConfigure_apply, hcloud, if_pos (by decide)]
  exact List.mem_cons_self

/-- A transition after which the entities are the prescribed ones is clean. -/
theorem TidyNode.clean_of_prescribed (h : TidyNode w) {e : Event R Image} (hg : w.Guard e)
    (hnext : Prescribed (w.step e)) : w.Clean e := by
  cases e with
  | configure params built cameraOpens =>
      by_contra hclean
      obtain ⟨hlocal, hdevice, hopens⟩ :
          built.isLocal = false ∧ params.cameraDevice ≠ "" ∧ cameraOpens = false := by
        simpa [Clean] using hclean
      obtain ⟨hresult, -⟩ := onConfigure_result (n := w.node) hg.2 built cameraOpens
      rw [if_pos ⟨hdevice, by rw [hopens]; rfl⟩] at hresult
      have hzero := hnext.entities .remoteEmbeddingSub
      rw [show (w.step (.configure params built cameraOpens)).prescribed .remoteEmbeddingSub =
        false by simp [step, World.prescribed, hresult]] at hzero
      have hmem := live_of_failed_open w params hlocal cameraOpens
      rw [List.length_eq_zero_iff.mp hzero] at hmem
      cases hmem
  | shutdown =>
      -- the goal subscription of a configured node is still there
      have hzero : (w.slots .goalSub).live.length = 0 := hnext.entities .goalSub
      rw [(h.slots .goalSub).length] at hzero
      show w.primary = .unconfigured
      cases hp : w.primary with
      | unconfigured => rfl
      | finalized => exact absurd hp hg
      | _ => simp [World.prescribed, hp, Attr.isTimer, Config.has] at hzero
  | _ => exact trivial

/-- **The lifecycle is inverted exactly in clean runs**: after every transition
of a run the live entities are those that the primary state prescribes, if and
only if every transition of the run is clean. -/
theorem prescribed_iff {es : List (Event R Image)} (h : machine.Run es w) :
    (∀ fs (v : World R Image Emb), fs <+: es → machine.Run fs v → v.Prescribed) ↔
      (machine.restrict Clean).Run es w :=
  Machine.restrict_run_iff (fun s t (hs : s = new) (ht : t = new) => hs.trans ht.symm)
    tidyNode_invariant
    (fun _ hv => hv.prescribed) (fun _ _ hv hg hnext => hv.clean_of_prescribed hg hnext) h

end

instance (w : World R Image Emb) : (e : Event R Image) → Decidable (machine.Guard w e)
  | .configure .. => inferInstanceAs (Decidable (_ ∧ _))
  | .activate => inferInstanceAs (Decidable (_ = _))
  | .deactivate => inferInstanceAs (Decidable (_ = _))
  | .cleanup => inferInstanceAs (Decidable (_ = _))
  | .shutdown => inferInstanceAs (Decidable (_ ≠ _))

instance (w : World R Image Emb) : (e : Event R Image) → Decidable (w.Clean e)
  | .configure .. => inferInstanceAs (Decidable (_ ∨ _ ∨ _))
  | .shutdown => inferInstanceAs (Decidable (_ = _))
  | .activate => inferInstanceAs (Decidable True)
  | .deactivate => inferInstanceAs (Decidable True)
  | .cleanup => inferInstanceAs (Decidable True)

instance (w : World R Image Emb) (e : Event R Image) :
    Decidable ((machine.restrict Clean).Guard w e) :=
  inferInstanceAs (Decidable (machine.Guard w e ∧ w.Clean e))

end World

/-! ## A camera that opens at the second attempt -/

/-- The node captures in-process. -/
def cameraParams : EdgeParams := { EdgeParams.defaults with cameraDevice := "/dev/video0" }

/-- One pass through the whole lifecycle. -/
def onePass (R : Type*) : List (Event R ℕ) :=
  [.configure cameraParams ⟨false, none⟩ true, .activate, .deactivate, .cleanup, .shutdown]

/-- The launch side retries configure until the camera is there. -/
def retried (R : Type*) : List (Event R ℕ) :=
  [.configure cameraParams ⟨false, none⟩ false, .configure cameraParams ⟨false, none⟩ true]

/-- The process is told to shut down while the node is active. -/
def shutDownActive (R : Type*) : List (Event R ℕ) :=
  [.configure cameraParams ⟨false, none⟩ true, .activate, .shutdown]

/-- A pass without a failure is clean. -/
theorem prescribed_onePass :
    (World.machine.exec (World.new : World ℝ ℕ (List ℕ)) (onePass ℝ)).Prescribed := by
  have hclean : (World.machine.restrict World.Clean).Run (onePass ℝ)
      (World.machine.exec (World.new : World ℝ ℕ (List ℕ)) (onePass ℝ)) := by
    rw [← Machine.restrict_exec World.Clean]
    exact Machine.run_of_enabled rfl (by decide +kernel)
  have hrun := hclean.of_restrict
  exact (World.prescribed_iff hrun).mpr hclean _ _ (List.prefix_refl _) hrun

/-- **Entities are left behind**: after the second attempt to configure there are
two embedding subscriptions, and a node that was shut down while active goes on
with its action timer. -/
theorem entities_left_behind :
    (∃ w : World ℝ ℕ (List ℕ), World.machine.Run (retried ℝ) w ∧
      (w.slots .remoteEmbeddingSub).live = [1, 0] ∧ ¬ w.Prescribed) ∧
    (∃ w : World ℝ ℕ (List ℕ), World.machine.Run (shutDownActive ℝ) w ∧
      (w.slots .actionTimer).live = [0] ∧ ¬ w.Prescribed) := by
  constructor
  · refine ⟨_, Machine.run_of_enabled rfl (by decide +kernel), by decide +kernel, ?_⟩
    intro h
    exact absurd (h.entities .remoteEmbeddingSub) (by decide +kernel)
  · refine ⟨_, Machine.run_of_enabled rfl (by decide +kernel), by decide +kernel, ?_⟩
    intro h
    exact absurd (h.entities .actionTimer) (by decide +kernel)

end NodeEntities
