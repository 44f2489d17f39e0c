/-
# The action tick

`_action_tick`, `_log_action_diag` and `_action_tick_local` of `edge_node.py`.
The tick runs in the heavy callback group; between any two of its lock-protected
steps the callbacks of the I/O group may run on another thread.  `Gaps` are
lists of such steps, one list for each place where they may come in, and
`ioRun` carries them out; a goal change is one step (it holds the ledger lock
throughout), a reply is two.

The tick reads the cache twice, once for the status and once for the embedding,
and uses the embedding outside its `try`.  `actionTick_ends_in_publish_iff`
says when that goes well.
-/
import Rvln.EdgeNode
import Rvln.NavPath

variable {R Image Emb : Type*}

/-! ## The other thread -/

/-- What the I/O group may do while the tick runs. -/
inductive IoStep (R Image Emb : Type*)
  | onGoal (msg : GoalSpec R Image)
  | onOdom (msg : Odometry R) (nowNs : ℤ)
  | onImage (image : Image) (stampNs sourceStampNs : ℤ)
  | takeReplyFrame (emb : ActionEmbedding Emb) (nowNs : ℤ)
  | put

/-- The node, and the embedding a reply callback is about to `put`. -/
structure IoState (R Image Emb : Type*) where
  node : EdgeNode R Image Emb
  held : Option (CachedEmbedding Emb Image)

/-- One step of the I/O group.  The two halves of `_on_embedding_received` are
the shape check with `take_reply_frame`, and `put`. -/
def ioStep [Field R] [LinearOrder R] [Trig R] [PyLen Emb] (decode : Image → Option Image)
    (s : IoState R Image Emb) : IoStep R Image Emb → IoState R Image Emb
  | .onGoal msg => { s with node := s.node.onGoal decode msg }
  | .onOdom msg nowNs => { s with node := s.node.onOdom msg nowNs }
  | .onImage image stampNs sourceStampNs =>
      { s with node := s.node.onImage image stampNs sourceStampNs }
  | .takeReplyFrame emb nowNs =>
      if s.node.cache.isSome && emb.shapeOk then
        let taken := s.node.observations.takeReplyFrame emb.frameId
        { node := { s.node with observations := taken.1 }
          held := some (emb.cached nowNs taken.2) }
      -- without a cache or with a wrong shape the reply is dropped
      else { s with held := none }
  | .put =>
      match s.held with
      | none => s
      | some emb =>
          { node := { s.node with cache := s.node.cache.map fun c => c.put emb }, held := none }

/-- The steps of one gap, oldest first. -/
def ioRun [Field R] [LinearOrder R] [Trig R] [PyLen Emb] (decode : Image → Option Image)
    (s : IoState R Image Emb) (steps : List (IoStep R Image Emb)) : IoState R Image Emb :=
  steps.foldl (ioStep decode) s

/-- The I/O steps before each of the tick's reads; the status is read first. -/
structure Gaps (R Image Emb : Type*) where
  beforeGoal : List (IoStep R Image Emb)
  beforeOdom : List (IoStep R Image Emb)
  beforeRaw : List (IoStep R Image Emb)
  beforeImage : List (IoStep R Image Emb)
  beforeDiag : List (IoStep R Image Emb)

namespace Gaps

/-- A tick that nothing interrupts. -/
def none : Gaps R Image Emb := ⟨[], [], [], [], []⟩

section

variable [Field R] [LinearOrder R] [Trig R] [PyLen Emb] (gaps : Gaps R Image Emb)
  (decode : Image → Option Image) (s : IoState R Image Emb)

/-- The state in which the goal is snapshotted. -/
def atGoal : IoState R Image Emb := ioRun decode s gaps.beforeGoal

/-- The state in which the odometry is looked at. -/
def atOdom : IoState R Image Emb := ioRun decode (gaps.atGoal decode s) gaps.beforeOdom

/-- The state in which the embedding is read. -/
def atRaw : IoState R Image Emb := ioRun decode (gaps.atOdom decode s) gaps.beforeRaw

/-- The state in which the camera frame is read. -/
def atImage : IoState R Image Emb := ioRun decode (gaps.atRaw decode s) gaps.beforeImage

/-- The state in which the diagnostic line is written. -/
def atDiag : IoState R Image Emb := ioRun decode (gaps.atImage decode s) gaps.beforeDiag

end

end Gaps

/-! ## The tick -/

/-- The keyword arguments of `predict_path`. -/
structure PredictArgs (Emb Image : Type*) where
  embedding : Option Emb
  embeddingShape : Option (ℕ × ℕ × ℕ)
  curImageRgb : Image
  pastImageRgb : Image
  frameId : String

/-- What the tick reads besides the node: its clock readings, and the adapter's
`predict_path`, whose exceptions are values here. -/
structure TickEnv (R Image Emb : Type*) where
  statusNs : ℤ
  odomNs : ℤ
  imageNs : ℤ
  diagNs : ℤ
  predictPath : PredictArgs Emb Image → Except PyError (NavPath R)

/-- How a tick ended: the paths it published, the exception that left it, and
the embedding the published path was predicted from. -/
structure TickOutcome (R Image Emb : Type*) where
  published : List (NavPath R)
  raised : Option PyError
  source : Option (CachedEmbedding Emb Image)

namespace TickOutcome

/-- A return before anything is published. -/
def nothing : TickOutcome R Image Emb := ⟨[], none, none⟩

/-- The empty path, which stops the follower. -/
def safeStop : TickOutcome R Image Emb := ⟨[NavPath.empty "base_link"], none, none⟩

end TickOutcome

namespace EdgeNode

/-- The goal is a pose in the odometry frame. -/
def goalInOdom (n : EdgeNode R Image Emb) : Bool :=
  match n.observations.snapshotGoal.1 with
  | none => false
  | some goal => goal.mode == GoalSpec.MODE_POSE && goal.pose.frameId == "odom"

/-- `self._cache.get_latest_raw()`. -/
def latestRaw (n : EdgeNode R Image Emb) : Option (CachedEmbedding Emb Image) :=
  n.cache.bind fun c => c.getLatestRaw

/-- The arguments of `predict_path` in cloud mode; without a paired frame the
current one stands in for the past one. -/
def predictArgs (emb : CachedEmbedding Emb Image) (cur : Image) : PredictArgs Emb Image where
  embedding := some emb.embedding
  embeddingShape := some (1, emb.numTokens, emb.embedDim)
  curImageRgb := cur
  pastImageRgb := emb.obsImageRgb.getD cur
  frameId := "base_link"

/-- The throttle of `_log_action_diag` lets a line through. -/
def diagDue (n : EdgeNode R Image Emb) (nowNs : ℤ) : Bool :=
  !decide (nowNs - n.lastDiagLogNs < 1000000000)

/-- `_log_action_diag`: the throttle, and `np.abs(arr).max()`, which raises on an
array without elements. -/
def logActionDiag [PyLen Emb] (n : EdgeNode R Image Emb) (emb : CachedEmbedding Emb Image)
    (nowNs : ℤ) : EdgeNode R Image Emb × Option PyError :=
  if n.diagDue nowNs then
    ({ n with lastDiagLogNs := nowNs },
      if PyLen.len emb.embedding = 0 then some .valueError else none)
  else (n, none)

/-- `_action_tick_local`. -/
def actionTickLocal (n : EdgeNode R Image Emb) (params : EdgeParams)
    (env : TickEnv R Image Emb) : TickOutcome R Image Emb :=
  match n.freshImage params env.imageNs with
  | none => .safeStop
  | some cur =>
      match env.predictPath ⟨none, none, cur, cur, "base_link"⟩ with
      | .ok path => ⟨[path], none, none⟩
      | .error _ => .safeStop

/-- The diagnostic line raises exactly when it is due and the array is empty. -/
theorem logActionDiag_raises_iff [PyLen Emb] (n : EdgeNode R Image Emb)
    (emb : CachedEmbedding Emb Image) (nowNs : ℤ) :
    (n.logActionDiag emb nowNs).2 = none ↔
      (n.diagDue nowNs = true → PyLen.len emb.embedding ≠ 0) := by
  unfold logActionDiag
  by_cases hdue : n.diagDue nowNs = true
  · rw [if_pos hdue]
    simp [hdue]
  · rw [if_neg hdue]
    simp [hdue]

theorem logActionDiag_node [PyLen Emb] (n : EdgeNode R Image Emb)
    (emb : CachedEmbedding Emb Image) (nowNs : ℤ) :
    ∃ ns, (n.logActionDiag emb nowNs).1 = { n with lastDiagLogNs := ns } := by
  unfold logActionDiag
  split
  · exact ⟨nowNs, rfl⟩
  · exact ⟨n.lastDiagLogNs, rfl⟩

section

variable [Field R] [LinearOrder R] [Trig R] [PyLen Emb] (decode : Image → Option Image)
  (params : EdgeParams) (env : TickEnv R Image Emb) (gaps : Gaps R Image Emb)
  (s : IoState R Image Emb)

/-- `_action_tick`, with the I/O group at work in the gaps.  Steps of gaps that
a returned tick no longer reaches happen after it. -/
def actionTick : IoState R Image Emb × TickOutcome R Image Emb :=
  let atDiag := gaps.atDiag decode s
  if !s.node.pathPub || s.node.adapter.isNone then (atDiag, .nothing)
  else if s.node.localMode then
    (atDiag, (gaps.atImage decode s).node.actionTickLocal params env)
  else
    match s.node.cache with
    | none => (atDiag, .nothing)
    | some cache =>
        let status := cache.status env.statusNs
        if (gaps.atGoal decode s).node.goalInOdom &&
            ((gaps.atOdom decode s).node.freshOdom params env.odomNs).isNone then
          (atDiag, .safeStop)
        else if status = .waitingRemote ∨ status = .stale then (atDiag, .safeStop)
        else
          let raw := (gaps.atRaw decode s).node.latestRaw
          match (gaps.atImage decode s).node.freshImage params env.imageNs with
          | none => (atDiag, .safeStop)
          | some cur =>
              match raw with
              -- `emb.obs_image_rgb` on `None`, outside the `try`
              | none => (atDiag, ⟨[], some .attributeError, none⟩)
              | some emb =>
                  let logged := atDiag.node.logActionDiag emb env.diagNs
                  ({ atDiag with node := logged.1 },
                    match logged.2 with
                    | some e => ⟨[], some e, none⟩
                    | none =>
                        match env.predictPath (predictArgs emb cur) with
                        | .ok path => ⟨[path], none, some emb⟩
                        | .error _ => .safeStop)

end

/-! ## When a tick ends in a publish -/

/-- The node is configured and active, with the policy in the cloud. -/
structure CloudActive (n : EdgeNode R Image Emb) : Prop where
  pathPub : n.pathPub = true
  adapter : n.adapter.isSome = true
  cloud : n.localMode = false
  cache : n.cache.isSome = true

/-- No exception escapes, and exactly one path goes out: an empty one, or what
`predict_path` made of the embedding read in this tick. -/
def EndsInPublish (raw : Option (CachedEmbedding Emb Image)) (env : TickEnv R Image Emb)
    (out : TickOutcome R Image Emb) : Prop :=
  out.raised = none ∧ ∃ path, out.published = [path] ∧
    (path.poses = [] ∨
      ∃ emb cur, raw = some emb ∧ env.predictPath (predictArgs emb cur) = .ok path)

theorem endsInPublish_safeStop (raw : Option (CachedEmbedding Emb Image))
    (env : TickEnv R Image Emb) : EndsInPublish raw env .safeStop :=
  ⟨rfl, NavPath.empty "base_link", rfl, Or.inl rfl⟩

theorem not_endsInPublish_of_raised {raw : Option (CachedEmbedding Emb Image)}
    {env : TickEnv R Image Emb} {out : TickOutcome R Image Emb} {e : PyError}
    (h : out.raised = some e) : ¬ EndsInPublish raw env out := by
  rintro ⟨hnone, -⟩
  rw [h] at hnone
  cases hnone

/-- What is published after the prediction: the predicted path, or the empty one
if `predict_path` raised. -/
theorem endsInPublish_predict {env : TickEnv R Image Emb}
    {raw : Option (CachedEmbedding Emb Image)} {emb : CachedEmbedding Emb Image}
    (hraw : raw = some emb) (cur : Image) :
    EndsInPublish raw env
      (match env.predictPath (predictArgs emb cur) with
        | .ok path => ⟨[path], none, some emb⟩
        | .error _ => .safeStop) := by
  cases hpred : env.predictPath (predictArgs emb cur) with
  | error e => exact endsInPublish_safeStop raw env
  | ok path => exact ⟨rfl, path, rfl, Or.inr ⟨emb, cur, hraw, hpred⟩⟩

section

variable [Field R] [LinearOrder R] [Trig R] [PyLen Emb] (decode : Image → Option Image)
  (params : EdgeParams) (env : TickEnv R Image Emb) (gaps : Gaps R Image Emb)
  (s : IoState R Image Emb)

/-- The tick stops the robot before it looks at the embedding: a goal in the
odometry frame without fresh odometry, nothing usable in the cache when the
status was read, or no fresh camera frame. -/
def StopsBeforeUse : Prop :=
  ((gaps.atGoal decode s).node.goalInOdom = true ∧
      (gaps.atOdom decode s).node.freshOdom params env.odomNs = none) ∨
    (∃ cache ∈ s.node.cache, cache.status env.statusNs = .waitingRemote ∨
      cache.status env.statusNs = .stale) ∨
    (gaps.atImage decode s).node.freshImage params env.imageNs = none

/-- The cache still holds an embedding when it is read the second time, and one
with elements if the diagnostic line is due. -/
def HoldsUsable : Prop :=
  ∃ emb ∈ (gaps.atRaw decode s).node.latestRaw,
    s.node.diagDue env.diagNs = true → PyLen.len emb.embedding ≠ 0

variable {decode params env gaps s}

/-- The I/O group does not touch the throttle of the diagnostic line. -/
theorem ioStep_lastDiagLogNs (step : IoStep R Image Emb) :
    (ioStep decode s step).node.lastDiagLogNs = s.node.lastDiagLogNs := by
  cases step with
  | takeReplyFrame emb nowNs =>
      simp only [ioStep]
      split <;> rfl
  | put =>
      simp only [ioStep]
      split <;> rfl
  | _ => rfl

theorem ioRun_lastDiagLogNs (steps : List (IoStep R Image Emb)) :
    (ioRun decode s steps).node.lastDiagLogNs = s.node.lastDiagLogNs := by
  induction steps generalizing s with
  | nil => rfl
  | cons step steps ih => exact (@ih (ioStep decode s step)).trans (ioStep_lastDiagLogNs step)

theorem diagDue_atDiag (decode : Image → Option Image) (gaps : Gaps R Image Emb)
    (s : IoState R Image Emb) (nowNs : ℤ) :
    (gaps.atDiag decode s).node.diagDue nowNs = s.node.diagDue nowNs := by
  have h : (gaps.atDiag decode s).node.lastDiagLogNs = s.node.lastDiagLogNs := by
    simp only [Gaps.atDiag, Gaps.atImage, Gaps.atRaw, Gaps.atOdom, Gaps.atGoal,
      ioRun_lastDiagLogNs]
  simp only [diagDue, h]

/-- A tick that stops before it looks at the embedding publishes the empty path. -/
theorem actionTick_of_stopsBeforeUse (hn : s.node.CloudActive)
    (h : StopsBeforeUse decode params env gaps s) :
    (actionTick decode params env gaps s).2 = .safeStop := by
  obtain ⟨cache, hcache⟩ := Option.isSome_iff_exists.mp hn.cache
  have hadapter : s.node.adapter.isNone = false := by simpa using hn.adapter
  unfold actionTick
  simp only [hn.pathPub, hadapter, hn.cloud, hcache, Bool.not_true, Bool.or_self,
    Bool.false_eq_true, if_false]
  split
  · rfl
  · rename_i hodom
    split
    · rfl
    · rename_i hstatus
      rcases h with ⟨hgoal, hfresh⟩ | ⟨c, hc, hst⟩ | himage
      · exact absurd (by simp [hgoal, hfresh]) hodom
      · cases hc.symm.trans hcache
        exact absurd hst hstatus
      · rw [himage]

/-- Past the early stops the outcome depends on the second read alone. -/
theorem actionTick_of_not_stopsBeforeUse (hn : s.node.CloudActive)
    (h : ¬ StopsBeforeUse decode params env gaps s) :
    ∃ cur, (gaps.atImage decode s).node.freshImage params env.imageNs = some cur ∧
      (actionTick decode params env gaps s).2 =
        match (gaps.atRaw decode s).node.latestRaw with
        | none => ⟨[], some .attributeError, none⟩
        | some emb =>
            match ((gaps.atDiag decode s).node.logActionDiag emb env.diagNs).2 with
            | some e => ⟨[], some e, none⟩
            | none =>
                match env.predictPath (predictArgs emb cur) with
                | .ok path => ⟨[path], none, some emb⟩
                | .error _ => .safeStop := by
  obtain ⟨cache, hcache⟩ := Option.isSome_iff_exists.mp hn.cache
  have hadapter : s.node.adapter.isNone = false := by simpa using hn.adapter
  have hodom : ¬ ((gaps.atGoal decode s).node.goalInOdom &&
      ((gaps.atOdom decode s).node.freshOdom params env.odomNs).isNone) = true := by
    intro hc
    obtain ⟨hgoal, hfresh⟩ := Bool.and_eq_true_iff.mp hc
    exact h (Or.inl ⟨hgoal, Option.isNone_iff_eq_none.mp hfresh⟩)
  have hstatus : ¬ (cache.status env.statusNs = .waitingRemote ∨
      cache.status env.statusNs = .stale) := fun hc => h (Or.inr (Or.inl ⟨cache, hcache, hc⟩))
  cases himage : (gaps.atImage decode s).node.freshImage params env.imageNs with
  | none => exact absurd (Or.inr (Or.inr himage)) h
  | some cur =>
      refine ⟨cur, rfl, ?_⟩
      unfold actionTick
      simp only [hn.pathPub, hadapter, hn.cloud, hcache, Bool.not_true, Bool.or_self,
        Bool.false_eq_true, if_false]
      rw [if_neg hodom, if_neg hstatus, himage]
      dsimp only
      cases (gaps.atRaw decode s).node.latestRaw <;> rfl

/-- **The action tick ends in a publish** exactly when it stops before it looks
at the embedding, or the embedding is still there at the second read and has
elements if the diagnostic line is due. -/
theorem actionTick_ends_in_publish_iff (hn : s.node.CloudActive) :
    EndsInPublish (gaps.atRaw decode s).node.latestRaw env
        (actionTick decode params env gaps s).2 ↔
      StopsBeforeUse decode params env gaps s ∨ HoldsUsable decode env gaps s := by
  by_cases hstop : StopsBeforeUse decode params env gaps s
  · rw [actionTick_of_stopsBeforeUse hn hstop]
    exact iff_of_true (endsInPublish_safeStop _ env) (Or.inl hstop)
  · obtain ⟨cur, -, hout⟩ := actionTick_of_not_stopsBeforeUse hn hstop
    rw [hout, or_iff_right hstop]
    cases hraw : (gaps.atRaw decode s).node.latestRaw with
    | none =>
        refine iff_of_false (not_endsInPublish_of_raised rfl) ?_
        rintro ⟨emb, hemb, -⟩
        rw [hraw] at hemb
        cases hemb
    | some emb =>
        have husable : HoldsUsable decode env gaps s ↔
            (s.node.diagDue env.diagNs = true → PyLen.len emb.embedding ≠ 0) := by
          unfold HoldsUsable
          rw [hraw]
          simp
        rw [husable, ← diagDue_atDiag decode gaps s, ← logActionDiag_raises_iff]
        dsimp only
        cases hlog : ((gaps.atDiag decode s).node.logActionDiag emb env.diagNs).2 with
        | some e => exact iff_of_false (not_endsInPublish_of_raised rfl) (by simp)
        | none => exact iff_of_true (endsInPublish_predict rfl cur) rfl

/-- What a tick predicts from is the embedding of its second read. -/
theorem latestRaw_of_source {emb : CachedEmbedding Emb Image}
    (h : (actionTick decode params env gaps s).2.source = some emb) :
    (gaps.atRaw decode s).node.latestRaw = some emb := by
  unfold actionTick at h
  dsimp only at h
  split at h
  · cases h
  · split at h
    · -- the local policy uses no embedding
      unfold actionTickLocal at h
      split at h
      · cases h
      · split at h <;> cases h
    · split at h
      · cases h
      · split at h
        · cases h
        · split at h
          · cases h
          · split at h
            · cases h
            · split at h
              · cases h
              · rename_i emb' hraw
                split at h
                · cases h
                · split at h
                  · cases h
                    exact hraw
                  · cases h

/-- Nothing but the throttle of the diagnostic line changes in a tick that
nothing interrupts. -/
theorem actionTick_node (decode : Image → Option Image) (params : EdgeParams)
    (env : TickEnv R Image Emb) (n : EdgeNode R Image Emb) :
    ∃ ns, (actionTick decode params env Gaps.none ⟨n, none⟩).1.node =
      { n with lastDiagLogNs := ns } := by
  have hkeep : ∃ ns, n = { n with lastDiagLogNs := ns } := ⟨n.lastDiagLogNs, rfl⟩
  unfold actionTick
  dsimp only
  split
  · exact hkeep
  · split
    · exact hkeep
    · split
      · exact hkeep
      · split
        · exact hkeep
        · split
          · exact hkeep
          · split
            · exact hkeep
            · split
              · exact hkeep
              · exact logActionDiag_node n _ env.diagNs

end

/-! ## A node that has just received its first reply -/

section

variable [Field R] [LinearOrder R] [Trig R]

/-- `control.py`'s text goal. -/
def textGoal : GoalSpec R ℕ := ⟨GoalSpec.MODE_TEXT, ⟨"", 0, 0, 0, 0, 0, 0⟩, "go to the door", 0⟩

/-- Configured and activated in cloud mode, a camera frame `7`, a text goal, one
observation sent, and `emb` received as the answer. -/
def firstReply (emb : ActionEmbedding (List ℕ)) : EdgeNode R ℕ (List ℕ) :=
  let n := (new.onConfigure .defaults (some ⟨false, none⟩) true).1.onActivate
  let n := (n.onImage 7 0 0).onGoal some textGoal
  let n := (n.sendObservationTick .defaults (⟨0, 0, some, 0⟩ : SendEnv ℕ ℕ)).1
  (n.onEmbeddingReceived emb 0).1

/-- A tick one second later, with an adapter that goes one metre straight on. -/
def firstTickEnv : TickEnv R ℕ (List ℕ) :=
  ⟨1, 1, 1, 1000000000, fun _ => .ok ⟨"base_link", [⟨1, 0, 1, 0⟩]⟩⟩

end

/-- Two ticks that an exception ends, nothing published: a goal arrives between
the two reads of the cache, and the reply had zero tokens. -/
theorem actionTick_raises :
    (let gaps : Gaps ℝ ℕ (List ℕ) := ⟨[], [], [.onGoal textGoal], [], []⟩
      let s := ⟨firstReply ⟨1, 1, 2, [5, 6]⟩, none⟩
      CloudActive s.node ∧
        (actionTick some .defaults firstTickEnv gaps s).2.raised = some .attributeError ∧
        ¬ EndsInPublish (gaps.atRaw some s).node.latestRaw firstTickEnv
          (actionTick some .defaults firstTickEnv gaps s).2) ∧
    (let gaps : Gaps ℝ ℕ (List ℕ) := Gaps.none
      let s := ⟨firstReply ⟨1, 0, 1024, []⟩, none⟩
      CloudActive s.node ∧
        (actionTick some .defaults firstTickEnv gaps s).2.raised = some .valueError ∧
        ¬ EndsInPublish (gaps.atRaw some s).node.latestRaw firstTickEnv
          (actionTick some .defaults firstTickEnv gaps s).2) := by
  have hgoal : (actionTick some .defaults firstTickEnv
      (⟨[], [], [.onGoal textGoal], [], []⟩ : Gaps ℝ ℕ (List ℕ))
      ⟨firstReply ⟨1, 1, 2, [5, 6]⟩, none⟩).2.raised = some .attributeError := by
    decide +kernel
  have hzero : (actionTick some .defaults firstTickEnv (Gaps.none : Gaps ℝ ℕ (List ℕ))
      ⟨firstReply ⟨1, 0, 1024, []⟩, none⟩).2.raised = some .valueError := by
    decide +kernel
  refine ⟨⟨?_, hgoal, not_endsInPublish_of_raised hgoal⟩,
    ⟨?_, hzero, not_endsInPublish_of_raised hzero⟩⟩
  · constructor <;> decide +kernel
  · constructor <;> decide +kernel

/-- An undisturbed tick on an embedding of one token. -/
theorem actionTick_ends_in_publish_first :
    let s : IoState ℝ ℕ (List ℕ) := ⟨firstReply ⟨1, 1, 2, [5, 6]⟩, none⟩
    EndsInPublish (Gaps.none.atRaw some s).node.latestRaw firstTickEnv
      (actionTick some .defaults firstTickEnv Gaps.none s).2 := by
  intro s
  have hone : (Gaps.none.atRaw some s).node.latestRaw = some ⟨1, 0, [5, 6], 1, 2, some 7⟩ := by
    decide +kernel
  have hactive : s.node.CloudActive := by
    constructor <;> decide +kernel
  exact (actionTick_ends_in_publish_iff hactive).mpr (Or.inr ⟨_, hone, fun _ => by decide⟩)

end EdgeNode
