/-
# Local mode and the newest goal

The edge node with the policy on board: `_on_goal` hands a goal message to the
adapter if it can be converted, `predict_path` of `omnivla_edge_local.py`
predicts for the goal the adapter holds, and `_action_tick_local` publishes what
comes out.

The ledger takes every goal message, the adapter only those that can be
converted.  After one that cannot, the adapter still holds the goal before it,
and the ticks go on driving there; `acts_on_newest_iff` says in which runs that
never shows.
-/
import Rvln.ActionTick

namespace LocalGoal

variable {R Image Emb : Type*}

/-! ## The adapter -/

/-- `infer_chunk` of the engine, with its waypoints packed into a path; an
exception is a value. -/
abbrev InferChunk (R Image : Type*) : Type _ :=
  Image → EdgeGoal R Image → Except PyError (NavPath R)

/-- `OmniVLAEdgeLocalAdapter.predict_path`. -/
def predictPath (inferChunk : InferChunk R Image) (a : EdgeAdapter R Image)
    (args : PredictArgs Emb Image) : Except PyError (NavPath R) :=
  match a.goal with
  | none => .ok (NavPath.empty args.frameId)
  | some goal => inferChunk args.curImageRgb goal

/-- What a tick at `nowNs` reads, with the node's own adapter. -/
def tickEnv (n : EdgeNode R Image Emb) (inferChunk : InferChunk R Image) (nowNs : ℤ) :
    TickEnv R Image Emb where
  statusNs := nowNs
  odomNs := nowNs
  imageNs := nowNs
  diagNs := nowNs
  predictPath args :=
    match n.adapter with
    | none => .error .attributeError
    | some a => predictPath inferChunk a args

/-- A success of `on_configure` in local mode. -/
theorem onConfigure_local {n m : EdgeNode R Image Emb} {params : EdgeParams}
    {built : EdgeAdapter R Image} {cameraOpens : Bool} (hlocal : built.isLocal = true)
    (h : n.onConfigure params (some built) cameraOpens = (m, .success)) :
    m.pathPub = true ∧ m.localMode = true ∧ m.adapter = some built := by
  unfold EdgeNode.onConfigure at h
  dsimp only at h
  split at h
  · cases h
  · rw [if_pos hlocal] at h
    split at h
    · cases h
    · obtain ⟨rfl, -⟩ := Prod.mk.inj h
      exact ⟨rfl, hlocal, rfl⟩

/-! ## The node and its history -/

/-- A published path, with the goal the adapter gave to the policy and the
newest goal message of that moment. -/
structure Published (R Image : Type*) where
  path : NavPath R
  predictedWith : Option (EdgeGoal R Image)
  newest : Option (GoalSpec R Image)

/-- The node, the goal messages since it was configured, and the paths its ticks
published; newest first. -/
structure World (R Image Emb : Type*) where
  node : EdgeNode R Image Emb
  goals : List (GoalSpec R Image)
  published : List (Published R Image)

/-- What can happen to a configured node. -/
inductive Event (R Image : Type*)
  | goal (msg : GoalSpec R Image)
  | image (image : Image) (stampNs sourceStampNs : ℤ)
  | odom (msg : Odometry R) (nowNs : ℤ)
  | activate
  | deactivate
  | actionTick (params : EdgeParams) (nowNs : ℤ) (inferChunk : InferChunk R Image)

section

variable [Field R] [LinearOrder R] [Trig R] [PyLen Emb] (decode : Image → Option Image)

/-- A path that moves was predicted for the newest goal message. -/
def Published.OnNewest (p : Published R Image) : Prop :=
  p.path.poses ≠ [] →
    ∃ msg ∈ p.newest, ∃ goal ∈ p.predictedWith, rosGoalToEdgeGoal decode msg = some goal

/-- The goal the policy is asked about in a tick: the adapter's, if there is a
fresh frame. -/
def goalAsked (n : EdgeNode R Image Emb) (params : EdgeParams) (nowNs : ℤ) :
    Option (EdgeGoal R Image) :=
  (n.freshImage params nowNs).bind fun _ => n.adapter.bind EdgeAdapter.goal

/-- The node's state with the history. -/
def step (w : World R Image Emb) : Event R Image → World R Image Emb
  | .goal msg => { w with node := w.node.onGoal decode msg, goals := msg :: w.goals }
  | .image image stampNs sourceStampNs =>
      { w with node := w.node.onImage image stampNs sourceStampNs }
  | .odom msg nowNs => { w with node := w.node.onOdom msg nowNs }
  | .activate => { w with node := w.node.onActivate }
  | .deactivate => { w with node := w.node.onDeactivate }
  | .actionTick params nowNs inferChunk =>
      let out := EdgeNode.actionTick decode params (tickEnv w.node inferChunk nowNs) Gaps.none
        ⟨w.node, none⟩
      { w with
        node := out.1.node
        published :=
          out.2.published.map (fun path => ⟨path, goalAsked w.node params nowNs, w.goals.head?⟩) ++
            w.published }

/-- Goals come through the subscription, ticks from the timer. -/
def Guard (w : World R Image Emb) : Event R Image → Prop
  | .goal _ => w.node.goalSub = true
  | .activate => w.node.actionTimer = false
  | .deactivate => w.node.actionTimer = true
  | .actionTick .. => w.node.actionTimer = true
  | _ => True

/-- A node that `on_configure` just brought up with an on-edge adapter; a new
adapter holds no goal. -/
def Init (w : World R Image Emb) : Prop :=
  w.goals = [] ∧ w.published = [] ∧
    ∃ (n : EdgeNode R Image Emb) (params : EdgeParams) (built : EdgeAdapter R Image)
      (cameraOpens : Bool),
      built.isLocal = true ∧ built.goal = none ∧
        n.onConfigure params (some built) cameraOpens = (w.node, .success)

/-- The node in local mode. -/
def machine : Machine (World R Image Emb) (Event R Image) where
  Init := Init
  Guard := Guard
  next := step decode

/-! ## What the adapter holds -/

/-- The newest goal message that could be converted. -/
def lastUsable (goals : List (GoalSpec R Image)) : Option (EdgeGoal R Image) :=
  goals.findSome? (rosGoalToEdgeGoal decode)

/-- The node is in local mode, and its adapter holds the newest goal that could
be converted. -/
structure HoldsUsable (w : World R Image Emb) : Prop where
  pathPub : w.node.pathPub = true
  localMode : w.node.localMode = true
  adapter : ∃ a, w.node.adapter = some a ∧ a.isLocal = true ∧ a.goal = lastUsable decode w.goals

variable {decode} in
/-- A tick leaves the adapter and the publisher as they are. -/
theorem HoldsUsable.tick {w : World R Image Emb} (h : HoldsUsable decode w)
    (params : EdgeParams) (nowNs : ℤ) (inferChunk : InferChunk R Image) :
    HoldsUsable decode (step decode w (.actionTick params nowNs inferChunk)) := by
  obtain ⟨ns, hns⟩ := EdgeNode.actionTick_node decode params (tickEnv w.node inferChunk nowNs)
    w.node
  simp only [step, hns]
  exact { h with }

variable {decode} in
/-- `_on_goal` hands on what can be converted, and only that. -/
theorem HoldsUsable.goal {w : World R Image Emb} (h : HoldsUsable decode w)
    (msg : GoalSpec R Image) : HoldsUsable decode (step decode w (.goal msg)) := by
  obtain ⟨a, ha, hlocal, hgoal⟩ := h.adapter
  refine ⟨h.pathPub, h.localMode, ?_⟩
  simp only [step, EdgeNode.onGoal, ha, lastUsable, List.findSome?_cons]
  cases hconv : rosGoalToEdgeGoal decode msg with
  | none => exact ⟨a, rfl, hlocal, hgoal⟩
  | some goal =>
      refine ⟨a.setGoal goal, rfl, ?_⟩
      rw [EdgeAdapter.setGoal, if_pos hlocal]
      exact ⟨hlocal, rfl⟩

theorem holdsUsable_invariant :
    (machine decode : Machine (World R Image Emb) _).Invariant (HoldsUsable decode) where
  init := by
    rintro ⟨node, goals, published⟩ ⟨rfl, rfl, n, params, built, cameraOpens, hlocal, hgoal, hconf⟩
    obtain ⟨hpub, hmode, hadapter⟩ := onConfigure_local hlocal hconf
    exact ⟨hpub, hmode, built, hadapter, hlocal, hgoal⟩
  step := by
    intro w e h _
    cases e with
    | goal msg => exact h.goal msg
    | actionTick params nowNs inferChunk => exact h.tick params nowNs inferChunk
    | _ => exact { h with }

/-! ## What a tick publishes -/

/-- The path a tick publishes: the policy's answer for the newest goal that could
be converted, and the empty path without a frame, a goal or an answer. -/
def tickPath (w : World R Image Emb) (params : EdgeParams) (nowNs : ℤ)
    (inferChunk : InferChunk R Image) : NavPath R :=
  match w.node.freshImage params nowNs, lastUsable decode w.goals with
  | some cur, some goal =>
      match inferChunk cur goal with
      | .ok path => path
      | .error _ => NavPath.empty "base_link"
  | _, _ => NavPath.empty "base_link"

/-- A condition on the steps of a run.  In a tick: if the newest goal message
cannot be converted, then no older one could, or there is no fresh frame, or the
policy has no waypoints for the newest older one that could. -/
def Settled (w : World R Image Emb) : Event R Image → Prop
  | .actionTick params nowNs inferChunk =>
      ∀ msg older, w.goals = msg :: older → rosGoalToEdgeGoal decode msg = none →
        ∀ goal ∈ lastUsable decode older, ∀ cur ∈ w.node.freshImage params nowNs,
          ∀ path, inferChunk cur goal = .ok path → path.poses = []
  | _ => True

variable {decode} {w : World R Image Emb}

/-- **What one tick publishes**: one path, for the goal the adapter holds. -/
theorem HoldsUsable.tick_published (h : HoldsUsable decode w) (params : EdgeParams) (nowNs : ℤ)
    (inferChunk : InferChunk R Image) :
    (step decode w (.actionTick params nowNs inferChunk)).published =
      ⟨tickPath decode w params nowNs inferChunk,
        (w.node.freshImage params nowNs).bind fun _ => lastUsable decode w.goals,
        w.goals.head?⟩ :: w.published := by
  obtain ⟨a, ha, hlocal, hgoal⟩ := h.adapter
  have hout : (EdgeNode.actionTick decode params (tickEnv w.node inferChunk nowNs) Gaps.none
      ⟨w.node, none⟩).2.published = [tickPath decode w params nowNs inferChunk] := by
    simp only [EdgeNode.actionTick, h.pathPub, ha, h.localMode]
    show (w.node.actionTickLocal params (tickEnv w.node inferChunk nowNs)).published = _
    unfold EdgeNode.actionTickLocal tickPath
    simp only [tickEnv, ha, predictPath, hgoal]
    cases hcur : w.node.freshImage params nowNs with
    | none => rfl
    | some cur =>
        cases hlast : lastUsable decode w.goals with
        | none => rfl
        | some goal =>
            dsimp only
            cases inferChunk cur goal <;> rfl
  simp only [step, hout, goalAsked, ha, Option.bind_some, hgoal]
  rfl

omit [PyLen Emb] in
/-- The path of a tick is for the newest goal message exactly when the tick is
settled. -/
theorem onNewest_tick_iff (params : EdgeParams) (nowNs : ℤ) (inferChunk : InferChunk R Image) :
    Published.OnNewest decode
        ⟨tickPath decode w params nowNs inferChunk,
          (w.node.freshImage params nowNs).bind fun _ => lastUsable decode w.goals,
          w.goals.head?⟩ ↔
      Settled decode w (.actionTick params nowNs inferChunk) := by
  unfold Published.OnNewest Settled tickPath
  cases hgoals : w.goals with
  | nil =>
      refine iff_of_true ?_ (by simp)
      intro hne
      exact absurd (by cases w.node.freshImage params nowNs <;> rfl) hne
  | cons msg older =>
      cases hconv : rosGoalToEdgeGoal decode msg with
      | some goal =>
          refine iff_of_true ?_ ?_
          · intro hne
            cases hcur : w.node.freshImage params nowNs with
            | none =>
                rw [hcur] at hne
                exact absurd rfl hne
            | some cur =>
                exact ⟨msg, rfl, goal, by simp [lastUsable, hconv], hconv⟩
          · rintro msg' older' heq hnone
            obtain ⟨rfl, rfl⟩ := List.cons.inj heq
            rw [hconv] at hnone
            cases hnone
      | none =>
          -- the adapter still has the newest older goal that could be converted
          have hlast : lastUsable decode (msg :: older) = lastUsable decode older := by
            simp only [lastUsable, List.findSome?_cons, hconv]
          rw [hlast]
          constructor
          · rintro h msg' older' heq - goal hgoal cur hcur path hpath
            obtain ⟨rfl, rfl⟩ := List.cons.inj heq
            rw [Option.mem_def] at hgoal hcur
            by_contra hne
            simp only [hcur, hgoal, hpath] at h
            obtain ⟨_, hmsg, _, _, hsome⟩ := h hne
            cases hmsg
            rw [hconv] at hsome
            cases hsome
          · intro h hne
            exfalso
            apply hne
            cases hcur : w.node.freshImage params nowNs with
            | none => rfl
            | some cur =>
                cases hgoal : lastUsable decode older with
                | none => rfl
                | some goal =>
                    dsimp only
                    cases hpath : inferChunk cur goal with
                    | error e => rfl
                    | ok path => exact h msg older rfl hconv goal hgoal cur hcur path hpath

/-- What a step adds to the published paths. -/
theorem HoldsUsable.onNewest_step_iff (h : HoldsUsable decode w) (e : Event R Image) :
    (∀ p ∈ (step decode w e).published, p.OnNewest decode) ↔
      (∀ p ∈ w.published, p.OnNewest decode) ∧ Settled decode w e := by
  cases e with
  | actionTick params nowNs inferChunk =>
      rw [h.tick_published, List.forall_mem_cons, onNewest_tick_iff, and_comm]
  | _ => exact (and_iff_left trivial).symm

variable (decode)

/-- **Local mode drives on the newest goal exactly in settled runs**: every path
that moves, of all those published in a run, was predicted for the goal message
that was the newest then, if and only if every tick of the run is settled. -/
theorem acts_on_newest_iff {es : List (Event R Image)} (h : (machine decode).Run es w) :
    (∀ p ∈ w.published, p.OnNewest decode) ↔
      ((machine decode).restrict (Settled decode)).Run es w := by
  refine Machine.restrict_run_iff_of_step (G := fun w => ∀ p ∈ w.published, p.OnNewest decode)
    (holdsUsable_invariant decode) ?_ ?_ h
  · intro w hw
    rw [hw.2.1]
    intro p hp
    cases hp
  · exact fun w e hholds _ => hholds.onNewest_step_iff e

end

/-! ## A text goal, and an image goal that cannot be decoded -/

section

variable [Field R] [LinearOrder R] [Trig R]

/-- A node just configured in local mode. -/
def configured : World R ℕ (List ℕ) :=
  ⟨(EdgeNode.new.onConfigure .defaults (some ⟨true, none⟩) true).1, [], []⟩

/-- A policy that goes one metre straight on, whatever the goal. -/
def straightOn : InferChunk R ℕ := fun _ _ => .ok ⟨"base_link", [⟨1, 0, 1, 0⟩]⟩

def imageGoal : GoalSpec R ℕ := ⟨GoalSpec.MODE_IMAGE, ⟨"", 0, 0, 0, 0, 0, 0⟩, "", 9⟩

/-- A camera frame, a text goal and a tick. -/
def textRun : List (Event R ℕ) :=
  [.activate, .image 7 0 0, .goal EdgeNode.textGoal, .actionTick .defaults 1 straightOn]

/-- The same, and then an image goal and another tick. -/
def imageRun : List (Event R ℕ) :=
  textRun ++ [.goal imageGoal, .actionTick .defaults 2 straightOn]

end

theorem configured_init [Field R] [LinearOrder R] : Init (configured (R := R)) :=
  ⟨rfl, rfl, EdgeNode.new, .defaults, ⟨true, none⟩, true, rfl, rfl, rfl⟩

/-- `imgmsg_to_cv2` on an image it cannot read. -/
def undecodable : ℕ → Option ℕ := fun _ => none

/-- The text goal is followed. -/
theorem acts_on_newest_text :
    ∃ p ∈ ((machine undecodable).exec configured (textRun (R := ℝ))).published,
      p.path.poses ≠ [] ∧ p.OnNewest undecodable := by
  have hrun : (machine undecodable).Run (textRun (R := ℝ))
      ((machine undecodable).exec configured textRun) :=
    Machine.run_of_enabled configured_init ⟨rfl, trivial, rfl, rfl, trivial⟩
  have hsettled : ((machine undecodable).restrict (Settled undecodable)).Run
      (textRun (R := ℝ)) ((machine undecodable).exec configured textRun) := by
    rw [← Machine.restrict_exec (Settled undecodable)]
    refine Machine.run_of_enabled configured_init
      ⟨⟨rfl, trivial⟩, ⟨trivial, trivial⟩, ⟨rfl, trivial⟩, ⟨rfl, ?_⟩, trivial⟩
    rintro msg older heq hnone
    obtain ⟨rfl, rfl⟩ := List.cons.inj heq
    cases hnone
  have hlast : ((machine undecodable).exec configured (textRun (R := ℝ))).published.head?.map
      (fun p => p.path.poses.length) = some 1 := by
    decide +kernel
  obtain ⟨p, hp, hlength⟩ := Option.map_eq_some_iff.mp hlast
  have hmem := List.mem_of_mem_head? hp
  have hmoves : p.path.poses ≠ [] := List.ne_nil_of_length_pos (by omega)
  exact ⟨p, hmem, hmoves, (acts_on_newest_iff _ hrun).mpr hsettled p hmem⟩

/-- **An image goal that cannot be decoded leaves the robot on the text goal**:
the path published after it moves, and was predicted for the text. -/
theorem drives_on_older_goal :
    ∃ w : World ℝ ℕ (List ℕ), (machine undecodable).Run (imageRun (R := ℝ)) w ∧
      ∃ p ∈ w.published, ¬ p.OnNewest undecodable := by
  have hrun : (machine undecodable).Run (imageRun (R := ℝ))
      ((machine undecodable).exec configured imageRun) :=
    Machine.run_of_enabled configured_init ⟨rfl, trivial, rfl, rfl, rfl, rfl, trivial⟩
  have hlast : ((machine undecodable).exec configured (imageRun (R := ℝ))).published.head?.map
      (fun p => (p.path.poses.length, p.newest.map GoalSpec.mode)) =
        some (1, some GoalSpec.MODE_IMAGE) := by
    decide +kernel
  obtain ⟨p, hp, heq⟩ := Option.map_eq_some_iff.mp hlast
  obtain ⟨hlength, hnewest⟩ := Prod.mk.inj heq
  refine ⟨_, hrun, p, List.mem_of_mem_head? hp, ?_⟩
  intro h
  have hmoves : p.path.poses ≠ [] := List.ne_nil_of_length_pos (by omega)
  obtain ⟨msg, hmsg, goal, -, hconv⟩ := h hmoves
  have hmode : msg.mode = GoalSpec.MODE_IMAGE := by
    rw [hmsg] at hnewest
    exact Option.some.inj hnewest
  simp [rosGoalToEdgeGoal, hmode, GoalSpec.MODE_IMAGE, GoalSpec.MODE_POSE, GoalSpec.MODE_TEXT,
    undecodable] at hconv

end LocalGoal
