/-
# The observation history of a goal

The adapter on the robot (`omnivla_edge_local.py`), the browser (`VlaApp.tsx` and
`engine.ts`) and the phone (`home_page.dart` and `omnivla_engine.dart`) take goals and
frames.  The browser and the phone reset their ring buffer when the goal changes; the
adapter on the robot does not.

* `Law` : at every frame the three show the policy the same stack, and only frames inferred
  since the newest goal change are in it;
* `law_iff_steady` : that is so exactly if every first frame of a goal equals the frames of
  earlier goals that are still in the window.

A frame is normalized already.  An inference pushes its frame and builds its stack before
it waits for anything, so a goal change never comes between the two.
-/
import Rvln.ObsRing

namespace ObsHistory

open ObsRing

variable {Goal α : Type*} {config : OmniVlaConfig}

/-- What a deployment is given. -/
inductive Input (Goal φ : Type*)
  | goal (goal : Goal)
  | frame (frame : φ)

/-! ## The robot -/

/-- `OmniVLAEdgeLocalAdapter`. -/
structure OmniVLAEdgeLocalAdapter (Goal : Type*) (config : OmniVlaConfig) (α : Type*) where
  goal : Option Goal
  engine : EngineRing config α

namespace OmniVLAEdgeLocalAdapter

def new : OmniVLAEdgeLocalAdapter Goal config α := ⟨none, .new⟩

/-- `set_goal`. -/
def setGoal (a : OmniVLAEdgeLocalAdapter Goal config α) (goal : Goal) :
    OmniVLAEdgeLocalAdapter Goal config α :=
  { a with goal := some goal }

/-- `predict_path`, up to the stack that `infer_chunk` shows the policy; without a goal the
path is empty and nothing is inferred. -/
def predictPath (a : OmniVLAEdgeLocalAdapter Goal config α) (frame : Frame config α) :
    OmniVLAEdgeLocalAdapter Goal config α × Option (Except String (List α)) :=
  match a.goal with
  | none => (a, none)
  | some _ =>
      let engine := a.engine.pushFrame frame
      ({ a with engine := engine }, some engine.stackObs)

/-- One input. -/
def step (a : OmniVLAEdgeLocalAdapter Goal config α) :
    Input Goal (Frame config α) → OmniVLAEdgeLocalAdapter Goal config α
  | .goal goal => a.setGoal goal
  | .frame frame => (a.predictPath frame).1

end OmniVLAEdgeLocalAdapter

/-! ## The browser -/

/-- `VlaApp` with its engine. -/
structure VlaApp (Goal : Type*) (config : OmniVlaConfig) (α : Type*) where
  goal : Option Goal
  ring : WebRing config α

namespace VlaApp

def new : VlaApp Goal config α := ⟨none, .new⟩

/-- `handleGoal`. -/
def handleGoal (a : VlaApp Goal config α) (goal : Goal) : VlaApp Goal config α :=
  ⟨some goal, a.ring.reset⟩

/-- `inferChunk` of a tick, up to the stack that it shows the policy; what it throws, the
tick catches. -/
def inferChunk [Zero α] (a : VlaApp Goal config α) (frame : List α) :
    VlaApp Goal config α × Option (Except String (List α)) :=
  match a.goal with
  | none => (a, none)
  | some _ =>
      match a.ring.push frame with
      | .error e => (a, some (.error e))
      | .ok ring => ({ a with ring := ring }, some ring.stack)

/-- One input. -/
def step [Zero α] (a : VlaApp Goal config α) :
    Input Goal (Frame config α) → VlaApp Goal config α
  | .goal goal => a.handleGoal goal
  | .frame frame => (a.inferChunk frame.toList).1

end VlaApp

/-! ## The phone -/

/-- The home page with its engine. -/
structure HomePage (Goal : Type*) (config : OmniVlaConfig) (α : Type*) where
  goal : Option Goal
  ring : PhoneRing config α

namespace HomePage

def new : HomePage Goal config α := ⟨none, .new⟩

/-- `_setGoal`. -/
def setGoal (p : HomePage Goal config α) (goal : Goal) : HomePage Goal config α :=
  ⟨some goal, p.ring.reset⟩

/-- `inferChunk` of a tick, up to the stack that it shows the policy. -/
def inferChunk [Zero α] (p : HomePage Goal config α) (frame : Frame config α) :
    HomePage Goal config α × Option (Except String (List α)) :=
  match p.goal with
  | none => (p, none)
  | some _ =>
      let ring := p.ring.push frame
      ({ p with ring := ring }, some ring.stack)

/-- One input. -/
def step [Zero α] (p : HomePage Goal config α) :
    Input Goal (Frame config α) → HomePage Goal config α
  | .goal goal => p.setGoal goal
  | .frame frame => (p.inferChunk frame).1

end HomePage

/-! ## The law -/

/-- The three deployments. -/
inductive Deployment
  | robot
  | browser
  | phone

/-- The stack that a deployment shows the policy for a frame, after some inputs; `none` if it
infers nothing. -/
def Deployment.observation [Zero α] (inputs : List (Input Goal (Frame config α)))
    (frame : Frame config α) : Deployment → Option (Except String (List α))
  | .robot => ((inputs.foldl OmniVLAEdgeLocalAdapter.step .new).predictPath frame).2
  | .browser => ((inputs.foldl VlaApp.step .new).inferChunk frame.toList).2
  | .phone => ((inputs.foldl HomePage.step .new).inferChunk frame).2

/-- Add an input to the frames inferred before the newest goal change and those inferred
since. -/
def addInput {φ : Type*} :
    Option (List φ × List φ) → Input Goal φ → Option (List φ × List φ)
  | none, .goal _ => some ([], [])
  | none, .frame _ => none
  | some (before, since), .goal _ => some (before ++ since, [])
  | some (before, since), .frame frame => some (before, since ++ [frame])

/-- The frames inferred before the newest goal change, and those inferred since; `none`
without a goal. -/
def inferred {φ : Type*} (inputs : List (Input Goal φ)) : Option (List φ × List φ) :=
  inputs.foldl addInput none

/-- **The law of the observation history**, for every frame of some inputs. -/
structure Law [Zero α] (inputs : List (Input Goal (Frame config α))) : Prop where
  same : ∀ earlier frame, earlier ++ [.frame frame] <+: inputs →
    ∀ d d' : Deployment, d.observation earlier frame = d'.observation earlier frame
  own : ∀ earlier frame, earlier ++ [.frame frame] <+: inputs →
    ∀ before since, inferred earlier = some (before, since) → ∀ d : Deployment,
      ∃ frames : List (Frame config α),
        d.observation earlier frame = some (.ok (frames.flatMap List.Vector.toList)) ∧
          ∀ f ∈ frames, f ∈ since ++ [frame]

/-- Every first frame of a goal equals the frames of earlier goals that are still in the
window. -/
def Steady (inputs : List (Input Goal (Frame config α))) : Prop :=
  ∀ earlier frame, earlier ++ [.frame frame] <+: inputs →
    ∀ before, inferred earlier = some (before, []) →
      ∀ f ∈ before.rtake config.contextSize, f = frame

theorem inferred_append {φ : Type*} (inputs : List (Input Goal φ)) (input : Input Goal φ) :
    inferred (inputs ++ [input]) = addInput (inferred inputs) input :=
  List.foldl_append

/-! ## What the deployments hold -/

section

variable {φ : Type*}

/-- The frames of all goals. -/
def ofAllGoals : Option (List φ × List φ) → List φ
  | none => []
  | some (before, since) => before ++ since

/-- The frames of the newest goal. -/
def ofGoal : Option (List φ × List φ) → List φ
  | none => []
  | some (_, since) => since

/-- A goal is set if there are frames to speak of, and a ring holds the newest of some. -/
structure Holds (config : OmniVlaConfig) (frames : Option (List φ × List φ)) (goal : Option Goal)
    (ring kept : List φ) : Prop where
  goal : goal.isSome = frames.isSome
  ring : ring = kept.rtake config.historyLen

theorem isSome_addInput_goal (frames : Option (List φ × List φ)) (goal : Goal) :
    (addInput frames (.goal goal)).isSome = true := by
  cases frames <;> rfl

theorem ofAllGoals_goal (frames : Option (List φ × List φ)) (goal : Goal) :
    ofAllGoals (addInput frames (.goal goal)) = ofAllGoals frames := by
  cases frames with
  | none => rfl
  | some frames => exact List.append_nil _

theorem ofGoal_goal (frames : Option (List φ × List φ)) (goal : Goal) :
    ofGoal (addInput frames (.goal goal)) = [] := by
  cases frames <;> rfl

theorem ofAllGoals_frame (frames : List φ × List φ) (frame : φ) :
    ofAllGoals (addInput (some frames) (.frame frame : Input Goal φ)) =
      ofAllGoals (some frames) ++ [frame] :=
  (List.append_assoc _ _ _).symm

variable {frames : Option (List φ × List φ)} {goal : Option Goal} {ring kept : List φ}

/-- Without a goal there are no frames to speak of. -/
theorem Holds.frames_none (h : Holds config frames (none : Option Goal) ring kept) :
    frames = none :=
  Option.isNone_iff_eq_none.mp (by simpa using h.goal.symm)

/-- A goal means that there are frames to speak of. -/
theorem Holds.frames_some {g : Goal} (h : Holds config frames (some g) ring kept) :
    ∃ frames', frames = some frames' :=
  Option.isSome_iff_exists.mp h.goal.symm

/-- A frame is pushed. -/
theorem Holds.push {g : Goal} {frames' : List φ × List φ}
    (h : Holds config (some frames') (some g) ring kept) (frame : φ) :
    Holds config (addInput (some frames') (.frame frame : Input Goal φ)) (some g)
      (Window.push config.historyLen ring frame) (kept ++ [frame]) where
  goal := rfl
  ring := by rw [h.ring, Window.push_rtake]

/-- **The adapter on the robot** keeps the frames of all goals. -/
theorem robot_holds (inputs : List (Input Goal (Frame config α))) :
    let a := inputs.foldl OmniVLAEdgeLocalAdapter.step .new
    Holds config (inferred inputs) a.goal a.engine.obsRing (ofAllGoals (inferred inputs)) := by
  refine List.foldl_rel
    (r := fun (a : OmniVLAEdgeLocalAdapter Goal config α) frames =>
      Holds config frames a.goal a.engine.obsRing (ofAllGoals frames))
    ⟨rfl, (List.rtake_nil _).symm⟩ ?_
  rintro input - ⟨goal, engine⟩ frames h
  cases input with
  | goal g =>
      refine ⟨(isSome_addInput_goal frames g).symm, ?_⟩
      rw [ofAllGoals_goal]
      exact h.ring
  | frame frame =>
      cases goal with
      | none =>
          obtain rfl := h.frames_none
          exact h
      | some g =>
          obtain ⟨frames, rfl⟩ := h.frames_some
          rw [ofAllGoals_frame]
          exact h.push frame

/-- **The browser** keeps the frames of the newest goal. -/
theorem browser_holds [Zero α] (inputs : List (Input Goal (Frame config α))) :
    let a := inputs.foldl VlaApp.step .new
    Holds config (inferred inputs) a.goal a.ring.frames (ofGoal (inferred inputs)) := by
  refine List.foldl_rel
    (r := fun (a : VlaApp Goal config α) frames =>
      Holds config frames a.goal a.ring.frames (ofGoal frames))
    ⟨rfl, (List.rtake_nil _).symm⟩ ?_
  rintro input - ⟨goal, ring⟩ frames h
  cases input with
  | goal g =>
      refine ⟨(isSome_addInput_goal frames g).symm, ?_⟩
      rw [ofGoal_goal, List.rtake_nil]
      rfl
  | frame frame =>
      cases goal with
      | none =>
          obtain rfl := h.frames_none
          exact h
      | some g =>
          obtain ⟨frames, rfl⟩ := h.frames_some
          rw [VlaApp.step, VlaApp.inferChunk]
          dsimp only
          rw [WebRing.push_frame]
          exact h.push frame

/-- **The phone** keeps the frames of the newest goal. -/
theorem phone_holds [Zero α] (inputs : List (Input Goal (Frame config α))) :
    let p := inputs.foldl HomePage.step .new
    Holds config (inferred inputs) p.goal p.ring.frames (ofGoal (inferred inputs)) := by
  refine List.foldl_rel
    (r := fun (p : HomePage Goal config α) frames =>
      Holds config frames p.goal p.ring.frames (ofGoal frames))
    ⟨rfl, (List.rtake_nil _).symm⟩ ?_
  rintro input - ⟨goal, ring⟩ frames h
  cases input with
  | goal g =>
      refine ⟨(isSome_addInput_goal frames g).symm, ?_⟩
      rw [ofGoal_goal, List.rtake_nil]
      rfl
  | frame frame =>
      cases goal with
      | none =>
          obtain rfl := h.frames_none
          exact h
      | some g =>
          obtain ⟨frames, rfl⟩ := h.frames_some
          exact h.push frame

/-! ## What the policy is shown -/

/-- The frames that a deployment keeps. -/
def Deployment.keeps : Deployment → Option (List φ × List φ) → List φ
  | .robot => ofAllGoals
  | .browser | .phone => ofGoal

end

section

variable {inputs : List (Input Goal (Frame config α))}

/-- **A deployment shows the policy the window** of the frames that it keeps. -/
theorem observation_eq [Zero α] (d : Deployment) (frame : Frame config α) :
    d.observation inputs frame =
      (inferred inputs).map fun frames =>
        .ok ((Window.window config.historyLen (d.keeps (some frames) ++ [frame])).flatMap
          List.Vector.toList) := by
  cases d with
  -- without a goal nothing is inferred; else the ring holds the frames, and the new one is pushed
  | robot =>
      have h := robot_holds inputs
      rw [Deployment.observation]
      generalize inputs.foldl OmniVLAEdgeLocalAdapter.step .new = a at h ⊢
      obtain ⟨_ | goal, ring⟩ := a
      · rw [h.frames_none]
        rfl
      · obtain ⟨frames, hframes⟩ := h.frames_some
        rw [hframes] at h ⊢
        exact congrArg some (ring.stackObs_push h.ring frame)
  | browser =>
      have h := browser_holds inputs
      rw [Deployment.observation]
      generalize inputs.foldl VlaApp.step .new = a at h ⊢
      obtain ⟨_ | goal, ring⟩ := a
      · rw [h.frames_none]
        rfl
      · obtain ⟨frames, hframes⟩ := h.frames_some
        rw [hframes] at h ⊢
        rw [VlaApp.inferChunk]
        dsimp only
        rw [WebRing.push_frame]
        exact congrArg some (WebRing.stack_push h.ring frame)
  | phone =>
      have h := phone_holds inputs
      rw [Deployment.observation]
      generalize inputs.foldl HomePage.step .new = p at h ⊢
      obtain ⟨_ | goal, ring⟩ := p
      · rw [h.frames_none]
        rfl
      · obtain ⟨frames, hframes⟩ := h.frames_some
        rw [hframes] at h ⊢
        exact congrArg some (ring.stack_push h.ring frame)

/-! ## The law and its condition -/

theorem Steady.of_prefix (h : Steady inputs) {earlier : List (Input Goal (Frame config α))}
    (hearlier : earlier <+: inputs) : Steady earlier :=
  fun older frame holder => h older frame (holder.trans hearlier)

/-- The first frame of the newest goal equals the frames of earlier goals in the window. -/
theorem Steady.first (h : Steady inputs) {before since : List (Frame config α)}
    {first : Frame config α} (hinferred : inferred inputs = some (before, first :: since)) :
    ∀ f ∈ before.rtake config.contextSize, f = first := by
  induction inputs using List.reverseRecOn generalizing since with
  | nil => cases hinferred
  | append_singleton inputs input ih =>
      have hold := h.of_prefix (List.prefix_append inputs [input])
      rw [inferred_append] at hinferred
      rcases hbs : inferred inputs with _ | ⟨b, s⟩ <;> rw [hbs] at hinferred
      · cases input <;> cases hinferred
      · cases input with
        | goal goal => cases hinferred
        | frame frame =>
            obtain ⟨rfl, hs⟩ := Prod.mk.inj (Option.some.inj hinferred)
            cases s with
            | nil =>
                obtain ⟨rfl, -⟩ := List.cons.inj hs
                exact h inputs frame (List.prefix_refl _) b hbs
            | cons c s =>
                obtain ⟨rfl, -⟩ := List.cons.inj hs
                exact ih hold hbs

/-- What the robot keeps of earlier goals makes no difference. -/
theorem Steady.window_eq {frame : Frame config α} (h : Steady (inputs ++ [.frame frame]))
    {before since : List (Frame config α)} (hinferred : inferred inputs = some (before, since))
    (d : Deployment) :
    Window.window config.historyLen (d.keeps (some (before, since)) ++ [frame]) =
      Window.window config.historyLen (since ++ [frame]) := by
  cases d with
  | robot =>
      show Window.window config.historyLen (before ++ since ++ [frame]) = _
      rw [List.append_assoc]
      cases since with
      | nil => exact Window.window_append (h inputs frame (List.prefix_refl _) before hinferred)
      | cons first since =>
          exact Window.window_append
            ((h.of_prefix (List.prefix_append inputs _)).first hinferred)
  | browser => rfl
  | phone => rfl

theorem law_of_steady [Zero α] (h : Steady inputs) : Law inputs := by
  constructor
  · intro earlier frame hearlier d d'
    rw [observation_eq, observation_eq]
    rcases hinferred : inferred earlier with _ | ⟨before, since⟩
    · rfl
    · have hsteady := h.of_prefix hearlier
      rw [Option.map_some, Option.map_some, hsteady.window_eq hinferred d,
        hsteady.window_eq hinferred d']
  · intro earlier frame hearlier before since hinferred d
    refine ⟨Window.window config.historyLen (since ++ [frame]), ?_, ?_⟩
    · rw [observation_eq, hinferred, Option.map_some,
        (h.of_prefix hearlier).window_eq hinferred d]
    · exact fun f => Window.mem_of_mem_window

/-- Stacks of equally many frames determine the frames. -/
theorem flatMap_toList_inj {l m : List (Frame config α)} (hlen : l.length = m.length)
    (h : l.flatMap List.Vector.toList = m.flatMap List.Vector.toList) : l = m := by
  induction l generalizing m with
  | nil => exact (List.length_eq_zero_iff.mp hlen.symm).symm
  | cons f l ih =>
      cases m with
      | nil => cases hlen
      | cons g m =>
          rw [List.flatMap_cons, List.flatMap_cons] at h
          obtain ⟨hf, hl⟩ := List.append_inj h (by rw [f.toList_length, g.toList_length])
          rw [List.Vector.toList_injective hf, ih (Nat.succ.inj hlen) hl]

/-- If the robot and the browser agree on the first frame of a goal, the window of the robot
is full of it. -/
theorem steady_of_law [Zero α] (h : Law inputs) : Steady inputs := by
  intro earlier frame hearlier before hinferred f hf
  have hsame := h.same earlier frame hearlier .robot .browser
  rw [observation_eq, observation_eq, hinferred] at hsame
  have hflat := Except.ok.inj (Option.some.inj hsame)
  have hne : ∀ l : List (Frame config α), l ++ [frame] ≠ [] := fun l => List.concat_ne_nil _ _
  have hwindow := flatMap_toList_inj
    ((Window.length_window config.historyLen_pos (hne _)).trans
      (Window.length_window config.historyLen_pos (hne _)).symm) hflat
  have hmem : f ∈ Window.window config.historyLen (before ++ [] ++ [frame]) := by
    rw [Window.window, Window.mem_padFront, List.append_nil, Window.rtake_append]
    exact List.mem_append_left _ hf
  have hmem' : f ∈ Window.window config.historyLen [frame] := hwindow ▸ hmem
  rw [Window.window_singleton config.historyLen_pos] at hmem'
  exact List.eq_of_mem_replicate hmem'

/-! ## The result -/

/-- **The law holds exactly of steady inputs.** -/
theorem law_iff_steady [Zero α] (inputs : List (Input Goal (Frame config α))) :
    Law inputs ↔ Steady inputs :=
  ⟨steady_of_law, law_of_steady⟩

end

/-- A frame of one colour. -/
def plain (value : ℕ) : Frame OmniVlaConfig.released ℕ := List.Vector.replicate _ value

/-- A black frame for one goal, then a white one for another. -/
def switched : List (Input Bool (Frame OmniVlaConfig.released ℕ)) :=
  [.goal false, .frame (plain 0), .goal true, .frame (plain 1)]

/-- The robot still shows the policy the frame of the first goal. -/
theorem history_survives_goal :
    ¬ ∀ inputs : List (Input Bool (Frame OmniVlaConfig.released ℕ)), Law inputs := by
  intro h
  have hsteady := steady_of_law (h switched)
  have heq : plain 0 = plain 1 :=
    hsteady [.goal false, .frame (plain 0), .goal true] (plain 1) (List.prefix_refl _) [plain 0]
      rfl (plain 0) List.mem_cons_self
  have hlist : List.replicate OmniVlaConfig.released.frameLen 0 =
      List.replicate OmniVlaConfig.released.frameLen 1 := congrArg List.Vector.toList heq
  have hne : OmniVlaConfig.released.frameLen ≠ 0 := by decide
  exact absurd ((List.replicate_right_inj hne).mp hlist) Nat.zero_ne_one

end ObsHistory
