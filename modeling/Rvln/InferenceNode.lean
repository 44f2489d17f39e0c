/-
# The remote inference node

`VLAInferenceNode` of `inference_node.py`: it takes the newest observation, decodes its image,
hands it with the image before and the goal to a backend, and publishes what the backend
returns as rows of one width.  A backend is a function of its own state; its exceptions, like
those of the node, end in a log line.

* `InferenceNode.server` : the node as a server of the loop, and `serve_reply`, what it was
  asked for a reply;
* `embedding_of_current_goal` : what the action tick of the edge is given in any run of the two
  nodes.
-/
import Rvln.PoseGoal
import Rvln.RemoteLoop

/-! ## Arrays -/

/-- An array with its values in row order. -/
structure NdArray (Val : Type) where
  shape : List ℕ
  values : List Val
  size : values.length = shape.prod

namespace NdArray

variable {Val : Type}

/-- `arr.reshape(-1, arr.shape[-1]).shape`, and the check of `ndim` before it; `none` is a
`ValueError`. -/
def asTokens (arr : NdArray Val) : Option (ℕ × ℕ) :=
  let dim := arr.shape.getLastD 0
  -- the number of rows of no columns is not determined
  if arr.shape.length < 2 ∨ dim = 0 then none else some (arr.values.length / dim, dim)

/-- The rows have all the values. -/
theorem asTokens_size {arr : NdArray Val} {tokens : ℕ × ℕ} (h : arr.asTokens = some tokens) :
    tokens.1 * tokens.2 = arr.values.length ∧ arr.shape.getLast? = some tokens.2 ∧
      0 < tokens.2 := by
  unfold asTokens at h
  dsimp only at h
  split at h
  · cases h
  · next hbig =>
      cases h
      rw [not_or, not_lt] at hbig
      obtain ⟨first, last, hshape⟩ : ∃ first last, arr.shape = first ++ [last] := by
        rcases List.eq_nil_or_concat arr.shape with hnil | ⟨first, last, hconcat⟩
        · rw [hnil] at hbig
          exact absurd hbig.1 (by simp)
        · exact ⟨first, last, hconcat.trans List.concat_eq_append⟩
      have hlast : arr.shape.getLastD 0 = last := by simp [hshape]
      rw [hlast] at hbig ⊢
      refine ⟨Nat.div_mul_cancel ?_, by simp [hshape], Nat.pos_of_ne_zero hbig.2⟩
      rw [arr.size, hshape, List.prod_append, List.prod_singleton]
      exact Dvd.intro_left _ rfl

end NdArray

/-! ## The node -/

/-- The keyword arguments of `infer`. -/
structure InferInputs (R Pil : Type) where
  currentImage : Pil
  pastImage : Pil
  langInstruction : String
  goalImage : Option Pil
  goalPoseXyTheta : Option (R × R × R)

/-- `_decode_image`; `opened` is what the image library makes of the data, `none` its exception. -/
def decodeImage {Data Pil : Type} [PyLen Data] (opened : Data → Option Pil) (placeholder : Pil)
    (data : Data) : Pil :=
  if PyLen.len data = 0 then placeholder else (opened data).getD placeholder

/-- `VLAInferenceNode`, with the state of its backend. -/
structure InferenceNode (B Pil : Type) where
  backend : B
  pastImage : Option Pil

namespace InferenceNode

variable {B R Image Jpeg Pil Val : Type} [Field R] [Trig R] [PyLen Jpeg]
  (opened : Jpeg → Option Pil) (placeholder : Pil) (openedGoal : Image → Pil)
  (infer : B → InferInputs R Pil → B × Except String (NdArray Val))

/-- `_on_observation`; the second component is what goes out. -/
def onObservation (n : InferenceNode B Pil) (obs : Observation R Image Jpeg) :
    InferenceNode B Pil × Option (ActionEmbedding (List Val)) :=
  let current := decodeImage opened placeholder obs.jpeg
  let past := n.pastImage.getD current
  -- this image is the past one from now on, whatever becomes of the inference
  let n := { n with pastImage := some current }
  match goalToPython openedGoal obs.goal with
  | .error _ => (n, none)
  | .ok (pose, text, goalImage) =>
      let inferred := infer n.backend ⟨current, past, text, goalImage, pose⟩
      ({ n with backend := inferred.1 },
        match inferred.2 with
        | .error _ => none
        | .ok arr => arr.asTokens.map fun tokens =>
            ⟨obs.frameId, tokens.1, tokens.2, arr.values⟩)

/-- The node between its two topics. -/
def server (start : B) :
    Server (InferenceNode B Pil) Unit (Observation R Image Jpeg) (ActionEmbedding (List Val)) where
  init := ⟨start, none⟩
  serve n _ obs := n.onObservation opened placeholder openedGoal infer obs

/-- What the backend is given for an observation after others, newest first: the image before
is that of the last observation that was taken. -/
def inputsOf (older : List (Unit × Observation R Image Jpeg)) (obs : Observation R Image Jpeg) :
    Except String (InferInputs R Pil) :=
  let current := decodeImage opened placeholder obs.jpeg
  (goalToPython openedGoal obs.goal).map fun (pose, text, goalImage) =>
    ⟨current, (older.head?.map fun o => decodeImage opened placeholder o.2.jpeg).getD current,
      text, goalImage, pose⟩

section

variable {opened placeholder openedGoal infer} {start : B}
  {older : List (Unit × Observation R Image Jpeg)} {obs : Observation R Image Jpeg}

theorem after_pastImage :
    ((server opened placeholder openedGoal infer start).after older).pastImage =
      older.head?.map fun o => decodeImage opened placeholder o.2.jpeg := by
  cases older with
  | nil => rfl
  | cons entry older =>
      rw [Server.after_cons]
      show (onObservation ..).1.pastImage = _
      unfold onObservation
      dsimp only
      split <;> rfl

/-- **A reply** is what the backend returned for the observation. -/
theorem serve_reply {reply : ActionEmbedding (List Val)}
    (h : ((server opened placeholder openedGoal infer start).serve
      ((server opened placeholder openedGoal infer start).after older) () obs).2 = some reply) :
    ∃ inputs arr tokens, inputsOf opened placeholder openedGoal older obs = .ok inputs ∧
      (infer ((server opened placeholder openedGoal infer start).after older).backend
        inputs).2 = .ok arr ∧ arr.asTokens = some tokens ∧
      reply = ⟨obs.frameId, tokens.1, tokens.2, arr.values⟩ := by
  have h : (onObservation opened placeholder openedGoal infer
    ((server opened placeholder openedGoal infer start).after older) obs).2 = some reply := h
  unfold onObservation at h
  dsimp only at h
  rw [after_pastImage] at h
  split at h
  · cases h
  · next pose text goalImage hgoal =>
      split at h
      · cases h
      · next arr harr =>
          obtain ⟨tokens, htokens, rfl⟩ := Option.map_eq_some_iff.mp h
          refine ⟨_, arr, tokens, ?_, harr, htokens, rfl⟩
          unfold inputsOf
          rw [hgoal]
          rfl

/-- A reply has the id of its observation. -/
theorem serve_frameId (state : InferenceNode B Pil) (env : Unit) (obs : Observation R Image Jpeg)
    (reply : ActionEmbedding (List Val))
    (h : ((server opened placeholder openedGoal infer start).serve state env obs).2 =
      some reply) : reply.frameId = obs.frameId := by
  have h : (onObservation opened placeholder openedGoal infer state obs).2 = some reply := h
  unfold onObservation at h
  dsimp only at h
  split at h
  · cases h
  · split at h
    · cases h
    · obtain ⟨tokens, -, rfl⟩ := Option.map_eq_some_iff.mp h
      rfl

end

/-! ## The two nodes -/

section

variable [LinearOrder R] {Settings : Type} {decode : Image → Option Image}
  {encode : Settings → Image → Option Jpeg} {blank : Image} {start : B}
  {opened placeholder openedGoal infer}

/-- **What the action tick is given**, at any moment of any run of the edge node and the
inference node: the values that the backend returned for one observation, which was sent for
the goal of the moment and from one camera frame, after older observations only; and as the
past image that very frame, unless eight newer observations were sent. -/
theorem embedding_of_current_goal
    {w : RemoteLoop.World R Image (List Val) Jpeg (InferenceNode B Pil) Unit}
    (h : (RemoteLoop.machine decode encode blank
      (server opened placeholder openedGoal infer start)).Reachable w)
    {emb : CachedEmbedding (List Val) Image} (hemb : w.edge.node.latestRaw = some emb) :
    ∃ s ∈ w.sent, ∃ goal image settings newer older inputs arr,
      w.link.served = newer ++ ((), s.obs) :: older ∧
      (∀ o ∈ older, (∃ s' ∈ w.sent, s'.obs = o.2) ∧ o.2.frameId < s.obs.frameId) ∧
      w.edge.node.observations.goal = some goal ∧
      RemoteLoop.InRobotFrame blank s.node goal s.obs.goal ∧
      s.node.cameraFrames.image = some image ∧ encode settings image = some s.obs.jpeg ∧
      inputsOf opened placeholder openedGoal older s.obs = .ok inputs ∧
      (infer ((server opened placeholder openedGoal infer start).after older).backend
        inputs).2 = .ok arr ∧
      emb.numTokens * emb.embedDim = arr.values.length ∧
      arr.shape.getLast? = some emb.embedDim ∧
      ∀ cur, ∃ past, EdgeNode.predictArgs emb cur =
          ⟨some arr.values, some (1, emb.numTokens, emb.embedDim), cur, past, "base_link"⟩ ∧
        (past = image ∨
          past = cur ∧ s.obs.frameId + 8 ≤ w.edge.node.observations.frameCounter) := by
  have hinv : RemoteLoop.Inv encode blank (server opened placeholder openedGoal infer start) w :=
    (RemoteLoop.inv_invariant serve_frameId decode).of_reachable h
  obtain ⟨s, goal, image, settings, hs, hgoal, hframe, himage, hjpeg, hpaired⟩ :=
    hinv.supported hemb
  obtain ⟨newer, env, older, reply, hserved, hreply, -, hcached⟩ := hs.reply
  -- what the action tick holds answers what was sent, and the reply is what the backend returned
  obtain ⟨inputs, arr, tokens, hinputs, harr, htokens, rfl⟩ := serve_reply hreply
  obtain ⟨hsize, hlast, -⟩ := NdArray.asTokens_size htokens
  have hembedding : emb.embedding = arr.values := by rw [hcached]; rfl
  have hrows : emb.numTokens = tokens.1 := by rw [hcached]; rfl
  have hdim : emb.embedDim = tokens.2 := by rw [hcached]; rfl
  refine ⟨s, hs.sent, goal, image, settings, newer, older, inputs, arr, hserved,
    hinv.older hserved, hgoal, hframe, himage, hjpeg, hinputs, harr, ?_, ?_, ?_⟩
  · rw [hrows, hdim, hsize]
  · rw [hdim, hlast]
  · intro cur
    refine ⟨_, by rw [EdgeNode.predictArgs, hembedding], ?_⟩
    rcases hpaired with hframe | ⟨hnone, hold⟩
    · rw [hframe]
      exact Or.inl rfl
    · rw [hnone]
      exact Or.inr ⟨rfl, hold⟩

end

section

variable [LinearOrder R]

/-- Two rows of two values each. -/
def twoRows : NdArray ℕ := ⟨[2, 2], [5, 6, 7, 8], rfl⟩

/-- A camera frame is a number, its JPEG a list, and the backend always returns two rows. -/
def rowServer :
    Server (InferenceNode Unit ℕ) Unit (Observation R ℕ (List ℕ)) (ActionEmbedding (List ℕ)) :=
  server List.head? 0 id (fun _ _ => ((), .ok twoRows)) ()

/-- The node comes up, sees one camera frame, gets a goal and sends; the inference node answers,
and nothing is lost. -/
def firstRound : List (RemoteLoop.Event R ℕ Unit Unit) :=
  [.activate, .image 7 0 0, .goal EdgeNode.textGoal, .sendTick .defaults () 0 0,
    .observationTravels .arrive, .serve (), .embeddingTravels .arrive, .hear 0, .put]

/-- The node after its first configure, with a remote policy. -/
def configured : RemoteLoop.World R ℕ (List ℕ) (List ℕ) (InferenceNode Unit ℕ) Unit :=
  ⟨⟨(EdgeNode.new.onConfigure .defaults (some ⟨false, none⟩) true).1, none⟩, .new rowServer, []⟩

end

theorem embedding_of_current_goal_firstRound :
    ∃ (w : RemoteLoop.World ℝ ℕ (List ℕ) (List ℕ) (InferenceNode Unit ℕ) Unit)
      (emb : CachedEmbedding (List ℕ) ℕ) (s : RemoteLoop.Sent ℝ ℕ (List ℕ) (List ℕ)) (image : ℕ),
      w.edge.node.latestRaw = some emb ∧ s ∈ w.sent ∧ s.node.cameraFrames.image = some image ∧
      ∀ cur, ∃ past, EdgeNode.predictArgs emb cur =
          ⟨some [5, 6, 7, 8], some (1, emb.numTokens, emb.embedDim), cur, past, "base_link"⟩ ∧
        (past = image ∨
          past = cur ∧ s.obs.frameId + 8 ≤ w.edge.node.observations.frameCounter) := by
  let loop := RemoteLoop.machine some (fun (_ : Unit) (image : ℕ) => some [image]) 0
    (rowServer (R := ℝ))
  have hinit : loop.Init configured :=
    ⟨rfl, rfl, rfl, .defaults, ⟨false, none⟩, true, rfl, Prod.ext rfl (by decide +kernel)⟩
  have hrun : loop.Run firstRound (loop.exec configured firstRound) :=
    Machine.run_of_enabled hinit
      ⟨trivial, trivial, show (_ : Bool) = true by decide +kernel,
        show (_ : Bool) = true by decide +kernel, trivial, trivial, trivial, trivial, trivial,
        trivial⟩
  have hemb : (loop.exec configured firstRound).edge.node.latestRaw =
      some ⟨1, 0, [5, 6, 7, 8], 2, 2, some 7⟩ := by
    decide +kernel
  obtain ⟨s, hs, -, image, -, -, -, -, arr, -, -, -, -, himage, -, -, harr, -, -, hargs⟩ :=
    embedding_of_current_goal hrun.reachable hemb
  cases harr
  exact ⟨_, _, s, image, hemb, hs, himage, hargs⟩

end InferenceNode
