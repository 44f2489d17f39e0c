/-
# The edge and its remote model

The edge node publishes observations on a best-effort topic of depth one; something remote
takes them and publishes embeddings on another; the edge pairs an embedding with the frame
that it was computed from.  Observations and embeddings may be lost and delayed; goals, camera
frames, odometry and the two halves of a reply come in any order.

The remote side is any `Server`, so that the node and the bridge to a remote machine are two
instances of one result.

* `Inv` : what holds in every state that the loop reaches from the activation of a configured
  node on;
* `Supported`, `latestRaw_supported` : whatever the cache holds is the reply of the server to
  an observation that was sent for the goal of the moment, and it is paired with the camera
  frame of that observation unless eight newer ones were sent.
-/
import Rvln.ActionTick
import Rvln.BestEffort

/-! ## The frames that the ledger holds -/

/-- Ascending numbers between two bounds are not more than fit between them. -/
theorem length_add_le_of_ascending {ks : List ℕ} {a m : ℕ} (ha : a ≤ m)
    (hascending : ks.Pairwise (· < ·)) (h : ∀ k ∈ ks, a < k ∧ k ≤ m) : ks.length + a ≤ m := by
  induction ks generalizing a with
  | nil => simpa using ha
  | cons k ks ih =>
      obtain ⟨hfirst, hrest⟩ := List.pairwise_cons.mp hascending
      obtain ⟨hak, hkm⟩ := h k List.mem_cons_self
      have hlength := ih hkm hrest fun k' hk' =>
        ⟨hfirst k' hk', (h k' (List.mem_cons_of_mem _ hk')).2⟩
      rw [List.length_cons]
      omega

/-- Trimming keeps a key that has no room for `n` others behind it. -/
theorem PyDict.mem_trim_of_ascending {β : Type*} {d : PyDict ℕ β} {n m : ℕ} {e : ℕ × β}
    (hascending : (d.entries.map Prod.fst).Pairwise (· < ·)) (hle : ∀ e ∈ d.entries, e.1 ≤ m)
    (he : e ∈ d.entries) (hn : m < e.1 + n) : e ∈ (d.trim n).entries := by
  have htrim : ∀ es : List (ℕ × β), (es.map Prod.fst).Pairwise (· < ·) → (∀ e ∈ es, e.1 ≤ m) →
      e ∈ es → e ∈ trimEntries n es := by
    intro es hascending hle he
    induction es with
    | nil => exact he
    | cons first rest ih =>
        rw [List.map_cons, List.pairwise_cons] at hascending
        unfold trimEntries
        split
        · next hlong =>
            rcases List.mem_cons.mp he with rfl | he
            -- what is behind it is `n` keys at least
            · have hlength := length_add_le_of_ascending (hle _ List.mem_cons_self)
                hascending.2 fun k hk => ⟨hascending.1 k hk, by
                  obtain ⟨e', he', rfl⟩ := List.mem_map.mp hk
                  exact hle e' (List.mem_cons_of_mem _ he')⟩
              rw [List.length_map] at hlength
              rw [List.length_cons] at hlong
              omega
            · exact ih hascending.2 (fun e' he' => hle e' (List.mem_cons_of_mem _ he')) he
        · exact he
  exact htrim d.entries hascending hle he

namespace ObservationLedger

variable {Goal Image : Type*}

/-- The ids of the frames that are held ascend up to the counter. -/
structure Ordered (l : ObservationLedger Goal Image) : Prop where
  ascending : (l.sentFrames.entries.map Prod.fst).Pairwise (· < ·)
  le : ∀ e ∈ l.sentFrames.entries, e.1 ≤ l.frameCounter

variable {l l' : ObservationLedger Goal Image} {generation frameId : ℕ} {image : Image}

theorem ordered_of_nil (h : l.sentFrames.entries = []) : l.Ordered where
  ascending := by simp [h]
  le := by simp [h]

/-- The entries before the trim: the new frame goes last. -/
theorem Ordered.entries_set (h : l.Ordered) (image : Image) :
    (l.sentFrames.set (l.frameCounter + 1) image).entries =
      l.sentFrames.entries ++ [(l.frameCounter + 1, image)] := by
  refine PyDict.entries_set_of_not_mem ?_ image
  intro hmem
  obtain ⟨e, he, hid⟩ := List.mem_map.mp hmem
  have hle := h.le e he
  omega

/-- A frame that was sent is held, and so are those that were held, up to the limit. -/
theorem Ordered.recordSent (h : l.Ordered)
    (hsent : l.recordSent generation image = (l', some frameId)) :
    l'.Ordered ∧ ∀ e, e ∈ l.sentFrames.entries ∨ e = (frameId, image) →
      frameId < e.1 + l.maxFrames → e ∈ l'.sentFrames.entries := by
  obtain ⟨-, -, rfl, rfl⟩ := recordSent_some hsent
  have hset := h.entries_set image
  have hascending : ((l.sentFrames.set (l.frameCounter + 1) image).entries.map
      Prod.fst).Pairwise (· < ·) := by
    rw [hset, List.map_append, List.pairwise_append]
    refine ⟨h.ascending, List.pairwise_singleton _ _, ?_⟩
    intro k hk k' hk'
    obtain ⟨e, he, rfl⟩ := List.mem_map.mp hk
    obtain rfl := List.mem_singleton.mp hk'
    exact Nat.lt_succ_of_le (h.le e he)
  have hle : ∀ e ∈ (l.sentFrames.set (l.frameCounter + 1) image).entries,
      e.1 ≤ l.frameCounter + 1 := by
    intro e he
    rw [hset, List.mem_append, List.mem_singleton] at he
    rcases he with he | rfl
    · exact Nat.le_succ_of_le (h.le e he)
    · exact le_rfl
  refine ⟨⟨?_, fun e he => hle e (PyDict.mem_trim he)⟩, fun e he hn => ?_⟩
  · exact hascending.sublist ((PyDict.trimEntries_sublist _ _).map Prod.fst)
  · refine PyDict.mem_trim_of_ascending hascending hle ?_ hn
    rw [hset, List.mem_append, List.mem_singleton]
    exact he

/-- A reply takes its frame and all older ones, and leaves the newer ones. -/
theorem Ordered.takeReplyFrame (h : l.Ordered) (frameId : ℕ) :
    (l.takeReplyFrame frameId).1.Ordered ∧ ∀ e ∈ l.sentFrames.entries, frameId < e.1 →
      e ∈ (l.takeReplyFrame frameId).1.sentFrames.entries := by
  refine ⟨⟨?_, fun e he => h.le e (mem_takeReplyFrame he)⟩, fun e he hid => ?_⟩
  · exact h.ascending.sublist ((List.filter_sublist.trans List.filter_sublist).map Prod.fst)
  · refine List.mem_filter.mpr ⟨List.mem_filter.mpr ⟨he, ?_⟩, ?_⟩
    · simpa using hid.ne'
    · simpa using hid.le

/-- The frame of a reply is handed out if it is held. -/
theorem takeReplyFrame_of_mem (h : (frameId, image) ∈ l.sentFrames.entries) :
    (l.takeReplyFrame frameId).2 = some image :=
  PyDict.get?_of_mem h

end ObservationLedger

/-! ## The loop -/

namespace RemoteLoop

variable {R Image Emb Jpeg State Env Settings : Type}

/-- An observation that was sent, and the node before the tick that sent it. -/
structure Sent (R Image Emb Jpeg : Type) where
  node : EdgeNode R Image Emb
  obs : Observation R Image Jpeg

/-- The edge node with the embedding that it is about to `put`, the topics with the remote side
between them, and what was sent, newest first. -/
structure World (R Image Emb Jpeg State Env : Type) where
  edge : IoState R Image Emb
  link : Link State Env (Observation R Image Jpeg) (ActionEmbedding Emb)
  sent : List (Sent R Image Emb Jpeg)

/-- The callbacks of the edge node, the remote side and the network. -/
inductive Event (R Image Env Settings : Type)
  | activate
  | deactivate
  | goal (msg : GoalSpec R Image)
  | image (image : Image) (stampNs sourceStampNs : ℤ)
  | odom (msg : Odometry R) (nowNs : ℤ)
  | sendTick (params : EdgeParams) (settings : Settings) (imageNs odomNs : ℤ)
  | observationTravels (fate : Topic.Fate)
  | serve (env : Env)
  | embeddingTravels (fate : Topic.Fate)
  | hear (nowNs : ℤ)
  | put

section

variable [Field R] [LinearOrder R] [Trig R] [PyLen Emb] (decode : Image → Option Image)
  (encode : Settings → Image → Option Jpeg) (blank : Image)
  (server : Server State Env (Observation R Image Jpeg) (ActionEmbedding Emb))

/-- `_send_observation_tick`, and the publish. -/
def send (w : World R Image Emb Jpeg State Env) (params : EdgeParams)
    (env : EdgeNode.SendEnv Image Jpeg) : World R Image Emb Jpeg State Env :=
  match w.edge.node.sendObservationTick params env with
  | (node, none) => { w with edge := { w.edge with node := node } }
  | (node, some obs) =>
      { edge := { w.edge with node := node }
        link := { w.link with requests := w.link.requests.publish obs }
        sent := ⟨w.edge.node, obs⟩ :: w.sent }

/-- The first half of `_on_embedding_received`, on the embedding that waits. -/
def hear (w : World R Image Emb Jpeg State Env) (nowNs : ℤ) : World R Image Emb Jpeg State Env :=
  match w.link.answers.take with
  | (_, none) => w
  | (answers, some emb) =>
      { w with
        edge := ioStep decode w.edge (.takeReplyFrame emb nowNs)
        link := { w.link with answers := answers } }

/-- One step of the loop. -/
def step (w : World R Image Emb Jpeg State Env) :
    Event R Image Env Settings → World R Image Emb Jpeg State Env
  | .activate => { w with edge := { w.edge with node := w.edge.node.onActivate } }
  | .deactivate => { w with edge := { w.edge with node := w.edge.node.onDeactivate } }
  | .goal msg => { w with edge := ioStep decode w.edge (.onGoal msg) }
  | .image image stampNs sourceStampNs =>
      { w with edge := ioStep decode w.edge (.onImage image stampNs sourceStampNs) }
  | .odom msg nowNs => { w with edge := ioStep decode w.edge (.onOdom msg nowNs) }
  | .sendTick params settings imageNs odomNs =>
      send w params ⟨imageNs, odomNs, encode settings, blank⟩
  | .observationTravels fate =>
      { w with link := { w.link with requests := w.link.requests.travel fate } }
  | .serve env => { w with link := w.link.serve server env }
  | .embeddingTravels fate =>
      { w with link := { w.link with answers := w.link.answers.travel fate } }
  | .hear nowNs => hear decode w nowNs
  | .put => { w with edge := ioStep decode w.edge .put }

/-- The loop from the first configure of a node whose policy runs remotely, up to the next
cleanup. -/
def machine : Machine (World R Image Emb Jpeg State Env) (Event R Image Env Settings) where
  Init w := w.edge.held = none ∧ w.link = .new server ∧ w.sent = [] ∧
    ∃ params adapter cameraOpens, adapter.isLocal = false ∧
      EdgeNode.new.onConfigure params (some adapter) cameraOpens = (w.edge.node, .success)
  Guard w
    | .goal _ => w.edge.node.goalSub = true
    | .sendTick .. => w.edge.node.sendTimer = true
    | _ => True
  next := step decode encode blank server

end

/-! ## What is sent -/

section

variable [Field R] [LinearOrder R] [Trig R] (encode : Settings → Image → Option Jpeg)
  (blank : Image)

/-- The tick of the node sent this observation. -/
def Sent.Made (s : Sent R Image Emb Jpeg) : Prop :=
  ∃ (params : EdgeParams) (settings : Settings) (imageNs odomNs : ℤ),
    (s.node.sendObservationTick params ⟨imageNs, odomNs, encode settings, blank⟩).2 = some s.obs

/-- **What a tick sends**: the newest camera frame, for the goal of the moment. -/
theorem sendObservationTick_some {n n' : EdgeNode R Image Emb} {params : EdgeParams}
    {env : EdgeNode.SendEnv Image Jpeg} {obs : Observation R Image Jpeg}
    (h : n.sendObservationTick params env = (n', some obs)) :
    ∃ goal image observations, n.observations.goal = some goal ∧
      n.goalToSend params env goal = some obs.goal ∧ n.cameraFrames.image = some image ∧
      env.resizeAndJpeg image = some obs.jpeg ∧
      n.observations.recordSent n.observations.generation image =
        (observations, some obs.frameId) ∧
      n' = { n with observations := observations } := by
  -- each check that fails sends nothing; what is left is the path through all of them
  unfold EdgeNode.sendObservationTick at h
  split at h
  · dsimp only at h
    split at h
    · next image captureNs goal hcapture hgoal =>
        have himage : n.cameraFrames.image = some image := by
          unfold CameraFrameStore.freshWithStamp at hcapture
          split at hcapture
          · cases hcapture
          · next image' himage =>
              split at hcapture
              · cases hcapture
              · cases hcapture
                exact himage
        split at h
        · cases h
        · next sendable hsendable =>
            split at h
            · cases h
            · next jpeg hjpeg =>
                split at h
                · cases h
                · next observations frameId hrec =>
                    cases h
                    exact ⟨goal, image, observations, hgoal, hsendable, himage, hjpeg, hrec, rfl⟩
    · cases h
  · cases h

/-- A tick that sends nothing leaves the node. -/
theorem sendObservationTick_none {n n' : EdgeNode R Image Emb} {params : EdgeParams}
    {env : EdgeNode.SendEnv Image Jpeg} (h : n.sendObservationTick params env = (n', none)) :
    n' = n := by
  rcases n.sendObservationTick_cases params env with heq | ⟨obs, observations, heq, -⟩
  · rw [heq] at h
    exact (Prod.mk.inj h).1.symm
  · rw [heq] at h
    cases h

/-- The goal of an observation is the one of the node, in the frame of the robot. -/
def InRobotFrame (n : EdgeNode R Image Emb) (goal sent : GoalSpec R Image) : Prop :=
  if goal.mode = GoalSpec.MODE_POSE ∧ goal.pose.frameId = "odom" then
    ∃ odom, n.latestOdom = some odom ∧ sent = poseGoalInBaseLink blank goal odom
  else sent = goal

theorem inRobotFrame_of_goalToSend {n : EdgeNode R Image Emb} {params : EdgeParams}
    {env : EdgeNode.SendEnv Image Jpeg} {goal sent : GoalSpec R Image}
    (h : n.goalToSend params env goal = some sent) : InRobotFrame env.blank n goal sent := by
  unfold EdgeNode.goalToSend at h
  unfold InRobotFrame
  split at h
  · next hmode =>
      dsimp only at h
      by_cases hframe : goal.pose.frameId = "odom"
      · rw [if_pos ⟨hmode, hframe⟩]
        rw [hframe, if_pos (by decide)] at h
        obtain ⟨odom, hodom, rfl⟩ := Option.map_eq_some_iff.mp h
        unfold EdgeNode.freshOdom at hodom
        split at hodom
        · cases hodom
        · exact ⟨odom, hodom, rfl⟩
      · rw [if_neg (fun hboth => hframe hboth.2)]
        -- an empty frame stands for `base_link`
        have hdefault : (if goal.pose.frameId = "" then "base_link" else goal.pose.frameId) ≠
            "odom" := by
          split
          · decide
          · exact hframe
        rw [if_neg hdefault] at h
        by_cases hother : (if goal.pose.frameId = "" then "base_link" else goal.pose.frameId) ≠
            "base_link"
        · rw [if_pos hother] at h
          cases h
        · rw [if_neg hother] at h
          exact (Option.some.inj h).symm
  · next hmode =>
      rw [if_neg (fun hboth => hmode hboth.1)]
      exact (Option.some.inj h).symm

end

/-! ## The invariant -/

section

variable (blank : Image)
  (server : Server State Env (Observation R Image Jpeg) (ActionEmbedding Emb))

/-- What was sent, for the correlation of goals and frames. -/
def Sent.issued (s : Sent R Image Emb Jpeg) : GoalCorrelation.Issued Image where
  frameId := s.obs.frameId
  generation := s.node.observations.generation
  image := s.node.cameraFrames.image.getD blank

/-- The ledger, the cache and the history of the loop are those of a correlation. -/
structure Encodes (w : World R Image Emb Jpeg State Env)
    (c : GoalCorrelation.State (GoalSpec R Image) Image Emb) : Prop where
  ledger : c.ledger = w.edge.node.observations
  cache : w.edge.node.cache = some c.cache
  receiving : c.receiving 0 = w.edge.held
  issued : c.issued = w.sent.map (Sent.issued blank)

/-- The embedding is the reply of the server to what was sent, paired with its frame, unless
that is too old. -/
structure Answers [PyLen Emb] (w : World R Image Emb Jpeg State Env)
    (emb : CachedEmbedding Emb Image) (s : Sent R Image Emb Jpeg) : Prop where
  sent : s ∈ w.sent
  frameId : s.obs.frameId = emb.frameId
  reply : ∃ newer env older reply, w.link.served = newer ++ (env, s.obs) :: older ∧
    (server.serve (server.after older) env s.obs).2 = some reply ∧ reply.shapeOk = true ∧
    emb = reply.cached emb.recvTimeNs emb.obsImageRgb
  paired : emb.obsImageRgb = none → s.obs.frameId + 8 ≤ w.edge.node.observations.frameCounter ∨
    s.node.observations.generation < w.edge.node.observations.generation

/-- Histories and counters go on. -/
structure Grows (w w' : World R Image Emb Jpeg State Env) : Prop where
  sent : w.sent <:+ w'.sent
  served : w.link.served <:+ w'.link.served
  frameCounter : w.edge.node.observations.frameCounter ≤ w'.edge.node.observations.frameCounter
  generation : w.edge.node.observations.generation ≤ w'.edge.node.observations.generation

variable {blank server} {w w' : World R Image Emb Jpeg State Env}

theorem Answers.mono [PyLen Emb] {emb : CachedEmbedding Emb Image} {s : Sent R Image Emb Jpeg}
    (h : Answers server w emb s) (hgrows : Grows w w') : Answers server w' emb s where
  sent := hgrows.sent.subset h.sent
  frameId := h.frameId
  reply := by
    obtain ⟨newer, env, older, reply, hserved, hrest⟩ := h.reply
    obtain ⟨newest, hnewest⟩ := hgrows.served
    refine ⟨newest ++ newer, env, older, reply, ?_, hrest⟩
    rw [← hnewest, hserved, List.append_assoc]
  paired := by
    intro hnone
    rcases h.paired hnone with hold | hold
    · exact Or.inl (hold.trans hgrows.frameCounter)
    · exact Or.inr (hold.trans_le hgrows.generation)

/-- A send is the two halves of a send of the correlation. -/
theorem Encodes.send {c : GoalCorrelation.State (GoalSpec R Image) Image Emb}
    (henc : Encodes blank w c) (hc : GoalCorrelation.Correlated c) {goal : GoalSpec R Image}
    {image : Image} {obs : Observation R Image Jpeg}
    {observations : ObservationLedger (GoalSpec R Image) Image}
    (hgoal : w.edge.node.observations.goal = some goal)
    (himage : w.edge.node.cameraFrames.image = some image)
    (hrec : w.edge.node.observations.recordSent w.edge.node.observations.generation image =
      (observations, some obs.frameId)) (hsent : w'.sent = ⟨w.edge.node, obs⟩ :: w.sent)
    (hedge : w'.edge = { w.edge with
      node := { w.edge.node with observations := observations } }) :
    ∃ c, GoalCorrelation.Correlated c ∧ Encodes blank w' c := by
  have hsnapshot : c.ledger.snapshotGoal = (some goal, w.edge.node.observations.generation) := by
    rw [henc.ledger, ObservationLedger.snapshotGoal, hgoal]
  have hhalf : GoalCorrelation.snapshotGoal c 0 = { c with
      sending := Function.update c.sending 0 (some w.edge.node.observations.generation) } := by
    rw [GoalCorrelation.snapshotGoal, hsnapshot]
  have hother : GoalCorrelation.recordSent (GoalCorrelation.snapshotGoal c 0) 0 image =
      { c with
        sending := Function.update (Function.update c.sending 0
          (some w.edge.node.observations.generation)) 0 none
        ledger := observations
        issued := ⟨obs.frameId, w.edge.node.observations.generation, image⟩ :: c.issued } := by
    rw [hhalf]
    simp only [GoalCorrelation.recordSent, Function.update_self, henc.ledger, hrec]
  refine ⟨_, (hc.snapshotGoal 0).recordSent 0 image, ?_⟩
  rw [hother]
  refine ⟨by rw [hedge], by rw [hedge]; exact henc.cache, by rw [hedge]; exact henc.receiving, ?_⟩
  rw [hsent, List.map_cons, Sent.issued, himage, henc.issued]
  rfl

/-- What only moves messages or reads the ledger. -/
theorem Grows.of_eq (hsent : w'.sent = w.sent) (hserved : w.link.served <:+ w'.link.served)
    (hobservations : w'.edge.node.observations = w.edge.node.observations) : Grows w w' where
  sent := by rw [hsent]
  served := hserved
  frameCounter := by rw [hobservations]
  generation := by rw [hobservations]

end

section

variable [Field R] [LinearOrder R] [Trig R] [PyLen Emb] (encode : Settings → Image → Option Jpeg)
  (blank : Image) (server : Server State Env (Observation R Image Jpeg) (ActionEmbedding Emb))

/-- What holds all along the loop. -/
structure Inv (w : World R Image Emb Jpeg State Env) : Prop where
  link : w.link.Sound server
  correlated : ∃ c, GoalCorrelation.Correlated c ∧ Encodes blank w c
  asked : w.link.requests.published = w.sent.map Sent.obs
  made : ∀ s ∈ w.sent, s.Made encode blank
  ids : (w.sent.map fun s => s.obs.frameId).Pairwise (· > ·)
  ids_le : ∀ s ∈ w.sent, s.obs.frameId ≤ w.edge.node.observations.frameCounter
  goal : ∀ s ∈ w.sent, s.node.observations.generation = w.edge.node.observations.generation →
    w.edge.node.observations.goal = s.node.observations.goal
  maxFrames : w.edge.node.observations.maxFrames = 8
  ordered : w.edge.node.observations.Ordered
  /-- A frame of the current goal is held until a reply to it or to a newer one is heard, or
  eight newer ones are sent. -/
  kept : ∀ s ∈ w.sent, s.node.observations.generation = w.edge.node.observations.generation →
    (∀ heard ∈ w.link.answers.received, heard.frameId < s.obs.frameId) →
    w.edge.node.observations.frameCounter < s.obs.frameId + 8 →
    ∃ image, (s.obs.frameId, image) ∈ w.edge.node.observations.sentFrames.entries
  held : ∀ emb ∈ w.edge.held, ∃ s, Answers server w emb s
  latest : ∀ emb ∈ w.edge.node.latestRaw, ∃ s, Answers server w emb s

variable {encode blank server} {w : World R Image Emb Jpeg State Env}

/-- A step that leaves the ledger, the cache and the replies. -/
theorem Inv.aside (h : Inv encode blank server w) {w' : World R Image Emb Jpeg State Env}
    (hsent : w'.sent = w.sent) (hlink : w'.link.Sound server)
    (hserved : w.link.served <:+ w'.link.served)
    (hpublished : w'.link.requests.published = w.link.requests.published)
    (hreceived : w'.link.answers.received = w.link.answers.received)
    (hobservations : w'.edge.node.observations = w.edge.node.observations)
    (hcache : w'.edge.node.cache = w.edge.node.cache) (hheld : w'.edge.held = w.edge.held) :
    Inv encode blank server w' := by
  have hgrows : Grows w w' := Grows.of_eq hsent hserved hobservations
  have hraw : w'.edge.node.latestRaw = w.edge.node.latestRaw := by
    rw [EdgeNode.latestRaw, EdgeNode.latestRaw, hcache]
  obtain ⟨c, hc, henc⟩ := h.correlated
  exact {
    link := hlink
    correlated := ⟨c, hc, henc.ledger.trans hobservations.symm, hcache.trans henc.cache,
      henc.receiving.trans hheld.symm, hsent ▸ henc.issued⟩
    asked := by rw [hpublished, hsent, h.asked]
    made := hsent ▸ h.made
    ids := hsent ▸ h.ids
    ids_le := by rw [hsent, hobservations]; exact h.ids_le
    goal := by rw [hsent, hobservations]; exact h.goal
    maxFrames := by rw [hobservations, h.maxFrames]
    ordered := by rw [hobservations]; exact h.ordered
    kept := by rw [hsent, hobservations, hreceived]; exact h.kept
    held := by
      rw [hheld]
      exact fun emb hemb => (h.held emb hemb).imp fun s hs => hs.mono hgrows
    latest := by
      rw [hraw]
      exact fun emb hemb => (h.latest emb hemb).imp fun s hs => hs.mono hgrows }

/-- A goal starts a generation: nothing was sent for it yet, and the cache is empty. -/
theorem Inv.onGoal (h : Inv encode blank server w) (decode : Image → Option Image)
    (msg : GoalSpec R Image) :
    Inv encode blank server { w with edge := ioStep decode w.edge (.onGoal msg) } := by
  obtain ⟨c, hc, henc⟩ := h.correlated
  -- all that was sent is of an earlier generation
  have hold : ∀ s ∈ w.sent, s.node.observations.generation ≠
      w.edge.node.observations.generation + 1 := by
    intro s hs
    have hle : s.node.observations.generation ≤ c.ledger.generation :=
      hc.generations_le (s.issued blank) (by rw [henc.issued]; exact List.mem_map_of_mem hs)
    rw [henc.ledger] at hle
    omega
  have hgrows : Grows w { w with edge := ioStep decode w.edge (.onGoal msg) } :=
    ⟨List.suffix_rfl, List.suffix_rfl, le_rfl, Nat.le_succ _⟩
  have hcache : (w.edge.node.onGoal decode msg).cache =
      some (c.cache.invalidate (some w.edge.node.observations.frameCounter)) := by
    rw [EdgeNode.onGoal, henc.cache]
    rfl
  exact {
    h with
    correlated := by
      refine ⟨_, hc.onGoal msg, ?_, ?_, henc.receiving, henc.issued⟩
      · show (c.ledger.changeGoal msg).1 = (w.edge.node.observations.changeGoal msg).1
        rw [henc.ledger]
      · show (w.edge.node.onGoal decode msg).cache =
          some (c.cache.invalidate (some c.ledger.frameCounter))
        rw [hcache, henc.ledger]
    goal := fun s hs hgen => absurd hgen (hold s hs)
    ordered := ObservationLedger.ordered_of_nil rfl
    kept := fun s hs hgen => absurd hgen (hold s hs)
    held := fun emb hemb => (h.held emb hemb).imp fun s hs => hs.mono hgrows
    latest := by
      intro emb hemb
      have hraw : (w.edge.node.onGoal decode msg).latestRaw = none := by
        rw [EdgeNode.latestRaw, hcache]
        rfl
      have hemb : emb ∈ (w.edge.node.onGoal decode msg).latestRaw := hemb
      rw [hraw] at hemb
      cases hemb }

/-- **A send** issues the next id, and its frame is held. -/
theorem Inv.send (h : Inv encode blank server w) (params : EdgeParams) (settings : Settings)
    (imageNs odomNs : ℤ) :
    Inv encode blank server (send w params ⟨imageNs, odomNs, encode settings, blank⟩) := by
  unfold RemoteLoop.send
  split
  · next node hticked =>
      rw [sendObservationTick_none hticked]
      exact h
  · next node obs hticked =>
      obtain ⟨goal, image, observations, hgoal, -, himage, -, hrec, rfl⟩ :=
        sendObservationTick_some hticked
      obtain ⟨c, hc, henc⟩ := h.correlated
      obtain ⟨hordered, hheld⟩ := h.ordered.recordSent hrec
      rw [h.maxFrames] at hheld
      obtain ⟨-, -, hid, hobservations⟩ := ObservationLedger.recordSent_some hrec
      have hcounter : observations.frameCounter = obs.frameId := by rw [hobservations]
      have hgeneration : observations.generation = w.edge.node.observations.generation := by
        rw [hobservations]
      have hnext : w.edge.node.observations.frameCounter < obs.frameId := by omega
      have hgrows : Grows w
          { edge := { w.edge with node := { w.edge.node with observations := observations } }
            link := { w.link with requests := w.link.requests.publish obs }
            sent := ⟨w.edge.node, obs⟩ :: w.sent } :=
        ⟨List.suffix_cons _ _, List.suffix_rfl, hcounter ▸ hnext.le, hgeneration.ge⟩
      exact {
        link := h.link.ask obs
        correlated := henc.send hc hgoal himage hrec rfl rfl
        asked := by
          rw [List.map_cons, ← h.asked]
          rfl
        made := by
          intro s hs
          rcases List.mem_cons.mp hs with rfl | hs
          · exact ⟨params, settings, imageNs, odomNs, by rw [hticked]⟩
          · exact h.made s hs
        ids := by
          refine List.pairwise_cons.mpr ⟨fun id hmem => ?_, h.ids⟩
          obtain ⟨s, hs, rfl⟩ := List.mem_map.mp hmem
          exact (h.ids_le s hs).trans_lt hnext
        ids_le := by
          intro s hs
          rcases List.mem_cons.mp hs with rfl | hs
          · exact hcounter.ge
          · exact (h.ids_le s hs).trans hgrows.frameCounter
        goal := by
          intro s hs hgen
          show observations.goal = _
          rw [hobservations]
          rcases List.mem_cons.mp hs with rfl | hs
          · rfl
          · exact h.goal s hs (hgen.trans hgeneration)
        maxFrames := by
          show observations.maxFrames = 8
          rw [hobservations]
          exact h.maxFrames
        ordered := hordered
        kept := by
          intro s hs hgen hheard hnear
          -- of eight frames held, the newest is one and the near ones the others
          have hnear : obs.frameId < s.obs.frameId + 8 := hcounter ▸ hnear
          rcases List.mem_cons.mp hs with rfl | hs
          · exact ⟨image, hheld _ (Or.inr rfl) hnear⟩
          · obtain ⟨image', hin⟩ := h.kept s hs (hgen.trans hgeneration) hheard
              (hnext.trans hnear)
            exact ⟨image', hheld _ (Or.inl hin) hnear⟩
        held := fun emb hemb => (h.held emb hemb).imp fun s hs => hs.mono hgrows
        latest := fun emb hemb => (h.latest emb hemb).imp fun s hs => hs.mono hgrows }

/-- What waits is the reply to something that was sent, and newer than what was heard. -/
theorem Inv.waiting (h : Inv encode blank server w)
    (hname : ∀ state env obs reply, (server.serve state env obs).2 = some reply →
      reply.frameId = obs.frameId) {emb : ActionEmbedding Emb}
    (hwaiting : w.link.answers.take.2 = some emb) :
    (∃ s ∈ w.sent, s.obs.frameId = emb.frameId ∧ ∃ newer env older,
      w.link.served = newer ++ (env, s.obs) :: older ∧
        (server.serve (server.after older) env s.obs).2 = some emb) ∧
      ∀ heard ∈ w.link.answers.received, heard.frameId < emb.frameId := by
  obtain ⟨newer, env, obs, older, hserved, hreply⟩ := h.link.answer hwaiting
  have hasked : obs ∈ w.link.requests.published := by
    refine h.link.served_sublist.subset (List.mem_map.mpr ⟨(env, obs), ?_, rfl⟩)
    rw [hserved]
    exact List.mem_append_right _ List.mem_cons_self
  rw [h.asked] at hasked
  obtain ⟨s, hs, rfl⟩ := List.mem_map.mp hasked
  refine ⟨⟨s, hs, (hname _ _ _ _ hreply).symm, newer, env, older, hserved, hreply⟩, ?_⟩
  have hids : (w.link.requests.published.map fun obs => obs.frameId).Pairwise (· > ·) := by
    rw [h.asked, List.map_map]
    exact h.ids
  exact h.link.answer_newer hname hids hwaiting

/-- A frame that is not too old is still there when the reply to it is heard. -/
theorem Inv.frame_of_reply (h : Inv encode blank server w) {s : Sent R Image Emb Jpeg}
    (hs : s ∈ w.sent) (hnewer : ∀ heard ∈ w.link.answers.received, heard.frameId < s.obs.frameId)
    (hnone : (w.edge.node.observations.takeReplyFrame s.obs.frameId).2 = none) :
    s.obs.frameId + 8 ≤ w.edge.node.observations.frameCounter ∨
      s.node.observations.generation < w.edge.node.observations.generation := by
  by_contra hnot
  rw [not_or, not_le, not_lt] at hnot
  obtain ⟨c, hc, henc⟩ := h.correlated
  have hle : s.node.observations.generation ≤ c.ledger.generation :=
    hc.generations_le (s.issued blank) (by rw [henc.issued]; exact List.mem_map_of_mem hs)
  rw [henc.ledger] at hle
  obtain ⟨image, hin⟩ := h.kept s hs (le_antisymm hle hnot.2) hnewer hnot.1
  rw [ObservationLedger.takeReplyFrame_of_mem hin] at hnone
  cases hnone

/-- **A reply is heard**: its frame is there unless it is too old. -/
theorem Inv.hear (h : Inv encode blank server w)
    (hname : ∀ state env obs reply, (server.serve state env obs).2 = some reply →
      reply.frameId = obs.frameId) (decode : Image → Option Image) (nowNs : ℤ) :
    Inv encode blank server (hear decode w nowNs) := by
  unfold RemoteLoop.hear
  split
  · exact h
  · next answers emb htake =>
      have hanswers : answers = w.link.answers.take.1 := by rw [htake]
      have hemb : w.link.answers.take.2 = some emb := by rw [htake]
      subst hanswers
      obtain ⟨⟨s, hs, hid, newer, env, older, hserved, hreply⟩, hnewer⟩ := h.waiting hname hemb
      obtain ⟨c, hc, henc⟩ := h.correlated
      have hreceived : w.link.answers.take.1.received = emb :: w.link.answers.received := by
        rw [Topic.take_received, hemb]
        rfl
      -- a reply of another shape is dropped, but heard all the same
      by_cases hshape : emb.shapeOk = true
      · have hstep : ioStep decode w.edge (.takeReplyFrame emb nowNs) =
            { node := { w.edge.node with
                observations := (w.edge.node.observations.takeReplyFrame emb.frameId).1 }
              held := some (emb.cached nowNs
                (w.edge.node.observations.takeReplyFrame emb.frameId).2) } := by
          rw [ioStep, if_pos]
          rw [henc.cache, hshape]
          rfl
        rw [hstep]
        obtain ⟨hordered, hleft⟩ := h.ordered.takeReplyFrame emb.frameId
        have hgrows : Grows w
            { w with
              edge :=
                { node := { w.edge.node with
                    observations := (w.edge.node.observations.takeReplyFrame emb.frameId).1 }
                  held := some (emb.cached nowNs
                    (w.edge.node.observations.takeReplyFrame emb.frameId).2) }
              link := { w.link with answers := w.link.answers.take.1 } } :=
          ⟨List.suffix_rfl, List.suffix_rfl, le_rfl, le_rfl⟩
        exact {
          h with
          link := h.link.hear
          correlated := by
            refine ⟨_, hc.takeReplyFrame 0 nowNs ⟨s.issued blank, ?_, hid⟩, ?_⟩
            · rw [henc.issued]
              exact List.mem_map_of_mem hs
            · rw [GoalCorrelation.takeReplyFrame, if_pos hshape]
              refine ⟨by rw [henc.ledger], henc.cache, ?_, henc.issued⟩
              rw [henc.ledger]
              exact Function.update_self 0 _ c.receiving
          ordered := hordered
          kept := by
            intro s' hs' hgen hheard hnear
            -- only the frame of this reply and the older ones are let go
            rw [hreceived] at hheard
            obtain ⟨image, hin⟩ := h.kept s' hs' hgen
              (fun heard hmem => hheard heard (List.mem_cons_of_mem _ hmem)) hnear
            exact ⟨image, hleft _ hin (hheard emb List.mem_cons_self)⟩
          held := by
            rintro _ ⟨⟩
            refine ⟨s, hs, hid, ⟨newer, env, older, emb, hserved, hreply, hshape, rfl⟩, ?_⟩
            intro hnone
            exact h.frame_of_reply hs (hid ▸ hnewer) (hid ▸ hnone)
          latest := fun e he => (h.latest e he).imp fun s hs => hs.mono hgrows }
      · have hstep : ioStep decode w.edge (.takeReplyFrame emb nowNs) =
            { w.edge with held := none } := by
          rw [ioStep, if_neg]
          rw [henc.cache]
          simpa using hshape
        rw [hstep]
        exact {
          h with
          link := h.link.hear
          correlated := by
            refine ⟨_, hc.takeReplyFrame 0 nowNs ⟨s.issued blank, ?_, hid⟩, ?_⟩
            · rw [henc.issued]
              exact List.mem_map_of_mem hs
            · rw [GoalCorrelation.takeReplyFrame, if_neg hshape]
              exact ⟨henc.ledger, henc.cache, Function.update_self 0 _ c.receiving, henc.issued⟩
          kept := by
            intro s' hs' hgen hheard hnear
            rw [hreceived] at hheard
            exact h.kept s' hs' hgen
              (fun heard hmem => hheard heard (List.mem_cons_of_mem _ hmem)) hnear
          held := by
            rintro _ ⟨⟩
          latest := fun e he => (h.latest e he).imp fun s hs =>
            hs.mono ⟨List.suffix_rfl, List.suffix_rfl, le_rfl, le_rfl⟩ }

/-- **A put**: what was held goes to the cache if it is newer. -/
theorem Inv.put (h : Inv encode blank server w) (decode : Image → Option Image) :
    Inv encode blank server { w with edge := ioStep decode w.edge .put } := by
  obtain ⟨c, hc, henc⟩ := h.correlated
  cases hheld : w.edge.held with
  | none =>
      have hstep : ioStep decode w.edge .put = w.edge := by rw [ioStep, hheld]
      rw [hstep]
      exact h
  | some emb =>
      have hstep : ioStep decode w.edge .put =
          { node := { w.edge.node with cache := some (c.cache.put emb) }, held := none } := by
        rw [ioStep, hheld]
        simp only [henc.cache, Option.map_some]
      rw [hstep]
      have hgrows : Grows w
          { w with edge :=
              { node := { w.edge.node with cache := some (c.cache.put emb) }, held := none } } :=
        ⟨List.suffix_rfl, List.suffix_rfl, le_rfl, le_rfl⟩
      exact {
        h with
        correlated := by
          refine ⟨_, hc.put 0, ?_⟩
          rw [GoalCorrelation.put, henc.receiving, hheld]
          exact ⟨henc.ledger, rfl, Function.update_self 0 _ c.receiving, henc.issued⟩
        held := by
          rintro _ ⟨⟩
        latest := by
          intro e he
          -- the newest reply is the held one, or what the cache had
          have he : (c.cache.put emb).latest = some e := he
          rw [EmbeddingCache.put_eq] at he
          split at he
          · cases he
            exact (h.held emb hheld).imp fun s hs => hs.mono hgrows
          · refine (h.latest e ?_).imp fun s hs => hs.mono hgrows
            rw [EdgeNode.latestRaw, henc.cache]
            exact he }

/-- The node after its first configure. -/
theorem inv_new {w : World R Image Emb Jpeg State Env} {params : EdgeParams}
    {adapter : EdgeAdapter R Image} {cameraOpens : Bool} (hheld : w.edge.held = none)
    (hlink : w.link = .new server) (hsent : w.sent = [])
    (hconfigure : EdgeNode.new.onConfigure params (some adapter) cameraOpens =
      (w.edge.node, .success)) : Inv encode blank server w := by
  have hspec := EdgeNode.onConfigure_spec (EdgeNode.new : EdgeNode R Image Emb) params
    (some adapter) cameraOpens
  rw [hconfigure] at hspec
  obtain ⟨hobservations, -, -, hcache, -⟩ := hspec
  obtain ⟨cache, hsome, hlatest, hfloor⟩ := hcache rfl
  have hgoal : w.edge.node.observations.goal = none := by
    rw [hobservations]
    rfl
  have hframes : w.edge.node.observations.sentFrames = PyDict.empty := by
    rw [hobservations]
    rfl
  have hraw : w.edge.node.latestRaw = none := by
    rw [EdgeNode.latestRaw, hsome]
    exact hlatest
  exact {
    link := by
      rw [hlink]
      exact Link.sound_new
    correlated := ⟨⟨w.edge.node.observations, cache, fun _ => none, fun _ => none, [], []⟩,
      GoalCorrelation.Fresh.correlated ⟨hgoal, hframes, hlatest, hfloor, rfl, rfl, rfl, rfl⟩,
      rfl, hsome, hheld.symm, by rw [hsent]; rfl⟩
    asked := by
      rw [hlink, hsent]
      rfl
    made := by simp [hsent]
    ids := by simp [hsent]
    ids_le := by simp [hsent]
    goal := by simp [hsent]
    maxFrames := by
      rw [hobservations]
      rfl
    ordered := ObservationLedger.ordered_of_nil (by rw [hframes]; rfl)
    kept := by simp [hsent]
    held := by simp [hheld]
    latest := by simp [hraw] }

/-- **The invariant of the loop**. -/
theorem inv_invariant (hname : ∀ state env obs reply, (server.serve state env obs).2 = some reply →
      reply.frameId = obs.frameId) (decode : Image → Option Image) :
    (machine decode encode blank server).Invariant (Inv encode blank server) where
  init := by
    rintro w ⟨hheld, hlink, hsent, params, adapter, cameraOpens, -, hconfigure⟩
    exact inv_new hheld hlink hsent hconfigure
  step := by
    intro w e h _
    cases e with
    | activate => exact h.aside rfl h.link List.suffix_rfl rfl rfl rfl rfl rfl
    | deactivate => exact h.aside rfl h.link List.suffix_rfl rfl rfl rfl rfl rfl
    | goal msg => exact h.onGoal decode msg
    | image image stampNs sourceStampNs =>
        exact h.aside rfl h.link List.suffix_rfl rfl rfl rfl rfl rfl
    | odom msg nowNs => exact h.aside rfl h.link List.suffix_rfl rfl rfl rfl rfl rfl
    | sendTick params settings imageNs odomNs => exact h.send params settings imageNs odomNs
    | observationTravels fate =>
        exact h.aside rfl (h.link.requestTravels fate) List.suffix_rfl
          (w.link.requests.travel_published fate) rfl rfl rfl rfl
    | serve env =>
        obtain ⟨hserved, hpublished, hreceived⟩ := Link.serve_frame server w.link env
        exact h.aside rfl (h.link.serve env) hserved hpublished hreceived rfl rfl rfl
    | embeddingTravels fate =>
        exact h.aside rfl (h.link.replyTravels fate) List.suffix_rfl rfl
          (w.link.answers.travel_received fate) rfl rfl rfl
    | hear nowNs => exact h.hear hname decode nowNs
    | put => exact h.put decode

/-- What the server took before an observation was sent before it. -/
theorem Inv.older (h : Inv encode blank server w)
    {newer older : List (Env × Observation R Image Jpeg)} {env : Env}
    {obs : Observation R Image Jpeg}
    (hserved : w.link.served = newer ++ (env, obs) :: older) :
    ∀ o ∈ older, (∃ s ∈ w.sent, s.obs = o.2) ∧ o.2.frameId < obs.frameId := by
  have htaken := h.link.served_sublist
  rw [h.asked] at htaken
  have hids : ((w.link.served.map Prod.snd).map fun obs => obs.frameId).Pairwise (· > ·) := by
    refine List.Pairwise.sublist (htaken.map _) ?_
    rw [List.map_map]
    exact h.ids
  intro o ho
  have hmem : o ∈ w.link.served := by
    rw [hserved]
    exact List.mem_append_right _ (List.mem_cons_of_mem _ ho)
  refine ⟨List.mem_map.mp (htaken.subset (List.mem_map_of_mem hmem)), ?_⟩
  rw [hserved, List.map_append, List.map_append, List.pairwise_append] at hids
  refine List.rel_of_pairwise_cons hids.2.1 ?_
  exact List.mem_map_of_mem (List.mem_map_of_mem ho)

/-- **What the cache holds** is the reply to an observation for the goal of the moment, paired
with the camera frame of that observation unless eight newer ones were sent. -/
theorem Inv.supported (h : Inv encode blank server w) {emb : CachedEmbedding Emb Image}
    (hemb : w.edge.node.latestRaw = some emb) :
    ∃ s goal image settings, Answers server w emb s ∧
      w.edge.node.observations.goal = some goal ∧ InRobotFrame blank s.node goal s.obs.goal ∧
      s.node.cameraFrames.image = some image ∧ encode settings image = some s.obs.jpeg ∧
      (emb.obsImageRgb = some image ∨ emb.obsImageRgb = none ∧
        s.obs.frameId + 8 ≤ w.edge.node.observations.frameCounter) := by
  obtain ⟨s, hs⟩ := h.latest emb hemb
  obtain ⟨c, hc, henc⟩ := h.correlated
  have hissued : ∀ s' ∈ w.sent, s'.issued blank ∈ c.issued := by
    intro s' hs'
    rw [henc.issued]
    exact List.mem_map_of_mem hs'
  have hlatest : c.cache.latest = some emb := by
    rw [EdgeNode.latestRaw, henc.cache] at hemb
    exact hemb
  obtain ⟨⟨i, hi, hid, hpaired⟩, hfloor⟩ := hc.latest emb hlatest
  -- the floor lets through only what was sent under the generation of the moment
  have hgeneration : s.node.observations.generation = w.edge.node.observations.generation := by
    rw [← henc.ledger]
    cases hf : c.cache.floor with
    | none =>
        have hnone := (hc.no_floor hf).2
        have hmem := hissued s hs.sent
        rw [hnone] at hmem
        cases hmem
    | some f =>
        refine (hc.above_floor f hf _ (hissued s hs.sent)).mp ?_
        show f < s.obs.frameId
        rw [hs.frameId]
        exact hfloor f hf
  obtain ⟨params, settings, imageNs, odomNs, hmade⟩ := h.made s hs.sent
  obtain ⟨goal, image, -, hgoal, hsendable, himage, hjpeg, -⟩ :=
    sendObservationTick_some (Prod.ext rfl hmade)
  refine ⟨s, goal, image, settings, hs, (h.goal s hs.sent hgeneration).trans hgoal,
    inRobotFrame_of_goalToSend hsendable, himage, hjpeg, ?_⟩
  cases hframe : emb.obsImageRgb with
  | none =>
      refine Or.inr ⟨rfl, ?_⟩
      rcases hs.paired hframe with hold | hold
      · exact hold
      · exact absurd hgeneration hold.ne
  | some frame =>
      rw [hframe] at hpaired
      rcases hpaired with hnone | hsome
      · cases hnone
      · -- ids are not issued twice
        have hsame : i = s.issued blank :=
          hc.ids_inj i hi _ (hissued s hs.sent) (hid.trans hs.frameId.symm)
        rw [hsome, hsame, Sent.issued, himage]
        exact Or.inl rfl

end

end RemoteLoop
