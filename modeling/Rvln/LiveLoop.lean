/-
# A live episode with its server

The observation callback of `live_transport.py` and `live_server.py` at the other end of its
requests.  The network may refuse a request, lose a reply after the server has worked on it,
or deliver; one request is under way at a time.

* `LiveLoop.observe` : one observation, from the topic to the topic;
* `observe_reply` : what was computed for an embedding that goes out;
-/
import Rvln.LiveServer
import Rvln.LiveTransport

open Json

/-! ## The two sides -/

/-- The episode node and the server. -/
structure LiveLoop (B Pil : Type) where
  episode : LiveTransport.Episode
  server : LiveServer B Pil

namespace LiveLoop

open LiveTransport (Episode HttpCall Video modeText)
open LiveServer (Runtime Computation Response)

/-- What the episode node uses of its libraries. -/
structure Client where
  fits : PyFloat ℚ → Bool
  norm : List (PyFloat ℚ) → PyFloat ℚ
  describe : LiveTransport.Exn → String
  dtoa : Dtoa
  otherText : List UInt8 → Option Text
  levels : ℕ

/-- What the network makes of a request. -/
inductive Fate
  | refused (e : LiveTransport.Exn)
  | lost (e : LiveTransport.Exn)
  | answered

/-- The surroundings of an observation: the start of the episode and its video, the pose and the
velocity of the odometry, the network and the clocks. -/
structure Exchange where
  startedAt : Option ℚ
  video : Video
  motion : Option (List PyDouble × List PyDouble)
  fate : Fate
  wall : PyDouble
  elapsedMs : ℚ

/-- The numbers of a tuple or a list. -/
def floatList (xs : List PyDouble) : Json := .list (xs.map fun x => .float x.1)

/-- `payload` of `_observation`. -/
def requestOf (frameId : ℤ) (text : Text) (jpeg : List UInt8)
    (motion : Option (List PyDouble × List PyDouble)) : Json :=
  .object ([("frame_id".toList, .int frameId), ("text".toList, .str text),
      ("jpeg_base64".toList, .str (PolicySession.b64encode jpeg))] ++
    match motion with
    | none => []
    | some (pose, velocity) =>
        [("pose_xyyaw".toList, floatList pose), ("velocity_vw".toList, floatList velocity)])

section

variable {B Pil Out : Type} (client : Client) (rt : Runtime B Pil Out)

/-- What `json.load` finds of a response. -/
def callOf : Response → HttpCall
  | .status _ | .closed => .fails .osError
  | .body bytes =>
      match HttpBody.bodyText client.otherText bytes with
      | none => .fails (.raised .valueError)
      | some text => .body text

/-- `urlopen` with the request, and the server behind it. -/
def call (s : LiveServer B Pil) (request : Json) (x : Exchange) : LiveServer B Pil × HttpCall :=
  match HttpBody.dumpsBody client.dtoa client.levels request with
  | .error e => (s, .fails (.raised e))
  | .ok bytes =>
      match x.fate with
      | .refused e => (s, .fails e)
      | .lost e => ((s.doPost rt bytes x.wall).1, .fails e)
      | .answered =>
          let posted := s.doPost rt bytes x.wall
          (posted.1, callOf client posted.2)

/-- `_record_video` ends in an exception. -/
def videoRaises : Video → Bool
  | .raises _ => true
  | .written | .undecodable => false

/-- The callback gets to its request. -/
def asks (n : Episode) (msg : LiveTransport.Observation) (video : Video) : Bool :=
  !(n.startedAt.isSome && videoRaises video) &&
    (msg.mode == modeText && msg.text == n.instruction)

variable {R Image : Type}

/-- The message of the topic, as the callback reads it. -/
def messageOf (obs : Observation R Image (List UInt8)) : LiveTransport.Observation :=
  ⟨obs.frameId, obs.goal.mode, obs.goal.text⟩

/-- The request for an observation. -/
def requestFor (x : Exchange) (obs : Observation R Image (List UInt8)) : Json :=
  requestOf obs.frameId obs.goal.text.toList obs.jpeg x.motion

/-- `_observation`, with the server. -/
def observe (w : LiveLoop B Pil) (x : Exchange) (obs : Observation R Image (List UInt8)) :
    LiveLoop B Pil × Option LiveTransport.Exn :=
  let n := { w.episode with startedAt := x.startedAt }
  let called := if asks n (messageOf obs) x.video then
      call client rt w.server (requestFor x obs) x
    else (w.server, .fails .osError)
  let observed := n.observation client.fits client.levels client.norm client.describe
    (messageOf obs) x.video called.2 x.elapsedMs
  (⟨observed.1, called.1⟩, observed.2)

/-- The message that goes out. -/
def embeddingOf (e : LiveTransport.ActionEmbedding) : ActionEmbedding (List (PyFloat ℚ)) :=
  ⟨e.frameId.toNat, e.numTokens, e.embedDim, e.embedding⟩

/-- An episode and its server, between the two topics of the edge. -/
def liveServer (instruction : String) (start : LiveServer B Pil) :
    Server (LiveLoop B Pil) Exchange (Observation R Image (List UInt8))
      (ActionEmbedding (List (PyFloat ℚ))) where
  init := ⟨.new instruction, start⟩
  serve w x obs :=
    let w' := (observe client rt w x obs).1
    (w', (w'.episode.sent[w.episode.sent.length]?).map embeddingOf)

/-- The image of a request that the backend returned for. -/
def takenCall (s : LiveServer B Pil) (request : Json) (x : Exchange) : Option Pil :=
  match HttpBody.dumpsBody client.dtoa client.levels request with
  | .error _ => none
  | .ok bytes =>
      match x.fate with
      | .refused _ => none
      | .lost _ | .answered => s.takenPost rt bytes

/-- The image of an observation that the backend returned for. -/
def taken (w : LiveLoop B Pil) (x : Exchange) (obs : Observation R Image (List UInt8)) :
    Option Pil :=
  if asks { w.episode with startedAt := x.startedAt } (messageOf obs) x.video then
    takenCall client rt w.server (requestFor x obs) x
  else none

/-- The image of the last observation that the backend returned for, newest first. -/
def lastTaken (instruction : String) (start : LiveServer B Pil) :
    List (Exchange × Observation R Image (List UInt8)) → Option Pil
  | [] => start.previous
  | (x, obs) :: older =>
      (taken client rt ((liveServer client rt instruction start).after older) x obs).or
        (lastTaken instruction start older)

end

/-! ## The episode node -/

section

variable (norm : List (PyFloat ℚ) → PyFloat ℚ)

theorem publish_sent (n : Episode) (result : Json) (tokens : LiveTransport.Tokens)
    (output : LiveTransport.ActionEmbedding) (elapsedMs : ℚ) :
    let r := n.publish norm result tokens output elapsedMs
    (r.1.sent = n.sent ∨ r.1.sent = n.sent ++ [output]) ∧ r.1.instruction = n.instruction := by
  dsimp only
  unfold Episode.publish
  split
  · exact ⟨Or.inl rfl, rfl⟩
  · dsimp only
    split
    · exact ⟨Or.inr rfl, rfl⟩
    · exact ⟨Or.inr rfl, rfl⟩

/-- The embedding is one that is read from the body of the call. -/
def Reads (fits : PyFloat ℚ → Bool) (levels : ℕ) (frameId : ℤ) (call : HttpCall)
    (output : LiveTransport.ActionEmbedding) : Prop :=
  ∃ text result tokens, call = .body text ∧ loads levels text = .ok result ∧
    LiveTransport.readReply fits frameId result = .ok (tokens, output)

variable (fits : PyFloat ℚ → Bool) (levels : ℕ)

theorem infer_sent (n : Episode) (msg : LiveTransport.Observation) (call : HttpCall)
    (elapsedMs : ℚ) :
    let r := n.infer fits levels norm msg call elapsedMs
    (r.1.sent = n.sent ∨ ∃ output, Reads fits levels msg.frameId call output ∧
        r.1.sent = n.sent ++ [output]) ∧ r.1.instruction = n.instruction := by
  dsimp only
  unfold Episode.infer
  split
  · exact ⟨Or.inl rfl, rfl⟩
  · next result hload =>
      split
      · exact ⟨Or.inl rfl, rfl⟩
      · next tokens output hread =>
          have hpublish := publish_sent norm n result tokens output elapsedMs
          refine ⟨hpublish.1.imp_right fun hsent => ⟨output, ?_, hsent⟩, hpublish.2⟩
          cases call with
          | fails e => cases hload
          | body text => exact ⟨text, result, tokens, rfl, Except.mapError_eq_ok.mp hload, hread⟩

variable (describe : LiveTransport.Exn → String)

theorem handle_sent (n : Episode) (msg : LiveTransport.Observation) (call : HttpCall)
    (elapsedMs : ℚ) :
    let r := n.handle fits levels norm describe msg call elapsedMs
    (r.1.sent = n.sent ∨ ∃ output, Reads fits levels msg.frameId call output ∧
        msg.mode = modeText ∧ msg.text = n.instruction ∧ r.1.sent = n.sent ++ [output]) ∧
      r.1.instruction = n.instruction := by
  have hinfer := infer_sent norm fits levels n msg call elapsedMs
  dsimp only at hinfer ⊢
  unfold Episode.handle
  split
  · exact ⟨Or.inl rfl, rfl⟩
  · next hmode =>
      split
      · exact ⟨Or.inl rfl, rfl⟩
      · next htext =>
          have hparts : ∀ n' : Episode,
              n'.sent = (n.infer fits levels norm msg call elapsedMs).1.sent →
              n'.instruction = (n.infer fits levels norm msg call elapsedMs).1.instruction →
              (n'.sent = n.sent ∨ ∃ output, Reads fits levels msg.frameId call output ∧
                  msg.mode = modeText ∧ msg.text = n.instruction ∧
                  n'.sent = n.sent ++ [output]) ∧
                n'.instruction = n.instruction := by
            intro n' hsent hinstruction
            rw [hsent, hinstruction]
            refine ⟨hinfer.1.imp_right fun hgrown => ?_, hinfer.2⟩
            obtain ⟨output, hreads, hgrown⟩ := hgrown
            exact ⟨output, hreads, not_not.mp hmode, not_not.mp htext, hgrown⟩
          split
          · next h => exact hparts _ (by rw [h]) (by rw [h])
          · next h =>
              split
              · exact hparts _ (by rw [h]) (by rw [h])
              · exact hparts _ (by rw [h]) (by rw [h])

/-- **What an observation sends**: nothing, or what is read from the body of its reply. -/
theorem observation_sent (n : Episode) (msg : LiveTransport.Observation) (video : Video)
    (call : HttpCall) (elapsedMs : ℚ) :
    let r := n.observation fits levels norm describe msg video call elapsedMs
    (r.1.sent = n.sent ∨ ∃ output, Reads fits levels msg.frameId call output ∧
        asks n msg video = true ∧ r.1.sent = n.sent ++ [output]) ∧
      r.1.instruction = n.instruction := by
  have hhandle : ∀ n' : Episode, n'.sent = n.sent → n'.instruction = n.instruction →
      (n.startedAt.isSome && videoRaises video) = false →
      let r := n'.handle fits levels norm describe msg call elapsedMs
      (r.1.sent = n.sent ∨ ∃ output, Reads fits levels msg.frameId call output ∧
          asks n msg video = true ∧ r.1.sent = n.sent ++ [output]) ∧
        r.1.instruction = n.instruction := by
    intro n' hsent hinstruction hvideo
    have h := handle_sent norm fits levels describe n' msg call elapsedMs
    dsimp only at h ⊢
    rw [hsent, hinstruction] at h
    refine ⟨h.1.imp_right fun hgrown => ?_, h.2⟩
    obtain ⟨output, hreads, hmode, htext, hgrown⟩ := hgrown
    refine ⟨output, hreads, ?_, hgrown⟩
    rw [asks, hvideo, hmode, htext]
    simp
  dsimp only at hhandle ⊢
  unfold Episode.observation
  cases hstarted : n.startedAt with
  | none =>
      simp only [Option.isSome_none, Bool.false_eq_true, if_false]
      exact hhandle _ rfl rfl (by rw [hstarted]; rfl)
  | some started =>
      simp only [Option.isSome_some, if_true]
      cases video with
      | written => exact hhandle _ rfl rfl (by rw [hstarted]; rfl)
      | undecodable => exact hhandle _ rfl rfl (by rw [hstarted]; rfl)
      | raises e => exact ⟨Or.inl rfl, rfl⟩

end

/-! ## The bodies -/

section

variable {B Pil Out : Type} {rt : Runtime B Pil Out} {s : LiveServer B Pil}

/-- **A request is read back.** -/
theorem readRequest_requestOf (frameId : ℤ) (text : Text) (jpeg : List UInt8)
    (motion : Option (List PyDouble × List PyDouble)) :
    LiveServer.readRequest rt (requestOf frameId text jpeg motion) =
      (rt.opened jpeg).map fun current => (current, text) := by
  have hdata : subscript (requestOf frameId text jpeg motion) "jpeg_base64" =
      .ok (.str (PolicySession.b64encode jpeg)) := by
    cases motion <;> rfl
  have htext : subscript (requestOf frameId text jpeg motion) "text" = .ok (.str text) := by
    cases motion <;> rfl
  unfold LiveServer.readRequest
  rw [hdata]
  show ((b64decode (.str (PolicySession.b64encode jpeg))).mapError LiveServer.Exn.raised >>= _) = _
  rw [b64decode_b64encode]
  show (rt.opened jpeg >>= _) = _
  cases rt.opened jpeg with
  | error e => rfl
  | ok current =>
      show ((subscript _ "text").mapError LiveServer.Exn.raised >>= _) = _
      rw [htext]
      rfl

theorem frameId_requestOf (frameId : ℤ) (text : Text) (jpeg : List UInt8)
    (motion : Option (List PyDouble × List PyDouble)) :
    subscript (requestOf frameId text jpeg motion) "frame_id" = .ok (.int frameId) := by
  cases motion <;> rfl

theorem doubles_floatList (xs : List PyDouble) : Doubles (floatList xs) := by
  refine .list fun v hv => ?_
  obtain ⟨x, -, rfl⟩ := List.mem_map.mp hv
  exact x.2

theorem doubles_requestOf (frameId : ℤ) (text : Text) (jpeg : List UInt8)
    (motion : Option (List PyDouble × List PyDouble)) :
    Doubles (requestOf frameId text jpeg motion) := by
  refine .object fun f hf => ?_
  rcases List.mem_append.mp hf with hf | hf
  · simp only [List.mem_cons, List.not_mem_nil, or_false] at hf
    rcases hf with rfl | rfl | rfl
    · exact .int _
    · exact .str _
    · exact .str _
  · cases motion with
    | none => cases hf
    | some motion =>
        simp only [List.mem_cons, List.not_mem_nil, or_false] at hf
        rcases hf with rfl | rfl
        · exact doubles_floatList _
        · exact doubles_floatList _

/-- The tokens of a reply. -/
def tokensOf (c : Computation B Pil Out) : List Json :=
  c.arr.rows.map fun row => .list (row.map fun x => .float x.1)

/-- The embedding of a computation. -/
def outputOf (c : Computation B Pil Out) (version : Text) : LiveTransport.ActionEmbedding :=
  ⟨c.frameId, c.numTokens, c.embedDim, c.arr.values.map Subtype.val, c.ms.1, version⟩

variable {request : Json} {c : Computation B Pil Out} (wall : PyDouble) (version : Text)
  {fits : PyFloat ℚ → Bool}

/-- The shape of a reply. -/
theorem readTokens_reply (h : s.Computed rt request c) :
    ∃ tokens rows, LiveTransport.readTokens c.frameId (c.reply wall version) = .ok tokens ∧
      tokens.numTokens = c.numTokens ∧ tokens.embedDim = c.embedDim ∧
      tokens.items.mapM items = .ok rows ∧
      rows.flatten = c.arr.values.map fun x => .float x.1 := by
  obtain ⟨hlength, hflatten, hrow⟩ := NdArray.rows_spec h.shape
  obtain ⟨first, rest, hrows⟩ : ∃ first rest, c.arr.rows = first :: rest := by
    cases hrows : c.arr.rows with
    | nil =>
        rw [hrows, List.flatten_nil] at hflatten
        exact absurd hflatten.symm h.nonempty
    | cons first rest => exact ⟨first, rest, rfl⟩
  have hdim : first.length = c.embedDim := hrow first (by rw [hrows]; exact List.mem_cons_self)
  -- an array that is not empty has no empty rows
  have hpos : first ≠ [] := by
    rintro rfl
    refine h.nonempty (List.length_eq_zero_iff.mp ?_)
    rw [c.arr.size, h.shape, List.prod_pair, ← hdim]
    exact Nat.mul_zero _
  let row (r : List PyDouble) : List Json := r.map fun x => .float x.1
  have hrowFirst : row first ≠ [] := fun hnil => hpos (List.map_eq_nil_iff.mp hnil)
  have htokens : tokensOf c = .list (row first) :: rest.map fun r => .list (row r) := by
    rw [tokensOf, hrows, List.map_cons]
  have hlen : ∀ t ∈ tokensOf c, len t = .ok c.embedDim := by
    intro t ht
    obtain ⟨r, hr, rfl⟩ := List.mem_map.mp ht
    show Except.ok (r.map _).length = _
    rw [List.length_map, hrow r hr]
  have hitems : (tokensOf c).mapM items = .ok (c.arr.rows.map row) := by
    rw [tokensOf, List.mapM_map]
    exact Except.mapM_eq_ok fun r _ => rfl
  refine ⟨⟨tokensOf c, .list (row first), c.numTokens, c.embedDim⟩, c.arr.rows.map row, ?_, rfl,
    rfl, hitems, ?_⟩
  -- none of the checks of the callback fails, one after the other
  · unfold LiveTransport.readTokens
    have hid : subscript (c.reply wall version) "frame_id" = .ok (.int c.frameId) := rfl
    have hembedding : subscript (c.reply wall version) "embedding" = .ok (.list (tokensOf c)) := rfl
    refine Except.bind_eq_ok (Except.mapError_eq_ok.mpr hid) ?_
    rw [if_neg (by simp [LiveTransport.neInt])]
    refine Except.bind_eq_ok (Except.mapError_eq_ok.mpr hembedding) ?_
    rw [if_neg (by rw [htokens]; simp [Json.toBool])]
    refine Except.bind_eq_ok (a := .list (row first)) ?_ ?_
    · rw [htokens]
      rfl
    · rw [if_neg (by simp [Json.toBool, List.isEmpty_iff, hrowFirst])]
      refine Except.bind_eq_ok (a := tokensOf c) rfl ?_
      have hall : ∀ t ∈ Json.list (row first) :: tokensOf c, len t = .ok c.embedDim := by
        rw [List.forall_mem_cons]
        exact ⟨hlen _ (by rw [htokens]; exact List.mem_cons_self), hlen⟩
      have hragged := LiveTransport.anyRagged_of_len hall
      refine Except.bind_eq_ok (Except.mapError_eq_ok.mpr hragged) ?_
      rw [if_neg Bool.false_ne_true]
      refine Except.bind_eq_ok (a := c.numTokens) ?_ ?_
      · refine Except.mapError_eq_ok.mpr ?_
        show Except.ok (tokensOf c).length = _
        rw [tokensOf, List.length_map, hlength]
      · refine Except.bind_eq_ok (a := c.embedDim) ?_ rfl
        exact Except.mapError_eq_ok.mpr (hlen _ (by rw [htokens]; exact List.mem_cons_self))
  · rw [← List.map_flatten, hflatten]

theorem floats_values (values : List PyDouble) :
    (values.map fun x => Json.float x.1).mapM toFloat = .ok (values.map Subtype.val) := by
  rw [List.mapM_map]
  exact Except.mapM_eq_ok fun x _ => rfl

/-- **A reply is read back**: whatever is read is the computation. -/
theorem readReply_reply (h : s.Computed rt request c) {tokens : LiveTransport.Tokens}
    {output : LiveTransport.ActionEmbedding}
    (hread : LiveTransport.readReply fits c.frameId (c.reply wall version) = .ok (tokens, output)) :
    output = outputOf c version := by
  obtain ⟨tokens', rows, htokens, hnum, hdim, hitems, hrows⟩ :=
    readTokens_reply wall version h
  obtain ⟨tokens'', htokens', hread⟩ := Except.of_bind_ok hread
  obtain ⟨values, hvalues, hread⟩ := Except.of_bind_ok hread
  obtain ⟨ms, hms, hread⟩ := Except.of_bind_ok hread
  obtain ⟨version', hversion, hread⟩ := Except.of_bind_ok hread
  cases hread
  rw [htokens] at htokens'
  cases htokens'
  have hfloats := ((LiveTransport.readValues_ok hitems).mp hvalues).1
  rw [hrows, floats_values] at hfloats
  obtain ⟨v, hv, hx, -⟩ := LiveTransport.readMs_ok.mp hms
  cases hv
  cases hx
  cases LiveTransport.readVersion_ok.mp hversion
  cases hfloats
  rw [hnum, hdim]
  rfl

/-- Numbers that the message takes are read. -/
theorem readReply_of_fits (h : s.Computed rt request c)
    (hvalues : ∀ x ∈ c.arr.values, fits x.1 = true) (hms : fits c.ms.1 = true) :
    ∃ tokens, LiveTransport.readReply fits c.frameId (c.reply wall version) =
      .ok (tokens, outputOf c version) := by
  obtain ⟨tokens, rows, htokens, hnum, hdim, hitems, hrows⟩ :=
    readTokens_reply wall version h
  have hread : LiveTransport.readValues fits tokens = .ok (c.arr.values.map Subtype.val) := by
    refine (LiveTransport.readValues_ok hitems).mpr ⟨?_, List.forall_mem_map.mpr hvalues⟩
    rw [hrows, floats_values]
  refine ⟨tokens, Except.bind_eq_ok htokens (Except.bind_eq_ok hread ?_)⟩
  refine Except.bind_eq_ok (LiveTransport.readMs_ok.mpr ⟨_, rfl, rfl, hms⟩) ?_
  refine Except.bind_eq_ok (LiveTransport.readVersion_ok.mpr rfl) ?_
  rw [hnum, hdim]
  rfl

end

/-! ## One observation -/

section

variable {B Pil Out R Image : Type} {client : Client} {rt : Runtime B Pil Out}

/-- What is read from a call is what the server computed for the request. -/
theorem computed_of_reads {s : LiveServer B Pil} {x : Exchange} {frameId : ℤ} {text : Text}
    {jpeg : List UInt8} {output : LiveTransport.ActionEmbedding}
    (h : Reads client.fits client.levels frameId
      (call client rt s (requestOf frameId text jpeg x.motion) x).2 output) :
    ∃ c : Computation B Pil Out, s.Computed rt (requestOf frameId text jpeg x.motion) c ∧
      c.frameId = frameId ∧ c.text = text ∧ rt.opened jpeg = .ok c.current ∧
      output = outputOf c s.version := by
  obtain ⟨body, result, tokens, hcall, hload, hread⟩ := h
  unfold call at hcall
  split at hcall
  · cases hcall
  · next bytes hbytes =>
      split at hcall
      · cases hcall
      · cases hcall
      · dsimp only at hcall
        unfold callOf at hcall
        split at hcall
        · cases hcall
        · cases hcall
        · next sent hsent =>
            split at hcall
            · cases hcall
            · next text' hbody =>
                cases hcall
                obtain ⟨request, c, hrequest, hc, hdumps⟩ := LiveServer.computed_of_doPost hsent
                -- what the server loads is what the client dumped, and the other way round
                obtain rfl := HttpBody.eq_of_loadsBody rt.otherText hbytes
                  (doubles_requestOf frameId text jpeg x.motion) hrequest
                obtain rfl := HttpBody.eq_of_loads client.otherText hdumps
                  (LiveServer.doubles_reply c x.wall s.version) hbody hload
                obtain ⟨id, hid, hframe⟩ := hc.frameId
                rw [frameId_requestOf] at hid
                cases hid
                cases hframe
                have hcurrent := hc.read
                rw [readRequest_requestOf] at hcurrent
                cases hopened : rt.opened jpeg with
                | error e =>
                    rw [hopened] at hcurrent
                    cases hcurrent
                | ok current =>
                    rw [hopened] at hcurrent
                    obtain ⟨hcurrent, htext⟩ := Prod.mk.inj (Except.ok.inj hcurrent)
                    exact ⟨c, hc, rfl, htext.symm, by rw [hcurrent],
                      readReply_reply x.wall s.version hc hread⟩

theorem call_previous (s : LiveServer B Pil) (request : Json) (x : Exchange) :
    (call client rt s request x).1.previous =
      (takenCall client rt s request x).or s.previous := by
  unfold call takenCall
  split
  · rfl
  · split
    · rfl
    · exact s.doPost_previous rt _ _
    · exact s.doPost_previous rt _ _

/-- What comes in leaves the instruction, and goes out if it is read from the reply. -/
theorem observe_sent (client : Client) (rt : Runtime B Pil Out) (w : LiveLoop B Pil)
    (x : Exchange) (obs : Observation R Image (List UInt8)) :
    let w' := (observe client rt w x obs).1
    (w'.episode.sent = w.episode.sent ∨ ∃ output,
        Reads client.fits client.levels obs.frameId
          (call client rt w.server (requestFor x obs) x).2 output ∧
        obs.goal.mode = modeText ∧ obs.goal.text = w.episode.instruction ∧
        w'.episode.sent = w.episode.sent ++ [output]) ∧
      w'.episode.instruction = w.episode.instruction := by
  have h := observation_sent client.norm client.fits client.levels client.describe
    { w.episode with startedAt := x.startedAt } (messageOf obs) x.video
    (if asks { w.episode with startedAt := x.startedAt } (messageOf obs) x.video then
      call client rt w.server (requestFor x obs) x
    else (w.server, .fails .osError)).2 x.elapsedMs
  dsimp only at h ⊢
  refine ⟨h.1.imp_right fun hgrown => ?_, h.2⟩
  obtain ⟨output, hreads, hasks, hgrown⟩ := hgrown
  rw [if_pos hasks] at hreads
  simp only [asks, Bool.and_eq_true, beq_iff_eq] at hasks
  exact ⟨output, hreads, hasks.2.1, hasks.2.2, hgrown⟩

/-- The image that is kept is that of the last observation that the backend returned for. -/
theorem observe_previous (w : LiveLoop B Pil) (x : Exchange)
    (obs : Observation R Image (List UInt8)) :
    (observe client rt w x obs).1.server.previous =
      (taken client rt w x obs).or w.server.previous := by
  unfold observe taken
  dsimp only
  split
  · exact call_previous _ _ _
  · rfl

variable {instruction : String} {start : LiveServer B Pil}
  {older : List (Exchange × Observation R Image (List UInt8))}

theorem after_previous :
    ((liveServer client rt instruction start).after older).server.previous =
      lastTaken client rt instruction start older := by
  induction older with
  | nil => rfl
  | cons entry older ih =>
      obtain ⟨x, obs⟩ := entry
      rw [Server.after_cons, lastTaken, ← ih]
      exact observe_previous _ _ _

theorem after_instruction :
    ((liveServer client rt instruction start).after older).episode.instruction = instruction := by
  induction older with
  | nil => rfl
  | cons entry older ih =>
      obtain ⟨x, obs⟩ := entry
      rw [Server.after_cons]
      exact (observe_sent client rt _ x obs).2.trans ih

/-- What was computed for an embedding that goes out. -/
structure Outcome (rt : Runtime B Pil Out) (w : LiveLoop B Pil) (x : Exchange)
    (obs : Observation R Image (List UInt8)) (instruction : String)
    (c : Computation B Pil Out) : Prop where
  mode : obs.goal.mode = GoalSpec.MODE_TEXT
  text : obs.goal.text = instruction
  opened : rt.opened obs.jpeg = .ok c.current
  computed : w.server.Computed rt (requestFor x obs) c
  instruction : String.ofList c.text = instruction

/-- **An embedding that goes out** is what the server computed for its observation. -/
theorem serve_reply {w : LiveLoop B Pil} {x : Exchange} {obs : Observation R Image (List UInt8)}
    {reply : ActionEmbedding (List (PyFloat ℚ))}
    (h : ((liveServer client rt instruction start).serve w x obs).2 = some reply) :
    ∃ c, Outcome rt w x obs w.episode.instruction c ∧
      reply = ⟨obs.frameId, c.numTokens, c.embedDim, c.arr.values.map Subtype.val⟩ := by
  have h : ((observe client rt w x obs).1.episode.sent[w.episode.sent.length]?).map embeddingOf =
    some reply := h
  obtain ⟨hsent | ⟨output, hreads, hmode, htext, hsent⟩, -⟩ :=
    observe_sent client rt w x obs
  · rw [hsent, List.getElem?_eq_none le_rfl] at h
    cases h
  · rw [hsent, List.getElem?_concat_length] at h
    cases h
    obtain ⟨c, hc, hframe, hinstruction, hopened, rfl⟩ := computed_of_reads hreads
    refine ⟨c, ⟨hmode, htext, hopened, hc, ?_⟩, ?_⟩
    · rw [hinstruction, ← htext, String.ofList_toList]
    · rw [embeddingOf, outputOf, hframe, Int.toNat_natCast]

theorem serve_frameId (w : LiveLoop B Pil) (x : Exchange)
    (obs : Observation R Image (List UInt8)) (reply : ActionEmbedding (List (PyFloat ℚ)))
    (h : ((liveServer client rt instruction start).serve w x obs).2 = some reply) :
    reply.frameId = obs.frameId := by
  obtain ⟨c, -, rfl⟩ := serve_reply h
  rfl

end

/-! ## The accounting of an episode -/

section

variable {B Pil Out R Image : Type} {client : Client} {rt : Runtime B Pil Out}

/-- A request can be written: its ID has twenty digits, and its brackets are two deep. -/
theorem dumpsBody_requestOf (dtoa : Dtoa) {levels : ℕ} (hlevels : 2 ≤ levels) {frameId : ℕ}
    (hid : frameId < 2 ^ 64) (text : Text) (jpeg : List UInt8)
    (motion : Option (List PyDouble × List PyDouble)) :
    ∃ bytes, HttpBody.dumpsBody dtoa levels (requestOf frameId text jpeg motion) = .ok bytes := by
  obtain ⟨left, rfl⟩ := Nat.exists_eq_add_of_le' hlevels
  have hint : ∃ t, encodeInt frameId = .ok t := by
    have hdigits : (encodeNat frameId).length ≤ 20 :=
      (Nat.length_toDigits_le_iff (by decide) (by decide)).mpr
        (hid.trans (by norm_num))
    refine ⟨_, if_neg ?_⟩
    rw [Int.natAbs_natCast, not_lt]
    exact hdigits.trans (by decide)
  have hfloats (xs : List PyDouble) :
      ∃ t, encode dtoa none (left + 1) 1 (floatList xs) = .ok t := by
    refine exists_encode_list fun v hv => ?_
    obtain ⟨x, -, rfl⟩ := List.mem_map.mp hv
    exact ⟨_, encode.eq_5 ..⟩
  have hwritten : ∃ t, dumps dtoa none (left + 2) (requestOf frameId text jpeg motion) =
      .ok t := by
    refine exists_encode_object fun f hf => ?_
    rcases List.mem_append.mp hf with hf | hf
    · simp only [List.mem_cons, List.not_mem_nil, or_false] at hf
      rcases hf with rfl | rfl | rfl
      · rw [encode.eq_4]
        exact hint
      · exact ⟨_, encode.eq_6 ..⟩
      · exact ⟨_, encode.eq_6 ..⟩
    · cases motion with
      | none => cases hf
      | some motion =>
          simp only [List.mem_cons, List.not_mem_nil, or_false] at hf
          rcases hf with rfl | rfl
          · exact hfloats _
          · exact hfloats _
  obtain ⟨t, ht⟩ := hwritten
  exact ⟨Utf8.encode t, by rw [HttpBody.dumpsBody, ht]; rfl⟩

/-- What the setters of the message take: the numbers that a backend returns, in `float32`, and
the times that it reports. -/
structure Takes (client : Client) (rt : Runtime B Pil Out) : Prop where
  values : ∀ out arr, rt.asarray out = .ok arr →
    ∀ v ∈ arr.values, v.1.IsFinite → client.fits v.1 = true
  times : ∀ backend inputs out reported, (rt.infer backend inputs).2 = .ok (out, reported) →
    ∀ v x, subscript (.object (reported.map fun f => (f.1, f.2.1))) "inference_ms" = .ok v →
      toFloat v = .ok x → client.fits x = true

/-- **The replies of the server are sound**, if the network only fails with an `OSError`. -/
theorem soundReply_call (htakes : Takes client rt) (hlevels : rt.levels ≤ client.levels)
    (hlevels' : 2 ≤ client.levels) (s : LiveServer B Pil) {x : Exchange}
    {obs : Observation R Image (List UInt8)} (hid : obs.frameId < 2 ^ 64)
    (hfate : ∀ e, x.fate = .refused e ∨ x.fate = .lost e → e.Caught) (version : Option Text) :
    LiveTransport.SoundReply client.fits obs.frameId client.levels version
      (call client rt s (requestFor x obs) x).2 := by
  obtain ⟨bytes, hbytes⟩ := dumpsBody_requestOf client.dtoa hlevels' hid
    obs.goal.text.toList obs.jpeg x.motion
  have hrequest : HttpBody.dumpsBody client.dtoa client.levels (requestFor x obs) = .ok bytes :=
    hbytes
  unfold call
  rw [hrequest]
  dsimp only
  split
  · next e he => exact hfate e (Or.inl he)
  · next e he => exact hfate e (Or.inr he)
  · dsimp only
    unfold callOf
    split
    · trivial
    · trivial
    · next sent hsent =>
        obtain ⟨request, c, hload, hc, hdumps⟩ := LiveServer.computed_of_doPost hsent
        obtain rfl := HttpBody.eq_of_loadsBody rt.otherText hrequest
          (doubles_requestOf _ _ _ _) hload
        obtain ⟨id, hid, hframe⟩ := hc.frameId
        rw [requestFor, frameId_requestOf] at hid
        cases hid
        have hframe : (obs.frameId : ℤ) = c.frameId := Except.ok.inj hframe
        -- the body is read back as the reply, which the callback takes without an error
        have hdoubles := LiveServer.doubles_reply c x.wall s.version
        obtain ⟨text, htext, -, hloads⟩ :=
          HttpBody.loadsBody_dumpsBody client.otherText hdumps hdoubles client.levels
        rw [htext]
        obtain ⟨v, hv, hms⟩ := hc.ms
        obtain ⟨tokens, hread⟩ := readReply_of_fits x.wall s.version hc
          (fun v hv => htakes.values _ _ hc.asarray v hv (hc.finite v hv))
          (htakes.times _ _ _ _ hc.infer v _ hv hms)
        rw [← hframe] at hread
        refine (LiveTransport.soundReply_body (hloads hlevels)).mpr ⟨?_, fun _ _ _ => ⟨_, rfl⟩⟩
        rw [hread]
        exact Except.raisesOnly_ok _

end

/-! ### Runs -/

/-- What happens to the episode node and the server. -/
inductive Event (R Image B : Type)
  | observation (x : Exchange) (obs : Observation R Image (List UInt8))
  /-- `/reset`, of any client. -/
  | reset (backend : B) (version : Text)

section

variable {B Pil Out R Image : Type} (client : Client) (rt : Runtime B Pil Out)

/-- One event. -/
def step (w : LiveLoop B Pil) : Event R Image B → LiveLoop B Pil
  | .observation x obs => (observe client rt w x obs).1
  | .reset backend version => { w with server := .reset backend version }

/-- The episodes with an instruction, and any server. -/
def machine (instruction : String) : Machine (LiveLoop B Pil) (Event R Image B) where
  Init w := w.episode = .new instruction
  Guard _ _ := True
  next := step client rt

/-- The image goes to the video, the ID is that of a message, and the network fails with an
`OSError` only. -/
structure Fair (x : Exchange) (obs : Observation R Image (List UInt8)) : Prop where
  video : x.startedAt.isSome → x.video = .written
  frameId : obs.frameId < 2 ^ 64
  network : ∀ e, x.fate = .refused e ∨ x.fate = .lost e → e.Caught

/-- The condition on a step. -/
def FairStep (_ : LiveLoop B Pil) : Event R Image B → Prop
  | .observation x obs => Fair x obs
  | .reset _ _ => True

variable {client rt}

/-- **An observation is accounted for**: it is published with its record, or adds one error. -/
theorem atomic_observe (htakes : Takes client rt) (hlevels : rt.levels ≤ client.levels)
    (hlevels' : 2 ≤ client.levels) (w : LiveLoop B Pil) {x : Exchange}
    {obs : Observation R Image (List UInt8)} (hfair : Fair x obs) :
    LiveTransport.Atomic w.episode obs.frameId
      ((observe client rt w x obs).1.episode, (observe client rt w x obs).2) := by
  have hsound : LiveTransport.Sound client.fits client.levels
      { w.episode with startedAt := x.startedAt } (messageOf obs) x.video
      (if asks { w.episode with startedAt := x.startedAt } (messageOf obs) x.video then
        call client rt w.server (requestFor x obs) x
      else (w.server, .fails .osError)).2 := by
    refine ⟨hfair.video, fun hmode htext => ?_⟩
    have hasks : asks { w.episode with startedAt := x.startedAt } (messageOf obs) x.video =
        true := by
      have hvideo : (x.startedAt.isSome && videoRaises x.video) = false := by
        cases hstarted : x.startedAt.isSome with
        | false => rfl
        | true =>
            rw [hfair.video hstarted]
            rfl
      unfold asks
      rw [hvideo, hmode, htext]
      simp
    rw [if_pos hasks]
    exact soundReply_call htakes hlevels hlevels' w.server hfair.frameId hfair.network _
  exact (LiveTransport.atomic_iff_sound client.norm client.describe
    { w.episode with startedAt := x.startedAt } (messageOf obs) x.video _ x.elapsedMs).mpr hsound

/-- **The accounting of an episode with this server.**  In every run in which the images go to
the video and the network fails with an `OSError` only, whatever the backend and `/reset` do,
the counter of the embeddings, the records and the embeddings that were sent are as many as
one another, and the next observation is published with its record or adds one error. -/
theorem accounted_run (htakes : Takes client rt) (hlevels : rt.levels ≤ client.levels)
    (hlevels' : 2 ≤ client.levels) {instruction : String} {es : List (Event R Image B)}
    {w : LiveLoop B Pil} (h : ((machine client rt instruction).restrict FairStep).Run es w) :
    LiveTransport.Balanced w.episode ∧ ∀ x, ∀ obs : Observation R Image (List UInt8), Fair x obs →
      LiveTransport.Atomic w.episode obs.frameId
        ((observe client rt w x obs).1.episode, (observe client rt w x obs).2) := by
  have hbalanced : ((machine client rt instruction).restrict
      (FairStep : LiveLoop B Pil → Event R Image B → Prop)).Invariant
        (fun w => LiveTransport.Balanced w.episode) := by
    refine ⟨?_, ?_⟩
    · intro w hw
      have hnew : w.episode = .new instruction := hw
      rw [hnew]
      exact ⟨rfl, rfl⟩
    · rintro w e hw ⟨-, hfair⟩
      cases e with
      | observation x obs => exact hw.of_atomic (atomic_observe htakes hlevels hlevels' w hfair)
      | reset backend version => exact hw
  exact ⟨hbalanced.of_run h, fun x obs hfair => atomic_observe htakes hlevels hlevels' w hfair⟩

end

/-! ### Three observations -/

/-- Two and a half. -/
def twoNumbers : NdArray PyDouble where
  shape := [1, 2]
  values := [⟨.fin 2, .fin (by decide +kernel)⟩, ⟨.fin (1 / 2), .fin (by decide +kernel)⟩]
  size := rfl

/-- Libraries that take everything. -/
def anyClient : Client := ⟨fun _ => true, fun _ => .fin 0, fun _ => "", .exact, fun _ => none, 900⟩

/-- An image is the length of its JPEG, and the backend always returns the two numbers. -/
def numberRuntime : Runtime Unit ℕ Unit where
  opened jpeg := .ok jpeg.length
  setMotionState := none
  infer backend _ := (backend, .ok ((), [("inference_ms".toList, ⟨.float (.fin 0), .fin
    (isDouble_toDouble le_rfl toDouble_zero)⟩)]))
  asarray _ := .ok twoNumbers
  repr _ := []
  dtoa := .exact
  otherText _ := none
  levels := 900

/-- A call that is answered, before the episode starts. -/
def answeredAtOnce : Exchange :=
  ⟨none, .written, none, .answered, ⟨.fin 0, .fin (isDouble_toDouble le_rfl toDouble_zero)⟩, 0⟩

/-- An observation of the episode. -/
def doorObservation (frameId : ℕ) : Observation ℚ ℕ (List UInt8) :=
  ⟨frameId, 0, 0, [255, 216], EdgeNode.textGoal⟩

/-- A call that is answered, after the start of the episode. -/
def answeredLater : Exchange := { answeredAtOnce with startedAt := some 0 }

/-- The server is reset and one observation answered; once the episode has started the reply to
the next is lost, and the one after it is answered. -/
def threeObservations : List (Event ℚ ℕ Unit) :=
  [.reset () "b".toList, .observation answeredAtOnce (doorObservation 1),
    .observation { answeredLater with fate := .lost .osError } (doorObservation 2),
    .observation answeredLater (doorObservation 3)]

theorem accounted_run_threeObservations :
    ∃ w, (machine anyClient numberRuntime "go to the door").Run threeObservations w ∧
      w.episode.startedAt.isSome = true ∧ LiveTransport.Balanced w.episode ∧
      w.episode.published = 2 ∧ w.episode.errors.length = 1 := by
  have htakes : Takes anyClient numberRuntime :=
    ⟨fun _ _ _ _ _ _ => rfl, fun _ _ _ _ _ _ _ _ _ => rfl⟩
  have hfair : ((machine anyClient numberRuntime "go to the door").restrict FairStep).Run
      threeObservations _ :=
    Machine.run_of_enabled (s := ⟨.new "go to the door", ⟨(), "a".toList, none⟩⟩) rfl
      ⟨⟨trivial, trivial⟩, ⟨trivial, nofun, by decide, by rintro e (h | h) <;> cases h⟩,
        ⟨trivial, fun _ => rfl, by decide, by rintro e (h | h) <;> cases h; trivial⟩,
        ⟨trivial, fun _ => rfl, by decide, by rintro e (h | h) <;> cases h⟩, trivial⟩
  have hbalanced := (accounted_run htakes le_rfl (by decide) hfair).1
  rw [Machine.restrict_exec] at hfair hbalanced
  exact ⟨_, Machine.run_of_enabled rfl ⟨trivial, trivial, trivial, trivial, trivial⟩,
    by decide +kernel, hbalanced, by decide +kernel, by decide +kernel⟩

/-! ## The edge and the server -/

section

variable {R Image B Pil Out Settings : Type} [Field R] [LinearOrder R] [Trig R]
  {decode : Image → Option Image} {encode : Settings → Image → Option (List UInt8)} {blank : Image}
  {client : Client} {rt : Runtime B Pil Out} {instruction : String} {start : LiveServer B Pil}

/-- A text goal is sent as it is. -/
theorem eq_of_inRobotFrame {n : EdgeNode R Image (List (PyFloat ℚ))} {goal sent : GoalSpec R Image}
    (h : RemoteLoop.InRobotFrame blank n goal sent) (hmode : sent.mode = GoalSpec.MODE_TEXT) :
    sent = goal := by
  unfold RemoteLoop.InRobotFrame at h
  split at h
  · next hpose =>
      obtain ⟨odom, -, rfl⟩ := h
      exact absurd (hpose.1.symm.trans hmode) (by decide)
  · exact h

/-- **What the action tick is given in a live episode**, at any moment of any run of the edge
node, the episode node and the server: the numbers that the backend returned for one
observation, up to the sign of a zero, which was sent for the goal of the moment, the
instruction of the episode, and from one camera frame; the image before was that of the last
older observation that the backend returned for; and as the past image that very frame, unless
eight newer observations were sent. -/
theorem embedding_of_live_episode
    {w : RemoteLoop.World R Image (List (PyFloat ℚ)) (List UInt8) (LiveLoop B Pil) Exchange}
    (h : (RemoteLoop.machine decode encode blank
      (liveServer client rt instruction start)).Reachable w)
    {emb : CachedEmbedding (List (PyFloat ℚ)) Image} (hemb : w.edge.node.latestRaw = some emb) :
    ∃ s ∈ w.sent, ∃ image settings newer x older, ∃ c : Computation B Pil Out,
      w.link.served = newer ++ (x, s.obs) :: older ∧
      (∀ o ∈ older, (∃ s' ∈ w.sent, s'.obs = o.2) ∧ o.2.frameId < s.obs.frameId) ∧
      w.edge.node.observations.goal = some s.obs.goal ∧
      s.obs.goal.mode = GoalSpec.MODE_TEXT ∧ s.obs.goal.text = instruction ∧
      s.node.cameraFrames.image = some image ∧ encode settings image = some s.obs.jpeg ∧
      rt.opened s.obs.jpeg = .ok c.current ∧
      LiveServer.setMotion rt
        ((liveServer client rt instruction start).after older).server.backend
        (requestFor x s.obs) = (c.backend, none) ∧
      (rt.infer c.backend ⟨c.current,
        (lastTaken client rt instruction start older).getD c.current, instruction, none,
        none⟩).2 = .ok (c.out, c.reported) ∧
      rt.asarray c.out = .ok c.arr ∧ c.arr.shape = [emb.numTokens, emb.embedDim] ∧
      (∀ v ∈ c.arr.values, v.1.IsFinite) ∧
      ∀ cur, ∃ past, EdgeNode.predictArgs emb cur =
          ⟨some (c.arr.values.map Subtype.val), some (1, emb.numTokens, emb.embedDim), cur, past,
            "base_link"⟩ ∧
        (past = image ∨
          past = cur ∧ s.obs.frameId + 8 ≤ w.edge.node.observations.frameCounter) := by
  have hinv : RemoteLoop.Inv encode blank (liveServer client rt instruction start) w :=
    (RemoteLoop.inv_invariant serve_frameId decode).of_reachable h
  obtain ⟨s, goal, image, settings, hs, hgoal, hframe, himage, hjpeg, hpaired⟩ :=
    hinv.supported hemb
  obtain ⟨newer, x, older, reply, hserved, hreply, -, hcached⟩ := hs.reply
  obtain ⟨c, hc, rfl⟩ := serve_reply hreply
  rw [after_instruction] at hc
  -- a text is sent as it stands: only poses are taken to the frame of the robot
  have hsent : s.obs.goal = goal := eq_of_inRobotFrame hframe hc.mode
  have hembedding : emb.embedding = c.arr.values.map Subtype.val := by rw [hcached]; rfl
  have hrows : emb.numTokens = c.numTokens := by rw [hcached]; rfl
  have hdim : emb.embedDim = c.embedDim := by rw [hcached]; rfl
  have hinfer := hc.computed.infer
  rw [LiveServer.inputs, after_previous, hc.instruction] at hinfer
  refine ⟨s, hs.sent, image, settings, newer, x, older, c, hserved, hinv.older hserved,
    hsent ▸ hgoal, hc.mode, hc.text, himage, hjpeg, hc.opened, hc.computed.motion, hinfer,
    hc.computed.asarray, ?_, hc.computed.finite, ?_⟩
  · rw [hrows, hdim, hc.computed.shape]
  · intro cur
    refine ⟨_, by rw [EdgeNode.predictArgs, hembedding], ?_⟩
    rcases hpaired with hframe | ⟨hnone, hold⟩
    · rw [hframe]
      exact Or.inl rfl
    · rw [hnone]
      exact Or.inr ⟨rfl, hold⟩

end

/-! ### One observation -/

section

/-- The start of an episode. -/
def numberServer {R : Type} : Server (LiveLoop Unit ℕ) Exchange (Observation R ℕ (List UInt8))
    (ActionEmbedding (List (PyFloat ℚ))) :=
  liveServer anyClient numberRuntime "go to the door" ⟨(), "a".toList, none⟩

/-- The node comes up, sees one camera frame, gets the goal and sends; the server answers, and
nothing is lost. -/
def firstReply {R : Type} [Field R] : List (RemoteLoop.Event R ℕ Exchange Unit) :=
  [.activate, .image 7 0 0, .goal EdgeNode.textGoal, .sendTick .defaults () 0 0,
    .observationTravels .arrive, .serve answeredAtOnce, .embeddingTravels .arrive, .hear 0, .put]

/-- The node after its first configure, with a remote policy. -/
def configured {R : Type} [Field R] :
    RemoteLoop.World R ℕ (List (PyFloat ℚ)) (List UInt8) (LiveLoop Unit ℕ) Exchange :=
  ⟨⟨(EdgeNode.new.onConfigure .defaults (some ⟨false, none⟩) true).1, none⟩, .new numberServer, []⟩

end

theorem embedding_of_live_episode_firstReply :
    ∃ (w : RemoteLoop.World ℝ ℕ (List (PyFloat ℚ)) (List UInt8) (LiveLoop Unit ℕ) Exchange)
      (emb : CachedEmbedding (List (PyFloat ℚ)) ℕ)
      (s : RemoteLoop.Sent ℝ ℕ (List (PyFloat ℚ)) (List UInt8)) (image : ℕ),
      w.edge.node.latestRaw = some emb ∧ s ∈ w.sent ∧ s.node.cameraFrames.image = some image ∧
      ∀ cur, ∃ past, EdgeNode.predictArgs emb cur =
          ⟨some [.fin 2, .fin (1 / 2)], some (1, emb.numTokens, emb.embedDim), cur, past,
            "base_link"⟩ ∧
        (past = image ∨
          past = cur ∧ s.obs.frameId + 8 ≤ w.edge.node.observations.frameCounter) := by
  let loop := RemoteLoop.machine some (fun (_ : Unit) (_ : ℕ) => some [255, 216]) 0
    (numberServer (R := ℝ))
  have hinit : loop.Init configured :=
    ⟨rfl, rfl, rfl, .defaults, ⟨false, none⟩, true, rfl, Prod.ext rfl (by decide +kernel)⟩
  have hrun : loop.Run firstReply (loop.exec configured firstReply) :=
    Machine.run_of_enabled hinit
      ⟨trivial, trivial, show (_ : Bool) = true by decide +kernel,
        show (_ : Bool) = true by decide +kernel, trivial, trivial, trivial, trivial, trivial,
        trivial⟩
  have hemb : (loop.exec configured firstReply).edge.node.latestRaw =
      some ⟨1, 0, [.fin 2, .fin (1 / 2)], 1, 2, some 7⟩ := by
    decide +kernel
  obtain ⟨s, hs, image, -, -, -, -, c, -, -, -, -, -, himage, -, -, -, -, harr, -, -, hargs⟩ :=
    embedding_of_live_episode hrun.reachable hemb
  have hvalues : c.arr = twoNumbers := (Except.ok.inj harr).symm
  rw [hvalues] at hargs
  exact ⟨_, _, s, image, hemb, hs, himage, hargs⟩

end LiveLoop
