/-
# The policy session of an episode

`policy_server.py` of `isaac_r2r`: one sequential episode behind the HTTP server, and
`run_episode` of `episode.py`, which drives it through `HttpPolicy` or `R2RHttpPolicy`.

A request is a procedure whose effects are the assignments to the fields of the
session, in the order of the source; so a request that raises after some of them
would leave a session advanced by half.  `act_cases` and `reset_cases` say what a
request does: nothing, a call of the model and nothing else, or everything.

What the server accepted and what it asked of the model is kept in a log, newest
entry first.  The model, image decoding, the simulator and the network may do
anything, and a lost request or response is an exception of the client.
-/
import Rvln.History
import Rvln.Procedure
import Rvln.PyJson

/-! ## Data -/

/-- `PolicySession`, the fields that a request can change. -/
structure PolicySession (S : Type) where
  episodeId : Option Text
  nextFrame : ℕ
  instruction : Option Text
  tokens : Option (List ℤ)
  previousAction : Option ℕ
  state : Option S
  stopped : Bool

namespace PolicySession

/-- `ACTIONS`. -/
def ACTIONS : List String := ["stop", "forward", "left", "right"]

/-- `CMA_VOCAB_SIZE`. -/
def CMA_VOCAB_SIZE : ℤ := 2504

/-- The fields of a JSON object. -/
abbrev Payload : Type := List (Text × Json)

/-- `payload.get(key)`; a missing field and a `null` one are the same. -/
def get (payload : Payload) (key : String) : Json := (Json.field payload key.toList).getD .null

/-- The exceptions of a request; `E` are those of code outside the repository. -/
inductive SessionError (E : Type)
  | valueError (text : String)
  /-- The `ValueError` over what the model returned. -/
  | invalidActionId (actionId : Json)
  | typeError
  | outside (e : E)

/-- The arguments of `model.act`. -/
structure ModelCall (S Rgb Depth : Type) where
  rgb : Rgb
  depth : Depth
  tokens : List ℤ
  previousAction : Option ℕ
  state : Option S

/-- An accepted `act`: the request, the action and the state that the model returned. -/
structure AcceptedAct (S : Type) where
  payload : Payload
  actionId : ℕ
  nextState : S

/-- What the server accepts and asks of the model. -/
inductive LogEntry (S Rgb Depth : Type)
  | reset (episodeId : Text) (state : S)
  | call (call : ModelCall S Rgb Depth)
  | act (act : AcceptedAct S)

/-- The assignments to the session, and the entries of the log. -/
inductive SessionEffect (S Rgb Depth : Type)
  | episodeId (value : Text)
  | nextFrame (value : ℕ)
  | instruction (value : Option Text)
  | tokens (value : Option (List ℤ))
  | previousAction (value : Option ℕ)
  | state (value : S)
  | stopped (value : Bool)
  | log (entry : LogEntry S Rgb Depth)

/-- The session and its log. -/
structure Server (S Rgb Depth : Type) where
  session : PolicySession S
  log : List (LogEntry S Rgb Depth)

variable {S Rgb Depth E : Type}

/-- `PolicySession.__init__`. -/
def fresh : PolicySession S where
  episodeId := none
  nextFrame := 0
  instruction := none
  tokens := none
  previousAction := none
  state := none
  stopped := false

/-- One effect on the server. -/
def Server.apply (w : Server S Rgb Depth) : SessionEffect S Rgb Depth → Server S Rgb Depth
  | .episodeId v => { w with session := { w.session with episodeId := some v } }
  | .nextFrame v => { w with session := { w.session with nextFrame := v } }
  | .instruction v => { w with session := { w.session with instruction := v } }
  | .tokens v => { w with session := { w.session with tokens := v } }
  | .previousAction v => { w with session := { w.session with previousAction := v } }
  | .state v => { w with session := { w.session with state := some v } }
  | .stopped v => { w with session := { w.session with stopped := v } }
  | .log entry => { w with log := entry :: w.log }

/-- The server, effect by effect. -/
def memory (S Rgb Depth : Type) : Machine (Server S Rgb Depth) (SessionEffect S Rgb Depth) where
  Init w := w = ⟨fresh, []⟩
  Guard _ _ := True
  next := Server.apply

/-- The procedures of the server. -/
abbrev SessionM (E S Rgb Depth α : Type) := Procedure (memory S Rgb Depth) (SessionError E) α

open Procedure

/-! ## The checks of a request -/

/-- `if condition: raise ValueError(text)`. -/
def refuseIf (condition : Bool) (text : String) : Except (SessionError E) Unit :=
  if condition then .error (.valueError text) else .ok ()

/-- A nonempty string. -/
def nonemptyText (value : Json) (text : String) : Except (SessionError E) Text :=
  match value with
  | .str (c :: cs) => .ok (c :: cs)
  | _ => .error (.valueError text)

/-- `token == 0`. -/
def isZero : Json → Bool
  | .int n => n == 0
  | .bool b => !b
  | .float x => decide (x = .fin 0)
  | _ => false

/-- A token that can index the embedding table. -/
def tokenId : Json → Option ℤ
  | .int n => if 0 ≤ n ∧ n < CMA_VOCAB_SIZE then some n else none
  | _ => none

/-- `validate_instruction_tokens`: the tokens, as integers. -/
def validateInstructionTokens (tokens : List Json) : Except (SessionError E) (List ℤ) := do
  refuseIf (tokens.all isZero) "CMA instruction tokens are empty"
  match tokens.mapM tokenId with
  | some ids => pure ids
  | none => .error (.valueError
      "instruction tokens exceed CMA vocabulary; use the R2R_VLNCE_v1-3_preprocessed split")

/-- `payload.get("instruction_tokens")`, validated. -/
def tokensOf (value : Json) : Except (SessionError E) (List ℤ) :=
  match value with
  | .list tokens => validateInstructionTokens tokens
  | _ => .error (.valueError "action requires audited instruction_tokens")

/-- What `prepare_rgbd` uses of Pillow and numpy. -/
structure Vision (E Rgb Depth : Type) where
  Image : Type
  openImage : List UInt8 → Except E Image
  size : Image → ℕ × ℕ
  /-- `convert("RGB")`, `resize` and `np.asarray`. -/
  rgb : Image → Except E Rgb
  /-- Read, cleared of non-finite values, clipped and divided by the range. -/
  depth : List UInt8 → Depth

/-- A side of 256 pixels: its comparison, and whether `reshape` takes it. -/
def side256 : Json → Option Bool
  | .int n => if n = 256 then some true else none
  | .float x => if x = .fin 256 then some false else none
  | _ => none

/-- Exceptions of code outside the repository. -/
def outside {α : Type} (x : Except E α) : Except (SessionError E) α := x.mapError .outside

/-- `prepare_rgbd`. -/
def prepareRgbd (vision : Vision E Rgb Depth) (jpeg depthF32 : List UInt8) (width height : Json) :
    Except (SessionError E) (Rgb × Depth) := do
  match side256 width, side256 height with
  | some isInt, some isInt' =>
    refuseIf (depthF32.length ≠ 256 * 256 * 4)
      "CMA requires a 256x256 float32 depth observation"
    let image ← outside (vision.openImage jpeg)
    refuseIf (vision.size image ≠ (256, 256)) "CMA requires a 256x256 Isaac RGB observation"
    let rgb ← outside (vision.rgb image)
    if isInt && isInt' then pure (rgb, vision.depth depthF32) else .error .typeError
  | _, _ => .error (.valueError "CMA requires a 256x256 float32 depth observation")

/-- `base64.b64decode(payload[key], validate=True)`, with its `except`. -/
def imageBytes (payload : Payload) (key : String) : Except (SessionError E) (List UInt8) :=
  match Json.field payload key.toList with
  | none => .error (.valueError "invalid RGB-D payload")
  | some value => (Json.b64decode value).mapError fun _ => .valueError "invalid RGB-D payload"

/-- The payload is of the episode that the session was reset to. -/
def sameEpisode (s : PolicySession S) (value : Json) : Bool :=
  match value, s.episodeId with
  | .str id, some own => decide (id = own)
  | _, _ => false

/-- The frame is the next one. -/
def sameFrame (s : PolicySession S) (value : Json) : Bool :=
  match value with
  | .int n => decide (n = s.nextFrame) && !s.stopped
  | _ => false

/-- What `act` has read off the payload when it calls the model. -/
structure Frame (Rgb Depth : Type) where
  instruction : Text
  tokens : List ℤ
  rgb : Rgb
  depth : Depth

/-- `act` up to the call of the model. -/
def checkAct (vision : Vision E Rgb Depth) (s : PolicySession S) (payload : Payload) :
    Except (SessionError E) (Frame Rgb Depth) := do
  refuseIf (!s.sameEpisode (get payload "episode_id")) "action episode differs from active reset"
  refuseIf (!s.sameFrame (get payload "frame_id"))
    "action frame is stale, out of order, or after stop"
  let instruction ← nonemptyText (get payload "instruction") "action requires an instruction"
  let tokens ← tokensOf (get payload "instruction_tokens")
  refuseIf (decide (s.nextFrame ≠ 0) &&
      (decide (some instruction ≠ s.instruction) || decide (some tokens ≠ s.tokens)))
    "instruction changed within an episode"
  let jpeg ← imageBytes payload "jpeg_base64"
  let depth ← imageBytes payload "depth_f32_base64"
  let (rgb, normalizedDepth) ← prepareRgbd vision jpeg depth
    (get payload "depth_width") (get payload "depth_height")
  pure ⟨instruction, tokens, rgb, normalizedDepth⟩

/-- `type(action_id) is not int or not 0 <= action_id < len(ACTIONS)`. -/
def validActionId : Json → Except (SessionError E) ℕ
  | .int n =>
    if 0 ≤ n ∧ n < ACTIONS.length then .ok n.toNat else .error (.invalidActionId (.int n))
  | value => .error (.invalidActionId value)

/-! ## The requests -/

/-- What `reset` returns, next to the policy's id. -/
structure ResetReply where
  episodeId : Text

/-- What `act` returns. -/
structure ActReply where
  episodeId : Json
  frameId : Json
  action : String

/-- `PolicySession.reset`; `modelReset` is how `model.reset()` ends. -/
def reset (payload : Payload) (modelReset : Except E S) : SessionM E S Rgb Depth ResetReply := do
  let episodeId ← lift (nonemptyText (get payload "episode_id")
    "reset requires a nonempty episode_id")
  let state ← lift (outside modelReset)
  emit (.episodeId episodeId)
  emit (.nextFrame 0)
  emit (.instruction none)
  emit (.tokens none)
  emit (.previousAction none)
  emit (.state state)
  emit (.stopped false)
  emit (.log (.reset episodeId state))
  pure ⟨episodeId⟩

/-- `PolicySession.act`; `modelAct` is how `model.act` ends on its arguments. -/
def act (vision : Vision E Rgb Depth) (payload : Payload)
    (modelAct : ModelCall S Rgb Depth → Except E (Json × S)) :
    SessionM E S Rgb Depth ActReply := do
  let s ← look Server.session
  let frame ← lift (checkAct vision s payload)
  let call : ModelCall S Rgb Depth :=
    ⟨frame.rgb, frame.depth, frame.tokens, s.previousAction, s.state⟩
  emit (.log (.call call))
  let (actionId, nextState) ← lift (outside (modelAct call))
  let actionId ← lift (validActionId actionId)
  emit (.instruction (some frame.instruction))
  emit (.tokens (some frame.tokens))
  emit (.previousAction (some actionId))
  emit (.state nextState)
  emit (.nextFrame (s.nextFrame + 1))
  emit (.stopped (actionId == 0))
  emit (.log (.act ⟨payload, actionId, nextState⟩))
  pure ⟨get payload "episode_id", get payload "frame_id", (ACTIONS[actionId]?).getD ""⟩

/-- A request as the handler gets it, with how the calls of the model end. -/
inductive SessionRequest (E S Rgb Depth : Type)
  | reset (body : Json) (modelReset : Except E S)
  | act (body : Json) (modelAct : ModelCall S Rgb Depth → Except E (Json × S))
  /-- Another path, an unreadable body or one of a wrong size. -/
  | other

/-- `do_POST`: what the session does for a request, and whether it is accepted. -/
def serve (vision : Vision E Rgb Depth) : SessionRequest E S Rgb Depth → SessionM E S Rgb Depth Unit
  | .reset (.object payload) modelReset => do
    let _ ← reset payload modelReset
    pure ()
  | .act (.object payload) modelAct => do
    let _ ← act vision payload modelAct
    pure ()
  | _ => fail (.valueError "request must be a JSON object")

/-- The server under requests. -/
def policyServer (vision : Vision E Rgb Depth) :
    Machine (Server S Rgb Depth) (SessionRequest E S Rgb Depth) where
  Init w := w = ⟨fresh, []⟩
  Guard _ _ := True
  next w request := (memory S Rgb Depth).exec w (serve vision request w).1

/-! ## What the log says -/

/-- The episode of the last accepted reset. -/
def episode : List (LogEntry S Rgb Depth) → Option Text
  | [] => none
  | .reset episodeId _ :: _ => some episodeId
  | .call _ :: older => episode older
  | .act _ :: older => episode older

/-- The acts accepted since the last accepted reset, oldest first. -/
def acts : List (LogEntry S Rgb Depth) → List (AcceptedAct S)
  | [] => []
  | .reset _ _ :: _ => []
  | .call _ :: older => acts older
  | .act a :: older => acts older ++ [a]

/-- The action and the state that the next call of the model resumes from. -/
def resumed : List (LogEntry S Rgb Depth) → Option (Option ℕ × S)
  | [] => none
  | .reset _ state :: _ => some (none, state)
  | .call _ :: older => resumed older
  | .act a :: _ => some (some a.actionId, a.nextState)

/-- A call of the model resumes from where the accepted requests have left it. -/
def Resumes (entry : LogEntry S Rgb Depth) (older : List (LogEntry S Rgb Depth)) : Prop :=
  match entry with
  | .call c => ∃ state, c.state = some state ∧ resumed older = some (c.previousAction, state)
  | _ => True

/-- An accepted request is the one for frame `i` of the episode, with the
instruction and the tokens. -/
structure AcceptedAct.Carries (a : AcceptedAct S) (episodeId : Text) (i : ℕ) (instruction : Text)
    (tokens : List ℤ) : Prop where
  episodeId : get a.payload "episode_id" = .str episodeId
  frameId : get a.payload "frame_id" = .int i
  instruction : get a.payload "instruction" = .str instruction
  tokens : get a.payload "instruction_tokens" = .list (tokens.map .int)

/-! ## The checks -/

section

variable {value : Json} {text : String}

theorem refuseIf_ok {condition : Bool} {u : Unit}
    (h : (refuseIf condition text : Except (SessionError E) Unit) = .ok u) :
    condition = false := by
  unfold refuseIf at h
  split at h
  · cases h
  · rename_i hc
    exact Bool.eq_false_iff.mpr hc

theorem nonemptyText_ok {t : Text}
    (h : (nonemptyText value text : Except (SessionError E) Text) = .ok t) : value = .str t := by
  unfold nonemptyText at h
  split at h
  · cases h
    rfl
  · cases h

theorem tokenId_some {n : ℤ} (h : tokenId value = some n) : value = .int n := by
  unfold tokenId at h
  split at h
  · split at h
    · cases h
      rfl
    · cases h
  · cases h

/-- Tokens that pass are integers as they stand. -/
theorem tokens_of_mapM {values : List Json} {ids : List ℤ} (h : values.mapM tokenId = some ids) :
    values = ids.map .int := by
  induction values generalizing ids with
  | nil =>
      cases h
      rfl
  | cons v values ih =>
      rw [List.mapM_cons] at h
      obtain ⟨n, hn, h⟩ := Option.bind_eq_some_iff.mp h
      obtain ⟨rest, hrest, h⟩ := Option.bind_eq_some_iff.mp h
      cases h
      rw [tokenId_some hn, ih hrest]
      rfl

theorem tokensOf_ok {ids : List ℤ}
    (h : (tokensOf value : Except (SessionError E) (List ℤ)) = .ok ids) :
    value = .list (ids.map .int) := by
  unfold tokensOf at h
  split at h
  · obtain ⟨-, -, h⟩ := Except.of_bind_ok h
    split at h
    · rename_i hids
      cases h
      rw [tokens_of_mapM hids]
    · cases h
  · cases h

theorem sameEpisode_spec {s : PolicySession S} (h : s.sameEpisode value = true) :
    ∃ episodeId, s.episodeId = some episodeId ∧ value = .str episodeId := by
  unfold sameEpisode at h
  split at h
  · rename_i id own hown
    exact ⟨id, by rw [hown, of_decide_eq_true h], rfl⟩
  · cases h

theorem sameFrame_spec {s : PolicySession S} (h : s.sameFrame value = true) :
    value = .int s.nextFrame ∧ s.stopped = false := by
  unfold sameFrame at h
  split at h
  · rw [Bool.and_eq_true, Bool.not_eq_true'] at h
    exact ⟨congrArg Json.int (of_decide_eq_true h.1), h.2⟩
  · cases h

/-- What a request is like that reaches the model. -/
structure Admits (s : PolicySession S) (payload : Payload) (frame : Frame Rgb Depth) : Prop where
  episodeId : ∃ episodeId, s.episodeId = some episodeId ∧
    get payload "episode_id" = .str episodeId
  frameId : get payload "frame_id" = .int s.nextFrame
  stopped : s.stopped = false
  instruction : get payload "instruction" = .str frame.instruction
  tokens : get payload "instruction_tokens" = .list (frame.tokens.map .int)
  unchanged : s.nextFrame ≠ 0 →
    s.instruction = some frame.instruction ∧ s.tokens = some frame.tokens

theorem checkAct_ok {vision : Vision E Rgb Depth} {s : PolicySession S} {payload : Payload}
    {frame : Frame Rgb Depth} (h : checkAct vision s payload = .ok frame) :
    s.Admits payload frame := by
  unfold checkAct at h
  obtain ⟨_, hepisode, h⟩ := Except.of_bind_ok h
  obtain ⟨_, hframe, h⟩ := Except.of_bind_ok h
  obtain ⟨instruction, hinstruction, h⟩ := Except.of_bind_ok h
  obtain ⟨tokens, htokens, h⟩ := Except.of_bind_ok h
  obtain ⟨_, hsame, h⟩ := Except.of_bind_ok h
  obtain ⟨jpeg, -, h⟩ := Except.of_bind_ok h
  obtain ⟨depth, -, h⟩ := Except.of_bind_ok h
  obtain ⟨⟨rgb, normalizedDepth⟩, -, h⟩ := Except.of_bind_ok h
  cases h
  obtain ⟨hframe, hstop⟩ := sameFrame_spec (by simpa using refuseIf_ok hframe)
  refine ⟨sameEpisode_spec (by simpa using refuseIf_ok hepisode), hframe, hstop,
    nonemptyText_ok hinstruction, tokensOf_ok htokens, ?_⟩
  intro hne
  have hchanged := refuseIf_ok hsame
  simp only [decide_eq_true hne, Bool.true_and, Bool.or_eq_false_iff, decide_eq_false_iff_not,
    not_not] at hchanged
  exact ⟨hchanged.1.symm, hchanged.2.symm⟩

theorem validActionId_ok {n : ℕ} (h : (validActionId value : Except (SessionError E) ℕ) = .ok n) :
    value = .int n := by
  unfold validActionId at h
  split at h
  · split at h
    · rename_i hrange
      cases h
      exact congrArg Json.int (Int.toNat_of_nonneg hrange.1).symm
    · cases h
  · cases h

end

/-! ## What a request does -/

section

variable {vision : Vision E Rgb Depth} {w : Server S Rgb Depth} {payload : Payload}

/-- What `reset` can do. -/
inductive Reset (payload : Payload) (modelReset : Except E S) :
    List (SessionEffect S Rgb Depth) × Except (SessionError E) ResetReply → Prop
  | refused (e : SessionError E) : Reset payload modelReset ([], .error e)
  | accepted (episodeId : Text) (state : S) : get payload "episode_id" = .str episodeId →
      modelReset = .ok state →
      Reset payload modelReset
        ([.episodeId episodeId, .nextFrame 0, .instruction none, .tokens none,
          .previousAction none, .state state, .stopped false,
          .log (.reset episodeId state)], .ok ⟨episodeId⟩)

theorem reset_cases (payload : Payload) (modelReset : Except E S) (w : Server S Rgb Depth) :
    Reset payload modelReset (reset payload modelReset w) := by
  unfold reset
  cases hid : nonemptyText (get payload "episode_id") "reset requires a nonempty episode_id"
      (E := E) with
  | error e =>
      rw [bind_of_error (show (lift _ w).2 = .error e from rfl)]
      exact .refused e
  | ok episodeId =>
      cases modelReset with
      | error e => exact .refused (.outside e)
      | ok state => exact .accepted episodeId state (nonemptyText_ok hid) rfl

/-- What `act` can do. -/
inductive Acted (w : Server S Rgb Depth) (payload : Payload)
    (modelAct : ModelCall S Rgb Depth → Except E (Json × S)) :
    List (SessionEffect S Rgb Depth) × Except (SessionError E) ActReply → Prop
  /-- The request does not reach the model. -/
  | refused (e : SessionError E) : Acted w payload modelAct ([], .error e)
  /-- The model raises or returns no action. -/
  | failed (frame : Frame Rgb Depth) (e : SessionError E) : w.session.Admits payload frame →
      Acted w payload modelAct
        ([.log (.call ⟨frame.rgb, frame.depth, frame.tokens, w.session.previousAction,
          w.session.state⟩)], .error e)
  | accepted (frame : Frame Rgb Depth) (actionId : ℕ) (nextState : S) :
      w.session.Admits payload frame →
      modelAct ⟨frame.rgb, frame.depth, frame.tokens, w.session.previousAction,
        w.session.state⟩ = .ok (.int actionId, nextState) →
      Acted w payload modelAct
        ([.log (.call ⟨frame.rgb, frame.depth, frame.tokens, w.session.previousAction,
            w.session.state⟩),
          .instruction (some frame.instruction), .tokens (some frame.tokens),
          .previousAction (some actionId), .state nextState,
          .nextFrame (w.session.nextFrame + 1), .stopped (actionId == 0),
          .log (.act ⟨payload, actionId, nextState⟩)],
          .ok ⟨get payload "episode_id", get payload "frame_id",
            (ACTIONS[actionId]?).getD ""⟩)

theorem act_cases (vision : Vision E Rgb Depth) (payload : Payload)
    (modelAct : ModelCall S Rgb Depth → Except E (Json × S)) (w : Server S Rgb Depth) :
    Acted w payload modelAct (act vision payload modelAct w) := by
  unfold act
  rw [look_bind]
  cases hcheck : checkAct vision w.session payload with
  | error e =>
      rw [lift_error_bind]
      exact .refused e
  | ok frame =>
      have hadmits := checkAct_ok hcheck
      rw [lift_ok_bind]
      dsimp only
      rw [emit_bind]
      cases hmodel : modelAct ⟨frame.rgb, frame.depth, frame.tokens, w.session.previousAction,
          w.session.state⟩ with
      | error e => exact .failed frame _ hadmits
      | ok answer =>
          obtain ⟨value, nextState⟩ := answer
          have houtside : (outside (.ok (value, nextState)) : Except (SessionError E) (Json × S)) =
              .ok (value, nextState) := rfl
          rw [houtside, lift_ok_bind]
          dsimp only
          cases hvalid : (validActionId value : Except (SessionError E) ℕ) with
          | error e => exact .failed frame e hadmits
          | ok actionId =>
              rw [validActionId_ok hvalid] at hmodel
              exact .accepted frame actionId nextState hadmits hmodel

/-- What the server is like after the effects of a request. -/
abbrev Server.after (w : Server S Rgb Depth) (effects : List (SessionEffect S Rgb Depth)) :
    Server S Rgb Depth :=
  (memory S Rgb Depth).exec w effects

/-- What the requests that are accepted have in common with the log. -/
def Accepts (w w' : Server S Rgb Depth) : SessionRequest E S Rgb Depth → Prop
  | .reset (.object payload) modelReset =>
    ∃ id state, get payload "episode_id" = .str id ∧ modelReset = .ok state ∧
      episode w'.log = some id ∧ acts w'.log = [] ∧ resumed w'.log = some (none, state)
  | .act (.object payload) modelAct =>
    ∃ (a : AcceptedAct S) (c : ModelCall S Rgb Depth), a.payload = payload ∧
      modelAct c = .ok (.int a.actionId, a.nextState) ∧ episode w'.log = episode w.log ∧
      acts w'.log = acts w.log ++ [a] ∧ resumed w'.log = some (some a.actionId, a.nextState)
  | _ => False

/-- What the requests that are rejected leave alone. -/
structure Rejects (w w' : Server S Rgb Depth) : Prop where
  session : w'.session = w.session
  episode : episode w'.log = episode w.log
  acts : acts w'.log = acts w.log
  resumed : resumed w'.log = resumed w.log

/-- A request is accepted, or it leaves everything alone but the calls of the model. -/
def Decides (w w' : Server S Rgb Depth) (request : SessionRequest E S Rgb Depth) {α : Type} :
    Except (SessionError E) α → Prop
  | .ok _ => Accepts w w' request
  | .error _ => Rejects w w'

/-- The handler passes on what the session decides. -/
theorem drop_reply {α : Type} (p : SessionM E S Rgb Depth α) (w : Server S Rgb Depth) :
    (p >>= fun _ => pure ()) w = ((p w).1, (p w).2.map fun _ => ()) := by
  cases hp : (p w).2 with
  | error e => rw [bind_of_error hp]; rfl
  | ok a => rw [bind_of_ok hp]; exact congrArg (·, _) (List.append_nil _)

theorem reset_decides (payload : Payload) (modelReset : Except E S) :
    Decides w (w.after (reset payload modelReset w).1)
      (.reset (.object payload) modelReset : SessionRequest E S Rgb Depth)
      (reset payload modelReset w).2 := by
  have hcases := reset_cases payload modelReset w
  generalize reset payload modelReset w = r at hcases ⊢
  cases hcases with
  | refused e => exact ⟨rfl, rfl, rfl, rfl⟩
  | accepted id state hid hstate => exact ⟨id, state, hid, hstate, rfl, rfl, rfl⟩

theorem act_decides (payload : Payload)
    (modelAct : ModelCall S Rgb Depth → Except E (Json × S)) :
    Decides w (w.after (act vision payload modelAct w).1) (.act (.object payload) modelAct)
      (act vision payload modelAct w).2 := by
  have hcases := act_cases vision payload modelAct w
  generalize act vision payload modelAct w = r at hcases ⊢
  cases hcases with
  | refused e => exact ⟨rfl, rfl, rfl, rfl⟩
  | failed frame e _ => exact ⟨rfl, rfl, rfl, rfl⟩
  | accepted frame actionId nextState _ hmodel =>
      exact ⟨⟨payload, actionId, nextState⟩, _, rfl, hmodel, rfl, rfl, rfl⟩

/-- A request of the handler, by its path and its body. -/
theorem serve_cases {motive : SessionRequest E S Rgb Depth →
      List (SessionEffect S Rgb Depth) × Except (SessionError E) Unit → Prop}
    (w : Server S Rgb Depth) (request : SessionRequest E S Rgb Depth)
    (hreset : ∀ payload modelReset, motive (.reset (.object payload) modelReset)
      ((reset payload modelReset w).1, (reset payload modelReset w).2.map fun _ => ()))
    (hact : ∀ payload modelAct, motive (.act (.object payload) modelAct)
      ((act vision payload modelAct w).1, (act vision payload modelAct w).2.map fun _ => ()))
    (hother : ∀ request e, motive request ([], .error e)) :
    motive request (serve vision request w) := by
  unfold serve
  split
  · rw [drop_reply]
    exact hreset _ _
  · rw [drop_reply]
    exact hact _ _
  · exact hother _ _

/-- **A request is accepted or leaves the session as it was.** -/
theorem serve_decides (w : Server S Rgb Depth) (request : SessionRequest E S Rgb Depth) :
    Decides w (w.after (serve vision request w).1) request (serve vision request w).2 := by
  -- a reply that is dropped decides nothing
  have hmap : ∀ {α : Type} {w' : Server S Rgb Depth} {request : SessionRequest E S Rgb Depth}
      {x : Except (SessionError E) α}, Decides w w' request x →
        Decides w w' request (x.map fun _ => ()) := by
    intro α w' request x h
    cases x <;> exact h
  refine serve_cases (motive := fun request r => Decides w (w.after r.1) request r.2) w request
    ?_ ?_ ?_
  · exact fun payload modelReset => hmap (reset_decides payload modelReset)
  · exact fun payload modelAct => hmap (act_decides payload modelAct)
  · exact fun _ _ => ⟨rfl, rfl, rfl, rfl⟩

/-! ## The session and its log -/

/-- The fields of the session are those that the log asks for. -/
structure Agrees (w : Server S Rgb Depth) : Prop where
  episodeId : w.session.episodeId = episode w.log
  nextFrame : w.session.nextFrame = (acts w.log).length
  resumes : resumed w.log = w.session.state.map fun state => (w.session.previousAction, state)
  state : w.session.episodeId.isSome = true → w.session.state.isSome = true
  carries : ∀ i (a : AcceptedAct S), (acts w.log)[i]? = some a → ∃ id instruction tokens,
    w.session.episodeId = some id ∧ w.session.instruction = some instruction ∧
      w.session.tokens = some tokens ∧ a.Carries id i instruction tokens
  stopped : ∀ i (a : AcceptedAct S), (acts w.log)[i]? = some a → a.actionId = 0 →
    i + 1 = (acts w.log).length ∧ w.session.stopped = true
  calls : History.Each Resumes w.log

/-- A call of the model alone changes nothing. -/
theorem Agrees.call (h : Agrees w) {c : ModelCall S Rgb Depth}
    (hc : Resumes (.call c) w.log) : Agrees (w.apply (.log (.call c))) where
  episodeId := h.episodeId
  nextFrame := h.nextFrame
  resumes := h.resumes
  state := h.state
  carries := h.carries
  stopped := h.stopped
  calls := ⟨hc, h.calls⟩

theorem Agrees.call_resumes (h : Agrees w) {frame : Frame Rgb Depth}
    (hadmits : w.session.Admits payload frame) :
    Resumes (.call ⟨frame.rgb, frame.depth, frame.tokens, w.session.previousAction,
      w.session.state⟩) w.log := by
  obtain ⟨episodeId, hepisode, -⟩ := hadmits.episodeId
  obtain ⟨state, hstate⟩ := Option.isSome_iff_exists.mp (h.state (by rw [hepisode]; rfl))
  refine ⟨state, hstate, ?_⟩
  rw [h.resumes, hstate]
  rfl

/-- The log and the session after an accepted reset. -/
theorem agrees_reset (h : Agrees w) (id : Text) (state : S) :
    Agrees (w.after [.episodeId id, .nextFrame 0, .instruction none, .tokens none,
      .previousAction none, .state state, .stopped false, .log (.reset id state)]) where
  episodeId := rfl
  nextFrame := rfl
  resumes := rfl
  state := fun _ => rfl
  carries := by
    intro i a ha
    cases ha
  stopped := by
    intro i a ha
    cases ha
  calls := ⟨trivial, h.calls⟩

/-- An entry is the newest one, or an older one. -/
theorem getElem?_snoc {α : Type*} {l : List α} {x a : α} {i : ℕ} (h : (l ++ [x])[i]? = some a) :
    l[i]? = some a ∨ i = l.length ∧ a = x := by
  rcases lt_trichotomy i l.length with hlt | rfl | hgt
  · rw [List.getElem?_append_left hlt] at h
    exact .inl h
  · rw [List.getElem?_concat_length] at h
    exact .inr ⟨rfl, (Option.some.inj h).symm⟩
  · rw [List.getElem?_eq_none (by rw [List.length_append, List.length_singleton]; omega)] at h
    cases h

/-- The log and the session after an accepted act. -/
theorem agrees_act (h : Agrees w) {frame : Frame Rgb Depth} {actionId : ℕ} {nextState : S}
    (hadmits : w.session.Admits payload frame) :
    Agrees (w.after [.log (.call ⟨frame.rgb, frame.depth, frame.tokens,
        w.session.previousAction, w.session.state⟩),
      .instruction (some frame.instruction), .tokens (some frame.tokens),
      .previousAction (some actionId), .state nextState,
      .nextFrame (w.session.nextFrame + 1), .stopped (actionId == 0),
      .log (.act ⟨payload, actionId, nextState⟩)]) := by
  obtain ⟨id, hid, hpayload⟩ := hadmits.episodeId
  have hlast : ∀ {i : ℕ} {a : AcceptedAct S},
      (acts w.log ++ [⟨payload, actionId, nextState⟩])[i]? = some a →
        (acts w.log)[i]? = some a ∨
          i = (acts w.log).length ∧ a = ⟨payload, actionId, nextState⟩ := getElem?_snoc
  exact {
    episodeId := h.episodeId
    nextFrame := by
      show w.session.nextFrame + 1 = (acts w.log ++ [_]).length
      rw [h.nextFrame, List.length_append]
      rfl
    resumes := rfl
    state := fun _ => rfl
    carries := by
      intro i a ha
      refine ⟨id, frame.instruction, frame.tokens, hid, rfl, rfl, ?_⟩
      rcases hlast ha with hold | ⟨rfl, rfl⟩
      · -- an older act of the episode has the instruction of the session
        obtain ⟨id', instruction, tokens, hid', hinstruction, htokens, hcarries⟩ :=
          h.carries i a hold
        have hne : w.session.nextFrame ≠ 0 := by
          have hlt := (List.getElem?_eq_some_iff.mp hold).1
          rw [h.nextFrame]
          omega
        obtain ⟨hinstruction', htokens'⟩ := hadmits.unchanged hne
        rw [hid] at hid'
        rw [hinstruction] at hinstruction'
        rw [htokens] at htokens'
        cases hid'
        cases hinstruction'
        cases htokens'
        exact hcarries
      · rw [← h.nextFrame]
        exact ⟨hpayload, hadmits.frameId, hadmits.instruction, hadmits.tokens⟩
    stopped := by
      intro i a ha hzero
      rcases hlast ha with hold | ⟨rfl, rfl⟩
      · -- the session would have been stopped
        have hstop := (h.stopped i a hold hzero).2
        rw [hadmits.stopped] at hstop
        cases hstop
      · refine ⟨?_, ?_⟩
        · show _ = (acts w.log ++ [_]).length
          rw [List.length_append]
          rfl
        · show (actionId == 0) = true
          rw [show actionId = 0 from hzero]
          rfl
    calls := ⟨trivial, h.call_resumes hadmits, h.calls⟩ }

theorem agrees_serve (h : Agrees w) (request : SessionRequest E S Rgb Depth) :
    Agrees (w.after (serve vision request w).1) := by
  refine serve_cases (motive := fun _ r => Agrees (w.after r.1)) w request ?_ ?_ ?_
  · intro payload modelReset
    have hcases := reset_cases payload modelReset w
    generalize reset payload modelReset w = r at hcases ⊢
    cases hcases with
    | refused e => exact h
    | accepted episodeId state _ _ => exact agrees_reset h episodeId state
  · intro payload modelAct
    have hcases := act_cases vision payload modelAct w
    generalize act vision payload modelAct w = r at hcases ⊢
    cases hcases with
    | refused e => exact h
    | failed frame e hadmits => exact h.call (h.call_resumes hadmits)
    | accepted frame actionId nextState hadmits _ => exact agrees_act h hadmits
  · exact fun _ _ => h

/-- The accepted acts are of one episode, with one instruction. -/
theorem Agrees.one_episode (h : Agrees w) :
    ∃ id instruction tokens, ∀ i (a : AcceptedAct S), (acts w.log)[i]? = some a →
      episode w.log = some id ∧ a.Carries id i instruction tokens ∧
        (a.actionId = 0 → i + 1 = (acts w.log).length) := by
  cases hacts : acts w.log with
  | nil => exact ⟨[], [], [], fun i a ha => by cases ha⟩
  | cons b bs =>
      obtain ⟨id, instruction, tokens, hid, hinstruction, htokens, -⟩ :=
        h.carries 0 b (by rw [hacts]; rfl)
      refine ⟨id, instruction, tokens, ?_⟩
      intro i a ha
      rw [← hacts] at ha ⊢
      obtain ⟨id', instruction', tokens', hid', hinstruction', htokens', hcarries⟩ :=
        h.carries i a ha
      rw [hid] at hid'
      rw [hinstruction] at hinstruction'
      rw [htokens] at htokens'
      cases hid'
      cases hinstruction'
      cases htokens'
      exact ⟨h.episodeId ▸ hid, hcarries, fun hzero => (h.stopped i a ha hzero).1⟩

/-- **The session and its log agree** after any requests. -/
theorem agrees_invariant (vision : Vision E Rgb Depth) :
    (policyServer (S := S) vision).Invariant Agrees where
  init := by
    rintro w rfl
    exact {
      episodeId := rfl
      nextFrame := rfl
      resumes := rfl
      state := fun h => h
      carries := by
        intro i a ha
        cases ha
      stopped := by
        intro i a ha
        cases ha
      calls := trivial }
  step := fun _ request h _ => agrees_serve h request

end

/-! ## `run_episode` -/

/-- `Observation`. -/
structure EpisodeObservation where
  jpeg : List UInt8
  depth : Option (List UInt8 × ℕ × ℕ)

/-- `EpisodeRequest`; its payload is for the simulator. -/
structure EpisodeRequest where
  episodeId : Text
  instruction : Text
  allowedActions : List String
  terminalAction : String

/-- `EpisodeSimulator`, for one episode. -/
structure EpisodeSimulator (E Position : Type) where
  reset : Except E Position
  observe : ℕ → Except E EpisodeObservation
  apply : ℕ → String → Except E Position

/-- `HttpPolicy`, and what `R2RHttpPolicy` adds to it. -/
structure HttpPolicy where
  instructionTokens : Option (List ℤ)
  policyId : Option Text

/-- One exchange over HTTP: the request may be lost, and the response. -/
structure Link (E : Type) where
  lost : Option E
  unread : Option E

/-- The other side of an episode. -/
structure Remote (E S Rgb Depth : Type) where
  policyId : Text
  resetLink : Link E
  modelReset : Except E S
  link : ℕ → Link E
  modelAct : ℕ → ModelCall S Rgb Depth → Except E (Json × S)

/-- What `run_episode` returns. -/
structure EpisodeRecord (Position : Type) where
  positions : List Position
  actions : List String
  stopped : Bool

section

variable {Position : Type}

/-- The character of six bits. -/
def base64Char (n : ℕ) : Char :=
  if n < 26 then Char.ofNat (65 + n)
  else if n < 52 then Char.ofNat (71 + n)
  else if n < 62 then Char.ofNat (n - 4)
  else if n = 62 then '+'
  else '/'

/-- `base64.b64encode`. -/
def b64encode : List UInt8 → Text
  | [] => []
  | [a] => [base64Char (a.toNat / 4), base64Char (a.toNat % 4 * 16), '=', '=']
  | [a, b] =>
    [base64Char (a.toNat / 4), base64Char (a.toNat % 4 * 16 + b.toNat / 16),
      base64Char (b.toNat % 16 * 4), '=']
  | a :: b :: c :: rest =>
    base64Char (a.toNat / 4) :: base64Char (a.toNat % 4 * 16 + b.toNat / 16) ::
      base64Char (b.toNat % 16 * 4 + c.toNat / 64) :: base64Char (c.toNat % 64) :: b64encode rest

/-- The exception of a link. -/
def broken : Option E → Except (SessionError E) Unit
  | none => .ok ()
  | some e => .error (.outside e)

/-- `_request`. -/
def exchange {α : Type} (link : Link E) (p : SessionM E S Rgb Depth α) :
    SessionM E S Rgb Depth α := do
  lift (broken link.lost)
  let a ← p
  lift (broken link.unread)
  pure a

/-- `HttpPolicy.reset` and `R2RHttpPolicy.reset`. -/
def HttpPolicy.reset (policy : HttpPolicy) (remote : Remote E S Rgb Depth) (episodeId : Text) :
    SessionM E S Rgb Depth Unit := do
  let response ← exchange remote.resetLink
    (PolicySession.reset [("episode_id".toList, .str episodeId)] remote.modelReset)
  lift (refuseIf (response.episodeId ≠ episodeId) "policy reset did not acknowledge episode ID")
  lift (refuseIf (policy.policyId.any fun id => remote.policyId ≠ id)
    "policy server identity differs from --policy-id")

/-- The fields of the image, and of the depth image if there is one. -/
def EpisodeObservation.fields (o : EpisodeObservation) : Payload :=
  ("jpeg_base64".toList, .str (b64encode o.jpeg)) ::
    match o.depth with
    | none => []
    | some (depth, width, height) =>
      [("depth_f32_base64".toList, .str (b64encode depth)), ("depth_width".toList, .int width),
        ("depth_height".toList, .int height)]

/-- The payload of `act`. -/
def HttpPolicy.payload (policy : HttpPolicy) (episodeId : Text) (frameId : ℕ) (instruction : Text)
    (observation : EpisodeObservation) : Payload :=
  [("episode_id".toList, .str episodeId), ("frame_id".toList, .int frameId),
    ("instruction".toList, .str instruction)] ++ observation.fields ++
    match policy.instructionTokens with
    | none => []
    | some tokens => [("instruction_tokens".toList, .list (tokens.map .int))]

/-- `response.get(key) == value`, for a string and for an integer. -/
def isText (response : Json) (value : Text) : Bool :=
  match response with
  | .str s => decide (s = value)
  | _ => false

@[inherit_doc isText] def isInt (response : Json) (value : ℤ) : Bool :=
  match response with
  | .int n => decide (n = value)
  | _ => false

/-- `HttpPolicy.act`. -/
def HttpPolicy.act (policy : HttpPolicy) (vision : Vision E Rgb Depth)
    (remote : Remote E S Rgb Depth) (episodeId : Text) (frameId : ℕ) (instruction : Text)
    (observation : EpisodeObservation) : SessionM E S Rgb Depth String := do
  let response ← exchange (remote.link frameId)
    (PolicySession.act vision (policy.payload episodeId frameId instruction observation)
      (remote.modelAct frameId))
  lift (refuseIf (!isText response.episodeId episodeId || !isInt response.frameId frameId)
    "stale policy action")
  lift (refuseIf (response.action = "") "invalid action")
  pure response.action

/-- The loop of `run_episode`, with the frames that are left. -/
def runFrames (policy : HttpPolicy) (vision : Vision E Rgb Depth) (remote : Remote E S Rgb Depth)
    (simulator : EpisodeSimulator E Position) (e : EpisodeRequest) :
    ℕ → ℕ → List Position → List String → SessionM E S Rgb Depth (EpisodeRecord Position)
  | 0, _, positions, actions => pure ⟨positions, actions, false⟩
  | left + 1, frameId, positions, actions => do
    let observation ← lift (outside (simulator.observe frameId))
    let action ← policy.act vision remote e.episodeId frameId e.instruction observation
    lift (refuseIf (decide (action ∉ e.allowedActions)) "invalid action")
    -- the terminal action is recorded, but moves nothing
    if action = e.terminalAction then pure ⟨positions, actions ++ [action], true⟩
    else do
      let position ← lift (outside (simulator.apply frameId action))
      runFrames policy vision remote simulator e left (frameId + 1) (positions ++ [position])
        (actions ++ [action])

/-- `run_episode`. -/
def runEpisode (policy : HttpPolicy) (vision : Vision E Rgb Depth)
    (remote : Remote E S Rgb Depth) (simulator : EpisodeSimulator E Position) (e : EpisodeRequest)
    (maxSteps : ℤ) : SessionM E S Rgb Depth (EpisodeRecord Position) := do
  lift (refuseIf (maxSteps < 1) "max_steps must be positive")
  lift (refuseIf (decide (e.terminalAction ∉ e.allowedActions)) "terminal action must be allowed")
  policy.reset remote e.episodeId
  let position ← lift (outside simulator.reset)
  runFrames policy vision remote simulator e maxSteps.toNat 0 [position] []

/-! ## What an episode records -/

/-- The name of the action that an accepted request was answered with. -/
def AcceptedAct.action (a : AcceptedAct S) : String := (ACTIONS[a.actionId]?).getD ""

/-- The server is in the episode and has accepted these actions in it. -/
def Played (episodeId : Text) (actions : List String) (w : Server S Rgb Depth) : Prop :=
  episode w.log = some episodeId ∧ (acts w.log).map AcceptedAct.action = actions

/-- No demand is made of single effects. -/
def Any (_ : Server S Rgb Depth) (_ : SessionEffect S Rgb Depth) : Prop := True

theorem enabled_any (w : Server S Rgb Depth) (effects : List (SessionEffect S Rgb Depth)) :
    ((memory S Rgb Depth).restrict Any).Enabled w effects := by
  induction effects generalizing w with
  | nil => trivial
  | cons x effects ih => exact ⟨⟨trivial, trivial⟩, ih _⟩

variable {vision : Vision E Rgb Depth} {remote : Remote E S Rgb Depth}

theorem reset_meets (payload : Payload) (modelReset : Except E S) :
    (reset payload modelReset : SessionM E S Rgb Depth ResetReply).Meets Any (fun _ => True)
      fun reply w => Played reply.episodeId [] w := by
  intro w _
  refine ⟨enabled_any w _, ?_⟩
  have hcases := reset_cases payload modelReset w
  generalize reset payload modelReset w = r at hcases ⊢
  intro reply hreply
  cases hcases with
  | refused e => cases hreply
  | accepted episodeId state _ _ =>
      cases hreply
      exact ⟨rfl, rfl⟩

theorem act_meets (payload : Payload) (modelAct : ModelCall S Rgb Depth → Except E (Json × S))
    (id : Text) (actions : List String) :
    (act vision payload modelAct).Meets Any (Played id actions)
      fun reply => Played id (actions ++ [reply.action]) := by
  intro w hw
  obtain ⟨hid, hactions⟩ := hw
  refine ⟨enabled_any w _, ?_⟩
  have hcases := act_cases vision payload modelAct w
  generalize act vision payload modelAct w = r at hcases ⊢
  intro reply hreply
  cases hcases with
  | refused e => cases hreply
  | failed frame e _ => cases hreply
  | accepted frame actionId nextState _ _ =>
      cases hreply
      refine ⟨hid, ?_⟩
      show (acts w.log ++ [_]).map AcceptedAct.action = _
      rw [List.map_append, hactions]
      rfl

theorem exchange_meets {α : Type} {link : Link E} {p : SessionM E S Rgb Depth α}
    {Pre : Server S Rgb Depth → Prop} {Post : α → Server S Rgb Depth → Prop}
    (h : p.Meets Any Pre Post) : (exchange link p).Meets Any Pre Post := by
  unfold exchange
  apply Meets.bind (Q := fun _ => Pre)
  · exact Meets.lift fun _ _ _ hw => hw
  · intro _
    apply Meets.bind h
    intro a
    apply Meets.bind (Q := fun _ => Post a)
    · exact Meets.lift fun _ _ _ hw => hw
    · exact fun _ => Meets.pure fun _ hw => hw

theorem httpReset_meets (policy : HttpPolicy) (episodeId : Text) :
    (policy.reset remote episodeId).Meets Any (fun _ => True) fun _ => Played episodeId [] := by
  unfold HttpPolicy.reset
  apply Meets.bind (exchange_meets (reset_meets _ _))
  intro response
  apply Meets.bind (Q := fun _ => Played episodeId [])
  · apply Meets.lift
    intro _ hsame w hw
    have hid : response.episodeId = episodeId := by
      simpa using refuseIf_ok hsame
    rwa [hid] at hw
  · exact fun _ => Meets.lift fun _ _ _ hw => hw

theorem httpAct_meets (policy : HttpPolicy) (episodeId : Text) (frameId : ℕ) (instruction : Text)
    (observation : EpisodeObservation) (actions : List String) :
    (policy.act vision remote episodeId frameId instruction observation).Meets Any
      (Played episodeId actions) fun action => Played episodeId (actions ++ [action]) := by
  unfold HttpPolicy.act
  apply Meets.bind (exchange_meets (act_meets _ _ episodeId actions))
  intro response
  apply Meets.bind (Q := fun _ => Played episodeId (actions ++ [response.action]))
  · exact Meets.lift fun _ _ _ hw => hw
  · intro _
    apply Meets.bind (Q := fun _ => Played episodeId (actions ++ [response.action]))
    · exact Meets.lift fun _ _ _ hw => hw
    · exact fun _ => Meets.pure fun _ hw => hw

variable {policy : HttpPolicy} {simulator : EpisodeSimulator E Position} {e : EpisodeRequest}

theorem runFrames_meets (left frameId : ℕ) (positions : List Position) (actions : List String) :
    (runFrames policy vision remote simulator e left frameId positions actions).Meets Any
      (Played e.episodeId actions) fun record => Played e.episodeId record.actions := by
  induction left generalizing frameId positions actions with
  | zero => exact Meets.pure fun _ hw => hw
  | succ left ih =>
      unfold runFrames
      apply Meets.bind (Q := fun _ => Played e.episodeId actions)
      · exact Meets.lift fun _ _ _ hw => hw
      · intro observation
        apply Meets.bind
          (httpAct_meets policy e.episodeId frameId e.instruction observation actions)
        intro action
        apply Meets.bind (Q := fun _ => Played e.episodeId (actions ++ [action]))
        · exact Meets.lift fun _ _ _ hw => hw
        · intro _
          apply Meets.ite
          · exact fun _ => Meets.pure fun _ hw => hw
          · intro _
            apply Meets.bind (Q := fun _ => Played e.episodeId (actions ++ [action]))
            · exact Meets.lift fun _ _ _ hw => hw
            · exact fun position => ih (frameId + 1) (positions ++ [position]) (actions ++ [action])

/-- An episode that returns has its actions from the server, from whatever state that was in. -/
theorem runEpisode_meets (maxSteps : ℤ) :
    (runEpisode policy vision remote simulator e maxSteps).Meets Any (fun _ => True)
      fun record => Played e.episodeId record.actions := by
  unfold runEpisode
  apply Meets.bind (Q := fun _ _ => True)
  · exact Meets.lift fun _ _ _ hw => hw
  · intro _
    apply Meets.bind (Q := fun _ _ => True)
    · exact Meets.lift fun _ _ _ hw => hw
    · intro _
      apply Meets.bind (httpReset_meets policy e.episodeId)
      intro _
      apply Meets.bind (Q := fun _ => Played e.episodeId [])
      · exact Meets.lift fun _ _ _ hw => hw
      · exact fun position => runFrames_meets maxSteps.toNat 0 [position] []

end

/-! ## The contract -/

section

variable (vision : Vision E Rgb Depth)

/-- **The contract of the policy session.**  A request that raises leaves every field of
the session as it was, and one that does not is the newest accepted request.  After any
requests, the acts accepted since the last accepted reset carry its episode, the frames from
zero on and one instruction with one list of tokens, and none comes after a stop; and every
call of the model got the action and the state of the act accepted before it, or none and
the state of the reset.  An episode that `run_episode` completes records the actions
accepted in it, in order. -/
theorem session_contract {Position : Type} :
    (∀ (w : Server S Rgb Depth) (request : SessionRequest E S Rgb Depth),
      Decides w (w.after (serve vision request w).1) request (serve vision request w).2) ∧
      (∀ (requests : List (SessionRequest E S Rgb Depth)) (w : Server S Rgb Depth),
        (policyServer vision).Run requests w →
          (∃ id instruction tokens, ∀ i (a : AcceptedAct S), (acts w.log)[i]? = some a →
            episode w.log = some id ∧ a.Carries id i instruction tokens ∧
              (a.actionId = 0 → i + 1 = (acts w.log).length)) ∧
            ∀ newer (c : ModelCall S Rgb Depth) older, w.log = newer ++ .call c :: older →
              ∃ state, c.state = some state ∧ resumed older = some (c.previousAction, state)) ∧
      ∀ (policy : HttpPolicy) (remote : Remote E S Rgb Depth)
        (simulator : EpisodeSimulator E Position) (e : EpisodeRequest) (maxSteps : ℤ)
        (w : Server S Rgb Depth) (record : EpisodeRecord Position),
        (runEpisode policy vision remote simulator e maxSteps w).2 = .ok record →
          let w' := w.after (runEpisode policy vision remote simulator e maxSteps w).1
          episode w'.log = some e.episodeId ∧
            record.actions = (acts w'.log).map AcceptedAct.action := by
  refine ⟨serve_decides, ?_, ?_⟩
  · intro requests w hrun
    have h := (agrees_invariant vision).of_run hrun
    exact ⟨h.one_episode, fun newer c older hlog =>
      History.each_iff.mp h.calls newer (.call c) older hlog⟩
  · intro policy remote simulator e maxSteps w record hrecord
    obtain ⟨hid, hactions⟩ := (runEpisode_meets maxSteps w trivial).2 record hrecord
    exact ⟨hid, hactions.symm⟩

end

end PolicySession
