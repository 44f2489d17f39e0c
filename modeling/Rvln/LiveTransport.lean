/-
# The inference transport of a live episode

`Episode._observation` of `live_transport.py` sends every observation to the inference
server, publishes the embedding of the reply and appends a record of the inference.  One
`except` clause at the end turns what goes wrong into an entry of `errors`; but the record
still reads the reply when the embedding is published already, and some exceptions are not
of the classes that are caught.

* `Atomic` : an observation publishes one embedding with its record and no error, or adds
  one error and nothing else, and no exception leaves the callback;
* `Sound` : what the observation, its image and its reply must be for that;
* `balanced_of_sound` : runs of sound steps keep the two counters and the sent embeddings
  in step, and a step is sound exactly if it is atomic.

What is sent to the server is left out.  The setters of the generated message assert the
types of their fields: `fits` says which numbers a `float32` field takes.
-/
import Rvln.Machine
import Rvln.NavidaReply

namespace LiveTransport

open Json NavidaText

/-! ## Exceptions -/

/-- The exceptions of this part. -/
inductive Exn
  /-- Refused, reset, timed out, or an error status. -/
  | osError
  /-- `http.client.HTTPException`. -/
  | httpException
  | raised (e : Raised)
  /-- A setter of the message. -/
  | assertionError
  /-- `ValueError` with a text of this file. -/
  | value (text : String)
  deriving DecidableEq

/-- `except (OSError, ValueError, KeyError, TypeError)`. -/
def Exn.Caught : Exn → Prop
  | .osError | .value _ => True
  | .httpException | .assertionError => False
  | .raised e => e = .valueError ∨ e = .keyError ∨ e = .typeError

instance : (e : Exn) → Decidable e.Caught
  | .osError | .value _ => inferInstanceAs (Decidable True)
  | .httpException | .assertionError => inferInstanceAs (Decidable False)
  | .raised _ => inferInstanceAs (Decidable (_ ∨ _ ∨ _))

/-! ## Data -/

/-- The parts of an `Observation` that the callback reads, its image apart. -/
structure Observation where
  frameId : ℤ
  mode : ℕ
  text : String

/-- `GoalSpec.MODE_TEXT`. -/
def modeText : ℕ := 1

/-- `ActionEmbedding`, without its stamp. -/
structure ActionEmbedding where
  frameId : ℤ
  numTokens : ℕ
  embedDim : ℕ
  embedding : List (PyFloat ℚ)
  inferenceMs : PyFloat ℚ
  modelVersion : Text

/-- The last entry of a record. -/
inductive Summary
  | firstWaypoint (token : Json)
  | featureL2 (norm : PyFloat ℚ)

/-- A record of `inferences`. -/
structure Inference where
  frameId : ℤ
  roundTripMs : ℚ
  serverWallMs : Json
  shape : ℕ × ℕ
  diagnostics : Json
  summary : Summary

/-- The part of `Episode` that the callback uses. -/
structure Episode where
  instruction : String
  startedAt : Option ℚ
  received : ℕ
  published : ℕ
  modelVersion : Option Text
  inferences : List Inference
  errors : List String
  videoFrames : ℕ
  /-- The messages that were published. -/
  sent : List ActionEmbedding

/-- What the image of an observation is worth for the video. -/
inductive Video
  | written
  | undecodable
  | raises (e : Exn)

/-- How the HTTP call ends: in an exception, or with the text of a body. -/
inductive HttpCall
  | fails (e : Exn)
  | body (text : Text)

/-! ## Reading a reply -/

/-- `value != n`. -/
def neInt (v : Json) (n : ℤ) : Bool :=
  match v with
  | .int m => m ≠ n
  | .bool b => (if b then 1 else 0) ≠ n
  | .float (.fin x) => x ≠ n
  | _ => true

/-- `any(len(t) != len(tokens[0]) for t in tokens)`. -/
def anyRagged (first : Json) : List Json → Except Raised Bool
  | [] => .ok false
  | t :: ts => do
      let n ← len t
      let dim ← len first
      if n ≠ dim then pure true else anyRagged first ts

/-- `[float(v) for token in tokens for v in token]`. -/
def floats : List Json → Except Raised (List (PyFloat ℚ))
  | [] => .ok []
  | token :: tokens => do
      let vs ← items token
      let xs ← vs.mapM toFloat
      let ys ← floats tokens
      pure (xs ++ ys)

/-- `value.get(key, default)`. -/
def get (v : Json) (key : String) (default : Json) : Except Raised Json :=
  match v with
  | .object fields => .ok ((field fields key.toList).getD default)
  | _ => .error (.py .attributeError)

/-- The tokens of an embedding. -/
structure Tokens where
  items : List Json
  first : Json
  numTokens : ℕ
  embedDim : ℕ

/-- The checks of the frame ID and of the shape. -/
def readTokens (frameId : ℤ) (result : Json) : Except Exn Tokens := do
  let id ← (subscript result "frame_id").mapError .raised
  if neInt id frameId then .error (.value "frame ID mismatch")
  else
    let tokens ← (subscript result "embedding").mapError .raised
    if !toBool tokens then .error (.value "invalid embedding shape")
    else
      let first ← (head tokens).mapError .raised
      if !toBool first then .error (.value "invalid embedding shape")
      else
        let ts ← (items tokens).mapError .raised
        let ragged ← (anyRagged first ts).mapError .raised
        if ragged then .error (.value "invalid embedding shape")
        else
          let numTokens ← (len tokens).mapError .raised
          let embedDim ← (len first).mapError .raised
          pure ⟨ts, first, numTokens, embedDim⟩

section

variable (fits : PyFloat ℚ → Bool)

/-- The assignment of the embedding. -/
def readValues (tokens : Tokens) : Except Exn (List (PyFloat ℚ)) := do
  let values ← (floats tokens.items).mapError .raised
  if values.all fits then pure values else .error .assertionError

/-- The assignment of `inference_ms`. -/
def readMs (result : Json) : Except Exn (PyFloat ℚ) := do
  let v ← (subscript result "inference_ms").mapError .raised
  let ms ← (toFloat v).mapError .raised
  if fits ms then pure ms else .error .assertionError

/-- The assignment of `model_version`. -/
def readVersion (result : Json) : Except Exn Text := do
  match ← (subscript result "model_version").mapError .raised with
  | .str version => pure version
  | _ => .error .assertionError

/-- The embedding of a reply. -/
def readReply (frameId : ℤ) (result : Json) : Except Exn (Tokens × ActionEmbedding) := do
  let tokens ← readTokens frameId result
  let values ← readValues fits tokens
  let ms ← readMs fits result
  let version ← readVersion result
  pure (tokens, ⟨frameId, tokens.numTokens, tokens.embedDim, values, ms, version⟩)

variable (levels : ℕ)

/-- `json.load` of the response, with the recursion levels that are left. -/
def load : HttpCall → Except Exn Json
  | .fails e => .error e
  | .body text => (loads levels text).mapError .raised

/-! ## The callback -/

variable (norm : List (PyFloat ℚ) → PyFloat ℚ) (describe : Exn → String)

/-- `str(exc)`; `describe` is that of an exception of the libraries. -/
def reasonOf : Exn → String
  | .value text => text
  | e => describe e

/-- The record of an inference; `norm` is that of numpy. -/
def record (output : ActionEmbedding) (tokens : Tokens) (result : Json) (elapsedMs : ℚ) :
    Except Exn Inference := do
  let serverWallMs ← (subscript result "server_wall_ms").mapError .raised
  let diagnostics ← (get result "diagnostics" (.object [])).mapError .raised
  pure {
    frameId := output.frameId
    roundTripMs := elapsedMs
    serverWallMs
    shape := (tokens.numTokens, tokens.embedDim)
    diagnostics
    summary :=
      if tokens.embedDim = 4 then .firstWaypoint tokens.first
      else .featureL2 (norm output.embedding) }

namespace Episode

/-- From the check of the model version on. -/
def publish (n : Episode) (result : Json) (tokens : Tokens) (output : ActionEmbedding)
    (elapsedMs : ℚ) : Episode × Option Exn :=
  if n.modelVersion.isSome && n.modelVersion ≠ some output.modelVersion then
    (n, some (.value "remote model version changed during episode"))
  else
    -- sent and counted first: the record can still raise
    let n := { n with
      modelVersion := some output.modelVersion
      sent := n.sent ++ [output]
      published := n.published + 1 }
    match record norm output tokens result elapsedMs with
    | .error e => (n, some e)
    | .ok record => ({ n with inferences := n.inferences ++ [record] }, none)

/-- The `try` block, and the exception that it ends with. -/
def infer (n : Episode) (msg : Observation) (call : HttpCall) (elapsedMs : ℚ) :
    Episode × Option Exn :=
  match load levels call with
  | .error e => (n, some e)
  | .ok result =>
      match readReply fits msg.frameId result with
      | .error e => (n, some e)
      | .ok (tokens, output) => n.publish norm result tokens output elapsedMs

/-- `_record_video`. -/
def recordVideo (n : Episode) : Video → Episode × Option Exn
  | .written => ({ n with videoFrames := n.videoFrames + 1 }, none)
  | .undecodable =>
      ({ n with errors := n.errors ++ ["cannot decode observation JPEG for video"] }, none)
  | .raises e => (n, some e)

/-- `_observation` behind the video. -/
def handle (n : Episode) (msg : Observation) (call : HttpCall) (elapsedMs : ℚ) :
    Episode × Option Exn :=
  if msg.mode ≠ modeText then
    ({ n with errors := n.errors ++ ["non-text observation"] }, none)
  else if msg.text ≠ n.instruction then
    ({ n with errors :=
        n.errors ++ ["observation instruction differs from published goal"] }, none)
  else
    match n.infer fits levels norm msg call elapsedMs with
    | (n, none) => (n, none)
    | (n, some e) =>
        if e.Caught then ({ n with errors := n.errors ++ [reasonOf describe e] }, none)
        else (n, some e)

/-- `_observation`, and the exception that leaves it. -/
def observation (n : Episode) (msg : Observation) (video : Video) (call : HttpCall)
    (elapsedMs : ℚ) : Episode × Option Exn :=
  let n := { n with received := n.received + 1 }
  match if n.startedAt.isSome then n.recordVideo video else (n, none) with
  | (n, some e) => (n, some e)
  | (n, none) => n.handle fits levels norm describe msg call elapsedMs

end Episode

end

/-! ## Replies -/

open NavidaReply (OverflowsAt)

/-- The reply is one to the frame, and has tokens of one length, which is not zero. -/
structure Shaped (frameId : ℤ) (result : Json) (rows : List (List Json)) : Prop where
  frame : ∃ id, subscript result "frame_id" = .ok id ∧ neInt id frameId = false
  tokens : ∃ embedding ts first, subscript result "embedding" = .ok embedding ∧
    toBool embedding = true ∧ head embedding = .ok first ∧ toBool first = true ∧
    items embedding = .ok ts ∧ ts.mapM items = .ok rows ∧ ∃ dim, ∀ t ∈ first :: ts, len t = .ok dim

variable (fits : PyFloat ℚ → Bool) (frameId : ℤ) (result : Json)

/-- Its entries are numbers that the message takes. -/
def Embeds : Prop :=
  ∃ rows values, Shaped frameId result rows ∧ rows.flatten.mapM toFloat = .ok values ∧
    ∀ x ∈ values, fits x = true

/-- So is its time. -/
def Timed : Prop :=
  Embeds fits frameId result ∧
    ∃ v x, subscript result "inference_ms" = .ok v ∧ toFloat v = .ok x ∧ fits x = true

/-- The reply has all that an embedding needs. -/
def Answers (version : Text) : Prop :=
  Timed fits frameId result ∧ subscript result "model_version" = .ok (.str version)

/-- The first thing that is wrong with a reply raises an exception that is not caught: an
integer beyond the doubles, a number that the message does not take, or a version that is no
string. -/
inductive Escapes : Prop
  | token {rows : List (List Json)} : Shaped frameId result rows → OverflowsAt rows.flatten →
      Escapes
  | range {rows : List (List Json)} {values : List (PyFloat ℚ)} : Shaped frameId result rows →
      rows.flatten.mapM toFloat = .ok values → (∃ x ∈ values, fits x = false) → Escapes
  | time {n : ℤ} : Embeds fits frameId result → subscript result "inference_ms" = .ok (.int n) →
      TooLarge n → Escapes
  | timeRange {v : Json} {x : PyFloat ℚ} : Embeds fits frameId result →
      subscript result "inference_ms" = .ok v → toFloat v = .ok x → fits x = false → Escapes
  | version {v : Json} : Timed fits frameId result → subscript result "model_version" = .ok v →
      (∀ version, v ≠ .str version) → Escapes

/-! ### What reading a reply raises -/

section

variable {frameId result}

/-- The two handlers catch the same. -/
theorem raised_caught {α : Type} {x : Except Raised α} :
    (x.mapError Exn.raised).RaisesOnly Exn.Caught ↔
      (x.mapError NavidaReply.Exn.raised).RaisesOnly NavidaReply.Exn.Caught := by
  rw [Except.raisesOnly_mapError, Except.raisesOnly_mapError]
  exact Iff.rfl

theorem subscript_caught (v : Json) (key : String) :
    ((subscript v key).mapError Exn.raised).RaisesOnly Exn.Caught :=
  raised_caught.mpr (NavidaReply.subscript_caught v key)

theorem len_caught (v : Json) : ((len v).mapError Exn.raised).RaisesOnly Exn.Caught :=
  raised_caught.mpr (NavidaReply.len_caught v)

theorem items_caught (v : Json) : ((items v).mapError Exn.raised).RaisesOnly Exn.Caught :=
  raised_caught.mpr (NavidaReply.items_caught v)

/-- A value that is true has a first item, or raises what is caught. -/
theorem head_caught {v : Json} (h : toBool v = true) :
    ((head v).mapError Exn.raised).RaisesOnly Exn.Caught := by
  rw [Except.raisesOnly_mapError]
  intro e he
  unfold head at he
  split at he
  · exact absurd h (by decide)
  · cases he
  · exact absurd h (by decide)
  · cases he
  · cases he
    exact .inr (.inl rfl)
  · cases he
    exact .inr (.inr rfl)

theorem anyRagged_caught (first : Json) (ts : List Json) :
    ((anyRagged first ts).mapError Exn.raised).RaisesOnly Exn.Caught := by
  induction ts with
  | nil => exact Except.raisesOnly_ok _
  | cons t ts ih =>
      rw [Except.raisesOnly_mapError] at ih ⊢
      have hlen : ∀ v : Json, (len v).RaisesOnly fun e => (Exn.raised e).Caught :=
        fun v => Except.raisesOnly_mapError.mp (len_caught v)
      rw [anyRagged, Except.raisesOnly_bind, and_iff_right (hlen t)]
      intro n _
      rw [Except.raisesOnly_bind, and_iff_right (hlen first)]
      intro dim _
      split
      · exact Except.raisesOnly_ok _
      · exact ih

/-- What the checks of the shape raise is caught. -/
theorem readTokens_caught (frameId : ℤ) (result : Json) :
    (readTokens frameId result).RaisesOnly Exn.Caught := by
  unfold readTokens
  rw [Except.raisesOnly_bind, and_iff_right (subscript_caught _ _)]
  intro id _
  split
  · exact Except.raisesOnly_error.mpr trivial
  rw [Except.raisesOnly_bind, and_iff_right (subscript_caught _ _)]
  intro tokens _
  split
  · exact Except.raisesOnly_error.mpr trivial
  rename_i htokens
  rw [Except.raisesOnly_bind, and_iff_right (head_caught (by simpa using htokens))]
  intro first _
  split
  · exact Except.raisesOnly_error.mpr trivial
  rw [Except.raisesOnly_bind, and_iff_right (items_caught _)]
  intro ts _
  rw [Except.raisesOnly_bind, and_iff_right (anyRagged_caught _ _)]
  intro ragged _
  split
  · exact Except.raisesOnly_error.mpr trivial
  rw [Except.raisesOnly_bind, and_iff_right (len_caught _)]
  intro numTokens _
  rw [Except.raisesOnly_bind, and_iff_right (len_caught _)]
  exact fun embedDim _ => Except.raisesOnly_ok _

/-- Tokens of one length are not ragged. -/
theorem anyRagged_of_len {first : Json} {ts : List Json} {dim : ℕ}
    (h : ∀ t ∈ first :: ts, len t = .ok dim) : anyRagged first ts = .ok false := by
  obtain ⟨hfirst, hts⟩ := List.forall_mem_cons.mp h
  induction ts with
  | nil => rfl
  | cons t ts ih =>
      obtain ⟨ht, hts⟩ := List.forall_mem_cons.mp hts
      have hrest := ih (List.forall_mem_cons.mpr ⟨hfirst, hts⟩) hts
      refine Except.bind_eq_ok ht (Except.bind_eq_ok hfirst ?_)
      rw [if_neg (not_not.mpr rfl)]
      exact hrest

theorem len_of_anyRagged {first : Json} {ts : List Json} (h : anyRagged first ts = .ok false) :
    ∀ t ∈ ts, len t = len first := by
  induction ts with
  | nil => exact nofun
  | cons t ts ih =>
      obtain ⟨n, hn, h⟩ := Except.of_bind_ok h
      obtain ⟨dim, hdim, h⟩ := Except.of_bind_ok h
      split at h
      · cases h
      · rename_i heq
        rw [List.forall_mem_cons, hn, hdim, not_not.mp heq]
        exact ⟨rfl, hdim ▸ ih h⟩

/-- A value that has a length can be iterated over. -/
theorem exists_items {v : Json} {n : ℕ} (h : len v = .ok n) : ∃ vs, items v = .ok vs := by
  cases v with
  | str s => exact ⟨_, rfl⟩
  | list vs => exact ⟨_, rfl⟩
  | object fields => exact ⟨_, rfl⟩
  | _ => cases h

theorem exists_len {v : Json} {vs : List Json} (h : items v = .ok vs) : ∃ n, len v = .ok n := by
  cases v with
  | str s => exact ⟨_, rfl⟩
  | list vs => exact ⟨_, rfl⟩
  | object fields => exact ⟨_, rfl⟩
  | _ => cases h

/-- **The checks of the shape** are passed by the replies that have it. -/
theorem shaped_of_readTokens {tokens : Tokens} (h : readTokens frameId result = .ok tokens) :
    ∃ rows, Shaped frameId result rows ∧ tokens.items.mapM items = .ok rows := by
  obtain ⟨id, hid, h⟩ := Except.of_bind_ok h
  split at h
  · cases h
  rename_i hframe
  obtain ⟨embedding, hembedding, h⟩ := Except.of_bind_ok h
  split at h
  · cases h
  rename_i htrue
  obtain ⟨first, hfirst, h⟩ := Except.of_bind_ok h
  split at h
  · cases h
  rename_i hfirstTrue
  obtain ⟨ts, hts, h⟩ := Except.of_bind_ok h
  obtain ⟨ragged, hragged, h⟩ := Except.of_bind_ok h
  split at h
  · cases h
  rename_i heven
  obtain ⟨numTokens, -, h⟩ := Except.of_bind_ok h
  obtain ⟨embedDim, hdim, h⟩ := Except.of_bind_ok h
  cases h
  rw [Except.mapError_eq_ok] at hid hembedding hfirst hts hragged hdim
  have hlen : ∀ t ∈ first :: ts, len t = .ok embedDim := by
    refine List.forall_mem_cons.mpr ⟨hdim, ?_⟩
    rw [← hdim]
    exact len_of_anyRagged (by rw [hragged, Bool.eq_false_iff.mpr heven])
  obtain ⟨rows, hrows⟩ := Except.exists_mapM_ok fun t ht =>
    exists_items (hlen t (List.mem_cons_of_mem first ht))
  refine ⟨rows, ⟨⟨id, hid, by simpa using hframe⟩, ?_⟩, hrows⟩
  exact ⟨embedding, ts, first, hembedding, by simpa using htrue, hfirst, by simpa using hfirstTrue,
    hts, hrows, embedDim, hlen⟩

theorem Shaped.readTokens {rows : List (List Json)} (h : Shaped frameId result rows) :
    ∃ tokens, readTokens frameId result = .ok tokens ∧ tokens.items.mapM items = .ok rows := by
  obtain ⟨id, hid, hframe⟩ := h.frame
  obtain ⟨embedding, ts, first, hembedding, htrue, hfirst, hfirstTrue, hts, hrows, dim, hlen⟩ :=
    h.tokens
  obtain ⟨n, hn⟩ := exists_len hts
  refine ⟨⟨ts, first, n, dim⟩, ?_, hrows⟩
  unfold LiveTransport.readTokens
  refine Except.bind_eq_ok (Except.mapError_eq_ok.mpr hid) ?_
  rw [if_neg (by simpa using hframe)]
  refine Except.bind_eq_ok (Except.mapError_eq_ok.mpr hembedding) ?_
  rw [if_neg (by simpa using htrue)]
  refine Except.bind_eq_ok (Except.mapError_eq_ok.mpr hfirst) ?_
  rw [if_neg (by simpa using hfirstTrue)]
  refine Except.bind_eq_ok (Except.mapError_eq_ok.mpr hts) ?_
  refine Except.bind_eq_ok (Except.mapError_eq_ok.mpr (anyRagged_of_len hlen)) ?_
  rw [if_neg Bool.false_ne_true]
  refine Except.bind_eq_ok (Except.mapError_eq_ok.mpr hn) ?_
  exact Except.bind_eq_ok (Except.mapError_eq_ok.mpr (hlen first List.mem_cons_self)) rfl

/-- The floats of the tokens are those of their entries. -/
theorem floats_eq {tokens : List Json} {rows : List (List Json)}
    (h : tokens.mapM items = .ok rows) : floats tokens = rows.flatten.mapM toFloat := by
  induction tokens generalizing rows with
  | nil =>
      cases h
      rfl
  | cons token tokens ih =>
      obtain ⟨vs, rows', hvs, hrows', rfl⟩ := Except.mapM_cons_eq_ok h
      rw [floats, hvs, ih hrows', List.flatten_cons, List.mapM_append]
      rfl

theorem floats_caught {row : List Json} :
    ((row.mapM toFloat).mapError Exn.raised).RaisesOnly Exn.Caught ↔ ¬ OverflowsAt row :=
  raised_caught.trans NavidaReply.floats_caught

/-- `float` raises what is caught, short of the integers that overflow. -/
theorem toFloat_caught {v : Json} :
    ((toFloat v).mapError Exn.raised).RaisesOnly Exn.Caught ↔
      ∀ n : ℤ, v = .int n → ¬ TooLarge (n : ℚ) := by
  rw [Except.raisesOnly_mapError]
  constructor
  · rintro h n rfl hlarge
    rcases h _ (NavidaReply.floatOfInt_of_tooLarge hlarge) with he | he | he <;> cases he
  · intro h e he
    rcases NavidaReply.toFloat_error he with hcaught | ⟨-, n, hn, hlarge⟩
    · exact hcaught
    · exact absurd hlarge (h n hn)

variable {fits : PyFloat ℚ → Bool} {tokens : Tokens} {rows : List (List Json)}

theorem readValues_ok (hrows : tokens.items.mapM items = .ok rows) {values : List (PyFloat ℚ)} :
    readValues fits tokens = .ok values ↔
      rows.flatten.mapM toFloat = .ok values ∧ ∀ x ∈ values, fits x = true := by
  unfold readValues
  rw [floats_eq hrows]
  constructor
  · intro h
    obtain ⟨values', hvalues, h⟩ := Except.of_bind_ok h
    split at h
    · rename_i hfits
      cases h
      exact ⟨Except.mapError_eq_ok.mp hvalues, List.all_eq_true.mp hfits⟩
    · cases h
  · rintro ⟨hvalues, hfits⟩
    refine Except.bind_eq_ok (Except.mapError_eq_ok.mpr hvalues) ?_
    rw [if_pos (List.all_eq_true.mpr hfits)]
    rfl

theorem readValues_caught (hrows : tokens.items.mapM items = .ok rows) :
    (readValues fits tokens).RaisesOnly Exn.Caught ↔ ¬ OverflowsAt rows.flatten ∧
      ∀ values, rows.flatten.mapM toFloat = .ok values → ∀ x ∈ values, fits x = true := by
  unfold readValues
  rw [floats_eq hrows, Except.raisesOnly_bind, floats_caught]
  refine and_congr_right fun _ => forall_congr' fun values => ?_
  rw [Except.mapError_eq_ok]
  refine forall_congr' fun _ => ?_
  split
  · rename_i hfits
    exact iff_of_true (Except.raisesOnly_ok _) (List.all_eq_true.mp hfits)
  · rename_i hfits
    exact iff_of_false (fun h => (h _ rfl : False)) fun h => hfits (List.all_eq_true.mpr h)

theorem readMs_ok {x : PyFloat ℚ} : readMs fits result = .ok x ↔
    ∃ v, subscript result "inference_ms" = .ok v ∧ toFloat v = .ok x ∧ fits x = true := by
  constructor
  · intro h
    obtain ⟨v, hv, h⟩ := Except.of_bind_ok h
    obtain ⟨x', hx, h⟩ := Except.of_bind_ok h
    split at h
    · rename_i hfits
      cases h
      exact ⟨v, Except.mapError_eq_ok.mp hv, Except.mapError_eq_ok.mp hx, hfits⟩
    · cases h
  · rintro ⟨v, hv, hx, hfits⟩
    refine Except.bind_eq_ok (Except.mapError_eq_ok.mpr hv) ?_
    refine Except.bind_eq_ok (Except.mapError_eq_ok.mpr hx) ?_
    rw [if_pos hfits]
    rfl

theorem readMs_caught : (readMs fits result).RaisesOnly Exn.Caught ↔
    ∀ v, subscript result "inference_ms" = .ok v →
      (∀ n : ℤ, v = .int n → ¬ TooLarge (n : ℚ)) ∧
        ∀ x, toFloat v = .ok x → fits x = true := by
  unfold readMs
  rw [Except.raisesOnly_bind, and_iff_right (subscript_caught _ _)]
  refine forall_congr' fun v => ?_
  rw [Except.mapError_eq_ok]
  refine forall_congr' fun _ => ?_
  rw [Except.raisesOnly_bind, toFloat_caught]
  refine and_congr_right fun _ => forall_congr' fun x => ?_
  rw [Except.mapError_eq_ok]
  refine forall_congr' fun _ => ?_
  split
  · rename_i hfits
    exact iff_of_true (Except.raisesOnly_ok _) hfits
  · rename_i hfits
    exact iff_of_false (fun h => (h _ rfl : False)) hfits

theorem readVersion_ok {version : Text} : readVersion result = .ok version ↔
    subscript result "model_version" = .ok (.str version) := by
  constructor
  · intro h
    obtain ⟨v, hv, h⟩ := Except.of_bind_ok h
    split at h
    · cases h
      exact Except.mapError_eq_ok.mp hv
    · cases h
  · exact fun h => Except.bind_eq_ok (Except.mapError_eq_ok.mpr h) rfl

theorem readVersion_caught : (readVersion result).RaisesOnly Exn.Caught ↔
    ∀ v, subscript result "model_version" = .ok v → ∃ version, v = .str version := by
  unfold readVersion
  rw [Except.raisesOnly_bind, and_iff_right (subscript_caught _ _)]
  refine forall_congr' fun v => ?_
  rw [Except.mapError_eq_ok]
  refine forall_congr' fun _ => ?_
  split
  · exact iff_of_true (Except.raisesOnly_ok _) ⟨_, rfl⟩
  · rename_i hother
    exact iff_of_false (fun h => (h _ rfl : False)) fun ⟨version, hv⟩ => hother version hv

/-- **The embedding of a reply** is built for the replies that have all it needs. -/
theorem answers_of_readReply {output : ActionEmbedding}
    (h : readReply fits frameId result = .ok (tokens, output)) :
    Answers fits frameId result output.modelVersion ∧ output.frameId = frameId := by
  obtain ⟨tokens', htokens, h⟩ := Except.of_bind_ok h
  obtain ⟨values, hvalues, h⟩ := Except.of_bind_ok h
  obtain ⟨ms, hms, h⟩ := Except.of_bind_ok h
  obtain ⟨version, hversion, h⟩ := Except.of_bind_ok h
  cases h
  obtain ⟨rows, hshaped, hrows⟩ := shaped_of_readTokens htokens
  obtain ⟨hfloats, hfits⟩ := (readValues_ok hrows).mp hvalues
  obtain ⟨v, hv, hx, hxfits⟩ := readMs_ok.mp hms
  exact ⟨⟨⟨⟨rows, values, hshaped, hfloats, hfits⟩, v, ms, hv, hx, hxfits⟩,
    readVersion_ok.mp hversion⟩, rfl⟩

theorem Answers.readReply {version : Text} (h : Answers fits frameId result version) :
    ∃ tokens output, readReply fits frameId result = .ok (tokens, output) ∧
      output.modelVersion = version := by
  obtain ⟨⟨⟨rows, values, hshaped, hfloats, hfits⟩, hms⟩, hversion⟩ := h
  obtain ⟨ms, hms⟩ : ∃ ms, readMs fits result = .ok ms := by
    obtain ⟨v, x, hv, hx, hxfits⟩ := hms
    exact ⟨x, readMs_ok.mpr ⟨v, hv, hx, hxfits⟩⟩
  obtain ⟨tokens, htokens, hrows⟩ := hshaped.readTokens
  refine ⟨tokens, ⟨frameId, tokens.numTokens, tokens.embedDim, values, ms, version⟩, ?_, rfl⟩
  refine Except.bind_eq_ok htokens ?_
  refine Except.bind_eq_ok ((readValues_ok hrows).mpr ⟨hfloats, hfits⟩) ?_
  exact Except.bind_eq_ok hms (Except.bind_eq_ok (readVersion_ok.mpr hversion) rfl)

/-- The reading of a reply raises what its parts raise, each behind the ones before. -/
theorem readReply_caught_parts : (readReply fits frameId result).RaisesOnly Exn.Caught ↔
    ∀ tokens, readTokens frameId result = .ok tokens →
      (readValues fits tokens).RaisesOnly Exn.Caught ∧
        ∀ values, readValues fits tokens = .ok values →
          (readMs fits result).RaisesOnly Exn.Caught ∧
            ∀ ms, readMs fits result = .ok ms → (readVersion result).RaisesOnly Exn.Caught := by
  unfold readReply
  rw [Except.raisesOnly_bind, and_iff_right (readTokens_caught frameId result)]
  refine forall_congr' fun tokens => forall_congr' fun _ => ?_
  rw [Except.raisesOnly_bind]
  refine and_congr_right fun _ => forall_congr' fun values => forall_congr' fun _ => ?_
  rw [Except.raisesOnly_bind]
  refine and_congr_right fun _ => forall_congr' fun ms => forall_congr' fun _ => ?_
  rw [Except.raisesOnly_bind]
  exact and_iff_left fun version _ => Except.raisesOnly_ok _

/-- A reply that escapes raises what is not caught: up to the first thing that is wrong, the
parts of the reading raise nothing. -/
theorem Escapes.not_caught (hescapes : Escapes fits frameId result) :
    ¬ (readReply fits frameId result).RaisesOnly Exn.Caught := by
  intro h
  rw [readReply_caught_parts] at h
  have hvaluesOf {rows} (hshaped : Shaped frameId result rows) :
      ¬ OverflowsAt rows.flatten ∧
        ∀ values, rows.flatten.mapM toFloat = .ok values → ∀ x ∈ values, fits x = true := by
    obtain ⟨tokens, htokens, hrows⟩ := hshaped.readTokens
    exact (readValues_caught hrows).mp (h tokens htokens).1
  have hmsOf (hembeds : Embeds fits frameId result) :
      (readMs fits result).RaisesOnly Exn.Caught ∧
        ∀ ms, readMs fits result = .ok ms → (readVersion result).RaisesOnly Exn.Caught := by
    obtain ⟨rows, values, hshaped, hfloats, hfits⟩ := hembeds
    obtain ⟨tokens, htokens, hrows⟩ := hshaped.readTokens
    exact (h tokens htokens).2 values ((readValues_ok hrows).mpr ⟨hfloats, hfits⟩)
  cases hescapes with
  | token hshaped hover => exact (hvaluesOf hshaped).1 hover
  | range hshaped hfloats hbad =>
      obtain ⟨x, hx, hbad⟩ := hbad
      rw [(hvaluesOf hshaped).2 _ hfloats x hx] at hbad
      cases hbad
  | time hembeds hv hlarge =>
      exact (readMs_caught.mp (hmsOf hembeds).1 _ hv).1 _ rfl hlarge
  | timeRange hembeds hv hx hbad =>
      rw [(readMs_caught.mp (hmsOf hembeds).1 _ hv).2 _ hx] at hbad
      cases hbad
  | version htimed hv hother =>
      obtain ⟨hembeds, v', x, hms⟩ := htimed
      obtain ⟨version, rfl⟩ :=
        readVersion_caught.mp ((hmsOf hembeds).2 x (readMs_ok.mpr ⟨v', hms⟩)) _ hv
      exact hother version rfl

/-- **What the reading of a reply raises is caught**, short of the replies that escape. -/
theorem readReply_caught : (readReply fits frameId result).RaisesOnly Exn.Caught ↔
    ¬ Escapes fits frameId result := by
  constructor
  · exact fun h hescapes => hescapes.not_caught h
  · intro h
    rw [readReply_caught_parts]
    intro tokens htokens
    obtain ⟨rows, hshaped, hrows⟩ := shaped_of_readTokens htokens
    rw [readValues_caught hrows]
    refine ⟨⟨fun hover => h (.token hshaped hover), fun values hfloats x hx => ?_⟩, ?_⟩
    · by_contra hbad
      exact h (.range hshaped hfloats ⟨x, hx, Bool.eq_false_iff.mpr hbad⟩)
    intro values hvalues
    obtain ⟨hfloats, hfits⟩ := (readValues_ok hrows).mp hvalues
    have hembeds : Embeds fits frameId result := ⟨rows, values, hshaped, hfloats, hfits⟩
    rw [readMs_caught]
    refine ⟨fun v hv => ⟨?_, fun x hx => ?_⟩, ?_⟩
    · rintro n rfl hlarge
      exact h (.time hembeds hv hlarge)
    · by_contra hbad
      exact h (.timeRange hembeds hv hx (Bool.eq_false_iff.mpr hbad))
    intro ms hms
    obtain ⟨v, hv, hx, hxfits⟩ := readMs_ok.mp hms
    rw [readVersion_caught]
    intro v' hv'
    by_contra hother
    exact h (.version ⟨hembeds, v, ms, hv, hx, hxfits⟩ hv'
      fun version heq => hother ⟨version, heq⟩)

/-- A reply that is read has one model version. -/
theorem version_eq_of_answers {version : Text} (h : Answers fits frameId result version)
    {output : ActionEmbedding} (hread : readReply fits frameId result = .ok (tokens, output)) :
    version = output.modelVersion := by
  obtain ⟨_, output', hok, rfl⟩ := h.readReply
  rw [hread] at hok
  cases hok
  rfl

end

/-! ## The property and the condition -/

/-- One embedding goes out with its record, and no error is added. -/
def Published (n : Episode) (frameId : ℤ) (n' : Episode) : Prop :=
  ∃ output record, n'.sent = n.sent ++ [output] ∧ n'.published = n.published + 1 ∧
    n'.inferences = n.inferences ++ [record] ∧ record.frameId = frameId ∧ n'.errors = n.errors

/-- One error is added, and nothing goes out. -/
def Failed (n n' : Episode) : Prop :=
  n'.sent = n.sent ∧ n'.published = n.published ∧ n'.inferences = n.inferences ∧
    ∃ text, n'.errors = n.errors ++ [text]

/-- **The accounting of an observation**, from what it leaves: it is published or it fails,
and no exception is left over. -/
def Atomic (n : Episode) (frameId : ℤ) (r : Episode × Option Exn) : Prop :=
  r.2 = none ∧ (Published n frameId r.1 ∨ Failed n r.1)

section

variable (levels : ℕ)

/-- No exception of the call or of the reply is left over; and a reply that is published has
the field `server_wall_ms`. -/
def SoundReply (version : Option Text) : HttpCall → Prop
  | .fails e => e.Caught
  | .body text => loads levels text ≠ .error .recursionError ∧
      ∀ result, loads levels text = .ok result → ¬ Escapes fits frameId result ∧
        ∀ version', Answers fits frameId result version' →
          (∀ old, version = some old → old = version') →
          ∃ wall, subscript result "server_wall_ms" = .ok wall

/-- The image goes to the video, if there is one yet; and the reply is sound, if the
observation is for this episode. -/
def Sound (n : Episode) (msg : Observation) (video : Video) (call : HttpCall) : Prop :=
  (n.startedAt.isSome → video = .written) ∧
    (msg.mode = modeText → msg.text = n.instruction →
      SoundReply fits msg.frameId levels n.modelVersion call)

/-! ## One observation -/

variable {fits frameId levels} (norm : List (PyFloat ℚ) → PyFloat ℚ) (describe : Exn → String)

/-- The record of a published embedding needs its field only. -/
theorem record_cases {tokens : Tokens} {output : ActionEmbedding} {result : Json}
    (h : readReply fits frameId result = .ok (tokens, output)) (elapsedMs : ℚ) :
    (∃ wall, subscript result "server_wall_ms" = .ok wall) ∧
        (∃ r, record norm output tokens result elapsedMs = .ok r ∧ r.frameId = frameId) ∨
      (¬ ∃ wall, subscript result "server_wall_ms" = .ok wall) ∧
        ∃ e, record norm output tokens result elapsedMs = .error e := by
  obtain ⟨⟨-, hversion⟩, hframe⟩ := answers_of_readReply h
  obtain ⟨fields, rfl⟩ : ∃ fields, result = .object fields := by
    cases result with
    | object fields => exact ⟨fields, rfl⟩
    | _ => cases hversion
  cases hwall : subscript (.object fields) "server_wall_ms" with
  | ok wall =>
      refine .inl ⟨⟨wall, rfl⟩, _, Except.bind_eq_ok (Except.mapError_eq_ok.mpr hwall) rfl, ?_⟩
      exact hframe
  | error e =>
      refine .inr ⟨nofun, .raised e, ?_⟩
      unfold record
      rw [hwall]
      rfl

/-- What a reply with an embedding comes to. -/
theorem publish_cases {tokens : Tokens} {output : ActionEmbedding} {result : Json}
    (h : readReply fits frameId result = .ok (tokens, output)) (n : Episode) (elapsedMs : ℚ) :
    let r := n.publish norm result tokens output elapsedMs
    (¬ ∀ old, n.modelVersion = some old → old = output.modelVersion) ∧
        (∃ e, r = (n, some e) ∧ e.Caught) ∨
      (∀ old, n.modelVersion = some old → old = output.modelVersion) ∧
        ((∃ wall, subscript result "server_wall_ms" = .ok wall) ∧
            r.2 = none ∧ Published n frameId r.1 ∨
          (¬ ∃ wall, subscript result "server_wall_ms" = .ok wall) ∧
            ∃ e, r.2 = some e ∧ r.1.published = n.published + 1 ∧
              r.1.inferences = n.inferences) := by
  have hconflict : (n.modelVersion.isSome && n.modelVersion ≠ some output.modelVersion) = false ↔
      ∀ old, n.modelVersion = some old → old = output.modelVersion := by
    cases n.modelVersion with
    | none => simp
    | some old => simp
  dsimp only
  unfold Episode.publish
  split
  · rename_i hchanged
    refine .inl ⟨fun hall => ?_, _, rfl, trivial⟩
    rw [hconflict.mpr hall] at hchanged
    cases hchanged
  · rename_i hsame
    refine .inr ⟨hconflict.mp (Bool.eq_false_iff.mpr hsame), ?_⟩
    rcases record_cases norm h elapsedMs with ⟨hwall, r, hr, hframe⟩ | ⟨hwall, e, he⟩
    · refine .inl ⟨hwall, ?_⟩
      rw [hr]
      exact ⟨rfl, output, r, rfl, rfl, rfl, hframe, rfl⟩
    · refine .inr ⟨hwall, e, ?_⟩
      rw [he]
      exact ⟨rfl, rfl, rfl⟩

section

variable (n : Episode) (msg : Observation) {call : HttpCall} (elapsedMs : ℚ) {result : Json}

theorem infer_of_load {e : Exn} (h : load levels call = .error e) :
    n.infer fits levels norm msg call elapsedMs = (n, some e) := by
  rw [Episode.infer, h]

theorem infer_of_error {e : Exn} (hload : load levels call = .ok result)
    (h : readReply fits msg.frameId result = .error e) :
    n.infer fits levels norm msg call elapsedMs = (n, some e) := by
  simp only [Episode.infer, hload, h]

theorem infer_of_ok {tokens : Tokens} {output : ActionEmbedding}
    (hload : load levels call = .ok result)
    (h : readReply fits msg.frameId result = .ok (tokens, output)) :
    n.infer fits levels norm msg call elapsedMs =
      n.publish norm result tokens output elapsedMs := by
  simp only [Episode.infer, hload, h]

end

/-- The condition on a body that is JSON. -/
theorem soundReply_body {version : Option Text} {text : Text} {result : Json}
    (hload : loads levels text = .ok result) :
    SoundReply fits frameId levels version (.body text) ↔
      (readReply fits frameId result).RaisesOnly Exn.Caught ∧
        ∀ version', Answers fits frameId result version' →
          (∀ old, version = some old → old = version') →
          ∃ wall, subscript result "server_wall_ms" = .ok wall := by
  rw [SoundReply, hload, readReply_caught, and_iff_right nofun]
  constructor
  · exact fun h => h result rfl
  · rintro h _ ⟨⟩
    exact h

/-- The condition on a body that is no JSON. -/
theorem soundReply_error {version : Option Text} {text : Text} {e : Raised}
    (hload : loads levels text = .error e) :
    SoundReply fits frameId levels version (.body text) ↔ (Exn.raised e).Caught := by
  rw [SoundReply, hload, and_iff_left nofun]
  rcases loads_error hload with rfl | ⟨rfl, -⟩
  · exact iff_of_true nofun (.inl rfl)
  · refine iff_of_false (fun h => h rfl) fun hcaught => ?_
    rcases hcaught with he | he | he <;> cases he

/-- A sound reply is published with its record, or raises what is caught. -/
theorem infer_of_sound {n : Episode} {msg : Observation} {call : HttpCall}
    (elapsedMs : ℚ) (h : SoundReply fits msg.frameId levels n.modelVersion call) :
    let r := n.infer fits levels norm msg call elapsedMs
    r.2 = none ∧ Published n msg.frameId r.1 ∨ ∃ e, r = (n, some e) ∧ e.Caught := by
  dsimp only
  cases call with
  | fails e => exact .inr ⟨e, rfl, h⟩
  | body text =>
      cases hload : loads levels text with
      | error e =>
          have hloaded : load levels (.body text) = .error (.raised e) := by
            rw [load, hload]
            rfl
          exact .inr ⟨.raised e, infer_of_load norm n msg elapsedMs hloaded,
            (soundReply_error hload).mp h⟩
      | ok result =>
          obtain ⟨hcaught, hwall⟩ := (soundReply_body hload).mp h
          have hloaded : load levels (.body text) = .ok result := Except.mapError_eq_ok.mpr hload
          cases hread : readReply fits msg.frameId result with
          | error e =>
              exact .inr ⟨e, infer_of_error norm n msg elapsedMs hloaded hread, hcaught e hread⟩
          | ok pair =>
              obtain ⟨tokens, output⟩ := pair
              rw [infer_of_ok norm n msg elapsedMs hloaded hread]
              have hanswers := (answers_of_readReply hread).1
              rcases publish_cases norm hread n elapsedMs with
                ⟨-, hfails⟩ | ⟨hversion, ⟨-, hpublished⟩ | ⟨hno, -⟩⟩
              · exact .inr hfails
              · exact .inl hpublished
              · exact absurd (hwall _ hanswers hversion) hno

/-- A reply that is not sound raises what is not caught, or is published without a record. -/
theorem infer_of_not_sound {n : Episode} {msg : Observation} {call : HttpCall}
    (elapsedMs : ℚ) (h : ¬ SoundReply fits msg.frameId levels n.modelVersion call) :
    let r := n.infer fits levels norm msg call elapsedMs
    (∃ e, r = (n, some e) ∧ ¬ e.Caught) ∨
      ∃ e, r.2 = some e ∧ r.1.published = n.published + 1 ∧ r.1.inferences = n.inferences := by
  dsimp only
  cases call with
  | fails e => exact .inl ⟨e, rfl, h⟩
  | body text =>
      cases hload : loads levels text with
      | error e =>
          have hloaded : load levels (.body text) = .error (.raised e) := by
            rw [load, hload]
            rfl
          exact .inl ⟨.raised e, infer_of_load norm n msg elapsedMs hloaded,
            fun hcaught => h ((soundReply_error hload).mpr hcaught)⟩
      | ok result =>
          rw [soundReply_body hload] at h
          have hloaded : load levels (.body text) = .ok result := Except.mapError_eq_ok.mpr hload
          cases hread : readReply fits msg.frameId result with
          | error e =>
              refine .inl ⟨e, infer_of_error norm n msg elapsedMs hloaded hread,
                fun hcaught => h ⟨fun e' he' => ?_, fun version hanswers => ?_⟩⟩
              · rw [hread] at he'
                cases he'
                exact hcaught
              · obtain ⟨_, _, hok, -⟩ := hanswers.readReply
                rw [hread] at hok
                cases hok
          | ok pair =>
              obtain ⟨tokens, output⟩ := pair
              rw [infer_of_ok norm n msg elapsedMs hloaded hread]
              have hcaught : (readReply fits msg.frameId result).RaisesOnly Exn.Caught := by
                rw [hread]
                exact Except.raisesOnly_ok _
              -- what is read is not sound for the want of the field only
              rcases publish_cases norm hread n elapsedMs with
                ⟨hchanged, -⟩ | ⟨hversion, ⟨hwall, -⟩ | ⟨hno, hhalf⟩⟩
              · refine absurd ⟨hcaught, fun version hanswers hsame => ?_⟩ h
                rw [version_eq_of_answers hanswers hread] at hsame
                exact absurd hsame hchanged
              · exact absurd ⟨hcaught, fun _ _ _ => hwall⟩ h
              · exact .inr hhalf

/-- An embedding without a record is no accounting. -/
theorem not_atomic_of_half {n : Episode} {r : Episode × Option Exn}
    (hpublished : r.1.published = n.published + 1) (hinferences : r.1.inferences = n.inferences) :
    ¬ Atomic n frameId r := by
  rintro ⟨-, ⟨output, record, -, -, hgrown, -⟩ | ⟨-, hkept, -⟩⟩
  · have hlen := congrArg List.length (hgrown.symm.trans hinferences)
    rw [List.length_append, List.length_singleton] at hlen
    omega
  · omega

/-- **Behind the video**, an observation is accounted for if its reply is sound. -/
theorem handle_of_sound {n : Episode} {msg : Observation} {call : HttpCall}
    (elapsedMs : ℚ) (h : msg.mode = modeText → msg.text = n.instruction →
      SoundReply fits msg.frameId levels n.modelVersion call) :
    Atomic n msg.frameId (n.handle fits levels norm describe msg call elapsedMs) := by
  unfold Episode.handle
  split
  · exact ⟨rfl, .inr ⟨rfl, rfl, rfl, _, rfl⟩⟩
  rename_i hmode
  split
  · exact ⟨rfl, .inr ⟨rfl, rfl, rfl, _, rfl⟩⟩
  rename_i htext
  have hsound := h (not_not.mp hmode) (not_not.mp htext)
  rcases infer_of_sound norm elapsedMs hsound with ⟨hnone, hpublished⟩ | ⟨e, heq, hcaught⟩
  · split
    · rename_i n' heq
      rw [heq] at hpublished
      exact ⟨rfl, .inl hpublished⟩
    · rename_i n' e heq
      rw [heq] at hnone
      cases hnone
  · rw [heq]
    simp only [if_pos hcaught]
    exact ⟨rfl, .inr ⟨rfl, rfl, rfl, _, rfl⟩⟩

/-- If its reply is not sound, an exception is left over, or a record is missing. -/
theorem handle_of_not_sound {n : Episode} {msg : Observation} {call : HttpCall}
    (elapsedMs : ℚ) (h : ¬ (msg.mode = modeText → msg.text = n.instruction →
      SoundReply fits msg.frameId levels n.modelVersion call)) :
    let r := n.handle fits levels norm describe msg call elapsedMs
    (∃ e, r.2 = some e) ∨ r.1.published = n.published + 1 ∧ r.1.inferences = n.inferences := by
  simp only [Classical.not_imp] at h
  obtain ⟨hmode, htext, hreply⟩ := h
  dsimp only
  unfold Episode.handle
  rw [if_neg (not_not.mpr hmode), if_neg (not_not.mpr htext)]
  rcases infer_of_not_sound norm elapsedMs hreply with
    ⟨e, heq, hcaught⟩ | ⟨e, hsome, hpublished, hinferences⟩
  · rw [heq]
    simp only [if_neg hcaught]
    exact .inl ⟨e, rfl⟩
  · split
    · rename_i n' heq
      rw [heq] at hsome
      cases hsome
    · rename_i n' e' heq
      rw [heq] at hpublished hinferences
      split
      · exact .inr ⟨hpublished, hinferences⟩
      · exact .inl ⟨e', rfl⟩

/-- An error in front of it leaves no observation accounted for. -/
theorem not_atomic_of_error {n n' : Episode} {msg : Observation} {call : HttpCall}
    {elapsedMs : ℚ} (text : String) (hsent : n'.sent = n.sent)
    (hpublished : n'.published = n.published) (hinferences : n'.inferences = n.inferences)
    (herrors : n'.errors = n.errors ++ [text]) :
    ¬ Atomic n msg.frameId (n'.handle fits levels norm describe msg call elapsedMs) := by
  intro hatomic
  by_cases hsound : msg.mode = modeText → msg.text = n'.instruction →
      SoundReply fits msg.frameId levels n'.modelVersion call
  · obtain ⟨-, hout⟩ := handle_of_sound norm describe elapsedMs hsound
    obtain ⟨-, hout'⟩ := hatomic
    -- compare the lengths of the lists before and after
    rcases hout with ⟨output, record, hsent₁, -, -, -, herrors₁⟩ | ⟨hsent₁, -, -, text₁, herrors₁⟩
    · rcases hout' with ⟨_, _, -, -, -, -, herrors₂⟩ | ⟨hsent₂, -, -, -⟩
      · have hlen := congrArg List.length (herrors₁.symm.trans herrors₂)
        rw [herrors, List.length_append, List.length_singleton] at hlen
        omega
      · have hlen := congrArg List.length (hsent₁.symm.trans hsent₂)
        rw [hsent, List.length_append, List.length_singleton] at hlen
        omega
    · have hgrown : ∃ k ≤ 1,
          (n'.handle fits levels norm describe msg call elapsedMs).1.errors.length =
            n.errors.length + k := by
        rcases hout' with ⟨_, _, -, -, -, -, herrors₂⟩ | ⟨-, -, -, _, herrors₂⟩
        · exact ⟨0, Nat.zero_le 1, by rw [herrors₂, Nat.add_zero]⟩
        · exact ⟨1, le_rfl, by rw [herrors₂, List.length_append, List.length_singleton]⟩
      obtain ⟨k, hk, hlen⟩ := hgrown
      rw [herrors₁, herrors] at hlen
      simp only [List.length_append, List.length_singleton] at hlen
      omega
  · rcases handle_of_not_sound norm describe elapsedMs hsound with
      ⟨e, he⟩ | ⟨hhalf, hkept⟩
    · rw [hatomic.1] at he
      cases he
    · exact not_atomic_of_half (hpublished ▸ hhalf) (hinferences ▸ hkept) hatomic

/-- **An observation is accounted for exactly if it is sound.** -/
theorem atomic_iff_sound (n : Episode) (msg : Observation) (video : Video) (call : HttpCall)
    (elapsedMs : ℚ) :
    Atomic n msg.frameId (n.observation fits levels norm describe msg video call elapsedMs) ↔
      Sound fits levels n msg video call := by
  -- the video is skipped or written: the counters are those of `n`
  have hvideo : ∀ n' : Episode, n'.sent = n.sent → n'.published = n.published →
      n'.inferences = n.inferences → n'.errors = n.errors → n'.instruction = n.instruction →
      n'.modelVersion = n.modelVersion →
      (Atomic n msg.frameId (n'.handle fits levels norm describe msg call elapsedMs) ↔
        (msg.mode = modeText → msg.text = n.instruction →
          SoundReply fits msg.frameId levels n.modelVersion call)) := by
    intro n' hsent hpublished hinferences herrors hinstruction hversion
    rw [← hinstruction, ← hversion]
    constructor
    · intro hatomic
      by_contra hbad
      rcases handle_of_not_sound norm describe elapsedMs hbad with
        ⟨e, he⟩ | ⟨hhalf, hkept⟩
      · rw [hatomic.1] at he
        cases he
      · exact not_atomic_of_half (hpublished ▸ hhalf) (hinferences ▸ hkept) hatomic
    · intro hsound
      have hatomic := handle_of_sound norm describe elapsedMs hsound
      rwa [Atomic, Published, Failed, hsent, hpublished, hinferences, herrors] at hatomic
  unfold Sound Episode.observation
  cases hstarted : n.startedAt with
  | none =>
      simp only [Option.isSome_none, Bool.false_eq_true, if_false, false_implies, true_and]
      exact hvideo _ rfl rfl rfl rfl rfl rfl
  | some started =>
      simp only [Option.isSome_some, if_true, true_implies]
      cases video with
      | written =>
          rw [and_iff_right rfl]
          exact hvideo _ rfl rfl rfl rfl rfl rfl
      | undecodable =>
          refine iff_of_false ?_ nofun
          exact not_atomic_of_error norm describe _ rfl rfl rfl rfl
      | raises e => exact iff_of_false (fun h => nomatch h.1) nofun

/-! ## Runs -/

/-- What the node is given. -/
inductive Event
  | start (now : ℚ)
  | observation (msg : Observation) (video : Video) (call : HttpCall) (elapsedMs : ℚ)

namespace Episode

/-- `__init__`. -/
def new (instruction : String) : Episode := ⟨instruction, none, 0, 0, none, [], [], 0, []⟩

variable (fits levels)

/-- One event. -/
def step (n : Episode) : Event → Episode
  | .start now => { n with startedAt := some now }
  | .observation msg video call elapsedMs =>
      (n.observation fits levels norm describe msg video call elapsedMs).1

end Episode

variable (fits levels)

/-- The episodes with an instruction. -/
def machine (instruction : String) : Machine Episode Event where
  Init n := n = .new instruction
  Guard _ _ := True
  next := Episode.step fits levels norm describe

/-- The condition on a step. -/
def SoundStep (n : Episode) : Event → Prop
  | .start _ => True
  | .observation msg video call _ => Sound fits levels n msg video call

/-- The counters that the audit compares, and the embeddings on their way to the edge. -/
def Balanced (n : Episode) : Prop :=
  n.published = n.inferences.length ∧ n.published = n.sent.length

variable {fits levels}

/-- An observation that is accounted for keeps the balance. -/
theorem Balanced.of_atomic {n : Episode} {r : Episode × Option Exn} (h : Balanced n)
    (hatomic : Atomic n frameId r) : Balanced r.1 := by
  rcases hatomic.2 with ⟨output, record, hsent, hpublished, hinferences, -, -⟩ |
    ⟨hsent, hpublished, hinferences, -⟩
  · rw [Balanced, hsent, hpublished, hinferences, List.length_append, List.length_append, ← h.1,
      ← h.2]
    exact ⟨rfl, rfl⟩
  · rw [Balanced, hsent, hpublished, hinferences]
    exact h

theorem balanced_invariant (instruction : String) :
    ((machine fits levels norm describe instruction).restrict (SoundStep fits levels)).Invariant
      Balanced where
  init := by
    rintro n rfl
    exact ⟨rfl, rfl⟩
  step := by
    rintro n e hbalanced ⟨-, hsound⟩
    cases e with
    | start now => exact hbalanced
    | observation msg video call elapsedMs =>
        exact hbalanced.of_atomic
          ((atomic_iff_sound norm describe n msg video call elapsedMs).mpr hsound)

/-- **The accounting of a live episode.**  In every run of sound steps the counter of the
embeddings, the records of the inferences and the embeddings that were sent are as many as one
another; and from there an observation is accounted for exactly if it is sound. -/
theorem balanced_of_sound {instruction : String} {es : List Event} {n : Episode}
    (h : ((machine fits levels norm describe instruction).restrict
      (SoundStep fits levels)).Run es n) :
    Balanced n ∧ ∀ msg video call elapsedMs,
      Atomic n msg.frameId (n.observation fits levels norm describe msg video call elapsedMs) ↔
        Sound fits levels n msg video call :=
  ⟨(balanced_invariant norm describe instruction).of_run h,
    fun msg video call elapsedMs => atomic_iff_sound norm describe n msg video call elapsedMs⟩

end

/-- A reply to frame 9, up to the last field. -/
def replyText (last : String) : Text :=
  ("\x7b\"frame_id\": 9, \"embedding\": [[1, 2, 3, 4]], \"inference_ms\": 2.0, " ++
    "\"model_version\": \"a\"" ++ last ++ "\x7d").toList

/-- The observation of frame 9. -/
def frame9 : Observation := ⟨9, modeText, "Go forward."⟩

/-- One observation with its reply. -/
def oneReply (last : String) : List Event :=
  [.observation frame9 .written (.body (replyText last)) 5]

theorem balanced_of_sound_oneReply :
    Balanced ((machine (fun _ => true) 900 (fun _ => .fin 0) (fun _ => "") "Go forward.").exec
      (.new "Go forward.") (oneReply ", \"server_wall_ms\": 3.0")) := by
  have hsound : Sound (fun _ => true) 900 (.new "Go forward.") frame9 .written
      (.body (replyText ", \"server_wall_ms\": 3.0")) := by
    refine ⟨fun _ => rfl, ?_⟩
    by_contra hbad
    rcases handle_of_not_sound (fun _ => .fin 0) (fun _ => "") 5 hbad with ⟨e, he⟩ | ⟨-, hkept⟩
    · have hnone : ((Episode.new "Go forward.").handle (fun _ => true) 900 (fun _ => .fin 0)
          (fun _ => "") frame9 (.body (replyText ", \"server_wall_ms\": 3.0")) 5).2 = none := by
        decide +kernel
      rw [hnone] at he
      cases he
    · have hone : ((Episode.new "Go forward.").handle (fun _ => true) 900 (fun _ => .fin 0)
          (fun _ => "") frame9
          (.body (replyText ", \"server_wall_ms\": 3.0")) 5).1.inferences.length = 1 := by
        decide +kernel
      rw [hkept] at hone
      cases hone
  have hrun : ((machine (fun _ => true) 900 (fun _ => .fin 0) (fun _ => "") "Go forward.").restrict
      (SoundStep (fun _ => true) 900)).Run (oneReply ", \"server_wall_ms\": 3.0") _ :=
    Machine.run_of_enabled rfl ⟨⟨trivial, hsound⟩, trivial⟩
  rw [Machine.restrict_exec] at hrun
  exact (balanced_of_sound _ _ hrun).1

/-- **A published embedding without a record**: the reply has no `server_wall_ms`. -/
theorem published_without_record :
    ∃ n, (machine (fun _ => true) 900 (fun _ => .fin 0) (fun _ => "") "Go forward.").Run
        (oneReply "") n ∧
      n.published = 1 ∧ n.inferences.length = 0 ∧
      ¬ Atomic (.new "Go forward.") 9 ((Episode.new "Go forward.").observation (fun _ => true) 900
        (fun _ => .fin 0) (fun _ => "") frame9 .written (.body (replyText "")) 5) := by
  have hpublished : ((Episode.new "Go forward.").observation (fun _ => true) 900
      (fun _ => .fin 0) (fun _ => "") frame9 .written
      (.body (replyText "")) 5).1.published = 1 := by
    decide +kernel
  have hinferences : ((Episode.new "Go forward.").observation (fun _ => true) 900
      (fun _ => .fin 0) (fun _ => "") frame9 .written
      (.body (replyText "")) 5).1.inferences.length = 0 := by
    decide +kernel
  refine ⟨_, Machine.run_of_enabled rfl ⟨trivial, trivial⟩, hpublished, hinferences, ?_⟩
  exact not_atomic_of_half hpublished (List.length_eq_zero_iff.mp hinferences)

end LiveTransport
