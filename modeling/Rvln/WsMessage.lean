/-
# Action chunks over the WebSocket

`handle_message` of `edge_action_ws_node.py`, with `decode_chunk_msg`: one text message to
one acknowledgement, over the JSON reader, the decoder of the payload and the action
bridge.  An exception is its class, and `str` of a value that is no string is a parameter:
it needs no more levels than reading the value did.

`handle_message` catches `ValueError` only, while `int` of an infinity raises
`OverflowError`, `int` of a `null`, a list or an object raises `TypeError` outside the
block that translates it, and nested brackets run out of the recursion limit.
`handled_iff` says for which texts none of that happens.
-/
import Rvln.ActionPathBridge
import Rvln.DecodePath
import Rvln.PyJson

open Json DecodePath

/-- What `EdgeActionWsNode` handles a message with. -/
structure EdgeActionWsNode where
  spacing : ℚ
  frameId : String
  bridge : ActionPathBridge (PyFloat ℚ)

namespace EdgeActionWsNode

/-! ## The code -/

/-- `"ok"`, or `"error: .."` with a text. -/
inductive Status
  | ok
  | error
  deriving DecidableEq

/-- The acknowledgement. -/
structure Ack where
  frameId : ℤ
  following : Bool
  status : Status

/-- `msg[key]`. -/
def getItem (msg : List (Text × Json)) (key : String) : Except Raised Json :=
  match field msg key.toList with
  | none => .error .keyError
  | some v => .ok v

/-- `except (KeyError, TypeError, ValueError) as e: raise ValueError(..)`. -/
def translate {α : Type} : Except Raised α → Except Raised α
  | .error .keyError => .error .valueError
  | .error .typeError => .error .valueError
  | r => r

/-- `msg.get("type") == "action_chunk"`. -/
def isActionChunk (msg : List (Text × Json)) : Bool :=
  match field msg "type".toList with
  | some (.str s) => s = "action_chunk".toList
  | _ => false

/-- The `try` block of `decode_chunk_msg`. -/
def chunkArguments (msg : List (Text × Json)) : Except Raised (ℤ × ℤ × List UInt8) := do
  let numTokens ← getItem msg "num_tokens" >>= toInt
  let embedDim ← getItem msg "embed_dim" >>= toInt
  let raw ← getItem msg "values_fp16_b64" >>= b64decode
  pure (numTokens, embedDim, raw)

/-- `bool(msg.get("scaled_to_m"))`. -/
def scaledToM (msg : List (Text × Json)) : Bool :=
  toBool ((field msg "scaled_to_m".toList).getD .null)

/-- `msg.get("frame_id", 0)`. -/
def frameField (msg : List (Text × Json)) : Json := (field msg "frame_id".toList).getD (.int 0)

/-- `msg.get("goal_id", "")`. -/
def goalField (msg : List (Text × Json)) : Json := (field msg "goal_id".toList).getD (.str [])

section

variable (repr : Json → String)

/-- `str(value)`; `repr` is that of a value that is no string. -/
def toStr : Json → String
  | .str s => String.ofList s
  | v => repr v

/-- `decode_chunk_msg`. -/
def decodeChunkMsg (msg : List (Text × Json)) (waypointSpacing : ℚ) (frameId : String) :
    Except Raised (NavPath (PyFloat ℚ) × ℤ × String) :=
  if ¬ isActionChunk msg then .error .valueError
  else do
    let (numTokens, embedDim, raw) ← translate (chunkArguments msg)
    let path ← (decodePath raw numTokens embedDim (scaledToM msg) waypointSpacing
      frameId).mapError Raised.py
    let frameSeq ← toInt (frameField msg)
    pure (path, frameSeq, toStr repr (goalField msg))

/-- The `try` block of `handle_message`, with the recursion levels that are left. -/
def decodeText (levels : ℕ) (node : EdgeActionWsNode) (text : Text) :
    Except Raised (NavPath (PyFloat ℚ) × ℤ × String) := do
  let msg ← loads levels text
  match msg with
  | .object msg => decodeChunkMsg repr msg node.spacing node.frameId
  | _ => .error .valueError

/-- `handle_message`: the acknowledgement and the node after it. -/
def handleMessage (levels : ℕ) (node : EdgeActionWsNode) (text : Text) (now : ℚ) :
    Except Raised (Ack × EdgeActionWsNode) :=
  match decodeText repr levels node text with
  | .error e =>
    if e = .valueError then .ok (⟨0, node.bridge.following, .error⟩, node) else .error e
  | .ok (path, frameSeq, goalId) =>
    .ok (⟨frameSeq, true, .ok⟩, { node with bridge := (node.bridge.receive path goalId now).1 })

end

/-! ## What the conversions raise -/

/-- The classes that `decode_chunk_msg` translates. -/
def Malformed (e : Raised) : Prop := e = .keyError ∨ e = .typeError ∨ e = .valueError

/-- `Infinity` or `-Infinity`. -/
def Infinite (v : Json) : Prop := v = .float .posInf ∨ v = .float .negInf

/-- Values of a type that `int` does not take. -/
def NotNumeric : Json → Prop
  | .null | .list _ | .object _ => True
  | _ => False

/-- What `int` raises, and for which values. -/
theorem toInt_error {v : Json} {e : Raised} (h : toInt v = .error e) :
    e = .valueError ∧ ¬ Infinite v ∧ ¬ NotNumeric v ∨ e = .overflowError ∧ Infinite v ∨
      e = .typeError ∧ NotNumeric v := by
  cases v with
  | null =>
      cases h
      exact Or.inr (Or.inr ⟨rfl, trivial⟩)
  | bool b => cases h
  | int n => cases h
  | float x =>
      -- `int` of a float: `nan` is a ValueError, the infinities an OverflowError
      match x with
      | .fin x => cases h
      | .nan =>
          cases h
          exact Or.inl ⟨rfl, by simp [Infinite], id⟩
      | .posInf =>
          cases h
          exact Or.inr (Or.inl ⟨rfl, Or.inl rfl⟩)
      | .negInf =>
          cases h
          exact Or.inr (Or.inl ⟨rfl, Or.inr rfl⟩)
  | str s =>
      cases hs : intOfText s with
      | none =>
          simp only [toInt, hs] at h
          cases h
          exact Or.inl ⟨rfl, by simp [Infinite], id⟩
      | some n =>
          simp only [toInt, hs] at h
          cases h
  | list items =>
      cases h
      exact Or.inr (Or.inr ⟨rfl, trivial⟩)
  | object fields =>
      cases h
      exact Or.inr (Or.inr ⟨rfl, trivial⟩)

theorem toInt_of_infinite {v : Json} (h : Infinite v) : toInt v = .error .overflowError := by
  rcases h with rfl | rfl
  · rfl
  · rfl

theorem toInt_of_notNumeric {v : Json} (h : NotNumeric v) : toInt v = .error .typeError := by
  match v, h with
  | .null, _ | .list _, _ | .object _, _ => rfl

/-- Inside the block, `int` fails on infinities only. -/
theorem toInt_malformed {v : Json} : (toInt v).RaisesOnly Malformed ↔ ¬ Infinite v := by
  constructor
  · intro h hinf
    rcases h _ (toInt_of_infinite hinf) with he | he | he <;> cases he
  · intro h e he
    rcases toInt_error he with ⟨rfl, -⟩ | ⟨-, hinf⟩ | ⟨rfl, -⟩
    · exact Or.inr (Or.inr rfl)
    · exact absurd hinf h
    · exact Or.inr (Or.inl rfl)

/-- Outside it, also on what is no number. -/
theorem toInt_valueError {v : Json} :
    (toInt v).RaisesOnly (· = .valueError) ↔ ¬ Infinite v ∧ ¬ NotNumeric v := by
  constructor
  · intro h
    refine ⟨fun hinf => ?_, fun hnot => ?_⟩
    · cases h _ (toInt_of_infinite hinf)
    · cases h _ (toInt_of_notNumeric hnot)
  · rintro ⟨hinf, hnot⟩ e he
    rcases toInt_error he with ⟨rfl, -⟩ | ⟨-, h⟩ | ⟨-, h⟩
    · rfl
    · exact absurd h hinf
    · exact absurd h hnot

theorem b64decode_malformed (v : Json) : (b64decode v).RaisesOnly Malformed := by
  intro e h
  unfold b64decode at h
  split at h
  · dsimp only at h
    split at h
    · cases h
      exact Or.inr (Or.inr rfl)
    · split at h
      · cases h
        exact Or.inr (Or.inr rfl)
      · cases h
  · cases h
    exact Or.inr (Or.inl rfl)

section

variable {α : Type} {msg : List (Text × Json)} {key : String} {f : Json → Except Raised α}

theorem getItem_bind_ok {a : α} : (getItem msg key >>= f) = .ok a ↔
    ∃ v, field msg key.toList = some v ∧ f v = .ok a := by
  unfold getItem
  cases h : field msg key.toList with
  | none => exact ⟨nofun, nofun⟩
  | some v =>
      constructor
      · exact fun hf => ⟨v, rfl, hf⟩
      · rintro ⟨_, ⟨⟩, hf⟩
        exact hf

/-- A missing field is malformed; one that is there is what its conversion says. -/
theorem getItem_malformed : (getItem msg key >>= f).RaisesOnly Malformed ↔
    ∀ v, field msg key.toList = some v → (f v).RaisesOnly Malformed := by
  unfold getItem
  cases h : field msg key.toList with
  | none =>
      refine iff_of_true (fun e he => ?_) nofun
      cases he
      exact Or.inl rfl
  | some v =>
      constructor
      · rintro hf _ ⟨⟩
        exact hf
      · exact fun hf => hf v rfl

/-- A translated exception is caught exactly if it was one of the translated classes. -/
theorem translate_valueError {x : Except Raised α} :
    (translate x).RaisesOnly (· = .valueError) ↔ x.RaisesOnly Malformed := by
  match x with
  | .ok a => exact iff_of_true (Except.raisesOnly_ok a) (Except.raisesOnly_ok a)
  | .error .keyError | .error .typeError =>
      exact iff_of_true (Except.raisesOnly_error.mpr rfl)
        (Except.raisesOnly_error.mpr (by simp [Malformed]))
  | .error (.py e) | .error .overflowError | .error .recursionError =>
      show Except.RaisesOnly _ (.error _) ↔ _
      simp [Except.raisesOnly_error, Malformed]

theorem translate_ok {x : Except Raised α} {a : α} : translate x = .ok a ↔ x = .ok a := by
  match x with
  | .ok a => exact Iff.rfl
  | .error .keyError | .error .typeError | .error (.py e) | .error .overflowError
  | .error .recursionError => exact ⟨nofun, nofun⟩

end

/-! ## One message -/

/-- A field of the message is `Infinity` or `-Infinity`. -/
def InfiniteAt (msg : List (Text × Json)) (key : String) : Prop :=
  ∃ v, field msg key.toList = some v ∧ Infinite v

/-- The message is a chunk of `n` rows of `d` halves. -/
structure IsChunk (msg : List (Text × Json)) (n d : ℤ) (raw : List UInt8) : Prop where
  type : isActionChunk msg
  numTokens : ∃ v, field msg "num_tokens".toList = some v ∧ toInt v = .ok n
  embedDim : ∃ v, field msg "embed_dim".toList = some v ∧ toInt v = .ok d
  payload : ∃ v, field msg "values_fp16_b64".toList = some v ∧ b64decode v = .ok raw
  halves : ∃ hs, halves raw = some hs ∧ (hs.length : ℤ) = n * d
  rows : 1 ≤ n
  columns : 4 ≤ d

section

variable {msg : List (Text × Json)}

theorem chunkArguments_ok {n d : ℤ} {raw : List UInt8} :
    chunkArguments msg = .ok (n, d, raw) ↔
      (∃ v, field msg "num_tokens".toList = some v ∧ toInt v = .ok n) ∧
        (∃ v, field msg "embed_dim".toList = some v ∧ toInt v = .ok d) ∧
          ∃ v, field msg "values_fp16_b64".toList = some v ∧ b64decode v = .ok raw := by
  rw [← getItem_bind_ok, ← getItem_bind_ok, ← getItem_bind_ok]
  constructor
  · intro h
    obtain ⟨n, hn, h⟩ := Except.of_bind_ok h
    obtain ⟨d, hd, h⟩ := Except.of_bind_ok h
    obtain ⟨bytes, hbytes, h⟩ := Except.of_bind_ok h
    cases h
    exact ⟨hn, hd, hbytes⟩
  · rintro ⟨hn, hd, hraw⟩
    unfold chunkArguments
    rw [hn]
    show (getItem msg "embed_dim" >>= toInt) >>= _ = _
    rw [hd]
    show (getItem msg "values_fp16_b64" >>= b64decode) >>= _ = _
    rw [hraw]
    rfl

/-- Inside the block only an infinity is not translated, and an infinite `embed_dim` only
counts once `num_tokens` is converted. -/
theorem chunkArguments_malformed : (chunkArguments msg).RaisesOnly Malformed ↔
    ¬ InfiniteAt msg "num_tokens" ∧
      ((∃ v n, field msg "num_tokens".toList = some v ∧ toInt v = .ok n) →
        ¬ InfiniteAt msg "embed_dim") := by
  have hint : ∀ key, (getItem msg key >>= toInt).RaisesOnly Malformed ↔ ¬ InfiniteAt msg key := by
    intro key
    rw [getItem_malformed]
    constructor
    · rintro h ⟨v, hv, hinf⟩
      exact toInt_malformed.mp (h v hv) hinf
    · exact fun h v hv => toInt_malformed.mpr fun hinf => h ⟨v, hv, hinf⟩
  have hpayload : (getItem msg "values_fp16_b64" >>= b64decode).RaisesOnly Malformed :=
    getItem_malformed.mpr fun v _ => b64decode_malformed v
  unfold chunkArguments
  rw [Except.raisesOnly_bind, hint]
  apply and_congr_right
  intro _
  constructor
  · rintro h ⟨v, n, hv, hn⟩
    exact (hint _).mp (Except.raisesOnly_bind.mp (h n (getItem_bind_ok.mpr ⟨v, hv, hn⟩))).1
  · intro h n hn
    obtain ⟨v, hv, hn⟩ := getItem_bind_ok.mp hn
    refine Except.raisesOnly_bind.mpr ⟨(hint _).mpr (h ⟨v, n, hv, hn⟩), fun d _ => ?_⟩
    exact Except.raisesOnly_bind.mpr ⟨hpayload, fun _ _ => Except.raisesOnly_ok _⟩

theorem isChunk_iff {n d : ℤ} {raw : List UInt8} {waypointSpacing : ℚ} {frameId : String} :
    IsChunk msg n d raw ↔ isActionChunk msg ∧ chunkArguments msg = .ok (n, d, raw) ∧
      ∃ path, decodePath raw n d (scaledToM msg) waypointSpacing frameId = .ok path := by
  rw [chunkArguments_ok, exists_decodePath_iff]
  constructor
  · exact fun h => ⟨h.type, ⟨h.numTokens, h.embedDim, h.payload⟩, h.rows, h.columns, h.halves⟩
  · rintro ⟨htype, ⟨hn, hd, hraw⟩, hrows, hcols, hhalves⟩
    exact ⟨htype, hn, hd, hraw, hhalves, hrows, hcols⟩

section

variable {repr : Json → String} {waypointSpacing : ℚ} {frameId : String}

/-- What a decoded message went through. -/
theorem decodeChunkMsg_ok {path : NavPath (PyFloat ℚ)} {frameSeq : ℤ} {goalId : String}
    (h : decodeChunkMsg repr msg waypointSpacing frameId = .ok (path, frameSeq, goalId)) :
    ∃ n d raw, IsChunk msg n d raw ∧
      decodePath raw n d (scaledToM msg) waypointSpacing frameId = .ok path := by
  unfold decodeChunkMsg at h
  split at h
  · cases h
  · next htype =>
      obtain ⟨⟨n, d, raw⟩, harguments, h⟩ := Except.of_bind_ok h
      obtain ⟨path', hpath, h⟩ := Except.of_bind_ok h
      obtain ⟨_, -, h⟩ := Except.of_bind_ok h
      cases h
      rw [translate_ok] at harguments
      rw [Except.mapError_eq_ok] at hpath
      exact ⟨n, d, raw, isChunk_iff.mpr ⟨not_not.mp htype, harguments, path, hpath⟩, hpath⟩

/-- The code copes with the fields of a message of the right type: `int` meets no infinity
before the payload, and a number or a text in `frame_id` once the chunk is decoded. -/
def Copes (msg : List (Text × Json)) : Prop :=
  ¬ InfiniteAt msg "num_tokens" ∧
    ((∃ v n, field msg "num_tokens".toList = some v ∧ toInt v = .ok n) →
      ¬ InfiniteAt msg "embed_dim") ∧
    ((∃ n d raw, IsChunk msg n d raw) →
      ¬ Infinite (frameField msg) ∧ ¬ NotNumeric (frameField msg))

theorem decodeChunkMsg_valueError :
    (decodeChunkMsg repr msg waypointSpacing frameId).RaisesOnly (· = .valueError) ↔
      (isActionChunk msg → Copes msg) := by
  unfold decodeChunkMsg
  split
  · next htype => exact iff_of_true (Except.raisesOnly_error.mpr rfl) fun h => absurd h htype
  · next htype =>
      rw [not_not] at htype
      -- whatever the decoder of the payload refuses is a `ValueError`
      have hpath : ∀ n d raw, ((decodePath raw n d (scaledToM msg) waypointSpacing
          frameId).mapError Raised.py).RaisesOnly (· = .valueError) := by
        intro n d raw
        refine Except.raisesOnly_mapError.mpr fun e he => ?_
        rw [decodePath_error he]
      rw [Except.raisesOnly_bind, translate_valueError, chunkArguments_malformed]
      constructor
      · rintro ⟨hblock, hrest⟩ -
        refine ⟨hblock.1, hblock.2, ?_⟩
        rintro ⟨n, d, raw, hchunk⟩
        obtain ⟨-, harguments, path, hp⟩ := isChunk_iff.mp hchunk
        have h := hrest (n, d, raw) (translate_ok.mpr harguments)
        have h := (Except.raisesOnly_bind.mp h).2 path (Except.mapError_eq_ok.mpr hp)
        exact toInt_valueError.mp (Except.raisesOnly_bind.mp h).1
      · intro h
        obtain ⟨hn, hd, hframe⟩ := h htype
        refine ⟨⟨hn, hd⟩, ?_⟩
        rintro ⟨n, d, raw⟩ harguments
        refine Except.raisesOnly_bind.mpr ⟨hpath n d raw, fun path hp => ?_⟩
        have hchunk := isChunk_iff.mpr
          ⟨htype, translate_ok.mp harguments, path, Except.mapError_eq_ok.mp hp⟩
        have hint := toInt_valueError.mpr (hframe ⟨n, d, raw, hchunk⟩)
        exact Except.raisesOnly_bind.mpr ⟨hint, fun _ _ => Except.raisesOnly_ok _⟩

end

end

/-- The texts that are answered: reading them stays within the recursion limit, and if
they are chunk messages then the code copes with their fields. -/
def Tolerated (levels : ℕ) (text : Text) : Prop :=
  loads levels text ≠ .error .recursionError ∧
    ∀ msg, loads levels text = .ok (.object msg) → isActionChunk msg → Copes msg

section

variable {repr : Json → String} {levels : ℕ} {node : EdgeActionWsNode} {text : Text}

theorem decodeText_valueError :
    (decodeText repr levels node text).RaisesOnly (· = .valueError) ↔ Tolerated levels text := by
  have hloads : (loads levels text).RaisesOnly (· = .valueError) ↔
      loads levels text ≠ .error .recursionError := by
    constructor
    · exact fun h he => absurd (h _ he) (by decide)
    · intro h e he
      rcases loads_error he with rfl | ⟨rfl, -⟩
      · rfl
      · exact absurd he h
  unfold decodeText Tolerated
  rw [Except.raisesOnly_bind, hloads]
  apply and_congr_right
  intro _
  constructor
  · exact fun h msg hmsg => decodeChunkMsg_valueError.mp (h (.object msg) hmsg)
  · intro h msg hmsg
    split
    · next msg => exact decodeChunkMsg_valueError.mpr (h msg hmsg)
    · exact Except.raisesOnly_error.mpr rfl

/-- What an accepted text holds. -/
theorem decodeText_ok {path : NavPath (PyFloat ℚ)} {frameSeq : ℤ} {goalId : String}
    (h : decodeText repr levels node text = .ok (path, frameSeq, goalId)) :
    ∃ msg n d raw, loads levels text = .ok (.object msg) ∧ IsChunk msg n d raw ∧
      decodePath raw n d (scaledToM msg) node.spacing node.frameId = .ok path := by
  obtain ⟨msg, hmsg, h⟩ := Except.of_bind_ok h
  split at h
  · next msg =>
      obtain ⟨n, d, raw, hchunk, hpath⟩ := decodeChunkMsg_ok h
      exact ⟨msg, n, d, raw, hmsg, hchunk, hpath⟩
  · cases h

end

/-- An acknowledgement comes back; after an error the bridge is what it was; and if all is
well then the text was a chunk and the bridge holds its path. -/
def Handled (repr : Json → String) (levels : ℕ) (node : EdgeActionWsNode) (text : Text)
    (now : ℚ) : Prop :=
  ∃ ack node', handleMessage repr levels node text now = .ok (ack, node') ∧
    (ack.status = .error → node'.bridge = node.bridge) ∧
    (ack.status = .ok → ∃ msg n d raw path, loads levels text = .ok (.object msg) ∧
      IsChunk msg n d raw ∧
      decodePath raw n d (scaledToM msg) node.spacing node.frameId = .ok path ∧
      node'.bridge.pending = some path)

section

variable {repr : Json → String} {levels : ℕ} {node : EdgeActionWsNode} {text : Text} {now : ℚ}

/-- What goes wrong otherwise is that an exception escapes. -/
theorem handled_iff_valueError : Handled repr levels node text now ↔
    (decodeText repr levels node text).RaisesOnly (· = .valueError) := by
  unfold Handled handleMessage
  cases h : decodeText repr levels node text with
  | error e =>
      rw [Except.raisesOnly_error]
      dsimp only
      by_cases he : e = .valueError
      · rw [if_pos he]
        exact iff_of_true ⟨_, _, rfl, fun _ => rfl, nofun⟩ he
      · rw [if_neg he]
        refine iff_of_false ?_ he
        rintro ⟨ack, node', hack, -⟩
        cases hack
  | ok r =>
      obtain ⟨path, frameSeq, goalId⟩ := r
      obtain ⟨msg, n, d, raw, hmsg, hchunk, hpath⟩ := decodeText_ok h
      refine iff_of_true ⟨_, _, rfl, nofun, fun _ => ?_⟩ (Except.raisesOnly_ok _)
      exact ⟨msg, n, d, raw, path, hmsg, hchunk, hpath, rfl⟩

end

/-- **A message is handled** exactly if its text is tolerated. -/
theorem handled_iff (repr : Json → String) (levels : ℕ) (node : EdgeActionWsNode) (text : Text)
    (now : ℚ) : Handled repr levels node text now ↔ Tolerated levels text :=
  handled_iff_valueError.trans decodeText_valueError

/-- `__init__` with the declared defaults. -/
def init : EdgeActionWsNode := ⟨1 / 10, "base_link", ActionPathBridge.new "base_link" 1⟩

theorem not_handled_of_error {repr : Json → String} {levels : ℕ} {text : Text} {e : Raised}
    (h : handleMessage repr levels init text 0 = .error e) : ¬ Handled repr levels init text 0 := by
  rintro ⟨ack, node', hack, -⟩
  rw [h] at hack
  cases hack

/-- A chunk message of one waypoint straight ahead, and what its `frame_id` is. -/
def aheadText (frame : String) : Text :=
  "\x7b\"type\": \"action_chunk\", \"num_tokens\": 1, \"embed_dim\": 4, ".toList ++
    "\"values_fp16_b64\": \"ADwAAAA8AAA=\", \"frame_id\": ".toList ++ frame.toList ++ ['\x7d']

set_option maxRecDepth 2000 in
/-- **Messages without an answer**: an infinite number of tokens, a `null` frame on a chunk
that is fine, and brackets beyond the recursion limit. -/
theorem unanswered_messages :
    ¬ Handled (fun _ => "None") 10 init
        "\x7b\"type\": \"action_chunk\", \"num_tokens\": Infinity\x7d".toList 0 ∧
      ¬ Handled (fun _ => "None") 10 init (aheadText "null") 0 ∧
      ¬ Handled (fun _ => "None") 3 init "[[[[]]]]".toList 0 := by
  refine ⟨not_handled_of_error (e := .overflowError) ?_,
    not_handled_of_error (e := .typeError) ?_, not_handled_of_error (e := .recursionError) ?_⟩
  · rfl
  · rfl
  · rfl

end EdgeActionWsNode
