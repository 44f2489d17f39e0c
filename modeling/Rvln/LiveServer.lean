/-
# The inference server of the benchmark

`live_server.py`: an observation comes as JSON with its JPEG in base64, and the output of the
backend goes back as JSON.  The image of the last observation that the backend returned for
is the image before the next one; `/reset` forgets it.

* `LiveServer.doPost` : `POST /infer`, from bytes to bytes;
* `doPost_body` : what was computed for a reply;
* `doPost_previous` : which image is kept.

The backend and the libraries are parameters.  A value of Python that goes into JSON has
doubles for its floats.
-/
import Rvln.HttpBody
import Rvln.InferenceNode
import Rvln.NavidaReply

/-! ## Arrays of two dimensions -/

namespace NdArray

variable {Val : Type}

/-- So many rows of a length. -/
def rowsOf (dim : ℕ) : ℕ → List Val → List (List Val)
  | 0, _ => []
  | n + 1, values => values.take dim :: rowsOf dim n (values.drop dim)

/-- `arr.tolist()` of an array of two dimensions. -/
def rows (arr : NdArray Val) : List (List Val) :=
  match arr.shape with
  | [n, dim] => rowsOf dim n arr.values
  | _ => []

theorem rowsOf_spec {dim n : ℕ} {values : List Val} (h : values.length = n * dim) :
    (rowsOf dim n values).length = n ∧ (rowsOf dim n values).flatten = values ∧
      ∀ row ∈ rowsOf dim n values, row.length = dim := by
  induction n generalizing values with
  | zero =>
      rw [Nat.zero_mul, List.length_eq_zero_iff] at h
      exact ⟨rfl, h.symm, nofun⟩
  | succ n ih =>
      rw [Nat.succ_mul] at h
      have hdrop : (values.drop dim).length = n * dim := by
        rw [List.length_drop]
        omega
      obtain ⟨hlength, hflatten, hrow⟩ := ih hdrop
      refine ⟨congrArg (· + 1) hlength, ?_, ?_⟩
      · rw [rowsOf, List.flatten_cons, hflatten, List.take_append_drop]
      · rw [rowsOf, List.forall_mem_cons]
        refine ⟨?_, hrow⟩
        rw [List.length_take]
        omega

/-- **The rows** have all the values, in their order. -/
theorem rows_spec {arr : NdArray Val} {n dim : ℕ} (h : arr.shape = [n, dim]) :
    arr.rows.length = n ∧ arr.rows.flatten = arr.values ∧
      ∀ row ∈ arr.rows, row.length = dim := by
  have hrows : arr.rows = rowsOf dim n arr.values := by rw [rows, h]
  have hsize : arr.values.length = n * dim := by rw [arr.size, h, List.prod_pair]
  rw [hrows]
  exact rowsOf_spec hsize

end NdArray

/-! ## The server -/

open Json

/-- A float of Python. -/
abbrev PyDouble : Type := { x : PyFloat ℚ // Doubles (.float x) }

/-- A value of Python that `json` writes. -/
abbrev PyValue : Type := { v : Json // Doubles v }

/-- The variables of `main` that a request changes. -/
structure LiveServer (B Pil : Type) where
  backend : B
  version : Text
  previous : Option Pil

namespace LiveServer

/-- The exceptions of a request. -/
inductive Exn
  | osError
  | raised (e : Raised)
  | other
  deriving DecidableEq

/-- `except (KeyError, ValueError, TypeError, OSError)`. -/
def Exn.Caught : Exn → Prop
  | .osError => True
  | .raised e => e = .keyError ∨ e = .valueError ∨ e = .typeError
  | .other => False

instance : (e : Exn) → Decidable e.Caught
  | .osError => inferInstanceAs (Decidable True)
  | .raised _ => inferInstanceAs (Decidable (_ ∨ _ ∨ _))
  | .other => inferInstanceAs (Decidable False)

/-- What a client gets: a body, an error status, or a connection that is closed. -/
inductive Response
  | body (bytes : List UInt8)
  | status (code : ℕ)
  | closed

/-- What the server is built from. -/
structure Runtime (B Pil Out : Type) where
  /-- `Image.open(..)` and `convert("RGB")`. -/
  opened : List UInt8 → Except Exn Pil
  /-- `set_motion_state`, of the backend that has it. -/
  setMotionState : Option (B → Json → Json → B × Option Exn)
  infer : B → InferInputs ℚ Pil → B × Except Exn (Out × List (Text × PyValue))
  /-- `np.asarray(.., dtype=np.float32)`. -/
  asarray : Out → Except Exn (NdArray PyDouble)
  /-- `str` of a value that is no string. -/
  repr : Json → Text
  dtoa : Dtoa
  /-- The text of bytes that are not plain UTF-8. -/
  otherText : List UInt8 → Option Text
  /-- The recursion levels that are left for `json`. -/
  levels : ℕ

variable {B Pil Out : Type} (rt : Runtime B Pil Out)

/-- The keys of `diagnostics`. -/
def diagnosticKeys : List String :=
  ["modality_id", "raw_response", "motion_history_samples", "motion_velocity", "motion_history_m"]

/-- The image and the text of a request. -/
def readRequest (request : Json) : Except Exn (Pil × Text) := do
  let data ← (subscript request "jpeg_base64").mapError .raised
  let jpeg ← (b64decode data).mapError .raised
  let current ← rt.opened jpeg
  let text ← (subscript request "text").mapError .raised
  pure (current, NavidaReply.toStr rt.repr text)

/-- `backend.set_motion_state(..)`, where there is one. -/
def setMotion (backend : B) (request : Json) : B × Option Exn :=
  match rt.setMotionState with
  | none => (backend, none)
  | some set =>
      match subscript request "pose_xyyaw", subscript request "velocity_vw" with
      | .ok pose, .ok velocity => set backend pose velocity
      | .error e, _ => (backend, some (.raised e))
      | _, .error e => (backend, some (.raised e))

/-- The items of a reply. -/
def replyOf (frameId : ℤ) (arr : NdArray PyDouble) (ms : PyFloat ℚ) (wall : PyDouble)
    (version : Text) (reported : List (Text × PyValue)) : Json :=
  .object [("frame_id".toList, .int frameId),
    ("embedding".toList, .list (arr.rows.map fun row => .list (row.map fun x => .float x.1))),
    ("inference_ms".toList, .float ms), ("server_wall_ms".toList, .float wall.1),
    ("model_version".toList, .str version),
    ("diagnostics".toList, .object (diagnosticKeys.filterMap fun key =>
      (field (reported.map fun f => (f.1, f.2.1)) key.toList).map fun v => (key.toList, v)))]

/-- The checks of the output, and the reply. -/
def payload (request : Json) (out : Out) (reported : List (Text × PyValue)) (wall : PyDouble)
    (version : Text) : Except Exn Json := do
  let arr ← rt.asarray out
  if arr.shape.length ≠ 2 ∨ arr.values = [] ∨ ∃ x ∈ arr.values, ¬ x.1.IsFinite then
    .error (.raised .valueError)
  else
    let id ← (subscript request "frame_id").mapError .raised
    let frameId ← (toInt id).mapError .raised
    let reportedMs ← (subscript (.object (reported.map fun f => (f.1, f.2.1)))
      "inference_ms").mapError .raised
    let ms ← (toFloat reportedMs).mapError .raised
    pure (replyOf frameId arr ms wall version reported)

variable (s : LiveServer B Pil)

/-- What the backend is given. -/
def inputs (current : Pil) (text : Text) : InferInputs ℚ Pil :=
  ⟨current, s.previous.getD current, String.ofList text, none, none⟩

/-- From the image on: the reply, and the server behind it. -/
def infer (request : Json) (wall : PyDouble) : LiveServer B Pil × Except Exn Json :=
  match readRequest rt request with
  | .error e => (s, .error e)
  | .ok (current, text) =>
      match setMotion rt s.backend request with
      | (backend, some e) => ({ s with backend }, .error e)
      | (backend, none) =>
          let inferred := rt.infer backend (s.inputs current text)
          match inferred.2 with
          | .error e => ({ s with backend := inferred.1 }, .error e)
          | .ok (out, reported) =>
              -- the image is the previous one now, even when the reply cannot be made of the output
              ({ s with backend := inferred.1, previous := some current },
                payload rt request out reported wall s.version)

/-- The end of a request that raised. -/
def refusal (e : Exn) : Response := if e.Caught then .status 400 else .closed

/-- `_send`. -/
def send (reply : Json) : Response :=
  match HttpBody.dumpsBody rt.dtoa rt.levels reply with
  | .error e => refusal (.raised e)
  | .ok body => .body body

/-- `do_POST` of `/infer`. -/
def doPost (bytes : List UInt8) (wall : PyDouble) : LiveServer B Pil × Response :=
  if bytes.length < 1 ∨ 2000000 < bytes.length then (s, .status 413)
  else
    match HttpBody.loadsBody rt.otherText rt.levels bytes with
    | .error e => (s, refusal (.raised e))
    | .ok request =>
        match s.infer rt request wall with
        | (s, .error e) => (s, refusal e)
        | (s, .ok reply) => (s, send rt reply)

/-- `do_POST` of `/reset`, with the backend that is built anew. -/
def reset (backend : B) (version : Text) : LiveServer B Pil := ⟨backend, version, none⟩

/-! ## What a request does -/

/-- The image of a request that the backend returned for. -/
def taken (request : Json) : Option Pil :=
  match readRequest rt request with
  | .error _ => none
  | .ok (current, text) =>
      match setMotion rt s.backend request with
      | (_, some _) => none
      | (backend, none) =>
          match (rt.infer backend (s.inputs current text)).2 with
          | .error _ => none
          | .ok _ => some current

/-- The image of a body that the backend returned for. -/
def takenPost (bytes : List UInt8) : Option Pil :=
  if bytes.length < 1 ∨ 2000000 < bytes.length then none
  else
    match HttpBody.loadsBody rt.otherText rt.levels bytes with
    | .error _ => none
    | .ok request => s.taken rt request

theorem infer_previous (request : Json) (wall : PyDouble) :
    (s.infer rt request wall).1.previous = (s.taken rt request).or s.previous := by
  unfold infer taken
  split
  · rfl
  · split
    · rfl
    · dsimp only
      split
      · next h => rw [h]; rfl
      · next h => rw [h]; rfl

/-- **The image that is kept** is that of the last request that the backend returned for. -/
theorem doPost_previous (bytes : List UInt8) (wall : PyDouble) :
    (s.doPost rt bytes wall).1.previous = (s.takenPost rt bytes).or s.previous := by
  unfold doPost takenPost
  split
  · rfl
  · split
    · rfl
    · next request _ =>
        rw [← s.infer_previous rt request wall]
        split
        · next h => rw [h]
        · next h => rw [h]

/-- What a request that is answered computes. -/
structure Computation (B Pil Out : Type) where
  current : Pil
  text : Text
  /-- The backend when it is asked. -/
  backend : B
  out : Out
  reported : List (Text × PyValue)
  arr : NdArray PyDouble
  numTokens : ℕ
  embedDim : ℕ
  frameId : ℤ
  ms : PyDouble

/-- The computation of the server for a request. -/
structure Computed (request : Json) (c : Computation B Pil Out) : Prop where
  read : readRequest rt request = .ok (c.current, c.text)
  motion : setMotion rt s.backend request = (c.backend, none)
  infer : (rt.infer c.backend (s.inputs c.current c.text)).2 = .ok (c.out, c.reported)
  asarray : rt.asarray c.out = .ok c.arr
  shape : c.arr.shape = [c.numTokens, c.embedDim]
  nonempty : c.arr.values ≠ []
  finite : ∀ x ∈ c.arr.values, x.1.IsFinite
  frameId : ∃ id, subscript request "frame_id" = .ok id ∧ toInt id = .ok c.frameId
  ms : ∃ v, subscript (.object (c.reported.map fun f => (f.1, f.2.1))) "inference_ms" = .ok v ∧
    toFloat v = .ok c.ms.1

/-- The reply of a computation. -/
def Computation.reply (c : Computation B Pil Out) (wall : PyDouble) (version : Text) : Json :=
  replyOf c.frameId c.arr c.ms.1 wall version c.reported

variable {rt s}

theorem mem_of_field {fields : List (Text × Json)} {key : Text} {v : Json}
    (h : field fields key = some v) : ∃ f ∈ fields, f.2 = v := by
  obtain ⟨f, hf, rfl⟩ := Option.map_eq_some_iff.mp h
  exact ⟨f, List.mem_reverse.mp (List.mem_of_find?_eq_some hf), rfl⟩

theorem doubles_of_field {reported : List (Text × PyValue)} {key : Text} {v : Json}
    (h : field (reported.map fun f => (f.1, f.2.1)) key = some v) : Doubles v := by
  obtain ⟨f, hf, rfl⟩ := mem_of_field h
  obtain ⟨g, -, rfl⟩ := List.mem_map.mp hf
  exact g.2.2

/-- A value that is found is one of an object. -/
theorem subscript_object {fields : List (Text × Json)} {key : String} {v : Json} :
    subscript (.object fields) key = .ok v ↔ field fields key.toList = some v := by
  unfold subscript
  dsimp only
  cases field fields key.toList with
  | none => simp
  | some v' => simp

/-- **A reply** is the one of a computation. -/
theorem computed_of_infer {request : Json} {wall : PyDouble} {s' : LiveServer B Pil} {reply : Json}
    (h : s.infer rt request wall = (s', .ok reply)) :
    ∃ c, s.Computed rt request c ∧ reply = c.reply wall s.version := by
  unfold infer at h
  split at h
  · cases h
  · next current text hread =>
      split at h
      · cases h
      · next backend hmotion =>
          dsimp only at h
          split at h
          · cases h
          · next out reported hinfer =>
              obtain ⟨-, h⟩ := Prod.mk.inj h
              obtain ⟨arr, harr, h⟩ := Except.of_bind_ok h
              split at h
              · cases h
              · next hchecks =>
                  -- the checks of the embedding have passed: two dimensions, not empty, all finite
                  rw [not_or, not_or, not_not] at hchecks
                  obtain ⟨hshape, hnonempty, hfinite⟩ := hchecks
                  obtain ⟨id, hid, h⟩ := Except.of_bind_ok h
                  obtain ⟨frameId, hframe, h⟩ := Except.of_bind_ok h
                  obtain ⟨v, hv, h⟩ := Except.of_bind_ok h
                  obtain ⟨ms, hms, h⟩ := Except.of_bind_ok h
                  cases h
                  rw [Except.mapError_eq_ok] at hid hframe hv hms
                  obtain ⟨n, dim, hdims⟩ := List.length_eq_two.mp hshape
                  have hdouble := doubles_toFloat (doubles_of_field (subscript_object.mp hv)) hms
                  refine ⟨⟨current, text, backend, out, reported, arr, n, dim, frameId,
                    ⟨ms, hdouble⟩⟩, ⟨hread, hmotion, hinfer, harr, hdims, hnonempty, ?_,
                    ⟨id, hid, hframe⟩, ⟨v, hv, hms⟩⟩, rfl⟩
                  intro x hx
                  by_contra hinf
                  exact hfinite ⟨x, hx, hinf⟩

/-- **A body that goes back** has the reply of a computation. -/
theorem computed_of_doPost {bytes body : List UInt8} {wall : PyDouble}
    (h : (s.doPost rt bytes wall).2 = .body body) :
    ∃ request c, HttpBody.loadsBody rt.otherText rt.levels bytes = .ok request ∧
      s.Computed rt request c ∧
      HttpBody.dumpsBody rt.dtoa rt.levels (c.reply wall s.version) = .ok body := by
  have hrefused {e : Exn} : refusal e ≠ .body body := by
    unfold refusal
    split <;> exact nofun
  unfold doPost at h
  split at h
  · cases h
  · split at h
    · exact absurd h hrefused
    · next request hrequest =>
        split at h
        · exact absurd h hrefused
        · next s' reply hinfer =>
            obtain ⟨c, hc, rfl⟩ := computed_of_infer hinfer
            refine ⟨request, c, hrequest, hc, ?_⟩
            have h : send rt (c.reply wall s.version) = .body body := h
            unfold send at h
            split at h
            · exact absurd h hrefused
            · next hbody =>
                cases h
                exact hbody

/-- The values of a reply are doubles. -/
theorem doubles_reply (c : Computation B Pil Out) (wall : PyDouble) (version : Text) :
    Doubles (c.reply wall version) := by
  refine .object fun f hf => ?_
  simp only [List.mem_cons, List.not_mem_nil, or_false] at hf
  rcases hf with rfl | rfl | rfl | rfl | rfl | rfl
  · exact .int _
  · refine .list fun v hv => ?_
    obtain ⟨row, -, rfl⟩ := List.mem_map.mp hv
    refine .list fun v hv => ?_
    obtain ⟨x, -, rfl⟩ := List.mem_map.mp hv
    exact x.2
  · exact c.ms.2
  · exact wall.2
  · exact .str _
  · refine .object fun f hf => ?_
    obtain ⟨key, -, hkey⟩ := List.mem_filterMap.mp hf
    obtain ⟨v, hv, rfl⟩ := Option.map_eq_some_iff.mp hkey
    exact doubles_of_field hv

end LiveServer
