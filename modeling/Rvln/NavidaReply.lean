/-
# The replies of the inference server

`infer` on whatever the HTTP call ends with, and the exceptions that leave
`_finish_request`.  An exception is its class; `str` of an exception of the libraries and
of a value that is no string are parameters.

`_finish_request` catches `OSError`, `ValueError`, `KeyError` and `TypeError` around the
result of `infer`, and nothing around `chunk_actions`.  `finish_eq_finishRequest` puts
this part under the executor's own `finishRequest`; `contract_iff` says for which replies
no exception is left over.
-/
import Rvln.NavidaSteps
import Rvln.WsMessage

namespace NavidaReply

open Json NavidaText

/-! ## The code -/

/-- The exceptions of this part. -/
inductive Exn
  /-- Refused, reset, timed out, or an error status. -/
  | osError
  /-- `http.client.HTTPException`, such as a body shorter than announced. -/
  | httpException
  | raised (e : Raised)
  | stepData (e : StepDataError)
  deriving DecidableEq

/-- `except (OSError, ValueError, KeyError, TypeError)`. -/
def Exn.Caught : Exn → Prop
  | .osError | .stepData _ => True
  | .httpException => False
  | .raised e => e = .valueError ∨ e = .keyError ∨ e = .typeError

instance : (e : Exn) → Decidable e.Caught
  | .osError | .stepData _ => inferInstanceAs (Decidable True)
  | .httpException => inferInstanceAs (Decidable False)
  | .raised _ => inferInstanceAs (Decidable (_ ∨ _ ∨ _))

/-- How the HTTP call ends: in an exception, or with the text of a body. -/
inductive HttpCall
  | fails (e : Exn)
  | body (text : Text)

section

variable {K : Type} [Field K] [LinearOrder K] [Trig K]

/-- The floats of the only token of an embedding. -/
def tokenValues (embedding : Json) : Except Exn (List (PyFloat ℚ)) := do
  let n ← (len embedding).mapError .raised
  if n ≠ 1 then .error (.stepData ⟨"expected exactly one NaVIDA primitive"⟩)
  else
    let row ← (head embedding).mapError .raised
    let vs ← (items row).mapError .raised
    (vs.mapM toFloat).mapError .raised

/-- A float as a number of the executor. -/
def castFloat : PyFloat ℚ → PyFloat K
  | .fin x => .fin x
  | .posInf => .posInf
  | .negInf => .negInf
  | .nan => .nan

/-- `decode_action` on floats. -/
def decode (values : List (PyFloat ℚ)) : Except StepDataError (NavidaAction K) :=
  StepCycle.decodeAction (values.map castFloat)

variable (repr : Json → Text)

/-- `str(value)`; `repr` is that of a value that is no string. -/
def toStr : Json → Text
  | .str s => s
  | v => repr v

/-- `infer`, from the parsed body on. -/
def readReply (result : Json) : Except Exn (Reply K) := do
  let embedding ← (subscript result "embedding").mapError .raised
  let values ← tokenValues embedding
  let action ← (decode values).mapError .stepData
  let frame ← (subscript result "frame_id").mapError .raised
  let frameId ← (toInt frame).mapError .raised
  let diagnostics ← (subscript result "diagnostics").mapError .raised
  let raw ← (subscript diagnostics "raw_response").mapError .raised
  pure ⟨frameId, action, toStr repr raw⟩

/-- `infer`, with the recursion levels that are left for `json.load`. -/
def infer (levels : ℕ) : HttpCall → Except Exn (Reply K)
  | .fails e => .error e
  | .body text => do
      let result ← (loads levels text).mapError .raised
      readReply repr result

/-- What is left of `_finish_request`: the node, the primitive that `accept` started, and
the exception that leaves it. -/
structure Finished (K Image Jpeg : Type) where
  world : World K Image Jpeg
  started : Option (NavidaAction K)
  raised : Option Exn

variable {Image Jpeg : Type} (describe : Exn → String)

/-- `str(exc)`; `describe` is that of an exception of the libraries. -/
def reasonOf : Exn → String
  | .stepData e => e.reason
  | e => describe e

/-- `_finish_request`, from the result of the future on. -/
def finish (w : World K Image Jpeg) (token : Request) (result : Except Exn (Reply K)) (now : K)
    (nowNs : ℤ) : Finished K Image Jpeg :=
  let w := { w with node := { w.node with future := none, requestToken := none } }
  match result with
  | .error e =>
      if e.Caught then ⟨w.requestFailed token (reasonOf describe e) now nowNs, none, none⟩
      else ⟨w, none, some e⟩
  | .ok reply =>
      if reply.frameId ≠ token.frameId then
        ⟨w.requestFailed token "reply frame ID mismatch" now nowNs, none, none⟩
      else
        let (c, started) := w.node.cycle.accept token reply.action now nowNs
        let w := w.setCycle c
        if started then
          let w := w.record (.replyStarted token reply)
          match chunkActions reply.rawResponse with
          -- the primitive is started, and the tick ends here
          | .error e => ⟨w, some reply.action, some (.raised e)⟩
          | .ok queue =>
              let w := { w with node := { w.node with queue := queue } }
              ⟨w.record (.event (.actionStarted token.frameId reply.action.distance
                (Trig.degrees reply.action.angle) reply.rawResponse)), some reply.action, none⟩
        else ⟨w.record (.event (.replyDiscarded token.frameId)), none, none⟩

end

/-! ## Under the executor's own model -/

section

variable {K : Type} [Field K] [LinearOrder K] [Trig K] {Image Jpeg : Type}

/-- A text that `chunk_actions` raises on. -/
def Unqueueable (raw : Text) : Prop := ∃ m ∈ (findall raw).drop 1, Unreadable m

/-- A text whose numbers can be read is queued. -/
theorem chunkActions_ok {raw : Text} (h : ¬ Unqueueable raw) :
    ∃ queue, chunkActions raw = (.ok queue : Except Raised (List (NavidaAction K))) :=
  ⟨_, Except.mapM_eq_ok fun m hm =>
    chunkAction_eq_ok.mpr ⟨fun hbad => h ⟨m, hm, hbad⟩, rfl⟩⟩

theorem chunkActions_error {raw : Text} (h : Unqueueable raw) :
    ∃ e, chunkActions raw = (.error e : Except Raised (List (NavidaAction K))) := by
  obtain ⟨m, hm, hbad⟩ := h
  cases hqueue : (chunkActions raw : Except Raised (List (NavidaAction K))) with
  | error e => exact ⟨e, rfl⟩
  | ok queue =>
      obtain ⟨a, -, ha⟩ := Except.exists_of_mapM_ok hqueue hm
      exact absurd hbad (chunkAction_eq_ok.mp ha).1

variable (describe : Exn → String)

/-- The result of `infer` as the executor's model has it. -/
def outcomeOf : Except Exn (Reply K) → HttpOutcome K
  | .error e => if e.Caught then .caught (reasonOf describe e) else .uncaught
  | .ok reply => .reply reply

/-- **The executor's own `finishRequest`** does the same. -/
theorem finish_eq_finishRequest {w : World K Image Jpeg} {token : Request}
    {result : Except Exn (Reply K)}
    (hfuture : w.node.future = some (.done (outcomeOf describe result)))
    (htoken : w.node.requestToken = some token) (now : K) (nowNs : ℤ) :
    w.finishRequest now nowNs =
      ((finish describe w token result now nowNs).world,
        (finish describe w token result now nowNs).raised.isSome) := by
  unfold World.finishRequest
  rw [hfuture, htoken]
  cases result with
  | error e =>
      unfold outcomeOf finish
      by_cases hcaught : e.Caught
      · simp only [if_pos hcaught]
        rfl
      · simp only [if_neg hcaught]
        rfl
  | ok reply =>
      show (if reply.frameId ≠ token.frameId then _ else _) = _
      unfold finish
      dsimp only
      split
      · rfl
      · unfold World.acceptReply
        dsimp only
        generalize w.node.cycle.accept token reply.action now nowNs = r
        obtain ⟨c, started⟩ := r
        cases started with
        | true =>
            cases (chunkActions reply.rawResponse : Except Raised (List (NavidaAction K))) with
            | error e => rfl
            | ok queue => rfl
        | false => rfl

end

/-! ## What `infer` raises -/

/-- The embedding holds one token, with these items. -/
def OneToken (embedding : Json) (row : List Json) : Prop :=
  len embedding = .ok 1 ∧ ∃ token, head embedding = .ok token ∧ items token = .ok row

/-- The first item that is no float is an integer beyond the floats. -/
def OverflowsAt (row : List Json) : Prop :=
  ∃ (before : List Json) (n : ℤ) (after : List Json), row = before ++ .int n :: after ∧
    TooLarge (n : ℚ) ∧ ∀ v ∈ before, ∃ x, toFloat v = .ok x

section

variable {α β : Type}

theorem subscript_caught (v : Json) (key : String) :
    ((subscript v key).mapError Exn.raised).RaisesOnly Exn.Caught := by
  rw [Except.raisesOnly_mapError]
  intro e he
  unfold subscript at he
  split at he
  · split at he
    · cases he
      exact .inr (.inl rfl)
    · cases he
  · cases he
    exact .inr (.inr rfl)

theorem len_caught (v : Json) : ((len v).mapError Exn.raised).RaisesOnly Exn.Caught := by
  rw [Except.raisesOnly_mapError]
  intro e he
  unfold len at he
  split at he
  · cases he
  · cases he
  · cases he
  · cases he
    exact .inr (.inr rfl)

theorem items_caught (v : Json) : ((items v).mapError Exn.raised).RaisesOnly Exn.Caught := by
  rw [Except.raisesOnly_mapError]
  intro e he
  unfold items at he
  split at he
  · cases he
  · cases he
  · cases he
  · cases he
    exact .inr (.inr rfl)

/-- A value of one item has a first one, or is an object. -/
theorem head_caught {v : Json} (h : len v = .ok 1) :
    ((head v).mapError Exn.raised).RaisesOnly Exn.Caught := by
  rw [Except.raisesOnly_mapError]
  intro e he
  unfold head at he
  split at he
  · cases h
  · cases he
  · cases h
  · cases he
  · cases he
    exact .inr (.inl rfl)
  · cases he
    exact .inr (.inr rfl)

/-- A double is infinite beyond the doubles. -/
theorem toDouble_cases (negative : Bool) (x : ℚ) :
    TooLarge x ∧ (toDouble negative |x| = .negInf ∨ toDouble negative |x| = .posInf) ∨
      ¬ TooLarge x ∧ ∃ y, toDouble negative |x| = .fin y := by
  unfold toDouble TooLarge
  dsimp only
  by_cases h : 2047 * 2 ^ 52 ≤ BinaryFloat.encode ⟨52, 1023⟩ |x|
  · rw [if_pos h]
    cases negative with
    | true => exact .inl ⟨h, .inl (if_pos rfl)⟩
    | false => exact .inl ⟨h, .inr (if_neg Bool.false_ne_true)⟩
  · rw [if_neg h]
    exact .inr ⟨h, _, rfl⟩

/-- `float` of an integer overflows beyond the doubles. -/
theorem floatOfInt_error {n : ℤ} {e : Raised} (h : floatOfInt n = .error e) :
    e = .overflowError ∧ TooLarge (n : ℚ) := by
  rw [floatOfInt_eq] at h
  dsimp only at h
  rcases toDouble_cases (decide (n < 0)) (n : ℚ) with ⟨hlarge, hinf⟩ | ⟨-, y, hfin⟩
  · rcases hinf with hinf | hinf
    · rw [hinf] at h
      cases h
      exact ⟨rfl, hlarge⟩
    · rw [hinf] at h
      cases h
      exact ⟨rfl, hlarge⟩
  · rw [hfin] at h
    cases h

theorem floatOfInt_of_tooLarge {n : ℤ} (h : TooLarge (n : ℚ)) :
    floatOfInt n = .error .overflowError := by
  rw [floatOfInt_eq]
  dsimp only
  rcases toDouble_cases (decide (n < 0)) (n : ℚ) with ⟨-, hinf | hinf⟩ | ⟨hsmall, -⟩
  · rw [hinf]
  · rw [hinf]
  · exact absurd h hsmall

theorem toFloat_error {v : Json} {e : Raised} (h : toFloat v = .error e) :
    (Exn.raised e).Caught ∨ e = .overflowError ∧ ∃ n : ℤ, v = .int n ∧ TooLarge (n : ℚ) := by
  unfold toFloat at h
  split at h
  · cases h
  · rename_i n
    obtain ⟨he, hlarge⟩ := floatOfInt_error h
    exact .inr ⟨he, n, rfl, hlarge⟩
  · cases h
  · split at h
    · cases h
      exact .inl (.inl rfl)
    · cases h
  · cases h
    exact .inl (.inr (.inr rfl))

theorem floats_caught {row : List Json} :
    ((row.mapM toFloat).mapError Exn.raised).RaisesOnly Exn.Caught ↔ ¬ OverflowsAt row := by
  rw [Except.raisesOnly_mapError]
  constructor
  · rintro h ⟨before, n, after, rfl, hlarge, hbefore⟩
    have herror : (before ++ .int n :: after).mapM toFloat = .error .overflowError :=
      Except.mapM_eq_error.mpr
        ⟨before, .int n, after, rfl, floatOfInt_of_tooLarge hlarge, hbefore⟩
    rcases h _ herror with he | he | he <;> cases he
  · intro h e he
    obtain ⟨before, v, after, rfl, hv, hbefore⟩ := Except.mapM_eq_error.mp he
    rcases toFloat_error hv with hcaught | ⟨-, n, rfl, hlarge⟩
    · exact hcaught
    · exact absurd ⟨before, n, after, rfl, hlarge, hbefore⟩ h

theorem toInt_caught {v : Json} :
    ((toInt v).mapError Exn.raised).RaisesOnly Exn.Caught ↔ ¬ EdgeActionWsNode.Infinite v := by
  rw [Except.raisesOnly_mapError]
  constructor
  · intro h hinf
    rcases h _ (EdgeActionWsNode.toInt_of_infinite hinf) with he | he | he <;> cases he
  · intro h e he
    rcases EdgeActionWsNode.toInt_error he with ⟨rfl, -⟩ | ⟨-, hinf⟩ | ⟨rfl, -⟩
    · exact .inl rfl
    · exact absurd hinf h
    · exact .inr (.inr rfl)

theorem tokenValues_ok {embedding : Json} {values : List (PyFloat ℚ)} :
    tokenValues embedding = .ok values ↔
      ∃ row, OneToken embedding row ∧ row.mapM toFloat = .ok values := by
  constructor
  · intro h
    obtain ⟨n, hn, h⟩ := Except.of_bind_ok h
    split at h
    · cases h
    · rename_i hone
      obtain ⟨token, htoken, h⟩ := Except.of_bind_ok h
      obtain ⟨row, hrow, h⟩ := Except.of_bind_ok h
      rw [Except.mapError_eq_ok] at hn htoken hrow h
      rw [not_not.mp hone] at hn
      exact ⟨row, ⟨hn, token, htoken, hrow⟩, h⟩
  · rintro ⟨row, ⟨hlen, token, htoken, hrow⟩, hvalues⟩
    unfold tokenValues
    refine Except.bind_eq_ok (Except.mapError_eq_ok.mpr hlen) ?_
    rw [if_neg (not_not.mpr rfl)]
    refine Except.bind_eq_ok (Except.mapError_eq_ok.mpr htoken) ?_
    refine Except.bind_eq_ok (Except.mapError_eq_ok.mpr hrow) ?_
    exact Except.mapError_eq_ok.mpr hvalues

theorem tokenValues_caught {embedding : Json} : (tokenValues embedding).RaisesOnly Exn.Caught ↔
    ∀ row, OneToken embedding row → ¬ OverflowsAt row := by
  unfold tokenValues
  rw [Except.raisesOnly_bind, and_iff_right (len_caught embedding)]
  constructor
  · rintro h row ⟨hlen, token, htoken, hrow⟩
    have hone := h 1 (Except.mapError_eq_ok.mpr hlen)
    rw [if_neg (not_not.mpr rfl), Except.raisesOnly_bind] at hone
    have hitems := hone.2 token (Except.mapError_eq_ok.mpr htoken)
    rw [Except.raisesOnly_bind] at hitems
    exact floats_caught.mp (hitems.2 row (Except.mapError_eq_ok.mpr hrow))
  · intro h n hn
    split
    · exact Except.raisesOnly_error.mpr trivial
    · rename_i hone
      have hlen : len embedding = .ok 1 := by
        rw [← not_not.mp hone]
        exact Except.mapError_eq_ok.mp hn
      rw [Except.raisesOnly_bind, and_iff_right (head_caught hlen)]
      intro token htoken
      rw [Except.raisesOnly_bind, and_iff_right (items_caught token)]
      intro row hrow
      exact floats_caught.mpr (h row ⟨hlen, token, Except.mapError_eq_ok.mp htoken,
        Except.mapError_eq_ok.mp hrow⟩)

end

/-! ## Whole replies -/

section

variable {K : Type} [Field K] [LinearOrder K] [Trig K] (repr : Json → Text)

/-- The reply carries exactly one token, and `decode_action` accepts it. -/
def CarriesToken (result : Json) (action : NavidaAction K) : Prop :=
  ∃ embedding row values, subscript result "embedding" = .ok embedding ∧
    OneToken embedding row ∧ row.mapM toFloat = .ok values ∧ decode values = .ok action

/-- The reply carries this frame id. -/
def CarriesFrame (result : Json) (frameId : ℤ) : Prop :=
  ∃ v, subscript result "frame_id" = .ok v ∧ toInt v = .ok frameId

/-- The reply carries this text. -/
def CarriesText (result : Json) (raw : Text) : Prop :=
  ∃ diagnostics v, subscript result "diagnostics" = .ok diagnostics ∧
    subscript diagnostics "raw_response" = .ok v ∧ raw = toStr repr v

/-- `float` or `int` meets a number that it cannot represent, and nothing before it is
wrong. -/
inductive Overflowing (K : Type) [Field K] [LinearOrder K] [Trig K] (result : Json) : Prop
  | token {embedding : Json} {row : List Json} : subscript result "embedding" = .ok embedding →
      OneToken embedding row → OverflowsAt row → Overflowing K result
  | frame {action : NavidaAction K} {v : Json} : CarriesToken result action →
      subscript result "frame_id" = .ok v → EdgeActionWsNode.Infinite v → Overflowing K result

/-- **A reply is returned** for a body that carries all three parts. -/
theorem readReply_ok {result : Json} {reply : Reply K} : readReply repr result = .ok reply ↔
    CarriesToken result reply.action ∧ CarriesFrame result reply.frameId ∧
      CarriesText repr result reply.rawResponse := by
  constructor
  · intro h
    obtain ⟨embedding, hembedding, h⟩ := Except.of_bind_ok h
    obtain ⟨values, hvalues, h⟩ := Except.of_bind_ok h
    obtain ⟨action, haction, h⟩ := Except.of_bind_ok h
    obtain ⟨v, hv, h⟩ := Except.of_bind_ok h
    obtain ⟨frameId, hframe, h⟩ := Except.of_bind_ok h
    obtain ⟨diagnostics, hdiagnostics, h⟩ := Except.of_bind_ok h
    obtain ⟨raw, hraw, h⟩ := Except.of_bind_ok h
    rw [Except.mapError_eq_ok] at hembedding haction hv hframe hdiagnostics hraw
    obtain ⟨row, hrow, hfloats⟩ := tokenValues_ok.mp hvalues
    cases h
    exact ⟨⟨embedding, row, values, hembedding, hrow, hfloats, haction⟩, ⟨v, hv, hframe⟩,
      diagnostics, raw, hdiagnostics, hraw, rfl⟩
  · obtain ⟨frameId, action, raw⟩ := reply
    rintro ⟨⟨embedding, row, values, hembedding, hrow, hfloats, haction⟩, ⟨v, hv, hframe⟩,
      diagnostics, rawValue, hdiagnostics, hraw, rfl⟩
    unfold readReply
    refine Except.bind_eq_ok (Except.mapError_eq_ok.mpr hembedding) ?_
    refine Except.bind_eq_ok (tokenValues_ok.mpr ⟨row, hrow, hfloats⟩) ?_
    refine Except.bind_eq_ok (Except.mapError_eq_ok.mpr haction) ?_
    refine Except.bind_eq_ok (Except.mapError_eq_ok.mpr hv) ?_
    refine Except.bind_eq_ok (Except.mapError_eq_ok.mpr hframe) ?_
    refine Except.bind_eq_ok (Except.mapError_eq_ok.mpr hdiagnostics) ?_
    exact Except.bind_eq_ok (Except.mapError_eq_ok.mpr hraw) rfl

/-- **What the parsing of a reply raises is caught**, short of the numbers that overflow. -/
theorem readReply_caught {result : Json} :
    (readReply repr result : Except Exn (Reply K)).RaisesOnly Exn.Caught ↔
      ¬ Overflowing K result := by
  unfold readReply
  rw [Except.raisesOnly_bind, and_iff_right (subscript_caught result "embedding")]
  constructor
  -- the reader gets as far as the number that overflows
  · rintro h (⟨hembedding, hrow, hover⟩ | ⟨⟨embedding, row, values, hembedding, hrow, hfloats,
      haction⟩, hv, hinf⟩)
    · have hvalues := h _ (Except.mapError_eq_ok.mpr hembedding)
      rw [Except.raisesOnly_bind] at hvalues
      exact tokenValues_caught.mp hvalues.1 _ hrow hover
    · have hvalues := h _ (Except.mapError_eq_ok.mpr hembedding)
      rw [Except.raisesOnly_bind] at hvalues
      have hdecode := hvalues.2 values (tokenValues_ok.mpr ⟨row, hrow, hfloats⟩)
      rw [Except.raisesOnly_bind] at hdecode
      have hframe := hdecode.2 _ (Except.mapError_eq_ok.mpr haction)
      rw [Except.raisesOnly_bind] at hframe
      have hint := hframe.2 _ (Except.mapError_eq_ok.mpr hv)
      rw [Except.raisesOnly_bind] at hint
      exact toInt_caught.mp hint.1 hinf
  · intro h embedding hembedding
    rw [Except.mapError_eq_ok] at hembedding
    rw [Except.raisesOnly_bind]
    refine ⟨tokenValues_caught.mpr fun row hrow hover => h (.token hembedding hrow hover), ?_⟩
    intro values hvalues
    obtain ⟨row, hrow, hfloats⟩ := tokenValues_ok.mp hvalues
    rw [Except.raisesOnly_bind, Except.raisesOnly_mapError]
    refine ⟨fun _ _ => trivial, ?_⟩
    intro action haction
    rw [Except.raisesOnly_bind, and_iff_right (subscript_caught result "frame_id")]
    intro v hv
    rw [Except.mapError_eq_ok] at haction hv
    rw [Except.raisesOnly_bind]
    refine ⟨toInt_caught.mpr fun hinf => h (.frame
      ⟨embedding, row, values, hembedding, hrow, hfloats, haction⟩ hv hinf), ?_⟩
    intro frameId hframe
    rw [Except.raisesOnly_bind, and_iff_right (subscript_caught result "diagnostics")]
    intro diagnostics hdiagnostics
    rw [Except.raisesOnly_bind, and_iff_right (subscript_caught diagnostics "raw_response")]
    exact fun raw hraw => Except.raisesOnly_ok _

end

/-! ## The end of a request -/

section

variable {K : Type} [Field K] [LinearOrder K] [Trig K]

/-- The cycle takes an answer to this request, and its primitive. -/
structure Startable (c : StepCycle K) (token : Request) (now : K) (nowNs : ℤ) : Prop where
  pending : c.pending = some token
  generation : token.generation = c.generation
  fresh : nowNs - token.captureNs ≤ 1500000000
  running : c.stopped = false
  pose : c.pose.isNone = false
  odometry : c.odomStale now = false

omit [Trig K] in
theorem start_started {c : StepCycle K} {action : NavidaAction K} {now : K} {nowNs : ℤ} :
    (c.start action now nowNs).2 = true ↔
      c.stopped = false ∧ c.pose.isNone = false ∧ c.odomStale now = false := by
  have hready : (c.stopped || c.pose.isNone || c.odomStale now) = false ↔
      c.stopped = false ∧ c.pose.isNone = false ∧ c.odomStale now = false := by
    rw [Bool.or_eq_false_iff, Bool.or_eq_false_iff, and_assoc]
  rw [← hready]
  unfold StepCycle.start
  split
  · rename_i hrefused
    rw [hrefused]
    exact iff_of_false Bool.false_ne_true Bool.noConfusion
  · rename_i hrun
    refine iff_of_true ?_ (Bool.eq_false_iff.mpr hrun)
    split
    · rfl
    · rfl

omit [Trig K] in
theorem accept_started {c : StepCycle K} {token : Request} {action : NavidaAction K} {now : K}
    {nowNs : ℤ} : (c.accept token action now nowNs).2 = true ↔ Startable c token now nowNs := by
  unfold StepCycle.accept
  split
  · rename_i hother
    refine ⟨nofun, fun h => ?_⟩
    rcases hother with hother | hother
    · exact absurd h.pending.symm hother
    · exact absurd h.generation hother
  · rename_i hown
    rw [not_or, not_not, not_not] at hown
    dsimp only
    split
    · rename_i hexpired
      exact ⟨nofun, fun h => absurd hexpired (not_lt.mpr h.fresh)⟩
    · rename_i hfresh
      rw [start_started]
      constructor
      · rintro ⟨hrunning, hpose, hodometry⟩
        exact ⟨hown.1.symm, hown.2, not_lt.mp hfresh, hrunning, hpose, hodometry⟩
      · exact fun h => ⟨h.running, h.pose, h.odometry⟩

/-- The three ways a request ends: the primitive that the reply carries is started, the
reply is discarded, or a fault is latched. -/
inductive Ends (c : StepCycle K) (token : Request) (carried : NavidaAction K → Prop) (now : K)
    (nowNs : ℤ) : StepCycle K → Option (NavidaAction K) → Prop
  | starts {action : NavidaAction K} {c' : StepCycle K} : carried action →
      c.accept token action now nowNs = (c', true) → Ends c token carried now nowNs c' (some action)
  | discards {c' : StepCycle K} : c' = c ∨ c' = { c with pending := none } →
      Ends c token carried now nowNs c' none
  | faults {c' : StepCycle K} : c'.stopped = true → c'.fault.isSome = true → c'.action = none →
      Ends c token carried now nowNs c' none

variable (repr : Json → Text) (levels : ℕ)

/-- The reply to the request carries this primitive, with this text. -/
def Carries (call : HttpCall) (frameId : ℤ) (action : NavidaAction K) (raw : Text) : Prop :=
  ∃ text result, call = .body text ∧ loads levels text = .ok result ∧
    CarriesToken result action ∧ CarriesFrame result frameId ∧ CarriesText repr result raw

/-- What `infer` raises and nothing catches. -/
inductive Uncaught (K : Type) [Field K] [LinearOrder K] [Trig K] (levels : ℕ) : HttpCall → Prop
  /-- The client raises an error of its own, such as one about a truncated body. -/
  | client {e : Exn} : ¬ e.Caught → Uncaught K levels (.fails e)
  /-- The body opens too many brackets. -/
  | nested {text : Text} : loads levels text = .error .recursionError →
      Uncaught K levels (.body text)
  /-- A number of the reply overflows. -/
  | overflow {text : Text} {result : Json} : loads levels text = .ok result →
      Overflowing K result → Uncaught K levels (.body text)

theorem infer_caught {call : HttpCall} :
    (infer repr levels call : Except Exn (Reply K)).RaisesOnly Exn.Caught ↔
      ¬ Uncaught K levels call := by
  cases call with
  | fails e =>
      show Except.RaisesOnly _ (.error e) ↔ _
      rw [Except.raisesOnly_error]
      constructor
      · rintro h ⟨hnot⟩
        exact hnot h
      · exact fun h => not_not.mp fun hnot => h (.client hnot)
  | body text =>
      show Except.RaisesOnly _ (_ >>= _) ↔ _
      rw [Except.raisesOnly_bind, Except.raisesOnly_mapError]
      constructor
      · rintro ⟨hloads, hread⟩ (_ | hnested | ⟨hresult, hover⟩)
        · rcases hloads _ hnested with he | he | he <;> cases he
        · exact (readReply_caught repr).mp (hread _ (Except.mapError_eq_ok.mpr hresult)) hover
      · intro h
        refine ⟨fun e he => ?_, fun result hresult => ?_⟩
        · rcases loads_error he with rfl | ⟨rfl, -⟩
          · exact .inl rfl
          · exact absurd (.nested he) h
        · rw [Except.mapError_eq_ok] at hresult
          exact (readReply_caught repr).mpr fun hover => h (.overflow hresult hover)

theorem infer_ok {call : HttpCall} {reply : Reply K} : infer repr levels call = .ok reply ↔
    Carries repr levels call reply.frameId reply.action reply.rawResponse := by
  cases call with
  | fails e =>
      refine ⟨nofun, ?_⟩
      rintro ⟨text, result, hcall, -⟩
      cases hcall
  | body text =>
      constructor
      · intro h
        obtain ⟨result, hresult, h⟩ := Except.of_bind_ok h
        exact ⟨text, result, rfl, Except.mapError_eq_ok.mp hresult, (readReply_ok repr).mp h⟩
      · rintro ⟨text', result, hcall, hresult, hcarries⟩
        cases hcall
        exact Except.bind_eq_ok (Except.mapError_eq_ok.mpr hresult)
          ((readReply_ok repr).mpr hcarries)

variable {Image Jpeg : Type} (describe : Exn → String) (w : World K Image Jpeg)
  (token : Request) (now : K) (nowNs : ℤ)

/-- The calls after which an exception is left over. -/
inductive Escapes (call : HttpCall) : Prop
  | uncaught : Uncaught K levels call → Escapes call
  /-- The primitive is started, and the rest of its text cannot be queued. -/
  | queue {action : NavidaAction K} {raw : Text} :
      Carries repr levels call token.frameId action raw → Startable w.node.cycle token now nowNs →
      Unqueueable raw → Escapes call

/-- No exception is left over, and the request ends in one of the three ways. -/
def Contract (call : HttpCall) : Prop :=
  let r := finish describe w token (infer repr levels call) now nowNs
  r.raised = none ∧
    Ends w.node.cycle token (fun action => ∃ raw, Carries repr levels call token.frameId action raw)
      now nowNs r.world.node.cycle r.started

variable {w token now nowNs}

omit [Trig K] in
/-- A request that fails stops the cycle, unless another generation runs by now. -/
theorem requestFailed_ends (carried : NavidaAction K → Prop) (reason : String) :
    Ends w.node.cycle token carried now nowNs
      (World.requestFailed { w with node := { w.node with future := none, requestToken := none } }
        token reason now nowNs).node.cycle none := by
  unfold World.requestFailed
  by_cases h : token.generation = w.node.cycle.generation
  · rw [if_pos h]
    simp only [World.record_node, World.setCycle_node]
    exact .faults rfl rfl rfl
  · rw [if_neg h]
    exact .discards (.inl rfl)

omit [Trig K] in
/-- A reply that does not start its primitive is discarded, or comes too late. -/
theorem accept_ends {c c' : StepCycle K} {action : NavidaAction K}
    (h : c.accept token action now nowNs = (c', false)) (carried : NavidaAction K → Prop) :
    Ends c token carried now nowNs c' none := by
  have hcases := StepCycle.accept_cases c token action now nowNs
  generalize c.accept token action now nowNs = r at h hcases
  cases hcases with
  | discarded =>
      cases h
      exact .discards (.inl rfl)
  | expired =>
      cases h
      exact .faults rfl rfl rfl
  | started hstarted =>
      cases hstarted with
      | refused =>
          cases h
          exact .discards (.inr rfl)
      | settles => cases h
      | engaged => cases h

theorem infer_carried {call : HttpCall} {frameId : ℤ} {action : NavidaAction K} {raw : Text}
    (h : Carries repr levels call frameId action raw) :
    infer repr levels call = .ok (⟨frameId, action, raw⟩ : Reply K) :=
  (infer_ok repr levels).mpr h

/-- The parts of a reply are those that the call carries. -/
theorem infer_unique {call : HttpCall} {reply : Reply K} {frameId : ℤ} {action : NavidaAction K}
    {raw : Text} (h : infer repr levels call = .ok reply)
    (hcarries : Carries repr levels call frameId action raw) :
    reply = ⟨frameId, action, raw⟩ := by
  have hreply := infer_carried repr levels hcarries
  rw [h] at hreply
  exact Except.ok.inj hreply

/-- An exception of `infer` fails the request, or is left over. -/
theorem contract_of_error {call : HttpCall} {e : Exn}
    (h : infer repr levels call = (.error e : Except Exn (Reply K))) :
    Contract repr levels describe w token now nowNs call ↔ e.Caught := by
  unfold Contract
  rw [h]
  unfold finish
  dsimp only
  by_cases hcaught : e.Caught
  · rw [if_pos hcaught]
    exact iff_of_true ⟨rfl, requestFailed_ends _ _⟩ hcaught
  · rw [if_neg hcaught]
    exact iff_of_false (fun hquiet => nomatch hquiet.1) hcaught

/-- A reply is turned down, or its primitive starts and the rest of its text is queued. -/
theorem contract_of_reply {call : HttpCall} {reply : Reply K}
    (h : infer repr levels call = .ok reply) :
    Contract repr levels describe w token now nowNs call ↔
      ¬ (reply.frameId = token.frameId ∧ Startable w.node.cycle token now nowNs ∧
        Unqueueable reply.rawResponse) := by
  have hcarries := (infer_ok repr levels).mp h
  unfold Contract
  rw [h]
  unfold finish
  dsimp only
  by_cases hframe : reply.frameId = token.frameId
  · rw [if_neg (not_not.mpr hframe)]
    rw [hframe] at hcarries
    cases haccept : w.node.cycle.accept token reply.action now nowNs with
    | mk c started =>
        have hstarted : started = true ↔ Startable w.node.cycle token now nowNs := by
          rw [← accept_started, haccept]
        cases started with
        | false =>
            refine iff_of_true ⟨rfl, ?_⟩ fun hbad => Bool.false_ne_true (hstarted.mpr hbad.2.1)
            simp only [Bool.false_eq_true, if_false, World.record_node, World.setCycle_node]
            exact accept_ends haccept _
        | true =>
            -- the primitive has started; only the queue can still raise
            by_cases hraw : Unqueueable reply.rawResponse
            · obtain ⟨e, he⟩ := chunkActions_error (K := K) hraw
              rw [he]
              exact iff_of_false (fun hquiet => nomatch hquiet.1)
                (not_not.mpr ⟨hframe, hstarted.mp rfl, hraw⟩)
            · obtain ⟨queue, hqueue⟩ := chunkActions_ok (K := K) hraw
              rw [hqueue]
              refine iff_of_true ⟨rfl, ?_⟩ fun hbad => hraw hbad.2.2
              simp only [World.record_node, World.setCycle_node, if_true]
              exact .starts ⟨_, hcarries⟩ haccept
  · rw [if_pos hframe]
    exact iff_of_true ⟨rfl, requestFailed_ends _ _⟩ fun hbad => hframe hbad.1

/-- **No reply crashes the executor**, short of the ones whose exceptions are not caught. -/
theorem contract_iff (call : HttpCall) : Contract repr levels describe w token now nowNs call ↔
    ¬ Escapes repr levels w token now nowNs call := by
  cases h : (infer repr levels call : Except Exn (Reply K)) with
  | error e =>
      rw [contract_of_error repr levels describe h]
      constructor
      · rintro hcaught (huncaught | ⟨hcarries, -, -⟩)
        · refine (infer_caught repr levels).mp (fun e' he => ?_) huncaught
          rw [h] at he
          cases he
          exact hcaught
        · rw [infer_carried repr levels hcarries] at h
          cases h
      · intro hquiet
        exact (infer_caught repr levels).mpr (fun huncaught => hquiet (.uncaught huncaught)) e h
  | ok reply =>
      have hcarries := (infer_ok repr levels).mp h
      have hparsed : ¬ Uncaught K levels call := by
        refine (infer_caught (K := K) repr levels).mp fun e he => ?_
        rw [h] at he
        cases he
      rw [contract_of_reply repr levels describe h]
      refine not_congr ⟨?_, ?_⟩
      · rintro ⟨hframe, hready, hraw⟩
        rw [hframe] at hcarries
        exact .queue hcarries hready hraw
      · rintro (huncaught | ⟨hcarries', hready, hraw⟩)
        · exact absurd huncaught hparsed
        · rw [infer_unique repr levels h hcarries']
          exact ⟨rfl, hready, hraw⟩

end

open NavidaStepBridge in
/-- A body that is shorter than announced, and a frame ID that is infinite, after the
executor's first request. -/
theorem truncated_reply_escapes :
    ∃ w : World ℚ Unit Unit, (machine (1 / 10) (35 / 100)).Run firstRequest w ∧
      w.node.requestToken = some ⟨1, 1, 1650000000⟩ ∧ w.node.powerState = .ready ∧
      ¬ Contract (fun _ => []) 900 (fun _ => "") w ⟨1, 1, 1650000000⟩ (37 / 20) 1850000000
        (.fails .httpException) ∧
      ¬ Contract (fun _ => []) 900 (fun _ => "") w ⟨1, 1, 1650000000⟩ (37 / 20) 1850000000
        (.body ("\x7b\"embedding\": [[0.25, 0, 1, 0]], \"frame_id\": Infinity, " ++
          "\"diagnostics\": \x7b\"raw_response\": \"forward 25\"\x7d\x7d").toList) := by
  have hrun : (machine (1 / 10) (35 / 100)).Run firstRequest
      ((machine (1 / 10) (35 / 100)).exec switchedOn firstRequest) :=
    Machine.run_of_enabled init_switchedOn (by decide +kernel)
  refine ⟨_, hrun, by decide +kernel, by decide +kernel, ?_, ?_⟩
  · exact fun h => nomatch h.1
  · intro h
    have hquiet := h.1
    revert hquiet
    decide +kernel

end NavidaReply
