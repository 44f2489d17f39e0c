/-
# The text feature of the browser's engine

`OmniVlaEngine` of `engine.ts` with `OrtRunner` and `ClipTokenizer`, under the
tick and the goal change of `VlaApp.tsx`.

`init` loads the policy, the text encoder and the vocabulary, one after the
other; ticks may run at any time.  `textFeatures` keeps the last feature by its
text.  Before the vocabulary is there it keeps the zero feature, and a later
tick for the same text finds that: `own_feature_iff` says in which runs no chunk
of the model comes of it.

What a session computes, and what the tokenizer makes of a text, are parameters.
-/
import Mathlib.Algebra.Order.Ring.Rat
import Mathlib.Tactic.NormNum
import Rvln.Machine

namespace TextFeature

/-! ## Features -/

/-- A number of a `Float32Array`; `none` if it is not finite. -/
abbrev Value : Type := Option ℚ

/-- `OmniVlaConfig`. -/
def clipTextDim : ℕ := 512

def lenTrajPred : ℕ := 8

def actionDim : ℕ := 4

/-- The zero feature. -/
def zeroFeature : List Value := List.replicate clipTextDim (some 0)

/-- What is loaded: the tokenizer's vocabulary and the encoder's session. -/
structure Models where
  tokenize : String → List ℤ
  eotToken : ℤ
  run : List ℤ → ℕ → List Value

namespace Models

/-- The position of the EOT token. -/
def eotIndex (m : Models) (tokens : List ℤ) : ℕ :=
  (tokens.idxOf? m.eotToken).getD (tokens.length - 1)

/-- The feature the encoder produces for a text; `textFeatures` has a text of its own
for the empty one. -/
def feature (m : Models) (text : String) : List Value :=
  let tokens := m.tokenize (if text.length = 0 then "xxxx" else text)
  m.run tokens (m.eotIndex tokens)

end Models

/-- `isSane`. -/
def isSane (out : List Value) : Bool :=
  out.all fun x =>
    match x with
    | none => false
    | some q => decide (|q| ≤ 10000)

/-- The guard of `inferChunk` on what the model returns. -/
def fromModel (out : List Value) : Bool :=
  out.length = lenTrajPred * actionDim && isSane out

/-! ## The engine -/

/-- The attributes of the engine that the text feature depends on: the sessions and
the vocabulary, and the kept feature. -/
structure Engine where
  model : Bool
  text : Bool
  ready : Bool
  textCacheKey : Option String
  textCacheFeat : Option (List Value)

/-- Where an inference is suspended. -/
inductive Phase
  /-- `encodeText` is awaited, and this is what it will return. -/
  | encoding (encoded : Option (List Value))
  /-- `textFeatures` has returned, and the inference has not gone on yet. -/
  | featured (feat : List Value)
  /-- The session of the policy runs. -/
  | running (feat : List Value)

namespace Engine

/-- A new engine. -/
def new : Engine where
  model := false
  text := false
  ready := false
  textCacheKey := none
  textCacheFeat := none

/-- `textEncoderReady`. -/
def textEncoderReady (e : Engine) : Bool := e.text && e.ready

/-- `reset`. -/
def reset (e : Engine) : Engine :=
  { e with textCacheKey := none, textCacheFeat := none }

/-- The test for a kept feature. -/
def lookup (e : Engine) (text : String) : Option (List Value) :=
  if e.textCacheKey = some text then e.textCacheFeat else none

/-- Keep a feature. -/
def store (e : Engine) (text : String) (feat : List Value) : Engine :=
  { e with textCacheKey := some text, textCacheFeat := some feat }

/-- `encodeText` for a text. -/
def encodeText (m : Models) (e : Engine) (text : String) : Option (List Value) :=
  if e.text then some (m.feature text) else none

/-- `textFeatures`, up to its `await`. -/
def textFeatures (m : Models) (e : Engine) (text : String) : Engine × Phase :=
  match e.lookup text with
  | some feat => (e, .featured feat)
  | none =>
      if e.ready then (e, .encoding (e.encodeText m text))
      else (e.store text zeroFeature, .featured zeroFeature)

/-- `textFeatures`, after its `await`: what it keeps and returns. -/
def encodedFeature (encoded : Option (List Value)) : List Value :=
  match encoded with
  | some feat => if feat.length = clipTextDim then feat else zeroFeature
  | none => zeroFeature

end Engine

/-! ## The app -/

/-- `GoalMode`. -/
inductive GoalMode
  | text
  | pose
  | image
  deriving DecidableEq

/-- What the text feature depends on in a goal. -/
structure Goal where
  mode : GoalMode
  text : String
  deriving DecidableEq

/-- The text `inferChunk` takes of a goal. -/
def Goal.prompt (goal : Goal) : String :=
  if goal.mode = .text then goal.text else ""

/-- How far `init` has come. -/
inductive Stage
  | runtime
  | model
  | text
  | tokenizer
  | done
  deriving DecidableEq

/-- What the history has: goal changes, and ticks with whether the vocabulary was
loaded. -/
inductive Act
  | goalSet
  | tickStarted (ready : Bool)
  deriving DecidableEq

/-- Since the newest goal change, a tick started before the vocabulary was loaded. -/
def earlyTick : List Act → Bool
  | [] => false
  | .goalSet :: _ => false
  | .tickStarted ready :: older => !ready || earlyTick older

/-- An inference: the text of its goal, whether encoder and tokenizer were ready when
it started, and whether an early tick came before it. -/
structure Inference where
  text : String
  startedReady : Bool
  early : Bool
  phase : Phase

/-- A chunk, with the inference's record and the feature it was computed with. -/
structure Chunk where
  text : String
  startedReady : Bool
  fromModel : Bool
  feat : List Value

/-- The engine and its `init`, the goal, the inference in flight, the chunks, and the
history. -/
structure World where
  engine : Engine
  stage : Stage
  goal : Option Goal
  busy : Bool
  inference : Option Inference
  chunks : List Chunk
  trace : List Act

namespace World

/-- The page when it comes up. -/
def new : World where
  engine := .new
  stage := .runtime
  goal := none
  busy := false
  inference := none
  chunks := []
  trace := []

/-- `init`, its next step; `ok` says whether what it loads is there. -/
def init (w : World) (ok : Bool) : World :=
  match w.stage with
  | .runtime => { w with stage := if ok then .model else .done }
  | .model => { w with engine := { w.engine with model := ok }, stage := .text }
  | .text => { w with engine := { w.engine with text := ok }, stage := .tokenizer }
  | .tokenizer => { w with engine := { w.engine with ready := ok }, stage := .done }
  | .done => w

/-- `handleGoal`. -/
def setGoal (w : World) (goal : Goal) : World :=
  { w with engine := w.engine.reset, goal := some goal, trace := .goalSet :: w.trace }

/-- `tick` and `inferChunk`, up to the `await` of `textFeatures`. -/
def tick (m : Models) (w : World) (frameReady : Bool) : World :=
  match w.goal with
  | none => w
  | some goal =>
      if w.busy ∨ frameReady = false then w
      else
        let (engine, phase) := w.engine.textFeatures m goal.prompt
        { w with
          engine := engine
          busy := true
          inference := some ⟨goal.prompt, w.engine.textEncoderReady, earlyTick w.trace, phase⟩
          trace := .tickStarted w.engine.ready :: w.trace }

/-- `encodeText` has returned. -/
def encoded (w : World) : World :=
  match w.inference with
  | some ⟨text, startedReady, early, .encoding encoded⟩ =>
      let feat := Engine.encodedFeature encoded
      { w with
        engine := w.engine.store text feat
        inference := some ⟨text, startedReady, early, .featured feat⟩ }
  | _ => w

/-- The inference ends, with a chunk. -/
def finish (w : World) (chunk : Chunk) : World :=
  { w with busy := false, inference := none, chunks := chunk :: w.chunks }

/-- `inferChunk`, from `textFeatures` to `runModel`; without a session the chunk is a
dummy. -/
def runModel (w : World) : World :=
  match w.inference with
  | some ⟨text, startedReady, early, .featured feat⟩ =>
      if w.engine.model then
        { w with inference := some ⟨text, startedReady, early, .running feat⟩ }
      else w.finish ⟨text, startedReady, false, feat⟩
  | _ => w

/-- `runModel` has returned. -/
def modelDone (w : World) (out : List Value) : World :=
  match w.inference with
  | some ⟨text, startedReady, _, .running feat⟩ =>
      w.finish ⟨text, startedReady, fromModel out, feat⟩
  | _ => w

/-- A session has thrown. -/
def failed (w : World) : World :=
  { w with busy := false, inference := none }

end World

/-! ## Runs -/

/-- What the user does, and what the event loop does next. -/
inductive Event
  | init (ok : Bool)
  /-- `init` throws. -/
  | initFailed
  | setGoal (goal : Goal)
  | tick (frameReady : Bool)
  | encoded
  | runModel
  | modelDone (out : List Value)
  | failed

/-- The step of an event. -/
def step (m : Models) (w : World) : Event → World
  | .init ok => w.init ok
  | .initFailed => { w with stage := .done }
  | .setGoal goal => w.setGoal goal
  | .tick frameReady => w.tick m frameReady
  | .encoded => w.encoded
  | .runModel => w.runModel
  | .modelDone out => w.modelDone out
  | .failed => w.failed

/-- The engine under any interleaving; a callback goes on when it is due. -/
def machine (m : Models) : Machine World Event where
  Init w := w = World.new
  Guard w
    | .init _ | .initFailed => w.stage ≠ .done
    | .encoded => ∃ inf ∈ w.inference, ∃ encoded, inf.phase = .encoding encoded
    | .runModel => ∃ inf ∈ w.inference, ∃ feat, inf.phase = .featured feat
    | .modelDone _ => ∃ inf ∈ w.inference, ∃ feat, inf.phase = .running feat
    | .failed => ∃ inf ∈ w.inference, ∀ feat, inf.phase ≠ .featured feat
    | _ => True
  next := step m

/-! ## The law -/

/-- A chunk of the model whose inference started ready has the encoder's feature of
its text. -/
def OwnFeature (m : Models) (w : World) : Prop :=
  ∀ chunk ∈ w.chunks, chunk.fromModel = true → chunk.startedReady = true →
    chunk.feat = m.feature chunk.text

/-- The model's chunk is not of an inference that started ready after an early tick,
unless the encoder's feature is zero too. -/
def NoEarlyTick (m : Models) (w : World) : Event → Prop
  | .modelDone out => ∀ inf ∈ w.inference, fromModel out = true → inf.startedReady = true →
      inf.early = true → m.feature inf.text = zeroFeature
  | _ => True

/-! ## What the engine keeps -/

namespace Engine

variable {e : Engine} {text : String}

theorem lookup_reset (e : Engine) (text : String) : e.reset.lookup text = none := by
  unfold lookup
  split <;> rfl

theorem lookup_store (e : Engine) (text : String) (feat : List Value) :
    (e.store text feat).lookup text = some feat :=
  if_pos rfl

/-- One feature is kept. -/
theorem eq_of_lookup_store {feat : List Value} {text' : String} {feat' : List Value}
    (h : (e.store text feat).lookup text' = some feat') : text' = text ∧ feat' = feat := by
  unfold lookup at h
  split at h
  · next hkey => exact ⟨(Option.some.inj hkey).symm, (Option.some.inj h).symm⟩
  · cases h

end Engine

/-- What an inference owes to the engine's state and to what came before it. -/
def Inference.Ok (m : Models) (w : World) (inf : Inference) : Prop :=
  (inf.startedReady = true → w.engine.text = true ∧ w.engine.ready = true) ∧
    match inf.phase with
    | .encoding encoded => w.engine.ready = true ∧ earlyTick w.trace = false ∧
        inf.early = false ∧ encoded = w.engine.encodeText m inf.text
    | .featured feat | .running feat => inf.startedReady = true →
        feat = if inf.early then zeroFeature else m.feature inf.text

/-- The invariant of the runs under the condition. -/
structure Inv (m : Models) (w : World) : Prop where
  law : OwnFeature m w
  done : w.engine.ready = true → w.stage = .done
  unready : w.engine.ready = false → earlyTick w.trace = false →
    ∀ text, w.engine.lookup text = none
  early : earlyTick w.trace = true →
    ∃ goal ∈ w.goal, w.engine.lookup goal.prompt = some zeroFeature
  kept : w.engine.ready = true → w.engine.text = true → earlyTick w.trace = false →
    ∀ text feat, w.engine.lookup text = some feat → feat = m.feature text
  idle : w.busy = false → w.inference = none
  inference : ∀ inf ∈ w.inference, inf.Ok m w

variable {m : Models} {w : World}

theorem inv_new (m : Models) : Inv m World.new where
  law _ hmem := absurd hmem List.not_mem_nil
  done h := by cases h
  unready _ _ text := by
    unfold Engine.lookup
    split <;> rfl
  early h := by cases h
  kept h := by cases h
  idle _ := rfl
  inference _ hinf := by cases hinf

/-- Something is loaded while the vocabulary is not: nothing is kept that counts. -/
theorem Inv.load (h : Inv m w) (hready : w.engine.ready = false) {engine : Engine} {stage : Stage}
    (hlookup : ∀ text, engine.lookup text = w.engine.lookup text)
    (hdone : engine.ready = true → stage = .done) :
    Inv m { w with engine := engine, stage := stage } where
  law := h.law
  done := hdone
  unready _ hearly text := (hlookup text).trans (h.unready hready hearly text)
  early hearly := by
    obtain ⟨goal, hgoal, hzero⟩ := h.early hearly
    exact ⟨goal, hgoal, (hlookup goal.prompt).trans hzero⟩
  kept _ _ hearly text feat hkept := by
    rw [hlookup, h.unready hready hearly text] at hkept
    cases hkept
  idle := h.idle
  inference inf hinf := by
    obtain ⟨hstarted, hphase⟩ := h.inference inf hinf
    have hnot : inf.startedReady ≠ true := fun hs => by
      cases hready.symm.trans (hstarted hs).2
    refine ⟨fun hs => absurd hs hnot, ?_⟩
    cases hp : inf.phase <;> simp only [hp] at hphase ⊢
    · cases hready.symm.trans hphase.1
    · exact fun hs => absurd hs hnot
    · exact fun hs => absurd hs hnot

/-- The next step of `init`. -/
theorem Inv.init (h : Inv m w) (ok : Bool) : Inv m (w.init ok) := by
  have hready : w.stage ≠ .done → w.engine.ready = false := by
    intro hstage
    rw [← Bool.not_eq_true]
    exact fun hr => hstage (h.done hr)
  unfold World.init
  split
  · next hs =>
      have hr := hready (by rw [hs]; decide)
      exact h.load hr (fun _ => rfl) fun ht => by cases hr.symm.trans ht
  · next hs =>
      have hr := hready (by rw [hs]; decide)
      exact h.load hr (fun _ => rfl) fun ht => by cases hr.symm.trans ht
  · next hs =>
      have hr := hready (by rw [hs]; decide)
      exact h.load hr (fun _ => rfl) fun ht => by cases hr.symm.trans ht
  · next hs =>
      have hr := hready (by rw [hs]; decide)
      exact h.load hr (fun _ => rfl) fun _ => rfl
  · exact h

/-- `handleGoal`. -/
theorem Inv.setGoal (h : Inv m w) (goal : Goal) : Inv m (w.setGoal goal) where
  law := h.law
  done := h.done
  unready _ _ := Engine.lookup_reset w.engine
  early hearly := by cases hearly
  kept _ _ _ text feat hlookup := by
    change w.engine.reset.lookup text = some feat at hlookup
    rw [Engine.lookup_reset] at hlookup
    cases hlookup
  idle := h.idle
  inference inf hinf := by
    obtain ⟨hready, hphase⟩ := h.inference inf hinf
    refine ⟨hready, ?_⟩
    cases hp : inf.phase <;> simp only [hp] at hphase ⊢
    · exact ⟨hphase.1, rfl, hphase.2.2⟩
    · exact hphase
    · exact hphase

/-- A tick before the vocabulary is loaded: the zero feature is kept. -/
theorem Inv.tick_unready (h : Inv m w) {goal : Goal} (hgoal : w.goal = some goal)
    (hready : w.engine.ready = false) :
    (w.engine.textFeatures m goal.prompt).2 = .featured zeroFeature ∧
      (w.engine.textFeatures m goal.prompt).1.lookup goal.prompt = some zeroFeature ∧
      (w.engine.textFeatures m goal.prompt).1.ready = false := by
  unfold Engine.textFeatures
  split
  · next feat hlookup =>
      have hearly : earlyTick w.trace = true := by
        rw [← Bool.not_eq_false]
        intro hnot
        rw [h.unready hready hnot] at hlookup
        cases hlookup
      obtain ⟨goal', hgoal', hzero⟩ := h.early hearly
      cases hgoal.symm.trans hgoal'
      cases hzero.symm.trans hlookup
      exact ⟨rfl, hlookup, hready⟩
  · rw [hready, if_neg Bool.false_ne_true]
    exact ⟨rfl, Engine.lookup_store _ _ _, hready⟩

/-- A tick with the vocabulary loaded finds what is kept, or encodes. -/
theorem Inv.tick_ready (h : Inv m w) {goal : Goal} (hgoal : w.goal = some goal)
    (hready : w.engine.ready = true) :
    (w.engine.textFeatures m goal.prompt).1 = w.engine ∧
      ((∃ feat, w.engine.lookup goal.prompt = some feat ∧
          (w.engine.textFeatures m goal.prompt).2 = .featured feat) ∨
        earlyTick w.trace = false ∧
          (w.engine.textFeatures m goal.prompt).2 =
            .encoding (w.engine.encodeText m goal.prompt)) := by
  unfold Engine.textFeatures
  split
  · next feat hlookup => exact ⟨rfl, Or.inl ⟨feat, hlookup, rfl⟩⟩
  · next hnone =>
      rw [hready, if_pos rfl]
      refine ⟨rfl, Or.inr ⟨?_, rfl⟩⟩
      rw [← Bool.not_eq_true]
      intro hearly
      obtain ⟨goal', hgoal', hzero⟩ := h.early hearly
      cases hgoal.symm.trans hgoal'
      cases hnone.symm.trans hzero

/-- `tick`, up to the `await` of `textFeatures`. -/
theorem Inv.tick (h : Inv m w) (frameReady : Bool) : Inv m (w.tick m frameReady) := by
  unfold World.tick
  split
  · exact h
  · next goal hgoal =>
      split
      · exact h
      · dsimp only
        cases hready : w.engine.ready with
        | false =>
            -- the zero feature goes into the memo, and the tick is an early one
            obtain ⟨hphase, hlookup, hstill⟩ := h.tick_unready hgoal hready
            have hnot : w.engine.textEncoderReady = false := by
              rw [Engine.textEncoderReady, hready, Bool.and_false]
            refine ⟨h.law, ?_, ?_, fun _ => ⟨goal, hgoal, hlookup⟩, ?_, ?_, ?_⟩
            · intro ht
              cases hstill.symm.trans ht
            · intro _ hearly
              cases hearly
            · intro ht
              cases hstill.symm.trans ht
            · intro hbusy
              cases hbusy
            · rintro inf ⟨⟩
              rw [Inference.Ok, hphase]
              refine ⟨fun hs => ?_, fun hs => ?_⟩ <;> cases hnot.symm.trans hs
        | true =>
            -- a hit of the memo, or an encoding that begins now
            obtain ⟨hengine, hcase⟩ := h.tick_ready hgoal hready
            rw [hengine]
            refine ⟨h.law, h.done, ?_, ?_, h.kept, ?_, ?_⟩
            · intro hf
              cases hready.symm.trans hf
            · exact h.early
            · intro hbusy
              cases hbusy
            · rintro inf ⟨⟩
              refine ⟨fun hs => (Bool.and_eq_true_iff.mp hs), ?_⟩
              rcases hcase with ⟨feat, hlookup, hphase⟩ | ⟨hearly, hphase⟩
              · simp only [hphase]
                intro hs
                have htext := (Bool.and_eq_true_iff.mp hs).1
                cases hearly : earlyTick w.trace with
                | false => exact h.kept hready htext hearly _ _ hlookup
                | true =>
                    obtain ⟨goal', hgoal', hzero⟩ := h.early hearly
                    cases hgoal.symm.trans hgoal'
                    exact Option.some.inj (hlookup.symm.trans hzero)
              · rw [hphase]
                exact ⟨hready, hearly, hearly, rfl⟩

/-- `encodeText` has returned: what it returned is kept under its own text. -/
theorem Inv.encoded (h : Inv m w) (hlength : ∀ text, (m.feature text).length = clipTextDim) :
    Inv m w.encoded := by
  unfold World.encoded
  split
  · next text startedReady early enc hinf =>
      obtain ⟨hstarted, hready, hearly, hno, henc⟩ := h.inference _ hinf
      simp only at hstarted hno henc
      -- with the encoder's session loaded, the feature is the text's own
      have hfeat : w.engine.text = true → Engine.encodedFeature enc = m.feature text := by
        intro htext
        rw [henc, Engine.encodeText, if_pos htext]
        exact if_pos (hlength text)
      refine ⟨h.law, h.done, ?_, ?_, ?_, ?_, ?_⟩
      · intro hf
        cases hready.symm.trans hf
      · intro ht
        cases hearly.symm.trans ht
      · intro _ htext _ text' feat' hlookup
        obtain ⟨rfl, rfl⟩ := Engine.eq_of_lookup_store hlookup
        exact hfeat htext
      · intro hbusy
        cases (h.idle hbusy).symm.trans hinf
      · rintro inf ⟨⟩
        refine ⟨hstarted, fun hs => ?_⟩
        simp only [hno, Bool.false_eq_true, if_false]
        exact hfeat (hstarted hs).1
  · exact h

/-- An inference ends. -/
theorem Inv.ended (h : Inv m w) {chunks : List Chunk}
    (hlaw : OwnFeature m { w with busy := false, inference := none, chunks := chunks }) :
    Inv m { w with busy := false, inference := none, chunks := chunks } :=
  { h with
    law := hlaw
    idle := fun _ => rfl
    inference := fun inf hinf => by cases hinf }

/-- From `textFeatures` to `runModel`. -/
theorem Inv.runModel (h : Inv m w) : Inv m w.runModel := by
  unfold World.runModel
  split
  · next text startedReady early feat hinf =>
      split
      · refine { h with idle := fun hbusy => ?_, inference := ?_ }
        · cases (h.idle hbusy).symm.trans hinf
        · rintro inf ⟨⟩
          have hok := h.inference _ hinf
          exact ⟨hok.1, hok.2⟩
      · refine h.ended ?_
        intro chunk hmem hmodel
        rcases List.mem_cons.mp hmem with rfl | hmem
        · cases hmodel
        · exact h.law chunk hmem hmodel
  · exact h

/-- `runModel` has returned. -/
theorem Inv.modelDone (h : Inv m w) {out : List Value} (hcond : NoEarlyTick m w (.modelDone out)) :
    Inv m (w.modelDone out) := by
  unfold World.modelDone
  split
  · next text startedReady early feat hinf =>
      refine h.ended ?_
      intro chunk hmem hmodel hs
      rcases List.mem_cons.mp hmem with rfl | hmem
      · have hfeat := (h.inference _ hinf).2 hs
        rw [hfeat]
        cases hearly : early with
        | false => rfl
        | true => exact (hcond _ hinf hmodel hs hearly).symm
      · exact h.law chunk hmem hmodel hs
  · exact h

/-- One case for each event. -/
theorem Inv.step (h : Inv m w) (hlength : ∀ text, (m.feature text).length = clipTextDim)
    {e : Event} (hguard : (machine m).Guard w e) (hcond : NoEarlyTick m w e) :
    Inv m (step m w e) := by
  cases e with
  | init ok => exact h.init ok
  | initFailed =>
      refine { h with done := fun _ => rfl, inference := fun inf hinf => ?_ }
      exact h.inference inf hinf
  | setGoal goal => exact h.setGoal goal
  | tick frameReady => exact h.tick frameReady
  | encoded => exact h.encoded hlength
  | runModel => exact h.runModel
  | modelDone out => exact h.modelDone hcond
  | failed => exact h.ended h.law

/-- A step that keeps the law meets the condition. -/
theorem noEarlyTick_of_law (h : Inv m w) {e : Event} (hguard : (machine m).Guard w e)
    (hlaw : OwnFeature m (TextFeature.step m w e)) : NoEarlyTick m w e := by
  cases e with
  | modelDone out =>
      intro inf hinf hmodel hs hearly
      obtain ⟨inf', hinf', feat, hphase⟩ := hguard
      cases Option.some.inj (hinf.symm.trans hinf')
      obtain ⟨text, startedReady, early, phase⟩ := inf
      subst hphase
      have hfeat := (h.inference _ hinf).2 hs
      simp only at hs hearly hfeat
      rw [hearly, if_pos rfl] at hfeat
      have hchunk := hlaw ⟨text, startedReady, fromModel out, feat⟩ (by
        simp only [TextFeature.step, World.modelDone, Option.mem_def.mp hinf]
        exact List.mem_cons_self) hmodel hs
      exact hchunk.symm.trans hfeat
  | _ => trivial

/-- **When a text goal is driven with its own feature**: all along a run, exactly if
no chunk of the model is of an inference that started ready after a tick for the
same goal had started before the vocabulary was loaded (or the encoder's feature
is the zero one). -/
theorem own_feature_iff (hlength : ∀ text, (m.feature text).length = clipTextDim)
    {es : List Event} (h : (machine m).Run es w) :
    (∀ fs v, fs <+: es → (machine m).Run fs v → OwnFeature m v) ↔
      ((machine m).restrict (NoEarlyTick m)).Run es w := by
  refine Machine.restrict_run_iff (J := Inv m) ?_ ⟨?_, ?_⟩ (fun _ hj => hj.law) ?_ h
  · rintro _ _ rfl rfl
    rfl
  · rintro _ rfl
    exact inv_new m
  · exact fun v e hj hguard => hj.step hlength hguard.1 hguard.2
  · exact fun v e hj hguard hlaw => noEarlyTick_of_law hj hguard hlaw

/-! ## An early tick -/

/-- An encoder whose features are not zero. -/
def ones : Models where
  tokenize _ := []
  eotToken := 49407
  run _ _ := List.replicate clipTextDim (some 1)

/-- What the policy returns in the runs below. -/
def still : List Value := List.replicate 32 (some 0)

theorem fromModel_still : fromModel still = true := by
  simp [fromModel, still, isSane, lenTrajPred, actionDim]

theorem length_feature_ones (text : String) : (ones.feature text).length = clipTextDim :=
  List.length_replicate

/-- One tick before anything is loaded, and one after. -/
def earlyRun : List Event :=
  [.setGoal ⟨.text, "door"⟩, .tick true, .runModel, .init true, .init true, .init true,
    .init true, .tick true, .runModel, .modelDone still]

theorem zero_feature_driven :
    ∃ w, (machine ones).Run earlyRun w ∧ ¬ OwnFeature ones w := by
  have henabled : (machine ones).Enabled World.new earlyRun :=
    ⟨trivial, trivial, ⟨_, rfl, _, rfl⟩, nofun, nofun, nofun, nofun, trivial,
      ⟨_, rfl, _, rfl⟩, ⟨_, rfl, _, rfl⟩, trivial⟩
  refine ⟨_, Machine.run_of_enabled rfl henabled, ?_⟩
  intro hlaw
  have hzero := hlaw ⟨"door", true, fromModel still, zeroFeature⟩ List.mem_cons_self
    fromModel_still rfl
  have hhead := congrArg List.head? hzero
  exact absurd hhead (by decide)

/-- One tick when everything is loaded. -/
def readyRun : List Event :=
  [.init true, .init true, .init true, .init true, .setGoal ⟨.text, "door"⟩, .tick true, .encoded,
    .runModel, .modelDone still]

theorem own_feature_iff_ready :
    ∃ w, (machine ones).Run readyRun w ∧ w.chunks.length = 1 ∧ OwnFeature ones w := by
  have henabled : ((machine ones).restrict (NoEarlyTick ones)).Enabled World.new readyRun := by
    refine ⟨⟨nofun, trivial⟩, ⟨nofun, trivial⟩, ⟨nofun, trivial⟩, ⟨nofun, trivial⟩,
      ⟨trivial, trivial⟩, ⟨trivial, trivial⟩, ⟨⟨_, rfl, _, rfl⟩, trivial⟩,
      ⟨⟨_, rfl, _, rfl⟩, trivial⟩, ⟨⟨_, rfl, _, rfl⟩, ?_⟩, trivial⟩
    rintro inf ⟨⟩ - - hearly
    cases hearly
  have hrun := Machine.run_of_enabled (M := (machine ones).restrict (NoEarlyTick ones)) rfl
    henabled
  exact ⟨_, hrun.of_restrict, rfl,
    (own_feature_iff length_feature_ones hrun.of_restrict).mpr hrun _ _ (List.prefix_refl _)
      hrun.of_restrict⟩

end TextFeature
