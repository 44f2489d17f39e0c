/-
# Goal, frame and embedding correlation on the edge

One configured period of the edge node: one `ObservationLedger`, one
`EmbeddingCache`, and the callbacks of `edge_node.py` that use them from
several threads.  Each ledger or cache call is atomic (it holds that object's
lock); a send is split into `snapshot_goal` and `record_sent`, the handling of a
reply into `take_reply_frame` and `put`, and any step of any other thread may
come in between.  `on_goal` is one step: `change_goal` calls `invalidate` before
it releases the ledger lock, and what it writes to the ledger can be seen only
under that lock.

`issued` and `cachedIds` are history: what `record_sent` handed out, and which
frame ids the cache stored since the last goal change, newest first.  The
invariant `Correlated` ties them to the floor: a frame id was issued under the
current generation exactly when it lies above the floor.
-/
import Mathlib.Logic.Function.Basic
import Rvln.Machine
import Rvln.ObservationState
import Rvln.EmbeddingCache

/-- A reply of the remote model, `ActionEmbedding`. -/
structure ActionEmbedding (Emb : Type*) where
  frameId : ℕ
  numTokens : ℕ
  embedDim : ℕ
  embedding : Emb

namespace ActionEmbedding

variable {Emb Image : Type*}

/-- The shape check of `_on_embedding_received`. -/
def shapeOk [PyLen Emb] (emb : ActionEmbedding Emb) : Bool :=
  emb.numTokens * emb.embedDim == PyLen.len emb.embedding

/-- The `CachedEmbedding` that `_on_embedding_received` builds. -/
def cached (emb : ActionEmbedding Emb) (recvTimeNs : ℤ) (obsImg : Option Image) :
    CachedEmbedding Emb Image where
  frameId := emb.frameId
  recvTimeNs := recvTimeNs
  embedding := emb.embedding
  numTokens := emb.numTokens
  embedDim := emb.embedDim
  obsImageRgb := obsImg

@[simp] theorem cached_frameId (emb : ActionEmbedding Emb) (recvTimeNs : ℤ)
    (obsImg : Option Image) : (emb.cached recvTimeNs obsImg).frameId = emb.frameId := rfl

@[simp] theorem cached_obsImageRgb (emb : ActionEmbedding Emb) (recvTimeNs : ℤ)
    (obsImg : Option Image) : (emb.cached recvTimeNs obsImg).obsImageRgb = obsImg := rfl

end ActionEmbedding

namespace GoalCorrelation

variable {Goal Image Emb : Type*}

/-- A frame id that `record_sent` handed out: the goal generation it was issued
under and the image recorded with it. -/
structure Issued (Image : Type*) where
  frameId : ℕ
  generation : ℕ
  image : Image

/-- The shared objects, what each thread holds between the two steps of its
callback, and the history. -/
structure State (Goal Image Emb : Type*) where
  ledger : ObservationLedger Goal Image
  cache : EmbeddingCache Emb Image
  /-- The generation a sending thread has snapshotted. -/
  sending : ℕ → Option ℕ
  /-- The embedding a receiving thread is about to `put`. -/
  receiving : ℕ → Option (CachedEmbedding Emb Image)
  issued : List (Issued Image)
  cachedIds : List ℕ

/-- The steps of the threads. -/
inductive Event (Goal Image Emb : Type*)
  | onGoal (goal : Goal)
  | snapshotGoal (thread : ℕ)
  | recordSent (thread : ℕ) (image : Image)
  | takeReplyFrame (thread : ℕ) (emb : ActionEmbedding Emb) (nowNs : ℤ)
  | put (thread : ℕ)

/-- `_on_goal`: `change_goal` with the cache invalidated under the ledger lock. -/
def onGoal (s : State Goal Image Emb) (goal : Goal) : State Goal Image Emb :=
  let changed := s.ledger.changeGoal goal
  { s with ledger := changed.1, cache := s.cache.invalidate (some changed.2), cachedIds := [] }

/-- The first half of `_send_observation_tick`: without a goal it returns. -/
def snapshotGoal (s : State Goal Image Emb) (thread : ℕ) : State Goal Image Emb :=
  match s.ledger.snapshotGoal with
  | (none, _) => { s with sending := Function.update s.sending thread none }
  | (some _, generation) =>
      { s with sending := Function.update s.sending thread (some generation) }

/-- The second half: `record_sent` with the generation snapshotted before. -/
def recordSent (s : State Goal Image Emb) (thread : ℕ) (image : Image) : State Goal Image Emb :=
  match s.sending thread with
  | none => s
  | some generation =>
      let s' := { s with sending := Function.update s.sending thread none }
      match s.ledger.recordSent generation image with
      | (ledger, none) => { s' with ledger := ledger }
      | (ledger, some frameId) =>
          { s' with ledger := ledger, issued := ⟨frameId, generation, image⟩ :: s.issued }

/-- The first half of `_on_embedding_received`, up to `take_reply_frame`. -/
def takeReplyFrame [PyLen Emb] (s : State Goal Image Emb) (thread : ℕ)
    (emb : ActionEmbedding Emb) (nowNs : ℤ) : State Goal Image Emb :=
  if emb.shapeOk then
    let taken := s.ledger.takeReplyFrame emb.frameId
    { s with
      ledger := taken.1
      receiving := Function.update s.receiving thread (some (emb.cached nowNs taken.2)) }
  else { s with receiving := Function.update s.receiving thread none }

/-- The second half: `cache.put`. -/
def put (s : State Goal Image Emb) (thread : ℕ) : State Goal Image Emb :=
  match s.receiving thread with
  | none => s
  | some emb =>
      { s with
        cache := s.cache.put emb
        receiving := Function.update s.receiving thread none
        cachedIds := if s.cache.Accepts emb.frameId then emb.frameId :: s.cachedIds
          else s.cachedIds }

/-- The shared objects at the start of a period: no goal, nothing sent, an
empty cache without a floor.  Counters may have any value. -/
structure Fresh (s : State Goal Image Emb) : Prop where
  goal : s.ledger.goal = none
  sentFrames : s.ledger.sentFrames = PyDict.empty
  latest : s.cache.latest = none
  floor : s.cache.floor = none
  sending : s.sending = fun _ => none
  receiving : s.receiving = fun _ => none
  issued : s.issued = []
  cachedIds : s.cachedIds = []

/-- The state after `__init__` and the first `on_configure`. -/
def State.new (maxFrames : ℕ) (maxAgeNs hardNs : ℤ) : State Goal Image Emb where
  ledger := ObservationLedger.new maxFrames
  cache := ⟨maxAgeNs, hardNs, none, none⟩
  sending _ := none
  receiving _ := none
  issued := []
  cachedIds := []

theorem State.fresh_new (maxFrames : ℕ) (maxAgeNs hardNs : ℤ) :
    Fresh (State.new maxFrames maxAgeNs hardNs : State Goal Image Emb) :=
  ⟨rfl, rfl, rfl, rfl, rfl, rfl, rfl, rfl⟩

/-- Any interleaving of the threads' steps, where a reply carries a frame id
that was sent in this period: it may be lost, delayed, reordered and delivered
again. -/
def machine [PyLen Emb] : Machine (State Goal Image Emb) (Event Goal Image Emb) where
  Init := Fresh
  Guard s
    | .takeReplyFrame _ emb _ => ∃ i ∈ s.issued, i.frameId = emb.frameId
    | _ => True
  next s
    | .onGoal goal => onGoal s goal
    | .snapshotGoal thread => snapshotGoal s thread
    | .recordSent thread image => recordSent s thread image
    | .takeReplyFrame thread emb nowNs => takeReplyFrame s thread emb nowNs
    | .put thread => put s thread

/-! ## The invariant -/

/-- The embedding answers a frame that was sent, and the image it carries, if
any, is the one recorded with that frame. -/
def Answers (issued : List (Issued Image)) (emb : CachedEmbedding Emb Image) : Prop :=
  ∃ i ∈ issued, i.frameId = emb.frameId ∧
    (emb.obsImageRgb = none ∨ emb.obsImageRgb = some i.image)

theorem Answers.cons {issued : List (Issued Image)} {emb : CachedEmbedding Emb Image}
    (h : Answers issued emb) (i : Issued Image) : Answers (i :: issued) emb := by
  obtain ⟨j, hj, hrest⟩ := h
  exact ⟨j, List.mem_cons_of_mem _ hj, hrest⟩

/-- What holds in every reachable state. -/
structure Correlated (s : State Goal Image Emb) : Prop where
  ids_le : ∀ i ∈ s.issued, i.frameId ≤ s.ledger.frameCounter
  ids_inj : ∀ i ∈ s.issued, ∀ j ∈ s.issued, i.frameId = j.frameId → i = j
  generations_le : ∀ i ∈ s.issued, i.generation ≤ s.ledger.generation
  /-- Without a floor no goal was ever set, so nothing was sent. -/
  no_floor : s.cache.floor = none → s.ledger.goal = none ∧ s.issued = []
  floor_le : ∀ f ∈ s.cache.floor, f ≤ s.ledger.frameCounter
  /-- The floor separates the current generation from all earlier ones. -/
  above_floor : ∀ f ∈ s.cache.floor, ∀ i ∈ s.issued,
    f < i.frameId ↔ i.generation = s.ledger.generation
  sent : ∀ e ∈ s.ledger.sentFrames.entries, ∃ i ∈ s.issued, i.frameId = e.1 ∧ i.image = e.2
  receiving : ∀ t, ∀ emb ∈ s.receiving t, Answers s.issued emb
  latest : ∀ emb ∈ s.cache.latest, Answers s.issued emb ∧ ∀ f ∈ s.cache.floor, f < emb.frameId
  cachedIds : s.cachedIds.Pairwise (· > ·)
  head : s.cachedIds.head? = s.cache.latest.map CachedEmbedding.frameId

theorem Fresh.correlated {s : State Goal Image Emb} (h : Fresh s) : Correlated s where
  ids_le := by simp [h.issued]
  ids_inj := by simp [h.issued]
  generations_le := by simp [h.issued]
  no_floor _ := ⟨h.goal, h.issued⟩
  floor_le := by simp [h.floor]
  above_floor := by simp [h.floor]
  sent := by simp [h.sentFrames, PyDict.empty]
  receiving := by simp [h.receiving]
  latest := by simp [h.latest]
  cachedIds := by simp [h.cachedIds]
  head := by simp [h.cachedIds, h.latest]

/-- A new goal raises the floor to the frame counter: every id issued so far is
now at or below it, and belongs to an older generation. -/
theorem Correlated.onGoal {s : State Goal Image Emb} (h : Correlated s) (goal : Goal) :
    Correlated (onGoal s goal) where
  ids_le := h.ids_le
  ids_inj := h.ids_inj
  generations_le i hi := Nat.le_succ_of_le (h.generations_le i hi)
  no_floor hf := by cases hf
  floor_le f hf := by
    cases hf
    exact le_rfl
  above_floor f hf i hi := by
    cases hf
    have hle := h.ids_le i hi
    have hgen := h.generations_le i hi
    simp only [GoalCorrelation.onGoal, ObservationLedger.changeGoal_floor,
      ObservationLedger.changeGoal_generation]
    constructor <;> intro <;> omega
  sent e he := by cases he
  receiving := h.receiving
  latest emb hemb := by cases hemb
  cachedIds := List.Pairwise.nil
  head := rfl

theorem Correlated.snapshotGoal {s : State Goal Image Emb} (h : Correlated s) (thread : ℕ) :
    Correlated (snapshotGoal s thread) := by
  unfold GoalCorrelation.snapshotGoal
  split <;> exact { h with }

/-- A commit either changes nothing the invariant sees, or it issues the next
number of the counter under the current generation. -/
theorem Correlated.recordSent {s : State Goal Image Emb} (h : Correlated s) (thread : ℕ)
    (image : Image) : Correlated (recordSent s thread image) := by
  unfold GoalCorrelation.recordSent
  split
  · exact h
  · rename_i generation _
    rcases hrec : s.ledger.recordSent generation image with ⟨ledger, _ | frameId⟩
    · rw [ObservationLedger.recordSent_none hrec]
      exact { h with }
    · obtain ⟨rfl, hgoal, rfl, rfl⟩ := ObservationLedger.recordSent_some hrec
      -- a frame is sent for a goal, and the goal has set the floor
      have hfloor : s.cache.floor ≠ none := by
        intro hf
        rw [(h.no_floor hf).1] at hgoal
        cases hgoal
      exact {
        ids_le := by
          intro i hi
          rcases List.mem_cons.mp hi with rfl | hi
          · exact le_rfl
          · exact Nat.le_succ_of_le (h.ids_le i hi)
        ids_inj := by
          intro i hi j hj hij
          rcases List.mem_cons.mp hi with rfl | hi <;> rcases List.mem_cons.mp hj with rfl | hj
          · rfl
          · have hle := h.ids_le j hj
            simp only at hij
            omega
          · have hle := h.ids_le i hi
            simp only at hij
            omega
          · exact h.ids_inj i hi j hj hij
        generations_le := by
          intro i hi
          rcases List.mem_cons.mp hi with rfl | hi
          · exact le_rfl
          · exact h.generations_le i hi
        no_floor := fun hf => absurd hf hfloor
        floor_le := fun f hf => Nat.le_succ_of_le (h.floor_le f hf)
        above_floor := by
          intro f hf i hi
          rcases List.mem_cons.mp hi with rfl | hi
          -- the new number is above the floor and of the current generation
          · exact iff_of_true (Nat.lt_succ_of_le (h.floor_le f hf)) rfl
          · exact h.above_floor f hf i hi
        sent := by
          intro e he
          rcases PyDict.mem_set (PyDict.mem_trim he) with he | rfl
          · obtain ⟨i, hi, hrest⟩ := h.sent e he
            exact ⟨i, List.mem_cons_of_mem _ hi, hrest⟩
          · exact ⟨_, List.mem_cons_self, rfl, rfl⟩
        receiving := fun t emb hemb => (h.receiving t emb hemb).cons _
        latest := fun emb hemb => ⟨(h.latest emb hemb).1.cons _, (h.latest emb hemb).2⟩
        cachedIds := h.cachedIds
        head := h.head }

/-- What one thread holds may be replaced by anything that answers a frame. -/
theorem Correlated.update_receiving {s : State Goal Image Emb} (h : Correlated s) (thread : ℕ)
    {held : Option (CachedEmbedding Emb Image)} (hheld : ∀ e ∈ held, Answers s.issued e) :
    ∀ t, ∀ e ∈ Function.update s.receiving thread held t, Answers s.issued e := by
  intro t e he
  by_cases ht : t = thread
  · subst ht
    rw [Function.update_self] at he
    exact hheld e he
  · rw [Function.update_of_ne ht] at he
    exact h.receiving t e he

/-- The image a reply is paired with was recorded under the reply's own id. -/
theorem Correlated.answers_cached {s : State Goal Image Emb} (h : Correlated s)
    {emb : ActionEmbedding Emb} (nowNs : ℤ) (hemb : ∃ i ∈ s.issued, i.frameId = emb.frameId) :
    Answers s.issued (emb.cached nowNs (s.ledger.takeReplyFrame emb.frameId).2) := by
  cases himg : (s.ledger.takeReplyFrame emb.frameId).2 with
  | none =>
      obtain ⟨i, hi, hid⟩ := hemb
      exact ⟨i, hi, hid, Or.inl rfl⟩
  | some img =>
      obtain ⟨j, hj, hjid, hjimg⟩ := h.sent _ (ObservationLedger.mem_of_takeReplyFrame himg)
      exact ⟨j, hj, hjid, Or.inr (by rw [hjimg]; rfl)⟩

theorem Correlated.takeReplyFrame [PyLen Emb] {s : State Goal Image Emb} (h : Correlated s)
    (thread : ℕ) {emb : ActionEmbedding Emb} (nowNs : ℤ)
    (hemb : ∃ i ∈ s.issued, i.frameId = emb.frameId) :
    Correlated (takeReplyFrame s thread emb nowNs) := by
  unfold GoalCorrelation.takeReplyFrame
  split
  · exact { h with
      sent := fun e he => h.sent e (ObservationLedger.mem_takeReplyFrame he)
      receiving := h.update_receiving thread fun e he => by
        cases he
        exact h.answers_cached nowNs hemb }
  · exact { h with receiving := h.update_receiving thread fun e he => by cases he }

/-- What `put` stores passed the floor and is newer than everything stored
since the last goal change. -/
theorem Correlated.put {s : State Goal Image Emb} (h : Correlated s) (thread : ℕ) :
    Correlated (put s thread) := by
  unfold GoalCorrelation.put
  split
  · exact h
  · rename_i emb hthread
    have hnone : ∀ e ∈ (none : Option (CachedEmbedding Emb Image)), Answers s.issued e := by
      intro e he
      cases he
    have hrecv := h.update_receiving thread hnone
    by_cases hacc : s.cache.Accepts emb.frameId
    · rw [EmbeddingCache.put_of_accepts hacc, if_pos hacc]
      exact { h with
        receiving := hrecv
        latest := by
          intro e he
          cases he
          exact ⟨h.receiving thread emb hthread, hacc.1⟩
        cachedIds := by
          refine List.pairwise_cons.mpr ⟨fun id hid => ?_, h.cachedIds⟩
          -- the head of the list is the id held, and the list decreases from it
          have hhead := h.head
          have hsorted := h.cachedIds
          rcases hids : s.cachedIds with _ | ⟨head, tail⟩
          · rw [hids] at hid
            cases hid
          · rw [hids] at hhead hid hsorted
            obtain ⟨latest, hlatest, hlid⟩ := Option.map_eq_some_iff.mp hhead.symm
            have hnew : latest.frameId < emb.frameId := hacc.2 latest hlatest
            rcases List.mem_cons.mp hid with rfl | hid
            · omega
            · have hdecr := (List.pairwise_cons.mp hsorted).1 id hid
              omega
        head := rfl }
    · rw [EmbeddingCache.put_of_not_accepts hacc, if_neg hacc]
      exact { h with receiving := hrecv }

/-- **The invariant of the period**: every step of every thread keeps it. -/
theorem correlated_invariant [PyLen Emb] :
    (machine : Machine (State Goal Image Emb) _).Invariant Correlated where
  init _ h := h.correlated
  step s e h hg := by
    cases e with
    | onGoal goal => exact h.onGoal goal
    | snapshotGoal thread => exact h.snapshotGoal thread
    | recordSent thread image => exact h.recordSent thread image
    | takeReplyFrame thread emb nowNs => exact h.takeReplyFrame thread nowNs hg
    | put thread => exact h.put thread

/-! ## What the cache can hold -/

/-- **Goal, frame and embedding correlation.**  In every reachable state the
cached embedding carries a frame id issued under the current goal generation,
and its image is the one recorded under that id or none; no frame id is issued
twice; and the frame ids cached since the last goal change, the newest of which
is the one held, strictly increased. -/
theorem cached_embedding_is_current [PyLen Emb] {s : State Goal Image Emb}
    (h : machine.Reachable s) :
    (∀ emb, s.cache.getLatestRaw = some emb →
      ∃ i ∈ s.issued, i.frameId = emb.frameId ∧ i.generation = s.ledger.generation ∧
        (emb.obsImageRgb = none ∨ emb.obsImageRgb = some i.image)) ∧
    (∀ i ∈ s.issued, ∀ j ∈ s.issued, i.frameId = j.frameId → i = j) ∧
    s.cachedIds.Pairwise (· > ·) ∧
    s.cachedIds.head? = s.cache.getLatestRaw.map CachedEmbedding.frameId := by
  have hs : Correlated s := correlated_invariant.of_reachable h
  refine ⟨?_, hs.ids_inj, hs.cachedIds, hs.head⟩
  intro emb hemb
  obtain ⟨⟨i, hi, hid, himg⟩, hfloor⟩ := hs.latest emb hemb
  refine ⟨i, hi, hid, ?_, himg⟩
  cases hf : s.cache.floor with
  | none =>
      rw [(hs.no_floor hf).2] at hi
      cases hi
  | some f => exact (hs.above_floor f hf i hi).mp (hid ▸ hfloor f hf)

/-- The reply to the first observation of the first goal is cached with the
image `7` that was sent under its frame id. -/
theorem cached_embedding_is_current_first_reply :
    ∃ i : Issued ℕ, i.frameId = 1 ∧ i.generation = 1 ∧
      ((some 7 : Option ℕ) = none ∨ some 7 = some i.image) := by
  have hrun : (machine : Machine (State Unit ℕ (List ℕ)) _).Run
      [.onGoal (), .snapshotGoal 0, .recordSent 0 7, .takeReplyFrame 1 ⟨1, 1, 1, [5]⟩ 10, .put 1]
      _ :=
    Machine.run_of_enabled (State.fresh_new 8 6 15)
      ⟨trivial, trivial, trivial, ⟨_, List.mem_singleton_self _, rfl⟩, trivial, trivial⟩
  obtain ⟨i, -, hi⟩ := (cached_embedding_is_current hrun.reachable).1 _ rfl
  exact ⟨i, hi⟩

end GoalCorrelation
