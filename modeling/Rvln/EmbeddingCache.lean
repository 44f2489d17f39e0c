/-
# The cache of the latest action embedding

`embedding_cache.py`: the single latest reply of the remote model, with a
frame-id floor that a goal change raises.  Every method holds the cache's own
lock for its whole body.

`accepts` is the condition under which `put` stores its argument; the sticky
floor and the monotone frame id are the two halves of it.
-/
import Rvln.Python

/-- `CachedEmbedding`; `Emb` is the type of the float32 array. -/
structure CachedEmbedding (Emb Image : Type*) where
  frameId : ℕ
  recvTimeNs : ℤ
  embedding : Emb
  numTokens : ℕ
  embedDim : ℕ
  obsImageRgb : Option Image
  deriving DecidableEq

/-- The answers of `EmbeddingCache.status`. -/
inductive CacheStatus
  | waitingRemote
  | ok
  | degraded
  | stale
  deriving DecidableEq, Repr

/-- `EmbeddingCache`. -/
structure EmbeddingCache (Emb Image : Type*) where
  maxAgeNs : ℤ
  hardNs : ℤ
  latest : Option (CachedEmbedding Emb Image)
  floor : Option ℕ

namespace EmbeddingCache

variable {Emb Image : Type*}

/-- `EmbeddingCache.__init__`; `none` is its `ValueError`. -/
def new? (maxAgeSec hardTimeoutSec : ℚ) : Option (EmbeddingCache Emb Image) :=
  if hardTimeoutSec < maxAgeSec then none
  else some ⟨truncInt (maxAgeSec * 10 ^ 9), truncInt (hardTimeoutSec * 10 ^ 9), none, none⟩

/-- `EmbeddingCache.put`. -/
def put (c : EmbeddingCache Emb Image) (emb : CachedEmbedding Emb Image) :
    EmbeddingCache Emb Image :=
  if c.floor.any fun floor => decide (emb.frameId ≤ floor) then c
  else if c.latest.all fun latest => decide (latest.frameId < emb.frameId) then
    { c with latest := some emb }
  else c

/-- `EmbeddingCache.invalidate(floor=...)`. -/
def invalidate (c : EmbeddingCache Emb Image) (floor : Option ℕ) : EmbeddingCache Emb Image :=
  { c with
    latest := none
    floor := match floor with
      | some f => some f
      | none => c.floor }

/-- `EmbeddingCache.get_latest_raw`. -/
def getLatestRaw (c : EmbeddingCache Emb Image) : Option (CachedEmbedding Emb Image) := c.latest

/-- `EmbeddingCache._age_ns_locked`. -/
def ageNs (c : EmbeddingCache Emb Image) (nowNs : ℤ) : Option ℤ :=
  c.latest.map fun emb => nowNs - emb.recvTimeNs

/-- `EmbeddingCache.get_fresh`. -/
def getFresh (c : EmbeddingCache Emb Image) (nowNs : ℤ) : Option (CachedEmbedding Emb Image) :=
  match c.ageNs nowNs with
  | none => none
  | some age => if c.maxAgeNs ≤ age then none else c.latest

/-- `EmbeddingCache.status`. -/
def status (c : EmbeddingCache Emb Image) (nowNs : ℤ) : CacheStatus :=
  match c.ageNs nowNs with
  | none => .waitingRemote
  | some age =>
      if c.hardNs ≤ age then .stale
      else if c.maxAgeNs ≤ age then .degraded
      else .ok

/-! ## What each operation does -/

/-- A frame id passes both gates of `put`: the sticky floor and the id of the
embedding already held. -/
def Accepts (c : EmbeddingCache Emb Image) (frameId : ℕ) : Prop :=
  (∀ f ∈ c.floor, f < frameId) ∧ ∀ emb ∈ c.latest, emb.frameId < frameId

instance (c : EmbeddingCache Emb Image) (frameId : ℕ) : Decidable (c.Accepts frameId) :=
  inferInstanceAs (Decidable (_ ∧ _))

/-- `put` stores what passes both gates and nothing else. -/
theorem put_eq (c : EmbeddingCache Emb Image) (emb : CachedEmbedding Emb Image) :
    c.put emb = if c.Accepts emb.frameId then { c with latest := some emb } else c := by
  have hfloor : (c.floor.any fun floor => decide (emb.frameId ≤ floor)) = true ↔
      ¬ ∀ f ∈ c.floor, f < emb.frameId := by
    simp [Option.any_eq_true]
  have hlatest : (c.latest.all fun latest => decide (latest.frameId < emb.frameId)) = true ↔
      ∀ e ∈ c.latest, e.frameId < emb.frameId := by
    simp [Option.all_eq_true]
  unfold put
  by_cases hf : ∀ f ∈ c.floor, f < emb.frameId
  · rw [if_neg (fun h => hfloor.mp h hf)]
    by_cases hl : ∀ e ∈ c.latest, e.frameId < emb.frameId
    · rw [if_pos (hlatest.mpr hl), if_pos (show c.Accepts emb.frameId from ⟨hf, hl⟩)]
    · rw [if_neg (fun h => hl (hlatest.mp h)),
        if_neg (fun h : c.Accepts emb.frameId => hl h.2)]
  · rw [if_pos (hfloor.mpr hf), if_neg (fun h : c.Accepts emb.frameId => hf h.1)]

theorem put_of_accepts {c : EmbeddingCache Emb Image} {emb : CachedEmbedding Emb Image}
    (h : c.Accepts emb.frameId) : c.put emb = { c with latest := some emb } := by
  rw [put_eq, if_pos h]

theorem put_of_not_accepts {c : EmbeddingCache Emb Image} {emb : CachedEmbedding Emb Image}
    (h : ¬ c.Accepts emb.frameId) : c.put emb = c := by
  rw [put_eq, if_neg h]

@[simp] theorem put_floor (c : EmbeddingCache Emb Image) (emb : CachedEmbedding Emb Image) :
    (c.put emb).floor = c.floor := by
  rw [put_eq]
  split <;> rfl

@[simp] theorem invalidate_latest (c : EmbeddingCache Emb Image) (floor : Option ℕ) :
    (c.invalidate floor).latest = none := rfl

@[simp] theorem invalidate_floor (c : EmbeddingCache Emb Image) (f : ℕ) :
    (c.invalidate (some f)).floor = some f := rfl

end EmbeddingCache
