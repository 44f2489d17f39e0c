/-
# Camera frames and the observation ledger

`observation_state.py`: the camera's single frame slot with its two stamps, and
the ledger that pairs goal generations, sent frame ids and the images the
replies are computed from.  Every method holds its object's lock for its whole
body, so each is one function on the state.
-/
import Rvln.Python

/-! ## The camera slot -/

/-- `CameraFrameStore`. -/
structure CameraFrameStore (Image : Type*) where
  image : Option Image
  stampNs : ℤ
  sourceStampNs : ℤ

namespace CameraFrameStore

variable {Image : Type*}

/-- `CameraFrameStore.__init__`. -/
def new : CameraFrameStore Image := ⟨none, 0, 0⟩

/-- `CameraFrameStore.put`; `stampNs` is the clock reading when none is given. -/
def put (_ : CameraFrameStore Image) (image : Image) (stampNs sourceStampNs : ℤ) :
    CameraFrameStore Image :=
  ⟨some image, stampNs, sourceStampNs⟩

/-- `CameraFrameStore.clear`. -/
def clear (_ : CameraFrameStore Image) : CameraFrameStore Image := new

/-- `CameraFrameStore.fresh_with_stamp`. -/
def freshWithStamp (c : CameraFrameStore Image) (maxAgeNs nowNs : ℤ) : Option (Image × ℤ) :=
  match c.image with
  | none => none
  | some image => if maxAgeNs < nowNs - c.stampNs then none else some (image, c.sourceStampNs)

/-- `CameraFrameStore.fresh`. -/
def fresh (c : CameraFrameStore Image) (maxAgeNs nowNs : ℤ) : Option Image :=
  (c.freshWithStamp maxAgeNs nowNs).map Prod.fst

end CameraFrameStore

/-! ## The ledger -/

/-- `ObservationLedger`. -/
structure ObservationLedger (Goal Image : Type*) where
  goal : Option Goal
  generation : ℕ
  frameCounter : ℕ
  sentFrames : PyDict ℕ Image
  maxFrames : ℕ

namespace ObservationLedger

variable {Goal Image : Type*}

/-- `ObservationLedger.__init__`. -/
def new (maxFrames : ℕ) : ObservationLedger Goal Image where
  goal := none
  generation := 0
  frameCounter := 0
  sentFrames := PyDict.empty
  maxFrames := maxFrames

/-- `ObservationLedger.has_goal`. -/
def hasGoal (l : ObservationLedger Goal Image) : Bool := l.goal.isSome

/-- `ObservationLedger.change_goal`, and the floor it hands to `invalidate`
before it releases the lock. -/
def changeGoal (l : ObservationLedger Goal Image) (goal : Goal) :
    ObservationLedger Goal Image × ℕ :=
  ({ l with generation := l.generation + 1, goal := some goal, sentFrames := PyDict.empty },
    l.frameCounter)

/-- `ObservationLedger.snapshot_goal`. -/
def snapshotGoal (l : ObservationLedger Goal Image) : Option Goal × ℕ := (l.goal, l.generation)

/-- `ObservationLedger.record_sent`: a frame id only for the current goal. -/
def recordSent (l : ObservationLedger Goal Image) (generation : ℕ) (image : Image) :
    ObservationLedger Goal Image × Option ℕ :=
  if generation ≠ l.generation ∨ l.goal.isNone then (l, none)
  else
    let frameId := l.frameCounter + 1
    ({ l with
        frameCounter := frameId
        sentFrames := (l.sentFrames.set frameId image).trim l.maxFrames }, some frameId)

/-- `ObservationLedger.take_reply_frame`: the image sent under the id, if it is
still held; it and every older one are forgotten. -/
def takeReplyFrame (l : ObservationLedger Goal Image) (frameId : ℕ) :
    ObservationLedger Goal Image × Option Image :=
  let (image, rest) := l.sentFrames.pop frameId
  ({ l with sentFrames := rest.filterKeys fun f => !decide (f < frameId) }, image)

/-- `ObservationLedger.reset`. -/
def reset (l : ObservationLedger Goal Image) : ObservationLedger Goal Image :=
  { l with generation := l.generation + 1, goal := none, sentFrames := PyDict.empty }

/-! ## What each operation does -/

section Lemmas

variable {l : ObservationLedger Goal Image} {generation frameId : ℕ} {image : Image}

@[simp] theorem changeGoal_generation (goal : Goal) :
    (l.changeGoal goal).1.generation = l.generation + 1 := rfl

@[simp] theorem changeGoal_goal (goal : Goal) : (l.changeGoal goal).1.goal = some goal := rfl

@[simp] theorem changeGoal_frameCounter (goal : Goal) :
    (l.changeGoal goal).1.frameCounter = l.frameCounter := rfl

@[simp] theorem changeGoal_floor (goal : Goal) : (l.changeGoal goal).2 = l.frameCounter := rfl

@[simp] theorem changeGoal_entries (goal : Goal) :
    (l.changeGoal goal).1.sentFrames.entries = [] := rfl

/-- A frame id is issued only under the current generation, with a goal set,
and it is the next number of the counter. -/
theorem recordSent_some {l' : ObservationLedger Goal Image}
    (h : l.recordSent generation image = (l', some frameId)) :
    generation = l.generation ∧ l.goal.isSome ∧ frameId = l.frameCounter + 1 ∧
      l' = { l with
        frameCounter := frameId
        sentFrames := (l.sentFrames.set frameId image).trim l.maxFrames } := by
  unfold recordSent at h
  split at h
  · cases h
  · rename_i hc
    rw [not_or, not_not] at hc
    cases h
    refine ⟨hc.1, ?_, rfl, rfl⟩
    simpa [Option.isSome_iff_ne_none] using hc.2

/-- A refused send leaves the ledger as it was. -/
theorem recordSent_none {l' : ObservationLedger Goal Image}
    (h : l.recordSent generation image = (l', none)) : l' = l := by
  unfold recordSent at h
  split at h <;> cases h
  rfl

@[simp] theorem takeReplyFrame_goal :
    (l.takeReplyFrame frameId).1.goal = l.goal := rfl

@[simp] theorem takeReplyFrame_generation :
    (l.takeReplyFrame frameId).1.generation = l.generation := rfl

@[simp] theorem takeReplyFrame_frameCounter :
    (l.takeReplyFrame frameId).1.frameCounter = l.frameCounter := rfl

/-- The image handed out was held under that very frame id. -/
theorem mem_of_takeReplyFrame (h : (l.takeReplyFrame frameId).2 = some image) :
    (frameId, image) ∈ l.sentFrames.entries :=
  PyDict.mem_of_get? h

/-- Taking a reply frame only forgets entries. -/
theorem mem_takeReplyFrame {e : ℕ × Image}
    (h : e ∈ (l.takeReplyFrame frameId).1.sentFrames.entries) : e ∈ l.sentFrames.entries :=
  PyDict.mem_filterKeys (PyDict.mem_filterKeys h)

end Lemmas

end ObservationLedger
