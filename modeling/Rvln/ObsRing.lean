/-
# The observation ring buffers

The policy is shown the newest frames of the camera, oldest first, as one flat tensor.
Three programs keep them: the engine in Python (`_push_frame` and `_stack_frames` of
`omnivla_edge_engine.py`), the browser (`preprocessing.ts`) and the phone
(`preprocessing.dart`).  Each evicts, pads and copies in its own way.

`stacks_agree` : after any pushes and resets the three stacks are one list, the window of
the frames pushed since the last reset.
-/
import Mathlib.Algebra.Notation.Defs
import Mathlib.Data.Vector.Basic
import Mathlib.Tactic.Ring
import Rvln.Window

/-! ## Data -/

/-- The part of `OmniVlaConfig`, and of `_MODEL_PARAMS`, that the buffers use. -/
structure OmniVlaConfig where
  contextSize : ℕ
  obsSize : ℕ

namespace OmniVlaConfig

/-- The values of the released policy. -/
def released : OmniVlaConfig := ⟨5, 96⟩

def historyLen (config : OmniVlaConfig) : ℕ := config.contextSize + 1

theorem historyLen_pos (config : OmniVlaConfig) : 1 ≤ config.historyLen :=
  Nat.succ_pos config.contextSize

def frameLen (config : OmniVlaConfig) : ℕ := 3 * config.obsSize * config.obsSize

end OmniVlaConfig

namespace ObsRing

/-- A normalized frame `(3, obsSize, obsSize)`, flattened. -/
abbrev Frame (config : OmniVlaConfig) (α : Type*) := List.Vector α config.frameLen

variable {α : Type*} {config : OmniVlaConfig}

/-- The error of all three when no frame is buffered. -/
def noFrames : String := "no observation frames buffered yet"

/-! ## Python -/

/-- The loop of `_stack_frames` that pads the list. -/
def padded {φ : Type*} (need : ℕ) : List φ → List φ
  | [] => []
  | oldest :: frames =>
      if (oldest :: frames).length < need then padded need (oldest :: oldest :: frames)
      else oldest :: frames
termination_by frames => need - frames.length
decreasing_by
  rename_i h
  rw [List.length_cons] at h
  rw [List.length_cons, List.length_cons]
  omega

/-- `_stack_frames`; the slice `[-0:]` is the whole list. -/
def stackFrames (frames : List (Frame config α)) (need : ℕ) : Except String (List α) :=
  if frames.isEmpty then .error noFrames
  else
    let frames := padded need frames
    .ok ((if need = 0 then frames else frames.rtake need).flatMap List.Vector.toList)

/-- The ring of `OmniVLAEdgeEngine`. -/
structure EngineRing (config : OmniVlaConfig) (α : Type*) where
  obsRing : List (Frame config α)

namespace EngineRing

def new : EngineRing config α := ⟨[]⟩

/-- `reset`. -/
def reset (_ : EngineRing config α) : EngineRing config α := ⟨[]⟩

/-- `_push_frame`. -/
def pushFrame (r : EngineRing config α) (frameChw : Frame config α) : EngineRing config α :=
  ⟨Window.push (config.contextSize + 1) r.obsRing frameChw⟩

/-- `_stack_obs`. -/
def stackObs (r : EngineRing config α) : Except String (List α) :=
  stackFrames r.obsRing (config.contextSize + 1)

end EngineRing

/-! ## Typed arrays -/

/-- `out.set(frame, offset)`, and `setRange` of Dart. -/
def setRange (out : List α) (offset : ℕ) (frame : List α) : Except String (List α) :=
  if offset + frame.length ≤ out.length then
    .ok (out.take offset ++ frame ++ out.drop (offset + frame.length))
  else .error "offset is out of bounds"

/-- Copy frames into an array, one behind the other; `none` is an index out of range. -/
def copyFrames (out : List α) (offset : ℕ) :
    List (Option (Frame config α)) → Except String (List α)
  | [] => .ok out
  | none :: _ => .error "undefined"
  | some frame :: frames => do
      let out ← setRange out offset frame.toList
      copyFrames out (offset + config.frameLen) frames

/-! ## The browser -/

/-- `ObsRingBuffer` of `preprocessing.ts`. -/
structure WebRing (config : OmniVlaConfig) (α : Type*) where
  frames : List (Frame config α)

namespace WebRing

def new : WebRing config α := ⟨[]⟩

/-- `reset`. -/
def reset (_ : WebRing config α) : WebRing config α := ⟨[]⟩

/-- `push`. -/
def push (r : WebRing config α) (frameChw : List α) : Except String (WebRing config α) :=
  if h : frameChw.length = config.frameLen then
    .ok ⟨Window.push config.historyLen r.frames ⟨frameChw, h⟩⟩
  else .error s!"frame length {frameChw.length} != {config.frameLen}"

/-- `stack`. -/
def stack [Zero α] (r : WebRing config α) : Except String (List α) :=
  if r.frames.length = 0 then .error noFrames
  else
    let deficit : ℤ := config.historyLen - r.frames.length
    copyFrames (List.replicate (config.historyLen * config.frameLen) 0) 0
      ((List.range config.historyLen).map fun i : ℕ =>
        r.frames[(max 0 ((i : ℤ) - deficit)).toNat]?)

end WebRing

/-! ## The phone -/

/-- `ObsRingBuffer` of `preprocessing.dart`. -/
structure PhoneRing (config : OmniVlaConfig) (α : Type*) where
  frames : List (Frame config α)

namespace PhoneRing

def new : PhoneRing config α := ⟨[]⟩

/-- `reset`. -/
def reset (_ : PhoneRing config α) : PhoneRing config α := ⟨[]⟩

/-- `push`; the length of the frame is an `assert`. -/
def push (r : PhoneRing config α) (frameChw : Frame config α) : PhoneRing config α :=
  ⟨Window.push config.historyLen r.frames frameChw⟩

/-- `stack`. -/
def stack [Zero α] (r : PhoneRing config α) : Except String (List α) :=
  match r.frames with
  | [] => .error noFrames
  | first :: _ =>
      let need := config.historyLen
      let padded := List.replicate (need - r.frames.length) first ++ r.frames
      copyFrames (List.replicate (3 * need * (config.obsSize * config.obsSize)) 0) 0
        ((padded.drop (padded.length - need)).map some)

end PhoneRing

/-! ## Pushes and resets -/

open Window (Op sinceReset)

/-- The ring of the engine after some operations. -/
def EngineRing.run (ops : List (Op (Frame config α))) : EngineRing config α :=
  ops.foldl (fun r op => match op with
    | .push frame => r.pushFrame frame
    | .reset => r.reset) new

/-- The ring of the browser after some operations. -/
def WebRing.run (ops : List (Op (Frame config α))) : Except String (WebRing config α) :=
  ops.foldlM (fun r op => match op with
    | .push frame => r.push frame.toList
    | .reset => .ok r.reset) new

/-- The ring of the phone after some operations. -/
def PhoneRing.run (ops : List (Op (Frame config α))) : PhoneRing config α :=
  ops.foldl (fun r op => match op with
    | .push frame => r.push frame
    | .reset => r.reset) new

/-- The three programs. -/
inductive Port
  | python
  | browser
  | phone

/-- The stack that a program builds after some operations. -/
def Port.stackAfter [Zero α] (ops : List (Op (Frame config α))) :
    Port → Except String (List α)
  | .python => (EngineRing.run ops).stackObs
  | .browser => (WebRing.run ops).bind WebRing.stack
  | .phone => (PhoneRing.run ops).stack

/-! ## What the rings hold -/

theorem EngineRing.run_obsRing (ops : List (Op (Frame config α))) :
    (EngineRing.run ops).obsRing = (sinceReset ops).rtake config.historyLen := by
  rw [← Window.run_eq]
  refine (List.foldl_hom EngineRing.obsRing ?_).symm
  intro r op
  cases op <;> rfl

theorem PhoneRing.run_frames (ops : List (Op (Frame config α))) :
    (PhoneRing.run ops).frames = (sinceReset ops).rtake config.historyLen := by
  rw [← Window.run_eq]
  refine (List.foldl_hom PhoneRing.frames ?_).symm
  intro r op
  cases op <;> rfl

/-- A frame has the length that `push` of the browser asks for. -/
theorem WebRing.push_frame (r : WebRing config α) (frame : Frame config α) :
    r.push frame.toList = .ok ⟨Window.push config.historyLen r.frames frame⟩ :=
  dif_pos frame.2

theorem WebRing.run_eq (ops : List (Op (Frame config α))) :
    WebRing.run ops = .ok ⟨(sinceReset ops).rtake config.historyLen⟩ := by
  have hrun : WebRing.run ops = .ok ⟨Window.run config.historyLen ops⟩ := by
    induction ops using List.reverseRecOn with
    | nil => rfl
    | append_singleton ops op ih =>
        rw [WebRing.run, List.foldlM_append, ← WebRing.run, ih]
        cases op with
        | push frame =>
            rw [Window.run_push]
            show (WebRing.push _ frame.toList >>= pure) = _
            rw [WebRing.push_frame]
            rfl
        | reset =>
            rw [Window.run_reset]
            rfl
  rw [hrun, Window.run_eq]

/-! ## What the loops build -/

variable {frames : List (Frame config α)}

/-- The loop of `_stack_frames` pads the list at the front. -/
theorem padded_eq {φ : Type*} (need : ℕ) (frames : List φ) :
    padded need frames = Window.padFront need frames := by
  induction frames using padded.induct need with
  | case1 => rw [padded, Window.padFront]
  | case2 oldest frames h ih =>
      rw [padded, if_pos h, ih]
      exact Window.padFront_replicate (k := 1) (by rw [List.length_cons] at h; omega)
  | case3 oldest frames h =>
      rw [padded, if_neg h, Window.padFront]
      rw [List.length_cons, Nat.not_lt] at h
      rw [Nat.sub_eq_zero_of_le h]
      rfl

/-- A frame is written behind what is there. -/
theorem setRange_append (written rest : List α) (frame : Frame config α)
    (h : config.frameLen ≤ rest.length) :
    setRange (written ++ rest) written.length frame.toList =
      .ok (written ++ frame.toList ++ rest.drop config.frameLen) := by
  rw [setRange, frame.toList_length, List.length_append, if_pos (by omega), List.take_left,
    List.drop_append, List.drop_eq_nil_of_le (Nat.le_add_right _ _), List.nil_append,
    Nat.add_sub_cancel_left]

variable (frames) in
/-- **The copying loop**: frames that fit stand one behind the other. -/
theorem copyFrames_some (written rest : List α)
    (h : frames.length * config.frameLen ≤ rest.length) :
    copyFrames (written ++ rest) written.length (frames.map some) =
      .ok (written ++ frames.flatMap List.Vector.toList ++
        rest.drop (frames.length * config.frameLen)) := by
  induction frames generalizing written rest with
  | nil =>
      rw [List.length_nil, Nat.zero_mul, List.drop_zero, List.flatMap_nil, List.append_nil]
      rfl
  | cons frame frames ih =>
      rw [List.length_cons, Nat.succ_mul] at h
      have hlen : written.length + config.frameLen = (written ++ frame.toList).length := by
        rw [List.length_append, frame.toList_length]
      rw [List.map_cons, copyFrames, setRange_append written rest frame (by omega)]
      show copyFrames (written ++ frame.toList ++ rest.drop config.frameLen)
        (written.length + config.frameLen) (frames.map some) = _
      rw [hlen, ih _ _ (by rw [List.length_drop]; omega), List.drop_drop, List.flatMap_cons,
        List.length_cons, Nat.succ_mul, Nat.add_comm config.frameLen, List.append_assoc written]

/-- Frames that fill an array. -/
theorem copyFrames_replicate [Zero α] {n : ℕ} (hn : frames.length = n) :
    copyFrames (List.replicate (n * config.frameLen) 0) 0 (frames.map some) =
      .ok (frames.flatMap List.Vector.toList) := by
  have h := copyFrames_some frames []
    (List.replicate (n * config.frameLen) 0) (by rw [hn, List.length_replicate])
  rw [hn, List.nil_append, List.nil_append, List.drop_eq_nil_of_le (by rw [List.length_replicate]),
    List.append_nil] at h
  exact h

/-- What the index of the browser reads is the padded list. -/
theorem getElem?_clamped (need : ℕ) (h : frames.length ≤ need) (hne : frames ≠ []) :
    ((List.range need).map fun i : ℕ =>
        frames[(max 0 ((i : ℤ) - ((need : ℤ) - frames.length))).toNat]?) =
      (Window.padFront need frames).map some := by
  have hpad : (Window.padFront need frames).length = need := Window.length_padFront hne h
  refine List.ext_getElem? ?_
  intro i
  rcases Nat.lt_or_ge i need with hi | hi
  · rw [List.getElem?_map, List.getElem?_range hi, List.getElem?_map,
      List.getElem?_eq_getElem (hpad.symm ▸ hi)]
    cases frames with
    | nil => exact absurd rfl hne
    | cons oldest frames =>
        rw [List.length_cons] at h
        simp only [Window.padFront, List.length_cons, Option.map_some]
        rcases Nat.lt_or_ge i (need - (frames.length + 1)) with hpadded | hframe
        · -- in front of the buffered frames the index is clamped to the oldest one
          have hclamped : (max 0 ((i : ℤ) - ((need : ℤ) - ((frames.length + 1 : ℕ) : ℤ)))).toNat =
              0 := by omega
          rw [hclamped, List.getElem_append_left (by rwa [List.length_replicate]),
            List.getElem_replicate]
          rfl
        · rw [show (max 0 ((i : ℤ) - ((need : ℤ) - ((frames.length + 1 : ℕ) : ℤ)))).toNat =
            i - (need - (frames.length + 1)) from by omega,
            List.getElem_append_right (by rwa [List.length_replicate])]
          simp only [List.length_replicate]
          exact congrArg some (List.getElem?_eq_getElem _)
  · rw [List.getElem?_eq_none (by rwa [List.length_map, List.length_range]),
      List.getElem?_eq_none (by rwa [List.length_map, hpad])]

/-! ### The three stacks -/

/-- The frames of a ring as one list, padded at the front. -/
def flat (frames : List (Frame config α)) : List α :=
  (Window.padFront config.historyLen frames).flatMap List.Vector.toList

theorem EngineRing.stackObs_eq (r : EngineRing config α) (h : r.obsRing.length ≤ config.historyLen)
    (hne : r.obsRing ≠ []) : r.stackObs = .ok (flat r.obsRing) := by
  have hlen : (Window.padFront config.historyLen r.obsRing).length = config.historyLen :=
    Window.length_padFront hne h
  have hempty : ¬ r.obsRing.isEmpty = true := by
    rwa [List.isEmpty_iff]
  rw [stackObs, stackFrames, if_neg hempty]
  dsimp only
  rw [if_neg (Nat.succ_ne_zero _), padded_eq]
  show Except.ok (((Window.padFront config.historyLen r.obsRing).rtake config.historyLen).flatMap
    List.Vector.toList) = _
  rw [Window.rtake_of_length_le hlen.le]
  rfl

theorem WebRing.stack_eq [Zero α] (r : WebRing config α)
    (h : r.frames.length ≤ config.historyLen) (hne : r.frames ≠ []) :
    r.stack = .ok (flat r.frames) := by
  have hlen : ¬ r.frames.length = 0 := by
    rwa [List.length_eq_zero_iff]
  rw [stack, if_neg hlen]
  dsimp only
  rw [getElem?_clamped config.historyLen h hne]
  exact copyFrames_replicate (Window.length_padFront hne h)

theorem PhoneRing.stack_eq [Zero α] (r : PhoneRing config α)
    (h : r.frames.length ≤ config.historyLen) (hne : r.frames ≠ []) :
    r.stack = .ok (flat r.frames) := by
  obtain ⟨frames⟩ := r
  cases frames with
  | nil => exact absurd rfl hne
  | cons first frames =>
      have hlen := Window.length_padFront hne h
      have hsize : 3 * config.historyLen * (config.obsSize * config.obsSize) =
          config.historyLen * config.frameLen := by
        rw [OmniVlaConfig.frameLen]
        ring
      rw [stack]
      dsimp only
      rw [hsize]
      show copyFrames _ 0 (((Window.padFront config.historyLen (first :: frames)).drop
        ((Window.padFront config.historyLen (first :: frames)).length - config.historyLen)).map
          some) = _
      rw [hlen, Nat.sub_self, List.drop_zero]
      exact copyFrames_replicate hlen

/-- A ring that has just been pushed to holds a window that is not empty. -/
theorem pushed_ready (kept : List (Frame config α)) (frame : Frame config α) :
    (Window.push config.historyLen (kept.rtake config.historyLen) frame).length ≤
        config.historyLen ∧
      Window.push config.historyLen (kept.rtake config.historyLen) frame ≠ [] := by
  rw [Window.push_rtake, Window.length_rtake]
  exact ⟨Nat.min_le_left _ _,
    Window.rtake_ne_nil config.historyLen_pos (List.concat_ne_nil _ _)⟩

theorem EngineRing.stackObs_push {kept : List (Frame config α)} (r : EngineRing config α)
    (h : r.obsRing = kept.rtake config.historyLen) (frame : Frame config α) :
    (r.pushFrame frame).stackObs =
      .ok ((Window.window config.historyLen (kept ++ [frame])).flatMap List.Vector.toList) := by
  obtain ⟨hlen, hne⟩ := pushed_ready kept frame
  rw [← h] at hlen hne
  rw [EngineRing.stackObs_eq (r.pushFrame frame) hlen hne, Window.window, ← Window.push_rtake, ← h]
  rfl

theorem WebRing.stack_push [Zero α] {kept : List (Frame config α)} {r : WebRing config α}
    (h : r.frames = kept.rtake config.historyLen) (frame : Frame config α) :
    (⟨Window.push config.historyLen r.frames frame⟩ : WebRing config α).stack =
      .ok ((Window.window config.historyLen (kept ++ [frame])).flatMap List.Vector.toList) := by
  obtain ⟨hlen, hne⟩ := pushed_ready kept frame
  rw [← h] at hlen hne
  rw [WebRing.stack_eq ⟨Window.push _ r.frames frame⟩ hlen hne, Window.window,
    ← Window.push_rtake, ← h]
  rfl

theorem PhoneRing.stack_push [Zero α] {kept : List (Frame config α)} (r : PhoneRing config α)
    (h : r.frames = kept.rtake config.historyLen) (frame : Frame config α) :
    (r.push frame).stack =
      .ok ((Window.window config.historyLen (kept ++ [frame])).flatMap List.Vector.toList) := by
  obtain ⟨hlen, hne⟩ := pushed_ready kept frame
  rw [← h] at hlen hne
  rw [PhoneRing.stack_eq (r.push frame) hlen hne, Window.window, ← Window.push_rtake, ← h]
  rfl

/-- Every program builds the window of the frames since the last reset. -/
theorem Port.stackAfter_eq [Zero α] (port : Port) (ops : List (Op (Frame config α))) :
    port.stackAfter ops =
      if sinceReset ops = [] then .error noFrames
      else .ok (flat ((sinceReset ops).rtake config.historyLen)) := by
  have hlen : ((sinceReset ops).rtake config.historyLen).length ≤ config.historyLen := by
    rw [Window.length_rtake]
    exact Nat.min_le_left _ _
  split
  · rename_i hnil
    cases port with
    | python =>
        rw [stackAfter, EngineRing.stackObs, EngineRing.run_obsRing, hnil, List.rtake_nil]
        rfl
    | browser =>
        rw [stackAfter, WebRing.run_eq, hnil, List.rtake_nil]
        rfl
    | phone =>
        rw [stackAfter, PhoneRing.stack, PhoneRing.run_frames, hnil, List.rtake_nil]
  · rename_i hnil
    have hne := Window.rtake_ne_nil config.historyLen_pos hnil
    cases port with
    | python =>
        rw [← EngineRing.run_obsRing] at hlen hne ⊢
        exact EngineRing.stackObs_eq _ hlen hne
    | browser =>
        rw [stackAfter, WebRing.run_eq]
        exact WebRing.stack_eq _ hlen hne
    | phone =>
        rw [← PhoneRing.run_frames] at hlen hne ⊢
        exact PhoneRing.stack_eq _ hlen hne

/-! ## The result -/

/-- **The three ring buffers are one.**  With nothing pushed since the last reset, all three
report the error.  Else all three build the same stack of `historyLen` frames: the newest
ones since the last reset, oldest first, behind copies of the oldest one still buffered. -/
theorem stacks_agree [Zero α] (ops : List (Op (Frame config α))) :
    (sinceReset ops = [] → ∀ port : Port, port.stackAfter ops = .error noFrames) ∧
      (sinceReset ops ≠ [] → ∃ oldest newer,
        (sinceReset ops).rtake config.historyLen = oldest :: newer ∧
          (oldest :: newer).length = min config.historyLen (sinceReset ops).length ∧
          ∃ stack : List (Frame config α), stack.length = config.historyLen ∧
            stack = List.replicate
              (config.historyLen - min config.historyLen (sinceReset ops).length) oldest ++
                oldest :: newer ∧
            ∀ port : Port, port.stackAfter ops = .ok (stack.flatMap List.Vector.toList)) := by
  have hpos : 1 ≤ config.historyLen := config.historyLen_pos
  constructor
  · intro hnil port
    rw [Port.stackAfter_eq, if_pos hnil]
  · intro hnil
    have hwindow := Window.length_window hpos hnil
    obtain ⟨oldest, newer, hcons⟩ :=
      List.exists_cons_of_ne_nil (Window.rtake_ne_nil hpos hnil)
    have hlen := Window.length_rtake config.historyLen (sinceReset ops)
    rw [hcons] at hlen
    refine ⟨oldest, newer, hcons, hlen, _, hwindow, ?_, ?_⟩
    · rw [Window.window, hcons, Window.padFront, ← hlen]
      rfl
    · intro port
      rw [Port.stackAfter_eq, if_neg hnil]
      rfl

end ObsRing
