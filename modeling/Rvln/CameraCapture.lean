/-
# The camera of the edge node

`V4L2CameraCapture` of `camera_capture.py`: `open_device`, `start`, `stop` and `close`, as
the lifecycle transitions of the node call them, one after the other, and the capture loops
that `start` begins.  A loop is a thread of its own: it goes on one step at a time, between any
two steps of the others, and a read of the device returns when it likes.  The `join` of
`stop` returns when the loop has ended, or gives up.

* `Contract` : one loop at most can store frames, and every frame that is stored is one of
  the newest start, with no `stop` or `close` behind it;
* `CameraNode.one_writer_of_calm` : the contract holds as long as no `start` finds an older
  loop alive and no `join` gives up on a loop that is past its last check.

A loop is named by the number of starts before it, a device by the number of devices
opened before it.
-/
import Rvln.History
import Rvln.NodeEntities

/-! ## Data -/

/-- Where a capture loop stands. -/
inductive LoopPoint (Bgr : Type*)
  /-- `while not self._stop.is_set()`. -/
  | top
  /-- `if self._cap is None`. -/
  | guard
  /-- The call of `self._cap.read()`. -/
  | call
  /-- In the read of a device. -/
  | reading (device : ℕ)
  /-- `if self._stop.is_set()`, with what the read returned: a frame, or not `ok`. -/
  | check (frame : Option Bgr)
  /-- `time.sleep(0.1)`. -/
  | failed
  /-- `self._frames.put`. -/
  | storing (frame : Bgr)

/-- The loop is past its last check. -/
def LoopPoint.isStoring {Bgr : Type*} : LoopPoint Bgr → Bool
  | .storing _ => true
  | _ => false

/-- What a call of `stop` or `close` in flight waits for. -/
inductive Waiting
  /-- The `join` of `stop`, called by `close` or not. -/
  | join (closing : Bool)
  /-- The release of the device by `close`. -/
  | release

/-- What happens to the capture. -/
inductive CaptureEntry (Rgb : Type*)
  /-- `start` begins a loop. -/
  | started (loop : ℕ)
  /-- `stop` or `close` returns. -/
  | stopped
  /-- A loop puts a frame into the store, stamped with the time. -/
  | stored (loop : ℕ) (image : Rgb) (stampNs : ℤ)

/-- `V4L2CameraCapture`, with its loops and the call in flight. -/
structure V4L2CameraCapture (Bgr Rgb : Type*) where
  frames : CameraFrameStore Rgb
  cap : Option ℕ
  thread : Option ℕ
  /-- `_stop.is_set()`. -/
  stopSet : Bool
  devices : ℕ
  starts : ℕ
  /-- The loops that are alive. -/
  loops : List (ℕ × LoopPoint Bgr)
  waiting : Option Waiting
  log : List (CaptureEntry Rgb)

namespace V4L2CameraCapture

variable {Bgr Rgb : Type*}

/-- `__init__`. -/
def new : V4L2CameraCapture Bgr Rgb where
  frames := .new
  cap := none
  thread := none
  stopSet := false
  devices := 0
  starts := 0
  loops := []
  waiting := none
  log := []

/-- Add an entry to the log. -/
def record (c : V4L2CameraCapture Bgr Rgb) (entry : CaptureEntry Rgb) :
    V4L2CameraCapture Bgr Rgb :=
  { c with log := entry :: c.log }

/-! ## The calls -/

/-- `open_device`, for a device that can be opened or not. -/
def openDevice (c : V4L2CameraCapture Bgr Rgb) (isOpened : Bool) : V4L2CameraCapture Bgr Rgb :=
  if isOpened then { c with cap := some c.devices, devices := c.devices + 1 } else c

/-- `start`. -/
def start (c : V4L2CameraCapture Bgr Rgb) : V4L2CameraCapture Bgr Rgb :=
  match c.cap with
  | none => c
  | some _ =>
    { c.record (.started c.starts) with
      stopSet := false
      thread := some c.starts
      starts := c.starts + 1
      loops := (c.starts, .top) :: c.loops }

/-- `stop`, up to its `join`. -/
def stop (c : V4L2CameraCapture Bgr Rgb) : V4L2CameraCapture Bgr Rgb :=
  match c.thread with
  | none => c.record .stopped
  | some _ => { c with stopSet := true, waiting := some (.join false) }

/-- `close`, up to the `join` of its `stop`. -/
def close (c : V4L2CameraCapture Bgr Rgb) : V4L2CameraCapture Bgr Rgb :=
  match c.thread with
  | none => { c with waiting := some .release }
  | some _ => { c with stopSet := true, waiting := some (.join true) }

/-- What waits goes on: behind the `join`, or behind the release of the device. -/
def proceed (c : V4L2CameraCapture Bgr Rgb) : V4L2CameraCapture Bgr Rgb :=
  match c.waiting with
  | none => c
  | some (.join false) => { c.record .stopped with thread := none, waiting := none }
  | some (.join true) => { c with thread := none, waiting := some .release }
  | some .release =>
    { c.record .stopped with cap := none, frames := c.frames.clear, waiting := none }

/-! ## The loops -/

/-- A loop goes on to another point. -/
def goTo (c : V4L2CameraCapture Bgr Rgb) (loop : ℕ) (point : LoopPoint Bgr) :
    V4L2CameraCapture Bgr Rgb :=
  { c with loops := c.loops.map fun l => if l.1 = loop then (loop, point) else l }

/-- A loop ends. -/
def exit (c : V4L2CameraCapture Bgr Rgb) (loop : ℕ) : V4L2CameraCapture Bgr Rgb :=
  { c with loops := c.loops.filter fun l => l.1 ≠ loop }

/-- One step of `capture_loop` from a point; `time.monotonic_ns()` reads `nowNs`. -/
def stepFrom (cvtColor : Bgr → Rgb) (c : V4L2CameraCapture Bgr Rgb) (loop : ℕ) (nowNs : ℤ) :
    LoopPoint Bgr → V4L2CameraCapture Bgr Rgb
  | .top => if c.stopSet then c.exit loop else c.goTo loop .guard
  | .guard => if c.cap.isNone then c.exit loop else c.goTo loop .call
  | .call =>
    match c.cap with
    -- `close` came between: `None` has no `read`
    | none => c.exit loop
    | some device => c.goTo loop (.reading device)
  | .reading _ => c
  | .check frame =>
    if c.stopSet then c.exit loop
    else
      match frame with
      | none => c.goTo loop .failed
      | some frame => c.goTo loop (.storing frame)
  | .failed => c.goTo loop .top
  | .storing frame =>
    { (c.record (.stored loop (cvtColor frame) nowNs)).goTo loop .top with
      frames := c.frames.put (cvtColor frame) nowNs 0 }

/-- One step of a loop that is not in a read. -/
def advance (cvtColor : Bgr → Rgb) (c : V4L2CameraCapture Bgr Rgb) (loop : ℕ) (nowNs : ℤ) :
    V4L2CameraCapture Bgr Rgb :=
  match c.loops.lookup loop with
  | none => c
  | some point => c.stepFrom cvtColor loop nowNs point

/-- The read of a loop returns, with a frame or not, or raises. -/
def readReturns (c : V4L2CameraCapture Bgr Rgb) (loop : ℕ) :
    Option (Option Bgr) → V4L2CameraCapture Bgr Rgb
  | none => c.exit loop
  | some frame => c.goTo loop (.check frame)

/-- The loop is in a read. -/
def Reads (c : V4L2CameraCapture Bgr Rgb) (loop : ℕ) : Prop :=
  ∃ device, (loop, LoopPoint.reading device) ∈ c.loops

/-- What `on_deactivate` does when its `stop` has returned; `close` does it by itself. -/
def clearFrames (c : V4L2CameraCapture Bgr Rgb) : V4L2CameraCapture Bgr Rgb :=
  match c.waiting with
  | none => { c with frames := c.frames.clear }
  | some _ => c

end V4L2CameraCapture

/-! ## The node -/

/-- The node, as far as its camera goes. -/
structure CameraNode (Bgr Rgb : Type*) where
  primary : NodeEntities.Primary
  camera : V4L2CameraCapture Bgr Rgb

namespace CameraNode

open V4L2CameraCapture

variable {Bgr Rgb : Type*}

/-- A node that was just started. -/
def new : CameraNode Bgr Rgb := ⟨.unconfigured, .new⟩

/-- What can happen to the node and its camera. -/
inductive Event (Bgr : Type*)
  /-- `on_configure`, without a camera device or with one that can be opened or not. -/
  | configure (isOpened : Option Bool)
  | activate
  | deactivate
  | cleanup
  | shutdown
  /-- A transition raised, behind its call of the camera: the node is unconfigured. -/
  | raised
  /-- What a call of the camera waits for is there, or its `join` gives up. -/
  | proceed
  | advance (loop : ℕ) (nowNs : ℤ)
  | readReturns (loop : ℕ) (result : Option (Option Bgr))

/-- What the lifecycle and the loops allow; a transition waits for its call of the camera. -/
def Guard (n : CameraNode Bgr Rgb) : Event Bgr → Prop
  | .configure _ => n.primary = .unconfigured ∧ n.camera.waiting = none
  | .activate | .cleanup => n.primary = .inactive ∧ n.camera.waiting = none
  | .deactivate => n.primary = .active ∧ n.camera.waiting = none
  | .shutdown | .raised => n.primary ≠ .finalized ∧ n.camera.waiting = none
  | .proceed => n.camera.waiting ≠ none
  | .advance loop _ => loop ∈ n.camera.loops.map Prod.fst
  | .readReturns loop _ => n.camera.Reads loop

/-- One event. -/
def step (cvtColor : Bgr → Rgb) (n : CameraNode Bgr Rgb) : Event Bgr → CameraNode Bgr Rgb
  | .configure none => { n with primary := .inactive }
  | .configure (some isOpened) =>
    ⟨if isOpened then .inactive else .unconfigured, n.camera.openDevice isOpened⟩
  | .activate => ⟨.active, n.camera.start⟩
  | .deactivate => ⟨.inactive, n.camera.stop.clearFrames⟩
  | .cleanup => ⟨.unconfigured, n.camera.close⟩
  | .shutdown => { n with primary := .finalized }
  | .raised => { n with primary := .unconfigured }
  | .proceed => { n with camera := n.camera.proceed.clearFrames }
  | .advance loop nowNs => { n with camera := n.camera.advance cvtColor loop nowNs }
  | .readReturns loop result => { n with camera := n.camera.readReturns loop result }

/-- The node under its events. -/
def machine (cvtColor : Bgr → Rgb) : Machine (CameraNode Bgr Rgb) (Event Bgr) where
  Init n := n = new
  Guard := Guard
  next := step cvtColor

end CameraNode

namespace V4L2CameraCapture

variable {Bgr Rgb : Type*}

/-! ## The contract -/

/-- The loop that the newest start began, if no `stop` or `close` has returned since. -/
def running : List (CaptureEntry Rgb) → Option ℕ
  | [] => none
  | .started loop :: _ => some loop
  | .stopped :: _ => none
  | .stored _ _ _ :: older => running older

/-- A frame is stored by the loop that runs. -/
def Proper : CaptureEntry Rgb → List (CaptureEntry Rgb) → Prop
  | .stored loop _ _, older => running older = some loop
  | _, _ => True

/-- A loop is alive and goes on to store frames if nothing stops it. -/
def CanStore (c : V4L2CameraCapture Bgr Rgb) (loop : ℕ) : Prop :=
  ∃ point, (loop, point) ∈ c.loops ∧ (c.stopSet = false ∨ point.isStoring = true)

/-- **The contract of the capture.** -/
structure Contract (c : V4L2CameraCapture Bgr Rgb) : Prop where
  one_writer : ∀ i j, c.CanStore i → c.CanStore j → i = j
  proper : History.Each Proper c.log

/-- What holds of a capture along a calm run. -/
structure Single (c : V4L2CameraCapture Bgr Rgb) : Prop where
  one : c.loops.length ≤ 1
  older : ∀ l ∈ c.loops, l.1 < c.starts
  writer : ∀ k, c.CanStore k → running c.log = some k ∧ c.thread = some k
  joining : ∀ closing, c.waiting = some (.join closing) → c.stopSet = true
  releasing : c.waiting = some .release → c.thread = none
  proper : History.Each Proper c.log

section

variable {cvtColor : Bgr → Rgb} {c : V4L2CameraCapture Bgr Rgb} {k : ℕ} {point : LoopPoint Bgr}

theorem Single.contract (h : Single c) : Contract c where
  one_writer := by
    intro i j hi hj
    have heq : some i = some j := (h.writer i hi).1.symm.trans (h.writer j hj).1
    exact Option.some.inj heq
  proper := h.proper

/-- The only loop there is. -/
theorem Single.loops_eq (h : Single c) (hmem : (k, point) ∈ c.loops) : c.loops = [(k, point)] := by
  obtain ⟨l, hl⟩ := List.length_eq_one_iff.mp
    (Nat.le_antisymm h.one (List.length_pos_of_mem hmem))
  rw [hl] at hmem ⊢
  rw [List.mem_singleton.mp hmem]

/-! ### The calls -/

theorem single_new : Single (new : V4L2CameraCapture Bgr Rgb) where
  one := Nat.zero_le 1
  older := nofun
  writer := by
    rintro k ⟨point, hmem, -⟩
    cases hmem
  joining := nofun
  releasing := nofun
  proper := trivial

theorem Single.openDevice (h : Single c) (isOpened : Bool) : Single (c.openDevice isOpened) := by
  cases isOpened with
  | false => exact h
  | true => exact ⟨h.one, h.older, h.writer, h.joining, h.releasing, h.proper⟩

theorem Single.clearFrames (h : Single c) : Single c.clearFrames := by
  unfold V4L2CameraCapture.clearFrames
  split
  · exact ⟨h.one, h.older, h.writer, h.joining, h.releasing, h.proper⟩
  · exact h

/-- The loop of a start is the only one if no older loop is alive. -/
theorem Single.start (h : Single c) (hwaiting : c.waiting = none)
    (hcalm : c.cap.isSome = true → c.loops = []) : Single c.start := by
  unfold V4L2CameraCapture.start
  cases hcap : c.cap with
  | none => exact h
  | some device =>
      have hloops : c.loops = [] := hcalm (by rw [hcap]; rfl)
      dsimp only
      rw [hloops]
      refine ⟨Nat.le_refl 1, ?_, ?_, ?_, ?_, trivial, h.proper⟩
      · intro l hl
        rw [List.mem_singleton.mp hl]
        exact Nat.lt_succ_self c.starts
      · rintro k ⟨point, hmem, -⟩
        cases List.mem_singleton.mp hmem
        exact ⟨rfl, rfl⟩
      · intro closing hjoin
        cases hwaiting.symm.trans hjoin
      · intro hrelease
        cases hwaiting.symm.trans hrelease

/-- A capture without a thread has no loop that can store. -/
theorem Single.not_canStore (h : Single c) (hthread : c.thread = none) : ¬ c.CanStore k := by
  intro hk
  cases hthread.symm.trans (h.writer k hk).2

/-- Setting the flag leaves the loops that are past their last check. -/
theorem Single.setStop (h : Single c) (closing : Bool) :
    Single { c with stopSet := true, waiting := some (.join closing) } where
  one := h.one
  older := h.older
  writer := by
    rintro k ⟨point, hmem, hset | hstoring⟩
    · cases hset
    · exact h.writer k ⟨point, hmem, Or.inr hstoring⟩
  joining := fun _ _ => rfl
  releasing := nofun
  proper := h.proper

/-- `stop` or `close` returns when no loop can store. -/
theorem Single.stopped (h : Single c) (hstore : ∀ k, ¬ c.CanStore k)
    {c' : V4L2CameraCapture Bgr Rgb} (hloops : c'.loops = c.loops) (hset : c'.stopSet = c.stopSet)
    (hstarts : c'.starts = c.starts) (hwaiting : c'.waiting = none)
    (hlog : c'.log = .stopped :: c.log) : Single c' where
  one := hloops ▸ h.one
  older := by
    rw [hloops, hstarts]
    exact h.older
  writer := by
    rintro k ⟨point, hmem, hset'⟩
    rw [hloops] at hmem
    rw [hset] at hset'
    exact absurd ⟨point, hmem, hset'⟩ (hstore k)
  joining := by
    intro closing hjoin
    cases hwaiting.symm.trans hjoin
  releasing := by
    intro hrelease
    cases hwaiting.symm.trans hrelease
  proper := by
    rw [hlog]
    exact ⟨trivial, h.proper⟩

theorem Single.stop (h : Single c) (hwaiting : c.waiting = none) : Single c.stop := by
  unfold V4L2CameraCapture.stop
  split
  · rename_i hthread
    exact h.stopped (fun _ => h.not_canStore hthread) rfl rfl rfl hwaiting rfl
  · exact h.setStop false

theorem Single.close (h : Single c) : Single c.close := by
  unfold V4L2CameraCapture.close
  split
  · rename_i hthread
    exact ⟨h.one, h.older, h.writer, nofun, fun _ => hthread, h.proper⟩
  · exact h.setStop true

/-- Behind a `join`, with no loop past its last check, no loop can store. -/
theorem Single.not_canStore_of_join (h : Single c) {closing : Bool}
    (hjoin : c.waiting = some (.join closing)) (hcalm : ∀ l ∈ c.loops, l.2.isStoring = false) :
    ¬ c.CanStore k := by
  rintro ⟨point, hmem, hset | hstoring⟩
  · cases (h.joining closing hjoin).symm.trans hset
  · cases (hcalm _ hmem).symm.trans hstoring

theorem Single.proceed (h : Single c)
    (hcalm : ∀ l ∈ c.loops, l.2.isStoring = false ∨ c.waiting = some .release) :
    Single c.proceed := by
  unfold V4L2CameraCapture.proceed
  have hchecked : ∀ closing, c.waiting = some (.join closing) →
      ∀ l ∈ c.loops, l.2.isStoring = false := by
    intro closing hjoin l hl
    refine (hcalm l hl).resolve_right ?_
    rw [hjoin]
    nofun
  cases hwaiting : c.waiting with
  | none => exact h
  | some waiting =>
      cases waiting with
      | release =>
          exact h.stopped (fun _ => h.not_canStore (h.releasing hwaiting)) rfl rfl rfl rfl rfl
      | join closing =>
          have hstore : ∀ k, ¬ c.CanStore k :=
            fun _ => h.not_canStore_of_join hwaiting (hchecked closing hwaiting)
          cases closing with
          | false => exact h.stopped hstore rfl rfl rfl rfl rfl
          | true => exact ⟨h.one, h.older, fun k hk => absurd hk (hstore k), nofun, fun _ => rfl,
              h.proper⟩

/-! ### The loops -/

/-- A loop that goes on can store only if it could before. -/
theorem Single.goTo (h : Single c) (hloops : c.loops = [(k, point)]) (point' : LoopPoint Bgr)
    (hstoring : point'.isStoring = true → c.stopSet = false) : Single (c.goTo k point') := by
  have hloops' : (c.goTo k point').loops = [(k, point')] := by
    unfold V4L2CameraCapture.goTo
    rw [hloops]
    simp
  refine ⟨?_, ?_, ?_, h.joining, h.releasing, h.proper⟩
  · rw [hloops']
    exact Nat.le_refl 1
  · rw [hloops']
    intro l hl
    rw [List.mem_singleton.mp hl]
    exact h.older (k, point) (hloops ▸ List.mem_singleton_self _)
  · rintro i ⟨p, hmem, hset⟩
    rw [hloops'] at hmem
    cases List.mem_singleton.mp hmem
    exact h.writer k ⟨point, hloops ▸ List.mem_singleton_self _, Or.inl (hset.elim id hstoring)⟩

theorem Single.exit (h : Single c) (k : ℕ) : Single (c.exit k) where
  one := (List.length_filter_le _ _).trans h.one
  older := fun l hl => h.older l (List.mem_of_mem_filter hl)
  writer := by
    rintro i ⟨p, hmem, hset⟩
    exact h.writer i ⟨p, List.mem_of_mem_filter hmem, hset⟩
  joining := h.joining
  releasing := h.releasing
  proper := h.proper

/-- What the running loop stores is proper. -/
theorem Single.stored (h : Single c) (hstore : c.CanStore k) (image : Rgb) (nowNs : ℤ)
    (frames : CameraFrameStore Rgb) :
    Single { c.record (.stored k image nowNs) with frames := frames } :=
  ⟨h.one, h.older, h.writer, h.joining, h.releasing, (h.writer k hstore).1, h.proper⟩

/-- One step of the only loop there is. -/
theorem Single.stepFrom (h : Single c) (hloops : c.loops = [(k, point)]) (nowNs : ℤ) :
    Single (c.stepFrom cvtColor k nowNs point) := by
  cases point with
  | top =>
      unfold V4L2CameraCapture.stepFrom
      dsimp only
      split
      · exact h.exit k
      · exact h.goTo hloops .guard nofun
  | guard =>
      unfold V4L2CameraCapture.stepFrom
      dsimp only
      split
      · exact h.exit k
      · exact h.goTo hloops .call nofun
  | call =>
      unfold V4L2CameraCapture.stepFrom
      dsimp only
      split
      · exact h.exit k
      · exact h.goTo hloops (.reading _) nofun
  | reading device => exact h
  | check frame =>
      unfold V4L2CameraCapture.stepFrom
      dsimp only
      split
      · exact h.exit k
      · rename_i hset
        split
        · exact h.goTo hloops .failed nofun
        · exact h.goTo hloops (.storing _) fun _ => Bool.eq_false_iff.mpr hset
  | failed => exact h.goTo hloops .top nofun
  | storing frame =>
      -- the only loop is the one that stores
      have hstore : c.CanStore k :=
        ⟨.storing frame, hloops ▸ List.mem_singleton_self _, Or.inr rfl⟩
      exact (h.stored hstore (cvtColor frame) nowNs (c.frames.put (cvtColor frame) nowNs 0)).goTo
        hloops .top nofun

theorem Single.advance (h : Single c) (hmem : k ∈ c.loops.map Prod.fst) (nowNs : ℤ) :
    Single (c.advance cvtColor k nowNs) := by
  obtain ⟨⟨k', point⟩, hpoint, hk⟩ := List.mem_map.mp hmem
  obtain rfl : k' = k := hk
  have hloops : c.loops = [(k', point)] := h.loops_eq hpoint
  unfold V4L2CameraCapture.advance
  rw [hloops, List.lookup_cons_self]
  exact h.stepFrom hloops nowNs

theorem Single.readReturns (h : Single c) (hreads : c.Reads k) (result : Option (Option Bgr)) :
    Single (c.readReturns k result) := by
  obtain ⟨device, hmem⟩ := hreads
  cases result with
  | none => exact h.exit k
  | some frame => exact h.goTo (h.loops_eq hmem) (.check frame) nofun

end

end V4L2CameraCapture

namespace CameraNode

open V4L2CameraCapture

variable {Bgr Rgb : Type*} {cvtColor : Bgr → Rgb} {n : CameraNode Bgr Rgb}

/-! ## Calm runs -/

/-- No `start` of an open device finds a loop alive, and no `join` gives up on a loop that is
past its last check. -/
def Calm (n : CameraNode Bgr Rgb) : Event Bgr → Prop
  | .activate => n.camera.cap.isSome = true → n.camera.loops = []
  | .proceed => ∀ l ∈ n.camera.loops, l.2.isStoring = false ∨ n.camera.waiting = some .release
  | _ => True

/-- **Calm runs have one loop.** -/
theorem single_invariant :
    ((machine cvtColor).restrict Calm).Invariant fun n : CameraNode Bgr Rgb => Single n.camera where
  init := by
    rintro n rfl
    exact single_new
  step := by
    rintro n e h ⟨hguard, hcalm⟩
    cases e with
    | configure isOpened =>
        cases isOpened with
        | none => exact h
        | some isOpened => exact h.openDevice isOpened
    | activate => exact h.start hguard.2 hcalm
    | deactivate => exact (h.stop hguard.2).clearFrames
    | cleanup => exact h.close
    | shutdown => exact h
    | raised => exact h
    | proceed => exact (h.proceed hcalm).clearFrames
    | advance loop nowNs => exact h.advance hguard nowNs
    | readReturns loop result => exact h.readReturns hguard result

/-! ## Steps that are not calm -/

/-- The loop of an older start is woken by the next one. -/
theorem not_contract_of_start (h : Single n.camera) (hcap : n.camera.cap.isSome = true)
    (hloops : n.camera.loops ≠ []) : ¬ Contract n.camera.start := by
  obtain ⟨⟨k, point⟩, hmem⟩ := List.exists_mem_of_ne_nil _ hloops
  obtain ⟨device, hcap⟩ := Option.isSome_iff_exists.mp hcap
  intro hcontract
  have hk : n.camera.start.CanStore k := by
    unfold V4L2CameraCapture.start
    rw [hcap]
    exact ⟨point, List.mem_cons_of_mem _ hmem, Or.inl rfl⟩
  have hnew : n.camera.start.CanStore n.camera.starts := by
    unfold V4L2CameraCapture.start
    rw [hcap]
    exact ⟨.top, List.mem_cons_self, Or.inl rfl⟩
  have hlt : k < n.camera.starts := h.older (k, point) hmem
  exact absurd (hcontract.one_writer k _ hk hnew) (Nat.ne_of_lt hlt)

variable (cvtColor) in
/-- A frame that is stored behind the return of `stop` or `close`. -/
theorem not_contract_of_stored {c : V4L2CameraCapture Bgr Rgb} {k : ℕ} {frame : Bgr}
    (hloops : c.loops = [(k, .storing frame)]) {log : List (CaptureEntry Rgb)}
    (hlog : c.log = .stopped :: log) (nowNs : ℤ) :
    k ∈ c.loops.map Prod.fst ∧ ¬ Contract (c.advance cvtColor k nowNs) := by
  refine ⟨hloops ▸ List.mem_singleton_self k, ?_⟩
  intro hcontract
  have hproper := hcontract.proper
  unfold V4L2CameraCapture.advance at hproper
  rw [hloops, List.lookup_cons_self] at hproper
  have hrunning : running c.log = some k := hproper.1
  rw [hlog] at hrunning
  cases hrunning

variable (cvtColor) in
/-- A `stop` whose `join` gives up returns at once, a `close` behind its release. -/
theorem exec_proceed {closing : Bool} (hjoin : n.camera.waiting = some (.join closing)) :
    ∃ es, (machine cvtColor).Enabled (n.step cvtColor .proceed) es ∧
      ((machine cvtColor).exec (n.step cvtColor .proceed) es).camera.loops = n.camera.loops ∧
      ((machine cvtColor).exec (n.step cvtColor .proceed) es).camera.log =
        .stopped :: n.camera.log := by
  cases closing with
  | false =>
      refine ⟨[], trivial, ?_⟩
      simp [step, proceed, clearFrames, record, hjoin]
  | true =>
      refine ⟨[.proceed], ⟨?_, trivial⟩, ?_⟩
      · simp [machine, Guard, step, proceed, clearFrames, hjoin]
      · simp [machine, step, proceed, clearFrames, record, hjoin]

variable (cvtColor) in
/-- **No other condition would do**: behind a step that is not calm the run can break the
contract, if it has not broken it already. -/
theorem breaks_of_not_calm (h : Single n.camera) {e : Event Bgr} (hguard : n.Guard e)
    (hcalm : ¬ n.Calm e) :
    ∃ es, (machine cvtColor).Enabled (n.step cvtColor e) es ∧
      ¬ Contract ((machine cvtColor).exec (n.step cvtColor e) es).camera := by
  cases e with
  | activate =>
      obtain ⟨hcap, hloops⟩ := Classical.not_imp.mp hcalm
      exact ⟨[], trivial, not_contract_of_start h hcap hloops⟩
  | proceed =>
      obtain ⟨⟨k, point⟩, hl⟩ := not_forall.mp hcalm
      obtain ⟨hmem, hl⟩ := Classical.not_imp.mp hl
      obtain ⟨hstoring, hrelease⟩ := not_or.mp hl
      have hloops := h.loops_eq hmem
      cases point with
      | storing frame =>
          cases hwaiting : n.camera.waiting with
          | none => exact absurd hwaiting hguard
          | some waiting =>
              cases waiting with
              | release => exact absurd hwaiting hrelease
              | join closing =>
                  obtain ⟨es, hes, hloops', hlog⟩ := exec_proceed cvtColor hwaiting
                  obtain ⟨hk, hbroken⟩ :=
                    not_contract_of_stored cvtColor (hloops'.trans hloops) hlog 0
                  refine ⟨es ++ [.advance k 0], ?_, ?_⟩
                  · rw [Machine.enabled_append]
                    exact ⟨hes, hk, trivial⟩
                  · rw [Machine.exec_append]
                    exact hbroken
      | _ => exact absurd rfl hstoring
  | _ => exact absurd trivial hcalm

/-! ## The result -/

/-- **The contract holds in every state of a calm run**, and a step that is not calm lets the
run break it. -/
theorem one_writer_of_calm {es : List (Event Bgr)}
    (h : ((machine cvtColor).restrict Calm).Run es n) :
    Contract n.camera ∧ ∀ e, n.Guard e → ¬ n.Calm e →
      ∃ es', (machine cvtColor).Run (es ++ e :: es')
          ((machine cvtColor).exec (n.step cvtColor e) es') ∧
        ¬ Contract ((machine cvtColor).exec (n.step cvtColor e) es').camera := by
  have hsingle := single_invariant.of_run h
  refine ⟨hsingle.contract, ?_⟩
  intro e hguard hcalm
  obtain ⟨es', henabled, hbroken⟩ := breaks_of_not_calm cvtColor hsingle hguard hcalm
  exact ⟨es', h.of_restrict.exec (e :: es') ⟨hguard, henabled⟩, hbroken⟩

/-- The camera is opened and started; the loop reads one frame and stores it. -/
def oneFrame : List (Event ℕ) :=
  [.configure (some true), .activate, .advance 0 0, .advance 0 0, .advance 0 0,
    .readReturns 0 (some (some 7)), .advance 0 0, .advance 0 5]

theorem one_writer_of_calm_oneFrame :
    ((machine id).exec new oneFrame).camera.log = [.stored 0 7 5, .started 0] ∧
      Contract ((machine id).exec new oneFrame).camera := by
  have henabled : ((machine (id : ℕ → ℕ)).restrict Calm).Enabled new oneFrame := by
    have hloop (point : LoopPoint ℕ) : 0 ∈ [((0 : ℕ), point)].map Prod.fst :=
      List.mem_singleton_self 0
    exact ⟨⟨⟨rfl, rfl⟩, trivial⟩, ⟨⟨rfl, rfl⟩, fun _ => rfl⟩, ⟨hloop .top, trivial⟩,
      ⟨hloop .guard, trivial⟩, ⟨hloop .call, trivial⟩,
      ⟨⟨0, List.mem_singleton_self _⟩, trivial⟩, ⟨hloop (.check (some 7)), trivial⟩,
      ⟨hloop (.storing 7), trivial⟩, trivial⟩
  have hrun : ((machine id).restrict Calm).Run oneFrame ((machine id).exec new oneFrame) := by
    have h := Machine.run_of_enabled (M := (machine (id : ℕ → ℕ)).restrict Calm) rfl henabled
    rwa [Machine.restrict_exec] at h
  exact ⟨rfl, (one_writer_of_calm hrun).1⟩

/-- The camera hangs in a read when the node is deactivated, and the node is activated again. -/
def restarted : List (Event ℕ) :=
  [.configure (some true), .activate, .advance 0 0, .advance 0 0, .advance 0 0, .deactivate,
    .proceed, .activate]

/-- The second start wakes the first loop: two loops can store frames. -/
theorem two_loops_after_restart :
    ¬ ∀ es (n : CameraNode ℕ ℕ), (machine id).Run es n → Contract n.camera := by
  intro h
  have henabled : (machine (id : ℕ → ℕ)).Enabled new restarted := by
    have hloop (point : LoopPoint ℕ) : 0 ∈ [((0 : ℕ), point)].map Prod.fst :=
      List.mem_singleton_self 0
    exact ⟨⟨rfl, rfl⟩, ⟨rfl, rfl⟩, hloop .top, hloop .guard, hloop .call, ⟨rfl, rfl⟩, nofun,
      ⟨rfl, rfl⟩, trivial⟩
  have hrun : (machine id).Run restarted ((machine id).exec new restarted) :=
    Machine.run_of_enabled rfl henabled
  have hone := (h _ _ hrun).one_writer 0 1
    ⟨.reading 0, List.mem_cons_of_mem _ (List.mem_singleton_self _), Or.inl rfl⟩
    ⟨.top, List.mem_cons_self, Or.inl rfl⟩
  exact absurd hone Nat.zero_ne_one

end CameraNode
