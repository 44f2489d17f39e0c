/-
# Episodes of the R2R benchmark in Isaac

`load_scene_record`, `transform_point` and `initial_yaw` of `scene.py`, the motion of
`IsaacR2RSimulator` of `run.py`, the loop of `run_episode` of `episode.py` over it, and
`score` of `protocol.py`, with exact arithmetic and the functions of `math`.

`numpy.linalg.inv` is a parameter, with the law that it gives an inverse of a matrix that
has one.  The collision rays of a step are the world's answers; so is what the policy says
at a frame, when the observation or the request does not raise.  The start position and the
goal of an episode are the finite ones that `load_episodes` lets pass.  Rendering and the
checks of the USD stage are left out.

* `loadSceneRecord` : the checks of a registration, in their order;
* `Simulator.apply`, `runEpisode`, `score` : the run of an episode and its score;
* `dist_transformPoint` : a registration keeps distances up to its tolerance;
* `score_runEpisode` : what a score says of the run that it is of;
* `pose_runEpisode` : where the actions lead.
-/
import Mathlib.LinearAlgebra.Matrix.NonsingularInverse
import Mathlib.Tactic.FinCases
import Mathlib.Tactic.NormNum
import Rvln.NearIsometry
import Rvln.PyFloat

namespace R2R

open Matrix Numeral

-- the indices of a point
local instance neZeroThree : NeZero 3 := ⟨Nat.succ_ne_zero 2⟩

/-! ## Registrations -/

/-- A point of space. -/
abbrev Point (K : Type) : Type := Fin 3 → K

/-- A homogeneous transformation. -/
abbrev Transform (K : Type) : Type := Matrix (Fin 4) (Fin 4) K

/-- The record of a scene in the file of scenes. -/
structure SceneRecord (K : Type) where
  usdIsAbsolute : Bool
  usdIsFile : Bool
  /-- `usd.suffix.lower()` of the resolved path. -/
  usdSuffix : String
  isaacFromHabitat : List (List (PyFloat K))
  domeLightIntensity : Option (PyFloat K)

/-- What `load_scene_record` returns, next to the path of the scene. -/
structure Scene (K : Type) where
  matrix : Transform K
  inverse : Transform K
  domeLightIntensity : K

/-- The `ValueError`s, by their texts. -/
inductive RunError (E : Type)
  | valueError (text : String)
  /-- What the simulator, the policy or the network raises. -/
  | outside (e : E)

section

variable {K : Type} {E : Type} [Field K] [LinearOrder K]

/-- `numpy.isclose`, for finite numbers. -/
def isclose (atol a b : K) : Prop := |a - b| ≤ atol + 1 / 100000 * |b|

instance (atol a b : K) : Decidable (isclose atol a b) := inferInstanceAs (Decidable (_ ≤ _))

/-- `numpy.allclose`, for finite matrices. -/
def allclose (atol : K) (a b : Matrix (Fin 3) (Fin 3) K) : Prop :=
  ∀ i j, isclose atol (a i j) (b i j)

instance (atol : K) (a b : Matrix (Fin 3) (Fin 3) K) : Decidable (allclose atol a b) :=
  have (i : Fin 3) : Decidable (∀ j, isclose atol (a i j) (b i j)) := inferInstance
  inferInstanceAs (Decidable (∀ i, ∀ j, isclose atol (a i j) (b i j)))

/-- `numpy.asarray(matrix, dtype=float)`, for rows and columns that are there and finite. -/
def asarray (rows : List (List (PyFloat K))) : Transform K := fun i j =>
  match rows[i.val]?.bind fun row => row[j.val]? with
  | some (.fin x) => x
  | _ => 0

/-- `transform[:3, :3]`. -/
def rotation (m : Transform K) : Matrix (Fin 3) (Fin 3) K := m.submatrix Fin.castSucc Fin.castSucc

/-- `if condition: raise ValueError(text)`. -/
def refuseIf (condition : Prop) [Decidable condition] (text : String) : Except (RunError E) Unit :=
  if condition then .error (.valueError text) else .ok ()

/-- The default of the absolute tolerance of `numpy`. -/
def defaultTolerance : K := 1 / 100000000

/-- `float(record.get("dome_light_intensity", 0.0))`, if it is finite and nonnegative. -/
def domeIntensity : Option (PyFloat K) → Option K
  | none => some 0
  | some (.fin x) => if x < 0 then none else some x
  | some _ => none

/-- `load_scene_record`. -/
def loadSceneRecord (inv : Transform K → Transform K) (record : SceneRecord K) :
    Except (RunError E) (Scene K) := do
  refuseIf (record.usdIsAbsolute = false) "scene USD path must be absolute"
  refuseIf (record.usdIsFile = false ∨ record.usdSuffix ∉ [".usd", ".usda", ".usdc"])
    "missing USD scene"
  let rows := record.isaacFromHabitat
  refuseIf (rows.length ≠ 4 ∨ ∃ row ∈ rows, row.length ≠ 4)
    "isaac_from_habitat must be a 4x4 matrix"
  let transform := asarray rows
  refuseIf (¬(∀ row ∈ rows, ∀ x ∈ row, x.IsFinite) ∨
      ¬∀ j, isclose defaultTolerance (transform 3 j) (if j = 3 then 1 else 0))
    "invalid scene transform"
  let r := rotation transform
  refuseIf (¬allclose (1 / 10000) (rᵀ * r) 1)
    "scene transform must preserve metric distance"
  refuseIf (¬isclose (1 / 10000) r.det 1) "scene transform must be a proper rotation"
  match domeIntensity record.domeLightIntensity with
  | none => .error (.valueError "dome_light_intensity must be finite and nonnegative")
  | some intensity => .ok ⟨transform, inv transform, intensity⟩

/-- `transform_point`. -/
def transformPoint (m : Transform K) (p : Point K) : Point K := fun i =>
  (m *ᵥ ![p 0, p 1, p 2, 1]) i.castSucc

end

/-! ## Motion -/

/-- An episode of the split, with the fields that a run reads. -/
structure Episode (K : Type) where
  startPosition : Point K
  /-- `start_rotation`: `x`, `y`, `z`, `w`. -/
  startRotation : Fin 4 → K
  goal : Point K
  geodesicDistance : K

/-- `IsaacR2RSimulator`, the fields that an action changes. -/
structure Simulator (K : Type) where
  position : Point K
  yaw : K
  blockedSteps : ℕ

/-- `raycast_closest(origin, direction, distance)["hit"]` during one step. -/
abbrev Rays (K : Type) : Type := Point K → Point K → K → Bool

section

variable {K : Type} {E : Type} [Field K] [LinearOrder K] [Trig K]

/-- The camera's forward direction (`-Z`) of a rotation. -/
def forwardOf (q : Fin 4 → K) : Point K :=
  ![-2 * (q 0 * q 2 + q 3 * q 1), -2 * (q 1 * q 2 - q 3 * q 0), -(1 - 2 * (q 0 * q 0 + q 1 * q 1))]

/-- `initial_yaw`. -/
def initialYaw (e : Episode K) (r : Matrix (Fin 3) (Fin 3) K) : Except (RunError E) K :=
  let direction := r *ᵥ forwardOf e.startRotation
  if Trig.hypot (direction 0) (direction 1) < 1 / 100000 then
    .error (.valueError "initial forward vector is vertical after conversion")
  else .ok (Trig.atan2 (direction 1) (direction 0))

namespace Simulator

/-- `reset`; the position that it returns is `start_position`. -/
def reset (scene : Scene K) (e : Episode K) : Except (RunError E) (Simulator K) := do
  let yaw ← initialYaw e (rotation scene.matrix)
  pure ⟨transformPoint scene.matrix e.startPosition, yaw, 0⟩

/-- The direction of a yaw. -/
def direction (yaw : K) : Point K := ![Trig.cos yaw, Trig.sin yaw, 0]

/-- The heights of the rays: 0.15, 0.75 and 1.4. -/
def rayHeights (K : Type) [Field K] : List K := [3 / 4 / 5, 3 / 4, 7 / 5]

/-- The offsets of the rays to the side. -/
def rayOffsets (K : Type) [Field K] : List K := [-(1 / 10), 0, 1 / 10]

/-- The nine rays of a step forward. -/
def isBlocked (rays : Rays K) (s : Simulator K) : Bool :=
  let d := direction s.yaw
  let side : Point K := ![-d 1, d 0, 0]
  (rayHeights K).any fun height => (rayOffsets K).any fun offset =>
    rays (s.position + (offset : K) • side + ![0, 0, height]) d (1 / 4)

/-- `apply`, what it does to the simulator. -/
def act (rays : Rays K) (s : Simulator K) (action : String) : Except (RunError E) (Simulator K) :=
  if action = "left" then .ok { s with yaw := s.yaw + Trig.radians 15 }
  else if action = "right" then .ok { s with yaw := s.yaw - Trig.radians 15 }
  else if action = "forward" then
    if isBlocked rays s then .ok { s with blockedSteps := s.blockedSteps + 1 }
    else .ok { s with position := s.position + (1 / 4 : K) • direction s.yaw }
  else .error (.valueError "unsupported action")

/-- `apply`, with the position that it returns. -/
def apply (scene : Scene K) (rays : Rays K) (s : Simulator K) (action : String) :
    Except (RunError E) (Simulator K × Point K) := do
  let s' ← act rays s action
  pure (s', transformPoint scene.inverse s'.position)

end Simulator

/-- `trace`. -/
structure Trace (K : Type) where
  positions : List (Point K)
  actions : List String
  stopped : Bool

/-- `allowed_actions`. -/
def allowedActions : List String := ["stop", "forward", "left", "right"]

/-- The loop of `run_episode`, with the frames that are left; `said` is how the observation
and the policy end at a frame. -/
def runFrames (scene : Scene K) (world : ℕ → Rays K) (said : ℕ → Except E String) :
    ℕ → ℕ → Simulator K → List (Point K) → List String →
      Except (RunError E) (Simulator K × Trace K)
  | 0, _, s, positions, actions => .ok (s, ⟨positions, actions, false⟩)
  | left + 1, frame, s, positions, actions => do
    let action ← (said frame).mapError RunError.outside
    refuseIf (action ∉ allowedActions) "invalid action"
    if action = "stop" then pure (s, ⟨positions, actions ++ [action], true⟩)
    else do
      let (s', position) ← s.apply scene (world frame) action
      runFrames scene world said left (frame + 1) s' (positions ++ [position]) (actions ++ [action])

/-- `run_episode`, after the reset of the policy. -/
def runEpisode (scene : Scene K) (world : ℕ → Rays K) (said : ℕ → Except E String) (e : Episode K)
    (maxSteps : ℤ) : Except (RunError E) (Simulator K × Trace K) := do
  refuseIf (maxSteps < 1) "max_steps must be positive"
  let s ← Simulator.reset scene e
  runFrames scene world said maxSteps.toNat 0 s [e.startPosition] []

/-! ## Scores -/

/-- `math.dist`. -/
def dist (a b : Point K) : K :=
  Trig.hypot (Trig.hypot (a 0 - b 0) (a 1 - b 1)) (a 2 - b 2)

/-- What `score` returns, next to the names. -/
structure Score (K : Type) where
  navigationError : K
  trajectoryLength : K
  sourceGeodesic : K
  stopped : Bool
  success : Bool
  spl : K

/-- `sum(distance(a, b) for a, b in zip(positions, positions[1:]))`. -/
def traveled (positions : List (Point K)) : K :=
  (List.zipWith dist positions positions.tail).sum

/-- `score`. -/
def score (e : Episode K) (positions : List (Point K)) (stopped : Bool) :
    Except (RunError E) (Score K) :=
  match positions.getLast? with
  | none => .error (.valueError "empty trajectory")
  | some last =>
    let error := dist last e.goal
    let success := stopped && decide (error < 3)
    .ok
      { navigationError := error
        trajectoryLength := traveled positions
        sourceGeodesic := e.geodesicDistance
        stopped := stopped
        success := success
        spl := if success then e.geodesicDistance / max e.geodesicDistance (traveled positions)
          else 0 }

end

/-! ## What a registration is -/

section Registered

variable {E : Type}

/-- The last row of a transformation of space. -/
def lastRow : Fin 4 → ℝ := ![0, 0, 0, 1]

/-- A scene with an inverse, and with a rotation up to the tolerance of the checks. -/
structure Registered (scene : Scene ℝ) : Prop where
  inverse_mul : scene.inverse * scene.matrix = 1
  row : scene.matrix 3 = lastRow
  near : NearIsometry (rotation scene.matrix) (11 / 100000)

theorem of_refuseIf {condition : Prop} [Decidable condition] {text : String}
    {u : Unit} (h : (refuseIf condition text : Except (RunError E) Unit) = .ok u) : ¬condition := by
  unfold refuseIf at h
  split at h
  · cases h
  · assumption

/-- The determinant is the one of the rotation. -/
theorem det_eq_rotation {m : Transform ℝ} (h : m 3 = lastRow) : m.det = (rotation m).det := by
  have hzero : m 3 0 = 0 ∧ m 3 1 = 0 ∧ m 3 2 = 0 ∧ m 3 3 = 1 := by
    rw [h]
    simp [lastRow]
  obtain ⟨h0, h1, h2, h3⟩ := hzero
  rw [det_succ_row m 3]
  have hsub : m.submatrix (Fin.succAbove 3) (Fin.succAbove 3) = rotation m := by
    have hlast : Fin.succAbove (3 : Fin 4) = Fin.castSucc := Fin.succAbove_last
    rw [hlast, rotation]
  simp only [Fin.sum_univ_four, h0, h1, h2, h3, hsub]
  norm_num

theorem registered_of_load {inv : Transform ℝ → Transform ℝ}
    (hinv : ∀ m, m.det ≠ 0 → inv m * m = 1) {record : SceneRecord ℝ} {scene : Scene ℝ}
    (hload : (loadSceneRecord inv record : Except (RunError E) (Scene ℝ)) = .ok scene)
    (hrow : asarray record.isaacFromHabitat 3 = lastRow) : Registered scene := by
  unfold loadSceneRecord at hload
  obtain ⟨_, -, hload⟩ := Except.of_bind_ok hload
  obtain ⟨_, -, hload⟩ := Except.of_bind_ok hload
  obtain ⟨_, -, hload⟩ := Except.of_bind_ok hload
  obtain ⟨_, -, hload⟩ := Except.of_bind_ok hload
  obtain ⟨_, hnear, hload⟩ := Except.of_bind_ok hload
  obtain ⟨_, hdet, hload⟩ := Except.of_bind_ok hload
  have hnear := not_not.mp (of_refuseIf hnear)
  have hdet := not_not.mp (of_refuseIf hdet)
  generalize asarray record.isaacFromHabitat = m at *
  split at hload
  · cases hload
  obtain rfl := Except.ok.inj hload
  refine ⟨hinv m ?_, hrow, fun i j => (hnear i j).trans ?_⟩
  · rw [det_eq_rotation hrow]
    intro hzero
    rw [isclose, hzero] at hdet
    norm_num at hdet
  · by_cases hij : i = j
    · rw [hij, one_apply_eq]
      norm_num
    · rw [one_apply_ne hij]
      norm_num

/-! ## Distances -/

theorem dist_eq_sqrt (a b : Point ℝ) : dist a b = Real.sqrt (normSq (a - b)) := by
  show Real.sqrt (Real.sqrt ((a 0 - b 0) ^ 2 + (a 1 - b 1) ^ 2) ^ 2 + (a 2 - b 2) ^ 2) = _
  rw [Real.sq_sqrt (by positivity), normSq_eq_sum, Fin.sum_univ_three]
  rfl

theorem dist_self (a : Point ℝ) : dist a a = 0 := by
  rw [dist_eq_sqrt, sub_self, normSq, dotProduct_zero, Real.sqrt_zero]

/-- The homogeneous coordinates of a point. -/
def homogeneous (p : Point ℝ) : Fin 4 → ℝ := ![p 0, p 1, p 2, 1]

theorem transformPoint_sub (m : Transform ℝ) (a b : Point ℝ) :
    transformPoint m a - transformPoint m b = rotation m *ᵥ (a - b) := by
  funext i
  simp only [transformPoint, rotation, mulVec, dotProduct, Fin.sum_univ_four, Fin.sum_univ_three,
    Pi.sub_apply, submatrix_apply]
  simp
  ring

/-- A point goes to a point. -/
theorem mulVec_homogeneous {m : Transform ℝ} (h : m 3 = lastRow) (p : Point ℝ) :
    m *ᵥ homogeneous p = homogeneous (transformPoint m p) := by
  funext i
  fin_cases i
  · rfl
  · rfl
  · rfl
  · show m 3 ⬝ᵥ homogeneous p = 1
    rw [h]
    simp [lastRow, homogeneous, dotProduct, Fin.sum_univ_four]

theorem homogeneous_injective {a b : Point ℝ} (h : homogeneous a = homogeneous b) : a = b := by
  funext i
  fin_cases i
  · exact congrFun h 0
  · exact congrFun h 1
  · exact congrFun h 2

namespace Registered

variable {scene : Scene ℝ} (h : Registered scene)

include h

theorem mul_inverse : scene.matrix * scene.inverse = 1 := mul_eq_one_comm.mp h.inverse_mul

/-- The last row of the inverse. -/
theorem inverse_row : scene.inverse 3 = lastRow := by
  have hrow : lastRow ᵥ* scene.inverse = lastRow := by
    have hfun : (scene.matrix * scene.inverse) 3 = lastRow ᵥ* scene.inverse := by
      rw [← h.row]
      rfl
    rw [← hfun, h.mul_inverse]
    funext j
    fin_cases j <;> rfl
  funext j
  have := congrFun hrow j
  simpa [lastRow, vecMul, dotProduct, Fin.sum_univ_four] using this

/-- There and back. -/
theorem transformPoint_inverse (p : Point ℝ) :
    transformPoint scene.inverse (transformPoint scene.matrix p) = p := by
  apply homogeneous_injective
  rw [← mulVec_homogeneous h.inverse_row, ← mulVec_homogeneous h.row, mulVec_mulVec, h.inverse_mul,
    one_mulVec]

theorem transformPoint_matrix (p : Point ℝ) :
    transformPoint scene.matrix (transformPoint scene.inverse p) = p := by
  apply homogeneous_injective
  rw [← mulVec_homogeneous h.row, ← mulVec_homogeneous h.inverse_row, mulVec_mulVec, h.mul_inverse,
    one_mulVec]

/-- **A registration keeps distances up to its tolerance.** -/
theorem dist_transformPoint (a b : Point ℝ) :
    9998 / 10000 * dist a b ≤
        dist (transformPoint scene.inverse a) (transformPoint scene.inverse b) ∧
      dist (transformPoint scene.inverse a) (transformPoint scene.inverse b) ≤
        10002 / 10000 * dist a b := by
  have himage := transformPoint_sub scene.matrix (transformPoint scene.inverse a)
    (transformPoint scene.inverse b)
  rw [h.transformPoint_matrix, h.transformPoint_matrix] at himage
  have hnear := h.near.abs_normSq_sub_le
    (transformPoint scene.inverse a - transformPoint scene.inverse b)
  rw [← himage, Fintype.card_fin, abs_le] at hnear
  rw [dist_eq_sqrt, dist_eq_sqrt]
  generalize transformPoint scene.inverse a - transformPoint scene.inverse b = u at hnear
  obtain ⟨hlow, hhigh⟩ := hnear
  have hpos := normSq_nonneg u
  have hpos' := normSq_nonneg (a - b)
  have hsquare := Real.sq_sqrt hpos'
  push_cast at hlow hhigh
  constructor
  · apply Real.le_sqrt_of_sq_le
    rw [mul_pow, hsquare]
    linarith
  · apply Real.sqrt_le_iff.mpr
    rw [mul_pow, hsquare]
    refine ⟨by positivity, ?_⟩
    linarith

/-- Exactly, where the rotation is one. -/
theorem dist_transformPoint_of_orthogonal
    (hexact : (rotation scene.matrix)ᵀ * rotation scene.matrix = 1) (a b : Point ℝ) :
    dist (transformPoint scene.inverse a) (transformPoint scene.inverse b) = dist a b := by
  have himage := transformPoint_sub scene.matrix (transformPoint scene.inverse a)
    (transformPoint scene.inverse b)
  rw [h.transformPoint_matrix, h.transformPoint_matrix] at himage
  rw [dist_eq_sqrt, dist_eq_sqrt, himage, normSq_mulVec, hexact, one_mulVec]
  rfl

end Registered

end Registered

/-! ## One action -/

section Step

variable {E : Type} {scene : Scene ℝ} {rays : Rays ℝ} {s s' : Simulator ℝ}
  {action : String} {position : Point ℝ}

/-- What an action does. -/
inductive Stepped (rays : Rays ℝ) (s : Simulator ℝ) : String → Simulator ℝ → Prop
  | left : Stepped rays s "left" { s with yaw := s.yaw + Trig.radians 15 }
  | right : Stepped rays s "right" { s with yaw := s.yaw - Trig.radians 15 }
  | blocked : s.isBlocked rays = true →
      Stepped rays s "forward" { s with blockedSteps := s.blockedSteps + 1 }
  | moved : s.isBlocked rays = false →
      Stepped rays s "forward"
        { s with position := s.position + (1 / 4 : ℝ) • Simulator.direction s.yaw }

theorem stepped_of_apply
    (h : (s.apply scene rays action : Except (RunError E) _) = .ok (s', position)) :
    Stepped rays s action s' ∧ position = transformPoint scene.inverse s'.position := by
  unfold Simulator.apply at h
  obtain ⟨t, ht, h⟩ := Except.of_bind_ok h
  obtain ⟨rfl, rfl⟩ := Prod.mk.inj (Except.ok.inj h)
  refine ⟨?_, rfl⟩
  unfold Simulator.act at ht
  split_ifs at ht with hleft hright hforward hblocked
  · obtain rfl := Except.ok.inj ht
    exact hleft ▸ .left
  · obtain rfl := Except.ok.inj ht
    exact hright ▸ .right
  · obtain rfl := Except.ok.inj ht
    exact hforward ▸ .blocked hblocked
  · obtain rfl := Except.ok.inj ht
    exact hforward ▸ .moved (by simpa using hblocked)

theorem normSq_direction (yaw : ℝ) : normSq (Simulator.direction yaw) = 1 := by
  rw [normSq_eq_sum, Fin.sum_univ_three]
  show Real.cos yaw ^ 2 + Real.sin yaw ^ 2 + 0 ^ 2 = 1
  have := Real.sin_sq_add_cos_sq yaw
  linarith

/-- A step forward is a quarter of a metre. -/
theorem dist_forward (p : Point ℝ) (yaw : ℝ) :
    dist p (p + (1 / 4 : ℝ) • Simulator.direction yaw) = 1 / 4 := by
  have hdiff : p - (p + (1 / 4 : ℝ) • Simulator.direction yaw) =
      (-(1 / 4) : ℝ) • Simulator.direction yaw := by
    rw [sub_add_cancel_left, neg_smul]
  rw [dist_eq_sqrt, hdiff, normSq, smul_dotProduct, dotProduct_smul, ← normSq, normSq_direction,
    smul_eq_mul, smul_eq_mul, Real.sqrt_eq_iff_mul_self_eq (by norm_num) (by norm_num)]
  norm_num

theorem traveled_concat {positions : List (Point ℝ)} {last p : Point ℝ}
    (h : positions.getLast? = some last) :
    traveled (positions ++ [p]) = traveled positions + dist last p := by
  induction positions with
  | nil => cases h
  | cons q positions ih =>
      cases positions with
      | nil =>
          obtain rfl : q = last := by simpa using h
          simp [traveled]
      | cons r positions =>
          have hstep (l : List (Point ℝ)) :
              traveled (q :: r :: l) = dist q r + traveled (r :: l) := by
            simp [traveled]
          rw [List.getLast?_cons_cons] at h
          rw [List.cons_append, List.cons_append, hstep, hstep, ← List.cons_append, ih h, add_assoc]

end Step

/-! ## Runs -/

/-- Left turns less right turns. -/
def netTurns (actions : List String) : ℤ := actions.count "left" - actions.count "right"

section

variable {K : Type} [Field K] [Trig K]

/-- The way from a start, with the steps forward that are blocked. -/
def way (yaw : K) (actions : List String) (blocked : ℕ → Bool) : Point K :=
  ∑ i ∈ Finset.range actions.length,
    if actions[i]? = some "forward" ∧ blocked i = false then
      (1 / 4 : K) • Simulator.direction (yaw + netTurns (actions.take i) * Trig.radians 15)
    else 0

/-- The steps forward that were blocked. -/
def blockedCount (actions : List String) (blocked : ℕ → Bool) : ℕ :=
  (List.range actions.length).countP fun i => actions[i]? = some "forward" ∧ blocked i = true

/-- Where the actions lead, with the steps forward that are blocked. -/
def placeAt (start : Simulator K) (actions : List String) (blocked : ℕ → Bool) : Simulator K where
  position := start.position + way start.yaw actions blocked
  yaw := start.yaw + netTurns actions * Trig.radians 15
  blockedSteps := start.blockedSteps + blockedCount actions blocked

/-- The steps forward that were not blocked. -/
def moves (s : Simulator K) (actions : List String) : K :=
  actions.count "forward" - s.blockedSteps

end

/-- What the positions and the actions of a run say of the simulator. -/
structure Travelled (scene : Scene ℝ) (world : ℕ → Rays ℝ) (start s : Simulator ℝ)
    (positions : List (Point ℝ)) (actions : List String) : Prop where
  last : positions.getLast? = some (transformPoint scene.inverse s.position)
  blocked_le : s.blockedSteps ≤ actions.count "forward"
  low : 9998 / 10000 * (1 / 4) * moves s actions ≤ traveled positions
  high : traveled positions ≤ 10002 / 10000 * (1 / 4) * moves s actions
  exact : (rotation scene.matrix)ᵀ * rotation scene.matrix = 1 →
    traveled positions = 1 / 4 * moves s actions
  place : ∃ blocked : ℕ → Bool, s = placeAt start actions blocked ∧
    ∀ i < actions.length, actions[i]? = some "forward" →
      blocked i = (placeAt start (actions.take i) blocked).isBlocked (world i)

section Travelled

variable {scene : Scene ℝ} {world : ℕ → Rays ℝ} {start s s' : Simulator ℝ}
  {positions : List (Point ℝ)} {actions : List String} {action : String}

theorem way_concat (yaw : ℝ) (actions : List String) (action : String) (blocked : ℕ → Bool) :
    way yaw (actions ++ [action]) blocked = way yaw actions blocked +
      if action = "forward" ∧ blocked actions.length = false then
        (1 / 4 : ℝ) • Simulator.direction (yaw + netTurns actions * Trig.radians 15)
      else 0 := by
  unfold way
  rw [List.length_append, List.length_singleton, Finset.sum_range_succ]
  congr 1
  · apply Finset.sum_congr rfl
    intro i hi
    have hlt := Finset.mem_range.mp hi
    rw [List.getElem?_append_left hlt, List.take_append_of_le_length hlt.le]
  · simp

theorem blockedCount_concat (actions : List String) (action : String) (blocked : ℕ → Bool) :
    blockedCount (actions ++ [action]) blocked = blockedCount actions blocked +
      if action = "forward" ∧ blocked actions.length = true then 1 else 0 := by
  unfold blockedCount
  rw [List.length_append, List.length_singleton, List.range_succ, List.countP_append]
  congr 1
  · apply List.countP_congr
    intro i hi
    rw [List.getElem?_append_left (List.mem_range.mp hi)]
  · simp [List.countP_singleton]

/-- The flags of a run are of its actions only. -/
theorem way_congr {yaw : ℝ} {blocked blocked' : ℕ → Bool}
    (h : ∀ i < actions.length, blocked i = blocked' i) :
    way yaw actions blocked = way yaw actions blocked' := by
  apply Finset.sum_congr rfl
  intro i hi
  rw [h i (Finset.mem_range.mp hi)]

theorem blockedCount_congr {blocked blocked' : ℕ → Bool}
    (h : ∀ i < actions.length, blocked i = blocked' i) :
    blockedCount actions blocked = blockedCount actions blocked' := by
  apply List.countP_congr
  intro i hi
  rw [h i (List.mem_range.mp hi)]

theorem placeAt_congr {blocked blocked' : ℕ → Bool}
    (h : ∀ i < actions.length, blocked i = blocked' i) :
    placeAt start actions blocked = placeAt start actions blocked' := by
  rw [placeAt, placeAt, way_congr h, blockedCount_congr h]

/-- One action, from the place that the actions before it lead to. -/
theorem Stepped.place {blocked : ℕ → Bool} {rays : Rays ℝ}
    (hstep : Stepped rays (placeAt start actions blocked) action s')
    (hlast : blocked actions.length = (placeAt start actions blocked).isBlocked rays) :
    s' = placeAt start (actions ++ [action]) blocked := by
  unfold placeAt
  rw [way_concat, blockedCount_concat, hlast]
  cases hstep with
  | left => simp [placeAt, netTurns]; ring
  | right => simp [placeAt, netTurns]; ring
  | blocked hb =>
      rw [hb]
      simp [placeAt, netTurns, Nat.add_assoc]
  | moved hb =>
      rw [hb]
      simp [placeAt, netTurns, add_assoc]

/-- What an action adds to the length of the way. -/
theorem Stepped.metric (hscene : Registered scene) {rays : Rays ℝ}
    (hstep : Stepped rays s action s') (actions : List String) :
    ∃ more : ℝ, moves s' (actions ++ [action]) = moves s actions + more ∧
      9998 / 10000 * (1 / 4) * more ≤
        dist (transformPoint scene.inverse s.position) (transformPoint scene.inverse s'.position) ∧
      dist (transformPoint scene.inverse s.position) (transformPoint scene.inverse s'.position) ≤
        10002 / 10000 * (1 / 4) * more ∧
      ((rotation scene.matrix)ᵀ * rotation scene.matrix = 1 →
        dist (transformPoint scene.inverse s.position) (transformPoint scene.inverse s'.position) =
          1 / 4 * more) := by
  have hstill (t : Simulator ℝ) (ht : t.position = s.position) :
      dist (transformPoint scene.inverse s.position) (transformPoint scene.inverse t.position) =
        0 := by
    rw [ht, dist_self]
  cases hstep with
  | left => exact ⟨0, by simp [moves], by simp [hstill], by simp [hstill], by simp [hstill]⟩
  | right => exact ⟨0, by simp [moves], by simp [hstill], by simp [hstill], by simp [hstill]⟩
  | blocked _ =>
      refine ⟨0, ?_, by simp [hstill], by simp [hstill], by simp [hstill]⟩
      simp [moves]
  | moved _ =>
      obtain ⟨hlow, hhigh⟩ := hscene.dist_transformPoint s.position
        (s.position + (1 / 4 : ℝ) • Simulator.direction s.yaw)
      rw [dist_forward] at hlow hhigh
      refine ⟨1, ?_, by rwa [mul_one], by rwa [mul_one], fun hexact => ?_⟩
      · simp [moves]
        ring
      · rw [hscene.dist_transformPoint_of_orthogonal hexact, dist_forward, mul_one]

/-- **One action** goes on with a run. -/
theorem Travelled.step (hscene : Registered scene)
    (h : Travelled scene world start s positions actions)
    (hstep : Stepped (world actions.length) s action s') :
    Travelled scene world start s' (positions ++ [transformPoint scene.inverse s'.position])
      (actions ++ [action]) := by
  obtain ⟨more, hmoves, hlow, hhigh, hexact⟩ := hstep.metric hscene actions
  have hlength := traveled_concat (p := transformPoint scene.inverse s'.position) h.last
  refine ⟨List.getLast?_concat, ?_, ?_, ?_, fun horthogonal => ?_, ?_⟩
  · have := h.blocked_le
    cases hstep <;> simp <;> omega
  · rw [hlength, hmoves, mul_add]
    exact add_le_add h.low hlow
  · rw [hlength, hmoves, mul_add]
    exact add_le_add h.high hhigh
  · rw [hlength, hmoves, mul_add, h.exact horthogonal, hexact horthogonal]
  · obtain ⟨blocked, rfl, hrays⟩ := h.place
    -- the flag of the new action, and those of the actions before it
    let flags := Function.update blocked actions.length
      ((placeAt start actions blocked).isBlocked (world actions.length))
    have hself : flags actions.length =
        (placeAt start actions blocked).isBlocked (world actions.length) := by simp [flags]
    have hsame : ∀ i < actions.length, blocked i = flags i := fun i hi =>
      (Function.update_of_ne hi.ne _ blocked).symm
    have hpre {i : ℕ} (hi : i ≤ actions.length) :
        placeAt start ((actions ++ [action]).take i) flags =
          placeAt start (actions.take i) blocked := by
      rw [List.take_append_of_le_length hi]
      refine (placeAt_congr fun k hk => hsame k ?_).symm
      exact hk.trans_le ((List.length_take_le _ _).trans hi)
    rw [placeAt_congr hsame] at hstep hself
    refine ⟨flags, hstep.place hself, fun i hi hforward => ?_⟩
    rw [List.length_append, List.length_singleton] at hi
    rcases Nat.lt_or_eq_of_le (Nat.le_of_lt_succ hi) with hlt | rfl
    · rw [hpre hlt.le, ← hsame i hlt]
      exact hrays i hlt (by rwa [List.getElem?_append_left hlt] at hforward)
    · rw [hself, List.take_left]

end Travelled

/-! ## The run of an episode -/

section Run

variable {E : Type} {scene : Scene ℝ} {world : ℕ → Rays ℝ} {said : ℕ → Except E String}
  {e : Episode ℝ} {start s s' : Simulator ℝ} {trace : Trace ℝ}

/-- The last action does not move. -/
theorem Travelled.stop {positions : List (Point ℝ)} {actions : List String}
    (h : Travelled scene world start s positions actions) :
    Travelled scene world start s positions (actions ++ ["stop"]) := by
  have hmoves : moves s (actions ++ ["stop"]) = moves s actions := by simp [moves]
  obtain ⟨blocked, hplace, hrays⟩ := h.place
  refine ⟨h.last, ?_, by rw [hmoves]; exact h.low, by rw [hmoves]; exact h.high,
    by rw [hmoves]; exact h.exact, blocked, ?_, fun i hi hforward => ?_⟩
  · have := h.blocked_le
    simpa using this
  · rw [hplace, placeAt, placeAt, way_concat, blockedCount_concat]
    simp [netTurns]
  · rw [List.length_append, List.length_singleton] at hi
    rcases Nat.lt_or_eq_of_le (Nat.le_of_lt_succ hi) with hlt | rfl
    · rw [List.take_append_of_le_length hlt.le]
      exact hrays i hlt (by rwa [List.getElem?_append_left hlt] at hforward)
    · simp at hforward

/-- What a trace says of the frames. -/
structure Trace.WellFormed (trace : Trace ℝ) (frames : ℕ) : Prop where
  length_le : trace.actions.length ≤ frames
  positions : trace.positions.length = (trace.actions.filter (· ≠ "stop")).length + 1
  allowed : ∀ action ∈ trace.actions, action ∈ allowedActions
  stop : "stop" ∉ trace.actions.dropLast
  stopped : trace.stopped = true ↔ trace.actions.getLast? = some "stop"
  full : trace.stopped = false → trace.actions.length = frames

theorem filter_stop {actions : List String} (h : "stop" ∉ actions) :
    actions.filter (· ≠ "stop") = actions :=
  List.filter_eq_self.mpr fun a ha => by simpa using ne_of_mem_of_not_mem ha h

theorem travelled_runFrames (hscene : Registered scene) {left frame : ℕ}
    {positions : List (Point ℝ)} {actions : List String}
    (h : Travelled scene world start s positions actions) (hlength : actions.length = frame)
    (hpositions : positions.length = actions.length + 1)
    (hallowed : ∀ action ∈ actions, action ∈ allowedActions) (hstop : "stop" ∉ actions)
    (hrun : runFrames scene world said left frame s positions actions = .ok (s', trace)) :
    Travelled scene world start s' trace.positions trace.actions ∧
      trace.WellFormed (frame + left) := by
  induction left generalizing frame s positions actions with
  | zero =>
      obtain ⟨rfl, rfl⟩ := Prod.mk.inj (Except.ok.inj hrun)
      refine ⟨h, hlength.le, ?_, hallowed, fun hmem => hstop (List.dropLast_subset _ hmem), ?_,
        fun _ => hlength⟩
      · rw [filter_stop hstop, hpositions]
      · refine iff_of_false (by simp) fun hlast => hstop (List.mem_of_getLast? hlast)
  | succ left ih =>
      unfold runFrames at hrun
      obtain ⟨action, haction, hrun⟩ := Except.of_bind_ok hrun
      obtain ⟨_, hok, hrun⟩ := Except.of_bind_ok hrun
      have hmem : action ∈ allowedActions := not_not.mp (of_refuseIf hok)
      have hallowed' : ∀ a ∈ actions ++ [action], a ∈ allowedActions := by
        intro a ha
        rcases List.mem_append.mp ha with ha | ha
        · exact hallowed a ha
        · exact List.mem_singleton.mp ha ▸ hmem
      split at hrun
      -- `stop` ends the run and is the only action without a position
      · next hstopped =>
          obtain ⟨rfl, rfl⟩ := Prod.mk.inj (Except.ok.inj hrun)
          rw [hstopped] at hallowed' ⊢
          refine ⟨h.stop, ?_, ?_, hallowed', ?_, by simp, by simp⟩
          · simp only [List.length_append, List.length_singleton]
            omega
          · rw [List.filter_append, filter_stop hstop]
            simp [hpositions]
          · rwa [List.dropLast_concat]
      · next hne =>
          obtain ⟨⟨t, position⟩, happly, hrun⟩ := Except.of_bind_ok hrun
          obtain ⟨hstep, rfl⟩ := stepped_of_apply happly
          have hnext := ih (h.step hscene (hlength ▸ hstep)) (by simp [hlength])
            (by simp [hpositions]) hallowed' (by simpa using ⟨hstop, Ne.symm hne⟩) hrun
          rwa [Nat.add_assoc, Nat.add_comm 1 left] at hnext

/-- The heading of an episode's start. -/
theorem hypot_smul_direction {r : Matrix (Fin 3) (Fin 3) ℝ} {yaw : ℝ}
    (h : (initialYaw e r : Except (RunError E) ℝ) = .ok yaw) :
    Trig.hypot ((r *ᵥ forwardOf e.startRotation) 0) ((r *ᵥ forwardOf e.startRotation) 1) •
        Simulator.direction yaw =
      ![(r *ᵥ forwardOf e.startRotation) 0, (r *ᵥ forwardOf e.startRotation) 1, 0] := by
  unfold initialYaw at h
  generalize r *ᵥ forwardOf e.startRotation = d at h ⊢
  dsimp only at h
  split at h
  · cases h
  next hlong =>
    obtain rfl := Except.ok.inj h
    have hnorm : Trig.hypot (d 0) (d 1) = ‖(⟨d 0, d 1⟩ : ℂ)‖ := by
      rw [Complex.norm_eq_sqrt_sq_add_sq]
      rfl
    have hne : (⟨d 0, d 1⟩ : ℂ) ≠ 0 := by
      intro hzero
      rw [hnorm, hzero, norm_zero] at hlong
      exact hlong (by norm_num)
    have hpos : ‖(⟨d 0, d 1⟩ : ℂ)‖ ≠ 0 := norm_ne_zero_iff.mpr hne
    rw [hnorm]
    funext i
    fin_cases i
    · show ‖(⟨d 0, d 1⟩ : ℂ)‖ * Real.cos (Complex.arg ⟨d 0, d 1⟩) = d 0
      rw [Complex.cos_arg hne, mul_div_cancel₀ _ hpos]
    · show ‖(⟨d 0, d 1⟩ : ℂ)‖ * Real.sin (Complex.arg ⟨d 0, d 1⟩) = d 1
      rw [Complex.sin_arg, mul_div_cancel₀ _ hpos]
    · exact mul_zero _

/-- The run of an episode, from its start. -/
theorem travelled_runEpisode (hscene : Registered scene) {maxSteps : ℤ}
    (hrun : runEpisode scene world said e maxSteps = .ok (s, trace)) :
    ∃ yaw, (initialYaw e (rotation scene.matrix) : Except (RunError E) ℝ) = .ok yaw ∧
      Travelled scene world ⟨transformPoint scene.matrix e.startPosition, yaw, 0⟩ s trace.positions
        trace.actions ∧ trace.WellFormed maxSteps.toNat := by
  unfold runEpisode at hrun
  obtain ⟨_, -, hrun⟩ := Except.of_bind_ok hrun
  obtain ⟨start, hreset, hrun⟩ := Except.of_bind_ok hrun
  obtain ⟨yaw, hyaw, hreset⟩ := Except.of_bind_ok hreset
  obtain rfl := Except.ok.inj hreset
  have hstart : Travelled scene world ⟨transformPoint scene.matrix e.startPosition, yaw, 0⟩
      ⟨transformPoint scene.matrix e.startPosition, yaw, 0⟩ [e.startPosition] [] := by
    refine ⟨?_, Nat.zero_le _, by simp [moves, traveled], by simp [moves, traveled],
      by simp [moves, traveled], fun _ => false, ?_, nofun⟩
    · rw [hscene.transformPoint_inverse]
      rfl
    · simp [placeAt, way, blockedCount, netTurns]
  obtain ⟨htravelled, hformed⟩ := travelled_runFrames hscene hstart rfl rfl nofun (by simp) hrun
  rw [List.length_nil, Nat.zero_add] at hformed
  exact ⟨yaw, hyaw, htravelled, hformed⟩

/-- No step goes up or down. -/
theorem way_height (yaw : ℝ) (actions : List String) (blocked : ℕ → Bool) :
    way yaw actions blocked 2 = 0 := by
  rw [way, Finset.sum_apply]
  apply Finset.sum_eq_zero
  intro i _
  split
  · exact mul_zero _
  · rfl

/-- A shortest way over a longer one. -/
theorem spl_bounds (success : Bool) {shortest : ℝ} (h : 0 < shortest) (length : ℝ) :
    0 ≤ (if success then shortest / max shortest length else 0) ∧
      (if success then shortest / max shortest length else 0) ≤ 1 ∧
      (success = true ↔ 0 < if success then shortest / max shortest length else 0) ∧
      (success = true →
        (if success then shortest / max shortest length else 0) * max shortest length =
          shortest) := by
  have hmax : 0 < max shortest length := h.trans_le (le_max_left _ _)
  cases success with
  | false => simp
  | true =>
      simp only [if_true, forall_const, true_iff]
      exact ⟨by positivity, (div_le_one hmax).mpr (le_max_left _ _), by positivity,
        div_mul_cancel₀ _ hmax.ne'⟩

/-! ## One episode -/

section Example

theorem refuseIf_of_not {condition : Prop} [Decidable condition] (h : ¬condition) (text : String) :
    (refuseIf condition text : Except (RunError E) Unit) = .ok () := if_neg h

/-- The registration that only turns Habitat's up into Isaac's. -/
def uprightRecord : SceneRecord ℝ where
  usdIsAbsolute := true
  usdIsFile := true
  usdSuffix := ".usd"
  isaacFromHabitat :=
    [[.fin 1, .fin 0, .fin 0, .fin 0], [.fin 0, .fin 0, .fin (-1), .fin 0],
      [.fin 0, .fin 1, .fin 0, .fin 0], [.fin 0, .fin 0, .fin 0, .fin 1]]
  domeLightIntensity := none

/-- Its matrix. -/
def upright : Transform ℝ := !![1, 0, 0, 0; 0, 0, -1, 0; 0, 1, 0, 0; 0, 0, 0, 1]

theorem asarray_upright : asarray uprightRecord.isaacFromHabitat = upright := by
  funext i j
  fin_cases i <;> fin_cases j <;> rfl

theorem rotation_upright : rotation upright = !![1, 0, 0; 0, 0, -1; 0, 1, 0] := by
  funext i j
  fin_cases i <;> fin_cases j <;> rfl

theorem isclose_self {atol a : ℝ} (h : 0 ≤ atol) : isclose atol a a := by
  rw [isclose, sub_self, abs_zero]
  positivity

theorem transpose_mul_upright : (rotation upright)ᵀ * rotation upright = 1 := by
  rw [rotation_upright]
  ext i j
  fin_cases i <;> fin_cases j <;> simp [mul_apply, Fin.sum_univ_three]

theorem det_upright : (rotation upright).det = 1 := by
  rw [rotation_upright, det_fin_three]
  simp

theorem load_upright (inv : Transform ℝ → Transform ℝ) :
    (loadSceneRecord inv uprightRecord : Except (RunError E) (Scene ℝ)) =
      .ok ⟨upright, inv upright, 0⟩ := by
  have hrow (j : Fin 4) : upright 3 j = if j = 3 then 1 else 0 := by fin_cases j <;> rfl
  refine Except.bind_eq_ok (refuseIf_of_not (by simp [uprightRecord]) _) ?_
  refine Except.bind_eq_ok (refuseIf_of_not (by simp [uprightRecord]) _) ?_
  refine Except.bind_eq_ok (refuseIf_of_not (by simp [uprightRecord]) _) ?_
  rw [asarray_upright]
  refine Except.bind_eq_ok (refuseIf_of_not ?_ _) ?_
  · rw [not_or, not_not, not_not]
    refine ⟨by simp [uprightRecord], fun j => ?_⟩
    rw [hrow]
    exact isclose_self (by norm_num [defaultTolerance])
  refine Except.bind_eq_ok (refuseIf_of_not ?_ _) ?_
  · rw [not_not, transpose_mul_upright]
    exact fun i j => isclose_self (by norm_num)
  refine Except.bind_eq_ok (refuseIf_of_not ?_ _) ?_
  · rw [not_not, det_upright]
    exact isclose_self (by norm_num)
  rfl

/-- An episode that starts in the origin, looking along the second axis of Isaac, with its goal a
quarter of a metre ahead. -/
noncomputable def nearEpisode : Episode ℝ where
  startPosition := 0
  startRotation := ![0, 0, 0, 1]
  goal := ![0, 0, -(1 / 4)]
  geodesicDistance := 1 / 4

/-- The policy goes one step forward and stops. -/
def oneStep : ℕ → Except Unit String
  | 0 => .ok "forward"
  | _ => .ok "stop"

/-- Nothing is in the way. -/
def freeWorld : ℕ → Rays ℝ := fun _ _ _ _ => false

theorem run_nearEpisode (scene : Scene ℝ) (hmatrix : scene.matrix = upright) :
    ∃ s trace, runEpisode scene freeWorld oneStep nearEpisode 2 = .ok (s, trace) ∧
      trace.actions = ["forward", "stop"] := by
  have hforward : rotation upright *ᵥ forwardOf nearEpisode.startRotation = ![0, 1, 0] := by
    rw [rotation_upright]
    funext i
    fin_cases i <;>
      simp [forwardOf, nearEpisode, mulVec, dotProduct, Fin.sum_univ_three]
  have hyaw : (initialYaw nearEpisode (rotation scene.matrix) : Except (RunError Unit) ℝ) =
      .ok (Trig.atan2 1 0) := by
    rw [initialYaw, hmatrix, hforward]
    refine if_neg ?_
    show ¬Real.sqrt (0 ^ 2 + 1 ^ 2) < 1 / 100000
    norm_num
  let start : Simulator ℝ :=
    ⟨transformPoint scene.matrix nearEpisode.startPosition, Trig.atan2 1 0, 0⟩
  let stop : Point ℝ := start.position + (1 / 4 : ℝ) • Simulator.direction start.yaw
  have hframes : runFrames scene freeWorld oneStep 2 0 start [nearEpisode.startPosition] [] =
      .ok (⟨stop, start.yaw, 0⟩,
        ⟨[nearEpisode.startPosition, transformPoint scene.inverse stop], ["forward", "stop"],
          true⟩) :=
    rfl
  refine ⟨⟨stop, start.yaw, 0⟩, ⟨[nearEpisode.startPosition, transformPoint scene.inverse stop],
    ["forward", "stop"], true⟩, ?_, rfl⟩
  refine Except.bind_eq_ok (refuseIf_of_not (by decide) _) ?_
  exact Except.bind_eq_ok (Except.bind_eq_ok hyaw rfl) hframes

end Example

variable {inv : Transform ℝ → Transform ℝ} {record : SceneRecord ℝ} {maxSteps : ℤ}

/-- **The score of a run** is of the way that was walked: up to two in ten thousand its length is
a quarter of a metre for every step forward that was not blocked, in any registration that the
checks let pass; its error is from where the run ended; it is a success when the last action
stopped the run within three metres of the goal, and its SPL is a number between zero and one
that is positive for a success. -/
theorem score_runEpisode (hinv : ∀ m : Transform ℝ, m.det ≠ 0 → inv m * m = 1)
    (hload : (loadSceneRecord inv record : Except (RunError E) (Scene ℝ)) = .ok scene)
    (hrow : asarray record.isaacFromHabitat 3 = lastRow) (hgeodesic : 0 < e.geodesicDistance)
    (hrun : runEpisode scene world said e maxSteps = .ok (s, trace)) :
    ∃ sc, (score e trace.positions trace.stopped : Except (RunError E) (Score ℝ)) = .ok sc ∧
      trace.WellFormed maxSteps.toNat ∧ s.blockedSteps ≤ trace.actions.count "forward" ∧
      |sc.trajectoryLength - 1 / 4 * moves s trace.actions| ≤
        2 / 10000 * (1 / 4 * moves s trace.actions) ∧
      sc.navigationError = dist (transformPoint scene.inverse s.position) e.goal ∧
      (sc.success = true ↔
        trace.actions.getLast? = some "stop" ∧ sc.navigationError < 3) ∧
      0 ≤ sc.spl ∧ sc.spl ≤ 1 ∧ (sc.success = true ↔ 0 < sc.spl) ∧
      (sc.success = true →
        sc.spl * max e.geodesicDistance sc.trajectoryLength = e.geodesicDistance) := by
  obtain ⟨yaw, -, h, hformed⟩ := travelled_runEpisode (registered_of_load hinv hload hrow) hrun
  refine ⟨_, by rw [score, h.last], hformed, h.blocked_le, ?_, rfl, ?_, ?_⟩
  · rw [abs_le]
    have hlow := h.low
    have hhigh := h.high
    constructor <;> linarith
  · rw [← hformed.stopped]
    simp
  · exact spl_bounds _ hgeodesic _

theorem score_runEpisode_nearEpisode :
    ∃ s trace sc, runEpisode ⟨upright, upright⁻¹, 0⟩ freeWorld oneStep nearEpisode 2 =
        .ok (s, trace) ∧
      (score nearEpisode trace.positions trace.stopped : Except (RunError Unit) (Score ℝ)) =
        .ok sc ∧
      trace.WellFormed 2 ∧
      |sc.trajectoryLength - 1 / 4 * moves s trace.actions| ≤
        2 / 10000 * (1 / 4 * moves s trace.actions) := by
  obtain ⟨s, trace, hrun, -⟩ := run_nearEpisode ⟨upright, upright⁻¹, 0⟩ rfl
  obtain ⟨sc, hscore, hformed, -, hlength, -⟩ := score_runEpisode
    (fun m hm => nonsing_inv_mul m hm.isUnit) (load_upright _) (by rw [asarray_upright]; rfl)
    (by norm_num [nearEpisode]) hrun
  exact ⟨s, trace, sc, hrun, hscore, hformed, hlength⟩

/-- **Where a run leads**: to the place that is reached by turns of fifteen degrees and by steps of
a quarter of a metre in the heading of their moment, from the registered start and in the
heading of the start rotation, where exactly those steps are left out whose rays hit something
at the place they were to be taken from. -/
theorem pose_runEpisode (hinv : ∀ m : Transform ℝ, m.det ≠ 0 → inv m * m = 1)
    (hload : (loadSceneRecord inv record : Except (RunError E) (Scene ℝ)) = .ok scene)
    (hrow : asarray record.isaacFromHabitat 3 = lastRow)
    (hrun : runEpisode scene world said e maxSteps = .ok (s, trace)) :
    ∃ (start : Simulator ℝ) (blocked : ℕ → Bool),
      start.position = transformPoint scene.matrix e.startPosition ∧
      Trig.hypot ((rotation scene.matrix *ᵥ forwardOf e.startRotation) 0)
          ((rotation scene.matrix *ᵥ forwardOf e.startRotation) 1) •
          Simulator.direction start.yaw =
        ![(rotation scene.matrix *ᵥ forwardOf e.startRotation) 0,
          (rotation scene.matrix *ᵥ forwardOf e.startRotation) 1, 0] ∧
      s = placeAt start trace.actions blocked ∧ start.blockedSteps = 0 ∧
      s.position 2 = start.position 2 ∧
      trace.positions.getLast? = some (transformPoint scene.inverse s.position) ∧
      ∀ i < trace.actions.length, trace.actions[i]? = some "forward" →
        blocked i = (placeAt start (trace.actions.take i) blocked).isBlocked (world i) := by
  obtain ⟨yaw, hyaw, h, -⟩ := travelled_runEpisode (registered_of_load hinv hload hrow) hrun
  obtain ⟨blocked, hplace, hrays⟩ := h.place
  refine ⟨_, blocked, rfl, hypot_smul_direction hyaw, hplace, rfl, ?_, h.last, hrays⟩
  rw [hplace]
  show transformPoint scene.matrix e.startPosition 2 + way yaw trace.actions blocked 2 = _
  rw [way_height, add_zero]

theorem pose_runEpisode_nearEpisode :
    ∃ s trace, runEpisode ⟨upright, upright⁻¹, 0⟩ freeWorld oneStep nearEpisode 2 =
        .ok (s, trace) ∧
      ∃ (start : Simulator ℝ) (blocked : ℕ → Bool), s = placeAt start trace.actions blocked ∧
        ∀ i < trace.actions.length, trace.actions[i]? = some "forward" →
          blocked i = (placeAt start (trace.actions.take i) blocked).isBlocked (freeWorld i) := by
  obtain ⟨s, trace, hrun, -⟩ := run_nearEpisode ⟨upright, upright⁻¹, 0⟩ rfl
  obtain ⟨start, blocked, -, -, hplace, -, -, -, hrays⟩ := pose_runEpisode
    (fun m hm => nonsing_inv_mul m hm.isUnit) (load_upright _) (by rw [asarray_upright]; rfl) hrun
  exact ⟨s, trace, hrun, start, blocked, hplace, hrays⟩

end Run

end R2R
