/-
# The single-waypoint controller

`waypoint_pd.py`: pick one waypoint of the path, steer toward it in proportion to
its heading, clip, and limit both speeds while keeping their ratio.  Exceptions
are values: a waypoint index below the path, and the limiter's divisions when a
velocity limit is zero or negative.

`compute_eq_zero_iff` says for which waypoints the controller stands still.
-/
import Rvln.PyFloat
import Rvln.NavPath

variable {K : Type*}

/-- `PathPoint`: a waypoint in the robot frame with its heading, where the signs of zeros
count. -/
structure PathPoint (K : Type*) [Zero K] where
  x : PyFloat K
  y : PyFloat K
  cos : SignedFloat K
  sin : SignedFloat K
  deriving DecidableEq

/-- `TwistCmd`. -/
structure TwistCmd (F : Type*) where
  linear : F
  angular : F
  deriving DecidableEq

/-- `TwistCmd(0.0, 0.0)`. -/
def TwistCmd.zero [Zero K] : TwistCmd (PyFloat K) := ⟨.fin 0, .fin 0⟩

/-- `xs[i]` with Python's negative indices. -/
def pyIndex {α : Type*} (xs : List α) (i : ℤ) : Except PyError α :=
  match (if 0 ≤ i then xs[i.toNat]? else if 0 ≤ xs.length + i then xs[(xs.length + i).toNat]?
    else none) with
  | some x => .ok x
  | none => .error .indexError

theorem mem_of_pyIndex {α : Type*} {xs : List α} {i : ℤ} {x : α} (h : pyIndex xs i = .ok x) :
    x ∈ xs := by
  unfold pyIndex at h
  split at h
  · rename_i y hy
    cases h
    by_cases hi : 0 ≤ i
    · rw [if_pos hi] at hy
      exact List.mem_of_getElem? hy
    · rw [if_neg hi] at hy
      by_cases hlen : 0 ≤ xs.length + i
      · rw [if_pos hlen] at hy
        exact List.mem_of_getElem? hy
      · rw [if_neg hlen] at hy
        cases hy
  · cases h

/-- `WaypointPD`; `__init__` refuses a `dt` that is not positive.  The two
pre-clips are arguments of `computeWith`; its only caller keeps their defaults. -/
structure WaypointPD (K : Type*) [Field K] [LinearOrder K] where
  maxV : K
  maxW : K
  waypointSelect : ℤ
  dt : K
  dt_pos : 0 < dt

namespace WaypointPD

open PyFloat

section

variable [Field K] [LinearOrder K] [Trig K]

/-- The default of `linear_clip`. -/
def linearClip : K := 1 / 2

/-- The default of `angular_clip`. -/
def angularClip : K := 1

/-- `eps` of `compute`. -/
def eps : K := 1 / 10 ^ 8

/-- `_wrap_angle`. -/
def wrapAngle (theta : SignedFloat K) : Except PyError (SignedFloat K) := do
  let s ← theta.sin
  let c ← theta.cos
  return s.atan2 c

/-- The waypoint `compute` picks: `waypoint_select` steps ahead, or the last. -/
def select (pd : WaypointPD K) (path : List (PathPoint K)) :
    Except PyError (PathPoint K) :=
  pyIndex path (if (path.length : ℤ) ≤ pd.waypointSelect then (path.length : ℤ) - 1
    else pd.waypointSelect)

omit [Trig K] in
/-- The waypoint `compute` picks is one of the path's. -/
theorem mem_of_select {pd : WaypointPD K} {path : List (PathPoint K)}
    {wp : PathPoint K} (h : pd.select path = .ok wp) : wp ∈ path :=
  mem_of_pyIndex h

/-- The angular speed of a waypoint on the robot: turn to its heading. -/
def turnInPlace (pd : WaypointPD K) (wp : PathPoint K) :
    Except PyError (PyFloat K) := do
  let theta ← wrapAngle (wp.sin.atan2 wp.cos)
  theta.value.div (fin pd.dt)

/-- The angular speed of a waypoint ahead or behind. -/
def turnAlong (pd : WaypointPD K) (wp : PathPoint K) :
    Except PyError (PyFloat K) := do
  let slope ← wp.y.div wp.x
  slope.atan.div (fin pd.dt)

/-- The branch of `compute` over the waypoint's position, before the clips. -/
def toward (pd : WaypointPD K) (wp : PathPoint K) :
    Except PyError (PyFloat K × PyFloat K) :=
  if wp.x.abs.lt (fin eps) && wp.y.abs.lt (fin eps) then do
    let angular ← pd.turnInPlace wp
    return (fin 0, angular)
  else if wp.x.abs.lt (fin eps) then
    return (fin 0, fin (PyFloat.copysign (Trig.pi / (2 * pd.dt)) wp.y))
  else do
    let linear ← wp.x.div (fin pd.dt)
    let angular ← pd.turnAlong wp
    return (linear, angular)

/-- The clipped speeds toward the waypoint. -/
def speeds (pd : WaypointPD K) (wp : PathPoint K) : K × K :=
  match pd.toward wp with
  | .ok (linear, angular) =>
      (clip 0 linearClip linear, clip (-angularClip) angularClip angular)
  | .error _ => (0, 0)

/-- `_limit`. -/
def limit (pd : WaypointPD K) (linear angular : PyFloat K) :
    Except PyError (TwistCmd (PyFloat K)) :=
  let maxv := fin pd.maxV
  let maxw := fin pd.maxW
  let forward := fin (PyFloat.copysign 1 linear)
  let turn := fin (PyFloat.copysign 1 angular)
  if linear.abs.le maxv then
    if angular.abs.le maxw then return ⟨linear, angular⟩
    else do
      -- too fast a turn: the radius is kept
      let rd ← linear.div angular
      return ⟨(maxw.mul forward).mul rd.abs, maxw.mul turn⟩
  -- too fast, and nearly straight
  else if angular.abs.le (fin (1 / 1000)) then return ⟨maxv.mul forward, fin 0⟩
  else do
    let rd ← linear.div angular
    let ratio ← maxv.div maxw
    -- the speed is the tighter limit, or else the turn is
    if ratio.le rd.abs then do
      let angular ← (maxv.mul turn).div rd.abs
      return ⟨maxv.mul forward, angular⟩
    else return ⟨(maxw.mul forward).mul rd.abs, maxw.mul turn⟩

/-- `compute`, with the clips that `__init__` was given. -/
def computeWith (linearClip angularClip : K) (pd : WaypointPD K) (path : List (PathPoint K)) :
    Except PyError (TwistCmd (PyFloat K)) :=
  if path = [] then return TwistCmd.zero
  else do
    let wp ← pd.select path
    let (linear, angular) ← pd.toward wp
    pd.limit (pyMax (fin 0) (pyMin (fin linearClip) linear))
      (pyMax (fin (-angularClip)) (pyMin (fin angularClip) angular))

/-- `compute`. -/
def compute (pd : WaypointPD K) (path : List (PathPoint K)) :
    Except PyError (TwistCmd (PyFloat K)) :=
  pd.computeWith linearClip angularClip path

/-- Where a waypoint is selected, the limiter gets its speeds clipped. -/
theorem computeWith_of_toward {pd : WaypointPD K} {path : List (PathPoint K)}
    {wp : PathPoint K} {linear angular : PyFloat K} (hsel : pd.select path = .ok wp)
    (htoward : pd.toward wp = .ok (linear, angular)) (linearClip angularClip : K) :
    pd.computeWith linearClip angularClip path =
      pd.limit (fin (clip 0 linearClip linear))
        (fin (clip (-angularClip) angularClip angular)) := by
  have hpath : path ≠ [] := List.ne_nil_of_mem (mem_of_select hsel)
  unfold computeWith
  rw [if_neg hpath, hsel, ← pyMax_pyMin, ← pyMax_pyMin]
  show (do
    let (linear, angular) ← pd.toward wp
    pd.limit (pyMax (fin 0) (pyMin (fin linearClip) linear))
      (pyMax (fin (-angularClip)) (pyMin (fin angularClip) angular))) = _
  rw [htoward]
  rfl

end

/-! ## When the limiter answers zero -/

theorem ok_eq_zero_iff [Zero K] (a b : K) :
    (Except.ok ⟨fin a, fin b⟩ : Except PyError (TwistCmd (PyFloat K))) = .ok ⟨fin 0, fin 0⟩ ↔
      a = 0 ∧ b = 0 := by
  simp

section

variable [Field K] [LinearOrder K]

/-- The pairs of clipped speeds that the limiter scales to zero: no speed at
all, a turn that may be at most zero, or an advance that may be at most zero. -/
def LimitedToZero (pd : WaypointPD K) (v w : K) : Prop :=
  (v = 0 ∧ w = 0 ∧ 0 ≤ pd.maxV ∧ 0 ≤ pd.maxW) ∨
    (w ≠ 0 ∧ pd.maxW = 0 ∧ v ≤ pd.maxV) ∨
    (0 < v ∧ pd.maxV = 0 ∧ (|w| ≤ 1 / 1000 ∨ pd.maxW ≠ 0))

variable [IsStrictOrderedRing K]

theorem mul_copysign_eq_zero (m x : K) : m * Trig.copysign 1 x = 0 ↔ m = 0 := by
  have h : Trig.copysign 1 x ≠ 0 := by
    unfold Trig.copysign
    split <;> simp
  simp [h]

/-- `_limit` on finite speeds, with its divisions carried out. -/
theorem limit_fin (pd : WaypointPD K) (v w : K) :
    pd.limit (fin v) (fin w) =
      if |v| ≤ pd.maxV then
        if |w| ≤ pd.maxW then .ok ⟨fin v, fin w⟩
        else if w = 0 then .error .zeroDivisionError
        else .ok ⟨fin (pd.maxW * Trig.copysign 1 v * |v / w|), fin (pd.maxW * Trig.copysign 1 w)⟩
      else if |w| ≤ 1 / 1000 then .ok ⟨fin (pd.maxV * Trig.copysign 1 v), fin 0⟩
      else if pd.maxW = 0 then .error .zeroDivisionError
      else if pd.maxV / pd.maxW ≤ |v / w| then
        if v = 0 then .error .zeroDivisionError
        else .ok ⟨fin (pd.maxV * Trig.copysign 1 v),
          fin (pd.maxV * Trig.copysign 1 w / |v / w|)⟩
      else .ok ⟨fin (pd.maxW * Trig.copysign 1 v * |v / w|),
        fin (pd.maxW * Trig.copysign 1 w)⟩ := by
  unfold limit
  simp only [abs_fin, le_fin, decide_eq_true_eq, PyFloat.copysign, mul_fin]
  split
  · split
    · rfl
    · by_cases hw : w = 0
      · simp [hw, Bind.bind, Except.bind]
      · simp [hw, div_fin, Bind.bind, Except.bind, Pure.pure, Except.pure]
  · split
    · rfl
    · rename_i hsmall
      have hw : w ≠ 0 := by
        rintro rfl
        rw [abs_zero] at hsmall
        exact hsmall (by positivity)
      by_cases hW : pd.maxW = 0
      · simp [hw, hW, div_fin, Bind.bind, Except.bind]
      · by_cases hv : v = 0
        · simp [hw, hW, hv, div_fin, Bind.bind, Except.bind, Pure.pure, Except.pure]
        · simp [hw, hW, hv, div_fin, Bind.bind, Except.bind, Pure.pure, Except.pure]

/-- Within the linear limit the turn alone decides. -/
theorem limit_eq_zero_within (pd : WaypointPD K) {v : K} (hv : 0 ≤ v) (hlin : v ≤ pd.maxV) (w : K) :
    pd.limit (fin v) (fin w) = .ok TwistCmd.zero ↔
      (v = 0 ∧ w = 0 ∧ 0 ≤ pd.maxV ∧ 0 ≤ pd.maxW) ∨ (w ≠ 0 ∧ pd.maxW = 0 ∧ v ≤ pd.maxV) := by
  have hV : 0 ≤ pd.maxV := hv.trans hlin
  have hw0 : |w| = 0 ↔ w = 0 := abs_eq_zero
  have hwnn : 0 ≤ |w| := abs_nonneg w
  rw [limit_fin, abs_of_nonneg hv, if_pos hlin]
  unfold TwistCmd.zero
  by_cases hang : |w| ≤ pd.maxW
  · have hW : 0 ≤ pd.maxW := hwnn.trans hang
    rw [if_pos hang, ok_eq_zero_iff]
    constructor
    · rintro ⟨hv0, hw0⟩
      exact Or.inl ⟨hv0, hw0, hV, hW⟩
    · rintro (⟨hv0, hw0, -⟩ | ⟨hne, hzero, -⟩)
      · exact ⟨hv0, hw0⟩
      · rw [hzero] at hang
        exact absurd (hw0.mp (le_antisymm hang hwnn)) hne
  · rw [if_neg hang]
    by_cases hzero : w = 0
    · -- the source divides by zero here
      rw [if_pos hzero]
      constructor
      · intro h
        cases h
      · rintro (⟨-, -, -, hW⟩ | ⟨hne, -⟩)
        · rw [hzero, abs_zero] at hang
          exact absurd hW hang
        · exact absurd hzero hne
    · rw [if_neg hzero, ok_eq_zero_iff, mul_copysign_eq_zero]
      constructor
      · rintro ⟨-, hW⟩
        exact Or.inr ⟨hzero, hW, hlin⟩
      · rintro (⟨-, hw, -⟩ | ⟨-, hW, -⟩)
        · exact absurd hw hzero
        · rw [hW]
          simp

/-- Beyond the linear limit the advance is scaled to the limit itself. -/
theorem limit_eq_zero_beyond (pd : WaypointPD K) {v : K} (hv : 0 ≤ v) (hlin : ¬ v ≤ pd.maxV)
    (w : K) : pd.limit (fin v) (fin w) = .ok TwistCmd.zero ↔
      0 < v ∧ pd.maxV = 0 ∧ (|w| ≤ 1 / 1000 ∨ pd.maxW ≠ 0) := by
  have hpos : pd.maxV = 0 → 0 < v := fun hV => hV ▸ not_le.mp hlin
  rw [limit_fin, abs_of_nonneg hv, if_neg hlin]
  unfold TwistCmd.zero
  by_cases hsmall : |w| ≤ 1 / 1000
  · rw [if_pos hsmall, ok_eq_zero_iff, mul_copysign_eq_zero]
    constructor
    · rintro ⟨hV, -⟩
      exact ⟨hpos hV, hV, Or.inl hsmall⟩
    · rintro ⟨-, hV, -⟩
      exact ⟨hV, rfl⟩
  · rw [if_neg hsmall]
    by_cases hW : pd.maxW = 0
    · -- `_limit` divides by `max_w` for the radius
      rw [if_pos hW]
      constructor
      · intro h
        cases h
      · rintro ⟨-, -, h | h⟩
        · exact absurd h hsmall
        · exact absurd hW h
    · rw [if_neg hW]
      by_cases hrd : pd.maxV / pd.maxW ≤ |v / w|
      · rw [if_pos hrd]
        by_cases hv0 : v = 0
        · rw [if_pos hv0]
          constructor
          · intro h
            cases h
          · rintro ⟨hpos, -⟩
            exact absurd hv0 hpos.ne'
        · rw [if_neg hv0, ok_eq_zero_iff, mul_copysign_eq_zero]
          constructor
          · rintro ⟨hV, -⟩
            exact ⟨hpos hV, hV, Or.inr hW⟩
          · rintro ⟨-, hV, -⟩
            rw [hV]
            simp
      · rw [if_neg hrd, ok_eq_zero_iff, mul_copysign_eq_zero]
        constructor
        · rintro ⟨-, h⟩
          exact absurd h hW
        · rintro ⟨-, hV, -⟩
          rw [hV, zero_div] at hrd
          exact absurd (abs_nonneg _) hrd

/-- **The limiter answers zero** exactly on the pairs of `LimitedToZero`. -/
theorem limit_eq_zero_iff (pd : WaypointPD K) {v : K} (hv : 0 ≤ v) (w : K) :
    pd.limit (fin v) (fin w) = .ok TwistCmd.zero ↔ pd.LimitedToZero v w := by
  unfold LimitedToZero
  by_cases hlin : v ≤ pd.maxV
  · -- the third pair is beyond `maxV`
    have hthird : ¬ (0 < v ∧ pd.maxV = 0 ∧ (|w| ≤ 1 / 1000 ∨ pd.maxW ≠ 0)) := by
      rintro ⟨hpos, hzero, -⟩
      exact absurd (hlin.trans_eq hzero) (not_le.mpr hpos)
    rw [pd.limit_eq_zero_within hv hlin, or_iff_left hthird]
  · -- the first two pairs are within `maxV`
    have hfirst : ¬ (v = 0 ∧ w = 0 ∧ 0 ≤ pd.maxV ∧ 0 ≤ pd.maxW) := by
      rintro ⟨hv0, -, hV, -⟩
      exact hlin (hv0.trans_le hV)
    have hsecond : ¬ (w ≠ 0 ∧ pd.maxW = 0 ∧ v ≤ pd.maxV) := fun h => hlin h.2.2
    rw [pd.limit_eq_zero_beyond hv hlin, or_iff_right hfirst, or_iff_right hsecond]

end

/-! ## Waypoints that are not driven to -/

/-- A heading straight ahead, as `atan2` sees it: of the cosines zero, only `0.0` is. -/
def Straight (s c : SignedFloat ℝ) : Prop :=
  match s.value, c.value with
  | fin y, fin x => y = 0 ∧ 0 ≤ x ∧ c.negZero = false
  | fin _, posInf => True
  | _, _ => False

/-- The waypoint asks for no advance: it is not ahead. -/
def NoAdvance (wp : PathPoint ℝ) : Prop :=
  match wp.x with
  | fin x => x < eps
  | negInf => True
  | _ => False

/-- The waypoint asks for no turn: on the robot and headed straight ahead, or
away from it and on the robot's axis. -/
def NoTurn (wp : PathPoint ℝ) : Prop :=
  match wp.x, wp.y with
  | fin x, fin y => if |x| < eps then |y| < eps ∧ Straight wp.sin wp.cos else y = 0
  | posInf, fin _ => True
  | negInf, fin _ => True
  | _, _ => False

theorem abs_pi_le {theta : ℝ} (h : theta = Real.pi ∨ theta = -Real.pi) :
    |theta| ≤ Real.pi ∧ theta ≠ 0 := by
  have hpi := Real.pi_pos
  rcases h with rfl | rfl
  · exact ⟨(abs_of_pos hpi).le, hpi.ne'⟩
  · exact ⟨by rw [abs_neg, abs_of_pos hpi], neg_ne_zero.mpr hpi.ne'⟩

/-- `atan2` of two numbers is an angle in `[-π, π]`, and it is zero exactly straight ahead. -/
theorem atan2_fin {s c : SignedFloat ℝ} {y x : ℝ} (hs : s.value = fin y) (hc : c.value = fin x) :
    ∃ theta : ℝ, (s.atan2 c).value = fin theta ∧ |theta| ≤ Real.pi ∧
      (theta = 0 ↔ y = 0 ∧ 0 ≤ x ∧ c.negZero = false) := by
  by_cases hy : y = 0
  · rw [SignedFloat.atan2_of_zero (hs.trans (congrArg fin hy)) (by simp [hc]),
      and_iff_right hy, ← SignedFloat.negative_fin hc]
    cases c.negative with
    | false => exact ⟨0, rfl, by rw [abs_zero]; exact Real.pi_pos.le, iff_of_true rfl rfl⟩
    | true =>
        have hback : (if s.negZero then -Real.pi else Real.pi) = Real.pi ∨
            (if s.negZero then -Real.pi else Real.pi) = -Real.pi := by
          split <;> simp
        obtain ⟨habs, hne⟩ := abs_pi_le hback
        exact ⟨_, rfl, habs, iff_of_false hne (by decide)⟩
  · rw [SignedFloat.atan2_of_ne (.inl (by rw [hs]; simpa using hy)), hs, hc]
    refine ⟨Complex.arg ⟨x, y⟩, rfl, Complex.abs_arg_le_pi _, iff_of_false ?_ fun h => hy h.1⟩
    rw [Complex.arg_eq_zero_iff]
    exact fun h => hy h.2

/-- Infinitely far ahead there is no angle. -/
theorem atan2_posInf {s c : SignedFloat ℝ} {y : ℝ} (hs : s.value = fin y)
    (hc : c.value = posInf) : (s.atan2 c).value = fin 0 := by
  by_cases hy : y = 0
  · rw [SignedFloat.atan2_of_zero (hs.trans (congrArg fin hy)) (by simp [hc])]
    simp [SignedFloat.negative, hc]
  · rw [SignedFloat.atan2_of_ne (.inl (by rw [hs]; simpa using hy)), hs, hc]
    rfl

/-- Infinitely far behind it is half a turn, to one side or the other. -/
theorem atan2_negInf {s c : SignedFloat ℝ} {y : ℝ} (hs : s.value = fin y)
    (hc : c.value = negInf) :
    ∃ theta, (s.atan2 c).value = fin theta ∧ (theta = Real.pi ∨ theta = -Real.pi) := by
  by_cases hy : y = 0
  · rw [SignedFloat.atan2_of_zero (hs.trans (congrArg fin hy)) (by simp [hc])]
    refine ⟨_, rfl, ?_⟩
    rw [if_pos (by simp [SignedFloat.negative, hc])]
    split
    · exact .inr rfl
    · exact .inl rfl
  · rw [SignedFloat.atan2_of_ne (.inl (by rw [hs]; simpa using hy)), hs, hc]
    refine ⟨_, rfl, ?_⟩
    unfold Trig.copysign
    rw [show |(Trig.pi : ℝ)| = Real.pi from abs_of_pos Real.pi_pos]
    split
    · exact .inr rfl
    · exact .inl rfl

/-- `atan2` of any two floats is `nan` or an angle in `[-π, π]`, and it is zero
exactly straight ahead. -/
theorem atan2_cases (s c : SignedFloat ℝ) :
    ((s.atan2 c).value = nan ∧ ¬ Straight s c) ∨
      ∃ theta : ℝ, (s.atan2 c).value = fin theta ∧ |theta| ≤ Real.pi ∧
        (theta = 0 ↔ Straight s c) := by
  have hpi := Real.pi_pos
  have hpos : ∀ theta : ℝ, 0 < theta → theta ≤ Real.pi → |theta| ≤ Real.pi ∧
      (theta = 0 ↔ False) := by
    intro theta h h'
    exact ⟨by rwa [abs_of_pos h], iff_of_false h.ne' id⟩
  have hneg : ∀ theta : ℝ, 0 < theta → theta ≤ Real.pi → |-theta| ≤ Real.pi ∧
      (-theta = 0 ↔ False) := by
    intro theta h h'
    exact ⟨by rwa [abs_neg, abs_of_pos h], iff_of_false (neg_ne_zero.mpr h.ne') id⟩
  unfold Straight
  cases hs : s.value with
  | nan =>
      rw [SignedFloat.atan2_of_ne (.inl (by simp [hs])), hs]
      exact Or.inl ⟨rfl, id⟩
  | fin y =>
      cases hc : c.value with
      | nan =>
          rw [SignedFloat.atan2_of_ne (.inr hc), hs, hc]
          exact Or.inl ⟨rfl, id⟩
      | fin x => exact Or.inr (atan2_fin hs hc)
      | posInf =>
          refine Or.inr ⟨0, atan2_posInf hs hc, ?_, iff_of_true rfl trivial⟩
          rw [abs_zero]
          exact hpi.le
      | negInf =>
          -- half a turn, to the side that the sign of the sine says
          obtain ⟨theta, htheta, hback⟩ := atan2_negInf hs hc
          obtain ⟨habs, hne⟩ := abs_pi_le hback
          exact Or.inr ⟨theta, htheta, habs, iff_of_false hne id⟩
  | posInf =>
      rw [SignedFloat.atan2_of_ne (.inl (by simp [hs])), hs]
      cases c.value with
      | nan => exact Or.inl ⟨rfl, id⟩
      | fin x => exact Or.inr ⟨_, rfl, hpos (Real.pi / 2) (by linarith) (by linarith)⟩
      | posInf => exact Or.inr ⟨_, rfl, hpos (Real.pi / 4) (by linarith) (by linarith)⟩
      | negInf => exact Or.inr ⟨_, rfl, hpos (3 * Real.pi / 4) (by linarith) (by linarith)⟩
  | negInf =>
      rw [SignedFloat.atan2_of_ne (.inl (by simp [hs])), hs]
      cases c.value with
      | nan => exact Or.inl ⟨rfl, id⟩
      | fin x => exact Or.inr ⟨_, rfl, hneg (Real.pi / 2) (by linarith) (by linarith)⟩
      | posInf => exact Or.inr ⟨_, rfl, hneg (Real.pi / 4) (by linarith) (by linarith)⟩
      | negInf => exact Or.inr ⟨_, rfl, hneg (3 * Real.pi / 4) (by linarith) (by linarith)⟩

/-- Only of no angle at all do sine and cosine point straight ahead. -/
theorem sin_cos_ahead_iff {theta : ℝ} (h : |theta| ≤ Real.pi) :
    Real.sin theta = 0 ∧ 0 ≤ Real.cos theta ↔ theta = 0 := by
  have hpi := Real.pi_pos
  obtain ⟨hlo, hhi⟩ := abs_le.mp h
  constructor
  · rintro ⟨hsin, hcos⟩
    have hsq := Real.sin_sq_add_cos_sq theta
    have hone : Real.cos theta = 1 := by
      rw [hsin] at hsq
      nlinarith
    exact (Real.cos_eq_one_iff_of_lt_of_lt (by linarith) (by linarith)).mp hone
  · rintro rfl
    simp

/-- Wrapping an angle in `[-π, π]` makes zero of zero only. -/
theorem wrapAngle_fin {theta : SignedFloat ℝ} {t : ℝ} (htheta : theta.value = fin t)
    (h : |t| ≤ Real.pi) :
    ∃ (wrapped : SignedFloat ℝ) (t' : ℝ), wrapAngle theta = .ok wrapped ∧
      wrapped.value = fin t' ∧ (t' = 0 ↔ t = 0) := by
  have hsin : theta.sin = .ok (.signed (fin (Real.sin t)) theta.negative) := by
    rw [SignedFloat.sin, htheta]
    rfl
  have hcos : theta.cos = .ok (.signed (fin (Real.cos t)) false) := by
    rw [SignedFloat.cos, htheta]
    rfl
  obtain ⟨t', hvalue, -, hzero⟩ := atan2_fin
    (s := .signed (fin (Real.sin t)) theta.negative) (c := .signed (fin (Real.cos t)) false)
    rfl rfl
  refine ⟨_, t', by rw [wrapAngle, hsin, hcos]; rfl, hvalue, ?_⟩
  rw [hzero, ← sin_cos_ahead_iff h]
  simp [SignedFloat.signed]

theorem wrapAngle_nan {theta : SignedFloat ℝ} (htheta : theta.value = nan) :
    ∃ wrapped : SignedFloat ℝ, wrapAngle theta = .ok wrapped ∧ wrapped.value = nan := by
  have hsin : theta.sin = .ok (.signed nan theta.negative) := by
    rw [SignedFloat.sin, htheta]
    rfl
  have hcos : theta.cos = .ok (.signed nan false) := by
    rw [SignedFloat.cos, htheta]
    rfl
  exact ⟨_, by rw [wrapAngle, hsin, hcos]; rfl, SignedFloat.atan2_of_ne (.inr rfl)⟩

theorem linear_eq_zero_iff {x : ℝ} : clip 0 linearClip (fin x) = 0 ↔ x ≤ 0 :=
  clip_zero_fin_eq_zero_iff (by norm_num [linearClip])

theorem angular_eq_zero_iff {x : ℝ} : clip (-angularClip) angularClip (fin x) = 0 ↔ x = 0 :=
  clip_fin_eq_zero_iff (by norm_num [angularClip]) (by norm_num [angularClip])

theorem angular_nan : clip (-angularClip) (angularClip : ℝ) nan ≠ 0 := by
  norm_num [clip, angularClip]

theorem turnInPlace_spec (pd : WaypointPD ℝ) (wp : PathPoint ℝ) :
    ∃ angular, pd.turnInPlace wp = .ok angular ∧
      (clip (-angularClip) angularClip angular = 0 ↔ Straight wp.sin wp.cos) := by
  have hdt := pd.dt_pos.ne'
  unfold turnInPlace
  rcases atan2_cases wp.sin wp.cos with ⟨hnan, hns⟩ | ⟨theta, htheta, habs, hzero⟩
  · obtain ⟨wrapped, hwrap, hvalue⟩ := wrapAngle_nan hnan
    refine ⟨nan, ?_, iff_of_false angular_nan hns⟩
    rw [hwrap]
    simp [hvalue, div, hdt, mul, Bind.bind, Except.bind]
  · obtain ⟨wrapped, theta', hwrap, hvalue, hwrapped⟩ := wrapAngle_fin htheta habs
    refine ⟨fin (theta' / pd.dt), ?_, ?_⟩
    · rw [hwrap]
      show wrapped.value.div (fin pd.dt) = _
      rw [hvalue, div_fin hdt]
    · rw [angular_eq_zero_iff, div_eq_zero_iff, or_iff_left hdt, hwrapped, hzero]

/-- A slope decides the turn. -/
theorem turn_of_slope (pd : WaypointPD ℝ) (slope : ℝ) :
    ∃ angular, (fin slope).atan.div (fin pd.dt) = .ok angular ∧
      (clip (-angularClip) angularClip angular = 0 ↔ slope = 0) := by
  have hdt := pd.dt_pos.ne'
  refine ⟨fin (Real.arctan slope / pd.dt), div_fin hdt _, ?_⟩
  rw [angular_eq_zero_iff, div_eq_zero_iff, or_iff_left hdt, Real.arctan_eq_zero_iff]

/-- A waypoint straight to the side is always turned to. -/
theorem turn_of_infinite (pd : WaypointPD ℝ) {slope : PyFloat ℝ}
    (h : slope = posInf ∨ slope = negInf) :
    ∃ angular, slope.atan.div (fin pd.dt) = .ok angular ∧
      (clip (-angularClip) angularClip angular = 0 ↔ False) := by
  have hdt := pd.dt_pos
  have hpi := Real.pi_pos
  rcases h with rfl | rfl
  · refine ⟨fin (Real.pi / 2 / pd.dt), div_fin hdt.ne' _, iff_of_false ?_ id⟩
    rw [angular_eq_zero_iff]
    positivity
  · refine ⟨fin (-(Real.pi / 2) / pd.dt), div_fin hdt.ne' _, iff_of_false ?_ id⟩
    rw [angular_eq_zero_iff, neg_div, neg_eq_zero]
    positivity

/-- And so is one that is `nan`. -/
theorem turn_of_nan (pd : WaypointPD ℝ) :
    ∃ angular, (nan : PyFloat ℝ).atan.div (fin pd.dt) = .ok angular ∧
      (clip (-angularClip) angularClip angular = 0 ↔ False) := by
  refine ⟨nan, ?_, iff_of_false angular_nan id⟩
  simp [PyFloat.atan, div, pd.dt_pos.ne', mul]

/-- The turn toward a waypoint off the robot is zero on the robot's axis only. -/
theorem turnAlong_spec (pd : WaypointPD ℝ) {wp : PathPoint ℝ}
    (hx : wp.x.abs.lt (fin eps) = false) :
    ∃ angular, pd.turnAlong wp = .ok angular ∧
      (clip (-angularClip) angularClip angular = 0 ↔ NoTurn wp) := by
  rcases wp with ⟨x, y, c, s⟩
  unfold turnAlong NoTurn
  cases x with
  | fin x =>
      have heps : ¬ |x| < eps := by simpa using hx
      have hx0 : x ≠ 0 := by
        rintro rfl
        exact heps (by norm_num [eps])
      have hinv : x⁻¹ ≠ 0 := inv_ne_zero hx0
      cases y with
      | fin y =>
          simp only [div_fin hx0, if_neg heps]
          -- the turn is that of the slope, and a finite slope is zero with `y` only
          have hslope : y / x = 0 ↔ y = 0 := by rw [div_eq_zero_iff, or_iff_left hx0]
          rw [← hslope]
          exact pd.turn_of_slope (y / x)
      | posInf =>
          simp only [div, if_neg hx0]
          exact pd.turn_of_infinite (infTimes_cases hinv)
      | negInf =>
          simp only [div, if_neg hx0]
          exact pd.turn_of_infinite (infTimes_cases (neg_ne_zero.mpr hinv))
      | nan =>
          simp only [div, if_neg hx0]
          exact pd.turn_of_nan
  | posInf =>
      cases y with
      | fin y =>
          obtain ⟨angular, hdiv, hzero⟩ := pd.turn_of_slope 0
          exact ⟨angular, hdiv, hzero.trans (iff_of_true rfl trivial)⟩
      | posInf => exact pd.turn_of_nan
      | negInf => exact pd.turn_of_nan
      | nan => exact pd.turn_of_nan
  | negInf =>
      cases y with
      | fin y =>
          obtain ⟨angular, hdiv, hzero⟩ := pd.turn_of_slope 0
          exact ⟨angular, hdiv, hzero.trans (iff_of_true rfl trivial)⟩
      | posInf => exact pd.turn_of_nan
      | negInf => exact pd.turn_of_nan
      | nan => exact pd.turn_of_nan
  | nan =>
      cases y with
      | fin y => exact pd.turn_of_nan
      | posInf => exact pd.turn_of_nan
      | negInf => exact pd.turn_of_nan
      | nan => exact pd.turn_of_nan

theorem exists_of_near {a : PyFloat ℝ} (h : a.abs.lt (fin eps) = true) :
    ∃ x, a = fin x ∧ |x| < eps := by
  cases a with
  | fin x => exact ⟨x, rfl, by simpa using h⟩
  | posInf => cases h
  | negInf => cases h
  | nan => cases h

/-- A magnitude keeps its size under any sign. -/
theorem copysign_ne_zero {x : ℝ} (h : x ≠ 0) (y : PyFloat ℝ) : PyFloat.copysign x y ≠ 0 := by
  have hmag : |x| ≠ 0 := abs_ne_zero.mpr h
  unfold PyFloat.copysign Trig.copysign
  split
  · split
    · exact neg_ne_zero.mpr hmag
    · exact hmag
  · exact neg_ne_zero.mpr hmag
  · exact hmag

/-- The advance of a waypoint that is not beside the robot. -/
theorem advance_spec (pd : WaypointPD ℝ) {wp : PathPoint ℝ}
    (hx : wp.x.abs.lt (fin eps) = false) :
    ∃ linear, wp.x.div (fin pd.dt) = .ok linear ∧
      (clip 0 linearClip linear = 0 ↔ NoAdvance wp) := by
  have hdt := pd.dt_pos
  have hinv : 0 < pd.dt⁻¹ := inv_pos.mpr hdt
  have hclip : clip 0 (linearClip : ℝ) posInf ≠ 0 := by norm_num [clip, linearClip]
  rcases wp with ⟨x, y, c, s⟩
  unfold NoAdvance
  cases x with
  | fin x =>
      refine ⟨fin (x / pd.dt), div_fin hdt.ne' x, ?_⟩
      have heps : ¬ |x| < eps := by simpa using hx
      rw [linear_eq_zero_iff, div_nonpos_iff]
      show _ ↔ x < eps
      constructor
      · rintro (⟨-, h⟩ | ⟨h, -⟩)
        · exact absurd h (not_le.mpr hdt)
        · exact h.trans_lt (by norm_num [eps])
      · intro h
        -- not within `eps` of zero, so on the far side of it
        refine Or.inr ⟨?_, hdt.le⟩
        by_contra hpos
        exact heps (by rwa [abs_of_pos (not_le.mp hpos)])
  | posInf =>
      refine ⟨posInf, ?_, iff_of_false hclip id⟩
      simp only [div, if_neg hdt.ne', mul, infTimes_pos hinv]
  | negInf =>
      refine ⟨negInf, ?_, iff_of_true rfl trivial⟩
      simp only [div, if_neg hdt.ne', mul, infTimes_neg (neg_lt_zero.mpr hinv)]
  | nan =>
      refine ⟨nan, ?_, iff_of_false hclip id⟩
      simp only [div, if_neg hdt.ne', mul]

/-- **The speeds toward a waypoint.**  The controller always finds some, and
which of them are zero can be read off the waypoint. -/
theorem toward_spec (pd : WaypointPD ℝ) (wp : PathPoint ℝ) :
    ∃ linear angular, pd.toward wp = .ok (linear, angular) ∧
      (clip 0 linearClip linear = 0 ↔ NoAdvance wp) ∧
      (clip (-angularClip) angularClip angular = 0 ↔ NoTurn wp) := by
  have hdt := pd.dt_pos
  unfold toward
  by_cases hx : wp.x.abs.lt (fin eps) = true
  · obtain ⟨x, hwx, hxe⟩ := exists_of_near hx
    have hadv : clip 0 linearClip (fin (0 : ℝ)) = 0 ↔ NoAdvance wp := by
      rw [linear_eq_zero_iff]
      refine iff_of_true le_rfl ?_
      unfold NoAdvance
      rw [hwx]
      exact (le_abs_self x).trans_lt hxe
    -- no advance here: the turn is by the heading, or a quarter turn to the side
    by_cases hy : wp.y.abs.lt (fin eps) = true
    · obtain ⟨y, hwy, hye⟩ := exists_of_near hy
      obtain ⟨angular, hang, hzero⟩ := pd.turnInPlace_spec wp
      refine ⟨fin 0, angular, ?_, hadv, ?_⟩
      · rw [hx, hy, hang]
        rfl
      · rw [hzero]
        unfold NoTurn
        rw [hwx, hwy]
        simp [hxe, hye]
    · have hy' : wp.y.abs.lt (fin eps) = false := by simpa using hy
      refine ⟨fin 0, fin (PyFloat.copysign (Trig.pi / (2 * pd.dt)) wp.y), ?_, hadv, ?_⟩
      · rw [hx, hy']
        rfl
      · have hmag : (Trig.pi / (2 * pd.dt) : ℝ) ≠ 0 :=
          div_ne_zero Real.pi_pos.ne' (mul_ne_zero two_ne_zero hdt.ne')
        have hturn := copysign_ne_zero hmag wp.y
        rw [angular_eq_zero_iff]
        refine iff_of_false hturn ?_
        unfold NoTurn
        rw [hwx]
        cases hwy : wp.y with
        | fin y =>
            rw [hwy] at hy'
            have hfar : ¬ |y| < eps := by simpa using hy'
            simp [hxe, hfar]
        | posInf => exact id
        | negInf => exact id
        | nan => exact id
  · have hfar : wp.x.abs.lt (fin eps) = false := by simpa using hx
    obtain ⟨linear, hlin, hadv⟩ := pd.advance_spec hfar
    obtain ⟨angular, hang, hturn⟩ := pd.turnAlong_spec hfar
    refine ⟨linear, angular, ?_, hadv, hturn⟩
    rw [hfar, hlin, hang]
    rfl

/-- A `nan` coordinate ahead of the robot ends at both upper clips: full speed,
full left turn. -/
theorem speeds_of_nan (pd : WaypointPD ℝ) {wp : PathPoint ℝ} (hx : wp.x = nan) :
    pd.speeds wp = (1 / 2, 1) := by
  have hdt := pd.dt_pos.ne'
  have hlin : wp.x.div (fin pd.dt) = .ok nan := by
    rw [hx]
    simp [div, hdt, mul]
  have hang : pd.turnAlong wp = .ok nan := by
    simp [turnAlong, hx, Bind.bind, Except.bind, PyFloat.atan, div, hdt, mul]
  have hfar : wp.x.abs.lt (fin eps) = false := by
    rw [hx]
    rfl
  have htoward : pd.toward wp = .ok (nan, nan) := by
    unfold toward
    rw [hfar, hlin, hang]
    rfl
  rw [speeds, htoward]
  norm_num [clip, linearClip, angularClip]

/-- A waypoint the controller does not move for: it asks for neither an advance
nor a turn, or the limiter leaves nothing of what it asks for. -/
def StandsStill (pd : WaypointPD ℝ) (wp : PathPoint ℝ) : Prop :=
  (NoAdvance wp ∧ NoTurn wp ∧ 0 ≤ pd.maxV ∧ 0 ≤ pd.maxW) ∨
    (¬ NoTurn wp ∧ pd.maxW = 0 ∧ (pd.speeds wp).1 ≤ pd.maxV) ∨
    (¬ NoAdvance wp ∧ pd.maxV = 0 ∧ (|(pd.speeds wp).2| ≤ 1 / 1000 ∨ pd.maxW ≠ 0))

/-- With positive limits only a waypoint that asks for nothing is left. -/
theorem standsStill_iff_of_pos {pd : WaypointPD ℝ} (hv : 0 < pd.maxV) (hw : 0 < pd.maxW)
    (wp : PathPoint ℝ) : pd.StandsStill wp ↔ NoAdvance wp ∧ NoTurn wp := by
  unfold StandsStill
  simp [hv.ne', hw.ne', hv.le, hw.le]

/-- On the robot with a sine of zero, it stands still at the cosine `0.0` and turns at `-0.0`. -/
example {pd : WaypointPD ℝ} (hv : 0 < pd.maxV) (hw : 0 < pd.maxW) :
    pd.StandsStill ⟨fin 0, fin 0, .num 0, .num 0⟩ ∧
      ¬ pd.StandsStill ⟨fin 0, fin 0, .minusZero ℝ, .num 0⟩ := by
  rw [standsStill_iff_of_pos hv hw, standsStill_iff_of_pos hv hw]
  simp [NoAdvance, NoTurn, Straight, SignedFloat.minusZero, eps]

/-- `compute` on a path with a waypoint to select is the limiter on its speeds. -/
theorem compute_of_select (pd : WaypointPD ℝ) {path : List (PathPoint ℝ)} {wp : PathPoint ℝ}
    (hsel : pd.select path = .ok wp) :
    pd.compute path = pd.limit (fin (pd.speeds wp).1) (fin (pd.speeds wp).2) := by
  obtain ⟨linear, angular, htoward, -⟩ := pd.toward_spec wp
  rw [compute, computeWith_of_toward hsel htoward, speeds, htoward]

/-- **When `compute` answers zero.** -/
theorem compute_eq_zero_iff (pd : WaypointPD ℝ) (path : List (PathPoint ℝ)) :
    pd.compute path = .ok TwistCmd.zero ↔
      path = [] ∨ ∃ wp, pd.select path = .ok wp ∧ pd.StandsStill wp := by
  by_cases hpath : path = []
  · exact iff_of_true (by unfold compute computeWith; rw [if_pos hpath]; rfl) (Or.inl hpath)
  · rw [or_iff_right hpath]
    cases hsel : pd.select path with
    | error e =>
        unfold compute computeWith
        rw [if_neg hpath, hsel]
        simp [Bind.bind, Except.bind]
    | ok wp =>
        obtain ⟨linear, angular, htoward, hadv, hturn⟩ := pd.toward_spec wp
        have hspeeds : pd.speeds wp =
            (clip 0 linearClip linear, clip (-angularClip) angularClip angular) := by
          simp only [speeds, htoward]
        have hnn : 0 ≤ (pd.speeds wp).1 := by
          rw [hspeeds]
          exact le_clip _ _ _
        have hadv' : (pd.speeds wp).1 = 0 ↔ NoAdvance wp := by rw [hspeeds, ← hadv]
        have hturn' : (pd.speeds wp).2 = 0 ↔ NoTurn wp := by rw [hspeeds, ← hturn]
        have hstill : pd.LimitedToZero (pd.speeds wp).1 (pd.speeds wp).2 ↔ pd.StandsStill wp := by
          unfold LimitedToZero StandsStill
          rw [hnn.lt_iff_ne', Ne, Ne, hadv', hturn']
        rw [pd.compute_of_select hsel, pd.limit_eq_zero_iff hnn, hstill]
        simp

/-- The controller of a follower with its default parameters. -/
def defaults (K : Type*) [Field K] [LinearOrder K] [IsStrictOrderedRing K] : WaypointPD K where
  maxV := 2 / 5
  maxW := 1
  waypointSelect := 4
  dt := 1 / 3
  dt_pos := by positivity

end WaypointPD
