/-
# The arc that the limiter keeps

What the limiter of `compute` makes of the clipped pair, for any two pre-clips.

* `limit_scaled` : one factor shrinks both speeds, so that the turn radius stays;
* `limit_dropped` : beyond the linear limit, a turn of at most 0.001 is dropped;
* `computeWith_limited` : the envelope of `compute`, on every path;
* `turnsToward_iff` : the robot turns toward the side of its waypoint, unless the
  waypoint is behind it.
-/
import Mathlib.Data.Sign.Basic
import Rvln.WaypointPD

namespace WaypointPD

open PyFloat

/-! ## The selected waypoint -/

section

variable {K : Type*} [Field K] [LinearOrder K]

/-- A path that is not empty has a waypoint to select, `waypoint_select` steps ahead or
at its end. -/
theorem exists_select {pd : WaypointPD K} {path : List (PathPoint K)}
    (hpath : path ≠ []) (hsel : 0 ≤ pd.waypointSelect) : ∃ wp, pd.select path = .ok wp := by
  have hlen : 0 < path.length := List.length_pos_iff.mpr hpath
  have hindex : ∀ i : ℤ, 0 ≤ i → i < path.length → ∃ wp, pyIndex path i = .ok wp := by
    intro i hi hlt
    have hnat : i.toNat < path.length := by omega
    unfold pyIndex
    rw [if_pos hi, List.getElem?_eq_getElem hnat]
    exact ⟨_, rfl⟩
  unfold select
  split
  · exact hindex _ (by omega) (by omega)
  · exact hindex _ hsel (by omega)

end

/-! ## The limiter -/

section

variable {K : Type*} [Field K] [LinearOrder K] [IsStrictOrderedRing K]

/-- A sign is a quotient. -/
theorem copysign_one_mul_abs (x : K) : Trig.copysign 1 x * |x| = x := by
  unfold Trig.copysign
  split
  · rename_i h
    rw [abs_of_neg h, abs_one]
    ring
  · rename_i h
    rw [abs_of_nonneg (not_lt.mp h), abs_one, one_mul]

theorem copysign_one_of_nonneg {x : K} (h : 0 ≤ x) : Trig.copysign 1 x = 1 := by
  unfold Trig.copysign
  rw [if_neg (not_lt.mpr h), abs_one]

/-- The pair is beyond the linear limit, with next to no turn. -/
def Dropped (pd : WaypointPD K) (v₀ w₀ : K) : Prop := |w₀| ≤ 1 / 1000 ∧ pd.maxV < v₀

variable {pd : WaypointPD K} {v₀ w₀ : K}

theorem limit_dropped (hV : 0 ≤ pd.maxV) (h : pd.Dropped v₀ w₀) :
    pd.limit (fin v₀) (fin w₀) = .ok ⟨fin pd.maxV, fin 0⟩ := by
  obtain ⟨hsmall, hfast⟩ := h
  have hv : 0 ≤ v₀ := hV.trans hfast.le
  rw [limit_fin, abs_of_nonneg hv, if_neg (not_le.mpr hfast), if_pos hsmall,
    copysign_one_of_nonneg hv, mul_one]

/-- The pair that is limited by the turn. -/
theorem scaled_turn (m : K) (hv : 0 ≤ v₀) (hw : w₀ ≠ 0) :
    m * Trig.copysign 1 v₀ * |v₀ / w₀| = m / |w₀| * v₀ ∧
      m * Trig.copysign 1 w₀ = m / |w₀| * w₀ := by
  have habs : |w₀| ≠ 0 := abs_ne_zero.mpr hw
  constructor
  · rw [copysign_one_of_nonneg hv, abs_div, abs_of_nonneg hv]
    ring
  · rw [div_mul_eq_mul_div, eq_div_iff habs, mul_assoc, copysign_one_mul_abs]

/-- The pair that is limited by the advance. -/
theorem scaled_advance (m : K) (hv : 0 < v₀) (hw : w₀ ≠ 0) :
    m * Trig.copysign 1 v₀ = m / v₀ * v₀ ∧
      m * Trig.copysign 1 w₀ / |v₀ / w₀| = m / v₀ * w₀ := by
  have habs : |w₀| ≠ 0 := abs_ne_zero.mpr hw
  constructor
  · rw [copysign_one_of_nonneg hv.le, mul_one, div_mul_cancel₀ _ hv.ne']
  · rw [abs_div, abs_of_pos hv, div_div_eq_mul_div, mul_assoc, copysign_one_mul_abs]
    ring

/-- **One factor for both speeds**: the limiter shrinks the pair onto the smaller of its
two limits. -/
theorem limit_scaled (hv : 0 ≤ v₀) (hV : 0 ≤ pd.maxV) (hW : 0 < pd.maxW)
    (h : ¬ pd.Dropped v₀ w₀) :
    ∃ t, 0 ≤ t ∧ t ≤ 1 ∧ (0 < pd.maxV → 0 < t) ∧ t * v₀ ≤ pd.maxV ∧ t * |w₀| ≤ pd.maxW ∧
      pd.limit (fin v₀) (fin w₀) = .ok ⟨fin (t * v₀), fin (t * w₀)⟩ := by
  rw [limit_fin, abs_of_nonneg hv]
  by_cases hlin : v₀ ≤ pd.maxV
  · rw [if_pos hlin]
    by_cases hang : |w₀| ≤ pd.maxW
    · refine ⟨1, zero_le_one, le_rfl, fun _ => zero_lt_one, ?_, ?_, ?_⟩
      · rwa [one_mul]
      · rwa [one_mul]
      · rw [if_pos hang, one_mul, one_mul]
    · have hturn : pd.maxW < |w₀| := not_le.mp hang
      have hpos : 0 < |w₀| := hW.trans hturn
      have hw : w₀ ≠ 0 := abs_pos.mp hpos
      have ht : pd.maxW / |w₀| ≤ 1 := (div_le_one hpos).mpr hturn.le
      obtain ⟨hadvance, hangular⟩ := scaled_turn pd.maxW hv hw
      refine ⟨pd.maxW / |w₀|, (div_pos hW hpos).le, ht, fun _ => div_pos hW hpos, ?_, ?_, ?_⟩
      · exact (mul_le_of_le_one_left hv ht).trans hlin
      · rw [div_mul_cancel₀ _ hpos.ne']
      · rw [if_neg hang, if_neg hw, hadvance, hangular]
  · have hfast : pd.maxV < v₀ := not_le.mp hlin
    have hv0 : 0 < v₀ := hV.trans_lt hfast
    have hsmall : ¬ |w₀| ≤ 1 / 1000 := fun hle => h ⟨hle, hfast⟩
    have hpos : 0 < |w₀| := lt_trans (by norm_num) (not_le.mp hsmall)
    have hw : w₀ ≠ 0 := abs_pos.mp hpos
    have hrd : pd.maxV / pd.maxW ≤ |v₀ / w₀| ↔ pd.maxV * |w₀| ≤ v₀ * pd.maxW := by
      rw [abs_div, abs_of_pos hv0, div_le_div_iff₀ hW hpos]
    rw [if_neg hlin, if_neg hsmall, if_neg hW.ne']
    by_cases hwide : pd.maxV * |w₀| ≤ v₀ * pd.maxW
    · -- the advance is the tighter limit
      obtain ⟨hadvance, hangular⟩ := scaled_advance pd.maxV hv0 hw
      refine ⟨pd.maxV / v₀, div_nonneg hV hv, (div_le_one hv0).mpr hfast.le,
        fun hVpos => div_pos hVpos hv0, ?_, ?_, ?_⟩
      · rw [div_mul_cancel₀ _ hv0.ne']
      · rw [div_mul_eq_mul_div, div_le_iff₀ hv0, mul_comm pd.maxW]
        exact hwide
      · rw [if_pos (hrd.mpr hwide), if_neg hv0.ne', hadvance, hangular]
    · -- the turn is
      obtain ⟨hadvance, hangular⟩ := scaled_turn pd.maxW hv hw
      have htight : v₀ * pd.maxW < pd.maxV * |w₀| := not_le.mp hwide
      have hturn : pd.maxW ≤ |w₀| := by
        have hle : v₀ * pd.maxW ≤ v₀ * |w₀| :=
          htight.le.trans (mul_le_mul_of_nonneg_right hfast.le hpos.le)
        exact le_of_mul_le_mul_left hle hv0
      refine ⟨pd.maxW / |w₀|, (div_pos hW hpos).le, (div_le_one hpos).mpr hturn,
        fun _ => div_pos hW hpos, ?_, ?_, ?_⟩
      · rw [div_mul_eq_mul_div, div_le_iff₀ hpos, mul_comm pd.maxW]
        exact htight.le
      · rw [div_mul_cancel₀ _ hpos.ne']
      · rw [if_neg (fun hle => hwide (hrd.mp hle)), hadvance, hangular]

/-- `(v, w)` is what the limiter leaves of `(v₀, w₀)`. -/
structure Limited (pd : WaypointPD K) (v₀ w₀ v w : K) : Prop where
  linear_nonneg : 0 ≤ v
  linear_le_max : v ≤ pd.maxV
  angular_le_max : |w| ≤ pd.maxW
  linear_le : |v| ≤ |v₀|
  angular_le : |w| ≤ |w₀|
  linear_sign : v = 0 ∨ SignType.sign v = SignType.sign v₀
  angular_sign : w = 0 ∨ SignType.sign w = SignType.sign w₀
  arc : ¬ pd.Dropped v₀ w₀ → v * w₀ = w * v₀
  dropped : pd.Dropped v₀ w₀ → v = pd.maxV ∧ w = 0

theorem sign_mul_of_nonneg {t : K} (ht : 0 ≤ t) (x : K) :
    t * x = 0 ∨ SignType.sign (t * x) = SignType.sign x := by
  rcases ht.eq_or_lt with rfl | hpos
  · exact .inl (zero_mul x)
  · right
    rw [sign_mul, sign_pos hpos, one_mul]

theorem abs_mul_le_of_le_one {t : K} (h0 : 0 ≤ t) (h1 : t ≤ 1) (x : K) : |t * x| ≤ |x| := by
  rw [abs_mul, abs_of_nonneg h0]
  exact mul_le_of_le_one_left (abs_nonneg x) h1

variable (w₀) in
/-- **What the limiter does**, for a clipped pair. -/
theorem limit_limited (hv : 0 ≤ v₀) (hV : 0 ≤ pd.maxV) (hW : 0 < pd.maxW) :
    ∃ v w, pd.limit (fin v₀) (fin w₀) = .ok ⟨fin v, fin w⟩ ∧ pd.Limited v₀ w₀ v w := by
  by_cases hdrop : pd.Dropped v₀ w₀
  · refine ⟨pd.maxV, 0, limit_dropped hV hdrop, ?_⟩
    have hle : |pd.maxV| ≤ |v₀| := by
      rw [abs_of_nonneg hV, abs_of_nonneg hv]
      exact hdrop.2.le
    have hsign : pd.maxV = 0 ∨ SignType.sign pd.maxV = SignType.sign v₀ := by
      rcases hV.eq_or_lt with hzero | hpos
      · exact .inl hzero.symm
      · exact .inr (by rw [sign_pos hpos, sign_pos (hpos.trans hdrop.2)])
    exact ⟨hV, le_rfl, by rw [abs_zero]; exact hW.le, hle, by rw [abs_zero]; exact abs_nonneg w₀,
      hsign, .inl rfl, fun hnot => absurd hdrop hnot, fun _ => ⟨rfl, rfl⟩⟩
  · obtain ⟨t, h0, h1, -, hlin, hang, hlimit⟩ := limit_scaled hv hV hW hdrop
    refine ⟨t * v₀, t * w₀, hlimit, mul_nonneg h0 hv, hlin, ?_, abs_mul_le_of_le_one h0 h1 v₀,
      abs_mul_le_of_le_one h0 h1 w₀, sign_mul_of_nonneg h0 v₀, sign_mul_of_nonneg h0 w₀, ?_,
      fun hyes => absurd hyes hdrop⟩
    · rwa [abs_mul, abs_of_nonneg h0]
    · intro _
      ring

end

/-! ## The envelope of `compute` -/

theorem exists_toward (pd : WaypointPD ℝ) (wp : PathPoint ℝ) :
    ∃ linear angular, pd.toward wp = .ok (linear, angular) := by
  obtain ⟨linear, angular, htoward, -⟩ := pd.toward_spec wp
  exact ⟨linear, angular, htoward⟩

/-- **The envelope of `compute`.**  On a path with any waypoints it returns two speeds
within the limits and within the clips, on the arc of the clipped pair, except that it
drops a turn of at most 0.001 where the clipped pair is beyond the linear limit. -/
theorem computeWith_limited (pd : WaypointPD ℝ) {linearClip angularClip : ℝ}
    {path : List (PathPoint ℝ)} (hpath : path ≠ []) (hsel : 0 ≤ pd.waypointSelect)
    (hV : 0 ≤ pd.maxV) (hW : 0 < pd.maxW) (hlinear : 0 ≤ linearClip)
    (hangular : 0 ≤ angularClip) :
    ∃ wp linear angular v w, pd.select path = .ok wp ∧ pd.toward wp = .ok (linear, angular) ∧
      pd.computeWith linearClip angularClip path = .ok ⟨fin v, fin w⟩ ∧
      0 ≤ v ∧ v ≤ min pd.maxV linearClip ∧ |w| ≤ min pd.maxW angularClip ∧
      pd.Limited (clip 0 linearClip linear) (clip (-angularClip) angularClip angular) v w := by
  obtain ⟨wp, hwp⟩ := exists_select hpath hsel
  obtain ⟨linear, angular, htoward⟩ := pd.exists_toward wp
  have hv₀ := le_clip 0 linearClip linear
  have hw₀ : |clip (-angularClip) angularClip angular| ≤ angularClip :=
    abs_le.mpr ⟨le_clip _ _ _, clip_le (neg_le_self hangular) angular⟩
  obtain ⟨v, w, hlimit, hlimited⟩ := limit_limited
    (clip (-angularClip) angularClip angular) hv₀ hV hW
  have hv : v ≤ linearClip := by
    have hle := hlimited.linear_le
    rw [abs_of_nonneg hlimited.linear_nonneg, abs_of_nonneg hv₀] at hle
    exact hle.trans (clip_le hlinear linear)
  refine ⟨wp, linear, angular, v, w, hwp, htoward, ?_, hlimited.linear_nonneg,
    le_min hlimited.linear_le_max hv,
    le_min hlimited.angular_le_max (hlimited.angular_le.trans hw₀), hlimited⟩
  rw [computeWith_of_toward hwp htoward, hlimit]

/-- The arc to a waypoint ahead and to the left. -/
theorem computeWith_limited_ahead :
    ∃ wp linear angular v w,
      select (⟨3 / 10, 3 / 10, 4, 1 / 3, by norm_num⟩ : WaypointPD ℝ)
        [⟨fin 1, fin 1, .num 1, .num 0⟩] = .ok wp ∧
      toward (⟨3 / 10, 3 / 10, 4, 1 / 3, by norm_num⟩ : WaypointPD ℝ) wp =
        .ok (linear, angular) ∧
      computeWith (1 / 2) 1 (⟨3 / 10, 3 / 10, 4, 1 / 3, by norm_num⟩ : WaypointPD ℝ)
        [⟨fin 1, fin 1, .num 1, .num 0⟩] = .ok ⟨fin v, fin w⟩ ∧
      0 ≤ v ∧ v ≤ min (3 / 10) (1 / 2) ∧ |w| ≤ min (3 / 10) 1 ∧
      Limited (⟨3 / 10, 3 / 10, 4, 1 / 3, by norm_num⟩ : WaypointPD ℝ)
        (clip 0 (1 / 2) linear) (clip (-1) 1 angular) v w :=
  computeWith_limited ⟨3 / 10, 3 / 10, 4, 1 / 3, by norm_num⟩ (List.cons_ne_nil _ _)
    (by decide) (by norm_num) (by norm_num) (by norm_num) (by norm_num)

/-! ## The side of the waypoint -/

section

variable {linearClip angularClip dx dy : ℝ} {pd : WaypointPD ℝ}
  {path : List (PathPoint ℝ)} {wp : PathPoint ℝ}

/-- The robot turns to the side `dy`, or the limiter drops the turn. -/
def TurnsToward (linearClip angularClip : ℝ) (pd : WaypointPD ℝ)
    (path : List (PathPoint ℝ)) (wp : PathPoint ℝ) (dy : ℝ) : Prop :=
  ∃ linear angular v w, pd.toward wp = .ok (linear, angular) ∧
    pd.computeWith linearClip angularClip path = .ok ⟨fin v, fin w⟩ ∧
    (SignType.sign w = SignType.sign dy ∨
      w = 0 ∧ pd.Dropped (clip 0 linearClip linear) (clip (-angularClip) angularClip angular))

/-- A clip around zero keeps every sign. -/
theorem sign_clip {c : ℝ} (hc : 0 < c) (x : ℝ) :
    SignType.sign (clip (-c) c (fin x)) = SignType.sign x := by
  have hneg : -c < 0 := neg_lt_zero.mpr hc
  unfold clip
  rcases lt_trichotomy x 0 with hx | rfl | hx
  · rw [sign_neg hx, sign_neg (max_lt hneg ((min_le_right c x).trans_lt hx))]
  · show SignType.sign (max (-c) (min c 0)) = _
    rw [min_eq_right hc.le, max_eq_right hneg.le]
  · rw [sign_pos hx, sign_pos (lt_max_of_lt_right (lt_min hc hx))]

/-- Beside the robot, the controller spins to the side of the waypoint. -/
theorem toward_beside (hx : wp.x = fin dx) (hy : wp.y = fin dy) (hdx : |dx| < eps)
    (hdy : eps ≤ |dy|) :
    pd.toward wp = .ok (fin 0, fin (Trig.copysign (Real.pi / (2 * pd.dt)) dy)) := by
  unfold toward
  rw [hx, hy]
  simp only [abs_fin, lt_fin, decide_eq_true hdx, decide_eq_false (not_lt.mpr hdy)]
  rfl

/-- Elsewhere it turns by the slope of the way to it. -/
theorem toward_off (hx : wp.x = fin dx) (hy : wp.y = fin dy) (hdx : eps ≤ |dx|) :
    pd.toward wp = .ok (fin (dx / pd.dt), fin (Real.arctan (dy / dx) / pd.dt)) := by
  have hdx0 : dx ≠ 0 := by
    rintro rfl
    rw [abs_zero] at hdx
    exact absurd hdx (not_le.mpr (by norm_num [eps]))
  unfold toward turnAlong
  rw [hx, hy]
  simp only [abs_fin, lt_fin, decide_eq_false (not_lt.mpr hdx), div_fin hdx0,
    div_fin pd.dt_pos.ne', Bool.false_and, Bool.false_eq_true, if_false]
  show (do
    let angular ← (fin (Real.arctan (dy / dx))).div (fin pd.dt)
    return (fin (dx / pd.dt), angular)) = _
  rw [div_fin pd.dt_pos.ne']
  rfl

/-- Where the turn is not dropped, it keeps its sign. -/
theorem limit_sign {v₀ : ℝ} (w₀ : ℝ) (hv : 0 ≤ v₀) (hV : 0 < pd.maxV) (hW : 0 < pd.maxW) :
    ∃ v w, pd.limit (fin v₀) (fin w₀) = .ok ⟨fin v, fin w⟩ ∧
      (pd.Dropped v₀ w₀ ∧ w = 0 ∨
        ¬ pd.Dropped v₀ w₀ ∧ SignType.sign w = SignType.sign w₀) := by
  by_cases hdrop : pd.Dropped v₀ w₀
  · exact ⟨pd.maxV, 0, limit_dropped hV.le hdrop, .inl ⟨hdrop, rfl⟩⟩
  · obtain ⟨t, -, -, ht, -, -, hlimit⟩ := limit_scaled hv hV.le hW hdrop
    refine ⟨t * v₀, t * w₀, hlimit, .inr ⟨hdrop, ?_⟩⟩
    rw [sign_mul, sign_pos (ht hV), one_mul]

/-- The sign of the turn is decided before the clips. -/
theorem turnsToward_of_toward {linear : PyFloat ℝ} {w₀ : ℝ} (hsel : pd.select path = .ok wp)
    (htoward : pd.toward wp = .ok (linear, fin w₀)) (hV : 0 < pd.maxV) (hW : 0 < pd.maxW)
    (hangular : 0 < angularClip) :
    TurnsToward linearClip angularClip pd path wp dy ↔
      SignType.sign w₀ = SignType.sign dy ∨
        pd.Dropped (clip 0 linearClip linear) (clip (-angularClip) angularClip (fin w₀)) := by
  obtain ⟨v, w, hlimit, hsign⟩ := limit_sign
    (clip (-angularClip) angularClip (fin w₀)) (le_clip 0 linearClip linear) hV hW
  have hcompute := computeWith_of_toward hsel htoward linearClip angularClip
  rw [hlimit] at hcompute
  rw [sign_clip hangular] at hsign
  constructor
  · rintro ⟨linear', angular', v', w', htoward', hcompute', hturn⟩
    rw [htoward] at htoward'
    cases htoward'
    rw [hcompute] at hcompute'
    cases hcompute'
    rcases hsign with ⟨hdrop, -⟩ | ⟨hnot, hkept⟩
    · exact .inr hdrop
    · rcases hturn with hturn | ⟨-, hdrop⟩
      · exact .inl (hkept.symm.trans hturn)
      · exact .inr hdrop
  · intro h
    refine ⟨linear, fin w₀, v, w, htoward, hcompute, ?_⟩
    rcases hsign with ⟨hdrop, hzero⟩ | ⟨hnot, hkept⟩
    · exact .inr ⟨hzero, hdrop⟩
    · exact .inl (hkept.trans (h.resolve_right hnot))

theorem sign_copysign {m : ℝ} (hm : 0 < m) (hdy : dy ≠ 0) :
    SignType.sign (Trig.copysign m dy) = SignType.sign dy := by
  unfold Trig.copysign
  rw [abs_of_pos hm]
  split
  · rename_i hneg
    rw [sign_neg hneg, sign_neg (neg_lt_zero.mpr hm)]
  · rename_i hnot
    rw [sign_pos hm, sign_pos (lt_of_le_of_ne (not_lt.mp hnot) hdy.symm)]

theorem sign_arctan (x : ℝ) : SignType.sign (Real.arctan x) = SignType.sign x := by
  rcases lt_trichotomy x 0 with hx | rfl | hx
  · rw [sign_neg hx, sign_neg (Real.arctan_lt_zero.mpr hx)]
  · rw [Real.arctan_zero]
  · rw [sign_pos hx, sign_pos (Real.arctan_pos.mpr hx)]

/-- The turn that `atan` of the quotient asks for has the sign of the side and of the
way ahead. -/
theorem sign_slope (pd : WaypointPD ℝ) (dx dy : ℝ) :
    SignType.sign (Real.arctan (dy / dx) / pd.dt) = SignType.sign dy * SignType.sign dx := by
  have hdt : SignType.sign pd.dt⁻¹ = 1 := sign_pos (inv_pos.mpr pd.dt_pos)
  have hinv : SignType.sign dx⁻¹ = SignType.sign dx := by
    rcases lt_trichotomy dx 0 with hdx | rfl | hdx
    · rw [sign_neg hdx, sign_neg (inv_lt_zero.mpr hdx)]
    · rw [inv_zero]
    · rw [sign_pos hdx, sign_pos (inv_pos.mpr hdx)]
  rw [div_eq_mul_inv, sign_mul, hdt, mul_one, sign_arctan, div_eq_mul_inv, sign_mul, hinv]

/-- **Away from a waypoint behind.**  The quotient of the coordinates has the other sign
there, and the limiter drops nothing. -/
theorem not_turnsToward_behind (hsel : pd.select path = .ok wp) (hx : wp.x = fin dx)
    (hy : wp.y = fin dy) (hdx : dx ≤ -eps) (hdy : dy ≠ 0) (hV : 0 < pd.maxV) (hW : 0 < pd.maxW)
    (hangular : 0 < angularClip) : ¬ TurnsToward linearClip angularClip pd path wp dy := by
  have hneg : dx < 0 := hdx.trans_lt (by norm_num [eps])
  have hfar : eps ≤ |dx| := by
    rw [abs_of_neg hneg]
    exact le_neg_of_le_neg hdx
  rw [turnsToward_of_toward hsel (toward_off hx hy hfar) hV hW hangular, sign_slope,
    sign_neg hneg]
  have hstop : clip 0 linearClip (fin (dx / pd.dt)) = 0 := by
    have hle : dx / pd.dt ≤ 0 := div_nonpos_of_nonpos_of_nonneg hneg.le pd.dt_pos.le
    exact max_eq_left ((min_le_right _ _).trans hle)
  rintro (hsign | ⟨-, hfast⟩)
  · rcases lt_or_gt_of_ne hdy with hlt | hgt
    · rw [sign_neg hlt] at hsign
      cases hsign
    · rw [sign_pos hgt] at hsign
      cases hsign
  · rw [hstop] at hfast
    exact lt_asymm hV hfast

/-- Toward a waypoint beside the robot or ahead. -/
theorem turnsToward_ahead (hsel : pd.select path = .ok wp) (hx : wp.x = fin dx)
    (hy : wp.y = fin dy) (hdx : -eps < dx) (hdy : eps ≤ |dy|) (hV : 0 < pd.maxV)
    (hW : 0 < pd.maxW) (hangular : 0 < angularClip) :
    TurnsToward linearClip angularClip pd path wp dy := by
  have hdy0 : dy ≠ 0 := abs_pos.mp (lt_of_lt_of_le (by norm_num [eps]) hdy)
  by_cases hbeside : |dx| < eps
  · rw [turnsToward_of_toward hsel (toward_beside hx hy hbeside hdy) hV hW hangular]
    have hdt := pd.dt_pos
    have hpi := Real.pi_pos
    exact .inl (sign_copysign (by positivity) hdy0)
  · have hfar : eps ≤ |dx| := not_lt.mp hbeside
    have hpos : 0 < dx := by
      rcases le_abs.mp hfar with hle | hle
      · exact lt_of_lt_of_le (by norm_num [eps]) hle
      · exact absurd hdx (not_lt.mpr (le_neg_of_le_neg hle))
    rw [turnsToward_of_toward hsel (toward_off hx hy hfar) hV hW hangular, sign_slope,
      sign_pos hpos, mul_one]
    exact .inl rfl

/-- **The robot turns toward its waypoint** exactly where that is not behind it. -/
theorem turnsToward_iff (hsel : pd.select path = .ok wp) (hx : wp.x = fin dx)
    (hy : wp.y = fin dy) (hdy : eps ≤ |dy|) (hV : 0 < pd.maxV) (hW : 0 < pd.maxW)
    (hangular : 0 < angularClip) :
    TurnsToward linearClip angularClip pd path wp dy ↔ -eps < dx := by
  have hdy0 : dy ≠ 0 := abs_pos.mp (lt_of_lt_of_le (by norm_num [eps]) hdy)
  constructor
  · intro h
    by_contra hdx
    exact not_turnsToward_behind hsel hx hy (not_lt.mp hdx) hdy0 hV hW hangular h
  · exact fun hdx => turnsToward_ahead hsel hx hy hdx hdy hV hW hangular

end

/-- One metre ahead of the robot and one to its left. -/
theorem turnsToward_iff_ahead :
    TurnsToward (1 / 2) 1 (⟨3 / 10, 3 / 10, 0, 1 / 3, by norm_num⟩ : WaypointPD ℝ)
      [⟨fin 1, fin 1, .num 1, .num 0⟩] ⟨fin 1, fin 1, .num 1, .num 0⟩ 1 ↔ -eps < (1 : ℝ) :=
  turnsToward_iff rfl rfl rfl (by norm_num [eps]) (by norm_num) (by norm_num) (by norm_num)

/-- One metre behind the robot and one to its left, it turns right. -/
theorem turnsAway_behind :
    ¬ TurnsToward linearClip angularClip
      (⟨3 / 10, 3 / 10, 0, 1 / 3, by norm_num⟩ : WaypointPD ℝ)
      [⟨fin (-1), fin 1, .num 1, .num 0⟩] ⟨fin (-1), fin 1, .num 1, .num 0⟩ 1 :=
  not_turnsToward_behind rfl rfl rfl (by norm_num [eps]) one_ne_zero (by norm_num) (by norm_num)
    (by norm_num [angularClip])

end WaypointPD
