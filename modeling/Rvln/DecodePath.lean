/-
# Decoding an action chunk

`decode_path` of `action_path_bridge.py`, with `fp16_bytes_to_float32_list` of
`conversions.py` and `trajectory_to_path` of `_path_util.py`: little-endian
half-precision bytes to the poses of a `Path`.  The signs of zeros are left out of the
decoding; what is proved of the controller holds for all of them.

A half with an all-ones exponent is an infinity or `nan`, and nothing on the way
refuses it; `decoded_finite_iff` says which payloads give a path whose every
coordinate is finite.
-/
import Rvln.PathFollower

namespace DecodePath

open PyFloat

/-! ## Half-precision numbers -/

/-- The exponent field of a half. -/
def halfExponent (bits : ℕ) : ℕ := bits / 1024 % 32

/-- The number a half stands for: `astype(np.float32)` is exact on halves. -/
def halfValue (K : Type*) [Field K] (bits : ℕ) : PyFloat K :=
  let sign : K := if bits / 32768 % 2 = 1 then -1 else 1
  let mantissa := bits % 1024
  if halfExponent bits = 31 then
    if mantissa ≠ 0 then .nan
    else if bits / 32768 % 2 = 1 then .negInf
    else .posInf
  else if halfExponent bits = 0 then .fin (sign * (mantissa / 1024) * 2 ^ (-14 : ℤ))
  else .fin (sign * (1 + mantissa / 1024) * 2 ^ ((halfExponent bits : ℤ) - 15))

/-- A half is finite unless its exponent bits are all set. -/
theorem isFinite_halfValue {K : Type*} [Field K] (bits : ℕ) :
    (halfValue K bits).IsFinite ↔ halfExponent bits ≠ 31 := by
  unfold halfValue
  dsimp only
  by_cases h : halfExponent bits = 31
  · rw [if_pos h]
    refine iff_of_false ?_ (not_not.mpr h)
    split
    · exact id
    · split <;> exact id
  · rw [if_neg h]
    refine iff_of_true ?_ h
    split <;> exact trivial

/-- `np.frombuffer(raw, dtype="<f2")`; `none` if a byte is left over. -/
def halves : List UInt8 → Option (List ℕ)
  | [] => some []
  | [_] => none
  | lo :: hi :: rest => (halves rest).map fun hs => (lo.toNat + 256 * hi.toNat) :: hs

/-- `fp16_bytes_to_float32_list`. -/
def fp16BytesToFloat32List (K : Type*) [Field K] (raw : List UInt8) :
    Except PyError (List (PyFloat K)) :=
  match halves raw with
  | none => .error .valueError
  | some hs => .ok (hs.map (halfValue K))

/-! ## From rows to a path -/

/-- `xs.reshape(rows, cols)`. -/
def reshape {α : Type*} (rows cols : ℕ) (xs : List α) : List (List α) :=
  (List.range rows).map fun i => (xs.drop (i * cols)).take cols

theorem reshape_map {α β : Type*} (f : α → β) (rows cols : ℕ) (xs : List α) :
    reshape rows cols (xs.map f) = (reshape rows cols xs).map (List.map f) := by
  unfold reshape
  rw [List.map_map]
  apply List.map_congr_left
  intro i _
  simp [List.map_drop, List.map_take]

section

variable {K : Type*} [Field K] [LinearOrder K]

/-- One row `(x, y, cos, sin, ...)` as a pose; `none` for a row that is too
short. -/
def poseOfRow (spacing : K) : List (PyFloat K) → Option (PoseStamped (PyFloat K))
  | x :: y :: c :: s :: _ => some ⟨x.mul (fin spacing), y.mul (fin spacing), c, s⟩
  | _ => none

/-- `trajectory_to_path`. -/
def trajectoryToPath (waypoints : List (List (PyFloat K))) (spacing : K) (frameId : String) :
    Except PyError (NavPath (PyFloat K)) :=
  match waypoints.mapM (poseOfRow spacing) with
  | none => .error .valueError
  | some poses => .ok ⟨frameId, poses⟩

/-- `decode_path`. -/
def decodePath (raw : List UInt8) (numTokens embedDim : ℤ) (scaledToM : Bool)
    (waypointSpacing : K) (frameId : String) : Except PyError (NavPath (PyFloat K)) :=
  if numTokens < 1 ∨ embedDim < 4 then .error .valueError
  else do
    let values ← fp16BytesToFloat32List K raw
    if (values.length : ℤ) ≠ numTokens * embedDim then .error .valueError
    else
      trajectoryToPath (reshape numTokens.toNat embedDim.toNat values)
        (if scaledToM then 1 else waypointSpacing) frameId

/-! ## Which payloads are finite -/

/-- All coordinates of all poses are finite. -/
def FiniteCoords (path : NavPath (PyFloat K)) : Prop :=
  ∀ ps ∈ path.poses, ps.x.IsFinite ∧ ps.y.IsFinite ∧ ps.w.IsFinite ∧ ps.z.IsFinite

/-- The path less the signs of its zeros. -/
def unsigned (msg : NavPath (SignedFloat K)) : NavPath (PyFloat K) :=
  ⟨msg.frameId, msg.poses.map fun ps => ⟨ps.x.value, ps.y.value, ps.w.value, ps.z.value⟩⟩

/-- Whatever the signs of the zeros on this path are, a controller that moves at all on it moves
for a waypoint with finite coordinates. -/
def MovesOnFiniteOnly [Trig K] (path : NavPath (PyFloat K)) : Prop :=
  ∀ msg : NavPath (SignedFloat K), unsigned msg = path →
    ∀ (pd : WaypointPD K) (wp : PathPoint K) (cmd : TwistCmd (PyFloat K)),
      pd.select (PathFollowerNode.waypoints msg) = .ok wp →
      pd.compute (PathFollowerNode.waypoints msg) = .ok cmd → cmd ≠ TwistCmd.zero →
      wp.x.IsFinite ∧ wp.y.IsFinite ∧ wp.cos.value.IsFinite ∧ wp.sin.value.IsFinite

/-- A pose is finite exactly if the first four entries of its row are. -/
theorem poseOfRow_finite {spacing : K} {row : List (PyFloat K)} {ps : PoseStamped (PyFloat K)}
    (h : poseOfRow spacing row = some ps) :
    (ps.x.IsFinite ∧ ps.y.IsFinite ∧ ps.w.IsFinite ∧ ps.z.IsFinite) ↔
      ∀ v ∈ row.take 4, v.IsFinite := by
  match row, h with
  | x :: y :: c :: s :: rest, h =>
      cases h
      simp [isFinite_mul_fin]

/-- The poses of a path are finite exactly if the first four columns are. -/
theorem trajectoryToPath_finite {waypoints : List (List (PyFloat K))} {spacing : K}
    {frameId : String} {path : NavPath (PyFloat K)}
    (h : trajectoryToPath waypoints spacing frameId = .ok path) :
    FiniteCoords path ↔ ∀ row ∈ waypoints, ∀ v ∈ row.take 4, v.IsFinite := by
  unfold trajectoryToPath at h
  split at h
  · cases h
  · rename_i poses hposes
    cases h
    unfold FiniteCoords
    dsimp only
    induction waypoints generalizing poses with
    | nil =>
        cases hposes
        simp
    | cons row rows ih =>
        rw [List.mapM_cons] at hposes
        obtain ⟨ps, hps, hrest⟩ := Option.bind_eq_some_iff.mp hposes
        obtain ⟨pss, hpss, hcons⟩ := Option.bind_eq_some_iff.mp hrest
        cases hcons
        rw [List.forall_mem_cons, List.forall_mem_cons, poseOfRow_finite hps, ih pss hpss]

/-- What an accepted payload went through. -/
theorem decodePath_ok {raw : List UInt8} {numTokens embedDim : ℤ} {scaledToM : Bool}
    {waypointSpacing : K} {frameId : String} {path : NavPath (PyFloat K)}
    (h : decodePath raw numTokens embedDim scaledToM waypointSpacing frameId = .ok path) :
    ∃ hs, halves raw = some hs ∧
      trajectoryToPath (reshape numTokens.toNat embedDim.toNat (hs.map (halfValue K)))
        (if scaledToM then 1 else waypointSpacing) frameId = .ok path := by
  unfold decodePath at h
  split at h
  · cases h
  · unfold fp16BytesToFloat32List at h
    cases hraw : halves raw with
    | none =>
        rw [hraw] at h
        cases h
    | some hs =>
        rw [hraw] at h
        simp only [Bind.bind, Except.bind] at h
        split at h
        · cases h
        · exact ⟨hs, rfl, h⟩

/-- Every row of an array of the right size is complete. -/
theorem length_of_mem_reshape {α : Type*} {rows cols : ℕ} {xs row : List α}
    (h : xs.length = rows * cols) (hrow : row ∈ reshape rows cols xs) : row.length = cols := by
  obtain ⟨i, hi, rfl⟩ := List.mem_map.mp hrow
  rw [List.length_take, List.length_drop, h]
  apply Nat.min_eq_left
  have hrows : (i + 1) * cols ≤ rows * cols :=
    Nat.mul_le_mul_right cols (List.mem_range.mp hi)
  rw [Nat.add_mul, Nat.one_mul] at hrows
  omega

/-- Rows of four numbers and more make a path. -/
theorem exists_trajectoryToPath {waypoints : List (List (PyFloat K))} {spacing : K}
    {frameId : String} (h : ∀ row ∈ waypoints, 4 ≤ row.length) :
    ∃ path, trajectoryToPath waypoints spacing frameId = .ok path := by
  have hposes : ∃ poses, waypoints.mapM (poseOfRow spacing) = some poses := by
    induction waypoints with
    | nil => exact ⟨[], rfl⟩
    | cons row rows ih =>
        obtain ⟨poses, hposes⟩ := ih fun r hr => h r (List.mem_cons_of_mem row hr)
        match row, h row List.mem_cons_self with
        | x :: y :: c :: s :: rest, _ => exact ⟨_, by rw [List.mapM_cons, hposes]; rfl⟩
  obtain ⟨poses, hposes⟩ := hposes
  exact ⟨⟨frameId, poses⟩, by rw [trajectoryToPath, hposes]⟩

/-- A payload is accepted exactly if it holds the halves of rows of four and more. -/
theorem exists_decodePath_iff {raw : List UInt8} {numTokens embedDim : ℤ} {scaledToM : Bool}
    {waypointSpacing : K} {frameId : String} :
    (∃ path, decodePath raw numTokens embedDim scaledToM waypointSpacing frameId = .ok path) ↔
      1 ≤ numTokens ∧ 4 ≤ embedDim ∧
        ∃ hs, halves raw = some hs ∧ (hs.length : ℤ) = numTokens * embedDim := by
  constructor
  · rintro ⟨path, h⟩
    unfold decodePath fp16BytesToFloat32List at h
    split at h
    · cases h
    · next hshape =>
        push Not at hshape
        cases hraw : halves raw with
        | none =>
            rw [hraw] at h
            cases h
        | some hs =>
            simp only [hraw, Bind.bind, Except.bind] at h
            split at h
            · cases h
            · next hlen => exact ⟨hshape.1, hshape.2, hs, rfl, by simpa using hlen⟩
  · rintro ⟨hrows, hcols, hs, hraw, hlen⟩
    unfold decodePath fp16BytesToFloat32List
    rw [if_neg (by omega), hraw]
    simp only [Bind.bind, Except.bind, List.length_map, hlen, ne_eq, not_true, if_false]
    apply exists_trajectoryToPath
    intro row hrow
    obtain ⟨n, rfl⟩ := Int.eq_ofNat_of_zero_le (by omega : 0 ≤ numTokens)
    obtain ⟨d, rfl⟩ := Int.eq_ofNat_of_zero_le (by omega : 0 ≤ embedDim)
    have hsize : (hs.map (halfValue K)).length = n * d := by
      rw [List.length_map]
      exact_mod_cast hlen
    rw [length_of_mem_reshape hsize hrow]
    exact_mod_cast hcols

/-- Whatever is refused is refused with a `ValueError`. -/
theorem decodePath_error {raw : List UInt8} {numTokens embedDim : ℤ} {scaledToM : Bool}
    {waypointSpacing : K} {frameId : String} {e : PyError}
    (h : decodePath raw numTokens embedDim scaledToM waypointSpacing frameId = .error e) :
    e = .valueError := by
  unfold decodePath fp16BytesToFloat32List trajectoryToPath at h
  split at h
  · cases h
    rfl
  · cases hraw : halves raw with
    | none =>
        rw [hraw] at h
        cases h
        rfl
    | some hs =>
        simp only [hraw, Bind.bind, Except.bind] at h
        split at h
        · cases h
          rfl
        · split at h
          · cases h
            rfl
          · cases h

/-- On finite poses every selected waypoint is finite. -/
theorem FiniteCoords.movesOnFiniteOnly [Trig K] {path : NavPath (PyFloat K)}
    (h : FiniteCoords path) : MovesOnFiniteOnly path := by
  rintro msg rfl pd wp cmd hsel _ _
  obtain ⟨ps, hps, rfl⟩ := List.mem_map.mp (WaypointPD.mem_of_select hsel)
  exact h _ (List.mem_map_of_mem hps)

/-- **A decoded chunk is finite** exactly if no half in the first four columns of
its rows has all exponent bits set. -/
theorem decoded_finite_iff [Trig K] {raw : List UInt8} {numTokens embedDim : ℤ}
    {scaledToM : Bool} {waypointSpacing : K} {frameId : String} {path : NavPath (PyFloat K)}
    (h : decodePath raw numTokens embedDim scaledToM waypointSpacing frameId = .ok path) :
    (FiniteCoords path ∧ MovesOnFiniteOnly path) ↔
      ∀ hs ∈ halves raw, ∀ row ∈ reshape numTokens.toNat embedDim.toNat hs,
        ∀ half ∈ row.take 4, halfExponent half ≠ 31 := by
  obtain ⟨hs, hraw, htraj⟩ := decodePath_ok h
  rw [and_iff_left_of_imp FiniteCoords.movesOnFiniteOnly, trajectoryToPath_finite htraj,
    reshape_map, hraw]
  have hrow : ∀ row : List ℕ, (∀ v ∈ (row.map (halfValue K)).take 4, v.IsFinite) ↔
      ∀ half ∈ row.take 4, halfExponent half ≠ 31 := by
    intro row
    rw [← List.map_take, List.forall_mem_map]
    simp only [isFinite_halfValue]
  rw [List.forall_mem_map]
  simp only [hrow]
  simp

end

/-- One waypoint straight ahead, `(1, 0, 1, 0)`. -/
theorem decoded_finite_ahead :
    ∃ path : NavPath (PyFloat ℝ),
      decodePath [0, 60, 0, 0, 0, 60, 0, 0] 1 4 true (1 / 10) "base_link" = .ok path ∧
        FiniteCoords path ∧ MovesOnFiniteOnly path := by
  have hdecode : decodePath [0, 60, 0, 0, 0, 60, 0, 0] 1 4 true (1 / 10 : ℝ) "base_link" =
      .ok ⟨"base_link", [⟨(halfValue ℝ 15360).mul (fin 1), (halfValue ℝ 0).mul (fin 1),
        halfValue ℝ 15360, halfValue ℝ 0⟩]⟩ :=
    rfl
  exact ⟨_, hdecode, (decoded_finite_iff hdecode).mpr (by decide)⟩

/-- **A corrupt chunk moves the robot**: the payload `(nan, 0, 1, 0)` is accepted,
and the follower's controller drives and turns for it, whatever the signs of its zeros. -/
theorem corrupt_chunk_moves :
    ∃ path : NavPath (PyFloat ℝ),
      decodePath [0, 126, 0, 0, 0, 60, 0, 0] 1 4 true (1 / 10) "base_link" = .ok path ∧
        ¬ FiniteCoords path ∧ ¬ MovesOnFiniteOnly path ∧
        ∀ msg : NavPath (SignedFloat ℝ), unsigned msg = path →
          (WaypointPD.defaults ℝ).compute (PathFollowerNode.waypoints msg) =
            .ok ⟨fin (2 / 5), fin (4 / 5)⟩ := by
  have hdecode : decodePath [0, 126, 0, 0, 0, 60, 0, 0] 1 4 true (1 / 10 : ℝ) "base_link" =
      .ok ⟨"base_link", [⟨nan, (halfValue ℝ 0).mul (fin 1), halfValue ℝ 15360, halfValue ℝ 0⟩]⟩ :=
    rfl
  have hsel (ps : PoseStamped (SignedFloat ℝ)) : (WaypointPD.defaults ℝ).select
      (PathFollowerNode.waypoints ⟨"base_link", [ps]⟩) =
      .ok ⟨ps.x.value, ps.y.value, ps.w, ps.z⟩ := rfl
  have hcompute (ps : PoseStamped (SignedFloat ℝ)) (hx : ps.x.value = nan) :
      (WaypointPD.defaults ℝ).compute (PathFollowerNode.waypoints ⟨"base_link", [ps]⟩) =
        .ok ⟨fin (2 / 5), fin (4 / 5)⟩ := by
    rw [WaypointPD.compute_of_select _ (hsel ps), WaypointPD.speeds_of_nan _ hx,
      WaypointPD.limit_fin]
    norm_num [WaypointPD.defaults, Trig.copysign]
  refine ⟨_, hdecode, ?_, ?_, ?_⟩
  · intro hfinite
    exact (hfinite _ List.mem_cons_self).1
  · intro hmoves
    have hzero : (⟨fin (2 / 5), fin (4 / 5)⟩ : TwistCmd (PyFloat ℝ)) ≠ TwistCmd.zero := by
      simp [TwistCmd.zero]
    exact (hmoves ⟨"base_link", [⟨.ofFloat nan, .ofFloat _, .ofFloat _, .ofFloat _⟩]⟩ rfl _ _ _
      (hsel _) (hcompute _ rfl) hzero).1
  · rintro ⟨frameId, poses⟩ hmsg
    obtain ⟨rfl, hposes⟩ := NavPath.mk.inj hmsg
    obtain ⟨ps, rfl, hps⟩ := List.map_eq_singleton_iff.mp hposes
    exact hcompute ps (congrArg PoseStamped.x hps)

end DecodePath
