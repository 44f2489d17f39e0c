/-
# The chunk codec of the two clients

`floatToHalf` and `packFp16`, which `edgeSender.ts` and `edge_action_client.dart`
share, the messages that `WsEdgeClient.send` and `GrpcEdgeClient.send` make of a
chunk, and `decode_path` on the Pi.

`floatToHalf` truncates the mantissa and flushes what is below the normal halves
to a zero.  The browser sends the raw numbers, and the Pi multiplies by the
spacing; the phone multiplies first, in double precision, and rounds the product
to single precision.
-/
import Rvln.BinaryFloat
import Rvln.DecodePath

namespace HalfCodec

open PyFloat

/-! ## The formats -/

/-- The single precision of `Float32Array`. -/
def single : BinaryFloat := ⟨23, 127⟩

/-- The double precision of Dart's `double`. -/
def double : BinaryFloat := ⟨52, 1023⟩

/-- The half precision of the wire. -/
def half : BinaryFloat := ⟨10, 15⟩

/-- The bits of a single without the sign. -/
def code (value : UInt32) : ℕ := value.toNat % 2 ^ 31

/-- The sign of a single. -/
def signOf (K : Type*) [Field K] (value : UInt32) : K := if 2 ^ 31 ≤ value.toNat then -1 else 1

/-- The number a single stands for. -/
def singleValue (K : Type*) [Field K] (value : UInt32) : PyFloat K :=
  if code value / 2 ^ 23 = 255 then
    if code value % 2 ^ 23 ≠ 0 then .nan
    else if 2 ^ 31 ≤ value.toNat then .negInf
    else .posInf
  else .fin (signOf K value * single.magnitude K (code value))

/-! ## The clients -/

/-- `floatToHalf`. -/
def floatToHalf (value : UInt32) : ℕ :=
  let bits := value.toNat
  let sign := (bits >>> 16) &&& 0x8000
  let exp : ℤ := ((bits >>> 23) &&& 0xff : ℕ) - 127 + 15
  let mant := bits &&& 0x7fffff
  if exp ≤ 0 then sign
  else if exp ≥ 0x1f then sign ||| 0x7c00
  else sign ||| (exp.toNat <<< 10) ||| (mant >>> 13)

/-- `packFp16`: two bytes for a number, low byte first. -/
def packFp16 (values : List UInt32) : List UInt8 :=
  values.flatMap fun v => [UInt8.ofNat (floatToHalf v % 256), UInt8.ofNat (floatToHalf v / 256)]

/-- `OmniVlaConfig.actionDim`. -/
def actionDim : ℕ := 4

/-- `ActionChunk`: rows of `x`, `y`, `cos`, `sin`. -/
structure ActionChunk where
  raw : List UInt32
  numTokens : ℕ
  length_raw : raw.length = numTokens * actionDim

namespace ActionChunk

/-- `raw[i * actionDim + j]`. -/
def get (c : ActionChunk) (i j : ℕ) : UInt32 := c.raw.getD (i * actionDim + j) 0

end ActionChunk

/-- `OmniVlaConfig.metricWaypointSpacing`, a double. -/
def metricWaypointSpacing : ℚ := double.round (1 / 10)

/-- A single times the spacing, as a double, stored in a `Float32List`. -/
def timesSpacing (value : UInt32) : UInt32 :=
  if code value / 2 ^ 23 = 255 then value
  else
    let product := double.round (single.magnitude ℚ (code value) * metricWaypointSpacing)
    UInt32.ofNat (value.toNat / 2 ^ 31 * 2 ^ 31 + single.encode product)

/-- `rowMetres`, each number stored in a `Float32List`. -/
def ActionChunk.rowMetres (c : ActionChunk) (i : ℕ) : List UInt32 :=
  [timesSpacing (c.get i 0), timesSpacing (c.get i 1), c.get i 2, c.get i 3]

/-- The fields of a message that `decode_path` gets. -/
structure ChunkMessage where
  numTokens : ℤ
  embedDim : ℤ
  valuesFp16 : List UInt8
  scaledToM : Bool

/-- `send` of `WsEdgeClient`. -/
def wsMessage (c : ActionChunk) : ChunkMessage where
  numTokens := c.numTokens
  embedDim := actionDim
  valuesFp16 := packFp16 c.raw
  scaledToM := false

/-- `send` of `GrpcEdgeClient`. -/
def grpcMessage (c : ActionChunk) : ChunkMessage where
  numTokens := c.numTokens
  embedDim := actionDim
  valuesFp16 := packFp16 ((List.range c.numTokens).flatMap c.rowMetres)
  scaledToM := true

/-- `decode_path` on a message, with a spacing of 0.1. -/
def ChunkMessage.decode (m : ChunkMessage) (frameId : String) :
    Except PyError (NavPath (PyFloat ℚ)) :=
  DecodePath.decodePath m.valuesFp16 m.numTokens m.embedDim m.scaledToM (1 / 10) frameId

/-! ## The bits of a half -/

/-- The half's bits without the sign. -/
def halfCode (code : ℕ) : ℕ :=
  if code / 2 ^ 23 ≤ 112 then 0
  else if 143 ≤ code / 2 ^ 23 then 31744
  else code / 2 ^ 13 - 112 * 2 ^ 10

theorem shiftRight_and_sign (bits : ℕ) (h : bits < 2 ^ 32) :
    (bits >>> 16) &&& 0x8000 = bits / 2 ^ 31 * 2 ^ 15 := by
  have hdiv : ((bits >>> 16) &&& 2 ^ 15) / 2 ^ 15 = bits / 2 ^ 31 := by
    rw [Nat.and_div_two_pow, Nat.div_self (by norm_num), Nat.and_one_is_mod,
      Nat.shiftRight_eq_div_pow]
    omega
  have hmod : ((bits >>> 16) &&& 2 ^ 15) % 2 ^ 15 = 0 := by
    rw [Nat.and_mod_two_pow, Nat.mod_self, Nat.and_zero]
  have hdm := Nat.div_add_mod' ((bits >>> 16) &&& 2 ^ 15) (2 ^ 15)
  rw [hdiv, hmod, Nat.add_zero] at hdm
  exact hdm.symm

/-- The three fields of a half do not overlap. -/
theorem or_or_eq_add {s e m : ℕ} (he : e < 2 ^ 5) (hm : m < 2 ^ 10) :
    s * 2 ^ 15 ||| e * 2 ^ 10 ||| m = s * 2 ^ 15 + e * 2 ^ 10 + m := by
  have hlow : e * 2 ^ 10 < 2 ^ 15 := by omega
  rw [Nat.mul_comm s, ← Nat.two_pow_add_eq_or_of_lt hlow,
    show 2 ^ 15 * s + e * 2 ^ 10 = 2 ^ 10 * (2 ^ 5 * s + e) by ring,
    ← Nat.two_pow_add_eq_or_of_lt hm]

/-- **`floatToHalf` in its parts.** -/
theorem floatToHalf_eq (value : UInt32) :
    floatToHalf value = value.toNat / 2 ^ 31 * 2 ^ 15 + halfCode (code value) := by
  have hbits := value.toNat_lt
  have hexp : (value.toNat >>> 23) &&& 0xff = code value / 2 ^ 23 := by
    rw [show (0xff : ℕ) = 2 ^ 8 - 1 from rfl, Nat.and_two_pow_sub_one_eq_mod,
      Nat.shiftRight_eq_div_pow, code]
    omega
  have hmant : value.toNat &&& 0x7fffff = code value % 2 ^ 23 := by
    rw [show (0x7fffff : ℕ) = 2 ^ 23 - 1 from rfl, Nat.and_two_pow_sub_one_eq_mod, code]
    omega
  unfold floatToHalf halfCode
  simp only [shiftRight_and_sign _ hbits, hexp, hmant]
  by_cases hlow : code value / 2 ^ 23 ≤ 112
  · rw [if_pos (by omega), if_pos hlow]
    omega
  · rw [if_neg (by omega), if_neg hlow]
    by_cases hhigh : 143 ≤ code value / 2 ^ 23
    · rw [if_pos (by omega), if_pos hhigh, Nat.mul_comm,
        ← Nat.two_pow_add_eq_or_of_lt (by norm_num)]
    · rw [if_neg (by omega), if_neg hhigh, Nat.shiftLeft_eq, Nat.shiftRight_eq_div_pow,
        or_or_eq_add (by omega) (by omega)]
      omega

theorem halfCode_le (c : ℕ) (hc : c < 2 ^ 31) : halfCode c ≤ 31744 := by
  unfold halfCode
  split
  · omega
  · split <;> omega

theorem floatToHalf_lt (value : UInt32) : floatToHalf value < 2 ^ 16 := by
  have hbits := value.toNat_lt
  have hcode := halfCode_le (code value) (Nat.mod_lt _ (by norm_num))
  rw [floatToHalf_eq]
  omega

/-! ## What the half stands for -/

/-- Below the infinities, `halfCode` is monotone. -/
theorem halfCode_mono {c d : ℕ} (h : c ≤ d) (hd : d < 143 * 2 ^ 23) : halfCode c ≤ halfCode d := by
  unfold halfCode
  rw [if_neg (show ¬ 143 ≤ c / 2 ^ 23 by omega), if_neg (show ¬ 143 ≤ d / 2 ^ 23 by omega)]
  split
  · exact Nat.zero_le _
  · rw [if_neg (by omega)]
    omega

/-- A finite half on the Pi. -/
theorem halfValue_eq {s h : ℕ} (hs : s < 2) (hh : h < 31744) :
    DecodePath.halfValue ℚ (s * 2 ^ 15 + h) =
      .fin ((if s = 1 then -1 else 1) * half.magnitude ℚ h) := by
  have hsign : (s * 2 ^ 15 + h) / 32768 % 2 = s := by omega
  have hmant : (s * 2 ^ 15 + h) % 1024 = h % 1024 := by omega
  have hexp : DecodePath.halfExponent (s * 2 ^ 15 + h) = h / 1024 := by
    unfold DecodePath.halfExponent
    omega
  have hne : h / 1024 ≠ 31 := by omega
  unfold DecodePath.halfValue
  simp only [hsign, hmant, hexp, if_neg hne]
  rcases Nat.eq_zero_or_pos (h / 1024) with h0 | hpos
  -- subnormal: no hidden bit
  · have hlow : h % 1024 = h := Nat.mod_eq_of_lt (by omega)
    have hmag : half.magnitude ℚ h = h * 2 ^ (-24 : ℤ) := by
      have hadd := half.magnitude_add (K := ℚ) (k := 0) (s := h)
        (show h < 2 * 2 ^ 10 by omega) (Or.inl rfl)
      simpa [half] using hadd
    rw [if_pos h0, hlow, hmag, show (2 : ℚ) ^ (-14 : ℤ) = 1024 * 2 ^ (-24 : ℤ) by norm_num]
    congr 1
    ring
  · obtain ⟨k, hk⟩ : ∃ k, h / 1024 = k + 1 := ⟨h / 1024 - 1, by omega⟩
    -- normal: the exponent counts from one, with the hidden bit in the mantissa
    have hparts : h = k * 2 ^ 10 + (1024 + h % 1024) := by omega
    have hmag : half.magnitude ℚ h =
        (1024 + h % 1024 : ℕ) * 2 ^ ((k : ℤ) + 1 - 15 - 10) := by
      have hadd := half.magnitude_add (K := ℚ) (k := k) (s := 1024 + h % 1024)
        (show 1024 + h % 1024 < 2 * 2 ^ 10 by omega)
        (Or.inr (show 2 ^ 10 ≤ 1024 + h % 1024 by omega))
      rw [show k * 2 ^ half.width + (1024 + h % 1024) = h from hparts.symm] at hadd
      exact hadd
    have hpow : (2 : ℚ) ^ (((k + 1 : ℕ) : ℤ) - 15) = 2 ^ ((k : ℤ) + 1 - 15 - 10) * 1024 := by
      rw [show (((k + 1 : ℕ) : ℤ) - 15 : ℤ) = ((k : ℤ) + 1 - 15 - 10) + 10 by push_cast; ring,
        zpow_add₀ two_ne_zero]
      norm_num
    rw [if_neg (by omega), hmag, hk, hpow]
    congr 1
    push_cast
    ring

/-- A single below the infinities of the half. -/
theorem magnitude_single_pow {k : ℕ} :
    single.magnitude ℚ ((k + 1) * 2 ^ 23) = 2 ^ ((k : ℤ) + 1 - 127) := by
  have hadd := single.magnitude_add (K := ℚ) (k := k) (s := 2 ^ 23)
    (show 2 ^ 23 < 2 * 2 ^ 23 by norm_num) (Or.inr (le_refl _))
  rw [show (k + 1) * 2 ^ 23 = k * 2 ^ single.width + 2 ^ 23 by simp [single]; ring, hadd,
    show (2 : ℚ) ^ ((k : ℤ) + 1 - 127) = 2 ^ (23 : ℤ) * 2 ^ ((k : ℤ) + 1 - 127 - 23) by
      rw [← zpow_add₀ two_ne_zero]; congr 1; ring]
  norm_num [single]

theorem code_lt_of_le {c : ℕ} (h : single.magnitude ℚ c ≤ 10000) : c < 143 * 2 ^ 23 := by
  rw [← (single.magnitude_strictMono (K := ℚ)).lt_iff_lt]
  rw [show 143 * 2 ^ 23 = (142 + 1) * 2 ^ 23 from rfl, magnitude_single_pow]
  norm_num
  linarith

/-- **Truncation and flushing**: the half is below the single, by less than its last
place or by less than the smallest normal half. -/
theorem half_le_single {c : ℕ} (h : single.magnitude ℚ c ≤ 10000) :
    half.magnitude ℚ (halfCode c) ≤ single.magnitude ℚ c ∧
      (single.magnitude ℚ c - half.magnitude ℚ (halfCode c) ≤
          single.magnitude ℚ c * 2 ^ (-10 : ℤ) ∨
        single.magnitude ℚ c - half.magnitude ℚ (halfCode c) ≤ 2 ^ (-14 : ℤ)) := by
  have hlt := code_lt_of_le h
  unfold halfCode
  rw [if_neg (show ¬ 143 ≤ c / 2 ^ 23 by omega)]
  split
  · next hlow =>
      have hsmall : single.magnitude ℚ c ≤ single.magnitude ℚ ((112 + 1) * 2 ^ 23) :=
        (single.magnitude_strictMono (K := ℚ)).monotone (by omega)
      rw [magnitude_single_pow] at hsmall
      rw [half.magnitude_zero, sub_zero]
      refine ⟨single.magnitude_nonneg c, Or.inr ?_⟩
      exact hsmall.trans (by norm_num)
  · next hhigh =>
      obtain ⟨k, hk⟩ : ∃ k, c / 2 ^ 23 = k + 112 + 1 := ⟨c / 2 ^ 23 - 113, by omega⟩
      -- the mantissa with its hidden bit, and the half's part of it
      obtain ⟨q, r, hq, hr, hc⟩ : ∃ q r, (2 ^ 10 ≤ q ∧ q < 2 * 2 ^ 10) ∧ r < 2 ^ 13 ∧
          c = (k + 112) * 2 ^ 23 + (q * 2 ^ 13 + r) :=
        ⟨(2 ^ 23 + c % 2 ^ 23) / 2 ^ 13, c % 2 ^ 13, by omega, by omega, by omega⟩
      have hsingle : single.magnitude ℚ c =
          (q * 2 ^ 13 + r : ℕ) * 2 ^ (((k + 112 : ℕ) : ℤ) + 1 - 127 - 23) := by
        rw [hc]
        exact single.magnitude_add (show q * 2 ^ 13 + r < 2 * 2 ^ 23 by omega)
          (Or.inr (show 2 ^ 23 ≤ q * 2 ^ 13 + r by omega))
      have hhalf : half.magnitude ℚ (c / 2 ^ 13 - 112 * 2 ^ 10) =
          q * 2 ^ ((k : ℤ) + 1 - 15 - 10) := by
        rw [show c / 2 ^ 13 - 112 * 2 ^ 10 = k * 2 ^ 10 + q by omega]
        exact half.magnitude_add (show q < 2 * 2 ^ 10 by omega) (Or.inr hq.1)
      have hstep : (2 : ℚ) ^ ((k : ℤ) + 1 - 15 - 10) =
          2 ^ 13 * 2 ^ (((k + 112 : ℕ) : ℤ) + 1 - 127 - 23) := by
        rw [← zpow_natCast (2 : ℚ) 13, ← zpow_add₀ two_ne_zero]
        congr 1
        push_cast
        ring
      have hpos : (0 : ℚ) < 2 ^ (((k + 112 : ℕ) : ℤ) + 1 - 127 - 23) := by positivity
      have hr' : (r : ℚ) ≤ 2 ^ 13 := by exact_mod_cast hr.le
      have hq' : (2 : ℚ) ^ 10 ≤ q := by exact_mod_cast hq.1
      rw [hsingle, hhalf, hstep]
      generalize (2 : ℚ) ^ (((k + 112 : ℕ) : ℤ) + 1 - 127 - 23) = u at hpos
      have hru : 0 ≤ (r : ℚ) * u := mul_nonneg (Nat.cast_nonneg r) hpos.le
      have hru' : (r : ℚ) * u ≤ 2 ^ 13 * u := mul_le_mul_of_nonneg_right hr' hpos.le
      have hqu : (2 : ℚ) ^ 10 * u ≤ q * u := mul_le_mul_of_nonneg_right hq' hpos.le
      push_cast
      refine ⟨by linarith, Or.inl ?_⟩
      rw [zpow_neg, show (2 : ℚ) ^ (10 : ℤ) = 1024 by norm_num]
      linarith

/-! ## The codec -/

/-- What a number becomes on the Pi. -/
def decoded (value : UInt32) : ℚ := signOf ℚ value * half.magnitude ℚ (halfCode (code value))

theorem signOf_eq (value : UInt32) :
    signOf ℚ value = if value.toNat / 2 ^ 31 = 1 then -1 else 1 := by
  have hbits := value.toNat_lt
  unfold signOf
  by_cases h : 2 ^ 31 ≤ value.toNat
  · rw [if_pos h, if_pos (by omega)]
  · rw [if_neg h, if_neg (by omega)]

theorem signOf_cases (value : UInt32) : signOf ℚ value = 1 ∨ signOf ℚ value = -1 := by
  unfold signOf
  split
  · exact Or.inr rfl
  · exact Or.inl rfl

theorem abs_signOf_mul (value : UInt32) (x : ℚ) : |signOf ℚ value * x| = |x| := by
  rcases signOf_cases value with h | h <;> rw [h] <;> simp

/-- A finite single. -/
theorem eq_of_singleValue {value : UInt32} {v : ℚ} (h : singleValue ℚ value = .fin v) :
    v = signOf ℚ value * single.magnitude ℚ (code value) := by
  unfold singleValue at h
  split at h
  · split at h
    · cases h
    · split at h <;> cases h
  · cases h
    rfl

theorem magnitude_le_of_abs_le {value : UInt32}
    (h : |signOf ℚ value * single.magnitude ℚ (code value)| ≤ 10000) :
    single.magnitude ℚ (code value) ≤ 10000 := by
  rw [abs_signOf_mul, abs_of_nonneg (single.magnitude_nonneg _)] at h
  exact h

theorem halfValue_floatToHalf {value : UInt32}
    (h : single.magnitude ℚ (code value) ≤ 10000) :
    DecodePath.halfValue ℚ (floatToHalf value) = .fin (decoded value) := by
  have hlt := code_lt_of_le h
  have hbits := value.toNat_lt
  have hhalf : halfCode (code value) < 31744 := by
    unfold halfCode
    split
    · omega
    · split <;> omega
  rw [floatToHalf_eq, halfValue_eq (by omega) hhalf, decoded, signOf_eq]

/-- **One number**: the half is finite, is zero or has the sign of the number, is not
further from zero, and is near. -/
theorem decoded_near {value : UInt32} {v : ℚ}
    (hv : v = signOf ℚ value * single.magnitude ℚ (code value)) (h : |v| ≤ 10000) :
    (decoded value = 0 ∨ 0 < v * decoded value) ∧ |decoded value| ≤ |v| ∧
      |v - decoded value| ≤ max (2 ^ (-10 : ℤ) * |v|) (2 ^ (-14 : ℤ)) := by
  subst hv
  have hle := magnitude_le_of_abs_le h
  obtain ⟨hbelow, hnear⟩ := half_le_single hle
  have hnonneg := half.magnitude_nonneg (K := ℚ) (halfCode (code value))
  have hsub : signOf ℚ value * single.magnitude ℚ (code value) - decoded value =
      signOf ℚ value *
        (single.magnitude ℚ (code value) - half.magnitude ℚ (halfCode (code value))) := by
    rw [decoded]
    ring
  refine ⟨?_, ?_, ?_⟩
  · rcases hnonneg.eq_or_lt with h0 | hpos
    · left
      rw [decoded, ← h0, mul_zero]
    · right
      -- both have the sign of the single
      have hsquare : signOf ℚ value * signOf ℚ value = 1 := by
        rcases signOf_cases value with hs | hs <;> rw [hs] <;> norm_num
      calc (0 : ℚ) < single.magnitude ℚ (code value) * half.magnitude ℚ (halfCode (code value)) :=
            mul_pos (hpos.trans_le hbelow) hpos
        _ = signOf ℚ value * single.magnitude ℚ (code value) * decoded value := by
            rw [decoded, show signOf ℚ value * single.magnitude ℚ (code value) *
              (signOf ℚ value * half.magnitude ℚ (halfCode (code value))) =
              signOf ℚ value * signOf ℚ value * (single.magnitude ℚ (code value) *
              half.magnitude ℚ (halfCode (code value))) by ring, hsquare, one_mul]
  · rw [decoded, abs_signOf_mul, abs_signOf_mul, abs_of_nonneg hnonneg,
      abs_of_nonneg (single.magnitude_nonneg _)]
    exact hbelow
  · rw [hsub, abs_signOf_mul, abs_signOf_mul, abs_of_nonneg (sub_nonneg.mpr hbelow),
      abs_of_nonneg (single.magnitude_nonneg _)]
    rcases hnear with hrel | habs
    · exact (hrel.trans_eq (mul_comm _ _)).trans (le_max_left _ _)
    · exact habs.trans (le_max_right _ _)

theorem half_magnitude_mono {c d : ℕ} (h : single.magnitude ℚ c ≤ single.magnitude ℚ d)
    (hd : single.magnitude ℚ d ≤ 10000) :
    half.magnitude ℚ (halfCode c) ≤ half.magnitude ℚ (halfCode d) := by
  have hcode := (single.magnitude_strictMono (K := ℚ)).le_iff_le.mp h
  exact (half.magnitude_strictMono (K := ℚ)).monotone (halfCode_mono hcode (code_lt_of_le hd))

theorem half_magnitude_nonpos {c : ℕ} (h : single.magnitude ℚ c ≤ 0) :
    half.magnitude ℚ (halfCode c) ≤ 0 := by
  have hzero : single.magnitude ℚ 0 = 0 := single.magnitude_zero
  have hle := half_magnitude_mono (d := 0) (h.trans_eq hzero.symm) (by rw [hzero]; norm_num)
  exact hle.trans_eq half.magnitude_zero

/-- **Larger numbers have larger halves.** -/
theorem decoded_mono {value value' : UInt32}
    (h : |signOf ℚ value * single.magnitude ℚ (code value)| ≤ 10000)
    (h' : |signOf ℚ value' * single.magnitude ℚ (code value')| ≤ 10000)
    (hle : signOf ℚ value * single.magnitude ℚ (code value) ≤
      signOf ℚ value' * single.magnitude ℚ (code value')) : decoded value ≤ decoded value' := by
  have hmag := magnitude_le_of_abs_le h
  have hmag' := magnitude_le_of_abs_le h'
  have hs := single.magnitude_nonneg (K := ℚ) (code value)
  have hs' := single.magnitude_nonneg (K := ℚ) (code value')
  have hh := half.magnitude_nonneg (K := ℚ) (halfCode (code value))
  have hh' := half.magnitude_nonneg (K := ℚ) (halfCode (code value'))
  unfold decoded
  rcases signOf_cases value with hsgn | hsgn <;> rcases signOf_cases value' with hsgn' | hsgn' <;>
    rw [hsgn, hsgn'] at hle ⊢
  · have hcd := half_magnitude_mono (c := code value) (d := code value') (by linarith) hmag'
    linarith
  -- a number that is not negative below one that is not positive: both are zero
  · have hzero := half_magnitude_nonpos (c := code value) (by linarith)
    have hzero' := half_magnitude_nonpos (c := code value') (by linarith)
    linarith
  · linarith
  · have hcd := half_magnitude_mono (c := code value') (d := code value) (by linarith) hmag
    linarith

/-! ## The phone's product -/

theorem abs_double_round_sub_le {x : ℚ} (hx : 0 ≤ x) :
    |double.round x - x| ≤ x / 2 ^ 50 + 1 / 2 ^ 100 := by
  have h := double.abs_magnitude_encode_sub_le hx
  rw [double.magnitude_encode hx] at h
  have htiny : (2 : ℚ) ^ (1 - double.bias - double.width) ≤ 2 ^ (-100 : ℤ) :=
    zpow_le_zpow_right₀ one_le_two (by decide)
  have hpos : (0 : ℚ) < 2 ^ (-100 : ℤ) := by positivity
  rw [show (1 : ℚ) / 2 ^ 100 = 2 ^ (-100 : ℤ) by norm_num]
  have hrel : x / (2 * 2 ^ double.width) ≤ x / 2 ^ 50 := by
    apply div_le_div_of_nonneg_left hx (by positivity)
    norm_num [double]
  generalize (2 : ℚ) ^ (1 - double.bias - double.width) = step at h htiny
  generalize x / (2 * 2 ^ double.width) = relative at h hrel
  generalize (2 : ℚ) ^ (-100 : ℤ) = tiny at hpos htiny ⊢
  linarith

theorem abs_single_encode_sub_le {x : ℚ} (hx : 0 ≤ x) :
    |single.magnitude ℚ (single.encode x) - x| ≤ x / 2 ^ 24 + 1 / 2 ^ 100 := by
  have h := single.abs_magnitude_encode_sub_le hx
  have htiny : (2 : ℚ) ^ (1 - single.bias - single.width) / 2 ≤ 1 / 2 ^ 100 := by
    norm_num [single]
  have hrel : x / (2 * 2 ^ single.width) = x / 2 ^ 24 := by
    norm_num [single]
  linarith

/-- The single the phone makes of a magnitude. -/
def metres (x : ℚ) : ℕ := single.encode (double.round (x * metricWaypointSpacing))

/-- Two roundings and the rounded spacing: near the exact product. -/
theorem abs_metres_sub_le {x : ℚ} (hx : 0 ≤ x) :
    |single.magnitude ℚ (metres x) - x / 10| ≤ x / 2 ^ 22 + 1 / 2 ^ 90 := by
  have hspacing := abs_double_round_sub_le (x := 1 / 10) (by norm_num)
  change |metricWaypointSpacing - 1 / 10| ≤ _ at hspacing
  rw [abs_le] at hspacing
  norm_num at hspacing
  obtain ⟨hlo, hhi⟩ := hspacing
  have hpos : 0 ≤ metricWaypointSpacing := by linarith
  have hprod : 0 ≤ x * metricWaypointSpacing := mul_nonneg hx hpos
  have hround := abs_double_round_sub_le hprod
  rw [abs_le] at hround
  have hround0 : 0 ≤ double.round (x * metricWaypointSpacing) := by
    rw [← double.magnitude_encode hprod]
    exact double.magnitude_nonneg _
  have hsingle := abs_single_encode_sub_le hround0
  rw [abs_le] at hsingle ⊢
  have hxlo := mul_le_mul_of_nonneg_left hlo hx
  have hxhi := mul_le_mul_of_nonneg_left hhi hx
  unfold metres
  norm_num at *
  constructor <;> linarith

/-- The number that the phone packs. -/
theorem timesSpacing_eq {value : UInt32} (h : single.magnitude ℚ (code value) ≤ 10000) :
    code (timesSpacing value) = metres (single.magnitude ℚ (code value)) ∧
      signOf ℚ (timesSpacing value) = signOf ℚ value ∧
      single.magnitude ℚ (code (timesSpacing value)) ≤ 10000 := by
  have hx := single.magnitude_nonneg (K := ℚ) (code value)
  have hlt := code_lt_of_le h
  have hnear := abs_metres_sub_le hx
  rw [abs_le] at hnear
  have hle : single.magnitude ℚ (metres (single.magnitude ℚ (code value))) ≤ 10000 := by
    have hup := hnear.2
    norm_num at hup
    linarith
  have hcode := code_lt_of_le hle
  have hbits := value.toNat_lt
  -- the product fits below the sign bit
  have heq : (timesSpacing value).toNat =
      value.toNat / 2 ^ 31 * 2 ^ 31 + metres (single.magnitude ℚ (code value)) := by
    rw [timesSpacing, if_neg (by omega)]
    simp only [UInt32.toNat_ofNat']
    change (value.toNat / 2 ^ 31 * 2 ^ 31 + metres (single.magnitude ℚ (code value))) % 2 ^ 32 = _
    rw [Nat.mod_eq_of_lt (by omega)]
  have hcode' : code (timesSpacing value) = metres (single.magnitude ℚ (code value)) := by
    rw [code, heq]
    omega
  refine ⟨hcode', ?_, hcode' ▸ hle⟩
  rw [signOf_eq, signOf_eq, heq]
  congr 2
  omega

/-- **The phone's route**, for one coordinate. -/
theorem decoded_timesSpacing_near {value : UInt32} {v : ℚ}
    (hv : v = signOf ℚ value * single.magnitude ℚ (code value)) (h : |v| ≤ 10000) :
    |decoded (timesSpacing value) - 1 / 10 * v| ≤
      max (2 ^ (-9 : ℤ) * |1 / 10 * v|) (2 ^ (-13 : ℤ)) := by
  subst hv
  have hx := single.magnitude_nonneg (K := ℚ) (code value)
  obtain ⟨hcode, hsign, hle⟩ := timesSpacing_eq (magnitude_le_of_abs_le h)
  obtain ⟨hbelow, hnear⟩ := half_le_single hle
  have hmetres := abs_metres_sub_le hx
  rw [← hcode, abs_le] at hmetres
  have hsub : decoded (timesSpacing value) -
      1 / 10 * (signOf ℚ value * single.magnitude ℚ (code value)) =
      signOf ℚ value * (half.magnitude ℚ (halfCode (code (timesSpacing value))) -
        single.magnitude ℚ (code value) / 10) := by
    rw [decoded, hsign]
    ring
  have habs : |1 / 10 * (signOf ℚ value * single.magnitude ℚ (code value))| =
      single.magnitude ℚ (code value) / 10 := by
    rw [abs_mul, abs_signOf_mul, abs_of_nonneg hx, abs_of_nonneg (by norm_num)]
    ring
  rw [hsub, abs_signOf_mul, habs, abs_le]
  -- what is left is about three numbers: the coordinate, its product and the half of it
  generalize single.magnitude ℚ (code value) = x at *
  generalize single.magnitude ℚ (code (timesSpacing value)) = y at *
  generalize half.magnitude ℚ (halfCode (code (timesSpacing value))) = z at *
  rw [show (2 : ℚ) ^ (-9 : ℤ) = 1 / 512 by norm_num,
    show (2 : ℚ) ^ (-13 : ℤ) = 1 / 8192 by norm_num]
  norm_num at hmetres hnear
  obtain ⟨hlo, hhi⟩ := hmetres
  rcases le_or_gt x 1 with hsmall | hlarge
  · have hgoal : (1 : ℚ) / 8192 ≤ max (1 / 512 * (x / 10)) (1 / 8192) := le_max_right _ _
    rcases hnear with hnear | hnear <;> constructor <;> linarith
  · have hgoal : 1 / 512 * (x / 10) ≤ max (1 / 512 * (x / 10)) (1 / 8192) := le_max_left _ _
    rcases hnear with hnear | hnear <;> constructor <;> linarith

/-- **The browser's route**, for one coordinate. -/
theorem decoded_mul_near {value : UInt32} {v : ℚ}
    (hv : v = signOf ℚ value * single.magnitude ℚ (code value)) (h : |v| ≤ 10000) :
    |decoded value * (1 / 10) - 1 / 10 * v| ≤
      max (2 ^ (-9 : ℤ) * |1 / 10 * v|) (2 ^ (-13 : ℤ)) := by
  obtain ⟨-, -, hnear⟩ := decoded_near hv h
  have hscale : |decoded value * (1 / 10) - 1 / 10 * v| = 1 / 10 * |v - decoded value| := by
    rw [show decoded value * (1 / 10) - 1 / 10 * v = 1 / 10 * (decoded value - v) by ring,
      abs_mul, abs_sub_comm, abs_of_nonneg (by norm_num : (0 : ℚ) ≤ 1 / 10)]
  have habs : |1 / 10 * v| = 1 / 10 * |v| := by
    rw [abs_mul, abs_of_nonneg (by norm_num : (0 : ℚ) ≤ 1 / 10)]
  have hnonneg := abs_nonneg v
  rw [hscale, habs]
  rcases le_max_iff.mp hnear with hrel | habs'
  · refine le_max_of_le_left ?_
    norm_num at hrel ⊢
    linarith
  · refine le_max_of_le_right ?_
    norm_num at habs' ⊢
    linarith

/-! ## The payload -/

/-- The Pi reads the halves that a client packed. -/
theorem halves_packFp16 (values : List UInt32) :
    DecodePath.halves (packFp16 values) = some (values.map floatToHalf) := by
  induction values with
  | nil => rfl
  | cons v vs ih =>
      have hlt := floatToHalf_lt v
      have hbytes : (UInt8.ofNat (floatToHalf v % 256)).toNat +
          256 * (UInt8.ofNat (floatToHalf v / 256)).toNat = floatToHalf v := by
        rw [UInt8.toNat_ofNat_of_lt' (by show _ < 256; omega),
          UInt8.toNat_ofNat_of_lt' (by show _ < 256; omega)]
        omega
      change DecodePath.halves (_ :: _ :: packFp16 vs) = _
      rw [DecodePath.halves, ih, hbytes]
      rfl

/-- A row of a reshaped list of rows. -/
theorem take_drop_flatMap {α β : Type*} {cols : ℕ} {f : α → List β}
    (hf : ∀ a, (f a).length = cols) (as : List α) {i : ℕ} {a : α} (h : as[i]? = some a) :
    ((as.flatMap f).drop (i * cols)).take cols = f a := by
  induction as generalizing i with
  | nil => cases h
  | cons b as ih =>
      rw [List.flatMap_cons]
      match i with
      | 0 =>
          cases h
          rw [Nat.zero_mul, List.drop_zero, ← hf a, List.take_left]
      | i + 1 =>
          rw [show (i + 1) * cols = (f b).length + i * cols by rw [hf b]; ring,
            ← List.drop_drop, List.drop_left]
          exact ih h

theorem reshape_flatMap {α : Type*} {cols : ℕ} (n : ℕ) {f : ℕ → List α}
    (hf : ∀ i, (f i).length = cols) :
    DecodePath.reshape n cols ((List.range n).flatMap f) = (List.range n).map f := by
  apply List.map_congr_left
  intro i hi
  apply take_drop_flatMap hf
  rw [List.getElem?_range (List.mem_range.mp hi)]

theorem mapM_eq_some_map {α β : Type*} {f : α → Option β} {g : α → β} (h : ∀ a, f a = some (g a))
    (as : List α) : as.mapM f = some (as.map g) := by
  induction as with
  | nil => rfl
  | cons a as ih =>
      rw [List.mapM_cons, h, ih]
      rfl

/-- The pose that the Pi makes of four numbers. -/
def poseOf (spacing : ℚ) (x y c s : UInt32) : PoseStamped (PyFloat ℚ) :=
  ⟨(DecodePath.halfValue ℚ (floatToHalf x)).mul (fin spacing),
    (DecodePath.halfValue ℚ (floatToHalf y)).mul (fin spacing),
    DecodePath.halfValue ℚ (floatToHalf c), DecodePath.halfValue ℚ (floatToHalf s)⟩

/-- **A packed list of rows** is decoded to one pose a row. -/
theorem decodePath_packFp16 {n : ℕ} (hn : 1 ≤ n) (x y c s : ℕ → UInt32) (scaledToM : Bool)
    (frameId : String) :
    DecodePath.decodePath
        (packFp16 ((List.range n).flatMap fun i => [x i, y i, c i, s i])) n actionDim
        scaledToM (1 / 10 : ℚ) frameId =
      .ok ⟨frameId, (List.range n).map fun i =>
        poseOf (if scaledToM then 1 else 1 / 10) (x i) (y i) (c i) (s i)⟩ := by
  have hlen : (((List.range n).flatMap fun i => [x i, y i, c i, s i]).length : ℤ) =
      (n : ℤ) * (actionDim : ℤ) := by
    rw [List.length_flatMap]
    simp [actionDim]
  have hrows : DecodePath.reshape n 4 ((List.range n).flatMap fun i => [x i, y i, c i, s i]) =
      (List.range n).map fun i => [x i, y i, c i, s i] := reshape_flatMap n fun _ => rfl
  have hvalues : DecodePath.fp16BytesToFloat32List ℚ
      (packFp16 ((List.range n).flatMap fun i => [x i, y i, c i, s i])) =
      .ok (((List.range n).flatMap fun i => [x i, y i, c i, s i]).map fun v =>
        DecodePath.halfValue ℚ (floatToHalf v)) := by
    rw [DecodePath.fp16BytesToFloat32List, halves_packFp16]
    simp only [List.map_map]
    rfl
  unfold DecodePath.decodePath
  rw [if_neg (by unfold actionDim; omega), hvalues]
  simp only [Bind.bind, Except.bind]
  rw [if_neg (by rw [List.length_map]; exact not_not.mpr hlen), Int.toNat_natCast,
    Int.toNat_natCast, DecodePath.reshape_map]
  have hposes : ((List.range n).map ((List.map fun v =>
      DecodePath.halfValue ℚ (floatToHalf v)) ∘ fun i => [x i, y i, c i, s i])).mapM
        (DecodePath.poseOfRow (if scaledToM then 1 else 1 / 10)) =
      some ((List.range n).map fun i =>
        poseOf (if scaledToM then 1 else 1 / 10) (x i) (y i) (c i) (s i)) := by
    rw [List.mapM_map]
    apply mapM_eq_some_map
    intro i
    rfl
  rw [show actionDim = 4 from rfl, hrows, DecodePath.trajectoryToPath, List.map_map, hposes]

/-- A chunk's numbers, row by row. -/
theorem ActionChunk.raw_eq (c : ActionChunk) :
    c.raw = (List.range c.numTokens).flatMap fun i =>
      [c.get i 0, c.get i 1, c.get i 2, c.get i 3] := by
  obtain ⟨raw, n, hlen⟩ := c
  dsimp only [ActionChunk.get]
  induction n generalizing raw with
  | zero =>
      rw [Nat.zero_mul] at hlen
      exact List.length_eq_zero_iff.mp hlen
  | succ n ih =>
      obtain ⟨a, b, c, d, rest, rfl⟩ : ∃ a b c d rest, raw = a :: b :: c :: d :: rest := by
        match raw, hlen with
        | a :: b :: c :: d :: rest, _ => exact ⟨a, b, c, d, rest, rfl⟩
        | [_, _, _], h => simp [actionDim, Nat.add_mul] at h
        | [_, _], h => simp [actionDim, Nat.add_mul] at h
        | [_], h => simp [actionDim, Nat.add_mul] at h
      have hrest : rest.length = n * actionDim := by
        simp only [List.length_cons, actionDim] at hlen ⊢
        omega
      have hshift : ∀ i j, (a :: b :: c :: d :: rest).getD ((i + 1) * actionDim + j) 0 =
          rest.getD (i * actionDim + j) 0 := by
        intro i j
        rw [show (i + 1) * actionDim + j = i * actionDim + j + 4 by rw [actionDim]; ring]
        rfl
      rw [List.range_succ_eq_map, List.flatMap_cons, List.flatMap_map]
      simp only [Nat.succ_eq_add_one, hshift]
      rw [← ih rest hrest]
      rfl

/-! ## Both routes -/

/-- What the engine's sanity check admits: a finite number of at most 10000. -/
def Admitted (value : UInt32) : Prop := ∃ v, singleValue ℚ value = .fin v ∧ |v| ≤ 10000

/-- A coordinate of a pose, in metres, and the raw number it comes from. -/
def MetresNear (value : UInt32) (coord : PyFloat ℚ) : Prop :=
  ∃ v x, singleValue ℚ value = .fin v ∧ coord = .fin x ∧
    |x - 1 / 10 * v| ≤ max (2 ^ (-9 : ℤ) * |1 / 10 * v|) (2 ^ (-13 : ℤ))

/-- A component of an orientation and the raw number it comes from. -/
def UnitNear (value : UInt32) (component : PyFloat ℚ) : Prop :=
  ∃ v x, singleValue ℚ value = .fin v ∧ component = .fin x ∧
    |x - v| ≤ max (2 ^ (-10 : ℤ) * |v|) (2 ^ (-14 : ℤ))

/-- A pose and the row it comes from. -/
def PoseNear (c : ActionChunk) (i : ℕ) (pose : PoseStamped (PyFloat ℚ)) : Prop :=
  MetresNear (c.get i 0) pose.x ∧ MetresNear (c.get i 1) pose.y ∧
    UnitNear (c.get i 2) pose.w ∧ UnitNear (c.get i 3) pose.z

theorem ActionChunk.get_mem (c : ActionChunk) {i j : ℕ} (hi : i < c.numTokens)
    (hj : j < actionDim) : c.get i j ∈ c.raw := by
  have hlt : i * actionDim + j < c.raw.length := by
    have hmul := Nat.mul_le_mul_right actionDim hi
    rw [Nat.succ_mul] at hmul
    rw [c.length_raw]
    omega
  rw [ActionChunk.get, List.getD_eq_getElem?_getD, List.getElem?_eq_getElem hlt]
  exact List.getElem_mem hlt

section

variable {value : UInt32}

theorem unitNear (h : Admitted value) :
    UnitNear value (DecodePath.halfValue ℚ (floatToHalf value)) := by
  obtain ⟨v, hv, habs⟩ := h
  have heq := eq_of_singleValue hv
  obtain ⟨-, -, hnear⟩ := decoded_near heq habs
  refine ⟨v, decoded value, hv, halfValue_floatToHalf (magnitude_le_of_abs_le (heq ▸ habs)), ?_⟩
  rw [abs_sub_comm]
  exact hnear

theorem metresNear_ws (h : Admitted value) :
    MetresNear value ((DecodePath.halfValue ℚ (floatToHalf value)).mul (fin (1 / 10))) := by
  obtain ⟨v, hv, habs⟩ := h
  have heq := eq_of_singleValue hv
  rw [halfValue_floatToHalf (magnitude_le_of_abs_le (heq ▸ habs)), mul_fin]
  exact ⟨v, _, hv, rfl, decoded_mul_near heq habs⟩

theorem metresNear_grpc (h : Admitted value) :
    MetresNear value ((DecodePath.halfValue ℚ (floatToHalf (timesSpacing value))).mul (fin 1)) := by
  obtain ⟨v, hv, habs⟩ := h
  have heq := eq_of_singleValue hv
  obtain ⟨-, -, hle⟩ := timesSpacing_eq (magnitude_le_of_abs_le (heq ▸ habs))
  rw [halfValue_floatToHalf hle, mul_fin, mul_one]
  exact ⟨v, _, hv, rfl, decoded_timesSpacing_near heq habs⟩

end

section

variable (c : ActionChunk) (frameId : String)

/-- What the Pi makes of the browser's message. -/
theorem wsMessage_decode (hn : 1 ≤ c.numTokens) :
    (wsMessage c).decode frameId =
      .ok ⟨frameId, (List.range c.numTokens).map fun i =>
        poseOf (1 / 10) (c.get i 0) (c.get i 1) (c.get i 2) (c.get i 3)⟩ := by
  unfold ChunkMessage.decode wsMessage
  dsimp only
  rw [c.raw_eq]
  exact decodePath_packFp16 hn _ _ _ _ false frameId

/-- What the Pi makes of the phone's message. -/
theorem grpcMessage_decode (hn : 1 ≤ c.numTokens) :
    (grpcMessage c).decode frameId =
      .ok ⟨frameId, (List.range c.numTokens).map fun i =>
        poseOf 1 (timesSpacing (c.get i 0)) (timesSpacing (c.get i 1)) (c.get i 2) (c.get i 3)⟩ :=
  decodePath_packFp16 hn _ _ _ _ true frameId

end

/-- **Both routes keep the chunk**: every admitted number survives the half within its
last place, in order, and a chunk becomes the same poses over the WebSocket and
over gRPC. -/
theorem routes_agree :
    (∀ value v, singleValue ℚ value = .fin v → |v| ≤ 10000 →
      ∃ h, DecodePath.halfValue ℚ (floatToHalf value) = .fin h ∧ (h = 0 ∨ 0 < v * h) ∧
        |h| ≤ |v| ∧ |v - h| ≤ max (2 ^ (-10 : ℤ) * |v|) (2 ^ (-14 : ℤ))) ∧
    (∀ value value' v v' h h', singleValue ℚ value = .fin v → |v| ≤ 10000 →
      singleValue ℚ value' = .fin v' → |v'| ≤ 10000 →
      DecodePath.halfValue ℚ (floatToHalf value) = .fin h →
      DecodePath.halfValue ℚ (floatToHalf value') = .fin h' → v ≤ v' → h ≤ h') ∧
    (∀ (c : ActionChunk) (frameId : String), 1 ≤ c.numTokens →
      (∀ value ∈ c.raw, Admitted value) →
      ∃ ws grpc, (wsMessage c).decode frameId = .ok ws ∧
        (grpcMessage c).decode frameId = .ok grpc ∧
        ws.poses.length = c.numTokens ∧ grpc.poses.length = c.numTokens ∧
        ∀ i < c.numTokens, ∃ p q, ws.poses[i]? = some p ∧ grpc.poses[i]? = some q ∧
          PoseNear c i p ∧ PoseNear c i q ∧ p.w = q.w ∧ p.z = q.z) := by
  refine ⟨?_, ?_, ?_⟩
  · intro value v hv habs
    have heq := eq_of_singleValue hv
    exact ⟨decoded value, halfValue_floatToHalf (magnitude_le_of_abs_le (heq ▸ habs)),
      decoded_near heq habs⟩
  · intro value value' v v' h h' hv habs hv' habs' hh hh' hle
    have heq := eq_of_singleValue hv
    have heq' := eq_of_singleValue hv'
    subst heq heq'
    rw [halfValue_floatToHalf (magnitude_le_of_abs_le habs)] at hh
    rw [halfValue_floatToHalf (magnitude_le_of_abs_le habs')] at hh'
    cases hh
    cases hh'
    exact decoded_mono habs habs' hle
  · intro c frameId hn hraw
    refine ⟨_, _, wsMessage_decode c frameId hn, grpcMessage_decode c frameId hn, by simp, by simp,
      ?_⟩
    intro i hi
    -- the four numbers of a row
    have hget : ∀ j < actionDim, Admitted (c.get i j) := fun j hj => hraw _ (c.get_mem hi hj)
    have h0 := hget 0 (by decide)
    have h1 := hget 1 (by decide)
    have h2 := hget 2 (by decide)
    have h3 := hget 3 (by decide)
    have hrow : ∀ f : ℕ → PoseStamped (PyFloat ℚ),
        ((List.range c.numTokens).map f)[i]? = some (f i) := by
      intro f
      rw [List.getElem?_map, List.getElem?_range hi]
      rfl
    refine ⟨_, _, hrow _, hrow _, ?_, ?_, rfl, rfl⟩
    · exact ⟨metresNear_ws h0, metresNear_ws h1, unitNear h2, unitNear h3⟩
    · exact ⟨metresNear_grpc h0, metresNear_grpc h1, unitNear h2, unitNear h3⟩

/-- One row straight ahead, `(1, 0, 1, 0)`. -/
theorem routes_agree_ahead :
    ∃ ws grpc, (wsMessage ⟨[0x3f800000, 0, 0x3f800000, 0], 1, rfl⟩).decode "base_link" = .ok ws ∧
      (grpcMessage ⟨[0x3f800000, 0, 0x3f800000, 0], 1, rfl⟩).decode "base_link" = .ok grpc ∧
      ws.poses.length = 1 ∧ grpc.poses.length = 1 := by
  have hadmitted : ∀ value ∈ [0x3f800000, 0, 0x3f800000, 0], Admitted value := by
    have hone : Admitted 0x3f800000 := ⟨1, by decide +kernel, by norm_num⟩
    have hzero : Admitted 0 := ⟨0, by decide +kernel, by norm_num⟩
    simp [hone, hzero]
  obtain ⟨ws, grpc, hws, hgrpc, hlen, hlen', -⟩ :=
    routes_agree.2.2 ⟨[0x3f800000, 0, 0x3f800000, 0], 1, rfl⟩ "base_link" (le_refl 1) hadmitted
  exact ⟨ws, grpc, hws, hgrpc, hlen, hlen'⟩

end HalfCodec
