/-
# The area resize of the browser

`areaResizeRgb`, `extractRgb` and `normalizeChw` of `preprocessing.ts`, in exact
arithmetic.  A target pixel is the mean of the source pixels under its rectangle, weighted by
how much of them lies under it; a rectangle is a column times a row, and both are cells of an
equal partition of the source.

`resize_sound` : no pixel is read out of range, the weights are a partition of the source
pixels, and the results stay between the source pixels under their rectangle.
-/
import Mathlib.Algebra.BigOperators.Ring.Finset
import Mathlib.Algebra.Order.BigOperators.Group.Finset
import Mathlib.Data.Rat.Floor
import Mathlib.Tactic.FinCases
import Mathlib.Tactic.Ring
import Rvln.Overlap

open Finset

/-! ## Images -/

/-- `RgbaImage`: bytes, four a pixel. -/
structure RgbaImage where
  width : ℕ
  height : ℕ
  data : List (Fin 256)
  length_data : data.length = width * height * 4

/-- The three sums of `areaResizeRgb`. -/
structure RgbSums where
  r : ℚ
  g : ℚ
  b : ℚ

namespace AreaResize

/-! ## The resize -/

/-- The stretch of source pixels under a target row or column: `y0`, `y1`, `iy0` and `iy1`, or
`x0`, `x1`, `ix0` and `ix1`. -/
structure Span where
  lo : ℚ
  hi : ℚ
  first : ℕ
  last : ℕ

/-- `sx` or `sy`. -/
def scale (size dstSize : ℕ) : ℚ := size / dstSize

/-- The span of target row or column `j`. -/
def span (size dstSize j : ℕ) : Span :=
  let lo := j * scale size dstSize
  let hi := lo + scale size dstSize
  { lo := lo
    hi := hi
    first := ⌊lo⌋₊
    last := min ⌈hi⌉₊ size }

/-- `wx` or `wy`. -/
def Span.weight (s : Span) (i : ℕ) : ℚ := min ((i : ℚ) + 1) s.hi - max (i : ℚ) s.lo

/-- The loop variable runs from `first` up to `last`. -/
def Span.indices (s : Span) : List ℕ := List.range' s.first (s.last - s.first)

/-- The innermost loop body: add the source pixel `(xx, yy)`; `none` if a byte is read out of
range. -/
def addPixel (src : RgbaImage) (column : Span) (wy : ℚ) (yy : ℕ) (sums : RgbSums) (xx : ℕ) :
    Option RgbSums := do
  let w := column.weight xx * wy
  let p := (yy * src.width + xx) * 4
  let r ← src.data[p]?
  let g ← src.data[p + 1]?
  let b ← src.data[p + 2]?
  some ⟨sums.r + (r : ℕ) * w, sums.g + (g : ℕ) * w, sums.b + (b : ℕ) * w⟩

/-- The loop over one source row. -/
def addRow (src : RgbaImage) (column row : Span) (sums : RgbSums) (yy : ℕ) : Option RgbSums :=
  column.indices.foldlM (addPixel src column (row.weight yy) yy) sums

/-- The sums of a target pixel. -/
def sums (src : RgbaImage) (column row : Span) : Option RgbSums :=
  row.indices.foldlM (addRow src column row) ⟨0, 0, 0⟩

/-- `clampByte`. -/
def clampByte (v : ℤ) : ℤ := if v < 0 then 0 else if v > 255 then 255 else v

/-- What is stored in a `Uint8Array`. -/
def toUint8 (v : ℤ) : Fin 256 := ⟨(v % 256).toNat, by omega⟩

/-- A mean as a byte; `Math.round` rounds halves up. -/
def toByte (v : ℚ) : Fin 256 := toUint8 (clampByte ⌊v + 1 / 2⌋)

/-- The three bytes of a target pixel. -/
def pixel (src : RgbaImage) (dstW dstH dx dy : ℕ) : Option (List (Fin 256)) := do
  let invArea := 1 / (scale src.width dstW * scale src.height dstH)
  let s ← sums src (span src.width dstW dx) (span src.height dstH dy)
  some [toByte (s.r * invArea), toByte (s.g * invArea), toByte (s.b * invArea)]

/-- `areaResizeRgb`; the offset `(dy * dstW + dx) * 3` counts up. -/
def areaResizeRgb (src : RgbaImage) (dstW dstH : ℕ) : Option (List (Fin 256)) := do
  let rows ← (List.range dstH).mapM fun dy => do
    let row ← (List.range dstW).mapM fun dx => pixel src dstW dstH dx dy
    some row.flatten
  some rows.flatten

/-- `extractRgb`. -/
def extractRgb (src : RgbaImage) : Option (List (Fin 256)) := do
  let pixels ← (List.range (src.width * src.height)).mapM fun i => do
    let r ← src.data[i * 4]?
    let g ← src.data[i * 4 + 1]?
    let b ← src.data[i * 4 + 2]?
    some [r, g, b]
  some pixels.flatten

/-! ## The normalization -/

/-- `OmniVlaConfig.imagenetMean`. -/
def imagenetMean : Fin 3 → ℚ
  | 0 => 485 / 1000
  | 1 => 456 / 1000
  | 2 => 406 / 1000

/-- `OmniVlaConfig.imagenetStd`. -/
def imagenetStd : Fin 3 → ℚ
  | 0 => 229 / 1000
  | 1 => 224 / 1000
  | 2 => 225 / 1000

/-- One plane of `normalizeChw`. -/
def plane (rgb : List (Fin 256)) (size : ℕ) (c : Fin 3) : Option (List ℚ) :=
  (List.range (size * size)).mapM fun i : ℕ => do
    let v ← rgb[i * 3 + (c : ℕ)]?
    some (((v : ℕ) / 255 - imagenetMean c) / imagenetStd c)

/-- `normalizeChw`, behind the choice of the bytes. -/
def normalizeRgb (size : ℕ) (rgb : List (Fin 256)) : Option (List ℚ) := do
  let r ← plane rgb size 0
  let g ← plane rgb size 1
  let b ← plane rgb size 2
  some (r ++ g ++ b)

/-- `normalizeChw`. -/
def normalizeChw (src : RgbaImage) (size : ℕ) : Option (List ℚ) := do
  let rgb ← if src.width = size ∧ src.height = size then extractRgb src
    else areaResizeRgb src size size
  normalizeRgb size rgb

/-! ## What a sound resize is -/

/-- A colour byte of a source pixel. -/
def byteAt (src : RgbaImage) (xx yy : ℕ) (c : Fin 3) : Fin 256 :=
  src.data.getD ((yy * src.width + xx) * 4 + c) 0

/-- The target pixel `(dx, dy)` overlaps the source pixel `(xx, yy)`: the loops reach it. -/
def Overlaps (src : RgbaImage) (dstW dstH dx dy xx yy : ℕ) : Prop :=
  xx ∈ (span src.width dstW dx).indices ∧ yy ∈ (span src.height dstH dy).indices

instance (src : RgbaImage) (dstW dstH dx dy xx yy : ℕ) :
    Decidable (Overlaps src dstW dstH dx dy xx yy) :=
  inferInstanceAs (Decidable (_ ∧ _))

/-- The weight `w` of a source pixel in a target pixel. -/
def weight (src : RgbaImage) (dstW dstH dx dy xx yy : ℕ) : ℚ :=
  (span src.width dstW dx).weight xx * (span src.height dstH dy).weight yy

/-- The sum of a channel of a target pixel. -/
def total (src : RgbaImage) (dstW dstH dx dy : ℕ) (c : Fin 3) : ℚ :=
  ∑ yy ∈ (span src.height dstH dy).indices.toFinset,
    ∑ xx ∈ (span src.width dstW dx).indices.toFinset,
      (byteAt src xx yy c : ℕ) * weight src dstW dstH dx dy xx yy

/-- **A sound resize.** -/
structure Sound (src : RgbaImage) (dstW dstH : ℕ) : Prop where
  /-- No byte is read out of range. -/
  inRange : ∃ out, areaResizeRgb src dstW dstH = some out ∧ out.length = dstH * dstW * 3
  sums_eq : ∀ dx < dstW, ∀ dy < dstH,
    sums src (span src.width dstW dx) (span src.height dstH dy) =
      some ⟨total src dstW dstH dx dy 0, total src dstW dstH dx dy 1, total src dstW dstH dx dy 2⟩
  weight_pos : ∀ dx < dstW, ∀ dy < dstH, ∀ xx yy, Overlaps src dstW dstH dx dy xx yy →
    0 < weight src dstW dstH dx dy xx yy
  /-- The weights in a target pixel sum to `sx * sy`. -/
  weights_of_target : ∀ dx < dstW, ∀ dy < dstH,
    ∑ yy ∈ (span src.height dstH dy).indices.toFinset,
      ∑ xx ∈ (span src.width dstW dx).indices.toFinset, weight src dstW dstH dx dy xx yy =
        scale src.width dstW * scale src.height dstH
  /-- The weights of a source pixel sum to 1. -/
  weights_of_source : ∀ xx < src.width, ∀ yy < src.height,
    ∑ dy ∈ range dstH, ∑ dx ∈ range dstW,
      (if Overlaps src dstW dstH dx dy xx yy then weight src dstW dstH dx dy xx yy else 0) = 1
  /-- The totals of a channel are kept, before the rounding, up to the factor `sx * sy`. -/
  totals : ∀ c, (∑ dy ∈ range dstH, ∑ dx ∈ range dstW,
      total src dstW dstH dx dy c * (1 / (scale src.width dstW * scale src.height dstH))) *
        (scale src.width dstW * scale src.height dstH) =
    ∑ yy ∈ range src.height, ∑ xx ∈ range src.width, ((byteAt src xx yy c : ℕ) : ℚ)
  /-- A result lies between bounds of the source pixels that it overlaps. -/
  between : ∀ out, areaResizeRgb src dstW dstH = some out → ∀ dx < dstW, ∀ dy < dstH,
    ∀ c : Fin 3, ∃ v, out[(dy * dstW + dx) * 3 + (c : ℕ)]? = some v ∧ ∀ lo hi,
      (∀ xx yy, Overlaps src dstW dstH dx dy xx yy →
        lo ≤ byteAt src xx yy c ∧ byteAt src xx yy c ≤ hi) → lo ≤ v ∧ v ≤ hi
  /-- For equal sizes the bytes are taken over. -/
  same : src.width = dstW → src.height = dstH → areaResizeRgb src dstW dstH = extractRgb src

/-! ## One dimension -/

section

variable {size dstSize j i : ℕ}

theorem Span.mem_indices {s : Span} : i ∈ s.indices ↔ s.first ≤ i ∧ i < s.last := by
  rw [Span.indices, List.mem_range'_1]
  omega

theorem Span.toFinset_indices (s : Span) : s.indices.toFinset = Ico s.first s.last := by
  ext i
  rw [List.mem_toFinset, Span.mem_indices, mem_Ico]

theorem scale_pos (hsize : 1 ≤ size) (hdst : 1 ≤ dstSize) : 0 < scale size dstSize :=
  div_pos (Nat.cast_pos.mpr hsize) (Nat.cast_pos.mpr hdst)

theorem mul_scale (hdst : 1 ≤ dstSize) : (dstSize : ℚ) * scale size dstSize = size :=
  mul_div_cancel₀ _ (Nat.cast_ne_zero.mpr (Nat.one_le_iff_ne_zero.mp hdst))

theorem span_lo_nonneg (size dstSize j : ℕ) : 0 ≤ (span size dstSize j).lo :=
  mul_nonneg (Nat.cast_nonneg j) (div_nonneg (Nat.cast_nonneg size) (Nat.cast_nonneg dstSize))

theorem span_lo_lt_hi (hsize : 1 ≤ size) (hdst : 1 ≤ dstSize) :
    (span size dstSize j).lo < (span size dstSize j).hi :=
  lt_add_of_pos_right _ (scale_pos hsize hdst)

/-- A span ends in the source. -/
theorem span_hi_le (hsize : 1 ≤ size) (hdst : 1 ≤ dstSize) (hj : j < dstSize) :
    (span size dstSize j).hi ≤ size := by
  show (j : ℚ) * scale size dstSize + scale size dstSize ≤ size
  have hcast : (j : ℚ) + 1 ≤ dstSize := by exact_mod_cast hj
  calc (j : ℚ) * scale size dstSize + scale size dstSize
      = (j + 1) * scale size dstSize := by ring
    _ ≤ dstSize * scale size dstSize :=
        mul_le_mul_of_nonneg_right hcast (scale_pos hsize hdst).le
    _ = size := mul_scale hdst

/-- So the clamp at the border changes nothing. -/
theorem span_last (hsize : 1 ≤ size) (hdst : 1 ≤ dstSize) (hj : j < dstSize) :
    (span size dstSize j).last = ⌈(span size dstSize j).hi⌉₊ :=
  min_eq_left (Nat.ceil_le.mpr (span_hi_le hsize hdst hj))

theorem span_last_le (size dstSize j : ℕ) : (span size dstSize j).last ≤ size :=
  min_le_right _ _

/-- The weight of a pixel in a span, 0 beside it. -/
def part (size dstSize j i : ℕ) : ℚ :=
  Overlap.share (span size dstSize j).lo (span size dstSize j).hi i (i + 1)

/-- **In the span** the weight is positive, and it is the part of the pixel. -/
theorem weight_eq_part (hsize : 1 ≤ size) (hdst : 1 ≤ dstSize) (hj : j < dstSize)
    (hi : i ∈ (span size dstSize j).indices) :
    0 < (span size dstSize j).weight i ∧
      (span size dstSize j).weight i = part size dstSize j i := by
  obtain ⟨hfirst, hlast⟩ := Span.mem_indices.mp hi
  rw [span_last hsize hdst hj, Nat.lt_ceil] at hlast
  have hlo : (span size dstSize j).lo < i + 1 :=
    (Nat.lt_floor_add_one _).trans_le (by exact_mod_cast Nat.add_le_add_right hfirst 1)
  have hsigned : (span size dstSize j).weight i =
      Overlap.signed (span size dstSize j).lo (span size dstSize j).hi i (i + 1) := by
    rw [Span.weight, Overlap.signed, min_comm, max_comm]
  have hpos : 0 < (span size dstSize j).weight i := by
    rw [hsigned]
    exact Overlap.signed_pos (span_lo_lt_hi hsize hdst) (lt_add_one _) hlo hlast
  refine ⟨hpos, ?_⟩
  rw [part, Overlap.share, ← hsigned, max_eq_right hpos.le]

/-- **Beside the span** nothing of the pixel is part of it. -/
theorem part_eq_zero (hsize : 1 ≤ size) (hdst : 1 ≤ dstSize) (hj : j < dstSize)
    (hi : i ∉ (span size dstSize j).indices) : part size dstSize j i = 0 := by
  refine Overlap.share_eq_zero ?_
  rcases Nat.lt_or_ge i (span size dstSize j).first with hfirst | hfirst
  · left
    have hle : i + 1 ≤ ⌊(span size dstSize j).lo⌋₊ := hfirst
    exact_mod_cast (Nat.le_floor_iff (span_lo_nonneg size dstSize j)).mp hle
  · right
    have hlast : (span size dstSize j).last ≤ i := by
      by_contra h
      exact hi (Span.mem_indices.mpr ⟨hfirst, Nat.lt_of_not_le h⟩)
    rw [span_last hsize hdst hj] at hlast
    exact Nat.ceil_le.mp hlast

/-- The parts in a span sum to its length. -/
theorem sum_part_span (hsize : 1 ≤ size) (hdst : 1 ≤ dstSize) (hj : j < dstSize) :
    ∑ i ∈ (span size dstSize j).indices.toFinset, part size dstSize j i =
      scale size dstSize := by
  rw [Span.toFinset_indices]
  have hfloor : ((span size dstSize j).first : ℚ) ≤ (span size dstSize j).lo :=
    Nat.floor_le (span_lo_nonneg size dstSize j)
  have hceil : (span size dstSize j).hi ≤ ((span size dstSize j).last : ℚ) := by
    rw [span_last hsize hdst hj]
    exact Nat.le_ceil _
  exact (Overlap.sum_share_Ico (span_lo_lt_hi hsize hdst).le hfloor hceil).trans
    (add_sub_cancel_left _ _)

/-- The parts of a pixel in all spans sum to 1. -/
theorem sum_part_pixel (hsize : 1 ≤ size) (hdst : 1 ≤ dstSize) (hi : i < size) :
    ∑ j ∈ range dstSize, part size dstSize j i = 1 := by
  have hle : (i : ℚ) + 1 ≤ dstSize * scale size dstSize := by
    rw [mul_scale hdst]
    exact_mod_cast hi
  calc ∑ j ∈ range dstSize, part size dstSize j i
      = ∑ j ∈ range dstSize, Overlap.share (i : ℚ) (i + 1) (j * scale size dstSize)
          (j * scale size dstSize + scale size dstSize) :=
        sum_congr rfl fun j _ => Overlap.share_comm _ _ _ _
    _ = i + 1 - i :=
        Overlap.sum_share_cells (lt_add_one _).le (scale_pos hsize hdst).le (Nat.cast_nonneg i) hle
    _ = 1 := add_sub_cancel_left _ _

end

/-! ## Two dimensions -/

section

variable {src : RgbaImage} {dstW dstH dx dy xx yy : ℕ}

/-- What an image and a target must be like: no side is zero. -/
structure Sized (src : RgbaImage) (dstW dstH : ℕ) : Prop where
  width : 1 ≤ src.width
  height : 1 ≤ src.height
  dstW : 1 ≤ dstW
  dstH : 1 ≤ dstH

theorem weight_pos (h : Sized src dstW dstH) (hdx : dx < dstW) (hdy : dy < dstH)
    (ho : Overlaps src dstW dstH dx dy xx yy) : 0 < weight src dstW dstH dx dy xx yy :=
  mul_pos (weight_eq_part h.width h.dstW hdx ho.1).1 (weight_eq_part h.height h.dstH hdy ho.2).1

/-- The weight of a source pixel, 0 where the loops do not reach it, is a product of parts. -/
theorem weight_eq_mul_part (h : Sized src dstW dstH) (hdx : dx < dstW) (hdy : dy < dstH) :
    (if Overlaps src dstW dstH dx dy xx yy then weight src dstW dstH dx dy xx yy else 0) =
      part src.height dstH dy yy * part src.width dstW dx xx := by
  split
  · rename_i ho
    rw [weight, (weight_eq_part h.width h.dstW hdx ho.1).2,
      (weight_eq_part h.height h.dstH hdy ho.2).2, mul_comm]
  · rename_i ho
    by_cases hx : xx ∈ (span src.width dstW dx).indices
    · have hy : yy ∉ (span src.height dstH dy).indices := fun hy => ho ⟨hx, hy⟩
      rw [part_eq_zero h.height h.dstH hdy hy, zero_mul]
    · rw [part_eq_zero h.width h.dstW hdx hx, mul_zero]

theorem weights_of_target (h : Sized src dstW dstH) (hdx : dx < dstW) (hdy : dy < dstH) :
    ∑ yy ∈ (span src.height dstH dy).indices.toFinset,
      ∑ xx ∈ (span src.width dstW dx).indices.toFinset, weight src dstW dstH dx dy xx yy =
        scale src.width dstW * scale src.height dstH := by
  rw [← sum_part_span h.width h.dstW hdx, ← sum_part_span h.height h.dstH hdy, mul_comm,
    sum_mul_sum]
  refine sum_congr rfl fun yy hyy => sum_congr rfl fun xx hxx => ?_
  have ho : Overlaps src dstW dstH dx dy xx yy :=
    ⟨List.mem_toFinset.mp hxx, List.mem_toFinset.mp hyy⟩
  rw [← weight_eq_mul_part h hdx hdy, if_pos ho]

theorem weights_of_source (h : Sized src dstW dstH) (hxx : xx < src.width)
    (hyy : yy < src.height) :
    ∑ dy ∈ range dstH, ∑ dx ∈ range dstW,
      (if Overlaps src dstW dstH dx dy xx yy then weight src dstW dstH dx dy xx yy else 0) = 1 := by
  calc _ = ∑ dy ∈ range dstH, ∑ dx ∈ range dstW,
          part src.height dstH dy yy * part src.width dstW dx xx :=
        sum_congr rfl fun dy hdy => sum_congr rfl fun dx hdx =>
          weight_eq_mul_part h (mem_range.mp hdx) (mem_range.mp hdy)
    _ = (∑ dy ∈ range dstH, part src.height dstH dy yy) *
          ∑ dx ∈ range dstW, part src.width dstW dx xx := (sum_mul_sum _ _ _ _).symm
    _ = 1 := by
        rw [sum_part_pixel h.height h.dstH hyy, sum_part_pixel h.width h.dstW hxx, one_mul]

/-- The indices of a span are pixels of the source. -/
theorem lt_of_mem_indices {size dstSize j i : ℕ} (hi : i ∈ (span size dstSize j).indices) :
    i < size :=
  (Span.mem_indices.mp hi).2.trans_le (span_last_le size dstSize j)

theorem indices_subset (size dstSize j : ℕ) :
    (span size dstSize j).indices.toFinset ⊆ range size :=
  fun _ hi => mem_range.mpr (lt_of_mem_indices (List.mem_toFinset.mp hi))

/-- The sum of a channel, over all source pixels. -/
theorem total_eq (src : RgbaImage) (dstW dstH dx dy : ℕ) (c : Fin 3) :
    total src dstW dstH dx dy c = ∑ yy ∈ range src.height, ∑ xx ∈ range src.width,
      ((byteAt src xx yy c : ℕ) : ℚ) *
        (if Overlaps src dstW dstH dx dy xx yy then weight src dstW dstH dx dy xx yy else 0) := by
  have hzero : ∀ xx yy, ¬ Overlaps src dstW dstH dx dy xx yy →
      ((byteAt src xx yy c : ℕ) : ℚ) *
        (if Overlaps src dstW dstH dx dy xx yy then weight src dstW dstH dx dy xx yy else 0) =
          0 := by
    intro xx yy ho
    rw [if_neg ho, mul_zero]
  rw [total, ← sum_subset (indices_subset src.height dstH dy)]
  · refine sum_congr rfl fun yy hyy => ?_
    rw [← sum_subset (indices_subset src.width dstW dx)]
    · refine sum_congr rfl fun xx hxx => ?_
      rw [if_pos ⟨List.mem_toFinset.mp hxx, List.mem_toFinset.mp hyy⟩]
    · exact fun xx _ hxx => hzero xx yy fun ho => hxx (List.mem_toFinset.mpr ho.1)
  · exact fun yy _ hyy => sum_eq_zero fun xx _ =>
      hzero xx yy fun ho => hyy (List.mem_toFinset.mpr ho.2)

/-- Sums over all target pixels and all source pixels change places. -/
theorem sum_comm_pixels (f : ℕ → ℕ → ℕ → ℕ → ℚ) (s t u v : Finset ℕ) :
    ∑ a ∈ s, ∑ b ∈ t, ∑ c ∈ u, ∑ d ∈ v, f a b c d =
      ∑ c ∈ u, ∑ d ∈ v, ∑ a ∈ s, ∑ b ∈ t, f a b c d := by
  calc _ = ∑ a ∈ s, ∑ c ∈ u, ∑ d ∈ v, ∑ b ∈ t, f a b c d := by
        refine sum_congr rfl fun a _ => ?_
        rw [sum_comm]
        exact sum_congr rfl fun c _ => sum_comm
    _ = ∑ c ∈ u, ∑ d ∈ v, ∑ a ∈ s, ∑ b ∈ t, f a b c d := by
        rw [sum_comm]
        exact sum_congr rfl fun c _ => sum_comm

theorem totals (h : Sized src dstW dstH) (c : Fin 3) :
    (∑ dy ∈ range dstH, ∑ dx ∈ range dstW,
      total src dstW dstH dx dy c * (1 / (scale src.width dstW * scale src.height dstH))) *
        (scale src.width dstW * scale src.height dstH) =
    ∑ yy ∈ range src.height, ∑ xx ∈ range src.width, ((byteAt src xx yy c : ℕ) : ℚ) := by
  have harea : scale src.width dstW * scale src.height dstH ≠ 0 :=
    (mul_pos (scale_pos h.width h.dstW) (scale_pos h.height h.dstH)).ne'
  simp only [← sum_mul, one_div]
  rw [inv_mul_cancel_right₀ harea]
  simp only [total_eq]
  rw [sum_comm_pixels]
  refine sum_congr rfl fun yy hyy => sum_congr rfl fun xx hxx => ?_
  simp only [← mul_sum]
  rw [weights_of_source h (mem_range.mp hxx) (mem_range.mp hyy), mul_one]

/-! ## The loops -/

/-- A loop that adds to the sums. -/
theorem foldlM_add {step : RgbSums → ℕ → Option RgbSums} {f : Fin 3 → ℕ → ℚ} {is : List ℕ}
    (h : ∀ i ∈ is, ∀ s, step s i = some ⟨s.r + f 0 i, s.g + f 1 i, s.b + f 2 i⟩) (s : RgbSums) :
    is.foldlM step s =
      some ⟨s.r + (is.map (f 0)).sum, s.g + (is.map (f 1)).sum, s.b + (is.map (f 2)).sum⟩ := by
  induction is generalizing s with
  | nil => simp
  | cons i is ih =>
      have hstep := h i List.mem_cons_self s
      rw [List.foldlM_cons, hstep]
      show is.foldlM step _ = _
      rw [ih fun i' hi' => h i' (List.mem_cons_of_mem i hi')]
      simp [add_assoc]

/-- A pixel of the source is in the data. -/
theorem getElem?_data (hxx : xx < src.width) (hyy : yy < src.height) (c : Fin 3) :
    src.data[(yy * src.width + xx) * 4 + (c : ℕ)]? = some (byteAt src xx yy c) := by
  have hrow : yy * src.width + xx < src.width * src.height := by
    calc yy * src.width + xx < yy * src.width + src.width := Nat.add_lt_add_left hxx _
      _ = (yy + 1) * src.width := (Nat.succ_mul yy src.width).symm
      _ ≤ src.height * src.width := Nat.mul_le_mul_right _ hyy
      _ = src.width * src.height := Nat.mul_comm _ _
  have hlen : (yy * src.width + xx) * 4 + (c : ℕ) < src.data.length := by
    rw [src.length_data]
    omega
  rw [byteAt, List.getD_eq_getElem?_getD, List.getElem?_eq_getElem hlen, Option.getD_some]

theorem addPixel_eq (column : Span) (wy : ℚ) (s : RgbSums) (hxx : xx < src.width)
    (hyy : yy < src.height) :
    addPixel src column wy yy s xx =
      some ⟨s.r + (byteAt src xx yy 0 : ℕ) * (column.weight xx * wy),
        s.g + (byteAt src xx yy 1 : ℕ) * (column.weight xx * wy),
        s.b + (byteAt src xx yy 2 : ℕ) * (column.weight xx * wy)⟩ := by
  have hr : src.data[(yy * src.width + xx) * 4]? = some (byteAt src xx yy 0) :=
    getElem?_data hxx hyy 0
  have hg : src.data[(yy * src.width + xx) * 4 + 1]? = some (byteAt src xx yy 1) :=
    getElem?_data hxx hyy 1
  have hb : src.data[(yy * src.width + xx) * 4 + 2]? = some (byteAt src xx yy 2) :=
    getElem?_data hxx hyy 2
  rw [addPixel, hr, hg, hb]
  rfl

/-- A loop over a span, as a sum. -/
theorem sum_indices (s : Span) (f : ℕ → ℚ) :
    (s.indices.map f).sum = ∑ i ∈ s.indices.toFinset, f i :=
  (List.sum_toFinset f (List.nodup_range')).symm

/-- The sums of a target pixel, read off the loops. -/
theorem sums_eq (src : RgbaImage) (dstW dstH dx dy : ℕ) :
    sums src (span src.width dstW dx) (span src.height dstH dy) =
      some ⟨total src dstW dstH dx dy 0, total src dstW dstH dx dy 1,
        total src dstW dstH dx dy 2⟩ := by
  have hrow : ∀ yy ∈ (span src.height dstH dy).indices, ∀ s : RgbSums,
      addRow src (span src.width dstW dx) (span src.height dstH dy) s yy =
        some ⟨s.r + ∑ xx ∈ (span src.width dstW dx).indices.toFinset,
            (byteAt src xx yy 0 : ℕ) * weight src dstW dstH dx dy xx yy,
          s.g + ∑ xx ∈ (span src.width dstW dx).indices.toFinset,
            (byteAt src xx yy 1 : ℕ) * weight src dstW dstH dx dy xx yy,
          s.b + ∑ xx ∈ (span src.width dstW dx).indices.toFinset,
            (byteAt src xx yy 2 : ℕ) * weight src dstW dstH dx dy xx yy⟩ := by
    intro yy hyy s
    rw [addRow, foldlM_add (f := fun c xx =>
      (byteAt src xx yy c : ℕ) * weight src dstW dstH dx dy xx yy)]
    · simp only [sum_indices]
    · exact fun xx hxx s =>
        addPixel_eq _ _ s (lt_of_mem_indices hxx) (lt_of_mem_indices hyy)
  rw [sums, foldlM_add (f := fun c yy => ∑ xx ∈ (span src.width dstW dx).indices.toFinset,
    (byteAt src xx yy c : ℕ) * weight src dstW dstH dx dy xx yy) hrow]
  simp only [sum_indices, zero_add]
  rfl

/-! ## The bytes -/

/-- The mean of a target pixel. -/
def mean (src : RgbaImage) (dstW dstH dx dy : ℕ) (c : Fin 3) : ℚ :=
  total src dstW dstH dx dy c * (1 / (scale src.width dstW * scale src.height dstH))

theorem pixel_eq (src : RgbaImage) (dstW dstH dx dy : ℕ) :
    pixel src dstW dstH dx dy =
      some [toByte (mean src dstW dstH dx dy 0), toByte (mean src dstW dstH dx dy 1),
        toByte (mean src dstW dstH dx dy 2)] := by
  rw [pixel, sums_eq]
  rfl

/-- Between bounds for all pixels that are overlapped lies the mean. -/
theorem mean_mem (h : Sized src dstW dstH) (hdx : dx < dstW) (hdy : dy < dstH) (c : Fin 3)
    {lo hi : ℚ} (hbounds : ∀ xx yy, Overlaps src dstW dstH dx dy xx yy →
      lo ≤ (byteAt src xx yy c : ℕ) ∧ (byteAt src xx yy c : ℕ) ≤ hi) :
    lo ≤ mean src dstW dstH dx dy c ∧ mean src dstW dstH dx dy c ≤ hi := by
  have harea : 0 < scale src.width dstW * scale src.height dstH :=
    mul_pos (scale_pos h.width h.dstW) (scale_pos h.height h.dstH)
  rw [mean, mul_one_div, le_div_iff₀ harea, div_le_iff₀ harea, ← weights_of_target h hdx hdy]
  have hterm : ∀ yy ∈ (span src.height dstH dy).indices.toFinset,
      ∀ xx ∈ (span src.width dstW dx).indices.toFinset,
        0 < weight src dstW dstH dx dy xx yy ∧ lo ≤ (byteAt src xx yy c : ℕ) ∧
          (byteAt src xx yy c : ℕ) ≤ hi := by
    intro yy hyy xx hxx
    have ho : Overlaps src dstW dstH dx dy xx yy :=
      ⟨List.mem_toFinset.mp hxx, List.mem_toFinset.mp hyy⟩
    exact ⟨weight_pos h hdx hdy ho, hbounds xx yy ho⟩
  simp only [mul_sum, total]
  constructor
  · refine sum_le_sum fun yy hyy => sum_le_sum fun xx hxx => ?_
    obtain ⟨hw, hlo, -⟩ := hterm yy hyy xx hxx
    exact mul_le_mul_of_nonneg_right hlo hw.le
  · refine sum_le_sum fun yy hyy => sum_le_sum fun xx hxx => ?_
    obtain ⟨hw, -, hhi⟩ := hterm yy hyy xx hxx
    exact mul_le_mul_of_nonneg_right hhi hw.le

/-- Rounding and clamping keep to bounds that are bytes. -/
theorem toByte_mem {v : ℚ} {lo hi : Fin 256} (hlo : ((lo : ℕ) : ℚ) ≤ v)
    (hhi : v ≤ ((hi : ℕ) : ℚ)) : lo ≤ toByte v ∧ toByte v ≤ hi := by
  have hlo' : ((lo : ℕ) : ℤ) ≤ ⌊v + 1 / 2⌋ := by
    rw [Int.le_floor]
    push_cast
    linarith
  have hhi' : ⌊v + 1 / 2⌋ < ((hi : ℕ) : ℤ) + 1 := by
    rw [Int.floor_lt]
    push_cast
    linarith
  have hlt := hi.isLt
  rw [toByte, Fin.le_def, Fin.le_def, toUint8, clampByte]
  dsimp only
  split_ifs <;> omega

/-! ## The array -/

/-- A loop whose body gives a value every time. -/
theorem mapM_eq_some {α β : Type*} {f : α → Option β} {g : α → β} {as : List α}
    (h : ∀ a ∈ as, f a = some (g a)) : as.mapM f = some (as.map g) := by
  induction as with
  | nil => rfl
  | cons a as ih =>
      rw [List.mapM_cons, h a List.mem_cons_self, ih fun b hb => h b (List.mem_cons_of_mem a hb)]
      rfl

theorem length_flatMap_range {α : Type*} {f : ℕ → List α} {k : ℕ} (hf : ∀ i, (f i).length = k)
    (n : ℕ) : ((List.range n).flatMap f).length = n * k := by
  simp [List.length_flatMap, hf]

/-- Where an entry of a block stands when blocks of one length follow each other. -/
theorem getElem?_flatMap_range {α : Type*} {f : ℕ → List α} {k : ℕ} (hf : ∀ i, (f i).length = k)
    {n i r : ℕ} (hi : i < n) (hr : r < k) :
    ((List.range n).flatMap f)[i * k + r]? = (f i)[r]? := by
  induction n with
  | zero => cases hi
  | succ n ih =>
      have hlen := length_flatMap_range hf n
      rw [List.range_succ, List.flatMap_append, List.flatMap_singleton]
      rcases Nat.lt_succ_iff_lt_or_eq.mp hi with hlt | rfl
      · have hle : i * k + r < n * k := by
          calc i * k + r < i * k + k := Nat.add_lt_add_left hr _
            _ = (i + 1) * k := (Nat.succ_mul i k).symm
            _ ≤ n * k := Nat.mul_le_mul_right k hlt
        rw [List.getElem?_append_left (hlen ▸ hle)]
        exact ih hlt
      · rw [List.getElem?_append_right (hlen ▸ Nat.le_add_right _ _), hlen,
          Nat.add_sub_cancel_left]

/-- Rows of pixels are pixels one after the other. -/
theorem flatMap_range_mul {α : Type*} (f : ℕ → List α) (m n : ℕ) :
    ((List.range n).flatMap fun j => (List.range m).flatMap fun i => f (j * m + i)) =
      (List.range (n * m)).flatMap f := by
  induction n with
  | zero => simp
  | succ n ih =>
      rw [List.range_succ, List.flatMap_append, ih, List.flatMap_singleton, Nat.succ_mul,
        List.range_add, List.flatMap_append, List.flatMap_map]

/-- The three bytes of a target pixel. -/
def bytes (src : RgbaImage) (dstW dstH dx dy : ℕ) : List (Fin 256) :=
  [toByte (mean src dstW dstH dx dy 0), toByte (mean src dstW dstH dx dy 1),
    toByte (mean src dstW dstH dx dy 2)]

/-- **No read is out of range.** -/
theorem areaResizeRgb_eq (src : RgbaImage) (dstW dstH : ℕ) :
    areaResizeRgb src dstW dstH =
      some ((List.range dstH).flatMap fun dy =>
        (List.range dstW).flatMap fun dx => bytes src dstW dstH dx dy) := by
  have hrow : ∀ dy ∈ List.range dstH,
      (do
        let row ← (List.range dstW).mapM fun dx => pixel src dstW dstH dx dy
        some row.flatten) =
        some ((List.range dstW).flatMap fun dx => bytes src dstW dstH dx dy) := by
    intro dy _
    rw [mapM_eq_some fun dx _ => pixel_eq src dstW dstH dx dy]
    rfl
  rw [areaResizeRgb, mapM_eq_some hrow]
  rfl

theorem extractRgb_eq (src : RgbaImage) :
    extractRgb src = some ((List.range (src.height * src.width)).flatMap fun i =>
      [src.data.getD (i * 4) 0, src.data.getD (i * 4 + 1) 0, src.data.getD (i * 4 + 2) 0]) := by
  have hread : ∀ p, p < src.width * src.height * 4 → src.data[p]? = some (src.data.getD p 0) := by
    intro p hp
    rw [List.getD_eq_getElem?_getD, List.getElem?_eq_getElem (src.length_data ▸ hp),
      Option.getD_some]
  have hpixel : ∀ i ∈ List.range (src.width * src.height),
      (do
        let r ← src.data[i * 4]?
        let g ← src.data[i * 4 + 1]?
        let b ← src.data[i * 4 + 2]?
        some [r, g, b]) =
        some [src.data.getD (i * 4) 0, src.data.getD (i * 4 + 1) 0,
          src.data.getD (i * 4 + 2) 0] := by
    intro i hi
    have hi := List.mem_range.mp hi
    rw [hread _ (by omega), hread _ (by omega), hread _ (by omega)]
    rfl
  rw [extractRgb, mapM_eq_some hpixel, Nat.mul_comm src.height]
  rfl

/-! ## Equal sizes -/

/-- A span of a target of the size of the source is one pixel. -/
theorem span_self {size j : ℕ} (hsize : 1 ≤ size) (hj : j < size) :
    (span size size j).indices = [j] ∧ (span size size j).weight j = 1 := by
  have hscale : scale size size = 1 :=
    div_self (Nat.cast_ne_zero.mpr (Nat.one_le_iff_ne_zero.mp hsize))
  have hlo : (span size size j).lo = j := by
    show (j : ℚ) * scale size size = j
    rw [hscale, mul_one]
  have hhi : (span size size j).hi = (j + 1 : ℕ) := by
    show (j : ℚ) * scale size size + scale size size = _
    rw [hscale, mul_one, Nat.cast_add, Nat.cast_one]
  have hfirst : (span size size j).first = j := by
    show ⌊(span size size j).lo⌋₊ = j
    rw [hlo, Nat.floor_natCast]
  have hlast : (span size size j).last = j + 1 := by
    rw [span_last hsize hsize hj, hhi, Nat.ceil_natCast]
  constructor
  · rw [Span.indices, hfirst, hlast, Nat.add_sub_cancel_left]
    rfl
  · rw [Span.weight, hlo, hhi, Nat.cast_add, Nat.cast_one, min_self, max_self, add_sub_cancel_left]

/-- The mean over one pixel is its byte. -/
theorem mean_self (hdx : dx < src.width) (hdy : dy < src.height) (c : Fin 3) :
    mean src src.width src.height dx dy c = (byteAt src dx dy c : ℕ) := by
  have hwidth : 1 ≤ src.width := Nat.one_le_of_lt hdx
  have hheight : 1 ≤ src.height := Nat.one_le_of_lt hdy
  obtain ⟨hxs, hxw⟩ := span_self hwidth hdx
  obtain ⟨hys, hyw⟩ := span_self hheight hdy
  have hscale : ∀ {size : ℕ}, 1 ≤ size → scale size size = 1 := fun hsize =>
    div_self (Nat.cast_ne_zero.mpr (Nat.one_le_iff_ne_zero.mp hsize))
  rw [mean, total, hxs, hys, hscale hwidth, hscale hheight]
  simp [weight, hxw, hyw]

theorem toByte_natCast (b : Fin 256) : toByte ((b : ℕ) : ℚ) = b :=
  le_antisymm (toByte_mem le_rfl le_rfl).2 (toByte_mem le_rfl le_rfl).1

/-- **For equal sizes** the resize takes the bytes over. -/
theorem areaResizeRgb_self (src : RgbaImage) :
    areaResizeRgb src src.width src.height = extractRgb src := by
  rw [areaResizeRgb_eq, extractRgb_eq, ← flatMap_range_mul]
  refine congrArg some (List.flatMap_congr fun dy hdy => List.flatMap_congr fun dx hdx => ?_)
  have hdx := List.mem_range.mp hdx
  have hdy := List.mem_range.mp hdy
  rw [bytes, mean_self hdx hdy, mean_self hdx hdy, mean_self hdx hdy, toByte_natCast,
    toByte_natCast, toByte_natCast]
  rfl

/-! ## The result -/

theorem length_bytes (src : RgbaImage) (dstW dstH dx dy : ℕ) :
    (bytes src dstW dstH dx dy).length = 3 := rfl

/-- Where a byte of a target pixel stands in the array. -/
theorem getElem?_areaResizeRgb {out : List (Fin 256)}
    (hout : areaResizeRgb src dstW dstH = some out) (hdx : dx < dstW) (hdy : dy < dstH)
    (c : Fin 3) :
    out[(dy * dstW + dx) * 3 + (c : ℕ)]? = some (toByte (mean src dstW dstH dx dy c)) := by
  rw [areaResizeRgb_eq, Option.some_inj] at hout
  have hinner : ∀ dy', ((List.range dstW).flatMap fun dx => bytes src dstW dstH dx dy').length =
      dstW * 3 := fun dy' => length_flatMap_range (fun dx' => length_bytes src dstW dstH dx' dy') _
  have hoffset : dx * 3 + (c : ℕ) < dstW * 3 := by omega
  rw [← hout, Nat.add_mul, Nat.mul_assoc, Nat.add_assoc,
    getElem?_flatMap_range hinner hdy hoffset,
    getElem?_flatMap_range (fun dx' => length_bytes src dstW dstH dx' dy) hdx c.isLt]
  fin_cases c <;> rfl

/-- **The area resize is sound**, for all sizes, and the shortcut of `normalizeChw` changes
nothing. -/
theorem resize_sound (h : Sized src dstW dstH) :
    Sound src dstW dstH ∧
      ∀ size, normalizeChw src size = (areaResizeRgb src size size).bind (normalizeRgb size) := by
  constructor
  · constructor
    · refine ⟨_, areaResizeRgb_eq src dstW dstH, ?_⟩
      rw [length_flatMap_range (k := dstW * 3), Nat.mul_assoc]
      exact fun dy => length_flatMap_range (fun dx => length_bytes src dstW dstH dx dy) _
    · exact fun dx _ dy _ => sums_eq src dstW dstH dx dy
    · exact fun dx hdx dy hdy xx yy ho => weight_pos h hdx hdy ho
    · exact fun dx hdx dy hdy => weights_of_target h hdx hdy
    · exact fun xx hxx yy hyy => weights_of_source h hxx hyy
    · exact totals h
    · intro out hout dx hdx dy hdy c
      refine ⟨_, getElem?_areaResizeRgb hout hdx hdy c, ?_⟩
      intro lo hi hbounds
      have hcast : ∀ xx yy, Overlaps src dstW dstH dx dy xx yy →
          ((lo : ℕ) : ℚ) ≤ (byteAt src xx yy c : ℕ) ∧
            ((byteAt src xx yy c : ℕ) : ℚ) ≤ (hi : ℕ) := fun xx yy ho =>
        ⟨Nat.cast_le.mpr (hbounds xx yy ho).1, Nat.cast_le.mpr (hbounds xx yy ho).2⟩
      obtain ⟨hlo, hhi⟩ := mean_mem h hdx hdy c hcast
      exact toByte_mem hlo hhi
    · rintro rfl rfl
      exact areaResizeRgb_self src
  · intro size
    rw [normalizeChw]
    split
    · rename_i hsize
      obtain ⟨rfl, hheight⟩ := hsize
      have hself := areaResizeRgb_self src
      rw [hheight] at hself
      rw [hself]
      rfl
    · rfl

end

/-- Two pixels side by side. -/
def twoPixels : RgbaImage := ⟨2, 1, [10, 20, 30, 255, 40, 50, 60, 255], rfl⟩

/-- Three columns over two pixels: the one in the middle gets half of both. -/
theorem resize_sound_twoPixels :
    Sized twoPixels 3 1 ∧
      areaResizeRgb twoPixels 3 1 = some [10, 20, 30, 25, 35, 45, 40, 50, 60] ∧
      Sound twoPixels 3 1 := by
  have hsized : Sized twoPixels 3 1 := ⟨by decide, by decide, by decide, by decide⟩
  exact ⟨hsized, by decide +kernel, (resize_sound hsized).1⟩

end AreaResize
