/-
# The frames that NaVIDA is shown

The NaVIDA backend keeps the newest ten frames since its instruction changed, and shows its model
the current frame and at most eight of those before it, sampled evenly.  A request can be refused
before any of that, its image may not be convertible, and what the model does with its prompt may
raise: the frames stay as they are then.

* `seen` : the frames of the requests under an instruction, since the last one under another;
* `shown_frames` : after any requests the model is shown the current frame, behind frames that were
  seen before it, in their order, up to the last one, or the current frame again when there are
  none.

The division of the sampling is exact: a quotient by seven is never near the middle of two integers.
-/
import Mathlib.Data.List.DropRight
import Rvln.BinaryFloat
import Rvln.Window

/-! ## Picking entries of a list -/

/-- **Entries at increasing places** are there, in their order. -/
theorem exists_mapM_getElem? {α : Type*} (l : List α) (places : List ℕ)
    (hlt : ∀ i ∈ places, i < l.length) (hsorted : places.Pairwise (· < ·)) :
    ∃ entries : List α, places.mapM (fun i => l[i]?) = some entries ∧ entries.Sublist l ∧
      entries.length = places.length ∧
      ∀ k : ℕ, entries[k]? = places[k]?.bind fun i : ℕ => l[i]? := by
  refine ⟨(places.pmap Fin.mk hlt).map fun i => l[i], ?_, List.map_getElem_sublist ?_, ?_,
    fun k => ?_⟩
  · clear hsorted
    induction places with
    | nil => rfl
    | cons i places ih =>
        have htail := ih fun j hj => hlt j (List.mem_cons_of_mem _ hj)
        rw [List.mapM_cons, List.getElem?_eq_getElem (hlt i List.mem_cons_self), htail]
        rfl
  · exact List.Pairwise.pmap hsorted hlt fun _ _ _ _ hij => hij
  · rw [List.length_map, List.length_pmap]
  · rcases Nat.lt_or_ge k places.length with hk | hk
    · have hplace := hlt places[k] (List.getElem_mem hk)
      simp [hk, hplace]
    · simp [hk]

namespace NavidaHistory

/-! ## Sampling -/

/-- `round(i * (len(images) - 1) / (count - 1))`. -/
def sampleIndex (length count i : ℕ) : ℕ :=
  (roundEven ((i * (length - 1) : ℕ) / (count - 1 : ℕ) : ℚ)).toNat

/-- `_sample_history`; `none` is an `IndexError`. -/
def sampleHistory {α : Type} (images : List α) (count : ℕ) : Option (List α) :=
  if images.length ≤ count then some images
  else (List.range count).mapM fun i => images[sampleIndex images.length count i]?

section

variable {length count : ℕ}

theorem sampleIndex_zero : sampleIndex length count 0 = 0 := by
  rw [sampleIndex, Nat.zero_mul, Nat.cast_zero, zero_div, ← Int.cast_zero, roundEven_intCast]
  rfl

/-- The last place is that of the last frame. -/
theorem sampleIndex_last (hcount : 2 ≤ count) :
    sampleIndex length count (count - 1) = length - 1 := by
  have hne : ((count - 1 : ℕ) : ℚ) ≠ 0 := Nat.cast_ne_zero.mpr (by omega)
  rw [sampleIndex, Nat.cast_mul, mul_div_cancel_left₀ _ hne, ← Int.cast_natCast, roundEven_intCast]
  rfl

/-- **The places increase**, since two of them are more than one apart before they are rounded. -/
theorem sampleIndex_lt (hcount : 2 ≤ count) (hlength : count < length) {i j : ℕ} (hij : i < j) :
    sampleIndex length count i < sampleIndex length count j := by
  have hpos : (0 : ℚ) < (count - 1 : ℕ) := Nat.cast_pos.mpr (by omega)
  have hstep : ((i * (length - 1) : ℕ) : ℚ) / (count - 1 : ℕ) + 1 <
      ((j * (length - 1) : ℕ) : ℚ) / (count - 1 : ℕ) := by
    rw [div_add_one hpos.ne', div_lt_div_iff_of_pos_right hpos, ← Nat.cast_add, Nat.cast_lt]
    have hle : (i + 1) * (length - 1) ≤ j * (length - 1) := Nat.mul_le_mul_right _ hij
    rw [Nat.add_mul, Nat.one_mul] at hle
    omega
  have hi := (abs_le.mp (abs_roundEven_sub_le
    (((i * (length - 1) : ℕ) : ℚ) / (count - 1 : ℕ)))).2
  have hj := (abs_le.mp (abs_roundEven_sub_le
    (((j * (length - 1) : ℕ) : ℚ) / (count - 1 : ℕ)))).1
  have hlt : roundEven (((i * (length - 1) : ℕ) : ℚ) / (count - 1 : ℕ)) <
      roundEven (((j * (length - 1) : ℕ) : ℚ) / (count - 1 : ℕ)) := by
    rw [← Int.cast_lt (R := ℚ)]
    linarith
  have hnonneg : 0 ≤ roundEven (((i * (length - 1) : ℕ) : ℚ) / (count - 1 : ℕ)) :=
    le_roundEven (by rw [Int.cast_zero]; positivity)
  rw [sampleIndex, sampleIndex]
  omega

/-- **Sampling keeps the order and the two ends.** -/
theorem exists_sampleHistory {α : Type} (images : List α) (hcount : 2 ≤ count) :
    ∃ history, sampleHistory images count = some history ∧ history.Sublist images ∧
      history.length = min images.length count ∧ history.head? = images.head? ∧
      history.getLast? = images.getLast? := by
  unfold sampleHistory
  split
  · rename_i hle
    exact ⟨images, rfl, List.Sublist.refl _, (Nat.min_eq_left hle).symm, rfl, rfl⟩
  · rename_i hlength
    rw [not_le] at hlength
    have hlast : sampleIndex images.length count (count - 1) = images.length - 1 :=
      sampleIndex_last hcount
    obtain ⟨history, hhistory, hsub, hlen, hget⟩ := exists_mapM_getElem? images
      ((List.range count).map (sampleIndex images.length count))
      (by
        -- the last place is within the list, and the others are before it
        intro place hplace
        obtain ⟨i, hi, rfl⟩ := List.mem_map.mp hplace
        rw [List.mem_range] at hi
        rcases Nat.lt_or_eq_of_le (Nat.le_sub_one_of_lt hi) with hlt | rfl
        · have := sampleIndex_lt hcount hlength hlt
          omega
        · omega)
      (List.pairwise_map.mpr ((List.pairwise_lt_range).imp fun hij =>
        sampleIndex_lt hcount hlength hij))
    rw [List.mapM_map] at hhistory
    rw [List.length_map, List.length_range] at hlen
    have hplace : ∀ i < count, history[i]? = images[sampleIndex images.length count i]? := by
      intro i hi
      rw [hget, List.getElem?_map, List.getElem?_range hi]
      rfl
    refine ⟨history, hhistory, hsub, ?_, ?_, ?_⟩
    · rw [hlen, Nat.min_eq_right hlength.le]
    · rw [List.head?_eq_getElem?, List.head?_eq_getElem?, hplace 0 (by omega), sampleIndex_zero]
    · rw [List.getLast?_eq_getElem?, List.getLast?_eq_getElem?, hlen,
        hplace (count - 1) (by omega), hlast]

end

example : sampleHistory [0, 1, 2, 3, 4, 5, 6, 7, 8] 8 = some [0, 1, 2, 3, 5, 6, 7, 8] := by
  decide +kernel

/-! ## The backend -/

/-- The keyword arguments of `infer`: whether there is a goal image or a goal pose. -/
structure Request (Image : Type) where
  currentImage : Image
  langInstruction : String
  hasGoalImage : Bool
  hasGoalPose : Bool

/-- The state of `NaVIDABackend`. -/
structure NaVIDABackend (Rgb : Type) where
  frames : List Rgb
  instruction : Option String

/-- What the prompt shows. -/
structure Shown (Rgb : Type) where
  history : List Rgb
  current : Rgb

variable {Image Rgb : Type} (convert : Image → Option Rgb)

/-- The check of `infer`. -/
def Request.isText (r : Request Image) : Bool :=
  !r.hasGoalImage && !r.hasGoalPose && r.langInstruction ≠ ""

/-- What is shown of the frames; `none` is an `IndexError`. -/
def shownOf (frames : List Rgb) : Option (Shown Rgb) := do
  let current ← frames.getLast?
  let history ← sampleHistory frames.dropLast 8
  pure ⟨if history.isEmpty then [current] else history, current⟩

namespace NaVIDABackend

/-- `__init__`. -/
def new : NaVIDABackend Rgb := ⟨[], none⟩

/-- `infer` up to its prompt, which is `none` if something raises before. -/
def infer (b : NaVIDABackend Rgb) (r : Request Image) : NaVIDABackend Rgb × Option (Shown Rgb) :=
  if r.isText then
    let b := if b.instruction ≠ some r.langInstruction then ⟨[], some r.langInstruction⟩ else b
    match convert r.currentImage with
    | none => (b, none)
    | some frame =>
        let b := { b with frames := Window.push 10 b.frames frame }
        (b, shownOf b.frames)
  else (b, none)

/-- The backend after some requests, oldest first. -/
def after (rs : List (Request Image)) : NaVIDABackend Rgb :=
  rs.foldl (fun b r => (b.infer convert r).1) new

/-- The frames that an instruction goes on with. -/
def framesUnder (b : NaVIDABackend Rgb) (instruction : String) : List Rgb :=
  if b.instruction ≠ some instruction then [] else b.frames

end NaVIDABackend

namespace NaVIDABackend

/-- **An inference with a text goal**, by the frames that the instruction goes on with. -/
theorem infer_text (b : NaVIDABackend Rgb) {r : Request Image} (h : r.isText = true) :
    b.infer convert r = match convert r.currentImage with
      | none => (⟨b.framesUnder r.langInstruction, some r.langInstruction⟩, none)
      | some frame =>
          (⟨Window.push 10 (b.framesUnder r.langInstruction) frame, some r.langInstruction⟩,
            shownOf (Window.push 10 (b.framesUnder r.langInstruction) frame)) := by
  have hkept : (if b.instruction ≠ some r.langInstruction then
      (⟨[], some r.langInstruction⟩ : NaVIDABackend Rgb) else b) =
      ⟨b.framesUnder r.langInstruction, some r.langInstruction⟩ := by
    unfold framesUnder
    split
    · rfl
    · rename_i hsame
      rw [← not_not.mp hsame]
  rw [infer, if_pos h]
  dsimp only
  rw [hkept]

/-- A request that is refused. -/
theorem infer_refused (b : NaVIDABackend Rgb) {r : Request Image} (h : r.isText = false) :
    b.infer convert r = (b, none) :=
  if_neg (by rw [h]; decide)

theorem after_concat (rs : List (Request Image)) (r : Request Image) :
    after convert (rs ++ [r]) = ((after convert rs).infer convert r).1 := by
  rw [after, List.foldl_append]
  rfl

end NaVIDABackend

/-! ## What was seen -/

/-- **The frames seen under an instruction**: those of the text requests since the last one with
another instruction. -/
def seen (rs : List (Request Image)) (instruction : String) : List Rgb :=
  ((rs.filter Request.isText).rtakeWhile fun r => r.langInstruction = instruction).filterMap
    fun r => convert r.currentImage

/-- A request that is refused is not seen. -/
theorem seen_refused (rs : List (Request Image)) {r : Request Image} (h : r.isText = false)
    (instruction : String) :
    seen convert (rs ++ [r]) instruction = seen convert rs instruction := by
  rw [seen, List.filter_append, List.filter_cons_of_neg (by simp [h]), List.filter_nil,
    List.append_nil]
  rfl

/-- The next frame under the same instruction. -/
theorem seen_same (rs : List (Request Image)) {r : Request Image} (h : r.isText = true) :
    seen convert (rs ++ [r]) r.langInstruction =
      seen convert rs r.langInstruction ++ (convert r.currentImage).toList := by
  rw [seen, List.filter_append, List.filter_cons_of_pos h, List.filter_nil,
    List.rtakeWhile_concat, if_pos (by simp), List.filterMap_append]
  cases hframe : convert r.currentImage <;> simp [hframe, seen]

/-- Another instruction. -/
theorem seen_other (rs : List (Request Image)) {r : Request Image} (h : r.isText = true)
    {instruction : String} (hne : r.langInstruction ≠ instruction) :
    seen convert (rs ++ [r]) instruction = [] := by
  rw [seen, List.filter_append, List.filter_cons_of_pos h, List.filter_nil,
    List.rtakeWhile_concat, if_neg (by simpa using hne)]
  rfl

/-- **The backend keeps the newest ten frames** seen under its instruction. -/
theorem framesUnder_after (rs : List (Request Image)) (instruction : String) :
    (NaVIDABackend.after convert rs).framesUnder instruction =
      (seen convert rs instruction).rtake 10 := by
  induction rs using List.reverseRecOn generalizing instruction with
  | nil => rfl
  | append_singleton rs r ih =>
      rw [NaVIDABackend.after_concat]
      cases htext : r.isText with
      | false =>
          rw [seen_refused convert rs htext, NaVIDABackend.infer_refused convert _ htext]
          exact ih instruction
      | true =>
          rw [NaVIDABackend.infer_text convert _ htext, ih]
          -- the newest ten frames are kept as the current one is pushed
          by_cases hsame : r.langInstruction = instruction
          · subst hsame
            rw [seen_same convert rs htext]
            cases convert r.currentImage with
            | none =>
                rw [Option.toList_none, List.append_nil]
                exact if_neg (not_not_intro rfl)
            | some frame =>
                rw [Option.toList_some, ← Window.push_rtake]
                exact if_neg (not_not_intro rfl)
          -- the frames of another instruction are gone, whether the image converts or not
          · rw [seen_other convert rs htext hsame]
            cases convert r.currentImage with
            | none => exact if_pos fun h => hsame (Option.some.inj h)
            | some frame => exact if_pos fun h => hsame (Option.some.inj h)

/-- **What the model is shown.**  After any requests, and whatever became of them, an inference
with a text goal shows its frame behind at most eight frames that were seen before it under its
instruction, in their order, from the oldest that is kept to the last one; they are all of them as
long as there are at most eight; and if there are none it shows its frame again. -/
theorem shown_frames (rs : List (Request Image)) {r : Request Image} {frame : Rgb}
    (htext : r.isText = true) (hframe : convert r.currentImage = some frame) :
    ∃ history, ((NaVIDABackend.after convert rs).infer convert r).2 = some ⟨history, frame⟩ ∧
      (seen convert rs r.langInstruction = [] → history = [frame]) ∧
      (seen convert rs r.langInstruction ≠ [] →
        history.Sublist (seen convert rs r.langInstruction) ∧
        history.length = min (seen convert rs r.langInstruction).length 8 ∧
        history.head? = ((seen convert rs r.langInstruction).rtake 9).head? ∧
        history.getLast? = (seen convert rs r.langInstruction).getLast?) := by
  rw [NaVIDABackend.infer_text convert _ htext, framesUnder_after, hframe]
  generalize seen convert rs r.langInstruction = before
  obtain ⟨history, hhistory, hsub, hlen, hhead, hlast⟩ :=
    exists_sampleHistory (before.rtake 9) (show 2 ≤ 8 by decide)
  have hsuffix : before.rtake 9 <:+ before := List.drop_suffix _ _
  have hlength := Window.length_rtake 9 before
  have hshown : shownOf (Window.push 10 (before.rtake 10) frame) =
      some ⟨if history.isEmpty then [frame] else history, frame⟩ := by
    rw [Window.push_rtake, List.rtake_concat_succ, shownOf, List.getLast?_concat,
      List.dropLast_concat]
    dsimp only [Option.bind_eq_bind, Option.bind_some]
    rw [hhistory]
    rfl
  refine ⟨_, hshown, fun hnone => ?_, fun hsome => ?_⟩
  · subst hnone
    rw [List.eq_nil_of_length_eq_zero hlen]
    rfl
  · have hpos := List.length_pos_iff.mpr hsome
    have hne : history ≠ [] := List.length_pos_iff.mp (by omega)
    have hkept : before.rtake 9 ≠ [] := List.length_pos_iff.mp (by omega)
    rw [if_neg (by simpa using hne)]
    refine ⟨hsub.trans hsuffix.sublist, by omega, hhead, ?_⟩
    -- the window ends where the frames end
    obtain ⟨older, holder⟩ := hsuffix
    calc history.getLast?
        = (before.rtake 9).getLast? := hlast
      _ = (older ++ before.rtake 9).getLast? := (List.getLast?_append_of_ne_nil _ hkept).symm
      _ = before.getLast? := by rw [holder]

/-- A request to go on, with a numbered image. -/
def goOn (image : ℕ) : Request ℕ := ⟨image, "Go on.", false, false⟩

/-- The thirteenth frame is shown behind eight of the nine before it. -/
theorem shown_frames_goOn : ∃ history : List ℕ,
    ((NaVIDABackend.after some ((List.range 12).map goOn)).infer some (goOn 12)).2 =
        some ⟨history, 12⟩ ∧
      history.Sublist (List.range 12) ∧ history.length = 8 := by
  have hseen : seen some ((List.range 12).map goOn) "Go on." = List.range 12 := by decide +kernel
  obtain ⟨history, hshown, -, hrest⟩ :=
    shown_frames some ((List.range 12).map goOn) (r := goOn 12) (by decide) rfl
  obtain ⟨hsub, hlen, -⟩ := hrest (hseen ▸ by decide)
  rw [show (goOn 12).langInstruction = "Go on." from rfl, hseen] at hsub hlen
  exact ⟨history, hshown, hsub, hlen⟩

end NavidaHistory
