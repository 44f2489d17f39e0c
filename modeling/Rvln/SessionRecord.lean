/-
# What a recording leaves

The camera frames of a session, from the calls that took them to the files and the table
that are on the disk.

* `Recorded` : what a session's calls have left in its sinks and on the disk, kept by
  every call of the session (`Recorded.call`) and by what other sessions write
  (`Recorded.of_sameUnder`);
* `Ordered` : the frames are in the table in the order they were taken;
* `Ledger` : what becomes of every frame, from the session's calls alone (`Tallies`);
* `session_of_run` : what every session of a run keeps.
-/
import Mathlib.Data.List.InsertIdx
import Mathlib.Data.List.Nodup
import Mathlib.Data.List.Perm.Basic
import Rvln.SessionMeta

namespace SessionFiles

/-! ## What a session leaves -/

/-- A frame as `addFrame` takes it. -/
structure NewFrame where
  jpeg : List UInt8
  tNs : ℤ
  width : ℤ
  height : ℤ
  deriving DecidableEq

/-- The frames of a session's calls, in the order they were taken. -/
def framesOf {D : Type} (calls : List (Call D)) : List NewFrame :=
  calls.filterMap fun
    | .addFrame jpeg tNs width height => some ⟨jpeg, tNs, width, height⟩
    | _ => none

/-- The calls made for the `i`-th session. -/
def callsOf {D : Type} (i : ℕ) (es : List (Event D)) : List (Call D) :=
  es.filterMap fun
    | .call j c => if j = i then some c else none
    | .start _ _ => none

/-- The row of a frame and its number. -/
def frameFields (f : NewFrame × ℕ) : List String :=
  [f.2.repr, f.1.tNs.repr, f.1.width.repr, f.1.height.repr]

/-- A row as its sink gets it. -/
def rowBytes (row : String) : List UInt8 := utf8 (row ++ "\n")

/-- The table of frames, piece by piece, when the rows of `kept` are in it. -/
def framePieces (kept : List (NewFrame × ℕ)) : List (List UInt8) :=
  rowBytes "frame_no,t_mono_ns,width,height" :: kept.map fun f => rowBytes (csvRow (frameFields f))

/-- An entry of `savingFrames`. -/
def savingOf (f : NewFrame × ℕ) : ℕ × List UInt8 × String :=
  (f.2, f.1.jpeg, csvRow (frameFields f))

/-- What a session's calls have left: the frames of `kept` have their rows in the table's
sink and their files on the disk, and those of `pend` wait for their files. -/
structure Recorded {D : Type} (s : SessionWriter D) (disk : Disk) (calls : List (Call D))
    (kept pend : List (NewFrame × ℕ)) : Prop where
  placed : s.WellPlaced
  count : s.frameNo = (framesOf calls).length
  table : (s.sinks .framesCsv).Holds disk (framePieces kept)
  taken : ∀ f ∈ kept ++ pend, f ∈ (framesOf calls).zipIdx
  saved : ∀ f ∈ kept, disk (s.framePath f.2) = some f.1.jpeg
  saving : s.savingFrames = pend.map savingOf
  once : ((kept ++ pend).map Prod.snd).Nodup

section Recorded

variable {D : Type} {s s' : SessionWriter D} {disk disk' : Disk} {calls : List (Call D)}
variable {kept pend : List (NewFrame × ℕ)}

theorem framesOf_append (calls more : List (Call D)) :
    framesOf (calls ++ more) = framesOf calls ++ framesOf more :=
  List.filterMap_append

/-- The camera's files of a session. -/
def SameCamera (dir : DiskPath) (disk disk' : Disk) : Prop :=
  ∀ rest : DiskPath, rest.head? = some "camera" → disk' (dir ++ rest) = disk (dir ++ rest)

theorem sameCamera_refl (dir : DiskPath) (disk : Disk) : SameCamera dir disk disk := fun _ _ => rfl

theorem sameCamera_put {dir rest : DiskPath} (h : rest.head? ≠ some "camera") (disk : Disk)
    (content : List UInt8) : SameCamera dir disk (disk.put (dir ++ rest) content) := by
  intro other hother
  refine Function.update_of_ne ?_ _ _
  intro heq
  rw [List.append_cancel_left heq] at hother
  exact h hother

theorem framePath_injective {s : SessionWriter D} {m n : ℕ} (h : s.framePath m = s.framePath n) :
    m = n := by
  have hlast := List.append_cancel_left h
  simp only [List.cons.injEq, and_true, true_and] at hlast
  have hpad := String.append_left_inj ".jpg" |>.mp hlast
  have := paddedInt_injective 8 (String.ofList_injective hpad)
  exact_mod_cast this

theorem framePath_eq (hdir : s'.dir = s.dir) (n : ℕ) : s'.framePath n = s.framePath n := by
  rw [SessionWriter.framePath, hdir, ← SessionWriter.framePath]

/-- A call that takes no frame. -/
theorem Recorded.of_calls (h : Recorded s disk calls kept pend) {c : Call D}
    (hc : framesOf [c] = []) : Recorded s disk (calls ++ [c]) kept pend := by
  have hcalls : framesOf (calls ++ [c]) = framesOf calls := by
    rw [framesOf_append, hc, List.append_nil]
  exact { h with
    count := by rw [hcalls]; exact h.count
    taken := by rw [hcalls]; exact h.taken }

/-- A call that has nothing to do with the camera. -/
theorem Recorded.of_sameCamera (h : Recorded s disk calls kept pend) (hplaced : s'.WellPlaced)
    (hdir : s'.dir = s.dir) (hsink : s'.sinks .framesCsv = s.sinks .framesCsv)
    (hno : s'.frameNo = s.frameNo) (hsaving : s'.savingFrames = s.savingFrames)
    (hdisk : SameCamera s.dir disk disk') {c : Call D} (hc : framesOf [c] = []) :
    Recorded s' disk' (calls ++ [c]) kept pend where
  placed := hplaced
  count := by rw [hno, h.count, framesOf_append, hc, List.append_nil]
  table := by
    rw [hsink]
    refine h.table.of_eq ?_
    rw [h.placed .framesCsv]
    exact hdisk _ rfl
  taken f hf := by
    rw [framesOf_append, hc, List.append_nil]
    exact h.taken f hf
  saved f hf := by
    rw [SessionWriter.framePath, hdir, hdisk _ rfl]
    exact h.saved f hf
  saving := by rw [hsaving, h.saving]
  once := h.once

/-- The frames in the table after a call. -/
def keptAfter (s : SessionWriter D) (kept pend : List (NewFrame × ℕ)) :
    Call D → List (NewFrame × ℕ)
  | .frameSaved k => if .framesCsv ∈ s.unflushed then kept ++ pend[k]?.toList else kept
  | _ => kept

/-- The frames that wait for their files after a call. -/
def pendAfter (s : SessionWriter D) (pend : List (NewFrame × ℕ)) : Call D → List (NewFrame × ℕ)
  | .addFrame jpeg tNs width height => pend ++ [(⟨jpeg, tNs, width, height⟩, s.frameNo)]
  | .frameSaved k => pend.eraseIdx k
  | _ => pend

theorem Recorded.addFrame (h : Recorded s disk calls kept pend) (jpeg : List UInt8)
    (tNs width height : ℤ) :
    Recorded (s.addFrame jpeg tNs width height).2 disk (calls ++ [.addFrame jpeg tNs width height])
      kept (pend ++ [(⟨jpeg, tNs, width, height⟩, s.frameNo)]) where
  placed := h.placed
  count := by
    rw [framesOf_append, List.length_append, ← h.count]
    rfl
  table := h.table
  taken f hf := by
    rw [framesOf_append, List.zipIdx_append, List.mem_append, ← h.count]
    rw [← List.append_assoc, List.mem_append, List.mem_singleton] at hf
    rcases hf with hf | rfl
    · exact .inl (h.taken f hf)
    · exact .inr (by simp [framesOf])
  saved := h.saved
  saving := by
    rw [List.map_append, ← h.saving]
    rfl
  once := by
    rw [← List.append_assoc, List.map_append, List.nodup_append]
    refine ⟨h.once, List.nodup_singleton _, ?_⟩
    rintro n hn m hm rfl
    obtain ⟨f, hf, rfl⟩ := List.mem_map.mp hn
    have hlt := List.snd_lt_of_mem_zipIdx (h.taken f hf)
    rw [← h.count, List.mem_singleton.mp hm] at hlt
    simp at hlt

/-- The table's sink takes a row. -/
theorem writeln_framesCsv {s : SessionWriter D} (hopen : .framesCsv ∈ s.unflushed) (row : String) :
    (s.writeln .framesCsv row).sinks .framesCsv = (s.sinks .framesCsv).add (rowBytes row) := by
  rw [SessionWriter.writeln, if_pos hopen]
  exact Function.update_self Log.framesCsv _ s.sinks

/-- The file of one frame is written. -/
theorem put_framePath_of_ne (s : SessionWriter D) (disk : Disk) {m n : ℕ} (hne : m ≠ n)
    (jpeg : List UInt8) : disk.put (s.framePath n) jpeg (s.framePath m) = disk (s.framePath m) :=
  Function.update_of_ne (fun h => hne (framePath_injective h)) _ _

/-- A frame's JPEG is on the disk, and its row is still to come. -/
theorem Recorded.jpegSaved (h : Recorded s disk calls kept pend) {k : ℕ} {f : NewFrame × ℕ}
    (hk : pend[k]? = some f) :
    Recorded { s with savingFrames := s.savingFrames.eraseIdx k }
      (disk.put (s.framePath f.2) f.1.jpeg) calls kept (pend.eraseIdx k) := by
  have hmem : f ∈ pend := List.mem_of_getElem? hk
  have hless : (kept ++ pend.eraseIdx k).Sublist (kept ++ pend) :=
    (List.eraseIdx_sublist pend k).append_left kept
  have hfresh : ∀ g ∈ kept, g.2 ≠ f.2 := by
    intro g hg heq
    have hnodup := h.once
    rw [List.map_append, List.nodup_append] at hnodup
    exact hnodup.2.2 _ (List.mem_map_of_mem hg) _ (List.mem_map_of_mem hmem) heq
  exact
    { placed := h.placed
      count := h.count
      table := by
        refine h.table.of_eq (Function.update_of_ne ?_ _ _)
        rw [h.placed .framesCsv]
        intro heq
        have := List.append_cancel_left heq
        simp [Log.file] at this
      taken := fun g hg => h.taken g (hless.subset hg)
      saved := fun g hg => (put_framePath_of_ne s disk (hfresh g hg) _).trans (h.saved g hg)
      saving := by
        simp only [List.eraseIdx_eq_take_drop_succ, h.saving, List.map_append, List.map_take,
          List.map_drop]
      once := h.once.sublist (hless.map Prod.snd) }

/-- A frame's row goes into the table. -/
theorem Recorded.rowAdded (h : Recorded s disk calls kept pend)
    (hopen : .framesCsv ∈ s.unflushed) {f : NewFrame × ℕ} (htaken : f ∈ (framesOf calls).zipIdx)
    (hsaved : disk (s.framePath f.2) = some f.1.jpeg)
    (honce : ((kept ++ [f] ++ pend).map Prod.snd).Nodup) :
    Recorded (s.writeln .framesCsv (csvRow (frameFields f))) disk calls (kept ++ [f]) pend := by
  obtain ⟨hdir, -, hno, -, hsaving, -, -⟩ := writeln_fields s .framesCsv (csvRow (frameFields f))
  have hsink := writeln_framesCsv hopen (csvRow (frameFields f))
  exact
    { placed := (SessionWriter.samePlace_writeln s _ _).wellPlaced h.placed
      count := hno.trans h.count
      table := by
        rw [hsink, show framePieces (kept ++ [f]) =
          framePieces kept ++ [rowBytes (csvRow (frameFields f))] by simp [framePieces]]
        exact h.table.add _
      taken := fun g hg => by
        simp only [List.mem_append, List.mem_singleton] at hg
        rcases hg with (hg | rfl) | hg
        · exact h.taken g (List.mem_append_left _ hg)
        · exact htaken
        · exact h.taken g (List.mem_append_right _ hg)
      saved := fun g hg => by
        rw [framePath_eq hdir]
        rcases List.mem_append.mp hg with hg | hg
        · exact h.saved g hg
        · rw [List.mem_singleton.mp hg]
          exact hsaved
      saving := hsaving.trans h.saving
      once := honce }

theorem Recorded.frameSaved (h : Recorded s disk calls kept pend) (k : ℕ) :
    Recorded (s.frameSaved disk k).1 (s.frameSaved disk k).2 (calls ++ [.frameSaved k])
      (keptAfter s kept pend (.frameSaved k)) (pend.eraseIdx k) := by
  refine Recorded.of_calls ?_ rfl
  cases hk : pend[k]? with
  | none =>
      have hnone : s.savingFrames[k]? = none := by rw [h.saving, List.getElem?_map, hk]; rfl
      have hkept : keptAfter s kept pend (.frameSaved k) = kept := by simp [keptAfter, hk]
      rw [hkept, List.eraseIdx_of_length_le (List.getElem?_eq_none_iff.mp hk),
        SessionWriter.frameSaved, hnone]
      exact h
  | some f =>
      have hsome : s.savingFrames[k]? = some (savingOf f) := by
        rw [h.saving, List.getElem?_map, hk]
        rfl
      have hdone : s.frameSaved disk k =
          (({ s with savingFrames := s.savingFrames.eraseIdx k }).writeln .framesCsv
              (csvRow (frameFields f)), disk.put (s.framePath f.2) f.1.jpeg) := by
        rw [SessionWriter.frameSaved, hsome]
        rfl
      have hsaved := h.jpegSaved hk
      rw [hdone]
      -- the image is on the disk in either case, the row only while the table is open
      by_cases hopen : .framesCsv ∈ s.unflushed
      · have hkept : keptAfter s kept pend (.frameSaved k) = kept ++ [f] := by
          rw [keptAfter, if_pos hopen, hk]
          rfl
        have hperm : (kept ++ [f] ++ pend.eraseIdx k).Perm (kept ++ pend) := by
          obtain ⟨hlt, rfl⟩ := List.getElem?_eq_some_iff.mp hk
          rw [List.append_assoc, List.singleton_append]
          exact (List.getElem_cons_eraseIdx_perm hlt).append_left _
        rw [hkept]
        exact hsaved.rowAdded hopen
          (h.taken f (List.mem_append_right _ (List.mem_of_getElem? hk)))
          (Function.update_self _ _ _) (((hperm.map Prod.snd).nodup_iff).mpr h.once)
      · have hkept : keptAfter s kept pend (.frameSaved k) = kept := by
          rw [keptAfter, if_neg hopen]
        rw [hkept, SessionWriter.writeln, if_neg hopen]
        exact hsaved

theorem wellPlaced_drain (h : s.WellPlaced) (disk : Disk) (log : Log) :
    (s.drain disk log).1.WellPlaced := by
  have hsame : s.SamePlace (s.drain disk log).1 :=
    ⟨rfl, SessionWriter.path_update s.sinks log _ (Sink.drain_path _ _)⟩
  exact hsame.wellPlaced h

/-- The table's sink does the next thing it has to do. -/
theorem Recorded.drain (h : Recorded s disk calls kept pend) :
    Recorded (s.drain disk .framesCsv).1 (s.drain disk .framesCsv).2
      (calls ++ [.drain .framesCsv]) kept pend where
  placed := wellPlaced_drain h.placed disk .framesCsv
  count := by
    rw [framesOf_append]
    exact h.count.trans (congrArg List.length (List.append_nil _).symm)
  table := by
    simp only [SessionWriter.drain, Function.update_self]
    exact h.table.drain
  taken f hf := by
    rw [framesOf_append]
    exact (List.append_nil (framesOf calls)).symm ▸ h.taken f hf
  saved f hf := by
    refine (Sink.drain_of_ne ?_ disk).trans (h.saved f hf)
    rw [h.placed .framesCsv]
    intro heq
    have := List.append_cancel_left heq
    simp [Log.file] at this
  saving := h.saving
  once := h.once

/-- A row for another log. -/
theorem Recorded.writeln (h : Recorded s disk calls kept pend) {log : Log}
    (hlog : log ≠ .framesCsv) (row : String) {c : Call D} (hc : framesOf [c] = []) :
    Recorded (s.writeln log row) disk (calls ++ [c]) kept pend := by
  obtain ⟨hdir, -, hno, -, hsaving, -, -⟩ := writeln_fields s log row
  refine h.of_sameCamera ((SessionWriter.samePlace_writeln s log row).wellPlaced h.placed) hdir ?_
    hno hsaving (sameCamera_refl _ _) hc
  unfold SessionWriter.writeln
  split
  · exact Function.update_of_ne (Ne.symm hlog) _ _
  · rfl

/-- **One call** of a session keeps its record. -/
theorem Recorded.call (text : D → String) (anchorMs : ℤ) (h : Recorded s disk calls kept pend)
    (c : Call D) :
    Recorded (s.call text anchorMs disk c).1 (s.call text anchorMs disk c).2 (calls ++ [c])
      (keptAfter s kept pend c) (pendAfter s pend c) := by
  have hplaced := (SessionWriter.samePlace_call text anchorMs s disk c).wellPlaced h.placed
  cases c with
  | addFrame jpeg tNs width height => exact h.addFrame jpeg tNs width height
  | frameSaved k => exact h.frameSaved k
  | addPose tNs tx ty tz qx qy qz qw trackingState =>
      -- the number of poses is not of the camera
      have h' : Recorded { s with poseNo := s.poseNo + 1 } disk calls kept pend :=
        ⟨h.placed, h.count, h.table, h.taken, h.saved, h.saving, h.once⟩
      exact h'.writeln (by decide) _ rfl
  | addImu => exact h.writeln (by decide) _ rfl
  | addGnss => exact h.writeln (by decide) _ rfl
  | addLabel => exact h.writeln (by decide) _ rfl
  | nextAudioPath =>
      exact h.of_sameCamera hplaced rfl rfl rfl rfl (sameCamera_refl _ _) rfl
  | audioSaved no wav =>
      refine h.of_sameCamera hplaced rfl rfl rfl rfl ?_ rfl
      simp only [SessionWriter.call]
      split
      · exact sameCamera_put (by simp [SessionWriter.audioFile]) disk wav
      · exact sameCamera_refl _ _
  | drain log =>
      by_cases hlog : log = .framesCsv
      · subst hlog
        exact h.drain
      · refine h.of_sameCamera hplaced rfl ?_ rfl rfl ?_ rfl
        · exact Function.update_of_ne (Ne.symm hlog) _ _
        · intro rest hrest
          refine Sink.drain_of_ne ?_ disk
          rw [h.placed log]
          -- another table's file is not the table of frames, its name being another
          intro heq
          rw [List.append_cancel_left heq] at hrest
          cases log with
          | framesCsv => exact hlog rfl
          | poseCsv | imuCsv | gnssCsv | labels => exact absurd hrest (by decide)
  | finish platform appVersion nowNs =>
      refine h.of_sameCamera hplaced ?_ ?_ ?_ ?_ (sameCamera_refl _ _) rfl <;>
        simp only [SessionWriter.call, SessionWriter.finish] <;> split <;> simp
  | metaSaved =>
      cases hm : s.savingMeta with
      | none =>
          have hsame : s.call text anchorMs disk .metaSaved = (s, disk) := by
            rw [SessionWriter.call, SessionWriter.metaSaved, hm]
          rw [hsame] at hplaced ⊢
          exact h.of_sameCamera hplaced rfl rfl rfl rfl (sameCamera_refl _ _) rfl
      | some content =>
          have hsame : s.call text anchorMs disk .metaSaved =
              ({ s with savingMeta := none, unflushed := s.unflushed.tail },
                disk.put (s.dir ++ ["meta.json"]) (utf8 content)) := by
            rw [SessionWriter.call, SessionWriter.metaSaved, hm]
          rw [hsame] at hplaced ⊢
          exact h.of_sameCamera hplaced rfl rfl rfl rfl (sameCamera_put (by decide) disk _) rfl
  | flushed =>
      obtain hsame | hsame : s.flushed = { s with unflushed := s.unflushed.tail } ∨ s.flushed = s :=
        ite_eq_or_eq _ _ _
      · rw [SessionWriter.call, hsame] at hplaced ⊢
        exact h.of_sameCamera hplaced rfl rfl rfl rfl (sameCamera_refl _ _) rfl
      · rw [SessionWriter.call, hsame] at hplaced ⊢
        exact h.of_sameCamera hplaced rfl rfl rfl rfl (sameCamera_refl _ _) rfl

/-- What others write in other directories. -/
theorem Recorded.of_sameUnder (h : Recorded s disk calls kept pend)
    (hdisk : Disk.SameUnder s.dir disk disk') : Recorded s disk' calls kept pend :=
  { h with
    table := h.table.of_eq (by
      rw [h.placed .framesCsv]
      exact hdisk _ (List.prefix_append _ _))
    saved := fun f hf => (hdisk _ (List.prefix_append _ _)).trans (h.saved f hf) }

/-- A session that has just been made has recorded nothing. -/
theorem recorded_create (zone : ℤ → ℤ) (base : DiskPath) (config : LoggerConfig D)
    (anchorMs : ℤ) (disk : Disk) :
    Recorded (SessionWriter.create zone base config anchorMs) disk [] [] [] where
  placed := SessionWriter.create_wellPlaced zone base config anchorMs
  count := rfl
  table := (Sink.holds_openWrite _ disk).add _
  taken f hf := by cases hf
  saved f hf := by cases hf
  saving := rfl
  once := List.nodup_nil

end Recorded

/-! ## Frames in order -/

section Ordered

variable {D : Type} {s : SessionWriter D} {disk : Disk} {calls : List (Call D)}
variable {kept pend : List (NewFrame × ℕ)}

/-- The JPEGs of a session are written in the order they were taken. -/
def InTurn (calls : List (Call D)) : Prop := ∀ k, .frameSaved k ∈ calls → k = 0

/-- The table is the first of the frames taken, in their order. -/
structure Ordered (s : SessionWriter D) (calls : List (Call D))
    (kept pend : List (NewFrame × ℕ)) : Prop where
  first : kept <+: (framesOf calls).zipIdx
  all : .framesCsv ∈ s.unflushed → kept ++ pend = (framesOf calls).zipIdx

theorem mem_unflushed_of_writeln {log other : Log} {row : String}
    (h : log ∈ (s.writeln other row).unflushed) : log ∈ s.unflushed :=
  (writeln_fields s other row).2.2.2.2.2.2 ▸ h

/-- A log that is not flushed after a call was not flushed before. -/
theorem unflushed_of_call (text : D → String) (anchorMs : ℤ) (s : SessionWriter D) (disk : Disk)
    (c : Call D) (log : Log) (h : log ∈ (s.call text anchorMs disk c).1.unflushed) :
    log ∈ s.unflushed := by
  cases c with
  | addFrame | nextAudioPath | audioSaved | drain => exact h
  | addImu | addGnss | addLabel => exact mem_unflushed_of_writeln h
  | addPose =>
      have hmem := mem_unflushed_of_writeln h
      exact hmem
  | frameSaved k =>
      simp only [SessionWriter.call, SessionWriter.frameSaved] at h
      split at h
      · have hmem := mem_unflushed_of_writeln h
        exact hmem
      · exact h
  | finish platform appVersion nowNs =>
      simp only [SessionWriter.call, SessionWriter.finish] at h
      split at h <;> exact h
  | metaSaved =>
      simp only [SessionWriter.call, SessionWriter.metaSaved] at h
      split at h
      · exact List.mem_of_mem_tail h
      · exact h
  | flushed =>
      simp only [SessionWriter.call, SessionWriter.flushed] at h
      split at h
      · exact List.mem_of_mem_tail h
      · exact h

theorem Ordered.call (text : D → String) (anchorMs : ℤ) (hr : Recorded s disk calls kept pend)
    (h : Ordered s calls kept pend) (c : Call D) (hturn : ∀ k, c = .frameSaved k → k = 0) :
    Ordered (s.call text anchorMs disk c).1 (calls ++ [c]) (keptAfter s kept pend c)
      (pendAfter s pend c) := by
  have hflush := unflushed_of_call text anchorMs s disk c .framesCsv
  have hsame (hc : framesOf [c] = []) : framesOf (calls ++ [c]) = framesOf calls := by
    rw [framesOf_append, hc, List.append_nil]
  cases c with
  | addFrame jpeg tNs width height =>
      have hzip : (framesOf (calls ++ [.addFrame jpeg tNs width height])).zipIdx =
          (framesOf calls).zipIdx ++ [(⟨jpeg, tNs, width, height⟩, s.frameNo)] := by
        rw [framesOf_append, List.zipIdx_append, hr.count]
        simp [framesOf]
      refine ⟨?_, fun hmem => ?_⟩
      · rw [hzip]
        exact h.first.trans (List.prefix_append _ _)
      · rw [hzip, ← h.all (hflush hmem), List.append_assoc]
        rfl
  | frameSaved k =>
      obtain rfl := hturn k rfl
      by_cases hopen : .framesCsv ∈ s.unflushed
      -- the row that is added is the first one that was pending
      · have hall : kept ++ pend[0]?.toList ++ pend.eraseIdx 0 = (framesOf calls).zipIdx := by
          rw [← h.all hopen]
          cases pend <;> simp
        rw [keptAfter, if_pos hopen, pendAfter]
        constructor
        · rw [hsame rfl, ← hall]
          exact List.prefix_append _ _
        · intro _
          rw [hsame rfl, hall]
      · rw [keptAfter, if_neg hopen]
        refine ⟨?_, fun hmem => absurd (hflush hmem) hopen⟩
        rw [hsame rfl]
        exact h.first
  | addPose | addImu | addGnss | addLabel | nextAudioPath | audioSaved | drain | finish | metaSaved
  | flushed =>
      constructor
      · rw [hsame rfl]
        exact h.first
      · intro hmem
        rw [hsame rfl]
        exact h.all (hflush hmem)

end Ordered

/-! ## The ledger of a session -/

/-- What becomes of a session's frames, by their numbers and from its calls alone: the next
number, the frames whose JPEGs are not on the disk yet, those whose JPEGs were done before
`meta.json` was and those whose were done after it, and how far `finish` has come. -/
structure Ledger where
  next : ℕ
  waiting : List ℕ
  inTime : List ℕ
  late : List ℕ
  finishing : Bool
  described : Bool

section Ledger

variable {D : Type}

/-- One call. -/
def Ledger.call (l : Ledger) : Call D → Ledger
  | .addFrame _ _ _ _ => { l with next := l.next + 1, waiting := l.waiting ++ [l.next] }
  | .frameSaved k =>
      let done := l.waiting[k]?.toList
      if l.described then { l with waiting := l.waiting.eraseIdx k, late := l.late ++ done }
      else { l with waiting := l.waiting.eraseIdx k, inTime := l.inTime ++ done }
  | .finish _ _ _ => { l with finishing := true }
  | .metaSaved => { l with described := l.finishing }
  | _ => l

/-- The ledger of a session's calls. -/
def ledgerOf (calls : List (Call D)) : Ledger :=
  calls.foldl Ledger.call ⟨0, [], [], [], false, false⟩

theorem ledgerOf_concat (calls : List (Call D)) (c : Call D) :
    ledgerOf (calls ++ [c]) = (ledgerOf calls).call c :=
  List.foldl_concat _ _ c calls

/-- Every number is in one place. -/
theorem Ledger.perm_call {l : Ledger}
    (h : (l.inTime ++ l.late ++ l.waiting).Perm (List.range l.next)) (c : Call D) :
    ((l.call c).inTime ++ (l.call c).late ++ (l.call c).waiting).Perm
      (List.range (l.call c).next) := by
  cases c with
  | addFrame jpeg tNs width height =>
      show (l.inTime ++ l.late ++ (l.waiting ++ [l.next])).Perm (List.range (l.next + 1))
      rw [← List.append_assoc, List.range_succ]
      exact h.append_right _
  | frameSaved k =>
      have hdone : (l.waiting[k]?.toList ++ l.waiting.eraseIdx k).Perm l.waiting := by
        cases hk : l.waiting[k]? with
        | none => rw [List.eraseIdx_of_length_le (List.getElem?_eq_none_iff.mp hk)]; rfl
        | some n =>
            obtain ⟨hlt, rfl⟩ := List.getElem?_eq_some_iff.mp hk
            exact List.getElem_cons_eraseIdx_perm hlt
      by_cases hdescribed : l.described = true
      · simp only [Ledger.call, if_pos hdescribed]
        refine List.Perm.trans ?_ h
        rw [← List.append_assoc, List.append_assoc]
        exact hdone.append_left _
      · simp only [Ledger.call, if_neg hdescribed]
        refine List.Perm.trans ?_ h
        rw [List.append_assoc, List.append_assoc, List.append_assoc]
        refine List.Perm.append_left _ (List.Perm.trans ?_ (hdone.append_left _))
        rw [← List.append_assoc, ← List.append_assoc]
        exact List.perm_append_comm.append_right _
  | addPose | addImu | addGnss | addLabel | nextAudioPath | audioSaved | drain | finish | metaSaved
  | flushed => exact h

/-- **Every frame a session took is accounted for.** -/
theorem perm_ledgerOf (calls : List (Call D)) :
    ((ledgerOf calls).inTime ++ (ledgerOf calls).late ++ (ledgerOf calls).waiting).Perm
      (List.range (ledgerOf calls).next) := by
  induction calls using List.reverseRecOn with
  | nil => exact List.Perm.refl _
  | append_singleton calls c ih =>
      rw [ledgerOf_concat]
      exact Ledger.perm_call ih c

/-- The ledger is true to the state of a session. -/
structure Tallies (s : SessionWriter D) (l : Ledger) (kept pend : List (NewFrame × ℕ)) : Prop where
  next : s.frameNo = l.next
  waiting : pend.map Prod.snd = l.waiting
  inTime : kept.map Prod.snd = l.inTime
  closed : s.closed = l.finishing
  saving : s.savingMeta.isSome = (l.finishing && !l.described)
  order : l.described = true → l.finishing = true
  unflushed : if l.described then .framesCsv ∉ s.unflushed else s.unflushed = Log.all

variable {s s' : SessionWriter D} {l : Ledger} {kept pend : List (NewFrame × ℕ)}

/-- The table takes rows until the description is written. -/
theorem Tallies.mem_unflushed (h : Tallies s l kept pend) :
    .framesCsv ∈ s.unflushed ↔ l.described = false := by
  have hunflushed := h.unflushed
  cases hdescribed : l.described with
  | true =>
      rw [hdescribed, if_pos rfl] at hunflushed
      exact iff_of_false hunflushed (by decide)
  | false =>
      rw [hdescribed, if_neg (by decide)] at hunflushed
      rw [hunflushed]
      exact iff_of_true (by decide) rfl

theorem Tallies.unflushed_ne (h : Tallies s l kept pend) (hdescribed : l.described = true) :
    s.unflushed ≠ Log.all := by
  intro hall
  have hmem : .framesCsv ∈ s.unflushed := by
    rw [hall]
    decide
  rw [h.mem_unflushed.mp hmem] at hdescribed
  cases hdescribed

/-- What has nothing to do with the ledger. -/
theorem Tallies.of_same (h : Tallies s l kept pend) (hno : s'.frameNo = s.frameNo)
    (hclosed : s'.closed = s.closed) (hsaving : s'.savingMeta = s.savingMeta)
    (hflush : s'.unflushed = s.unflushed) : Tallies s' l kept pend where
  next := hno.trans h.next
  waiting := h.waiting
  inTime := h.inTime
  closed := hclosed.trans h.closed
  saving := by rw [hsaving, h.saving]
  order := h.order
  unflushed := by rw [hflush]; exact h.unflushed

theorem Tallies.writeln (h : Tallies s l kept pend) (log : Log) (row : String) :
    Tallies (s.writeln log row) l kept pend := by
  obtain ⟨-, -, hno, hclosed, -, hsaving, hflush⟩ := writeln_fields s log row
  exact h.of_same hno hclosed hsaving hflush

theorem Tallies.frameSaved (h : Tallies s l kept pend) (disk : Disk) (k : ℕ) :
    Tallies (s.frameSaved disk k).1 (l.call (.frameSaved k : Call D))
      (keptAfter s kept pend (.frameSaved k)) (pend.eraseIdx k) := by
  have hwaiting : (pend.eraseIdx k).map Prod.snd = l.waiting.eraseIdx k := by
    rw [← h.waiting, List.eraseIdx_map]
  have hdone : (pend[k]?.toList).map Prod.snd = l.waiting[k]?.toList := by
    rw [← h.waiting, List.getElem?_map]
    cases pend[k]? <;> rfl
  have hsame : Tallies (s.frameSaved disk k).1 l kept pend := by
    unfold SessionWriter.frameSaved
    split
    · have h' : Tallies { s with savingFrames := s.savingFrames.eraseIdx k } l kept pend :=
        h.of_same rfl rfl rfl rfl
      exact h'.writeln _ _
    · exact h
  have hunflushed := h.mem_unflushed
  by_cases hdescribed : l.described = true
  · have hkept : keptAfter s kept pend (.frameSaved k) = kept := by
      rw [keptAfter, if_neg (by rw [hunflushed, hdescribed]; decide)]
    simp only [Ledger.call, if_pos hdescribed, hkept]
    exact { hsame with waiting := hwaiting }
  · have hkept : keptAfter s kept pend (.frameSaved k) = kept ++ pend[k]?.toList := by
      rw [keptAfter, if_pos (hunflushed.mpr (by simpa using hdescribed))]
    simp only [Ledger.call, if_neg hdescribed, hkept]
    exact { hsame with
      waiting := hwaiting
      inTime := by rw [List.map_append, h.inTime, hdone] }

/-- The first `finish` begins the description. -/
theorem Tallies.finish (text : D → String) (anchorMs : ℤ) (h : Tallies s l kept pend)
    (disk : Disk) (platform appVersion : String) (nowNs : ℤ) :
    Tallies (s.call text anchorMs disk (.finish platform appVersion nowNs)).1
      (l.call (.finish platform appVersion nowNs : Call D)) kept pend := by
  simp only [SessionWriter.call, SessionWriter.finish]
  split
  · next hclosed =>
      have hfinishing : l.finishing = true := h.closed.symm.trans hclosed
      have hl : l.call (.finish platform appVersion nowNs : Call D) = l := by
        simp only [Ledger.call, ← hfinishing]
      rw [hl]
      exact h
  · next hopen =>
      have hfinishing : l.finishing = false := by
        rw [← h.closed]
        simpa using hopen
      have hdescribed : l.described = false := by
        by_contra hd
        rw [h.order (by simpa using hd)] at hfinishing
        cases hfinishing
      exact { h with
        closed := rfl
        saving := by simp [Ledger.call, hdescribed]
        order := fun _ => rfl }

/-- The description is written once, and the flush begins. -/
theorem Tallies.metaSaved (text : D → String) (anchorMs : ℤ) (h : Tallies s l kept pend)
    (disk : Disk) :
    Tallies (s.call text anchorMs disk .metaSaved).1 (l.call (.metaSaved : Call D)) kept pend := by
  have hsaving := h.saving
  simp only [SessionWriter.call, SessionWriter.metaSaved]
  split
  · next content hcontent =>
      rw [hcontent, Option.isSome_some, eq_comm, Bool.and_eq_true, Bool.not_eq_true'] at hsaving
      obtain ⟨hfinishing, hdescribed⟩ := hsaving
      -- before the description is written, every table is unflushed
      have hunflushed := h.unflushed
      rw [hdescribed, if_neg (by decide)] at hunflushed
      exact { h with
        saving := by simp [Ledger.call, hfinishing]
        order := fun hd => hd
        unflushed := by
          simp only [Ledger.call, hfinishing, if_true, hunflushed]
          decide }
  · next hnone =>
      -- nothing to write: it is written, or the finish has not begun
      have hsame : l.finishing = l.described := by
        rw [hnone, Option.isSome_none] at hsaving
        cases hf : l.finishing with
        | false =>
            cases hd : l.described with
            | false => rfl
            | true =>
                rw [h.order hd] at hf
                cases hf
        | true =>
            rw [hf, Bool.true_and] at hsaving
            simpa using hsaving.symm
      have hl : l.call (.metaSaved : Call D) = l :=
        congrArg (fun described => { l with described := described }) hsame
      rw [hl]
      exact h

/-- Another table is flushed, once the description is written. -/
theorem Tallies.flushed (text : D → String) (anchorMs : ℤ) (h : Tallies s l kept pend)
    (disk : Disk) :
    Tallies (s.call text anchorMs disk .flushed).1 (l.call (.flushed : Call D)) kept pend := by
  simp only [SessionWriter.call, SessionWriter.flushed]
  split
  · next hguard =>
      have hdescribed : l.described = true := by
        by_contra hd
        have hunflushed := h.unflushed
        rw [if_neg hd] at hunflushed
        exact hguard.1 hunflushed
      have hunflushed := h.unflushed
      rw [if_pos hdescribed] at hunflushed
      exact { h with
        unflushed := by
          show if l.described then _ else _
          rw [if_pos hdescribed]
          exact fun hmem => hunflushed (List.mem_of_mem_tail hmem) }
  · exact h

/-- **One call** keeps the ledger true. -/
theorem Tallies.call (text : D → String) (anchorMs : ℤ) (h : Tallies s l kept pend) (disk : Disk)
    (c : Call D) :
    Tallies (s.call text anchorMs disk c).1 (l.call c) (keptAfter s kept pend c)
      (pendAfter s pend c) := by
  cases c with
  | addFrame jpeg tNs width height =>
      exact { h with
        next := by
          show s.frameNo + 1 = l.next + 1
          rw [h.next]
        waiting := by
          rw [pendAfter, List.map_append, h.waiting]
          show l.waiting ++ [s.frameNo] = l.waiting ++ [l.next]
          rw [h.next] }
  | frameSaved k => exact h.frameSaved disk k
  | addImu | addGnss | addLabel => exact h.writeln _ _
  | addPose =>
      have h' : Tallies { s with poseNo := s.poseNo + 1 } l kept pend := h.of_same rfl rfl rfl rfl
      exact h'.writeln _ _
  | nextAudioPath | audioSaved | drain => exact h.of_same rfl rfl rfl rfl
  | finish platform appVersion nowNs => exact h.finish text anchorMs disk platform appVersion nowNs
  | metaSaved => exact h.metaSaved text anchorMs disk
  | flushed => exact h.flushed text anchorMs disk

theorem tallies_create (zone : ℤ → ℤ) (base : DiskPath) (config : LoggerConfig D) (anchorMs : ℤ) :
    Tallies (SessionWriter.create zone base config anchorMs) (ledgerOf ([] : List (Call D))) []
      [] where
  next := rfl
  waiting := rfl
  inTime := rfl
  closed := rfl
  saving := rfl
  order h := h
  unflushed := rfl

end Ledger

/-! ## Runs -/

section Runs

variable {D : Type} {zone : ℤ → ℤ} {base : DiskPath} {text : D → String}

theorem callsOf_append (i : ℕ) (es fs : List (Event D)) :
    callsOf i (es ++ fs) = callsOf i es ++ callsOf i fs :=
  List.filterMap_append

/-- Nothing happens to a session before it is started. -/
theorem callsOf_of_length_le {es : List (Event D)} {w : World D}
    (h : (recording zone base text).Run es w) :
    ∀ i, w.sessions.length ≤ i → callsOf i es = [] := by
  induction h with
  | init _ => exact fun _ _ => rfl
  | @snoc es w e _ hg ih =>
      intro i hi
      cases e with
      | start nowMs config =>
          rw [callsOf_append, ih i ?_]
          · rfl
          · simp only [recording, World.next, List.length_append] at hi
            omega
      | call j c =>
          have hlen : (w.next zone base text (.call j c)).sessions.length = w.sessions.length := by
            simp only [World.next]
            split
            · exact List.length_set
            · rfl
          have hi' : w.sessions.length ≤ i := hlen ▸ hi
          have hj : j ≠ i := by
            have : j < w.sessions.length := hg
            omega
          rw [callsOf_append, ih i hi']
          simp [callsOf, hj]

/-- **What holds of every session of a run**, when no two sessions are started in one second of
the local wall clock: what holds of a session that has just been made and is kept by its calls
and by what others write. -/
theorem session_of_run {P : SessionWriter D → Disk → List (Call D) → Prop}
    (hcreate : ∀ config nowMs disk, P (SessionWriter.create zone base config nowMs) disk [])
    (hcall : ∀ s disk calls anchorMs c, s.WellPlaced → P s disk calls →
      P (s.call text anchorMs disk c).1 (s.call text anchorMs disk c).2 (calls ++ [c]))
    (hother : ∀ s disk disk' calls, P s disk calls → Disk.SameUnder s.dir disk disk' →
      P s disk' calls)
    {es : List (Event D)} {w : World D} (h : (recording zone base text).Run es w)
    (hapart : (startTimes es).Pairwise fun a b => localSecond zone a ≠ localSecond zone b) :
    ∀ i s, w.sessions[i]? = some s → P s w.disk (callsOf i es) := by
  induction h with
  | @init w hw =>
      intro i s hs
      rw [show w.sessions = [] from hw] at hs
      cases hs
  | @snoc es w e hr hg ih =>
      rw [startTimes_append, List.pairwise_append] at hapart
      have hown := (ownDirectories_iff hr).mpr hapart.1
      have hplaced := recording_placed.of_run hr
      replace ih := ih hapart.1
      intro i s hs
      cases e with
      | start nowMs config =>
          have hcalls : callsOf i (es ++ [.start nowMs config]) = callsOf i es := by
            rw [callsOf_append]
            exact List.append_nil _
          rw [hcalls]
          simp only [recording, World.next] at hs ⊢
          rw [List.getElem?_append] at hs
          split at hs
          -- an older session, which the new one has not touched
          · exact ih i s hs
          · next hi =>
              obtain ⟨hi', hnew⟩ := List.getElem?_eq_some_iff.mp hs
              rw [List.getElem_singleton] at hnew
              rw [callsOf_of_length_le hr i (not_lt.mp hi), ← hnew]
              exact hcreate config nowMs w.disk
      | call j c =>
          simp only [recording, World.next] at hs ⊢
          obtain ⟨writer, hwriter⟩ : ∃ writer, w.sessions[j]? = some writer :=
            ⟨_, List.getElem?_eq_getElem hg⟩
          obtain ⟨hwell, hlen⟩ := hplaced writer (List.mem_of_getElem? hwriter)
          rw [hwriter] at hs ⊢
          simp only at hs ⊢
          by_cases hij : j = i
          · subst hij
            have hcalls : callsOf j (es ++ [.call j c]) = callsOf j es ++ [c] := by
              rw [callsOf_append]
              simp [callsOf]
            rw [List.getElem?_set_self hg, Option.some.injEq] at hs
            rw [hcalls, ← hs]
            exact hcall _ _ _ _ c hwell (ih j writer hwriter)
          · have hcalls : callsOf i (es ++ [.call j c]) = callsOf i es := by
              rw [callsOf_append]
              simp [callsOf, hij]
            rw [List.getElem?_set_ne hij] at hs
            rw [hcalls]
            -- another session's call writes below another directory
            refine hother _ _ _ _ (ih i s hs) ?_
            obtain ⟨-, hlen'⟩ := hplaced s (List.mem_of_getElem? hs)
            refine SessionWriter.sameUnder_call text _ w.disk hwell (hlen'.trans hlen.symm) ?_ c
            intro hdir
            have hlt : i < (w.sessions.map SessionWriter.dir).length := by
              rw [List.length_map]
              exact (List.getElem?_eq_some_iff.mp hs).1
            refine hij (Eq.symm ((List.getElem?_inj hlt hown).mp ?_))
            rw [List.getElem?_map, List.getElem?_map, hs, hwriter, Option.map_some,
              Option.map_some, hdir]

/-- **What every session of a run has left.** -/
theorem recorded_of_run {es : List (Event D)} {w : World D}
    (h : (recording zone base text).Run es w)
    (hapart : (startTimes es).Pairwise fun a b => localSecond zone a ≠ localSecond zone b)
    {i : ℕ} {s : SessionWriter D} (hs : w.sessions[i]? = some s) :
    ∃ kept pend, Recorded s w.disk (callsOf i es) kept pend ∧
      Tallies s (ledgerOf (callsOf i es)) kept pend ∧
      (InTurn (callsOf i es) → Ordered s (callsOf i es) kept pend) := by
  refine session_of_run (P := fun s disk calls => ∃ kept pend, Recorded s disk calls kept pend ∧
    Tallies s (ledgerOf calls) kept pend ∧ (InTurn calls → Ordered s calls kept pend))
    ?_ ?_ ?_ h hapart i s hs
  · intro config nowMs disk
    exact ⟨[], [], recorded_create zone base config nowMs disk,
      tallies_create zone base config nowMs, fun _ => ⟨List.prefix_refl _, fun _ => rfl⟩⟩
  · rintro s disk calls anchorMs c - ⟨kept, pend, hrec, htallies, hord⟩
    refine ⟨_, _, hrec.call text anchorMs c, ?_, fun hturn => ?_⟩
    · rw [ledgerOf_concat]
      exact htallies.call text anchorMs disk c
    · refine (hord fun k hk => hturn k (List.mem_append_left _ hk)).call text _ hrec c ?_
      rintro k rfl
      exact hturn k (List.mem_append_right _ List.mem_cons_self)
  · rintro s disk disk' calls ⟨kept, pend, hrec, hrest⟩ hdisk
    exact ⟨kept, pend, hrec.of_sameUnder hdisk, hrest⟩

/-- A session whose settings have JSON texts has its description once it is written. -/
theorem described_of_run {es : List (Event D)} {w : World D}
    (h : (recording zone base text).Run es w)
    (hapart : (startTimes es).Pairwise fun a b => localSecond zone a ≠ localSecond zone b)
    {i : ℕ} {s : SessionWriter D} (hs : w.sessions[i]? = some s)
    (hconfig : s.config.Encodes text) : Described s w.disk := by
  refine session_of_run (P := fun s disk _ => s.config.Encodes text → Described s disk)
    ?_ ?_ ?_ h hapart i s hs hconfig
  · exact fun config nowMs disk _ => described_create zone base config nowMs disk
  · intro s disk calls anchorMs c hplaced ih hconfig
    rw [config_call] at hconfig
    exact (ih hconfig).call hplaced hconfig anchorMs c
  · exact fun s disk disk' _ ih hdisk hconfig => (ih hconfig).of_sameUnder hdisk

end Runs

end SessionFiles
