/-
# Files, and the buffered sinks that write them

A disk is a partial function from paths to contents; directories are not part of
it.  A file is written whole (`Disk.put`), or through a sink: opening it for
writing empties the file, and its pieces are then written one after the other
where the one before ended (`Sink.drain`).  A sink keeps its place when somebody
else empties its file, and the bytes before that place then read as zeros.  Texts are
in files by their bytes in UTF-8.

The rules say what a write leaves alone: `Disk.SameUnder dir` relates two disks
that agree on every file under `dir`; and what a sink has done when nobody else writes
its file: `Sink.Holds` relates the pieces a sink was given to its queue and its file.
-/
import Mathlib.Data.List.Infix
import Mathlib.Logic.Function.Basic

namespace Utf8

/-- The bytes of a text. -/
def encode (text : List Char) : List UInt8 := text.flatMap String.utf8EncodeChar

/-- The text of bytes; `none` when they are not those of a text. -/
def decode (bytes : List UInt8) : Option (List Char) :=
  bytes.toByteArray.utf8Decode?.map Array.toList

theorem decode_encode (text : List Char) : decode (encode text) = some text := by
  show (List.utf8Encode text).utf8Decode?.map Array.toList = some text
  rw [List.utf8Decode?_utf8Encode]
  rfl

end Utf8

/-- A path, from the root, one segment at a time. -/
abbrev DiskPath := List String

/-- The contents of the files of a disk. -/
abbrev Disk := DiskPath → Option (List UInt8)

namespace Disk

/-- The whole of a file is written; it is made when there is none. -/
def put (disk : Disk) (path : DiskPath) (content : List UInt8) : Disk :=
  Function.update disk path (some content)

/-- The bytes of a file after `piece` is written at `position`, past the end with zeros
in between. -/
def overwrite (content : List UInt8) (position : ℕ) (piece : List UInt8) : List UInt8 :=
  content.take position ++ List.replicate (position - content.length) 0 ++ piece ++
    content.drop (position + piece.length)

/-- A piece of a file is written. -/
def writeAt (disk : Disk) (path : DiskPath) (position : ℕ) (piece : List UInt8) : Disk :=
  disk.put path (overwrite ((disk path).getD []) position piece)

/-! ## What a write leaves alone -/

/-- Two disks agree on every file under a directory. -/
def SameUnder (dir : DiskPath) (disk disk' : Disk) : Prop :=
  ∀ path, dir <+: path → disk' path = disk path

theorem SameUnder.refl (dir : DiskPath) (disk : Disk) : SameUnder dir disk disk :=
  fun _ _ => rfl

/-- A file outside a directory is not one of the directory's files. -/
theorem sameUnder_put {dir path : DiskPath} (h : ¬ dir <+: path) (disk : Disk)
    (content : List UInt8) : SameUnder dir disk (disk.put path content) := by
  intro other hother
  refine Function.update_of_ne ?_ _ _
  rintro rfl
  exact h hother

/-- Two directories of one depth have a file in common only when they are one. -/
theorem not_prefix_of_ne {a b : DiskPath} (hlen : a.length = b.length) (hne : a ≠ b)
    {path : DiskPath} (hb : b <+: path) : ¬ a <+: path := by
  intro ha
  have hab : a <+: b := List.prefix_of_prefix_length_le ha hb (Nat.le_of_eq hlen)
  exact hne (hab.eq_of_length hlen)

end Disk

/-! ## Sinks -/

/-- A sink that writes a file: whether its file is open by now, the place it has
written up to, and the pieces that wait. -/
structure Sink where
  path : DiskPath
  opened : Bool
  position : ℕ
  queue : List (List UInt8)

namespace Sink

/-- The sink of a file to be written from its start. -/
def openWrite (path : DiskPath) : Sink where
  path := path
  opened := false
  position := 0
  queue := []

/-- A piece to be written after the ones that wait. -/
def add (sink : Sink) (piece : List UInt8) : Sink :=
  { sink with queue := sink.queue ++ [piece] }

/-- The next thing a sink has to do is done: its file is opened and with that emptied, or
the first piece that waits is written. -/
def drain (sink : Sink) (disk : Disk) : Sink × Disk :=
  if sink.opened then
    match sink.queue with
    | [] => (sink, disk)
    | piece :: rest =>
        ({ sink with position := sink.position + piece.length, queue := rest },
          disk.writeAt sink.path sink.position piece)
  else ({ sink with opened := true }, disk.put sink.path [])

@[simp] theorem drain_path (sink : Sink) (disk : Disk) :
    (sink.drain disk).1.path = sink.path := by
  unfold drain
  split
  · split <;> rfl
  · rfl

/-- A sink writes no file but its own. -/
theorem sameUnder_drain {dir : DiskPath} {sink : Sink} (h : ¬ dir <+: sink.path) (disk : Disk) :
    Disk.SameUnder dir disk (sink.drain disk).2 := by
  unfold drain
  split
  · split
    · exact Disk.SameUnder.refl dir disk
    · exact Disk.sameUnder_put h disk _
  · exact Disk.sameUnder_put h disk _

/-- A file that is not the sink's is left alone. -/
theorem drain_of_ne {sink : Sink} {path : DiskPath} (h : path ≠ sink.path) (disk : Disk) :
    (sink.drain disk).2 path = disk path := by
  unfold drain
  split
  · split
    · rfl
    · exact Function.update_of_ne h _ _
  · exact Function.update_of_ne h _ _

/-- A sink's file is nobody else's: what it was given is what its file holds, piece after
piece, and then what waits.  Before the file is open everything waits. -/
def Holds (sink : Sink) (disk : Disk) (pieces : List (List UInt8)) : Prop :=
  if sink.opened then
    ∃ done, pieces = done ++ sink.queue ∧ disk sink.path = some done.flatten ∧
      sink.position = done.flatten.length
  else sink.queue = pieces ∧ sink.position = 0

theorem holds_openWrite (path : DiskPath) (disk : Disk) : (openWrite path).Holds disk [] :=
  ⟨rfl, rfl⟩

theorem Holds.add {sink : Sink} {disk : Disk} {pieces : List (List UInt8)}
    (h : sink.Holds disk pieces) (piece : List UInt8) :
    (sink.add piece).Holds disk (pieces ++ [piece]) := by
  unfold Holds at h ⊢
  by_cases ho : sink.opened
  · rw [if_pos ho] at h
    rw [if_pos (show (sink.add piece).opened from ho)]
    obtain ⟨done, rfl, hfile, hpos⟩ := h
    exact ⟨done, List.append_assoc _ _ _, hfile, hpos⟩
  · rw [if_neg ho] at h
    rw [if_neg (show ¬ (sink.add piece).opened from ho), ← h.1]
    exact ⟨rfl, h.2⟩

/-- A piece written where the pieces before it end goes behind them. -/
theorem overwrite_length (content piece : List UInt8) :
    Disk.overwrite content content.length piece = content ++ piece := by
  simp [Disk.overwrite, List.drop_eq_nil_of_le]

theorem Holds.drain {sink : Sink} {disk : Disk} {pieces : List (List UInt8)}
    (h : sink.Holds disk pieces) : (sink.drain disk).1.Holds (sink.drain disk).2 pieces := by
  unfold Holds at h
  by_cases ho : sink.opened
  · rw [if_pos ho] at h
    obtain ⟨done, hpieces, hfile, hpos⟩ := h
    cases hq : sink.queue with
    | nil =>
        rw [Sink.drain, if_pos ho, hq]
        simp only [Holds, if_pos ho]
        exact ⟨done, hpieces, hfile, hpos⟩
    | cons piece rest =>
        rw [Sink.drain, if_pos ho, hq]
        simp only [Holds, if_pos ho]
        refine ⟨done ++ [piece], ?_, ?_, ?_⟩
        · rw [hpieces, hq, List.append_assoc, List.singleton_append]
        · rw [Disk.writeAt, Disk.put, Function.update_self, hfile, Option.getD_some, hpos,
            overwrite_length, List.flatten_append, List.flatten_singleton]
        · rw [hpos, List.flatten_append, List.flatten_singleton, List.length_append]
  · rw [if_neg ho] at h
    rw [Sink.drain, if_neg ho]
    simp only [Holds, if_true]
    exact ⟨[], by rw [h.1, List.nil_append], Function.update_self _ _ _, h.2⟩

/-- A write of another file. -/
theorem Holds.of_eq {sink : Sink} {disk disk' : Disk} {pieces : List (List UInt8)}
    (h : sink.Holds disk pieces) (hfile : disk' sink.path = disk sink.path) :
    sink.Holds disk' pieces := by
  unfold Holds at h ⊢
  rw [hfile]
  exact h

end Sink
