/-
# The files of a recording session

Transcribed from `app/logger/lib/src/session/session_writer.dart` and
`mono_clock.dart`.  A recording session of the phone's logger writes its files under
one directory, `logger_sessions/<session_id>`, and the identifier is the local
wall-clock time at which the session's clock was reset.  The comment over it promises
milliseconds, for the sake of uniqueness; the text that is built stops at the second.
Making a directory that exists is no error, and the five logs are opened with
`FileMode.write`, which empties a file that exists.

* `SessionWriter.create`, `SessionWriter.call` : one session's writer, its sinks and
  what a call does to the disk, with every write that a call leaves for later
  (`frameSaved`, `drain`, `metaSaved`, `flushed`) as a call of its own, so that the writes
  of several sessions may come in any order;
* `World`, `recording` : the sessions of one phone and its one clock;
* `World.OwnDirectories`, `World.Kept` : no two sessions have one directory, and a step
  made for a session leaves the files of the earlier ones as they were;
* `sessionDir_eq_iff` : two times give one directory exactly if they fall in one second
  of the local wall clock.

The offset of local time from UTC at each moment (`zone`, in seconds) and the text of a
floating-point number (`text`) are parameters.
-/
import Rvln.CivilTime
import Rvln.FileSink
import Rvln.Machine

namespace SessionFiles

/-! ## Texts -/

/-- The bytes of a text, in UTF-8. -/
def utf8 (s : String) : List UInt8 := Utf8.encode s.toList

/-- `toString().padLeft(width, '0')` of an integer. -/
def padLeft (width : ℕ) (a : ℤ) : String := String.ofList (paddedInt width a)

/-- A hexadecimal digit, as the JSON encoder writes it. -/
def hexDigit (n : ℕ) : Char := Char.ofNat (if n < 10 then 48 + n else 87 + n)

/-- A character inside a JSON string. -/
def jsonChar (c : Char) : List Char :=
  if c = '"' ∨ c = '\\' then ['\\', c]
  else if c.toNat = 8 then ['\\', 'b']
  else if c.toNat = 9 then ['\\', 't']
  else if c.toNat = 10 then ['\\', 'n']
  else if c.toNat = 12 then ['\\', 'f']
  else if c.toNat = 13 then ['\\', 'r']
  else if c.toNat < 32 then ['\\', 'u', '0', '0', hexDigit (c.toNat / 16), hexDigit (c.toNat % 16)]
  else [c]

/-- A JSON string. -/
def jsonString (s : String) : String := String.ofList ('"' :: s.toList.flatMap jsonChar ++ ['"'])

/-- `jsonEncode` of a map whose values are encoded already. -/
def jsonEncode (fields : List (String × String)) : String :=
  "\x7b" ++ String.intercalate "," (fields.map fun f => jsonString f.1 ++ ":" ++ f.2) ++ "\x7d"

/-- `JsonEncoder.withIndent('  ')` of a map that is not empty, whose values are encoded
already, at a depth. -/
def jsonIndented (depth : ℕ) (fields : List (String × String)) : String :=
  let indent := String.ofList (List.replicate (2 * depth) ' ')
  let entries := fields.map fun f => indent ++ "  " ++ jsonString f.1 ++ ": " ++ f.2
  "\x7b\n" ++ String.intercalate ",\n" entries ++ "\n" ++ indent ++ "\x7d"

/-- A line of a comma-separated file. -/
def csvRow (fields : List String) : String := String.intercalate "," fields

/-! ## The writer of a session -/

/-- The settings a writer puts into `meta.json`. -/
structure LoggerConfig (D : Type) where
  cameraHz : D
  poseHz : D
  imuHz : D
  gnssHz : D
  jpegQuality : ℤ
  embodiment : String

/-- The five files a session keeps open, in the order `finish` closes them. -/
inductive Log
  | framesCsv
  | poseCsv
  | imuCsv
  | gnssCsv
  | labels
  deriving DecidableEq, Repr

namespace Log

/-- Where a log is in its session's directory. -/
def file : Log → DiskPath
  | framesCsv => ["camera", "frames.csv"]
  | poseCsv => ["pose", "pose.csv"]
  | imuCsv => ["imu", "imu.csv"]
  | gnssCsv => ["gnss", "gnss.csv"]
  | labels => ["labels.jsonl"]

/-- The first line of a log. -/
def header : Log → Option String
  | framesCsv => some "frame_no,t_mono_ns,width,height"
  | poseCsv => some "t_mono_ns,tx,ty,tz,qx,qy,qz,qw,tracking_state"
  | imuCsv => some "t_mono_ns,ax,ay,az,gx,gy,gz,mx,my,mz"
  | gnssCsv => some "t_mono_ns,lat,lon,alt,acc,speed,bearing"
  | labels => none

def all : List Log := [framesCsv, poseCsv, imuCsv, gnssCsv, labels]

end Log

/-- An open session.  `savingFrames` are the calls of `addFrame` whose JPEG is not on the
disk yet, each with its number, its bytes and the row to come; `savingMeta` is the text of
`meta.json` while it is being written; `unflushed` are the logs that `finish` has not
come to, the only ones that still take rows. -/
structure SessionWriter (D : Type) where
  dir : DiskPath
  config : LoggerConfig D
  sinks : Log → Sink
  frameNo : ℕ
  poseNo : ℕ
  audioNo : ℕ
  closed : Bool
  savingFrames : List (ℕ × List UInt8 × String)
  savingMeta : Option String
  unflushed : List Log

/-- The second of local time in which a moment falls, both counted from 1970. -/
def localSecond (zone : ℤ → ℤ) (ms : ℤ) : ℤ := ms / 1000 + zone ms

/-- The identifier of a session that starts at a local time. -/
def sessionId (ts : CivilTime) : String :=
  "sess_" ++ padLeft 4 ts.date.year ++ padLeft 2 ts.date.month ++ padLeft 2 ts.date.day ++ "_" ++
    padLeft 2 ts.hour ++ padLeft 2 ts.minute ++ padLeft 2 ts.second

/-- The directory of a session whose clock was reset at `ms`. -/
def sessionDir (zone : ℤ → ℤ) (base : DiskPath) (ms : ℤ) : DiskPath :=
  base ++ ["logger_sessions", sessionId (CivilTime.ofSeconds (localSecond zone ms))]

namespace SessionWriter

variable {D : Type}

/-- A row for a log, for later. -/
def writeln (w : SessionWriter D) (log : Log) (row : String) : SessionWriter D :=
  -- a sink that is being flushed or is closed raises, and the row is lost
  if log ∈ w.unflushed then
    { w with sinks := Function.update w.sinks log ((w.sinks log).add (utf8 (row ++ "\n"))) }
  else w

/-- The sink of a log as `create` leaves it, with the log's first line in it. -/
def openLog (dir : DiskPath) (log : Log) : Sink :=
  match log.header with
  | some header => (Sink.openWrite (dir ++ log.file)).add (utf8 (header ++ "\n"))
  | none => Sink.openWrite (dir ++ log.file)

/-- `create`, of a session whose clock was reset at `anchorMs`.  The directories are made
whether they exist or not. -/
def create (zone : ℤ → ℤ) (base : DiskPath) (config : LoggerConfig D) (anchorMs : ℤ) :
    SessionWriter D where
  dir := sessionDir zone base anchorMs
  config := config
  sinks := openLog (sessionDir zone base anchorMs)
  frameNo := 0
  poseNo := 0
  audioNo := 0
  closed := false
  savingFrames := []
  savingMeta := none
  unflushed := Log.all

/-- The file of a frame. -/
def framePath (w : SessionWriter D) (no : ℕ) : DiskPath :=
  w.dir ++ ["camera", "frames", padLeft 8 no ++ ".jpg"]

/-- `addFrame`, up to the write of the JPEG, and the number it will return. -/
def addFrame (w : SessionWriter D) (jpeg : List UInt8) (tNs width height : ℤ) :
    ℕ × SessionWriter D :=
  let no := w.frameNo
  let row := csvRow [no.repr, tNs.repr, width.repr, height.repr]
  (no, { w with frameNo := no + 1, savingFrames := w.savingFrames ++ [(no, jpeg, row)] })

/-- `addFrame`, from the write of the JPEG on. -/
def frameSaved (w : SessionWriter D) (disk : Disk) (k : ℕ) : SessionWriter D × Disk :=
  match w.savingFrames[k]? with
  | some (no, jpeg, row) =>
      (({ w with savingFrames := w.savingFrames.eraseIdx k }).writeln .framesCsv row,
        disk.put (w.framePath no) jpeg)
  | none => (w, disk)

/-- `addPose`. -/
def addPose (text : D → String) (w : SessionWriter D) (tNs : ℤ) (tx ty tz qx qy qz qw : D)
    (trackingState : String) : SessionWriter D :=
  ({ w with poseNo := w.poseNo + 1 }).writeln .poseCsv
    (csvRow ([tNs.repr] ++ [tx, ty, tz, qx, qy, qz, qw].map text ++ [trackingState]))

/-- `addImu`. -/
def addImu (text : D → String) (w : SessionWriter D) (tNs : ℤ) (ax ay az gx gy gz mx my mz : D) :
    SessionWriter D :=
  w.writeln .imuCsv (csvRow ([tNs.repr] ++ [ax, ay, az, gx, gy, gz, mx, my, mz].map text))

/-- `addGnss`. -/
def addGnss (text : D → String) (w : SessionWriter D) (tNs : ℤ)
    (lat lon alt acc speed bearing : D) : SessionWriter D :=
  w.writeln .gnssCsv (csvRow ([tNs.repr] ++ [lat, lon, alt, acc, speed, bearing].map text))

/-- The path of a clip inside the session's directory. -/
def audioFile (no : ℕ) : DiskPath := ["audio", padLeft 4 no ++ ".wav"]

/-- `nextAudioPath`, with the absolute and the relative path it returns. -/
def nextAudioPath (w : SessionWriter D) : (DiskPath × DiskPath) × SessionWriter D :=
  ((w.dir ++ audioFile w.audioNo, audioFile w.audioNo), { w with audioNo := w.audioNo + 1 })

/-- `addLabel`. -/
def addLabel (w : SessionWriter D) (tStartNs tEndNs : ℤ) (prompt : String)
    (audioClip transcript : Option String) (source : String) : SessionWriter D :=
  w.writeln .labels (jsonEncode
    ([("t_start_mono_ns", tStartNs.repr), ("t_end_mono_ns", tEndNs.repr),
        ("prompt", jsonString prompt)] ++
      (audioClip.map fun s => ("audio_clip", jsonString s)).toList ++
      (transcript.map fun s => ("transcript", jsonString s)).toList ++
      [("source", jsonString source)]))

/-- The text of `meta.json`, at a time of the session's clock. -/
def metaText (text : D → String) (w : SessionWriter D) (anchorMs : ℤ) (platform appVersion : String)
    (nowNs : ℤ) : String :=
  jsonIndented 0
    [("session_id", jsonString (w.dir.getLastD "")),
      ("app_version", jsonString appVersion),
      ("platform", jsonString platform),
      ("embodiment", jsonString w.config.embodiment),
      ("clock", jsonString "mono_ns_from_session_start"),
      ("wall_anchor_ms", anchorMs.repr),
      ("session_start_mono_ns", "0"),
      ("session_end_mono_ns", nowNs.repr),
      ("config", jsonIndented 1
        [("camera_hz", text w.config.cameraHz),
          ("pose_hz", text w.config.poseHz),
          ("imu_hz", text w.config.imuHz),
          ("gnss_hz", text w.config.gnssHz),
          ("jpeg_quality", w.config.jpegQuality.repr)]),
      ("frame_count", w.frameNo.repr),
      ("pose_count", w.poseNo.repr),
      ("audio_count", w.audioNo.repr)]

/-- `finish`, up to the write of `meta.json`. -/
def finish (text : D → String) (w : SessionWriter D) (anchorMs : ℤ) (platform appVersion : String)
    (nowNs : ℤ) : SessionWriter D :=
  if w.closed then w
  else
    { w with
      closed := true
      savingMeta := some (w.metaText text anchorMs platform appVersion nowNs) }

/-- `finish`, from the write of `meta.json` on: the first log is flushed. -/
def metaSaved (w : SessionWriter D) (disk : Disk) : SessionWriter D × Disk :=
  match w.savingMeta with
  | some content =>
      ({ w with savingMeta := none, unflushed := w.unflushed.tail },
        disk.put (w.dir ++ ["meta.json"]) (utf8 content))
  | none => (w, disk)

/-- `finish`, from the end of a flush on: the log is closed and the next one is flushed. -/
def flushed (w : SessionWriter D) : SessionWriter D :=
  if w.unflushed ≠ Log.all ∧
      ∀ log ∈ Log.all, log ∉ w.unflushed → (w.sinks log).opened ∧ (w.sinks log).queue = [] then
    { w with unflushed := w.unflushed.tail }
  else w

/-- A sink does the next thing it has to do. -/
def drain (w : SessionWriter D) (disk : Disk) (log : Log) : SessionWriter D × Disk :=
  let done := (w.sinks log).drain disk
  ({ w with sinks := Function.update w.sinks log done.1 }, done.2)

end SessionWriter

/-- What can happen to an open session: the calls of its writer, and the ends of the writes
that they leave for later. -/
inductive Call (D : Type)
  | addFrame (jpeg : List UInt8) (tNs width height : ℤ)
  /-- The write of the `k`-th JPEG under way is done. -/
  | frameSaved (k : ℕ)
  | addPose (tNs : ℤ) (tx ty tz qx qy qz qw : D) (trackingState : String)
  | addImu (tNs : ℤ) (ax ay az gx gy gz mx my mz : D)
  | addGnss (tNs : ℤ) (lat lon alt acc speed bearing : D)
  | nextAudioPath
  /-- The recorder writes to the path that the `no`-th `nextAudioPath` gave. -/
  | audioSaved (no : ℕ) (wav : List UInt8)
  | addLabel (tStartNs tEndNs : ℤ) (prompt : String) (audioClip transcript : Option String)
      (source : String)
  | drain (log : Log)
  | finish (platform appVersion : String) (nowNs : ℤ)
  | metaSaved
  | flushed

/-- One call, on a disk, while the phone's clock has the anchor `anchorMs`. -/
def SessionWriter.call {D : Type} (text : D → String) (anchorMs : ℤ) (w : SessionWriter D)
    (disk : Disk) : Call D → SessionWriter D × Disk
  | .addFrame jpeg tNs width height => ((w.addFrame jpeg tNs width height).2, disk)
  | .frameSaved k => w.frameSaved disk k
  | .addPose tNs tx ty tz qx qy qz qw trackingState =>
      (w.addPose text tNs tx ty tz qx qy qz qw trackingState, disk)
  | .addImu tNs ax ay az gx gy gz mx my mz =>
      (w.addImu text tNs ax ay az gx gy gz mx my mz, disk)
  | .addGnss tNs lat lon alt acc speed bearing =>
      (w.addGnss text tNs lat lon alt acc speed bearing, disk)
  | .nextAudioPath => (w.nextAudioPath.2, disk)
  | .audioSaved no wav =>
      (w, if no < w.audioNo then disk.put (w.dir ++ SessionWriter.audioFile no) wav else disk)
  | .addLabel tStartNs tEndNs prompt audioClip transcript source =>
      (w.addLabel tStartNs tEndNs prompt audioClip transcript source, disk)
  | .drain log => w.drain disk log
  | .finish platform appVersion nowNs => (w.finish text anchorMs platform appVersion nowNs, disk)
  | .metaSaved => w.metaSaved disk
  | .flushed => (w.flushed, disk)

/-! ## The sessions of a phone -/

/-- The disk, the anchor of the one clock, and the sessions in the order they were
started. -/
structure World (D : Type) where
  disk : Disk
  wallAnchorMs : ℤ
  sessions : List (SessionWriter D)

/-- What happens on the phone: a session is started at a wall-clock time, or something
happens to a session. -/
inductive Event (D : Type)
  | start (nowMs : ℤ) (config : LoggerConfig D)
  | call (j : ℕ) (c : Call D)

namespace World

variable {D : Type} (zone : ℤ → ℤ) (base : DiskPath) (text : D → String)

/-- One event. -/
def next (w : World D) : Event D → World D
  | .start nowMs config =>
      -- `reset` of the clock, then `create` with it
      { w with
        wallAnchorMs := nowMs
        sessions := w.sessions ++ [SessionWriter.create zone base config nowMs] }
  | .call j c =>
      match w.sessions[j]? with
      | some writer =>
          let done := writer.call text w.wallAnchorMs w.disk c
          { w with disk := done.2, sessions := w.sessions.set j done.1 }
      | none => w

/-- Something happens only to sessions that have been started. -/
def Guard (w : World D) : Event D → Prop
  | .start _ _ => True
  | .call j _ => j < w.sessions.length

instance (w : World D) : ∀ e, Decidable (w.Guard e)
  | .start _ _ => inferInstanceAs (Decidable True)
  | .call j _ => inferInstanceAs (Decidable (j < w.sessions.length))

/-- The session an event is made for. -/
def sessionOf (w : World D) : Event D → ℕ
  | .start _ _ => w.sessions.length
  | .call j _ => j

/-- No two sessions have one directory. -/
def OwnDirectories (w : World D) : Prop := (w.sessions.map SessionWriter.dir).Nodup

/-- An event leaves the files of every session before the one it is made for as they
were. -/
def Kept (w : World D) (e : Event D) : Prop :=
  ∀ i < w.sessionOf e, ∀ earlier, w.sessions[i]? = some earlier →
    Disk.SameUnder earlier.dir w.disk (w.next zone base text e).disk

end World

/-- The phone, from any disk on. -/
def recording {D : Type} (zone : ℤ → ℤ) (base : DiskPath) (text : D → String) :
    Machine (World D) (Event D) where
  Init w := w.sessions = []
  Guard := World.Guard
  next := World.next zone base text

instance {D : Type} (zone : ℤ → ℤ) (base : DiskPath) (text : D → String) (w : World D)
    (e : Event D) : Decidable ((recording zone base text).Guard w e) :=
  inferInstanceAs (Decidable (w.Guard e))

/-- The wall-clock times at which the sessions of a run are started, in milliseconds. -/
def startTimes {D : Type} (es : List (Event D)) : List ℤ :=
  es.filterMap fun
    | .start nowMs _ => some nowMs
    | .call _ _ => none

/-! ## Identifiers -/

/-- **An identifier determines its local time**: the fields behind the year have a fixed
width, so the year ends at one place in two equal identifiers. -/
theorem sessionId_injOn {t u : CivilTime} (ht : t.TwoDigits) (hu : u.TwoDigits)
    (h : sessionId t = sessionId u) : t = u := by
  have hlen {a b : ℤ} (ha : 0 ≤ a ∧ a < 100) (hb : 0 ≤ b ∧ b < 100) :
      (paddedInt 2 a).length = (paddedInt 2 b).length := by
    rw [length_paddedInt_two ha.1 ha.2, length_paddedInt_two hb.1 hb.2]
  have hchars := congrArg String.toList h
  simp only [sessionId, padLeft, String.toList_append, String.toList_ofList] at hchars
  simp only [CivilTime.TwoDigits, List.forall_mem_cons] at ht hu
  obtain ⟨hmonth, hday, hhour, hminute, hsecond, -⟩ := ht
  obtain ⟨hmonth', hday', hhour', hminute', hsecond', -⟩ := hu
  obtain ⟨hchars, h₆⟩ := List.append_inj' hchars (hlen hsecond hsecond')
  obtain ⟨hchars, h₅⟩ := List.append_inj' hchars (hlen hminute hminute')
  obtain ⟨hchars, h₄⟩ := List.append_inj' hchars (hlen hhour hhour')
  obtain ⟨hchars, -⟩ := List.append_inj' hchars rfl
  obtain ⟨hchars, h₃⟩ := List.append_inj' hchars (hlen hday hday')
  obtain ⟨hchars, h₂⟩ := List.append_inj' hchars (hlen hmonth hmonth')
  have h₁ := List.append_cancel_left hchars
  obtain ⟨⟨year, month, day⟩, hour, minute, second⟩ := t
  obtain ⟨⟨year', month', day'⟩, hour', minute', second'⟩ := u
  obtain rfl := paddedInt_injective 4 h₁
  obtain rfl := paddedInt_injective 2 h₂
  obtain rfl := paddedInt_injective 2 h₃
  obtain rfl := paddedInt_injective 2 h₄
  obtain rfl := paddedInt_injective 2 h₅
  obtain rfl := paddedInt_injective 2 h₆
  rfl

/-- **What a directory tells**: two sessions have one directory exactly if their clocks
were reset in one second of the local wall clock. -/
theorem sessionDir_eq_iff {zone : ℤ → ℤ} {base : DiskPath} {a b : ℤ} :
    sessionDir zone base a = sessionDir zone base b ↔ localSecond zone a = localSecond zone b := by
  constructor
  · intro h
    have hlast := List.append_cancel_left h
    simp only [List.cons.injEq, true_and, and_true] at hlast
    exact CivilTime.ofSeconds_injective
      (sessionId_injOn (CivilTime.ofSeconds_twoDigits _) (CivilTime.ofSeconds_twoDigits _) hlast)
  · intro h
    rw [sessionDir, h, sessionDir]

/-- All directories are of one depth. -/
theorem length_sessionDir (zone : ℤ → ℤ) (base : DiskPath) (ms : ℤ) :
    (sessionDir zone base ms).length = base.length + 2 := by
  rw [sessionDir, List.length_append]
  rfl

/-! ## What a call writes -/

namespace SessionWriter

variable {D : Type} {w : SessionWriter D}

/-- Every log of a session is in its directory. -/
def WellPlaced (w : SessionWriter D) : Prop := ∀ log, (w.sinks log).path = w.dir ++ log.file

theorem create_wellPlaced (zone : ℤ → ℤ) (base : DiskPath) (config : LoggerConfig D)
    (anchorMs : ℤ) : (create zone base config anchorMs).WellPlaced := by
  intro log
  cases log <;> rfl

/-- Two states of a writer, with one directory and one place for each log. -/
def SamePlace (w w' : SessionWriter D) : Prop :=
  w'.dir = w.dir ∧ ∀ log, (w'.sinks log).path = (w.sinks log).path

theorem SamePlace.wellPlaced {w' : SessionWriter D} (h : w.SamePlace w') (hw : w.WellPlaced) :
    w'.WellPlaced := by
  intro log
  rw [h.2, h.1]
  exact hw log

/-- A sink put in the place of one with its path. -/
theorem path_update (sinks : Log → Sink) (log : Log) (sink : Sink)
    (h : sink.path = (sinks log).path) (other : Log) :
    (Function.update sinks log sink other).path = (sinks other).path := by
  by_cases ho : other = log
  · rw [ho, Function.update_self, h]
  · rw [Function.update_of_ne ho]

theorem samePlace_writeln (w : SessionWriter D) (log : Log) (row : String) :
    w.SamePlace (w.writeln log row) := by
  unfold writeln
  split
  · exact ⟨rfl, path_update w.sinks log _ rfl⟩
  · exact ⟨rfl, fun _ => rfl⟩

/-- A call leaves the writer where it is. -/
theorem samePlace_call (text : D → String) (anchorMs : ℤ) (w : SessionWriter D) (disk : Disk)
    (c : Call D) : w.SamePlace (w.call text anchorMs disk c).1 := by
  cases c with
  | addFrame | nextAudioPath | audioSaved => exact ⟨rfl, fun _ => rfl⟩
  | addPose | addImu | addGnss | addLabel => exact samePlace_writeln _ _ _
  | frameSaved k =>
      simp only [call, frameSaved]
      split
      · exact samePlace_writeln _ _ _
      · exact ⟨rfl, fun _ => rfl⟩
  | drain log => exact ⟨rfl, path_update w.sinks log _ (Sink.drain_path _ _)⟩
  | finish =>
      simp only [call, finish]
      split <;> exact ⟨rfl, fun _ => rfl⟩
  | metaSaved =>
      simp only [call, metaSaved]
      split <;> exact ⟨rfl, fun _ => rfl⟩
  | flushed =>
      simp only [call, flushed]
      split <;> exact ⟨rfl, fun _ => rfl⟩

/-- **A session writes in its own directory only**: a call leaves every file under another
directory as it was. -/
theorem sameUnder_call (text : D → String) (anchorMs : ℤ) (disk : Disk) (hw : w.WellPlaced)
    {dir : DiskPath} (hlen : dir.length = w.dir.length) (hne : dir ≠ w.dir) (c : Call D) :
    Disk.SameUnder dir disk (w.call text anchorMs disk c).2 := by
  have hout (rest : DiskPath) : ¬ dir <+: w.dir ++ rest :=
    Disk.not_prefix_of_ne hlen hne (List.prefix_append _ _)
  cases c with
  | addFrame | addPose | addImu | addGnss | nextAudioPath | addLabel | finish | flushed =>
      exact Disk.SameUnder.refl dir disk
  | frameSaved k =>
      simp only [call, frameSaved]
      split
      · exact Disk.sameUnder_put (hout _) disk _
      · exact Disk.SameUnder.refl dir disk
  | audioSaved no wav =>
      simp only [call]
      split
      · exact Disk.sameUnder_put (hout _) disk _
      · exact Disk.SameUnder.refl dir disk
  | drain log =>
      refine Sink.sameUnder_drain ?_ disk
      rw [hw log]
      exact hout _
  | metaSaved =>
      simp only [call, metaSaved]
      split
      · exact Disk.sameUnder_put (hout _) disk _
      · exact Disk.SameUnder.refl dir disk

end SessionWriter

/-! ## Runs -/

section Runs

variable {D : Type} {zone : ℤ → ℤ} {base : DiskPath} {text : D → String}

theorem startTimes_append (es fs : List (Event D)) :
    startTimes (es ++ fs) = startTimes es ++ startTimes fs :=
  List.filterMap_append

/-- A step leaves every session in its directory and may add one. -/
theorem dirs_next (w : World D) (e : Event D) :
    (w.next zone base text e).sessions.map SessionWriter.dir =
      w.sessions.map SessionWriter.dir ++ (startTimes [e]).map (sessionDir zone base) := by
  cases e with
  | start nowMs config =>
      simp only [World.next, List.map_append]
      rfl
  | call j c =>
      simp only [World.next, startTimes, List.filterMap_cons, List.filterMap_nil, List.map_nil,
        List.append_nil]
      split
      · next writer hwriter =>
          rw [List.map_set, (SessionWriter.samePlace_call text _ writer _ c).1]
          obtain ⟨hj, rfl⟩ := List.getElem?_eq_some_iff.mp hwriter
          have hj' : j < (w.sessions.map SessionWriter.dir).length := by
            rwa [List.length_map]
          rw [← List.getElem_map SessionWriter.dir (h := hj'), List.set_getElem_self]
      · rfl

/-- The sessions of a run are in the directories of their starts. -/
theorem dirs_of_run {es : List (Event D)} {w : World D}
    (h : (recording zone base text).Run es w) :
    w.sessions.map SessionWriter.dir = (startTimes es).map (sessionDir zone base) := by
  induction h with
  | @init w hw =>
      rw [show w.sessions = [] from hw]
      rfl
  | @snoc es w e _ _ ih =>
      rw [startTimes_append, List.map_append, ← ih]
      exact dirs_next w e

/-- **No shared directory means no shared second**: in a run, every session has its own
directory exactly if no two sessions are started in one second of the local wall clock. -/
theorem ownDirectories_iff {es : List (Event D)} {w : World D}
    (h : (recording zone base text).Run es w) :
    w.OwnDirectories ↔
      (startTimes es).Pairwise fun a b => localSecond zone a ≠ localSecond zone b := by
  rw [World.OwnDirectories, dirs_of_run h, List.Nodup, List.pairwise_map]
  simp only [ne_eq, sessionDir_eq_iff]

/-- Every session has its logs in its directory, and the directories are of one depth. -/
def World.Placed (base : DiskPath) (w : World D) : Prop :=
  ∀ s ∈ w.sessions, s.WellPlaced ∧ s.dir.length = base.length + 2

theorem recording_placed : (recording zone base text).Invariant (World.Placed base) where
  init w hw s hs := by
    rw [show w.sessions = [] from hw] at hs
    cases hs
  step w e hI _ := by
    intro s hs
    cases e with
    | start nowMs config =>
        rcases List.mem_append.mp hs with hold | hnew
        · exact hI s hold
        · rw [List.mem_singleton.mp hnew]
          exact ⟨SessionWriter.create_wellPlaced zone base config nowMs,
            length_sessionDir zone base nowMs⟩
    | call j c =>
        simp only [recording, World.next] at hs
        split at hs
        · next writer hwriter =>
            rcases List.mem_or_eq_of_mem_set hs with hold | rfl
            · exact hI s hold
            · obtain ⟨hplaced, hlen⟩ := hI writer (List.mem_of_getElem? hwriter)
              have hsame := SessionWriter.samePlace_call text w.wallAnchorMs writer w.disk c
              refine ⟨hsame.wellPlaced hplaced, ?_⟩
              rw [hsame.1]
              exact hlen
        · exact hI s hs

/-- **One step**: while every session has its own directory, a step made for a session
leaves the files of the others as they were. -/
theorem kept_of_ownDirectories {w : World D} (hI : w.Placed base) (hown : w.OwnDirectories)
    (e : Event D) : w.Kept zone base text e := by
  intro i hi earlier hearlier
  cases e with
  | start nowMs config => exact Disk.SameUnder.refl _ _
  | call j c =>
      simp only [World.next]
      split
      · next writer hwriter =>
          obtain ⟨hplaced, hlen⟩ := hI writer (List.mem_of_getElem? hwriter)
          obtain ⟨-, hlen'⟩ := hI earlier (List.mem_of_getElem? hearlier)
          refine SessionWriter.sameUnder_call text _ w.disk hplaced (hlen'.trans hlen.symm) ?_ c
          intro hdir
          have hlt : i < (w.sessions.map SessionWriter.dir).length := by
            rw [List.length_map]
            exact (List.getElem?_eq_some_iff.mp hearlier).1
          have hij : i = j := by
            apply (List.getElem?_inj hlt hown).mp
            rw [List.getElem?_map, List.getElem?_map, hearlier, hwriter, Option.map_some,
              Option.map_some, hdir]
          exact Nat.ne_of_lt hi hij
      · exact Disk.SameUnder.refl _ _

/-- **When recordings are safe from each other**: every session has its own directory and
every step leaves the files of the earlier sessions as they were, exactly if no two
sessions are started in one second of the local wall clock. -/
theorem apart_iff_seconds_differ {es : List (Event D)} {w : World D}
    (h : (recording zone base text).Run es w) :
    (w.OwnDirectories ∧
        ((recording zone base text).restrict (World.Kept zone base text)).Run es w) ↔
      (startTimes es).Pairwise fun a b => localSecond zone a ≠ localSecond zone b := by
  constructor
  · rintro ⟨hown, -⟩
    exact (ownDirectories_iff h).mp hown
  · intro hseconds
    refine ⟨(ownDirectories_iff h).mpr hseconds, ?_⟩
    induction h with
    | init hw => exact .init hw
    | @snoc es w e hr hg ih =>
        rw [startTimes_append, List.pairwise_append] at hseconds
        have hown := (ownDirectories_iff hr).mpr hseconds.1
        exact (ih hseconds.1).snoc
          ⟨hg, kept_of_ownDirectories (recording_placed.of_run hr) hown e⟩

end Runs

/-! ## Two recordings within a second -/

/-- The settings of the app, each number by its text. -/
def defaultConfig : LoggerConfig String where
  cameraHz := "4.0"
  poseHz := "30.0"
  imuHz := "50.0"
  gnssHz := "1.0"
  jpegQuality := 85
  embodiment := "raspicat"

/-- A phone that keeps UTC and has an empty disk. -/
def emptyPhone : World String where
  disk := fun _ => none
  wallAnchorMs := 0
  sessions := []

/-- A recording of one frame that is started at 0 ms and finished. -/
def firstRecording : List (Event String) :=
  [.start 0 defaultConfig, .call 0 (.drain .framesCsv), .call 0 (.drain .framesCsv),
    .call 0 (.addFrame [0xFF, 0xD8, 0xFF, 0xD9] 1000 640 480), .call 0 (.frameSaved 0),
    .call 0 (.drain .framesCsv), .call 0 (.finish "android" "1.0.0" 400000000), .call 0 .metaSaved]

/-- A recording that is started at 500 ms, as far as its first log is opened. -/
def secondRecording : List (Event String) :=
  [.start 500 defaultConfig, .call 1 (.drain .framesCsv)]

/-- The table of frames of the first recording. -/
def firstFrames : DiskPath := sessionDir (fun _ => 0) [] 0 ++ ["camera", "frames.csv"]

/-- **Two recordings within a second share their files**: the times of their starts differ
in milliseconds, they have one directory, and opening the second one's table of frames
empties the finished table of the first. -/
theorem second_recording_empties_first :
    (recording (fun _ => 0) [] id).Run (firstRecording ++ secondRecording)
        ((recording (fun _ => 0) [] id).exec emptyPhone (firstRecording ++ secondRecording)) ∧
      (startTimes (firstRecording ++ secondRecording)).Pairwise (· ≠ ·) ∧
        ¬ ((recording (fun _ => 0) [] id).exec emptyPhone
            (firstRecording ++ secondRecording)).OwnDirectories ∧
          ((recording (fun _ => 0) [] id).exec emptyPhone firstRecording).disk firstFrames =
            some (utf8 "frame_no,t_mono_ns,width,height\n0,1000,640,480\n") ∧
          ((recording (fun _ => 0) [] id).exec emptyPhone
            (firstRecording ++ secondRecording)).disk firstFrames = some [] := by
  refine ⟨Machine.run_of_enabled rfl ?_, ?_, ?_, ?_, ?_⟩
  · decide
  · decide
  · show ¬ List.Nodup _
    decide
  · decide
  · decide

/-- A recording that is started at 1000 ms, as far as its first log is opened. -/
def laterRecording : List (Event String) :=
  [.start 1000 defaultConfig, .call 1 (.drain .framesCsv)]

/-- Two recordings a second apart do not touch each other. -/
theorem recordings_a_second_apart :
    ((recording (fun _ => 0) [] id).exec emptyPhone
        (firstRecording ++ laterRecording)).OwnDirectories ∧
      ((recording (fun _ => 0) [] id).restrict (World.Kept (fun _ => 0) [] id)).Run
        (firstRecording ++ laterRecording)
        ((recording (fun _ => 0) [] id).exec emptyPhone (firstRecording ++ laterRecording)) :=
  (apart_iff_seconds_differ (Machine.run_of_enabled rfl (by decide))).mpr (by decide)

end SessionFiles
