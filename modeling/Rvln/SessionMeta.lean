/-
# The description of a session

`finish` of `session_writer.dart` writes `meta.json` before it flushes the logs, and the viewer
opens a session by that file.

* `value_metaText` : what is written is a JSON text;
* `Described` : once it is written it stays, kept by every call of the session
  (`Described.call`) and by what other sessions write (`Described.of_sameUnder`).
-/
import Rvln.JsonGrammar
import Rvln.SessionDirectory

namespace SessionFiles

open JsonGrammar

/-! ## The text -/

/-- Every character is written as JSON wants it inside a string. -/
theorem chars_jsonChar (c : Char) : Chars (jsonChar c) := by
  have hescape {e : Char} (h : e ∈ ['"', '\\', '/', 'b', 'f', 'n', 'r', 't']) : Chars ['\\', e] :=
    .escape h .nil
  unfold jsonChar
  split_ifs with hquote hb ht hn hf hr hcontrol
  · rcases hquote with rfl | rfl <;> exact hescape (by decide)
  · exact hescape (by decide)
  · exact hescape (by decide)
  · exact hescape (by decide)
  · exact hescape (by decide)
  · exact hescape (by decide)
  · have hhex : ∀ n < 16, hexDigit n ∈ "0123456789abcdefABCDEF".toList := by decide
    refine @Chars.unicode ['0', '0', _, _] [] rfl ?_ .nil
    simp only [List.mem_cons, List.not_mem_nil, or_false, forall_eq_or_imp, forall_eq]
    exact ⟨by decide, by decide, hhex _ (by omega), hhex _ (by omega)⟩
  · exact .plain ⟨not_lt.mp hcontrol, not_or.mp hquote⟩ .nil

theorem quoted_jsonString (s : String) : Quoted (jsonString s).toList := by
  refine ⟨s.toList.flatMap jsonChar, chars_flatMap chars_jsonChar _, ?_⟩
  rw [jsonString, String.toList_ofList]
  rfl

theorem blank_replicate (n : ℕ) : Blank (List.replicate n ' ') := by
  intro c hc
  rw [List.eq_of_mem_replicate hc]
  decide

/-- A line of an indented object. -/
def memberLine (depth : ℕ) (f : String × String) : List Char :=
  List.replicate (2 * depth) ' ' ++ [' ', ' '] ++ (jsonString f.1).toList ++ [':', ' '] ++
    f.2.toList

theorem member_memberLine (depth : ℕ) {f : String × String} (hf : Value f.2.toList)
    {behind : List Char} (hbehind : Blank behind) :
    Member ('\n' :: memberLine depth f ++ behind) := by
  have hbefore : Blank ('\n' :: List.replicate (2 * depth + 2) ' ') := by
    intro c hc
    rcases List.mem_cons.mp hc with rfl | hc
    · decide
    · exact blank_replicate _ c hc
  have hmember := @Member.mk _ _ [] [' '] _ _ hbefore (quoted_jsonString f.1) (by simp [Blank])
    (by simp [Blank]) hf hbehind
  simpa [memberLine, List.replicate_add] using hmember

/-- An indented object is a value. -/
theorem value_jsonIndented (depth : ℕ) {fields : List (String × String)} (hne : fields ≠ [])
    (h : ∀ f ∈ fields, Value f.2.toList) : Value (jsonIndented depth fields).toList := by
  have htail : Blank ('\n' :: List.replicate (2 * depth) ' ') := by
    intro c hc
    rcases List.mem_cons.mp hc with rfl | hc
    · decide
    · exact blank_replicate _ c hc
  have hentries : ∀ entry ∈ fields.map (memberLine depth), ∀ behind, Blank behind →
      Member ('\n' :: entry ++ behind) := by
    intro entry hentry behind hbehind
    obtain ⟨f, hf, rfl⟩ := List.mem_map.mp hentry
    exact member_memberLine depth (h f hf) hbehind
  have hmembers := members_intercalate (by simpa using hne) hentries htail
  have hline : memberLine depth = fun f =>
      (String.ofList (List.replicate (2 * depth) ' ') ++ "  " ++ jsonString f.1 ++ ": " ++
        f.2).toList := by
    funext f
    simp [memberLine]
  have htext : (jsonIndented depth fields).toList =
      '{' :: (('\n' :: (List.intercalate [',', '\n'] (fields.map (memberLine depth)) ++
        '\n' :: List.replicate (2 * depth) ' ')) ++ ['}']) := by
    rw [hline]
    simp [jsonIndented, String.toList_intercalate, Function.comp_def]
  rw [htext]
  exact .object hmembers

variable {D : Type} {text : D → String}

/-- The settings' numbers have texts that JSON takes, which those of finite numbers are. -/
def LoggerConfig.Encodes (text : D → String) (config : LoggerConfig D) : Prop :=
  ∀ d ∈ [config.cameraHz, config.poseHz, config.imuHz, config.gnssHz], Number (text d).toList

/-- **What `finish` writes is a JSON text.** -/
theorem value_metaText {w : SessionWriter D} (h : w.config.Encodes text) (anchorMs : ℤ)
    (platform appVersion : String) (nowNs : ℤ) :
    Value (w.metaText text anchorMs platform appVersion nowNs).toList := by
  have hstring (s : String) : Value (jsonString s).toList := .string (quoted_jsonString s)
  have hint (a : ℤ) : Value a.repr.toList := .number (number_repr a)
  have hnat (n : ℕ) : Value n.repr.toList := hint n
  have hsetting {d : D} (hd : d ∈ [w.config.cameraHz, w.config.poseHz, w.config.imuHz,
      w.config.gnssHz]) : Value (text d).toList := .number (h d hd)
  refine value_jsonIndented 0 (by simp) ?_
  simp only [List.mem_cons, List.not_mem_nil, or_false, forall_eq_or_imp, forall_eq]
  refine ⟨hstring _, hstring _, hstring _, hstring _, hstring _, hint _, hint 0, hint _, ?_,
    hnat _, hnat _, hnat _⟩
  refine value_jsonIndented 1 (by simp) ?_
  simp only [List.mem_cons, List.not_mem_nil, or_false, forall_eq_or_imp, forall_eq]
  exact ⟨hsetting (by simp), hsetting (by simp), hsetting (by simp), hsetting (by simp), hint _⟩

/-! ## The file -/

/-- The description that is being written is a JSON text, and so is the one on the disk once
`finish` has come to the logs. -/
structure Described (s : SessionWriter D) (disk : Disk) : Prop where
  saving : ∀ content ∈ s.savingMeta, Value content.toList
  saved : s.unflushed ≠ Log.all → ∃ content : String, Value content.toList ∧
    disk (s.dir ++ ["meta.json"]) = some (utf8 content)

variable {s s' : SessionWriter D} {disk disk' : Disk}

/-- What has nothing to do with the description. -/
theorem Described.of_same (h : Described s disk) (hdir : s'.dir = s.dir)
    (hsaving : s'.savingMeta = s.savingMeta) (hflush : s'.unflushed = s.unflushed)
    (hdisk : disk' (s.dir ++ ["meta.json"]) = disk (s.dir ++ ["meta.json"])) :
    Described s' disk' where
  saving := by
    rw [hsaving]
    exact h.saving
  saved hne := by
    rw [hflush] at hne
    rw [hdir, hdisk]
    exact h.saved hne

/-- The fields of a writer that a row leaves alone. -/
theorem writeln_fields (s : SessionWriter D) (log : Log) (row : String) :
    (s.writeln log row).dir = s.dir ∧ (s.writeln log row).config = s.config ∧
      (s.writeln log row).frameNo = s.frameNo ∧ (s.writeln log row).closed = s.closed ∧
        (s.writeln log row).savingFrames = s.savingFrames ∧
          (s.writeln log row).savingMeta = s.savingMeta ∧
            (s.writeln log row).unflushed = s.unflushed := by
  unfold SessionWriter.writeln
  split <;> exact ⟨rfl, rfl, rfl, rfl, rfl, rfl, rfl⟩

theorem Described.writeln (h : Described s disk) (log : Log) (row : String) :
    Described (s.writeln log row) disk := by
  obtain ⟨hdir, -, -, -, -, hsaving, hflush⟩ := writeln_fields s log row
  exact h.of_same hdir hsaving hflush rfl

/-- Another file of the session is written. -/
theorem put_of_head {dir rest : DiskPath} (h : rest.head? ≠ some "meta.json") (disk : Disk)
    (content : List UInt8) :
    disk.put (dir ++ rest) content (dir ++ ["meta.json"]) = disk (dir ++ ["meta.json"]) := by
  refine Function.update_of_ne ?_ _ _
  intro heq
  rw [← List.append_cancel_left heq] at h
  exact h rfl

/-- The settings of a session stay. -/
theorem config_call (text : D → String) (anchorMs : ℤ) (s : SessionWriter D) (disk : Disk)
    (c : Call D) : (s.call text anchorMs disk c).1.config = s.config := by
  cases c with
  | addFrame | nextAudioPath | audioSaved | drain => rfl
  | addPose | addImu | addGnss | addLabel => exact (writeln_fields _ _ _).2.1
  | frameSaved k =>
      simp only [SessionWriter.call, SessionWriter.frameSaved]
      split
      · exact (writeln_fields _ _ _).2.1
      · rfl
  | finish =>
      simp only [SessionWriter.call, SessionWriter.finish]
      split <;> rfl
  | metaSaved =>
      simp only [SessionWriter.call, SessionWriter.metaSaved]
      split <;> rfl
  | flushed =>
      simp only [SessionWriter.call, SessionWriter.flushed]
      split <;> rfl

/-- **One call** of a session keeps its description. -/
theorem Described.call (h : Described s disk) (hplaced : s.WellPlaced)
    (hconfig : s.config.Encodes text) (anchorMs : ℤ) (c : Call D) :
    Described (s.call text anchorMs disk c).1 (s.call text anchorMs disk c).2 := by
  cases c with
  | addFrame | nextAudioPath => exact ⟨h.saving, h.saved⟩
  | addImu | addGnss | addLabel => exact h.writeln _ _
  | addPose =>
      have h' : Described { s with poseNo := s.poseNo + 1 } disk := ⟨h.saving, h.saved⟩
      exact h'.writeln _ _
  | frameSaved k =>
      simp only [SessionWriter.call, SessionWriter.frameSaved]
      split
      · have h' : Described { s with savingFrames := s.savingFrames.eraseIdx k } disk :=
          ⟨h.saving, h.saved⟩
        -- an image is not at the top of the directory, where `meta.json` is
        refine (h'.writeln _ _).of_same rfl rfl rfl ?_
        rw [(writeln_fields _ _ _).1]
        exact put_of_head (by simp) _ _
      · exact h
  | audioSaved no wav =>
      refine h.of_same rfl rfl rfl ?_
      simp only [SessionWriter.call]
      split
      · exact put_of_head (by simp [SessionWriter.audioFile]) _ _
      · rfl
  | drain log =>
      refine h.of_same rfl rfl rfl (Sink.drain_of_ne ?_ disk)
      rw [hplaced log]
      intro heq
      cases log <;> exact absurd (List.append_cancel_left heq) (by decide)
  | finish platform appVersion nowNs =>
      simp only [SessionWriter.call, SessionWriter.finish]
      split
      · exact h
      · refine ⟨?_, h.saved⟩
        rintro content ⟨⟩
        exact value_metaText hconfig anchorMs platform appVersion nowNs
  | metaSaved =>
      simp only [SessionWriter.call, SessionWriter.metaSaved]
      split
      · next content hcontent =>
          -- the one step that writes the description
          exact ⟨fun _ hnone => (by cases hnone), fun _ =>
            ⟨content, h.saving content hcontent, Function.update_self _ _ _⟩⟩
      · exact h
  | flushed =>
      simp only [SessionWriter.call, SessionWriter.flushed]
      split
      · next hguard => exact ⟨h.saving, fun _ => h.saved hguard.1⟩
      · exact h

/-- What others write in other directories. -/
theorem Described.of_sameUnder (h : Described s disk) (hdisk : Disk.SameUnder s.dir disk disk') :
    Described s disk' :=
  h.of_same rfl rfl rfl (hdisk _ (List.prefix_append _ _))

/-- A session that has just been made has no description. -/
theorem described_create (zone : ℤ → ℤ) (base : DiskPath) (config : LoggerConfig D)
    (anchorMs : ℤ) (disk : Disk) :
    Described (SessionWriter.create zone base config anchorMs) disk :=
  ⟨fun _ hnone => (by cases hnone), fun hne => absurd rfl hne⟩

end SessionFiles
