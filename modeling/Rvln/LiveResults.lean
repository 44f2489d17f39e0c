/-
# The results of a live episode

When the simulator has exited, `attach_contacts` of `live_results.py` merges its contact log into
the record of the episode, and `finalize_live_isaac.py` checks the record and scores it.

* `attachContacts` : the contacts between the start and the end of the episode, with their times in
  the episode;
* `finalized_run` : what a summary says of the run behind it.  A success is a robot that is known
  to stand at the goal; the collisions are the contacts during the episode; and the follower was
  asked to stop and the motor to be off.

The two files are parsed already.  A log of contacts carries some data with every contact, which is
only copied.
-/
import Rvln.LiveRunSafety
import Rvln.LiveSummary
import Rvln.Python

namespace LiveResults

open LiveRun (Report TraceRow Args Manifest Files Prepared Script Libraries)

/-! ## Contacts -/

variable {Oracle Data : Type}

/-- An entry of `events`. -/
structure ContactEvent (Data : Type) where
  wallMonotonicSec : ℚ
  data : Data

/-- `samples`. -/
structure ContactSamples where
  physicsSteps : Option ℤ

/-- The contact log.  `events` is `none` if it is no list. -/
structure ContactLog (Data : Type) where
  simulator : Option String
  schema : Option ℤ
  receiveErrors : Bool
  samples : Option ContactSamples
  events : Option (List (ContactEvent Data))
  collisions : Option ℤ

/-- `contacts.get("samples", {}).get("physics_steps", 0)`. -/
def ContactLog.physicsSteps (contacts : ContactLog Data) : ℤ :=
  (contacts.samples.bind ContactSamples.physicsSteps).getD 0

/-- A contact with its `t_sec`. -/
structure EpisodeContact (Data : Type) extends ContactEvent Data where
  tSec : ℚ

/-- The record of an episode. -/
structure Row (Oracle Data : Type) extends Report Oracle where
  poseSource : String
  contactEvents : Option (List (EpisodeContact Data))
  collisions : Option ℕ
  contactSamples : Option ContactSamples
  contactLog : Option String

/-- What `assemble_result` puts around a report. -/
def Row.new (report : Report Oracle) : Row Oracle Data where
  toReport := report
  poseSource := "isaac_ground_truth"
  contactEvents := none
  collisions := none
  contactSamples := none
  contactLog := none

/-- The contact is between two wall times. -/
def ContactEvent.within (start stop : ℚ) (event : ContactEvent Data) : Bool :=
  start ≤ event.wallMonotonicSec && event.wallMonotonicSec ≤ stop

/-- The record with the contacts between two wall times. -/
def Row.withContacts (row : Row Oracle Data) (name : String) (contacts : ContactLog Data)
    (events : List (ContactEvent Data)) (start stop : ℚ) : Row Oracle Data :=
  let events := events.filter (ContactEvent.within start stop)
  { row with
    contactEvents := some (events.map fun event =>
      ⟨event, event.wallMonotonicSec - start⟩)
    collisions := some events.length
    contactSamples := contacts.samples
    contactLog := some name }

/-- `attach_contacts`, for a log of a name. -/
def attachContacts (row : Row Oracle Data) (name : String) (contacts : ContactLog Data) :
    Except String (Row Oracle Data) :=
  if row.poseSource ≠ "isaac_ground_truth" then
    .error "episode is not an Isaac ground-truth trace"
  else if row.contactLog.isSome then .error "episode already has contact data"
  else if contacts.simulator ≠ some "isaac_sim" ∨ contacts.schema ≠ some 1 then
    .error "contact log is not an Isaac Sim report"
  else if contacts.receiveErrors = true ∨ contacts.physicsSteps < 1 then
    .error "Isaac contact log has no physics evidence or contains errors"
  else
    match contacts.events with
    | none => .error "Isaac contact count differs from events"
    | some events =>
        if contacts.collisions ≠ some (events.length : ℤ) then
          .error "Isaac contact count differs from events"
        else
          match row.wallStartedAt with
          | none => .error "episode has no valid contact measurement window"
          | some start =>
              if row.wallEndedAt ≤ start then
                .error "episode has no valid contact measurement window"
              else .ok (row.withContacts name contacts events start row.wallEndedAt)

/-- **The record after its contacts are attached.** -/
theorem attachContacts_eq {row row' : Row Oracle Data} {name : String}
    {contacts : ContactLog Data} (h : attachContacts row name contacts = .ok row') :
    ∃ start events, row.wallStartedAt = some start ∧ contacts.events = some events ∧
      row' = row.withContacts name contacts events start row.wallEndedAt := by
  unfold attachContacts at h
  split at h
  · cases h
  · split at h
    · cases h
    · split at h
      · cases h
      · split at h
        · cases h
        · split at h
          · cases h
          · rename_i events hevents
            split at h
            · cases h
            · split at h
              · cases h
              · rename_i start hstart
                split at h
                · cases h
                · cases h
                  exact ⟨start, events, hstart, hevents, rfl⟩

/-! ## The summary -/

theorem getLastD_mem {α : Type} (first : α) (rest : List α) :
    rest.getLastD first ∈ first :: rest := by
  induction rest generalizing first with
  | nil => exact List.mem_singleton_self first
  | cons a rest ih =>
      rw [List.getLastD_cons]
      exact List.mem_cons_of_mem _ (ih a)

theorem goalTolerance_of_text {reason : LiveRun.StopReason}
    (h : some reason.text = some "model_stop" ∨ some reason.text = some "goal_tolerance") :
    reason = .goalTolerance := by
  revert h
  cases reason <;> decide

theorem timeout_of_text {reason : LiveRun.StopReason} (h : some reason.text = some "timeout") :
    reason = .timeout := by
  revert h
  cases reason <;> decide

/-- The time of a trace is within the wall times of its report. -/
theorem elapsed_within {report : Report Oracle} {duration start : ℚ}
    (h : report.Sound duration) (hstart : report.wallStartedAt = some start)
    {first : LiveSummary.TracePoint ℚ} {rest : List (LiveSummary.TracePoint ℚ)}
    (htrace : (report.trace.map fun r => (⟨r.tSec, r.x, r.y⟩ : LiveSummary.TracePoint ℚ)) =
      first :: rest) :
    0 ≤ (rest.getLastD first).tSec - first.tSec ∧
      (rest.getLastD first).tSec - first.tSec ≤ report.wallEndedAt - start := by
  obtain ⟨-, ⟨row, hrow, hzero, -⟩, hsorted, hpast⟩ := h.started start hstart
  obtain ⟨rows, hrows⟩ := List.head?_eq_some_iff.mp hrow
  rw [hrows] at htrace hsorted hpast
  obtain ⟨rfl, rfl⟩ := List.cons.inj htrace
  have hlast := getLastD_mem (⟨row.tSec, row.x, row.y⟩ : LiveSummary.TracePoint ℚ)
    (rows.map fun r => ⟨r.tSec, r.x, r.y⟩)
  rw [← List.map_cons (f := fun r : TraceRow => (⟨r.tSec, r.x, r.y⟩ : LiveSummary.TracePoint ℚ))]
    at hlast
  obtain ⟨last, hmem, hlast⟩ := List.mem_map.mp hlast
  rw [← hlast]
  show 0 ≤ last.tSec - row.tSec ∧ last.tSec - row.tSec ≤ _
  rw [hzero, sub_zero]
  refine ⟨?_, hpast last hmem⟩
  rcases List.mem_cons.mp hmem with rfl | hmem
  · exact hzero.ge
  · rw [List.map_cons, List.pairwise_cons] at hsorted
    exact hzero ▸ hsorted.1 last.tSec (List.mem_map_of_mem hmem)

theorem checkCollisions_natCast (n : ℕ) :
    LiveSummary.checkCollisions (some (some (n : ℤ))) = .ok (some (n : ℤ)) := by
  rw [LiveSummary.checkCollisions, if_neg (not_lt.mpr (Int.natCast_nonneg n))]

section

variable [Trig ℚ]

/-- The record as the scoring reads it. -/
def Row.raw (row : Row Oracle Data) : LiveSummary.RawEpisode ℚ Oracle Unit where
  id := row.spec.id
  model := row.model
  deployment := row.deployment
  poseSource := some row.poseSource
  goalXy := row.spec.goalXy
  shortestM := some row.spec.shortestM
  oracle := some row.oracle
  trace := row.trace.map fun r => ⟨r.tSec, r.x, r.y⟩
  stopReason := some row.stopReason.text
  collisions := row.collisions.map fun n => some (n : ℤ)
  contactSamples := row.contactSamples.isSome
  video := some row.video
  videoFrames := row.videoFrames
  roundTripMs := row.inferences.map LiveTransport.Inference.roundTripMs
  extra := ()

/-- What the finished record is expected to be of. -/
structure Expected where
  model : String
  deployment : String

/-- `summary.json`, without what the command line sets. -/
structure Summary where
  poseSource : String
  score : LiveSummary.Scored ℚ
  observations : ℕ
  embeddings : ℕ
  nonemptyPaths : ℕ
  videoFrames : ℕ

/-- `main` of `finalize_live_isaac.py`; `videoSize` is that of the video, if there is one. -/
def finalize (expected : Expected) (videoSize : Option ℕ) (record : Row Oracle Data)
    (name : String) (contacts : ContactLog Data) : Except String Summary := do
  let episode ← attachContacts record name contacts
  if episode.model ≠ expected.model ∨ episode.deployment ≠ expected.deployment then
    .error "episode model or deployment does not match the requested run"
  else if episode.errors ≠ [] ∨ episode.trace.isEmpty = true ∨
      episode.inferences.isEmpty = true then
    .error "live episode has errors or missing pose/inference trace"
  else if episode.embeddings < 1 ∨ episode.nonemptyPaths < 1 then
    .error "Edge produced no embedding or path"
  else if videoSize.getD 0 < 1000 then .error "live episode video is missing"
  else
    let score ← LiveSummary.scoreEpisode episode.raw
    return {
      poseSource := episode.poseSource
      score
      observations := episode.observations
      embeddings := episode.embeddings
      nonemptyPaths := episode.nonemptyPaths
      videoFrames := episode.videoFrames }

/-- What a score says of the record. -/
theorem scoreEpisode_eq {raw : LiveSummary.RawEpisode ℚ Oracle Unit}
    {scored : LiveSummary.Scored ℚ} (h : LiveSummary.scoreEpisode raw = .ok scored) :
    ∃ first rest, raw.trace = first :: rest ∧
      LiveSummary.checkCollisions raw.collisions = .ok scored.collisions ∧
      (scored.success = true → raw.stopReason = some "model_stop" ∨
        raw.stopReason = some "goal_tolerance") ∧
      scored.collisionFreeSuccess = scored.collisions.map (fun n => scored.success && n = 0) ∧
      scored.elapsedSec = (rest.getLastD first).tSec - first.tSec ∧
      scored.stopReason = raw.stopReason := by
  unfold LiveSummary.scoreEpisode at h
  split at h
  · cases h
  · rename_i first rest htrace
    obtain ⟨shortest, -, h⟩ := Except.of_bind_ok h
    obtain ⟨collisions, hcollisions, h⟩ := Except.of_bind_ok h
    cases h
    refine ⟨first, rest, htrace, hcollisions, fun hsuccess => ?_, rfl, rfl, rfl⟩
    obtain ⟨-, hreason⟩ := (Bool.and_eq_true _ _).mp hsuccess
    simpa using hreason

/-- **A record that is summarised** has no error, and its score is of the contacts that were
attached. -/
theorem finalize_eq {expected : Expected} {videoSize : Option ℕ} {record : Row Oracle Data}
    {name : String} {contacts : ContactLog Data} {summary : Summary}
    (h : finalize expected videoSize record name contacts = .ok summary) :
    ∃ episode, attachContacts record name contacts = .ok episode ∧ episode.errors = [] ∧
      LiveSummary.scoreEpisode episode.raw = .ok summary.score := by
  obtain ⟨episode, hepisode, h⟩ := Except.of_bind_ok h
  split at h
  · cases h
  · split at h
    · cases h
    · rename_i hclean
      split at h
      · cases h
      · split at h
        · cases h
        · obtain ⟨score, hscore, h⟩ := Except.of_bind_ok h
          cases h
          exact ⟨episode, hepisode, not_not.mp fun hbad => hclean (.inl hbad), hscore⟩

variable {lib : Libraries}

/-- **What a summary says of the run behind it.**  A success is a robot that stands at the goal, by
its own stop; a time-out has lasted its time; the elapsed time is within the wall times of the
episode, the collisions are the contacts between them, and a success is free of collisions exactly
if there are none.  Follower and motor were asked to be off. -/
theorem finalized_run {args : Args} {manifest : Manifest Oracle} {files : Files} (x : Script)
    {report : Report Oracle} (h : (LiveRun.run lib args manifest files x).2 = .ok report)
    {expected : Expected} {videoSize : Option ℕ} {name : String} {contacts : ContactLog Data}
    {summary : Summary}
    (hfinal : finalize expected videoSize (Row.new report) name contacts = .ok summary) :
    (∃ found : Prepared Oracle, found.Sound args manifest files ∧
        LiveRun.Off ((LiveRun.bench lib).exec (.new files.readyAt found.instruction)
          (LiveRun.run lib args manifest files x).1)) ∧
      (summary.score.success = true →
        report.stopReason = .goalTolerance ∧ report.confirmedStop = true) ∧
      ∃ start events, report.wallStartedAt = some start ∧ contacts.events = some events ∧
        (summary.score.stopReason = some "timeout" →
          start + args.duration ≤ report.wallEndedAt) ∧
        0 ≤ summary.score.elapsedSec ∧ summary.score.elapsedSec ≤ report.wallEndedAt - start ∧
        summary.score.collisions =
          some ((events.filter (ContactEvent.within start report.wallEndedAt)).length : ℤ) ∧
        (summary.score.collisionFreeSuccess = some true ↔ summary.score.success = true ∧
          ∀ event ∈ events, event.within start report.wallEndedAt = false) := by
  obtain ⟨episode, hattach, hnone, hscore⟩ := finalize_eq hfinal
  obtain ⟨start, events, hstart, hevents, rfl⟩ := attachContacts_eq hattach
  obtain ⟨first, rest, htrace, hcollisions, hsuccess, hfree, helapsed, hreason⟩ :=
    scoreEpisode_eq hscore
  obtain ⟨found, hprepare⟩ := LiveRun.prepared_of_ok x h
  rw [LiveRun.run_of_prepare x hprepare] at h ⊢
  obtain ⟨-, hsound, hoff⟩ := LiveRun.report_execute x h
  have hnone : report.errors = [] := hnone
  have hstart : report.wallStartedAt = some start := hstart
  obtain ⟨start', hstart', hstop⟩ := hsound.clean hnone
  obtain rfl : start = start' := Option.some.inj (hstart.symm.trans hstart')
  obtain ⟨hnonneg, hle⟩ := elapsed_within hsound hstart htrace
  have hscored : summary.score.collisions =
      some ((events.filter (ContactEvent.within start report.wallEndedAt)).length : ℤ) :=
    Except.ok.inj (hcollisions.symm.trans (checkCollisions_natCast _))
  refine ⟨?_, fun hwin => ?_, start, events, hstart, hevents, fun htimeout => ?_, ?_, ?_, hscored,
    ?_⟩
  · rcases hoff with hoff | ⟨text, htext⟩
    · exact ⟨found, LiveRun.prepare_sound hprepare, hoff⟩
    · rw [hnone] at htext
      cases htext
  · have hgoal : report.stopReason = .goalTolerance := goalTolerance_of_text (hsuccess hwin)
    refine ⟨hgoal, ?_⟩
    rcases hstop with ⟨hother, -⟩ | ⟨-, hconfirmed⟩ | ⟨hother, -⟩
    · cases hgoal.symm.trans hother
    · exact hconfirmed
    · cases hgoal.symm.trans hother
  · have htext : report.stopReason = .timeout := timeout_of_text (hreason.symm.trans htimeout)
    rcases hstop with ⟨-, hlong⟩ | ⟨hother, -⟩ | ⟨hother, -⟩
    · exact hlong
    · cases htext.symm.trans hother
    · cases htext.symm.trans hother
  · rw [helapsed]
    exact hnonneg
  · rw [helapsed]
    exact hle
  -- a success counts as free of collisions if the list of contacts is empty
  · rw [hfree, hscored, Option.map_some, Option.some.injEq, Bool.and_eq_true, decide_eq_true_eq,
      Int.natCast_eq_zero, List.length_eq_zero_iff, List.filter_eq_nil_iff]
    simp only [Bool.not_eq_true]

end

/-! ## A robot at its goal -/

attribute [local instance] LiveRun.gridTrig

/-- A log with one contact, before the episode. -/
def earlyContact : ContactLog Unit where
  simulator := some "isaac_sim"
  schema := some 1
  receiveErrors := false
  samples := some ⟨some 100⟩
  events := some [⟨1 / 10, ()⟩]
  collisions := some 1

/-- The summary of a record, for the run to a goal a metre ahead. -/
def metreSummary (report : Report Unit) : Except String Summary :=
  finalize ⟨"model", "remote"⟩ (some 2000) (Row.new report) "contacts.json" earlyContact

/-- The run to a goal a metre ahead is a success without collisions. -/
theorem finalized_run_aMetreAhead : ∃ report summary, LiveRun.metreRun.2 = .ok report ∧
    metreSummary report = .ok summary ∧ summary.score.collisionFreeSuccess = some true ∧
    report.confirmedStop = true := by
  have hwins : (match LiveRun.metreRun.2 with
      | .ok report =>
          (match metreSummary report with
          | .ok summary => decide (summary.score.collisionFreeSuccess = some true)
          | .error _ => false)
      | .error _ => false) = true := by
    decide +kernel
  cases hrun : LiveRun.metreRun.2 with
  | error e =>
      rw [hrun] at hwins
      cases hwins
  | ok report =>
      rw [hrun] at hwins
      dsimp only at hwins
      cases hsummary : metreSummary report with
      | error text =>
          rw [hsummary] at hwins
          cases hwins
      | ok summary =>
          rw [hsummary] at hwins
          have hfree := of_decide_eq_true hwins
          obtain ⟨-, hsuccess, start, events, -, -, -, -, -, -, hiff⟩ :=
            finalized_run LiveRun.aMetreAhead hrun hsummary
          exact ⟨report, summary, rfl, hsummary, hfree, (hsuccess (hiff.mp hfree).1).2⟩

end LiveResults
