/-
# The summary of the live episodes

`summarize_live.py` reads the episode records of a directory, checks and scores each of them
and reports statistics for every group, a model in a deployment.  `summarize` of `score.py`
makes the groups; then `run` adds statistics of its own, for which it selects the episodes by
their model, and the latencies by the model in the names of the files.

* `Closed` : whatever the records hold, a group has the numbers of its own records, and
  every record counts in one group;
* `closed_iff_unmixed` : that is so exactly if no model was run in two deployments and every
  record is filed under its own model.

`choices n i` are the indices that the `i`-th `rng.choices` draws from `n` values; the generator
is seeded anew for every mean.
-/
import Mathlib.Algebra.Order.Floor.Semiring
import Mathlib.Algebra.Order.Field.Basic
import Rvln.PyFloat

namespace LiveSummary

variable {R Oracle Extra : Type}

/-! ## Records -/

/-- A sample of the trace. -/
structure TracePoint (R : Type) where
  tSec : R
  x : R
  y : R

/-- An episode record, as it was parsed. -/
structure RawEpisode (R Oracle Extra : Type) where
  id : String
  model : String
  deployment : String
  poseSource : Option String
  goalXy : R × R
  /-- `none` if it is missing. -/
  shortestM : Option (PyFloat R)
  /-- `none` if it is missing or empty. -/
  oracle : Option Oracle
  trace : List (TracePoint R)
  stopReason : Option String
  /-- `some none` is a value that is no integer. -/
  collisions : Option (Option ℤ)
  /-- Whether there are any. -/
  contactSamples : Bool
  video : Option String
  videoFrames : ℤ
  /-- `round_trip_ms` of the inferences. -/
  roundTripMs : List R
  /-- The fields that are only copied. -/
  extra : Extra

/-- What `score_episode` returns. -/
structure Scored (R : Type) where
  id : String
  model : String
  deployment : String
  finalDistanceM : R
  travelM : R
  elapsedSec : R
  endpointSuccess : Bool
  success : Bool
  collisionFreeSuccess : Option Bool
  hadCollision : Option Bool
  collisions : Option ℤ
  stopReason : Option String
  spl : Option R

/-- A scored episode with what `run` adds to it. -/
structure Episode (R Extra : Type) extends Scored R where
  extra : Extra
  videoFrames : ℤ
  closestDistanceM : R
  roundTripP95Ms : Option R

/-- What `_mean_ci` returns. -/
structure MeanCi (R : Type) where
  mean : Option R
  ci95 : Option (R × R)

/-- A group of `summarize`. -/
structure Group (R : Type) where
  model : String
  deployment : String
  episodes : ℕ
  successRate : MeanCi R
  endpointRate : MeanCi R
  collisionFreeRate : Option (MeanCi R)
  collisionEpisodeRate : Option (MeanCi R)
  collisions : Option ℤ
  spl : Option (MeanCi R)

/-- A group with what `run` adds to it. -/
structure LiveGroup (R : Type) extends Group R where
  medianFinalDistanceM : R
  medianTravelM : R
  medianElapsedSec : R
  roundTripP95Ms : Option R
  goalToleranceStops : ℕ
  timeouts : ℕ
  track : String

/-! ## Scoring -/

section

variable [Field R] [LinearOrder R] [Trig R]

/-- `sum` of the lengths between consecutive samples. -/
def travel (trace : List (TracePoint R)) : R :=
  (List.zipWith (fun a b => Trig.hypot (b.x - a.x) (b.y - a.y)) trace trace.tail).sum

/-- The check of `shortest_m`. -/
def checkShortest (id : String) : Option (PyFloat R) → Except String (Option R)
  | none => .ok none
  | some (.fin shortest) =>
      if shortest ≤ 0 then .error s!"invalid shortest_m for {id}" else .ok (some shortest)
  | some _ => .error s!"invalid shortest_m for {id}"

/-- The check of `collisions`. -/
def checkCollisions : Option (Option ℤ) → Except String (Option ℤ)
  | none => .ok none
  | some none => .error "collisions must be nonnegative"
  | some (some n) => if n < 0 then .error "collisions must be nonnegative" else .ok (some n)

/-- `score_episode`, with the tolerance that `run` uses. -/
def scoreEpisode (episode : RawEpisode R Oracle Extra) : Except String (Scored R) :=
  match episode.trace with
  | [] => .error s!"episode {episode.id} has no pose trace"
  | first :: rest => do
      let last := rest.getLastD first
      let finalDistance := Trig.hypot (last.x - episode.goalXy.1) (last.y - episode.goalXy.2)
      let length := travel (first :: rest)
      let endpointSuccess := decide (finalDistance ≤ 3 / 10)
      -- who is there when the time is up has not stopped there
      let success := endpointSuccess &&
        (episode.stopReason = some "model_stop" || episode.stopReason = some "goal_tolerance")
      let shortest ← checkShortest episode.id episode.shortestM
      let spl := shortest.map fun shortest => if success then shortest / max shortest length else 0
      let collisions ← checkCollisions episode.collisions
      return {
        id := episode.id
        model := episode.model
        deployment := episode.deployment
        finalDistanceM := finalDistance
        travelM := length
        elapsedSec := last.tSec - first.tSec
        endpointSuccess
        success
        collisionFreeSuccess := collisions.map fun n => success && n = 0
        hadCollision := collisions.map fun n => 0 < n
        collisions
        stopReason := episode.stopReason
        spl }

/-! ## Statistics -/

/-- `sorted`. -/
def sorted (values : List R) : List R := values.mergeSort fun a b => a ≤ b

/-- `statistics.mean`. -/
def mean (values : List R) : R := values.sum / values.length

/-- `statistics.median`. -/
def median (values : List R) : Except String R :=
  let data := sorted values
  let n := data.length
  match data[(n - 1) / 2]?, data[n / 2]? with
  | some a, some b => .ok (if n % 2 = 1 then b else (a + b) / 2)
  | _, _ => .error "no median for empty data"

/-- `min`. -/
def minimum : List R → Except String R
  | [] => .error "min() arg is an empty sequence"
  | value :: values => .ok (values.foldl min value)

/-- `percentile`, for a rank from 0 to 1. -/
def percentile [FloorSemiring R] (values : List R) (rank : R) : Option R := do
  let sortedValues := sorted values
  let position := ((values.length : R) - 1) * rank
  let low := ⌊position⌋₊
  let high := min (low + 1) (values.length - 1)
  let a ← sortedValues[low]?
  let b ← sortedValues[high]?
  return a + (b - a) * (position - low)

/-- `_mean_ci`, with 2000 resamples. -/
def meanCi (choices : ℕ → ℕ → List ℕ) (values : List R) : MeanCi R :=
  if values.isEmpty then ⟨none, none⟩
  else
    let means := sorted ((List.range 2000).map fun i =>
      mean ((choices values.length i).filterMap fun j => values[j]?))
    let ci95 := do
      let low ← means[50]?
      let high ← means[1950]?
      return (low, high)
    ⟨some (mean values), ci95⟩

/-- `float` of a truth value. -/
def ofBool (b : Bool) : R := if b then 1 else 0

/-! ## Groups -/

/-- The group of some rows. -/
def summarizeGroup (choices : ℕ → ℕ → List ℕ) (model deployment : String)
    (rows : List (Episode R Extra)) : Group R where
  model := model
  deployment := deployment
  episodes := rows.length
  successRate := meanCi choices (rows.map fun r => ofBool r.success)
  endpointRate := meanCi choices (rows.map fun r => ofBool r.endpointSuccess)
  collisionFreeRate :=
    (rows.mapM fun r : Episode R Extra => r.collisionFreeSuccess).map fun vs =>
      meanCi choices (vs.map ofBool)
  collisionEpisodeRate :=
    (rows.mapM fun r : Episode R Extra => r.hadCollision).map fun vs =>
      meanCi choices (vs.map ofBool)
  collisions := (rows.mapM fun r : Episode R Extra => r.collisions).map List.sum
  spl := (rows.mapM fun r : Episode R Extra => r.spl).map (meanCi choices)

/-- The order of strings, by their code points. -/
def strLt (a b : String) : Bool :=
  (a.toList.map Char.toNat).lex (b.toList.map Char.toNat) fun m n => decide (m < n)

/-- The order of `sorted(groups.items())`, where no two keys are equal. -/
def keyLe (a b : String × String) : Bool := strLt a.1 b.1 || a.1 = b.1 && !strLt b.2 a.2

/-- The dictionary of `summarize`. -/
def groupsOf (scored : List (Episode R Extra)) :
    PyDict (String × String) (List (Episode R Extra)) :=
  PyDict.collect (scored.map fun row => ((row.model, row.deployment), [row]))

/-- The groups of `summarize`. -/
def summarize (choices : ℕ → ℕ → List ℕ) (scored : List (Episode R Extra)) : List (Group R) :=
  ((groupsOf scored).entries.mergeSort fun a b => keyLe a.1 b.1).map fun group =>
    summarizeGroup choices group.1.1 group.1.2 group.2

variable [FloorSemiring R]

/-- What `run` adds to a group, from the rows and the latencies that it selects. -/
def liveGroup (group : Group R) (rows : List (Episode R Extra)) (latencies : List R) :
    Except String (LiveGroup R) := do
  let medianFinalDistanceM ← median (rows.map fun r => r.finalDistanceM)
  let medianTravelM ← median (rows.map fun r => r.travelM)
  let medianElapsedSec ← median (rows.map fun r => r.elapsedSec)
  return {
    toGroup := group
    medianFinalDistanceM
    medianTravelM
    medianElapsedSec
    roundTripP95Ms := percentile latencies (95 / 100)
    goalToleranceStops := rows.countP fun r => r.stopReason = some "goal_tolerance"
    timeouts := rows.countP fun r => r.stopReason = some "timeout"
    track := if group.model = "movla" then "template_commands" else "general_text" }

/-- The row of a record that passed its checks. -/
def scoreLive (raw : RawEpisode R Oracle Extra) : Except String (Episode R Extra) := do
  let scored ← scoreEpisode raw
  let closestDistanceM ← minimum (raw.trace.map fun p =>
    Trig.hypot (p.x - raw.goalXy.1) (p.y - raw.goalXy.2))
  return {
    toScored := scored
    extra := raw.extra
    videoFrames := raw.videoFrames
    closestDistanceM
    roundTripP95Ms := percentile raw.roundTripMs (95 / 100) }

end

/-! ## The directory -/

/-- `ORDER`. -/
def order : List String := ["asyncvla", "omnivla", "omnivla_edge", "movla", "navila", "navida"]

/-- `POSE_SOURCES`. -/
def poseSources : List (String × String) :=
  [("gazebo_model_states", "gazebo"), ("isaac_ground_truth", "isaac_sim")]

/-- A directory: its records by the names of their files, and the sizes of the other files. -/
structure Runs (R Oracle Extra : Type) where
  path : String
  files : List (String × RawEpisode R Oracle Extra)
  sorted : files.Pairwise fun a b => strLt a.1 b.1
  videoSize : String → Option ℕ
  /-- The directory is no file. -/
  videoSize_empty : videoSize "" = none

/-- The names that `glob(f"{model}-*.json")` finds and the loop keeps. -/
def isLive (model name : String) : Bool :=
  (model ++ "-").toList.isPrefixOf name.toList && ".json".toList.isSuffixOf name.toList &&
    !".contacts.json".toList.isSuffixOf name.toList

/-- The files in the order they are read in, with the model that they are filed under. -/
def Runs.live (runs : Runs R Oracle Extra) : List (String × String × RawEpisode R Oracle Extra) :=
  order.flatMap fun model =>
    (runs.files.filter fun file => isLive model file.1).map fun file => (model, file)

/-- What the loop of `run` carries. -/
structure Acc (R Oracle Extra : Type) where
  episodes : List (Episode R Extra)
  oracle : Option Oracle
  poseSource : Option String
  latencies : PyDict String (List R)

/-- What `run` returns. -/
structure Report (R Oracle Extra : Type) where
  groups : List (LiveGroup R)
  episodes : List (Episode R Extra)
  poseSource : Option String
  simulator : Option String
  oracle : Option Oracle

/-- The check of the pose source. -/
def checkSource (seen : Option String) (name : String) (raw : RawEpisode R Oracle Extra) :
    Except String String :=
  let source := raw.poseSource.getD "None"
  if source ∉ poseSources.map Prod.fst then
    .error s!"unknown ground-truth pose source in {name}: {source}"
  else if seen.isSome && seen ≠ some source then
    .error "mixed simulator pose sources need separate reports"
  else .ok source

/-- The checks of the video, the trace, the contact data and the route. -/
def checkContents (videoSize : String → Option ℕ) (name : String)
    (raw : RawEpisode R Oracle Extra) : Except String Unit :=
  if (videoSize (raw.video.getD "")).getD 0 < 1000 || raw.videoFrames < 1 then
    .error s!"missing or empty video for {name}"
  else if raw.trace.isEmpty then .error s!"missing trace for {name}"
  else if raw.collisions.isNone || !raw.contactSamples then
    .error s!"missing validated contact data for {name}"
  else if raw.shortestM.isNone then .error s!"missing route oracle for {name}"
  else .ok ()

/-- The check of the oracle. -/
def checkOracle [DecidableEq Oracle] (seen : Option Oracle) (name : String)
    (raw : RawEpisode R Oracle Extra) : Except String Oracle :=
  match raw.oracle with
  | none => .error s!"missing route oracle for {name}"
  | some oracle =>
      if seen.isSome && seen ≠ some oracle then .error s!"inconsistent route oracle for {name}"
      else .ok oracle

section

variable [Field R] [LinearOrder R] [Trig R] [FloorSemiring R] [DecidableEq Oracle]

/-- The body of the loop of `run`. -/
def readEpisode (videoSize : String → Option ℕ) (acc : Acc R Oracle Extra)
    (item : String × String × RawEpisode R Oracle Extra) : Except String (Acc R Oracle Extra) := do
  let (model, name, raw) := item
  let source ← checkSource acc.poseSource name raw
  checkContents videoSize name raw
  let oracle ← checkOracle acc.oracle name raw
  let scored ← scoreLive raw
  return {
    episodes := acc.episodes ++ [scored]
    oracle := some oracle
    poseSource := some source
    latencies := acc.latencies.extend model raw.roundTripMs }

/-- `run`. -/
def run (choices : ℕ → ℕ → List ℕ) (runs : Runs R Oracle Extra) :
    Except String (Report R Oracle Extra) := do
  let acc ← runs.live.foldlM (readEpisode runs.videoSize) ⟨[], none, none, PyDict.empty⟩
  if acc.episodes.isEmpty then .error s!"no live episodes in {runs.path}"
  else do
    let groups ← (summarize choices acc.episodes).mapM fun group =>
      liveGroup group (acc.episodes.filter fun r => r.model = group.model)
        ((acc.latencies.get? group.model).getD [])
    return {
      groups
      episodes := acc.episodes
      poseSource := acc.poseSource
      simulator := acc.poseSource.bind fun source => poseSources.lookup source
      oracle := acc.oracle }

end

/-! ## The property -/

/-- The records, in the order they are read in. -/
def Runs.records (runs : Runs R Oracle Extra) : List (RawEpisode R Oracle Extra) :=
  runs.live.map fun item => item.2.2

/-- What is known of the records before they are opened, and their groups. -/
def Runs.filing (runs : Runs R Oracle Extra) : List (String × String × String) :=
  runs.files.map fun file => (file.1, file.2.model, file.2.deployment)

/-- Every record is filed under its own model, and no model was run in two deployments. -/
def Unmixed (runs : Runs R Oracle Extra) : Prop :=
  (∀ item ∈ runs.live, item.1 = item.2.2.model) ∧
    ∀ item ∈ runs.live, ∀ item' ∈ runs.live, item.2.2.model = item'.2.2.model →
      item.2.2.deployment = item'.2.2.deployment

section

variable [Field R] [LinearOrder R] [Trig R] [FloorSemiring R]

/-- The numbers of a group, from its own records. -/
def ownGroup (choices : ℕ → ℕ → List ℕ) (model deployment : String)
    (records : List (RawEpisode R Oracle Extra)) : Except String (LiveGroup R) := do
  let own := records.filter fun r => (r.model, r.deployment) = (model, deployment)
  let rows ← own.mapM scoreLive
  liveGroup (summarizeGroup choices model deployment rows) rows
    (own.flatMap fun r => r.roundTripMs)

/-- **The groups are closed**: whatever the records of these files hold, every group has the
numbers of its own records, and every record counts in one group. -/
def Closed [DecidableEq Oracle] (choices : ℕ → ℕ → List ℕ) (runs : Runs R Oracle Extra) : Prop :=
  ∀ runs' : Runs R Oracle Extra, runs'.filing = runs.filing →
    ∀ report, run choices runs' = .ok report →
      (∀ group ∈ report.groups,
        ownGroup choices group.model group.deployment runs'.records = .ok group) ∧
      ∀ record ∈ runs'.records, report.groups.countP (fun group =>
        (group.model, group.deployment) = (record.model, record.deployment)) = 1

/-! ## What is reported -/

/-- A row keeps the model, the deployment and the stop reason of its record. -/
theorem scoreLive_keeps {raw : RawEpisode R Oracle Extra} {row : Episode R Extra}
    (h : scoreLive raw = .ok row) :
    (row.model, row.deployment) = (raw.model, raw.deployment) ∧
      row.stopReason = raw.stopReason := by
  obtain ⟨scored, hscored, h⟩ := Except.of_bind_ok h
  obtain ⟨closest, -, h⟩ := Except.of_bind_ok h
  cases h
  unfold scoreEpisode at hscored
  split at hscored
  · cases hscored
  · obtain ⟨shortest, -, hscored⟩ := Except.of_bind_ok hscored
    obtain ⟨collisions, -, hscored⟩ := Except.of_bind_ok hscored
    cases hscored
    exact ⟨rfl, rfl⟩

theorem scoreLive_key {raw : RawEpisode R Oracle Extra} {row : Episode R Extra}
    (h : scoreLive raw = .ok row) :
    (row.model, row.deployment) = (raw.model, raw.deployment) :=
  (scoreLive_keeps h).1

section

variable [DecidableEq Oracle]

/-- **One record** adds its row and its latencies. -/
theorem readEpisode_eq {videoSize : String → Option ℕ} {acc acc' : Acc R Oracle Extra}
    {item : String × String × RawEpisode R Oracle Extra}
    (h : readEpisode videoSize acc item = .ok acc') :
    ∃ row, scoreLive item.2.2 = .ok row ∧ acc'.episodes = acc.episodes ++ [row] ∧
      acc'.latencies = acc.latencies.extend item.1 item.2.2.roundTripMs := by
  obtain ⟨source, -, h⟩ := Except.of_bind_ok h
  obtain ⟨_, -, h⟩ := Except.of_bind_ok h
  obtain ⟨oracle, -, h⟩ := Except.of_bind_ok h
  obtain ⟨row, hrow, h⟩ := Except.of_bind_ok h
  cases h
  exact ⟨row, hrow, rfl, rfl⟩

/-- **The loop** scores the records, and collects the latencies by the names of the files. -/
theorem foldlM_readEpisode {videoSize : String → Option ℕ} {acc acc' : Acc R Oracle Extra}
    {items : List (String × String × RawEpisode R Oracle Extra)}
    (h : items.foldlM (readEpisode videoSize) acc = .ok acc') :
    ∃ rows, (items.map fun item => item.2.2).mapM scoreLive = .ok rows ∧
      acc'.episodes = acc.episodes ++ rows ∧
      acc'.latencies = (items.map fun item => (item.1, item.2.2.roundTripMs)).foldl
        (fun d item => d.extend item.1 item.2) acc.latencies := by
  induction items generalizing acc with
  | nil =>
      cases h
      exact ⟨[], rfl, (List.append_nil _).symm, rfl⟩
  | cons item items ih =>
      rw [List.foldlM_cons] at h
      obtain ⟨acc₁, hacc, h⟩ := Except.of_bind_ok h
      obtain ⟨row, hrow, hepisodes, hlatencies⟩ := readEpisode_eq hacc
      obtain ⟨rows, hrows, hepisodes', hlatencies'⟩ := ih h
      refine ⟨row :: rows, ?_, ?_, ?_⟩
      · rw [List.map_cons, List.mapM_cons, hrow, hrows]
        rfl
      · rw [hepisodes', hepisodes, List.append_assoc, List.singleton_append]
      · rw [hlatencies', hlatencies, List.map_cons, List.foldl_cons]

/-- The latencies of the files under a model. -/
def filedLatencies (runs : Runs R Oracle Extra) (model : String) : List R :=
  (runs.live.filter fun item => item.1 = model).flatMap fun item => item.2.2.roundTripMs

/-- **What is reported**: the groups of all rows, with the rows of the model and the latencies
of the files under it. -/
theorem run_eq {choices : ℕ → ℕ → List ℕ} {runs : Runs R Oracle Extra}
    {report : Report R Oracle Extra} (h : run choices runs = .ok report) :
    ∃ rows, runs.records.mapM scoreLive = .ok rows ∧
      (summarize choices rows).mapM (fun group =>
        liveGroup group (rows.filter fun r => r.model = group.model)
          (filedLatencies runs group.model)) = .ok report.groups := by
  obtain ⟨acc, hacc, h⟩ := Except.of_bind_ok h
  obtain ⟨rows, hrows, hepisodes, hlatencies⟩ := foldlM_readEpisode hacc
  split at h
  · cases h
  obtain ⟨groups, hgroups, h⟩ := Except.of_bind_ok h
  cases h
  have hfiled : ∀ model, (acc.latencies.get? model).getD [] = filedLatencies runs model := by
    intro model
    rw [hlatencies]
    refine (PyDict.getD_collect _ model).trans ?_
    rw [List.filter_map, List.flatMap_map]
    rfl
  refine ⟨rows, hrows, ?_⟩
  rw [hepisodes] at hgroups
  simpa only [hfiled, List.nil_append] using hgroups

end

omit [Trig R] [FloorSemiring R] in
/-- The groups of `summarize` are those of the rows, each with its own. -/
theorem mem_summarize {choices : ℕ → ℕ → List ℕ} {rows : List (Episode R Extra)}
    {group : Group R} (h : group ∈ summarize choices rows) :
    (∃ row ∈ rows, (row.model, row.deployment) = (group.model, group.deployment)) ∧
      group = summarizeGroup choices group.model group.deployment
        (rows.filter fun r => (r.model, r.deployment) = (group.model, group.deployment)) := by
  obtain ⟨entry, hentry, rfl⟩ := List.mem_map.mp h
  rw [List.mem_mergeSort] at hentry
  have hkey := PyDict.mem_keys_collect.mp (List.mem_map_of_mem (f := Prod.fst) hentry)
  have hrows := PyDict.mem_collect hentry
  obtain ⟨item, hitem, hfst⟩ := hkey
  obtain ⟨row, hrow, rfl⟩ := List.mem_map.mp hitem
  refine ⟨⟨row, hrow, hfst⟩, ?_⟩
  rw [hrows, List.filter_map, List.flatMap_map]
  simp [summarizeGroup, Function.comp_def]

/-- The key of a group. -/
def Group.key (group : Group R) : String × String := (group.model, group.deployment)

omit [Trig R] [FloorSemiring R] in
theorem perm_keys_summarize (choices : ℕ → ℕ → List ℕ) (rows : List (Episode R Extra)) :
    ((summarize choices rows).map Group.key).Perm ((groupsOf rows).entries.map Prod.fst) := by
  rw [summarize, List.map_map]
  exact (List.mergeSort_perm _ _).map Prod.fst

omit [Trig R] in
/-- What is added to a group leaves the group alone. -/
theorem liveGroup_eq {group : Group R} {rows : List (Episode R Extra)} {latencies : List R}
    {g : LiveGroup R} (h : liveGroup group rows latencies = .ok g) :
    g.toGroup = group ∧ g.roundTripP95Ms = percentile latencies (95 / 100) ∧
      g.timeouts = rows.countP fun r => r.stopReason = some "timeout" := by
  obtain ⟨_, -, h⟩ := Except.of_bind_ok h
  obtain ⟨_, -, h⟩ := Except.of_bind_ok h
  obtain ⟨_, -, h⟩ := Except.of_bind_ok h
  cases h
  exact ⟨rfl, rfl, rfl⟩

/-- **A record counts in one group.** -/
theorem countP_groups [DecidableEq Oracle] {choices : ℕ → ℕ → List ℕ}
    {runs : Runs R Oracle Extra} {report : Report R Oracle Extra}
    (h : run choices runs = .ok report) {record : RawEpisode R Oracle Extra}
    (hrecord : record ∈ runs.records) :
    report.groups.countP (fun group =>
      (group.model, group.deployment) = (record.model, record.deployment)) = 1 := by
  obtain ⟨rows, hrows, hgroups⟩ := run_eq h
  have hkeys : report.groups.map (fun g => g.toGroup.key) =
      (summarize choices rows).map Group.key :=
    Except.map_eq_of_mapM_ok (fun group g hg => congrArg Group.key (liveGroup_eq hg).1) hgroups
  have hperm := perm_keys_summarize choices rows
  obtain ⟨row, hrow, hrecordRow⟩ := Except.exists_of_mapM_ok hrows hrecord
  have hmem : (record.model, record.deployment) ∈ (groupsOf rows).entries.map Prod.fst := by
    refine PyDict.mem_keys_collect.mpr ⟨_, List.mem_map_of_mem hrow, ?_⟩
    exact scoreLive_key hrecordRow
  have hcount : ((report.groups.map fun g => g.toGroup.key).count
      (record.model, record.deployment)) = 1 := by
    rw [hkeys, hperm.count_eq]
    exact List.count_eq_one_of_mem (groupsOf rows).nodup hmem
  rw [List.count, List.countP_map] at hcount
  rw [← hcount]
  apply List.countP_congr
  intro g _
  simp [Group.key]

/-! ## Unmixed files -/

omit [Field R] [LinearOrder R] [Trig R] [FloorSemiring R] in
/-- What the files are read as depends on the filing. -/
theorem map_live (runs : Runs R Oracle Extra) :
    runs.live.map (fun item => (item.1, item.2.1, item.2.2.model, item.2.2.deployment)) =
      order.flatMap fun model =>
        (runs.filing.filter fun file => isLive model file.1).map fun file => (model, file) := by
  rw [Runs.live, List.map_flatMap]
  congr 1
  funext model
  rw [Runs.filing, List.filter_map, List.map_map, List.map_map]
  rfl

omit [Field R] [LinearOrder R] [Trig R] [FloorSemiring R] in
/-- Files of the same filing are mixed or not. -/
theorem Unmixed.of_filing {runs runs' : Runs R Oracle Extra} (h : Unmixed runs)
    (hfiling : runs'.filing = runs.filing) : Unmixed runs' := by
  have hmap : runs'.live.map (fun item => (item.1, item.2.1, item.2.2.model, item.2.2.deployment)) =
      runs.live.map fun item => (item.1, item.2.1, item.2.2.model, item.2.2.deployment) := by
    rw [map_live, map_live, hfiling]
  have hold : ∀ item ∈ runs'.live, ∃ old ∈ runs.live, old.1 = item.1 ∧
      old.2.2.model = item.2.2.model ∧ old.2.2.deployment = item.2.2.deployment := by
    intro item hitem
    have hmem := List.mem_map_of_mem
      (f := fun item : String × String × RawEpisode R Oracle Extra =>
        (item.1, item.2.1, item.2.2.model, item.2.2.deployment)) hitem
    rw [hmap] at hmem
    obtain ⟨old, hold, heq⟩ := List.mem_map.mp hmem
    simp only [Prod.mk.injEq] at heq
    exact ⟨old, hold, heq.1, heq.2.2.1, heq.2.2.2⟩
  constructor
  · intro item hitem
    obtain ⟨old, hmem, hmodel, hown, -⟩ := hold item hitem
    rw [← hmodel, ← hown]
    exact h.1 old hmem
  · intro item hitem item' hitem' heq
    obtain ⟨old, hmem, -, hown, hdeployment⟩ := hold item hitem
    obtain ⟨old', hmem', -, hown', hdeployment'⟩ := hold item' hitem'
    rw [← hdeployment, ← hdeployment']
    exact h.2 old hmem old' hmem' (by rw [hown, hown', heq])

/-- **Unmixed files are closed.** -/
theorem closed_of_unmixed [DecidableEq Oracle] {choices : ℕ → ℕ → List ℕ}
    {runs : Runs R Oracle Extra} (h : Unmixed runs) : Closed choices runs := by
  intro runs' hfiling report hrun
  have hunmixed := h.of_filing hfiling
  refine ⟨?_, fun record hrecord => countP_groups hrun hrecord⟩
  intro g hg
  obtain ⟨rows, hrows, hgroups⟩ := run_eq hrun
  obtain ⟨group, hgroup, hlive⟩ := Except.mem_of_mapM_ok hgroups hg
  obtain ⟨⟨row, hrow, hkey⟩, hown⟩ := mem_summarize hgroup
  have hdeployment : ∀ item ∈ runs'.live, item.2.2.model = group.model →
      item.2.2.deployment = group.deployment := by
    intro item' hitem' hmodel
    obtain ⟨raw, hraw, hrawRow⟩ := Except.mem_of_mapM_ok hrows hrow
    obtain ⟨item, hitem, rfl⟩ := List.mem_map.mp hraw
    have hitemKey := (scoreLive_key hrawRow).symm.trans hkey
    have hsame := (Prod.mk.inj hitemKey).1
    rw [← (Prod.mk.inj hitemKey).2]
    exact hunmixed.2 item' hitem' item hitem (hmodel.trans hsame.symm)
  -- with one deployment for each model, selecting by the model selects the group
  have hrowsModel : (rows.filter fun r => r.model = group.model) =
      rows.filter fun r => (r.model, r.deployment) = (group.model, group.deployment) := by
    refine List.filter_congr fun r hr => ?_
    obtain ⟨raw, hraw, hrawRow⟩ := Except.mem_of_mapM_ok hrows hr
    obtain ⟨item, hitem, rfl⟩ := List.mem_map.mp hraw
    obtain ⟨hmodel, hdep⟩ := Prod.mk.inj (scoreLive_key hrawRow)
    rw [hmodel, hdep, decide_eq_decide, Prod.mk.injEq]
    exact ⟨fun h => ⟨h, hdeployment item hitem h⟩, And.left⟩
  have hlatencies : filedLatencies runs' group.model = (runs'.records.filter fun r =>
      (r.model, r.deployment) = (group.model, group.deployment)).flatMap
        fun r => r.roundTripMs := by
    rw [filedLatencies, Runs.records, List.filter_map, List.flatMap_map]
    congr 1
    refine List.filter_congr fun item hitem => ?_
    rw [hunmixed.1 item hitem, Function.comp_apply, decide_eq_decide, Prod.mk.injEq]
    exact ⟨fun h => ⟨h, hdeployment item hitem h⟩, And.left⟩
  have hscored := Except.mapM_filter
    (p := fun r => (r.model, r.deployment) = (group.model, group.deployment))
    (q := fun r => (r.model, r.deployment) = (group.model, group.deployment))
    (fun a b hab => by rw [scoreLive_key hab]) hrows
  have hg : g.toGroup = group := (liveGroup_eq hlive).1
  rw [hrowsModel, hlatencies, hown] at hlive
  rw [hg]
  exact Except.bind_eq_ok hscored hlive

/-! ## Mixed files -/

/-- A record that passes the checks, with a model and a deployment. -/
def blank [Inhabited Oracle] (model deployment : String) (roundTripMs : List R) (extra : Extra) :
    RawEpisode R Oracle Extra where
  id := ""
  model := model
  deployment := deployment
  poseSource := some "gazebo_model_states"
  goalXy := (0, 0)
  shortestM := some (.fin 1)
  oracle := some default
  trace := [⟨0, 0, 0⟩]
  stopReason := some "timeout"
  collisions := some (some 0)
  contactSamples := true
  video := some "episode.mp4"
  videoFrames := 1
  roundTripMs := roundTripMs
  extra := extra

/-- A directory with the video of the blank records. -/
def blankVideoSize (name : String) : Option ℕ := if name = "episode.mp4" then some 1000 else none

/-- The files with blank records, and with some latencies. -/
def Runs.fill [Inhabited Oracle] (runs : Runs R Oracle Extra) (latencies : String → List R) :
    Runs R Oracle Extra where
  path := runs.path
  files := runs.files.map fun file =>
    (file.1, blank file.2.model file.2.deployment (latencies file.1) file.2.extra)
  sorted := List.pairwise_map.mpr runs.sorted
  videoSize := blankVideoSize
  videoSize_empty := rfl

section

variable [Inhabited Oracle]

omit [LinearOrder R] [Trig R] [FloorSemiring R] in
theorem filing_fill (runs : Runs R Oracle Extra) (latencies : String → List R) :
    (runs.fill latencies).filing = runs.filing := by
  rw [Runs.filing, Runs.fill, List.map_map]
  rfl

omit [LinearOrder R] [Trig R] [FloorSemiring R] in
theorem live_fill (runs : Runs R Oracle Extra) (latencies : String → List R) :
    (runs.fill latencies).live = runs.live.map fun item => (item.1, item.2.1,
      blank item.2.2.model item.2.2.deployment (latencies item.2.1) item.2.2.extra) := by
  rw [Runs.live, Runs.live, List.map_flatMap]
  congr 1
  funext model
  rw [Runs.fill, List.filter_map, List.map_map, List.map_map]
  rfl

omit [LinearOrder R] [Trig R] [FloorSemiring R] in
theorem records_fill (runs : Runs R Oracle Extra) (latencies : String → List R) :
    (runs.fill latencies).records = runs.live.map fun item =>
      blank item.2.2.model item.2.2.deployment (latencies item.2.1) item.2.2.extra := by
  rw [Runs.records, live_fill, List.map_map]
  rfl

omit [LinearOrder R] [Trig R] [FloorSemiring R] in
/-- The blank record of a record. -/
theorem blank_mem_records {runs : Runs R Oracle Extra} (latencies : String → List R)
    {item : String × String × RawEpisode R Oracle Extra} (hitem : item ∈ runs.live) :
    (blank item.2.2.model item.2.2.deployment (latencies item.2.1) item.2.2.extra :
      RawEpisode R Oracle Extra) ∈ (runs.fill latencies).records := by
  rw [records_fill]
  exact List.mem_map.mpr ⟨item, hitem, rfl⟩

omit [Inhabited Oracle] in
/-- A record is scored if its trace and its two numbers are fit for it. -/
theorem exists_scoreLive {raw : RawEpisode R Oracle Extra} (htrace : raw.trace ≠ [])
    {shortest : Option R} (hshortest : checkShortest raw.id raw.shortestM = .ok shortest)
    {collisions : Option ℤ} (hcollisions : checkCollisions raw.collisions = .ok collisions) :
    ∃ row, scoreLive raw = .ok row := by
  have hscored : ∃ scored, scoreEpisode raw = .ok scored := by
    unfold scoreEpisode
    split
    · rename_i hnil
      exact absurd hnil htrace
    · rw [hshortest, hcollisions]
      exact ⟨_, rfl⟩
  have hclosest : ∀ values : List R, values ≠ [] → ∃ m, minimum values = .ok m := by
    intro values hne
    cases values with
    | nil => exact absurd rfl hne
    | cons value values => exact ⟨_, rfl⟩
  obtain ⟨scored, hscored⟩ := hscored
  obtain ⟨closest, hclosest⟩ := hclosest (raw.trace.map fun p =>
    Trig.hypot (p.x - raw.goalXy.1) (p.y - raw.goalXy.2)) (by simpa using htrace)
  exact ⟨_, Except.bind_eq_ok hscored (Except.bind_eq_ok hclosest rfl)⟩

/-- A blank record is scored. -/
theorem scoreLive_blank (model deployment : String) (latencies : List R) (extra : Extra) :
    ∃ row, scoreLive (blank model deployment latencies extra : RawEpisode R Oracle Extra) =
      .ok row := by
  have hone : ¬ (1 : R) ≤ 0 := not_le.mpr one_pos
  have hshortest : checkShortest "" (some (.fin (1 : R))) = .ok (some 1) := if_neg hone
  have hcollisions : checkCollisions (some (some 0)) = .ok (some 0) := rfl
  exact exists_scoreLive (List.cons_ne_nil _ _) hshortest hcollisions

/-- Blank records are read. -/
theorem exists_foldlM_blank [DecidableEq Oracle]
    (items : List (String × String × RawEpisode R Oracle Extra))
    (hblank : ∀ item ∈ items, ∃ model deployment latencies extra,
      item.2.2 = blank model deployment latencies extra)
    (acc : Acc R Oracle Extra)
    (hsource : ∀ source, acc.poseSource = some source → source = "gazebo_model_states")
    (horacle : ∀ oracle, acc.oracle = some oracle → oracle = default) :
    ∃ acc', items.foldlM (readEpisode blankVideoSize) acc = .ok acc' := by
  induction items generalizing acc with
  | nil => exact ⟨acc, rfl⟩
  | cons item items ih =>
      obtain ⟨hitem, hitems⟩ := List.forall_mem_cons.mp hblank
      obtain ⟨model, name, raw⟩ := item
      obtain ⟨model', deployment, latencies, extra, rfl⟩ := hitem
      obtain ⟨row, hrow⟩ : ∃ row, scoreLive
          (blank model' deployment latencies extra : RawEpisode R Oracle Extra) = .ok row :=
        scoreLive_blank model' deployment latencies extra
      -- the four steps of a round, none of which fails
      have hchecked : checkSource acc.poseSource name
          (blank model' deployment latencies extra : RawEpisode R Oracle Extra) =
            .ok "gazebo_model_states" := by
        have hknown : "gazebo_model_states" ∈ poseSources.map Prod.fst := List.mem_cons_self
        cases hseen : acc.poseSource with
        | none => simp [checkSource, blank, hknown]
        | some source => simp [checkSource, blank, hknown, hsource source hseen]
      have hcontents : checkContents blankVideoSize name
          (blank model' deployment latencies extra : RawEpisode R Oracle Extra) = .ok () := rfl
      have horacles : checkOracle acc.oracle name
          (blank model' deployment latencies extra : RawEpisode R Oracle Extra) = .ok default := by
        cases hseen : acc.oracle with
        | none => simp [checkOracle, blank]
        | some oracle => simp [checkOracle, blank, horacle oracle hseen]
      have hread : readEpisode blankVideoSize acc
          (model, name, blank model' deployment latencies extra) = .ok
            ⟨acc.episodes ++ [row], some default, some "gazebo_model_states",
              acc.latencies.extend model latencies⟩ :=
        Except.bind_eq_ok hchecked (Except.bind_eq_ok hcontents
          (Except.bind_eq_ok horacles (Except.bind_eq_ok hrow rfl)))
      rw [List.foldlM_cons, hread]
      exact ih hitems _ (fun _ h => (Option.some.inj h).symm) fun _ h => (Option.some.inj h).symm

omit [Trig R] [FloorSemiring R] in
theorem exists_median {values : List R} (hne : values ≠ []) : ∃ m, median values = .ok m := by
  have hlen : (sorted values).length = values.length := List.length_mergeSort _
  have hpos : 0 < values.length := List.length_pos_iff.mpr hne
  have hlow : ((sorted values).length - 1) / 2 < (sorted values).length := by omega
  have hhigh : (sorted values).length / 2 < (sorted values).length := by omega
  simp only [median, List.getElem?_eq_getElem hlow, List.getElem?_eq_getElem hhigh]
  exact ⟨_, rfl⟩

omit [Trig R] [Inhabited Oracle] in
/-- A group is reported if it has rows. -/
theorem exists_liveGroup (group : Group R) {rows : List (Episode R Extra)} (hne : rows ≠ [])
    (latencies : List R) : ∃ g, liveGroup group rows latencies = .ok g := by
  have hmedian : ∀ f : Episode R Extra → R, ∃ m, median (rows.map f) = .ok m :=
    fun f => exists_median (by simpa using hne)
  obtain ⟨_, hfinal⟩ := hmedian fun r => r.finalDistanceM
  obtain ⟨_, htravel⟩ := hmedian fun r => r.travelM
  obtain ⟨_, helapsed⟩ := hmedian fun r => r.elapsedSec
  exact ⟨_, Except.bind_eq_ok hfinal (Except.bind_eq_ok htravel (Except.bind_eq_ok helapsed rfl))⟩

/-- Blank records are reported. -/
theorem exists_run_fill [DecidableEq Oracle] (choices : ℕ → ℕ → List ℕ)
    {runs : Runs R Oracle Extra} (hne : runs.live ≠ []) (latencies : String → List R) :
    ∃ report, run choices (runs.fill latencies) = .ok report := by
  have hblank : ∀ item ∈ (runs.fill latencies).live, ∃ model deployment latencies extra,
      item.2.2 = blank model deployment latencies extra := by
    intro item hitem
    rw [live_fill] at hitem
    obtain ⟨item, -, rfl⟩ := List.mem_map.mp hitem
    exact ⟨_, _, _, _, rfl⟩
  obtain ⟨acc, hacc⟩ := exists_foldlM_blank _ hblank
    ⟨[], none, none, PyDict.empty⟩ nofun nofun
  obtain ⟨rows, hrows, hepisodes, -⟩ := foldlM_readEpisode hacc
  have hrowsNe : acc.episodes ≠ [] := by
    obtain ⟨item, items, hlive⟩ := List.exists_cons_of_ne_nil hne
    have hmem : ∃ raw, raw ∈ (runs.fill latencies).live.map fun item => item.2.2 := by
      rw [live_fill, hlive]
      exact ⟨_, List.mem_cons_self⟩
    obtain ⟨raw, hraw⟩ := hmem
    obtain ⟨row, hrow, -⟩ := Except.exists_of_mapM_ok hrows hraw
    rw [hepisodes, List.nil_append]
    exact List.ne_nil_of_mem hrow
  have hgroups : ∀ group ∈ summarize choices acc.episodes, ∃ g,
      liveGroup group (acc.episodes.filter fun r => r.model = group.model)
        ((acc.latencies.get? group.model).getD []) = .ok g := by
    intro group hgroup
    obtain ⟨⟨row, hrow, hkey⟩, -⟩ := mem_summarize hgroup
    refine exists_liveGroup group (List.ne_nil_of_mem (List.mem_filter.mpr ⟨hrow, ?_⟩)) _
    exact decide_eq_true (Prod.mk.inj hkey).1
  obtain ⟨groups, hgroups⟩ := Except.exists_mapM_ok hgroups
  have hempty : ¬ acc.episodes.isEmpty := by simpa using hrowsNe
  exact ⟨_, Except.bind_eq_ok hacc ((if_neg hempty).trans (Except.bind_eq_ok hgroups rfl))⟩

omit [Inhabited Oracle] in
/-- The group of a record, as it is reported. -/
theorem exists_group [DecidableEq Oracle] {choices : ℕ → ℕ → List ℕ}
    {runs : Runs R Oracle Extra} {report : Report R Oracle Extra}
    (hrun : run choices runs = .ok report) {rows : List (Episode R Extra)}
    (hrows : runs.records.mapM scoreLive = .ok rows)
    {record : RawEpisode R Oracle Extra} (hrecord : record ∈ runs.records) :
    ∃ g ∈ report.groups, (g.model, g.deployment) = (record.model, record.deployment) ∧
      g.episodes = (rows.filter fun r =>
        (r.model, r.deployment) = (record.model, record.deployment)).length ∧
      g.roundTripP95Ms = percentile (filedLatencies runs record.model) (95 / 100) ∧
      g.timeouts = (rows.filter fun r => r.model = record.model).countP
        fun r => r.stopReason = some "timeout" := by
  obtain ⟨g, hg, hkey⟩ := List.countP_pos_iff.mp (countP_groups hrun hrecord ▸ Nat.one_pos)
  have hkey := of_decide_eq_true hkey
  obtain ⟨hmodel, hdeployment⟩ := Prod.mk.inj hkey
  obtain ⟨rows', hrows', hgroups⟩ := run_eq hrun
  obtain rfl : rows' = rows := Except.ok.inj (hrows'.symm.trans hrows)
  obtain ⟨group, hgroup, hlive⟩ := Except.mem_of_mapM_ok hgroups hg
  obtain ⟨rfl, hp95, htimeouts⟩ := liveGroup_eq hlive
  refine ⟨g, hg, hkey, ?_, ?_, ?_⟩
  · rw [← hmodel, ← hdeployment]
    exact congrArg Group.episodes (mem_summarize hgroup).2
  · rw [← hmodel]
    exact hp95
  · rw [← hmodel]
    exact htimeouts

omit [Inhabited Oracle] in
/-- Two numbers of a closed group, as they are reported and from its own records. -/
theorem reported_eq_own [DecidableEq Oracle] {choices : ℕ → ℕ → List ℕ}
    {runs : Runs R Oracle Extra} {report : Report R Oracle Extra}
    (hrun : run choices runs = .ok report)
    (hown : ∀ group ∈ report.groups,
      ownGroup choices group.model group.deployment runs.records = .ok group)
    {rows : List (Episode R Extra)} (hrows : runs.records.mapM scoreLive = .ok rows)
    {record : RawEpisode R Oracle Extra} (hrecord : record ∈ runs.records) :
    (rows.filter fun r => r.model = record.model).countP
        (fun r => r.stopReason = some "timeout") =
      (rows.filter fun r => (r.model, r.deployment) = (record.model, record.deployment)).countP
        (fun r => r.stopReason = some "timeout") ∧
    percentile (filedLatencies runs record.model) (95 / 100) =
      percentile ((runs.records.filter fun r =>
        (r.model, r.deployment) = (record.model, record.deployment)).flatMap
          fun r => r.roundTripMs) (95 / 100) := by
  obtain ⟨g, hg, hkey, -, hp95, htimeouts⟩ := exists_group hrun hrows hrecord
  obtain ⟨hmodel, hdeployment⟩ := Prod.mk.inj hkey
  obtain ⟨own, howned, howngroup⟩ := Except.of_bind_ok (hown g hg)
  obtain ⟨-, hp95Own, htimeoutsOwn⟩ := liveGroup_eq howngroup
  have hscored := Except.mapM_filter
    (p := fun r => (r.model, r.deployment) = (g.model, g.deployment))
    (q := fun r => (r.model, r.deployment) = (g.model, g.deployment))
    (fun a b hab => by rw [scoreLive_key hab]) hrows
  obtain rfl := Except.ok.inj (howned.symm.trans hscored)
  rw [hmodel, hdeployment] at hp95Own htimeoutsOwn
  exact ⟨htimeouts.symm.trans htimeoutsOwn, hp95.symm.trans hp95Own⟩

/-- **No model in two deployments**: the timeouts of a closed group are those of its own rows. -/
theorem deployment_of_closed [DecidableEq Oracle] {choices : ℕ → ℕ → List ℕ}
    {runs : Runs R Oracle Extra} (h : Closed choices runs)
    {item item' : String × String × RawEpisode R Oracle Extra} (hitem : item ∈ runs.live)
    (hitem' : item' ∈ runs.live) (hmodel : item.2.2.model = item'.2.2.model) :
    item.2.2.deployment = item'.2.2.deployment := by
  by_contra hne
  obtain ⟨report, hrun⟩ := exists_run_fill choices (List.ne_nil_of_mem hitem) fun _ => []
  obtain ⟨hown, -⟩ := h _ (filing_fill runs _) report hrun
  obtain ⟨rows, hrows, -⟩ := run_eq hrun
  have htimeout : ∀ r ∈ rows, r.stopReason = some "timeout" := by
    intro r hr
    obtain ⟨raw, hraw, hrawRow⟩ := Except.mem_of_mapM_ok hrows hr
    rw [records_fill] at hraw
    obtain ⟨item, -, rfl⟩ := List.mem_map.mp hraw
    exact (scoreLive_keeps hrawRow).2
  have hcount : ∀ p : Episode R Extra → Bool,
      (rows.filter p).countP (fun r => r.stopReason = some "timeout") = (rows.filter p).length :=
    fun p => List.countP_eq_length.mpr fun r hr =>
      decide_eq_true (htimeout r (List.mem_of_mem_filter hr))
  have hsame := (reported_eq_own hrun hown hrows (blank_mem_records _ hitem)).1
  rw [hcount, hcount] at hsame
  obtain ⟨row', hrow', hrowKey⟩ := Except.exists_of_mapM_ok hrows (blank_mem_records _ hitem')
  obtain ⟨hrowModel, hrowDeployment⟩ := Prod.mk.inj (scoreLive_key hrowKey)
  -- the row of the other deployment is counted, and is not the group's own
  have hfewer : (rows.filter fun r =>
      (r.model, r.deployment) = (item.2.2.model, item.2.2.deployment)).length <
        (rows.filter fun r => r.model = item.2.2.model).length := by
    have hsub : (rows.filter fun r =>
        (r.model, r.deployment) = (item.2.2.model, item.2.2.deployment)) =
        (rows.filter fun r => r.model = item.2.2.model).filter fun r =>
          r.deployment = item.2.2.deployment := by
      rw [List.filter_filter]
      refine List.filter_congr fun r _ => ?_
      rw [← Bool.decide_and, decide_eq_decide, Prod.mk.injEq, and_comm]
    rw [hsub, List.length_filter_lt_length_iff_exists]
    refine ⟨row', List.mem_filter.mpr ⟨hrow', ?_⟩, ?_⟩
    · exact decide_eq_true (hrowModel.trans hmodel.symm)
    · intro h
      exact hne ((of_decide_eq_true h).symm.trans hrowDeployment)
  exact absurd hsame hfewer.ne'

omit [Field R] [LinearOrder R] [Trig R] [FloorSemiring R] [Inhabited Oracle] in
/-- A file is filed under one model. -/
theorem isLive_unique {model model' name : String} (hmodel : model ∈ order)
    (hmodel' : model' ∈ order) (h : isLive model name) (h' : isLive model' name) :
    model = model' := by
  have hdistinct : ∀ a ∈ order, ∀ b ∈ order,
      (a ++ "-").toList.isPrefixOf (b ++ "-").toList → a = b := by
    decide
  simp only [isLive, Bool.and_eq_true, List.isPrefixOf_iff_prefix] at h h'
  rcases Nat.le_total (model ++ "-").toList.length (model' ++ "-").toList.length with hle | hle
  · exact hdistinct _ hmodel _ hmodel' (List.isPrefixOf_iff_prefix.mpr
      (List.prefix_of_prefix_length_le h.1.1 h'.1.1 hle))
  · exact (hdistinct _ hmodel' _ hmodel (List.isPrefixOf_iff_prefix.mpr
      (List.prefix_of_prefix_length_le h'.1.1 h.1.1 hle))).symm

omit [Field R] [LinearOrder R] [Trig R] [FloorSemiring R] [Inhabited Oracle] in
theorem isLive_of_mem_live {runs : Runs R Oracle Extra}
    {item : String × String × RawEpisode R Oracle Extra} (h : item ∈ runs.live) :
    item.1 ∈ order ∧ isLive item.1 item.2.1 := by
  obtain ⟨model, hmodel, hitem⟩ := List.mem_flatMap.mp h
  obtain ⟨file, hfile, rfl⟩ := List.mem_map.mp hitem
  exact ⟨hmodel, (List.mem_filter.mp hfile).2⟩

omit [Trig R] [Inhabited Oracle] in
/-- Latencies have a percentile. -/
theorem percentile_ne_none [IsStrictOrderedRing R] {values : List R} (hne : values ≠ []) :
    percentile values (95 / 100) ≠ none := by
  have hlen : (sorted values).length = values.length := List.length_mergeSort _
  have hpos : 0 < values.length := List.length_pos_iff.mpr hne
  have hcast : ((values.length : R) - 1) = ((values.length - 1 : ℕ) : R) := by
    rw [Nat.cast_sub hpos, Nat.cast_one]
  have hfloor : ⌊((values.length : R) - 1) * (95 / 100)⌋₊ ≤ values.length - 1 := by
    refine Nat.floor_le_of_le ?_
    rw [hcast]
    exact mul_le_of_le_one_right (Nat.cast_nonneg _) (by norm_num)
  have hlow : ⌊((values.length : R) - 1) * (95 / 100)⌋₊ < (sorted values).length := by omega
  have hhigh : min (⌊((values.length : R) - 1) * (95 / 100)⌋₊ + 1) (values.length - 1) <
      (sorted values).length := by omega
  simp [percentile, List.getElem?_eq_getElem hlow, List.getElem?_eq_getElem hhigh]

/-- **No record under another model**: the latencies of a closed group are those of its own
records. -/
theorem model_of_closed [IsStrictOrderedRing R] [DecidableEq Oracle] {choices : ℕ → ℕ → List ℕ}
    {runs : Runs R Oracle Extra} (h : Closed choices runs)
    {item : String × String × RawEpisode R Oracle Extra} (hitem : item ∈ runs.live) :
    item.1 = item.2.2.model := by
  by_contra hne
  -- only the file of this record has a latency
  let latencies : String → List R := fun name => if name = item.2.1 then [1] else []
  obtain ⟨report, hrun⟩ := exists_run_fill choices (List.ne_nil_of_mem hitem) latencies
  obtain ⟨hown, -⟩ := h _ (filing_fill runs _) report hrun
  obtain ⟨rows, hrows, -⟩ := run_eq hrun
  have hrecord := blank_mem_records latencies hitem
  have hsame := (reported_eq_own hrun hown hrows hrecord).2
  have hfiled : filedLatencies (runs.fill latencies) item.2.2.model = [] := by
    rw [filedLatencies, List.flatMap_eq_nil_iff]
    intro filled hfilled
    obtain ⟨hmem, hmodel⟩ := List.mem_filter.mp hfilled
    rw [live_fill] at hmem
    obtain ⟨other, hother, rfl⟩ := List.mem_map.mp hmem
    show latencies other.2.1 = []
    refine if_neg fun hname => hne ?_
    obtain ⟨horder, hlive⟩ := isLive_of_mem_live hitem
    obtain ⟨horder', hlive'⟩ := isLive_of_mem_live hother
    rw [hname] at hlive'
    exact (isLive_unique horder horder' hlive hlive').trans (of_decide_eq_true hmodel)
  have hnone : percentile ([] : List R) (95 / 100) = none := by
    simp [percentile, sorted]
  refine percentile_ne_none ?_
    (hsame.symm.trans ((congrArg (fun l => percentile l (95 / 100)) hfiled).trans hnone))
  have hown1 : (1 : R) ∈ latencies item.2.1 := by simp [latencies]
  exact List.ne_nil_of_mem (List.mem_flatMap.mpr
    ⟨_, List.mem_filter.mpr ⟨hrecord, decide_eq_true rfl⟩, hown1⟩)

end

end

/-! ## The result -/

/-- **The groups are closed exactly if the files are unmixed**: if no model was run in two
deployments, and every record is filed under its own model. -/
theorem closed_iff_unmixed [Inhabited Oracle] [DecidableEq Oracle] (choices : ℕ → ℕ → List ℕ)
    (runs : Runs ℝ Oracle Extra) : Closed choices runs ↔ Unmixed runs := by
  constructor
  · intro h
    exact ⟨fun item hitem => model_of_closed h hitem,
      fun item hitem item' hitem' hmodel => deployment_of_closed h hitem hitem' hmodel⟩
  · exact closed_of_unmixed

/-- Two runs of one model, each in a deployment of its own. -/
noncomputable def twoDeployments : Runs ℝ Unit Unit where
  path := "runs"
  files := [("asyncvla-a.json", blank "asyncvla" "local" [] ()),
    ("asyncvla-b.json", blank "asyncvla" "remote" [] ())]
  sorted := List.pairwise_pair.mpr (by decide)
  videoSize := blankVideoSize
  videoSize_empty := rfl

theorem live_twoDeployments : twoDeployments.live =
    [("asyncvla", "asyncvla-a.json", blank "asyncvla" "local" [] ()),
      ("asyncvla", "asyncvla-b.json", blank "asyncvla" "remote" [] ())] := by
  have hnames : ∀ model ∈ order, ∀ name ∈ ["asyncvla-a.json", "asyncvla-b.json"],
      isLive model name = decide (model = "asyncvla") := by
    decide
  simp only [order, List.mem_cons, List.not_mem_nil, or_false, forall_eq_or_imp,
    forall_eq] at hnames
  simp [Runs.live, order, twoDeployments, hnames]

/-- **The groups of one model in two deployments are not closed**: the group of the one run has
the timeouts of both. -/
theorem twoDeployments_not_closed :
    ¬ Closed (fun n _ => List.range n) twoDeployments ∧
      ∃ report, run (fun n _ => List.range n) twoDeployments = .ok report ∧
        ∃ group ∈ report.groups, group.deployment = "local" ∧ group.episodes = 1 ∧
          group.timeouts = 2 := by
  have hlocal : ("asyncvla", "asyncvla-a.json", blank "asyncvla" "local" [] ()) ∈
      twoDeployments.live := by
    rw [live_twoDeployments]
    exact List.mem_cons_self
  have hremote : ("asyncvla", "asyncvla-b.json", blank "asyncvla" "remote" [] ()) ∈
      twoDeployments.live := by
    rw [live_twoDeployments]
    exact List.mem_cons_of_mem _ List.mem_cons_self
  constructor
  · intro h
    have hsame := deployment_of_closed h hlocal hremote rfl
    exact absurd hsame (by decide)
  · obtain ⟨report, hrun⟩ := exists_run_fill (fun n _ => List.range n)
      (List.ne_nil_of_mem hlocal) fun _ => []
    obtain ⟨rows, hrows, -⟩ := run_eq hrun
    have hrecord : blank "asyncvla" "local" [] () ∈ twoDeployments.records :=
      List.mem_map_of_mem (f := fun item => item.2.2) hlocal
    obtain ⟨g, hg, hkey, hepisodes, -, htimeouts⟩ := exists_group hrun hrows hrecord
    have htwo : twoDeployments.records =
        [blank "asyncvla" "local" [] (), blank "asyncvla" "remote" [] ()] := by
      rw [Runs.records, live_twoDeployments]
      rfl
    have hscored :
        [blank "asyncvla" "local" [] (), blank "asyncvla" "remote" [] ()].mapM scoreLive =
          .ok rows := htwo ▸ hrows
    obtain ⟨row, tail, hrow, htail, rfl⟩ := Except.mapM_cons_eq_ok hscored
    obtain ⟨row', rest, hrow', hrest, rfl⟩ := Except.mapM_cons_eq_ok htail
    cases hrest
    obtain ⟨hrowKey, hrowStop⟩ := scoreLive_keeps hrow
    obtain ⟨hrowKey', hrowStop'⟩ := scoreLive_keeps hrow'
    obtain ⟨hrowModel, -⟩ := Prod.mk.inj hrowKey
    obtain ⟨hrowModel', -⟩ := Prod.mk.inj hrowKey'
    refine ⟨report, hrun, g, hg, (Prod.mk.inj hkey).2, ?_, ?_⟩
    · rw [hepisodes, List.filter_cons, List.filter_cons, hrowKey, hrowKey']
      rfl
    · rw [htimeouts, List.filter_cons, List.filter_cons, hrowModel, hrowModel']
      simp [blank, hrowStop, hrowStop']

end LiveSummary
