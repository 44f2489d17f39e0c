/-
# The batch runner of the R2R benchmark

`run_batch` and `open_attempt_log` of `batch.py` and `summarize` of `summary.py`, as
procedures on the output directory.  `write_json` replaces a file atomically, so a
write is one effect, and a batch that is killed leaves a prefix of its effects.

A child process is what it did: the result files it wrote and the text it printed,
and how it ended.  `child i k` is the `k`-th attempt at the `i`-th episode; nothing
is assumed of it.  The files that a batch is started with (the split, the scenes,
the USD assets) do not change while it runs; what is checked of them before the
first write, and the command line of the child, are left out.
-/
import Mathlib.Data.List.Sort
import Rvln.NavidaText
import Rvln.Procedure
import Rvln.Python

namespace Batch

/-! ## Result rows -/

/-- A JSON value, as far as rows are compared: everything but strings and `null` by
its text. -/
inductive Value
  | null
  | str (s : String)
  | scalar (text : String)
  /-- A list or an object, which no set can hold. -/
  | composite (text : String)
  deriving DecidableEq, Repr

namespace Value

/-- `str(value)`. -/
def text : Value → String
  | null => "None"
  | str s => s
  | scalar t => t
  | composite t => t

/-- A list or an object. -/
def isComposite : Value → Bool
  | composite _ => true
  | _ => false

/-- A value in JSON that is a string or `null`. -/
def ofOption : Option String → Value
  | none => null
  | some s => str s

end Value

/-- A parsed row. -/
abbrev Row := PyDict String Value

/-- `row.get(key)`. -/
def Row.get (row : Row) (key : String) : Value := (row.get? key).getD .null

/-- The contents of a result file. -/
inductive RowFile
  /-- Not UTF-8 or not JSON. -/
  | unreadable
  /-- JSON, but not an object. -/
  | notObject
  | object (row : Row)

/-! ## What a batch is started with -/

/-- An episode of the split: `str(episode["episode_id"])` and `scene_name(episode)`. -/
structure Episode where
  episodeId : String
  sceneId : String
  deriving DecidableEq, Repr

/-- The arguments of `run_batch`, with what it reads from the files they name.
`load_episodes` refuses a split that has an identifier twice. -/
structure Request where
  splitSha256 : String
  episodes : List Episode
  nodup : (episodes.map Episode.episodeId).Nodup
  scenesSha256 : String
  /-- `sha256(record["usd"])` of a scene. -/
  usdSha256 : String → String
  policyUrl : String
  policyId : String
  maxSteps : ℤ
  headless : Bool
  episodeTimeout : ℤ
  startupRetries : ℤ
  policySplitSha256 : Option String
  /-- `result_dir / f"{index:05d}.json"`. -/
  path : ℕ → String

/-- `plan`. -/
structure Plan where
  splitSha256 : String
  scenesSha256 : String
  usdSha256 : List (String × String)
  policyUrl : String
  policyId : String
  policySplitSha256 : Option String
  maxSteps : ℤ
  headless : Bool
  episodeTimeout : ℤ
  startupRetries : ℤ
  episodeIds : List String
  deriving DecidableEq

namespace Request

variable (r : Request)

/-- The plan of a batch. -/
def plan : Plan where
  splitSha256 := r.splitSha256
  scenesSha256 := r.scenesSha256
  usdSha256 := ((r.episodes.map Episode.sceneId).dedup.insertionSort fun a b => a ≤ b).map
    fun scene => (scene, r.usdSha256 scene)
  policyUrl := r.policyUrl
  policyId := r.policyId
  policySplitSha256 := r.policySplitSha256
  maxSteps := r.maxSteps
  headless := r.headless
  episodeTimeout := r.episodeTimeout
  startupRetries := r.startupRetries
  episodeIds := r.episodes.map Episode.episodeId

/-- The check that lets an episode be skipped. -/
def IsCurrent (e : Episode) (row : Row) : Prop :=
  row.get "status" = .str "completed" ∧
  row.get "episode_id" = .str e.episodeId ∧
  row.get "split_sha256" = .str r.splitSha256 ∧
  row.get "scene_id" = .str e.sceneId ∧
  row.get "usd_sha256" = .str (r.usdSha256 e.sceneId) ∧
  row.get "policy_id" = .str r.policyId ∧
  row.get "policy_split_sha256" = .ofOption r.policySplitSha256

instance (e : Episode) (row : Row) : Decidable (r.IsCurrent e row) :=
  inferInstanceAs (Decidable (_ ∧ _))

/-- The check after the last attempt: it does not look at `split_sha256`. -/
def Rejects (e : Episode) (returncode : ℤ) (row : Row) : Prop :=
  returncode ≠ 0 ∨
  row.get "status" ≠ .str "completed" ∨
  row.get "episode_id" ≠ .str e.episodeId ∨
  row.get "scene_id" ≠ .str e.sceneId ∨
  row.get "usd_sha256" ≠ .str (r.usdSha256 e.sceneId) ∨
  row.get "policy_id" ≠ .str r.policyId ∨
  row.get "policy_split_sha256" ≠ .ofOption r.policySplitSha256

instance (e : Episode) (returncode : ℤ) (row : Row) : Decidable (r.Rejects e returncode row) :=
  inferInstanceAs (Decidable (_ ∨ _))

end Request

/-! ## The output directory -/

/-- `manifest["status"]`. -/
inductive Status
  | running
  | error
  | completed
  deriving DecidableEq, Repr

/-- `manifest.json`. -/
structure Manifest where
  status : Status
  completedEpisodes : ℕ
  plan : Plan
  failedEpisodeId : Option String
  error : Option String
  startupRetryCounts : PyDict String ℕ

/-- What `summarize` returns; `Figures` are the means and the sum over the rows. -/
structure Summary (Figures : Type) where
  splitSha256 : Value
  episodes : ℕ
  scenes : ℕ
  figures : Figures
  policySplitSha256 : Option Value
  policyId : Option Value

/-- The files of `out_dir`; `rows i` is `episodes/{i:05d}.json` and the log `(i, k)` is
`episodes/{i:05d}.log` for `k = 0` and `episodes/{i:05d}.attempt-{k}.log` above. -/
structure Directory (Figures : Type) where
  manifest : Option Manifest
  rows : ℕ → Option RowFile
  logs : PyDict (ℕ × ℕ) String
  summary : Option (Summary Figures)

variable {Figures : Type}

/-- A directory just made. -/
def Directory.empty : Directory Figures := ⟨none, fun _ => none, PyDict.empty, none⟩

/-- What a batch and its children do to the disk. -/
inductive Effect (Figures : Type)
  | mkdir
  | manifest (m : Manifest)
  /-- Reserve a log and start a child. -/
  | attempt (index number : ℕ)
  /-- A child replaces its result file. -/
  | row (index : ℕ) (file : RowFile)
  /-- A child prints. -/
  | output (index number : ℕ) (text : String)
  | summary (s : Summary Figures)

/-- One effect on a directory. -/
def Directory.apply (d : Directory Figures) : Effect Figures → Directory Figures
  | .mkdir => d
  | .manifest m => { d with manifest := some m }
  | .attempt index number => { d with logs := d.logs.set (index, number) "" }
  | .row index file => { d with rows := Function.update d.rows index (some file) }
  | .output index number text =>
      { d with logs := d.logs.set (index, number)
                ((d.logs.get? (index, number)).getD "" ++ text) }
  | .summary s => { d with summary := some s }

/-- The disk: `out_dir` may be missing. -/
def disk (Figures : Type) : Machine (Option (Directory Figures)) (Effect Figures) where
  Init _ := True
  Guard _ _ := True
  next
    | none, .mkdir => some Directory.empty
    | out, x => out.map fun d => d.apply x

/-- The result file of an episode. -/
def rowAt (out : Option (Directory Figures)) (index : ℕ) : Option RowFile :=
  out.bind fun d => d.rows index

/-- The attempt logs. -/
def logsOf (out : Option (Directory Figures)) : PyDict (ℕ × ℕ) String :=
  (out.map Directory.logs).getD PyDict.empty

/-- The manifest. -/
def manifestOf (out : Option (Directory Figures)) : Option Manifest :=
  out.bind Directory.manifest

/-! ## Children -/

/-- What a child does while it runs. -/
inductive Write
  | row (file : RowFile)
  | output (text : String)

/-- How a child ends. -/
inductive Exit
  | timeout
  | code (returncode : ℤ)

/-- A child process. -/
structure Child where
  writes : List Write
  exit : Exit

namespace Child

/-- A write of the child of an attempt. -/
def effect (index number : ℕ) : Write → Effect Figures
  | .row file => .row index file
  | .output text => .output index number text

/-- The result file after some writes. -/
def leaves : Option RowFile → List Write → Option RowFile
  | old, [] => old
  | _, .row file :: ws => leaves (some file) ws
  | old, .output _ :: ws => leaves old ws

end Child

/-! ## `run_batch` -/

/-- What the modelled code raises. -/
inductive BatchError
  | valueError (message : String)
  | runtimeError (message : String)
  | keyError (key : String)
  | attributeError
  | typeError
  | osError
  | fileExistsError
  | jsonDecodeError

/-- The procedures of this module. -/
abbrev BatchM (Figures α : Type) := Procedure (disk Figures) BatchError α

open Procedure

/-- `open_attempt_log`: the first number whose log can be created. -/
def openAttemptLog (index : ℕ) : BatchM Figures ℕ := do
  let number ← look fun out =>
    let names := (logsOf out).entries.map Prod.fst
    -- among one more name than there are logs, one is free
    ((List.range (names.length + 1)).find? fun number => decide ((index, number) ∉ names)).getD 0
  emit (.attempt index number)
  pure number

/-- `json.loads(path.read_text())`, or `{}`, and the first `.get`. -/
def loadRow : Option RowFile → Except BatchError Row
  | none => .ok PyDict.empty
  | some .unreadable => .ok PyDict.empty
  | some .notObject => .error .attributeError
  | some (.object row) => .ok row

namespace Manifest

variable (m : Manifest)

/-- `manifest.update(status="error", failed_episode_id=.., error=..)`. -/
def fail (episodeId error : String) : Manifest :=
  { m with status := .error, failedEpisodeId := some episodeId, error := some error }

/-- `manifest.setdefault("startup_retry_counts", {})[episode_id] = count`. -/
def countRetry (episodeId : String) (count : ℕ) : Manifest :=
  { m with startupRetryCounts := m.startupRetryCounts.set episodeId count }

/-- The manifest after an episode. -/
def advance (completed : ℕ) : Manifest :=
  { m with completedEpisodes := completed, status := .running,
            failedEpisodeId := none, error := none }

/-- The manifest after the batch. -/
def finish (completed : ℕ) : Manifest :=
  { m with completedEpisodes := completed, status := .completed }

end Manifest

section

variable (r : Request) (child : ℕ → ℕ → Child)

/-- One turn of the loop over the attempts: the return code and the row. -/
def attempt (index : ℕ) (e : Episode) (number : ℕ) (m : Manifest) : BatchM Figures (ℤ × Row) := do
  let log ← openAttemptLog index
  emits ((child index number).writes.map (Child.effect index log))
  match (child index number).exit with
  | .timeout => do
    emit (.manifest (m.fail e.episodeId "episode timed out"))
    fail (.runtimeError ("episode " ++ e.episodeId ++ " timed out"))
  | .code returncode => do
    let file ← look fun out => rowAt out index
    let row ← lift (loadRow file)
    pure (returncode, row)

/-- The loop over the attempts at one episode, `retries` of them left after this one:
the manifest, the last return code and the row. -/
def attempts (index : ℕ) (e : Episode) :
    ℕ → ℕ → Manifest → BatchM Figures (Manifest × ℤ × Row)
  | retries, number, m => do
    let (returncode, row) ← attempt child index e number m
    if row.get "status" = .str "completed" ∨ row.get "status" = .str "error" then
      pure (m, returncode, row)
    else
      match retries with
      | 0 => pure (m, returncode, row)
      | retries + 1 => do
        emit (.manifest (m.countRetry e.episodeId (number + 1)))
        attempts index e retries (number + 1) (m.countRetry e.episodeId (number + 1))

/-- The check before the attempts. -/
def skips (index : ℕ) (e : Episode) : BatchM Figures Bool := do
  let file ← look fun out => rowAt out index
  match file with
  | none => pure false
  | some file => do
    let row ← lift (loadRow (some file))
    pure (decide (r.IsCurrent e row))

/-- One turn of the loop over the episodes. -/
def runEpisode (index : ℕ) (e : Episode) (m : Manifest) : BatchM Figures Manifest := do
  let skip ← skips r index e
  if skip then pure m
  else do
    let (m, returncode, row) ← attempts child index e r.startupRetries.toNat 0 m
    if r.Rejects e returncode row then do
      emit (.manifest (m.fail e.episodeId
        ("child exit " ++ toString returncode ++ ": " ++ (row.get "error").text)))
      fail (.runtimeError ("episode " ++ e.episodeId ++ " failed; inspect " ++ r.path index))
    else do
      emit (.manifest (m.advance (index + 1)))
      pure (m.advance (index + 1))

/-- The loop over the episodes. -/
def runEpisodes : ℕ → List Episode → Manifest → BatchM Figures Manifest
  | _, [], m => pure m
  | index, e :: es, m => do
    let m ← runEpisode r child index e m
    runEpisodes (index + 1) es m

/-- The manifest that a batch starts from. -/
def openManifest (resume : Bool) : BatchM Figures Manifest :=
  if resume then do
    let found ← look manifestOf
    match found with
    | none => fail (.valueError "cannot resume without an existing manifest")
    | some m =>
      if m.plan ≠ r.plan then fail (.valueError "resume plan differs from the recorded batch")
      else pure m
  else do
    let made ← look Option.isSome
    if made then fail .fileExistsError
    else do
      let m : Manifest := ⟨.running, 0, r.plan, none, none, PyDict.empty⟩
      emit .mkdir
      emit (.manifest m)
      pure m

end

/-! ## `summarize` -/

/-- `row[key]`. -/
def item (row : Row) (key : String) : Except BatchError Value :=
  match row.get? key with
  | none => .error (.keyError key)
  | some v => .ok v

/-- `set(values)`. -/
def pySet (values : List Value) : Except BatchError (List Value) :=
  if values.any Value.isComposite then .error .typeError else .ok values.dedup

/-- `json.loads(path.read_text())`, without its keys when it is no object. -/
def parseFile : Option RowFile → Except BatchError (Option Row)
  | none => .error .osError
  | some .unreadable => .error .jsonDecodeError
  | some .notObject => .ok none
  | some (.object row) => .ok (some row)

/-- `row.get("status") != "completed"`, on one row. -/
def completedRow : Option Row → Except BatchError Row
  | none => .error .attributeError
  | some row =>
    if row.get "status" ≠ .str "completed" then
      .error (.valueError "episode result is incomplete")
    else .ok row

/-- Equality of two dictionaries with string keys. -/
def sameDict (xs ys : List (String × Value)) : Prop := (∀ x ∈ xs, x ∈ ys) ∧ ∀ y ∈ ys, y ∈ xs

instance (xs ys : List (String × Value)) : Decidable (sameDict xs ys) :=
  inferInstanceAs (Decidable (_ ∧ _))

/-- `if not condition: raise ValueError(message)`. -/
def ensure (condition : Prop) [Decidable condition] (message : String) : Except BatchError Unit :=
  if condition then .ok () else .error (.valueError message)

/-- `summarize` with a split.  `figures` are the four statistics of the rows. -/
def summarize (figures : List Row → Except BatchError Figures) (r : Request)
    (files : List (Option RowFile)) : Except BatchError (Summary Figures) := do
  ensure (files ≠ []) "no episode results"
  let parsed ← files.mapM parseFile
  let rows ← parsed.mapM completedRow
  let ids ← rows.mapM fun row => (item row "episode_id").map Value.text
  ensure ids.Nodup "duplicate episode result"
  let namespaces ← (rows.mapM fun row => item row "metric_namespace").bind pySet
  ensure (namespaces = [.str "isaac_r2r_transfer"]) "mixed benchmark metric namespaces"
  -- a row that names no kind is of the Euclidean one
  let kinds ← pySet (rows.map fun row =>
    (row.get? "navigation_error_kind").getD (.str "euclidean"))
  ensure (kinds = [.str "euclidean"]) "mixed navigation error distance definitions"
  let hashes ← (rows.mapM fun row => item row "split_sha256").bind pySet
  ensure (hashes.length = 1) "mixed R2R-CE split versions"
  let policyHashes ← pySet (rows.map fun row => row.get "policy_split_sha256")
  ensure (policyHashes.length = 1) "mixed policy instruction split versions"
  let policyIds ← pySet (rows.map fun row => row.get "policy_id")
  ensure (policyIds.length = 1) "mixed policy model identities"
  let scenes ← rows.mapM fun row => item row "scene_id"
  ensure (sameDict (ids.zip scenes) (r.episodes.map fun e => (e.episodeId, .str e.sceneId)))
    "results do not cover the exact split episodes and scenes"
  ensure (hashes = [.str r.splitSha256]) "result split hash does not match the supplied split"
  let sceneSet ← pySet scenes
  let statistics ← figures rows
  pure {
    splitSha256 := hashes.headD .null
    episodes := rows.length
    scenes := sceneSet.length
    figures := statistics
    policySplitSha256 := policyHashes.find? fun v => v ≠ .null
    policyId := policyIds.find? fun v => v ≠ .null }

/-- `run_batch`, once the files it is started with are read. -/
def runBatch (figures : List Row → Except BatchError Figures) (r : Request) (resume : Bool)
    (child : ℕ → ℕ → Child) : BatchM Figures (Summary Figures) :=
  if r.policyId.toList.all NavidaText.isSpace then
    fail (.valueError "policy_id must identify the fixed model and checkpoint")
  else if r.maxSteps < 1 ∨ r.episodeTimeout < 1 ∨ r.startupRetries < 0 then
    fail (.valueError
      "max_steps and episode_timeout must be positive; startup_retries must be nonnegative")
  else if r.episodes = [] then fail (.valueError "R2R split contains no episodes")
  else do
    let m ← openManifest r resume
    let m ← runEpisodes r child 0 r.episodes m
    -- the rows are read anew from the disk
    let files ← look fun out => (List.range r.episodes.length).map fun i => rowAt out i
    let result ← lift (summarize figures r files)
    let result := { result with policyId := some (.str r.policyId) }
    emit (.summary result)
    emit (.manifest (m.finish r.episodes.length))
    pure result

end Batch
