/-
# Recording sessions of the logger app

`Recorder` of `recorder.dart` with `SessionWriter.create` and `finish`: `start` and
`stop` of a recording, called from the record button of `home_page.dart`.  Both are
asynchronous.  A call runs up to its first `await`; then it is in flight, and an
event completes what it waits for, with success or with an exception, and lets it
run up to its next `await`.  Calls in flight interleave in any order.

A session writer is named by the number of writers created before it, and a capture
by its kind and the session that started it.
-/
import Mathlib.Data.List.Basic
import Mathlib.Logic.Function.Basic
import Rvln.History
import Rvln.Machine

/-! ## Data -/

/-- The captures of a session, in the order in which `stop` takes them. -/
inductive Capture
  | camera
  | pose
  | imu
  | gnss
  | audio
  deriving DecidableEq, Repr

/-- The capture that `stop` takes next. -/
def Capture.next : Capture → Option Capture
  | .camera => some .pose
  | .pose => some .imu
  | .imu => some .gnss
  | .gnss => some .audio
  | .audio => none

/-- A call of `start` in flight. -/
inductive StartCall
  /-- `SessionWriter.create` makes a directory, and that many more behind it. -/
  | creating (left : ℕ)
  /-- It returns the writer. -/
  | created (session : ℕ)
  deriving DecidableEq

/-- The call waits for a directory. -/
def StartCall.isCreating : StartCall → Bool
  | .creating _ => true
  | .created _ => false

/-- What a call of `stop` in flight waits for. -/
inductive StopStage
  /-- The capture's own `stop`, of the session whose capture was in the field. -/
  | capture (which : Capture) (target : Option ℕ)
  /-- `SessionWriter.finish` writes, and has that many more writes before it. -/
  | finishing (left : ℕ)
  deriving DecidableEq

/-- A call of `stop` in flight. -/
structure StopCall where
  session : ℕ
  stage : StopStage
  deriving DecidableEq

/-- What happens to the clock, the writers and the captures. -/
inductive RecordingEntry
  /-- The shared clock is set back to zero. -/
  | reset
  /-- `SessionWriter.create` has opened the files of a session. -/
  | created (session : ℕ)
  /-- All captures are started for a session. -/
  | started (session : ℕ)
  /-- The capture of a session is stopped by the `stop` of a session. -/
  | stopped (which : Capture) (session stopper : ℕ)
  /-- The capture of a session runs, and the `stop` of a session forgets it. -/
  | dropped (which : Capture) (session stopper : ℕ)
  /-- `SessionWriter.finish` begins. -/
  | finish (session : ℕ)
  /-- It has closed the files. -/
  | closed (session : ℕ)
  deriving DecidableEq

/-- `Recorder`, and its calls in flight. -/
structure Recorder where
  writer : Option ℕ
  /-- The session whose capture is in `_sub` of the camera, in `_pose`, and so on. -/
  field : Capture → Option ℕ
  starts : List StartCall
  stops : List StopCall
  /-- The captures that run. -/
  live : List (Capture × ℕ)
  writers : ℕ
  log : List RecordingEntry

namespace Recorder

/-- All captures. -/
def captures : List Capture := [.camera, .pose, .imu, .gnss, .audio]

/-- A recorder just made. -/
def idle : Recorder where
  writer := none
  field := fun _ => none
  starts := []
  stops := []
  live := []
  writers := 0
  log := []

/-- Add an entry to the log. -/
def record (r : Recorder) (entry : RecordingEntry) : Recorder := { r with log := entry :: r.log }

/-! ## `start` -/

/-- `start`, up to the first `await` of `SessionWriter.create`. -/
def start (r : Recorder) : Recorder :=
  if r.writer.isSome then r
  else { r.record .reset with starts := r.starts ++ [.creating 4] }

/-- `start`, behind `SessionWriter.create`. -/
def install (r : Recorder) (session : ℕ) : Recorder :=
  { r.record (.started session) with
    writer := some session
    field := fun _ => some session
    live := captures.map (·, session) ++ r.live }

/-- A call of `start` goes on. -/
def proceedStart (r : Recorder) (i : ℕ) : Recorder :=
  match r.starts[i]? with
  | none => r
  | some (.creating (left + 1)) => { r with starts := r.starts.set i (.creating left) }
  | some (.creating 0) =>
    { r.record (.created r.writers) with
      writers := r.writers + 1
      starts := r.starts.set i (.created r.writers) }
  | some (.created session) => ({ r with starts := r.starts.eraseIdx i } : Recorder).install session

/-! ## `stop` -/

/-- `stop`, up to the `await` of the camera. -/
def stop (r : Recorder) : Recorder :=
  match r.writer with
  | none => r
  | some session =>
    { r with
      writer := none
      stops := r.stops ++ [⟨session, .capture .camera (r.field .camera)⟩] }

/-- The capture that a `stop` waited for is stopped. -/
def release (r : Recorder) (which : Capture) (target : Option ℕ) (stopper : ℕ) : Recorder :=
  match target with
  | none => r
  | some session =>
    if (which, session) ∈ r.live then
      { r.record (.stopped which session stopper) with live := r.live.erase (which, session) }
    else r

/-- A field is set to `null`; the capture in it may run. -/
def clear (r : Recorder) (which : Capture) (stopper : ℕ) : Recorder :=
  let cleared := { r with field := Function.update r.field which none }
  match r.field which with
  | none => cleared
  | some session =>
    if (which, session) ∈ r.live then cleared.record (.dropped which session stopper) else cleared

/-- `finish`, up to its first `await`, for the call at index `i`; `_closed` says that it was
called before. -/
def finish (r : Recorder) (i session : ℕ) : Recorder :=
  if .finish session ∈ r.log then { r with stops := r.stops.eraseIdx i }
  else
    { r.record (.finish session) with stops := r.stops.set i ⟨session, .finishing 10⟩ }

/-- A call of `stop` goes on behind the `stop` of a capture. -/
def proceedCapture (r : Recorder) (i session : ℕ) (which : Capture) (target : Option ℕ) :
    Recorder :=
  let r := r.release which target session
  -- the camera is the one capture that is not made anew for a session
  let r := if which = .camera then r.clear .camera session else r
  match which.next with
  | some next => { r with stops := r.stops.set i ⟨session, .capture next (r.field next)⟩ }
  | none =>
    ((((r.clear .pose session).clear .imu session).clear .gnss session).clear .audio
      session).finish i session

/-- A call of `stop` goes on. -/
def proceedStop (r : Recorder) (i : ℕ) : Recorder :=
  match r.stops[i]? with
  | none => r
  | some ⟨session, .capture which target⟩ => r.proceedCapture i session which target
  | some ⟨session, .finishing (left + 1)⟩ =>
    { r with stops := r.stops.set i ⟨session, .finishing left⟩ }
  | some ⟨session, .finishing 0⟩ =>
    { r.record (.closed session) with stops := r.stops.eraseIdx i }

/-! ## Runs -/

/-- `_toggleRecord`. -/
def toggle (r : Recorder) : Recorder := if r.writer.isSome then r.stop else r.start

/-- What can happen to a recorder. -/
inductive Event
  /-- The record button. -/
  | toggle
  /-- What a call waits for is there. -/
  | proceedStart (i : ℕ)
  | proceedStop (i : ℕ)
  /-- What a call waits for raises. -/
  | raiseStart (i : ℕ)
  | raiseStop (i : ℕ)
  deriving DecidableEq

/-- The recorder under its events; only the making of a directory can raise in `start`. -/
def recorder : Machine Recorder Event where
  Init r := r = idle
  Guard r
    | .toggle => True
    | .proceedStart i => i < r.starts.length
    | .proceedStop i => i < r.stops.length
    | .raiseStart i => (r.starts[i]?).any StartCall.isCreating
    | .raiseStop i => i < r.stops.length
  next r
    | .toggle => r.toggle
    | .proceedStart i => r.proceedStart i
    | .proceedStop i => r.proceedStop i
    | .raiseStart i => { r with starts := r.starts.eraseIdx i }
    | .raiseStop i => { r with stops := r.stops.eraseIdx i }

instance (r : Recorder) : (e : Event) → Decidable (recorder.Guard r e)
  | .toggle => inferInstanceAs (Decidable True)
  | .proceedStart i => inferInstanceAs (Decidable (i < r.starts.length))
  | .proceedStop i => inferInstanceAs (Decidable (i < r.stops.length))
  | .raiseStart i => inferInstanceAs (Decidable ((r.starts[i]?).any StartCall.isCreating = true))
  | .raiseStop i => inferInstanceAs (Decidable (i < r.stops.length))

/-! ## The contract -/

/-- Every session created so far is closed. -/
def AllClosed (log : List RecordingEntry) : Prop := ∀ s, .created s ∈ log → .closed s ∈ log

/-- A session is open. -/
def Open (log : List RecordingEntry) (s : ℕ) : Prop := .created s ∈ log ∧ .closed s ∉ log

/-- What an entry owes to those before it. -/
def Proper (entry : RecordingEntry) (older : List RecordingEntry) : Prop :=
  match entry with
  | .reset => AllClosed older
  | .stopped _ session stopper => session = stopper
  | .dropped _ _ _ => False
  | .finish session => .finish session ∉ older ∧
      (.started session ∈ older → ∀ k, .stopped k session session ∈ older)
  | .closed session => .finish session ∈ older
  | _ => True

/-- A call in flight has the session. -/
def InFlight (r : Recorder) (s : ℕ) : Prop :=
  .created s ∈ r.starts ∨ ∃ call ∈ r.stops, call.session = s

/-- **The contract of the recording sessions.** -/
structure Contract (r : Recorder) : Prop where
  one_open : ∀ s t, Open r.log s → Open r.log t → s = t
  finished : ∀ s, .created s ∈ r.log →
    r.log.count (.finish s) = 1 ∧ .closed s ∈ r.log ∨ r.writer = some s ∨ r.InFlight s
  proper : History.Each Proper r.log

/-- No `start` begins while a call is in flight, and nothing that a `stop` waits for
raises. -/
def Calm (r : Recorder) : Event → Prop
  | .toggle => r.writer = none → r.starts = [] ∧ r.stops = []
  | .raiseStop _ => False
  | _ => True

instance (r : Recorder) : (e : Event) → Decidable (r.Calm e)
  | .toggle => inferInstanceAs (Decidable (_ → _ ∧ _))
  | .raiseStop _ => inferInstanceAs (Decidable False)
  | .proceedStart _ => inferInstanceAs (Decidable True)
  | .proceedStop _ => inferInstanceAs (Decidable True)
  | .raiseStart _ => inferInstanceAs (Decidable True)

/-! ## The phases of a calm run -/

/-- The captures that `stop` has not passed yet when it waits for one. -/
def rest : Capture → List Capture
  | .camera => captures
  | .pose => [.pose, .imu, .gnss, .audio]
  | .imu => [.imu, .gnss, .audio]
  | .gnss => [.gnss, .audio]
  | .audio => [.audio]

/-- A log with at most one session open, `n` of them created. -/
structure Tidy (log : List RecordingEntry) (n : ℕ) (current : Option ℕ) : Prop where
  proper : History.Each Proper log
  fresh : ∀ s, .created s ∈ log ∨ .finish s ∈ log → s < n
  closed : ∀ s, .created s ∈ log →
    current = some s ∨ log.count (.finish s) = 1 ∧ .closed s ∈ log

/-- A session that is created and not finished. -/
structure Held (log : List RecordingEntry) (s : ℕ) : Prop where
  created : .created s ∈ log
  finish : .finish s ∉ log

/-- What a recorder is like along a calm run: one call in flight at most. -/
inductive Phase : Recorder → Prop
  | idle {field : Capture → Option ℕ} {n : ℕ} {log : List RecordingEntry} : Tidy log n none →
      Phase ⟨none, field, [], [], [], n, log⟩
  | creating (left : ℕ) {field : Capture → Option ℕ} {n : ℕ} {log : List RecordingEntry} :
      Tidy log n none → Phase ⟨none, field, [.creating left], [], [], n, log⟩
  | created (s : ℕ) {field : Capture → Option ℕ} {n : ℕ} {log : List RecordingEntry} :
      Tidy log n (some s) → Held log s → Phase ⟨none, field, [.created s], [], [], n, log⟩
  | recording (s : ℕ) {n : ℕ} {log : List RecordingEntry} :
      Tidy log n (some s) → Held log s →
      Phase ⟨some s, fun _ => some s, [], [], captures.map (·, s), n, log⟩
  | stopping (s : ℕ) (k : Capture) {field : Capture → Option ℕ} {n : ℕ}
      {log : List RecordingEntry} : Tidy log n (some s) → Held log s →
      (∀ k' ∈ rest k, field k' = some s) → (∀ k', k' ∉ rest k → .stopped k' s s ∈ log) →
      Phase ⟨none, field, [], [⟨s, .capture k (some s)⟩], (rest k).map (·, s), n, log⟩
  | finishing (s left : ℕ) {field : Capture → Option ℕ} {n : ℕ} {log : List RecordingEntry} :
      Tidy log n (some s) → log.count (.finish s) = 1 → Open log s →
      Phase ⟨none, field, [], [⟨s, .finishing left⟩], [], n, log⟩

section

variable {log : List RecordingEntry} {n s : ℕ} {current : Option ℕ} {r : Recorder}

/-! ### The log -/

/-- Entries of another kind do not count. -/
theorem count_finish_cons (entry : RecordingEntry) (h : ∀ t, entry ≠ .finish t) :
    (entry :: log).count (.finish s) = log.count (.finish s) :=
  List.count_cons_of_ne (h s)

/-- An entry that is neither the creation nor the end of a session. -/
theorem Tidy.cons (h : Tidy log n current) (entry : RecordingEntry) (hproper : Proper entry log)
    (hcreated : ∀ t, entry ≠ .created t) (hfinish : ∀ t, entry ≠ .finish t) :
    Tidy (entry :: log) n current where
  proper := ⟨hproper, h.proper⟩
  fresh := by
    intro t ht
    refine h.fresh t (ht.imp ?_ ?_)
    · exact fun hmem => (List.mem_cons.mp hmem).resolve_left fun heq => hcreated t heq.symm
    · exact fun hmem => (List.mem_cons.mp hmem).resolve_left fun heq => hfinish t heq.symm
  closed := by
    intro t ht
    have hold : .created t ∈ log :=
      (List.mem_cons.mp ht).resolve_left fun heq => hcreated t heq.symm
    refine (h.closed t hold).imp_right ?_
    rintro ⟨hcount, hclosed⟩
    exact ⟨by rwa [count_finish_cons entry hfinish], List.mem_cons_of_mem _ hclosed⟩

theorem Held.cons (h : Held log s) {entry : RecordingEntry} (hfinish : entry ≠ .finish s) :
    Held (entry :: log) s where
  created := List.mem_cons_of_mem _ h.created
  finish := fun hmem => (List.mem_cons.mp hmem).elim (fun heq => hfinish heq.symm) h.finish

/-- A session that is closed was finished before. -/
theorem Tidy.finish_of_closed (h : Tidy log n current) (hclosed : .closed s ∈ log) :
    .finish s ∈ log := by
  obtain ⟨newer, older, rfl⟩ := List.append_of_mem hclosed
  have hfinish : .finish s ∈ older := History.each_iff.mp h.proper newer (.closed s) older rfl
  exact List.mem_append_right _ (List.mem_cons_of_mem _ hfinish)

theorem Held.not_closed (h : Held log s) (htidy : Tidy log n current) : .closed s ∉ log :=
  fun hclosed => h.finish (htidy.finish_of_closed hclosed)

/-- Without a current session every session is closed. -/
theorem Tidy.allClosed (h : Tidy log n none) : AllClosed log := by
  intro t ht
  rcases h.closed t ht with hcurrent | ⟨-, hclosed⟩
  · cases hcurrent
  · exact hclosed

/-- The next session. -/
theorem Tidy.create (h : Tidy log n none) :
    Tidy (.created n :: log) (n + 1) (some n) ∧ Held (.created n :: log) n := by
  refine ⟨⟨⟨trivial, h.proper⟩, ?_, ?_⟩, ⟨List.mem_cons_self, ?_⟩⟩
  · intro t ht
    rcases ht with ht | ht
    · rcases List.mem_cons.mp ht with heq | ht
      · cases heq
        exact Nat.lt_succ_self n
      · exact Nat.lt_succ_of_lt (h.fresh t (Or.inl ht))
    · refine Nat.lt_succ_of_lt (h.fresh t (Or.inr ?_))
      exact (List.mem_cons.mp ht).resolve_left nofun
  · intro t ht
    rcases List.mem_cons.mp ht with heq | ht
    · cases heq
      exact Or.inl rfl
    · refine Or.inr ?_
      rcases h.closed t ht with hcurrent | ⟨hcount, hclosed⟩
      · cases hcurrent
      · exact ⟨by rwa [count_finish_cons (.created n) nofun], List.mem_cons_of_mem _ hclosed⟩
  · intro hmem
    have hold : .finish n ∈ log := (List.mem_cons.mp hmem).resolve_left nofun
    exact absurd (h.fresh n (Or.inr hold)) (Nat.lt_irrefl n)

/-- The current session begins to finish, all its captures stopped. -/
theorem Tidy.finish (h : Tidy log n (some s)) (hheld : Held log s)
    (hstopped : ∀ k, .stopped k s s ∈ log) :
    Tidy (.finish s :: log) n (some s) ∧
      (RecordingEntry.finish s :: log).count (.finish s) = 1 := by
  have hcount : log.count (.finish s) = 0 := List.count_eq_zero.mpr hheld.finish
  refine ⟨⟨⟨⟨hheld.finish, fun _ => hstopped⟩, h.proper⟩, ?_, ?_⟩, ?_⟩
  · intro t ht
    rcases ht with ht | ht
    · exact h.fresh t (Or.inl ((List.mem_cons.mp ht).resolve_left nofun))
    · rcases List.mem_cons.mp ht with heq | ht
      · cases heq
        exact h.fresh s (Or.inl hheld.created)
      · exact h.fresh t (Or.inr ht)
  · intro t ht
    have hold : .created t ∈ log := (List.mem_cons.mp ht).resolve_left nofun
    by_cases hts : s = t
    · exact Or.inl (congrArg some hts)
    · refine Or.inr ?_
      rcases h.closed t hold with hcurrent | ⟨hone, hclosed⟩
      · exact absurd (Option.some.inj hcurrent) hts
      · refine ⟨?_, List.mem_cons_of_mem _ hclosed⟩
        rwa [List.count_cons_of_ne fun heq => hts (RecordingEntry.finish.inj heq)]
  · rw [List.count_cons_self, hcount]

/-- The current session is closed. -/
theorem Tidy.close (h : Tidy log n (some s)) (hcount : log.count (.finish s) = 1) :
    Tidy (.closed s :: log) n none := by
  have hmem : .finish s ∈ log := List.count_pos_iff.mp (hcount ▸ Nat.one_pos)
  have htidy := h.cons (.closed s) hmem nofun nofun
  refine ⟨htidy.proper, htidy.fresh, ?_⟩
  intro t ht
  refine Or.inr ?_
  rcases htidy.closed t ht with hcurrent | hclosed
  · cases hcurrent
    exact ⟨by rwa [count_finish_cons (.closed s) nofun], List.mem_cons_self⟩
  · exact hclosed

/-! ### The captures -/

/-- The first of the captures that run is stopped. -/
theorem release_head {which : Capture} {stopper : ℕ} {rest : List (Capture × ℕ)}
    (h : r.live = (which, s) :: rest) :
    r.release which (some s) stopper =
      { r.record (.stopped which s stopper) with live := rest } := by
  unfold release
  have hmem : (which, s) ∈ r.live := by
    rw [h]
    exact List.mem_cons_self
  dsimp only
  rw [if_pos hmem, h, List.erase_cons_head]

/-- A field can be cleared when its capture does not run. -/
theorem clear_of_not_live {which : Capture} {stopper : ℕ}
    (h : ∀ t, r.field which = some t → (which, t) ∉ r.live) :
    r.clear which stopper = { r with field := Function.update r.field which none } := by
  unfold clear
  dsimp only
  split
  · rfl
  · rename_i t ht
    rw [if_neg (h t ht)]

/-- Once no capture runs, any field can be cleared. -/
theorem clear_of_dead {which : Capture} {stopper : ℕ} (h : r.live = []) :
    r.clear which stopper = { r with field := Function.update r.field which none } := by
  refine clear_of_not_live fun t _ => ?_
  rw [h]
  exact List.not_mem_nil

theorem rest_of_next {k k' : Capture} (h : k.next = some k') :
    rest k = k :: rest k' ∧ k ∉ rest k' := by
  cases k <;> cases h <;> decide

theorem rest_of_last {k : Capture} (h : k.next = none) : rest k = [k] ∧ k ≠ .camera := by
  cases k <;> cases h
  decide

/-- A capture that is not among the rest is the one before it, or is stopped already. -/
theorem stopped_of_rest {k : Capture} {fs : List Capture} (hrest : rest k = k :: fs)
    (h : ∀ k', k' ∉ rest k → .stopped k' s s ∈ log) :
    ∀ k', k' ∉ fs → .stopped k' s s ∈ RecordingEntry.stopped k s s :: log := by
  intro k' hk'
  by_cases heq : k' = k
  · rw [heq]
    exact List.mem_cons_self
  · refine List.mem_cons_of_mem _ (h k' ?_)
    rw [hrest]
    exact fun hmem => (List.mem_cons.mp hmem).elim heq hk'

/-! ### One step -/

/-- Behind the `stop` of a capture: the next one, or the end of the session. -/
theorem phase_proceedCapture {k : Capture} {field : Capture → Option ℕ}
    (htidy : Tidy log n (some s)) (hheld : Held log s)
    (hfield : ∀ k' ∈ rest k, field k' = some s)
    (hstopped : ∀ k', k' ∉ rest k → .stopped k' s s ∈ log) :
    Phase (proceedCapture ⟨none, field, [], [⟨s, .capture k (some s)⟩], (rest k).map (·, s), n, log⟩
      0 s k (some s)) := by
  have htidy' : Tidy (.stopped k s s :: log) n (some s) := htidy.cons _ rfl nofun nofun
  have hheld' : Held (.stopped k s s :: log) s := hheld.cons nofun
  cases hnext : k.next with
  | some k' =>
      obtain ⟨hrest, hk⟩ := rest_of_next hnext
      have hstopped' := stopped_of_rest hrest hstopped
      rw [hrest] at hfield ⊢
      obtain ⟨hown, hfield'⟩ := List.forall_mem_cons.mp hfield
      have hself : k' ∈ rest k' := by
        cases k' <;> decide
      unfold proceedCapture
      rw [List.map_cons, release_head rfl]
      dsimp only [record]
      rw [hnext]
      dsimp only
      by_cases hcamera : k = .camera
      · -- the field of the camera is cleared on the way; its capture is stopped
        have hnot : ∀ t, field k = some t → (k, t) ∉ (rest k').map (·, s) := by
          intro t _ hmem
          obtain ⟨x, hx, heq⟩ := List.mem_map.mp hmem
          exact hk ((Prod.mk.inj heq).1 ▸ hx)
        rw [if_pos hcamera, ← hcamera, clear_of_not_live hnot]
        dsimp only
        have hfield'' : ∀ x ∈ rest k', Function.update field k none x = some s := by
          intro x hx
          have hne : x ≠ k := by
            rintro rfl
            exact hk hx
          rw [Function.update_of_ne hne]
          exact hfield' x hx
        rw [hfield'' k' hself]
        exact .stopping s k' htidy' hheld' hfield'' hstopped'
      · rw [if_neg hcamera]
        dsimp only
        rw [hfield' k' hself]
        exact .stopping s k' htidy' hheld' hfield' hstopped'
  | none =>
      obtain ⟨hrest, hcamera⟩ := rest_of_last hnext
      have hstopped' := stopped_of_rest hrest hstopped
      rw [hrest] at hfield ⊢
      unfold proceedCapture
      rw [List.map_cons, release_head rfl]
      dsimp only [record]
      rw [hnext, if_neg hcamera]
      dsimp only
      simp only [clear_of_dead, List.map_nil]
      obtain ⟨hfinish, hcount⟩ :=
        htidy'.finish hheld' fun k' => hstopped' k' List.not_mem_nil
      unfold finish
      rw [if_neg hheld'.finish]
      refine .finishing s 10 hfinish hcount ⟨List.mem_cons_of_mem _ hheld'.created, ?_⟩
      exact fun hmem => hheld'.not_closed htidy' ((List.mem_cons.mp hmem).resolve_left nofun)

theorem phase_proceedStart (h : Phase r) {i : ℕ} (hi : i < r.starts.length) :
    Phase (r.proceedStart i) := by
  cases h with
  | creating left htidy =>
      obtain rfl : i = 0 := Nat.lt_one_iff.mp hi
      cases left with
      | succ left => exact .creating left htidy
      | zero =>
          obtain ⟨htidy', hheld⟩ := htidy.create
          exact .created _ htidy' hheld
  | created s htidy hheld =>
      obtain rfl : i = 0 := Nat.lt_one_iff.mp hi
      exact .recording s (htidy.cons (.started s) trivial nofun nofun) (hheld.cons nofun)
  | _ => exact absurd hi (Nat.not_lt_zero i)

theorem phase_proceedStop (h : Phase r) {i : ℕ} (hi : i < r.stops.length) :
    Phase (r.proceedStop i) := by
  cases h with
  | stopping s k htidy hheld hfield hstopped =>
      obtain rfl : i = 0 := Nat.lt_one_iff.mp hi
      exact phase_proceedCapture htidy hheld hfield hstopped
  | finishing s left htidy hcount hopen =>
      obtain rfl : i = 0 := Nat.lt_one_iff.mp hi
      cases left with
      | succ left => exact .finishing s left htidy hcount hopen
      | zero => exact .idle (htidy.close hcount)
  | _ => exact absurd hi (Nat.not_lt_zero i)

theorem phase_toggle (h : Phase r) (hcalm : r.Calm .toggle) : Phase r.toggle := by
  cases h with
  | idle htidy => exact .creating 4 (htidy.cons .reset htidy.allClosed nofun nofun)
  | recording s htidy hheld =>
      refine .stopping s .camera htidy hheld (fun _ _ => rfl) ?_
      intro k hk
      exact absurd (by cases k <;> decide) hk
  | creating left htidy => cases (hcalm rfl).1
  | created s htidy hheld => cases (hcalm rfl).1
  | stopping s k htidy hheld hfield hstopped => cases (hcalm rfl).2
  | finishing s left htidy hcount hopen => cases (hcalm rfl).2

/-- **Calm runs keep to the phases.** -/
theorem phase_invariant : (recorder.restrict Calm).Invariant Phase where
  init := by
    rintro r rfl
    exact .idle ⟨trivial, by simp, by simp⟩
  step := by
    rintro r e h ⟨hguard, hcalm⟩
    cases e with
    | toggle => exact phase_toggle h hcalm
    | proceedStart i => exact phase_proceedStart h hguard
    | proceedStop i => exact phase_proceedStop h hguard
    | raiseStop i => exact absurd hcalm id
    | raiseStart i =>
        obtain ⟨call, hcall, hcreating⟩ := (Option.any_eq_true _ _).mp hguard
        obtain ⟨hi, hget⟩ := List.getElem?_eq_some_iff.mp hcall
        cases h with
        | creating left htidy =>
            obtain rfl : i = 0 := Nat.lt_one_iff.mp hi
            exact .idle htidy
        | created s htidy hheld =>
            obtain rfl : i = 0 := Nat.lt_one_iff.mp hi
            rw [← hget] at hcreating
            cases hcreating
        | _ => exact absurd hi (Nat.not_lt_zero i)

/-! ## The contract of calm runs -/

theorem Tidy.contract (h : Tidy r.log n current)
    (hcurrent : ∀ s, current = some s → r.writer = some s ∨ r.InFlight s) : Contract r where
  one_open := by
    intro s t hs ht
    have hopen : ∀ u, Open r.log u → current = some u := fun u hu =>
      (h.closed u hu.1).resolve_right fun hclosed => hu.2 hclosed.2
    exact Option.some.inj ((hopen s hs).symm.trans (hopen t ht))
  finished := by
    intro s hs
    rcases h.closed s hs with hcur | hclosed
    · exact Or.inr (hcurrent s hcur)
    · exact Or.inl hclosed
  proper := h.proper

theorem Phase.contract (h : Phase r) : Contract r := by
  cases h with
  | idle htidy => exact htidy.contract nofun
  | creating left htidy => exact htidy.contract nofun
  | created s htidy hheld =>
      refine htidy.contract ?_
      rintro _ ⟨⟩
      exact Or.inr (Or.inl List.mem_cons_self)
  | recording s htidy hheld =>
      refine htidy.contract ?_
      rintro _ ⟨⟩
      exact Or.inl rfl
  | stopping s k htidy hheld hfield hstopped =>
      refine htidy.contract ?_
      rintro _ ⟨⟩
      exact Or.inr (Or.inr ⟨_, List.mem_cons_self, rfl⟩)
  | finishing s left htidy hcount hopen =>
      refine htidy.contract ?_
      rintro _ ⟨⟩
      exact Or.inr (Or.inr ⟨_, List.mem_cons_self, rfl⟩)

/-! ## Steps that are not calm -/

/-- The first call of `start` completes the creation of its writer. -/
theorem exec_proceedStart (left : ℕ) {cs : List StartCall} (h : r.starts = .creating left :: cs) :
    recorder.Enabled r (List.replicate (left + 1) (.proceedStart 0)) ∧
      recorder.exec r (List.replicate (left + 1) (.proceedStart 0)) =
        { r.record (.created r.writers) with
          writers := r.writers + 1
          starts := .created r.writers :: cs } := by
  have hguard : recorder.Guard r (.proceedStart 0) := by
    show 0 < r.starts.length
    rw [h]
    exact Nat.succ_pos _
  induction left generalizing r with
  | zero =>
      have hstep : r.proceedStart 0 = { r.record (.created r.writers) with
          writers := r.writers + 1
          starts := .created r.writers :: cs } := by
        simp [proceedStart, h]
      exact ⟨⟨hguard, trivial⟩, hstep⟩
  | succ left ih =>
      have hstep : r.proceedStart 0 = { r with starts := .creating left :: cs } := by
        simp [proceedStart, h]
      obtain ⟨henabled, hexec⟩ := ih (r := { r with starts := .creating left :: cs }) rfl
        (Nat.succ_pos _)
      rw [List.replicate_succ]
      refine ⟨⟨hguard, ?_⟩, ?_⟩
      · show recorder.Enabled (r.proceedStart 0) _
        rw [hstep]
        exact henabled
      · show recorder.exec (r.proceedStart 0) _ = _
        rw [hstep, hexec]
        rfl

/-- A session that is open and in nobody's hands. -/
theorem not_contract_of_lost (hopen : Open r.log s) (hwriter : r.writer ≠ some s)
    (hflight : ¬ r.InFlight s) : ¬ Contract r := by
  intro h
  rcases h.finished s hopen.1 with hclosed | hw | hf
  · exact hopen.2 hclosed.2
  · exact hwriter hw
  · exact hflight hf

/-- A clock that is reset while a session is open. -/
theorem not_contract_of_reset (hlog : r.log = .reset :: log) (hopen : Open log s) :
    ¬ Contract r := by
  intro h
  have hproper := h.proper
  rw [hlog] at hproper
  exact hopen.2 (hproper.1 s hopen.1)

/-- Two calls of `start` that overlap open two sessions. -/
theorem breaks_of_two_starts (left : ℕ) {field : Capture → Option ℕ} (htidy : Tidy log n none) :
    let r : Recorder := ⟨none, field, [.creating left, .creating 4], [], [], n, log⟩
    ∃ es, recorder.Enabled r es ∧ ¬ Contract (recorder.exec r es) := by
  intro r
  obtain ⟨hfirst, hfirst'⟩ := exec_proceedStart left (r := r) rfl
  -- the first recording begins, the second `start` goes on
  let r' : Recorder := ⟨some n, fun _ => some n, [.creating 4], [], captures.map (·, n) ++ [],
    n + 1, .started n :: .created n :: log⟩
  obtain ⟨hsecond, hsecond'⟩ := exec_proceedStart 4 (r := r') rfl
  refine ⟨List.replicate (left + 1) (.proceedStart 0) ++
    .proceedStart 0 :: List.replicate 5 (.proceedStart 0), ?_, ?_⟩
  · rw [Machine.enabled_append, hfirst']
    exact ⟨hfirst, Nat.succ_pos _, hsecond⟩
  · rw [Machine.exec_append, hfirst', Machine.exec_cons]
    show ¬ Contract (recorder.exec r' _)
    rw [hsecond']
    intro h
    have hnot : ∀ t, n ≤ t → .closed t ∉ log := fun t ht hclosed =>
      absurd (htidy.fresh t (Or.inr (htidy.finish_of_closed hclosed))) (Nat.not_lt.mpr ht)
    have hopen : ∀ t, n ≤ t → (.created t : RecordingEntry) ∈
        [.created (n + 1), .started n, .created n] ++ log →
        Open ([.created (n + 1), .started n, .created n] ++ log) t := by
      intro t ht hcreated
      refine ⟨hcreated, ?_⟩
      simp [hnot t ht]
    have heq := h.one_open n (n + 1) (hopen n (Nat.le_refl n) (by simp))
      (hopen (n + 1) (by omega) (by simp))
    omega

/-- **No other condition would do**: behind a step that is not calm the run can break the
contract, if it has not broken it already. -/
theorem breaks_of_not_calm (h : Phase r) {e : Event} (hguard : recorder.Guard r e)
    (hcalm : ¬ r.Calm e) :
    ∃ es, recorder.Enabled (recorder.next r e) es ∧
      ¬ Contract (recorder.exec (recorder.next r e) es) := by
  cases e with
  | toggle =>
      cases h with
      | idle htidy => exact absurd (fun _ => ⟨rfl, rfl⟩) hcalm
      | recording s htidy hheld => exact absurd (fun hw => by cases hw) hcalm
      | creating left htidy =>
          exact breaks_of_two_starts left (htidy.cons .reset htidy.allClosed nofun nofun)
      | created s htidy hheld =>
          exact ⟨[], trivial, not_contract_of_reset rfl ⟨hheld.created, hheld.not_closed htidy⟩⟩
      | stopping s k htidy hheld _ _ =>
          exact ⟨[], trivial, not_contract_of_reset rfl ⟨hheld.created, hheld.not_closed htidy⟩⟩
      | finishing s left htidy hcount hopen =>
          exact ⟨[], trivial, not_contract_of_reset rfl hopen⟩
  | raiseStop i =>
      -- the session of the call is in nobody's hands any more
      have hlost : ∀ (s : ℕ) (field : Capture → Option ℕ) (live : List (Capture × ℕ)) (m : ℕ)
          (log : List RecordingEntry), Open log s →
          ¬ Contract ⟨none, field, [], [], live, m, log⟩ :=
        fun s field live m log hopen => not_contract_of_lost hopen nofun
          (by rintro (hmem | ⟨call, hmem, -⟩) <;> exact absurd hmem List.not_mem_nil)
      cases h with
      | stopping s k htidy hheld _ _ =>
          obtain rfl : i = 0 := Nat.lt_one_iff.mp hguard
          exact ⟨[], trivial, hlost s _ _ _ _ ⟨hheld.created, hheld.not_closed htidy⟩⟩
      | finishing s left htidy hcount hopen =>
          obtain rfl : i = 0 := Nat.lt_one_iff.mp hguard
          exact ⟨[], trivial, hlost s _ _ _ _ hopen⟩
      | _ => exact absurd hguard (Nat.not_lt_zero i)
  | _ => exact absurd trivial hcalm

/-! ## The result -/

/-- **The contract holds in every state of a calm run**, and a step that is not calm lets the
run break it. -/
theorem contract_of_calm {es : List Event} (h : (recorder.restrict Calm).Run es r) :
    Contract r ∧ ∀ e, recorder.Guard r e → ¬ r.Calm e →
      ∃ es', recorder.Run (es ++ e :: es') (recorder.exec (recorder.next r e) es') ∧
        ¬ Contract (recorder.exec (recorder.next r e) es') := by
  have hphase := phase_invariant.of_run h
  refine ⟨hphase.contract, ?_⟩
  intro e hguard hcalm
  obtain ⟨es', henabled, hbroken⟩ := breaks_of_not_calm hphase hguard hcalm
  exact ⟨es', h.of_restrict.exec (e :: es') ⟨hguard, henabled⟩, hbroken⟩

end

/-- One recording, from the button to the closed files. -/
def oneRecording : List Event :=
  .toggle :: List.replicate 6 (.proceedStart 0) ++ .toggle :: List.replicate 16 (.proceedStop 0)

instance (r : Recorder) (e : Event) : Decidable ((recorder.restrict Calm).Guard r e) :=
  inferInstanceAs (Decidable (_ ∧ _))

theorem contract_of_calm_recording :
    (recorder.exec idle oneRecording).log.count (.closed 0) = 1 ∧
      Contract (recorder.exec idle oneRecording) := by
  have henabled : (recorder.restrict Calm).Enabled idle oneRecording := by decide
  have hrun : (recorder.restrict Calm).Run oneRecording (recorder.exec idle oneRecording) := by
    have h := Machine.run_of_enabled (M := recorder.restrict Calm) rfl henabled
    rwa [Machine.restrict_exec] at h
  exact ⟨by decide, (contract_of_calm hrun).1⟩

/-- The button is pressed a second time before the first writer is there. -/
def pressedTwice : List Event :=
  .toggle :: .toggle :: List.replicate 6 (.proceedStart 0) ++ List.replicate 6 (.proceedStart 0)

/-- Both calls of `start` pass the check of `isRecording`, and both sessions stay open. -/
theorem two_sessions_open : ¬ ∀ es r, recorder.Run es r → Contract r := by
  intro h
  have hrun : recorder.Run pressedTwice (recorder.exec idle pressedTwice) :=
    Machine.run_of_enabled rfl (by decide)
  have hopen : ∀ s ∈ [0, 1], Open (recorder.exec idle pressedTwice).log s := by
    unfold Open
    decide
  exact absurd ((h _ _ hrun).one_open 0 1 (hopen 0 (by decide)) (hopen 1 (by decide))) (by decide)

end Recorder
