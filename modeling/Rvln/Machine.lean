/-
# Guarded machines, their runs and their invariants

The components of this development are event handlers: a callback takes the
state of its component and one event (a message, a timer tick, a service call)
and returns the next state.  `Machine` packages such a handler with the initial
states and with the guard that says which events the environment may deliver.

* `Machine.Run es s` : the events `es`, oldest first, lead from some initial
  state to `s`, each of them enabled where it happened;
* `Machine.Invariant` : holds initially and is kept by every enabled step, so it
  holds at the end of every run (`Invariant.of_run`);
* `Machine.restrict` : the same machine with more demanding guards, for
  properties of the runs all of whose steps meet a condition, and
  `restrict_run_iff` and `restrict_run_iff_of_step`, the rules for conditions that
  are exact;
* `Machine.Refines` : a simulation, carried from steps to runs
  (`Refines.run`).
-/
import Mathlib.Data.List.Induction
import Mathlib.Logic.Basic
import Mathlib.Tactic.Basic

/-- An event-driven component: its initial states, the events enabled in a
state, and the handler. -/
structure Machine (State Event : Type*) where
  Init : State → Prop
  Guard : State → Event → Prop
  next : State → Event → State

namespace Machine

variable {State Event : Type*} (M : Machine State Event)

/-! ## Runs -/

/-- `M.Run es s`: the events `es`, oldest first, lead from an initial state to
`s`. -/
inductive Run : List Event → State → Prop
  | init {s : State} : M.Init s → Run [] s
  | snoc {es : List Event} {s : State} {e : Event} :
      Run es s → M.Guard s e → Run (es ++ [e]) (M.next s e)

/-- The states at the end of some run. -/
def Reachable (s : State) : Prop := ∃ es, M.Run es s

variable {M}

theorem Run.reachable {es : List Event} {s : State} (h : M.Run es s) : M.Reachable s :=
  ⟨es, h⟩

/-- The handler folded over a list of events. -/
def exec (M : Machine State Event) : State → List Event → State
  | s, [] => s
  | s, e :: es => exec M (M.next s e) es

/-- Every event of the list is enabled when its turn comes. -/
def Enabled (M : Machine State Event) : State → List Event → Prop
  | _, [] => True
  | s, e :: es => M.Guard s e ∧ Enabled M (M.next s e) es

instance Enabled.decidable [∀ s e, Decidable (M.Guard s e)] :
    ∀ s es, Decidable (M.Enabled s es)
  | _, [] => inferInstanceAs (Decidable True)
  | s, e :: es =>
      have := Enabled.decidable (M.next s e) es
      inferInstanceAs (Decidable (_ ∧ _))

@[simp] theorem exec_nil (s : State) : M.exec s [] = s := rfl

@[simp] theorem exec_cons (s : State) (e : Event) (es : List Event) :
    M.exec s (e :: es) = M.exec (M.next s e) es := rfl

/-- The events of two lists happen one list after the other. -/
theorem exec_append (s : State) (es fs : List Event) :
    M.exec s (es ++ fs) = M.exec (M.exec s es) fs := by
  induction es generalizing s with
  | nil => rfl
  | cons e es ih => exact ih (M.next s e)

/-- Events are enabled one list after the other. -/
theorem enabled_append {s : State} {es fs : List Event} :
    M.Enabled s (es ++ fs) ↔ M.Enabled s es ∧ M.Enabled (M.exec s es) fs := by
  induction es generalizing s with
  | nil => exact (and_iff_right trivial).symm
  | cons e es ih =>
      rw [List.cons_append]
      show _ ∧ _ ↔ (_ ∧ _) ∧ _
      rw [ih, and_assoc]
      rfl

/-- Replaying enabled events from the end of a run extends the run. -/
theorem Run.exec {es : List Event} {s : State} (h : M.Run es s) :
    ∀ fs, M.Enabled s fs → M.Run (es ++ fs) (M.exec s fs) := by
  intro fs
  induction fs generalizing es s with
  | nil =>
      intro _
      simpa using h
  | cons e fs ih =>
      rintro ⟨hg, hfs⟩
      simpa using ih (h.snoc hg) hfs

/-- Replaying enabled events from an initial state gives a run. -/
theorem run_of_enabled {s : State} (hs : M.Init s) {es : List Event} (h : M.Enabled s es) :
    M.Run es (M.exec s es) := by
  simpa using (Run.init hs).exec es h

/-- A run is the handler folded over its events. -/
theorem Run.exists_exec {es : List Event} {s : State} (h : M.Run es s) :
    ∃ s₀, M.Init s₀ ∧ s = M.exec s₀ es := by
  induction h with
  | @init s hs => exact ⟨s, hs, rfl⟩
  | @snoc es s e _ _ ih =>
      obtain ⟨s₀, hs₀, rfl⟩ := ih
      exact ⟨s₀, hs₀, by rw [exec_append]; rfl⟩

/-- The last step of a run. -/
theorem run_snoc_iff {es : List Event} {e : Event} {s : State} :
    M.Run (es ++ [e]) s ↔ ∃ t, M.Run es t ∧ M.Guard t e ∧ M.next t e = s := by
  constructor
  · intro h
    generalize hl : es ++ [e] = l at h
    cases h with
    | init _ => simp at hl
    | snoc hr hg =>
        obtain ⟨rfl, he⟩ := List.append_inj' hl rfl
        cases he
        exact ⟨_, hr, hg, rfl⟩
  · rintro ⟨t, hr, hg, rfl⟩
    exact hr.snoc hg

/-- The first events of a run are a run. -/
theorem Run.of_append {es fs : List Event} {s : State} (h : M.Run (es ++ fs) s) :
    ∃ t, M.Run es t := by
  induction fs using List.reverseRecOn generalizing s with
  | nil => exact ⟨s, by simpa using h⟩
  | append_singleton fs e ih =>
      rw [← List.append_assoc] at h
      obtain ⟨t, ht, -, -⟩ := run_snoc_iff.mp h
      exact ih ht

/-- With one initial state, the events determine where a run ends. -/
theorem Run.unique (hinit : ∀ s t, M.Init s → M.Init t → s = t) {es : List Event} {s t : State}
    (hs : M.Run es s) (ht : M.Run es t) : s = t := by
  obtain ⟨s₀, hs₀, rfl⟩ := hs.exists_exec
  obtain ⟨t₀, ht₀, rfl⟩ := ht.exists_exec
  rw [hinit s₀ t₀ hs₀ ht₀]

/-! ## Invariants -/

/-- `I` holds initially and every enabled step keeps it. -/
structure Invariant (M : Machine State Event) (I : State → Prop) : Prop where
  init : ∀ s, M.Init s → I s
  step : ∀ s e, I s → M.Guard s e → I (M.next s e)

/-- **The induction over a run**: an invariant holds where a run ends. -/
theorem Invariant.of_run {I : State → Prop} (hI : M.Invariant I) {es : List Event} {s : State}
    (h : M.Run es s) : I s := by
  induction h with
  | init hs => exact hI.init _ hs
  | snoc _ hg ih => exact hI.step _ _ ih hg

/-- An invariant holds in every reachable state. -/
theorem Invariant.of_reachable {I : State → Prop} (hI : M.Invariant I) {s : State}
    (h : M.Reachable s) : I s := by
  obtain ⟨_, hr⟩ := h
  exact hI.of_run hr

/-! ## Runs under a condition -/

/-- The machine whose steps must also meet `P`. -/
def restrict (M : Machine State Event) (P : State → Event → Prop) : Machine State Event where
  Init := M.Init
  Guard s e := M.Guard s e ∧ P s e
  next := M.next

@[simp] theorem restrict_exec (P : State → Event → Prop) (s : State) (es : List Event) :
    (M.restrict P).exec s es = M.exec s es := by
  induction es generalizing s with
  | nil => rfl
  | cons e es ih => exact ih (M.next s e)

/-- A run under a condition is a run. -/
theorem Run.of_restrict {P : State → Event → Prop} {es : List Event} {s : State}
    (h : (M.restrict P).Run es s) : M.Run es s := by
  induction h with
  | init hs => exact .init hs
  | snoc _ hg ih => exact ih.snoc hg.1

/-- **When a condition is exact**: `J` is what the runs under `P` keep, `J` gives
`I`, and a step that keeps `I` meets `P`.  Then `I` holds all along a run if and
only if every step of the run meets `P`. -/
theorem restrict_run_iff {P : State → Event → Prop} {I J : State → Prop}
    (hinit : ∀ s t, M.Init s → M.Init t → s = t) (hJ : (M.restrict P).Invariant J)
    (hJI : ∀ s, J s → I s) (hP : ∀ s e, J s → M.Guard s e → I (M.next s e) → P s e)
    {es : List Event} {s : State} (h : M.Run es s) :
    (∀ fs t, fs <+: es → M.Run fs t → I t) ↔ (M.restrict P).Run es s := by
  constructor
  · induction h with
    | init hs => exact fun _ => .init hs
    | @snoc es s e hr hg ih =>
        intro hall
        have hrun : (M.restrict P).Run es s :=
          ih fun fs t hfs => hall fs t (hfs.trans (List.prefix_append es [e]))
        have hlast : I (M.next s e) := hall _ _ (List.prefix_refl _) (hr.snoc hg)
        exact hrun.snoc ⟨hg, hP s e (hJ.of_run hrun) hg hlast⟩
  · rintro hrun fs t ⟨gs, rfl⟩ ht
    obtain ⟨t', ht'⟩ := hrun.of_append
    rw [ht.unique hinit ht'.of_restrict]
    exact hJI t' (hJ.of_run ht')

/-- **When a history grows by steps**: `G` holds of a state after a step if and only if it
held before and the step meets `P`.  Then `G` holds at the end of a run if and only if every
step of the run meets `P`. -/
theorem restrict_run_iff_of_step {P : State → Event → Prop} {I G : State → Prop}
    (hI : M.Invariant I) (hinit : ∀ s, M.Init s → G s)
    (hstep : ∀ s e, I s → M.Guard s e → (G (M.next s e) ↔ G s ∧ P s e))
    {es : List Event} {s : State} (h : M.Run es s) : G s ↔ (M.restrict P).Run es s := by
  constructor
  · induction h with
    | init hs => exact fun _ => .init hs
    | @snoc es s e hr hg ih =>
        intro hG
        obtain ⟨hold, hP⟩ := (hstep s e (hI.of_run hr) hg).mp hG
        exact (ih hold).snoc ⟨hg, hP⟩
  · intro hr
    have hJ : (M.restrict P).Invariant fun s => I s ∧ G s :=
      { init := fun s hs => ⟨hI.init s hs, hinit s hs⟩
        step := fun s e h hg =>
          ⟨hI.step s e h.1 hg.1, (hstep s e h.1 hg.1).mpr ⟨h.2, hg.2⟩⟩ }
    exact (hJ.of_run hr).2

/-! ## Refinement -/

/-- `M` refines `A` up to `R`: every initial state of `M` has a related initial
state of `A`, and every enabled step of `M` is matched by the step of `A` on the
translated event. -/
structure Refines {State' Event' : Type*} (M : Machine State Event)
    (A : Machine State' Event') (tr : Event → Event') (R : State → State' → Prop) : Prop where
  init : ∀ s, M.Init s → ∃ a, A.Init a ∧ R s a
  step : ∀ s a e, R s a → M.Guard s e →
    A.Guard a (tr e) ∧ R (M.next s e) (A.next a (tr e))

/-- **The simulation over a run**: a run of `M` is matched by the run of `A` on
the translated events. -/
theorem Refines.run {State' Event' : Type*} {A : Machine State' Event'} {tr : Event → Event'}
    {R : State → State' → Prop} (hR : M.Refines A tr R) {es : List Event} {s : State}
    (h : M.Run es s) : ∃ a, A.Run (es.map tr) a ∧ R s a := by
  induction h with
  | init hs =>
      obtain ⟨a, ha, hr⟩ := hR.init _ hs
      exact ⟨a, .init ha, hr⟩
  | snoc _ hg ih =>
      obtain ⟨a, ha, hr⟩ := ih
      obtain ⟨hga, hr'⟩ := hR.step _ _ _ hr hg
      refine ⟨_, ?_, hr'⟩
      rw [List.map_append]
      exact ha.snoc hga

end Machine
