/-
# What the manifest of a batch accounts for

A resumed batch keeps the count of the manifest it finds until its first episode
succeeds, and a failing, timed-out or retried attempt writes that count back.  The
manifest is right all along (`accounting_iff`) if and only if that count is no
larger than the number of rows that match the plan, or nothing has to be run; and
a batch never makes a directory that breaks this (`Counted.resumable`).

The check after an attempt does not look at `split_sha256`, so what a successful child
says of the split is part of the condition (`Honest`).
-/
import Mathlib.Algebra.Order.Group.Nat
import Rvln.BatchRun

namespace Batch

open Procedure

variable {Figures : Type} {r : Request}

/-! ## Rows that match the plan -/

section

variable (r)

/-- The result row of an episode matches the plan: the batch skips it. -/
def rowMatches (out : Option (Directory Figures)) (i : ℕ) : Bool :=
  match r.episodes[i]?, rowAt out i with
  | some e, some (.object row) => decide (r.IsCurrent e row)
  | _, _ => false

/-- The number of episodes whose result row matches the plan. -/
def matching (out : Option (Directory Figures)) : ℕ :=
  (List.range r.episodes.length).countP (rowMatches r out)

/-- The number of the other episodes whose result row matches the plan. -/
def matchingBut (out : Option (Directory Figures)) (i : ℕ) : ℕ :=
  (List.range r.episodes.length).countP fun j => decide (j ≠ i) && rowMatches r out j

/-- The manifest counts no more episodes than have a matching row. -/
def Tallied (out : Option (Directory Figures)) : Prop :=
  ∀ m, manifestOf out = some m → m.completedEpisodes ≤ matching r out

/-- The result row of an episode passes the check after an attempt. -/
def RowAgrees (out : Option (Directory Figures)) (i : ℕ) : Prop :=
  ∃ e row, r.episodes[i]? = some e ∧ rowAt out i = some (.object row) ∧ ¬ r.Rejects e 0 row

end

variable {out out' : Option (Directory Figures)} {i : ℕ}

theorem rowMatches_iff :
    rowMatches r out i = true ↔
      ∃ e row, r.episodes[i]? = some e ∧ rowAt out i = some (.object row) ∧ r.IsCurrent e row := by
  unfold rowMatches
  constructor
  · intro h
    split at h
    · next e row he hrow => exact ⟨e, row, he, hrow, of_decide_eq_true h⟩
    · cases h
  · rintro ⟨e, row, he, hrow, hcurrent⟩
    rw [he, hrow]
    exact decide_eq_true hcurrent

/-- The two checks differ in `split_sha256` only. -/
theorem isCurrent_iff {e : Episode} {row : Row} :
    r.IsCurrent e row ↔ ¬ r.Rejects e 0 row ∧ row.get "split_sha256" = .str r.splitSha256 := by
  unfold Request.IsCurrent Request.Rejects
  simp only [not_or, not_not, ne_eq]
  tauto

theorem RowAgrees.rowMatches (h : RowAgrees r out i)
    (hsplit : ∀ row, rowAt out i = some (.object row) →
      row.get "split_sha256" = .str r.splitSha256) : rowMatches r out i = true := by
  obtain ⟨e, row, he, hrow, hagrees⟩ := h
  exact rowMatches_iff.mpr ⟨e, row, he, hrow, isCurrent_iff.mpr ⟨hagrees, hsplit row hrow⟩⟩

theorem rowMatches.agrees (h : rowMatches r out i = true) : RowAgrees r out i := by
  obtain ⟨e, row, he, hrow, hcurrent⟩ := rowMatches_iff.mp h
  exact ⟨e, row, he, hrow, (isCurrent_iff.mp hcurrent).1⟩

theorem rowMatches_congr (h : rowAt out i = rowAt out' i) :
    rowMatches r out i = rowMatches r out' i := by
  unfold rowMatches
  rw [h]

theorem RowAgrees.congr (h : RowAgrees r out i) (heq : rowAt out' i = rowAt out i) :
    RowAgrees r out' i := by
  obtain ⟨e, row, he, hrow, hagrees⟩ := h
  exact ⟨e, row, he, heq.trans hrow, hagrees⟩

/-- More matching rows, a larger number. -/
theorem matching_mono
    (h : ∀ i < r.episodes.length, rowMatches r out i = true → rowMatches r out' i = true) :
    matching r out ≤ matching r out' := by
  apply List.countP_mono_left
  intro i hi
  exact h i (List.mem_range.mp hi)

theorem matching_congr (h : ∀ j, rowAt out' j = rowAt out j) :
    matching r out' = matching r out := by
  apply List.countP_congr
  intro j _
  rw [rowMatches_congr (h j)]

/-- Without the row of `i`, the others are left. -/
theorem matchingBut_le (h : ∀ j ≠ i, rowAt out' j = rowAt out j) :
    matchingBut r out i ≤ matching r out' := by
  apply List.countP_mono_left
  intro j _ hj
  obtain ⟨hne, hmatch⟩ := Bool.and_eq_true_iff.mp hj
  rwa [rowMatches_congr (h j (of_decide_eq_true hne))]

theorem matchingBut_congr (h : ∀ j ≠ i, rowAt out' j = rowAt out j) :
    matchingBut r out' i = matchingBut r out i := by
  apply List.countP_congr
  intro j _
  by_cases hj : j = i
  · simp [hj]
  · rw [rowMatches_congr (h j hj)]

theorem matching_le_matchingBut (h : rowMatches r out i = false) :
    matching r out ≤ matchingBut r out i := by
  apply List.countP_mono_left
  intro j _ hj
  have hne : j ≠ i := by
    rintro rfl
    rw [h] at hj
    cases hj
  rw [decide_eq_true hne, hj]
  rfl

/-- The first rows match. -/
theorem le_matching {k : ℕ} (hk : k ≤ r.episodes.length)
    (h : ∀ j < k, rowMatches r out j = true) : k ≤ matching r out := by
  have hall : (List.range k).countP (rowMatches r out) = k := by
    rw [List.countP_eq_length.mpr, List.length_range]
    intro j hj
    exact h j (List.mem_range.mp hj)
  calc k = (List.range k).countP (rowMatches r out) := hall.symm
    _ ≤ matching r out := (List.range_sublist.mpr hk).countP_le

/-! ## Effects on the disk -/

/-- The effect does not change the result file of episode `j`. -/
def Effect.KeepsRow (j : ℕ) : Effect Figures → Prop
  | .row i _ => j ≠ i
  | .mkdir => False
  | _ => True

theorem rowAt_next {x : Effect Figures} {j : ℕ} (h : x.KeepsRow j) :
    rowAt ((disk Figures).next out x) j = rowAt out j := by
  rcases out with - | d
  · match x, h with
    | .row _ _, _ => rfl
    | .manifest _, _ => rfl
    | .attempt _ _, _ => rfl
    | .output _ _ _, _ => rfl
    | .summary _, _ => rfl
  · match x, h with
    | .row _ _, h => exact Function.update_of_ne h _ _
    | .manifest _, _ => rfl
    | .attempt _ _, _ => rfl
    | .output _ _ _, _ => rfl
    | .summary _, _ => rfl

theorem isSome_next (x : Effect Figures) (h : out.isSome = true) :
    ((disk Figures).next out x).isSome = true := by
  obtain ⟨d, rfl⟩ := Option.isSome_iff_exists.mp h
  cases x <;> rfl

/-- The names of the attempt logs, oldest first. -/
def logNames (out : Option (Directory Figures)) : List (ℕ × ℕ) :=
  (logsOf out).entries.map Prod.fst

/-- `open_attempt_log` finds a name: there are fewer logs than candidates. -/
theorem exists_fresh (names : List (ℕ × ℕ)) (i : ℕ) :
    (i, ((List.range (names.length + 1)).find? fun k => decide ((i, k) ∉ names)).getD 0) ∉
      names := by
  have hsome : ((List.range (names.length + 1)).find? fun k =>
      decide ((i, k) ∉ names)).isSome = true := by
    by_contra hnone
    rw [List.find?_isSome] at hnone
    push Not at hnone
    have hsub : (List.range (names.length + 1)).map (fun k => (i, k)) ⊆ names := by
      intro e he
      obtain ⟨k, hk, rfl⟩ := List.mem_map.mp he
      have hin := hnone k hk
      simpa using hin
    have hnodup : ((List.range (names.length + 1)).map fun k => (i, k)).Nodup :=
      List.nodup_range.map fun a b hab => (Prod.mk.inj hab).2
    have hlen := (List.subperm_of_subset hnodup hsub).length_le
    rw [List.length_map, List.length_range] at hlen
    omega
  obtain ⟨k, hk⟩ := Option.isSome_iff_exists.mp hsome
  have hfound := List.find?_some hk
  rw [hk]
  exact of_decide_eq_true hfound

/-! ## What a batch keeps to -/

section

variable (r) (H : Prop) (out₀ : Option (Directory Figures))

/-- What every effect of a batch meets where it happens; the count is right under `H`, and
no result file is replaced that the manifest counts on. -/
def Kept (out : Option (Directory Figures)) : Effect Figures → Prop
  | .manifest m => H → m.completedEpisodes ≤ matching r out
  | .row i _ => H → Tallied r out₀ → ∀ m, manifestOf out = some m →
      m.completedEpisodes ≤ matchingBut r out i
  | .attempt i k => (i, k) ∉ logNames out ∧ rowMatches r out i = false
  | .output i k _ => (logNames out).getLast? = some (i, k)
  | .mkdir => out = none
  | _ => True

end

variable {H : Prop} {out₀ : Option (Directory Figures)}

/-- A tallied directory stays so. -/
theorem Tallied.next {x : Effect Figures} (h : Tallied r out) (hx : Kept r H out₀ out x) (hH : H)
    (h₀ : Tallied r out₀) : Tallied r ((disk Figures).next out x) := by
  intro m hm
  rcases out with - | d
  · have hnone : manifestOf ((disk Figures).next none x) = none := by
      cases x <;> rfl
    rw [hnone] at hm
    cases hm
  · match x, hx, hm with
    | .mkdir, hx, _ => cases hx
    | .manifest _, hx, hm =>
        cases hm
        exact (hx hH).trans_eq (matching_congr fun j => rowAt_next (x := .manifest m) trivial).symm
    | .attempt i k, _, hm =>
        exact (h m hm).trans_eq
          (matching_congr fun j => rowAt_next (x := .attempt i k) trivial).symm
    | .output i k text, _, hm =>
        exact (h m hm).trans_eq
          (matching_congr fun j => rowAt_next (x := .output i k text) trivial).symm
    | .summary s, _, hm =>
        exact (h m hm).trans_eq (matching_congr fun j => rowAt_next (x := .summary s) trivial).symm
    | .row i file, hx, hm =>
        exact (hx hH h₀ m hm).trans
          (matchingBut_le fun j hj => rowAt_next (x := .row i file) hj)

theorem Tallied.exec {xs : List (Effect Figures)} (h : Tallied r out)
    (hxs : ((disk Figures).restrict (Kept r H out₀)).Enabled out xs) (hH : H)
    (h₀ : Tallied r out₀) : Tallied r ((disk Figures).exec out xs) := by
  induction xs generalizing out with
  | nil => exact h
  | cons x xs ih => exact ih (h.next hxs.1.2 hH h₀) hxs.2

/-- Once an attempt has begun, the logs before it stay. -/
theorem prefix_dropLast_next {x : Effect Figures} {es : List ((ℕ × ℕ) × String)}
    (hx : Kept r H out₀ out x) (h : es <+: (logsOf out).entries.dropLast) :
    es <+: (logsOf ((disk Figures).next out x)).entries.dropLast := by
  rcases out with - | d
  · match x, hx with
    | .row _ _, _ => exact h
    | .manifest _, _ => exact h
    | .attempt _ _, _ => exact h
    | .output _ _ _, _ => exact h
    | .summary _, _ => exact h
    | .mkdir, _ => exact h
  · match x, hx with
    | .row _ _, _ => exact h
    | .manifest _, _ => exact h
    | .summary _, _ => exact h
    | .attempt i k, hx =>
        change es <+: (d.logs.set (i, k) "").entries.dropLast
        rw [PyDict.entries_set_of_not_mem (d := d.logs) hx.1, List.dropLast_concat]
        exact h.trans (List.dropLast_prefix _)
    | .output i k text, hx =>
        change es <+: (d.logs.set (i, k) _).entries.dropLast
        rw [PyDict.dropLast_set (d := d.logs) hx]
        exact h

theorem prefix_dropLast_exec {xs : List (Effect Figures)} {es : List ((ℕ × ℕ) × String)}
    (hxs : ((disk Figures).restrict (Kept r H out₀)).Enabled out xs)
    (h : es <+: (logsOf out).entries.dropLast) :
    es <+: (logsOf ((disk Figures).exec out xs)).entries.dropLast := by
  induction xs generalizing out with
  | nil => exact h
  | cons x xs ih => exact ih hxs.2 (prefix_dropLast_next hxs.1.2 h)

/-- **No log is overwritten**: the logs there are when an attempt begins stay. -/
theorem logs_prefix {i k : ℕ} {xs : List (Effect Figures)}
    (h : ((disk Figures).restrict (Kept r H out₀)).Enabled out (.attempt i k :: xs)) :
    (logsOf out).entries <+:
      (logsOf ((disk Figures).exec out (.attempt i k :: xs))).entries := by
  have hfirst : (logsOf out).entries <+:
      (logsOf ((disk Figures).next out (.attempt i k))).entries.dropLast := by
    rcases out with - | d
    · exact List.prefix_refl _
    · have hset : (d.logs.set (i, k) "").entries.dropLast = d.logs.entries := by
        rw [PyDict.entries_set_of_not_mem (d := d.logs) h.1.2.1, List.dropLast_concat]
      change d.logs.entries <+: (d.logs.set (i, k) "").entries.dropLast
      exact hset.symm ▸ List.prefix_refl d.logs.entries
  exact (prefix_dropLast_exec h.2 hfirst).trans (List.dropLast_prefix _)

/-! ## One child -/

/-- Started on its own log, a child keeps to it, and changes its own result file only. -/
theorem child_writes {i k : ℕ} (ws : List Write) (hout : out.isSome = true)
    (hlog : (logNames out).getLast? = some (i, k))
    (hbut : H → Tallied r out₀ → ∀ m, manifestOf out = some m →
      m.completedEpisodes ≤ matchingBut r out i) :
    let xs : List (Effect Figures) := ws.map (Child.effect i k)
    ((disk Figures).restrict (Kept r H out₀)).Enabled out xs ∧
      ((disk Figures).exec out xs).isSome = true ∧
      (∀ j ≠ i, rowAt ((disk Figures).exec out xs) j = rowAt out j) ∧
      rowAt ((disk Figures).exec out xs) i = Child.leaves (rowAt out i) ws := by
  induction ws generalizing out with
  | nil => exact ⟨trivial, hout, fun _ _ => rfl, rfl⟩
  | cons w ws ih =>
      -- after one write the log is still the last one, and other rows are as they were
      obtain ⟨d, rfl⟩ := Option.isSome_iff_exists.mp hout
      have hlog' : (logNames ((disk Figures).next (some d) (Child.effect i k w))).getLast? =
          some (i, k) := by
        match w with
        | .row file => exact hlog
        | .output text =>
            change ((d.logs.set (i, k) _).entries.map Prod.fst).getLast? = _
            rw [PyDict.map_fst_set (d := d.logs) (List.mem_of_getLast? hlog)]
            exact hlog
      have hkeeps : ∀ j ≠ i, (Child.effect i k w : Effect Figures).KeepsRow j := by
        intro j hj
        match w with
        | .row _ => exact hj
        | .output _ => trivial
      have hbut' : H → Tallied r out₀ →
          ∀ m, manifestOf ((disk Figures).next (some d) (Child.effect i k w)) = some m →
            m.completedEpisodes ≤
              matchingBut r ((disk Figures).next (some d) (Child.effect i k w)) i := by
        intro hH h₀ m hm
        rw [matchingBut_congr fun j hj => rowAt_next (hkeeps j hj)]
        apply hbut hH h₀ m
        match w, hm with
        | .row _, hm => exact hm
        | .output _, hm => exact hm
      obtain ⟨henabled, hsome, hrows, hrow⟩ :=
        ih (isSome_next (Child.effect i k w) hout) hlog' hbut'
      refine ⟨⟨⟨trivial, ?_⟩, henabled⟩, hsome, ?_, ?_⟩
      · match w with
        | .row _ => exact hbut
        | .output _ => exact hlog
      · intro j hj
        exact (hrows j hj).trans (rowAt_next (hkeeps j hj))
      · refine hrow.trans ?_
        match w with
        | .row file =>
            change Child.leaves (Function.update d.rows i (some file) i) ws = _
            rw [Function.update_self]
            rfl
        | .output _ => rfl

/-- A child that replaces its result file leaves what it wrote last. -/
theorem leaves_cases (ws : List Write) :
    (∀ old, Child.leaves old ws = old) ∨ ∃ file, ∀ old, Child.leaves old ws = file := by
  induction ws with
  | nil => exact Or.inl fun _ => rfl
  | cons w ws ih =>
      match w with
      | .row file => exact Or.inr ⟨Child.leaves (some file) ws, fun _ => rfl⟩
      | .output _ => exact ih

/-! ## The condition -/

section

variable (r)

/-- What `run_batch` checks of its arguments. -/
def Request.Valid : Prop :=
  ¬ r.policyId.toList.all NavidaText.isSpace ∧
    ¬ (r.maxSteps < 1 ∨ r.episodeTimeout < 1 ∨ r.startupRetries < 0) ∧ r.episodes ≠ []

/-- No child has to run: the first row that does not match, if any, is of a file that is
no JSON object, and stops the batch. -/
def Settled (out : Option (Directory Figures)) : Prop :=
  ∀ i < r.episodes.length, (∀ j < i, rowMatches r out j = true) →
    rowMatches r out i = true ∨ rowAt out i = some .notObject

/-- The manifest that a batch resumes from counts no more episodes than have a matching
row, or no child has to run. -/
def Counted (resume : Bool) (out : Option (Directory Figures)) : Prop :=
  r.Valid → resume = true → ∀ m, manifestOf out = some m → m.plan = r.plan →
    m.completedEpisodes ≤ matching r out ∨ Settled r out

/-- A child that exits with 0 and whose row passes the check after the attempt names the
split of the plan.  A child that writes no row leaves the one it finds. -/
def Honest (out : Option (Directory Figures)) (child : ℕ → ℕ → Child) : Prop :=
  ∀ i k e row, r.episodes[i]? = some e → (child i k).exit = .code 0 →
    Child.leaves (if k = 0 then rowAt out i else none) (child i k).writes = some (.object row) →
    ¬ r.Rejects e 0 row → row.get "split_sha256" = .str r.splitSha256

end

/-! ## The attempts at an episode -/

section

variable (r) (H) (child : ℕ → ℕ → Child) (out₀ : Option (Directory Figures))

/-- Before the attempt `k` at episode `i`. -/
structure Attempting (i k : ℕ) (m : Manifest) (out : Option (Directory Figures)) : Prop where
  made : out.isSome = true
  ahead : ∀ j, i < j → rowAt out j = rowAt out₀ j
  agrees : ∀ j < i, RowAgrees r out j
  counted : H → (∀ j < i, rowMatches r out j = true) ∧ m.completedEpisodes ≤ matching r out
  tallied : H → Tallied r out₀ → Tallied r out
  stale : rowMatches r out i = false
  untouched : k = 0 → rowAt out i = rowAt out₀ i
  incomplete : 0 < k → ∀ row, rowAt out i = some (.object row) →
    row.get "status" ≠ .str "completed"

/-- After the attempt `k` at episode `i`. -/
structure Attempted (i k : ℕ) (e : Episode) (m : Manifest) (out : Option (Directory Figures)) :
    Prop where
  made : out.isSome = true
  ahead : ∀ j, i < j → rowAt out j = rowAt out₀ j
  agrees : ∀ j < i, RowAgrees r out j
  counted : H → (∀ j < i, rowMatches r out j = true) ∧ m.completedEpisodes ≤ matching r out
  tallied : H → Tallied r out₀ → Tallied r out
  honest : H → (child i k).exit = .code 0 → ∀ row, rowAt out i = some (.object row) →
    ¬ r.Rejects e 0 row → row.get "split_sha256" = .str r.splitSha256

end

variable {child : ℕ → ℕ → Child} {out₀ : Option (Directory Figures)} {k : ℕ} {m : Manifest}
  {e : Episode}

theorem Attempting.congr (h : Attempting r H out₀ i k m out) (hmade : out'.isSome = true)
    (htallied : H → Tallied r out₀ → Tallied r out') (hrows : ∀ j, rowAt out' j = rowAt out j) :
    Attempting r H out₀ i k m out' where
  made := hmade
  ahead j hj := (hrows j).trans (h.ahead j hj)
  agrees j hj := (h.agrees j hj).congr (hrows j)
  counted hH := by
    rw [matching_congr hrows]
    refine ⟨fun j hj => ?_, (h.counted hH).2⟩
    rw [rowMatches_congr (hrows j)]
    exact (h.counted hH).1 j hj
  tallied := htallied
  stale := (rowMatches_congr (hrows i)).trans h.stale
  untouched hk := (hrows i).trans (h.untouched hk)
  incomplete hk row hrow := h.incomplete hk row ((hrows i).symm.trans hrow)

/-- An attempt changes a row that did not match, and no other. -/
theorem Attempting.attempted (honest : H → Honest r out₀ child) (he : r.episodes[i]? = some e)
    (h : Attempting r H out₀ i k m out) (hmade : out'.isSome = true)
    (htallied : H → Tallied r out₀ → Tallied r out') (hrows : ∀ j ≠ i, rowAt out' j = rowAt out j)
    (hrow : rowAt out' i = Child.leaves (rowAt out i) (child i k).writes) :
    Attempted r H child out₀ i k e m out' where
  made := hmade
  ahead j hj := (hrows j hj.ne').trans (h.ahead j hj)
  agrees j hj := (h.agrees j hj).congr (hrows j hj.ne)
  counted hH := by
    obtain ⟨hmatch, hcount⟩ := h.counted hH
    refine ⟨fun j hj => ?_, hcount.trans (matching_mono fun j _ hj => ?_)⟩
    · rw [rowMatches_congr (hrows j hj.ne)]
      exact hmatch j hj
    · have hne : j ≠ i := by
        rintro rfl
        rw [h.stale] at hj
        cases hj
      rwa [rowMatches_congr (hrows j hne)]
  tallied := htallied
  honest hH hexit row hleft hagrees := by
    apply honest hH i k e row he hexit _ hagrees
    rw [← hleft, hrow]
    by_cases hk : k = 0
    · rw [if_pos hk, h.untouched hk]
    · rw [if_neg hk]
      rcases leaves_cases (child i k).writes with hkeep | ⟨file, hfile⟩
      · -- the row of an earlier attempt is not complete
        rw [hkeep] at hrow
        have hstatus := h.incomplete (Nat.pos_of_ne_zero hk) row (hrow.symm.trans hleft)
        exact absurd (Or.inr (Or.inl hstatus)) hagrees
      · rw [hfile, hfile]

theorem openAttemptLog_meets :
    (openAttemptLog i : BatchM Figures ℕ).Meets (Kept r H out₀) (Attempting r H out₀ i k m)
      fun log out => Attempting r H out₀ i k m out ∧ (logNames out).getLast? = some (i, log) := by
  apply Meets.bind (Q := fun log out => Attempting r H out₀ i k m out ∧ (i, log) ∉ logNames out)
  · exact Meets.look fun out h => ⟨h, exists_fresh (logNames out) i⟩
  · intro log
    apply Meets.bind (Q := fun _ out => Attempting r H out₀ i k m out ∧
      (logNames out).getLast? = some (i, log))
    · apply Meets.emit
      rintro out ⟨h, hfresh⟩
      have hkept : Kept r H out₀ out (.attempt i log) := ⟨hfresh, h.stale⟩
      refine ⟨trivial, hkept, h.congr (isSome_next _ h.made)
        (fun hH h₀ => (h.tallied hH h₀).next hkept hH h₀) fun j => rowAt_next trivial, ?_⟩
      obtain ⟨d, rfl⟩ := Option.isSome_iff_exists.mp h.made
      change ((d.logs.set (i, log) "").entries.map Prod.fst).getLast? = _
      rw [PyDict.entries_set_of_not_mem (d := d.logs) hfresh, List.map_append,
        List.map_singleton, List.getLast?_concat]
    · exact fun _ => Meets.pure fun _ h => h

/-- Nothing is left of `row` when the file cannot be read. -/
theorem loadRow_get {file : Option RowFile} {row : Row} {key : String} {v : String}
    (h : loadRow file = .ok row) (hget : row.get key = .str v) : file = some (.object row) := by
  match file, h with
  | none, h =>
      cases h
      cases hget
  | some .unreadable, h =>
      cases h
      cases hget
  | some (.object row'), h =>
      cases h
      rfl

/-- One attempt: the log is new, the child keeps to its own files, and the manifest of a
time-out still counts matching rows only. -/
theorem attempt_meets (honest : H → Honest r out₀ child) (he : r.episodes[i]? = some e) :
    (attempt child i e k m : BatchM Figures (ℤ × Row)).Meets (Kept r H out₀)
      (Attempting r H out₀ i k m)
      fun result out => Attempted r H child out₀ i k e m out ∧
        loadRow (rowAt out i) = .ok result.2 ∧ (child i k).exit = .code result.1 := by
  apply Meets.bind openAttemptLog_meets
  intro log
  apply Meets.bind (Q := fun _ => Attempted r H child out₀ i k e m)
  · apply Meets.emits
    rintro out ⟨h, hlog⟩
    have hbut : H → Tallied r out₀ → ∀ m, manifestOf out = some m →
        m.completedEpisodes ≤ matchingBut r out i := by
      intro hH h₀ m hm
      exact (h.tallied hH h₀ m hm).trans (matching_le_matchingBut h.stale)
    obtain ⟨henabled, hmade, hrows, hrow⟩ := child_writes (child i k).writes h.made hlog hbut
    exact ⟨henabled, h.attempted honest he hmade
      (fun hH h₀ => (h.tallied hH h₀).exec henabled hH h₀) hrows hrow⟩
  · intro _
    match hexit : (child i k).exit with
    | .timeout =>
        -- the manifest counts as many rows as before the attempt
        apply Meets.bind (Q := fun _ _ => True)
        · apply Meets.emit
          intro out h
          exact ⟨trivial, fun hH => (h.counted hH).2, trivial⟩
        · exact fun _ => Meets.fail
    | .code returncode =>
        apply Meets.bind (Q := fun file out => Attempted r H child out₀ i k e m out ∧
          file = rowAt out i)
        · exact Meets.look fun out h => ⟨h, rfl⟩
        · intro file
          apply Meets.bind (Q := fun row out => Attempted r H child out₀ i k e m out ∧
            loadRow (rowAt out i) = .ok row)
          · apply Meets.lift
            rintro row hrow out ⟨h, rfl⟩
            exact ⟨h, hrow⟩
          · intro row
            exact Meets.pure fun out h => ⟨h.1, h.2, rfl⟩

/-- After the last attempt at episode `i`. -/
structure Finished (r : Request) (H : Prop) (out₀ : Option (Directory Figures)) (i : ℕ)
    (e : Episode) (result : Manifest × ℤ × Row) (out : Option (Directory Figures)) : Prop where
  made : out.isSome = true
  ahead : ∀ j, i < j → rowAt out j = rowAt out₀ j
  agrees : ∀ j < i, RowAgrees r out j
  counted : H → (∀ j < i, rowMatches r out j = true) ∧
    result.1.completedEpisodes ≤ matching r out
  tallied : H → Tallied r out₀ → Tallied r out
  loaded : loadRow (rowAt out i) = .ok result.2.2
  honest : H → ¬ r.Rejects e result.2.1 result.2.2 →
    result.2.2.get "split_sha256" = .str r.splitSha256

/-- What the check after the attempts accepts. -/
theorem accepted_iff {returncode : ℤ} {row : Row} :
    ¬ r.Rejects e returncode row ↔ returncode = 0 ∧ ¬ r.Rejects e 0 row := by
  unfold Request.Rejects
  simp only [not_or, not_not, ne_eq, true_and]

theorem status_of_accepted {row : Row} (h : ¬ r.Rejects e 0 row) :
    row.get "status" = .str "completed" := by
  unfold Request.Rejects at h
  rw [not_or, not_or] at h
  exact not_not.mp h.2.1

theorem Attempted.finished (h : Attempted r H child out₀ i k e m out) {returncode : ℤ} {row : Row}
    (hload : loadRow (rowAt out i) = .ok row) (hexit : (child i k).exit = .code returncode) :
    Finished r H out₀ i e (m, returncode, row) out where
  made := h.made
  ahead := h.ahead
  agrees := h.agrees
  counted := h.counted
  tallied := h.tallied
  loaded := hload
  honest hH haccepted := by
    obtain ⟨rfl, hagrees⟩ := accepted_iff.mp haccepted
    exact h.honest hH hexit row (loadRow_get hload (status_of_accepted hagrees)) hagrees

/-- The loop over the attempts, by induction on the retries that are left. -/
theorem attempts_meets (honest : H → Honest r out₀ child) (he : r.episodes[i]? = some e)
    (retries : ℕ) :
    (attempts child i e retries k m : BatchM Figures (Manifest × ℤ × Row)).Meets (Kept r H out₀)
      (Attempting r H out₀ i k m) (Finished r H out₀ i e) := by
  induction retries generalizing k m with
  | zero =>
      apply Meets.bind (attempt_meets honest he)
      rintro ⟨returncode, row⟩
      apply Meets.ite
      · exact fun _ => Meets.pure fun out ⟨h, hload, hexit⟩ => h.finished hload hexit
      · exact fun _ => Meets.pure fun out ⟨h, hload, hexit⟩ => h.finished hload hexit
  | succ retries ih =>
      apply Meets.bind (attempt_meets honest he)
      rintro ⟨returncode, row⟩
      apply Meets.ite
      · exact fun _ => Meets.pure fun out ⟨h, hload, hexit⟩ => h.finished hload hexit
      · intro hstatus
        rw [not_or] at hstatus
        apply Meets.bind (Q := fun _ => Attempting r H out₀ i (k + 1)
          (m.countRetry e.episodeId (k + 1)))
        · apply Meets.emit
          rintro out ⟨h, hload, -⟩
          have hincomplete : ∀ row', rowAt out i = some (.object row') →
              row'.get "status" ≠ .str "completed" := by
            intro row' hrow'
            rw [hrow'] at hload
            cases hload
            exact hstatus.1
          -- a row that is not complete does not match, so it may be run again
          have hstale : rowMatches r out i = false := by
            apply Bool.eq_false_iff.mpr
            intro hmatch
            obtain ⟨e', row', -, hrow', hcurrent⟩ := rowMatches_iff.mp hmatch
            exact hincomplete row' hrow' hcurrent.1
          have hnext : Attempting r H out₀ i (k + 1) (m.countRetry e.episodeId (k + 1)) out :=
            ⟨h.made, h.ahead, h.agrees, h.counted, h.tallied, hstale, nofun, fun _ => hincomplete⟩
          have hkept : Kept r H out₀ out (.manifest (m.countRetry e.episodeId (k + 1))) :=
            fun hH => (h.counted hH).2
          exact ⟨trivial, hkept, hnext.congr (isSome_next _ h.made)
            (fun hH h₀ => (h.tallied hH h₀).next hkept hH h₀) fun j => rowAt_next trivial⟩
        · exact fun _ => ih

/-! ## The loop over the episodes -/

/-- Before episode `i`.  Under `H`, the manifest counts matching rows only, or nothing has
been run and nothing will be. -/
structure Progress (r : Request) (H : Prop) (out₀ : Option (Directory Figures)) (i : ℕ)
    (m : Manifest) (out : Option (Directory Figures)) : Prop where
  made : out.isSome = true
  ahead : ∀ j, i ≤ j → rowAt out j = rowAt out₀ j
  agrees : ∀ j < i, RowAgrees r out j
  counted : H → (∀ j < i, rowMatches r out j = true) ∧
    (m.completedEpisodes ≤ matching r out ∨
      Settled r out₀ ∧ ∀ j < i, rowMatches r out₀ j = true)
  tallied : H → Tallied r out₀ → Tallied r out

/-- An episode that is skipped. -/
theorem Progress.skip (h : Progress r H out₀ i m out) (hmatch : rowMatches r out i = true) :
    Progress r H out₀ (i + 1) m out where
  made := h.made
  ahead j hj := h.ahead j (Nat.le_of_succ_le hj)
  agrees j hj := by
    rcases Nat.lt_succ_iff_lt_or_eq.mp hj with hlt | rfl
    · exact h.agrees j hlt
    · exact rowMatches.agrees hmatch
  counted hH := by
    obtain ⟨hmatches, hcount⟩ := h.counted hH
    refine ⟨fun j hj => ?_, hcount.imp_right fun ⟨hsettled, hold⟩ => ⟨hsettled, fun j hj => ?_⟩⟩
    · rcases Nat.lt_succ_iff_lt_or_eq.mp hj with hlt | rfl
      · exact hmatches j hlt
      · exact hmatch
    · rcases Nat.lt_succ_iff_lt_or_eq.mp hj with hlt | rfl
      · exact hold j hlt
      · rwa [← rowMatches_congr (h.ahead j le_rfl)]
  tallied := h.tallied

/-- An episode that has to be run. -/
theorem Progress.attempting (h : Progress r H out₀ i m out) (hi : i < r.episodes.length)
    (hstale : rowMatches r out i = false) (hobject : rowAt out i ≠ some .notObject) :
    Attempting r H out₀ i 0 m out where
  made := h.made
  ahead j hj := h.ahead j hj.le
  agrees := h.agrees
  counted hH := by
    obtain ⟨hmatches, hcount | ⟨hsettled, hold⟩⟩ := h.counted hH
    · exact ⟨hmatches, hcount⟩
    · exfalso
      rcases hsettled i hi hold with hmatch | hfile
      · rw [← rowMatches_congr (h.ahead i le_rfl), hstale] at hmatch
        cases hmatch
      · exact hobject ((h.ahead i le_rfl).trans hfile)
  tallied := h.tallied
  stale := hstale
  untouched _ := h.ahead i le_rfl
  incomplete hk := absurd hk (lt_irrefl 0)

section

variable {result : Manifest × ℤ × Row} (h : Finished r H out₀ i e result out)
  (he : r.episodes[i]? = some e) (haccepted : ¬ r.Rejects e result.2.1 result.2.2)

include h he haccepted

/-- An accepted row agrees with the plan. -/
theorem Finished.agrees_at : RowAgrees r out i := by
  obtain ⟨-, hagrees⟩ := accepted_iff.mp haccepted
  exact ⟨e, result.2.2, he, loadRow_get h.loaded (status_of_accepted hagrees), hagrees⟩

theorem Finished.matches (hH : H) : ∀ j < i + 1, rowMatches r out j = true := by
  obtain ⟨-, hagrees⟩ := accepted_iff.mp haccepted
  have hrow := loadRow_get h.loaded (status_of_accepted hagrees)
  intro j hj
  rcases Nat.lt_succ_iff_lt_or_eq.mp hj with hlt | rfl
  · exact (h.counted hH).1 j hlt
  · apply (h.agrees_at he haccepted).rowMatches
    intro row' hrow'
    cases hrow.symm.trans hrow'
    exact h.honest hH haccepted

theorem Finished.count_le (hH : H) : i + 1 ≤ matching r out :=
  le_matching (List.getElem?_eq_some_iff.mp he).1 (h.matches he haccepted hH)

/-- An episode that has been run. -/
theorem Finished.progress (hmade : out'.isSome = true)
    (htallied : H → Tallied r out₀ → Tallied r out') (hrows : ∀ j, rowAt out' j = rowAt out j) :
    Progress r H out₀ (i + 1) (result.1.advance (i + 1)) out' where
  made := hmade
  ahead j hj := (hrows j).trans (h.ahead j hj)
  agrees j hj := by
    apply RowAgrees.congr _ (hrows j)
    rcases Nat.lt_succ_iff_lt_or_eq.mp hj with hlt | rfl
    · exact h.agrees j hlt
    · exact h.agrees_at he haccepted
  counted hH := by
    rw [matching_congr hrows]
    refine ⟨fun j hj => ?_, Or.inl (h.count_le he haccepted hH)⟩
    rw [rowMatches_congr (hrows j)]
    exact h.matches he haccepted hH j hj
  tallied := htallied

end

theorem skips_meets (he : r.episodes[i]? = some e) :
    (skips r i e : BatchM Figures Bool).Meets (Kept r H out₀) (Progress r H out₀ i m)
      fun skip out => Progress r H out₀ i m out ∧ skip = rowMatches r out i ∧
        rowAt out i ≠ some .notObject := by
  apply Meets.bind (Q := fun file out => Progress r H out₀ i m out ∧ file = rowAt out i)
  · exact Meets.look fun out h => ⟨h, rfl⟩
  · intro file
    match file with
    | none =>
        -- no file, no match
        apply Meets.pure
        rintro out ⟨h, hfile⟩
        refine ⟨h, ?_, by rw [← hfile]; nofun⟩
        unfold rowMatches
        rw [he, ← hfile]
    | some file =>
        apply Meets.bind (Q := fun row out => Progress r H out₀ i m out ∧
          some file = rowAt out i ∧ loadRow (some file) = .ok row)
        · apply Meets.lift
          intro row hrow out h
          exact ⟨h.1, h.2, hrow⟩
        · intro row
          apply Meets.pure
          rintro out ⟨h, hfile, hload⟩
          unfold rowMatches
          rw [he, ← hfile]
          match file, hload with
          | .unreadable, hload =>
              cases hload
              refine ⟨h, decide_eq_false ?_, nofun⟩
              rintro ⟨hstatus, -⟩
              cases hstatus
          | .object row', hload =>
              cases hload
              exact ⟨h, rfl, nofun⟩

/-- One episode. -/
theorem runEpisode_meets (honest : H → Honest r out₀ child) (he : r.episodes[i]? = some e) :
    (runEpisode r child i e m : BatchM Figures Manifest).Meets (Kept r H out₀)
      (Progress r H out₀ i m) (Progress r H out₀ (i + 1)) := by
  have hlen : i < r.episodes.length := (List.getElem?_eq_some_iff.mp he).1
  apply Meets.bind (skips_meets he)
  intro skip
  apply Meets.ite
  · intro hskip
    exact Meets.pure fun out ⟨h, heq, _⟩ => h.skip (heq.symm.trans hskip)
  · intro hskip
    rw [Bool.not_eq_true] at hskip
    apply Meets.bind (Q := Finished r H out₀ i e)
    · apply (attempts_meets honest he r.startupRetries.toNat).weaken _ fun _ _ h => h
      rintro out ⟨h, heq, hobject⟩
      exact h.attempting hlen (heq.symm.trans hskip) hobject
    · rintro ⟨m', returncode, row⟩
      apply Meets.ite
      · intro _
        apply Meets.bind (Q := fun _ _ => True)
        · apply Meets.emit
          intro out h
          exact ⟨trivial, fun hH => (h.counted hH).2, trivial⟩
        · exact fun _ => Meets.fail
      · intro haccepted
        apply Meets.bind (Q := fun _ => Progress r H out₀ (i + 1) (m'.advance (i + 1)))
        · apply Meets.emit
          intro out h
          have hkept : Kept r H out₀ out (.manifest (m'.advance (i + 1))) :=
            h.count_le he haccepted
          exact ⟨trivial, hkept, h.progress he haccepted (isSome_next _ h.made)
            (fun hH h₀ => (h.tallied hH h₀).next hkept hH h₀) fun j => rowAt_next trivial⟩
        · exact fun _ => Meets.pure fun _ h => h

theorem of_drop_eq_cons {α : Type*} {as bs : List α} {a : α} (h : as.drop i = a :: bs) :
    as[i]? = some a ∧ as.drop (i + 1) = bs := by
  constructor
  · rw [← List.head?_drop, h]
    rfl
  · rw [← List.drop_drop, h]
    rfl

/-- The loop over the episodes, by induction on those that are left. -/
theorem runEpisodes_meets (honest : H → Honest r out₀ child) (es : List Episode)
    (hes : r.episodes.drop i = es) :
    (runEpisodes r child i es m : BatchM Figures Manifest).Meets (Kept r H out₀)
      (Progress r H out₀ i m) (Progress r H out₀ (i + es.length)) := by
  induction es generalizing i m with
  | nil => exact Meets.pure fun _ h => h
  | cons e es ih =>
      obtain ⟨he, hrest⟩ := of_drop_eq_cons hes
      apply Meets.bind (runEpisode_meets honest he)
      intro m'
      rw [List.length_cons, Nat.add_comm es.length, ← Nat.add_assoc]
      exact ih hrest

/-! ## The whole batch -/

/-- The manifest that a batch starts from, new or found. -/
theorem openManifest_meets {resume : Bool} (hvalid : r.Valid) (hH : H → Counted r resume out₀) :
    (openManifest r resume : BatchM Figures Manifest).Meets (Kept r H out₀) (fun out => out = out₀)
      (Progress r H out₀ 0) := by
  unfold openManifest
  apply Meets.ite
  · intro hresume
    apply Meets.bind (Q := fun found out => out = out₀ ∧ found = manifestOf out₀)
    · apply Meets.look
      rintro out rfl
      exact ⟨rfl, rfl⟩
    · intro found
      match found with
      | none => exact Meets.fail
      | some m =>
          apply Meets.ite
          · exact fun _ => Meets.fail
          · intro hplan
            -- nothing is written: the count is the one that was found
            apply Meets.pure
            rintro out ⟨rfl, hfound⟩
            have hcount := fun h => hH h hvalid hresume m hfound.symm (not_not.mp hplan)
            refine ⟨?_, fun _ _ => rfl, nofun, fun h => ⟨nofun, (hcount h).imp_right ?_⟩,
              fun _ h₀ => h₀⟩
            · rcases out with - | d
              · cases hfound
              · rfl
            · exact fun hsettled => ⟨hsettled, nofun⟩
  · intro _
    apply Meets.bind (Q := fun made out => out = out₀ ∧ made = out₀.isSome)
    · apply Meets.look
      rintro out rfl
      exact ⟨rfl, rfl⟩
    · intro made
      apply Meets.ite
      · exact fun _ => Meets.fail
      · intro hmade
        apply Meets.bind (Q := fun _ out => out₀ = none ∧ out = some Directory.empty)
        · apply Meets.emit
          rintro out ⟨rfl, rfl⟩
          have hnone := Option.not_isSome_iff_eq_none.mp hmade
          subst hnone
          exact ⟨trivial, rfl, rfl, rfl⟩
        · intro _
          apply Meets.bind (Q := fun _ => Progress r H out₀ 0
            ⟨.running, 0, r.plan, none, none, PyDict.empty⟩)
          · apply Meets.emit
            rintro out ⟨rfl, rfl⟩
            refine ⟨trivial, fun _ => Nat.zero_le _, rfl, fun _ _ => rfl, nofun,
              fun _ => ⟨nofun, Or.inl (Nat.zero_le _)⟩, ?_⟩
            rintro - - m ⟨⟩
            exact Nat.zero_le _
          · exact fun _ => Meets.pure fun _ h => h

/-! ## The summary -/

theorem eq_of_pySet {values : List Value} {v : Value} (h : pySet values = .ok [v]) :
    ∀ a ∈ values, a = v := by
  intro a ha
  unfold pySet at h
  split at h
  · cases h
  · have hdedup : values.dedup = [v] := Except.ok.inj h
    have hmem := List.mem_dedup.mpr ha
    rw [hdedup] at hmem
    exact List.mem_singleton.mp hmem

theorem eq_of_parseFile {file : Option RowFile} {row : Row}
    (h : parseFile file = .ok (some row)) : file = some (.object row) := by
  unfold parseFile at h
  split at h <;> cases h
  rfl

theorem eq_of_completedRow {parsed : Option Row} {row : Row} (h : completedRow parsed = .ok row) :
    parsed = some row := by
  unfold completedRow at h
  split at h
  · cases h
  · split at h
    · cases h
    · cases h
      rfl

theorem get_of_item {row : Row} {key : String} {v : Value} (h : item row key = .ok v) :
    row.get key = v := by
  unfold item at h
  split at h
  · cases h
  · next v' hget =>
      cases h
      rw [Row.get, hget, Option.getD_some]

theorem of_ensure {condition : Prop} [Decidable condition] {message : String} {u : Unit}
    (h : ensure condition message = .ok u) : condition := by
  unfold ensure at h
  split at h
  · assumption
  · cases h

/-- A summary is made of completed rows of the split of the plan. -/
theorem summarize_ok {figures : List Row → Except BatchError Figures}
    {files : List (Option RowFile)} {s : Summary Figures} (h : summarize figures r files = .ok s) :
    ∀ file ∈ files, ∃ row, file = some (.object row) ∧
      row.get "split_sha256" = .str r.splitSha256 := by
  unfold summarize at h
  obtain ⟨_, -, h⟩ := Except.of_bind_ok h
  obtain ⟨parsed, hparsed, h⟩ := Except.of_bind_ok h
  obtain ⟨rows, hrows, h⟩ := Except.of_bind_ok h
  -- identifiers, metric namespaces and error kinds
  obtain ⟨_, -, h⟩ := Except.of_bind_ok h
  obtain ⟨_, -, h⟩ := Except.of_bind_ok h
  obtain ⟨_, -, h⟩ := Except.of_bind_ok h
  obtain ⟨_, -, h⟩ := Except.of_bind_ok h
  obtain ⟨_, -, h⟩ := Except.of_bind_ok h
  obtain ⟨_, -, h⟩ := Except.of_bind_ok h
  obtain ⟨hashes, hhashes, h⟩ := Except.of_bind_ok h
  -- one split, one policy split, one policy, and the scenes
  obtain ⟨_, -, h⟩ := Except.of_bind_ok h
  obtain ⟨_, -, h⟩ := Except.of_bind_ok h
  obtain ⟨_, -, h⟩ := Except.of_bind_ok h
  obtain ⟨_, -, h⟩ := Except.of_bind_ok h
  obtain ⟨_, -, h⟩ := Except.of_bind_ok h
  obtain ⟨_, -, h⟩ := Except.of_bind_ok h
  obtain ⟨_, -, h⟩ := Except.of_bind_ok h
  obtain ⟨_, hsplit, -⟩ := Except.of_bind_ok h
  obtain ⟨values, hvalues, hset⟩ := Except.of_bind_ok hhashes
  rw [of_ensure hsplit] at hset
  intro file hfile
  obtain ⟨p, hp, hparse⟩ := Except.exists_of_mapM_ok hparsed hfile
  obtain ⟨row, hrow, hcompleted⟩ := Except.exists_of_mapM_ok hrows hp
  obtain ⟨v, hv, hitem⟩ := Except.exists_of_mapM_ok hvalues hrow
  rw [eq_of_completedRow hcompleted] at hparse
  refine ⟨row, eq_of_parseFile hparse, ?_⟩
  rw [get_of_item hitem]
  exact eq_of_pySet hset v hv

/-! ## The contract -/

/-- A complete batch: every episode of the split has a matching row, at one place, and
the manifest says so. -/
structure Complete (r : Request) (out : Option (Directory Figures)) : Prop where
  rows : ∀ e ∈ r.episodes, ∃! i, i < r.episodes.length ∧
    ∃ row, rowAt out i = some (.object row) ∧ r.IsCurrent e row
  manifest : ∃ m, manifestOf out = some m ∧ m.status = .completed ∧
    m.completedEpisodes = r.episodes.length

/-- What is asked of a batch, `xs` being its effects and `ok` whether it returns. -/
structure Accounted (r : Request) (out : Option (Directory Figures)) (xs : List (Effect Figures))
    (ok : Prop) : Prop where
  counted : ∀ before m after, xs = before ++ .manifest m :: after →
    m.completedEpisodes ≤ matching r ((disk Figures).exec out before)
  notRerun : ∀ before i k after, xs = before ++ .attempt i k :: after →
    rowMatches r ((disk Figures).exec out before) i = false
  newLog : ∀ before i k after, xs = before ++ .attempt i k :: after →
    (i, k) ∉ logNames ((disk Figures).exec out before)
  logsKept : ∀ before i k after later, xs = before ++ .attempt i k :: after → later <+: after →
    (logsOf ((disk Figures).exec out before)).entries <+:
      (logsOf ((disk Figures).exec out (before ++ .attempt i k :: later))).entries
  complete : ok → Complete r ((disk Figures).exec out xs)

/-- Matching rows at every place are a complete split. -/
theorem complete_rows (h : ∀ i < r.episodes.length, rowMatches r out i = true)
    (he : e ∈ r.episodes) : ∃! i, i < r.episodes.length ∧
      ∃ row, rowAt out i = some (.object row) ∧ r.IsCurrent e row := by
  obtain ⟨i, hi, rfl⟩ := List.getElem_of_mem he
  have hrow : ∀ j, ∀ hj : j < r.episodes.length, ∃ row, rowAt out j = some (.object row) ∧
      r.IsCurrent r.episodes[j] row := by
    intro j hj
    obtain ⟨e', row, he', hrow, hcurrent⟩ := rowMatches_iff.mp (h j hj)
    cases (List.getElem?_eq_getElem hj).symm.trans he'
    exact ⟨row, hrow, hcurrent⟩
  refine ⟨i, ⟨hi, hrow i hi⟩, ?_⟩
  rintro j ⟨hj, row, hrowj, hcurrent⟩
  obtain ⟨row', hrow', hcurrent'⟩ := hrow j hj
  cases hrowj.symm.trans hrow'
  -- the row names one episode, and identifiers are different
  have hid : r.episodes[j].episodeId = r.episodes[i].episodeId := by
    have heq := hcurrent'.2.1.symm.trans hcurrent.2.1
    exact (Value.str.inj heq)
  have heq := List.inj_on_of_nodup_map r.nodup (List.getElem_mem hj) (List.getElem_mem hi) hid
  exact r.nodup.of_map.getElem_inj_iff.mp heq

theorem runBatch_meets {figures : List Row → Except BatchError Figures} {resume : Bool}
    (honest : H → Honest r out₀ child) (hcounted : H → Counted r resume out₀) :
    (runBatch figures r resume child).Meets (Kept r H out₀) (fun out => out = out₀)
      fun _ => Complete r := by
  unfold runBatch
  apply Meets.ite
  · exact fun _ => Meets.fail
  · intro hpolicy
    apply Meets.ite
    · exact fun _ => Meets.fail
    · intro hbounds
      apply Meets.ite
      · exact fun _ => Meets.fail
      · intro hepisodes
        apply Meets.bind (openManifest_meets ⟨hpolicy, hbounds, hepisodes⟩ hcounted)
        intro m
        apply Meets.bind (runEpisodes_meets honest r.episodes (List.drop_zero))
        intro m
        rw [Nat.zero_add]
        apply Meets.bind (Q := fun files out =>
          Progress r H out₀ r.episodes.length m out ∧
            files = (List.range r.episodes.length).map fun i => rowAt out i)
        · exact Meets.look fun out h => ⟨h, rfl⟩
        · intro files
          apply Meets.bind (Q := fun _ out => out.isSome = true ∧
            ∀ i < r.episodes.length, rowMatches r out i = true)
          · -- the summary has seen the split of every row, which the loop has not
            apply Meets.lift
            rintro s hs out ⟨h, rfl⟩
            refine ⟨h.made, fun i hi => (h.agrees i hi).rowMatches ?_⟩
            intro row hrow
            obtain ⟨row', hrow', hsplit⟩ := summarize_ok hs (rowAt out i)
              (List.mem_map_of_mem (List.mem_range.mpr hi))
            cases hrow.symm.trans hrow'
            exact hsplit
          · intro s
            apply Meets.bind (Q := fun _ out => out.isSome = true ∧
              ∀ i < r.episodes.length, rowMatches r out i = true)
            · apply Meets.emit
              rintro out ⟨hmade, hrows⟩
              refine ⟨trivial, trivial, isSome_next _ hmade, fun i hi => ?_⟩
              exact (rowMatches_congr (rowAt_next (x := .summary _) trivial)).trans (hrows i hi)
            · intro _
              apply Meets.bind (Q := fun _ => Complete r)
              · apply Meets.emit
                rintro out ⟨hmade, hrows⟩
                refine ⟨trivial, fun _ => le_matching le_rfl hrows, fun e he => ?_, ?_⟩
                · exact complete_rows (fun i hi =>
                    (rowMatches_congr (rowAt_next (x := .manifest _) trivial)).trans
                      (hrows i hi)) he
                · obtain ⟨d, rfl⟩ := Option.isSome_iff_exists.mp hmade
                  exact ⟨_, rfl, rfl, rfl⟩
              · exact fun _ => Meets.pure fun _ h => h

section

variable {figures : List Row → Except BatchError Figures} {resume : Bool}

/-- Whatever the children do, the count is all that can go wrong. -/
theorem accounted_of_counted
    (hcount : ∀ before m after,
      (runBatch figures r resume child out).1 = before ++ .manifest m :: after →
        m.completedEpisodes ≤ matching r ((disk Figures).exec out before)) :
    Accounted r out (runBatch figures r resume child out).1
      (∃ s, (runBatch figures r resume child out).2 = .ok s) := by
  have hmeets : (runBatch figures r resume child).Meets (Kept r False out) (fun out' => out' = out)
      fun _ => Complete r := runBatch_meets nofun nofun
  refine ⟨hcount, ?_, ?_, ?_, ?_⟩
  · intro before i k after heq
    exact (hmeets.at_effect rfl heq).2
  · intro before i k after heq
    exact (hmeets.at_effect rfl heq).1
  · rintro before i k after later heq ⟨rest, rfl⟩
    obtain ⟨henabled, -⟩ := hmeets out rfl
    rw [heq, Machine.enabled_append, Machine.restrict_exec, ← List.cons_append,
      Machine.enabled_append] at henabled
    rw [Machine.exec_append]
    exact logs_prefix henabled.2.1
  · rintro ⟨s, hs⟩
    exact (hmeets out rfl).2 s hs

/-- **The condition is enough.** -/
theorem accounted (honest : Honest r out child) (hcounted : Counted r resume out) :
    Accounted r out (runBatch figures r resume child out).1
      (∃ s, (runBatch figures r resume child out).2 = .ok s) := by
  have hmeets : (runBatch figures r resume child).Meets (Kept r True out) (fun out' => out' = out)
      fun _ => Complete r := runBatch_meets (fun _ => honest) fun _ => hcounted
  apply accounted_of_counted
  intro before m after heq
  exact hmeets.at_effect rfl heq trivial

end

/-! ## The condition is exact -/

/-- Children that never end. -/
def hanging : ℕ → ℕ → Child := fun _ _ => ⟨[], .timeout⟩

theorem honest_hanging : Honest r out hanging := by
  intro i k e row _ hexit
  cases hexit

theorem runEpisode_of_matches (he : r.episodes[i]? = some e) (h : rowMatches r out i = true) :
    (runEpisode r child i e m : BatchM Figures Manifest) out = ([], .ok m) := by
  obtain ⟨e', row, he', hrow, hcurrent⟩ := rowMatches_iff.mp h
  cases he.symm.trans he'
  have hskips : (skips r i e : BatchM Figures Bool) out = ([], .ok true) := by
    unfold skips
    rw [bind_of_ok (a := some (.object row)) (by rw [look, hrow])]
    change (([] : List (Effect Figures)), Except.ok (decide (r.IsCurrent e row))) = _
    rw [decide_eq_true hcurrent]
  unfold runEpisode
  rw [bind_of_ok (a := true) (by rw [hskips]), hskips]
  rfl

theorem runEpisode_hanging (he : r.episodes[i]? = some e) (h : rowMatches r out i = false)
    (hobject : rowAt out i ≠ some .notObject) :
    ∃ k m' error, (runEpisode r hanging i e m : BatchM Figures Manifest) out =
      ([.attempt i k, .manifest m'], .error error) ∧
        m'.completedEpisodes = m.completedEpisodes := by
  have hskips : (skips r i e : BatchM Figures Bool) out = ([], .ok false) := by
    unfold skips
    rw [bind_of_ok (a := rowAt out i) rfl]
    unfold rowMatches at h
    rw [he] at h
    match hrow : rowAt out i, hobject with
    | none, _ => rfl
    | some .unreadable, _ => rfl
    | some (.object row), _ =>
        rw [hrow] at h
        change decide (r.IsCurrent e row) = false at h
        change (([] : List (Effect Figures)), Except.ok (decide (r.IsCurrent e row))) = _
        rw [h]
  unfold runEpisode
  rw [bind_of_ok (a := false) (by rw [hskips]), hskips]
  match r.startupRetries.toNat with
  | 0 => exact ⟨_, _, _, rfl, rfl⟩
  | retries + 1 => exact ⟨_, _, _, rfl, rfl⟩

/-- The first episode that has to be run times out. -/
theorem runEpisodes_hanging {l : ℕ} (hl : i ≤ l) (hlen : l < r.episodes.length)
    (hmatch : ∀ j, i ≤ j → j < l → rowMatches r out j = true)
    (hstale : rowMatches r out l = false) (hobject : rowAt out l ≠ some .notObject)
    (es : List Episode) (hes : r.episodes.drop i = es) :
    ∃ k m' error, (runEpisodes r hanging i es m : BatchM Figures Manifest) out =
      ([.attempt l k, .manifest m'], .error error) ∧
        m'.completedEpisodes = m.completedEpisodes := by
  induction es generalizing i with
  | nil =>
      rw [List.drop_eq_nil_iff] at hes
      omega
  | cons e es ih =>
      obtain ⟨he, hrest⟩ := of_drop_eq_cons hes
      rcases hl.eq_or_lt with rfl | hlt
      -- episode `l` itself, or one before it that is skipped
      · obtain ⟨k, m', error, hrun, hcount⟩ := runEpisode_hanging (m := m) he hstale hobject
        refine ⟨k, m', error, ?_, hcount⟩
        unfold runEpisodes
        rw [bind_of_error (by rw [hrun]), hrun]
      · obtain ⟨k, m', error, hrun, hcount⟩ :=
          ih hlt (fun j hj => hmatch j (Nat.le_of_succ_le hj)) hrest
        refine ⟨k, m', error, ?_, hcount⟩
        have hskip : (runEpisode r hanging i e m : BatchM Figures Manifest) out = ([], .ok m) :=
          runEpisode_of_matches he (hmatch i le_rfl hlt)
        unfold runEpisodes
        rw [bind_of_ok (a := m) (by rw [hskip]), hskip]
        exact hrun

/-- **The condition is needed**: with a child that hangs, the count of the manifest is
written back. -/
theorem counted_of_accounted {figures : List Row → Except BatchError Figures} {resume : Bool}
    (h : Accounted r out (runBatch figures r resume hanging out).1
      (∃ s, (runBatch figures r resume hanging out).2 = .ok s)) : Counted r resume out := by
  rintro ⟨hpolicy, hbounds, hepisodes⟩ rfl m hm hplan
  by_contra hnot
  rw [not_or, not_le] at hnot
  obtain ⟨hlarge, hunsettled⟩ := hnot
  -- the first episode that is run again hangs, and its time-out writes the count back
  obtain ⟨l, hlen, hmatch, hstale, hobject⟩ : ∃ l, l < r.episodes.length ∧
      (∀ j < l, rowMatches r out j = true) ∧ rowMatches r out l = false ∧
      rowAt out l ≠ some .notObject := by
    unfold Settled at hunsettled
    push Not at hunsettled
    obtain ⟨l, hlen, hmatch, hstale, hobject⟩ := hunsettled
    exact ⟨l, hlen, hmatch, by simpa using hstale, hobject⟩
  obtain ⟨k, m', error, hrun, hcount⟩ := runEpisodes_hanging (m := m) (Nat.zero_le l) hlen
    (fun j _ hj => hmatch j hj) hstale hobject r.episodes List.drop_zero
  have hopen : (openManifest r true : BatchM Figures Manifest) out = ([], .ok m) := by
    unfold openManifest
    rw [if_pos rfl, bind_of_ok (a := some m) (by rw [look, hm])]
    dsimp only
    rw [if_neg (not_not.mpr hplan)]
    rfl
  have heffects : (runBatch figures r true hanging out).1 = [.attempt l k, .manifest m'] := by
    unfold runBatch
    rw [if_neg hpolicy, if_neg hbounds, if_neg hepisodes,
      bind_of_ok (a := m) (by rw [hopen]), hopen]
    change ((runEpisodes r hanging 0 r.episodes m >>= _) out).1 = _
    rw [bind_of_error (by rw [hrun]), hrun]
  have hwritten := h.counted [.attempt l k] m' [] heffects
  have hsame : matching r ((disk Figures).exec out [.attempt l k]) = matching r out :=
    matching_congr fun j => rowAt_next (x := .attempt l k) trivial
  rw [hsame, hcount] at hwritten
  omega

/-! ## Batches one after the other -/

/-- One call of `run_batch`, killed after some effects. -/
structure Call where
  resume : Bool
  child : ℕ → ℕ → Child
  kill : ℕ

/-- Calls with the same arguments, on a directory that none of them finds made. -/
def calls (figures : List Row → Except BatchError Figures) (r : Request) :
    Machine (Option (Directory Figures)) Call where
  Init out := out = none
  Guard out c := Honest r out c.child
  next out c := (disk Figures).exec out ((runBatch figures r c.resume c.child out).1.take c.kill)

theorem Tallied.counted (h : Tallied r out) (resume : Bool) : Counted r resume out :=
  fun _ _ m hm _ => Or.inl (h m hm)

/-- **A killed batch leaves a tallied directory**, wherever it is cut. -/
theorem calls_invariant (figures : List Row → Except BatchError Figures) :
    (calls figures r).Invariant (Tallied r) where
  init := by
    rintro out rfl m hm
    cases hm
  step out c h honest := by
    have hmeets : (runBatch figures r c.resume c.child).Meets (Kept r True out)
        (fun out' => out' = out) fun _ => Complete r :=
      runBatch_meets (fun _ => honest) fun _ => h.counted c.resume
    obtain ⟨henabled, -⟩ := hmeets out rfl
    rw [← List.take_append_drop c.kill (runBatch figures r c.resume c.child out).1,
      Machine.enabled_append] at henabled
    exact h.exec henabled.1 trivial h

/-- **The accounting of a batch.**  With honest children it is right on a directory if and
only if the manifest found there counts matching rows only or no child has to run; so
it is on every directory that batches left, killed or not.  Only the count can be
wrong. -/
theorem accounting_iff (figures : List Row → Except BatchError Figures) (r : Request) :
    (∀ (resume : Bool) (out : Option (Directory Figures)),
      (∀ child, Honest r out child → Accounted r out (runBatch figures r resume child out).1
        (∃ s, (runBatch figures r resume child out).2 = .ok s)) ↔ Counted r resume out) ∧
    (∀ cs out, (calls figures r).Run cs out → ∀ resume child, Honest r out child →
      Accounted r out (runBatch figures r resume child out).1
        (∃ s, (runBatch figures r resume child out).2 = .ok s)) ∧
    (∀ resume child out,
      (∀ before m after,
        (runBatch figures r resume child out).1 = before ++ .manifest m :: after →
          m.completedEpisodes ≤ matching r ((disk Figures).exec out before)) →
      Accounted r out (runBatch figures r resume child out).1
        (∃ s, (runBatch figures r resume child out).2 = .ok s)) := by
  refine ⟨fun resume out => ⟨fun h => ?_, fun hcounted child honest => ?_⟩, ?_, ?_⟩
  · exact counted_of_accounted (h hanging honest_hanging)
  · exact accounted honest hcounted
  · intro cs out hrun resume child honest
    exact accounted honest (((calls_invariant figures).of_run hrun).counted resume)
  · intro resume child out
    exact accounted_of_counted

/-! ## A stale row -/

/-- One episode. -/
def oneEpisode : Request where
  splitSha256 := "split"
  episodes := [⟨"one", "room"⟩]
  nodup := by decide
  scenesSha256 := "scenes"
  usdSha256 _ := "usd"
  policyUrl := "http://127.0.0.1:8765"
  policyId := "fixture-policy"
  maxSteps := 12
  headless := false
  episodeTimeout := 60
  startupRetries := 2
  policySplitSha256 := none
  path _ := "episodes/00000.json"

/-- A completed row of another scene asset. -/
def staleRow : Row where
  entries := [("status", .str "completed"), ("episode_id", .str "one"),
    ("split_sha256", .str "split"), ("scene_id", .str "room"), ("usd_sha256", .str "stale scene"),
    ("policy_id", .str "fixture-policy")]
  nodup := by decide

/-- A finished batch whose row is stale. -/
def staleDirectory : Directory Unit where
  manifest := some ⟨.completed, 1, oneEpisode.plan, none, none, PyDict.empty⟩
  rows := Function.update (fun _ => none) 0 (some (.object staleRow))
  logs := ⟨[((0, 0), "")], by decide⟩
  summary := none

/-- A child that handles an error. -/
def failingChild : Child where
  writes := [.row (.object ⟨[("status", .str "error")], by decide⟩)]
  exit := .code 1

/-- **A stale count is written back**: the manifest of the failed batch counts one
episode, and there is no matching row. -/
theorem stale_count_written :
    ¬ Accounted oneEpisode (some staleDirectory)
      (runBatch (fun _ => .ok ()) oneEpisode true (fun _ _ => failingChild)
        (some staleDirectory)).1
      (∃ s, (runBatch (fun _ => .ok ()) oneEpisode true (fun _ _ => failingChild)
        (some staleDirectory)).2 = .ok s) := by
  intro h
  have hcount := h.counted
    [.attempt 0 1, .row 0 (.object ⟨[("status", .str "error")], by decide⟩)] _ [] rfl
  have hmatching : matching oneEpisode ((disk Unit).exec (some staleDirectory)
      [.attempt 0 1, .row 0 (.object ⟨[("status", .str "error")], by decide⟩)]) = 0 := by
    decide
  rw [hmatching] at hcount
  exact absurd hcount (by decide)

/-- A child that ran on another version of the split. -/
def foreignChild : Child where
  writes := [.row (.object ⟨[("status", .str "completed"), ("episode_id", .str "one"),
    ("split_sha256", .str "another split"), ("scene_id", .str "room"), ("usd_sha256", .str "usd"),
    ("policy_id", .str "fixture-policy")], by decide⟩)]
  exit := .code 0

/-- **The split is not checked**: a new batch counts a row of another split. -/
theorem foreign_split_counted :
    ¬ Accounted oneEpisode (none : Option (Directory Unit))
      (runBatch (fun _ => .ok ()) oneEpisode false (fun _ _ => foreignChild) none).1
      (∃ s, (runBatch (fun _ => .ok ()) oneEpisode false (fun _ _ => foreignChild) none).2 =
        .ok s) := by
  intro h
  have hcount := h.counted [.mkdir, .manifest ⟨.running, 0, oneEpisode.plan, none, none, .empty⟩,
    .attempt 0 0, .row 0 (.object ⟨[("status", .str "completed"), ("episode_id", .str "one"),
      ("split_sha256", .str "another split"), ("scene_id", .str "room"),
      ("usd_sha256", .str "usd"), ("policy_id", .str "fixture-policy")], by decide⟩)] _ [] rfl
  have hmatching : matching oneEpisode ((disk Unit).exec none
      [.mkdir, .manifest ⟨.running, 0, oneEpisode.plan, none, none, .empty⟩, .attempt 0 0,
        .row 0 (.object ⟨[("status", .str "completed"), ("episode_id", .str "one"),
          ("split_sha256", .str "another split"), ("scene_id", .str "room"),
          ("usd_sha256", .str "usd"), ("policy_id", .str "fixture-policy")], by decide⟩)]) = 0 := by
    decide
  rw [hmatching] at hcount
  exact absurd hcount (by decide)

end Batch
