/-
# Sliding windows

A buffer that takes a new entry at its end and drops its oldest one when it grows over its
capacity holds the newest entries of all that was pushed (`push_rtake`).  A reader that
needs a fixed number of entries pads the window at its front with the oldest one.

* `Op`, `run` : a buffer under pushes and resets, which holds the newest entries since the
  last reset (`run_eq`);
* `window n l` : the `n` newest entries of `l`, padded at the front;
* `window_append` : entries in front do not change a window if those that reach into it are
  what it would be padded with.
-/
import Mathlib.Data.List.DropRight
import Mathlib.Tactic.Basic

namespace Window

variable {α : Type*}

/-! ## The buffer -/

/-- Add an entry at the end; drop the oldest one over the capacity. -/
def push (capacity : ℕ) (entries : List α) (entry : α) : List α :=
  if capacity < (entries ++ [entry]).length then (entries ++ [entry]).tail
  else entries ++ [entry]

@[simp] theorem length_rtake (n : ℕ) (l : List α) : (l.rtake n).length = min n l.length := by
  rw [List.rtake, List.length_drop]
  omega

theorem rtake_of_length_le {n : ℕ} {l : List α} (h : l.length ≤ n) : l.rtake n = l := by
  rw [List.rtake, Nat.sub_eq_zero_of_le h, List.drop_zero]

theorem mem_of_mem_rtake {n : ℕ} {l : List α} {a : α} (h : a ∈ l.rtake n) : a ∈ l :=
  List.mem_of_mem_drop h

/-- A wider window holds what a narrower one holds. -/
theorem mem_rtake_of_le {k n : ℕ} (hkn : k ≤ n) {l : List α} {a : α} (h : a ∈ l.rtake k) :
    a ∈ l.rtake n :=
  (List.drop_sublist_drop_left l (Nat.sub_le_sub_left hkn l.length)).mem h

/-- The newest entries of two lists, one behind the other. -/
theorem rtake_append (n : ℕ) (l m : List α) :
    (l ++ m).rtake n = l.rtake (n - m.length) ++ m.rtake n := by
  rw [List.rtake, List.rtake, List.rtake, List.drop_append, List.length_append,
    show l.length + m.length - n - l.length = m.length - n from by omega]
  rcases Nat.le_total m.length n with h | h
  · rw [show l.length + m.length - n = l.length - (n - m.length) from by omega]
  · rw [List.drop_eq_nil_of_le (by omega : l.length ≤ l.length + m.length - n),
      List.drop_eq_nil_of_le (by omega : l.length ≤ l.length - (n - m.length))]

/-- **The buffer holds the newest entries.** -/
theorem push_rtake (n : ℕ) (l : List α) (a : α) : push n (l.rtake n) a = (l ++ [a]).rtake n := by
  unfold push
  rw [List.length_append, length_rtake, List.length_singleton]
  cases n with
  | zero =>
      rw [List.rtake_zero, List.rtake_zero, if_pos (by omega)]
      rfl
  | succ n =>
      rw [List.rtake_concat_succ]
      split
      · rename_i h
        have hlen : n + 1 ≤ l.length := by omega
        obtain ⟨b, hb⟩ : ∃ b, l.rtake (n + 1) = b :: l.rtake n := by
          refine ⟨l.get ⟨l.length - (n + 1), by omega⟩, ?_⟩
          rw [List.rtake, List.rtake, List.drop_eq_getElem_cons (by omega),
            show l.length - (n + 1) + 1 = l.length - n from by omega]
          rfl
        rw [hb]
        rfl
      · rename_i h
        rw [rtake_of_length_le (by omega), rtake_of_length_le (by omega)]

/-- What is done to a buffer. -/
inductive Op (α : Type*)
  | push (entry : α)
  | reset

/-- The entries pushed since the last reset, oldest first. -/
def sinceReset (ops : List (Op α)) : List α :=
  ops.foldl (fun entries op => match op with
    | .push entry => entries ++ [entry]
    | .reset => []) []

/-- A buffer after some operations. -/
def run (capacity : ℕ) (ops : List (Op α)) : List α :=
  ops.foldl (fun entries op => match op with
    | .push entry => push capacity entries entry
    | .reset => []) []

@[simp] theorem sinceReset_push (ops : List (Op α)) (entry : α) :
    sinceReset (ops ++ [.push entry]) = sinceReset ops ++ [entry] := by
  rw [sinceReset, List.foldl_append]
  rfl

@[simp] theorem sinceReset_reset (ops : List (Op α)) : sinceReset (ops ++ [.reset]) = [] := by
  rw [sinceReset, List.foldl_append]
  rfl

@[simp] theorem run_push (capacity : ℕ) (ops : List (Op α)) (entry : α) :
    run capacity (ops ++ [.push entry]) = push capacity (run capacity ops) entry := by
  rw [run, List.foldl_append]
  rfl

@[simp] theorem run_reset (capacity : ℕ) (ops : List (Op α)) :
    run capacity (ops ++ [.reset]) = [] := by
  rw [run, List.foldl_append]
  rfl

/-- **A buffer under pushes and resets** holds the newest entries since the last reset. -/
theorem run_eq (capacity : ℕ) (ops : List (Op α)) :
    run capacity ops = (sinceReset ops).rtake capacity := by
  induction ops using List.reverseRecOn with
  | nil => exact (List.rtake_nil capacity).symm
  | append_singleton ops op ih =>
      cases op with
      | push entry => rw [run_push, ih, push_rtake, sinceReset_push]
      | reset => rw [run_reset, sinceReset_reset, List.rtake_nil]

/-! ## The padded window -/

/-- Pad a list at the front with copies of its oldest entry. -/
def padFront (n : ℕ) : List α → List α
  | [] => []
  | oldest :: l => List.replicate (n - (l.length + 1)) oldest ++ oldest :: l

/-- The `n` newest entries, padded at the front. -/
def window (n : ℕ) (l : List α) : List α := padFront n (l.rtake n)

theorem length_padFront {n : ℕ} {l : List α} (hl : l ≠ []) (hn : l.length ≤ n) :
    (padFront n l).length = n := by
  cases l with
  | nil => exact absurd rfl hl
  | cons oldest l =>
      rw [List.length_cons] at hn
      rw [padFront, List.length_append, List.length_replicate, List.length_cons]
      omega

theorem rtake_ne_nil {n : ℕ} (hn : 1 ≤ n) {l : List α} (hl : l ≠ []) : l.rtake n ≠ [] := by
  have hpos : 0 < l.length := List.length_pos_iff.mpr hl
  rw [← List.length_pos_iff, length_rtake]
  omega

/-- A window of a list that is not empty is full. -/
theorem length_window {n : ℕ} (hn : 1 ≤ n) {l : List α} (hl : l ≠ []) : (window n l).length = n :=
  length_padFront (rtake_ne_nil hn hl) (by rw [length_rtake]; exact Nat.min_le_left _ _)

theorem mem_padFront {n : ℕ} {l : List α} {a : α} : a ∈ padFront n l ↔ a ∈ l := by
  cases l with
  | nil => exact Iff.rfl
  | cons oldest l =>
      rw [padFront, List.mem_append]
      constructor
      · rintro (h | h)
        · rw [List.eq_of_mem_replicate h]
          exact List.mem_cons_self
        · exact h
      · exact Or.inr

/-- Everything in a window was pushed. -/
theorem mem_of_mem_window {n : ℕ} {l : List α} {a : α} (h : a ∈ window n l) : a ∈ l :=
  mem_of_mem_rtake (mem_padFront.mp h)

/-- The window of one entry. -/
theorem window_singleton {n : ℕ} (hn : 1 ≤ n) (a : α) : window n [a] = List.replicate n a := by
  rw [window, rtake_of_length_le (l := [a]) hn, padFront, ← List.replicate_succ']
  congr 1
  exact Nat.sub_add_cancel hn

/-- Copies of the oldest entry make no difference to a list that is padded. -/
theorem padFront_replicate {n k : ℕ} {a : α} {m : List α} (hk : k + (m.length + 1) ≤ n) :
    padFront n (List.replicate k a ++ a :: m) = padFront n (a :: m) := by
  cases k with
  | zero => rfl
  | succ k =>
      rw [List.replicate_succ, List.cons_append, padFront, padFront, ← List.cons_append,
        ← List.replicate_succ, ← List.append_assoc, List.replicate_append_replicate,
        List.length_append, List.length_replicate, List.length_cons]
      congr 2
      omega

/-- **What stands in front of a window does not matter** if the entries of it that reach into
the window are what the window would be padded with. -/
theorem window_append {n : ℕ} {l m : List α} {a : α} (h : ∀ b ∈ l.rtake (n - 1), b = a) :
    window n (l ++ a :: m) = window n (a :: m) := by
  rcases Nat.lt_or_ge n (m.length + 1) with hn | hn
  · -- no entry of `l` reaches into the window
    rw [window, rtake_append, List.length_cons, Nat.sub_eq_zero_of_le hn.le, List.rtake_zero]
    rfl
  · have hreach : l.rtake (n - (m.length + 1)) =
        List.replicate (min (n - (m.length + 1)) l.length) a := by
      refine List.eq_replicate_iff.mpr ⟨length_rtake _ _, ?_⟩
      intro b hb
      exact h b (mem_rtake_of_le (by omega) hb)
    have hfull : (a :: m).rtake n = a :: m := rtake_of_length_le hn
    rw [window, window, rtake_append, hfull, List.length_cons, hreach]
    exact padFront_replicate (by omega)

end Window
