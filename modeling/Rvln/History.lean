/-
# Histories

A component that records what it does and sees, newest entry first, has a
history.  Two operators say what a history is like:

* `History.Each P h` : every entry of `h` meets `P` with the entries before it;
* `History.Since φ ψ h` : some entry of `h` meets `ψ` with the entries before
  it, and all newer entries meet `φ`.

`Since` is the operator of that name of past-time temporal logic, and
`Since.cons` the rule for keeping it: an entry that meets `φ` can be added.
-/
import Mathlib.Data.List.Basic

namespace History

variable {α : Type*}

/-! ## Every entry -/

/-- Every entry meets `P` with the entries before it. -/
def Each (P : α → List α → Prop) : List α → Prop
  | [] => True
  | a :: h => P a h ∧ Each P h

/-- **What `Each` says**: wherever an entry stands, it meets `P` with the
entries before it. -/
theorem each_iff {P : α → List α → Prop} {h : List α} :
    Each P h ↔ ∀ newer a older, h = newer ++ a :: older → P a older := by
  induction h with
  | nil =>
      refine iff_of_true trivial ?_
      intro newer a older heq
      cases newer <;> cases heq
  | cons b h ih =>
      constructor
      · rintro ⟨hb, hh⟩ newer a older heq
        cases newer with
        | nil =>
            cases heq
            exact hb
        | cons c newer =>
            obtain ⟨rfl, rfl⟩ := List.cons.inj heq
            exact ih.mp hh newer a older rfl
      · intro hall
        refine ⟨hall [] b h rfl, ih.mpr ?_⟩
        rintro newer a older rfl
        exact hall (b :: newer) a older rfl

/-! ## Since -/

/-- Some entry meets `ψ` with the entries before it, and all newer entries meet
`φ`. -/
def Since (φ : α → Prop) (ψ : α → List α → Prop) : List α → Prop
  | [] => False
  | a :: h => ψ a h ∨ φ a ∧ Since φ ψ h

variable {φ : α → Prop} {ψ : α → List α → Prop} {a : α} {h : List α}

@[simp] theorem since_cons : Since φ ψ (a :: h) ↔ ψ a h ∨ φ a ∧ Since φ ψ h := Iff.rfl

/-- An entry that meets `φ` can be added. -/
theorem Since.cons (hs : Since φ ψ h) (ha : φ a) : Since φ ψ (a :: h) := Or.inr ⟨ha, hs⟩

/-- The entry that `Since` names is there. -/
theorem Since.mem {b : α} (hs : Since φ (fun a _ => a = b) h) : b ∈ h := by
  induction h with
  | nil => exact hs.elim
  | cons a h ih =>
      rcases hs with rfl | ⟨-, hs⟩
      · exact List.mem_cons_self
      · exact List.mem_cons_of_mem a (ih hs)

end History
