/-
# Procedures that leave a trace

A procedure reads the state of a machine and has effects on it, one after the
other; it ends with a value or with an error.  All it does to the state is in its
list of effects, so a procedure that is cut off leaves a prefix of them.

* `Procedure.Meets P Pre p Post` : started where `Pre` holds, every effect of `p`
  meets `P` where it happens, and a value comes with `Post`;
* `Meets.bind` and the rules beside it, one for each way to build a procedure;
* `at_effect` : what `P` says of one effect of the trace;
* `Meets.attempt` : what is left when an exception cuts a procedure off.
-/
import Rvln.Machine

universe u

/-- The effects of a procedure, oldest first, and how it ends. -/
def Procedure {State Effect : Type*} (_ : Machine State Effect) (Error : Type*) (α : Type u) :=
  State → List Effect × Except Error α

namespace Procedure

variable {State Effect Error : Type*} {M : Machine State Effect} {α β : Type u}

/-! ## Building procedures -/

instance : Monad (Procedure M Error) where
  pure a := fun _ => ([], .ok a)
  bind p f := fun s =>
    match (p s).2 with
    | .error e => ((p s).1, .error e)
    | .ok a =>
        let q := f a (M.exec s (p s).1)
        ((p s).1 ++ q.1, q.2)

/-- `raise`. -/
def fail (e : Error) : Procedure M Error α := fun _ => ([], .error e)

/-- One effect. -/
def emit (x : Effect) : Procedure M Error PUnit := fun _ => ([x], .ok ⟨⟩)

/-- Some effects, one after the other. -/
def emits (xs : List Effect) : Procedure M Error PUnit := fun _ => (xs, .ok ⟨⟩)

/-- Look at the state. -/
def look (f : State → α) : Procedure M Error α := fun s => ([], .ok (f s))

/-- A computation that may raise. -/
def lift (x : Except Error α) : Procedure M Error α := fun _ => ([], x)

theorem bind_of_error {p : Procedure M Error α} {f : α → Procedure M Error β} {s : State}
    {e : Error} (h : (p s).2 = .error e) : (p >>= f) s = ((p s).1, .error e) := by
  simp only [Bind.bind, h]

theorem bind_of_ok {p : Procedure M Error α} {f : α → Procedure M Error β} {s : State} {a : α}
    (h : (p s).2 = .ok a) :
    (p >>= f) s =
      ((p s).1 ++ (f a (M.exec s (p s).1)).1, (f a (M.exec s (p s).1)).2) := by
  simp only [Bind.bind, h]

theorem look_bind (g : State → α) (f : α → Procedure M Error β) (s : State) :
    (look g >>= f) s = f (g s) s := rfl

theorem lift_ok_bind (a : α) (f : α → Procedure M Error β) (s : State) :
    (lift (.ok a) >>= f) s = f a s := rfl

theorem lift_error_bind (e : Error) (f : α → Procedure M Error β) (s : State) :
    (lift (.error e) >>= f) s = ([], .error e) := rfl

theorem emit_bind (x : Effect) (f : PUnit → Procedure M Error β) (s : State) :
    (emit x >>= f) s = (x :: (f ⟨⟩ (M.next s x)).1, (f ⟨⟩ (M.next s x)).2) := rfl

/-! ## What a procedure keeps to -/

/-- Started in a state with `Pre`, every effect of `p` meets `P` where it happens, and
a value comes with `Post`. -/
def Meets (P : State → Effect → Prop) (Pre : State → Prop) (p : Procedure M Error α)
    (Post : α → State → Prop) : Prop :=
  ∀ s, Pre s → (M.restrict P).Enabled s (p s).1 ∧
    ∀ a, (p s).2 = .ok a → Post a (M.exec s (p s).1)

variable {P : State → Effect → Prop} {Pre Pre' : State → Prop} {Post Post' : α → State → Prop}

theorem Meets.weaken {p : Procedure M Error α} (h : p.Meets P Pre Post)
    (hpre : ∀ s, Pre' s → Pre s) (hpost : ∀ a s, Post a s → Post' a s) :
    p.Meets P Pre' Post' := by
  intro s hs
  obtain ⟨heffects, hvalue⟩ := h s (hpre s hs)
  exact ⟨heffects, fun a ha => hpost a _ (hvalue a ha)⟩

theorem Meets.pure {a : α} (h : ∀ s, Pre s → Post a s) :
    (Pure.pure a : Procedure M Error α).Meets P Pre Post := by
  intro s hs
  refine ⟨trivial, ?_⟩
  rintro _ ⟨⟩
  exact h s hs

theorem Meets.fail {e : Error} : (fail e : Procedure M Error α).Meets P Pre Post := by
  intro s _
  exact ⟨trivial, nofun⟩

theorem Meets.emit {x : Effect} {Post : PUnit → State → Prop}
    (h : ∀ s, Pre s → M.Guard s x ∧ P s x ∧ Post ⟨⟩ (M.next s x)) :
    (emit x : Procedure M Error PUnit).Meets P Pre Post := by
  intro s hs
  obtain ⟨hguard, hp, hpost⟩ := h s hs
  refine ⟨⟨⟨hguard, hp⟩, trivial⟩, ?_⟩
  rintro _ ⟨⟩
  exact hpost

theorem Meets.emits {xs : List Effect} {Post : PUnit → State → Prop}
    (h : ∀ s, Pre s → (M.restrict P).Enabled s xs ∧ Post ⟨⟩ (M.exec s xs)) :
    (emits xs : Procedure M Error PUnit).Meets P Pre Post := by
  intro s hs
  obtain ⟨heffects, hpost⟩ := h s hs
  refine ⟨heffects, ?_⟩
  rintro _ ⟨⟩
  exact hpost

theorem Meets.look {f : State → α} (h : ∀ s, Pre s → Post (f s) s) :
    (look f : Procedure M Error α).Meets P Pre Post := by
  intro s hs
  refine ⟨trivial, ?_⟩
  rintro _ ⟨⟩
  exact h s hs

theorem Meets.lift {x : Except Error α} (h : ∀ a, x = .ok a → ∀ s, Pre s → Post a s) :
    (lift x : Procedure M Error α).Meets P Pre Post := by
  intro s hs
  exact ⟨trivial, fun a ha => h a ha s hs⟩

/-- **One procedure after the other.** -/
theorem Meets.bind {p : Procedure M Error α} {f : α → Procedure M Error β}
    {Q : α → State → Prop} {Post : β → State → Prop} (hp : p.Meets P Pre Q)
    (hf : ∀ a, (f a).Meets P (Q a) Post) : (p >>= f).Meets P Pre Post := by
  intro s hs
  obtain ⟨heffects, hvalue⟩ := hp s hs
  cases hresult : (p s).2 with
  | error e =>
      rw [bind_of_error hresult]
      exact ⟨heffects, nofun⟩
  | ok a =>
      obtain ⟨heffects', hvalue'⟩ := hf a _ (hvalue a hresult)
      rw [bind_of_ok hresult]
      refine ⟨Machine.enabled_append.mpr ⟨heffects, by simpa using heffects'⟩, ?_⟩
      intro b hb
      rw [Machine.exec_append]
      exact hvalue' b hb

theorem Meets.ite {c : Prop} [Decidable c] {p q : Procedure M Error α}
    (hp : c → p.Meets P Pre Post) (hq : ¬ c → q.Meets P Pre Post) :
    (if c then p else q).Meets P Pre Post := by
  split
  · exact hp ‹c›
  · exact hq ‹¬ c›

/-- **One effect of a trace** meets `P` where it happens. -/
theorem Meets.at_effect {p : Procedure M Error α} (h : p.Meets P Pre Post) {s : State} (hs : Pre s)
    {before after : List Effect} {x : Effect} (heq : (p s).1 = before ++ x :: after) :
    P (M.exec s before) x := by
  obtain ⟨heffects, -⟩ := h s hs
  rw [heq, Machine.enabled_append] at heffects
  have hguard := heffects.2.1.2
  rwa [Machine.restrict_exec] at hguard

/-! ## Exceptions and invariants -/

/-- `try`: how `p` ended. -/
def attempt (p : Procedure M Error α) : Procedure M Error (Except Error α) :=
  fun s => ((p s).1, .ok (p s).2)

/-- **What the effects keep** holds after any number of them. -/
theorem Meets.at_prefix {p : Procedure M Error α} (h : p.Meets P Pre Post) {I : State → Prop}
    (hI : ∀ s x, I s → M.Guard s x → P s x → I (M.next s x)) {s : State} (hs : Pre s) (hIs : I s)
    {before after : List Effect} (heq : (p s).1 = before ++ after) : I (M.exec s before) := by
  obtain ⟨heffects, -⟩ := h s hs
  rw [heq, Machine.enabled_append] at heffects
  replace heffects := heffects.1
  clear heq hs
  induction before generalizing s with
  | nil => exact hIs
  | cons x before ih =>
      obtain ⟨⟨hguard, hp⟩, hrest⟩ := heffects
      exact ih (hI s x hIs hguard hp) hrest

/-- The same when the procedure has ended. -/
theorem Meets.at_end {p : Procedure M Error α} (h : p.Meets P Pre Post) {I : State → Prop}
    (hI : ∀ s x, I s → M.Guard s x → P s x → I (M.next s x)) {s : State} (hs : Pre s)
    (hIs : I s) : I (M.exec s (p s).1) :=
  h.at_prefix hI hs hIs (List.append_nil _).symm

/-- A procedure that was cut off leaves what its effects keep. -/
theorem Meets.attempt {p : Procedure M Error α} (h : p.Meets P Pre Post) {I : State → Prop}
    (hI : ∀ s x, I s → M.Guard s x → P s x → I (M.next s x)) (hpre : ∀ s, Pre s → I s) :
    (attempt p).Meets P Pre fun r s => I s ∧ ∀ a, r = .ok a → Post a s := by
  intro s hs
  obtain ⟨heffects, hvalue⟩ := h s hs
  refine ⟨heffects, ?_⟩
  rintro _ ⟨⟩
  exact ⟨h.at_end hI hs (hpre s hs), hvalue⟩

end Procedure
