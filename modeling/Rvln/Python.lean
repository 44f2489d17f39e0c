/-
# The parts of Python the source leans on

Exceptions by their class, `len`, `int` on a finite number, and insertion-ordered
dictionaries.

A Python `dict` iterates over its keys in the order of their first insertion.
`PyDict` is that: a list of entries whose keys are pairwise different, so that
two bindings of one key cannot be built.  What the lemmas below say of each
operation is which entries it can leave behind.
-/
import Mathlib.Algebra.Order.Field.Rat
import Mathlib.Data.Rat.Floor
import Mathlib.Data.List.Basic
import Mathlib.Data.List.Nodup
import Mathlib.Data.List.Dedup
import Mathlib.Data.List.Induction

/-- The classes of the exceptions that the modelled code raises. -/
inductive PyError
  | attributeError
  | indexError
  | valueError
  | zeroDivisionError
  /-- Any exception of code outside the repository. -/
  | other
  deriving DecidableEq, Repr

/-- A length in the sense of Python's `len`. -/
class PyLen (α : Type*) where
  len : α → ℕ

instance {α : Type*} : PyLen (List α) := ⟨List.length⟩

/-- Python's `int(x)` on a finite number: truncation toward zero. -/
def truncInt (x : ℚ) : ℤ := if 0 ≤ x then ⌊x⌋ else ⌈x⌉

/-! ## Computations that raise -/

namespace Except

variable {ε α β : Type}

theorem of_bind_ok {x : Except ε α} {f : α → Except ε β} {b : β} (h : (x >>= f) = .ok b) :
    ∃ a, x = .ok a ∧ f a = .ok b := by
  match x, h with
  | .ok a, h => exact ⟨a, rfl, h⟩

theorem bind_eq_ok {x : Except ε α} {f : α → Except ε β} {a : α} {b : β} (hx : x = .ok a)
    (hf : f a = .ok b) : (x >>= f) = .ok b := by
  rw [hx]
  exact hf

theorem exists_of_mapM_ok {f : α → Except ε β} {as : List α} {bs : List β}
    (h : as.mapM f = .ok bs) {a : α} (ha : a ∈ as) : ∃ b ∈ bs, f a = .ok b := by
  induction as generalizing bs with
  | nil => exact absurd ha List.not_mem_nil
  | cons a' as ih =>
      rw [List.mapM_cons] at h
      obtain ⟨b, hb, h⟩ := of_bind_ok h
      obtain ⟨bs', hbs, h⟩ := of_bind_ok h
      cases h
      rcases List.mem_cons.mp ha with rfl | ha
      · exact ⟨b, List.mem_cons_self, hb⟩
      · obtain ⟨b', hb', hfa⟩ := ih hbs ha
        exact ⟨b', List.mem_cons_of_mem b hb', hfa⟩

theorem mapM_eq_ok {f : α → Except ε β} {g : α → β} {as : List α}
    (h : ∀ a ∈ as, f a = .ok (g a)) : as.mapM f = .ok (as.map g) := by
  induction as with
  | nil => rfl
  | cons a as ih =>
      obtain ⟨ha, has⟩ := List.forall_mem_cons.mp h
      rw [List.mapM_cons, ha, ih has]
      rfl

/-- The first element that raises decides. -/
theorem mapM_eq_error {f : α → Except ε β} {as : List α} {e : ε} :
    as.mapM f = .error e ↔
      ∃ before a after, as = before ++ a :: after ∧ f a = .error e ∧
        ∀ b ∈ before, ∃ c, f b = .ok c := by
  induction as with
  | nil => exact ⟨nofun, fun ⟨before, _, _, h, _⟩ => absurd h.symm (by simp)⟩
  | cons a as ih =>
      rw [List.mapM_cons]
      cases ha : f a with
      | error e' =>
          constructor
          · rintro ⟨⟩
            exact ⟨[], a, as, rfl, ha, nofun⟩
          · rintro ⟨_ | ⟨b, before⟩, a', after, h, he, hbefore⟩
            · cases h
              cases ha.symm.trans he
              rfl
            · cases h
              obtain ⟨c, hc⟩ := hbefore _ List.mem_cons_self
              rw [ha] at hc
              cases hc
      | ok c =>
          have hrest : (do let bs ← as.mapM f; pure (c :: bs)) = (.error e : Except ε (List β)) ↔
              as.mapM f = .error e := by
            cases as.mapM f with
            | error e' => exact ⟨fun h => by cases h; rfl, fun h => by cases h; rfl⟩
            | ok bs => exact ⟨nofun, nofun⟩
          refine hrest.trans (ih.trans ?_)
          constructor
          · rintro ⟨before, a', after, rfl, he, hbefore⟩
            exact ⟨a :: before, a', after, rfl, he, List.forall_mem_cons.mpr ⟨⟨c, ha⟩, hbefore⟩⟩
          · rintro ⟨_ | ⟨b, before⟩, a', after, h, he, hbefore⟩
            · cases h
              rw [ha] at he
              cases he
            · cases h
              exact ⟨before, a', after, rfl, he, (List.forall_mem_cons.mp hbefore).2⟩

theorem exists_mapM_ok {f : α → Except ε β} {as : List α} (h : ∀ a ∈ as, ∃ b, f a = .ok b) :
    ∃ bs, as.mapM f = .ok bs := by
  induction as with
  | nil => exact ⟨[], rfl⟩
  | cons a as ih =>
      obtain ⟨ha, has⟩ := List.forall_mem_cons.mp h
      obtain ⟨b, hb⟩ := ha
      obtain ⟨bs, hbs⟩ := ih has
      refine ⟨b :: bs, ?_⟩
      rw [List.mapM_cons, hb, hbs]
      rfl

theorem mapM_cons_eq_ok {f : α → Except ε β} {a : α} {as : List α} {cs : List β}
    (h : (a :: as).mapM f = .ok cs) :
    ∃ b bs, f a = .ok b ∧ as.mapM f = .ok bs ∧ cs = b :: bs := by
  rw [List.mapM_cons] at h
  obtain ⟨b, hb, h⟩ := of_bind_ok h
  obtain ⟨bs, hbs, h⟩ := of_bind_ok h
  cases h
  exact ⟨b, bs, hb, hbs, rfl⟩

/-- Everything that a computation over a list gives comes from an element of the list. -/
theorem mem_of_mapM_ok {f : α → Except ε β} {as : List α} {bs : List β}
    (h : as.mapM f = .ok bs) {b : β} (hb : b ∈ bs) : ∃ a ∈ as, f a = .ok b := by
  induction as generalizing bs with
  | nil =>
      cases h
      exact absurd hb List.not_mem_nil
  | cons a as ih =>
      obtain ⟨b', bs', hb', hbs', rfl⟩ := mapM_cons_eq_ok h
      rcases List.mem_cons.mp hb with rfl | hb
      · exact ⟨a, List.mem_cons_self, hb'⟩
      · obtain ⟨a', ha', hfa⟩ := ih hbs' hb
        exact ⟨a', List.mem_cons_of_mem a ha', hfa⟩

/-- A computation over the elements that pass a test, when the results show who does. -/
theorem mapM_filter {f : α → Except ε β} {p : α → Bool} {q : β → Bool} {as : List α}
    {bs : List β} (hpq : ∀ a b, f a = .ok b → q b = p a) (h : as.mapM f = .ok bs) :
    (as.filter p).mapM f = .ok (bs.filter q) := by
  induction as generalizing bs with
  | nil =>
      cases h
      rfl
  | cons a as ih =>
      obtain ⟨b, bs', hb, hbs', rfl⟩ := mapM_cons_eq_ok h
      rw [List.filter_cons, List.filter_cons, hpq a b hb]
      split
      · rw [List.mapM_cons, hb, ih hbs']
        rfl
      · exact ih hbs'

/-- What every result shares with its element. -/
theorem map_eq_of_mapM_ok {γ : Type} {f : α → Except ε β} {g : α → γ} {k : β → γ} {as : List α}
    {bs : List β} (hgk : ∀ a b, f a = .ok b → k b = g a) (h : as.mapM f = .ok bs) :
    bs.map k = as.map g := by
  induction as generalizing bs with
  | nil =>
      cases h
      rfl
  | cons a as ih =>
      obtain ⟨b, bs', hb, hbs', rfl⟩ := mapM_cons_eq_ok h
      rw [List.map_cons, List.map_cons, hgk a b hb, ih hbs']

theorem mapError_eq_ok {ε' : Type} {x : Except ε α} {f : ε → ε'} {a : α} :
    x.mapError f = .ok a ↔ x = .ok a := by
  cases x with
  | error e => exact ⟨nofun, nofun⟩
  | ok b => simp [Except.mapError]

/-- Every exception of the computation is one of `C`. -/
def RaisesOnly (C : ε → Prop) (x : Except ε α) : Prop := ∀ e, x = .error e → C e

theorem raisesOnly_ok {C : ε → Prop} (a : α) : RaisesOnly C (.ok a : Except ε α) := nofun

theorem raisesOnly_error {C : ε → Prop} {e : ε} :
    RaisesOnly C (.error e : Except ε α) ↔ C e := by
  constructor
  · exact fun h => h e rfl
  · rintro h _ ⟨⟩
    exact h

theorem raisesOnly_mapError {ε' : Type} {C : ε' → Prop} {x : Except ε α} {f : ε → ε'} :
    RaisesOnly C (x.mapError f) ↔ RaisesOnly (fun e => C (f e)) x := by
  cases x with
  | error e => exact raisesOnly_error.trans (raisesOnly_error (C := fun e => C (f e))).symm
  | ok a => exact iff_of_true (raisesOnly_ok a) (raisesOnly_ok a)

/-- One computation after the other. -/
theorem raisesOnly_bind {C : ε → Prop} {x : Except ε α} {f : α → Except ε β} :
    RaisesOnly C (x >>= f) ↔ RaisesOnly C x ∧ ∀ a, x = .ok a → RaisesOnly C (f a) := by
  cases x with
  | error e => exact ⟨fun h => ⟨fun e' he => h e' (by cases he; rfl), nofun⟩,
      fun h e' he => h.1 e' (by cases he; rfl)⟩
  | ok a =>
      constructor
      · intro h
        refine ⟨nofun, ?_⟩
        rintro _ ⟨⟩
        exact h
      · exact fun h => h.2 a rfl

end Except

/-! ## Dictionaries -/

/-- An insertion-ordered dictionary. -/
structure PyDict (α β : Type*) where
  entries : List (α × β)
  nodup : (entries.map Prod.fst).Nodup

namespace PyDict

variable {α β : Type*}

/-- `{}`. -/
def empty : PyDict α β := ⟨[], List.nodup_nil⟩

/-- `len(d)`. -/
def length (d : PyDict α β) : ℕ := d.entries.length

/-- Keep the entries of a sublist. -/
def ofSublist (d : PyDict α β) (es : List (α × β)) (h : List.Sublist es d.entries) : PyDict α β :=
  ⟨es, d.nodup.sublist (h.map Prod.fst)⟩

/-- Keep the entries whose key passes the test. -/
def filterKeys (d : PyDict α β) (p : α → Bool) : PyDict α β :=
  d.ofSublist (d.entries.filter fun e => p e.1) List.filter_sublist

section DecidableEq

variable [DecidableEq α]

/-- `d.get(k)`. -/
def get? (d : PyDict α β) (k : α) : Option β :=
  (d.entries.find? fun e => e.1 = k).map Prod.snd

/-- Overwriting the value of a key leaves the keys as they are. -/
theorem map_fst_overwrite (es : List (α × β)) (k : α) (v : β) :
    (es.map fun e => if e.1 = k then (k, v) else e).map Prod.fst = es.map Prod.fst := by
  rw [List.map_map]
  apply List.map_congr_left
  intro e _
  by_cases h : e.1 = k <;> simp [h]

/-- `d[k] = v`: an existing key keeps its place, a new one goes last. -/
def set (d : PyDict α β) (k : α) (v : β) : PyDict α β :=
  if h : k ∈ d.entries.map Prod.fst then
    ⟨d.entries.map fun e => if e.1 = k then (k, v) else e,
      by rw [map_fst_overwrite]; exact d.nodup⟩
  else
    ⟨d.entries ++ [(k, v)], by
      rw [List.map_append]
      refine List.nodup_append.mpr ⟨d.nodup, List.nodup_singleton _, fun a ha b hb hab => ?_⟩
      have hb' : b = k := by simpa using hb
      exact h (hb' ▸ hab ▸ ha)⟩

/-- `d.pop(k, None)`: the value and what is left. -/
def pop (d : PyDict α β) (k : α) : Option β × PyDict α β :=
  (d.get? k, d.filterKeys fun k' => k' ≠ k)

/-! ## What the operations leave behind -/

theorem mem_of_get? {d : PyDict α β} {k : α} {v : β} (h : d.get? k = some v) :
    (k, v) ∈ d.entries := by
  obtain ⟨⟨k', v'⟩, hf, rfl⟩ := Option.map_eq_some_iff.mp h
  have hk : k' = k := by simpa using List.find?_some hf
  exact hk ▸ List.mem_of_find?_eq_some hf

theorem mem_set {d : PyDict α β} {k : α} {v : β} {e : α × β} (h : e ∈ (d.set k v).entries) :
    e ∈ d.entries ∨ e = (k, v) := by
  unfold set at h
  split at h
  · obtain ⟨f, hf, rfl⟩ := List.mem_map.mp h
    by_cases hk : f.1 = k
    · exact Or.inr (by rw [if_pos hk])
    · exact Or.inl (by rwa [if_neg hk])
  · simpa using h

/-- An existing key keeps its place. -/
theorem map_fst_set {d : PyDict α β} {k : α} (h : k ∈ d.entries.map Prod.fst) (v : β) :
    (d.set k v).entries.map Prod.fst = d.entries.map Prod.fst := by
  rw [set, dif_pos h]
  exact map_fst_overwrite d.entries k v

/-- A new key goes last. -/
theorem entries_set_of_not_mem {d : PyDict α β} {k : α} (h : k ∉ d.entries.map Prod.fst) (v : β) :
    (d.set k v).entries = d.entries ++ [(k, v)] := by
  rw [set, dif_neg h]

/-- Overwriting the newest key leaves the older entries as they are. -/
theorem dropLast_set {d : PyDict α β} {k : α} (h : (d.entries.map Prod.fst).getLast? = some k)
    (v : β) : (d.set k v).entries.dropLast = d.entries.dropLast := by
  have hmem : k ∈ d.entries.map Prod.fst := List.mem_of_getLast? h
  rw [set, dif_pos hmem]
  obtain ⟨es, e, hes⟩ : ∃ es e, d.entries = es ++ [e] := by
    refine ⟨d.entries.dropLast, d.entries.getLast ?_, (List.dropLast_append_getLast _).symm⟩
    rintro hnil
    rw [hnil] at hmem
    exact absurd hmem List.not_mem_nil
  have hnodup := d.nodup
  rw [hes, List.map_append, List.nodup_append] at hnodup
  rw [hes, List.map_append, List.map_singleton, List.getLast?_concat, Option.some.injEq] at h
  have hother : ∀ x ∈ es, x.1 ≠ k := by
    intro x hx
    rw [← h]
    exact hnodup.2.2 _ (List.mem_map_of_mem hx) _ (List.mem_map_of_mem List.mem_cons_self)
  simp only [hes, List.map_append, List.map_singleton, List.dropLast_concat]
  exact (List.map_congr_left fun x hx => if_neg (hother x hx)).trans (List.map_id' es)

end DecidableEq

/-! ## Dictionaries of lists -/

section Lists

variable [DecidableEq α]

/-- The new value of a key is found. -/
theorem get?_set_self (d : PyDict α β) (k : α) (v : β) : (d.set k v).get? k = some v := by
  have hoverwrite : ∀ es : List (α × β), k ∈ es.map Prod.fst →
      ((es.map fun e => if e.1 = k then (k, v) else e).find? fun e => e.1 = k).map Prod.snd =
        some v := by
    intro es hmem
    induction es with
    | nil => exact absurd hmem List.not_mem_nil
    | cons e es ih =>
        rw [List.map_cons, List.find?_cons]
        by_cases he : e.1 = k
        · simp [he]
        · have hes : k ∈ es.map Prod.fst := by simpa [Ne.symm he] using hmem
          simpa [he] using ih hes
  unfold set get?
  split
  · rename_i h
    exact hoverwrite d.entries h
  · rename_i h
    have hnone : d.entries.find? (fun e => e.1 = k) = none := by
      rw [List.find?_eq_none]
      intro e he hek
      exact h (List.mem_map.mpr ⟨e, he, by simpa using hek⟩)
    simp [List.find?_append, hnone]

/-- The other keys keep their values. -/
theorem get?_set_of_ne (d : PyDict α β) {k k' : α} (hne : k' ≠ k) (v : β) :
    (d.set k v).get? k' = d.get? k' := by
  have hoverwrite : ∀ es : List (α × β),
      ((es.map fun e => if e.1 = k then (k, v) else e).find? fun e => e.1 = k') =
        es.find? fun e => e.1 = k' := by
    intro es
    induction es with
    | nil => rfl
    | cons e es ih =>
        rw [List.map_cons, List.find?_cons, List.find?_cons, ih]
        by_cases he : e.1 = k
        · simp [he, Ne.symm hne]
        · simp [he]
  unfold set get?
  split
  · rw [hoverwrite]
  · simp [List.find?_append, Ne.symm hne]

/-- An entry is what its key is bound to. -/
theorem get?_of_mem {d : PyDict α β} {e : α × β} (he : e ∈ d.entries) : d.get? e.1 = some e.2 := by
  have hfind : ∀ es : List (α × β), (es.map Prod.fst).Nodup → e ∈ es →
      (es.find? fun f => f.1 = e.1) = some e := by
    intro es hnodup he
    induction es with
    | nil => exact absurd he List.not_mem_nil
    | cons f es ih =>
        rw [List.map_cons, List.nodup_cons] at hnodup
        rw [List.find?_cons]
        rcases List.mem_cons.mp he with rfl | he
        · simp
        · have hne : f.1 ≠ e.1 := fun h => hnodup.1 (List.mem_map.mpr ⟨e, he, h.symm⟩)
          simpa [hne] using ih hnodup.2 he
  rw [get?, hfind d.entries d.nodup he, Option.map_some]

/-- The keys after a binding. -/
theorem mem_keys_set {d : PyDict α β} {k k' : α} {v : β} :
    k' ∈ (d.set k v).entries.map Prod.fst ↔ k' ∈ d.entries.map Prod.fst ∨ k' = k := by
  unfold set
  split
  · rename_i h
    rw [map_fst_overwrite]
    exact ⟨Or.inl, fun h' => h'.elim id fun heq => heq ▸ h⟩
  · rw [List.map_append, List.mem_append, List.map_singleton, List.mem_singleton]

/-- `d.setdefault(k, []).extend(vs)`. -/
def extend (d : PyDict α (List β)) (k : α) (vs : List β) : PyDict α (List β) :=
  d.set k ((d.get? k).getD [] ++ vs)

/-- A dictionary of lists, extended step by step. -/
def collect (items : List (α × List β)) : PyDict α (List β) :=
  items.foldl (fun d item => d.extend item.1 item.2) empty

@[simp] theorem collect_concat (items : List (α × List β)) (item : α × List β) :
    collect (items ++ [item]) = (collect items).extend item.1 item.2 := by
  rw [collect, List.foldl_append]
  rfl

/-- **The list of a key** is made of what it was extended by, in order. -/
theorem getD_collect (items : List (α × List β)) (k : α) :
    ((collect items).get? k).getD [] =
      (items.filter fun item => item.1 = k).flatMap Prod.snd := by
  induction items using List.reverseRecOn with
  | nil => rfl
  | append_singleton items item ih =>
      rw [collect_concat, extend, List.filter_append, List.flatMap_append, ← ih]
      by_cases hk : item.1 = k
      · subst hk
        rw [get?_set_self]
        simp
      · rw [get?_set_of_ne _ (Ne.symm hk)]
        simp [hk]

theorem mem_keys_collect {items : List (α × List β)} {k : α} :
    k ∈ (collect items).entries.map Prod.fst ↔ ∃ item ∈ items, item.1 = k := by
  induction items using List.reverseRecOn with
  | nil => simp [collect, empty]
  | append_singleton items item ih =>
      rw [collect_concat, extend, mem_keys_set, ih]
      simp only [List.mem_append, List.mem_singleton]
      grind

/-- **An entry** holds all that its key was extended by. -/
theorem mem_collect {items : List (α × List β)} {e : α × List β}
    (he : e ∈ (collect items).entries) :
    e.2 = (items.filter fun item => item.1 = e.1).flatMap Prod.snd := by
  rw [← getD_collect, get?_of_mem he, Option.getD_some]

end Lists

theorem mem_filterKeys {d : PyDict α β} {p : α → Bool} {e : α × β}
    (h : e ∈ (d.filterKeys p).entries) : e ∈ d.entries :=
  List.mem_of_mem_filter h

/-! ## Trimming from the front -/

/-- The loop `while len(d) > n: del d[next(iter(d))]` on the entries. -/
def trimEntries (n : ℕ) : List (α × β) → List (α × β)
  | [] => []
  | e :: es => if n < (e :: es).length then trimEntries n es else e :: es

theorem trimEntries_sublist (n : ℕ) (es : List (α × β)) :
    List.Sublist (trimEntries n es) es := by
  induction es with
  | nil => exact List.Sublist.refl _
  | cons e es ih =>
      unfold trimEntries
      split
      · exact ih.trans (List.sublist_cons_self e es)
      · exact List.Sublist.refl _

/-- Delete the oldest entries until at most `n` are left. -/
def trim (d : PyDict α β) (n : ℕ) : PyDict α β :=
  d.ofSublist (trimEntries n d.entries) (trimEntries_sublist n d.entries)

theorem mem_trim {d : PyDict α β} {n : ℕ} {e : α × β} (h : e ∈ (d.trim n).entries) :
    e ∈ d.entries :=
  (trimEntries_sublist n d.entries).subset h

end PyDict
