/-
# The labels of a label-correcting search

A search over nodes keeps for each node it has met the best cost found so far and the
node it was reached from.  Costs only improve, each time by more than a slack, and an
improved node may have given costs to others before.

* `Rooted` : the invariant of the labels, kept by every improvement (`Rooted.set`);
* `exists_ancestors` : the way back to the source ends, along costs that strictly
  decrease and bound its length;
* `rank_set_lt` : an improvement lowers a rank in a well-founded order.
-/
import Mathlib.Algebra.BigOperators.Group.Finset.Basic
import Mathlib.Algebra.Order.BigOperators.Group.Finset
import Mathlib.Algebra.Order.Floor.Semiring
import Mathlib.Data.Prod.Lex
import Mathlib.Tactic.Linarith
import Mathlib.Tactic.Ring

/-- The best costs and the parents of the nodes met so far. -/
structure Labels (V K : Type*) where
  best : V → Option K
  parent : V → Option V

namespace Labels

variable {V K : Type*} [DecidableEq V]

/-- The source alone, reached from itself at no cost. -/
def start [Zero K] (source : V) : Labels V K where
  best n := if n = source then some 0 else none
  parent n := if n = source then some source else none

/-- The node `n` is reached from `p` at cost `c`. -/
def set (l : Labels V K) (n p : V) (c : K) : Labels V K where
  best := Function.update l.best n (some c)
  parent := Function.update l.parent n (some p)

section

variable (l : Labels V K) (n p m : V) (c : K)

@[simp] theorem best_set_self : (l.set n p c).best n = some c :=
  Function.update_self (β := fun _ => Option K) n (some c) l.best

@[simp] theorem parent_set_self : (l.set n p c).parent n = some p :=
  Function.update_self (β := fun _ => Option V) n (some p) l.parent

variable {n m}

theorem best_set_of_ne (h : m ≠ n) : (l.set n p c).best m = l.best m :=
  Function.update_of_ne h _ _

theorem parent_set_of_ne (h : m ≠ n) : (l.set n p c).parent m = l.parent m :=
  Function.update_of_ne h _ _

end

/-! ## The invariant -/

/-- The cost `c` is better than that of `n`, by more than `ε`. -/
def Improves [Add K] [LT K] (ε : K) (l : Labels V K) (n : V) (c : K) : Prop :=
  ∀ b, l.best n = some b → c + ε < b

section

variable [Field K] [LinearOrder K] [IsStrictOrderedRing K]

/-- Every label but the source's hangs on another one, over a link with `ok`, and is at
least as far as that one and the link. -/
structure Rooted (dist : V → V → K) (ok : V → V → Prop) (source : V) (l : Labels V K) : Prop where
  best_source : l.best source = some 0
  parent_source : l.parent source = some source
  nonneg : ∀ n c, l.best n = some c → 0 ≤ c
  link : ∀ n c, n ≠ source → l.best n = some c →
    ∃ p b, l.parent n = some p ∧ l.best p = some b ∧ p ≠ n ∧ ok p n ∧ b + dist p n ≤ c

variable {dist : V → V → K} {ok : V → V → Prop} {source : V} {l : Labels V K} {ε : K}

omit [IsStrictOrderedRing K] in
theorem rooted_start (dist : V → V → K) (ok : V → V → Prop) (source : V) :
    (start source : Labels V K).Rooted dist ok source where
  best_source := if_pos rfl
  parent_source := if_pos rfl
  nonneg n c h := by
    unfold start at h
    dsimp only at h
    split at h
    · cases h
      exact le_rfl
    · cases h
  link n c hn h := by
    unfold start at h
    dsimp only at h
    rw [if_neg hn] at h
    cases h

omit [IsStrictOrderedRing K] in
/-- A node with a label has a parent with a label. -/
theorem Rooted.exists_parent {n : V} {c : K} (h : l.Rooted dist ok source)
    (hn : l.best n = some c) : ∃ p b, l.parent n = some p ∧ l.best p = some b := by
  by_cases hsource : n = source
  · rw [hsource]
    exact ⟨source, 0, h.parent_source, h.best_source⟩
  · obtain ⟨p, b, hp, hb, -⟩ := h.link n c hsource hn
    exact ⟨p, b, hp, hb⟩

/-- An improvement never worsens a label. -/
theorem exists_best_set {n p m : V} {a c : K} (hε : 0 ≤ ε) (himp : l.Improves ε n c)
    (hm : l.best m = some a) : ∃ b, (l.set n p c).best m = some b ∧ b ≤ a := by
  by_cases h : m = n
  · subst h
    exact ⟨c, best_set_self l m p c, (le_add_of_nonneg_right hε).trans (himp a hm).le⟩
  · exact ⟨a, (best_set_of_ne l p c h).trans hm, le_rfl⟩

/-- **An improvement keeps the invariant.**  The labels that hang on the improved one are
farther than before from theirs; and it is not among its own ancestors, which have
smaller costs. -/
theorem Rooted.set {n p : V} {b c : K} (h : l.Rooted dist ok source) (hε : 0 ≤ ε)
    (himp : l.Improves ε n c) (hp : l.best p = some b) (hok : ok p n) (hdist : 0 ≤ dist p n)
    (hc : b + dist p n ≤ c) : (l.set n p c).Rooted dist ok source := by
  have hb : 0 ≤ b := h.nonneg p b hp
  have hc0 : 0 ≤ c := (add_nonneg hb hdist).trans hc
  -- so neither the source nor the parent is relabelled
  have hbetter : ∀ a, l.best n = some a → c < a := fun a ha =>
    (le_add_of_nonneg_right hε).trans_lt (himp a ha)
  have hsource : source ≠ n := by
    rintro rfl
    exact absurd (hbetter 0 h.best_source) (not_lt.mpr hc0)
  have hpn : p ≠ n := by
    rintro rfl
    exact absurd (hbetter b hp) (not_lt.mpr ((le_add_of_nonneg_right hdist).trans hc))
  refine ⟨?_, ?_, ?_, ?_⟩
  · rw [best_set_of_ne l p c hsource, h.best_source]
  · rw [parent_set_of_ne l p c hsource, h.parent_source]
  · intro m a hm
    by_cases hmn : m = n
    · subst hmn
      rw [best_set_self] at hm
      cases hm
      exact hc0
    · rw [best_set_of_ne l p c hmn] at hm
      exact h.nonneg m a hm
  · intro m a hms hm
    by_cases hmn : m = n
    · subst hmn
      rw [best_set_self] at hm
      cases hm
      exact ⟨p, b, parent_set_self l m p c, (best_set_of_ne l p c hpn).trans hp, hpn, hok, hc⟩
    · rw [best_set_of_ne l p c hmn] at hm
      -- an ancestor can only have come nearer
      obtain ⟨q, a', hq, ha', hne, hlink, hle⟩ := h.link m a hms hm
      obtain ⟨a'', hset, hle''⟩ := exists_best_set (p := p) hε himp ha'
      exact ⟨q, a'', (parent_set_of_ne l p c hmn).trans hq, hset, hne, hlink, by linarith⟩

end

/-! ## The way back -/

/-- The nodes from `n` back to the source, with a bound for their number; `missing` is
raised on a node without a parent. -/
def ancestors {E : Type*} (missing : E) (source : V) (l : Labels V K) :
    ℕ → V → Option (Except E (List V))
  | 0, _ => none
  | fuel + 1, n =>
      if n = source then some (.ok [n])
      else
        match l.parent n with
        | none => some (.error missing)
        | some p => (ancestors missing source l fuel p).map fun way => way.map (n :: ·)

/-- A larger bound changes nothing. -/
theorem ancestors_mono {E : Type*} {missing : E} {source : V} {l : Labels V K} {k k' : ℕ}
    (hk : k ≤ k') {n : V} {r : Except E (List V)} (h : l.ancestors missing source k n = some r) :
    l.ancestors missing source k' n = some r := by
  induction k generalizing k' n r with
  | zero => cases h
  | succ k ih =>
      obtain ⟨k', rfl⟩ : ∃ j, k' = j + 1 := ⟨k' - 1, by omega⟩
      unfold ancestors at h ⊢
      split
      · rename_i hsource
        rwa [if_pos hsource] at h
      · rename_i hsource
        rw [if_neg hsource] at h
        cases hparent : l.parent n with
        | none => rwa [hparent] at h
        | some p =>
            rw [hparent] at h
            obtain ⟨way, hway, hr⟩ := Option.map_eq_some_iff.mp h
            exact Option.map_eq_some_iff.mpr ⟨way, ih (by omega) hway, hr⟩

/-- The length of a way through some nodes. -/
def pathLength [Zero K] [Add K] (dist : V → V → K) : List V → K
  | [] => 0
  | [_] => 0
  | a :: b :: way => dist a b + pathLength dist (b :: way)

/-- One step back: to the parent, at a smaller cost. -/
def Back [LT K] (ok : V → V → Prop) (l : Labels V K) (n p : V) : Prop :=
  l.parent n = some p ∧ ok p n ∧ ∃ b c, l.best p = some b ∧ l.best n = some c ∧ b < c

/-! Read the other way, the way leads from the source. -/

section

variable [Field K] (dist : V → V → K)

omit [DecidableEq V] in
theorem pathLength_append_pair (way : List V) (a b : V) :
    pathLength dist (way ++ [a, b]) = pathLength dist (way ++ [a]) + dist a b := by
  induction way with
  | nil => exact (add_zero _).trans (zero_add _).symm
  | cons x way ih =>
      cases way with
      | nil =>
          show dist x a + (dist a b + 0) = dist x a + 0 + dist a b
          ring
      | cons y way =>
          show dist x y + pathLength dist ((y :: way) ++ [a, b]) =
            dist x y + pathLength dist ((y :: way) ++ [a]) + dist a b
          rw [ih, add_assoc]

omit [DecidableEq V] in
theorem pathLength_reverse (way : List V) :
    pathLength dist way.reverse = pathLength (fun a b => dist b a) way := by
  induction way with
  | nil => rfl
  | cons x way ih =>
      cases way with
      | nil => rfl
      | cons y way =>
          rw [List.reverse_cons, List.reverse_cons, List.append_assoc]
          show pathLength dist (way.reverse ++ [y, x]) = _
          rw [pathLength_append_pair, ← List.reverse_cons, ih, add_comm]
          rfl

end

omit [DecidableEq V] in
/-- **No node twice**: the costs strictly decrease along the way. -/
theorem nodup_of_back [Preorder K] {ok : V → V → Prop} {l : Labels V K} {way : List V}
    (h : way.IsChain (Back ok l)) : way.Nodup := by
  let Below (n p : V) : Prop := ∃ b c, l.best p = some b ∧ l.best n = some c ∧ b < c
  have htrans : ∀ {n p q : V}, Below n p → Below p q → Below n q := by
    rintro n p q ⟨b, c, hb, hc, hlt⟩ ⟨a, b', ha, hb', hlt'⟩
    rw [hb] at hb'
    cases hb'
    exact ⟨a, c, ha, hc, hlt'.trans hlt⟩
  have hchain : way.IsChain Below := h.imp fun n p hback => hback.2.2
  have : Trans Below Below Below := ⟨htrans⟩
  refine (List.isChain_iff_pairwise.mp hchain).imp ?_
  rintro n _ ⟨b, c, hb, hc, hlt⟩ rfl
  rw [hb] at hc
  cases hc
  exact lt_irrefl _ hlt

section

variable [Field K] [LinearOrder K] [IsStrictOrderedRing K] [FloorRing K]
variable {dist : V → V → K} {ok : V → V → Prop} {source : V} {l : Labels V K} {δ : K}

/-- **The way back ends at the source.**  Two nodes are `δ` apart, so every step back
lowers the cost by that much; the cost bounds the steps and the length of the way. -/
theorem Rooted.exists_ancestors {E : Type*} (missing : E) (h : l.Rooted dist ok source)
    (hδ : 0 < δ) (hdist : ∀ a b, a ≠ b → δ ≤ dist a b) :
    ∀ (k : ℕ) (n : V) (c : K), l.best n = some c → ⌊c / δ⌋₊ < k →
      ∃ way, l.ancestors missing source k n = some (.ok (n :: way)) ∧
        (n :: way).IsChain (Back ok l) ∧ (n :: way).getLast? = some source ∧
        pathLength (fun a b => dist b a) (n :: way) ≤ c := by
  -- on a bound for the multiples of `δ` in the cost
  intro k
  induction k with
  | zero => exact fun _ _ _ hk => absurd hk (Nat.not_lt_zero _)
  | succ k ih =>
      intro n c hn hk
      unfold ancestors
      by_cases hsource : n = source
      · rw [if_pos hsource]
        exact ⟨[], rfl, List.IsChain.singleton n, by rw [hsource]; rfl, h.nonneg n c hn⟩
      · obtain ⟨p, b, hp, hb, hne, hok, hle⟩ := h.link n c hsource hn
        have hstep : b + δ ≤ c := by
          have hfar := hdist p n hne
          linarith
        have hfloor : ⌊b / δ⌋₊ < k := by
          have hquot : b / δ + 1 ≤ c / δ := by
            rw [← div_self hδ.ne', ← add_div]
            exact div_le_div_of_nonneg_right hstep hδ.le
          have hmono := Nat.floor_mono hquot
          rw [Nat.floor_add_one (div_nonneg (h.nonneg p b hb) hδ.le)] at hmono
          omega
        obtain ⟨way, hway, hchain, hlast, hlength⟩ := ih p b hb hfloor
        rw [if_neg hsource, hp]
        refine ⟨p :: way, ?_, ?_, ?_, ?_⟩
        · dsimp only
          rw [hway]
          rfl
        · exact List.IsChain.cons_cons ⟨hp, hok, b, c, hb, hn, by linarith⟩ hchain
        · rw [List.getLast?_cons_cons]
          exact hlast
        · show dist p n + pathLength _ (p :: way) ≤ c
          linarith

end

/-! ## Improvements come to an end -/

section

variable [Field K] [LinearOrder K] [IsStrictOrderedRing K] [FloorRing K]

/-- How often the cost of a node can still improve by `ε`. -/
def improvements (ε : K) (l : Labels V K) (n : V) : ℕ :=
  match l.best n with
  | none => 0
  | some c => ⌊c / ε⌋₊

/-- The nodes of the grid without a label, and the improvements of the others. -/
def rank (ε : K) (grid : Finset V) (l : Labels V K) : ℕ ×ₗ ℕ :=
  toLex ((grid.filter fun n => l.best n = none).card, ∑ n ∈ grid, improvements ε l n)

variable {ε : K} {grid : Finset V} {l : Labels V K}

/-- **An improvement lowers the rank.** -/
theorem rank_set_lt {n p : V} {c : K} (hε : 0 < ε) (hn : n ∈ grid) (hc : 0 ≤ c)
    (himp : l.Improves ε n c) : rank ε grid (l.set n p c) < rank ε grid l := by
  unfold rank
  rw [Prod.Lex.toLex_lt_toLex]
  cases hbest : l.best n with
  | none =>
      -- its first label: one node fewer without
      refine .inl (Finset.card_lt_card ?_)
      rw [Finset.ssubset_iff_of_subset]
      · refine ⟨n, Finset.mem_filter.mpr ⟨hn, hbest⟩, ?_⟩
        rw [Finset.mem_filter, best_set_self]
        exact fun h => nomatch h.2
      · intro m hm
        rw [Finset.mem_filter] at hm ⊢
        have hmn : m ≠ n := by
          rintro rfl
          rw [best_set_self] at hm
          cases hm.2
        rw [best_set_of_ne l p c hmn] at hm
        exact hm
  | some b =>
      right
      constructor
      · -- the node had a label before
        refine congrArg Finset.card (Finset.filter_congr fun m _ => ?_)
        by_cases hmn : m = n
        · rw [hmn, best_set_self, hbest]
          exact iff_of_false nofun nofun
        · rw [best_set_of_ne l p c hmn]
      · refine Finset.sum_lt_sum ?_ ⟨n, hn, ?_⟩
        · intro m _
          by_cases hmn : m = n
          · subst hmn
            unfold improvements
            rw [best_set_self, hbest]
            refine Nat.floor_mono (div_le_div_of_nonneg_right ?_ hε.le)
            linarith [himp b hbest]
          · unfold improvements
            rw [best_set_of_ne l p c hmn]
        · unfold improvements
          rw [best_set_self, hbest]
          have hquot : c / ε + 1 ≤ b / ε := by
            rw [← div_self hε.ne', ← add_div]
            exact div_le_div_of_nonneg_right (himp b hbest).le hε.le
          have hmono := Nat.floor_mono hquot
          rw [Nat.floor_add_one (div_nonneg hc hε.le)] at hmono
          exact hmono

end

end Labels
