/-
# The route oracle

`shortest_path` of `route_oracle.py`: Theta* on a grid between obstacle boxes.  A
neighbour is reached from the node's parent when that sees it, else from the node; queue
entries that were overtaken stay in the heap and are skipped when they come up.

The heap is a sorted list, whose head is what `heappop` returns.  The caches of `free`
and `visible` hold values of pure functions and are left out; the exceptions are values.
The loops run on fuel: `shortestPath_total` says that enough of it gives an outcome, always the
same one, and what a route that is found is like.
-/
import Mathlib.Data.Int.Interval
import Mathlib.Data.List.Sort
import Rvln.BinaryFloat
import Rvln.Labels
import Rvln.Trig

/-- An obstacle, `(x0, x1, y0, y1)`. -/
structure Box (K : Type*) where
  x0 : K
  x1 : K
  y0 : K
  y1 : K

/-- The arguments of `shortest_path`, with the boxes of the scene. -/
structure RouteOracle (K : Type*) where
  boxes : List (Box K)
  start : K × K
  goal : K × K
  resolution : K

namespace RouteOracle

/-- A cell of the grid. -/
abbrev Node := ℤ × ℤ

/-- What `shortest_path` raises. -/
inductive RouteError
  /-- `start is not collision-free`. -/
  | startNotFree
  /-- `no collision-free route`. -/
  | noRoute
  | keyError
  deriving DecidableEq

/-- `NEIGHBORS`. -/
def NEIGHBORS : List (ℤ × ℤ) :=
  [(-1, -1), (-1, 0), (-1, 1), (0, -1), (0, 1), (1, -1), (1, 0), (1, 1)]

section

variable {K : Type*} [Field K] [LinearOrder K] [FloorRing K] [Trig K]

/-! ## The grid -/

/-- `ROBOT_RADIUS_M`. -/
def ROBOT_RADIUS_M : K := 34 / 100

/-- `GOAL_TOLERANCE_M`. -/
def GOAL_TOLERANCE_M : K := 3 / 10

/-- `BOUNDS`, as `xmin`, `xmax`, `ymin`, `ymax`. -/
def xmin : K := -1

@[inherit_doc xmin] def xmax : K := 5

@[inherit_doc xmin] def ymin : K := -3

@[inherit_doc xmin] def ymax : K := 3

/-- The slack of the cost comparisons. -/
def slack : K := 1 / 10 ^ 9

variable (o : RouteOracle K)

/-- `nx`. -/
def nx : ℤ := roundEven ((xmax - xmin) / o.resolution)

/-- `ny`. -/
def ny : ℤ := roundEven ((ymax - ymin) / o.resolution)

/-- `xy`. -/
def xy (node : Node) : K × K := (xmin + node.1 * o.resolution, ymin + node.2 * o.resolution)

/-- `index`. -/
def index (point : K × K) : Node :=
  (roundEven ((point.1 - xmin) / o.resolution), roundEven ((point.2 - ymin) / o.resolution))

/-- `clear_point`. -/
def ClearPoint (x y : K) : Prop :=
  ¬ (x < xmin ∨ xmax < x ∨ y < ymin ∨ ymax < y) ∧ ∀ box ∈ o.boxes,
    ¬ max (max (box.x0 - x) 0) (x - box.x1) * max (max (box.x0 - x) 0) (x - box.x1) +
        max (max (box.y0 - y) 0) (y - box.y1) * max (max (box.y0 - y) 0) (y - box.y1) ≤
      ROBOT_RADIUS_M ^ 2

instance (x y : K) : Decidable (o.ClearPoint x y) := inferInstanceAs (Decidable (_ ∧ _))

/-- `free`. -/
def Free (node : Node) : Prop :=
  (0 ≤ node.1 ∧ node.1 ≤ o.nx ∧ 0 ≤ node.2 ∧ node.2 ≤ o.ny) ∧
    o.ClearPoint (o.xy node).1 (o.xy node).2

instance (node : Node) : Decidable (o.Free node) := inferInstanceAs (Decidable (_ ∧ _))

/-- `distance`. -/
def distance (a b : Node) : K :=
  Trig.hypot ((o.xy b).1 - (o.xy a).1) ((o.xy b).2 - (o.xy a).2)

/-- The number of samples of `visible`, less one. -/
def steps (a b : Node) : ℕ := (max 1 ⌈o.distance a b / (o.resolution / 3)⌉).toNat

/-- `visible`. -/
def Visible (a b : Node) : Prop :=
  ∀ i ∈ List.range (o.steps a b + 1), o.ClearPoint
    ((o.xy a).1 + ((o.xy b).1 - (o.xy a).1) * (i : K) / (o.steps a b : K))
    ((o.xy a).2 + ((o.xy b).2 - (o.xy a).2) * (i : K) / (o.steps a b : K))

instance (a b : Node) : Decidable (o.Visible a b) := inferInstanceAs (Decidable (∀ _ ∈ _, _))

/-- The distance from a node to the goal. -/
def goalDistance (node : Node) : K :=
  Trig.hypot ((o.xy node).1 - o.goal.1) ((o.xy node).2 - o.goal.2)

/-- `heuristic`. -/
def heuristic (node : Node) : K := max 0 (o.goalDistance node - GOAL_TOLERANCE_M)

/-- `source`. -/
def source : Node := o.index o.start

/-! ## The search -/

/-- An entry of the heap, `(estimate, cost, node)`, under the order of tuples. -/
abbrev Entry (K : Type*) := K ×ₗ K ×ₗ ℤ ×ₗ ℤ

/-- An entry for a node. -/
def Entry.new (estimate cost : K) (node : Node) : Entry K :=
  toLex (estimate, toLex (cost, toLex node))

/-- The cost of an entry. -/
def Entry.cost (e : Entry K) : K := (ofLex (ofLex e).2).1

/-- The node of an entry. -/
def Entry.node (e : Entry K) : Node := ofLex (ofLex (ofLex e).2).2

/-- `best`, `parent` and `queue`. -/
structure Frontier (K : Type*) where
  labels : Labels Node K
  queue : List (Entry K)

/-- `heapq.heappush`. -/
def heappush (queue : List (Entry K)) (e : Entry K) : List (Entry K) :=
  queue.orderedInsert (· ≤ ·) e

/-- `new_cost + 1e-9 < best.get(neighbor, math.inf)`. -/
def improves (l : Labels Node K) (neighbor : Node) (newCost : K) : Bool :=
  match l.best neighbor with
  | none => true
  | some b => decide (newCost + slack < b)

/-- The cost and the parent that a neighbour gets from `node`. -/
def offer (l : Labels Node K) (node neighbor : Node) (cost : K) : Except RouteError (K × Node) :=
  match l.parent node with
  | none => .error .keyError
  | some ancestor =>
      if o.Visible ancestor neighbor then
        match l.best ancestor with
        | none => .error .keyError
        | some b => .ok (b + o.distance ancestor neighbor, ancestor)
      else .ok (cost + o.distance node neighbor, node)

/-- The body of the loop over `NEIGHBORS`. -/
def relax (node : Node) (cost : K) (s : Frontier K) (d : ℤ × ℤ) :
    Except RouteError (Frontier K) :=
  let neighbor := (node.1 + d.1, node.2 + d.2)
  if ¬ o.Free neighbor ∨ ¬ o.Visible node neighbor then .ok s
  else do
    let (newCost, newParent) ← o.offer s.labels node neighbor cost
    if improves s.labels neighbor newCost then
      .ok ⟨s.labels.set neighbor newParent newCost,
        heappush s.queue (Entry.new (newCost + o.heuristic neighbor) newCost neighbor)⟩
    else .ok s

/-- How a turn of the search ends. -/
inductive Turn (K : Type*)
  | again (s : Frontier K)
  | reached (cost : K) (node : Node)
  | raises (e : RouteError)

/-- The body of the loop over the queue, and what follows it. -/
def turn (s : Frontier K) : Turn K :=
  match s.queue with
  | [] => .raises .noRoute
  | e :: queue =>
      match s.labels.best (Entry.node e) with
      | none => .raises .keyError
      | some b =>
          -- an entry that has been improved upon since it was pushed
          if b + slack < Entry.cost e then .again ⟨s.labels, queue⟩
          else if o.goalDistance (Entry.node e) ≤ GOAL_TOLERANCE_M ∧ o.Free (Entry.node e) then
            .reached (Entry.cost e) (Entry.node e)
          else
            match NEIGHBORS.foldlM (o.relax (Entry.node e) (Entry.cost e)) ⟨s.labels, queue⟩ with
            | .error err => .raises err
            | .ok s' => .again s'

/-- A route that is found: its cost, its nodes and the labels it was read from. -/
structure Found (K : Type*) where
  cost : K
  route : List Node
  labels : Labels Node K

/-- The search, with a bound for its turns and for the nodes of the route. -/
def loop : ℕ → Frontier K → Option (Except RouteError (Found K))
  | 0, _ => none
  | fuel + 1, s =>
      match o.turn s with
      | .again s' => loop fuel s'
      | .raises e => some (.error e)
      | .reached cost node =>
          (Labels.ancestors .keyError o.source s.labels fuel node).map fun way =>
            way.map fun nodes => ⟨cost, nodes.reverse, s.labels⟩

/-- `shortest_path`, up to the coordinates of the route. -/
def search (fuel : ℕ) : Option (Except RouteError (Found K)) :=
  if ¬ o.Free o.source then some (.error .startNotFree)
  else o.loop fuel
    ⟨Labels.start o.source, [Entry.new (o.heuristic o.source) 0 o.source]⟩

/-- `shortest_path`. -/
def shortestPath (fuel : ℕ) : Option (Except RouteError (K × List (K × K))) :=
  (o.search fuel).map fun r => r.map fun found => (found.cost, found.route.map o.xy)

end

/-! ## Distances on the grid -/

section

variable (o : RouteOracle ℝ)

theorem distance_nonneg (a b : Node) : 0 ≤ o.distance a b := Real.sqrt_nonneg _

/-- **Two cells are a grid step apart**, or more. -/
theorem resolution_le_distance {a b : Node} (h : a ≠ b) :
    o.resolution ≤ o.distance a b := by
  have hstep : ∀ i j : ℤ, i ≠ j → o.resolution ^ 2 ≤ ((j - i : ℝ) * o.resolution) ^ 2 := by
    intro i j hij
    have hone : (1 : ℝ) ≤ ((j - i : ℝ)) ^ 2 := by
      have hint : 1 ≤ (j - i) ^ 2 := sq_pos_iff.mpr (sub_ne_zero.mpr hij.symm)
      exact_mod_cast hint
    rw [mul_pow]
    exact le_mul_of_one_le_left (sq_nonneg _) hone
  have hx : (o.xy b).1 - (o.xy a).1 = (b.1 - a.1 : ℝ) * o.resolution := by
    unfold xy
    ring
  have hy : (o.xy b).2 - (o.xy a).2 = (b.2 - a.2 : ℝ) * o.resolution := by
    unfold xy
    ring
  show o.resolution ≤ Real.sqrt (((o.xy b).1 - (o.xy a).1) ^ 2 + ((o.xy b).2 - (o.xy a).2) ^ 2)
  rw [hx, hy]
  refine Real.le_sqrt_of_sq_le ?_
  by_cases hfst : a.1 = b.1
  · have hsnd : a.2 ≠ b.2 := fun hsnd => h (Prod.ext hfst hsnd)
    exact (hstep _ _ hsnd).trans (le_add_of_nonneg_left (sq_nonneg _))
  · exact (hstep _ _ hfst).trans (le_add_of_nonneg_right (sq_nonneg _))

/-- The cells of the grid. -/
noncomputable def grid : Finset Node := Finset.Icc 0 o.nx ×ˢ Finset.Icc 0 o.ny

theorem mem_grid {node : Node} (h : o.Free node) : node ∈ o.grid := by
  obtain ⟨⟨hx, hx', hy, hy'⟩, -⟩ := h
  exact Finset.mem_product.mpr ⟨Finset.mem_Icc.mpr ⟨hx, hx'⟩, Finset.mem_Icc.mpr ⟨hy, hy'⟩⟩

/-! ## One turn -/

/-- The labels are rooted at the source over free cells, and every queue entry is at least
the best cost of its cell. -/
structure Sound (s : Frontier ℝ) : Prop where
  rooted : s.labels.Rooted o.distance o.Visible o.source
  free : ∀ n c, s.labels.best n = some c → o.Free n
  queued : ∀ e ∈ s.queue, ∃ b, s.labels.best (Entry.node e) = some b ∧ b ≤ Entry.cost e
  sorted : s.queue.Pairwise (· ≤ ·)

variable {o} {s : Frontier ℝ} {node neighbor : Node} {b cost : ℝ}

theorem slack_pos : (0 : ℝ) < slack := by
  unfold slack
  positivity

theorem improves_iff {l : Labels Node ℝ} {c : ℝ} :
    improves l neighbor c = true ↔ l.Improves slack neighbor c := by
  unfold improves Labels.Improves
  cases hbest : l.best neighbor with
  | none => exact iff_of_true rfl nofun
  | some b =>
      rw [decide_eq_true_eq]
      constructor
      · rintro h _ ⟨⟩
        exact h
      · exact fun h => h b rfl

/-- What a neighbour is offered hangs on a label that sees it. -/
theorem offer_spec (h : o.Sound s) (hnode : s.labels.best node = some b) (hb : b ≤ cost)
    (hvis : o.Visible node neighbor) :
    ∃ c p a, o.offer s.labels node neighbor cost = .ok (c, p) ∧ s.labels.best p = some a ∧
      o.Visible p neighbor ∧ a + o.distance p neighbor ≤ c := by
  obtain ⟨ancestor, a, hparent, hbest⟩ := h.rooted.exists_parent hnode
  unfold offer
  rw [hparent]
  dsimp only
  by_cases hsees : o.Visible ancestor neighbor
  · rw [if_pos hsees, hbest]
    exact ⟨_, _, a, rfl, hbest, hsees, le_rfl⟩
  · rw [if_neg hsees]
    exact ⟨_, _, b, rfl, hnode, hvis, by linarith⟩

/-- The neighbour's new label and its queue entry. -/
theorem Sound.set {c a e : ℝ} {p : Node} (h : o.Sound s) (himp : s.labels.Improves slack neighbor c)
    (hfree : o.Free neighbor) (hp : s.labels.best p = some a) (hvis : o.Visible p neighbor)
    (hc : a + o.distance p neighbor ≤ c) :
    o.Sound ⟨s.labels.set neighbor p c, heappush s.queue (Entry.new e c neighbor)⟩ := by
  refine ⟨h.rooted.set slack_pos.le himp hp hvis (o.distance_nonneg p neighbor) hc, ?_, ?_, ?_⟩
  · intro n c' hn
    by_cases hne : n = neighbor
    · rw [hne]
      exact hfree
    · rw [Labels.best_set_of_ne _ _ _ hne] at hn
      exact h.free n c' hn
  · intro e' he'
    rcases (List.mem_orderedInsert _).mp he' with rfl | he'
    · exact ⟨c, Labels.best_set_self _ _ _ _, le_rfl⟩
    · obtain ⟨b', hb', hle'⟩ := h.queued e' he'
      obtain ⟨b'', hb'', hle''⟩ := Labels.exists_best_set slack_pos.le himp hb'
      exact ⟨b'', hb'', hle''.trans hle'⟩
  · exact h.sorted.orderedInsert _ _

/-- **One neighbour**: nothing changes, or its label improves. -/
theorem relax_spec (h : o.Sound s) (hnode : ∃ b, s.labels.best node = some b ∧ b ≤ cost)
    (d : ℤ × ℤ) :
    ∃ s', o.relax node cost s d = .ok s' ∧ o.Sound s' ∧
      (∃ b, s'.labels.best node = some b ∧ b ≤ cost) ∧
      (s' = s ∨ s'.labels.rank slack o.grid < s.labels.rank slack o.grid) := by
  obtain ⟨b, hbest, hb⟩ := hnode
  unfold relax
  dsimp only
  by_cases hskip : ¬ o.Free (node.1 + d.1, node.2 + d.2) ∨
      ¬ o.Visible node (node.1 + d.1, node.2 + d.2)
  · rw [if_pos hskip]
    exact ⟨s, rfl, h, ⟨b, hbest, hb⟩, .inl rfl⟩
  · rw [if_neg hskip]
    rw [not_or, not_not, not_not] at hskip
    obtain ⟨hfree, hvis⟩ := hskip
    generalize (node.1 + d.1, node.2 + d.2) = neighbor at hfree hvis ⊢
    obtain ⟨c, p, a, hoffer, hp, hsees, hc⟩ := offer_spec h hbest hb hvis
    rw [hoffer]
    show ∃ s', (if improves s.labels neighbor c = true then _ else _) = _ ∧ _
    by_cases himp : s.labels.Improves slack neighbor c
    · rw [if_pos (improves_iff.mpr himp)]
      have hc0 : 0 ≤ c :=
        (add_nonneg (h.rooted.nonneg p a hp) (o.distance_nonneg p neighbor)).trans hc
      obtain ⟨b', hb', hle⟩ := Labels.exists_best_set (p := p) slack_pos.le himp hbest
      exact ⟨_, rfl, h.set himp hfree hp hsees hc, ⟨b', hb', hle.trans hb⟩,
        .inr (Labels.rank_set_lt slack_pos (o.mem_grid hfree) hc0 himp)⟩
    · rw [if_neg (fun hyes => himp (improves_iff.mp hyes))]
      exact ⟨s, rfl, h, ⟨b, hbest, hb⟩, .inl rfl⟩

/-- **All neighbours.** -/
theorem relaxAll_spec (ds : List (ℤ × ℤ)) (h : o.Sound s)
    (hnode : ∃ b, s.labels.best node = some b ∧ b ≤ cost) :
    ∃ s', ds.foldlM (o.relax node cost) s = .ok s' ∧ o.Sound s' ∧
      (s' = s ∨ s'.labels.rank slack o.grid < s.labels.rank slack o.grid) := by
  induction ds generalizing s with
  | nil => exact ⟨s, rfl, h, .inl rfl⟩
  | cons d ds ih =>
      obtain ⟨s₁, hrelax, hsound, hnode₁, hrank₁⟩ := relax_spec h hnode d
      obtain ⟨s₂, hfold, hsound₂, hrank₂⟩ := ih hsound hnode₁
      rw [List.foldlM_cons, hrelax]
      refine ⟨s₂, hfold, hsound₂, ?_⟩
      rcases hrank₁ with rfl | hlt₁
      · exact hrank₂
      · rcases hrank₂ with rfl | hlt₂
        · exact .inr hlt₁
        · exact .inr (hlt₂.trans hlt₁)

/-! ## The whole search -/

variable (o)

/-- The labels that can still improve, then the entries of the heap. -/
noncomputable def rank (s : Frontier ℝ) : (ℕ ×ₗ ℕ) ×ₗ ℕ :=
  toLex (s.labels.rank slack o.grid, s.queue.length)

/-- Within the goal tolerance. -/
def AtGoal (node : Node) : Prop := o.goalDistance node ≤ GOAL_TOLERANCE_M ∧ o.Free node

/-- What a turn can do. -/
inductive Turned (s : Frontier ℝ) : Turn ℝ → Prop
  | again {s' : Frontier ℝ} : o.Sound s' → o.rank s' < o.rank s → Turned s (.again s')
  | reached {cost b : ℝ} {node : Node} : o.AtGoal node → s.labels.best node = some b → b ≤ cost →
      Turned s (.reached cost node)
  | raises : s.queue = [] → Turned s (.raises .noRoute)

variable {o}

/-- **One turn** keeps the labels sound and lowers the rank, or ends the search. -/
theorem turn_spec (h : o.Sound s) : o.Turned s (o.turn s) := by
  unfold turn
  cases hqueue : s.queue with
  | nil => exact .raises hqueue
  | cons e queue =>
      have hmem : e ∈ s.queue := hqueue ▸ List.mem_cons_self
      obtain ⟨b, hbest, hb⟩ := h.queued e hmem
      have hpopped : o.Sound ⟨s.labels, queue⟩ :=
        ⟨h.rooted, h.free, fun e' he' => h.queued e' (hqueue ▸ List.mem_cons_of_mem e he'),
          (hqueue ▸ h.sorted).of_cons⟩
      have hlength : queue.length < s.queue.length := by
        rw [hqueue]
        exact Nat.lt_succ_self _
      have hshorter : o.rank ⟨s.labels, queue⟩ < o.rank s :=
        Prod.Lex.toLex_lt_toLex.mpr (.inr ⟨rfl, hlength⟩)
      dsimp only
      rw [hbest]
      dsimp only
      by_cases hstale : b + slack < Entry.cost e
      · -- the cell was improved since the entry was made
        rw [if_pos hstale]
        exact .again hpopped hshorter
      · rw [if_neg hstale]
        by_cases hgoal : o.goalDistance (Entry.node e) ≤ GOAL_TOLERANCE_M ∧ o.Free (Entry.node e)
        · rw [if_pos hgoal]
          exact .reached hgoal hbest hb
        · rw [if_neg hgoal]
          obtain ⟨s', hfold, hsound, hrank⟩ := relaxAll_spec NEIGHBORS hpopped ⟨b, hbest, hb⟩
          rw [hfold]
          refine .again hsound ?_
          -- without an improvement the heap is shorter by the popped entry
          rcases hrank with rfl | hlt
          · exact hshorter
          · exact Prod.Lex.toLex_lt_toLex.mpr (.inl hlt)

variable (o)

/-- A route that is found, and the labels it was read from. -/
structure IsRoute (found : Found ℝ) : Prop where
  /-- From the start cell. -/
  head : found.route.head? = some o.source
  /-- To a free cell within the goal tolerance. -/
  last : ∃ node, found.route.getLast? = some node ∧ o.AtGoal node
  /-- Each point sees the next one. -/
  visible : found.route.IsChain o.Visible
  /-- Along the parents, with strictly smaller costs. -/
  descends : found.route.IsChain fun p n => found.labels.parent n = some p ∧
    ∃ b c, found.labels.best p = some b ∧ found.labels.best n = some c ∧ b < c
  nodup : found.route.Nodup
  length_le : Labels.pathLength o.distance found.route ≤ found.cost

/-- The outcomes of a search. -/
inductive Outcome : Except RouteError (Found ℝ) → Prop
  | startNotFree : ¬ o.Free o.source → Outcome (.error .startNotFree)
  | noRoute : o.Free o.source → Outcome (.error .noRoute)
  | found {found : Found ℝ} : o.Free o.source → o.IsRoute found → Outcome (.ok found)

variable {o}

/-- **The route** is the way back from a cell at the goal. -/
theorem exists_route (h : o.Sound s) (hres : 0 < o.resolution) (hgoal : o.AtGoal node)
    (hbest : s.labels.best node = some b) (hb : b ≤ cost) :
    ∃ nodes n, (∀ fuel ≥ n, Labels.ancestors RouteError.keyError o.source s.labels fuel node =
      some (.ok nodes)) ∧ o.IsRoute ⟨cost, nodes.reverse, s.labels⟩ := by
  obtain ⟨way, hway, hchain, hlast, hlength⟩ := h.rooted.exists_ancestors RouteError.keyError
    hres (fun _ _ => o.resolution_le_distance) (⌊b / o.resolution⌋₊ + 1) node b hbest
    (Nat.lt_succ_self _)
  refine ⟨node :: way, _, fun fuel hfuel => Labels.ancestors_mono hfuel hway, ?_⟩
  refine ⟨?_, ⟨node, ?_, hgoal⟩, ?_, ?_, ?_, ?_⟩
  · rw [List.head?_reverse]
    exact hlast
  · rw [List.getLast?_reverse]
    rfl
  · exact List.isChain_reverse.mpr (hchain.imp fun n p hback => hback.2.1)
  · exact List.isChain_reverse.mpr (hchain.imp fun n p hback => ⟨hback.1, hback.2.2⟩)
  · exact List.nodup_reverse.mpr (Labels.nodup_of_back hchain)
  · exact (Labels.pathLength_reverse o.distance _).trans_le (hlength.trans hb)

/-- **Every search comes to an end**, and ends well. -/
theorem loop_total (hres : 0 < o.resolution) (hfree : o.Free o.source) (h : o.Sound s) :
    ∃ r n, (∀ fuel ≥ n, o.loop fuel s = some r) ∧ o.Outcome r := by
  induction hrank : o.rank s using WellFoundedLT.induction generalizing s with
  | ind _ ih =>
      have hturn := turn_spec h
      generalize hresult : o.turn s = t at hturn
      cases hturn with
      | @again s' hsound hlt =>
          obtain ⟨r, n, hloop, hr⟩ := ih (o.rank s') (hrank ▸ hlt) hsound rfl
          refine ⟨r, n + 1, fun fuel hfuel => ?_, hr⟩
          obtain ⟨k, rfl⟩ : ∃ k, fuel = k + 1 := ⟨fuel - 1, by omega⟩
          unfold loop
          rw [hresult]
          exact hloop k (by omega)
      | @reached cost b node hgoal hbest hb =>
          obtain ⟨nodes, n, hway, hroute⟩ := exists_route h hres hgoal hbest hb
          refine ⟨.ok ⟨cost, nodes.reverse, s.labels⟩, n + 1, fun fuel hfuel => ?_,
            .found hfree hroute⟩
          obtain ⟨k, rfl⟩ : ∃ k, fuel = k + 1 := ⟨fuel - 1, by omega⟩
          unfold loop
          rw [hresult]
          dsimp only
          rw [hway k (by omega)]
          rfl
      | raises _ =>
          refine ⟨.error .noRoute, 1, fun fuel hfuel => ?_, .noRoute hfree⟩
          obtain ⟨k, rfl⟩ : ∃ k, fuel = k + 1 := ⟨fuel - 1, by omega⟩
          unfold loop
          rw [hresult]

/-- The search starts sound. -/
theorem sound_start (hfree : o.Free o.source) :
    o.Sound ⟨Labels.start o.source, [Entry.new (o.heuristic o.source) 0 o.source]⟩ := by
  refine ⟨Labels.rooted_start _ _ _, ?_, ?_, List.pairwise_singleton _ _⟩
  · intro n c hn
    unfold Labels.start at hn
    dsimp only at hn
    split at hn
    · rename_i hsource
      rw [hsource]
      exact hfree
    · cases hn
  · intro e he
    rw [List.mem_singleton] at he
    subst he
    exact ⟨0, if_pos rfl, le_rfl⟩

theorem search_outcome (hres : 0 < o.resolution) :
    ∃ r n, (∀ fuel ≥ n, o.search fuel = some r) ∧ o.Outcome r := by
  by_cases hfree : o.Free o.source
  · obtain ⟨r, n, hloop, hr⟩ := loop_total hres hfree (sound_start hfree)
    refine ⟨r, n, fun fuel hfuel => ?_, hr⟩
    unfold search
    rw [if_neg (not_not.mpr hfree)]
    exact hloop fuel hfuel
  · exact ⟨.error .startNotFree, 0, fun _ _ => if_pos hfree, .startNotFree hfree⟩

/-- **`shortest_path` is total**: with enough fuel it has one outcome, a route or an error
that says why there is none. -/
theorem shortestPath_total (o : RouteOracle ℝ) (hres : 0 < o.resolution) :
    ∃ r n, (∀ fuel ≥ n, o.search fuel = some r ∧ o.shortestPath fuel =
      some (r.map fun found => (found.cost, found.route.map o.xy))) ∧ o.Outcome r := by
  obtain ⟨r, n, hsearch, hr⟩ := search_outcome hres
  refine ⟨r, n, fun fuel hfuel => ⟨hsearch fuel hfuel, ?_⟩, hr⟩
  unfold shortestPath
  rw [hsearch fuel hfuel]
  rfl

end

/-- Around one box, on a grid of half a metre. -/
theorem shortestPath_total_one_box :
    ∃ r n, (∀ fuel ≥ n,
      (⟨[⟨1, 2, -1, 1⟩], (0, 0), (3, 0), 1 / 2⟩ : RouteOracle ℝ).search fuel = some r ∧
      (⟨[⟨1, 2, -1, 1⟩], (0, 0), (3, 0), 1 / 2⟩ : RouteOracle ℝ).shortestPath fuel =
        some (r.map fun found => (found.cost, found.route.map
          (⟨[⟨1, 2, -1, 1⟩], (0, 0), (3, 0), 1 / 2⟩ : RouteOracle ℝ).xy))) ∧
      (⟨[⟨1, 2, -1, 1⟩], (0, 0), (3, 0), 1 / 2⟩ : RouteOracle ℝ).Outcome r :=
  shortestPath_total _ (by norm_num)

end RouteOracle
