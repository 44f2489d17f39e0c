/-
# The mobile transports' mailbox and watchdog

`ActionPathBridge` of `action_path_bridge.py`: transport threads store the
newest `Path` with `receive`, the ROS timer drains it with `tick`, and a tick
that finds the input expired answers one empty stop path.  Both methods hold
`self._lock` for their whole body, so a run is a list of atomic events; the
`now` values are read before the lock is taken and may come in any order.

Three fields (`_pending`, `_last_rx`, `_stopped`) encode a one-slot mailbox and
a one-shot watchdog at once.  `Reception` says what they are for: the last
path received, its receive time, and the ticks since.  `bridge_refines`
connects the two.
-/
import Mathlib.Data.Rat.Defs
import Mathlib.Algebra.Order.Ring.Rat
import Mathlib.Tactic.NormNum
import Rvln.Machine
import Rvln.NavPath

variable {R : Type*}

/-- The fields of `ActionPathBridge`; times are exact seconds. -/
structure ActionPathBridge (R : Type*) where
  frameId : String
  maxAgeSec : ℚ
  pending : Option (NavPath R)
  lastRx : Option ℚ
  goalId : String
  stopped : Bool

namespace ActionPathBridge

/-! ## The code -/

/-- `ActionPathBridge.__init__`. -/
def new (frameId : String) (maxAgeSec : ℚ) : ActionPathBridge R where
  frameId := frameId
  maxAgeSec := maxAgeSec
  pending := none
  lastRx := none
  goalId := ""
  stopped := true

/-- `ActionPathBridge.following`. -/
def following (b : ActionPathBridge R) : Bool := !b.stopped

/-- `ActionPathBridge.receive`: queue a path; the previous goal id when it
changed. -/
def receive (b : ActionPathBridge R) (path : NavPath R) (goalId : String) (now : ℚ) :
    ActionPathBridge R × Option String :=
  let previous := if goalId ≠ b.goalId then some b.goalId else none
  ({ b with goalId := goalId, pending := some path, lastRx := some now, stopped := false },
    previous)

/-- The input has expired: `now - self._last_rx > self._max_age_sec`. -/
def expired (b : ActionPathBridge R) (now : ℚ) : Bool :=
  match b.lastRx with
  | none => false
  | some rx => decide (b.maxAgeSec < now - rx)

/-- `ActionPathBridge.tick`: a queued path or a one-shot stop path, and whether
it timed out. -/
def tick (b : ActionPathBridge R) (now : ℚ) :
    ActionPathBridge R × (Option (NavPath R) × Bool) :=
  -- `stopped` keeps the next tick out of this branch: one stop path a time-out
  if b.lastRx.isSome && !b.stopped && b.expired now then
    ({ b with stopped := true, pending := none }, (some (NavPath.empty b.frameId), true))
  else
    match b.pending with
    | some pending => ({ b with pending := none }, (some pending, false))
    | none => (b, (none, false))

/-- What the transports and the timer may do to the bridge. -/
inductive Event (R : Type*)
  | receive (path : NavPath R) (goalId : String) (now : ℚ)
  | tick (now : ℚ)

/-- The state after one event. -/
def step (b : ActionPathBridge R) : Event R → ActionPathBridge R
  | .receive path goalId now => (b.receive path goalId now).1
  | .tick now => (b.tick now).1

/-- Any interleaving of receives and ticks, with any clock readings. -/
def machine (frameId : String) (maxAgeSec : ℚ) : Machine (ActionPathBridge R) (Event R) where
  Init b := b = new frameId maxAgeSec
  Guard _ _ := True
  next := step

/-- What the ticks among `es` answered, oldest first. -/
def answers (b : ActionPathBridge R) : List (Event R) → List (Option (NavPath R) × Bool)
  | [] => []
  | .receive path goalId now :: es => answers (b.receive path goalId now).1 es
  | .tick now :: es => (b.tick now).2 :: answers (b.tick now).1 es

/-! ## What the three fields are for -/

/-- The last path received, when it was received, and the clock readings of
the ticks since, oldest first. -/
structure Reception (R : Type*) where
  path : NavPath R
  rx : ℚ
  ticks : List ℚ

namespace Reception

/-- Some tick since the reception came after the path had expired. -/
def timedOut (c : Reception R) (maxAgeSec : ℚ) : Prop := ∃ n ∈ c.ticks, maxAgeSec < n - c.rx

instance (c : Reception R) (maxAgeSec : ℚ) : Decidable (c.timedOut maxAgeSec) :=
  inferInstanceAs (Decidable (∃ n ∈ c.ticks, _))

/-- What a tick at `now` owes its caller: nothing after a time-out, the stop
path at the first tick past the age limit, the path itself at the first tick
if that one is in time, nothing at later ticks in time. -/
def answer (c : Reception R) (frameId : String) (maxAgeSec now : ℚ) : Option (NavPath R) × Bool :=
  if c.timedOut maxAgeSec then (none, false)
  else if maxAgeSec < now - c.rx then (some (NavPath.empty frameId), true)
  else if c.ticks = [] then (some c.path, false)
  else (none, false)

/-- A tick at `now` happens after the reception. -/
def tick (c : Reception R) (now : ℚ) : Reception R := { c with ticks := c.ticks ++ [now] }

theorem timedOut_tick (c : Reception R) (maxAgeSec now : ℚ) :
    (c.tick now).timedOut maxAgeSec ↔ c.timedOut maxAgeSec ∨ maxAgeSec < now - c.rx := by
  simp [timedOut, tick, or_and_right, exists_or]

theorem tick_ticks_ne_nil (c : Reception R) (now : ℚ) : (c.tick now).ticks ≠ [] := by
  simp [tick]

end Reception

/-- The mailbox as its users see it: the last reception, if there was one. -/
def mailbox : Machine (Option (Reception R)) (Event R) where
  Init a := a = none
  Guard _ _ := True
  next a
    | .receive path _ now => some ⟨path, now, []⟩
    | .tick now => a.map fun c => c.tick now

/-- What a tick owes its caller, before and after the first reception. -/
def owed (a : Option (Reception R)) (frameId : String) (maxAgeSec now : ℚ) :
    Option (NavPath R) × Bool :=
  match a with
  | none => (none, false)
  | some c => c.answer frameId maxAgeSec now

/-- The fields of the bridge encode the reception `a`. -/
structure Encodes (frameId : String) (maxAgeSec : ℚ) (b : ActionPathBridge R)
    (a : Option (Reception R)) : Prop where
  frame : b.frameId = frameId
  age : b.maxAgeSec = maxAgeSec
  lastRx : b.lastRx = a.map Reception.rx
  stopped : b.stopped = true ↔ ∀ c ∈ a, c.timedOut maxAgeSec
  pending : b.pending = a.bind fun c => if c.ticks = [] then some c.path else none

section Encodes

variable {frameId : String} {maxAgeSec : ℚ} {b : ActionPathBridge R}

/-- A receive starts a new reception, whatever the fields were. -/
theorem Encodes.receive {a : Option (Reception R)} (h : Encodes frameId maxAgeSec b a)
    (path : NavPath R) (goalId : String) (now : ℚ) :
    Encodes frameId maxAgeSec (b.receive path goalId now).1 (some ⟨path, now, []⟩) where
  frame := h.frame
  age := h.age
  lastRx := rfl
  stopped := by simp [ActionPathBridge.receive, Reception.timedOut]
  pending := rfl

/-- Before the first receive a tick finds nothing to do. -/
theorem Encodes.tick_none (h : Encodes frameId maxAgeSec b none) (now : ℚ) :
    b.tick now = (b, (none, false)) := by
  have hrx : b.lastRx = none := h.lastRx
  have hp : b.pending = none := h.pending
  simp [ActionPathBridge.tick, hrx, hp]

/-- **One tick of the code.**  It answers what the reception owes, and its
fields encode the reception with the tick added. -/
theorem Encodes.tick {c : Reception R} (h : Encodes frameId maxAgeSec b (some c)) (now : ℚ) :
    (b.tick now).2 = c.answer frameId maxAgeSec now ∧
      Encodes frameId maxAgeSec (b.tick now).1 (some (c.tick now)) := by
  have hrx : b.lastRx = some c.rx := h.lastRx
  have hstop : b.stopped = true ↔ c.timedOut maxAgeSec := by simpa using h.stopped
  have hpend : b.pending = if c.ticks = [] then some c.path else none := h.pending
  have hexp : b.expired now = decide (maxAgeSec < now - c.rx) := by
    simp [ActionPathBridge.expired, hrx, h.age]
  -- a reception that timed out has been ticked, so its path is no longer queued
  have hticked : c.timedOut maxAgeSec → c.ticks ≠ [] := by
    rintro ⟨n, hn, -⟩ hnil
    simp [hnil] at hn
  have hnone : ∀ d : Reception R, d.ticks ≠ [] →
      (some d).bind (fun c => if c.ticks = [] then some c.path else none) = none := by
    intro d hd
    simp [hd]
  by_cases hto : c.timedOut maxAgeSec
  -- timed out before: the branch is closed and nothing is queued
  · have hp : b.pending = none := by rw [hpend, if_neg (hticked hto)]
    have ht : b.tick now = (b, (none, false)) := by
      simp [ActionPathBridge.tick, hstop.mpr hto, hp]
    rw [ht]
    refine ⟨by simp [Reception.answer, hto], h.frame, h.age, hrx, ?_, ?_⟩
    · simpa [Reception.timedOut_tick, hto] using hstop.mpr hto
    · rw [hnone _ (c.tick_ticks_ne_nil now), hp]
  · have hns : b.stopped = false := by simpa using fun hs => hto (hstop.mp hs)
    -- past the limit for the first time, or in time
    by_cases hlate : maxAgeSec < now - c.rx
    · have ht : b.tick now = ({ b with stopped := true, pending := none },
          (some (NavPath.empty b.frameId), true)) := by
        simp [ActionPathBridge.tick, hrx, hns, hexp, hlate]
      rw [ht]
      refine ⟨by simp [Reception.answer, hto, hlate, h.frame], h.frame, h.age, hrx, ?_, ?_⟩
      · simp [Reception.timedOut_tick, hlate]
      · exact (hnone _ (c.tick_ticks_ne_nil now)).symm
    · by_cases hfirst : c.ticks = []
      · have ht : b.tick now = ({ b with pending := none }, (some c.path, false)) := by
          simp [ActionPathBridge.tick, hexp, hlate, hpend, hfirst]
        rw [ht]
        refine ⟨by simp [Reception.answer, hto, hlate, hfirst], h.frame, h.age, hrx, ?_, ?_⟩
        · simp [Reception.timedOut_tick, hto, hlate, hns]
        · exact (hnone _ (c.tick_ticks_ne_nil now)).symm
      · have hp : b.pending = none := by rw [hpend, if_neg hfirst]
        have ht : b.tick now = (b, (none, false)) := by
          simp [ActionPathBridge.tick, hexp, hlate, hp]
        rw [ht]
        refine ⟨by simp [Reception.answer, hto, hlate, hfirst], h.frame, h.age, hrx, ?_, ?_⟩
        · simp [Reception.timedOut_tick, hto, hlate, hns]
        · rw [hnone _ (c.tick_ticks_ne_nil now), hp]

end Encodes

/-- **The bridge refines the mailbox**: after every run its fields encode the
last reception. -/
theorem bridge_refines (frameId : String) (maxAgeSec : ℚ) :
    (machine frameId maxAgeSec : Machine (ActionPathBridge R) _).Refines mailbox id
      (Encodes frameId maxAgeSec) where
  init := by
    rintro b rfl
    exact ⟨none, rfl, rfl, rfl, rfl, by simp [new], rfl⟩
  step := by
    intro b a e h _
    refine ⟨trivial, ?_⟩
    cases e with
    | receive path goalId now => exact h.receive path goalId now
    | tick now =>
        cases a with
        | none =>
            show Encodes frameId maxAgeSec (b.tick now).1 none
            rw [h.tick_none]
            exact h
        | some c => exact (h.tick now).2

/-- The code's tick answers what the mailbox owes. -/
theorem Encodes.tick_answer {frameId : String} {maxAgeSec : ℚ} {b : ActionPathBridge R}
    {a : Option (Reception R)} (h : Encodes frameId maxAgeSec b a) (now : ℚ) :
    (b.tick now).2 = owed a frameId maxAgeSec now := by
  cases a with
  | none => rw [h.tick_none]; rfl
  | some c => exact (h.tick now).1

/-! ## Runs of the mailbox -/

/-- Ticks alone only extend the reception. -/
theorem mailbox_exec_ticks (c : Reception R) (ns : List ℚ) :
    mailbox.exec (some c) (ns.map Event.tick) = some { c with ticks := c.ticks ++ ns } := by
  induction ns generalizing c with
  | nil => simp
  | cons n ns ih =>
      rw [List.map_cons, Machine.exec_cons]
      show mailbox.exec (some (c.tick n)) (ns.map Event.tick) = _
      rw [ih]
      simp [Reception.tick]

/-- A receive followed by ticks leaves that reception, whatever came before. -/
theorem mailbox_exec_receive (a : Option (Reception R)) (pre : List (Event R)) (p : NavPath R)
    (goalId : String) (r : ℚ) (ns : List ℚ) :
    mailbox.exec a (pre ++ .receive p goalId r :: ns.map Event.tick) = some ⟨p, r, ns⟩ := by
  rw [Machine.exec_append, Machine.exec_cons]
  exact mailbox_exec_ticks ⟨p, r, []⟩ ns

/-- The last reception of a run is its last receive, and only ticks followed. -/
theorem mailbox_run_some {es : List (Event R)} {a : Option (Reception R)}
    (h : mailbox.Run es a) {c : Reception R} (hc : a = some c) :
    ∃ pre goalId, es = pre ++ .receive c.path goalId c.rx :: c.ticks.map Event.tick := by
  induction h generalizing c with
  | init ha => cases ha.symm.trans hc
  | @snoc es a e _ _ ih =>
      cases e with
      | receive path goalId now =>
          cases hc
          exact ⟨es, goalId, rfl⟩
      | tick now =>
          cases a with
          | none => cases hc
          | some d =>
              cases hc
              obtain ⟨pre, goalId, rfl⟩ := ih rfl
              exact ⟨pre, goalId, by simp [Reception.tick]⟩

/-- The bridge after a run encodes the last reception of that run. -/
theorem exists_encodes {frameId : String} {maxAgeSec : ℚ} {es : List (Event R)}
    {b : ActionPathBridge R} (h : (machine frameId maxAgeSec).Run es b) :
    ∃ a, mailbox.Run es a ∧ Encodes frameId maxAgeSec b a := by
  obtain ⟨a, ha, he⟩ := (bridge_refines frameId maxAgeSec).run h
  rw [List.map_id] at ha
  exact ⟨a, ha, he⟩

/-- After a receive and then only ticks, the bridge encodes that reception. -/
theorem encodes_of_receive {frameId : String} {maxAgeSec : ℚ} {pre : List (Event R)}
    {p : NavPath R} {goalId : String} {r : ℚ} {ns : List ℚ} {b : ActionPathBridge R}
    (h : (machine frameId maxAgeSec).Run (pre ++ .receive p goalId r :: ns.map .tick) b) :
    Encodes frameId maxAgeSec b (some ⟨p, r, ns⟩) := by
  obtain ⟨a, ha, he⟩ := exists_encodes h
  obtain ⟨a₀, -, rfl⟩ := ha.exists_exec
  rwa [mailbox_exec_receive] at he

/-! ## Time-outs along a run -/

theorem answers_append (frameId : String) (maxAgeSec : ℚ) (b : ActionPathBridge R)
    (es fs : List (Event R)) :
    b.answers (es ++ fs) =
      b.answers es ++ ((machine frameId maxAgeSec).exec b es).answers fs := by
  induction es generalizing b with
  | nil => rfl
  | cons e es ih =>
      cases e with
      | receive path goalId now => exact ih (b.receive path goalId now).1
      | tick now => exact congrArg (List.cons _) (ih (b.tick now).1)

/-- A tick stops the bridge exactly by timing out. -/
theorem tick_stopped (b : ActionPathBridge R) (now : ℚ) :
    (b.tick now).1.stopped = (b.stopped || (b.tick now).2.2) := by
  unfold tick
  split
  · simp
  · split <;> simp

/-- `following` says that a receive happened and no tick has timed out since. -/
theorem following_iff {frameId : String} {maxAgeSec : ℚ} {es : List (Event R)}
    {b : ActionPathBridge R} (h : (machine frameId maxAgeSec).Run es b) :
    b.following = true ↔
      ∃ pre p goalId r fs, es = pre ++ .receive p goalId r :: fs ∧
        ∀ ans ∈ ((machine frameId maxAgeSec).exec (new frameId maxAgeSec)
          (pre ++ [.receive p goalId r])).answers fs, ans.2 = false := by
  rw [following, Bool.not_eq_true']
  induction h with
  | init hb =>
      subst hb
      simp [new]
  | @snoc es b e hr _ ih =>
      obtain ⟨b₀, rfl, hb⟩ := hr.exists_exec
      cases e with
      | receive path goalId now =>
          refine ⟨fun _ => ⟨es, path, goalId, now, [], rfl, by simp [answers]⟩, fun _ => rfl⟩
      | tick now =>
          show (b.tick now).1.stopped = false ↔ _
          rw [tick_stopped, Bool.or_eq_false_iff, ih]
          constructor
          · rintro ⟨⟨pre, p, goalId, r, fs, rfl, hfs⟩, hnow⟩
            refine ⟨pre, p, goalId, r, fs ++ [.tick now], by simp, ?_⟩
            intro ans hans
            rw [answers_append frameId maxAgeSec, ← Machine.exec_append, List.append_assoc,
              List.singleton_append, ← hb, List.mem_append] at hans
            rcases hans with hans | hans
            · exact hfs ans hans
            · rw [List.mem_singleton.mp hans]
              exact hnow
          · rintro ⟨pre, p, goalId, r, fs, heq, hfs⟩
            -- the last event is the tick, so it lies behind the receive
            rcases List.eq_nil_or_concat fs with rfl | ⟨fs', f, rfl⟩
            · obtain ⟨-, hlast⟩ := List.append_inj' heq rfl
              cases List.singleton_inj.mp hlast
            · rw [List.concat_eq_append, ← List.cons_append, ← List.append_assoc] at heq
              obtain ⟨rfl, hlast⟩ := List.append_inj' heq rfl
              cases List.singleton_inj.mp hlast
              rw [List.concat_eq_append, answers_append frameId maxAgeSec,
                ← Machine.exec_append, List.append_assoc, List.singleton_append, ← hb] at hfs
              refine ⟨⟨pre, p, goalId, r, fs', rfl, fun ans hans => hfs ans ?_⟩, hfs _ ?_⟩
              · exact List.mem_append_left _ hans
              · exact List.mem_append_right _ (List.mem_singleton_self _)

/-! ## The watchdog contract -/

/-- **The watchdog contract**, for every interleaving and any clock readings.
A tick that hands a path out directly follows the receive of that path, and in
time: so it is the newest path, and no second tick hands it out.  Once the last
receive is too old, the first such tick answers one empty stop path, whether
the path was still queued or not, and the ticks after it answer nothing.  And
`following` says that a receive happened since the last time-out. -/
theorem watchdog_contract {frameId : String} {maxAgeSec : ℚ} {es : List (Event R)}
    {b : ActionPathBridge R} (h : (machine frameId maxAgeSec).Run es b) :
    (∀ now p, (b.tick now).2 = (some p, false) →
      ∃ pre goalId r, es = pre ++ [.receive p goalId r] ∧ now - r ≤ maxAgeSec) ∧
    (∀ pre p goalId r (ns : List ℚ), es = pre ++ .receive p goalId r :: ns.map .tick →
      ∀ now, maxAgeSec < now - r → (∀ n ∈ ns, n - r ≤ maxAgeSec) →
        (b.tick now).2 = (some (NavPath.empty frameId), true)) ∧
    (∀ pre p goalId r (ns : List ℚ), es = pre ++ .receive p goalId r :: ns.map .tick →
      ∀ now, (∃ n ∈ ns, maxAgeSec < n - r) → (b.tick now).2 = (none, false)) ∧
    (b.following = true ↔
      ∃ pre p goalId r fs, es = pre ++ .receive p goalId r :: fs ∧
        ∀ ans ∈ ((machine frameId maxAgeSec).exec (new frameId maxAgeSec)
          (pre ++ [.receive p goalId r])).answers fs, ans.2 = false) := by
  refine ⟨?_, ?_, ?_, following_iff h⟩
  · intro now p hp
    obtain ⟨a, ha, he⟩ := exists_encodes h
    rw [he.tick_answer] at hp
    cases a with
    | none => cases hp
    | some c =>
        obtain ⟨pre, goalId, rfl⟩ := mailbox_run_some ha rfl
        -- a path is answered in the first tick behind its receive, and only in time
        simp only [owed, Reception.answer] at hp
        split at hp
        · cases hp
        · split at hp
          · cases hp
          · rename_i hlate
            split at hp
            · rename_i hfirst
              cases hp
              exact ⟨pre, goalId, c.rx, by simp [hfirst], not_lt.mp hlate⟩
            · cases hp
  · rintro pre p goalId r ns rfl now hlate hns
    rw [(encodes_of_receive h).tick_answer]
    have hto : ¬ Reception.timedOut ⟨p, r, ns⟩ maxAgeSec := by
      rintro ⟨n, hn, hlt⟩
      exact absurd hlt (not_lt.mpr (hns n hn))
    simp [owed, Reception.answer, hto, hlate]
  · rintro pre p goalId r ns rfl now hto
    rw [(encodes_of_receive h).tick_answer]
    have hto' : Reception.timedOut ⟨p, r, ns⟩ maxAgeSec := hto
    simp [owed, Reception.answer, hto']

/-- A chunk received at `0` and never ticked in time: the late tick stops. -/
theorem watchdog_contract_stale_pending :
    ((((new "base_link" 1 : ActionPathBridge ℕ).receive ⟨"base_link", [⟨1, 0, 1, 0⟩]⟩ "g" 0).1).tick
      2).2 = (some (NavPath.empty "base_link"), true) := by
  have hrun : (machine "base_link" 1 : Machine (ActionPathBridge ℕ) _).Run
      [.receive ⟨"base_link", [⟨1, 0, 1, 0⟩]⟩ "g" 0] _ :=
    Machine.run_of_enabled rfl ⟨trivial, trivial⟩
  exact (watchdog_contract hrun).2.1 [] _ "g" 0 [] rfl 2 (by norm_num) (by simp)

end ActionPathBridge
