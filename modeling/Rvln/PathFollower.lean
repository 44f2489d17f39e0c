/-
# The path follower

`path_follower_node.py`: the newest path, the forced stop, and the hold latch
that keeps the last moving command.  A tick that raises in `compute` publishes
nothing; an exception is the second component of `tick`.

`latchFree` is the follower without its latch: the newest path and the forced
stop alone decide the command.  `follower_refines` says that the latch never
shows, so what a tick publishes is the command computed for the newest path
(`tick_eq_compute`), however old that path is (`stale_stop_iff`).
-/
import Rvln.Machine
import Rvln.WaypointPD

/-- The attributes of `PathFollowerNode`. -/
structure PathFollowerNode (K : Type*) [Field K] [LinearOrder K] where
  pp : WaypointPD K
  expectedFrame : String
  holdTimeoutNs : ℤ
  cmdEps : K
  latest : List (PathPoint K)
  frameMismatch : Bool
  pathNew : Bool
  heldCmd : Option (TwistCmd (PyFloat K))
  heldAt : Option ℤ
  wasMoving : Bool
  forcedStop : Bool

namespace PathFollowerNode

open PyFloat

section

variable {K : Type*} [Field K] [LinearOrder K]

/-! ## The code -/

/-- `PathFollowerNode.__init__`. -/
def new (pp : WaypointPD K) (expectedFrame : String) (holdTimeoutSec : ℚ) (cmdEps : K) :
    PathFollowerNode K where
  pp := pp
  expectedFrame := expectedFrame
  holdTimeoutNs := truncInt (holdTimeoutSec * 10 ^ 9)
  cmdEps := cmdEps
  latest := []
  frameMismatch := false
  pathNew := false
  heldCmd := none
  heldAt := none
  wasMoving := false
  forcedStop := false

/-- The waypoints of a path. -/
def waypoints (msg : NavPath (SignedFloat K)) : List (PathPoint K) :=
  msg.poses.map fun ps => ⟨ps.x.value, ps.y.value, ps.w, ps.z⟩

/-- The path names a frame, and a different one than expected. -/
def rejects (expectedFrame : String) (msg : NavPath (SignedFloat K)) : Bool :=
  msg.frameId != "" && msg.frameId != expectedFrame

/-- `_on_path`. -/
def onPath (n : PathFollowerNode K) (msg : NavPath (SignedFloat K)) : PathFollowerNode K :=
  let n := { n with pathNew := true }
  if rejects n.expectedFrame msg then { n with frameMismatch := true, latest := [] }
  else { n with frameMismatch := false, latest := waypoints msg }

/-- `_on_forced_stop`. -/
def onForcedStop (n : PathFollowerNode K) (data : Bool) : PathFollowerNode K :=
  { n with forcedStop := data, heldCmd := none, heldAt := none }

/-- The command exceeds `cmd_epsilon` in one of its components. -/
def moving (eps : K) (cmd : TwistCmd (PyFloat K)) : Bool :=
  (fin eps).lt cmd.linear.abs || (fin eps).lt cmd.angular.abs

/-- `_log_motion_transition`, less its log line. -/
def logMotionTransition (n : PathFollowerNode K) (cmd : TwistCmd (PyFloat K)) :
    PathFollowerNode K :=
  { n with wasMoving := moving n.cmdEps cmd }

/-- The latch still holds a command that is not older than the hold window. -/
def holding (n : PathFollowerNode K) (nowNs : ℤ) : Option (TwistCmd (PyFloat K)) :=
  if 0 < n.holdTimeoutNs then
    match n.heldCmd, n.heldAt with
    | some cmd, some heldAt => if nowNs - heldAt ≤ n.holdTimeoutNs then some cmd else none
    | _, _ => none
  else none

variable [Trig K]

/-- `_decide_cmd`. -/
def decideCmd (n : PathFollowerNode K) (nowNs : ℤ) :
    PathFollowerNode K × Except PyError (TwistCmd (PyFloat K)) :=
  match n.pp.compute n.latest with
  | .error e => (n, .error e)
  | .ok cmd =>
      -- an exception of `compute` leaves the flag as it is
      let fresh := n.pathNew
      let n := { n with pathNew := false }
      if n.frameMismatch then ({ n with heldCmd := none, heldAt := none }, .ok cmd)
      else if moving n.cmdEps cmd then
        ({ n with heldCmd := some cmd, heldAt := some nowNs }, .ok cmd)
      else if fresh then ({ n with heldCmd := none, heldAt := none }, .ok cmd)
      else
        -- a standstill without a new path: the last motion is held for a while
        match n.holding nowNs with
        | some held => (n, .ok held)
        | none => ({ n with heldCmd := none, heldAt := none }, .ok cmd)

/-- `_tick`. -/
def tick (n : PathFollowerNode K) (nowNs : ℤ) :
    PathFollowerNode K × Except PyError (TwistCmd (PyFloat K)) :=
  let (n, cmd) := if n.forcedStop then (n, .ok TwistCmd.zero) else n.decideCmd nowNs
  match cmd with
  | .error e => (n, .error e)
  | .ok cmd => (n.logMotionTransition cmd, .ok cmd)

/-- What the follower receives, each with the clock reading there. -/
inductive Event (K : Type*) [Zero K]
  | path (msg : NavPath (SignedFloat K)) (nowNs : ℤ)
  | forcedStop (data : Bool) (nowNs : ℤ)
  | tick (nowNs : ℤ)

/-- The state after one event. -/
def step (n : PathFollowerNode K) : Event K → PathFollowerNode K
  | .path msg _ => n.onPath msg
  | .forcedStop data _ => n.onForcedStop data
  | .tick nowNs => (n.tick nowNs).1

/-- Any order of paths, forced-stop requests and ticks, at any times. -/
def machine (pp : WaypointPD K) (expectedFrame : String) (holdTimeoutSec : ℚ) (cmdEps : K) :
    Machine (PathFollowerNode K) (Event K) where
  Init n := n = new pp expectedFrame holdTimeoutSec cmdEps
  Guard _ _ := True
  next := step

/-! ## The follower without its latch -/

/-- What the follower has been told: the waypoints of the newest path, and
whether it is to stand still. -/
structure Told (K : Type*) [Zero K] where
  path : List (PathPoint K)
  stop : Bool

/-- The waypoints the follower takes from a path. -/
def accepted (expectedFrame : String) (msg : NavPath (SignedFloat K)) :
    List (PathPoint K) :=
  if rejects expectedFrame msg then [] else waypoints msg

/-- The command for what the follower has been told. -/
def Told.command (pp : WaypointPD K) (a : Told K) : Except PyError (TwistCmd (PyFloat K)) :=
  if a.stop then .ok TwistCmd.zero else pp.compute a.path

/-- The follower without its latch. -/
def latchFree (expectedFrame : String) : Machine (Told K) (Event K) where
  Init a := a = ⟨[], false⟩
  Guard _ _ := True
  next a
    | .path msg _ => { a with path := accepted expectedFrame msg }
    | .forcedStop data _ => { a with stop := data }
    | .tick _ => a

end

section

variable {K : Type*} [Field K]

/-- The path an event brings. -/
def Event.path? : Event K → Option (NavPath (SignedFloat K))
  | .path msg _ => some msg
  | _ => none

/-- What an event asks of the forced stop. -/
def Event.stop? : Event K → Option Bool
  | .forcedStop data _ => some data
  | _ => none

/-- The waypoints of the most recently received path: none before the first
path, and none of a path in a frame that is not the expected one. -/
def latestPath (expectedFrame : String) (es : List (Event K)) : List (PathPoint K) :=
  match (es.filterMap Event.path?).getLast? with
  | none => []
  | some msg => accepted expectedFrame msg

/-- The most recent forced-stop request asked to stop. -/
def stopForced (es : List (Event K)) : Bool := (es.filterMap Event.stop?).getLast?.getD false

/-- After a run the follower has been told the newest path and the last request. -/
theorem latchFree_run {expectedFrame : String} {es : List (Event K)} {a : Told K}
    (h : (latchFree expectedFrame).Run es a) :
    a = ⟨latestPath expectedFrame es, stopForced es⟩ := by
  induction h with
  | init ha => exact ha
  | @snoc es a e _ _ ih =>
      subst ih
      cases e with
      | path msg nowNs =>
          simp [latchFree, latestPath, stopForced, Event.path?, Event.stop?, List.filterMap_append]
      | forcedStop data nowNs =>
          simp [latchFree, latestPath, stopForced, Event.path?, Event.stop?, List.filterMap_append]
      | tick nowNs =>
          simp [latchFree, latestPath, stopForced, Event.path?, Event.stop?, List.filterMap_append]

/-- After a path with no path after it, that path is the latest. -/
theorem latestPath_append (expectedFrame : String) (pre : List (Event K))
    (p : NavPath (SignedFloat K)) (t : ℤ) {post : List (Event K)}
    (hpost : ∀ e ∈ post, e.path? = none) :
    latestPath expectedFrame (pre ++ .path p t :: post) = accepted expectedFrame p := by
  have hnil : post.filterMap Event.path? = [] := List.filterMap_eq_nil_iff.mpr hpost
  have hlast : ((pre ++ .path p t :: post).filterMap Event.path?).getLast? = some p := by
    rw [List.filterMap_append, List.filterMap_cons, hnil]
    exact List.getLast?_concat
  unfold latestPath
  rw [hlast]

end

/-! ## The latch -/

section

variable {K : Type*} [Field K] [LinearOrder K] [Trig K]

/-- The node has been told `a`, and what its latch holds while no new path is
there is the moving command computed for that path. -/
structure Latches (pp : WaypointPD K) (expectedFrame : String) (n : PathFollowerNode K)
    (a : Told K) : Prop where
  controller : n.pp = pp
  frame : n.expectedFrame = expectedFrame
  path : n.latest = a.path
  stop : n.forcedStop = a.stop
  held : n.pathNew = false → ∀ cmd ∈ n.heldCmd,
    n.pp.compute n.latest = .ok cmd ∧ moving n.cmdEps cmd = true

variable {pp : WaypointPD K} {expectedFrame : String} {n : PathFollowerNode K} {a : Told K}

/-- A path makes the latch irrelevant until the next tick. -/
theorem Latches.onPath (h : Latches pp expectedFrame n a) (msg : NavPath (SignedFloat K)) :
    Latches pp expectedFrame (n.onPath msg) { a with path := accepted expectedFrame msg } := by
  unfold PathFollowerNode.onPath accepted
  rw [← h.frame]
  dsimp only
  split
  · exact ⟨h.controller, rfl, rfl, h.stop, fun hnew => by cases hnew⟩
  · exact ⟨h.controller, rfl, rfl, h.stop, fun hnew => by cases hnew⟩

theorem Latches.onForcedStop (h : Latches pp expectedFrame n a) (data : Bool) :
    Latches pp expectedFrame (n.onForcedStop data) { a with stop := data } :=
  ⟨h.controller, h.frame, h.path, rfl, fun _ cmd hcmd => by cases hcmd⟩

/-- **One decision.**  It is the command computed for the path: the only held
command that could be taken instead moves, and so does the computed one. -/
theorem Latches.decideCmd (h : Latches pp expectedFrame n a) (nowNs : ℤ) :
    (n.decideCmd nowNs).2 = pp.compute a.path ∧
      Latches pp expectedFrame (n.decideCmd nowNs).1 a := by
  have hcompute : n.pp.compute n.latest = pp.compute a.path := by rw [h.controller, h.path]
  unfold PathFollowerNode.decideCmd
  rw [hcompute]
  cases hcmd : pp.compute a.path with
  | error e => exact ⟨rfl, h⟩
  | ok cmd =>
      dsimp only
      have hdrop : ∀ m : PathFollowerNode K, m.pp = n.pp → m.expectedFrame = n.expectedFrame →
          m.latest = n.latest → m.forcedStop = n.forcedStop → m.heldCmd = none →
          Latches pp expectedFrame m a := by
        intro m hpp hframe hpath hstop hheld
        refine ⟨hpp.trans h.controller, hframe.trans h.frame, hpath.trans h.path,
          hstop.trans h.stop, fun _ c hc => ?_⟩
        rw [hheld] at hc
        cases hc
      split
      · exact ⟨rfl, hdrop _ rfl rfl rfl rfl rfl⟩
      · split
        · rename_i hmove
          refine ⟨rfl, h.controller, h.frame, h.path, h.stop, fun _ c hc => ?_⟩
          cases hc
          exact ⟨hcompute.trans hcmd, hmove⟩
        · rename_i hstill
          split
          · exact ⟨rfl, hdrop _ rfl rfl rfl rfl rfl⟩
          · rename_i hfresh
            split
            · -- a held command moves, but the command for its path does not
              rename_i held hholding
              have hheld : held ∈ n.heldCmd := by
                unfold holding at hholding
                split at hholding
                · split at hholding
                  · rename_i hsome _
                    split at hholding
                    · cases hholding
                      exact hsome
                    · cases hholding
                  · cases hholding
                · cases hholding
              obtain ⟨hc, hmove⟩ := h.held (by simpa using hfresh) held hheld
              rw [hcompute, hcmd] at hc
              cases hc
              exact absurd hmove hstill
            · exact ⟨rfl, hdrop _ rfl rfl rfl rfl rfl⟩

/-- **One tick** answers the command for what the follower has been told. -/
theorem Latches.tick (h : Latches pp expectedFrame n a) (nowNs : ℤ) :
    (n.tick nowNs).2 = a.command pp ∧ Latches pp expectedFrame (n.tick nowNs).1 a := by
  have hlog : ∀ (m : PathFollowerNode K) (cmd : TwistCmd (PyFloat K)),
      Latches pp expectedFrame m a → Latches pp expectedFrame (m.logMotionTransition cmd) a :=
    fun _ _ hm => ⟨hm.controller, hm.frame, hm.path, hm.stop, hm.held⟩
  unfold PathFollowerNode.tick Told.command
  by_cases hstop : n.forcedStop = true
  · rw [if_pos hstop, if_pos (h.stop.symm.trans hstop)]
    exact ⟨rfl, hlog _ _ h⟩
  · rw [if_neg hstop, if_neg (fun ha => hstop (h.stop.trans ha))]
    obtain ⟨hcmd, hnext⟩ := h.decideCmd nowNs
    rw [← hcmd]
    dsimp only
    cases hdec : (n.decideCmd nowNs).2 with
    | error e => exact ⟨rfl, hnext⟩
    | ok cmd => exact ⟨rfl, hlog _ _ hnext⟩

/-- **The follower refines the follower without its latch.** -/
theorem follower_refines (pp : WaypointPD K) (expectedFrame : String) (holdTimeoutSec : ℚ)
    (cmdEps : K) :
    (machine pp expectedFrame holdTimeoutSec cmdEps).Refines (latchFree expectedFrame) id
      (Latches pp expectedFrame) where
  init := by
    rintro n rfl
    exact ⟨⟨[], false⟩, rfl, rfl, rfl, rfl, rfl, fun _ cmd hcmd => by cases hcmd⟩
  step := by
    intro n a e h _
    refine ⟨trivial, ?_⟩
    cases e with
    | path msg nowNs => exact h.onPath msg
    | forcedStop data nowNs => exact h.onForcedStop data
    | tick nowNs => exact (h.tick nowNs).2

/-- After every run a tick answers the command for the newest path and the last
request. -/
theorem tick_command {holdTimeoutSec : ℚ} {cmdEps : K} {es : List (Event K)}
    (h : (machine pp expectedFrame holdTimeoutSec cmdEps).Run es n) (nowNs : ℤ) :
    (n.tick nowNs).2 = Told.command pp ⟨latestPath expectedFrame es, stopForced es⟩ := by
  obtain ⟨a, ha, hl⟩ := (follower_refines pp expectedFrame holdTimeoutSec cmdEps).run h
  rw [List.map_id] at ha
  rw [(hl.tick nowNs).1, latchFree_run ha]

/-- **The hold latch never overrides the latest path.**  After every run, a tick
publishes zero if the last request was to stop, and otherwise what `compute`
answers for the most recently received path. -/
theorem tick_eq_compute {holdTimeoutSec : ℚ} {cmdEps : K} {es : List (Event K)}
    (h : (machine pp expectedFrame holdTimeoutSec cmdEps).Run es n) (nowNs : ℤ) :
    (n.tick nowNs).2 =
      if stopForced es then .ok TwistCmd.zero else pp.compute (latestPath expectedFrame es) := by
  rw [tick_command h nowNs]
  rfl

end

/-- The follower with its default parameters. -/
def defaultMachine (K : Type*) [Field K] [LinearOrder K] [IsStrictOrderedRing K] [Trig K] :
    Machine (PathFollowerNode K) (Event K) :=
  machine (.defaults K) "base_link" 1 (1 / 1000)

/-- One waypoint, a metre straight ahead. -/
def ahead : NavPath (SignedFloat ℝ) := ⟨"base_link", [⟨.num 1, .num 0, .num 1, .num 0⟩]⟩

/-- A stop path right after a path ahead is obeyed at the next tick. -/
theorem tick_eq_compute_stop :
    ∃ n : PathFollowerNode ℝ,
      (defaultMachine ℝ).Run
        [.path ahead 0, .tick 0, .path (NavPath.empty "base_link") 50000000] n ∧
      (n.tick 50000000).2 = .ok TwistCmd.zero := by
  have hrun : (defaultMachine ℝ).Run
      [.path ahead 0, .tick 0, .path (NavPath.empty "base_link") 50000000] _ :=
    Machine.run_of_enabled rfl ⟨trivial, trivial, trivial, trivial⟩
  exact ⟨_, hrun, tick_eq_compute hrun 50000000⟩

/-! ## Stale paths -/

/-- **The follower stops on a stale path** exactly if it is forced to, or the
path was rejected or empty, or the controller stands still at the waypoint it
selects: the age of the path plays no part. -/
theorem stale_stop_iff {pp : WaypointPD ℝ} {expectedFrame : String} {holdTimeoutSec : ℚ}
    {cmdEps : ℝ} {n : PathFollowerNode ℝ} {pre post : List (Event ℝ)} {p : NavPath (SignedFloat ℝ)}
    {t : ℤ}
    (h : (machine pp expectedFrame holdTimeoutSec cmdEps).Run (pre ++ .path p t :: post) n)
    (hpost : ∀ e ∈ post, e.path? = none) :
    (∀ nowNs : ℤ, t + holdTimeoutSec * 10 ^ 9 < nowNs →
        (n.tick nowNs).2 = .ok TwistCmd.zero) ↔
      stopForced (pre ++ .path p t :: post) = true ∨ accepted expectedFrame p = [] ∨
        ∃ wp, pp.select (accepted expectedFrame p) = .ok wp ∧ pp.StandsStill wp := by
  rw [← pp.compute_eq_zero_iff]
  have htick : ∀ nowNs, (n.tick nowNs).2 = .ok TwistCmd.zero ↔
      stopForced (pre ++ .path p t :: post) = true ∨
        pp.compute (accepted expectedFrame p) = .ok TwistCmd.zero := by
    intro nowNs
    rw [tick_command h nowNs, latestPath_append expectedFrame pre p t hpost, Told.command]
    by_cases hstop : stopForced (pre ++ .path p t :: post) = true
    · rw [if_pos hstop]
      exact iff_of_true rfl (Or.inl hstop)
    · rw [if_neg hstop, or_iff_right hstop]
  constructor
  · intro hall
    -- some tick is late enough
    obtain ⟨nowNs, hlate⟩ := exists_int_gt ((t : ℚ) + holdTimeoutSec * 10 ^ 9)
    exact (htick nowNs).mp (hall nowNs hlate)
  · intro hcond nowNs _
    exact (htick nowNs).mpr hcond

/-- The stop of a path that ends on the robot, headed straight ahead. -/
theorem stale_stop_arrived :
    ∃ n : PathFollowerNode ℝ,
      (defaultMachine ℝ).Run
        ([] ++ .path ⟨"base_link", [⟨.num 0, .num 0, .num 1, .num 0⟩]⟩ 0 :: [.tick 0]) n ∧
      ∀ nowNs : ℤ, (0 : ℤ) + (1 : ℚ) * 10 ^ 9 < nowNs → (n.tick nowNs).2 = .ok TwistCmd.zero := by
  have hrun : (defaultMachine ℝ).Run
      ([] ++ .path ⟨"base_link", [⟨.num 0, .num 0, .num 1, .num 0⟩]⟩ 0 :: [.tick 0]) _ :=
    Machine.run_of_enabled rfl ⟨trivial, trivial, trivial⟩
  refine ⟨_, hrun, (stale_stop_iff hrun (by simp [Event.path?])).mpr (Or.inr (Or.inr ⟨_, rfl, ?_⟩))⟩
  rw [WaypointPD.standsStill_iff_of_pos (by norm_num [WaypointPD.defaults])
    (by norm_num [WaypointPD.defaults])]
  norm_num [WaypointPD.NoAdvance, WaypointPD.NoTurn, WaypointPD.Straight, WaypointPD.eps]

/-- A single waypoint one metre ahead is driven to at the full advance speed. -/
theorem compute_ahead :
    (WaypointPD.defaults ℝ).compute [⟨fin 1, fin 0, .num 1, .num 0⟩] =
      .ok ⟨fin (2 / 5), fin 0⟩ := by
  have hsel : (WaypointPD.defaults ℝ).select [⟨fin 1, fin 0, .num 1, .num 0⟩] =
      .ok ⟨fin 1, fin 0, .num 1, .num 0⟩ := rfl
  have htoward : (WaypointPD.defaults ℝ).toward ⟨fin 1, fin 0, .num 1, .num 0⟩ =
      .ok (fin 3, fin 0) := by
    have hdt : (WaypointPD.defaults ℝ).dt ≠ 0 := (WaypointPD.defaults ℝ).dt_pos.ne'
    have hfar : (fin (1 : ℝ)).abs.lt (fin WaypointPD.eps) = false := by norm_num [WaypointPD.eps]
    have hlin : (fin (1 : ℝ)).div (fin (WaypointPD.defaults ℝ).dt) = .ok (fin 3) := by
      rw [div_fin hdt]
      norm_num [WaypointPD.defaults]
    have hang : (WaypointPD.defaults ℝ).turnAlong ⟨fin 1, fin 0, .num 1, .num 0⟩ = .ok (fin 0) := by
      have hatan : (Trig.atan 0 : ℝ) = 0 := Real.arctan_zero
      simp [WaypointPD.turnAlong, div_fin, hdt, Bind.bind, Except.bind, PyFloat.atan, hatan]
    unfold WaypointPD.toward
    rw [hfar, hlin, hang]
    rfl
  have hspeeds : (WaypointPD.defaults ℝ).speeds ⟨fin 1, fin 0, .num 1, .num 0⟩ = (1 / 2, 0) := by
    rw [WaypointPD.speeds, htoward]
    norm_num [clip, WaypointPD.linearClip, WaypointPD.angularClip]
  rw [WaypointPD.compute_of_select _ hsel, hspeeds, WaypointPD.limit_fin]
  norm_num [WaypointPD.defaults, Trig.copysign]

/-- **A stale path keeps driving the robot**: the last path came at `0`, the hold
window is one second, and the tick nine seconds after it ended drives at full
speed. -/
theorem stale_path_drives :
    ∃ n : PathFollowerNode ℝ,
      (defaultMachine ℝ).Run
        ([] ++ .path ahead 0 :: [.tick 0, .tick 500000000, .tick 1000000000]) n ∧
      (n.tick 10000000000).2 = .ok ⟨fin (2 / 5), fin 0⟩ ∧
      ¬ ∀ nowNs : ℤ, (0 : ℤ) + (1 : ℚ) * 10 ^ 9 < nowNs →
        (n.tick nowNs).2 = .ok TwistCmd.zero := by
  obtain ⟨n, hrun⟩ : ∃ n, (defaultMachine ℝ).Run
      ([] ++ .path ahead 0 :: [.tick 0, .tick 500000000, .tick 1000000000]) n :=
    ⟨_, Machine.run_of_enabled rfl (by exact ⟨trivial, trivial, trivial, trivial, trivial⟩)⟩
  have hcmd : ∀ nowNs : ℤ, (n.tick nowNs).2 = .ok ⟨fin (2 / 5), fin 0⟩ := by
    intro nowNs
    rw [tick_command hrun nowNs]
    exact compute_ahead
  refine ⟨n, hrun, hcmd _, fun hall => ?_⟩
  have hlate := hall 10000000000 (by norm_num)
  rw [hcmd] at hlate
  simp [TwistCmd.zero] at hlate

end PathFollowerNode
