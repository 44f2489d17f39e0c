/-
# The motor-power gate of the NaVIDA executor

A non-zero command leaves the node only behind an acknowledged enable, an enable
only behind an acknowledged disable and a standstill confirmed since, and a
stopped cycle moves nothing until it is resumed.

`Gated` says so of one entry of the history and of the entries before it, in
terms of `Since`; `Gate` is the invariant, with what each `power_state` knows
about the history (`PowerKnown`).  The proof is one case for each small step, and
`power_gating` carries it over every run.
-/
import Rvln.NavidaSteps

namespace NavidaStepBridge

open World History

variable {K Image Jpeg : Type*}

/-! ## What the history says -/

/-- The entry is no motor-power request. -/
def NotCall (e : Entry K Image Jpeg) : Prop := ∀ enable, e.act ≠ .callPower enable

/-- The act neither is a motor-power request nor stops or resumes the cycle. -/
def Plain : Act K Jpeg → Prop
  | .callPower _ => False
  | .halted => False
  | .resumed => False
  | _ => True

theorem notCall_of_plain {e : Entry K Image Jpeg} (h : Plain e.act) : NotCall e := by
  intro enable he
  rw [he] at h
  exact h

/-- The most recent motor-power request is to enable, or to disable. -/
def LastCall (enable : Bool) : List (Entry K Image Jpeg) → Prop :=
  Since NotCall fun e _ => e.act = .callPower enable

/-- The most recent motor-power request, of the given kind, was acknowledged. -/
def Acked (enable : Bool) : List (Entry K Image Jpeg) → Prop :=
  Since NotCall fun e older => e.act = .powerAcked ∧ LastCall enable older

/-- The most recent motor-power request, a disable, was acknowledged, and since
then odometry has confirmed a standstill. -/
def StoodStill : List (Entry K Image Jpeg) → Prop :=
  Since NotCall fun e older => e.act = .standstill ∧ Acked false older

/-- The cycle was stopped, and the end of the stop has not been requested since. -/
def Halted : List (Entry K Image Jpeg) → Prop :=
  Since (fun e => e.act ≠ .resumed) fun e _ => e.act = .halted

/-- What the gate asks of an entry and the entries before it. -/
def Gated [Zero K] (e : Entry K Image Jpeg) (older : List (Entry K Image Jpeg)) : Prop :=
  match e.act with
  | .publish linear angular _ =>
      linear ≠ 0 ∨ angular ≠ 0 →
        e.node.powerState = .ready ∧ Acked true older ∧ e.node.cycle.stopped = false ∧
          e.node.cycle.settling = false ∧ e.node.cycle.action.isSome = true ∧ ¬ Halted older
  | .callPower true => StoodStill older ∧ e.node.cycle.settling = false
  | .replyStarted .. => ¬ Halted older
  | .queueStarted _ => ¬ Halted older
  | .event e => IsStart (.event e : Act K Jpeg) → ¬ Halted older
  | _ => True

/-- What a `power_state` knows about the history. -/
def PowerKnown : PowerState → Bool → List (Entry K Image Jpeg) → Prop
  | .stop, _, _ => True
  | .disabling, _, trace => LastCall false trace
  | .off, settling, trace => Acked false trace ∧ (settling = false → StoodStill trace)
  | .enabling, _, trace => LastCall true trace
  | .verify, _, trace => Acked true trace
  | .ready, _, trace => Acked true trace

/-- The invariant of the gate. -/
structure Gate [Zero K] (w : World K Image Jpeg) : Prop where
  gated : Each Gated w.trace
  halted : w.node.cycle.stopped = true ↔ Halted w.trace
  power : PowerKnown w.node.powerState w.node.cycle.settling w.trace

/-! ## Keeping the gate -/

/-- An entry that is no request takes no knowledge away. -/
theorem PowerKnown.cons {s : PowerState} {settling : Bool} {trace : List (Entry K Image Jpeg)}
    {e : Entry K Image Jpeg} (h : PowerKnown s settling trace) (he : NotCall e) :
    PowerKnown s settling (e :: trace) := by
  cases s with
  | stop => trivial
  | disabling => exact Since.cons h he
  | off => exact ⟨h.1.cons he, fun hsettle => (h.2 hsettle).cons he⟩
  | enabling => exact Since.cons h he
  | verify => exact Since.cons h he
  | ready => exact Since.cons h he

/-- A standstill tells a disabled node that it may enable. -/
theorem PowerKnown.standstill {s : PowerState} {b : Bool} {trace : List (Entry K Image Jpeg)}
    {node : NavidaStepBridge K Image Jpeg} (h : PowerKnown s b trace) (b' : Bool) :
    PowerKnown s b' (⟨.standstill, node⟩ :: trace) := by
  have hcall : NotCall (⟨.standstill, node⟩ : Entry K Image Jpeg) := nofun
  cases s with
  | off => exact ⟨h.1.cons hcall, fun _ => Or.inl ⟨rfl, h.1⟩⟩
  | stop => trivial
  | disabling => exact Since.cons h hcall
  | enabling => exact Since.cons h hcall
  | verify => exact Since.cons h hcall
  | ready => exact Since.cons h hcall

/-- A cycle that settles takes no knowledge away. -/
theorem PowerKnown.settling {s : PowerState} {b b' : Bool} {trace : List (Entry K Image Jpeg)}
    (h : PowerKnown s b trace) (hb : b' = false → b = false) : PowerKnown s b' trace := by
  cases s with
  | off => exact ⟨h.1, fun hsettle => h.2 (hb hsettle)⟩
  | stop => exact h
  | disabling => exact h
  | enabling => exact h
  | verify => exact h
  | ready => exact h

/-- Only two acts change whether the cycle is halted. -/
theorem halted_cons {e : Entry K Image Jpeg} {trace : List (Entry K Image Jpeg)}
    (hhalted : e.act ≠ .halted) (hresumed : e.act ≠ .resumed) :
    Halted trace ↔ Halted (e :: trace) := by
  unfold Halted
  rw [since_cons, or_iff_right hhalted, and_iff_right hresumed]

section

variable [Zero K] {w : World K Image Jpeg}

/-- A plain act that meets the gate may happen. -/
theorem Gate.record (h : Gate w) (act : Act K Jpeg) (hplain : Plain act)
    (hgated : Gated ⟨act, w.node⟩ w.trace) : Gate (w.record act) where
  gated := ⟨hgated, h.gated⟩
  halted := by
    have hhalted : act ≠ .halted := by
      rintro rfl
      exact hplain
    have hresumed : act ≠ .resumed := by
      rintro rfl
      exact hplain
    show w.node.cycle.stopped = true ↔ Halted (⟨act, w.node⟩ :: w.trace)
    exact h.halted.trans (halted_cons hhalted hresumed)
  power := h.power.cons (notCall_of_plain hplain)

/-- A call of the power service or its answer, after which the power state is known. -/
theorem Gate.powerAct (h : Gate w) {n n' : NavidaStepBridge K Image Jpeg} {act : Act K Jpeg}
    (hcycle : n.cycle = w.node.cycle) (hhalted : act ≠ .halted) (hresumed : act ≠ .resumed)
    (hgated : Gated ⟨act, n'⟩ w.trace)
    (hpower : PowerKnown n.powerState n.cycle.settling (⟨act, n'⟩ :: w.trace)) :
    Gate { w with node := n, trace := ⟨act, n'⟩ :: w.trace } where
  gated := ⟨hgated, h.gated⟩
  halted := by
    show n.cycle.stopped = true ↔ Halted (⟨act, n'⟩ :: w.trace)
    rw [hcycle]
    exact h.halted.trans (halted_cons hhalted hresumed)
  power := hpower

/-- The cycle may be replaced by one that stays stopped and goes on settling. -/
theorem Gate.setCycle (h : Gate w) {c : StepCycle K}
    (hstop : w.node.cycle.stopped = true → c.stopped = true)
    (hsettle : c.settling = false → w.node.cycle.settling = false) : Gate (w.setCycle c) := by
  have hpower : PowerKnown w.node.powerState c.settling w.trace := h.power.settling hsettle
  have hgated : Each Gated (w.setCycle c).trace := by
    rw [setCycle_trace]
    split
    · exact ⟨trivial, h.gated⟩
    · exact h.gated
  refine ⟨hgated, ?_, ?_⟩
  · rw [setCycle_node, setCycle_trace]
    show c.stopped = true ↔ _
    split
    · rename_i hrises
      have hstopped : c.stopped = true := (Bool.and_eq_true_iff.mp hrises).1
      exact iff_of_true hstopped (Or.inl rfl)
    · rename_i hrises
      rw [← h.halted]
      refine ⟨fun hc => ?_, hstop⟩
      by_contra hw
      exact hrises (by rw [hc, Bool.eq_false_iff.mpr hw]; rfl)
  · rw [setCycle_node, setCycle_trace]
    show PowerKnown w.node.powerState c.settling _
    split
    · exact hpower.cons nofun
    · exact hpower

end

section

variable [Field K] [LinearOrder K] [Trig K] {w : World K Image Jpeg}

/-- `observe` may end the settling: that is the standstill. -/
theorem Gate.observe (h : Gate w) (pose : Pose K) (stampNs : ℤ) (now : K) (nowNs : ℤ) :
    Gate (w.observe pose stampNs now nowNs) := by
  let c := w.node.cycle.observe pose stampNs now nowNs
  let node := { w.node with cycle := c }
  let trace := if w.node.cycle.odomNs < stampNs then ⟨.sample pose stampNs, node⟩ :: w.trace
    else w.trace
  have hgated : Each Gated trace := by
    show Each Gated (ite _ _ _)
    split
    · exact ⟨trivial, h.gated⟩
    · exact h.gated
  have hhalted : w.node.cycle.stopped = true ↔ Halted trace := by
    show _ ↔ Halted (ite _ _ _)
    rw [h.halted]
    split
    · exact halted_cons nofun nofun
    · exact Iff.rfl
  have hpower : PowerKnown w.node.powerState w.node.cycle.settling trace := by
    show PowerKnown _ _ (ite _ _ _)
    split
    · exact h.power.cons nofun
    · exact h.power
  have hstop : c.stopped = w.node.cycle.stopped := StepCycle.observe_stopped _ _ _ _ _
  have htrace : (w.observe pose stampNs now nowNs).trace =
      if w.node.cycle.settling && !c.settling then ⟨.standstill, node⟩ :: trace else trace :=
    observe_trace w pose stampNs now nowNs
  have hnode := observe_node w pose stampNs now nowNs
  refine ⟨?_, ?_, ?_⟩
  -- a standstill is recorded only where the settling ends
  · rw [htrace]
    split
    · exact ⟨trivial, hgated⟩
    · exact hgated
  · rw [hnode, htrace]
    show c.stopped = true ↔ _
    rw [hstop, hhalted]
    split
    · exact halted_cons nofun nofun
    · exact Iff.rfl
  · rw [hnode, htrace]
    show PowerKnown w.node.powerState c.settling _
    split
    -- the settling ended, and the standstill stands in the history
    · exact hpower.standstill c.settling
    · rename_i hstill
      refine hpower.settling fun hc => ?_
      by_contra hw
      exact hstill (by rw [hc, Bool.eq_true_of_not_eq_false hw]; rfl)

omit [LinearOrder K] [Trig K] in
/-- A stop that ends is no longer halted. -/
theorem Gate.resume (h : Gate w) (nowNs : ℤ) (now : K) :
    Gate ((w.setCycle (w.node.cycle.cancel nowNs now false)).record .resumed) := by
  let c := w.node.cycle.cancel nowNs now false
  have hrun : c.stopped = false := rfl
  have htrace : (w.setCycle c).trace = w.trace := by
    rw [setCycle_trace, hrun]
    rfl
  have hcall : NotCall (⟨.resumed, (w.setCycle c).node⟩ : Entry K Image Jpeg) :=
    nofun
  refine ⟨⟨trivial, ?_⟩, ?_, ?_⟩
  · rw [htrace]
    exact h.gated
  · rw [record_node, setCycle_node]
    refine iff_of_false (fun hstop => Bool.false_ne_true hstop) ?_
    rintro (he | ⟨hne, -⟩)
    · cases he
    · exact hne rfl
  · have hpower : PowerKnown w.node.powerState c.settling w.trace :=
      h.power.settling fun hsettle => by cases hsettle
    show PowerKnown (w.setCycle c).node.powerState (w.setCycle c).node.cycle.settling
      (⟨.resumed, _⟩ :: (w.setCycle c).trace)
    rw [htrace, setCycle_node]
    rw [setCycle_node] at hcall
    exact hpower.cons hcall

omit [LinearOrder K] [Trig K] in
/-- An acknowledged disable starts the settling anew. -/
theorem Gate.disabled (h : Gate w) (hdisabling : w.node.powerState = .disabling) (nowNs : ℤ)
    (now : K) : Gate (((w.record .powerAcked).setPower .off).setCycle
      (w.node.cycle.confirmMotorDisabled nowNs now)) := by
  let c := w.node.cycle.confirmMotorDisabled nowNs now
  have hlast : LastCall false w.trace := by
    have hpower := h.power
    rw [hdisabling] at hpower
    exact hpower
  have htrace : (((w.record .powerAcked).setPower .off).setCycle c).trace =
      ⟨.powerAcked, w.node⟩ :: w.trace := by
    have hrises : (c.stopped && !w.node.cycle.stopped) = false := by
      show (w.node.cycle.stopped && !w.node.cycle.stopped) = false
      exact Bool.and_not_self _
    rw [setCycle_trace]
    exact if_neg fun hc => Bool.false_ne_true (hrises.symm.trans hc)
  refine ⟨?_, ?_, ?_⟩
  · rw [htrace]
    exact ⟨trivial, h.gated⟩
  · rw [htrace, setCycle_node]
    exact h.halted.trans (halted_cons nofun nofun)
  · rw [htrace, setCycle_node]
    exact ⟨Or.inl ⟨rfl, hlast⟩, fun hsettle => by cases hsettle⟩

omit [LinearOrder K] in
theorem Gate.verified (h : Gate w) (hverify : w.node.powerState = .verify) (nowNs : ℤ) :
    Gate (w.verified nowNs) := by
  have hacked : Acked true w.trace := by
    have hpower := h.power
    rw [hverify] at hpower
    exact hpower
  have hpower : Gate (w.setPower .ready) := ⟨h.gated, h.halted, hacked⟩
  have hready := hpower.record (.ready nowNs) trivial trivial
  unfold World.verified
  dsimp only
  split
  · exact (hready.setCycle (c := { w.node.cycle with floorNs := nowNs }) id id).record _ trivial
      fun he => absurd he id
  · exact hready

/-- **Every small step keeps the gate.** -/
theorem Gate.smallStep {nowNs : ℤ} {w w' : World K Image Jpeg} (h : Gate w)
    (hstep : SmallStep nowNs w w') : Gate w' := by
  have hnotHalted : w.node.cycle.stopped = false → ¬ Halted w.trace := by
    intro hstop hhalted
    rw [h.halted.mpr hhalted] at hstop
    cases hstop
  cases hstep with
  | aside n hcycle hpower hfuture =>
      refine ⟨h.gated, ?_, ?_⟩
      · show n.cycle.stopped = true ↔ _
        rw [hcycle]
        exact h.halted
      · show PowerKnown n.powerState n.cycle.settling w.trace
        rw [hcycle, hpower]
        exact h.power
  | note act hquiet =>
      have hplain : Plain act := by
        cases act <;> first | exact hquiet | trivial
      refine h.record act hplain ?_
      cases act with
      | publish linear angular nowNs =>
          rintro (hne | hne)
          · exact absurd hquiet.1 hne
          · exact absurd hquiet.2 hne
      | event e => exact fun he => absurd he hquiet
      | powerAcked => trivial
      | _ => exact hquiet.elim
  | turn c hturns hstop =>
      refine h.setCycle hstop fun hsettle => ?_
      -- the settling begins, or it stays as it was
      rcases hturns.stop with hbegun | hkeeps
      · rw [hbegun.settling] at hsettle
        cases hsettle
      · exact hkeeps.settling.symm.trans hsettle
  | resume now => exact h.resume nowNs now
  | move linear angular hready hstop hsettle haction =>
      have hacked : Acked true w.trace := by
        have hpower := h.power
        rw [hready] at hpower
        exact hpower
      exact h.record _ trivial
        fun _ => ⟨hready, hacked, hstop, hsettle, haction, hnotHalted hstop⟩
  | start act hstart hstop =>
      have hrun := hnotHalted hstop
      cases act with
      | replyStarted token reply => exact h.record _ trivial hrun
      | queueStarted action => exact h.record _ trivial hrun
      | event e => exact h.record _ trivial fun _ => hrun
      | _ => exact hstart.elim
  | observe pose stampNs now _ => exact h.observe pose stampNs now nowNs
  | toStop => exact ⟨h.gated, h.halted, trivial⟩
  | callDisable n hoff hcycle hpower _ =>
      refine h.powerAct hcycle nofun nofun trivial ?_
      rw [hpower]
      exact Or.inl rfl
  | callEnable n hoff hsettle hcycle hpower _ =>
      -- the motors are off and nothing settles any more: the robot stood still since
      have hstill : StoodStill w.trace := by
        have hknown := h.power
        rw [hoff] at hknown
        exact hknown.2 hsettle
      refine h.powerAct hcycle nofun nofun ⟨hstill, by rw [hcycle]; exact hsettle⟩ ?_
      rw [hpower]
      exact Or.inl rfl
  | disabled now hdisabling => exact h.disabled hdisabling nowNs now
  | enabled n henabling hcycle hpower _ =>
      have hlast : LastCall true w.trace := by
        have hknown := h.power
        rw [henabling] at hknown
        exact hknown
      refine h.powerAct hcycle nofun nofun trivial ?_
      rw [hpower]
      exact Or.inl ⟨rfl, hlast⟩
  | verified hverify => exact h.verified hverify nowNs
  | submit token goal jpeg _ _ _ _ =>
      have hsubmit := h.record (.submit token goal jpeg) trivial trivial
      exact ⟨hsubmit.gated, hsubmit.halted, hsubmit.power⟩
  | take outcome _ => exact ⟨h.gated, h.halted, h.power⟩
  | inferred outcome _ =>
      have hfuture : Gate { w with node := { w.node with future := some (.done outcome) } } :=
        ⟨h.gated, h.halted, h.power⟩
      exact hfuture.record (.inferred outcome) trivial trivial

/-! ## Every run -/

/-- The gate is an invariant of the node. -/
theorem gate_invariant (maxV maxW : K) :
    (machine maxV maxW : Machine (World K Image Jpeg) _).Invariant Gate := by
  refine invariant_of_smallStep (I := fun _ w => Gate w) ?_ ?_ ?_ ?_
  · intro cycle clocks hcycle
    rw [StepCycle.new_ok hcycle]
    exact ⟨trivial, iff_of_false Bool.false_ne_true id, trivial⟩
  · exact fun _ _ _ h hstep => h.smallStep hstep
  · exact fun _ _ _ _ h => h
  · exact fun _ _ _ h => ⟨h.gated, h.halted, h.power⟩

/-- **Motor-power gating**, in every run of the node: `halted` and `resumed` in
its history tell whether the cycle is stopped, and every entry of the history
meets the gate with the entries before it. -/
theorem power_gating {maxV maxW : K} {es : List (Event K Image Jpeg)} {w : World K Image Jpeg}
    (h : (machine maxV maxW).Run es w) :
    (w.node.cycle.stopped = true ↔ Halted w.trace) ∧
      ∀ newer e older, w.trace = newer ++ e :: older → Gated e older := by
  have hgate : Gate w := (gate_invariant maxV maxW).of_run h
  exact ⟨hgate.halted, each_iff.mp hgate.gated⟩

end

/-- The history of the first move ends in the command that begins it. -/
theorem power_gating_first_move :
    ∃ w : World ℚ Unit Unit, (machine (1 / 10) (35 / 100)).Run firstMove w ∧
      w.trace.head?.map Entry.act = some (.publish (1 / 10) 0 1850000000) ∧
      (w.node.cycle.stopped = true ↔ Halted w.trace) ∧
      ∀ newer e older, w.trace = newer ++ e :: older → Gated e older := by
  have hrun : (machine (1 / 10) (35 / 100)).Run firstMove
      ((machine (1 / 10) (35 / 100)).exec switchedOn firstMove) :=
    Machine.run_of_enabled init_switchedOn (by decide +kernel)
  exact ⟨_, hrun, by decide +kernel, power_gating hrun⟩

end NavidaStepBridge
