import HexAgent.Admission.Capacity

/-!
# Recovery probation

After adverse evidence the account is in recovery, in which one request at a time probes the lanes,
and recovery is left after a number of successful probes. The run of an account is recorded as a log
of `ProbationEvent`s; `Sound` says of a log that every time recovery was left there had been enough
successes since recovery became required and since the last adverse evidence, and that every success
belongs to a request of its own, dispatched after that evidence.

The code does not guarantee this. When the last ready cancel lane is lost while another one is past
its isolation, the account is not paused; recovery becomes required, but the successes counted
earlier and a probe in flight are kept, and the next report of a ready cancel lane ends recovery at
once: `recovery_left_without_probe`. A step that loses the last ready cancel lane is `tidy` if it
pauses the account, or if there is nothing to keep. `probation_sound` is about the runs of tidy
steps.
-/

namespace HexAgent.Admission

open List Option LaneState AccountExecutionAdmission

variable {p : RecoveryProbe}

/-! ## Logs -/

/-- What recovery depends on. -/
inductive ProbationEvent
  /-- A failure, a slow response, a transport retirement, a pause, or the loss of the last ready
  cancel lane. -/
  | adverse
  /-- Recovery becomes required. -/
  | raised
  /-- A request is sent that recovery waits for. -/
  | dispatched (probe : RecoveryProbe)
  /-- The request succeeded, on the generation it was dispatched on. -/
  | succeeded (probe : RecoveryProbe)
  /-- Recovery is no longer required. -/
  | cleared
  deriving DecidableEq

namespace ProbationEvent

/-- Probation starts anew. -/
def restarts : ProbationEvent → Bool
  | adverse => true
  | raised => true
  | _ => false

def isSuccess : ProbationEvent → Bool
  | succeeded _ => true
  | _ => false

end ProbationEvent

open ProbationEvent

variable (log : List ProbationEvent)

/-- The events of the present probation, newest first. -/
def probation : List ProbationEvent := log.takeWhile (!·.restarts)

/-- The successes of the present probation. -/
def successes : ℕ := (probation log).countP isSuccess

/-- The newest event, apart from the end of recovery. -/
def newest : Option ProbationEvent := log.find? (· != .cleared)

/-- Recovery was left after enough successes, each of a request of its own sent after the last
adverse evidence. -/
structure Sound (needed : ℕ) (log : List ProbationEvent) : Prop where
  cleared : ∀ newer older, log = newer ++ .cleared :: older → needed ≤ successes older
  succeeded : ∀ newer probe older, log = newer ++ .succeeded probe :: older →
    newest older = some (.dispatched probe)

/-- The log accounts for the success counter and the probe. -/
structure Backed (needed count : ℕ) (probe : Option RecoveryProbe) (log : List ProbationEvent) :
    Prop where
  count_le : count ≤ successes log
  newest_eq : ∀ p, probe = some p → newest log = some (.dispatched p)
  sound : Sound needed log

section Log

variable {log} {needed count : ℕ} {probe : Option RecoveryProbe} {e : ProbationEvent}

lemma sound_nil : Sound needed [] :=
  ⟨fun newer older h => by simp at h, fun newer probe older h => by simp at h⟩

lemma Sound.cons (h : Sound needed log) (hcleared : e = .cleared → needed ≤ successes log)
    (hsucc : ∀ p, e = .succeeded p → newest log = some (.dispatched p)) :
    Sound needed (e :: log) := by
  constructor
  · intro newer older hlog
    cases newer with
    | nil =>
      obtain ⟨he, rfl⟩ := cons.inj hlog
      exact hcleared he
    | cons e' newer => exact h.cleared newer older (cons.inj hlog).2
  · intro newer p older hlog
    cases newer with
    | nil =>
      obtain ⟨he, rfl⟩ := cons.inj hlog
      exact hsucc p he
    | cons e' newer => exact h.succeeded newer p older (cons.inj hlog).2

lemma Backed.succeeded (h : Backed needed count (some p) log) :
    Backed needed (count + 1) none (.succeeded p :: log) := by
  refine ⟨?_, nofun, h.sound.cons nofun fun q he => ?_⟩
  · have hsucc : successes (.succeeded p :: log) = successes log + 1 :=
      countP_cons_of_pos rfl
    have hcount := h.count_le
    omega
  · cases he
    exact h.newest_eq p rfl

namespace Backed

variable (h : Backed needed count probe log)

include h

lemma restart (he : e.restarts = true) :
    Backed needed 0 none (e :: log) := by
  refine ⟨Nat.zero_le _, nofun, h.sound.cons ?_ ?_⟩
  · rintro rfl
    cases he
  · rintro p rfl
    cases he

/-- The probe is given up. -/
lemma release : Backed needed count none log :=
  ⟨h.count_le, nofun, h.sound⟩

lemma dispatched (p : RecoveryProbe) :
    Backed needed count (some p) (.dispatched p :: log) := by
  refine ⟨?_, fun q hq => ?_, h.sound.cons nofun nofun⟩
  · exact h.count_le.trans (Nat.le_of_eq rfl)
  · cases hq
    rfl

lemma cleared (hneeded : needed ≤ count) :
    Backed needed count probe (.cleared :: log) :=
  { h with sound := h.sound.cons (fun _ => hneeded.trans h.count_le) nofun }

lemma mono {count' : ℕ} (hle : count' ≤ count) :
    Backed needed count' probe log :=
  ⟨hle.trans h.count_le, h.newest_eq, h.sound⟩

end Backed

end Log

/-! ## What a step adds to the log -/

namespace AccountExecutionAdmission

variable (role : Role) (slot : ℕ) {s m : AccountExecutionAdmission} {op : AdmissionOp} {now : ℕ}
  {lane : LaneState} {o : LaneObservation}

/-- The operation brings adverse evidence. -/
def adverseOp (s : AccountExecutionAdmission) (op : AdmissionOp) : Bool :=
  match op with
  | .retireTransportGenerations _ => true
  | op => (s.accepted op).any fun report =>
      report.before.adverse report.observation || report.before.transportReset report.observation

/-- The probe of which the operation reports a fresh success. -/
def probeSuccess (s : AccountExecutionAdmission) (op : AdmissionOp) : Option RecoveryProbe :=
  s.probe.filter fun probe => (s.accepted op).any fun report =>
    RecoveryProbe.concerns probe report.role report.slot report.observation &&
      !report.observation.busy && RecoveryProbe.succeeds probe report.before report.observation &&
      !report.before.transportReset report.observation

/-- The events of an operation up to its refresh, newest first. -/
def applyEvents (s : AccountExecutionAdmission) (op : AdmissionOp) : List ProbationEvent :=
  (if s.recoveryRequired && !(s.apply op).recoveryRequired then [.cleared] else []) ++
    (if !s.recoveryRequired && (s.apply op).recoveryRequired then [.raised] else []) ++
    (s.probeSuccess op).toList.map .succeeded ++
    (if s.probe.isNone then (s.apply op).probe.toList.map .dispatched else []) ++
    (if s.adverseOp op then [.adverse] else [])

/-- The last ready cancel lane was there at the refresh before and is gone. -/
def losesCancel (s m : AccountExecutionAdmission) (now : ℕ) : Bool :=
  decide (0 < s.readyCancel s.admission.observedAtNs) && m.readyCancel now == 0

/-- The events of the refresh. -/
def refreshEvents (s m : AccountExecutionAdmission) (now : ℕ) : List ProbationEvent :=
  (if !m.recoveryRequired && (m.refresh now).recoveryRequired then [.raised] else []) ++
    (if m.paused now || s.losesCancel m now then [.adverse] else [])

/-- The events of an operation. -/
def events (s : AccountExecutionAdmission) (op : AdmissionOp) : List ProbationEvent :=
  (match s.refreshTime op with
    | none => []
    | some now => s.refreshEvents (s.apply op) now) ++ s.applyEvents op

/-- If the refresh finds the last ready cancel lane lost and does not pause the account, no success
is counted and no probe is in flight. -/
def tidy (s : AccountExecutionAdmission) (op : AdmissionOp) : Bool :=
  match s.refreshTime op with
  | none => true
  | some now => !s.losesCancel (s.apply op) now || (s.apply op).paused now ||
      ((s.apply op).recoverySuccesses == 0 && (s.apply op).probe.isNone)

/-! ## What an operation does to the gate -/

open AccountExecutionAdmission.RecoveryProbe

/-- How the recovery gate comes out of an operation, before the refresh. -/
inductive GateStep (s : AccountExecutionAdmission) (op : AdmissionOp)
    (m : AccountExecutionAdmission) : Prop
  | adverse : s.adverseOp op = true → s.probeSuccess op = none → m.recoverySuccesses = 0 →
      m.probe = none → (s.recoveryRequired = true → m.recoveryRequired = true) → GateStep s op m
  | dispatch (p : RecoveryProbe) : s.adverseOp op = false → s.probeSuccess op = none →
      s.probe = none → m.probe = some p → m.recoverySuccesses = s.recoverySuccesses →
      m.recoveryRequired = s.recoveryRequired → GateStep s op m
  | calm : s.adverseOp op = false →
      (s.probeSuccess op = none ∧ m.recoverySuccesses = s.recoverySuccesses ∧
          (m.probe = s.probe ∨ m.probe = none) ∨
        ∃ p, s.probe = some p ∧ s.probeSuccess op = some p ∧ m.probe = none ∧
          m.recoverySuccesses ≤ s.recoverySuccesses + 1) →
      (m.recoveryRequired = s.recoveryRequired ∨ m.recoveryRequired = false ∧
        max s.config.recoverySuccesses 1 ≤ m.recoverySuccesses ∧
        ∃ now, s.refreshTime op = some now ∧ 0 < m.readyCancel now) → GateStep s op m

/-- An operation without a report that leaves the gate alone. -/
lemma GateStep.of_same (hrep : s.accepted op = none)
    (hop : ∀ now, op ≠ .retireTransportGenerations now)
    (hreq : m.recoveryRequired = s.recoveryRequired)
    (hcount : m.recoverySuccesses = s.recoverySuccesses)
    (hprobe : m.probe = s.probe ∨ m.probe = none) : GateStep s op m := by
  have hadv : s.adverseOp op = false := by
    unfold adverseOp
    split
    · exact (hop _ rfl).elim
    · rw [hrep]
      rfl
  have hsucc : s.probeSuccess op = none := by
    unfold probeSuccess
    rw [hrep]
    cases s.probe <;> rfl
  exact .calm hadv (.inl ⟨hsucc, hcount, hprobe⟩) (.inl hreq)

lemma leaveRecovery_of_zero (h : s.recoverySuccesses = 0) (now : ℕ) : s.leaveRecovery now = s := by
  unfold leaveRecovery
  rw [if_neg]
  intro hleave
  omega

/-- Two states agree on the recovery gate and the configuration. -/
def SameGate (s r : AccountExecutionAdmission) : Prop :=
  r.recoveryRequired = s.recoveryRequired ∧ r.recoverySuccesses = s.recoverySuccesses ∧
    r.probe = s.probe ∧ r.config = s.config

lemma setLane_gate (lane : LaneState) : s.SameGate (s.setLane role slot lane) := by
  cases role <;> exact ⟨rfl, rfl, rfl, rfl⟩

lemma faultLane_gate : s.SameGate (s.faultLane role slot) := by
  unfold faultLane
  split
  · exact ⟨rfl, rfl, rfl, rfl⟩
  · exact setLane_gate role slot _

lemma noteFailure_frame : (s.noteFailure role slot now).config = s.config ∧
    (s.recoveryRequired = true → (s.noteFailure role slot now).recoveryRequired = true) := by
  have hopened : s.SameGate (s.openFailureWindow now) := by
    unfold openFailureWindow
    split <;> exact ⟨rfl, rfl, rfl, rfl⟩
  have hcounted (r : AccountExecutionAdmission) : r.SameGate (r.countFailedLane role slot) := by
    unfold countFailedLane
    split
    · exact ⟨rfl, rfl, rfl, rfl⟩
    · split
      · exact setLane_gate role slot _
      · exact ⟨rfl, rfl, rfl, rfl⟩
  obtain ⟨hreq, -, -, hcfg⟩ := hcounted (s.openFailureWindow now)
  unfold noteFailure
  dsimp only
  split
  · exact ⟨hcfg.trans hopened.2.2.2, fun _ => rfl⟩
  · exact ⟨hcfg.trans hopened.2.2.2, (hreq.trans hopened.1).trans⟩

/-- Without adverse news a report may still reset the transport. -/
lemma acceptObservation_of_not_adverse {role : Role} {slot : ℕ} (hadv : lane.adverse o = false) :
    s.acceptObservation role slot lane o now =
      (((s.setLane role slot (lane.accept s.config o now)).resetTransport lane o now).settleProbe
        role slot lane o).leaveRecovery now := by
  have hfail : lane.failure o = false := by
    simp only [LaneState.adverse, Bool.or_eq_false_iff] at hadv
    exact hadv.1.1
  unfold acceptObservation
  simp only [hfail, hadv, Bool.false_and, Bool.false_eq_true, false_and, if_false]

/-- A report that is adverse or resets the transport ends with no success counted and no probe. -/
lemma acceptObservation_of_adverse {role : Role} {slot : ℕ} {lane : LaneState}
    {o : LaneObservation} (h : (lane.adverse o || lane.transportReset o) = true) :
    (s.acceptObservation role slot lane o now).recoverySuccesses = 0 ∧
      (s.acceptObservation role slot lane o now).probe = none ∧
      (s.recoveryRequired = true →
        (s.acceptObservation role slot lane o now).recoveryRequired = true) := by
  cases hadv : lane.adverse o with
  | false =>
    have hrst : lane.transportReset o = true := by rwa [hadv] at h
    rw [acceptObservation_of_not_adverse hadv, resetTransport, if_pos hrst,
      leaveRecovery_of_zero rfl]
    exact ⟨rfl, rfl, fun _ => rfl⟩
  | true =>
    have hstages : ∃ r : AccountExecutionAdmission,
        (s.recoveryRequired = true → r.recoveryRequired = true) ∧
        s.acceptObservation role slot lane o now =
          ((if lane.adverse o = true then { r with recoverySuccesses := 0, probe := none } else
            r).settleProbe role slot lane o).leaveRecovery now := by
      apply acceptObservation_stages
        (P := fun r => s.recoveryRequired = true → r.recoveryRequired = true)
      · exact (setLane_gate role slot _).1.trans
      · intro r hr hreq
        unfold resetTransport
        split
        · rfl
        · exact hr hreq
      · exact fun r _ hr hreq => (noteFailure_frame role slot).2 (hr hreq)
      · exact fun r _ _ => rfl
    obtain ⟨r, hr, heq⟩ := hstages
    rw [heq, if_pos hadv, leaveRecovery_of_zero rfl]
    exact ⟨rfl, rfl, hr⟩

/-- A report without adverse evidence settles the probe and may end recovery. -/
lemma gateStep_of_calm_report {role : Role} {slot : ℕ}
    (hacc : s.accepted (.observe role slot o now) = some ⟨role, slot, lane, o⟩)
    (hadv : lane.adverse o = false) (hrst : lane.transportReset o = false) :
    GateStep s (.observe role slot o now) (s.acceptObservation role slot lane o now) := by
  have hcalm : s.adverseOp (.observe role slot o now) = false := by
    simp [adverseOp, hacc, hadv, hrst]
  have hsucc : s.probeSuccess (.observe role slot o now) = s.probe.filter fun probe =>
      concerns probe role slot o && !o.busy &&
        succeeds probe lane o := by
    simp [probeSuccess, hacc, hrst]
  obtain ⟨hrequired, hcount, hprobe, hconfig⟩ :=
    s.setLane_gate role slot (lane.accept s.config o now)
  rw [acceptObservation_of_not_adverse hadv, resetTransport, if_neg (by simp [hrst])]
  generalize s.setLane role slot (lane.accept s.config o now) =
    r at hrequired hcount hprobe hconfig ⊢
  -- What settling the probe did, for any state that agrees with it on the gate.
  have hsett : ∀ q, q = r.settleProbe role slot lane o →
      q.recoveryRequired = s.recoveryRequired ∧ q.config = s.config ∧
      (s.probeSuccess (.observe role slot o now) = none ∧
          q.recoverySuccesses = s.recoverySuccesses ∧ (q.probe = s.probe ∨ q.probe = none) ∨
        ∃ p, s.probe = some p ∧ s.probeSuccess (.observe role slot o now) = some p ∧
          q.probe = none ∧ q.recoverySuccesses ≤ s.recoverySuccesses + 1) := by
    rintro q rfl
    unfold settleProbe
    split
    · next hnone =>
      refine ⟨hrequired, hconfig, .inl ⟨?_, hcount, .inl hprobe⟩⟩
      rw [hsucc, hprobe.symm.trans hnone, filter_none]
    next p hp =>
    have hsp : s.probe = some p := hprobe.symm.trans hp
    split
    · next hconc =>
      refine ⟨hrequired, hconfig, ?_⟩
      cases hsucceeds : succeeds p lane o with
      | true =>
        refine .inr ⟨p, hsp, ?_, rfl, ?_⟩
        · rw [hsucc, hsp, filter_some, hconc, hsucceeds]
          rfl
        · rw [hcount, saturatingAdd]
          simp
      | false =>
        refine .inl ⟨?_, hcount, .inr rfl⟩
        rw [hsucc, hsp, filter_some, hsucceeds]
        simp
    · next hconc =>
      refine ⟨hrequired, hconfig, .inl ⟨?_, hcount, .inl hprobe⟩⟩
      rw [hsucc, hsp, filter_some]
      simp [hconc]
  obtain ⟨hreq, hcfg, hcases⟩ := hsett _ rfl
  generalize r.settleProbe role slot lane o = q at hreq hcfg hcases ⊢
  unfold leaveRecovery
  split
  · next hleave =>
    rw [hcfg] at hleave
    exact .calm hcalm hcases (.inr ⟨rfl, hleave.1, now, rfl, hleave.2⟩)
  · exact .calm hcalm hcases (.inl hreq)

/-- A success of the probe is no adverse news. -/
lemma adverse_of_succeeds (h : succeeds p lane o = true) :
    lane.adverse o = false := by
  simp only [RecoveryProbe.succeeds, Bool.and_eq_true, Bool.not_eq_true'] at h
  obtain ⟨⟨⟨⟨hhealthy, hfail⟩, hslow⟩, -⟩, -⟩ := h
  have hbus : lane.businessSlow o = false := by
    unfold healthy at hhealthy
    unfold businessSlow
    cases hres : lane.business o with
    | none => rfl
    | some outcome =>
      simp only [hres, any_some, Bool.and_eq_true, beq_iff_eq, decide_eq_true_eq] at hhealthy
      simp [hhealthy.1, hhealthy.2]
  simp [LaneState.adverse, hfail, hslow, hbus]

/-- Every operation moves the gate in one of the three ways. -/
lemma gateStep (s : AccountExecutionAdmission) (op : AdmissionOp) : GateStep s op (s.apply op) := by
  cases op with
  | observe role slot o now =>
    have happ : s.apply (.observe role slot o now) = s.observeLane role slot o now := rfl
    rw [happ]
    unfold observeLane
    split
    · next hlane =>
      refine .of_same ?_ (by rintro _ ⟨⟩) rfl rfl (.inl rfl)
      simp [accepted, hlane]
    next lane hlane =>
    split
    · next houtd =>
      refine .of_same ?_ (by rintro _ ⟨⟩) rfl rfl (.inl rfl)
      simp [accepted, hlane, accepts, houtd]
    next houtd =>
    split
    · next hinc =>
      obtain ⟨hreq, hcount, hprobe, -⟩ := s.faultLane_gate role slot
      refine .of_same ?_ (by rintro _ ⟨⟩) hreq hcount (.inl hprobe)
      simp [accepted, hlane, accepts, hinc]
    next hinc =>
    have hacc : s.accepted (.observe role slot o now) = some ⟨role, slot, lane, o⟩ := by
      simp [accepted, hlane, accepts, houtd, hinc]
    cases hbad : lane.adverse o || lane.transportReset o with
    | true =>
      obtain ⟨hcount, hprobe, hreq⟩ := @acceptObservation_of_adverse s now role slot lane o hbad
      refine .adverse ?_ ?_ hcount hprobe hreq
      · simpa only [adverseOp, hacc, any_some] using hbad
      · rw [probeSuccess, filter_eq_none_iff]
        intro p _
        simp only [hacc, any_some, Bool.and_eq_true, Bool.not_eq_true', not_and]
        intro hsucc hrst
        rw [adverse_of_succeeds hsucc.2, hrst] at hbad
        cases hbad
    | false =>
      obtain ⟨hadv, hrst⟩ := Bool.or_eq_false_iff.1 hbad
      exact gateStep_of_calm_report hacc hadv hrst
  | markDeliveryFault role slot now =>
    obtain ⟨hreq, hcount, hprobe, -⟩ := s.faultLane_gate role slot
    exact .of_same rfl (by rintro _ ⟨⟩) hreq hcount (.inl hprobe)
  | retireTransportGenerations now =>
    refine .adverse rfl ?_ rfl rfl fun _ => rfl
    unfold probeSuccess
    cases s.probe <;> rfl
  | reserveCancelSlot slot | refresh now => exact .of_same rfl (by rintro _ ⟨⟩) rfl rfl (.inl rfl)
  | placeDispatched slot now =>
    have happ : s.apply (.placeDispatched slot now) = s.markDispatched slot now := rfl
    rw [happ]
    unfold markDispatched
    split
    · exact .of_same rfl (by rintro _ ⟨⟩) rfl rfl (.inl rfl)
    next lane _ =>
    by_cases hprobe : s.recoveryRequired ∧ s.probe = none
    · refine .dispatch ⟨slot, lane.generation, lane.businessAttempt, now⟩ rfl ?_ hprobe.2
        (if_pos hprobe) rfl rfl
      unfold probeSuccess
      cases s.probe <;> rfl
    · exact .of_same rfl (by rintro _ ⟨⟩) rfl rfl (.inl (if_neg hprobe))
  | placeNotSent slot now =>
    refine .of_same rfl (by rintro _ ⟨⟩) rfl rfl ?_
    have happ : (s.apply (.placeNotSent slot now)).probe =
        s.probe.filter fun probe => probe.slot != slot := rfl
    rw [happ]
    cases s.probe with
    | none => exact .inl rfl
    | some p =>
      rw [filter_some]
      split
      · exact .inl rfl
      · exact .inr rfl

/-! ## Runs -/

variable {log} {needed : ℕ}

/-- Recovery is not required only while a cancel lane is ready. -/
def OpenReady (s : AccountExecutionAdmission) : Prop :=
  s.recoveryRequired = false → 0 < s.readyCancel s.admission.observedAtNs

/-- The log goes on accounting for the gate up to the refresh. -/
lemma backed_apply (h : Backed (max s.config.recoverySuccesses 1) s.recoverySuccesses s.probe log) :
    Backed (max s.config.recoverySuccesses 1) (s.apply op).recoverySuccesses (s.apply op).probe
      (s.applyEvents op ++ log) := by
  have hgate := gateStep s op
  unfold applyEvents
  generalize s.apply op = m at hgate ⊢
  cases hgate with
  | adverse hadv hsucc hcount hprobe hrequired =>
    rw [hadv, hsucc, hcount, hprobe]
    have hcleared : (s.recoveryRequired && !m.recoveryRequired) = false := by
      cases hreq : s.recoveryRequired with
      | false => rfl
      | true => simp [hrequired hreq]
    simp only [hcleared, Bool.false_eq_true, if_false, if_true, toList_none, map_nil,
      ite_self, nil_append, append_nil]
    have hrest := h.restart (e := .adverse) rfl
    split
    · exact hrest.restart rfl
    · exact hrest
  | dispatch p hadv hsucc hnone hprobe hcount hrequired =>
    rw [hadv, hsucc, hcount, hprobe, hnone, hrequired]
    simpa using h.dispatched p
  | calm hadv hprobe hrequired =>
    have hraised : (!s.recoveryRequired && m.recoveryRequired) = false := by
      rcases hrequired with hsame | ⟨hfalse, -⟩
      · rw [hsame]
        cases s.recoveryRequired <;> rfl
      · simp [hfalse]
    have hdisp : (if s.probe.isNone then m.probe.toList.map ProbationEvent.dispatched else []) =
        [] := by
      split
      · next hnone =>
        rw [isNone_iff_eq_none] at hnone
        rcases hprobe with ⟨-, -, hsame | hgone⟩ | ⟨p, hp, -⟩
        · rw [hsame, hnone]
          rfl
        · rw [hgone]
          rfl
        · rw [hnone] at hp
          cases hp
      · rfl
    rw [hadv, hraised, hdisp]
    -- The success comes first, then the end of recovery.
    have hsett : Backed (max s.config.recoverySuccesses 1) m.recoverySuccesses m.probe
        ((s.probeSuccess op).toList.map .succeeded ++ log) := by
      rcases hprobe with ⟨hsucc, hcount, hsame | hgone⟩ | ⟨p, hp, hsucc, hgone, hcount⟩
      · rw [hsucc, hcount, hsame]
        exact h
      · rw [hsucc, hcount, hgone]
        exact h.release
      · rw [hsucc, hgone]
        rw [hp] at h
        exact h.succeeded.mono hcount
    simp only [Bool.false_eq_true, if_false, append_nil]
    split
    · next hcleared =>
      rcases hrequired with hsame | ⟨-, hneeded, -⟩
      · rw [hsame] at hcleared
        cases hreq : s.recoveryRequired <;> simp [hreq] at hcleared
      · exact hsett.cleared hneeded
    · exact hsett

lemma config_acceptObservation {lane : LaneState} {o : LaneObservation} :
    (s.acceptObservation role slot lane o now).config = s.config := by
  apply acceptObservation_rule (P := fun r => r.config = s.config)
  · exact (setLane_gate role slot _).2.2.2
  · intro r hr
    unfold resetTransport
    split <;> exact hr
  · exact fun r _ hr => (noteFailure_frame role slot).1.trans hr
  · exact fun r hr => hr
  · exact fun r _ _ _ _ hr => hr

lemma config_step : (s.step op).config = s.config := by
  have happ : (s.apply op).config = s.config := by
    cases op with
    | observe role slot o now =>
      unfold apply observeLane
      dsimp only
      split
      · rfl
      split
      · rfl
      split
      · exact (faultLane_gate role slot).2.2.2
      · exact config_acceptObservation role slot
    | markDeliveryFault role slot now => exact (faultLane_gate role slot).2.2.2
    | retireTransportGenerations now => rfl
    | reserveCancelSlot slot => rfl
    | placeDispatched slot now =>
      unfold apply markDispatched
      dsimp only
      split <;> rfl
    | placeNotSent slot now => rfl
    | refresh now => rfl
  unfold step
  split
  · exact happ
  · unfold refresh
    split <;> exact happ

/-- A refresh that loses the last ready cancel lane of a tidy step, or pauses, starts probation
anew; any other leaves the gate alone. -/
lemma backed_refresh (hopen : s.OpenReady) (hcached : s.Cached) (htidy : s.tidy op = true)
    (htime : s.refreshTime op = some now)
    (h : Backed needed (s.apply op).recoverySuccesses (s.apply op).probe log) :
    Backed needed ((s.apply op).refresh now).recoverySuccesses ((s.apply op).refresh now).probe
      (s.refreshEvents (s.apply op) now ++ log) := by
  have hgate := gateStep s op
  simp only [tidy, htime] at htidy
  unfold refreshEvents
  rw [(hcached.apply op).refresh_eq]
  generalize s.apply op = m at hgate htidy h ⊢
  have hrequired : (m.recompute now).recoveryRequired =
      (m.recoveryRequired || m.readyCancel now == 0 || m.paused now) := rfl
  have hcount : (m.recompute now).recoverySuccesses =
      if m.paused now then 0 else m.recoverySuccesses := rfl
  have hprobe : (m.recompute now).probe = if m.paused now then none else m.probe := rfl
  rw [hrequired, hcount, hprobe]
  cases hadv : m.paused now || s.losesCancel m now with
  | true =>
    have hrst : (if m.paused now then 0 else m.recoverySuccesses) = 0 ∧
        (if m.paused now then none else m.probe) = none := by
      cases hpaused : m.paused now with
      | true => exact ⟨rfl, rfl⟩
      | false =>
        have hlost : s.losesCancel m now = true := by simpa [hpaused] using hadv
        simpa [hpaused, hlost] using htidy
    rw [hrst.1, hrst.2, if_pos rfl]
    have hrest := h.restart (e := .adverse) rfl
    split
    · exact hrest.restart rfl
    · exact hrest
  | false =>
    obtain ⟨hpaused, hlost⟩ := Bool.or_eq_false_iff.1 hadv
    -- Only the loss of the last ready cancel lane could raise recovery without a pause.
    have hraised : (!m.recoveryRequired &&
        (m.recoveryRequired || m.readyCancel now == 0 || m.paused now)) = false := by
      cases hreq : m.recoveryRequired with
      | true => rfl
      | false =>
        have hready : m.readyCancel now ≠ 0 := by
          intro hzero
          have hpre : 0 < s.readyCancel s.admission.observedAtNs := by
            cases hgate with
            | adverse _ _ _ _ hrequired =>
              refine hopen (Bool.eq_false_iff.2 fun hreq' => ?_)
              rw [hrequired hreq'] at hreq
              cases hreq
            | dispatch p _ _ _ _ _ hsame => exact hopen (hsame.symm.trans hreq)
            | calm _ _ hleft =>
              rcases hleft with hsame | ⟨-, -, now', htime', hready⟩
              · exact hopen (hsame.symm.trans hreq)
              · rw [htime] at htime'
                cases htime'
                omega
          simp [losesCancel, hpre, hzero] at hlost
        simp [hready, hpaused]
    rw [hraised, hpaused]
    exact h

lemma OpenReady.stepped (hcached : s.Cached) (op : AdmissionOp) : (s.step op).OpenReady := by
  intro hopen
  unfold step at hopen ⊢
  split at hopen
  · next htime =>
    -- Only the retirement of the transport ends without a refresh, and it requires recovery.
    cases op <;> simp [refreshTime] at htime
    cases hopen
  next now htime =>
  have hcur := (hcached.apply op).current now
  rw [hcur.observedAt]
  exact Nat.pos_of_ne_zero (hcur.gate_open hopen).1

/-- Along a run: the admission is cached, and the log accounts for the gate. -/
structure Probing (config : AdmissionConfig) (t : AccountExecutionAdmission × List ProbationEvent) :
    Prop where
  config_eq : t.1.config = config
  cached : t.1.Cached
  openReady : t.1.OpenReady
  backed : Backed (max config.recoverySuccesses 1) t.1.recoverySuccesses t.1.probe t.2

lemma Probing.stepped {cfg : AdmissionConfig} (h : Probing cfg (s, log))
    (htidy : s.tidy op = true) : Probing cfg (s.step op, s.events op ++ log) := by
  obtain ⟨rfl, hcached, hopen, hbacked⟩ := h
  refine ⟨config_step, hcached.stepped op, .stepped hcached op, ?_⟩
  have happl : Backed _ _ _ (s.applyEvents op ++ log) := backed_apply hbacked
  unfold step events
  cases htime : s.refreshTime op with
  | none => exact happl
  | some now =>
    rw [append_assoc]
    exact backed_refresh hopen hcached htidy htime happl

/-- One operation with its events. -/
def logEvents (t : AccountExecutionAdmission × List ProbationEvent) (op : AdmissionOp) :
    AccountExecutionAdmission × List ProbationEvent :=
  (t.1.step op, t.1.events op ++ t.2)

/-- Operations on the admission with their events; every step is tidy. -/
def TidyRun : AccountExecutionAdmission × List ProbationEvent → List AdmissionOp →
    AccountExecutionAdmission × List ProbationEvent → Prop :=
  Trace fun t op t' => t.1.tidy op = true ∧ t' = logEvents t op

/-- On every run of tidy steps, recovery is left only after enough successes of probes, each of a
request of its own, sent after the last adverse evidence and after recovery last became required. -/
theorem probation_sound {fastSlots cancelSlots start : ℕ} {config : AdmissionConfig}
    {ops : List AdmissionOp} {log : List ProbationEvent}
    (hrun : TidyRun (withConfig fastSlots cancelSlots start config, []) ops (s, log)) :
    Sound (max config.recoverySuccesses 1) log := by
  have hinit : Probing config (withConfig fastSlots cancelSlots start config, []) := by
    refine ⟨rfl, cached_of_dirty rfl, nofun, ?_⟩
    exact ⟨Nat.zero_le _, nofun, sound_nil⟩
  have hfinal := hrun.invariant (P := Probing config) ?_ hinit
  · exact hfinal.backed.sound
  · rintro ⟨r, log⟩ op t' hr ⟨htidy, rfl⟩
    exact hr.stepped htidy

/-- The operations are tidy one after the other. -/
def tidyAll (s : AccountExecutionAdmission) : List AdmissionOp → Bool
  | [] => true
  | op :: ops => s.tidy op && (s.step op).tidyAll ops

lemma tidyRun_foldl {t : AccountExecutionAdmission × List ProbationEvent} {ops : List AdmissionOp}
    (h : t.1.tidyAll ops = true) : TidyRun t ops (ops.foldl logEvents t) := by
  induction ops generalizing t with
  | nil => exact .nil t
  | cons op ops ih =>
    obtain ⟨htidy, hrest⟩ := Bool.and_eq_true_iff.1 h
    exact .cons ⟨htidy, rfl⟩ (ih hrest)

/-- The warm-up ends with the end of recovery, after a success. -/
theorem probation_sound_warm :
    ∃ older, (warmUp.foldl logEvents (withConfig 2 1 0 { recoverySuccesses := 1 }, [])).2 =
      .cleared :: older ∧ 1 ≤ successes older := by
  have hhead : (warmUp.foldl logEvents
      (withConfig 2 1 0 { recoverySuccesses := 1 }, [])).2.head? = some .cleared := by
    decide +kernel
  obtain ⟨older, holder⟩ := head?_eq_some_iff.1 hhead
  have htidy : (withConfig 2 1 0 { recoverySuccesses := 1 }).tidyAll warmUp = true := by
    decide +kernel
  exact ⟨older, holder,
    (probation_sound (tidyRun_foldl (t := (_, [])) htidy)).cleared [] older holder⟩

/-- One of two cancel lanes has failed and is past its isolation; a probe has ended recovery. Then
the other cancel lane misses a delivery and reports again. -/
def lossRun : List AdmissionOp :=
  let report (sequence at_ failures : ℕ) (business : Option BusinessHttpOutcomeSnapshot) :
      LaneObservation := ⟨sequence, at_, 1, false, business, false, failures, 0, 0, 0, 0, 0, none⟩
  [.observe .cancel 0 (report 1 1 0 none) 1, .observe .cancel 1 (report 1 1 0 none) 1,
    .observe .fast 0 (report 1 1 0 none) 1, .observe .cancel 0 (report 2 2 1 none) 2,
    .placeDispatched 0 3, .observe .fast 0 (report 2 4 0 (some ⟨1, 1, 1, .healthy⟩)) 4,
    .markDeliveryFault .cancel 1 300000000, .observe .cancel 1
      (report 2 300000001 0 none) 300000001]

/-- Recovery became required with the loss, and is left without a single success since then. -/
theorem recovery_left_without_probe :
    ∃ older, (lossRun.foldl logEvents (withConfig 1 2 0 { recoverySuccesses := 1 }, [])).2 =
        .cleared :: .raised :: .adverse :: older ∧
      ¬ Sound 1 (lossRun.foldl logEvents (withConfig 1 2 0 { recoverySuccesses := 1 }, [])).2 := by
  have hhead : (lossRun.foldl logEvents
      (withConfig 1 2 0 { recoverySuccesses := 1 }, [])).2.take 3 =
        [.cleared, .raised, .adverse] := by
    decide +kernel
  generalize (lossRun.foldl logEvents (withConfig 1 2 0 { recoverySuccesses := 1 }, [])).2 = log
    at hhead ⊢
  have hlog : log = .cleared :: .raised :: .adverse :: log.drop 3 := by
    conv_lhs => rw [← take_append_drop 3 log, hhead]
    rfl
  refine ⟨log.drop 3, hlog, fun hsound => ?_⟩
  have hnone : successes (.raised :: .adverse :: log.drop 3) = 0 := rfl
  have hneeded := hsound.cleared [] _ hlog
  omega

end AccountExecutionAdmission

end HexAgent.Admission
