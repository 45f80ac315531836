import HexAgent.Admission.Lanes

/-!
# Retired and suspect connections

A lane is used for places as long as its generation is not retired, and counts as verified capacity
only after a business request has succeeded on that generation. `never_trusted_again` is about every
sequence of reports, in any order, retirements, delivery faults, dispatches and refreshes.

* A generation that was retired once is never ready again, whatever is reported for it later: the
  generation of a lane only grows, and a retirement is only overwritten by one of a later
  generation.
* Behind every verified lane there is an accepted report, of the lane's present generation, with a
  new healthy result below the slow threshold, and no accepted report since then had a new failure,
  a new slow response, a new adverse result or another generation.

A business result that is not new to the lane, or is of another generation than the one reported, is
not looked at, also when it is an adverse one: `ignored_results_keep_verified`.
-/

namespace HexAgent.Admission

open Option

variable {b : LaneState} {role : Role} {g : ℕ} (a : LaneState) (op : AdmissionOp) {slot : ℕ}

/-! ## What can happen to a lane -/

/-- Apart from a report: the generation stays, no trust is gained, and the generation may be
retired. -/
structure Keeps (a b : LaneState) : Prop where
  generation : b.generation = a.generation
  verified : b.verified = true → a.verified = true
  retired : b.retiredGeneration = a.retiredGeneration ∨ b.retiredGeneration = some a.generation

namespace Keeps

lemma refl : Keeps a a := ⟨rfl, id, .inl rfl⟩

lemma trans {a c : LaneState} (h : Keeps a b) (h' : Keeps b c) : Keeps a c := by
  refine ⟨h'.generation.trans h.generation, h.verified ∘ h'.verified, ?_⟩
  rcases h'.retired with hsame | hret
  · rcases h.retired with hsame' | hret
    · exact .inl (hsame.trans hsame')
    · exact .inr (hsame.trans hret)
  · exact .inr (hret.trans (congrArg some h.generation))

lemma retireLane : Keeps a (AccountExecutionAdmission.retireLane a) :=
  ⟨rfl, fun h => Bool.noConfusion h, .inr rfl⟩

end Keeps

/-- Touching a lane, or dispatching on it, gains no trust. -/
lemma Touched.keeps {a : LaneState} (h : Touched a b) : Keeps a b := by
  induction h with
  | refl lane => exact .refl lane
  | retire lane => exact .retireLane lane
  | countFailure lane window => exact ⟨rfl, id, .inl rfl⟩
  | fault lane => exact ⟨rfl, id, .inl rfl⟩
  | reserve lane => exact ⟨rfl, id, .inl rfl⟩
  | release lane => exact ⟨rfl, id, .inl rfl⟩
  | trans _ _ ih ih' => exact ih.trans ih'

/-- Apart from the lane of an accepted report, an operation keeps all lanes. -/
lemma AccountExecutionAdmission.keeps_step {s : AccountExecutionAdmission}
    (hb : (s.step op).lane role slot = some b) :
    ∃ a, s.lane role slot = some a ∧
      ((Keeps a b ∧ ∀ report, s.accepted op = some report →
          report.role = role → report.slot = slot → False) ∨
        ∃ o now, a.accepts o now = true ∧ s.accepted op = some ⟨role, slot, a, o⟩ ∧
          Keeps (a.accept s.config o now) b) := by
  obtain ⟨a, ha, hlane⟩ := lane_step hb
  refine ⟨a, ha, ?_⟩
  cases hlane with
  | touched htouch hoth => exact .inl ⟨htouch.keeps, hoth⟩
  | report o now haccepts hacc htouch =>
    exact .inr ⟨o, now, haccepts, hacc, htouch.keeps⟩
  | dispatch now hop hrole hdisp =>
    subst hop hdisp
    exact .inl ⟨⟨rfl, id, .inl rfl⟩, fun report hrep => by cases hrep⟩

/-! ## What an accepted report does to trust -/

namespace LaneState

variable {lane : LaneState} {config : AdmissionConfig} {o : LaneObservation} {now : ℕ}

lemma generation_le_of_accepts (h : lane.accepts o now = true) :
    lane.generation ≤ o.poolGeneration := by
  have houtd : lane.outdated o = false := by
    simpa using (Bool.and_eq_true_iff.1 h).1
  have hnewer := of_decide_eq_false houtd
  omega

lemma copyBusy_keeps : Keeps lane (lane.copyBusy o) := by
  unfold copyBusy
  split
  · exact ⟨rfl, id, .inl rfl⟩
  · exact .refl lane

/-- A lane is verified after a report because of the report's own healthy result, or because it was
verified before and the report changed nothing about that. -/
lemma accept_trust :
    (lane.accept config o now).generation = o.poolGeneration ∧
      ((lane.accept config o now).retiredGeneration = lane.retiredGeneration ∨
        (lane.accept config o now).retiredGeneration = some o.poolGeneration) ∧
      ((lane.accept config o now).verified = true →
        (lane.healthy o = true ∧ lane.failure o = false ∧ lane.slow o = false) ∨
          (lane.verified = true ∧ o.poolGeneration = lane.generation ∧
            lane.adverse o = false)) := by
  -- Copying the report gains no trust, and none is left on a new generation.
  have hkeeps : Keeps (lane.copyReport o) ((lane.copyReport o).copyBusy o) := copyBusy_keeps
  unfold accept
  generalize (lane.copyReport o).copyBusy o = copied at hkeeps
  obtain ⟨hgeneration, hverified, hretired⟩ := hkeeps
  simp only [copyReport, Bool.and_eq_true, beq_iff_eq] at hgeneration hverified hretired
  dsimp only
  -- The isolation of an adverse report takes the trust away.
  obtain ⟨isolated, hisolated, hgen, hret, hver⟩ : ∃ isolated,
      (if lane.adverse o then copied.isolate config now else copied) = isolated ∧
        isolated.generation = o.poolGeneration ∧
        (isolated.retiredGeneration = lane.retiredGeneration ∨
          isolated.retiredGeneration = some o.poolGeneration) ∧
        (isolated.verified = true →
          lane.verified = true ∧ o.poolGeneration = lane.generation ∧ lane.adverse o = false) := by
    refine ⟨_, rfl, ?_⟩
    split
    · exact ⟨hgeneration, hretired, fun h => Bool.noConfusion h⟩
    next hadv =>
    refine ⟨hgeneration, hretired, fun h => ?_⟩
    exact ⟨(hverified h).1, (hverified h).2, by simpa using hadv⟩
  rw [hisolated]
  -- Ending the isolation touches nothing of this.
  obtain ⟨healed, hhealed, hgen, hret, hver⟩ : ∃ healed,
      (if (lane.healthy o && !lane.slow o &&
          isolated.retiredGeneration != some isolated.generation) = true then isolated.heal
        else isolated) = healed ∧
        healed.generation = o.poolGeneration ∧
        (healed.retiredGeneration = lane.retiredGeneration ∨
          healed.retiredGeneration = some o.poolGeneration) ∧
        (healed.verified = true →
          lane.verified = true ∧ o.poolGeneration = lane.generation ∧ lane.adverse o = false) := by
    refine ⟨_, rfl, ?_⟩
    split <;> exact ⟨hgen, hret, hver⟩
  rw [hhealed]
  split
  · exact ⟨hgen, .inr (congrArg some hgen), fun h => .inr (hver h)⟩
  split
  · next hhealthy =>
    refine ⟨hgen, hret, fun _ => .inl ?_⟩
    simp only [Bool.and_eq_true, Bool.not_eq_true'] at hhealthy
    exact ⟨hhealthy.1.1.1, hhealthy.1.1.2, hhealthy.1.2⟩
  · exact ⟨hgen, hret, fun h => .inr (hver h)⟩

/-- The lane can no longer be ready on the generation. -/
def GaveUp (lane : LaneState) (g : ℕ) : Prop :=
  g ≤ lane.generation ∧ (lane.generation = g → lane.retiredGeneration = some g)

variable (h : lane.GaveUp g)
include h

lemma GaveUp.not_ready (hg : lane.generation = g) : lane.ready = false := by
  unfold ready
  rw [h.2 hg, hg]
  simp

lemma GaveUp.keeps (hkeeps : Keeps lane b) : b.GaveUp g := by
  refine ⟨hkeeps.generation ▸ h.1, fun hg => ?_⟩
  have hsame : lane.generation = g := hkeeps.generation ▸ hg
  rcases hkeeps.retired with hret | hret
  · exact hret.trans (h.2 hsame)
  · exact hret.trans (congrArg some hsame)

lemma GaveUp.accept (hacc : lane.accepts o now = true) : (lane.accept config o now).GaveUp g := by
  obtain ⟨hgen, hret, -⟩ := @accept_trust lane config o now
  have hle := generation_le_of_accepts hacc
  have hg := h.1
  refine ⟨by omega, fun hsame => ?_⟩
  rcases hret with hret | hret
  · exact hret.trans (h.2 (by omega))
  · rw [hret, ← hsame, hgen]

end LaneState

/-! ## Runs -/

/-- Operations on the admission, with the accepted reports, newest first. -/
def ReportRun : AccountExecutionAdmission × List Report → List AdmissionOp →
    AccountExecutionAdmission × List Report → Prop :=
  Trace (Logged (fun s op s' => s' = s.step op) fun s op _ => (s.accepted op).toList)

/-- Among the accepted reports there is a healthy one on the generation, and since then none of the
same lane was adverse or of another generation. -/
def Trusted (reports : List Report) (role : Role) (slot generation : ℕ) : Prop :=
  ∃ newer report older, reports = newer ++ report :: older ∧
    report.role = role ∧ report.slot = slot ∧ report.observation.poolGeneration = generation ∧
    report.before.healthy report.observation = true ∧
    report.before.failure report.observation = false ∧
    report.before.slow report.observation = false ∧
    ∀ r ∈ newer, r.role = role → r.slot = slot →
      r.before.adverse r.observation = false ∧ r.observation.poolGeneration = r.before.generation

/-- A report that takes no trust away extends the reports. -/
lemma Trusted.append {reports newest : List Report} {generation : ℕ}
    (h : Trusted reports role slot generation) (hnew : ∀ r ∈ newest, r.role = role → r.slot = slot →
      r.before.adverse r.observation = false ∧ r.observation.poolGeneration = r.before.generation) :
    Trusted (newest ++ reports) role slot generation := by
  obtain ⟨newer, report, older, rfl, hrole, hslot, hgen, hhealthy, hfail, hslow, hnewer⟩ := h
  refine ⟨newest ++ newer, report, older, (List.append_assoc ..).symm, hrole, hslot, hgen, hhealthy,
    hfail, hslow, fun r hr => ?_⟩
  rcases List.mem_append.1 hr with hr | hr
  · exact hnew r hr
  · exact hnewer r hr

namespace AccountExecutionAdmission

/-- What a retirement says about a lane at all times. -/
def RetiredBelow : AccountExecutionAdmission → Prop :=
  AllLanes fun _ _ lane => ∀ g, lane.retiredGeneration = some g → lane.GaveUp g

variable {s : AccountExecutionAdmission} {reports : List Report}

/-- A generation that a lane gave up stays given up. -/
lemma gaveUp_step (h : ∀ lane, s.lane role slot = some lane → lane.GaveUp g) :
    ∀ lane, (s.step op).lane role slot = some lane → lane.GaveUp g := by
  intro b hb
  obtain ⟨a, ha, ⟨hkeeps, -⟩ | ⟨o, now, hacc, -, hkeeps⟩⟩ := keeps_step op hb
  · exact (h a ha).keeps hkeeps
  · exact ((h a ha).accept hacc).keeps hkeeps

lemma RetiredBelow.step (h : s.RetiredBelow) (op : AdmissionOp) : (s.step op).RetiredBelow := by
  intro role slot b hb g hg
  obtain ⟨a, ha, ⟨hkeeps, -⟩ | ⟨o, now, hacc, -, hkeeps⟩⟩ := keeps_step op hb
  · rcases hkeeps.retired with hret | hret
    · exact (h role slot a ha g (hret ▸ hg)).keeps hkeeps
    · rw [hret] at hg
      cases hg
      exact ⟨hkeeps.generation.ge, fun _ => hret⟩
  · obtain ⟨hgen, hret', -⟩ := @LaneState.accept_trust a s.config o now
    have hle := LaneState.generation_le_of_accepts hacc
    have hbgen := hkeeps.generation.trans hgen
    -- The retirement is the old one, or it is of the generation that is reported now.
    have hcases : b.retiredGeneration = a.retiredGeneration ∨
        b.retiredGeneration = some o.poolGeneration := by
      rcases hkeeps.retired with hret | hret
      · exact hret' |>.imp hret.trans hret.trans
      · exact .inr (hret.trans (congrArg some hgen))
    rcases hcases with hold | hnow
    · exact (((h role slot a ha g (hold ▸ hg)).accept hacc).keeps hkeeps)
    · rw [hnow] at hg
      cases hg
      exact ⟨hbgen.ge, fun _ => hnow⟩

/-- Behind every verified lane there is a trusted report. -/
def VerifiedBacked (s : AccountExecutionAdmission × List Report) : Prop :=
  s.1.AllLanes fun role slot lane => lane.verified = true → Trusted s.2 role slot lane.generation

lemma VerifiedBacked.step (h : VerifiedBacked (s, reports)) (op : AdmissionOp) :
    VerifiedBacked (s.step op, (s.accepted op).toList ++ reports) := by
  intro role slot b hb hver
  obtain ⟨a, ha, ⟨hkeeps, hoth⟩ | ⟨o, now, haccepts, hacc, hkeeps⟩⟩ := keeps_step op hb
  · have htrusted := h role slot a ha (hkeeps.verified hver)
    rw [← hkeeps.generation] at htrusted
    refine htrusted.append fun r hr hrole hslot => ?_
    exact (hoth r (mem_toList.1 hr) hrole hslot).elim
  · obtain ⟨hgen, -, hcases⟩ := @LaneState.accept_trust a s.config o now
    have hbgen : b.generation = o.poolGeneration := hkeeps.generation.trans hgen
    rw [hacc]
    rcases hcases (hkeeps.verified hver) with ⟨hhealthy, hfail, hslow⟩ | ⟨hold, hsame, hadv⟩
    · exact ⟨[], ⟨role, slot, a, o⟩, reports, rfl, rfl, rfl, hbgen.symm, hhealthy, hfail, hslow,
        fun r hr => by cases hr⟩
    have htrusted := h role slot a ha hold
    rw [← hsame, ← hbgen] at htrusted
    refine htrusted.append fun r hr _ _ => ?_
    have hrep : r = ⟨role, slot, a, o⟩ := by simpa using hr
    subst hrep
    exact ⟨hadv, hsame⟩

end AccountExecutionAdmission

open AccountExecutionAdmission in
/-- For every run from a new account, and from there on every further run: a generation that a lane
retired is never ready again, and a verified lane is backed by a healthy report on its present
generation, after which no accepted report of the lane was adverse or of another generation. -/
theorem never_trusted_again {fastSlots cancelSlots start : ℕ} {config : AdmissionConfig}
    {ops later : List AdmissionOp} {s s' : AccountExecutionAdmission}
    {reports reports' : List Report}
    (hrun : ReportRun (withConfig fastSlots cancelSlots start config, []) ops (s, reports))
    (hlater : ReportRun (s, reports) later (s', reports')) :
    (∀ role slot a b g, s.lane role slot = some a → a.retiredGeneration = some g →
      s'.lane role slot = some b → b.generation = g → b.ready = false) ∧
    (∀ role slot b, s'.lane role slot = some b → b.ready = true → b.verified = true →
      Trusted reports' role slot b.generation) := by
  have hbelow : s.RetiredBelow := by
    refine hrun.invariant (P := fun t => t.1.RetiredBelow) ?_ ?_
    · rintro t op t' ht ⟨hstep, -⟩
      exact hstep ▸ ht.step op
    · intro role slot lane hlane g hg
      cases lane_withConfig hlane
      cases hg
  constructor
  · intro role slot a b g ha hg hb hgen
    have hgaveUp : ∀ lane, s'.lane role slot = some lane → lane.GaveUp g := by
      refine hlater.invariant
        (P := fun t => ∀ lane, t.1.lane role slot = some lane → lane.GaveUp g) ?_ ?_
      · rintro t op t' ht ⟨hstep, -⟩
        exact hstep ▸ gaveUp_step op ht
      · intro lane hlane
        cases some.inj (ha.symm.trans hlane)
        exact hbelow role slot a ha g hg
    exact (hgaveUp b hb).not_ready hgen
  · have hstep : ∀ (t : AccountExecutionAdmission × List Report) (op) t', VerifiedBacked t →
        Logged (fun s op s' => s' = s.step op) (fun s op _ => (s.accepted op).toList) t op t' →
        VerifiedBacked t' := by
      rintro ⟨t, log⟩ op ⟨t', log'⟩ ht ⟨hstep, hlog⟩
      have hnext : t' = t.step op := hstep
      have hreports : log' = (t.accepted op).toList ++ log := hlog
      rw [hnext, hreports]
      exact ht.step op
    have hinit : VerifiedBacked (withConfig fastSlots cancelSlots start config, []) := by
      intro role slot lane hlane hverified
      cases lane_withConfig hlane
      cases hverified
    intro role slot b hb _ hverified
    exact hlater.invariant hstep (hrun.invariant hstep hinit) role slot b hb hverified

/-- One operation with its accepted report. -/
def logReport (t : AccountExecutionAdmission × List Report) (op : AdmissionOp) :
    AccountExecutionAdmission × List Report :=
  (t.1.step op, (t.1.accepted op).toList ++ t.2)

lemma reportRun_foldl (t : AccountExecutionAdmission × List Report) (ops : List AdmissionOp) :
    ReportRun t ops (ops.foldl logReport t) := by
  induction ops generalizing t with
  | nil => exact .nil t
  | cons op ops ih => exact .cons ⟨rfl, rfl⟩ (ih (logReport t op))

/-- A report with a healthy result on generation 5. -/
def healthyReport (sequence attempt : ℕ) : LaneObservation where
  sequence := sequence
  observedAtNs := sequence
  poolGeneration := 5
  business := some ⟨attempt, 5, 100, .healthy⟩

/-- A verified lane is retired. -/
def retiredRun : AccountExecutionAdmission × List Report :=
  [AdmissionOp.observe .fast 0 (healthyReport 1 1) 1, .retireTransportGenerations 2].foldl logReport
    (.withConfig 1 1 0 {}, [])

/-- The retirement outlives a late success on the retired generation. -/
theorem never_trusted_again_late_success : ∃ a b,
    retiredRun.1.lane .fast 0 = some a ∧ a.retiredGeneration = some 5 ∧
    (logReport retiredRun (.observe .fast 0 (healthyReport 3 2) 3)).1.lane .fast 0 = some b ∧
    b.generation = 5 ∧ b.ready = false := by
  have hret : (retiredRun.1.lane .fast 0).any (·.retiredGeneration == some 5) = true := by
    decide +kernel
  have hlate : ((logReport retiredRun (.observe .fast 0 (healthyReport 3 2) 3)).1.lane .fast 0).any
      (·.generation == 5) = true := by decide +kernel
  obtain ⟨a, ha, hg⟩ := (any_eq_true ..).1 hret
  obtain ⟨b, hb, hgen⟩ := (any_eq_true ..).1 hlate
  refine ⟨a, b, ha, eq_of_beq hg, hb, eq_of_beq hgen, ?_⟩
  have hrun : ReportRun (.withConfig 1 1 0 {}, []) _ (retiredRun.1, retiredRun.2) :=
    reportRun_foldl _ _
  exact (never_trusted_again hrun (reportRun_foldl retiredRun [_])).1 .fast 0 a b 5
    ha (eq_of_beq hg) hb (eq_of_beq hgen)

/-- A verified lane reports the failure of a request that ran on an earlier generation. -/
def lateFailureRun : AccountExecutionAdmission × List Report :=
  [AdmissionOp.observe .fast 0 (healthyReport 1 1) 1,
    .observe .fast 0 { healthyReport 2 2 with business := some ⟨2, 4, 100, .failure⟩ } 2].foldl
      logReport (.withConfig 1 1 0 {}, [])

/-- The lane stays ready and verified, although the failure is reported after its only success. -/
theorem ignored_results_keep_verified :
    (∃ lane, lateFailureRun.1.lane .fast 0 = some lane ∧ lane.ready = true ∧ lane.verified = true) ∧
    ∀ newer report older, lateFailureRun.2 = newer ++ report :: older →
      report.before.healthy report.observation = true →
      ∃ r ∈ newer, r.role = .fast ∧ r.slot = 0 ∧
        r.observation.business.any (fun outcome => outcome.outcome == .failure) = true := by
  constructor
  · have hlane : (lateFailureRun.1.lane .fast 0).any (fun lane => lane.ready && lane.verified) =
        true := by decide +kernel
    obtain ⟨lane, hlane, htrust⟩ := (any_eq_true ..).1 hlane
    exact ⟨lane, hlane, by simpa using htrust⟩
  · have hhead : lateFailureRun.2.head?.any (fun r => !r.before.healthy r.observation &&
        r.role == .fast && r.slot == 0 &&
        r.observation.business.any fun outcome => outcome.outcome == .failure) = true := by
      decide +kernel
    intro newer report older hreps hhealthy
    rw [hreps] at hhead
    cases newer with
    | nil =>
      simp only [List.nil_append, List.head?_cons, any_some, hhealthy] at hhead
      cases hhead
    | cons r rest =>
      simp only [List.cons_append, List.head?_cons, any_some, Bool.and_eq_true] at hhead
      exact ⟨r, List.mem_cons_self, eq_of_beq hhead.1.1.2, eq_of_beq hhead.1.2, hhead.2⟩

end HexAgent.Admission
