import HexAgent.Admission.Refresh

/-!
# What the operations do to a lane

Reports, dispatches, faults, retirements and releases all change lanes, most of them more than one
part of a lane. `lane_step` says once what the lane of a role and slot can be after an operation:
the lane before, after a number of `Touched` changes; the lane that an accepted report makes of it,
again with such changes; or the lane before, with a place dispatched on it.
-/

namespace HexAgent.Admission

open AccountExecutionAdmission Option

open AccountExecutionAdmission in
/-- The changes of a lane apart from reports and dispatches. -/
inductive Touched : LaneState → LaneState → Prop
  | refl (lane : LaneState) : Touched lane lane
  | retire (lane : LaneState) : Touched lane (retireLane lane)
  | countFailure (lane : LaneState) (window : ℕ) :
      Touched lane { lane with failureWindow := window }
  | fault (lane : LaneState) : Touched lane { lane with deliveryFault := true }
  | reserve (lane : LaneState) : Touched lane { lane with reservedCancel := true }
  | release (lane : LaneState) : Touched lane { lane with busy := false, dispatchedAtNs := none }
  | trans {a b c : LaneState} : Touched a b → Touched b c → Touched a c

namespace AccountExecutionAdmission

variable (role : Role) (slot now : ℕ) (lane : LaneState) (o : LaneObservation)
  {s s' r : AccountExecutionAdmission} (role' : Role) {f : LaneState → LaneState}

/-- Every lane was touched at most. -/
def TouchesLanes (s s' : AccountExecutionAdmission) : Prop :=
  ∀ role slot b, s'.lane role slot = some b → ∃ a, s.lane role slot = some a ∧ Touched a b

namespace TouchesLanes

lemma of_lane (h : ∀ role slot, s'.lane role slot = s.lane role slot) : TouchesLanes s s' :=
  fun role slot b hb => ⟨b, h role slot ▸ hb, .refl b⟩

lemma trans (h : TouchesLanes s s') (h' : TouchesLanes s' r) : TouchesLanes s r := by
  intro role slot c hc
  obtain ⟨b, hb, hbc⟩ := h' role slot c hc
  obtain ⟨a, ha, hab⟩ := h role slot b hb
  exact ⟨a, ha, hab.trans hbc⟩

end TouchesLanes

lemma lane_withConfig {fastSlots cancelSlots now : ℕ} {cfg : AdmissionConfig} {role : Role}
    {slot : ℕ} {lane : LaneState}
    (h : (withConfig fastSlots cancelSlots now cfg).lane role slot = some lane) : lane = {} := by
  cases role with
  | fast | cancel => exact List.eq_of_mem_replicate (List.mem_of_getElem? h)
  | reconcile => cases h
  | query => cases h
  | gapReplay => cases h

/-- Every lane satisfies the predicate. -/
def AllLanes (P : Role → ℕ → LaneState → Prop) (s : AccountExecutionAdmission) : Prop :=
  ∀ role slot lane, s.lane role slot = some lane → P role slot lane

lemma lane_setLane (slot slot' : ℕ) (lane : LaneState) :
    (s.setLane role slot lane).lane role' slot' =
      if role' = role ∧ slot' = slot then (s.lane role slot).map fun _ => lane
      else s.lane role' slot' := by
  by_cases hslot : slot' = slot
  · subst hslot
    cases role <;> cases role' <;> simp [setLane, AccountExecutionAdmission.lane, List.getElem?_set]
    all_goals split <;> simp_all
  · cases role <;> cases role' <;>
      simp [setLane, AccountExecutionAdmission.lane, hslot, Ne.symm hslot]

lemma touchesLanes_setLane {role : Role} {slot : ℕ} {a b : LaneState}
    (ha : s.lane role slot = some a) (htouch : Touched a b) :
    TouchesLanes s (s.setLane role slot b) := by
  intro role' slot' c hc
  rw [lane_setLane] at hc
  split at hc
  · next heq =>
    obtain ⟨rfl, rfl⟩ := heq
    rw [ha] at hc
    cases hc
    exact ⟨a, ha, htouch⟩
  · exact ⟨c, hc, .refl c⟩

lemma lane_map (hfast : s'.fast = s.fast.map f) (hcancel : s'.cancel = s.cancel.map f) (role : Role)
    (slot : ℕ) : s'.lane role slot = (s.lane role slot).map f := by
  cases role <;> simp [lane, hfast, hcancel]

lemma touchesLanes_retireTransportGenerations :
    TouchesLanes s (s.retireTransportGenerations now) := by
  intro role slot b hb
  rw [lane_map (s := s) rfl rfl, map_eq_some_iff] at hb
  obtain ⟨a, ha, rfl⟩ := hb
  exact ⟨a, ha, .retire a⟩

lemma lane_congr (hfast : s'.fast = s.fast) (hcancel : s'.cancel = s.cancel) (role : Role)
    (slot : ℕ) : s'.lane role slot = s.lane role slot := by
  cases role <;> simp [lane, hfast, hcancel]

lemma touchesLanes_resetTransport (now : ℕ) : TouchesLanes s (s.resetTransport lane o now) := by
  unfold resetTransport
  split
  · refine (TouchesLanes.of_lane (lane_congr rfl rfl)).trans
      ((touchesLanes_retireTransportGenerations now).trans (.of_lane (lane_congr rfl rfl)))
  · exact .of_lane fun _ _ => rfl

lemma touchesLanes_countFailedLane : TouchesLanes s (s.countFailedLane role slot) := by
  unfold countFailedLane
  split
  · exact .of_lane (lane_congr rfl rfl)
  next lane hlane =>
  split
  · have hset :
      TouchesLanes s (s.setLane role slot { lane with failureWindow := s.failureWindow }) :=
      touchesLanes_setLane hlane (.countFailure lane _)
    exact hset.trans (.of_lane (lane_congr rfl rfl))
  · exact .of_lane (lane_congr rfl rfl)

lemma touchesLanes_noteFailure : TouchesLanes s (s.noteFailure role slot now) := by
  have hopen : TouchesLanes s (s.openFailureWindow now) := by
    unfold openFailureWindow
    split
    · exact .of_lane (lane_congr rfl rfl)
    · exact .of_lane fun _ _ => rfl
  have hcounted := hopen.trans (touchesLanes_countFailedLane role slot)
  unfold noteFailure
  dsimp only
  split
  · exact hcounted.trans (.of_lane (lane_congr rfl rfl))
  · exact hcounted

/-- An accepted report replaces its lane, and what follows only touches lanes. -/
lemma touchesLanes_acceptObservation (now : ℕ) :
    TouchesLanes (s.setLane role slot (lane.accept s.config o now))
      (s.acceptObservation role slot lane o now) := by
  apply acceptObservation_rule
    (P := TouchesLanes (s.setLane role slot (lane.accept s.config o now)))
  · exact .of_lane fun _ _ => rfl
  · exact fun r hr => hr.trans (touchesLanes_resetTransport lane o now)
  · exact fun r _ hr => hr.trans (touchesLanes_noteFailure role slot now)
  · exact fun r hr => hr.trans (.of_lane (lane_congr rfl rfl))
  · exact fun r _ _ _ _ hr => hr.trans (.of_lane (lane_congr rfl rfl))

lemma refresh_lane (role : Role) (slot : ℕ) :
    (s.refresh now).lane role slot = s.lane role slot := by
  unfold refresh
  split <;> exact lane_congr rfl rfl role slot

lemma touchesLanes_faultLane : TouchesLanes s (s.faultLane role slot) := by
  unfold faultLane
  split
  · exact .of_lane (lane_congr rfl rfl)
  · next lane hlane => exact touchesLanes_setLane hlane (.fault lane)

lemma touchesLanes_of_lists
    (hfast : ∀ (i : ℕ) b, s'.fast[i]? = some b → ∃ a, s.fast[i]? = some a ∧ Touched a b)
    (hcancel : ∀ (i : ℕ) b, s'.cancel[i]? = some b → ∃ a, s.cancel[i]? = some a ∧ Touched a b) :
    TouchesLanes s s' := by
  intro role i b hb
  cases role with
  | fast => exact hfast i b hb
  | cancel => exact hcancel i b hb
  | reconcile => cases hb
  | query => cases hb
  | gapReplay => cases hb

lemma touched_modify {l : List LaneState} (hf : ∀ a, Touched a (f a)) (slot i : ℕ) (b : LaneState)
    (hb : (l.modify slot f)[i]? = some b) : ∃ a, l[i]? = some a ∧ Touched a b := by
  rw [List.getElem?_modify] at hb
  obtain ⟨a, ha, rfl⟩ := map_eq_some_iff.1 hb
  refine ⟨a, ha, ?_⟩
  split
  · exact hf a
  · exact .refl a

lemma touchesLanes_reserveLane : TouchesLanes s (s.reserveLane slot) := by
  refine touchesLanes_of_lists (fun _ b hb => ⟨b, hb, .refl b⟩) ?_
  apply touched_modify
  exact fun lane => .reserve lane

lemma touchesLanes_markNotSent : TouchesLanes s (s.markNotSent slot) := by
  refine touchesLanes_of_lists ?_ (fun _ b hb => ⟨b, hb, .refl b⟩)
  apply touched_modify
  exact fun lane => .release lane

/-! ## Operations -/

end AccountExecutionAdmission

/-- The report is accepted. -/
def LaneState.accepts (lane : LaneState) (o : LaneObservation) (now : ℕ) : Bool :=
  !lane.outdated o && !lane.inconsistent o now

/-- An accepted report, with what was known of its lane before. -/
structure Report where
  role : Role
  slot : ℕ
  before : LaneState
  observation : LaneObservation

namespace AccountExecutionAdmission

variable {s : AccountExecutionAdmission}

/-- The report that an operation accepts. -/
def accepted (s : AccountExecutionAdmission) : AdmissionOp → Option Report
  | .observe role slot o now =>
    ((s.lane role slot).filter fun lane => lane.accepts o now).map fun lane => ⟨role, slot, lane, o⟩
  | _ => none

/-- How a lane comes out of an operation. -/
inductive LaneStep (s : AccountExecutionAdmission) (op : AdmissionOp) (role : Role) (slot : ℕ)
    (a b : LaneState) : Prop
  /-- The operation accepts no report of this lane. -/
  | touched : Touched a b →
      (∀ report, s.accepted op = some report → report.role = role → report.slot = slot → False) →
      LaneStep s op role slot a b
  | report (o : LaneObservation) (now : ℕ) : a.accepts o now = true →
      s.accepted op = some ⟨role, slot, a, o⟩ → Touched (a.accept s.config o now) b →
      LaneStep s op role slot a b
  | dispatch (now : ℕ) : op = .placeDispatched slot now → role = .fast →
      b = { a with busy := true, dispatchedAtNs := some now } → LaneStep s op role slot a b

/-- Every lane comes out of an operation in one of the three ways. -/
lemma lane_step {op : AdmissionOp} {role : Role} {slot : ℕ} {b : LaneState}
    (hb : (s.step op).lane role slot = some b) :
    ∃ a, s.lane role slot = some a ∧ LaneStep s op role slot a b := by
  have happl : (s.apply op).lane role slot = some b := by
    unfold step at hb
    split at hb
    · exact hb
    · rwa [refresh_lane] at hb
  have hkept (h : TouchesLanes s (s.apply op)) (hnone : s.accepted op = none) :
      ∃ a, s.lane role slot = some a ∧ LaneStep s op role slot a b := by
    obtain ⟨a, ha, htouch⟩ := h role slot b happl
    refine ⟨a, ha, .touched htouch fun report hrep => ?_⟩
    rw [hnone] at hrep
    cases hrep
  cases op with
  | observe role' slot' o now =>
    have happ : s.apply (.observe role' slot' o now) = s.observeLane role' slot' o now := rfl
    unfold observeLane at happ
    split at happ
    · next hlane =>
      refine hkept (.of_lane fun _ _ => by rw [happ]) ?_
      simp only [accepted, hlane, filter_none, map_none]
    next lane hlane =>
    split at happ
    · next houtd =>
      refine hkept (.of_lane fun _ _ => by rw [happ]) ?_
      simp only [accepted, hlane, LaneState.accepts, houtd, filter_some]
      rfl
    next houtd =>
    split at happ
    · next hinc =>
      refine hkept (by rw [happ]; exact touchesLanes_faultLane role' slot') ?_
      simp only [accepted, hlane, LaneState.accepts, hinc, filter_some]
      simp
    next hinc =>
    have haccepts : lane.accepts o now = true := by
      simp [LaneState.accepts, houtd, hinc]
    have hacc : s.accepted (.observe role' slot' o now) = some ⟨role', slot', lane, o⟩ := by
      simp [accepted, hlane, haccepts]
    rw [happ] at happl
    obtain ⟨c, hc, htouch⟩ :=
      touchesLanes_acceptObservation role' slot' lane o now role slot b happl
    rw [lane_setLane] at hc
    split at hc
    · next heq =>
      obtain ⟨rfl, rfl⟩ := heq
      rw [hlane] at hc
      cases hc
      exact ⟨lane, hlane, .report o now haccepts hacc htouch⟩
    next hne =>
    refine ⟨c, hc, .touched htouch fun report hrep hrole hslot => hne ?_⟩
    rw [hacc] at hrep
    cases hrep
    exact ⟨hrole.symm, hslot.symm⟩
  | markDeliveryFault role' slot' now => exact hkept (touchesLanes_faultLane role' slot') rfl
  | retireTransportGenerations now => exact hkept (touchesLanes_retireTransportGenerations now) rfl
  | reserveCancelSlot slot' => exact hkept (touchesLanes_reserveLane slot') rfl
  | placeDispatched slot' now =>
    have hmark : (s.markDispatched slot' now).lane role slot = some b := happl
    unfold markDispatched at hmark
    split at hmark
    · next hnone =>
      refine hkept ?_ rfl
      have happ : s.apply (.placeDispatched slot' now) = { s with dirty := true } := by
        unfold apply markDispatched
        simp only [hnone]
      rw [happ]
      exact .of_lane (lane_congr rfl rfl)
    next lane hlane =>
    have hset : (s.setLane .fast slot' { lane with busy := true, dispatchedAtNs := some now }).lane
        role slot = some b := (lane_congr rfl rfl role slot).trans hmark
    have hlane' : s.lane .fast slot' = some lane := hlane
    rw [lane_setLane, hlane'] at hset
    split at hset
    · next heq =>
      obtain ⟨rfl, rfl⟩ := heq
      cases hset
      exact ⟨lane, hlane', .dispatch now rfl rfl rfl⟩
    · exact ⟨b, hset, .touched (.refl b) fun report hrep => by cases hrep⟩
  | placeNotSent slot' now => exact hkept (touchesLanes_markNotSent slot') rfl
  | refresh now => exact hkept (.of_lane fun _ _ => rfl) rfl

end AccountExecutionAdmission

end HexAgent.Admission
