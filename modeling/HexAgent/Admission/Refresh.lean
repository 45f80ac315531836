import HexAgent.Admission.Model
import HexAgent.ToMathlib.Trace

/-!
# The cached admission is the current one

`refresh` skips its computation while no lane has changed and no deadline has passed since it was
last made. Here it is shown that this is not observable: in every state that operations lead to,
refreshing is recomputing. A state is `Cached` if recomputing it at the time it was last refreshed
changes nothing, unless it is marked dirty.
-/

namespace HexAgent.Admission

open List

/-! ## Deadlines -/

lemma lt_foldl_min {x a : ℕ} {l : List ℕ} : x < l.foldl min a ↔ x < a ∧ ∀ d ∈ l, x < d := by
  induction l generalizing a with
  | nil => simp
  | cons d l ih =>
    rw [foldl_cons, ih, lt_min_iff, forall_mem_cons, and_assoc]

namespace LaneState

variable {lane : LaneState} {t now staleAfter : ℕ}

/-- No deadline of the lane lies between two times. -/
def Steady (lane : LaneState) (staleAfter t now : ℕ) : Prop :=
  ∀ d ∈ lane.deadlines staleAfter, t < d → now < d

variable (h : lane.Steady staleAfter t now)
include h

lemma Steady.fresh (hle : t ≤ now) (hmax : now < u64Max) :
    lane.fresh now staleAfter = lane.fresh t staleAfter := by
  have hobs := h lane.observedAtNs (by simp [deadlines])
  have hlease := h (saturatingAdd 64 (saturatingAdd 64 lane.observedAtNs staleAfter) 1)
    (by simp [deadlines])
  -- The lease ends one nanosecond after the last fresh time, unless that saturates.
  simp only [saturatingAdd] at hlease
  rw [u64Max] at hmax
  unfold LaneState.fresh
  congr 1
  · congr 1
    exact decide_eq_decide.2 (by omega)
  · exact decide_eq_decide.2 (by omega)

lemma Steady.cancelProbeEligible (hle : t ≤ now) :
    lane.cancelProbeEligible now = lane.cancelProbeEligible t := by
  have heligible := h lane.failureEligibleAfterNs (by simp [deadlines])
  unfold LaneState.cancelProbeEligible
  congr 2
  exact decide_eq_decide.2 (by omega)

end LaneState

namespace AccountExecutionAdmission

variable {s : AccountExecutionAdmission} {t now : ℕ}

/-- Nothing changes by itself between two times. -/
structure Steady (s : AccountExecutionAdmission) (t now : ℕ) : Prop where
  le : t ≤ now
  lt_max : now < u64Max
  pause : t < s.pauseUntilNs → now < s.pauseUntilNs
  lanes : ∀ lane ∈ s.lanes, lane.Steady s.config.staleAfterNs t now

lemma steady_of_lt_nextChange (hle : t ≤ now) (hlt : now < s.nextChange t) : s.Steady t now := by
  obtain ⟨hmax, hdeadl⟩ := lt_foldl_min.1 hlt
  refine ⟨hle, hmax, fun hpause => ?_, fun lane hlane d hd hlt => ?_⟩
  · refine hdeadl _ (mem_filter.2 ⟨?_, decide_eq_true hpause⟩)
    exact mem_append_right _ (mem_singleton_self _)
  · refine hdeadl d (mem_filter.2 ⟨?_, decide_eq_true hlt⟩)
    exact mem_append_left _ (mem_flatMap.2 ⟨lane, hlane, hd⟩)

variable {lane : LaneState} {role : Role} {slot : ℕ}

namespace Steady

variable (h : s.Steady t now)

include h

lemma isFresh (hlane : lane ∈ s.lanes) : s.isFresh now lane = s.isFresh t lane :=
  (h.lanes lane hlane).fresh h.le h.lt_max

lemma isFresh_fast (hlane : lane ∈ s.fast) : s.isFresh now lane = s.isFresh t lane :=
  h.isFresh (mem_append_left _ hlane)

lemma isFresh_cancel (hlane : lane ∈ s.cancel) : s.isFresh now lane = s.isFresh t lane :=
  h.isFresh (mem_append_right _ hlane)

lemma readyFast : s.readyFast now = s.readyFast t :=
  countP_congr fun lane hlane => by rw [h.isFresh_fast hlane]

lemma readyCancel : s.readyCancel now = s.readyCancel t :=
  countP_congr fun lane hlane => by rw [h.isFresh_cancel hlane]

lemma eligibleCancel : s.eligibleCancel now = s.eligibleCancel t :=
  countP_congr fun lane hlane => by
    rw [h.isFresh_cancel hlane, (h.lanes lane (mem_append_right _ hlane)).cancelProbeEligible h.le]

lemma probationBusyFast : s.probationBusyFast now = s.probationBusyFast t :=
  countP_congr fun lane hlane => by rw [h.isFresh_fast hlane]

lemma freeFast : s.freeFast now = s.freeFast t :=
  countP_congr fun lane hlane => by rw [h.isFresh_fast hlane]

lemma verifiedFree : s.verifiedFree now = s.verifiedFree t :=
  countP_congr fun lane hlane => by rw [h.isFresh_fast hlane]

lemma paused_eq : s.paused now = s.paused t := by
  have hpause := h.pause
  have hle := h.le
  unfold paused
  rw [h.readyFast, h.eligibleCancel]
  refine decide_eq_decide.2 (or_congr_right (or_congr_right ?_))
  omega

lemma allHealthy_eq : s.allHealthy now = s.allHealthy t := by
  have hfresh : s.lanes.all (s.isFresh now) = s.lanes.all (s.isFresh t) := by
    rw [Bool.eq_iff_iff, all_eq_true, all_eq_true]
    exact forall₂_congr fun lane hlane => by rw [h.isFresh hlane]
  unfold allHealthy
  rw [hfresh, h.readyFast, h.readyCancel]

lemma capacity_eq : s.capacity now = s.capacity t := by
  unfold capacity
  rw [h.paused_eq, h.freeFast, h.allHealthy_eq, h.verifiedFree, h.probationBusyFast]

lemma nextChange_eq : s.nextChange now = s.nextChange t := by
  unfold nextChange
  congr 1
  refine filter_congr fun d hd => decide_eq_decide.2 ⟨h.le.trans_lt, fun hlt => ?_⟩
  rcases mem_append.1 hd with hd | hd
  · obtain ⟨lane, hlane, hd⟩ := mem_flatMap.1 hd
    exact h.lanes lane hlane d hd hlt
  · rw [mem_singleton.1 hd] at hlt ⊢
    exact h.pause hlt

lemma updateGate_eq : s.updateGate now = s.updateGate t := by
  unfold updateGate
  rw [h.nextChange_eq, h.probationBusyFast, h.readyCancel, h.paused_eq]

end Steady

/-! ## Recomputing -/

/-- The gate reads the lanes and the pause only, so updating it again changes nothing. -/
lemma updateGate_idem : (s.updateGate now).updateGate now = s.updateGate now := by
  have hpaused : (s.updateGate now).paused now = s.paused now := rfl
  have hready : (s.updateGate now).readyCancel now = s.readyCancel now := rfl
  have hprob : (s.updateGate now).probationBusyFast now = s.probationBusyFast now := rfl
  have hnext : (s.updateGate now).nextChange now = s.nextChange now := rfl
  rw [updateGate.eq_1 (s.updateGate now), hpaused, hready, hprob, hnext]
  unfold updateGate
  cases s.paused now <;> simp

lemma publish_idem {c : ExecutionAdmissionState × ℕ} :
    (s.publish now c).publish now c = s.publish now c := by
  unfold publish
  simp

/-- Recomputing twice at one time is recomputing once. -/
lemma recompute_idem : (s.recompute now).recompute now = s.recompute now := by
  have hgate : (s.recompute now).updateGate now =
      ((s.updateGate now).updateGate now).publish now ((s.updateGate now).capacity now) := rfl
  have hcap : (((s.updateGate now).publish now
      ((s.updateGate now).capacity now))).capacity now = (s.updateGate now).capacity now := rfl
  rw [recompute.eq_1 (s.recompute now), hgate, updateGate_idem, hcap, publish_idem]
  rfl

/-! ## The cache -/

/-- Unless it is marked dirty, the state is what recomputing it at its last refresh gives. -/
def Cached (s : AccountExecutionAdmission) : Prop :=
  s.dirty = false → s.recompute s.admission.observedAtNs = s

lemma cached_of_dirty (h : s.dirty = true) : s.Cached :=
  fun hclean => by rw [h] at hclean; cases hclean

lemma cached_recompute : (s.recompute now).Cached :=
  fun _ => recompute_idem

/-! ## What marks the state dirty -/

lemma dirty_setLane : (s.setLane role slot lane).dirty = true := by
  cases role <;> rfl

lemma dirty_faultLane : (s.faultLane role slot).dirty = true := by
  unfold faultLane
  split
  · rfl
  · exact dirty_setLane

lemma dirty_noteFailure : (s.noteFailure role slot now).dirty = true := by
  unfold noteFailure
  dsimp only
  split
  · rfl
  unfold countFailedLane
  split
  · rfl
  · split
    · exact dirty_setLane
    · rfl

section Accepting

variable {P : AccountExecutionAdmission → Prop} {o : LaneObservation}
  (hset : P (s.setLane role slot (lane.accept s.config o now)))
  (hreset : ∀ r : AccountExecutionAdmission, P r → P (r.resetTransport lane o now))
  (hnote : ∀ r : AccountExecutionAdmission, lane.failure o = true → P r →
    P (r.noteFailure role slot now))
  (hpause : ∀ r : AccountExecutionAdmission, P r → P (r.pauseForRecovery now))

include hset hreset hnote hpause

/-- The stages of accepting a report: the lane is replaced, failures are dealt with, an adverse
report forgets the successes and the probe, and then the probe is settled and recovery possibly
left. -/
lemma acceptObservation_stages :
    ∃ r, P r ∧ s.acceptObservation role slot lane o now =
      ((if lane.adverse o = true then { r with recoverySuccesses := 0, probe := none } else
        r).settleProbe role slot lane o).leaveRecovery now := by
  refine ⟨_, ?_, rfl⟩
  have hnoted : P (if lane.failure o = true then ((s.setLane role slot (lane.accept s.config o
      now)).resetTransport lane o now).noteFailure role slot now else
      (s.setLane role slot (lane.accept s.config o now)).resetTransport lane o now) := by
    split
    · next hfail => exact hnote _ hfail (hreset _ hset)
    · exact hreset _ hset
  generalize (if lane.failure o = true then _ else _ : AccountExecutionAdmission) =
    noted at hnoted ⊢
  split
  · exact hpause _ hnoted
  · exact hnoted

/-- What every part of accepting a report keeps, accepting it keeps, if it is not about recovery. -/
lemma acceptObservation_rule
    (hgate : ∀ r probe successes required streak, P r → P { r with
      probe := probe
      recoverySuccesses := successes
      recoveryRequired := required
      failureStreak := streak }) : P (s.acceptObservation role slot lane o now) := by
  obtain ⟨r, hr, heq⟩ := acceptObservation_stages hset hreset hnote hpause
  rw [heq]
  have hcleared : P (if lane.adverse o = true then
      { r with recoverySuccesses := 0, probe := none } else r) := by
    split
    · exact hgate r _ _ _ _ hr
    · exact hr
  generalize (if lane.adverse o = true then _ else r) = cleared at hcleared ⊢
  have hsettled : P (cleared.settleProbe role slot lane o) := by
    unfold settleProbe
    split
    · exact hcleared
    · split
      · exact hgate cleared _ _ _ _ hcleared
      · exact hcleared
  unfold leaveRecovery
  split
  · exact hgate _ _ _ _ _ hsettled
  · exact hsettled

end Accepting

lemma dirty_acceptObservation {o : LaneObservation} :
    (s.acceptObservation role slot lane o now).dirty = true := by
  apply acceptObservation_rule (P := fun r => r.dirty = true)
  · exact dirty_setLane
  · intro r hr
    unfold resetTransport
    split
    · rfl
    · exact hr
  · exact fun r _ _ => dirty_noteFailure
  · exact fun r _ => rfl
  · exact fun r _ _ _ _ hr => hr

namespace Cached

variable (h : s.Cached)
include h

/-- Refreshing a cached state is recomputing it. -/
lemma refresh_eq : s.refresh now = s.recompute now := by
  unfold refresh
  split
  swap
  · rfl
  next hskip =>
  simp only [Bool.and_eq_true, Bool.not_eq_true', decide_eq_true_eq] at hskip
  obtain ⟨⟨hclean, hle⟩, hlt⟩ := hskip
  have hfixed := h hclean
  have hnext : s.nextChangeNs = s.nextChange s.admission.observedAtNs := by
    conv_lhs => rw [← hfixed]
    rfl
  have hsteady := steady_of_lt_nextChange hle (hnext ▸ hlt)
  -- Up to the time of publication both recomputations are the same.
  have hgate : s.updateGate s.admission.observedAtNs = s := by
    have hunp := congrArg (fun r =>
      { r with admission := s.admission }) hfixed
    exact hunp
  have hpubl := congrArg (fun r =>
    (r.admission.state, r.admission.availablePlaceSlots)) hfixed
  rw [recompute, hgate] at hpubl
  have hstate : (s.capacity s.admission.observedAtNs).1 = s.admission.state :=
    congrArg Prod.fst hpubl
  have hslots : min (s.capacity s.admission.observedAtNs).2 (2 ^ 16 - 1) =
      s.admission.availablePlaceSlots := congrArg Prod.snd hpubl
  rw [recompute, hsteady.updateGate_eq, hgate, hsteady.capacity_eq, publish]
  simp only [hstate, hslots, ne_eq, not_true_eq_false, or_self, if_false]

lemma refresh (now : ℕ) : (s.refresh now).Cached := by
  rw [h.refresh_eq]
  exact cached_recompute

/-- What an operation does before its refresh marks the state dirty, or is nothing. -/
lemma apply (op : AdmissionOp) : (s.apply op).Cached := by
  cases op with
  | observe role slot o now =>
    unfold AccountExecutionAdmission.apply observeLane
    dsimp only
    split
    · exact h
    split
    · exact h
    split
    · exact cached_of_dirty dirty_faultLane
    · exact cached_of_dirty dirty_acceptObservation
  | markDeliveryFault role slot now => exact cached_of_dirty dirty_faultLane
  | retireTransportGenerations now => exact cached_of_dirty rfl
  | reserveCancelSlot slot => exact cached_of_dirty rfl
  | placeDispatched slot now =>
    refine cached_of_dirty ?_
    unfold AccountExecutionAdmission.apply markDispatched
    dsimp only
    split <;> rfl
  | placeNotSent slot now => exact cached_of_dirty rfl
  | refresh now => exact h

lemma stepped (op : AdmissionOp) : (s.step op).Cached := by
  unfold step
  split
  · exact h.apply op
  · exact (h.apply op).refresh _

end Cached

/-! ## What the epoch tells -/

lemma admission_setLane : (s.setLane role slot lane).admission = s.admission := by
  cases role <;> rfl

lemma admission_noteFailure : (s.noteFailure role slot now).admission = s.admission := by
  grind [noteFailure, countFailedLane, openFailureWindow, pauseForRecovery, admission_setLane]

lemma admission_apply (op : AdmissionOp) : (s.apply op).admission = s.admission := by
  cases op with
  | observe role slot o now =>
    unfold apply observeLane faultLane
    dsimp only
    repeat' split
    any_goals first | rfl | exact admission_setLane
    apply acceptObservation_rule (P := fun r => r.admission = s.admission)
    · exact admission_setLane
    · intro r hr
      unfold resetTransport
      split <;> exact hr
    · exact fun r _ hr => admission_noteFailure.trans hr
    · exact fun r hr => hr
    · exact fun r _ _ _ _ hr => hr
  | markDeliveryFault | placeDispatched =>
    grind [apply, faultLane, markDispatched, admission_setLane]
  | _ => rfl

/-- The epoch rises or is saturated, or the epoch, the state and the slots are the old ones. -/
def Follows (a b : ExecutionAdmission) : Prop :=
  a.epoch < b.epoch ∨ u64Max ≤ b.epoch ∨ b = { a with observedAtNs := b.observedAtNs }

lemma follows_step (op : AdmissionOp) : Follows s.admission (s.step op).admission := by
  rw [← admission_apply op]
  unfold step refresh
  split
  · exact .inr (.inr rfl)
  split
  · exact .inr (.inr rfl)
  · unfold Follows recompute publish saturatingAdd u64Max
    grind [updateGate]

/-- The epoch identifies the published admission, between any two points of a run. -/
theorem epoch_identifies (s : AccountExecutionAdmission) (ops : List AdmissionOp) :
    Follows s.admission (ops.foldl step s).admission := by
  induction ops generalizing s with
  | nil => exact .inr (.inr rfl)
  | cons op ops ih =>
    have hstep := s.follows_step op
    have hrest := ih (s.step op)
    grind [Follows]

end AccountExecutionAdmission

end HexAgent.Admission
