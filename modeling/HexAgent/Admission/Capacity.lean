import HexAgent.Admission.Lanes
import HexAgent.ToMathlib.CountSlots

/-!
# The advertised capacity is what can be dispatched

Strategies are told a number of place slots, and the router asks `lanePlaceAllowed` for a lane
before it sends. `dispatch_safety` says, for every reachable state, when a place is allowed, and
that the number is exact: a sequence of allowed dispatches at one time has at most that length, and
one of that length exists.

In recovery a place is allowed only while no lane is busy. Places sent before recovery was required
may still be in flight then, so several can be (`places_in_flight_when_recovery_starts`); but while
recovery is required their number does not grow beyond one.
-/

namespace HexAgent.Admission

open List LaneState ExecutionAdmission

namespace AccountExecutionAdmission

variable {s s' : AccountExecutionAdmission} {now slot : ℕ} {lane : LaneState}

/-! ## The admission of a time -/

/-- Recomputing the admission at this time changes nothing. -/
def Current (s : AccountExecutionAdmission) (now : ℕ) : Prop := s.recompute now = s

lemma Cached.current (h : s.Cached) (now : ℕ) : (s.refresh now).Current now := by
  rw [h.refresh_eq]
  exact recompute_idem

variable (s now) in
lemma verifiedFree_le : s.verifiedFree now ≤ s.freeFast now := by
  refine countP_mono_left fun lane _ hlane => ?_
  simp only [Bool.and_eq_true] at hlane ⊢
  exact ⟨hlane.1.1, hlane.2⟩

variable (s now) in
lemma capacity_le : (s.capacity now).2 ≤ s.fast.length := by
  have hfree : s.freeFast now ≤ s.fast.length := countP_le_length
  have hver := s.verifiedFree_le now
  unfold capacity
  split
  · exact Nat.zero_le _
  split
  · split <;> omega
  split
  · exact hfree
  · split <;> omega

/-- A lane on which the gate lets a place pass. -/
structure Usable (s : AccountExecutionAdmission) (now : ℕ) (lane : LaneState) : Prop where
  fresh : s.isFresh now lane = true
  ready : lane.ready = true
  idle : lane.busy = false
  probation : s.recoveryRequired = true ∨ lane.verified = true ∨ s.probationBusyFast now = 0

/-- What an allowed place finds. -/
structure SafePlace (s : AccountExecutionAdmission) (now : ℕ) (lane : LaneState) : Prop where
  fresh : s.isFresh now lane = true
  unretired : lane.retiredGeneration ≠ some lane.generation
  unquarantined : lane.quarantined = false
  idle : lane.busy = false
  cancellable : ∃ other ∈ s.cancel, other.reservedCancel = false ∧ s.isFresh now other = true ∧
    other.retiredGeneration ≠ some other.generation ∧ other.quarantined = false ∧
    (other.businessFailed = false ∨ other.failureEligibleAfterNs ≤ now)
  pause_over : s.pauseUntilNs ≤ now
  recovery : s.recoveryRequired = true → ∀ other ∈ s.fast, other.busy = false
  probation : s.recoveryRequired = false → lane.verified = false → ∀ other ∈ s.fast,
    s.isFresh now other = true → other.ready = true → other.verified = false → other.busy = false

lemma ready_iff : lane.ready = true ↔
    lane.quarantined = false ∧ lane.retiredGeneration ≠ some lane.generation := by
  simp [ready]

namespace Current

variable (h : s.Current now)

include h

lemma gate : s.updateGate now = s :=
  congrArg (fun r => { r with admission := s.admission }) h

lemma observedAt : s.admission.observedAtNs = now :=
  (congrArg (·.admission.observedAtNs) h).symm

lemma cached : s.Cached := by
  intro _
  rw [h.observedAt]
  exact h

lemma refresh : s.refresh now = s := h.cached.refresh_eq.trans h

lemma probationBusy : s.probationBusy = decide (0 < s.probationBusyFast now) :=
  (congrArg (·.probationBusy) h.gate).symm

/-- Out of recovery there is a ready cancel lane and no pause. -/
lemma gate_open (hopen : s.recoveryRequired = false) :
    s.readyCancel now ≠ 0 ∧ s.paused now = false := by
  have hreq : (s.recoveryRequired || s.readyCancel now == 0 || s.paused now) = false :=
    (congrArg (·.recoveryRequired) h.gate).trans hopen
  simp only [Bool.or_eq_false_iff, beq_eq_false_iff_ne] at hreq
  exact ⟨hreq.1.2, hreq.2⟩

lemma state : s.admission.state = (s.capacity now).1 := by
  have hstate := congrArg (·.admission.state) h
  rw [recompute, h.gate] at hstate
  exact hstate.symm

lemma slots : s.admission.availablePlaceSlots = min (s.capacity now).2 (2 ^ 16 - 1) := by
  have hslots := congrArg (·.admission.availablePlaceSlots) h
  rw [recompute, h.gate] at hslots
  exact hslots.symm

/-- With fewer than 65536 lanes the published number is not capped. -/
lemma slots_eq (hlanes : s.fast.length < 65536) :
    s.admission.availablePlaceSlots = (s.capacity now).2 := by
  have hle := s.capacity_le now
  rw [h.slots]
  omega

/-! ## Allowed places -/

lemma allowed_iff :
    (s.lanePlaceAllowed slot now).1 = true ↔
      s.admission.allowsPlace = true ∧ ∃ lane, s.fast[slot]? = some lane ∧ s.Usable now lane := by
  unfold lanePlaceAllowed
  rw [h.refresh, Bool.and_eq_true, Option.any_eq_true]
  refine and_congr_right fun _ => exists_congr fun lane => and_congr_right fun _ => ?_
  rw [h.probationBusy]
  simp only [Bool.and_eq_true, Bool.or_eq_true, Bool.not_eq_true', decide_eq_false_iff_not, not_lt,
    Nat.le_zero, or_assoc]
  exact ⟨fun ⟨⟨⟨hfresh, hready⟩, hidle⟩, hprob⟩ => ⟨hfresh, hready, hidle, hprob⟩,
    fun hlane => ⟨⟨⟨hlane.fresh, hlane.ready⟩, hlane.idle⟩, hlane.probation⟩⟩

variable (hall : s.admission.allowsPlace = true)
include hall

/-- While a place is allowed the account is not paused. -/
lemma not_paused : s.paused now = false ∧ 0 < (s.capacity now).2 := by
  simp only [allowsPlace, Bool.and_eq_true, bne_iff_ne, decide_eq_true_eq]
    at hall
  rw [h.state, h.slots] at hall
  constructor
  · by_contra hpaused
    rw [Bool.not_eq_false] at hpaused
    refine hall.1 ?_
    rw [capacity, if_pos hpaused]
  · omega

/-- In recovery a place is allowed only if no lane is busy. -/
lemma idle_of_recovery (hrcv : s.recoveryRequired = true) : s.busyFast = 0 ∧ s.probe = none := by
  obtain ⟨hpaused, hslots⟩ := h.not_paused hall
  rw [capacity, if_neg (by simp [hpaused]), if_pos hrcv] at hslots
  split at hslots
  · next hidle => exact ⟨hidle.1, hidle.2.1⟩
  · cases hslots

lemma safePlace (husable : s.Usable now lane) : s.SafePlace now lane := by
  obtain ⟨hunq, hunr⟩ := ready_iff.1 husable.ready
  obtain ⟨hpaused, -⟩ := h.not_paused hall
  have hopen := of_decide_eq_false hpaused
  push Not at hopen
  obtain ⟨-, hcancel, hpause⟩ := hopen
  refine ⟨husable.fresh, hunr, hunq, husable.idle, ?_, hpause, ?_, ?_⟩
  · obtain ⟨other, hmem, hne⟩ := countP_pos_iff.1 (Nat.pos_of_ne_zero hcancel)
    simp only [cancelProbeEligible, Bool.and_eq_true, Bool.not_eq_true', Bool.or_eq_true,
      decide_eq_true_eq] at hne
    obtain ⟨⟨hord, hfresh⟩, hready, heligible⟩ := hne
    obtain ⟨hquar, hret⟩ := ready_iff.1 hready
    exact ⟨other, hmem, hord, hfresh, hret, hquar, heligible⟩
  · intro hrcv other hmem
    have hidle := countP_eq_zero.1 (h.idle_of_recovery hall hrcv).1 other hmem
    simpa using hidle
  · intro hrcv hunv other hmem hfresh hready hne
    have hquiet : s.probationBusyFast now = 0 := by
      simpa [hrcv, hunv] using husable.probation
    have hidle := countP_eq_zero.1 hquiet other hmem
    simpa [hfresh, hready, hne] using hidle

end Current

/-! ## One dispatch -/

/-- What a dispatch on an idle lane that is fresh and ready does to the counts. -/
structure DispatchCounts (s s' : AccountExecutionAdmission) (now : ℕ) (verified : Bool) : Prop where
  recovery : s'.recoveryRequired = s.recoveryRequired
  paused : s'.paused now = s.paused now
  readyCancel : s'.readyCancel now = s.readyCancel now
  allHealthy : s'.allHealthy now = s.allHealthy now
  busy : s'.busyFast = s.busyFast + 1
  free : s'.freeFast now + 1 = s.freeFast now
  verifiedFree : s'.verifiedFree now + (if verified then 1 else 0) = s.verifiedFree now
  probation : s'.probationBusyFast now = s.probationBusyFast now + (if verified then 0 else 1)

lemma dispatchCounts_markDispatched (hlane : s.fast[slot]? = some lane)
    (hfresh : s.isFresh now lane = true) (hready : lane.ready = true) (hidle : lane.busy = false) :
    DispatchCounts s (s.markDispatched slot now) now lane.verified := by
  -- The lane after the dispatch: only the two marks differ.
  let sent : LaneState := { lane with busy := true, dispatchedAtNs := some now }
  obtain ⟨s', hs', hfast, hcancel, hcfg, hpause, hrcv⟩ : ∃ s', s.markDispatched slot now = s' ∧
      s'.fast = s.fast.set slot sent ∧ s'.cancel = s.cancel ∧ s'.config = s.config ∧
      s'.pauseUntilNs = s.pauseUntilNs ∧ s'.recoveryRequired = s.recoveryRequired := by
    unfold markDispatched
    simp only [hlane]
    exact ⟨_, rfl, rfl, rfl, rfl, rfl, rfl⟩
  rw [hs']
  have hfresh' : s.isFresh now sent = true := hfresh
  have hready' : sent.ready = true := hready
  have hisFresh : s'.isFresh now = s.isFresh now := by
    funext other
    rw [isFresh, isFresh, hcfg]
  have hreadyFast : s'.readyFast now = s.readyFast now := by
    rw [readyFast, readyFast, hfast, hisFresh]
    exact countP_set_of_eq hlane rfl
  have hcanc : s'.readyCancel now = s.readyCancel now ∧
      s'.eligibleCancel now = s.eligibleCancel now := by
    rw [readyCancel, readyCancel, eligibleCancel, eligibleCancel, hcancel, hisFresh]
    exact ⟨rfl, rfl⟩
  have hall (p : LaneState → Bool) (hp : p sent = p lane) :
      (s.fast.set slot sent).all p = s.fast.all p := by
    have hcount : (s.fast.set slot sent).countP p = s.fast.countP p :=
      countP_set_of_eq hlane hp
    rw [Bool.eq_iff_iff, all_eq_true, all_eq_true, ← countP_eq_length,
      ← countP_eq_length, hcount, length_set]
  refine ⟨hrcv, ?_, hcanc.1, ?_, ?_, ?_, ?_, ?_⟩
  · rw [paused, paused, hreadyFast, hcanc.2, hpause]
  · rw [allHealthy, allHealthy, hreadyFast, hcanc.1, lanes, lanes, hfast, totalCancel,
      totalCancel, hcancel, hisFresh, length_set, all_append, all_append,
      hall _ rfl, hall _ rfl]
  · have hcount := countP_set_add (b := sent) (p := (·.busy)) hlane
    rw [busyFast, busyFast, hfast]
    simpa [hidle, sent] using hcount
  · have hcount := countP_set_add (b := sent)
      (p := fun other => s.isFresh now other && other.ready && !other.busy) hlane
    rw [freeFast, freeFast, hfast, hisFresh]
    simpa [hidle, hfresh, hready, sent] using hcount
  · have hcount := countP_set_add (b := sent)
      (p := fun other => s.isFresh now other && other.ready && other.verified && !other.busy) hlane
    rw [verifiedFree, verifiedFree, hfast, hisFresh]
    simpa [hidle, hfresh, hready, sent] using hcount
  · have hcount := countP_set_add (b := sent)
      (p := fun other => s.isFresh now other && other.ready && !other.verified && other.busy) hlane
    rw [probationBusyFast, probationBusyFast, hfast, hisFresh]
    simp only [hfresh, hready, hfresh', hready', hidle, Bool.and_self, Bool.true_and,
      Bool.and_false, Bool.and_true, sent, Bool.false_eq_true, if_false, Nat.add_zero] at hcount
    rw [hcount]
    cases lane.verified <;> rfl

/-- An allowed dispatch takes exactly one slot. -/
lemma DispatchCounts.capacity_add_one {verified : Bool} (h : DispatchCounts s s' now verified)
    (hcur : s.Current now) (hall : s.admission.allowsPlace = true)
    (hprob : s.recoveryRequired = true ∨ verified = true ∨ s.probationBusyFast now = 0) :
    ((s'.updateGate now).capacity now).2 + 1 = (s.capacity now).2 := by
  obtain ⟨hpaused, hslots⟩ := hcur.not_paused hall
  have hpaused' : (s'.updateGate now).paused now = false := h.paused.trans hpaused
  rw [capacity, if_neg (by simp [hpaused'])]
  cases hrcv : s.recoveryRequired with
  | true =>
    have hrcv' : (s'.updateGate now).recoveryRequired = true := by
      have hsame : s'.recoveryRequired = true := h.recovery.trans hrcv
      simp [updateGate, hsame]
    have hbusy : (s'.updateGate now).busyFast = s.busyFast + 1 := h.busy
    rw [if_pos hrcv', if_neg (by omega)]
    rw [capacity, if_neg (by simp [hpaused]), if_pos hrcv] at hslots ⊢
    split at hslots
    · next hidle => rw [if_pos hidle]
    · cases hslots
  | false =>
    have hrcv' : (s'.updateGate now).recoveryRequired = false := by
      obtain ⟨hready, -⟩ := hcur.gate_open hrcv
      have hsame : s'.recoveryRequired = false := h.recovery.trans hrcv
      have hready' : s'.readyCancel now ≠ 0 := h.readyCancel ▸ hready
      simp [updateGate, hsame, hready', h.paused, hpaused]
    have hfree : (s'.updateGate now).freeFast now + 1 = s.freeFast now := h.free
    have hhealthy : (s'.updateGate now).allHealthy now = s.allHealthy now := h.allHealthy
    rw [if_neg (by simp [hrcv'])]
    conv_rhs => rw [capacity, if_neg (by simp [hpaused]),
      if_neg (by simp [hrcv])]
    rw [hhealthy]
    split
    · exact hfree
    have hver : (s'.updateGate now).verifiedFree now + (if verified then 1 else 0) =
        s.verifiedFree now := h.verifiedFree
    have hbusy : (s'.updateGate now).probationBusyFast now =
        s.probationBusyFast now + (if verified then 0 else 1) := h.probation
    have hle := (s'.updateGate now).verifiedFree_le now
    -- A verified lane leaves the probation slot as it is, an unverified one takes it.
    cases verified with
    | true =>
      simp only [if_true] at hver hbusy
      split <;> split <;> omega
    | false =>
      have hquiet : s.probationBusyFast now = 0 := by simpa [hrcv] using hprob
      simp only [Bool.false_eq_true, if_false] at hver hbusy
      split <;> split <;> omega

/-- While slots are left, a lane can be used. -/
lemma exists_usable (hslots : 0 < (s.capacity now).2) : ∃ lane ∈ s.fast, s.Usable now lane := by
  have hfree (hp : 0 < s.freeFast now) (hprob : ∀ lane ∈ s.fast,
      s.recoveryRequired = true ∨ lane.verified = true ∨ s.probationBusyFast now = 0) :
      ∃ lane ∈ s.fast, s.Usable now lane := by
    obtain ⟨lane, hmem, hlane⟩ := countP_pos_iff.1 hp
    simp only [Bool.and_eq_true, Bool.not_eq_true'] at hlane
    exact ⟨lane, hmem, hlane.1.1, hlane.1.2, hlane.2, hprob lane hmem⟩
  unfold capacity at hslots
  split at hslots
  · cases hslots
  split at hslots
  · next hrcv =>
    split at hslots
    · next hidle => exact hfree hidle.2.2 fun _ _ => .inl hrcv
    · cases hslots
  split at hslots
  · next hhealthy =>
    simp only [allHealthy, Bool.and_eq_true, all_eq_true] at hhealthy
    exact hfree hslots fun lane hmem => .inr (.inl (hhealthy.2 lane hmem))
  · dsimp only at hslots
    split at hslots
    · next hprob => exact hfree (by omega) fun _ _ => .inr (.inr hprob.1)
    · obtain ⟨lane, hmem, hlane⟩ := countP_pos_iff.1 (Nat.add_zero _ ▸ hslots)
      simp only [Bool.and_eq_true, Bool.not_eq_true'] at hlane
      exact ⟨lane, hmem, hlane.1.1.1, hlane.1.1.2, hlane.2, .inr (.inl hlane.1.2)⟩

/-! ## Sequences of dispatches at one time -/

/-- A place that `lanePlaceAllowed` lets pass is sent on a lane. -/
def DispatchAt (now : ℕ) (s : AccountExecutionAdmission) (slot : ℕ)
    (s' : AccountExecutionAdmission) : Prop :=
  (s.lanePlaceAllowed slot now).1 = true ∧
    s' = (s.lanePlaceAllowed slot now).2.placeDispatched slot now

/-- The state that `lanePlaceAllowed` leaves is the refreshed one. -/
lemma lanePlaceAllowed_snd : (s.lanePlaceAllowed slot now).2 = s.refresh now := rfl

lemma lanePlaceAllowed_refresh (h : s.Cached) :
    (s.lanePlaceAllowed slot now).1 = ((s.refresh now).lanePlaceAllowed slot now).1 := by
  unfold lanePlaceAllowed
  rw [(h.current now).refresh]

lemma length_fast_markDispatched : (s.markDispatched slot now).fast.length = s.fast.length := by
  unfold markDispatched
  split
  · rfl
  · exact length_set

lemma fast_refresh : (s.refresh now).fast = s.fast := by
  unfold refresh
  split <;> rfl

lemma length_fast_placeDispatched : (s.placeDispatched slot now).fast.length = s.fast.length := by
  have hplace : s.placeDispatched slot now = (s.markDispatched slot now).refresh now := rfl
  rw [hplace, fast_refresh, length_fast_markDispatched]

/-- An allowed dispatch lowers the advertised number by one. -/
lemma DispatchAt.slots (h : DispatchAt now s slot s') (hcached : s.Cached)
    (hlanes : s.fast.length < 65536) :
    s'.Cached ∧ s'.fast.length = s.fast.length ∧
      (s'.refresh now).admission.availablePlaceSlots + 1 =
        (s.refresh now).admission.availablePlaceSlots := by
  obtain ⟨hall, rfl⟩ := h
  rw [lanePlaceAllowed_snd]
  rw [lanePlaceAllowed_refresh hcached] at hall
  have hcur := hcached.current now
  have hlen : (s.refresh now).fast.length = s.fast.length := by rw [fast_refresh]
  generalize s.refresh now = r at hall hcur hlen ⊢
  obtain ⟨hallows, lane, hlane, husable⟩ := hcur.allowed_iff.1 hall
  have hcounts := dispatchCounts_markDispatched hlane husable.fresh husable.ready husable.idle
  have hmarked : (r.markDispatched slot now).Cached := hcur.cached.apply (.placeDispatched slot now)
  have hnext : r.placeDispatched slot now = (r.markDispatched slot now).recompute now :=
    hmarked.refresh_eq
  have hcur' : (r.placeDispatched slot now).Current now := by
    rw [hnext]
    exact recompute_idem
  refine ⟨hcur'.cached, length_fast_placeDispatched.trans hlen, ?_⟩
  have hcap : (r.placeDispatched slot now).capacity now =
      ((r.markDispatched slot now).updateGate now).capacity now := by
    rw [hnext]
    rfl
  rw [hcur'.refresh, hcur'.slots_eq (by rw [length_fast_placeDispatched]; omega),
    hcur.slots_eq (by omega), hcap]
  exact hcounts.capacity_add_one hcur hallows husable.probation

/-- All slots can be taken. -/
lemma exists_dispatches (hcached : s.Cached) (hlanes : s.fast.length < 65536) :
    ∃ slots s', Trace (DispatchAt now) s slots s' ∧
      slots.length = (s.refresh now).admission.availablePlaceSlots := by
  generalize hn : (s.refresh now).admission.availablePlaceSlots = n
  induction n generalizing s with
  | zero => exact ⟨[], s, .nil s, rfl⟩
  | succ n ih =>
    have hcur := hcached.current now
    have hlen : (s.refresh now).fast.length = s.fast.length := by rw [fast_refresh]
    have hcap := hcur.slots_eq (by omega)
    have hpos : 0 < ((s.refresh now).capacity now).2 := by omega
    obtain ⟨lane, hmem, husable⟩ := exists_usable hpos
    obtain ⟨slot, hlane⟩ := getElem?_of_mem hmem
    have hall : (s.refresh now).admission.allowsPlace = true := by
      have hpaused : (s.refresh now).admission.state ≠ .paused := by
        rw [hcur.state]
        intro hstate
        unfold capacity at hstate hcap
        split at hstate
        · next hpaused =>
          rw [if_pos hpaused, hn] at hcap
          cases hcap
        split at hstate
        · cases hstate
        split at hstate <;> cases hstate
      simp [allowsPlace, hpaused, hn]
    have hfirst : DispatchAt now s slot ((s.refresh now).placeDispatched slot now) := by
      refine ⟨?_, rfl⟩
      rw [lanePlaceAllowed_refresh hcached]
      exact hcur.allowed_iff.2 ⟨hall, lane, hlane, husable⟩
    obtain ⟨hcached', hlen', hslots⟩ := hfirst.slots hcached hlanes
    obtain ⟨slots, s', hrest, hcount⟩ := ih hcached' (by omega) (by omega)
    exact ⟨slot :: slots, s', .cons hfirst hrest, by rw [length_cons, hcount]⟩

end AccountExecutionAdmission

/-! ## Places in flight -/

namespace LaneState

variable {lane a b : LaneState} {config : AdmissionConfig} {o : LaneObservation} {now : ℕ}

/-- A place was dispatched on the lane and is not over. -/
def sent (lane : LaneState) : Bool := lane.dispatchedAtNs.isSome

/-- A lane with a place in flight is busy, and nothing but a dispatch puts one in flight. -/
structure SendMarks (a b : LaneState) : Prop where
  sent : b.sent = true → a.sent = true
  busy : (a.sent = true → a.busy = true) → b.sent = true → b.busy = true

lemma SendMarks.of_eq (hsent : b.dispatchedAtNs = a.dispatchedAtNs) (hbusy : b.busy = a.busy) :
    SendMarks a b := by
  have hsame : b.sent = a.sent := congrArg Option.isSome hsent
  exact ⟨fun h => hsame ▸ h, fun ha h => hbusy ▸ ha (hsame ▸ h)⟩

lemma SendMarks.trans {c : LaneState} (h : SendMarks a b) (h' : SendMarks b c) : SendMarks a c :=
  ⟨h.sent ∘ h'.sent, fun ha => h'.busy (h.busy ha)⟩

lemma sendMarks_of_touched (h : Touched a b) : SendMarks a b := by
  induction h with
  | refl lane => exact .of_eq rfl rfl
  | retire lane => exact .of_eq rfl rfl
  | countFailure lane window => exact .of_eq rfl rfl
  | fault lane => exact .of_eq rfl rfl
  | reserve lane => exact .of_eq rfl rfl
  | release lane => exact ⟨fun h => Bool.noConfusion h, fun _ h => Bool.noConfusion h⟩
  | trans _ _ ih ih' => exact ih.trans ih'

lemma sendMarks_copyBusy : SendMarks lane (lane.copyBusy o) := by
  unfold copyBusy
  split
  · cases hbusy : o.busy with
    | true => exact ⟨id, fun _ _ => rfl⟩
    | false => exact ⟨fun h => Bool.noConfusion h, fun _ h => Bool.noConfusion h⟩
  · exact .of_eq rfl rfl

/-- Of an accepted report only the busy mark reaches a place in flight. -/
lemma sendMarks_accept : SendMarks lane (lane.accept config o now) := by
  have hcop : SendMarks lane ((lane.copyReport o).copyBusy o) := by
    have hrep : SendMarks lane (lane.copyReport o) := .of_eq rfl rfl
    exact hrep.trans sendMarks_copyBusy
  refine hcop.trans (.of_eq ?_ ?_)
  all_goals
    unfold accept
    dsimp only
    split <;> split <;> split <;> first | rfl | (split <;> rfl)

end LaneState

namespace AccountExecutionAdmission

variable {s s' : AccountExecutionAdmission} {now slot : ℕ} {lane : LaneState}

/-- Places dispatched and not over. -/
def placesInFlight (s : AccountExecutionAdmission) : ℕ := s.fast.countP LaneState.sent

/-- Lanes with a place in flight are busy. -/
def SentBusy : AccountExecutionAdmission → Prop :=
  AllLanes fun _ _ lane => lane.sent = true → lane.busy = true

lemma SentBusy.step (h : s.SentBusy) (op : AdmissionOp) : (s.step op).SentBusy := by
  intro role slot b hb
  obtain ⟨a, ha, hstep⟩ := lane_step hb
  have hbusy := h role slot a ha
  cases hstep with
  | touched htouch => exact (sendMarks_of_touched htouch).busy hbusy
  | report o now _ _ htouch =>
    exact (sendMarks_accept.trans (sendMarks_of_touched htouch)).busy hbusy
  | dispatch now _ _ hdisp =>
    subst hdisp
    exact fun _ => rfl

/-- The operation is no dispatch, or an allowed one. -/
def allows (s : AccountExecutionAdmission) : AdmissionOp → Bool
  | .placeDispatched slot now => (s.lanePlaceAllowed slot now).1
  | _ => true

/-- While recovery is required, the places in flight do not grow beyond one. -/
lemma placesInFlight_step (hcached : s.Cached) (hbusy : s.SentBusy)
    (hrcv : s.recoveryRequired = true) {op : AdmissionOp} (hallows : s.allows op = true) :
    (s.step op).placesInFlight ≤ max 1 s.placesInFlight := by
  by_cases hdisp : ∃ slot now, op = .placeDispatched slot now
  · obtain ⟨slot, now, rfl⟩ := hdisp
    have hall : (s.lanePlaceAllowed slot now).1 = true := hallows
    rw [lanePlaceAllowed_refresh hcached] at hall
    have hcur := hcached.current now
    obtain ⟨hplace, lane, hlane, -⟩ := hcur.allowed_iff.1 hall
    have hreq : (s.refresh now).recoveryRequired = true := by
      rw [hcached.refresh_eq]
      simp [recompute, publish, updateGate, hrcv]
    have hidle : s.busyFast = 0 := by
      have hcount := (hcur.idle_of_recovery hplace hreq).1
      rwa [busyFast, fast_refresh] at hcount
    -- Nothing is in flight before, so the dispatched place is the only one.
    have hnone : s.placesInFlight = 0 := by
      refine countP_eq_zero.2 fun other hmem hsent => ?_
      obtain ⟨i, hi⟩ := getElem?_of_mem hmem
      exact countP_eq_zero.1 hidle other hmem (hbusy .fast i other hi hsent)
    have hstep : (s.step (.placeDispatched slot now)).fast = (s.markDispatched slot now).fast :=
      fast_refresh
    rw [fast_refresh] at hlane
    rw [placesInFlight, hstep, markDispatched]
    simp only [hlane]
    have hcount := countP_set_add (p := sent)
      (b := { lane with busy := true, dispatchedAtNs := some now }) hlane
    rw [placesInFlight] at hnone
    split at hcount <;> split at hcount <;> omega
  · refine le_max_of_le_right (countP_le_of_getElem? fun i b hb hsent => ?_)
    have hlane : (s.step op).lane .fast i = some b := hb
    obtain ⟨a, ha, hstep⟩ := lane_step hlane
    refine ⟨a, ha, ?_⟩
    cases hstep with
    | touched htouch => exact (sendMarks_of_touched htouch).sent hsent
    | report o now _ _ htouch =>
      exact (sendMarks_accept.trans (sendMarks_of_touched htouch)).sent hsent
    | dispatch now hop => exact (hdisp ⟨i, now, hop⟩).elim

/-! ## Reachable states -/

/-- The operations lead from a new account to the state. -/
def Reaches (start : AccountExecutionAdmission) (ops : List AdmissionOp)
    (s : AccountExecutionAdmission) : Prop :=
  Trace (fun s op s' => s' = s.step op) start ops s

lemma Reaches.cached {fastSlots cancelSlots start : ℕ} {config : AdmissionConfig}
    {ops : List AdmissionOp} (h : Reaches (withConfig fastSlots cancelSlots start config) ops s) :
    s.Cached ∧ s.SentBusy := by
  refine h.invariant (P := fun r => r.Cached ∧ r.SentBusy) ?_ ⟨cached_of_dirty rfl, ?_⟩
  · rintro r op r' hr rfl
    exact ⟨hr.1.stepped op, hr.2.step op⟩
  · intro role slot lane hlane hsent
    cases lane_withConfig hlane
    cases hsent

/-- Forget that the admission was computed. -/
def forced (s : AccountExecutionAdmission) : AccountExecutionAdmission := { s with dirty := true }

/-- In every reachable state, refreshing from the cache and recomputing from all lanes give the same
account, and so the same admission, gate and probe. -/
theorem refresh_eq_forced {fastSlots cancelSlots start : ℕ} {config : AdmissionConfig}
    {ops : List AdmissionOp}
    (hrun : Reaches (withConfig fastSlots cancelSlots start config) ops s) (now : ℕ) :
    s.refresh now = s.forced.refresh now := by
  have hforced : s.forced.Cached := cached_of_dirty rfl
  -- the recomputation clears the mark, so it does not depend on it
  have hsame : s.forced.recompute now = s.recompute now := rfl
  rw [hrun.cached.1.refresh_eq, hforced.refresh_eq, hsame]

/-- In every reachable state with fewer than 65536 lanes: an allowed place is a safe one, in
recovery the places in flight do not grow beyond one, and the advertised number of slots is the
largest number of allowed dispatches at the time. -/
theorem dispatch_safety {fastSlots cancelSlots start : ℕ} {config : AdmissionConfig}
    {ops : List AdmissionOp} (hrun : Reaches (withConfig fastSlots cancelSlots start config) ops s)
    (hlanes : s.lanes.length < 65536) (now : ℕ) :
    (∀ slot r, s.lanePlaceAllowed slot now = (true, r) →
      ∃ lane, r.fast[slot]? = some lane ∧ r.SafePlace now lane) ∧
    (s.recoveryRequired = true → ∀ op, s.allows op = true →
      (s.step op).placesInFlight ≤ max 1 s.placesInFlight) ∧
    (∀ slots s', Trace (DispatchAt now) s slots s' →
      slots.length ≤ (s.refresh now).admission.availablePlaceSlots) ∧
    (∃ slots s', Trace (DispatchAt now) s slots s' ∧
      slots.length = (s.refresh now).admission.availablePlaceSlots) := by
  obtain ⟨hcached, hbusy⟩ := hrun.cached
  have hfast : s.fast.length < 65536 := by
    rw [lanes, length_append] at hlanes
    omega
  refine ⟨fun slot r hallowed => ?_, fun hrcv op hall => ?_, fun slots s' htrace => ?_,
    exists_dispatches hcached hfast⟩
  · have hr : r = s.refresh now := (congrArg Prod.snd hallowed).symm
    have htrue : (s.lanePlaceAllowed slot now).1 = true := congrArg Prod.fst hallowed
    rw [lanePlaceAllowed_refresh hcached] at htrue
    obtain ⟨hall, lane, hlane, husable⟩ := (hcached.current now).allowed_iff.1 htrue
    rw [hr]
    exact ⟨lane, hlane, (hcached.current now).safePlace hall husable⟩
  · exact placesInFlight_step hcached hbusy hrcv hall
  · -- Every dispatch of the sequence takes a slot.
    clear hrun hbusy hlanes
    induction htrace with
    | nil => exact Nat.zero_le _
    | cons hfirst _ ih =>
      obtain ⟨hcached', hlen, hslots⟩ := hfirst.slots hcached hfast
      have hrest := ih hcached' (by omega)
      rw [length_cons]
      omega

/-- The operations are allowed one after the other. -/
def allowsAll (s : AccountExecutionAdmission) : List AdmissionOp → Bool
  | [] => true
  | op :: ops => s.allows op && (s.step op).allowsAll ops

lemma reaches_foldl (s : AccountExecutionAdmission) (ops : List AdmissionOp) :
    Reaches s ops (ops.foldl step s) := by
  induction ops generalizing s with
  | nil => exact .nil s
  | cons op ops ih => exact .cons rfl (ih (s.step op))

/-- Two fast lanes and a cancel lane report; the first request succeeds, which ends recovery. -/
def warmUp : List AdmissionOp :=
  [.observe .cancel 0 ⟨1, 1, 1, false, none, false, 0, 0, 0, 0, 0, 0, none⟩ 1,
    .observe .fast 0 ⟨1, 1, 1, false, none, false, 0, 0, 0, 0, 0, 0, none⟩ 1,
    .observe .fast 1 ⟨1, 1, 1, false, none, false, 0, 0, 0, 0, 0, 0, none⟩ 1,
    .placeDispatched 0 2,
    .observe .fast 0 ⟨2, 3, 1, false, some ⟨1, 1, 1, .healthy⟩, false, 0, 0, 0, 0, 0, 0, none⟩ 3]

/-- After the warm-up the next refresh takes the cached path. -/
theorem refresh_eq_forced_warm :
    let s := warmUp.foldl step (withConfig 2 1 0 { recoverySuccesses := 1 })
    s.dirty = false ∧ s.admission.observedAtNs ≤ 4 ∧ 4 < s.nextChangeNs ∧
      s.refresh 4 = s.forced.refresh 4 := by
  intro s
  refine ⟨by decide +kernel, by decide +kernel, by decide +kernel, ?_⟩
  exact refresh_eq_forced (reaches_foldl (withConfig 2 1 0 { recoverySuccesses := 1 }) warmUp) 4

/-- After the warm-up one verified lane and one on probation can be used, and both are. -/
theorem dispatch_safety_warm :
    ((warmUp.foldl step (withConfig 2 1 0 { recoverySuccesses := 1 })).refresh
        4).admission.availablePlaceSlots = 2 ∧
    ∃ slots s', Trace (DispatchAt 4)
      (warmUp.foldl step (withConfig 2 1 0 { recoverySuccesses := 1 }))
      slots s' ∧ slots.length = 2 := by
  refine ⟨by decide +kernel, ?_⟩
  have hsafe := dispatch_safety (reaches_foldl (withConfig 2 1 0 { recoverySuccesses := 1 }) warmUp)
    (by decide +kernel) 4
  exact hsafe.2.2.2

/-- Two allowed places are in flight when the loss of the only cancel lane makes recovery
required. -/
theorem places_in_flight_when_recovery_starts :
    let start := withConfig 2 1 0 { recoverySuccesses := 1 }
    let ops := warmUp ++
      [.placeDispatched 0 4, .placeDispatched 1 4, .markDeliveryFault .cancel 0 5]
    start.allowsAll ops = true ∧ (ops.foldl step start).recoveryRequired = true ∧
      (ops.foldl step start).placesInFlight = 2 := by
  decide +kernel

end AccountExecutionAdmission

end HexAgent.Admission
