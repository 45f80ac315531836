import Mathlib.Data.List.Basic
import Mathlib.Algebra.Order.Ring.Nat

/-!
# Execution admission of one account

The execution router decides whether a new place request may be sent, and on which connection lane,
from what the owners of the connections report. `AccountExecutionAdmission` is the router's own
state: one `LaneState` for each lane that carries places (`Fast`) and for each that carries cancels
(`Cancel`), the recovery gate of the account, and the published admission.

An owner reports a complete snapshot with a sequence number and cumulative counters, so that a
report may replace an unread one. `AccountExecutionAdmission.observe` accepts a report or not,
updates the lane, and moves the recovery gate: after a failure cluster, a transport reset or the
loss of the cancel lanes the account is in recovery, sends one request at a time, and leaves
recovery after a number of successful probes.

Every operation ends with `refresh`, which recomputes the admission at the given time unless nothing
can have changed since it was last computed. What an operation does before that has a name of its
own (`observeLane`, `faultLane`, …).

Times and counters are the source's unsigned integers with its saturating arithmetic. The diagnostic
fields of a report and the diagnostic copies of the state are left out.
-/

namespace HexAgent.Admission

/-- Rust's `saturating_add` on unsigned integers of the given width. -/
def saturatingAdd (bits a b : ℕ) : ℕ := min (a + b) (2 ^ bits - 1)

/-- Rust's `saturating_mul`. -/
def saturatingMul (bits a b : ℕ) : ℕ := min (a * b) (2 ^ bits - 1)

/-- `u64::MAX`. -/
def u64Max : ℕ := 2 ^ 64 - 1

def slowHttpNs : ℕ := 500000000

/-! ## Lanes -/

structure AdmissionConfig where
  staleAfterNs : ℕ := 3000000000
  failureClusterWindowNs : ℕ := 750000000
  recoveryPauseNs : ℕ := 250000000
  maxRecoveryPauseNs : ℕ := 2000000000
  recoverySuccesses : ℕ := 3

/-- Length of a pause, doubled for each of the last failures up to three times. -/
def AdmissionConfig.backoff (config : AdmissionConfig) (streak : ℕ) : ℕ :=
  min (saturatingMul 64 config.recoveryPauseNs (2 ^ min streak 3)) config.maxRecoveryPauseNs

/-- Roles of connections. -/
inductive Role
  | fast
  | cancel
  | reconcile
  | query
  | gapReplay
  deriving DecidableEq

inductive BusinessHttpOutcome
  | healthy
  | slowResponded
  | failure
  | transportUncertain
  | slowRetired
  deriving DecidableEq

/-- The last completed request of a lane. -/
structure BusinessHttpOutcomeSnapshot where
  attemptId : ℕ
  poolGeneration : ℕ
  elapsedNs : ℕ
  outcome : BusinessHttpOutcome
  deriving DecidableEq

/-- Report of a connection owner. -/
structure LaneObservation where
  sequence : ℕ
  observedAtNs : ℕ
  poolGeneration : ℕ
  quarantined : Bool := false
  business : Option BusinessHttpOutcomeSnapshot := none
  busy : Bool := false
  cumulativeFailures : ℕ := 0
  cumulativeSlow : ℕ := 0
  cumulativeNoResponse : ℕ := 0
  cumulativeSlowRetired : ℕ := 0
  slowRetiredGeneration : ℕ := 0
  noResponseGeneration : ℕ := 0
  noResponsePeer : Option String := none
  deriving DecidableEq

/-- What the router knows of a lane. -/
structure LaneState where
  sequence : ℕ := 0
  observedAtNs : ℕ := 0
  generation : ℕ := 0
  quarantined : Bool := false
  busy : Bool := false
  dispatchedAtNs : Option ℕ := none
  businessAttempt : ℕ := 0
  cumulativeFailures : ℕ := 0
  cumulativeSlow : ℕ := 0
  cumulativeNoResponse : ℕ := 0
  cumulativeSlowRetired : ℕ := 0
  retiredGeneration : Option ℕ := none
  verified : Bool := false
  deliveryFault : Bool := false
  failureWindow : ℕ := 0
  reservedCancel : Bool := false
  businessFailed : Bool := false
  failureEligibleAfterNs : ℕ := 0
  failureStreak : ℕ := 0
  deriving DecidableEq

namespace LaneState

variable (lane : LaneState)

/-- The lane was heard of recently enough. -/
def fresh (now staleAfter : ℕ) : Bool :=
  lane.sequence != 0 && !lane.deliveryFault && decide (lane.observedAtNs ≤ now) &&
    decide (now - lane.observedAtNs ≤ staleAfter)

/-- The lane's generation is usable. -/
def ready : Bool :=
  !lane.quarantined && lane.retiredGeneration != some lane.generation

/-- A lane that may carry cancels. -/
def cancelReady : Bool := lane.ready && !lane.businessFailed

/-- A lane that may at least try to. -/
def cancelProbeEligible (now : ℕ) : Bool :=
  lane.ready && (!lane.businessFailed || decide (lane.failureEligibleAfterNs ≤ now))

/-- Times at which the lane's standing may change by itself. -/
def deadlines (staleAfter : ℕ) : List ℕ :=
  [lane.observedAtNs, saturatingAdd 64 (saturatingAdd 64 lane.observedAtNs staleAfter) 1,
    lane.failureEligibleAfterNs]

/-! ## What a report says, against what was known -/

section

variable (o : LaneObservation)

/-- The report is not newer. -/
def outdated : Bool :=
  decide (o.sequence ≤ lane.sequence ∨ o.poolGeneration < lane.generation)

/-- The report contradicts what was reported before, or itself. -/
def inconsistent (now : ℕ) : Bool :=
  decide (now < o.observedAtNs ∨ o.observedAtNs < lane.observedAtNs ∨
    o.cumulativeFailures < lane.cumulativeFailures ∨ o.cumulativeSlow < lane.cumulativeSlow ∨
    o.cumulativeSlowRetired < lane.cumulativeSlowRetired ∨
    o.cumulativeSlow < o.cumulativeSlowRetired ∨
    (0 < o.cumulativeSlowRetired ∧ o.poolGeneration < o.slowRetiredGeneration) ∨
    o.cumulativeNoResponse < lane.cumulativeNoResponse ∨
    o.cumulativeFailures < o.cumulativeNoResponse ∨
    (0 < o.cumulativeNoResponse ∧ o.poolGeneration < o.noResponseGeneration))

/-- A request without a response on a generation that is not retired yet. -/
def transportReset : Bool :=
  decide (lane.cumulativeNoResponse < o.cumulativeNoResponse) &&
    lane.retiredGeneration.all fun retired => decide (retired < o.noResponseGeneration)

/-- A slow response was counted. -/
def slow : Bool :=
  decide (lane.cumulativeSlow < o.cumulativeSlow)

/-- The business result, if it is new and of the reported generation. -/
def business : Option BusinessHttpOutcomeSnapshot :=
  o.business.filter fun outcome =>
    decide (lane.businessAttempt < outcome.attemptId) && outcome.poolGeneration == o.poolGeneration

/-- A new healthy result below the slow threshold. -/
def healthy : Bool :=
  (lane.business o).any fun outcome =>
    outcome.outcome == .healthy && decide (outcome.elapsedNs < slowHttpNs)

/-- A failure was counted, or is the new business result. -/
def failure : Bool :=
  decide (lane.cumulativeFailures < o.cumulativeFailures) ||
    (lane.business o).any fun outcome =>
      outcome.outcome == .failure || outcome.outcome == .transportUncertain

/-- The new business result is a slow one. -/
def businessSlow : Bool :=
  (lane.business o).any fun outcome =>
    outcome.outcome == .slowResponded || outcome.outcome == .slowRetired ||
      (outcome.outcome == .healthy && decide (slowHttpNs ≤ outcome.elapsedNs))

/-- The report brings bad news. -/
def adverse : Bool :=
  lane.failure o || lane.slow o || lane.businessSlow o

/-- The reported generation was retired for repeated slowness. -/
def slowRetired : Bool :=
  (lane.business o).any (fun outcome => outcome.outcome == .slowRetired) ||
    (decide (lane.cumulativeSlowRetired < o.cumulativeSlowRetired) &&
      o.slowRetiredGeneration == o.poolGeneration)

/-! ## Accepting a report -/

/-- Copy the report; a lane that changes its generation is no longer verified. -/
def copyReport : LaneState :=
  { lane with
    verified := lane.verified && o.poolGeneration == lane.generation
    sequence := o.sequence
    observedAtNs := o.observedAtNs
    generation := o.poolGeneration
    quarantined := o.quarantined
    cumulativeFailures := o.cumulativeFailures
    cumulativeSlow := o.cumulativeSlow
    cumulativeNoResponse := o.cumulativeNoResponse
    cumulativeSlowRetired := o.cumulativeSlowRetired
    deliveryFault := false
    businessAttempt := o.business.elim lane.businessAttempt fun outcome =>
      max lane.businessAttempt outcome.attemptId }

/-- A report that is older than the last dispatch says nothing about it. -/
def copyBusy : LaneState :=
  if lane.dispatchedAtNs.all fun dispatched => decide (dispatched ≤ o.observedAtNs) then
    { lane with
      busy := o.busy
      dispatchedAtNs := if o.busy then lane.dispatchedAtNs else none }
  else lane

end

variable (config : AdmissionConfig)

/-- Isolate a lane that had bad news. -/
def isolate (now : ℕ) : LaneState :=
  { lane with
    verified := false
    businessFailed := true
    failureStreak := saturatingAdd 32 lane.failureStreak 1
    failureEligibleAfterNs := saturatingAdd 64 now (config.backoff lane.failureStreak) }

/-- End the isolation of a lane. -/
def heal : LaneState :=
  { lane with businessFailed := false, failureStreak := 0, failureEligibleAfterNs := 0 }

/-- The lane after an accepted report. -/
def accept (o : LaneObservation) (now : ℕ) : LaneState :=
  let copied := (lane.copyReport o).copyBusy o
  let isolated := if lane.adverse o then copied.isolate config now else copied
  let healed :=
    if lane.healthy o && !lane.slow o && isolated.retiredGeneration != some isolated.generation then
      isolated.heal
    else isolated
  if lane.slowRetired o then { healed with retiredGeneration := some healed.generation }
  else if lane.healthy o && !lane.failure o && !lane.slow o && healed.ready then
    { healed with verified := true }
  else healed

end LaneState

/-! ## The account -/

/-- The request that the account's recovery waits for. -/
structure RecoveryProbe where
  slot : ℕ
  generation : ℕ
  afterAttempt : ℕ
  dispatchedAtNs : ℕ
  deriving DecidableEq

inductive ExecutionAdmissionState
  | healthy
  | degraded
  | recovering
  | paused
  deriving DecidableEq

/-- The published admission: whether new orders are accepted, how many at once, and as of when. The
epoch counts its changes. -/
structure ExecutionAdmission where
  epoch : ℕ
  state : ExecutionAdmissionState
  availablePlaceSlots : ℕ
  observedAtNs : ℕ
  deriving DecidableEq

/-- A strategy may create an order. -/
def ExecutionAdmission.allowsPlace (admission : ExecutionAdmission) : Bool :=
  admission.state != .paused && decide (0 < admission.availablePlaceSlots)

/-- State of the execution router for one account. -/
structure AccountExecutionAdmission where
  config : AdmissionConfig
  fast : List LaneState
  cancel : List LaneState
  admission : ExecutionAdmission
  dirty : Bool := true
  nextChangeNs : ℕ := 0
  probationBusy : Bool := false
  recoveryRequired : Bool := true
  recoverySuccesses : ℕ := 0
  probe : Option RecoveryProbe := none
  pauseUntilNs : ℕ := 0
  failureStreak : ℕ := 0
  failureWindow : ℕ := 0
  failureWindowStartedNs : ℕ := 0
  failureWindowLanes : ℕ := 0
  transportResetPending : Bool := false
  transportResetPeer : Option String := none
  noResponseResets : ℕ := 0

namespace AccountExecutionAdmission

def withConfig (fastSlots cancelSlots now : ℕ) (config : AdmissionConfig) :
    AccountExecutionAdmission where
  config := config
  fast := List.replicate fastSlots {}
  cancel := List.replicate cancelSlots {}
  admission := ⟨0, .paused, 0, now⟩

variable (s : AccountExecutionAdmission)

/-- A lane of the registry. Other roles have none. -/
def lane : Role → ℕ → Option LaneState
  | .fast, slot => s.fast[slot]?
  | .cancel, slot => s.cancel[slot]?
  | _, _ => none

/-- `lane_mut`, as far as the lane is replaced. -/
def setLane (role : Role) (slot : ℕ) (lane : LaneState) : AccountExecutionAdmission :=
  match role with
  | .fast => { s with dirty := true, fast := s.fast.set slot lane }
  | .cancel => { s with dirty := true, cancel := s.cancel.set slot lane }
  | _ => { s with dirty := true }

/-! ## Counting lanes -/

/-- All lanes. -/
def lanes : List LaneState := s.fast ++ s.cancel

variable (now : ℕ)

variable (lane : LaneState)

/-- Freshness under the account's configuration. -/
def isFresh : Bool := lane.fresh now s.config.staleAfterNs

/-- Fast lanes that are fresh and ready. -/
def readyFast : ℕ := s.fast.countP fun lane => s.isFresh now lane && lane.ready

/-- Ordinary cancel lanes that carry cancels. -/
def readyCancel : ℕ :=
  s.cancel.countP fun lane => !lane.reservedCancel && s.isFresh now lane && lane.cancelReady

/-- Ordinary cancel lanes that may at least try. -/
def eligibleCancel : ℕ :=
  s.cancel.countP fun lane =>
    !lane.reservedCancel && s.isFresh now lane && lane.cancelProbeEligible now

/-- Ordinary cancel lanes. -/
def totalCancel : ℕ := s.cancel.countP fun lane => !lane.reservedCancel

/-- Fast lanes with a request in flight. -/
def busyFast : ℕ := s.fast.countP (·.busy)

/-- Unverified lanes in use. -/
def probationBusyFast : ℕ :=
  s.fast.countP fun lane => s.isFresh now lane && lane.ready && !lane.verified && lane.busy

/-- Fast lanes that can be used. -/
def freeFast : ℕ :=
  s.fast.countP fun lane => s.isFresh now lane && lane.ready && !lane.busy

/-- Verified lanes that can be used. -/
def verifiedFree : ℕ :=
  s.fast.countP fun lane => s.isFresh now lane && lane.ready && lane.verified && !lane.busy

/-- No place can be sent at all. -/
def paused : Bool :=
  decide (s.readyFast now = 0 ∨ s.eligibleCancel now = 0 ∨ now < s.pauseUntilNs)

/-- Every lane is in order. -/
def allHealthy : Bool :=
  s.lanes.all (s.isFresh now) && s.readyFast now == s.fast.length &&
    s.readyCancel now == s.totalCancel && s.fast.all (·.verified)

/-! ## The admission -/

/-- The next time at which the admission may change by itself. -/
def nextChange : ℕ :=
  (((s.lanes.flatMap fun lane => lane.deadlines s.config.staleAfterNs) ++ [s.pauseUntilNs]).filter
    (now < ·)).foldl min u64Max

/-- State and place slots, from the gate as it stands. -/
def capacity : ExecutionAdmissionState × ℕ :=
  if s.paused now then (.paused, 0)
  else if s.recoveryRequired then
    (.recovering, if s.busyFast = 0 ∧ s.probe = none ∧ 0 < s.freeFast now then 1 else 0)
  else if s.allHealthy now then (.healthy, s.freeFast now)
  else
    (.degraded, s.verifiedFree now +
      if s.probationBusyFast now = 0 ∧ 0 < s.freeFast now - s.verifiedFree now then 1 else 0)

/-- What the counts do to the recovery gate. -/
def updateGate : AccountExecutionAdmission :=
  { s with
    dirty := false
    nextChangeNs := s.nextChange now
    probationBusy := decide (0 < s.probationBusyFast now)
    recoveryRequired := s.recoveryRequired || s.readyCancel now == 0 || s.paused now
    recoverySuccesses := if s.paused now then 0 else s.recoverySuccesses
    probe := if s.paused now then none else s.probe }

/-- Publish a state and a number of place slots. -/
def publish (capacity : ExecutionAdmissionState × ℕ) : AccountExecutionAdmission :=
  let slots := min capacity.2 (2 ^ 16 - 1)
  let changed := s.admission.state ≠ capacity.1 ∨ s.admission.availablePlaceSlots ≠ slots
  { s with admission := {
      epoch := if changed then saturatingAdd 64 s.admission.epoch 1 else s.admission.epoch
      state := capacity.1
      availablePlaceSlots := slots
      observedAtNs := now } }

/-- `refresh`, when something may have changed. -/
def recompute : AccountExecutionAdmission :=
  (s.updateGate now).publish now ((s.updateGate now).capacity now)

def refresh : AccountExecutionAdmission :=
  if !s.dirty && decide (s.admission.observedAtNs ≤ now) && decide (now < s.nextChangeNs) then
    { s with admission := { s.admission with observedAtNs := now } }
  else s.recompute now

def lanePlaceAllowed (slot now : ℕ) : Bool × AccountExecutionAdmission :=
  let s := s.refresh now
  (s.admission.allowsPlace && (s.fast[slot]?).any fun lane =>
    s.isFresh now lane && lane.ready && !lane.busy &&
      (s.recoveryRequired || lane.verified || !s.probationBusy), s)

/-! ## Failures -/

def pauseForRecovery : AccountExecutionAdmission :=
  { s with
    dirty := true
    failureStreak := saturatingAdd 32 s.failureStreak 1
    pauseUntilNs := saturatingAdd 64 now (s.config.backoff s.failureStreak)
    recoveryRequired := true
    recoverySuccesses := 0
    probe := none }

/-- Retire the generation of a lane. -/
def retireLane : LaneState :=
  { lane with retiredGeneration := some lane.generation, verified := false }

def retireTransportGenerations : AccountExecutionAdmission :=
  { s with
    dirty := true
    transportResetPeer := none
    fast := s.fast.map retireLane
    cancel := s.cancel.map retireLane
    probe := none
    recoverySuccesses := 0
    transportResetPending := true }.pauseForRecovery now

/-- Open a new failure window unless the last one is still running. -/
def openFailureWindow : AccountExecutionAdmission :=
  if s.failureWindow = 0 ∨ s.config.failureClusterWindowNs < now - s.failureWindowStartedNs then
    { s with
      failureWindow := saturatingAdd 64 s.failureWindow 1
      failureWindowStartedNs := now
      failureWindowLanes := 0 }
  else s

variable (role : Role)

/-- Count a lane in the failure window once. -/
def countFailedLane (slot : ℕ) : AccountExecutionAdmission :=
  match s.lane role slot with
  | none => { s with dirty := true }
  | some lane =>
    if lane.failureWindow ≠ s.failureWindow then
      { s.setLane role slot { lane with failureWindow := s.failureWindow } with
        failureWindowLanes := s.failureWindowLanes + 1 }
    else { s with dirty := true }

/-- `note_failure`: two lanes failing within one window pause the account. -/
def noteFailure (slot now : ℕ) : AccountExecutionAdmission :=
  let s := (s.openFailureWindow now).countFailedLane role slot
  if s.failureWindowLanes = 2 then
    { s with failureWindowLanes := s.failureWindowLanes + 1 }.pauseForRecovery now
  else s

/-! ## Operations -/

/-- The report belongs to the probe's lane and is not older than its dispatch. -/
def RecoveryProbe.concerns (probe : RecoveryProbe) (role : Role) (slot : ℕ) (o : LaneObservation) :
    Bool :=
  role == .fast && slot == probe.slot && decide (probe.dispatchedAtNs ≤ o.observedAtNs)

/-- The report is a fresh success of the probe. -/
def RecoveryProbe.succeeds (probe : RecoveryProbe) (lane : LaneState) (o : LaneObservation) :
    Bool :=
  lane.healthy o && !lane.failure o && !lane.slow o && o.poolGeneration == probe.generation &&
    (lane.business o).any fun outcome => decide (probe.afterAttempt < outcome.attemptId)

/-- Release the probe once its lane reports that it is idle, and count a success. -/
def settleProbe (slot : ℕ) (lane : LaneState) (o : LaneObservation) : AccountExecutionAdmission :=
  match s.probe with
  | none => s
  | some probe =>
    if RecoveryProbe.concerns probe role slot o && !o.busy then
      { s with
        probe := none
        recoverySuccesses :=
          if RecoveryProbe.succeeds probe lane o then saturatingAdd 8 s.recoverySuccesses 1
          else s.recoverySuccesses }
    else s

/-- Leave recovery after enough successes, if a cancel lane is there. -/
def leaveRecovery : AccountExecutionAdmission :=
  if max s.config.recoverySuccesses 1 ≤ s.recoverySuccesses ∧ 0 < s.readyCancel now then
    { s with recoveryRequired := false, failureStreak := 0 }
  else s

/-- A request without a response resets the transport of the whole account. -/
def resetTransport (o : LaneObservation) (now : ℕ) : AccountExecutionAdmission :=
  if lane.transportReset o then
    { { s with noResponseResets := saturatingAdd 64 s.noResponseResets 1
        }.retireTransportGenerations now with
      transportResetPeer := o.noResponsePeer }
  else s

/-- What an accepted report does to the account. -/
def acceptObservation (slot : ℕ) (lane : LaneState) (o : LaneObservation) (now : ℕ) :
    AccountExecutionAdmission :=
  let failedProbe := lane.failure o &&
    s.probe.any fun probe => RecoveryProbe.concerns probe role slot o
  let reset := (s.setLane role slot (lane.accept s.config o now)).resetTransport lane o now
  let noted := if lane.failure o then reset.noteFailure role slot now else reset
  let backedOff :=
    if failedProbe ∧ noted.pauseUntilNs ≤ now then noted.pauseForRecovery now else noted
  let cleared :=
    if lane.adverse o then { backedOff with recoverySuccesses := 0, probe := none } else backedOff
  (cleared.settleProbe role slot lane o).leaveRecovery now

/-- `mark_delivery_fault`, without its refresh. -/
def faultLane (slot : ℕ) : AccountExecutionAdmission :=
  match s.lane role slot with
  | none => { s with dirty := true }
  | some lane => s.setLane role slot { lane with deliveryFault := true }

/-- `observe`, without its refresh. -/
def observeLane (slot : ℕ) (o : LaneObservation) (now : ℕ) : AccountExecutionAdmission :=
  match s.lane role slot with
  | none => s
  | some lane =>
    if lane.outdated o then s
    else if lane.inconsistent o now then s.faultLane role slot
    else s.acceptObservation role slot lane o now

/-- `reserve_cancel_slot`, without its refresh. -/
def reserveLane (slot : ℕ) : AccountExecutionAdmission :=
  { s with dirty := true
           cancel := s.cancel.modify slot fun lane => { lane with reservedCancel := true } }

/-- `place_dispatched`, without its refresh. -/
def markDispatched (slot now : ℕ) : AccountExecutionAdmission :=
  match s.fast[slot]? with
  | none => { s with dirty := true }
  | some lane =>
    { s with
      dirty := true
      probe :=
        if s.recoveryRequired ∧ s.probe = none then
          some ⟨slot, lane.generation, lane.businessAttempt, now⟩
        else s.probe
      fast := s.fast.set slot { lane with busy := true, dispatchedAtNs := some now } }

/-- `place_not_sent`, without its refresh. -/
def markNotSent (slot : ℕ) : AccountExecutionAdmission :=
  { s with
    dirty := true
    fast := s.fast.modify slot fun lane => { lane with busy := false, dispatchedAtNs := none }
    probe := s.probe.filter fun probe => probe.slot != slot }

end AccountExecutionAdmission

/-- One operation on the admission. -/
inductive AdmissionOp
  | observe (role : Role) (slot : ℕ) (o : LaneObservation) (now : ℕ)
  | markDeliveryFault (role : Role) (slot now : ℕ)
  | retireTransportGenerations (now : ℕ)
  | reserveCancelSlot (slot : ℕ)
  | placeDispatched (slot now : ℕ)
  | placeNotSent (slot now : ℕ)
  | refresh (now : ℕ)

namespace AccountExecutionAdmission

variable (s : AccountExecutionAdmission)

/-- The operation up to its refresh. -/
def apply : AdmissionOp → AccountExecutionAdmission
  | .observe role slot o now => s.observeLane role slot o now
  | .markDeliveryFault role slot _ => s.faultLane role slot
  | .retireTransportGenerations now => s.retireTransportGenerations now
  | .reserveCancelSlot slot => s.reserveLane slot
  | .placeDispatched slot now => s.markDispatched slot now
  | .placeNotSent slot _ => s.markNotSent slot
  | .refresh _ => s

/-- The time at which an operation refreshes the admission, if it does. -/
def refreshTime : AdmissionOp → Option ℕ
  | .observe _ _ _ now => some now
  | .markDeliveryFault _ _ now => some now
  | .retireTransportGenerations _ => none
  | .reserveCancelSlot _ => some s.admission.observedAtNs
  | .placeDispatched _ now => some now
  | .placeNotSent _ now => some now
  | .refresh now => some now

/-- One operation. -/
def step (op : AdmissionOp) : AccountExecutionAdmission :=
  match s.refreshTime op with
  | none => s.apply op
  | some now => (s.apply op).refresh now

def observe (role : Role) (slot : ℕ) (o : LaneObservation) (now : ℕ) : AccountExecutionAdmission :=
  s.step (.observe role slot o now)

def placeDispatched (slot now : ℕ) : AccountExecutionAdmission :=
  s.step (.placeDispatched slot now)

end AccountExecutionAdmission

end HexAgent.Admission
