import HexAgent.Maintenance.Ledger
import HexAgent.ToMathlib.ProRata

/-!
# Attribution of platform redeems

When a market settles, the platform takes the outcome tokens out of the wallet and pays for the
winning ones. No event names the instances that held them. The wallet owner sees only that the
wallet holds fewer tokens, and more cash, than the virtual balances of the instances add up to:
`unallocatedPositions` and `unallocatedCash` are those differences. From them it infers which
conditions were redeemed, burns the tokens of the instances in proportion to their holdings, credits
the observed cash and journals every change.

A condition is considered only when its token pair and its settled outcome are known without doubt.
A payout that the remaining cash does not fund, up to a tolerance, is left alone; a tolerated
shortfall is spread over the winning tokens.

The fields of `SharedAccountState` that are not read or written here are left out, and so are the
log lines and the flags that `recompute_reconciliation_status` derives from other fields. The
journal is keyed by the parts of the formatted operation id, and its sequence number is unbounded.
-/

namespace HexAgent.Redeem

open Account Maintenance

/-! ## The account -/

/-- `TokenInterest`: an instance trades the two tokens of a condition. -/
structure TokenInterest where
  conditionId : String
  upTokenId : String
  downTokenId : String

variable (positions : AList fun _ : String => ℚ)

/-- Quantity of a token in a position map. -/
def quantityOf (token : String) : ℚ :=
  (positions.lookup token).getD 0

def addPositionDelta (token : String) (delta : ℚ) : AList fun _ : String => ℚ :=
  positions.insert token (quantityOf positions token + delta)

/-- The virtual balances of an instance. -/
structure VirtualLedger where
  cash : ℚ
  positions : AList fun _ : String => ℚ
  tokenInterests : AList fun _ : String => TokenInterest

/-- `ExternalAdjustment`, without its time. -/
structure ExternalAdjustment where
  instanceId : String
  cashDelta : ℚ
  positionDeltas : AList fun _ : String => ℚ

/-- The parts of `internal:{label}:{sequence}:{instance_id}`. The text determines them, as an
instance id contains no `:`. -/
structure InternalOperationId where
  label : String
  sequence : ℕ
  instanceId : String
  deriving DecidableEq

/-- The internal adjustments. Every row was written under a sequence number already given out. -/
structure Journal where
  sequence : ℕ
  adjustments : AList fun _ : InternalOperationId => ExternalAdjustment
  sequence_le : ∀ id ∈ adjustments, id.sequence ≤ sequence

/-- `record_internal_external_adjustment`. -/
def Journal.record (j : Journal) (label instanceId : String) (cashDelta : ℚ)
    (positionDeltas : AList fun _ : String => ℚ) : Journal where
  sequence := max (j.sequence + 1) 1
  adjustments := j.adjustments.insert ⟨label, max (j.sequence + 1) 1, instanceId⟩
    ⟨instanceId, cashDelta, positionDeltas⟩
  sequence_le := by
    intro id hid
    rcases (AList.mem_insert j.adjustments).1 hid with rfl | hid
    · exact le_rfl
    · have := j.sequence_le id hid
      omega

/-- Physical deltas of trades that are booked virtually and not yet settled. -/
structure PendingPhysicalDeltas where
  cash : ℚ := 0
  positions : AList fun _ : String => ℚ := ∅

/-- The part of the account that redeem attribution works on. -/
structure WalletState where
  instances : AList fun _ : String => VirtualLedger
  trades : AList fun _ : String => AppliedTrade
  maintenanceOps : AList fun _ : String => MaintenanceOperation
  settledTokenValues : AList fun _ : String => ℚ
  physicalCash : ℚ
  physicalPositions : AList fun _ : String => ℚ
  unallocatedCash : ℚ
  unallocatedPositions : AList fun _ : String => ℚ
  provisionalPositionOwners : AList fun _ : String => String
  journal : Journal

/-- What a call is told about the wallet observation behind it: the unsettled trades, the tokens it
is authoritative for, and the tokens that it saw vanish together with the cash that it saw
arrive. -/
structure Observation where
  pending : Option PendingPhysicalDeltas := none
  authoritativeTokens : Option (List String) := none
  freshWalletRemovals : Option (List String × ℚ) := none

/-- The observation is authoritative for a token. -/
def Observation.Covers (obs : Observation) (token : String) : Prop :=
  ∀ tokens ∈ obs.authoritativeTokens, token ∈ tokens

instance (obs : Observation) (token : String) : Decidable (obs.Covers token) :=
  inferInstanceAs (Decidable (∀ tokens ∈ obs.authoritativeTokens, token ∈ tokens))

def pendingPhysicalDeltasFromTrades (trades : List AppliedTrade) : PendingPhysicalDeltas :=
  trades.foldl (fun pending trade =>
    if !trade.booked || trade.failed then pending
    else
      let token := trade.ownership.tokenId
      let sign : ℚ := if trade.ownership.side = .buy then 1 else -1
      let pending :=
        if trade.physicalBooked then pending
        else
          ⟨pending.cash - sign * trade.ownership.quantity * trade.ownership.price,
            addPositionDelta pending.positions token (sign * trade.ownership.quantity)⟩
      if trade.virtualFeeBooked && !trade.physicalFeeBooked then
        ⟨pending.cash - trade.usdcFee, addPositionDelta pending.positions token (-trade.sharesFee)⟩
      else pending) {}

namespace WalletState

variable (tol : Tolerance) (s : WalletState)

/-- Quantity of a token over all instances. -/
def virtualTotal (token : String) : ℚ :=
  s.instances.sumBy fun _ ledger => quantityOf ledger.positions token

/-- Cash over all instances. -/
def virtualCash : ℚ :=
  s.instances.sumBy fun _ ledger => ledger.cash

/-! ## Residuals -/

variable (pending : PendingPhysicalDeltas)

/-- What the wallet holds of a token beyond the virtual balances, unless it is within tolerance. -/
def residual (token : String) : Option ℚ :=
  let physical := quantityOf s.physicalPositions token
  let expectedVirtual := s.virtualTotal token - quantityOf pending.positions token
  if tol.reconciliation physical expectedVirtual < |physical - expectedVirtual| then
    some (physical - expectedVirtual)
  else none

/-- The provisional owner of a token still holds it. -/
def ownerHolds (token owner : String) : Bool :=
  match s.instances.lookup owner with
  | some ledger => decide (tol.eps < quantityOf ledger.positions token)
  | none => false

/-- Residual cash. -/
def residualCash : ℚ :=
  s.physicalCash - (s.virtualCash - pending.cash)

def nonzeroPositionTokens (positions : AList fun _ : String => ℚ) : List String :=
  (positions.entries.filter fun e => e.2 ≠ 0).map (·.1)

/-- Tokens with a nonzero entry anywhere. -/
def allTokens : List String :=
  nonzeroPositionTokens s.physicalPositions ++
    (s.instances.entries.flatMap fun e => nonzeroPositionTokens e.2.positions) ++
    nonzeroPositionTokens pending.positions

def recomputeReconciliationWithPending : WalletState :=
  { s with
    provisionalPositionOwners := s.provisionalPositionOwners.filterRows (s.ownerHolds tol)
    unallocatedCash := s.residualCash pending
    unallocatedPositions := (s.allTokens pending).foldl
      (fun m token => ((s.residual tol pending token).map (m.insert token)).getD m) ∅ }

def recomputeScopedReconciliationWithPending (authoritativeTokens : List String)
    (pending : PendingPhysicalDeltas) : WalletState :=
  { s with
    provisionalPositionOwners := s.provisionalPositionOwners.filterRows fun token owner =>
      token ∉ authoritativeTokens || s.ownerHolds tol token owner
    unallocatedCash := s.residualCash pending
    unallocatedPositions := authoritativeTokens.foldl
      (fun m token => m.put token (s.residual tol pending token)) s.unallocatedPositions }

/-- The recomputation that belongs to an observation. -/
def recompute (obs : Observation) : WalletState :=
  match obs.pending, obs.authoritativeTokens with
  | some pending, some tokens => s.recomputeScopedReconciliationWithPending tol tokens pending
  | some pending, none => s.recomputeReconciliationWithPending tol pending
  | none, _ => s.recomputeReconciliationWithPending tol
      (pendingPhysicalDeltasFromTrades (s.trades.entries.map (·.2)))

/-! ## Candidates -/

/-- `registered_binary_condition_pairs`, as a list of conditions with one token pair each. -/
def registeredBinaryConditionPairs : List (String × String × String) :=
  (s.instances.entries.flatMap fun e => e.2.tokenInterests.entries.map fun interest =>
      (interest.2.conditionId, interest.2.upTokenId, interest.2.downTokenId)) ++
    (s.maintenanceOps.entries.filter fun e => e.2.status = .confirmed).map fun e =>
      (e.2.conditionId, e.2.upTokenId, e.2.downTokenId)

/-- The different token pairs of a condition. -/
def pairsOf (conditionId : String) : List (String × String) :=
  ((s.registeredBinaryConditionPairs.filter fun e => e.1 = conditionId).map (·.2)).dedup

/-- The different conditions that use a token. -/
def tokenConditions (token : String) : List String :=
  ((s.registeredBinaryConditionPairs.filter fun e => e.2.1 = token ∨ e.2.2 = token).map (·.1)).dedup

/-- The registered conditions, in order. -/
def conditions : List String :=
  (s.registeredBinaryConditionPairs.map (·.1)).dedup.insertionSort (· ≤ ·)

end WalletState

/-- `ConditionRedeemRemoval`: a token that left the wallet, with its settled value. -/
structure Removal where
  tokenId : String
  quantity : ℚ
  value : ℚ

/-- `ConditionRedeemCandidate`. -/
structure Candidate where
  conditionId : String
  removed : List Removal

namespace Candidate

variable (c : Candidate)

def removedTotal : ℚ := (c.removed.map (·.quantity)).sum

def expectedPayout : ℚ := (c.removed.map fun r => r.quantity * r.value).sum

/-- Shortfall of a payout that is still accepted. -/
def tolerance : ℚ := max (2 / 100) (max |c.removedTotal| |c.expectedPayout| * (1 / 1000))

/-- The remaining cash does not fund the payout. -/
def unfunded (tol : Tolerance) (remainingCash : ℚ) : Bool :=
  decide (tol.eps < c.expectedPayout ∧ remainingCash + c.tolerance < c.expectedPayout)

end Candidate

/-- What the analysis of a condition finds: nothing to do, a reason to leave it alone, or the tokens
to burn. -/
inductive Verdict
  | untouched
  | conflictingConditionTokenMapping
  | ambiguousTokenConditionMapping
  | missingSettledOutcome
  | nonBinaryOrNonComplementaryOutcome
  | removedQuantityExceedsVirtualOwnership
  | candidate (removed : List Removal)

namespace WalletState

variable (tol : Tolerance) (obs : Observation) (s : WalletState)

/-- The observation is authoritative for the token, and the wallet lacks some of it. -/
def Negative (token : String) : Prop :=
  quantityOf s.unallocatedPositions token < -tol.eps ∧ obs.Covers token

instance (token : String) : Decidable (s.Negative tol obs token) :=
  inferInstanceAs (Decidable (_ ∧ _))

/-- The removed tokens of a pair, or `none` when the instances do not own that much. -/
def removedLegs : List (String × ℚ) → Option (List Removal)
  | [] => some []
  | (token, value) :: legs =>
    let quantity := -quantityOf s.unallocatedPositions token
    if quantity ≤ tol.eps then removedLegs legs
    else
      let virtualTotal := s.virtualTotal token
      if virtualTotal + tol.reconciliation virtualTotal quantity < quantity then none
      else (removedLegs legs).map (⟨token, quantity, value⟩ :: ·)

/-- One turn of the loop over the conditions. -/
def analyzeCondition (conditionId : String) : Verdict :=
  let pairs := s.pairsOf conditionId
  if ∀ pair ∈ pairs, ¬s.Negative tol obs pair.1 ∧ ¬s.Negative tol obs pair.2 then .untouched
  else
    match pairs with
    | [(up, down)] =>
      if (s.tokenConditions up).length ≠ 1 ∨ (s.tokenConditions down).length ≠ 1 then
        .ambiguousTokenConditionMapping
      else
        match s.settledTokenValues.lookup up, s.settledTokenValues.lookup down with
        | some upValue, some downValue =>
          if (upValue = 1 ∧ downValue = 0) ∨ (upValue = 0 ∧ downValue = 1) then
            match s.removedLegs tol [(up, upValue), (down, downValue)] with
            | some removed => .candidate removed
            | none => .removedQuantityExceedsVirtualOwnership
          else .nonBinaryOrNonComplementaryOutcome
        | _, _ => .missingSettledOutcome
    | _ => .conflictingConditionTokenMapping

/-- The conditions that can be attributed, in order. -/
def candidates : List Candidate :=
  s.conditions.filterMap fun conditionId =>
    match s.analyzeCondition tol obs conditionId with
    | .candidate removed => some ⟨conditionId, removed⟩
    | _ => none

/-- The conditions whose settled outcome is not known, for the caller. -/
def missingSettlementConditions : List String :=
  s.conditions.filter fun conditionId =>
    match s.analyzeCondition tol obs conditionId with
    | .missingSettledOutcome => true
    | _ => false

/-- Candidates that vanished in this very observation go first, when it also brought their cash. -/
def freshFirst (candidates : List Candidate) : List Candidate :=
  match obs.freshWalletRemovals with
  | none => candidates
  | some (freshTokens, newCash) =>
    let fresh (c : Candidate) : Bool :=
      !c.removed.isEmpty && c.removed.all fun leg => leg.tokenId ∈ freshTokens
    let required := ((candidates.filter fresh).map (·.expectedPayout)).sum
    if tol.eps < required ∧ required ≤ newCash + tol.eps then
      candidates.filter fresh ++ candidates.filter fun c => !fresh c
    else candidates

/-- The candidates that the unallocated cash funds. -/
def fundedCandidates : List Candidate :=
  fund (fun remainingCash c => c.unfunded tol remainingCash) Candidate.expectedPayout
    (max s.unallocatedCash 0) (freshFirst tol obs (s.candidates tol obs))

/-! ## The attribution -/

/-- The part of a removal that an instance bears. -/
def burned (r : Removal) (ledger : VirtualLedger) : ℚ :=
  proRata tol.eps (s.virtualTotal r.tokenId) r.quantity (quantityOf ledger.positions r.tokenId)

/-- Burn the share of one instance and credit its payout; dust is not touched. -/
def burnLedger (payoutScale : ℚ) (r : Removal) (ledger : VirtualLedger) : VirtualLedger :=
  if quantityOf ledger.positions r.tokenId ≤ tol.eps then ledger
  else
    { ledger with
      cash := ledger.cash + s.burned tol r ledger * r.value * payoutScale
      positions := addPositionDelta ledger.positions r.tokenId (-s.burned tol r ledger) }

/-- Journal the change of one instance. -/
def recordBurn (payoutScale : ℚ) (label : String) (r : Removal) (j : Journal)
    (e : Σ _ : String, VirtualLedger) : Journal :=
  if quantityOf e.2.positions r.tokenId ≤ tol.eps then j
  else j.record label e.1 (s.burned tol r e.2 * r.value * payoutScale)
    ((∅ : AList fun _ : String => ℚ).insert r.tokenId (-s.burned tol r e.2))

/-- Attribute one removed token to the instances. -/
def applyRemoval (payoutScale : ℚ) (label : String) (s : WalletState) (r : Removal) : WalletState :=
  if s.virtualTotal r.tokenId ≤ tol.eps then s
  else
    { s with
      instances := s.instances.mapRows (s.burnLedger tol payoutScale r)
      journal := s.instances.entries.foldl (s.recordBurn tol payoutScale label r) s.journal }

/-- Attribute the removed tokens of one condition. -/
def applyCandidate (payoutScale : ℚ) (s : WalletState) (c : Candidate) : WalletState :=
  c.removed.foldl (applyRemoval tol payoutScale ("platform_redeem:" ++ c.conditionId)) s

/-- Fraction of the expected payout that the wallet received. -/
def payoutScale (selected : List Candidate) : ℚ :=
  let expectedPayout := (selected.map (·.expectedPayout)).sum
  if tol.eps < expectedPayout then min (max s.unallocatedCash 0) expectedPayout / expectedPayout
  else 1

/-- `try_attribute_binary_redeem_with_diagnostics`: the account, whether something was attributed,
and the conditions that lack a settled outcome. -/
def tryAttributeBinaryRedeem : WalletState × Bool × List String :=
  let selected := s.fundedCandidates tol obs
  let missing := s.missingSettlementConditions tol obs
  if selected.isEmpty then (s, false, missing)
  else
    ((selected.foldl (applyCandidate tol (s.payoutScale tol selected)) s).recompute tol obs,
      true, missing)

end WalletState

end HexAgent.Redeem
