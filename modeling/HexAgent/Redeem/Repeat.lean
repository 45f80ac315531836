import HexAgent.Redeem.Selection

/-!
# A second attribution changes nothing

A call recomputes the residuals after it attributed. When it burned all of the removed quantities
(`FullyHeld`), the tokens it burned have no residual left, every other token keeps its own, and the
unallocated cash is what the selection left over. A condition that it left alone for lack of cash is
then left alone again.

Dust breaks this: an instance with at most `EPS` of a token does not bear its share, but the share
counts in the payout for which cash is set aside, so that a little more cash is left than the
selection thought, and a second call may fund a condition with it.
-/

namespace HexAgent.Redeem

open Account List AList Tolerance WalletState Observation

/-- No tolerance is negative. -/
structure Nonneg (tol : Tolerance) : Prop where
  eps : 0 ≤ tol.eps
  reconciliationUnit : 0 ≤ tol.reconciliationUnit
  reconciliationRelative : 0 ≤ tol.reconciliationRelative

lemma Nonneg.reconciliation {tol : Tolerance} (htol : Nonneg tol) (lhs rhs : ℚ) :
    0 ≤ tol.reconciliation lhs rhs :=
  add_nonneg htol.reconciliationUnit
    (mul_nonneg (le_max_of_le_left (abs_nonneg _)) htol.reconciliationRelative)

/-- A recomputation replaces the residual of the token. -/
def Observation.Refreshes (obs : Observation) (token : String) : Prop :=
  obs.pending = none ∨ obs.Covers token

instance (obs : Observation) (token : String) : Decidable (obs.Refreshes token) :=
  inferInstanceAs (Decidable (_ ∨ _))

namespace WalletState

variable {tol : Tolerance} {obs : Observation} {s s' : WalletState} {token : String}

/-! ## Recomputed residuals -/

/-- The unsettled trades that a recomputation uses. -/
def pendingOf (obs : Observation) (s : WalletState) : PendingPhysicalDeltas :=
  obs.pending.getD (pendingPhysicalDeltasFromTrades (s.trades.entries.map (·.2)))

lemma Frame.pendingOf (h : Frame s s') (obs : Observation) :
    s'.pendingOf obs = s.pendingOf obs := by
  unfold WalletState.pendingOf
  rw [h.trades]

lemma quantityOf_eq_zero {posns : AList fun _ => ℚ}
    (h : token ∉ nonzeroPositionTokens posns) : quantityOf posns token = 0 := by
  unfold quantityOf
  cases hget : posns.lookup token with
  | none => rfl
  | some q =>
    by_contra hne
    refine h (mem_map.2 ⟨⟨token, q⟩, mem_filter.2 ⟨?_, ?_⟩, rfl⟩)
    · exact mem_entries_iff.2 hget
    · exact decide_eq_true hne

/-- A recomputation changes residuals and provisional owners only. -/
lemma recompute_eq (tol : Tolerance) (obs : Observation) (s : WalletState) :
    s.recompute tol obs =
      { s with
        provisionalPositionOwners := (s.recompute tol obs).provisionalPositionOwners
        unallocatedCash := s.residualCash (s.pendingOf obs)
        unallocatedPositions := (s.recompute tol obs).unallocatedPositions } := by
  unfold recompute pendingOf
  cases obs.pending with
  | none => rfl
  | some pending => cases obs.authoritativeTokens <;> rfl

/-! ## The residuals after an attribution -/

/-- The residuals are those that the caller has just recomputed for its observation. -/
def Reconciled (tol : Tolerance) (obs : Observation) (s : WalletState) : Prop :=
  ∃ s₀ : WalletState, s = s₀.recompute tol obs

lemma Reconciled.unallocatedCash (h : s.Reconciled tol obs) :
    s.unallocatedCash = s.residualCash (s.pendingOf obs) := by
  obtain ⟨s₀, rfl⟩ := h
  rw [recompute_eq]
  rfl

/-- Everybody who holds the token counts, and they hold as much as was removed. -/
structure FullyHeld (tol : Tolerance) (s : WalletState) (r : Removal) : Prop where
  quantity_le : r.quantity ≤ s.virtualTotal r.tokenId
  dust : ∀ i ledger, s.instances.lookup i = some ledger →
    quantityOf ledger.positions r.tokenId ≤ tol.eps → quantityOf ledger.positions r.tokenId = 0

lemma FullyHeld.totalBurned {r : Removal} (h : s.FullyHeld tol r) (hs : s.NonnegPositions)
    (hr : 0 < r.quantity) : s.totalBurned tol r = r.quantity :=
  sum_proRata_eq (hr.trans_le h.quantity_le) rfl h.quantity_le
    (fun e he => hs e.1 e.2 (mem_entries_iff.1 he) _)
    fun e he => h.dust e.1 e.2 (mem_entries_iff.1 he)

/-- The balances after the selected removals are attributed. -/
def attributed (tol : Tolerance) (obs : Observation) (s : WalletState) : WalletState :=
  applyLegs tol (s.payoutScale tol (s.fundedCandidates tol obs)) (s.fundedLegs tol obs) s

lemma tryAttributeBinaryRedeem_fst (tol : Tolerance) (obs : Observation) (s : WalletState) :
    (s.tryAttributeBinaryRedeem tol obs).1 =
      if (s.fundedCandidates tol obs).isEmpty then s
      else (s.attributed tol obs).recompute tol obs := by
  unfold tryAttributeBinaryRedeem attributed fundedLegs
  dsimp only
  rw [foldl_applyCandidate]
  split <;> rfl

/-- Expected payout of the selection. -/
def fundedPayout (tol : Tolerance) (obs : Observation) (s : WalletState) : ℚ :=
  ((s.fundedCandidates tol obs).map Candidate.expectedPayout).sum

lemma sum_mul_payoutScale :
    ((s.fundedLegs tol obs).map fun leg => leg.2.quantity *
        (leg.2.value * s.payoutScale tol (s.fundedCandidates tol obs))).sum =
      s.fundedPayout tol obs * s.payoutScale tol (s.fundedCandidates tol obs) := by
  unfold fundedPayout
  rw [← sum_payout_fundedLegs, ← sum_map_mul_right]
  simp only [mul_assoc]

/-! ## The attribution as a whole -/

/-- What an attribution may do to the balances. -/
structure Conserves (s after : WalletState) : Prop where
  credited : after.virtualCash - s.virtualCash ≤ max s.unallocatedCash 0
  burned : ∀ token, s.virtualTotal token - after.virtualTotal token ≤
    max (-quantityOf s.unallocatedPositions token) 0
  positions : after.NonnegPositions
  cash : ∀ i, s.cashOf i ≤ after.cashOf i
  touched : ∀ i token, after.positionOf i token ≠ s.positionOf i token →
    ∃ conditionId up down, s.Attributable conditionId up down ∧ (token = up ∨ token = down)
  labelled : ∀ id adjustment, after.journal.adjustments.lookup id = some adjustment →
    s.journal.adjustments.lookup id = some adjustment ∨
      ∃ conditionId up down, s.Attributable conditionId up down ∧
        id.label = "platform_redeem:" ++ conditionId
  journaled : Journaled s after

lemma Conserves.refl (hs : s.NonnegPositions) : Conserves s s where
  credited := by
    rw [sub_self]
    exact le_max_right _ _
  burned token := by
    rw [sub_self]
    exact le_max_right _ _
  positions := hs
  cash _ := le_rfl
  touched _ _ hne := absurd rfl hne
  labelled _ _ := .inl
  journaled := .refl s

/-- A recomputation does not change balances or journal. -/
lemma Conserves.recompute (h : Conserves s s') : Conserves s (s'.recompute tol obs) := by
  rw [recompute_eq]
  exact ⟨h.credited, h.burned, h.positions, h.cash, h.touched, h.labelled,
    h.journaled.cash, h.journaled.position⟩

section

variable (htol : Nonneg tol)

include htol

/-- A token that occurs nowhere has no residual. -/
lemma residual_eq_none {pending : PendingPhysicalDeltas}
    (h : token ∉ s.allTokens pending) : s.residual tol pending token = none := by
  simp only [allTokens, mem_append, mem_flatMap, not_or, not_exists, not_and] at h
  obtain ⟨⟨hphys, hins⟩, hpend⟩ := h
  have htot : s.virtualTotal token = 0 := by
    rw [← sumBy_zero s.instances]
    exact sumBy_congr fun i ledger hi =>
      quantityOf_eq_zero (hins ⟨i, ledger⟩ (mem_entries_iff.2 hi))
  unfold residual
  rw [htot, quantityOf_eq_zero hphys, quantityOf_eq_zero hpend]
  refine if_neg ?_
  rw [sub_zero, sub_zero, not_lt]
  exact htol.reconciliation 0 0

/-- The residuals after a recomputation. -/
lemma lookup_recompute (obs : Observation) (s : WalletState) (token : String) :
    (s.recompute tol obs).unallocatedPositions.lookup token =
      if obs.Refreshes token then s.residual tol (s.pendingOf obs) token
      else s.unallocatedPositions.lookup token := by
  -- A full recomputation starts from the empty map and visits every token that has a residual.
  have hfull pending :
      (s.recomputeReconciliationWithPending tol pending).unallocatedPositions.lookup token =
        s.residual tol pending token := by
    unfold recomputeReconciliationWithPending
    rw [lookup_foldl_insert_getD]
    split
    · rw [lookup_empty, Option.or_none]
    · next h => rw [residual_eq_none htol h, lookup_empty]
  obtain ⟨pending, tokens, fresh⟩ := obs
  rcases pending with - | pending
  · exact (hfull _).trans (if_pos (.inl rfl)).symm
  rcases tokens with - | tokens
  · exact (hfull pending).trans (if_pos (.inr nofun)).symm
  refine (lookup_foldl_put _ token tokens _).trans ?_
  have hscope : Refreshes ⟨some pending, some tokens, fresh⟩ token ↔
      token ∈ tokens := by
    simp [Refreshes, Covers]
  simp only [hscope]
  rfl

lemma Reconciled.lookup (h : s.Reconciled tol obs) (htok : obs.Refreshes token) :
    s.unallocatedPositions.lookup token = s.residual tol (s.pendingOf obs) token := by
  obtain ⟨s₀, rfl⟩ := h
  rw [lookup_recompute htol, if_pos htok, recompute_eq]
  rfl

lemma fundedPayout_eq_zero_or_lt :
    s.fundedPayout tol obs = 0 ∨ tol.eps < s.fundedPayout tol obs := by
  unfold fundedPayout
  rw [← sum_payout_fundedLegs,
    ← Function.comp_def (fun r : Removal => r.quantity * r.value) Prod.snd, ← map_map]
  refine payout_eq_zero_or_lt htol.eps fun r hr => ?_
  obtain ⟨leg, hleg, rfl⟩ := mem_map.1 hr
  obtain ⟨c, -, -, -, hproven⟩ := exists_of_mem_fundedLegs hleg
  exact ⟨hproven.value, hproven.eps_lt⟩

/-- The scaled payout is the observed cash, up to the expected payout. -/
lemma fundedPayout_mul_payoutScale :
    s.fundedPayout tol obs * s.payoutScale tol (s.fundedCandidates tol obs) =
      min (max s.unallocatedCash 0) (s.fundedPayout tol obs) := by
  unfold payoutScale
  rw [← fundedPayout]
  have hfunded : s.fundedPayout tol obs = 0 ∨ tol.eps < s.fundedPayout tol obs :=
    s.fundedPayout_eq_zero_or_lt htol
  rcases hfunded with hzero | hlt
  · rw [hzero, zero_mul, min_eq_right (le_max_right _ _)]
  · have hpos : s.fundedPayout tol obs ≠ 0 := (htol.eps.trans_lt hlt).ne'
    rw [if_pos hlt]
    exact mul_div_cancel₀ _ hpos

lemma payoutScale_nonneg :
    0 ≤ s.payoutScale tol (s.fundedCandidates tol obs) := by
  unfold payoutScale
  dsimp only
  split
  · next hlt =>
    have hpos := (htol.eps.trans_lt hlt).le
    exact div_nonneg (le_min (le_max_right _ _) hpos) hpos
  · exact zero_le_one

variable (hs : s.NonnegPositions)

include hs

lemma virtualCash_attributed_le :
    (s.attributed tol obs).virtualCash - s.virtualCash ≤ max s.unallocatedCash 0 := by
  have hburned : ((s.fundedLegs tol obs).map fun leg => s.totalBurned tol leg.2 *
      (leg.2.value * s.payoutScale tol (s.fundedCandidates tol obs))).sum ≤
        s.fundedPayout tol obs * s.payoutScale tol (s.fundedCandidates tol obs) := by
    rw [← sum_mul_payoutScale]
    refine sum_le_sum fun leg hleg => ?_
    obtain ⟨c, -, -, -, hproven⟩ := exists_of_mem_fundedLegs hleg
    refine mul_le_mul_of_nonneg_right (hs.totalBurned_le htol.eps ?_) ?_
    · exact (htol.eps.trans_lt hproven.eps_lt).le
    · exact mul_nonneg hproven.value_nonneg (payoutScale_nonneg htol)
  unfold attributed
  rw [hs.virtualCash_applyLegs nodup_tokens, add_sub_cancel_left]
  refine hburned.trans ?_
  rw [fundedPayout_mul_payoutScale htol]
  exact min_le_left _ _

lemma virtualTotal_attributed_ge (token : String) :
    s.virtualTotal token - (s.attributed tol obs).virtualTotal token ≤
      max (-quantityOf s.unallocatedPositions token) 0 := by
  by_cases h : ∃ leg ∈ s.fundedLegs tol obs, leg.2.tokenId = token
  · obtain ⟨leg, hleg, rfl⟩ := h
    obtain ⟨c, -, -, -, hproven⟩ := exists_of_mem_fundedLegs hleg
    unfold attributed
    rw [hs.virtualTotal_applyLegs_of_mem nodup_tokens hleg, sub_sub_cancel, ← hproven.quantity]
    refine le_max_of_le_left (hs.totalBurned_le htol.eps ?_)
    exact (htol.eps.trans_lt hproven.eps_lt).le
  · unfold attributed
    rw [hs.virtualTotal_applyLegs_of_notMem fun leg hleg heq => h ⟨leg, hleg, heq⟩, sub_self]
    exact le_max_right _ _

lemma conserves_attributed :
    Conserves s (s.attributed tol obs) where
  credited := virtualCash_attributed_le htol hs
  burned := virtualTotal_attributed_ge htol hs
  positions := hs.removals
  cash := by
    refine hs.cashOf_applyLegs_ge (payoutScale_nonneg htol) fun leg hleg => ?_
    obtain ⟨c, -, -, -, hproven⟩ := exists_of_mem_fundedLegs hleg
    exact ⟨(htol.eps.trans_lt hproven.eps_lt).le, hproven.value_nonneg⟩
  touched i token hne := by
    -- A token of no leg keeps its positions.
    by_cases h : ∃ leg ∈ s.fundedLegs tol obs, leg.2.tokenId = token
    · obtain ⟨leg, hleg, rfl⟩ := h
      obtain ⟨c, -, -, -, hproven⟩ := exists_of_mem_fundedLegs hleg
      exact ⟨c.conditionId, hproven.pair⟩
    · exact absurd (hs.positionOf_applyLegs (fun leg hleg heq => h ⟨leg, hleg, heq⟩)) hne
  labelled id adjustment hrow := by
    -- Every new adjustment carries the label of one of the removals.
    refine hs.applyLegs_rel (fun s' s'' => s''.journal.adjustments.lookup id = some adjustment →
      s'.journal.adjustments.lookup id = some adjustment ∨ _)
      (fun _ => .inl) (fun h h' hrow => (h' hrow).elim h .inr) ?_ hrow
    intro s' leg hleg hs' hrow
    rw [hs'.applyRemoval_eq] at hrow
    refine (label_foldl_recordBurn _ _ hrow).imp_right fun hlabel => ?_
    obtain ⟨c, -, hleg, -, hproven⟩ := exists_of_mem_fundedLegs hleg
    obtain ⟨up, down, hatt, -⟩ := hproven.pair
    exact ⟨c.conditionId, up, down, hatt, hlabel.trans hleg⟩
  journaled := hs.journaled_applyLegs

/-! ## A fully held attribution -/

variable (hrec : s.Reconciled tol obs)
  (hfull : ∀ leg ∈ s.fundedLegs tol obs, s.FullyHeld tol leg.2) {leg : String × Removal}

include hfull

lemma totalBurned_of_mem (hleg : leg ∈ s.fundedLegs tol obs) :
    s.totalBurned tol leg.2 = leg.2.quantity := by
  obtain ⟨c, -, -, -, hproven⟩ := exists_of_mem_fundedLegs hleg
  exact (hfull leg hleg).totalBurned hs (htol.eps.trans_lt hproven.eps_lt)

/-- All of the observed cash that the selection claims is credited. -/
lemma virtualCash_attributed :
    (s.attributed tol obs).virtualCash =
      s.virtualCash + min (max s.unallocatedCash 0) (s.fundedPayout tol obs) := by
  unfold attributed
  rw [hs.virtualCash_applyLegs nodup_tokens, ← fundedPayout_mul_payoutScale htol,
    ← sum_mul_payoutScale]
  refine congrArg (fun l => s.virtualCash + sum l) (map_congr_left fun leg hleg => ?_)
  rw [totalBurned_of_mem htol hs hfull hleg]

include hrec

/-- The unallocated cash of the next call is what the selection left over. -/
lemma max_unallocatedCash_recompute :
    max ((s.attributed tol obs).recompute tol obs).unallocatedCash 0 =
      remainder Candidate.expectedPayout (max s.unallocatedCash 0)
        (s.fundedCandidates tol obs) := by
  have hframe : Frame s (s.attributed tol obs) := hs.frame_applyLegs
  have hcash : ((s.attributed tol obs).recompute tol obs).unallocatedCash =
      s.unallocatedCash - min (max s.unallocatedCash 0) (s.fundedPayout tol obs) := by
    have hpre : s.unallocatedCash = s.physicalCash - (s.virtualCash - (s.pendingOf obs).cash) :=
      hrec.unallocatedCash
    rw [recompute_eq]
    unfold residualCash
    rw [virtualCash_attributed htol hs hfull, hframe.physicalCash, hframe.pendingOf]
    linarith
  rw [hcash, remainder, ← fundedPayout]
  rcases le_total 0 s.unallocatedCash with hu | hu
  · rw [max_eq_left hu]
    rcases le_total s.unallocatedCash (s.fundedPayout tol obs) with hle | hle
    · rw [min_eq_left hle, sub_self, max_self, max_eq_right (sub_nonpos.2 hle)]
    · rw [min_eq_right hle]
  · have hpayout : 0 ≤ s.fundedPayout tol obs :=
      (s.fundedPayout_eq_zero_or_lt htol).elim Eq.ge fun h => (htol.eps.trans_lt h).le
    rw [max_eq_right hu, min_eq_left hpayout, sub_zero, max_eq_right hu, zero_sub,
      max_eq_right (neg_nonpos.2 hpayout)]

omit hfull in
/-- A token that was not burned keeps its residual. -/
lemma lookup_recompute_of_notMem (htoken : ∀ leg ∈ s.fundedLegs tol obs, leg.2.tokenId ≠ token) :
    ((s.attributed tol obs).recompute tol obs).unallocatedPositions.lookup token =
      s.unallocatedPositions.lookup token := by
  have hframe : Frame s (s.attributed tol obs) := hs.frame_applyLegs
  have htotal : (s.attributed tol obs).virtualTotal token = s.virtualTotal token :=
    hs.virtualTotal_applyLegs_of_notMem htoken
  rw [lookup_recompute htol, hframe.pendingOf]
  split
  · next hrefresh =>
    rw [hrec.lookup htol hrefresh]
    unfold residual
    rw [htotal, hframe.physicalPositions]
  · rw [hframe.unallocatedPositions]

/-- A burned token has no residual left. -/
lemma not_negative_of_mem (hleg : leg ∈ s.fundedLegs tol obs) :
    ¬((s.attributed tol obs).recompute tol obs).Negative tol obs leg.2.tokenId := by
  rintro ⟨hlt, hcov⟩
  have hframe : Frame s (s.attributed tol obs) := hs.frame_applyLegs
  have hrefr : obs.Refreshes leg.2.tokenId := .inr hcov
  obtain ⟨c, -, -, -, hproven⟩ := exists_of_mem_fundedLegs hleg
  have htot : (s.attributed tol obs).virtualTotal leg.2.tokenId =
      s.virtualTotal leg.2.tokenId - leg.2.quantity := by
    rw [← totalBurned_of_mem htol hs hfull hleg]
    exact hs.virtualTotal_applyLegs_of_mem nodup_tokens hleg
  -- The removed quantity was the residual, so the balance of the token is now even.
  have hpre : quantityOf s.physicalPositions leg.2.tokenId -
      (s.virtualTotal leg.2.tokenId - quantityOf (s.pendingOf obs).positions leg.2.tokenId) =
        -leg.2.quantity := by
    have hqty := hproven.quantity
    have hpos := htol.eps.trans_lt hproven.eps_lt
    unfold quantityOf at hqty
    rw [hrec.lookup htol hrefr] at hqty
    unfold residual at hqty
    dsimp only at hqty
    split at hqty
    · rw [hqty, neg_neg]
      rfl
    · rw [Option.getD_none] at hqty
      exact absurd hqty hpos.ne'
  have hnone : (s.attributed tol obs).residual tol (s.pendingOf obs) leg.2.tokenId = none := by
    unfold residual
    rw [htot, hframe.physicalPositions]
    refine if_neg ?_
    have hzero : quantityOf s.physicalPositions leg.2.tokenId - (s.virtualTotal leg.2.tokenId -
        leg.2.quantity - quantityOf (s.pendingOf obs).positions leg.2.tokenId) = 0 := by
      linarith
    rw [hzero, not_lt]
    exact htol.reconciliation _ _
  unfold quantityOf at hlt
  rw [lookup_recompute htol, if_pos hrefr, hframe.pendingOf, hnone] at hlt
  exact absurd (neg_nonpos.2 htol.eps) hlt.not_ge

/-- A condition that is a candidate of the next call was a candidate of this one and was not
selected: its tokens were not burned. -/
lemma candidate_of_recompute {conditionId : String} {removed : List Removal}
    (h : ((s.attributed tol obs).recompute tol obs).analyzeCondition tol obs conditionId =
      .candidate removed) :
    s.analyzeCondition tol obs conditionId = .candidate removed ∧
      ∀ c ∈ s.fundedCandidates tol obs, c.conditionId ≠ conditionId := by
  have hframe : Frame s (s.attributed tol obs) := hs.frame_applyLegs
  obtain ⟨up, down, upValue, downValue, hatt, hnegative, hup, hdown, hrem⟩ :=
    analyzeCondition_eq_candidate_iff.1 h
  have hpairs : ((s.attributed tol obs).recompute tol obs).registeredBinaryConditionPairs =
      s.registeredBinaryConditionPairs := by
    rw [recompute_eq]
    exact hframe.pairs
  have hsett : ((s.attributed tol obs).recompute tol obs).settledTokenValues =
      s.settledTokenValues := by
    rw [recompute_eq]
    exact hframe.settledTokenValues
  have hatt : s.Attributable conditionId up down := by
    obtain ⟨hpair, htup, htdown, hval⟩ := hatt
    simp only [pairsOf, tokenConditions, hpairs, hsett] at hpair htup htdown hval
    exact ⟨hpair, htup, htdown, hval⟩
  -- A lacking token of a selected condition was burned, and then it no longer lacks.
  have hsel : ∀ c ∈ s.fundedCandidates tol obs, c.conditionId ≠ conditionId := by
    rintro c hc rfl
    have hcontra token (htok : token = up ∨ token = down) :
        ¬((s.attributed tol obs).recompute tol obs).Negative tol obs token := by
      intro hneg
      have hburned : ∃ leg ∈ s.fundedLegs tol obs, leg.2.tokenId = token := by
        by_contra hno
        have hkept := lookup_recompute_of_notMem htol hs hrec fun leg hleg heq =>
          hno ⟨leg, hleg, heq⟩
        have hlacks := hneg.1
        unfold quantityOf at hlacks
        rw [hkept] at hlacks
        obtain ⟨r, hr, heq⟩ := exists_mem_removed (mem_fundedCandidates hc) hatt htok hlacks
        exact hno ⟨(_, r), mem_flatMap.2 ⟨c, hc, mem_map.2 ⟨r, hr, rfl⟩⟩, heq⟩
      obtain ⟨leg, hleg, rfl⟩ := hburned
      exact not_negative_of_mem htol hs hrec hfull hleg hneg
    exact hnegative.elim (hcontra up (.inl rfl)) (hcontra down (.inr rfl))
  have hnotMem token (htok : s.tokenConditions token = [conditionId]) :
      ∀ leg ∈ s.fundedLegs tol obs, leg.2.tokenId ≠ token := by
    rintro leg hleg rfl
    obtain ⟨c, hc, -, -, hproven⟩ := exists_of_mem_fundedLegs hleg
    exact hsel c hc (singleton_inj.1 (hproven.tokenConditions.symm.trans htok))
  have hkept token (htok : s.tokenConditions token = [conditionId]) :
      quantityOf ((s.attributed tol obs).recompute tol obs).unallocatedPositions token =
        quantityOf s.unallocatedPositions token := by
    unfold quantityOf
    rw [lookup_recompute_of_notMem htol hs hrec (hnotMem token htok)]
  have htot token (htok : s.tokenConditions token = [conditionId]) :
      ((s.attributed tol obs).recompute tol obs).virtualTotal token = s.virtualTotal token := by
    rw [recompute_eq]
    exact hs.virtualTotal_applyLegs_of_notMem (hnotMem token htok)
  refine ⟨analyzeCondition_eq_candidate_iff.2 ⟨up, down, upValue, downValue, hatt,
    ?_, hsett ▸ hup, hsett ▸ hdown, ?_⟩, hsel⟩
  · unfold Negative at hnegative ⊢
    rwa [hkept up hatt.tokenConditions_up, hkept down hatt.tokenConditions_down] at hnegative
  · -- The analysis reads residuals and holdings of the two tokens only.
    have hup := hatt.tokenConditions_up
    have hdown := hatt.tokenConditions_down
    rw [← hrem]
    simp only [removedLegs, hkept up hup, hkept down hdown, htot up hup, htot down hdown]

/-- The next call selects nothing. -/
lemma fundedCandidates_recompute :
    ((s.attributed tol obs).recompute tol obs).fundedCandidates tol obs = [] := by
  refine fund_eq_nil fun c hc => ?_
  obtain ⟨hcand, hsel⟩ := candidate_of_recompute htol hs hrec hfull
    (mem_candidates (mem_freshFirst.1 hc))
  have hmem : c ∈ freshFirst tol obs (s.candidates tol obs) :=
    mem_freshFirst.2 (mem_candidates_of_analyzeCondition hcand)
  have hcost : ∀ c ∈ freshFirst tol obs (s.candidates tol obs), 0 ≤ c.expectedPayout := by
    intro c hc
    refine sum_nonneg fun x hx => ?_
    obtain ⟨r, hr, rfl⟩ := mem_map.1 hx
    have hproven := proven_of_mem (mem_candidates (mem_freshFirst.1 hc)) hr
    exact mul_nonneg (htol.eps.trans_lt hproven.eps_lt).le hproven.value_nonneg
  rw [max_unallocatedCash_recompute htol hs hrec hfull]
  refine (mem_fund_or_skip_remainder ?_ (le_max_right _ _) hcost hmem).resolve_left
    fun hfunded => hsel c hfunded rfl
  -- Less cash funds no more.
  intro b b' c hle hskip
  obtain ⟨hpays, hshort⟩ := of_decide_eq_true hskip
  exact decide_eq_true ⟨hpays, (add_le_add_left hle _).trans_lt hshort⟩

end

/-- Redeem attribution conserves value. It credits at most the unallocated cash and burns at most
what left the wallet; nothing becomes negative; only tokens of conditions with one token pair and
complementary settled values are touched; and the journal records the changes. If the caller has
just recomputed the residuals and the selected removals are fully held, a second call changes
nothing. -/
theorem redeem_conserves (htol : Nonneg tol) (obs : Observation) (hs : s.NonnegPositions) :
    Conserves s (s.tryAttributeBinaryRedeem tol obs).1 ∧
      (s.Reconciled tol obs →
        (∀ c ∈ s.fundedCandidates tol obs, ∀ r ∈ c.removed, s.FullyHeld tol r) →
        ((s.tryAttributeBinaryRedeem tol obs).1.tryAttributeBinaryRedeem tol obs).1 =
            (s.tryAttributeBinaryRedeem tol obs).1 ∧
          ((s.tryAttributeBinaryRedeem tol obs).1.tryAttributeBinaryRedeem tol obs).2.1 =
          false) := by
  constructor
  · rw [tryAttributeBinaryRedeem_fst]
    split
    · exact .refl hs
    · exact (conserves_attributed htol hs).recompute
  · intro hrec hfull
    have hnoth : ((s.tryAttributeBinaryRedeem tol obs).1.fundedCandidates tol obs) = [] := by
      rw [tryAttributeBinaryRedeem_fst]
      split
      · next hempty => exact isEmpty_iff.1 hempty
      refine fundedCandidates_recompute htol hs hrec fun leg hleg => ?_
      obtain ⟨c, hc, -, hr, -⟩ := exists_of_mem_fundedLegs hleg
      exact hfull c hc leg.2 hr
    generalize (s.tryAttributeBinaryRedeem tol obs).1 = after at hnoth
    unfold tryAttributeBinaryRedeem
    rw [hnoth]
    exact ⟨rfl, rfl⟩

/-! ## Two conditions, and dust -/

lemma nonnegPositions_of_entries
    (h : ∀ e ∈ s.instances.entries, ∀ p ∈ e.2.positions.entries, (0 : ℚ) ≤ p.2) :
    s.NonnegPositions := by
  intro i ledger hi token
  unfold quantityOf
  cases hget : ledger.positions.lookup token with
  | none => exact le_rfl
  | some q =>
    exact h ⟨i, ledger⟩ (mem_entries_iff.2 hi) ⟨token, q⟩ (mem_entries_iff.2 hget)

end WalletState

/-- Two settled conditions whose tokens left the wallet together: ten winning tokens of the first
and five of the second, held by one instance, with the given cash, and a holding of the first by
another instance. -/
def twoRedeems (cash other : ℚ) : WalletState where
  instances := [
    ⟨"a", {
      cash := 0
      positions := [⟨"up1", 10⟩, ⟨"up2", 5⟩].toAList
      tokenInterests := [⟨"c1", ⟨"c1", "up1", "down1"⟩⟩, ⟨"c2", ⟨"c2", "up2", "down2"⟩⟩].toAList }⟩,
    ⟨"b", { cash := 0, positions := [⟨"up1", other⟩].toAList, tokenInterests := ∅ }⟩].toAList
  trades := ∅
  maintenanceOps := ∅
  settledTokenValues := [⟨"up1", 1⟩, ⟨"down1", 0⟩, ⟨"up2", 1⟩, ⟨"down2", 0⟩].toAList
  physicalCash := cash
  physicalPositions := ∅
  unallocatedCash := 0
  unallocatedPositions := ∅
  provisionalPositionOwners := ∅
  journal := ⟨0, ∅, fun id hid => absurd hid (notMem_empty id)⟩

/-- The account as the caller has just recomputed it. -/
def recomputedRedeems (cash other : ℚ) : WalletState :=
  (twoRedeems cash other).recompute Tolerance.source {}

lemma nonneg_source : Nonneg source :=
  ⟨by decide +kernel, by decide +kernel, by decide +kernel⟩

lemma reconciled_recomputedRedeems {cash other : ℚ} :
    (recomputedRedeems cash other).Reconciled source {} :=
  ⟨twoRedeems cash other, rfl⟩

/-- The wallet paid for the first condition only, which both instances held. The call attributes it,
and a second call leaves the other condition alone again. -/
theorem redeem_conserves_twoRedeems :
    (recomputedRedeems 12 2).NonnegPositions ∧
      ((recomputedRedeems 12 2).tryAttributeBinaryRedeem source {}).2.1 = true ∧
      Conserves (recomputedRedeems 12 2)
        ((recomputedRedeems 12 2).tryAttributeBinaryRedeem source {}).1 ∧
      (((recomputedRedeems 12 2).tryAttributeBinaryRedeem source
        {}).1.tryAttributeBinaryRedeem source {}).2.1 = false := by
  have hs : (recomputedRedeems 12 2).NonnegPositions :=
    nonnegPositions_of_entries (by decide +kernel)
  obtain ⟨hcons, hagain⟩ := redeem_conserves nonneg_source {} hs
  refine ⟨hs, by decide +kernel, hcons, (hagain reconciled_recomputedRedeems ?_).2⟩
  have hheld : ∀ c ∈ (recomputedRedeems 12 2).fundedCandidates source {},
      ∀ r ∈ c.removed, r.quantity ≤ (recomputedRedeems 12 2).virtualTotal r.tokenId ∧
        ∀ e ∈ (recomputedRedeems 12 2).instances.entries,
          quantityOf e.2.positions r.tokenId ≤ source.eps →
            quantityOf e.2.positions r.tokenId = 0 := by
    decide +kernel
  exact fun c hc r hr => ⟨(hheld c hc r hr).1, fun i ledger hi =>
    (hheld c hc r hr).2 ⟨i, ledger⟩ (mem_entries_iff.2 hi)⟩

/-- The other instance holds dust of the first token. Its share of the removal is not burned and not
paid, so that the second call finds the cash that the first one found missing for the second
condition. -/
theorem dust_funds_second_call : let s := recomputedRedeems (1498 / 100) (1 / 10 ^ 9)
    let first := (s.tryAttributeBinaryRedeem source {}).1
    let second := (first.tryAttributeBinaryRedeem source {}).1
    s.Reconciled source {} ∧ s.NonnegPositions ∧
      first.cashOf "a" = 10 ∧ first.positionOf "a" "up2" = 5 ∧
      second.cashOf "a" = 1498 / 100 ∧ second.positionOf "a" "up2" = 0 := by
  refine ⟨reconciled_recomputedRedeems,
    nonnegPositions_of_entries (by decide +kernel), ?_⟩
  decide +kernel

end HexAgent.Redeem
