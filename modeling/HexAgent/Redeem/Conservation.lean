import HexAgent.Redeem.Attribution

/-!
# Redeem attribution conserves value

One removed token burns at most the removed quantity over all instances (`totalBurned_le`), and
credits its value for what it burned. The journal moves with the balances (`Journal.total`),
instance by instance. A whole attribution is a sequence of such removals (`applyLegs`), so that the
same holds of it by induction.
-/

namespace HexAgent.Redeem

open Account List AList Option

lemma quantityOf_insert (posns : AList fun _ : String => ℚ) (token token' : String) (q : ℚ) :
    quantityOf (posns.insert token q) token' =
      if token' = token then q else quantityOf posns token' := by
  unfold quantityOf
  rw [lookup_insert_eq_ite]
  split <;> rfl

/-! ## The journal -/

namespace Journal

/-- Sum of a part of the adjustments of an instance. -/
def total (part : ExternalAdjustment → ℚ) (instanceId : String) (j : Journal) : ℚ :=
  j.adjustments.sumBy fun _ adjustment =>
    if adjustment.instanceId = instanceId then part adjustment else 0

end Journal

/-! ## One removal -/

namespace WalletState

variable {token : String}

/-- No instance has a negative position. -/
def NonnegPositions (s : WalletState) : Prop :=
  ∀ i ledger, s.instances.lookup i = some ledger → ∀ token, 0 ≤ quantityOf ledger.positions token

/-- What a removal burns over all instances. -/
def totalBurned (tol : Tolerance) (s : WalletState) (r : Removal) : ℚ :=
  s.instances.sumBy fun _ ledger => s.burned tol r ledger

variable {tol : Tolerance} {s : WalletState} {scale : ℚ} {label : String} {r : Removal}
  {ledger : VirtualLedger} {i : String} (part : ExternalAdjustment → ℚ)

/-- Dust bears nothing. -/
lemma burned_eq_zero (h : quantityOf ledger.positions r.tokenId ≤ tol.eps) :
    s.burned tol r ledger = 0 :=
  if_pos h

variable (scale r ledger)

lemma cash_burnLedger :
    (s.burnLedger tol scale r ledger).cash =
      ledger.cash + s.burned tol r ledger * r.value * scale := by
  unfold burnLedger
  split
  · next h => rw [burned_eq_zero h, zero_mul, zero_mul, add_zero]
  · rfl

lemma quantityOf_burnLedger (token : String) :
    quantityOf (s.burnLedger tol scale r ledger).positions token =
      quantityOf ledger.positions token -
        if token = r.tokenId then s.burned tol r ledger else 0 := by
  unfold burnLedger
  split
  · next h => rw [burned_eq_zero h, ite_self, sub_zero]
  · rw [addPositionDelta, quantityOf_insert]
    split
    · next h => rw [h, ← sub_eq_add_neg]
    · rw [sub_zero]

lemma tokenInterests_burnLedger :
    (s.burnLedger tol scale r ledger).tokenInterests = ledger.tokenInterests := by
  unfold burnLedger
  split <;> rfl

variable {scale r ledger}

namespace NonnegPositions

section

variable (hs : s.NonnegPositions)

include hs

lemma holding_le_virtualTotal (hi : s.instances.lookup i = some ledger) (token : String) :
    quantityOf ledger.positions token ≤ s.virtualTotal token := by
  have hrow e (he : e ∈ s.instances.entries) :
      0 ≤ quantityOf e.2.positions token := hs e.1 e.2 (mem_entries_iff.1 he) token
  have hle := le_sumBy (f := fun (_ : String) (ledger : VirtualLedger) =>
    quantityOf ledger.positions token) hrow hi
  exact hle

lemma virtualTotal_nonneg : 0 ≤ s.virtualTotal token :=
  sumBy_nonneg fun e he => hs e.1 e.2 (mem_entries_iff.1 he) token

/-- The instances together bear at most what was removed. -/
lemma totalBurned_le (heps : 0 ≤ tol.eps) (hr : 0 ≤ r.quantity) :
    s.totalBurned tol r ≤ r.quantity := by
  rcases hs.virtualTotal_nonneg.eq_or_lt with hzero | hpos
  · -- Nobody holds the token.
    have hnone : s.totalBurned tol r = s.instances.sumBy fun _ _ => 0 := by
      refine sumBy_congr fun i ledger hi => ?_
      have hle := hs.holding_le_virtualTotal hi r.tokenId
      rw [← hzero] at hle
      exact if_pos (hle.trans heps)
    rw [hnone, sumBy_zero]
    exact hr
  · exact sum_proRata_le hpos rfl hr fun e he =>
      hs e.1 e.2 (mem_entries_iff.1 he) r.tokenId

variable (scale label r)

/-- When nobody holds more than dust, the shares are empty anyway. -/
lemma applyRemoval_eq :
    applyRemoval tol scale label s r =
      { s with
        instances := s.instances.mapRows (s.burnLedger tol scale r)
        journal := s.instances.entries.foldl (s.recordBurn tol scale label r) s.journal } := by
  unfold applyRemoval
  split
  · next hdust =>
    have hrow : ∀ e ∈ s.instances.entries, quantityOf e.2.positions r.tokenId ≤ tol.eps :=
      fun e he => (hs.holding_le_virtualTotal (mem_entries_iff.1 he) _).trans hdust
    have hins : s.instances.mapRows (s.burnLedger tol scale r) = s.instances :=
      mapRows_eq_self fun i ledger hi =>
        if_pos (hrow ⟨i, ledger⟩ (mem_entries_iff.2 hi))
    have hjournal :
        s.instances.entries.foldl (s.recordBurn tol scale label r) s.journal = s.journal :=
      (foldl_ext _ (fun j _ => j) _ fun j e he => if_pos (hrow e he)).trans
        (foldl_fixed' (fun _ => rfl) _)
    rw [hins, hjournal]
  · rfl

lemma removed (tol : Tolerance) : (applyRemoval tol scale label s r).NonnegPositions := by
  intro i ledger hi token
  rw [hs.applyRemoval_eq, lookup_mapRows] at hi
  obtain ⟨before, hpre, rfl⟩ := map_eq_some_iff.1 hi
  rw [quantityOf_burnLedger]
  split
  · next h =>
    rw [h]
    exact sub_nonneg.2 (proRata_le_held (hs i before hpre _))
  · rw [sub_zero]
    exact hs i before hpre token

lemma virtualCash_applyRemoval :
    (applyRemoval tol scale label s r).virtualCash =
      s.virtualCash + s.totalBurned tol r * (r.value * scale) := by
  have hsum : s.totalBurned tol r * (r.value * scale) =
      s.instances.sumBy fun _ ledger => s.burned tol r ledger * (r.value * scale) :=
    (sum_map_mul_right _ _ _).symm
  rw [hs.applyRemoval_eq, hsum, virtualCash, virtualCash, sumBy_mapRows, ← sumBy_add]
  refine sumBy_congr fun i ledger _ => ?_
  rw [cash_burnLedger, mul_assoc]

lemma virtualTotal_applyRemoval (token : String) :
    (applyRemoval tol scale label s r).virtualTotal token =
      s.virtualTotal token - if token = r.tokenId then s.totalBurned tol r else 0 := by
  have hrows : (applyRemoval tol scale label s r).virtualTotal token =
      s.instances.sumBy fun _ ledger => quantityOf ledger.positions token -
        if token = r.tokenId then s.burned tol r ledger else 0 := by
    rw [hs.applyRemoval_eq, virtualTotal, sumBy_mapRows]
    exact sumBy_congr fun i ledger _ => quantityOf_burnLedger scale r ledger token
  rw [hrows, sumBy_sub]
  split
  · rfl
  · rw [sumBy_zero]
    rfl

end

end NonnegPositions

/-! ## The journal follows the balances -/

/-- Cash of an instance. -/
def cashOf (s : WalletState) (i : String) : ℚ :=
  s.instances.valueAt (fun _ ledger => ledger.cash) i

/-- Position of an instance. -/
def positionOf (s : WalletState) (i token : String) : ℚ :=
  s.instances.valueAt (fun _ ledger => quantityOf ledger.positions token) i

/-- The adjustments journalled between two states are the changes of the balances. -/
structure Journaled (s s' : WalletState) : Prop where
  cash : ∀ i, s'.cashOf i - s.cashOf i =
    s'.journal.total (·.cashDelta) i - s.journal.total (·.cashDelta) i
  position : ∀ i token, s'.positionOf i token - s.positionOf i token =
    s'.journal.total (fun a => quantityOf a.positionDeltas token) i -
      s.journal.total (fun a => quantityOf a.positionDeltas token) i

/-- The adjustment that a removal journals for an instance. -/
def adjustment (tol : Tolerance) (s : WalletState) (scale : ℚ) (r : Removal) (i : String)
    (ledger : VirtualLedger) : ExternalAdjustment where
  instanceId := i
  cashDelta := s.burned tol r ledger * r.value * scale
  positionDeltas := (∅ : AList fun _ : String => ℚ).insert r.tokenId (-s.burned tol r ledger)

lemma total_recordBurn (j : Journal) (i k : String) (ledger : VirtualLedger) :
    (s.recordBurn tol scale label r j ⟨k, ledger⟩).total part i = j.total part i +
      if k = i ∧ tol.eps < quantityOf ledger.positions r.tokenId then
        part (s.adjustment tol scale r k ledger) else 0 := by
  unfold recordBurn
  split
  · next h => rw [if_neg fun hk => absurd hk.2 h.not_gt, add_zero]
  next h =>
  -- The adjustment replaces none, as its sequence number is new.
  have hnew : (⟨label, max (j.sequence + 1) 1, k⟩ : InternalOperationId) ∉ j.adjustments := by
    intro hmem
    have hle : max (j.sequence + 1) 1 ≤ j.sequence := j.sequence_le _ hmem
    omega
  simp only [lt_of_not_ge h, and_true]
  exact sumBy_insert_of_notMem _ _ _ _ hnew

/-- Every instance is journalled once. -/
lemma total_foldl_recordBurn (i : String) (m : AList fun _ => VirtualLedger)
    (j : Journal) :
    (m.entries.foldl (s.recordBurn tol scale label r) j).total part i = j.total part i +
      m.valueAt (fun k ledger => if tol.eps < quantityOf ledger.positions r.tokenId then
        part (s.adjustment tol scale r k ledger) else 0) i := by
  induction m using insertRec generalizing j with
  | H0 => exact (add_zero _).symm
  | IH k ledger m hk ih =>
    rw [entries_insert_of_notMem hk, foldl_cons, ih, total_recordBurn]
    by_cases hi : i = k
    · -- The rest of the instances does not mention this one.
      subst hi
      rw [valueAt_of_lookup_none (lookup_eq_none.2 hk), add_zero,
        valueAt_of_lookup (lookup_insert m)]
      simp
    · rw [if_neg fun h => hi h.1.symm, add_zero]
      refine congrArg _ (valueAt_congr ?_)
      exact (lookup_insert_ne hi).symm

/-- New adjustments carry the label of the removal. -/
lemma label_foldl_recordBurn (entries : List (Σ _ : String, VirtualLedger)) (j : Journal)
    {id : InternalOperationId} {adjustment : ExternalAdjustment}
    (h : (entries.foldl (s.recordBurn tol scale label r) j).adjustments.lookup id =
      some adjustment) : j.adjustments.lookup id = some adjustment ∨ id.label = label := by
  revert h
  refine foldlRecOn (motive := fun k : Journal => k.adjustments.lookup id = some adjustment →
    j.adjustments.lookup id = some adjustment ∨ id.label = label) entries _ .inl
    fun k ih e _ hrow => ?_
  unfold recordBurn at hrow
  split at hrow
  · exact ih hrow
  · unfold Journal.record at hrow
    rw [lookup_insert_eq_ite] at hrow
    split at hrow
    · next heq => exact .inr (congrArg InternalOperationId.label heq)
    · exact ih hrow

namespace Journaled

variable {s₁ s₂ s₃ : WalletState}

lemma refl (s : WalletState) : Journaled s s :=
  ⟨fun _ => by rw [sub_self, sub_self], fun _ _ => by rw [sub_self, sub_self]⟩

lemma trans (h : Journaled s₁ s₂) (h' : Journaled s₂ s₃) : Journaled s₁ s₃ where
  cash i := by linarith [h.cash i, h'.cash i]
  position i token := by linarith [h.position i token, h'.position i token]

lemma applyRemoval (hs : s.NonnegPositions) :
    Journaled s (applyRemoval tol scale label s r) := by
  rw [hs.applyRemoval_eq]
  -- For both parts: dust bears nothing, and for the others the adjustment is the change.
  constructor
  · intro i
    rw [total_foldl_recordBurn, add_sub_cancel_left]
    unfold cashOf valueAt
    rw [lookup_mapRows]
    cases s.instances.lookup i with
    | none => exact sub_self 0
    | some ledger =>
      dsimp only [Option.map_some, Option.elim]
      rw [cash_burnLedger, add_sub_cancel_left]
      split
      · rfl
      · next h => rw [burned_eq_zero (not_lt.1 h), zero_mul, zero_mul]
  · intro i token
    rw [total_foldl_recordBurn, add_sub_cancel_left]
    unfold positionOf valueAt
    rw [lookup_mapRows]
    cases s.instances.lookup i with
    | none => exact sub_self 0
    | some ledger =>
      dsimp only [Option.map_some, Option.elim, adjustment]
      rw [quantityOf_burnLedger, quantityOf_insert, sub_sub_cancel_left]
      by_cases h : tol.eps < quantityOf ledger.positions r.tokenId
      · rw [if_pos h]
        split
        · rfl
        · exact neg_zero
      · rw [if_neg h, burned_eq_zero (not_lt.1 h), ite_self, neg_zero]

end Journaled

/-! ## What a removal leaves alone -/

/-- Both states agree on what an attribution reads and does not change. -/
structure Frame (s s' : WalletState) : Prop where
  pairs : s'.registeredBinaryConditionPairs = s.registeredBinaryConditionPairs
  trades : s'.trades = s.trades
  settledTokenValues : s'.settledTokenValues = s.settledTokenValues
  physicalCash : s'.physicalCash = s.physicalCash
  physicalPositions : s'.physicalPositions = s.physicalPositions
  unallocatedCash : s'.unallocatedCash = s.unallocatedCash
  unallocatedPositions : s'.unallocatedPositions = s.unallocatedPositions

namespace Frame

variable {s₁ s₂ s₃ : WalletState}

lemma refl (s : WalletState) : Frame s s :=
  ⟨rfl, rfl, rfl, rfl, rfl, rfl, rfl⟩

lemma trans (h : Frame s₁ s₂) (h' : Frame s₂ s₃) : Frame s₁ s₃ where
  pairs := h'.pairs.trans h.pairs
  trades := h'.trades.trans h.trades
  settledTokenValues := h'.settledTokenValues.trans h.settledTokenValues
  physicalCash := h'.physicalCash.trans h.physicalCash
  physicalPositions := h'.physicalPositions.trans h.physicalPositions
  unallocatedCash := h'.unallocatedCash.trans h.unallocatedCash
  unallocatedPositions := h'.unallocatedPositions.trans h.unallocatedPositions

lemma applyRemoval (hs : s.NonnegPositions) :
    Frame s (applyRemoval tol scale label s r) := by
  rw [hs.applyRemoval_eq]
  refine ⟨?_, rfl, rfl, rfl, rfl, rfl, rfl⟩
  -- The instances keep their token interests, in the same order.
  unfold registeredBinaryConditionPairs mapRows
  rw [flatMap_map]
  simp only [tokenInterests_burnLedger]

end Frame

/-! ## A sequence of removals -/

/-- Attribute removed tokens one after the other, each under the label of its condition. -/
def applyLegs (tol : Tolerance) (scale : ℚ) (legs : List (String × Removal)) (s : WalletState) :
    WalletState :=
  legs.foldl (fun s leg => applyRemoval tol scale leg.1 s leg.2) s

variable {legs : List (String × Removal)}

namespace NonnegPositions

variable {leg : String × Removal}

lemma removals (hs : s.NonnegPositions) : (applyLegs tol scale legs s).NonnegPositions := by
  exact foldlRecOn legs _ hs fun s hs leg _ => hs.removed scale leg.1 leg.2 tol

/-- What every removal does between two states is done by a sequence of them. -/
lemma applyLegs_rel (R : WalletState → WalletState → Prop) (hrefl : ∀ s, R s s)
    (htrans : ∀ {s₁ s₂ s₃}, R s₁ s₂ → R s₂ s₃ → R s₁ s₃)
    (hstep : ∀ s leg, leg ∈ legs → s.NonnegPositions →
      R s (applyRemoval tol scale leg.1 s leg.2))
    (hs : s.NonnegPositions) : R s (applyLegs tol scale legs s) := by
  refine (foldlRecOn (motive := fun t => R s t ∧ t.NonnegPositions) legs _ ⟨hrefl s, hs⟩
    fun t ⟨hrel, ht⟩ leg hleg => ?_).1
  exact ⟨htrans hrel (hstep t leg hleg ht), ht.removed scale leg.1 leg.2 tol⟩

section

variable (hs : s.NonnegPositions)

include hs

lemma frame_applyLegs : Frame s (applyLegs tol scale legs s) :=
  hs.applyLegs_rel Frame Frame.refl Frame.trans fun _ _ _ hs => Frame.applyRemoval hs

lemma journaled_applyLegs : Journaled s (applyLegs tol scale legs s) :=
  hs.applyLegs_rel Journaled Journaled.refl Journaled.trans fun _ _ _ hs =>
    Journaled.applyRemoval hs

/-- Credits are not negative. -/
lemma cashOf_applyLegs_ge (hscale : 0 ≤ scale)
    (hlegs : ∀ leg ∈ legs, 0 ≤ leg.2.quantity ∧ 0 ≤ leg.2.value) (i : String) :
    s.cashOf i ≤ (applyLegs tol scale legs s).cashOf i := by
  refine hs.applyLegs_rel (fun s s' => s.cashOf i ≤ s'.cashOf i) (fun _ => le_rfl) le_trans ?_
  intro s leg hleg hs
  obtain ⟨hqty, hvalue⟩ := hlegs leg hleg
  rw [hs.applyRemoval_eq]
  unfold cashOf valueAt
  rw [lookup_mapRows]
  cases hi : s.instances.lookup i with
  | none => exact le_rfl
  | some ledger =>
    dsimp only [Option.map_some, Option.elim]
    rw [cash_burnLedger]
    have hburned : 0 ≤ s.burned tol leg.2 ledger :=
      proRata_nonneg hs.virtualTotal_nonneg hqty (hs i ledger hi _)
    have hcredit : 0 ≤ s.burned tol leg.2 ledger * leg.2.value * scale := by positivity
    linarith

/-- Only removed tokens move. -/
lemma positionOf_applyLegs (htok : ∀ leg ∈ legs, leg.2.tokenId ≠ token) :
    (applyLegs tol scale legs s).positionOf i token = s.positionOf i token := by
  refine hs.applyLegs_rel (fun s s' => s'.positionOf i token = s.positionOf i token)
    (fun _ => rfl) (fun h h' => h'.trans h) ?_
  intro s leg hleg hs
  rw [hs.applyRemoval_eq]
  unfold positionOf valueAt
  rw [lookup_mapRows]
  cases hi : s.instances.lookup i with
  | none => rfl
  | some ledger =>
    dsimp only [Option.map_some, Option.elim]
    rw [quantityOf_burnLedger, if_neg (htok leg hleg).symm, sub_zero]

end

/-- A sum that reads one key of a list of different keys. -/
lemma sum_map_ite_key {f : String × Removal → ℚ} (hnd : (legs.map (·.2.tokenId)).Nodup)
    (hleg : leg ∈ legs) :
    (legs.map fun l => if leg.2.tokenId = l.2.tokenId then f l else 0).sum = f leg := by
  induction legs with
  | nil => cases hleg
  | cons l legs ih =>
    obtain ⟨hl, hlegs⟩ := nodup_cons.1 hnd
    rw [map_cons, sum_cons]
    rcases mem_cons.1 hleg with rfl | hleg
    · have hzero : (legs.map fun l => if leg.2.tokenId = l.2.tokenId then f l else 0).sum = 0 := by
        refine sum_eq_zero fun x hx => ?_
        obtain ⟨l', hl', rfl⟩ := mem_map.1 hx
        exact if_neg fun h => hl (mem_map.2 ⟨l', hl', h.symm⟩)
      rw [if_pos rfl, hzero, add_zero]
    · have hne : leg.2.tokenId ≠ l.2.tokenId := fun h =>
        hl (mem_map.2 ⟨leg, hleg, h⟩)
      rw [if_neg hne, zero_add, ih hlegs hleg]

section

variable (hs : s.NonnegPositions)

include hs

/-- A value that moves with what a removal burns moves, over a sequence of removals of different
tokens, with the shares of the first state. -/
lemma measure_applyLegs {v : WalletState → ℚ} (f : String × Removal → ℚ → ℚ)
    (hstep : ∀ s, s.NonnegPositions → ∀ leg,
      v (applyRemoval tol scale leg.1 s leg.2) = v s + f leg (s.totalBurned tol leg.2))
    (hnd : (legs.map (·.2.tokenId)).Nodup) : v (applyLegs tol scale legs s) =
      v s + (legs.map fun leg => f leg (s.totalBurned tol leg.2)).sum := by
  induction legs generalizing s with
  | nil => exact (add_zero _).symm
  | cons leg legs ih =>
    obtain ⟨hleg, hlegs⟩ := nodup_cons.1 hnd
    refine (ih (hs.removed scale leg.1 leg.2 tol) hlegs).trans ?_
    rw [hstep s hs, map_cons, sum_cons, ← add_assoc]
    refine congrArg (_ + sum ·) (map_congr_left fun l hl => congrArg (f l) ?_)
    -- A removal does not change the shares of another token.
    have hne : l.2.tokenId ≠ leg.2.tokenId := fun h => hleg (mem_map.2 ⟨l, hl, h⟩)
    have htot : (applyRemoval tol scale leg.1 s leg.2).virtualTotal l.2.tokenId =
        s.virtualTotal l.2.tokenId := by
      rw [hs.virtualTotal_applyRemoval, if_neg hne, sub_zero]
    unfold totalBurned burned
    rw [htot, hs.applyRemoval_eq, sumBy_mapRows]
    refine sumBy_congr fun i ledger _ => ?_
    rw [quantityOf_burnLedger, if_neg hne, sub_zero]

/-- The credits of a sequence of removals of different tokens. -/
lemma virtualCash_applyLegs (hnd : (legs.map (·.2.tokenId)).Nodup) :
    (applyLegs tol scale legs s).virtualCash = s.virtualCash +
      (legs.map fun leg => s.totalBurned tol leg.2 * (leg.2.value * scale)).sum :=
  hs.measure_applyLegs (fun leg burned => burned * (leg.2.value * scale))
    (fun _ hs _ => hs.virtualCash_applyRemoval _ _ _) hnd

lemma virtualTotal_applyLegs_of_notMem (htok : ∀ leg ∈ legs, leg.2.tokenId ≠ token) :
    (applyLegs tol scale legs s).virtualTotal token = s.virtualTotal token := by
  refine hs.applyLegs_rel (fun s s' => s'.virtualTotal token = s.virtualTotal token)
    (fun _ => rfl) (fun h h' => h'.trans h) ?_
  intro s leg hleg hs
  rw [hs.virtualTotal_applyRemoval, if_neg (htok leg hleg).symm, sub_zero]

lemma virtualTotal_applyLegs_of_mem (hnd : (legs.map (·.2.tokenId)).Nodup) (hleg : leg ∈ legs) :
    (applyLegs tol scale legs s).virtualTotal leg.2.tokenId =
      s.virtualTotal leg.2.tokenId - s.totalBurned tol leg.2 := by
  rw [hs.measure_applyLegs (v := (virtualTotal · leg.2.tokenId))
    (fun l burned => if leg.2.tokenId = l.2.tokenId then -burned else 0)
    (fun s hs l => ?_) hnd, sum_map_ite_key (f := fun l => -s.totalBurned tol l.2) hnd hleg,
    sub_eq_add_neg]
  rw [hs.virtualTotal_applyRemoval, sub_eq_add_neg, apply_ite Neg.neg, neg_zero]

end

end NonnegPositions

end WalletState

end HexAgent.Redeem
