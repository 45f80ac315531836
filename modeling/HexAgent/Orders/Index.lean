import HexAgent.Orders.Manager

/-!
# Indexes of the local orders

The two indexes of an `OrderManager` follow the table of orders through every operation. All
operations but the cancel walk write one order and reindex it; the walk takes the ids of the index
out and puts those back that can still be cancelled.
-/

namespace HexAgent.Orders

open Finset List

namespace OrderManager

variable (row : Option LocalOrder) (status : LocalOrderStatus) {m : OrderManager}
  {coid other : String}

/-! ## Statuses -/

lemma statusOf_eq_some {status : LocalOrderStatus} :
    m.statusOf coid = some status ↔ ∃ order, m.orders.lookup coid = some order ∧
      order.status = status :=
  Option.map_eq_some_iff

lemma statusOf_setRow :
    (m.setRow coid row).statusOf other =
      if other = coid then row.map (·.status) else m.statusOf other := by
  by_cases h : other = coid
  · subst h
    cases row <;> simp [statusOf, setRow]
  · cases row <;> simp [statusOf, setRow, h]

lemma statusOf_setStatus :
    (m.setStatus coid status).statusOf other =
      if other = coid then (m.statusOf coid).map fun _ => status else m.statusOf other := by
  unfold setStatus
  split
  · next order hord =>
    rw [statusOf_setRow]
    simp [statusOf, hord]
  next hnone =>
  split
  · next h =>
    subst h
    simp [statusOf, hnone]
  · rfl

@[simp] lemma statusOf_dropIntent : (m.dropIntent coid).statusOf other = m.statusOf other := rfl

@[simp] lemma statusOf_reindexOrder : (m.reindexOrder coid).statusOf other = m.statusOf other := by
  unfold reindexOrder
  split <;> rfl

@[simp] lemma cancelIntents_setRow : (m.setRow coid row).cancelIntents = m.cancelIntents := by
  cases row <;> rfl

@[simp] lemma cancelIntents_setStatus :
    (m.setStatus coid status).cancelIntents = m.cancelIntents := by
  unfold setStatus
  split
  · exact cancelIntents_setRow _
  · rfl

@[simp] lemma cancelIntents_reindexOrder :
    (m.reindexOrder coid).cancelIntents = m.cancelIntents := by
  unfold reindexOrder
  split <;> rfl

@[simp] lemma cancelableOrderIds_setStatus :
    (m.setStatus coid status).cancelableOrderIds = m.cancelableOrderIds := by
  unfold setStatus
  split <;> rfl

@[simp] lemma liveOrderIds_setStatus : (m.setStatus coid status).liveOrderIds = m.liveOrderIds := by
  unfold setStatus
  split <;> rfl

/-! ## Indexes -/

/-- Both indexes agree with the table at one id. -/
def IndexedAt (m : OrderManager) (coid : String) : Prop :=
  (coid ∈ m.cancelableOrderIds ↔ ∃ status ∈ m.statusOf coid, status.cancelable) ∧
    (coid ∈ m.liveOrderIds ↔ ∃ status ∈ m.statusOf coid, status.live)

/-- The cancelable index holds the submitted and active orders, the live index also those that are
being cancelled. -/
def Indexed (m : OrderManager) : Prop := ∀ coid, m.IndexedAt coid

/-- The indexes agree with the table at all other ids. -/
def IndexedOff (m : OrderManager) (coid : String) :
    Prop := ∀ other, other ≠ coid → m.IndexedAt other

lemma Indexed.off (h : m.Indexed) (coid : String) : m.IndexedOff coid := fun other _ => h other

section

variable (h : m.IndexedOff coid)
include h

/-- Reindexing an order repairs the indexes at its id. -/
lemma IndexedOff.reindexOrder : (m.reindexOrder coid).Indexed := by
  intro other
  by_cases hne : other = coid
  · subst hne
    unfold OrderManager.reindexOrder IndexedAt statusOf
    cases hrow : m.orders.lookup other with
    | none => simp [hrow]
    | some order =>
      simp only [hrow, Option.map_some, Option.mem_some_iff, exists_eq_left']
      constructor
      · cases order.status.cancelable <;> simp
      · cases order.status.live <;> simp
  · have hsame := h other hne
    unfold IndexedAt at hsame ⊢
    rw [statusOf_reindexOrder, ← hsame.1, ← hsame.2]
    unfold OrderManager.reindexOrder
    split
    · simp [hne]
    · constructor <;> dsimp only <;> split <;> simp [hne]

lemma IndexedOff.setRow (row : Option LocalOrder) : (m.setRow coid row).IndexedOff coid := by
  intro other hne
  have hsame := h other hne
  unfold IndexedAt at hsame ⊢
  rw [statusOf_setRow, if_neg hne]
  cases row <;> exact hsame

lemma IndexedOff.setStatus (status : LocalOrderStatus) :
    (m.setStatus coid status).IndexedOff coid := by
  unfold OrderManager.setStatus
  split
  · exact h.setRow _
  · exact h

lemma IndexedOff.dropIntent : (m.dropIntent coid).IndexedOff coid := h

end

lemma IndexedOff.flushCancelIntent {u : OrderUpdate} (h : m.IndexedOff u.clientOrderId) :
    (m.flushCancelIntent u).1.IndexedOff u.clientOrderId := by
  unfold OrderManager.flushCancelIntent
  split
  · dsimp only
    split
    · exact h.dropIntent
    · exact (h.dropIntent.setStatus _).reindexOrder.off _
  · exact h

lemma Indexed.onOrderUpdate (h : m.Indexed) (u : OrderUpdate) : (m.onOrderUpdate u).1.Indexed := by
  unfold OrderManager.onOrderUpdate
  split
  · exact h
  next order hord =>
  have hrow := (h.off u.clientOrderId).setRow (order.onUpdate u).1
  refine (IndexedOff.flushCancelIntent ?_).reindexOrder
  -- The row is written and its intent dropped before the first reindexing.
  split
  · exact hrow.dropIntent.reindexOrder.off _
  · exact hrow.reindexOrder.off _

lemma Indexed.onSignalDropped (h : m.Indexed) (coid : String) :
    (m.onSignalDropped coid).1.Indexed := by
  unfold OrderManager.onSignalDropped
  split
  · exact ((h.off coid).setRow none).dropIntent.reindexOrder
  · exact ((h.off coid).setStatus .active).reindexOrder
  · exact (h.off coid).reindexOrder

lemma Indexed.requestCancel (h : m.Indexed) (coid : String) (ts : ℕ) :
    (m.requestCancel coid ts).1.Indexed := by
  unfold OrderManager.requestCancel
  split
  · exact h
  · exact ((h.off coid).dropIntent.setStatus .cancelling).reindexOrder
  · exact h

/-! ### The cancel walk -/

/-- The indexes agree with the table once the ids that are still to be visited are put back. -/
def IndexedWith (m : OrderManager) (pending : List String) : Prop :=
  ∀ coid,
    (coid ∈ m.cancelableOrderIds ∨ coid ∈ pending ↔ ∃ status ∈ m.statusOf coid, status.cancelable) ∧
      (coid ∈ m.liveOrderIds ↔ ∃ status ∈ m.statusOf coid, status.live)

lemma IndexedWith.indexed (h : m.IndexedWith []) : m.Indexed := by
  intro coid
  have hcoid := h coid
  simpa only [IndexedAt, not_mem_nil, or_false] using hcoid

variable {pending : List String}

/-- Ids that are not visited can be put back. -/
lemma IndexedWith.restore (h : m.IndexedWith pending) :
    Indexed { m with cancelableOrderIds := m.cancelableOrderIds ∪ pending.toFinset } := by
  intro coid
  have hcoid := h coid
  refine ⟨Iff.trans ?_ hcoid.1, hcoid.2⟩
  rw [mem_union, mem_toFinset]

section

variable (h : m.IndexedWith (coid :: pending))
include h

/-- The visited id goes back into the index. -/
lemma IndexedWith.keep :
    IndexedWith { m with cancelableOrderIds := insert coid m.cancelableOrderIds } pending := by
  intro other
  have hne := h other
  refine ⟨Iff.trans ?_ hne.1, hne.2⟩
  rw [mem_insert, List.mem_cons, or_assoc, or_left_comm]

/-- The visited id is not cancelable, and stays out of the index. -/
lemma IndexedWith.skip
    (hst : ¬∃ status ∈ m.statusOf coid, status.cancelable) : m.IndexedWith pending := by
  intro other
  have hne := h other
  refine ⟨Iff.trans ⟨Or.imp_right (mem_cons_of_mem coid), ?_⟩ hne.1, hne.2⟩
  rintro (hmem | hmem)
  · exact Or.inl hmem
  · rcases mem_cons.1 hmem with rfl | hrest
    · exact absurd (hne.1.1 (Or.inr hmem)) hst
    · exact Or.inr hrest

/-- The visited order is now being cancelled, and stays out of the index. -/
lemma IndexedWith.cancelling (hfresh : coid ∉ m.cancelableOrderIds) (hpend : coid ∉ pending)
    (hst : m.statusOf coid = some .active) :
    ((m.dropIntent coid).setStatus coid .cancelling).IndexedWith pending := by
  intro other
  have hother := h other
  rw [statusOf_setStatus, cancelableOrderIds_setStatus, liveOrderIds_setStatus]
  by_cases hne : other = coid
  · subst hne
    rw [if_pos rfl, statusOf_dropIntent, hst]
    refine ⟨iff_of_false (not_or_intro hfresh hpend) ?_, iff_of_true ?_ ?_⟩
    · rintro ⟨status, hmem, hcanc⟩
      cases hmem
      cases hcanc
    · exact hother.2.2 ⟨.active, hst, rfl⟩
    · exact ⟨.cancelling, rfl, rfl⟩
  · rw [if_neg hne]
    refine ⟨Iff.trans (or_congr_right ?_) hother.1, hother.2⟩
    rw [List.mem_cons, or_iff_right hne]

end

/-- The walk over the ids of the index leaves the indexes in agreement with the table. -/
lemma indexed_cancelPending (side : Side) (ts : ℕ) (pending : List String)
    (hnd : pending.Nodup) (room : Option ℕ) (m : OrderManager) (h : m.IndexedWith pending)
    (hfresh : ∀ coid ∈ pending, coid ∉ m.cancelableOrderIds) :
    (cancelPending side ts room m pending).manager.Indexed := by
  induction pending generalizing room m with
  | nil => exact h.indexed
  | cons coid pending ih =>
    obtain ⟨hcoid, hrest⟩ := nodup_cons.1 hnd
    have hfresh' : ∀ other ∈ pending, other ∉ m.cancelableOrderIds := fun other hne =>
      hfresh other (.tail _ hne)
    have hkept : ∀ other ∈ pending, other ∉ insert coid m.cancelableOrderIds := by
      intro other hne hmem
      rcases mem_insert.1 hmem with rfl | hmem
      · exact hcoid hne
      · exact hfresh' other hne hmem
    have hdrop := fun hact =>
      h.cancelling (hfresh coid (.head _)) hcoid hact
    unfold cancelPending
    split
    · next hnone =>
      refine ih hrest _ _ (h.skip ?_) hfresh'
      simp [statusOf, hnone]
    next order hord =>
    have hst : m.statusOf coid = some order.status := by simp [statusOf, hord]
    split
    · exact ih hrest _ _ h.keep hkept
    split
    · exact ih hrest _ _ h.keep hkept
    · next hact =>
      rw [hact] at hst
      split
      · exact (hdrop hst).restore
      · refine ih hrest _ _ (hdrop hst) ?_
        rwa [cancelableOrderIds_setStatus]
    next hsubm hact =>
    refine ih hrest _ _ (h.skip ?_) hfresh'
    -- Neither submitted nor active.
    rw [hst]
    cases hcase : order.status <;> simp_all [LocalOrderStatus.cancelable]

lemma Indexed.cancelOrdersBySideWith (h : m.Indexed) (side : Side) (ts : ℕ)
    (room : Option ℕ) : (m.cancelOrdersBySideWith side ts room).manager.Indexed := by
  unfold OrderManager.cancelOrdersBySideWith
  split
  · refine indexed_cancelPending side ts _ (sort_nodup _ _) room _ ?_
      fun _ _ => notMem_empty _
    intro coid
    have hcoid := h coid
    refine ⟨Iff.trans ?_ hcoid.1, hcoid.2⟩
    rw [mem_sort]
    exact or_iff_right (notMem_empty coid)
  · exact h

lemma Indexed.cancelAllWith (h : m.Indexed) (ts : ℕ) (room : Option ℕ) :
    (m.cancelAllWith ts room).manager.Indexed := by
  unfold OrderManager.cancelAllWith
  dsimp only
  have hbuys := h.cancelOrdersBySideWith .buy ts room
  split
  · exact hbuys.cancelOrdersBySideWith .sell ts _
  · exact hbuys

lemma Indexed.applyAction (h : m.Indexed) (deferBuy deferSell : Bool) (ts : ℕ)
    (act : ReconcileAction) : (m.applyAction deferBuy deferSell ts act).1.Indexed := by
  cases act with
  | place counter side price qty postOnly =>
    rw [OrderManager.applyAction]
    split
    · exact h
    · exact ((h.off _).setRow _).reindexOrder
  | cancel coid => exact h.requestCancel coid ts

end OrderManager

end HexAgent.Orders
