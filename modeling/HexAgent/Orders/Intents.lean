import HexAgent.Orders.Index

/-!
# Parked cancels

A parked cancel belongs to an order that waits for its placement, and the update that moves the
order on either sends the cancel or ends the order, with one exception: a trade push that reports
the trade as confirmed activates the order but is not taken as proof of the placement, so the cancel
stays parked on a live order (`Forgets`).
-/

namespace HexAgent.Orders

open LocalOrder Option Finset

namespace OrderManager

variable {m : OrderManager} {coid other : String} {acts : List ReconcileAction}

/-! ## Parked cancels -/

/-- Parked cancels belong to submitted orders. -/
def ParkedSubmitted (m : OrderManager) : Prop :=
  ∀ coid ∈ m.cancelIntents, m.statusOf coid = some .submitted

/-- An order with a parked cancel that becomes live otherwise has its cancel sent. -/
def Flushed (m next : OrderManager) (signals : List Signal) : Prop :=
  ∀ coid ∈ m.cancelIntents, next.statusOf coid ≠ some .submitted →
    (∃ status ∈ next.statusOf coid, status.live) →
    ∃ timestampNs, .cancelOrder coid timestampNs ∈ signals

/-- Parked cancels are kept, and their orders stay submitted. -/
structure Keeps (m next : OrderManager) : Prop where
  parked : ∀ coid ∈ m.cancelIntents, next.statusOf coid = some .submitted ∨
    ¬∃ status ∈ next.statusOf coid, status.live
  submitted : next.ParkedSubmitted

variable {next : OrderManager} {order : LocalOrder}

lemma Keeps.flushed (h : m.Keeps next) (signals : List Signal) : m.Flushed next signals := by
  intro coid hcoid hleft hlive
  rcases h.parked coid hcoid with hsubm | hdead
  · exact absurd hsubm hleft
  · exact absurd hlive hdead

/-- One order changes and its intent is dropped. -/
lemma Keeps.of_change (coid : String) (h : m.ParkedSubmitted)
    (hother : ∀ other, other ≠ coid → next.statusOf other = m.statusOf other)
    (hintents : next.cancelIntents = m.cancelIntents.erase coid)
    (hcoid : coid ∈ m.cancelIntents → ¬∃ status ∈ next.statusOf coid, status.live) :
    m.Keeps next := by
  constructor
  · intro other hmem
    by_cases hne : other = coid
    · subst hne
      exact .inr (hcoid hmem)
    · rw [hother other hne]
      exact .inl (h other hmem)
  · intro other hmem
    rw [hintents, mem_erase] at hmem
    rw [hother other hmem.1]
    exact h other hmem.2

/-- Parked cancels stay parked. -/
structure Parks (m next : OrderManager) : Prop where
  subset : m.cancelIntents ⊆ next.cancelIntents
  submitted : next.ParkedSubmitted

lemma Parks.trans {last : OrderManager} (h : m.Parks next) (h' : next.Parks last) :
    m.Parks last := ⟨h.subset.trans h'.subset, h'.submitted⟩

lemma Parks.keeps (h : m.Parks next) : m.Keeps next :=
  ⟨fun coid hcoid => .inl (h.submitted coid (h.subset hcoid)), h.submitted⟩

lemma Parks.reindexOrder (h : m.Parks next) (coid : String) : m.Parks (next.reindexOrder coid) := by
  refine ⟨?_, fun other hne => ?_⟩
  · rw [cancelIntents_reindexOrder]
    exact h.subset
  · rw [cancelIntents_reindexOrder] at hne
    rw [statusOf_reindexOrder]
    exact h.submitted other hne

/-- The loop over the actions keeps what every action keeps. -/
lemma applyReconcileWith_induct {P : OrderManager → Prop} {ts : ℕ} (h : P m)
    (hstep : ∀ m deferBuy deferSell act, P m → P (m.applyAction deferBuy deferSell ts act).1) :
    P (m.applyReconcileWith acts ts).1 :=
  List.foldlRecOn (motive := fun t : OrderManager × List Signal => P t.1) acts _ h
    fun _ ht act _ => hstep _ _ _ act ht

lemma Indexed.applyReconcileWith (h : m.Indexed) (acts : List ReconcileAction)
    (ts : ℕ) : (m.applyReconcileWith acts ts).1.Indexed :=
  applyReconcileWith_induct h fun _ deferBuy deferSell act h' =>
    h'.applyAction deferBuy deferSell ts act

section

variable (h : m.ParkedSubmitted) {ts : ℕ}
include h

lemma parked_statusOf_ne {status : LocalOrderStatus}
    (hst : m.statusOf coid = some status) (hne : status ≠ .submitted) : coid ∉ m.cancelIntents := by
  intro hmem
  rw [h coid hmem] at hst
  exact hne (some.inj hst).symm

lemma Parks.refl : m.Parks m := ⟨Finset.Subset.refl _, h⟩

/-- The indexes do not matter. -/
lemma Parks.setIndex (ids : Finset String) :
    m.Parks { m with cancelableOrderIds := ids } := ⟨Finset.Subset.refl _, h⟩

/-- A submitted order parks its cancel. -/
lemma Parks.park (hcoid : m.statusOf coid = some .submitted) :
    m.Parks { m with cancelIntents := insert coid m.cancelIntents } := by
  refine ⟨subset_insert _ _, fun other hne => ?_⟩
  rcases mem_insert.1 hne with rfl | hne
  · exact hcoid
  · exact h other hne

/-- The cancel of an active order is not parked. -/
lemma Parks.cancelling (hcoid : m.statusOf coid = some .active) :
    m.Parks ((m.dropIntent coid).setStatus coid .cancelling) := by
  have hpark := parked_statusOf_ne h hcoid (by decide)
  have hintents : ((m.dropIntent coid).setStatus coid .cancelling).cancelIntents =
      m.cancelIntents := by
    rw [cancelIntents_setStatus]
    exact erase_eq_of_notMem hpark
  refine ⟨hintents.symm.subset, fun other hother => ?_⟩
  rw [hintents] at hother
  have hne : other ≠ coid := fun heq => hpark (heq ▸ hother)
  rw [statusOf_setStatus, if_neg hne, statusOf_dropIntent]
  exact h other hother

lemma parks_requestCancel : m.Parks (m.requestCancel coid ts).1 := by
  unfold requestCancel
  split
  · next hsubm => exact Parks.park h hsubm
  · next hact => exact (Parks.cancelling h hact).reindexOrder coid
  · exact Parks.refl h

omit h in
lemma parks_cancelPending (side : Side) (ts : ℕ) (pending : List String)
    (room : Option ℕ) (m : OrderManager) (h : m.ParkedSubmitted) :
    m.Parks (cancelPending side ts room m pending).manager := by
  induction pending generalizing room m with
  | nil => exact Parks.refl h
  | cons coid pending ih =>
    unfold cancelPending
    split
    · exact ih room m h
    next order hord =>
    have hst : m.statusOf coid = some order.status := by simp [statusOf, hord]
    have hkept := Parks.setIndex h (insert coid m.cancelableOrderIds)
    split
    · exact hkept.trans (ih room _ hkept.submitted)
    split
    · next hsubm =>
      rw [hsubm] at hst
      have hpark := hkept.trans (Parks.park hkept.submitted hst)
      exact hpark.trans (ih room _ hpark.submitted)
    · next hact =>
      rw [hact] at hst
      have hcanc := Parks.cancelling h hst
      split
      · exact hcanc.trans (Parks.setIndex hcanc.submitted _)
      · exact hcanc.trans (ih _ _ hcanc.submitted)
    · exact ih room m h

lemma parks_cancelOrdersBySideWith (side : Side) (ts : ℕ)
    (room : Option ℕ) : m.Parks (m.cancelOrdersBySideWith side ts room).manager := by
  unfold cancelOrdersBySideWith
  split
  · have htaken := Parks.setIndex h ∅
    exact htaken.trans (parks_cancelPending side ts _ room _ htaken.submitted)
  · exact Parks.refl h

lemma parks_cancelAllWith {room : Option ℕ} : m.Parks (m.cancelAllWith ts room).manager := by
  unfold cancelAllWith
  dsimp only
  have hbuys := parks_cancelOrdersBySideWith h .buy ts room
  split
  · exact hbuys.trans (parks_cancelOrdersBySideWith hbuys.submitted .sell ts _)
  · exact hbuys

lemma parks_applyAction {deferBuy deferSell : Bool} {act : ReconcileAction} :
    m.Parks (m.applyAction deferBuy deferSell ts act).1 := by
  cases act with
  | place counter side price qty postOnly =>
    rw [applyAction]
    split
    · exact Parks.refl h
    refine Parks.reindexOrder ⟨?_, fun other hne => ?_⟩ _
    · rw [cancelIntents_setRow]
    · -- The new row is submitted, also if its id was used before.
      rw [statusOf_setRow]
      split
      · rfl
      · exact h other hne
  | cancel coid => exact parks_requestCancel h

lemma parks_applyReconcileWith : m.Parks (m.applyReconcileWith acts ts).1 :=
  applyReconcileWith_induct (Parks.refl h) fun _ _ _ _ h' =>
    h'.trans (parks_applyAction h'.submitted)

lemma keeps_onSignalDropped : m.Keeps (m.onSignalDropped coid).1 := by
  unfold onSignalDropped
  split
  · refine Keeps.of_change coid h (fun other hne => ?_) ?_ fun _ => ?_
    · rw [statusOf_reindexOrder, statusOf_dropIntent, statusOf_setRow, if_neg hne]
    · rw [cancelIntents_reindexOrder, dropIntent, cancelIntents_setRow]
    · rw [statusOf_reindexOrder, statusOf_dropIntent, statusOf_setRow, if_pos rfl]
      simp
  · next hcanc =>
    have hpark := parked_statusOf_ne h hcanc (by decide)
    refine Keeps.of_change coid h (fun other hne => ?_) ?_ fun hmem => absurd hmem hpark
    · rw [statusOf_reindexOrder, statusOf_setStatus, if_neg hne]
    · rw [cancelIntents_reindexOrder, cancelIntents_setStatus, erase_eq_of_notMem hpark]
  · exact ((Parks.refl h).reindexOrder coid).keeps

end

/-! ## Updates -/

/-- A confirmed trade that does not complete the order. -/
def ConfirmedPart (order : LocalOrder) (u : OrderUpdate) : Prop :=
  u.status = .filled ∧ u.isTrade ∧ ¬order.FullyFilled u

/-- What happens to a submitted order: it ends and its intent is dropped, it becomes live on an
update that proves the placement, it stays submitted, or a confirmed trade fills a part of it. -/
inductive SubmittedUpdate (order : LocalOrder) (u : OrderUpdate) : Prop
  | ended (hpart : ¬ConfirmedPart order u) (hdrop : (order.onUpdate u).2 = true)
    (hdead : ∀ row ∈ (order.onUpdate u).1, row.status.live = false)
  | proved (hpart : ¬ConfirmedPart order u) (hdrop : (order.onUpdate u).2 = false)
    (hproves : provesPlacement u = true) (hrow : (order.onUpdate u).1.isSome)
  | waits (hpart : ¬ConfirmedPart order u) (hdrop : (order.onUpdate u).2 = false)
    (hproves : provesPlacement u = false) (hrow : (order.onUpdate u).1 = some order)
  | activated (hpart : ConfirmedPart order u) (hdrop : (order.onUpdate u).2 = false)
    (hproves : provesPlacement u = false)
    (hrow : ∃ row, (order.onUpdate u).1 = some row ∧ row.status = .active)

/-- A fill completes a submitted order or activates it. -/
lemma onUpdate_fill (hsubm : order.status = .submitted) (u : OrderUpdate) :
    (order.FullyFilled u ∧ (onUpdate.fill order u).2 = true ∧
      ∀ row ∈ (onUpdate.fill order u).1, row.status.live = false) ∨
    (¬order.FullyFilled u ∧ (onUpdate.fill order u).2 = false ∧
      ∃ row, (onUpdate.fill order u).1 = some row ∧ row.status = .active) := by
  unfold onUpdate.fill
  split
  · next hfull =>
    refine .inl ⟨hfull, rfl, fun row hrow => ?_⟩
    cases hrow
    rfl
  next hpart =>
  rw [if_neg (by rw [hsubm]; decide)]
  exact .inr ⟨hpart, rfl, _, rfl, rfl⟩

lemma submittedUpdate (hsubm : order.status = .submitted) {u : OrderUpdate} :
    SubmittedUpdate order u := by
  have hfill := onUpdate_fill hsubm u
  have hother (hne : u.status ≠ .filled) : ¬ConfirmedPart order u := fun hpart => hne hpart.1
  cases hst : u.status with
  | accepted =>
    have hrow : order.onUpdate u = (some { order with status := .active }, false) := by
      unfold onUpdate
      simp [hst, hsubm]
    exact .proved (hother (by simp [hst])) (by rw [hrow]) (by simp [provesPlacement, hst])
      (by rw [hrow]; rfl)
  | partiallyFilled =>
    have hrow : order.onUpdate u = onUpdate.fill order u := by
      unfold onUpdate
      simp [hst]
    rw [← hrow] at hfill
    rcases hfill with ⟨-, hdrop, hdead⟩ | ⟨-, hdrop, row, hsome, -⟩
    · exact .ended (hother (by simp [hst])) hdrop hdead
    · exact .proved (hother (by simp [hst])) hdrop (by simp [provesPlacement, hst])
        (by rw [hsome]; rfl)
  | filled =>
    by_cases htr : u.isTrade
    · have hrow : order.onUpdate u = onUpdate.fill order u := by
        unfold onUpdate
        simp [hst, htr]
      rw [← hrow] at hfill
      rcases hfill with ⟨hfull, hdrop, hdead⟩ | ⟨hpart, hdrop, hact⟩
      · exact .ended (fun hpart => hpart.2.2 hfull) hdrop hdead
      · -- The trade is confirmed, but the flush does not take it as proof.
        exact .activated ⟨hst, htr, hpart⟩ hdrop (by simp [provesPlacement, hst]) hact
    · have hrow : order.onUpdate u = (none, true) := by
        unfold onUpdate
        simp [hst, htr]
      exact .ended (fun hpart => htr hpart.2.1) (by rw [hrow])
        (by rw [hrow]; intro row hnone; cases hnone)
  | failed =>
    by_cases htr : u.isTrade
    · have hrow : ∃ row, order.onUpdate u = (some row, false) := by
        unfold onUpdate
        simp only [hst, htr, if_true]
        split_ifs <;> exact ⟨_, rfl⟩
      obtain ⟨row, hrow⟩ := hrow
      exact .proved (hother (by simp [hst])) (by rw [hrow])
        (by simp [provesPlacement, hst, htr]) (by rw [hrow]; rfl)
    · have hrow : order.onUpdate u = (none, true) := by
        unfold onUpdate
        simp [hst, htr]
      exact .ended (hother (by simp [hst])) (by rw [hrow])
        (by rw [hrow]; intro row hnone; cases hnone)
  | cancelled =>
    have hrow : order.onUpdate u = (some { order with status := .cancelled }, true) := by
      unfold onUpdate
      simp [hst]
    exact .ended (hother (by simp [hst])) (by rw [hrow]) (by rw [hrow]; rintro row ⟨⟩; rfl)
  | rejected =>
    have hrow : order.onUpdate u = (some { order with status := .rejected }, true) := by
      unfold onUpdate
      simp [hst]
    exact .ended (hother (by simp [hst])) (by rw [hrow]) (by rw [hrow]; rintro row ⟨⟩; rfl)
  | _ =>
    have hrow : order.onUpdate u = (some order, false) := by
      unfold onUpdate
      simp [hst]
    exact .waits (hother (by simp [hst])) (by rw [hrow]) (by simp [provesPlacement, hst])
      (by rw [hrow])

section Update

variable {u : OrderUpdate}

lemma statusOf_flushCancelIntent (hne : other ≠ u.clientOrderId) :
    (m.flushCancelIntent u).1.statusOf other = m.statusOf other := by
  unfold flushCancelIntent
  split
  · dsimp only
    split
    · rfl
    · rw [statusOf_reindexOrder, statusOf_setStatus, if_neg hne, statusOf_dropIntent]
  · rfl

/-- A parked cancel is sent on proof of the placement. -/
lemma flushCancelIntent_of_parked (hproves : provesPlacement u = true)
    (hpark : u.clientOrderId ∈ m.cancelIntents) (hrow : (m.orders.lookup u.clientOrderId).isSome) :
    (m.flushCancelIntent u).1.cancelIntents = m.cancelIntents.erase u.clientOrderId ∧
      (m.flushCancelIntent u).2 = some (.cancelOrder u.clientOrderId u.timestampNs) := by
  obtain ⟨row, hrow⟩ := isSome_iff_exists.1 hrow
  have hrow' : (m.dropIntent u.clientOrderId).orders.lookup u.clientOrderId = some row := hrow
  unfold flushCancelIntent
  rw [if_pos ⟨hproves, hpark⟩]
  dsimp only
  rw [hrow']
  refine ⟨?_, rfl⟩
  rw [cancelIntents_reindexOrder, cancelIntents_setStatus]
  rfl

lemma flushCancelIntent_of_not
    (h : ¬(provesPlacement u = true ∧ u.clientOrderId ∈ m.cancelIntents)) :
    m.flushCancelIntent u = (m, none) := if_neg h

/-- The manager after the row of an update is written. -/
def withUpdate (m : OrderManager) (order : LocalOrder) (u : OrderUpdate) : OrderManager :=
  let m := m.setRow u.clientOrderId (order.onUpdate u).1
  (if (order.onUpdate u).2 then m.dropIntent u.clientOrderId else m).reindexOrder u.clientOrderId

lemma onOrderUpdate_eq (hrow : m.orders.lookup u.clientOrderId = some order) :
    m.onOrderUpdate u =
      (((m.withUpdate order u).flushCancelIntent u).1.reindexOrder u.clientOrderId,
        ((m.withUpdate order u).flushCancelIntent u).2) := by
  unfold onOrderUpdate
  rw [hrow]
  rfl

lemma cancelIntents_withUpdate (m : OrderManager) (order : LocalOrder) (u : OrderUpdate) :
    (m.withUpdate order u).cancelIntents =
      if (order.onUpdate u).2 then m.cancelIntents.erase u.clientOrderId else m.cancelIntents := by
  unfold withUpdate
  rw [cancelIntents_reindexOrder]
  split
  · rw [dropIntent, cancelIntents_setRow]
  · rw [cancelIntents_setRow]

lemma cancelIntents_of_kept (hdrop : (order.onUpdate u).2 = false) :
    (m.withUpdate order u).cancelIntents = m.cancelIntents := by
  rw [cancelIntents_withUpdate, if_neg (by rw [hdrop]; decide)]

lemma statusOf_withUpdate (m : OrderManager) (order : LocalOrder) (u : OrderUpdate)
    (other : String) :
    (m.withUpdate order u).statusOf other = if other = u.clientOrderId then
      (order.onUpdate u).1.map (·.status) else m.statusOf other := by
  unfold withUpdate
  rw [statusOf_reindexOrder]
  split
  · rw [statusOf_dropIntent, statusOf_setRow]
  · rw [statusOf_setRow]

lemma statusOf_onOrderUpdate (hne : other ≠ u.clientOrderId) :
    (m.onOrderUpdate u).1.statusOf other = m.statusOf other := by
  cases hrow : m.orders.lookup u.clientOrderId with
  | none =>
    unfold onOrderUpdate
    rw [hrow]
    rfl
  | some order =>
    rw [onOrderUpdate_eq hrow, statusOf_reindexOrder, statusOf_flushCancelIntent hne,
      statusOf_withUpdate, if_neg hne]

end Update

/-! ## Runs -/

/-- Operations of a manager. -/
inductive Op
  | applyReconcile (actions : List ReconcileAction) (timestampNs : ℕ)
  | cancelOrdersBySide (side : Side) (timestampNs : ℕ) (room : Option ℕ)
  | cancelAll (timestampNs : ℕ) (room : Option ℕ)
  | onSignalDropped (coid : String)
  | onOrderUpdate (u : OrderUpdate)
  | injectOpenOrder (coid : String) (side : Side) (price quantity : ℚ)

/-- The manager after an operation, and the signals that it emitted. -/
def Op.run (m : OrderManager) : Op → OrderManager × List Signal
  | .applyReconcile actions timestampNs => m.applyReconcileWith actions timestampNs
  | .cancelOrdersBySide side timestampNs room =>
    let emitted := m.cancelOrdersBySideWith side timestampNs room
    (emitted.manager, emitted.signals)
  | .cancelAll timestampNs room =>
    let emitted := m.cancelAllWith timestampNs room
    (emitted.manager, emitted.signals)
  | .onSignalDropped coid => ((m.onSignalDropped coid).1, [])
  | .onOrderUpdate u => ((m.onOrderUpdate u).1, (m.onOrderUpdate u).2.toList)
  | .injectOpenOrder coid side price quantity => (m.injectOpenOrder coid side price quantity, [])

lemma indexed_new {iid : String} {coidPrefix : Bool} : (new iid coidPrefix).Indexed := by
  intro coid
  simp [IndexedAt, new, statusOf]

lemma Indexed.run (h : m.Indexed) (op : Op) : (op.run m).1.Indexed := by
  cases op with
  | applyReconcile acts ts => exact h.applyReconcileWith acts ts
  | cancelOrdersBySide side ts room => exact h.cancelOrdersBySideWith side ts room
  | cancelAll ts room => exact h.cancelAllWith ts room
  | onSignalDropped coid => exact h.onSignalDropped coid
  | onOrderUpdate u => exact h.onOrderUpdate u
  | injectOpenOrder coid side price qty => exact ((h.off coid).setRow _).reindexOrder

/-- The operation leaves a cancel parked on a live order: a confirmed trade fills a part of an order
whose cancel is parked, or such an order is injected as active. -/
def Forgets (m : OrderManager) : Op → Prop
  | .onOrderUpdate u => u.clientOrderId ∈ m.cancelIntents ∧
    ∃ order ∈ m.orders.lookup u.clientOrderId, ConfirmedPart order u
  | .injectOpenOrder coid .. => coid ∈ m.cancelIntents
  | _ => False

/-- What a step has to keep. -/
def Honours (m : OrderManager) (op : Op) : Prop :=
  (op.run m).1.ParkedSubmitted ∧ m.Flushed (op.run m).1 (op.run m).2

lemma Keeps.honours {op : Op} (h : m.Keeps (op.run m).1) : m.Honours op :=
  ⟨h.submitted, h.flushed _⟩

section Parked

variable {u : OrderUpdate} (h : m.ParkedSubmitted)
  (hrow : m.orders.lookup u.clientOrderId = some order)

include hrow

/-- If nothing is sent, the written row and the intents stay. -/
lemma onOrderUpdate_unsent (hno : ¬(provesPlacement u = true ∧
      u.clientOrderId ∈ (m.withUpdate order u).cancelIntents)) :
    (m.onOrderUpdate u).1.cancelIntents = (m.withUpdate order u).cancelIntents ∧
      (m.onOrderUpdate u).1.statusOf u.clientOrderId = (order.onUpdate u).1.map (·.status) := by
  rw [onOrderUpdate_eq hrow, flushCancelIntent_of_not hno]
  refine ⟨cancelIntents_reindexOrder, ?_⟩
  rw [statusOf_reindexOrder, statusOf_withUpdate, if_pos rfl]

include h

lemma honours_of_ended (hdrop : (order.onUpdate u).2 = true)
    (hdead : ∀ row ∈ (order.onUpdate u).1, row.status.live = false) :
    m.Honours (.onOrderUpdate u) := by
  have hintents : (m.withUpdate order u).cancelIntents = m.cancelIntents.erase u.clientOrderId := by
    rw [cancelIntents_withUpdate, if_pos hdrop]
  obtain ⟨hkept, hst⟩ := onOrderUpdate_unsent hrow fun hyes => by
    rw [hintents] at hyes
    exact absurd hyes.2 (notMem_erase _ _)
  refine Keeps.honours (Keeps.of_change u.clientOrderId h (fun _ => statusOf_onOrderUpdate)
    (hkept.trans hintents) ?_)
  rintro - ⟨status, hmem, hlive⟩
  change status ∈ (m.onOrderUpdate u).1.statusOf u.clientOrderId at hmem
  rw [hst] at hmem
  obtain ⟨row, hsome, rfl⟩ := map_eq_some_iff.1 hmem
  rw [hdead row hsome] at hlive
  cases hlive

lemma honours_of_proved (hpark : u.clientOrderId ∈ m.cancelIntents)
    (hdrop : (order.onUpdate u).2 = false) (hproves : provesPlacement u = true)
    (hsome : (order.onUpdate u).1.isSome) : m.Honours (.onOrderUpdate u) := by
  have hintents := cancelIntents_of_kept (m := m) hdrop
  have hget : ((m.withUpdate order u).orders.lookup u.clientOrderId).isSome := by
    have hst := statusOf_withUpdate m order u u.clientOrderId
    rw [if_pos rfl] at hst
    rw [← isSome_map, ← statusOf, hst, isSome_map]
    exact hsome
  obtain ⟨herased, hsignal⟩ :=
    flushCancelIntent_of_parked hproves (by rw [hintents]; exact hpark) hget
  refine ⟨fun other hmem => ?_, fun other hmem hleft _ => ?_⟩
  · have hmem' : other ∈ (m.onOrderUpdate u).1.cancelIntents := hmem
    rw [onOrderUpdate_eq hrow, cancelIntents_reindexOrder, herased, hintents, mem_erase] at hmem'
    exact (statusOf_onOrderUpdate hmem'.1).trans (h other hmem'.2)
  · by_cases hne : other = u.clientOrderId
    · refine ⟨u.timestampNs, ?_⟩
      change _ ∈ (m.onOrderUpdate u).2.toList
      rw [onOrderUpdate_eq hrow, hsignal, hne]
      exact List.mem_singleton_self _
    · exact absurd ((statusOf_onOrderUpdate hne).trans (h other hmem)) hleft

lemma honours_of_waits (hsubm : order.status = .submitted)
    (hdrop : (order.onUpdate u).2 = false) (hproves : provesPlacement u = false)
    (hsome : (order.onUpdate u).1 = some order) : m.Honours (.onOrderUpdate u) := by
  have hintents := cancelIntents_of_kept (m := m) hdrop
  obtain ⟨hkept, hst⟩ := onOrderUpdate_unsent hrow fun hyes => by
    rw [hproves] at hyes
    exact absurd hyes.1 (by decide)
  refine Keeps.honours (Parks.keeps ⟨?_, fun other hmem => ?_⟩)
  · exact (hkept.trans hintents).symm.subset
  · have hmem' : other ∈ (m.onOrderUpdate u).1.cancelIntents := hmem
    rw [hkept, hintents] at hmem'
    by_cases hne : other = u.clientOrderId
    · rw [hne]
      refine hst.trans ?_
      rw [hsome, map_some, hsubm]
    · exact (statusOf_onOrderUpdate hne).trans (h other hmem')

omit h in
lemma not_honours_of_activated (hparked : u.clientOrderId ∈ m.cancelIntents)
    (hdrop : (order.onUpdate u).2 = false) (hproves : provesPlacement u = false)
    (hactive : ∃ row, (order.onUpdate u).1 = some row ∧ row.status = .active) :
    ¬m.Honours (.onOrderUpdate u) := by
  have hintents := cancelIntents_of_kept (m := m) hdrop
  obtain ⟨hkept, hstatus⟩ := onOrderUpdate_unsent hrow fun hyes => by
    rw [hproves] at hyes
    exact absurd hyes.1 (by decide)
  obtain ⟨row, hsome, hrowActive⟩ := hactive
  intro hhonours
  -- The cancel is still parked, and the order is active.
  have hstill : u.clientOrderId ∈ (m.onOrderUpdate u).1.cancelIntents := by
    rw [hkept, hintents]
    exact hparked
  have hsubmitted : (m.onOrderUpdate u).1.statusOf u.clientOrderId = some .submitted :=
    hhonours.1 u.clientOrderId hstill
  rw [hstatus, hsome, map_some, hrowActive] at hsubmitted
  cases hsubmitted

/-- An update of an order whose cancel is parked. -/
lemma honours_parked_iff (hpark : u.clientOrderId ∈ m.cancelIntents) :
    m.Honours (.onOrderUpdate u) ↔ ¬m.Forgets (.onOrderUpdate u) := by
  have hsubm : order.status = .submitted := by
    obtain ⟨row, hget, hst⟩ := statusOf_eq_some.1 (h _ hpark)
    rw [hrow] at hget
    cases hget
    exact hst
  have hforg : m.Forgets (.onOrderUpdate u) ↔ ConfirmedPart order u := by
    simp [Forgets, hpark, hrow]
  rw [hforg]
  cases submittedUpdate hsubm with
  | ended hpart hdrop hdead => exact iff_of_true (honours_of_ended h hrow hdrop hdead) hpart
  | proved hpart hdrop hproves hsome =>
    exact iff_of_true (honours_of_proved h hrow hpark hdrop hproves hsome) hpart
  | waits hpart hdrop hproves hsome =>
    exact iff_of_true (honours_of_waits h hrow hsubm hdrop hproves hsome) hpart
  | activated hpart hdrop hproves hact =>
    exact iff_of_false (not_honours_of_activated hrow hpark hdrop hproves hact)
      (not_not_intro hpart)

end Parked

/-- A step keeps the parked cancels if and only if it does not forget one. -/
lemma honours_iff {op : Op} (h : m.ParkedSubmitted) : m.Honours op ↔ ¬m.Forgets op := by
  cases op with
  | applyReconcile acts ts =>
    exact iff_of_true (parks_applyReconcileWith h).keeps.honours not_false
  | cancelOrdersBySide side ts room =>
    exact iff_of_true (parks_cancelOrdersBySideWith h side ts room).keeps.honours not_false
  | cancelAll ts room =>
    exact iff_of_true (parks_cancelAllWith h).keeps.honours not_false
  | onSignalDropped coid => exact iff_of_true (keeps_onSignalDropped h).honours not_false
  | onOrderUpdate u =>
    by_cases hpark : u.clientOrderId ∈ m.cancelIntents
    · obtain ⟨order, hrow, -⟩ := statusOf_eq_some.1 (h _ hpark)
      exact honours_parked_iff h hrow hpark
    refine iff_of_true ?_ fun hforg => hpark hforg.1
    -- No intent of this order, so none is dropped or sent.
    have hintents :
      (m.onOrderUpdate u).1.cancelIntents = m.cancelIntents.erase u.clientOrderId := by
      rw [erase_eq_of_notMem hpark]
      cases hrow : m.orders.lookup u.clientOrderId with
      | none =>
        unfold onOrderUpdate
        rw [hrow]
        exact erase_eq_of_notMem hpark
      | some order =>
        have hwith : (m.withUpdate order u).cancelIntents = m.cancelIntents := by
          rw [cancelIntents_withUpdate, erase_eq_of_notMem hpark, ite_self]
        rw [onOrderUpdate_eq hrow, cancelIntents_reindexOrder, flushCancelIntent_of_not, hwith]
        rw [hwith]
        exact fun hyes => hpark hyes.2
    exact Keeps.honours (Keeps.of_change u.clientOrderId h (fun _ => statusOf_onOrderUpdate)
      hintents fun hmem => absurd hmem hpark)
  | injectOpenOrder coid side price qty =>
    have hst other : (m.injectOpenOrder coid side price qty).statusOf other =
        if other = coid then some .active else m.statusOf other := by
      rw [injectOpenOrder, statusOf_reindexOrder, statusOf_setRow]
      rfl
    have hintents : (m.injectOpenOrder coid side price qty).cancelIntents = m.cancelIntents := by
      rw [injectOpenOrder, cancelIntents_reindexOrder, cancelIntents_setRow]
    by_cases hpark : coid ∈ m.cancelIntents
    · refine iff_of_false (fun hhon => ?_) (not_not_intro hpark)
      have hsubm := hhon.1 coid (by
        change coid ∈ (m.injectOpenOrder coid side price qty).cancelIntents
        rw [hintents]
        exact hpark)
      change (m.injectOpenOrder coid side price qty).statusOf coid = _ at hsubm
      rw [hst, if_pos rfl] at hsubm
      cases hsubm
    · refine iff_of_true (Keeps.honours (Keeps.of_change coid h (fun other hne => ?_) ?_ fun hmem =>
        absurd hmem hpark)) hpark
      · exact (hst other).trans (if_neg hne)
      · exact hintents.trans (erase_eq_of_notMem hpark).symm

/-- A property of every step of a run. -/
def Along (P : OrderManager → Op → Prop) : OrderManager → List Op → Prop
  | _, [] => True
  | m, op :: ops => P m op ∧ Along P (op.run m).1 ops

/-- The manager after a run. -/
def runAll (m : OrderManager) (ops : List Op) :
    OrderManager := ops.foldl (fun m op => (op.run m).1) m

lemma Indexed.runAll (h : m.Indexed) (ops : List Op) : (m.runAll ops).Indexed :=
  List.foldlRecOn ops _ h fun _ ht op _ => ht.run op

lemma along_honours_iff (h : m.ParkedSubmitted) {ops : List Op} :
    Along Honours m ops ↔ Along (fun m op => ¬m.Forgets op) m ops := by
  induction ops generalizing m with
  | nil => exact Iff.rfl
  | cons op ops ih =>
    constructor
    · rintro ⟨hhon, hrest⟩
      exact ⟨(honours_iff h).1 hhon, (ih hhon.1).1 hrest⟩
    · rintro ⟨hforg, hrest⟩
      have hhon := (honours_iff h).2 hforg
      exact ⟨hhon, (ih hhon.1).2 hrest⟩

/-- The indexes agree with the table after every run. Parked cancels belong to submitted orders and
are sent when their order becomes live, in every step of a run, if and only if no step forgets
one. -/
theorem indexed_and_honoured_iff (instanceId : String) (coidPrefix : Bool) (ops : List Op) :
    ((new instanceId coidPrefix).runAll ops).Indexed ∧
      (Along Honours (new instanceId coidPrefix) ops ↔
        Along (fun m op => ¬m.Forgets op) (new instanceId coidPrefix) ops) :=
  ⟨indexed_new.runAll ops, along_honours_iff (fun coid hcoid => absurd hcoid (notMem_empty coid))⟩

/-- Nothing is left to cancel of an order of the side. -/
def Quiet (m : OrderManager) (side : Side) (coid : String) : Prop :=
  ∀ order ∈ m.orders.lookup coid, order.side = side →
    ¬(order.status = .active ∨ order.status = .submitted ∧ coid ∉ m.cancelIntents)

/-- An order is placed and cancelled before its placement is answered. -/
def cancelBeforeAck : List Op :=
  [.applyReconcile [.place 1 .buy (1 / 2) 10 true] 1, .applyReconcile [.cancel "1"] 2]

/-- The first update reports one confirmed trade over a part of the order. -/
def confirmedPart : OrderUpdate where
  clientOrderId := "1"
  symbol := "UP"
  side := .buy
  status := .filled
  filledQuantity := 4
  tradeId := some "t1"

/-- The order is live, its cancel is parked, and the update sent nothing. -/
theorem confirmed_trade_forgets_cancel :
    let m := (new "maker" false).runAll cancelBeforeAck
    "1" ∈ m.cancelIntents ∧ m.statusOf "1" = some .submitted ∧
      (m.onOrderUpdate confirmedPart).1.statusOf "1" = some .active ∧
      "1" ∈ (m.onOrderUpdate confirmedPart).1.cancelIntents ∧
      (m.onOrderUpdate confirmedPart).2 = none := by
  decide +kernel

end OrderManager

end HexAgent.Orders
