import HexAgent.Account.Run

/-!
# Reservation counters are exact

Every operation of the lifecycle owner computes the change of an order row and the change of the
two reservation counters separately. Read over exact rationals, with all tolerances zero, the
counters nevertheless always equal the sums over the order rows, no row reserves a negative
amount, and the clamp at zero in the counter's addition never fires.

The last point is stated by running the ledger with another addition on the reservation counters:
any addition that agrees with the sum where the sum is not negative gives the same states.
-/

namespace HexAgent.Account

open AList Numerics VirtualAccount OrderRequest

variable (key : String)

/-- A buy reserves no negative amount for an open share. -/
def Priced (o : OrderOwnership) : Prop :=
  o.side = .buy → 0 ≤ o.reservationCashPerShare

instance (o : OrderOwnership) : Decidable (Priced o) :=
  inferInstanceAs (Decidable (_ → _))

/-- What a reservation row must satisfy for its counter to stay above zero. -/
structure ReservationRow (o : OrderOwnership) : Prop where
  cash : 0 ≤ o.reservedCash
  quantity : 0 ≤ o.reservedQuantity
  perShare : Priced o

/-- Tokens that an order reserves of one outcome. -/
def OrderOwnership.reservedOf (token : String) (o : OrderOwnership) : ℚ :=
  if o.tokenId = token then o.reservedQuantity else 0

variable {o : OrderOwnership} {coid : String} {pending : Bool}

namespace VirtualAccount

variable (token : String) (delta : ℚ)

/-- Cash reserved by the order rows. -/
def rowsCash (a : VirtualAccount) : ℚ :=
  a.orders.sumBy fun _ o => o.reservedCash

/-- Tokens of one outcome reserved by the order rows. -/
def rowsQuantity (a : VirtualAccount) (token : String) : ℚ :=
  a.orders.sumBy fun _ o => OrderOwnership.reservedOf token o

/-- The counters are the sums over the rows, and the rows are not negative. -/
structure Exact (a : VirtualAccount) : Prop where
  cash : a.reservedCash = a.rowsCash
  quantity : ∀ token, (a.position token).reserved = a.rowsQuantity token
  rows : ∀ coid o, a.orders.lookup coid = some o → ReservationRow o

/-- The two accounts reserve the same for the same orders. -/
structure SameReservations (a b : VirtualAccount) : Prop where
  orders : b.orders = a.orders
  cash : b.reservedCash = a.reservedCash
  quantity : ∀ token, (b.position token).reserved = (a.position token).reserved

variable {a b : VirtualAccount}

lemma Exact.congr (h : a.Exact) (hab : SameReservations a b) : b.Exact where
  cash := by rw [hab.cash, h.cash, rowsCash, rowsCash, hab.orders]
  quantity token := by rw [hab.quantity, h.quantity, rowsQuantity, rowsQuantity, hab.orders]
  rows coid o ho := h.rows coid o (by rwa [← hab.orders])

lemma SameReservations.exact_iff (hab : SameReservations a b) : b.Exact ↔ a.Exact :=
  ⟨fun h => h.congr ⟨hab.orders.symm, hab.cash.symm, fun token => (hab.quantity token).symm⟩,
    fun h => h.congr hab⟩

lemma exact_iff_of_fields (h : (b.orders, b.reservedCash, b.positions) =
    (a.orders, a.reservedCash, a.positions)) : b.Exact ↔ a.Exact := by
  simp only [Prod.mk.injEq] at h
  obtain ⟨hords, hcash, hposs⟩ := h
  exact SameReservations.exact_iff ⟨hords, hcash, fun token => by rw [position, position, hposs]⟩

lemma reservedOf_nonneg (h : ReservationRow o) {token : String} :
    0 ≤ OrderOwnership.reservedOf token o := by
  unfold OrderOwnership.reservedOf
  split
  · exact h.quantity
  · exact le_rfl

/-! ### What leaves the reservations alone -/

variable {N : Numerics}

@[simp] lemma exact_setRecovery : (a.setRecovery coid pending).Exact ↔ a.Exact :=
  exact_iff_of_fields rfl

@[simp] lemma exact_clearStartupRepair : (a.clearStartupRepair coid).Exact ↔ a.Exact :=
  exact_iff_of_fields rfl

@[simp] lemma exact_setRoutineAudit : (a.setRoutineAudit coid pending).Exact ↔ a.Exact :=
  exact_iff_of_fields rfl

@[simp] lemma exact_setCancelAuditAnomaly :
    (a.setCancelAuditAnomaly coid pending).Exact ↔ a.Exact :=
  exact_iff_of_fields rfl

@[simp] lemma exact_setFeePending : (a.setFeePending key pending).Exact ↔ a.Exact :=
  exact_iff_of_fields rfl

@[simp] lemma exact_bumpReservationEpoch : a.bumpReservationEpoch.Exact ↔ a.Exact :=
  exact_iff_of_fields rfl

@[simp] lemma exact_record (tradeKey coid token : String) :
    (a.recordVirtualTradeMutation tradeKey coid token).Exact ↔ a.Exact :=
  exact_iff_of_fields rfl

@[simp] lemma exact_setTrade (trade : AppliedTrade) : (a.setTrade key trade).Exact ↔ a.Exact :=
  exact_iff_of_fields rfl

@[simp] lemma exact_addCash : (a.addCash N delta).Exact ↔ a.Exact :=
  exact_iff_of_fields rfl

@[simp] lemma exact_addPosition : (a.addPosition N token delta).Exact ↔ a.Exact := by
  -- The quota is written with the reservation that it had.
  refine SameReservations.exact_iff ⟨rfl, rfl, fun other => ?_⟩
  rw [addPosition, position_setPosition]
  split
  · next ho => rw [ho]
  · rfl

@[simp] lemma exact_moveFee (fee : ℚ × ℚ) (move : FeeMove) :
    (a.moveFee N token fee move).Exact ↔ a.Exact := by
  unfold moveFee
  split <;> simp

@[simp] lemma exact_movePrincipal (e : TradeEdge) (price : ℚ) (move : TradeMove) :
    (a.movePrincipal N e price move).Exact ↔ a.Exact := by
  unfold movePrincipal
  split <;> simp

/-- A fee transition moves balances and the trade row only. -/
@[simp] lemma exact_fee (status : OrderStatus) (isMaker : Bool) (cfg : Option FeeBasis) :
    (a.applyTradeFeeTransitionVirtual N key status isMaker cfg).2.Exact ↔ a.Exact := by
  unfold applyTradeFeeTransitionVirtual
  split
  · rfl
  dsimp only
  split
  · rfl
  split
  · simp
  split <;> simp

/-! ### Rows and counters together -/

/-- The reservation that the open part of an order needs is a valid row. -/
lemma reservationRow_desired (h : Priced o) :
    ReservationRow (o.withReservation (desiredOrderReservation o)) := by
  have hrem target : 0 ≤ max (target - o.filledQuantity) 0 := le_max_right _ _
  unfold desiredOrderReservation
  split
  · exact ⟨le_rfl, le_rfl, h⟩
  · cases hside : o.side with
    | buy => exact ⟨mul_nonneg (hrem _) (h hside), le_rfl, h⟩
    | sell => exact ⟨le_rfl, hrem _, h⟩

lemma rowsCash_setOrder : (a.setOrder coid o).rowsCash =
      a.rowsCash + (o.reservedCash - a.orders.valueAt (fun _ o => o.reservedCash) coid) :=
  sumBy_insert _ _ _ _

lemma rowsQuantity_setOrder (token : String) : (a.setOrder coid o).rowsQuantity token =
      a.rowsQuantity token + (OrderOwnership.reservedOf token o -
        a.orders.valueAt (fun _ o => OrderOwnership.reservedOf token o) coid) :=
  sumBy_insert _ _ _ _

lemma Exact.rows_setOrder (h : a.Exact)
    (ho : ReservationRow o) (coid' : String) (o' : OrderOwnership)
    (hget : (a.setOrder coid o).orders.lookup coid' = some o') : ReservationRow o' :=
  forall_lookup_insert ho h.rows coid' o' hget

end VirtualAccount

/-! ## Independence of the clamp -/

namespace Numerics

/-- The addition on reservation counters is the sum wherever the sum is not negative. -/
def AddsReserved (N : Numerics) : Prop :=
  ∀ current delta, 0 ≤ current + delta → N.addReserved current delta = current + delta

/-- Comparisons are exact, and the counters add. -/
structure Ideal (N : Numerics) : Prop where
  adds : N.AddsReserved
  eps : N.tol.eps = 0

/-- The same arithmetic with unclamped reservation counters. -/
def plain (N : Numerics) : Numerics :=
  { N with addReserved := fun current delta => current + delta }

@[simp] lemma plain_tol (N : Numerics) : N.plain.tol = N.tol := rfl

lemma addsReserved_clamped (tol : Tolerance) (powf : ℚ → ℚ → ℚ) : (clamped tol powf).AddsReserved :=
  fun _ _ h => max_eq_left h

end Numerics

/-- `x` has exact counters, and `y`, which is computed with unclamped counters, is the same. -/
structure Robust {β : Type} (view : β → VirtualAccount) (x y : β) : Prop where
  exact : (view x).Exact
  plain : y = x

namespace Robust

variable {β γ : Type} {view : β → VirtualAccount} {view' : γ → VirtualAccount} {x y : β}

lemma refl (h : (view x).Exact) : Robust view x x :=
  ⟨h, rfl⟩

lemma map (h : Robust view x y) {f : β → γ} (hf : (view x).Exact → (view' (f x)).Exact) :
    Robust view' (f x) (f y) := by
  obtain ⟨hx, rfl⟩ := h
  exact .refl (hf hx)

end Robust

variable {order : OrderOwnership}

namespace VirtualAccount

variable {a : VirtualAccount} {N : Numerics} {token : String}

lemma adjustReservation_plain (hN : N.AddsReserved) {cashDelta delta : ℚ}
    (hcash : 0 ≤ a.reservedCash + cashDelta) (hqty : 0 ≤ (a.position token).reserved + delta) :
    a.adjustReservation N token cashDelta delta =
      a.adjustReservation N.plain token cashDelta delta := by
  have h₁ : a.adjustReservedCash N cashDelta = a.adjustReservedCash N.plain cashDelta := by
    unfold adjustReservedCash
    rw [hN _ _ hcash]
    rfl
  have h₂ : ((a.adjustReservedCash N.plain cashDelta).position token).reserved =
      (a.position token).reserved := by
    unfold adjustReservedCash
    split <;> rfl
  unfold adjustReservation
  rw [h₁, adjustReservedPosition, adjustReservedPosition]
  dsimp only
  rw [hN _ _ (by rw [h₂]; exact hqty)]
  rfl

lemma adjustReservation_orders (cashDelta delta : ℚ) :
    (a.adjustReservation N token cashDelta delta).orders = a.orders := by
  unfold adjustReservation adjustReservedPosition adjustReservedCash
  split <;> split <;> rfl

/-- With exact comparisons a skipped change is a change by zero. -/
lemma adjustReservation_cash (heps : N.tol.eps = 0) (token : String) (cashDelta delta : ℚ) :
    (a.adjustReservation N.plain token cashDelta delta).reservedCash =
      a.reservedCash + cashDelta := by
  have h : (a.adjustReservedCash N.plain cashDelta).reservedCash = a.reservedCash + cashDelta := by
    unfold adjustReservedCash
    split
    · rfl
    next hskip =>
    rw [plain_tol, heps, abs_pos, not_not] at hskip
    rw [hskip, add_zero]
  unfold adjustReservation adjustReservedPosition
  split <;> exact h

lemma adjustReservation_reserved (heps : N.tol.eps = 0) (token : String) (cashDelta delta : ℚ)
    (other : String) :
    ((a.adjustReservation N.plain token cashDelta delta).position other).reserved =
      (a.position other).reserved + if token = other then delta else 0 := by
  have h : ((a.adjustReservedCash N.plain cashDelta).position other).reserved =
      (a.position other).reserved := by
    unfold adjustReservedCash
    split <;> rfl
  unfold adjustReservation adjustReservedPosition
  rw [plain_tol, heps]
  split
  · next =>
    rw [position_setPosition]
    by_cases heq : other = token
    · subst heq
      rw [if_pos rfl, if_pos rfl]
      exact congrArg (· + delta) h
    · rw [if_neg heq, if_neg (Ne.symm heq), h, add_zero]
  next hskip =>
  rw [abs_pos, not_not] at hskip
  rw [h, hskip, ite_self, add_zero]

/-- Counters that are off by one row's change become exact when they are moved by that change. -/
lemma exact_adjustReservation (hN : N.Ideal)
    {cashDelta delta : ℚ} (hrows : ∀ coid o, a.orders.lookup coid = some o → ReservationRow o)
    (hcash : a.reservedCash + cashDelta = a.rowsCash)
    (hqty : ∀ other, (a.position other).reserved + (if token = other then delta else 0) =
      a.rowsQuantity other) :
    Robust id (a.adjustReservation N token cashDelta delta)
      (a.adjustReservation N.plain token cashDelta delta) := by
  have hcash_nonneg : 0 ≤ a.reservedCash + cashDelta := by
    rw [hcash]
    exact sumBy_nonneg fun e he => (hrows e.1 e.2 (mem_entries_iff.1 he)).cash
  have hquantity_nonneg : 0 ≤ (a.position token).reserved + delta := by
    have h := hqty token
    rw [if_pos rfl] at h
    rw [h]
    exact sumBy_nonneg fun e he =>
      reservedOf_nonneg (hrows e.1 e.2 (mem_entries_iff.1 he))
  have hplain := adjustReservation_plain hN.adds hcash_nonneg hquantity_nonneg
  refine ⟨?_, hplain.symm⟩
  show (a.adjustReservation N token cashDelta delta).Exact
  rw [hplain]
  refine ⟨?_, fun other => ?_, fun coid o ho => ?_⟩
  · rw [adjustReservation_cash hN.eps, hcash, rowsCash, rowsCash, adjustReservation_orders]
  · rw [adjustReservation_reserved hN.eps, hqty, rowsQuantity, rowsQuantity,
      adjustReservation_orders]
  · rw [adjustReservation_orders] at ho
    exact hrows coid o ho

/-- Rewriting a row and moving the counters by the difference keeps them exact. -/
lemma exact_rewriteOrder (hN : N.Ideal) (h : a.Exact)
    {old new : OrderOwnership} (hold : a.orders.lookup coid = some old)
    (hnew : ReservationRow new) (htok : new.tokenId = old.tokenId) :
    Robust id (a.rewriteOrder N coid old new) (a.rewriteOrder N.plain coid old new) := by
  refine exact_adjustReservation hN (h.rows_setOrder hnew) ?_ fun other => ?_
  · rw [rowsCash_setOrder, valueAt_of_lookup hold, ← h.cash]
    rfl
  · rw [rowsQuantity_setOrder, valueAt_of_lookup hold, ← h.quantity,
      OrderOwnership.reservedOf, OrderOwnership.reservedOf, htok]
    split
    · rfl
    · rw [sub_zero]
      rfl

section

variable (h : a.Exact) (hnone : a.orders.lookup coid = none) (ho : ReservationRow o)
include h hnone

lemma rowsCash_newRow : (a.setOrder coid o).rowsCash = a.reservedCash + o.reservedCash := by
  rw [rowsCash_setOrder, valueAt_of_lookup_none hnone, sub_zero, h.cash]

lemma rowsQuantity_newRow (token : String) : (a.setOrder coid o).rowsQuantity token =
    (a.position token).reserved + OrderOwnership.reservedOf token o := by
  rw [rowsQuantity_setOrder, valueAt_of_lookup_none hnone, sub_zero, h.quantity]

include ho

/-- A row for a new client order id, with counters raised by its reservation. -/
lemma exact_of_newRow {b : VirtualAccount} (hords : b.orders = a.orders.insert coid o)
    (hcash : b.reservedCash = a.reservedCash + o.reservedCash)
    (hrsv : ∀ token, (b.position token).reserved =
      (a.position token).reserved + OrderOwnership.reservedOf token o) : b.Exact where
  cash := by
    rw [hcash, ← rowsCash_newRow h hnone, rowsCash, rowsCash, hords, setOrder]
  quantity token := by
    rw [hrsv, ← rowsQuantity_newRow h hnone, rowsQuantity, rowsQuantity, hords, setOrder]
  rows coid' o' hlookup := h.rows_setOrder ho coid' o' (by rwa [hords] at hlookup)

/-- Raising the counters to the sum over the rows, after a row was added to exact ones. -/
lemma exact_raiseToMinimum (heps : N.tol.eps = 0) :
    ((a.setOrder coid o).raiseToMinimum N o.tokenId).Exact := by
  have hraise cur row (hrow : 0 ≤ row) :
      AtomicF64.ensureAtLeast N.tol cur (cur + row) = cur + row := by
    unfold AtomicF64.ensureAtLeast
    rw [heps, add_zero]
    split
    · linarith
    · rfl
  refine exact_of_newRow h hnone ho rfl ?_ fun token => ?_
  · show AtomicF64.ensureAtLeast N.tol a.reservedCash (a.setOrder coid o).rowsCash = _
    rw [rowsCash_newRow h hnone, hraise _ _ ho.cash]
  · unfold raiseToMinimum
    rw [position_setPosition]
    split
    · next htok =>
      show AtomicF64.ensureAtLeast N.tol (a.position o.tokenId).reserved
        ((a.setOrder coid o).rowsQuantity o.tokenId) = _
      rw [rowsQuantity_newRow h hnone, hraise _ _ (reservedOf_nonneg ho), htok]
    next htok =>
    rw [OrderOwnership.reservedOf, if_neg (Ne.symm htok), add_zero]
    rfl

end

/-- Rewriting a row without changing its reservation keeps the counters exact. -/
lemma Exact.setOrder (h : a.Exact) {old new : OrderOwnership}
    (hold : a.orders.lookup coid = some old) (htok : new.tokenId = old.tokenId)
    (hcash : new.reservedCash = old.reservedCash)
    (hqty : new.reservedQuantity = old.reservedQuantity)
    (hperShare : Priced old → Priced new) : (a.setOrder coid new).Exact where
  cash := by
    rw [rowsCash_setOrder, valueAt_of_lookup hold, hcash, sub_self, add_zero, ← h.cash]
    rfl
  quantity token := by
    rw [rowsQuantity_setOrder, valueAt_of_lookup hold, OrderOwnership.reservedOf,
      OrderOwnership.reservedOf, htok, hqty, sub_self, add_zero, ← h.quantity]
    rfl
  rows := by
    have hrow := h.rows coid old hold
    exact h.rows_setOrder ⟨hcash ▸ hrow.cash, hqty ▸ hrow.quantity, hperShare hrow.perShare⟩

lemma robust_release (hN : N.Ideal) (h : a.Exact) (coid : String) :
    Robust id (a.releaseVirtualOrderReservation N coid)
      (a.releaseVirtualOrderReservation N.plain coid) := by
  unfold releaseVirtualOrderReservation
  cases hget : a.orders.lookup coid with
  | none => exact .refl h
  | some order =>
    have hrow : ReservationRow (order.withReservation (0, 0)) :=
      ⟨le_rfl, le_rfl, (h.rows coid order hget).perShare⟩
    exact exact_rewriteOrder hN h hget hrow rfl

/-- Writing an audited row and releasing it when the audit is complete. -/
lemma robust_applyAudit (hN : N.Ideal) (h : a.Exact)
    {audited : OrderOwnership} (hget : a.orders.lookup coid = some order)
    (haud : ReservationRow audited) (htok : audited.tokenId = order.tokenId) :
    Robust Prod.snd (a.applyAudit N coid order audited)
      (a.applyAudit N.plain coid order audited) := by
  have hwr := exact_rewriteOrder hN h hget haud htok
  unfold applyAudit
  dsimp only
  rw [hwr.plain]
  -- The routine audit is cleared before the completeness of the audit is evaluated.
  generalize hb : (a.rewriteOrder N coid order audited).setRoutineAudit coid false = b
  have hex : b.Exact := by
    rw [← hb, exact_setRoutineAudit]
    exact hwr.exact
  have hrel := robust_release hN hex coid
  have hcomp : b.terminalOrderAuditCompleteVirtual N.plain coid =
    b.terminalOrderAuditCompleteVirtual N coid := rfl
  rw [hcomp, hrel.plain]
  split
  · exact .refl (by simpa using hrel.exact)
  · exact .refl (by simpa using hex)

/-- A cancellation acknowledgement keeps the reservation. -/
lemma Exact.cancelledPendingAudit (h : a.Exact)
    (hget : a.orders.lookup coid = some order) : (a.cancelledPendingAudit coid order).2.Exact := by
  unfold VirtualAccount.cancelledPendingAudit
  split
  · exact h
  · simp only [exact_record, exact_setRoutineAudit, exact_clearStartupRepair, exact_setRecovery]
    exact h.setOrder hget rfl rfl rfl id

end VirtualAccount

namespace AccountState

variable {N : Numerics} {s : AccountState} {e : TradeEdge} {price : ℚ} {move : TradeMove}
  {r : OrderRequest} {status : OrderStatus}

lemma robust_withOrder {α : Type} {absent : α}
    {f g : OrderOwnership → α × VirtualAccount} (hs : s.account.Exact)
    (hfg : ∀ order, s.account.orders.lookup coid = some order →
      Robust Prod.snd (f order) (g order)) :
    Robust (fun r => r.2.account) (s.withOrder coid absent f) (s.withOrder coid absent g) := by
  unfold withOrder
  split
  · exact .refl hs
  split
  · exact .refl hs
  next order hget =>
  obtain ⟨hex, hplain⟩ := hfg order hget
  rw [hplain]
  exact .refl hex

/-! ### Creation -/

lemma reservationRow_request (hqty : 0 < r.quantity) (hprice : 0 < r.price) (accountId : String)
    (slot : ℕ) : ReservationRow (r.ownership accountId slot) := by
  refine ⟨?_, ?_, fun hside => ?_⟩
  · show 0 ≤ r.reserveCash
    unfold reserveCash
    split <;> positivity
  · show 0 ≤ r.reserveQuantity
    unfold reserveQuantity
    split
    · exact hqty.le
    · exact le_rfl
  · have hbuy : r.side = .buy := hside
    simp only [OrderOwnership.reservationCashPerShare, ownership, hbuy, if_true, Option.getD_some]
    positivity

variable {a : VirtualAccount} {b : VirtualAccount}

lemma tryReserveCash_eq_ok (h : a.tryReserveCash N r = .ok b) (hnn : 0 ≤ r.reserveCash) :
    b = { a with reservedCash := a.reservedCash + r.reserveCash } := by
  unfold tryReserveCash AtomicF64.tryReserve at h
  split at h
  · dsimp only at h
    split at h
    · cases h
    next reserved hrsv =>
    split at hrsv
    · cases hrsv
    cases hrsv
    cases h
    rfl
  next hzero =>
  cases h
  rw [le_antisymm (not_lt.1 hzero) hnn, add_zero]

lemma tryReservePosition_eq_ok (h : a.tryReservePosition N r = .ok b)
    (hnn : 0 ≤ r.reserveQuantity) : b.orders = a.orders ∧ b.reservedCash = a.reservedCash ∧
      ∀ token, (b.position token).reserved =
        (a.position token).reserved + if r.tokenId = token then r.reserveQuantity else 0 := by
  unfold tryReservePosition AtomicF64.tryReserve at h
  split at h
  · dsimp only at h
    split at h
    · cases h
    next reserved hrsv =>
    split at hrsv
    · cases hrsv
    cases hrsv
    cases h
    refine ⟨rfl, rfl, fun token => ?_⟩
    rw [position_setPosition]
    by_cases htok : token = r.tokenId
    · rw [if_pos htok, if_pos htok.symm, htok]
    · rw [if_neg htok, if_neg (Ne.symm htok), add_zero]
  next hzero =>
  cases h
  refine ⟨rfl, rfl, fun token => ?_⟩
  rw [le_antisymm (not_lt.1 hzero) hnn, ite_self, add_zero]

lemma exact_backfillOrderOwnership (heps : N.tol.eps = 0) (hs : s.account.Exact)
    (ho : ReservationRow o) : (s.backfillOrderOwnership N o).2.account.Exact := by
  refine backfillOrderOwnership_rule hs fun _ hnone => ?_
  rw [exact_bumpReservationEpoch]
  exact exact_raiseToMinimum hs hnone ho heps

/-! ### Trades -/

lemma reservationRow_failOrder (h : ReservationRow order) (tol : Tolerance) (qty : ℚ) (rev : Bool) :
    ReservationRow (failOrder tol order qty rev).1 := by
  have hpair (o : OrderOwnership) (ho : Priced o)
      (offBook : Bool) : ReservationRow
        (o.withReservation (if offBook then (0, 0) else desiredOrderReservation o)) := by
    cases offBook with
    | false => exact reservationRow_desired ho
    | true => exact ⟨le_rfl, le_rfl, ho⟩
  refine hpair _ ?_ _
  cases rev <;> exact h.perShare

lemma robust_settleOrder (hN : N.Ideal) (h : a.Exact)
    (hget : a.orders.lookup coid = some order) (e : TradeEdge) (move : TradeMove) :
    Robust id (a.settleOrder N coid order e move) (a.settleOrder N.plain coid order e move) := by
  have hrow := h.rows coid order hget
  unfold settleOrder
  rw [plain_tol]
  split
  · have hwr := exact_rewriteOrder hN h hget
      (reservationRow_failOrder hrow N.tol e.quantity move.shouldReverse)
      (by cases move.shouldReverse <;> rfl)
    dsimp only
    rw [hwr.plain]
    exact .refl (by simpa using hwr.exact)
  split
  · exact exact_rewriteOrder hN h hget (reservationRow_desired hrow.perShare) rfl
  · exact .refl h

lemma robust_closeAudit (hN : N.Ideal) (h : a.Exact) (coid : String) (fullyFilled : Bool) :
    Robust id (a.closeAudit N coid fullyFilled) (a.closeAudit N.plain coid fullyFilled) := by
  have hcomp : a.terminalOrderAuditCompleteVirtual N.plain coid =
    a.terminalOrderAuditCompleteVirtual N coid := rfl
  have hrel := robust_release hN h coid
  unfold closeAudit
  rw [hcomp, hrel.plain]
  split
  · exact .refl (by simpa using hrel.exact)
  split
  · exact .refl (by simpa using h)
  · exact .refl h

lemma exact_of_applyEdgeFee {r : Except FeeTransitionError Bool} {t : AccountState}
    (h : s.applyEdgeFee N e status = (r, t)) (hs : s.account.Exact) : t.account.Exact := by
  unfold applyEdgeFee at h
  split at h
  · cases h
    exact hs
  · cases h
    simpa using hs

@[simp] lemma exact_stampGeneration (changed : Bool) :
    (s.stampGeneration key changed).account.Exact ↔ s.account.Exact := by
  unfold stampGeneration
  split
  · split <;> simp
  · rfl

/-- What `register_prepared_order` checks leaves the price of a row free only if the row is marked
as an inferred cancellation, which reserves nothing. -/
lemma reservationRow_of_isFreshlyPrepared (heps : N.tol.eps = 0)
    (h : s.isFreshlyPrepared N o = true) (ho : o.inferredCancel = true → Priced o) :
    ReservationRow o := by
  simp only [isFreshlyPrepared, decide_eq_true_eq, heps, abs_nonpos_iff, sub_eq_zero] at h
  obtain ⟨-, -, -, -, -, hfill, hterm, -, -, hopen, -, hcash, hqty, hdes, -⟩ := h
  refine ⟨hcash, hqty, fun hbuy => ?_⟩
  cases hinf : o.inferredCancel with
  | true => exact ho hinf hbuy
  | false =>
    -- The whole order is open, and its price is what the row reserves for it.
    have hprice : o.quantity * o.reservationCashPerShare = o.reservedCash := by
      simpa [desiredOrderReservation, hinf, hterm, hfill, hbuy, hopen.le] using hdes
    exact nonneg_of_mul_nonneg_right (hprice ▸ hcash) hopen

/-! ### Operations -/

section

variable (hN : N.Ideal) (hs : s.account.Exact) {allow : Bool} {expected : OrderOwnership}
  {prior : Option AppliedTrade}
include hs

lemma exact_markOrderStatus :
    (s.markOrderStatusEffectiveWithPolicy coid status allow).2.account.Exact := by
  refine withOrder_rule hs fun order _ hget => ?_
  split
  · exact hs
  · rw [exact_record]
    exact hs.setOrder hget rfl rfl rfl id

lemma exact_markFilledPendingAudit : (s.markFilledPendingAudit N coid).2.account.Exact := by
  refine withOrder_rule hs fun order _ hget => ?_
  have hfill : (s.account.setOrder coid { order with status := .filled }).Exact :=
    hs.setOrder hget rfl rfl rfl id
  rw [exact_record]
  split <;> simpa using hfill

lemma exact_confirmRecoveryCancellation :
    (s.confirmRecoveryCancellation expected).2.account.Exact := by
  refine withOrder_rule hs fun order _ hget => ?_
  split
  · exact hs
  · split
    · exact hs
    · exact hs.cancelledPendingAudit hget

lemma exact_rebindOrderId {oid : String} : (s.rebindOrderId coid oid).2.account.Exact := by
  refine rebindOrderId_rule hs fun order _ hget => ?_
  rw [exact_record]
  exact hs.setOrder hget rfl rfl rfl id

lemma exact_reserveOrder : (s.reserveOrderWithFeePolicy N r allow).2.account.Exact := by
  refine reserveOrder_rule hs fun a hqty hprice _ hnone ha => ?_
  have hrow := reservationRow_request (r := r) hqty hprice s.registry.accountId orderSlotUnassigned
  rw [exact_bumpReservationEpoch]
  unfold tryReserve at ha
  split at ha
  · cases ha
  next b hb =>
  have hb := tryReserveCash_eq_ok hb hrow.cash
  obtain ⟨hords, hcash, hrsv⟩ := tryReservePosition_eq_ok ha hrow.quantity
  subst hb
  refine exact_of_newRow hs hnone hrow ?_ hcash hrsv
  rw [setOrder, hords]

lemma exact_advanceStatus {prior : AppliedTrade} :
    (s.advanceStatus N e coid order prior).2.account.Exact :=
  (stage_advanceStatus s coid order prior).rule
    (exact_of_applyEdgeFee rfl (by simpa using hs)) fun _ _ h => by simpa using h

lemma exact_replayOwnedTrade {applied : AppliedTrade} :
    (s.replayOwnedTrade N e price applied).2.account.Exact := by
  rcases stage_replayOwnedTrade with ⟨-, heq⟩ | ⟨-, -, hstage⟩
  · rw [heq]
    exact hs
  refine hstage.rule (exact_of_applyEdgeFee rfl ?_) fun _ _ h => by simpa using h
  unfold replayWritten
  split
  · simpa using hs
  · exact hs

include hN

lemma robust_releaseOrder :
    Robust account (s.releaseOrder N coid status) (s.releaseOrder N.plain coid status) := by
  refine (robust_withOrder hs fun order hget => ?_).map (f := Prod.snd) id
  have hrow : ReservationRow (releasedOrder order status) :=
    ⟨le_rfl, le_rfl, (hs.rows coid order hget).perShare⟩
  have hwr := exact_rewriteOrder hN hs hget hrow rfl
  rw [hwr.plain]
  exact .refl (by simpa using hwr.exact)

lemma robust_inferNullCancellation :
    Robust (fun r => r.2.account) (s.inferNullCancellation N expected)
      (s.inferNullCancellation N.plain expected) := by
  refine robust_withOrder hs fun order hget => ?_
  dsimp only
  split
  · exact .refl hs
  split
  · exact .refl hs
  · have hrow : ReservationRow (nullCancelledOrder order) :=
      ⟨le_rfl, le_rfl, (hs.rows _ order hget).perShare⟩
    have hwr := exact_rewriteOrder hN hs hget hrow rfl
    rw [hwr.plain]
    exact .refl (by simpa using hwr.exact)

lemma robust_authoritativeAudit {audit : AuthoritativeOrderAudit}
    {expected : Option OrderOwnership} :
    Robust (fun r => r.2.account)
      (s.applyAuthoritativeOrderAuditInner N coid status audit expected)
      (s.applyAuthoritativeOrderAuditInner N.plain coid status audit expected) := by
  unfold applyAuthoritativeOrderAuditInner
  split
  · exact .refl hs
  split
  · exact .refl hs
  next original matched tradeIds _ =>
  refine robust_withOrder hs fun order hget => ?_
  rw [plain_tol]
  split
  · exact .refl hs
  split
  · exact .refl hs
  have hrow : ReservationRow (auditedOrder order status matched tradeIds) :=
    reservationRow_desired (hs.rows coid order hget).perShare
  have haudit := robust_applyAudit hN hs hget hrow rfl
  rw [haudit.plain]
  exact .refl haudit.exact

lemma robust_markCancelledPendingTradeAudit {matched : ℚ} :
    Robust (fun r => r.2.account) (s.markCancelledPendingTradeAudit N coid matched)
      (s.markCancelledPendingTradeAudit N.plain coid matched) := by
  unfold markCancelledPendingTradeAudit
  rw [plain_tol]
  dsimp only
  split
  · exact .refl hs
  have hcleared : (s.account.setRoutineAudit coid false).Exact := by simpa using hs
  split
  · exact .refl hcleared
  next order hget =>
  split
  · exact .refl (by simpa using hs)
  have hrow : ReservationRow (sizeAuditedOrder order matched) :=
    reservationRow_desired (hcleared.rows coid order hget).perShare
  have hwr := exact_rewriteOrder hN hcleared hget hrow rfl
  rw [hwr.plain]
  exact .refl (by simpa using hwr.exact)

lemma robust_registerPreparedOrder (ho : o.inferredCancel = true → Priced o) :
    Robust (fun r => r.2.account) (s.registerPreparedOrder N o)
      (s.registerPreparedOrder N.plain o) := by
  have hfresh : s.isFreshlyPrepared N.plain o = s.isFreshlyPrepared N o := rfl
  unfold registerPreparedOrder
  rw [hfresh]
  split
  · exact .refl hs
  next hprep =>
  have hrow := reservationRow_of_isFreshlyPrepared hN.eps (by simpa using hprep) ho
  split
  · exact .refl hs
  split
  · exact .refl hs
  next hnone =>
  split
  · exact .refl hs
  have hwr := exact_adjustReservation hN (hs.rows_setOrder hrow)
    (by rw [rowsCash_newRow hs hnone]; rfl)
    fun other => by rw [rowsQuantity_newRow hs hnone, OrderOwnership.reservedOf]; rfl
  rw [hwr.plain]
  refine .refl ?_
  show Exact (bumpReservationEpoch _)
  simpa using hwr.exact

lemma robust_settleTrade (hget : s.account.orders.lookup coid = some order) :
    Robust (fun r => r.2.account) (s.settleTrade N e price coid order prior move)
      (s.settleTrade N.plain e price coid order prior move) := by
  have hwr : Robust account (s.writeEdge N e price coid order prior move)
      (s.writeEdge N.plain e price coid order prior move) := by
    have hmoved : (s.account.movePrincipal N e price move).Exact := by simpa using hs
    have hwr := robust_settleOrder hN hmoved (by rwa [movePrincipal_orders]) e move
    have hplain : s.account.movePrincipal N.plain e price move =
      s.account.movePrincipal N e price move := rfl
    unfold writeEdge
    rw [hplain, hwr.plain]
    refine .refl ?_
    split <;> simpa using hwr.exact
  unfold settleTrade edgeWritten
  dsimp only [plain_tol]
  rw [hwr.plain]
  have hwritten := hwr.exact
  generalize s.writeEdge N e price coid order prior move = written at hwritten
  have hfee status : written.applyEdgeFee N.plain e status =
    written.applyEdgeFee N e status := rfl
  rw [hfee]
  split
  · next t heq => exact .refl (exact_of_applyEdgeFee heq hwritten)
  next feeChanged t heq =>
  have ht := exact_of_applyEdgeFee heq hwritten
  have hclose := robust_closeAudit hN ht coid
    (move.shouldBook && (bookOrder N.tol order e.quantity).2)
  rw [markVirtualFeePending_account, hclose.plain]
  refine .refl ?_
  simpa using hclose.exact

lemma robust_advanceTrade :
    Robust (fun r => r.2.account) (s.advanceTrade N e price prior)
      (s.advanceTrade N.plain e price prior) := by
  have hagr : s.edgeAgrees N.plain e price = s.edgeAgrees N e price := rfl
  unfold advanceTrade
  rw [hagr, plain_tol]
  dsimp only
  split
  · exact .refl hs
  next order hget =>
  split
  · exact .refl hs
  split
  · exact .refl hs
  split
  · exact .refl hs
  split
  · exact .refl hs
  have hclaim : (s.claimTrade e.tradeKey).account.Exact := hs
  split
  · exact .refl (exact_advanceStatus hclaim)
  · exact robust_settleTrade hN hclaim hget

lemma robust_applyTradeTransitionVirtual :
    Robust (fun r => r.2.account) (s.applyTradeTransitionVirtual N e)
      (s.applyTradeTransitionVirtual N.plain e) := by
  unfold applyTradeTransitionVirtual
  rw [plain_tol]
  dsimp only
  split
  · exact .refl hs
  split
  · exact .refl hs
  next price _ =>
  split
  · exact .refl hs
  split
  · exact .refl hs
  split
  · exact .refl hs
  split
  · next applied _ =>
    split
    · exact .refl (exact_replayOwnedTrade hs)
    · exact robust_advanceTrade hN hs
  · exact robust_advanceTrade hN hs

lemma robust_applyTradeTransition :
    Robust (fun r => r.2.account) (s.applyTradeTransition N e)
      (s.applyTradeTransition N.plain e) := by
  unfold applyTradeTransition
  dsimp only
  split
  · exact .refl hs
  split
  · exact robust_applyTradeTransitionVirtual hN hs
  · exact .refl hs

end

end AccountState

/-! ## Runs -/

/-- Rows that callers hand over are valid ones. `register_prepared_order` checks this itself, unless
the row is marked as an inferred cancellation; `backfill_order_ownership` checks no sign. -/
def LifecycleOp.HandsOverRow : LifecycleOp → Prop
  | .registerPreparedOrder ownership => ownership.inferredCancel = true → Priced ownership
  | .backfillOrderOwnership ownership => ReservationRow ownership
  | _ => True

namespace AccountState

variable {N : Numerics} {s : AccountState}

/-- One operation keeps the counters exact and does not depend on how sums below zero are
treated. -/
lemma robust_step (hN : N.Ideal) (hs : s.account.Exact) {op : LifecycleOp} (hop : op.HandsOverRow) :
    Robust account (s.step N op) (s.step N.plain op) := by
  cases op with
  | environment registry => exact .refl hs
  | reserveOrder req allow => exact .refl (exact_reserveOrder hs)
  | registerPreparedOrder owned =>
    exact (robust_registerPreparedOrder hN hs hop).map (f := Prod.snd) id
  | backfillOrderOwnership owned => exact .refl (exact_backfillOrderOwnership hN.eps hs hop)
  | rebindOrderId coid oid => exact .refl (exact_rebindOrderId hs)
  | markOrderStatus coid status allow => exact .refl (exact_markOrderStatus hs)
  | markFilledPendingAudit coid => exact .refl (exact_markFilledPendingAudit hs)
  | authoritativeAudit coid status audit | zeroFillRecovery expected =>
    exact (robust_authoritativeAudit hN hs).map (f := Prod.snd) id
  | inferNullCancellation expected =>
    exact (robust_inferNullCancellation hN hs).map (f := Prod.snd) id
  | confirmRecoveryCancellation expected =>
    exact .refl (exact_confirmRecoveryCancellation hs)
  | markCancelledPendingTradeAudit coid matched =>
    exact (robust_markCancelledPendingTradeAudit hN hs).map (f := Prod.snd) id
  | markCancelledPendingAudit coid =>
    exact .refl (withOrder_rule hs fun _ _ hget => hs.cancelledPendingAudit hget)
  | releaseOrder coid status => exact robust_releaseOrder hN hs
  | trade edge => exact (robust_applyTradeTransition hN hs).map (f := Prod.snd) id

lemma robust_run (hN : N.Ideal) (hs : s.account.Exact) {ops : List LifecycleOp}
    (hops : ∀ op ∈ ops, op.HandsOverRow) :
    Robust account (s.run N ops) (s.run N.plain ops) := by
  induction ops generalizing s with
  | nil => exact .refl hs
  | cons op ops ih =>
    have hstep := robust_step hN hs (hops op (.head _))
    have hrest := ih hstep.exact fun op' h => hops op' (List.mem_cons_of_mem op h)
    refine ⟨hrest.exact, ?_⟩
    calc s.run N.plain (op :: ops) = (s.step N.plain op).run N.plain ops := rfl
      _ = (s.step N op).run N.plain ops := by rw [hstep.plain]
      _ = s.run N (op :: ops) := hrest.plain

lemma exact_seeded (accountId iid : String) (cash : ℚ) (balances : List (String × ℚ)) :
    (seeded accountId iid cash balances).account.Exact where
  cash := rfl
  quantity token := by
    induction balances with
    | nil => rfl
    | cons b balances ih =>
      have hcons : (seeded accountId iid cash (b :: balances)).account =
        (seeded accountId iid cash balances).account.setPosition b.1 ⟨b.2, 0⟩ := rfl
      rw [hcons, position_setPosition]
      split
      · rfl
      · exact ih
  rows _ _ h := by cases h

/-- Over exact rationals and with exact comparisons, from any state whose counters are exact and
after every sequence of operations that are handed valid rows, the counters are the sums over the
order rows, no row reserves a negative amount, and any addition on the counters that agrees with the
clamped one where the sum is not negative gives the same state. -/
theorem reservation_aggregates_exact (powf : ℚ → ℚ → ℚ) (s : AccountState)
    (hs : s.account.Exact) (ops : List LifecycleOp) (hops : ∀ op ∈ ops, op.HandsOverRow)
    (add : ℚ → ℚ → ℚ) (hadd : ∀ current delta, 0 ≤ current + delta → add current delta =
      AtomicF64.add current delta) :
    (s.run (.clamped .exact powf) ops).account.Exact ∧
      s.run { clamped .exact powf with addReserved := add } ops =
        s.run (.clamped .exact powf) ops := by
  have hrun := robust_run ⟨addsReserved_clamped .exact powf, rfl⟩ hs hops
  have hadds : ({ clamped .exact powf with addReserved := add } : Numerics).AddsReserved :=
    fun current delta h => (hadd current delta h).trans (max_eq_left h)
  exact ⟨hrun.exact, (robust_run ⟨hadds, rfl⟩ hs hops).plain.symm.trans hrun.plain⟩

/-- A buy of ten at one half, of which four are filled, keeps cash for six; a backfilled buy of two
keeps its own. -/
theorem reservation_aggregates_exact_backfill :
    let s := seeded "account" "maker" 100 []
    let restored : OrderOwnership :=
      { accountId := "account", instanceId := "maker", clientOrderId := "c2", orderId := "0xB2",
        tokenId := "token", side := .buy, quantity := 2, price := 1 / 2, reservedCash := 1,
        reservedQuantity := 0, status := .accepted }
    let ops := [
      .reserveOrder ⟨"maker", "c1", "0xA1", "token", .buy, 10, 1 / 2, 0⟩ false,
      .backfillOrderOwnership restored,
      .trade ⟨"t1", .matched, "c1", "0xa1", "token", .buy, 4, 1 / 2, none⟩]
    (s.run (.clamped .exact fun x _ => x) ops).account.reservedCash = 4 ∧
      (s.run (.clamped .exact fun x _ => x) ops).account.Exact ∧
      s.run { clamped .exact (fun x _ => x) with addReserved := (· + ·) } ops =
        s.run (.clamped .exact fun x _ => x) ops := by
  intro s restored ops
  have hrow : ReservationRow restored := ⟨by decide, by decide, fun _ => by decide +kernel⟩
  have hops : ∀ op ∈ ops, op.HandsOverRow := by
    simpa [ops, LifecycleOp.HandsOverRow] using hrow
  exact ⟨by decide +kernel, reservation_aggregates_exact _ _ (exact_seeded ..) _ hops _
    fun _ _ h => (max_eq_left h).symm⟩

/-- A backfilled row that reserves -5 leaves the counter at 0. A registered row with a negative
price per share reserves nothing while it counts as an inferred cancellation; an audit recomputes
its reservation, which is then negative. -/
theorem negative_row_miscounted :
    let N := Numerics.clamped .exact fun x _ => x
    let s := seeded "account" "maker" 100 []
    let row : OrderOwnership :=
      { accountId := "account", instanceId := "maker", clientOrderId := "c1", orderId := "0xA1",
        tokenId := "token", side := .buy, quantity := 10, price := 1 / 2, reservedCash := 0,
        reservedQuantity := 0 }
    let backfilled := s.step N (.backfillOrderOwnership { row with reservedCash := -5 })
    let audited := s.run N [
      .registerPreparedOrder { row with inferredCancel := true, cashFeePerShare := some (-1) },
      .authoritativeAudit "c1" .cancelled ⟨some (some 10), some (some 10), ["t1"]⟩]
    backfilled.account.reservedCash = 0 ∧ backfilled.account.rowsCash = -5 ∧
      audited.account.reservedCash = 0 ∧ audited.account.rowsCash = -5 := by
  decide +kernel

end AccountState

end HexAgent.Account
