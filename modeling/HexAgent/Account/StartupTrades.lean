import HexAgent.Account.StartupOrders

/-!
# Trade transitions and the startup check

Replays, status advances and fees change nothing that the startup check reads. An edge that books,
settles or fails its trade rewrites the order row and the booked quantity together
(`settledView_filled`), and then closes the order's audit or not. What it leaves is accepted under
`VirtualAccount.SettlementAgrees`, a condition on the order, its audits and the stored trade before
the edge: the row then ends on the side of the check that its reservation is written for
(`opened_of_agrees`, `closed_of_agrees`).
-/

namespace HexAgent.Account

open Function Option OrderView AppliedTrade VirtualAccount

variable (key : String) {tombstones : List RetiredTradeOwnershipTombstone} {N : Numerics}
  {trade : AppliedTrade} {qty : ℚ} {rev : Bool}

/-! ## Trades -/

lemma bookedFor_boundTrade {isMaker : Bool} {cfg : Option FeeBasis} :
    (boundTrade trade isMaker cfg).bookedFor = trade.bookedFor := by
  unfold boundTrade bindTradeFeeConfig
  cases cfg with
  | some cfg => rfl
  | none =>
    dsimp only
    split <;> rfl

namespace VirtualAccount

variable {a : VirtualAccount}

/-- A fee transition changes no view. -/
@[simp] lemma orderView_fee (status : OrderStatus) (isMaker : Bool) (cfg : Option FeeBasis) :
    (a.applyTradeFeeTransitionVirtual N key status isMaker cfg).2.orderView = a.orderView := by
  unfold applyTradeFeeTransitionVirtual
  split
  · rfl
  next prior hget =>
  dsimp only
  split
  · rfl
  split
  · rw [orderView_setFeePending, orderView_setTrade hget (bookedFor_boundTrade ..)]
  split
  · rw [orderView_setTrade hget (bookedFor_boundTrade ..)]
  · rw [orderView_setFeePending]
    exact (orderView_setTrade (by rwa [moveFee_trades])
      bookedFor_boundTrade).trans
      (orderView_moveFee ..)

end VirtualAccount

variable {order : OrderOwnership}

namespace AccountState

open VirtualAccount

variable {s : AccountState} {e : TradeEdge}

lemma orderView_of_applyEdgeFee {status : OrderStatus} {r : Except FeeTransitionError Bool}
    {t : AccountState} (h : s.applyEdgeFee N e status = (r, t)) :
    t.account.orderView = s.account.orderView := by
  unfold applyEdgeFee at h
  split at h
  · cases h
    rfl
  · cases h
    simp

lemma orderView_stampGeneration (changed : Bool) :
    (s.stampGeneration key changed).account.orderView = s.account.orderView := by
  unfold stampGeneration
  split
  · split
    · rfl
    · next trade hget => exact orderView_setTrade hget rfl
  · rfl

lemma accepted_replayOwnedTrade (hs : s.account.Accepted tombstones) {price : ℚ}
    {applied : AppliedTrade} (hget : s.account.trades.lookup e.tradeKey = some applied) :
    (s.replayOwnedTrade N e price applied).2.account.Accepted tombstones := by
  rcases stage_replayOwnedTrade with ⟨-, heq⟩ | ⟨-, -, hstage⟩
  · rw [heq]
    exact hs
  have htimed : (s.replayWritten e applied).account.orderView = s.account.orderView := by
    unfold replayWritten
    split
    · exact orderView_setTrade hget rfl
    · rfl
  refine hs.congr (hstage.rule (P := (orderView · = _))
    ((orderView_of_applyEdgeFee rfl).trans htimed) fun a coid h => ?_)
  rwa [orderView_record]

end AccountState

/-! ### The rows that an edge writes -/

variable {tol : Tolerance}

/-- An order filled to its target has nothing open. -/
lemma desiredOrderReservation_of_full (h : min (order.terminalMatchedQuantity.getD order.quantity)
    order.quantity ≤ order.filledQuantity) : desiredOrderReservation order = (0, 0) := by
  unfold desiredOrderReservation
  split
  · rfl
  · dsimp only
    rw [max_eq_right (sub_nonpos.2 h)]
    cases order.side <;> simp

lemma failOrder_reserved (h : order.status ≠ .rejected) : let row := (failOrder tol order qty rev).1
    (row.reservedCash, row.reservedQuantity) = desiredOrderReservation row := by
  cases rev <;> simp [failOrder, reverseFill, h, OrderOwnership.withReservation,
    desiredOrderReservation, OrderOwnership.reservationCashPerShare]

lemma failOrder_reserved_rejected (h : order.status = .rejected) :
    let row := (failOrder tol order qty rev).1
    (row.reservedCash, row.reservedQuantity) = (0, 0) := by
  cases rev <;> simp [failOrder, reverseFill, h, OrderOwnership.withReservation]

/-- A booking leaves nothing open, reopens the order, or keeps the status of an order that is
audited or cancelled. -/
lemma bookOrder_cases (order : OrderOwnership) (qty : ℚ) (heps : tol.eps = 0) :
    let row := (bookOrder tol order qty).1
    desiredOrderReservation row = (0, 0) ∨ terminalStatus row.status = false ∨
      row.status = order.status ∧
        (order.terminalMatchedQuantity.isSome = true ∨ order.status = .cancelled) ∧
        row.inferredCancel = order.inferredCancel ∧
        ¬min (order.terminalMatchedQuantity.getD order.quantity) order.quantity ≤
          min (order.filledQuantity + qty) order.quantity := by
  intro row
  by_cases hfull : min (order.terminalMatchedQuantity.getD order.quantity) order.quantity ≤
      min (order.filledQuantity + qty) order.quantity
  · exact .inl (desiredOrderReservation_of_full hfull)
  refine .inr ?_
  by_cases hopen : (order.terminalMatchedQuantity.isNone && !(order.status == .cancelled)) = true
  · left
    simp [row, bookOrder, heps, hfull, hopen, OrderOwnership.withReservation, terminalStatus]
  · refine .inr ⟨?_, ?_, rfl, hfull⟩
    · simp [row, bookOrder, heps, hfull, hopen, OrderOwnership.withReservation]
    · cases hmatched : order.terminalMatchedQuantity with
      | none => exact .inr (by simpa [hmatched] using hopen)
      | some _ => exact .inl rfl

/-- A booking of an audited order keeps it terminal. -/
lemma bookOrder_terminal (hmatched : order.terminalMatchedQuantity.isSome = true)
    (hterm : terminalStatus order.status = true) :
    terminalStatus (bookOrder tol order qty).1.status = true := by
  have hopen : order.terminalMatchedQuantity.isNone = false := by
    rw [isNone_eq_false_iff, hmatched]
  simp only [bookOrder, hopen, Bool.false_and, Bool.false_or, Bool.false_eq_true, if_false,
    OrderOwnership.withReservation]
  split
  · split
    · rfl
    · exact hterm
  · exact hterm

/-- A failure of a trade that is not booked keeps the order. -/
lemma failOrder_keeps : let row := (failOrder tol order qty false).1
    row.status = order.status ∧ desiredOrderReservation row = desiredOrderReservation order := by
  simp [failOrder, OrderOwnership.withReservation, desiredOrderReservation,
    OrderOwnership.reservationCashPerShare]

/-- A reversal reopens an order that is not off the book. -/
lemma failOrder_reopens (hrej : order.status ≠ .rejected) (hcan : order.status ≠ .cancelled) :
    let row := (failOrder tol order qty true).1
    desiredOrderReservation row = (0, 0) ∨ terminalStatus row.status = false := by
  intro row
  cases hinf : order.inferredCancel with
  | true =>
    left
    simp [row, failOrder, reverseFill, hinf, OrderOwnership.withReservation,
      desiredOrderReservation]
  | false =>
    right
    simp only [row, failOrder, reverseFill, hinf, OrderOwnership.withReservation]
    simp [hrej, hcan]
    split <;> rfl

/-- A failed trade of a cancelled order recovers what it leaves open. -/
lemma failOrder_cancelled (heps : tol.eps = 0) (hpriced : Priced order)
    (hcan : order.status = .cancelled) : let r := failOrder tol order qty rev
    r.1.status = .cancelled ∧ (r.2 = false → desiredOrderReservation r.1 = (0, 0)) := by
  intro r
  have hst : r.1.status = .cancelled := by
    cases rev <;> simp [r, failOrder, reverseFill, hcan, OrderOwnership.withReservation]
  refine ⟨hst, fun hrec => ?_⟩
  have hrecovers : r.2 = (_ || (r.1.status == .cancelled &&
      (decide (tol.eps < r.1.reservedCash) || decide (tol.eps < r.1.reservedQuantity)))) := rfl
  rw [hrec, hst, heps, eq_comm, Bool.or_eq_false_iff] at hrecovers
  obtain ⟨hcash, hqty⟩ : ¬0 < r.1.reservedCash ∧ ¬0 < r.1.reservedQuantity := by
    simpa using hrecovers.2
  have hdes : (r.1.reservedCash, r.1.reservedQuantity) = desiredOrderReservation r.1 :=
    failOrder_reserved (by rw [hcan]; decide)
  have hrow : ReservationRow (r.1.withReservation (desiredOrderReservation r.1)) :=
    reservationRow_desired (by cases rev <;> exact hpriced)
  rw [← hdes] at hrow ⊢
  exact Prod.ext (le_antisymm (not_lt.1 hcash) hrow.cash)
    (le_antisymm (not_lt.1 hqty) hrow.quantity)

lemma failOrder_rejected (hrej : order.status = .rejected) : let r := failOrder tol order qty rev
    r.1.status = .rejected ∧ r.2 = false := by
  cases rev <;> simp [failOrder, reverseFill, hrej, OrderOwnership.withReservation]

/-- The view of an order after an edge rewrote its row. -/
def settledView (tol : Tolerance) (v : OrderView) (order : OrderOwnership) (e : TradeEdge)
    (move : TradeMove) : OrderView :=
  if e.status = .failed then
    { v with
      row := some (failOrder tol order e.quantity move.shouldReverse).1
      recovery := (failOrder tol order e.quantity move.shouldReverse).2 }
  else if move.shouldBook then { v with row := some (bookOrder tol order e.quantity).1 }
  else v

namespace VirtualAccount

variable {a : VirtualAccount} {coid : String}

/-- Only an order with an authoritative audit completes one. -/
lemma audited_of_complete {row : OrderOwnership}
    (hcomp : a.terminalOrderAuditCompleteVirtual N coid = true)
    (hrow : a.orders.lookup coid = some row) :
    row.terminalTradeIdsAuthoritative = true ∧ row.terminalMatchedQuantity.isSome = true := by
  unfold terminalOrderAuditCompleteVirtual at hcomp
  rw [hrow] at hcomp
  cases hmatched : row.terminalMatchedQuantity with
  | none => simp [hmatched] at hcomp
  | some target =>
    cases hauth : row.terminalTradeIdsAuthoritative with
    | false => simp [hmatched, hauth] at hcomp
    | true => exact ⟨rfl, rfl⟩

/-- A trade row of one order changes that order's view only. -/
lemma orderView_setTrade_of_coid {key : String} (htr : trade.ownership.clientOrderId = coid)
    (hold : ∀ old, a.trades.lookup key = some old → old.ownership.clientOrderId = coid) :
    (a.setTrade key trade).orderView = update a.orderView coid
      { a.orderView coid with booked := a.bookedQuantity coid + (trade.bookedFor coid -
        (a.trades.lookup key).elim 0 fun old => old.bookedFor coid) } := by
  funext other
  have hbook := bookedQuantity_setTrade (a := a) key trade other
  by_cases h : other = coid
  · subst h
    rw [update_self, orderView, hbook]
    rfl
  · have hzero : ((a.trades.lookup key).elim 0 fun old => old.bookedFor other) = 0 := by
      cases hget : a.trades.lookup key with
      | none => rfl
      | some old => simp [bookedFor, hold old hget, Ne.symm h]
    have hnew : trade.bookedFor other = 0 := by simp [bookedFor, htr, Ne.symm h]
    rw [hzero, hnew, sub_zero, add_zero] at hbook
    rw [update_of_ne h, orderView, hbook]
    rfl

/-- Conditions on the order, its audits and the stored trade under which a booked, settled or failed
trade keeps its order acceptable. -/
@[mk_iff] structure SettlementAgrees (a : VirtualAccount) (e : TradeEdge) (coid : String)
    (order : OrderOwnership) : Prop where
  -- the edge resolves to a named order
  named : coid ≠ ""
  -- a buy reserves no negative amount per share
  priced : Priced order
  -- a failed row is not booked
  failedUnbooked : (a.trades.lookup e.tradeKey).all fun t => !(t.booked && t.failed)
  -- a reversal takes back what the order counts as filled
  reversal : (tradeMove e.status (a.trades.lookup e.tradeKey)).shouldReverse = true →
    e.quantity ≤ order.filledQuantity
  -- an audited order is terminal, and its routine audit has ended
  audited : order.terminalTradeIdsAuthoritative = true →
    terminalStatus order.status = true ∧ (a.orderView coid).routine = false
  -- a late fill of a released order leaves nothing of it open
  lateFill : (tradeMove e.status (a.trades.lookup e.tradeKey)).shouldBook = true →
    (a.orderView coid).released order.status = true →
    order.terminalMatchedQuantity.isSome = true ∨ order.status = .cancelled →
    order.inferredCancel = true ∨ min (order.terminalMatchedQuantity.getD order.quantity)
      order.quantity ≤ min (order.filledQuantity + e.quantity) order.quantity
  -- a failed trade of a rejected order finds no routine audit
  failedRejected : e.status = .failed → order.status = .rejected →
    (a.orderView coid).routine = false
  -- a failed trade of a filled order reopens an order without an authoritative audit, or it was
  -- never booked and the order is in a routine audit or has nothing open
  failedFilled : e.status = .failed → order.status = .filled → order.inferredCancel = true ∨
    if (tradeMove e.status (a.trades.lookup e.tradeKey)).shouldReverse = true then
      order.terminalTradeIdsAuthoritative = false
    else (a.orderView coid).routine = true ∨ desiredOrderReservation order = (0, 0)

instance (a : VirtualAccount) (e : TradeEdge) (coid : String) (order : OrderOwnership) :
    Decidable (a.SettlementAgrees e coid order) :=
  decidable_of_iff' _ (settlementAgrees_iff a e coid order)

end VirtualAccount

namespace AccountState

open VirtualAccount

variable {s : AccountState} {e : TradeEdge} {price : ℚ} {coid : String}
  {move : TradeMove}

/-- Change of the booked quantity of an order by an edge. -/
def bookedChange (s : AccountState) (e : TradeEdge) (price : ℚ) (coid : String)
    (order : OrderOwnership) (move : TradeMove) : ℚ :=
  (transitionedTrade (s.account.trades.lookup e.tradeKey) (s.edgeOwnership e price coid order)
    e.context (s.registry.tokenFeeConfigs.lookup e.tokenId) move).bookedFor coid -
  (s.account.trades.lookup e.tradeKey).elim 0 fun old => old.bookedFor coid

lemma orderView_writeEdge (price : ℚ) (order : OrderOwnership) (move : TradeMove)
    (hold : ∀ old, s.account.trades.lookup e.tradeKey = some old →
      old.ownership.clientOrderId = coid) :
    (s.writeEdge N e price coid order (s.account.trades.lookup e.tradeKey) move).account.orderView =
      update s.account.orderView coid
        { settledView N.tol (s.account.orderView coid) order e move with
          booked := (s.account.orderView coid).booked +
            s.bookedChange e price coid order move } := by
  unfold writeEdge
  extract_lets trade a b
  have htrs : a.trades = s.account.trades := by
    rw [settleOrder_trades, movePrincipal_trades]
  have hview : a.orderView = update s.account.orderView coid
      (settledView N.tol (s.account.orderView coid) order e move) := by
    rw [← orderView_movePrincipal (N := N) (a := s.account) e price move]
    unfold a settleOrder settledView
    split
    · rw [orderView_setRecovery, orderView_rewriteOrder, update_self, update_idem]
    split
    · rw [orderView_rewriteOrder]
    · rw [update_eq_self]
  have hbook : a.bookedQuantity coid = (s.account.orderView coid).booked := by
    have hsame := congrArg (fun views => (views coid).booked) hview
    rw [update_self] at hsame
    refine hsame.trans ?_
    unfold settledView
    split
    · rfl
    · split <;> rfl
  refine Eq.trans (b := b.orderView) ?_ ?_
  · split
    · exact orderView_setFeePending ..
    · rfl
  · have htr : trade.ownership.clientOrderId = coid := rfl
    rw [orderView_setTrade_of_coid htr (by rwa [htrs]), hview,
      update_self, update_idem, hbook, htrs]
    rfl

/-! ### Settlement -/

/-- A live edge books its quantity and a failed one books nothing, instead of what was booked. -/
lemma bookedChange_eq {prior : Option AppliedTrade}
    (hexisting : s.account.trades.lookup e.tradeKey = prior)
    (hcoid : ∀ old, prior = some old → old.ownership.clientOrderId = coid)
    (hqty : ∀ old, prior = some old → old.ownership.quantity = e.quantity)
    (hfail : prior.all fun t => !(t.booked && t.failed)) :
    s.bookedChange e price coid order (tradeMove e.status prior) =
      (if e.status = .failed then 0 else e.quantity) -
        if prior.any (·.booked) then e.quantity else 0 := by
  unfold bookedChange
  rw [hexisting]
  congr 1
  · by_cases hst : e.status = .failed
    · simp [bookedFor, transitionedTrade, edgeOwnership, hst]
    · cases hbook : prior.any (·.booked) <;>
        simp [bookedFor, transitionedTrade, edgeOwnership, tradeMove, hst, hbook]
  · cases prior with
    | none => rfl
    | some old =>
      simp only [all_some, Bool.not_eq_eq_eq_not, Bool.not_true, Bool.and_eq_false_imp] at hfail
      cases hbook : old.booked with
      | false => simp [bookedFor, hbook]
      | true =>
        simp [bookedFor, hbook, hfail hbook, hcoid old rfl, hqty old rfl]

/-- The edge is for the order and the quantity of the stored row, and the order has room for it. -/
structure EdgeFits (s : AccountState) (e : TradeEdge) (coid : String) (order : OrderOwnership) :
    Prop where
  coid : ∀ old, s.account.trades.lookup e.tradeKey = some old → old.ownership.clientOrderId = coid
  quantity : ∀ old, s.account.trades.lookup e.tradeKey = some old →
    old.ownership.quantity = e.quantity
  room : (s.account.trades.lookup e.tradeKey).any (·.booked) = false → e.status ≠ .failed →
    order.filledQuantity + e.quantity ≤ order.quantity

lemma settledView_row_isSome (tol : Tolerance) (e : TradeEdge) (move : TradeMove) {v : OrderView}
    (hrow : v.row = some order) :
    ∃ row, (settledView tol v order e move).row = some row := by
  unfold settledView
  split
  · exact ⟨_, rfl⟩
  split
  · exact ⟨_, rfl⟩
  · exact ⟨order, hrow⟩

section Sides

variable {a : VirtualAccount} {row : OrderOwnership} (hagr : a.SettlementAgrees e coid order)
  (hmove : tradeMove e.status (a.trades.lookup e.tradeKey) = move)
  (hrow : (settledView tol (a.orderView coid) order e move).row = some row)
include hagr hmove hrow

/-- While its audit stays open, the order is not released with something reserved. -/
lemma opened_of_agrees (heps : tol.eps = 0) :
    let view := settledView tol (a.orderView coid) order e move
    if e.status = .failed ∧ order.status = .rejected then view.released row.status = true
    else e.status = .failed ∨ move.shouldBook = true →
      view.released row.status = true → desiredOrderReservation row = (0, 0) := by
  intro view
  have hview : view = settledView tol (a.orderView coid) order e move := rfl
  subst hmove
  by_cases hst : e.status = .failed
  · rw [settledView, if_pos hst] at hview hrow
    cases hrow
    by_cases hrej : order.status = .rejected
    · rw [if_pos ⟨hst, hrej⟩, hview]
      simp only [released, failOrder_rejected hrej, hagr.failedRejected hst hrej]
      rfl
    rw [if_neg fun h => hrej h.2, hview]
    rintro - hrel
    simp only [released, Bool.and_eq_true, Bool.not_eq_eq_eq_not, Bool.not_true] at hrel
    obtain ⟨⟨hterm, hrec⟩, hroutine⟩ := hrel
    by_cases hcan : order.status = .cancelled
    · exact (failOrder_cancelled heps hagr.priced hcan).2 hrec
    cases hrev : (tradeMove e.status (a.trades.lookup e.tradeKey)).shouldReverse with
    | true =>
      rw [hrev] at hterm
      refine (failOrder_reopens hrej hcan).resolve_right fun hlive => ?_
      rw [hlive] at hterm
      cases hterm
    | false =>
      rw [hrev, failOrder_keeps.1] at hterm
      rw [failOrder_keeps.2]
      have hfilled : order.status = .filled := by
        cases hs : order.status <;> simp_all [terminalStatus]
      rcases hagr.failedFilled hst hfilled with hinf | hopen
      · simp [desiredOrderReservation, hinf]
      · rw [if_neg (by simp [hrev]), hroutine] at hopen
        exact hopen.resolve_left Bool.false_ne_true
  rw [if_neg fun h => hst h.1]
  rintro hbook hrel
  replace hbook := hbook.resolve_left hst
  rw [settledView, if_neg hst, if_pos hbook] at hview hrow
  cases hrow
  rw [hview] at hrel
  rcases bookOrder_cases order e.quantity heps with
    hzero | hlive | ⟨hsame, haudit, hinf, hopen⟩
  · exact hzero
  · rw [released, hlive] at hrel
    cases hrel
  · rw [hsame] at hrel
    rcases hagr.lateFill hbook hrel haudit with hcancel | hfull
    · simp [desiredOrderReservation, hinf, hcancel]
    · exact absurd hfull hopen

/-- If an authoritative audit closes, the order is released or has nothing open. -/
lemma closed_of_agrees (heps : tol.eps = 0) (hget : (a.orderView coid).row = some order)
    (hauth : row.terminalTradeIdsAuthoritative = true)
    (hmatched : row.terminalMatchedQuantity.isSome = true) :
    { settledView tol (a.orderView coid) order e move with recovery := false }.released
        row.status = true ∨ desiredOrderReservation row = (0, 0) := by
  subst hmove
  -- The edge keeps the routine audit, so only the status of the row counts.
  suffices h : order.terminalTradeIdsAuthoritative = true ∧
      (terminalStatus order.status = true → terminalStatus row.status = true ∨
        desiredOrderReservation row = (0, 0)) by
    obtain ⟨hterm, hroutine⟩ := hagr.audited h.1
    refine (h.2 hterm).imp_left fun hrow => ?_
    have hkept : (settledView tol (a.orderView coid) order e
        (tradeMove e.status (a.trades.lookup e.tradeKey))).routine = false := by
      unfold settledView
      split
      · exact hroutine
      split <;> exact hroutine
    simp only [released, hrow, hkept]
    rfl
  unfold settledView at hrow
  split at hrow
  · next hst =>
    cases hrow
    have haudited : order.terminalTradeIdsAuthoritative = true := by
      generalize (tradeMove e.status (a.trades.lookup e.tradeKey)).shouldReverse = rev at hauth
      cases rev <;> exact hauth
    refine ⟨haudited, fun hterm => ?_⟩
    by_cases hrej : order.status = .rejected
    · rw [(failOrder_rejected hrej).1]
      exact .inl rfl
    by_cases hcan : order.status = .cancelled
    · rw [(failOrder_cancelled heps hagr.priced hcan).1]
      exact .inl rfl
    have hfilled : order.status = .filled := by
      cases hs : order.status <;> simp_all [terminalStatus]
    cases hrev : (tradeMove e.status (a.trades.lookup e.tradeKey)).shouldReverse with
    | true =>
      have hopen := hagr.failedFilled hst hfilled
      rw [if_pos hrev, haudited] at hopen
      have hinf : order.inferredCancel = true := hopen.resolve_right (by decide)
      exact .inr (by simp [failOrder, reverseFill, OrderOwnership.withReservation,
        desiredOrderReservation, hinf])
    | false =>
      rw [failOrder_keeps.1]
      exact .inl hterm
  split at hrow
  · cases hrow
    exact ⟨hauth, fun hterm => .inl (bookOrder_terminal hmatched hterm)⟩
  · obtain rfl : order = row := some_inj.1 (hget.symm.trans hrow)
    exact ⟨hauth, .inl⟩

omit hagr in
/-- A booking that fills the order to its target leaves nothing open. -/
lemma filled_of_booked (heps : tol.eps = 0)
    (h : (move.shouldBook && (bookOrder tol order e.quantity).2) = true) :
    (bookOrder tol order e.quantity).1 = row ∧ desiredOrderReservation row = (0, 0) := by
  obtain ⟨hbook, hfull⟩ := Bool.and_eq_true_iff.1 h
  have hlive : e.status ≠ .failed := by
    rintro hfail
    rw [← hmove] at hbook
    simp [tradeMove, hfail] at hbook
  have hbooked : (bookOrder tol order e.quantity).1 = row := by
    simpa [settledView, hlive, hbook] using hrow
  have hfull := of_decide_eq_true hfull
  rw [heps, add_zero] at hfull
  rw [← hbooked]
  exact ⟨rfl, desiredOrderReservation_of_full hfull⟩

end Sides

/-- The row that an edge writes is accepted as long as its audit is not closed. -/
lemma accepted_settledView {v w : OrderView}
    {row : OrderOwnership} (hv : v.Accepted tombstones coid) (hvrow : v.row = some order)
    (hw : w = { settledView tol v order e move with booked := w.booked })
    (hrow : w.row = some row)
    (hfill : w.booked + retiredQuantity tombstones coid row = row.filledQuantity)
    (hside : if e.status = .failed ∧ order.status = .rejected then
        w.released row.status = true
      else e.status = .failed ∨ move.shouldBook = true →
        w.released row.status = true → desiredOrderReservation row = (0, 0)) :
    w.Accepted tombstones coid := by
  have hviewrow : (settledView tol v order e move).row = some row := by
    rw [hw] at hrow
    exact hrow
  unfold settledView at hviewrow
  by_cases hst : e.status = .failed
  · rw [if_pos hst] at hviewrow
    have hrowEq : (failOrder tol order e.quantity move.shouldReverse).1 = row :=
      some_inj.1 hviewrow
    by_cases hrej : order.status = .rejected
    · rw [if_pos ⟨hst, hrej⟩] at hside
      refine accepted_of_zero hrow hfill ?_ (.inl hside)
      rw [← hrowEq]
      exact failOrder_reserved_rejected hrej
    · rw [if_neg fun h => hrej h.2] at hside
      refine accepted_of_desired hrow hfill ?_ (hside (.inl hst))
      rw [← hrowEq]
      exact failOrder_reserved hrej
  rw [if_neg fun h => hst h.1] at hside
  rw [if_neg hst] at hviewrow
  by_cases hbook : move.shouldBook = true
  · rw [if_pos hbook] at hviewrow
    have hrowEq : (bookOrder tol order e.quantity).1 = row := some_inj.1 hviewrow
    refine accepted_of_desired hrow hfill ?_ (hside (.inr hbook))
    rw [← hrowEq]
    rfl
  · -- The edge only settles a booked trade: row and audits are untouched.
    rw [if_neg hbook] at hviewrow
    have hsame : row = order := some_inj.1 (hviewrow.symm.trans hvrow)
    subst hsame
    have hflags : w.recovery = v.recovery ∧ w.routine = v.routine := by
      rw [hw]
      simp [settledView, hst, hbook]
    intro o ho
    rw [hrow, some_inj] at ho
    subst ho
    refine ⟨hfill, (hv row hvrow).2.trans ?_⟩
    simp [expected, released, hflags]

section

variable (hs : s.account.Accepted tombstones) (hget : s.account.orders.lookup coid = some order)
  (hfits : s.EdgeFits e coid order) (hagr : s.account.SettlementAgrees e coid order)

include hs hget hfits hagr

/-- The booked quantity follows the filled quantity of the row that the edge writes. -/
lemma settledView_filled (price : ℚ) {row : OrderOwnership}
    (hrow : (settledView N.tol (s.account.orderView coid) order e
      (tradeMove e.status (s.account.trades.lookup e.tradeKey))).row = some row) :
    (s.account.orderView coid).booked + s.bookedChange e price coid order
        (tradeMove e.status (s.account.trades.lookup e.tradeKey)) +
      retiredQuantity tombstones coid row = row.filledQuantity := by
  have hsum := (hs coid order hget).1
  have hrev := hagr.reversal
  have hroom := hfits.room
  rw [bookedChange_eq rfl hfits.coid hfits.quantity hagr.failedUnbooked]
  clear hfits hagr
  generalize s.account.trades.lookup e.tradeKey = existing at *
  unfold settledView at hrow
  by_cases hst : e.status = .failed
  · rw [if_pos hst] at hrow
    cases hrow
    have hmove : (tradeMove e.status existing).shouldReverse = existing.any (·.booked) := by
      simp [tradeMove, hst]
    rw [hmove] at hrev ⊢
    rw [if_pos hst]
    cases hbooked : existing.any (·.booked) with
    | false =>
      rw [if_neg Bool.false_ne_true, sub_zero, add_zero]
      exact hsum
    | true =>
      show _ + retiredQuantity tombstones coid order = max (order.filledQuantity - e.quantity) 0
      rw [max_eq_left (sub_nonneg.2 (hrev hbooked)), ← hsum, if_pos rfl]
      ring
  rw [if_neg hst] at hrow
  rw [if_neg hst]
  cases hbooked : existing.any (·.booked) with
  | false =>
    have hbook : (tradeMove e.status existing).shouldBook = true := by
      simp [tradeMove, hst, hbooked]
    rw [if_pos hbook] at hrow
    cases hrow
    simp only [Bool.false_eq_true, if_false]
    show _ + (e.quantity - 0) + retiredQuantity tombstones coid order = min _ _
    rw [min_eq_left (hroom hbooked hst), ← hsum]
    ring
  | true =>
    have hbook : ¬(tradeMove e.status existing).shouldBook = true := by
      simp [tradeMove, hbooked]
    rw [if_neg hbook] at hrow
    have hsame : row = order := some_inj.1 (hrow.symm.trans hget)
    subst hsame
    simp only [if_true, sub_self, add_zero]
    exact hsum

lemma accepted_settleTrade (heps : N.tol.eps = 0) :
    (s.settleTrade N e price coid order (s.account.trades.lookup e.tradeKey)
      (tradeMove e.status (s.account.trades.lookup e.tradeKey))).2.account.Accepted tombstones := by
  obtain ⟨row, hrow⟩ := settledView_row_isSome N.tol e
    (tradeMove e.status (s.account.trades.lookup e.tradeKey)) (v := s.account.orderView coid) hget
  have hfill := settledView_filled hs hget hfits hagr price hrow
  have hopen := opened_of_agrees hagr rfl hrow heps
  have hclose := closed_of_agrees hagr rfl hrow heps hget
  have hview := orderView_writeEdge (N := N) price order
    (tradeMove e.status (s.account.trades.lookup e.tradeKey)) hfits.coid
  unfold settleTrade
  generalize hmove : tradeMove e.status (s.account.trades.lookup e.tradeKey) = move at *
  have hedge r t
      (h : s.edgeWritten N e price coid order (s.account.trades.lookup e.tradeKey) move = (r, t)) :
      t.account.orderView = _ :=
    (orderView_of_applyEdgeFee h).trans hview
  split
  · next t heq =>
    exact hs.update coid (hedge _ t heq) (accepted_settledView (hs coid) hget rfl hrow hfill hopen)
  next feeChanged t heq =>
  have ht := hedge _ t heq
  have htrow : t.account.orders.lookup coid = some row := by
    have := congrArg (fun views => (views coid).row) ht
    rw [update_self] at this
    exact this.trans hrow
  let w : OrderView := { settledView N.tol (s.account.orderView coid) order e move with
    booked := (s.account.orderView coid).booked + s.bookedChange e price coid order move }
  suffices hclosed : ∃ v, (t.account.closeAudit N coid
      (move.shouldBook && (bookOrder N.tol order e.quantity).2)).orderView =
      update s.account.orderView coid v ∧ v.Accepted tombstones coid by
    obtain ⟨v, hv, hacc⟩ := hclosed
    refine hs.update coid ?_ hacc
    dsimp only
    rwa [orderView_record, orderView_stampGeneration, markVirtualFeePending_account]
  unfold closeAudit
  rw [htrow, any_some]
  split
  · next hcomp =>
    obtain ⟨hauth, hmatched⟩ := audited_of_complete hcomp htrow
    refine ⟨{ w with row := some (row.withReservation (0, 0)), recovery := false }, ?_,
      accepted_of_zero rfl hfill rfl (hclose hauth hmatched)⟩
    rw [orderView_setRecovery, orderView_release htrow, ht, update_self, update_self, update_idem,
      update_idem]
  split
  · next hfull =>
    obtain ⟨hbooked, hzero⟩ := filled_of_booked hmove hrow heps (Bool.and_eq_true_iff.1 hfull).1
    refine ⟨{ w with recovery := false }, ?_,
      accepted_of_desired hrow hfill (by rw [← hbooked]; rfl) fun _ => hzero⟩
    rw [orderView_setRecovery, ht, update_self, update_idem]
  · exact ⟨w, ht, accepted_settledView (hs coid) hget rfl hrow hfill hopen⟩

end

/-- An accepted edge that books, settles or fails its trade does so under the conditions of
`SettlementAgrees`. -/
def TradeAgrees (N : Numerics) (s : AccountState) (e : TradeEdge) : Prop :=
  ∀ price order existing, EdgeAccepted N s e price order existing →
    existing = none ∨ (tradeMove e.status existing).isNone = false →
    s.account.SettlementAgrees e (s.resolveCoid e) order

lemma accepted_applyTradeTransition (htol : N.tol = .exact) (hs : s.account.Accepted tombstones)
    (hagr : s.TradeAgrees N e) : (s.applyTradeTransition N e).2.account.Accepted tombstones := by
  have hrel : N.tol.relative = 0 := by rw [htol]; rfl
  have heps : N.tol.eps = 0 := by rw [htol]; rfl
  refine applyTradeTransition_cases (P := fun r => r.account.Accepted tombstones) hs ?_ ?_ ?_
  · exact fun price applied hadm _ => accepted_replayOwnedTrade hs hadm.existing_eq
  · intro price order applied h _
    refine hs.congr ((stage_advanceStatus (s.claimTrade e.tradeKey) _ order applied).rule
      (P := (orderView · = s.account.orderView)) ((orderView_of_applyEdgeFee rfl).trans
        (orderView_setTrade h.existing_eq rfl)) fun a coid h => ?_)
    rwa [orderView_record]
  · intro price order existing h hsett
    have hexisting : (s.claimTrade e.tradeKey).account.trades.lookup e.tradeKey = existing :=
      h.existing_eq
    have hval := h.agrees
    have hguard := hagr price order existing h hsett
    have hprior old (hold : existing = some old) :
        old.ownership.clientOrderId = s.resolveCoid e ∧ old.ownership.quantity = e.quantity := by
      rw [hold] at hval
      simp only [all_some, edgeAgrees, Bool.and_eq_true, validateOwnedTradeReplay, hrel, mul_zero,
        max_self, abs_nonpos_iff, sub_eq_zero, decide_eq_true_eq] at hval
      exact ⟨hval.1.1.resolve_left hguard.named, hval.1.2.2.2.2.2.1⟩
    subst hexisting
    refine accepted_settleTrade (s := s.claimTrade e.tradeKey) hs h.order_eq ?_ hguard heps
    refine ⟨fun old hold => (hprior old hold).1, fun old hold => (hprior old hold).2,
      fun hbook hst => ?_⟩
    have hfits := h.fits
    generalize (s.claimTrade e.tradeKey).account.trades.lookup e.tradeKey = prior at hbook hfits
    have hall : prior.all (!·.booked) = true := by
      cases prior <;> simp_all
    simp only [fillRefused, hrel, mul_zero, max_self, add_zero, hall, Bool.true_and,
      Bool.or_eq_false_iff, Bool.and_eq_false_imp, bne_iff_ne, ne_eq, decide_eq_false_iff_not,
      not_lt] at hfits
    exact hfits.2 hst

end AccountState

end HexAgent.Account
