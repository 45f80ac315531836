import HexAgent.Account.EconomicFees

/-!
# The economic replay law

After every run of the lifecycle owner the balances should be the seed and the effects of the
trades. Three things break this. The counters clamp at zero, so a booking that takes more than
there is loses the difference and its reversal does not restore it. A FAILED edge without a context
marks the row failed but leaves its booked fee in the balances. An edge may repeat a quantity up to
the replay tolerance, and the row is then reversed by another quantity than it was booked with.

`failed_trade_not_restored` has the first two. Runs in which none of the three happens obey the law
(`economics_replay`).
-/

namespace HexAgent.Account

open AList Option VirtualAccount TradeMove LifecycleOp TradeEdge

variable {N : Numerics} {seed : Option String → ℚ} {key : String}

/-- The balances are the seed and what the rows have moved, every stored fee is the one of its row,
and nothing of a failed row is left. -/
structure VirtualAccount.Booked (N : Numerics) (seed : Option String → ℚ) (a : VirtualAccount) :
    Prop where
  ledger : a.Ledger seed
  feeRow : ∀ key t, a.trades.lookup key = some t → FeeRow N t
  ledgerRow : ∀ key t, a.trades.lookup key = some t → LedgerRow t

namespace VirtualAccount

variable {a b : VirtualAccount}

lemma Booked.congr (h : a.Booked N seed) (hbooks : b.books = a.books) : b.Booked N seed := by
  have heconomics : b.economics = a.economics := congrArg Prod.fst hbooks
  have htrs : b.trades = a.trades := congrArg Prod.snd hbooks
  refine ⟨fun asset => ?_, htrs ▸ h.feeRow, htrs ▸ h.ledgerRow⟩
  rw [heconomics, htrs]
  exact h.ledger asset

lemma Booked.rowStep (h : a.Booked N seed) {t : AppliedTrade} (hstep : RowStep a b key t)
    (hfee : FeeRow N t) (hrow : LedgerRow t) : b.Booked N seed where
  ledger := hstep.ledger h.ledger
  feeRow k t' hlookup := by
    rw [hstep.lookup] at hlookup
    split at hlookup
    · cases hlookup
      exact hfee
    · exact h.feeRow k t' hlookup
  ledgerRow k t' hlookup := by
    rw [hstep.lookup] at hlookup
    split at hlookup
    · cases hlookup
      exact hrow
    · exact h.ledgerRow k t' hlookup

/-- Without trades the balances are the seed. -/
lemma booked_of_no_trades (h : a.trades = ∅) : a.Booked N a.economics.amount where
  ledger asset := by rw [h, sumBy_empty, add_zero]
  feeRow key t hlookup := by
    rw [h] at hlookup
    cases hlookup
  ledgerRow key t hlookup := by
    rw [h] at hlookup
    cases hlookup

end VirtualAccount

/-! ## Booking and reversing -/

/-- Same instrument, side, quantity and price. -/
structure TradeOwnership.SameTerms (x y : TradeOwnership) : Prop where
  tokenId : x.tokenId = y.tokenId
  side : x.side = y.side
  quantity : x.quantity = y.quantity
  price : x.price = y.price

lemma TradeOwnership.SameTerms.principal_eq {x y : TradeOwnership} (h : x.SameTerms y) :
    x.principal = y.principal := by
  rw [principal, principal, h.side, h.quantity, h.price]

/-- The principal with the sign of a move. -/
def TradeMove.principal (move : TradeMove) (principal : ℚ × ℚ) : ℚ × ℚ :=
  if move.shouldReverse then -principal else if move.shouldBook then principal else 0

section Write

variable {s : AccountState} {e : TradeEdge} {price : ℚ} {order : OrderOwnership} {t : AppliedTrade}
  {existing : Option AppliedTrade} {ownership : TradeOwnership} {context : Option TradeContext}
  {current : Option FeeBasis}

/-- An accepted edge of a known trade has its role. -/
lemma EdgeAccepted.role (h : EdgeAccepted N s e price order (some t)) :
    e.InRole t := by
  unfold InRole
  have hagr := h.agrees
  simp only [all_some, AccountState.edgeAgrees, Bool.and_eq_true] at hagr
  cases hcont : e.context with
  | none => rfl
  | some context =>
    rw [hcont, all_some, Bool.and_eq_true] at hagr
    simpa using hagr.2.1

/-- The row that an edge writes has moved what its predecessor had, and the principal of the
move. -/
lemma moved_transitionedTrade (context : Option TradeContext) (current : Option FeeBasis)
    (hterms : ∀ t, existing = some t → t.ownership.SameTerms ownership) :
    let move := tradeMove ownership.status existing
    (transitionedTrade existing ownership context current move).moved =
      existing.elim 0 (·.moved) + move.principal ownership.principal := by
  intro move
  cases existing with
  | none =>
    cases hfail : ownership.status == .failed <;>
      simp [move, tradeMove, transitionedTrade, AppliedTrade.moved, principal, hfail]
  | some t =>
    have hprinc := (hterms t rfl).principal_eq
    cases hfail : ownership.status == .failed <;> cases hbook : t.booked <;>
      simp [move, tradeMove, transitionedTrade, AppliedTrade.moved, principal, hfail,
        hbook, hprinc] <;> abel

/-- An edge keeps the fee of a row of its terms and its role. -/
lemma FeeRow.transitionedTrade {move : TradeMove}
    (hrows : ∀ t, existing = some t → FeeRow N t ∧ t.ownership.SameTerms ownership ∧
      (context.any fun context => t.isMaker.any (· != context.isMaker)) = false) :
    FeeRow N (transitionedTrade existing ownership context current move) := by
  cases existing with
  | none => exact .inl ⟨rfl, rfl, rfl, rfl⟩
  | some t =>
    obtain ⟨hrow, hterms, hrole⟩ := hrows t rfl
    rcases hrow with ⟨hbook, hphys, husdc, hshares⟩ | ⟨m, hm, hfee, hcfg⟩
    · refine .inl ⟨hbook, ?_, husdc, hshares⟩
      show (t.physicalFeeBooked && _) = false
      rw [hphys, Bool.false_and]
    · refine .inr ⟨m, ?_, ?_, fun h => ?_⟩
      · -- The role of the edge, if it has one, is the stored one.
        cases context with
        | none => exact hm
        | some context => exact congrArg some (role_eq hrole hm).symm
      · show (t.usdcFee, t.sharesFee) = _
        rw [hfee]
        cases m with
        | true => rw [configuredTradeFeeAmounts_maker, configuredTradeFeeAmounts_maker]
        | false =>
          obtain ⟨cfg, hsome⟩ := isSome_iff_exists.1 (hcfg rfl)
          show _ = configuredTradeFeeAmounts N _ false (feeConfigForTrade t current)
          rw [feeConfigForTrade, hsome]
          show executionFeeAmounts _ _ _ _ _ _ _ = executionFeeAmounts _ _ _ _ _ _ _
          rw [hterms.quantity, hterms.price, hterms.side]
          rfl
      · obtain ⟨cfg, hsome⟩ := isSome_iff_exists.1 (hcfg h)
        show (feeConfigForTrade t current).isSome
        rw [feeConfigForTrade, hsome]
        rfl

end Write

namespace VirtualAccount

variable (coid : String) {a : VirtualAccount} {e : TradeEdge} {order : OrderOwnership}

lemma books_settleOrder {move : TradeMove} :
    (a.settleOrder N coid order e move).books = a.books := by
  unfold settleOrder
  split
  · simp
  split <;> simp

lemma books_closeAudit (fullyFilled : Bool) :
    (a.closeAudit N coid fullyFilled).books = a.books := by
  unfold closeAudit
  split
  · simp
  split <;> simp

lemma amount_movePrincipal (hadd : N.addBalance = AtomicF64.add) {s : AccountState} {price : ℚ}
    {move : TradeMove} (hcov : a.economics.Covers e.tokenId
      (move.principal (s.edgeOwnership e price coid order).principal)) (asset : Option String) :
    (a.movePrincipal N e price move).economics.amount asset = a.economics.amount asset +
      movement e.tokenId (move.principal (s.edgeOwnership e price coid order).principal) asset := by
  unfold movePrincipal
  split
  · next hmoves =>
    rw [← amount_move hadd hcov]
    have hdelta : move.principal (s.edgeOwnership e price coid order).principal =
        (-(if e.side = .buy then 1 else -1) * e.quantity * price *
            (if move.shouldReverse then -1 else 1),
          (if e.side = .buy then 1 else -1) * e.quantity *
            (if move.shouldReverse then -1 else 1)) := by
      rw [principal, TradeOwnership.principal, AccountState.edgeOwnership]
      cases hrev : move.shouldReverse with
      | true => simp
      | false =>
        rw [hrev, Bool.or_false] at hmoves
        simp [hmoves]
    rw [hdelta]
  next hmoves =>
  rw [Bool.or_eq_true, not_or] at hmoves
  have hdelta : move.principal (s.edgeOwnership e price coid order).principal = 0 := by
    simp [principal, hmoves.1, hmoves.2]
  rw [hdelta, movement_zero, add_zero]

end VirtualAccount

namespace AccountState

open VirtualAccount

variable {s : AccountState} {e : TradeEdge} {price : ℚ} {order : OrderOwnership}
  {existing : Option AppliedTrade}

/-- Order row, trade row and fee mark leave the balances alone. -/
lemma economics_writeEdge {coid : String} {move : TradeMove} :
    (s.writeEdge N e price coid order existing move).account.economics =
      (s.account.movePrincipal N e price move).economics := by
  have hsettle : ((s.account.movePrincipal N e price move).settleOrder N coid order e
      move).economics = (s.account.movePrincipal N e price move).economics :=
    congrArg Prod.fst (books_settleOrder coid)
  rw [← hsettle]
  unfold writeEdge
  dsimp only
  split <;> rfl

/-- Balances and row of an edge of the same terms move together. -/
lemma rowStep_writeEdge (hadd : N.addBalance = AtomicF64.add) {coid : String}
    (hcov : s.account.economics.Covers e.tokenId
      ((tradeMove e.status existing).principal (s.edgeOwnership e price coid order).principal))
    (hget : s.account.trades.lookup e.tradeKey = existing)
    (hterms : ∀ t, existing = some t → t.ownership.SameTerms (s.edgeOwnership e price coid order)) :
    let move := tradeMove e.status existing
    RowStep s.account (s.writeEdge N e price coid order existing move).account e.tradeKey
      (transitionedTrade existing (s.edgeOwnership e price coid order) e.context
        (s.registry.tokenFeeConfigs.lookup e.tokenId) move) := by
  intro move
  subst hget
  have heconomics : ((s.account.movePrincipal N e price move).settleOrder N coid order e
      move).economics = (s.account.movePrincipal N e price move).economics :=
    congrArg Prod.fst (books_settleOrder coid)
  have hstep := RowStep.setTrade e.tradeKey (fun asset => by
      rw [heconomics]
      exact amount_movePrincipal coid hadd hcov asset)
    (by rw [settleOrder_trades, movePrincipal_trades])
    (fun t ht => (hterms t ht).tokenId)
    (moved_transitionedTrade e.context (s.registry.tokenFeeConfigs.lookup e.tokenId) hterms)
  refine hstep.congr ?_
  show books (if e.context.isNone then _ else _) = _
  split
  · exact books_setFeePending
  · rfl

lemma booked_stampGeneration (hs : s.account.Booked N seed) {changed : Bool} :
    (s.stampGeneration key changed).account.Booked N seed := by
  unfold stampGeneration
  split
  swap
  · exact hs
  split
  · exact hs
  next t hget =>
  exact hs.rowStep (.rewrite hget fun _ => rfl) (hs.feeRow key t hget) (hs.ledgerRow key t hget)

/-! ## Edges that keep the law -/

end AccountState

/-- The row at which an edge settles its fee and the principal that it books or reverses, as the
shard decides them before the edge. -/
inductive EdgeRow (N : Numerics) (s : AccountState) (e : TradeEdge) : AppliedTrade → ℚ × ℚ → Prop
  | replayed {price : ℚ} {t : AppliedTrade} (admitted : EdgeAdmitted N s e price (some t))
      (replay : e.isReplay t = true) : EdgeRow N s e t 0
  | advanced {price : ℚ} {order : OrderOwnership} {t : AppliedTrade}
      (accepted : EdgeAccepted N s e price order (some t))
      (keeps : (tradeMove e.status (some t)).isNone = true) : EdgeRow N s e (e.advancedRow t) 0
  | settled {price : ℚ} {order : OrderOwnership} {existing : Option AppliedTrade}
      (accepted : EdgeAccepted N s e price order existing)
      (moves : existing = none ∨ (tradeMove e.status existing).isNone = false) :
      EdgeRow N s e (transitionedTrade existing
          (s.edgeOwnership e price (s.resolveCoid e) order) e.context
          (s.registry.tokenFeeConfigs.lookup e.tokenId) (tradeMove e.status existing))
        ((tradeMove e.status existing).principal
          (s.edgeOwnership e price (s.resolveCoid e) order).principal)

/-- Cash and tokens cover the principal of an edge, and then the fee of its row as well. -/
def TradeEdge.Covered (N : Numerics) (s : AccountState) (e : TradeEdge) (row : AppliedTrade)
    (principal : ℚ × ℚ) : Prop :=
  s.account.economics.Covers row.ownership.tokenId principal ∧
    ∀ context ∈ e.context, s.account.economics.Covers row.ownership.tokenId
      (principal + row.feeDelta N context.isMaker (s.takerFeeConfig e context))

instance (N : Numerics) (s : AccountState) (e : TradeEdge) (row : AppliedTrade)
    (principal : ℚ × ℚ) : Decidable (e.Covered N s row principal) :=
  inferInstanceAs (Decidable (_ ∧ _))

/-- The condition under which an edge keeps the replay law. -/
structure TradeEdge.KeepsBooks (N : Numerics) (s : AccountState) (e : TradeEdge) : Prop where
  -- a known trade comes with its quantity again
  quantity : ∀ t, s.account.trades.lookup e.tradeKey = some t → t.ownership.quantity = e.quantity
  -- a booked fee that fails can be attributed
  context : ∀ t, s.account.trades.lookup e.tradeKey = some t → e.status = .failed →
    t.virtualFeeBooked = true → e.context.isSome = true
  covered : ∀ row principal, EdgeRow N s e row principal → e.Covered N s row principal

/-- The condition as a check on the rows that the edge finds. -/
def TradeEdge.keepsBooks (N : Numerics) (s : AccountState) (e : TradeEdge) : Bool :=
  let existing := s.account.trades.lookup e.tradeKey
  let price := selectExecutionPrice N.tol existing e.quantity e.price
    ((e.context.bind (·.fee)).bind (·.executionPricing))
  existing.all (fun t => decide (t.ownership.quantity = e.quantity ∧
    (e.status = .failed → t.virtualFeeBooked = true → e.context.isSome = true) ∧
    e.Covered N s t 0 ∧ e.Covered N s (e.advancedRow t) 0)) &&
  price.all fun price => (s.account.orders.lookup (s.resolveCoid e)).all fun order =>
    let ownership := s.edgeOwnership e price (s.resolveCoid e) order
    let move := tradeMove e.status existing
    decide (e.Covered N s (transitionedTrade existing ownership e.context
      (s.registry.tokenFeeConfigs.lookup e.tokenId) move) (move.principal ownership.principal))

lemma TradeEdge.keepsBooks_of_check {s : AccountState} {e : TradeEdge}
    (h : e.keepsBooks N s = true) : e.KeepsBooks N s := by
  simp only [keepsBooks, Bool.and_eq_true, all_eq_true, decide_eq_true_eq] at h
  obtain ⟨hknown, hsettled⟩ := h
  refine ⟨fun t ht => (hknown t ht).1, fun t ht => (hknown t ht).2.1, fun row principal hrow => ?_⟩
  cases hrow with
  | replayed hadm => exact (hknown _ hadm.existing_eq).2.2.1
  | advanced hacc => exact (hknown _ hacc.existing_eq).2.2.2
  | settled hacc =>
    obtain rfl := hacc.existing_eq
    exact hsettled _ hacc.price_eq _ hacc.order_eq

namespace AccountState

variable {s : AccountState} {e : TradeEdge} {price : ℚ} {order : OrderOwnership}
  {existing : Option AppliedTrade}

section

variable {t : AppliedTrade} (hadd : N.addBalance = AtomicF64.add) (heps : 0 ≤ N.tol.eps)
include hadd heps

variable (hs : s.account.Booked N seed) {coid : String}
include hs

/-- A row was rewritten without changing what it has moved, and then its fee was attributed, unless
a failed row keeps one that the edge cannot attribute. -/
lemma booked_edgeFee {r : AccountState} {status : OrderStatus}
    (hstep : RowStep s.account r.account e.tradeKey t) (hrow : FeeRow N t)
    (hunb : t.failed = true → t.booked = false) (hrole : e.InRole t)
    (hcont : t.failed = true → t.virtualFeeBooked = true → e.context.isSome = true)
    (hstatus : (status == .failed || t.failed) = (t.failed || t.ownership.status == .failed))
    (hcov : ∀ context, e.context = some context → r.account.economics.Covers t.ownership.tokenId
      (t.feeDelta N context.isMaker (r.takerFeeConfig e context))) :
    (r.applyEdgeFee N e status).2.account.Booked N seed := by
  obtain ⟨t', hfee⟩ : ∃ t', FeeStep N r.account (r.applyEdgeFee N e status).2.account
      e.tradeKey t t' := by
    unfold applyEdgeFee
    cases hc : e.context with
    | none =>
      refine ⟨t, .refl hstep.lookup_self, hrow, rfl, rfl, fun hfail => ?_⟩
      by_contra hbook
      have hsome := hcont hfail (by simpa using hbook)
      rw [hc] at hsome
      cases hsome
    | some context =>
      exact feeStep hadd heps hstep.lookup_self hrow (by simpa [InRole, hc] using hrole) hstatus
        (hcov context hc)
  refine hs.rowStep (hstep.trans hfee.toRowStep) hfee.feeRow fun hfail => ?_
  refine ⟨?_, hfee.unbooked hfail⟩
  rw [hfee.booked_eq]
  exact hunb (hfee.failed_eq ▸ hfail)

variable (hkeep : e.KeepsBooks N s)
include hkeep

lemma booked_replayOwnedTrade (hadm : EdgeAdmitted N s e price (some t))
    (hreplay : e.isReplay t = true) :
    (s.replayOwnedTrade N e price t).2.account.Booked N seed := by
  have hget := hadm.existing_eq
  have hrow := hs.feeRow _ _ hget
  have hled := hs.ledgerRow _ _ hget
  rcases stage_replayOwnedTrade with ⟨-, heq⟩ | ⟨-, hrole, hstage⟩
  · rw [heq]
    exact hs
  have hcont (hfail : t.failed = true) (hbook : t.virtualFeeBooked = true) :
      e.context.isSome = true := by
    rw [(hled hfail).2] at hbook
    cases hbook
  have hstatus : ((if t.failed || t.ownership.status == .failed then OrderStatus.failed
      else .partiallyFilled) == .failed || t.failed) =
      (t.failed || t.ownership.status == .failed) := by
    cases t.failed <;> cases t.ownership.status == .failed <;> rfl
  have hcov context (hctx : e.context = some context) :
      s.account.economics.Covers t.ownership.tokenId
        (t.feeDelta N context.isMaker (s.takerFeeConfig e context)) := by
    have hfee := (hkeep.covered _ _ (.replayed hadm hreplay)).2 context hctx
    rwa [zero_add] at hfee
  refine hstage.rule ?_ fun a coid h => h.congr books_record
  unfold replayWritten
  split
  · exact booked_edgeFee hadd heps hs (.rewrite hget fun _ => rfl) hrow
      (fun h => (hled h).1) hrole hcont hstatus hcov
  · exact booked_edgeFee hadd heps hs (.refl hget) hrow (fun h => (hled h).1) hrole hcont hstatus
      hcov

lemma booked_advanceStatus (hacc : EdgeAccepted N s e price order (some t))
    (hkeeps : (tradeMove e.status (some t)).isNone = true) :
    ((s.claimTrade e.tradeKey).advanceStatus N e coid order t).2.account.Booked N seed := by
  have hget := hacc.existing_eq
  have hrow := hs.feeRow _ _ hget
  have hled := hs.ledgerRow _ _ hget
  refine (stage_advanceStatus (s.claimTrade e.tradeKey) coid order t).rule ?_
    fun a coid h => h.congr books_record
  refine booked_edgeFee hadd heps hs (.rewrite hget fun _ => rfl) hrow
    (fun h => (hled h).1) hacc.role (fun hfail hbook => ?_) ?_ fun context hctx => ?_
  · rw [show (e.advancedRow t).virtualFeeBooked = false from (hled hfail).2] at hbook
    cases hbook
  · simp only [advancedRow]
    cases t.failed <;> cases e.status <;> rfl
  · have hfee := (hkeep.covered _ _ (.advanced hacc hkeeps)).2 context hctx
    rw [zero_add] at hfee
    exact hfee

/-- An edge that books, settles or reverses a trade. -/
lemma booked_settleTrade (hacc : EdgeAccepted N s e price order existing)
    (hmoves : existing = none ∨ (tradeMove e.status existing).isNone = false) :
    ((s.claimTrade e.tradeKey).settleTrade N e price (s.resolveCoid e) order existing
      (tradeMove e.status existing)).2.account.Booked N seed := by
  have hterms t (ht : existing = some t) : t.ownership.SameTerms
      ((s.claimTrade e.tradeKey).edgeOwnership e price (s.resolveCoid e) order) := by
    subst ht
    obtain ⟨htok, hside⟩ := hacc.known
    have hprice := hacc.price_eq
    rw [selectExecutionPrice, ite_none_left_eq_some, ite_none_left_eq_some] at hprice
    exact ⟨htok, hside, hkeep.quantity t hacc.existing_eq, some.inj hprice.2.2⟩
  have hrow : FeeRow N (transitionedTrade existing
      ((s.claimTrade e.tradeKey).edgeOwnership e price (s.resolveCoid e) order) e.context
      (s.registry.tokenFeeConfigs.lookup e.tokenId) (tradeMove e.status existing)) := by
    refine .transitionedTrade fun t ht => ⟨?_, hterms t ht, ?_⟩
    · exact hs.feeRow _ _ (hacc.existing_eq.trans ht)
    · subst ht
      exact hacc.role
  obtain ⟨hcov, hcovFee⟩ := hkeep.covered _ _ (.settled hacc hmoves)
  have hfee : ((s.claimTrade e.tradeKey).edgeWritten N e price (s.resolveCoid e) order existing
      (tradeMove e.status existing)).2.account.Booked N seed := by
    refine booked_edgeFee hadd heps hs
      (rowStep_writeEdge hadd hcov hacc.existing_eq hterms) hrow ?_ ?_ ?_ ?_ fun context hctx => ?_
    · intro hfail
      have hst : (e.status == .failed) = true := hfail
      simp [transitionedTrade, tradeMove, hst]
    · exact inRole_transitionedTrade ..
    · intro hfail hbook
      have hst : e.status = .failed := beq_iff_eq.1 hfail
      rcases existing with _ | t
      · cases hbook
      · exact hkeep.context t hacc.existing_eq hst hbook
    · show ((if e.status = .failed then OrderStatus.failed else .partiallyFilled) == .failed ||
        e.status == .failed) = (e.status == .failed || e.status == .failed)
      cases e.status <;> rfl
    · refine (hcovFee context hctx).after fun asset => ?_
      rw [economics_writeEdge]
      exact amount_movePrincipal _ hadd hcov asset
  unfold settleTrade
  generalize (s.claimTrade e.tradeKey).edgeWritten N e price (s.resolveCoid e) order existing
    (tradeMove e.status existing) = result at hfee
  obtain ⟨_ | feeChanged, r⟩ := result
  · exact hfee
  · refine Booked.congr (booked_stampGeneration ?_) books_record
    refine hfee.congr ?_
    rw [books_closeAudit, markVirtualFeePending_account]

end

end AccountState

/-! ## Runs -/

/-- The condition under which an operation keeps the replay law. -/
def LifecycleOp.KeepsBooks (N : Numerics) (s : AccountState) : LifecycleOp → Prop
  | .trade e => e.KeepsBooks N s
  | _ => True

namespace AccountState

variable {s : AccountState}

/-- One operation that keeps the books. -/
lemma booked_step (hadd : N.addBalance = AtomicF64.add) (heps : 0 ≤ N.tol.eps)
    (hs : s.account.Booked N seed) {op : LifecycleOp} (hop : op.KeepsBooks N s) :
    (s.step N op).account.Booked N seed := by
  by_cases htr : ∃ e, op = .trade e
  · obtain ⟨e, rfl⟩ := htr
    refine applyTradeTransition_cases (P := fun s => s.account.Booked N seed) hs ?_ ?_ ?_
    · intro price t hadm hreplay
      exact booked_replayOwnedTrade hadd heps hs hop hadm hreplay
    · intro price order t hacc hkeeps
      exact booked_advanceStatus hadd heps hs hop hacc hkeeps
    · intro price order existing hacc hmoves
      exact booked_settleTrade hadd heps hs hop hacc hmoves
  · exact hs.congr (books_step fun e he => htr ⟨e, he⟩)

/-- The replay law: after every run whose operations keep the books, the balances are the seed and
the effects of the trades. -/
theorem economics_replay {tol : Tolerance} {powf : ℚ → ℚ → ℚ} {s' : AccountState}
    {ops : List LifecycleOp} (heps : 0 ≤ tol.eps) (hseed : s.account.trades = ∅)
    (hrun : Trace (fun s op s' => op.KeepsBooks (.clamped tol powf) s ∧
      s.step (.clamped tol powf) op = s') s ops s') :
    s'.account.economics = replayAccountEconomics s.account.economics s'.account.trades := by
  have hbook : s'.account.Booked (.clamped tol powf) s.account.economics.amount := by
    refine hrun.invariant
      (P := fun s' => s'.account.Booked (.clamped tol powf) s.account.economics.amount)
      ?_ (booked_of_no_trades hseed)
    rintro s op _ hs ⟨hop, rfl⟩
    exact booked_step rfl heps hs hop
  have hamt asset : s'.account.economics.amount asset = s.account.economics.amount asset +
      s'.account.trades.sumBy fun _ trade => (tradeEconomicEffect trade).amount asset := by
    rw [hbook.ledger asset]
    refine congrArg _ (sumBy_congr fun key t hget => ?_)
    exact (hbook.ledgerRow key t hget).amount_effect.symm
  exact EconomicBalance.ext (hamt none) (funext fun token => hamt (some token))

/-- A taker fill is booked with its fee and then fails; nothing of it is left. -/
theorem economics_replay_failed_taker : let N := Numerics.clamped .source fun x _ => x
    let taker : TradeContext :=
      ⟨false, 0, some ⟨.collateralV2, none, none, some ⟨.collateralV2, 1 / 10, 1⟩, none⟩⟩
    let edge := fun status =>
      trade ⟨"t1", status, "c1", "0xa1", "token", .buy, 10, 1 / 2, some taker⟩
    let s := seeded "account" "maker" 100 []
    let s' := s.run N [
      .reserveOrder ⟨"maker", "c1", "0xA1", "token", .buy, 10, 1 / 2, 0⟩ false,
      edge .matched, edge .failed]
    s'.account.economics = replayAccountEconomics s.account.economics s'.account.trades := by
  intro N taker edge s s'
  let reserve := reserveOrder ⟨"maker", "c1", "0xA1", "token", .buy, 10, 1 / 2, 0⟩ false
  have hreserve : reserve.KeepsBooks N s := trivial
  have hmatched : (edge .matched).KeepsBooks N (s.step N reserve) :=
    keepsBooks_of_check (by decide +kernel)
  have hfailed : (edge .failed).KeepsBooks N ((s.step N reserve).step N (edge .matched)) :=
    keepsBooks_of_check (by decide +kernel)
  exact economics_replay (by decide +kernel) rfl
    (.cons ⟨hreserve, rfl⟩ (.cons ⟨hmatched, rfl⟩ (.cons ⟨hfailed, rfl⟩ (.nil _))))

/-- Two runs that book a taker fill and then fail it. In the first the fee takes more than there is
and comes back in full; in the second the failure has no context and the fee stays taken. -/
theorem failed_trade_not_restored : let N := Numerics.clamped .source fun x _ => x
    let taker : TradeContext :=
      ⟨false, 0, some ⟨.collateralV2, none, none, some ⟨.collateralV2, 1 / 10, 1⟩, none⟩⟩
    let edge := fun status context =>
      trade ⟨"t1", status, "c1", "0xa1", "token", .buy, 10, 1 / 2, context⟩
    let run := fun cash context => (seeded "account" "maker" cash []).run N [
      .reserveOrder ⟨"maker", "c1", "0xA1", "token", .buy, 10, 1 / 2, 0⟩ false,
      edge .matched (some taker), edge .failed context]
    let replayed := fun cash context => replayAccountEconomics
      (seeded "account" "maker" cash []).account.economics (run cash context).account.trades
    ((run 5 (some taker)).account.cash = 21 / 4 ∧ (replayed 5 (some taker)).cash = 5) ∧
      (run 100 none).account.cash = 399 / 4 ∧ (replayed 100 none).cash = 100 := by
  decide +kernel

end AccountState

end HexAgent.Account
