import HexAgent.Account.Publication

/-!
# Publishing beside a run

A cold transaction copies a shard, and calls of the lifecycle owner lead the shard from `base` to
`hot` before the result is published.
-/

namespace HexAgent.Account

open SharedAccountState AList Option Account.OrderOwnership VirtualAccount List Option

variable {token : String}

/-! ## Touched rows -/

section Touched

variable (base hot : VirtualAccount)

/-- Mutations that the journal holds since `base`. -/
def hotHints : List VirtualTradeMutationHint :=
  hot.recentTradeMutations.filter fun hint => decide (base.tradeEpoch < hint.epoch)

/-- The order was admitted since, or a recorded mutation names it. -/
def TouchedOrder (coid : String) : Prop :=
  coid ∈ (hotHints base hot).map (·.clientOrderId) ∨
    (base.orders.lookup coid = none ∧ (hot.orders.lookup coid).isSome)

/-- A recorded mutation names the trade. -/
def TouchedTrade (key : String) : Prop :=
  key ∈ (hotHints base hot).map (·.tradeKey)

/-- A recorded mutation names the token, and the shard has a quota of it. -/
def TouchedToken (token : String) : Prop :=
  token ∈ (hotHints base hot).map (·.tokenId) ∧ token ∈ hot.positions

end Touched

/-! ## Cold and published shards -/

/-- The shard that a cold result gives when nothing happens beside it. -/
def coldShard (tol : Tolerance) (state : SharedAccountState) (base : VirtualAccount) :
    VirtualAccount :=
  (syncStateToVirtualAccount tol state base none none).2

/-- The shard that a cold result gives beside the calls that lead from `base` to `hot`. -/
def publishedShard (tol : Tolerance) (state : SharedAccountState) (base hot : VirtualAccount) :
    VirtualAccount :=
  (syncStateToVirtualAccount tol state hot (some base.reservationEpoch) (some base.tradeEpoch)).2

/-- A transaction copies `base` into `start`, and leaves `state` to be published. It keeps the
instance and does not change what the calls touch. -/
structure ColdTransaction (start : SharedAccountState) (ledgerGeneration : ℕ)
    (base hot : VirtualAccount) (state : SharedAccountState) : Prop where
  -- ids are unique across the instances of an account
  orderIds : ∀ coid o, TouchedOrder base hot coid → start.orders.lookup coid = some o →
    o.instanceId = base.instanceId
  tradeIds : ∀ key t, TouchedTrade base hot key → start.trades.lookup key = some t →
    t.ownership.instanceId = base.instanceId
  instances : (state.instances.lookup base.instanceId).isSome
  orders : ∀ coid, TouchedOrder base hot coid → state.orders.lookup coid =
    (start.snapshotInstance base ledgerGeneration).orders.lookup coid
  trades : ∀ key, TouchedTrade base hot key → state.trades.lookup key =
    (start.snapshotInstance base ledgerGeneration).trades.lookup key

/-- No hot work is lost: `p` has the rows of `hot` where the calls touched them and those of `cold`
elsewhere, the balances of `cold` and the effects of the calls, and exact counters. -/
structure Published (base hot cold p : VirtualAccount) : Prop where
  hotOrders : ∀ coid, TouchedOrder base hot coid → p.orders.lookup coid = hot.orders.lookup coid
  coldOrders : ∀ coid, ¬TouchedOrder base hot coid → p.orders.lookup coid = cold.orders.lookup coid
  hotTrades : ∀ key, TouchedTrade base hot key → p.trades.lookup key = hot.trades.lookup key
  coldTrades : ∀ key, ¬TouchedTrade base hot key → p.trades.lookup key = cold.trades.lookup key
  economics : ∀ asset, p.economics.amount asset =
    cold.economics.amount asset + hotEffect base hot asset
  reservedCash : p.reservedCash = p.rowsCash
  reserved : ∀ token, (p.position token).reserved = p.rowsQuantity token

/-- What a cold transaction may do beside hot work. Orders were admitted: it has dropped no order.
Mutations were recorded: it has not changed what the orders reserve in total. Otherwise it has kept
its own counters exact. -/
structure Compatible (base hot cold : VirtualAccount) (state : SharedAccountState) : Prop where
  orders : base.reservationEpoch ≠ hot.reservationEpoch → ∀ coid, (base.orders.lookup coid).isSome →
    (state.orders.lookup coid).isSome
  cash : if base.tradeEpoch = hot.tradeEpoch then cold.reservedCash = cold.rowsCash
    else cold.rowsCash = base.rowsCash
  quantity : ∀ token, (¬TouchedToken base hot token → (cold.position token).reserved =
      cold.rowsQuantity token) ∧
    (TouchedToken base hot token → cold.rowsQuantity token = base.rowsQuantity token)

section Shards

variable {tol : Tolerance} {a base hot : VirtualAccount} {hints : List VirtualTradeMutationHint}
  {state : SharedAccountState} {ledger : InstanceLedger} (coid : String)

/-- What a shard looks up after its ledger and its rows were replaced. -/
lemma replaced_shard : let p := (a.replaceLedger ledger).replaceRows state
    (∀ coid, p.orders.lookup coid =
        (state.orders.lookup coid).filter (·.instanceId == a.instanceId)) ∧
      (∀ key, p.trades.lookup key =
        (state.trades.lookup key).filter (·.ownership.instanceId == a.instanceId)) ∧
      p.economics = ledger.economics ∧ p.reservedCash = ledger.reservedCash ∧
      ∀ token, (p.position token).reserved = (ledger.quota token).reserved := by
  have hpos (token : String) :
      ((a.replaceLedger ledger).replaceRows state).position token = ledger.quota token :=
    position_replaceLedger (a := a)
  refine ⟨fun coid => lookup_filterRows _ _ _, fun key => lookup_filterRows _ _ _, ?_,
    rfl, fun token => congrArg _ (hpos token)⟩
  simp only [economics, hpos]
  rfl

lemma coldShard_eq (h : state.instances.lookup base.instanceId = some ledger) :
    coldShard tol state base = (base.replaceLedger ledger).replaceRows state := by
  simp [coldShard, syncStateToVirtualAccount, publishInstance, mergeConcurrentReservations,
    mergeConcurrentTradeMutations, h]

lemma VirtualAccount.ShardRows.filter_order (h : a.ShardRows) {coid : String} :
    (a.orders.lookup coid).filter (·.instanceId == a.instanceId) = a.orders.lookup coid := by
  cases hget : a.orders.lookup coid with
  | none => rfl
  | some o => simp [(h.order coid o hget).2]

lemma VirtualAccount.ShardRows.filter_trade (h : a.ShardRows) (key : String) :
    (a.trades.lookup key).filter (·.ownership.instanceId == a.instanceId) =
      a.trades.lookup key := by
  cases hget : a.trades.lookup key with
  | none => rfl
  | some t => simp [h.trade key t hget]

/-- The published shard, next to the one that the cold result alone gives. -/
structure Outcome (base hot : VirtualAccount) (hints : List VirtualTradeMutationHint)
    (state : SharedAccountState) (cold p : VirtualAccount) : Prop where
  coldOrders : ∀ coid, cold.orders.lookup coid =
    (state.orders.lookup coid).filter (·.instanceId == base.instanceId)
  orders : ∀ coid, p.orders.lookup coid =
    if coid ∈ hints.map (·.clientOrderId) then hot.orders.lookup coid
    else ((addedOrders base hot state).lookup coid).or (cold.orders.lookup coid)
  trades : ∀ key, p.trades.lookup key =
    if key ∈ hints.map (·.tradeKey) then hot.trades.lookup key else cold.trades.lookup key
  economics : ∀ asset, p.economics.amount asset =
    cold.economics.amount asset + hotEffect base hot asset
  reservedCash : p.reservedCash =
    if hints = [] then
      cold.reservedCash + (addedOrders base hot state).sumBy fun _ o => o.reservedCash
    else hot.reservedCash
  reserved : ∀ token, (p.position token).reserved =
    if token ∈ hints.map (·.tokenId) ∧ token ∈ hot.positions then (hot.position token).reserved
    else (cold.position token).reserved +
      (addedOrders base hot state).sumBy fun _ o => OrderOwnership.reservedOf token o

lemma lookup_addedOrders : (addedOrders base hot state).lookup coid =
    if base.reservationEpoch = hot.reservationEpoch ∨ (state.orders.lookup coid).isSome then none
    else hot.orders.lookup coid := by
  unfold addedOrders
  by_cases hep : base.reservationEpoch = hot.reservationEpoch
  · rw [if_pos hep, if_pos (.inl hep), lookup_empty]
  · rw [if_neg hep, lookup_filterRows]
    cases hstate : state.orders.lookup coid <;> cases hot.orders.lookup coid <;>
      simp [hep]

lemma Concurrent.outcome (h : Concurrent base hot hints state ledger) (heps : tol.eps = 0) :
    Outcome base hot hints state (coldShard tol state base)
      (publishedShard tol state base hot) := by
  obtain ⟨hdrop, ledger', hmerged⟩ := h.mergeResult heps
  have hinst : hot.dropHints.instanceId = base.instanceId := h.work.instanceId
  rw [publishedShard, syncStateToVirtualAccount, h.ledger_eq, publishInstance]
  rw [hmerged.ledger_eq, hdrop, coldShard_eq (h.work.instanceId ▸ h.ledger_eq)]
  change Outcome _ _ _ _ _ ((hot.dropHints.replaceLedger ledger').replaceRows _)
  obtain ⟨hords, htrs, heconomics, hcash, hrsv⟩ :=
    replaced_shard
  obtain ⟨hcoldOrders, hcoldTrades, hcoldEconomics, hcoldCash, hcoldReserved⟩ :=
    replaced_shard
  rw [hinst] at hords htrs
  refine ⟨hcoldOrders, fun coid => ?_, fun key => ?_, fun asset => ?_, ?_, fun token => ?_⟩
  · rw [hords, hmerged.orders, hcoldOrders]
    split
    · rw [← h.work.instanceId, h.hotRows.filter_order]
    -- An added order is the shard's own, and then the state has none.
    rw [lookup_addedOrders]
    split
    · rw [none_or, none_or]
    next hadded =>
    rw [not_isSome_iff_eq_none.1 (not_or.1 hadded).2, or_none,
      ← h.work.instanceId, h.hotRows.filter_order]
    exact or_none.symm
  · rw [htrs, hmerged.trades, hcoldTrades]
    split
    · rw [← h.work.instanceId, h.hotRows.filter_trade]
    · rfl
  · rw [heconomics, hcoldEconomics]
    exact hmerged.economics asset
  · exact hmerged.reservedCash
  · rw [hrsv, hcoldReserved]
    exact hmerged.reserved token

end Shards

/-! ## When the counters agree -/

section Iff

variable {base hot cold p : VirtualAccount} {hints : List VirtualTradeMutationHint}
  {state : SharedAccountState} {ledger : InstanceLedger}

/-- No order reserves a token without a quota. -/
lemma VirtualAccount.Exact.valueAt_reservedOf {a : VirtualAccount} (h : a.Exact)
    (htok : token ∉ a.positions) (coid : String) :
    a.orders.valueAt (fun _ o => reservedOf token o) coid = 0 := by
  cases hget : a.orders.lookup coid with
  | none => exact valueAt_of_lookup_none hget
  | some o =>
    rw [valueAt_of_lookup hget]
    refine le_antisymm ?_ (reservedOf_nonneg (h.rows coid o hget))
    have hsum : a.rowsQuantity token = 0 := by
      rw [← h.quantity, position, lookup_eq_none.2 htok]
      rfl
    rw [← hsum]
    refine le_sumBy (f := fun _ o => reservedOf token o) (fun e he => ?_) hget
    exact reservedOf_nonneg (h.rows e.1 e.2 (mem_entries_iff.1 he))

/-- A counter that is taken over from the shard. -/
private lemma taken_counter_iff {published cold hot base : ℚ}
    (hsum : published + base = cold + hot) : hot = published ↔ cold = base := by
  constructor <;> intro h <;> linarith

/-- A counter that is raised by what was added. -/
private lemma raised_counter_iff {published cold hot base counter added : ℚ}
    (hsum : published + base = cold + hot) (hadded : added + base = hot) :
    counter + added = published ↔ counter = cold := by
  constructor <;> intro h <;> linarith

variable {coid : String} (h : Concurrent base hot hints state ledger)

include h

lemma Concurrent.hotHints_eq : hotHints base hot = hints :=
  h.work.filter_recent h.baseRows h.window

/-- A row that the calls did not touch. -/
lemma Concurrent.untouched_order (hcoid : ¬TouchedOrder base hot coid) :
    hot.orders.lookup coid = base.orders.lookup coid := by
  rw [TouchedOrder, h.hotHints_eq, not_or, not_and] at hcoid
  rcases h.work.order coid with hsame | ⟨hnone, -⟩ | ⟨hint, hmem, rfl, -⟩
  · exact hsame
  · rw [hnone, ← not_isSome_iff_eq_none]
    exact hcoid.2 hnone
  · exact absurd (mem_map_of_mem hmem) hcoid.1

/-- A row that the calls touched is in the state as it was copied. -/
lemma Concurrent.touched_order (hcoid : TouchedOrder base hot coid) :
    state.orders.lookup coid = base.orders.lookup coid := by
  rw [TouchedOrder, h.hotHints_eq] at hcoid
  rcases hcoid with hmem | ⟨hnone, hsome⟩
  · obtain ⟨hint, hhint, rfl⟩ := mem_map.1 hmem
    exact (h.hinted hint hhint).1
  · rw [hnone, h.fresh coid hnone hsome]

/-- The rows of an admitted order are added to the state. -/
lemma Concurrent.lookup_added_of_fresh (hnone : base.orders.lookup coid = none) :
    (addedOrders base hot state).lookup coid = hot.orders.lookup coid := by
  rw [lookup_addedOrders]
  cases hget : hot.orders.lookup coid with
  | none => rw [ite_self]
  | some o =>
    have hsome : (hot.orders.lookup coid).isSome := by rw [hget]; rfl
    -- The order was admitted, and the epoch says so.
    rcases h.work.order coid with hsame | ⟨-, hmoved⟩ | ⟨_, _, _, _, _, hbase, -⟩
    · rw [hsame, hnone] at hget
      cases hget
    · simp [hmoved.ne, h.fresh coid hnone hsome]
    · cases hnone.symm.trans hbase

/-- The added orders make up the difference where old orders contribute what they did. -/
lemma Concurrent.sumBy_added (hkeeps : base.reservationEpoch ≠ hot.reservationEpoch → ∀ coid,
      (base.orders.lookup coid).isSome → (state.orders.lookup coid).isSome)
    {f : String → OrderOwnership → ℚ} (hsame : ∀ coid, (base.orders.lookup coid).isSome →
      hot.orders.valueAt f coid = base.orders.valueAt f coid) :
    (addedOrders base hot state).sumBy f + base.orders.sumBy f = hot.orders.sumBy f := by
  rw [← add_zero (hot.orders.sumBy f), ← sumBy_empty (β := fun _ : String => OrderOwnership) f]
  refine sumBy_add_of_valueAt f fun coid => ?_
  rw [valueAt_of_lookup_none (m := ∅) (lookup_empty coid), add_zero]
  cases hbase : base.orders.lookup coid with
  | none =>
    rw [valueAt_of_lookup_none hbase, add_zero]
    exact valueAt_congr (h.lookup_added_of_fresh hbase)
  | some o =>
    have hsome : (base.orders.lookup coid).isSome := by rw [hbase]; rfl
    have hnone : (addedOrders base hot state).lookup coid = none := by
      rw [lookup_addedOrders, if_pos]
      exact (eq_or_ne _ _).imp_right fun hep => hkeeps hep coid hsome
    rw [valueAt_of_lookup_none hnone, zero_add, hsame coid hsome]

/-- Old orders reserve what they did of a token that is not touched. -/
lemma Concurrent.valueAt_reservedOf
    (htok : ¬(token ∈ hints.map (·.tokenId) ∧ token ∈ hot.positions))
    (hbase : (base.orders.lookup coid).isSome) :
    hot.orders.valueAt (fun _ o => reservedOf token o) coid =
      base.orders.valueAt (fun _ o => reservedOf token o) coid := by
  by_cases hmem : token ∈ hot.positions
  · have hhint : token ∉ hints.map (·.tokenId) := fun hhint => htok ⟨hhint, hmem⟩
    rcases h.work.order coid with hsame | ⟨hnone, -⟩ | ⟨hint, hin, rfl, o, o', ho, ho', hold, hnew⟩
    · exact valueAt_congr hsame
    · rw [hnone] at hbase
      cases hbase
    · have hne : hint.tokenId ≠ token := fun heq => hhint (heq ▸ mem_map_of_mem hin)
      rw [valueAt_of_lookup ho, valueAt_of_lookup ho', reservedOf,
        reservedOf, hold, hnew, if_neg hne, if_neg hne]
  · rw [h.hotExact.valueAt_reservedOf hmem,
      h.baseExact.valueAt_reservedOf fun hin => hmem (h.work.tokens token hin)]

variable (ho : Outcome base hot hints state cold p)

include ho

lemma Concurrent.hotOrders (coid : String) (hcoid : TouchedOrder base hot coid) :
    p.orders.lookup coid = hot.orders.lookup coid := by
  rw [ho.orders]
  split
  · rfl
  next hhint =>
  rw [TouchedOrder, h.hotHints_eq] at hcoid
  obtain ⟨hnone, hsome⟩ := hcoid.resolve_left hhint
  rw [h.lookup_added_of_fresh hnone, ho.coldOrders, h.fresh coid hnone hsome]
  exact or_none

/-- Elsewhere the rows are those of the cold result, unless a dropped order is added again. -/
lemma Concurrent.coldOrders_iff :
    (∀ coid, ¬TouchedOrder base hot coid → p.orders.lookup coid = cold.orders.lookup coid) ↔
      (base.reservationEpoch ≠ hot.reservationEpoch → ∀ coid, (base.orders.lookup coid).isSome →
        (state.orders.lookup coid).isSome) := by
  have hp {coid : String} (hunt : ¬TouchedOrder base hot coid) : p.orders.lookup coid =
      ((addedOrders base hot state).lookup coid).or (cold.orders.lookup coid) := by
    rw [TouchedOrder, h.hotHints_eq, not_or] at hunt
    rw [ho.orders, if_neg hunt.1]
  constructor
  · intro hcold hep coid hbase
    by_contra hstate
    have hunt : ¬TouchedOrder base hot coid := fun htouch =>
      hstate (h.touched_order htouch ▸ hbase)
    have hrow := hcold coid hunt
    rw [hp hunt, lookup_addedOrders, if_neg (not_or.2 ⟨hep, hstate⟩), ho.coldOrders,
      not_isSome_iff_eq_none.1 hstate, filter_none, or_none,
      h.untouched_order hunt] at hrow
    rw [hrow] at hbase
    cases hbase
  · intro hkeeps coid hunt
    rw [hp hunt, lookup_addedOrders]
    split
    · exact none_or
    next hadded =>
    obtain ⟨hep, hstate⟩ := not_or.1 hadded
    have hbase : base.orders.lookup coid = none :=
      not_isSome_iff_eq_none.1 fun hsome => hstate (hkeeps hep coid hsome)
    rw [h.untouched_order hunt, hbase, none_or]

section

variable
    (hcold : ∀ coid, ¬TouchedOrder base hot coid → p.orders.lookup coid = cold.orders.lookup coid)

include hcold

/-- The published orders are a merge of the cold and the hot ones. -/
lemma Concurrent.isMerge : AList.IsMerge base.orders cold.orders hot.orders p.orders := by
  intro coid
  by_cases htouch : TouchedOrder base hot coid
  · refine .inl ⟨?_, h.hotOrders ho coid htouch⟩
    rw [ho.coldOrders, h.touched_order htouch, h.baseRows.filter_order]
  · exact .inr ⟨h.untouched_order htouch, hcold coid htouch⟩

lemma Concurrent.reservedCash_iff :
    p.reservedCash = p.rowsCash ↔
      if base.tradeEpoch = hot.tradeEpoch then cold.reservedCash = cold.rowsCash
      else cold.rowsCash = base.rowsCash := by
  have hep : base.tradeEpoch = hot.tradeEpoch ↔ hints = [] := by
    rw [h.work.tradeEpoch, ← length_eq_zero_iff]
    omega
  have hsum : p.rowsCash + base.rowsCash = cold.rowsCash + hot.rowsCash :=
    (h.isMerge ho hcold).sumBy_add _
  rw [ho.reservedCash]
  by_cases hhints : hints = []
  · rw [if_pos hhints, if_pos (hep.2 hhints)]
    refine raised_counter_iff hsum ?_
    refine h.sumBy_added ((h.coldOrders_iff ho).1 hcold) fun coid hbase => ?_
    rcases h.work.order coid with hsame | ⟨hnone, -⟩ | ⟨hint, hmem, -⟩
    · exact valueAt_congr hsame
    · rw [hnone] at hbase
      cases hbase
    · rw [hhints] at hmem
      cases hmem
  · rw [if_neg hhints, if_neg (mt hep.1 hhints), h.hotExact.cash]
    exact taken_counter_iff hsum

lemma Concurrent.reserved_iff (token : String) :
    (p.position token).reserved = p.rowsQuantity token ↔
      (¬TouchedToken base hot token → (cold.position token).reserved = cold.rowsQuantity token) ∧
      (TouchedToken base hot token → cold.rowsQuantity token = base.rowsQuantity token) := by
  have hsum : p.rowsQuantity token + base.rowsQuantity token =
      cold.rowsQuantity token + hot.rowsQuantity token := (h.isMerge ho hcold).sumBy_add _
  rw [ho.reserved, TouchedToken, h.hotHints_eq]
  by_cases htok : token ∈ hints.map (·.tokenId) ∧ token ∈ hot.positions
  · rw [if_pos htok, h.hotExact.quantity, taken_counter_iff hsum]
    exact ⟨fun heq => ⟨fun hnot => absurd htok hnot, fun _ => heq⟩, fun heq => heq.2 htok⟩
  · rw [if_neg htok, raised_counter_iff hsum (h.sumBy_added ((h.coldOrders_iff ho).1 hcold)
      fun coid => h.valueAt_reservedOf htok)]
    exact ⟨fun heq => ⟨fun _ => heq, fun hin => absurd hin htok⟩, fun heq => heq.1 htok⟩

end

/-- Nothing is lost iff the cold side was compatible with the hot work. -/
lemma Concurrent.published_iff : Published base hot cold p ↔ Compatible base hot cold state := by
  constructor
  · intro hp
    exact ⟨(h.coldOrders_iff ho).1 hp.coldOrders,
      (h.reservedCash_iff ho hp.coldOrders).1 hp.reservedCash,
      fun token => (h.reserved_iff ho hp.coldOrders token).1 (hp.reserved token)⟩
  · intro hc
    have hcold := (h.coldOrders_iff ho).2 hc.orders
    refine ⟨h.hotOrders ho, hcold, fun key hkey => ?_, fun key hkey => ?_, ho.economics,
      (h.reservedCash_iff ho hcold).2 hc.cash,
      fun token => (h.reserved_iff ho hcold token).2 (hc.quantity token)⟩
    · rw [TouchedTrade, h.hotHints_eq] at hkey
      rw [ho.trades, if_pos hkey]
    · rw [TouchedTrade, h.hotHints_eq] at hkey
      rw [ho.trades, if_neg hkey]

end Iff

/-! ## Transactions on balances -/

section Balances

variable {start state : SharedAccountState} {ledgerGeneration : ℕ} {base : VirtualAccount}
  {ledger : InstanceLedger}

lemma quota_ledgerSnapshot : base.ledgerSnapshot.quota token = base.position token := by
  have hget (f : VirtualPositionQuota → ℚ) (m : AList fun _ : String => ℚ)
      (hm : m.entries = base.positions.entries.map fun e => ⟨e.1, f e.2⟩) :
      m.lookup token = (base.positions.lookup token).map f := by
    refine ext fun x => ?_
    rw [map_eq_some_iff, ← mem_def, mem_lookup_iff, hm, List.mem_map]
    constructor
    · rintro ⟨⟨key, quota⟩, hmem, heq⟩
      obtain ⟨rfl, hx⟩ := Sigma.mk.inj_iff.1 heq
      exact ⟨quota, mem_entries_iff.1 hmem, eq_of_heq hx⟩
    · rintro ⟨quota, hmem, rfl⟩
      exact ⟨⟨token, quota⟩, mem_entries_iff.2 hmem, rfl⟩
  rw [InstanceLedger.quota, position, hget (·.balance) _ rfl,
    hget (·.reserved) _ rfl]
  cases base.positions.lookup token <;> rfl

/-- A transaction that changes neither orders nor reservations is compatible with any hot work. -/
lemma compatible_of_orders_eq {tol : Tolerance} {hot : VirtualAccount} (hrows : base.ShardRows)
    (hex : base.Exact) (hled : state.instances.lookup base.instanceId = some ledger)
    (hords : state.orders = (start.snapshotInstance base ledgerGeneration).orders)
    (hcash : ledger.reservedCash = base.reservedCash)
    (hrsv : ∀ token, (ledger.quota token).reserved = (base.position token).reserved) :
    Compatible base hot (coldShard tol state base) state := by
  obtain ⟨hcoldOrders, -, -, hcoldCash, hcoldReserved⟩ := replaced_shard
  rw [← coldShard_eq hled] at hcoldOrders hcoldCash hcoldReserved
  have hsame (coid : String) :
      (coldShard tol state base).orders.lookup coid = base.orders.lookup coid := by
    rw [hcoldOrders, hords, snapshotInstance, lookup_copyRows, lookup_filterRows]
    split
    · exact hrows.filter_order
    next hmem =>
    rw [lookup_eq_none.2 hmem, filter_eq_none_iff]
    intro o ho
    simpa using (filter_eq_some_iff.1 ho).2
  have hrowsCash : (coldShard tol state base).rowsCash = base.rowsCash :=
    sumBy_of_lookup_eq _ hsame
  have hrowsQuantity (token : String) :
      (coldShard tol state base).rowsQuantity token = base.rowsQuantity token :=
    sumBy_of_lookup_eq _ hsame
  refine ⟨fun _ coid hbase => ?_, ?_, fun token => ⟨fun _ => ?_, fun _ => hrowsQuantity token⟩⟩
  · rw [← hsame, hcoldOrders] at hbase
    exact isSome_of_isSome_filter _ _ hbase
  · split
    · rw [hcoldCash, hcash, hrowsCash, hex.cash]
    · exact hrowsCash
  · rw [hcoldReserved, hrsv, hrowsQuantity, hex.quantity]

end Balances

/-! ## Runs -/

variable {ledgerGeneration : ℕ}

/-- A cold transaction beside hot work. -/
lemma ColdTransaction.concurrent {start state : SharedAccountState}
    {base hot : VirtualAccount} {hints : List VirtualTradeMutationHint}
    (h : ColdTransaction start ledgerGeneration base hot state) (hwork : HotWork base hot hints)
    (hwindow : hints.length ≤ recentVirtualTradeMutations) (hbaseRows : base.ShardRows)
    (hbaseExact : base.Exact) (hhotRows : hot.ShardRows) (hhotExact : hot.Exact) :
    ∃ ledger, Concurrent base hot hints state ledger := by
  obtain ⟨ledger, hled⟩ := isSome_iff_exists.1 h.instances
  -- Ids are unique, so the copy of the shard is what the state has under them.
  have hord (coid : String) (htouch : TouchedOrder base hot coid) :
      state.orders.lookup coid = base.orders.lookup coid := by
    rw [h.orders coid htouch, snapshotInstance, lookup_copyRows, lookup_filterRows]
    split
    · rfl
    next hmem =>
    rw [lookup_eq_none.2 hmem, filter_eq_none_iff]
    intro o ho
    simp [h.orderIds coid o htouch ho]
  have htr (key : String) (htouch : TouchedTrade base hot key) :
      state.trades.lookup key = base.trades.lookup key := by
    rw [h.trades key htouch, snapshotInstance, lookup_copyRows, lookup_filterRows]
    split
    · rfl
    next hmem =>
    rw [lookup_eq_none.2 hmem, filter_eq_none_iff]
    intro t ht
    simp [h.tradeIds key t htouch ht]
  have hhints : hotHints base hot = hints := hwork.filter_recent hbaseRows hwindow
  refine ⟨ledger, hwork, hwindow, hbaseRows, hbaseExact, hhotRows, hhotExact,
    hwork.instanceId.symm ▸ hled, fun hint hmem => ⟨?_, ?_⟩, fun coid hnone hsome => ?_⟩
  · refine hord _ (.inl ?_)
    rw [hhints]
    exact mem_map_of_mem hmem
  · refine htr _ ?_
    rw [TouchedTrade, hhints]
    exact mem_map_of_mem hmem
  · exact (hord coid (.inr ⟨hnone, hsome⟩)).trans hnone

lemma ColdTransaction.of_initial {state : SharedAccountState}
    {base hot : VirtualAccount} (hins : (state.instances.lookup base.instanceId).isSome)
    (hords : ∀ coid, TouchedOrder base hot coid → state.orders.lookup coid =
      (initial.snapshotInstance base ledgerGeneration).orders.lookup coid)
    (htrs : ∀ key, TouchedTrade base hot key → state.trades.lookup key =
      (initial.snapshotInstance base ledgerGeneration).trades.lookup key) :
    ColdTransaction .initial ledgerGeneration base hot state where
  orderIds _ _ _ h := by cases h
  tradeIds _ _ _ h := by cases h
  instances := hins
  orders := hords
  trades := htrs

namespace AccountState

/-- Over exact rationals, a cold transaction is published beside any sequence of calls that journal
what they write and that fit into the journal. No hot work is lost iff the transaction was
compatible with it. -/
theorem published_iff_compatible (powf : ℚ → ℚ → ℚ) {s s' : AccountState} {ops : List LifecycleOp}
    (hrows : s.account.ShardRows) (hexact : s.account.Exact)
    (hrun : Trace (HotCall (.clamped .exact powf)) s ops s')
    (hwindow : s'.account.tradeEpoch ≤ s.account.tradeEpoch + recentVirtualTradeMutations)
    {start state : SharedAccountState} {ledgerGeneration : ℕ}
    (hcold : ColdTransaction start ledgerGeneration s.account s'.account state) :
    Published s.account s'.account (coldShard .exact state s.account)
        (publishedShard .exact state s.account s'.account) ↔
      Compatible s.account s'.account (coldShard .exact state s.account) state := by
  obtain ⟨hints, hwork, hrows', hex'⟩ :=
    hotWork_run (Numerics.addsReserved_clamped .exact powf) rfl hrun hrows hexact
  have hlen : hints.length ≤ recentVirtualTradeMutations := by
    have := hwork.tradeEpoch
    omega
  obtain ⟨ledger, hconc⟩ := hcold.concurrent hwork hlen hrows hexact hrows' hex'
  exact hconc.published_iff (hconc.outcome rfl)

/-! ### A shard with two buys -/

/-- A shard with two resting buys of ten tokens at one half. -/
def twoBuys : AccountState :=
  (seeded "account" "maker" 100 []).run (.clamped .exact fun x _ => x) [
    .reserveOrder ⟨"maker", "a1", "0xa1", "token", .buy, 10, 1 / 2, 0⟩ false,
    .reserveOrder ⟨"maker", "b1", "0xb1", "token", .buy, 10, 1 / 2, 0⟩ false]

lemma twoBuys_shard : twoBuys.account.ShardRows ∧ twoBuys.account.Exact := by
  have hrun : Trace (HotCall (.clamped .exact fun x _ => x)) (seeded "account" "maker" 100 []) [
      .reserveOrder ⟨"maker", "a1", "0xa1", "token", .buy, 10, 1 / 2, 0⟩ false,
      .reserveOrder ⟨"maker", "b1", "0xb1", "token", .buy, 10, 1 / 2, 0⟩ false] twoBuys :=
    .cons ⟨trivial, trivial, rfl⟩ (.cons ⟨trivial, trivial, rfl⟩ (.nil _))
  obtain ⟨-, -, hrows, hex⟩ := hotWork_run (Numerics.addsReserved_clamped .exact _) rfl hrun
    (shardRows_seeded ..) (exact_seeded ..)
  exact ⟨hrows, hex⟩

/-- A cold deposit of seven beside a fill of four. -/
theorem published_iff_compatible_deposit : let s := twoBuys
    let s' := s.step (.clamped .exact fun x _ => x)
      (.trade ⟨"t1", .matched, "b1", "0xb1", "token", .buy, 4, 1 / 2, none⟩)
    let state := (initial.snapshotInstance s.account 0).setLedger
      s.account.instanceId { s.account.ledgerSnapshot with cash := 107 }
    let p := publishedShard .exact state s.account s'.account
    Published s.account s'.account (coldShard .exact state s.account) p ∧ p.cash = 105 ∧
      p.reservedCash = 8 := by
  intro s s' state p
  obtain ⟨hrows, hex⟩ := twoBuys_shard
  have hrun : Trace (HotCall (.clamped .exact fun x _ => x)) s
      [.trade ⟨"t1", .matched, "b1", "0xb1", "token", .buy, 4, 1 / 2, none⟩] s' :=
    .cons ⟨trivial, fun hep => absurd hep (by decide +kernel), rfl⟩ (.nil _)
  have hcold : ColdTransaction .initial 0 s.account s'.account state :=
    .of_initial (by decide +kernel) (fun _ _ => rfl) fun _ _ => rfl
  refine ⟨(published_iff_compatible _ hrows hex hrun (by decide +kernel) hcold).2 ?_,
    by decide +kernel, by decide +kernel⟩
  have hords : state.orders = (initial.snapshotInstance s.account 0).orders := rfl
  exact compatible_of_orders_eq hrows hex (lookup_insert _) hords rfl
    fun token => congrArg _ quota_ledgerSnapshot

lemma releaseOrderReservationLocked_frame {state : SharedAccountState} {coid : String} :
    (∀ other, other ≠ coid → (state.releaseOrderReservationLocked coid).orders.lookup other =
      state.orders.lookup other) ∧
    (state.releaseOrderReservationLocked coid).trades = state.trades := by
  unfold releaseOrderReservationLocked
  split
  · exact ⟨fun _ _ => rfl, rfl⟩
  · split <;> exact ⟨fun other hne => lookup_insert_ne hne, rfl⟩

/-- The cold side releases one order while the owner releases the other. The counter is taken from
the shard, where the first order is still reserved. -/
theorem released_cold_order_stays_counted : let s := twoBuys
    let s' := s.step (.clamped .exact fun x _ => x) (.releaseOrder "b1" .cancelled)
    let state := (initial.snapshotInstance
      s.account 0).releaseOrderReservationLocked "a1"
    let cold := coldShard .exact state s.account
    let p := publishedShard .exact state s.account s'.account
    (s.account.ShardRows ∧ s.account.Exact ∧
      Trace (HotCall (.clamped .exact fun x _ => x)) s [.releaseOrder "b1" .cancelled] s' ∧
      ColdTransaction .initial 0 s.account s'.account state) ∧
    (cold.reservedCash = 5 ∧ cold.rowsCash = 5) ∧ (p.reservedCash = 5 ∧ p.rowsCash = 0) ∧
    ¬Published s.account s'.account cold p := by
  intro s s' state cold p
  obtain ⟨hrows, hex⟩ := twoBuys_shard
  have hrun : Trace (HotCall (.clamped .exact fun x _ => x)) s [.releaseOrder "b1" .cancelled] s' :=
    .cons ⟨trivial, trivial, rfl⟩ (.nil _)
  obtain ⟨hords, htrs⟩ := releaseOrderReservationLocked_frame
  have hcash : p.reservedCash = 5 ∧ p.rowsCash = 0 := by decide +kernel
  refine ⟨⟨hrows, hex, hrun, .of_initial (by decide +kernel)
    (fun coid htouch => hords coid ?_) fun _ _ => by rw [htrs]⟩,
    by decide +kernel, hcash, fun hp => ?_⟩
  · rintro rfl
    rcases htouch with hmem | ⟨hnone, -⟩
    · exact absurd hmem (by decide +kernel)
    · exact absurd hnone (by decide +kernel)
  · have heq := hp.reservedCash
    rw [hcash.1, hcash.2] at heq
    norm_num at heq

end AccountState

end HexAgent.Account
