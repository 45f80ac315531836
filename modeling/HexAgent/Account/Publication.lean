import HexAgent.Account.Cold
import HexAgent.Account.HotSteps

/-!
# Publishing beside hot work

What the two merges of a publication compute, given that the calls since the copy are `HotWork` and
that the cold side left alone what they touched. The journal then holds exactly the hints of these
calls (`HotWork.filter_recent`), and the change of effects that the merge computes from the touched
trades is that of all trades.

The merged ledger is not always the one that its rows ask for. Balances move by differences, but
reserved cash and the reservations of touched tokens are taken over from the shard.
-/

namespace HexAgent.Account

open InstanceLedger List AList Account.OrderOwnership VirtualAccount SharedAccountState

variable {token : String}

/-! ## What the merges look up -/

/-- Balance and reservation of a token in a ledger. -/
def InstanceLedger.quota (ledger : InstanceLedger) (token : String) : VirtualPositionQuota :=
  ⟨(ledger.positions.lookup token).getD 0, (ledger.reservedPositions.lookup token).getD 0⟩

section Ledger

variable {a : VirtualAccount} {ledger : InstanceLedger} {delta : EconomicBalance}
  {tokens : List String}

lemma position_replaceLedger : (a.replaceLedger ledger).position token = ledger.quota token := by
  have hfold (keys : List String) (m : AList fun _ => VirtualPositionQuota) :
      (keys.foldl (fun posns token =>
        if (posns.lookup token).isSome then posns
        else posns.insert token ⟨(ledger.positions.lookup token).getD 0,
          (ledger.reservedPositions.lookup token).getD 0⟩) m).lookup token =
        (m.lookup token).or (if token ∈ keys then some (ledger.quota token) else none) := by
    induction keys generalizing m with
    | nil => simp
    | cons key keys ih =>
      rw [foldl_cons, ih]
      by_cases hkey : token = key
      · subst hkey
        cases hm : m.lookup token with
        | none => simp [lookup_insert, quota]
        | some quota => simp [hm]
      · split
        · simp [hkey]
        · simp [hkey]
  rw [position, replaceLedger]
  rw [hfold, lookup_empty, Option.none_or]
  split
  · rfl
  next hmem =>
  rw [mem_append, not_or] at hmem
  rw [quota, lookup_eq_none.2 hmem.1, lookup_eq_none.2 hmem.2]
  rfl

lemma quota_takeToken (token other : String) :
    (takeToken a delta ledger token).quota other =
      if other = token ∧ token ∈ a.positions then
        ⟨(ledger.quota token).balance + delta.positions token, (a.position token).reserved⟩
      else ledger.quota other := by
  unfold takeToken
  cases hget : a.positions.lookup token with
  | none =>
    rw [if_neg fun h => (lookup_eq_none.1 hget) h.2]
  | some quota =>
    have hmem : token ∈ a.positions := lookup_isSome.1 (by rw [hget]; rfl)
    by_cases hne : other = token
    · subst hne
      rw [if_pos ⟨rfl, hmem⟩]
      simp [InstanceLedger.quota, lookup_insert, position, hget]
    · rw [if_neg fun h => hne h.1]
      simp [InstanceLedger.quota, lookup_insert_ne hne]

lemma quota_merge (a : VirtualAccount) (ledger : InstanceLedger) (delta : EconomicBalance)
    (htoks : tokens.Nodup) (token : String) :
    (ledger.merge a tokens delta).quota token =
      if token ∈ tokens ∧ token ∈ a.positions then
        ⟨(ledger.quota token).balance + delta.positions token, (a.position token).reserved⟩
      else ledger.quota token := by
  have hfold ledger :
      (tokens.foldl (takeToken a delta) ledger).quota token =
        if token ∈ tokens ∧ token ∈ a.positions then
          ⟨(ledger.quota token).balance + delta.positions token, (a.position token).reserved⟩
        else ledger.quota token := by
    induction tokens generalizing ledger with
    | nil => simp
    | cons key keys ih =>
      obtain ⟨hkey, hkeys⟩ := nodup_cons.1 htoks
      rw [foldl_cons, ih hkeys, quota_takeToken]
      by_cases htok : token = key
      · subst htok
        simp [hkey]
      · simp [htok]
  exact hfold _

lemma merge_cash : (ledger.merge a tokens delta).cash = ledger.cash + delta.cash ∧
      (ledger.merge a tokens delta).reservedCash = a.reservedCash := by
  refine foldlRecOn (motive := fun l : InstanceLedger => l.cash = ledger.cash + delta.cash ∧
    l.reservedCash = a.reservedCash) tokens _ ⟨rfl, rfl⟩ fun l hl token _ => ?_
  unfold takeToken
  split <;> exact hl

/-- Reserving a list of orders with exact comparisons. -/
lemma foldl_reserve {tol : Tolerance} (heps : tol.eps = 0) (ledger : InstanceLedger)
    {orders : List OrderOwnership} (hrows : ∀ o ∈ orders, ReservationRow o) :
    let reserved := orders.foldl (reserve tol) ledger
    reserved.cash = ledger.cash ∧
      reserved.reservedCash = ledger.reservedCash + (orders.map (·.reservedCash)).sum ∧
      ∀ token, reserved.quota token = ⟨(ledger.quota token).balance, (ledger.quota token).reserved +
        (orders.map (reservedOf token)).sum⟩ := by
  induction orders generalizing ledger with
  | nil => simp
  | cons o orders ih =>
    obtain ⟨hcash, hrsv, hquota⟩ := ih (ledger.reserve tol o)
      fun p hp => hrows p (.tail _ hp)
    refine ⟨hcash, ?_, fun token => ?_⟩
    · rw [foldl_cons, hrsv, map_cons, sum_cons, ← add_assoc]
      rfl
    · rw [foldl_cons, hquota, map_cons, sum_cons]
      have hfirst : (ledger.reserve tol o).quota token = ⟨(ledger.quota token).balance,
          (ledger.quota token).reserved + reservedOf token o⟩ := by
        rw [reserve, quota, heps]
        by_cases htok : o.tokenId = token
        · subst htok
          have hnn := (hrows o (.head _)).quantity
          by_cases hpos : 0 < o.reservedQuantity
          · simp [hpos, lookup_insert, reservedOf, quota]
          · have hzero : o.reservedQuantity = 0 := le_antisymm (not_lt.1 hpos) hnn
            simp [hzero, reservedOf, quota]
        · have hne : token ≠ o.tokenId := Ne.symm htok
          split
          · simp [lookup_insert_ne hne, reservedOf, htok, quota]
          · simp [reservedOf, htok, quota]
      rw [hfirst, add_assoc]

end Ledger

section Rows

variable {a : VirtualAccount}

lemma foldl_takeOrder (coids : List String) (state : SharedAccountState) :
    let taken := coids.foldl (takeOrder a) state
    taken.orders = copyRows coids a.orders state.orders ∧ taken.trades = state.trades ∧
      taken.instances = state.instances := by
  induction coids generalizing state with
  | nil => exact ⟨rfl, rfl, rfl⟩
  | cons coid coids ih =>
    obtain ⟨hords, htrs, hins⟩ := ih (state.takeOrder a coid)
    exact ⟨hords, htrs, hins⟩

lemma foldl_takeTrade (keys : List String) (state : SharedAccountState) :
    let taken := keys.foldl (takeTrade a) state
    taken.trades = copyRows keys a.trades state.trades ∧ taken.orders = state.orders ∧
      taken.instances = state.instances := by
  induction keys generalizing state with
  | nil => exact ⟨rfl, rfl, rfl⟩
  | cons key keys ih =>
    obtain ⟨htrs, hords, hins⟩ := ih (state.takeTrade a key)
    exact ⟨htrs, hords, hins⟩

lemma amount_concurrentEconomics (iid : String) (keys : List String)
    (cold hot : AList fun _ => AppliedTrade) (asset : Option String) :
    (concurrentEconomics iid keys cold hot).amount asset =
      (keys.map fun key =>
        hot.valueAt (fun _ trade => (tradeEffectOn iid trade).amount asset) key -
          cold.valueAt (fun _ trade => (tradeEffectOn iid trade).amount asset) key).sum := by
  have hadd x y scale :
      (addEconomicState x y scale).amount asset = x.amount asset + y.amount asset * scale := by
    cases asset <;> rfl
  have hzero : (⟨0, fun _ => 0⟩ : EconomicBalance).amount asset = 0 := by cases asset <;> rfl
  refine (foldl_measure (EconomicBalance.amount · asset) (fun total key => ?_) keys _).trans
    (by rw [hzero, zero_add])
  rw [valueAt, valueAt]
  cases cold.lookup key <;> cases hot.lookup key <;> simp [hadd]
  ring

end Rows

/-! ## The journal names what happened -/

/-- Effects of the hot trade mutations on one asset. -/
def hotEffect (base hot : VirtualAccount) (asset : Option String) : ℚ :=
  (hot.trades.sumBy fun _ trade => (tradeEconomicEffect trade).amount asset) -
    base.trades.sumBy fun _ trade => (tradeEconomicEffect trade).amount asset

/-- A row has an effect on a token only if it is of that token and holds something. -/
lemma amount_effect_eq_zero {t : AppliedTrade} (h : t.Holds → t.ownership.tokenId ≠ token) :
    (tradeEconomicEffect t).amount (some token) = 0 := by
  show (tradeEconomicEffect t).positions token = 0
  unfold tradeEconomicEffect
  split
  · rfl
  dsimp only
  split
  swap
  · rfl
  next htok =>
  have hnot : ¬t.Holds := fun hholds => h hholds htok.symm
  rw [AppliedTrade.Holds, not_or] at hnot
  simp [hnot.1, hnot.2]

section Journal

variable {base hot : VirtualAccount} {hints : List VirtualTradeMutationHint}

section

variable (h : HotWork base hot hints) (hbase : base.ShardRows)
    (hwindow : hints.length ≤ recentVirtualTradeMutations)

include h hbase hwindow

/-- The journal holds exactly the new hints after the observed epoch. -/
lemma HotWork.filter_recent :
    hot.recentTradeMutations.filter (fun hint => decide (base.tradeEpoch < hint.epoch)) =
      hints := by
  have hlen : hints.length ≤ hot.recentTradeMutations.length := by
    have := h.window
    omega
  obtain ⟨older, holder⟩ := suffix_of_suffix_length_le (suffix_append _ _) h.suffix hlen
  have hold : older <:+ base.recentTradeMutations := by
    have hsuffix := h.suffix
    rw [← holder] at hsuffix
    exact suffix_append_self_iff.1 hsuffix
  rw [← holder, filter_append]
  have hnone : older.filter (fun hint => decide (base.tradeEpoch < hint.epoch)) = [] := by
    rw [filter_eq_nil_iff]
    intro hint hmem
    simpa using hbase.hint hint (hold.subset hmem)
  have hall : hints.filter (fun hint => decide (base.tradeEpoch < hint.epoch)) = hints := by
    rw [filter_eq_self]
    intro hint hmem
    have hep : hint.epoch ∈ hints.map (·.epoch) := mem_map_of_mem hmem
    rw [h.epochs, mem_range'_1] at hep
    exact decide_eq_true hep.1
  rw [hnone, hall, nil_append]

/-- A merge takes from the shard what the hints name. -/
lemma HotWork.touchedKeys_eq (hne : hints ≠ []) :
    touchedKeys hot base.tradeEpoch = ⟨(hints.map (·.clientOrderId)).dedup,
      (hints.map (·.tradeKey)).dedup, (hints.map (·.tokenId)).dedup⟩ := by
  unfold touchedKeys
  rw [h.filter_recent hbase hwindow]
  have hfirst : (hints.head?.any fun hint => hint.epoch == base.tradeEpoch + 1) = true := by
    obtain ⟨hint, rest, rfl⟩ := exists_cons_of_ne_nil hne
    have hepochs := h.epochs
    simpa using (cons.inj hepochs).1
  have hlast : (hints.getLast?.any fun hint => hint.epoch == hot.tradeEpoch) = true := by
    obtain ⟨init, hint, rfl⟩ := (eq_nil_or_concat' hints).resolve_left hne
    have hepochs := h.epochs
    rw [map_append, length_append, length_singleton, range'_1_concat] at hepochs
    have hep : hint.epoch = base.tradeEpoch + 1 + init.length :=
      head_eq_of_cons_eq (append_inj' hepochs rfl).2
    rw [h.tradeEpoch, getLast?_concat, Option.any_some, beq_iff_eq,
      hep, length_append, length_singleton]
    omega
  simp [hfirst, hlast]

end

end Journal

/-! ## The merged state -/

/-- Cash and tokens of a ledger. -/
def InstanceLedger.economics (ledger : InstanceLedger) : EconomicBalance where
  cash := ledger.cash
  positions token := (ledger.quota token).balance

/-- A cold result that is published beside hot work which it did not touch. -/
structure Concurrent (base hot : VirtualAccount) (hints : List VirtualTradeMutationHint)
    (state : SharedAccountState) (ledger : InstanceLedger) : Prop where
  work : HotWork base hot hints
  window : hints.length ≤ recentVirtualTradeMutations
  baseRows : base.ShardRows
  baseExact : base.Exact
  hotRows : hot.ShardRows
  hotExact : hot.Exact
  ledger_eq : state.instances.lookup hot.instanceId = some ledger
  hinted : ∀ hint ∈ hints,
    state.orders.lookup hint.clientOrderId = base.orders.lookup hint.clientOrderId ∧
      state.trades.lookup hint.tradeKey = base.trades.lookup hint.tradeKey
  fresh : ∀ coid, base.orders.lookup coid = none → (hot.orders.lookup coid).isSome →
    state.orders.lookup coid = none

/-- Orders that the merge of reservations adds to the state. -/
def addedOrders (base hot : VirtualAccount) (state : SharedAccountState) :
    AList fun _ : String => OrderOwnership :=
  if base.reservationEpoch = hot.reservationEpoch then ∅
  else hot.orders.filterRows fun coid _ => (state.orders.lookup coid).isNone

/-- The state after both merges. -/
structure MergeResult (base hot : VirtualAccount) (hints : List VirtualTradeMutationHint)
    (state : SharedAccountState) (ledger : InstanceLedger) (merged : SharedAccountState)
    (ledger' : InstanceLedger) : Prop where
  ledger_eq : merged.instances.lookup hot.instanceId = some ledger'
  economics : ∀ asset, ledger'.economics.amount asset =
    ledger.economics.amount asset + hotEffect base hot asset
  reservedCash : ledger'.reservedCash =
    if hints = [] then
      ledger.reservedCash + (addedOrders base hot state).sumBy fun _ o => o.reservedCash
    else hot.reservedCash
  reserved : ∀ token, (ledger'.quota token).reserved =
    if token ∈ hints.map (·.tokenId) ∧ token ∈ hot.positions then (hot.position token).reserved
    else (ledger.quota token).reserved +
      (addedOrders base hot state).sumBy fun _ o => OrderOwnership.reservedOf token o
  orders : ∀ coid, merged.orders.lookup coid =
    if coid ∈ hints.map (·.clientOrderId) then hot.orders.lookup coid
    else ((addedOrders base hot state).lookup coid).or (state.orders.lookup coid)
  trades : ∀ key, merged.trades.lookup key =
    if key ∈ hints.map (·.tradeKey) then hot.trades.lookup key else state.trades.lookup key

section Merged

variable {tol : Tolerance} {base hot : VirtualAccount} {hints : List VirtualTradeMutationHint}
  {state : SharedAccountState} {ledger : InstanceLedger}

/-- The merge of reservations. -/
lemma Concurrent.reservations (h : Concurrent base hot hints state ledger) (heps : tol.eps = 0) :
    let merged := mergeConcurrentReservations tol state hot (some base.reservationEpoch)
    ∃ ledger', merged.instances.lookup hot.instanceId = some ledger' ∧
      ledger'.cash = ledger.cash ∧
      (ledger'.reservedCash = ledger.reservedCash +
        (addedOrders base hot state).sumBy fun _ o => o.reservedCash) ∧
      (∀ token, ledger'.quota token = ⟨(ledger.quota token).balance, (ledger.quota token).reserved +
        (addedOrders base hot state).sumBy fun _ o => reservedOf token o⟩) ∧
      (∀ coid, merged.orders.lookup coid =
        ((addedOrders base hot state).lookup coid).or (state.orders.lookup coid)) ∧
      merged.trades = state.trades := by
  intro merged
  by_cases hep : base.reservationEpoch = hot.reservationEpoch
  · have hmerged : merged = state := by
      simp [merged, mergeConcurrentReservations, hep]
    have hadded : addedOrders base hot state = ∅ := if_pos hep
    rw [hmerged, hadded]
    simp only [sumBy_empty, add_zero, lookup_empty, Option.none_or]
    exact ⟨ledger, h.ledger_eq, rfl, rfl, fun _ => rfl, fun _ => trivial, trivial⟩
  · have hadded : addedOrders base hot state =
        hot.orders.filterRows fun coid _ => (state.orders.lookup coid).isNone := if_neg hep
    have hmerged : merged = { state.setLedger hot.instanceId
        ((missingOrders state hot).foldl (reserve tol) ledger) with
        oidToCoid := (missingOrders state hot).foldl
          (fun m order => m.insert (normalizeOrderId order.orderId) order.clientOrderId)
          state.oidToCoid
        orders := (missingOrders state hot).foldl
          (fun m order => m.insert order.clientOrderId order) state.orders } := by
      simp [merged, mergeConcurrentReservations, hep, h.ledger_eq]
    have hget coid o
        (ho : (addedOrders base hot state).lookup coid = some o) :
        hot.orders.lookup coid = some o := by
      rw [hadded, lookup_filterRows, Option.filter_eq_some_iff] at ho
      exact ho.1
    have hmiss : missingOrders state hot = (addedOrders base hot state).entries.map Sigma.snd := by
      rw [hadded]
      rfl
    have hsum (f : OrderOwnership → ℚ) : ((missingOrders state hot).map f).sum =
        (addedOrders base hot state).sumBy fun _ o => f o := by
      rw [hmiss, map_map]
      rfl
    have hrows : ∀ o ∈ missingOrders state hot, ReservationRow o := by
      rw [hmiss]
      intro o ho
      obtain ⟨entry, hent, rfl⟩ := mem_map.1 ho
      exact h.hotExact.rows _ _ (hget _ _ (mem_entries_iff.1 hent))
    obtain ⟨hcash, hrsv, hquota⟩ := foldl_reserve heps ledger hrows
    rw [hmerged]
    refine ⟨_, lookup_insert _, hcash, hrsv.trans ?_, fun token => (hquota token).trans ?_,
      fun coid => ?_, rfl⟩
    · rw [hsum]
    · rw [hsum]
    · dsimp only
      rw [hmiss]
      refine lookup_foldl_insert _ _ fun c o ho => ?_
      exact (h.hotRows.order c o (hget c o ho)).1

/-- Trades that no hint names are untouched. -/
lemma HotWork.trade_eq (h : HotWork base hot hints) {key : String}
    (hkey : key ∉ hints.map (·.tradeKey)) : hot.trades.lookup key = base.trades.lookup key := by
  rcases h.trade key with hsame | ⟨hint, hmem, rfl, -⟩
  · exact hsame
  · exact absurd (mem_map_of_mem hmem) hkey

/-- The change of effects that a merge computes is that of the hot mutations. -/
lemma Concurrent.amount_concurrentEconomics (h : Concurrent base hot hints state ledger)
    (asset : Option String) :
    (concurrentEconomics hot.instanceId (hints.map (·.tradeKey)).dedup state.trades
      hot.trades).amount asset = hotEffect base hot asset := by
  have hvalue {rows : AList fun _ : String => AppliedTrade}
      (hrows : ∀ key t, rows.lookup key = some t → t.ownership.instanceId = hot.instanceId)
      key :
      rows.valueAt (fun _ t => (tradeEffectOn hot.instanceId t).amount asset) key =
        rows.valueAt (fun _ t => (tradeEconomicEffect t).amount asset) key := by
    rw [valueAt, valueAt]
    cases hget : rows.lookup key with
    | none => rfl
    | some t => simp only [Option.elim_some, tradeEffectOn, if_pos (hrows key t hget)]
  rw [Account.amount_concurrentEconomics, hotEffect, sumBy_sub_eq_sum _ (nodup_dedup _)
    fun key hkey => h.work.trade_eq fun hmem => hkey (mem_dedup.2 hmem)]
  refine congrArg sum (map_congr_left fun key hkey => ?_)
  obtain ⟨hint, hmem, rfl⟩ := mem_map.1 (mem_dedup.1 hkey)
  have hbase key t (ht : base.trades.lookup key = some t) :
      t.ownership.instanceId = hot.instanceId :=
    (h.baseRows.trade key t ht).trans h.work.instanceId.symm
  rw [hvalue h.hotRows.trade, ← hvalue hbase]
  simp only [valueAt, (h.hinted hint hmem).2]

/-- Tokens without a hint, or without a quota, are not affected. -/
lemma Concurrent.hotEffect_eq_zero (h : Concurrent base hot hints state ledger)
    (htok : ¬(token ∈ hints.map (·.tokenId) ∧ token ∈ hot.positions)) :
    hotEffect base hot (some token) = 0 := by
  by_cases hmem : token ∈ hot.positions
  · have hhint : token ∉ hints.map (·.tokenId) := fun hhint => htok ⟨hhint, hmem⟩
    rw [hotEffect, sumBy_sub_eq_sum _ (nodup_dedup _)
      fun key hkey => h.work.trade_eq fun hmem => hkey (mem_dedup.2 hmem)]
    refine sum_eq_zero fun x hx => ?_
    obtain ⟨key, -, rfl⟩ := mem_map.1 hx
    rcases h.work.trade key with hsame | ⟨hint, hin, rfl, ⟨t, ht, htokenId⟩, hold⟩
    · simp only [valueAt, hsame, sub_self]
    -- Both rows are of the hint's token.
    have hne : hint.tokenId ≠ token := fun heq => hhint (heq ▸ mem_map_of_mem hin)
    have hzero : (tradeEconomicEffect t).amount (some token) = 0 :=
      amount_effect_eq_zero fun _ heq => hne (htokenId.symm.trans heq)
    rw [valueAt_of_lookup ht, hzero, zero_sub, neg_eq_zero, valueAt]
    cases hget : base.trades.lookup hint.tradeKey with
    | none => rfl
    | some old =>
      exact amount_effect_eq_zero fun _ heq => hne ((hold old hget).symm.trans heq)
  · have hzero {a : VirtualAccount} (hrows : a.ShardRows) (hnot : token ∉ a.positions) :
        (a.trades.sumBy fun _ t => (tradeEconomicEffect t).amount (some token)) = 0 := by
      rw [← sumBy_zero a.trades]
      refine sumBy_congr fun key t ht => amount_effect_eq_zero fun hholds heq => ?_
      exact hnot (heq ▸ hrows.held key t ht hholds)
    rw [hotEffect, hzero h.hotRows hmem,
      hzero h.baseRows fun hbase => hmem (h.work.tokens token hbase), sub_zero]

lemma HotWork.hotEffect_of_nil (h : HotWork base hot []) (asset : Option String) :
    hotEffect base hot asset = 0 := by
  have hget key : hot.trades.lookup key = base.trades.lookup key :=
    h.trade_eq not_mem_nil
  rw [hotEffect, sumBy_of_lookup_eq _ hget, sub_self]

/-- Both merges. -/
lemma Concurrent.mergeResult (h : Concurrent base hot hints state ledger) (heps : tol.eps = 0) :
    let merged := mergeConcurrentTradeMutations
      (mergeConcurrentReservations tol state hot (some base.reservationEpoch)) hot
      (some base.tradeEpoch)
    merged.2 = hot.dropHints ∧
      ∃ ledger', MergeResult base hot hints state ledger merged.1 ledger' := by
  obtain ⟨ledger₁, hled, hcash, hreservedCash, hquota, hords, htrs⟩ :=
    h.reservations heps
  generalize mergeConcurrentReservations tol state hot (some base.reservationEpoch) = reserved
    at hled hords htrs
  have hbal token : (ledger₁.quota token).balance = (ledger.quota token).balance := by
    rw [hquota]
  have hrsv token : (ledger₁.quota token).reserved = (ledger.quota token).reserved +
      (addedOrders base hot state).sumBy fun _ o => reservedOf token o := by
    rw [hquota]
  by_cases hne : hints = []
  · -- No hint was recorded, and the state stays as it is.
    subst hne
    have hep : base.tradeEpoch = hot.tradeEpoch := h.work.tradeEpoch.symm
    rw [mergeConcurrentTradeMutations, if_pos hep]
    refine ⟨rfl, ledger₁, hled, fun asset => ?_, hreservedCash, fun token => ?_, fun coid => ?_,
      fun key => ?_⟩
    · rw [h.work.hotEffect_of_nil, add_zero]
      cases asset with
      | none => exact hcash
      | some token => exact hbal token
    · exact hrsv token
    · simpa using hords coid
    · simp [htrs]
  · have hep : base.tradeEpoch ≠ hot.tradeEpoch := by
      have hlen := length_pos_of_ne_nil hne
      have := h.work.tradeEpoch
      omega
    have hdelta := h.amount_concurrentEconomics
    rw [mergeConcurrentTradeMutations, if_neg hep, h.work.touchedKeys_eq h.baseRows h.window hne,
      hled, htrs]
    dsimp only [Option.elim_some]
    generalize concurrentEconomics hot.instanceId (hints.map (·.tradeKey)).dedup state.trades
      hot.trades = delta at hdelta ⊢
    obtain ⟨hcash', hreservedCash'⟩ := merge_cash
    have hquota' := quota_merge hot ledger₁ delta (nodup_dedup (hints.map (·.tokenId)))
    obtain ⟨hordersTaken, htradesTaken, hinstancesTaken⟩ := foldl_takeOrder (a := hot)
      (hints.map (·.clientOrderId)).dedup (reserved.setLedger hot.instanceId
        (ledger₁.merge hot (hints.map (·.tokenId)).dedup delta))
    generalize (hints.map (·.clientOrderId)).dedup.foldl _ _ = taken
      at hordersTaken htradesTaken hinstancesTaken ⊢
    obtain ⟨htradesFinal, hordersFinal, hinstancesFinal⟩ := foldl_takeTrade (a := hot)
      (hints.map (·.tradeKey)).dedup taken
    refine ⟨rfl, ledger₁.merge hot (hints.map (·.tokenId)).dedup delta, ?_, fun asset => ?_, ?_,
      fun token => ?_, fun coid => ?_, fun key => ?_⟩
    · rw [hinstancesFinal, hinstancesTaken]
      exact lookup_insert _
    · cases asset with
      | none => exact hcash'.trans (by rw [hcash, ← hdelta none]; rfl)
      | some token =>
        show (quota _ token).balance = (ledger.quota token).balance + _
        simp only [hquota', mem_dedup]
        split
        · rw [hbal, ← hdelta (some token)]
          rfl
        · next hnot => rw [h.hotEffect_eq_zero hnot, add_zero, hbal]
    · rw [if_neg hne, hreservedCash']
    · simp only [hquota', mem_dedup]
      split
      · rfl
      · exact hrsv token
    · simp only [hordersFinal, hordersTaken, lookup_copyRows, mem_dedup]
      split
      · rfl
      · exact hords coid
    · simp only [htradesFinal, htradesTaken, lookup_copyRows, mem_dedup, ← htrs]
      rfl

end Merged

end HexAgent.Account
