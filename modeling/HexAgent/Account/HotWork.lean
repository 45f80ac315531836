import HexAgent.Account.Reservation

/-!
# What the lifecycle owner does to a shard

Every call either admits an order, writes one order row and possibly one trade row and then records
a hint of what it wrote, or leaves the rows alone. `HotWork a b hints` is what is left of this after
any number of calls: the hints name every row that changed, apart from admitted orders, together
with its token.

A trade edge can also write without a hint: a fee transition on a failed leg binds a curve that has
become known but reports no change, and a refused recomputation leaves the rest of the edge written.
Such edges are only known to be `Writes`.
-/

namespace HexAgent.Account

open List Option VirtualAccount AList

variable (N : Numerics) (t : String) {o : OrderOwnership}

/-- Identity of an order row: client order id, instance and token. -/
def ownerOf (o : OrderOwnership) : String × String × String :=
  (o.clientOrderId, o.instanceId, o.tokenId)

/-- The row has moved a balance. -/
def AppliedTrade.Holds (t : AppliedTrade) : Prop :=
  t.booked = true ∨ t.virtualFeeBooked = true

/-! ## Writes of one call -/

/-- Only reservation counters changed. -/
def Reserves (a b : VirtualAccount) : Prop :=
  ∃ cash positions, b = { a with reservedCash := cash, positions := positions } ∧
    ∀ t ∈ a.positions, t ∈ positions

namespace Reserves

variable {a b c : VirtualAccount}

lemma refl (a : VirtualAccount) : Reserves a a :=
  ⟨_, _, rfl, fun _ h => h⟩

lemma trans (h : Reserves a b) (h' : Reserves b c) : Reserves a c := by
  obtain ⟨_, _, rfl, htoks⟩ := h
  obtain ⟨_, _, rfl, htoks'⟩ := h'
  exact ⟨_, _, rfl, fun t ht => htoks' t (htoks t ht)⟩

lemma setPosition (quota : VirtualPositionQuota) : Reserves a (a.setPosition t quota) :=
  ⟨_, _, rfl, fun _ h => (mem_insert _).2 (.inr h)⟩

lemma adjustReservation (cashDelta delta : ℚ) :
    Reserves a (a.adjustReservation N t cashDelta delta) := by
  have hcash : Reserves a (a.adjustReservedCash N cashDelta) := by
    unfold adjustReservedCash
    split
    · exact ⟨_, _, rfl, fun _ h => h⟩
    · exact refl a
  refine hcash.trans ?_
  unfold VirtualAccount.adjustReservation VirtualAccount.adjustReservedPosition
  split
  · exact setPosition _ _
  · exact refl _

lemma raiseToMinimum : Reserves a (a.raiseToMinimum N t) :=
  trans ⟨_, _, rfl, fun _ h => h⟩ (setPosition _ _)

lemma tryReserve {N : Numerics} {r : OrderRequest} (h : a.tryReserve N r = .ok b) : Reserves a b :=
  tryReserve_rule (P := Reserves a) h (fun _ => ⟨_, _, rfl, fun _ h => h⟩)
    fun _ _ hc => hc.trans (setPosition _ _)

/-- The counters and an order row are written independently. -/
lemma setOrder (h : Reserves a b) (coid : String) (o : OrderOwnership) :
    Reserves (a.setOrder coid o) (b.setOrder coid o) := by
  obtain ⟨_, _, rfl, htoks⟩ := h
  exact ⟨_, _, rfl, htoks⟩

end Reserves

/-- A trade row of the token `token` was written, or none. -/
def TradeWrite (a b : VirtualAccount) (key token : String) : Prop :=
  b.trades.lookup key = a.trades.lookup key ∨
    ∃ t, b.trades.lookup key = some t ∧ t.ownership.tokenId = token ∧
      t.ownership.instanceId = a.instanceId ∧
      (∀ old, a.trades.lookup key = some old → old.ownership.tokenId = token) ∧
      (t.Holds → token ∈ b.positions ∨ ∃ old, a.trades.lookup key = some old ∧ old.Holds)

/-- Only the order `coid` and the trade `key` may have changed, and the journal did not. -/
structure Writes (a b : VirtualAccount) (key coid token : String) : Prop where
  instanceId : b.instanceId = a.instanceId
  recent : b.recentTradeMutations = a.recentTradeMutations
  tradeEpoch : b.tradeEpoch = a.tradeEpoch
  reservationEpoch : b.reservationEpoch = a.reservationEpoch
  tokens : ∀ t ∈ a.positions, t ∈ b.positions
  orders : ∀ c, c ≠ coid → b.orders.lookup c = a.orders.lookup c
  order : (b.orders.lookup coid).map ownerOf =
    (a.orders.lookup coid).map ownerOf
  trades : ∀ k, k ≠ key → b.trades.lookup k = a.trades.lookup k
  trade : TradeWrite a b key token

namespace Writes

variable (pending : Bool) {a b c : VirtualAccount} {key coid token : String} {o' : OrderOwnership}

lemma trans (h : Writes a b key coid token) (h' : Writes b c key coid token) :
    Writes a c key coid token where
  instanceId := h'.instanceId.trans h.instanceId
  recent := h'.recent.trans h.recent
  tradeEpoch := h'.tradeEpoch.trans h.tradeEpoch
  reservationEpoch := h'.reservationEpoch.trans h.reservationEpoch
  tokens t ht := h'.tokens t (h.tokens t ht)
  orders k hk := (h'.orders k hk).trans (h.orders k hk)
  order := h'.order.trans h.order
  trades k hk := (h'.trades k hk).trans (h.trades k hk)
  trade := by
    rcases h.trade with hb | ⟨t, hb, htok, hown, hold, hholds⟩
    · rcases h'.trade with hc | ⟨t, hc, htok, hown, hold, hholds⟩
      · exact .inl (hc.trans hb)
      · refine .inr ⟨t, hc, htok, hown.trans h.instanceId, ?_, ?_⟩
        · rwa [hb] at hold
        · rwa [hb] at hholds
    · rcases h'.trade with hc | ⟨t', hc, htok', hown', -, hholds'⟩
      · refine .inr ⟨t, hc.trans hb, htok, hown, hold, fun ht => ?_⟩
        exact (hholds ht).imp_left (h'.tokens token)
      · refine .inr ⟨t', hc, htok', hown'.trans h.instanceId, hold, fun ht => ?_⟩
        rcases hholds' ht with hmem | ⟨old, hget, hheld⟩
        · exact .inl hmem
        · cases hget.symm.trans hb
          exact (hholds hheld).imp_left (h'.tokens token)

/-- Marks and counters were changed. -/
lemma of_rows (htoks : ∀ t ∈ a.positions, t ∈ b.positions)
    (h : (b.orders, b.trades, b.instanceId, b.recentTradeMutations, b.tradeEpoch,
      b.reservationEpoch) = (a.orders, a.trades, a.instanceId, a.recentTradeMutations,
      a.tradeEpoch, a.reservationEpoch)) : Writes a b key coid token := by
  simp only [Prod.mk.injEq] at h
  obtain ⟨hords, htrs, hinst, hrec, htradeEpoch, hreservationEpoch⟩ := h
  refine ⟨hinst, hrec, htradeEpoch, hreservationEpoch, htoks, fun _ _ => ?_, ?_, fun _ _ => ?_,
    .inl ?_⟩
  all_goals simp only [hords, htrs]

lemma refl (a : VirtualAccount) : Writes a a key coid token :=
  of_rows (fun _ h => h) rfl

/-- A row of the same owner was written. -/
lemma setOrder (hget : a.orders.lookup coid = some o)
    (hown : ownerOf o' = ownerOf o) : Writes a (a.setOrder coid o') key coid token where
  instanceId := rfl
  recent := rfl
  tradeEpoch := rfl
  reservationEpoch := rfl
  tokens _ h := h
  orders _ hc := lookup_insert_ne hc
  order := by
    show ((a.orders.insert coid o').lookup coid).map _ = _
    rw [lookup_insert, hget]
    exact congrArg some hown
  trades _ _ := rfl
  trade := .inl rfl

lemma of_reserves (h : Reserves a b) : Writes a b key coid token := by
  obtain ⟨cash, positions, rfl, htoks⟩ := h
  exact of_rows htoks rfl

lemma rewriteOrder (hget : a.orders.lookup coid = some o)
    (hown : ownerOf o' = ownerOf o) : Writes a (a.rewriteOrder N coid o o') key coid token :=
  (setOrder hget hown).trans (of_reserves (.adjustReservation N _ _ _))

lemma release : Writes a (a.releaseVirtualOrderReservation N coid) key coid token := by
  unfold releaseVirtualOrderReservation
  split
  · exact refl a
  · next o hget => exact rewriteOrder N hget rfl

lemma setRecovery : Writes a (a.setRecovery coid pending) key coid token :=
  of_rows (fun _ h => h) rfl

lemma clearStartupRepair : Writes a (a.clearStartupRepair coid) key coid token :=
  of_rows (fun _ h => h) rfl

lemma setRoutineAudit : Writes a (a.setRoutineAudit coid pending) key coid token :=
  of_rows (fun _ h => h) rfl

lemma setCancelAuditAnomaly (present : Bool) :
    Writes a (a.setCancelAuditAnomaly coid present) key coid token :=
  of_rows (fun _ h => h) rfl

lemma setFeePending : Writes a (a.setFeePending key pending) key coid token :=
  of_rows (fun _ h => h) rfl

end Writes

/-! ## Work of many calls -/

/-- The order is untouched, admitted since, or named by a hint of its token. -/
def OrderWork (a b : VirtualAccount) (hints : List VirtualTradeMutationHint) (coid : String) :
    Prop :=
  b.orders.lookup coid = a.orders.lookup coid ∨
    (a.orders.lookup coid = none ∧ a.reservationEpoch < b.reservationEpoch) ∨
    ∃ hint ∈ hints, hint.clientOrderId = coid ∧ ∃ o o', a.orders.lookup coid = some o ∧
      b.orders.lookup coid = some o' ∧ o.tokenId = hint.tokenId ∧ o'.tokenId = hint.tokenId

/-- The trade is untouched or named by a hint of its token. -/
def TradeWork (a b : VirtualAccount) (hints : List VirtualTradeMutationHint) (key : String) :
    Prop :=
  b.trades.lookup key = a.trades.lookup key ∨
    ∃ hint ∈ hints, hint.tradeKey = key ∧
      (∃ t, b.trades.lookup key = some t ∧ t.ownership.tokenId = hint.tokenId) ∧
      ∀ old, a.trades.lookup key = some old → old.ownership.tokenId = hint.tokenId

/-- What a sequence of calls that recorded `hints` has done. -/
structure HotWork (a b : VirtualAccount) (hints : List VirtualTradeMutationHint) : Prop where
  instanceId : b.instanceId = a.instanceId
  reservationEpoch : a.reservationEpoch ≤ b.reservationEpoch
  tradeEpoch : b.tradeEpoch = a.tradeEpoch + hints.length
  epochs : hints.map (·.epoch) = range' (a.tradeEpoch + 1) hints.length
  -- the journal keeps the newest hints, up to its size
  suffix : b.recentTradeMutations <:+ a.recentTradeMutations ++ hints
  window : min recentVirtualTradeMutations (a.recentTradeMutations.length + hints.length) ≤
    b.recentTradeMutations.length
  tokens : ∀ t ∈ a.positions, t ∈ b.positions
  kept : ∀ coid, (a.orders.lookup coid).isSome → (b.orders.lookup coid).isSome
  order : ∀ coid, OrderWork a b hints coid
  trade : ∀ key, TradeWork a b hints key

/-- The rows belong to the shard, what they hold has a quota, and the journal is of the past. -/
structure VirtualAccount.ShardRows (a : VirtualAccount) : Prop where
  order : ∀ coid o, a.orders.lookup coid = some o →
    o.clientOrderId = coid ∧ o.instanceId = a.instanceId
  trade : ∀ key t, a.trades.lookup key = some t → t.ownership.instanceId = a.instanceId
  held : ∀ key t, a.trades.lookup key = some t → t.Holds → t.ownership.tokenId ∈ a.positions
  hint : ∀ hint ∈ a.recentTradeMutations, hint.epoch ≤ a.tradeEpoch

lemma AccountState.shardRows_seeded (accountId iid : String) (cash : ℚ) :
    (AccountState.seeded accountId iid cash []).account.ShardRows where
  order _ _ h := by cases h
  trade _ _ h := by cases h
  held _ _ h := by cases h
  hint _ h := by cases h

section Trim

variable {hints : List VirtualTradeMutationHint}

lemma trimHints_suffix : trimHints hints <:+ hints := by
  induction hints with
  | nil => exact suffix_rfl
  | cons hint hints ih =>
    unfold trimHints
    split
    · exact ih.trans (suffix_cons hint hints)
    · exact suffix_rfl

lemma min_le_length_trimHints :
    min recentVirtualTradeMutations hints.length ≤ (trimHints hints).length := by
  induction hints with
  | nil => exact Nat.min_le_right _ _
  | cons hint hints ih =>
    unfold trimHints
    split
    · next hlong =>
      rw [length_cons] at hlong ⊢
      omega
    · exact Nat.min_le_right _ _

end Trim

section Trans

variable {a b c : VirtualAccount} {hints hints' : List VirtualTradeMutationHint}

lemma OrderWork.trans {coid : String} (hab : a.reservationEpoch ≤ b.reservationEpoch)
    (hbc : b.reservationEpoch ≤ c.reservationEpoch) (h : OrderWork a b hints coid)
    (h' : OrderWork b c hints' coid) : OrderWork a c (hints ++ hints') coid := by
  rcases h with hb | ⟨hnone, hmoved⟩ | ⟨hint, hmem, hcoid, o, o', ha, hb, htok, htok'⟩
  · rw [OrderWork, ← hb]
    rcases h' with hc | ⟨hnone, hmoved⟩ | ⟨hint, hmem, hcoid, hrows⟩
    · exact .inl hc
    · exact .inr (.inl ⟨hnone, hab.trans_lt hmoved⟩)
    · exact .inr (.inr ⟨hint, mem_append_right _ hmem, hcoid, hrows⟩)
  · exact .inr (.inl ⟨hnone, hmoved.trans_le hbc⟩)
  · refine .inr (.inr ⟨hint, mem_append_left _ hmem, hcoid, ?_⟩)
    rcases h' with hc | ⟨hnone, -⟩ | ⟨hint', -, -, p, p', hb', hc, hptoken, hptoken'⟩
    · exact ⟨o, o', ha, hc.trans hb, htok, htok'⟩
    · cases hnone.symm.trans hb
    · cases hb'.symm.trans hb
      exact ⟨o, p', ha, hc, htok, hptoken'.trans (hptoken.symm.trans htok')⟩

lemma TradeWork.trans {key : String} (h : TradeWork a b hints key)
    (h' : TradeWork b c hints' key) : TradeWork a c (hints ++ hints') key := by
  rcases h with hb | ⟨hint, hmem, hkey, ⟨t, hb, htok⟩, hold⟩
  · rw [TradeWork, ← hb]
    rcases h' with hc | ⟨hint, hmem, hrows⟩
    · exact .inl hc
    · exact .inr ⟨hint, mem_append_right _ hmem, hrows⟩
  · refine .inr ⟨hint, mem_append_left _ hmem, hkey, ?_, hold⟩
    rcases h' with hc | ⟨hint', -, -, ⟨t', hc, htok'⟩, hold'⟩
    · exact ⟨t, hc.trans hb, htok⟩
    · exact ⟨t', hc, htok'.trans ((hold' t hb).symm.trans htok)⟩

namespace HotWork

lemma refl (a : VirtualAccount) : HotWork a a [] where
  instanceId := rfl
  reservationEpoch := le_rfl
  tradeEpoch := rfl
  epochs := rfl
  suffix := by rw [append_nil]
  window := Nat.min_le_right _ _
  tokens _ h := h
  kept _ h := h
  order _ := .inl rfl
  trade _ := .inl rfl

lemma trans (h : HotWork a b hints) (h' : HotWork b c hints') :
    HotWork a c (hints ++ hints') where
  instanceId := h'.instanceId.trans h.instanceId
  reservationEpoch := h.reservationEpoch.trans h'.reservationEpoch
  tradeEpoch := by
    rw [h'.tradeEpoch, h.tradeEpoch, length_append, Nat.add_assoc]
  epochs := by
    rw [map_append, h.epochs, h'.epochs, h.tradeEpoch, length_append, Nat.add_right_comm,
      range'_append_1]
  suffix := by
    rw [← append_assoc]
    obtain ⟨dropped, hdropped⟩ := h.suffix
    exact h'.suffix.trans ⟨dropped, by rw [← append_assoc, hdropped]⟩
  window := by
    have hab := h.window
    have hbc := h'.window
    rw [length_append]
    omega
  tokens t ht := h'.tokens t (h.tokens t ht)
  kept coid hsome := h'.kept coid (h.kept coid hsome)
  order coid := OrderWork.trans h.reservationEpoch h'.reservationEpoch (h.order coid)
    (h'.order coid)
  trade key := TradeWork.trans (h.trade key) (h'.trade key)

end HotWork

end Trans

/-! ## One call -/

/-- A call did some work and left the rows with the shard. -/
def HotStep (a b : VirtualAccount) : Prop :=
  ∃ hints, HotWork a b hints ∧ (a.ShardRows → b.ShardRows)

section Steps

variable {a b : VirtualAccount} {key coid token : String}

lemma HotStep.refl (a : VirtualAccount) : HotStep a a :=
  ⟨[], .refl a, id⟩

section

variable (h : Writes a b key coid token)
include h

/-- Rows that belong to the shard after a write. -/
lemma Writes.shardRows (hrows : a.ShardRows) : b.ShardRows where
  order c o hlookup := by
    rw [h.instanceId]
    by_cases hc : c = coid
    · subst hc
      have hown := h.order
      rw [hlookup] at hown
      obtain ⟨old, hold, hsame⟩ := map_eq_some_iff.1 hown.symm
      obtain ⟨hcoid, hinst⟩ := hrows.order c old hold
      rw [ownerOf, ownerOf, Prod.mk.injEq, Prod.mk.injEq] at hsame
      exact ⟨hsame.1.symm.trans hcoid, hsame.2.1.symm.trans hinst⟩
    · exact hrows.order c o (h.orders c hc ▸ hlookup)
  trade k t hlookup := by
    rw [h.instanceId]
    by_cases hk : k = key
    · subst hk
      rcases h.trade with hsame | ⟨t', ht', -, hown, -⟩
      · exact hrows.trade k t (hsame ▸ hlookup)
      · cases hlookup.symm.trans ht'
        exact hown
    · exact hrows.trade k t (h.trades k hk ▸ hlookup)
  held k t hlookup hholds := by
    by_cases hk : k = key
    · subst hk
      rcases h.trade with hsame | ⟨t', ht', htok, -, hold, hheld⟩
      · exact h.tokens _ (hrows.held k t (hsame ▸ hlookup) hholds)
      · cases hlookup.symm.trans ht'
        rw [htok]
        rcases hheld hholds with hmem | ⟨old, hlookup, hholds⟩
        · exact hmem
        · exact hold old hlookup ▸ h.tokens _ (hrows.held k old hlookup hholds)
    · exact h.tokens _ (hrows.held k t (h.trades k hk ▸ hlookup) hholds)
  hint hint hmem := by
    rw [h.tradeEpoch]
    exact hrows.hint hint (h.recent ▸ hmem)

/-- A write that is recorded. -/
lemma Writes.hotStep (htok : b.orders.lookup coid = a.orders.lookup coid ∨
      ∀ o, a.orders.lookup coid = some o → o.tokenId = token) :
    HotStep a (b.recordVirtualTradeMutation key coid token) := by
  refine ⟨[⟨a.tradeEpoch + 1, key, coid, token⟩], ?_, fun hrows => ?_⟩
  · refine ⟨h.instanceId, h.reservationEpoch.ge, ?_, rfl, ?_, ?_, h.tokens, ?_, ?_, ?_⟩
    · exact congrArg (· + 1) h.tradeEpoch
    · show trimHints _ <:+ _
      rw [h.recent, h.tradeEpoch]
      exact trimHints_suffix
    · show _ ≤ (trimHints _).length
      rw [h.recent, h.tradeEpoch]
      exact length_append ▸ min_le_length_trimHints
    · intro c hsome
      show (b.orders.lookup c).isSome
      by_cases hc : c = coid
      · subst hc
        have hown := congrArg isSome h.order
        rwa [isSome_map, isSome_map, hsome] at hown
      · rwa [h.orders c hc]
    · intro c
      show OrderWork a b _ c
      by_cases hc : c = coid
      · subst hc
        rcases htok with hsame | htok
        · exact .inl hsame
        cases ho : a.orders.lookup c with
        | none =>
          have hown := h.order
          rw [ho, map_none, map_eq_none_iff] at hown
          exact .inl (hown.trans ho.symm)
        | some o =>
          have hown := h.order
          rw [ho, map_some, map_eq_some_iff] at hown
          obtain ⟨o', ho', hsame⟩ := hown
          rw [ownerOf, ownerOf, Prod.mk.injEq, Prod.mk.injEq] at hsame
          refine .inr (.inr ⟨_, mem_singleton_self _, rfl, o, o', ho, ho', htok o ho, ?_⟩)
          exact hsame.2.2.trans (htok o ho)
      · exact .inl (h.orders c hc)
    · intro k
      show TradeWork a b _ k
      by_cases hk : k = key
      · subst hk
        rcases h.trade with hsame | ⟨t, ht, htok, -, hold, -⟩
        · exact .inl hsame
        · exact .inr ⟨_, mem_singleton_self _, rfl, ⟨t, ht, htok⟩, hold⟩
      · exact .inl (h.trades k hk)
  · have hb := h.shardRows hrows
    refine { hb with hint := fun hint hmem => ?_ }
    rcases mem_append.1 (trimHints_suffix.subset hmem) with hold | hnew
    · exact (hb.hint hint hold).trans (Nat.le_succ _)
    · rw [mem_singleton.1 hnew]
      exact le_rfl

/-- Marks, counters and balances were changed, and no row. -/
lemma Writes.hotStep_quiet (hords : ∀ c, b.orders.lookup c = a.orders.lookup c)
    (htrs : ∀ k, b.trades.lookup k = a.trades.lookup k) : HotStep a b := by
  refine ⟨[],
    ⟨h.instanceId, h.reservationEpoch.ge, h.tradeEpoch, rfl, ?_, ?_, h.tokens, ?_, ?_, ?_⟩,
    h.shardRows⟩
  · rw [h.recent, append_nil]
  · rw [h.recent]
    exact Nat.min_le_right _ _
  · intro c hsome
    rwa [hords]
  · exact fun c => .inl (hords c)
  · exact fun k => .inl (htrs k)

end

/-- An order was admitted. -/
lemma HotStep.admission (h : Reserves (a.setOrder o.clientOrderId o) b)
    (hnew : a.orders.lookup o.clientOrderId = none) (hinst : o.instanceId = a.instanceId) :
    HotStep a b.bumpReservationEpoch := by
  obtain ⟨cash, positions, rfl, htoks⟩ := h
  have hget c : (a.orders.insert o.clientOrderId o).lookup c =
      if c = o.clientOrderId then some o else a.orders.lookup c := by
    split
    · next hc => rw [hc, lookup_insert]
    · next hc => rw [lookup_insert_ne hc]
  refine ⟨[], ⟨rfl, Nat.le_succ _, rfl, rfl, ?_, Nat.min_le_right _ _, htoks, ?_, ?_, ?_⟩,
    fun hrows => ⟨fun c p hp => ?_, hrows.trade, fun k t ht hholds => ?_, hrows.hint⟩⟩
  · rw [append_nil]
    exact suffix_rfl
  · intro c hsome
    show ((a.orders.insert o.clientOrderId o).lookup c).isSome
    rw [hget]
    split
    · rfl
    · exact hsome
  · intro c
    by_cases hc : c = o.clientOrderId
    · exact .inr (.inl ⟨hc ▸ hnew, Nat.lt_succ_self _⟩)
    · exact .inl ((hget c).trans (if_neg hc))
  · exact fun k => .inl rfl
  · have hp' := (hget c).symm.trans hp
    split at hp'
    · next hc =>
      cases hp'
      exact ⟨hc.symm, hinst⟩
    · exact hrows.order c p hp'
  · exact htoks _ (hrows.held k t ht hholds)

end Steps

end HexAgent.Account
