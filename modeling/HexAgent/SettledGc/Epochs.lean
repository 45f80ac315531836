import HexAgent.Account.HotSteps

/-!
# What the epochs of a shard stand for

The garbage collection of settled history asks every shard to certify that it holds no row of the
tokens of a condition. A certificate carries the reservation epoch and the trade epoch of its shard,
and before the record of the condition is removed they are compared with the shard's epochs. This
module proves what makes the comparison conclusive: an operation that leaves both epochs alone does
not bring a row of a token that the shard had no row of.

Admission, registration and backfill of an order move the reservation epoch, and a recorded trade
edge moves the trade epoch. Some edges write a trade row without moving an epoch. They are edges of
an order or of a trade that the shard holds already.
-/

namespace HexAgent.SettledGc

open Account AccountState

variable {N : Numerics} {s : AccountState}

/-- The shard has an order row or a trade row of the token. -/
def HoldsToken (a : VirtualAccount) (token : String) : Prop :=
  (∃ coid o, a.orders.lookup coid = some o ∧ o.tokenId = token) ∨
    ∃ key t, a.trades.lookup key = some t ∧ t.ownership.tokenId = token

/-- Epochs do not go back, and a token that the shard did not hold comes with a new epoch. -/
structure EpochGuarded (a b : VirtualAccount) : Prop where
  reservationEpoch : a.reservationEpoch ≤ b.reservationEpoch
  tradeEpoch : a.tradeEpoch ≤ b.tradeEpoch
  holds : b.reservationEpoch = a.reservationEpoch → b.tradeEpoch = a.tradeEpoch →
    ∀ token, HoldsToken b token → HoldsToken a token
  rows : a.ShardRows → b.ShardRows

namespace EpochGuarded

variable {a b : VirtualAccount} {e : TradeEdge}

lemma refl (a : VirtualAccount) : EpochGuarded a a :=
  ⟨le_rfl, le_rfl, fun _ _ _ h => h, id⟩

/-- Journalled work that moves no epoch has changed no row. -/
lemma of_hotStep (h : HotStep a b) : EpochGuarded a b := by
  obtain ⟨hints, hwork, hrows⟩ := h
  refine ⟨hwork.reservationEpoch, ?_, fun hres htr token hheld => ?_, hrows⟩
  · rw [hwork.tradeEpoch]
    exact Nat.le_add_right _ _
  have hhints : hints = [] := by
    have hlen := hwork.tradeEpoch
    exact List.length_eq_zero_iff.1 (by omega)
  subst hhints
  -- Without hints and without an admission every row is untouched.
  have hords coid : b.orders.lookup coid = a.orders.lookup coid := by
    rcases hwork.order coid with hsame | ⟨-, hmoved⟩ | ⟨hint, hmem, -⟩
    · exact hsame
    · omega
    · cases hmem
  have htrs key : b.trades.lookup key = a.trades.lookup key := by
    rcases hwork.trade key with hsame | ⟨hint, hmem, -⟩
    · exact hsame
    · cases hmem
  rcases hheld with ⟨coid, o, ho, htok⟩ | ⟨key, t, ht, htok⟩
  · exact .inl ⟨coid, o, (hords coid).symm.trans ho, htok⟩
  · exact .inr ⟨key, t, (htrs key).symm.trans ht, htok⟩

/-- A write for a trade or an order that is there. -/
lemma of_writes {key coid token : String} (h : Writes a b key coid token)
    (hknown : (∃ t, a.trades.lookup key = some t) ∨
      ∃ c o, a.orders.lookup c = some o ∧ o.tokenId = token) : EpochGuarded a b := by
  refine ⟨h.reservationEpoch.ge, h.tradeEpoch.ge, fun _ _ other hheld => ?_, h.shardRows⟩
  rcases hheld with ⟨c, o, ho, hne⟩ | ⟨k, t, ht, hne⟩
  · by_cases hc : c = coid
    · subst hc
      have hown := h.order
      rw [ho, Option.map_some, eq_comm, Option.map_eq_some_iff] at hown
      obtain ⟨old, hold, hsame⟩ := hown
      simp only [ownerOf, Prod.mk.injEq] at hsame
      exact .inl ⟨c, old, hold, hsame.2.2.trans hne⟩
    · exact .inl ⟨c, o, (h.orders c hc).symm.trans ho, hne⟩
  · by_cases hk : k = key
    · subst hk
      rcases h.trade with hsame | ⟨t', ht', htok, -, hold, -⟩
      · exact .inr ⟨k, t, hsame.symm.trans ht, hne⟩
      · cases ht'.symm.trans ht
        rcases hknown with ⟨old, hget⟩ | ⟨c, o, ho, ho'⟩
        · exact .inr ⟨k, old, hget, (hold old hget).trans (htok.symm.trans hne)⟩
        · exact .inl ⟨c, o, ho, ho'.trans (htok.symm.trans hne)⟩
    · exact .inr ⟨k, t, (h.trades k hk).symm.trans ht, hne⟩

lemma of_edgeOutcome {r : AccountState} (h : EdgeOutcome s e r)
    (hknown : (∃ t, s.account.trades.lookup e.tradeKey = some t) ∨
      ∃ c o, s.account.orders.lookup c = some o ∧ o.tokenId = e.tokenId) :
    EpochGuarded s.account r.account := by
  rcases h with hstep | ⟨coid, hwrs⟩
  · exact of_hotStep hstep
  · exact of_writes hwrs hknown

/-- A trade edge. -/
lemma trade (hrows : s.account.ShardRows) (e : TradeEdge) :
    EpochGuarded s.account (s.applyTradeTransition N e).2.account := by
  apply applyTradeTransition_cases (P := fun r => EpochGuarded s.account r.account)
  · exact refl _
  · intro price t hadm _
    have hget := hadm.existing_eq
    exact of_edgeOutcome (edgeOutcome_replayOwnedTrade hrows hget) (.inl ⟨t, hget⟩)
  · intro price order t hacc _
    -- Claiming the trade's route does not touch the shard.
    have houtc := edgeOutcome_advanceStatus (N := N) (s := s.claimTrade e.tradeKey)
      hrows (s.resolveCoid e) order hacc.existing_eq hacc.known.1
    exact of_edgeOutcome houtc (.inl ⟨t, hacc.existing_eq⟩)
  · intro price order prior hacc _
    exact of_edgeOutcome (edgeOutcome_settleTrade hrows hacc)
      (.inr ⟨_, order, hacc.order_eq, hacc.tokenId_eq⟩)

/-- One call of the lifecycle owner. -/
lemma step (hrows : s.account.ShardRows) (op : LifecycleOp) :
    EpochGuarded s.account (s.step N op).account := by
  by_cases htr : ∃ e, op = .trade e
  · obtain ⟨e, rfl⟩ := htr
    exact trade hrows e
  · exact of_hotStep (hotStep_of_not_trade fun e he => htr ⟨e, he⟩)

/-- Two calls after each other. -/
lemma trans {c : VirtualAccount} (h : EpochGuarded a b) (h' : EpochGuarded b c) :
    EpochGuarded a c := by
  have hres := h.reservationEpoch
  have htr := h.tradeEpoch
  have hres' := h'.reservationEpoch
  have htr' := h'.tradeEpoch
  refine ⟨by omega, by omega, fun hr ht token hheld => ?_, h'.rows ∘ h.rows⟩
  -- Epochs that end where they began have not moved in between.
  exact h.holds (by omega) (by omega) token (h'.holds (by omega) (by omega) token hheld)

lemma run (hrows : s.account.ShardRows) (ops : List LifecycleOp) :
    EpochGuarded s.account (s.run N ops).account := by
  induction ops generalizing s with
  | nil => exact .refl _
  | cons op ops ih => exact (step hrows op).trans (ih ((step hrows op).rows hrows))

end EpochGuarded

/-- Between any two points of a run the epochs are conclusive: they do not go back, and if neither
has moved, the shard holds no token that it did not hold before. -/
theorem epochs_conclusive (N : Numerics) (accountId instanceId : String) (cash : ℚ)
    (ops later : List LifecycleOp) : let s := (seeded accountId instanceId cash []).run N ops
    EpochGuarded s.account (s.run N later).account :=
  have hstart := shardRows_seeded accountId instanceId cash
  .run ((EpochGuarded.run hstart ops).rows hstart) later

end HexAgent.SettledGc
