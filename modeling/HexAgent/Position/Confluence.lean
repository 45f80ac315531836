import HexAgent.Position.Queries

/-!
# Pushes of a trade in any order

A trade is pushed several times on its way from matched to confirmed, and pushes may be repeated or
overtake each other. If all pushes of a trade have the same terms, the ledger ends with the
highest status that was pushed, and balances, quantities and volumes count the trade once, or not at
all if it failed.

The terms include the role. A push with another role is refused as a change of an invariant, so the
role has to agree for the result to be independent of the order.
-/

namespace HexAgent.Position

open List AList TradeRecord UpsertResult TradeStatus

variable (t : TradeRecord)

/-! ## One push -/

/-- A push is applied if its status ranks above the recorded one, and its sign is the change of the
live factor. -/
lemma upsertOutcome_spec (prev : Option TradeStatus) (status : TradeStatus) :
    ((upsertOutcome prev status).applied = true ↔ ∀ s ∈ prev, s.rank < status.rank) ∧
    ((upsertOutcome prev status).applied = true →
      ((upsertOutcome prev status).accumulatorSign : ℚ) =
        liveFactor (some status) - liveFactor prev) := by
  cases prev with
  | none => cases status <;> simp [upsertOutcome, add, updateOnly, liveFactor]
  | some s =>
    cases s <;> cases status <;>
      simp [upsertOutcome, UpsertResult.add, UpsertResult.updateOnly, UpsertResult.reverse,
        noop, isTerminal, rank, liveFactor]

lemma TradeStatus.rank_injective : Function.Injective rank := by
  intro a b h
  cases a <;> cases b <;> simp [rank] at h ⊢

namespace TradeRecord

variable (x : ℚ)

/-- A push without its status. -/
def terms (t : TradeRecord) : TradeRecord := { t with status := .matched, feeAttributed := true }

/-- A push that passes the checks. -/
def Valid (t : TradeRecord) : Prop :=
  isBlank t.tradeId = false ∧ isBlank t.assetId = false ∧ t.ValidAmounts ∧
    t.AcceptsFees (feeTolerance t.size)

lemma valid_terms : t.terms.Valid ↔ t.Valid := Iff.rfl

lemma Valid.of_terms {t u : TradeRecord} (h : t.Valid) (hterms : t.terms = u.terms) : u.Valid := by
  rw [← valid_terms, ← hterms]
  exact h

/-- A row is its terms and its status. -/
lemma eq_of_terms {t u : TradeRecord} (hterms : t.terms = u.terms) (hst : t.status = u.status)
    (hbound : t.feeAttributed = u.feeAttributed) : t = u := by
  cases t
  simp only [terms, mk.injEq] at hterms
  simp_all

lemma fineTolerance_nonneg : 0 ≤ fineTolerance x := le_max_of_le_left (by norm_num)

lemma sizeTolerance_nonneg : 0 ≤ sizeTolerance x := le_max_of_le_left (by norm_num)

/-- A row agrees with a push of the same terms. -/
lemma agrees_of_terms {t u : TradeRecord} (h : t.terms = u.terms) : t.Agrees u := by
  cases t
  obtain ⟨-, rfl, rfl, rfl, rfl, -, rfl, rfl, rfl, rfl, -⟩ := h
  simp [Agrees, fineTolerance_nonneg, sizeTolerance_nonneg]

end TradeRecord

namespace PositionManager

variable {m : PositionManager} {push : TradeRecord} {key : String} {status : TradeStatus}

/-- Volume of a role. -/
def volumeOf (m : PositionManager) (isMaker : Bool) :
    ℚ := if isMaker then m.makerVolume else m.takerVolume

lemma volumeOf_addVolume (isMaker role : Bool) (notional : ℚ) :
    (m.addVolume isMaker notional).volumeOf role =
      m.volumeOf role + if isMaker = role then notional else 0 := by
  cases isMaker <;> cases role <;> simp [addVolume, volumeOf]

/-- The volume that the trades of the ledger add up to. -/
def ledgerVolume (m : PositionManager) (isMaker : Bool) : ℚ :=
  m.trades.sumBy fun _ t => t.volume isMaker

lemma volume_eq (role : Bool) :
    t.volume role =
      if t.isMaker = role then t.size * t.price * liveFactor (some t.status) else 0 := by
  unfold volume liveFactor
  by_cases hf : t.status = .failed <;> by_cases hr : t.isMaker = role <;> simp [hf, hr]

/-- A push that repeats the notional of the recorded trade moves the stored volume as the ledger
does. -/
lemma volume_upsertTrade
    (hex : ∀ row ∈ m.trades.lookup push.tradeId, row.size * row.price = push.size * push.price)
    (role : Bool) :
    (m.upsertTrade push).1.volumeOf role - (m.upsertTrade push).1.ledgerVolume role =
      m.volumeOf role - m.ledgerVolume role := by
  rcases m.upsertTrade_cases with hsame | ⟨t, previous, hbooks⟩
  · rw [hsame]
  rw [hbooks.eq]
  have hsign := (upsertOutcome_spec previous push.status).2 hbooks.applied
  have hstored : (m.writeTrade push.tradeId t previous).volumeOf role = m.volumeOf role := rfl
  rw [volumeOf_addVolume, ledgerVolume, trades_written, sumBy_insert, hstored, ledgerVolume, hsign]
  -- Both sides change by the notional times the change of the live factor.
  have hrow : t.volume role - m.trades.valueAt (fun _ t => t.volume role) push.tradeId =
      if push.isMaker = role then
        push.size * push.price * (liveFactor (some push.status) - liveFactor previous) else 0 := by
    rw [volume_eq, hbooks.status]
    cases hbooks.advances with
    | first hnone hbound =>
      rw [valueAt_of_lookup_none hnone, hbooks.first hnone]
      by_cases hr : push.isMaker = role <;> simp [hr, liveFactor]
    | known row hrow ht =>
      have hmaker : row.isMaker = push.isMaker := (hbooks.agrees row hrow).2.2.1
      rw [valueAt_of_lookup hrow, volume_eq, ht, hmaker, hex row hrow]
      by_cases hr : push.isMaker = role
      · simp only [hr, if_true]
        ring
      · simp [hr]
  linarith [hrow]

/-! ## The rows after one push -/

/-- The row that a push of the same terms leaves. -/
def mergedRow (row : Option TradeRecord) (push : TradeRecord) : TradeRecord :=
  match row with
  | none => { push with feeAttributed := true }
  | some row =>
    if row.status.rank < push.status.rank then { row with status := push.status } else row

lemma lookup_upsertTrade (hval : push.Valid)
    (hterms : ∀ row ∈ m.trades.lookup push.tradeId, row.terms = push.terms) (key : String) :
    (m.upsertTrade push).1.trades.lookup key =
      if key = push.tradeId then some (mergedRow (m.trades.lookup push.tradeId) push)
      else m.trades.lookup key := by
  have happl := (upsertOutcome_spec ((m.trades.lookup push.tradeId).map (·.status)) push.status).1
  have hchecks : ¬(isBlank push.tradeId ∨ isBlank push.assetId ∨ ¬push.ValidAmounts ∨
      ¬push.AcceptsFees (feeTolerance push.size)) := by
    obtain ⟨hid, hasset, hamounts, hfees⟩ := hval
    simp [hid, hasset, hamounts, hfees]
  have hagr : ¬∃ row ∈ m.trades.lookup push.tradeId, ¬row.Agrees push := by
    rintro ⟨row, hrow, hnot⟩
    exact hnot (agrees_of_terms (hterms row hrow))
  unfold upsertTrade
  rw [if_neg hchecks]
  dsimp only
  rw [if_neg hagr]
  split
  · next hnoop =>
    -- The recorded status ranks at least as high, so the row stays.
    split
    · next hkey =>
      subst hkey
      cases hrow : m.trades.lookup push.tradeId with
      | none =>
        rw [hrow] at happl hnoop
        exact absurd (happl.2 (by simp)) hnoop
      | some row =>
        rw [hrow] at happl hnoop
        rw [mergedRow, if_neg]
        intro hrank
        exact hnoop (happl.2 (by simpa using hrank))
    · rfl
  next happ =>
  rw [not_not, happl] at happ
  rw [trades_written]
  by_cases hkey : key = push.tradeId
  · rw [if_pos hkey, hkey, lookup_insert]
    cases hrow : m.trades.lookup push.tradeId with
    | none => rfl
    | some row =>
      rw [hrow] at happ
      rw [mergedRow, if_pos (happ row.status rfl)]
      rfl
  · rw [if_neg hkey, lookup_insert_ne hkey]

lemma upsertTrade_of_not_valid (h : ¬push.Valid) : m.upsertTrade push = (m, .noop) := by
  rcases m.upsertTrade_cases with hsame | ⟨t, previous, hbooks⟩
  · exact hsame
  · exact absurd ⟨hbooks.tradeId, hbooks.assetId, hbooks.amounts, hbooks.fees⟩ h

/-! ## Sequences of pushes -/

/-- Push one after the other. -/
def upsertAll (m : PositionManager) (pushes : List TradeRecord) : PositionManager :=
  pushes.foldl (fun m push => (m.upsertTrade push).1) m

lemma upsertAll_concat (m : PositionManager) (pushes : List TradeRecord) (push : TradeRecord) :
    m.upsertAll (pushes ++ [push]) = ((m.upsertAll pushes).upsertTrade push).1 := by
  rw [upsertAll, foldl_append]
  rfl

/-- Pushes of one trade have the same terms. -/
def Coherent (pushes : List TradeRecord) : Prop :=
  ∀ p ∈ pushes, ∀ q ∈ pushes, p.tradeId = q.tradeId → p.terms = q.terms

/-- The highest status that was pushed for a trade. -/
def Highest (pushes : List TradeRecord) (key : String) (status : TradeStatus) : Prop :=
  (∃ q ∈ pushes, q.tradeId = key ∧ q.status = status) ∧
    ∀ q ∈ pushes, q.tradeId = key → q.status.rank ≤ status.rank

variable {pushes : List TradeRecord}

lemma Highest.unique {s s' : TradeStatus} (h : Highest pushes key s) (h' : Highest pushes key s') :
    s = s' := by
  obtain ⟨⟨q, hq, hkey, rfl⟩, hmax⟩ := h
  obtain ⟨⟨q', hq', hkey', rfl⟩, hmax'⟩ := h'
  exact rank_injective (le_antisymm (hmax' q hq hkey) (hmax q' hq' hkey'))

variable {pushes' : List TradeRecord}

lemma Highest.congr (h : Highest pushes key status) (hsame : ∀ p, p ∈ pushes ↔ p ∈ pushes') :
    Highest pushes' key status := by
  obtain ⟨⟨q, hq, hkey, hst⟩, hmax⟩ := h
  exact ⟨⟨q, (hsame q).1 hq, hkey, hst⟩, fun p hp => hmax p ((hsame p).2 hp)⟩

lemma Highest.concat (h : Highest pushes key status)
    (hle : push.tradeId = key → push.status.rank ≤ status.rank) :
    Highest (pushes ++ [push]) key status := by
  obtain ⟨⟨q, hq, hkey, hst⟩, hmax⟩ := h
  refine ⟨⟨q, mem_append_left _ hq, hkey, hst⟩, fun r hr hrkey => ?_⟩
  rcases mem_append.1 hr with hr | hr
  · exact hmax r hr hrkey
  · rw [mem_singleton.1 hr] at hrkey ⊢
    exact hle hrkey

lemma highest_concat_self
    (hmax : ∀ q ∈ pushes, q.tradeId = push.tradeId → q.status.rank ≤ push.status.rank) :
    Highest (pushes ++ [push]) push.tradeId push.status := by
  refine ⟨⟨push, mem_append_right _ (mem_singleton_self push), rfl, rfl⟩, ?_⟩
  intro r hr hrkey
  rcases mem_append.1 hr with hr | hr
  · exact hmax r hr hrkey
  · rw [mem_singleton.1 hr]

/-- What the ledger holds after a set of pushes: the terms and the highest status of every valid
trade that was pushed, and the rows from before for all others. -/
structure Recorded (start : PositionManager) (pushes : List TradeRecord) (m : PositionManager) :
    Prop where
  pushed : ∀ p ∈ pushes, p.Valid → ∃ row, m.trades.lookup p.tradeId = some row ∧
    row.terms = p.terms ∧ row.feeAttributed = true ∧ Highest pushes p.tradeId row.status
  other : ∀ key, (∀ p ∈ pushes, p.tradeId = key → ¬p.Valid) →
    m.trades.lookup key = start.trades.lookup key

section Concat

variable {start : PositionManager} (h : Recorded start pushes m)
  (hcoherent : Coherent (pushes ++ [push])) (hfresh : start.trades.lookup push.tradeId = none)

include h hcoherent hfresh

omit hfresh in
/-- A trade that was pushed before has a row with the terms of its next push. -/
lemma Recorded.exists_row (hval : push.Valid) {p : TradeRecord} (hp : p ∈ pushes)
    (hkey : p.tradeId = push.tradeId) : ∃ row, m.trades.lookup push.tradeId = some row ∧
      row.terms = push.terms ∧ row.feeAttributed = true ∧
      Highest pushes push.tradeId row.status := by
  have hsame : p.terms = push.terms := hcoherent p (mem_append_left _ hp) push (by simp) hkey
  rw [← hkey, ← hsame]
  exact h.pushed p hp (hval.of_terms hsame.symm)

/-- A recorded trade has the terms of its next push. -/
lemma Recorded.terms_eq (hval : push.Valid) {row : TradeRecord}
    (hrow : m.trades.lookup push.tradeId = some row) :
    row.terms = push.terms ∧ row.feeAttributed = true ∧ Highest pushes push.tradeId row.status := by
  by_cases hpushed : ∃ p ∈ pushes, p.tradeId = push.tradeId
  · obtain ⟨p, hp, hkey⟩ := hpushed
    obtain ⟨row', hrow', hterms⟩ := h.exists_row hcoherent hval hp hkey
    cases hrow.symm.trans hrow'
    exact hterms
  · rw [h.other push.tradeId fun p hp hkey => absurd ⟨p, hp, hkey⟩ hpushed, hfresh] at hrow
    cases hrow

/-- The row that a push leaves. -/
lemma Recorded.mergedRow (hval : push.Valid) :
    (mergedRow (m.trades.lookup push.tradeId) push).terms = push.terms ∧
      (mergedRow (m.trades.lookup push.tradeId) push).feeAttributed = true ∧
      Highest (pushes ++ [push]) push.tradeId
        (mergedRow (m.trades.lookup push.tradeId) push).status := by
  cases hrow : m.trades.lookup push.tradeId with
  | none =>
    refine ⟨rfl, rfl, highest_concat_self fun q hq hkey => ?_⟩
    -- A push before this one would have left a row.
    obtain ⟨row, hrow', -⟩ := h.exists_row hcoherent hval hq hkey
    cases hrow.symm.trans hrow'
  | some row =>
    obtain ⟨hterms, hbound, hhigh⟩ := h.terms_eq hcoherent hfresh hval hrow
    rw [PositionManager.mergedRow]
    split
    · next hrank =>
      exact ⟨hterms, hbound, highest_concat_self fun q hq hkey =>
        (hhigh.2 q hq hkey).trans hrank.le⟩
    · next hrank => exact ⟨hterms, hbound, hhigh.concat fun _ => not_lt.1 hrank⟩

lemma Recorded.concat : Recorded start (pushes ++ [push]) (m.upsertTrade push).1 := by
  have hlast : push ∈ pushes ++ [push] := mem_append_right _ (mem_singleton_self push)
  -- Another trade keeps its row.
  have hold {p : TradeRecord} (hp : p ∈ pushes ++ [push]) (hpvalid : p.Valid)
      (hne : push.tradeId ≠ p.tradeId) : ∃ row, m.trades.lookup p.tradeId = some row ∧
        row.terms = p.terms ∧ row.feeAttributed = true ∧
        Highest (pushes ++ [push]) p.tradeId row.status := by
    rcases mem_append.1 hp with hp | hp
    · obtain ⟨row, hrow, hterms, hbound, hhigh⟩ := h.pushed p hp hpvalid
      exact ⟨row, hrow, hterms, hbound, hhigh.concat fun heq => absurd heq hne⟩
    · exact absurd (by rw [mem_singleton.1 hp]) hne
  by_cases hval : push.Valid
  · have hget := lookup_upsertTrade hval fun row hrow =>
      (h.terms_eq hcoherent hfresh hval hrow).1
    have hmerged := h.mergedRow hcoherent hfresh hval
    constructor
    · intro p hp hpvalid
      rw [hget]
      by_cases hkey : p.tradeId = push.tradeId
      · rw [if_pos hkey, hkey]
        exact ⟨_, rfl, hmerged.1.trans (hcoherent p hp push hlast hkey).symm, hmerged.2⟩
      · rw [if_neg hkey]
        exact hold hp hpvalid (Ne.symm hkey)
    · intro key hkey
      have hne : key ≠ push.tradeId := fun heq => hkey push hlast heq.symm hval
      rw [hget, if_neg hne]
      exact h.other key fun p hp => hkey p (mem_append_left _ hp)
  · rw [upsertTrade_of_not_valid hval]
    constructor
    · intro p hp hpvalid
      have hne : push.tradeId ≠ p.tradeId := fun heq =>
        hval (hpvalid.of_terms (hcoherent p hp push hlast heq.symm))
      exact hold hp hpvalid hne
    · exact fun key hkey => h.other key fun p hp => hkey p (mem_append_left _ hp)

end Concat

/-- The pushed trades are new to the manager. -/
def Fresh (m : PositionManager) (pushes : List TradeRecord) : Prop :=
  ∀ p ∈ pushes, m.trades.lookup p.tradeId = none

lemma Coherent.init (h : Coherent (pushes ++ [push])) : Coherent pushes := fun p hp q hq =>
  h p (mem_append_left _ hp) q (mem_append_left _ hq)

lemma recorded_upsertAll (hcoherent : Coherent pushes)
    (hfresh : m.Fresh pushes) : Recorded m pushes (m.upsertAll pushes) := by
  induction pushes using reverseRecOn with
  | nil => exact ⟨fun p hp => absurd hp not_mem_nil, fun _ _ => rfl⟩
  | append_singleton pushes push ih =>
    rw [upsertAll_concat]
    exact (ih hcoherent.init fun p hp => hfresh p (mem_append_left _ hp)).concat hcoherent
      (hfresh push (by simp))

/-- Stored volumes move with the ledger. -/
lemma volume_upsertAll (hcoherent : Coherent pushes) (hfresh : m.Fresh pushes) (role : Bool) :
    (m.upsertAll pushes).volumeOf role - (m.upsertAll pushes).ledgerVolume role =
      m.volumeOf role - m.ledgerVolume role := by
  induction pushes using reverseRecOn with
  | nil => rfl
  | append_singleton pushes push ih =>
    have hfresh' : m.Fresh pushes := fun p hp => hfresh p (mem_append_left _ hp)
    have hrec := recorded_upsertAll hcoherent.init hfresh'
    rw [upsertAll_concat, ← ih hcoherent.init hfresh']
    by_cases hval : push.Valid
    · refine volume_upsertTrade (fun row hrow => ?_) role
      have hterms := (hrec.terms_eq hcoherent (hfresh push (by simp)) hval hrow).1
      have hsize : row.terms.size = push.terms.size := by rw [hterms]
      have hprice : row.terms.price = push.terms.price := by rw [hterms]
      exact congrArg₂ (· * ·) hsize hprice
    · rw [upsertTrade_of_not_valid hval]

/-! ## Balances, quantities and volumes -/

/-- A push leaves the initial balances and the open orders alone. -/
lemma upsertTrade_frame : (m.upsertTrade push).1.initBalance = m.initBalance ∧
      (m.upsertTrade push).1.initPositions = m.initPositions ∧
      (m.upsertTrade push).1.pendingOrders = m.pendingOrders := by
  rcases m.upsertTrade_cases with hsame | ⟨t, previous, hbooks⟩
  · rw [hsame]
    exact ⟨rfl, rfl, rfl⟩
  · rw [hbooks.eq]
    unfold addVolume
    split <;> exact ⟨rfl, rfl, rfl⟩

lemma upsertAll_frame (m : PositionManager) (pushes : List TradeRecord) :
    (m.upsertAll pushes).initBalance = m.initBalance ∧
      (m.upsertAll pushes).initPositions = m.initPositions ∧
      (m.upsertAll pushes).pendingOrders = m.pendingOrders := by
  induction pushes generalizing m with
  | nil => exact ⟨rfl, rfl, rfl⟩
  | cons push pushes ih =>
    obtain ⟨hbal, hposs, hpend⟩ := ih (m.upsertTrade push).1
    obtain ⟨hbal', hposs', hpend'⟩ := m.upsertTrade_frame
    exact ⟨hbal.trans hbal', hposs.trans hposs', hpend.trans hpend'⟩

lemma Sound.upsertAll (h : m.Sound) (pushes : List TradeRecord) : (m.upsertAll pushes).Sound :=
  foldlRecOn pushes _ h fun _ ht push _ => ht.upsertTrade push

/-- The trades of a list of pushes, each once. -/
def pushedIds (pushes : List TradeRecord) : List String := (pushes.map (·.tradeId)).dedup

/-- Sum of an amount over the pushed trades that did not fail. -/
def booked (n : PositionManager) (pushes : List TradeRecord) (f : TradeRecord → ℚ) : ℚ :=
  ((pushedIds pushes).map fun key =>
    (n.trades.lookup key).elim 0 fun row => if row.status = .failed then 0 else f row).sum

section Result

variable (hcoherent : Coherent pushes) (hfresh : m.Fresh pushes)

include hcoherent hfresh

/-- Sums over the ledger grow by the amounts of the pushed trades that did not fail. -/
lemma sumBy_upsertAll {f g : TradeRecord → ℚ}
    (hfg : ∀ row, f row = if row.status = .failed then 0 else g row) :
    ((m.upsertAll pushes).trades.sumBy fun _ t => f t) =
      (m.trades.sumBy fun _ t => f t) + (m.upsertAll pushes).booked pushes g := by
  have hrec := recorded_upsertAll hcoherent hfresh
  have hsub := sumBy_sub_eq_sum (m := (m.upsertAll pushes).trades) (n := m.trades)
    (fun _ t => f t) (nodup_dedup (pushes.map (·.tradeId))) fun key hkey =>
      hrec.other key fun p hp heq => absurd (by
        rw [mem_dedup, mem_map]
        exact ⟨p, hp, heq⟩) hkey
  -- The pushed trades were not in the ledger before.
  have hrow : ∀ key ∈ pushedIds pushes,
      (m.upsertAll pushes).trades.valueAt (fun _ t => f t) key -
        m.trades.valueAt (fun _ t => f t) key = ((m.upsertAll pushes).trades.lookup key).elim 0
          fun row => if row.status = .failed then 0 else g row := by
    intro key hkey
    obtain ⟨p, hp, rfl⟩ := mem_map.1 (mem_dedup.1 hkey)
    rw [valueAt_of_lookup_none (hfresh p hp), sub_zero, valueAt, funext hfg]
  rw [← pushedIds, map_congr_left hrow] at hsub
  exact sub_eq_iff_eq_add'.1 hsub

lemma total_upsertAll {μ : Meter} (hord : ∀ o, μ.order o = 0) {g : TradeRecord → ℚ}
    (hg : ∀ row, μ.trade row (some row.status) = if row.status = .failed then 0 else g row) :
    (m.upsertAll pushes).total μ = m.total μ + (m.upsertAll pushes).booked pushes g := by
  rw [total_trades hord, total_trades hord]
  exact sumBy_upsertAll hcoherent hfresh hg

lemma balance_upsertAll (hm : m.Sound) :
    (m.upsertAll pushes).balance =
      m.balance + (m.upsertAll pushes).booked pushes cash := by
  have htot := total_upsertAll hcoherent hfresh (μ := .cash) (fun _ => rfl) (g := cash)
    fun row => by by_cases hf : row.status = .failed <;> simp [Meter.trade, liveFactor, hf]
  rw [(hm.upsertAll pushes).balance_eq, hm.balance_eq, balance_plain, balance_plain,
    (upsertAll_frame m pushes).1, htot, add_assoc]

lemma getQuantity_upsertAll (hm : m.Sound) (sym : String) :
    (m.upsertAll pushes).getQuantity sym = m.getQuantity sym +
      (m.upsertAll pushes).booked pushes
        fun row => if row.assetId = sym then row.quantity else 0 := by
  have htot := total_upsertAll hcoherent hfresh (μ := .quantity sym) (fun _ => rfl)
    (g := fun row => if row.assetId = sym then row.quantity else 0)
    fun row => by by_cases hf : row.status = .failed <;> simp [Meter.trade, liveFactor, hf]
  rw [(hm.upsertAll pushes).getQuantity_eq, hm.getQuantity_eq, getQuantity_plain,
    getQuantity_plain, initialQuantity, (upsertAll_frame m pushes).2.1, ← initialQuantity, htot,
    add_assoc]

lemma volumeOf_upsertAll (role : Bool) :
    (m.upsertAll pushes).volumeOf role = m.volumeOf role +
      (m.upsertAll pushes).booked pushes
        fun row => if row.isMaker = role then row.size * row.price else 0 := by
  have hvol := volume_upsertAll hcoherent hfresh role
  have hled : (m.upsertAll pushes).ledgerVolume role = m.ledgerVolume role + _ :=
    sumBy_upsertAll hcoherent hfresh (f := volume role)
      (g := fun row => if row.isMaker = role then row.size * row.price else 0) fun row => by
        by_cases hf : row.status = .failed <;> simp [volume, hf]
  linarith [hvol, hled]

omit hcoherent hfresh in
lemma Coherent.congr (hcoherent : Coherent pushes)
    (hsame : ∀ p, p ∈ pushes ↔ p ∈ pushes') : Coherent pushes' := fun p hp q hq =>
  hcoherent p ((hsame p).2 hp) q ((hsame q).2 hq)

/-- The rows after the pushes depend on the set of pushes only. -/
lemma lookup_upsertAll_congr (hsame : ∀ p, p ∈ pushes ↔ p ∈ pushes') (key : String) :
    (m.upsertAll pushes).trades.lookup key = (m.upsertAll pushes').trades.lookup key := by
  have hrec := recorded_upsertAll hcoherent hfresh
  have hrec' := recorded_upsertAll (hcoherent.congr hsame) fun p hp => hfresh p ((hsame p).2 hp)
  by_cases hpushed : ∃ p ∈ pushes, p.tradeId = key ∧ p.Valid
  · obtain ⟨p, hp, rfl, hval⟩ := hpushed
    obtain ⟨row, hrow, hterms, hbound, hhigh⟩ := hrec.pushed p hp hval
    obtain ⟨row', hrow', hterms', hbound', hhigh'⟩ :=
      hrec'.pushed p ((hsame p).1 hp) hval
    rw [hrow, hrow', eq_of_terms (hterms.trans hterms'.symm)
      ((hhigh.congr hsame).unique hhigh') (hbound.trans hbound'.symm)]
  · rw [hrec.other key fun p hp hkey hval => hpushed ⟨p, hp, hkey, hval⟩,
      hrec'.other key fun p hp hkey hval => hpushed ⟨p, (hsame p).2 hp, hkey, hval⟩]

/-- The same pushes in another order or number give the same ledger, balances, quantities and
volumes. -/
lemma upsertAll_congr (hm : m.Sound) (hsame : ∀ p, p ∈ pushes ↔ p ∈ pushes') :
    (∀ key, (m.upsertAll pushes).trades.lookup key = (m.upsertAll pushes').trades.lookup key) ∧
      (m.upsertAll pushes).balance = (m.upsertAll pushes').balance ∧
      (∀ sym, (m.upsertAll pushes).getQuantity sym = (m.upsertAll pushes').getQuantity sym) ∧
      ∀ role, (m.upsertAll pushes).volumeOf role = (m.upsertAll pushes').volumeOf role := by
  have hget := lookup_upsertAll_congr hcoherent hfresh hsame
  have hsound := hm.upsertAll pushes
  have hsound' := hm.upsertAll pushes'
  obtain ⟨hbal, hposs, hpend⟩ := upsertAll_frame m pushes
  obtain ⟨hbal', hposs', hpend'⟩ := upsertAll_frame m pushes'
  have htot μ : (m.upsertAll pushes).total μ = (m.upsertAll pushes').total μ := by
    rw [total, total, sumBy_of_lookup_eq _ hget, hpend, hpend']
  refine ⟨hget, ?_, fun sym => ?_, fun role => ?_⟩
  · rw [hsound.balance_eq, hsound'.balance_eq, balance_plain, balance_plain, hbal, hbal', htot]
  · rw [hsound.getQuantity_eq, hsound'.getQuantity_eq, getQuantity_plain, getQuantity_plain,
      initialQuantity, initialQuantity, hposs, hposs', htot]
  · have hvol := volume_upsertAll hcoherent hfresh role
    have hvol' := volume_upsertAll (hcoherent.congr hsame)
      (fun p hp => hfresh p ((hsame p).2 hp)) role
    have hled : (m.upsertAll pushes).ledgerVolume role = (m.upsertAll pushes').ledgerVolume role :=
      sumBy_of_lookup_eq _ hget
    linarith [hvol, hvol', hled]

end Result

/-- Pushes of new trades with agreeing terms: every valid trade is recorded with the highest status
that was pushed for it, balances, quantities and volumes move by one application of every trade that
did not fail, and all of this is the same for every list of the same pushes. -/
theorem upsertTrade_confluent (m : PositionManager) (hm : m.Sound) (pushes : List TradeRecord)
    (hcoherent : Coherent pushes) (hfresh : m.Fresh pushes) : let n := m.upsertAll pushes
    (∀ p ∈ pushes, p.Valid → ∃ row, n.trades.lookup p.tradeId = some row ∧ row.terms = p.terms ∧
      Highest pushes p.tradeId row.status) ∧
    (∀ p ∈ pushes, ¬p.Valid → n.trades.lookup p.tradeId = none) ∧
    n.balance = m.balance + n.booked pushes cash ∧
    (∀ symbol, n.getQuantity symbol = m.getQuantity symbol +
      n.booked pushes fun row => if row.assetId = symbol then row.quantity else 0) ∧
    (∀ role, n.volumeOf role = m.volumeOf role +
      n.booked pushes fun row => if row.isMaker = role then row.size * row.price else 0) ∧
    ∀ pushes', (∀ p, p ∈ pushes ↔ p ∈ pushes') →
      (∀ key, n.trades.lookup key = (m.upsertAll pushes').trades.lookup key) ∧
      n.balance = (m.upsertAll pushes').balance ∧
      (∀ symbol, n.getQuantity symbol = (m.upsertAll pushes').getQuantity symbol) ∧
      ∀ role, n.volumeOf role = (m.upsertAll pushes').volumeOf role := by
  intro n
  have hrec := recorded_upsertAll hcoherent hfresh
  refine ⟨fun p hp hval => ?_, fun p hp hval => ?_, balance_upsertAll hcoherent hfresh hm,
    getQuantity_upsertAll hcoherent hfresh hm, volumeOf_upsertAll hcoherent hfresh,
    fun pushes' hsame => upsertAll_congr hcoherent hfresh hm hsame⟩
  · obtain ⟨row, hrow, hterms, -, hhigh⟩ := hrec.pushed p hp hval
    exact ⟨row, hrow, hterms, hhigh⟩
  · rw [hrec.other p.tradeId fun q hq hkey hqvalid =>
      hval (hqvalid.of_terms (hcoherent q hq p hp hkey))]
    exact hfresh p hp

/-- A push of a buy of two tokens. -/
def samplePush (status : TradeStatus) (isMaker : Bool) : TradeRecord :=
  ⟨"t1", "UP", .buy, 2, 1 / 2, status, isMaker, 0, 0, .legacyV1, true⟩

/-- A trade that fails and is confirmed after all, pushed out of order. -/
theorem upsertTrade_confluent_retried :
    let pushes := [samplePush .failed false, samplePush .matched false, samplePush .confirmed false]
    (new.upsertAll pushes).balance = -1 ∧
      (new.upsertAll pushes).balance = (new.upsertAll pushes.reverse).balance := by
  have hconf := upsertTrade_confluent new (Started.sound .new)
    [samplePush .failed false, samplePush .matched false, samplePush .confirmed false]
    (by unfold Coherent; decide +kernel) (fun p _ => rfl)
  refine ⟨by decide +kernel, ?_⟩
  exact (hconf.2.2.2.2.2 _ fun p => mem_reverse.symm).2.1

/-- Two pushes of a trade that differ in the role: the first one wins, so the highest status is not
recorded and the result depends on the order. -/
theorem role_change_is_refused : let matched := samplePush .matched true
    let confirmed := samplePush .confirmed false
    ((new.upsertAll [matched, confirmed]).trades.lookup "t1").map (·.status) = some .matched ∧
      ((new.upsertAll [confirmed, matched]).trades.lookup "t1").map (·.status) = some .confirmed ∧
      (new.upsertAll [matched, confirmed]).makerVolume = 1 ∧
      (new.upsertAll [confirmed, matched]).makerVolume = 0 := by
  decide +kernel

end PositionManager

end HexAgent.Position
