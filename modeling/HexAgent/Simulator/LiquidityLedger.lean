import HexAgent.Simulator.BookSet
import Mathlib.Tactic.Linarith
import Mathlib.Algebra.Order.Round

/-!
# Counterfactual liquidity is consumed once

A price level of the ledger is a raw quantity and a debt. Snapshots, consumption and the protection
of the debt act on it by `LevelOk.snapshot`, `LevelOk.consume` and `LevelOk.protect`, whose
potential is the quantity consumed so far plus what is still available; only an increase of the raw
quantity raises it.

The protection lets the debt exceed the raw quantity until the next snapshot of its token, also when
something is consumed in between; a negative public quantity would release debt that is then
consumed again (`debt_exceeds_raw`).
-/

namespace HexAgent.Simulator

open List TokenBook

open LocalBooks (PriceLevel)

variable {levels : List PriceLevel}

/-! ## One level -/

/-- A level: what has been consumed and what is available is covered by the increases so far. -/
structure LevelOk (raw debt consumed increases : ℚ) (settled : Bool) : Prop where
  nonneg : 0 ≤ debt
  covered : settled = true → debt ≤ max raw 0
  bound : consumed + max (raw - debt) 0 ≤ increases

namespace LevelOk

variable {raw debt debt' consumed increases : ℚ} {settled : Bool}

variable (h : LevelOk raw debt consumed increases settled)
include h

lemma consume (hle : debt ≤ debt') (hmax : debt' ≤ max debt raw) :
    LevelOk raw debt' (consumed + (debt' - debt)) increases settled := by
  refine ⟨h.nonneg.trans hle, fun hsett => ?_, ?_⟩
  · exact hmax.trans (max_le (h.covered hsett) (le_max_left _ _))
  · have hbound := h.bound
    rcases le_max_iff.1 hmax with hsame | hraw
    · rw [le_antisymm hsame hle, sub_self, add_zero]
      exact hbound
    · rw [max_eq_left (by linarith)] at hbound ⊢
      linarith

lemma protect (hle : debt ≤ debt') : LevelOk raw debt' consumed increases false := by
  refine ⟨h.nonneg.trans hle, nofun, le_trans ?_ h.bound⟩
  gcongr

lemma snapshot (new : ℚ) :
    LevelOk new (reconcileDebt debt raw new) consumed (increases + max (new - raw) 0) true := by
  refine ⟨le_min (le_max_right _ _) (le_max_right _ _), fun _ => min_le_right _ _, ?_⟩
  have hpre := le_max_left (raw - debt) 0
  have hrise := le_max_right (new - raw) 0
  have hdrop : max (raw - new) 0 ≤ raw - new + max (new - raw) 0 :=
    max_le (by linarith) (by linarith [le_max_left (new - raw) 0])
  have havailable :
      max (new - reconcileDebt debt raw new) 0 ≤ max (raw - debt) 0 + max (new - raw) 0 := by
    refine max_le (sub_le_comm.1 (le_min ?_ ?_)) (add_nonneg (le_max_right _ _) hrise)
    · exact le_trans (by linarith) (le_max_left _ _)
    · exact le_trans (by linarith [le_max_right (raw - debt) 0]) (le_max_left _ _)
  linarith [h.bound]

end LevelOk

/-! ## Levels of a side -/

/-- The quantity at a price. -/
def levelQty (levels : List PriceLevel) (p : ℚ) : ℚ :=
  ((levels.filter (·.price = p)).map (·.quantity)).sum

/-- The price is a tick of the grid. -/
def IsTick (grid p : ℚ) : Prop := ∃ k : ℤ, p = k * grid

/-- Levels at distinct price ticks. -/
structure OnTicks (grid : ℚ) (levels : List PriceLevel) : Prop where
  ticks : ∀ p ∈ levels.map (·.price), IsTick grid p
  distinct : (levels.map (·.price)).Nodup

variable {grid p q : ℚ} {debt old new raw : List PriceLevel} {left : ℚ}

@[simp] lemma levelQty_nil : levelQty [] p = 0 := rfl

lemma levelQty_cons (l : PriceLevel) (levels : List PriceLevel) :
    levelQty (l :: levels) p = (if l.price = p then l.quantity else 0) + levelQty levels p := by
  by_cases h : l.price = p <;> simp [levelQty, h]

lemma levelQty_append (levels more : List PriceLevel) :
    levelQty (levels ++ more) p = levelQty levels p + levelQty more p := by
  simp [levelQty]

lemma levelQty_eq_zero (h : p ∉ levels.map (·.price)) : levelQty levels p = 0 := by
  have hnone : levels.filter (·.price = p) = [] := by
    refine filter_eq_nil_iff.2 fun l hl hp => h ?_
    exact mem_map.2 ⟨l, hl, of_decide_eq_true hp⟩
  simp [levelQty, hnone]

lemma OnTicks.tail {l : PriceLevel} (h : OnTicks grid (l :: levels)) :
    IsTick grid l.price ∧ l.price ∉ levels.map (·.price) ∧ OnTicks grid levels := by
  obtain ⟨hnot, hdist⟩ := nodup_cons.1 h.distinct
  exact ⟨h.ticks _ (.head _), hnot, fun p hp => h.ticks p (.tail _ hp), hdist⟩

lemma OnTicks.of_sublist (h : OnTicks grid old)
    (hsub : (new.map (·.price)).Sublist (old.map (·.price))) : OnTicks grid new :=
  ⟨fun p hp => h.ticks p (hsub.subset hp), h.distinct.sublist hsub⟩

lemma samePrice_self {p : ℚ} : samePrice p p = true := by
  simp [samePrice, tolerance]

/-- New levels start without debt. -/
lemma levelQty_push (hnew : ∀ l ∈ new, IsTick grid l.price) (hdebt : OnTicks grid debt) :
    let pushed := new.foldl (fun debt level =>
      if debt.any fun l => samePrice l.price level.price then debt
      else debt ++ [{ level with quantity := 0 }]) debt
    OnTicks grid pushed ∧ ∀ p, levelQty pushed p = levelQty debt p := by
  induction new generalizing debt with
  | nil => exact ⟨hdebt, fun _ => rfl⟩
  | cons level new ih =>
    obtain ⟨hlev, hnew⟩ := forall_mem_cons.1 hnew
    dsimp only
    rw [foldl_cons]
    split
    · exact ih hnew hdebt
    next hfresh =>
    have hnot : level.price ∉ debt.map (·.price) := by
      intro hmem
      obtain ⟨l, hl, hprice⟩ := mem_map.1 hmem
      exact hfresh (any_eq_true.2 ⟨l, hl, hprice ▸ samePrice_self⟩)
    have hpushed : OnTicks grid (debt ++ [{ level with quantity := 0 }]) := by
      refine ⟨fun p hp => ?_, ?_⟩
      · rw [map_append] at hp
        rcases mem_append.1 hp with hp | hp
        · exact hdebt.ticks p hp
        · exact mem_singleton.1 hp ▸ hlev
      · rw [map_append]
        exact concat_eq_append ▸ hdebt.distinct.concat hnot
    obtain ⟨hticks, hqty⟩ := ih hnew hpushed
    refine ⟨hticks, fun p => ?_⟩
    rw [hqty, levelQty_append, levelQty_cons, ite_self, levelQty_nil, add_zero, add_zero]

lemma map_price_consumeRawLevel {want : ℤ} {tick : ℚ} :
    (consumeRawLevel raw want tick debt left).1.map (·.price) = debt.map (·.price) := by
  induction debt generalizing left with
  | nil => rfl
  | cons d debt ih =>
    unfold consumeRawLevel
    split
    · exact congrArg (d.price :: ·) ih
    · exact congrArg (d.price :: ·) ih

/-- The first entry is the only one at its price. -/
lemma levelQty_cons_bounds {d : PriceLevel} {rest rest' : List PriceLevel} {q bound : ℚ}
    (hle : d.quantity ≤ q)
    (hmax : d.price = p → q ≤ max d.quantity bound) (hnot : d.price ∉ rest.map (·.price))
    (hsame : rest'.map (·.price) = rest.map (·.price))
    (h : levelQty rest p ≤ levelQty rest' p ∧ levelQty rest' p ≤ max (levelQty rest p) bound) :
    levelQty (d :: rest) p ≤ levelQty ({ d with quantity := q } :: rest') p ∧
      levelQty ({ d with quantity := q } :: rest') p ≤ max (levelQty (d :: rest) p) bound := by
  rw [levelQty_cons, levelQty_cons]
  by_cases hprice : d.price = p
  · subst hprice
    rw [if_pos rfl, if_pos rfl, levelQty_eq_zero hnot, levelQty_eq_zero (hsame ▸ hnot), add_zero,
      add_zero]
    exact ⟨hle, hmax rfl⟩
  · rw [if_neg hprice, if_neg hprice, zero_add, zero_add]
    exact h

section

variable (hgrid : tolerance ≤ grid)

include hgrid

/-- On the grid the tolerance only admits equal prices. -/
lemma samePrice_iff (hp : IsTick grid p) (hq : IsTick grid q) : samePrice p q = true ↔ p = q := by
  obtain ⟨k, rfl⟩ := hp
  obtain ⟨m, rfl⟩ := hq
  have hpos : (0 : ℚ) < grid := lt_of_lt_of_le (by norm_num [tolerance]) hgrid
  constructor
  · intro hsame
    by_contra hne
    have hkm : k ≠ m := fun h => hne (by rw [h])
    have hone : (1 : ℚ) ≤ |(k : ℚ) - m| := by
      exact_mod_cast Int.one_le_abs (sub_ne_zero.2 hkm)
    have hlt : |(k : ℚ) - m| * grid < tolerance := by
      rw [← abs_of_pos hpos, ← abs_mul, sub_mul]
      exact of_decide_eq_true hsame
    nlinarith
  · intro h
    rw [h]
    norm_num [samePrice, tolerance]

lemma find_eq_none_or (h : OnTicks grid new) (hp : IsTick grid p) :
    new.find? (fun l => samePrice l.price p) = none ∧ levelQty new p = 0 ∨
      ∃ level, new.find? (fun l => samePrice l.price p) = some level ∧
        level.quantity = levelQty new p := by
  induction new with
  | nil => exact .inl ⟨rfl, rfl⟩
  | cons l new ih =>
    obtain ⟨hl, hnot, hnew⟩ := h.tail
    rw [find?_cons, levelQty_cons]
    by_cases hprice : l.price = p
    · subst hprice
      rw [(samePrice_iff hgrid hl hp).2 rfl, if_pos rfl, levelQty_eq_zero hnot, add_zero]
      exact .inr ⟨l, rfl, rfl⟩
    · rw [Bool.eq_false_iff.2 (mt (samePrice_iff hgrid hl hp).1 hprice), if_neg hprice, zero_add]
      exact ih hnew

lemma findQuantity_eq (h : OnTicks grid old) (hp : IsTick grid p) :
    findQuantity old p = levelQty old p := by
  rcases find_eq_none_or hgrid h hp with ⟨hnone, hzero⟩ | ⟨level, hsome, hqty⟩
  · simp [findQuantity, hnone, hzero]
  · simp [findQuantity, hsome, hqty]

lemma reconcileEntry_spec {d : PriceLevel} (hold : OnTicks grid old) (hnew : OnTicks grid new)
    (hd : IsTick grid d.price) :
    let value := reconcileDebt d.quantity (levelQty old d.price) (levelQty new d.price)
    reconcileEntry old new d = none ∧ value = 0 ∨
      reconcileEntry old new d = some { d with quantity := value } := by
  rcases find_eq_none_or hgrid hnew hd with ⟨hnone, hzero⟩ | ⟨level, hsome, hqty⟩
  · simp [reconcileEntry, hnone, hzero, reconcileDebt]
  · simp [reconcileEntry, hsome, hqty, findQuantity_eq hgrid hold hd]

/-- The entries that stay hold the reconciled debt. -/
lemma levelQty_kept (hdebt : OnTicks grid debt) (hold : OnTicks grid old)
    (hnew : OnTicks grid new) :
    levelQty (debt.filterMap (reconcileEntry old new)) p =
      reconcileDebt (levelQty debt p) (levelQty old p) (levelQty new p) := by
  have hzero : reconcileDebt 0 (levelQty old p) (levelQty new p) = 0 := by simp [reconcileDebt]
  induction debt with
  | nil => exact hzero.symm
  | cons d debt ih =>
    obtain ⟨hd, hnot, hdebt⟩ := hdebt.tail
    have ih := ih hdebt
    rcases reconcileEntry_spec hgrid hold hnew hd with ⟨hnone, hvalue⟩ | hsome
    · rw [filterMap_cons_none hnone, ih, levelQty_cons]
      by_cases hprice : d.price = p
      · subst hprice
        rw [if_pos rfl, levelQty_eq_zero hnot, hzero, add_zero, hvalue]
      · rw [if_neg hprice, zero_add]
    · rw [filterMap_cons_some hsome, levelQty_cons, levelQty_cons, ih]
      by_cases hprice : d.price = p
      · subst hprice
        rw [if_pos rfl, if_pos rfl, levelQty_eq_zero hnot, hzero, add_zero, add_zero]
      · rw [if_neg hprice, if_neg hprice, zero_add, zero_add]

lemma levelQty_reconcileConsumed (hdebt : OnTicks grid debt) (hold : OnTicks grid old)
    (hnew : OnTicks grid new) :
    OnTicks grid (reconcileConsumed debt old new) ∧
      ∀ p, levelQty (reconcileConsumed debt old new) p =
      reconcileDebt (levelQty debt p) (levelQty old p) (levelQty new p) := by
  have hkept : OnTicks grid (debt.filterMap (reconcileEntry old new)) := by
    refine hdebt.of_sublist ?_
    clear hdebt
    induction debt with
    | nil => exact .slnil
    | cons d debt ih =>
      cases hent : reconcileEntry old new d with
      | none =>
        rw [filterMap_cons_none hent]
        exact ih.cons _
      | some e =>
        obtain ⟨level, -, rfl⟩ := Option.map_eq_some_iff.1 hent
        rw [filterMap_cons_some hent]
        exact ih.cons_cons _
  obtain ⟨hticks, hqty⟩ :=
    levelQty_push (fun l hl => hnew.ticks _ (mem_map_of_mem hl)) hkept
  exact ⟨hticks, fun p => (hqty p).trans (levelQty_kept hgrid hdebt hold hnew)⟩

/-- Consumption fills the debt up to the raw quantity. -/
lemma levelQty_consumeRawLevel (hraw : OnTicks grid raw) (hdebt : OnTicks grid debt) (want : ℤ)
    (tick : ℚ) (hleft : 0 ≤ left) (p : ℚ) :
    levelQty debt p ≤ levelQty (consumeRawLevel raw want tick debt left).1 p ∧
      levelQty (consumeRawLevel raw want tick debt left).1 p ≤
        max (levelQty debt p) (levelQty raw p) := by
  induction debt generalizing left with
  | nil => exact ⟨le_rfl, le_max_left _ _⟩
  | cons d debt ih =>
    obtain ⟨hd, hnot, hrest⟩ := hdebt.tail
    unfold consumeRawLevel
    split
    · have hqty : ((raw.filter fun l => samePrice l.price d.price).map (·.quantity)).sum =
          levelQty raw d.price := by
        rw [levelQty, filter_congr fun l hl => ?_]
        rw [Bool.eq_iff_iff, samePrice_iff hgrid (hraw.ticks _ (mem_map_of_mem hl)) hd,
          decide_eq_true_iff]
      rw [hqty]
      refine levelQty_cons_bounds ?_ ?_ hnot map_price_consumeRawLevel
        (ih hrest (sub_nonneg.2 (min_le_right _ _)))
      · exact le_add_of_nonneg_right (le_min (le_max_right _ _) hleft)
      · rintro rfl
        rcases le_max_iff.1
          (min_le_left (max (levelQty raw d.price - d.quantity) 0) left) with h | h
        · exact le_max_of_le_right (by linarith)
        · exact le_max_of_le_left (by linarith)
    · exact levelQty_cons_bounds le_rfl (fun _ => le_max_left _ _) hnot map_price_consumeRawLevel
        (ih hrest hleft)

end

/-- Protection adds to the debt of one level. -/
lemma levelQty_protectEntry {price drop : ℚ} (hdrop : 0 ≤ drop) :
    (debt.replaceF (protectEntry price drop)).map (·.price) = debt.map (·.price) ∧
      levelQty debt p ≤ levelQty (debt.replaceF (protectEntry price drop)) p := by
  induction debt with
  | nil => exact ⟨rfl, le_rfl⟩
  | cons d debt ih =>
    cases hd : protectEntry price drop d with
    | none =>
      rw [replaceF_cons_of_none _ hd, levelQty_cons, levelQty_cons]
      exact ⟨congrArg (d.price :: ·) ih.1, by gcongr; exact ih.2⟩
    | some d' =>
      obtain ⟨-, hsome⟩ := Option.ite_none_right_eq_some.1 hd
      cases hsome
      rw [replaceF_cons_of_some _ hd, levelQty_cons, levelQty_cons]
      refine ⟨rfl, ?_⟩
      gcongr
      split
      · exact le_add_of_nonneg_right hdrop
      · exact le_rfl

/-! ## Runs -/

/-- A price level of a token. -/
structure LevelKey where
  token : String
  side : Side
  price : ℚ

def sideLevels (books : String → Option TokenBook) (token : String) (side : Side) :
    List PriceLevel :=
  ((books token).getD {}).levels side

namespace BookSet

def rawQty (b : BookSet) (k : LevelKey) : ℚ := levelQty (sideLevels b.books k.token k.side) k.price

def debtQty (b : BookSet) (k : LevelKey) : ℚ :=
  levelQty (sideLevels b.consumed k.token k.side) k.price

/-- The books and the debt are on the grid. -/
structure Gridded (grid : ℚ) (b : BookSet) : Prop where
  enabled : b.liquidityLedgerEnabled = true
  books : ∀ token side, OnTicks grid (sideLevels b.books token side)
  debts : ∀ token side, OnTicks grid (sideLevels b.consumed token side)

variable {b b' : BookSet} {k : LevelKey} {token : String} {maker : Side}

/-- The debt of one side is replaced. -/
lemma Gridded.setLevels (h : Gridded grid b) {book : TokenBook}
    (hbook : b.consumed token = some book)
    (hprices : levels.map (·.price) = (book.levels maker).map (·.price)) : let b' := { b with
      consumed := Function.update b.consumed token (some (book.setLevels levels maker)) }
    Gridded grid b' ∧ ∀ k, b'.debtQty k =
      if k.token = token ∧ k.side = maker then levelQty levels k.price else b.debtQty k := by
  have hlevs : ∀ other side,
      sideLevels (Function.update b.consumed token (some (book.setLevels levels maker)))
        other side =
        if other = token ∧ side = maker then levels else sideLevels b.consumed other side := by
    intro other side
    by_cases hne : other = token
    · subst hne
      cases side <;> cases maker <;> simp [sideLevels, hbook, TokenBook.setLevels, TokenBook.levels]
    · simp [sideLevels, hne]
  refine ⟨⟨h.enabled, h.books, fun other side => ?_⟩, fun k => ?_⟩
  · rw [hlevs]
    split
    · refine (h.debts token maker).of_sublist ?_
      simp [sideLevels, hbook, hprices]
    · exact h.debts other side
  · rw [debtQty, hlevs]
    split
    · rfl
    · rfl

/-- What consumption may do to the debt. -/
structure Consumed (grid : ℚ) (b b' : BookSet) : Prop where
  books : b'.books = b.books
  gridded : Gridded grid b'
  bounds : ∀ k, b.debtQty k ≤ b'.debtQty k ∧ b'.debtQty k ≤ max (b.debtQty k) (b.rawQty k)

lemma Consumed.consumeToken (hgrid : tolerance ≤ grid) (h : Consumed grid b b') (token : String)
    (maker : Side) (price tick left : ℚ) (hleft : 0 ≤ left) :
    Consumed grid b (b'.consumeToken token maker price tick left).1 := by
  unfold BookSet.consumeToken
  split
  · next book debt hbook hdebt =>
    have hraw : sideLevels b'.books token maker = book.levels maker := by simp [sideLevels, hbook]
    have hlevs : sideLevels b'.consumed token maker = debt.levels maker := by
      simp [sideLevels, hdebt]
    obtain ⟨hgridded, hdebts⟩ := h.gridded.setLevels hdebt map_price_consumeRawLevel
    refine ⟨h.books, hgridded, fun k => ?_⟩
    have hbounds := h.bounds k
    rw [hdebts]
    split
    · next hkey =>
      obtain ⟨rfl, rfl⟩ := hkey
      have hstep := levelQty_consumeRawLevel hgrid (hraw ▸ h.gridded.books k.token k.side)
        (hlevs ▸ h.gridded.debts k.token k.side) (priceToTicks price tick) tick hleft k.price
      rw [← hraw, ← hlevs, h.books] at hstep
      rw [← hraw, ← hlevs, h.books]
      exact ⟨hbounds.1.trans hstep.1, hstep.2.trans (max_le hbounds.2 (le_max_right _ _))⟩
    · exact hbounds
  · exact h

lemma Gridded.protect (h : Gridded grid b) {price publicQty : ℚ} {next : List PriceLevel}
    (hpublic : 0 ≤ publicQty) :
    let b' := b.protectDebtFromPublicDrop token maker price publicQty next
    b'.books = b.books ∧ Gridded grid b' ∧
      ∀ k, b.debtQty k ≤ b'.debtQty k ∧ (k.token ≠ token → b'.debtQty k = b.debtQty k) := by
  unfold protectDebtFromPublicDrop
  split
  · next book debt hbook hdebt =>
    have hdrop : 0 ≤ min (max (findQuantity (book.levels maker) price - findQuantity next price) 0)
      publicQty := le_min (le_max_right _ _) hpublic
    obtain ⟨hgridded, hdebts⟩ := h.setLevels hdebt (levelQty_protectEntry (p := 0) hdrop).1
    refine ⟨rfl, hgridded, fun k => ?_⟩
    rw [hdebts]
    split
    · next hkey =>
      obtain ⟨rfl, rfl⟩ := hkey
      refine ⟨?_, fun hne => absurd rfl hne⟩
      have hlevs : sideLevels b.consumed k.token k.side = debt.levels k.side := by
        simp [sideLevels, hdebt]
      rw [debtQty, hlevs]
      exact (levelQty_protectEntry hdrop).2
    · exact ⟨le_rfl, fun _ => rfl⟩
  · exact ⟨rfl, h, fun k => ⟨le_rfl, fun _ => rfl⟩⟩

lemma Gridded.update (hgrid : tolerance ≤ grid) (h : Gridded grid b) {bids asks : List PriceLevel}
    (hbids : OnTicks grid bids) (hasks : OnTicks grid asks) : let b' := b.update token bids asks
    Gridded grid b' ∧ ∀ k,
      (k.token = token → b'.debtQty k = reconcileDebt (b.debtQty k) (b.rawQty k) (b'.rawQty k)) ∧
      (k.token ≠ token → b'.debtQty k = b.debtQty k ∧ b'.rawQty k = b.rawQty k) := by
  have hnew : ∀ side, OnTicks grid (levels ⟨bids, asks⟩ side) := by
    rintro (_ | _)
    · exact hbids
    · exact hasks
  have hdebt : ∀ side, sideLevels (b.update token bids asks).consumed token side =
      reconcileConsumed (sideLevels b.consumed token side) (sideLevels b.books token side)
        (levels ⟨bids, asks⟩ side) := by
    rintro (_ | _) <;> simp [BookSet.update, invalidateLadder, h.enabled, sideLevels, levels]
  have hraw : ∀ side, sideLevels (b.update token bids asks).books token side =
      levels ⟨bids, asks⟩ side := fun side => by
    simp [BookSet.update, invalidateLadder, sideLevels]
  have hother : ∀ other, other ≠ token → ∀ side,
      sideLevels (b.update token bids asks).consumed other side = sideLevels b.consumed other side ∧
        sideLevels (b.update token bids asks).books other side = sideLevels b.books other side := by
    intro other hne side
    simp [BookSet.update, invalidateLadder, h.enabled, sideLevels, hne]
  have hrec := fun side =>
    levelQty_reconcileConsumed hgrid (h.debts token side) (h.books token side) (hnew side)
  refine ⟨⟨h.enabled, fun other side => ?_, fun other side => ?_⟩, fun k => ⟨?_, fun hne => ?_⟩⟩
  · by_cases hne : other = token
    · rw [hne, hraw]
      exact hnew side
    · rw [(hother other hne side).2]
      exact h.books other side
  · by_cases hne : other = token
    · rw [hne, hdebt]
      exact (hrec side).1
    · rw [(hother other hne side).1]
      exact h.debts other side
  · rintro rfl
    rw [debtQty, hdebt, rawQty, rawQty, hraw]
    exact (hrec k.side).2 k.price
  · rw [debtQty, (hother _ hne _).1, rawQty, (hother _ hne _).2]
    exact ⟨rfl, rfl⟩

/-! ## Tallies -/

/-- What has happened at a level: the quantity consumed, the increases of the raw quantity, and
whether the token has had a snapshot since its debt was protected. -/
structure Tally where
  consumed : ℚ := 0
  increases : ℚ := 0
  settled : Bool := true

/-- A call, with the tally of a level. -/
def tallied (k : LevelKey) (r : BookSet × Tally) (op : BookOp) : BookSet × Tally :=
  let b := r.1.step op
  (b, match op with
    | .update token .. => { r.2 with
        increases := r.2.increases + max (b.rawQty k - r.1.rawQty k) 0
        settled := r.2.settled || k.token = token }
    | .protectDebtFromPublicDrop token .. =>
      { r.2 with settled := r.2.settled && k.token ≠ token }
    | .consumeLevel .. | .consumeSweep .. =>
      { r.2 with consumed := r.2.consumed + (b.debtQty k - r.1.debtQty k) }
    | _ => r.2)

/-- Snapshots with distinct price ticks, consumption, and protection by a public quantity. -/
def OnLedger (grid : ℚ) : BookOp → Prop
  | .update _ bids asks => OnTicks grid bids ∧ OnTicks grid asks
  | .consumeLevel .. | .consumeSweep .. => True
  | .protectDebtFromPublicDrop _ _ _ publicQty _ => 0 ≤ publicQty
  | _ => False

variable {r : BookSet × Tally}

structure Tallied (grid : ℚ) (k : LevelKey) (r : BookSet × Tally) : Prop where
  gridded : Gridded grid r.1
  level : LevelOk (r.1.rawQty k) (r.1.debtQty k) r.2.consumed r.2.increases r.2.settled

lemma Tallied.consume (h : Tallied grid k r) (hb : Consumed grid r.1 b) :
    Tallied grid k
      (b, { r.2 with consumed := r.2.consumed + (b.debtQty k - r.1.debtQty k) }) := by
  have hraw : b.rawQty k = r.1.rawQty k := by rw [rawQty, hb.books, rawQty]
  refine ⟨hb.gridded, ?_⟩
  rw [hraw]
  exact h.level.consume (hb.bounds k).1 (hb.bounds k).2

lemma Tallied.step (hgrid : tolerance ≤ grid) (h : Tallied grid k r) {op : BookOp}
    (hop : OnLedger grid op) : Tallied grid k (tallied k r op) := by
  have hcons : ∀ b, Consumed grid r.1 b → ∀ token maker price tick left, 0 ≤ left →
      Consumed grid r.1 (b.consumeToken token maker price tick left).1 :=
    fun b hb => hb.consumeToken hgrid
  have hstart : ∀ cache, Consumed grid r.1 { r.1 with ladderCache := cache } := fun _ =>
    ⟨rfl, ⟨h.gridded.enabled, h.gridded.books, h.gridded.debts⟩, fun _ => ⟨le_rfl, le_max_left _ _⟩⟩
  cases op with
  | update token bids asks =>
    obtain ⟨hgridded, hlevs⟩ := h.gridded.update hgrid hop.1 hop.2
    refine ⟨hgridded, ?_⟩
    dsimp only [tallied, BookSet.step]
    by_cases htok : k.token = token
    · rw [(hlevs k).1 htok, decide_eq_true htok, Bool.or_true]
      exact h.level.snapshot _
    · obtain ⟨hdebt, hraw⟩ := (hlevs k).2 htok
      rw [hdebt, hraw, sub_self, max_self, add_zero, decide_eq_false htok, Bool.or_false]
      exact h.level
  | consumeLevel => exact h.consume (consumeLevel_rule hcons (hstart r.1.ladderCache) _ _ _ _ _)
  | consumeSweep token taker =>
    refine h.consume (sweepLevels_rule hcons ?_ _ _ _ _ _ _)
    unfold ladder
    split
    · exact hstart r.1.ladderCache
    · exact hstart _
  | protectDebtFromPublicDrop token maker price publicQty next =>
    obtain ⟨hbooks, hgridded, hlevs⟩ := h.gridded.protect hop
    obtain ⟨hle, hne⟩ := hlevs k
    refine ⟨hgridded, ?_⟩
    dsimp only [tallied, BookSet.step]
    rw [rawQty, hbooks]
    by_cases htok : k.token = token
    · rw [decide_eq_false (not_not.2 htok), Bool.and_false]
      exact h.level.protect hle
    · rw [hne htok, decide_eq_true htok, Bool.and_true]
      exact h.level
  | setPair | setLiquidityLedgerEnabled | setFolded | retireToken | buyLadder | sellLadder =>
    cases hop

/-- In every run of the ledger, at every level of a token: the debt is never negative, it is covered
by the raw quantity unless the debt of the token was protected after its last snapshot, and what has
been consumed is at most the sum of the increases of the raw quantity. -/
theorem liquidity_consumed_once (hgrid : tolerance ≤ grid) (pairs : String → Option String)
    {ops : List BookOp} (hops : ∀ op ∈ ops, OnLedger grid op) (k : LevelKey) :
    let r := ops.foldl (tallied k) ({ liquidityLedgerEnabled := true, pairs }, {})
    0 ≤ r.1.debtQty k ∧ (r.2.settled = true → r.1.debtQty k ≤ max (r.1.rawQty k) 0) ∧
      r.2.consumed ≤ r.2.increases := by
  have hrun : ∀ r, Tallied grid k r → Tallied grid k (ops.foldl (tallied k) r) := by
    induction ops with
    | nil => exact fun _ hr => hr
    | cons op ops ih =>
      obtain ⟨hop, hops⟩ := forall_mem_cons.1 hops
      exact fun r hr => ih hops _ (hr.step hgrid hop)
  have hempty : OnTicks grid [] := ⟨nofun, .nil⟩
  have hlevs : ∀ token side, OnTicks grid (sideLevels (fun _ => none) token side) := by
    rintro token (_ | _) <;> exact hempty
  have hstart : Tallied grid k ({ liquidityLedgerEnabled := true, pairs }, {}) := by
    refine ⟨⟨rfl, hlevs, hlevs⟩, ?_⟩
    obtain ⟨token, side, price⟩ := k
    cases side <;> exact ⟨le_rfl, fun _ => le_max_right _ _, by simp [rawQty, debtQty, sideLevels,
      levels]⟩
  obtain ⟨-, hnn, hcov, hbound⟩ := hrun _ hstart
  exact ⟨hnn, hcov, le_trans (le_add_of_nonneg_right (le_max_right _ _)) hbound⟩

/-- An ask of ten, of which six are taken. -/
def sixOfTen : List BookOp :=
  [.update "up" [] [⟨1 / 2, 10⟩], .consumeLevel "up" .sell (1 / 2) (1 / 100) 6]

def askAtHalf : LevelKey := ⟨"up", .sell, 1 / 2⟩

/-- The next snapshot has two more. Of the eight that are asked for only six are left. -/
theorem liquidity_consumed_twice :
    let ops := sixOfTen ++
      [.update "up" [] [⟨1 / 2, 12⟩], .consumeLevel "up" .sell (1 / 2) (1 / 100) 8]
    let r := ops.foldl (tallied askAtHalf) ({ liquidityLedgerEnabled := true }, {})
    r.2.consumed = 12 ∧ r.2.consumed ≤ r.2.increases := by
  intro ops r
  have hticks (quantity : ℚ) : OnTicks (1 / 100) [⟨1 / 2, quantity⟩] := by
    refine ⟨fun p hp => ⟨50, ?_⟩, nodup_singleton _⟩
    rw [mem_singleton.1 hp]
    norm_num
  have hempty : OnTicks (1 / 100) [] := ⟨nofun, .nil⟩
  have hops : ∀ op ∈ ops, OnLedger (1 / 100) op :=
    forall_mem_cons.2 ⟨⟨hempty, hticks 10⟩, forall_mem_cons.2 ⟨trivial,
      forall_mem_cons.2 ⟨⟨hempty, hticks 12⟩, forall_mem_cons.2 ⟨trivial, nofun⟩⟩⟩⟩
  exact ⟨by decide +kernel,
    (liquidity_consumed_once (by norm_num [tolerance]) _ hops askAtHalf).2.2⟩

/-- Protected debt exceeds the raw quantity also after the next consumption; with a negative public
quantity the debt is released and more is consumed than was ever there; a negative raw quantity is
below the debt of zero. -/
theorem debt_exceeds_raw :
    let run (ops : List BookOp) := ops.foldl (tallied askAtHalf)
      ({ liquidityLedgerEnabled := true }, {})
    let again : BookOp := .consumeLevel "up" .sell (1 / 2) (1 / 100) 6
    let guarded := run (sixOfTen ++ [.protectDebtFromPublicDrop "up" .sell (1 / 2) 10 [], again])
    let released := run (sixOfTen ++ [.protectDebtFromPublicDrop "up" .sell (1 / 2) (-6) [], again])
    let negative := run [.update "up" [] [⟨1 / 2, -1⟩]]
    guarded.1.rawQty askAtHalf < guarded.1.debtQty askAtHalf ∧
      released.2.increases < released.2.consumed ∧
      negative.1.rawQty askAtHalf < negative.1.debtQty askAtHalf := by
  decide +kernel

end BookSet

end HexAgent.Simulator
