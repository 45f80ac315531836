import HexAgent.LocalBooks.Books
import HexAgent.ToMathlib.Trace
import Mathlib.Data.Rat.Floor
import Mathlib.Logic.Function.Basic

/-!
# The books of the simulator

The raw books of the simulated venue, the ledger of the quantities that simulated orders have
consumed, and the memoised ladders that a taker sweeps (`sim_v2/book.rs`). The ladder of a token
merges its book with the mirrored book of its complement. Maps are functions; quantities are exact.

Every change drops the ladders it makes stale, except the retirement of a token: the ladders of its
complement stay, and so does the complement's pairing, whose later updates of the retired token then
drop nothing (`retired_liquidity_served`). If no ladder is cached that such a change makes stale,
the memoisation is transparent (`ladder_transparent`).
-/

namespace HexAgent.Simulator

open Function

open LocalBooks (PriceLevel)

/-- A float as an integer: the fraction is dropped. -/
def truncate (x : ℚ) : ℤ := if 0 ≤ x then ⌊x⌋ else ⌈x⌉

def priceToTicks (price tick : ℚ) : ℤ :=
  if tick ≤ 0 then truncate (price * 10 ^ 12)
  -- Halves are rounded away from zero.
  else if 0 ≤ price / tick then ⌊price / tick + 1 / 2⌋ else ⌈price / tick - 1 / 2⌉

/-- The tolerance for equal prices and for a finished sweep. -/
def tolerance : ℚ := 1 / 10 ^ 9

def samePrice (a b : ℚ) : Bool := |a - b| < tolerance

def flip : Side → Side
  | .buy => .sell
  | .sell => .buy

structure TokenBook where
  bids : List PriceLevel := []
  asks : List PriceLevel := []

namespace TokenBook

/-- The levels of the makers on a side. -/
def levels (b : TokenBook) : Side → List PriceLevel
  | .buy => b.bids
  | .sell => b.asks

def setLevels (b : TokenBook) (levels : List PriceLevel) : Side → TokenBook
  | .buy => { b with bids := levels }
  | .sell => { b with asks := levels }

end TokenBook

structure BookSet where
  books : String → Option TokenBook := fun _ => none
  liquidityLedgerEnabled : Bool := false
  consumed : String → Option TokenBook := fun _ => none
  pairs : String → Option String := fun _ => none
  folded : Bool := false
  /-- The ladder of a token for a taker's side. -/
  ladderCache : String → Side → Option (List PriceLevel) := fun _ _ => none

variable (levels : List PriceLevel)

def finiteLevels : List PriceLevel :=
  levels.filter fun l => 0 < l.quantity ∧ 0 < l.price ∧ l.price < 1

def mergedLadder (direct comp : Option TokenBook) (taker : Side) : List PriceLevel :=
  let own := direct.elim [] fun b => finiteLevels (b.levels (flip taker))
  let mirrored := comp.elim [] fun b =>
    (finiteLevels (b.levels taker)).map fun l => { l with price := 1 - l.price }
  let merged := finiteLevels (own ++ mirrored)
  match taker with
  | .buy => merged.insertionSort fun a b => a.price ≤ b.price
  | .sell => merged.insertionSort fun a b => b.price ≤ a.price

/-- One more level behind the aggregated ones, whose last is at the head. -/
def aggregateLevel : List PriceLevel → PriceLevel → List PriceLevel
  | last :: done, l =>
    if samePrice l.price last.price then
      { last with quantity := last.quantity + l.quantity } :: done
    else l :: last :: done
  | [], l => [l]

def aggregateEqualPrices : List PriceLevel :=
  (levels.foldl aggregateLevel []).reverse

/-- The quantity of the level at a price. -/
def findQuantity (price : ℚ) : ℚ :=
  ((levels.find? fun l => samePrice l.price price).map (·.quantity)).getD 0

/-- The debt at a price after its quantity has changed. -/
def reconcileDebt (debt old new : ℚ) : ℚ :=
  min (max (debt - max (old - new) 0) 0) (max new 0)

/-- An entry of the debt after a snapshot; it goes with its level. -/
def reconcileEntry (old new : List PriceLevel) (entry : PriceLevel) : Option PriceLevel :=
  (new.find? fun l => samePrice l.price entry.price).map fun level =>
    { entry with
      quantity := reconcileDebt entry.quantity (findQuantity old entry.price) level.quantity }

/-- The debt of a side after a snapshot: a decrease absorbs debt first, an increase is fresh. -/
def reconcileConsumed (debt old new : List PriceLevel) : List PriceLevel :=
  new.foldl (fun debt level =>
    if debt.any fun l => samePrice l.price level.price then debt
    else debt ++ [{ level with quantity := 0 }]) (debt.filterMap (reconcileEntry old new))

/-- Takes what is left of the wanted quantity from the levels at a tick. -/
def consumeRawLevel (raw : List PriceLevel) (want : ℤ) (tick : ℚ) :
    List PriceLevel → ℚ → List PriceLevel × ℚ
  | [], left => ([], left)
  | d :: debt, left =>
    if priceToTicks d.price tick = want then
      let qty := ((raw.filter fun l => samePrice l.price d.price).map (·.quantity)).sum
      let take := min (max (qty - d.quantity) 0) left
      let rest := consumeRawLevel raw want tick debt (left - take)
      ({ d with quantity := d.quantity + take } :: rest.1, rest.2)
    else
      let rest := consumeRawLevel raw want tick debt left
      (d :: rest.1, rest.2)

/-- The entry that is protected, with the added debt. -/
def protectEntry (price drop : ℚ) (d : PriceLevel) : Option PriceLevel :=
  if samePrice d.price price ∧ 0 < d.quantity then some { d with quantity := d.quantity + drop }
  else none

namespace BookSet

variable (b : BookSet)

def setLiquidityLedgerEnabled (enabled : Bool) : BookSet :=
  let zero (levels : List PriceLevel) := levels.map fun l => { l with quantity := 0 }
  { b with
    liquidityLedgerEnabled := enabled
    consumed := fun token =>
      if enabled then (b.books token).map fun book => ⟨zero book.bids, zero book.asks⟩ else none
    ladderCache := fun _ _ => none }

def setPair (token other : String) : BookSet :=
  { b with
    pairs := update (update b.pairs token (some other)) other (some token)
    ladderCache := fun _ _ => none }

def setFolded (folded : Bool) : BookSet := { b with folded, ladderCache := fun _ _ => none }

variable (token : String)

def invalidateLadder : BookSet :=
  { b with
    ladderCache := fun other =>
      if other = token ∨ b.pairs token = some other then fun _ => none else b.ladderCache other }

def update (bids asks : List PriceLevel) : BookSet :=
  let old := (b.books token).getD {}
  let debt := (b.consumed token).getD {}
  let consumed := if b.liquidityLedgerEnabled then
      Function.update b.consumed token (some
        ⟨reconcileConsumed debt.bids old.bids bids, reconcileConsumed debt.asks old.asks asks⟩)
    else b.consumed
  invalidateLadder
    { b with consumed, books := Function.update b.books token (some ⟨bids, asks⟩) } token

def retireToken : BookSet :=
  { b with
    books := Function.update b.books token none
    consumed := Function.update b.consumed token none
    pairs := Function.update b.pairs token none
    ladderCache := Function.update b.ladderCache token fun _ => none }

/-- The ladder that the current books and pairs give. -/
def freshLadder (taker : Side) (token : String) : List PriceLevel :=
  let merged := mergedLadder (b.books token) ((b.pairs token).bind b.books) taker
  if b.liquidityLedgerEnabled then aggregateEqualPrices merged else merged

/-- The ladder of a token, from the cache if it is there. -/
def ladder (taker : Side) (token : String) : List PriceLevel × BookSet :=
  match b.ladderCache token taker with
  | some l => (l, b)
  | none =>
    let l := b.freshLadder taker token
    (l, { b with
      ladderCache := Function.update b.ladderCache token
        (Function.update (b.ladderCache token) taker (some l)) })

def buyLadder : String → List PriceLevel × BookSet := b.ladder .buy

def sellLadder : String → List PriceLevel × BookSet := b.ladder .sell

/-- The part of `consume_level` on one token. -/
def consumeToken (maker : Side) (price tick left : ℚ) : BookSet × ℚ :=
  match b.books token, b.consumed token with
  | some raw, some debt =>
    let r := consumeRawLevel (raw.levels maker) (priceToTicks price tick) tick
      (debt.levels maker) left
    ({ b with consumed := Function.update b.consumed token (some (debt.setLevels r.1 maker)) }, r.2)
  | _, _ => (b, left)

def consumeLevel (maker : Side) (price tick qty : ℚ) : BookSet × ℚ :=
  if b.liquidityLedgerEnabled = false ∨ qty ≤ 0 then (b, 0)
  else
    let own := b.consumeToken token maker price tick qty
    let both := match b.pairs token with
      | none => own
      | some comp => own.1.consumeToken comp (flip maker) (1 - price) tick own.2
    (both.1, qty - both.2)

/-- The level is beyond the limit of the taker. -/
def beyond (price limit : ℚ) : Side → Bool
  | .buy => limit + tolerance < price
  | .sell => price < limit - tolerance

/-- The loop of `consume_sweep` over the rest of the ladder; gives what remains. -/
def sweepLevels (b : BookSet) (token : String) (taker : Side) (limit tick : ℚ) :
    List PriceLevel → ℚ → BookSet × ℚ
  | [], remaining => (b, remaining)
  | level :: ladder, remaining =>
    if beyond level.price limit taker then (b, remaining)
    else
      let r := b.consumeLevel token (flip taker) level.price tick remaining
      if remaining - r.2 ≤ tolerance then (r.1, remaining - r.2)
      else sweepLevels r.1 token taker limit tick ladder (remaining - r.2)

def consumeSweep (taker : Side) (limit tick qty : ℚ) : BookSet × ℚ :=
  let r := b.ladder taker token
  let swept := r.2.sweepLevels token taker limit tick r.1 qty
  (swept.1, qty - swept.2)

def protectDebtFromPublicDrop (maker : Side) (price publicQty : ℚ)
    (next : List PriceLevel) : BookSet :=
  match b.books token, b.consumed token with
  | some raw, some debt =>
    let before := findQuantity (raw.levels maker) price
    let drop := min (max (before - findQuantity next price) 0) publicQty
    let used := (debt.levels maker).replaceF (protectEntry price drop)
    { b with consumed := Function.update b.consumed token (some (debt.setLevels used maker)) }
  | _, _ => b

end BookSet

/-- A call on the books. -/
inductive BookOp
  | update (token : String) (bids asks : List PriceLevel)
  | setPair (token other : String)
  | setLiquidityLedgerEnabled (enabled : Bool)
  | setFolded (folded : Bool)
  | retireToken (token : String)
  | buyLadder (token : String)
  | sellLadder (token : String)
  | consumeLevel (token : String) (maker : Side) (price tick qty : ℚ)
  | consumeSweep (token : String) (taker : Side) (limit tick qty : ℚ)
  | protectDebtFromPublicDrop (token : String) (maker : Side) (price publicQty : ℚ)
      (next : List PriceLevel)

namespace BookSet

def step (b : BookSet) : BookOp → BookSet
  | .update token bids asks => b.update token bids asks
  | .setPair token other => b.setPair token other
  | .setLiquidityLedgerEnabled enabled => b.setLiquidityLedgerEnabled enabled
  | .setFolded folded => b.setFolded folded
  | .retireToken token => b.retireToken token
  | .buyLadder token => (b.buyLadder token).2
  | .sellLadder token => (b.sellLadder token).2
  | .consumeLevel token maker price tick qty => (b.consumeLevel token maker price tick qty).1
  | .consumeSweep token taker limit tick qty => (b.consumeSweep token taker limit tick qty).1
  | .protectDebtFromPublicDrop token maker price publicQty next =>
    b.protectDebtFromPublicDrop token maker price publicQty next

lemma consumeRawLevel_left {raw debt : List PriceLevel} {want : ℤ} {tick left : ℚ} (h : 0 ≤ left) :
    0 ≤ (consumeRawLevel raw want tick debt left).2 := by
  induction debt generalizing left with
  | nil => exact h
  | cons d debt ih =>
    unfold consumeRawLevel
    split
    · exact ih (sub_nonneg.2 (min_le_right _ _))
    · exact ih h

variable {token : String}

lemma consumeToken_left {b : BookSet} {maker : Side} {price tick left : ℚ}
    (h : 0 ≤ left) : 0 ≤ (b.consumeToken token maker price tick left).2 := by
  unfold consumeToken
  split
  · exact consumeRawLevel_left h
  · exact h

section

variable {P : BookSet → Prop} (hconsume : ∀ b, P b → ∀ token maker price tick left, 0 ≤ left →
  P (consumeToken b token maker price tick left).1) {b : BookSet}

include hconsume

/-- What the consumption on each token keeps. -/
lemma consumeLevel_rule (h : P b) (token : String) (maker : Side)
    (price tick qty : ℚ) : P (b.consumeLevel token maker price tick qty).1 := by
  unfold consumeLevel
  split
  · exact h
  next hpos =>
  have hqty : 0 ≤ qty := (lt_of_not_ge (not_or.1 hpos).2).le
  have hown := hconsume b h token maker price tick qty hqty
  split
  · exact hown
  · exact hconsume _ hown _ _ _ _ _ (consumeToken_left hqty)

lemma sweepLevels_rule (h : P b) (token : String) (taker : Side) (limit tick : ℚ)
    (ladder : List PriceLevel) (remaining : ℚ) :
    P (b.sweepLevels token taker limit tick ladder remaining).1 := by
  induction ladder generalizing b remaining with
  | nil => exact h
  | cons level ladder ih =>
    have hlev := consumeLevel_rule hconsume h token (flip taker) level.price tick remaining
    unfold sweepLevels
    split
    · exact h
    · dsimp only
      split
      · exact hlev
      · exact ih hlev _

end

/-! ## Memoisation -/

/-- The call makes no cached ladder stale: that of a token whose complement is retired, or updated
after its retirement. -/
def Careful (b : BookSet) : BookOp → Prop
  | .update token .. => ∀ c taker, b.pairs c = some token → (b.ladderCache c taker).isSome →
      b.pairs token = some c
  | .retireToken token =>
    ∀ c taker, b.pairs c = some token → (b.ladderCache c taker).isSome → c = token
  | _ => True

/-- The cached ladders are those of the current books. -/
def Transparent (b : BookSet) : Prop :=
  ∀ token taker l, b.ladderCache token taker = some l → l = b.freshLadder taker token

variable {b b' : BookSet}

lemma Transparent.of_cleared (h : ∀ token taker, b.ladderCache token taker = none) :
    b.Transparent := by
  intro token taker l hl
  rw [h] at hl
  cases hl

/-- The ladders that stay depend on nothing that has changed. -/
lemma Transparent.of_kept (h : b.Transparent)
    (hled : b'.liquidityLedgerEnabled = b.liquidityLedgerEnabled)
    (hkept : ∀ c taker l, b'.ladderCache c taker = some l → b.ladderCache c taker = some l ∧
      b'.books c = b.books c ∧ (b'.pairs c).bind b'.books = (b.pairs c).bind b.books) :
    b'.Transparent := by
  intro c taker l hl
  obtain ⟨hcached, hbook, hcomp⟩ := hkept c taker l hl
  rw [h c taker l hcached, freshLadder, freshLadder, hbook, hcomp, hled]

/-- The complement's book is another one than that of the token. -/
lemma bind_update {c : String} {books : String → Option TokenBook} {book : Option TokenBook}
    (h : b.pairs c ≠ some token) :
    (b.pairs c).bind (Function.update books token book) = (b.pairs c).bind books := by
  cases hpair : b.pairs c with
  | none => rfl
  | some d =>
    refine update_of_ne ?_ _ _
    rintro rfl
    exact h hpair

section

variable (h : b.Transparent)
include h

lemma Transparent.update {bids asks : List PriceLevel}
    (hcar : b.Careful (.update token bids asks)) : (b.update token bids asks).Transparent := by
  refine h.of_kept rfl fun c taker l hl => ?_
  simp only [BookSet.update, invalidateLadder] at hl
  split at hl
  · cases hl
  next hne =>
  rw [not_or] at hne
  refine ⟨hl, update_of_ne hne.1 _ _, bind_update fun hpair => hne.2 ?_⟩
  exact hcar c taker hpair (hl ▸ rfl)

lemma Transparent.retireToken
    (hcar : b.Careful (.retireToken token)) : (b.retireToken token).Transparent := by
  refine h.of_kept rfl fun c taker l hl => ?_
  by_cases hc : c = token
  · subst hc
    simp [BookSet.retireToken] at hl
  have hcached : b.ladderCache c taker = some l := by
    simpa [BookSet.retireToken, update_of_ne hc] using hl
  refine ⟨hcached, Function.update_of_ne hc _ _, ?_⟩
  show (Function.update b.pairs token none c).bind _ = _
  rw [update_of_ne hc]
  exact bind_update fun hpair => hc (hcar c taker hpair (hcached ▸ rfl))

lemma Transparent.ladder (taker : Side) (token : String) :
    (b.ladder taker token).1 = b.freshLadder taker token ∧
    (b.ladder taker token).2.Transparent := by
  unfold BookSet.ladder
  split
  · next l hl => exact ⟨h token taker l hl, h⟩
  refine ⟨rfl, fun c side l hl => ?_⟩
  show l = b.freshLadder side c
  by_cases hc : c = token
  · subst hc
    by_cases hside : side = taker
    · subst hside
      simpa using hl.symm
    · simp only [update_self, update_of_ne hside] at hl
      exact h c side l hl
  · simp only [update_of_ne hc] at hl
    exact h c side l hl

lemma Transparent.step {op : BookOp} (hcar : b.Careful op) : (b.step op).Transparent := by
  -- Consumption changes the ledger only.
  have hconsume : ∀ b : BookSet, b.Transparent → ∀ token maker price tick left, 0 ≤ left →
      (b.consumeToken token maker price tick left).1.Transparent := by
    intro b h token maker price tick left _
    unfold consumeToken
    split <;> exact h
  cases op with
  | update => exact h.update hcar
  | setPair | setLiquidityLedgerEnabled | setFolded => exact .of_cleared fun _ _ => rfl
  | retireToken => exact h.retireToken hcar
  | buyLadder token => exact (h.ladder .buy token).2
  | sellLadder token => exact (h.ladder .sell token).2
  | consumeLevel => exact consumeLevel_rule hconsume h _ _ _ _ _
  | consumeSweep token taker => exact sweepLevels_rule hconsume (h.ladder taker token).2 _ _ _ _ _ _
  | protectDebtFromPublicDrop =>
    show (protectDebtFromPublicDrop ..).Transparent
    unfold protectDebtFromPublicDrop
    split <;> exact h

end

/-- In every run of careful calls the ladders are those of the current books and pairs. -/
theorem ladder_transparent {ops : List BookOp}
    (hrun : Trace (fun b op b' => b.Careful op ∧ b.step op = b') {} ops b) (token : String) :
    (b.buyLadder token).1 = b.freshLadder .buy token ∧
      (b.sellLadder token).1 = b.freshLadder .sell token := by
  have htrans : b.Transparent := by
    refine hrun.invariant (P := Transparent) ?_ (.of_cleared fun _ _ => rfl)
    rintro b op b' h ⟨hcar, rfl⟩
    exact h.step hcar
  exact ⟨(htrans.ladder .buy token).1, (htrans.ladder .sell token).1⟩

/-- The ladder of a token is cached with the bid of its complement, which then changes. -/
theorem ladder_transparent_paired :
    let ops : List BookOp := [.setPair "up" "down", .update "up" [] [⟨1 / 2, 3⟩],
      .update "down" [⟨3 / 5, 4⟩] [], .buyLadder "up", .update "down" [⟨7 / 10, 2⟩] []]
    let b := ops.foldl step {}
    (b.buyLadder "up").1 = b.freshLadder .buy "up" ∧
      (b.buyLadder "up").1 = [⟨3 / 10, 2⟩, ⟨1 / 2, 3⟩] := by
  intro ops b
  -- The pairing is symmetric, and only the first call writes it.
  have hpairs c d (h : (setPair {} "up" "down").pairs c = some d) :
      (setPair {} "up" "down").pairs d = some c := by
    simp only [setPair, update_apply] at h ⊢
    split at h
    · cases h
      simp_all
    · split at h
      · cases h
        simp_all
      · cases h
  have hrun : Trace (fun b op b' => Careful b op ∧ b.step op = b') {} ops b :=
    .cons ⟨trivial, rfl⟩ <| .cons ⟨fun c _ hc _ => hpairs c _ hc, rfl⟩ <|
      .cons ⟨fun c _ hc _ => hpairs c _ hc, rfl⟩ <| .cons ⟨trivial, rfl⟩ <|
      .cons ⟨fun c _ hc _ => hpairs c _ hc, rfl⟩ <| .nil _
  exact ⟨(ladder_transparent hrun "up").1, by decide +kernel⟩

/-- A bid of the complement is in the cached ladder and stays there when the complement is
retired. -/
theorem retired_liquidity_served :
    let ops : List BookOp := [.setPair "up" "down", .update "up" [] [⟨1 / 2, 3⟩],
      .update "down" [⟨3 / 5, 4⟩] [], .buyLadder "up", .retireToken "down"]
    let b := ops.foldl step {}
    (b.buyLadder "up").1 = [⟨2 / 5, 4⟩, ⟨1 / 2, 3⟩] ∧ b.freshLadder .buy "up" = [⟨1 / 2, 3⟩] := by
  decide +kernel

end BookSet

end HexAgent.Simulator
