import HexAgent.Exchange.PrivateEvents
import Mathlib.Algebra.Order.Ring.Rat
import Mathlib.Algebra.Order.Group.Unbundled.Abs

/-!
# Frozen executions of private trades

The router of private events keeps the economics of every trade that it has delivered, so that a
replay cannot reprice it. A row that was restored without a fee has no execution; the cold path
attributes the fee, and the repaired row then carries the ownership under which its update is
delivered once.

Completion tickets are left out: at the capacity boundary, `acked` tells which rows the cold path
has acknowledged.
-/

namespace HexAgent.Exchange

/-- A 128-bit route fingerprint. -/
abbrev Fingerprint := UInt64 × UInt64

structure PrivateRouteIdentity where
  fingerprint : Fingerprint
  rank : ℕ
  deriving DecidableEq

structure PrivateExecutionSeed where
  ownership : Account.TradeOwnership
  isMaker : Bool
  execution : Option FrozenTradeExecution

structure CachedExecution where
  identity : Fingerprint
  quantity : ℚ
  side : Side
  isMaker : Bool
  execution : Option FrozenTradeExecution
  terminal : Bool := false
  queued : Bool := false
  repairDeliveryPending : Bool := false
  repairOwnership : Option Account.TradeOwnership := none

/-- Rust's `trim_start_matches`; the fuel is the length of the text. -/
def trimStartMatches (start : List Char) : ℕ → List Char → List Char
  | 0, s => s
  | fuel + 1, s =>
    match s.dropPrefix? start with
    | some rest => trimStartMatches start fuel rest
    | none => s

/-- `identity`. -/
def executionIdentity (order token : String) : Fingerprint :=
  let s := trim order.toList
  let s := trimStartMatches ['0', 'x'] s.length s
  let s := trimStartMatches ['0', 'X'] s.length s
  privateRouteFingerprint 'e' [String.ofList s, token]

/-- `key`. -/
def executionKey (trade order : String) (isMaker : Bool) : Fingerprint :=
  if isMaker then privateRouteFingerprint 'm' [trade, order]
  else privateRouteFingerprint 't' [trade]

/-- The trade id of the venue in a ledger key. -/
def PrivateExecutionSeed.venueTrade (seed : PrivateExecutionSeed) : String :=
  if seed.isMaker then String.ofList (seed.ownership.tradeKey.toList.takeWhile (· ≠ ':'))
  else seed.ownership.tradeKey

/-- The leg that a seed is about. -/
def PrivateExecutionSeed.key (seed : PrivateExecutionSeed) : Fingerprint :=
  executionKey seed.venueTrade seed.ownership.orderId seed.isMaker

def privateExecutionCapacity : ℕ := 32768

structure PrivateExecutionCache where
  rows : AList fun _ : Fingerprint => CachedExecution := ∅
  reclaimable : List Fingerprint := []

namespace PrivateExecutionCache

variable (c : PrivateExecutionCache)

/-- A row for a seed. -/
def seedRow (seed : PrivateExecutionSeed) : CachedExecution :=
  let terminal := seed.ownership.status = .confirmed ∨ seed.ownership.status = .failed
  { identity := executionIdentity seed.ownership.orderId seed.ownership.tokenId
    quantity := seed.ownership.quantity
    side := seed.ownership.side
    isMaker := seed.isMaker
    execution := seed.execution
    terminal := terminal
    queued := terminal ∧ seed.execution.isSome }

def new (seeds : List PrivateExecutionSeed) : Except String PrivateExecutionCache :=
  if privateExecutionCapacity < seeds.length then
    .error "private execution startup seed exceeds fixed capacity"
  else .ok (seeds.foldl (fun c seed =>
    let key := executionKey seed.venueTrade seed.ownership.orderId seed.isMaker
    { rows := c.rows.insert key (seedRow seed)
      reclaimable := if (seedRow seed).queued then c.reclaimable ++ [key] else c.reclaimable }) {})

def lookup (trade order token : String) (side : Side) (quantity rawPrice : ℚ) (isMaker : Bool) :
    Except String (Option FrozenTradeExecution) :=
  match c.rows.lookup (executionKey trade order isMaker) with
  | none => .ok none
  | some row =>
    if row.identity ≠ executionIdentity order token ∨ row.side ≠ side ∨ row.isMaker ≠ isMaker ∨
        max |quantity| 1 * (1 / 10 ^ 8) < |row.quantity - quantity| then
      .error "private frozen trade identity changed"
    else match row.execution with
      | none => .error "historical private trade fee is not attributed"
      | some execution =>
        if execution.grossNotional.isNone ∧ 1 / 10 ^ 7 < |execution.rawPrice - rawPrice| ∧
            1 / 10 ^ 7 < |execution.price - rawPrice| then
          .error "private frozen raw execution price changed"
        else .ok (some execution)

variable (acked : Fingerprint → Bool)

/-- At the capacity boundary, rows that the cold path acknowledged become reclaimable. -/
def scanAcknowledged : PrivateExecutionCache :=
  c.rows.entries.foldl (fun c e =>
    if !e.2.queued && e.2.execution.isSome && !e.2.repairDeliveryPending && acked e.1 then
      { rows := c.rows.insert e.1 { e.2 with terminal := true, queued := true }
        reclaimable := c.reclaimable ++ [e.1] }
    else c) c

/-- Drop reclaimable rows until there is room; `none` if there is none. -/
def reclaim : List Fingerprint → (AList fun _ : Fingerprint => CachedExecution) →
    Option PrivateExecutionCache
  | queue, rows =>
    if rows.keys.length < privateExecutionCapacity then some ⟨rows, queue⟩
    else match queue with
      | [] => none
      | old :: queue =>
        match rows.lookup old with
        | none => reclaim queue rows
        | some row =>
          if row.terminal && row.queued && !row.repairDeliveryPending then
            reclaim queue (rows.erase old)
          else reclaim queue (rows.insert old { row with queued := false })

def insert (trade order token : String) (side : Side) (quantity : ℚ)
    (isMaker : Bool) (execution : FrozenTradeExecution) : Except String PrivateExecutionCache :=
  let key := executionKey trade order isMaker
  if key ∈ c.rows then .ok c
  else
    let c := if privateExecutionCapacity ≤ c.rows.keys.length ∧ c.reclaimable = [] then
      c.scanAcknowledged acked else c
    match reclaim c.reclaimable c.rows with
    | none => .error "private execution capacity exhausted by unacknowledged/nonterminal trades"
    | some c =>
      let row : CachedExecution :=
        { identity := executionIdentity order token
          quantity := quantity
          side := side
          isMaker := isMaker
          execution := some execution }
      .ok { c with rows := c.rows.insert key row }

variable (identity : PrivateRouteIdentity)

def acknowledge : PrivateExecutionCache :=
  if identity.rank < 3 then c
  else match c.rows.lookup identity.fingerprint with
    | none => c
    | some row =>
      if !row.queued && !row.repairDeliveryPending && row.execution.isSome then
        { rows := c.rows.insert identity.fingerprint { row with terminal := true, queued := true }
          reclaimable := c.reclaimable ++ [identity.fingerprint] }
      else { c with rows := c.rows.insert identity.fingerprint { row with terminal := true } }

def needsRepair (trade order : String) (isMaker : Bool) : Bool :=
  (c.rows.lookup (executionKey trade order isMaker)).any fun row => row.execution.isNone

def needsDelivery (trade order : String) (isMaker : Bool) : Bool :=
  (c.rows.lookup (executionKey trade order isMaker)).any fun row => row.repairDeliveryPending

def repairOwnership (trade order : String) : Option Account.TradeOwnership :=
  (c.rows.lookup (executionKey trade order false)).bind fun row => row.repairOwnership

def repairInstance : Option String :=
  (c.rows.lookup identity.fingerprint).bind fun row => row.repairOwnership.map fun o => o.instanceId

def markDelivered : PrivateExecutionCache :=
  match c.rows.lookup identity.fingerprint with
  | none => c
  | some row =>
    let row := { row with repairDeliveryPending := false, repairOwnership := none }
    if row.terminal && !row.queued && row.execution.isSome then
      { rows := c.rows.insert identity.fingerprint { row with queued := true }
        reclaimable := c.reclaimable ++ [identity.fingerprint] }
    else { c with rows := c.rows.insert identity.fingerprint row }

def repair (seed : PrivateExecutionSeed) : Except String PrivateExecutionCache :=
  let trade := seed.ownership
  match seed.execution with
  | none => .error "historical private fee proof remains pending"
  | some execution =>
    let key := executionKey seed.venueTrade trade.orderId seed.isMaker
    match c.rows.lookup key with
    | none => c.insert acked seed.venueTrade trade.orderId trade.tokenId trade.side trade.quantity
        seed.isMaker execution
    | some row =>
      if row.identity ≠ executionIdentity trade.orderId trade.tokenId ∨ row.side ≠ trade.side ∨
          max |trade.quantity| 1 * (1 / 10 ^ 8) < |row.quantity - trade.quantity| then
        .error "private cold fee repair changed identity"
      else match row.execution with
        | some old =>
          if old ≠ execution then .error "private cold fee repair changed frozen economics"
          else .ok c
        | none =>
          let row := { row with
            execution := some execution
            repairDeliveryPending := true
            repairOwnership := some trade }
          .ok { c with rows := c.rows.insert key row }

/-! ## Rows under routing

Routing takes no execution away from a row and gives no row a proof; only a repair does. -/

/-- A property of the row of a leg, of whether its execution is known and of the status that its
proof has. -/
def RowAt (f : Fingerprint) (R : Bool → Option Account.TradeStatus → Prop) : Prop :=
  ∀ row, c.rows.lookup f = some row →
    R row.execution.isSome (row.repairOwnership.map fun proof => proof.status)

instance (f : Fingerprint) (R : Bool → Option Account.TradeStatus → Prop)
    [∀ known proof, Decidable (R known proof)] : Decidable (c.RowAt f R) :=
  inferInstanceAs (Decidable (∀ row ∈ c.rows.lookup f,
    R row.execution.isSome (row.repairOwnership.map fun proof => proof.status)))

/-- Such a property that survives the loss of the proof and holds of a new row. -/
structure Stable (R : Bool → Option Account.TradeStatus → Prop) : Prop where
  cleared : ∀ known proof, R known proof → R known none
  fresh : R true none

/-- Every stable property is kept. -/
def Keeps (c c' : PrivateExecutionCache) : Prop :=
  ∀ f R, Stable R → c.RowAt f R → c'.RowAt f R

variable {c} {f : Fingerprint} {R : Bool → Option Account.TradeStatus → Prop}

lemma RowAt.insertRow (h : c.RowAt f R) {key : Fingerprint} {row : CachedExecution}
    {queue : List Fingerprint}
    (hrow : key = f → R row.execution.isSome (row.repairOwnership.map fun proof => proof.status)) :
    RowAt ⟨c.rows.insert key row, queue⟩ f R := by
  intro new hnew
  by_cases hkey : f = key
  · subst hkey
    rw [AList.lookup_insert] at hnew
    cases hnew
    exact hrow rfl
  · rw [AList.lookup_insert_ne hkey] at hnew
    exact h new hnew

lemma keeps_acknowledge (identity : PrivateRouteIdentity) : Keeps c (c.acknowledge identity) := by
  intro f R _ h
  unfold acknowledge
  split
  · exact h
  split
  · exact h
  next row hrow =>
  split <;> exact h.insertRow fun hf => h row (hf ▸ hrow)

lemma keeps_markDelivered (identity : PrivateRouteIdentity) :
    Keeps c (c.markDelivered identity) := by
  intro f R hR h
  unfold markDelivered
  split
  · exact h
  next row hrow =>
  dsimp only
  split <;> exact h.insertRow fun hf => hR.cleared _ _ (h row (hf ▸ hrow))

lemma keeps_scanAcknowledged : Keeps c (c.scanAcknowledged acked) := by
  intro f R _ h
  refine List.foldlRecOn (motive := fun c' : PrivateExecutionCache => c'.RowAt f R) _ _ h
    fun c' hc' e he => ?_
  split
  · exact hc'.insertRow fun hf => h e.2 (hf ▸ AList.mem_entries_iff.1 he)
  · exact hc'

lemma rowAt_reclaim {queue : List Fingerprint} {rows : AList fun _ : Fingerprint => CachedExecution}
    (h : RowAt ⟨rows, queue⟩ f R) (hc : reclaim queue rows = some c) : c.RowAt f R := by
  induction queue generalizing rows with
  | nil =>
    unfold reclaim at hc
    split at hc
    · cases hc
      exact h
    · cases hc
  | cons old queue ih =>
    unfold reclaim at hc
    split at hc
    · cases hc
      exact h
    dsimp only at hc
    split at hc
    · exact ih h hc
    next row hrow =>
    split at hc
    · refine ih (fun kept hkept => ?_) hc
      by_cases hf : f = old
      · subst hf
        rw [AList.lookup_erase] at hkept
        cases hkept
      · rw [AList.lookup_erase_ne hf] at hkept
        exact h kept hkept
    · refine ih ?_ hc
      exact RowAt.insertRow h fun hf => h row (hf ▸ hrow)

lemma keeps_insert {trade order token : String} {side : Side} {quantity : ℚ} {isMaker : Bool}
    {execution : FrozenTradeExecution} {c' : PrivateExecutionCache}
    (h : c.insert acked trade order token side quantity isMaker execution = .ok c') :
    Keeps c c' := by
  intro f R hR hc
  unfold insert at h
  dsimp only at h
  split at h
  · cases h
    exact hc
  split at h
  · cases h
  next room hroom =>
  cases h
  refine RowAt.insertRow (rowAt_reclaim ?_ hroom) fun _ => hR.fresh
  split
  · exact keeps_scanAcknowledged acked f R hR hc
  · exact hc

end PrivateExecutionCache

end HexAgent.Exchange
