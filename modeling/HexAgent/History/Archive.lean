import HexAgent.Exchange.PrivateEvents

/-!
# The history archive

Proofs of retired trades and orders leave the hot ledger for a table on disk. Before an event of an
unknown trade or order may be booked, the private owners ask the archive for a hint
(`unverified_hint`): a Bloom filter over the archived keys, and a small table of certificates of
absence for keys on which the filter was found wrong.

One cold owner writes: `store` commits proofs, filter and generation in one transaction and then
publishes generation and filter bits; a lookup that finds nothing records a certificate. Readers
run at any time and never wait. `ColdTask` and `HintCall` are the two sides by the atomic operation
that comes next, and the runs of `ArchiveState` are the sequentially consistent interleavings. The
filter is modelled bit by bit. The cold owner alone writes, so what it reads back from memory or
disk is read in the step that uses it.

A certificate is guarded by the sequence number of its slot, which is odd while the slot is
rewritten. Sequence numbers are natural numbers here. Payloads are compared as values, and stand
for their serialised text with its checksum. A `reopen` is the start of a new process: the memory is
read from disk and the cold owner starts anew, possibly after a crash in the middle of a store.
-/

namespace HexAgent.History

open Function

open HexAgent.Exchange (asciiLower)

/-! ## Keys -/

def filterBytes : ℕ := 512 * 1024

def maxLookupRows : ℕ := 128

def absenceSlots : ℕ := 64

def absenceKeyBytes : ℕ := 128

/-- Kind of a proof about a trade. -/
def tradeKind : UInt8 := 1

/-- Kind of a proof about an order. -/
def orderKind : UInt8 := 2

/-- `base_trade_key`: a trade key up to the first colon. -/
def baseTradeKey (key : String) : String := String.ofList (key.toList.takeWhile (· ≠ ':'))

variable (kind : UInt8)

def absenceKey (key : String) : String :=
  if kind = orderKind then String.ofList (orderIdView key) else baseTradeKey key

/-- The bytes of a string. -/
def keyBytes (key : String) : List UInt8 := key.toList.flatMap String.utf8EncodeChar

def absenceBytes (key : String) : List UInt8 :=
  (keyBytes key).map fun byte => if kind = orderKind then asciiLower byte else byte

def fnv1a (start : UInt64) (bytes : List UInt8) : UInt64 :=
  bytes.foldl (fun hash byte => (hash ^^^ byte.toUInt64) * 0x100000001b3) start

/-- `absence_fingerprint`, from the bytes. -/
def absenceFingerprint (bytes : List UInt8) : UInt64 := fnv1a 0xcbf29ce484222325 bytes

def filterIndices (key : String) : List ℕ :=
  let text := if kind = orderKind then String.ofList (orderIdView key) else key
  let hash := fnv1a (0xcbf29ce484222325 ^^^ kind.toUInt64) (absenceBytes kind text)
  let step := ((hash <<< 31) ||| (hash >>> 33)) ||| 1
  (List.range 4).map fun i => (hash + i.toUInt64 * step).toNat % (filterBytes * 8)

/-- Bits of the membership filter. -/
abbrev Filter := ℕ → Bool

def mayContain (filter : Filter) (kind : UInt8) (key : String) : Bool :=
  key ≠ "" && (filterIndices kind key).all filter

/-! ## The table on disk -/

/-- A `RetiredTradeOwnershipTombstone`: account and key of its ownership, and all else. -/
structure TradeProof (ρ : Type) where
  accountId : String
  tradeKey : String
  content : ρ
  retiredAtMs : ℕ
  deriving DecidableEq

/-- A `RetiredOrderAuditTombstone`. -/
structure OrderProof (ρ : Type) where
  orderId : String
  content : ρ
  auditedAtMs : ℕ
  deriving DecidableEq

inductive Payload (ρ : Type)
  | trade (proof : TradeProof ρ)
  | order (proof : OrderProof ρ)
  deriving DecidableEq

/-- A row of the table `proof`. -/
structure ProofRow (ρ : Type) where
  kind : UInt8
  key : String
  baseKey : String
  payload : Payload ρ
  deriving DecidableEq

/-- The table with its metadata. -/
structure Disk (ρ : Type) where
  generation : ℕ := 1
  filter : Filter := fun _ => false
  rows : List (ProofRow ρ) := []

structure ArchiveRows (ρ : Type) where
  trades : List (String × TradeProof ρ) := []
  orders : List (String × OrderProof ρ) := []

/-- What the archive knows about its account, and the comparison of proofs that older releases
replayed with a rounded price. -/
structure ArchiveContext (ρ : Type) where
  accountId : String
  legacyReplayedTradePrice : TradeProof ρ → TradeProof ρ → Bool

variable {ρ : Type} [DecidableEq ρ]

/-- The rows to be stored, in order. -/
def ArchiveRows.entries (rows : ArchiveRows ρ) : List (ProofRow ρ) :=
  (rows.trades.map fun (key, row) =>
    ⟨tradeKind, key, baseTradeKey key, .trade { row with retiredAtMs := 0 }⟩) ++
  rows.orders.map fun (key, row) => ⟨orderKind, key, key, .order { row with auditedAtMs := 0 }⟩

/-- The bits of the rows, in the order in which they are published. -/
def ArchiveRows.bits (rows : ArchiveRows ρ) : List ℕ :=
  rows.entries.flatMap fun row => filterIndices row.kind row.baseKey

section

variable (ctx : ArchiveContext ρ)

/-- `store_row`: a proof that exists is not changed. -/
def storeRow (table : List (ProofRow ρ)) (row : ProofRow ρ) : Except String (List (ProofRow ρ)) :=
  match table.find? fun previous => previous.kind = row.kind && previous.key = row.key with
  | none => .ok (table ++ [row])
  | some previous =>
    if previous.payload = row.payload then .ok table
    else
      match previous.payload, row.payload with
      | .trade old, .trade new =>
        if ctx.legacyReplayedTradePrice new old then .ok table
        else .error s!"history archive immutable proof changed kind={row.kind} key={row.key}"
      | _, _ => .error s!"history archive immutable proof changed kind={row.kind} key={row.key}"

/-- The transaction of `store`. -/
def Disk.store (d : Disk ρ) (rows : ArchiveRows ρ) : Except String (Disk ρ) := do
  let table ← rows.entries.foldlM (storeRow ctx) d.rows
  if d.generation + 1 < 2 ^ 64 then
    .ok {
      generation := d.generation + 1
      filter := fun bit => d.filter bit || decide (bit ∈ rows.bits)
      rows := table }
  else .error "history archive generation exhausted"

/-- A row that was found is checked against the key that was asked for, and gets a fresh time. -/
def checkRow (kind : UInt8) (key : String) (nowMs : ℕ)
    (row : ProofRow ρ) : Except String (ProofRow ρ) :=
  match row.payload with
  | .trade proof =>
    if kind = tradeKind then
      if proof.accountId ≠ ctx.accountId ∨ proof.tradeKey ≠ row.key ∨
          baseTradeKey row.key ≠ key then
        .error "history archive trade identity mismatch"
      else .ok { row with payload := .trade { proof with retiredAtMs := nowMs } }
    else .error "invalid history archive proof kind"
  | .order proof =>
    if kind = orderKind then
      if normalizeOrderId proof.orderId ≠ row.key ∨ row.key ≠ key then
        .error "history archive order identity mismatch"
      else .ok { row with payload := .order { proof with auditedAtMs := nowMs } }
    else .error "invalid history archive proof kind"

/-- The loop over the rows of a query, with the number of rows so far. -/
def loadRows (kind : UInt8) (key : String) (nowMs : ℕ) :
    ℕ → List (ProofRow ρ) → Except String (List (ProofRow ρ))
  | _, [] => .ok []
  | count, row :: rest =>
    if count = maxLookupRows then
      .error "history archive lookup exceeds bounded replay batch"
    else do
      let found ← checkRow ctx kind key nowMs row
      let others ← loadRows kind key nowMs (count + 1) rest
      .ok (found :: others)

def load (filter : Filter) (d : Disk ρ) (kind : UInt8) (key : String)
    (nowMs : ℕ) : Except String (List (ProofRow ρ)) :=
  if mayContain filter kind key then
    loadRows ctx kind key nowMs 0
      ((d.rows.filter fun row => row.kind = kind && row.baseKey = key).take (maxLookupRows + 1))
  else .ok []

end

/-! ## The archive in memory -/

/-- A slot for a certificate of absence. -/
structure VerifiedAbsence where
  sequence : ℕ := 0
  kind : UInt8 := 0
  generation : ℕ := 0
  fingerprint : UInt64 := 0
  length : ℕ := 0
  key : ℕ → UInt8 := fun _ => 0

/-- The published part of a `HistoryArchive`. -/
structure Memory where
  filter : Filter
  generation : ℕ
  absenceCursor : ℕ := 0
  absences : Fin absenceSlots → VerifiedAbsence := fun _ => {}

def Memory.open (d : Disk ρ) : Memory where
  filter := d.filter
  generation := d.generation

/-- What is written into a slot, and what a reader compares with it. -/
structure Certificate where
  kind : UInt8
  generation : ℕ
  bytes : List UInt8
  deriving DecidableEq

/-- The guarded cells of a slot. -/
inductive SlotField
  | kind
  | generation
  | fingerprint
  | length
  | byte (index : ℕ)
  deriving DecidableEq

/-- The cell after this one, for a key of the given length. -/
def SlotField.next (length : ℕ) : SlotField → Option SlotField
  | .kind => some .generation
  | .generation => some .fingerprint
  | .fingerprint => some .length
  | .length => if 0 < length then some (.byte 0) else none
  | .byte index => if index + 1 < length then some (.byte (index + 1)) else none

namespace VerifiedAbsence

/-- Load a cell. -/
def read (slot : VerifiedAbsence) : SlotField → ℕ
  | .kind => slot.kind.toNat
  | .generation => slot.generation
  | .fingerprint => slot.fingerprint.toNat
  | .length => slot.length
  | .byte index => (slot.key index).toNat

/-- Store a cell of the certificate. -/
def write (slot : VerifiedAbsence) (c : Certificate) : SlotField → VerifiedAbsence
  | .kind => { slot with kind := c.kind }
  | .generation => { slot with generation := c.generation }
  | .fingerprint => { slot with fingerprint := absenceFingerprint c.bytes }
  | .length => { slot with length := c.bytes.length }
  | .byte index => { slot with key := update slot.key index (c.bytes.getD index 0) }

end VerifiedAbsence

/-- The value that a certificate has for a cell. -/
def Certificate.read (c : Certificate) : SlotField → ℕ
  | .kind => c.kind.toNat
  | .generation => c.generation
  | .fingerprint => (absenceFingerprint c.bytes).toNat
  | .length => c.bytes.length
  | .byte index => (c.bytes.getD index 0).toNat

/-- Change one slot. -/
def Memory.modify (m : Memory) (slot : Fin absenceSlots)
    (f : VerifiedAbsence → VerifiedAbsence) : Memory :=
  { m with absences := update m.absences slot (f (m.absences slot)) }

/-! ## The cold owner -/

/-- The operations of `record_verified_identity_absence`, in order. -/
inductive RecordStage
  /-- Make the sequence number odd. -/
  | open
  | store (field : SlotField)
  /-- Make it even again. -/
  | close
  deriving DecidableEq

/-- The cold owner, by its next operation. -/
inductive ColdTask (ρ : Type)
  | idle
  /-- `store` after the commit: publish the generation, then the filter bits, then return. -/
  | publishGeneration (generation : ℕ) (rows : ArchiveRows ρ)
  | publishFilter (bits : List ℕ) (rows : ArchiveRows ρ)
  | record (slot : Fin absenceSlots) (c : Certificate) (stage : RecordStage)

/-! ## Hints -/

/-- The operations of `unverified_hint`, in order. -/
inductive HintStage
  /-- `may_contain`: the bits that are left to test. -/
  | filter (bits : List ℕ)
  | generation
  | sequence (slot : Fin absenceSlots) (generation : ℕ)
  | compare (slot : Fin absenceSlots) (generation sequence : ℕ) (field : SlotField)
  /-- All cells agree: load the sequence number again, then the generation. -/
  | recheckSequence (slot : Fin absenceSlots) (generation sequence : ℕ)
  | recheckGeneration (slot : Fin absenceSlots) (generation : ℕ)
  | returned (hint : Bool)
  deriving DecidableEq

/-- A call of `unverified_hint`. -/
structure HintCall where
  /-- The process in which it runs. -/
  epoch : ℕ
  kind : UInt8
  identity : String
  stage : HintStage
  /-- A store of the key had returned when the call started. Nothing reads it. -/
  owed : Bool
  deriving DecidableEq

namespace HintCall

def key (call : HintCall) : String := absenceKey call.kind call.identity

def bytes (call : HintCall) : List UInt8 := absenceBytes call.kind call.key

/-- The certificate that would answer the call. -/
def certificate (call : HintCall) (generation : ℕ) : Certificate :=
  ⟨call.kind, generation, call.bytes⟩

/-- The next round of the loop over the slots. -/
def nextSlot (slot : Fin absenceSlots) (generation : ℕ) : HintStage :=
  if h : slot + 1 < absenceSlots then .sequence ⟨slot + 1, h⟩ generation else .returned true

/-- The next operation of a call. -/
def next (m : Memory) (call : HintCall) : Option HintStage :=
  match call.stage with
  | .filter [] => some .generation
  | .filter (bit :: bits) => some (if m.filter bit then .filter bits else .returned false)
  | .generation => some (.sequence ⟨0, by decide⟩ m.generation)
  | .sequence slot generation =>
    let sequence := (m.absences slot).sequence
    if sequence = 0 ∨ sequence % 2 ≠ 0 then some (nextSlot slot generation)
    else some (.compare slot generation sequence .kind)
  | .compare slot generation sequence field =>
    if (m.absences slot).read field ≠ (call.certificate generation).read field then
      some (nextSlot slot generation)
    else if field = .length ∧ absenceKeyBytes < call.bytes.length then
      some (nextSlot slot generation)
    else
      match field.next call.bytes.length with
      | some field => some (.compare slot generation sequence field)
      | none => some (.recheckSequence slot generation sequence)
  | .recheckSequence slot generation sequence =>
    if (m.absences slot).sequence = sequence then some (.recheckGeneration slot generation)
    else some (nextSlot slot generation)
  | .recheckGeneration slot generation =>
    if m.generation = generation then some (.returned false)
    else some (nextSlot slot generation)
  | .returned _ => none

end HintCall

/-! ## Runs -/

/-- A key whose store has returned. -/
structure StoredKey where
  kind : UInt8
  baseKey : String
  generation : ℕ
  epoch : ℕ
  deriving DecidableEq

/-- A lookup with the number of rows that it found. -/
structure Lookup where
  kind : UInt8
  identity : String
  found : ℕ
  deriving DecidableEq

structure ArchiveState (ρ : Type) where
  disk : Disk ρ
  /-- The present process, and the memory of each process. -/
  epoch : ℕ := 0
  memory : ℕ → Memory
  cold : ColdTask ρ := .idle
  calls : List HintCall := []
  /-- The stores that have returned and the lookups so far. Nothing reads them. -/
  returned : List StoredKey := []
  lookups : List Lookup := []

/-- How a commit ends. -/
inductive CommitAnswer
  | committed
  /-- An error is reported; the transaction may still be on disk. -/
  | failed (durable : Bool)
  deriving DecidableEq

inductive ArchiveAction (ρ : Type)
  /-- The cold owner starts a store, a lookup, or does its next operation. -/
  | store (rows : ArchiveRows ρ) (answer : CommitAnswer)
  | lookup (kind : UInt8) (identity : String) (nowMs : ℕ)
  | cold
  | reopen
  /-- A reader starts a call, or a call does its next operation. -/
  | hint (kind : UInt8) (identity : String)
  | advance (call : ℕ)

/-- The key under which a proof about the identity is stored. -/
def storedKey (identity : String) : String :=
  if kind = orderKind then normalizeOrderId identity else baseTradeKey identity

namespace ArchiveState

variable (s : ArchiveState ρ)

/-- The memory of the present process. -/
def current : Memory := s.memory s.epoch

def setCurrent (m : Memory) : ArchiveState ρ :=
  { s with memory := update s.memory s.epoch m }

/-- An archive that was just created. -/
def new : ArchiveState ρ where
  disk := {}
  memory := fun _ => Memory.open ({} : Disk ρ)

/-- The next operation of the cold owner. -/
def stepCold : Option (ArchiveState ρ) :=
  match s.cold with
  | .idle => none
  | .publishGeneration generation rows =>
    some { s.setCurrent { s.current with generation := generation } with
      cold := .publishFilter rows.bits rows }
  | .publishFilter (bit :: bits) rows =>
    some { s.setCurrent { s.current with filter := update s.current.filter bit true } with
      cold := .publishFilter bits rows }
  | .publishFilter [] rows =>
    some { s with
      cold := .idle
      returned := s.returned ++ rows.entries.map fun row =>
        ⟨row.kind, row.baseKey, s.current.generation, s.epoch⟩ }
  | .record slot c .open =>
    some { s.setCurrent (s.current.modify slot fun a => { a with sequence := a.sequence + 1 }) with
      cold := .record slot c (.store .kind) }
  | .record slot c (.store field) =>
    some { s.setCurrent (s.current.modify slot fun a => a.write c field) with
      cold := .record slot c
        (match field.next c.bytes.length with
        | some field => .store field
        | none => .close) }
  | .record slot _ .close =>
    some { s.setCurrent (s.current.modify slot fun a => { a with sequence := a.sequence + 1 }) with
      cold := .idle }

/-- The cold owner looks a key up, and begins to record a certificate if nothing is found. -/
def startLookup (ctx : ArchiveContext ρ) (s : ArchiveState ρ) (kind : UInt8) (identity : String)
    (nowMs : ℕ) : ArchiveState ρ :=
  match load ctx s.current.filter s.disk kind identity nowMs with
  | .error _ => s
  | .ok rows =>
    let s := { s with lookups := s.lookups ++ [⟨kind, identity, rows.length⟩] }
    let bytes := absenceBytes kind (absenceKey kind identity)
    if rows = [] ∧ bytes.length ≤ absenceKeyBytes then
      let slot : Fin absenceSlots :=
        ⟨s.current.absenceCursor % absenceSlots, Nat.mod_lt _ (by decide)⟩
      { s.setCurrent { s.current with absenceCursor := s.current.absenceCursor + 1 } with
        cold := .record slot ⟨kind, s.current.generation, bytes⟩ .open }
    else s

/-- One action, if it is possible. -/
def step (ctx : ArchiveContext ρ) (s : ArchiveState ρ) : ArchiveAction ρ → Option (ArchiveState ρ)
  | .store rows answer =>
    match s.cold with
    | .idle =>
      match s.disk.store ctx rows, answer with
      | .error _, _ => some s
      | .ok disk, .committed =>
        some { s with disk := disk, cold := .publishGeneration disk.generation rows }
      | .ok disk, .failed durable => some { s with disk := if durable then disk else s.disk }
    | _ => none
  | .lookup kind identity nowMs =>
    match s.cold with
    | .idle => some (s.startLookup ctx kind identity nowMs)
    | _ => none
  | .cold => s.stepCold
  | .reopen =>
    some { s with
      epoch := s.epoch + 1
      memory := update s.memory (s.epoch + 1) (Memory.open s.disk)
      cold := .idle }
  | .hint kind identity =>
    let key := absenceKey kind identity
    some { s with calls := s.calls ++ [{
      epoch := s.epoch
      kind := kind
      identity := identity
      stage := if key = "" then .returned false else .filter (filterIndices kind key)
      owed := s.returned.any fun k => k.kind = kind && k.baseKey = storedKey kind identity }] }
  | .advance i =>
    match s.calls[i]? with
    | none => none
    | some call => (call.next (s.memory call.epoch)).map fun stage =>
        { s with calls := s.calls.set i { call with stage := stage } }

/-- The actions in order, if each is possible. -/
def run (ctx : ArchiveContext ρ) (s : ArchiveState ρ) :
    List (ArchiveAction ρ) → Option (ArchiveState ρ)
  | [] => some s
  | a :: actions => (s.step ctx a).bind fun s' => s'.run ctx actions

end ArchiveState

end HexAgent.History
