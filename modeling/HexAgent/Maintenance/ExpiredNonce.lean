import Mathlib.Data.List.Flatten
import HexAgent.ToMathlib.BigEndian
import HexAgent.ToMathlib.JsonTree

/-!
# Expired wallet nonces

A signed batch of a deposit wallet whose outcome is unknown keeps its funds reserved.
`expired_nonce_unused` proves from the chain that the batch was never executed and never will be:
at a finalized block after the deadline the nonce of the wallet has not passed the nonce of the
batch.

The chain is described by its blocks. A block has a time, the executions on each wallet with the
nonce before and after each of them, and the nonce at its end. A chain is `Lawful` for a wallet if
times and nonces never fall, and if an execution of a batch is at its exact nonce, raises the nonce
by one, and is not later than its deadline. The replies of the node are arbitrary JSON values. They
`Describe` a block if the finalized header and the nonce read at its hash are those of the block.
-/

namespace HexAgent.Maintenance

open BigEndian List

variable {text : List Char}

/-! ## Texts -/

/-- Value of a digit in a radix. -/
def digitValue (radix : ℕ) (c : Char) : Option ℕ :=
  let v := if '0' ≤ c ∧ c ≤ '9' then c.toNat - 48
    else if 'a' ≤ c ∧ c ≤ 'z' then c.toNat - 87
    else if 'A' ≤ c ∧ c ≤ 'Z' then c.toNat - 55
    else radix
  if v < radix then some v else none

/-- The digits of `from_str_radix`, for an unsigned type with values below `bound`. -/
def parseDigits (radix bound : ℕ) : ℕ → List Char → Except String ℕ
  | value, [] => .ok value
  | value, c :: rest =>
    match digitValue radix c with
    | none => .error "invalid digit found in string"
    | some d =>
      if value * radix + d < bound then parseDigits radix bound (value * radix + d) rest
      else .error "number too large to fit in target type"

def fromStrRadix (radix bound : ℕ) (text : List Char) : Except String ℕ :=
  match text with
  | [] => .error "cannot parse integer from empty string"
  | ['+'] => .error "invalid digit found in string"
  | '+' :: rest => parseDigits radix bound 0 rest
  | text => parseDigits radix bound 0 text

/-- Pairs of hexadecimal digits. -/
def hexPairs : List Char → Except String (List UInt8)
  | [] => .ok []
  | [_] => .error "Odd number of digits"
  | a :: b :: rest =>
    match digitValue 16 a, digitValue 16 b with
    | some high, some low => (hexPairs rest).map (UInt8.ofNat (16 * high + low) :: ·)
    | _, _ => .error "Invalid character"

/-- `hex::decode`. -/
def hexDecode (text : List Char) : Except String (List UInt8) :=
  if (String.ofList text).utf8ByteSize % 2 = 1 then .error "Odd number of digits" else hexPairs text

def hexDigit (n : ℕ) : Char := ("0123456789abcdef".toList)[n]?.getD '0'

/-- `hex::encode`. -/
def hexEncode (bytes : List UInt8) : List Char :=
  bytes.flatMap fun b => [hexDigit (b.toNat / 16), hexDigit (b.toNat % 16)]

def eqIgnoreAsciiCase (a b : List Char) : Bool := a.map Char.toLower = b.map Char.toLower

def stripHexMark (text : String) : Option (List Char) := text.toList.dropPrefix? ['0', 'x']

/-- `as_str` of a field. -/
def textAt (j : Json) (key : String) : Option String :=
  match j.child key with
  | some (.str s) => some s
  | _ => none

/-- A field, or `null`. -/
def valueAt (j : Json) (key : String) : Json := (j.child key).getD .null

def orError {α : Type} (error : String) : Option α → Except String α
  | some a => .ok a
  | none => .error error

def ensure (condition : Bool) (error : String) : Except String Unit :=
  if condition then .ok () else .error error

/-! ## The proof -/

/-- Durable identity of a signed batch, without the cutoff of its retries. -/
structure MaintenanceWalletSubmission where
  signer : String
  depositWallet : String
  nonce : String
  bodyHash : String
  deadlineSecs : ℕ
  deriving DecidableEq

structure UnusedNonceProof where
  blockNumber : String
  blockHash : String
  timestamp : ℕ
  deriving DecidableEq

/-- The requests to the node. Calls are read at a canonical block hash. -/
inductive RpcRequest
  | chainId
  | getBlockByNumber (number : String)
  | call (contract data blockHash : String)
  deriving DecidableEq

/-- Replies of the node, by the number of the request. -/
abbrev Rpc := ℕ → RpcRequest → Except String Json

/-- `word`: the field `key` is one ABI word. -/
def word (j : Json) (key : String) : Except String (List UInt8) := do
  let raw ← orError "RPC result is not a hex ABI word" ((textAt j key).bind stripHexMark)
  let bytes ← hexDecode raw
  ensure (bytes.length = 32) "RPC result is not exactly one ABI word"
  .ok bytes

def isAddress (address : String) : Except String Unit := do
  ensure (address.utf8ByteSize = 42 && (stripHexMark address).isSome)
    "invalid durable WALLET owner address"
  let bytes ← hexDecode (address.toList.drop 2)
  ensure (bytes.length = 20) "invalid durable WALLET owner address"

/-- Call data of a function without arguments. -/
def selector (keccak256 : String → List UInt8) (signature : String) : String :=
  String.ofList ('0' :: 'x' :: hexEncode ((keccak256 signature).take 4))

/-- Time of a block header. -/
def headerTimestamp (block : Json) : Option ℕ := do
  let raw ← (textAt block "timestamp").bind stripHexMark
  match fromStrRadix 16 (2 ^ 64) raw with
  | .ok timestamp => some timestamp
  | .error _ => none

/-- The nonce as an ABI word. -/
def expectedWord (nonce : ℕ) : List UInt8 := replicate 16 0 ++ bytes 16 nonce

section

variable (keccak256 : String → List UInt8) (submission : MaintenanceWalletSubmission) (rpc : Rpc)

/-- The reads at the finalized block. -/
def readCounter (hash : String) : Except String (List UInt8) := do
  let ownerReply ← rpc 2 (.call submission.depositWallet (selector keccak256 "owner()") hash)
  let owner ← word ownerReply "result"
  ensure (owner.take 12 = replicate 12 0 &&
      eqIgnoreAsciiCase (hexEncode (owner.drop 12)) (submission.signer.toList.drop 2))
    "finalized WALLET owner differs from journal signer"
  let nonceReply ← rpc 3 (.call submission.depositWallet (selector keccak256 "nonce()") hash)
  word nonceReply "result"

/-- The rest of `expired_nonce_unused`, at a finalized header after the deadline. -/
def unusedAt (nonce : ℕ) (block : Json) (timestamp : ℕ) :
    Except String (Option UnusedNonceProof) := do
  let hash ← orError "missing finalized block hash" (textAt block "hash")
  let hashWord ← word block "hash"
  ensure (hashWord ≠ replicate 32 0) "zero finalized block hash"
  let number ← orError "missing finalized block number" (textAt block "number")
  let digits ← orError "invalid finalized block number" (stripHexMark number)
  let _ ← fromStrRadix 16 (2 ^ 64) digits
  let counter ← readCounter keccak256 submission rpc hash
  let unchanged ← rpc 4 (.getBlockByNumber number)
  ensure (textAt (valueAt unchanged "result") "hash" = some hash)
    "finalized recovery anchor changed"
  .ok (if lexLe counter (expectedWord nonce) then some ⟨number, hash, timestamp⟩ else none)

def expiredNonceUnused : Except String (Option UnusedNonceProof) := do
  let nonce ← fromStrRadix 10 (2 ^ 128) submission.nonce.toList
  ensure (submission.deadlineSecs ≠ 0 && submission.bodyHash.utf8ByteSize = 64 &&
      submission.bodyHash.toList.all fun c => (digitValue 16 c).isSome)
    "invalid durable WALLET request identity"
  isAddress submission.signer
  isAddress submission.depositWallet
  let chain ← rpc 0 .chainId
  ensure (textAt chain "result" = some "0x89") "split recovery requires Polygon mainnet"
  let header ← rpc 1 (.getBlockByNumber "finalized")
  let block := valueAt header "result"
  let timestamp ← orError "missing finalized block timestamp" (headerTimestamp block)
  if timestamp ≤ submission.deadlineSecs then .ok none
  else unusedAt keccak256 submission rpc nonce block timestamp

end

/-! ## The chain -/

/-- Bytes of an address. -/
abbrev Address := List UInt8

/-- A signed batch of a wallet. -/
structure Batch where
  wallet : Address
  nonce : ℕ
  deadline : ℕ
  bodyHash : String
  deriving DecidableEq

/-- A use of a wallet with its nonce before and after, and the batch that it executed. -/
structure WalletExecution where
  before : ℕ
  after : ℕ
  batch : Option Batch := none
  deriving DecidableEq

structure ChainBlock where
  hash : String
  timestamp : ℕ
  executions : Address → List WalletExecution
  /-- Nonces at the end of the block. -/
  nonce : Address → ℕ

/-- The nonces of a wallet in the course of a block. -/
def ChainBlock.nonces (block : ChainBlock) (wallet : Address) : List ℕ :=
  (block.executions wallet).flatMap (fun e => [e.before, e.after]) ++ [block.nonce wallet]

/-- What the wallet contract and the consensus guarantee. -/
structure Lawful (chain : List ChainBlock) (wallet : Address) : Prop where
  timestamps : chain.Pairwise fun a b => a.timestamp ≤ b.timestamp
  monotone : (chain.flatMap fun block => block.nonces wallet).Pairwise (· ≤ ·)
  exact : ∀ block ∈ chain, ∀ e ∈ block.executions wallet, ∀ b, e.batch = some b →
    e.before = b.nonce ∧ e.after = b.nonce + 1 ∧ block.timestamp ≤ b.deadline

/-- The batch was executed somewhere in the chain. -/
def Executed (chain : List ChainBlock) (b : Batch) : Prop :=
  ∃ block ∈ chain, ∃ e ∈ block.executions b.wallet, e.batch = some b

/-- At a block after its deadline whose nonce has not passed its own, a batch was not executed, and
no longer can be. -/
lemma not_executed {before later : List ChainBlock} {block : ChainBlock} {b : Batch}
    (hchain : Lawful (before ++ block :: later) b.wallet) (hnonce : block.nonce b.wallet ≤ b.nonce)
    (htime : b.deadline < block.timestamp) : ¬ Executed (before ++ block :: later) b := by
  rintro ⟨at', hat, e, he, hbatch⟩
  obtain ⟨-, hpost, hdeadl⟩ := hchain.exact at' hat e he b hbatch
  have htimes := (pairwise_append.1 hchain.timestamps).2.1
  rcases mem_append.1 hat with hat | hat
  · -- Before the block: the nonce has passed and cannot fall again.
    have hmon := hchain.monotone
    rw [flatMap_append, pairwise_append] at hmon
    have hle := hmon.2.2 e.after
      (mem_flatMap.2 ⟨at', hat, mem_append_left _ (mem_flatMap.2 ⟨e, he, by simp⟩)⟩)
      (block.nonce b.wallet)
      (mem_flatMap.2 ⟨block, mem_cons_self, mem_append_right _ (by simp)⟩)
    omega
  · rcases mem_cons.1 hat with rfl | hat
    · omega
    · have hle := (pairwise_cons.1 htimes).1 at' hat
      omega

/-! ## Replies of the node -/

/-- Bytes of an address in its text form. -/
def addressBytes (address : String) : Except String Address := hexDecode (address.toList.drop 2)

variable {rpc : Rpc}

/-- The finalized header is that of the block, and the nonce of a wallet that is read at the hash of
the block is its nonce there. -/
structure Describes (keccak256 : String → List UInt8) (rpc : Rpc) (block : ChainBlock) : Prop where
  header : ∀ n reply, rpc n (.getBlockByNumber "finalized") = .ok reply →
    (∀ timestamp, headerTimestamp (valueAt reply "result") = some timestamp →
      timestamp = block.timestamp) ∧
    ∀ hash, textAt (valueAt reply "result") "hash" = some hash → hash = block.hash
  nonce : ∀ n wallet reply counter address,
    rpc n (.call wallet (selector keccak256 "nonce()") block.hash) = .ok reply →
    word reply "result" = .ok counter → addressBytes wallet = .ok address →
    value counter = block.nonce address

variable {submission : MaintenanceWalletSubmission}

/-- The batch is the one that was signed for the submission. -/
structure Batch.SignedFor (b : Batch) (submission : MaintenanceWalletSubmission) : Prop where
  wallet : addressBytes submission.depositWallet = .ok b.wallet
  nonce : fromStrRadix 10 (2 ^ 128) submission.nonce.toList = .ok b.nonce
  deadline : b.deadline = submission.deadlineSecs
  bodyHash : b.bodyHash = submission.bodyHash

/-- In no chain with a block that the node describes, however it goes on, the batch is executed. -/
def Unexecutable (keccak256 : String → List UInt8) (rpc : Rpc)
    (submission : MaintenanceWalletSubmission) : Prop :=
  ∀ (before later : List ChainBlock) (block : ChainBlock) (b : Batch),
    Describes keccak256 rpc block → b.SignedFor submission →
    Lawful (before ++ block :: later) b.wallet → ¬ Executed (before ++ block :: later) b

/-! ## Soundness -/

lemma bind_eq_ok_iff {ε α β : Type} {x : Except ε α} {f : α → Except ε β} {r : β} :
    x >>= f = .ok r ↔ ∃ a, x = .ok a ∧ f a = .ok r := by
  cases x with
  | error e => exact ⟨nofun, fun ⟨_, h, _⟩ => nomatch h⟩
  | ok a => exact ⟨fun h => ⟨a, rfl, h⟩, fun ⟨_, ha, h⟩ => by cases ha; exact h⟩

lemma orError_eq_ok_iff {α : Type} {error : String} {o : Option α} {a : α} :
    orError error o = .ok a ↔ o = some a := by
  cases o with
  | none => exact ⟨nofun, nofun⟩
  | some b => simp [orError]

lemma parseDigits_lt {radix bound value n : ℕ} (hvalue : value < bound)
    (h : parseDigits radix bound value text = .ok n) : n < bound := by
  induction text generalizing value with
  | nil =>
    cases h
    exact hvalue
  | cons c rest ih =>
    rw [parseDigits] at h
    split at h
    · cases h
    · split at h
      · next hlt => exact ih hlt h
      · cases h

lemma fromStrRadix_lt {radix bound n : ℕ} (hbound : 0 < bound)
    (h : fromStrRadix radix bound text = .ok n) : n < bound := by
  unfold fromStrRadix at h
  split at h
  · cases h
  · cases h
  · exact parseDigits_lt hbound h
  · exact parseDigits_lt hbound h

lemma word_length {j : Json} {key : String} {bytes : List UInt8} (h : word j key = .ok bytes) :
    bytes.length = 32 := by
  obtain ⟨raw, _, h⟩ := bind_eq_ok_iff.1 h
  obtain ⟨decoded, _, h⟩ := bind_eq_ok_iff.1 h
  obtain ⟨_, hlen, h⟩ := bind_eq_ok_iff.1 h
  cases h
  unfold ensure at hlen
  split at hlen
  · next heq => exact of_decide_eq_true heq
  · cases hlen

/-- The order of words is the order of nonces. -/
lemma value_le_of_lexLe {counter : List UInt8} {nonce : ℕ} (hlen : counter.length = 32)
    (hnonce : nonce < 2 ^ 128) (h : lexLe counter (expectedWord nonce) = true) :
    value counter ≤ nonce := by
  have hpad k l :
      value (replicate k 0 ++ l) = value l := by
    induction k with
    | zero => rfl
    | succ k ih => simpa [replicate_succ, value] using ih
  have hexp : (expectedWord nonce).length = 32 := by simp [expectedWord]
  have hle := (lexLe_iff (hlen.trans hexp.symm)).1 h
  have hvalue : value (expectedWord nonce) = nonce := by
    rw [expectedWord, hpad]
    exact value_bytes (Nat.lt_of_lt_of_le hnonce (by decide))
  omega

variable {keccak256 : String → List UInt8} {proof : UnusedNonceProof}
  (h : expiredNonceUnused keccak256 submission rpc = .ok (some proof))
include h

/-- What a proof has seen: a finalized header after the deadline, and a nonce word at its hash that
is not above the nonce of the submission. -/
lemma expiredNonceUnused_some : ∃ nonce header reply counter,
      fromStrRadix 10 (2 ^ 128) submission.nonce.toList = .ok nonce ∧
      rpc 1 (.getBlockByNumber "finalized") = .ok header ∧
      headerTimestamp (valueAt header "result") = some proof.timestamp ∧
      submission.deadlineSecs < proof.timestamp ∧
      textAt (valueAt header "result") "hash" = some proof.blockHash ∧
      rpc 3 (.call submission.depositWallet (selector keccak256 "nonce()") proof.blockHash) =
        .ok reply ∧
      word reply "result" = .ok counter ∧
      lexLe counter (expectedWord nonce) = true := by
  unfold expiredNonceUnused at h
  simp only [bind_eq_ok_iff] at h
  obtain ⟨nonce, hnonce, _, _, _, _, _, _, _, _, _, _, header, hheader, timestamp, htim, h⟩ := h
  rw [orError_eq_ok_iff] at htim
  split at h
  · cases h
  next hlate =>
  obtain ⟨hash, hhash, h⟩ := bind_eq_ok_iff.1 h
  rw [orError_eq_ok_iff] at hhash
  simp only [readCounter, bind_eq_ok_iff] at h
  obtain ⟨_, _, _, _, _, _, _, _, _, _, counter, ⟨_, _, _, _, _, _, reply, hreply, hcounter⟩, _, _,
    _, _, h⟩ := h
  have hproof := Except.ok.inj h
  split at hproof
  · next hle =>
    cases hproof
    exact ⟨nonce, header, reply, counter, hnonce, hheader, htim, Nat.lt_of_not_le hlate,
      hhash, hreply, hcounter, hle⟩
  · cases hproof

/-- A proof is only given for a batch that was not executed and never can be. -/
lemma unexecutable_of_proof : Unexecutable keccak256 rpc submission := by
  obtain ⟨nonce, header, reply, counter, hnonce, hheader, htim, hlate, hhash, hreply, hcounter,
    hle⟩ := expiredNonceUnused_some h
  intro before later block b hdesc hsigned hchain
  obtain ⟨htime, hblock⟩ := hdesc.header 1 header hheader
  have hbatch : b.nonce = nonce := Except.ok.inj (hsigned.nonce.symm.trans hnonce)
  have hvalue : value counter = block.nonce b.wallet := by
    rw [hblock _ hhash] at hreply
    exact hdesc.nonce 3 _ reply counter b.wallet hreply hcounter hsigned.wallet
  refine not_executed hchain ?_ ?_
  · rw [← hvalue, hbatch]
    exact value_le_of_lexLe (word_length hcounter) (fromStrRadix_lt (by decide) hnonce) hle
  · rw [hsigned.deadline, ← htime _ htim]
    exact hlate

end HexAgent.Maintenance
