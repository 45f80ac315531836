import HexAgent.Maintenance.ExpiredNonce

/-!
# Submission of wallet batches

A batch of a deposit wallet is signed once, with a nonce and a deadline, and posted to the relayer.
A reply that is lost does not tell whether the relayer has taken the batch. The inner loop
(`submitWithAmbiguousRecoveryDeadline`) then looks for the batch in the relayer's list of actions
before it posts the same body again, and marks its error as ambiguous if it has to give up. The
outer loop (`submitWalletBatchWithHook`) prepares the batch, hands its identity to the journal, and
repeats the inner loop while the relayer has not registered the wallet yet.

The relayer and the clock answer each request from a stream. A run keeps the events that matter
outside: the intent that is handed over, readings of the clock, posts with their results, and
lookups. Log lines and the pauses between requests are left out; a lookup stands for its retried
`GET`.
-/

namespace HexAgent.Wallet

open HexAgent.Maintenance

/-! ## Errors -/

/-- The markers that an error can carry. -/
inductive ErrorMark
  | none
  /-- `RetryableRelayerError`. -/
  | retryable
  /-- `AmbiguousWalletSubmit`. -/
  | ambiguous
  deriving DecidableEq

structure SubmitError where
  mark : ErrorMark := .none
  text : String
  deriving DecidableEq

def retryableRelayerError (detail : String) : SubmitError := ⟨.retryable, detail⟩

def ambiguousWalletError (e : SubmitError) : SubmitError := ⟨.ambiguous, e.text⟩

def walletSubmitIsAmbiguous (e : SubmitError) : Bool := e.mark = .ambiguous

def isRetryableRelayerError (e : SubmitError) : Bool := e.mark = .retryable

/-- `contains` of a text. -/
def contains (text pattern : String) : Bool := decide (pattern.toList <:+: text.toList)

def toAsciiLowercase (text : String) : String := String.ofList (text.toList.map Char.toLower)

def walletSubmissionConflict (text : String) : Bool :=
  contains text "wallet busy" || contains text "nonce already" ||
    contains text "nonce has already" || contains text "nonce too low" ||
    contains text "invalid nonce" ||
    (contains text "batch nonce" && contains text "does not match on-chain nonce")

/-! ## The relayer -/

/-- What becomes of a post. A response has its status, the status line and the body, as text and as
JSON. -/
inductive PostOutcome
  | sendFailed (error : String)
  | readFailed (error : String)
  | response (status : ℕ) (line text : String) (json : Except String Json)

def relayerPost (url : String) : PostOutcome → Except SubmitError Json
  | .sendFailed error => .error (retryableRelayerError s!"{url}: error sending request: {error}")
  | .readFailed error =>
    .error (retryableRelayerError s!"{url}: error reading successful submit response: {error}")
  | .response status line text json =>
    if 200 ≤ status ∧ status < 300 then
      match json with
      | .ok json => .ok json
      | .error error =>
        .error (retryableRelayerError s!"parse successful {url} response: {error} ({text})")
    else if status = 408 ∨ status = 429 ∨ (500 ≤ status ∧ status < 600) then
      .error (retryableRelayerError s!"{url} ({line}): {text}")
    else .error { text := s!"{url} ({line}): {text}" }

/-- The action or reply names no transaction. -/
def hasNoTransactionId (json : Json) : Bool := (textAt json "transactionID").getD "" = ""

/-- A post of the signed batch. The display of a JSON value is that of the library. -/
def postBatch (display : Json → String) (url : String) (outcome : PostOutcome) :
    Except SubmitError Json :=
  match relayerPost url outcome with
  | .error e => .error e
  | .ok json =>
    if hasNoTransactionId json then
      .error (retryableRelayerError s!"WALLET batch returned no transactionID: {display json}")
    else .ok json

def asU64 : Json → Option ℕ
  | .num (.int n) => if 0 ≤ n ∧ n < 2 ^ 64 then some n.toNat else none
  | _ => none

def asStr : Json → Option String
  | .str s => some s
  | _ => none

def parseNonceValue (value : Json) : Option ℕ :=
  match value with
  | .str s => (fromStrRadix 10 (2 ^ 128) s.toList).toOption
  | value => asU64 value

variable (action : Json)

def actionMatchesSignerNonce (signer : String) (nonce : ℕ) : Bool :=
  let sender := (((action.child "from").or (action.child "owner")).bind asStr).getD ""
  eqIgnoreAsciiCase sender.toList signer.toList &&
    (action.child "nonce").bind parseNonceValue = some nonce

def walletActionRecoveryRank : ℕ :=
  match (textAt action "state").getD "" with
  | "STATE_CONFIRMED" => 3
  | "STATE_NEW" | "STATE_EXECUTED" | "STATE_MINED" => 2
  | "STATE_FAILED" | "STATE_INVALID" => 0
  | _ => 1

def isWalletAction : Bool :=
  (textAt action "type").any fun kind => eqIgnoreAsciiCase kind.toList "WALLET".toList

/-- The later one of two actions of the same rank is the better one. -/
def betterAction : Option Json → Json → Option Json
  | none, action => some action
  | some best, action =>
    if walletActionRecoveryRank best ≤ walletActionRecoveryRank action then some action
    else some best

/-- `max_by_key`. -/
def maxByRank (actions : List Json) : Option Json := actions.foldl betterAction none

/-- An indexed record of a signer and a nonce. -/
def isRecordOf (action : Json) (signer : String) (nonce : ℕ) : Bool :=
  actionMatchesSignerNonce action signer nonce && isWalletAction action &&
    (textAt action "transactionID").isSome

/-- `find_wallet_action_by_signer_nonce`, from the list of actions that the relayer returns. -/
def findWalletActionBySignerNonce (display : Json → String) (reply : Except String Json)
    (signer : String) (nonce : ℕ) : Except String (Option Json) :=
  match reply with
  | .error error => .error error
  | .ok (.arr actions) => .ok (maxByRank (actions.filter (isRecordOf · signer nonce)))
  | .ok json => .error s!"relayer /transactions returned non-array: {display json}"

/-- A call of a batch; its value is zero. -/
structure Call where
  target : String
  data : String
  deriving DecidableEq

/-- A call of an action is the one that was signed. -/
def callMatches (actual : Json) (expected : Call) : Bool :=
  (textAt actual "target").any (fun v => eqIgnoreAsciiCase v.toList expected.target.toList) &&
    (textAt actual "data").any (fun v => eqIgnoreAsciiCase v.toList expected.data.toList) &&
    match actual.child "value" with
    | none => true
    | some v => asU64 v = some 0 || asStr v = some "0"

def actionMatchesWalletBatch (dw : String) (calls : List Call) : Bool :=
  match action.child "depositWalletParams" with
  | none => false
  | some params =>
    (textAt params "depositWallet").any (fun w => eqIgnoreAsciiCase w.toList dw.toList) &&
      match params.child "calls" with
      | some (.arr observed) => observed.length = calls.length &&
          (observed.zip calls).all fun pair => callMatches pair.1 pair.2
      | _ => false

/-! ## Events -/

/-- The intent as it is handed to the journal, with the cutoff of the caller. -/
structure PreparedSubmission extends MaintenanceWalletSubmission where
  retryUntilSecs : Option ℕ
  deriving DecidableEq

/-- What a post carries. -/
structure PostRequest where
  body : String
  nonce : ℕ
  deriving DecidableEq

inductive Event
  /-- The intent is handed to `on_prepared`. -/
  | prepared (intent : PreparedSubmission)
  | clock (reading : Except String ℕ)
  | post (request : PostRequest) (result : Except SubmitError Json)
  /-- What the numbered request for the relayer's actions came to. -/
  | lookup (number : ℕ) (result : Except String (Option Json))

/-- Numbers of the requests so far. -/
structure Cursor where
  posts : ℕ := 0
  lookups : ℕ := 0
  clocks : ℕ := 0
  deriving DecidableEq

/-- Result of a part of the run, with its events. -/
structure Outcome (α : Type) where
  result : α
  cursor : Cursor
  events : List Event

/-! ## The inner loop -/

def walletPostAttempts : ℕ := 3

def walletPostReconcileAttempts : ℕ := 3

/-- The closures of the inner loop, each with the number of its call. -/
structure Closures where
  submit : ℕ → Except SubmitError Json
  lookup : ℕ → Except String (Option Json)
  now : ℕ → Except String ℕ

/-- An action that was found ends the submission. -/
def adopt : Except SubmitError Json :=
  if hasNoTransactionId action then
    .error (ambiguousWalletError
      { text := "indexed WALLET action has no recovery ID; preserving reservation" })
  else .ok action

/-- The lookups after an uncertain post: a result, or nothing was found. -/
def reconcile (fns : Closures) : ℕ → Cursor → Outcome (Option (Except SubmitError Json))
  | 0, c => ⟨none, c, []⟩
  | left + 1, c =>
    let found := fns.lookup c.lookups
    let event := Event.lookup c.lookups found
    let c := { c with lookups := c.lookups + 1 }
    match found with
    | .ok (some action) => ⟨some (adopt action), c, [event]⟩
    | _ =>
      let rest := reconcile fns left c
      ⟨rest.result, rest.cursor, event :: rest.events⟩

def showReading : Except String ℕ → String
  | .ok t => s!"Ok({t})"
  | .error e => s!"Err({e})"

/-- The deadline is reached or the clock cannot be read. -/
def deadlineError (prior : Bool) (reading : Except String ℕ) : SubmitError :=
  let e : SubmitError :=
    { text := "WALLET signed batch deadline reached or clock unavailable: " ++ showReading reading }
  if prior then ambiguousWalletError e else e

/-- The attempts of `submit_with_ambiguous_recovery_deadline` that are left; `prior` is its
`prior_ambiguous`. -/
def submitLoop (fns : Closures) (request : PostRequest) (deadline : ℕ) :
    ℕ → Bool → Cursor → Outcome (Except SubmitError Json)
  | 0, _, c => ⟨.error { text := "WALLET_POST_ATTEMPTS is non-zero" }, c, []⟩
  | left + 1, prior, c =>
    let reading := fns.now c.clocks
    let c := { c with clocks := c.clocks + 1 }
    match reading with
    | .error _ => ⟨.error (deadlineError prior reading), c, [.clock reading]⟩
    | .ok t =>
      if t < deadline then
        let result := fns.submit c.posts
        let c := { c with posts := c.posts + 1 }
        let events := [Event.clock reading, .post request result]
        match result with
        | .ok json => ⟨.ok json, c, events⟩
        | .error e =>
          let conflict := walletSubmissionConflict (toAsciiLowercase e.text)
          let ambiguous := isRetryableRelayerError e || conflict
          if !ambiguous && !prior then ⟨.error e, c, events⟩
          else
            let stopAfterLookup := !ambiguous || conflict
            let looked := reconcile fns walletPostReconcileAttempts c
            match looked.result with
            | some result => ⟨result, looked.cursor, events ++ looked.events⟩
            | none =>
              if stopAfterLookup || left = 0 then
                ⟨.error (ambiguousWalletError e), looked.cursor, events ++ looked.events⟩
              else
                let rest := submitLoop fns request deadline left true looked.cursor
                ⟨rest.result, rest.cursor, events ++ looked.events ++ rest.events⟩
      else ⟨.error (deadlineError prior reading), c, [.clock reading]⟩

def submitWithAmbiguousRecoveryDeadline (fns : Closures) (request : PostRequest) (deadline : ℕ)
    (c : Cursor) : Outcome (Except SubmitError Json) :=
  submitLoop fns request deadline walletPostAttempts false c

/-! ## The outer loop -/

def batchDeadlineSecs : ℕ := 290

def registryRetries : ℕ := 18

/-- Arguments of `submit_wallet_batch_with_hook`. -/
structure BatchArgs where
  eoa : String
  dw : String
  calls : List Call
  gateMaintenanceUntilStarted : Bool
  dryRun : Bool
  retryUntilSecs : Option ℕ

/-- The answers of the rest of the system to one run. -/
structure World where
  signerPermit : Except SubmitError Unit
  reconciliationNonce : Except SubmitError ℕ
  /-- `reconcile_previous_wallet_action`, by its nonce. -/
  reconcilePrevious : ℕ → Except SubmitError Unit
  relayerPermit : Except SubmitError Unit
  walletNonce : Except SubmitError ℕ
  nowSecs : Except String ℕ
  /-- `build_wallet_batch_body`, by nonce and deadline. -/
  buildBody : ℕ → ℕ → Except SubmitError String
  keccak256 : String → List UInt8
  display : Json → String
  onPrepared : PreparedSubmission → Except SubmitError Unit
  post : ℕ → PostOutcome
  transactions : ℕ → Except String Json
  clock : ℕ → Except String ℕ
  /-- `reconcile_previous_wallet_action` once more, after the relayer was busy. -/
  previousStatus : ℕ → Except SubmitError Unit
  onSubmitted : String → Except SubmitError Unit
  /-- `wait_wallet_action_leaves_new` and `poll_relayer_tx`. -/
  leavesNew : String → Except SubmitError Unit
  pollTx : String → Except SubmitError Unit

def submitUrl : String := "https://relayer-v2.polymarket.com/submit"

/-- The closures that the outer loop passes. -/
def World.closures (w : World) (args : BatchArgs) (nonce : ℕ) : Closures where
  submit n := postBatch w.display submitUrl (w.post n)
  lookup n := (findWalletActionBySignerNonce w.display (w.transactions n) args.eoa nonce).map
    fun found => found.filter fun action => actionMatchesWalletBatch action args.dw args.calls
  now := w.clock

def walletBusyError (w : World) (eoa : String) (nonce : ℕ) (e : SubmitError) : SubmitError :=
  match w.previousStatus nonce with
  | .ok () =>
    { text := s!"{e.text}; queried prior WALLET action by transaction_id, then signer={eoa} " ++
        s!"nonce={nonce} fallback, but none remained active; not resubmitting automatically" }
  | .error status => { text := s!"{e.text}; prior WALLET action status: {status.text}" }

variable (w : World) (args : BatchArgs)

/-- The rounds of the registry loop that are left after this one. -/
def registryLoop (w : World) (args : BatchArgs) (request : PostRequest) (deadline : ℕ) :
    ℕ → Cursor → Outcome (Except SubmitError Json)
  | left, c =>
    let round := submitWithAmbiguousRecoveryDeadline (w.closures args request.nonce) request
      deadline c
    match round.result with
    | .ok _ => round
    | .error e =>
      if !walletSubmitIsAmbiguous e && contains e.text "is not registered" then
        match left with
        | left + 1 =>
          let rest := registryLoop w args request deadline left round.cursor
          ⟨rest.result, rest.cursor, round.events ++ rest.events⟩
        | 0 =>
          if contains e.text "wallet busy" then
            { round with result := .error (walletBusyError w args.eoa request.nonce e) }
          else round
      else if !walletSubmitIsAmbiguous e && contains e.text "wallet busy" then
        { round with result := .error (walletBusyError w args.eoa request.nonce e) }
      else round

/-- Cutoff of the posts: the cutoff of the caller and the deadline of the signature. -/
def BatchArgs.cutoff (args : BatchArgs) (deadline : ℕ) : ℕ :=
  min (args.retryUntilSecs.getD deadline) deadline

/-- What `on_prepared` gets. -/
def BatchArgs.intent (args : BatchArgs) (w : World) (request : PostRequest) (deadline : ℕ) :
    PreparedSubmission where
  signer := toAsciiLowercase args.eoa
  depositWallet := toAsciiLowercase args.dw
  nonce := toString request.nonce
  bodyHash := String.ofList (hexEncode (w.keccak256 request.body))
  deadlineSecs := deadline
  retryUntilSecs := args.retryUntilSecs.map (min · deadline)

/-- The accepted action is remembered, journaled and followed to its confirmation. -/
def followUp (json : Json) : Except SubmitError String :=
  match textAt json "transactionID" with
  | none => .error { text := s!"WALLET batch returned no transactionID: {w.display json}" }
  | some txId =>
    match w.onSubmitted txId with
    | .error e => .error { text :=
        s!"WALLET batch accepted txID={txId} but durable submission journal failed: {e.text}" }
    | .ok () => do
      if args.gateMaintenanceUntilStarted then w.leavesNew txId
      w.pollTx txId
      .ok txId

/-- Everything before the batch is signed: permits, the reconciliation of an older action, the nonce
and the clock. -/
def prepare : Except SubmitError (PostRequest × ℕ) := do
  w.signerPermit
  if !args.dryRun then
    let reconciliationNonce ← w.reconciliationNonce
    w.reconcilePrevious reconciliationNonce
  if !args.dryRun && args.gateMaintenanceUntilStarted then w.relayerPermit
  let nonce ← w.walletNonce
  let now ← w.nowSecs.mapError fun text => { text := text }
  let deadline := now + batchDeadlineSecs
  let body ← w.buildBody nonce deadline
  .ok (⟨body, nonce⟩, deadline)

def submitWalletBatchWithHook : Outcome (Except SubmitError String) :=
  match prepare w args with
  | .error e => ⟨.error e, {}, []⟩
  | .ok (request, deadline) =>
    if args.dryRun then ⟨.ok "", {}, []⟩
    else
      let intent := args.intent w request deadline
      match w.onPrepared intent with
      | .error e => ⟨.error e, {}, [.prepared intent]⟩
      | .ok () =>
        let rounds := registryLoop w args request (args.cutoff deadline) registryRetries {}
        ⟨rounds.result.bind (followUp w args), rounds.cursor, .prepared intent :: rounds.events⟩

end HexAgent.Wallet
