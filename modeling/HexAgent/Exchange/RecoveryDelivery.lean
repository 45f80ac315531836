import HexAgent.Exchange.RecoveryGate
import HexAgent.ToMathlib.AListSum
import HexAgent.Types
import Mathlib.Algebra.BigOperators.Ring.Finset
import Mathlib.Algebra.Order.Ring.Int
import Mathlib.Tactic.Ring

/-!
# The owner of recovery deliveries

After a reconnect, the feed registers every replayed update with one owner thread before it hands
the update to a strategy, and the strategy acknowledges it when it is done. A recovery is complete
when enrolment is finished and nothing is pending. Each reconnect begins a new generation and
forgets what was pending.
-/

namespace HexAgent.Exchange

open List AList Option

structure RecoveryUpdateKey where
  instanceId : String
  clientOrderId : String
  exchangeOrderId : Option String
  tradeId : Option String
  symbol : String
  status : OrderStatus
  filledQuantity : ℚ
  remainingQuantity : ℚ
  deriving DecidableEq

def RecoveryUpdateKey.new (instanceId : String) (u : OrderUpdate) : RecoveryUpdateKey where
  instanceId := instanceId
  clientOrderId := u.clientOrderId
  exchangeOrderId := u.exchangeOrderId
  tradeId := u.tradeId
  symbol := u.symbol
  status := u.status
  filledQuantity := u.filledQuantity
  remainingQuantity := u.remainingQuantity

def startupRecoveryBufferCapacity : ℕ := 4096

def recoveryPendingCapacity : ℕ := 16384

structure RecoveryDeliveryState where
  generation : ℕ := 0
  enrolling : Bool := false
  consumerReady : Bool := false
  pending : AList fun _ : RecoveryUpdateKey => ℕ := ∅
  pendingCount : ℕ := 0
  startupBuffer : List (ℕ × OrderUpdate) := []

inductive RecoveryDeliveryCommand
  | transfer
  | begin
  | register (generation : ℕ) (key : RecoveryUpdateKey) (update : OrderUpdate)
  | consumerReady
  | takeStartup (generation : ℕ)
  | finishEnrollment (generation : ℕ)
  /-- `acknowledge_recovery_update` names no generation. -/
  | acknowledge (generation : Option ℕ) (key : RecoveryUpdateKey)
  | acknowledgeAsync (generation : ℕ) (key : RecoveryUpdateKey)
  | progress (generation : ℕ)

/-- What the owner answers. -/
inductive RecoveryDeliveryReply
  | none
  | generation (generation : ℕ)
  | registered (result : Except String Bool)
  | startup (result : Except String (List OrderUpdate))
  | finished (result : Bool)
  | acknowledged (result : Bool)
  | progress (result : Option (Bool × ℕ))

namespace RecoveryDeliveryState

variable (d : RecoveryDeliveryState)

/-- Take one update of a key off the pending table. -/
def acknowledge (key : RecoveryUpdateKey) : RecoveryDeliveryState × Bool :=
  match d.pending.lookup key with
  | some count =>
    ({ d with
      pending := if 1 < count then d.pending.insert key (count - 1) else d.pending.erase key
      pendingCount := d.pendingCount - 1 }, true)
  | none => (d, false)

/-- Put one update of a key on the pending table, and buffer it until a strategy can take it. -/
def register (generation : ℕ) (key : RecoveryUpdateKey) (update : OrderUpdate) :
    RecoveryDeliveryState × Except String Bool :=
  if d.generation ≠ generation ∨ !d.enrolling then
    (d, .error s!"recovery delivery generation {generation} is no longer accepting updates")
  else if !d.consumerReady ∧ startupRecoveryBufferCapacity ≤ d.startupBuffer.length then
    (d, .error s!"startup recovery buffer is full ({startupRecoveryBufferCapacity} updates)")
  else if recoveryPendingCapacity ≤ d.pendingCount then
    (d, .error s!"recovery pending set is full ({recoveryPendingCapacity} updates)")
  else
    ({ d with
      pending := d.pending.insert key ((d.pending.lookup key).getD 0 + 1)
      pendingCount := d.pendingCount + 1
      startupBuffer := if d.consumerReady then d.startupBuffer
        else d.startupBuffer ++ [(generation, update)] }, .ok !d.consumerReady)

/-- `RecoveryDeliveryOwner::execute`. Only the startup worker can hand the owner over, so a later
`Transfer` does nothing. -/
def execute : RecoveryDeliveryCommand → RecoveryDeliveryState × RecoveryDeliveryReply
  | .transfer => (d, .none)
  | .begin =>
    -- `wrapping_add(1).max(1)`: zero is never a generation.
    let generation := max ((d.generation + 1) % 2 ^ 64) 1
    ({ d with
      generation := generation
      enrolling := true
      pending := ∅
      pendingCount := 0
      startupBuffer := [] }, .generation generation)
  | .register generation key update =>
    ((d.register generation key update).1, .registered (d.register generation key update).2)
  | .consumerReady => ({ d with consumerReady := true }, .none)
  | .takeStartup generation =>
    if d.generation ≠ generation then
      (d, .startup (.error s!"recovery delivery generation {generation} was superseded"))
    else if !d.consumerReady then (d, .startup (.ok []))
    else ({ d with startupBuffer := [] }, .startup (.ok
      ((d.startupBuffer.filter fun e => e.1 = generation).map Prod.snd)))
  | .finishEnrollment generation =>
    if d.generation = generation then ({ d with enrolling := false }, .finished true)
    else (d, .finished false)
  | .acknowledge generation key =>
    if generation.all (· = d.generation) then
      ((d.acknowledge key).1, .acknowledged (d.acknowledge key).2)
    else (d, .acknowledged false)
  | .acknowledgeAsync generation key =>
    if generation = d.generation then ((d.acknowledge key).1, .none) else (d, .none)
  | .progress generation =>
    (d, .progress (if d.generation = generation then some (!d.enrolling, d.pendingCount) else none))

/-- The owner after a run. -/
def runAll (commands : List RecoveryDeliveryCommand) : RecoveryDeliveryState :=
  commands.foldl (fun d command => (d.execute command).1) d

/-- The commands of a run with their replies. -/
def runLog (d : RecoveryDeliveryState) :
    List RecoveryDeliveryCommand → List (RecoveryDeliveryCommand × RecoveryDeliveryReply)
  | [] => []
  | command :: commands =>
    (command, (d.execute command).2) :: (d.execute command).1.runLog commands

/-- Updates of a key that wait for an acknowledgement. -/
def outstanding (key : RecoveryUpdateKey) : ℕ := (d.pending.lookup key).getD 0

end RecoveryDeliveryState

/-- The command starts a generation. -/
def RecoveryDeliveryCommand.isBegin : RecoveryDeliveryCommand → Bool
  | .begin => true
  | _ => false

/-- The command acknowledges an update of a key, for a generation or without naming one. -/
def RecoveryDeliveryCommand.acks (generation : ℕ) (key : RecoveryUpdateKey) :
    RecoveryDeliveryCommand → Bool
  | .acknowledge named k => named.all (· = generation) && k = key
  | .acknowledgeAsync named k => named = generation && k = key
  | _ => false

/-- The command registered an update of a key, and the owner accepted it. -/
def registers (key : RecoveryUpdateKey) :
    RecoveryDeliveryCommand × RecoveryDeliveryReply → Bool
  | (.register _ k _, .registered (.ok _)) => k = key
  | _ => false

namespace RecoveryDeliveryState

variable {d : RecoveryDeliveryState} (key : RecoveryUpdateKey) {cmds : List RecoveryDeliveryCommand}

/-- What a command of a generation does: it adds an update to a key, takes one off, or leaves the
pending table alone. -/
inductive Moves (d : RecoveryDeliveryState) (command : RecoveryDeliveryCommand) : Prop
  | register (key : RecoveryUpdateKey) (buffer : List (ℕ × OrderUpdate))
    (hreply : ∀ other, registers other (command, (d.execute command).2) = true → other = key)
    (heq : (d.execute command).1 = { d with
      pending := d.pending.insert key ((d.pending.lookup key).getD 0 + 1)
      pendingCount := d.pendingCount + 1
      startupBuffer := buffer })
  | acknowledge (key : RecoveryUpdateKey) (hcommand : command.acks d.generation key = true)
    (heq : (d.execute command).1 = (d.acknowledge key).1)
    (hreply : ∀ key, registers key (command, (d.execute command).2) = false)
  | frame (hpending : (d.execute command).1.pending = d.pending)
    (hcount : (d.execute command).1.pendingCount = d.pendingCount)
    (hgeneration : (d.execute command).1.generation = d.generation)
    (hreply : ∀ key, registers key (command, (d.execute command).2) = false)

lemma moves (d : RecoveryDeliveryState) {command : RecoveryDeliveryCommand}
    (hbegin : command.isBegin = false) : d.Moves command := by
  cases command with
  | begin => cases hbegin
  | register gen key update =>
    -- A registration is refused, or it raises the count of its key.
    rcases hreg : d.register gen key update with ⟨d', result⟩
    have heq := hreg
    unfold register at heq
    split_ifs at heq <;> cases heq
    iterate 3
      refine .frame ?_ ?_ ?_ fun k => ?_ <;> simp [execute, hreg, registers]
    all_goals
      refine .register key _ (fun other hne => ?_) (congrArg Prod.fst hreg)
      simpa [execute, hreg, registers, eq_comm] using hne
  | acknowledge gen key =>
    by_cases hnamed : gen.all (· = d.generation) = true
    · refine .acknowledge key ?_ ?_ fun k => rfl
      · simp [RecoveryDeliveryCommand.acks, hnamed]
      · simp [execute, hnamed]
    · refine .frame ?_ ?_ ?_ fun k => rfl <;> simp [execute, hnamed]
  | acknowledgeAsync gen key =>
    by_cases hnamed : gen = d.generation
    · refine .acknowledge key ?_ ?_ fun k => rfl
      · simp [RecoveryDeliveryCommand.acks, hnamed]
      · simp [execute, hnamed]
    · refine .frame ?_ ?_ ?_ fun k => rfl <;> simp [execute, hnamed]
  | takeStartup gen | finishEnrollment gen =>
    refine .frame ?_ ?_ ?_ fun k => rfl <;>
      · simp only [execute]
        split_ifs <;> rfl
  | transfer | consumerReady | progress gen => exact .frame rfl rfl rfl fun k => rfl

/-! ## The pending count -/

/-- The count of a key, as an integer. -/
def weight (_ : RecoveryUpdateKey) (count : ℕ) : ℤ := count

/-- Every key in the table waits for something, and the pending count is the sum of the counts of
the keys. -/
structure Counted (d : RecoveryDeliveryState) : Prop where
  positive : ∀ key count, d.pending.lookup key = some count → 0 < count
  count : (d.pendingCount : ℤ) = d.pending.sumBy weight

lemma Counted.acknowledge (h : d.Counted) (key : RecoveryUpdateKey) :
    (d.acknowledge key).1.Counted := by
  unfold RecoveryDeliveryState.acknowledge
  split
  · next count hcount =>
    have hpos := h.positive key count hcount
    have hle : (count : ℤ) ≤ d.pending.sumBy weight :=
      le_sumBy (f := weight) (fun e _ => Int.natCast_nonneg _) hcount
    have hsum := h.count
    have hvalue : d.pending.valueAt weight key = count :=
      valueAt_of_lookup hcount
    constructor
    · split
      · exact forall_lookup_insert (by omega) h.positive
      · exact fun other n hne => h.positive other n (lookup_of_erase hne)
    · -- Either way the sum goes down by one, and it was positive.
      dsimp only
      split
      · rw [sumBy_insert, weight]
        omega
      · rw [sumBy_erase]
        omega
  · exact h

lemma Counted.register (h : d.Counted) (key : RecoveryUpdateKey) (buffer : List (ℕ × OrderUpdate)) :
    Counted { d with
      pending := d.pending.insert key ((d.pending.lookup key).getD 0 + 1)
      pendingCount := d.pendingCount + 1
      startupBuffer := buffer } := by
  constructor
  · exact forall_lookup_insert (Nat.succ_pos _) h.positive
  · have hvalue : d.pending.valueAt weight key = ((d.pending.lookup key).getD 0 : ℕ) := by
      unfold valueAt
      cases d.pending.lookup key <;> rfl
    rw [sumBy_insert, hvalue, ← h.count, weight]
    push_cast
    ring

lemma Counted.execute (h : d.Counted) (cmd : RecoveryDeliveryCommand) :
    (d.execute cmd).1.Counted := by
  by_cases hbegin : cmd.isBegin = true
  · -- A new generation starts with an empty table.
    cases cmd with
    | begin => exact ⟨fun key count hcount => (by cases hcount), rfl⟩
    | _ => cases hbegin
  · cases d.moves (Bool.eq_false_iff.2 hbegin) with
    | register key buffer hreply heq =>
      rw [heq]
      exact h.register key buffer
    | acknowledge key hcomm heq hreply =>
      rw [heq]
      exact h.acknowledge key
    | frame hpend hcount hgen hreply =>
      exact ⟨by rw [hpend]; exact h.positive, by rw [hpend, hcount]; exact h.count⟩

lemma Counted.runAll (h : d.Counted) (cmds : List RecoveryDeliveryCommand) :
    (d.runAll cmds).Counted :=
  foldlRecOn cmds _ h fun _ ht cmd _ => ht.execute cmd

lemma counted_default : ({} : RecoveryDeliveryState).Counted :=
  ⟨fun key count hcount => (by cases hcount), rfl⟩

lemma Counted.outstanding_eq_zero (h : d.Counted) (hzero : d.pendingCount = 0)
    (key : RecoveryUpdateKey) : d.outstanding key = 0 := by
  unfold outstanding
  cases hcount : d.pending.lookup key with
  | none => rfl
  | some count =>
    have hle : (count : ℤ) ≤ d.pending.sumBy weight :=
      le_sumBy (f := weight) (fun e _ => Int.natCast_nonneg _) hcount
    rw [← h.count] at hle
    rw [getD_some]
    omega

/-! ## One generation -/

lemma outstanding_acknowledge (other : RecoveryUpdateKey) :
    (d.acknowledge key).1.outstanding other =
      d.outstanding other - if other = key then 1 else 0 := by
  unfold acknowledge outstanding
  split
  · next count hcount =>
    by_cases hkey : other = key
    · subst hkey
      rw [if_pos rfl, hcount]
      split
      · rw [lookup_insert, getD_some, getD_some]
      · rw [lookup_erase, getD_none, getD_some]
        omega
    · split
      · rw [lookup_insert_ne hkey]
        rfl
      · rw [lookup_erase_ne hkey]
        rfl
  next hnone =>
  by_cases hkey : other = key
  · rw [hkey, hnone, getD_none, Nat.zero_sub]
  · rw [if_neg hkey]
    rfl

lemma generation_acknowledge : (d.acknowledge key).1.generation = d.generation := by
  unfold acknowledge
  split <;> rfl

/-- One command of a generation: what it registers is outstanding afterwards, unless it
acknowledges. -/
lemma outstanding_execute {cmd : RecoveryDeliveryCommand} (hbegin : cmd.isBegin = false)
    (key : RecoveryUpdateKey) :
    d.outstanding key + (if registers key (cmd, (d.execute cmd).2) then 1 else 0) ≤
        (d.execute cmd).1.outstanding key +
          (if cmd.acks d.generation key then 1 else 0) ∧
      (d.execute cmd).1.generation = d.generation := by
  cases d.moves hbegin with
  | register k buffer hreply heq =>
    refine ⟨?_, by rw [heq]⟩
    rw [heq, outstanding, outstanding]
    by_cases hkey : key = k
    · subst hkey
      rw [lookup_insert, getD_some]
      split <;> omega
    · rw [lookup_insert_ne hkey, if_neg fun hreg => hkey (hreply key hreg)]
      exact Nat.le_add_right _ _
  | acknowledge k hcomm heq hreply =>
    refine ⟨?_, by rw [heq, generation_acknowledge]⟩
    rw [heq, outstanding_acknowledge, hreply key, if_neg Bool.false_ne_true]
    by_cases hkey : key = k
    · subst hkey
      rw [if_pos rfl, if_pos hcomm]
      omega
    · rw [if_neg hkey]
      exact Nat.le_add_right _ _
  | frame hpend hcount hgen hreply =>
    refine ⟨?_, hgen⟩
    rw [hreply key, outstanding, outstanding, hpend]
    exact Nat.le_add_right _ _

/-- Within a generation, what was registered is outstanding or acknowledged. -/
lemma outstanding_runAll (hbegin : ∀ cmd ∈ cmds, cmd.isBegin = false) (key : RecoveryUpdateKey) :
    d.outstanding key + (d.runLog cmds).countP (registers key) ≤
        (d.runAll cmds).outstanding key + cmds.countP (·.acks d.generation key) ∧
      (d.runAll cmds).generation = d.generation := by
  induction cmds generalizing d with
  | nil => exact ⟨le_rfl, rfl⟩
  | cons cmd cmds ih =>
    obtain ⟨hstep, hgen⟩ := outstanding_execute (hbegin cmd (.head _)) key
    obtain ⟨hrest, hgen'⟩ := ih (d := (d.execute cmd).1)
      fun other hne => hbegin other (.tail _ hne)
    rw [hgen] at hrest hgen'
    refine ⟨?_, hgen'⟩
    rw [runLog, countP_cons, countP_cons]
    change _ ≤ ((d.execute cmd).1.runAll cmds).outstanding key + _
    omega

/-! ## Generations -/

lemma generation_execute (cmd : RecoveryDeliveryCommand) :
    (d.execute cmd).1.generation =
      if cmd.isBegin then max ((d.generation + 1) % 2 ^ 64) 1 else d.generation := by
  split
  · next hbegin =>
    cases cmd with
    | begin => rfl
    | _ => cases hbegin
  · next hbegin =>
    exact (outstanding_execute (Bool.eq_false_iff.2 hbegin)
      ⟨"", "", none, none, "", .filled, 0, 0⟩).2

/-- Before the counter wraps, generations are numbered in the order in which they begin. -/
lemma generation_runAll (hbound : d.generation + cmds.countP (·.isBegin) < 2 ^ 64) :
    (d.runAll cmds).generation = d.generation + cmds.countP (·.isBegin) := by
  induction cmds generalizing d with
  | nil => rfl
  | cons cmd cmds ih =>
    have hstep := generation_execute (d := d) cmd
    rw [countP_cons] at hbound ⊢
    change ((d.execute cmd).1.runAll cmds).generation = _
    by_cases hbegin : cmd.isBegin = true
    · rw [if_pos hbegin] at hstep hbound ⊢
      rw [Nat.mod_eq_of_lt (by omega), Nat.max_eq_left (by omega)] at hstep
      rw [ih (by omega), hstep]
      omega
    · rw [if_neg hbegin] at hstep hbound ⊢
      rw [ih (by omega), hstep]
      omega

end RecoveryDeliveryState

/-! ## Recovery closes on evidence -/

section Evidence

open RecoveryDeliveryState

/-- The owner reports that the enrolment of a generation is finished and nothing is pending. -/
def Complete (d : RecoveryDeliveryState) (generation : ℕ) : Prop :=
  (d.execute (.progress generation)).2 = .progress (some (true, 0))

lemma complete_iff {gen : ℕ} {d : RecoveryDeliveryState} :
    Complete d gen ↔
      d.generation = gen ∧ d.enrolling = false ∧ d.pendingCount = 0 := by
  unfold Complete
  simp only [execute, RecoveryDeliveryReply.progress.injEq]
  by_cases h : d.generation = gen <;> simp [h]

/-- The gate opens only with a certificate captured after the last assertion. The owner reports a
generation complete only if every update registered from any moment of it on was acknowledged from
that moment on, by acknowledgements that name the generation or none; the pending count is the sum
of the counts of the keys; and acknowledgements that name an earlier generation change nothing. -/
theorem recovery_closes_on_evidence :
    (∀ (T : Type) [DecidableEq T] (start g : Gate T) (before between after : List (GateEvent T))
      (first last : GateEvent T) (c : ℕ),
      Trace Gate.Step start (before ++ first :: (between ++ last :: after)) g →
        first.Captures c → last.Finishes c → ∀ e ∈ between, ¬e.Asserts) ∧
    (∀ (commands since : List RecoveryDeliveryCommand) (generation : ℕ) (key : RecoveryUpdateKey),
      Complete (({} : RecoveryDeliveryState).runAll (commands ++ since)) generation →
      (∀ command ∈ since, command.isBegin = false) →
        ((({} : RecoveryDeliveryState).runAll commands).runLog since).countP (registers key) ≤
          since.countP (·.acks generation key)) ∧ (∀ commands : List RecoveryDeliveryCommand,
      (({} : RecoveryDeliveryState).runAll commands).pendingCount =
        ((({} : RecoveryDeliveryState).runAll commands).pending.entries.map fun e => e.2).sum) ∧
    ∀ (commands since : List RecoveryDeliveryCommand) (key : RecoveryUpdateKey),
      (commands ++ .begin :: since).countP (·.isBegin) < 2 ^ 64 →
      let earlier := (({} : RecoveryDeliveryState).runAll commands).generation
      let d := ({} : RecoveryDeliveryState).runAll (commands ++ .begin :: since)
      (d.execute (.acknowledge (some earlier) key)).1 = d ∧
        (d.execute (.acknowledgeAsync earlier key)).1 = d := by
  refine ⟨?_, ?_, ?_, ?_⟩
  · intro T _ start g before between after first last c hrun hfirst hlast
    exact Gate.not_asserted_of_finishes hrun hfirst hlast
  · intro commands since generation key hcomp hsince
    have happ : ({} : RecoveryDeliveryState).runAll (commands ++ since) =
        (({} : RecoveryDeliveryState).runAll commands).runAll since := foldl_append
    have hcounted := counted_default.runAll (commands ++ since)
    rw [happ] at hcomp hcounted
    obtain ⟨hgen, -, hzero⟩ := complete_iff.1 hcomp
    obtain ⟨hbal, hsame⟩ :=
      outstanding_runAll (d := ({} : RecoveryDeliveryState).runAll commands) hsince key
    rw [hcounted.outstanding_eq_zero hzero, ← hsame, hgen] at hbal
    omega
  · intro commands
    have hsum := (counted_default.runAll commands).count
    have hcast : (({} : RecoveryDeliveryState).runAll commands).pending.sumBy weight =
        (((({} : RecoveryDeliveryState).runAll commands).pending.entries.map fun e =>
          e.2).sum : ℕ) := by
      rw [Nat.cast_list_sum, List.map_map]
      rfl
    rw [hcast] at hsum
    exact_mod_cast hsum
  · intro commands since key hbound earlier d
    have hcount : (commands ++ .begin :: since).countP (·.isBegin) =
        commands.countP (·.isBegin) + (since.countP (·.isBegin) + 1) := by
      rw [countP_append, countP_cons]
      rfl
    have hnow := @generation_runAll {} (commands ++ .begin :: since) (by simpa using hbound)
    have hthen := @generation_runAll {} commands (by simpa using by omega)
    -- An acknowledgement that names another generation changes nothing.
    have hne : earlier ≠ d.generation := by
      dsimp only [earlier, d]
      omega
    simp [execute, hne]

/-- A filled order that two reconnects replay to the same strategy. -/
def replayedUpdate : OrderUpdate :=
  { clientOrderId := "c1", symbol := "UP", side := .buy, status := .filled, filledQuantity := 1 }

def replayedKey : RecoveryUpdateKey := .new "btc01" replayedUpdate

theorem recovery_closes_on_evidence_replayed : let since : List RecoveryDeliveryCommand :=
      [.register 1 replayedKey replayedUpdate, .finishEnrollment 1, .acknowledgeAsync 1 replayedKey]
    let d := ({} : RecoveryDeliveryState).runAll [.begin]
    (d.runLog since).countP (registers replayedKey) = 1 ∧
      (d.runLog since).countP (registers replayedKey) ≤ since.countP (·.acks 1 replayedKey) := by
  refine ⟨by decide +kernel, recovery_closes_on_evidence.2.1 [.begin] _ 1 replayedKey ?_ ?_⟩
  · exact complete_iff.2 ⟨by decide +kernel, by decide +kernel, by decide +kernel⟩
  · intro command hcomm
    simp only [mem_cons, not_mem_nil, or_false] at hcomm
    rcases hcomm with rfl | rfl | rfl <;> rfl

/-- The strategy acknowledges the replay of the first reconnect late and names no generation. The
second generation is complete, although no acknowledgement was made for it. -/
theorem unnamed_acknowledgement_completes : let commands : List RecoveryDeliveryCommand :=
      [.begin, .register 1 replayedKey replayedUpdate, .begin,
        .register 2 replayedKey replayedUpdate, .finishEnrollment 2, .acknowledge none replayedKey]
    Complete (({} : RecoveryDeliveryState).runAll commands) 2 ∧
      (((({} : RecoveryDeliveryState).runAll (commands.take 3)).runLog (commands.drop 3)).countP
        (registers replayedKey) = 1) ∧
      .acknowledge (some 2) replayedKey ∉ commands ∧
        .acknowledgeAsync 2 replayedKey ∉ commands := by
  refine ⟨complete_iff.2 ⟨by decide +kernel, by decide +kernel, by decide +kernel⟩,
    by decide +kernel, ?_, ?_⟩ <;> simp

end Evidence

end HexAgent.Exchange
