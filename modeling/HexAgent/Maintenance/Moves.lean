import HexAgent.Maintenance.Ledger
import Mathlib.Logic.Relation
import Mathlib.Tactic.Ring
import Mathlib.Tactic.Linarith

/-!
# What a maintenance call writes

A call on a state whose ledgers agree with the shards does one of five things (`Moves`): nothing, or
it writes one operation and moves the balances and the coverage of the instances by what the
operation is allocated. An admission that is undone does two of them.
-/

namespace HexAgent.Maintenance

open Account List Function Instance

variable {tol : Tolerance} {before : Asset → ℚ}

/-! ## Amounts of an operation -/

namespace MaintenanceIntent

variable (intent : MaintenanceIntent) (instanceId : String) (asset : Asset)

/-- What the operation is allocated for an instance. -/
def allocated : ℚ := (intent.allocations.lookup instanceId).getD 0

/-- What an open operation covers for an instance: its amount, once for each asset that it takes. -/
def coverage : ℚ := intent.takes.count asset * intent.allocated instanceId

/-- How often the operation gives an asset more than it takes it. -/
def sign : ℤ := intent.gives.count asset - intent.takes.count asset

/-- What a confirmed operation changes for an instance. -/
def effect : ℚ := intent.sign asset * intent.allocated instanceId

/-- What a confirmed operation changes in the wallet. -/
def physicalEffect : ℚ := intent.sign asset * intent.total

/-- Every amount is large enough to be published. -/
def Sized (tol : Tolerance) : Prop :=
  ∀ instanceId amount, intent.allocations.lookup instanceId = some amount → tol.eps < amount

end MaintenanceIntent

/-! ## The loops over the assets of an operation -/

section Loops

variable (amount : ℚ) (i : Instance) (assets : List Asset)

/-- Adding an amount to the entry of every listed asset, one after the other. -/
lemma foldl_update_add (f : Asset → ℚ) :
    assets.foldl (fun f asset => update f asset (f asset + amount)) f =
      fun asset => f asset + assets.count asset * amount := by
  induction assets generalizing f with
  | nil => simp
  | cons a assets ih =>
    rw [foldl_cons, ih]
    funext asset
    by_cases h : asset = a
    · subst h
      rw [update_self, count_cons_self]
      push_cast
      ring
    · rw [update_of_ne h, count_cons_of_ne (Ne.symm h)]

/-- Taking an amount off the entry of every listed asset does not reach the clamp if it is there. -/
lemma foldl_update_sub (hamt : 0 ≤ amount) {f : Asset → ℚ}
    (h : ∀ asset, assets.count asset * amount ≤ f asset) :
    assets.foldl (fun f asset => update f asset (max (f asset - amount) 0)) f =
      fun asset => f asset - assets.count asset * amount := by
  induction assets generalizing f with
  | nil => simp
  | cons a assets ih =>
    have hfirst : assets.count a * amount + amount ≤ f a := by
      have ha := h a
      rw [count_cons_self] at ha
      push_cast at ha
      linarith
    have hclamp : max (f a - amount) 0 = f a - amount := by
      have hrest : 0 ≤ assets.count a * amount := mul_nonneg (Nat.cast_nonneg _) hamt
      exact max_eq_left (by linarith)
    rw [foldl_cons, hclamp, ih]
    · funext asset
      by_cases heq : asset = a
      · subst heq
        rw [update_self, count_cons_self]
        push_cast
        ring
      · rw [update_of_ne heq, count_cons_of_ne (Ne.symm heq)]
    · intro asset
      by_cases heq : asset = a
      · subst heq
        rw [update_self]
        linarith
      · rw [update_of_ne heq]
        have hasset := h asset
        rwa [count_cons_of_ne (Ne.symm heq)] at hasset

lemma foldl_setReserved (g : (Asset → ℚ) → Asset → Asset → ℚ) :
    assets.foldl (fun i asset => i.setReserved (g i.ledger.reserved asset)) i =
      i.setReserved (assets.foldl g i.ledger.reserved) :=
  foldl_hom i.setReserved fun _ _ => rfl

end Loops

namespace MaintenanceIntent

variable (intent : MaintenanceIntent) (amount : ℚ) (i : Instance) {asset : Asset}

lemma reserve_eq : intent.reserve amount i =
    i.setReserved fun asset => i.ledger.reserved asset + intent.takes.count asset * amount := by
  rw [← foldl_update_add]
  exact foldl_setReserved i intent.takes fun f asset => update f asset (f asset + amount)

lemma release_eq (hamt : 0 ≤ amount)
    (h : ∀ asset, intent.takes.count asset * amount ≤ i.ledger.reserved asset) :
    intent.release amount i =
      i.setReserved fun asset => i.ledger.reserved asset - intent.takes.count asset * amount := by
  rw [← foldl_update_sub amount intent.takes hamt h]
  exact foldl_setReserved i intent.takes fun f asset =>
    update f asset (max (f asset - amount) 0)

lemma exchange_eq : intent.exchange amount i =
    i.setBalance fun asset => i.ledger.balance asset + intent.sign asset * amount := by
  have hcredit (amount : ℚ) (assets : List Asset) (i : Instance) :
      assets.foldl (credit amount) i =
        i.setBalance fun asset => i.ledger.balance asset + assets.count asset * amount := by
    rw [← foldl_update_add]
    exact foldl_hom i.setBalance fun _ _ => rfl
  rw [exchange, hcredit, hcredit]
  refine congrArg i.setBalance (funext fun asset => ?_)
  dsimp only [setBalance]
  rw [sign]
  push_cast
  ring

lemma exchangePhysical_eq {physical : Asset → ℚ} : intent.exchangePhysical physical =
    fun asset => physical asset + intent.physicalEffect asset := by
  rw [exchangePhysical, foldl_update_add, foldl_update_add]
  funext asset
  rw [physicalEffect, sign]
  push_cast
  ring

/-- A change by a whole multiple of a published amount is nothing, or is published. -/
lemma Sized.publishes {intent : MaintenanceIntent} (h : intent.Sized tol) (heps : 0 ≤ tol.eps)
    {n : ℤ} {instanceId : String} :
    n * intent.allocated instanceId = 0 ∨ tol.eps < |n * intent.allocated instanceId| := by
  unfold allocated
  cases hget : intent.allocations.lookup instanceId with
  | none => simp
  | some amount =>
    have hamt := h instanceId amount hget
    by_cases hn : n = 0
    · simp [hn]
    right
    have hone : (1 : ℚ) ≤ |(n : ℚ)| := by exact_mod_cast Int.one_le_abs hn
    rw [Option.getD_some, abs_mul, abs_of_pos (heps.trans_lt hamt)]
    calc tol.eps < amount := hamt
      _ = 1 * amount := (one_mul amount).symm
      _ ≤ |(n : ℚ)| * amount := mul_le_mul_of_nonneg_right hone (heps.trans hamt.le)

lemma Sized.allocated_nonneg {intent : MaintenanceIntent} (h : intent.Sized tol)
    (heps : 0 ≤ tol.eps) (instanceId : String) : 0 ≤ intent.allocated instanceId := by
  unfold allocated
  cases hget : intent.allocations.lookup instanceId with
  | none => simp
  | some amount => exact heps.trans (h instanceId amount hget).le

lemma count_takes_eq_zero (h : asset ∉ intent.scope) : intent.takes.count asset = 0 := by
  rw [count_eq_zero]
  unfold takes
  split <;> simp_all [scope]

lemma sign_eq_zero (h : asset ∉ intent.scope) : intent.sign asset = 0 := by
  have hgives : intent.gives.count asset = 0 := by
    rw [count_eq_zero]
    unfold gives
    split <;> simp_all [scope]
  rw [sign, hgives, intent.count_takes_eq_zero h]
  rfl

end MaintenanceIntent

/-! ## Balanced instances -/

/-- An instance whose ledger and shard both moved by the same amounts. -/
def Instance.moved (balance reserved : Asset → ℚ) (i : Instance) : Instance :=
  let book : Book :=
    ⟨fun asset => i.shard.balance asset + balance asset,
      fun asset => i.shard.reserved asset + reserved asset⟩
  { i with ledger := book, shard := book }

/-- The ledger moved by amounts that the end of a call publishes in full. -/
structure Publishable (tol : Tolerance) (scope : List Asset) (before change : Asset → ℚ) :
    Prop where
  outside : ∀ asset ∉ scope, change asset = 0
  sized : ∀ asset, change asset = 0 ∨ tol.eps < |change asset|
  nonneg : ∀ asset, 0 ≤ before asset + change asset

lemma Publishable.store {scope : List Asset} {change after : Asset → ℚ}
    (h : Publishable tol scope before change)
    (hpost : ∀ asset, after asset = before asset + change asset) (asset : Asset) :
    (if asset ∈ scope ∧ tol.eps < |after asset - before asset| then
      AtomicF64.add (before asset) (after asset - before asset) else before asset) =
      before asset + change asset := by
  rw [hpost, add_sub_cancel_left]
  split
  · exact max_eq_left (h.nonneg asset)
  next hsmall =>
  by_cases hin : asset ∈ scope
  · rcases h.sized asset with hzero | hlarge
    · rw [hzero, add_zero]
    · exact absurd ⟨hin, hlarge⟩ hsmall
  · rw [h.outside asset hin, add_zero]

lemma publishable_zero {scope : List Asset} (h : ∀ asset, 0 ≤ before asset) :
    Publishable tol scope before fun _ => 0 where
  outside _ _ := rfl
  sized _ := .inl rfl
  nonneg asset := by
    rw [add_zero]
    exact h asset

lemma Instance.mirror_eq {i : Instance} (h : i.ledger = i.shard) :
    ({ i with ledger := i.shard } : Instance) = i :=
  congrArg (fun ledger => (⟨ledger, i.shard, i.orderReserved⟩ : Instance)) h.symm

/-- Every ledger agrees with its shard. -/
def MaintenanceState.Mirrored (s : MaintenanceState) : Prop :=
  ∀ instanceId i, s.instances.lookup instanceId = some i → i.ledger = i.shard

namespace MaintenanceState

variable {s t : MaintenanceState} {cfg : Config} {scope : List Asset}

lemma Mirrored.lockEconomicState (h : s.Mirrored) (scope : List Asset) :
    s.lockEconomicState scope = s := by
  have hrows : s.instances.mapRows (load scope) = s.instances := by
    refine AList.mapRows_eq_self fun instanceId i hi => ?_
    unfold load
    simp only [h instanceId i hi, ite_self]
    exact mirror_eq (h instanceId i hi)
  rw [MaintenanceState.lockEconomicState, hrows]

lemma Mirrored.lockState (h : s.Mirrored) (cfg : Config) : s.lockState cfg = s := by
  unfold MaintenanceState.lockState
  split
  · rfl
  · have hrows : s.instances.mapRows (fun i => { i with ledger := i.shard }) = s.instances :=
      AList.mapRows_eq_self fun instanceId i hi => mirror_eq (h instanceId i hi)
    rw [hrows]

/-- The end of a call publishes what it has moved in the ledgers. -/
lemma lookup_dropEconomicState {balance reserved : String → Asset → ℚ}
    (ht : ∀ instanceId, t.instances.lookup instanceId = (s.instances.lookup instanceId).map fun i =>
      { i with ledger := (i.moved (balance instanceId) (reserved instanceId)).ledger })
    (hbal : ∀ instanceId i, s.instances.lookup instanceId = some i →
      Publishable cfg.tol scope i.shard.balance (balance instanceId))
    (hrsv : ∀ instanceId i, s.instances.lookup instanceId = some i →
      Publishable cfg.tol scope i.shard.reserved (reserved instanceId)) (instanceId : String) :
    (t.dropEconomicState cfg scope).instances.lookup instanceId =
      (s.instances.lookup instanceId).map
        (moved (balance instanceId) (reserved instanceId)) := by
  rw [MaintenanceState.dropEconomicState, AList.lookup_mapRows, ht]
  cases hi : s.instances.lookup instanceId with
  | none => rfl
  | some i =>
    rw [Option.map_some, Option.map_some, Option.map_some]
    have hb := (hbal instanceId i hi).store fun _ => rfl
    have hr := (hrsv instanceId i hi).store fun _ => rfl
    refine congrArg some ?_
    unfold publish moved
    dsimp only
    rw [funext hb, funext hr]

lemma Mirrored.dropEconomicState (h : s.Mirrored) (heps : 0 ≤ cfg.tol.eps) :
    s.dropEconomicState cfg scope = s := by
  have hrows : s.instances.mapRows (publish cfg.tol scope) = s.instances := by
    refine AList.mapRows_eq_self fun instanceId i hi => ?_
    unfold publish
    simp only [h instanceId i hi, sub_self, abs_zero, not_lt.2 heps, and_false, if_false]
    exact mirror_eq (h instanceId i hi)
  rw [MaintenanceState.dropEconomicState, hrows]

end MaintenanceState

/-! ## What a call can do -/

/-- One operation is written, and every instance and the wallet move by the given amounts. -/
structure Writes (s s' : MaintenanceState) (operationId : String) (op : MaintenanceOperation)
    (balance reserved : String → Asset → ℚ) (physical : Asset → ℚ) : Prop where
  ops : s'.maintenanceOps = s.maintenanceOps.insert operationId op
  instances : ∀ instanceId, s'.instances.lookup instanceId =
    (s.instances.lookup instanceId).map
      (Instance.moved (balance instanceId) (reserved instanceId))
  physical : ∀ asset, s'.physical asset = s.physical asset + physical asset

/-- The ways in which a call changes the state. -/
inductive Moves (tol : Tolerance) (s s' : MaintenanceState) : Prop
  /-- A new operation covers its allocation. -/
  | admitted {operationId : String} {op : MaintenanceOperation} :
      s.maintenanceOps.lookup operationId = none → op.status = .reserved → op.Sized tol →
      Writes s s' operationId op (fun _ _ => 0) op.coverage (fun _ => 0) → Moves tol s s'
  /-- An open operation stays open. -/
  | relabelled {operationId : String} {op op' : MaintenanceOperation} :
      s.maintenanceOps.lookup operationId = some op → op.status.isOpen →
      op'.toMaintenanceIntent = op.toMaintenanceIntent → op'.status.isOpen →
      Writes s s' operationId op' (fun _ _ => 0) (fun _ _ => 0) (fun _ => 0) → Moves tol s s'
  /-- An open operation fails and gives its coverage back. -/
  | failed {operationId : String} {op op' : MaintenanceOperation} :
      s.maintenanceOps.lookup operationId = some op → op.status.isOpen →
      op'.toMaintenanceIntent = op.toMaintenanceIntent → op'.status = .failed →
      Writes s s' operationId op' (fun _ _ => 0) (fun i a => -op.coverage i a) (fun _ => 0) →
      Moves tol s s'
  /-- An open operation is confirmed: it uses its coverage and has its effect. -/
  | confirmed {operationId : String} {op op' : MaintenanceOperation} :
      s.maintenanceOps.lookup operationId = some op → op.status.isOpen →
      op'.toMaintenanceIntent = op.toMaintenanceIntent → op'.status = .confirmed →
      (∀ instanceId i, s.instances.lookup instanceId = some i →
        ∀ asset, 0 ≤ i.shard.balance asset + op.effect instanceId asset) →
      Writes s s' operationId op' op.effect (fun i a => -op.coverage i a) op.physicalEffect →
      Moves tol s s'

/-- Any number of such changes. -/
abbrev Moved (tol : Tolerance) : MaintenanceState → MaintenanceState → Prop :=
  Relation.ReflTransGen (Moves tol)

end HexAgent.Maintenance
