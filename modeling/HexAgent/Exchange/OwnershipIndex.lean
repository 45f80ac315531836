import HexAgent.Types
import HexAgent.ToMathlib.ProbeTable
import HexAgent.ToMathlib.Trace
import Mathlib.Algebra.GroupWithZero.Nat
import Mathlib.Data.Finset.Basic
import Mathlib.Data.Fintype.Pigeonhole

/-!
# The runtime ownership index

`RuntimeOwnershipIndex` of the Polymarket trade adapter: a fixed open-addressed table from order
hashes to the ownership row published for them. New-order workers publish into it, the private
event lane reads it, and retirement removes from it.

The table is deleted from in place and a publish takes the first slot of the probe sequence that
is free or already holds the id. After an unrelated removal has opened a hole in front of a stored
id, publishing that id again therefore leaves its old entry behind, and the next removal of the id
uncovers it.
-/

namespace HexAgent.Exchange

open ProbeTable List Option Function

variable {c : Char} {s : List Char} {key : String}

def runtimeOwnershipCapacity : ℕ := 65536

instance : NeZero runtimeOwnershipCapacity := ⟨by decide⟩

def runtimeOwnershipMaxProbes : ℕ := 128

/-- A published ownership row under the lookup form of its order hash. -/
structure RuntimeOwnershipEntry where
  /-- Lowercase order hash without its `0x`. -/
  normalizedOrderId : String
  /-- The published row. -/
  ownership : OrderOwnership

/-- The fixed table. -/
structure RuntimeOwnershipIndex (capacity : ℕ) where
  /-- The slots; the source's are atomically swappable pointers. -/
  slots : Fin capacity → Option RuntimeOwnershipEntry

/-- Rust's `eq_ignore_ascii_case`. -/
def eqIgnoreAsciiCase (s t : List Char) : Bool :=
  s.map Char.toLower == t.map Char.toLower

namespace RuntimeOwnershipIndex

variable {capacity : ℕ}

/-- The empty table, `with_capacity`. -/
def withCapacity (capacity : ℕ) : RuntimeOwnershipIndex capacity :=
  ⟨fun _ => none⟩

section Probe

variable [NeZero capacity]

/-- Slot that a probe sequence visits at `offset`. -/
def slotAt (start : Fin capacity) (offset : ℕ) : Fin capacity :=
  Fin.ofNat capacity (start + offset)

/-- The slots a probe sequence visits, in order. -/
def probes (start : Fin capacity) : List (Fin capacity) :=
  (range runtimeOwnershipMaxProbes).map (slotAt start)

-- The hash of the source is the standard library's keyed hash of the lowercased bytes of the
-- view; nothing below depends on which function of those characters it is.
variable (hash : List Char → ℕ)

/-- First slot of the probe sequence of an order hash. -/
def startIndex (orderId : String) : Fin capacity :=
  Fin.ofNat capacity (hash ((orderIdView orderId).map Char.toLower))

section

variable (index : RuntimeOwnershipIndex capacity) (orderId : String)

/-- Publish an ownership row; also returns the entry and the number of slots probed. The source
hashes the normalised id, so the `0x` stripping is applied a second time here. -/
def publishCounted (ownership : OrderOwnership) :
    Except String (RuntimeOwnershipEntry × ℕ × RuntimeOwnershipIndex capacity) :=
  let entry : RuntimeOwnershipEntry := ⟨normalizeOrderId orderId, ownership⟩
  let normalized := entry.normalizedOrderId
  let start : Fin capacity := startIndex hash normalized
  let free := fun offset =>
    (index.slots (slotAt start offset)).all fun existing => existing.normalizedOrderId == normalized
  match (range runtimeOwnershipMaxProbes).find? free with
  | some offset =>
    .ok (entry, offset + 1, ⟨update index.slots (slotAt start offset) (some entry)⟩)
  | none =>
    .error (s!"fixed runtime ownership table probe budget exhausted capacity={capacity} " ++
      s!"probes={runtimeOwnershipMaxProbes}")

/-- Publish an ownership row. -/
def publish (ownership : OrderOwnership) : Except String (RuntimeOwnershipIndex capacity) :=
  (publishCounted hash index orderId ownership).map fun r => r.2.2

/-- First entry of the probe sequence whose id matches. -/
def findEntry : Option RuntimeOwnershipEntry :=
  let normalized := orderIdView orderId
  find index.slots
    (fun entry => eqIgnoreAsciiCase entry.normalizedOrderId.toList normalized)
    (probes (startIndex hash orderId))

/-- Ownership published for an order hash. -/
def get : Option OrderOwnership :=
  (findEntry hash index orderId).map (·.ownership)

/-- Remove the first matching entry of the probe sequence. -/
def remove : RuntimeOwnershipIndex capacity :=
  let normalized := orderIdView orderId
  ⟨eraseFirst index.slots
    (fun entry => eqIgnoreAsciiCase entry.normalizedOrderId.toList normalized)
    (probes (startIndex hash orderId))⟩

/-- Remove the first entry of the probe sequence that matches both the order hash and the client
order id. -/
def removeClientOrder (orderId clientOrderId : String) : RuntimeOwnershipIndex capacity :=
  let normalized := orderIdView orderId
  ⟨eraseFirst index.slots
    (fun entry => eqIgnoreAsciiCase entry.normalizedOrderId.toList normalized &&
      entry.ownership.clientOrderId == clientOrderId)
    (probes (startIndex hash orderId))⟩

end

end Probe

/-- Sweep the whole table for the given client order ids. -/
def removeClientOrders (index : RuntimeOwnershipIndex capacity) (clientOrderIds : Finset String) :
    RuntimeOwnershipIndex capacity :=
  if clientOrderIds = ∅ then index
  else ⟨eraseWhere index.slots fun entry =>
    decide (entry.ownership.clientOrderId ∈ clientOrderIds)⟩

end RuntimeOwnershipIndex

/-! ## Histories of the index -/

/-- One mutation of the index. -/
inductive IndexOp
  | publish (orderId : String) (ownership : OrderOwnership)
  | remove (orderId : String)
  | removeClientOrder (orderId clientOrderId : String)
  | removeClientOrders (clientOrderIds : Finset String)

/-- Perform one mutation; only a publish can fail. -/
def IndexOp.run {capacity : ℕ} [NeZero capacity] (hash : List Char → ℕ)
    (index : RuntimeOwnershipIndex capacity) :
    IndexOp → Except String (RuntimeOwnershipIndex capacity)
  | .publish orderId ownership => index.publish hash orderId ownership
  | .remove orderId => .ok (index.remove hash orderId)
  | .removeClientOrder orderId clientOrderId =>
    .ok (index.removeClientOrder hash orderId clientOrderId)
  | .removeClientOrders clientOrderIds => .ok (index.removeClientOrders clientOrderIds)

/-- What the index is for: the owner of every order hash, by its lookup form. -/
abbrev OwnerMap := String → Option OrderOwnership

/-- The effect of one mutation on the owners. A retirement by client order id removes an owner
only if the owner has that client order id. -/
def IndexOp.effect (owners : OwnerMap) : IndexOp → OwnerMap
  | .publish orderId ownership =>
    update owners (normalizeOrderId orderId) (some ownership)
  | .remove orderId => update owners (normalizeOrderId orderId) none
  | .removeClientOrder orderId clientOrderId =>
    let key := normalizeOrderId orderId
    update owners key ((owners key).filter fun o => !(o.clientOrderId == clientOrderId))
  | .removeClientOrders clientOrderIds =>
    fun key => (owners key).filter fun o => !decide (o.clientOrderId ∈ clientOrderIds)

/-- The owners after a history that started from the empty index. -/
def ownersAfter (ops : List IndexOp) : OwnerMap :=
  ops.foldl IndexOp.effect fun _ => none

/-- Hexadecimal digits of either case. -/
def isHexDigit (c : Char) : Bool :=
  "0123456789abcdefABCDEF".toList.contains c

/-- An order hash whose view consists of hexadecimal digits. -/
def IsHexId (orderId : String) : Prop :=
  ∀ c ∈ orderIdView orderId, isHexDigit c = true

instance : DecidablePred IsHexId := fun orderId =>
  decidableBAll (isHexDigit · = true) (orderIdView orderId)

/-- Every order hash that a mutation names is hexadecimal. -/
def IndexOp.HexIds : IndexOp → Prop
  | .publish orderId _ | .remove orderId | .removeClientOrder orderId _ => IsHexId orderId
  | .removeClientOrders _ => True

/-! ## Lookup forms -/

/-- Lowercase hexadecimal digits: the alphabet of the lookup forms. -/
def lowerHexDigits : List Char := "0123456789abcdef".toList

/-- A lookup form: lowercase hexadecimal digits only. -/
def IsLookupForm (key : String) : Prop :=
  ∀ c ∈ key.toList, c ∈ lowerHexDigits

lemma toLower_mem_lowerHexDigits (h : isHexDigit c = true) : c.toLower ∈ lowerHexDigits := by
  have key : "0123456789abcdefABCDEF".toList.all (fun c => c.toLower ∈ lowerHexDigits) := by decide
  exact of_decide_eq_true (all_eq_true.1 key c (by simpa [isHexDigit] using h))

lemma lowerHexDigits_spec (h : c ∈ lowerHexDigits) :
    isWhitespace c = false ∧ c ≠ 'x' ∧ c ≠ 'X' ∧ c.toLower = c := by
  have key : lowerHexDigits.all fun c =>
      isWhitespace c = false ∧ c ≠ 'x' ∧ c ≠ 'X' ∧ c.toLower = c := by decide
  exact of_decide_eq_true (all_eq_true.1 key c h)

lemma trim_eq_self (h : ∀ c ∈ s, isWhitespace c = false) : trim s = s := by
  have hdrop : s.dropWhile isWhitespace = s := by
    rw [dropWhile_eq_self_iff]
    intro hlen
    simpa using h _ (getElem_mem hlen)
  rw [trim, hdrop, rdropWhile_eq_self_iff]
  intro hne
  simpa using h _ (getLast_mem hne)

lemma dropPrefix?_eq_none_of_not_mem {d : Char} (h : d ∉ s) : s.dropPrefix? [c, d] = none := by
  rw [eq_none_iff_forall_ne_some]
  intro t ht
  obtain ⟨l, rfl, hl⟩ := dropPrefix?_eq_some_iff.1 ht
  exact h (by simp [eq_of_beq hl])

lemma IsLookupForm.orderIdView_eq (h : IsLookupForm key) : orderIdView key = key.toList := by
  have htrim : trim key.toList = key.toList :=
    trim_eq_self fun c hc => (lowerHexDigits_spec (h c hc)).1
  have hx : 'x' ∉ key.toList := fun hc => (lowerHexDigits_spec (h _ hc)).2.1 rfl
  have hX : 'X' ∉ key.toList := fun hc => (lowerHexDigits_spec (h _ hc)).2.2.1 rfl
  simp [orderIdView, htrim, dropPrefix?_eq_none_of_not_mem hx, dropPrefix?_eq_none_of_not_mem hX]

lemma IsLookupForm.map_toLower_eq (h : IsLookupForm key) :
    key.toList.map Char.toLower = key.toList := by
  conv_rhs => rw [← map_id key.toList]
  exact map_congr_left fun c hc => (lowerHexDigits_spec (h c hc)).2.2.2

/-- Comparing a stored lookup form with the view of a query, ignoring case, is comparing lookup
forms. -/
lemma IsLookupForm.eqIgnoreAsciiCase_eq (h : IsLookupForm key) (orderId : String) :
    eqIgnoreAsciiCase key.toList (orderIdView orderId) = (key == normalizeOrderId orderId) := by
  rw [eqIgnoreAsciiCase, h.map_toLower_eq, normalizeOrderId, Bool.eq_iff_iff]
  simp only [beq_iff_eq, ← String.toList_inj, String.toList_ofList]

lemma isLookupForm_normalizeOrderId {orderId : String} (h : IsHexId orderId) :
    IsLookupForm (normalizeOrderId orderId) := by
  intro c hc
  rw [normalizeOrderId, String.toList_ofList, List.mem_map] at hc
  obtain ⟨d, hd, rfl⟩ := hc
  exact toLower_mem_lowerHexDigits (h d hd)

/-! ## Refinement of the owner map -/

section Refinement

variable {capacity : ℕ} [NeZero capacity] {hash : List Char → ℕ}
  {index : RuntimeOwnershipIndex capacity} {orderId : String} {owned : OrderOwnership}
  {owners : OwnerMap}

open RuntimeOwnershipIndex

lemma startIndex_normalizeOrderId (h : IsHexId orderId) :
    (startIndex hash (normalizeOrderId orderId) : Fin capacity) = startIndex hash orderId := by
  have hkey := isLookupForm_normalizeOrderId h
  rw [startIndex, startIndex, hkey.orderIdView_eq, hkey.map_toLower_eq, normalizeOrderId,
    String.toList_ofList]

/-- The probe path of a lookup form. -/
def probePath (capacity : ℕ) [NeZero capacity] (hash : List Char → ℕ) (key : String) :
    List (Fin capacity) :=
  probes (startIndex hash key)

/-- The table holds lookup forms only, each at most once and on its own probe path. -/
structure WellFormed (hash : List Char → ℕ) (index : RuntimeOwnershipIndex capacity) : Prop where
  exact : ProbeTable.Exact (probePath capacity hash) (·.normalizedOrderId) index.slots
  lookupForm : ∀ i e, index.slots i = some e → IsLookupForm e.normalizedOrderId

/-- Entry stored for a lookup form. -/
def entryOf (hash : List Char → ℕ) (index : RuntimeOwnershipIndex capacity) (key : String) :
    Option RuntimeOwnershipEntry :=
  find index.slots (fun e => e.normalizedOrderId == key) (probePath capacity hash key)

lemma WellFormed.findEntry_eq (hw : WellFormed hash index) (h : IsHexId orderId) :
    findEntry hash index orderId = entryOf hash index (normalizeOrderId orderId) := by
  rw [entryOf, probePath, startIndex_normalizeOrderId h]
  exact find_congr_pred fun i e he => (hw.lookupForm i e he).eqIgnoreAsciiCase_eq _

/-- The slot that a publish of `orderId` writes. -/
def publishSlot (hash : List Char → ℕ) (index : RuntimeOwnershipIndex capacity)
    (orderId : String) : Option (Fin capacity) :=
  target index.slots (fun e => e.normalizedOrderId == normalizeOrderId orderId)
    (probePath capacity hash (normalizeOrderId orderId))

variable {index' : RuntimeOwnershipIndex capacity}

lemma publish_eq_ok_iff :
    index.publish hash orderId owned = .ok index' ↔
      ∃ i, publishSlot hash index orderId = some i ∧
        index' = ⟨update index.slots i (some ⟨normalizeOrderId orderId, owned⟩)⟩ := by
  rw [publish, publishCounted, publishSlot, target, probePath, probes, find?_map, comp_def]
  split
  · next offset hoff =>
    simp only [hoff, Except.map, Except.ok.injEq, map_some, some.injEq, exists_eq_left']
    exact eq_comm
  · next hnone => simp [hnone, Except.map]

/-- The guard under which a mutation keeps the table exact: when a publish finds its id stored, no
empty slot precedes the stored entry on the probe path. -/
def InPlace (hash : List Char → ℕ) (index : RuntimeOwnershipIndex capacity) : IndexOp → Prop
  | .publish orderId _ => ∀ i e, index.slots i = some e →
      e.normalizedOrderId = normalizeOrderId orderId →
      ∀ j ∈ (probePath capacity hash (normalizeOrderId orderId)).takeWhile (· ≠ i),
        index.slots j ≠ none
  | _ => True

/-- The index holds exactly the owners of a map. -/
structure Refines (hash : List Char → ℕ) (index : RuntimeOwnershipIndex capacity)
    (owners : OwnerMap) : Prop where
  wellFormed : WellFormed hash index
  owner : ∀ key, IsLookupForm key → (entryOf hash index key).map (·.ownership) = owners key

lemma refines_withCapacity :
    Refines hash (withCapacity capacity) fun _ => none where
  wellFormed :=
    ⟨{ onPath := by simp [withCapacity], unique := by simp [withCapacity] }, by simp [withCapacity]⟩
  owner key _ := by simp [entryOf, find, withCapacity]

section

variable (hr : Refines hash index owners)
include hr

lemma Refines.publish (hhex : IsHexId orderId)
    (hplace : InPlace hash index (.publish orderId owned))
    (hrun : index.publish hash orderId owned = .ok index') :
    Refines hash index' (IndexOp.effect owners (.publish orderId owned)) := by
  obtain ⟨i, hslot, rfl⟩ := publish_eq_ok_iff.1 hrun
  obtain ⟨hpath, hmatch⟩ := target_eq_some hslot
  set entry : RuntimeOwnershipEntry := ⟨normalizeOrderId orderId, owned⟩ with hent
  have hfree : ∀ j e, index.slots j = some e → e.normalizedOrderId = entry.normalizedOrderId →
      j = i := by
    intro j e he hkey
    have hkey : e.normalizedOrderId = normalizeOrderId orderId := hkey
    have hstop := hr.wellFormed.exact.target_eq he (hkey ▸ hplace j e he hkey)
    rw [hkey] at hstop
    exact some.inj (hstop.symm.trans hslot)
  refine ⟨⟨hr.wellFormed.exact.update_some (a := entry) hpath hfree, fun j e he => ?_⟩,
    fun key hkey => ?_⟩
  · by_cases hj : j = i
    · subst hj
      obtain rfl : entry = e := by simpa using he
      exact isLookupForm_normalizeOrderId hhex
    · exact hr.wellFormed.lookupForm j e (by simpa [hj] using he)
  · have hfind := find_update_some hr.wellFormed.exact (a := entry) hpath
      (fun e he => by simpa using hmatch e he) hfree key
    rw [entryOf, hfind, IndexOp.effect]
    by_cases hk : key = normalizeOrderId orderId
    · simp [hk, hent]
    · simpa [hk, hent, entryOf] using hr.owner key hkey

/-- Deleting what a predicate on owners selects under one lookup form. -/
lemma Refines.eraseFirst (hhex : IsHexId orderId) (q : OrderOwnership → Bool) : Refines hash
      ⟨eraseFirst index.slots
        (fun e => eqIgnoreAsciiCase e.normalizedOrderId.toList (orderIdView orderId) &&
          q e.ownership)
        (probes (startIndex hash orderId))⟩
      (update owners (normalizeOrderId orderId)
        ((owners (normalizeOrderId orderId)).filter fun o => !q o)) := by
  have hw := hr.wellFormed
  -- The removal by order hash, in terms of lookup forms.
  rw [eraseFirst_congr_pred fun i e he => congrArg (· && q e.ownership)
    ((hw.lookupForm i e he).eqIgnoreAsciiCase_eq _), ← startIndex_normalizeOrderId hhex,
    ← probePath]
  refine ⟨⟨hw.exact.eraseFirst _ _, fun j e he => ?_⟩, fun key hkey => ?_⟩
  · exact hw.lookupForm j e (eraseFirst_eq_some.1 he).1
  · have hfind := find_eraseFirst hw.exact
      (p := fun e => e.normalizedOrderId == normalizeOrderId orderId && q e.ownership)
      (k := normalizeOrderId orderId) (fun e he => by simp_all) key
    have hown := hr.owner key hkey
    rw [entryOf, hfind, ← entryOf]
    -- Only the entry of the named lookup form can be selected.
    cases he : entryOf hash index key with
    | none =>
      rw [he] at hown
      by_cases hk : key = normalizeOrderId orderId
      · subst hk
        simp [← hown]
      · simp [hk, ← hown]
    | some e =>
      have hkey' : e.normalizedOrderId = key := by
        obtain ⟨-, -, -, h⟩ := exists_of_find_eq_some he
        simpa using h
      rw [he] at hown
      by_cases hk : key = normalizeOrderId orderId
      · subst hk
        cases hq : q e.ownership <;> simp [← hown, filter_some, hkey', hq]
      · simp [hk, hkey', ← hown]

lemma Refines.removeClientOrders (ids : Finset String) : Refines hash (index.removeClientOrders ids)
      (IndexOp.effect owners (.removeClientOrders ids)) := by
  have hw := hr.wellFormed
  rw [RuntimeOwnershipIndex.removeClientOrders, IndexOp.effect]
  split
  · next hempty =>
    have hkeep : (fun key => (owners key).filter fun o => !decide (o.clientOrderId ∈ ids)) =
        owners := by
      funext key
      cases owners key <;> simp [hempty, filter_some]
    rwa [hkeep]
  · refine ⟨⟨hw.exact.eraseWhere _, fun j e he => ?_⟩, fun key hkey => ?_⟩
    · exact hw.lookupForm j e (eraseWhere_eq_some.1 he).1
    · have hfind := find_eraseWhere hw.exact
        (fun e => decide (e.ownership.clientOrderId ∈ ids)) key
      rw [entryOf, hfind, ← entryOf, ← hr.owner key hkey]
      cases entryOf hash index key with
      | none => rfl
      | some e =>
        simp only [filter_some, map_some]
        split <;> rfl

/-- One guarded mutation keeps the refinement. -/
lemma Refines.step {op : IndexOp} (hhex : op.HexIds)
    (hplace : InPlace hash index op) (hrun : op.run hash index = .ok index') :
    Refines hash index' (op.effect owners) := by
  cases op with
  | publish orderId owned => exact hr.publish hhex hplace hrun
  | remove orderId =>
    simp only [IndexOp.run, Except.ok.injEq] at hrun
    have hnone : (owners (normalizeOrderId orderId)).filter (fun _ => !true) = none := by
      cases owners (normalizeOrderId orderId) <;> rfl
    have h := hr.eraseFirst hhex fun _ => true
    simp only [Bool.and_true, hnone] at h
    rwa [← hrun]
  | removeClientOrder orderId clientOrderId =>
    simp only [IndexOp.run, Except.ok.injEq] at hrun
    rw [← hrun]
    exact hr.eraseFirst hhex fun o => o.clientOrderId == clientOrderId
  | removeClientOrders ids =>
    simp only [IndexOp.run, Except.ok.injEq] at hrun
    rw [← hrun]
    exact hr.removeClientOrders ids

end

/-- In every history of successful mutations over hexadecimal ids in which no publish leaves a
copy of its id behind, a lookup returns the owner that the history leaves for that id. -/
theorem get_eq_owners_of_inPlace {ops : List IndexOp}
    (hrun : Trace (fun s op s' => op.HexIds ∧ InPlace hash s op ∧ op.run hash s = .ok s')
      (withCapacity capacity) ops index) (hhex : IsHexId orderId) :
    index.get hash orderId = ownersAfter ops (normalizeOrderId orderId) := by
  have hr : Refines hash index (ownersAfter ops) :=
    hrun.simulation (fun _ _ _ _ hr h => hr.step h.1 h.2.1 h.2.2) refines_withCapacity
  rw [RuntimeOwnershipIndex.get, hr.wellFormed.findEntry_eq hhex]
  exact hr.owner _ (isLookupForm_normalizeOrderId hhex)

/-- A published row, for tests. -/
def sampleOwnership (clientOrderId : String) : OrderOwnership where
  accountId := "account"
  instanceId := "maker"
  clientOrderId := clientOrderId
  orderId := "0xAb"
  tokenId := "UP"
  side := .buy
  quantity := 1
  price := 1 / 2
  reservedCash := 1 / 2
  reservedQuantity := 0

/-- Two ids with one home slot; the displaced one is published again in place. -/
def displacedRun : List IndexOp :=
  [.publish "0xa" (sampleOwnership "first"), .publish "0xb" (sampleOwnership "old"),
    .publish "0xB" (sampleOwnership "new"), .removeClientOrder "b" "old", .remove "0xa"]

/-- The displaced id keeps the owner of its second publish after its neighbour has left. -/
theorem get_eq_owners_of_inPlace_displaced :
    ∃ index : RuntimeOwnershipIndex 4,
      Trace (fun s (op : IndexOp) s' => op.HexIds ∧ InPlace (fun _ => 3) s op ∧
        op.run (fun _ => 3) s = .ok s') (withCapacity 4) displacedRun index ∧
      index.get (fun _ => 3) "0Xb" = some (sampleOwnership "new") := by
  let neighbour : RuntimeOwnershipEntry := ⟨"a", sampleOwnership "first"⟩
  let displaced : RuntimeOwnershipEntry := ⟨"b", sampleOwnership "old"⟩
  let slots : Fin 4 → Option RuntimeOwnershipEntry := update (fun _ => none) 3 (some neighbour)
  have hneighbour i e (he : slots i = some e) : i = 3 ∧ e = neighbour := by
    by_cases hi : i = 3
    · exact ⟨hi, by simpa [slots, hi] using he.symm⟩
    · simp [slots, hi] at he
  have hnew : InPlace (fun _ => 3) ⟨slots⟩ (.publish "0xb" (sampleOwnership "old")) := by
    intro i e he hkey
    rw [(hneighbour i e he).2] at hkey
    exact absurd hkey (by decide)
  have hagain : InPlace (fun _ => 3) ⟨update slots 0 (some displaced)⟩
      (.publish "0xB" (sampleOwnership "new")) := by
    intro i e he hkey j hj
    by_cases hi : i = 0
    · -- The path visits slot 3, which the neighbour holds, and then slot 0.
      subst hi
      have hpath : (probePath 4 (fun _ => 3) (normalizeOrderId "0xB")).takeWhile
          (fun k : Fin 4 => decide (k ≠ 0)) = [3] := by decide
      rw [hpath, mem_singleton] at hj
      subst hj
      exact some_ne_none neighbour
    · replace he : slots i = some e := (update_of_ne hi _ _).symm.trans he
      rw [(hneighbour i e he).2] at hkey
      exact absurd hkey (by decide)
  have hrun : ∃ index, Trace (fun s (op : IndexOp) s' => op.HexIds ∧ InPlace (fun _ => 3) s op ∧
      op.run (fun _ => 3) s = .ok s') (withCapacity 4) displacedRun index :=
    ⟨_, .cons ⟨show IsHexId "0xa" by decide, fun i e he => by simp [withCapacity] at he,
        publish_eq_ok_iff.2 ⟨3, by decide, rfl⟩⟩ <|
      .cons ⟨show IsHexId "0xb" by decide, hnew, publish_eq_ok_iff.2 ⟨0, by decide, rfl⟩⟩ <|
      .cons ⟨show IsHexId "0xB" by decide, hagain, publish_eq_ok_iff.2 ⟨0, by decide, rfl⟩⟩ <|
      .cons ⟨show IsHexId "b" by decide, trivial, rfl⟩ <|
      .cons ⟨show IsHexId "0xa" by decide, trivial, rfl⟩ <| .nil _⟩
  obtain ⟨index, hrun⟩ := hrun
  exact ⟨index, hrun, get_eq_owners_of_inPlace hrun (show IsHexId "0Xb" by decide)⟩

end Refinement

/-! ## A removed id that comes back -/

section Collision

open RuntimeOwnershipIndex

variable (n : ℕ) {capacity : ℕ} [NeZero capacity] {hash : List Char → ℕ}

lemma slotAt_zero (start : Fin capacity) : slotAt start 0 = start := by
  simp [slotAt]

lemma slotAt_one_ne (hcap : 2 ≤ capacity) (start : Fin capacity) : slotAt start 1 ≠ start := by
  intro h
  have hval : (start.val + 1) % capacity = start.val := congrArg Fin.val h
  rcases Nat.lt_or_ge (start.val + 1) capacity with hlt | hge
  · rw [Nat.mod_eq_of_lt hlt] at hval
    omega
  · have heq : start.val + 1 = capacity := by omega
    rw [heq, Nat.mod_self] at hval
    omega

lemma probes_eq_cons (start : Fin capacity) :
    ∃ rest, probes start = start :: slotAt start 1 :: rest := by
  have hrange : range runtimeOwnershipMaxProbes = 0 :: 1 :: (range 126).map (· + 2) := by
    decide
  rw [probes, hrange, map_cons, slotAt_zero]
  exact ⟨_, rfl⟩

/-- Removing an id that its home slot holds empties that slot. -/
lemma remove_eq_of_home {index : RuntimeOwnershipIndex capacity} {orderId : String}
    {e : RuntimeOwnershipEntry} (hhex : IsHexId orderId)
    (he : index.slots (startIndex hash orderId) = some e)
    (hkey : e.normalizedOrderId = normalizeOrderId orderId) :
    index.remove hash orderId = ⟨update index.slots (startIndex hash orderId) none⟩ := by
  obtain ⟨rest, hprobes⟩ := probes_eq_cons (startIndex hash orderId : Fin capacity)
  have hcmp : eqIgnoreAsciiCase e.normalizedOrderId.toList (orderIdView orderId) = true := by
    rw [hkey, (isLookupForm_normalizeOrderId hhex).eqIgnoreAsciiCase_eq, beq_self_eq_true]
  have hholder : holder index.slots
      (fun entry => eqIgnoreAsciiCase entry.normalizedOrderId.toList (orderIdView orderId))
      (probes (startIndex hash orderId)) = some (startIndex hash orderId) := by
    rw [holder, hprobes, find?_cons_of_pos (by simp [he, hcmp])]
  simp only [RuntimeOwnershipIndex.remove, eraseFirst, hholder]

/-- Two ids `a` and `b` with one home slot: `b` is displaced by `a`, `a` leaves, `b` is published
again into the hole, and removing `b` uncovers its first owner. -/
lemma resurfaces_of_collision (hcap : 2 ≤ capacity) {a b : String} (ha : IsHexId a) (hb : IsHexId b)
    (hne : normalizeOrderId a ≠ normalizeOrderId b)
    (hstart : (startIndex hash a : Fin capacity) = startIndex hash b)
    {first old new : OrderOwnership} :
    ∃ index,
      Trace (fun s (op : IndexOp) s' => op.HexIds ∧ op.run hash s = .ok s') (withCapacity capacity)
        [.publish a first, .publish b old, .remove a, .publish b new, .remove b] index ∧
      index.get hash b = some old := by
  obtain ⟨rest, hprobes⟩ := probes_eq_cons (startIndex hash a : Fin capacity)
  have hslot := slotAt_one_ne hcap (startIndex hash a : Fin capacity)
  have hA : (startIndex hash (normalizeOrderId a) : Fin capacity) = startIndex hash a :=
    startIndex_normalizeOrderId ha
  have hB : (startIndex hash (normalizeOrderId b) : Fin capacity) = startIndex hash a := by
    rw [startIndex_normalizeOrderId hb, hstart]
  have hcmpB := (isLookupForm_normalizeOrderId hb).eqIgnoreAsciiCase_eq
  -- The slots after each mutation: `a` at home, `b` next to it, the hole, `b` twice, `b` once.
  refine ⟨_, .cons ⟨ha, publish_eq_ok_iff.2 ⟨startIndex hash a, ?_, rfl⟩⟩ <|
    .cons ⟨hb, publish_eq_ok_iff.2 ⟨slotAt (startIndex hash a) 1, ?_, rfl⟩⟩ <|
    .cons ⟨ha, congrArg Except.ok
      (remove_eq_of_home (e := ⟨normalizeOrderId a, first⟩) ha ?_ rfl)⟩ <|
    .cons ⟨hb, publish_eq_ok_iff.2 ⟨startIndex hash a, ?_, rfl⟩⟩ <|
    .cons ⟨hb, congrArg Except.ok (remove_eq_of_home (e := ⟨normalizeOrderId b, new⟩) hb ?_ rfl)⟩ <|
    .nil _, ?_⟩
  · simp [publishSlot, target, probePath, hA, hprobes, withCapacity]
  · simp [publishSlot, target, probePath, hB, hprobes, withCapacity, hslot, hne]
  · simp [hslot.symm]
  · simp [publishSlot, target, probePath, hB, hprobes]
  · simp [← hstart]
  · simp [RuntimeOwnershipIndex.get, findEntry, find, ← hstart, hprobes, hslot, hcmpB, filter_some]

/-- The order hashes `0xa`, `0xaa`, `0xaaa`, ... -/
def repeatedHexId (n : ℕ) : String :=
  String.ofList ('0' :: 'x' :: replicate (n + 1) 'a')

lemma orderIdView_repeatedHexId : orderIdView (repeatedHexId n) = replicate (n + 1) 'a' := by
  have htrim : trim ('0' :: 'x' :: replicate (n + 1) 'a') =
      '0' :: 'x' :: replicate (n + 1) 'a' := by
    refine trim_eq_self fun c hc => ?_
    simp only [mem_cons, mem_replicate] at hc
    rcases hc with rfl | rfl | ⟨-, rfl⟩ <;> decide
  simp [orderIdView, repeatedHexId, htrim, dropPrefix?]

lemma isHexId_repeatedHexId : IsHexId (repeatedHexId n) := by
  intro c hc
  rw [orderIdView_repeatedHexId] at hc
  rw [eq_of_mem_replicate hc]
  decide

lemma normalizeOrderId_repeatedHexId_injective :
    Function.Injective fun n => normalizeOrderId (repeatedHexId n) := by
  intro m n h
  have hlen := congrArg (fun s => s.toList.length) h
  simpa [normalizeOrderId, orderIdView_repeatedHexId] using hlen

/-- Whatever the hash function, the production table has two ids that begin with `0x` and share a
home slot. One of them is published over the other, published again after the other has left, and
removed: every mutation succeeds, the history leaves no owner for it, and a lookup answers with the
owner of its superseded first publish. -/
theorem exists_resurfacing_run (hash : List Char → ℕ) (first old new : OrderOwnership) :
    ∃ (a b : String) (index : RuntimeOwnershipIndex runtimeOwnershipCapacity),
      let ops : List IndexOp :=
        [.publish a first, .publish b old, .remove a, .publish b new, .remove b]
      ['0', 'x'] <+: a.toList ∧ ['0', 'x'] <+: b.toList ∧
      Trace (fun s (op : IndexOp) s' => op.HexIds ∧ op.run hash s = .ok s')
        (withCapacity runtimeOwnershipCapacity) ops index ∧
      ownersAfter ops (normalizeOrderId b) = none ∧ index.get hash b = some old := by
  -- There are more ids than slots, so two of them share a home slot.
  obtain ⟨m, n, hmn, hstart⟩ := Finite.exists_ne_map_eq_of_infinite fun n =>
    (startIndex hash (repeatedHexId n) : Fin runtimeOwnershipCapacity)
  obtain ⟨index, hrun, hget⟩ := resurfaces_of_collision (by decide) (isHexId_repeatedHexId m)
    (isHexId_repeatedHexId n) (normalizeOrderId_repeatedHexId_injective.ne hmn) hstart
  have hstarts (n : ℕ) : ['0', 'x'] <+: (repeatedHexId n).toList := by simp [repeatedHexId]
  refine ⟨_, _, index, hstarts m, hstarts n, hrun, ?_, hget⟩
  simp [ownersAfter, IndexOp.effect]

/-- Two ids with the home slot 3. -/
def collidingRun : List IndexOp :=
  [.publish "0xa" (sampleOwnership "first"), .publish "0xb" (sampleOwnership "old"), .remove "0xa",
    .publish "0xb" (sampleOwnership "new"), .remove "0xb"]

/-- The last operation removes an id, and the id still has the owner of a superseded publish. -/
theorem removed_id_resurfaces :
    ∃ index : RuntimeOwnershipIndex runtimeOwnershipCapacity,
      Trace (fun s (op : IndexOp) s' => op.HexIds ∧ op.run (fun _ => 3) s = .ok s')
        (withCapacity runtimeOwnershipCapacity) collidingRun index ∧
      ownersAfter collidingRun (normalizeOrderId "0xb") = none ∧
      index.get (fun _ => 3) "0xb" = some (sampleOwnership "old") := by
  have hstart : (startIndex (fun _ => 3) "0xa" : Fin runtimeOwnershipCapacity) =
      startIndex (fun _ => 3) "0xb" := rfl
  obtain ⟨index, hrun, hget⟩ := resurfaces_of_collision (by decide) (by decide) (by decide)
    (by decide) hstart
  refine ⟨index, hrun, ?_, hget⟩
  simp [ownersAfter, collidingRun, IndexOp.effect]

end Collision

end HexAgent.Exchange
