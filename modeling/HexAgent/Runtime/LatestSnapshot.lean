import HexAgent.ToMathlib.Trace
import Mathlib.Data.List.Perm.Basic
import Mathlib.Logic.Function.Basic

/-!
# The latest-snapshot cell

A publisher and a receiver share three slots. The publisher owns `back`, the receiver owns `front`,
and `middle` holds the index of the third slot together with a bit that says whether it has an
unread value; one atomic exchange with `middle` hands a slot over. `step` is one atomic operation of
either side, or one end of an access to a slot: `publish` is the operations `write`, `written`,
`swap`, and `try_recv` is `tryRecv`, `load` and, for a value, `take`, `read`. They are interleaved
in any order.

In every interleaving the sides never touch the same slot, and every result of `try_recv` is
`Fresh`: a whole published value, newer than all before it and at least as new as what was published
when the call began; or an error that hides nothing (`latest_snapshot_fresh`).
-/

namespace HexAgent.Runtime.LatestSnapshot

open Function

def dirty : ℕ := 4

def index : ℕ := 3

variable {α : Type}

/-- Where the publisher is. -/
inductive Publishing (α : Type)
  | idle
  | writing (value : α)
  | swapping (value : α)
  | dropped

/-- Where the receiver is; `since` is the number of values published when the call began. -/
inductive Receiving
  | idle
  | loading (alive : Bool) (since : ℕ)
  | taking (since : ℕ)
  | reading (since : ℕ)

inductive TryRecvError
  | empty
  | disconnected
  deriving DecidableEq

/-- A value and the number of values published before it. A slot without one is not initialised, or
is being written. -/
abbrev Stamped (α : Type) := Option (ℕ × α)

/-- The cell with its two sides. The results of `try_recv` are kept, the last one first, with the
number of values published when the call began. -/
structure Cell (α : Type) where
  slots : ℕ → Stamped α := fun _ => none
  middle : ℕ := 1
  producerAlive : Bool := true
  back : ℕ := 2
  publishing : Publishing α := .idle
  /-- The last `publish` replaced an unread value. -/
  replaced : Bool := false
  front : ℕ := 0
  receiving : Receiving := .idle
  published : List α := []
  results : List (ℕ × Except TryRecvError (Stamped α)) := []

inductive Action (α : Type)
  | write (value : α)
  | written
  | swap
  | drop
  | tryRecv
  | load
  | take
  | read

namespace Cell

def isEmpty (s : Cell α) : Bool := s.middle &&& dirty = 0

def step (s : Cell α) (a : Action α) : Option (Cell α) :=
  match a, s.publishing, s.receiving with
  | .write value, .idle, _ => some { s with
      publishing := .writing value
      slots := update s.slots s.back none }
  | .written, .writing value, _ => some { s with
      publishing := .swapping value
      slots := update s.slots s.back (some (s.published.length, value)) }
  | .swap, .swapping value, _ => some { s with
      publishing := .idle
      middle := s.back ||| dirty
      back := s.middle &&& index
      replaced := !s.isEmpty
      published := s.published ++ [value] }
  | .drop, .idle, _ => some { s with publishing := .dropped, producerAlive := false }
  | .tryRecv, _, .idle => some { s with
      receiving := .loading s.producerAlive s.published.length }
  | .load, _, .loading alive since =>
    if s.isEmpty then some { s with
      receiving := .idle
      results := (since, .error (if alive then .empty else .disconnected)) :: s.results }
    else some { s with receiving := .taking since }
  | .take, _, .taking since => some { s with
      receiving := .reading since
      middle := s.front
      front := s.middle &&& index }
  | .read, _, .reading since => some { s with
      receiving := .idle
      results := (since, .ok (s.slots s.front)) :: s.results }
  | _, _, _ => none

/-! ## Fresh results -/

/-- One more than the number of the newest value returned. -/
def seen : List (ℕ × Except TryRecvError (Stamped α)) → ℕ
  | (_, .ok (some (k, _))) :: results => max (k + 1) (seen results)
  | _ :: results => seen results
  | [] => 0

/-- What each result says, given the results before it: a value was published, is newer than those
returned before and no older than those published when the call began; without one, all of these
were returned before, and at a disconnection all that are ever published. -/
def Fresh (published : List α) : List (ℕ × Except TryRecvError (Stamped α)) → Prop
  | [] => True
  | (since, result) :: earlier => Fresh published earlier ∧ match result with
    | .ok none => False
    | .ok (some (k, value)) => published[k]? = some value ∧ seen earlier ≤ k ∧ since ≤ k + 1
    | .error e => since ≤ seen earlier ∧ (e = .disconnected → published.length ≤ seen earlier)

lemma Fresh.publish {published : List α} {value : α}
    {results : List (ℕ × Except TryRecvError (Stamped α))} (h : Fresh published results)
    (hopen : ∀ since, (since, .error .disconnected) ∉ results) :
    Fresh (published ++ [value]) results := by
  induction results with
  | nil => trivial
  | cons result results ih =>
    refine ⟨ih h.1 fun since hmem => hopen since (.tail _ hmem), ?_⟩
    match result, h.2 with
    | (_, .ok (some (k, _))), ⟨hk, hnewer⟩ =>
      exact ⟨List.getElem?_append_left (List.getElem?_eq_some_iff.1 hk).1 ▸ hk, hnewer⟩
    | (since, .error e), ⟨hsince, _⟩ =>
      exact ⟨hsince, fun he => absurd (he ▸ .head _) (hopen since)⟩

/-! ## Slots -/

variable {s s' : Cell α} {taken : ℕ} {a : Action α}

/-- The slot has the published value of this number. -/
def Holds (s : Cell α) (slot k : ℕ) : Prop :=
  ∃ value, s.published[k]? = some value ∧ s.slots slot = some (k, value)

/-- What the receiver knows in its call. -/
def Knows (s : Cell α) (taken : ℕ) : Receiving → Prop
  | .idle => seen s.results = taken
  | .loading alive since => seen s.results = taken ∧ since ≤ s.published.length ∧
      (s.publishing ≠ .dropped → alive = true)
  | .taking since => seen s.results = taken ∧ since ≤ s.published.length ∧ s.isEmpty = false
  | .reading since => ∃ k, taken = k + 1 ∧ seen s.results ≤ k ∧ since ≤ k + 1 ∧ s.Holds s.front k

/-- Each slot has one role. Of the published values the receiver has `taken` the first ones or will
never see them, and the newest one waits unless it is among these. -/
structure Sound (s : Cell α) (taken : ℕ) : Prop where
  roles : [s.back, s.middle &&& index, s.front].Perm [0, 1, 2]
  written : ∀ value, s.publishing = .swapping value →
    s.slots s.back = some (s.published.length, value)
  unread : s.isEmpty = false → ∃ k, s.published.length = k + 1 ∧ taken ≤ k ∧
    s.Holds (s.middle &&& index) k
  read : s.isEmpty = true → taken = s.published.length
  knows : s.Knows taken s.receiving
  alive : s.publishing ≠ .dropped →
    s.producerAlive = true ∧ ∀ since, (since, .error .disconnected) ∉ s.results
  fresh : Fresh s.published s.results

/-- Indices are below the bit. -/
lemma packed : ∀ i ∈ [0, 1, 2], (i ||| dirty) &&& index = i ∧ (i ||| dirty) &&& dirty ≠ 0 ∧
    i &&& index = i ∧ i &&& dirty = 0 := by
  decide

/-- A step of the publisher changes nothing for the receiver. -/
lemma Knows.publish {r : Receiving} (h : s.Knows taken r) {more : List α}
    (hpub : s'.published = s.published ++ more) (hres : s'.results = s.results)
    (hslot : s'.slots s'.front = s.slots s.front) (hopen : s.publishing ≠ .dropped)
    (hempty : s.isEmpty = false → s'.isEmpty = false) : s'.Knows taken r := by
  have hlen : s.published.length ≤ s'.published.length := by
    rw [hpub, List.length_append]
    omega
  cases r with
  | idle => exact (congrArg seen hres).trans h
  | loading alive since =>
    exact ⟨hres ▸ h.1, Nat.le_trans h.2.1 hlen, fun _ => h.2.2 hopen⟩
  | taking since => exact ⟨hres ▸ h.1, Nat.le_trans h.2.1 hlen, hempty h.2.2⟩
  | reading since =>
    obtain ⟨k, hk, hseen, hsince, value, hvalue, hfront⟩ := h
    refine ⟨k, hk, hres ▸ hseen, hsince, value, ?_, hslot.trans hfront⟩
    rw [hpub, List.getElem?_append_left (List.getElem?_eq_some_iff.1 hvalue).1, hvalue]

lemma Sound.back_ne (h : s.Sound taken) : s.back ≠ s.middle &&& index ∧ s.back ≠ s.front := by
  have hnodup := h.roles.nodup_iff.2 (by decide)
  simp only [List.nodup_cons, List.mem_cons, List.not_mem_nil, or_false, not_or] at hnodup
  exact hnodup.1

/-- The publisher writes its own slot. -/
lemma Sound.writeBack (h : s.Sound taken) {p : Publishing α} {cell : Stamped α}
    (hopen : s.publishing ≠ .dropped)
    (hwritten : ∀ value, p = .swapping value → cell = some (s.published.length, value)) :
    Sound { s with publishing := p, slots := update s.slots s.back cell } taken := by
  obtain ⟨hmid, hfront⟩ := h.back_ne
  refine ⟨h.roles, fun value hp => ?_, fun he => ?_, h.read, ?_, fun _ => h.alive hopen, h.fresh⟩
  · exact (update_self ..).trans (hwritten value hp)
  · obtain ⟨k, hk, htaken, value, hvalue, hslot⟩ := h.unread he
    exact ⟨k, hk, htaken, value, hvalue, (update_of_ne (Ne.symm hmid) ..).trans hslot⟩
  · exact h.knows.publish (List.append_nil _).symm rfl (update_of_ne (Ne.symm hfront) ..) hopen id

lemma Sound.step (h : s.Sound taken) (hstep : s.step a = some s') : ∃ taken, s'.Sound taken := by
  have hpacked i (hi : i ∈ [s.back, s.middle &&& index, s.front]) := packed i (h.roles.mem_iff.1 hi)
  have hknows := h.knows
  unfold Cell.step at hstep
  split at hstep
  case h_1 value hp => -- write
    cases hstep
    exact ⟨taken, h.writeBack (by rw [hp]; nofun) nofun⟩
  case h_2 value hp => -- written
    cases hstep
    refine ⟨taken, h.writeBack (by rw [hp]; nofun) fun v hv => ?_⟩
    cases hv
    rfl
  case h_3 value hp => -- swap
    cases hstep
    have hopen : s.publishing ≠ .dropped := by rw [hp]; nofun
    obtain ⟨hindex, hdirty, -⟩ := hpacked s.back (.head _)
    have htaken : taken ≤ s.published.length := by
      cases he : s.isEmpty with
      | true => exact Nat.le_of_eq (h.read he)
      | false =>
        obtain ⟨k, hlen, hle, -⟩ := h.unread he
        omega
    refine ⟨taken, ?_, nofun, fun _ => ⟨_, List.length_append, htaken, value, by simp, ?_⟩,
      fun he => absurd (of_decide_eq_true he) hdirty, ?_, fun _ => h.alive hopen,
      h.fresh.publish (h.alive hopen).2⟩
    · rw [hindex]
      exact (List.Perm.swap ..).trans h.roles
    · rw [hindex]
      exact h.written value hp
    · exact hknows.publish rfl rfl rfl hopen fun _ => decide_eq_false hdirty
  case h_4 hp => -- drop
    cases hstep
    refine ⟨taken, h.roles, nofun, h.unread, h.read, ?_, nofun, h.fresh⟩
    exact hknows.publish (List.append_nil _).symm rfl rfl (by rw [hp]; nofun) id
  case h_5 hr => -- tryRecv
    cases hstep
    rw [hr] at hknows
    exact ⟨taken, h.roles, h.written, h.unread, h.read,
      ⟨hknows, Nat.le_refl _, fun hopen => (h.alive hopen).1⟩, h.alive, h.fresh⟩
  case h_6 alive since hr => -- load
    rw [hr] at hknows
    obtain ⟨hseen, hsince, halive⟩ := hknows
    split at hstep
    · next he =>
      cases hstep
      have hall := (h.read he).symm.trans hseen.symm
      refine ⟨taken, h.roles, h.written, h.unread, h.read, hseen,
        fun hopen => ⟨(h.alive hopen).1, fun since' hmem => ?_⟩,
        h.fresh, hall ▸ hsince, fun _ => Nat.le_of_eq hall⟩
      rw [halive hopen] at hmem
      rcases List.mem_cons.1 hmem with heq | hmem
      · cases heq
      · exact (h.alive hopen).2 since' hmem
    · next he =>
      cases hstep
      exact ⟨taken, h.roles, h.written, h.unread, h.read, ⟨hseen, hsince, Bool.not_eq_true _ ▸ he⟩,
        h.alive, h.fresh⟩
  case h_7 since hr => -- take
    cases hstep
    rw [hr] at hknows
    obtain ⟨hseen, hsince, he⟩ := hknows
    obtain ⟨k, hlen, hle, hholds⟩ := h.unread he
    obtain ⟨-, -, hindex, hclean⟩ := hpacked s.front (by simp)
    refine ⟨_, ?_, h.written, fun he => absurd hclean (of_decide_eq_false he), fun _ => rfl,
      ⟨k, hlen, hseen ▸ hle, hlen ▸ hsince, hholds⟩, h.alive, h.fresh⟩
    dsimp only
    rw [hindex]
    exact (List.Perm.cons _ (.swap ..)).trans h.roles
  case h_8 since hr => -- read
    cases hstep
    rw [hr] at hknows
    obtain ⟨k, rfl, hseen, hsince, value, hvalue, hslot⟩ := hknows
    rw [hslot]
    refine ⟨_, h.roles, h.written, h.unread, h.read, Nat.max_eq_left (Nat.le_succ_of_le hseen),
      fun hopen => ⟨(h.alive hopen).1, fun since' hmem => ?_⟩, h.fresh, hvalue, hseen, hsince⟩
    cases hmem with
    | tail _ hmem => exact (h.alive hopen).2 since' hmem
  case h_9 => cases hstep

/-- In every interleaving of the operations of the two sides, their slots differ and the results of
`try_recv` are fresh. -/
theorem latest_snapshot_fresh {actions : List (Action α)}
    (hrun : Trace (fun s a s' => step s a = some s') {} actions s) :
    s.back ≠ s.front ∧ Fresh s.published s.results := by
  obtain ⟨taken, h⟩ : ∃ taken, s.Sound taken := by
    refine hrun.invariant (P := fun s => ∃ taken, s.Sound taken) ?_ ⟨0, ?_⟩
    · rintro t a t' ⟨taken, ht⟩ hstep
      exact ht.step hstep
    · have hroles : [2, 1 &&& index, 0].Perm [0, 1, 2] := by decide
      have hclean : 1 &&& dirty = 0 := by decide
      exact ⟨hroles, nofun, fun he => absurd hclean (of_decide_eq_false he), fun _ => rfl, rfl,
        fun _ => ⟨rfl, nofun⟩, trivial⟩
  exact ⟨h.back_ne.2, h.fresh⟩

/-- A second publish overtakes a receive that has already seen the first value. The next two calls
find nothing new, the last one after the publisher has gone. -/
theorem latest_snapshot_fresh_overtaken : ∃ s : Cell ℕ,
    s.results = [(2, .error .disconnected), (2, .error .empty), (1, .ok (some (1, 8)))] ∧
      Fresh s.published s.results := by
  have hrun : Trace (fun s a s' => step s a = some s') ({} : Cell ℕ)
      [.write 7, .written, .swap, .tryRecv, .load, .write 8, .written, .swap, .take, .read,
        .tryRecv, .load, .drop, .tryRecv, .load] _ :=
    .cons rfl <| .cons rfl <| .cons rfl <| .cons rfl <| .cons rfl <| .cons rfl <| .cons rfl <|
      .cons rfl <| .cons rfl <| .cons rfl <| .cons rfl <| .cons rfl <| .cons rfl <| .cons rfl <|
      .cons rfl <| .nil _
  exact ⟨_, rfl, (latest_snapshot_fresh hrun).2⟩

end Cell

end HexAgent.Runtime.LatestSnapshot
