import Mathlib.Algebra.Order.Ring.Nat
import Mathlib.Order.MinMax

/-!
# Timing of staged cancels

A cancel that the simulator sends takes a measured round trip. Its stages (the way to the venue, the
processing, the way back) divide this budget and add nothing to it (`cancel_stages_partition`).

Times and durations are 64-bit numbers, as natural numbers. A panic is `none`; a subtraction that
would wrap is one too.
-/

namespace HexAgent.Simulator

def checkedAdd (a b : ℕ) : Option ℕ := if a + b < 2 ^ 64 then some (a + b) else none

def checkedSub (a b : ℕ) : Option ℕ := if b ≤ a then some (a - b) else none

/-- `clamp` panics if the bounds are not in order. -/
def clamp (x low high : ℕ) : Option ℕ := if low ≤ high then some (max low (min x high)) else none

structure CancelTiming where
  dispatchNs : ℕ
  inputL1Ns : ℕ
  inputL2Ns : ℕ
  rttNs : ℕ
  networkL1Ns : ℕ
  processingRequestedNs : ℕ
  processingNs : ℕ
  postEffectNs : ℕ := 0
  networkL2Ns : ℕ
  transportLowerNs : Option ℕ := none
  transportUpperNs : Option ℕ := none
  nominalArrivalNs : ℕ
  nominalEffectiveNs : ℕ
  nominalHttpNs : ℕ
  processingCapped : Bool := false
  evidenceConfidence : String

namespace CancelTiming

/-- The share of the way to the venue in what the processing leaves, rounded to the nearest. -/
def outbound (network l1 rtt : ℕ) : ℕ :=
  if rtt = 0 then 0 else (network * l1 + rtt / 2) / rtt % 2 ^ 64

def partition (dispatchNs l1 l2 requested : ℕ) : Option CancelTiming := do
  let rtt ← checkedAdd l1 l2
  let processing := min requested rtt
  let network ← checkedSub rtt processing
  let outbound := outbound network l1 rtt
  let arrival ← checkedAdd dispatchNs outbound
  let effective ← checkedAdd arrival processing
  let http ← checkedAdd dispatchNs rtt
  let networkL2Ns ← checkedSub network outbound
  return {
    dispatchNs, networkL2Ns
    inputL1Ns := l1
    inputL2Ns := l2
    rttNs := rtt
    networkL1Ns := outbound
    processingRequestedNs := requested
    processingNs := processing
    nominalArrivalNs := arrival
    nominalEffectiveNs := effective
    nominalHttpNs := http
    processingCapped := rtt < requested
    evidenceConfidence := "estimated_rtt_partition" }

/-- Every leg that was not zero keeps a nanosecond. -/
def keptNs (l1 l2 : ℕ) : ℕ := (if 0 < l1 then 1 else 0) + if 0 < l2 then 1 else 0

def fraction (dispatchNs l1 l2 processingBps : ℕ) : Option CancelTiming := do
  guard (processingBps < 10000)
  let rtt ← checkedAdd l1 l2
  let requested := min (rtt * processingBps / 10000 % 2 ^ 64) (← checkedSub rtt (keptNs l1 l2))
  let t ← partition dispatchNs l1 l2 requested
  let evidenceConfidence := "assumed_fraction_of_observed_rtt"
  if 0 < l1 ∧ 0 < l2 then
    let network ← checkedSub rtt requested
    let networkL1Ns ← clamp t.networkL1Ns 1 (← checkedSub network 1)
    let networkL2Ns ← checkedSub network networkL1Ns
    let nominalArrivalNs ← checkedAdd dispatchNs networkL1Ns
    let nominalEffectiveNs ← checkedAdd nominalArrivalNs requested
    return { t with
      networkL1Ns, networkL2Ns, nominalArrivalNs, nominalEffectiveNs, evidenceConfidence }
  else return { t with evidenceConfidence }

/-- The budget is observed; the arrival and the effect are given. -/
def fromTransportStages (dispatch completed lower upper arrival effective returnNs : ℕ) :
    Except String CancelTiming :=
  if ¬(dispatch < lower ∧ lower ≤ arrival ∧ arrival ≤ effective ∧ effective ≤ upper ∧
      upper ≤ completed ∧ effective < completed) ∨ returnNs = 0 ∨
        completed - effective < returnNs then
    .error "invalid cancel transport clock ordering/budget"
  else
    let rtt := completed - dispatch
    .ok {
      dispatchNs := dispatch
      inputL1Ns := rtt / 2
      inputL2Ns := rtt - rtt / 2
      rttNs := rtt
      networkL1Ns := arrival - dispatch
      processingRequestedNs := effective - arrival
      processingNs := effective - arrival
      postEffectNs := completed - effective - returnNs
      networkL2Ns := returnNs
      transportLowerNs := some lower
      transportUpperNs := some upper
      nominalArrivalNs := arrival
      nominalEffectiveNs := effective
      nominalHttpNs := completed
      evidenceConfidence := "modeled_with_client_transport_bounds" }

/-- The stages divide the round trip of a cancel sent at `dispatch`. -/
structure Partitions (t : CancelTiming) (dispatch l1 l2 : ℕ) : Prop where
  legs : t.networkL1Ns + t.processingNs + t.networkL2Ns = l1 + l2
  http : t.nominalHttpNs = dispatch + (l1 + l2)
  arrival : t.nominalArrivalNs = dispatch + t.networkL1Ns
  effective : t.nominalEffectiveNs = t.nominalArrivalNs + t.processingNs
  ordered : dispatch ≤ t.nominalArrivalNs ∧ t.nominalArrivalNs ≤ t.nominalEffectiveNs ∧
    t.nominalEffectiveNs ≤ t.nominalHttpNs

variable {dispatch l1 l2 rtt n bps bps' : ℕ}

lemma quotient_le (hl : l1 ≤ rtt) (hrtt : rtt ≠ 0) : (n * l1 + rtt / 2) / rtt ≤ n := by
  have hpos : 0 < rtt := Nat.pos_of_ne_zero hrtt
  refine Nat.le_of_lt_succ ((Nat.div_lt_iff_lt_mul hpos).2 ?_)
  have hmul := Nat.mul_le_mul_left n hl
  rw [Nat.succ_mul]
  omega

lemma outbound_le (hl : l1 ≤ rtt) : outbound n l1 rtt ≤ n := by
  unfold outbound
  split
  · exact Nat.zero_le n
  next hrtt => exact (Nat.mod_le _ _).trans (quotient_le hl hrtt)

/-- A nanosecond more of processing takes at most one from the way to the venue. -/
lemma outbound_mono (hclock : rtt < 2 ^ 64) (hl : l1 ≤ rtt) (p p' : ℕ) (hp : p ≤ p')
    (hp' : p' ≤ rtt) : outbound (rtt - p) l1 rtt + p ≤ outbound (rtt - p') l1 rtt + p' := by
  unfold outbound
  split
  · omega
  next hrtt =>
  have hcast n (hn : n ≤ rtt) := Nat.mod_eq_of_lt (((quotient_le hl hrtt).trans hn).trans_lt hclock)
  have hpos : 0 < rtt := Nat.pos_of_ne_zero hrtt
  rw [hcast _ (Nat.sub_le _ _), hcast _ (Nat.sub_le _ _), ← Nat.add_mul_div_right _ _ hpos,
    ← Nat.add_mul_div_right _ _ hpos]
  refine Nat.div_le_div_right ?_
  obtain ⟨d, rfl⟩ := Nat.exists_eq_add_of_le hp
  have hmul := Nat.mul_le_mul_left d hl
  have hsub : rtt - p = rtt - (p + d) + d := by omega
  rw [hsub, Nat.add_mul, Nat.add_mul p d]
  omega

section

variable (hclock : dispatch + (l1 + l2) < 2 ^ 64)
include hclock

lemma partition_spec (requested : ℕ) : ∃ t, partition dispatch l1 l2 requested = some t ∧
    t.Partitions dispatch l1 l2 ∧ t.processingNs = min requested (l1 + l2) ∧
    t.networkL1Ns = outbound (l1 + l2 - t.processingNs) l1 (l1 + l2) := by
  have hproc : min requested (l1 + l2) ≤ l1 + l2 := min_le_right _ _
  have hout := outbound_le (n := l1 + l2 - min requested (l1 + l2)) (Nat.le_add_right l1 l2)
  have hrtt : l1 + l2 < 2 ^ 64 := by omega
  have heff : dispatch + outbound (l1 + l2 - min requested (l1 + l2)) l1 (l1 + l2) +
    min requested (l1 + l2) < 2 ^ 64 := by omega
  have harr := (Nat.le_add_right _ _).trans_lt heff
  simp only [partition, checkedAdd, checkedSub, if_pos hrtt, if_pos hproc, if_pos harr, if_pos heff,
    if_pos hclock, if_pos hout, Option.bind_eq_bind, Option.bind_some]
  refine ⟨_, rfl, ⟨?_, rfl, rfl, rfl, ?_, ?_, ?_⟩, rfl, rfl⟩
  all_goals
    dsimp only
    omega

/-- The processing of a fraction grows with it. -/
lemma fraction_spec (hbps : bps < 10000) : ∃ t, fraction dispatch l1 l2 bps = some t ∧
    t.Partitions dispatch l1 l2 ∧
    t.processingNs = min ((l1 + l2) * bps / 10000) (l1 + l2 - keptNs l1 l2) ∧
    t.networkL1Ns =
      let out := outbound (l1 + l2 - t.processingNs) l1 (l1 + l2)
      if 0 < l1 ∧ 0 < l2 then max 1 (min out (l1 + l2 - t.processingNs - 1)) else out := by
  have hrtt : l1 + l2 < 2 ^ 64 := by omega
  have hkept : keptNs l1 l2 ≤ l1 + l2 := by
    unfold keptNs
    split <;> split <;> omega
  have hcast : (l1 + l2) * bps / 10000 % 2 ^ 64 = (l1 + l2) * bps / 10000 := by
    refine Nat.mod_eq_of_lt (Nat.lt_of_le_of_lt (Nat.div_le_of_le_mul ?_) hrtt)
    rw [Nat.mul_comm]
    exact Nat.mul_le_mul_right _ hbps.le
  generalize hreq : min ((l1 + l2) * bps / 10000) (l1 + l2 - keptNs l1 l2) = requested
  have hle : requested ≤ l1 + l2 - keptNs l1 l2 := hreq ▸ min_le_right _ _
  obtain ⟨t, ht, hpart, hproc, hnet⟩ := partition_spec hclock requested
  rw [min_eq_left (by omega)] at hproc
  have hhttp := hpart.http
  simp only [fraction, guard, if_pos hbps, checkedAdd, if_pos hrtt, checkedSub, if_pos hkept, hcast,
    hreq, ht, Option.bind_eq_bind, Option.bind_some, Option.pure_def]
  split
  · next hboth =>
    rw [keptNs, if_pos hboth.1, if_pos hboth.2] at hle
    have hshare : requested ≤ l1 + l2 := by omega
    have hone : 1 ≤ l1 + l2 - requested := by omega
    have htwo : 1 ≤ l1 + l2 - requested - 1 := by omega
    generalize hout : max 1 (min t.networkL1Ns (l1 + l2 - requested - 1)) = out
    have hmax : out ≤ l1 + l2 - requested := by omega
    have harr : dispatch + out < 2 ^ 64 := by omega
    have heff : dispatch + out + requested < 2 ^ 64 := by omega
    simp only [clamp, if_pos hshare, if_pos hone, if_pos htwo, hout, if_pos hmax, if_pos harr,
      if_pos heff, Option.bind_some]
    refine ⟨_, rfl, ⟨?_, hhttp, rfl, ?_, ?_, ?_, ?_⟩, hproc, ?_⟩
    all_goals dsimp only
    case refine_6 => rw [← hout, ← hnet, hproc]
    all_goals omega
  · exact ⟨_, rfl, { hpart with http := hhttp }, hproc, hnet⟩

end

/-- As long as the clock does not overflow, neither division of a round trip panics, both conserve
it, a leg that was not zero keeps a nanosecond of a fraction, and more processing never makes a
cancel effective earlier. The stages of an observed round trip add up to it. -/
theorem cancel_stages_partition (hclock : dispatch + (l1 + l2) < 2 ^ 64) (requested requested' : ℕ)
    (hreq : requested ≤ requested') (hbps : bps ≤ bps') (hbound : bps' < 10000) :
    (∃ t t', partition dispatch l1 l2 requested = some t ∧
      partition dispatch l1 l2 requested' = some t' ∧ t.Partitions dispatch l1 l2 ∧
      t.nominalEffectiveNs ≤ t'.nominalEffectiveNs) ∧
    (∃ t t', fraction dispatch l1 l2 bps = some t ∧ fraction dispatch l1 l2 bps' = some t' ∧
      t.Partitions dispatch l1 l2 ∧ (0 < l1 → 0 < l2 → 1 ≤ t.networkL1Ns ∧ 1 ≤ t.networkL2Ns) ∧
      t.nominalEffectiveNs ≤ t'.nominalEffectiveNs) ∧
    ∀ sent completed lower upper arrival effective returnNs t,
      fromTransportStages sent completed lower upper arrival effective returnNs = .ok t →
        t.networkL1Ns + t.processingNs + t.postEffectNs + t.networkL2Ns = t.rttNs ∧
          t.rttNs = completed - sent := by
  have hrtt : l1 + l2 < 2 ^ 64 := by omega
  refine ⟨?_, ?_, fun sent completed lower upper arrival effective returnNs t ht => ?_⟩
  · obtain ⟨t, ht, hpart, hproc, hnet⟩ := partition_spec hclock requested
    obtain ⟨t', ht', hpart', hproc', hnet'⟩ := partition_spec hclock requested'
    refine ⟨t, t', ht, ht', hpart, ?_⟩
    have hmono := outbound_mono hrtt (Nat.le_add_right l1 l2) t.processingNs t'.processingNs
      (by omega) (by omega)
    rw [hpart.effective, hpart.arrival, hpart'.effective, hpart'.arrival, hnet, hnet']
    omega
  · obtain ⟨t, ht, hpart, hproc, hnet⟩ := fraction_spec hclock (hbps.trans_lt hbound)
    obtain ⟨t', ht', hpart', hproc', hnet'⟩ := fraction_spec hclock hbound
    have hmul : (l1 + l2) * bps / 10000 ≤ (l1 + l2) * bps' / 10000 :=
      Nat.div_le_div_right (Nat.mul_le_mul_left _ hbps)
    have hmono := outbound_mono hrtt (Nat.le_add_right l1 l2) t.processingNs t'.processingNs
      (by omega) (by omega)
    have hlegs := hpart.legs
    refine ⟨t, t', ht, ht', hpart, fun h1 h2 => ?_, ?_⟩
    · rw [if_pos ⟨h1, h2⟩] at hnet
      rw [keptNs, if_pos h1, if_pos h2] at hproc
      omega
    · rw [hpart.effective, hpart.arrival, hpart'.effective, hpart'.arrival, hnet, hnet']
      dsimp only
      split <;> omega
  · unfold fromTransportStages at ht
    split at ht
    · cases ht
    next hvalid =>
    cases ht
    dsimp only
    omega

/-- A round trip of thirty, with six or twelve of processing. -/
theorem cancel_stages_partition_thirty :
    ∃ t t', partition 100 10 20 6 = some t ∧ partition 100 10 20 12 = some t' ∧
      t.Partitions 100 10 20 ∧ t.nominalEffectiveNs ≤ t'.nominalEffectiveNs :=
  (cancel_stages_partition (by decide) 6 12 (by decide) (le_refl 0) (by decide)).1

end CancelTiming

end HexAgent.Simulator
