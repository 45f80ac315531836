import HexAgent.Admission.Model
import HexAgent.ToMathlib.Trace

/-!
# The admission consumer of a strategy worker

A worker polls the lane on which the engine publishes its admission, and hands over what is new. A
snapshot is trusted for the lease of one second from its observation; after that the consumer makes
up a pause, whose epoch follows the last one. One clock stands for `now_ns` and `Instant`.

The lease holds on every run (`admission_leased`). But the epoch that was made up may be that of the
next snapshot of the engine, which is then discarded: `fresh_snapshot_discarded`.
-/

namespace HexAgent.Admission

/-- How long a snapshot is trusted. -/
def lease : ℕ := 1000000000

/-- What `try_recv` finds. -/
inductive Arrival
  | snapshot (value : ExecutionAdmission)
  | disconnected
  | empty

/-- The consumer; it is connected while it has its receiver. -/
structure AdmissionConsumer where
  connected : Bool
  last : Option ExecutionAdmission
  received : ℕ
  expired : Bool

namespace AdmissionConsumer

variable (c : AdmissionConsumer) (now : ℕ)

/-- Make up a pause, once. -/
def pause : AdmissionConsumer × Option ExecutionAdmission :=
  if c.expired then (c, none)
  else
    let paused : ExecutionAdmission := {
      epoch := c.last.elim 1 fun last => saturatingAdd 64 last.epoch 1
      state := .paused
      availablePlaceSlots := 0
      observedAtNs := now }
    ({ c with expired := true, last := some paused }, some paused)

/-- The check that an empty lane and a replayed snapshot share. -/
def checkLease : AdmissionConsumer × Option ExecutionAdmission :=
  if lease ≤ now - c.received then c.pause now else (c, none)

/-- `none` is the error of a closed lane. -/
def receive : Option ExecutionAdmission → AdmissionConsumer × Option ExecutionAdmission
  | none => { c with connected := false }.pause now
  | some snapshot =>
    if ∃ previous ∈ c.last, snapshot.epoch ≤ previous.epoch then c.checkLease now
    else if now < snapshot.observedAtNs ∨ lease ≤ now - snapshot.observedAtNs then
      { c with last := some snapshot, expired := false }.pause now
    else
      ({ c with last := some snapshot, expired := false, received := snapshot.observedAtNs },
        some snapshot)

def poll (arrival : Arrival) : AdmissionConsumer × Option ExecutionAdmission :=
  if c.connected then
    match arrival with
    | .snapshot snapshot => c.receive now (some snapshot)
    | .disconnected => c.receive now none
    | .empty => c.checkLease now
  else (c, none)

end AdmissionConsumer

/-! ## Runs -/

/-- A consumer, the state that it has handed over last, the snapshots that it has received, and the
time of the last poll. -/
structure Worker where
  consumer : AdmissionConsumer
  handed : Option ExecutionAdmission
  genuine : List ExecutionAdmission
  now : ℕ

def Worker.new (connected : Bool) (now : ℕ) : Worker :=
  ⟨⟨connected, none, now, false⟩, none, [], now⟩

def Arrival.snapshots : Arrival → List ExecutionAdmission
  | .snapshot s => [s]
  | .disconnected | .empty => []

def Worker.poll (w : Worker) (now : ℕ) (arrival : Arrival) : Worker where
  consumer := (w.consumer.poll now arrival).1
  handed := (w.consumer.poll now arrival).2.or w.handed
  genuine := arrival.snapshots ++ w.genuine
  now := now

/-- Time does not go back, nothing arrives without a receiver, and the engine counts its epochs from
one, in 64 bits. -/
def Polls (w : Worker) (input : ℕ × Arrival) (w' : Worker) : Prop :=
  w.now ≤ input.1 ∧ (w.consumer.connected = false → input.2 = .empty) ∧
    (∀ s ∈ input.2.snapshots, 0 < s.epoch ∧ s.epoch < 2 ^ 64) ∧ w' = w.poll input.1 input.2

/-- The highest epoch of some snapshots. -/
def highest (genuine : List ExecutionAdmission) : ℕ := (genuine.map (·.epoch)).foldr max 0

/-- The snapshot is within its lease. -/
def Within (now : ℕ) (s : ExecutionAdmission) : Prop :=
  s.observedAtNs ≤ now ∧ now < s.observedAtNs + lease

variable {c : AdmissionConsumer} {w : Worker} {s : ExecutionAdmission} {now : ℕ}
  {genuine : List ExecutionAdmission} {handed : Option ExecutionAdmission}

namespace AdmissionConsumer

/-- The epoch that a snapshot has to exceed. -/
def epoch (c : AdmissionConsumer) : ℕ := c.last.elim 0 (·.epoch)

lemma discards_iff (hpos : 0 < s.epoch) :
    (∃ previous ∈ c.last, s.epoch ≤ previous.epoch) ↔ s.epoch ≤ c.epoch := by
  unfold epoch
  cases c.last with
  | none => simp [hpos.ne']
  | some last => simp

lemma pause_of_live (h : c.expired = false) :
    ∃ paused : ExecutionAdmission, paused.epoch = min (c.epoch + 1) (2 ^ 64 - 1) ∧
      paused.allowsPlace = false ∧
      c.pause now = ({ c with expired := true, last := some paused }, some paused) := by
  refine ⟨_, ?_, rfl, by rw [pause, h]; rfl⟩
  unfold epoch
  cases c.last <;> rfl

end AdmissionConsumer

open AdmissionConsumer

/-- The epoch of the consumer follows those of the snapshots, but for a made-up pause. -/
def Tracks (c : AdmissionConsumer) (genuine : List ExecutionAdmission) : Prop :=
  highest genuine < 2 ^ 64 ∧ highest genuine ≤ c.epoch ∧
    c.epoch ≤ highest genuine + c.expired.toNat

/-- What was handed over is within its lease, or allows nothing. -/
structure Leased (w : Worker) : Prop where
  tracks : Tracks w.consumer w.genuine
  paused : w.consumer.expired = true → ∀ s ∈ w.handed, s.allowsPlace = false
  live : w.consumer.expired = false → w.handed = w.consumer.last ∧ ∀ last ∈ w.consumer.last,
    last ∈ w.genuine ∧ w.consumer.connected = true ∧
      w.consumer.received = last.observedAtNs ∧ Within w.now last

lemma Leased.of_pause (h : Tracks c genuine)
    (hp : c.expired = true → ∀ s ∈ handed, s.allowsPlace = false) :
    Leased ⟨(c.pause now).1, (c.pause now).2.or handed, genuine, now⟩ := by
  cases hexp : c.expired with
  | true =>
    have heq : c.pause now = (c, none) := by rw [pause, hexp]; rfl
    rw [heq]
    exact ⟨h, hp, fun hlive => nomatch hlive.symm.trans hexp⟩
  | false =>
    obtain ⟨paused, hepoch, hall, heq⟩ := c.pause_of_live hexp
    rw [heq]
    refine ⟨?_, fun _ s hs => Option.some.inj hs ▸ hall, nofun⟩
    simp only [Tracks, epoch, Option.elim_some, hexp, Bool.toNat_false,
      Bool.toNat_true] at h hepoch ⊢
    omega

lemma Leased.checked (h : Leased w) (hnow : w.now ≤ now) (ht : Tracks w.consumer genuine)
    (hsub : w.genuine ⊆ genuine) :
    Leased ⟨(w.consumer.checkLease now).1, (w.consumer.checkLease now).2.or w.handed,
      genuine, now⟩ := by
  unfold checkLease
  split
  · exact .of_pause ht h.paused
  next htime =>
  refine ⟨ht, h.paused, fun hlive => ⟨(h.live hlive).1, fun last hl => ?_⟩⟩
  obtain ⟨hmem, hconn, hrec, hle, -⟩ := (h.live hlive).2 last hl
  refine ⟨hsub hmem, hconn, hrec, ?_⟩
  unfold Within
  dsimp only
  omega

lemma Leased.polled (h : Leased w) {input : ℕ × Arrival} {w' : Worker} (hp : Polls w input w') :
    Leased w' := by
  obtain ⟨now, arrival⟩ := input
  obtain ⟨hnow, hempty, hbits, rfl⟩ := hp
  unfold Worker.poll poll
  cases hconn : w.consumer.connected with
  | false =>
    rw [hempty hconn]
    refine ⟨h.tracks, h.paused, fun hlive => ⟨(h.live hlive).1, fun last hl => ?_⟩⟩
    cases hconn.symm.trans ((h.live hlive).2 last hl).2.1
  | true =>
    cases arrival with
    | empty => exact h.checked hnow h.tracks fun _ hs => hs
    | disconnected => exact .of_pause h.tracks h.paused
    | snapshot s =>
      obtain ⟨hpos, hbits⟩ := hbits s (.head _)
      obtain ⟨hhigh, hlow, hepoch⟩ := h.tracks
      have hcons : highest (s :: w.genuine) = max s.epoch (highest w.genuine) := rfl
      simp only [if_true, receive, discards_iff hpos]
      split
      · next hold =>
        refine h.checked hnow (show Tracks _ (s :: w.genuine) from ?_) fun _ => .tail _
        unfold Tracks
        omega
      next hnew =>
      have htracks (received : ℕ) :
          Tracks ⟨true, some s, received, false⟩ (s :: w.genuine) := by
        change _ ∧ _ ≤ s.epoch ∧ s.epoch ≤ _ + 0
        omega
      rw [← hconn] at htracks
      split
      · exact .of_pause (htracks _) nofun
      next hfresh =>
      refine ⟨htracks _, nofun, fun _ => ⟨rfl, ?_⟩⟩
      rintro _ ⟨⟩
      refine ⟨.head _, hconn, rfl, ?_⟩
      unfold Within
      dsimp only
      omega

/-- A snapshot that starts a new lease is within it, and newer than the last one. -/
lemma received_poll (h : (c.poll now (.snapshot s)).1.received ≠ c.received) :
    Within now s ∧ ¬∃ previous ∈ c.last, s.epoch ≤ previous.epoch := by
  have hpause (d : AdmissionConsumer) : (d.pause now).1.received = d.received := by
    unfold pause
    split <;> rfl
  unfold poll receive checkLease at h
  dsimp only at h
  split_ifs at h with _ hold _ hstale
  · exact absurd (hpause _) h
  · exact absurd rfl h
  · exact absurd (hpause _) h
  · exact ⟨by unfold Within; omega, hold⟩
  · exact absurd rfl h

/-- A new snapshot within its lease is handed over unless a pause was made up with its epoch. -/
lemma handed_iff (h : Tracks c genuine) (hconn : c.connected = true) (hs : Within now s)
    (hnew : highest genuine < s.epoch) :
    (c.poll now (.snapshot s)).2 = some s ↔ ¬(c.expired = true ∧ c.epoch = s.epoch) := by
  have hwithin : ¬(now < s.observedAtNs ∨ lease ≤ now - s.observedAtNs) := by
    unfold Within at hs
    omega
  obtain ⟨-, -, hepoch⟩ := h
  simp only [poll, hconn, if_true, receive, if_neg hwithin,
    discards_iff (Nat.zero_lt_of_lt hnew)]
  cases hexp : c.expired with
  | true =>
    have hcheck : (c.checkLease now).2 = none := by
      simp [checkLease, pause, hexp]
    rw [hexp, Bool.toNat_true] at hepoch
    split
    · simp only [hcheck, true_and, reduceCtorEq, false_iff, not_not]
      omega
    · refine iff_of_true rfl ?_
      omega
  | false =>
    rw [hexp, Bool.toNat_false] at hepoch
    rw [if_neg (by omega)]
    exact iff_of_true rfl (by simp)

/-- On every run, what was handed over last allows placing only if it is a snapshot of the engine
within its lease; what is stale or not newer than what was received does not extend the lease; and
what is newer is handed over iff the consumer has not made up a pause with its epoch. -/
theorem admission_leased {connected : Bool} {start : ℕ} {polls : List (ℕ × Arrival)} {w : Worker}
    (h : Trace Polls (.new connected start) polls w) :
    (∀ s ∈ w.handed, s.allowsPlace = true → s ∈ w.genuine ∧ Within w.now s) ∧
    ∀ now s, 0 < s.epoch →
      (¬Within now s ∨ s.epoch ≤ highest w.genuine →
        (w.poll now (.snapshot s)).consumer.received = w.consumer.received) ∧
      (w.consumer.connected = true → Within now s → highest w.genuine < s.epoch →
        ((w.consumer.poll now (.snapshot s)).2 = some s ↔
          ¬(w.consumer.expired = true ∧ w.consumer.epoch = s.epoch))) := by
  have hw : Leased w := h.invariant (fun _ _ _ hw hp => hw.polled hp)
    ⟨⟨Nat.two_pow_pos 64, le_rfl, le_rfl⟩, nofun, fun _ => ⟨rfl, nofun⟩⟩
  refine ⟨fun s hs hall => ?_,
    fun now s hpos => ⟨fun hold => ?_, fun hconn => handed_iff hw.tracks hconn⟩⟩
  · cases hexp : w.consumer.expired with
    | true => cases (hw.paused hexp s hs).symm.trans hall
    | false =>
      obtain ⟨heq, hlive⟩ := hw.live hexp
      obtain ⟨hmem, -, -, hwithin⟩ := hlive s (heq ▸ hs)
      exact ⟨hmem, hwithin⟩
  · by_contra hne
    obtain ⟨hwithin, hnew⟩ := received_poll hne
    rw [discards_iff hpos] at hnew
    exact hold.elim (absurd hwithin) fun hle => hnew (hle.trans hw.tracks.2.1)

/-- The first snapshot is handed over, and so is the second one when it comes in time. -/
theorem admission_leased_second :
    let w := (Worker.new true 0).poll 0 (.snapshot ⟨1, .healthy, 1, 0⟩)
    w.handed = some ⟨1, .healthy, 1, 0⟩ ∧
      (w.consumer.poll 5 (.snapshot ⟨2, .healthy, 1, 5⟩)).2 = some ⟨2, .healthy, 1, 5⟩ := by
  intro w
  have hrun : Trace Polls (.new true 0) [(0, .snapshot ⟨1, .healthy, 1, 0⟩)] w :=
    .cons ⟨le_rfl, nofun, by decide, rfl⟩ (.nil _)
  refine ⟨rfl, (((admission_leased hrun).2 5 _ (by decide)).2 rfl ?_ (by decide)).2 nofun⟩
  exact ⟨le_rfl, by decide⟩

/-- The lease of the first snapshot ends, and the pause takes the epoch of the second one, which is
discarded. -/
theorem fresh_snapshot_discarded :
    let w := ((Worker.new true 0).poll 0 (.snapshot ⟨1, .healthy, 1, 0⟩)).poll lease .empty
    let second : ExecutionAdmission := ⟨2, .healthy, 1, lease + 5⟩
    Trace Polls (.new true 0) [(0, .snapshot ⟨1, .healthy, 1, 0⟩), (lease, .empty)] w ∧
      w.consumer.connected = true ∧ Within (lease + 5) second ∧ highest w.genuine < second.epoch ∧
      (w.poll (lease + 5) (.snapshot second)).handed = some ⟨2, .paused, 0, lease⟩ := by
  refine ⟨.cons ⟨le_rfl, nofun, by decide, rfl⟩ (.cons ⟨by decide, nofun, nofun, rfl⟩ (.nil _)),
    rfl, ⟨le_rfl, by decide⟩, by decide, by decide⟩

end HexAgent.Admission
