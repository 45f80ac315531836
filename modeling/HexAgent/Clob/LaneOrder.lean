import HexAgent.Clob.Lanes
import Mathlib.Data.List.Nodup

/-!
# Wire order across the event lanes

In every interleaving the critical events that were accepted are handed out exactly once and in
order, and a replaceable event at most once; one that was accepted is handed out, waits, or was
evicted (`Conserved`).

The order across the lanes is lost in one race. The first `fill_pending` of a call polls the
critical lane before the replaceable one; if the sender publishes a critical event and then a
replaceable one between the two polls, the receiver finds only the newer one and hands it out first.
Likewise the receiver may take events between the failed `try_send` of the sender and its eviction,
which then removes an event from a lane with room: `race_breaks_wire_order`.

An operation is `Timely` if it is in neither race: the poll of the replaceable lane finds nothing
newer than a critical event in its lane, and the eviction finds its lane full. For the runs of
timely operations `wire_order` gives the order of all events, and the number of newer events for
each evicted one.
-/

namespace HexAgent.Clob

open ClobEventEnvelope List ClobLanes

variable {π : Type}

/-- The event that the sender is about to publish. -/
def Sending.envelope : Sending π → Option (ClobEventEnvelope π)
  | .idle => none
  | .publish env => some env
  | .evict env => some env
  | .resend env => some env

namespace ClobLanes

variable {capacity : LaneCapacity} {s s' : ClobLanes π} {a : LaneAction π}

/-! ## Numbers -/

/-- Numbers grow from event to event. -/
structure Numbered (s : ClobLanes π) : Prop where
  increasing : s.accepted.Pairwise (·.sequence < ·.sequence)
  below : ∀ e ∈ s.accepted, e.sequence < s.nextSequence
  sending_below : ∀ env, s.sending.envelope = some env → env.sequence < s.nextSequence
  sending_new : ∀ env, s.sending.envelope = some env → ∀ e ∈ s.accepted, e.sequence < env.sequence
  sending_replaceable : ∀ env, s.sending = .evict env ∨ s.sending = .resend env →
    env.isReplaceable = true

variable {env e e' c r : ClobEventEnvelope π} {lane : List (ClobEventEnvelope π)}
  {acts : List (LaneAction π)}

section

variable (h : s.Numbered)
include h

/-- An event that is accepted is newer than all before. -/
lemma Numbered.accept (henv : s.sending.envelope = some env) :
    (s.accepted ++ [env]).Pairwise (·.sequence < ·.sequence) ∧
      ∀ e ∈ s.accepted ++ [env], e.sequence < s.nextSequence := by
  constructor
  · refine pairwise_append.2 ⟨h.increasing, pairwise_singleton _ _, ?_⟩
    intro e he env' henv'
    cases mem_singleton.1 henv'
    exact h.sending_new env henv e he
  · exact forall_mem_append.2 ⟨h.below, forall_mem_singleton.2 (h.sending_below env henv)⟩

/-- The sender gives up its event or goes on with it. -/
lemma Numbered.of_sending (hacc : s'.accepted = s.accepted)
    (hnext : s'.nextSequence = s.nextSequence)
    (hsame : s'.sending.envelope = none ∨ s'.sending.envelope = s.sending.envelope)
    (hkind : ∀ env, s'.sending = .evict env ∨ s'.sending = .resend env → env.isReplaceable = true) :
    s'.Numbered := by
  have henv : ∀ env, s'.sending.envelope = some env → s.sending.envelope = some env := by
    intro env henv
    rcases hsame with hnone | hsame
    · rw [hnone] at henv
      cases henv
    · exact hsame.symm.trans henv
  refine ⟨hacc ▸ h.increasing, ?_, fun env he => ?_, fun env he => ?_, hkind⟩
  · rw [hacc, hnext]
    exact h.below
  · rw [hnext]
    exact h.sending_below env (henv env he)
  · rw [hacc]
    exact h.sending_new env (henv env he)

/-- The event of a `try_send` on the replaceable lane. -/
lemma Numbered.accepting
    (hsend : s.sending = .publish env ∧ env.isReplaceable = true ∨ s.sending = .resend env) :
    s.sending.envelope = some env ∧ env.isReplaceable = true := by
  rcases hsend with ⟨hpub, hkind⟩ | hres
  · exact ⟨by rw [hpub]; rfl, hkind⟩
  · exact ⟨by rw [hres]; rfl, h.sending_replaceable env (.inr hres)⟩

lemma Numbered.step (hstep : LaneStep capacity s a s') : s'.Numbered := by
  have hidle : ∀ env : ClobEventEnvelope π,
      Sending.idle = .evict env ∨ Sending.idle = .resend env → env.isReplaceable = true := by
    rintro env (hsend | hsend) <;> cases hsend
  cases hstep with
  | number event _ =>
    refine ⟨h.increasing, fun e he => Nat.lt_succ_of_lt (h.below e he), ?_, ?_, ?_⟩
    · intro env henv
      cases henv
      exact Nat.lt_succ_self _
    · intro env henv
      cases henv
      exact h.below
    · rintro env (hsend | hsend) <;> cases hsend
  | acceptCritical env hpub _ =>
    have henv : s.sending.envelope = some env := by rw [hpub]; rfl
    obtain ⟨hinc, hbelow⟩ := h.accept henv
    exact ⟨hinc, hbelow, nofun, nofun, hidle⟩
  | acceptReplaceable env hsend _ =>
    obtain ⟨hinc, hbelow⟩ := h.accept (h.accepting hsend).1
    exact ⟨hinc, hbelow, nofun, nofun, hidle⟩
  | refuse env _ | resendFails env _ _ => exact h.of_sending rfl rfl (.inl rfl) hidle
  | full env hpub hrepl =>
    refine h.of_sending rfl rfl (.inr (by rw [hpub]; rfl)) ?_
    rintro e (hevict | hres)
    · cases hevict
      exact hrepl
    · cases hres
  | evictNothing env hevict | evictOldest env _ _ _ hevict =>
    refine h.of_sending rfl rfl (.inr (by rw [hevict]; rfl)) ?_
    rintro e (hevict' | hres)
    · cases hevict'
    · cases hres
      exact h.sending_replaceable env (.inl hevict)
  | takeCritical | skipCritical | takeReplaceable | skipReplaceable | deliverCritical
  | deliverReplaceable | deliverNothing | selectCritical | selectReplaceable | timeout =>
    exact h.of_sending rfl rfl (.inr rfl) h.sending_replaceable

/-- Accepted events with one number are one event. -/
lemma Numbered.eq_of_sequence (he : e ∈ s.accepted)
    (he' : e' ∈ s.accepted) (hseq : e.sequence = e'.sequence) : e = e' := by
  have hnd : (s.accepted.map sequence).Nodup :=
    (pairwise_map.2 h.increasing).imp Nat.ne_of_lt
  exact inj_on_of_nodup_map hnd he he' hseq

end

/-! ## Events that wait -/

/-- The events between the sender and the engine. -/
def waiting (s : ClobLanes π) : List (ClobEventEnvelope π) :=
  s.pendingCritical.toList ++ s.criticalLane ++ (s.pendingReplaceable.toList ++ s.replaceableLane)

lemma mem_waiting : e ∈ s.waiting ↔
    (s.pendingCritical = some e ∨ e ∈ s.criticalLane) ∨
      s.pendingReplaceable = some e ∨ e ∈ s.replaceableLane := by
  simp [waiting, or_assoc]

/-! ## No event is lost or handed out twice -/

/-- Where the accepted events are. -/
structure Conserved (s : ClobLanes π) : Prop where
  critical : s.delivered.filter isCritical ++ s.pendingCritical.toList ++ s.criticalLane =
    s.accepted.filter isCritical
  replaceable : (s.delivered.filter isReplaceable ++ s.pendingReplaceable.toList ++
    s.replaceableLane).Sublist (s.accepted.filter isReplaceable)
  kept : ∀ e ∈ s.accepted, e.isReplaceable = true → e ∈ s.delivered ∨
    e ∈ s.pendingReplaceable.toList ∨ e ∈ s.replaceableLane ∨ e ∈ s.evicted
  selecting : s.receiving = .select → s.pendingCritical = none ∧ s.pendingReplaceable = none

namespace Conserved

variable (h : s.Conserved)
include h

lemma critical_of_pending
    (hpend : s.pendingCritical = some env) : env ∈ s.accepted ∧ env.isReplaceable = false := by
  have hmem : env ∈ s.accepted.filter isCritical := by
    rw [← h.critical, hpend]
    simp
  simpa [isCritical] using mem_filter.1 hmem

lemma replaceable_of_pending
    (hpend : s.pendingReplaceable = some env) : env ∈ s.accepted ∧ env.isReplaceable = true := by
  have hmem : env ∈ s.accepted.filter isReplaceable := by
    refine h.replaceable.subset ?_
    rw [hpend]
    simp
  exact mem_filter.1 hmem

/-- Taking the oldest event of the critical lane in hand. -/
lemma take_critical (hnone : s.pendingCritical = none) (hlane : s.criticalLane = env :: lane) :
    s.delivered.filter isCritical ++ (some env).toList ++ lane = s.accepted.filter isCritical := by
  rw [← h.critical, hnone, hlane]
  simp

/-- Taking the oldest event of the replaceable lane in hand. -/
lemma take_replaceable (hnone : s.pendingReplaceable = none)
    (hlane : s.replaceableLane = env :: lane) :
    (s.delivered.filter isReplaceable ++ (some env).toList ++ lane).Sublist
        (s.accepted.filter isReplaceable) ∧
      ∀ e ∈ s.accepted, e.isReplaceable = true →
        e ∈ s.delivered ∨ e ∈ (some env).toList ∨ e ∈ lane ∨ e ∈ s.evicted := by
  constructor
  · have hall := h.replaceable
    rw [hnone, hlane] at hall
    simpa using hall
  · intro e he hrepl
    have hkept := h.kept e he hrepl
    rw [hnone, hlane] at hkept
    simp only [Option.toList_none, not_mem_nil, false_or, mem_cons] at hkept
    simp only [Option.toList_some, mem_singleton]
    tauto

lemma step (hnumb : s.Numbered) (hstep : LaneStep capacity s a s') :
    s'.Conserved := by
  cases hstep with
  | number | refuse | full | evictNothing | resendFails =>
    exact { h with }
  | acceptCritical env _ hcrit =>
    refine ⟨?_, ?_, forall_mem_append.2 ⟨h.kept, forall_mem_singleton.2 fun hrepl => ?_⟩,
      h.selecting⟩
    · have hall := congrArg (· ++ [env]) h.critical
      simpa [acceptCritical, isCritical, hcrit] using hall
    · simpa [acceptCritical, hcrit] using h.replaceable
    · rw [hcrit] at hrepl
      cases hrepl
  | acceptReplaceable env hsend _ =>
    obtain ⟨-, hkind⟩ := hnumb.accepting hsend
    refine ⟨?_, ?_, fun e he hrepl => ?_, h.selecting⟩
    · simpa [acceptReplaceable, isCritical, hkind] using h.critical
    · have hall := h.replaceable.append (List.Sublist.refl [env])
      simpa [acceptReplaceable, hkind] using hall
    · rcases mem_append.1 he with he | he
      · exact (h.kept e he hrepl).imp_right (Or.imp_right (Or.imp_left (mem_append_left _)))
      · exact .inr (.inr (.inl (mem_append_right _ he)))
  | evictOldest env oldest lane _ _ hlane =>
    refine ⟨h.critical, ?_, fun e he hrepl => ?_, h.selecting⟩
    · have hall := h.replaceable
      rw [hlane] at hall
      exact ((sublist_cons_self oldest lane).append_left _).trans hall
    · rcases h.kept e he hrepl with hd | hp | hl | hv
      · exact .inl hd
      · exact .inr (.inl hp)
      · rw [hlane] at hl
        rcases mem_cons.1 hl with rfl | hl
        · exact .inr (.inr (.inr (mem_append_right _ (mem_singleton_self _))))
        · exact .inr (.inr (.inl hl))
      · exact .inr (.inr (.inr (mem_append_left _ hv)))
  | takeCritical next env lane hnext hnone hlane =>
    refine ⟨h.take_critical hnone hlane, h.replaceable, h.kept, fun hsel => ?_⟩
    rcases hnext with ⟨-, rfl⟩ | ⟨-, rfl⟩ <;> cases hsel
  | takeReplaceable next env lane hnext hnone hlane =>
    obtain ⟨hall, hkept⟩ := h.take_replaceable hnone hlane
    refine ⟨h.critical, hall, hkept, fun hsel => ?_⟩
    rcases hnext with ⟨-, -, rfl⟩ | ⟨-, rfl⟩ <;> cases hsel
  | skipCritical next hnext | skipReplaceable next hnext =>
    refine { h with selecting := fun hsel => ?_ }
    rcases hnext with ⟨-, rfl⟩ | ⟨-, rfl⟩ <;> cases hsel
  | deliverCritical env _ hpend _ =>
    obtain ⟨-, hkind⟩ := h.critical_of_pending hpend
    refine ⟨?_, ?_, fun e he hrepl => ?_, nofun⟩
    · have hall := h.critical
      rw [hpend] at hall
      simpa [deliverCritical, isCritical, hkind] using hall
    · simpa [deliverCritical, hkind] using h.replaceable
    · rcases h.kept e he hrepl with hd | hrest
      · exact .inl (mem_append_left _ hd)
      · exact .inr hrest
  | deliverReplaceable env _ hpend _ =>
    obtain ⟨-, hkind⟩ := h.replaceable_of_pending hpend
    refine ⟨?_, ?_, fun e he hrepl => ?_, nofun⟩
    · simpa [deliverReplaceable, isCritical, hkind] using h.critical
    · have hall := h.replaceable
      rw [hpend] at hall
      simpa [deliverReplaceable, hkind] using hall
    · rcases h.kept e he hrepl with hd | hp | hrest
      · exact .inl (mem_append_left _ hd)
      · rw [hpend] at hp
        exact .inl (mem_append_right _ (by simpa using hp))
      · exact .inr (.inr hrest)
  | deliverNothing next _ hcrit hrepl =>
    exact { h with selecting := fun _ => ⟨hcrit, hrepl⟩ }
  | selectCritical env lane hsel hlane =>
    refine ⟨h.take_critical (h.selecting hsel).1 hlane, h.replaceable, h.kept, nofun⟩
  | selectReplaceable env lane hsel hlane =>
    obtain ⟨hall, hkept⟩ := h.take_replaceable (h.selecting hsel).2 hlane
    exact ⟨h.critical, hall, hkept, nofun⟩
  | timeout => exact { h with selecting := nofun }

lemma accepted_of_waiting (he : e ∈ s.waiting) : e ∈ s.accepted := by
  rcases mem_append.1 he with he | he
  · refine mem_of_mem_filter (p := isCritical) ?_
    rw [← h.critical, append_assoc]
    exact mem_append_right _ he
  · refine mem_of_mem_filter (p := isReplaceable) (h.replaceable.subset ?_)
    rw [append_assoc]
    exact mem_append_right _ he

lemma accepted_of_delivered (he : e ∈ s.delivered) : e ∈ s.accepted := by
  cases hkind : e.isReplaceable with
  | true =>
    refine mem_of_mem_filter (p := isReplaceable) (h.replaceable.subset ?_)
    simp [he, hkind]
  | false =>
    refine mem_of_mem_filter (p := isCritical) ?_
    rw [← h.critical]
    simp [he, hkind, isCritical]

variable (hnumb : s.Numbered)
include hnumb

/-- The critical event at hand is older than its lane. -/
lemma lt_criticalLane
    (hc : s.pendingCritical = some c) (he : e ∈ s.criticalLane) : c.sequence < e.sequence := by
  have hpairw := hnumb.increasing.filter isCritical
  rw [← h.critical, hc] at hpairw
  exact (pairwise_append.1 hpairw).2.2 c (by simp) e he

/-- The replaceable event at hand is older than its lane. -/
lemma lt_replaceableLane
    (hr : s.pendingReplaceable = some r) (he : e ∈ s.replaceableLane) :
    r.sequence < e.sequence := by
  have hpairw := (hnumb.increasing.filter isReplaceable).sublist h.replaceable
  rw [hr] at hpairw
  exact (pairwise_append.1 hpairw).2.2 r (by simp) e he

/-- The events at hand have different numbers. -/
lemma sequence_ne (hc : s.pendingCritical = some c) (hr : s.pendingReplaceable = some r) :
    c.sequence ≠ r.sequence := by
  intro hseq
  obtain ⟨hcmem, hckind⟩ := h.critical_of_pending hc
  obtain ⟨hrmem, hrkind⟩ := h.replaceable_of_pending hr
  have hsame := hnumb.eq_of_sequence hcmem hrmem hseq
  rw [hsame, hrkind] at hckind
  cases hckind

end Conserved

/-! ## Order -/

/-- The operation is in neither race. -/
def timely (capacity : LaneCapacity) (s : ClobLanes π) : LaneAction π → Bool
  | .pollReplaceable => s.pendingCritical.isSome || s.pendingReplaceable.isSome ||
      s.replaceableLane.head?.all fun r => s.criticalLane.all fun e =>
        decide (r.sequence < e.sequence)
  | .evict => s.replaceableLane.length == capacity.replaceable
  | _ => true

/-- The events come out by number, and the events at hand have been compared with the other lane. -/
structure Ordered (s : ClobLanes π) : Prop where
  increasing : s.delivered.Pairwise (·.sequence < ·.sequence)
  ahead : ∀ d ∈ s.delivered, ∀ e ∈ s.waiting, d.sequence < e.sequence
  critical_polled : s.receiving ∈ [.pollReplaceable, .pop, .refillReplaceable, .popLast] →
    s.pendingCritical = none → ∀ r, s.pendingReplaceable = some r →
      ∀ e ∈ s.criticalLane, r.sequence < e.sequence
  replaceable_polled : s.receiving ∈ [.pop, .popLast] → s.pendingReplaceable = none →
    ∀ c, s.pendingCritical = some c → ∀ e ∈ s.replaceableLane, c.sequence < e.sequence
  selected : s.receiving ∈ [.refillCritical, .refillReplaceable] →
    s.pendingCritical = none → s.pendingReplaceable ≠ none

namespace Ordered

variable (h : s.Ordered)
include h

/-- Events that are taken in hand or out of a lane stay behind what was handed out. -/
lemma ahead_of_subset (hdel : s'.delivered = s.delivered)
    (hwait : ∀ e ∈ s'.waiting, e ∈ s.waiting) :
    ∀ d ∈ s'.delivered, ∀ e ∈ s'.waiting, d.sequence < e.sequence := by
  intro d hd e he
  rw [hdel] at hd
  exact h.ahead d hd e (hwait e he)

/-- An accepted event is newer than everything before it. -/
lemma accept (hnumb : s.Numbered) (hcons : s.Conserved)
    (henv : s.sending.envelope = some env) (hdel : s'.delivered = s.delivered)
    (hwait : ∀ e ∈ s'.waiting, e ∈ s.waiting ∨ e = env) :
    ∀ d ∈ s'.delivered, ∀ e ∈ s'.waiting, d.sequence < e.sequence := by
  intro d hd e he
  rw [hdel] at hd
  rcases hwait e he with he | rfl
  · exact h.ahead d hd e he
  · exact hnumb.sending_new e henv d (hcons.accepted_of_delivered hd)

/-- Handing out an event that is older than all that wait. -/
lemma deliver (henv : env ∈ s.waiting) (hdel : s'.delivered = s.delivered ++ [env])
    (hwait : ∀ e ∈ s'.waiting, e ∈ s.waiting ∧ env.sequence < e.sequence)
    (hidle : s'.receiving = .idle) : s'.Ordered := by
  refine ⟨?_, ?_, ?_, ?_, ?_⟩
  · rw [hdel]
    refine pairwise_append.2 ⟨h.increasing, pairwise_singleton _ _, ?_⟩
    intro d hd e he
    cases mem_singleton.1 he
    exact h.ahead d hd env henv
  · intro d hd e he
    rw [hdel] at hd
    rcases mem_append.1 hd with hd | hd
    · exact h.ahead d hd e (hwait e he).1
    · cases mem_singleton.1 hd
      exact (hwait e he).2
  all_goals
    intro hrecv
    rw [hidle] at hrecv
    simp at hrecv

lemma step (hnumb : s.Numbered) (hcons : s.Conserved)
    (htim : s.timely capacity a = true) (hstep : LaneStep capacity s a s') : s'.Ordered := by
  cases hstep with
  | number | refuse | full | evictNothing | resendFails =>
    exact { h with }
  | acceptCritical env hpub _ =>
    have henv : s.sending.envelope = some env := by rw [hpub]; rfl
    refine { h with ahead := h.accept hnumb hcons henv rfl ?_, critical_polled := ?_ }
    · intro e he
      simp only [mem_waiting, acceptCritical, mem_append, mem_singleton] at he ⊢
      tauto
    · intro hrecv hnone r hr
      exact forall_mem_append.2 ⟨h.critical_polled hrecv hnone r hr, forall_mem_singleton.2
        (hnumb.sending_new env henv r (hcons.replaceable_of_pending hr).1)⟩
  | acceptReplaceable env hsend _ =>
    obtain ⟨henv, -⟩ := hnumb.accepting hsend
    refine { h with ahead := h.accept hnumb hcons henv rfl ?_, replaceable_polled := ?_ }
    · intro e he
      simp only [mem_waiting, acceptReplaceable, mem_append, mem_singleton] at he ⊢
      tauto
    · intro hrecv hnone c hc
      exact forall_mem_append.2 ⟨h.replaceable_polled hrecv hnone c hc, forall_mem_singleton.2
        (hnumb.sending_new env henv c (hcons.critical_of_pending hc).1)⟩
  | evictOldest env oldest lane _ _ hlane =>
    have hsub : ∀ e ∈ lane, e ∈ s.replaceableLane := fun e he => hlane ▸ mem_cons_of_mem _ he
    refine { h with ahead := h.ahead_of_subset rfl fun e he => ?_, replaceable_polled := ?_ }
    · rw [mem_waiting] at he ⊢
      exact he.imp_right (Or.imp_right (hsub e))
    · exact fun hrecv hnone c hc e he =>
        h.replaceable_polled hrecv hnone c hc e (hsub e he)
  | takeCritical next env lane hnext hnone hlane =>
    refine ⟨h.increasing, h.ahead_of_subset rfl fun e he => ?_, nofun, fun hrecv => ?_, nofun⟩
    · simp only [mem_waiting, Option.some.injEq, hlane, mem_cons] at he ⊢
      tauto
    · rcases hnext with ⟨-, rfl⟩ | ⟨-, rfl⟩ <;> simp at hrecv
  | skipCritical next hnext hempty =>
    refine ⟨h.increasing, h.ahead, fun _ hpend r _ e he => ?_, fun hrecv => ?_, fun hrecv => ?_⟩
    · rw [hempty hpend] at he
      cases he
    · rcases hnext with ⟨-, rfl⟩ | ⟨-, rfl⟩ <;> simp at hrecv
    · rcases hnext with ⟨-, rfl⟩ | ⟨href, rfl⟩
      · simp at hrecv
      · exact h.selected (by simp [href])
  | takeReplaceable next env lane hnext hnone hlane =>
    refine ⟨h.increasing, h.ahead_of_subset rfl fun e he => ?_, fun _ hpend r hr e he => ?_,
      nofun, nofun⟩
    · simp only [mem_waiting, Option.some.injEq, hlane, mem_cons] at he ⊢
      tauto
    · cases hr
      rcases hnext with ⟨rfl, -, -⟩ | ⟨href, -⟩
      · -- The first poll of a call is the one that can race with the sender.
        have hpend' : s.pendingCritical = none := hpend
        simp only [timely, hpend', hnone, hlane, head?_cons, Option.all_some,
          all_eq_true, decide_eq_true_eq, Option.isSome_none, Bool.false_or] at htim
        exact htim e he
      · exact absurd hnone (h.selected (by simp [href]) hpend)
  | skipReplaceable next hnext hempty =>
    have hpolled : s.receiving ∈ [.pollReplaceable, .pop, .refillReplaceable, .popLast] := by
      rcases hnext with ⟨hpoll, -⟩ | ⟨href, -⟩
      · simp [hpoll]
      · simp [href]
    refine ⟨h.increasing, h.ahead, fun _ => h.critical_polled hpolled,
      fun _ hpend c _ e he => ?_, fun hrecv => ?_⟩
    · rw [hempty hpend] at he
      cases he
    · rcases hnext with ⟨-, rfl⟩ | ⟨-, rfl⟩ <;> simp at hrecv
  | deliverCritical env hrecv hpend hle =>
    refine h.deliver (mem_waiting.2 (.inl (.inl hpend))) rfl (fun e he => ?_) rfl
    rw [mem_waiting] at he
    rcases he with (he | he) | he | he
    · cases he
    · exact ⟨mem_waiting.2 (.inl (.inr he)), hcons.lt_criticalLane hnumb hpend he⟩
    · have hne := hcons.sequence_ne hnumb hpend he
      exact ⟨mem_waiting.2 (.inr (.inl he)), Nat.lt_of_le_of_ne (hle e he) hne⟩
    · refine ⟨mem_waiting.2 (.inr (.inr he)), ?_⟩
      cases hother : s.pendingReplaceable with
      | none => exact h.replaceable_polled (by simpa using hrecv) hother env hpend e he
      | some r =>
        exact Nat.lt_of_le_of_lt (hle r hother) (hcons.lt_replaceableLane hnumb hother he)
  | deliverReplaceable env hrecv hpend hlt =>
    refine h.deliver (mem_waiting.2 (.inr (.inl hpend))) rfl (fun e he => ?_) rfl
    rw [mem_waiting] at he
    rcases he with (he | he) | he | he
    · exact ⟨mem_waiting.2 (.inl (.inl he)), hlt e he⟩
    · refine ⟨mem_waiting.2 (.inl (.inr he)), ?_⟩
      cases hother : s.pendingCritical with
      | none =>
        refine h.critical_polled ?_ hother env hpend e he
        rcases hrecv with hpop | hpop <;> simp [hpop]
      | some c => exact Nat.lt_trans (hlt c hother) (hcons.lt_criticalLane hnumb hother he)
    · cases he
    · exact ⟨mem_waiting.2 (.inr (.inr he)), hcons.lt_replaceableLane hnumb hpend he⟩
  | deliverNothing next hnext _ _ =>
    refine ⟨h.increasing, h.ahead, fun hrecv => ?_, fun hrecv => ?_, fun hrecv => ?_⟩
    all_goals rcases hnext with rfl | rfl <;> simp at hrecv
  | selectCritical env lane hsel hlane | selectReplaceable env lane hsel hlane =>
    refine ⟨h.increasing, h.ahead_of_subset rfl fun e he => ?_, fun hrecv => ?_,
      fun hrecv => ?_, nofun⟩
    · simp only [mem_waiting, Option.some.injEq, hlane, mem_cons] at he ⊢
      tauto
    all_goals simp at hrecv
  | timeout =>
    refine ⟨h.increasing, h.ahead, fun hrecv => ?_, fun hrecv => ?_, fun hrecv => ?_⟩
    all_goals simp at hrecv

end Ordered

/-! ## Evictions -/

/-- The sender has made room and not sent yet. -/
def resending (s : ClobLanes π) : Bool :=
  match s.sending with
  | .resend _ => true
  | _ => false

/-- The replaceable events accepted after an event. -/
def newer (s : ClobLanes π) (e : ClobEventEnvelope π) : ℕ :=
  (s.accepted.filter isReplaceable).countP fun e' => decide (e.sequence < e'.sequence)

/-- Every evicted event was followed by a lane full of newer ones, the event in the sender's hand
included. -/
structure Covered (capacity : LaneCapacity) (s : ClobLanes π) : Prop where
  bounded : s.replaceableLane.length ≤ capacity.replaceable
  room : s.resending = true →
    s.replaceableLane.length < capacity.replaceable ∨ capacity.replaceable = 0
  evicted_accepted : ∀ e ∈ s.evicted, e ∈ s.accepted
  covered : ∀ e ∈ s.evicted, capacity.replaceable ≤ s.newer e + if s.resending then 1 else 0

namespace Covered

/-- The receiver takes events out of the lane, or the sender goes on without touching it. -/
lemma of_length (h : Covered capacity s)
    (hlen : s'.replaceableLane.length ≤ s.replaceableLane.length)
    (hacc : s'.accepted = s.accepted) (hevicted : s'.evicted = s.evicted)
    (hres : s'.resending = s.resending) : Covered capacity s' := by
  refine ⟨Nat.le_trans hlen h.bounded, ?_, ?_, ?_⟩
  · intro hresend
    have hroom := h.room (hres ▸ hresend)
    omega
  · rw [hacc, hevicted]
    exact h.evicted_accepted
  · rw [hevicted, hres]
    unfold newer
    rw [hacc]
    exact h.covered

lemma le_newer (h : Covered capacity s) (hres : s.resending = false) (he : e ∈ s.evicted) :
    capacity.replaceable ≤ s.newer e := by
  simpa [hres] using h.covered e he

lemma newer_accept (hnumb : s.Numbered)
    (henv : s.sending.envelope = some env) (hkind : env.isReplaceable = true)
    (he : e ∈ s.accepted) : (s.acceptReplaceable env).newer e = s.newer e + 1 := by
  have hlt := hnumb.sending_new env henv e he
  simp [newer, acceptReplaceable, hkind, hlt]

lemma step (h : Covered capacity s) (hnumb : s.Numbered) (hcons : s.Conserved)
    (htim : s.timely capacity a = true) (hstep : LaneStep capacity s a s') :
    Covered capacity s' := by
  cases hstep with
  | number event hidle => exact h.of_length (Nat.le_refl _) rfl rfl (by simp [resending, hidle])
  | refuse env hpub | full env hpub =>
    exact h.of_length (Nat.le_refl _) rfl rfl (by simp [resending, hpub])
  | acceptCritical env hpub hcrit =>
    refine ⟨h.bounded, fun hres => (by cases hres), fun e he => ?_, fun e he => ?_⟩
    · exact mem_append_left _ (h.evicted_accepted e he)
    · have hsame : (s.acceptCritical env).newer e = s.newer e := by
        simp [newer, acceptCritical, hcrit]
      rw [hsame]
      exact Nat.le_add_right_of_le (h.le_newer (by simp [resending, hpub]) he)
  | acceptReplaceable env hsend hroom =>
    obtain ⟨henv, hkind⟩ := hnumb.accepting hsend
    refine ⟨?_, fun hres => (by cases hres), fun e he => ?_, fun e he => ?_⟩
    · simpa [acceptReplaceable] using Nat.succ_le_of_lt hroom
    · exact mem_append_left _ (h.evicted_accepted e he)
    · have hcov := h.covered e he
      rw [newer_accept hnumb henv hkind (h.evicted_accepted e he)]
      split at hcov <;> omega
  | evictNothing env hevict hlane =>
    refine ⟨h.bounded, fun _ => ?_, h.evicted_accepted, fun e he => ?_⟩
    · rw [hlane, length_nil]
      omega
    · exact Nat.le_add_right_of_le (h.le_newer (by simp [resending, hevict]) he)
  | evictOldest env oldest lane ha hevict hlane =>
    have hfull : lane.length + 1 = capacity.replaceable := by
      subst ha
      simpa [timely, hlane] using htim
    have hbounded : lane.length < capacity.replaceable := by omega
    refine ⟨Nat.le_of_lt hbounded, fun _ => .inl hbounded,
      forall_mem_append.2 ⟨h.evicted_accepted, forall_mem_singleton.2 ?_⟩,
      forall_mem_append.2 ⟨fun e he => ?_, forall_mem_singleton.2 ?_⟩⟩
    · refine hcons.accepted_of_waiting (mem_waiting.2 (.inr (.inr ?_)))
      rw [hlane]
      exact .head _
    · exact Nat.le_succ_of_le (h.le_newer (by simp [resending, hevict]) he)
    · show capacity.replaceable ≤ s.newer oldest + 1
      -- The rest of the full lane is newer than its head.
      have hsub : (oldest :: lane).Sublist (s.accepted.filter isReplaceable) := by
        have hlanes := hcons.replaceable
        rw [hlane] at hlanes
        exact (sublist_append_right _ _).trans hlanes
      have hpairw := (hnumb.increasing.filter isReplaceable).sublist hsub
      have hcount :
        lane.countP (fun e' => decide (oldest.sequence < e'.sequence)) = lane.length := by
        refine countP_eq_length.2 fun e' he' => ?_
        exact decide_eq_true ((pairwise_cons.1 hpairw).1 e' he')
      have hle : lane.countP (fun e' => decide (oldest.sequence < e'.sequence)) ≤ s.newer oldest :=
        ((sublist_cons_self oldest lane).trans hsub).countP_le
      omega
  | resendFails env hres hfull =>
    have hzero : capacity.replaceable = 0 := by
      rcases h.room (by simp [resending, hres]) with hroom | hzero
      · exact absurd hroom hfull
      · exact hzero
    exact ⟨h.bounded, fun hres => (by cases hres), h.evicted_accepted, fun e _ => by omega⟩
  | takeReplaceable _ env lane _ _ hlane | selectReplaceable env lane _ hlane =>
    refine h.of_length ?_ rfl rfl rfl
    rw [hlane]
    exact Nat.le_succ _
  | takeCritical | skipCritical | skipReplaceable | deliverCritical | deliverReplaceable
  | deliverNothing | selectCritical | timeout => exact h.of_length (Nat.le_refl _) rfl rfl rfl

end Covered

/-! ## Runs -/

/-- Operations of the two sides in any order, each of them timely. -/
def TimelyRun (capacity : LaneCapacity) (s : ClobLanes π) (actions : List (LaneAction π))
    (s' : ClobLanes π) : Prop :=
  Trace (fun s a s' => s.timely capacity a = true ∧ s.step capacity a = some s') s actions s'

/-- All that is kept along a run. -/
structure Sound (capacity : LaneCapacity) (s : ClobLanes π) : Prop where
  numbered : s.Numbered
  conserved : s.Conserved
  ordered : s.Ordered
  covered : Covered capacity s

lemma sound_init : Sound capacity ({} : ClobLanes π) where
  numbered := ⟨.nil, nofun, nofun, nofun, fun _ he => by rcases he with he | he <;> cases he⟩
  conserved := ⟨rfl, .slnil, nofun, nofun⟩
  ordered := ⟨.nil, nofun, (fun he => by simp at he), (fun he => by simp at he),
    fun he => by simp at he⟩
  covered := ⟨Nat.zero_le _, nofun, nofun, nofun⟩

lemma Sound.run (h : TimelyRun capacity s acts s') (hs : Sound capacity s) : Sound capacity s' := by
  refine h.invariant (P := Sound capacity) ?_ hs
  rintro t a t' ht ⟨htim, hstep⟩
  have heff := laneStep_of_step hstep
  exact ⟨ht.numbered.step heff, ht.conserved.step ht.numbered heff,
    ht.ordered.step ht.numbered ht.conserved htim heff,
    ht.covered.step ht.numbered ht.conserved htim heff⟩

/-- In every interleaving of timely operations: events are handed out by number; every accepted
critical event is handed out once or still waits in its place; no event is handed out that was not
accepted, and none twice; an accepted replaceable event that neither was handed out nor waits was
evicted; and after an evicted event a whole lane of newer replaceable ones was accepted, as soon as
the evicting call returns. -/
theorem wire_order {actions : List (LaneAction π)} (hrun : TimelyRun capacity {} actions s) :
    s.delivered.Pairwise (·.sequence < ·.sequence) ∧
    s.delivered.filter isCritical ++ s.pendingCritical.toList ++ s.criticalLane =
      s.accepted.filter isCritical ∧
    s.accepted.Pairwise (·.sequence < ·.sequence) ∧
    (∀ e ∈ s.delivered, e ∈ s.accepted) ∧
    (∀ e ∈ s.accepted, e.isReplaceable = true → e ∉ s.delivered → e ∉ s.waiting → e ∈ s.evicted) ∧
    (s.resending = false → ∀ e ∈ s.evicted, capacity.replaceable ≤ s.newer e) := by
  have hsound := Sound.run hrun sound_init
  refine ⟨hsound.ordered.increasing, hsound.conserved.critical, hsound.numbered.increasing,
    fun e he => hsound.conserved.accepted_of_delivered he, fun e he hkind hdel hwait => ?_,
    fun hres e he => ?_⟩
  · rcases hsound.conserved.kept e he hkind with hd | hp | hl | hv
    · exact absurd hd hdel
    · refine absurd (mem_waiting.2 (.inr (.inl ?_))) hwait
      simpa using hp
    · exact absurd (mem_waiting.2 (.inr (.inr hl))) hwait
    · exact hv
  · exact hsound.covered.le_newer hres he

/-- The operations are timely one after the other. -/
def timelyAll (capacity : LaneCapacity) (s : ClobLanes π) : List (LaneAction π) → Bool
  | [] => true
  | a :: actions => s.timely capacity a &&
      (s.step capacity a).all fun s' => s'.timelyAll capacity actions

lemma timelyRun_of_run (h : s.run capacity acts = some s')
    (htim : s.timelyAll capacity acts = true) : TimelyRun capacity s acts s' := by
  induction acts generalizing s with
  | nil =>
    cases h
    exact .nil _
  | cons a acts ih =>
    obtain ⟨t, hstep, hrest⟩ := Option.bind_eq_some_iff.1 h
    simp only [timelyAll, hstep, Option.all_some, Bool.and_eq_true] at htim
    exact .cons ⟨htim.1, hstep⟩ (ih hrest htim.2)

/-- A quote and then a disconnection, received after both were sent. -/
def orderedRun : List (LaneAction Unit) :=
  [.send ⟨.quote, ()⟩, .trySend, .send ⟨.disconnected, ()⟩, .trySend,
    .recv, .pollReplaceable, .pop, .recv, .pollReplaceable, .pop]

theorem wire_order_two_events : ∃ s : ClobLanes Unit, run {} {} orderedRun = some s ∧
    s.delivered.map sequence = [0, 1] ∧ s.delivered.Pairwise (·.sequence < ·.sequence) := by
  have hdel : (run {} {} orderedRun).map (fun s => s.delivered.map sequence) = some [0, 1] := by
    decide
  obtain ⟨s, hrun, hs⟩ := Option.map_eq_some_iff.1 hdel
  exact ⟨s, hrun, hs, (wire_order (timelyRun_of_run hrun (by decide))).1⟩

/-- The sender publishes a disconnection and a quote between the two polls of the receiver. -/
def pollRace : List (LaneAction Unit) :=
  [.recv, .send ⟨.disconnected, ()⟩, .trySend, .send ⟨.quote, ()⟩, .trySend, .pollReplaceable, .pop,
    .recv, .pollReplaceable, .pop]

/-- The receiver takes a quote out of the full lane between the refusal and the eviction. -/
def evictionRace : List (LaneAction Unit) :=
  [.send ⟨.quote, ()⟩, .trySend, .send ⟨.quote, ()⟩, .trySend, .send ⟨.quote, ()⟩, .trySend,
    .recv, .pollReplaceable, .pop, .evict, .resend]

/-- In the first race the quote is handed out before the older disconnection. In the second one,
with a replaceable lane of two, an event is evicted although only one newer event is accepted. -/
theorem race_breaks_wire_order :
    (run {} {} pollRace).map (fun s => s.delivered.map sequence) = some [1, 0] ∧
    (run ⟨1, 2⟩ {} evictionRace).map (fun s => s.evicted.map fun e => (e.sequence, s.newer e)) =
      some [(1, 1)] := by
  decide

end ClobLanes

end HexAgent.Clob
