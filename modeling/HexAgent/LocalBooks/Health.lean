import HexAgent.LocalBooks.Calls

/-!
# Published health of the markets

The health of a condition is derived from its tokens: degraded, quarantined, or with a pending
check. It is published when it is reconciled, and a return to `healthy` only after a stable
interval. Every call reconciles the markets of the tokens that it touches (`Reconciled`), so the
last published health is the derived one, or the recovery is scheduled.

The tokens of a condition are those that `marketKey` assigns to it.
-/

namespace HexAgent.LocalBooks

open ClobLocalBooks List AList Option Bool ClobLocalBooks Label

variable {pending : PendingHealthRecovery} {tokens : List String} (now : ℕ)

/-! ## Derived health -/

/-- A token of the condition is degraded. -/
abbrev HasDegraded (s : ClobLocalBooks) (conditionId : String) : Prop :=
  ∃ token ∈ s.degradedTokens, s.marketKey token = conditionId

/-- A token of the condition is quarantined. -/
abbrev HasQuarantined (s : ClobLocalBooks) (conditionId : String) : Prop :=
  ∃ token ∈ s.quarantinedTokens, s.marketKey token = conditionId

/-- A token of the condition has a pending check. -/
abbrev HasPending (s : ClobLocalBooks) (conditionId : String) : Prop :=
  ∃ token, (s.pendingBbo.lookup token).isSome ∧ s.marketKey token = conditionId

/-- No token of the condition is degraded, quarantined or pending. -/
structure Clean (s : ClobLocalBooks) (conditionId : String) : Prop where
  degraded : ¬ HasDegraded s conditionId
  quarantined : ¬ HasQuarantined s conditionId
  pending : ¬ HasPending s conditionId

variable {lib : DecimalLib} {s s' : ClobLocalBooks} {past batch : List MarketEvent}
  {m token : String} {state : MarketDataHealthState}

lemma any_pending_iff :
    (s.pendingBbo.entries.any fun e => s.marketKey e.1 = m) = true ↔ HasPending s m := by
  rw [List.any_eq_true]
  constructor
  · rintro ⟨e, he, hkey⟩
    refine ⟨e.1, ?_, of_decide_eq_true hkey⟩
    rw [mem_lookup_iff.2 he]
    rfl
  · rintro ⟨token, hsome, hkey⟩
    obtain ⟨pending, hpend⟩ := isSome_iff_exists.1 hsome
    exact ⟨⟨token, pending⟩, mem_lookup_iff.1 hpend, decide_eq_true hkey⟩

lemma desiredHealthState_unseeded :
    s.desiredHealthState m = none ↔ s.conditionIsSeeded m = false := by
  unfold desiredHealthState
  cases s.conditionIsSeeded m with
  | false => simp
  | true =>
    simp only [Bool.not_true, Bool.false_eq_true, if_false, Bool.true_eq_false, iff_false]
    split
    · simp
    · split
      · simp
      · split <;> simp

lemma conditionIsSeeded_of_desired
    (h : s.desiredHealthState m = some state) : s.conditionIsSeeded m = true := by
  by_contra hne
  rw [desiredHealthState_unseeded.2 (not_eq_true _ ▸ hne)] at h
  cases h

section

variable (hseeded : s.conditionIsSeeded m = true)

include hseeded

lemma desiredHealthState_degraded
    (h : HasDegraded s m) : s.desiredHealthState m = some .degraded := by
  unfold desiredHealthState
  rw [if_neg (by simp [hseeded]), if_pos h]

lemma desiredHealthState_repairing (hdegr : ¬ HasDegraded s m) (h : HasQuarantined s m) :
    s.desiredHealthState m = some .repairing := by
  unfold desiredHealthState
  rw [if_neg (by simp [hseeded]), if_neg hdegr, if_pos h]

lemma desiredHealthState_settling
    (hdegr : ¬ HasDegraded s m) (hquar : ¬ HasQuarantined s m) (h : HasPending s m) :
    s.desiredHealthState m = some .settling := by
  unfold desiredHealthState
  rw [if_neg (by simp [hseeded]), if_neg hdegr, if_neg hquar, if_pos (any_pending_iff.2 h)]

lemma desiredHealthState_clean (h : Clean s m) : s.desiredHealthState m = some .healthy := by
  unfold desiredHealthState
  rw [if_neg (by simp [hseeded]), if_neg h.degraded, if_neg h.quarantined,
    if_neg (any_pending_iff.not.2 h.pending)]

end

lemma clean_of_desiredHealthState (h : s.desiredHealthState m = some .healthy) : Clean s m := by
  have hseeded := conditionIsSeeded_of_desired h
  by_contra hclean
  by_cases hdegr : HasDegraded s m
  · rw [desiredHealthState_degraded hseeded hdegr] at h
    cases h
  by_cases hquar : HasQuarantined s m
  · rw [desiredHealthState_repairing hseeded hdegr hquar] at h
    cases h
  by_cases hpend : HasPending s m
  · rw [desiredHealthState_settling hseeded hdegr hquar hpend] at h
    cases h
  exact hclean ⟨hdegr, hquar, hpend⟩

/-! ## Markets that an update does not touch -/

/-- The tokens of a market have the same books, checks and marks, apart from the contents of the
books and checks. -/
structure SameTokens (m : String) (s s' : ClobLocalBooks) : Prop where
  roles : s'.roles = s.roles
  books : ∀ token, s.marketKey token = m →
    (s'.tokenBooks.lookup token).isSome = (s.tokenBooks.lookup token).isSome
  pending : ∀ token, s.marketKey token = m →
    (s'.pendingBbo.lookup token).isSome = (s.pendingBbo.lookup token).isSome
  quarantined : ∀ token, s.marketKey token = m →
    (token ∈ s'.quarantinedTokens ↔ token ∈ s.quarantinedTokens)
  degraded : ∀ token, s.marketKey token = m →
    (token ∈ s'.degradedTokens ↔ token ∈ s.degradedTokens)

lemma marketKey_congr (h : s'.roles = s.roles) (token : String) :
    s'.marketKey token = s.marketKey token := by
  simp only [marketKey, h]

namespace SameTokens

lemma conditionIsSeeded (h : SameTokens m s s') :
    s'.conditionIsSeeded m = s.conditionIsSeeded m := by
  unfold ClobLocalBooks.conditionIsSeeded
  simp only [h.roles]
  congr 1
  rw [Bool.eq_iff_iff, List.all_eq_true, List.all_eq_true]
  refine forall₂_congr fun e he => ?_
  obtain ⟨hmem, hcond⟩ := mem_filter.1 he
  have hget : s.roles.lookup e.1 = some e.2 := mem_lookup_iff.2 hmem
  have hkey : s.marketKey e.1 = m := by simpa only [marketKey, hget] using of_decide_eq_true hcond
  rw [h.books e.1 hkey]

lemma desiredHealthState (h : SameTokens m s s') :
    s'.desiredHealthState m = s.desiredHealthState m := by
  have hdegr : (∃ token ∈ s'.degradedTokens, s'.marketKey token = m) ↔
      ∃ token ∈ s.degradedTokens, s.marketKey token = m := by
    refine exists_congr fun token => ?_
    rw [marketKey_congr h.roles, and_congr_left_iff]
    exact h.degraded token
  have hquar : (∃ token ∈ s'.quarantinedTokens, s'.marketKey token = m) ↔
      ∃ token ∈ s.quarantinedTokens, s.marketKey token = m := by
    refine exists_congr fun token => ?_
    rw [marketKey_congr h.roles, and_congr_left_iff]
    exact h.quarantined token
  have hpend : (s'.pendingBbo.entries.any fun e => s'.marketKey e.1 = m) =
      s.pendingBbo.entries.any fun e => s.marketKey e.1 = m := by
    rw [Bool.eq_iff_iff, any_pending_iff, any_pending_iff]
    refine exists_congr fun token => ?_
    rw [marketKey_congr h.roles, and_congr_left_iff]
    exact fun hkey => by rw [h.pending token hkey]
  unfold ClobLocalBooks.desiredHealthState
  simp only [h.conditionIsSeeded, hdegr, hquar, hpend]

lemma of_eq (hroles : s'.roles = s.roles) (hbooks : s'.tokenBooks = s.tokenBooks)
    (hpend : s'.pendingBbo = s.pendingBbo) (hquar : s'.quarantinedTokens = s.quarantinedTokens)
    (hdegr : s'.degradedTokens = s.degradedTokens) : SameTokens m s s' where
  roles := hroles
  books _ _ := by rw [hbooks]
  pending _ _ := by rw [hpend]
  quarantined _ _ := by rw [hquar]
  degraded _ _ := by rw [hdegr]

end SameTokens

/-- The token whose check, quarantine or mark an update changes. -/
def Label.touched : Label → Option String
  | .accept token | .expect token | .resolve token | .settle token | .quarantine token
  | .fail token => some token
  | _ => none

variable {c c' : Config} {label : Label}

lemma Update.sameTokens (h : Update c label c')
    (hm : ∀ token ∈ label.touched, c.books.marketKey token ≠ m) :
    SameTokens m c.books c'.books := by
  -- a token of the market is not the one that is touched
  have hne : ∀ {t token : String}, label.touched = some t → c.books.marketKey token = m →
      token ≠ t := by
    rintro t token ht hkey rfl
    exact hm token ht hkey
  have hreport := h.report_eq
  cases h with
  | emit | reconcile | recover =>
    rw [hreport rfl]
    exact .of_eq rfl rfl rfl rfl rfl
  | dirty s _ _ t =>
    refine ⟨rfl, fun token _ => ?_, fun _ _ => rfl, fun _ _ => .rfl, fun _ _ => .rfl⟩
    rw [lookup_clearDirty]
    split
    · rw [isSome_map]
    · rfl
  | change s _ _ t hbook =>
    refine ⟨rfl, fun token _ => ?_, fun _ _ => rfl, fun _ _ => .rfl, fun _ _ => .rfl⟩
    rw [lookup_insert_eq_ite]
    split
    · next heq =>
      rw [heq, hbook]
      rfl
    · rfl
  | accept s _ _ t =>
    refine ⟨rfl, fun token hkey => ?_, fun token hkey => ?_, fun token hkey => ?_,
      fun token hkey => ?_⟩
    · exact congrArg isSome (lookup_insert_ne (hne rfl hkey))
    · exact congrArg isSome (lookup_erase_ne (hne rfl hkey))
    · exact Finset.mem_erase.trans (and_iff_right (hne rfl hkey))
    · exact Finset.mem_erase.trans (and_iff_right (hne rfl hkey))
  | expect s _ _ t =>
    refine ⟨rfl, fun _ _ => rfl, fun token hkey => ?_, fun _ _ => .rfl, fun _ _ => .rfl⟩
    exact congrArg isSome (lookup_insert_ne (hne rfl hkey))
  | resolve s _ _ t =>
    refine ⟨rfl, fun _ _ => rfl, fun token hkey => ?_, fun token hkey => ?_, fun token hkey => ?_⟩
    · exact congrArg isSome (lookup_erase_ne (hne rfl hkey))
    · exact Finset.mem_erase.trans (and_iff_right (hne rfl hkey))
    · exact Finset.mem_erase.trans (and_iff_right (hne rfl hkey))
  | settle s _ _ t =>
    refine ⟨rfl, fun _ _ => rfl, fun token hkey => ?_, fun _ _ => .rfl, fun _ _ => .rfl⟩
    exact congrArg isSome (lookup_erase_ne (hne rfl hkey))
  | quarantine s _ _ t =>
    refine ⟨rfl, fun _ _ => rfl, fun token hkey => ?_, fun token hkey => ?_, fun _ _ => .rfl⟩
    · exact congrArg isSome (lookup_erase_ne (hne rfl hkey))
    · exact Finset.mem_insert.trans (or_iff_right (hne rfl hkey))
  | fail s _ _ t =>
    refine ⟨rfl, fun _ _ => rfl, fun _ _ => rfl, fun _ _ => .rfl, fun token hkey => ?_⟩
    exact Finset.mem_insert.trans (or_iff_right (hne rfl hkey))
  | sequence | ticks | quote | replay | deliver => exact .of_eq rfl rfl rfl rfl rfl

/-- A seeded condition stays seeded. -/
lemma Update.conditionIsSeeded (h : Update c label c')
    (hseeded : c.books.conditionIsSeeded m = true) : c'.books.conditionIsSeeded m = true := by
  by_cases hm : ∀ token ∈ label.touched, c.books.marketKey token ≠ m
  · rw [(h.sameTokens hm).conditionIsSeeded]
    exact hseeded
  -- a touched market loses no book
  have hbooks : ∀ token, (c.books.tokenBooks.lookup token).isSome →
      (c'.books.tokenBooks.lookup token).isSome := by
    cases h with
    | accept s _ _ t =>
      intro token hsome
      simp only [acceptBook]
      rw [lookup_insert_eq_ite]
      split
      · rfl
      · exact hsome
    | expect | resolve | settle | quarantine | fail => exact fun _ hsome => hsome
    | sequence | ticks | quote | dirty | change | emit | replay | reconcile | recover
    | deliver => exact absurd (by rintro _ ⟨⟩) hm
  unfold ClobLocalBooks.conditionIsSeeded at hseeded ⊢
  rw [h.roles]
  simp only [Bool.and_eq_true, List.all_eq_true] at hseeded ⊢
  exact ⟨hseeded.1, fun e he => hbooks e.1 (hseeded.2 e he)⟩

/-! ## What a reconciliation does -/

/-- State of a condition that an event publishes. -/
def healthOf (conditionId : String) : MarketEvent → Option MarketDataHealthState
  | .marketDataHealth health =>
    if health.marketId = conditionId then some health.state else none
  | _ => none

/-- The published states of a condition, in order. -/
def healthLog (conditionId : String) (events : List MarketEvent) : List MarketDataHealthState :=
  events.filterMap (healthOf conditionId)

/-- The last published state restricts trading. -/
def Restrictive (state : Option MarketDataHealthState) : Bool := state.any (· ≠ .healthy)

@[simp] lemma healthLog_append (m : String) (events events' : List MarketEvent) :
    healthLog m (events ++ events') = healthLog m events ++ healthLog m events' :=
  filterMap_append

lemma healthOf_healthEvent (s : ClobLocalBooks) (key token reason : String)
    (state : MarketDataHealthState) (now : ℕ) (m : String) :
    healthOf m (s.healthEvent key token state reason now) =
      if key = m then some state else none := rfl

/-- What a reconciliation does to the state of the feed and what it publishes. -/
inductive HealthMove (s : ClobLocalBooks) (key reason : String) (time : ℕ) :
    ClobLocalBooks × Option MarketEvent → Prop
  | unseeded (h : s.desiredHealthState key = none) : HealthMove s key reason time (s, none)
  | unchanged {state : MarketDataHealthState} (h : s.desiredHealthState key = some state)
      (hstate : s.healthStates.lookup key = some state)
      (hrecovery : s.pendingHealthRecoveries.lookup key = none) :
      HealthMove s key reason time (s, none)
  | waiting (h : s.desiredHealthState key = some .healthy)
      (hstate : Restrictive (s.healthStates.lookup key) = true)
      (hrecovery : (s.pendingHealthRecoveries.lookup key).isSome) :
      HealthMove s key reason time (s, none)
  | scheduled (h : s.desiredHealthState key = some .healthy)
      (hstate : Restrictive (s.healthStates.lookup key) = true) :
      HealthMove s key reason time ({ s with
        pendingHealthRecoveries := s.pendingHealthRecoveries.insert key
          ⟨time + clobHealthRecoveryStableInterval, reason⟩ }, none)
  | dropped {state : MarketDataHealthState} (h : s.desiredHealthState key = some state)
      (hstate : s.healthStates.lookup key = some state) :
      HealthMove s key reason time ({ s with
        pendingHealthRecoveries := s.pendingHealthRecoveries.erase key }, none)
  | published {state : MarketDataHealthState} (h : s.desiredHealthState key = some state)
      (hstate : state = .healthy → Restrictive (s.healthStates.lookup key) = false)
      {event : MarketEvent}
      (hevent : ∀ m, healthOf m event = if key = m then some state else none) :
      HealthMove s key reason time ({ s with
        pendingHealthRecoveries := s.pendingHealthRecoveries.erase key
        healthStates := s.healthStates.insert key state }, some event)

lemma reconcileHealth_move (s : ClobLocalBooks) (token reason : String) (time now : ℕ) :
    HealthMove s (s.marketKey token) reason time (s.reconcileHealth token reason time now) := by
  unfold reconcileHealth
  dsimp only
  split
  · next h => exact .unseeded h
  next state h =>
  split
  · next hsame => exact .unchanged h hsame.1 hsame.2
  split
  · next hrec =>
    obtain ⟨rfl, hrest⟩ := hrec
    split
    · next hrcv => exact .waiting h hrest (by rw [hrcv]; rfl)
    · exact .scheduled h hrest
  next hstays =>
  split
  · next hstate => exact .dropped h hstate
  · refine .published h (fun heq => ?_) (healthOf_healthEvent _ _ _ _ _ _)
    exact not_eq_true _ ▸ fun hrest => hstays ⟨heq, hrest⟩

/-! ## Reconciled markets -/

/-- The published health of a market is the derived one, or its recovery is scheduled. -/
def Reconciled (s : ClobLocalBooks) (m : String) : Prop :=
  match s.desiredHealthState m with
  | none => s.pendingHealthRecoveries.lookup m = none
  | some state =>
    (s.healthStates.lookup m = some state ∧ s.pendingHealthRecoveries.lookup m = none) ∨
    (state = .healthy ∧ Restrictive (s.healthStates.lookup m) = true ∧
      (s.pendingHealthRecoveries.lookup m).isSome)

/-- Only seeded conditions have a recovery. -/
def SeededRecoveries (s : ClobLocalBooks) : Prop :=
  ∀ m, (s.pendingHealthRecoveries.lookup m).isSome → s.conditionIsSeeded m = true

lemma Reconciled.of_desired (hdes : s.desiredHealthState m = some state)
    (h : (s.healthStates.lookup m = some state ∧ s.pendingHealthRecoveries.lookup m = none) ∨
      (state = .healthy ∧ Restrictive (s.healthStates.lookup m) = true ∧
        (s.pendingHealthRecoveries.lookup m).isSome)) : Reconciled s m := by
  unfold Reconciled
  rwa [hdes]

lemma Reconciled.congr (h : Reconciled s m)
    (hdes : s'.desiredHealthState m = s.desiredHealthState m)
    (hstates : s'.healthStates.lookup m = s.healthStates.lookup m)
    (hrec : s'.pendingHealthRecoveries.lookup m = s.pendingHealthRecoveries.lookup m) :
    Reconciled s' m := by
  unfold Reconciled at h ⊢
  rwa [hdes, hstates, hrec]

lemma SeededRecoveries.none_of_unseeded (h : SeededRecoveries s)
    (hdes : s.desiredHealthState m = none) : s.pendingHealthRecoveries.lookup m = none := by
  by_contra hsome
  have hseeded := h m (isSome_iff_ne_none.2 hsome)
  rw [desiredHealthState_unseeded.1 hdes] at hseeded
  cases hseeded

namespace HealthMove

variable {key reason : String} {time : ℕ} {out : ClobLocalBooks × Option MarketEvent}

variable (h : HealthMove s key reason time out)
include h

/-- The market is reconciled. -/
lemma settles (hseeded : SeededRecoveries s) : Reconciled out.1 key := by
  -- the derived health does not depend on what is published
  cases h with
  | unseeded h =>
    unfold Reconciled
    rw [h]
    exact hseeded.none_of_unseeded h
  | unchanged h hstate hrcv => exact .of_desired h (.inl ⟨hstate, hrcv⟩)
  | waiting h hstate hrcv => exact .of_desired h (.inr ⟨rfl, hstate, hrcv⟩)
  | scheduled h hstate =>
    exact .of_desired h (.inr ⟨rfl, hstate, by rw [lookup_insert]; rfl⟩)
  | dropped h hstate => exact .of_desired h (.inl ⟨hstate, lookup_erase _ _⟩)
  | published h hstate hev =>
    exact .of_desired h (.inl ⟨lookup_insert _, lookup_erase _ _⟩)

/-- Other markets are left as they are. -/
lemma lookup_other (hm : m ≠ key) : out.1.healthStates.lookup m = s.healthStates.lookup m ∧
      out.1.pendingHealthRecoveries.lookup m = s.pendingHealthRecoveries.lookup m := by
  cases h with
  | unseeded | unchanged | waiting => exact ⟨rfl, rfl⟩
  | scheduled => exact ⟨rfl, lookup_insert_ne hm⟩
  | dropped => exact ⟨rfl, lookup_erase_ne hm⟩
  | published => exact ⟨lookup_insert_ne hm, lookup_erase_ne hm⟩

/-- A recovery was there before or starts with the reconciliation of a seeded condition. -/
lemma recovery (hpend : out.1.pendingHealthRecoveries.lookup m = some pending) :
    s.pendingHealthRecoveries.lookup m = some pending ∨
      (pending.dueAt = time + clobHealthRecoveryStableInterval ∧
        s.conditionIsSeeded m = true) := by
  by_cases hm : m = key
  · subst hm
    cases h with
    | unseeded | unchanged | waiting => exact .inl hpend
    | scheduled h =>
      rw [lookup_insert] at hpend
      cases hpend
      exact .inr ⟨rfl, conditionIsSeeded_of_desired h⟩
    | dropped | published =>
      rw [lookup_erase] at hpend
      cases hpend
  · exact .inl ((h.lookup_other hm).2 ▸ hpend)

end HealthMove

/-- One turn of the timer. -/
lemma flushHealthRecovery_cases {key : String}
    (hpend : s.pendingHealthRecoveries.lookup key = some pending) :
    let out := flushHealthRecovery now (s, batch) key
    (s.desiredHealthState key = some .healthy ∧ Restrictive (s.healthStates.lookup key) = true ∧
      ∃ event, (∀ m, healthOf m event = if key = m then some .healthy else none) ∧
        out = ({ s with
          pendingHealthRecoveries := s.pendingHealthRecoveries.erase key
          healthStates := s.healthStates.insert key .healthy }, batch ++ [event])) ∨
    (¬ (s.desiredHealthState key = some .healthy ∧ Restrictive (s.healthStates.lookup key) = true) ∧
      out =
        ({ s with pendingHealthRecoveries := s.pendingHealthRecoveries.erase key }, batch)) := by
  unfold flushHealthRecovery
  simp only [hpend]
  split
  · next h => exact .inl ⟨h.1, h.2, _, healthOf_healthEvent _ _ _ _ _ _, rfl⟩
  · next h => exact .inr ⟨h, rfl⟩

/-! ## Updates -/

/-- Updates that do not publish health. -/
def Label.Quiet : Label → Prop
  | .reconcile _ _ | .recover _ _ | .deliver => False
  | _ => True

lemma filterMap_eraseP {α β : Type} {f : α → Option β} {p : α → Bool}
    (h : ∀ a, p a = true → f a = none) {l : List α} : (l.eraseP p).filterMap f = l.filterMap f := by
  induction l with
  | nil => rfl
  | cons a l ih =>
    rw [eraseP_cons]
    cases hp : p a with
    | true => simp [h a hp]
    | false => simp [filterMap_cons, ih]

lemma healthLog_push_book {book : OrderBookSnapshot} :
    healthLog m (pushLatestOrderBook batch (.orderBook book)) = healthLog m batch := by
  have herase : healthLog m (batch.eraseP (·.isBookOf book.symbol)) = healthLog m batch := by
    refine filterMap_eraseP (fun event hev => ?_)
    cases event with
    | orderBook => rfl
    | quote | marketDataHealth => cases hev
  simp only [pushLatestOrderBook, healthLog_append, herase]
  simp [healthLog, healthOf]

lemma Update.quiet (h : Update c label c') (hq : label.Quiet) :
    c'.books.healthStates = c.books.healthStates ∧
      c'.books.pendingHealthRecoveries = c.books.pendingHealthRecoveries ∧ c'.past = c.past ∧
      ∀ m, healthLog m c'.batch = healthLog m c.batch := by
  cases h with
  | emit _ _ _ _ h =>
    obtain ⟨-, -, book, -, -, ⟨-, rfl, rfl⟩ | ⟨role, -, -, rfl, rfl⟩⟩ := canonicalizeToken_some h
    · exact ⟨rfl, rfl, rfl, fun _ => healthLog_push_book⟩
    · exact ⟨rfl, rfl, rfl, fun _ => healthLog_push_book⟩
  | @replay s past batch token event _ h =>
    obtain ⟨book, rfl⟩ : ∃ book, event = .orderBook book := by
      unfold canonicalSnapshotForToken at h
      split at h
      · cases h
      · split at h
        · cases h
        · obtain ⟨book, -, rfl⟩ := map_eq_some_iff.1 h
          exact ⟨book, rfl⟩
    exact ⟨rfl, rfl, rfl, fun _ => by simp [healthLog, healthOf]⟩
  | quote _ _ batch => exact ⟨rfl, rfl, rfl, fun _ => by simp [healthLog, healthOf]⟩
  | sequence | ticks | dirty | change | accept | expect | resolve | settle | quarantine
  | fail => exact ⟨rfl, rfl, rfl, fun _ => rfl⟩
  | reconcile | recover | deliver => exact hq.elim

lemma SeededRecoveries.update (hu : Update c label c')
    (h : SeededRecoveries c.books) : SeededRecoveries c'.books := by
  intro m hsome
  refine hu.conditionIsSeeded ?_
  by_cases hq : label.Quiet
  · rw [(hu.quiet hq).2.1] at hsome
    exact h m hsome
  obtain ⟨pending, hpend⟩ := isSome_iff_exists.1 hsome
  cases hu with
  | reconcile s _ _ token reason time now =>
    rcases (reconcileHealth_move s token reason time now).recovery hpend with
      hpend | ⟨-, hseeded⟩
    · exact h m (by rw [hpend]; rfl)
    · exact hseeded
  | recover s _ batch key now =>
    exact h m (by rw [lookup_flushHealthRecovery hpend]; rfl)
  | deliver => exact h m hsome
  | sequence | ticks | quote | dirty | change | accept | expect | resolve | settle | quarantine
  | fail | emit | replay => exact absurd trivial hq

/-- A reconciled market stays reconciled when none of its tokens is touched. -/
lemma Reconciled.update (hu : Update c label c') (hseeded : SeededRecoveries c.books)
    (hm : ∀ token ∈ label.touched, c.books.marketKey token ≠ m) (h : Reconciled c.books m) :
    Reconciled c'.books m := by
  have hdes := (hu.sameTokens hm).desiredHealthState
  by_cases hq : label.Quiet
  · obtain ⟨hstates, hrec, -, -⟩ := hu.quiet hq
    exact h.congr hdes (by rw [hstates]) (by rw [hrec])
  cases hu with
  | reconcile s _ _ token reason time now =>
    have hmove := reconcileHealth_move s token reason time now
    by_cases hkey : m = s.marketKey token
    · subst hkey
      exact hmove.settles hseeded
    · obtain ⟨hstates, hrec⟩ := hmove.lookup_other hkey
      exact h.congr hdes hstates hrec
  | recover s _ batch key now hpend =>
    by_cases hkey : m = key
    · subst hkey
      rcases flushHealthRecovery_cases now hpend with
        ⟨hhealthy, -, event, -, heq⟩ | ⟨hnot, -⟩
      · dsimp only
        rw [heq]
        exact .of_desired hhealthy (.inl ⟨lookup_insert _, lookup_erase _ _⟩)
      · -- a scheduled recovery of a reconciled market is not dropped
        exfalso
        dsimp only [Reconciled] at h
        split at h
        · rw [hpend] at h
          cases h
        next state hstate =>
        rcases h with ⟨-, hnone⟩ | ⟨rfl, hrest, -⟩
        · rw [hpend] at hnone
          cases hnone
        · exact hnot ⟨hstate, hrest⟩
    · rcases flushHealthRecovery_cases now hpend with
        ⟨-, -, event, -, heq⟩ | ⟨-, heq⟩
      · dsimp only at hdes ⊢
        rw [heq] at hdes ⊢
        exact h.congr hdes (lookup_insert_ne hkey) (lookup_erase_ne hkey)
      · dsimp only at hdes ⊢
        rw [heq] at hdes ⊢
        exact h.congr hdes rfl (lookup_erase_ne hkey)
  | deliver => exact h
  | sequence | ticks | quote | dirty | change | accept | expect | resolve | settle | quarantine
  | fail | emit | replay => exact absurd trivial hq

/-! ## Calls -/

/-- Every market is reconciled, except those of some tokens. -/
structure ReconciledExcept (tokens : List String) (s : ClobLocalBooks) : Prop where
  seeded : SeededRecoveries s
  reconciled : ∀ m, (∀ token ∈ tokens, s.marketKey token ≠ m) → Reconciled s m

lemma ReconciledExcept.steps {Allowed : Label → Prop} (h : ReconciledExcept tokens c.books)
    (hsteps : Steps Allowed c c')
    (hall : ∀ label, Allowed label → ∀ token ∈ label.touched, token ∈ tokens) :
    ReconciledExcept tokens c'.books := by
  refine hsteps.invariant (P := fun c => ReconciledExcept tokens c.books)
    (fun c label c' hl hu hc => ?_) h
  refine ⟨hc.seeded.update hu, fun m hm => ?_⟩
  have hm' : ∀ token ∈ tokens, c.books.marketKey token ≠ m := fun token htok =>
    marketKey_congr hu.roles token ▸ hm token htok
  exact (hc.reconciled m hm').update hu hc.seeded fun token htok =>
    hm' token (hall label hl token htok)

/-- A reconciliation reconciles the market of its token. -/
lemma Update.reconciled_key {time : ℕ} (hu : Update c (.reconcile token time) c')
    (h : SeededRecoveries c.books) : Reconciled c'.books (c.books.marketKey token) := by
  cases hu with
  | reconcile s _ _ _ reason _ now =>
    exact (reconcileHealth_move s token reason time now).settles h

/-- All markets are reconciled after the one of the touched token is. -/
lemma ReconciledExcept.reconcile {time : ℕ}
    (h : ReconciledExcept [token] c.books) (hu : Update c (.reconcile token time) c') :
    ReconciledExcept [] c'.books := by
  refine ⟨h.seeded.update hu, fun m _ => ?_⟩
  by_cases hm : c.books.marketKey token = m
  · exact hm ▸ hu.reconciled_key h.seeded
  · exact (h.reconciled m (forall_mem_singleton.2 hm)).update hu h.seeded
      fun _ htok => nomatch htok

lemma ReconciledExcept.weaken (h : ReconciledExcept [] s) : ReconciledExcept tokens s :=
  ⟨h.seeded, fun m _ => h.reconciled m nofun⟩

/-- Interned identities tell conditions apart. -/
def IdentitiesOk (roles : AList fun _ : String => ClobCanonicalRole) : Prop :=
  ∀ a b role role' identity, roles.lookup a = some role → roles.lookup b = some role' →
    role.conditionIdentity = some identity → role'.conditionIdentity = some identity →
    role.conditionId = role'.conditionId

/-- Tokens that a frame takes to be of the same market are of the same market. -/
lemma marketKey_of_sameMarket (hroles : IdentitiesOk s.roles) {scratch : Scratch}
    (hscratch : ∀ token entry, scratch.lookup token = some entry →
      entry.conditionIdentity = (s.roles.lookup token).bind (·.conditionIdentity))
    {a b : String} (h : s.sameMarket scratch a b = true) : s.marketKey a = s.marketKey b := by
  have hidentity : ∀ token identity,
      (scratch.lookup token).bind (·.conditionIdentity) = some identity →
      ∃ role, s.roles.lookup token = some role ∧ role.conditionIdentity = some identity := by
    intro token identity hbind
    obtain ⟨entry, hent, heq⟩ := bind_eq_some_iff.1 hbind
    rw [hscratch token entry hent] at heq
    exact bind_eq_some_iff.1 heq
  unfold sameMarket at h
  split at h
  · next x y hx hy =>
    obtain rfl : x = y := of_decide_eq_true h
    obtain ⟨role, hrole, hi⟩ := hidentity a x hx
    obtain ⟨role', hrole', hi'⟩ := hidentity b x hy
    simp only [marketKey, hrole, hrole']
    exact hroles a b role role' x hrole hrole' hi hi'
  · exact of_decide_eq_true h

/-- The last phase of a frame reconciles the markets of all touched tokens. -/
lemma ReconciledExcept.reconcileTokens (scratch : Scratch) {recvAt now : ℕ} :
    ∀ (touched : List String) (acc : ClobLocalBooks × List MarketEvent × List String),
      IdentitiesOk acc.1.roles →
      (∀ token entry, scratch.lookup token = some entry →
        entry.conditionIdentity = (acc.1.roles.lookup token).bind (·.conditionIdentity)) →
      (∀ token ∈ acc.2.2, Reconciled acc.1 (acc.1.marketKey token)) →
      ReconciledExcept touched acc.1 →
      ReconciledExcept []
        (touched.foldl (reconcileToken scratch recvAt now) acc).1 := by
  intro touched
  induction touched with
  | nil => exact fun _ _ _ _ h => h
  | cons token touched ih =>
    intro acc hroles hscratch hdone h
    obtain ⟨out, heq, ⟨rfl, prior, hmem, hsame⟩ | ⟨hlist, hu⟩⟩ :=
      reconcileToken_cases scratch [] recvAt now acc token
    · -- a token of the same market was reconciled before
      rw [foldl_cons, heq]
      have hkey := marketKey_of_sameMarket hroles hscratch hsame
      refine ih out hroles hscratch hdone ⟨h.seeded, fun m hm => ?_⟩
      by_cases htok : out.1.marketKey token = m
      · exact htok ▸ hkey ▸ hdone prior hmem
      · exact h.reconciled m (forall_mem_cons.2 ⟨htok, hm⟩)
    · rw [foldl_cons, heq]
      have hsame : out.1.roles = acc.1.roles := hu.roles
      have hkeys := marketKey_congr hsame
      refine ih out (hsame ▸ hroles) (hsame ▸ hscratch) ?_ ⟨h.seeded.update hu, ?_⟩
      · intro prior hprior
        rw [hkeys]
        rw [hlist] at hprior
        rcases mem_append.1 hprior with hprior | hprior
        · exact (hdone prior hprior).update hu h.seeded nofun
        · cases mem_singleton.1 hprior
          exact hu.reconciled_key h.seeded
      · intro m hm
        by_cases htok : acc.1.marketKey token = m
        · exact htok ▸ hu.reconciled_key h.seeded
        · refine (h.reconciled m (forall_mem_cons.2 ⟨htok, fun t ht => ?_⟩)).update hu
            h.seeded nofun
          exact hkeys t ▸ hm t ht

/-- The checks whose time is over. -/
lemma ReconciledExcept.deferred (localNow : ℕ) (activeTokens tokens : List String)
    {acc : ClobLocalBooks × ClobDeferredBatch} (h : ReconciledExcept [] acc.1) :
    ReconciledExcept [] (tokens.foldl (deferredToken now localNow activeTokens) acc).1 := by
  refine foldlRecOn (motive := fun acc : ClobLocalBooks × _ => ReconciledExcept [] acc.1) tokens _ h
    fun acc h token _ => ?_
  obtain ⟨c, hsteps, hlast⟩ := steps_deferredToken [] now localNow activeTokens acc token
  have hfinal : ReconciledExcept [token] c.books := by
    refine ReconciledExcept.steps (c := ⟨acc.1, [], acc.2.events⟩) h.weaken hsteps ?_
    rintro label (rfl | rfl | rfl | rfl) t ht <;> simp_all [touched]
  exact hfinal.reconcile hlast

/-- All markets are reconciled after every call. -/
lemma reconciled_call (hbound : PendingBound s) (hroles : IdentitiesOk s.roles)
    (h : ReconciledExcept [] s) (call : Call) : ReconciledExcept [] (s.call lib call).1 := by
  have hc : ReconciledExcept [] (⟨s, [], []⟩ : Config).books := h
  cases call with
  | book fields recvAt localNow source =>
    simp only [call]
    generalize hout : s.applyBook lib fields recvAt localNow source = out
    rcases steps_applyBook hout with
      ⟨events, c₁, c₂, hres, hacc, hpub, hlast⟩ | ⟨hres, hsteps⟩
    · have h₁ : ReconciledExcept [fields.assetId] c₁.books := by
        refine hc.weaken.steps hacc ?_
        rintro label (rfl | rfl) t ht <;> simp_all [touched]
      have h₂ : ReconciledExcept [fields.assetId] c₂.books := by
        refine h₁.steps hpub ?_
        rintro label (rfl | rfl) t ht <;> cases ht
      exact h₂.reconcile hlast
    · refine hc.steps hsteps ?_
      rintro label rfl t ht
      cases ht
  | priceChange fields recvAt localNow =>
    simp only [call]
    rcases applyPriceChange_cases hbound rfl with
      ⟨validated, released, quotes, books, hphases, heq⟩ | ⟨updates, hupd, heq⟩ <;> rw [heq.1]
    · generalize (frameChanges lib s fields recvAt localNow).2 = scratch at hphases ⊢
      have hchanged := hc.steps hphases.change (by
        rintro label (rfl | ⟨token, rfl⟩) t ht <;> cases ht)
      -- validation and release touch tokens that the last phase reconciles
      have hval : ReconciledExcept (validated.touchedOrder scratch) validated := by
        refine hchanged.weaken.steps hphases.validate ?_
        rintro label ⟨token, htok, rfl | rfl⟩ t ht
        · cases ht
        · obtain rfl : token = t := by simpa [touched] using ht
          -- a validated token is touched
          obtain ⟨entry, hent, hrep⟩ := mem_validationOrder.1 htok
          obtain ⟨hpre, book, hbook, -⟩ := hphases.notes.reported token entry hent hrep
          refine mem_touchedOrder.2 ⟨entry, hent, hpre, ?_⟩
          rw [hphases.checks.same]
          exact isSome_iff_exists.2 ⟨book, hbook⟩
      have hrel : ReconciledExcept (validated.touchedOrder scratch) released := by
        refine ReconciledExcept.steps (c := ⟨validated, [], quotes⟩) hval hphases.release ?_
        rintro label ⟨token, htok, rfl | rfl | rfl⟩ t ht
        · cases ht
        · obtain rfl : token = t := by simpa [touched] using ht
          exact htok
        · cases ht
      have hsame : released.roles = s.roles :=
        (hphases.release.roles.trans hphases.validate.roles).trans hphases.change.roles
      refine ReconciledExcept.reconcileTokens scratch _ (released, books, []) ?_ ?_
        (forall_mem_nil _) hrel
      · exact hsame ▸ hroles
      · rw [hsame]
        exact hphases.notes.identity
    · refine hc.steps (steps_quantityOnly hupd) ?_
      rintro label (rfl | ⟨update, -, rfl⟩) t ht <;> cases ht
  | flush now localNow =>
    refine hc.steps (steps_flushDue s [] now localNow) ?_
    rintro label ⟨token, rfl | rfl⟩ t ht <;> cases ht
  | flushDeferred now localNow activeTokens =>
    have hchecks := @ReconciledExcept.deferred now localNow activeTokens (s.dueChecks now) (s, {}) h
    simp only [call, flushDeferredDue]
    generalize (s.dueChecks now).foldl (deferredToken now localNow activeTokens) (s, {}) = checked
      at hchecks ⊢
    refine ReconciledExcept.steps (c := ⟨checked.1, [], []⟩) hchecks
      (steps_flushHealthRecoveriesDue checked.1 [] [] now localNow) ?_
    rintro label ⟨key, rfl⟩ t ht
    cases ht
  | tickSize change recvAt localNow =>
    refine hc.steps (steps_tickSize s [] []) ?_
    rintro label rfl t ht
    cases ht
  | repairFailed t reason observedAt localNow =>
    have hfail : ReconciledExcept [t] { s with degradedTokens := insert t s.degradedTokens } := by
      have hstep : Steps (· = .fail t) ⟨s, [], []⟩ _ := .of_update (.fail s [] [] t) rfl
      refine hc.weaken.steps hstep ?_
      rintro label rfl u hu
      simp_all [touched]
    simp only [call, markRepairFailed]
    generalize { s with degradedTokens := insert t s.degradedTokens } = failed at hfail ⊢
    exact ReconciledExcept.reconcile (c := ⟨failed, [], []⟩) hfail
      (.reconcile failed [] [] t reason observedAt localNow)

end HexAgent.LocalBooks
