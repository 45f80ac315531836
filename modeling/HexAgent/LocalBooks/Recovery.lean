import HexAgent.LocalBooks.Withheld

/-!
# Recoveries wait for the stable interval

A return to `healthy` is published by the timer only, for a recovery that is due. A recovery is due
one stable interval after the call that scheduled it (`Recovering`), and it is dropped by the first
call after which the condition is not clean. So the condition was clean after every call of the
interval (`RunOk`).

## Main statements

* `Recovering.update`: one update
* `RunOk.call`: one call
* `health_not_overstated`: runs
-/

namespace HexAgent.LocalBooks

open ClobLocalBooks List AList Option

variable {lib : DecimalLib} {s s' : ClobLocalBooks} {past batch : List MarketEvent}
  {m token : String} {identities : Identities}

/-! ## Identities of conditions -/

/-- The interned identities and the roles that carry them. -/
structure Interned (identities : Identities)
    (roles : AList fun _ : String => ClobCanonicalRole) : Prop where
  bound : ∀ c i, identities.lookup c = some (some i) → i < identities.entries.length
  injective : ∀ c c' i, identities.lookup c = some (some i) → identities.lookup c' = some (some i) →
    c = c'
  roles : ∀ token role i, roles.lookup token = some role → role.conditionIdentity = some i →
    identities.lookup role.conditionId = some (some i)

variable {roles : AList fun _ : String => ClobCanonicalRole} {before : List Observed}

section

variable (h : Interned identities roles)
include h

lemma Interned.identitiesOk : IdentitiesOk roles := by
  intro a b role role' i ha hb hi hi'
  exact h.injective _ _ i (h.roles a role i ha hi) (h.roles b role' i hb hi')

lemma Interned.intern {condition : String}
    {out : Option ℕ × Identities} (hout : internClobConditionIdentity identities condition = out) :
    Interned out.2 roles ∧ out.2.lookup condition = some out.1 := by
  unfold internClobConditionIdentity at hout
  split at hout
  · next identity hget =>
    subst hout
    exact ⟨h, hget⟩
  next hget =>
  subst hout
  refine ⟨?_, lookup_insert _⟩
  have hfresh : condition ∉ identities := lookup_eq_none.1 hget
  generalize hnext : (if identities.entries.length < 2 ^ 16 then
    some identities.entries.length else none : Option ℕ) = next
  have hsize : ∀ i, next = some i → i = identities.entries.length := by
    intro i hi
    split at hnext <;> simp_all
  constructor
  case bound =>
    intro c i hc
    rw [lookup_insert_eq_ite] at hc
    rw [entries_insert_of_notMem hfresh, length_cons]
    split at hc
    · exact Nat.lt_succ_of_le (hsize i (some.inj hc)).le
    · exact Nat.lt_succ_of_lt (h.bound c i hc)
  case injective =>
    -- a new identity is above all earlier ones
    intro c c' i hc hc'
    rw [lookup_insert_eq_ite] at hc hc'
    split at hc
    · next heq =>
      split at hc'
      · next heq' => exact heq.trans heq'.symm
      · have hlt := h.bound c' i hc'
        rw [hsize i (some.inj hc)] at hlt
        exact absurd hlt (lt_irrefl _)
    · split at hc'
      · have hlt := h.bound c i hc
        rw [hsize i (some.inj hc')] at hlt
        exact absurd hlt (lt_irrefl _)
      · exact h.injective c c' i hc hc'
  case roles =>
    intro token role i hrole hi
    have hold := h.roles token role i hrole hi
    rw [lookup_insert_ne, hold]
    rintro heq
    rw [heq, hget] at hold
    cases hold

lemma Interned.role {role : ClobCanonicalRole}
    (hrole : identities.lookup role.conditionId = some role.conditionIdentity) (token : String) :
    Interned identities (roles.insert token role) := by
  refine { h with roles := fun t other i hne hi => ?_ }
  rw [lookup_insert_eq_ite] at hne
  split at hne
  · cases hne
    rw [hrole, hi]
  · exact h.roles t other i hne hi

end

lemma identitiesOk_new (specs : List CanonicalEventSpec) : IdentitiesOk (new specs).roles := by
  refine Interned.identitiesOk (foldlRecOn (motive := fun acc : Identities × ClobLocalBooks =>
    Interned acc.1 acc.2.roles) specs addSpec ⟨by simp, by simp, by simp⟩ fun acc h spec _ => ?_)
  obtain ⟨hint, hget⟩ := h.intern rfl
  exact (hint.role hget _).role hget _

/-! ## Updates -/

/-- What the updates of a call at `time` know of the published health and of the recoveries, given
the recoveries before the call. -/
structure Recovering (start : AList fun _ : String => PendingHealthRecovery) (time : ℕ)
    (c : Config) : Prop where
  published : ∀ m, c.books.healthStates.lookup m = (healthLog m (c.past ++ c.batch)).getLast?
  recoveries : ∀ m pending, c.books.pendingHealthRecoveries.lookup m = some pending →
    start.lookup m = some pending ∨
      pending.dueAt = time + clobHealthRecoveryStableInterval
  /-- A return to `healthy` comes from a recovery that was due. -/
  due : ∀ m before after, healthLog m c.batch = before ++ .healthy :: after →
    Restrictive (healthLog m c.past ++ before).getLast? = true →
    ∃ pending, start.lookup m = some pending ∧ pending.dueAt ≤ time

namespace Recovering

variable {start : AList fun _ : String => PendingHealthRecovery} {time : ℕ}

/-- Publication of a state. -/
lemma push (h : Recovering start time ⟨s, past, batch⟩) {key : String}
    {state : MarketDataHealthState} {event : MarketEvent}
    (hev : ∀ m, healthOf m event = if key = m then some state else none)
    (hdue : state = .healthy → Restrictive (s.healthStates.lookup key) = true →
      ∃ pending, start.lookup key = some pending ∧ pending.dueAt ≤ time) :
    Recovering start time ⟨{ s with
      pendingHealthRecoveries := s.pendingHealthRecoveries.erase key
      healthStates := s.healthStates.insert key state }, past, batch ++ [event]⟩ := by
  have hlog : ∀ m, healthLog m [event] = if key = m then [state] else [] := by
    intro m
    have hm := hev m
    split at hm <;> simp_all [healthLog]
  constructor
  case published =>
    intro m
    have hpubl := h.published m
    rw [lookup_insert_eq_ite, ← append_assoc, healthLog_append, hlog]
    by_cases hm : m = key
    · subst hm
      simp
    · rw [if_neg hm, if_neg (Ne.symm hm), append_nil, hpubl]
  case recoveries =>
    exact fun m pending hpend => h.recoveries m pending (lookup_of_erase hpend)
  case due =>
    intro m before after hbatch hrest
    rw [healthLog_append, hlog] at hbatch
    split at hbatch
    · next hm =>
      subst hm
      rcases eq_nil_or_concat' after with rfl | ⟨after, last, rfl⟩
      · -- the new event is the one in question
        obtain ⟨rfl, hstate⟩ := append_inj' hbatch rfl
        refine hdue (head_eq_of_cons_eq hstate) ?_
        have hpubl := h.published key
        rw [hpubl, healthLog_append]
        exact hrest
      · rw [← cons_append, ← append_assoc] at hbatch
        exact h.due key before after (append_inj' hbatch rfl).1 hrest
    · rw [append_nil] at hbatch
      exact h.due m before after hbatch hrest

/-- One update of a call keeps the invariant. -/
lemma update {c c' : Config} {label : Label} (hu : Update c label c') (hat : label.At time)
    (h : Recovering start time c) : Recovering start time c' := by
  by_cases hq : label.Quiet
  · obtain ⟨hstates, hrec, hpast, hlog⟩ := hu.quiet hq
    constructor
    case published =>
      intro m
      rw [hstates, hpast, healthLog_append, hlog, ← healthLog_append]
      exact h.published m
    case recoveries =>
      rw [hrec]
      exact h.recoveries
    case due =>
      intro m before after hbatch hrest
      rw [hlog] at hbatch
      rw [hpast] at hrest
      exact h.due m before after hbatch hrest
  · cases hu with
    | reconcile s past batch token reason t localNow =>
      obtain rfl : t = time := hat
      have hmove := reconcileHealth_move s token reason t localNow
      generalize s.reconcileHealth token reason t localNow = out at hmove ⊢
      have hrec : ∀ m pending, out.1.pendingHealthRecoveries.lookup m = some pending →
          start.lookup m = some pending ∨
            pending.dueAt = t + clobHealthRecoveryStableInterval := by
        intro m pending hpend
        rcases hmove.recovery hpend with hold | ⟨hnew, -⟩
        · exact h.recoveries m pending hold
        · exact .inr hnew
      cases hmove with
      | unseeded | unchanged | waiting | scheduled | dropped =>
        exact ⟨h.published, hrec, h.due⟩
      | published hdes hstate hev =>
        refine h.push hev fun hhealthy hrest => ?_
        rw [hstate hhealthy] at hrest
        cases hrest
    | @recover s past batch key now localNow pending hpend hdue =>
      obtain rfl : now = time := hat
      have hstart : ∃ pending, start.lookup key = some pending ∧ pending.dueAt ≤ now := by
        rcases h.recoveries key pending hpend with hold | hnew
        · exact ⟨pending, hold, hdue⟩
        · -- a recovery of this call is not due yet
          rw [hnew] at hdue
          exact absurd hdue (by simp [clobHealthRecoveryStableInterval])
      rcases flushHealthRecovery_cases localNow hpend with
        ⟨-, -, event, hev, heq⟩ | ⟨-, heq⟩
      · rw [heq]
        exact h.push hev fun _ _ => hstart
      have hrec : ∀ m pending,
          (flushHealthRecovery localNow (s, batch) key).1.pendingHealthRecoveries.lookup m =
            some pending → s.pendingHealthRecoveries.lookup m = some pending :=
        fun m pending hm => lookup_flushHealthRecovery hm
      rw [heq] at hrec ⊢
      exact ⟨h.published, fun m pending hm => h.recoveries m pending (hrec m pending hm), h.due⟩
    | deliver => exact hat.elim
    | sequence | ticks | quote | dirty | change | accept | expect | resolve | settle | quarantine
    | fail | emit | replay => exact absurd trivial hq

/-- The whole call. -/
lemma call (hbound : PendingBound s) (call : Call)
    (hpubl : ∀ m, s.healthStates.lookup m = (healthLog m past).getLast?) :
    Recovering s.pendingHealthRecoveries call.time
      ⟨(s.call lib call).1, past, (s.call lib call).2⟩ := by
  refine (@steps_call lib s hbound call past).invariant (fun _ _ _ hl hu hc => hc.update hu hl) ?_
  refine ⟨fun m => ?_, fun m pending hpend => .inl hpend, fun m before after hbatch => ?_⟩
  · rw [append_nil]
    exact hpubl m
  · simp [healthLog] at hbatch

end Recovering

/-! ## Runs -/

/-- What holds between two calls, after the observations `before`. -/
structure RunOk (before : List Observed) (s : ClobLocalBooks) : Prop where
  bound : PendingBound s
  identities : IdentitiesOk s.roles
  reconciled : ReconciledExcept [] s
  published : ∀ m, s.healthStates.lookup m = (healthLog m (published before)).getLast?
  /-- A recovery was scheduled by a call since which the condition is clean. -/
  scheduled : ∀ m pending, s.pendingHealthRecoveries.lookup m = some pending →
    ∃ earlier o later, before = earlier ++ o :: later ∧
      pending.dueAt = o.call.time + clobHealthRecoveryStableInterval ∧
      ∀ x ∈ o :: later, Clean x.post m

lemma RunOk.call (h : RunOk before s) (call : Call) :
    RunOk (before ++ [s.observed lib call]) (s.call lib call).1 := by
  have hsteps := @steps_call lib s h.bound call (LocalBooks.published before)
  have hrecovering := @Recovering.call lib s _ h.bound call h.published
  have hrec := @reconciled_call lib s h.bound h.identities h.reconciled call
  constructor
  case bound => exact hsteps.pendingBound h.bound
  case identities =>
    have hroles : (s.call lib call).1.roles = s.roles := hsteps.roles
    exact hroles ▸ h.identities
  case reconciled => exact hrec
  case published =>
    intro m
    rw [hrecovering.published m]
    simp [LocalBooks.published, observed]
  case scheduled =>
    intro m pending hpend
    have hclean : Clean (s.call lib call).1 m := by
      have hm := hrec.reconciled m (forall_mem_nil _)
      unfold Reconciled at hm
      split at hm
      · rw [hpend] at hm
        cases hm
      next state hstate =>
      rcases hm with ⟨-, hnone⟩ | ⟨rfl, -, -⟩
      · rw [hpend] at hnone
        cases hnone
      · exact clean_of_desiredHealthState hstate
    rcases hrecovering.recoveries m pending hpend with hold | hnew
    · obtain ⟨earlier, o, later, rfl, hdue, hlater⟩ := h.scheduled m pending hold
      refine ⟨earlier, o, later ++ [s.observed lib call], by simp, hdue, fun x hx => ?_⟩
      rw [← cons_append] at hx
      rcases mem_append.1 hx with hx | hx
      · exact hlater x hx
      · cases mem_singleton.1 hx
        exact hclean
    · refine ⟨before, s.observed lib call, [], rfl, hnew, fun x hx => ?_⟩
      cases mem_singleton.1 hx
      exact hclean

lemma runOk_new {specs : List CanonicalEventSpec} : RunOk [] (new specs) := by
  have hidentities := identitiesOk_new specs
  have hbound := pendingBound_new specs
  obtain ⟨roles, ticks, books, heq⟩ := new_eq specs
  -- no token has a book, so no condition is seeded
  have huns : ∀ m, (new specs).desiredHealthState m = none := by
    intro m
    rw [desiredHealthState_unseeded, heq, conditionIsSeeded]
    generalize (filter _ _ : List _) = tokens
    cases tokens <;> simp
  refine ⟨hbound, hidentities, ⟨fun m hm => ?_, fun m _ => ?_⟩, fun m => ?_, fun m pending hm => ?_⟩
  · simp [heq] at hm
  · unfold Reconciled
    rw [huns, heq]
    simp
  · simp [heq, published, healthLog]
  · simp [heq] at hm

/-- Any point of a run. -/
lemma RunOk.of_observe {rest : List Observed} :
    ∀ {done : List Observed} {s : ClobLocalBooks} {calls : List Call}, RunOk done s →
      s.observe lib calls = before ++ rest →
      ∃ s' calls', rest = s'.observe lib calls' ∧ RunOk (done ++ before) s' := by
  induction before with
  | nil => exact fun {done s calls} h hrun => ⟨s, calls, hrun.symm, by simpa using h⟩
  | cons o before ih =>
    intro done s calls h hrun
    cases calls with
    | nil => cases hrun
    | cons call calls =>
      obtain ⟨rfl, htail⟩ : s.observed lib call = o ∧
          (s.call lib call).1.observe lib calls = before ++ rest := by
        simpa [observe] using hrun
      obtain ⟨s', calls', hrest, hok⟩ := ih (h.call call) htail
      exact ⟨s', calls', hrest, by simpa using hok⟩

/-- After each call, the last published health of a seeded condition is the one that its tokens call
for, or its recovery is scheduled. A return to `healthy` is published only if the condition was
clean after every call from one on that is at least the stable interval earlier. -/
theorem health_not_overstated (lib : DecimalLib) (specs : List CanonicalEventSpec)
    (calls : List Call) : let run := (new specs).observe lib calls
    (∀ before o after c, run = before ++ o :: after → o.post.conditionIsSeeded c = true →
      let last := (healthLog c (published (before ++ [o]))).getLast?
      (HasDegraded o.post c → last = some .degraded) ∧
      (¬ HasDegraded o.post c → HasQuarantined o.post c → last = some .repairing) ∧
      (¬ HasDegraded o.post c → ¬ HasQuarantined o.post c → HasPending o.post c →
        last = some .settling) ∧
      (Clean o.post c → last = some .healthy ∨
        (∃ state, last = some state ∧ state ≠ .healthy) ∧
          (o.post.pendingHealthRecoveries.lookup c).isSome)) ∧
    ∀ before o after c earlier later, run = before ++ o :: after →
      healthLog c o.events = earlier ++ .healthy :: later →
      (∃ state, (healthLog c (published before) ++ earlier).getLast? = some state ∧
        state ≠ .healthy) →
      ∃ old first between, before = old ++ first :: between ∧
        first.call.time + clobHealthRecoveryStableInterval ≤ o.call.time ∧
        ∀ x ∈ first :: between, Clean x.post c := by
  intro run
  have hpoint : ∀ before o after, run = before ++ o :: after → ∃ s call,
      o = s.observed lib call ∧ RunOk before s := by
    intro before o after hrun
    obtain ⟨s, calls', hrest, hok⟩ := RunOk.of_observe runOk_new hrun
    cases calls' with
    | nil => cases hrest
    | cons call calls' =>
      obtain ⟨rfl, -⟩ :
        o = s.observed lib call ∧ after = (s.call lib call).1.observe lib calls' := by
        simpa [observe] using hrest
      exact ⟨s, call, rfl, hok⟩
  refine ⟨?reconciled, ?recovered⟩
  case reconciled =>
    intro before o after c hrun hseeded last
    obtain ⟨s, call, rfl, hok⟩ := hpoint before o after hrun
    have hnext := @RunOk.call lib s before hok call
    have hlast : (s.observed lib call).post.healthStates.lookup c = last := hnext.published c
    have hm := hnext.reconciled.reconciled c (forall_mem_nil _)
    have hstate : ∀ state, (s.observed lib call).post.desiredHealthState c = some state →
        (last = some state ∨ state = .healthy ∧ Restrictive last = true ∧
          ((s.observed lib call).post.pendingHealthRecoveries.lookup c).isSome) := by
      intro state hdes
      unfold Reconciled at hm
      rw [show (s.call lib call).1.desiredHealthState c = some state from hdes] at hm
      rw [← hlast]
      exact hm.imp_left And.left
    have hunh : ∀ state, state ≠ .healthy →
        (s.observed lib call).post.desiredHealthState c = some state → last = some state := by
      intro state hne hdes
      exact (hstate state hdes).resolve_right fun hhealthy => hne hhealthy.1
    refine ⟨fun hd => ?_, fun hd hq => ?_, fun hd hq hp => ?_, fun hclean => ?_⟩
    · exact hunh _ (by simp) (desiredHealthState_degraded hseeded hd)
    · exact hunh _ (by simp) (desiredHealthState_repairing hseeded hd hq)
    · exact hunh _ (by simp) (desiredHealthState_settling hseeded hd hq hp)
    · rcases hstate _ (desiredHealthState_clean hseeded hclean) with hhealthy | ⟨-, hrest, hsome⟩
      · exact .inl hhealthy
      · refine .inr ⟨?_, hsome⟩
        obtain ⟨state, hlast', hne⟩ := (any_eq_true _ _).1 hrest
        exact ⟨state, hlast', of_decide_eq_true hne⟩
  case recovered =>
    intro before o after c earlier later hrun hlog hrestrictive
    obtain ⟨s, call, rfl, hok⟩ := hpoint before o after hrun
    obtain ⟨state, hstate, hne⟩ := hrestrictive
    have hcall := @Recovering.call lib s _ hok.bound call hok.published
    obtain ⟨pending, hpend, hdue⟩ := hcall.due c earlier later hlog (by
      rw [hstate]
      exact decide_eq_true hne)
    obtain ⟨old, first, between, hsplit, htime, hclean⟩ := hok.scheduled c pending hpend
    exact ⟨old, first, between, hsplit, htime ▸ hdue, hclean⟩

/-- A report that disagrees, one that agrees, and the timer after the stable interval. -/
def LostCheck.recovering : List Call :=
  [full "up" "0.40" "0.60" 2000 1, full "down" "0.40" "0.60" 2000 2,
    frame (buy "0.42" (some "0.50") (some "0.60")) 2001 3,
    frame (buy "0.50" (some "0.50") (some "0.60")) 2002 4, .flushDeferred 500000004 5 []]

open LostCheck in
theorem recovered_after_interval :
    ∃ before o, (new specs).observe decimals recovering = before ++ [o] ∧
      healthLog "c" o.events = [.healthy] ∧
      ∃ old first between, before = old ++ first :: between ∧
        first.call.time + clobHealthRecoveryStableInterval ≤ o.call.time ∧
        ∀ x ∈ first :: between, Clean x.post "c" := by
  refine ⟨[_, _, _, _], _, rfl, by decide +kernel, ?_⟩
  exact (health_not_overstated decimals specs recovering).2 _ _ [] "c" [] [] rfl
    (by decide +kernel) ⟨.settling, by decide +kernel, by decide⟩

end HexAgent.LocalBooks
