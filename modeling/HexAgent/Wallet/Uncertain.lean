import HexAgent.ToMathlib.Trace
import HexAgent.Wallet.Submission

/-!
# Uncertain submissions of wallet batches

A post whose reply is lost, and one that meets a conflict of nonces, may have moved the funds of the
batch. The property is stated over the events of a run (`Careful`): every post carries the prepared
request and follows a reading of the clock below the cutoff, an uncertain post is followed by its
lookups before the next one, and no post follows a conflict, nor a rejection after an uncertain one.

A lookup takes the best record of the signer and the nonce from the relayer's list and then compares
wallet and calls. A record of the batch can be missed if another record of the same signer and nonce
ranks at least as high; a reply without such a record is searched in vain only if it has none of the
batch (`Unmatched`).

The proofs go through a monitor that reads the events. `Phase` is what it remembers and `Moves` are
its rules; a post is only possible in the phase `armed`. The loops follow the monitor
(`submitLoop_follows`, `registryLoop_follows`), and every clause of `Careful` is a fact about traces
of the monitor.

## Main statements

* `uncertain_submission_reconciled`: the events of a run, and the result of the inner loop
-/

namespace HexAgent.Wallet

open List Trace Event

variable {event : Event} {prior : Bool} {act action : Json}

/-! ## Classes of results -/

def IsConflict (result : Except SubmitError Json) : Prop :=
  ∃ e, result = .error e ∧ walletSubmissionConflict (toAsciiLowercase e.text) = true

/-- The batch may have been taken. -/
def IsUncertain (result : Except SubmitError Json) : Prop :=
  (∃ e, result = .error e ∧ isRetryableRelayerError e = true) ∨ IsConflict result

/-- The relayer has definitely refused this post. -/
def IsRejection (result : Except SubmitError Json) : Prop :=
  (∃ e, result = .error e) ∧ ¬ IsUncertain result

/-- A lookup that did not return an action. -/
def Missed (found : Except String (Option Json)) : Prop := ∀ action, found ≠ .ok (some action)

/-- An action has the signer, the nonce, the wallet and the calls of the batch. -/
def SameBatch (args : BatchArgs) (nonce : ℕ) (action : Json) : Prop :=
  actionMatchesSignerNonce action args.eoa nonce = true ∧
    actionMatchesWalletBatch action args.dw args.calls = true

/-- No record of the batch is in the relayer's reply, unless another record of the signer and the
nonce, of another wallet or with other calls, ranks at least as high. -/
def Unmatched (args : BatchArgs) (nonce : ℕ) (reply : Except String Json) : Prop :=
  ∀ actions, reply = .ok (.arr actions) → ∀ action ∈ actions,
    isRecordOf action args.eoa nonce = true → SameBatch args nonce action →
      ∃ other ∈ actions, isRecordOf other args.eoa nonce = true ∧ ¬ SameBatch args nonce other ∧
        walletActionRecoveryRank action ≤ walletActionRecoveryRank other

/-- A record of the batch in the relayer's reply. -/
def Recorded (args : BatchArgs) (nonce : ℕ) (reply : Except String Json) (action : Json) : Prop :=
  SameBatch args nonce action ∧ ∃ actions, reply = .ok (.arr actions) ∧ action ∈ actions

def Event.IsPost (event : Event) : Prop := ∃ request result, event = .post request result

/-- How a run treats its posts. -/
structure Careful (w : World) (args : BatchArgs) (intent : PreparedSubmission)
    (request : PostRequest) (cutoff : ℕ) (events : List Event) : Prop where
  /-- Signed body and nonce never change. -/
  same_request : ∀ r result, .post r result ∈ events → r = request
  prepared_first : ∀ before r result after,
    events = before ++ .post r result :: after → .prepared intent ∈ before
  before_cutoff : ∀ before r result after, events = before ++ .post r result :: after →
    ∃ earlier t, before = earlier ++ [.clock (.ok t)] ∧ t < cutoff
  /-- Between an uncertain post and the next one all its lookups have missed, and their replies hold
  no record of the batch that they could have taken. -/
  reconciled : ∀ before r result between r' result' after,
    events = before ++ .post r result :: (between ++ .post r' result' :: after) →
      IsUncertain result → ∃ (lookups : List (ℕ × Except String (Option Json))) (rest : List Event),
        between = lookups.map (fun lookup => .lookup lookup.1 lookup.2) ++ rest ∧
          lookups.length = walletPostReconcileAttempts ∧ ∀ lookup ∈ lookups,
            Missed lookup.2 ∧ Unmatched args request.nonce (w.transactions lookup.1)
  after_conflict : ∀ before r result after, events = before ++ .post r result :: after →
    IsConflict result → ∀ event ∈ after, ¬ event.IsPost
  after_rejection : ∀ before r result between r' result' after,
    events = before ++ .post r result :: (between ++ .post r' result' :: after) →
      IsUncertain result → IsRejection result' → ∀ event ∈ after, ¬ event.IsPost

/-- The inner loop returns a reply or an action of the batch, or an ambiguous error. -/
def Settled (request : PostRequest) (IsAction : ℕ → Json → Prop)
    (out : Outcome (Except SubmitError Json)) : Prop :=
  match out.result with
  | .ok json => .post request (.ok json) ∈ out.events ∨
      ∃ n, .lookup n (.ok (some json)) ∈ out.events ∧ IsAction n json
  | .error e => walletSubmitIsAmbiguous e = true

/-! ## The monitor -/

inductive Phase
  /-- No post so far was uncertain. -/
  | idle
  /-- The last event is a reading of the clock below the cutoff; `prior` tells whether an earlier
  post was uncertain. -/
  | armed (prior : Bool)
  /-- An uncertain post still needs `missing` lookups. -/
  | reconciling (missing : ℕ)
  /-- No more posts. -/
  | closed

/-- The phase between two attempts. -/
def Phase.ready (prior : Bool) : Phase := if prior then .reconciling 0 else .idle

inductive Moves (cutoff : ℕ) : Phase → Event → Phase → Prop
  | late (prior : Bool) (reading : Except String ℕ) :
      Moves cutoff (.ready prior) (.clock reading) (.ready prior)
  | arm (prior : Bool) {t : ℕ} (ht : t < cutoff) :
      Moves cutoff (.ready prior) (.clock (.ok t)) (.armed prior)
  | accepted (prior : Bool) (r : PostRequest) (json : Json) :
      Moves cutoff (.armed prior) (.post r (.ok json)) .closed
  | uncertain (prior : Bool) (r : PostRequest) {result : Except SubmitError Json}
      (hu : IsUncertain result) (hc : ¬ IsConflict result) :
      Moves cutoff (.armed prior) (.post r result) (.reconciling walletPostReconcileAttempts)
  | conflict (prior : Bool) (r : PostRequest) {result : Except SubmitError Json}
      (hc : IsConflict result) : Moves cutoff (.armed prior) (.post r result) .closed
  | rejected (prior : Bool) (r : PostRequest) {result : Except SubmitError Json}
      (hr : IsRejection result) :
      Moves cutoff (.armed prior) (.post r result) (if prior then .closed else .idle)
  | missed (k n : ℕ) {found : Except String (Option Json)} (hm : Missed found) :
      Moves cutoff (.reconciling (k + 1)) (.lookup n found) (.reconciling k)
  | found (k n : ℕ) (action : Json) :
      Moves cutoff (.reconciling (k + 1)) (.lookup n (.ok (some action))) .closed
  | rest {event : Event} (hp : ¬ event.IsPost) : Moves cutoff .closed event .closed

variable {cutoff : ℕ} {s s' : Phase} {events : List Event}

variable {r : PostRequest} {result : Except SubmitError Json} {after : List Event}

/-- A post needs an armed monitor. -/
lemma Moves.armed_of_post (h : Moves cutoff s (.post r result) s') : ∃ prior, s = .armed prior := by
  cases h with
  | accepted prior | uncertain prior | conflict prior | rejected prior => exact ⟨prior, rfl⟩
  | rest hp => exact absurd ⟨r, result, rfl⟩ hp

/-- Once a post was uncertain the monitor does not forget it. -/
def Phase.Alert : Phase → Prop
  | .idle | .armed false => False
  | .armed true | .reconciling _ | .closed => True

lemma Moves.alert (h : Moves cutoff s event s') (hs : s.Alert) : s'.Alert := by
  cases h with
  | late => exact hs
  | arm prior | rejected prior => cases prior with
    | false => exact hs.elim
    | true => trivial
  | accepted | uncertain | conflict | missed | found | rest => trivial

lemma Moves.reconciling_or_closed
    (h : Moves cutoff s (.post r result) s') (hu : IsUncertain result) :
    s' = .reconciling walletPostReconcileAttempts ∨ s' = .closed := by
  cases h with
  | accepted | conflict | rest => exact .inr rfl
  | uncertain => exact .inl rfl
  | rejected _ _ hr => exact absurd hu hr.2

lemma Moves.alert_of_uncertain
    (h : Moves cutoff s (.post r result) s') (hu : IsUncertain result) : s'.Alert := by
  obtain rfl | rfl := h.reconciling_or_closed hu <;> trivial

/-! ## Traces of the monitor -/

lemma no_post_of_closed (h : Trace (Moves cutoff) .closed events s) :
    ∀ event ∈ events, ¬ event.IsPost := by
  induction events with
  | nil => simp
  | cons event events ih =>
    obtain ⟨t, hm, ht⟩ := cons_iff.1 h
    generalize hc : Phase.closed = start at hm
    cases hm with
    | rest hp => exact forall_mem_cons.2 ⟨hp, ih ht⟩
    | late prior | arm prior => cases prior <;> cases hc
    | accepted | uncertain | conflict | rejected | missed | found => cases hc

lemma closed_trace (h : ∀ event ∈ events, ¬ event.IsPost) :
    Trace (Moves cutoff) .closed events .closed := by
  induction events with
  | nil => exact .nil _
  | cons event events ih =>
    have := forall_mem_cons.1 h
    exact .cons (.rest this.1) (ih this.2)

/-- A trace to an armed monitor ends with a reading below the cutoff. -/
lemma clock_of_trace_armed (h : Trace (Moves cutoff) .idle events (.armed prior)) :
    ∃ earlier t, events = earlier ++ [.clock (.ok t)] ∧ t < cutoff := by
  obtain rfl | ⟨earlier, event, rfl⟩ := events.eq_nil_or_concat'
  · cases h
  · obtain ⟨u, -, hlast⟩ := append_iff.1 h
    obtain ⟨v, hm, hv⟩ := cons_iff.1 hlast
    cases hv
    -- The monitor is armed by a reading below the cutoff only.
    generalize hs : Phase.armed prior = after at hm
    cases hm with
    | arm _ ht => exact ⟨earlier, _, rfl, ht⟩
    | late p => cases p <;> cases hs
    | rejected p => cases p <;> cases hs
    | accepted | uncertain | conflict | missed | found | rest => cases hs

/-- From `k` missing lookups to the next post there are `k` lookups without a result first. -/
lemma misses_of_trace :
    ∀ (k : ℕ) {between : List Event},
      Trace (Moves cutoff) (.reconciling k) (between ++ .post r result :: after) s →
      ∃ (lookups : List (ℕ × Except String (Option Json))) (rest : List Event),
        between = lookups.map (fun lookup => .lookup lookup.1 lookup.2) ++ rest ∧
          lookups.length = k ∧ ∀ lookup ∈ lookups, Missed lookup.2
  | 0, between, _ => ⟨[], between, rfl, rfl, by simp⟩
  | k + 1, between, h => by
    cases between with
    | nil =>
      -- the monitor is not armed, so the post cannot come first
      obtain ⟨t, hm, -⟩ := cons_iff.1 h
      obtain ⟨prior, hp⟩ := hm.armed_of_post
      cases hp
    | cons event between =>
      obtain ⟨t, hm, ht⟩ := cons_iff.1 h
      generalize hk : Phase.reconciling (k + 1) = start at hm
      cases hm with
      | @missed j n found hm =>
        cases hk
        obtain ⟨lookups, rest, rfl, rfl, hall⟩ := misses_of_trace k ht
        exact ⟨(n, found) :: lookups, rest, rfl, rfl, forall_mem_cons.2 ⟨hm, hall⟩⟩
      | found =>
        exact absurd ⟨r, result, rfl⟩ (no_post_of_closed ht (.post r result) (by simp))
      | late prior | arm prior => cases prior <;> cases hk
      | accepted | uncertain | conflict | rejected | rest => cases hk

/-- The trace around a post. -/
lemma trace_at_post {before : List Event}
    (h : Trace (Moves cutoff) s (before ++ .post r result :: after) s') :
    ∃ prior u, Trace (Moves cutoff) s before (.armed prior) ∧
      Moves cutoff (.armed prior) (.post r result) u ∧ Trace (Moves cutoff) u after s' := by
  obtain ⟨t, hpre, hrest⟩ := append_iff.1 h
  obtain ⟨u, hm, hpost⟩ := cons_iff.1 hrest
  obtain ⟨prior, rfl⟩ := hm.armed_of_post
  exact ⟨prior, u, hpre, hm, hpost⟩

lemma alert_of_trace (h : Trace (Moves cutoff) s events s') (hs : s.Alert) : s'.Alert :=
  h.invariant (fun _ _ _ hp hm => hm.alert hp) hs

lemma Moves.closed_of_conflict
    (h : Moves cutoff s (.post r result) s') (hc : IsConflict result) : s' = .closed := by
  cases h with
  | accepted | conflict | rest => rfl
  | uncertain _ _ _ hn => exact absurd hc hn
  | rejected _ _ hr => exact absurd (.inr hc) hr.2

lemma Moves.closed_of_rejection
    (h : Moves cutoff (.armed true) (.post r result) s') (hr : IsRejection result) :
    s' = .closed := by
  generalize hs : Phase.armed true = start at h
  cases h with
  | accepted | conflict | rest => rfl
  | uncertain _ _ hu => exact absurd hu hr.2
  | rejected => cases hs; rfl

/-- The events that a monitor accepts are those of a careful run. -/
lemma Careful.of_trace {w : World} {args : BatchArgs} {intent : PreparedSubmission}
    {request : PostRequest} (hsame : ∀ r result, .post r result ∈ events → r = request)
    (hread : ∀ n found, .lookup n found ∈ events → Missed found →
      Unmatched args request.nonce (w.transactions n))
    (h : Trace (Moves cutoff) .idle events s) :
    Careful w args intent request cutoff (.prepared intent :: events) := by
  -- a split of the run at a post is a split of the monitored events, after the intent
  have split : ∀ {before r result after},
      .prepared intent :: events = before ++ .post r result :: after →
        ∃ init, before = .prepared intent :: init ∧ events = init ++ .post r result :: after := by
    intro before r result after heq
    cases before with
    | nil => cases heq
    | cons event init =>
      injection heq with hhead htail
      exact ⟨init, by rw [hhead], htail⟩
  refine ⟨?_, ?_, ?_, ?_, ?_, ?_⟩
  · intro r result hmem
    exact hsame r result (by simpa using hmem)
  · intro before r result after heq
    obtain ⟨init, rfl, -⟩ := split heq
    exact .head _
  · intro before r result after heq
    obtain ⟨init, rfl, rfl⟩ := split heq
    obtain ⟨prior, u, hpre, -, -⟩ := trace_at_post h
    obtain ⟨earlier, t, rfl, ht⟩ := clock_of_trace_armed hpre
    exact ⟨.prepared intent :: earlier, t, rfl, ht⟩
  · intro before r result between r' result' after heq hu
    obtain ⟨init, rfl, rfl⟩ := split heq
    obtain ⟨prior, u, -, hmove, hpost⟩ := trace_at_post h
    obtain rfl | rfl := hmove.reconciling_or_closed hu
    · obtain ⟨lookups, rest, rfl, hlen, hmiss⟩ := misses_of_trace _ hpost
      refine ⟨lookups, rest, rfl, hlen, fun lookup hmem => ⟨hmiss lookup hmem, ?_⟩⟩
      have hevent : Event.lookup lookup.1 lookup.2 ∈
          lookups.map fun lookup => .lookup lookup.1 lookup.2 := mem_map_of_mem hmem
      exact hread _ _ (by simp [hevent]) (hmiss lookup hmem)
    · exact absurd ⟨r', result', rfl⟩ (no_post_of_closed hpost (.post r' result') (by simp))
  · intro before r result after heq hc
    obtain ⟨init, rfl, rfl⟩ := split heq
    obtain ⟨prior, u, -, hmove, hpost⟩ := trace_at_post h
    obtain rfl := hmove.closed_of_conflict hc
    exact no_post_of_closed hpost
  · intro before r result between r' result' after heq hu hr
    obtain ⟨init, rfl, rfl⟩ := split heq
    obtain ⟨prior, u, -, hmove, hbetw⟩ := trace_at_post h
    obtain ⟨prior', v, htrace, hmove', hpost⟩ := trace_at_post hbetw
    -- the monitor has been alert since the first of the two posts
    have hprior : prior' = true := by
      cases prior' with
      | true => rfl
      | false => exact (alert_of_trace htrace (hmove.alert_of_uncertain hu)).elim
    subst hprior
    obtain rfl := hmove'.closed_of_rejection hr
    exact no_post_of_closed hpost

/-! ## The inner loop follows the monitor -/

variable (fns : Closures) (request : PostRequest) {c : Cursor} {e : SubmitError}

/-- Every event of a loop is an answer of its closures, and every post carries its request. -/
def Answered : Event → Prop
  | .prepared _ => False
  | .clock reading => ∃ n, reading = fns.now n
  | .post r result => r = request ∧ ∃ n, result = fns.submit n
  | .lookup n found => found = fns.lookup n

lemma reconcile_answered : ∀ (n : ℕ) (c : Cursor), ∀ event ∈ (reconcile fns n c).events,
    ∃ k, event = .lookup k (fns.lookup k)
  | 0, c => by simp [reconcile]
  | n + 1, c => by
    intro event hmem
    simp only [reconcile] at hmem
    split at hmem
    · exact ⟨_, mem_singleton.1 hmem⟩
    · obtain rfl | hmem := mem_cons.1 hmem
      · exact ⟨_, rfl⟩
      · exact reconcile_answered n _ event hmem

lemma reconcile_no_post {n : ℕ} : ∀ event ∈ (reconcile fns n c).events, ¬ event.IsPost := by
  rintro event hmem ⟨r, result, rfl⟩
  obtain ⟨k, hk⟩ := reconcile_answered fns n c _ hmem
  cases hk

/-- The lookups miss one by one, or one of them ends the submission. -/
lemma reconcile_trace (cutoff : ℕ) : ∀ (n : ℕ) (c : Cursor),
    ((reconcile fns n c).result = none ∧
      Trace (Moves cutoff) (.reconciling n) (reconcile fns n c).events (.reconciling 0)) ∨
    ∃ act, (reconcile fns n c).result = some (adopt act) ∧
      (∃ k, .lookup k (.ok (some act)) ∈ (reconcile fns n c).events) ∧
      Trace (Moves cutoff) (.reconciling n) (reconcile fns n c).events .closed
  | 0, c => .inl ⟨rfl, .nil _⟩
  | n + 1, c => by
    simp only [reconcile]
    split
    case h_1 act hfound =>
      refine .inr ⟨act, rfl, ⟨c.lookups, by simp [hfound]⟩, ?_⟩
      rw [hfound]
      exact .cons (.found n _ act) (.nil _)
    case h_2 hmiss =>
      have hm : Missed (fns.lookup c.lookups) := fun act h => hmiss act h
      rcases reconcile_trace cutoff n { c with lookups := c.lookups + 1 } with
        ⟨hnone, htrace⟩ | ⟨act, hsome, ⟨k, hmem⟩, htrace⟩
      · exact .inl ⟨hnone, .cons (.missed n _ hm) htrace⟩
      · exact .inr ⟨act, hsome, ⟨k, mem_cons_of_mem _ hmem⟩, .cons (.missed n _ hm) htrace⟩

/-- What an attempt of the inner loop leaves behind: the monitor has followed it, and it ends with a
result as required, or every post so far was refused. -/
def Follows (cutoff : ℕ) (prior : Bool) (out : Outcome (Except SubmitError Json)) : Prop :=
  ∃ s, Trace (Moves cutoff) (.ready prior) out.events s ∧
    (Settled request (fun _ _ => True) out ∨ prior = false ∧ s = .idle ∧ ∃ e, out.result = .error e)

lemma follows_of_late {reading : Except String ℕ} : Follows request cutoff prior
      ⟨.error (deadlineError prior reading), c, [.clock reading]⟩ := by
  refine ⟨.ready prior, .cons (.late prior reading) (.nil _), ?_⟩
  cases prior with
  | false => exact .inr ⟨rfl, rfl, _, rfl⟩
  | true => exact .inl rfl

lemma adopt_settled {n : ℕ} (hmem : Event.lookup n (.ok (some act)) ∈ events) :
    Settled request (fun _ _ => True) ⟨adopt act, c, events⟩ := by
  unfold adopt
  split
  · exact rfl
  · exact .inr ⟨n, hmem, trivial⟩

lemma isRejection_of_definite (hretry : isRetryableRelayerError e = false)
    (hconf : walletSubmissionConflict (toAsciiLowercase e.text) = false) :
    IsRejection (.error e) := by
  refine ⟨⟨e, rfl⟩, ?_⟩
  rintro (⟨e', he, h⟩ | ⟨e', he, h⟩)
  · cases he
    simp [hretry] at h
  · cases he
    simp [hconf] at h

/-- A failed post that is followed by lookups. The flag is the loop's `stop_after_lookup`. -/
lemma moves_of_failed_post {ambiguous conflict : Bool}
    (hconf : walletSubmissionConflict (toAsciiLowercase e.text) = conflict)
    (hamb : (isRetryableRelayerError e || conflict) = ambiguous)
    (h : (!ambiguous && !prior) = false) :
    ((!ambiguous || conflict) = true ∧
      Moves cutoff (.armed prior) (.post request (.error e)) .closed) ∨
    ((!ambiguous || conflict) = false ∧
      Moves cutoff (.armed prior) (.post request (.error e))
        (.reconciling walletPostReconcileAttempts)) := by
  cases conflict with
  | true => exact .inl ⟨by simp, .conflict prior request ⟨e, rfl, hconf⟩⟩
  | false =>
    rw [Bool.or_false] at hamb
    cases ambiguous with
    | true =>
      refine .inr ⟨rfl, .uncertain prior request (.inl ⟨e, rfl, hamb⟩) ?_⟩
      rintro ⟨e', he, h'⟩
      cases he
      simp [hconf] at h'
    | false =>
      -- a definite answer is looked up only after an earlier uncertain post
      have hprior : prior = true := by simpa using h
      subst hprior
      exact .inl ⟨rfl, .rejected true request (isRejection_of_definite hamb hconf)⟩

variable {IsAction : ℕ → Json → Prop}

lemma Settled.append {c' : Cursor} (earlier : List Event)
    (h : Settled request IsAction ⟨result, c, events⟩) :
    Settled request IsAction ⟨result, c', earlier ++ events⟩ := by
  cases result with
  | error e => exact h
  | ok json =>
    rcases h with h | ⟨n, h, ha⟩
    · exact .inl (mem_append_right _ h)
    · exact .inr ⟨n, mem_append_right _ h, ha⟩

lemma Settled.ambiguous {out : Outcome (Except SubmitError Json)}
    (h : Settled request IsAction out) (he : out.result = .error e) :
    walletSubmitIsAmbiguous e = true := by
  simpa only [Settled, he] using h

/-- The clock, a failed post and its lookups. -/
lemma reconcile_follows {t : ℕ} (ht : t < cutoff)
    {looked : Outcome (Option (Except SubmitError Json))}
    (hl : reconcile fns walletPostReconcileAttempts c = looked) {stop : Bool}
    (hmove : (stop = true ∧ Moves cutoff (.armed prior) (.post request (.error e)) .closed) ∨
      (stop = false ∧ Moves cutoff (.armed prior) (.post request (.error e))
        (.reconciling walletPostReconcileAttempts))) :
    ∃ s, Trace (Moves cutoff) (.ready prior)
        ([.clock (.ok t), .post request (.error e)] ++ looked.events) s ∧
      ((looked.result = none ∧ (stop = false → s = .ready true)) ∨
        ∃ act, looked.result = some (adopt act) ∧
          ∃ n, .lookup n (.ok (some act)) ∈ looked.events) := by
  subst hl
  rcases hmove with ⟨rfl, hmove⟩ | ⟨rfl, hmove⟩
  · -- the monitor is closed: any lookups may follow
    refine ⟨.closed, .cons (.arm prior ht) (.cons hmove (closed_trace (reconcile_no_post fns))), ?_⟩
    rcases reconcile_trace fns cutoff walletPostReconcileAttempts c with
      ⟨hnone, -⟩ | ⟨act, hsome, hmem, -⟩
    · exact .inl ⟨hnone, nofun⟩
    · exact .inr ⟨act, hsome, hmem⟩
  · rcases reconcile_trace fns cutoff walletPostReconcileAttempts c with
      ⟨hnone, htrace⟩ | ⟨act, hsome, hmem, htrace⟩
    · exact ⟨_, .cons (.arm prior ht) (.cons hmove htrace), .inl ⟨hnone, fun _ => rfl⟩⟩
    · exact ⟨_, .cons (.arm prior ht) (.cons hmove htrace), .inr ⟨act, hsome, hmem⟩⟩

/-- The inner loop follows the monitor. The induction is on the attempts that are left; the last
attempt does not reach the empty case. -/
lemma submitLoop_follows (cutoff : ℕ) : ∀ (left : ℕ) (prior : Bool) (c : Cursor), 0 < left →
    Follows request cutoff prior (submitLoop fns request cutoff left prior c)
  | 0, _, _, h => absurd h (lt_irrefl 0)
  | left + 1, prior, c, _ => by
    simp only [submitLoop]
    split
    case h_1 => exact follows_of_late request
    case h_2 t hclock =>
      rw [hclock]
      split
      case isFalse => exact follows_of_late request
      case isTrue ht =>
        have harm : Moves cutoff (.ready prior) (.clock (.ok t)) (.armed prior) := .arm prior ht
        split
        case h_1 json hpost =>
          rw [hpost]
          exact ⟨.closed, .cons harm (.cons (.accepted prior request json) (.nil _)),
            .inl (.inl (by simp))⟩
        case h_2 e hpost =>
          rw [hpost]
          split
          case isTrue hdef =>
            -- the first failure of the round is a definite one: nothing has to be looked up
            simp only [Bool.and_eq_true, Bool.not_eq_true', Bool.or_eq_false_iff] at hdef
            obtain ⟨⟨hretry, hconf⟩, rfl⟩ := hdef
            have hmove : Moves cutoff (.armed false) (.post request (.error e)) .idle :=
              .rejected false request (isRejection_of_definite hretry hconf)
            exact ⟨.idle, .cons harm (.cons hmove (.nil _)), .inr ⟨rfl, rfl, e, rfl⟩⟩
          case isFalse hlook =>
            have hlook := Bool.eq_false_iff.2 hlook
            generalize hl : reconcile fns walletPostReconcileAttempts _ = looked
            obtain ⟨s, htrace, hended⟩ := reconcile_follows fns request ht hl
              (moves_of_failed_post request rfl rfl hlook)
            split
            case h_1 result hres =>
              rcases hended with ⟨hnone, -⟩ | ⟨act, hsome, n, hmem⟩
              · rw [hnone] at hres
                cases hres
              · cases hsome.symm.trans hres
                exact ⟨s, htrace, .inl (adopt_settled request (mem_append_right _ hmem))⟩
            case h_2 hres =>
              split
              case isTrue => exact ⟨s, htrace, .inl rfl⟩
              case isFalse hretry =>
                simp only [Bool.or_eq_true, decide_eq_true_eq, not_or] at hretry
                obtain ⟨hstop, hleft⟩ := hretry
                -- the monitor is where the next attempt starts
                obtain ⟨-, hready⟩ | ⟨act, hsome, -⟩ := hended
                · obtain rfl := hready (by simpa using hstop)
                  obtain ⟨s', hrest, hsett | ⟨hprior, -⟩⟩ :=
                    submitLoop_follows cutoff left true looked.cursor (Nat.pos_of_ne_zero hleft)
                  · exact ⟨s', append_iff.2 ⟨_, htrace, hrest⟩, .inl (hsett.append request _)⟩
                  · cases hprior
                · rw [hres] at hsome
                  cases hsome

/-- Events of the inner loop come from its closures. -/
lemma submitLoop_answered (cutoff : ℕ) : ∀ (left : ℕ) (prior : Bool) (c : Cursor),
    ∀ event ∈ (submitLoop fns request cutoff left prior c).events, Answered fns request event
  | 0, _, _ => by simp [submitLoop]
  | left + 1, prior, c => by
    have hclock : ∀ event ∈ [clock (fns.now c.clocks)], Answered fns request event :=
      forall_mem_singleton.2 ⟨_, rfl⟩
    have hpost : ∀ event ∈ [clock (fns.now c.clocks), .post request (fns.submit c.posts)],
        Answered fns request event :=
      forall_mem_cons.2 ⟨⟨_, rfl⟩, forall_mem_singleton.2 ⟨rfl, _, rfl⟩⟩
    have hlooked : ∀ c', ∀ event ∈ [clock (fns.now c.clocks),
          .post request (fns.submit c.posts)] ++
        (reconcile fns walletPostReconcileAttempts c').events, Answered fns request event := by
      refine fun c' => forall_mem_append.2 ⟨hpost, fun event hmem => ?_⟩
      obtain ⟨k, rfl⟩ := reconcile_answered fns _ c' event hmem
      rfl
    simp only [submitLoop]
    split
    · exact hclock
    split
    · split
      · exact hpost
      · split
        · exact hpost
        · split
          · exact hlooked _
          · split
            · exact hlooked _
            · exact forall_mem_append.2
                ⟨hlooked _, submitLoop_answered cutoff left true _⟩
    · exact hclock

/-! ## The outer loop -/

variable {request} {w : World} {args : BatchArgs}

lemma betterAction_cases {best : Option Json} :
    betterAction best act = some act ∨ betterAction best act = best := by
  cases best with
  | none => exact .inl rfl
  | some b =>
    simp only [betterAction]
    split
    · exact .inl rfl
    · exact .inr rfl

lemma mem_of_maxByRank {actions : List Json} (h : maxByRank actions = some action) :
    action ∈ actions := by
  revert h
  -- the best so far is one of the actions
  refine foldlRecOn (motive := fun best => best = some action → action ∈ actions) actions
    betterAction nofun fun best ih a ha h => ?_
  obtain heq | heq := betterAction_cases
  · rw [heq] at h
    exact Option.some.inj h ▸ ha
  · exact ih (heq ▸ h)

lemma exists_foldl_betterAction : ∀ (actions : List Json) (first : Json),
    ∃ best, actions.foldl betterAction (some first) = some best ∧
      ∀ a ∈ first :: actions, walletActionRecoveryRank a ≤ walletActionRecoveryRank best
  | [], first => ⟨first, rfl, by simp⟩
  | a :: actions, first => by
    simp only [foldl_cons, betterAction]
    split
    · next hle =>
      obtain ⟨best, hbest, hall⟩ := exists_foldl_betterAction actions a
      have ha := hall a mem_cons_self
      exact ⟨best, hbest, forall_mem_cons.2 ⟨hle.trans ha, hall⟩⟩
    · next hlt =>
      obtain ⟨best, hbest, hall⟩ := exists_foldl_betterAction actions first
      obtain ⟨hfirst, hrest⟩ := forall_mem_cons.1 hall
      exact ⟨best, hbest, forall_mem_cons.2
        ⟨hfirst, forall_mem_cons.2 ⟨(not_le.1 hlt).le.trans hfirst, hrest⟩⟩⟩

/-- There is a best action, and it ranks at least as high as every other one. -/
lemma exists_maxByRank {actions : List Json} (h : action ∈ actions) :
    ∃ best, maxByRank actions = some best ∧
      ∀ a ∈ actions, walletActionRecoveryRank a ≤ walletActionRecoveryRank best := by
  cases actions with
  | nil => cases h
  | cons first actions => exact exists_foldl_betterAction actions first

/-- What a lookup finds is a record of the batch in the reply. -/
lemma recorded_of_lookup {nonce n : ℕ} (h : (w.closures args nonce).lookup n = .ok (some action)) :
    Recorded args nonce (w.transactions n) action := by
  simp only [World.closures] at h
  generalize hfind : findWalletActionBySignerNonce w.display (w.transactions n) args.eoa nonce =
    found at h
  cases found with
  | error e => cases h
  | ok best =>
    obtain ⟨rfl, hbatch⟩ := Option.filter_eq_some_iff.1 (Except.ok.inj h)
    unfold findWalletActionBySignerNonce at hfind
    split at hfind
    · cases hfind
    · next actions hreply =>
      obtain ⟨hmem, hrecord⟩ := mem_filter.1 (mem_of_maxByRank (Except.ok.inj hfind))
      simp only [isRecordOf, Bool.and_eq_true] at hrecord
      exact ⟨⟨hrecord.1.1, hbatch⟩, actions, hreply, hmem⟩
    · cases hfind

/-- A lookup without a result was given no record of the batch that it could have taken. -/
lemma unmatched_of_missed {nonce n : ℕ} (h : Missed ((w.closures args nonce).lookup n)) :
    Unmatched args nonce (w.transactions n) := by
  intro actions hreply action hmem hrecord hsame
  have hin : action ∈ actions.filter (isRecordOf · args.eoa nonce) :=
    mem_filter.2 ⟨hmem, hrecord⟩
  have hlookup : (w.closures args nonce).lookup n =
      .ok ((maxByRank (actions.filter (isRecordOf · args.eoa nonce))).filter
        fun action => actionMatchesWalletBatch action args.dw args.calls) := by
    simp only [World.closures, findWalletActionBySignerNonce, hreply]
    rfl
  obtain ⟨best, hbest, hrank⟩ := exists_maxByRank hin
  have hbestIn := mem_filter.1 (mem_of_maxByRank hbest)
  refine ⟨best, hbestIn.1, hbestIn.2, fun hbatch => ?_, hrank action hin⟩
  refine h best ?_
  rw [hlookup, hbest, Option.filter_some, if_pos hbatch.2]

/-- If a post of the inner loop was uncertain, its result is settled. -/
lemma submit_settled (hmem : .post r result ∈ (submitWithAmbiguousRecoveryDeadline
      (w.closures args request.nonce) request cutoff c).events) (hu : IsUncertain result) :
    Settled request (fun n => Recorded args request.nonce (w.transactions n))
      (submitWithAmbiguousRecoveryDeadline (w.closures args request.nonce) request cutoff c) := by
  unfold submitWithAmbiguousRecoveryDeadline at hmem ⊢
  obtain ⟨s, htrace, hsett | ⟨-, rfl, -⟩⟩ := submitLoop_follows (w.closures args request.nonce)
    request cutoff walletPostAttempts false c (by decide)
  · have hans := submitLoop_answered (w.closures args request.nonce) request cutoff
      walletPostAttempts false c
    generalize submitLoop (w.closures args request.nonce) request cutoff walletPostAttempts false
      c = out at hsett hans ⊢
    obtain ⟨outResult, cursor, events⟩ := out
    cases outResult with
    | error e => exact hsett
    | ok json =>
      refine hsett.imp_right ?_
      rintro ⟨n, hmem, -⟩
      exact ⟨n, hmem, recorded_of_lookup (hans _ hmem).symm⟩
  · -- after an uncertain post the monitor is alert to the end, not idle
    obtain ⟨before, after, hevents⟩ := append_of_mem hmem
    rw [hevents] at htrace
    obtain ⟨prior, u, -, hmove, hpost⟩ := trace_at_post htrace
    exact (alert_of_trace hpost (hmove.alert_of_uncertain hu)).elim

variable (w args request cutoff) in
/-- A round is the last one, or it has ended with a definite error and another round follows. -/
lemma registryLoop_cases (left : ℕ) (c : Cursor) {round : Outcome (Except SubmitError Json)}
    (hround : submitWithAmbiguousRecoveryDeadline (w.closures args request.nonce) request cutoff c
      = round) :
    (registryLoop w args request cutoff left c).events = round.events ∨
    ∃ left' e, left = left' + 1 ∧ round.result = .error e ∧ walletSubmitIsAmbiguous e = false ∧
      (registryLoop w args request cutoff left c).events =
        round.events ++ (registryLoop w args request cutoff left' round.cursor).events := by
  subst hround
  rw [registryLoop.eq_def]
  dsimp only
  split
  · exact .inl rfl
  rename_i e hresult
  split
  · rename_i hregistry
    simp only [Bool.and_eq_true, Bool.not_eq_true'] at hregistry
    cases left with
    | succ left => exact .inr ⟨left, e, rfl, hresult, hregistry.1, rfl⟩
    | zero =>
      dsimp only
      split <;> exact .inl rfl
  · split <;> exact .inl rfl

/-- The rounds of the registry loop follow the monitor: only a round without uncertain posts is
followed by another one. -/
lemma registryLoop_follows : ∀ (left : ℕ) (c : Cursor),
    (∃ s, Trace (Moves cutoff) .idle (registryLoop w args request cutoff left c).events s) ∧
      ∀ event ∈ (registryLoop w args request cutoff left c).events,
        Answered (w.closures args request.nonce) request event := by
  intro left
  induction left using Nat.strong_induction_on with
  | _ left ih =>
    intro c
    obtain ⟨s, htrace, hend⟩ := submitLoop_follows (w.closures args request.nonce) request cutoff
      walletPostAttempts false c (by decide)
    have hans := submitLoop_answered (w.closures args request.nonce) request cutoff
      walletPostAttempts false c
    obtain hlast | ⟨left', e, rfl, hres, hdef, hmore⟩ :=
      registryLoop_cases cutoff request w args left c rfl
    · rw [hlast]
      exact ⟨⟨s, htrace⟩, hans⟩
    obtain ⟨⟨s', hrest⟩, hrestAnswered⟩ := ih left' (Nat.lt_succ_self _) _
    rw [hmore]
    have hidle : s = .idle := by
      rcases hend with hsett | ⟨-, rfl, -⟩
      · have := hsett.ambiguous request hres
        simp [hdef] at this
      · rfl
    subst hidle
    exact ⟨⟨s', append_iff.2 ⟨_, htrace, hrest⟩⟩, forall_mem_append.2 ⟨hans, hrestAnswered⟩⟩

/-- Posts of a run carry one request, which was handed over before, and are reconciled before they
are repeated; an uncertain post is never reported as failed. -/
theorem uncertain_submission_reconciled (w : World) (args : BatchArgs) :
    (∀ e, prepare w args = .error e → (submitWalletBatchWithHook w args).events = []) ∧
    ∀ request deadline, prepare w args = .ok (request, deadline) →
      args.cutoff deadline ≤ deadline ∧
      Careful w args (args.intent w request deadline) request (args.cutoff deadline)
        (submitWalletBatchWithHook w args).events ∧
      (∀ event ∈ (submitWalletBatchWithHook w args).events,
        event = .prepared (args.intent w request deadline) ∨
          Answered (w.closures args request.nonce) request event) ∧
      ∀ c r result, .post r result ∈ (submitWithAmbiguousRecoveryDeadline
          (w.closures args request.nonce) request (args.cutoff deadline) c).events →
        IsUncertain result →
          Settled request (fun n => Recorded args request.nonce (w.transactions n))
            (submitWithAmbiguousRecoveryDeadline (w.closures args request.nonce) request
              (args.cutoff deadline) c) := by
  refine ⟨fun e h => by simp [submitWalletBatchWithHook, h], fun request deadline h => ?_⟩
  refine ⟨min_le_right _ _, ?_⟩
  rw [← and_assoc]
  refine ⟨?_, fun c r result hmem hu => submit_settled hmem hu⟩
  simp only [submitWalletBatchWithHook, h]
  split
  · -- a dry run ends before the intent is handed over
    exact ⟨⟨by simp, by simp, by simp, by simp, by simp, by simp⟩, by simp⟩
  · split
    · exact ⟨Careful.of_trace (by simp) (by simp) (.nil Phase.idle), by simp⟩
    · obtain ⟨⟨s, htrace⟩, hans⟩ := registryLoop_follows registryRetries {}
      refine ⟨Careful.of_trace (fun r result hmem => (hans _ hmem).1)
        (fun n found hmem hmiss => unmatched_of_missed (hans _ hmem ▸ hmiss)) htrace, ?_⟩
      exact forall_mem_cons.2 ⟨.inl rfl, fun event hmem => .inr (hans event hmem)⟩

/-! ### A lost reply -/

namespace LostReply

def batch : BatchArgs where
  eoa := "0xAb"
  dw := "0xCd"
  calls := [⟨"0x4d", "0x01"⟩]
  gateMaintenanceUntilStarted := false
  dryRun := false
  retryUntilSecs := none

/-- A record of the nonce with the given wallet and state. -/
def record (wallet state : String) : Json :=
  .obj [("type", .str "WALLET"), ("from", .str "0xab"), ("nonce", .str "7"),
    ("transactionID", .str "old"), ("state", .str state),
    ("depositWalletParams", .obj [("depositWallet", .str wallet),
      ("calls", .arr [.obj [("target", .str "0x4d"), ("data", .str "0x01")]])])]

/-- The first post is lost: the list cannot be read, then it shows another wallet above a failed
record of the batch, then nothing. The second post is answered. -/
def world : World where
  signerPermit := .ok ()
  reconciliationNonce := .ok 7
  reconcilePrevious _ := .ok ()
  relayerPermit := .ok ()
  walletNonce := .ok 7
  nowSecs := .ok 100
  buildBody _ _ := .ok "batch"
  keccak256 _ := []
  display _ := ""
  onPrepared _ := .ok ()
  post n := if n = 0 then .sendFailed "timed out" else
    .response 200 "200 OK" "" (.ok (.obj [("transactionID", .str "tx")]))
  transactions n :=
    if n = 0 then .error "timed out"
    else if n = 1 then .ok (.arr [record "0xcd" "STATE_FAILED", record "0xce" "STATE_NEW"])
    else .ok (.arr [])
  clock n := .ok (100 + n)
  previousStatus _ := .ok ()
  onSubmitted _ := .ok ()
  leavesNew _ := .ok ()
  pollTx _ := .ok ()

/-- The run posts twice, with three lookups between the posts, and reports the transaction. -/
theorem reconciled :
    prepare world batch = .ok (⟨"batch", 7⟩, 390) ∧
      (submitWalletBatchWithHook world batch).cursor = ⟨2, 3, 2⟩ ∧
      (submitWalletBatchWithHook world batch).result.toOption = some "tx" ∧
      Careful world batch (batch.intent world ⟨"batch", 7⟩ 390) ⟨"batch", 7⟩ 390
        (submitWalletBatchWithHook world batch).events :=
  ⟨rfl, by decide +kernel, by decide +kernel,
    ((uncertain_submission_reconciled world batch).2 ⟨"batch", 7⟩ 390 rfl).2.1⟩

end LostReply

end HexAgent.Wallet
