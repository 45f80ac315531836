import HexAgent.LocalBooks.Updates

/-!
# Calls of the local books as updates

A frame that only revises sizes is a sequence of changes of levels that exist. Every other frame has
four phases: its entries, the validation of its tokens, the release of their books, and the
reconciliation of their markets (`applyPriceChange_cases`). From these and the timers every call is
a sequence of updates (`steps_call`), and a run of calls is one sequence (`steps_observe`).
-/

namespace HexAgent.LocalBooks

open ClobLocalBooks List AList ClobLocalBooks

variable (specs : List CanonicalEventSpec) {lib : DecimalLib} {s s' : ClobLocalBooks}
  {past batch : List MarketEvent} {ts recvAt : ℕ} {update : QuantityUpdate}
  {fields : PriceChangeFields} {scratch : Scratch} {token : String}

/-! ## Frames that only revise sizes -/

/-- What the preflight of an entry has checked. -/
structure Preflighted (lib : DecimalLib) (s : ClobLocalBooks) (ts : ℕ) (change : PriceChangeEntry)
    (update : QuantityUpdate) (book : ClobLocalBook) : Prop where
  token : update.token = change.assetId
  price : change.price.decimal lib = some update.price
  size : change.size.decimal lib = some update.size
  side : parseSide change.side = some update.side
  pending : s.pendingBbo.lookup change.assetId = none
  quarantine : s.marketIsQuarantined change.assetId = false
  found : s.tokenBooks.lookup change.assetId = some book
  time : book.exchangeTimestampNs ≤ ts
  level : ValidLevel update.price update.size
  contained : update.price ∈ book.levels update.side
  bid : reportAgrees lib change.bestBid book.top.1 = true
  ask : reportAgrees lib change.bestAsk book.top.2 = true

lemma of_guard {p : Prop} [Decidable p] {u : Unit} (h : guard p = some u) : p := by
  by_contra hp
  simp [guard, hp] at h

lemma preflighted {change : PriceChangeEntry} (h : s.preflight lib ts change = some update) :
    ∃ book, Preflighted lib s ts change update book := by
  simp only [preflight, Option.bind_eq_bind, Option.bind_eq_some_iff] at h
  obtain ⟨role, -, _, -, _, hpend, _, -, _, hquar, book, hbook, _, htime, _, -, price, hprice, size,
    hsize, _, hlev, side, hside, _, hcont, _, hbid, _, hask, h⟩ := h
  cases h
  exact ⟨book, rfl, hprice, hsize, hside, of_guard hpend, of_guard hquar, hbook, of_guard htime,
    (of_guard hlev :), Std.TreeMap.mem_iff_contains.2 (of_guard hcont), of_guard hbid,
    of_guard hask⟩

/-- The updates of an accepted frame, in the order of its entries. -/
lemma tryApplyQuantityOnly_some (h : s.tryApplyQuantityOnly lib fields recvAt ts = some s') :
    ∃ updates, List.Forall₂ (fun change update => ∃ book, Preflighted lib s ts change update book)
        fields.priceChanges updates ∧
      s' = updates.foldl (applyQuantityUpdate ts recvAt) s := by
  unfold tryApplyQuantityOnly at h
  split at h
  · cases h
  obtain ⟨updates, hupd, rfl⟩ := Option.map_eq_some_iff.1 h
  refine ⟨updates, ?_, rfl⟩
  generalize fields.priceChanges = changes at hupd
  clear h
  induction changes generalizing updates with
  | nil =>
    obtain rfl : [] = updates := by simpa using hupd
    exact .nil
  | cons change changes ih =>
    rw [mapM_cons] at hupd
    obtain ⟨update, hupdate, hupd⟩ := Option.bind_eq_some_iff.1 hupd
    obtain ⟨rest, hrest, hupd⟩ := Option.bind_eq_some_iff.1 hupd
    cases hupd
    exact .cons (preflighted hupdate) (ih rest hrest)

/-- The book of a token after a quantity update. -/
lemma lookup_applyQuantityUpdate (s : ClobLocalBooks) (update : QuantityUpdate)
    (ts recvAt : ℕ) (token : String) :
    (applyQuantityUpdate ts recvAt s update).tokenBooks.lookup token =
      if token = update.token then (s.tokenBooks.lookup token).map fun book =>
        (book.setLevels update.side ((book.levels update.side).insert update.price
          update.size)).stamp ts (s.wireSequence + 1) recvAt
      else s.tokenBooks.lookup token :=
  lookup_modifyRow _ _ _ _

/-- Labels of the updates of a frame that only revises sizes. -/
def QuantityLabel (updates : List QuantityUpdate) (label : Label) : Prop :=
  label = .other ∨ ∃ update ∈ updates, label = .change update.token

variable {updates : List QuantityUpdate}

lemma steps_quantityUpdate (hmem : update ∈ updates) (hlev : ValidLevel update.price update.size)
    (htime : ∀ book, s.tokenBooks.lookup update.token = some book → book.exchangeTimestampNs ≤ ts) :
    Steps (QuantityLabel updates) ⟨s, past, batch⟩
      ⟨applyQuantityUpdate ts recvAt s update, past, batch⟩ := by
  refine .head ⟨.other, .inl rfl, .sequence s past batch (s.wireSequence + 1)⟩ ?_
  unfold applyQuantityUpdate nextSequence
  dsimp only
  unfold modifyRow
  split
  · exact .refl
  next book hbook =>
  refine Steps.of_update (.change { s with wireSequence := s.wireSequence + 1 } past batch
    update.token hbook (fun h => ?_) (htime book hbook)) (.inr ⟨update, hmem, rfl⟩)
  exact h.setLevels update.side ((h.levels update.side).insert hlev)

lemma steps_quantityUpdates (hlev : ∀ update ∈ updates, ValidLevel update.price update.size)
    (htime : ∀ update ∈ updates, ∀ book, s.tokenBooks.lookup update.token = some book →
      book.exchangeTimestampNs ≤ ts) :
    Steps (QuantityLabel updates) ⟨s, past, batch⟩
      ⟨updates.foldl (applyQuantityUpdate ts recvAt) s, past, batch⟩ := by
  refine (steps_foldl (fun acc => ⟨acc, past, batch⟩)
    (fun acc => ∀ update ∈ updates, ∀ book, acc.tokenBooks.lookup update.token = some book →
      book.exchangeTimestampNs ≤ ts) s htime ?_).2
  intro acc update hmem hacc
  refine ⟨fun other hne book hbook => ?_,
    steps_quantityUpdate hmem (hlev update hmem) (hacc update hmem)⟩
  -- a book that was already written has the time of the frame
  rw [lookup_applyQuantityUpdate] at hbook
  split at hbook
  · obtain ⟨old, -, rfl⟩ := Option.map_eq_some_iff.1 hbook
    exact le_rfl
  · exact hacc other hne book hbook

lemma exists_of_mem_right {α β : Type} {R : α → β → Prop} {as : List α} {bs : List β}
    (h : List.Forall₂ R as bs) : ∀ b ∈ bs, ∃ a ∈ as, R a b := by
  induction h with
  | nil => simp
  | cons hhead _ ih =>
    refine forall_mem_cons.2 ⟨⟨_, mem_cons_self, hhead⟩, fun b hb => ?_⟩
    obtain ⟨a, ha, hab⟩ := ih b hb
    exact ⟨a, mem_cons_of_mem _ ha, hab⟩

lemma steps_quantityOnly {changes : List PriceChangeEntry}
    (h : List.Forall₂ (fun change update => ∃ book, Preflighted lib s ts change update book)
      changes updates) :
    Steps (QuantityLabel updates) ⟨s, past, batch⟩
      ⟨updates.foldl (applyQuantityUpdate ts recvAt) s, past, batch⟩ := by
  have hmem := exists_of_mem_right h
  refine steps_quantityUpdates (fun update hu => ?_) (fun update hu book hbook => ?_)
  · obtain ⟨change, -, book, hcheck⟩ := hmem update hu
    exact hcheck.level
  · obtain ⟨change, -, book', hcheck⟩ := hmem update hu
    rw [hcheck.token, hcheck.found] at hbook
    cases hbook
    exact hcheck.time

/-! ## Frames in phases -/

lemma mem_validationOrder :
    token ∈ validationOrder scratch ↔
      ∃ entry, scratch.lookup token = some entry ∧ entry.hasReportedBbo = true := by
  rw [validationOrder, mem_insertionSort, mem_map]
  constructor
  · rintro ⟨e, he, rfl⟩
    obtain ⟨he, hflag⟩ := mem_filter.1 he
    exact ⟨e.2, mem_lookup_iff.2 he, hflag⟩
  · rintro ⟨entry, hent, hflag⟩
    exact ⟨⟨token, entry⟩, mem_filter.2 ⟨mem_lookup_iff.1 hent, hflag⟩, rfl⟩

lemma nodup_validationOrder : (validationOrder scratch).Nodup := by
  rw [validationOrder, (perm_insertionSort _ _).nodup_iff]
  have hkeys : (scratch.entries.map (·.1)).Nodup := scratch.nodupKeys
  exact hkeys.sublist ((filter_sublist).map _)

lemma mem_touchedOrder :
    token ∈ s.touchedOrder scratch ↔ ∃ entry, scratch.lookup token = some entry ∧
      entry.before.isSome ∧ (s.tokenBooks.lookup token).isSome := by
  simp only [touchedOrder, mem_map, mem_insertionSort, mem_filterMap]
  constructor
  · rintro ⟨pair, ⟨e, he, hpair⟩, rfl⟩
    split at hpair
    · next hpre =>
      obtain ⟨book, hbook, rfl⟩ := Option.map_eq_some_iff.1 hpair
      exact ⟨e.2, mem_lookup_iff.2 he, hpre, by rw [hbook]; rfl⟩
    · cases hpair
  · rintro ⟨entry, hent, hpre, hbook⟩
    obtain ⟨book, hbook⟩ := Option.isSome_iff_exists.1 hbook
    refine ⟨(book.wireSequence, token), ⟨⟨token, entry⟩, mem_lookup_iff.1 hent, ?_⟩, rfl⟩
    rw [if_pos hpre, hbook, Option.map_some]

/-- The states of a frame: after its entries, after the validation, and after the release of its
books, with the events so far. -/
structure FramePhases (s : ClobLocalBooks) (changes : List PriceChangeEntry) (ts receivedAt : ℕ)
    (past : List MarketEvent) (scratch : Scratch) (changed validated released : ClobLocalBooks)
    (quotes books : List MarketEvent) : Prop where
  notes : FrameNotes s ts changes (changed, scratch)
  change : Steps ChangeLabel ⟨s, past, []⟩ ⟨changed, past, []⟩
  checks : Validated scratch ts receivedAt (validationOrder scratch) changed validated
  validate : Steps (fun label => ∃ token ∈ validationOrder scratch, ValidateLabel token label)
    ⟨changed, past, []⟩ ⟨validated, past, quotes⟩
  release : Steps (fun label => ∃ token ∈ validated.touchedOrder scratch, ReleaseLabel token label)
    ⟨validated, past, quotes⟩ ⟨released, past, books⟩

/-- State and table after the entries of a frame. -/
def frameChanges (lib : DecimalLib) (s : ClobLocalBooks) (fields : PriceChangeFields)
    (receivedAt localNow : ℕ) : ClobLocalBooks × Scratch :=
  fields.priceChanges.foldl
    (applyChange lib (timestampValueToNs fields.timestamp localNow) receivedAt)
    (s, s.scratchOf fields.priceChanges)

/-- A frame has its phases, or all its entries pass the preflight and it publishes nothing. -/
lemma applyPriceChange_cases (hbound : PendingBound s) {now : ℕ}
    (hts : timestampValueToNs fields.timestamp now = ts) :
    (∃ validated released quotes books,
      FramePhases s fields.priceChanges ts recvAt past (frameChanges lib s fields recvAt now).2
        (frameChanges lib s fields recvAt now).1 validated released quotes books ∧
      let last := (validated.touchedOrder (frameChanges lib s fields recvAt now).2).foldl
        (reconcileToken (frameChanges lib s fields recvAt now).2 recvAt now) (released, books, [])
      (s.applyPriceChange lib fields recvAt now).1 = last.1 ∧
        (s.applyPriceChange lib fields recvAt now).2.events = last.2.1) ∨
    ∃ updates, Forall₂ (fun change update => ∃ book, Preflighted lib s ts change update book)
        fields.priceChanges updates ∧
      (s.applyPriceChange lib fields recvAt now).1 =
          updates.foldl (applyQuantityUpdate ts recvAt) s ∧
        (s.applyPriceChange lib fields recvAt now).2.events = [] := by
  subst hts
  cases hslow : s.tryApplyQuantityOnly lib fields recvAt
      (timestampValueToNs fields.timestamp now) with
  | some s' =>
    obtain ⟨updates, hupd, rfl⟩ := tryApplyQuantityOnly_some hslow
    simp only [applyPriceChange, hslow]
    exact .inr ⟨updates, hupd, rfl, trivial⟩
  | none =>
  left
  unfold frameChanges
  obtain ⟨hnotes, hchange⟩ := steps_foldl (fun acc => ⟨acc.1, past, []⟩) _
    (s, s.scratchOf fields.priceChanges) frameNotes_scratchOf fun _ _ hmem hnotes =>
      ⟨hnotes.applyChange hmem recvAt, steps_applyChange lib⟩
  simp only [applyPriceChange, hslow, settleFrame]
  generalize fields.priceChanges.foldl _ (s, s.scratchOf fields.priceChanges) = frame
    at hnotes hchange ⊢
  obtain ⟨changed, scratch⟩ := frame
  have hbound' := hchange.pendingBound hbound
  -- every token with a report has a book of the time of the frame
  obtain ⟨hchecks, hval⟩ := steps_validate past recvAt now
    (validationOrder scratch) (changed, []) nodup_validationOrder (by
      intro token htok
      obtain ⟨entry, hent, hflag⟩ := mem_validationOrder.1 htok
      obtain ⟨hpre, book, hbook, htime⟩ := hnotes.reported token entry hent hflag
      refine ⟨⟨entry, hent, hpre⟩, ⟨book, hbook, htime⟩, fun p hp => ?_⟩
      obtain ⟨book', hbook', hle⟩ := hbound' token p hp
      cases hbook.symm.trans hbook'
      exact htime ▸ hle)
  generalize (validationOrder scratch).foldl _ (changed, []) = validated at hchecks hval ⊢
  obtain ⟨validated, quotes⟩ := validated
  have hrel := (steps_foldl (fun acc =>
      ⟨acc.1, past, acc.2⟩) (fun _ => True) (validated, quotes) trivial
    fun acc token htok _ => ⟨trivial, (steps_releaseToken scratch past now acc token).mono
      fun _ h => (⟨token, htok, h⟩ : ∃ token ∈ validated.touchedOrder scratch,
        ReleaseLabel token _)⟩).2
  exact ⟨validated, _, quotes, _, ⟨hnotes, hchange, hchecks, hval, hrel⟩, rfl, rfl⟩

/-- The last phase of a frame. -/
lemma steps_reconcileTokens (scratch : Scratch) (past : List MarketEvent)
    (recvAt now : ℕ) (touched : List String)
    (acc : ClobLocalBooks × List MarketEvent × List String) :
    Steps (fun label => ∃ token, label = .reconcile token recvAt) ⟨acc.1, past, acc.2.1⟩
      ⟨(touched.foldl (reconcileToken scratch recvAt now) acc).1, past,
        (touched.foldl (reconcileToken scratch recvAt now) acc).2.1⟩ := by
  refine (steps_foldl (fun acc : ClobLocalBooks × List MarketEvent × List String =>
    ⟨acc.1, past, acc.2.1⟩) (fun _ => True) acc trivial fun acc token _ _ => ⟨trivial, ?_⟩).2
  obtain ⟨out, rfl, ⟨hsame, -⟩ | ⟨-, hu⟩⟩ :=
    reconcileToken_cases scratch past recvAt now acc token
  · rw [hsame]
  · exact .of_update hu ⟨token, rfl⟩

/-! ## Calls and runs -/

/-- A full book is accepted and published, or it changes no book. -/
lemma steps_applyBook {fields : BookFields} {now : ℕ}
    {source : ClobBookSource} {out : ClobLocalBooks × Except String ClobBookApplyOutcome}
    (hout : s.applyBook lib fields recvAt now source = out) :
    (∃ events c₁ c₂, out.2 = .ok (.applied events) ∧
      Steps (fun label => label = .other ∨ label = .accept fields.assetId) ⟨s, past, []⟩ c₁ ∧
      Steps (BookLabel fields.assetId) c₁ c₂ ∧
      Update c₂ (.reconcile fields.assetId recvAt) ⟨out.1, past, events⟩) ∨
    ((∀ events, out.2 ≠ .ok (.applied events)) ∧
      Steps (· = .other) ⟨s, past, []⟩ ⟨out.1, past, []⟩) := by
  unfold applyBook at hout
  dsimp only at hout
  split at hout
  · subst hout
    exact .inr ⟨fun _ h => (nomatch h), .refl⟩
  split at hout
  · subst hout
    exact .inr ⟨fun _ h => (nomatch h), .refl⟩
  split at hout
  · subst hout
    exact .inr ⟨fun _ h => (nomatch h), .refl⟩
  next bids asks hparsed =>
  have hseq := Update.sequence s past [] (s.wireSequence + 1)
  split at hout
  · subst hout
    exact .inr ⟨fun _ h => (nomatch h), .of_update hseq rfl⟩
  subst hout
  obtain ⟨bids', hbids, hparsed⟩ := Maintenance.bind_eq_ok_iff.1 hparsed
  obtain ⟨asks', hasks, hparsed⟩ := Maintenance.bind_eq_ok_iff.1 hparsed
  cases hparsed
  refine .inl ?_
  obtain ⟨c, hsteps, hlast⟩ := steps_publishBook
    (s.nextSequence.2.acceptBook fields.assetId ⟨bids, asks,
      timestampValueToNs fields.timestamp now, s.nextSequence.1, none⟩)
    past fields.assetId
  refine ⟨_, _, c, rfl, .head ⟨_, .inl rfl, hseq⟩ (Steps.of_update
    (.accept _ past [] fields.assetId ?_) (.inr rfl)), hsteps, hlast⟩
  exact ⟨parseLevels_ok hbids, parseLevels_ok hasks⟩

lemma bookEvents_eq_nil {result : Except String ClobBookApplyOutcome}
    (h : ∀ events, result ≠ .ok (.applied events)) : bookEvents result = [] := by
  unfold bookEvents
  split
  · exact absurd rfl (h _)
  · rfl

lemma steps_flushDeferredDue {now localNow : ℕ} {activeTokens : List String} :
    ∃ c, Steps (fun label => ∃ token, FinalizeLabel token label ∨ label = .reconcile token now)
        ⟨s, past, []⟩ c ∧
      Steps (fun label => ∃ cid, label = .recover cid now) c
        ⟨(s.flushDeferredDue now localNow activeTokens).1, past,
          (s.flushDeferredDue now localNow activeTokens).2.events⟩ := by
  refine ⟨_, (steps_foldl (fun acc : ClobLocalBooks × ClobDeferredBatch =>
    ⟨acc.1, past, acc.2.events⟩) (fun _ => True) (s, {}) trivial fun acc token _ _ =>
      ⟨trivial, ?_⟩).2,
    steps_flushHealthRecoveriesDue _ past _ now localNow⟩
  obtain ⟨c, hsteps, hlast⟩ := steps_deferredToken past now localNow activeTokens acc token
  exact (hsteps.mono fun _ h => ⟨token, .inl h⟩).tail ⟨_, ⟨token, .inr rfl⟩, hlast⟩

/-- Labels of a call at an instant. -/
def Label.At (time : ℕ) : Label → Prop
  | .reconcile _ t | .recover _ t => t = time
  | .deliver => False
  | _ => True

/-- Every call is a sequence of updates. -/
lemma steps_call (hbound : PendingBound s) (call : Call) (past : List MarketEvent) :
    Steps (·.At call.time) ⟨s, past, []⟩ ⟨(s.call lib call).1, past, (s.call lib call).2⟩ := by
  cases call with
  | book fields recvAt localNow source =>
    simp only [call]
    generalize hout : s.applyBook lib fields recvAt localNow source = out
    rcases steps_applyBook hout with
      ⟨events, c₁, c₂, hres, hacc, hpub, hlast⟩ | ⟨hres, hsteps⟩
    · rw [hres]
      refine .tail (.trans (hacc.mono ?_) (hpub.mono ?_))
        ⟨.reconcile fields.assetId recvAt, rfl, hlast⟩
      · rintro label (rfl | rfl) <;> trivial
      · rintro label (rfl | rfl) <;> trivial
    · rw [bookEvents_eq_nil hres]
      refine hsteps.mono ?_
      rintro label rfl
      trivial
  | priceChange fields recvAt localNow =>
    simp only [call]
    rcases applyPriceChange_cases hbound rfl with
      ⟨validated, released, quotes, books, hphases, heq⟩ | ⟨updates, hupd, heq⟩ <;>
      rw [heq.1, heq.2]
    · refine .trans (hphases.change.mono ?_) (.trans (hphases.validate.mono ?_) (.trans
        (hphases.release.mono ?_) ((steps_reconcileTokens _ past recvAt localNow _
          (released, books, [])).mono ?_)))
      · rintro label (rfl | ⟨token, rfl⟩) <;> trivial
      · rintro label ⟨token, -, rfl | rfl⟩ <;> trivial
      · rintro label ⟨token, -, rfl | rfl | rfl⟩ <;> trivial
      · rintro label ⟨token, rfl⟩
        rfl
    · refine (steps_quantityOnly hupd).mono ?_
      rintro label (rfl | ⟨update, -, rfl⟩) <;> trivial
  | flush now localNow =>
    refine (steps_flushDue s past now localNow).mono ?_
    rintro label ⟨token, rfl | rfl⟩ <;> trivial
  | flushDeferred now localNow activeTokens =>
    obtain ⟨c, hchecks, hrec⟩ := steps_flushDeferredDue
    refine .trans (hchecks.mono ?_) (hrec.mono ?_)
    · rintro label ⟨token, (rfl | rfl | rfl | rfl) | rfl⟩ <;> trivial
    · rintro label ⟨cid, rfl⟩
      rfl
  | tickSize change recvAt localNow =>
    refine (steps_tickSize s past []).mono ?_
    rintro label rfl
    trivial
  | repairFailed token reason observedAt localNow =>
    exact .head ⟨.fail token, trivial, .fail s past [] token⟩
      (.single ⟨.reconcile token observedAt, rfl,
        .reconcile _ past [] token reason observedAt localNow⟩)

/-- The events of a run. -/
def published (observed : List Observed) : List MarketEvent := observed.flatMap (·.events)

/-- The calls from any point of a run on, and the updates up to it. -/
lemma observe_split (hbound : PendingBound s) {calls : List Call} {before rest : List Observed}
    (h : s.observe lib calls = before ++ rest) (past : List MarketEvent) :
    ∃ s' calls', rest = s'.observe lib calls' ∧ PendingBound s' ∧
      Steps (fun _ => True) ⟨s, past, []⟩ ⟨s', past ++ published before, []⟩ := by
  induction before generalizing s calls past with
  | nil => exact ⟨s, calls, h.symm, hbound, by simpa [published] using .refl⟩
  | cons o before ih =>
    cases calls with
    | nil => cases h
    | cons call calls =>
      obtain ⟨hhead, htail⟩ : s.observed lib call = o ∧
          (s.call lib call).1.observe lib calls = before ++ rest := by
        simpa [observe] using h
      have hpubl : published (o :: before) = (s.call lib call).2 ++ published before := by
        rw [← hhead]
        rfl
      have hcall : Steps (fun _ => True) _ ⟨(s.call lib call).1, past, (s.call lib call).2⟩ :=
        (steps_call hbound call past).mono fun _ _ => trivial
      obtain ⟨s', calls', hrest, hbound', hsteps⟩ := ih (hcall.pendingBound hbound) htail
        (past ++ (s.call lib call).2)
      refine ⟨s', calls', hrest, hbound', hcall.trans (.head ⟨.deliver, trivial, .deliver ..⟩ ?_)⟩
      rwa [hpubl, ← append_assoc]

/-- At the start there are roles, ticks and empty canonical books only. -/
lemma new_eq :
    ∃ roles ticks books, new specs =
      { roles := roles, currentTicks := ticks, canonicalBooks := books } := by
  refine foldlRecOn (motive := fun acc : Identities × ClobLocalBooks => ∃ roles ticks books,
    acc.2 = { roles := roles, currentTicks := ticks, canonicalBooks := books }) specs addSpec
    ⟨_, _, _, rfl⟩ ?_
  rintro ⟨identities, _⟩ ⟨roles, ticks, books, rfl⟩ spec -
  exact ⟨_, _, _, rfl⟩

lemma pendingBound_new : PendingBound (new specs) := by
  obtain ⟨roles, ticks, books, heq⟩ := new_eq specs
  intro token pending h
  simp [heq] at h

end HexAgent.LocalBooks
