import HexAgent.LocalBooks.Health
import HexAgent.LocalBooks.Published

/-!
# Books that disagree with the venue are withheld

A frame reports the best prices of the venue for a token. If they disagree with the book, the token
is `Blocked`: it has a check that disagrees with its book, or it is quarantined. A blocked token
publishes no book (`Withheld`), and it stays blocked until a full book is accepted or a later frame
reports prices that agree, provided that the entries of the token report a best price. The proviso
is needed: a frame without a report replaces the expectation by an empty one, which agrees with any
book (`LostCheck`).

## Main statements

* `withheld_of_disagrees`, `Withheld.call`: one call
* `books_consistent_and_withheld`: runs
* `LostCheck.published_unchecked`: a run without reports
-/

namespace HexAgent.LocalBooks

open ClobLocalBooks List AList Option Std.TreeMap

variable {levels levels' : Levels} {t : String}

/-! ## Reports of a frame -/

/-- An entry has a best bid or a best ask that can be decoded. -/
def PriceChangeEntry.reports (lib : DecimalLib) (change : PriceChangeEntry) : Bool :=
  (change.bestBid.bind (·.decimal lib)).isSome || (change.bestAsk.bind (·.decimal lib)).isSome

namespace Observed

section

variable (lib : DecimalLib) (o : Observed)

/-- What the applied entries of a frame report of a token. -/
def report (token : String) : Option ReportedBbo :=
  match o.call with
  | .priceChange fields receivedAt localNow =>
    ((frameChanges lib o.pre fields receivedAt localNow).2.lookup token).bind fun entry =>
      if entry.hasReportedBbo then some entry.reportedBbo else none
  | _ => none

/-- The call is a frame that disagrees with the best prices of the book that it leaves. -/
def Disagrees (token : String) : Prop :=
  ∃ report, o.report lib token = some report ∧ report.agrees (o.post.topOf token) = false

/-- The call is a frame that reports a best price and agrees with the book that it leaves. -/
def Confirms (token : String) : Prop :=
  ∃ report, o.report lib token = some report ∧ (report.bid.isSome ∨ report.ask.isSome) ∧
    report.agrees (o.post.topOf token) = true

/-- The call accepts a full book of the token. -/
def Accepts (token : String) : Prop :=
  ∃ fields receivedAt localNow source events, o.call = .book fields receivedAt localNow source ∧
    fields.assetId = token ∧
    (o.pre.applyBook lib fields receivedAt localNow source).2 = .ok (.applied events)

/-- Every entry of the token in a frame reports a best price. -/
def Reporting (token : String) : Prop :=
  ∀ fields receivedAt localNow, o.call = .priceChange fields receivedAt localNow →
    ∀ change ∈ fields.priceChanges, change.assetId = token → change.reports lib = true

end

end Observed

/-! ## Blocked tokens -/

/-- A check of the token disagrees with its book, or the token is quarantined. -/
structure Blocked (s : ClobLocalBooks) (token : String) : Prop where
  check : ∀ pending, s.pendingBbo.lookup token = some pending →
    pending.expected.agrees (s.topOf token) = false
  quarantine : s.pendingBbo.lookup token = none → token ∈ s.quarantinedTokens

variable {lib : DecimalLib} {s s' : ClobLocalBooks} {past batch : List MarketEvent} {token : String}

lemma Blocked.not_free (h : Blocked s token) (hpend : s.pendingBbo.lookup token = none)
    (hfree : s.marketIsQuarantined token = false) : False := by
  exact of_decide_eq_false hfree ⟨token, h.quarantine hpend, .inl rfl⟩

variable {label : Label} {localNow : ℕ} {fields : PriceChangeFields} {receivedAt : ℕ}

/-- The best prices of a token change with its levels only. -/
lemma Update.topOf {c c' : Config} (h : Update c label c')
    (hchange : label ≠ .change token) (hacc : label ≠ .accept token) :
    c'.books.topOf token = c.books.topOf token := by
  have hreport := h.report_eq
  cases h with
  | emit | reconcile | recover =>
    rw [hreport rfl]
    rfl
  | dirty s _ _ other =>
    unfold topOf
    rw [lookup_clearDirty]
    split
    · rw [Option.map_map]
      rfl
    · rfl
  | change s _ _ other hbook hlevs htime =>
    have hne : token ≠ other := fun h => hchange (h ▸ rfl)
    unfold topOf
    rw [lookup_insert_ne hne]
  | accept s _ _ other hlevs =>
    have hne : token ≠ other := fun h => hacc (h ▸ rfl)
    unfold topOf acceptBook
    rw [lookup_insert_ne hne]
  | sequence | ticks | quote | expect | resolve | settle | quarantine | fail | replay
  | deliver => rfl

/-! ## Withheld books -/

/-- No book of the token is in the batch. -/
def NoBook (token : String) (batch : List MarketEvent) : Prop :=
  ∀ book, .orderBook book ∈ batch → book.source ≠ token

/-- The token is blocked and none of its books is in the batch. -/
structure Withheld (token : String) (c : Config) : Prop where
  published : PublishedOk c
  blocked : Blocked c.books token
  batch : NoBook token c.batch

lemma NoBook.push {event : MarketEvent} (h : NoBook token batch)
    (hev : ∀ book, event = .orderBook book → book.source ≠ token) :
    NoBook token (batch ++ [event]) := by
  intro book hmem
  rcases mem_append.1 hmem with hmem | hmem
  · exact h book hmem
  · exact hev book (mem_singleton.1 hmem).symm

lemma NoBook.pushSome {event : Option MarketEvent} (h : NoBook token batch)
    (hev : ∀ book, event ≠ some (.orderBook book)) : NoBook token (pushSome batch event) := by
  cases event with
  | none => exact h
  | some event => exact h.push fun book heq => absurd (heq ▸ rfl) (hev book)

/-- Updates other than publications put no book into the batch. -/
lemma Update.noBook {c c' : Config} (h : Update c label c')
    (hemit : ∀ t, label ≠ .emit t) (hrepl : ∀ t, label ≠ .replay t)
    (hbatch : NoBook token c.batch) : NoBook token c'.batch := by
  cases h with
  | emit s past batch t h => exact absurd rfl (hemit t)
  | replay s past batch t => exact absurd rfl (hrepl t)
  | quote s past batch vers q =>
    exact hbatch.push nofun
  | reconcile s past batch t reason time localNow =>
    exact hbatch.pushSome (PublishedOk.health_ne_orderBook s t reason time localNow)
  | recover s past batch cid localNow =>
    unfold flushHealthRecovery healthEvent
    dsimp only
    split
    · exact hbatch
    · split
      · exact hbatch.push nofun
      · exact hbatch
  | deliver s past batch => exact nofun
  | sequence | ticks | dirty | change | accept | expect | resolve | settle | quarantine
  | fail => exact hbatch

/-- Updates that keep a token blocked. -/
def Keeps (token : String) (label : Label) : Prop :=
  label ≠ .change token ∧ label ≠ .accept token ∧ label ≠ .expect token

/-- A change of the state that leaves the check of the token, and its quarantine, as they are. -/
lemma Blocked.of_same (h : Blocked s token)
    (hpend : s'.pendingBbo.lookup token = s.pendingBbo.lookup token)
    (htop : s'.topOf token = s.topOf token)
    (hquar : token ∈ s.quarantinedTokens → token ∈ s'.quarantinedTokens) :
    Blocked s' token where
  check pending hp := by
    rw [htop]
    exact h.check pending (hpend ▸ hp)
  quarantine hp := hquar (h.quarantine (hpend ▸ hp))

lemma Update.blocked {c c' : Config} (h : Update c label c')
    (hkeeps : Keeps token label) (hb : Blocked c.books token) : Blocked c'.books token := by
  have htop := h.topOf hkeeps.1 hkeeps.2.1
  have hreport := h.report_eq
  cases h with
  | emit | reconcile | recover =>
    rw [hreport rfl] at htop ⊢
    exact hb.of_same rfl htop id
  | expect s _ _ t pending =>
    have hne : token ≠ t := fun heq => hkeeps.2.2 (heq ▸ rfl)
    exact hb.of_same (lookup_insert_ne hne) htop id
  | accept s _ _ t =>
    have hne : token ≠ t := fun heq => hkeeps.2.1 (heq ▸ rfl)
    exact hb.of_same (lookup_erase_ne hne) htop fun hq => Finset.mem_erase.2 ⟨hne, hq⟩
  | resolve s _ _ t hpend hagr =>
    -- the check of a blocked token disagrees, so it is not the one that is resolved
    have hne : token ≠ t := by
      rintro rfl
      rw [hb.check _ hpend] at hagr
      cases hagr
    exact hb.of_same (lookup_erase_ne hne) htop fun hq => Finset.mem_erase.2 ⟨hne, hq⟩
  | settle s _ _ t hpend hagr =>
    have hne : token ≠ t := by
      rintro rfl
      rw [hb.check _ hpend] at hagr
      cases hagr
    exact hb.of_same (lookup_erase_ne hne) htop id
  | quarantine s _ _ t =>
    by_cases heq : token = t
    · subst heq
      exact ⟨fun pending hp => by simp at hp, fun _ => Finset.mem_insert_self _ _⟩
    · exact hb.of_same (lookup_erase_ne heq) htop Finset.mem_insert_of_mem
  | sequence | ticks | quote | dirty | change | fail | replay | deliver =>
    exact hb.of_same rfl htop id

lemma exists_of_canonicalizeToken {event : MarketEvent}
    (h : s.canonicalizeToken token localNow = (s', some event)) :
    ∃ book, event = .orderBook book ∧ book.source = token := by
  obtain ⟨-, -, book, -, -, ⟨-, -, rfl⟩ | ⟨role, -, -, rfl, -⟩⟩ := canonicalizeToken_some h
  · exact ⟨_, rfl, rfl⟩
  · exact ⟨_, rfl, rfl⟩

/-- A blocked token publishes nothing. -/
lemma Withheld.update {c c' : Config} (h : Withheld token c)
    (hu : Update c label c') (hkeeps : Keeps token label) : Withheld token c' := by
  refine ⟨PublishedOk.update hu h.published, hu.blocked hkeeps h.blocked, ?_⟩
  by_cases hemit : ∃ t, label = .emit t
  · obtain ⟨t, rfl⟩ := hemit
    cases hu with
    | emit s past batch _ hcanon =>
      obtain ⟨hpend, hfree, -⟩ := canonicalizeToken_some hcanon
      obtain ⟨book, rfl, rfl⟩ := exists_of_canonicalizeToken hcanon
      have hne : book.source ≠ token := by
        rintro rfl
        exact h.blocked.not_free hpend hfree
      have hpushed : NoBook token (batch ++ [.orderBook book]) :=
        NoBook.push h.batch fun other heq => MarketEvent.orderBook.inj heq ▸ hne
      exact fun other hmem => hpushed other ((pushLatestOrderBook_sublist ..).subset hmem)
  · by_cases hrepl : ∃ t, label = .replay t
    · obtain ⟨t, rfl⟩ := hrepl
      cases hu with
      | replay s past batch _ hhealthy hev =>
        refine NoBook.push h.batch fun book heq => ?_
        subst heq
        -- the source of the cached book is a token of the same market, which is healthy
        have hkey : s.marketKey book.source = s.marketKey t := by
          unfold canonicalSnapshotForToken at hev
          split at hev
          · cases hev
          next role hrole =>
          split at hev
          · cases hev
          next ver hvers =>
          obtain ⟨snapshot, hcached, -, -, hcond⟩ := h.published.cached role.conditionId ver hvers
          rw [hcached] at hev
          cases hev
          obtain ⟨role', hrole', heq⟩ := map_eq_some_iff.1 hcond
          simp only [marketKey, hrole, hrole', heq]
        rintro rfl
        have hclean := clean_of_desiredHealthState (hkey ▸ hhealthy)
        rcases hpend : s.pendingBbo.lookup book.source with _ | pending
        · exact hclean.quarantined ⟨_, h.blocked.quarantine hpend, rfl⟩
        · exact hclean.pending ⟨_, isSome_iff_exists.2 ⟨pending, hpend⟩, rfl⟩
    · exact hu.noBook (fun t heq => hemit ⟨t, heq⟩) (fun t heq => hrepl ⟨t, heq⟩) h.batch

lemma Withheld.steps {Allowed : Label → Prop} {c c' : Config} (h : Withheld token c)
    (hsteps : Steps Allowed c c') (hkeeps : ∀ label, Allowed label → Keeps token label) :
    Withheld token c' :=
  hsteps.invariant (fun _ label _ hl hu hc => hc.update hu (hkeeps label hl)) h

/-! ## Calls -/

lemma keeps_reconcile {time : ℕ} : Keeps token (.reconcile t time) :=
  ⟨by simp, by simp, by simp⟩

lemma keeps_of_release (h : ReleaseLabel t label) : Keeps token label := by
  rcases h with rfl | rfl | rfl <;> simp [Keeps]

/-- A frame that takes the long path keeps a token withheld from its validation on. -/
lemma Withheld.frame {ts : ℕ} {scratch : Scratch}
    {changed validated released : ClobLocalBooks} {quotes books : List MarketEvent}
    (hphases : FramePhases s fields.priceChanges ts receivedAt past scratch changed validated
      released quotes books) (h : Withheld token ⟨validated, past, quotes⟩) :
    Withheld token ⟨((validated.touchedOrder scratch).foldl
        (reconcileToken scratch receivedAt localNow) (released, books, [])).1, past,
      ((validated.touchedOrder scratch).foldl
        (reconcileToken scratch receivedAt localNow) (released, books, [])).2.1⟩ := by
  have hrel : Withheld token ⟨released, past, books⟩ := by
    refine h.steps hphases.release ?_
    rintro label ⟨t, -, hl⟩
    exact keeps_of_release hl
  refine hrel.steps (steps_reconcileTokens scratch past receivedAt localNow _
    (released, books, [])) ?_
  rintro label ⟨t, rfl⟩
  exact keeps_reconcile

section Frame

variable {ts : ℕ} {scratch : Scratch}
  {changed validated released : ClobLocalBooks} {quotes books : List MarketEvent}

section

variable (hphases : FramePhases s fields.priceChanges ts receivedAt past scratch changed validated
  released quotes books)

include hphases

/-- The best prices of a token after a frame are those after its entries. -/
lemma FramePhases.topOf (token : String) (localNow : ℕ) :
    validated.topOf token = changed.topOf token ∧
      ((validated.touchedOrder scratch).foldl (reconcileToken scratch receivedAt localNow)
        (released, books, [])).1.topOf token = changed.topOf token := by
  have hkeep : ∀ {Allowed : Label → Prop} {c c' : Config}, Steps Allowed c c' →
      (∀ label, Allowed label → label ≠ .change token ∧ label ≠ .accept token) →
      c'.books.topOf token = c.books.topOf token := fun {Allowed c c'} hsteps hall =>
    hsteps.invariant (P := fun d => d.books.topOf token = c.books.topOf token)
      (fun _ label _ hl hu htop =>
        (hu.topOf (hall label hl).1 (hall label hl).2).trans htop) rfl
  have hval := hkeep hphases.validate (by
    rintro label ⟨t, -, rfl | rfl⟩ <;> simp)
  have hrel := hkeep hphases.release (by
    rintro label ⟨t, -, rfl | rfl | rfl⟩ <;> simp)
  have hrec := hkeep (steps_reconcileTokens scratch past receivedAt localNow
    (validated.touchedOrder scratch) (released, books, [])) (by
    rintro label ⟨t, rfl⟩
    simp)
  exact ⟨hval, hrec.trans (hrel.trans hval)⟩

/-- A frame that does not change a blocked token. -/
lemma Withheld.validate (h : Withheld token ⟨s, past, []⟩)
    (hunr : ∀ entry, scratch.lookup token = some entry → entry.hasReportedBbo = false) :
    Withheld token ⟨validated, past, quotes⟩ := by
  have hbook := hphases.notes.unreported token hunr
  have hchanged : Withheld token ⟨changed, past, []⟩ := by
    refine ⟨hphases.change.publishedOk h.published, ?_, h.batch⟩
    have hsame := hphases.notes.same
    dsimp only at hsame hbook
    refine h.blocked.of_same (by rw [hsame]) ?_ (by rw [hsame]; exact id)
    unfold topOf
    rw [hbook]
  refine hchanged.steps hphases.validate ?_
  rintro label ⟨t, ht, rfl | rfl⟩
  · simp [Keeps]
  · -- only tokens with a report get a check
    obtain ⟨entry, hent, hflag⟩ := mem_validationOrder.1 ht
    have hne : t ≠ token := by
      rintro rfl
      rw [hunr entry hent] at hflag
      cases hflag
    simp [Keeps, hne]

end

/-- A frame whose report disagrees with the book that it leaves. -/
lemma withheld_of_report (hbound : PendingBound s) (hpubl : PublishedOk ⟨s, past, []⟩)
    (hphases : FramePhases s fields.priceChanges ts receivedAt past scratch
      changed validated released quotes books) {entry : PriceChangeTokenScratch}
    (hent : scratch.lookup token = some entry) (hflag : entry.hasReportedBbo = true)
    (hdis : entry.reportedBbo.agrees (changed.topOf token) = false) :
    Withheld token ⟨validated, past, quotes⟩ := by
  obtain ⟨-, book, hbook, htime⟩ := hphases.notes.reported token entry hent hflag
  have hcheck := hphases.checks.checked token (mem_validationOrder.2 ⟨entry, hent, hflag⟩) entry
    hent
  refine ⟨hphases.validate.publishedOk (hphases.change.publishedOk hpubl), ⟨?_, ?_⟩, ?_⟩
  · -- the check of the frame is not newer than the book, which has the time of the frame
    intro pending hpend
    cases hcheck.symm.trans hpend
    rw [(hphases.topOf token 0).1]
    refine nextCheck_disagrees (fun p hp => ?_) hdis
    obtain ⟨book', hbook', hle⟩ := hphases.change.pendingBound hbound token p hp
    cases hbook.symm.trans hbook'
    exact htime ▸ hle
  · intro hnone
    rw [hcheck] at hnone
    cases hnone
  · refine hphases.validate.invariant (P := fun d => NoBook token d.batch) ?_
      nofun
    rintro c label c' ⟨t, -, hl⟩ hu hbatch
    refine hu.noBook ?_ ?_ hbatch
    · rcases hl with rfl | rfl <;> simp
    · rcases hl with rfl | rfl <;> simp

end Frame

/-! ## Frames that only revise sizes -/

lemma getLast?_keys_congr (h : ∀ k, k ∈ levels ↔ k ∈ levels') :
    levels.keys.getLast? = levels'.keys.getLast? := by
  rw [← maxKey?_eq_getLast?_keys, ← maxKey?_eq_getLast?_keys]
  ext k
  simp only [maxKey?_eq_some_iff_mem_and_forall, h]

lemma head?_keys_congr (h : ∀ k, k ∈ levels ↔ k ∈ levels') :
    levels.keys.head? = levels'.keys.head? := by
  rw [← minKey?_eq_head?_keys, ← minKey?_eq_head?_keys]
  ext k
  simp only [minKey?_eq_some_iff_mem_and_forall, h]

lemma mem_insert_of_mem {price : ℚ} (size : ℚ) {k : ℚ}
    (h : price ∈ levels) : k ∈ levels.insert price size ↔ k ∈ levels := by
  rw [Std.TreeMap.mem_insert]
  constructor
  · rintro (heq | hk)
    · exact Std.LawfulEqCmp.eq_of_compare heq ▸ h
    · exact hk
  · exact .inr

/-- Every book has kept its prices. -/
def SamePrices (s s' : ClobLocalBooks) : Prop :=
  ∀ token, Option.Rel (fun book book' : ClobLocalBook => ∀ side k,
    k ∈ book'.levels side ↔ k ∈ book.levels side)
    (s.tokenBooks.lookup token) (s'.tokenBooks.lookup token)

lemma SamePrices.topOf (h : SamePrices s s') (token : String) : s'.topOf token = s.topOf token := by
  unfold ClobLocalBooks.topOf
  generalize hbook : s.tokenBooks.lookup token = book
  generalize hbook' : s'.tokenBooks.lookup token = book'
  have hrel := h token
  rw [hbook, hbook'] at hrel
  cases hrel with
  | none => rfl
  | some hlevs =>
    exact Prod.ext (getLast?_keys_congr (hlevs .bid)) (head?_keys_congr (hlevs .ask))

lemma samePrices_refl : SamePrices s s := by
  intro token
  cases s.tokenBooks.lookup token with
  | none => exact .none
  | some book => exact .some fun _ _ => Iff.rfl

lemma SamePrices.quantityUpdate {book : ClobLocalBook}
    (h : SamePrices s s') {update : QuantityUpdate}
    (hbook : s.tokenBooks.lookup update.token = some book)
    (hprice : update.price ∈ book.levels update.side) {ts : ℕ} :
    SamePrices s (applyQuantityUpdate ts receivedAt s' update) := by
  intro token
  have hrel := h token
  rw [lookup_applyQuantityUpdate]
  split
  · next heq =>
    subst heq
    rw [hbook] at hrel ⊢
    generalize s'.tokenBooks.lookup update.token = current at hrel ⊢
    cases hrel with
    | some hlevs =>
      refine .some fun side k => ?_
      rw [← hlevs]
      have hmem := (hlevs update.side update.price).2 hprice
      -- the update keeps the set of prices of both sides
      cases hside : update.side <;> cases side <;> rw [hside] at hmem <;>
        first
        | exact Iff.rfl
        | exact mem_insert_of_mem _ hmem
  · exact hrel

lemma noteReported_agrees {noted : Option (Option ℚ)} {reported : Option WireDecimal}
    {expected : Option ℚ} (hrep : reportAgrees lib reported expected = true)
    (hnoted : noted.all (· = expected) = true) :
    (noteReported lib noted reported).all (· = expected) = true := by
  unfold noteReported
  cases reported with
  | none => exact hnoted
  | some value =>
    simp only [reportAgrees, all_some, decide_eq_true_eq] at hrep
    simp [hrep]

/-- What the entries of a frame note of a token, one after the other. -/
lemma noted_foldl {ts : ℕ} {changes : List PriceChangeEntry} {M : Bool → ReportedBbo → Prop}
    (hnone : M false {})
    (hnote : ∀ change ∈ changes, change.assetId = token → ∀ flag old, M flag old →
      M true ⟨noteReported lib old.bid change.bestBid, noteReported lib old.ask change.bestAsk⟩)
    {entry : PriceChangeTokenScratch} (hent : (changes.foldl (applyChange lib ts receivedAt)
      (s, s.scratchOf changes)).2.lookup token = some entry) :
    M entry.hasReportedBbo entry.reportedBbo := by
  revert entry
  refine foldlRecOn (motive := fun acc : ClobLocalBooks × Scratch => ∀ {entry},
    acc.2.lookup token = some entry → M entry.hasReportedBbo entry.reportedBbo) changes _ ?_
    fun acc hacc change hmem => ?_
  · intro fresh hfresh
    rw [lookup_scratchOf] at hfresh
    split at hfresh
    · cases hfresh
      exact hnone
    · cases hfresh
  rcases applyChange_cases with heq | ⟨book, -, -, heq | ⟨side, price, size, -, heq⟩⟩
  · rwa [heq]
  · rw [heq]
    intro noted hnoted
    rw [lookup_modifyRow] at hnoted
    split at hnoted
    · obtain ⟨old, hold, rfl⟩ := map_eq_some_iff.1 hnoted
      exact @hacc old hold
    · exact hacc hnoted
  · rw [heq, modifyRow_modifyRow]
    intro noted hnoted
    rw [lookup_modifyRow] at hnoted
    split at hnoted
    · next ht =>
      obtain ⟨old, hold, rfl⟩ := map_eq_some_iff.1 hnoted
      exact hnote change hmem ht.symm _ _ (@hacc old hold)
    · exact hacc hnoted

/-- In a frame that passed the preflight every report agrees with the book. -/
lemma report_agrees_of_quantityOnly {ts : ℕ} {changes : List PriceChangeEntry}
    (h : ∀ change ∈ changes, ∃ update book, Preflighted lib s ts change update book)
    {entry : PriceChangeTokenScratch} (hent : (changes.foldl (applyChange lib ts receivedAt)
      (s, s.scratchOf changes)).2.lookup token = some entry) :
    entry.reportedBbo.agrees (s.topOf token) = true := by
  refine noted_foldl (M := fun _ noted => noted.agrees (s.topOf token) = true) rfl ?_ hent
  intro change hmem htoken _ old hold
  obtain ⟨update, book, hcheck⟩ := h change hmem
  have htop : s.topOf token = book.top := by
    unfold topOf
    rw [← htoken, hcheck.found]
    rfl
  rw [htop] at hold ⊢
  simp only [ReportedBbo.agrees, Bool.and_eq_true] at hold ⊢
  exact ⟨noteReported_agrees hcheck.bid hold.1, noteReported_agrees hcheck.ask hold.2⟩

/-- If every entry of the token reports a best price, then so does the frame. -/
lemma Observed.Reporting.isSome {o : Observed} {report : ReportedBbo} (h : o.Reporting lib token)
    (hrep : o.report lib token = some report) : report.bid.isSome ∨ report.ask.isSome := by
  unfold Observed.report at hrep
  split at hrep
  · next fields receivedAt localNow hcall =>
    obtain ⟨entry, hent, hrep⟩ := bind_eq_some_iff.1 hrep
    split at hrep
    · next hflag =>
      cases hrep
      refine noted_foldl (M := fun flag noted => flag = true → noted.bid.isSome ∨ noted.ask.isSome)
        nofun ?_ hent hflag
      intro change hmem htoken _ _ _ _
      have hreports := h fields receivedAt localNow hcall change hmem htoken
      simp only [PriceChangeEntry.reports, Bool.or_eq_true] at hreports
      simp only [noteReported, isSome_or, isSome_map, Bool.or_eq_true]
      exact hreports.imp .inl .inl
    · cases hrep
  · cases hrep

/-! ## Runs -/

/-- A frame that disagrees with the book that it leaves blocks the token. -/
lemma withheld_of_disagrees (hbound : PendingBound s) (hpubl : PublishedOk ⟨s, past, []⟩)
    {call : Call} (hdis : (s.observed lib call).Disagrees lib token) :
    Withheld token ⟨(s.call lib call).1, past, (s.call lib call).2⟩ := by
  obtain ⟨report, hrep, hdis⟩ := hdis
  cases call with
  | priceChange fields receivedAt localNow =>
    obtain ⟨entry, hent, hrep⟩ := bind_eq_some_iff.1 hrep
    dsimp only [observed] at hent
    split at hrep
    · next hflag =>
      cases hrep
      simp only [observed, call] at hdis ⊢
      rcases applyPriceChange_cases hbound rfl with
        ⟨validated, released, quotes, books, hphases, heq⟩ | ⟨updates, hupd, heq⟩ <;>
        rw [heq.1] at hdis ⊢ <;> rw [heq.2]
      · rw [(hphases.topOf token localNow).2] at hdis
        exact Withheld.frame hphases (withheld_of_report hbound hpubl hphases hent hflag hdis)
      · -- a frame that passed the preflight agrees with the book
        have hagr := report_agrees_of_quantityOnly (fun change hmem => by
          obtain ⟨update, -, book, hcheck⟩ := exists_of_mem_right hupd.flip change hmem
          exact ⟨update, book, hcheck⟩) hent
        have hsame : SamePrices s (updates.foldl (applyQuantityUpdate
            (timestampValueToNs fields.timestamp localNow) receivedAt) s) := by
          refine foldlRecOn updates _ samePrices_refl fun acc hacc update hmem => ?_
          obtain ⟨change, -, book, hcheck⟩ := exists_of_mem_right hupd update hmem
          exact hacc.quantityUpdate (hcheck.token ▸ hcheck.found) hcheck.contained
        rw [hsame.topOf, hagr] at hdis
        cases hdis
    · cases hrep
  | book | flush | flushDeferred | tickSize | repairFailed => cases hrep

/-- A report that does not disagree confirms. -/
lemma Observed.Reporting.report_eq_none {o : Observed} (h : o.Reporting lib token)
    (hdis : ¬ o.Disagrees lib token) (hconf : ¬ o.Confirms lib token) :
    o.report lib token = none := by
  cases hrep : o.report lib token with
  | none => rfl
  | some report =>
    refine absurd ⟨report, hrep, h.isSome hrep, ?_⟩ hconf
    rw [← Bool.not_eq_false]
    exact fun hfalse => hdis ⟨report, hrep, hfalse⟩

/-- A frame without a report of a withheld token keeps it withheld. -/
lemma Withheld.unreported (hbound : PendingBound s) (h : Withheld token ⟨s, past, []⟩)
    {fields : PriceChangeFields} {receivedAt localNow : ℕ}
    (hnone : (s.observed lib (.priceChange fields receivedAt localNow)).report lib token = none) :
    Withheld token ⟨(s.applyPriceChange lib fields receivedAt localNow).1, past,
      (s.applyPriceChange lib fields receivedAt localNow).2.events⟩ := by
  rcases applyPriceChange_cases hbound rfl with
    ⟨validated, released, quotes, books, hphases, heq⟩ | ⟨updates, hupd, heq⟩ <;>
    rw [heq.1, heq.2]
  · refine Withheld.frame hphases (h.validate hphases fun entry hent => ?_)
    simp only [Observed.report, observed, hent, bind_some] at hnone
    simpa using hnone
  · -- the preflight rejects a blocked token
    refine h.steps (steps_quantityOnly hupd) ?_
    rintro label (rfl | ⟨update, hupdate, rfl⟩)
    · simp [Keeps]
    · obtain ⟨change, -, book, hcheck⟩ := exists_of_mem_right hupd update hupdate
      have hne : update.token ≠ token := by
        rintro rfl
        rw [hcheck.token] at h
        exact h.blocked.not_free hcheck.pending hcheck.quarantine
      simp [Keeps, hne]

/-- Every other call keeps a token withheld, unless it accepts a full book of the token or confirms
its best prices. -/
lemma Withheld.call (hbound : PendingBound s) (h : Withheld token ⟨s, past, []⟩) {call : Call}
    (hreporting : (s.observed lib call).Reporting lib token)
    (hacc : ¬ (s.observed lib call).Accepts lib token)
    (hconf : ¬ (s.observed lib call).Confirms lib token) :
    Withheld token ⟨(s.call lib call).1, past, (s.call lib call).2⟩ := by
  cases call with
  | book fields receivedAt localNow source =>
    simp only [ClobLocalBooks.call]
    generalize hout : s.applyBook lib fields receivedAt localNow source = out
    rcases steps_applyBook hout with
      ⟨events, c₁, c₂, hres, haccept, hpub, hlast⟩ | ⟨hres, hsteps⟩
    · have hne : fields.assetId ≠ token := fun heq =>
        hacc ⟨fields, receivedAt, localNow, source, events, rfl, heq, by
          rw [← hres, ← hout]
          rfl⟩
      rw [hres]
      refine Withheld.update ?_ hlast keeps_reconcile
      refine (h.steps haccept ?_).steps hpub ?_
      · rintro label (rfl | rfl) <;> simp [Keeps, hne]
      · rintro label (rfl | rfl) <;> simp [Keeps]
    · rw [bookEvents_eq_nil hres]
      refine h.steps hsteps ?_
      rintro label rfl
      simp [Keeps]
  | priceChange fields receivedAt localNow =>
    by_cases hdis : (s.observed lib (.priceChange fields receivedAt localNow)).Disagrees lib token
    · exact withheld_of_disagrees hbound h.published hdis
    · exact h.unreported hbound (hreporting.report_eq_none hdis hconf)
  | flush now localNow =>
    refine h.steps (steps_flushDue s past now localNow) ?_
    rintro label ⟨t, rfl | rfl⟩ <;> simp [Keeps]
  | flushDeferred now localNow activeTokens =>
    obtain ⟨c, hchecks, hrec⟩ := steps_flushDeferredDue
    refine (h.steps hchecks ?_).steps hrec ?_
    · rintro label ⟨t, (rfl | rfl | rfl | rfl) | rfl⟩ <;> simp [Keeps]
    · rintro label ⟨t, rfl⟩
      simp [Keeps]
  | tickSize change receivedAt localNow =>
    refine h.steps (steps_tickSize s past []) ?_
    rintro label rfl
    simp [Keeps]
  | repairFailed t reason observedAt localNow =>
    have hfail := h.update (.fail s past [] t) (by simp [Keeps])
    exact hfail.update (.reconcile _ past [] t reason observedAt localNow) keeps_reconcile

/-- A withheld token stays withheld over calls that do not release it. -/
lemma Withheld.run {after : List Observed} :
    ∀ (mid : List Observed) {s : ClobLocalBooks} {past : List MarketEvent} {calls : List Call}
      {o : Observed}, PendingBound s → Withheld token ⟨s, past, []⟩ →
      s.observe lib calls = mid ++ o :: after →
      (∀ m ∈ mid ++ [o], m.Reporting lib token ∧ ¬ m.Accepts lib token ∧ ¬ m.Confirms lib token) →
      NoBook token o.events := by
  intro mid
  induction mid with
  | nil =>
    intro s past calls o hbound h hrun hkeep
    cases calls with
    | nil => cases hrun
    | cons call calls =>
      obtain ⟨rfl, -⟩ : s.observed lib call = o ∧ _ := by simpa [observe] using hrun
      obtain ⟨hrep, hacc, hconf⟩ := hkeep (s.observed lib call) (by simp)
      exact (h.call hbound hrep hacc hconf).batch
  | cons m mid ih =>
    intro s past calls o hbound h hrun hkeep
    cases calls with
    | nil => cases hrun
    | cons call calls =>
      obtain ⟨rfl, htail⟩ : s.observed lib call = m ∧
          (s.call lib call).1.observe lib calls = mid ++ o :: after := by
        simpa [observe] using hrun
      obtain ⟨hrep, hacc, hconf⟩ := hkeep (s.observed lib call) (by simp)
      have hcall := @steps_call lib s hbound call past
      have hnext := (h.call hbound hrep hacc hconf).update (.deliver ..)
        (by simp [Keeps])
      exact ih (hcall.pendingBound hbound) hnext htail fun m hm => hkeep m (by simp_all)

/-! ## Runs -/

/-- Every published book is consistent, and the books of a condition are published in the order of
their exchange times. After a frame that disagrees with a token, no book of the token is published
until a full book is accepted or a later report agrees, if the entries of the token in the frames in
between report a best price. -/
theorem books_consistent_and_withheld (lib : DecimalLib) (specs : List CanonicalEventSpec)
    (calls : List Call) : let run := (new specs).observe lib calls
    (∀ o ∈ run, ∀ book, .orderBook book ∈ o.events → Consistent book) ∧
    (∀ conditionId, (bookTimes (new specs).roles conditionId (published run)).Pairwise (· ≤ ·)) ∧
    ∀ before o rest token, run = before ++ o :: rest → o.Disagrees lib token →
      NoBook token o.events ∧
      ∀ mid o' after, rest = mid ++ o' :: after →
        (∀ m ∈ mid ++ [o'], m.Reporting lib token) →
        (∀ m ∈ mid ++ [o'], ¬ m.Accepts lib token ∧ ¬ m.Confirms lib token) →
        NoBook token o'.events := by
  intro run
  obtain ⟨s, calls', -, -, hroles, hend⟩ :=
    publishedOk_of_observe (show run = run ++ [] from (append_nil run).symm)
  refine ⟨?consistent, ?order, ?withheld⟩
  case consistent =>
    intro o ho book hbook
    refine hend.events book ?_
    rw [append_nil]
    exact mem_flatMap.2 ⟨o, ho, hbook⟩
  case order =>
    intro conditionId
    simpa [hroles] using hend.order conditionId
  case withheld =>
    intro before o rest token hrun hdis
    obtain ⟨s, calls', hrest, hbound, -, hpubl⟩ := publishedOk_of_observe hrun
    cases calls' with
    | nil => cases hrest
    | cons call calls' =>
      obtain ⟨rfl, htail⟩ : o = s.observed lib call ∧
          rest = (s.call lib call).1.observe lib calls' := by
        simpa [observe] using hrest
      have hwith := withheld_of_disagrees hbound hpubl hdis
      refine ⟨hwith.batch, fun mid o' after hmid hrep hkeep => ?_⟩
      have hcall := @steps_call lib s hbound call (published before)
      refine Withheld.run mid (hcall.pendingBound hbound)
        (hwith.update (.deliver ..) (by simp [Keeps])) (htail.symm.trans hmid) ?_
      exact fun m hm => ⟨hrep m hm, hkeep m hm⟩

/-! ## A check that is lost -/

instance (lib : DecimalLib) (o : Observed) (token : String) : Decidable (o.Disagrees lib token) :=
  decidable_of_iff ((o.report lib token).any (!·.agrees (o.post.topOf token)) = true) (by
    cases h : o.report lib token <;> simp [Observed.Disagrees, h])

instance (lib : DecimalLib) (o : Observed) (token : String) : Decidable (o.Confirms lib token) :=
  decidable_of_iff ((o.report lib token).any (fun report =>
      (report.bid.isSome || report.ask.isSome) && report.agrees (o.post.topOf token)) = true) (by
    cases h : o.report lib token <;> simp [Observed.Confirms, h])

instance (token : String) (batch : List MarketEvent) : Decidable (NoBook token batch) :=
  decidable_of_iff (∀ event ∈ batch, (match event with
    | .orderBook book => decide (book.source ≠ token)
    | _ => true) = true) ⟨fun h book hmem => by simpa using h _ hmem, fun h event hmem => by
      cases event with
      | orderBook book => simpa using h book hmem
      | quote | marketDataHealth => rfl⟩

namespace LostCheck

/-- The decimals of the example. -/
def decimals : DecimalLib where
  fromStr text := [("0.40", 2 / 5), ("0.42", 21 / 50), ("0.43", 43 / 100), ("0.50", 1 / 2),
    ("0.60", 3 / 5), ("5", 5)].lookup text
  fromF64Retain _ := none
  display _ := ""

def specs : List CanonicalEventSpec := [⟨"c", "up", "down", none⟩]

/-- A buy level of the Up token, with the reported best prices. -/
def buy (price : String) (bestBid bestAsk : Option String) : PriceChangeEntry where
  assetId := "up"
  price := .string price
  size := .string "5"
  side := "BUY"
  bestBid := bestBid.map .string
  bestAsk := bestAsk.map .string

/-- The full book of a token, with one level on each side. -/
def full (token bid ask : String) (timestamp receivedAt : ℕ) : Call :=
  .book ⟨token, [⟨bid, "5"⟩], [⟨ask, "5"⟩], some timestamp⟩ receivedAt receivedAt .websocket

def frame (entry : PriceChangeEntry) (timestamp receivedAt : ℕ) : Call :=
  .priceChange ⟨[entry], some timestamp⟩ receivedAt receivedAt

/-- The third call reports a bid that the book does not have. The fourth changes the best bid and
reports nothing. -/
def calls : List Call :=
  [full "up" "0.40" "0.60" 2000 1, full "down" "0.40" "0.60" 2000 2,
    frame (buy "0.42" (some "0.50") (some "0.60")) 2001 3, frame (buy "0.43" none none) 2002 4]

/-- The book is published after the fourth call, although no report agreed with it. -/
theorem published_unchecked :
    (calls.map Call.time).Pairwise (· ≤ ·) ∧
    ∃ before o o', (new specs).observe decimals calls = before ++ [o, o'] ∧
      o.Disagrees decimals "up" ∧ ¬ o'.Accepts decimals "up" ∧ ¬ o'.Confirms decimals "up" ∧
      ¬ NoBook "up" o'.events := by
  refine ⟨by decide, _, _, _, (rfl : _ = [_, _] ++ [_, _]), ?_, ?_, ?_, ?_⟩
  · decide +kernel
  · rintro ⟨_, _, _, _, _, hcall, -⟩
    cases hcall
  · decide +kernel
  · decide +kernel

/-- The same run, where the fourth call repeats the report. -/
def reported : List Call :=
  [full "up" "0.40" "0.60" 2000 1, full "down" "0.40" "0.60" 2000 2,
    frame (buy "0.42" (some "0.50") (some "0.60")) 2001 3,
    frame (buy "0.43" (some "0.50") none) 2002 4]

theorem withheld_reported :
    ∃ before o o', (new specs).observe decimals reported = before ++ o :: [o'] ∧
      o.Disagrees decimals "up" ∧ NoBook "up" o'.events := by
  refine ⟨[_, _], _, _, rfl, by decide +kernel, ?_⟩
  refine ((books_consistent_and_withheld decimals specs reported).2.2 [_, _] _ [_] "up" rfl
    (by decide +kernel)).2 [] _ [] rfl ?_ ?_
  · rw [nil_append, forall_mem_singleton]
    rintro _ _ _ ⟨⟩
    decide +kernel
  · rw [nil_append, forall_mem_singleton]
    refine ⟨?_, by decide +kernel⟩
    rintro ⟨_, _, _, _, _, hcall, -⟩
    cases hcall

end LostCheck

end HexAgent.LocalBooks
