import HexAgent.LocalBooks.Frames
import Mathlib.Logic.Relation

/-!
# Updates of the local books

Every call of the feed is a sequence of small updates of the books and of the batch of events that
the call collects (`Update`): a level is written, a check is started or resolved, a book is
published, the health of a market is reconciled. The invariants of the following modules are proved
once for each update. A label says which token or market an update is about, and the lemmas of this
module say which labels each function of the feed takes (`Steps`).
-/

namespace HexAgent.LocalBooks

open ClobLocalBooks List AList Option Maintenance ReportedBbo

variable {book : ClobLocalBook} {now : ℕ} {quote : QuoteTick} {change : PriceChangeEntry}
  {scratch : Scratch}

/-! ## Levels -/

/-- A level that may be published. -/
def ValidLevel (price size : ℚ) : Prop := 0 < price ∧ price < 1 ∧ 0 < size

def LevelsOk (levels : Levels) : Prop :=
  ∀ (price size : ℚ), levels[price]? = some size → ValidLevel price size

def ClobLocalBook.LevelsOk (book : ClobLocalBook) : Prop :=
  LocalBooks.LevelsOk book.bids ∧ LocalBooks.LevelsOk book.asks

lemma levelsOk_empty : LevelsOk ∅ := by
  intro price size h
  simp at h

lemma LevelsOk.insert {levels : Levels} (h : LevelsOk levels) {price size : ℚ}
    (hl : ValidLevel price size) : LevelsOk (levels.insert price size) := by
  intro p q hq
  rw [Std.TreeMap.getElem?_insert] at hq
  split at hq
  · next heq =>
    obtain rfl := Std.LawfulEqCmp.eq_of_compare heq
    cases hq
    exact hl
  · exact h p q hq

lemma LevelsOk.erase {levels : Levels} (h : LevelsOk levels) (price : ℚ) :
    LevelsOk (levels.erase price) := by
  intro p q hq
  rw [Std.TreeMap.getElem?_erase] at hq
  split at hq
  · cases hq
  · exact h p q hq

namespace ClobLocalBook

variable (h : book.LevelsOk)
include h

lemma LevelsOk.setLevels (side : BookSide) {levels : Levels}
    (hl : LocalBooks.LevelsOk levels) : (book.setLevels side levels).LevelsOk := by
  cases side with
  | bid => exact ⟨hl, h.2⟩
  | ask => exact ⟨h.1, hl⟩

lemma LevelsOk.levels (side : BookSide) : LocalBooks.LevelsOk (book.levels side) := by
  cases side with
  | bid => exact h.1
  | ask => exact h.2

lemma LevelsOk.writeLevel (side : BookSide) {price size : ℚ}
    (hv : isValidChange price size = true) : (book.writeLevel side price size).LevelsOk := by
  have hv : 0 < price ∧ price < 1 ∧ 0 ≤ size := of_decide_eq_true hv
  refine h.setLevels side ?_
  split
  · exact (h.levels side).erase price
  · next hsize => exact (h.levels side).insert ⟨hv.1, hv.2.1, lt_of_le_of_ne hv.2.2 (Ne.symm hsize)⟩

end ClobLocalBook

lemma parseLevels_ok {lib : DecimalLib} {levels : List BookLevel} {parsed : Levels}
    (h : parseLevels lib levels = .ok parsed) : LevelsOk parsed := by
  -- every accepted level passes the range check before it is inserted
  unfold parseLevels at h
  have hstart := levelsOk_empty
  generalize (∅ : Levels) = start at h hstart
  induction levels generalizing start with
  | nil =>
    cases h
    exact hstart
  | cons level levels ih =>
    rw [foldlM_cons] at h
    obtain ⟨next, hnext, hrest⟩ := bind_eq_ok_iff.1 h
    obtain ⟨price, -, hnext⟩ := bind_eq_ok_iff.1 hnext
    obtain ⟨size, -, hnext⟩ := bind_eq_ok_iff.1 hnext
    refine ih next hrest ?_
    split at hnext
    · cases hnext
    next hrange =>
    cases hnext
    push Not at hrange
    exact hstart.insert ⟨hrange.1, hrange.2.1, hrange.2.2⟩

/-! ## Updates -/

/-- The books, the events of earlier calls and those of the current one. -/
structure Config where
  books : ClobLocalBooks
  past : List MarketEvent
  batch : List MarketEvent

inductive Label
  | other
  | change (token : String)
  | accept (token : String)
  | expect (token : String)
  | resolve (token : String)
  | settle (token : String)
  | quarantine (token : String)
  | fail (token : String)
  | emit (token : String)
  | replay (token : String)
  | reconcile (token : String) (time : ℕ)
  | recover (conditionId : String) (now : ℕ)
  | deliver

inductive Update : Config → Label → Config → Prop
  | sequence (s : ClobLocalBooks) (past batch : List MarketEvent) (n : ℕ) :
      Update ⟨s, past, batch⟩ .other ⟨{ s with wireSequence := n }, past, batch⟩
  | ticks (s : ClobLocalBooks) (past batch : List MarketEvent) (ticks versions) :
      Update ⟨s, past, batch⟩ .other
        ⟨{ s with currentTicks := ticks, tickVersions := versions }, past, batch⟩
  | quote (s : ClobLocalBooks) (past batch : List MarketEvent) (versions) (q : QuoteTick) :
      Update ⟨s, past, batch⟩ .other
        ⟨{ s with quoteVersions := versions }, past, batch ++ [.quote q]⟩
  | dirty (s : ClobLocalBooks) (past batch : List MarketEvent) (token : String) :
      Update ⟨s, past, batch⟩ .other ⟨s.clearDirty token, past, batch⟩
  | change (s : ClobLocalBooks) (past batch : List MarketEvent) (token : String)
      {book book' : ClobLocalBook} (hbook : s.tokenBooks.lookup token = some book)
      (hlevels : book.LevelsOk → book'.LevelsOk)
      (htime : book.exchangeTimestampNs ≤ book'.exchangeTimestampNs) :
      Update ⟨s, past, batch⟩ (.change token)
        ⟨{ s with tokenBooks := s.tokenBooks.insert token book' }, past, batch⟩
  | accept (s : ClobLocalBooks) (past batch : List MarketEvent) (token : String)
      {book : ClobLocalBook} (hlevels : book.LevelsOk) :
      Update ⟨s, past, batch⟩ (.accept token) ⟨s.acceptBook token book, past, batch⟩
  | expect (s : ClobLocalBooks) (past batch : List MarketEvent) (token : String)
      (pending : PendingBboCheck) {book : ClobLocalBook}
      (hbook : s.tokenBooks.lookup token = some book)
      (htime : pending.exchangeTimestampNs ≤ book.exchangeTimestampNs) :
      Update ⟨s, past, batch⟩ (.expect token)
        ⟨{ s with pendingBbo := s.pendingBbo.insert token pending }, past, batch⟩
  | resolve (s : ClobLocalBooks) (past batch : List MarketEvent) (token : String)
      {pending : PendingBboCheck} (hpending : s.pendingBbo.lookup token = some pending)
      (hagrees : pending.expected.agrees (s.topOf token) = true) :
      Update ⟨s, past, batch⟩ (.resolve token) ⟨{ s with
        pendingBbo := s.pendingBbo.erase token
        quarantinedTokens := s.quarantinedTokens.erase token
        degradedTokens := s.degradedTokens.erase token }, past, batch⟩
  | settle (s : ClobLocalBooks) (past batch : List MarketEvent) (token : String)
      {pending : PendingBboCheck} (hpending : s.pendingBbo.lookup token = some pending)
      (hagrees : pending.expected.agrees (s.topOf token) = true) :
      Update ⟨s, past, batch⟩ (.settle token)
        ⟨{ s with pendingBbo := s.pendingBbo.erase token }, past, batch⟩
  | quarantine (s : ClobLocalBooks) (past batch : List MarketEvent) (token : String) :
      Update ⟨s, past, batch⟩ (.quarantine token) ⟨{ s with
        pendingBbo := s.pendingBbo.erase token
        quarantinedTokens := insert token s.quarantinedTokens }, past, batch⟩
  | fail (s : ClobLocalBooks) (past batch : List MarketEvent) (token : String) :
      Update ⟨s, past, batch⟩ (.fail token)
        ⟨{ s with degradedTokens := insert token s.degradedTokens }, past, batch⟩
  | emit (s : ClobLocalBooks) (past batch : List MarketEvent) (token : String) {localNow : ℕ}
      {s' : ClobLocalBooks} {event : MarketEvent}
      (h : s.canonicalizeToken token localNow = (s', some event)) :
      Update ⟨s, past, batch⟩ (.emit token) ⟨s', past, pushLatestOrderBook batch event⟩
  | replay (s : ClobLocalBooks) (past batch : List MarketEvent) (token : String)
      {event : MarketEvent}
      (hhealthy : s.desiredHealthState (s.marketKey token) = some .healthy)
      (h : s.canonicalSnapshotForToken token = some event) :
      Update ⟨s, past, batch⟩ (.replay token) ⟨s, past, batch ++ [event]⟩
  | reconcile (s : ClobLocalBooks) (past batch : List MarketEvent) (token reason : String)
      (time localNow : ℕ) :
      Update ⟨s, past, batch⟩ (.reconcile token time)
        ⟨(s.reconcileHealth token reason time localNow).1, past,
          pushSome batch (s.reconcileHealth token reason time localNow).2⟩
  | recover (s : ClobLocalBooks) (past batch : List MarketEvent) (conditionId : String)
      {now : ℕ} (localNow : ℕ) {pending : PendingHealthRecovery}
      (hpending : s.pendingHealthRecoveries.lookup conditionId = some pending)
      (hdue : pending.dueAt ≤ now) :
      Update ⟨s, past, batch⟩ (.recover conditionId now)
        ⟨(flushHealthRecovery localNow (s, batch) conditionId).1, past,
          (flushHealthRecovery localNow (s, batch) conditionId).2⟩
  | deliver (s : ClobLocalBooks) (past batch : List MarketEvent) :
      Update ⟨s, past, batch⟩ .deliver ⟨s, past ++ batch, []⟩

/-- Updates whose labels are allowed. -/
abbrev Steps (Allowed : Label → Prop) : Config → Config → Prop :=
  Relation.ReflTransGen fun c c' => ∃ label, Allowed label ∧ Update c label c'

variable {label : Label}

namespace Steps

variable {Allowed Allowed' : Label → Prop} {c c' : Config}

lemma of_update (h : Update c label c') (hl : Allowed label) :
    Steps Allowed c c' := .single ⟨label, hl, h⟩

lemma mono (hsub : ∀ label, Allowed label → Allowed' label) (h : Steps Allowed c c') :
    Steps Allowed' c c' :=
  h.lift id fun _ _ ⟨label, hl, hu⟩ => ⟨label, hsub label hl, hu⟩

/-- A property that the allowed updates keep. -/
lemma invariant {P : Config → Prop} (h : Steps Allowed c c')
    (hstep : ∀ c label c', Allowed label → Update c label c' → P c → P c') (hc : P c) : P c' := by
  induction h with
  | refl => exact hc
  | tail _ hlast ih =>
    obtain ⟨label, hl, hu⟩ := hlast
    exact hstep _ label _ hl hu ih

end Steps

variable {Allowed : Label → Prop}

/-- A loop each of whose turns takes allowed updates and keeps an invariant. -/
lemma steps_foldl {α σ : Type} {f : σ → α → σ} (cfg : σ → Config)
    (Inv : σ → Prop) {items : List α} (start : σ) (hstart : Inv start)
    (h : ∀ acc, ∀ a ∈ items, Inv acc →
      Inv (f acc a) ∧ Steps Allowed (cfg acc) (cfg (f acc a))) :
    Inv (items.foldl f start) ∧
      Steps Allowed (cfg start) (cfg (items.foldl f start)) := by
  refine foldlRecOn (motive := fun acc => Inv acc ∧ Steps Allowed (cfg start) (cfg acc)) items f
    ⟨hstart, .refl⟩ fun acc ⟨hinv, hsteps⟩ a ha => ?_
  obtain ⟨hnext, hstep⟩ := h acc a ha hinv
  exact ⟨hnext, hsteps.trans hstep⟩

/-! ## Checks are not ahead of their books -/

/-- A pending check is not newer than the book of its token. -/
def PendingBound (s : ClobLocalBooks) : Prop :=
  ∀ token pending, s.pendingBbo.lookup token = some pending →
    ∃ book, s.tokenBooks.lookup token = some book ∧
      pending.exchangeTimestampNs ≤ book.exchangeTimestampNs

variable {s s' : ClobLocalBooks} {past batch : List MarketEvent} {token : String}

lemma canonicalizeToken_none (h : s.canonicalizeToken token now = (s', none)) : s' = s := by
  unfold canonicalizeToken at h
  split at h
  · exact (Prod.mk.inj h).1.symm
  split at h
  · exact (Prod.mk.inj h).1.symm
  split at h
  · exact (Prod.mk.inj h).1.symm
  split at h
  · cases h
  · split at h
    · exact (Prod.mk.inj h).1.symm
    · cases h

section

variable {event : MarketEvent} (h : s.canonicalizeToken token now = (s', some event))
include h

/-- What the publication of a book needs and does. -/
lemma canonicalizeToken_some :
    s.pendingBbo.lookup token = none ∧ s.marketIsQuarantined token = false ∧
    ∃ book, s.tokenBooks.lookup token = some book ∧ book.isSemanticallyValid = true ∧
      ((s.roles.lookup token = none ∧ s' = s ∧
          event = .orderBook (book.snapshot token token false now)) ∨
        ∃ role, s.roles.lookup token = some role ∧
          (s.canonicalVersions.lookup role.conditionId).any (book.version.isBefore ·) = false ∧
          event = .orderBook (book.snapshot token role.upToken role.isDown now) ∧
          s' = { s with
            canonicalVersions := s.canonicalVersions.insert role.conditionId book.version
            canonicalBooks := s.canonicalBooks.insert role.conditionId
              (book.snapshot token role.upToken role.isDown now) }) := by
  unfold canonicalizeToken at h
  split at h
  · cases h
  next hfree =>
  rw [not_or, not_isSome_iff_eq_none, Bool.not_eq_true] at hfree
  refine ⟨hfree.1, hfree.2, ?_⟩
  split at h
  · cases h
  next book hbook =>
  split at h
  · cases h
  next hval =>
  refine ⟨book, hbook, by simpa using hval, ?_⟩
  split at h
  · next hrole =>
    cases h
    exact .inl ⟨hrole, rfl, rfl⟩
  next role hrole =>
  split at h
  · cases h
  next hvers =>
  cases h
  exact .inr ⟨role, hrole, by simpa using hvers, rfl, rfl⟩

lemma canonicalizeToken_eq :
    ∃ vers books, s' = { s with canonicalVersions := vers, canonicalBooks := books } := by
  obtain ⟨-, -, book, -, -, ⟨-, rfl, -⟩ | ⟨role, -, -, -, rfl⟩⟩ := canonicalizeToken_some h
  · exact ⟨_, _, rfl⟩
  · exact ⟨_, _, rfl⟩

end

variable (s past batch token)

lemma steps_canonicalizeToken (now : ℕ) :
    Steps (· = .emit token) ⟨s, past, batch⟩
      ⟨(s.canonicalizeToken token now).1, past,
        pushLatestSome batch (s.canonicalizeToken token now).2⟩ := by
  rcases hcanon : s.canonicalizeToken token now with ⟨s', _ | event⟩
  · rw [canonicalizeToken_none hcanon]
    exact .refl
  · exact .of_update (.emit s past batch token hcanon) rfl

/-- Labels of the publication of a book. -/
def Publishes (token : String) (label : Label) : Prop := label = .other ∨ label = .emit token

lemma steps_publish : Steps (Publishes token) ⟨s, past, batch⟩
      ⟨((s.clearDirty token).canonicalizeToken token now).1, past,
        pushLatestSome batch ((s.clearDirty token).canonicalizeToken token now).2⟩ :=
  .head ⟨.other, .inl rfl, .dirty s past batch token⟩
    ((steps_canonicalizeToken _ past batch token now).mono fun _ h => .inr h)

lemma steps_canonicalizeQuote :
    Steps (· = .other) ⟨s, past, batch⟩
      ⟨(s.canonicalizeQuote quote).1, past, pushSome batch (s.canonicalizeQuote quote).2⟩ := by
  have hseq := Update.sequence s past batch (s.wireSequence + 1)
  unfold canonicalizeQuote nextSequence
  dsimp only
  split
  · exact .head ⟨_, rfl, hseq⟩ (Steps.of_update (.quote _ past batch _ _) rfl)
  · split
    · exact .of_update hseq rfl
    · exact .head ⟨_, rfl, hseq⟩ (Steps.of_update (.quote _ past batch _ _) rfl)

lemma canonicalizeQuote_eq :
    ∃ vers, (s.canonicalizeQuote quote).1 = { s with
      wireSequence := s.wireSequence + 1, quoteVersions := vers } := by
  unfold canonicalizeQuote nextSequence
  dsimp only
  split
  · exact ⟨_, rfl⟩
  · split <;> exact ⟨_, rfl⟩

/-! ## Full books -/

/-- Labels between the acceptance of a full book and the reconciliation of its market. -/
def BookLabel (token : String) (label : Label) : Prop :=
  label = .emit token ∨ label = .replay token

lemma steps_publishBook {initial : Bool} {time : ℕ} {source : ClobBookSource} :
    ∃ c, Steps (BookLabel token) ⟨s, past, []⟩ c ∧
      Update c (.reconcile token time)
        ⟨(s.publishBook token initial time now source).1, past,
          (s.publishBook token initial time now source).2⟩ := by
  have hsteps := steps_canonicalizeToken s past [] token now
  unfold publishBook
  rcases hcanon : s.canonicalizeToken token now with ⟨s', event⟩
  rw [hcanon] at hsteps
  cases event with
  | some event =>
    have hbatch : pushLatestSome [] (some event) = [event] := by cases event <;> rfl
    rw [hbatch] at hsteps
    exact ⟨_, hsteps.mono fun _ h => .inl h, .reconcile s' past [event] token _ time now⟩
  | none =>
    obtain rfl := canonicalizeToken_none hcanon
    dsimp only [none_or]
    split
    · next hinitial =>
      simp only [Bool.and_eq_true, decide_eq_true_eq] at hinitial
      rcases hrepl : s'.canonicalSnapshotForToken token with _ | event
      · exact ⟨_, .refl, .reconcile s' past [] token _ time now⟩
      · exact ⟨_, .of_update (.replay s' past [] token hinitial.2 hrepl) (.inr rfl),
          .reconcile s' past [event] token _ time now⟩
    · exact ⟨_, .refl, .reconcile s' past [] token _ time now⟩

/-! ## Entries of a frame -/

variable (lib : DecimalLib)

/-- Labels of the entries of a frame. -/
def ChangeLabel (label : Label) : Prop := label = .other ∨ ∃ token, label = .change token

variable {s past batch token lib}

/-- An entry is ignored, has an unknown side, or writes a level of its book. -/
lemma applyChange_cases {lib : DecimalLib} {ts receivedAt : ℕ} {acc : ClobLocalBooks × Scratch} :
    applyChange lib ts receivedAt acc change = acc ∨
    ∃ book, acc.1.tokenBooks.lookup change.assetId = some book ∧
      book.exchangeTimestampNs ≤ ts ∧
      (applyChange lib ts receivedAt acc change =
        ({ acc.1 with wireSequence := acc.1.wireSequence + 1 },
          acc.2.modifyRow change.assetId fun entry =>
            { entry with before := some (entry.before.getD book.top) }) ∨
      ∃ side price size, isValidChange price size = true ∧
        applyChange lib ts receivedAt acc change =
          ({ acc.1 with
            wireSequence := acc.1.wireSequence + 1
            tokenBooks := acc.1.tokenBooks.insert change.assetId
              ((book.writeLevel side price size).stamp ts (acc.1.wireSequence + 1) receivedAt) },
          (acc.2.modifyRow change.assetId fun entry =>
            { entry with before := some (entry.before.getD book.top) }).modifyRow change.assetId
              fun entry => { entry with
                hasReportedBbo := true
                reportedBbo :=
                  { bid := noteReported lib entry.reportedBbo.bid change.bestBid
                    ask := noteReported lib entry.reportedBbo.ask change.bestAsk } })) := by
  unfold applyChange
  dsimp only
  split
  · next price size book hprice hsize hbook =>
    split
    · exact .inl rfl
    next hval =>
    split
    · exact .inl rfl
    next hstale =>
    refine .inr ⟨book, hbook, not_lt.1 hstale, ?_⟩
    split
    · exact .inl rfl
    · next side _ => exact .inr ⟨side, price, size, by simpa using hval, rfl⟩
  · exact .inl rfl

/-- What the entries of a frame have noted so far. -/
structure FrameNotes (s : ClobLocalBooks) (ts : ℕ) (changes : List PriceChangeEntry)
    (acc : ClobLocalBooks × Scratch) : Prop where
  same : acc.1 = { s with
    tokenBooks := acc.1.tokenBooks, wireSequence := acc.1.wireSequence }
  entered : ∀ change ∈ changes, (acc.2.lookup change.assetId).isSome
  identity : ∀ token entry, acc.2.lookup token = some entry →
    entry.conditionIdentity = (s.roles.lookup token).bind (·.conditionIdentity)
  /-- A token with a report was changed by the frame. -/
  reported : ∀ token entry, acc.2.lookup token = some entry → entry.hasReportedBbo = true →
    entry.before.isSome ∧ ∃ book, acc.1.tokenBooks.lookup token = some book ∧
      book.exchangeTimestampNs = ts
  touched : ∀ token entry, acc.2.lookup token = some entry → entry.before.isSome →
    (acc.1.tokenBooks.lookup token).isSome
  /-- A token without a report was not changed. -/
  unreported : ∀ token, (∀ entry, acc.2.lookup token = some entry → entry.hasReportedBbo = false) →
    acc.1.tokenBooks.lookup token = s.tokenBooks.lookup token

variable {ts : ℕ} {changes : List PriceChangeEntry} {acc : ClobLocalBooks × Scratch}

/-- The notes after the row and the book of one token have changed. -/
lemma FrameNotes.modify (h : FrameNotes s ts changes acc)
    {f : PriceChangeTokenScratch → PriceChangeTokenScratch}
    {books : AList fun _ => ClobLocalBook} (sequence : ℕ)
    (hidentity : ∀ entry, (f entry).conditionIdentity = entry.conditionIdentity)
    (hentered : (acc.2.lookup token).isSome)
    (hne : ∀ t, t ≠ token → books.lookup t = acc.1.tokenBooks.lookup t)
    (hbook : (books.lookup token).isSome)
    (hrep : ∀ entry, (f entry).hasReportedBbo = true → (f entry).before.isSome ∧
      ((∃ book, books.lookup token = some book ∧ book.exchangeTimestampNs = ts) ∨
        (entry.hasReportedBbo = true ∧ books.lookup token = acc.1.tokenBooks.lookup token)))
    (hunr : ∀ entry, (f entry).hasReportedBbo = false → entry.hasReportedBbo = false ∧
      books.lookup token = acc.1.tokenBooks.lookup token) :
    FrameNotes s ts changes ({ acc.1 with tokenBooks := books, wireSequence := sequence },
      acc.2.modifyRow token f) := by
  have hrow : ∀ t entry, (acc.2.modifyRow token f).lookup t = some entry →
      (t = token ∧ ∃ old, acc.2.lookup t = some old ∧ entry = f old) ∨
        (t ≠ token ∧ acc.2.lookup t = some entry) := by
    intro t entry hent
    rw [lookup_modifyRow] at hent
    split at hent
    · next ht =>
      obtain ⟨old, hold, rfl⟩ := map_eq_some_iff.1 hent
      exact .inl ⟨ht, old, hold, rfl⟩
    · next ht => exact .inr ⟨ht, hent⟩
  constructor
  case same => rw [h.same]
  case entered =>
    intro change hchange
    have := h.entered change hchange
    rw [lookup_modifyRow]
    split
    · rwa [isSome_map]
    · exact this
  case identity =>
    intro t entry hent
    rcases hrow t entry hent with ⟨-, old, hold, rfl⟩ | ⟨-, hold⟩
    · rw [hidentity]
      exact h.identity t old hold
    · exact h.identity t entry hold
  case reported =>
    intro t entry hent hflag
    rcases hrow t entry hent with ⟨rfl, old, hold, rfl⟩ | ⟨ht, hold⟩
    · obtain ⟨hpre, hwritten | ⟨hflag', hsame⟩⟩ := hrep old hflag
      · exact ⟨hpre, hwritten⟩
      · exact ⟨hpre, hsame ▸ (h.reported t old hold hflag').2⟩
    · rw [hne t ht]
      exact h.reported t entry hold hflag
  case touched =>
    intro t entry hent hpre
    rcases hrow t entry hent with ⟨rfl, -⟩ | ⟨ht, hold⟩
    · exact hbook
    · rw [hne t ht]
      exact h.touched t entry hold hpre
  case unreported =>
    intro t hflags
    by_cases ht : t = token
    · subst ht
      obtain ⟨old, hold⟩ := isSome_iff_exists.1 hentered
      have hflag := hflags (f old) (by rw [lookup_modifyRow, if_pos rfl, hold, map_some])
      obtain ⟨hflag', hsame⟩ := hunr old hflag
      rw [hsame]
      refine h.unreported t fun entry hent => ?_
      cases hold.symm.trans hent
      exact hflag'
    · dsimp only
      rw [hne t ht]
      refine h.unreported t fun entry hent => hflags entry ?_
      rw [lookup_modifyRow, if_neg ht, hent]

lemma FrameNotes.applyChange (h : FrameNotes s ts changes acc) (hmem : change ∈ changes)
    (receivedAt : ℕ) :
    FrameNotes s ts changes (ClobLocalBooks.applyChange lib ts receivedAt acc change) := by
  have hent := h.entered change hmem
  rcases applyChange_cases with
    heq | ⟨book, hbook, -, heq | ⟨side, price, size, -, heq⟩⟩
  · rwa [heq]
  · -- an unknown side leaves the book as it is
    rw [heq]
    refine h.modify (acc.1.wireSequence + 1) (fun _ => rfl) hent (fun _ _ => rfl)
      (by rw [hbook]; rfl) (fun entry hflag => ⟨rfl, .inr ⟨hflag, rfl⟩⟩)
      fun entry hflag => ⟨hflag, rfl⟩
  · rw [heq, modifyRow_modifyRow]
    refine h.modify (acc.1.wireSequence + 1) (fun _ => rfl) hent
      (fun t ht => lookup_insert_ne ht) (by rw [lookup_insert]; rfl)
      (fun entry _ => ⟨rfl, .inl ⟨_, lookup_insert _, rfl⟩⟩) fun entry hflag => ?_
    cases hflag

lemma steps_applyChange (lib : DecimalLib) {receivedAt : ℕ} : Steps ChangeLabel ⟨acc.1, past, batch⟩
      ⟨(applyChange lib ts receivedAt acc change).1, past, batch⟩ := by
  rcases applyChange_cases with
    heq | ⟨book, hbook, hts, heq | ⟨side, price, size, hval, heq⟩⟩
  · rw [heq]
  · rw [heq]
    exact .of_update (.sequence acc.1 past batch _) (.inl rfl)
  · rw [heq]
    refine .head ⟨.other, .inl rfl, .sequence acc.1 past batch (acc.1.wireSequence + 1)⟩
      (Steps.of_update ?_ (.inr ⟨change.assetId, rfl⟩))
    exact .change { acc.1 with wireSequence := acc.1.wireSequence + 1 } past batch _ hbook
      (fun h => h.writeLevel side hval) hts

/-- The table of a frame has a fresh row for each of its tokens. -/
lemma lookup_scratchOf (s : ClobLocalBooks) (changes : List PriceChangeEntry) (token : String) :
    (s.scratchOf changes).lookup token =
      if ∃ change ∈ changes, change.assetId = token then some (s.freshScratch token) else none := by
  have hfold : ∀ (rest : List PriceChangeEntry) (scratch : Scratch),
      (rest.foldl s.enterToken scratch).lookup token = (scratch.lookup token).or
        (if ∃ change ∈ rest, change.assetId = token then some (s.freshScratch token)
          else none) := by
    intro rest
    induction rest with
    | nil => simp
    | cons change rest ih =>
      intro scratch
      rw [List.foldl_cons, ih, enterToken]
      by_cases hhead : change.assetId = token
      · subst hhead
        split
        · next hsome =>
          obtain ⟨entry, hent⟩ := isSome_iff_exists.1 hsome
          simp [hent]
        · next hnone => simp [not_isSome_iff_eq_none.1 hnone]
      · split
        · simp [hhead]
        · simp [hhead, lookup_insert_ne (Ne.symm hhead)]
  simpa [scratchOf] using hfold changes ∅

lemma frameNotes_scratchOf : FrameNotes s ts changes (s, s.scratchOf changes) := by
  have hent : ∀ change ∈ changes, ((s.scratchOf changes).lookup change.assetId).isSome := by
    intro change hmem
    rw [lookup_scratchOf, if_pos ⟨change, hmem, rfl⟩]
    rfl
  have hfresh : ∀ token entry, (s.scratchOf changes).lookup token = some entry →
      entry = s.freshScratch token := by
    intro token entry h
    rw [lookup_scratchOf] at h
    split at h
    · exact (some.inj h).symm
    · cases h
  constructor
  case same => rfl
  case entered => exact hent
  case identity =>
    intro token entry h
    rw [hfresh token entry h]
    rfl
  case reported =>
    intro token entry h hflag
    rw [hfresh token entry h] at hflag
    cases hflag
  case touched =>
    intro token entry h hpre
    rw [hfresh token entry h] at hpre
    cases hpre
  case unreported => exact fun token _ => rfl

/-! ## The validation of a frame -/

variable {pending : Option PendingBboCheck} {receivedAt : ℕ} {newer : ReportedBbo}

section

variable (h : ∀ p, pending = some p → p.exchangeTimestampNs ≤ ts)
include h

lemma nextCheck_time : (nextCheck pending ts receivedAt newer).exchangeTimestampNs ≤ ts := by
  unfold nextCheck
  dsimp only
  split
  · exact le_rfl
  next hnotOlder =>
  split
  · next heq => exact heq.le
  · cases pending with
    | none => exact le_rfl
    | some p => exact h p rfl

/-- A report that disagrees with the book leaves a check that disagrees. -/
lemma nextCheck_disagrees {actual : Top} (hnewer : newer.agrees actual = false) :
    (nextCheck pending ts receivedAt newer).expected.agrees actual = false := by
  unfold nextCheck
  dsimp only
  split
  · exact hnewer
  next hnotOlder =>
  split
  · rw [Bool.eq_false_iff] at hnewer ⊢
    refine fun hmerged => hnewer ?_
    obtain ⟨bid, ask⟩ := newer
    simp only [agrees, ReportedBbo.merge, Bool.and_eq_true] at hmerged ⊢
    -- a field that the newer report has is the merged one
    refine ⟨?_, ?_⟩
    · cases bid with
      | none => rfl
      | some _ => exact hmerged.1
    · cases ask with
      | none => rfl
      | some _ => exact hmerged.2
  · -- the check is not newer than the frame
    next hne =>
    cases pending with
    | none => exact absurd rfl hne
    | some p => exact absurd (le_antisymm (h p rfl) (not_lt.1 hnotOlder)) hne

end

/-- Labels of the validation of a token. -/
def ValidateLabel (token : String) (label : Label) : Prop :=
  label = .other ∨ label = .expect token

/-- One token of the validation. -/
lemma validateToken_spec {entry : PriceChangeTokenScratch}
    (hent : scratch.lookup token = some entry) (hpre : entry.before.isSome)
    (past : List MarketEvent) (acc : ClobLocalBooks × List MarketEvent) (receivedAt now : ℕ)
    (hbook : acc.1.tokenBooks.lookup token = some book)
    (hts : book.exchangeTimestampNs = ts)
    (hpend : ∀ p, acc.1.pendingBbo.lookup token = some p → p.exchangeTimestampNs ≤ ts) :
    (∃ vers sequence, (validateToken scratch ts receivedAt now acc token).1 = { acc.1 with
      pendingBbo := acc.1.pendingBbo.insert token
        (nextCheck (acc.1.pendingBbo.lookup token) ts receivedAt entry.reportedBbo)
      quoteVersions := vers
      wireSequence := sequence }) ∧
    Steps (ValidateLabel token) ⟨acc.1, past, acc.2⟩
      ⟨(validateToken scratch ts receivedAt now acc token).1, past,
        (validateToken scratch ts receivedAt now acc token).2⟩ := by
  obtain ⟨s, events⟩ := acc
  obtain ⟨ident, before, reported, flag, had⟩ := entry
  obtain ⟨before, rfl⟩ := isSome_iff_exists.1 hpre
  have hexp := Update.expect s past events token
    (nextCheck (s.pendingBbo.lookup token) ts receivedAt reported) hbook
    ((nextCheck_time hpend).trans hts.ge)
  simp only [validateToken, hent]
  split
  · obtain ⟨vers, hquote⟩ := canonicalizeQuote_eq _
    exact ⟨⟨vers, _, hquote⟩, .head ⟨.expect token, .inr rfl, hexp⟩
      ((steps_canonicalizeQuote _ past events).mono fun _ h => .inl h)⟩
  · exact ⟨⟨_, _, rfl⟩, .of_update hexp (.inr rfl)⟩

/-- The state after the tokens of `order` were validated. -/
structure Validated (scratch : Scratch) (ts receivedAt : ℕ) (order : List String)
    (s s' : ClobLocalBooks) : Prop where
  same : s' = { s with
    pendingBbo := s'.pendingBbo
    quoteVersions := s'.quoteVersions
    wireSequence := s'.wireSequence }
  skipped : ∀ token, token ∉ order → s'.pendingBbo.lookup token = s.pendingBbo.lookup token
  checked : ∀ token ∈ order, ∀ entry, scratch.lookup token = some entry →
    s'.pendingBbo.lookup token =
      some (nextCheck (s.pendingBbo.lookup token) ts receivedAt entry.reportedBbo)

/-- A token that a frame has to validate. -/
structure Validatable (scratch : Scratch) (ts : ℕ) (s : ClobLocalBooks) (token : String) :
    Prop where
  entry : ∃ entry, scratch.lookup token = some entry ∧ entry.before.isSome
  book : ∃ book, s.tokenBooks.lookup token = some book ∧ book.exchangeTimestampNs = ts
  bound : ∀ p, s.pendingBbo.lookup token = some p → p.exchangeTimestampNs ≤ ts

/-- The validation of a frame, token by token. -/
lemma steps_validate (past : List MarketEvent) (receivedAt now : ℕ) :
    ∀ (order : List String) (acc : ClobLocalBooks × List MarketEvent), order.Nodup →
    (∀ token ∈ order, Validatable scratch ts acc.1 token) →
    Validated scratch ts receivedAt order acc.1
        (order.foldl (validateToken scratch ts receivedAt now) acc).1 ∧
      Steps (fun label => ∃ token ∈ order, ValidateLabel token label) ⟨acc.1, past, acc.2⟩
        ⟨(order.foldl (validateToken scratch ts receivedAt now) acc).1, past,
          (order.foldl (validateToken scratch ts receivedAt now) acc).2⟩
  | [], acc, _, _ => ⟨⟨rfl, fun _ _ => rfl, by simp⟩, .refl⟩
  | token :: order, acc, hnd, hrows => by
    obtain ⟨hfresh, hnd⟩ := nodup_cons.1 hnd
    obtain ⟨⟨entry, hent, hpre⟩, ⟨book, hbook, hts⟩, hbound⟩ := hrows token (.head _)
    obtain ⟨⟨vers, sequence, heq⟩, hstep⟩ :=
      validateToken_spec hent hpre past acc receivedAt now hbook hts hbound
    rw [foldl_cons]
    generalize validateToken scratch ts receivedAt now acc token = next at heq hstep ⊢
    -- the other tokens still have their books and checks
    have hother : ∀ t, t ≠ token →
        next.1.pendingBbo.lookup t = acc.1.pendingBbo.lookup t := by
      intro t ht
      rw [heq]
      exact lookup_insert_ne ht
    obtain ⟨⟨hsame, hskipped, hcheck⟩, hsteps⟩ :=
      steps_validate past receivedAt now order next hnd (by
        intro t ht
        have hne : t ≠ token := fun h => hfresh (h ▸ ht)
        obtain ⟨hrow, hbook, hbound⟩ := hrows t (.tail _ ht)
        refine ⟨hrow, ?_, ?_⟩
        · rw [heq]
          exact hbook
        · rw [hother t hne]
          exact hbound)
    refine ⟨⟨?_, ?_, ?_⟩, ?_⟩
    · rw [hsame, heq]
    · intro t ht
      rw [hskipped t fun h => ht (.tail _ h), hother t fun h => ht (h ▸ mem_cons_self)]
    · intro t ht entry' hent'
      obtain rfl | ht := mem_cons.1 ht
      · cases hent.symm.trans hent'
        rw [hskipped t hfresh, heq]
        exact lookup_insert _
      · have hne : t ≠ token := fun h => hfresh (h ▸ ht)
        rw [hcheck t ht entry' hent', hother t hne]
    · refine .trans (hstep.mono fun _ h => ⟨token, mem_cons_self, h⟩) (hsteps.mono ?_)
      rintro label ⟨t, ht, h⟩
      exact ⟨t, mem_cons_of_mem _ ht, h⟩

/-! ## Release and reconciliation -/

variable (s past batch token)

/-- Labels of a touched token. -/
def ReleaseLabel (token : String) (label : Label) : Prop :=
  label = .other ∨ label = .resolve token ∨ label = .emit token

lemma steps_releaseToken (scratch : Scratch) (past : List MarketEvent) (now : ℕ)
    (acc : ClobLocalBooks × List MarketEvent) (token : String) :
    Steps (ReleaseLabel token) ⟨acc.1, past, acc.2⟩
      ⟨(releaseToken scratch now acc token).1, past,
        (releaseToken scratch now acc token).2⟩ := by
  obtain ⟨s, events⟩ := acc
  unfold releaseToken
  dsimp only
  split
  · exact .refl
  have hresolve : Steps (ReleaseLabel token) ⟨s, past, events⟩
      ⟨(s.resolvePendingIfReady token).1, past, events⟩ := by
    unfold resolvePendingIfReady
    split
    · exact .refl
    next pending hpend =>
    split
    · next hready =>
      exact .of_update (.resolve s past events token hpend hready.1) (.inr (.inl rfl))
    · exact .refl
  refine hresolve.trans ?_
  split
  · refine (steps_publish _ past events token).mono ?_
    rintro label (h | h)
    · exact .inl h
    · exact .inr (.inr h)
  · exact .refl

/-- One turn of the last phase: its market was reconciled before, or it is now. -/
lemma reconcileToken_cases (scratch : Scratch) (past : List MarketEvent) (recvAt now : ℕ)
    (acc : ClobLocalBooks × List MarketEvent × List String) (token : String) :
    ∃ out, reconcileToken scratch recvAt now acc token = out ∧
      ((out = acc ∧ ∃ prior ∈ acc.2.2, acc.1.sameMarket scratch prior token = true) ∨
        (out.2.2 = acc.2.2 ++ [token] ∧
          Update ⟨acc.1, past, acc.2.1⟩ (.reconcile token recvAt) ⟨out.1, past, out.2.1⟩)) := by
  obtain ⟨s, events, done⟩ := acc
  refine ⟨_, rfl, ?_⟩
  unfold reconcileToken
  dsimp only
  split
  · next hprior => exact .inl ⟨rfl, any_eq_true.1 hprior⟩
  · exact .inr ⟨rfl, .reconcile s past events token _ recvAt now⟩

/-! ## Timers -/

/-- Labels of a check whose time is over, before its market is reconciled. -/
def FinalizeLabel (token : String) (label : Label) : Prop :=
  label = .other ∨ label = .settle token ∨ label = .quarantine token ∨ label = .emit token

lemma steps_finalizePendingBbo {emitDiagnostic : Bool} :
    Steps (FinalizeLabel token) ⟨s, past, batch⟩
      ⟨(s.finalizePendingBbo token now emitDiagnostic).1, past,
        pushLatestSome batch (s.finalizePendingBbo token now emitDiagnostic).2.1⟩ := by
  unfold finalizePendingBbo
  split
  · exact .refl
  next pending hpend =>
  dsimp only
  split
  · next hready =>
    refine .head ⟨.settle token, .inr (.inl rfl), .settle s past batch token hpend hready.1⟩ ?_
    refine (steps_publish _ past batch token).mono ?_
    rintro label (h | h)
    · exact .inl h
    · exact .inr (.inr (.inr h))
  · exact .of_update (.quarantine s past batch token) (.inr (.inr (.inl rfl)))

lemma steps_deferredToken (past : List MarketEvent) (now localNow : ℕ)
    (activeTokens : List String) (acc : ClobLocalBooks × ClobDeferredBatch) (token : String) :
    ∃ c, Steps (FinalizeLabel token) ⟨acc.1, past, acc.2.events⟩ c ∧
      Update c (.reconcile token now)
        ⟨(deferredToken now localNow activeTokens acc token).1, past,
          (deferredToken now localNow activeTokens acc token).2.events⟩ := by
  obtain ⟨s, events, repair⟩ := acc
  exact ⟨_, steps_finalizePendingBbo s past events token, .reconcile _ past _ token _ now localNow⟩

lemma flushHealthRecovery_append (now : ℕ) (s : ClobLocalBooks)
    (earlier events : List MarketEvent) (cid : String) :
    flushHealthRecovery now (s, earlier ++ events) cid =
      ((flushHealthRecovery now (s, events) cid).1,
        earlier ++ (flushHealthRecovery now (s, events) cid).2) := by
  unfold flushHealthRecovery
  dsimp only
  split
  · rfl
  · split
    · rw [append_assoc]
    · rfl

/-- A recovery is not changed before its turn. -/
lemma lookup_flushHealthRecovery {acc : ClobLocalBooks × List MarketEvent} {cid c : String}
    {pending : PendingHealthRecovery}
    (h : (flushHealthRecovery now acc cid).1.pendingHealthRecoveries.lookup c = some pending) :
    acc.1.pendingHealthRecoveries.lookup c = some pending := by
  unfold flushHealthRecovery at h
  dsimp only at h
  split at h
  · exact h
  · split at h <;> exact lookup_of_erase h

lemma steps_flushHealthRecoveriesDue (now localNow : ℕ) :
    Steps (fun label => ∃ c, label = .recover c now) ⟨s, past, batch⟩
      ⟨(s.flushHealthRecoveriesDue now localNow).1, past,
        batch ++ (s.flushHealthRecoveriesDue now localNow).2⟩ := by
  -- what is pending at a turn was pending at the start
  let Inv (acc : ClobLocalBooks × List MarketEvent) : Prop :=
    ∀ c pending, acc.1.pendingHealthRecoveries.lookup c = some pending →
      s.pendingHealthRecoveries.lookup c = some pending
  have hsteps : Inv (s.flushHealthRecoveriesDue now localNow) ∧
      Steps (fun label => ∃ c, label = .recover c now) ⟨s, past, batch ++ []⟩
        ⟨(s.flushHealthRecoveriesDue now localNow).1, past,
          batch ++ (s.flushHealthRecoveriesDue now localNow).2⟩ := by
    refine steps_foldl (fun acc =>
      ⟨acc.1, past, batch ++ acc.2⟩) Inv (s, []) (fun _ _ h => h) ?_
    rintro ⟨s', events⟩ c hc hinv
    refine ⟨fun c' pending h => hinv c' pending (lookup_flushHealthRecovery h), ?_⟩
    rcases hget : s'.pendingHealthRecoveries.lookup c with _ | pending
    · have heq : flushHealthRecovery localNow (s', events) c = (s', events) := by
        simp only [flushHealthRecovery, hget]
      rw [heq]
    · rw [dueRecoveries, List.mem_insertionSort, List.mem_map] at hc
      obtain ⟨e, he, rfl⟩ := hc
      obtain ⟨he, htime⟩ := mem_filter.1 he
      obtain rfl := some.inj ((mem_lookup_iff.2 he).symm.trans (hinv e.1 pending hget))
      have hrec := Update.recover s' past (batch ++ events) e.1 localNow hget
        (of_decide_eq_true htime)
      rw [flushHealthRecovery_append] at hrec
      exact .of_update hrec ⟨e.1, rfl⟩
  simpa using hsteps.2

/-- Books that `flush_due` publishes. -/
lemma steps_flushDue (now localNow : ℕ) :
    Steps (fun label => ∃ token, Publishes token label) ⟨s, past, []⟩
      ⟨(s.flushDue now localNow).1, past, (s.flushDue now localNow).2⟩ :=
  (steps_foldl (fun acc => ⟨acc.1, past, acc.2⟩)
    (fun _ => True) (s, []) trivial fun acc token _ _ =>
      ⟨trivial, (steps_publish acc.1 past acc.2 token).mono fun _ h => ⟨token, h⟩⟩).2

lemma steps_tickSize {change : TickSizeChange} :
    Steps (· = .other) ⟨s, past, batch⟩ ⟨s.applyTickSizeChange change, past, batch⟩ := by
  unfold applyTickSizeChange
  split
  · dsimp only
    split
    · exact .refl
    · split
      · exact .refl
      · exact .of_update (.ticks s past batch _ _) rfl
  · exact .refl

/-! ## What an update leaves unchanged -/

lemma lookup_clearDirty (t : String) :
    (s.clearDirty token).tokenBooks.lookup t = if t = token then
      (s.tokenBooks.lookup t).map fun book => { book with dirtySince := none }
    else s.tokenBooks.lookup t :=
  lookup_modifyRow _ _ _ _

/-- Reconciliation changes the published health and the recoveries only. -/
lemma reconcileHealth_eq {reason : String} {time : ℕ} :
    ∃ states recoveries, (s.reconcileHealth token reason time now).1 = { s with
      healthStates := states, pendingHealthRecoveries := recoveries } := by
  unfold reconcileHealth
  dsimp only
  split
  · exact ⟨_, _, rfl⟩
  · split
    · exact ⟨_, _, rfl⟩
    · split
      · split <;> exact ⟨_, _, rfl⟩
      · split <;> exact ⟨_, _, rfl⟩

/-- Updates of the publications and of the health of a market. -/
def Label.isReport : Label → Bool
  | .emit _ | .reconcile .. | .recover .. => true
  | _ => false

lemma Update.report_eq {c c' : Config} (h : Update c label c') (hl : label.isReport = true) :
    c'.books = { c.books with
      canonicalVersions := c'.books.canonicalVersions
      canonicalBooks := c'.books.canonicalBooks
      healthStates := c'.books.healthStates
      pendingHealthRecoveries := c'.books.pendingHealthRecoveries } := by
  cases h with
  | emit _ _ _ _ h =>
    obtain ⟨_, _, rfl⟩ := canonicalizeToken_eq h
    rfl
  | reconcile s _ _ token reason time now =>
    obtain ⟨_, _, heq⟩ := reconcileHealth_eq s token
    rw [heq]
  | recover s _ batch cid now =>
    unfold flushHealthRecovery
    dsimp only
    split
    · rfl
    · split <;> rfl
  | _ => cases hl

lemma Update.roles {c c' : Config} (h : Update c label c') : c'.books.roles = c.books.roles := by
  have hreport := h.report_eq
  cases h with
  | emit | reconcile | recover => rw [hreport rfl]
  | sequence | ticks | quote | dirty | change | accept | expect | resolve | settle | quarantine
  | fail | replay | deliver => rfl

lemma Steps.roles {c c' : Config} (h : Steps Allowed c c') : c'.books.roles = c.books.roles :=
  h.invariant (P := fun d => d.books.roles = c.books.roles) (fun _ _ _ _ hu hr => hu.roles.trans hr)
    rfl

lemma Update.pendingBound {c c' : Config} (h : Update c label c') (hb : PendingBound c.books) :
    PendingBound c'.books := by
  have hreport := h.report_eq
  cases h with
  | emit | reconcile | recover =>
    rw [hreport rfl]
    exact hb
  | sequence | ticks | quote | fail | replay | deliver => exact hb
  | dirty s _ _ token =>
    intro t pending hpend
    obtain ⟨book, hbook, htime⟩ := hb t pending hpend
    rw [lookup_clearDirty]
    split
    · exact ⟨{ book with dirtySince := none }, by rw [hbook]; rfl, htime⟩
    · exact ⟨book, hbook, htime⟩
  | change s _ _ token hbook hlevs htime =>
    intro t pending hpend
    obtain ⟨old, hold, hle⟩ := hb t pending hpend
    rw [lookup_insert_eq_ite]
    split
    · next heq =>
      subst heq
      cases hbook.symm.trans hold
      exact ⟨_, rfl, hle.trans htime⟩
    · exact ⟨old, hold, hle⟩
  | accept s _ _ token hlevs =>
    intro t pending hpend
    have hne : t ≠ token := by
      rintro rfl
      simp [acceptBook] at hpend
    simp only [acceptBook, lookup_erase_ne hne] at hpend
    obtain ⟨old, hold, hle⟩ := hb t pending hpend
    refine ⟨old, ?_, hle⟩
    simpa only [acceptBook, lookup_insert_ne hne] using hold
  | expect s _ _ token check hbook htime =>
    intro t pending hpend
    rw [lookup_insert_eq_ite] at hpend
    split at hpend
    · next heq =>
      subst heq
      cases hpend
      exact ⟨_, hbook, htime⟩
    · exact hb t pending hpend
  | resolve s _ _ token | settle s _ _ token | quarantine s _ _ token =>
    intro t pending hpend
    have hne : t ≠ token := by
      rintro rfl
      simp at hpend
    simp only [lookup_erase_ne hne] at hpend
    exact hb t pending hpend

lemma Steps.pendingBound {c c' : Config} (h : Steps Allowed c c')
    (hb : PendingBound c.books) : PendingBound c'.books :=
  h.invariant (P := fun d => PendingBound d.books) (fun _ _ _ _ hu => hu.pendingBound) hb

end HexAgent.LocalBooks
