import HexAgent.LocalBooks.Calls

/-!
# Published books are consistent

Levels are checked when they are written, so every book of a token has prices strictly between zero
and one and positive sizes. A book is published only if its best prices do not cross, and the
complement of a Down book keeps both properties. The version of a condition never goes back, and the
cached book of a condition is the one of its version; hence the published books of a condition are
in the order of their exchange times.
-/

namespace HexAgent.LocalBooks

open ClobLocalBooks List Option ClobLocalBook List.Sublist Std.TreeMap

variable {book : ClobLocalBook}

/-! ## Consistent snapshots -/

/-- Levels from the best to the worst, in range, and not crossed. -/
structure Consistent (book : OrderBookSnapshot) : Prop where
  levels : ∀ level ∈ book.bids ++ book.asks, ValidLevel level.price level.quantity
  bids_order : book.bids.Pairwise fun a b => b.price < a.price
  asks_order : book.asks.Pairwise fun a b => a.price < b.price
  uncrossed : ∀ bid ∈ book.bids.head?, ∀ ask ∈ book.asks.head?, bid.price < ask.price

lemma toList_pairwise (levels : Levels) : levels.toList.Pairwise fun a b => a.1 < b.1 :=
  ordered_keys_toList.imp fun h => compare_lt_iff_lt.1 h

lemma LevelsOk.of_mem {levels : Levels} (h : LevelsOk levels) {level : ℚ × ℚ}
    (hmem : level ∈ levels.toList) : ValidLevel level.1 level.2 :=
  h level.1 level.2 (mem_toList_iff_getElem?_eq_some.1 hmem)

lemma validLevel_complement {price size : ℚ} (h : ValidLevel price size) :
    ValidLevel (1 - price) size :=
  ⟨sub_pos.2 h.2.1, sub_lt_self 1 h.1, h.2.2⟩

lemma lt_of_isSemanticallyValid (h : book.isSemanticallyValid = true) {bid ask : ℚ × ℚ}
    (hbid : bid ∈ book.bids.toList.getLast?) (hask : ask ∈ book.asks.toList.head?) :
    bid.1 < ask.1 := by
  have htop : book.top = (some bid.1, some ask.1) := by
    unfold top
    rw [← map_fst_toList_eq_keys, ← map_fst_toList_eq_keys,
      getLast?_map, head?_map, hbid, hask]
    rfl
  simpa [isSemanticallyValid, htop] using h

lemma snapshot_consistent (hlevs : book.LevelsOk) (hval : book.isSemanticallyValid = true)
    (source sym : String) (mirrorDown : Bool) (now : ℕ) :
    Consistent (book.snapshot source sym mirrorDown now) := by
  have hbids := toList_pairwise book.bids
  have hasks := toList_pairwise book.asks
  cases mirrorDown with
  | false =>
    constructor
    case levels =>
      intro level hlev
      simp only [snapshot, Bool.false_eq_true, if_false, mem_append,
        List.mem_map, List.mem_reverse] at hlev
      rcases hlev with ⟨l, hl, rfl⟩ | ⟨l, hl, rfl⟩
      · exact hlevs.1.of_mem hl
      · exact hlevs.2.of_mem hl
    case bids_order => exact (pairwise_reverse.2 hbids).map _ fun _ _ h => h
    case asks_order => exact hasks.map _ fun _ _ h => h
    case uncrossed =>
      intro bid hbid ask hask
      simp only [snapshot, Bool.false_eq_true, if_false, head?_map,
        head?_reverse, mem_def, map_eq_some_iff] at hbid hask
      obtain ⟨b, hb, rfl⟩ := hbid
      obtain ⟨a, ha, rfl⟩ := hask
      exact lt_of_isSemanticallyValid hval hb ha
  | true =>
    -- bids and asks are exchanged, and the complement reverses their order
    constructor
    case levels =>
      intro level hlev
      simp only [snapshot, if_true, List.mem_append, List.mem_map,
        mem_reverse] at hlev
      rcases hlev with ⟨l, hl, rfl⟩ | ⟨l, hl, rfl⟩
      · exact validLevel_complement (hlevs.2.of_mem hl)
      · exact validLevel_complement (hlevs.1.of_mem hl)
    case bids_order => exact hasks.map _ fun _ _ h => sub_lt_sub_left h 1
    case asks_order => exact (pairwise_reverse.2 hbids).map _ fun _ _ h => sub_lt_sub_left h 1
    case uncrossed =>
      intro bid hbid ask hask
      simp only [snapshot, if_true, head?_map, head?_reverse,
        mem_def, map_eq_some_iff] at hbid hask
      obtain ⟨a, ha, rfl⟩ := hbid
      obtain ⟨b, hb, rfl⟩ := hask
      exact sub_lt_sub_left (lt_of_isSemanticallyValid hval hb ha) 1

/-! ## Times of the books of a condition -/

abbrev Roles := AList fun _ : String => ClobCanonicalRole

/-- The condition of a registered token. -/
def conditionOf (roles : Roles) (token : String) : Option String :=
  (roles.lookup token).map (·.conditionId)

/-- Exchange time of an event that is a book of the condition. -/
def bookTime (roles : Roles) (conditionId : String) : MarketEvent → Option ℕ
  | .orderBook book =>
    if conditionOf roles book.source = some conditionId then some book.exchangeTimestampNs else none
  | _ => none

def bookTimes (roles : Roles) (conditionId : String) (events : List MarketEvent) : List ℕ :=
  events.filterMap (bookTime roles conditionId)

/-- The events after a push come from those before it and the new one. -/
lemma pushLatestOrderBook_sublist (events : List MarketEvent) (event : MarketEvent) :
    (pushLatestOrderBook events event).Sublist (events ++ [event]) := by
  unfold pushLatestOrderBook
  split
  · exact eraseP_sublist.append (refl _)
  · exact refl _

/-! ## The invariant -/

/-- What holds of the published books between any two updates. -/
structure PublishedOk (c : Config) : Prop where
  books : ∀ token book, c.books.tokenBooks.lookup token = some book → book.LevelsOk
  cached : ∀ conditionId version, c.books.canonicalVersions.lookup conditionId = some version →
    ∃ snapshot, c.books.canonicalBooks.lookup conditionId = some snapshot ∧
      snapshot.exchangeTimestampNs = version.exchangeTimestampNs ∧ Consistent snapshot ∧
      conditionOf c.books.roles snapshot.source = some conditionId
  events : ∀ book, .orderBook book ∈ c.past ++ c.batch → Consistent book
  order : ∀ conditionId, (bookTimes c.books.roles conditionId (c.past ++ c.batch)).Pairwise (· ≤ ·)
  /-- No published book is newer than the version of its condition. -/
  bound : ∀ conditionId, ∀ time ∈ bookTimes c.books.roles conditionId (c.past ++ c.batch),
    ∃ version, c.books.canonicalVersions.lookup conditionId = some version ∧
      time ≤ version.exchangeTimestampNs

namespace PublishedOk

variable {s s' : ClobLocalBooks} {past batch batch' : List MarketEvent} {token : String}

section

variable {event : MarketEvent} (h : PublishedOk ⟨s, past, batch⟩)

include h

/-- A change of the state that keeps levels, versions, cached books and roles. -/
lemma of_same (hroles : s'.roles = s.roles) (hvers : s'.canonicalVersions = s.canonicalVersions)
    (hcached : s'.canonicalBooks = s.canonicalBooks)
    (hbooks : ∀ token book, s'.tokenBooks.lookup token = some book → book.LevelsOk) :
    PublishedOk ⟨s', past, batch⟩ where
  books := hbooks
  cached := by simpa only [hroles, hvers, hcached] using h.cached
  events := h.events
  order := by simpa only [hroles] using h.order
  bound := by simpa only [hroles, hvers] using h.bound

/-- A new event that is not a book. -/
lemma push_other (hev : ∀ book, event ≠ .orderBook book) :
    PublishedOk ⟨s, past, batch ++ [event]⟩ := by
  have htimes : ∀ cid, bookTimes s.roles cid (past ++ (batch ++ [event])) =
      bookTimes s.roles cid (past ++ batch) := by
    intro cid
    have hnone : bookTime s.roles cid event = none := by
      cases event with
      | orderBook book => exact absurd rfl (hev book)
      | quote | marketDataHealth => rfl
    simp [bookTimes, hnone]
  exact {
    books := h.books
    cached := h.cached
    events := by
      intro book hmem
      rw [← append_assoc, mem_append, mem_singleton] at hmem
      exact h.events book (hmem.resolve_right fun heq => hev book heq.symm)
    order := fun cid => by
      rw [htimes]
      exact h.order cid
    bound := fun cid => by
      rw [htimes]
      exact h.bound cid }

lemma pushSome_other {event : Option MarketEvent} (hev : ∀ book, event ≠ some (.orderBook book)) :
    PublishedOk ⟨s, past, pushSome batch event⟩ := by
  cases event with
  | none => exact h
  | some event => exact h.push_other fun book heq => hev book (heq ▸ rfl)

/-- A new book, at the version of its condition, whichever older book it replaces. -/
lemma push_book {book : OrderBookSnapshot} (hbook : Consistent book)
    (hvers : ∀ cid, conditionOf s.roles book.source = some cid →
      ∃ version, s.canonicalVersions.lookup cid = some version ∧
        book.exchangeTimestampNs = version.exchangeTimestampNs)
    (hsub : batch'.Sublist (batch ++ [.orderBook book])) : PublishedOk ⟨s, past, batch'⟩ := by
  have hsub' : (past ++ batch').Sublist ((past ++ batch) ++ [.orderBook book]) := by
    rw [append_assoc]
    exact (refl past).append hsub
  have htimes : ∀ cid, bookTimes s.roles cid ((past ++ batch) ++
      [.orderBook book]) = bookTimes s.roles cid (past ++ batch) ++
        (bookTime s.roles cid (.orderBook book)).toList := by
    intro cid
    rw [bookTimes, filterMap_append]
    cases htime : bookTime s.roles cid (.orderBook book) <;> simp [bookTimes, htime]
  have hlast : ∀ cid, ∀ time ∈ (bookTime s.roles cid (.orderBook book)).toList,
      ∃ version, s.canonicalVersions.lookup cid = some version ∧
        time = version.exchangeTimestampNs := by
    intro cid time htime
    simp only [bookTime] at htime
    split at htime
    · next hcond =>
      obtain ⟨version, hget, heq⟩ := hvers cid hcond
      obtain rfl : time = book.exchangeTimestampNs := by simpa using htime
      exact ⟨version, hget, heq⟩
    · cases htime
  have hsorted : ∀ cid, (bookTimes s.roles cid ((past ++ batch) ++
      [.orderBook book])).Pairwise (· ≤ ·) := by
    intro cid
    rw [htimes, pairwise_append]
    refine ⟨h.order cid, ?_, fun a ha b hb => ?_⟩
    · cases bookTime s.roles cid (.orderBook book) <;> simp
    · -- every earlier book is bounded by the version, which is the time of the new one
      obtain ⟨version, hget, hle⟩ := h.bound cid a ha
      obtain ⟨ver', hget', rfl⟩ := hlast cid b hb
      cases hget.symm.trans hget'
      exact hle
  exact {
    books := h.books
    cached := h.cached
    events := by
      intro other hmem
      rcases mem_append.1 (hsub'.subset hmem) with hmem | hmem
      · exact h.events other hmem
      · cases mem_singleton.1 hmem
        exact hbook
    order := fun cid => (hsorted cid).sublist (hsub'.filterMap _)
    bound := by
      intro cid time htime
      have htime := (hsub'.filterMap (bookTime s.roles cid)).subset htime
      change time ∈ bookTimes _ _ _ at htime
      rw [htimes, mem_append] at htime
      rcases htime with htime | htime
      · exact h.bound cid time htime
      · obtain ⟨version, hget, rfl⟩ := hlast cid time htime
        exact ⟨version, hget, le_rfl⟩ }

/-- Publication of the book of a token. -/
lemma emit {now : ℕ} (hcanon : s.canonicalizeToken token now = (s', some event)) :
    PublishedOk ⟨s', past, pushLatestOrderBook batch event⟩ := by
  obtain ⟨-, -, book, hbook, hval, ⟨hrole, rfl, rfl⟩ | ⟨role, hrole, hvers, rfl, rfl⟩⟩ :=
    canonicalizeToken_some hcanon
  · refine h.push_book (snapshot_consistent (h.books token book hbook) hval ..) ?_
      (pushLatestOrderBook_sublist ..)
    intro cid hcond
    simp [snapshot, conditionOf, hrole] at hcond
  · have hcons := snapshot_consistent (h.books token book hbook) hval token role.upToken
      role.isDown now
    have hcond : conditionOf s.roles token = some role.conditionId := by
      rw [conditionOf, hrole]
      rfl
    -- the version of the condition moves to the book, and not back
    have hmoved : PublishedOk ⟨{ s with
        canonicalVersions := s.canonicalVersions.insert role.conditionId book.version
        canonicalBooks := s.canonicalBooks.insert role.conditionId
          (book.snapshot token role.upToken role.isDown now) }, past, batch⟩ := {
      books := h.books
      cached := by
        intro cid version hget
        rw [AList.lookup_insert_eq_ite] at hget ⊢
        split at hget
        · next heq =>
          subst heq
          cases hget
          rw [if_pos rfl]
          exact ⟨_, rfl, rfl, hcons, hcond⟩
        next hne =>
        rw [if_neg hne]
        exact h.cached cid version hget
      events := h.events
      order := h.order
      bound := by
        intro cid time htime
        obtain ⟨version, hget, hle⟩ := h.bound cid time htime
        rw [AList.lookup_insert_eq_ite]
        split
        · next heq =>
          subst heq
          refine ⟨book.version, rfl, hle.trans ?_⟩
          simp only [hget, any_some, ClobBookVersion.isBefore, Bool.or_eq_false_iff,
            decide_eq_false_iff_not, not_lt] at hvers
          exact hvers.1
        · exact ⟨version, hget, hle⟩ }
    refine hmoved.push_book hcons ?_ (pushLatestOrderBook_sublist ..)
    intro cid hconditionId
    cases hcond.symm.trans hconditionId
    exact ⟨book.version, AList.lookup_insert _, rfl⟩

end

lemma health_ne_orderBook (s : ClobLocalBooks) (token reason : String) (time now : ℕ)
    (book : OrderBookSnapshot) :
    (s.reconcileHealth token reason time now).2 ≠ some (.orderBook book) := by
  unfold reconcileHealth healthEvent
  dsimp only
  split
  · simp
  · split
    · simp
    · split
      · split <;> simp
      · split <;> simp

/-- One update keeps the invariant. -/
lemma update {c c' : Config} {label : Label} (hu : Update c label c') (h : PublishedOk c) :
    PublishedOk c' := by
  cases hu with
  | sequence | ticks | expect | resolve | settle | quarantine | fail =>
    exact h.of_same rfl rfl rfl h.books
  | quote s past batch vers q =>
    have hs : PublishedOk ⟨{ s with quoteVersions := vers }, past, batch⟩ :=
      h.of_same rfl rfl rfl h.books
    exact hs.push_other (by rintro _ ⟨⟩)
  | dirty s past batch token =>
    refine h.of_same rfl rfl rfl fun t book hbook => ?_
    rw [lookup_clearDirty] at hbook
    split at hbook
    · obtain ⟨old, hold, rfl⟩ := map_eq_some_iff.1 hbook
      exact h.books t old hold
    · exact h.books t book hbook
  | change s past batch token hold hlevs htime =>
    exact h.of_same rfl rfl rfl (AList.forall_lookup_insert (hlevs (h.books token _ hold)) h.books)
  | accept s past batch token hlevs =>
    exact h.of_same rfl rfl rfl (AList.forall_lookup_insert hlevs h.books)
  | emit s past batch token hcanon => exact h.emit hcanon
  | replay s past batch token hhealthy hrepl =>
    -- the repeated book is the one of the version of its condition
    unfold canonicalSnapshotForToken at hrepl
    split at hrepl
    · cases hrepl
    next role hrole =>
    split at hrepl
    · cases hrepl
    next version hvers =>
    obtain ⟨snapshot, hcached, htime, hcons, hcond⟩ :=
      h.cached role.conditionId version hvers
    rw [hcached] at hrepl
    cases hrepl
    refine h.push_book hcons ?_ (refl _)
    intro cid hconditionId
    cases hcond.symm.trans hconditionId
    exact ⟨version, hvers, htime⟩
  | reconcile s past batch token reason time now =>
    obtain ⟨states, recoveries, heq⟩ := reconcileHealth_eq s token
    refine pushSome_other ?_ (health_ne_orderBook s token reason time now)
    rw [heq]
    exact h.of_same rfl rfl rfl h.books
  | recover s past batch cid now =>
    unfold flushHealthRecovery
    dsimp only
    split
    · exact h
    · split
      · refine push_other ?_ (by rintro _ ⟨⟩)
        exact h.of_same rfl rfl rfl h.books
      · exact h.of_same rfl rfl rfl h.books
  | deliver s past batch =>
    exact ⟨h.books, h.cached, by simpa using h.events, by simpa using h.order,
      by simpa using h.bound⟩

end PublishedOk

variable {specs : List CanonicalEventSpec}

lemma publishedOk_new : PublishedOk ⟨new specs, [], []⟩ := by
  obtain ⟨roles, ticks, books, heq⟩ := new_eq specs
  rw [heq]
  exact ⟨by simp, by simp, by simp, by simp [bookTimes], by simp [bookTimes]⟩

lemma Steps.publishedOk {Allowed : Label → Prop} {c c' : Config} (h : Steps Allowed c c')
    (hc : PublishedOk c) : PublishedOk c' :=
  h.invariant (fun _ _ _ _ hu => PublishedOk.update hu) hc

/-- The invariant at any point of a run. -/
lemma publishedOk_of_observe {lib : DecimalLib} {calls : List Call} {before rest : List Observed}
    (h : (new specs).observe lib calls = before ++ rest) :
    ∃ s calls', rest = s.observe lib calls' ∧ PendingBound s ∧ s.roles = (new specs).roles ∧
      PublishedOk ⟨s, published before, []⟩ := by
  obtain ⟨s, calls', hrest, hbound, hsteps⟩ := observe_split (pendingBound_new specs) h []
  exact ⟨s, calls', hrest, hbound, hsteps.roles, hsteps.publishedOk publishedOk_new⟩

end HexAgent.LocalBooks
