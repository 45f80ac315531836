import HexAgent.Redeem.Conservation

/-!
# The conditions that an attribution selects

A condition becomes a candidate only when it has one token pair, shared with no other condition, and
complementary settled values (`Attributable`). Different candidates therefore burn different tokens
(`nodup_tokens`), and every winning token pays more than the tolerance, so that a payout within the
tolerance is zero (`payout_eq_zero_or_lt`).
-/

namespace HexAgent.Redeem

open Account List Option Candidate

variable {α : Type*} {c : Candidate} {down : String}

namespace WalletState

variable {tol : Tolerance} {obs : Observation} {s : WalletState} {conditionId : String}
  {removed : List Removal} {legs : List (String × ℚ)} {r : Removal} {up : String}
  {candidates : List Candidate}

/-- The condition has exactly one known token pair, no other condition uses its tokens, and they are
settled at one and zero. -/
structure Attributable (s : WalletState) (conditionId up down : String) : Prop where
  pairs : s.pairsOf conditionId = [(up, down)]
  tokenConditions_up : s.tokenConditions up = [conditionId]
  tokenConditions_down : s.tokenConditions down = [conditionId]
  values : s.settledTokenValues.lookup up = some 1 ∧ s.settledTokenValues.lookup down = some 0 ∨
    s.settledTokenValues.lookup up = some 0 ∧ s.settledTokenValues.lookup down = some 1

lemma mem_tokenConditions (h : (up, down) ∈ s.pairsOf conditionId) :
    conditionId ∈ s.tokenConditions up ∧ conditionId ∈ s.tokenConditions down := by
  obtain ⟨e, he, hpair⟩ := mem_map.1 (mem_dedup.1 h)
  obtain ⟨hmem, hcond⟩ := mem_filter.1 he
  have hcond : e.1 = conditionId := of_decide_eq_true hcond
  have hfound token (htok : e.2.1 = token ∨ e.2.2 = token) :
      conditionId ∈ s.tokenConditions token := by
    refine mem_dedup.2 (mem_map.2 ⟨e, mem_filter.2 ⟨hmem, ?_⟩, hcond⟩)
    exact decide_eq_true htok
  exact ⟨hfound up (.inl (congrArg Prod.fst hpair)), hfound down (.inr (congrArg Prod.snd hpair))⟩

lemma eq_singleton_of_mem {l : List α} {a : α} (hlen : l.length = 1) (ha : a ∈ l) : l = [a] := by
  obtain ⟨b, rfl⟩ := length_eq_one_iff.1 hlen
  rw [mem_singleton.1 ha]

/-! ## The removed tokens of a pair -/

/-- The tokens that the wallet lacks are removed, with the lacking quantity. -/
lemma mem_removedLegs (h : s.removedLegs tol legs = some removed) :
    r ∈ removed ↔ (r.tokenId, r.value) ∈ legs ∧
      r.quantity = -quantityOf s.unallocatedPositions r.tokenId ∧ tol.eps < r.quantity := by
  induction legs generalizing removed with
  | nil =>
    cases h
    simp
  | cons leg legs ih =>
    obtain ⟨token, value⟩ := leg
    unfold removedLegs at h
    dsimp only at h
    split at h
    · next hsmall =>
      rw [ih h, mem_cons]
      refine and_congr_left fun hqty => (or_iff_right ?_).symm
      intro heq
      obtain ⟨rfl, -⟩ := Prod.mk.inj heq
      exact absurd (hqty.1 ▸ hqty.2) hsmall.not_gt
    next hlarge =>
    split at h
    · cases h
    obtain ⟨rest, hrest, rfl⟩ := map_eq_some_iff.1 h
    rw [mem_cons, mem_cons, ih hrest]
    constructor
    · rintro (rfl | ⟨hmem, hqty⟩)
      · exact ⟨.inl rfl, rfl, lt_of_not_ge hlarge⟩
      · exact ⟨.inr hmem, hqty⟩
    · rintro ⟨heq | hmem, hqty, hlt⟩
      · obtain ⟨rfl, rfl⟩ := Prod.mk.inj heq
        exact .inl (congrArg (Removal.mk _ · _) hqty)
      · exact .inr ⟨hmem, hqty, hlt⟩

lemma removedLegs_sublist (h : s.removedLegs tol legs = some removed) :
    (removed.map (·.tokenId)).Sublist (legs.map (·.1)) := by
  induction legs generalizing removed with
  | nil =>
    cases h
    exact .slnil
  | cons leg legs ih =>
    unfold removedLegs at h
    dsimp only at h
    split at h
    · exact (ih h).cons _
    · split at h
      · cases h
      · obtain ⟨rest, hrest, rfl⟩ := map_eq_some_iff.1 h
        exact (ih hrest).cons_cons _

/-! ## Candidates -/

/-- When a condition is a candidate. -/
lemma analyzeCondition_eq_candidate_iff :
    s.analyzeCondition tol obs conditionId = .candidate removed ↔
      ∃ up down upValue downValue, s.Attributable conditionId up down ∧
        (s.Negative tol obs up ∨ s.Negative tol obs down) ∧
        s.settledTokenValues.lookup up = some upValue ∧
        s.settledTokenValues.lookup down = some downValue ∧
        s.removedLegs tol [(up, upValue), (down, downValue)] = some removed := by
  constructor
  · intro h
    unfold analyzeCondition at h
    dsimp only at h
    split at h
    · cases h
    next hneg =>
    split at h
    · next up down hpairs =>
      split at h
      · cases h
      next hunique =>
      split at h
      · next upValue downValue hup hdown =>
        split at h
        · next hval =>
          split at h
          · next legs hlegs =>
            cases h
            -- The pair is registered for the condition, so its tokens belong to it alone.
            have hmem := s.mem_tokenConditions (hpairs ▸ mem_singleton_self (up, down))
            obtain ⟨hupOne, hdownOne⟩ := not_or.1 hunique
            refine ⟨up, down, upValue, downValue, ⟨hpairs, ?_, ?_, ?_⟩, ?_, hup, hdown, hlegs⟩
            · exact eq_singleton_of_mem (not_not.1 hupOne) hmem.1
            · exact eq_singleton_of_mem (not_not.1 hdownOne) hmem.2
            · rcases hval with ⟨rfl, rfl⟩ | ⟨rfl, rfl⟩
              · exact .inl ⟨hup, hdown⟩
              · exact .inr ⟨hup, hdown⟩
            · rw [hpairs] at hneg
              exact or_iff_not_imp_left.2 (by simpa using hneg)
          · cases h
        · cases h
      · cases h
    · cases h
  · rintro ⟨up, down, upValue, downValue, hatt, hneg, hup, hdown, hrem⟩
    have hneg' : ¬∀ pair ∈ s.pairsOf conditionId,
        ¬s.Negative tol obs pair.1 ∧ ¬s.Negative tol obs pair.2 := by
      rw [hatt.pairs]
      simpa using or_iff_not_imp_left.1 hneg
    have hval : (upValue = 1 ∧ downValue = 0) ∨ (upValue = 0 ∧ downValue = 1) := by
      have hboth := hatt.values
      rw [hup, hdown] at hboth
      simpa using hboth
    unfold analyzeCondition
    rw [if_neg hneg', hatt.pairs]
    dsimp only
    rw [hatt.tokenConditions_up, hatt.tokenConditions_down, hup, hdown]
    dsimp only
    rw [if_neg (by simp), if_pos hval, hrem]

lemma mem_candidates (h : c ∈ s.candidates tol obs) :
    s.analyzeCondition tol obs c.conditionId = .candidate c.removed := by
  obtain ⟨conditionId, -, hc⟩ := mem_filterMap.1 h
  split at hc
  · next hverd =>
    cases hc
    exact hverd
  · cases hc

lemma mem_candidates_of_analyzeCondition
    (h : s.analyzeCondition tol obs c.conditionId = .candidate c.removed) :
    c ∈ s.candidates tol obs := by
  refine mem_filterMap.2 ⟨c.conditionId, ?_, ?_⟩
  · -- A condition with a token pair is registered.
    obtain ⟨up, down, -, -, hatt, -⟩ := analyzeCondition_eq_candidate_iff.1 h
    have hpair : (up, down) ∈ s.pairsOf c.conditionId :=
      hatt.pairs ▸ mem_singleton_self _
    obtain ⟨e, he, -⟩ := mem_map.1 (mem_dedup.1 hpair)
    obtain ⟨hmem, hcond⟩ := mem_filter.1 he
    refine (mem_insertionSort _).2 (mem_dedup.2 ?_)
    exact mem_map.2 ⟨e, hmem, of_decide_eq_true hcond⟩
  · rw [h]

/-- Putting fresh removals first only permutes the candidates. -/
lemma freshFirst_perm : (freshFirst tol obs candidates).Perm candidates := by
  unfold freshFirst
  split
  · exact .rfl
  · dsimp only
    split
    · exact filter_append_perm _ _
    · exact .rfl

lemma mem_freshFirst : c ∈ freshFirst tol obs candidates ↔ c ∈ candidates :=
  freshFirst_perm.mem_iff

lemma mem_fundedCandidates (h : c ∈ s.fundedCandidates tol obs) :
    s.analyzeCondition tol obs c.conditionId = .candidate c.removed :=
  mem_candidates (mem_freshFirst.1 (mem_of_mem_fund h))

lemma nodup_conditionId_candidates : ((s.candidates tol obs).map (·.conditionId)).Nodup := by
  have hcond : s.conditions.Nodup :=
    (perm_insertionSort _ _).nodup_iff.2 (nodup_dedup _)
  refine List.Nodup.sublist ?_ hcond
  unfold candidates
  induction s.conditions with
  | nil => exact .slnil
  | cons conditionId conditions ih =>
    rw [filterMap_cons]
    split
    · exact ih.cons _
    next c hc =>
    have hid : c.conditionId = conditionId := by
      split at hc
      · exact (congrArg Candidate.conditionId (some.inj hc)).symm
      · cases hc
    rw [map_cons, hid]
    exact ih.cons_cons _

lemma nodup_conditionId_fundedCandidates :
    ((s.fundedCandidates tol obs).map (·.conditionId)).Nodup := by
  refine ((fund_sublist _ _ _ _).map _).nodup ?_
  exact (freshFirst_perm.map _).nodup_iff.2 nodup_conditionId_candidates

/-! ## The removals of a candidate -/

/-- What is known of a removed token of a candidate. -/
structure Proven (tol : Tolerance) (s : WalletState) (conditionId : String) (r : Removal) :
    Prop where
  pair : ∃ up down, s.Attributable conditionId up down ∧ (r.tokenId = up ∨ r.tokenId = down)
  value : r.value = 0 ∨ r.value = 1
  quantity : r.quantity = -quantityOf s.unallocatedPositions r.tokenId
  eps_lt : tol.eps < r.quantity

lemma Proven.tokenConditions (h : s.Proven tol conditionId r) :
    s.tokenConditions r.tokenId = [conditionId] := by
  obtain ⟨up, down, hatt, htok | htok⟩ := h.pair
  · exact htok ▸ hatt.tokenConditions_up
  · exact htok ▸ hatt.tokenConditions_down

lemma Proven.value_nonneg (h : s.Proven tol conditionId r) : 0 ≤ r.value := by
  rcases h.value with h | h <;> rw [h]
  exact zero_le_one

section

variable (h : s.analyzeCondition tol obs conditionId = .candidate removed)

include h

lemma proven_of_mem (hr : r ∈ removed) : s.Proven tol conditionId r := by
  obtain ⟨up, down, upValue, downValue, hatt, -, hup, hdown, hrem⟩ :=
    analyzeCondition_eq_candidate_iff.1 h
  obtain ⟨hmem, hqty, heps⟩ := (mem_removedLegs hrem).1 hr
  have hval := hatt.values
  rw [hup, hdown] at hval
  have hleg : r.tokenId = up ∧ r.value = upValue ∨ r.tokenId = down ∧ r.value = downValue := by
    simpa using hmem
  refine ⟨⟨up, down, hatt, hleg.imp And.left And.left⟩, ?_, hqty, heps⟩
  rcases hleg with ⟨-, hvalue⟩ | ⟨-, hvalue⟩ <;> rw [hvalue] <;>
    rcases hval with ⟨hu, hd⟩ | ⟨hu, hd⟩
  · exact .inr (some.inj hu)
  · exact .inl (some.inj hu)
  · exact .inl (some.inj hd)
  · exact .inr (some.inj hd)

/-- The two tokens of a candidate differ, as their values do. -/
lemma nodup_removed : (removed.map (·.tokenId)).Nodup := by
  obtain ⟨up, down, upValue, downValue, hatt, -, hup, hdown, hrem⟩ :=
    analyzeCondition_eq_candidate_iff.1 h
  refine (removedLegs_sublist hrem).nodup ?_
  have hne : up ≠ down := by
    rintro rfl
    rcases hatt.values with ⟨hone, hzero⟩ | ⟨hzero, hone⟩ <;>
      exact absurd (some.inj (hone.symm.trans hzero)) one_ne_zero
  simpa using hne

/-- A candidate removes every token of its pair that the wallet lacks. -/
lemma exists_mem_removed {token : String} (hatt : s.Attributable conditionId up down)
    (htok : token = up ∨ token = down) (hlacks : quantityOf s.unallocatedPositions token < -tol.eps)
    : ∃ r ∈ removed, r.tokenId = token := by
  obtain ⟨up', down', upValue, downValue, hatt', -, -, -, hrem⟩ :=
    analyzeCondition_eq_candidate_iff.1 h
  have hpair : (up, down) = (up', down') :=
    singleton_inj.1 (hatt.pairs.symm.trans hatt'.pairs)
  obtain ⟨rfl, rfl⟩ := Prod.mk.inj hpair
  have hleg : (token, upValue) ∈ [(up, upValue), (down, downValue)] ∨
      (token, downValue) ∈ [(up, upValue), (down, downValue)] := by
    rcases htok with rfl | rfl
    · exact .inl (by simp)
    · exact .inr (by simp)
  have heps : tol.eps < -quantityOf s.unallocatedPositions token := lt_neg.1 hlacks
  rcases hleg with hleg | hleg
  · exact ⟨⟨token, _, upValue⟩, (mem_removedLegs hrem).2 ⟨hleg, rfl, heps⟩, rfl⟩
  · exact ⟨⟨token, _, downValue⟩, (mem_removedLegs hrem).2 ⟨hleg, rfl, heps⟩, rfl⟩

end

/-- A payout within the tolerance is zero, as every removed winner pays more. -/
lemma payout_eq_zero_or_lt (heps : 0 ≤ tol.eps) {removals : List Removal}
    (h : ∀ r ∈ removals, (r.value = 0 ∨ r.value = 1) ∧ tol.eps < r.quantity) :
    (removals.map fun r => r.quantity * r.value).sum = 0 ∨
      tol.eps < (removals.map fun r => r.quantity * r.value).sum := by
  induction removals with
  | nil => exact .inl rfl
  | cons r removals ih =>
    obtain ⟨⟨hvalue, hqty⟩, hrest⟩ := forall_mem_cons.1 h
    rw [map_cons, sum_cons]
    have hnn : 0 ≤ (removals.map fun r => r.quantity * r.value).sum := by
      rcases ih hrest with hsum | hsum
      · exact hsum.ge
      · exact heps.trans hsum.le
    rcases hvalue with hvalue | hvalue
    · rw [hvalue, mul_zero, zero_add]
      exact ih hrest
    · rw [hvalue, mul_one]
      exact .inr (by linarith)

end WalletState

/-! ## The legs of an attribution -/

/-- The removals of a candidate with their journal label. -/
def Candidate.legs (c : Candidate) : List (String × Removal) :=
  c.removed.map fun r => ("platform_redeem:" ++ c.conditionId, r)

namespace WalletState

variable {tol : Tolerance} {obs : Observation} {s : WalletState}

/-- The removals that a call attributes, in order. -/
def fundedLegs (tol : Tolerance) (obs : Observation) (s : WalletState) : List (String × Removal) :=
  (s.fundedCandidates tol obs).flatMap Candidate.legs

lemma foldl_applyCandidate (scale : ℚ) (selected : List Candidate) (s : WalletState) :
    selected.foldl (applyCandidate tol scale) s =
      applyLegs tol scale (selected.flatMap legs) s := by
  unfold applyLegs
  rw [foldl_flatMap]
  refine congrArg (fun f => selected.foldl f s) ?_
  funext s c
  rw [legs, foldl_map]
  rfl

lemma exists_of_mem_fundedLegs {leg : String × Removal} (h : leg ∈ s.fundedLegs tol obs) :
    ∃ c ∈ s.fundedCandidates tol obs, leg.1 = "platform_redeem:" ++ c.conditionId ∧
      leg.2 ∈ c.removed ∧ s.Proven tol c.conditionId leg.2 := by
  obtain ⟨c, hc, hleg⟩ := mem_flatMap.1 h
  obtain ⟨r, hr, rfl⟩ := mem_map.1 hleg
  exact ⟨c, hc, rfl, hr, proven_of_mem (mem_fundedCandidates hc) hr⟩

lemma map_fundedLegs (f : Removal → α) :
    (s.fundedLegs tol obs).map (fun leg => f leg.2) =
      (s.fundedCandidates tol obs).flatMap fun c => c.removed.map f := by
  unfold fundedLegs legs
  rw [map_flatMap]
  simp only [List.map_map, Function.comp_def]

/-- A call burns every token once. -/
lemma nodup_tokens : ((s.fundedLegs tol obs).map (·.2.tokenId)).Nodup := by
  rw [map_fundedLegs (·.tokenId), nodup_flatMap]
  refine ⟨fun c hc => nodup_removed (mem_fundedCandidates hc), ?_⟩
  have hpairw := pairwise_map.1 (@nodup_conditionId_fundedCandidates tol obs s)
  refine hpairw.imp_of_mem fun {c c'} hc hc' hne => ?_
  -- A common token would belong to both conditions.
  intro token htok htok'
  obtain ⟨r, hr, rfl⟩ := mem_map.1 htok
  obtain ⟨r', hr', heq⟩ := mem_map.1 htok'
  have hone := (proven_of_mem (mem_fundedCandidates hc) hr).tokenConditions
  have htwo := (proven_of_mem (mem_fundedCandidates hc') hr').tokenConditions
  rw [heq, hone] at htwo
  exact hne (singleton_inj.1 htwo)

/-- The payouts of the legs are those of the candidates. -/
lemma sum_payout_fundedLegs :
    ((s.fundedLegs tol obs).map fun leg => leg.2.quantity * leg.2.value).sum =
      ((s.fundedCandidates tol obs).map expectedPayout).sum := by
  rw [map_fundedLegs fun r => r.quantity * r.value]
  induction s.fundedCandidates tol obs with
  | nil => rfl
  | cons c selected ih =>
    rw [flatMap_cons, sum_append, ih]
    rfl

end WalletState

end HexAgent.Redeem
