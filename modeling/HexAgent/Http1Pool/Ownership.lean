import HexAgent.Http1Pool.Slots
import HexAgent.ToMathlib.CountSlots

/-!
# Who owns a connection slot

Every flag of a slot that is set is accounted for by exactly one thread or by the token in the
lane: a set `availableToken` by the token or the thread that moves it, `busy` by a permit,
`quarantined` by the claim or the repair that set it. From this follow the exclusive permits, the
single tokens and the single repairs. A repair also finds the generation it was started for,
because nobody else can raise it.

No slot is lost: while none of its flags is set, some thread has promised to look at the slot
again, and a thread takes its promise back only when it finds a flag set. So once no thread is at
work every slot without a permit and without a quarantine has its token.
-/

namespace HexAgent.Http1Pool

open RolePool List Option Http1Pool.Task

variable {n : ℕ}

/-! ## Accounts -/

/-- The flags that pass ownership on. -/
inductive Flag
  | token
  | busy
  | quarantine
  deriving DecidableEq

def Flag.read : Flag → Slot → Bool
  | .token, s => s.availableToken
  | .busy, s => s.busy
  | .quarantine, s => s.quarantined

namespace Task

/-- The flag of a slot that is set on behalf of the thread. -/
def backs : Task n → Option (Fin n × Flag)
  | .received slot _ => some (slot, .token)
  | .putBack slot _ => some (slot, .token)
  | .publish .send slot _ => some (slot, .token)
  | .publish .undo slot _ => some (slot, .token)
  | .permit slot => some (slot, .busy)
  | .dropping slot => some (slot, .busy)
  | .claimed slot _ => some (slot, .quarantine)
  | .repair slot _ => some (slot, .quarantine)
  | .install slot _ => some (slot, .quarantine)
  | .clearFailures slot => some (slot, .quarantine)
  | .raiseGeneration slot => some (slot, .quarantine)
  | .release slot => some (slot, .quarantine)
  | _ => none

/-- The thread accounts for the flag. -/
def accounts (x : Fin n) (f : Flag) (t : Task n) : Bool := decide (t.backs = some (x, f))

/-- The slot that the thread will look at again. -/
def promises : Task n → Option (Fin n)
  | .checkQuarantine slot _ => some slot
  | .takeBusy slot _ => some slot
  | .publish .loadBusy slot _ => some slot
  | .publish .loadQuarantined slot _ => some slot
  | .publish .setToken slot _ => some slot
  | _ => none

/-- A repair is of the present generation, and no token was refused by the lane. -/
def Fits (p : RolePool n) : Task n → Prop
  | .repair slot generation => (p.slots slot).generation = generation
  | .install slot generation => (p.slots slot).generation = generation
  | .publish .undo _ _ => False
  | _ => True

@[simp] lemma backs_claimFailed {caller : Caller n} : (claimFailed caller).backs = none := by
  cases caller <;> rfl

@[simp] lemma backs_published {caller : Option (Caller n)} : (published caller).backs = none := by
  cases caller <;> rfl

end Task

/-! ## One step -/

namespace RolePool

/-- The flags and the generations of all slots are the same. -/
def SameFlags (p p' : RolePool n) : Prop :=
  ∀ x, (∀ f : Flag, f.read (p'.slots x) = f.read (p.slots x)) ∧
    (p'.slots x).generation = (p.slots x).generation

/-- One flag of one slot was written. -/
def Wrote (p p' : RolePool n) (slot : Fin n) (f : Flag) (value : Bool) : Prop :=
  ∀ x, (∀ g : Flag, g.read (p'.slots x) = if x = slot ∧ g = f then value else g.read (p.slots x)) ∧
    (p'.slots x).generation = (p.slots x).generation

variable {p : RolePool n} {slot : Fin n} {update : Slot → Slot}

lemma sameFlags_refl : p.SameFlags p := fun _ => ⟨fun _ => rfl, rfl⟩

lemma sameFlags_modify
    (hflags : ∀ s (f : Flag), f.read (update s) = f.read s := by rintro s ⟨⟩ <;> rfl)
    (hgen : ∀ s, (update s).generation = s.generation := by intro s; rfl) :
    p.SameFlags (p.modify slot update) := by
  intro x
  rw [modify_slots]
  split
  · exact ⟨hflags _, hgen _⟩
  · exact ⟨fun _ => rfl, rfl⟩

lemma wrote_modify {f : Flag} {value : Bool}
    (hflags : ∀ s (g : Flag), g.read (update s) = if g = f then value else g.read s := by
      rintro s ⟨⟩ <;> rfl)
    (hgen : ∀ s, (update s).generation = s.generation := by intro s; rfl) :
    p.Wrote (p.modify slot update) slot f value := by
  intro x
  rw [modify_slots]
  split
  · next hx =>
    refine ⟨fun g => ?_, hgen _⟩
    rw [hflags]
    simp [hx]
  · next hx => exact ⟨fun g => by simp [hx], rfl⟩

/-- The token in the lane accounts for the token flag. -/
def laneTokens (p : RolePool n) (x : Fin n) (f : Flag) : ℕ :=
  if f = .token then p.lane.count x else 0

/-- Some flag of the slot is set. -/
def Flagged (p : RolePool n) (x : Fin n) : Prop := ∃ f : Flag, f.read (p.slots x) = true

end RolePool

namespace Task

variable {p p' : RolePool n} {t t' : Task n} {warmed : Bool} {caller : Caller n}

/-- What a step does to the flags, the lane and the accounts. -/
inductive Effect (p : RolePool n) (t : Task n) : RolePool n → Task n → Prop
  /-- Nothing changes hands. A promise is kept, or a flag of its slot was found set. -/
  | quiet {p' : RolePool n} {t' : Task n} : p'.lane = p.lane → p.SameFlags p' →
      t'.backs = t.backs → (∀ x, t.promises = some x → t'.promises = some x ∨ p.Flagged x) →
      Effect p t p' t'
  /-- The thread sets a flag, and accounts for it. -/
  | set {p' : RolePool n} {t' : Task n} (slot : Fin n) (f : Flag) : p'.lane = p.lane →
      f.read (p.slots slot) = false → p.Wrote p' slot f true → t.backs = none →
      t'.backs = some (slot, f) → (∀ x, t.promises = some x → x = slot) → Effect p t p' t'
  /-- The thread clears the flag that it accounts for, and promises to look at the slot. A
  quarantine is cleared by `release` only. -/
  | clear {p' : RolePool n} {t' : Task n} (slot : Fin n) (f : Flag) : p'.lane = p.lane →
      p.Wrote p' slot f false → t.backs = some (slot, f) → t'.backs = none → t.promises = none →
      (t'.promises = some slot ∨ ∃ caller, t = .publish .undo slot caller) →
      (f = .quarantine → t = .release slot) → Effect p t p' t'
  /-- The replacement of a connection has its own generation. -/
  | raise (slot : Fin n) : t = .raiseGeneration slot →
      Effect p t (p.modify slot fun s => { s with generation := s.generation + 1 }) (.release slot)
  /-- The thread takes the account of a token over from the lane. -/
  | take {t' : Task n} (slot : Fin n) (lane : List (Fin n)) : p.lane = slot :: lane →
      t.backs = none → t'.backs = some (slot, .token) → t.promises = none →
      Effect p t { p with lane := lane } t'
  /-- And gives it back. -/
  | put {t' : Task n} (slot : Fin n) : t.backs = some (slot, .token) → t'.backs = none →
      t.promises = none → Effect p t { p with lane := p.lane ++ [slot] } t'

lemma effect_idle (hbacks : t'.backs = t.backs) (hprom : t.promises = none) : Effect p t p t' :=
  .quiet rfl sameFlags_refl hbacks fun x hx => by
    rw [hprom] at hx
    cases hx

lemma effect_pollLane (h : pollLane p caller = some (p', t')) : Effect p (.poll caller) p' t' := by
  unfold pollLane at h
  split at h
  case h_3 slot lane hlane => cases h; exact .take slot lane hlane rfl rfl rfl
  case h_6 slot lane hlane => cases h; exact .take slot lane hlane rfl rfl rfl
  case h_8 slot lane hlane => cases h; exact .take slot lane hlane rfl rfl rfl
  case h_11 wanted left slot lane hlane =>
    split at h
    · cases h
      exact .take slot lane hlane rfl rfl rfl
    · cases h
      exact .take slot lane hlane rfl rfl rfl
  all_goals
    cases h
    try exact effect_idle rfl rfl

lemma effect_publishStep {slot : Fin n} {caller : Option (Caller n)} {stage : PublishStage} :
    Effect p (.publish stage slot caller) (publishStep p slot caller stage).1
      (publishStep p slot caller stage).2 := by
  have hfound (f : Flag) (hf : f.read (p.slots slot) = true) (stage : PublishStage)
      (hbacks : (publish stage slot caller).backs = none) :
      Effect p (.publish stage slot caller) p (published caller) := by
    refine .quiet rfl sameFlags_refl (by rw [hbacks, backs_published]) fun x hx => .inr ⟨f, ?_⟩
    cases stage <;> cases hx <;> exact hf
  cases stage with
  | loadBusy =>
    simp only [publishStep]
    split
    · next hbusy => exact hfound .busy hbusy _ rfl
    · exact .quiet rfl sameFlags_refl rfl fun x hx => .inl hx
  | loadQuarantined =>
    simp only [publishStep]
    split
    · next hquar => exact hfound .quarantine hquar _ rfl
    · exact .quiet rfl sameFlags_refl rfl fun x hx => .inl hx
  | setToken =>
    simp only [publishStep]
    split
    · next htok => exact hfound .token htok _ rfl
    next htok =>
    refine .set slot .token rfl (Bool.eq_false_of_not_eq_true htok) ?_ rfl rfl fun x hx => ?_
    · dsimp only
      exact wrote_modify
    · exact (some.inj hx).symm
  | send =>
    simp only [publishStep]
    split
    · exact .put slot rfl backs_published rfl
    · exact effect_idle rfl rfl
  | undo =>
    simp only [publishStep]
    exact .clear slot .token rfl wrote_modify rfl backs_published rfl (.inr ⟨caller, rfl⟩) nofun

/-- Every step has one of the effects. -/
lemma effect_of_step (hfits : t.Fits p) (h : t.step p warmed = some (p', t')) :
    Effect p t p' t' := by
  cases t with
  | poll caller => exact effect_pollLane h
  | received slot caller | putBack slot caller =>
    cases h
    exact .clear slot .token rfl wrote_modify rfl rfl rfl (.inl rfl) nofun
  | checkQuarantine slot caller =>
    simp only [step] at h
    split at h
    · next hquar =>
      cases h
      refine .quiet rfl sameFlags_refl backs_claimFailed fun x hx => .inr ⟨.quarantine, ?_⟩
      cases hx
      exact hquar
    · cases h
      exact .quiet rfl sameFlags_refl rfl fun x hx => .inl hx
  | takeBusy slot caller =>
    simp only [step] at h
    split at h
    · next hbusy =>
      cases h
      refine .quiet rfl sameFlags_refl backs_claimFailed fun x hx => .inr ⟨.busy, ?_⟩
      cases hx
      exact hbusy
    next hbusy =>
    cases h
    refine .set slot .busy rfl (Bool.eq_false_of_not_eq_true hbusy) ?_ rfl rfl fun x hx => ?_
    · exact wrote_modify
    · exact (some.inj hx).symm
  | publish stage slot caller =>
    have hpair := some.inj h
    rw [show p' = (publishStep p slot caller stage).1 from congrArg Prod.fst hpair.symm,
      show t' = (publishStep p slot caller stage).2 from congrArg Prod.snd hpair.symm]
    exact effect_publishStep
  | permit slot => cases h
  | dropping slot =>
    cases h
    exact .clear slot .busy rfl wrote_modify rfl rfl rfl (.inl rfl) nofun
  | claimCheck | claimCooldown | claimed =>
    simp only [step] at h
    split at h <;> cases h <;> exact effect_idle rfl rfl
  | claimCount slot args =>
    cases h
    refine .quiet rfl sameFlags_modify ?_ nofun
    split <;> rfl
  | claimStamp slot args last =>
    simp only [step] at h
    split at h
    · cases h
      exact .quiet rfl sameFlags_modify rfl
        nofun
    · cases h
      exact effect_idle rfl rfl
  | claimQuarantine slot args =>
    simp only [step] at h
    split at h
    · cases h
      exact effect_idle rfl rfl
    next hquar =>
    cases h
    refine .set slot .quarantine rfl (Bool.eq_false_of_not_eq_true hquar) ?_ rfl rfl
      nofun
    exact wrote_modify
  | repair slot generation =>
    have hsame : (p.slots slot).generation = generation := hfits
    simp only [step, hsame, ne_eq, not_true_eq_false, if_false] at h
    split at h <;> cases h <;> exact effect_idle rfl rfl
  | install slot generation =>
    have hsame : (p.slots slot).generation = generation := hfits
    simp only [step, hsame, if_true] at h
    cases h
    exact effect_idle rfl rfl
  | clearFailures slot =>
    cases h
    exact .quiet rfl sameFlags_modify rfl
      nofun
  | raiseGeneration slot =>
    cases h
    exact .raise slot rfl
  | release slot =>
    cases h
    exact .clear slot .quarantine rfl wrote_modify rfl rfl rfl (.inl rfl) fun _ => rfl
  | done => cases h

section

variable (h : Effect p t p' t')
include h

/-- A step moves a flag and its account together. -/
lemma Effect.balance
    (honest : ∀ x f, t.backs = some (x, f) → f.read (p.slots x) = true) (x : Fin n) (f : Flag) :
    p'.laneTokens x f + (if t'.accounts x f then 1 else 0) + (f.read (p.slots x)).toNat =
      p.laneTokens x f + (if t.accounts x f then 1 else 0) + (f.read (p'.slots x)).toNat := by
  have hsymm (slot g) : slot = x ∧ g = f ↔ x = slot ∧ f = g := and_congr eq_comm eq_comm
  cases h with
  | quiet hlane hsame hbacks =>
    rw [accounts, accounts, hbacks, (hsame x).1]
    simp only [laneTokens, hlane]
  | set slot g hlane hclear hwrote hbacks hbacks' =>
    simp only [laneTokens, accounts, hlane, hbacks, hbacks', (hwrote x).1]
    by_cases hxf : x = slot ∧ f = g
    · obtain ⟨rfl, rfl⟩ := hxf
      simp [hclear]
    · simp [hxf, hsymm]
  | clear slot g hlane hwrote hbacks hbacks' =>
    have hset : g.read (p.slots slot) = true := honest slot g hbacks
    simp only [laneTokens, accounts, hlane, hbacks, hbacks', (hwrote x).1]
    by_cases hxf : x = slot ∧ f = g
    · obtain ⟨rfl, rfl⟩ := hxf
      simp [hset]
    · simp [hxf, hsymm]
  | raise slot hraise =>
    subst hraise
    have hflag :
      f.read ((p.modify slot fun s => { s with generation := s.generation + 1 }).slots x) =
        f.read (p.slots x) := by
      rw [modify_slots]
      split
      · cases f <;> rfl
      · rfl
    rw [hflag]
    rfl
  | take slot lane hlane hbacks hbacks' =>
    simp only [laneTokens, accounts, hlane, hbacks, hbacks', count_cons]
    cases f <;> simp
  | put slot hbacks hbacks' =>
    simp only [laneTokens, accounts, hbacks, hbacks', count_append]
    cases f <;> simp [count_cons]

/-- A slot that is covered by a flag or by the promise of the thread stays so. -/
lemma Effect.covers (hundo : ∀ slot caller, t ≠ .publish .undo slot caller) {x : Fin n}
    (hx : p.Flagged x ∨ t.promises = some x) : p'.Flagged x ∨ t'.promises = some x := by
  cases h with
  | quiet hlane hsame hbacks hpromises =>
    have hkeep (hflagged : p.Flagged x) : p'.Flagged x := by
      obtain ⟨f, hf⟩ := hflagged
      exact ⟨f, ((hsame x).1 f).trans hf⟩
    rcases hx with hflagged | hprom
    · exact .inl (hkeep hflagged)
    · rcases hpromises x hprom with hprom' | hflagged
      · exact .inr hprom'
      · exact .inl (hkeep hflagged)
  | set slot g hlane hclear hwrote hbacks hbacks' hpromises =>
    refine .inl ?_
    rcases hx with ⟨f, hf⟩ | hprom
    · refine ⟨f, ?_⟩
      rw [(hwrote x).1]
      split
      · rfl
      · exact hf
    · exact ⟨g, by rw [(hwrote x).1, if_pos ⟨hpromises x hprom, rfl⟩]⟩
  | clear slot g hlane hwrote hbacks hbacks' hprom hnext =>
    rcases hnext with hnext | ⟨caller, hcaller⟩
    · by_cases hslot : x = slot
      · exact .inr (hslot ▸ hnext)
      · rcases hx with ⟨f, hf⟩ | hx
        · exact .inl ⟨f, by rw [(hwrote x).1, if_neg fun hs => hslot hs.1, hf]⟩
        · rw [hprom] at hx
          cases hx
    · exact absurd hcaller (hundo slot caller)
  | raise slot hraise =>
    subst hraise
    rcases hx with ⟨f, hf⟩ | hx
    · refine .inl ⟨f, ?_⟩
      rw [modify_slots]
      split
      · cases f <;> exact hf
      · exact hf
    · cases hx
  | take slot lane hlane hbacks hbacks' hprom | put slot hbacks hbacks' hprom =>
    rcases hx with hflagged | hx
    · exact .inl hflagged
    · rw [hprom] at hx
      cases hx

/-- Only a repair that installs a replacement changes a generation. -/
lemma Effect.generation (x : Fin n) :
    (p'.slots x).generation = (p.slots x).generation ∨ t = .raiseGeneration x := by
  cases h with
  | quiet _ hsame => exact .inl (hsame x).2
  | set _ _ _ _ hwrote => exact .inl (hwrote x).2
  | clear _ _ _ hwrote => exact .inl (hwrote x).2
  | raise slot hraise =>
    rw [modify_slots]
    split
    · next hx => exact .inr (hx ▸ hraise)
    · exact .inl rfl
  | take => exact .inl rfl
  | put => exact .inl rfl

/-- Only `release` ends a quarantine. -/
lemma Effect.release {x : Fin n}
    (hpre : (p.slots x).quarantined = true) (hpost : (p'.slots x).quarantined = false) :
    t = .release x := by
  have hchanged : Flag.quarantine.read (p'.slots x) ≠ Flag.quarantine.read (p.slots x) := by
    simp [Flag.read, hpre, hpost]
  cases h with
  | quiet _ hsame => exact absurd ((hsame x).1 .quarantine) hchanged
  | set slot g hlane hclear hwrote =>
    rw [(hwrote x).1] at hchanged
    split at hchanged
    · next hx =>
      obtain ⟨rfl, rfl⟩ := hx
      exact absurd hpre (by simpa [Flag.read] using hclear)
    · exact absurd rfl hchanged
  | clear slot g hlane hwrote hbacks hbacks' hprom hnext hrel =>
    rw [(hwrote x).1] at hchanged
    split at hchanged
    · next hx =>
      obtain ⟨rfl, rfl⟩ := hx
      exact hrel rfl
    · exact absurd rfl hchanged
  | raise slot hraise =>
    rw [modify_slots] at hchanged
    split at hchanged <;> exact absurd rfl hchanged
  | take => exact absurd rfl hchanged
  | put => exact absurd rfl hchanged

end

/-- A change of generations only matters to the owner of the quarantine. -/
lemma Fits.of_generation (hfits : t.Fits p) (h : ∀ x, t.accounts x .quarantine →
    (p'.slots x).generation = (p.slots x).generation) : t.Fits p' := by
  cases t with
  | repair slot | install slot => exact (h slot (by simp [accounts, backs])).trans hfits
  | publish stage slot caller => cases stage <;> exact hfits
  | _ => trivial

lemma fits_claimFailed : (claimFailed caller).Fits p := by
  cases caller <;> trivial

lemma fits_published {caller : Option (Caller n)} : (published caller).Fits p := by
  cases caller <;> trivial

/-- A repair starts, goes on and installs at the present generation; a token is refused only by a
full lane. -/
lemma Fits.step (hfits : t.Fits p)
    (hroom : ∀ slot caller, t = .publish .send slot caller → p.lane.length < n)
    (h : t.step p warmed = some (p', t')) : t'.Fits p' := by
  cases t with
  | poll caller =>
    simp only [step, pollLane] at h
    split at h
    case h_11 => split at h <;> cases h <;> trivial
    all_goals
      cases h
      try trivial
  | publish stage slot caller =>
    have hnext : t' = (publishStep p slot caller stage).2 :=
      congrArg Prod.snd (some.inj h).symm
    rw [hnext]
    cases stage with
    | undo => exact fits_published
    | send =>
      rw [publishStep, if_pos (hroom slot caller rfl)]
      exact fits_published
    | _ =>
      simp only [publishStep]
      split
      · exact fits_published
      · trivial
  | claimed slot args =>
    simp only [step] at h
    split at h
    · next hgen =>
      cases h
      exact hgen
    · cases h
      trivial
  | repair slot gen =>
    simp only [step] at h
    split at h
    · trivial
    · split at h <;> cases h <;> exact hfits
  | checkQuarantine slot caller | takeBusy slot caller =>
    simp only [step] at h
    split at h <;> cases h
    · exact fits_claimFailed
    · trivial
  | claimCount slot args =>
    cases h
    split <;> trivial
  | permit => cases h
  | done => cases h
  | _ =>
    simp only [step] at h
    first
      | (cases h; trivial)
      | (split at h <;> cases h <;> trivial)

end Task

/-! ## The invariant -/

/-- Accounts, generations and promises of all threads. -/
structure Sound (s : PoolState n) : Prop where
  accounted : ∀ x f, s.pool.laneTokens x f + s.tasks.countP (Task.accounts x f) =
    (f.read (s.pool.slots x)).toNat
  fits : ∀ t ∈ s.tasks, t.Fits s.pool
  covered : ∀ x, s.pool.Flagged x ∨ ∃ t ∈ s.tasks, t.promises = some x

/-- A pool that nobody uses yet. -/
def PoolState.new (n : ℕ) : PoolState n := { pool := RolePool.new n }

namespace Sound

variable {s s' : PoolState n} {x : Fin n} {f : Flag} {i j : ℕ} {t u : Task n} {slot : Fin n}

lemma new (n : ℕ) : Sound (PoolState.new n) where
  accounted := fun x f => by
    have hcount : (finRange n).count x = 1 :=
      count_eq_one_of_mem (nodup_finRange n) (mem_finRange x)
    cases f
    · exact hcount
    · rfl
    · rfl
  fits := nofun
  covered := fun x => .inl ⟨.token, rfl⟩

section

variable (h : Sound s)

include h

lemma countP_le_one : s.tasks.countP (accounts x f) ≤ 1 := by
  have hone := Bool.toNat_le (f.read (s.pool.slots x))
  have hacc := h.accounted x f
  omega

/-- One thread at most accounts for a flag. -/
lemma owner_unique (hi : s.tasks[i]? = some t) (hj : s.tasks[j]? = some u)
    (ht : t.backs = some (x, f)) (hu : u.backs = some (x, f)) : i = j :=
  index_eq_of_countP_le_one h.countP_le_one hi hj (decide_eq_true ht) (decide_eq_true hu)

/-- A flag that a thread accounts for is set, and has no token in the lane. -/
lemma honest (hi : s.tasks[i]? = some t) (ht : t.backs = some (x, f)) :
    f.read (s.pool.slots x) = true ∧ s.pool.laneTokens x f = 0 := by
  have hacc := h.accounted x f
  have hpos : 0 < s.tasks.countP (accounts x f) :=
    countP_pos_iff.2 ⟨t, mem_of_getElem? hi, decide_eq_true ht⟩
  cases hread : f.read (s.pool.slots x) with
  | false =>
    rw [hread, Bool.toNat_false] at hacc
    omega
  | true =>
    rw [hread, Bool.toNat_true] at hacc
    exact ⟨rfl, by omega⟩

lemma count_lane_le_one (x : Fin n) : s.pool.lane.count x ≤ 1 := by
  have hacc := h.accounted x .token
  have hone := Bool.toNat_le (Flag.token.read (s.pool.slots x))
  simp only [laneTokens, if_true] at hacc
  omega

/-- The lane has room for a token that is about to be sent. -/
lemma lane_room {caller : Option (Caller n)}
    (hi : s.tasks[i]? = some (.publish .send slot caller)) : s.pool.lane.length < n := by
  have habs : s.pool.lane.count slot = 0 := (h.honest hi rfl).2
  have hnd : (slot :: s.pool.lane).Nodup :=
    nodup_cons.2 ⟨count_eq_zero.1 habs, nodup_iff_count_le_one.2 h.count_lane_le_one⟩
  have hlen := hnd.length_le_card
  rw [Fintype.card_fin] at hlen
  exact hlen

/-- A thread starts with nothing to account for. -/
lemma start (hbacks : t.backs = none) (hfits : t.Fits s.pool) :
    Sound { s with tasks := s.tasks ++ [t] } where
  accounted := fun x f => by
    have hnone : accounts x f t = false := by simp [accounts, hbacks]
    rw [countP_append, countP_singleton, hnone]
    exact h.accounted x f
  fits := forall_mem_append.2 ⟨h.fits, forall_mem_singleton.2 hfits⟩
  covered := fun x => (h.covered x).imp id fun ⟨u, hu, hx⟩ => ⟨u, mem_append_left _ hu, hx⟩

/-- A permit that is being dropped still accounts for its slot. -/
lemma drop (hi : s.tasks[i]? = some (.permit slot)) :
    Sound { s with tasks := s.tasks.set i (.dropping slot) } where
  accounted := fun x f => by
    rw [countP_set_of_eq hi]
    · exact h.accounted x f
    · rfl
  fits := fun u hu => by
    rcases mem_or_eq_of_mem_set hu with hu | rfl
    · exact h.fits u hu
    · trivial
  covered := fun x => (h.covered x).imp id fun ⟨u, hu, hx⟩ => by
    obtain ⟨j, hj⟩ := getElem?_of_mem hu
    have hne : i ≠ j := by
      rintro rfl
      rw [hi] at hj
      cases hj
      cases hx
    refine ⟨u, mem_of_getElem? (i := j) ?_, hx⟩
    rw [getElem?_set_ne hne]
    exact hj

lemma advance {pool : RolePool n} {warmed : Bool} (hi : s.tasks[i]? = some t)
    (hstep : t.step s.pool warmed = some (pool, u)) :
    Sound { s with pool := pool, tasks := s.tasks.set i u } := by
  have hfits : t.Fits s.pool := h.fits t (mem_of_getElem? hi)
  have heff := effect_of_step hfits hstep
  refine ⟨fun x f => ?_, fun v hv => ?_, fun x => ?_⟩
  · have hbal := heff.balance (fun x f hx => (h.honest hi hx).1) x f
    have hcount := countP_set_add (b := u) (p := accounts x f) hi
    have hacc := h.accounted x f
    dsimp only
    omega
  · obtain ⟨j, hj⟩ := getElem?_of_mem hv
    rcases eq_or_getElem?_of_set hj with ⟨-, rfl⟩ | ⟨hne, hj⟩
    · exact hfits.step (fun slot caller ht => h.lane_room (ht ▸ hi)) hstep
    · -- Another thread: its generation was raised only if two threads own one quarantine.
      refine (h.fits v (mem_of_getElem? hj)).of_generation fun x hx => ?_
      rcases heff.generation x with hsame | rfl
      · exact hsame
      · exact absurd (h.owner_unique hj hi (of_decide_eq_true hx) rfl) hne
  · have hundo slot (caller : Option (Caller n)) : t ≠ .publish .undo slot caller := by
      rintro rfl
      exact hfits
    have hself : u ∈ s.tasks.set i u :=
      List.mem_set (List.getElem?_eq_some_iff.1 hi).1 u
    have hcov := @Task.Effect.covers n s.pool pool t u heff hundo x
    rcases h.covered x with hflagged | ⟨v, hv, hprom⟩
    · exact (hcov (.inl hflagged)).imp id fun hx => ⟨u, hself, hx⟩
    obtain ⟨j, hj⟩ := getElem?_of_mem hv
    by_cases hji : i = j
    · rw [← hji, hi] at hj
      cases hj
      exact (hcov (.inr hprom)).imp id fun hx => ⟨u, hself, hx⟩
    · refine .inr ⟨v, mem_of_getElem? (i := j) ?_, hprom⟩
      rw [getElem?_set_ne hji]
      exact hj

lemma step {a : PoolAction n} (hstep : s.step a = some s') : Sound s' := by
  cases a with
  | tryAcquire | acquire | tryAcquireSlot | claimRebuild =>
    cases hstep
    exact h.start rfl trivial
  | drop i =>
    simp only [PoolState.step] at hstep
    split at hstep
    · next slot hi =>
      cases hstep
      exact h.drop hi
    · cases hstep
  | advance i warmed =>
    simp only [PoolState.step] at hstep
    split at hstep
    · cases hstep
    next t hi =>
    obtain ⟨⟨pool, u⟩, hnext, rfl⟩ := map_eq_some_iff.1 hstep
    exact h.advance hi hnext

lemma run {acts : List (PoolAction n)} (hrun : s.run acts = some s') : Sound s' := by
  induction acts generalizing s with
  | nil =>
    cases hrun
    exact h
  | cons a acts ih =>
    obtain ⟨s₁, hstep, hrest⟩ := bind_eq_some_iff.1 hrun
    exact ih (h.step hstep) hrest

end

end Sound

/-! ## Ownership -/

namespace Task

/-- A live permit of the slot. -/
def holds (slot : Fin n) : Task n → Prop
  | .permit x => x = slot
  | .dropping x => x = slot
  | _ => False

/-- The claim or the repair that keeps the slot in quarantine. -/
def repairs (slot : Fin n) : Task n → Prop
  | .claimed x _ => x = slot
  | .repair x _ => x = slot
  | .install x _ => x = slot
  | .clearFailures x => x = slot
  | .raiseGeneration x => x = slot
  | .release x => x = slot
  | _ => False

/-- The thread is not in the middle of an operation: it has a permit, it waits for the warm-up of a
candidate or for a token, or it is done. -/
def Idle : Task n → Prop
  | .permit _ => True
  | .repair _ _ => True
  | .poll (.acquire none) => True
  | .done => True
  | _ => False

variable {t : Task n} {slot : Fin n}

lemma backs_of_holds (h : t.holds slot) : t.backs = some (slot, .busy) := by
  cases t <;> cases h <;> rfl

lemma backs_of_repairs (h : t.repairs slot) : t.backs = some (slot, .quarantine) := by
  cases t <;> cases h <;> rfl

/-- A thread that is idle promises nothing and moves no token. -/
lemma Idle.backs {x : Fin n} {f : Flag} (h : t.Idle) (hbacks : t.backs = some (x, f)) :
    f ≠ .token ∧ (f = .busy → t.holds x) := by
  cases t with
  | permit slot => cases hbacks; exact ⟨nofun, fun _ => rfl⟩
  | repair slot gen => cases hbacks; exact ⟨nofun, nofun⟩
  | poll caller => cases hbacks
  | done => cases hbacks
  | _ => cases h

lemma Idle.promises (h : t.Idle) : t.promises = none := by
  cases t <;> first | rfl | cases h

end Task

/-- Ownership of the slots in one state. -/
structure PoolState.Owned (s : PoolState n) : Prop where
  permit_unique : ∀ (slot : Fin n) (i j : ℕ) (t u : Task n), s.tasks[i]? = some t →
    s.tasks[j]? = some u → t.holds slot → u.holds slot → i = j
  lane_nodup : s.pool.lane.Nodup
  /-- A send finds room, and no send has been refused. -/
  send_room : ∀ (i : ℕ) (slot : Fin n) (caller : Option (Caller n)),
    (s.tasks[i]? = some (.publish .send slot caller) → s.pool.lane.length < n) ∧
    s.tasks[i]? ≠ some (.publish .undo slot caller)
  repair_unique : ∀ (slot : Fin n) (i j : ℕ) (t u : Task n), s.tasks[i]? = some t →
    s.tasks[j]? = some u → t.repairs slot → u.repairs slot → i = j
  repair_quarantined : ∀ (slot : Fin n) (t : Task n), t ∈ s.tasks → t.repairs slot →
    (s.pool.slots slot).quarantined = true
  /-- A repair never works for a generation that is gone. -/
  repair_current : ∀ (slot : Fin n) (generation : ℕ),
    (Task.repair slot generation ∈ s.tasks ∨ Task.install slot generation ∈ s.tasks) →
    (s.pool.slots slot).generation = generation
  /-- A quarantine ends only by the release of the one thread that owns it. -/
  release_by_owner : ∀ (slot : Fin n) (a : PoolAction n) (s' : PoolState n), s.step a = some s' →
    (s.pool.slots slot).quarantined = true → (s'.pool.slots slot).quarantined = false →
    ∃ i warmed, a = .advance i warmed ∧ s.tasks[i]? = some (.release slot) ∧
      ∀ (j : ℕ) (t : Task n), s.tasks[j]? = some t → t.repairs slot → j = i
  /-- No slot is lost. -/
  token_of_idle : (∀ t ∈ s.tasks, t.Idle) → ∀ slot : Fin n,
    (s.pool.slots slot).quarantined = false → (∀ t ∈ s.tasks, ¬ t.holds slot) →
    s.pool.lane.count slot = 1

namespace Sound

variable {s s' : PoolState n} {slot : Fin n}

lemma release_by_owner {a : PoolAction n} (h : Sound s) (hstep : s.step a = some s')
    (hpre : (s.pool.slots slot).quarantined = true)
    (hpost : (s'.pool.slots slot).quarantined = false) :
    ∃ i warmed, a = .advance i warmed ∧ s.tasks[i]? = some (.release slot) ∧
      ∀ (j : ℕ) (t : Task n), s.tasks[j]? = some t → t.repairs slot → j = i := by
  have hsame (heq : s'.pool = s.pool) : False := by
    rw [heq, hpre] at hpost
    cases hpost
  cases a with
  | advance i warmed =>
    simp only [PoolState.step] at hstep
    split at hstep
    · cases hstep
    next t hi =>
    obtain ⟨⟨pool, u⟩, hnext, rfl⟩ := map_eq_some_iff.1 hstep
    have heff := effect_of_step (h.fits t (mem_of_getElem? hi)) hnext
    obtain rfl := heff.release hpre hpost
    exact ⟨i, warmed, rfl, hi, fun j u hj hu =>
      h.owner_unique hj hi (backs_of_repairs hu) rfl⟩
  | drop i =>
    simp only [PoolState.step] at hstep
    split at hstep <;> cases hstep
    exact (hsame rfl).elim
  | _ =>
    cases hstep
    exact (hsame rfl).elim

lemma token_of_idle (h : Sound s) (hidle : ∀ t ∈ s.tasks, t.Idle)
    (hquar : (s.pool.slots slot).quarantined = false)
    (hheld : ∀ t ∈ s.tasks, ¬ t.holds slot) : s.pool.lane.count slot = 1 := by
  -- `busy` is not set, as nobody accounts for it.
  have hbusy : (s.pool.slots slot).busy = false := by
    have hacc := h.accounted slot .busy
    have hzero : s.tasks.countP (accounts slot .busy) = 0 :=
      countP_eq_zero.2 fun t ht hbacks =>
        hheld t ht (((hidle t ht).backs (of_decide_eq_true hbacks)).2 rfl)
    rw [hzero] at hacc
    cases hread : (s.pool.slots slot).busy with
    | false => rfl
    | true => simp [laneTokens, Flag.read, hread] at hacc
  -- So the flag that covers the slot is that of the token, and no thread moves the token.
  have htok : (s.pool.slots slot).availableToken = true := by
    rcases h.covered slot with ⟨f, hf⟩ | ⟨t, ht, hprom⟩
    · cases f with
      | token => exact hf
      | busy => exact absurd hf (by simp [Flag.read, hbusy])
      | quarantine => exact absurd hf (by simp [Flag.read, hquar])
    · rw [(hidle t ht).promises] at hprom
      cases hprom
  have hacc := h.accounted slot .token
  have hzero : s.tasks.countP (accounts slot .token) = 0 :=
    countP_eq_zero.2 fun t ht hbacks =>
      ((hidle t ht).backs (of_decide_eq_true hbacks)).1 rfl
  rw [hzero] at hacc
  simpa [laneTokens, Flag.read, htok] using hacc

lemma owned (h : Sound s) : s.Owned where
  permit_unique := fun slot i j t u hi hj ht hu =>
    h.owner_unique hi hj (backs_of_holds ht) (backs_of_holds hu)
  lane_nodup := nodup_iff_count_le_one.2 h.count_lane_le_one
  send_room := fun i slot caller =>
    ⟨h.lane_room, fun hi => h.fits _ (mem_of_getElem? hi)⟩
  repair_unique := fun slot i j t u hi hj ht hu =>
    h.owner_unique hi hj (backs_of_repairs ht) (backs_of_repairs hu)
  repair_quarantined := fun slot t ht hrep => by
    obtain ⟨i, hi⟩ := getElem?_of_mem ht
    exact (h.honest hi (backs_of_repairs hrep)).1
  repair_current := fun slot gen hmem => hmem.elim (h.fits _) (h.fits _)
  release_by_owner := fun slot a s' hstep hpre hpost =>
    h.release_by_owner hstep hpre hpost
  token_of_idle := fun hidle slot hquar hheld => h.token_of_idle hidle hquar hheld

end Sound

/-- Connection slots have single owners and are never lost, in any interleaving of the threads. -/
theorem slot_ownership (n : ℕ) (actions : List (PoolAction n)) (s : PoolState n)
    (h : (PoolState.new n).run actions = some s) : s.Owned :=
  ((Sound.new n).run h).owned

/-- A caller takes the only slot and its connection fails. While the repair warms a candidate the
permit is dropped, and the released slot gets its token back. -/
theorem slot_ownership_repaired :
    ∃ s : PoolState 1, (PoolState.new 1).run ([.tryAcquire] ++ replicate 4 (.advance 0 true) ++
      [.claimRebuild 0 ⟨0, 1, 10, 5⟩] ++ replicate 6 (.advance 1 true) ++ [.drop 0] ++
      replicate 3 (.advance 0 true) ++ replicate 9 (.advance 1 true)) = some s ∧
      s.tasks = [.done, .done] ∧ s.pool.lane = [0] ∧ s.Owned := by
  have hrun : ((PoolState.new 1).run ([.tryAcquire] ++ replicate 4 (.advance 0 true) ++
      [.claimRebuild 0 ⟨0, 1, 10, 5⟩] ++ replicate 6 (.advance 1 true) ++ [.drop 0] ++
      replicate 3 (.advance 0 true) ++ replicate 9 (.advance 1 true))).any
      (fun s => s.tasks = [.done, .done] ∧ s.pool.lane = [0]) = true := by
    decide +kernel
  obtain ⟨s, hs, hprop⟩ := (Option.any_eq_true ..).1 hrun
  exact ⟨s, hs, (of_decide_eq_true hprop).1, (of_decide_eq_true hprop).2, slot_ownership 1 _ s hs⟩

end HexAgent.Http1Pool
