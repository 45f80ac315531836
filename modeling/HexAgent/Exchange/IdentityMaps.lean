import HexAgent.Types
import HexAgent.ToMathlib.AListRows

/-!
# Identities of orders

The execution snapshot of an account maps the client id of an order to its exchange id and, for the
reports that name only the exchange id, the normalised exchange id back to the client id. An
identity is installed again when its order is replaced, and is retired with its market.

An entry of the exchange-id map always names a client id that has this exchange id. The converse
fails: a client id that moves to another exchange id takes away the entry of its previous one
without asking whom it names by now (`identity_taken_away`). `identity_maps_agree` says that this is
the only way to lose an identity.
-/

namespace HexAgent.Exchange

open AList Function

/-- The three identity maps of the snapshot. -/
structure ExecutionStateSnapshot where
  coidToOid : AList fun _ : String => String := ∅
  oidToCoid : AList fun _ : String => String := ∅
  coidToToken : AList fun _ : String => String := ∅

structure RetiredRuntimeMappings where
  clientOrderIds : List String
  normalizedOrderIds : List String

/-- The removals, made in one generation of the snapshot. -/
def RetiredRuntimeMappings.applyTo (r : RetiredRuntimeMappings) (next : ExecutionStateSnapshot) :
    ExecutionStateSnapshot :=
  if r.clientOrderIds.length = 0 then next else
  { coidToOid := r.clientOrderIds.foldl (fun m k => m.erase k) next.coidToOid
    oidToCoid := r.normalizedOrderIds.foldl (fun m k => m.erase k) next.oidToCoid
    coidToToken := r.clientOrderIds.foldl (fun m k => m.erase k) next.coidToToken }

namespace ExecutionStateSnapshot

variable (s : ExecutionStateSnapshot)

/-- The normalised exchange id of a client id. -/
def orderId (coid : String) : Option String := (s.coidToOid.lookup coid).map normalizeOrderId

/-- The command `InstallIdentity`. -/
def installIdentity (clientOrderId exchangeOrderId token : String) : ExecutionStateSnapshot :=
  let normalized := normalizeOrderId exchangeOrderId
  let oidToCoid := match s.orderId clientOrderId with
    | some previous => if previous ≠ normalized then s.oidToCoid.erase previous else s.oidToCoid
    | none => s.oidToCoid
  { coidToOid := s.coidToOid.insert clientOrderId exchangeOrderId
    oidToCoid := oidToCoid.insert normalized clientOrderId
    coidToToken :=
      if token.isEmpty then s.coidToToken else s.coidToToken.insert clientOrderId token }

/-- The client ids, with those of their exchange ids that lead back to them. -/
def mappings (coids : List String) : RetiredRuntimeMappings where
  clientOrderIds := coids
  normalizedOrderIds := coids.filterMap fun coid =>
    (s.orderId coid).filter fun normalized => s.oidToCoid.lookup normalized = some coid

/-- `select_token_mappings`: the client ids of the tokens of a settling market, of the owned ones if
these are given. -/
def selectTokenMappings (settling : List String) (ownedCoids : Option (List String)) :
    RetiredRuntimeMappings :=
  s.mappings ((s.coidToToken.entries.filter fun e =>
    settling.contains e.2 && ownedCoids.all (·.contains e.1)).map Sigma.fst)

/-- One chunk of a retirement that was planned earlier. A client id is passed over if it has been
bound to another market since. -/
def retirementStep (tokens coids : List String) : RetiredRuntimeMappings :=
  s.mappings ((coids.take 16).filter fun coid => (s.coidToToken.lookup coid).any tokens.contains)

/-- What changes the identity maps. -/
inductive IdentityOp
  | install (clientOrderId exchangeOrderId token : String)
  | retireTokens (settling : List String) (ownedCoids : Option (List String))
  | retirementStep (tokens coids : List String)

def step : IdentityOp → ExecutionStateSnapshot
  | .install coid oid token => s.installIdentity coid oid token
  | .retireTokens settling ownedCoids => (s.selectTokenMappings settling ownedCoids).applyTo s
  | .retirementStep tokens coids => (s.retirementStep tokens coids).applyTo s

variable (ops : List IdentityOp)

def run : ExecutionStateSnapshot := ops.foldl step {}

/-- For each normalised exchange id the client id that was the last to install it. -/
abbrev Claims := String → Option String

def Claims.step (claims : Claims) : IdentityOp → Claims
  | .install coid oid _ => update claims (normalizeOrderId oid) (some coid)
  | _ => claims

def lastClaim : Claims := ops.foldl Claims.step fun _ => none

/-- A client id whose exchange id was not claimed by another one since is found under it. -/
def Reachable (claims : Claims) : Prop :=
  ∀ coid n, s.orderId coid = some n → claims n = some coid → s.oidToCoid.lookup n = some coid

/-- If the operation moves a client id to another exchange id, the entry of the previous one does
not name another client id. -/
def LeavesOthers : IdentityOp → Prop
  | .install coid oid _ => ∀ previous other, s.orderId coid = some previous →
      previous ≠ normalizeOrderId oid → s.oidToCoid.lookup previous = some other → other = coid
  | _ => True

/-- The entries of the exchange-id map name a client id that has the id and was the last to claim
it. -/
structure Agrees (claims : Claims) : Prop where
  named : ∀ n coid, s.oidToCoid.lookup n = some coid → s.orderId coid = some n
  claimed : ∀ n coid, s.oidToCoid.lookup n = some coid → claims n = some coid

variable {s} {claims : Claims} {coid oid token : String} (coids : List String)

lemma orderId_install : (s.installIdentity coid oid token).orderId =
    update s.orderId coid (some (normalizeOrderId oid)) := by
  funext d
  by_cases hd : d = coid
  · subst hd
    rw [update_self]
    exact congrArg _ (lookup_insert s.coidToOid)
  · rw [update_of_ne hd]
    exact congrArg _ (lookup_insert_ne hd)

lemma lookup_install (n : String) : (s.installIdentity coid oid token).oidToCoid.lookup n =
    if n = normalizeOrderId oid then some coid
    else if s.orderId coid = some n then none else s.oidToCoid.lookup n := by
  unfold installIdentity
  dsimp only
  rw [lookup_insert_eq_ite]
  split
  · rfl
  next hn =>
  cases s.orderId coid with
  | none => rw [if_neg nofun]
  | some previous =>
    dsimp only
    by_cases hprev : previous = n
    · subst hprev
      rw [if_pos rfl, if_pos hn, lookup_erase]
    · rw [if_neg fun h => hprev (Option.some.inj h)]
      split
      · exact lookup_erase_ne (Ne.symm hprev)
      · rfl

lemma applyTo_mappings : (s.mappings coids).applyTo s =
    { coidToOid := coids.foldl (fun m k => m.erase k) s.coidToOid
      oidToCoid := (s.mappings coids).normalizedOrderIds.foldl (fun m k => m.erase k) s.oidToCoid
      coidToToken := coids.foldl (fun m k => m.erase k) s.coidToToken } := by
  cases coids <;> rfl

lemma orderId_retire (coid : String) : ((s.mappings coids).applyTo s).orderId coid =
    if coid ∈ coids then none else s.orderId coid := by
  have hget := lookup_foldl_put s.coidToOid coid coids fun _ => none
  rw [applyTo_mappings]
  refine (congrArg _ hget).trans ?_
  split <;> rfl

namespace Agrees

variable (h : s.Agrees claims)

include h

/-- The entries of the retired client ids go, and no others. -/
lemma lookup_retire (n : String) : ((s.mappings coids).applyTo s).oidToCoid.lookup n =
    (s.oidToCoid.lookup n).filter (· ∉ coids) := by
  have hmem : n ∈ (s.mappings coids).normalizedOrderIds ↔
      ∃ coid ∈ coids, s.oidToCoid.lookup n = some coid := by
    simp only [mappings, List.mem_filterMap, Option.filter_eq_some_iff, decide_eq_true_eq]
    exact exists_congr fun coid => and_congr_right fun _ =>
      ⟨And.right, fun hn => ⟨h.named n coid hn, hn⟩⟩
  rw [applyTo_mappings]
  refine (lookup_foldl_put s.oidToCoid n _ fun _ => none).trans ?_
  cases hget : s.oidToCoid.lookup n with
  | none => exact ite_self none
  | some coid => simp [hmem, hget, Option.filter_some]

lemma retire : ((s.mappings coids).applyTo s).Agrees claims := by
  constructor
  all_goals
    intro n coid hn
    rw [h.lookup_retire, Option.filter_eq_some_iff, decide_eq_true_eq] at hn
  · rw [orderId_retire, if_neg hn.2]
    exact h.named n coid hn.1
  · exact h.claimed n coid hn.1

lemma reachable_retire (hreach : s.Reachable claims) :
    ((s.mappings coids).applyTo s).Reachable claims := by
  intro coid n hget hclaim
  rw [orderId_retire] at hget
  split at hget
  · cases hget
  next hcoid =>
  rw [h.lookup_retire, hreach coid n hget hclaim, Option.filter_some, if_pos (by simpa using hcoid)]

/-- An entry is the new one, or an old one of another client id. -/
lemma install : (s.installIdentity coid oid token).Agrees
    (claims.step (.install coid oid token)) := by
  constructor
  all_goals
    intro n d hd
    rw [lookup_install] at hd
    split at hd
  · next hn =>
    cases hd
    rw [orderId_install, update_self, hn]
  · next hn =>
    split at hd
    · cases hd
    next hprev =>
    have hold := h.named n d hd
    have hne : d ≠ coid := fun hdc => hprev (hdc ▸ hold)
    rw [orderId_install, update_of_ne hne, hold]
  · next hn =>
    rw [hn, ← hd, Claims.step, update_self]
  · next hn =>
    split at hd
    · cases hd
    rw [Claims.step, update_of_ne hn, h.claimed n d hd]

/-- An installation loses no identity exactly if it leaves the entries of the others. -/
lemma reachable_install (hreach : s.Reachable claims) :
    (s.installIdentity coid oid token).Reachable (claims.step (.install coid oid token)) ↔
      s.LeavesOthers (.install coid oid token) := by
  constructor
  · intro hafter previous other hget hmoved hother
    by_contra hne
    -- The other client id keeps its exchange id and its claim, but its entry is removed.
    have hhas := h.named previous other hother
    have hfound := hafter other previous (by rw [orderId_install, update_of_ne hne, hhas])
      (by rw [Claims.step, update_of_ne hmoved, h.claimed previous other hother])
    rw [lookup_install, if_neg hmoved, if_pos hget] at hfound
    cases hfound
  · intro hleaves d n hget hclaim
    rw [lookup_install]
    by_cases hn : n = normalizeOrderId oid
    · rw [if_pos hn, ← hclaim, hn, Claims.step, update_self]
    have hne : d ≠ coid := by
      rintro rfl
      rw [orderId_install, update_self] at hget
      exact hn (Option.some.inj hget).symm
    rw [orderId_install, update_of_ne hne] at hget
    have hold := hreach d n hget (by rwa [Claims.step, update_of_ne hn] at hclaim)
    rw [if_neg hn, if_neg fun hprev => hne (hleaves n d hprev hn hold), hold]

lemma step (op : IdentityOp) : (s.step op).Agrees (claims.step op) := by
  cases op with
  | install coid oid token => exact h.install
  | retireTokens settling ownedCoids => exact h.retire _
  | retirementStep tokens coids => exact h.retire _

lemma reachable_step (hreach : s.Reachable claims) (op : IdentityOp) :
    (s.step op).Reachable (claims.step op) ↔ s.LeavesOthers op := by
  cases op with
  | install coid oid token => exact h.reachable_install hreach
  | retireTokens settling ownedCoids => exact iff_of_true (h.reachable_retire _ hreach) trivial
  | retirementStep tokens coids => exact iff_of_true (h.reachable_retire _ hreach) trivial

end Agrees

lemma agrees_run : (run ops).Agrees (lastClaim ops) := by
  induction ops using List.reverseRecOn with
  | nil => exact ⟨nofun, nofun⟩
  | append_singleton ops op ih =>
    rw [run, lastClaim, List.foldl_concat, List.foldl_concat]
    exact ih.step op

/-- After any operations an entry of the exchange-id map names a client id that has the exchange id.
All client ids whose exchange id nobody else has claimed since are found under it, at every time of
the run, exactly if no operation of the run takes away the entry of another client id. -/
theorem identity_maps_agree (ops : List IdentityOp) :
    (∀ n coid, (run ops).oidToCoid.lookup n = some coid → (run ops).orderId coid = some n) ∧
    ((∀ past, past <+: ops → (run past).Reachable (lastClaim past)) ↔
      ∀ past op, past ++ [op] <+: ops → (run past).LeavesOthers op) := by
  refine ⟨(agrees_run ops).named, ?_⟩
  have hstep past op
      (hreach : (run past).Reachable (lastClaim past)) :
      (run (past ++ [op])).Reachable (lastClaim (past ++ [op])) ↔ (run past).LeavesOthers op := by
    rw [run, lastClaim, List.foldl_concat, List.foldl_concat]
    exact (agrees_run past).reachable_step hreach op
  constructor
  · intro hreach past op hpast
    have hbefore := hreach past ((List.prefix_append past [op]).trans hpast)
    exact (hstep past op hbefore).1 (hreach _ hpast)
  · intro hleaves past hpast
    induction past using List.reverseRecOn with
    | nil => exact nofun
    | append_singleton past op ih =>
      have hbefore := ih ((List.prefix_append past [op]).trans hpast)
      exact (hstep past op hbefore).2 (hleaves past op hpast)

/-- Two orders are given one exchange id and the first one moves to another: the second still has
the id and was the last to claim it, but is not found under it any more. -/
theorem identity_taken_away :
    let ops : List IdentityOp :=
      [.install "a" "0x1" "t", .install "b" "0x1" "t", .install "a" "0x2" "t"]
    (run ops).orderId "b" = some "1" ∧ lastClaim ops "1" = some "b" ∧
      (run ops).oidToCoid.lookup "1" = none := by
  decide +kernel

end ExecutionStateSnapshot

end HexAgent.Exchange
