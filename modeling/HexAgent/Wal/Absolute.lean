import HexAgent.ToMathlib.LastWrite
import HexAgent.Wal.Change

/-!
# Absolute changes

The typed jobs of the account write rows and edit the audit sets. No row lies inside another one or
inside a set, so such changes are absolute: the last write of a row and the last edit of a member
win, and the order of the others does not matter.

The audit sets have to be free of duplicates, because taking a member out and putting it back in
would drop the second copy.
-/

namespace HexAgent.Wal

open Function List Option PersistenceWalChange View Json

variable {p : List String} {m : Multiset Json} {w' : View} {q : List String} {present : Bool}

/-- Paths of the rows that typed jobs write. -/
inductive RowPath : List String → Prop
  | cash (instanceId : String) : RowPath ["instances", instanceId, "cash"]
  | reservedCash (instanceId : String) : RowPath ["instances", instanceId, "reserved_cash"]
  | position (instanceId token : String) : RowPath ["instances", instanceId, "positions", token]
  | reservedPosition (instanceId token : String) :
    RowPath ["instances", instanceId, "reserved_positions", token]
  | order (coid : String) : RowPath ["orders", coid]
  | oid (orderId : String) : RowPath ["oid_to_coid", orderId]
  | trade (key : String) : RowPath ["trades", key]
  | unresolved (key : String) : RowPath ["unresolved_trade_match_times", key]
  | ledgerGeneration : RowPath ["ledger_generation"]

/-- A change of a row or of an audit set. -/
def PersistenceWalChange.Absolute : PersistenceWalChange → Prop
  | .set path _ => RowPath path
  | .remove path => RowPath path
  | .setInsert path _ => path ∈ auditSets
  | .setRemove path _ => path ∈ auditSets

/-- What a change writes: a row, or the membership of one value. -/
def PersistenceWalChange.slot : PersistenceWalChange → List String × Option Json
  | .set path _ => (path, none)
  | .remove path => (path, none)
  | .setInsert path value => (path, some value)
  | .setRemove path value => (path, some value)

/-- A row does not lie inside another row. -/
lemma RowPath.eq_of_prefix (hp : RowPath p) (hq : RowPath q) (h : p <+: q) : p = q := by
  cases hp <;> cases hq <;> simp_all [cons_prefix_cons]

/-- A row and a set do not lie inside each other. -/
lemma RowPath.not_prefix_set (hp : RowPath p) (hq : q ∈ auditSets) : ¬p <+: q ∧ ¬q <+: p := by
  simp only [auditSets, mem_cons, not_mem_nil, or_false] at hq
  rcases hq with rfl | rfl | rfl | rfl <;> cases hp <;> simp [cons_prefix_cons]

/-! ## Members -/

lemma count_setMember (value : Json) (present : Bool) (m : Multiset Json) (j : Json) :
    (setMember value present m).count j =
      if j = value then (if present then max 1 (m.count value) else 0) else m.count j := by
  unfold setMember
  cases present with
  | true =>
    rw [if_pos rfl, if_pos rfl]
    by_cases hj : j = value
    · subst hj
      rw [if_pos rfl]
      split
      · next hmem => rw [max_eq_right (Multiset.one_le_count_iff_mem.2 hmem)]
      · next hmem => rw [Multiset.count_cons_self, Multiset.count_eq_zero.2 hmem]; rfl
    · rw [if_neg hj]
      split
      · rfl
      · exact Multiset.count_cons_of_ne hj m
  | false =>
    rw [if_neg Bool.false_ne_true, if_neg Bool.false_ne_true, Multiset.count_filter]
    by_cases hj : j = value <;> simp [hj]

lemma nodup_setMember (h : m.Nodup) {value : Json} : (setMember value present m).Nodup := by
  rw [Multiset.nodup_iff_count_le_one] at h ⊢
  intro j
  rw [count_setMember]
  have hvalue := h value
  have hj := h j
  split
  · split <;> omega
  · exact hj

/-- The last edit of a member wins. -/
lemma setMember_setMember (h : m.Nodup) (value : Json) (first last : Bool) :
    setMember value last (setMember value first m) = setMember value last m := by
  have hcount := Multiset.nodup_iff_count_le_one.1 h value
  refine Multiset.ext.2 fun j => ?_
  simp only [count_setMember]
  by_cases hj : j = value
  · cases first <;> cases last <;> simp [hj]
    omega
  · simp [hj]

/-- Edits of different members do not depend on their order. -/
lemma setMember_comm {value value' : Json} (hne : value ≠ value') (b b' : Bool)
    (m : Multiset Json) :
    setMember value' b' (setMember value b m) = setMember value b (setMember value' b' m) := by
  refine Multiset.ext.2 fun j => ?_
  simp only [count_setMember]
  by_cases hj : j = value
  · subst hj
    simp [hne]
  · simp [hj, Ne.symm hne]

/-! ## Views -/

namespace View

variable {w : View} {path path' : List String} {value : Option Json}

/-- The audit sets are shown as such and hold no member twice. -/
def Distinct (w : View) : Prop :=
  ∀ p ∈ auditSets, (∀ m, w p = some (.members m) → m.Nodup) ∧
    ∀ items, w p ≠ some (.leaf (.arr items))

/-- The members at a path. -/
def membersAt (w : View) (path : List String) : Option (Multiset Json) :=
  match w path with
  | some (.members m) => some m
  | _ => none

lemma membersAt_eq_some (h : w.membersAt path = some m) : w path = some (.members m) := by
  unfold membersAt at h
  split at h
  · next hw => rw [hw, some.inj h]
  · cases h

lemma Distinct.edit_eq (h : w.Distinct) (hpath : path ∈ auditSets)
    {f : Multiset Json → Multiset Json} {g : List Json → List Json} :
    w.edit path f g =
      (w.membersAt path).map fun m => update w path (some (.members (f m))) := by
  unfold edit membersAt
  split
  · next hw => rw [hw]; rfl
  · next items hw => exact absurd hw ((h path hpath).2 items)
  next hw _ =>
  split
  · next m hm => exact absurd hm (hw m)
  · rfl

/-- The membership of a value at a path. -/
def mark (w : View) (path : List String) (value : Json) (present : Bool) : Option View :=
  (w.membersAt path).map fun m => update w path (some (.members (setMember value present m)))

lemma Distinct.mark (h : w.Distinct) {value : Json} (hw : w.mark path value present = some w') :
    w'.Distinct := by
  obtain ⟨m, hm, rfl⟩ := map_eq_some_iff.1 hw
  intro p hp
  by_cases heq : p = path
  · subst heq
    rw [update_self]
    have hnd := (h p hp).1 m (membersAt_eq_some hm)
    refine ⟨fun m' hm' => ?_, by simp⟩
    cases hm'
    exact nodup_setMember hnd
  · rw [update_of_ne heq]
    exact h p hp

lemma put_eq_some (h : w.put path value = some w') :
    w path.dropLast = some .node ∧
      ∀ p, w' p = if path <+: p then shown path value p else w p := by
  unfold put at h
  split at h
  · next hnode =>
    cases h
    exact ⟨hnode, fun _ => rfl⟩
  · cases h

/-- Entries outside of the sets do not change them. -/
lemma Distinct.put (h : w.Distinct) (hpath : ∀ p ∈ auditSets, ¬path <+: p)
    (hw : w.put path value = some w') : w'.Distinct := by
  obtain ⟨-, hw'⟩ := put_eq_some hw
  intro p hp
  rw [hw' p, if_neg (hpath p hp)]
  exact h p hp

/-- The last write of an entry wins. -/
lemma put_put (hne : path ≠ []) (v v' : Option Json) :
    (w.put path v).bind (·.put path v') = w.put path v' := by
  have hlast : ¬path <+: path.dropLast := fun h => by
    have := h.length_le
    have := length_pos_of_ne_nil hne
    rw [length_dropLast] at *
    omega
  unfold put
  cases hnode : w path.dropLast with
  | none => rfl
  | some cell =>
    cases cell with
    | node =>
      simp only [bind_some, if_neg hlast, hnode]
      refine congrArg some (funext fun p => ?_)
      split <;> rfl
    | _ => rfl

/-- Writes of entries of which none lies inside the other. -/
lemma put_comm (h : ¬path <+: path') (h' : ¬path' <+: path) (v v' : Option Json) :
    (w.put path v).bind (·.put path' v') = (w.put path' v').bind (·.put path v) := by
  have hlast : ¬path <+: path'.dropLast := fun hp => h (hp.trans ( dropLast_prefix _))
  have hlast' : ¬path' <+: path.dropLast := fun hp => h' (hp.trans ( dropLast_prefix _))
  unfold put
  cases hnode : w path.dropLast with
  | none => cases hnode' : w path'.dropLast with
    | none => rfl
    | some cell' => cases cell' <;> simp [hnode, if_neg hlast']
  | some cell =>
    cases hnode' : w path'.dropLast with
    | none => cases cell <;> simp [hnode', if_neg hlast]
    | some cell' =>
      cases cell <;> cases cell' <;> simp only [bind_some, bind_none, if_neg hlast,
        if_neg hlast', hnode, hnode']
      refine congrArg some (funext fun p => ?_)
      by_cases hp : path <+: p
      · have hp' : ¬path' <+: p := fun hp' =>
          ( prefix_or_prefix_of_prefix hp hp').elim h h'
        rw [if_pos hp, if_neg hp', if_pos hp]
      · rw [if_neg hp, if_neg hp]

/-- The last edit of a member wins. -/
lemma mark_mark (h : w.Distinct) (hpath : path ∈ auditSets) (value : Json) (b b' : Bool) :
    (w.mark path value b).bind (·.mark path value b') = w.mark path value b' := by
  unfold mark
  cases hm : w.membersAt path with
  | none => rfl
  | some m =>
    have hnd := (h path hpath).1 m (membersAt_eq_some hm)
    simp [membersAt, setMember_setMember hnd]

/-- Edits of different members do not depend on their order. -/
lemma mark_comm {value value' : Json} (hne : (path, value) ≠ (path', value')) (b b' : Bool) :
    (w.mark path value b).bind (·.mark path' value' b') =
      (w.mark path' value' b').bind (·.mark path value b) := by
  unfold mark
  by_cases hpath : path = path'
  · subst hpath
    have hvalue : value ≠ value' := fun h => hne (by rw [h])
    cases hm : w.membersAt path with
    | none => rfl
    | some m => simp [membersAt, setMember_comm hvalue]
  · have hkeep x :
        membersAt (update w path x) path' = w.membersAt path' := by
      rw [membersAt, membersAt, update_of_ne (Ne.symm hpath)]
    have hkeep' x :
        membersAt (update w path' x) path = w.membersAt path := by
      rw [membersAt, membersAt, update_of_ne hpath]
    cases hm : w.membersAt path <;> cases hm' : w.membersAt path' <;>
      simp [hkeep, hkeep', hm, hm', update_comm hpath]

/-- A set and an entry of which none lies inside the other. -/
lemma put_mark_comm (h : ¬path <+: path') (h' : ¬path' <+: path) (v : Option Json) (value : Json)
    (b : Bool) :
    (w.put path v).bind (·.mark path' value b) = (w.mark path' value b).bind (·.put path v) := by
  have hlast : path.dropLast ≠ path' := fun heq => h' (heq ▸ dropLast_prefix _)
  have hne : path ≠ path' := fun heq => h (heq ▸ prefix_refl _)
  unfold put mark
  have hkeep x : update w path' x path.dropLast = w path.dropLast :=
    update_of_ne hlast _ _
  cases hm : w.membersAt path' with
  | none =>
    cases hnode : w path.dropLast with
    | none => rfl
    | some cell =>
      cases cell <;> try rfl
      simp only [bind_some, membersAt, if_neg h, map_none, bind_none]
      rw [← membersAt, hm]
      rfl
  | some m =>
    simp only [map_some, bind_some, hkeep]
    cases hnode : w path.dropLast with
    | none => rfl
    | some cell =>
      cases cell <;> try rfl
      simp only [bind_some, membersAt, if_neg h, membersAt_eq_some hm, map_some]
      refine congrArg some (funext fun p => ?_)
      by_cases hp : p = path'
      · subst hp
        rw [update_self, if_neg h, update_self]
      · rw [update_of_ne hp]
        split
        · rfl
        · rw [update_of_ne hp]

end View

/-! ## Changes -/

lemma RowPath.ne_nil (h : RowPath p) : p ≠ [] := by
  cases h <;> simp

variable {change : PersistenceWalChange} {w : View}

/-- An absolute change writes an entry or marks a member. -/
lemma PersistenceWalChange.Absolute.cases (h : change.Absolute) :
    (∃ path value, RowPath path ∧ change.slot = (path, none) ∧
      ∀ w : View, w.apply change = w.put path value) ∨
    ∃ path value present, path ∈ auditSets ∧ change.slot = (path, some value) ∧
      ∀ w : View, w.Distinct → w.apply change = w.mark path value present := by
  cases change with
  | set path value => exact .inl ⟨path, some value, h, rfl, fun w => if_neg h.ne_nil⟩
  | remove path => exact .inl ⟨path, none, h, rfl, fun w => if_neg h.ne_nil⟩
  | setInsert path value => exact .inr ⟨path, value, true, h, rfl, fun w hw => hw.edit_eq h⟩
  | setRemove path value => exact .inr ⟨path, value, false, h, rfl, fun w hw => hw.edit_eq h⟩

lemma View.Distinct.of_absolute (hw : w.Distinct) (h : change.Absolute)
    (happ : w.apply change = some w') : w'.Distinct := by
  rcases h.cases with ⟨path, value, hpath, -, hput⟩ | ⟨path, value, present, -, -, hmark⟩
  · rw [hput] at happ
    exact hw.put (fun p hp => (hpath.not_prefix_set hp).1) happ
  · rw [hmark w hw] at happ
    exact hw.mark happ

/-- The changes of typed jobs are absolute. -/
lemma lastWriteWins :
    LastWriteWins apply slot Absolute Distinct where
  good h hw happly := hw.of_absolute h happly
  absorb := by
    intro c d w hc hd hw hslot
    rcases hc.cases with ⟨path, v, hpath, hs, hput⟩ | ⟨path, v, b, hpath, hs, hmark⟩ <;>
      rcases hd.cases with ⟨path', v', -, hs', hput'⟩ | ⟨path', v', b', -, hs', hmark'⟩ <;>
      rw [hs, hs', Prod.mk.injEq] at hslot
    · obtain ⟨rfl, -⟩ := hslot
      rw [hput, hput', ← put_put hpath.ne_nil v v']
      exact bind_congr fun t _ => hput' t
    · cases hslot.2
    · cases hslot.2
    · obtain ⟨rfl, hvalue⟩ := hslot
      cases hvalue
      rw [hmark w hw, hmark' w hw, ← mark_mark hw hpath v b b']
      exact bind_congr fun t ht => hmark' t (hw.mark ht)
  comm := by
    intro c d w hc hd hw hslot
    rcases hc.cases with ⟨path, v, hpath, hs, hput⟩ | ⟨path, v, b, hpath, hs, hmark⟩ <;>
      rcases hd.cases with ⟨path', v', hpath', hs', hput'⟩ |
        ⟨path', v', b', hpath', hs', hmark'⟩ <;>
      rw [hs, hs'] at hslot
    · have hne : path ≠ path' := fun h => hslot (by rw [h])
      rw [hput, hput', bind_congr fun t _ => hput' t, bind_congr fun t _ => hput t]
      exact put_comm (fun h => hne (hpath.eq_of_prefix hpath' h))
        (fun h => hne (hpath'.eq_of_prefix hpath h).symm) v v'
    · obtain ⟨h, h'⟩ := hpath.not_prefix_set hpath'
      have hdist t (ht : w.put path v = some t) : t.Distinct :=
        hw.put (fun p hp => (hpath.not_prefix_set hp).1) ht
      rw [hput, hmark' w hw, bind_congr fun t ht => hmark' t (hdist t ht),
        bind_congr fun t _ => hput t]
      exact put_mark_comm h h' v v' b'
    · obtain ⟨h, h'⟩ := hpath'.not_prefix_set hpath
      have hdist t (ht : w.put path' v' = some t) : t.Distinct :=
        hw.put (fun p hp => (hpath'.not_prefix_set hp).1) ht
      rw [hmark w hw, hput', bind_congr fun t _ => hput' t,
        bind_congr fun t ht => hmark t (hdist t ht)]
      exact (put_mark_comm h h' v' v b).symm
    · have hne : (path, v) ≠ (path', v') := fun h => hslot (by
        obtain ⟨rfl, rfl⟩ := Prod.mk.inj h
        rfl)
      rw [hmark w hw, hmark' w hw, bind_congr fun t ht => hmark' t (hw.mark ht),
        bind_congr fun t ht => hmark t (hw.mark ht)]
      exact mark_comm hne b b'

/-- A change that does not put a member into a set twice. Only replacing a whole set could. -/
def PersistenceWalChange.KeepsSets : PersistenceWalChange → Prop
  | .set path value => ∀ p ∈ auditSets, path <+: p → ∀ items,
    value.get (p.drop path.length) = some (.arr items) → items.Nodup
  | _ => True

/-- No audit set holds a member twice. -/
def SetsNodup (state : Json) : Prop :=
  ∀ p ∈ auditSets, ∀ items, state.get p = some (.arr items) → items.Nodup

/-- A set is shown without its order. -/
lemma shape_set {x : Option Json} (hp : p ∈ auditSets)
    (h : ∀ items, x = some (.arr items) → items.Nodup) :
    (∀ m, x.map (shape (auditSets.contains p)) = some (.members m) → m.Nodup) ∧
      ∀ items, x.map (shape (auditSets.contains p)) ≠ some (.leaf (.arr items)) := by
  rw [List.contains_iff_mem.2 hp]
  cases x with
  | none => simp
  | some j =>
    cases j with
    | arr items =>
      refine ⟨fun m hm => ?_, nofun⟩
      cases hm
      exact Multiset.coe_nodup.2 (h items rfl)
    | _ => simp [shape]

lemma SetsNodup.distinct {state : Json} (h : SetsNodup state) : (durableView state).Distinct :=
  fun p hp => shape_set hp (h p hp)

/-- Changes keep the audit sets free of duplicates. -/
lemma View.Distinct.apply (hw : w.Distinct) (h : change.KeepsSets)
    (happ : w.apply change = some w') : w'.Distinct := by
  -- Edits of an array outside of the sets leave the sets alone.
  have hedit {path : List String} {f : Multiset Json → Multiset Json} {g : List Json → List Json}
      (hpath : path ∉ auditSets) (hw' : w.edit path f g = some w') : w'.Distinct := by
    intro p hp
    have hsame : w' p = w p := by
      have hne : p ≠ path := fun heq => hpath (heq ▸ hp)
      unfold edit at hw'
      split at hw' <;> cases hw' <;> exact update_of_ne hne _ _
    rw [hsame]
    exact hw p hp
  -- An entry is written, together with the sets in it.
  have hput {path : List String} {value : Option Json} (hw' : w.put path value = some w')
      (hvalue : ∀ p ∈ auditSets, path <+: p → ∀ items,
        value.bind (·.get (p.drop path.length)) = some (.arr items) → items.Nodup) :
      w'.Distinct := by
    obtain ⟨-, hshow⟩ := put_eq_some hw'
    intro p hp
    rw [hshow p]
    split
    · next hprefix => exact shape_set hp (hvalue p hp hprefix)
    · exact hw p hp
  cases change with
  | set path value =>
    rw [apply] at happ
    split at happ
    · next hroot =>
      cases happ
      subst hroot
      exact SetsNodup.distinct fun p hp => h p hp nil_prefix
    · exact hput happ h
  | remove path =>
    rw [apply] at happ
    split at happ
    · cases happ
    · exact hput happ (by rintro _ _ _ _ ⟨⟩)
  | setInsert path value =>
    by_cases hpath : path ∈ auditSets
    · exact hw.of_absolute (show (setInsert path value).Absolute from hpath) happ
    · exact hedit hpath happ
  | setRemove path value =>
    by_cases hpath : path ∈ auditSets
    · exact hw.of_absolute (show (setRemove path value).Absolute from hpath) happ
    · exact hedit hpath happ

lemma View.Distinct.foldlM (hw : w.Distinct) {changes : List PersistenceWalChange}
    (h : ∀ change ∈ changes, change.Absolute ∨ change.KeepsSets)
    (happ : changes.foldlM View.apply w = some w') : w'.Distinct := by
  induction changes generalizing w with
  | nil =>
    cases happ
    exact hw
  | cons change changes ih =>
    obtain ⟨t, ht, hrest⟩ := bind_eq_some_iff.1 happ
    exact ih ((h change (.head _)).elim (hw.of_absolute · ht) (hw.apply · ht))
      (fun c hc => h c (.tail _ hc)) hrest

end HexAgent.Wal
