import HexAgent.Wal.Change
import Mathlib.Data.List.Dedup
import Mathlib.Data.List.Sort

/-!
# Differences of durable trees

`persistence_json_diff` lists the changes that turn one durable tree into another. It descends into
the objects that both trees have at a path, key by key, and writes or removes whatever else differs.
So no change covers a member that both trees have with one value (`Apart`).

Trees are compared by what they show at every path (`Json.view`, with no array taken as a set):
objects are maps, so two trees that show the same are the same value.
-/

namespace HexAgent.Wal

open List Json

variable {key : String}

/-- The keys of two objects, in order. -/
def unionKeys (fs gs : List (String × Json)) : List String :=
  ((fs ++ gs).map (·.1)).dedup.insertionSort (· ≤ ·)

lemma sizeOf_lookup_lt {fs : List (String × Json)} {value : Json} (h : fs.lookup key = some value) :
    sizeOf value < sizeOf (obj fs) := by
  obtain ⟨l, r, rfl, -⟩ := lookup_eq_some_iff.1 h
  have hmem : sizeOf (key, value) < sizeOf (l ++ (key, value) :: r) := sizeOf_lt_of_mem (by simp)
  simp only [Prod.mk.sizeOf_spec] at hmem
  simp only [obj.sizeOf_spec]
  omega

/-- `visit`: the changes from a path on. -/
def diffAt (durable next : Json) (path : List String) : List PersistenceWalChange :=
  if durable = next then []
  else
    match durable, next with
    | .obj fs, .obj gs => (unionKeys fs gs).flatMap fun key =>
      match _h : fs.lookup key, gs.lookup key with
      | some before, some after => diffAt before after (path ++ [key])
      | none, some value => [.set (path ++ [key]) value]
      | some _, none => [.remove (path ++ [key])]
      | none, none => []
    | _, next => [.set path next]
termination_by sizeOf durable
decreasing_by exact sizeOf_lookup_lt _h

def persistenceJsonDiff (durable next : Json) : List PersistenceWalChange := diffAt durable next []

/-- The changes of one entry of an object. -/
def diffEntry (path : List String) : Option Json → Option Json → List PersistenceWalChange
  | some before, some after => diffAt before after path
  | none, some value => [.set path value]
  | some _, none => [.remove path]
  | none, none => []

variable {a b root r : Json} {path : List String} {fs gs : List (String × Json)}

lemma diffAt_self : diffAt a a path = [] := by
  rw [diffAt.eq_def, if_pos rfl]

lemma diffAt_obj (h : obj fs ≠ .obj gs) : diffAt (.obj fs) (.obj gs) path =
    (unionKeys fs gs).flatMap fun key =>
      diffEntry (path ++ [key]) (fs.lookup key) (gs.lookup key) := by
  rw [diffAt.eq_def, if_neg h]
  refine congrArg (flatMap · _) (funext fun key => ?_)
  split <;> next hf hg => rw [hf, hg, diffEntry]

lemma diffAt_leaf (h : a ≠ b) (hobj : ∀ fs gs, a = .obj fs → b ≠ .obj gs) :
    diffAt a b path = [.set path b] := by
  rw [diffAt.eq_def, if_neg h]
  split
  · exact absurd rfl (hobj _ _ rfl)
  · rfl

/-! ## The patch -/

/-- From the path on, the tree shows the value. -/
def Shows (root : Json) (path : List String) (value : Option Json) : Prop :=
  ∀ rest, Json.view [] root (path ++ rest) = (value.bind (·.get rest)).map (Json.shape false)

/-- From the path on, the new tree shows the value; elsewhere it shows what the old one did. -/
structure Patched (root : Json) (path : List String) (value : Option Json) (r : Json) : Prop where
  shows : Shows r path value
  frame : ∀ p, ¬path <+: p → Json.view [] r p = Json.view [] root p

lemma patched_editEntry {value : Option Json} {edit : List (String × Json) → List (String × Json)}
    (hedit : ∀ fields other, (edit fields).lookup other =
      if other = key then value else fields.lookup other)
    (hnode : view [] root path = some .node) :
    ∃ r, editEntry root (path ++ [key]) edit = .ok r ∧ Patched root (path ++ [key]) value r := by
  obtain ⟨j, hget, hshape⟩ := Option.map_eq_some_iff.1 hnode
  cases j with
  | obj fields =>
    refine ⟨root.replace path (.obj (edit fields)), ?_, fun rest => ?_, fun p hp => ?_⟩
    · rw [editEntry, dropLast_concat, hget]
    · rw [view_replace_obj hget (hedit fields), if_pos (prefix_append _ _), drop_left]
      rfl
    · rw [view_replace_obj hget (hedit fields), if_neg hp]
  | _ => cases hshape

/-- What is below an entry of a path is below an object. -/
lemma Shows.parent (h : Shows root (path ++ [key]) (some a)) :
    view [] root path = some .node := by
  have hentry := h []
  rw [append_nil, view, get_append] at hentry
  obtain ⟨j, hget, -⟩ := Option.map_eq_some_iff.1 hentry
  obtain ⟨c, hc, hchild⟩ := Option.bind_eq_some_iff.1 hget
  rw [view, hc]
  cases c with
  | obj fields => rfl
  | _ => cases hchild

/-- The changes of an entry of an object write the entry, if those below it do. -/
lemma patched_diffEntry {before : Option Json} {after : Option Json}
    (hnode : view [] root path = some .node) (hshows : Shows root (path ++ [key]) before)
    (hboth : ∀ v w, before = some v → after = some w →
      ∃ r, (diffAt v w (path ++ [key])).foldlM applyPersistenceWalChange root = .ok r ∧
        Patched root (path ++ [key]) (some w) r) :
    ∃ r, (diffEntry (path ++ [key]) before after).foldlM applyPersistenceWalChange root = .ok r ∧
      Patched root (path ++ [key]) after r := by
  match before, after with
  | some v, some w => exact hboth v w rfl rfl
  | none, some w =>
    obtain ⟨r, heq, hpatch⟩ := patched_editEntry
      (fun fields other => lookup_insertField key other w fields) hnode
    exact ⟨r, by simp [diffEntry, applyPersistenceWalChange, heq], hpatch⟩
  | some v, none =>
    obtain ⟨r, heq, hpatch⟩ := patched_editEntry
      (fun fields other => lookup_eraseField key other fields) hnode
    exact ⟨r, by simp [diffEntry, applyPersistenceWalChange, heq], hpatch⟩
  | none, none => exact ⟨root, rfl, hshows, fun _ _ => rfl⟩

lemma prefix_below_iff {k k' : String} {rest : List String} :
    path ++ [k] <+: path ++ [k'] ++ rest ↔ k = k' := by
  simp

/-- The changes of the entries of an object, key by key: an entry is not touched by the others. -/
lemma patched_keys {ks : List String} (hks : ks.Nodup) (hnode : view [] root path = some .node)
    (hshows : ∀ k ∈ ks, Shows root (path ++ [k]) (fs.lookup k))
    (hboth : ∀ k v w root, fs.lookup k = some v → Shows root (path ++ [k]) (some v) →
      ∃ r, (diffAt v w (path ++ [k])).foldlM applyPersistenceWalChange root = .ok r ∧
        Patched root (path ++ [k]) (some w) r) :
    ∃ r, (ks.flatMap fun k => diffEntry (path ++ [k]) (fs.lookup k) (gs.lookup k)).foldlM
        applyPersistenceWalChange root = .ok r ∧
      (∀ k ∈ ks, Shows r (path ++ [k]) (gs.lookup k)) ∧
      ∀ p, (∀ k ∈ ks, ¬path ++ [k] <+: p) → view [] r p = view [] root p := by
  induction ks generalizing root with
  | nil => exact ⟨root, rfl, nofun, fun _ _ => rfl⟩
  | cons k ks ih =>
    obtain ⟨hk, hks⟩ := nodup_cons.1 hks
    obtain ⟨s, hs, hpatch⟩ := patched_diffEntry hnode
      (hshows k mem_cons_self) fun v w hv _ =>
        hboth k v w root hv (hv ▸ hshows k mem_cons_self)
    have hkeep k' (hk' : k' ∈ ks) rest :
        ¬path ++ [k] <+: path ++ [k'] ++ rest := fun h => hk (prefix_below_iff.1 h ▸ hk')
    obtain ⟨r, hr, hentries, hframe⟩ := ih hks
      ((hpatch.frame path fun h => by simpa using h.length_le).trans hnode)
      fun k' hk' rest => (hpatch.frame _ (hkeep k' hk' rest)).trans
        (hshows k' (mem_cons_of_mem _ hk') rest)
    refine ⟨r, ?_, forall_mem_cons.2 ⟨fun rest => ?_, hentries⟩, fun p hp => ?_⟩
    · rw [flatMap_cons, foldlM_append, hs]
      exact hr
    · rw [hframe _ fun k' hk' h => hk (by rwa [← prefix_below_iff.1 h])]
      exact hpatch.shows rest
    · rw [forall_mem_cons] at hp
      rw [hframe p hp.2, hpatch.frame p hp.1]

lemma lookup_eq_none_of_notMem (h : key ∉ unionKeys fs gs) :
    fs.lookup key = none ∧ gs.lookup key = none := by
  rw [unionKeys, mem_insertionSort, mem_dedup, map_append, mem_append, not_or] at h
  have hnone (fields : List (String × Json)) (hkey : key ∉ fields.map (·.1)) :
      fields.lookup key = none :=
    lookup_eq_none_iff.2 fun e he => bne_iff_ne.2 fun heq => hkey (mem_map.2 ⟨e, he, heq.symm⟩)
  exact ⟨hnone fs h.1, hnone gs h.2⟩

/-- The changes between two values, made where the first one is, lead to the second one. -/
lemma patched_diffAt (h : Shows root path (some a)) :
    ∃ r, (diffAt a b path).foldlM applyPersistenceWalChange root = .ok r ∧
      Patched root path (some b) r := by
  induction hsize : sizeOf a using Nat.strong_induction_on generalizing a b path root with
  | _ size ih =>
    by_cases hab : a = b
    · exact ⟨root, by rw [hab, diffAt_self]; rfl, hab ▸ h, fun _ _ => rfl⟩
    by_cases hobj : ∃ fs gs, a = .obj fs ∧ b = .obj gs
    · obtain ⟨fs, gs, rfl, rfl⟩ := hobj
      have hnode := h []
      rw [append_nil] at hnode
      have hks : (unionKeys fs gs).Nodup := (perm_insertionSort _ _).nodup_iff.2 (nodup_dedup _)
      obtain ⟨r, hr, hentries, hframe⟩ := patched_keys hks hnode
        (fun k _ rest => (append_assoc path [k] rest).symm ▸ h (k :: rest))
        fun k v w root hv hroot => ih _ (hsize ▸ sizeOf_lookup_lt hv) hroot rfl
      refine ⟨r, by rw [diffAt_obj hab, hr], fun rest => ?_, fun p hp => ?_⟩
      · -- a key of neither object shows nothing, before and after
        cases rest with
        | nil =>
          rw [append_nil, hframe path fun k _ h => by simpa using h.length_le]
          exact hnode
        | cons k rest =>
          by_cases hk : k ∈ unionKeys fs gs
          · rw [append_cons]
            exact hentries k hk rest
          · obtain ⟨hf, hg⟩ := lookup_eq_none_of_notMem hk
            rw [append_cons, hframe _ fun k' hk' h => hk (by rwa [← prefix_below_iff.1 h]),
              ← append_cons, h]
            simp [Json.get, Json.child, hf, hg]
      · exact hframe p fun k _ h => hp ((prefix_append _ _).trans h)
    · rw [diffAt_leaf hab fun fs gs ha hb => hobj ⟨fs, gs, ha, hb⟩]
      rcases eq_nil_or_concat' path with rfl | ⟨path, key, rfl⟩
      · exact ⟨b, rfl, fun rest => rfl, fun p hp => absurd nil_prefix hp⟩
      · obtain ⟨r, heq, hpatch⟩ := patched_editEntry
          (fun fields other => lookup_insertField key other b fields) h.parent
        exact ⟨r, by simp [applyPersistenceWalChange, heq], hpatch⟩

/-! ## The changes -/

/-- From the path on, the two values have nothing in common. -/
structure Apart (a b : Json) (path : List String) : Prop where
  differ : a.get path ≠ b.get path
  below : ∀ rest value, a.get (path ++ rest) = some value → b.get (path ++ rest) ≠ some value

/-- Values of which at most one is an object have at most their root in common. -/
lemma apart_of_leaf (hab : a ≠ b) (hobj : ∀ fs gs, a = .obj fs → b ≠ .obj gs) :
    Apart a b [] := by
  refine ⟨fun heq => hab (Option.some.inj heq), fun rest value ha hb => ?_⟩
  rw [nil_append] at ha hb
  cases rest with
  | nil => exact hab (Option.some.inj (ha.trans hb.symm))
  | cons key rest =>
    -- Only an object has something below its root.
    cases a with
    | obj fs =>
      cases b with
      | obj gs => exact hobj fs gs rfl rfl
      | _ => cases hb
    | _ => cases ha

/-- A change is made where the two values differ, and covers nothing that they have in common. -/
lemma apart_of_mem_diffAt {change : PersistenceWalChange} (h : change ∈ diffAt a b path) :
    ∃ rest, change.path = path ++ rest ∧ Apart a b rest := by
  induction hsize : sizeOf a using Nat.strong_induction_on generalizing a b path with
  | _ size ih =>
    by_cases hab : a = b
    · rw [hab, diffAt_self] at h
      cases h
    by_cases hobj : ∃ fs gs, a = .obj fs ∧ b = .obj gs
    · obtain ⟨fs, gs, rfl, rfl⟩ := hobj
      rw [diffAt_obj hab, mem_flatMap] at h
      obtain ⟨key, -, h⟩ := h
      suffices hentry : ∃ rest, change.path = path ++ [key] ++ rest ∧
          Apart (.obj fs) (.obj gs) (key :: rest) by
        obtain ⟨rest, hpath, hapart⟩ := hentry
        exact ⟨key :: rest, hpath.trans (append_assoc _ _ _), hapart⟩
      unfold diffEntry at h
      split at h
      · next before after hf hg =>
        obtain ⟨rest, hpath, hapart⟩ := ih _ (hsize ▸ sizeOf_lookup_lt hf) h rfl
        have hget (p : List String) : (obj fs).get (key :: p) = before.get p ∧
            (obj gs).get (key :: p) = after.get p := by
          simp [Json.get, Json.child, hf, hg]
        refine ⟨rest, hpath, ?_, fun below value => ?_⟩
        · rw [(hget rest).1, (hget rest).2]
          exact hapart.differ
        · rw [cons_append, (hget _).1, (hget _).2]
          exact hapart.below below value
      · -- An entry that only one of the objects has shares nothing with the other object.
        next hf hg =>
        rw [mem_singleton.1 h]
        refine ⟨[], (append_nil _).symm, ?_, fun below value ha => ?_⟩
        · simp [Json.get, Json.child, hf, hg]
        · simp [Json.get, Json.child, hf] at ha
      · next hf hg =>
        rw [mem_singleton.1 h]
        refine ⟨[], (append_nil _).symm, ?_, fun below value _ hb => ?_⟩
        · simp [Json.get, Json.child, hf, hg]
        · simp [Json.get, Json.child, hg] at hb
      · cases h
    · have hleaf : ∀ fs gs, a = .obj fs → b ≠ .obj gs := fun fs gs ha hb => hobj ⟨fs, gs, ha, hb⟩
      rw [diffAt_leaf hab hleaf, mem_singleton] at h
      rw [h]
      exact ⟨[], (append_nil _).symm, apart_of_leaf hab hleaf⟩

/-- Patching a tree with its difference to another one succeeds and yields the other one. Every
change addresses a place at which the two differ, and neither this place nor anything below it has
the same value in both. -/
theorem json_diff_patch (a b : Json) :
    (∃ r, (persistenceJsonDiff a b).foldlM applyPersistenceWalChange a = .ok r ∧
      view [] r = view [] b) ∧
    ∀ change ∈ persistenceJsonDiff a b, a.get change.path ≠ b.get change.path ∧
      ∀ p value, change.path <+: p → a.get p = some value → b.get p ≠ some value := by
  constructor
  · obtain ⟨r, heq, hpatch⟩ := patched_diffAt (b := b) (show Shows a [] (some a) from fun _ => rfl)
    exact ⟨r, heq, funext hpatch.shows⟩
  · intro change hmem
    obtain ⟨rest, hpath, hapart⟩ := apart_of_mem_diffAt hmem
    rw [nil_append] at hpath
    subst hpath
    refine ⟨hapart.differ, ?_⟩
    rintro _ value ⟨below, rfl⟩
    exact hapart.below below value

/-- One member of a nested object changes, one member goes and one comes; the member that the nested
objects have in common is not written. -/
theorem json_diff_patch_nested :
    let before := obj [("order", .obj [("filled", .num (.int 1)), ("side", .str "BUY")]),
      ("stale", .null)]
    let after := obj [("added", .bool true),
      ("order", .obj [("filled", .num (.int 2)), ("side", .str "BUY")])]
    persistenceJsonDiff before after = [.set ["added"] (.bool true),
      .set ["order", "filled"] (.num (.int 2)), .remove ["stale"]] ∧
    ∃ r, (persistenceJsonDiff before after).foldlM applyPersistenceWalChange before = .ok r ∧
      view [] r = view [] after := by
  intro before after
  exact ⟨by decide +kernel, (json_diff_patch before after).1⟩

end HexAgent.Wal
