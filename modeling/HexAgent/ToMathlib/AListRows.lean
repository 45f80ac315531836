import HexAgent.ToMathlib.AListSum

/-!
# Row operations on finite maps

Selecting the rows of a map that satisfy a predicate (`AList.filterRows`), copying the rows of a
list of keys from one map over another (`AList.copyRows`), where an absent row is copied by deleting
it, and changing one row (`AList.modifyRow`) or all of them (`AList.mapRows`). Each is described by
what it looks up.
-/

namespace AList

open Option

variable {α β : Type*} [DecidableEq α] (m : AList fun _ : α => β) (a a' : α)

/-- Write a row, or delete it. -/
def put (m : AList fun _ : α => β) (a : α) : Option β → AList fun _ : α => β
  | some b => m.insert a b
  | none => m.erase a

lemma lookup_put (o : Option β) :
    (m.put a o).lookup a' = if a' = a then o else m.lookup a' := by
  by_cases h : a' = a
  · subst h
    rw [if_pos rfl]
    cases o with
    | none => exact lookup_erase a' m
    | some b => exact lookup_insert m
  · rw [if_neg h]
    cases o with
    | none => exact lookup_erase_ne h
    | some b => exact lookup_insert_ne h

variable (keys : List α)

/-- Writing or deleting the rows of a list of keys. -/
lemma lookup_foldl_put (g : α → Option β) :
    (keys.foldl (fun m k => m.put k (g k)) m).lookup a = if a ∈ keys then g a else m.lookup a := by
  induction keys generalizing m with
  | nil => simp
  | cons k keys ih =>
    -- A later write of the same key writes the same row.
    rw [List.foldl_cons, ih, lookup_put]
    by_cases hk : a = k
    · subst hk
      simp
    · simp [hk]

/-- Copy the rows of `keys` from `src`. -/
def copyRows (src m : AList fun _ : α => β) : AList fun _ : α => β :=
  keys.foldl (fun m a => m.put a (src.lookup a)) m

lemma lookup_copyRows (src : AList fun _ => β) :
    (copyRows keys src m).lookup a = if a ∈ keys then src.lookup a else m.lookup a :=
  lookup_foldl_put m a keys src.lookup

/-- Collecting the rows that a partial function gives for a list of keys. -/
lemma lookup_foldl_insert_getD (g : α → Option β) :
    (keys.foldl (fun m k => ((g k).map (m.insert k)).getD m) m).lookup a =
      if a ∈ keys then (g a).or (m.lookup a) else m.lookup a := by
  induction keys generalizing m with
  | nil => simp
  | cons k keys ih =>
    have hstep : (((g k).map (m.insert k)).getD m).lookup a =
        if a = k then (g a).or (m.lookup a) else m.lookup a := by
      by_cases hk : a = k
      · subst hk
        cases g a <;> simp
      · cases g k <;> simp [hk, lookup_insert_ne]
    rw [List.foldl_cons, ih, hstep]
    by_cases hk : a = k
    · subst hk
      cases g a <;> simp
    · simp [hk]

/-- The rows that satisfy a predicate. -/
def filterRows (p : α → β → Bool) (m : AList fun _ : α => β) : AList fun _ : α => β :=
  ⟨m.entries.filter fun e => p e.1 e.2, List.NodupKeys.sublist List.filter_sublist m.nodupKeys⟩

lemma lookup_filterRows (p : α → β → Bool) :
    (m.filterRows p).lookup a = (m.lookup a).filter (p a) := by
  refine Option.ext fun b => ?_
  rw [filter_eq_some_iff, ← mem_def, ← mem_def, mem_lookup_iff, mem_lookup_iff]
  exact List.mem_filter

lemma lookup_insert_eq_ite (b : β) :
    (m.insert a b).lookup a' = if a' = a then some b else m.lookup a' :=
  lookup_put m a a' (some b)

/-- Change one row, if it is there. -/
def modifyRow (m : AList fun _ : α => β) (a : α) (f : β → β) : AList fun _ : α => β :=
  match m.lookup a with
  | none => m
  | some b => m.insert a (f b)

lemma lookup_modifyRow (f : β → β) :
    (m.modifyRow a f).lookup a' = if a' = a then (m.lookup a').map f else m.lookup a' := by
  unfold modifyRow
  cases h : m.lookup a with
  | none =>
    by_cases ha : a' = a
    · rw [if_pos ha, ha, h, map_none]
    · rw [if_neg ha]
  | some b =>
    rw [lookup_insert_eq_ite]
    by_cases ha : a' = a
    · rw [if_pos ha, if_pos ha, ha, h, map_some]
    · rw [if_neg ha, if_neg ha]

lemma modifyRow_modifyRow (f g : β → β) :
    (m.modifyRow a f).modifyRow a g = m.modifyRow a (g ∘ f) := by
  unfold modifyRow
  cases h : m.lookup a with
  | none => simp [h]
  | some b => simp [insert_insert]

/-- Changing the rows that another map names, one after the other. -/
lemma lookup_foldl_modifyRow {γ : Type*} (f : γ → β → β) (changes : AList fun _ => γ) :
    (changes.entries.foldl (fun m e => m.modifyRow e.1 (f e.2)) m).lookup a =
      (m.lookup a).map fun b => (changes.lookup a).elim b fun c => f c b := by
  induction changes using AList.insertRec generalizing m with
  | H0 => simp
  | IH k c changes hk ih =>
    rw [entries_insert_of_notMem hk, List.foldl_cons, ih, lookup_modifyRow, lookup_insert_eq_ite]
    by_cases ha : a = k
    · -- The key occurs once, so the rest of the changes leaves its row alone.
      subst ha
      rw [if_pos rfl, if_pos rfl, lookup_eq_none.2 hk, map_map]
      rfl
    · rw [if_neg ha, if_neg ha]

/-- Apply a function to every row. -/
def mapRows {γ : Type*} (f : β → γ) (m : AList fun _ : α => β) : AList fun _ : α => γ :=
  ⟨m.entries.map fun e => ⟨e.1, f e.2⟩, by
    have hkeys : (m.entries.map fun e => (⟨e.1, f e.2⟩ : Σ _ : α, γ)).keys = m.entries.keys := by
      rw [List.keys, List.map_map]
      rfl
    rw [List.NodupKeys, hkeys]
    exact m.nodupKeys⟩

lemma lookup_mapRows {γ : Type*} (f : β → γ) :
    (m.mapRows f).lookup a = (m.lookup a).map f := by
  refine Option.ext fun c => ?_
  rw [map_eq_some_iff, ← mem_def, mem_lookup_iff]
  constructor
  · intro h
    obtain ⟨e, he, heq⟩ := List.mem_map.1 h
    cases heq
    exact ⟨e.2, mem_lookup_iff.2 he, rfl⟩
  · rintro ⟨b, hb, rfl⟩
    exact List.mem_map.2 ⟨⟨a, b⟩, mem_lookup_iff.1 hb, rfl⟩

omit [DecidableEq α] in
lemma sumBy_mapRows {γ M : Type*} [AddMonoid M] (f : α → γ → M) (g : β → γ) :
    (m.mapRows g).sumBy f = m.sumBy fun a b => f a (g b) := by
  unfold sumBy mapRows
  rw [List.map_map]
  rfl

lemma mapRows_eq_self {f : β → β} {m : AList fun _ : α => β}
    (h : ∀ a b, m.lookup a = some b → f b = b) : m.mapRows f = m := by
  refine AList.ext ?_
  refine (List.map_congr_left fun e he => ?_).trans (List.map_id _)
  rw [h e.1 e.2 (mem_lookup_iff.2 he)]
  rfl

/-- Writing rows under keys that they carry themselves. -/
lemma lookup_foldl_insert {key : β → α} {rows : AList fun _ => β}
    (hkey : ∀ a b, rows.lookup a = some b → key b = a) :
    ((rows.entries.map Sigma.snd).foldl (fun m b => m.insert (key b) b) m).lookup a =
      (rows.lookup a).or (m.lookup a) := by
  induction rows using AList.insertRec generalizing m with
  | H0 => simp
  | IH c b rows hc ih =>
    have hb : key b = c := hkey c b (lookup_insert rows)
    rw [entries_insert_of_notMem hc, List.map_cons, List.foldl_cons, ih, hb,
      lookup_insert_eq_ite, lookup_insert_eq_ite]
    · by_cases ha : a = c
      · subst ha
        rw [if_pos rfl, if_pos rfl, lookup_eq_none.2 hc, none_or, some_or]
      · rw [if_neg ha, if_neg ha]
    · intro d b' hd
      have hne : d ≠ c := fun h => by
        subst h
        cases (lookup_eq_none.2 hc).symm.trans hd
      exact hkey d b' ((lookup_insert_ne hne).trans hd)

end AList
