import HexAgent.ToMathlib.JsonTree

/-!
# Changes of the durable account

The durable form of an account is a JSON tree, and the write-ahead log is a list of changes of it:
writes and removals of entries, and edits of the arrays that hold a set. `View.apply` is what a
change does to the view of the tree, with the arrays of the audit sets taken as multisets;
`view_applyPersistenceWalChange` connects the two.
-/

namespace HexAgent.Wal

open List Json

inductive PersistenceWalChange
  | set (path : List String) (value : Json)
  | remove (path : List String)
  | setInsert (path : List String) (value : Json)
  | setRemove (path : List String) (value : Json)
  deriving DecidableEq

/-- Path of a change. -/
def PersistenceWalChange.path : PersistenceWalChange → List String
  | .set path _ => path
  | .remove path => path
  | .setInsert path _ => path
  | .setRemove path _ => path

/-! ## The tree -/

/-- Add a member. -/
def insertMember (value : Json) (items : List Json) : List Json :=
  if value ∈ items then items else items ++ [value]

/-- Drop a member. -/
def removeMember (value : Json) (items : List Json) : List Json :=
  items.filter (· ≠ value)

/-- Edit the array at a path. -/
def editArray (state : Json) (path : List String) (edit : List Json → List Json) :
    Except String Json :=
  let joined := "/".intercalate path
  match state.get path with
  | none => .error s!"account ledger WAL set path has missing/non-object parent: {joined}"
  | some (.arr items) => .ok (state.replace path (.arr (edit items)))
  | some _ => .error s!"account ledger WAL set path is not an array: {joined}"

/-- Edit the fields of the object that holds the entry at a path. -/
def editEntry (state : Json) (path : List String)
    (edit : List (String × Json) → List (String × Json)) : Except String Json :=
  let joined := "/".intercalate path
  match state.get path.dropLast with
  | none => .error s!"account ledger WAL path has missing/non-object parent: {joined}"
  | some (.obj fields) => .ok (state.replace path.dropLast (.obj (edit fields)))
  | some _ => .error s!"account ledger WAL path parent is not an object: {joined}"

def applyPersistenceWalChange (state : Json) : PersistenceWalChange → Except String Json
  | .setInsert path value => editArray state path (insertMember value)
  | .setRemove path value => editArray state path (removeMember value)
  | .set path value =>
    match path.getLast? with
    | none => .ok value
    | some key => editEntry state path (Json.insertField key value)
  | .remove path =>
    match path.getLast? with
    | none => .error "account ledger WAL cannot remove the state root"
    | some key => editEntry state path (Json.eraseField key)

/-! ## The view -/

/-- Set the membership of a value. -/
def setMember (value : Json) (present : Bool) (m : Multiset Json) : Multiset Json :=
  if present then (if value ∈ m then m else value ::ₘ m) else m.filter (· ≠ value)

/-- What a tree shows at every path. -/
abbrev View := List String → Option Json.Cell

/-- Paths of the arrays that hold a set. -/
def auditSets : List (List String) :=
  [["fee_attribution_pending"], ["recovery_pending_orders"], ["startup_query_repair_orders"],
    ["routine_cancel_audits"]]

/-- The view of a durable tree, up to the order inside the audit sets. -/
def durableView : Json → View := Json.view auditSets

namespace View

/-- What an optional value shows, if it is found at a path. -/
def shown (path : List String) (value : Option Json) : View := fun p =>
  (value.bind (·.get (p.drop path.length))).map (Json.shape (auditSets.contains p))

/-- Write or remove the entry at a path. -/
def put (w : View) (path : List String) (value : Option Json) : Option View :=
  match w path.dropLast with
  | some .node => some fun p => if path <+: p then shown path value p else w p
  | _ => none

/-- Edit the members at a path. -/
def edit (w : View) (path : List String) (f : Multiset Json → Multiset Json)
    (g : List Json → List Json) : Option View :=
  match w path with
  | some (.members m) => some (Function.update w path (some (.members (f m))))
  | some (.leaf (.arr items)) => some (Function.update w path (some (.leaf (.arr (g items)))))
  | _ => none

/-- Effect of a change on a view. -/
def apply (w : View) : PersistenceWalChange → Option View
  | .set path value => if path = [] then some (durableView value) else w.put path (some value)
  | .remove path => if path = [] then none else w.put path none
  | .setInsert path value => w.edit path (setMember value true) (insertMember value)
  | .setRemove path value => w.edit path (setMember value false) (removeMember value)

end View

/-! ## The tree and the view -/

section Refinement

variable {state : Json} {path : List String}

/-- An array is replaced by another one: below it there is nothing, before and after. -/
lemma view_replace_arr {items items' : List Json} (h : state.get path = some (.arr items)) :
    durableView (state.replace path (.arr items')) = Function.update (durableView state) path
      (some ((arr items').shape (auditSets.contains path))) := by
  funext p
  refine (shape_replace h _ _ p).trans ?_
  rw [Function.update_apply]
  by_cases hp : p = path
  · subst hp
    rw [if_pos (prefix_refl _), if_pos rfl, drop_length]
    rfl
  · split
    · next hprefix =>
      obtain ⟨rest, rfl⟩ := hprefix
      obtain ⟨key, rest, rfl⟩ := exists_cons_of_ne_nil fun h : rest = [] => hp (by simp [h])
      rw [drop_left, durableView, view, get_append, h]
      rfl
    · rfl

lemma view_editArray {f : Multiset Json → Multiset Json} {g : List Json → List Json}
    (hfg : ∀ items, ((g items : List Json) : Multiset Json) = f items) :
    (editArray state path g).toOption.map durableView = (durableView state).edit path f g := by
  have hview : durableView state path =
      (state.get path).map (shape (auditSets.contains path)) := rfl
  unfold editArray View.edit
  rw [hview]
  cases hget : state.get path with
  | none => rfl
  | some old =>
    cases old with
    | arr items =>
      simp only [Except.toOption, Option.map_some, view_replace_arr hget, shape]
      by_cases hset : path ∈ auditSets <;> simp [hset, hfg]
    | _ => rfl

/-- The fields of an object are edited at one key. -/
lemma view_editEntry {key : String} {value : Option Json}
    {edit : List (String × Json) → List (String × Json)}
    (hedit : ∀ fields other, (edit fields).lookup other =
      if other = key then value else fields.lookup other) :
    (editEntry state (path ++ [key]) edit).toOption.map durableView =
      (durableView state).put (path ++ [key]) value := by
  have hview : durableView state path =
      (state.get path).map (shape (auditSets.contains path)) := rfl
  unfold editEntry View.put
  rw [dropLast_concat, hview]
  cases hget : state.get path with
  | none => rfl
  | some old =>
    cases old with
    | obj fields =>
      exact congrArg some (funext fun p => view_replace_obj hget (hedit fields) auditSets p)
    | arr items =>
      simp only [shape, Option.map_some]
      by_cases hset : path ∈ auditSets <;> simp [hset, Except.toOption]
    | _ => rfl

/-- The view of a changed tree is the changed view. -/
lemma view_applyPersistenceWalChange (change : PersistenceWalChange) :
    (applyPersistenceWalChange state change).toOption.map durableView =
      (durableView state).apply change := by
  cases change with
  | set path value =>
    rcases eq_nil_or_concat' path with rfl | ⟨path, key, rfl⟩
    · rfl
    · rw [applyPersistenceWalChange, getLast?_concat, View.apply, if_neg (by simp)]
      exact view_editEntry fun fields other => lookup_insertField _ _ _ _
  | remove path =>
    rcases eq_nil_or_concat' path with rfl | ⟨path, key, rfl⟩
    · rfl
    · rw [applyPersistenceWalChange, getLast?_concat, View.apply, if_neg (by simp)]
      exact view_editEntry fun fields other => lookup_eraseField _ _ _
  | setInsert path value =>
    refine view_editArray fun items => ?_
    rw [insertMember, setMember, if_pos rfl]
    split
    · next hmem => rw [if_pos (Multiset.mem_coe.2 hmem)]
    next hmem =>
    rw [if_neg (mt Multiset.mem_coe.1 hmem)]
    exact Multiset.coe_eq_coe.2 (perm_append_singleton value items)
  | setRemove path value => exact view_editArray fun items => (Multiset.filter_coe _ _).symm

end Refinement

end HexAgent.Wal
