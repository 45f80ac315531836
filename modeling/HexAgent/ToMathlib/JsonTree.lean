import Mathlib.Data.Multiset.Basic
import Mathlib.Data.Multiset.Filter
import Mathlib.Data.Rat.Defs
import Mathlib.Data.List.Infix
import Mathlib.Data.String.Basic

/-!
# JSON trees

A JSON value is a tree whose inner nodes are objects. Objects are association lists that are kept
in key order by `Json.insertField`. A path is a list of keys, and only leads through objects.

A value is described by what it shows at every path (`Json.view`): whether there is an object, or
which leaf. Selected arrays are shown as multisets, so that values with equal views are equal up to
the order of the elements of these arrays. Replacing the value at a path is described by its effect
on the view (`Json.shape_replace`).
-/

/-- A JSON number. -/
inductive JsonNumber
  | int (n : ℤ)
  | float (x : ℚ)
  deriving DecidableEq

/-- A JSON value. -/
inductive Json
  | null
  | bool (b : Bool)
  | num (n : JsonNumber)
  | str (s : String)
  | arr (items : List Json)
  | obj (fields : List (String × Json))

namespace Json

open List

/-! ### Token lists -/

/-- Symbols of the written form of a value. -/
inductive Token
  | null
  | bool (b : Bool)
  | num (n : JsonNumber)
  | str (s : String)
  | arr (length : ℕ)
  | obj (length : ℕ)
  deriving DecidableEq

mutual

/-- The written form of a value. -/
def tokens : Json → List Token
  | null => [.null]
  | bool b => [.bool b]
  | num n => [.num n]
  | str s => [.str s]
  | arr items => .arr items.length :: itemTokens items
  | obj fields => .obj fields.length :: fieldTokens fields

/-- The written form of the items of an array. -/
def itemTokens : List Json → List Token
  | [] => []
  | item :: items => item.tokens ++ itemTokens items

/-- The written form of the fields of an object. -/
def fieldTokens : List (String × Json) → List Token
  | [] => []
  | (key, value) :: fields => .str key :: (value.tokens ++ fieldTokens fields)

end

mutual

/-- The written form of a value is known by its beginning. -/
lemma tokens_append_inj : (a b : Json) → (r r' : List Token) →
    a.tokens ++ r = b.tokens ++ r' → a = b ∧ r = r'
  | a, b, r, r', h => by
    cases a <;> cases b <;>
      simp only [tokens, cons_append, nil_append, cons.injEq, Token.bool.injEq,
        Token.num.injEq, Token.str.injEq, Token.arr.injEq, Token.obj.injEq, reduceCtorEq,
        false_and, true_and] at h
    case null => exact ⟨rfl, h⟩
    case bool => exact ⟨by rw [h.1], h.2⟩
    case num => exact ⟨by rw [h.1], h.2⟩
    case str => exact ⟨by rw [h.1], h.2⟩
    case arr items items' =>
      obtain ⟨hitems, hr⟩ := itemTokens_append_inj items items' r r' h.1 h.2
      exact ⟨by rw [hitems], hr⟩
    case obj fields fields' =>
      obtain ⟨hfields, hr⟩ := fieldTokens_append_inj fields fields' r r' h.1 h.2
      exact ⟨by rw [hfields], hr⟩

lemma itemTokens_append_inj : (xs ys : List Json) → (r r' : List Token) →
    xs.length = ys.length → itemTokens xs ++ r = itemTokens ys ++ r' → xs = ys ∧ r = r'
  | [], [], _, _, _, h => ⟨rfl, h⟩
  | x :: xs, y :: ys, r, r', hlen, h => by
    simp only [itemTokens, append_assoc] at h
    obtain ⟨rfl, hrest⟩ := tokens_append_inj x y _ _ h
    obtain ⟨rfl, hr⟩ := itemTokens_append_inj xs ys r r' (Nat.succ.inj hlen) hrest
    exact ⟨rfl, hr⟩

lemma fieldTokens_append_inj : (xs ys : List (String × Json)) → (r r' : List Token) →
    xs.length = ys.length → fieldTokens xs ++ r = fieldTokens ys ++ r' → xs = ys ∧ r = r'
  | [], [], _, _, _, h => ⟨rfl, h⟩
  | (k, x) :: xs, (l, y) :: ys, r, r', hlen, h => by
    simp only [fieldTokens, cons_append, append_assoc, cons.injEq,
      Token.str.injEq] at h
    obtain ⟨rfl, h⟩ := h
    obtain ⟨rfl, hrest⟩ := tokens_append_inj x y _ _ h
    obtain ⟨rfl, hr⟩ := fieldTokens_append_inj xs ys r r' (Nat.succ.inj hlen) hrest
    exact ⟨rfl, hr⟩

end

lemma tokens_injective : Function.Injective tokens := fun a b h =>
  (tokens_append_inj a b [] [] (by rw [h])).1

instance : DecidableEq Json := fun a b =>
  decidable_of_iff (a.tokens = b.tokens) tokens_injective.eq_iff

/-! ### Fields -/

/-- Write a field, in key order. -/
def insertField (key : String) (value : Json) : List (String × Json) → List (String × Json)
  | [] => [(key, value)]
  | (k, v) :: fields =>
    if k = key then (key, value) :: fields
    else if key < k then (key, value) :: (k, v) :: fields
    else (k, v) :: insertField key value fields

/-- Delete a field. -/
def eraseField (key : String) (fields : List (String × Json)) : List (String × Json) :=
  fields.filter fun e => e.1 ≠ key

lemma lookup_cons_eq_ite (key other : String) (value : Json) (fields : List (String × Json)) :
    ((key, value) :: fields).lookup other =
      if other = key then some value else fields.lookup other := by
  rw [lookup_cons]
  by_cases h : other = key
  · rw [if_pos h, beq_iff_eq.2 h]
  · rw [if_neg h, beq_eq_false_iff_ne.2 h]

lemma lookup_insertField (key other : String) (value : Json) (fields : List (String × Json)) :
    (insertField key value fields).lookup other =
      if other = key then some value else fields.lookup other := by
  induction fields with
  | nil => exact lookup_cons_eq_ite _ _ _ _
  | cons e fields ih =>
    obtain ⟨k, v⟩ := e
    by_cases hk : k = key
    · subst hk
      rw [insertField, if_pos rfl, lookup_cons_eq_ite, lookup_cons_eq_ite]
      split <;> rfl
    · rw [insertField, if_neg hk]
      split
      · exact lookup_cons_eq_ite _ _ _ _
      · rw [lookup_cons_eq_ite, ih, lookup_cons_eq_ite]
        exact ite_ite_comm _ _ _ _ fun hne h => hk (hne.symm.trans h)

lemma lookup_eraseField (key other : String) (fields : List (String × Json)) :
    (eraseField key fields).lookup other = if other = key then none else fields.lookup other := by
  induction fields with
  | nil => exact (ite_self _).symm
  | cons e fields ih =>
    obtain ⟨k, v⟩ := e
    rw [eraseField, filter_cons, ← eraseField]
    by_cases hk : k = key
    · subst hk
      rw [if_neg (by simp), ih, lookup_cons_eq_ite]
      split <;> rfl
    · rw [if_pos (by simpa using hk), lookup_cons_eq_ite, ih, lookup_cons_eq_ite]
      exact ite_ite_comm _ _ _ _ fun hne h => hk (hne.symm.trans h)

/-! ### Paths -/

/-- Value of a key. -/
def child (key : String) : Json → Option Json
  | obj fields => fields.lookup key
  | _ => none

/-- Write the value of a key of an object. -/
def setChild : Json → String → Json → Json
  | obj fields, key, value => obj (insertField key value fields)
  | j, _, _ => j

/-- Value at a path. -/
def get : List String → Json → Option Json
  | [], j => some j
  | key :: path, j => (j.child key).bind (get path)

/-- Replace the value at a path that exists. -/
def replace : Json → List String → Json → Json
  | _, [], value => value
  | j, key :: path, value =>
    match j.child key with
    | none => j
    | some c => j.setChild key (c.replace path value)

lemma get_append (j : Json) (path rest : List String) :
    j.get (path ++ rest) = (j.get path).bind (get rest) := by
  induction path generalizing j with
  | nil => rfl
  | cons key path ih =>
    rw [cons_append, get, get, Option.bind_assoc]
    exact Option.bind_congr fun c _ => ih c

/-! ### Views -/

/-- What a value shows of itself. -/
inductive Cell
  | leaf (j : Json)
  | members (m : Multiset Json)
  | node

/-- An object hides its fields, and an array may hide its order. -/
def shape (unordered : Bool) : Json → Cell
  | obj _ => .node
  | arr items => if unordered then .members items else .leaf (arr items)
  | j => .leaf j

/-- What a value shows at every path, where the arrays at the paths of `sets` hide their order. -/
def view (sets : List (List String)) (j : Json) (path : List String) : Option Cell :=
  (j.get path).map (shape (sets.contains path))

/-- Replacing a value changes what is shown from its path on. -/
lemma shape_replace {j old : Json} {path : List String} (h : j.get path = some old)
    (value : Json) (unordered : Bool) (p : List String) :
    ((j.replace path value).get p).map (shape unordered) =
      if path <+: p then (value.get (p.drop path.length)).map (shape unordered)
      else (j.get p).map (shape unordered) := by
  induction path generalizing j p with
  | nil => simp [replace]
  | cons key path ih =>
    obtain ⟨c, hchild, hc⟩ := Option.bind_eq_some_iff.1 h
    rw [replace, hchild]
    -- only an object has children
    cases j with
    | obj fields =>
      cases p with
      | nil => simp [get, setChild, shape]
      | cons k p =>
        have hset : child k ((obj fields).setChild key (c.replace path value)) =
            if k = key then some (c.replace path value) else child k (obj fields) :=
          lookup_insertField ..
        rw [get, get, hset]
        by_cases hk : k = key
        · subst hk
          rw [if_pos rfl, hchild, Option.bind_some, ih hc]
          simp
        · rw [if_neg hk, if_neg (by simpa using fun heq => absurd heq.symm hk)]
    | _ => cases hchild

/-- Editing one field of an object changes what is shown from that field on. -/
lemma view_replace_obj {j : Json} {path : List String} {key : String}
    {fields fields' : List (String × Json)} {value : Option Json}
    (h : j.get path = some (obj fields))
    (hedit : ∀ other, fields'.lookup other = if other = key then value else fields.lookup other)
    (sets : List (List String)) (p : List String) : view sets (j.replace path (obj fields')) p =
      if path ++ [key] <+: p then
        (value.bind (get (p.drop (path ++ [key]).length))).map (shape (sets.contains p))
      else view sets j p := by
  rw [view, shape_replace h]
  by_cases hprefix : path <+: p
  · obtain ⟨rest, rfl⟩ := hprefix
    have hbelow : view sets j (path ++ rest) =
        ((obj fields).get rest).map (shape (sets.contains (path ++ rest))) := by
      rw [view, get_append, h, Option.bind_some]
    rw [if_pos (prefix_append _ _), drop_left, hbelow]
    cases rest with
    | nil =>
      rw [if_neg fun h => by simpa using h.length_le]
      rfl
    | cons k rest =>
      rw [get, get, child, child, hedit]
      by_cases hk : k = key
      · subst hk
        have hdrop : (path ++ k :: rest).drop (path ++ [k]).length = rest := by
          rw [append_cons path k rest, drop_left]
        rw [if_pos rfl, if_pos (by simp), hdrop]
      · rw [if_neg hk, if_neg (by simpa using Ne.symm hk)]
  · rw [if_neg hprefix, if_neg fun h => hprefix ((prefix_append _ _).trans h)]
    rfl

end Json
