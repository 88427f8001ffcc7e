import Mathlib.Data.Finset.Basic
import Mathlib.Data.Fintype.Basic
import Mathlib.Data.Rat.Defs

set_option relaxedAutoImplicit false
set_option autoImplicit false

/-!
# JSON-shaped trees

The trees a JSON decoder produces, up to what two programs can tell apart: an array is a finite
family, an object is a finite set of keys with a value for each of them. Objects are therefore
finite maps: they have no order, no duplicate keys, and two of them with the same entries are
equal (`JsonTree.Object.ext_get?`). A number is its exact value; whether a decoder stored it as
an integer or as a float is not recorded.

## Main definitions

* `JsonTree.Value`, `JsonTree.Object` — trees and the maps inside them.
* `JsonTree.Object.get?`, `set`, `erase`, `ofFn`, `ofList` — the map operations.
* `JsonTree.Object.nestedField`, `setNestedField`, `removeNestedField` — access along a path of
  keys, with the three ways such an access ends (found, absent, blocked by a value that is not
  a map).
* `JsonTree.Value.at?`, `JsonTree.Object.at?` — the plain lookup along a path, where every way of
  not finding a value is the same.
* `JsonTree.Object.nestedString`, `nestedMap`, `nestedStringMap`, `nestedNullCoercingStringMap`,
  `nestedStringSlice` — the typed accessors.

## Main results

* `JsonTree.Object.ext_get?` — objects are determined by their lookups.
* `JsonTree.Object.get?_set`, `get?_erase`, `get?_ofFn` — the lookup after each operation.
-/

namespace JsonTree

/-- A JSON-shaped value. -/
inductive Value : Type where
  /-- The null value. -/
  | null
  /-- A boolean. -/
  | bool (b : Bool)
  /-- A number, by its exact value. -/
  | num (q : ℚ)
  /-- A string. -/
  | str (s : String)
  /-- An array of `n` values. -/
  | arr (n : ℕ) (elems : Fin n → Value)
  /-- An object: a value for each key of a finite set. -/
  | obj (keys : Finset String) (vals : {k // k ∈ keys} → Value)

/-- The contents of an object. -/
@[ext] structure Object where
  /-- The keys that are present. -/
  keys : Finset String
  /-- The values of the keys. -/
  vals : {k // k ∈ keys} → Value

/-- An object as a value. -/
def Value.ofObject (m : Object) : Value := .obj m.keys m.vals

/-- The object inside a value, if the value is one. -/
def Value.asMap : Value → Option Object
  | .obj keys vals => some ⟨keys, vals⟩
  | _ => none

/-- The string inside a value, if the value is one. -/
def Value.asString : Value → Option String
  | .str s => some s
  | _ => none

/-- The list of elements of a value, if the value is an array. -/
def Value.asSlice : Value → Option (List Value)
  | .arr _ elems => some (List.ofFn elems)
  | _ => none

/-- A list as a value. -/
def Value.ofSlice (vs : List Value) : Value := .arr vs.length vs.get

@[simp] lemma Value.asMap_ofObject (m : Object) : (Value.ofObject m).asMap = some m := rfl

@[simp] lemma Value.asString_str (s : String) : (Value.str s).asString = some s := rfl

/-- A value that is a map is the map it contains. -/
lemma Value.eq_ofObject {v : Value} {m : Object} (h : v.asMap = some m) : v = .ofObject m := by
  cases v <;> simp_all [asMap, ofObject]
  subst h
  exact ⟨rfl, HEq.rfl⟩

/-- A map is determined by the value it is. -/
lemma Value.ofObject_injective : Function.Injective Value.ofObject := fun _ _ h =>
  Option.some.inj (congrArg Value.asMap h)

namespace Object

/-! ## Lookups and updates -/

/-- The value at a key. -/
def get? (m : Object) (k : String) : Option Value :=
  if h : k ∈ m.keys then some (m.vals ⟨k, h⟩) else none

/-- The object with the entries `f` gives to the keys of `ks`. -/
def ofFn (ks : Finset String) (f : String → Option Value) : Object where
  keys := ks.filter fun k => (f k).isSome
  vals k := (f k.1).get (Finset.mem_filter.mp k.2).2

/-- The empty object. -/
def empty : Object := ofFn ∅ fun _ => none

/-- The object with `k` set to `v`. -/
def set (m : Object) (k : String) (v : Value) : Object :=
  ofFn (insert k m.keys) fun k' => if k' = k then some v else m.get? k'

/-- The object without `k`. -/
def erase (m : Object) (k : String) : Object :=
  ofFn m.keys fun k' => if k' = k then none else m.get? k'

/-- The object with the given entries; of two entries with one key the later counts. -/
def ofList (es : List (String × Value)) : Object :=
  es.foldl (fun m e => m.set e.1 e.2) empty

/-- A key is present exactly when the lookup finds a value. -/
lemma mem_keys {m : Object} {k : String} : k ∈ m.keys ↔ (m.get? k).isSome := by
  unfold get?
  split_ifs with h <;> simp [h]

/-- **Objects are determined by their lookups.** -/
theorem ext_get? {m m' : Object} (h : ∀ k, m.get? k = m'.get? k) : m = m' := by
  obtain ⟨ks, vs⟩ := m
  obtain ⟨ks', vs'⟩ := m'
  obtain rfl : ks = ks' := by
    ext k
    have hk := h k
    simp only [get?] at hk
    split_ifs at hk <;> simp_all
  congr
  funext ⟨k, hk⟩
  simpa [get?, hk] using h k

@[simp] theorem get?_ofFn (ks : Finset String) (f : String → Option Value) (k : String) :
    (ofFn ks f).get? k = if k ∈ ks then f k else none := by
  unfold get? ofFn
  by_cases hk : k ∈ ks
  · cases hf : f k <;> simp [hk, hf]
  · simp [hk]

theorem get?_set (m : Object) (k : String) (v : Value) (k' : String) :
    (m.set k v).get? k' = if k' = k then some v else m.get? k' := by
  have hmem := @mem_keys m k'
  simp only [set, get?_ofFn, Finset.mem_insert]
  by_cases hk : k' = k
  · simp [hk]
  · cases hg : m.get? k' <;> simp_all

@[simp] lemma get?_set_self (m : Object) (k : String) (v : Value) :
    (m.set k v).get? k = some v := by simp [get?_set]

lemma get?_set_of_ne {k k' : String} (m : Object) (v : Value) (h : k' ≠ k) :
    (m.set k v).get? k' = m.get? k' := by simp [get?_set, h]

theorem get?_erase (m : Object) (k k' : String) :
    (m.erase k).get? k' = if k' = k then none else m.get? k' := by
  have hmem := @mem_keys m k'
  rw [erase, get?_ofFn]
  by_cases hk : k' = k
  · simp [hk]
  · cases hg : m.get? k' <;> simp_all

@[simp] lemma get?_erase_self (m : Object) (k : String) : (m.erase k).get? k = none := by
  simp [get?_erase]

lemma get?_erase_of_ne {k k' : String} (m : Object) (h : k' ≠ k) :
    (m.erase k).get? k' = m.get? k' := by simp [get?_erase, h]

end Object

/-! ## Decidable equality -/

/-- Equality of trees is decided by comparing key sets and then values. -/
def Value.decEq : (a b : Value) → Decidable (a = b)
  | .null, .null => isTrue rfl
  | .bool a, .bool b => decidable_of_iff (a = b) (by simp)
  | .num a, .num b => decidable_of_iff (a = b) (by simp)
  | .str a, .str b => decidable_of_iff (a = b) (by simp)
  | .arr n xs, .arr m ys =>
    letI (i : Fin n) : Decidable (∃ h : i.1 < m, xs i = ys ⟨i.1, h⟩) :=
      if h : i.1 < m then
        letI := decEq (xs i) (ys ⟨i.1, h⟩)
        decidable_of_iff (xs i = ys ⟨i.1, h⟩) (by simp [h])
      else isFalse fun ⟨h', _⟩ => h h'
    decidable_of_iff (n = m ∧ ∀ i : Fin n, ∃ h : i.1 < m, xs i = ys ⟨i.1, h⟩) (by
      constructor
      · rintro ⟨rfl, h⟩
        congr
        funext i
        exact (h i).2
      · intro h
        obtain ⟨rfl, h⟩ := Value.arr.inj h
        obtain rfl := eq_of_heq h
        exact ⟨rfl, fun i => ⟨i.2, rfl⟩⟩)
  | .obj ks vs, .obj ks' vs' =>
    letI (k : {k // k ∈ ks}) : Decidable (∃ h : k.1 ∈ ks', vs k = vs' ⟨k.1, h⟩) :=
      if h : k.1 ∈ ks' then
        letI := decEq (vs k) (vs' ⟨k.1, h⟩)
        decidable_of_iff (vs k = vs' ⟨k.1, h⟩) (by simp [h])
      else isFalse fun ⟨h', _⟩ => h h'
    decidable_of_iff (ks = ks' ∧ ∀ k : {k // k ∈ ks}, ∃ h : k.1 ∈ ks', vs k = vs' ⟨k.1, h⟩) (by
      constructor
      · rintro ⟨rfl, h⟩
        congr
        funext k
        exact (h k).2
      · intro h
        obtain ⟨rfl, h⟩ := Value.obj.inj h
        obtain rfl := eq_of_heq h
        exact ⟨rfl, fun k => ⟨k.2, rfl⟩⟩)
  | .null, .bool _ | .null, .num _ | .null, .str _ | .null, .arr _ _ | .null, .obj _ _
  | .bool _, .null | .bool _, .num _ | .bool _, .str _ | .bool _, .arr _ _ | .bool _, .obj _ _
  | .num _, .null | .num _, .bool _ | .num _, .str _ | .num _, .arr _ _ | .num _, .obj _ _
  | .str _, .null | .str _, .bool _ | .str _, .num _ | .str _, .arr _ _ | .str _, .obj _ _
  | .arr _ _, .null | .arr _ _, .bool _ | .arr _ _, .num _ | .arr _ _, .str _
  | .arr _ _, .obj _ _
  | .obj _ _, .null | .obj _ _, .bool _ | .obj _ _, .num _ | .obj _ _, .str _
  | .obj _ _, .arr _ _ => isFalse (by simp)

instance : DecidableEq Value := Value.decEq

instance : DecidableEq Object := fun a b =>
  decidable_of_iff (Value.ofObject a = Value.ofObject b) (by
    constructor
    · intro h
      obtain ⟨h₁, h₂⟩ := Value.obj.inj h
      exact Object.ext h₁ h₂
    · rintro rfl
      rfl)

/-! ## Lookups along a path of keys -/

/-- The value at a path below a value. -/
def Value.at? (v : Value) : List String → Option Value
  | [] => some v
  | k :: ks => (v.asMap.bind fun m => m.get? k).bind fun w => w.at? ks

/-- The value at a path of an object. -/
def Object.at? (m : Object) (path : List String) : Option Value := (Value.ofObject m).at? path

@[simp] lemma Object.at?_nil (m : Object) : m.at? [] = some (.ofObject m) := rfl

@[simp] lemma Object.at?_cons (m : Object) (k : String) (ks : List String) :
    m.at? (k :: ks) = (m.get? k).bind fun w => w.at? ks := rfl

@[simp] lemma Value.at?_nil (v : Value) : v.at? [] = some v := rfl

/-- Below a value that is not a map there is nothing. -/
lemma Value.at?_cons_of_not_map {v : Value} (h : v.asMap = none) (k : String)
    (ks : List String) : v.at? (k :: ks) = none := by
  rw [at?, h]
  rfl

/-! ## Access along a path of keys -/

/-- How an access along a path ends: at a value, at a key that is absent, or at a value of the
wrong type (with the path to it and the value). -/
inductive Access (α : Type) : Type where
  /-- The value at the path. -/
  | found (a : α)
  /-- Some key of the path is absent. -/
  | missing
  /-- The value at this prefix of the path has the wrong type. -/
  | err (at_ : List String) (v : Value)

/-- The value found, if any. -/
def Access.toOption {α : Type} : Access α → Option α
  | .found a => some a
  | _ => none

/-- Read a found value at the type `conv` extracts; anything else there is an error. -/
def Access.typed {α : Type} (path : List String) (conv : Value → Option α) :
    Access Value → Access α
  | .found v => match conv v with
    | some a => .found a
    | none => .err path v
  | .missing => .missing
  | .err p v => .err p v

/-- The walk behind `Object.nestedField`, at the value `v` reached by the path `seen`. A null
on the way counts as absent. -/
def Value.walk (v : Value) (seen : List String) : List String → Access Value
  | [] => .found v
  | f :: fs => match v with
    | .null => .missing
    | .obj keys vals => match (Object.mk keys vals).get? f with
      | some v' => v'.walk (seen ++ [f]) fs
      | none => .missing
    | v => .err (seen ++ [f]) v

/-- Whatever the way in which the walk does not get to the end of the path, nothing is found. -/
lemma Value.toOption_walk (v : Value) (seen path : List String) :
    (v.walk seen path).toOption = v.at? path := by
  induction path generalizing v seen with
  | nil => rfl
  | cons f fs ih =>
    cases v with
    | obj keys vals =>
      cases hf : (Object.mk keys vals).get? f with
      | none => simp [walk, at?, asMap, hf, Access.toOption]
      | some w => simp [walk, at?, asMap, hf, ih]
    | _ => rfl

namespace Object

/-- The value at a path. -/
def nestedField (m : Object) (path : List String) : Access Value :=
  (Value.ofObject m).walk [] path

/-- The string at a path. -/
def nestedString (m : Object) (path : List String) : Access String :=
  (m.nestedField path).typed path Value.asString

/-- The map at a path. -/
def nestedMap (m : Object) (path : List String) : Access Object :=
  (m.nestedField path).typed path Value.asMap

/-- The array at a path. -/
def nestedSlice (m : Object) (path : List String) : Access (List Value) :=
  (m.nestedField path).typed path Value.asSlice

/-- The array of strings at a path; one element of another type spoils it. -/
def nestedStringSlice (m : Object) (path : List String) : Access (List String) :=
  (m.nestedField path).typed path fun v => v.asSlice.bind fun vs => vs.mapM Value.asString

/-- A map with every value read by `conv`, if `conv` reads them all. -/
def convert (conv : Value → Option String) (m : Object) : Option Object :=
  if ∀ k : {k // k ∈ m.keys}, (conv (m.vals k)).isSome then
    some (ofFn m.keys fun k => ((m.get? k).bind conv).map Value.str)
  else none

/-- The map of strings at a path; one value of another type spoils it. -/
def nestedStringMap (m : Object) (path : List String) : Access Object :=
  (m.nestedField path).typed path fun v => v.asMap.bind (convert Value.asString)

/-- The map of strings at a path, where a null value reads as the empty string. -/
def nestedNullCoercingStringMap (m : Object) (path : List String) : Access Object :=
  (m.nestedField path).typed path fun v => v.asMap.bind (convert fun
    | .null => some ""
    | v => v.asString)

/-- Set the value at a path, creating the maps on the way; `none` when a value on the way is
not a map (the object is then left as it is). -/
def setNestedField (m : Object) (v : Value) : List String → Option Object
  | [] => none
  | [f] => some (m.set f v)
  | f :: fs => match m.get? f with
    | none => (empty.setNestedField v fs).map fun sub => m.set f (.ofObject sub)
    | some old => match old.asMap with
      | some sub => (sub.setNestedField v fs).map fun sub' => m.set f (.ofObject sub')
      | none => none

/-- Remove the value at a path, if the way to it consists of maps. -/
def removeNestedField (m : Object) : List String → Object
  | [] => m
  | [f] => m.erase f
  | f :: fs => match (m.get? f).bind Value.asMap with
    | some sub => m.set f (.ofObject (sub.removeNestedField fs))
    | none => m

/-- The map at a key, if the key is present and holds one. -/
def mapAt (m : Object) (f : String) : Option Object := (m.get? f).bind Value.asMap

lemma mapAt_set (m : Object) (k : String) (v : Value) (f : String) :
    (m.set k v).mapAt f = if f = k then v.asMap else m.mapAt f := by
  unfold mapAt
  rw [get?_set]
  split_ifs <;> rfl

/-- Reading what `acc` has found at the type of `conv` is applying `conv` to it, errors left aside.
-/
lemma toOption_typed {α : Type} (path : List String) (conv : Value → Option α)
    (acc : Access Value) : (acc.typed path conv).toOption = acc.toOption.bind conv := by
  cases acc with
  | found v => cases h : conv v <;> simp [Access.typed, Access.toOption, h]
  | missing => rfl
  | err p v => rfl

/-- **An access finds what the plain lookup finds.** -/
theorem toOption_nestedField (m : Object) (path : List String) :
    (m.nestedField path).toOption = m.at? path :=
  Value.toOption_walk _ [] path

/-- The value at a path of length one. -/
lemma nestedField_one (m : Object) (f : String) :
    (m.nestedField [f]).toOption = m.get? f := by
  rw [toOption_nestedField, at?_cons]
  exact Option.bind_fun_some _

/-- The value at a path of length two is an entry of the map at its first key. -/
lemma nestedField_two (m : Object) (f g : String) :
    (m.nestedField [f, g]).toOption = (m.mapAt f).bind fun sub => sub.get? g := by
  rw [toOption_nestedField, at?_cons, mapAt, Option.bind_assoc]
  refine Option.bind_congr fun v _ => ?_
  rw [Value.at?]
  exact Option.bind_fun_some _

/-- `nestedString` gives the string at the path, errors left aside. -/
lemma toOption_nestedString (m : Object) (path : List String) :
    (m.nestedString path).toOption = (m.at? path).bind Value.asString := by
  rw [nestedString, toOption_typed, toOption_nestedField]

/-- `nestedStringMap` gives the map of strings at the path, errors left aside. -/
lemma toOption_nestedStringMap (m : Object) (path : List String) :
    (m.nestedStringMap path).toOption =
      (m.at? path).bind fun v => v.asMap.bind (convert Value.asString) := by
  rw [nestedStringMap, toOption_typed, toOption_nestedField]

/-- A string at a path of length two is a string entry of the map at its first key. -/
lemma nestedString_two (m : Object) (f g : String) :
    (m.nestedString [f, g]).toOption = ((m.mapAt f).bind (·.get? g)).bind Value.asString := by
  rw [nestedString, toOption_typed, nestedField_two]

/-- A map with its values read has the same keys. -/
lemma keys_convert {conv : Value → Option String} {m m' : Object}
    (h : m.convert conv = some m') : m'.keys = m.keys := by
  unfold convert at h
  split_ifs at h with hall
  obtain rfl := Option.some.inj h
  refine Finset.filter_true_of_mem fun k hk => ?_
  have hk' := hall ⟨k, hk⟩
  simp only [get?, hk, dif_pos, Option.bind_some, Option.isSome_map]
  exact hk'

/-- The values of a map with its values read. -/
lemma get?_convert {conv : Value → Option String} {m m' : Object}
    (h : m.convert conv = some m') (k : String) :
    m'.get? k = ((m.get? k).bind conv).map Value.str := by
  unfold convert at h
  split_ifs at h with hall
  obtain rfl := Option.some.inj h
  rw [get?_ofFn]
  split_ifs with hk
  · rfl
  · simp [get?, hk]

/-- Setting a path of length two through a map succeeds. -/
lemma setNestedField_two {m sub : Object} {f : String} (v : Value) (g : String)
    (h : m.mapAt f = some sub) :
    m.setNestedField v [f, g] = some (m.set f (.ofObject (sub.set g v))) := by
  unfold mapAt at h
  cases hf : m.get? f with
  | none => simp [hf] at h
  | some old =>
    simp only [hf, Option.bind_some] at h
    simp [setNestedField, hf, h]

/-- Setting a path leaves the keys off the path alone. -/
lemma get?_setNestedField_of_ne {m m' : Object} {v : Value} {f g : String} {fs : List String}
    (h : m.setNestedField v (f :: fs) = some m') (hg : g ≠ f) : m'.get? g = m.get? g := by
  cases fs with
  | nil =>
    simp only [setNestedField, Option.some_inj] at h
    rw [← h, get?_set_of_ne _ _ hg]
  | cons f' fs =>
    simp only [setNestedField] at h
    cases hf : m.get? f with
    | none =>
      simp only [hf, Option.map_eq_some_iff] at h
      obtain ⟨sub, -, rfl⟩ := h
      exact get?_set_of_ne _ _ hg
    | some old =>
      cases hmap : old.asMap with
      | none => simp [hf, hmap] at h
      | some sub =>
        simp only [hf, hmap, Option.map_eq_some_iff] at h
        obtain ⟨sub', -, rfl⟩ := h
        exact get?_set_of_ne _ _ hg

end Object

end JsonTree
