import K8sAgent.Lib.JsonTree
import Mathlib.Data.List.Infix

set_option relaxedAutoImplicit false
set_option autoImplicit false

/-!
# Writing along paths

What an assignment along a path of keys does to a tree, seen through the lookups: the path holds
the new value, paths that neither lead to it nor continue it are as before, and the assignment
fails exactly if a value on the way is not a map.

## Main definitions

* `JsonTree.Apart` — neither path leads to the other.
* `JsonTree.Object.below` — the map in which an assignment goes on behind a key.
* `JsonTree.Object.settable` — the maps on the way to a path are there or can be created.
* `JsonTree.Object.edit` — an assignment that is made if there is a value, and ignored if it fails.
* `JsonTree.Object.AllStrings` — all values of a map are strings.
* `JsonTree.Object.NullFree` — no path leads to a null.

## Main results

* `JsonTree.Object.isSome_setNestedField` — when an assignment succeeds.
* `JsonTree.Object.at?_edit_self`, `at?_edit_of_apart` — the lookups after an assignment.
* `JsonTree.Object.setNestedField_setNestedField` — of two assignments the later counts.
-/

namespace JsonTree

/-! ## Paths -/

/-- Neither path leads to the other or through it. -/
def Apart (p q : List String) : Prop := ¬ p <+: q ∧ ¬ q <+: p

instance (p q : List String) : Decidable (Apart p q) := inferInstanceAs (Decidable (_ ∧ _))

lemma Apart.symm {p q : List String} (h : Apart p q) : Apart q p := ⟨h.2, h.1⟩

/-- Behind a common key, two paths are apart if what is left of them is. -/
lemma Apart.of_cons {k : String} {p q : List String} (h : Apart (k :: p) (k :: q)) :
    Apart p q :=
  ⟨fun hpq => h.1 (List.cons_prefix_cons.mpr ⟨rfl, hpq⟩),
    fun hqp => h.2 (List.cons_prefix_cons.mpr ⟨rfl, hqp⟩)⟩

/-- Paths that are apart stay so when one of them is continued. -/
lemma Apart.append {p q : List String} (h : Apart p q) (r : List String) : Apart (p ++ r) q := by
  refine ⟨fun hpre => h.1 ((List.prefix_append p r).trans hpre), fun hpre => ?_⟩
  rcases List.prefix_or_prefix_of_prefix hpre (List.prefix_append p r) with hqp | hpq
  · exact h.2 hqp
  · exact h.1 hpq

/-- No path is apart from the empty one. -/
lemma not_apart_nil (p : List String) : ¬ Apart [] p := fun h => h.1 p.nil_prefix

/-! ## Lookups after one operation -/

/-- Looking `p ++ q` up in a value is looking up `p`, and `q` in what is found. -/
lemma Value.at?_append (v : Value) (p q : List String) :
    v.at? (p ++ q) = (v.at? p).bind fun w => w.at? q := by
  induction p generalizing v with
  | nil => rfl
  | cons k ks ih =>
    rw [List.cons_append, at?, at?]
    cases v.asMap.bind fun m => m.get? k with
    | none => rfl
    | some w => exact ih w

namespace Object

/-- Looking `p ++ q` up in a map is looking up `p`, and `q` in what is found. -/
lemma at?_append (m : Object) (p q : List String) :
    m.at? (p ++ q) = (m.at? p).bind fun v => v.at? q := Value.at?_append _ p q

@[simp] lemma at?_singleton (m : Object) (k : String) : m.at? [k] = m.get? k :=
  Option.bind_fun_some _

lemma at?_set (m : Object) (k : String) (v : Value) (k' : String) (ks : List String) :
    (m.set k v).at? (k' :: ks) = if k' = k then v.at? ks else m.at? (k' :: ks) := by
  rw [at?_cons, get?_set]
  split_ifs <;> rfl

/-- The lookups below a key that holds a map. -/
lemma at?_of_mapAt {m sub : Object} {f : String} (h : m.mapAt f = some sub)
    (ks : List String) : m.at? (f :: ks) = sub.at? ks := by
  obtain ⟨v, hv, hmap⟩ := Option.bind_eq_some_iff.mp h
  rw [at?_cons, hv, Option.bind_some, Value.eq_ofObject hmap]
  rfl

/-- A key that holds a map, by its value. -/
lemma get?_of_mapAt {m sub : Object} {f : String} (h : m.mapAt f = some sub) :
    m.get? f = some (.ofObject sub) := by
  obtain ⟨v, hv, hmap⟩ := Option.bind_eq_some_iff.mp h
  rw [hv, Value.eq_ofObject hmap]

lemma mapAt_of_get? {m sub : Object} {f : String} (h : m.get? f = some (.ofObject sub)) :
    m.mapAt f = some sub := by
  rw [mapAt, h]
  rfl

@[simp] lemma get?_empty (k : String) : empty.get? k = none := by simp [empty]

/-- Setting a key to what it holds changes nothing. -/
lemma set_eq_self {m : Object} {k : String} {v : Value} (h : m.get? k = some v) :
    m.set k v = m := by
  refine ext_get? fun k' => ?_
  rw [get?_set]
  split_ifs with hk
  · rw [hk, h]
  · rfl

/-- Of two values for a key the later counts. -/
lemma set_set (m : Object) (k : String) (v w : Value) : (m.set k v).set k w = m.set k w := by
  refine ext_get? fun k' => ?_
  simp only [get?_set]
  split_ifs <;> rfl

/-! ## One step of an assignment -/

/-- The map in which an assignment goes on behind a key: a new one where the key is absent. -/
def below (m : Object) (f : String) : Option Object :=
  match m.get? f with
  | none => some empty
  | some v => v.asMap

/-- Lookups behind a key are lookups in the map behind it. -/
lemma at?_of_below {m sub : Object} {f : String} (h : m.below f = some sub) (g : String)
    (gs : List String) : m.at? (f :: g :: gs) = sub.at? (g :: gs) := by
  unfold below at h
  cases hf : m.get? f with
  | none =>
    rw [hf] at h
    obtain rfl := Option.some.inj h
    rw [at?_cons, hf, at?_cons, get?_empty]
    rfl
  | some v =>
    rw [hf] at h
    rw [at?_cons, hf, Option.bind_some, Value.eq_ofObject h]
    rfl

lemma below_set_self (m sub : Object) (f : String) :
    (m.set f (.ofObject sub)).below f = some sub := by
  rw [below, get?_set_self]
  rfl

/-- An assignment behind a key is one in the map behind it. -/
lemma setNestedField_cons (m : Object) (v : Value) (f g : String) (gs : List String) :
    m.setNestedField v (f :: g :: gs) = (m.below f).bind fun sub =>
      (sub.setNestedField v (g :: gs)).map fun sub' => m.set f (.ofObject sub') := by
  rw [setNestedField, below]
  · cases m.get? f with
    | none => rfl
    | some old => cases hmap : old.asMap <;> simp [hmap]
  · simp

/-- What an assignment behind a key that succeeds has done. -/
lemma exists_of_setNestedField_cons {m m' : Object} {v : Value} {f g : String}
    {gs : List String} (h : m.setNestedField v (f :: g :: gs) = some m') :
    ∃ sub sub', m.below f = some sub ∧ sub.setNestedField v (g :: gs) = some sub' ∧
      m' = m.set f (.ofObject sub') := by
  rw [setNestedField_cons] at h
  obtain ⟨sub, hsub, h⟩ := Option.bind_eq_some_iff.mp h
  obtain ⟨sub', hsub', rfl⟩ := Option.map_eq_some_iff.mp h
  exact ⟨sub, sub', hsub, hsub', rfl⟩

/-! ## Assignments -/

/-- The maps on the way to a path are there or can be created. -/
def settable (m : Object) : List String → Bool
  | [] => false
  | [_] => true
  | f :: fs => match m.below f with
    | some sub => sub.settable fs
    | none => false

lemma settable_cons (m : Object) (f g : String) (gs : List String) :
    m.settable (f :: g :: gs) = match m.below f with
      | some sub => sub.settable (g :: gs)
      | none => false := by
  rw [settable]
  simp

/-- Whether an assignment can be made depends on what is behind the first key only. -/
lemma settable_congr {m m' : Object} {f : String} (h : m.get? f = m'.get? f)
    (fs : List String) : m.settable (f :: fs) = m'.settable (f :: fs) := by
  cases fs with
  | nil => rfl
  | cons g gs => rw [settable_cons, settable_cons, below, below, h]

/-- An assignment can be made if what is on the way to its path are maps, as far as there is
something. -/
lemma settable_of_maps {m : Object} {p : List String} (hp : p ≠ [])
    (h : ∀ n < p.length, ∀ w, m.at? (p.take n) = some w → w.asMap.isSome) :
    m.settable p = true := by
  induction p generalizing m with
  | nil => exact absurd rfl hp
  | cons f fs ih =>
    cases fs with
    | nil => rfl
    | cons g gs =>
      rw [settable_cons, below]
      cases hf : m.get? f with
      | none =>
        refine ih (by simp) fun n _ w hw => ?_
        cases n with
        | zero =>
          obtain rfl := Option.some.inj hw
          rfl
        | succ n => simp at hw
      | some v =>
        have hmap : v.asMap.isSome := h 1 (by simp) v (by simpa using hf)
        obtain ⟨sub, hsub⟩ := Option.isSome_iff_exists.mp hmap
        dsimp only
        rw [hsub]
        refine ih (by simp) fun n hn w hw => ?_
        refine h (n + 1) (Nat.succ_lt_succ hn) w ?_
        rw [List.take_succ_cons, at?_cons, hf, Option.bind_some, Value.eq_ofObject hsub]
        exact hw

/-- **An assignment succeeds exactly where the maps on the way are there or can be created.** -/
theorem isSome_setNestedField (m : Object) (v : Value) (p : List String) :
    (m.setNestedField v p).isSome = m.settable p := by
  induction p generalizing m with
  | nil => rfl
  | cons f fs ih =>
    cases fs with
    | nil => rfl
    | cons g gs =>
      rw [setNestedField_cons, settable_cons]
      cases m.below f with
      | none => rfl
      | some sub => simpa using ih sub

/-- After `setNestedField` with the value `v` at the path `p`, the path `p` leads to `v`. -/
lemma at?_setNestedField {m m' : Object} {v : Value} {p : List String}
    (h : m.setNestedField v p = some m') : m'.at? p = some v := by
  induction p generalizing m m' with
  | nil => cases h
  | cons f fs ih =>
    cases fs with
    | nil =>
      obtain rfl := Option.some.inj h
      simp
    | cons g gs =>
      obtain ⟨sub, sub', -, hsub', rfl⟩ := exists_of_setNestedField_cons h
      rw [at?_set, if_pos rfl]
      exact ih hsub'

/-- **Paths apart from the one assigned to are as before.**

**Proof sketch.** Induction on the path assigned to. Behind a first key the two paths have in
common, both lookups are lookups in the map there; behind different first keys nothing changes. -/
theorem at?_setNestedField_of_apart {m m' : Object} {v : Value} {p q : List String}
    (h : m.setNestedField v p = some m') (hq : Apart p q) : m'.at? q = m.at? q := by
  induction p generalizing m m' q with
  | nil => cases h
  | cons f fs ih =>
    cases q with
    | nil => exact absurd hq.symm (not_apart_nil _)
    | cons k ks =>
      cases fs with
      | nil =>
        obtain rfl := Option.some.inj h
        have hk : k ≠ f := by
          rintro rfl
          exact hq.1 (List.cons_prefix_cons.mpr ⟨rfl, List.nil_prefix⟩)
        rw [at?_set, if_neg hk]
      | cons g gs =>
        obtain ⟨sub, sub', hsub, hsub', rfl⟩ := exists_of_setNestedField_cons h
        rw [at?_set]
        split_ifs with hk
        · subst hk
          cases ks with
          | nil => exact absurd hq.of_cons.symm (not_apart_nil _)
          | cons k' ks =>
            rw [at?_of_below hsub]
            exact ih hsub' hq.of_cons
        · rfl

/-- **Of two assignments to a path the later counts.** -/
theorem setNestedField_setNestedField {m m' : Object} {v : Value} {p : List String}
    (h : m.setNestedField v p = some m') (w : Value) :
    m'.setNestedField w p = m.setNestedField w p := by
  induction p generalizing m m' with
  | nil => rfl
  | cons f fs ih =>
    cases fs with
    | nil =>
      obtain rfl := Option.some.inj h
      exact congrArg some (set_set m f v w)
    | cons g gs =>
      obtain ⟨sub, sub', hsub, hsub', rfl⟩ := exists_of_setNestedField_cons h
      rw [setNestedField_cons, below_set_self, Option.bind_some, ih hsub', setNestedField_cons,
        hsub, Option.bind_some]
      simp [set_set]

/-- Assigning the value a path holds changes nothing. -/
lemma setNestedField_eq_self {m : Object} {v : Value} {p : List String} (hp : p ≠ [])
    (h : m.at? p = some v) : m.setNestedField v p = some m := by
  induction p generalizing m with
  | nil => exact absurd rfl hp
  | cons f fs ih =>
    rw [at?_cons] at h
    obtain ⟨w, hw, h⟩ := Option.bind_eq_some_iff.mp h
    cases fs with
    | nil =>
      obtain rfl := Option.some.inj h
      exact congrArg some (set_eq_self hw)
    | cons g gs =>
      cases hmap : w.asMap with
      | none =>
        rw [Value.at?_cons_of_not_map hmap] at h
        cases h
      | some sub =>
        obtain rfl := Value.eq_ofObject hmap
        have hbelow : m.below f = some sub := by
          rw [below, hw]
          rfl
        rw [setNestedField_cons, hbelow, Option.bind_some, ih (by simp) h]
        simp [set_eq_self hw]

/-- What a path holds can be assigned to again. -/
lemma settable_of_at? {m : Object} {p : List String} {v : Value} (hp : p ≠ [])
    (h : m.at? p = some v) : m.settable p = true := by
  rw [← isSome_setNestedField m v, setNestedField_eq_self hp h]
  rfl

/-! ## Assignments that may fail or not be made -/

/-- Assign the value, if there is one; an assignment that fails changes nothing. -/
def edit (m : Object) (p : List String) : Option Value → Object
  | none => m
  | some v => (m.setNestedField v p).getD m

@[simp] lemma edit_none (m : Object) (p : List String) : m.edit p none = m := rfl

lemma edit_of_settable {m : Object} {p : List String} (h : m.settable p = true) (v : Value) :
    m.setNestedField v p = some (m.edit p (some v)) := by
  rw [← isSome_setNestedField m v] at h
  obtain ⟨m', hm'⟩ := Option.isSome_iff_exists.mp h
  rw [edit, hm']
  rfl

lemma edit_of_not_settable {m : Object} {p : List String} (h : m.settable p = false)
    (v? : Option Value) : m.edit p v? = m := by
  cases v? with
  | none => rfl
  | some v =>
    rw [← isSome_setNestedField m v, Option.isSome_eq_false_iff, Option.isNone_iff_eq_none] at h
    rw [edit, h]
    rfl

/-- **What the path `p` leads to after an assignment to it**: the value assigned, if there is one
and the path can be set, and else what it led to before. -/
theorem at?_edit_self (m : Object) (p : List String) (v? : Option Value) :
    (m.edit p v?).at? p = if m.settable p then v?.or (m.at? p) else m.at? p := by
  split_ifs with h
  · cases v? with
    | none => rfl
    | some v => exact at?_setNestedField (edit_of_settable h v)
  · rw [edit_of_not_settable (by simpa using h)]

/-- **Paths apart from the one assigned to are as before**, whether the assignment is made or
not. -/
theorem at?_edit_of_apart (m : Object) {p q : List String} (v? : Option Value)
    (hq : Apart p q) : (m.edit p v?).at? q = m.at? q := by
  cases v? with
  | none => rfl
  | some v =>
    cases h : m.setNestedField v p with
    | none =>
      rw [edit, h]
      rfl
    | some m' =>
      rw [edit, h]
      exact at?_setNestedField_of_apart h hq

/-- An assignment behind a key that holds a map is one in that map. -/
lemma edit_set_cons (m sub : Object) (f g : String) (gs : List String) (v? : Option Value) :
    (m.set f (.ofObject sub)).edit (f :: g :: gs) v? =
      m.set f (.ofObject (sub.edit (g :: gs) v?)) := by
  cases v? with
  | none => rfl
  | some v =>
    rw [edit, setNestedField_cons, below_set_self, Option.bind_some, edit]
    cases sub.setNestedField v (g :: gs) with
    | none => rfl
    | some sub' => simp [set_set]

/-! ## Removals -/

/-- A map without its entries is the empty one. -/
lemma keys_eq_empty_iff {m : Object} : m.keys = ∅ ↔ m = .empty := by
  constructor
  · intro h
    refine ext_get? fun k => ?_
    rw [get?_empty, ← Option.not_isSome_iff_eq_none, ← mem_keys, h]
    exact Finset.notMem_empty k
  · rintro rfl
    rfl

/-- The map with a key set to a value, or without the key. -/
def put (m : Object) (k : String) : Option Value → Object
  | none => m.erase k
  | some v => m.set k v

lemma get?_put (m : Object) (k : String) (v? : Option Value) (k' : String) :
    (put m k v?).get? k' = if k' = k then v? else m.get? k' := by
  cases v? with
  | none => exact get?_erase m k k'
  | some v => exact get?_set m k v k'

/-- When the keys `ks` have been erased, the others are found as before. -/
lemma get?_foldl_erase (ks : List String) (m : Object) (k : String) :
    (ks.foldl erase m).get? k = if k ∈ ks then none else m.get? k := by
  induction ks generalizing m with
  | nil => simp
  | cons k' ks ih =>
    rw [List.foldl_cons, ih, get?_erase]
    by_cases hk : k = k' <;> by_cases hks : k ∈ ks <;> simp [hk, hks]

/-- Removing the path `f :: g :: gs` removes `g :: gs` in the map `sub` at `f`. -/
lemma removeNestedField_of_mapAt {m sub : Object} {f : String} (h : m.mapAt f = some sub)
    (g : String) (gs : List String) : m.removeNestedField (f :: g :: gs) =
      m.set f (.ofObject (sub.removeNestedField (g :: gs))) := by
  have hget : (m.get? f).bind Value.asMap = some sub := h
  simp only [removeNestedField, hget]

/-- Removing a path below something that is not a map. -/
lemma removeNestedField_of_mapAt_none {m : Object} {f : String} (h : m.mapAt f = none)
    (g : String) (gs : List String) : m.removeNestedField (f :: g :: gs) = m := by
  have hget : (m.get? f).bind Value.asMap = none := h
  simp only [removeNestedField, hget]

/-- Removing fields of a map removes them from the map. -/
lemma foldl_removeNestedField_set (m sub : Object) (f : String) (ks : List String) :
    (ks.map ([f, ·])).foldl removeNestedField (m.set f (.ofObject sub)) =
      m.set f (.ofObject (ks.foldl erase sub)) := by
  induction ks generalizing sub with
  | nil => rfl
  | cons k ks ih =>
    have hmap : (m.set f (.ofObject sub)).mapAt f = some sub := by
      rw [mapAt_set, if_pos rfl, Value.asMap_ofObject]
    rw [List.map_cons, List.foldl_cons, removeNestedField_of_mapAt hmap, set_set, ih]
    rfl

/-- Where there is no map, removing fields of it changes nothing. -/
lemma foldl_removeNestedField_of_none {m : Object} {f : String} (h : m.mapAt f = none)
    (ks : List String) : (ks.map ([f, ·])).foldl removeNestedField m = m := by
  induction ks with
  | nil => rfl
  | cons k ks ih => rw [List.map_cons, List.foldl_cons, removeNestedField_of_mapAt_none h, ih]

@[simp] lemma removeNestedField_singleton (m : Object) (f : String) :
    m.removeNestedField [f] = m.erase f := rfl

/-! ## Maps of strings -/

/-- All values are strings. -/
def AllStrings (m : Object) : Prop := ∀ k v, m.get? k = some v → v.asString.isSome

/-- A condition on all values, by lookups and as `Object.convert` tests it. -/
lemma forall_get?_iff {m : Object} {P : Value → Prop} :
    (∀ k v, m.get? k = some v → P v) ↔ ∀ k : {k // k ∈ m.keys}, P (m.vals k) := by
  constructor
  · exact fun h k => h k.1 _ (dif_pos k.2)
  · intro h k v hv
    have hk : k ∈ m.keys := mem_keys.mpr (by simp [hv])
    have hval : m.vals ⟨k, hk⟩ = v := by
      rw [get?, dif_pos hk] at hv
      exact Option.some.inj hv
    exact hval ▸ h ⟨k, hk⟩

lemma allStrings_iff {m : Object} :
    m.AllStrings ↔ ∀ k : {k // k ∈ m.keys}, (Value.asString (m.vals k)).isSome := forall_get?_iff

/-- A map is read when each of its values is. -/
lemma isSome_convert {conv : Value → Option String} {m : Object} :
    (m.convert conv).isSome ↔ ∀ k v, m.get? k = some v → (conv v).isSome := by
  rw [forall_get?_iff, convert]
  split_ifs with h
  · exact iff_of_true rfl h
  · exact iff_of_false Bool.false_ne_true h

instance (m : Object) : Decidable m.AllStrings := decidable_of_iff _ allStrings_iff.symm

/-- **A map of strings reads as itself**, and one value of another type spoils the map. -/
theorem convert_asString (m : Object) :
    m.convert Value.asString = if m.AllStrings then some m else none := by
  split_ifs with h
  · have hconv : m.convert Value.asString = some (ofFn m.keys fun k =>
        ((m.get? k).bind Value.asString).map Value.str) := if_pos (allStrings_iff.mp h)
    rw [hconv, Option.some_inj]
    refine ext_get? fun k => ?_
    rw [get?_convert hconv]
    cases hk : m.get? k with
    | none => rfl
    | some v =>
      obtain ⟨s, hs⟩ := Option.isSome_iff_exists.mp (h k v hk)
      cases v with
      | str t => rfl
      | _ => cases hs
  · exact if_neg fun hall => h (allStrings_iff.mpr hall)

/-! ## Trees without nulls -/

/-- No path leads to a null. -/
def NullFree (m : Object) : Prop := ∀ p, m.at? p ≠ some .null

end Object

/-- No path leads to a null, and the value is not one. -/
def Value.NullFree (v : Value) : Prop := ∀ p, v.at? p ≠ some .null

lemma Value.NullFree.ne_null {v : Value} (h : v.NullFree) : v ≠ .null :=
  fun hv => h [] (congrArg some hv)

/-- The values of a map without nulls are without nulls. -/
lemma Object.NullFree.of_get? {m : Object} (h : m.NullFree) {k : String} {v : Value}
    (hv : m.get? k = some v) : v.NullFree := by
  intro p hp
  refine h (k :: p) ?_
  rw [at?_cons, hv]
  exact hp

/-- What a path leads to in a map without nulls is without nulls. -/
lemma Object.NullFree.of_at? {m : Object} (h : m.NullFree) {p : List String} {v : Value}
    (hv : m.at? p = some v) : v.NullFree := by
  intro q hq
  refine h (p ++ q) ?_
  rw [at?_append, hv]
  exact hq

/-- The maps in a map without nulls are without nulls. -/
lemma Object.NullFree.of_get?_map {m sub : Object} (h : m.NullFree) {k : String}
    (hv : m.get? k = some (.ofObject sub)) : sub.NullFree := h.of_get? hv

/-- Whether a value is without nulls, value by value. -/
def Value.isNullFree : Value → Bool
  | .null => false
  | .obj keys vals => decide (∀ k : {k // k ∈ keys}, (vals k).isNullFree = true)
  | _ => true

lemma Value.nullFree_iff (v : Value) : v.NullFree ↔ v.isNullFree = true := by
  induction v with
  | obj keys vals ih =>
    rw [isNullFree, decide_eq_true_iff]
    constructor
    · intro h k
      refine (ih k).mp fun p hp => h (k.1 :: p) ?_
      have hk : (Object.mk keys vals).get? k.1 = some (vals k) := dif_pos k.2
      rw [at?, asMap, Option.bind_some, hk, Option.bind_some]
      exact hp
    · intro h p hp
      cases p with
      | nil => cases hp
      | cons k ks =>
        obtain ⟨w, hw, hks⟩ := Option.bind_eq_some_iff.mp hp
        rw [asMap, Option.bind_some, Object.get?] at hw
        split_ifs at hw with hk
        obtain rfl := Option.some.inj hw
        exact (ih ⟨k, hk⟩).mpr (h ⟨k, hk⟩) ks hks
  | null => exact iff_of_false (fun h => h.ne_null rfl) (by simp [isNullFree])
  | _ =>
    refine iff_of_true (fun p hp => ?_) rfl
    cases p with
    | nil => cases hp
    | cons k ks => cases hp

instance (m : Object) : Decidable m.NullFree :=
  decidable_of_iff _ (Value.nullFree_iff (.ofObject m)).symm

end JsonTree
