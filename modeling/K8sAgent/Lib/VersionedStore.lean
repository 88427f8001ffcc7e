import Mathlib.Data.Option.Basic
import Mathlib.Logic.Function.Basic
import Mathlib.Data.List.Basic

set_option relaxedAutoImplicit false
set_option autoImplicit false

/-!
# Versioned stores

A store of tagged values, as optimistic concurrency control has it: whatever is stored at a key gets
a tag that no value of the key has had before. A value read at any earlier time is then still the
live one exactly when its tag is still the live tag, however many others have written in between.

## Main definitions

* `VersionedStore.Store` — the live value of each key and all values it has had, with the
  uniqueness of tags as a field.
* `VersionedStore.Store.put?`, `VersionedStore.Store.remove` — storing a freshly tagged value,
  removing the live one.

## Main results

* `VersionedStore.Store.eq_live_of_tag` — a value of the past with the live tag is the live value.
-/

namespace VersionedStore

/-- Values of type `V` under keys of type `K`. A value without a tag is never stored. -/
structure Store (K V T : Type) (tag : V → Option T) where
  /-- The live value of a key. -/
  live : K → Option V
  /-- The values a key has had, the live one included. -/
  past : K → List V
  /-- The live value is one of those. -/
  live_mem : ∀ {k v}, live k = some v → v ∈ past k
  /-- Stored values have tags. -/
  tag_ne_none : ∀ {k v}, v ∈ past k → tag v ≠ none
  /-- Tags of a key are not used again. -/
  tag_inj : ∀ {k v w}, v ∈ past k → w ∈ past k → tag v = tag w → v = w

namespace Store

variable {K V T : Type} {tag : V → Option T}

/-- The value has a tag that is new to the key. -/
def Fresh (s : Store K V T tag) (k : K) (v : V) : Prop :=
  tag v ≠ none ∧ ∀ w ∈ s.past k, tag w ≠ tag v

instance [DecidableEq T] (s : Store K V T tag) (k : K) (v : V) : Decidable (s.Fresh k v) :=
  inferInstanceAs (Decidable (_ ∧ _))

/-- **A value of the past with the live tag is the live value.** A reader that remembers the tag of
what it has read learns from the tag alone that nothing has changed. -/
theorem eq_live_of_tag {s : Store K V T tag} {k : K} {v w : V} (hv : s.live k = some v)
    (hw : w ∈ s.past k) (htag : tag w = none ∨ tag w = tag v) : v = w := by
  rcases htag with hnone | heq
  · exact absurd hnone (s.tag_ne_none hw)
  · exact s.tag_inj (s.live_mem hv) hw heq.symm

variable [DecidableEq K]

/-- The store with a freshly tagged value at a key. -/
def put (s : Store K V T tag) (k : K) (v : V) (hv : s.Fresh k v) : Store K V T tag where
  live := Function.update s.live k (some v)
  past := Function.update s.past k (v :: s.past k)
  live_mem := by
    intro k' w hw
    by_cases hk : k' = k
    · subst hk
      rw [Function.update_self] at hw ⊢
      cases hw
      exact List.mem_cons_self
    · rw [Function.update_of_ne hk] at hw ⊢
      exact s.live_mem hw
  tag_ne_none := by
    intro k' w hw
    by_cases hk : k' = k
    · subst hk
      rw [Function.update_self] at hw
      rcases List.mem_cons.mp hw with rfl | hw
      · exact hv.1
      · exact s.tag_ne_none hw
    · rw [Function.update_of_ne hk] at hw
      exact s.tag_ne_none hw
  tag_inj := by
    intro k' w w' hw hw' htag
    by_cases hk : k' = k
    · subst hk
      rw [Function.update_self] at hw hw'
      rcases List.mem_cons.mp hw with hw₁ | hw₁ <;> rcases List.mem_cons.mp hw' with hw₂ | hw₂
      · rw [hw₁, hw₂]
      · exact absurd (hw₁ ▸ htag.symm) (hv.2 w' hw₂)
      · exact absurd (hw₂ ▸ htag) (hv.2 w hw₁)
      · exact s.tag_inj hw₁ hw₂ htag
    · rw [Function.update_of_ne hk] at hw hw'
      exact s.tag_inj hw hw' htag

/-- Store a value, if its tag is fresh. -/
def put? [DecidableEq T] (s : Store K V T tag) (k : K) (v : V) : Option (Store K V T tag) :=
  if hv : s.Fresh k v then some (s.put k v hv) else none

/-- The store without the live value of a key. -/
def remove (s : Store K V T tag) (k : K) : Store K V T tag where
  live := Function.update s.live k none
  past := s.past
  live_mem := by
    intro k' w hw
    by_cases hk : k' = k
    · subst hk
      rw [Function.update_self] at hw
      cases hw
    · rw [Function.update_of_ne hk] at hw
      exact s.live_mem hw
  tag_ne_none := s.tag_ne_none
  tag_inj := s.tag_inj

/-- The empty store. -/
def empty : Store K V T tag where
  live _ := none
  past _ := []
  live_mem h := by cases h
  tag_ne_none h := by cases h
  tag_inj h := by cases h

section Lemmas

variable {s s' : Store K V T tag} {k k' : K} {v w : V}

lemma put?_eq_some [DecidableEq T] (h : s.put? k v = some s') :
    ∃ hv : s.Fresh k v, s' = s.put k v hv := by
  unfold put? at h
  split_ifs at h with hv
  exact ⟨hv, (Option.some.inj h).symm⟩

/-- What is live after storing a value: it, or what was live before at another key. -/
lemma live_put? [DecidableEq T] (h : s.put? k v = some s') (hw : s'.live k' = some w) :
    (k' = k ∧ w = v) ∨ (k' ≠ k ∧ s.live k' = some w) := by
  obtain ⟨hv, rfl⟩ := put?_eq_some h
  by_cases hk : k' = k
  · subst hk
    simp only [put, Function.update_self, Option.some_inj] at hw
    exact .inl ⟨rfl, hw.symm⟩
  · simp only [put, Function.update_of_ne hk] at hw
    exact .inr ⟨hk, hw⟩

/-- Storing a value forgets none of the past. -/
lemma past_put? [DecidableEq T] (h : s.put? k v = some s') (hw : w ∈ s.past k') :
    w ∈ s'.past k' := by
  obtain ⟨hv, rfl⟩ := put?_eq_some h
  by_cases hk : k' = k
  · subst hk
    simpa [put] using .inr hw
  · simpa [put, Function.update_of_ne hk] using hw

/-- What is live after removing a value was live before. -/
lemma live_of_live_remove (hw : (s.remove k).live k' = some w) : s.live k' = some w := by
  by_cases hk : k' = k
  · subst hk
    simp [remove] at hw
  · simpa [remove, Function.update_of_ne hk] using hw

/-- The key of what is live after a removal is another. -/
lemma ne_of_live_remove (hw : (s.remove k).live k' = some w) : k' ≠ k := by
  rintro rfl
  simp [remove] at hw

/-- **No value comes back**: a value of the past that is live after storing another was live before,
at another key. -/
theorem live_put?_of_past [DecidableEq T] (h : s.put? k v = some s') (hpast : w ∈ s.past k')
    (hw : s'.live k' = some w) : k' ≠ k ∧ s.live k' = some w := by
  rcases live_put? h hw with ⟨rfl, rfl⟩ | hother
  · obtain ⟨hv, -⟩ := put?_eq_some h
    exact absurd rfl (hv.2 w hpast)
  · exact hother

end Lemmas

end Store

end VersionedStore
