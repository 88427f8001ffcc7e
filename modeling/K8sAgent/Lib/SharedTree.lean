import K8sAgent.Lib.JsonPath

set_option relaxedAutoImplicit false
set_option autoImplicit false

/-!
# Trees that share parts

Maps are references: a program that stores a value of one tree in another holds it in both, and an
assignment behind the place where it is stored changes both trees. Here one tree takes values from
a source, each at the path it has there; the places where it has done so are recorded, and an
assignment made in a map that is shared goes through to the source.

## Main definitions

* `JsonTree.Shared` — a tree, the source it takes values from, and the paths that are shared.
* `JsonTree.Shared.Through` — an assignment to the path is made in a shared map.
* `JsonTree.Shared.assign`, `remove`, `share` — the operations on the tree.

## Main results

* `JsonTree.Shared.source_assign`, `source_share` — the source is as before unless an operation goes
  through to it.
-/

namespace JsonTree

/-- A tree that takes values from a source. -/
structure Shared where
  /-- The tree that is worked on. -/
  tree : Object
  /-- The tree values are taken from. -/
  source : Object
  /-- The paths at which the first holds the very value that the second holds there. -/
  links : List (List String) := []

namespace Shared

/-- What is assigned to the path is assigned in a map that is shared: some shared path is a proper
beginning of it. -/
def Through (s : Shared) (p : List String) : Prop := ∃ l ∈ s.links, l <+: p ∧ l ≠ p

instance (s : Shared) (p : List String) : Decidable (s.Through p) :=
  inferInstanceAs (Decidable (∃ l ∈ s.links, _))

/-- Assign to a path of the tree. What was shared there or behind it is no longer. -/
def assign (s : Shared) (p : List String) (v? : Option Value) : Shared where
  tree := s.tree.edit p v?
  source := if s.Through p then s.source.edit p v? else s.source
  links := if v?.isSome ∧ s.tree.settable p then s.links.filter fun l => !p.isPrefixOf l
    else s.links

/-- Remove a path of the tree. -/
def remove (s : Shared) (p : List String) : Shared where
  tree := s.tree.removeNestedField p
  source := if s.Through p then s.source.removeNestedField p else s.source
  links := s.links.filter fun l => !p.isPrefixOf l

/-- Take the value the source has at a path, by reference; where it has none, remove the path. -/
def share (s : Shared) (p : List String) : Shared :=
  match s.source.at? p with
  | some v => { s.assign p (some v) with links := p :: (s.assign p (some v)).links }
  | none => s.remove p

/-- After an assignment every link is one that was there before. -/
lemma mem_links_assign {s : Shared} {p l : List String} {v? : Option Value}
    (h : l ∈ (s.assign p v?).links) : l ∈ s.links := by
  unfold assign at h
  dsimp only at h
  split_ifs at h
  · exact List.mem_of_mem_filter h
  · exact h

/-- Taking a value adds a link at its path only. -/
lemma mem_links_share {s : Shared} {p l : List String} (h : l ∈ (s.share p).links) :
    l = p ∨ l ∈ s.links := by
  unfold share at h
  cases hp : s.source.at? p with
  | none =>
    rw [hp] at h
    exact .inr (List.mem_of_mem_filter h)
  | some v =>
    rw [hp] at h
    rcases List.mem_cons.mp h with h | h
    · exact .inl h
    · exact .inr (mem_links_assign h)

/-- **The source is as before** if the assignment is not made in a shared map. -/
theorem source_assign {s : Shared} {p : List String} (v? : Option Value) (h : ¬s.Through p) :
    (s.assign p v?).source = s.source := if_neg h

/-- **The source is as before** if the value is not stored in a shared map. -/
theorem source_share {s : Shared} {p : List String} (h : ¬s.Through p) :
    (s.share p).source = s.source := by
  unfold share
  cases s.source.at? p with
  | none => exact if_neg h
  | some v => exact if_neg h

/-- The tree after a value has been taken. -/
lemma tree_share (s : Shared) (p : List String) :
    (s.share p).tree = match s.source.at? p with
      | some v => s.tree.edit p (some v)
      | none => s.tree.removeNestedField p := by
  unfold share
  cases s.source.at? p <;> rfl

end Shared

end JsonTree
