import Mathlib.Algebra.BigOperators.Group.List.Basic
import Mathlib.Algebra.Order.BigOperators.Group.List
import Mathlib.Algebra.Order.Ring.Int

set_option relaxedAutoImplicit false
set_option autoImplicit false

/-!
# Greedy cuts

Cutting a list into pieces of bounded length and bounded weight, each as long as the bounds admit
and none of them empty: an element heavier than the bound is a piece of its own.

## Main definitions

* `Greedy.Cut` — a list cut in two, the front being one piece.
* `Greedy.Partition` — a list cut into pieces.

## Main results

* `Greedy.Partition.cons` — a cut and a partition of the rest make a partition.
-/

namespace Greedy

variable {α : Type} {w : α → ℤ} {maxCount maxWeight : ℤ}

/-- The weight of a list. -/
def weight (w : α → ℤ) (xs : List α) : ℤ := (xs.map w).sum

@[simp] lemma weight_nil : weight w [] = 0 := rfl

@[simp] lemma weight_cons (x : α) (xs : List α) : weight w (x :: xs) = w x + weight w xs := by
  rw [weight, List.map_cons, List.sum_cons]
  rfl

@[simp] lemma weight_append (xs ys : List α) :
    weight w (xs ++ ys) = weight w xs + weight w ys := by
  rw [weight, List.map_append, List.sum_append]
  rfl

/-- A list of elements none of which has negative weight has no negative weight. -/
lemma weight_nonneg (hw : ∀ x, 0 ≤ w x) (xs : List α) : 0 ≤ weight w xs := by
  refine List.sum_nonneg fun y hy => ?_
  obtain ⟨x, -, rfl⟩ := List.mem_map.mp hy
  exact hw x

/-- The list is cut in two: a front within the bounds, or of one element, and a rest whose first
element would exceed them. -/
structure Cut (w : α → ℤ) (maxCount maxWeight : ℤ) (xs front rest : List α) : Prop where
  /-- The two parts are the list. -/
  append : front ++ rest = xs
  /-- There is an element in front. -/
  ne_nil : front ≠ []
  /-- The front is not too long. -/
  length_le : (front.length : ℤ) ≤ maxCount
  /-- The front is not too heavy, unless it is a single element. -/
  weight_le : weight w front ≤ maxWeight ∨ front.length = 1
  /-- The front ends the list, is as long as may be, or has no room for the next element. -/
  maximal : rest = [] ∨ (front.length : ℤ) = maxCount ∨
    ∃ x ∈ rest.head?, maxWeight < weight w front + w x

/-- The pieces make up the list, and each is cut off what it and the pieces after it make up. -/
def Partition (w : α → ℤ) (maxCount maxWeight : ℤ) (xs : List α) (pieces : List (List α)) : Prop :=
  pieces.flatten = xs ∧ ∀ before piece after, pieces = before ++ piece :: after →
    Cut w maxCount maxWeight (piece ++ after.flatten) piece after.flatten

lemma Partition.nil : Partition w maxCount maxWeight [] [] :=
  ⟨rfl, fun before piece after h => absurd h (by simp)⟩

/-- A cut and a partition of the rest make a partition. -/
theorem Partition.cons {xs front rest : List α} {pieces : List (List α)}
    (hcut : Cut w maxCount maxWeight xs front rest)
    (hrest : Partition w maxCount maxWeight rest pieces) :
    Partition w maxCount maxWeight xs (front :: pieces) := by
  refine ⟨?_, fun before piece after h => ?_⟩
  · rw [List.flatten_cons, hrest.1, hcut.append]
  · cases before with
    | nil =>
      obtain ⟨rfl, rfl⟩ := List.cons.inj h
      rw [hrest.1, hcut.append]
      exact hcut
    | cons first before =>
      exact hrest.2 before piece after (List.cons.inj h).2

end Greedy
