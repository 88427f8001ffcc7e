import Mathlib.Data.List.DropRight
import Mathlib.Data.List.Nodup

set_option relaxedAutoImplicit false
set_option autoImplicit false

/-!
# Outboxes

A bounded queue of items that wait to be delivered. It is described by the history of all items
that were ever put in and the number of those that have left again; items leave in the order in
which they came, because they were delivered or because there was no room. What is in the box is
therefore an end piece of the history.

A batch is delivered by copying the content, and acknowledged later; by then the box may have lost
items of the batch and won others. Removing the acknowledged items from the front until the first
one that is not among them leaves exactly the items that came after the copy was made.

## Main definitions

* `Outbox` — the history and the number of items that have left.
* `Outbox.content` — what is in the box.
* `Outbox.push`, `Outbox.release` — an item comes; the items up to a point of the history go.

## Main results

* `Outbox.content_push`, `Outbox.length_content_push_le` — the content after a push, and its bound.
* `Outbox.le_newer_of_evicted` — an item that had to go has as many newer ones as fit into the box.
* `Outbox.dropWhile_content` — removing an acknowledged batch from the front.
-/

/-- The items that were put into a box, and how many of them have left it. -/
structure Outbox (α : Type) where
  /-- All items, oldest first. -/
  history : List α
  /-- How many have left. -/
  gone : ℕ
  /-- Only what came in can have left. -/
  gone_le : gone ≤ history.length

namespace Outbox

variable {α : Type} (o : Outbox α)

/-- What is in the box. -/
def content : List α := o.history.drop o.gone

/-- The empty box. -/
def empty : Outbox α := ⟨[], 0, Nat.le_refl 0⟩

/-- An item comes; the oldest one goes if there is no room. -/
def push (cap : ℕ) (x : α) : Outbox α where
  history := o.history ++ [x]
  gone := if cap ≤ o.content.length then o.gone + 1 else o.gone
  gone_le := by
    have hle := o.gone_le
    rw [List.length_append, List.length_singleton]
    split_ifs <;> omega

/-- The first `n` items of the history are gone. -/
def release (n : ℕ) (hn : n ≤ o.history.length) : Outbox α where
  history := o.history
  gone := max o.gone n
  gone_le := Nat.max_le.mpr ⟨o.gone_le, hn⟩

lemma length_content : o.content.length = o.history.length - o.gone := List.length_drop

/-- The content is an end piece of the history. -/
lemma content_suffix : o.content <:+ o.history := List.drop_suffix _ _

/-- **The content after a push**: the item `x` at the end, and the oldest item gone if the box was
full. -/
theorem content_push {cap : ℕ} (hcap : 1 ≤ cap) (x : α) :
    (o.push cap x).content =
      (if cap ≤ o.content.length then o.content.tail else o.content) ++ [x] := by
  have hlen := o.length_content
  have hle := o.gone_le
  rw [content, push]
  dsimp only
  split_ifs with hfull
  · rw [List.drop_append_of_le_length (by omega), content, List.tail_drop]
  · rw [List.drop_append_of_le_length hle, content]

/-- **The box never holds more than `cap` items.** -/
theorem length_content_push_le {cap : ℕ} (hcap : 1 ≤ cap) (h : o.content.length ≤ cap) (x : α) :
    (o.push cap x).content.length ≤ cap := by
  rw [o.content_push hcap, List.length_append, List.length_singleton]
  split_ifs with hfull
  · rw [List.length_tail]
    omega
  · omega

/-- **An item that had to go** has as many newer ones as fit into the box. -/
theorem le_newer_of_evicted {cap : ℕ} (hfull : cap ≤ o.content.length) (x : α) :
    cap ≤ (o.push cap x).history.length - (o.gone + 1) := by
  rw [o.length_content] at hfull
  change cap ≤ (o.history ++ [x]).length - (o.gone + 1)
  rw [List.length_append, List.length_singleton]
  omega

/-- A push adds to the history behind what is there. -/
lemma take_push {b : ℕ} (hb : b ≤ o.history.length) (cap : ℕ) (x : α) :
    (o.push cap x).history.take b = o.history.take b := List.take_append_of_le_length hb

lemma gone_le_push (cap : ℕ) (x : α) : o.gone ≤ (o.push cap x).gone := by
  rw [push]
  dsimp only
  split_ifs <;> omega

/-- What has left the box before a push has left it after that. -/
lemma take_gone_subset_push (cap : ℕ) (x : α) :
    o.history.take o.gone ⊆ (o.push cap x).history.take (o.push cap x).gone := by
  rw [← o.take_push o.gone_le cap x]
  exact List.take_subset_take_left _ (o.gone_le_push cap x)

/-- What has left the box after a push had left it before, or was the oldest in a full box. -/
lemma mem_take_push {cap : ℕ} (hcap : 1 ≤ cap) {x y : α}
    (hy : y ∈ (o.push cap x).history.take (o.push cap x).gone) :
    y ∈ o.history.take o.gone ∨ (cap ≤ o.content.length ∧
      ∃ hlt : o.gone < o.history.length, y = o.history.get ⟨o.gone, hlt⟩) := by
  rw [push] at hy
  dsimp only at hy
  split_ifs at hy with hfull
  · have hlt : o.gone < o.history.length := by
      rw [o.length_content] at hfull
      omega
    rw [List.take_append_of_le_length (by omega), List.take_succ_eq_append_getElem hlt,
      List.mem_append, List.mem_singleton] at hy
    exact hy.imp_right fun hy => ⟨hfull, hlt, hy⟩
  · rw [List.take_append_of_le_length o.gone_le] at hy
    exact .inl hy

/-- What is left of a batch is in the batch. -/
lemma drop_gone_subset {a : ℕ} (ha : a ≤ o.gone) (b : ℕ) :
    (o.history.take b).drop o.gone ⊆ (o.history.take b).drop a := by
  have hsuffix : (o.history.take b).drop o.gone <:+ (o.history.take b).drop a := by
    rw [show o.gone = a + (o.gone - a) by omega, ← List.drop_drop]
    exact List.drop_suffix _ _
  exact hsuffix.subset

/-- What has left the box after a release had left it before, or is in the batch. -/
lemma mem_take_release {a b : ℕ} (ha : a ≤ o.gone) {x : α}
    (hx : x ∈ o.history.take (max o.gone b)) :
    x ∈ o.history.take o.gone ∨ x ∈ (o.history.take b).drop a := by
  rcases Nat.le_total o.gone b with hle | hle
  · rw [Nat.max_eq_right hle, ← List.take_append_drop o.gone (o.history.take b), List.mem_append,
      List.take_take, Nat.min_eq_left hle] at hx
    exact hx.imp_right fun hx => o.drop_gone_subset ha b hx
  · rw [Nat.max_eq_left hle] at hx
    exact .inl hx

/-- **An acknowledged batch is removed from the front.** The batch is what was in the box between
two points of the history; the first of them has been passed since.

**Proof sketch.** If the second point has been passed too, nothing of the batch is left, and the
first item that is left came later. Otherwise the items up to that point are all in the batch, and
the item at that point is not, since no item is there twice. -/
theorem dropWhile_content [DecidableEq α] (hnodup : o.history.Nodup) {a b : ℕ} (ha : a ≤ o.gone)
    (hb : b ≤ o.history.length) :
    o.content.dropWhile (fun x => decide (x ∈ (o.history.take b).drop a)) =
      (o.release b hb).content := by
  -- what comes after the second point is not in the batch
  have hlater : ∀ x ∈ o.history.drop (max o.gone b), x ∉ (o.history.take b).drop a := by
    intro x hx hbatch
    have hdisj := List.disjoint_take_drop hnodup (Nat.le_max_right o.gone b)
    exact hdisj (List.mem_of_mem_drop hbatch) hx
  -- what comes before it, and is still there, is
  have hbefore : ∀ x ∈ (o.history.take b).drop o.gone, x ∈ (o.history.take b).drop a :=
    fun x hx => o.drop_gone_subset ha b hx
  have hsplit : o.content = (o.history.take b).drop o.gone ++ o.history.drop (max o.gone b) := by
    unfold content
    rcases Nat.le_total o.gone b with hle | hle
    · rw [Nat.max_eq_right hle]
      conv_lhs => rw [← List.take_append_drop b o.history]
      rw [List.drop_append_of_le_length (by rw [List.length_take]; omega)]
    · have hnil : (o.history.take b).drop o.gone = [] := by
        apply List.drop_eq_nil_of_le
        rw [List.length_take]
        omega
      rw [Nat.max_eq_left hle, hnil, List.nil_append]
  rw [hsplit, List.dropWhile_append_of_pos (by simpa using hbefore)]
  change _ = o.history.drop (max o.gone b)
  cases hrest : o.history.drop (max o.gone b) with
  | nil => rfl
  | cons x xs =>
    have hx := hlater x (by rw [hrest]; exact List.mem_cons_self)
    rw [List.dropWhile_cons_of_neg (by simpa using hx)]

end Outbox
