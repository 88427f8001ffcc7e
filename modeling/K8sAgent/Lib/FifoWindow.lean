import Mathlib.Data.List.DropRight
import Mathlib.Data.Finset.Card
import Mathlib.Order.Interval.Finset.Nat

set_option relaxedAutoImplicit false
set_option autoImplicit false

/-!
# First-in first-out windows

A bounded memory of the values that were recorded last: a value is recorded when it is not among
the `cap` most recently recorded ones, and the record is a history that only grows. Such a history
never holds one value twice within `cap` entries of each other, which is what makes the memory
useful against repetition: before a value can be recorded again, `cap` other pairwise distinct
values have been.

## Main definitions

* `FifoWindow.recent` — the last `cap` entries of a history.
* `FifoWindow.record` — the history after a value has been offered.
* `FifoWindow.answers` — for each value offered in turn, whether it was remembered.
* `FifoWindow.Spaced` — equal entries are more than `cap` apart.
* `FifoWindow.remember` — the history of a memory that forgets nothing.
* `FifoWindow.Prompt` — every value that comes back does so while it is in the window.

## Main results

* `FifoWindow.Spaced.append` — a new entry that is not recent keeps the history spaced.
* `FifoWindow.Spaced.exists_between` — between two equal entries of a spaced history there are
  `cap` entries, pairwise distinct and different from them.
* `FifoWindow.recent_append_singleton` — the window after a recording, by the length of the
  window before it.
* `FifoWindow.prompt_of_subset` — a window that is never outgrown forgets nothing.
-/

namespace FifoWindow

variable {α : Type}

/-- The last `cap` entries of a history. -/
def recent (cap : ℕ) (h : List α) : List α := h.rtake cap

/-- Equal entries of the history are more than `cap` apart. -/
def Spaced (cap : ℕ) (h : List α) : Prop :=
  ∀ ⦃i j : ℕ⦄ ⦃x : α⦄, i < j → j ≤ i + cap → h[i]? = some x → h[j]? ≠ some x

/-- An entry is recent when it is among the last `cap` positions. -/
lemma mem_recent {cap : ℕ} {h : List α} {x : α} :
    x ∈ recent cap h ↔ ∃ i, h.length ≤ i + cap ∧ h[i]? = some x := by
  unfold recent
  rw [List.rtake_eq_reverse_take_reverse, List.mem_reverse, List.mem_iff_getElem?]
  constructor
  · rintro ⟨n, hn⟩
    rw [List.getElem?_take] at hn
    split_ifs at hn with hlt
    have hn' : n < h.length := by
      by_contra hge
      rw [List.getElem?_eq_none (by simpa using hge)] at hn
      simp at hn
    rw [List.getElem?_reverse hn'] at hn
    exact ⟨h.length - 1 - n, by omega, hn⟩
  · rintro ⟨i, hi, hx⟩
    have hlt : i < h.length := by
      by_contra hge
      rw [List.getElem?_eq_none (by omega)] at hx
      simp at hx
    refine ⟨h.length - 1 - i, ?_⟩
    rw [List.getElem?_take, if_pos (by omega), List.getElem?_reverse (by omega)]
    rw [show h.length - 1 - (h.length - 1 - i) = i by omega]
    exact hx

/-- The window is full once the history has `cap` entries. -/
lemma length_recent (cap : ℕ) (h : List α) : (recent cap h).length = min cap h.length := by
  simp [recent, List.rtake, List.length_drop]
  omega

/-- The window after one more entry: the new entry joins it, and the oldest one leaves it once
the window is full. -/
theorem recent_append_singleton (cap : ℕ) (hcap : 1 ≤ cap) (h : List α) (x : α) :
    recent cap (h ++ [x]) =
      if (recent cap h).length < cap then recent cap h ++ [x] else (recent cap h).tail ++ [x] := by
  rw [length_recent]
  unfold recent List.rtake
  simp only [List.length_append, List.length_singleton, List.tail_drop]
  split_ifs with hlt
  · rw [show h.length + 1 - cap = 0 by omega, show h.length - cap = 0 by omega]
    simp
  · rw [List.drop_append_of_le_length (by omega),
      show h.length + 1 - cap = h.length - cap + 1 by omega]

/-- A spaced history has a duplicate-free window. -/
lemma Spaced.nodup_recent {cap : ℕ} {h : List α} (hs : Spaced cap h) :
    (recent cap h).Nodup := by
  unfold recent List.rtake
  rw [List.nodup_iff_getElem?_ne_getElem?]
  intro i j hij hj heq
  rw [List.length_drop] at hj
  rw [List.getElem?_drop, List.getElem?_drop,
    List.getElem?_eq_getElem (show h.length - cap + i < h.length by omega)] at heq
  exact hs (show h.length - cap + i < h.length - cap + j by omega) (by omega)
    (List.getElem?_eq_getElem (by omega)) heq.symm

/-- The empty history is spaced. -/
lemma Spaced.nil (cap : ℕ) : Spaced cap ([] : List α) := by
  intro i j x _ _ hx
  simp at hx

/-- A new entry that is not recent keeps the history spaced. -/
theorem Spaced.append {cap : ℕ} {h : List α} {x : α} (hs : Spaced cap h)
    (hx : x ∉ recent cap h) : Spaced cap (h ++ [x]) := by
  intro i j y hij hj hyi hyj
  rcases Nat.lt_trichotomy j h.length with hlt | rfl | hgt
  · rw [List.getElem?_append_left (by omega)] at hyi hyj
    exact hs hij hj hyi hyj
  · -- the new entry is `y`, and the earlier one is within reach of it
    rw [List.getElem?_append_left hij] at hyi
    obtain rfl : x = y := by simpa using hyj
    exact hx (mem_recent.mpr ⟨i, hj, hyi⟩)
  · rw [List.getElem?_eq_none (by simp; omega)] at hyj
    simp at hyj

/-- **Between two equal entries.** In a spaced history the `cap` entries after an entry that
occurs again come before its next occurrence, differ from it and are pairwise distinct.

**Proof sketch.** The two occurrences are more than `cap` apart, so positions `i + 1, …, i + cap`
lie strictly between them. Any two positions among `i, …, i + cap` are at most `cap` apart, so
their entries differ. -/
theorem Spaced.exists_between {cap : ℕ} {h : List α} (hs : Spaced cap h) {i j : ℕ} {x : α}
    (hij : i < j) (hi : h[i]? = some x) (hj : h[j]? = some x) :
    i + cap < j ∧ (∀ k ∈ Finset.Ioc i (i + cap), h[k]? ≠ some x) ∧
      ∀ k ∈ Finset.Ioc i (i + cap), ∀ l ∈ Finset.Ioc i (i + cap), h[k]? = h[l]? → k = l := by
  have hfar : i + cap < j := by
    by_contra hle
    exact hs hij (by omega) hi hj
  have hjlen : j < h.length := by
    by_contra hge
    rw [List.getElem?_eq_none (by omega)] at hj
    simp at hj
  refine ⟨hfar, fun k hk => ?_, fun k hk l hl hkl => ?_⟩
  · rw [Finset.mem_Ioc] at hk
    exact hs hk.1 hk.2 hi
  · rw [Finset.mem_Ioc] at hk hl
    by_contra hne
    have hsome : ∀ n, n ≤ i + cap → h[n]? = some (h[n]?.getD x) := fun n hn => by
      rw [List.getElem?_eq_getElem (show n < h.length by omega)]
      rfl
    rcases Nat.lt_or_gt_of_ne hne with hlt | hgt
    · exact hs hlt (by omega) (hsome k hk.2) (hkl ▸ hsome k hk.2)
    · exact hs hgt (by omega) (hsome l hl.2) (hkl ▸ hsome l hl.2)

/-- A value of the window is in the history. -/
lemma mem_of_mem_recent {cap : ℕ} {h : List α} {x : α} (hx : x ∈ recent cap h) : x ∈ h :=
  List.mem_of_mem_drop hx

section Record

variable [DecidableEq α]

/-- The history after `x` has been offered: unchanged if `x` is remembered. -/
def record (cap : ℕ) (h : List α) (x : α) : List α :=
  if x ∈ recent cap h then h else h ++ [x]

/-- For each value offered in turn, whether it was remembered. -/
def answers (cap : ℕ) (h : List α) : List α → List Bool
  | [] => []
  | x :: xs => decide (x ∈ recent cap h) :: answers cap (record cap h x) xs

/-- A history of recordings holds what it held before and what was offered. -/
lemma mem_of_mem_foldl_record {cap : ℕ} {h xs : List α} {y : α}
    (hy : y ∈ xs.foldl (record cap) h) : y ∈ h ∨ y ∈ xs := by
  induction xs generalizing h with
  | nil => exact .inl hy
  | cons x xs ih =>
    rcases ih hy with hy | hy
    · unfold record at hy
      split_ifs at hy
      · exact .inl hy
      · rcases List.mem_append.mp hy with hy | hy
        · exact .inl hy
        · exact .inr (List.mem_singleton.mp hy ▸ List.mem_cons_self)
    · exact .inr (List.mem_cons_of_mem x hy)

/-- The history after `x` has been offered to a memory that forgets nothing. -/
def remember (h : List α) (x : α) : List α := if x ∈ h then h else h ++ [x]

/-- Of the values offered in turn, those that a memory without a bound would know are still in the
window when they come. -/
def Prompt (cap : ℕ) : List α → List α → Prop
  | _, [] => True
  | h, x :: xs => (x ∈ h → x ∈ recent cap h) ∧ Prompt cap (remember h x) xs

instance Prompt.decidable (cap : ℕ) : ∀ h xs : List α, Decidable (Prompt cap h xs)
  | _, [] => isTrue trivial
  | h, x :: xs => @instDecidableAnd _ _ _ (Prompt.decidable cap (remember h x) xs)

/-- A value that comes back in time is treated as by a memory without a bound. -/
lemma record_eq_remember {cap : ℕ} {h : List α} {x : α} (hx : x ∈ h → x ∈ recent cap h) :
    record cap h x = remember h x := by
  unfold record remember
  by_cases hmem : x ∈ h
  · rw [if_pos hmem, if_pos (hx hmem)]
  · rw [if_neg hmem, if_neg fun hrecent => hmem (mem_of_mem_recent hrecent)]

/-- A window that is never outgrown forgets nothing. -/
theorem prompt_of_subset {cap : ℕ} {u h xs : List α} (hnodup : h.Nodup) (hh : h ⊆ u) (hxs : xs ⊆ u)
    (hcap : u.length ≤ cap) : Prompt cap h xs := by
  induction xs generalizing h with
  | nil => trivial
  | cons x xs ih =>
    have hlen : h.length ≤ cap := (List.subperm_of_subset hnodup hh).length_le.trans hcap
    have hall : recent cap h = h := by
      rw [recent, List.rtake, Nat.sub_eq_zero_of_le hlen, List.drop_zero]
    obtain ⟨hx, hxs⟩ := List.cons_subset.mp hxs
    refine ⟨fun hmem => hall.symm ▸ hmem, ih ?_ ?_ hxs⟩
    · rw [remember]
      split_ifs with hmem
      · exact hnodup
      · rw [← List.concat_eq_append]
        exact hnodup.concat hmem
    · rw [remember]
      split_ifs
      · exact hh
      · exact List.append_subset.mpr ⟨hh, by simpa using hx⟩

end Record

end FifoWindow
