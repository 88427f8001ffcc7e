import Mathlib.Data.List.Induction
import Mathlib.Logic.Function.Basic

set_option relaxedAutoImplicit false
set_option autoImplicit false

/-!
# Replicas

A replica is a table of rows that is kept up to date by writes: each write puts a value at a key or
removes what is there, and the last one wins. Writes come through queues, and some of them are
applied more than once. From time to time the original is copied into the replica, row by row, while
older writes are still queued.

What keeps such a replica right is that, for each key, the newest write on the way carries what the
original holds, and that where no write is on the way the replica holds it already.

## Main definitions

* `Replica.replay` — the rows after writes.
* `Replica.last?` — what the last write at a key leaves there.
* `Replica.Fed` — the replica will be right at a key, once all writes on the way have been applied.
* `Replica.Current` — a copied row does no harm.

## Main results

* `Replica.replay_eq` — the rows after writes are what the last ones leave.
* `Replica.replay_replay` — writes that are still queued may be applied early, any number of times.
* `Replica.Fed.deliver`, `redeliver`, `sync`, `hand`, `change` — what keeps a replica fed.
* `Replica.Fed.rows_eq` — where no write is on the way, the replica is right.
-/

namespace Replica

/-- A write: a key, and what is there afterwards. -/
abbrev Write (K V : Type) : Type := K × Option V

variable {K V ι : Type} [DecidableEq K]

/-- The rows after a write. -/
def apply (rows : K → Option V) (w : Write K V) : K → Option V := Function.update rows w.1 w.2

/-- The rows after writes, one after another. -/
def replay (rows : K → Option V) (ws : List (Write K V)) : K → Option V := ws.foldl apply rows

/-- What the last write at a key leaves there, if there is one. -/
def last? (k : K) (ws : List (Write K V)) : Option (Option V) :=
  (ws.filter fun w => w.1 = k).getLast?.map Prod.snd

section Rows

variable {k : K} {rows : K → Option V} {w : Write K V} {ws front rest : List (Write K V)}

@[simp] lemma last?_nil (k : K) : last? k ([] : List (Write K V)) = none := rfl

/-- The last write to `k` is in `rest`, or else in `front`. -/
lemma last?_append (k : K) (front rest : List (Write K V)) :
    last? k (front ++ rest) = (last? k rest).or (last? k front) := by
  unfold last?
  rw [List.filter_append, List.getLast?_append]
  cases (rest.filter fun w => w.1 = k).getLast? <;> rfl

lemma last?_singleton (k : K) (w : Write K V) :
    last? k [w] = if w.1 = k then some w.2 else none := by
  unfold last?
  split_ifs with h <;> simp [h]

/-- The last write at a key is one of the writes. -/
lemma mem_of_last? {v : Option V} (h : last? k ws = some v) : (k, v) ∈ ws := by
  obtain ⟨w, hw, rfl⟩ := Option.map_eq_some_iff.mp h
  obtain ⟨hmem, hkey⟩ := List.mem_filter.mp (List.mem_of_getLast? hw)
  rw [← of_decide_eq_true hkey]
  exact hmem

lemma replay_append (rows : K → Option V) (front rest : List (Write K V)) :
    replay rows (front ++ rest) = replay (replay rows front) rest := List.foldl_append

/-- **The rows after writes** are what the last ones leave. -/
theorem replay_eq (rows : K → Option V) (ws : List (Write K V)) (k : K) :
    replay rows ws k = (last? k ws).getD (rows k) := by
  induction ws using List.reverseRecOn with
  | nil => rfl
  | append_singleton ws w ih =>
    rw [replay_append, last?_append, last?_singleton]
    change Function.update (replay rows ws) w.1 w.2 k = _
    split_ifs with hk
    · rw [← hk, Function.update_self]
      rfl
    · rw [Function.update_of_ne (Ne.symm hk), ih]
      rfl

/-- **Writes that are still queued may be applied early.** -/
theorem replay_replay (rows : K → Option V) (front rest : List (Write K V)) :
    replay (replay rows front) (front ++ rest) = replay rows (front ++ rest) := by
  funext k
  rw [replay_eq, replay_eq rows (front ++ rest), replay_eq rows front, last?_append]
  cases last? k rest <;> cases last? k front <;> rfl

end Rows

/-! ## Feeding a replica -/

/-- **The replica will be right at a key.** The newest write that is pending for the queue carries
the value that is to be there; where none is pending, that value is there after the queue. -/
structure Fed (goal rows : K → Option V) (queue : List (Write K V)) (pending : ι → List (Write K V))
    (k : K) : Prop where
  /-- The newest pending write is right. -/
  newest : ∀ i v, last? k (pending i) = some v → v = goal k
  /-- Where none is pending, the queue leaves the right row. -/
  settled : (∀ i, last? k (pending i) = none) → replay rows queue k = goal k

/-- A row that is copied does no harm: it is right, or a write at its key is on the way. -/
def Current (goal : K → Option V) (queue : List (Write K V)) (pending : ι → List (Write K V))
    (w : Write K V) : Prop :=
  w.2 = goal w.1 ∨ last? w.1 queue ≠ none ∨ ∃ i, last? w.1 (pending i) ≠ none

section Fed

variable {goal rows : K → Option V} {queue queue' front rest copied : List (Write K V)}
  {pending pending' : ι → List (Write K V)} {k : K} {w : Write K V}

/-- **Where no write is on the way, the replica is right.** -/
theorem Fed.rows_eq (h : Fed goal rows queue pending k) (hqueue : queue = [])
    (hpending : ∀ i, pending i = []) : rows k = goal k := by
  have hrow := h.settled fun i => by rw [hpending i]; rfl
  rw [hqueue] at hrow
  exact hrow

/-- Writes from the front of the queue are applied. -/
theorem Fed.deliver (h : Fed goal rows (front ++ rest) pending k) :
    Fed goal (replay rows front) rest pending k := by
  refine ⟨h.newest, fun hnone => ?_⟩
  rw [← replay_append]
  exact h.settled hnone

/-- Writes from the front of the queue are applied and stay in it. -/
lemma Fed.redeliver (h : Fed goal rows (front ++ rest) pending k) :
    Fed goal (replay rows front) (front ++ rest) pending k := by
  refine ⟨h.newest, fun hnone => ?_⟩
  rw [replay_replay]
  exact h.settled hnone

/-- Copying rows that are current into the replica keeps it fed. -/
lemma Fed.sync (h : Fed goal rows queue pending k)
    (hcopied : ∀ w ∈ copied, Current goal queue pending w) :
    Fed goal (replay rows copied) queue pending k := by
  refine ⟨h.newest, fun hnone => ?_⟩
  have hrow := h.settled hnone
  rw [replay_eq] at hrow ⊢
  cases hq : last? k queue with
  | some v =>
    rw [hq] at hrow
    exact hrow
  | none =>
    rw [hq] at hrow
    rw [Option.getD_none, replay_eq]
    cases hc : last? k copied with
    | none => exact hrow
    | some v =>
      rcases hcopied (k, v) (mem_of_last? hc) with hv | hv | ⟨i, hv⟩
      · exact hv
      · exact absurd hq hv
      · exact absurd (hnone i) hv

variable [DecidableEq ι]

/-- A pending write is put into the queue, behind all others at its key. -/
lemma Fed.hand (h : Fed goal rows queue pending k) {i : ι} (hi : pending i = w :: rest)
    (hqueue : last? k queue' = (last? k [w]).or (last? k queue)) :
    Fed goal rows queue' (Function.update pending i rest) k := by
  have hlast : last? k (pending i) = (last? k rest).or (last? k [w]) := by
    rw [hi, ← List.singleton_append, last?_append]
  refine ⟨fun j v hv => ?_, fun hnone => ?_⟩
  · by_cases hj : j = i
    · rw [hj, Function.update_self] at hv
      refine h.newest i v ?_
      rw [hlast, hv]
      rfl
    · rw [Function.update_of_ne hj] at hv
      exact h.newest j v hv
  · have hrest : last? k rest = none := by simpa using hnone i
    rw [replay_eq, hqueue]
    cases hw : last? k [w] with
    | some v =>
      -- the write handed over was the newest one
      refine h.newest i v ?_
      rw [hlast, hrest, hw]
      rfl
    | none =>
      rw [Option.none_or, ← replay_eq]
      refine h.settled fun j => ?_
      by_cases hj : j = i
      · rw [hj, hlast, hrest, hw]
        rfl
      · have := hnone j
        rwa [Function.update_of_ne hj] at this

/-- What is copied stays current when a pending write is put into the queue. -/
lemma Current.hand {c : Write K V} (h : Current goal queue pending c) {i : ι}
    (hi : pending i = w :: rest)
    (hqueue : last? c.1 queue' = (last? c.1 [w]).or (last? c.1 queue)) :
    Current goal queue' (Function.update pending i rest) c := by
  rcases h with h | h | ⟨j, h⟩
  · exact .inl h
  · refine .inr (.inl fun hnone => h ?_)
    rw [hqueue] at hnone
    exact (Option.or_eq_none_iff.mp hnone).2
  · by_cases hj : j = i
    · rw [hj, hi, ← List.singleton_append, last?_append] at h
      by_cases hrest : last? c.1 rest = none
      · refine .inr (.inl fun hnone => h ?_)
        rw [hqueue] at hnone
        rw [hrest, (Option.or_eq_none_iff.mp hnone).1]
        rfl
      · exact .inr (.inr ⟨i, by rwa [Function.update_self]⟩)
    · exact .inr (.inr ⟨j, by rwa [Function.update_of_ne hj]⟩)

omit [DecidableEq ι]

/-- **The original changes at a key**, and the change is pending behind all others at that key. -/
theorem Fed.change (h : Fed goal rows queue pending k) {k₀ : K} {v : Option V}
    (hother : ∀ i k, k ≠ k₀ → last? k (pending' i) = last? k (pending i))
    (hsome : ∃ i, last? k₀ (pending' i) = some v)
    (hall : ∀ i v', last? k₀ (pending' i) = some v' → v' = v) :
    Fed (Function.update goal k₀ v) rows queue pending' k := by
  by_cases hk : k = k₀
  · subst hk
    refine ⟨fun i v' hv' => ?_, fun hnone => ?_⟩
    · rw [Function.update_self]
      exact hall i v' hv'
    · obtain ⟨i, hi⟩ := hsome
      rw [hnone i] at hi
      cases hi
  · refine ⟨fun i v' hv' => ?_, fun hnone => ?_⟩
    · rw [Function.update_of_ne hk]
      rw [hother i k hk] at hv'
      exact h.newest i v' hv'
    · rw [Function.update_of_ne hk]
      exact h.settled fun i => by rw [← hother i k hk]; exact hnone i

/-- What is copied stays current when the original changes. -/
lemma Current.change {c : Write K V} (h : Current goal queue pending c) {k₀ : K} {v : Option V}
    (hother : ∀ i k, k ≠ k₀ → last? k (pending' i) = last? k (pending i))
    (hsome : ∃ i, last? k₀ (pending' i) = some v) :
    Current (Function.update goal k₀ v) queue pending' c := by
  by_cases hk : c.1 = k₀
  · obtain ⟨i, hi⟩ := hsome
    exact .inr (.inr ⟨i, by rw [hk, hi]; exact Option.some_ne_none v⟩)
  · rcases h with h | h | ⟨i, h⟩
    · exact .inl (by rw [Function.update_of_ne hk, h])
    · exact .inr (.inl h)
    · exact .inr (.inr ⟨i, by rwa [hother i c.1 hk]⟩)

end Fed

end Replica
