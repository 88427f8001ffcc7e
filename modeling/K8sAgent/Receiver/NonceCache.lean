import K8sAgent.Lib.FifoWindow

set_option relaxedAutoImplicit false
set_option autoImplicit false

/-!
# The seen cache

`nonceCache` of `internal/receiver/receiver.go`: a list of values in insertion order next to a map
of the values in it, used once for nonces and once for command IDs. The map's elements point into
the list and are never read, so the map is its set of keys.

## Main definitions

* `K8sAgent.NonceCache` — the two structures and the capacity.
* `K8sAgent.NonceCache.lookup`, `insert`, `seen` — the two steps of `seen` and the whole of it.
* `K8sAgent.NonceCache.Represents` — the cache holds the window of a recorded history.
* `K8sAgent.NonceCache.after`, `recorded` — the cache after a sequence of calls, and the values the
  calls recorded.

## Main results

* `K8sAgent.NonceCache.Represents.seen` — one call answers whether the value is in the window and
  moves the cache to the window of the history after the call.
* `K8sAgent.NonceCache.Represents.lookup` — the lookup alone.
* `K8sAgent.NonceCache.fifo_window` — after any calls, list and map hold the values recorded last.
-/

namespace K8sAgent

open FifoWindow

/-- The cache: values in insertion order, and the set of the map's keys. -/
structure NonceCache where
  /-- Capacity. -/
  cap : ℕ
  /-- The list, oldest value first. -/
  ll : List String
  /-- The keys of the map. -/
  m : Finset String
  deriving DecidableEq

namespace NonceCache

/-- The empty cache. -/
def new (cap : ℕ) : NonceCache := ⟨cap, [], ∅⟩

/-- Whether the map holds the value. -/
def lookup (c : NonceCache) (x : String) : Bool := x ∈ c.m

/-- Append the value to the list and enter it in the map. -/
def pushBack (c : NonceCache) (x : String) : NonceCache :=
  { c with ll := c.ll ++ [x], m := Insert.insert x c.m }

/-- Drop the front of the list from both structures. -/
def evict (c : NonceCache) : NonceCache :=
  match c.ll with
  | front :: rest => { c with ll := rest, m := c.m.erase front }
  | [] => c

/-- Push the value and, past the capacity, evict the front of the list. -/
def insert (c : NonceCache) (x : String) : NonceCache :=
  if (c.pushBack x).ll.length > c.cap then (c.pushBack x).evict else c.pushBack x

/-- Record a value and tell whether it was already present. -/
def seen (c : NonceCache) (x : String) : Bool × NonceCache :=
  if c.lookup x then (true, c) else (false, c.insert x)

/-- The cache holds exactly the window of the history `h`, which is spaced. -/
structure Represents (c : NonceCache) (h : List String) : Prop where
  /-- Some value can be remembered. -/
  cap_pos : 1 ≤ c.cap
  /-- The list is the window. -/
  ll_eq : c.ll = recent c.cap h
  /-- The map has the list's values as keys. -/
  m_eq : c.m = c.ll.toFinset
  /-- No value was recorded twice within the capacity. -/
  spaced : Spaced c.cap h

@[simp] lemma cap_evict (c : NonceCache) : c.evict.cap = c.cap := by
  unfold evict
  split <;> rfl

@[simp] lemma ll_evict (c : NonceCache) : c.evict.ll = c.ll.tail := by
  unfold evict
  split <;> simp_all

@[simp] lemma cap_insert (c : NonceCache) (x : String) : (c.insert x).cap = c.cap := by
  unfold insert
  split_ifs
  · exact cap_evict _
  · rfl

@[simp] lemma cap_seen (c : NonceCache) (x : String) : (c.seen x).2.cap = c.cap := by
  unfold seen
  split_ifs
  · rfl
  · exact cap_insert c x

/-- The empty cache represents the empty history. -/
lemma represents_new {cap : ℕ} (hcap : 1 ≤ cap) : (new cap).Represents [] :=
  ⟨hcap, by simp [new, recent, List.rtake], by simp [new], Spaced.nil cap⟩

namespace Represents

variable {c : NonceCache} {h : List String}

/-- The lookup finds exactly the values of the window. -/
theorem lookup (hc : c.Represents h) (x : String) :
    c.lookup x = true ↔ x ∈ recent c.cap h := by
  simp [NonceCache.lookup, hc.m_eq, hc.ll_eq]

/-- Inserting a value that is not in the window appends it to the history.

**Proof sketch.** While the list is shorter than the capacity, list and map grow by the value.
A full list loses its front; the front is a different value and, the window being duplicate-free,
occurs nowhere else in the list, so erasing it from the map leaves exactly the list's values. -/
lemma insert (hc : c.Represents h) {x : String} (hx : x ∉ recent c.cap h) :
    (c.insert x).Represents (h ++ [x]) := by
  have hcap := hc.cap_pos
  have hlen : (recent c.cap h).length ≤ c.cap := by
    rw [length_recent]
    omega
  have hpush : (c.pushBack x).ll = recent c.cap h ++ [x] := by
    simp [pushBack, hc.ll_eq]
  have hrec := recent_append_singleton c.cap hcap h x
  refine ⟨by simpa using hcap, ?_, ?_, by simpa using hc.spaced.append hx⟩
  · rw [cap_insert, hrec]
    unfold NonceCache.insert
    rw [hpush, List.length_append, List.length_singleton]
    split_ifs with h1 h2 h2
    · omega
    · rw [ll_evict, hpush, List.tail_append_of_ne_nil]
      intro hnil
      rw [hnil, List.length_nil] at h1
      omega
    · exact hpush
    · omega
  · unfold NonceCache.insert
    rw [hpush, List.length_append, List.length_singleton]
    split_ifs with h1
    · have hnd := hc.spaced.nodup_recent
      cases hr : recent c.cap h with
      | nil =>
        rw [hr, List.length_nil] at h1
        omega
      | cons front rest =>
        rw [hr] at hnd hx
        obtain ⟨hfront, -⟩ := List.nodup_cons.mp hnd
        simp only [List.mem_cons, not_or] at hx
        have hll : c.ll = front :: rest := by rw [hc.ll_eq, hr]
        ext y
        simp only [evict, pushBack, hc.m_eq, hll, List.cons_append, Finset.mem_erase,
          Finset.mem_insert, List.mem_toFinset, List.mem_cons, List.mem_append,
          List.not_mem_nil, or_false]
        by_cases hy : y = front
        · subst hy
          simp [hfront, Ne.symm hx.1]
        · tauto
    · ext y
      simp only [pushBack, hc.m_eq, Finset.mem_insert, List.mem_toFinset, List.mem_append,
        List.mem_singleton]
      tauto

/-- **One call of `seen`**: it answers whether the value is in the window, and the cache then
represents the history after the call. -/
theorem seen (hc : c.Represents h) (x : String) :
    (c.seen x).1 = decide (x ∈ recent c.cap h) ∧
      (c.seen x).2.Represents (record c.cap h x) := by
  unfold NonceCache.seen record
  by_cases hx : x ∈ recent c.cap h
  · rw [if_pos ((hc.lookup x).mpr hx), if_pos hx]
    exact ⟨by simp [hx], hc⟩
  · rw [if_neg (fun hl => hx ((hc.lookup x).mp hl)), if_neg hx]
    exact ⟨by simp [hx], hc.insert hx⟩

end Represents

/-! ## Sequences of calls -/

/-- The cache after calls of `seen` with the given values in turn. -/
def after (c : NonceCache) (xs : List String) : NonceCache := xs.foldl (fun c x => (c.seen x).2) c

/-- The values for which the calls answered `false`, in the order of the calls. -/
def recorded (c : NonceCache) : List String → List String
  | [] => []
  | x :: xs => if (c.seen x).1 then (c.seen x).2.recorded xs else x :: (c.seen x).2.recorded xs

/-- A value found in the map leaves the cache as it is. -/
lemma seen_of_hit {c : NonceCache} {x : String} (hx : (c.seen x).1 = true) :
    (c.seen x).2 = c := by
  unfold seen at hx ⊢
  split_ifs at hx ⊢
  rfl

lemma cap_after (c : NonceCache) (xs : List String) : (c.after xs).cap = c.cap := by
  induction xs generalizing c with
  | nil => rfl
  | cons x xs ih => exact (ih _).trans (cap_seen c x)

/-- A run of calls appends to the history the values it answered `false` for.

**Proof sketch.** Induction on the calls with `Represents.seen` as the step: the history grows by
the value exactly when the answer is `false`. -/
lemma Represents.after {c : NonceCache} {h : List String} (hc : c.Represents h)
    (xs : List String) : (c.after xs).Represents (h ++ c.recorded xs) := by
  induction xs generalizing c h with
  | nil => simpa [NonceCache.after, recorded] using hc
  | cons x xs ih =>
    obtain ⟨hanswer, hnext⟩ := hc.seen x
    have hrest := ih hnext
    show ((c.seen x).2.after xs).Represents _
    unfold recorded
    by_cases hx : x ∈ recent c.cap h
    · rw [if_pos (hanswer.trans (decide_eq_true hx))]
      rwa [record, if_pos hx] at hrest
    · have hmiss : (c.seen x).1 = false := hanswer.trans (decide_eq_false hx)
      rw [if_neg (by rw [hmiss]; exact Bool.false_ne_true)]
      rwa [record, if_neg hx, List.append_assoc] at hrest

/-- **The cache is a first-in first-out window.** After any sequence of calls on a new cache, the
list holds the last `cap` of the values the calls answered `false` for, in that order, without
repetition; the map holds the same values; the next call answers `true` exactly for these values,
and then changes nothing.

**Proof sketch.** The new cache represents the empty history, so by `Represents.after` the cache
represents the recorded values, and each part is a field of `Represents` or a property of the
window of a spaced history. -/
theorem fifo_window {cap : ℕ} (hcap : 1 ≤ cap) (xs : List String) :
    ((new cap).after xs).ll = ((new cap).recorded xs).rtake cap ∧
    ((new cap).after xs).m = ((new cap).after xs).ll.toFinset ∧
    ((new cap).after xs).ll.Nodup ∧
    ((new cap).after xs).ll.length ≤ cap ∧
    ∀ x, ((((new cap).after xs).seen x).1 = true ↔ x ∈ ((new cap).recorded xs).rtake cap) ∧
      ((((new cap).after xs).seen x).1 = true →
        (((new cap).after xs).seen x).2 = (new cap).after xs) := by
  have hrep : ((new cap).after xs).Represents ((new cap).recorded xs) :=
    (represents_new hcap).after xs
  have hc : ((new cap).after xs).cap = cap := cap_after _ xs
  have hll : ((new cap).after xs).ll = recent cap ((new cap).recorded xs) := by
    rw [hrep.ll_eq, hc]
  refine ⟨hll, hrep.m_eq, ?_, ?_, fun x => ⟨?_, seen_of_hit⟩⟩
  · rw [hrep.ll_eq]
    exact hrep.spaced.nodup_recent
  · rw [hll, length_recent]
    exact Nat.min_le_left cap _
  · rw [(hrep.seen x).1, decide_eq_true_eq, hc]
    exact Iff.rfl

/-- Capacity two: `a` is hit, evicted by `b` and `c`, and recorded again. -/
theorem fifo_window_reinserted :
    (new 2).recorded ["a", "b", "a", "c", "a"] = ["a", "b", "c", "a"] ∧
      ((new 2).after ["a", "b", "a", "c", "a"]).ll =
        ((new 2).recorded ["a", "b", "a", "c", "a"]).rtake 2 :=
  ⟨by decide, (fifo_window (by decide) ["a", "b", "a", "c", "a"]).1⟩

end NonceCache

end K8sAgent
