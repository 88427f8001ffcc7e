import Mathlib.Algebra.Order.Ring.Nat
import Mathlib.Data.List.Induction

set_option relaxedAutoImplicit false
set_option autoImplicit false

/-!
# Retrying with growing delays

A loop that tries something again and again waits after a failure, twice as long each time up to a
bound, and begins anew after a success. Failures of a kind that calls for help raise an alarm, once
in a row of failures.

## Main definitions

* `Retry.Outcome` — a success, or a failure with or without cause for alarm.
* `Retry.Backoff` — the state of the loop.
* `Retry.streak`, `Retry.sounded` — the failures since the last success, and whether one of them was
  cause for alarm.

## Main results

* `Retry.delay_fold` — the delay is a function of the number of failures since the last success.
* `Retry.alarmed_fold` — an alarm has been raised exactly if there was cause since then.
-/

namespace Retry

/-- What comes of a try. -/
inductive Outcome : Type where
  /-- The attempt succeeds. -/
  | success
  /-- The attempt fails. -/
  | failure (alarming : Bool)
  deriving DecidableEq, Repr

/-- The state of a loop that retries. -/
structure Backoff where
  /-- The delay after the next failure; zero stands for the least. -/
  d : ℕ := 0
  /-- An alarm has been raised. -/
  alarmed : Bool := false
  deriving DecidableEq, Repr

section Bounds

variable (least most : ℕ)

/-- The delay after the next failure. -/
def Backoff.delay (b : Backoff) : ℕ := if b.d < least then least else b.d

/-- The state after a failure. -/
def Backoff.next (b : Backoff) : Backoff :=
  { b with d := if most < b.delay least * 2 then most else b.delay least * 2 }

/-- The state after a try. -/
def Backoff.after (b : Backoff) : Outcome → Backoff
  | .success => {}
  | .failure alarming => { b.next least most with alarmed := b.alarmed || alarming }

end Bounds

/-- The number of failures since the last success. -/
def streak (os : List Outcome) : ℕ :=
  os.foldl (fun n o => match o with
    | .success => 0
    | .failure _ => n + 1) 0

/-- One of the failures since the last success was cause for alarm. -/
def sounded (os : List Outcome) : Bool :=
  os.foldl (fun b o => match o with
    | .success => false
    | .failure alarming => b || alarming) false

section Lemmas

variable {least most : ℕ} (os : List Outcome)

@[simp] lemma streak_success : streak (os ++ [.success]) = 0 := by
  simp [streak]

@[simp] lemma streak_failure (alarming : Bool) :
    streak (os ++ [.failure alarming]) = streak os + 1 := by
  simp [streak]

@[simp] lemma sounded_success : sounded (os ++ [.success]) = false := by
  simp [sounded]

@[simp] lemma sounded_failure (alarming : Bool) :
    sounded (os ++ [.failure alarming]) = (sounded os || alarming) := by
  simp [sounded]

/-- The state after a sequence of tries. -/
def fold (least most : ℕ) (os : List Outcome) : Backoff := os.foldl (Backoff.after least most) {}

lemma fold_append (o : Outcome) :
    fold least most (os ++ [o]) = (fold least most os).after least most o := by
  simp [fold]

/-- The state carries the delay after a number of failures. -/
def Backoff.Grown (least most : ℕ) (b : Backoff) (n : ℕ) : Prop :=
  b.d = 0 ∧ n = 0 ∨ b.d = min (least * 2 ^ n) most

lemma Backoff.Grown.delay_eq {b : Backoff} {n : ℕ} (h : b.Grown least most n) (hpos : 0 < least)
    (hle : least ≤ most) : b.delay least = min (least * 2 ^ n) most := by
  have hge : least ≤ least * 2 ^ n := Nat.le_mul_of_pos_right _ (Nat.two_pow_pos n)
  rcases h with ⟨hzero, rfl⟩ | heq
  · rw [Backoff.delay, hzero, if_pos hpos]
    omega
  · rw [Backoff.delay, heq, if_neg (by omega)]

lemma grown_fold (hpos : 0 < least) (hle : least ≤ most) :
    (fold least most os).Grown least most (streak os) := by
  induction os using List.reverseRecOn with
  | nil => exact .inl ⟨rfl, rfl⟩
  | append_singleton os o ih =>
    rw [fold_append]
    cases o with
    | success => exact .inl ⟨rfl, streak_success os⟩
    | failure alarming =>
      refine .inr ?_
      rw [streak_failure, pow_succ, ← mul_assoc]
      simp only [Backoff.after, Backoff.next, ih.delay_eq hpos hle]
      split_ifs <;> omega

/-- **The delay is a function of the number of failures since the last success.** -/
theorem delay_fold (hpos : 0 < least) (hle : least ≤ most) :
    (fold least most os).delay least = min (least * 2 ^ streak os) most :=
  (grown_fold os hpos hle).delay_eq hpos hle

/-- **An alarm has been raised exactly if there was cause since the last success.** -/
theorem alarmed_fold : (fold least most os).alarmed = sounded os := by
  induction os using List.reverseRecOn with
  | nil => rfl
  | append_singleton os o ih =>
    rw [fold_append]
    cases o with
    | success => rw [sounded_success]; rfl
    | failure alarming => rw [sounded_failure, ← ih]; rfl

end Lemmas

end Retry
