import K8sAgent.Lib.Retry

set_option relaxedAutoImplicit false
set_option autoImplicit false

/-!
# The pace of retries

Two loops of the agent retry with growing delays: the poll loop of `internal/receiver/receiver.go`
and the WebSocket client of `internal/wsclient/wsclient.go`. Both have a `backoff` of their own, and
log a rejected token once in a row of failures.

## Main definitions

* `K8sAgent.Pace` — the delays of a loop, with the record of its tries.
* `K8sAgent.Retried.Paced` — how long a retry sleeps and what is logged of it.
* `K8sAgent.Pace.Kept` — all retries are paced, and the delays follow from the tries.
-/

namespace K8sAgent

open Retry

/-- The least delay, in nanoseconds. -/
def backoffMin : ℕ := 1000000000
/-- The greatest delay, in nanoseconds. -/
def backoffMax : ℕ := 30 * 1000000000

/-- A delay with its jitter: at most a fifth of it, up or down. -/
def Jittered (d : ℕ) (slept : ℤ) : Prop := 4 * (d : ℤ) ≤ 5 * slept ∧ 5 * slept ≤ 6 * (d : ℤ)

instance (d : ℕ) (slept : ℤ) : Decidable (Jittered d slept) := inferInstanceAs (Decidable (_ ∧ _))

/-- What is logged of a failure. -/
inductive Log : Type where
  /-- The token was rejected. -/
  | alarm
  /-- Anything else. -/
  | warning
  deriving DecidableEq

/-- What a loop logs of a failure: a rejected token once in a row of failures, anything else each
time. -/
def logOf (bo : Backoff) (auth : Bool) : Option Log :=
  if auth then (if bo.alarmed then none else some .alarm) else some .warning

/-- A retry. -/
structure Retried where
  /-- What came of the tries before. -/
  before : List Outcome
  /-- Whether the token was rejected. -/
  auth : Bool
  /-- What was logged. -/
  log : Option Log
  /-- How long the loop sleeps, in nanoseconds. -/
  slept : ℤ

/-- **A retry at its pace**: after the `k`-th failure in a row the loop sleeps
`min (2 ^ (k - 1)) 30` seconds, up to a fifth more or less; a rejected token is an alarm the first
time in such a row, and then nothing is logged of it; any other failure is a warning each time. -/
def Retried.Paced (x : Retried) : Prop :=
  Jittered (min (backoffMin * 2 ^ streak x.before) backoffMax) x.slept ∧
    x.log = if x.auth then (if sounded x.before then none else some .alarm) else some .warning

/-- The delays of a loop, with the record of its tries. -/
structure Pace where
  /-- The delays. -/
  bo : Backoff := {}
  /-- Record: what came of the tries. -/
  outcomes : List Outcome := []
  /-- Record: the retries. -/
  retries : List Retried := []

namespace Pace

/-- A try has succeeded. -/
def succeed (p : Pace) : Pace := { p with bo := {}, outcomes := p.outcomes ++ [.success] }

/-- A try has failed: the loop logs it and goes to sleep. -/
def retry (p : Pace) (auth : Bool) (slept : ℤ) : Pace where
  bo := p.bo.after backoffMin backoffMax (.failure auth)
  outcomes := p.outcomes ++ [.failure auth]
  retries := p.retries ++ [⟨p.outcomes, auth, logOf p.bo auth, slept⟩]

/-- **The loop keeps its pace.** -/
structure Kept (p : Pace) : Prop where
  /-- The delays follow from the tries. -/
  bo : p.bo = fold backoffMin backoffMax p.outcomes
  /-- Each retry has slept and logged as the tries before it say. -/
  paced : ∀ x ∈ p.retries, x.Paced

/-- After a success, the delays begin anew and no retry is added. -/
lemma Kept.succeed {p : Pace} (h : p.Kept) : p.succeed.Kept :=
  ⟨by rw [Pace.succeed, fold_append]; rfl, h.paced⟩

/-- A retry keeps the pace, if the sleep is the delay with its jitter. -/
lemma Kept.retry {p : Pace} (h : p.Kept) (auth : Bool) {slept : ℤ}
    (hslept : Jittered (p.bo.delay backoffMin) slept) : (p.retry auth slept).Kept := by
  have hdelay : p.bo.delay backoffMin = min (backoffMin * 2 ^ streak p.outcomes) backoffMax := by
    rw [h.bo]
    exact delay_fold p.outcomes (by decide) (by decide)
  have halarmed : p.bo.alarmed = sounded p.outcomes := by
    rw [h.bo]
    exact alarmed_fold p.outcomes
  refine ⟨?_, fun x hx => ?_⟩
  · rw [Pace.retry, fold_append, ← h.bo]
  · rcases List.mem_append.mp hx with hx | hx
    · exact h.paced x hx
    · rw [List.mem_singleton.mp hx, Retried.Paced, ← hdelay, ← halarmed]
      exact ⟨hslept, rfl⟩

end Pace

end K8sAgent
