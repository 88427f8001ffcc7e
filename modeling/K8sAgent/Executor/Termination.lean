import K8sAgent.Executor.Drain

set_option relaxedAutoImplicit false
set_option autoImplicit false

/-!
# Every command ends

A drain is the only handler with a loop that the payload does not bound: a pod that cannot be
evicted is tried again, without a limit on the number of attempts. What ends the loop is the clock.
Between two attempts the handler waits two seconds, so that the time since the last success grows
with each of them and reaches the stall timeout. This module turns that into a bound, and with it
every command ends.

## Main definitions

* `K8sAgent.Executor.retryInterval` — the pause between two attempts.
* `K8sAgent.Executor.Timed` — a run under a clock that does not go back and runs while the handler
  waits.
* `K8sAgent.Executor.listedPods` — the pods a run has listed.

## Main results

* `K8sAgent.Executor.runs_evictPod` — the attempts on one pod under such a clock.
* `K8sAgent.Executor.command_ends` — every command returns, after a bounded number of evictions.
-/

namespace K8sAgent.Executor

open Encoding JsonTree Interaction

/-! ## The clock of a run -/

/-- The pause between two attempts to evict a pod, in nanoseconds. -/
def retryInterval : ℤ := 2 * 10 ^ 9

/-- A lower bound of the time after an event, from one before it: a reading is the time, and a wait
that is not interrupted takes two seconds. -/
def tick (t : ℤ) : Ev → ℤ
  | ⟨.now, a⟩ => a
  | ⟨.wait, none⟩ => t + retryInterval
  | _ => t

/-- The events are those of a run from the time `t` on, under a clock that does not go back. -/
def Timed : ℤ → List Ev → Prop
  | _, [] => True
  | t, e :: tr => t ≤ tick t e ∧ Timed (tick t e) tr

instance Timed.decidable : ∀ (t : ℤ) (tr : List Ev), Decidable (Timed t tr)
  | _, [] => isTrue trivial
  | t, e :: tr => @instDecidableAnd _ _ _ (Timed.decidable (tick t e) tr)

/-- An eviction. -/
def isEviction (e : Ev) : Bool :=
  match e.op with
  | .evict _ _ => true
  | _ => false

/-- The pods of an answer. -/
def podsOf : Ev → List Pod
  | ⟨.listPods _, .ok pods⟩ => pods
  | _ => []

/-- The pods a run has listed. -/
def listedPods (tr : List Ev) : List Pod := tr.flatMap podsOf

/-! ## Ends -/

section Runs

variable {x : Executor} {cmd : Command} {tr : List Ev} {ex : Exit} {n : ℕ}

/-- `fail` evicts nothing and returns. -/
lemma runs_fail {msg err : String} (h : Runs (fail cmd msg err) tr ex) :
    ex = .returned ∧ tr.countP isEviction = 0 := by
  obtain ⟨_, _, rfl, _, _, rfl, rfl, rfl⟩ := h
  exact ⟨rfl, rfl⟩

/-- `succeed` evicts nothing and returns. -/
lemma runs_succeed {msg : String} (h : Runs (succeed cmd msg) tr ex) :
    ex = .returned ∧ tr.countP isEviction = 0 := by
  obtain ⟨_, _, rfl, _, _, rfl, rfl, rfl⟩ := h
  exact ⟨rfl, rfl⟩

/-! ## One pod -/

/-- **The attempts on one pod**, where `k` attempts have been made: at least `k` pauses have passed
since the last success, so the drain stalls before there are more than `n + 1` attempts, where `n`
pauses make up the stall timeout. Either the drain ends here or it goes on with `next`.

**Proof sketch.** By induction on the bound on the retries. A rejected attempt that does not stall
has been made before `n` pauses have passed, and the wait after it adds one. -/
theorem runs_evictPod {p : Pod} {lastSuccess t : ℤ} {evicted total k fuel : ℕ} {next : Cmd Exit}
    (hstall : x.cfg.drainStallTimeout ≤ n * retryInterval)
    (h : Runs (x.evictPod cmd p lastSuccess evicted total next fuel) tr ex) (ht : Timed t tr)
    (hlast : lastSuccess + k * retryInterval ≤ t) (hk : k ≤ n) (hfuel : n < k + fuel) :
    ∃ tr₁ tr₂, tr = tr₁ ++ tr₂ ∧ k + tr₁.countP isEviction ≤ n + 1 ∧
      ((∃ t', Timed t' tr₂ ∧ Runs next tr₂ ex) ∨ tr₂ = [] ∧ ex = .returned) := by
  induction fuel generalizing tr t k with
  | zero => omega
  | succ fuel ih =>
    obtain ⟨ans, tr, rfl, h⟩ := h
    obtain ⟨-, ht⟩ := ht
    cases ans with
    | none => exact ⟨[_], tr, rfl, Nat.succ_le_succ hk, .inl ⟨t, ht, h⟩⟩
    | some err =>
      cases err with
      | notFound msg => exact ⟨[_], tr, rfl, Nat.succ_le_succ hk, .inl ⟨t, ht, h⟩⟩
      | other msg =>
        obtain ⟨(now : ℤ), tr, rfl, h⟩ := h
        obtain ⟨hnow, ht⟩ := ht
        change t ≤ now at hnow
        dsimp only [Prog.bind] at h
        split_ifs at h with hlong
        · obtain ⟨_, _, rfl, rfl, rfl⟩ := h
          exact ⟨_, [], (List.append_nil _).symm, Nat.succ_le_succ hk, .inr ⟨rfl, rfl⟩⟩
        · obtain ⟨ans, tr, rfl, h⟩ := h
          obtain ⟨-, ht⟩ := ht
          cases ans with
          | some err =>
            obtain ⟨rfl, hcount⟩ := runs_fail h
            refine ⟨_, [], (List.append_nil _).symm, ?_, .inr ⟨rfl, rfl⟩⟩
            simp only [List.countP_cons, hcount]
            simpa [isEviction] using hk
          | none =>
            have hshort : now < lastSuccess + x.cfg.drainStallTimeout :=
              Int.lt_add_of_sub_left_lt (not_le.mp hlong)
            have hlt : k < n := by
              unfold retryInterval at hstall hlast
              omega
            have hpast : lastSuccess + (k + 1 : ℕ) * retryInterval ≤ now + retryInterval := by
              unfold retryInterval at hlast ⊢
              omega
            obtain ⟨tr₁, tr₂, rfl, hcount, hend⟩ := ih h ht hpast hlt (by omega)
            refine ⟨_ :: _ :: _ :: tr₁, tr₂, rfl, ?_, hend⟩
            simp [List.countP_cons, isEviction]
            omega

/-! ## All pods -/

/-- **The loop over the pods** returns, with at most `n + 1` evictions for each pod that can be
evicted, if the stall timeout is at most `n` retry intervals. -/
theorem runs_evictAll {fuel total : ℕ} {pods : List Pod} {lastSuccess t : ℤ} {evicted : ℕ}
    (hstall : x.cfg.drainStallTimeout ≤ n * retryInterval) (hfuel : n < fuel)
    (h : Runs (x.evictAll cmd fuel total pods lastSuccess evicted) tr ex) (ht : Timed t tr)
    (hlast : lastSuccess ≤ t) :
    ex = .returned ∧
      tr.countP isEviction ≤ pods.countP (x.evictable cmd.target.name) * (n + 1) := by
  induction pods generalizing tr lastSuccess t evicted with
  | nil =>
    obtain ⟨_, tr, rfl, h⟩ := h
    obtain ⟨rfl, hcount⟩ := runs_succeed h
    exact ⟨rfl, by simp [hcount, isEviction]⟩
  | cons p pods ih =>
    unfold evictAll at h
    rw [List.countP_cons]
    by_cases hev : x.evictable cmd.target.name p = true
    · rw [if_pos hev] at h ⊢
      obtain ⟨tr₁, tr₂, rfl, hcount, hend⟩ :=
        runs_evictPod (k := 0) hstall h ht (by simpa using hlast) (Nat.zero_le n) (by omega)
      rw [List.countP_append, add_one_mul]
      rcases hend with ⟨t', ht', hnext⟩ | ⟨rfl, rfl⟩
      · obtain ⟨now, _, rfl, _, _, rfl, _, tr, rfl, hrest⟩ := hnext
        obtain ⟨rfl, hcount'⟩ := ih hrest ht'.2.2.2 le_rfl
        refine ⟨rfl, ?_⟩
        simp [isEviction]
        omega
      · exact ⟨rfl, by simp; omega⟩
    · rw [if_neg hev] at h ⊢
      exact ih h ht hlast

/-- **A drain**: it returns, and it tries each pod that it lists and may evict at most `n + 1`
times. -/
theorem runs_drainNode {fuel : ℕ} {t : ℤ}
    (hstall : x.cfg.drainStallTimeout ≤ n * retryInterval) (hfuel : n < fuel)
    (h : Runs (x.drainNode fuel cmd) tr ex) (ht : Timed t tr) :
    ex = .returned ∧
      tr.countP isEviction ≤ (listedPods tr).countP (x.evictable cmd.target.name) * (n + 1) := by
  unfold drainNode at h
  split_ifs at h with hname
  · obtain ⟨rfl, hcount⟩ := runs_fail h
    exact ⟨rfl, by omega⟩
  obtain ⟨node, tr, rfl, h⟩ := h
  cases node with
  | some e =>
    obtain ⟨rfl, hcount⟩ := runs_fail h
    exact ⟨rfl, by simp [hcount, isEviction]⟩
  | none =>
    obtain ⟨cordoned, tr, rfl, h⟩ := h
    cases cordoned with
    | some e =>
      obtain ⟨rfl, hcount⟩ := runs_fail h
      exact ⟨rfl, by simp [hcount, isEviction]⟩
    | none =>
      obtain ⟨pods, tr, rfl, h⟩ := h
      cases pods with
      | error e =>
        obtain ⟨rfl, hcount⟩ := runs_fail h
        exact ⟨rfl, by simp [hcount, isEviction]⟩
      | ok pods =>
        dsimp only [Prog.bind] at h
        split_ifs at h with htotal
        · obtain ⟨_, tr, rfl, h⟩ := h
          obtain ⟨rfl, hcount⟩ := runs_succeed h
          exact ⟨rfl, by simp [hcount, isEviction]⟩
        · obtain ⟨now, tr, rfl, h⟩ := h
          obtain ⟨rfl, hcount⟩ := runs_evictAll hstall hfuel h ht.2.2.2.2 le_rfl
          refine ⟨rfl, (le_of_eq ?_).trans (hcount.trans (Nat.mul_le_mul_right (n + 1) ?_))⟩
          · simp [isEviction]
          · simp [listedPods, podsOf]

end Runs

/-! ## All commands -/

/-- **Every command ends.** Let the clock of a run not go back, and run for two seconds while the
handler waits for as long; let `n` such waits make up the stall timeout, and let a Helm command
have its Helm part. Then the command returns, whatever the surroundings answer: it has reported its
end as its last event, or is a drain that reports that it has stalled. A drain has made at most
`n + 1` attempts for each pod that it listed and may evict.

**Proof sketch.** What an end looks like is part of what holds of every command
(`handleCommand_behaves`), which also leaves a drain as the only command that can run out of
retries. It does not by `runs_drainNode`. -/
theorem command_ends (x : Executor) {fuel n : ℕ} {cmd : Command} {tr : List Ev} {ex : Exit} {t : ℤ}
    (hhelm : Validator.isHelmVerb cmd.verb = true → cmd.helm ≠ none)
    (hstall : x.cfg.drainStallTimeout ≤ n * retryInterval) (hfuel : n < fuel)
    (hrun : Runs (x.handleCommand fuel cmd) tr ex) (ht : Timed t tr) :
    ex = .returned ∧ Ended cmd tr .returned ∧
      (cmd.verb = verbDrainNode →
        tr.countP isEviction ≤ (listedPods tr).countP (x.evictable cmd.target.name) * (n + 1)) := by
  have hend : Ended cmd tr ex := by
    have hbehaves := (wp_runs (handleCommand_behaves x fuel cmd) hrun fun _ _ => trivial).2
    rwa [List.nil_append] at hbehaves
  have hdrain : cmd.verb = verbDrainNode → ex = .returned ∧
      tr.countP isEviction ≤ (listedPods tr).countP (x.evictable cmd.target.name) * (n + 1) := by
    intro hverb
    obtain ⟨_, tr, rfl, h⟩ := hrun
    rw [handler_drainNode hverb] at h
    obtain ⟨hex, hcount⟩ := runs_drainNode hstall hfuel h ht.2
    exact ⟨hex, by simpa [isEviction, listedPods, podsOf] using hcount⟩
  have hex : ex = .returned := by
    cases ex with
    | returned => rfl
    | nilDeref => exact absurd hend.2 (hhelm hend.1)
    | outOfFuel => exact (hdrain hend).1
  exact ⟨hex, hex ▸ hend, fun hverb => (hdrain hverb).2⟩

/-- A cluster whose clock runs by a second for each request, with pods that cannot be evicted. -/
def stubbornAnswers (i : ℕ) : ∀ op, Ans op
  | .now => (i * 10 ^ 9 : ℤ)
  | .listPods _ => .ok workerPods
  | .evict _ _ => some (.other "disruption budget")
  | op => acceptAll (fun _ => none) op

/-- An executor that waits for four seconds. -/
def impatientExecutor : Executor := ⟨{ drainStallTimeout := 4 * 10 ^ 9 }, .ofTables {}, true⟩

/-- A drain that tries the first pod again. -/
def stalledDrain : List Ev :=
  playFrom stubbornAnswers 0 (impatientExecutor.handleCommand 3 drainWorker)

/-- The drain stalls after two attempts, of six that it may make. -/
theorem command_ends_stalled :
    stalledDrain.countP isEviction = 2 ∧
      (listedPods stalledDrain).countP (impatientExecutor.evictable "worker") * (2 + 1) = 6 ∧
      Ended drainWorker stalledDrain .returned := by
  have hrun := runs_playFrom stubbornAnswers 0 (impatientExecutor.handleCommand 3 drainWorker)
  have hends := command_ends impatientExecutor (by decide) (by decide) (Nat.lt_succ_self 2) hrun
    (t := 0) (by decide +kernel)
  exact ⟨by decide +kernel, by decide +kernel, hends.2.1⟩

end K8sAgent.Executor
