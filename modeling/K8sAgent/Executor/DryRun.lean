import K8sAgent.Executor.Outcomes

set_option relaxedAutoImplicit false
set_option autoImplicit false

/-!
# Dry runs before writes

Where the configuration asks for dry runs, the verbs that write through the API server or Helm make
each write only after its dry run, which was accepted, and nothing in between; and a dry run that
is rejected ends the attempts of the command. The patch of the hash annotation after a `patch` is
the one write that is not tried.

## Main definitions

* `K8sAgent.Executor.triesFirst` — the verbs whose writes have dry runs.

## Main results

* `K8sAgent.Executor.dryRun_discipline` — writes follow their dry runs, and none follows a rejected
  one.
-/

namespace K8sAgent.Executor

open Interaction

/-- The verbs whose writes have dry runs. -/
def triesFirst (verb : String) : Bool :=
  verb = verbApply || verb = verbPatch || verb = verbDelete || verb = verbCertRotate ||
    verb = verbHelmInstall || verb = verbHelmUpgrade

/-- A verb with `triesFirst` makes no write that has no dry run. -/
lemma not_direct_of_triesFirst {cmd : Command} (hverb : triesFirst cmd.verb = true) (op : Op) :
    ¬Direct cmd op := by
  rintro ⟨-, hv | hv | hv⟩
  all_goals
    rw [hv] at hverb
    revert hverb
    decide

/-- **Dry runs precede writes.** Where dry runs are asked for, every write of the verbs that have
them, but for the patch that records the new hash, comes after its dry run: the same call on the
same object with the same body, accepted, with no other attempt in between. After a dry run that
was rejected the command attempts nothing more.

**Proof sketch.** Both are part of how every command is conducted. The first is what holds of each
write at the events before it; for the second, an attempt after a rejected dry run would have that
dry run among the events before it. -/
theorem dryRun_discipline (x : Executor) (fuel : ℕ) (cmd : Command) (tr : List Ev) (ex : Exit)
    (hfirst : x.cfg.dryRunFirst = true) (hverb : triesFirst cmd.verb = true)
    (hrun : Runs (x.handleCommand fuel cmd) tr ex) :
    (∀ tr₁ e tr₂, tr = tr₁ ++ e :: tr₂ → e.op.isWrite = true →
      Tried tr₁ e.op ∨ x.Restamps cmd tr₁ e.op) ∧
    ∀ tr₁ d tr₂, tr = tr₁ ++ d :: tr₂ → d.op.isDryRun = true → accepted d.op d.ans = false →
      ∀ e ∈ tr₂, e.op.isAttempt = false := by
  obtain ⟨hconduct, -⟩ := conduct_of_runs hrun
  constructor
  · intro tr₁ e tr₂ htr hw
    rcases (hconduct tr₁ e tr₂ htr).tried hfirst hw with ht | hs | hd
    · exact .inl ht
    · exact .inr hs
    · exact absurd hd (not_direct_of_triesFirst hverb e.op)
  · intro tr₁ d tr₂ htr hdry hrej e he
    by_contra hatt
    rw [Bool.not_eq_false] at hatt
    obtain ⟨mid, rest, rfl⟩ := List.mem_iff_append.mp he
    have hsplit : tr = (tr₁ ++ d :: mid) ++ e :: rest := by simp [htr]
    have hacc := (hconduct _ e rest hsplit).unrejected hatt d (by simp) hdry
    rw [hrej] at hacc
    cases hacc

/-- A command to annotate a deployment. -/
def annotateDeployment : Command where
  verb := verbPatch
  target := ⟨"apps", "v1", "deployments", "default", "web"⟩
  patchType := patchMerge
  payload := Encoding.utf8
    "\x7b\"metadata\":\x7b\"annotations\":\x7b\"team\":\"infra\"\x7d\x7d\x7d"

/-- An executor with the default configuration. -/
def defaultExecutor : Executor := ⟨{}, .ofTables {}, true⟩

/-- The requests of the patch where every write is accepted. -/
def annotateRun : List Ev :=
  play (acceptAll fun _ => some .empty) (defaultExecutor.handleCommand 0 annotateDeployment)

/-- The run `annotateRun` of a patch has two writes: the patch itself, which was tried, and the
patch that records the new hash. -/
theorem dryRun_discipline_patch :
    annotateRun.countP (·.op.isWrite) = 2 ∧ annotateRun.countP (·.op.isDryRun) = 1 ∧
      (∀ tr₁ e tr₂, annotateRun = tr₁ ++ e :: tr₂ → e.op.isWrite = true →
        Tried tr₁ e.op ∨ defaultExecutor.Restamps annotateDeployment tr₁ e.op) ∧
      ∀ tr₁ d tr₂, annotateRun = tr₁ ++ d :: tr₂ → d.op.isDryRun = true →
        accepted d.op d.ans = false → ∀ e ∈ tr₂, e.op.isAttempt = false :=
  ⟨by decide +kernel, by decide +kernel,
    dryRun_discipline defaultExecutor 0 annotateDeployment annotateRun _ rfl rfl (runs_play _ _)⟩

end K8sAgent.Executor
