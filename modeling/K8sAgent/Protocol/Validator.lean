import K8sAgent.Protocol.Types
import K8sAgent.Protocol.Config
import K8sAgent.Protocol.Env

set_option relaxedAutoImplicit false
set_option autoImplicit false

/-!
# Local policy

`internal/validator/validator.go`: the local safety policy a command is to be checked against. A
refusal is the text of its reason; `none` means that the command may proceed.

## Main definitions

* `K8sAgent.Validator.targetNamespace` — the namespace the policy takes a command to operate in.
* `K8sAgent.Validator.validate` — the policy.

## Main results

* `K8sAgent.Validator.validate_eq_none_iff` — what the policy admits, clause by clause.
-/

namespace K8sAgent.Validator

/-- The verbs that carry a Helm part. -/
def isHelmVerb (verb : String) : Bool :=
  verb = verbHelmInstall || verb = verbHelmUpgrade || verb = verbHelmUninstall

/-- The verbs the policy checks by their target alone. -/
def isTargetVerb (verb : String) : Bool :=
  verb = verbDelete || verb = verbDrainNode || verb = verbUncordonNode || verb = verbCertRotate

/-- The patch types the policy knows. -/
def isPatchType (t : String) : Bool :=
  t = patchStrategic || t = patchMerge || t = patchJSON

/-- A Helm part is complete when it names a release, a namespace and a chart. -/
def helmComplete : Option HelmSpec → Bool
  | none => false
  | some h => h.releaseName ≠ "" && h.namespace_ ≠ "" && h.chartRef ≠ ""

/-- The check of the Helm part. -/
def validateHelm (cmd : Command) : Option String :=
  if helmComplete cmd.helm then none
  else some "helm command requires a complete helm spec (release name, namespace, chart ref)"

/-- The Helm namespace for Helm verbs, the target namespace otherwise. -/
def targetNamespace (cmd : Command) : String :=
  if isHelmVerb cmd.verb then
    match cmd.helm with
    | some h => h.namespace_
    | none => ""
  else cmd.target.namespace_

/-- The checks that depend on the verb. -/
def validateVerb (env : Env) (cmd : Command) : Option String :=
  if cmd.verb = verbApply ∨ cmd.verb = verbPatch then
    if cmd.payload = [] then some (cmd.verb ++ " requires a non-empty payload") else none
  else if cmd.verb = verbClusterUpgrade then
    some "cluster-upgrade is not supported by this agent version"
  else if isTargetVerb cmd.verb then none
  else if isHelmVerb cmd.verb then validateHelm cmd
  else some ("unknown verb " ++ env.quote cmd.verb)

/-- The local policy on a command (`none` stands for a nil command). -/
def validate (env : Env) (cfg : Config) : Option Command → Option String
  | none => some "nil command"
  | some cmd =>
    match validateVerb env cmd with
    | some reason => some reason
    | none =>
      if cmd.verb = verbPatch ∧ ¬isPatchType cmd.patchType then
        some ("unsupported patch type " ++ env.quote cmd.patchType)
      else if cmd.verb = verbDelete ∧ ¬cfg.allowDelete then
        some "delete is disabled by policy (ALLOW_DELETE=false)"
      -- cluster-scoped targets have no namespace and are exempt
      else if targetNamespace cmd ≠ "" ∧ cfg.protectedNamespace (targetNamespace cmd) then
        some ("namespace " ++ env.quote (targetNamespace cmd) ++ " is protected")
      else none

/-- **What the policy admits**: the verb's own checks, a known patch type, deletes only where
they are allowed, and no protected namespace. -/
theorem validate_eq_none_iff {env : Env} {cfg : Config} {cmd : Command} :
    validate env cfg (some cmd) = none ↔
      validateVerb env cmd = none ∧
      (cmd.verb = verbPatch → isPatchType cmd.patchType = true) ∧
      (cmd.verb = verbDelete → cfg.allowDelete = true) ∧
      (targetNamespace cmd = "" ∨ cfg.protectedNamespace (targetNamespace cmd) = false) := by
  cases hv : validateVerb env cmd with
  | some reason => simp [validate, hv]
  | none =>
    simp only [validate, hv]
    split_ifs with h1 h2 h3
    · simp [h1]
    · simp [h2]
    · simp [h3]
    · simp only [not_and, Bool.not_eq_true] at h1 h2 h3
      refine iff_of_true rfl ⟨trivial, fun h => ?_, fun h => ?_, ?_⟩
      · simpa using h1 h
      · simpa using h2 h
      · by_cases hn : targetNamespace cmd = ""
        · exact .inl hn
        · exact .inr (h3 hn)

end K8sAgent.Validator
