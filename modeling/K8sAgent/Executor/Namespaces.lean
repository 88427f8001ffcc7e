import K8sAgent.Protocol.Validator
import K8sAgent.Executor.Refusal

set_option relaxedAutoImplicit false
set_option autoImplicit false

/-!
# Protected namespaces

Which namespaces a command that local policy admits can write in. The policy reads the namespace of
the command's target. So do `patch`, `delete` and `cert-rotate`, and `drain-node` checks every pod
by itself; `apply` takes the namespace of each object from the payload, and from the target only
where the payload has none.

## Main definitions

* `K8sAgent.Executor.writtenNamespace` — the namespace a request writes in.
* `K8sAgent.Executor.SparesProtected` — a command writes in no protected namespace, in any run.

## Main results

* `K8sAgent.Executor.sparesProtected_iff` — an admitted command spares the protected namespaces
  exactly when it is not an `apply` command or no object it can get to lies in one of them.
-/

namespace K8sAgent.Executor

open Encoding JsonTree Interaction

/-- The namespace a request creates, changes, removes or evicts an object in; none for a request
on a cluster-scoped object. -/
def writtenNamespace : Op → Option String
  | .create ri _ false | .update ri _ false | .patch ri _ _ _ false | .delete ri _ false =>
    if ri.namespace_ = "" then none else some ri.namespace_
  | .evict ns _ => some ns
  | _ => none

/-- **The command writes in no protected namespace**, in any run. -/
def SparesProtected (x : Executor) (cmd : Command) : Prop :=
  ∀ fuel tr ex, Runs (x.handleCommand fuel cmd) tr ex → (∀ e ∈ tr, Lawful e.op e.ans) →
    ∀ e ∈ tr, ∀ ns, writtenNamespace e.op = some ns → x.cfg.protectedNamespace ns = false

section Spares

variable {x : Executor} {cmd : Command} {h : List Ev}

/-- A request that has such a namespace is a write. -/
lemma isWrite_of_writtenNamespace {op : Op} {ns : String} (hns : writtenNamespace op = some ns) :
    op.isWrite = true := by
  cases op with
  | create ri obj dryRun | update ri obj dryRun | patch ri name pt data dryRun
  | delete ri name dryRun =>
    cases dryRun with
    | true => cases hns
    | false => rfl
  | evict ns' name => rfl
  | _ => cases hns

/-- An endpoint has a namespace only if it is not empty. -/
lemma endpoint_eq_some {ri : ResourceInterface} {ns : String}
    (hns : (if ri.namespace_ = "" then none else some ri.namespace_) = some ns) :
    ri.namespace_ = ns ∧ ns ≠ "" := by
  split_ifs at hns with hempty
  cases hns
  exact ⟨rfl, hempty⟩

/-- An admitted command has no protected target, unless it is a Helm command. -/
lemma target_unprotected (hpolicy : Validator.validate x.env x.cfg (some cmd) = none)
    (hhelm : Validator.isHelmVerb cmd.verb = false) (hne : cmd.target.namespace_ ≠ "") :
    x.cfg.protectedNamespace cmd.target.namespace_ = false := by
  obtain ⟨-, -, -, hns⟩ := Validator.validate_eq_none_iff.mp hpolicy
  rw [Validator.targetNamespace, hhelm] at hns
  exact hns.resolve_left hne

/-- **An admitted write spares the protected namespaces**, where the objects of the payload do. -/
theorem unprotected_of_writeOK {op : Op} {ns : String}
    (hpolicy : Validator.validate x.env x.cfg (some cmd) = none)
    (hobjs : cmd.verb = verbApply → ∀ obj ∈ x.reachable cmd,
      getNamespace obj = "" ∨ x.cfg.protectedNamespace (getNamespace obj) = false)
    (hok : x.WriteOK cmd h op) (hns : writtenNamespace op = some ns) :
    x.cfg.protectedNamespace ns = false := by
  -- the namespace of an object of the payload
  have hobj : cmd.verb = verbApply → ∀ {ri : ResourceInterface}, (∃ obj ∈ x.reachable cmd,
      ri.namespace_ = "" ∨ ri.namespace_ = getNamespace obj) → ri.namespace_ = ns → ns ≠ "" →
      x.cfg.protectedNamespace ns = false := by
    rintro hverb ri ⟨obj, hmem, hri⟩ rfl hne
    rcases hri with hri | hri
    · exact absurd hri hne
    · rw [hri] at hne ⊢
      exact (hobjs hverb obj hmem).resolve_left hne
  cases Op.writes_of_isWrite (isWrite_of_writtenNamespace hns) with
  | create ri obj =>
    obtain ⟨hri, hne⟩ := endpoint_eq_some hns
    rcases hok with ⟨hverb, hmem⟩ | ⟨hverb, -, htarget⟩
    · exact hobj hverb hmem hri hne
    · rw [htarget] at hri
      subst hri
      exact target_unprotected hpolicy (by rw [hverb]; decide) hne
  | update ri obj =>
    obtain ⟨hri, hne⟩ := endpoint_eq_some hns
    exact hobj hok.1 hok.2.1 hri hne
  | patch ri name pt data =>
    obtain ⟨hri, hne⟩ := endpoint_eq_some hns
    obtain ⟨hverb, -, -, rfl, -⟩ := hok
    subst hri
    exact target_unprotected hpolicy (by rw [hverb]; decide) hne
  | delete ri name =>
    obtain ⟨hri, hne⟩ := endpoint_eq_some hns
    obtain ⟨hverb, -, rfl, -⟩ := hok
    subst hri
    exact target_unprotected hpolicy (by rw [hverb]; decide) hne
  | evict ns' name =>
    cases hns
    exact hok.2.2
  | _ => cases hns

/-- A run that creates an object of the payload in its own namespace. -/
lemma exists_create_in (fuel : ℕ) (hverb : cmd.verb = verbApply) {obj : Object}
    (hobj : obj ∈ x.reachable cmd) (hne : getNamespace obj ≠ "") :
    ∃ tr ex, Runs (x.handleCommand fuel cmd) tr ex ∧ (∀ e ∈ tr, Lawful e.op e.ans) ∧
      ∃ e ∈ tr, writtenNamespace e.op = some (getNamespace obj) := by
  obtain ⟨pre, post, hr⟩ := List.append_of_mem hobj
  refine exists_run fun h => ?_
  rw [handler_apply hverb]
  refine may_apply hr fun h' next _ _ => ?_
  refine may_applyObject_create (writable_of_mem_reachable hobj) fun h'' ri body _ hmem hri => ?_
  refine may_of_mem _ ⟨_, hmem, ?_⟩
  simp [writtenNamespace, hri, hne]

end Spares

/-- **When an admitted command spares the protected namespaces.** Always, but for an `apply` command
that can get to an object of its payload whose own namespace is protected.

**Proof sketch.** A write of `apply` goes to the namespace of a reachable object, one of `patch`,
`delete` or `cert-rotate` to the namespace the policy has checked, and an eviction to that of a pod
the drain has checked. Conversely, `apply` can be let past the objects before a reachable one, by
creating them, and then creates that one in its own namespace. -/
theorem sparesProtected_iff (x : Executor) (cmd : Command)
    (hpolicy : Validator.validate x.env x.cfg (some cmd) = none) :
    x.SparesProtected cmd ↔ (cmd.verb = verbApply → ∀ obj ∈ x.reachable cmd,
      getNamespace obj = "" ∨ x.cfg.protectedNamespace (getNamespace obj) = false) := by
  constructor
  · intro hspares hverb obj hobj
    by_cases hne : getNamespace obj = ""
    · exact .inl hne
    · obtain ⟨tr, ex, hrun, hok, e, he, hns⟩ := exists_create_in 0 hverb hobj hne
      exact .inr (hspares 0 tr ex hrun hok e he _ hns)
  · intro hobjs fuel tr ex hrun hok e he ns hns
    obtain ⟨tr₁, tr₂, htr⟩ := List.append_of_mem he
    exact unprotected_of_writeOK hpolicy hobjs (allowed_of_runs hrun hok htr).write hns

/-- The policy admits the two config maps, and both go to the namespace of the target. -/
theorem applyConfigMaps_sparesProtected :
    Validator.validate configMapEnv {} (some applyConfigMaps) = none ∧
      SparesProtected ⟨{}, configMapEnv, true⟩ applyConfigMaps :=
  ⟨by decide +kernel, (sparesProtected_iff ⟨{}, configMapEnv, true⟩ applyConfigMaps
    (by decide +kernel)).mpr fun _ => by decide +kernel⟩

/-! ## A config map in a protected namespace -/

/-- A document that names its own namespace. -/
def foreignDocument : Bytes :=
  utf8 "apiVersion: v1\nkind: ConfigMap\nmetadata:\n  name: a\n  namespace: kube-system"

/-- What is known of the document. -/
def foreignEnv : Env := .ofTables
  { streams := [(foreignDocument, [foreignDocument])]
    documents := [(foreignDocument, .ofList [("apiVersion", .str "v1"), ("kind", .str "ConfigMap"),
      ("metadata", .ofObject (.ofList [("name", .str "a"), ("namespace", .str "kube-system")]))])] }

/-- A command to apply the document, with no target. -/
def applyForeign : Command where
  verb := verbApply
  payload := foreignDocument

/-- The policy admits the command, and the config map is created in a protected namespace. -/
theorem protected_namespace_written :
    Validator.validate foreignEnv {} (some applyForeign) = none ∧
      ¬SparesProtected ⟨{}, foreignEnv, true⟩ applyForeign := by
  refine ⟨by decide +kernel, fun hspares => ?_⟩
  have hrun := runs_play (acceptAll fun _ => none)
    (handleCommand ⟨{}, foreignEnv, true⟩ 0 applyForeign)
  have hall := hspares 0 _ _ hrun fun e he => by rw [mem_play he]; exact lawful_acceptAll _ e.op
  have hmem : ∃ e ∈ play (acceptAll fun _ => none) (handleCommand ⟨{}, foreignEnv, true⟩ 0
      applyForeign), writtenNamespace e.op = some "kube-system" := by decide +kernel
  obtain ⟨e, he, hns⟩ := hmem
  have hfalse := hall e he _ hns
  revert hfalse
  decide

end K8sAgent.Executor
