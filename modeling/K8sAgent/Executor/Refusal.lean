import K8sAgent.Executor.Outcomes

set_option relaxedAutoImplicit false
set_option autoImplicit false

/-!
# Refused commands

A command that ends refused is meant to have changed nothing. A refusal is the last request of a
run, and every verb but one decides on it before its first write. `apply` decides for each object
when its turn has come, with one expected hash for all of them, so the refusal of a later object
leaves those before it written.

## Main definitions

* `K8sAgent.Executor.RefusedClean` — a refused command changed nothing, in any run.

## Main results

* `K8sAgent.Executor.eq_nil_of_isEnd` — the report of the end is the last request.
* `K8sAgent.Executor.refusedClean_iff` — the commands that are refused cleanly are those that
  cannot meet drift after a write.
-/

namespace K8sAgent.Executor

open Encoding JsonTree Interaction

/-- The report of a refusal. -/
def isRefusal : Op → Bool
  | .report rep => rep.status = statusRefused
  | _ => false

/-- **A refused command changed nothing**: no run that ends in a refusal has a write. -/
def RefusedClean (x : Executor) (cmd : Command) : Prop :=
  ∀ fuel tr ex, Runs (x.handleCommand fuel cmd) tr ex → (∀ e ∈ tr, Lawful e.op e.ans) →
    (∃ e ∈ tr, isRefusal e.op = true) → NoWrite tr

section Clean

variable {x : Executor} {fuel : ℕ} {cmd : Command} {tr tr₁ tr₂ : List Ev} {ex : Exit} {e : Ev}

lemma isRefusal_iff {op : Op} :
    isRefusal op = true ↔ ∃ rep, op = .report rep ∧ rep.status = statusRefused := by
  cases op <;> simp [isRefusal]

/-- A refusal ends the command and is no write. -/
lemma isEnd_of_isRefusal {op : Op} (hop : isRefusal op = true) :
    op.isEnd = true ∧ op.isWrite = false := by
  obtain ⟨rep, rfl, hs⟩ := isRefusal_iff.mp hop
  simp [Op.isEnd, Op.isWrite, isTerminal, hs]

/-- **The report of the end is the last request of a run.** -/
theorem eq_nil_of_isEnd (hrun : Runs (x.handleCommand fuel cmd) tr ex)
    (hok : ∀ e ∈ tr, Lawful e.op e.ans) (htr : tr = tr₁ ++ e :: tr₂) (he : e.op.isEnd = true) :
    tr₂ = [] := by
  cases tr₂ with
  | nil => rfl
  | cons e' tr₂ =>
    have htr' : tr = (tr₁ ++ [e]) ++ e' :: tr₂ := by simp [htr]
    have hfalse := (allowed_of_runs hrun hok htr').isOpen e (by simp)
    simp [he] at hfalse

/-- A run that meets drift after a write. -/
lemma exists_late_refusal (fuel : ℕ) (hlate : x.LateDrift cmd) :
    ∃ tr ex, Runs (x.handleCommand fuel cmd) tr ex ∧ (∀ e ∈ tr, Lawful e.op e.ans) ∧
      (∃ e ∈ tr, isRefusal e.op = true) ∧ Wrote tr := by
  obtain ⟨hverb, hgated, hlen, live, hlive⟩ := hlate
  obtain ⟨o₁, o₂, post, hr⟩ : ∃ o₁ o₂ post, x.reachable cmd = [o₁] ++ o₂ :: post := by
    match x.reachable cmd, hlen with
    | o₁ :: o₂ :: post, _ => exact ⟨o₁, o₂, post, rfl⟩
  refine exists_run fun h => ?_
  rw [handler_apply hverb]
  refine may_apply hr fun h' next _ hwrote => ?_
  refine may_applyObject_refuse (writable_of_mem_reachable (by simp [hr]))
    (fun hg => hlive (hg hgated)) fun h'' rep hh hmem hs => ?_
  obtain ⟨e, he, hw⟩ := hwrote (by simp)
  exact ⟨⟨_, hmem, isRefusal_iff.mpr ⟨rep, rfl, hs⟩⟩, e, hh.subset he, hw⟩

end Clean

/-- **Which commands are refused cleanly.** All of them, but for an `apply` command with two or
more objects to write whose expected hash some live object could fail to have.

**Proof sketch.** A refusal comes after no write, or else after one of an earlier object; and
nothing comes after it. Conversely, let the first object be missing and the second one differ from
what is expected: the first is created, and the second one refused. -/
theorem refusedClean_iff (x : Executor) (cmd : Command) :
    x.RefusedClean cmd ↔ ¬x.LateDrift cmd := by
  constructor
  · intro hclean hlate
    obtain ⟨tr, ex, hrun, hok, href, e, he, hw⟩ := exists_late_refusal 0 hlate
    have hfalse := hclean 0 tr ex hrun hok href e he
    simp [hw] at hfalse
  · rintro hlate fuel tr ex hrun hok ⟨e, he, href⟩
    obtain ⟨tr₁, tr₂, htr⟩ := List.append_of_mem he
    obtain ⟨hend, hnw⟩ := isEnd_of_isRefusal href
    obtain ⟨rep, hop, hs⟩ := isRefusal_iff.mp href
    obtain rfl := eq_nil_of_isEnd hrun hok htr hend
    have hnw₁ := ((allowed_of_runs hrun hok htr).refusal rep hop hs).resolve_right hlate
    rw [htr]
    exact hnw₁.append (noWrite_singleton hnw)

/-! ## Two config maps -/

/-- Two documents, each a config map. -/
def twoConfigMaps : Bytes := utf8 ("apiVersion: v1\nkind: ConfigMap\nmetadata:\n  name: a\n---\n" ++
  "apiVersion: v1\nkind: ConfigMap\nmetadata:\n  name: b\n")

/-- A config map. -/
def configMap (name : String) : Object :=
  .ofList [("apiVersion", .str "v1"), ("kind", .str "ConfigMap"),
    ("metadata", .ofObject (.ofList [("name", .str name)]))]

/-- What is known of the documents. -/
def configMapEnv : Env := .ofTables
  { streams := [(twoConfigMaps,
      [utf8 "apiVersion: v1\nkind: ConfigMap\nmetadata:\n  name: a\n",
        utf8 "apiVersion: v1\nkind: ConfigMap\nmetadata:\n  name: b\n"])]
    documents := [
      (utf8 "apiVersion: v1\nkind: ConfigMap\nmetadata:\n  name: a", configMap "a"),
      (utf8 "apiVersion: v1\nkind: ConfigMap\nmetadata:\n  name: b", configMap "b")] }

/-- A command to apply them that expects a hash no object has. -/
def applyConfigMaps : Command where
  verb := verbApply
  target := { namespace_ := "default" }
  payload := twoConfigMaps
  expectedHash := "stale"

/-- A cluster in which the second config map exists. -/
def secondExists (name : String) : Option Object :=
  if name = "b" then some (configMap "b") else none

/-- The first config map is created, and then the command is refused on the second. -/
theorem created_then_refused : ¬RefusedClean ⟨{}, configMapEnv, true⟩ applyConfigMaps := by
  intro hclean
  have hrun := runs_play (acceptAll secondExists)
    (handleCommand ⟨{}, configMapEnv, true⟩ 0 applyConfigMaps)
  have hnw := hclean 0 _ _ hrun (fun e he => by rw [mem_play he]; exact lawful_acceptAll _ e.op)
    (by decide +kernel)
  revert hnw
  unfold NoWrite
  decide +kernel

end K8sAgent.Executor
