import K8sAgent.Executor.Handle

set_option relaxedAutoImplicit false
set_option autoImplicit false

/-!
# What a handler may ask for

The specification of the requests the handlers make: nothing is asked after the end of the command
has been reported, every write is of the kind the verb admits and comes after the checks of the
source, and a refusal comes after no write, unless `apply` has more than one object to write.

## Main definitions

* `K8sAgent.Executor.manifest`, `reachable` — the objects of an `apply` command, and those before
  the first that cannot be written.
* `K8sAgent.Executor.GateOpen` — the drift policy lets a command proceed on a live object.
* `K8sAgent.Executor.WriteOK`, `RefusalOK`, `Allowed` — the specification.

## Main results

* `K8sAgent.Executor.checkDrift_of_open`, `checkDrift_of_closed` — the two ways the drift check can
  go.
-/

namespace K8sAgent.Executor

open Encoding JsonTree Interaction

/-! ## The specification -/

/-- The end of the command has not been reported. -/
def Open (h : List Ev) : Prop := ∀ e ∈ h, e.op.isEnd = false

/-- Nothing has been written. -/
def NoWrite (h : List Ev) : Prop := ∀ e ∈ h, e.op.isWrite = false

/-- The objects of an `apply` command, with names and namespaces filled in. -/
def manifest (x : Executor) (cmd : Command) : List Object :=
  match decodeManifest x.env cmd.payload with
  | .ok objs => objs.map (prepare cmd)
  | .error _ => []

/-- The resource of the object can be found, by discovery or by the target. -/
def resolvable (x : Executor) (cmd : Command) (obj : Object) : Bool :=
  (x.hasMapper && (groupVersionKind obj).kind ≠ "") ||
    (cmd.target.resource ≠ "" && cmd.target.version ≠ "")

/-- The resource of the object can be found, and the object has a name. -/
def writable (x : Executor) (cmd : Command) (obj : Object) : Bool :=
  x.resolvable cmd obj && getName obj ≠ ""

/-- The objects before the first that cannot be written. -/
def reachable (x : Executor) (cmd : Command) : List Object :=
  (x.manifest cmd).takeWhile (x.writable cmd)

/-- The command expects a hash, and the policy does not let it overwrite drift. -/
def Gated (x : Executor) (cmd : Command) : Prop :=
  cmd.expectedHash ≠ "" ∧ x.cfg.driftPolicy ≠ driftOverwrite ∧
    ¬(x.cfg.driftPolicy = driftOverwriteWithApproval ∧ cmd.override = true)

instance (x : Executor) (cmd : Command) : Decidable (x.Gated cmd) :=
  inferInstanceAs (Decidable (_ ∧ _ ∧ _))

/-- The drift policy lets the command proceed on the live object. -/
def GateOpen (x : Executor) (cmd : Command) (live : Object) : Prop :=
  x.Gated cmd → Drift.hashObject x.env live = cmd.expectedHash

/-- The only object read so far is the target, and the policy lets the command proceed on it. -/
def TargetChecked (x : Executor) (cmd : Command) (h : List Ev) : Prop :=
  ∃ live, x.GateOpen cmd live ∧
    h.filter (·.op.isGet) = [⟨.get (targetInterface cmd) cmd.target.name, .ok live⟩]

/-- The Helm part is there and its values can be read. -/
def HelmReady (x : Executor) (cmd : Command) : Prop :=
  ∃ spec vals, cmd.helm = some spec ∧ parseValues x.env spec = .ok vals

/-- When a request that changes the cluster may be made. -/
def WriteOK (x : Executor) (cmd : Command) (h : List Ev) : Op → Prop
  | .create ri _ false =>
    (cmd.verb = verbApply ∧ ∃ obj ∈ x.reachable cmd,
      ri.namespace_ = "" ∨ ri.namespace_ = getNamespace obj) ∨
    (cmd.verb = verbCertRotate ∧ cmd.target.name ≠ "" ∧
      ri.namespace_ = cmd.target.namespace_)
  | .update ri body false =>
    cmd.verb = verbApply ∧ (∃ obj ∈ x.reachable cmd,
      ri.namespace_ = "" ∨ ri.namespace_ = getNamespace obj) ∧
    ∃ live, x.GateOpen cmd live ∧ (⟨.get ri (getName body), .ok live⟩ : Ev) ∈ h ∧
      getResourceVersion body = getResourceVersion live
  | .patch ri name _ _ false =>
    cmd.verb = verbPatch ∧ (patchTypeOf cmd.patchType).isSome ∧ cmd.target.name ≠ "" ∧
      ri = targetInterface cmd ∧ name = cmd.target.name ∧ (NoWrite h → x.TargetChecked cmd h)
  | .delete ri name false =>
    cmd.verb = verbDelete ∧ cmd.target.name ≠ "" ∧ ri = targetInterface cmd ∧
      name = cmd.target.name ∧ NoWrite h ∧ x.TargetChecked cmd h
  | .patchNode _ _ =>
    (cmd.verb = verbDrainNode ∨ cmd.verb = verbUncordonNode) ∧ cmd.target.name ≠ ""
  | .evict ns _ =>
    cmd.verb = verbDrainNode ∧ cmd.target.name ≠ "" ∧ x.cfg.protectedNamespace ns = false
  | .install _ _ _ _ false => cmd.verb = verbHelmInstall ∧ x.HelmReady cmd
  | .upgrade _ _ _ _ false => cmd.verb = verbHelmUpgrade ∧ x.HelmReady cmd
  | .uninstall _ _ => cmd.verb = verbHelmUninstall ∧ cmd.helm.isSome
  | _ => True

/-- An `apply` command that can meet drift after a write: it has more than one object to write, and
some state of an object is drift. -/
def LateDrift (x : Executor) (cmd : Command) : Prop :=
  cmd.verb = verbApply ∧ x.Gated cmd ∧ 2 ≤ (x.reachable cmd).length ∧
    ∃ live, Drift.hashObject x.env live ≠ cmd.expectedHash

/-- When a refusal may be reported. -/
def RefusalOK (x : Executor) (cmd : Command) (h : List Ev) : Prop := NoWrite h ∨ x.LateDrift cmd

/-- When a request may be made. -/
structure Allowed (x : Executor) (cmd : Command) (h : List Ev) (op : Op) : Prop where
  /-- The end of the command has not been reported. -/
  isOpen : Open h
  /-- A write is admitted. -/
  write : x.WriteOK cmd h op
  /-- A refusal is admitted. -/
  refusal : ∀ rep, op = .report rep → rep.status = statusRefused → x.RefusalOK cmd h

/-- The program makes allowed requests only. -/
abbrev Safe (x : Executor) (cmd : Command) (p : Cmd Exit) (h : List Ev) : Prop :=
  wp Lawful (x.Allowed cmd) p h fun _ _ => True

/-! ## Histories -/

/-- A request that neither writes nor reads an object nor reports the end. -/
def Quiet (op : Op) : Prop := op.isEnd = false ∧ op.isWrite = false ∧ op.isGet = false

lemma NoWrite.append {h t : List Ev} (hh : NoWrite h) (ht : NoWrite t) : NoWrite (h ++ t) :=
  fun e he => (List.mem_append.mp he).elim (hh e) (ht e)

/-- Quiet requests `t` and one more, `e`, are quiet. -/
lemma quiet_append {t : List Ev} {e : Ev} (ht : ∀ e ∈ t, Quiet e.op) (he : Quiet e.op) :
    ∀ e' ∈ t ++ [e], Quiet e'.op := by
  intro e' he'
  rcases List.mem_append.mp he' with he' | he'
  · exact ht e' he'
  · rwa [List.mem_singleton.mp he']

lemma noWrite_singleton {e : Ev} (he : e.op.isWrite = false) : NoWrite [e] := by
  intro e' he'
  rwa [List.mem_singleton.mp he']

section Allowed

variable {x : Executor} {cmd : Command} {h : List Ev} {op : Op}

/-- A request that changes nothing is admitted as a write. -/
lemma writeOK_of_not_isWrite (hop : op.isWrite = false) : x.WriteOK cmd h op := by
  cases op with
  | create _ _ dryRun | update _ _ dryRun | delete _ _ dryRun =>
    cases dryRun with
    | true => trivial
    | false => cases hop
  | patch _ _ _ _ dryRun | install _ _ _ _ dryRun | upgrade _ _ _ _ dryRun =>
    cases dryRun with
    | true => trivial
    | false => cases hop
  | patchNode _ _ | evict _ _ | uninstall _ _ => cases hop
  | _ => trivial

/-- Nothing but a terminal report is a refusal. -/
lemma not_refused_of_not_isEnd (hop : op.isEnd = false) {rep : Report} (heq : op = .report rep) :
    rep.status ≠ statusRefused := by
  rintro hs
  subst heq
  simp [Op.isEnd, isTerminal, hs] at hop

/-- A write that is admitted may be made while the end has not been reported. -/
lemma allowed_of_writeOK (hopen : Open h) (hop : op.isEnd = false) (hw : x.WriteOK cmd h op) :
    x.Allowed cmd h op :=
  ⟨hopen, hw, fun _ heq hs => absurd hs (not_refused_of_not_isEnd hop heq)⟩

/-- A request that changes nothing and does not report the end may be made any time before. -/
lemma allowed_of_read (hopen : Open h) (hop : op.isEnd = false) (hw : op.isWrite = false) :
    x.Allowed cmd h op := allowed_of_writeOK hopen hop (writeOK_of_not_isWrite hw)

/-- An end may be reported once, a refusal where it is admitted. -/
lemma allowed_report (hopen : Open h) {rep : Report}
    (hr : rep.status = statusRefused → x.RefusalOK cmd h) : x.Allowed cmd h (.report rep) where
  isOpen := hopen
  write := trivial
  refusal rep' heq hs := by
    cases heq
    exact hr hs

lemma RefusalOK.append {t : List Ev} (hr : x.RefusalOK cmd h) (ht : NoWrite t) :
    x.RefusalOK cmd (h ++ t) := hr.imp_left fun hn => hn.append ht

/-! ## The drift check -/

/-- The drift check passes where the policy lets the command proceed. -/
theorem checkDrift_of_open {live : Object} (hg : x.GateOpen cmd live) :
    x.checkDrift cmd live = .done true := by
  unfold checkDrift
  by_cases he : cmd.expectedHash = ""
  · simp [he]
  · cases hc : Drift.check x.env live cmd.expectedHash with
    | none => simp
    | some diff =>
      have hne : Drift.hashObject x.env live ≠ cmd.expectedHash := fun heq => by
        rw [Drift.check_eq_none.mpr heq] at hc
        cases hc
      have hgate : ¬x.Gated cmd := fun hgate => hne (hg hgate)
      by_cases ho : x.cfg.driftPolicy = driftOverwrite
      · simp [ho]
      · obtain ⟨ha, hov⟩ : x.cfg.driftPolicy = driftOverwriteWithApproval ∧
            cmd.override = true := by
          by_contra hno
          exact hgate ⟨he, ho, hno⟩
        simp [ha, hov]

/-- Where the gate is closed, `checkDrift` is a refusal. -/
theorem checkDrift_of_closed {live : Object} (hg : ¬x.GateOpen cmd live) :
    ∃ msg diff, x.checkDrift cmd live = checkDrift.refuseDrift cmd msg diff := by
  rw [GateOpen, Classical.not_imp] at hg
  obtain ⟨⟨he, ho, hov⟩, hne⟩ := hg
  unfold checkDrift
  cases hc : Drift.check x.env live cmd.expectedHash with
  | none => exact absurd (Drift.check_eq_none.mp hc) hne
  | some diff =>
    rw [if_neg he]
    simp only [if_neg ho]
    by_cases ha : x.cfg.driftPolicy = driftOverwriteWithApproval
    · have hfalse : cmd.override = false := by
        simpa [ha] using hov
      rw [if_pos ha, hfalse]
      exact ⟨_, _, rfl⟩
    · rw [if_neg ha]
      exact ⟨_, _, rfl⟩

end Allowed

end K8sAgent.Executor
