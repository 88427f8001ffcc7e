import K8sAgent.Executor.Apply

set_option relaxedAutoImplicit false
set_option autoImplicit false

/-!
# The other verbs

The remaining verbs of `internal/executor/executor.go` and `internal/executor/helm.go`, and the
dispatch on the verb. Evictions that fail are retried without a bound in the source; here a bound
on the retries for one pod is a parameter, and running out of it is an outcome of its own.

## Main definitions

* `K8sAgent.Executor.patch`, `delete`, `drainNode`, `uncordonNode`, `certRotate` — the verbs on
  cluster objects.
* `K8sAgent.Executor.helmInstall`, `helmUpgrade`, `helmUninstall` — the Helm verbs.
* `K8sAgent.Executor.handleCommand` — the dispatch.
-/

namespace K8sAgent.Executor

open Encoding JsonTree Interaction

/-! ## Patch and delete -/

/-- The patch type a command names. -/
def patchTypeOf (t : String) : Option PatchType :=
  if t = patchStrategic then some .strategicMerge
  else if t = patchMerge then some .merge
  else if t = patchJSON then some .json
  else none

/-- The text that stands for the target in messages. -/
def targetID (cmd : Command) : String :=
  cmd.target.resource ++ " " ++ cmd.target.namespace_ ++ "/" ++ cmd.target.name

/-- The patch that records a hash in the annotations. -/
def stampPatch (env : Env) (hash : String) : Bytes :=
  env.marshal (.ofObject (.ofList [("metadata", .ofObject (.ofList [("annotations",
    .ofObject (.ofList [(Drift.hashAnnotation, .str hash)]))]))]))

/-- Record the hash of the new state; a failure is only logged. -/
def restamp (x : Executor) (cmd : Command) (next : Cmd Exit) : Cmd Exit := do
  match ← liveGet (targetInterface cmd) cmd.target.name with
  | .ok (some live) =>
    let ann := (getAnnotations (Drift.stamp x.env live)).getD .empty
    let _ ← call (.patch (targetInterface cmd) cmd.target.name .merge
      (stampPatch x.env (getString ann [Drift.hashAnnotation])) false)
    next
  | _ => next

/-- The `patch` verb. -/
def patch (x : Executor) (cmd : Command) : Cmd Exit :=
  match patchTypeOf cmd.patchType with
  | none => refuse cmd ("unsupported patch type " ++ x.env.quote cmd.patchType)
  | some pt => do
    match ← liveGet (targetInterface cmd) cmd.target.name with
    | .error e => fail cmd "cannot fetch live object" e
    | .ok none => fail cmd "target not found" (targetID cmd ++ " does not exist")
    | .ok (some live) =>
      if ← x.checkDrift cmd live then
        x.dryRunThenApply cmd
          (fun dryRun => do
            return (← call (.patch (targetInterface cmd) cmd.target.name pt cmd.payload
              dryRun)).map ApiError.text)
          "dry-run patch failed" ("dry-run patch of " ++ targetID cmd ++ " validated")
          ("patch " ++ cmd.target.name) "patch failed"
          (x.restamp cmd (succeed cmd ("patched " ++ targetID cmd)))
      else return .returned

/-- An error other than that the object does not exist. -/
def ignoreNotFound : Option ApiError → Option String
  | some (.other msg) => some msg
  | _ => none

/-- The `delete` verb. -/
def delete (x : Executor) (cmd : Command) : Cmd Exit := do
  match ← liveGet (targetInterface cmd) cmd.target.name with
  | .error e => fail cmd "cannot fetch live object" e
  | .ok none => succeed cmd (targetID cmd ++ " already absent")
  | .ok (some live) =>
    if ← x.checkDrift cmd live then
      x.dryRunThenApply cmd
        (fun dryRun => do
          return ignoreNotFound (← call (.delete (targetInterface cmd) cmd.target.name dryRun)))
        "dry-run delete failed" ("dry-run delete of " ++ targetID cmd ++ " validated")
        ("delete " ++ cmd.target.name) "delete failed"
        (succeed cmd ("deleted " ++ targetID cmd))
    else return .returned

/-! ## Nodes -/

/-- A pod the kubelet mirrors from a manifest file. -/
def isMirrorPod (p : Pod) : Bool := p.annotations.any (·.1 = "kubernetes.io/config.mirror")

/-- A pod a daemon set owns. -/
def isDaemonSetPod (p : Pod) : Bool :=
  p.ownerReferences.any fun ref => ref.kind = "DaemonSet" && ref.apiVersion = "apps/v1"

/-- The pods a drain evicts. -/
def evictable (x : Executor) (node : String) (p : Pod) : Bool :=
  !(p.nodeName ≠ node || isMirrorPod p || isDaemonSetPod p ||
    x.cfg.protectedNamespace p.namespace_)

/-- Evict one pod, retrying every two seconds until the drain counts as stalled. -/
def evictPod (x : Executor) (cmd : Command) (p : Pod) (lastSuccess : ℤ) (evicted total : ℕ)
    (next : Cmd Exit) : ℕ → Cmd Exit
  | 0 => return .outOfFuel
  | fuel + 1 => do
    match ← call (.evict p.namespace_ p.name) with
    | none => next
    | some (.notFound _) => next
    | some (.other msg) =>
      let now ← call .now
      if now - lastSuccess ≥ x.cfg.drainStallTimeout then
        -- paused, not failed: no terminal report
        call (.report
          { status := statusProgress
            message := "drain stalled, waiting for human: cannot evict " ++ p.namespace_ ++ "/" ++
              p.name ++ ": " ++ msg
            progress := (evicted * 100 / total : ℕ) })
        return .returned
      else
        match ← call .wait with
        | some err => fail cmd "drain cancelled" err
        | none => evictPod x cmd p lastSuccess evicted total next fuel

/-- The pods of a node one after another. -/
def evictAll (x : Executor) (cmd : Command) (fuel total : ℕ) : List Pod → ℤ → ℕ → Cmd Exit
  | [], _, evicted => do
    call (.clearDrainProgress cmd.target.name)
    succeed cmd s!"node {cmd.target.name} drained, {evicted} pods evicted"
  | p :: ps, lastSuccess, evicted =>
    if x.evictable cmd.target.name p then
      x.evictPod cmd p lastSuccess evicted total (do
        let now ← call .now
        call (.setDrainProgress cmd.target.name ((evicted + 1) * 100 / total))
        call (.report
          { status := statusProgress
            message := s!"evicted {p.namespace_}/{p.name} ({evicted + 1}/{total})"
            progress := ((evicted + 1) * 100 / total : ℕ) })
        evictAll x cmd fuel total ps now (evicted + 1)) fuel
    else evictAll x cmd fuel total ps lastSuccess evicted

/-- The `drain-node` verb. -/
def drainNode (x : Executor) (fuel : ℕ) (cmd : Command) : Cmd Exit :=
  if cmd.target.name = "" then fail cmd "drain-node requires a node name" "empty target name"
  else do
    match ← call (.getNode cmd.target.name) with
    | some e => fail cmd "cannot get node" e.text
    | none =>
      match ← call (.patchNode cmd.target.name
          (utf8 "\x7b\"spec\":\x7b\"unschedulable\":true\x7d\x7d")) with
      | some e => fail cmd "cannot cordon node" e.text
      | none =>
        match ← call (.listPods ("spec.nodeName=" ++ cmd.target.name)) with
        | .error e => fail cmd "cannot list pods" e.text
        | .ok pods =>
          let total := pods.countP (x.evictable cmd.target.name)
          if total = 0 then
            call (.clearDrainProgress cmd.target.name)
            succeed cmd s!"node {cmd.target.name} drained (no evictable pods)"
          else
            let now ← call .now
            x.evictAll cmd fuel total pods now 0

/-- The `uncordon-node` verb. -/
def uncordonNode (cmd : Command) : Cmd Exit :=
  if cmd.target.name = "" then fail cmd "uncordon-node requires a node name" "empty target name"
  else do
    match ← call (.getNode cmd.target.name) with
    | some e => fail cmd "cannot get node" e.text
    | none =>
      match ← call (.patchNode cmd.target.name
          (utf8 "\x7b\"spec\":\x7b\"unschedulable\":false\x7d\x7d")) with
      | some e => fail cmd "cannot uncordon node" e.text
      | none => succeed cmd s!"node {cmd.target.name} uncordoned"

/-! ## Certificates -/

/-- The resource type of certificates. -/
def certificates : GroupVersionResource := ⟨"cert-manager.io", "v1", "certificates"⟩
/-- The resource type of certificate requests. -/
def certificateRequests : GroupVersionResource := ⟨"cert-manager.io", "v1", "certificaterequests"⟩

/-- The usages a request asks for: those of the certificate, or the usual two. -/
def usagesOf (cert : Object) : List String :=
  match (cert.nestedStringSlice ["spec", "usages"]).toOption with
  | some (u :: us) => u :: us
  | _ => ["digital signature", "key encipherment"]

/-- The request that makes cert-manager issue a certificate again. -/
def certificateRequest (cmd : Command) (crName : String) (issuerRef : Object)
    (usages : List String) : Object :=
  .ofList [("apiVersion", .str "cert-manager.io/v1"), ("kind", .str "CertificateRequest"),
    ("metadata", .ofObject (.ofList [("name", .str crName),
      ("namespace", .str cmd.target.namespace_),
      ("annotations", .ofObject (.ofList
        [("cert-manager.io/certificate-name", .str cmd.target.name)]))])),
    ("spec", .ofObject (.ofList [("issuerRef", .ofObject issuerRef),
      ("usages", .ofSlice (usages.map .str))]))]

/-- The `cert-rotate` verb. -/
def certRotate (x : Executor) (cmd : Command) : Cmd Exit := do
  let ns := cmd.target.namespace_
  let name := cmd.target.name
  match ← call (.get ⟨certificates, ns⟩ name) with
  | .error e => fail cmd "cannot fetch Certificate" e.text
  | .ok cert => match (cert.nestedMap ["spec", "issuerRef"]).toOption with
    | none => fail cmd "Certificate has no spec.issuerRef" (ns ++ "/" ++ name)
    | some issuerRef =>
      let now ← call .now
      let crName := name ++ "-renew-" ++ toString (now / 10 ^ 9)
      let cr := certificateRequest cmd crName issuerRef (usagesOf cert)
      x.dryRunThenApply cmd
        (fun dryRun => do
          return (← call (.create ⟨certificateRequests, ns⟩ cr dryRun)).map ApiError.text)
        "dry-run create CertificateRequest failed"
        ("dry-run create of CertificateRequest " ++ ns ++ "/" ++ crName ++ " validated")
        ("create CertificateRequest " ++ crName) "create CertificateRequest failed"
        (succeed cmd ("created CertificateRequest " ++ ns ++ "/" ++ crName ++
          " for Certificate " ++ name))

/-! ## Helm -/

/-- The values of a Helm part. -/
def parseValues (env : Env) (spec : HelmSpec) : Except String Object :=
  if spec.valuesYAML = [] then .ok .empty
  else match env.readValues spec.valuesYAML with
    | .error e => .error ("cannot parse values YAML: " ++ e)
    | .ok vals => .ok vals

/-- Load the chart of a Helm part: a local path, or what the reference resolves to. -/
def locateChart (spec : HelmSpec) : Cmd (Except String Bytes) := do
  let existing ← call (.stat spec.chartRef)
  if existing ∨ spec.chartRef.toList.head? = some '.' ∨ spec.chartRef.toList.head? = some '/' then
    call (.loadChart spec.chartRef)
  else
    match ← call (.locateChart spec.chartRef spec.version) with
    | .error e => return .error e
    | .ok path => call (.loadChart path)

/-- The first line of an error of Helm. -/
def sanitizeHelmErr (msg : String) : String := String.ofList (msg.toList.takeWhile (· ≠ '\n'))

/-- The `helm-install` verb. -/
def helmInstall (x : Executor) (cmd : Command) : Cmd Exit :=
  match cmd.helm with
  | none => return .nilDeref
  | some h => match parseValues x.env h with
    | .error e => fail cmd "helm-install" e
    | .ok vals => do
      match ← call (.helmConfig h.namespace_) with
      | some e => fail cmd "helm-install" e
      | none => match ← locateChart h with
        | .error e => fail cmd "cannot locate chart" e
        | .ok chrt =>
          x.dryRunThenApply cmd
            (fun dryRun => do
              return (← call (.install h.namespace_ h.releaseName chrt vals dryRun)).map
                sanitizeHelmErr)
            "helm-install dry-run"
            ("dry-run install of release " ++ x.env.quote h.releaseName ++ " in " ++ h.namespace_ ++
              " validated")
            ("helm install " ++ h.releaseName) "helm-install"
            (succeed cmd ("installed release " ++ x.env.quote h.releaseName ++ " in " ++
              h.namespace_))

/-- The `helm-upgrade` verb. -/
def helmUpgrade (x : Executor) (cmd : Command) : Cmd Exit :=
  match cmd.helm with
  | none => return .nilDeref
  | some h => match parseValues x.env h with
    | .error e => fail cmd "helm-upgrade" e
    | .ok vals => do
      match ← call (.helmConfig h.namespace_) with
      | some e => fail cmd "helm-upgrade" e
      | none => match ← call (.helmStatus h.namespace_ h.releaseName) with
        | some _ => fail cmd "helm-upgrade" ("release " ++ x.env.quote h.releaseName ++
            " not found in namespace " ++ x.env.quote h.namespace_)
        | none => match ← locateChart h with
          | .error e => fail cmd "cannot locate chart" e
          | .ok chrt =>
            x.dryRunThenApply cmd
              (fun dryRun => do
                return (← call (.upgrade h.namespace_ h.releaseName chrt vals dryRun)).map
                  sanitizeHelmErr)
              "helm-upgrade dry-run"
              ("dry-run upgrade of release " ++ x.env.quote h.releaseName ++ " in " ++
                h.namespace_ ++ " validated")
              ("helm upgrade " ++ h.releaseName) "helm-upgrade"
              (succeed cmd ("upgraded release " ++ x.env.quote h.releaseName ++ " in " ++
                h.namespace_))

/-- The `helm-uninstall` verb; Helm has no dry run for it. -/
def helmUninstall (x : Executor) (cmd : Command) : Cmd Exit :=
  match cmd.helm with
  | none => return .nilDeref
  | some h => do
    match ← call (.helmConfig h.namespace_) with
    | some e => fail cmd "helm-uninstall" e
    | none =>
      call (.report { status := statusApplying, message := "helm uninstall " ++ h.releaseName })
      match ← call (.uninstall h.namespace_ h.releaseName) with
      | some e => fail cmd "helm-uninstall" (sanitizeHelmErr e)
      | none => succeed cmd ("uninstalled release " ++ x.env.quote h.releaseName ++ " from " ++
          h.namespace_)

/-! ## Dispatch -/

/-- The handler of a verb. -/
def handler (x : Executor) (fuel : ℕ) (cmd : Command) : Cmd Exit :=
  if cmd.verb = verbApply then x.apply cmd
  else if cmd.verb = verbPatch then x.patch cmd
  else if cmd.verb = verbDelete then x.delete cmd
  else if cmd.verb = verbDrainNode then x.drainNode fuel cmd
  else if cmd.verb = verbUncordonNode then uncordonNode cmd
  else if cmd.verb = verbHelmInstall then x.helmInstall cmd
  else if cmd.verb = verbHelmUpgrade then x.helmUpgrade cmd
  else if cmd.verb = verbHelmUninstall then x.helmUninstall cmd
  else if cmd.verb = verbCertRotate then x.certRotate cmd
  else if cmd.verb = verbClusterUpgrade then
    refuse cmd "cluster-upgrade is not supported by this agent version"
  else refuse cmd ("unknown verb " ++ x.env.quote cmd.verb)

section Dispatch

variable {x : Executor} {fuel : ℕ} {cmd : Command}

lemma handler_apply (hv : cmd.verb = verbApply) : x.handler fuel cmd = x.apply cmd := by
  rw [handler, hv]
  rfl

lemma handler_patch (hv : cmd.verb = verbPatch) : x.handler fuel cmd = x.patch cmd := by
  rw [handler, hv]
  rfl

lemma handler_delete (hv : cmd.verb = verbDelete) : x.handler fuel cmd = x.delete cmd := by
  rw [handler, hv]
  rfl

lemma handler_drainNode (hv : cmd.verb = verbDrainNode) :
    x.handler fuel cmd = x.drainNode fuel cmd := by
  rw [handler, hv]
  rfl

lemma handler_uncordonNode (hv : cmd.verb = verbUncordonNode) :
    x.handler fuel cmd = uncordonNode cmd := by
  rw [handler, hv]
  rfl

lemma handler_helmInstall (hv : cmd.verb = verbHelmInstall) :
    x.handler fuel cmd = x.helmInstall cmd := by
  rw [handler, hv]
  rfl

lemma handler_helmUpgrade (hv : cmd.verb = verbHelmUpgrade) :
    x.handler fuel cmd = x.helmUpgrade cmd := by
  rw [handler, hv]
  rfl

lemma handler_helmUninstall (hv : cmd.verb = verbHelmUninstall) :
    x.handler fuel cmd = x.helmUninstall cmd := by
  rw [handler, hv]
  rfl

lemma handler_certRotate (hv : cmd.verb = verbCertRotate) :
    x.handler fuel cmd = x.certRotate cmd := by
  rw [handler, hv]
  rfl

end Dispatch

/-- Execute a command. -/
def handleCommand (x : Executor) (fuel : ℕ) (cmd : Command) : Cmd Exit := do
  call (.report { status := statusValidating })
  x.handler fuel cmd

end K8sAgent.Executor
