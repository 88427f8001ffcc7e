import K8sAgent.Lib.Interaction
import K8sAgent.Protocol.Types
import K8sAgent.Protocol.Config
import K8sAgent.Executor.Merge

set_option relaxedAutoImplicit false
set_option autoImplicit false

/-!
# The executor's world

What the handlers of `internal/executor` ask of their surroundings, and the steps they share. A
handler is an interaction program: every call on the cluster, on Helm, on the clock and on the
report callback is a request, and what comes back is up to the surroundings. A call on the
cluster that creates, changes or removes something carries the dry-run flag of the source.

## Main definitions

* `K8sAgent.Op`, `K8sAgent.Ans` — the requests and the types of their answers.
* `K8sAgent.Op.isWrite` — the requests that change the cluster: writes that are not dry runs.
* `K8sAgent.Lawful` — what the client library guarantees about answers.
* `K8sAgent.Executor`, `K8sAgent.Exit` — the fixed part of the executor; how a handler ends.
* `K8sAgent.Executor.refuse`, `fail`, `succeed`, `checkDrift`, `liveGet`, `dryRunThenApply` — the
  shared steps.
-/

namespace K8sAgent

open Encoding JsonTree Interaction

/-! ## Requests -/

/-- A dynamic client for a resource type; the empty namespace is the cluster-scoped path. -/
structure ResourceInterface where
  /-- The resource type. -/
  gvr : GroupVersionResource
  /-- The namespace. -/
  namespace_ : String
  deriving DecidableEq, Repr

/-- An error of the API server or of its client. -/
inductive ApiError : Type where
  /-- The object does not exist. -/
  | notFound (msg : String)
  /-- Anything else. -/
  | other (msg : String)

/-- The text of an error. -/
def ApiError.text : ApiError → String
  | notFound msg => msg
  | other msg => msg

/-- What discovery knows about a kind. -/
inductive Mapping : Type where
  /-- The resource of the kind, and whether it is cluster-scoped. -/
  | found (gvr : GroupVersionResource) (root : Bool)
  /-- The kind is unknown. -/
  | noMatch (msg : String)
  /-- Discovery failed. -/
  | error (msg : String)

/-- The patch types of the API server. -/
inductive PatchType : Type where
  /-- Strategic merge patch. -/
  | strategicMerge
  /-- JSON merge patch. -/
  | merge
  /-- JSON patch. -/
  | json
  deriving DecidableEq

/-- An owner of a pod. -/
structure OwnerReference where
  /-- Kind of the owner. -/
  kind : String
  /-- Group and version of the owner. -/
  apiVersion : String

/-- The part of a pod that a drain reads. -/
structure Pod where
  /-- Namespace. -/
  namespace_ : String
  /-- Name. -/
  name : String
  /-- Node the pod runs on. -/
  nodeName : String
  /-- Annotations. -/
  annotations : List (String × String) := []
  /-- Owners. -/
  ownerReferences : List OwnerReference := []

/-- The requests of the handlers. -/
inductive Op : Type where
  /-- The report callback. -/
  | report (rep : Report)
  /-- The command counter. -/
  | incCommand (verb result : String)
  /-- The drain gauge of a node, in per cent. -/
  | setDrainProgress (node : String) (pct : ℕ)
  /-- Remove the drain gauge of a node. -/
  | clearDrainProgress (node : String)
  /-- The clock, in nanoseconds. -/
  | now
  /-- Wait two seconds or for the end of the context. -/
  | wait
  /-- Discovery. -/
  | restMapping (group kind version : String)
  /-- Read an object. -/
  | get (ri : ResourceInterface) (name : String)
  /-- Create an object. -/
  | create (ri : ResourceInterface) (obj : Object) (dryRun : Bool)
  /-- Replace an object; the body names it. -/
  | update (ri : ResourceInterface) (obj : Object) (dryRun : Bool)
  /-- Patch an object. -/
  | patch (ri : ResourceInterface) (name : String) (pt : PatchType) (data : Bytes) (dryRun : Bool)
  /-- Delete an object. -/
  | delete (ri : ResourceInterface) (name : String) (dryRun : Bool)
  /-- Read a node. -/
  | getNode (name : String)
  /-- Patch a node with a JSON merge patch. -/
  | patchNode (name : String) (data : Bytes)
  /-- List the pods of all namespaces. -/
  | listPods (fieldSelector : String)
  /-- Evict a pod. -/
  | evict (ns name : String)
  /-- Build the Helm configuration of a namespace. -/
  | helmConfig (ns : String)
  /-- The status of a release. -/
  | helmStatus (ns release : String)
  /-- Whether a local file exists. -/
  | stat (path : String)
  /-- Resolve a chart reference to a local path. -/
  | locateChart (ref version : String)
  /-- Load a chart. -/
  | loadChart (path : String)
  /-- Install a release. -/
  | install (ns release : String) (chart : Bytes) (vals : Object) (dryRun : Bool)
  /-- Upgrade a release. -/
  | upgrade (ns release : String) (chart : Bytes) (vals : Object) (dryRun : Bool)
  /-- Uninstall a release. -/
  | uninstall (ns release : String)

/-- The answers: for a call that only can fail, its error. -/
abbrev Ans : Op → Type
  | .now => ℤ
  | .restMapping _ _ _ => Mapping
  | .get _ _ => Except ApiError Object
  | .create _ _ _ | .update _ _ _ | .patch _ _ _ _ _ | .delete _ _ _ => Option ApiError
  | .getNode _ | .patchNode _ _ | .evict _ _ => Option ApiError
  | .listPods _ => Except ApiError (List Pod)
  | .wait | .helmConfig _ | .helmStatus _ _ => Option String
  | .stat _ => Bool
  | .locateChart _ _ => Except String String
  | .loadChart _ => Except String Bytes
  | .install _ _ _ _ _ | .upgrade _ _ _ _ _ | .uninstall _ _ => Option String
  | .report _ | .incCommand _ _ | .setDrainProgress _ _ | .clearDrainProgress _ => Unit

/-- The requests that change the cluster. -/
def Op.isWrite : Op → Bool
  | .create _ _ dryRun | .update _ _ dryRun | .patch _ _ _ _ dryRun | .delete _ _ dryRun => !dryRun
  | .install _ _ _ _ dryRun | .upgrade _ _ _ _ dryRun => !dryRun
  | .patchNode _ _ | .evict _ _ | .uninstall _ _ => true
  | _ => false

/-- The requests that change the cluster, one by one. -/
inductive Op.Writes : Op → Prop where
  | create (ri : ResourceInterface) (obj : Object) : Writes (.create ri obj false)
  | update (ri : ResourceInterface) (obj : Object) : Writes (.update ri obj false)
  | patch (ri : ResourceInterface) (name : String) (pt : PatchType) (data : Bytes) :
      Writes (.patch ri name pt data false)
  | delete (ri : ResourceInterface) (name : String) : Writes (.delete ri name false)
  | patchNode (name : String) (data : Bytes) : Writes (.patchNode name data)
  | evict (ns name : String) : Writes (.evict ns name)
  | install (ns release : String) (chart : Bytes) (vals : Object) :
      Writes (.install ns release chart vals false)
  | upgrade (ns release : String) (chart : Bytes) (vals : Object) :
      Writes (.upgrade ns release chart vals false)
  | uninstall (ns release : String) : Writes (.uninstall ns release)

/-- **Inversion of a write**: a request with `isWrite` is one of the writing requests, not as a dry
run. -/
theorem Op.writes_of_isWrite {op : Op} (h : op.isWrite = true) : op.Writes := by
  cases op with
  | create ri obj dryRun | update ri obj dryRun | patch ri name pt data dryRun
  | delete ri name dryRun | install ns release chart vals dryRun
  | upgrade ns release chart vals dryRun =>
    cases dryRun with
    | true => cases h
    | false => constructor
  | patchNode name data | evict ns name | uninstall ns release => constructor
  | _ => cases h

/-- The requests that read an object. -/
def Op.isGet : Op → Bool
  | .get _ _ => true
  | _ => false

/-- The report a request makes. -/
def Op.report? : Op → Option Report
  | .report rep => some rep
  | _ => none

/-- The requests that report the end of a command. -/
def Op.isEnd : Op → Bool
  | .report rep => isTerminal rep.status
  | _ => false

/-- The client library refuses to read an object without a name before it asks the server. -/
def Lawful : (op : Op) → Ans op → Prop
  | .get _ name, ans => name = "" → ∃ msg, ans = .error (.other msg)
  | _, _ => True

/-- A program over these requests. -/
abbrev Cmd (α : Type) : Type := Prog Op Ans α

/-- Make a request. -/
abbrev call (op : Op) : Cmd (Ans op) := request op

/-- A request with its answer. -/
abbrev Ev : Type := Event Op Ans

/-- How a handler ends. -/
inductive Exit : Type where
  /-- The handler returns. -/
  | returned
  /-- The handler dereferences a nil pointer, which ends the process. -/
  | nilDeref
  /-- The bound on its retries is used up; the source retries without a bound. -/
  | outOfFuel
  deriving DecidableEq

/-! ## Shared steps -/

/-- The fixed part of the executor. -/
structure Executor where
  /-- Configuration. -/
  cfg : Config
  /-- Functions of other packages. -/
  env : Env
  /-- Whether a discovery client could be built. -/
  hasMapper : Bool := true

namespace Executor

/-- Refuse the command. -/
def refuse (cmd : Command) (reason : String) : Cmd Exit := do
  call (.incCommand cmd.verb statusRefused)
  call (.report { status := statusRefused, message := reason })
  return .returned

/-- The command failed. -/
def fail (cmd : Command) (msg err : String) : Cmd Exit := do
  call (.incCommand cmd.verb statusFailed)
  call (.report { status := statusFailed, message := msg ++ ": " ++ err })
  return .returned

/-- The command succeeded. -/
def succeed (cmd : Command) (msg : String) : Cmd Exit := do
  call (.incCommand cmd.verb statusSucceeded)
  call (.report { status := statusSucceeded, message := msg })
  return .returned

/-- The resource type of a target. -/
def gvrOf (ref : ResourceRef) : GroupVersionResource := ⟨ref.group, ref.version, ref.resource⟩

/-- The client for the target of a command. -/
def targetInterface (cmd : Command) : ResourceInterface := ⟨gvrOf cmd.target, cmd.target.namespace_⟩

/-- The drift policy, where the command expects a hash: whether to proceed. A refusal is reported
here. -/
def checkDrift (x : Executor) (cmd : Command) (live : Object) : Cmd Bool :=
  if cmd.expectedHash = "" then return true
  else match Drift.check x.env live cmd.expectedHash with
    | none => return true
    | some diff =>
      if x.cfg.driftPolicy = driftOverwrite then return true
      else if x.cfg.driftPolicy = driftOverwriteWithApproval then
        if cmd.override then return true
        else refuseDrift "drift detected, approval required (override not set)" diff
      else refuseDrift "drift detected, refusing to overwrite" diff
where
  /-- The refusal. -/
  refuseDrift (msg diff : String) : Cmd Bool := do
    call (.incCommand cmd.verb statusRefused)
    call (.report { status := statusRefused, message := msg, diff := diff })
    return false

/-- What reading an object tells about the live object; `none` when it does not exist. -/
def asLive : Except ApiError Object → Except String (Option Object)
  | .ok live => .ok (some live)
  | .error (.notFound _) => .ok none
  | .error (.other msg) => .error msg

/-- Read the live object. -/
def liveGet (ri : ResourceInterface) (name : String) : Cmd (Except String (Option Object)) := do
  return asLive (← call (.get ri name))

/-- The end of every handler that can try its write first: where the configuration asks for it, the
call as a dry run; then the call itself; then `next`. -/
def dryRunThenApply (x : Executor) (cmd : Command) (attempt : Bool → Cmd (Option String))
    (dryRunFailed dryRunDone applying failed : String) (next : Cmd Exit) : Cmd Exit :=
  if x.cfg.dryRunFirst then do
    match ← attempt true with
    | some err => fail cmd dryRunFailed err
    | none =>
      call (.report { status := statusDryRun, message := dryRunDone })
      write
  else write
where
  /-- The call itself. -/
  write : Cmd Exit := do
    call (.report { status := statusApplying, message := applying })
    match ← attempt false with
    | some err => fail cmd failed err
    | none => next

section DryRun

variable {x : Executor} {cmd : Command} {next : Cmd Exit} {s₁ s₂ s₃ s₄ : String}

/-- The call itself, request by request, where an attempt is one request. -/
lemma dryRunThenApply_write_eq (op : Bool → Op) (f : ∀ b, Ans (op b) → Option String) :
    dryRunThenApply.write cmd (fun b => call (op b) >>= fun a => .done (f b a)) s₃ s₄ next =
      .ask (.report { status := statusApplying, message := s₃ }) fun _ =>
        .ask (op false) fun a => (f false a).elim next (fail cmd s₄) := by
  unfold dryRunThenApply.write
  simp only [request_bind, ask_bind, done_bind]
  congr 1
  funext _
  congr 1
  funext a
  cases f false a <;> rfl

/-- With `dryRunFirst`, the dry run `op true` comes first, and `op false` only after it has been
accepted and reported. -/
lemma dryRunThenApply_eq (op : Bool → Op) (f : ∀ b, Ans (op b) → Option String)
    (hdry : x.cfg.dryRunFirst = true) :
    x.dryRunThenApply cmd (fun b => call (op b) >>= fun a => .done (f b a)) s₁ s₂ s₃ s₄ next =
      .ask (op true) fun a => (f true a).elim
        (.ask (.report { status := statusDryRun, message := s₂ }) fun _ =>
          dryRunThenApply.write cmd (fun b => call (op b) >>= fun a => .done (f b a)) s₃ s₄ next)
        (fail cmd s₁) := by
  unfold dryRunThenApply
  rw [if_pos hdry]
  simp only [request_bind, ask_bind, done_bind]
  congr 1
  funext a
  cases f true a <;> rfl

end DryRun

end Executor

end K8sAgent
