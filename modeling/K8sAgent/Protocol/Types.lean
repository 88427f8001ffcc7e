import K8sAgent.Lib.Encoding

set_option relaxedAutoImplicit false
set_option autoImplicit false

/-!
# Wire types

The types of `internal/protocol/types.go`: commands, reports and inventory events. Verbs, report
statuses and patch types are strings on the wire, and a command may carry any string in their
place, so they are string constants here too.

## Main definitions

* `K8sAgent.ResourceRef`, `K8sAgent.HelmSpec`, `K8sAgent.Command` — what the control plane sends.
* `K8sAgent.Report` — what the agent answers.
* `K8sAgent.InventoryEvent`, `K8sAgent.InventoryBatch` — what the agent uploads.
-/

namespace K8sAgent

open Encoding

/-! ## Constants -/

/-- Create or update the objects of a manifest. -/
def verbApply : String := "apply"
/-- Patch one object. -/
def verbPatch : String := "patch"
/-- Delete one object. -/
def verbDelete : String := "delete"
/-- Cordon a node and evict its pods. -/
def verbDrainNode : String := "drain-node"
/-- Make a node schedulable again. -/
def verbUncordonNode : String := "uncordon-node"
/-- Install a Helm release. -/
def verbHelmInstall : String := "helm-install"
/-- Upgrade a Helm release. -/
def verbHelmUpgrade : String := "helm-upgrade"
/-- Uninstall a Helm release. -/
def verbHelmUninstall : String := "helm-uninstall"
/-- Re-issue a certificate. -/
def verbCertRotate : String := "cert-rotate"
/-- Upgrade the cluster (never carried out). -/
def verbClusterUpgrade : String := "cluster-upgrade"

/-- The command was accepted for execution. -/
def statusReceived : String := "received"
/-- The executor has started. -/
def statusValidating : String := "validating"
/-- A dry run succeeded. -/
def statusDryRun : String := "dry-run"
/-- A write is about to be issued. -/
def statusApplying : String := "applying"
/-- A long operation has advanced. -/
def statusProgress : String := "progress"
/-- The command ended well. -/
def statusSucceeded : String := "succeeded"
/-- The command ended with an error. -/
def statusFailed : String := "failed"
/-- The command was refused. -/
def statusRefused : String := "refused"

/-- The statuses that end a command. -/
def isTerminal (status : String) : Bool :=
  status = statusSucceeded || status = statusFailed || status = statusRefused

/-- Strategic merge patch. -/
def patchStrategic : String := "strategic"
/-- JSON merge patch. -/
def patchMerge : String := "merge"
/-- JSON patch. -/
def patchJSON : String := "json"

/-! ## Commands, reports, events -/

/-- A reference to a cluster object. -/
structure ResourceRef where
  /-- API group. -/
  group : String := ""
  /-- API version. -/
  version : String := ""
  /-- Resource (plural). -/
  resource : String := ""
  /-- Namespace, empty for cluster-scoped objects. -/
  namespace_ : String := ""
  /-- Object name. -/
  name : String := ""
  deriving DecidableEq, Repr

/-- The Helm part of a command. -/
structure HelmSpec where
  /-- Release name. -/
  releaseName : String := ""
  /-- Namespace of the release. -/
  namespace_ : String := ""
  /-- Chart path, OCI reference or repository chart. -/
  chartRef : String := ""
  /-- Chart version. -/
  version : String := ""
  /-- Values document. -/
  valuesYAML : Bytes := []
  deriving DecidableEq, Repr

/-- A command of the control plane. -/
structure Command where
  /-- Command ID. -/
  id : String := ""
  /-- Replay nonce. -/
  nonce : String := ""
  /-- Unix seconds at which the command was signed. -/
  timestamp : ℤ := 0
  /-- What to do. -/
  verb : String := ""
  /-- The object to do it to. -/
  target : ResourceRef := {}
  /-- Manifest or patch. -/
  payload : Bytes := []
  /-- Kind of patch. -/
  patchType : String := ""
  /-- Helm part; `none` is the nil pointer. -/
  helm : Option HelmSpec := none
  /-- Hash the live object must have, empty for no drift check. -/
  expectedHash : String := ""
  /-- Approval to overwrite drift. -/
  override : Bool := false
  /-- Base64 Ed25519 signature. -/
  signature : String := ""
  deriving DecidableEq, Repr

/-- An execution report. The executor fills status, message, diff and progress; the receiver
stamps the rest. -/
structure Report where
  /-- Cluster. -/
  clusterID : String := ""
  /-- Command reported on. -/
  commandID : String := ""
  /-- Status. -/
  status : String := ""
  /-- Human-readable message. -/
  message : String := ""
  /-- Drift summary. -/
  diff : String := ""
  /-- Percentage of a long operation. -/
  progress : ℤ := 0
  /-- Unix seconds. -/
  timestamp : ℤ := 0
  deriving DecidableEq, Repr

/-- One change of one object. -/
structure InventoryEvent where
  /-- `add`, `update`, `delete` or `sync`. -/
  op : String := ""
  /-- The object. -/
  ref : ResourceRef := {}
  /-- The JSON of the object. -/
  objectJSON : Bytes := []
  /-- Unix seconds. -/
  timestamp : ℤ := 0
  deriving DecidableEq, Repr

/-- The body of one inventory upload. -/
structure InventoryBatch where
  /-- Cluster. -/
  clusterID : String := ""
  /-- Sequence number. -/
  seq : ℤ := 0
  /-- Part of a full snapshot. -/
  full : Bool := false
  /-- The events. -/
  events : List InventoryEvent := []
  deriving DecidableEq, Repr

end K8sAgent
