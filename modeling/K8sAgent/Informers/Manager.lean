import K8sAgent.Executor.Unstructured
import K8sAgent.Protocol.Env
import K8sAgent.Protocol.Types

set_option relaxedAutoImplicit false
set_option autoImplicit false

/-!
# Watching the cluster

`internal/informers`: the resources the agent can watch, the inventory events made of what an
informer tells, and the snapshot of everything informers hold. Of a Secret only metadata, type and
the keys of its data are put into an event.

## Main definitions

* `K8sAgent.WatchedResource`, `K8sAgent.known` — the resources, with the flag of those whose values
  must not leave the cluster.
* `K8sAgent.Manager` — the resources watched, all of them known.
* `K8sAgent.stripSecret`, `K8sAgent.Manager.toEvent` — the event made of an object.
* `K8sAgent.Manager.notify`, `K8sAgent.Manager.snapshot` — the handlers of an informer, and the
  snapshot.
-/

namespace K8sAgent

open Encoding JsonTree

/-! ## Resources -/

/-- A resource type to watch. -/
structure WatchedResource where
  /-- The resource type. -/
  gvr : GroupVersionResource
  /-- Whether its objects are in namespaces. -/
  namespaced : Bool := false
  /-- Whether values must be stripped before they leave the cluster. -/
  secret : Bool := false
  deriving DecidableEq

/-- The known resources under their names. -/
def known : List (String × WatchedResource) :=
  [("deployments", { gvr := ⟨"apps", "v1", "deployments"⟩, namespaced := true }),
   ("statefulsets", { gvr := ⟨"apps", "v1", "statefulsets"⟩, namespaced := true }),
   ("daemonsets", { gvr := ⟨"apps", "v1", "daemonsets"⟩, namespaced := true }),
   ("replicasets", { gvr := ⟨"apps", "v1", "replicasets"⟩, namespaced := true }),
   ("pods", { gvr := ⟨"", "v1", "pods"⟩, namespaced := true }),
   ("services", { gvr := ⟨"", "v1", "services"⟩, namespaced := true }),
   ("configmaps", { gvr := ⟨"", "v1", "configmaps"⟩, namespaced := true }),
   ("secrets", { gvr := ⟨"", "v1", "secrets"⟩, namespaced := true, secret := true }),
   ("nodes", { gvr := ⟨"", "v1", "nodes"⟩ }),
   ("namespaces", { gvr := ⟨"", "v1", "namespaces"⟩ }),
   ("persistentvolumeclaims",
     { gvr := ⟨"", "v1", "persistentvolumeclaims"⟩, namespaced := true }),
   ("serviceaccounts", { gvr := ⟨"", "v1", "serviceaccounts"⟩, namespaced := true }),
   ("ingresses", { gvr := ⟨"networking.k8s.io", "v1", "ingresses"⟩, namespaced := true }),
   ("networkpolicies",
     { gvr := ⟨"networking.k8s.io", "v1", "networkpolicies"⟩, namespaced := true }),
   ("roles", { gvr := ⟨"rbac.authorization.k8s.io", "v1", "roles"⟩, namespaced := true }),
   ("rolebindings",
     { gvr := ⟨"rbac.authorization.k8s.io", "v1", "rolebindings"⟩, namespaced := true }),
   ("clusterroles", { gvr := ⟨"rbac.authorization.k8s.io", "v1", "clusterroles"⟩ }),
   ("clusterrolebindings", { gvr := ⟨"rbac.authorization.k8s.io", "v1", "clusterrolebindings"⟩ }),
   ("poddisruptionbudgets",
     { gvr := ⟨"policy", "v1", "poddisruptionbudgets"⟩, namespaced := true }),
   ("certificates", { gvr := ⟨"cert-manager.io", "v1", "certificates"⟩, namespaced := true }),
   ("issuers", { gvr := ⟨"cert-manager.io", "v1", "issuers"⟩, namespaced := true }),
   ("clusterissuers", { gvr := ⟨"cert-manager.io", "v1", "clusterissuers"⟩ })]

/-! ## The manager -/

/-- The operation of an object that is new. -/
def opAdd : String := "add"
/-- The operation of an object that has changed. -/
def opUpdate : String := "update"
/-- The operation of an object that is gone. -/
def opDelete : String := "delete"
/-- The operation of an object in a snapshot. -/
def opSync : String := "sync"

/-- What an informer hands to its handlers and keeps in its store. -/
inductive Informed : Type where
  /-- An object. -/
  | unstructured (u : Object)
  /-- The last known state of an object whose deletion was missed. -/
  | tombstone (obj : Informed)
  /-- Anything else, with the name of its type. -/
  | other (type : String)

/-- The name of the type, as messages show it. -/
def Informed.typeName : Informed → String
  | .unstructured _ => "*unstructured.Unstructured"
  | .tombstone _ => "cache.DeletedFinalStateUnknown"
  | .other type => type

/-- What an informer tells. -/
inductive Notification : Type where
  /-- An object is new. -/
  | add (obj : Informed)
  /-- An object has changed. -/
  | update (old new : Informed)
  /-- An object is gone. -/
  | delete (obj : Informed)

/-- The fixed part of a manager. Every resource it watches is a known one. -/
structure Manager where
  /-- Functions of other packages. -/
  env : Env
  /-- The JSON form of the time that the text of a creation timestamp stands for. -/
  timeJSON : String → Value
  /-- The resources watched, in the order in which they were set up. -/
  watched : List WatchedResource
  /-- The types that are watched are known. -/
  watched_known : ∀ w ∈ watched, w ∈ known.map Prod.snd

/-- The keys of the data of a Secret: of a map of strings, or else of any map. -/
def secretKeys (u : Object) : Finset String :=
  match u.nestedStringMap ["data"] with
  | .found data => data.keys
  | _ => match u.nestedMap ["data"] with
    | .found raw => raw.keys
    | _ => ∅

/-- A map of strings as JSON; a nil map is null. -/
def mapJSON : Option Object → Value
  | some m => .ofObject m
  | none => .null

/-- What is left of a Secret: metadata, type and the keys of the data. -/
def stripSecret (timeJSON : String → Value) (u : Object) : Object :=
  .ofList
    [("apiVersion", .str (getAPIVersion u)),
     ("kind", .str (getKind u)),
     ("metadata", .ofObject (.ofList
       [("name", .str (getName u)),
        ("namespace", .str (getNamespace u)),
        ("labels", mapJSON (getLabels u)),
        ("annotations", mapJSON (getAnnotations u)),
        ("creationTimestamp", timeJSON (getString u ["metadata", "creationTimestamp"]))])),
     ("type", .str (getString u ["type"])),
     ("data", .ofObject (.ofFn (secretKeys u) fun _ => some (.str "")))]

namespace Manager

/-- Whether values of a resource type are stripped; of two resources of one type the later
counts. -/
def secrets (m : Manager) (gvr : GroupVersionResource) : Bool :=
  ((m.watched.filter fun w => w.gvr = gvr).getLast?.map (·.secret)).getD false

/-- The event of an object at the clock reading `now` in seconds. -/
def eventOf (m : Manager) (op : String) (gvr : GroupVersionResource) (u : Object) (secret : Bool)
    (now : ℤ) : InventoryEvent where
  op := op
  ref :=
    { group := gvr.group, version := gvr.version, resource := gvr.resource,
      namespace_ := getNamespace u, name := getName u }
  timestamp := now
  objectJSON := m.env.marshal (.ofObject (if secret then stripSecret m.timeJSON u else u))

/-- The event of what an informer holds; a tombstone stands for the object inside it. -/
def toEvent (m : Manager) (op : String) (gvr : GroupVersionResource) (obj : Informed)
    (secret : Bool) (now : ℤ) : Except String InventoryEvent :=
  let obj := match obj with
    | .tombstone inner => inner
    | obj => obj
  match obj with
  | .unstructured u => .ok (m.eventOf op gvr u secret now)
  | obj => .error ("unexpected object type " ++ obj.typeName)

/-- `handle`: the event that is enqueued, if there is one. -/
def handle (m : Manager) (op : String) (w : WatchedResource) (obj : Informed) (now : ℤ) :
    Option InventoryEvent :=
  (m.toEvent op w.gvr obj w.secret now).toOption

/-- The handlers of the informer of a resource. -/
def notify (m : Manager) (w : WatchedResource) (n : Notification) (now : ℤ) :
    Option InventoryEvent :=
  match n with
  | .add obj => m.handle opAdd w obj now
  | .update _ obj => m.handle opUpdate w obj now
  | .delete obj => m.handle opDelete w obj now

/-- The events of the snapshot: of every object in every store, in the order in which they are
listed, with the clock reading at each. Objects that cannot be converted are left out. -/
def snapshot (m : Manager) (stores : List (GroupVersionResource × List (Informed × ℤ))) :
    List InventoryEvent :=
  stores.flatMap fun store =>
    store.2.filterMap fun obj => (m.toEvent opSync store.1 obj.1 (m.secrets store.1) obj.2).toOption

end Manager

end K8sAgent
