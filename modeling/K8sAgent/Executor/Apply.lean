import K8sAgent.Executor.Cluster

set_option relaxedAutoImplicit false
set_option autoImplicit false

/-!
# Apply

The `apply` verb of `internal/executor/executor.go`: the payload is decoded to objects, and each of
them in turn is resolved to a resource, read, checked for drift, and created or updated. The first
problem ends the command; objects before it stay written.

## Main definitions

* `K8sAgent.Executor.decodeManifest` — the objects of a payload.
* `K8sAgent.Executor.gvrFor` — the resource of an object.
* `K8sAgent.Executor.applyObject`, `applyLoop`, `apply` — one object, a list of them, the verb.
-/

namespace K8sAgent.Executor

open Encoding JsonTree Interaction

/-! ## Decoding -/

/-- The objects of a list wrapper. -/
def listItems (env : Env) (m : Object) : Except String (List Object) :=
  match m.nestedSlice ["items"] with
  | .err path v => .error ("cannot read List items: " ++ env.accessError path v)
  | .missing => .ok []
  | .found items => items.mapM fun item => match item.asMap with
    | some im => .ok im
    | none => .error "List item is not an object"

/-- The objects of one document: none if it is blank or empty, those inside if it is a list. -/
def decodeDocument (env : Env) (doc : Bytes) : Except String (List Object) :=
  if trimSpace doc = [] then .ok []
  else match env.yamlUnmarshal (trimSpace doc) with
    | .error e => .error e
    | .ok m =>
      if m.keys = ∅ then .ok []
      else if getKind m = "List" then listItems env m
      else .ok [m]

/-- The objects of a payload of one or more documents. -/
def decodeManifest (env : Env) (payload : Bytes) : Except String (List Object) :=
  match (env.yamlDocs payload).1.mapM (decodeDocument env) with
  | .error e => .error e
  | .ok objs => match (env.yamlDocs payload).2 with
    | some e => .error e
    | none => .ok objs.flatten

/-! ## Resolving -/

/-- The resource of the command's target, for an object that discovery cannot place. -/
def fallbackGVR (x : Executor) (obj : Object) (fallback : ResourceRef) :
    Except String (GroupVersionResource × Bool) :=
  if fallback.resource ≠ "" ∧ fallback.version ≠ "" then .ok (gvrOf fallback, true)
  else .error ("cannot resolve resource type for " ++ (groupVersionKind obj).kind ++ " " ++
    x.env.quote (getName obj) ++ " (apiVersion " ++
    x.env.quote (groupVersionKind obj).groupVersion ++
    "): not in discovery and no command target")

/-- The resource of an object, and whether it is namespaced: by discovery if the object has a kind
that is known, and by the command's target otherwise. -/
def gvrFor (x : Executor) (obj : Object) (fallback : ResourceRef) :
    Cmd (Except String (GroupVersionResource × Bool)) :=
  let gvk := groupVersionKind obj
  if x.hasMapper ∧ gvk.kind ≠ "" then do
    match ← call (.restMapping gvk.group gvk.kind gvk.version) with
    | .found gvr root => return .ok (gvr, !root)
    | .noMatch _ => return x.fallbackGVR obj fallback
    | .error msg => return .error msg
  else return x.fallbackGVR obj fallback

/-! ## Writing -/

/-- The object with name and namespace of the target where it has none. -/
def prepare (cmd : Command) (obj : Object) : Object :=
  let obj := if getName obj = "" then setName obj cmd.target.name else obj
  if getNamespace obj = "" then setNamespace obj cmd.target.namespace_ else obj

/-- The text that stands for an object in messages. -/
def objectID (obj : Object) : String := getKind obj ++ " " ++ getNamespace obj ++ "/" ++ getName obj

/-- Create or update. -/
def createOrUpdate (ri : ResourceInterface) (obj : Object) (op : String) (dryRun : Bool) :
    Cmd (Option String) :=
  if op = "create" then do
    return (← call (.create ri obj dryRun)).map ApiError.text
  else do
    return (← call (.update ri obj dryRun)).map ApiError.text

/-- Write one object and go on. -/
def writeObject (x : Executor) (cmd : Command) (ri : ResourceInterface) (id op : String)
    (body : Object) (next : Cmd Exit) : Cmd Exit :=
  x.dryRunThenApply cmd (createOrUpdate ri body op)
    ("dry-run " ++ op ++ " of " ++ id ++ " failed")
    ("dry-run " ++ op ++ " of " ++ id ++ " validated")
    (op ++ " " ++ id) (op ++ " of " ++ id ++ " failed") next

/-- One prepared object; `next` learns whether it existed. -/
def applyObject (x : Executor) (cmd : Command) (obj : Object) (next : Bool → Cmd Exit) :
    Cmd Exit := do
  match ← x.gvrFor obj cmd.target with
  | .error e => fail cmd "cannot resolve resource type" e
  | .ok (gvr, namespaced) =>
    let ri : ResourceInterface := ⟨gvr, if namespaced then getNamespace obj else ""⟩
    match ← liveGet ri (getName obj) with
    | .error e => fail cmd ("cannot fetch live " ++ objectID obj) e
    | .ok none =>
      x.writeObject cmd ri (objectID obj) "create" (Drift.stamp x.env obj) (next false)
    | .ok (some live) =>
      if ← x.checkDrift cmd live then
        x.writeObject cmd ri (objectID obj) "update" (Merge.updateBody x.env live obj) (next true)
      else return .returned

/-- The objects one after another, counting those created and those updated. -/
def applyLoop (x : Executor) (cmd : Command) : List Object → ℕ → ℕ → Cmd Exit
  | [], created, updated =>
    succeed cmd s!"applied {created + updated} object(s): {created} created, {updated} updated"
  | obj :: objs, created, updated =>
    x.applyObject cmd (prepare cmd obj) fun existed =>
      if existed then applyLoop x cmd objs created (updated + 1)
      else applyLoop x cmd objs (created + 1) updated

/-- The `apply` verb. -/
def apply (x : Executor) (cmd : Command) : Cmd Exit :=
  match decodeManifest x.env cmd.payload with
  | .error e => fail cmd "cannot decode payload" e
  | .ok [] => fail cmd "cannot decode payload" "payload contains no objects"
  | .ok objs => x.applyLoop cmd objs 0 0

end K8sAgent.Executor
