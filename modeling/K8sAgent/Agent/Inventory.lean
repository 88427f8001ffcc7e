import K8sAgent.Informers.Manager
import K8sAgent.Lib.Replica
import K8sAgent.Uploader.Order
import K8sAgent.Uploader.Queue

set_option relaxedAutoImplicit false
set_option autoImplicit false

/-!
# The inventory of the control plane

The read path of the agent as one system: informers keep stores of the objects of the cluster and
tell handlers of changes, the handlers enqueue events (`internal/informers/manager.go`), the
uploader sends them and, after every failure, a snapshot of the stores first
(`internal/uploader/uploader.go`), and the control plane keeps a table with a row for each object
(`SERVER.md`): the last event of an object wins, `delete` removes the row, a batch that is sent
again is applied again.

Handlers run behind the stores, each with a queue of its own; `Snapshot` reads the stores one after
another, in any order; an answer of the control plane can be lost after it has applied a batch.

## Main definitions

* `K8sAgent.Inventory.rowWrite` — what the control plane does with an event.
* `K8sAgent.Inventory.World`, `Label`, `step` — the system.
* `K8sAgent.Inventory.Move` — what a step can be.
* `K8sAgent.Inventory.World.Quiet` — nothing is on the way to the control plane.
* `K8sAgent.Inventory.World.goal` — what its table is to hold.
-/

namespace K8sAgent

/-- The resource types with an informer. -/
def Manager.informers (m : Manager) : List GroupVersionResource := (m.watched.map (·.gvr)).dedup

namespace Inventory

open Encoding JsonTree Transition Replica Uploader

/-! ## The control plane -/

/-- What the control plane does with an event: a row is written or removed. Events with an unknown
operation are skipped. -/
def rowWrite (ev : InventoryEvent) : Option (Write ResourceRef Bytes) :=
  if ev.op = opDelete then some (ev.ref, none)
  else if ev.op = opAdd ∨ ev.op = opUpdate ∨ ev.op = opSync then some (ev.ref, some ev.objectJSON)
  else none

/-- The writes of a batch. -/
def writes (evs : List InventoryEvent) : List (Write ResourceRef Bytes) := evs.filterMap rowWrite

/-! ## The system -/

/-- An informer's objects, with the resource type. -/
abbrev Stored : Type := GroupVersionResource × Object

/-- The reference of an object. -/
def refOf (gvr : GroupVersionResource) (u : Object) : ResourceRef where
  group := gvr.group
  version := gvr.version
  resource := gvr.resource
  namespace_ := getNamespace u
  name := getName u

/-- The system, with the record of what informers have told of. -/
structure World where
  /-- The stores of the informers. -/
  stores : List Stored := []
  /-- What each handler has not dealt with yet. -/
  pending : ℕ → List Notification := fun _ => []
  /-- `Snapshot` under way: the informers it has not come to yet, and its events so far. -/
  listing : Option (List GroupVersionResource × List InventoryEvent) := none
  /-- The uploader. -/
  up : Uploader.State
  /-- The table of the control plane. -/
  rows : ResourceRef → Option Bytes
  /-- Record: the objects informers have told of. -/
  told : List ResourceRef := []

/-- The object under a reference. -/
def World.find (w : World) (ref : ResourceRef) : Option Stored :=
  w.stores.find? fun o => refOf o.1 o.2 = ref

/-- What can happen next. -/
inductive Label : Type where
  /-- An informer learns of an object. -/
  | put (gvr : GroupVersionResource) (u : Object)
  /-- An informer learns that an object is gone, with its last state, or that it has missed when. -/
  | remove (gvr : GroupVersionResource) (u : Object) (missed : Bool)
  /-- A handler deals with what it was told next. -/
  | handle (i : ℕ) (now : ℤ)
  /-- `Snapshot` begins, with the informers in this order. -/
  | range (order : List GroupVersionResource)
  /-- `Snapshot` lists the next store, in this order. -/
  | list (objs : List (Object × ℤ))
  /-- `Snapshot` returns. -/
  | snapshot
  /-- `Run` goes on. -/
  | next
  /-- The control plane has applied the batch, and the answer arrives. -/
  | ack
  /-- Sending the batch fails; the control plane may have applied it. -/
  | fail (applied : Bool)
  /-- A timer or a notification ends a wait. -/
  | wake
  /-- `Run` finds the context done. -/
  | cancel

section Step

variable (m : Manager) (u : Uploader)

/-- The handlers of a resource type are told. -/
def tell (w : World) (gvr : GroupVersionResource) (n : Notification) : ℕ → List Notification :=
  fun i => if (m.watched[i]?).map (·.gvr) = some gvr then w.pending i ++ [n] else w.pending i

/-- What an informer tells when it learns of an object. -/
def change (w : World) (gvr : GroupVersionResource) (o : Object) : Notification :=
  match w.find (refOf gvr o) with
  | some old => .update (.unstructured old.2) (.unstructured o)
  | none => .add (.unstructured o)

/-- The event of what a handler was told next. -/
def event (w : World) (i : ℕ) (now : ℤ) : Option InventoryEvent :=
  (m.watched[i]?).bind fun r => (w.pending i).head?.bind fun n => m.notify r n now

/-- An object comes into its store, in place of what is there under the same reference. -/
def put (w : World) (gvr : GroupVersionResource) (o : Object) : World :=
  { w with
    stores := (w.stores.filter fun old => refOf old.1 old.2 ≠ refOf gvr o) ++ [(gvr, o)]
    pending := tell m w gvr (change w gvr o)
    told := w.told ++ [refOf gvr o] }

/-- An object leaves its store. -/
def remove (w : World) (gvr : GroupVersionResource) (o : Object) (missed : Bool) : World :=
  { w with
    stores := w.stores.filter fun old => refOf old.1 old.2 ≠ refOf gvr o
    pending := tell m w gvr
      (.delete (if missed then .tombstone (.unstructured o) else .unstructured o))
    told := w.told ++ [refOf gvr o] }

/-- A handler deals with what it was told next, and goes on to the rest. -/
def handle (w : World) (i : ℕ) (now : ℤ) (rest : List Notification) : World :=
  { w with
    pending := Function.update w.pending i rest
    up := (event m w i now).elim w.up (u.enqueue w.up) }

/-- The rows after the control plane has applied the batch whose answer is awaited. -/
def World.applied (w : World) : ResourceRef → Option Bytes := replay w.rows (writes w.up.outgoing)

/-- A step of the uploader. -/
def upload (w : World) (l : Uploader.Label) : Option World :=
  (u.step w.up l).map fun up => { w with up := up }

/-- One step; `none` where it is not possible. -/
def step (w : World) : Label → Option World
  | .put gvr o => if gvr ∈ m.informers then some (put m w gvr o) else none
  | .remove gvr o missed =>
    if gvr ∈ m.informers ∧ (w.find (refOf gvr o)).isSome then some (remove m w gvr o missed)
    else none
  | .handle i now => match w.pending i with
    | [] => none
    | _ :: rest => some (handle m u w i now rest)
  | .range order =>
    if w.listing = none ∧ w.up.pc = .top ∧ w.up.needSnapshot = true ∧ order.Perm m.informers then
      some { w with listing := some (order, []) }
    else none
  | .list objs => match w.listing with
    | some (gvr :: rest, evs) =>
      if (objs.map Prod.fst).Perm ((w.stores.filter fun o => o.1 = gvr).map Prod.snd) then
        some { w with listing := some (rest,
          evs ++ m.snapshot [(gvr, objs.map fun o => (.unstructured o.1, o.2))]) }
      else none
    | _ => none
  | .snapshot => match w.listing with
    | some ([], evs) => upload u { w with listing := none } (.snapshot evs)
    | _ => none
  | .next => upload u w .next
  | .ack => upload u { w with rows := w.applied } .ack
  | .fail applied => upload u { w with rows := if applied then w.applied else w.rows } .fail
  | .wake => upload u w .wake
  | .cancel => if w.listing = none then upload u w .cancel else none

/-- The system in the beginning: informers have been told of nothing, the spill file holds the given
events, and the control plane has a table from before. -/
def start (seq : ℤ) (held : List InventoryEvent) (rows : ResourceRef → Option Bytes) : World :=
  { up := u.start seq (u.codec.file held), rows := rows }

/-- No event goes into the buffer while the spill file holds one on the same object, and what is
spilled can be read back. -/
def Orderly (w : World) : Label → Prop
  | .handle i now => ∀ ev ∈ event m w i now, u.Orderly w.up (.enqueue ev)
  | _ => True

instance (w : World) (l : Label) : Decidable (Orderly m u w l) :=
  match l with
  | .handle i now => inferInstanceAs (Decidable (∀ ev ∈ event m w i now, _))
  | .put _ _ | .remove _ _ _ | .range _ | .list _ | .snapshot | .next | .ack | .fail _ | .wake
  | .cancel => isTrue trivial

/-! ## What a step can be -/

/-- The steps, one by one. -/
inductive Move (w : World) : Label → World → Prop where
  /-- An object comes into its store. -/
  | put (gvr : GroupVersionResource) (o : Object) (hgvr : gvr ∈ m.informers) :
      Move w (.put gvr o) (put m w gvr o)
  /-- An object leaves its store. -/
  | remove (gvr : GroupVersionResource) (o : Object) (missed : Bool) (hgvr : gvr ∈ m.informers)
      (hfound : (w.find (refOf gvr o)).isSome) :
      Move w (.remove gvr o missed) (remove m w gvr o missed)
  /-- A handler goes on. -/
  | handle (i : ℕ) (now : ℤ) (n : Notification) (rest : List Notification)
      (hpending : w.pending i = n :: rest) : Move w (.handle i now) (handle m u w i now rest)
  /-- `Snapshot` begins. -/
  | range (order : List GroupVersionResource) (hlisting : w.listing = none) (hpc : w.up.pc = .top)
      (hneed : w.up.needSnapshot = true) (horder : order.Perm m.informers) :
      Move w (.range order) { w with listing := some (order, []) }
  /-- `Snapshot` lists a store. -/
  | list (gvr : GroupVersionResource) (rest : List GroupVersionResource)
      (evs : List InventoryEvent) (objs : List (Object × ℤ))
      (hlisting : w.listing = some (gvr :: rest, evs))
      (hobjs : (objs.map Prod.fst).Perm ((w.stores.filter fun o => o.1 = gvr).map Prod.snd)) :
      Move w (.list objs) { w with listing := some (rest,
        evs ++ m.snapshot [(gvr, objs.map fun o => (.unstructured o.1, o.2))]) }
  /-- `Snapshot` returns. -/
  | snapshot (evs : List InventoryEvent) (up : Uploader.State)
      (hlisting : w.listing = some ([], evs)) (hup : u.step w.up (.snapshot evs) = some up) :
      Move w .snapshot { w with listing := none, up := up }
  /-- `Run` goes on. -/
  | next (up : Uploader.State) (hup : u.step w.up .next = some up) :
      Move w .next { w with up := up }
  /-- A batch is acknowledged. -/
  | ack (up : Uploader.State) (hup : u.step w.up .ack = some up) :
      Move w .ack { w with rows := w.applied, up := up }
  /-- A batch fails. -/
  | fail (applied : Bool) (up : Uploader.State) (hup : u.step w.up .fail = some up) :
      Move w (.fail applied) { w with rows := if applied then w.applied else w.rows, up := up }
  /-- A wait ends. -/
  | wake (up : Uploader.State) (hup : u.step w.up .wake = some up) :
      Move w .wake { w with up := up }
  /-- The context is done. -/
  | cancel (up : Uploader.State) (hlisting : w.listing = none)
      (hup : u.step w.up .cancel = some up) : Move w .cancel { w with up := up }

variable {m u}

lemma move_of_step {w w' : World} {l : Label} (h : step m u w l = some w') : Move m u w l w' := by
  cases l with
  | put gvr o =>
    obtain ⟨hgvr, ⟨⟩⟩ := Option.ite_none_right_eq_some.mp h
    exact .put gvr o hgvr
  | remove gvr o missed =>
    obtain ⟨hgvr, ⟨⟩⟩ := Option.ite_none_right_eq_some.mp h
    exact .remove gvr o missed hgvr.1 hgvr.2
  | handle i now =>
    simp only [step] at h
    split at h
    · cases h
    next n rest hpending =>
      obtain rfl := Option.some.inj h
      exact .handle i now n rest hpending
  | range order =>
    obtain ⟨hready, ⟨⟩⟩ := Option.ite_none_right_eq_some.mp h
    exact .range order hready.1 hready.2.1 hready.2.2.1 hready.2.2.2
  | list objs =>
    simp only [step] at h
    split at h
    next gvr rest evs hlisting =>
      obtain ⟨hobjs, ⟨⟩⟩ := Option.ite_none_right_eq_some.mp h
      exact .list gvr rest evs objs hlisting hobjs
    next => cases h
  | snapshot =>
    simp only [step] at h
    split at h
    next evs hlisting =>
      obtain ⟨up, hup, rfl⟩ := Option.map_eq_some_iff.mp h
      exact .snapshot evs up hlisting hup
    next => cases h
  | next =>
    obtain ⟨up, hup, rfl⟩ := Option.map_eq_some_iff.mp h
    exact .next up hup
  | ack =>
    obtain ⟨up, hup, rfl⟩ := Option.map_eq_some_iff.mp h
    exact .ack up hup
  | fail applied =>
    obtain ⟨up, hup, rfl⟩ := Option.map_eq_some_iff.mp h
    exact .fail applied up hup
  | wake =>
    obtain ⟨up, hup, rfl⟩ := Option.map_eq_some_iff.mp h
    exact .wake up hup
  | cancel =>
    obtain ⟨hlisting, hw⟩ := Option.ite_none_right_eq_some.mp h
    obtain ⟨up, hup, rfl⟩ := Option.map_eq_some_iff.mp hw
    exact .cancel up hlisting hup

end Step

/-- Nothing is on the way to the control plane: handlers have dealt with all they were told, and all
that was enqueued is acknowledged. -/
structure World.Quiet (m : Manager) (w : World) : Prop where
  /-- Handlers have nothing to do. -/
  pending : ∀ i < m.watched.length, w.pending i = []
  /-- The buffer is empty. -/
  buf : w.up.buf = []
  /-- The spill file is empty. -/
  spill : w.up.spill = []
  /-- No batch of events is in flight. -/
  inFlight : w.up.inFlight = []

/-- The text of an object in events. -/
def payload (m : Manager) (o : Stored) : Bytes :=
  m.env.marshal (.ofObject (if m.secrets o.1 then stripSecret m.timeJSON o.2 else o.2))

/-- **What the table is to hold**: what the stores hold of the objects informers have told of, and
of all others what the table and the events from before leave. -/
def World.goal (m : Manager) (rows : ResourceRef → Option Bytes) (held : List InventoryEvent)
    (w : World) (ref : ResourceRef) : Option Bytes :=
  if ref ∈ w.told then (w.find ref).map (payload m) else replay rows (writes held) ref

end Inventory

end K8sAgent
