import K8sAgent.Executor.Unstructured
import K8sAgent.Protocol.Env

set_option relaxedAutoImplicit false
set_option autoImplicit false

/-!
# Drift hashes

`internal/drift/drift.go`: the hash of what is meant by an object, its comparison with an expected
hash, and the annotation that records it.

## Main definitions

* `K8sAgent.Drift.stripped` — an object without what changes on every write.
* `K8sAgent.Drift.hashObject`, `check`, `stamp` — hash, comparison, annotation.

## Main results

* `K8sAgent.Drift.metaString_stamp` — stamping leaves the string fields of the metadata alone.
-/

namespace K8sAgent.Drift

open JsonTree

/-- The annotation that records the hash of the last applied state. -/
def hashAnnotation : String := "k8s-agent.io/last-applied-hash"

/-- The metadata fields that are dropped before hashing. -/
def volatileMetaKeys : List String :=
  ["resourceVersion", "uid", "generation", "creationTimestamp", "managedFields"]

/-- Metadata without the volatile fields and the hash annotation; annotations that become empty
are dropped. -/
def strippedMeta (md : Object) : Object :=
  let md' := volatileMetaKeys.foldl Object.erase md
  match md'.mapAt "annotations" with
  | none => md'
  | some ann =>
    if (ann.erase hashAnnotation).keys = ∅ then md'.erase "annotations"
    else md'.set "annotations" (.ofObject (ann.erase hashAnnotation))

/-- An object without what changes on every write. -/
def stripped (obj : Object) : Object :=
  match obj.mapAt "metadata" with
  | none => obj
  | some md => obj.set "metadata" (.ofObject (strippedMeta md))

/-- The hash of an object. -/
def hashObject (env : Env) (obj : Object) : String :=
  env.sha256Hex (env.marshal (.ofObject (stripped obj)))

/-- The characters in the first `n` bytes of a text; the bytes of a character that is cut show as
replacement characters. -/
def takeBytes : ℕ → List Char → List Char
  | _, [] => []
  | n, c :: cs =>
    if c.utf8Size ≤ n then c :: takeBytes (n - c.utf8Size) cs
    else List.replicate n (Char.ofNat 0xFFFD)

/-- The first twelve bytes of a hash. -/
def shortHash (h : String) : String :=
  if (Encoding.utf8 h).length > 12 then String.ofList (takeBytes 12 h.toList) else h

/-- Compare the hash of the live object; `none` on a match, a summary of the drift otherwise. -/
def check (env : Env) (live : Object) (expectedHash : String) : Option String :=
  if hashObject env live = expectedHash then none
  else some ("drift detected on " ++ getKind live ++ " " ++ getNamespace live ++ "/" ++
    getName live ++ ": expected hash " ++ shortHash expectedHash ++ ", live hash " ++
    shortHash (hashObject env live))

/-- The summary of a drift up to the hash of the live object. -/
def summary (live : Object) (expectedHash : String) : String :=
  "drift detected on " ++ getKind live ++ " " ++ getNamespace live ++ "/" ++ getName live ++
    ": expected hash " ++ shortHash expectedHash ++ ", live hash "

/-- Record the hash of the object in its annotations. -/
def stamp (env : Env) (obj : Object) : Object :=
  setAnnotations obj (((getAnnotations obj).getD .empty).set hashAnnotation
    (.str (hashObject env obj)))

/-- The comparison succeeds exactly on the expected hash. -/
lemma check_eq_none {env : Env} {live : Object} {expectedHash : String} :
    check env live expectedHash = none ↔ hashObject env live = expectedHash := by
  unfold check
  split_ifs with h <;> simp [h]

/-- On another hash, the comparison tells which object has drifted and the beginnings of both
hashes. -/
lemma check_of_ne {env : Env} {live : Object} {expectedHash : String}
    (h : hashObject env live ≠ expectedHash) :
    check env live expectedHash =
      some (summary live expectedHash ++ shortHash (hashObject env live)) := if_neg h

/-- Stamping leaves everything but the metadata alone. -/
lemma get?_stamp_of_ne (env : Env) (obj : Object) {k : String} (hk : k ≠ "metadata") :
    (stamp env obj).get? k = obj.get? k := by
  unfold stamp setAnnotations
  cases h : obj.setNestedField _ ["metadata", "annotations"] with
  | none => rfl
  | some obj' => exact Object.get?_setNestedField_of_ne h hk

/-- Stamping leaves the string fields of the metadata alone, where there is a map to stamp. -/
theorem metaString_stamp {env : Env} {obj md : Object} {g : String}
    (hmd : obj.mapAt "metadata" = some md) (hg : g ≠ "annotations") :
    metaString (stamp env obj) g = metaString obj g := by
  unfold stamp setAnnotations
  rw [Object.setNestedField_two _ _ hmd, Option.getD_some]
  simp [metaString, Object.mapAt_set, hmd, Object.get?_set_of_ne _ _ hg]

end K8sAgent.Drift
