import K8sAgent.Lib.JsonTree

set_option relaxedAutoImplicit false
set_option autoImplicit false

/-!
# Untyped cluster objects

The accessors of `unstructured.Unstructured` that the agent uses. A getter that finds nothing, or
something of another type, answers the empty string. A setter given the empty string removes the
field; one that meets a value that is not a map on its way changes nothing, and the agent ignores
the error.

## Main definitions

* `K8sAgent.getKind`, `getAPIVersion`, `getName`, `getNamespace`, `getResourceVersion`,
  `getLabels`, `getAnnotations` — the getters.
* `K8sAgent.setName`, `setNamespace`, `setResourceVersion`, `setAnnotations` — the setters.
* `K8sAgent.GroupVersionResource` — a resource type.
* `K8sAgent.groupVersionKind` — the type an object says it has.

## Main results

* `K8sAgent.metaString_setString`, `K8sAgent.metaString_setString_of_ne` — the string fields of the
  metadata after a setter.
-/

namespace K8sAgent

open JsonTree

/-! ## Getters and setters -/

/-- The string at a path, or the empty string. -/
def getString (u : Object) (path : List String) : String := (u.nestedString path).toOption.getD ""

/-- Set the string at a path; the empty string removes it. -/
def setString (u : Object) (s : String) (path : List String) : Object :=
  if s = "" then u.removeNestedField path else (u.setNestedField (.str s) path).getD u

/-- The kind. -/
def getKind (u : Object) : String := getString u ["kind"]
/-- The group and version. -/
def getAPIVersion (u : Object) : String := getString u ["apiVersion"]
/-- The name. -/
def getName (u : Object) : String := getString u ["metadata", "name"]
/-- The namespace. -/
def getNamespace (u : Object) : String := getString u ["metadata", "namespace"]
/-- The version of the object in the store. -/
def getResourceVersion (u : Object) : String := getString u ["metadata", "resourceVersion"]

/-- Set the name. -/
def setName (u : Object) (s : String) : Object := setString u s ["metadata", "name"]
/-- Set the namespace. -/
def setNamespace (u : Object) (s : String) : Object := setString u s ["metadata", "namespace"]
/-- Set the version of the object in the store. -/
def setResourceVersion (u : Object) (s : String) : Object :=
  setString u s ["metadata", "resourceVersion"]

/-- The labels; a null label reads as the empty string. -/
def getLabels (u : Object) : Option Object :=
  (u.nestedNullCoercingStringMap ["metadata", "labels"]).toOption

/-- The annotations; a null annotation reads as the empty string. -/
def getAnnotations (u : Object) : Option Object :=
  (u.nestedNullCoercingStringMap ["metadata", "annotations"]).toOption

/-- Set the annotations. -/
def setAnnotations (u ann : Object) : Object :=
  (u.setNestedField (.ofObject ann) ["metadata", "annotations"]).getD u

/-! ## The type of an object -/

/-- Group, version and kind. -/
structure GroupVersionKind where
  /-- API group, empty for the core group. -/
  group : String
  /-- API version. -/
  version : String
  /-- Kind. -/
  kind : String
  deriving DecidableEq, Repr

/-- A resource type. -/
structure GroupVersionResource where
  /-- API group. -/
  group : String
  /-- API version. -/
  version : String
  /-- Resource (plural). -/
  resource : String
  deriving DecidableEq, Repr

/-- Split a group and version; `none` on more than one slash. -/
def parseGroupVersion (gv : String) : Option (String × String) :=
  match gv.toList.splitOn '/' with
  | [version] => some ("", String.ofList version)
  | [group, version] => some (String.ofList group, String.ofList version)
  | _ => none

/-- The type the object says it has; nothing if its group and version cannot be split. -/
def groupVersionKind (u : Object) : GroupVersionKind :=
  match parseGroupVersion (getAPIVersion u) with
  | some (group, version) => ⟨group, version, getKind u⟩
  | none => ⟨"", "", ""⟩

/-- Group and version as text. -/
def GroupVersionKind.groupVersion (gvk : GroupVersionKind) : String :=
  if gvk.group = "" then gvk.version else gvk.group ++ "/" ++ gvk.version

/-! ## String fields of the metadata -/

/-- A string field of the metadata. -/
def metaString (u : Object) (g : String) : String :=
  (((u.mapAt "metadata").bind (·.get? g)).bind Value.asString).getD ""

lemma getString_metadata (u : Object) (g : String) :
    getString u ["metadata", g] = metaString u g := by
  rw [getString, Object.nestedString_two, metaString]

/-- A field that is set is in a map. -/
lemma exists_metadata {u : Object} {g : String} (h : metaString u g ≠ "") :
    ∃ md, u.mapAt "metadata" = some md ∧ md.get? g = some (.str (metaString u g)) := by
  unfold metaString at h ⊢
  cases hmd : u.mapAt "metadata" with
  | none => simp [hmd] at h
  | some md =>
    cases hg : md.get? g with
    | none => simp [hmd, hg] at h
    | some v =>
      cases v with
      | str s => simp [hg]
      | _ => simp [hmd, hg, Value.asString] at h

/-- The metadata after a setter on a field of it, where there is a map to set it in. -/
lemma mapAt_setString {u md : Object} (g s : String) (hmd : u.mapAt "metadata" = some md) :
    (setString u s ["metadata", g]).mapAt "metadata" =
      some (if s = "" then md.erase g else md.set g (.str s)) := by
  unfold setString
  by_cases hs : s = ""
  · have hget : (u.get? "metadata").bind Value.asMap = some md := hmd
    simp [hs, Object.removeNestedField, hget, Object.mapAt_set]
  · simp [hs, Object.setNestedField_two _ _ hmd, Object.mapAt_set]

/-- A setter on the metadata leaves everything else alone. -/
lemma get?_setString_of_ne (u : Object) (g s : String) {k : String} (hk : k ≠ "metadata") :
    (setString u s ["metadata", g]).get? k = u.get? k := by
  unfold setString
  split_ifs
  · rw [Object.removeNestedField]
    · cases (u.get? "metadata").bind Value.asMap with
      | none => rfl
      | some md => exact Object.get?_set_of_ne _ _ hk
    · simp
  · cases h : u.setNestedField (.str s) ["metadata", g] with
    | none => rfl
    | some u' => exact Object.get?_setNestedField_of_ne h hk

/-- A setter sets its field, where there is a map to set it in. -/
theorem metaString_setString {u md : Object} (g s : String) (hmd : u.mapAt "metadata" = some md) :
    metaString (setString u s ["metadata", g]) g = s := by
  rw [metaString, mapAt_setString g s hmd]
  by_cases hs : s = "" <;> simp [hs]

/-- A setter leaves the other fields alone. -/
theorem metaString_setString_of_ne {u md : Object} {g g' : String} (s : String)
    (hmd : u.mapAt "metadata" = some md) (hg : g' ≠ g) :
    metaString (setString u s ["metadata", g]) g' = metaString u g' := by
  rw [metaString, mapAt_setString g s hmd, metaString, hmd]
  by_cases hs : s = "" <;> simp [hs, Object.get?_set_of_ne _ _ hg, Object.get?_erase_of_ne _ hg]

/-! ## Annotations -/

/-- How the getter reads one annotation. -/
def annotationText : Value → Option String
  | .null => some ""
  | v => v.asString

/-- The annotations are read one by one off the map that holds them. -/
lemma getAnnotations_eq (u : Object) :
    getAnnotations u = ((u.mapAt "metadata").bind fun md => md.mapAt "annotations").bind
      (Object.convert annotationText) := by
  rw [getAnnotations, Object.nestedNullCoercingStringMap, Object.toOption_typed,
    Object.nestedField_two]
  cases u.mapAt "metadata" with
  | none => rfl
  | some md =>
    rw [Option.bind_some, Option.bind_some, Object.mapAt, Option.bind_assoc]
    rfl

end K8sAgent
