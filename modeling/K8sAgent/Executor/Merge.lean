import K8sAgent.Executor.Drift

set_option relaxedAutoImplicit false
set_option autoImplicit false

/-!
# The body of an update

How `apply` builds the new state of an object that exists (`internal/executor/executor.go`): the
manifest is laid over the live object, and fields the API server treats as immutable or grow-only
are taken from the live object.

## Main definitions

* `K8sAgent.Merge.mergeMap` — one map laid over another.
* `K8sAgent.Merge.adoptImmutableFields`, `reconcileSelectorLabels`, `clampPVCStorage` — what is
  taken from the live object.
* `K8sAgent.Merge.updateBody` — the body of the update.

## Main results

* `K8sAgent.Merge.get?_mergeMap` — the merged map, key by key.
* `K8sAgent.Merge.getName_updateBody`, `K8sAgent.Merge.getResourceVersion_updateBody` — an update
  addresses the object of the manifest and carries the version that was fetched.
-/

namespace K8sAgent.Merge

open JsonTree

/-! ## Laying a manifest over the live object -/

/-- The value at a key of the merged map, where the base has `base?` and the override a value: a
null removes the key, a map over a map is merged, and any other value wins. -/
def overlay (base? : Option Value) : Value → Option Value
  | .null => none
  | .obj keys vals => match base?.bind Value.asMap with
    | some base => some (.ofObject (.ofFn (base.keys ∪ keys) fun k =>
        if h : k ∈ keys then overlay (base.get? k) (vals ⟨k, h⟩) else base.get? k))
    | none => some (.obj keys vals)
  | v => some v

/-- `override` laid over `base`. -/
def mergeMap (base override : Object) : Object :=
  .ofFn (base.keys ∪ override.keys) fun k => match override.get? k with
    | some v => overlay (base.get? k) v
    | none => base.get? k

/-- **The merged map, key by key**: where `override` has the key its value is laid over that of
`base`, elsewhere `base` counts. -/
theorem get?_mergeMap (base override : Object) (k : String) :
    (mergeMap base override).get? k = match override.get? k with
      | some v => overlay (base.get? k) v
      | none => base.get? k := by
  rw [mergeMap, Object.get?_ofFn]
  by_cases hk : k ∈ base.keys ∪ override.keys
  · rw [if_pos hk]
  · rw [if_neg hk]
    rw [Finset.mem_union, not_or, Object.mem_keys, Object.mem_keys] at hk
    simp only [Bool.not_eq_true, Option.isSome_eq_false_iff, Option.isNone_iff_eq_none] at hk
    rw [hk.1, hk.2]

/-- A map over a map is the merged map. -/
lemma overlay_ofObject {base? : Option Value} {base : Object} (override : Object)
    (h : base?.bind Value.asMap = some base) :
    overlay base? (.ofObject override) = some (.ofObject (mergeMap base override)) := by
  obtain ⟨keys, vals⟩ := override
  have hmerge : (Object.ofFn (base.keys ∪ keys) fun k =>
      if h : k ∈ keys then overlay (base.get? k) (vals ⟨k, h⟩) else base.get? k) =
        mergeMap base ⟨keys, vals⟩ := by
    refine Object.ext_get? fun k => ?_
    rw [get?_mergeMap, Object.get?_ofFn]
    by_cases hk : k ∈ keys
    · simp [Object.get?, hk]
    · by_cases hb : k ∈ base.keys <;> simp [Object.get?, hk, hb]
  rw [← hmerge]
  simp only [Value.ofObject, overlay, h]

/-- The merged object of an update. -/
def mergeForUpdate (live desired : Object) : Object := mergeMap live desired

/-! ## Fields taken from the live object -/

/-- Take the listed fields from the live map: those it lacks are removed. -/
def adopt (fields : List String) (spec liveSpec : Object) : Object :=
  fields.foldl (fun spec f => match liveSpec.get? f with
    | some v => spec.set f v
    | none => spec.erase f) spec

/-- Make the labels of the pod template agree with the selector. -/
def reconcileSelectorLabels (obj : Object) : Object :=
  match (obj.nestedStringMap ["spec", "selector", "matchLabels"]).toOption with
  | none => obj
  | some selector =>
    if selector.keys = ∅ then obj
    else
      let path := ["spec", "template", "metadata", "labels"]
      let labels := (obj.nestedStringMap path).toOption.getD .empty
      (obj.setNestedField (.ofObject (.ofFn (labels.keys ∪ selector.keys) fun k =>
        (selector.get? k).or (labels.get? k))) path).getD obj

/-- The larger of the live claim's request and its capacity, with the text it was given as. -/
def pvcStorageFloor (env : Env) (live : Object) : Option (ℚ × String) :=
  [["spec", "resources", "requests", "storage"], ["status", "capacity", "storage"]].foldl
    (fun floor path => match (live.nestedString path).toOption with
      | none => floor
      | some s => if s = "" then floor else match env.parseQuantity s with
        | none => floor
        | some q => match floor with
          | none => some (q, s)
          | some (q', s') => if q > q' then some (q, s) else some (q', s')) none

/-- Raise the storage request to what the live claim has. -/
def clampPVCStorage (env : Env) (merged live : Object) : Object :=
  let path := ["spec", "resources", "requests", "storage"]
  match pvcStorageFloor env live with
  | none => merged
  | some (floor, text) =>
    let clamped := (merged.setNestedField (.str text) path).getD merged
    match env.parseQuantity (getString merged path) with
    | some q => if q ≥ floor then merged else clamped
    | none => clamped

/-- Take the fields that the API server treats as immutable or grow-only from the live object. -/
def adoptImmutableFields (env : Env) (merged live : Object) : Object :=
  match merged.mapAt "spec", live.mapAt "spec" with
  | some spec, some liveSpec =>
    let taking (fields : List String) := merged.set "spec" (.ofObject (adopt fields spec liveSpec))
    if getKind merged = "PersistentVolumeClaim" then
      clampPVCStorage env (taking ["volumeName", "storageClassName", "volumeMode", "dataSource",
        "dataSourceRef", "selector"]) live
    else if getKind merged = "Service" then
      taking ["clusterIP", "clusterIPs", "ipFamilies", "ipFamilyPolicy"]
    else if getKind merged ∈ ["Deployment", "StatefulSet", "DaemonSet", "ReplicaSet", "Job"] then
      reconcileSelectorLabels (taking ["selector"])
    else merged
  | _, _ => merged

/-- The body of the update of a live object to a manifest. -/
def updateBody (env : Env) (live obj : Object) : Object :=
  Drift.stamp env (adoptImmutableFields env
    (setResourceVersion (mergeForUpdate live obj) (getResourceVersion live)) live)

/-! ## What an update addresses -/

/-- Setting a path below `spec` leaves the other fields of an object alone. -/
lemma get?_setSpec (obj : Object) (v : Value) (fs : List String) {g : String} (hg : g ≠ "spec") :
    ((obj.setNestedField v ("spec" :: fs)).getD obj).get? g = obj.get? g := by
  cases h : obj.setNestedField v ("spec" :: fs) with
  | none => rfl
  | some obj' => exact Object.get?_setNestedField_of_ne h hg

lemma get?_reconcileSelectorLabels (obj : Object) {g : String} (hg : g ≠ "spec") :
    (reconcileSelectorLabels obj).get? g = obj.get? g := by
  unfold reconcileSelectorLabels
  split
  · rfl
  · split_ifs
    · rfl
    · exact get?_setSpec obj _ _ hg

lemma get?_clampPVCStorage (env : Env) (merged live : Object) {g : String} (hg : g ≠ "spec") :
    (clampPVCStorage env merged live).get? g = merged.get? g := by
  unfold clampPVCStorage
  cases pvcStorageFloor env live with
  | none => rfl
  | some floor =>
    simp only
    split
    · split_ifs
      · rfl
      · exact get?_setSpec merged _ _ hg
    · exact get?_setSpec merged _ _ hg

/-- Only `spec` is changed by what is taken from the live object. -/
lemma get?_adoptImmutableFields (env : Env) (merged live : Object) {g : String}
    (hg : g ≠ "spec") : (adoptImmutableFields env merged live).get? g = merged.get? g := by
  unfold adoptImmutableFields
  cases merged.mapAt "spec" with
  | none => rfl
  | some spec =>
    cases live.mapAt "spec" with
    | none => rfl
    | some liveSpec =>
      simp only
      split_ifs
      · rw [get?_clampPVCStorage _ _ _ hg, Object.get?_set_of_ne _ _ hg]
      · rw [Object.get?_set_of_ne _ _ hg]
      · rw [get?_reconcileSelectorLabels _ hg, Object.get?_set_of_ne _ _ hg]
      · rfl

/-- The metadata of a manifest that names its object is laid over that of the live object. -/
lemma exists_mapAt_mergeForUpdate (live : Object) {obj : Object} (hname : getName obj ≠ "") :
    ∃ md, (mergeForUpdate live obj).mapAt "metadata" = some md ∧
      md.get? "name" = some (.str (getName obj)) := by
  rw [getName, getString_metadata] at hname ⊢
  obtain ⟨md, hmd, hget⟩ := exists_metadata hname
  unfold Object.mapAt at hmd ⊢
  obtain ⟨v, hv, hvmap⟩ := Option.bind_eq_some_iff.mp hmd
  obtain rfl := Value.eq_ofObject hvmap
  rw [mergeForUpdate, get?_mergeMap, hv]
  simp only
  cases hbase : (live.get? "metadata").bind Value.asMap with
  | none =>
    refine ⟨md, ?_, hget⟩
    simp [Value.ofObject, overlay, hbase, Value.asMap]
  | some base =>
    refine ⟨mergeMap base md, ?_, ?_⟩
    · rw [overlay_ofObject md hbase]
      rfl
    · rw [get?_mergeMap, hget]
      rfl

/-- The metadata of the body of an update, up to the annotations. -/
lemma metaString_updateBody {env : Env} {live obj : Object} {g : String}
    (hname : getName obj ≠ "") (hg : g ≠ "annotations") :
    metaString (updateBody env live obj) g =
      metaString (setResourceVersion (mergeForUpdate live obj) (getResourceVersion live)) g := by
  obtain ⟨md, hmd, -⟩ := exists_mapAt_mergeForUpdate live hname
  have hset := mapAt_setString "resourceVersion" (getResourceVersion live) hmd
  have hadopt : ∀ o : Object, (adoptImmutableFields env o live).mapAt "metadata" =
      o.mapAt "metadata" := fun o => by
    unfold Object.mapAt
    rw [get?_adoptImmutableFields _ _ _ (by decide)]
  unfold updateBody setResourceVersion
  rw [Drift.metaString_stamp ((hadopt _).trans hset) hg, metaString, hadopt, metaString]

/-- **An update addresses the object the manifest names.** -/
theorem getName_updateBody {env : Env} {live obj : Object} (hname : getName obj ≠ "") :
    getName (updateBody env live obj) = getName obj := by
  obtain ⟨md, hmd, hget⟩ := exists_mapAt_mergeForUpdate live hname
  rw [getName, getString_metadata, metaString_updateBody hname (by decide), setResourceVersion,
    metaString_setString_of_ne _ hmd (by decide), metaString, hmd]
  simp [hget]

/-- **An update carries the version that was fetched.** -/
theorem getResourceVersion_updateBody {env : Env} {live obj : Object} (hname : getName obj ≠ "") :
    getResourceVersion (updateBody env live obj) = getResourceVersion live := by
  obtain ⟨md, hmd, -⟩ := exists_mapAt_mergeForUpdate live hname
  rw [getResourceVersion, getString_metadata, metaString_updateBody hname (by decide),
    setResourceVersion, metaString_setString _ _ hmd]

end K8sAgent.Merge
