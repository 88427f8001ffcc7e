import K8sAgent.Lib.SharedTree
import K8sAgent.Executor.Merge

set_option relaxedAutoImplicit false
set_option autoImplicit false

/-!
# What an update takes from the live object

The last stage of an update body, field by field. Each of the three helpers of
`adoptImmutableFields` is one assignment along a path: the immutable fields come from the live
object, the storage request of a claim is raised, the labels of a pod template are made to agree
with the selector. All other paths are those of the merged object.

## Main definitions

* `K8sAgent.Merge.immutableFields`, `touched` — the fields taken for a kind, and the paths changed.
* `K8sAgent.Merge.clampTo`, `labelsTo` — what the storage request and the labels are set to.
* `K8sAgent.Merge.adoptInPlace` — the stage as the source performs it, on maps it shares with the
  live object.

## Main results

* `K8sAgent.Merge.adoptImmutableFields_eq` — the stage as fields taken and one assignment.
* `K8sAgent.Merge.adoptInPlace_eq` — in place, it has the same result and leaves the live object
  alone.
-/

namespace K8sAgent.Merge

open JsonTree

/-! ## The helpers as assignments -/

/-- Where a claim asks for storage. -/
def storagePath : List String := ["spec", "resources", "requests", "storage"]
/-- Where a claim says what storage it has. -/
def capacityPath : List String := ["status", "capacity", "storage"]
/-- The labels a workload selects its pods by. -/
def selectorPath : List String := ["spec", "selector", "matchLabels"]
/-- The labels of the pod template of a workload. -/
def labelsPath : List String := ["spec", "template", "metadata", "labels"]

/-- A quantity as the agent reads it, with its text: a string that is not empty and parses. -/
def readQuantity (env : Env) (v? : Option Value) : Option (ℚ × String) :=
  (v?.bind Value.asString).bind fun s =>
    if s = "" then none else (env.parseQuantity s).map fun q => (q, s)

/-- The larger of two quantities, the first if they are equal. -/
def larger : Option (ℚ × String) → Option (ℚ × String) → Option (ℚ × String)
  | none, b => b
  | some a, none => some a
  | some a, some b => if b.1 > a.1 then some b else some a

lemma pvcStorageFloor_eq (env : Env) (live : Object) :
    pvcStorageFloor env live =
      larger (readQuantity env (live.at? storagePath))
        (readQuantity env (live.at? capacityPath)) := by
  change _ = [storagePath, capacityPath].foldl
    (fun floor path => larger floor (readQuantity env (live.at? path))) none
  unfold pvcStorageFloor
  refine List.foldl_ext _ _ _ fun floor path _ => ?_
  rw [Object.toOption_nestedString, readQuantity]
  cases (live.at? path).bind Value.asString with
  | none => cases floor <;> rfl
  | some s =>
    by_cases hs : s = ""
    · cases floor <;> simp [hs, larger]
    · cases hq : env.parseQuantity s <;> cases floor <;> simp [hs, hq, larger]

/-- What the request is set to, given the least size and the request as it is. -/
def clampTo (env : Env) (floor : Option (ℚ × String)) (request : Option Value) : Option Value :=
  floor.bind fun least =>
    match env.parseQuantity ((request.bind Value.asString).getD "") with
    | some q => if q ≥ least.1 then none else some (.str least.2)
    | none => some (.str least.2)

lemma clampPVCStorage_eq (env : Env) (merged live : Object) :
    clampPVCStorage env merged live = merged.edit storagePath
      (clampTo env (pvcStorageFloor env live) (merged.at? storagePath)) := by
  unfold clampPVCStorage clampTo getString
  simp only [Object.toOption_nestedString, storagePath]
  cases pvcStorageFloor env live with
  | none => rfl
  | some least =>
    dsimp only [Option.bind_some]
    cases env.parseQuantity (((merged.at? _).bind Value.asString).getD "") with
    | none => rfl
    | some q =>
      dsimp only
      split_ifs <;> rfl

/-- The entries of a map all of whose values are strings. -/
def stringMap (v? : Option Value) : Option Object :=
  v?.bind fun v => v.asMap.bind (Object.convert Value.asString)

/-- Labels made to agree with a selector. -/
def withSelector (labels selector : Object) : Object :=
  .ofFn (labels.keys ∪ selector.keys) fun k => (selector.get? k).or (labels.get? k)

lemma get?_withSelector (labels selector : Object) (k : String) :
    (withSelector labels selector).get? k = (selector.get? k).or (labels.get? k) := by
  rw [withSelector, Object.get?_ofFn]
  split_ifs with hk
  · rfl
  · rw [Finset.mem_union, not_or, Object.mem_keys, Object.mem_keys] at hk
    simp only [Bool.not_eq_true, Option.isSome_eq_false_iff, Option.isNone_iff_eq_none] at hk
    rw [hk.1, hk.2]
    rfl

/-- What the labels of the template are set to, given the selector and the labels as they are. One
label that is not a string makes all of them unreadable, and they count as none. -/
def labelsTo (selector labels : Option Value) : Option Value :=
  (stringMap selector).bind fun sel =>
    if sel.keys = ∅ then none
    else some (.ofObject (withSelector ((stringMap labels).getD .empty) sel))

lemma reconcileSelectorLabels_eq (obj : Object) :
    reconcileSelectorLabels obj =
      obj.edit labelsPath (labelsTo (obj.at? selectorPath) (obj.at? labelsPath)) := by
  unfold reconcileSelectorLabels labelsTo stringMap
  simp only [Object.toOption_nestedStringMap, selectorPath, labelsPath]
  cases ((obj.at? ["spec", "selector", "matchLabels"]).bind fun v =>
      v.asMap.bind (Object.convert Value.asString)) with
  | none => rfl
  | some sel =>
    dsimp only [Option.bind_some]
    split_ifs <;> rfl

/-! ## The stage as a whole -/

/-- The kinds that select pods. -/
def workloads : List String := ["Deployment", "StatefulSet", "DaemonSet", "ReplicaSet", "Job"]

/-- The fields of `spec` that are taken from the live object. -/
def immutableFields (kind : String) : List String :=
  if kind = "PersistentVolumeClaim" then
    ["volumeName", "storageClassName", "volumeMode", "dataSource", "dataSourceRef", "selector"]
  else if kind = "Service" then ["clusterIP", "clusterIPs", "ipFamilies", "ipFamilyPolicy"]
  else if kind ∈ workloads then ["selector"]
  else []

/-- The path that is assigned to after the fields have been taken. -/
def lastPath (kind : String) : Option (List String) :=
  if kind = "PersistentVolumeClaim" then some storagePath
  else if kind ∈ workloads then some labelsPath
  else none

/-- The assignment after the fields have been taken. -/
def finish (env : Env) (kind : String) (taken live : Object) : Object :=
  if kind = "PersistentVolumeClaim" then
    taken.edit storagePath
      (clampTo env (pvcStorageFloor env live) (taken.at? storagePath))
  else if kind ∈ workloads then
    taken.edit labelsPath (labelsTo (taken.at? selectorPath) (taken.at? labelsPath))
  else taken

/-- The merged object with the immutable fields of the live object. -/
def takeFields (merged spec liveSpec : Object) : Object :=
  merged.set "spec" (.ofObject (adopt (immutableFields (getKind merged)) spec liveSpec))

/-- **The fields taken from the live object, key by key.** -/
theorem get?_adopt (fields : List String) (spec liveSpec : Object) (k : String) :
    (adopt fields spec liveSpec).get? k =
      if k ∈ fields then liveSpec.get? k else spec.get? k := by
  induction fields generalizing spec with
  | nil => simp [adopt]
  | cons f fs ih =>
    have hcons : adopt (f :: fs) spec liveSpec =
        adopt fs (Object.put spec f (liveSpec.get? f)) liveSpec := by
      rw [adopt, List.foldl_cons]
      cases liveSpec.get? f <;> rfl
    rw [hcons, ih, Object.get?_put]
    by_cases hk : k = f
    · subst hk
      simp
    · simp [hk]

/-- A field `k` that is not among `fields` is left as `spec` has it. -/
lemma get?_adopt_of_not_mem {fields : List String} {k : String} (hk : k ∉ fields)
    (spec liveSpec : Object) : (adopt fields spec liveSpec).get? k = spec.get? k := by
  rw [get?_adopt, if_neg hk]

lemma adopt_nil (spec liveSpec : Object) : adopt [] spec liveSpec = spec := rfl

/-- **The stage as fields taken and one assignment.** -/
theorem adoptImmutableFields_eq (env : Env) {merged live spec liveSpec : Object}
    (hspec : merged.mapAt "spec" = some spec) (hlive : live.mapAt "spec" = some liveSpec) :
    adoptImmutableFields env merged live =
      finish env (getKind merged) (takeFields merged spec liveSpec) live := by
  unfold adoptImmutableFields finish takeFields immutableFields
  rw [hspec, hlive]
  dsimp only
  by_cases hpvc : getKind merged = "PersistentVolumeClaim"
  · simp only [hpvc, if_true]
    exact clampPVCStorage_eq _ _ _
  · by_cases hsvc : getKind merged = "Service"
    · have hnot : ("Service" : String) ∉ workloads := by decide
      simp [hsvc, hnot]
    · by_cases hw : getKind merged ∈ workloads
      · have hw' := hw
        unfold workloads at hw'
        simp only [hpvc, hsvc, hw, hw', if_true, if_false]
        exact reconcileSelectorLabels_eq _
      · have hw' := hw
        unfold workloads at hw'
        simp only [hpvc, hsvc, hw, hw', if_false, adopt_nil]
        exact (Object.set_eq_self (Object.get?_of_mapAt hspec)).symm

/-- Where one of the specs is not a map the stage does nothing. -/
lemma adoptImmutableFields_of_none (env : Env) {merged live : Object}
    (h : merged.mapAt "spec" = none ∨ live.mapAt "spec" = none) :
    adoptImmutableFields env merged live = merged := by
  unfold adoptImmutableFields
  rcases h with h | h
  · rw [h]
  · rw [h]
    cases merged.mapAt "spec" <;> rfl

/-! ## The new spec -/

/-- The last assignment, seen from `spec`. -/
def finishSpec (env : Env) (kind : String) (floor : Option (ℚ × String)) (taken : Object) :
    Object :=
  if kind = "PersistentVolumeClaim" then
    taken.edit ["resources", "requests", "storage"]
      (clampTo env floor (taken.at? ["resources", "requests", "storage"]))
  else if kind ∈ workloads then
    taken.edit ["template", "metadata", "labels"]
      (labelsTo (taken.at? ["selector", "matchLabels"])
        (taken.at? ["template", "metadata", "labels"]))
  else taken

lemma finish_set (env : Env) (kind : String) (merged taken live : Object) :
    finish env kind (merged.set "spec" (.ofObject taken)) live =
      merged.set "spec" (.ofObject (finishSpec env kind (pvcStorageFloor env live) taken)) := by
  have hat : ∀ p, (merged.set "spec" (.ofObject taken)).at? ("spec" :: p) = taken.at? p := by
    intro p
    rw [Object.at?_set, if_pos rfl]
    rfl
  unfold finish finishSpec
  split_ifs
  · rw [storagePath, hat, Object.edit_set_cons]
  · rw [labelsPath, selectorPath, hat, hat, Object.edit_set_cons]
  · rfl

/-- **The stage changes `spec` only**, to what depends on the kind, the two specs and the least
size of a claim. -/
theorem adoptImmutableFields_eq_set (env : Env) {merged live spec liveSpec : Object}
    (hspec : merged.mapAt "spec" = some spec) (hlive : live.mapAt "spec" = some liveSpec) :
    adoptImmutableFields env merged live =
      merged.set "spec" (.ofObject (finishSpec env (getKind merged) (pvcStorageFloor env live)
        (adopt (immutableFields (getKind merged)) spec liveSpec))) := by
  rw [adoptImmutableFields_eq env hspec hlive, takeFields, finish_set]

/-- The new spec depends on the merged object through its kind and its spec only. -/
lemma get?_spec_congr (env : Env) {merged merged' : Object} (live : Object)
    (hspec : merged.get? "spec" = merged'.get? "spec") (hkind : getKind merged = getKind merged') :
    (adoptImmutableFields env merged live).get? "spec" =
      (adoptImmutableFields env merged' live).get? "spec" := by
  have hmap : merged.mapAt "spec" = merged'.mapAt "spec" := by
    rw [Object.mapAt, hspec, Object.mapAt]
  cases hm : merged.mapAt "spec" with
  | none =>
    rw [adoptImmutableFields_of_none env (.inl hm),
      adoptImmutableFields_of_none env (.inl (hmap ▸ hm)), hspec]
  | some spec =>
    cases hl : live.mapAt "spec" with
    | none =>
      rw [adoptImmutableFields_of_none env (.inr hl), adoptImmutableFields_of_none env (.inr hl),
        hspec]
    | some liveSpec =>
      rw [adoptImmutableFields_eq_set env hm hl, adoptImmutableFields_eq_set env (hmap ▸ hm) hl,
        Object.get?_set_self, Object.get?_set_self, hkind]

/-! ## Every path of the result -/

/-- The paths that are changed. -/
def touched (kind : String) : List (List String) :=
  (immutableFields kind).map (fun f => ["spec", f]) ++ (lastPath kind).toList

/-- The fields taken are not on the way to what is assigned to afterwards, nor behind it. -/
lemma apart_lastPath {kind f : String} {p : List String} (hf : f ∈ immutableFields kind)
    (hp : lastPath kind = some p) : Apart p ["spec", f] := by
  have hclaim : ∀ f ∈ immutableFields "PersistentVolumeClaim", Apart storagePath ["spec", f] := by
    decide
  have hwork : ∀ kind ∈ workloads, ∀ f ∈ immutableFields kind, Apart labelsPath ["spec", f] := by
    decide
  unfold lastPath at hp
  split_ifs at hp with hpvc hw
  · obtain rfl := Option.some.inj hp
    exact hclaim f (hpvc ▸ hf)
  · obtain rfl := Option.some.inj hp
    exact hwork kind hw f hf

/-- The last assignment changes nothing at a path `q` apart from `lastPath kind`. -/
lemma at?_finish (env : Env) {kind : String} (taken live : Object) {q : List String}
    (hq : ∀ p, lastPath kind = some p → Apart p q) :
    (finish env kind taken live).at? q = taken.at? q := by
  unfold lastPath at hq
  unfold finish
  split_ifs at hq ⊢ with hpvc hw
  · exact Object.at?_edit_of_apart _ _ (hq _ rfl)
  · exact Object.at?_edit_of_apart _ _ (hq _ rfl)
  · rfl

/-- A path that none of the fields taken leads to. -/
lemma at?_takeFields {merged spec : Object} (liveSpec : Object)
    (hspec : merged.mapAt "spec" = some spec) {q : List String}
    (hq : ∀ f ∈ immutableFields (getKind merged), Apart ["spec", f] q) :
    (takeFields merged spec liveSpec).at? q = merged.at? q := by
  unfold takeFields
  cases hfields : immutableFields (getKind merged) with
  | nil => rw [adopt_nil, Object.set_eq_self (Object.get?_of_mapAt hspec)]
  | cons f₀ fs =>
    rw [← hfields]
    have hf₀ : Apart ["spec", f₀] q := hq f₀ (by simp [hfields])
    cases q with
    | nil => exact absurd hf₀.symm (not_apart_nil _)
    | cons k ks =>
      rw [Object.at?_set]
      split_ifs with hk
      · subst hk
        cases ks with
        | nil => exact absurd hf₀.of_cons.symm (not_apart_nil _)
        | cons f ks =>
          have hf : f ∉ immutableFields (getKind merged) := fun hf =>
            (hq f hf).1 (List.prefix_append ["spec", f] ks)
          rw [Object.at?_of_mapAt hspec, Object.at?_cons, ← get?_adopt_of_not_mem hf spec liveSpec]
          rfl
      · rfl

/-- **A field that is taken is that of the live object**, present or absent. -/
theorem at?_adopted (env : Env) {merged live spec liveSpec : Object}
    (hspec : merged.mapAt "spec" = some spec) (hlive : live.mapAt "spec" = some liveSpec)
    {f : String} (hf : f ∈ immutableFields (getKind merged)) :
    (adoptImmutableFields env merged live).at? ["spec", f] = live.at? ["spec", f] := by
  rw [adoptImmutableFields_eq env hspec hlive, at?_finish env _ _ fun p hp => apart_lastPath hf hp,
    takeFields, Object.at?_set, if_pos rfl, Object.at?_of_mapAt hlive]
  change ((adopt _ spec liveSpec).get? f).bind _ = (liveSpec.get? f).bind _
  rw [get?_adopt, if_pos hf]

/-- **Every other path is that of the merged object.** -/
theorem at?_untouched (env : Env) {merged live spec liveSpec : Object}
    (hspec : merged.mapAt "spec" = some spec) (hlive : live.mapAt "spec" = some liveSpec)
    {q : List String} (hq : ∀ p ∈ touched (getKind merged), Apart p q) :
    (adoptImmutableFields env merged live).at? q = merged.at? q := by
  rw [adoptImmutableFields_eq env hspec hlive, at?_finish, at?_takeFields liveSpec hspec]
  · exact fun f hf => hq _ (List.mem_append_left _ (List.mem_map_of_mem hf))
  · exact fun p hp => hq p (List.mem_append_right _ (by simp [hp]))

/-! ## In place -/

/-- The stage as the source performs it: values of the live object are stored in the merged one by
reference, and the assignments are made in the maps that are there. -/
def adoptInPlace (env : Env) (s : Shared) : Shared :=
  match s.tree.mapAt "spec", s.source.mapAt "spec" with
  | some _, some _ =>
    let kind := getKind s.tree
    let taken := (immutableFields kind).foldl (fun s f => s.share ["spec", f]) s
    if kind = "PersistentVolumeClaim" then
      taken.assign storagePath
        (clampTo env (pvcStorageFloor env taken.source) (taken.tree.at? storagePath))
    else if kind ∈ workloads then
      taken.assign labelsPath
        (labelsTo (taken.tree.at? selectorPath) (taken.tree.at? labelsPath))
    else taken
  | _, _ => s

/-- Storing the live value of the field `f` below `spec` is adopting this one field. -/
lemma tree_share_field {s : Shared} {spec liveSpec : Object} (f : String)
    (hspec : s.tree.mapAt "spec" = some spec) (hlive : s.source.mapAt "spec" = some liveSpec) :
    (s.share ["spec", f]).tree = s.tree.set "spec" (.ofObject (adopt [f] spec liveSpec)) := by
  have hat : s.source.at? ["spec", f] = liveSpec.get? f := by
    rw [Object.at?_of_mapAt hlive, Object.at?_cons]
    exact Option.bind_fun_some _
  rw [Shared.tree_share, hat]
  cases hf : liveSpec.get? f with
  | some v => simp [Object.edit, Object.setNestedField_two _ _ hspec, adopt, hf]
  | none =>
    have hget : (s.tree.get? "spec").bind Value.asMap = some spec := hspec
    simp [Object.removeNestedField, hget, adopt, hf]

/-- **The fields taken, in place**: the tree is as it should be, the source as it was, and only
fields of `spec` are shared.

**Proof sketch.** Induction on the fields. A field of `spec` is stored in `spec`, which is not
shared itself, so nothing goes through to the source. -/
theorem foldl_share (fields : List String) {s : Shared} {spec liveSpec : Object}
    (hspec : s.tree.mapAt "spec" = some spec) (hlive : s.source.mapAt "spec" = some liveSpec)
    (hlinks : ∀ l ∈ s.links, ∃ f, l = ["spec", f]) :
    (fields.foldl (fun s f => s.share ["spec", f]) s).tree =
        s.tree.set "spec" (.ofObject (adopt fields spec liveSpec)) ∧
      (fields.foldl (fun s f => s.share ["spec", f]) s).source = s.source ∧
      ∀ l ∈ (fields.foldl (fun s f => s.share ["spec", f]) s).links,
        l ∈ s.links ∨ ∃ f ∈ fields, l = ["spec", f] := by
  induction fields generalizing s spec with
  | nil =>
    refine ⟨?_, rfl, fun l hl => .inl hl⟩
    rw [adopt_nil, Object.set_eq_self (Object.get?_of_mapAt hspec)]
    rfl
  | cons f fs ih =>
    have hthrough : ¬s.Through ["spec", f] := by
      rintro ⟨l, hl, hpre, hne⟩
      obtain ⟨g, rfl⟩ := hlinks l hl
      exact hne (hpre.eq_of_length rfl)
    have htree := tree_share_field f hspec hlive
    have hsource := Shared.source_share hthrough
    have hlinks' : ∀ l ∈ (s.share ["spec", f]).links, ∃ g, l = ["spec", g] := by
      intro l hl
      rcases Shared.mem_links_share hl with rfl | hl
      · exact ⟨f, rfl⟩
      · exact hlinks l hl
    have hspec' : (s.share ["spec", f]).tree.mapAt "spec" = some (adopt [f] spec liveSpec) := by
      rw [htree, Object.mapAt_set, if_pos rfl]
      rfl
    obtain ⟨hT, hS, hL⟩ := ih hspec' (hsource ▸ hlive) hlinks'
    refine ⟨?_, hS.trans hsource, fun l hl => ?_⟩
    · rw [List.foldl_cons, hT, htree, Object.set_set]
      rfl
    · rcases hL l hl with hl | ⟨g, hg, rfl⟩
      · rcases Shared.mem_links_share hl with rfl | hl
        · exact .inr ⟨f, by simp, rfl⟩
        · exact .inl hl
      · exact .inr ⟨g, by simp [hg], rfl⟩

/-- **In place, the stage has the same result and leaves the live object alone**, although the
merged object holds parts of it.

**Proof sketch.** What is shared are fields of `spec`, and the assignments after them are made
behind other fields of `spec`. -/
theorem adoptInPlace_eq (env : Env) (merged live : Object) :
    (adoptInPlace env { tree := merged, source := live }).tree =
        adoptImmutableFields env merged live ∧
      (adoptInPlace env { tree := merged, source := live }).source = live := by
  unfold adoptInPlace
  dsimp only
  cases hspec : merged.mapAt "spec" with
  | none => exact ⟨(adoptImmutableFields_of_none env (.inl hspec)).symm, rfl⟩
  | some spec =>
    cases hlive : live.mapAt "spec" with
    | none => exact ⟨(adoptImmutableFields_of_none env (.inr hlive)).symm, rfl⟩
    | some liveSpec =>
      obtain ⟨htree, hsource, hlinks⟩ := foldl_share (immutableFields (getKind merged))
        (s := { tree := merged, source := live }) hspec hlive (by simp)
      have hthrough : ∀ p, lastPath (getKind merged) = some p →
          ¬Shared.Through ((immutableFields (getKind merged)).foldl
            (fun s f => s.share ["spec", f]) { tree := merged, source := live }) p := by
        rintro p hp ⟨l, hl, hpre, -⟩
        rcases hlinks l hl with hl | ⟨f, hf, rfl⟩
        · cases hl
        · exact (apart_lastPath hf hp).2 hpre
      rw [adoptImmutableFields_eq env hspec hlive, finish]
      unfold lastPath at hthrough
      change _ = takeFields merged spec liveSpec at htree
      split_ifs at hthrough ⊢ with hpvc hw
      · refine ⟨?_, ?_⟩
        · rw [Shared.assign, htree, hsource]
        · rw [Shared.source_assign _ (hthrough _ rfl), hsource]
      · refine ⟨?_, ?_⟩
        · rw [Shared.assign, htree]
        · rw [Shared.source_assign _ (hthrough _ rfl), hsource]
      · exact ⟨htree, hsource⟩

/-! ## Exact and local -/

/-- **What an update takes from the live object is exact and local.** The listed fields of the
kind are those of the live object, present or absent, whatever the manifest says; every path that
does not lead to one of them, to the storage request of a claim or to the labels of a pod template,
and does not continue one of these, holds what the merged object holds; and the live object, parts
of which the result holds by reference, is as before. -/
theorem adoption_exact_and_local (env : Env) {live manifest spec liveSpec : Object}
    (hspec : (mergeForUpdate live manifest).mapAt "spec" = some spec)
    (hlive : live.mapAt "spec" = some liveSpec) :
    (∀ f ∈ immutableFields (getKind (mergeForUpdate live manifest)),
      (adoptImmutableFields env (mergeForUpdate live manifest) live).at? ["spec", f] =
        live.at? ["spec", f]) ∧
    (∀ q, (∀ p ∈ touched (getKind (mergeForUpdate live manifest)), Apart p q) →
      (adoptImmutableFields env (mergeForUpdate live manifest) live).at? q =
        (mergeForUpdate live manifest).at? q) ∧
    (adoptInPlace env { tree := mergeForUpdate live manifest, source := live }).tree =
      adoptImmutableFields env (mergeForUpdate live manifest) live ∧
    (adoptInPlace env { tree := mergeForUpdate live manifest, source := live }).source = live :=
  ⟨fun _ hf => at?_adopted env hspec hlive hf, fun _ hq => at?_untouched env hspec hlive hq,
    (adoptInPlace_eq env _ live).1, (adoptInPlace_eq env _ live).2⟩

/-- A service with its address. -/
def liveService : Object := .ofList [("kind", .str "Service"),
  ("spec", .ofObject (.ofList [("clusterIP", .str "10.0.0.7"), ("type", .str "ClusterIP")]))]

/-- A manifest for it that asks for another address and other families. -/
def serviceManifest : Object := .ofList [("kind", .str "Service"),
  ("spec", .ofObject (.ofList [("clusterIP", .str "None"), ("ipFamilies", .ofSlice [.str "IPv6"]),
    ("type", .str "NodePort")]))]

/-- The address stays, families are not introduced, and the type of the manifest is set. -/
theorem adoption_of_service :
    (adoptImmutableFields (.ofTables {}) (mergeForUpdate liveService serviceManifest)
      liveService).at? ["spec", "clusterIP"] = some (.str "10.0.0.7") ∧
    (adoptImmutableFields (.ofTables {}) (mergeForUpdate liveService serviceManifest)
      liveService).at? ["spec", "ipFamilies"] = none ∧
    (adoptImmutableFields (.ofTables {}) (mergeForUpdate liveService serviceManifest)
      liveService).at? ["spec", "type"] = some (.str "NodePort") := by
  obtain ⟨spec, hspec⟩ := Option.isSome_iff_exists.mp
    (by decide +kernel : ((mergeForUpdate liveService serviceManifest).mapAt "spec").isSome)
  obtain ⟨liveSpec, hlive⟩ := Option.isSome_iff_exists.mp
    (by decide +kernel : (liveService.mapAt "spec").isSome)
  obtain ⟨htaken, hrest, -⟩ := adoption_exact_and_local (.ofTables {}) hspec hlive
  refine ⟨?_, ?_, ?_⟩
  · rw [htaken "clusterIP" (by decide +kernel)]
    decide +kernel
  · rw [htaken "ipFamilies" (by decide +kernel)]
    decide +kernel
  · rw [hrest ["spec", "type"] (by decide +kernel)]
    decide +kernel

end K8sAgent.Merge
