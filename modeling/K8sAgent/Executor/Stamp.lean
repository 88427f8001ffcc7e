import K8sAgent.Lib.JsonPath
import K8sAgent.Executor.Drift

set_option relaxedAutoImplicit false
set_option autoImplicit false

/-!
# What a stamp changes and what a hash sees

`Stamp` reads and writes the annotations through accessors for maps of strings, while `HashObject`
edits the tree. The two views differ: one annotation that is neither a string nor null makes the
getter answer nothing, and the setter then replaces the whole map; a null annotation comes back as
the empty string. The hash leaves out the metadata the API server manages and the stamp itself. It
does not leave out the status, which controllers write.

## Main definitions

* `K8sAgent.Drift.withoutStamp` — an object without the hash annotation.
* `K8sAgent.Drift.StampLaw` — a stamp records the hash and changes nothing else.
* `K8sAgent.Drift.withoutManaged` — an object without the state that servers and controllers write.

## Main results

* `K8sAgent.Drift.stampLaw_iff` — the annotations for which a stamp changes nothing else.
* `K8sAgent.Drift.hash_eq_iff_iff` — the pairs of objects whose hashes are equal exactly when they
  agree without the managed state.
-/

namespace K8sAgent.Drift

open Encoding JsonTree

/-! ## Annotations without the stamp -/

/-- Annotations without the hash annotation; a map that becomes empty counts as absent. -/
def dropStamp (ann? : Option Value) : Option Value :=
  match ann?.bind Value.asMap with
  | none => ann?
  | some ann =>
    if (ann.erase hashAnnotation).keys = ∅ then none
    else some (.ofObject (ann.erase hashAnnotation))

lemma dropStamp_ofObject (ann : Object) : dropStamp (some (.ofObject ann)) =
    if (ann.erase hashAnnotation).keys = ∅ then none
    else some (.ofObject (ann.erase hashAnnotation)) := rfl

lemma dropStamp_of_not_map {v : Value} (h : v.asMap = none) : dropStamp (some v) = some v := by
  rw [dropStamp, Option.bind_some, h]

/-- An object without the hash annotation. -/
def withoutStamp (obj : Object) : Object :=
  match obj.mapAt "metadata" with
  | none => obj
  | some md =>
    obj.set "metadata" (.ofObject (Object.put md "annotations" (dropStamp (md.get? "annotations"))))

/-! ## The stripped object, key by key -/

lemma stripped_of_mapAt {obj md : Object} (h : obj.mapAt "metadata" = some md) :
    stripped obj = obj.set "metadata" (.ofObject (strippedMeta md)) := by
  rw [stripped, h]

lemma stripped_of_mapAt_none {obj : Object} (h : obj.mapAt "metadata" = none) :
    stripped obj = obj := by
  rw [stripped, h]

/-- The metadata that are hashed are those without the volatile fields and without the stamp. -/
lemma strippedMeta_eq (md : Object) : strippedMeta md =
    Object.put (volatileMetaKeys.foldl Object.erase md) "annotations"
      (dropStamp (md.get? "annotations")) := by
  have hget : (volatileMetaKeys.foldl Object.erase md).get? "annotations" =
      md.get? "annotations" := by
    rw [Object.get?_foldl_erase, if_neg (by decide)]
  have hmap : (volatileMetaKeys.foldl Object.erase md).mapAt "annotations" =
      (md.get? "annotations").bind Value.asMap := congrArg (Option.bind · Value.asMap) hget
  simp only [strippedMeta, dropStamp, hmap]
  cases hann : (md.get? "annotations").bind Value.asMap with
  | none =>
    refine Object.ext_get? fun k => ?_
    rw [Object.get?_put]
    split_ifs with hk
    · rw [hk, hget]
    · rfl
  | some ann =>
    by_cases he : (ann.erase hashAnnotation).keys = ∅
    · simp only [he, if_true, Object.put]
    · simp only [he, if_false, Object.put]

/-! ## A stamp as an edit of the annotations -/

/-- The annotations as the getter reads them, none if it cannot. -/
def readable (md : Object) : Object :=
  (((md.get? "annotations").bind Value.asMap).bind (Object.convert annotationText)).getD .empty

/-- The object with its annotations replaced. -/
def annotated (obj md ann : Object) : Object :=
  obj.set "metadata" (.ofObject (md.set "annotations" (.ofObject ann)))

lemma mapAt_annotated (obj md ann : Object) : (annotated obj md ann).mapAt "metadata" =
    some (md.set "annotations" (.ofObject ann)) := by
  rw [annotated, Object.mapAt_set, if_pos rfl, Value.asMap_ofObject]

lemma annotated_annotated (obj md ann ann' : Object) :
    annotated (annotated obj md ann) (md.set "annotations" (.ofObject ann)) ann' =
      annotated obj md ann' := by
  rw [annotated, annotated, Object.set_set, Object.set_set, annotated]

/-- **A stamp replaces the annotations** by what the getter reads, with the hash added. -/
theorem stamp_eq (env : Env) {obj md : Object} (hmd : obj.mapAt "metadata" = some md) :
    stamp env obj =
      annotated obj md ((readable md).set hashAnnotation (.str (hashObject env obj))) := by
  rw [stamp, setAnnotations, Object.setNestedField_two _ _ hmd, Option.getD_some,
    getAnnotations_eq, hmd, Option.bind_some]
  rfl

/-- The hash added to a map of annotations is the stamp that is dropped again. -/
lemma dropStamp_set (ann : Object) (v : Value) :
    dropStamp (some (.ofObject (ann.set hashAnnotation v))) =
      dropStamp (some (.ofObject ann)) := by
  have herase : (ann.set hashAnnotation v).erase hashAnnotation = ann.erase hashAnnotation := by
    refine Object.ext_get? fun k => ?_
    rw [Object.get?_erase, Object.get?_erase, Object.get?_set]
    split_ifs <;> rfl
  rw [dropStamp_ofObject, dropStamp_ofObject, herase]

/-- Replaced annotations change the object apart from the stamp exactly as far as they change the
annotations apart from the stamp. -/
lemma withoutStamp_annotated {obj md : Object} (ann : Object)
    (hmd : obj.mapAt "metadata" = some md) :
    withoutStamp (annotated obj md ann) = withoutStamp obj ↔
      dropStamp (some (.ofObject ann)) = dropStamp (md.get? "annotations") := by
  have hleft : withoutStamp (annotated obj md ann) = obj.set "metadata"
      (.ofObject (Object.put md "annotations" (dropStamp (some (.ofObject ann))))) := by
    have hput : ∀ v?, Object.put (md.set "annotations" (.ofObject ann)) "annotations" v? =
        Object.put md "annotations" v? := by
      intro v?
      refine Object.ext_get? fun k => ?_
      rw [Object.get?_put, Object.get?_put, Object.get?_set]
      split_ifs <;> rfl
    unfold withoutStamp
    rw [mapAt_annotated]
    simp only [Object.get?_set_self, hput]
    rw [annotated, Object.set_set]
  have hright : withoutStamp obj = obj.set "metadata"
      (.ofObject (Object.put md "annotations" (dropStamp (md.get? "annotations")))) := by
    rw [withoutStamp, hmd]
  rw [hleft, hright]
  constructor
  · intro h
    have hmap := congrArg (fun m => (m.mapAt "metadata").bind (·.get? "annotations")) h
    simpa [Object.mapAt_set, Object.get?_put] using hmap
  · intro h
    rw [h]

/-- The stripped object depends on the annotations only apart from the stamp. -/
lemma stripped_annotated {obj md ann : Object} (hmd : obj.mapAt "metadata" = some md)
    (h : dropStamp (some (.ofObject ann)) = dropStamp (md.get? "annotations")) :
    stripped (annotated obj md ann) = stripped obj := by
  have hmeta : strippedMeta (md.set "annotations" (.ofObject ann)) = strippedMeta md := by
    refine Object.ext_get? fun k => ?_
    rw [strippedMeta_eq, strippedMeta_eq, Object.get?_put, Object.get?_put, Object.get?_set_self, h,
      Object.get?_foldl_erase, Object.get?_foldl_erase, Object.get?_set]
    split_ifs <;> rfl
  rw [stripped_of_mapAt (mapAt_annotated obj md ann), stripped_of_mapAt hmd, hmeta, annotated,
    Object.set_set]

/-! ## Which annotations survive a stamp -/

/-- The getter and the tree agree on the annotations apart from the stamp: they are absent, or a map
in which every other annotation is a string, and the stamp too can be read unless it is alone. -/
def Faithful (ann? : Option Value) : Prop :=
  ∀ v, ann? = some v → ∃ ann, v.asMap = some ann ∧ (ann.erase hashAnnotation).AllStrings ∧
    ((ann.erase hashAnnotation).keys = ∅ ∨
      ∀ w, ann.get? hashAnnotation = some w → w = .null ∨ w.asString.isSome)

lemma isSome_annotationText {v : Value} :
    (annotationText v).isSome ↔ v = .null ∨ v.asString.isSome := by
  cases v <;> simp [annotationText, Value.asString]

/-- Reading a string changes nothing, and reading anything else does. -/
lemma map_str_annotationText {v : Value} :
    (annotationText v).map Value.str = some v ↔ v.asString.isSome := by
  cases v <;> simp [annotationText, Value.asString]

/-- A map that can be read is read unchanged apart from the stamp exactly when its other entries
are strings. -/
lemma erase_convert_eq_iff {ann ann' : Object}
    (h : ann.convert annotationText = some ann') :
    ann'.erase hashAnnotation = ann.erase hashAnnotation ↔
      (ann.erase hashAnnotation).AllStrings := by
  constructor
  · intro heq k v hv
    have hk : k ≠ hashAnnotation := by
      rintro rfl
      simp at hv
    have hread := congrArg (·.get? k) heq
    simp only [hv, Object.get?_erase_of_ne _ hk, Object.get?_convert h] at hread
    rw [Object.get?_erase_of_ne _ hk] at hv
    rw [hv, Option.bind_some] at hread
    exact map_str_annotationText.mp hread
  · intro hall
    refine Object.ext_get? fun k => ?_
    by_cases hk : k = hashAnnotation
    · rw [hk, Object.get?_erase_self, Object.get?_erase_self]
    · rw [Object.get?_erase_of_ne _ hk, Object.get?_convert h, ← Object.get?_erase_of_ne ann hk]
      cases hv : (ann.erase hashAnnotation).get? k with
      | none => rfl
      | some v => exact map_str_annotationText.mpr (hall k v hv)

/-- The annotations apart from the stamp after reading, for a map that can be read. -/
lemma dropStamp_convert_iff {ann ann' : Object}
    (h : ann.convert annotationText = some ann') :
    dropStamp (some (.ofObject ann')) = dropStamp (some (.ofObject ann)) ↔
      (ann.erase hashAnnotation).AllStrings := by
  have hkeys : (ann'.erase hashAnnotation).keys = ∅ ↔ (ann.erase hashAnnotation).keys = ∅ := by
    have hnone : ∀ k, (ann'.erase hashAnnotation).get? k = none ↔
        (ann.erase hashAnnotation).get? k = none := by
      intro k
      rw [Object.get?_erase, Object.get?_erase]
      split_ifs with hk
      · exact Iff.rfl
      · rw [← not_iff_not, ← ne_eq, ← ne_eq, Option.ne_none_iff_isSome,
          Option.ne_none_iff_isSome, ← Object.mem_keys, ← Object.mem_keys, Object.keys_convert h]
    simp only [Finset.eq_empty_iff_forall_notMem, Object.mem_keys, Option.not_isSome_iff_eq_none,
      hnone]
  rw [dropStamp_ofObject, dropStamp_ofObject, ← erase_convert_eq_iff h]
  by_cases hempty : (ann.erase hashAnnotation).keys = ∅
  · rw [if_pos hempty, if_pos (hkeys.mpr hempty), Object.keys_eq_empty_iff.mp hempty,
      Object.keys_eq_empty_iff.mp (hkeys.mpr hempty)]
    exact iff_of_true rfl rfl
  · rw [if_neg hempty, if_neg (mt hkeys.mp hempty), Option.some_inj]
    exact Value.ofObject_injective.eq_iff

/-- A map that cannot be read has an annotation that is neither a string nor null. -/
lemma faithful_of_unreadable {ann : Object} (h : ann.convert annotationText = none) :
    Faithful (some (.ofObject ann)) ↔ (ann.erase hashAnnotation).keys = ∅ := by
  have hunread : ¬ ∀ k v, ann.get? k = some v → (annotationText v).isSome := by
    rw [← Object.isSome_convert, h]
    exact Bool.false_ne_true
  constructor
  · intro hf
    obtain ⟨_, hmap, hall, hempty | hstamp⟩ := hf _ rfl
    · obtain rfl := Option.some.inj hmap
      exact hempty
    · obtain rfl := Option.some.inj hmap
      refine absurd (fun k v hv => ?_) hunread
      by_cases hk : k = hashAnnotation
      · exact isSome_annotationText.mpr (hstamp v (hk ▸ hv))
      · exact isSome_annotationText.mpr
          (Or.inr (hall k v ((Object.get?_erase_of_ne _ hk).trans hv)))
  · rintro hempty _ ⟨⟩
    refine ⟨ann, rfl, fun k v hv => ?_, Or.inl hempty⟩
    rw [Object.keys_eq_empty_iff.mp hempty, Object.get?_empty] at hv
    cases hv

/-- A map that can be read is faithful when its other entries are strings. -/
lemma faithful_of_readable {ann ann' : Object} (h : ann.convert annotationText = some ann') :
    Faithful (some (.ofObject ann)) ↔ (ann.erase hashAnnotation).AllStrings := by
  constructor
  · intro hf
    obtain ⟨_, hmap, hall, -⟩ := hf _ rfl
    obtain rfl := Option.some.inj hmap
    exact hall
  · rintro hall _ ⟨⟩
    refine ⟨ann, rfl, hall, Or.inr fun w hw => isSome_annotationText.mp ?_⟩
    exact Object.isSome_convert.mp (by rw [h]; rfl) _ w hw

/-- **What the getter reads is what the tree holds**, apart from the stamp, exactly for faithful
annotations. -/
theorem dropStamp_readable_iff (md : Object) :
    dropStamp (some (.ofObject (readable md))) = dropStamp (md.get? "annotations") ↔
      Faithful (md.get? "annotations") := by
  have hempty : dropStamp (some (.ofObject .empty)) = none := rfl
  unfold readable
  cases hget : md.get? "annotations" with
  | none => exact iff_of_true hempty fun v hv => by cases hv
  | some v =>
    cases hmap : v.asMap with
    | none =>
      rw [Option.bind_some, hmap, Option.bind_none, Option.getD_none, hempty,
        dropStamp_of_not_map hmap]
      refine iff_of_false (Option.some_ne_none v).symm fun hf => ?_
      obtain ⟨ann, hann, -⟩ := hf v rfl
      rw [hmap] at hann
      cases hann
    | some ann =>
      obtain rfl := Value.eq_ofObject hmap
      rw [Option.bind_some, Value.asMap_ofObject, Option.bind_some]
      cases hconv : ann.convert annotationText with
      | some ann' =>
        rw [Option.getD_some, faithful_of_readable hconv]
        exact dropStamp_convert_iff hconv
      | none =>
        rw [Option.getD_none, faithful_of_unreadable hconv, hempty, dropStamp_ofObject]
        by_cases he : (ann.erase hashAnnotation).keys = ∅
        · exact iff_of_true (if_pos he).symm he
        · rw [if_neg he]
          exact iff_of_false (Option.some_ne_none _).symm he

/-! ## The law of stamps -/

/-- A stamp records the hash and changes nothing else. -/
structure StampLaw (env : Env) (obj : Object) : Prop where
  /-- The objects differ in the hash annotation at most. -/
  only : withoutStamp (stamp env obj) = withoutStamp obj
  /-- The annotation is the hash of the object that was stamped. -/
  recorded : (stamp env obj).at? ["metadata", "annotations", hashAnnotation] =
    some (.str (hashObject env obj))
  /-- The hash does not see the stamp. -/
  hash : hashObject env (stamp env obj) = hashObject env obj
  /-- A second stamp changes nothing. -/
  again : stamp env (stamp env obj) = stamp env obj
  /-- The comparison with the recorded hash succeeds. -/
  match_ : ∀ h, (stamp env obj).at? ["metadata", "annotations", hashAnnotation] = some (.str h) →
    check env (stamp env obj) h = none

/-- The hash is recorded whatever the annotations were. -/
lemma at?_stamp (env : Env) {obj md : Object} (hmd : obj.mapAt "metadata" = some md) :
    (stamp env obj).at? ["metadata", "annotations", hashAnnotation] =
      some (.str (hashObject env obj)) := by
  rw [stamp_eq env hmd, Object.at?_of_mapAt (mapAt_annotated _ _ _), Object.at?_set, if_pos rfl]
  simp [Value.at?]

/-- Stamped annotations are all strings, so that the getter reads them as they are. -/
lemma readable_stamped (md ann : Object) (h : ann.AllStrings) :
    readable (md.set "annotations" (.ofObject ann)) = ann := by
  have hconv : (ann.convert annotationText).isSome :=
    Object.isSome_convert.mpr fun k v hv => isSome_annotationText.mpr (Or.inr (h k v hv))
  obtain ⟨ann', hann'⟩ := Option.isSome_iff_exists.mp hconv
  rw [readable, Object.get?_set_self, Option.bind_some, Value.asMap_ofObject, Option.bind_some,
    hann', Option.getD_some]
  refine Object.ext_get? fun k => ?_
  rw [Object.get?_convert hann']
  cases hk : ann.get? k with
  | none => rfl
  | some v => exact map_str_annotationText.mpr (h k v hk)

/-- The annotations that the getter reads are strings. -/
lemma allStrings_readable (md : Object) : (readable md).AllStrings := by
  intro k v hv
  unfold readable at hv
  cases hconv : ((md.get? "annotations").bind Value.asMap).bind
      (Object.convert annotationText) with
  | none =>
    rw [hconv, Option.getD_none, Object.get?_empty] at hv
    cases hv
  | some ann' =>
    obtain ⟨ann, -, hann'⟩ := Option.bind_eq_some_iff.mp hconv
    rw [hconv, Option.getD_some, Object.get?_convert hann'] at hv
    obtain ⟨s, -, rfl⟩ := Option.map_eq_some_iff.mp hv
    rfl

/-- A second stamp writes the annotations of the first, if the hash is the same. -/
lemma stamp_stamp {env : Env} {obj md : Object} (hmd : obj.mapAt "metadata" = some md)
    (hhash : hashObject env (stamp env obj) = hashObject env obj) :
    stamp env (stamp env obj) = stamp env obj := by
  have hall : ((readable md).set hashAnnotation (.str (hashObject env obj))).AllStrings := by
    intro k v hv
    rw [Object.get?_set] at hv
    split_ifs at hv
    · obtain rfl := Option.some.inj hv
      rfl
    · exact allStrings_readable md k v hv
  have hmd' : (stamp env obj).mapAt "metadata" = some (md.set "annotations"
      (.ofObject ((readable md).set hashAnnotation (.str (hashObject env obj))))) := by
    rw [stamp_eq env hmd, mapAt_annotated]
  rw [stamp_eq env hmd', hhash, readable_stamped _ _ hall, Object.set_set, stamp_eq env hmd,
    annotated_annotated]

/-- **A stamp records the hash and changes nothing else** exactly where the getter and the tree
agree on the annotations.

**Proof sketch.** A stamp replaces the annotations by what the getter reads with the hash added, so
that the first law is that reading keeps the annotations apart from the stamp
(`dropStamp_readable_iff`). The hash is taken of a tree that depends on the annotations only apart
from the stamp, so the first law gives the third, and the third gives the other two. -/
theorem stampLaw_iff (env : Env) (obj md : Object) (hmd : obj.mapAt "metadata" = some md) :
    StampLaw env obj ↔ Faithful (md.get? "annotations") := by
  have hdrop : dropStamp (some (.ofObject
      ((readable md).set hashAnnotation (.str (hashObject env obj))))) =
        dropStamp (md.get? "annotations") ↔ Faithful (md.get? "annotations") := by
    rw [dropStamp_set, dropStamp_readable_iff]
  have honly : withoutStamp (stamp env obj) = withoutStamp obj ↔
      Faithful (md.get? "annotations") := by
    rw [stamp_eq env hmd, withoutStamp_annotated _ hmd, hdrop]
  constructor
  · exact fun h => honly.mp h.only
  · intro hf
    have hhash : hashObject env (stamp env obj) = hashObject env obj := by
      rw [hashObject, stamp_eq env hmd, stripped_annotated hmd (hdrop.mpr hf), hashObject]
    refine ⟨honly.mpr hf, at?_stamp env hmd, hhash, stamp_stamp hmd hhash, fun h hh => ?_⟩
    rw [at?_stamp env hmd] at hh
    cases hh
    exact check_eq_none.mpr hhash

/-! ### A volume claim -/

/-- A volume claim with the given annotations, further metadata and further fields. -/
def volumeClaim (ann md rest : List (String × Value)) : Object :=
  .ofList ([("apiVersion", .str "v1"), ("kind", .str "PersistentVolumeClaim"),
    ("metadata", .ofObject (.ofList
      ([("annotations", .ofObject (.ofList ann)), ("name", .str "data")] ++ md)))] ++ rest)

/-- The phase a controller reports. -/
def phase (p : String) : List (String × Value) :=
  [("status", .ofObject (.ofList [("phase", .str p)]))]

/-- The JSON text of the claim, from the texts of its annotations and of its further fields. -/
def volumeClaimJSON (ann rest : String) : Bytes :=
  utf8 ("\x7b\"apiVersion\":\"v1\",\"kind\":\"PersistentVolumeClaim\"," ++
    "\"metadata\":\x7b" ++ ann ++ "\"name\":\"data\"\x7d" ++ rest ++ "\x7d")

/-- The JSON text of annotations, from the text of their entries. -/
def annotationsJSON (entries : String) : String :=
  "\"annotations\":\x7b" ++ entries ++ "\x7d,"

/-- The claim without annotations. -/
def bareClaim : Object :=
  .ofList [("apiVersion", .str "v1"), ("kind", .str "PersistentVolumeClaim"),
    ("metadata", .ofObject (.ofList [("name", .str "data")]))]

/-- The JSON text of the phase. -/
def phaseJSON (p : String) : String := ",\"status\":\x7b\"phase\":\"" ++ p ++ "\"\x7d"

/-- An annotation. -/
def team : String × Value := ("team", .str "web")

/-- The JSON text of the claim with that annotation. -/
def teamJSON (rest : String) : Bytes :=
  volumeClaimJSON (annotationsJSON "\"team\":\"web\"") rest

/-- The annotation of a stamp. -/
def stampEntry (hash : String) : String × Value := ⟨ hashAnnotation, .str hash⟩

/-- An annotation that a manifest gives as a number. -/
def retention : String × Value := ("retention-days", .num 30)

/-- The JSON text of the claim with both annotations. -/
def numericJSON : Bytes :=
  volumeClaimJSON (annotationsJSON "\"retention-days\":30,\"team\":\"web\"") ""

/-- The encodings and digests of the claims below. -/
def volumeClaimEnv : Env := .ofTables
  { encodings := [
      (.ofObject bareClaim, volumeClaimJSON "" ""),
      (.ofObject (volumeClaim [team, retention] [] []), numericJSON),
      (.ofObject (volumeClaim [team] [] []), teamJSON ""),
      (.ofObject (volumeClaim [team] [] (phase "Pending")), teamJSON (phaseJSON "Pending")),
      (.ofObject (volumeClaim [team] [] (phase "Bound")), teamJSON (phaseJSON "Bound"))]
    digests := [
      (volumeClaimJSON "" "",
        ofHex "5eec5230075976e5824e5958ad7dc4d556508aad1289076f0da2986cb70ed343"),
      (numericJSON,
        ofHex "14ce7a09fdd3c306dceead899b1903fcc7f1e769f08457f8467cd10f57e3dfbc"),
      (teamJSON "",
        ofHex "c85a8d085d135215573e8ebfb2e899e152be73399f5a7414dad6057e0518c689"),
      (teamJSON (phaseJSON "Pending"),
        ofHex "7b923db42a6800bd4ca549f34624bd7f734d4c691599cde52edf4a51cb52eb49"),
      (teamJSON (phaseJSON "Bound"),
        ofHex "e9e3fa9a588f5b830ce550f70a664541de0bf8e641c665685c348b1a69b8bc4d")] }

/-- An object that carries an older stamp beside another annotation. -/
def stampedClaim : Object := volumeClaim [team, stampEntry "14ce7a09fdd3"] [] []

/-- The metadata of the claim. -/
def stampedClaimMeta : Object :=
  .ofList [("annotations", .ofObject (.ofList [team, stampEntry "14ce7a09fdd3"])),
    ("name", .str "data")]

/-- The older stamp is replaced by the hash, and nothing else changes. -/
theorem stampLaw_of_older_stamp : StampLaw volumeClaimEnv stampedClaim ∧
    (stamp volumeClaimEnv stampedClaim).at? ["metadata", "annotations", hashAnnotation] =
      some (.str "c85a8d085d135215573e8ebfb2e899e152be73399f5a7414dad6057e0518c689") := by
  refine ⟨(stampLaw_iff volumeClaimEnv stampedClaim stampedClaimMeta (by decide +kernel)).mpr ?_,
    by decide +kernel⟩
  rintro v hv
  refine ⟨.ofList [team, stampEntry "14ce7a09fdd3"], ?_, by decide +kernel,
    Or.inr fun w hw => Or.inr ?_⟩
  · have hann : stampedClaimMeta.get? "annotations" =
        some (.ofObject (.ofList [team, stampEntry "14ce7a09fdd3"])) := by
      decide +kernel
    rw [hann] at hv
    obtain rfl := Option.some.inj hv
    rfl
  · have hstamp : (Object.ofList [team, stampEntry "14ce7a09fdd3"]).get?
        hashAnnotation = some (.str "14ce7a09fdd3") := by decide +kernel
    rw [hstamp] at hw
    obtain rfl := Option.some.inj hw
    rfl

/-- **A number among the annotations**: the stamp drops it together with the annotation beside it,
and the comparison with the hash just recorded reports drift. -/
theorem numeric_annotation_drops_others :
    (volumeClaim [team, retention] [] []).at? ["metadata", "annotations", "team"] =
        some (.str "web") ∧
      (stamp volumeClaimEnv (volumeClaim [team, retention] [] [])).at?
        ["metadata", "annotations", "team"] = none ∧
      check volumeClaimEnv (stamp volumeClaimEnv (volumeClaim [team, retention] [] []))
        "14ce7a09fdd3c306dceead899b1903fcc7f1e769f08457f8467cd10f57e3dfbc" =
          some ("drift detected on PersistentVolumeClaim /data: expected hash 14ce7a09fdd3, " ++
            "live hash 5eec52300759") ∧
      ¬ StampLaw volumeClaimEnv (volumeClaim [team, retention] [] []) := by
  refine ⟨by decide +kernel, by decide +kernel, by decide +kernel, fun h => ?_⟩
  exact absurd h.only (by decide +kernel)

/-! ## State that is not intent -/

/-- The paths that the API server and controllers write: the status, the volatile metadata and the
hash annotation. -/
def managed : List (List String) :=
  ["status"] :: volatileMetaKeys.map (["metadata", ·]) ++
    [["metadata", "annotations", hashAnnotation]]

/-- Remove annotations that are an empty map. -/
def dropEmptyAnnotations (obj : Object) : Object :=
  if obj.at? ["metadata", "annotations"] = some (.ofObject .empty) then
    obj.removeNestedField ["metadata", "annotations"]
  else obj

/-- An object without managed state. -/
def withoutManaged (obj : Object) : Object :=
  dropEmptyAnnotations (managed.foldl Object.removeNestedField obj)

/-- Empty annotations are removed from the metadata. -/
lemma dropEmptyAnnotations_set (m md : Object) :
    dropEmptyAnnotations (m.set "metadata" (.ofObject md)) = m.set "metadata" (.ofObject
      (if md.get? "annotations" = some (.ofObject .empty) then md.erase "annotations"
        else md)) := by
  have hmap : (m.set "metadata" (.ofObject md)).mapAt "metadata" = some md := by
    rw [Object.mapAt_set, if_pos rfl, Value.asMap_ofObject]
  rw [dropEmptyAnnotations, Object.at?_of_mapAt hmap, Object.at?_singleton,
    Object.removeNestedField_of_mapAt hmap, Object.set_set, Object.removeNestedField_singleton]
  split_ifs <;> rfl

/-- The stamp removed from the annotations, and then the annotations if they are empty. -/
lemma removeNestedField_stamp (md : Object) :
    (if (md.removeNestedField ["annotations", hashAnnotation]).get? "annotations" =
        some (.ofObject .empty) then
      (md.removeNestedField ["annotations", hashAnnotation]).erase "annotations"
    else md.removeNestedField ["annotations", hashAnnotation]) =
      Object.put md "annotations" (dropStamp (md.get? "annotations")) := by
  cases hann : md.mapAt "annotations" with
  | none =>
    -- The annotations are no map: neither side touches them.
    have hdrop : dropStamp (md.get? "annotations") = md.get? "annotations" := by
      have hbind : (md.get? "annotations").bind Value.asMap = none := hann
      rw [dropStamp, hbind]
    have hne : md.get? "annotations" ≠ some (.ofObject .empty) := by
      intro hget
      rw [Object.mapAt_of_get? hget] at hann
      cases hann
    rw [Object.removeNestedField_of_mapAt_none hann, if_neg hne, hdrop]
    refine Object.ext_get? fun k => ?_
    rw [Object.get?_put]
    split_ifs with hk
    · rw [hk]
    · rfl
  | some ann =>
    rw [Object.removeNestedField_of_mapAt hann, Object.removeNestedField_singleton,
      Object.get?_set_self, Object.get?_of_mapAt hann, dropStamp_ofObject]
    by_cases hempty : ann.erase hashAnnotation = .empty
    · rw [if_pos (by rw [hempty]), if_pos (Object.keys_eq_empty_iff.mpr hempty)]
      refine Object.ext_get? fun k => ?_
      rw [Object.get?_put, Object.get?_erase, Object.get?_set]
      split_ifs <;> rfl
    · have hne : some (Value.ofObject (ann.erase hashAnnotation)) ≠ some (.ofObject .empty) :=
        fun heq => hempty (Option.some.inj (congrArg (Option.bind · Value.asMap) heq))
      rw [if_neg hne, if_neg (mt Object.keys_eq_empty_iff.mp hempty)]
      rfl

/-- **The hashed tree is the object without managed state, except for the status.** -/
theorem withoutManaged_eq (obj : Object) :
    withoutManaged obj = (stripped obj).erase "status" := by
  have hfold : managed.foldl Object.removeNestedField obj =
      ((volatileMetaKeys.map (["metadata", ·])).foldl Object.removeNestedField
        (obj.erase "status")).removeNestedField ["metadata", "annotations", hashAnnotation] := by
    rw [managed, List.cons_append, List.foldl_cons, List.foldl_append, List.foldl_cons,
      List.foldl_nil, Object.removeNestedField_singleton]
  have hstatus : (obj.erase "status").mapAt "metadata" = obj.mapAt "metadata" := by
    rw [Object.mapAt, Object.get?_erase_of_ne _ (by decide), Object.mapAt]
  have hcomm : ∀ v, (obj.erase "status").set "metadata" v =
      (obj.set "metadata" v).erase "status" := by
    intro v
    refine Object.ext_get? fun k => ?_
    rw [Object.get?_set, Object.get?_erase, Object.get?_erase, Object.get?_set]
    by_cases hk : k = "metadata"
    · rw [if_pos hk, if_neg (by rw [hk]; decide), if_pos hk]
    · rw [if_neg hk, if_neg hk]
  rw [withoutManaged, hfold]
  cases hmd : obj.mapAt "metadata" with
  | none =>
    have hnone := hstatus.trans hmd
    rw [Object.foldl_removeNestedField_of_none hnone, Object.removeNestedField_of_mapAt_none hnone,
      stripped_of_mapAt_none hmd, dropEmptyAnnotations, if_neg]
    rw [Object.at?_cons]
    intro hat
    obtain ⟨v, hv, hat⟩ := Option.bind_eq_some_iff.mp hat
    have hmap : v.asMap = none := by
      rw [Object.mapAt, hv] at hnone
      exact hnone
    rw [Value.at?_cons_of_not_map hmap] at hat
    cases hat
  | some md =>
    have hself := Object.set_eq_self (Object.get?_of_mapAt (hstatus.trans hmd))
    have hmap : ∀ sub : Object,
        ((obj.erase "status").set "metadata" (.ofObject sub)).mapAt "metadata" = some sub := by
      intro sub
      rw [Object.mapAt_set, if_pos rfl, Value.asMap_ofObject]
    rw [← hself, Object.foldl_removeNestedField_set, Object.removeNestedField_of_mapAt (hmap _),
      Object.set_set, dropEmptyAnnotations_set, removeNestedField_stamp, hcomm,
      stripped_of_mapAt hmd, strippedMeta_eq, Object.get?_foldl_erase, if_neg (by decide)]

lemma get?_status_stripped (obj : Object) : (stripped obj).get? "status" = obj.get? "status" := by
  cases hmd : obj.mapAt "metadata" with
  | none => rw [stripped_of_mapAt_none hmd]
  | some md => rw [stripped_of_mapAt hmd, Object.get?_set_of_ne _ _ (by decide)]

/-- Equal hashed trees are equal intents with equal status. -/
lemma stripped_eq_iff (a b : Object) :
    stripped a = stripped b ↔
      withoutManaged a = withoutManaged b ∧ a.get? "status" = b.get? "status" := by
  rw [withoutManaged_eq, withoutManaged_eq, ← get?_status_stripped a, ← get?_status_stripped b]
  constructor
  · intro h
    rw [h]
    exact ⟨rfl, rfl⟩
  · rintro ⟨herase, hstatus⟩
    refine Object.ext_get? fun k => ?_
    by_cases hk : k = "status"
    · rw [hk, hstatus]
    · rw [← Object.get?_erase_of_ne (stripped a) hk, herase, Object.get?_erase_of_ne _ hk]

/-! ## Equal hashes and equal intent -/

/-- No two of the trees have encodings with one digest. A digest has 32 bytes, so this cannot be
asked of all trees. -/
def NoCollision (env : Env) (vs : List Value) : Prop :=
  ∀ v ∈ vs, ∀ w ∈ vs, env.sha256Hex (env.marshal v) = env.sha256Hex (env.marshal w) → v = w

instance (env : Env) (vs : List Value) : Decidable (NoCollision env vs) :=
  inferInstanceAs (Decidable (∀ v ∈ vs, _))

/-- Equal hashes are equal hashed trees. -/
lemma hashObject_eq_iff {env : Env} {a b : Object}
    (hinj : NoCollision env [.ofObject (stripped a), .ofObject (stripped b)]) :
    hashObject env a = hashObject env b ↔ stripped a = stripped b := by
  constructor
  · intro h
    have heq := hinj (.ofObject (stripped a)) (by simp) (.ofObject (stripped b)) (by simp) h
    exact Value.ofObject_injective heq
  · intro h
    rw [hashObject, h, hashObject]

/-- **Equal hashes mean equal intent** exactly for objects that do not differ in status alone.

**Proof sketch.** Without collisions the hashes are equal when the hashed trees are
(`hashObject_eq_iff`), and these are equal when the intents and the status are
(`stripped_eq_iff`). -/
theorem hash_eq_iff_iff (env : Env) (a b : Object)
    (hinj : NoCollision env [.ofObject (stripped a), .ofObject (stripped b)]) :
    (hashObject env a = hashObject env b ↔ withoutManaged a = withoutManaged b) ↔
      (withoutManaged a = withoutManaged b → a.get? "status" = b.get? "status") := by
  rw [hashObject_eq_iff hinj, stripped_eq_iff]
  constructor
  · exact fun h hintent => (h.mpr hintent).2
  · exact fun h => ⟨fun heq => heq.1, fun hintent => ⟨hintent, h hintent⟩⟩

/-- **A new version and a stamp are no change of intent**, and the hash does not see them. -/
theorem hash_eq_of_new_version :
    hashObject volumeClaimEnv (volumeClaim [team] [("resourceVersion", .str "1")] (phase "Bound")) =
      hashObject volumeClaimEnv (volumeClaim [team, stampEntry "7b923db42a68"]
        [("resourceVersion", .str "2")] (phase "Bound")) :=
  ((hash_eq_iff_iff volumeClaimEnv
    (volumeClaim [team] [("resourceVersion", .str "1")] (phase "Bound"))
    (volumeClaim [team, stampEntry "7b923db42a68"] [("resourceVersion", .str "2")]
      (phase "Bound")) (by decide +kernel)).mpr fun _ => by decide +kernel).mpr (by decide +kernel)

/-- **A controller binds the claim**: nobody changed what is wanted, and the hash changes. -/
theorem status_changes_hash :
    NoCollision volumeClaimEnv [.ofObject (stripped (volumeClaim [team] [] (phase "Pending"))),
        .ofObject (stripped (volumeClaim [team] [] (phase "Bound")))] ∧
      withoutManaged (volumeClaim [team] [] (phase "Pending")) =
        withoutManaged (volumeClaim [team] [] (phase "Bound")) ∧
      ¬ (hashObject volumeClaimEnv (volumeClaim [team] [] (phase "Pending")) =
          hashObject volumeClaimEnv (volumeClaim [team] [] (phase "Bound")) ↔
        withoutManaged (volumeClaim [team] [] (phase "Pending")) =
          withoutManaged (volumeClaim [team] [] (phase "Bound"))) := by
  have hsame : withoutManaged (volumeClaim [team] [] (phase "Pending")) =
      withoutManaged (volumeClaim [team] [] (phase "Bound")) := by decide +kernel
  refine ⟨by decide +kernel, hsame, fun h => ?_⟩
  exact absurd (h.mpr hsame) (by decide +kernel)

end K8sAgent.Drift
