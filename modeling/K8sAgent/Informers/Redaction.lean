import K8sAgent.Informers.Manager

set_option relaxedAutoImplicit false
set_option autoImplicit false

/-!
# Redaction of Secrets

What leaves the cluster of a Secret is its redacted form, whether an informer reports it or a
snapshot lists it. Two Secrets that differ in their values only should therefore look the same from
outside. The redacted form keeps all annotations, and one of them is a copy of the whole manifest:
`kubectl apply` stores what it was given, values included, in the annotation of the last applied
configuration. Secrets that differ there are told apart.

## Main definitions

* `K8sAgent.AlikeOutside` — two Secrets agree on all that may be seen of them.
* `K8sAgent.Manager.Indistinguishable` — the events of two Secrets carry the same JSON on every
  path.
* `K8sAgent.lastApplied` — the last applied configuration as the agent reads it.

## Main results

* `K8sAgent.secretKeys_eq` — both ways of reading the data give its keys.
* `K8sAgent.Manager.indistinguishable_iff` — which Secrets are indistinguishable.
-/

namespace K8sAgent

open Encoding JsonTree

/-- The annotation in which `kubectl apply` keeps the manifest. -/
def lastAppliedConfiguration : String := "kubectl.kubernetes.io/last-applied-configuration"

/-- The watched resource of Secrets. -/
def secretsResource : WatchedResource :=
  { gvr := ⟨"", "v1", "secrets"⟩, namespaced := true, secret := true }

/-- The field of the annotations, where it is a map. -/
def annotationsField (u : Object) : Option Object :=
  (u.mapAt "metadata").bind fun md => md.mapAt "annotations"

/-- The keys of the data, where there is a map of them. -/
def dataKeys (u : Object) : Finset String := ((u.mapAt "data").map Object.keys).getD ∅

/-- The last applied configuration as the agent reads it. -/
def lastApplied (u : Object) : Option Value :=
  (getAnnotations u).bind fun ann => ann.get? lastAppliedConfiguration

/-- **Two Secrets agree on all that may be seen of them**: everything in the redacted form but the
annotation of the last applied configuration. -/
structure AlikeOutside (u₁ u₂ : Object) : Prop where
  /-- The group and version. -/
  apiVersion : getAPIVersion u₁ = getAPIVersion u₂
  /-- The kind. -/
  kind : getKind u₁ = getKind u₂
  /-- The name. -/
  name : getName u₁ = getName u₂
  /-- The namespace. -/
  namespace_ : getNamespace u₁ = getNamespace u₂
  /-- The labels. -/
  labels : getLabels u₁ = getLabels u₂
  /-- The type. -/
  type : getString u₁ ["type"] = getString u₂ ["type"]
  /-- The creation timestamp. -/
  creationTimestamp : getString u₁ ["metadata", "creationTimestamp"] =
    getString u₂ ["metadata", "creationTimestamp"]
  /-- The keys of the data. -/
  keys : dataKeys u₁ = dataKeys u₂
  /-- The other annotations. -/
  annotations : ∀ k, k ≠ lastAppliedConfiguration →
    ((annotationsField u₁).bind fun ann => ann.get? k) =
      (annotationsField u₂).bind fun ann => ann.get? k

/-- **The events of two Secrets carry the same JSON on every path.** -/
structure Manager.Indistinguishable (m : Manager) (u₁ u₂ : Object) : Prop where
  /-- When the Secret is new. -/
  add : ∀ now, (m.notify secretsResource (.add (.unstructured u₁)) now).map (·.objectJSON) =
    (m.notify secretsResource (.add (.unstructured u₂)) now).map (·.objectJSON)
  /-- When it has changed. -/
  update : ∀ old₁ old₂ now,
    (m.notify secretsResource (.update old₁ (.unstructured u₁)) now).map (·.objectJSON) =
      (m.notify secretsResource (.update old₂ (.unstructured u₂)) now).map (·.objectJSON)
  /-- When it is gone. -/
  delete : ∀ now, (m.notify secretsResource (.delete (.unstructured u₁)) now).map (·.objectJSON) =
    (m.notify secretsResource (.delete (.unstructured u₂)) now).map (·.objectJSON)
  /-- When it is gone, and a tombstone is left of it. -/
  tombstone : ∀ now,
    (m.notify secretsResource (.delete (.tombstone (.unstructured u₁))) now).map (·.objectJSON) =
      (m.notify secretsResource (.delete (.tombstone (.unstructured u₂))) now).map (·.objectJSON)
  /-- In a snapshot, whatever else is in the stores. -/
  snapshot : ∀ before after front back now,
    (m.snapshot (before ++ (secretsResource.gvr, front ++ (.unstructured u₁, now) :: back) ::
        after)).map (·.objectJSON) =
      (m.snapshot (before ++ (secretsResource.gvr, front ++ (.unstructured u₂, now) :: back) ::
        after)).map (·.objectJSON)

/-! ## The redacted form -/

section Lemmas

variable {u u₁ u₂ : Object}

/-- **Both ways of reading the data give its keys.** -/
theorem secretKeys_eq (u : Object) : secretKeys u = dataKeys u := by
  have hstrings : (u.nestedStringMap ["data"]).toOption =
      (u.mapAt "data").bind (Object.convert Value.asString) := by
    rw [Object.nestedStringMap, Object.toOption_typed, Object.nestedField_one, Object.mapAt,
      Option.bind_assoc]
  have hmap : (u.nestedMap ["data"]).toOption = u.mapAt "data" := by
    rw [Object.nestedMap, Object.toOption_typed, Object.nestedField_one, Object.mapAt]
  unfold secretKeys dataKeys
  split
  next data hdata =>
    -- a map of strings
    rw [hdata, Access.toOption] at hstrings
    obtain ⟨raw, hraw, hconv⟩ := Option.bind_eq_some_iff.mp hstrings.symm
    rw [hraw, Object.keys_convert hconv]
    rfl
  next =>
    split
    next raw hraw =>
      rw [hraw, Access.toOption] at hmap
      rw [← hmap]
      rfl
    next hother =>
      have hnone : u.mapAt "data" = none := by
        rw [← hmap]
        cases hacc : u.nestedMap ["data"] with
        | found raw => exact absurd hacc (hother raw)
        | missing => rfl
        | err path v => rfl
      rw [hnone]
      rfl

/-- **The annotations of two alike Secrets are the same** exactly when both can be read or neither,
and the last applied configuration is the same.

**Proof sketch.** Annotations that can be read are determined by their values key by key. For a key
other than that of the last applied configuration the fields agree, and so do the values read off
them. -/
theorem AlikeOutside.getAnnotations_eq_iff (h : AlikeOutside u₁ u₂) :
    getAnnotations u₁ = getAnnotations u₂ ↔
      (getAnnotations u₁).isSome = (getAnnotations u₂).isSome ∧
        lastApplied u₁ = lastApplied u₂ := by
  constructor
  · intro heq
    rw [lastApplied, lastApplied, heq]
    exact ⟨rfl, rfl⟩
  · rintro ⟨hsome, hlast⟩
    cases h₁ : getAnnotations u₁ with
    | none =>
      rw [h₁] at hsome
      exact (Option.not_isSome_iff_eq_none.mp (by rw [← hsome]; exact Bool.false_ne_true)).symm
    | some ann₁ =>
      rw [h₁] at hsome
      obtain ⟨ann₂, h₂⟩ := Option.isSome_iff_exists.mp hsome.symm
      have hlookup : ∀ {u ann : Object}, getAnnotations u = some ann → ∀ k,
          ann.get? k =
            (((annotationsField u).bind fun raw => raw.get? k).bind annotationText).map .str := by
        intro u ann hann k
        rw [getAnnotations_eq, ← annotationsField] at hann
        obtain ⟨raw, hraw, hread⟩ := Option.bind_eq_some_iff.mp hann
        rw [Object.get?_convert hread, hraw, Option.bind_some]
      rw [h₂]
      congr 1
      refine Object.ext_get? fun k => ?_
      by_cases hk : k = lastAppliedConfiguration
      · rw [lastApplied, lastApplied, h₁, h₂, Option.bind_some, Option.bind_some] at hlast
        rw [hk]
        exact hlast
      · rw [hlookup h₁ k, hlookup h₂ k, h.annotations k hk]

/-- A map of strings is read back from its JSON. -/
lemma asMap_mapJSON (ann : Option Object) : (mapJSON ann).asMap = ann := by
  cases ann with
  | none => rfl
  | some m => exact Value.asMap_ofObject m

/-- **The redacted forms of two alike Secrets are the same** exactly when their annotations are. -/
theorem AlikeOutside.stripSecret_eq_iff (h : AlikeOutside u₁ u₂) (timeJSON : String → Value) :
    stripSecret timeJSON u₁ = stripSecret timeJSON u₂ ↔ getAnnotations u₁ = getAnnotations u₂ := by
  constructor
  · intro heq
    -- the annotations can be read off the redacted form
    have hread : ∀ u, ((stripSecret timeJSON u).mapAt "metadata").bind
        (fun md => md.get? "annotations") = some (mapJSON (getAnnotations u)) := by
      intro u
      simp [stripSecret, Object.ofList, Object.mapAt, Object.get?_set]
    have hjson : mapJSON (getAnnotations u₁) = mapJSON (getAnnotations u₂) := by
      have h₁ := hread u₁
      rw [heq, hread u₂] at h₁
      exact (Option.some.inj h₁).symm
    have hmap := congrArg Value.asMap hjson
    rwa [asMap_mapJSON, asMap_mapJSON] at hmap
  · intro heq
    unfold stripSecret
    rw [h.apiVersion, h.kind, h.name, h.namespace_, h.labels, heq, h.creationTimestamp, h.type,
      secretKeys_eq, secretKeys_eq, h.keys]

end Lemmas

/-! ## The paths -/

namespace Manager

variable {m : Manager} {u₁ u₂ : Object}

/-- Values of Secrets are stripped in snapshots, if Secrets are watched. -/
lemma secrets_secretsResource (hwatched : secretsResource ∈ m.watched) :
    m.secrets secretsResource.gvr = true := by
  have hknown : ∀ w ∈ known.map Prod.snd, w.gvr = secretsResource.gvr → w.secret = true := by
    decide
  have hne : m.watched.filter (fun w => w.gvr = secretsResource.gvr) ≠ [] := by
    refine List.ne_nil_of_mem (a := secretsResource) ?_
    exact List.mem_filter.mpr ⟨hwatched, by simp⟩
  have hlast := List.getLast_mem hne
  obtain ⟨hmem, hgvr⟩ := List.mem_filter.mp hlast
  rw [secrets, List.getLast?_eq_getLast_of_ne_nil hne]
  exact hknown _ (m.watched_known _ hmem) (by simpa using hgvr)

/-- The JSON of a Secret is that of its redacted form, on every path. -/
lemma indistinguishable_iff_marshal (hwatched : secretsResource ∈ m.watched) :
    m.Indistinguishable u₁ u₂ ↔
      m.env.marshal (.ofObject (stripSecret m.timeJSON u₁)) =
        m.env.marshal (.ofObject (stripSecret m.timeJSON u₂)) := by
  constructor
  · intro h
    exact Option.some.inj (h.add 0)
  · intro h
    have hevent : ∀ (op : String) (now : ℤ),
        (m.eventOf op secretsResource.gvr u₁ true now).objectJSON =
          (m.eventOf op secretsResource.gvr u₂ true now).objectJSON := fun _ _ => h
    refine ⟨fun now => congrArg some h, fun old₁ old₂ now => congrArg some h,
      fun now => congrArg some h, fun now => congrArg some h, fun before after front back now => ?_⟩
    have hstore : ∀ u, (m.toEvent opSync secretsResource.gvr (.unstructured u)
        (m.secrets secretsResource.gvr) now).toOption =
          some (m.eventOf opSync secretsResource.gvr u true now) := by
      intro u
      rw [secrets_secretsResource hwatched]
      rfl
    simp only [snapshot, List.flatMap_append, List.flatMap_cons, List.filterMap_append,
      List.filterMap_cons, hstore, List.map_append, List.map_cons, hevent]

/-- **Which Secrets are indistinguishable.** Two Secrets that agree on all that may be seen of them
look the same on every path exactly when the last applied configuration is the same in both, and
the annotations of both can be read or those of neither. The encoder is assumed to give different
texts to the two redacted forms, if they differ.

**Proof sketch.** On every path the JSON of the event is that of the redacted form. The redacted
form shows everything the two agree on, and the annotations. -/
theorem indistinguishable_iff (m : Manager) (u₁ u₂ : Object)
    (hwatched : secretsResource ∈ m.watched) (halike : AlikeOutside u₁ u₂)
    (hjson : m.env.marshal (.ofObject (stripSecret m.timeJSON u₁)) =
        m.env.marshal (.ofObject (stripSecret m.timeJSON u₂)) →
      stripSecret m.timeJSON u₁ = stripSecret m.timeJSON u₂) :
    m.Indistinguishable u₁ u₂ ↔
      (getAnnotations u₁).isSome = (getAnnotations u₂).isSome ∧
        lastApplied u₁ = lastApplied u₂ := by
  rw [indistinguishable_iff_marshal hwatched, ← halike.getAnnotations_eq_iff,
    ← halike.stripSecret_eq_iff m.timeJSON]
  constructor
  · exact hjson
  · intro heq
    rw [heq]

/-! ## A password -/

/-- The manifest of a Secret, as `kubectl apply` records it. -/
def recordedManifest (password : String) : String :=
  "\x7b\"apiVersion\":\"v1\",\"data\":\x7b\"password\":\"" ++
  password ++
  "\"\x7d,\"kind\":\"Secret\",\"metadata\":\x7b\"annotations\":" ++
  "\x7b\x7d,\"name\":\"db\",\"namespace\":\"default\"\x7d,\"type\":" ++
  "\"Opaque\"\x7d\n"

/-- A Secret with a password, and with annotations. -/
def dbSecret (password : String) (ann : List (String × Value)) : Object :=
  .ofList
    [("apiVersion", .str "v1"), ("kind", .str "Secret"), ("type", .str "Opaque"),
     ("metadata", .ofObject (.ofList
       [("name", .str "db"), ("namespace", .str "default"),
        ("creationTimestamp", .str "2024-05-01T10:00:00Z"),
        ("annotations", .ofObject (.ofList ann))])),
     ("data", .ofObject (.ofList [("password", .str password)]))]

/-- The Secret as it is after `kubectl apply`. -/
def appliedSecret (password : String) : Object :=
  dbSecret password [(lastAppliedConfiguration, .str (recordedManifest password))]

/-- The JSON of its redacted form. -/
def redactedJSON (password : String) : String :=
  "\x7b\"apiVersion\":\"v1\",\"data\":\x7b\"password\":\"\"\x7d," ++
  "\"kind\":\"Secret\",\"metadata\":\x7b\"annotations\":\x7b" ++
  "\"kubectl.kubernetes.io/last-applied-configuration\":" ++
  "\"\x7b\\\"apiVersion\\\":\\\"v1\\\",\\\"data\\\":\x7b\\\"password\\\":" ++
  "\\\"" ++
  password ++
  "\\\"\x7d,\\\"kind\\\":\\\"Secret\\\",\\\"metadata\\\":\x7b\\\"annotations\\\":" ++
  "\x7b\x7d,\\\"name\\\":\\\"db\\\",\\\"namespace\\\":\\\"default\\\"\x7d," ++
  "\\\"type\\\":\\\"Opaque\\\"\x7d\\n\"\x7d,\"creationTimestamp\":" ++
  "\"2024-05-01T10:00:00Z\",\"labels\":null,\"name\":\"db\",\"namespace\":" ++
  "\"default\"\x7d,\"type\":\"Opaque\"\x7d"

/-- A manager that watches Secrets; the encoder knows the given forms. -/
def secretsManager (encodings : List (Value × Bytes)) : Manager where
  env := .ofTables { encodings := encodings }
  timeJSON := .str
  watched := [secretsResource]
  watched_known := by decide

/-- Secrets with different passwords that were not made by `kubectl apply` look the same. -/
theorem indistinguishable_dbSecret :
    dbSecret "aHVudGVyMg==" [] ≠ dbSecret "c3dvcmRmaXNo" [] ∧
      (secretsManager []).Indistinguishable (dbSecret "aHVudGVyMg==" [])
        (dbSecret "c3dvcmRmaXNo" []) := by
  refine ⟨by decide +kernel, (indistinguishable_iff (secretsManager []) _ _ (by decide) ?_ ?_).mpr
    (by decide +kernel)⟩
  · refine ⟨?_, ?_, ?_, ?_, ?_, ?_, ?_, ?_, ?_⟩
    iterate 8 decide +kernel
    intro k _
    have hsame : annotationsField (dbSecret "aHVudGVyMg==" []) =
        annotationsField (dbSecret "c3dvcmRmaXNo" []) := by decide +kernel
    rw [hsame]
  · intro _
    decide +kernel

/-- After `kubectl apply` the passwords are in the events. -/
theorem password_in_annotation :
    AlikeOutside (appliedSecret "aHVudGVyMg==") (appliedSecret "c3dvcmRmaXNo") ∧
      ¬(secretsManager
        [(.ofObject (stripSecret .str (appliedSecret "aHVudGVyMg==")),
            utf8 (redactedJSON "aHVudGVyMg==")),
          (.ofObject (stripSecret .str (appliedSecret "c3dvcmRmaXNo")),
            utf8 (redactedJSON "c3dvcmRmaXNo"))]).Indistinguishable
          (appliedSecret "aHVudGVyMg==") (appliedSecret "c3dvcmRmaXNo") := by
  constructor
  · refine ⟨?_, ?_, ?_, ?_, ?_, ?_, ?_, ?_, ?_⟩
    iterate 8 decide +kernel
    intro k hk
    have hfield : ∀ password, annotationsField (appliedSecret password) =
        some (.ofList [(lastAppliedConfiguration, .str (recordedManifest password))]) := by
      intro password
      simp [appliedSecret, dbSecret, annotationsField, Object.ofList, Object.mapAt, Object.get?_set]
    simp [hfield, Object.ofList, Object.get?_set, hk]
  · intro h
    have hadd := h.add 0
    revert hadd
    decide +kernel

end Manager

end K8sAgent
