import K8sAgent.Executor.Adoption
import Mathlib.Order.Bounds.Basic
import Mathlib.Algebra.Order.Ring.Rat

set_option relaxedAutoImplicit false
set_option autoImplicit false

/-!
# Labels and storage in an update

Two values of an update are computed rather than taken. The labels of a pod template are meant to
be those of the merged object together with what the selector asks for; one label that is not a
string makes the agent lose all of them. The storage request of a claim is meant to be the largest
of the sizes that play a role; a request given as a bare number does not count.

## Main definitions

* `K8sAgent.Merge.LabelsKept` — the labels of the selector are added and the others kept.
* `K8sAgent.Merge.quantityOf` — the size a value stands for.
* `K8sAgent.Merge.liveBounds`, `sizes` — the sizes a claim must not fall below.
* `K8sAgent.Merge.StorageHeeded` — no size is overlooked and the request can be written.

## Main results

* `K8sAgent.Merge.labelsKept_iff` — when the labels are kept.
* `K8sAgent.Merge.storage_isGreatest_iff` — when the request is the largest of the sizes.
-/

namespace K8sAgent.Merge

open JsonTree

/-! ## What the two assignments find -/

/-- What is behind a field that is taken. -/
lemma at?_takeFields_of_mem {merged live liveSpec : Object} (spec : Object)
    (hlive : live.mapAt "spec" = some liveSpec) {f : String}
    (hf : f ∈ immutableFields (getKind merged)) (r : List String) :
    (takeFields merged spec liveSpec).at? ("spec" :: f :: r) = live.at? ("spec" :: f :: r) := by
  rw [takeFields, Object.at?_set, if_pos rfl, Object.at?_of_mapAt hlive]
  change ((adopt _ spec liveSpec).get? f).bind _ = (liveSpec.get? f).bind _
  rw [get?_adopt, if_pos hf]

/-- Whether an assignment behind a field that is not taken can be made. -/
lemma settable_takeFields {merged spec : Object} (liveSpec : Object)
    (hspec : merged.mapAt "spec" = some spec) {f : String}
    (hf : f ∉ immutableFields (getKind merged)) (fs : List String) :
    (takeFields merged spec liveSpec).settable ("spec" :: f :: fs) =
      merged.settable ("spec" :: f :: fs) := by
  have hbelow : merged.below "spec" = some spec := by
    rw [Object.below, Object.get?_of_mapAt hspec]
    rfl
  rw [takeFields, Object.settable_cons, Object.below_set_self, Object.settable_cons, hbelow]
  exact Object.settable_congr (get?_adopt_of_not_mem hf spec liveSpec) fs

/-! ## Labels -/

/-- A map is read as a map of strings exactly if it is one. -/
lemma stringMap_ofObject (m : Object) :
    stringMap (some (.ofObject m)) = if m.AllStrings then some m else none :=
  Object.convert_asString m

/-- The labels of the pod template after the stage: every entry of the selector, and every other
label the merged template had. -/
structure LabelsKept (env : Env) (live merged selector : Object) : Prop where
  /-- The entries of the selector are there. -/
  added : ∀ k v, selector.get? k = some v →
    (adoptImmutableFields env merged live).at? (labelsPath ++ [k]) = some v
  /-- The other labels are still there. -/
  kept : ∀ k v, selector.get? k = none → merged.at? (labelsPath ++ [k]) = some v →
    (adoptImmutableFields env merged live).at? (labelsPath ++ [k]) = some v

/-- A label, where the labels are a map. -/
lemma at?_label {obj labels : Object} (h : obj.at? labelsPath = some (.ofObject labels))
    (k : String) : obj.at? (labelsPath ++ [k]) = labels.get? k := by
  rw [Object.at?_append, h, Option.bind_some]
  exact Object.at?_singleton labels k

/-- There is a label only where the labels are a map. -/
lemma exists_labels {obj : Object} {k : String} {v : Value}
    (h : obj.at? (labelsPath ++ [k]) = some v) :
    ∃ labels, obj.at? labelsPath = some (.ofObject labels) ∧ labels.get? k = some v := by
  rw [Object.at?_append] at h
  obtain ⟨w, hw, hk⟩ := Option.bind_eq_some_iff.mp h
  cases hmap : w.asMap with
  | none =>
    rw [Value.at?_cons_of_not_map hmap] at hk
    cases hk
  | some labels =>
    obtain rfl := Value.eq_ofObject hmap
    exact ⟨labels, hw, (Object.at?_singleton labels k).symm.trans hk⟩

section Labels

variable {env : Env} {live merged spec selector : Object}

/-- A spec in which there is something is a map. -/
lemma exists_spec_of_at? {obj : Object} {f : String} {fs : List String} {v : Value}
    (h : obj.at? ("spec" :: f :: fs) = some v) : ∃ spec, obj.mapAt "spec" = some spec := by
  rw [Object.at?_cons] at h
  obtain ⟨w, hw, hv⟩ := Option.bind_eq_some_iff.mp h
  cases hmap : w.asMap with
  | none =>
    rw [Value.at?_cons_of_not_map hmap] at hv
    cases hv
  | some spec =>
    refine ⟨spec, ?_⟩
    rw [Object.mapAt, hw]
    exact hmap

/-- For a workload, the selector is among the fields that are adopted and the template is not, and
the last path is that of the template's labels. -/
lemma workload_facts {kind : String} (hkind : kind ∈ workloads) :
    kind ≠ "PersistentVolumeClaim" ∧ "selector" ∈ immutableFields kind ∧
      "template" ∉ immutableFields kind ∧ lastPath kind = some labelsPath :=
  (by decide : ∀ kind ∈ workloads, kind ≠ "PersistentVolumeClaim" ∧
    "selector" ∈ immutableFields kind ∧ "template" ∉ immutableFields kind ∧
    lastPath kind = some labelsPath) kind hkind

/-- **The stage for a workload**: the selector is taken, and the labels are assigned to. -/
theorem adoptImmutableFields_workload (env : Env) (hkind : getKind merged ∈ workloads)
    (hspec : merged.mapAt "spec" = some spec)
    (hsel : live.at? selectorPath = some (.ofObject selector)) :
    ∃ liveSpec, adoptImmutableFields env merged live =
      (takeFields merged spec liveSpec).edit labelsPath
        (labelsTo (some (.ofObject selector)) (merged.at? labelsPath)) := by
  obtain ⟨hpvc, hfield, -, hlast⟩ := workload_facts hkind
  obtain ⟨liveSpec, hlive⟩ := exists_spec_of_at? hsel
  have hselector : (takeFields merged spec liveSpec).at? selectorPath =
      some (.ofObject selector) :=
    (at?_takeFields_of_mem spec hlive hfield _).trans hsel
  have hlabels : (takeFields merged spec liveSpec).at? labelsPath = merged.at? labelsPath :=
    at?_takeFields liveSpec hspec fun f hf => (apart_lastPath hf hlast).symm
  refine ⟨liveSpec, ?_⟩
  rw [adoptImmutableFields_eq env hspec hlive, finish, if_neg hpvc, if_pos hkind, hselector,
    hlabels]

/-- **The labels a workload gets**: those that could be read, with the entries of the selector. -/
theorem at?_labels_adopted (env : Env) (hkind : getKind merged ∈ workloads)
    (hspec : merged.mapAt "spec" = some spec)
    (hsel : live.at? selectorPath = some (.ofObject selector)) (hstr : selector.AllStrings)
    (hne : selector.keys ≠ ∅) (hset : merged.settable labelsPath = true) :
    (adoptImmutableFields env merged live).at? labelsPath =
      some (.ofObject (withSelector ((stringMap (merged.at? labelsPath)).getD .empty)
        selector)) := by
  obtain ⟨-, -, hother, -⟩ := workload_facts hkind
  obtain ⟨liveSpec, hres⟩ := adoptImmutableFields_workload env hkind hspec hsel
  have hsettable : (takeFields merged spec liveSpec).settable labelsPath = true :=
    (settable_takeFields liveSpec hspec hother _).trans hset
  rw [hres, Object.at?_edit_self, if_pos hsettable, labelsTo, stringMap_ofObject, if_pos hstr,
    Option.bind_some, if_neg hne]
  rfl

/-- **Labels that could be read are kept.** -/
theorem LabelsKept.of_readable (hkind : getKind merged ∈ workloads)
    (hspec : merged.mapAt "spec" = some spec)
    (hsel : live.at? selectorPath = some (.ofObject selector)) (hstr : selector.AllStrings)
    (hne : selector.keys ≠ ∅) (hset : merged.settable labelsPath = true)
    (hlabels : ∀ labels, merged.at? labelsPath = some (.ofObject labels) →
      labels.AllStrings ∨ labels.keys ⊆ selector.keys) :
    LabelsKept env live merged selector := by
  have hres := at?_labels_adopted env hkind hspec hsel hstr hne hset
  constructor
  · intro k v hv
    rw [at?_label hres, get?_withSelector, hv]
    rfl
  · intro k v hk hv
    obtain ⟨labels, hat, hget⟩ := exists_labels hv
    rw [at?_label hres, get?_withSelector, hk, Option.none_or, hat]
    rcases hlabels labels hat with hall | hsub
    · rw [stringMap_ofObject, if_pos hall]
      exact hget
    · have hmem : k ∈ selector.keys := hsub (Object.mem_keys.mpr (by simp [hget]))
      rw [Object.mem_keys, hk] at hmem
      cases hmem

/-- **Labels that cannot be read are lost**, all but those the selector has. -/
theorem LabelsKept.readable (h : LabelsKept env live merged selector)
    (hkind : getKind merged ∈ workloads) (hspec : merged.mapAt "spec" = some spec)
    (hsel : live.at? selectorPath = some (.ofObject selector)) (hstr : selector.AllStrings)
    (hne : selector.keys ≠ ∅) (hset : merged.settable labelsPath = true) {labels : Object}
    (hlabels : merged.at? labelsPath = some (.ofObject labels)) :
    labels.AllStrings ∨ labels.keys ⊆ selector.keys := by
  have hres := at?_labels_adopted env hkind hspec hsel hstr hne hset
  by_cases hall : labels.AllStrings
  · exact .inl hall
  · refine .inr fun k hk => ?_
    obtain ⟨v, hv⟩ := Option.isSome_iff_exists.mp (Object.mem_keys.mp hk)
    by_contra hno
    have hnone : selector.get? k = none := by
      rw [Object.mem_keys, Bool.not_eq_true, Option.isSome_eq_false_iff,
        Option.isNone_iff_eq_none] at hno
      exact hno
    have hkept := h.kept k v hnone (by rw [at?_label hlabels, hv])
    rw [at?_label hres, get?_withSelector, hnone, hlabels, stringMap_ofObject, if_neg hall] at hkept
    simp at hkept

/-- A selector without entries leaves the labels alone. -/
lemma LabelsKept.of_empty (hkind : getKind merged ∈ workloads)
    (hsel : live.at? selectorPath = some (.ofObject selector)) (hstr : selector.AllStrings)
    (hempty : selector.keys = ∅) : LabelsKept env live merged selector := by
  have hnone : ∀ k, selector.get? k = none := by
    intro k
    have hk : k ∉ selector.keys := by simp [hempty]
    rwa [Object.mem_keys, Bool.not_eq_true, Option.isSome_eq_false_iff,
      Option.isNone_iff_eq_none] at hk
  refine ⟨fun k v hv => by simp [hnone] at hv, fun k v _ hv => ?_⟩
  cases hspec : merged.mapAt "spec" with
  | none => rwa [adoptImmutableFields_of_none env (.inl hspec)]
  | some spec =>
    obtain ⟨-, -, -, hlast⟩ := workload_facts hkind
    obtain ⟨liveSpec, hres⟩ := adoptImmutableFields_workload env hkind hspec hsel
    have hapart : ∀ f ∈ immutableFields (getKind merged), Apart ["spec", f] (labelsPath ++ [k]) :=
      fun f hf => ((apart_lastPath hf hlast).append [k]).symm
    rw [hres, labelsTo, stringMap_ofObject, if_pos hstr, Option.bind_some, if_pos hempty,
      Object.edit_none, at?_takeFields liveSpec hspec hapart, hv]

end Labels

/-- **When the labels are kept.** The stage adds the entries of the live selector to the labels of
the pod template and keeps the other labels of the merged template exactly if the selector has no
entries, or the merged spec is a map and the merged labels, if they are a map, are strings or have
no key besides those of the selector. -/
theorem labelsKept_iff (env : Env) {live manifest selector : Object}
    (hkind : getKind (mergeForUpdate live manifest) ∈ workloads)
    (hsel : live.at? selectorPath = some (.ofObject selector)) (hstr : selector.AllStrings)
    (htemplate : ∀ v, (mergeForUpdate live manifest).at? ["spec", "template"] = some v →
      v.asMap.isSome)
    (hmeta : ∀ v, (mergeForUpdate live manifest).at? ["spec", "template", "metadata"] = some v →
      v.asMap.isSome) :
    LabelsKept env live (mergeForUpdate live manifest) selector ↔
      selector.keys = ∅ ∨
        (∃ spec, (mergeForUpdate live manifest).mapAt "spec" = some spec) ∧
        ∀ labels, (mergeForUpdate live manifest).at? labelsPath = some (.ofObject labels) →
          labels.AllStrings ∨ labels.keys ⊆ selector.keys := by
  have hset : ∀ spec, (mergeForUpdate live manifest).mapAt "spec" = some spec →
      (mergeForUpdate live manifest).settable labelsPath = true := by
    intro spec hspec
    refine Object.settable_of_maps (by decide) fun n hn w hw => ?_
    obtain rfl | rfl | rfl | rfl : n = 0 ∨ n = 1 ∨ n = 2 ∨ n = 3 := by
      change n < 4 at hn
      omega
    · obtain rfl := Option.some.inj hw
      rfl
    · obtain rfl := Option.some.inj ((Object.at?_of_mapAt hspec []).symm.trans hw)
      rfl
    · exact htemplate w hw
    · exact hmeta w hw
  by_cases hempty : selector.keys = ∅
  · exact iff_of_true (.of_empty hkind hsel hstr hempty) (.inl hempty)
  constructor
  · intro hkept
    have hspec : ∃ spec, (mergeForUpdate live manifest).mapAt "spec" = some spec := by
      obtain ⟨k, hk⟩ := Finset.nonempty_iff_ne_empty.mpr hempty
      obtain ⟨v, hv⟩ := Option.isSome_iff_exists.mp (Object.mem_keys.mp hk)
      by_contra hno
      have hnone : (mergeForUpdate live manifest).mapAt "spec" = none :=
        Option.eq_none_iff_forall_ne_some.mpr fun spec h => hno ⟨spec, h⟩
      have hadded := hkept.added k v hv
      rw [adoptImmutableFields_of_none env (.inl hnone)] at hadded
      exact hno (exists_spec_of_at? hadded)
    obtain ⟨spec, hspec⟩ := hspec
    exact .inr ⟨⟨spec, hspec⟩, fun labels hlabels =>
      hkept.readable hkind hspec hsel hstr hempty (hset spec hspec) hlabels⟩
  · rintro (h | ⟨⟨spec, hspec⟩, hlabels⟩)
    · exact absurd h hempty
    · exact .of_readable hkind hspec hsel hstr hempty (hset spec hspec) hlabels

/-- A deployment with its selector, and a label of its own on its pods. -/
def liveWeb : Object := .ofList [("kind", .str "Deployment"), ("spec", .ofObject (.ofList
  [("selector", .ofObject (.ofList [("matchLabels", .ofObject (.ofList [("app", .str "web")]))])),
    ("template", .ofObject (.ofList [("metadata", .ofObject (.ofList [("labels",
      .ofObject (.ofList [("app", .str "web"), ("tier", .str "front")]))]))]))]))]

/-- A manifest for it that sets the label `version`. -/
def webManifest (version : Value) : Object := .ofList [("kind", .str "Deployment"),
  ("spec", .ofObject (.ofList [("template", .ofObject (.ofList [("metadata",
    .ofObject (.ofList [("labels", .ofObject (.ofList [("version", version)]))]))]))]))]

/-- The labels are kept where the manifest sets the version as text. -/
theorem labelsKept_of_web :
    LabelsKept (.ofTables {}) liveWeb (mergeForUpdate liveWeb (webManifest (.str "2")))
      (.ofList [("app", .str "web")]) := by
  have htemplate : ∀ v ∈ (mergeForUpdate liveWeb (webManifest (.str "2"))).at?
      ["spec", "template"], v.asMap.isSome := by decide +kernel
  have hmeta : ∀ v ∈ (mergeForUpdate liveWeb (webManifest (.str "2"))).at?
      ["spec", "template", "metadata"], v.asMap.isSome := by decide +kernel
  have hlabels : ∀ v ∈ (mergeForUpdate liveWeb (webManifest (.str "2"))).at? labelsPath,
      ∀ labels ∈ v.asMap, labels.AllStrings := by decide +kernel
  refine (labelsKept_iff (.ofTables {}) (by decide +kernel) (by decide +kernel) (by decide +kernel)
    htemplate hmeta).mpr (.inr ⟨Option.isSome_iff_exists.mp (by decide +kernel), ?_⟩)
  exact fun labels h => .inl (hlabels _ h labels rfl)

/-- A version given as a number makes the agent lose the other labels. -/
theorem numeric_label_drops_others :
    ¬LabelsKept (.ofTables {}) liveWeb (mergeForUpdate liveWeb (webManifest (.num 2)))
      (.ofList [("app", .str "web")]) := by
  intro h
  have hkept := h.kept "tier" (.str "front") (by decide +kernel) (by decide +kernel)
  exact absurd hkept (by decide +kernel)

/-! ## Storage -/

/-- The size a value stands for: text is parsed, and a bare number is read as `ofNumber` says. -/
def quantityOf (env : Env) (ofNumber : ℚ → Option ℚ) : Value → Option ℚ
  | .str s => env.parseQuantity s
  | .num n => ofNumber n
  | _ => none

/-- The sizes the live claim has: its request and its capacity, as far as they parse. -/
def liveBounds (env : Env) (live : Object) : Set ℚ :=
  {q | ∃ p ∈ [storagePath, capacityPath], ∃ s, live.at? p = some (.str s) ∧
    env.parseQuantity s = some q}

/-- The size the merged object asks for. -/
def requestSize (env : Env) (ofNumber : ℚ → Option ℚ) (merged : Object) : Option ℚ :=
  (merged.at? storagePath).bind (quantityOf env ofNumber)

/-- The sizes that play a role: what is asked for and what the live claim has. -/
def sizes (env : Env) (ofNumber : ℚ → Option ℚ) (live merged : Object) : Set ℚ :=
  {q | requestSize env ofNumber merged = some q} ∪ liveBounds env live

/-- No size is overlooked, and the request can be written. Where both specs are maps, a request
that is a bare number must not exceed what the live claim has; where one of them is not, nothing is
raised, and the request must be large enough as it is. -/
def StorageHeeded (env : Env) (ofNumber : ℚ → Option ℚ) (live merged : Object) : Prop :=
  if (merged.mapAt "spec").isSome ∧ (live.mapAt "spec").isSome then
    merged.settable storagePath = true ∧
      ∀ n q, merged.at? storagePath = some (.num n) → ofNumber n = some q →
        ∃ b ∈ liveBounds env live, q ≤ b
  else ∃ q, requestSize env ofNumber merged = some q ∧ ∀ b ∈ liveBounds env live, b ≤ q

section Larger

variable {a b : Option (ℚ × String)} {r : ℚ × String}

lemma larger_eq_none : larger a b = none ↔ a = none ∧ b = none := by
  cases a with
  | none => simp [larger]
  | some a =>
    cases b with
    | none => simp [larger]
    | some b =>
      rw [larger]
      split_ifs <;> simp

/-- **The larger of two quantities** is one of them, and at least as large as each. -/
theorem larger_eq_some (h : larger a b = some r) :
    (a = some r ∨ b = some r) ∧ ∀ r', a = some r' ∨ b = some r' → r'.1 ≤ r.1 := by
  cases a with
  | none =>
    rw [larger] at h
    exact ⟨.inr h, by simp [h]⟩
  | some a =>
    cases b with
    | none => exact ⟨.inl h, by simp [Option.some.inj h]⟩
    | some b =>
      rw [larger] at h
      split_ifs at h with hlt
      · obtain rfl := Option.some.inj h
        refine ⟨.inr rfl, ?_⟩
        rintro r' (hr | hr)
        · rw [← Option.some.inj hr]
          exact hlt.le
        · rw [Option.some.inj hr]
      · obtain rfl := Option.some.inj h
        refine ⟨.inl rfl, ?_⟩
        rintro r' (hr | hr)
        · rw [Option.some.inj hr]
        · rw [← Option.some.inj hr]
          exact not_lt.mp hlt

end Larger

section Storage

variable {env : Env} {ofNumber : ℚ → Option ℚ} {live merged : Object}

/-- The agent reads a quantity where a text that is not empty can be parsed as one. -/
lemma readQuantity_eq_some {v? : Option Value} {q : ℚ} {s : String} :
    readQuantity env v? = some (q, s) ↔
      v? = some (.str s) ∧ s ≠ "" ∧ env.parseQuantity s = some q := by
  constructor
  · intro h
    obtain ⟨t, ht, hpair⟩ := Option.bind_eq_some_iff.mp h
    obtain ⟨v, rfl, hv⟩ := Option.bind_eq_some_iff.mp ht
    split_ifs at hpair with hne
    obtain ⟨q', hq', hpair⟩ := Option.map_eq_some_iff.mp hpair
    obtain ⟨rfl, rfl⟩ := Prod.mk.inj hpair
    cases v with
    | str s' =>
      obtain rfl := Option.some.inj hv
      exact ⟨rfl, hne, hq'⟩
    | _ => cases hv
  · rintro ⟨rfl, hne, hq⟩
    simp [readQuantity, hne, hq]

/-- The sizes of the live claim are those the agent reads, the empty text not being one. -/
lemma mem_liveBounds (hempty : env.parseQuantity "" = none) {q : ℚ} :
    q ∈ liveBounds env live ↔
      (∃ s, readQuantity env (live.at? storagePath) = some (q, s)) ∨
        ∃ s, readQuantity env (live.at? capacityPath) = some (q, s) := by
  have hread : ∀ p, (∃ s, live.at? p = some (.str s) ∧ env.parseQuantity s = some q) ↔
      ∃ s, readQuantity env (live.at? p) = some (q, s) := by
    intro p
    refine exists_congr fun s => ?_
    rw [readQuantity_eq_some]
    refine ⟨fun ⟨hs, hq⟩ => ⟨hs, ?_, hq⟩, fun ⟨hs, _, hq⟩ => ⟨hs, hq⟩⟩
    rintro rfl
    rw [hempty] at hq
    cases hq
  change (∃ p ∈ [storagePath, capacityPath], ∃ s, _) ↔ _
  simp only [List.mem_cons, List.not_mem_nil, or_false, exists_eq_or_imp, exists_eq_left, hread]

/-- **The least size is the larger of the sizes of the live claim.** -/
theorem exists_pvcStorageFloor (hempty : env.parseQuantity "" = none)
    (hbound : (liveBounds env live).Nonempty) :
    ∃ least text, pvcStorageFloor env live = some (least, text) ∧
      env.parseQuantity text = some least ∧ IsGreatest (liveBounds env live) least := by
  have hmem : ∀ q, q ∈ liveBounds env live ↔
      (∃ s, readQuantity env (live.at? storagePath) = some (q, s)) ∨
        ∃ s, readQuantity env (live.at? capacityPath) = some (q, s) :=
    fun q => mem_liveBounds hempty
  rw [pvcStorageFloor_eq]
  cases hfloor : larger (readQuantity env (live.at? storagePath))
      (readQuantity env (live.at? capacityPath)) with
  | none =>
    obtain ⟨hr, hc⟩ := larger_eq_none.mp hfloor
    obtain ⟨q, hq⟩ := hbound
    simp [hmem, hr, hc] at hq
  | some least =>
    obtain ⟨hread, hmax⟩ := larger_eq_some hfloor
    refine ⟨least.1, least.2, rfl, ?_, (hmem _).mpr ?_, fun q hq => ?_⟩
    · rcases hread with hread | hread
      · exact (readQuantity_eq_some.mp hread).2.2
      · exact (readQuantity_eq_some.mp hread).2.2
    · exact hread.imp (fun hread => ⟨least.2, hread⟩) fun hread => ⟨least.2, hread⟩
    · rcases (hmem q).mp hq with ⟨s, hs⟩ | ⟨s, hs⟩
      · exact hmax (q, s) (.inl hs)
      · exact hmax (q, s) (.inr hs)

/-- A size of the live claim is the greatest of all exactly if no more is asked for. -/
lemma isGreatest_sizes_bound {least : ℚ} (h : IsGreatest (liveBounds env live) least) :
    IsGreatest (sizes env ofNumber live merged) least ↔
      ∀ q, requestSize env ofNumber merged = some q → q ≤ least := by
  constructor
  · exact fun hg q hq => hg.2 (.inl hq)
  · refine fun hle => ⟨.inr h.1, ?_⟩
    rintro q (hq | hq)
    · exact hle q hq
    · exact h.2 hq

/-- What is asked for is the greatest of all exactly if the live claim has no more. -/
lemma isGreatest_sizes_request {q : ℚ} (h : requestSize env ofNumber merged = some q) :
    IsGreatest (sizes env ofNumber live merged) q ↔ ∀ b ∈ liveBounds env live, b ≤ q := by
  constructor
  · exact fun hg b hb => hg.2 (.inr hb)
  · refine fun hle => ⟨.inl h, ?_⟩
    rintro b (hb | hb)
    · exact le_of_eq (Option.some.inj (h.symm.trans hb)).symm
    · exact hle b hb

/-- **The storage request after the stage**, where both specs are maps. -/
theorem at?_storage_adopted (env : Env) {spec liveSpec : Object}
    (hkind : getKind merged = "PersistentVolumeClaim") (hspec : merged.mapAt "spec" = some spec)
    (hlive : live.mapAt "spec" = some liveSpec) :
    (adoptImmutableFields env merged live).at? storagePath =
      if merged.settable storagePath then
        (clampTo env (pvcStorageFloor env live) (merged.at? storagePath)).or
          (merged.at? storagePath)
      else merged.at? storagePath := by
  have hother : "resources" ∉ immutableFields (getKind merged) := by
    rw [hkind]
    decide
  have hlast : lastPath (getKind merged) = some storagePath := by
    rw [hkind]
    rfl
  have hat : (takeFields merged spec liveSpec).at? storagePath = merged.at? storagePath :=
    at?_takeFields liveSpec hspec fun f hf => (apart_lastPath hf hlast).symm
  have hset : (takeFields merged spec liveSpec).settable storagePath =
      merged.settable storagePath := settable_takeFields liveSpec hspec hother _
  rw [adoptImmutableFields_eq env hspec hlive, finish, if_pos hkind, Object.at?_edit_self, hat,
    hset]

/-- What is asked for in text is what the agent reads. -/
lemma requestSize_of_text {s : String} (h : merged.at? storagePath = some (.str s)) :
    requestSize env ofNumber merged = env.parseQuantity s := by
  rw [requestSize, h]
  rfl

/-- What is asked for otherwise is a bare number. -/
lemma requestSize_of_no_text (h : (merged.at? storagePath).bind Value.asString = none) {q : ℚ} :
    requestSize env ofNumber merged = some q ↔
      ∃ n, merged.at? storagePath = some (.num n) ∧ ofNumber n = some q := by
  rw [requestSize]
  cases hv : merged.at? storagePath with
  | none => simp
  | some v =>
    cases v with
    | str s => simp [hv] at h
    | num n => simp [quantityOf]
    | _ => simp [quantityOf]

section Maps

variable {spec liveSpec : Object} {least : ℚ} {text : String}
  (hkind : getKind merged = "PersistentVolumeClaim") (hspec : merged.mapAt "spec" = some spec)
  (hlive : live.mapAt "spec" = some liveSpec)
  (hfloor : pvcStorageFloor env live = some (least, text))

include hkind hspec hlive hfloor

/-- A request that is not text is replaced by the least size. -/
lemma at?_storage_of_no_text (hempty : env.parseQuantity "" = none)
    (hset : merged.settable storagePath = true)
    (h : (merged.at? storagePath).bind Value.asString = none) :
    (adoptImmutableFields env merged live).at? storagePath = some (.str text) := by
  rw [at?_storage_adopted env hkind hspec hlive, if_pos hset, hfloor]
  simp [clampTo, h, hempty]

/-- A request in text is replaced by the least size if it does not parse or is smaller. -/
lemma at?_storage_of_text {s : String} (h : merged.at? storagePath = some (.str s)) :
    (adoptImmutableFields env merged live).at? storagePath =
      if ∃ q, env.parseQuantity s = some q ∧ q ≥ least then some (.str s)
      else some (.str text) := by
  rw [at?_storage_adopted env hkind hspec hlive, if_pos (Object.settable_of_at? (by decide) h),
    hfloor, h]
  cases hs : env.parseQuantity s with
  | none => simp [clampTo, hs]
  | some q =>
    by_cases hq : q ≥ least
    · simp [clampTo, hs, hq]
    · simp [clampTo, hs, hq]

omit hfloor

/-- **The request is the largest of the sizes**, where both specs are maps, exactly if it can be
written and no bare number exceeds what the live claim has.

**Proof sketch.** The least size the agent computes is the greatest of the live claim. A request in
text is compared with it, and the larger of the two is what the body holds. Any other request reads
as no text at all and is replaced by the least size, whatever it stands for. -/
theorem storage_isGreatest_of_maps (hempty : env.parseQuantity "" = none)
    (hbound : (liveBounds env live).Nonempty) :
    (∃ q, requestSize env ofNumber (adoptImmutableFields env merged live) = some q ∧
        IsGreatest (sizes env ofNumber live merged) q) ↔
      merged.settable storagePath = true ∧
        ∀ n q, merged.at? storagePath = some (.num n) → ofNumber n = some q →
          ∃ b ∈ liveBounds env live, q ≤ b := by
  obtain ⟨least, text, hfloor, htext, hleast⟩ := exists_pvcStorageFloor hempty hbound
  -- replaced by the least size: right exactly if no more was asked for
  have hclamped : (adoptImmutableFields env merged live).at? storagePath = some (.str text) →
      ((∃ q, requestSize env ofNumber (adoptImmutableFields env merged live) = some q ∧
        IsGreatest (sizes env ofNumber live merged) q) ↔
          ∀ q, requestSize env ofNumber merged = some q → q ≤ least) := by
    intro hres
    rw [requestSize_of_text hres, htext, ← isGreatest_sizes_bound hleast]
    simp
  cases htxt : (merged.at? storagePath).bind Value.asString with
  | some s =>
    have hs : merged.at? storagePath = some (.str s) := by
      obtain ⟨v, hv, hstr⟩ := Option.bind_eq_some_iff.mp htxt
      cases v with
      | str t => rw [hv, Option.some.inj hstr]
      | _ => cases hstr
    have hres := at?_storage_of_text hkind hspec hlive hfloor hs
    refine iff_of_true ?_ ⟨Object.settable_of_at? (by decide) hs, fun n q hn => ?_⟩
    · split_ifs at hres with hq
      · obtain ⟨q, hq, hge⟩ := hq
        refine ⟨q, (requestSize_of_text hres).trans hq, ?_⟩
        rw [isGreatest_sizes_request ((requestSize_of_text hs).trans hq)]
        exact fun b hb => (hleast.2 hb).trans hge
      · refine (hclamped hres).mpr fun q hq' => ?_
        rw [requestSize_of_text hs] at hq'
        exact le_of_not_ge fun hge => hq ⟨q, hq', hge⟩
    · rw [hs] at hn
      cases hn
  | none =>
    cases hset : merged.settable storagePath with
    | false =>
      have hnone : merged.at? storagePath = none := by
        by_contra hsome
        obtain ⟨v, hv⟩ := Option.ne_none_iff_exists'.mp hsome
        rw [Object.settable_of_at? (by decide) hv] at hset
        cases hset
      refine iff_of_false ?_ (by simp)
      rintro ⟨q, hq, -⟩
      rw [requestSize, at?_storage_adopted env hkind hspec hlive, hset, hnone] at hq
      cases hq
    | true =>
      rw [hclamped (at?_storage_of_no_text hkind hspec hlive hfloor hempty hset htxt)]
      simp only [requestSize_of_no_text htxt, true_and]
      constructor
      · exact fun hle n q hn hq => ⟨least, hleast.1, hle q ⟨n, hn, hq⟩⟩
      · rintro hb q ⟨n, hn, hq⟩
        obtain ⟨b, hb, hle⟩ := hb n q hn hq
        exact hle.trans (hleast.2 hb)

end Maps

/-- The `spec` of an update body is the merged one after the adoption of the immutable fields. -/
lemma get?_spec_updateBody (env : Env) (live obj : Object) :
    (updateBody env live obj).get? "spec" =
      (adoptImmutableFields env (mergeForUpdate live obj) live).get? "spec" := by
  have hother : ∀ k, k ≠ "metadata" → (setResourceVersion (mergeForUpdate live obj)
      (getResourceVersion live)).get? k = (mergeForUpdate live obj).get? k :=
    fun k hk => get?_setString_of_ne _ _ _ hk
  rw [updateBody, Drift.get?_stamp_of_ne _ _ (by decide)]
  refine get?_spec_congr env live (hother _ (by decide)) ?_
  rw [getKind, getKind, getString, getString, Object.toOption_nestedString,
    Object.toOption_nestedString, Object.at?_singleton, Object.at?_singleton,
    hother _ (by decide)]

end Storage

/-- **When the storage request is the largest of the sizes.** For a claim with a request or a
capacity that parses, the request of the update body stands for the largest of the merged request,
the live request and the live capacity exactly if no size is overlooked. Bare numbers are read as
`ofNumber` says; the empty text is not a quantity. -/
theorem storage_isGreatest_iff (env : Env) (ofNumber : ℚ → Option ℚ) {live manifest : Object}
    (hempty : env.parseQuantity "" = none)
    (hkind : getKind (mergeForUpdate live manifest) = "PersistentVolumeClaim")
    (hbound : (liveBounds env live).Nonempty) :
    (∃ q, requestSize env ofNumber (updateBody env live manifest) = some q ∧
        IsGreatest (sizes env ofNumber live (mergeForUpdate live manifest)) q) ↔
      StorageHeeded env ofNumber live (mergeForUpdate live manifest) := by
  have hbody : requestSize env ofNumber (updateBody env live manifest) =
      requestSize env ofNumber (adoptImmutableFields env (mergeForUpdate live manifest) live) := by
    rw [requestSize, requestSize, storagePath, Object.at?_cons, Object.at?_cons,
      get?_spec_updateBody]
  rw [hbody, StorageHeeded]
  split_ifs with hmaps
  · obtain ⟨spec, hspec⟩ := Option.isSome_iff_exists.mp hmaps.1
    obtain ⟨liveSpec, hlive⟩ := Option.isSome_iff_exists.mp hmaps.2
    exact storage_isGreatest_of_maps hkind hspec hlive hempty hbound
  · have hnone : (mergeForUpdate live manifest).mapAt "spec" = none ∨ live.mapAt "spec" = none := by
      rw [not_and_or] at hmaps
      simpa using hmaps
    rw [adoptImmutableFields_of_none env hnone]
    exact exists_congr fun q => and_congr_right fun hq => isGreatest_sizes_request hq

/-- Quantities in gibibytes, as far as they are used below. -/
def gibibytes : Env :=
  { Env.ofTables {} with
    parseQuantity := fun s => [("5Gi", 5368709120), ("10Gi", 10737418240)].lookup s }

/-- A claim of ten gibibytes. -/
def liveClaim : Object := .ofList [("kind", .str "PersistentVolumeClaim"),
  ("spec", .ofObject (.ofList [("resources", .ofObject (.ofList [("requests",
    .ofObject (.ofList [("storage", .str "10Gi")]))]))])),
  ("status", .ofObject (.ofList [("capacity", .ofObject (.ofList [("storage", .str "10Gi")]))]))]

/-- A manifest for it that asks for the given storage. -/
def claimManifest (storage : Value) : Object := .ofList [("kind", .str "PersistentVolumeClaim"),
  ("spec", .ofObject (.ofList [("resources", .ofObject (.ofList [("requests",
    .ofObject (.ofList [("storage", storage)]))]))]))]

/-- The live claim has a bound of ten gibibytes. -/
lemma mem_liveBounds_liveClaim : (10737418240 : ℚ) ∈ liveBounds gibibytes liveClaim :=
  ⟨storagePath, by simp, "10Gi", by decide +kernel, by decide +kernel⟩

/-- Five gibibytes in text are raised to ten. -/
theorem storage_isGreatest_of_text :
    ∃ q, requestSize gibibytes some
        (updateBody gibibytes liveClaim (claimManifest (.str "5Gi"))) = some q ∧
      IsGreatest (sizes gibibytes some liveClaim
        (mergeForUpdate liveClaim (claimManifest (.str "5Gi")))) q := by
  refine (storage_isGreatest_iff gibibytes some (by decide +kernel) (by decide +kernel)
    ⟨_, mem_liveBounds_liveClaim⟩).mpr ?_
  have hnumber : ∀ v ∈ (mergeForUpdate liveClaim (claimManifest (.str "5Gi"))).at? storagePath,
      v = .str "5Gi" := by decide +kernel
  rw [StorageHeeded, if_pos (by decide +kernel)]
  refine ⟨by decide +kernel, fun n q hn => ?_⟩
  cases hnumber _ hn

/-- Twenty gibibytes as a bare number are not heeded: the request stays at ten. -/
theorem bare_number_overlooked :
    ¬∃ q, requestSize gibibytes some
        (updateBody gibibytes liveClaim (claimManifest (.num 21474836480))) = some q ∧
      IsGreatest (sizes gibibytes some liveClaim
        (mergeForUpdate liveClaim (claimManifest (.num 21474836480)))) q := by
  rintro ⟨q, hq, hgreatest⟩
  have hspec : (adoptImmutableFields gibibytes (mergeForUpdate liveClaim
      (claimManifest (.num 21474836480))) liveClaim).at? storagePath = some (.str "10Gi") := by
    decide +kernel
  have hten : q = 10737418240 := by
    rw [storagePath, Object.at?_cons] at hspec
    rw [requestSize, storagePath, Object.at?_cons, get?_spec_updateBody, hspec] at hq
    exact (Option.some.inj hq).symm
  have hasked : requestSize gibibytes some (mergeForUpdate liveClaim
      (claimManifest (.num 21474836480))) = some 21474836480 := by decide +kernel
  have hle : (21474836480 : ℚ) ≤ q := hgreatest.2 (.inl hasked)
  rw [hten] at hle
  exact absurd hle (by decide +kernel)

end K8sAgent.Merge
