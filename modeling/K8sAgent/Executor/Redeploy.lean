import K8sAgent.Executor.Overlay
import K8sAgent.Executor.Reconcile

set_option relaxedAutoImplicit false
set_option autoImplicit false

/-!
# Applying a manifest again

An update is built in three stages, each of which reads values of the live object: the manifest is
laid over it, immutable fields are taken back from it, and labels or a storage request are brought
into line. Applied to the object that results, the same manifest changes nothing: every stage finds
what it would produce.

## Main definitions

* `K8sAgent.Merge.unstampedBody` — the body of an update before its hash is recorded.
* `K8sAgent.Merge.stored` — what the API server makes of the body: a new version, the old status.
* `K8sAgent.Merge.EqUpToVersion` — objects that differ in their version at most.

## Main results

* `K8sAgent.Merge.finishSpec_again` — the spec of the second body is that of the first.
* `K8sAgent.Merge.redeploy_idempotent` — applying a manifest again gives the same body.
-/

namespace K8sAgent.Merge

open JsonTree

/-! ## The spec of a body, again -/

section Again

variable {o taken liveSpec : Object} {fields : List String}
  (ho : o.NullFree) (htaken : ∀ k ∉ fields, taken.get? k = (mergeMap liveSpec o).get? k)

include ho htaken

/-- What is not taken from the live spec is what laying the manifest over it gives. -/
lemma lay_taken {k : String} (hk : k ∉ fields) :
    lay (taken.get? k) (o.get? k) = taken.get? k := by
  rw [htaken k hk, get?_mergeMap_lay, lay_lay ho]

/-- **Taking the immutable fields on the second pass**, where the first pass assigned nothing after
it: nothing changes. -/
theorem adopt_again : adopt fields (mergeMap taken o) taken = taken := by
  refine Object.ext_get? fun k => ?_
  rw [get?_adopt]
  split_ifs with hk
  · rfl
  · rw [get?_mergeMap_lay, lay_taken ho htaken hk]

/-- **Taking the immutable fields on the second pass**, where the first pass assigned `w` after it:
the same with the manifest laid over `w`.

**Proof sketch.** The key behind which the assignment was made is not a field that is taken, so
what the second pass finds there is the manifest laid over an assignment
(`mergeMap_setNestedField`). All other keys are as in `adopt_again`. -/
theorem adopt_again_assigned {spec' : Object} {f g : String} {gs : List String} {w w' : Value}
    (hf : f ∉ fields) (hset : taken.setNestedField w (f :: g :: gs) = some spec')
    (hw' : lay (some w) (o.at? (f :: g :: gs)) = some w') :
    taken.setNestedField w' (f :: g :: gs) = some (adopt fields (mergeMap spec' o) spec') := by
  have hbelow : taken.below f = (mergeMap liveSpec o).below f := by
    rw [Object.below, htaken f hf, Object.below]
  obtain ⟨sub, sub', hsub, hsub', rfl⟩ := Object.exists_of_setNestedField_cons hset
  -- the same assignment in the merged map, over which the manifest has been laid
  have hy : (mergeMap liveSpec o).setNestedField w (f :: g :: gs) =
      some ((mergeMap liveSpec o).set f (.ofObject sub')) := by
    rw [Object.setNestedField_cons, ← hbelow, hsub, Option.bind_some, hsub']
    rfl
  have hagain := mergeMap_setNestedField ho (mergeMap_mergeMap ho liveSpec) hy hw'
  obtain ⟨sub₂, sub'', hsub₂, hsub'', hmerge⟩ := Object.exists_of_setNestedField_cons hagain
  obtain rfl : sub = sub₂ := by
    rw [← hbelow, hsub] at hsub₂
    exact Option.some.inj hsub₂
  have hval : lay (some (.ofObject sub')) (o.get? f) = some (.ofObject sub'') := by
    have hget := congrArg (fun m : Object => m.get? f) hmerge
    simpa only [get?_mergeMap_lay, Object.get?_set_self] using hget
  rw [Object.setNestedField_cons, hsub, Option.bind_some, hsub'', Option.map_some]
  refine congrArg some (Object.ext_get? fun k => ?_)
  rw [Object.get?_set, get?_adopt, get?_mergeMap_lay, Object.get?_set]
  by_cases hk : k = f
  · rw [if_pos hk, if_pos hk, hk, if_neg hf, hval]
  · rw [if_neg hk, if_neg hk]
    split_ifs with hmem
    · rfl
    · exact (lay_taken ho htaken hmem).symm

/-- **The assignment on the second pass.** If the second pass assigns nothing where the first did
not, and otherwise assigns what the first did or finds it there, it ends where the first did. -/
theorem edit_again {f g : String} {gs : List String} {c : Option Value}
    (c' : Option Value → Option Value) (hf : f ∉ fields)
    (hnone : c = none → c' (taken.at? (f :: g :: gs)) = none) {spec' : Object}
    (hsome : ∀ w w', c = some w → taken.setNestedField w (f :: g :: gs) = some spec' →
      lay (some w) (o.at? (f :: g :: gs)) = some w' →
      c' (some w') = some w ∨ c' (some w') = none ∧ w' = w)
    (hspec' : spec' = taken.edit (f :: g :: gs) c) :
    (adopt fields (mergeMap spec' o) spec').edit (f :: g :: gs)
      (c' ((adopt fields (mergeMap spec' o) spec').at? (f :: g :: gs))) = spec' := by
  have hsame := adopt_again ho htaken
  cases hset : taken.settable (f :: g :: gs) with
  | false =>
    rw [Object.edit_of_not_settable hset] at hspec'
    rw [hspec', hsame, Object.edit_of_not_settable hset]
  | true =>
    cases c with
    | none =>
      obtain rfl : spec' = taken := hspec'
      rw [hsame, hnone rfl]
      rfl
    | some w =>
      have hw : taken.setNestedField w (f :: g :: gs) = some spec' :=
        hspec' ▸ Object.edit_of_settable hset w
      obtain ⟨w', hlay⟩ : ∃ w', lay (some w) (o.at? (f :: g :: gs)) = some w' := by
        cases hv : o.at? (f :: g :: gs) with
        | none => exact ⟨w, rfl⟩
        | some v => exact exists_overlay (ho.of_at? hv) (some w)
      have hw' := adopt_again_assigned ho htaken hf hw hlay
      rw [Object.at?_setNestedField hw']
      rcases hsome w w' rfl hw hlay with h | ⟨h, rfl⟩
      · rw [h, Object.edit, Object.setNestedField_setNestedField hw', hw]
        rfl
      · rw [h]
        exact Option.some.inj (hw'.symm.trans hw)

end Again

/-! ## Labels, again -/

/-- A value of the manifest that is not a string spoils the labels. -/
lemma not_allStrings_mergeMap {o base : Object} (ho : o.NullFree) (hnot : ¬o.AllStrings)
    (hbase : base.AllStrings) : ¬(mergeMap base o).AllStrings := by
  intro hall
  refine hnot fun k v hk => ?_
  have hget : (mergeMap base o).get? k = some v := by
    rw [get?_mergeMap_lay, hk]
    refine overlay_of_not_map (ho.of_get? hk).ne_null (.inl ?_)
    cases hb : base.get? k with
    | none => rfl
    | some b =>
      have hs := hbase k b hb
      cases b with
      | obj keys vals => cases hs
      | _ => rfl
  exact hall k v hget

/-- Labels of the manifest that are strings spoil nothing. -/
lemma allStrings_mergeMap {o base : Object} (ho : o.AllStrings) (hbase : base.AllStrings) :
    (mergeMap base o).AllStrings := by
  intro k v hv
  rw [get?_mergeMap_lay] at hv
  cases hk : o.get? k with
  | none =>
    rw [hk] at hv
    exact hbase k v hv
  | some w =>
    rw [hk] at hv
    have hs := ho k w hk
    cases w with
    | str s =>
      obtain rfl := Option.some.inj hv
      rfl
    | _ => cases hs

lemma allStrings_withSelector {labels sel : Object} (hl : labels.AllStrings)
    (hs : sel.AllStrings) : (withSelector labels sel).AllStrings := by
  intro k v hv
  rw [get?_withSelector] at hv
  cases hk : sel.get? k with
  | none =>
    rw [hk] at hv
    exact hl k v hv
  | some w =>
    rw [hk] at hv
    obtain rfl := Option.some.inj hv
    exact hs k w hk

lemma allStrings_empty : Object.empty.AllStrings := fun k v hv => by simp at hv

/-- What is read as a map of strings is one. -/
lemma allStrings_of_stringMap {v? : Option Value} {m : Object} (h : stringMap v? = some m) :
    m.AllStrings := by
  obtain ⟨v, -, hv⟩ := Option.bind_eq_some_iff.mp h
  obtain ⟨m', -, hm'⟩ := Option.bind_eq_some_iff.mp hv
  rw [Object.convert_asString] at hm'
  split_ifs at hm' with hall
  obtain rfl := Option.some.inj hm'
  exact hall

/-- Adding the labels `sel` of the selector a second time changes nothing. -/
lemma withSelector_withSelector (labels sel : Object) :
    withSelector (withSelector labels sel) sel = withSelector labels sel := by
  refine Object.ext_get? fun k => ?_
  simp only [get?_withSelector]
  cases sel.get? k <;> rfl

/-- **The labels on the second pass.** Laying the labels of the manifest over those of the first
pass and adding the selector gives the labels of the first pass again.

**Proof sketch.** If the labels of the manifest are strings, each of them is what the first pass
had there, unless the selector has the key. If one of them is not, it spoils the labels on both
passes, since those of the live object are strings. -/
theorem withSelector_again {base? over? labels? : Option Value} {sel : Object} {w' : Value}
    (hlabels : ∀ v, over? = some v → labels? = overlay base? v)
    (hnull : ∀ v, over? = some v → v.NullFree)
    (hbase : ∀ m, base? = some (.ofObject m) → m.AllStrings) (hsel : sel.AllStrings)
    (hw' : lay (some (.ofObject (withSelector ((stringMap labels?).getD .empty) sel))) over? =
      some w') :
    withSelector ((stringMap (some w')).getD .empty) sel =
      withSelector ((stringMap labels?).getD .empty) sel := by
  have hread : ((stringMap labels?).getD .empty).AllStrings := by
    cases hl : stringMap labels? with
    | none => exact allStrings_empty
    | some m => exact allStrings_of_stringMap hl
  cases over? with
  | none =>
    obtain rfl := Option.some.inj hw'
    rw [stringMap_ofObject, if_pos (allStrings_withSelector hread hsel), Option.getD_some,
      withSelector_withSelector]
  | some v =>
    have hv := hnull v rfl
    rw [hlabels v rfl] at hw' ⊢
    cases hmap : v.asMap with
    | none =>
      -- not a map: it is what the first pass found as well
      have htaken : ∀ b : Option Value, overlay b v = some v :=
        fun b => overlay_of_not_map hv.ne_null (.inr hmap)
      obtain rfl : v = w' := Option.some.inj ((htaken _).symm.trans hw')
      rw [htaken]
    | some o =>
      obtain rfl := Value.eq_ofObject hmap
      have ho : o.NullFree := hv
      rw [lay, overlay_map_map] at hw'
      obtain rfl := Option.some.inj hw'
      rw [overlay_ofObject_eq ho, stringMap_ofObject, stringMap_ofObject]
      have hstr : ((base?.bind Value.asMap).getD .empty).AllStrings := by
        cases hb : base?.bind Value.asMap with
        | none => exact allStrings_empty
        | some b =>
          obtain ⟨bv, hbv, hbmap⟩ := Option.bind_eq_some_iff.mp hb
          rw [Value.eq_ofObject hbmap] at hbv
          exact hbase b hbv
      by_cases hall : o.AllStrings
      · have hfirst := allStrings_mergeMap hall hstr
        rw [if_pos hfirst, Option.getD_some,
          if_pos (allStrings_mergeMap hall (allStrings_withSelector hfirst hsel)), Option.getD_some]
        refine Object.ext_get? fun k => ?_
        rw [get?_withSelector, get?_withSelector, get?_mergeMap_lay, get?_withSelector]
        cases sel.get? k with
        | some s => rfl
        | none => rw [Option.none_or, Option.none_or, get?_mergeMap_lay, lay_lay ho]
      · rw [if_neg (not_allStrings_mergeMap ho hall hstr), Option.getD_none,
          if_neg (not_allStrings_mergeMap ho hall
            (allStrings_withSelector allStrings_empty hsel)), Option.getD_none]

/-! ## Storage, again -/

/-- The larger of the larger of two quantities and the second is the same. -/
lemma larger_absorb {a c : Option (ℚ × String)} {least : ℚ × String}
    (h : larger a c = some least) : larger (some least) c = some least := by
  cases c with
  | none => rfl
  | some c => rw [larger, if_neg (not_lt.mpr ((larger_eq_some h).2 c (.inr rfl)))]

/-- The larger of two quantities that were read can be read from its text. -/
lemma readQuantity_text {env : Env} {r c : Option Value} {least : ℚ} {text : String}
    (h : larger (readQuantity env r) (readQuantity env c) = some (least, text)) :
    readQuantity env (some (.str text)) = some (least, text) := by
  rcases (larger_eq_some h).1 with hread | hread
  · obtain ⟨rfl, -⟩ := readQuantity_eq_some.mp hread
    exact hread
  · obtain ⟨rfl, -⟩ := readQuantity_eq_some.mp hread
    exact hread

/-- A request is not raised if what is read of it is at least the least size. -/
lemma clampTo_eq_none {env : Env} {floor : Option (ℚ × String)} {request : Option Value} :
    clampTo env floor request = none ↔ ∀ least, floor = some least →
      ∃ q, env.parseQuantity ((request.bind Value.asString).getD "") = some q ∧ q ≥ least.1 := by
  cases floor with
  | none => simp [clampTo]
  | some least =>
    rw [clampTo, Option.bind_some]
    cases env.parseQuantity ((request.bind Value.asString).getD "") with
    | none => simp
    | some q => simp

/-- **A request that is not raised is not raised on the second pass**, when it is the live
request. -/
theorem clampTo_again {env : Env} {a : Option (ℚ × String)} {c request : Option Value}
    (h : clampTo env (larger a (readQuantity env c)) request = none) :
    clampTo env (larger (readQuantity env request) (readQuantity env c)) request = none := by
  rw [clampTo_eq_none] at h ⊢
  -- The request is not below the capacity, as the first pass has left it.
  have hc : ∀ b, readQuantity env c = some b → ∃ q,
      env.parseQuantity ((request.bind Value.asString).getD "") = some q ∧ q ≥ b.1 := by
    intro b hb
    cases hfloor : larger a (readQuantity env c) with
    | none =>
      rw [(larger_eq_none.mp hfloor).2] at hb
      cases hb
    | some least =>
      obtain ⟨q, hq, hge⟩ := h least hfloor
      exact ⟨q, hq, ((larger_eq_some hfloor).2 b (.inr hb)).trans hge⟩
  intro least hleast
  rcases (larger_eq_some hleast).1 with hr | hb
  · obtain ⟨rfl, -, hq⟩ := readQuantity_eq_some.mp hr
    exact ⟨least.1, hq, le_rfl⟩
  · exact hc least hb

/-- A request that is raised is raised to the least size. -/
lemma exists_of_clampTo {env : Env} {floor : Option (ℚ × String)} {request : Option Value}
    {w : Value} (h : clampTo env floor request = some w) :
    ∃ least text, floor = some (least, text) ∧ w = .str text := by
  obtain ⟨least, rfl, hw⟩ := Option.bind_eq_some_iff.mp h
  refine ⟨least.1, least.2, rfl, ?_⟩
  cases hq : env.parseQuantity ((request.bind Value.asString).getD "") with
  | none =>
    rw [hq] at hw
    exact (Option.some.inj hw).symm
  | some q =>
    rw [hq] at hw
    dsimp only at hw
    split_ifs at hw
    exact (Option.some.inj hw).symm

/-- Clamping looks at the request through its text only. -/
lemma clampTo_congr (env : Env) (floor : Option (ℚ × String)) {r r' : Option Value}
    (h : r.bind Value.asString = r'.bind Value.asString) :
    clampTo env floor r = clampTo env floor r' := by
  rw [clampTo, clampTo, h]

/-- A value laid over another is text exactly if it is text itself. -/
lemma asString_overlay {v : Value} (hv : v.NullFree) (base? : Option Value) :
    (overlay base? v).bind Value.asString = v.asString := by
  obtain ⟨hn, -⟩ | ⟨bv, ov, -, rfl, h⟩ | ⟨-, -, h⟩ := overlay_cases base? v
  · exact absurd hn hv.ne_null
  · rw [h]
    rfl
  · rw [h]
    rfl

/-! ## The spec, again -/

section Finish

variable {o taken liveSpec : Object} {fields : List String}
  (ho : o.NullFree) (htaken : ∀ k ∉ fields, taken.get? k = (mergeMap liveSpec o).get? k)

include ho htaken

/-- What is behind a key that is not taken, where the manifest has something. -/
lemma at?_taken {f : String} {fs : List String} {v : Value} (hf : f ∉ fields)
    (hv : o.at? (f :: fs) = some v) :
    taken.at? (f :: fs) = overlay (liveSpec.at? (f :: fs)) v := by
  rw [← at?_mergeMap_of_at? ho hv (by simp), Object.at?_cons, Object.at?_cons, htaken f hf]

/-- **The storage request on the second pass**: the least size is now the live request and still not
below the capacity, and the manifest asks for what it asked for. -/
theorem storage_again (env : Env) (c : Option Value) (hf : "resources" ∉ fields) {spec' : Object}
    (hspec' : spec' = taken.edit ["resources", "requests", "storage"] (clampTo env
      (larger (readQuantity env (liveSpec.at? ["resources", "requests", "storage"]))
        (readQuantity env c)) (taken.at? ["resources", "requests", "storage"]))) :
    (adopt fields (mergeMap spec' o) spec').edit ["resources", "requests", "storage"]
      (clampTo env (larger (readQuantity env (spec'.at? ["resources", "requests", "storage"]))
        (readQuantity env c)) ((adopt fields (mergeMap spec' o) spec').at?
          ["resources", "requests", "storage"])) = spec' := by
  refine edit_again ho htaken (clampTo env (larger (readQuantity env (spec'.at?
    ["resources", "requests", "storage"])) (readQuantity env c))) hf ?_ ?_ hspec'
  · intro hnone
    rw [hspec', hnone, Object.edit_none]
    exact clampTo_again hnone
  · intro w w' hw hset hlay
    obtain ⟨least, text, hfloor, rfl⟩ := exists_of_clampTo hw
    have htext := readQuantity_text hfloor
    -- the request assigned is the live request of the second pass
    rw [Object.at?_setNestedField hset, htext, larger_absorb hfloor]
    cases hv : o.at? ["resources", "requests", "storage"] with
    | none =>
      rw [hv] at hlay
      obtain rfl := Option.some.inj hlay
      refine .inr ⟨clampTo_eq_none.mpr fun least' hleast => ?_, rfl⟩
      obtain rfl := Option.some.inj hleast
      exact ⟨least, (readQuantity_eq_some.mp htext).2.2, le_rfl⟩
    | some v =>
      rw [hv] at hlay
      have hnull := ho.of_at? hv
      obtain rfl : v = w' :=
        Option.some.inj ((overlay_of_not_map hnull.ne_null (.inl rfl)).symm.trans hlay)
      rw [hfloor] at hw
      refine .inl (Eq.trans (clampTo_congr env _ ?_) hw)
      rw [at?_taken ho htaken hf hv, asString_overlay hnull]
      rfl

/-- **The labels on the second pass**: merging and adopting once more from the `spec'` that the
first pass wrote gives `spec'` again. -/
theorem labels_again
    (hlabels : ∀ ls, liveSpec.at? ["template", "metadata", "labels"] = some (.ofObject ls) →
      ls.AllStrings) (hf : "template" ∉ fields) (hsel : "selector" ∈ fields) {spec' : Object}
    (hspec' : spec' = taken.edit ["template", "metadata", "labels"]
      (labelsTo (taken.at? ["selector", "matchLabels"])
        (taken.at? ["template", "metadata", "labels"]))) :
    (adopt fields (mergeMap spec' o) spec').edit ["template", "metadata", "labels"]
      (labelsTo ((adopt fields (mergeMap spec' o) spec').at? ["selector", "matchLabels"])
        ((adopt fields (mergeMap spec' o) spec').at? ["template", "metadata", "labels"])) =
      spec' := by
  have hselector : (adopt fields (mergeMap spec' o) spec').at? ["selector", "matchLabels"] =
      taken.at? ["selector", "matchLabels"] := by
    rw [Object.at?_cons, get?_adopt, if_pos hsel, ← Object.at?_cons, hspec',
      Object.at?_edit_of_apart _ _ (by decide)]
  rw [hselector]
  refine edit_again ho htaken (labelsTo (taken.at? ["selector", "matchLabels"])) hf id ?_ hspec'
  intro w w' hw _ hlay
  obtain ⟨sel, hread, hw⟩ := Option.bind_eq_some_iff.mp hw
  split_ifs at hw with hne
  obtain rfl := Option.some.inj hw
  refine .inl ?_
  rw [labelsTo, hread, Option.bind_some, if_neg hne]
  refine congrArg (some ∘ Value.ofObject) (withSelector_again ?_ ?_ hlabels
    (allStrings_of_stringMap hread) hlay)
  · exact fun v hv => at?_taken ho htaken hf hv
  · exact fun v hv => ho.of_at? hv

end Finish

/-- **The spec of the second body is that of the first.** -/
theorem finishSpec_again (env : Env) (kind : String) {o liveSpec spec' : Object}
    (c : Option Value) (ho : o.NullFree)
    (hlabels : ∀ ls, liveSpec.at? ["template", "metadata", "labels"] = some (.ofObject ls) →
      ls.AllStrings)
    (hspec' : spec' = finishSpec env kind
      (larger (readQuantity env (liveSpec.at? ["resources", "requests", "storage"]))
        (readQuantity env c))
      (adopt (immutableFields kind) (mergeMap liveSpec o) liveSpec)) :
    finishSpec env kind
        (larger (readQuantity env (spec'.at? ["resources", "requests", "storage"]))
          (readQuantity env c))
        (adopt (immutableFields kind) (mergeMap spec' o) spec') = spec' := by
  have htaken : ∀ k ∉ immutableFields kind,
      (adopt (immutableFields kind) (mergeMap liveSpec o) liveSpec).get? k =
        (mergeMap liveSpec o).get? k := fun k hk => get?_adopt_of_not_mem hk _ _
  unfold finishSpec at hspec' ⊢
  split_ifs at hspec' ⊢ with hpvc hw
  · exact storage_again ho htaken env c (by rw [hpvc]; decide) hspec'
  · obtain ⟨-, hsel, hother, -⟩ := workload_facts hw
    exact labels_again ho htaken hlabels hother hsel hspec'
  · rw [hspec']
    exact adopt_again ho htaken

/-! ## The metadata, again -/

/-- What setting a string field does to the value of the map it is in; the empty string removes the
field, and a value that is not a map stays. -/
def setField (g s : String) : Option Value → Option Value
  | none => if s = "" then none else some (.ofObject (Object.empty.set g (.str s)))
  | some v => match v.asMap with
    | some md => some (.ofObject (if s = "" then md.erase g else md.set g (.str s)))
    | none => some v

lemma get?_metadata_setString (u : Object) (g s : String) :
    (setString u s ["metadata", g]).get? "metadata" = setField g s (u.get? "metadata") := by
  unfold setString
  cases hmd : u.get? "metadata" with
  | none =>
    by_cases hs : s = ""
    · simp [hs, Object.removeNestedField, setField, hmd]
    · simp [hs, Object.setNestedField, setField, hmd]
  | some v =>
    cases hmap : v.asMap with
    | none =>
      by_cases hs : s = ""
      · simp [hs, Object.removeNestedField, setField, hmd, hmap]
      · simp [hs, Object.setNestedField, setField, hmd, hmap]
    | some md =>
      by_cases hs : s = ""
      · simp [hs, Object.removeNestedField, setField, hmd, hmap]
      · simp [hs, Object.setNestedField, setField, hmd, hmap]

/-- Setting the field `g` of a map to a text that is not empty. -/
lemma setField_ofObject {g s : String} (hs : s ≠ "") (md : Object) :
    setField g s (some (.ofObject md)) = some (.ofObject (md.set g (.str s))) := by
  rw [setField, Value.asMap_ofObject]
  exact congrArg (some ∘ Value.ofObject) (if_neg hs)

/-- A field that is removed and set is set. -/
lemma erase_set (m : Object) (k : String) (v : Value) : (m.erase k).set k v = m.set k v := by
  refine Object.ext_get? fun k' => ?_
  simp only [Object.get?_set, Object.get?_erase]
  split_ifs <;> rfl

/-- Of two values for a field the later counts. -/
lemma setField_setField {g s : String} (hs : s ≠ "") (t : String) (v? : Option Value) :
    setField g s (setField g t v?) = setField g s v? := by
  cases v? with
  | none =>
    by_cases ht : t = ""
    · simp [setField, ht]
    · simp [setField, ht, hs, Object.set_set]
  | some v =>
    cases hmap : v.asMap with
    | none => simp [setField, hmap]
    | some md =>
      by_cases ht : t = ""
      · simp [setField, hmap, ht, hs, erase_set]
      · simp [setField, hmap, ht, hs, Object.set_set]

/-- The other fields of a map in which a field is set. -/
lemma get?_setField_of_ne {g k : String} (hk : k ≠ g) (t : String) (v? : Option Value) :
    (((setField g t v?).bind Value.asMap).getD .empty).get? k =
      ((v?.bind Value.asMap).getD .empty).get? k := by
  cases v? with
  | none => by_cases ht : t = "" <;> simp [setField, ht, Object.get?_set_of_ne _ _ hk]
  | some v =>
    cases hmap : v.asMap with
    | none => simp [setField, hmap]
    | some md =>
      by_cases ht : t = "" <;>
        simp [setField, hmap, ht, Object.get?_set_of_ne _ _ hk, Object.get?_erase_of_ne _ hk]

/-- **Metadata that differ in one field** still do when the manifest is laid over them. -/
theorem setField_lay {g s : String} (hs : s ≠ "") (t : String) {o : Object} (ho : o.NullFree)
    (k : String) (v? : Option Value) :
    setField g s (lay (setField g t v?) (o.get? k)) = setField g s (lay v? (o.get? k)) := by
  cases hk : o.get? k with
  | none => exact setField_setField hs t v?
  | some w =>
    have hw := ho.of_get? hk
    cases hmap : w.asMap with
    | none =>
      have htaken : ∀ b, lay b (some w) = some w :=
        fun b => overlay_of_not_map hw.ne_null (.inr hmap)
      rw [htaken, htaken]
    | some o' =>
      obtain rfl := Value.eq_ofObject hmap
      have ho' : o'.NullFree := hw
      have hlay : ∀ b, lay b (some (.ofObject o')) =
          some (.ofObject (mergeMap ((b.bind Value.asMap).getD .empty) o')) :=
        fun b => overlay_ofObject_eq ho' b
      rw [hlay, hlay, setField_ofObject hs, setField_ofObject hs]
      refine congrArg (some ∘ Value.ofObject) (Object.ext_get? fun f => ?_)
      rw [Object.get?_set, Object.get?_set]
      split_ifs with hf
      · rfl
      · rw [get?_mergeMap_lay, get?_mergeMap_lay, get?_setField_of_ne hf]

/-! ## The whole body, again -/

/-- The body of an update before its hash is recorded. -/
def unstampedBody (env : Env) (live obj : Object) : Object :=
  adoptImmutableFields env
    (setResourceVersion (mergeForUpdate live obj) (getResourceVersion live)) live

lemma updateBody_eq_stamp (env : Env) (live obj : Object) :
    updateBody env live obj = Drift.stamp env (unstampedBody env live obj) := rfl

/-- What the API server stores for a body: the body under a new version, with the status the object
had. -/
def stored (live body : Object) (rv : String) : Object :=
  match live.get? "status" with
  | some v => (setResourceVersion body rv).set "status" v
  | none => (setResourceVersion body rv).erase "status"

/-- The objects are the same once they carry the same version. -/
def EqUpToVersion (a b : Object) : Prop :=
  ∀ rv, rv ≠ "" → setResourceVersion a rv = setResourceVersion b rv

lemma get?_status_stored (live body : Object) (rv : String) :
    (stored live body rv).get? "status" = live.get? "status" := by
  unfold stored
  cases live.get? "status" with
  | none => exact Object.get?_erase_self _ _
  | some v => exact Object.get?_set_self _ _ _

lemma get?_stored_of_ne (live body : Object) (rv : String) {k : String} (hk : k ≠ "status") :
    (stored live body rv).get? k = (setResourceVersion body rv).get? k := by
  unfold stored
  cases live.get? "status" with
  | none => exact Object.get?_erase_of_ne _ hk
  | some v => exact Object.get?_set_of_ne _ _ hk

section Body

variable (env : Env) (live m : Object)

/-- The `metadata` of the body is the merged one with the resource version of the live object. -/
lemma get?_metadata_unstampedBody :
    (unstampedBody env live m).get? "metadata" =
      setField "resourceVersion" (getResourceVersion live)
        (lay (live.get? "metadata") (m.get? "metadata")) := by
  rw [unstampedBody, get?_adoptImmutableFields _ _ _ (by decide), setResourceVersion,
    get?_metadata_setString, mergeForUpdate, get?_mergeMap_lay]

/-- What of the body is neither its metadata nor its spec. -/
lemma get?_unstampedBody_of_ne {k : String} (hmd : k ≠ "metadata") (hspec : k ≠ "spec") :
    (unstampedBody env live m).get? k = lay (live.get? k) (m.get? k) := by
  rw [unstampedBody, get?_adoptImmutableFields _ _ _ hspec, setResourceVersion,
    get?_setString_of_ne _ _ _ hmd, mergeForUpdate, get?_mergeMap_lay]

/-- The `spec` of the body is the merged one after the adoption of the immutable fields. -/
lemma get?_spec_unstampedBody :
    (unstampedBody env live m).get? "spec" =
      (adoptImmutableFields env (mergeForUpdate live m) live).get? "spec" := by
  rw [← get?_spec_updateBody, updateBody_eq_stamp, Drift.get?_stamp_of_ne _ _ (by decide)]

variable {live m} (rv : String) (hm : m.NullFree)

include hm

/-- The metadata of the second body are those of the first, up to the version. -/
lemma metadata_again {v : String} (hv : v ≠ "") :
    (setResourceVersion (unstampedBody env (stored live (unstampedBody env live m) rv) m) v).get?
        "metadata" =
      (setResourceVersion (unstampedBody env live m) v).get? "metadata" := by
  rw [setResourceVersion, get?_metadata_setString, get?_metadata_unstampedBody,
    setField_setField hv, get?_stored_of_ne _ _ _ (by decide), setResourceVersion,
    get?_metadata_setString, setField_lay hv _ hm, get?_metadata_unstampedBody,
    setField_lay hv _ hm, lay_lay hm, setResourceVersion, get?_metadata_setString,
    get?_metadata_unstampedBody, setField_setField hv]

/-- What is neither metadata nor spec is the same in the second body. -/
lemma rest_again {k : String} (hmd : k ≠ "metadata") (hspec : k ≠ "spec") :
    (unstampedBody env (stored live (unstampedBody env live m) rv) m).get? k =
      (unstampedBody env live m).get? k := by
  rw [get?_unstampedBody_of_ne env _ _ hmd hspec]
  by_cases hstatus : k = "status"
  · rw [hstatus, get?_status_stored, get?_unstampedBody_of_ne env _ _ (by decide) (by decide)]
  · rw [get?_stored_of_ne _ _ _ hstatus, setResourceVersion, get?_setString_of_ne _ _ _ hmd,
      get?_unstampedBody_of_ne env _ _ hmd hspec, lay_lay hm]

/-- The kind of the merged object is the same on the second pass. -/
lemma kind_again :
    getKind (mergeForUpdate (stored live (unstampedBody env live m) rv) m) =
      getKind (mergeForUpdate live m) := by
  have hkind : (mergeForUpdate (stored live (unstampedBody env live m) rv) m).get? "kind" =
      (mergeForUpdate live m).get? "kind" := by
    rw [mergeForUpdate, get?_mergeMap_lay, get?_stored_of_ne _ _ _ (by decide), setResourceVersion,
      get?_setString_of_ne _ _ _ (by decide),
      get?_unstampedBody_of_ne env _ _ (by decide) (by decide), lay_lay hm, mergeForUpdate,
      get?_mergeMap_lay]
  simp only [getKind, getString, Object.toOption_nestedString, Object.at?_singleton, hkind]

/-- The spec of the second body, where the first has none that is a map. -/
lemma spec_again_of_none (hspec : (mergeForUpdate live m).mapAt "spec" = none) :
    (unstampedBody env (stored live (unstampedBody env live m) rv) m).get? "spec" =
      (unstampedBody env live m).get? "spec" := by
  have hfirst : (unstampedBody env live m).get? "spec" = (mergeForUpdate live m).get? "spec" := by
    rw [get?_spec_unstampedBody, adoptImmutableFields_of_none env (.inl hspec)]
  have hsecond : (mergeForUpdate (stored live (unstampedBody env live m) rv) m).get? "spec" =
      (mergeForUpdate live m).get? "spec" := by
    rw [mergeForUpdate, get?_mergeMap_lay, get?_stored_of_ne _ _ _ (by decide), setResourceVersion,
      get?_setString_of_ne _ _ _ (by decide), hfirst, mergeForUpdate, get?_mergeMap_lay, lay_lay hm]
  rw [get?_spec_unstampedBody, adoptImmutableFields_of_none env (.inl ?_), hsecond, hfirst]
  rw [Object.mapAt, hsecond]
  exact hspec

/-- What the manifest has to say about a spec that is a map before and after it is laid over. -/
lemma exists_specOverride {spec : Object}
    (hspec : (mergeForUpdate live m).mapAt "spec" = some spec) :
    ∃ o : Object, o.NullFree ∧ ∀ base, lay (some (.ofObject base)) (m.get? "spec") =
      some (.ofObject (mergeMap base o)) := by
  cases hv : m.get? "spec" with
  | none =>
    refine ⟨.empty, fun p => ?_, fun base => ?_⟩
    · cases p <;> simp [Value.ofObject]
    · refine congrArg (some ∘ Value.ofObject) (Object.ext_get? fun k => ?_)
      rw [get?_mergeMap_lay, Object.get?_empty]
      rfl
  | some v =>
    have hnull := hm.of_get? hv
    cases hmap : v.asMap with
    | some o =>
      obtain rfl := Value.eq_ofObject hmap
      exact ⟨o, hnull, fun base => overlay_map_map base o⟩
    | none =>
      have hget := Object.get?_of_mapAt hspec
      rw [mergeForUpdate, get?_mergeMap_lay, hv] at hget
      have htaken : lay (live.get? "spec") (some v) = some v :=
        overlay_of_not_map hnull.ne_null (.inr hmap)
      rw [Option.some.inj (htaken.symm.trans hget)] at hmap
      cases hmap

/-- **The spec of the second body is that of the first.** -/
theorem spec_again
    (hspec : (∃ s, live.mapAt "spec" = some s) ∨
      live.get? "spec" = none ∧ m.get? "spec" = none)
    (hlabels : ∀ ls, live.at? labelsPath = some (.ofObject ls) → ls.AllStrings) :
    (unstampedBody env (stored live (unstampedBody env live m) rv) m).get? "spec" =
      (unstampedBody env live m).get? "spec" := by
  cases hmerged : (mergeForUpdate live m).mapAt "spec" with
  | none => exact spec_again_of_none env rv hm hmerged
  | some spec =>
    rcases hspec with ⟨liveSpec, hlive⟩ | ⟨hlive, hnone⟩
    · obtain ⟨o, ho, hlay⟩ := exists_specOverride hm hmerged
      obtain ⟨spec', hspec'⟩ : ∃ spec', spec' = finishSpec env (getKind (mergeForUpdate live m))
        (pvcStorageFloor env live) (adopt (immutableFields (getKind (mergeForUpdate live m)))
          (mergeMap liveSpec o) liveSpec) := ⟨_, rfl⟩
      have hmap : (mergeForUpdate live m).mapAt "spec" = some (mergeMap liveSpec o) := by
        refine Object.mapAt_of_get? ?_
        rw [mergeForUpdate, get?_mergeMap_lay, Object.get?_of_mapAt hlive, hlay]
      have hfirst : (unstampedBody env live m).get? "spec" = some (.ofObject spec') := by
        rw [get?_spec_unstampedBody, adoptImmutableFields_eq_set env hmap hlive,
          Object.get?_set_self, hspec']
      -- the first body is the live object of the second pass
      have hstored : (stored live (unstampedBody env live m) rv).mapAt "spec" = some spec' := by
        refine Object.mapAt_of_get? ?_
        rw [get?_stored_of_ne _ _ _ (by decide), setResourceVersion,
          get?_setString_of_ne _ _ _ (by decide), hfirst]
      have hmap' : (mergeForUpdate (stored live (unstampedBody env live m) rv) m).mapAt "spec" =
          some (mergeMap spec' o) := by
        refine Object.mapAt_of_get? ?_
        rw [mergeForUpdate, get?_mergeMap_lay, Object.get?_of_mapAt hstored, hlay]
      have hcapacity : (stored live (unstampedBody env live m) rv).at? capacityPath =
          live.at? capacityPath := by
        rw [capacityPath, Object.at?_cons, Object.at?_cons, get?_status_stored]
      have hfloor : pvcStorageFloor env (stored live (unstampedBody env live m) rv) =
          larger (readQuantity env (spec'.at? ["resources", "requests", "storage"]))
            (readQuantity env (live.at? capacityPath)) := by
        rw [pvcStorageFloor_eq, storagePath, Object.at?_of_mapAt hstored, hcapacity]
      rw [pvcStorageFloor_eq, storagePath, Object.at?_of_mapAt hlive] at hspec'
      rw [labelsPath, Object.at?_of_mapAt hlive] at hlabels
      rw [get?_spec_unstampedBody, adoptImmutableFields_eq_set env hmap' hstored,
        Object.get?_set_self, kind_again env rv hm, hfloor,
        finishSpec_again env _ _ ho hlabels hspec', hfirst]
    · have hget := Object.get?_of_mapAt hmerged
      rw [mergeForUpdate, get?_mergeMap_lay, hlive, hnone] at hget
      cases hget

end Body

/-- **Applying a manifest again changes nothing.** Let the manifest have no nulls, let the spec of
the live object be a map, or let neither have a spec, and let the labels of the live pod template,
if they are a map, be strings. Then the body built for the object that the API server stores is the
one built before, up to the version. -/
theorem redeploy_idempotent (env : Env) (live m : Object) (rv : String) (hm : m.NullFree)
    (hspec : (∃ s, live.mapAt "spec" = some s) ∨
      live.get? "spec" = none ∧ m.get? "spec" = none)
    (hlabels : ∀ ls, live.at? labelsPath = some (.ofObject ls) → ls.AllStrings) :
    EqUpToVersion (unstampedBody env (stored live (unstampedBody env live m) rv) m)
      (unstampedBody env live m) := by
  intro v hv
  refine Object.ext_get? fun k => ?_
  by_cases hmd : k = "metadata"
  · rw [hmd]
    exact metadata_again env rv hm hv
  · rw [setResourceVersion, setResourceVersion, get?_setString_of_ne _ _ _ hmd,
      get?_setString_of_ne _ _ _ hmd]
    by_cases hk : k = "spec"
    · rw [hk]
      exact spec_again env rv hm hspec hlabels
    · exact rest_again env rv hm hmd hk

/-- The deployment again, with the manifest that sets a version as text. -/
theorem redeploy_web :
    EqUpToVersion
      (unstampedBody (.ofTables {}) (stored liveWeb
        (unstampedBody (.ofTables {}) liveWeb (webManifest (.str "2"))) "8")
        (webManifest (.str "2")))
      (unstampedBody (.ofTables {}) liveWeb (webManifest (.str "2"))) := by
  have hlabels : ∀ v ∈ liveWeb.at? labelsPath, ∀ ls ∈ v.asMap, ls.AllStrings := by decide +kernel
  exact redeploy_idempotent _ _ _ _ (by decide +kernel)
    (.inl (Option.isSome_iff_exists.mp (by decide +kernel))) fun ls h => hlabels _ h ls rfl

end K8sAgent.Merge
