import K8sAgent.Lib.JsonPath
import K8sAgent.Executor.Merge

set_option relaxedAutoImplicit false
set_option autoImplicit false

/-!
# What an update keeps, sets and removes

`mergeMap` builds the body of an update by laying the manifest over the live object. Seen path by
path it promises three things: a value of the manifest wins, a null of the manifest removes the
key, and what the manifest does not mention stays as it is. The promise on nulls is kept only
where the live object already has the maps on the way: a map that is new to the live object is
taken over whole, with the nulls inside it.

## Main definitions

* `Merge.Unmentioned` — the override says nothing about a path.
* `Merge.OverlayLaw` — the three promises at one path.

## Main results

* `Merge.overlayLaw_iff` — the law holds at a path exactly when a null there sits below maps the
  base has.
* `Merge.mergeMap_mergeMap` — laying an override without nulls over a second time changes nothing.
* `Merge.mergeMap_setNestedField` — laying it over after an assignment along a path.
-/

namespace K8sAgent.Merge

open JsonTree

/-! ## The law -/

/-- The override does not mention a path: the longest prefix of it that the override has leads to
a map without the next key. -/
def Unmentioned (override : Object) (p : List String) : Prop :=
  ∃ q k r m, p = q ++ k :: r ∧ override.at? q = some (.ofObject m) ∧ m.get? k = none

/-- What the merged map holds at a path. -/
structure OverlayLaw (base override : Object) (p : List String) : Prop where
  /-- A value that is neither null nor a map wins. -/
  value_wins : ∀ v, override.at? p = some v → v ≠ .null → v.asMap = none →
    (mergeMap base override).at? p = some v
  /-- An explicit null removes the key. -/
  null_removes : override.at? p = some .null → (mergeMap base override).at? p = none
  /-- What the override does not mention stays. -/
  rest_kept : Unmentioned override p → (mergeMap base override).at? p = base.at? p

/-! ## One key of the merged map -/

/-- The three things `overlay` does with a value of the override: drop the key, merge two maps,
or take the value as it is. -/
lemma overlay_cases (base? : Option Value) (v : Value) :
    (v = .null ∧ overlay base? v = none) ∨
    (∃ bv ov, base?.bind Value.asMap = some bv ∧ v = .ofObject ov ∧
      overlay base? v = some (.ofObject (mergeMap bv ov))) ∨
    (v ≠ .null ∧ (base?.bind Value.asMap = none ∨ v.asMap = none) ∧ overlay base? v = some v) := by
  cases v with
  | null => exact .inl ⟨rfl, rfl⟩
  | obj keys vals =>
    refine .inr ?_
    cases hb : base?.bind Value.asMap with
    | some bv => exact .inl ⟨bv, ⟨keys, vals⟩, rfl, rfl, overlay_ofObject ⟨keys, vals⟩ hb⟩
    | none =>
      refine .inr ⟨by simp, .inl rfl, ?_⟩
      rw [overlay, hb]
  | bool b => exact .inr (.inr ⟨by simp, .inr rfl, rfl⟩)
  | num q => exact .inr (.inr ⟨by simp, .inr rfl, rfl⟩)
  | str s => exact .inr (.inr ⟨by simp, .inr rfl, rfl⟩)
  | arr n elems => exact .inr (.inr ⟨by simp, .inr rfl, rfl⟩)

/-- A path of the merged map whose first key the override lacks. -/
lemma at?_mergeMap_of_none {base override : Object} {k : String} (ks : List String)
    (h : override.get? k = none) :
    (mergeMap base override).at? (k :: ks) = base.at? (k :: ks) := by
  rw [Object.at?_cons, get?_mergeMap, h, Object.at?_cons]

/-- A path of the merged map whose first key the override has. -/
lemma at?_mergeMap_of_some {base override : Object} {k : String} {w : Value}
    (ks : List String) (h : override.get? k = some w) :
    (mergeMap base override).at? (k :: ks) =
      (overlay (base.get? k) w).bind fun w => w.at? ks := by
  rw [Object.at?_cons, get?_mergeMap, h]

/-- A path below a key whose value is not a map leads nowhere. -/
lemma at?_of_not_map {base : Object} {k : String} (h : (base.get? k).bind Value.asMap = none)
    (k' : String) (ks : List String) : base.at? (k :: k' :: ks) = none := by
  rw [Object.at?_cons]
  cases hb : base.get? k with
  | none => rfl
  | some b =>
    rw [hb, Option.bind_some] at h
    rw [Option.bind_some]
    exact Value.at?_cons_of_not_map h k' ks

/-! ## The three promises -/

/-- **A value of the override wins.**

**Proof sketch.** Induction on the path. Where both sides have a map the induction hypothesis
applies below it; everywhere else the override's value is taken as it is. -/
theorem at?_mergeMap_of_value {override : Object} {p : List String} {v : Value}
    (h : override.at? p = some v) (hnull : v ≠ .null) (hmap : v.asMap = none) (base : Object) :
    (mergeMap base override).at? p = some v := by
  induction p generalizing base override with
  | nil =>
    obtain rfl : Value.ofObject override = v := Option.some.inj h
    simp at hmap
  | cons k ks ih =>
    rw [Object.at?_cons] at h
    cases hw : override.get? k with
    | none => simp [hw] at h
    | some w =>
      rw [hw, Option.bind_some] at h
      rw [at?_mergeMap_of_some ks hw]
      obtain ⟨rfl, -⟩ | ⟨bv, ov, -, rfl, hov⟩ | ⟨-, -, hov⟩ := overlay_cases (base.get? k) w
      · -- a null is the value itself, or has nothing below it
        cases ks with
        | nil => exact absurd (Option.some.inj h).symm hnull
        | cons k' ks => simp [Value.at?, Value.asMap] at h
      · rw [hov, Option.bind_some]
        exact ih h bv
      · rw [hov, Option.bind_some]
        exact h

/-- An override that does not mention a path has nothing there. -/
lemma Unmentioned.at?_eq_none {override : Object} {p : List String}
    (h : Unmentioned override p) : override.at? p = none := by
  obtain ⟨q, k, r, m, rfl, hq, hk⟩ := h
  induction q generalizing override with
  | nil =>
    obtain rfl : override = m := Value.ofObject_injective (Option.some.inj hq)
    rw [List.nil_append, Object.at?_cons, hk]
    rfl
  | cons k' q ih =>
    rw [List.cons_append, Object.at?_cons]
    rw [Object.at?_cons] at hq
    cases hw : override.get? k' with
    | none => rfl
    | some w =>
      rw [hw, Option.bind_some] at hq
      rw [Option.bind_some]
      cases hmap : w.asMap with
      | some ov =>
        obtain rfl := Value.eq_ofObject hmap
        exact ih hq
      | none =>
        cases q with
        | nil =>
          obtain rfl := Option.some.inj hq
          simp at hmap
        | cons k'' q => exact Value.at?_cons_of_not_map hmap _ _

/-- A path the override does not mention, below a key it has: the value there is a map that does
not mention the rest of the path. -/
lemma Unmentioned.below {override : Object} {k : String} {ks : List String} {w : Value}
    (h : Unmentioned override (k :: ks)) (hw : override.get? k = some w) :
    ∃ ov, w = .ofObject ov ∧ Unmentioned ov ks := by
  obtain ⟨q, k₀, r, m, hp, hq, hk₀⟩ := h
  cases q with
  | nil =>
    obtain rfl : override = m := Value.ofObject_injective (Option.some.inj hq)
    obtain ⟨rfl, rfl⟩ := List.cons.inj hp
    rw [hk₀] at hw
    cases hw
  | cons k' q =>
    obtain ⟨rfl, rfl⟩ := List.cons.inj hp
    rw [Object.at?_cons, hw, Option.bind_some] at hq
    cases hmap : w.asMap with
    | some ov =>
      obtain rfl := Value.eq_ofObject hmap
      exact ⟨ov, rfl, q, k₀, r, m, rfl, hq, hk₀⟩
    | none =>
      cases q with
      | nil =>
        obtain rfl := Option.some.inj hq
        simp at hmap
      | cons k'' q => rw [Value.at?_cons_of_not_map hmap] at hq; cases hq

/-- **What the override does not mention stays.**

**Proof sketch.** Induction on the path. Below a map of the override that the base has no map
for, neither side has anything at the path. -/
theorem at?_mergeMap_of_unmentioned {override : Object} {p : List String}
    (h : Unmentioned override p) (base : Object) :
    (mergeMap base override).at? p = base.at? p := by
  induction p generalizing base override with
  | nil =>
    obtain ⟨q, k, r, m, hp, -⟩ := h
    simp at hp
  | cons k ks ih =>
    cases hw : override.get? k with
    | none => exact at?_mergeMap_of_none ks hw
    | some w =>
      obtain ⟨ov, rfl, hov⟩ := h.below hw
      rw [at?_mergeMap_of_some ks hw]
      obtain ⟨hnull, -⟩ | ⟨bv, ov', hb, hov', hmerge⟩ | ⟨-, hb, htake⟩ :=
        overlay_cases (base.get? k) (.ofObject ov)
      · exact absurd (congrArg Value.asMap hnull) (by simp [Value.asMap, Value.ofObject])
      · obtain rfl : ov = ov' := Value.ofObject_injective hov'
        rw [hmerge, Option.bind_some]
        obtain ⟨b, hbk, hbmap⟩ := Option.bind_eq_some_iff.mp hb
        rw [Object.at?_cons, hbk, Option.bind_some, Value.eq_ofObject hbmap]
        exact ih hov bv
      · have hnone : ov.at? ks = none := hov.at?_eq_none
        obtain ⟨q, k', r, m, rfl, -⟩ := hov
        rw [htake, Option.bind_some]
        have hbase : base.at? (k :: (q ++ k' :: r)) = none := by
          replace hb : (base.get? k).bind Value.asMap = none := by simpa using hb
          cases q with
          | nil => exact at?_of_not_map hb k' r
          | cons k'' q => exact at?_of_not_map hb k'' (q ++ k' :: r)
        rw [hbase]
        exact hnone

/-- **A null removes the key exactly where the base has the maps on the way.**

**Proof sketch.** Induction on the path. Below a map both sides have, the question is the same
for the two maps; below a map only the override has, the override is taken with its nulls. -/
theorem at?_mergeMap_of_null {override : Object} {p : List String}
    (h : override.at? p = some .null) (base : Object) :
    (mergeMap base override).at? p = none ↔ ∃ m, base.at? p.dropLast = some (.ofObject m) := by
  induction p generalizing base override with
  | nil => exact absurd (Option.some.inj h) (by simp [Value.ofObject])
  | cons k ks ih =>
    rw [Object.at?_cons] at h
    cases hw : override.get? k with
    | none => simp [hw] at h
    | some w =>
      rw [hw, Option.bind_some] at h
      rw [at?_mergeMap_of_some ks hw]
      obtain ⟨rfl, hov⟩ | ⟨bv, ov, hb, rfl, hov⟩ | ⟨hnull, hb, hov⟩ :=
        overlay_cases (base.get? k) w
      · cases ks with
        | nil => simp [hov]
        | cons k' ks => simp [Value.at?, Value.asMap] at h
      · cases ks with
        | nil => exact absurd (Option.some.inj h) (by simp [Value.ofObject])
        | cons k' ks =>
          obtain ⟨b, hbk, hbmap⟩ := Option.bind_eq_some_iff.mp hb
          have hbelow : base.at? (k :: k' :: ks).dropLast = bv.at? (k' :: ks).dropLast := by
            rw [List.dropLast_cons_of_ne_nil (by simp), Object.at?_cons, hbk, Option.bind_some,
              Value.eq_ofObject hbmap]
            rfl
          rw [hov, Option.bind_some, hbelow]
          exact ih h bv
      · cases ks with
        | nil => exact absurd (Option.some.inj h) hnull
        | cons k' ks =>
          -- `w` has something below it, so it is a map and the base has none there
          have hmap : w.asMap ≠ none := by
            intro hmap
            rw [Value.at?_cons_of_not_map hmap] at h
            cases h
          have hbase : (base.get? k).bind Value.asMap = none := hb.resolve_right hmap
          rw [hov, Option.bind_some, h]
          refine iff_of_false (by simp) ?_
          rintro ⟨m, hm⟩
          cases ks with
          | nil =>
            rw [List.dropLast_cons_of_ne_nil (by simp), Object.at?_cons] at hm
            obtain ⟨b, hbk, hbm⟩ := Option.bind_eq_some_iff.mp hm
            obtain rfl := Option.some.inj hbm
            simp [hbk] at hbase
          | cons k'' ks =>
            rw [List.dropLast_cons_of_ne_nil (by simp), List.dropLast_cons_of_ne_nil (by simp),
              at?_of_not_map hbase] at hm
            cases hm

/-! ## The law, exactly -/

/-- **The overlay law.** It holds at a path exactly when a null the override has there sits below
maps that the base has. -/
theorem overlayLaw_iff (base override : Object) (p : List String) :
    OverlayLaw base override p ↔
      (override.at? p = some .null → ∃ m, base.at? p.dropLast = some (.ofObject m)) := by
  constructor
  · intro hlaw hnull
    exact (at?_mergeMap_of_null hnull base).mp (hlaw.null_removes hnull)
  · intro hcond
    exact
      { value_wins := fun v hv hnull hmap => at?_mergeMap_of_value hv hnull hmap base
        null_removes := fun hnull => (at?_mergeMap_of_null hnull base).mpr (hcond hnull)
        rest_kept := fun hp => at?_mergeMap_of_unmentioned hp base }

/-- A null below a map that the live object does not have yet stays in the update. -/
theorem null_survives_under_new_map :
    ¬ OverlayLaw (.ofList [("kind", .str "Deployment")])
        (.ofList [("spec", .ofObject (.ofList [("replicas", .null)]))]) ["spec", "replicas"] := by
  intro hlaw
  have hgone := hlaw.null_removes (by decide +kernel)
  exact absurd hgone (by decide +kernel)

/-! ## Laying over twice -/

/-- The value at a key of the merged map, where the override may have none. -/
def lay (base? over? : Option Value) : Option Value :=
  match over? with
  | some v => overlay base? v
  | none => base?

lemma get?_mergeMap_lay (base override : Object) (k : String) :
    (mergeMap base override).get? k = lay (base.get? k) (override.get? k) := by
  rw [get?_mergeMap]
  cases override.get? k <;> rfl

/-- A map laid over a map is the merged map. -/
lemma overlay_map_map (base o : Object) :
    overlay (some (.ofObject base)) (.ofObject o) = some (.ofObject (mergeMap base o)) :=
  overlay_ofObject o rfl

/-- Over nothing, a value other than null is taken as it is. -/
lemma overlay_none {v : Value} (hv : v ≠ .null) : overlay none v = some v := by
  obtain ⟨h, -⟩ | ⟨bv, ov, hb, -⟩ | ⟨-, -, h⟩ := overlay_cases none v
  · exact absurd h hv
  · cases hb
  · exact h

/-- Over a value that is not a map, a value other than null is taken as it is. -/
lemma overlay_of_not_map {base? : Option Value} {v : Value} (hv : v ≠ .null)
    (h : base?.bind Value.asMap = none ∨ v.asMap = none) : overlay base? v = some v := by
  obtain ⟨hn, -⟩ | ⟨bv, ov, hb, rfl, -⟩ | ⟨-, -, ho⟩ := overlay_cases base? v
  · exact absurd hn hv
  · rw [hb] at h
    simp at h
  · exact ho

/-- A value without nulls laid over something is something. -/
lemma exists_overlay {v : Value} (hv : v.NullFree) (base? : Option Value) :
    ∃ w, overlay base? v = some w := by
  obtain ⟨hn, -⟩ | ⟨bv, ov, -, -, h⟩ | ⟨-, -, h⟩ := overlay_cases base? v
  · exact absurd hn hv.ne_null
  · exact ⟨_, h⟩
  · exact ⟨_, h⟩

/-- **Laying a value over a second time changes nothing.**

**Proof sketch.** Induction on the value. Where a map meets a map the claim is the one for each
key; a map that was taken whole meets itself, and laid over nothing each of its values is what the
induction hypothesis is about. -/
theorem overlay_overlay {v : Value} (hv : v.NullFree) (base? : Option Value) :
    overlay (overlay base? v) v = overlay base? v := by
  induction v generalizing base? with
  | obj keys vals ih =>
    have hget : ∀ k w, (Object.mk keys vals).get? k = some w →
        w.NullFree ∧ ∀ b, overlay (overlay b w) w = overlay b w := by
      intro k w hw
      have hnf : w.NullFree := Object.NullFree.of_get? (m := ⟨keys, vals⟩) hv hw
      unfold Object.get? at hw
      split_ifs at hw with hk
      obtain rfl := Option.some.inj hw
      exact ⟨hnf, ih ⟨k, hk⟩ hnf⟩
    obtain ⟨hn, -⟩ | ⟨bv, ov, -, hov, h⟩ | ⟨-, -, h⟩ := overlay_cases base? (.obj keys vals)
    · exact absurd hn hv.ne_null
    · obtain rfl : (⟨keys, vals⟩ : Object) = ov := Value.ofObject_injective hov
      rw [h]
      change overlay _ (.ofObject ⟨keys, vals⟩) = _
      rw [overlay_map_map]
      refine congrArg (some ∘ Value.ofObject) (Object.ext_get? fun k => ?_)
      rw [get?_mergeMap_lay, get?_mergeMap_lay]
      cases hk : (Object.mk keys vals).get? k with
      | none => rfl
      | some w => exact (hget k w hk).2 _
    · rw [h]
      change overlay (some (.ofObject ⟨keys, vals⟩)) (.ofObject ⟨keys, vals⟩) =
        some (.ofObject ⟨keys, vals⟩)
      rw [overlay_map_map]
      refine congrArg (some ∘ Value.ofObject) (Object.ext_get? fun k => ?_)
      rw [get?_mergeMap_lay]
      cases hk : (Object.mk keys vals).get? k with
      | none => rfl
      | some w =>
        obtain ⟨hnf, hidem⟩ := hget k w hk
        have h₀ := hidem none
        rwa [overlay_none hnf.ne_null] at h₀
  | null => exact absurd rfl hv.ne_null
  | bool b => rfl
  | num q => rfl
  | str s => rfl
  | arr n elems ih => rfl

lemma lay_lay {o : Object} (ho : o.NullFree) (base? : Option Value) (k : String) :
    lay (lay base? (o.get? k)) (o.get? k) = lay base? (o.get? k) := by
  cases hk : o.get? k with
  | none => rfl
  | some v => exact overlay_overlay (ho.of_get? hk) base?

/-- **Laying a manifest over a second time changes nothing.** -/
theorem mergeMap_mergeMap {o : Object} (ho : o.NullFree) (base : Object) :
    mergeMap (mergeMap base o) o = mergeMap base o := by
  refine Object.ext_get? fun k => ?_
  rw [get?_mergeMap_lay, get?_mergeMap_lay, lay_lay ho]

/-- Over no map, a map without nulls is taken as it is. -/
lemma mergeMap_empty {o : Object} (ho : o.NullFree) : mergeMap .empty o = o := by
  refine Object.ext_get? fun k => ?_
  rw [get?_mergeMap_lay, Object.get?_empty]
  cases hk : o.get? k with
  | none => rfl
  | some v => exact overlay_none (ho.of_get? hk).ne_null

/-- A map laid over anything is the map laid over what is there as a map. -/
lemma overlay_ofObject_eq {o : Object} (ho : o.NullFree) (base? : Option Value) :
    overlay base? (.ofObject o) =
      some (.ofObject (mergeMap ((base?.bind Value.asMap).getD .empty) o)) := by
  cases hb : base?.bind Value.asMap with
  | some b => exact overlay_ofObject o hb
  | none =>
    rw [overlay_of_not_map (Value.NullFree.ne_null ho) (.inl hb), Option.getD_none,
      mergeMap_empty ho]

/-! ## Laying over and assignments -/

/-- A path that the manifest has: its value is laid over what is there. -/
lemma at?_mergeMap_of_at? {o : Object} (ho : o.NullFree) {p : List String} {v : Value}
    (h : o.at? p = some v) (hp : p ≠ []) (base : Object) :
    (mergeMap base o).at? p = overlay (base.at? p) v := by
  induction p generalizing base o with
  | nil => exact absurd rfl hp
  | cons k ks ih =>
    rw [Object.at?_cons] at h
    obtain ⟨w, hw, hv⟩ := Option.bind_eq_some_iff.mp h
    rw [at?_mergeMap_of_some ks hw, Object.at?_cons]
    cases ks with
    | nil =>
      obtain rfl := Option.some.inj hv
      cases hb : base.get? k with
      | none =>
        obtain ⟨w', hw'⟩ := exists_overlay (ho.of_get? hw) none
        simp [hw']
      | some b =>
        obtain ⟨w', hw'⟩ := exists_overlay (ho.of_get? hw) (some b)
        simp [hw']
    | cons k' ks =>
      obtain ⟨hn, -⟩ | ⟨bv, ov, hb, rfl, hov⟩ | ⟨-, hb, hov⟩ := overlay_cases (base.get? k) w
      · exact absurd hn (ho.of_get? hw).ne_null
      · obtain ⟨b, hbk, hbmap⟩ := Option.bind_eq_some_iff.mp hb
        rw [hov, hbk, Option.bind_some, Option.bind_some, Value.eq_ofObject hbmap]
        exact ih (ho.of_get?_map hw) hv (by simp) bv
      · have hmap : w.asMap ≠ none := by
          intro hmap
          rw [Value.at?_cons_of_not_map hmap] at hv
          cases hv
        have hnone : base.at? (k :: k' :: ks) = none :=
          at?_of_not_map (hb.resolve_right hmap) k' ks
        have hv' : v ≠ .null := fun hnull => (ho.of_get? hw) (k' :: ks) (hv.trans (by rw [hnull]))
        rw [Object.at?_cons] at hnone
        rw [hov, Option.bind_some, hv, hnone, overlay_none hv']

/-- Laying over after a key has been set, where the manifest had been laid over before. -/
lemma mergeMap_set {o x : Object} {f : String} {w w' : Value} (hx : mergeMap x o = x)
    (hw' : lay (some w) (o.get? f) = some w') : mergeMap (x.set f w) o = x.set f w' := by
  refine Object.ext_get? fun k => ?_
  rw [get?_mergeMap_lay, Object.get?_set, Object.get?_set]
  split_ifs with hk
  · rw [hk, hw']
  · rw [← get?_mergeMap_lay, hx]

/-- **Laying over after an assignment.** Where the manifest had been laid over before the
assignment, laying it over again changes the path assigned to at most.

**Proof sketch.** Induction on the path. Behind a key the manifest does not have, nothing changes;
behind one it has, both sides have maps, since the manifest is already laid over the first. -/
theorem mergeMap_setNestedField {o : Object} (ho : o.NullFree) {x y : Object} {w w' : Value}
    {p : List String} (hx : mergeMap x o = x) (hy : x.setNestedField w p = some y)
    (hw' : lay (some w) (o.at? p) = some w') :
    x.setNestedField w' p = some (mergeMap y o) := by
  induction p generalizing x y o with
  | nil => cases hy
  | cons f fs ih =>
    cases fs with
    | nil =>
      obtain rfl := Option.some.inj hy
      rw [Object.at?_singleton] at hw'
      rw [mergeMap_set hx hw']
      rfl
    | cons g gs =>
      obtain ⟨sub, sub', hbelow, hsub', rfl⟩ := Object.exists_of_setNestedField_cons hy
      rw [Object.setNestedField_cons, hbelow, Option.bind_some]
      cases hof : o.get? f with
      | none =>
        -- the manifest says nothing there
        rw [Object.at?_cons, hof] at hw'
        obtain rfl := Option.some.inj hw'
        rw [hsub', Option.map_some, mergeMap_set hx (by rw [hof]; rfl)]
      | some ov =>
        have hfix : overlay (x.get? f) ov = x.get? f := by
          have hlay := get?_mergeMap_lay x o f
          rw [hx, hof] at hlay
          exact hlay.symm
        obtain ⟨hn, -⟩ | ⟨bv, ov', hb, rfl, hov⟩ | ⟨-, hb, hov⟩ := overlay_cases (x.get? f) ov
        · exact absurd hn (ho.of_get? hof).ne_null
        · -- two maps: the induction hypothesis
          obtain ⟨b, hbk, hbmap⟩ := Option.bind_eq_some_iff.mp hb
          obtain rfl := Value.eq_ofObject hbmap
          obtain rfl : bv = sub := by
            rw [Object.below, hbk] at hbelow
            exact Option.some.inj hbelow
          have hfixsub : mergeMap bv ov' = bv := by
            have hm : some (Value.ofObject (mergeMap bv ov')) = some (Value.ofObject bv) :=
              hov.symm.trans (hfix.trans hbk)
            exact Value.ofObject_injective (Option.some.inj hm)
          rw [Object.at?_cons, hof, Option.bind_some] at hw'
          rw [ih (ho.of_get?_map hof) hfixsub hsub' hw', Option.map_some,
            mergeMap_set hx (by rw [hof]; exact overlay_map_map sub' ov')]
        · -- a value that was taken whole is a map only if the manifest has it as a map
          have hxf : x.get? f = some ov := hfix.symm.trans hov
          have hmap : ov.asMap = some sub := by
            rw [Object.below, hxf] at hbelow
            exact hbelow
          rw [hxf, Option.bind_some, hmap] at hb
          simp at hb

end K8sAgent.Merge
