import K8sAgent.Executor.Overlay
import K8sAgent.Executor.Refusal

set_option relaxedAutoImplicit false
set_option autoImplicit false

/-!
# Scope of a request and namespace of its body

`apply` fills in the namespace of the target before discovery has told whether the kind is
namespaced. The endpoint follows discovery, the body does not: an object of a cluster-scoped kind
is sent to the cluster scope with a namespace in its metadata.

## Main definitions

* `K8sAgent.Executor.Surroundings` — what discovery may answer and what reads may return.
* `K8sAgent.Executor.InScope` — the body of a request has the namespace of its endpoint.
* `K8sAgent.Executor.ScopeKept` — all requests of a command are in scope.

## Main results

* `K8sAgent.Executor.getNamespace_updateBody` — where the namespace of an update comes from.
* `K8sAgent.Executor.scopeKept_iff` — the commands whose requests are all in scope.
-/

namespace K8sAgent.Executor

open Encoding JsonTree Interaction

/-! ## The namespace of a body -/

lemma getNamespace_eq_at? (u : Object) :
    getNamespace u = ((u.at? ["metadata", "namespace"]).bind Value.asString).getD "" := by
  rw [getNamespace, getString, Object.toOption_nestedString]

/-- What is set in the metadata is there, where it can be set. -/
lemma at?_setString (u : Object) (g s : String) :
    (setString u s ["metadata", g]).at? ["metadata", g] = none ∨
      (setString u s ["metadata", g]).at? ["metadata", g] = some (.str s) ∧ s ≠ "" := by
  cases hmd : u.mapAt "metadata" with
  | some md =>
    rw [Object.at?_of_mapAt (mapAt_setString g s hmd), Object.at?_singleton]
    by_cases hs : s = ""
    · rw [if_pos hs, Object.get?_erase_self]
      exact .inl rfl
    · rw [if_neg hs, Object.get?_set_self]
      exact .inr ⟨rfl, hs⟩
  | none =>
    have hu : u.at? ["metadata", g] = none := Merge.at?_of_not_map hmd g []
    unfold setString
    by_cases hs : s = ""
    · rw [if_pos hs, Object.removeNestedField_of_mapAt_none hmd]
      exact .inl hu
    · rw [if_neg hs]
      cases hset : u.setNestedField (.str s) ["metadata", g] with
      | none => exact .inl hu
      | some u' => exact .inr ⟨Object.at?_setNestedField hset, hs⟩

/-- **An object without a namespace has no such field** once the target has been filled in. -/
theorem at?_namespace_prepare {cmd : Command} {o : Object}
    (h : getNamespace (prepare cmd o) = "") :
    (prepare cmd o).at? ["metadata", "namespace"] = none := by
  unfold prepare at h ⊢
  generalize (if getName o = "" then setName o cmd.target.name else o) = o₁ at h ⊢
  by_cases hns : getNamespace o₁ = ""
  · simp only [if_pos hns] at h ⊢
    obtain hnone | ⟨hsome, hs⟩ := at?_setString o₁ "namespace" cmd.target.namespace_
    · exact hnone
    · rw [setNamespace, getNamespace_eq_at?, hsome] at h
      exact absurd h hs
  · simp only [if_neg hns] at h
    exact absurd h hns

/-- Stamping an object with a name leaves its namespace alone. -/
lemma getNamespace_stamp {env : Env} {obj : Object} (hname : getName obj ≠ "") :
    getNamespace (Drift.stamp env obj) = getNamespace obj := by
  rw [getName, getString_metadata] at hname
  obtain ⟨md, hmd, -⟩ := exists_metadata hname
  rw [getNamespace, getString_metadata, Drift.metaString_stamp hmd (by decide), getNamespace,
    getString_metadata]

/-- **The namespace of an update** is that of the manifest, or else that of the live object. -/
theorem getNamespace_updateBody {env : Env} {cmd : Command} {o : Object} (live : Object)
    (hname : getName (prepare cmd o) ≠ "") :
    getNamespace (Merge.updateBody env live (prepare cmd o)) =
      if getNamespace (prepare cmd o) = "" then getNamespace live
      else getNamespace (prepare cmd o) := by
  obtain ⟨md, hmd, -⟩ := Merge.exists_mapAt_mergeForUpdate live hname
  have hbody : getNamespace (Merge.updateBody env live (prepare cmd o)) =
      getNamespace (Merge.mergeMap live (prepare cmd o)) := by
    rw [getNamespace, getString_metadata, Merge.metaString_updateBody hname (by decide),
      setResourceVersion, metaString_setString_of_ne _ hmd (by decide), getNamespace,
      getString_metadata, Merge.mergeForUpdate]
  rw [hbody]
  rw [getName, getString_metadata] at hname
  obtain ⟨omd, homd, -⟩ := exists_metadata hname
  split_ifs with hns
  · have hnone := at?_namespace_prepare hns
    rw [Object.at?_of_mapAt homd, Object.at?_singleton] at hnone
    have hunmentioned : Merge.Unmentioned (prepare cmd o) ["metadata", "namespace"] := by
      refine ⟨["metadata"], "namespace", [], omd, rfl, ?_, hnone⟩
      rw [Object.at?_singleton, Object.get?_of_mapAt homd]
    rw [getNamespace_eq_at?, Merge.at?_mergeMap_of_unmentioned hunmentioned, getNamespace_eq_at?]
  · have hat : (prepare cmd o).at? ["metadata", "namespace"] =
        some (.str (getNamespace (prepare cmd o))) := by
      have hns' := hns
      rw [getNamespace, getString_metadata] at hns'
      obtain ⟨md', hmd', hget⟩ := exists_metadata hns'
      rw [Object.at?_of_mapAt hmd', Object.at?_singleton, hget, getNamespace, getString_metadata]
    rw [getNamespace_eq_at?, Merge.at?_mergeMap_of_value hat (by simp) rfl, Option.bind_some,
      Value.asString_str, Option.getD_some]

/-! ## What surrounds a command -/

/-- What discovery may answer for a kind, and the live objects a read may return. -/
structure Surroundings where
  /-- The answers of discovery. -/
  mapping : (group kind version : String) → Mapping → Prop
  /-- Discovery answers something. -/
  exists_mapping : ∀ group kind version, ∃ m, mapping group kind version m
  /-- The live objects. -/
  live : ResourceInterface → String → Object → Prop

/-- The answers the surroundings may give. Any object may turn out not to exist, and any request may
fail. -/
def Surroundings.Admits (w : Surroundings) : (op : Op) → Ans op → Prop
  | .restMapping group kind version, ans => w.mapping group kind version ans
  | .get ri name, ans => (name = "" → ∃ msg, ans = .error (.other msg)) ∧
      ∀ obj, ans = .ok obj → w.live ri name obj
  | _, _ => True

/-- Every request has an answer that the surroundings admit. -/
lemma Surroundings.exists_admits (w : Surroundings) (op : Op) : ∃ ans, w.Admits op ans := by
  cases op with
  | restMapping group kind version => exact w.exists_mapping group kind version
  | get ri name =>
    refine ⟨.error (.other ""), fun _ => ⟨"", rfl⟩, fun obj h => ?_⟩
    cases h
  | _ =>
    obtain ⟨ans, -⟩ := exists_lawful _
    exact ⟨ans, trivial⟩

/-- The resource an answer of discovery leads to. -/
def resolution (x : Executor) (cmd : Command) (obj : Object) :
    Mapping → Except String (GroupVersionResource × Bool)
  | .found gvr root => .ok (gvr, !root)
  | .noMatch _ => x.fallbackGVR obj cmd.target
  | .error msg => .error msg

/-- The object may be resolved to the resource. -/
def Surroundings.Resolves (w : Surroundings) (x : Executor) (cmd : Command) (obj : Object)
    (r : GroupVersionResource × Bool) : Prop :=
  if x.hasMapper ∧ (groupVersionKind obj).kind ≠ "" then
    ∃ m, w.mapping (groupVersionKind obj).group (groupVersionKind obj).kind
      (groupVersionKind obj).version m ∧ x.resolution cmd obj m = .ok r
  else x.fallbackGVR obj cmd.target = .ok r

/-- The command may get past the object. -/
def Surroundings.CanWrite (w : Surroundings) (x : Executor) (cmd : Command) (obj : Object) : Prop :=
  getName obj ≠ "" ∧ ∃ r, w.Resolves x cmd obj r

/-- The client for an object that has been resolved. -/
def endpoint (obj : Object) (r : GroupVersionResource × Bool) : ResourceInterface :=
  ⟨r.1, if r.2 then getNamespace obj else ""⟩

/-! ## Requests in scope -/

/-- The body of a create or update has the namespace of the endpoint. -/
def InScope : Op → Prop
  | .create ri body _ | .update ri body _ => getNamespace body = ri.namespace_
  | _ => True

/-- **Every create or update of the command is in scope**, in every run the surroundings admit. -/
def ScopeKept (w : Surroundings) (x : Executor) (cmd : Command) : Prop :=
  ∀ fuel tr ex, Runs (x.handleCommand fuel cmd) tr ex → (∀ e ∈ tr, w.Admits e.op e.ans) →
    ∀ e ∈ tr, InScope e.op

/-- The object has its namespace at the endpoint too: it is resolved as namespaced if it has one,
and otherwise no live object there that the drift policy lets the command update has one. -/
def Surroundings.FitsScope (w : Surroundings) (x : Executor) (cmd : Command) (obj : Object)
    (r : GroupVersionResource × Bool) : Prop :=
  (getNamespace obj ≠ "" → r.2 = true) ∧
    (getNamespace obj = "" → ∀ live, w.live (endpoint obj r) (getName obj) live →
      x.GateOpen cmd live → getNamespace live = "")

/-- The write that follows a lookup. -/
def writeOp (x : Executor) (ri : ResourceInterface) (obj : Object) : Option Object → Bool → Op
  | none, dryRun => .create ri (Drift.stamp x.env obj) dryRun
  | some live, dryRun => .update ri (Merge.updateBody x.env live obj) dryRun

/-- **A create is in scope** unless the object has a namespace and its resource is found to have
none. -/
theorem inScope_create {x : Executor} {obj : Object} (r : GroupVersionResource × Bool)
    (hname : getName obj ≠ "") (dryRun : Bool) :
    InScope (x.writeOp (endpoint obj r) obj none dryRun) ↔
      (getNamespace obj ≠ "" → r.2 = true) := by
  change getNamespace (Drift.stamp x.env obj) = (endpoint obj r).namespace_ ↔ _
  rw [getNamespace_stamp hname, endpoint]
  cases r.2 <;> simp

/-- **An update is in scope** if a namespace of the object goes with a namespaced resource, and an
object without one has a live object without one. -/
theorem inScope_update {x : Executor} {cmd : Command} {o : Object}
    (r : GroupVersionResource × Bool) (hname : getName (prepare cmd o) ≠ "") (live : Object)
    (dryRun : Bool) :
    InScope (x.writeOp (endpoint (prepare cmd o) r) (prepare cmd o) (some live) dryRun) ↔
      (getNamespace (prepare cmd o) ≠ "" → r.2 = true) ∧
        (getNamespace (prepare cmd o) = "" → getNamespace live = "") := by
  change getNamespace (Merge.updateBody x.env live (prepare cmd o)) =
    (endpoint (prepare cmd o) r).namespace_ ↔ _
  rw [getNamespace_updateBody live hname, endpoint]
  by_cases hns : getNamespace (prepare cmd o) = ""
  · cases r.2 <;> simp [hns]
  · cases r.2 <;> simp [hns]

/-! ## Requests that are made -/

section Stays

variable {w : Surroundings} {x : Executor} {cmd : Command} {h : List Ev}

/-- The program makes requests in scope only. -/
abbrev Surroundings.Stays (w : Surroundings) (p : Cmd Exit) (h : List Ev) : Prop :=
  wp w.Admits (fun _ op => InScope op) p h fun _ _ => True

lemma stays_fail (msg err : String) : w.Stays (fail cmd msg err) h :=
  ⟨trivial, fun _ _ => ⟨trivial, fun _ _ => trivial⟩⟩

/-- Discovery of `obj` stays in scope, if the program `f` does after an error and after each
resource that `obj` can resolve to. -/
lemma stays_gvrFor {obj : Object} {f : Except String (GroupVersionResource × Bool) → Cmd Exit}
    (herr : ∀ h' msg, w.Stays (f (.error msg)) h')
    (hok : ∀ h' r, w.Resolves x cmd obj r → w.Stays (f (.ok r)) h') :
    w.Stays (x.gvrFor obj cmd.target >>= f) h := by
  unfold gvrFor
  by_cases hm : x.hasMapper = true ∧ (groupVersionKind obj).kind ≠ ""
  · rw [if_pos hm]
    refine ⟨trivial, fun ans hans => ?_⟩
    have hres : ∀ r, x.resolution cmd obj ans = .ok r → w.Resolves x cmd obj r := by
      intro r hr
      rw [Surroundings.Resolves, if_pos hm]
      exact ⟨ans, hans, hr⟩
    cases ans with
    | found gvr root => exact hok _ _ (hres _ rfl)
    | error msg => exact herr _ msg
    | noMatch msg =>
      change w.Stays (f (x.fallbackGVR obj cmd.target)) _
      cases hfall : x.fallbackGVR obj cmd.target with
      | error msg => exact herr _ msg
      | ok r => exact hok _ r (hres r hfall)
  · rw [if_neg hm]
    change w.Stays (f (x.fallbackGVR obj cmd.target)) _
    cases hfall : x.fallbackGVR obj cmd.target with
    | error msg => exact herr _ msg
    | ok r =>
      refine hok _ r ?_
      rw [Surroundings.Resolves, if_neg hm]
      exact hfall

/-- A write with its dry run stays in scope, if both requests are in scope and the program `next`
stays there. -/
lemma stays_dryRunThenApply (op : Bool → Op) (f : ∀ b, Ans (op b) → Option String)
    {s₁ s₂ s₃ s₄ : String} {next : Cmd Exit} (hop : ∀ b, InScope (op b))
    (hnext : ∀ h', w.Stays next h') :
    w.Stays (x.dryRunThenApply cmd (fun b => call (op b) >>= fun a => .done (f b a)) s₁ s₂ s₃ s₄
      next) h := by
  have hw : ∀ h', w.Stays (dryRunThenApply.write cmd
      (fun b => call (op b) >>= fun a => .done (f b a)) s₃ s₄ next) h' := by
    intro h'
    rw [dryRunThenApply_write_eq]
    refine ⟨trivial, fun _ _ => ⟨hop false, fun a _ => ?_⟩⟩
    dsimp only
    cases f false a with
    | none => exact hnext _
    | some err => exact stays_fail _ _
  cases hfirst : x.cfg.dryRunFirst with
  | false =>
    unfold dryRunThenApply
    rw [hfirst]
    exact hw h
  | true =>
    rw [dryRunThenApply_eq op f hfirst]
    refine ⟨hop true, fun a _ => ?_⟩
    dsimp only
    cases f true a with
    | none => exact ⟨trivial, fun _ _ => hw _⟩
    | some err => exact stays_fail _ _

/-- **`applyObject` stays in scope**, if the object fits every resource it can resolve to and the
program `next` stays there after a possible write. -/
theorem stays_applyObject {o : Object} {next : Bool → Cmd Exit}
    (hfits : getName (prepare cmd o) ≠ "" → ∀ r, w.Resolves x cmd (prepare cmd o) r →
      w.FitsScope x cmd (prepare cmd o) r)
    (hnext : w.CanWrite x cmd (prepare cmd o) → ∀ h' b, w.Stays (next b) h') :
    w.Stays (x.applyObject cmd (prepare cmd o) next) h := by
  unfold applyObject
  refine stays_gvrFor (fun h' msg => stays_fail _ _) fun h' r hres => ?_
  refine ⟨trivial, fun ans hans => ?_⟩
  obtain ⟨hunnamed, hlive⟩ := hans
  have hnamed : (∀ msg, ans ≠ .error (.other msg)) → getName (prepare cmd o) ≠ "" := by
    intro hans hname
    obtain ⟨msg, hmsg⟩ := hunnamed hname
    exact hans msg hmsg
  cases ans with
  | error err =>
    cases err with
    | other msg => exact stays_fail _ _
    | notFound msg =>
      have hname := hnamed fun msg' => by simp
      exact stays_dryRunThenApply (x.writeOp (endpoint (prepare cmd o) r) (prepare cmd o) none)
        (fun _ a => a.map ApiError.text)
        (fun b => (inScope_create r hname b).mpr (hfits hname r hres).1)
        fun h'' => hnext ⟨hname, r, hres⟩ h'' false
  | ok live =>
    have hname := hnamed fun msg => by simp
    change w.Stays (do if ← x.checkDrift cmd live then _ else return .returned) _
    by_cases hg : x.GateOpen cmd live
    · rw [checkDrift_of_open hg]
      refine stays_dryRunThenApply
        (x.writeOp (endpoint (prepare cmd o) r) (prepare cmd o) (some live))
        (fun _ a => a.map ApiError.text) (fun b => (inScope_update r hname live b).mpr ?_)
        fun h'' => hnext ⟨hname, r, hres⟩ h'' true
      obtain ⟨hcluster, hbare⟩ := hfits hname r hres
      exact ⟨hcluster, fun hns => hbare hns live (hlive live rfl) hg⟩
    · obtain ⟨msg, diff, hc⟩ := checkDrift_of_closed hg
      rw [hc]
      exact ⟨trivial, fun _ _ => ⟨trivial, fun _ _ => trivial⟩⟩

/-- **The loop**: each object it gets to comes after objects the command got past. -/
theorem stays_applyLoop (objs : List Object) :
    ∀ (pre : List Object) (h : List Ev) (created updated : ℕ),
      (∀ p obj q, pre ++ objs.map (prepare cmd) = p ++ obj :: q →
        (∀ o ∈ p, w.CanWrite x cmd o) → getName obj ≠ "" → ∀ r, w.Resolves x cmd obj r →
          w.FitsScope x cmd obj r) →
      (∀ o ∈ pre, w.CanWrite x cmd o) → w.Stays (x.applyLoop cmd objs created updated) h := by
  induction objs with
  | nil =>
    intro pre h created updated _ _
    exact ⟨trivial, fun _ _ => ⟨trivial, fun _ _ => trivial⟩⟩
  | cons o objs ih =>
    intro pre h created updated hfits hpre
    refine stays_applyObject (fun hname r hres => ?_) fun hcan h' b => ?_
    · exact hfits pre (prepare cmd o) (objs.map (prepare cmd)) rfl hpre hname r hres
    · have hpre' : ∀ o' ∈ pre ++ [prepare cmd o], w.CanWrite x cmd o' := by
        intro o' ho'
        rcases List.mem_append.mp ho' with ho' | ho'
        · exact hpre o' ho'
        · rw [List.mem_singleton.mp ho']
          exact hcan
      have hfits' := hfits
      rw [List.map_cons, List.append_cons] at hfits'
      cases b with
      | false => exact ih (pre ++ [prepare cmd o]) h' _ _ hfits' hpre'
      | true => exact ih (pre ++ [prepare cmd o]) h' _ _ hfits' hpre'

end Stays

/-! ## Requests that can be brought about -/

section Reaches

variable {w : Surroundings} {x : Executor} {cmd : Command} {h : List Ev} {Q : List Ev → Prop}

/-- An object can be resolved as the surroundings admit. -/
lemma may_gvrFor_of_resolves {obj : Object} {r : GroupVersionResource × Bool}
    {f : Except String (GroupVersionResource × Bool) → Cmd Exit} (hres : w.Resolves x cmd obj r)
    (hok : ∀ h', may w.Admits (f (.ok r)) h' fun h' _ => Q h') :
    may w.Admits (x.gvrFor obj cmd.target >>= f) h fun h' _ => Q h' := by
  unfold gvrFor
  by_cases hm : x.hasMapper = true ∧ (groupVersionKind obj).kind ≠ ""
  · rw [Surroundings.Resolves, if_pos hm] at hres
    obtain ⟨m, hmap, hr⟩ := hres
    rw [if_pos hm]
    refine ⟨m, hmap, ?_⟩
    cases m with
    | found gvr root =>
      obtain rfl := Except.ok.inj hr
      exact hok _
    | error msg => cases hr
    | noMatch msg =>
      change may w.Admits (f (x.fallbackGVR obj cmd.target)) _ _
      rw [show x.fallbackGVR obj cmd.target = .ok r from hr]
      exact hok _
  · rw [Surroundings.Resolves, if_neg hm] at hres
    rw [if_neg hm]
    change may w.Admits (f (x.fallbackGVR obj cmd.target)) _ _
    rw [hres]
    exact hok _

/-- **One object can be written**, after a lookup that finds nothing, or a live object that the
drift policy lets the command update. -/
theorem may_applyObject_write {obj : Object} {next : Bool → Cmd Exit}
    {r : GroupVersionResource × Bool} (hname : getName obj ≠ "") (hres : w.Resolves x cmd obj r)
    (lookup : Option Object)
    (hlookup : ∀ live, lookup = some live →
      w.live (endpoint obj r) (getName obj) live ∧ x.GateOpen cmd live)
    (hnext : ∀ h', (∃ e ∈ h', e.op = x.writeOp (endpoint obj r) obj lookup false) →
      may w.Admits (next lookup.isSome) h' fun h' _ => Q h') :
    may w.Admits (x.applyObject cmd obj next) h fun h' _ => Q h' := by
  unfold applyObject
  refine may_gvrFor_of_resolves hres fun h' => ?_
  cases lookup with
  | none =>
    refine ⟨.error (.notFound ""), ⟨fun hn => absurd hn hname, fun live hl => by cases hl⟩, ?_⟩
    refine may_dryRunThenApply (x.writeOp (endpoint obj r) obj none) (fun _ => none)
      (fun _ => trivial) (fun _ => trivial) (fun _ => rfl) fun t => ?_
    exact hnext _ ⟨_, List.mem_append_right _ (List.mem_singleton_self _), rfl⟩
  | some live =>
    obtain ⟨hlive, hg⟩ := hlookup live rfl
    refine ⟨.ok live, ⟨fun hn => absurd hn hname, fun live' hl => ?_⟩, ?_⟩
    · obtain rfl := Except.ok.inj hl
      exact hlive
    · change may w.Admits
        (do if ← x.checkDrift cmd live then _ else return Exit.returned : Cmd Exit) _ _
      rw [checkDrift_of_open hg]
      refine may_dryRunThenApply (x.writeOp (endpoint obj r) obj (some live)) (fun _ => none)
        (fun _ => trivial) (fun _ => trivial) (fun _ => rfl) fun t => ?_
      exact hnext _ ⟨_, List.mem_append_right _ (List.mem_singleton_self _), rfl⟩

/-- **The loop can get past objects** that can be written. -/
theorem may_applyLoop_past {pre rest : List Object}
    (hpre : ∀ o ∈ pre, w.CanWrite x cmd (prepare cmd o))
    (hrest : ∀ h' created updated,
      may w.Admits (x.applyLoop cmd rest created updated) h' fun h' _ => Q h') :
    ∀ (h : List Ev) (created updated : ℕ),
      may w.Admits (x.applyLoop cmd (pre ++ rest) created updated) h fun h' _ => Q h' := by
  induction pre with
  | nil => exact hrest
  | cons o pre ih =>
    intro h created updated
    obtain ⟨hname, r, hres⟩ := hpre o List.mem_cons_self
    refine may_applyObject_write hname hres none (fun live hl => by cases hl) fun h' _ => ?_
    exact ih (fun o' ho' => hpre o' (List.mem_cons_of_mem _ ho')) h' (created + 1) updated

/-- **A run that makes the write** of an object the command can get to. -/
theorem exists_writeOp (hverb : cmd.verb = verbApply) {pre post : List Object} {obj : Object}
    (hman : x.manifest cmd = pre ++ obj :: post) (hpre : ∀ o ∈ pre, w.CanWrite x cmd o)
    (hname : getName obj ≠ "") {r : GroupVersionResource × Bool} (hres : w.Resolves x cmd obj r)
    (lookup : Option Object)
    (hlookup : ∀ live, lookup = some live →
      w.live (endpoint obj r) (getName obj) live ∧ x.GateOpen cmd live) :
    ∃ tr ex, Runs (x.handleCommand 0 cmd) tr ex ∧ (∀ e ∈ tr, w.Admits e.op e.ans) ∧
      ∃ e ∈ tr, e.op = x.writeOp (endpoint obj r) obj lookup false := by
  suffices hmay : may w.Admits (x.handleCommand 0 cmd) [] fun h' _ =>
      ∃ e ∈ h', e.op = x.writeOp (endpoint obj r) obj lookup false by
    obtain ⟨tr, ex, hrun, hok, hQ⟩ := may_runs hmay
    exact ⟨tr, ex, hrun, hok, hQ⟩
  unfold handleCommand
  refine ⟨(), trivial, ?_⟩
  rw [handler_apply hverb, apply]
  unfold manifest at hman
  cases hdec : decodeManifest x.env cmd.payload with
  | error e =>
    rw [hdec] at hman
    simp at hman
  | ok objs =>
    rw [hdec] at hman
    obtain ⟨pre', tail, rfl, rfl, htail⟩ := List.map_eq_append_iff.mp hman
    obtain ⟨o, post', rfl, rfl, -⟩ := List.map_eq_cons_iff.mp htail
    have hloop : ∀ h, may w.Admits (x.applyLoop cmd (pre' ++ o :: post') 0 0) h fun h' _ =>
        ∃ e ∈ h', e.op = x.writeOp (endpoint (prepare cmd o) r) (prepare cmd o) lookup false := by
      intro h
      refine may_applyLoop_past (fun o' ho' => hpre _ (List.mem_map_of_mem ho'))
        (fun h' created updated => ?_) h 0 0
      refine may_applyObject_write hname hres lookup hlookup fun h'' hmem => ?_
      obtain ⟨e, he, hop⟩ := hmem
      exact may_mono (fun h₃ _ hpre => ⟨e, hpre.subset he, hop⟩)
        (may_finish w.exists_admits _ h'')
    cases pre' with
    | nil => exact hloop _
    | cons o' pre' => exact hloop _

end Reaches

/-- **When the requests of an `apply` command are in scope**: exactly when each object the command
can get to fits the scope of each resource it may be resolved to.

**Proof sketch.** The namespace of a body is that of the object, and of the live object only where
the object has none (`getNamespace_updateBody`). So the requests made for an object that fits are in
scope, and by induction on the objects all requests are. Conversely, the command can be let past
the objects before one that does not fit, and then makes a create or an update that is not in
scope. -/
theorem scopeKept_iff (w : Surroundings) (x : Executor) (cmd : Command)
    (hverb : cmd.verb = verbApply) :
    ScopeKept w x cmd ↔ ∀ pre obj post, x.manifest cmd = pre ++ obj :: post →
      (∀ o ∈ pre, w.CanWrite x cmd o) → getName obj ≠ "" → ∀ r, w.Resolves x cmd obj r →
        w.FitsScope x cmd obj r := by
  constructor
  · intro hkept pre obj post hman hpre hname r hres
    -- The object is one of the payload, with the target filled in.
    obtain ⟨o, rfl⟩ : ∃ o, obj = prepare cmd o := by
      have hmem : obj ∈ x.manifest cmd := by
        rw [hman]
        exact List.mem_append_right _ List.mem_cons_self
      unfold manifest at hmem
      split at hmem
      · obtain ⟨o, -, ho⟩ := List.mem_map.mp hmem
        exact ⟨o, ho.symm⟩
      · cases hmem
    constructor
    · obtain ⟨tr, ex, hrun, hok, e, he, hop⟩ := exists_writeOp hverb hman hpre hname hres none
        fun live hl => by cases hl
      have hscope := hkept 0 tr ex hrun hok e he
      rw [hop] at hscope
      exact (inScope_create r hname false).mp hscope
    · intro hns live hlive hg
      obtain ⟨tr, ex, hrun, hok, e, he, hop⟩ := exists_writeOp hverb hman hpre hname hres
        (some live) fun live' hl => by
          obtain rfl := Option.some.inj hl
          exact ⟨hlive, hg⟩
      have hscope := hkept 0 tr ex hrun hok e he
      rw [hop] at hscope
      exact ((inScope_update r hname live false).mp hscope).2 hns
  · intro hfits fuel tr ex hrun hok e he
    have hstays : w.Stays (x.handleCommand fuel cmd) [] := by
      unfold handleCommand
      refine ⟨trivial, fun _ _ => ?_⟩
      rw [handler_apply hverb, apply]
      cases hdec : decodeManifest x.env cmd.payload with
      | error e => exact stays_fail _ _
      | ok objs =>
        have hman : x.manifest cmd = objs.map (prepare cmd) := by
          rw [manifest, hdec]
        rw [hman] at hfits
        cases objs with
        | nil => exact stays_fail _ _
        | cons o objs => exact stays_applyLoop (o :: objs) [] _ 0 0 hfits (by simp)
    obtain ⟨tr₁, tr₂, rfl⟩ := List.append_of_mem he
    exact (wp_runs hstays hrun hok).1 tr₁ e tr₂ rfl

/-! ## Namespaces and config maps -/

/-- The resource of a kind. -/
def resourceOf (kind : String) : String :=
  if kind = "Namespace" then "namespaces" else if kind = "ConfigMap" then "configmaps" else kind

/-- A cluster: namespaces are cluster-scoped and other kinds are not, and an object that is read has
the namespace it is read from. -/
def cluster : Surroundings where
  mapping group kind version m :=
    m = .found ⟨group, version, resourceOf kind⟩ (decide (kind = "Namespace"))
  exists_mapping _ _ _ := ⟨_, rfl⟩
  live ri _ obj := getNamespace obj = ri.namespace_

/-- What the cluster resolves an object with a kind to. -/
lemma resolves_cluster (x : Executor) (cmd : Command) (obj : Object)
    (hm : x.hasMapper = true ∧ (groupVersionKind obj).kind ≠ "")
    (r : GroupVersionResource × Bool) :
    cluster.Resolves x cmd obj r ↔ r = (⟨(groupVersionKind obj).group,
      (groupVersionKind obj).version, resourceOf (groupVersionKind obj).kind⟩,
      !decide ((groupVersionKind obj).kind = "Namespace")) := by
  rw [Surroundings.Resolves, if_pos hm]
  constructor
  · rintro ⟨m, rfl, hr⟩
    exact (Except.ok.inj hr).symm
  · rintro rfl
    exact ⟨_, rfl, rfl⟩

/-- Config maps for the namespace of the target are in scope. -/
theorem scopeKept_of_config_maps :
    ScopeKept cluster ⟨{}, configMapEnv, true⟩ applyConfigMaps := by
  refine (scopeKept_iff cluster ⟨{}, configMapEnv, true⟩ applyConfigMaps (by decide)).mpr ?_
  intro pre obj post hman _ _ r hres
  have hall : ∀ o ∈ manifest ⟨{}, configMapEnv, true⟩ applyConfigMaps,
      (groupVersionKind o).kind = "ConfigMap" ∧ getNamespace o ≠ "" := by decide +kernel
  have hmem : obj ∈ manifest ⟨{}, configMapEnv, true⟩ applyConfigMaps := by
    rw [hman]
    exact List.mem_append_right _ List.mem_cons_self
  obtain ⟨hkind, hns⟩ := hall obj hmem
  obtain rfl := (resolves_cluster _ _ _ ⟨rfl, by rw [hkind]; decide⟩ r).mp hres
  refine ⟨fun _ => ?_, fun hempty => absurd hempty hns⟩
  rw [hkind]
  rfl

/-- A document that declares a namespace. -/
def namespaceDocument : Bytes := utf8 "apiVersion: v1\nkind: Namespace\nmetadata:\n  name: team-a"

/-- The object of the document, with the given further metadata. -/
def namespaceObject (md : List (String × Value)) : Object :=
  .ofList [("apiVersion", .str "v1"), ("kind", .str "Namespace"),
    ("metadata", .ofObject (.ofList ([("name", .str "team-a")] ++ md)))]

/-- The object once the namespace of the target has been filled in. -/
def namespacedNamespace : Object := namespaceObject [("namespace", .str "default")]

/-- The JSON text of that object. -/
def namespacedNamespaceJSON : Bytes :=
  utf8 ("\x7b\"apiVersion\":\"v1\",\"kind\":\"Namespace\"," ++
    "\"metadata\":\x7b\"name\":\"team-a\",\"namespace\":\"default\"\x7d\x7d")

/-- What is known of the document and of the object. -/
def namespaceEnv : Env := .ofTables
  { streams := [(namespaceDocument, [namespaceDocument])]
    documents := [(namespaceDocument, namespaceObject [])]
    encodings := [(.ofObject namespacedNamespace, namespacedNamespaceJSON)]
    digests := [(namespacedNamespaceJSON,
      ofHex "f996f5e3dd5fc7b4b3436d46378298049fdba2a1f36a27c9b3b8b04180d0d997")] }

/-- A command to apply the document, with a namespace in its target. -/
def applyNamespace : Command where
  verb := verbApply
  target := { namespace_ := "default" }
  payload := namespaceDocument

/-- **A cluster-scoped object under a target with a namespace**: it is created at the cluster scope
with that namespace in its metadata. -/
theorem namespaced_body_at_cluster_scope :
    ¬ ScopeKept cluster ⟨{}, namespaceEnv, true⟩ applyNamespace := by
  intro hkept
  have hman : manifest ⟨{}, namespaceEnv, true⟩ applyNamespace =
      [] ++ namespacedNamespace :: [] := by decide +kernel
  have hname : getName namespacedNamespace ≠ "" := by decide +kernel
  have hkind : (groupVersionKind namespacedNamespace).kind = "Namespace" := by decide +kernel
  have hres := (resolves_cluster ⟨{}, namespaceEnv, true⟩ applyNamespace namespacedNamespace
    ⟨rfl, by rw [hkind]; decide⟩ _).mpr rfl
  obtain ⟨tr, ex, hrun, hok, e, he, hop⟩ := exists_writeOp (by decide) hman
    (fun o ho => by cases ho) hname hres none fun live hl => by cases hl
  have hscope := hkept 0 tr ex hrun hok e he
  rw [hop, inScope_create _ hname] at hscope
  have hfound := hscope (by decide +kernel)
  rw [hkind] at hfound
  cases hfound

end K8sAgent.Executor
