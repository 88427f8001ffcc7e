import K8sAgent.Executor.Verbs

set_option relaxedAutoImplicit false
set_option autoImplicit false

/-!
# What a command can bring about

The other half of the specification of the handlers: requests that the surroundings can let a
command make. A command that gets far enough to write can be answered so that it does write, and
an `apply` command can be answered so that it gets to any object before the first that cannot be
written.

## Main definitions

* `K8sAgent.Executor.May` — lawful answers can be given so that the events satisfy a property.
* `K8sAgent.Executor.CanWrite` — what a command needs to get to a write, verb by verb.

## Main results

* `K8sAgent.Executor.may_apply` — `apply` can get to any object that is reachable.
* `K8sAgent.Executor.exists_write_iff` — the commands that can write are those of `CanWrite`.
-/

namespace K8sAgent.Executor

open Encoding JsonTree Interaction

/-! ## Answers -/

/-- The surroundings can answer the program, run after the events `h`, lawfully and so that all
events together satisfy `Q`. -/
abbrev May (p : Cmd Exit) (h : List Ev) (Q : List Ev → Prop) : Prop :=
  may Lawful p h fun h' _ => Q h'

/-- Every request has a lawful answer. -/
lemma exists_lawful (op : Op) : ∃ ans, Lawful op ans := by
  cases op with
  | get ri name => exact ⟨.error (.other ""), fun _ => ⟨"", rfl⟩⟩
  | now => exact ⟨(0 : ℤ), trivial⟩
  | restMapping group kind version => exact ⟨.noMatch "", trivial⟩
  | listPods fieldSelector => exact ⟨.ok [], trivial⟩
  | stat path => exact ⟨true, trivial⟩
  | locateChart ref version | loadChart path => exact ⟨.error "", trivial⟩
  | report _ | incCommand _ _ | setDrainProgress _ _ | clearDrainProgress _ => exact ⟨(), trivial⟩
  | _ => exact ⟨none, trivial⟩

/-- An event that has happened stays in the history while the program finishes. -/
lemma may_of_mem {P : Ev → Prop} {h : List Ev} (p : Cmd Exit) (hP : ∃ e ∈ h, P e) :
    May p h fun h' => ∃ e ∈ h', P e := by
  obtain ⟨e, he, hPe⟩ := hP
  exact may_mono (fun h' _ hpre => ⟨e, hpre.subset he, hPe⟩) (may_finish exists_lawful p h)

section Rules

variable {x : Executor} {cmd : Command} {h : List Ev} {Q : List Ev → Prop}

/-- **Dry run, then the write**, both answered without an error. -/
theorem may_dryRunThenApply {ok : ∀ op, Ans op → Prop} (op : Bool → Op)
    {f : ∀ b, Ans (op b) → Option String} {s₁ s₂ s₃ s₄ : String} {next : Cmd Exit}
    (a : ∀ b, Ans (op b)) (hreport : ∀ rep, ok (.report rep) ()) (hlaw : ∀ b, ok (op b) (a b))
    (hf : ∀ b, f b (a b) = none)
    (hnext : ∀ t, may ok next (h ++ t ++ [⟨op false, a false⟩]) fun h' _ => Q h') :
    may ok (x.dryRunThenApply cmd (fun b => call (op b) >>= fun a => .done (f b a)) s₁ s₂ s₃ s₄
      next) h fun h' _ => Q h' := by
  have hw : ∀ t, may ok
      (dryRunThenApply.write cmd (fun b => call (op b) >>= fun a => .done (f b a)) s₃ s₄ next)
      (h ++ t) fun h' _ => Q h' := by
    intro t
    rw [dryRunThenApply_write_eq]
    refine ⟨(), hreport _, a false, hlaw false, ?_⟩
    dsimp only
    rw [hf, List.append_assoc h]
    exact hnext _
  cases hfirst : x.cfg.dryRunFirst with
  | false =>
    unfold dryRunThenApply
    rw [hfirst]
    simpa using hw []
  | true =>
    rw [dryRunThenApply_eq op f hfirst]
    refine ⟨a true, hlaw true, ?_⟩
    dsimp only
    rw [hf]
    refine ⟨(), hreport _, ?_⟩
    rw [List.append_assoc]
    exact hw _

/-- **Finding the resource of an object**: it can be found, as a namespaced one, wherever there is
a way to look for it. -/
theorem may_gvrFor {obj : Object} {f : Except String (GroupVersionResource × Bool) → Cmd Exit}
    (hres : x.resolvable cmd obj = true)
    (hok : ∀ t gvr, May (f (.ok (gvr, true))) (h ++ t) Q) :
    May (x.gvrFor obj cmd.target >>= f) h Q := by
  unfold gvrFor
  by_cases hm : x.hasMapper = true ∧ (groupVersionKind obj).kind ≠ ""
  · rw [if_pos hm]
    exact ⟨.found (gvrOf cmd.target) false, trivial, hok _ _⟩
  · rw [if_neg hm]
    have hfall : cmd.target.resource ≠ "" ∧ cmd.target.version ≠ "" := by
      simp only [resolvable, Bool.or_eq_true, Bool.and_eq_true, decide_eq_true_eq] at hres
      exact hres.resolve_left hm
    have := hok [] (gvrOf cmd.target)
    simpa [fallbackGVR, hfall] using this

lemma writable_iff {obj : Object} :
    x.writable cmd obj = true ↔ x.resolvable cmd obj = true ∧ getName obj ≠ "" := by
  simp [writable]

/-- **One object is created**, in its own namespace, where it does not exist yet. -/
theorem may_applyObject_create {obj : Object} {next : Bool → Cmd Exit}
    (hw : x.writable cmd obj = true)
    (hnext : ∀ h' ri body, h <+: h' → (⟨.create ri body false, none⟩ : Ev) ∈ h' →
      ri.namespace_ = getNamespace obj → May (next false) h' Q) :
    May (x.applyObject cmd obj next) h Q := by
  obtain ⟨hres, hname⟩ := writable_iff.mp hw
  unfold applyObject
  refine may_gvrFor hres fun t gvr => ?_
  refine ⟨.error (.notFound ""), fun hn => absurd hn hname, ?_⟩
  refine may_dryRunThenApply (fun b => .create _ (Drift.stamp x.env obj) b) (fun _ => none)
    (fun _ => trivial) (fun _ => trivial) (fun _ => rfl) fun t' => ?_
  refine hnext _ ⟨gvr, getNamespace obj⟩ (Drift.stamp x.env obj) ?_ (by simp) rfl
  simp only [List.append_assoc]
  exact List.prefix_append _ _

/-- **One object is refused** where it exists in a state that the policy does not let the command
overwrite. -/
theorem may_applyObject_refuse {obj live : Object} {next : Bool → Cmd Exit}
    (hw : x.writable cmd obj = true) (hg : ¬x.GateOpen cmd live)
    (hQ : ∀ h' rep, h <+: h' → (⟨.report rep, ()⟩ : Ev) ∈ h' → rep.status = statusRefused → Q h') :
    May (x.applyObject cmd obj next) h Q := by
  obtain ⟨hres, hname⟩ := writable_iff.mp hw
  unfold applyObject
  refine may_gvrFor hres fun t gvr => ?_
  refine ⟨.ok live, fun hn => absurd hn hname, ?_⟩
  obtain ⟨msg, diff, hc⟩ := checkDrift_of_closed hg
  change May (do if ← x.checkDrift cmd live then _ else return .returned) _ Q
  rw [hc]
  refine ⟨(), trivial, (), trivial, ?_⟩
  refine hQ _ { status := statusRefused, message := msg, diff := diff } ?_ (by simp) rfl
  simp only [List.append_assoc]
  exact List.prefix_append _ _

/-- **The loop gets past objects** that can be written, creating each of them. -/
theorem may_applyLoop {pre rest : List Object} (hpre : ∀ o ∈ pre, x.writable cmd (prepare cmd o)) :
    ∀ (h : List Ev) (created updated : ℕ),
      (∀ h' created' updated', h <+: h' → (pre ≠ [] → ∃ e ∈ h', e.op.isWrite = true) →
        May (x.applyLoop cmd rest created' updated') h' Q) →
      May (x.applyLoop cmd (pre ++ rest) created updated) h Q := by
  induction pre with
  | nil =>
    exact fun h created updated hrest =>
      hrest h created updated List.prefix_rfl fun hne => absurd rfl hne
  | cons obj pre ih =>
    intro h created updated hrest
    refine may_applyObject_create (hpre obj (by simp)) fun h' ri body hh hmem _ => ?_
    refine ih (fun o ho => hpre o (by simp [ho])) h' (created + 1) updated ?_
    exact fun h'' created' updated' hh' _ =>
      hrest h'' created' updated' (hh.trans hh') fun _ => ⟨_, hh'.subset hmem, rfl⟩

/-- The objects before a reachable one, as they stand in the payload. -/
lemma exists_payload_of_reachable {pre post : List Object} {obj : Object}
    (hr : x.reachable cmd = pre ++ obj :: post) :
    ∃ pre' obj' post', decodeManifest x.env cmd.payload = .ok (pre' ++ obj' :: post') ∧
      pre'.map (prepare cmd) = pre ∧ prepare cmd obj' = obj := by
  obtain ⟨rest, hrest⟩ := List.takeWhile_prefix (l := x.manifest cmd) (x.writable cmd)
  have hman : x.manifest cmd = pre ++ obj :: (post ++ rest) := by
    rw [← hrest, ← reachable, hr, List.append_assoc, List.cons_append]
  unfold manifest at hman
  cases hd : decodeManifest x.env cmd.payload with
  | error e =>
    rw [hd] at hman
    simp at hman
  | ok objs =>
    rw [hd] at hman
    obtain ⟨pre', tail, rfl, hpre', htail⟩ := List.map_eq_append_iff.mp hman
    obtain ⟨obj', post', rfl, hobj', -⟩ := List.map_eq_cons_iff.mp htail
    exact ⟨pre', obj', post', rfl, hpre', hobj'⟩

/-- The objects that `apply` can reach can be written. -/
lemma writable_of_mem_reachable {obj : Object} (hobj : obj ∈ x.reachable cmd) :
    x.writable cmd obj = true := List.mem_takeWhile_imp hobj

/-- **`apply` can get to any reachable object**, having written those before it. -/
theorem may_apply {pre post : List Object} {obj : Object}
    (hr : x.reachable cmd = pre ++ obj :: post)
    (hobj : ∀ h' next, h <+: h' → (pre ≠ [] → ∃ e ∈ h', e.op.isWrite = true) →
      May (x.applyObject cmd obj next) h' Q) : May (x.apply cmd) h Q := by
  obtain ⟨pre', obj', post', hd, rfl, rfl⟩ := exists_payload_of_reachable hr
  have hloop : May (x.applyLoop cmd (pre' ++ obj' :: post') 0 0) h Q := by
    refine may_applyLoop (fun o ho => ?_) h 0 0 fun h' created updated hh hwrote => ?_
    · refine writable_of_mem_reachable ?_
      rw [hr]
      exact List.mem_append_left _ (List.mem_map_of_mem ho)
    · exact hobj h' _ hh fun hne => hwrote fun hnil => hne (by simp [hnil])
  unfold apply
  rw [hd]
  cases pre' with
  | nil => exact hloop
  | cons o pre' => exact hloop

end Rules

/-! ## The commands that can write -/

/-- What a command needs to get to a write. -/
def CanWrite (x : Executor) (cmd : Command) : Prop :=
  (cmd.verb = verbApply ∧ x.reachable cmd ≠ []) ∨
  (cmd.verb = verbPatch ∧ (patchTypeOf cmd.patchType).isSome ∧ cmd.target.name ≠ "" ∧
    ∃ live, x.GateOpen cmd live) ∨
  (cmd.verb = verbDelete ∧ cmd.target.name ≠ "" ∧ ∃ live, x.GateOpen cmd live) ∨
  ((cmd.verb = verbDrainNode ∨ cmd.verb = verbUncordonNode ∨ cmd.verb = verbCertRotate) ∧
    cmd.target.name ≠ "") ∨
  ((cmd.verb = verbHelmInstall ∨ cmd.verb = verbHelmUpgrade) ∧ x.HelmReady cmd) ∨
  (cmd.verb = verbHelmUninstall ∧ cmd.helm.isSome)

section CanWrite

variable {x : Executor} {cmd : Command} {h : List Ev}

/-- A run with a write has a first one: a history without write, the write, and the rest. -/
lemma exists_first_write {tr : List Ev} (hw : ∃ e ∈ tr, e.op.isWrite = true) :
    ∃ tr₁ e tr₂, tr = tr₁ ++ e :: tr₂ ∧ NoWrite tr₁ ∧ e.op.isWrite = true := by
  obtain ⟨e, hfind⟩ := Option.isSome_iff_exists.mp (List.find?_isSome.mpr hw)
  obtain ⟨he, tr₁, tr₂, rfl, htr₁⟩ := List.find?_eq_some_iff_append.mp hfind
  exact ⟨tr₁, e, tr₂, rfl, fun e' he' => by simpa using htr₁ e' he', he⟩

/-- A first write that is admitted is a write of a command that can write. -/
lemma canWrite_of_writeOK {op : Op} (hw : op.isWrite = true) (hnw : NoWrite h)
    (hok : x.WriteOK cmd h op) : x.CanWrite cmd := by
  have hne : ∀ {obj : Object}, obj ∈ x.reachable cmd → x.reachable cmd ≠ [] :=
    fun hobj => List.ne_nil_of_mem hobj
  cases Op.writes_of_isWrite hw with
  | create ri obj =>
    rcases hok with ⟨hverb, o, ho, -⟩ | ⟨hverb, hname, -⟩
    · exact .inl ⟨hverb, hne ho⟩
    · exact .inr (.inr (.inr (.inl ⟨.inr (.inr hverb), hname⟩)))
  | update ri obj =>
    obtain ⟨hverb, ⟨o, ho, -⟩, -⟩ := hok
    exact .inl ⟨hverb, hne ho⟩
  | patch ri name pt data =>
    obtain ⟨hverb, hpt, hname, -, -, hchecked⟩ := hok
    obtain ⟨live, hg, -⟩ := hchecked hnw
    exact .inr (.inl ⟨hverb, hpt, hname, live, hg⟩)
  | delete ri name =>
    obtain ⟨hverb, hname, -, -, -, live, hg, -⟩ := hok
    exact .inr (.inr (.inl ⟨hverb, hname, live, hg⟩))
  | patchNode name data =>
    obtain ⟨hverb, hname⟩ := hok
    exact .inr (.inr (.inr (.inl ⟨hverb.imp_right .inl, hname⟩)))
  | evict ns name =>
    obtain ⟨hverb, hname, -⟩ := hok
    exact .inr (.inr (.inr (.inl ⟨.inl hverb, hname⟩)))
  | install ns release chart vals =>
    exact .inr (.inr (.inr (.inr (.inl ⟨.inl hok.1, hok.2⟩))))
  | upgrade ns release chart vals =>
    exact .inr (.inr (.inr (.inr (.inl ⟨.inr hok.1, hok.2⟩))))
  | uninstall ns release => exact .inr (.inr (.inr (.inr (.inr hok))))

/-- A write has happened. -/
def Wrote (h : List Ev) : Prop := ∃ e ∈ h, e.op.isWrite = true

/-- After a write the rest of a handler does not matter. -/
lemma may_wrote {e : Ev} (p : Cmd Exit) (t : List Ev) (he : e.op.isWrite = true) :
    May p (t ++ [e]) Wrote := may_of_mem p ⟨e, by simp, he⟩

/-- `patch` with a known patch type and a name can write, if the gate is open for some live object.
-/
lemma may_patch_wrote {live : Object} (hpt : (patchTypeOf cmd.patchType).isSome)
    (hname : cmd.target.name ≠ "") (hg : x.GateOpen cmd live) : May (x.patch cmd) h Wrote := by
  obtain ⟨pt, hpt⟩ := Option.isSome_iff_exists.mp hpt
  unfold patch
  rw [hpt]
  refine ⟨.ok live, fun hn => absurd hn hname, ?_⟩
  change May (do if ← x.checkDrift cmd live then _ else return .returned) _ Wrote
  rw [checkDrift_of_open hg]
  exact may_dryRunThenApply (fun b => .patch _ _ pt cmd.payload b) (fun _ => none)
    (fun _ => trivial) (fun _ => trivial) (fun _ => rfl) fun t => may_wrote _ _ rfl

/-- `delete` with a name can write, if the gate is open for some live object. -/
lemma may_delete_wrote {live : Object} (hname : cmd.target.name ≠ "") (hg : x.GateOpen cmd live) :
    May (x.delete cmd) h Wrote := by
  refine ⟨.ok live, fun hn => absurd hn hname, ?_⟩
  change May (do if ← x.checkDrift cmd live then _ else return .returned) _ Wrote
  rw [checkDrift_of_open hg]
  exact may_dryRunThenApply (fun b => .delete _ _ b) (fun _ => none)
    (fun _ => trivial) (fun _ => trivial) (fun _ => rfl) fun t => may_wrote _ _ rfl

/-- `drain-node` with a name can cordon the node. -/
lemma may_drainNode_wrote (fuel : ℕ) (hname : cmd.target.name ≠ "") :
    May (x.drainNode fuel cmd) h Wrote := by
  unfold drainNode
  rw [if_neg hname]
  exact ⟨none, trivial, none, trivial, may_wrote _ _ rfl⟩

/-- `uncordon-node` with a name can write. -/
lemma may_uncordonNode_wrote (hname : cmd.target.name ≠ "") :
    May (uncordonNode cmd) h Wrote := by
  unfold uncordonNode
  rw [if_neg hname]
  exact ⟨none, trivial, none, trivial, may_wrote _ _ rfl⟩

/-- A certificate that names an issuer. -/
def issuedCertificate : Object :=
  .ofList [("spec", .ofObject (.ofList [("issuerRef", .ofObject .empty)]))]

/-- `cert-rotate` with a name can write. -/
lemma may_certRotate_wrote (hname : cmd.target.name ≠ "") : May (x.certRotate cmd) h Wrote := by
  refine ⟨.ok issuedCertificate, fun hn => absurd hn hname, ?_⟩
  refine ⟨(0 : ℤ), trivial, ?_⟩
  exact may_dryRunThenApply (fun b => .create ⟨certificateRequests, _⟩ _ b) (fun _ => none)
    (fun _ => trivial) (fun _ => trivial) (fun _ => rfl) fun t => may_wrote _ _ rfl

/-- A chart can be found and loaded, after which the program `f` goes on. -/
lemma may_locateChart {spec : HelmSpec} {f : Except String Bytes → Cmd Exit}
    {Q : List Ev → Prop} (hf : ∀ h', May (f (.ok [])) h' Q) : May (locateChart spec >>= f) h Q := by
  refine ⟨true, trivial, ?_⟩
  -- the reference names a local file
  change May (call (.loadChart spec.chartRef) >>= f) _ Q
  exact ⟨.ok [], trivial, hf _⟩

/-- `helm-install` with a Helm part whose values can be read can write. -/
lemma may_helmInstall_wrote (hready : x.HelmReady cmd) : May (x.helmInstall cmd) h Wrote := by
  obtain ⟨spec, vals, hs, hv⟩ := hready
  unfold helmInstall
  rw [hs]
  dsimp only
  rw [hv]
  refine ⟨none, trivial, may_locateChart fun h' => ?_⟩
  exact may_dryRunThenApply (fun b => .install _ _ [] vals b) (fun _ => none)
    (fun _ => trivial) (fun _ => trivial) (fun _ => rfl) fun t => may_wrote _ _ rfl

/-- `helm-upgrade` with a Helm part whose values can be read can write. -/
lemma may_helmUpgrade_wrote (hready : x.HelmReady cmd) : May (x.helmUpgrade cmd) h Wrote := by
  obtain ⟨spec, vals, hs, hv⟩ := hready
  unfold helmUpgrade
  rw [hs]
  dsimp only
  rw [hv]
  refine ⟨none, trivial, none, trivial, may_locateChart fun h' => ?_⟩
  exact may_dryRunThenApply (fun b => .upgrade _ _ [] vals b) (fun _ => none)
    (fun _ => trivial) (fun _ => trivial) (fun _ => rfl) fun t => may_wrote _ _ rfl

/-- `helm-uninstall` with a Helm part can write. -/
lemma may_helmUninstall_wrote (hs : cmd.helm.isSome) : May (x.helmUninstall cmd) h Wrote := by
  obtain ⟨spec, hs⟩ := Option.isSome_iff_exists.mp hs
  unfold helmUninstall
  rw [hs]
  exact ⟨none, trivial, (), trivial, none, trivial, may_wrote _ _ rfl⟩

/-- **A handler that can write does**, if the surroundings answer for it. -/
theorem may_handler_wrote (fuel : ℕ) (hcan : x.CanWrite cmd) :
    May (x.handler fuel cmd) h Wrote := by
  rcases hcan with ⟨hverb, hne⟩ | ⟨hverb, hpt, hname, live, hg⟩ | ⟨hverb, hname, live, hg⟩ |
    ⟨hverb | hverb | hverb, hname⟩ | ⟨hverb | hverb, hready⟩ | ⟨hverb, hs⟩
  · obtain ⟨obj, post, hr⟩ := List.exists_cons_of_ne_nil hne
    rw [handler_apply hverb]
    refine may_apply (hr.trans (List.nil_append _).symm) fun h' next _ _ => ?_
    refine may_applyObject_create (writable_of_mem_reachable (by simp [hr])) ?_
    exact fun h'' ri body _ hmem _ => may_of_mem _ ⟨_, hmem, rfl⟩
  · rw [handler_patch hverb]
    exact may_patch_wrote hpt hname hg
  · rw [handler_delete hverb]
    exact may_delete_wrote hname hg
  · rw [handler_drainNode hverb]
    exact may_drainNode_wrote fuel hname
  · rw [handler_uncordonNode hverb]
    exact may_uncordonNode_wrote hname
  · rw [handler_certRotate hverb]
    exact may_certRotate_wrote hname
  · rw [handler_helmInstall hverb]
    exact may_helmInstall_wrote hready
  · rw [handler_helmUpgrade hverb]
    exact may_helmUpgrade_wrote hready
  · rw [handler_helmUninstall hverb]
    exact may_helmUninstall_wrote hs

/-- What the handler can bring about after the first report, a run brings about. -/
lemma exists_run {fuel : ℕ} {Q : List Ev → Prop}
    (hmay : ∀ h, May (x.handler fuel cmd) h Q) :
    ∃ tr ex, Runs (x.handleCommand fuel cmd) tr ex ∧ (∀ e ∈ tr, Lawful e.op e.ans) ∧ Q tr := by
  have hcmd : May (x.handleCommand fuel cmd) [] Q := ⟨(), trivial, hmay _⟩
  obtain ⟨tr, ex, hrun, hok, hQ⟩ := may_runs hcmd
  exact ⟨tr, ex, hrun, hok, by simpa using hQ⟩

/-- **The commands that can write** are those with `CanWrite`, with lawful answers of the cluster.
-/
theorem exists_write_iff (fuel : ℕ) :
    (∃ tr ex, Runs (x.handleCommand fuel cmd) tr ex ∧ (∀ e ∈ tr, Lawful e.op e.ans) ∧ Wrote tr) ↔
      x.CanWrite cmd := by
  constructor
  · rintro ⟨tr, ex, hrun, hok, hw⟩
    obtain ⟨tr₁, e, tr₂, htr, hnw, he⟩ := exists_first_write hw
    exact canWrite_of_writeOK he hnw (allowed_of_runs hrun hok htr).write
  · exact fun hcan => exists_run fun h => may_handler_wrote fuel hcan

end CanWrite

/-! ## A cluster that accepts every write -/

/-- Answers of a cluster that holds the given objects, knows every kind as namespaced and accepts
every write. -/
def acceptAll (live : String → Option Object) : ∀ op, Ans op
  | .now => (0 : ℤ)
  | .restMapping group kind version => .found ⟨group, version, kind⟩ false
  | .get _ name =>
    if name = "" then .error (.other "resource name may not be empty")
    else match live name with
      | some obj => .ok obj
      | none => .error (.notFound "not found")
  | .create _ _ _ | .update _ _ _ | .patch _ _ _ _ _ | .delete _ _ _ => none
  | .getNode _ | .patchNode _ _ | .evict _ _ => none
  | .listPods _ => .ok []
  | .wait | .helmConfig _ | .helmStatus _ _ => none
  | .stat _ => true
  | .locateChart _ _ => .ok ""
  | .loadChart _ => .ok []
  | .install _ _ _ _ _ | .upgrade _ _ _ _ _ | .uninstall _ _ => none
  | .report _ | .incCommand _ _ | .setDrainProgress _ _ | .clearDrainProgress _ => ()

lemma lawful_acceptAll (live : String → Option Object) (op : Op) :
    Lawful op (acceptAll live op) := by
  cases op with
  | get ri name =>
    intro hname
    exact ⟨"resource name may not be empty", by simp [acceptAll, hname]⟩
  | _ => trivial

end K8sAgent.Executor
