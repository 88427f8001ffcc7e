import K8sAgent.Executor.Conduct

set_option relaxedAutoImplicit false
set_option autoImplicit false

/-!
# The conduct of the verbs

The handlers one after another, each shown once to conduct its command as specified. What the
executor guarantees to the rest of the agent is read off the result.

## Main results

* `K8sAgent.Executor.behaves_applyLoop` — the loop of `apply` over its objects.
* `K8sAgent.Executor.behaves_evictAll` — the loop of a drain over the pods of its node.
* `K8sAgent.Executor.handleCommand_behaves` — every command is conducted as specified.
* `K8sAgent.Executor.handleCommand_allowed` — every request of every command is allowed, if answers
  are lawful.
-/

namespace K8sAgent.Executor

open Encoding JsonTree Interaction

/-! ## Apply -/

section Apply

variable {x : Executor} {cmd : Command}

/-- The target resolves an object only where it names a resource and a version. -/
lemma resolvable_of_fallbackGVR {obj : Object} {r : GroupVersionResource × Bool}
    (hr : x.fallbackGVR obj cmd.target = .ok r) : x.resolvable cmd obj = true := by
  unfold fallbackGVR at hr
  split_ifs at hr with hc
  simp [resolvable, hc]

/-- **Finding the resource of an object** reads at most. -/
theorem behaves_gvrFor {obj : Object} {f : Except String (GroupVersionResource × Bool) → Cmd Exit}
    {h : List Ev} (hr : Running h)
    (herr : ∀ h' msg, Pending h' → x.Behaves cmd (f (.error msg)) h')
    (hok : ∀ t r, (∀ e ∈ t, Quiet e.op) → Running (h ++ t) → x.resolvable cmd obj = true →
      x.Behaves cmd (f (.ok r)) (h ++ t)) :
    x.Behaves cmd (x.gvrFor obj cmd.target >>= f) h := by
  -- the answer of the fallback, after any quiet requests
  have hfall : ∀ t : List Ev, (∀ e ∈ t, Quiet e.op) → Running (h ++ t) →
      x.Behaves cmd (f (x.fallbackGVR obj cmd.target)) (h ++ t) := by
    intro t ht hr'
    cases hfb : x.fallbackGVR obj cmd.target with
    | error msg => exact herr _ msg hr'.toPending
    | ok r => exact hok t r ht hr' (resolvable_of_fallbackGVR hfb)
  unfold gvrFor
  by_cases hm : x.hasMapper = true ∧ (groupVersionKind obj).kind ≠ ""
  · rw [if_pos hm]
    refine behaves_read hr rfl fun ans hr' => ?_
    have hq := quiet_append (t := []) (e := ⟨.restMapping (groupVersionKind obj).group
      (groupVersionKind obj).kind (groupVersionKind obj).version, ans⟩) (by simp) ⟨rfl, rfl, rfl⟩
    match ans with
    | .found gvr root => exact hok _ (gvr, !root) hq hr' (by simp [resolvable, hm])
    | .noMatch msg => exact hfall _ hq hr'
    | .error msg => exact herr _ msg hr'.toPending
  · rw [if_neg hm]
    simpa using hfall [] (by simp) (by simpa using hr)

/-- **One object**: it is written only if it can be, at its own namespace or at the cluster scope;
an update follows a read of the object that passed the drift check. -/
theorem behaves_applyObject {obj : Object} {next : Bool → Cmd Exit} {h : List Ev} (hr : Running h)
    (hverb : cmd.verb = verbApply) (hobj : obj ∈ x.manifest cmd)
    (hreach : LawfulAll h → x.writable cmd obj = true → obj ∈ x.reachable cmd)
    (hrefuse : LawfulAll h → x.writable cmd obj = true → (∃ live, ¬x.GateOpen cmd live) →
      x.RefusalOK cmd h)
    (hnext : ∀ t b, Running (h ++ t) → (LawfulAll (h ++ t) → x.writable cmd obj = true) →
      x.Behaves cmd (next b) (h ++ t)) :
    x.Behaves cmd (x.applyObject cmd obj next) h := by
  unfold applyObject
  refine behaves_gvrFor hr (fun h' msg hp => behaves_fail hp _ _) fun t r ht hr₁ hres => ?_
  obtain ⟨gvr, namespaced⟩ := r
  simp only
  generalize hri : (⟨gvr, if namespaced then getNamespace obj else ""⟩ : ResourceInterface) = ri
  have hns : ri.namespace_ = "" ∨ ri.namespace_ = getNamespace obj := by
    rw [← hri]
    cases namespaced <;> simp
  have hwritable : getName obj ≠ "" → x.writable cmd obj = true := fun hname => by
    simp [writable, hres, hname]
  refine behaves_liveGet hr₁ (fun h' msg hp => behaves_fail hp _ _) (fun msg hr₂ => ?_)
    fun live hr₂ => ?_
  · refine behaves_dryRunThenApply (attempt_create ri (Drift.stamp x.env obj) ApiError.text) hr₂
      (fun t' b ht' _ => ?_) (fun t' _ hl => ?_) fun t' a ht' hr₃ => ?_
    · exact ⟨obj, hobj, msg, rfl, (lastGet_concat _ _).append ht'⟩
    · have hw := hwritable (name_ne_of_notFound ri (getName obj) msg hl (by simp))
      exact .inl ⟨hverb, obj, hreach hl.left.left.left hw, hns⟩
    · simp only [List.append_assoc] at hr₃ ⊢
      exact hnext _ _ hr₃ fun hl =>
        hwritable (name_ne_of_notFound ri (getName obj) msg hl (by simp))
  · refine behaves_checkDrift hr₂.toPending (fun hg hl => ?_) fun hg => ?_
    · have hw := hwritable (name_ne_of_found ri (getName obj) live hl (by simp))
      rw [List.append_assoc]
      refine (hrefuse hl.left.left hw ⟨live, hg⟩).append ?_
      exact NoWrite.append (fun e he => (ht e he).2.1) (noWrite_singleton rfl)
    · refine behaves_dryRunThenApply
        (attempt_update ri (Merge.updateBody x.env live obj) ApiError.text) hr₂
        (fun t' b ht' => ?_) (fun t' ht' hl => ?_) fun t' a ht' hr₃ => ?_
      · exact ⟨obj, hobj, live, rfl, hg, (lastGet_concat _ _).append ht'⟩
      · have hn := name_ne_of_found ri (getName obj) live hl (by simp)
        refine ⟨hverb, ⟨obj, hreach hl.left.left.left (hwritable hn), hns⟩, live, hg, ?_,
          Merge.getResourceVersion_updateBody hn⟩
        rw [Merge.getName_updateBody hn]
        simp
      · simp only [List.append_assoc] at hr₃ ⊢
        exact hnext _ _ hr₃ fun hl =>
          hwritable (name_ne_of_found ri (getName obj) live hl (by simp))

/-- **The loop over the objects.** What has been written belongs to objects that were reached.

**Proof sketch.** Induction on the objects left, with the objects done so far: all of them could be
written, and there is one if something has been written. An object that can be written is reached
then, and if it is refused after a write it is at least the second. -/
theorem behaves_applyLoop (hverb : cmd.verb = verbApply) (objs : List Object) :
    ∀ (pre : List Object) (h : List Ev) (created updated : ℕ),
      x.manifest cmd = pre ++ objs.map (prepare cmd) →
      (LawfulAll h → ∀ o ∈ pre, x.writable cmd o = true) → Running h → (pre = [] → NoWrite h) →
      x.Behaves cmd (x.applyLoop cmd objs created updated) h := by
  induction objs with
  | nil => exact fun pre h created updated _ _ hr _ => behaves_succeed hr.toPending _
  | cons obj objs ih =>
    intro pre h created updated hman hpre hr hnw
    have hreachable : LawfulAll h → x.writable cmd (prepare cmd obj) = true →
        pre ++ [prepare cmd obj] <+: x.reachable cmd := by
      intro hl hw
      rw [reachable, hman, List.takeWhile_append_of_pos (hpre hl), List.map_cons,
        List.takeWhile_cons_of_pos hw]
      exact List.prefix_append_right_inj pre |>.mpr (List.prefix_append [_] _)
    refine behaves_applyObject hr hverb (by simp [hman]) (fun hl hw => ?_) (fun hl hw hclosed => ?_)
      fun t b hr' hw => ?_
    · exact (hreachable hl hw).subset (by simp)
    · by_cases hnil : pre = []
      · exact .inl (hnw hnil)
      · obtain ⟨live, hg⟩ := hclosed
        rw [GateOpen, Classical.not_imp] at hg
        refine .inr ⟨hverb, hg.1, ?_, live, hg.2⟩
        have hlen := (hreachable hl hw).length_le
        have hpos := List.length_pos_iff.mpr hnil
        rw [List.length_append, List.length_singleton] at hlen
        omega
    · have hman' : x.manifest cmd = (pre ++ [prepare cmd obj]) ++ objs.map (prepare cmd) := by
        rw [hman]
        simp
      have hpre' : LawfulAll (h ++ t) → ∀ o ∈ pre ++ [prepare cmd obj],
          x.writable cmd o = true := by
        intro hl o ho
        rcases List.mem_append.mp ho with ho | ho
        · exact hpre hl.left o ho
        · rw [List.mem_singleton.mp ho]
          exact hw hl
      cases b
      · exact ih _ _ _ _ hman' hpre' hr' (by simp)
      · exact ih _ _ _ _ hman' hpre' hr' (by simp)

/-- `apply` behaves well after a history without write. -/
lemma behaves_apply {h : List Ev} (hverb : cmd.verb = verbApply) (hr : Running h)
    (hnw : NoWrite h) : x.Behaves cmd (x.apply cmd) h := by
  unfold apply
  cases hd : decodeManifest x.env cmd.payload with
  | error e => exact behaves_fail hr.toPending _ _
  | ok objs =>
    cases objs with
    | nil => exact behaves_fail hr.toPending _ _
    | cons obj objs =>
      refine behaves_applyLoop hverb (obj :: objs) [] h 0 0 ?_ (by simp) hr fun _ => hnw
      simp [manifest, hd]

end Apply

/-! ## Patch and delete -/

section Target

variable {x : Executor} {cmd : Command} {h : List Ev}

/-- Quiet requests `t` keep the target checked. -/
lemma TargetChecked.append {t : List Ev} (hc : x.TargetChecked cmd h)
    (ht : ∀ e ∈ t, Quiet e.op) : x.TargetChecked cmd (h ++ t) := by
  obtain ⟨live, hg, hget⟩ := hc
  refine ⟨live, hg, ?_⟩
  rw [List.filter_append, hget, List.filter_eq_nil_iff.mpr]
  · rfl
  · intro e he
    simp [(ht e he).2.2]

/-- The first read of a handler checks the target. -/
lemma targetChecked_of_get {live : Object} (hget : h.filter (·.op.isGet) = [])
    (hg : x.GateOpen cmd live) :
    x.TargetChecked cmd (h ++ [⟨.get (targetInterface cmd) cmd.target.name, .ok live⟩]) := by
  refine ⟨live, hg, ?_⟩
  rw [List.filter_append, hget]
  rfl

/-- After the patch, recording the new hash behaves well if what comes next does. -/
lemma behaves_restamp {next : Cmd Exit} (hverb : cmd.verb = verbPatch)
    (hpt : (patchTypeOf cmd.patchType).isSome) (hr : Running h) (hwrote : ¬NoWrite h)
    (hnext : ∀ h', Pending h' → x.Behaves cmd next h') : x.Behaves cmd (x.restamp cmd next) h := by
  unfold restamp
  refine behaves_liveGet hr (fun h' _ hp => hnext h' hp) (fun _ hr' => hnext _ hr'.toPending)
    fun live hr' => ?_
  have hwrote' : ¬NoWrite (h ++ [⟨.get (targetInterface cmd) cmd.target.name, .ok live⟩]) :=
    fun hn => hwrote fun e he => hn e (List.mem_append_left _ he)
  refine behaves_write hr' ⟨rfl, rfl, rfl⟩ trivial (fun hl => ?_)
    (.inl ⟨hverb, hwrote', _, rfl⟩) fun a hr'' => hnext _ hr''.toPending
  have hname := name_ne_of_found (targetInterface cmd) cmd.target.name live hl (by simp)
  exact ⟨hverb, hpt, hname, rfl, rfl, fun hn => absurd hn hwrote'⟩

/-- `patch` behaves well after a history without write and without `get`. -/
lemma behaves_patch (hverb : cmd.verb = verbPatch) (hr : Running h) (hnw : NoWrite h)
    (hget : h.filter (·.op.isGet) = []) : x.Behaves cmd (x.patch cmd) h := by
  unfold patch
  cases hpt : patchTypeOf cmd.patchType with
  | none => exact behaves_refuse hr.toPending (fun _ => .inl hnw) _
  | some pt =>
    refine behaves_liveGet hr (fun h' msg hp => behaves_fail hp _ _)
      (fun _ hr' => behaves_fail hr'.toPending _ _) fun live hr' => ?_
    refine behaves_checkDrift hr'.toPending
      (fun _ _ => .inl (hnw.append (noWrite_singleton rfl))) fun hg => ?_
    refine behaves_dryRunThenApply (attempt_patch (targetInterface cmd) cmd.target.name pt
      cmd.payload ApiError.text) hr' (fun _ _ _ => trivial) (fun t ht hl => ?_)
      fun t a _ hr'' => ?_
    · have hname := name_ne_of_found (targetInterface cmd) cmd.target.name live hl (by simp)
      exact ⟨hverb, by simp [hpt], hname, rfl, rfl,
        fun _ => (targetChecked_of_get hget hg).append ht⟩
    · refine behaves_restamp hverb (by simp [hpt]) hr'' (fun hn => ?_) fun h' hp =>
        behaves_succeed hp _
      have := hn ⟨.patch (targetInterface cmd) cmd.target.name pt cmd.payload false, a⟩ (by simp)
      cases this

/-- `delete` behaves well after a history without write and without `get`. -/
lemma behaves_delete (hverb : cmd.verb = verbDelete) (hr : Running h) (hnw : NoWrite h)
    (hget : h.filter (·.op.isGet) = []) : x.Behaves cmd (x.delete cmd) h := by
  unfold delete
  refine behaves_liveGet hr (fun h' msg hp => behaves_fail hp _ _)
    (fun _ hr' => behaves_succeed hr'.toPending _) fun live hr' => ?_
  have hnw' := hnw.append (noWrite_singleton
    (e := ⟨.get (targetInterface cmd) cmd.target.name, .ok live⟩) rfl)
  refine behaves_checkDrift hr'.toPending (fun _ _ => .inl hnw') fun hg => ?_
  refine behaves_dryRunThenApply (attempt_delete (targetInterface cmd) cmd.target.name) hr'
    (fun _ _ _ => trivial) (fun t ht hl => ?_) fun t a _ hr'' => behaves_succeed hr''.toPending _
  have hname := name_ne_of_found (targetInterface cmd) cmd.target.name live hl (by simp)
  exact ⟨hverb, hname, rfl, rfl, hnw'.append fun e he => (ht e he).2.1,
    (targetChecked_of_get hget hg).append ht⟩

end Target

/-! ## Nodes and certificates -/

section Nodes

variable {x : Executor} {cmd : Command} {h : List Ev}

/-- **The retries for one pod.** Only a pod outside the protected namespaces may be evicted, and a
drain that stalls has not evicted all pods. -/
theorem behaves_evictPod {p : Pod} {lastSuccess : ℤ} {evicted total : ℕ} {next : Cmd Exit}
    (hverb : cmd.verb = verbDrainNode) (hname : cmd.target.name ≠ "")
    (hp : x.cfg.protectedNamespace p.namespace_ = false) (hlt : evicted < total)
    (hnext : ∀ h', Running h' → x.Behaves cmd next h') (fuel : ℕ) :
    ∀ h, Running h → x.Behaves cmd (x.evictPod cmd p lastSuccess evicted total next fuel) h := by
  induction fuel with
  | zero => exact fun h _ => hverb
  | succ fuel ih =>
    intro h hr
    refine behaves_write hr ⟨rfl, rfl, rfl⟩ trivial (fun _ => ⟨hverb, hname, hp⟩)
      (.inr ⟨rfl, .inl hverb⟩) fun ans hr₁ => ?_
    match ans with
    | none => exact hnext _ hr₁
    | some (.notFound _) => exact hnext _ hr₁
    | some (.other msg) =>
      refine behaves_read hr₁ rfl fun now hr₂ => ?_
      split
      · -- the drain stalls
        have hpct : evicted * 100 / total < 100 :=
          Nat.div_lt_of_lt_mul (Nat.mul_lt_mul_of_pos_right hlt (by decide))
        refine ⟨conduct_of_not_isAttempt rfl fun _ => allowed_of_read hr₂.isOpen rfl rfl,
          fun u _ => .inr ⟨hverb, _, _, ?_, ?_, hr₂.toPending, rfl⟩⟩
        · rfl
        · exact Int.ofNat_lt.mpr hpct
      · refine behaves_read hr₂ rfl fun ans' hr₃ => ?_
        match ans' with
        | some err => exact behaves_fail hr₃.toPending _ _
        | none => exact ih _ hr₃

/-- **The evictions of a drain.** As many evictions are left as there are pods to evict. -/
theorem behaves_evictAll (hverb : cmd.verb = verbDrainNode) (hname : cmd.target.name ≠ "")
    (fuel total : ℕ) (pods : List Pod) :
    ∀ (h : List Ev) (lastSuccess : ℤ) (evicted : ℕ),
      evicted + pods.countP (x.evictable cmd.target.name) ≤ total → Running h →
      x.Behaves cmd (x.evictAll cmd fuel total pods lastSuccess evicted) h := by
  induction pods with
  | nil =>
    exact fun h _ _ _ hr => behaves_read hr rfl fun _ hr' => behaves_succeed hr'.toPending _
  | cons p pods ih =>
    intro h lastSuccess evicted hle hr
    rw [List.countP_cons] at hle
    unfold evictAll
    split
    next hev =>
      rw [if_pos hev] at hle
      have hp : x.cfg.protectedNamespace p.namespace_ = false := by
        simp only [evictable, Bool.not_eq_true', Bool.or_eq_false_iff] at hev
        exact hev.2
      refine behaves_evictPod hverb hname hp (by omega) (fun h' hr' => ?_) fuel h hr
      refine behaves_read hr' rfl fun now hr₁ => ?_
      refine behaves_read hr₁ rfl fun _ hr₂ => ?_
      exact behaves_read hr₂ rfl fun _ hr₃ => ih _ _ _ (by omega) hr₃
    next => exact ih h lastSuccess evicted (by omega) hr

/-- `drain-node` behaves well while the command runs. -/
lemma behaves_drainNode (hverb : cmd.verb = verbDrainNode) (fuel : ℕ) (hr : Running h) :
    x.Behaves cmd (x.drainNode fuel cmd) h := by
  unfold drainNode
  split
  next => exact behaves_fail hr.toPending _ _
  next hname =>
    refine behaves_read hr rfl fun ans hr₁ => ?_
    match ans with
    | some e => exact behaves_fail hr₁.toPending _ _
    | none =>
      refine behaves_write hr₁ ⟨rfl, rfl, rfl⟩ trivial (fun _ => ⟨.inl hverb, hname⟩)
        (.inr ⟨rfl, .inl hverb⟩) fun ans hr₂ => ?_
      match ans with
      | some e => exact behaves_fail hr₂.toPending _ _
      | none =>
        refine behaves_read hr₂ rfl fun ans hr₃ => ?_
        match ans with
        | .error e => exact behaves_fail hr₃.toPending _ _
        | .ok pods =>
          dsimp only
          split
          · exact behaves_read hr₃ rfl fun _ hr₄ => behaves_succeed hr₄.toPending _
          · exact behaves_read hr₃ rfl fun now hr₄ =>
              behaves_evictAll hverb hname fuel _ pods _ now 0 (by omega) hr₄

/-- `uncordon-node` behaves well while the command runs. -/
lemma behaves_uncordonNode (hverb : cmd.verb = verbUncordonNode) (hr : Running h) :
    x.Behaves cmd (uncordonNode cmd) h := by
  unfold uncordonNode
  split
  next => exact behaves_fail hr.toPending _ _
  next hname =>
    refine behaves_read hr rfl fun ans hr₁ => ?_
    match ans with
    | some e => exact behaves_fail hr₁.toPending _ _
    | none =>
      refine behaves_write hr₁ ⟨rfl, rfl, rfl⟩ trivial (fun _ => ⟨.inr hverb, hname⟩)
        (.inr ⟨rfl, .inr (.inl hverb)⟩) fun ans hr₂ => ?_
      match ans with
      | some e => exact behaves_fail hr₂.toPending _ _
      | none => exact behaves_succeed hr₂.toPending _

/-- `cert-rotate` behaves well while the command runs. -/
lemma behaves_certRotate (hverb : cmd.verb = verbCertRotate) (hr : Running h) :
    x.Behaves cmd (x.certRotate cmd) h := by
  unfold certRotate
  refine behaves_read hr rfl fun ans hr₁ => ?_
  match ans with
  | .error e => exact behaves_fail hr₁.toPending _ _
  | .ok cert =>
    dsimp only
    split
    · exact behaves_fail hr₁.toPending _ _
    · refine behaves_read hr₁ rfl fun now hr₂ => ?_
      refine behaves_dryRunThenApply (attempt_create ⟨certificateRequests, _⟩ _ ApiError.text) hr₂
        (fun _ _ _ hv => ?_) (fun t _ hl => ?_) fun t a _ hr₃ => behaves_succeed hr₃.toPending _
      · rw [hverb] at hv
        exact absurd hv (by decide)
      · have hname := name_ne_of_found ⟨certificates, cmd.target.namespace_⟩ cmd.target.name cert hl
          (by simp)
        exact .inr ⟨hverb, hname, rfl⟩

end Nodes

/-! ## Helm -/

section Helm

variable {x : Executor} {cmd : Command} {h : List Ev}

/-- Finding and loading a chart, which writes nothing, behaves well if the program `f` does. -/
lemma behaves_locateChart {spec : HelmSpec} {f : Except String Bytes → Cmd Exit}
    (hr : Running h) (hf : ∀ h' r, Running h' → x.Behaves cmd (f r) h') :
    x.Behaves cmd (locateChart spec >>= f) h := by
  refine behaves_read hr rfl fun existing hr₁ => ?_
  change x.Behaves cmd ((ite _ _ _ : Cmd (Except String Bytes)) >>= f) _
  split
  · exact behaves_read hr₁ rfl fun r hr₂ => hf _ r hr₂
  · refine behaves_read hr₁ rfl fun ans hr₂ => ?_
    match ans with
    | .error e => exact hf _ _ hr₂
    | .ok path => exact behaves_read hr₂ rfl fun r hr₃ => hf _ r hr₃

/-- `helm-install` behaves well while the command runs. -/
lemma behaves_helmInstall (hverb : cmd.verb = verbHelmInstall) (hr : Running h) :
    x.Behaves cmd (x.helmInstall cmd) h := by
  unfold helmInstall
  cases hs : cmd.helm with
  | none => exact ⟨by rw [hverb]; rfl, hs⟩
  | some spec =>
    dsimp only
    cases hv : parseValues x.env spec with
    | error e => exact behaves_fail hr.toPending _ _
    | ok vals =>
      refine behaves_read hr rfl fun ans hr₁ => ?_
      match ans with
      | some e => exact behaves_fail hr₁.toPending _ _
      | none =>
        refine behaves_locateChart hr₁ fun h' r hr' => ?_
        match r with
        | .error e => exact behaves_fail hr'.toPending _ _
        | .ok chrt =>
          exact behaves_dryRunThenApply (attempt_install _ _ chrt vals sanitizeHelmErr) hr'
            (fun _ _ _ => trivial) (fun _ _ _ => ⟨hverb, spec, vals, hs, hv⟩)
            fun t a _ hr'' => behaves_succeed hr''.toPending _

/-- `helm-upgrade` behaves well while the command runs. -/
lemma behaves_helmUpgrade (hverb : cmd.verb = verbHelmUpgrade) (hr : Running h) :
    x.Behaves cmd (x.helmUpgrade cmd) h := by
  unfold helmUpgrade
  cases hs : cmd.helm with
  | none => exact ⟨by rw [hverb]; rfl, hs⟩
  | some spec =>
    dsimp only
    cases hv : parseValues x.env spec with
    | error e => exact behaves_fail hr.toPending _ _
    | ok vals =>
      refine behaves_read hr rfl fun ans hr₁ => ?_
      match ans with
      | some e => exact behaves_fail hr₁.toPending _ _
      | none =>
        refine behaves_read hr₁ rfl fun ans hr₂ => ?_
        match ans with
        | some e => exact behaves_fail hr₂.toPending _ _
        | none =>
          refine behaves_locateChart hr₂ fun h' r hr' => ?_
          match r with
          | .error e => exact behaves_fail hr'.toPending _ _
          | .ok chrt =>
            exact behaves_dryRunThenApply (attempt_upgrade _ _ chrt vals sanitizeHelmErr) hr'
              (fun _ _ _ => trivial) (fun _ _ _ => ⟨hverb, spec, vals, hs, hv⟩)
              fun t a _ hr'' => behaves_succeed hr''.toPending _

/-- `helm-uninstall` behaves well while the command runs. -/
lemma behaves_helmUninstall (hverb : cmd.verb = verbHelmUninstall) (hr : Running h) :
    x.Behaves cmd (x.helmUninstall cmd) h := by
  unfold helmUninstall
  cases hs : cmd.helm with
  | none => exact ⟨by rw [hverb]; rfl, hs⟩
  | some spec =>
    refine behaves_read hr rfl fun ans hr₁ => ?_
    match ans with
    | some e => exact behaves_fail hr₁.toPending _ _
    | none =>
      refine behaves_read hr₁ rfl fun u hr₂ => ?_
      refine behaves_write hr₂ ⟨rfl, rfl, rfl⟩ trivial (fun _ => ⟨hverb, by simp [hs]⟩)
        (.inr ⟨rfl, .inr (.inr hverb)⟩) fun ans hr₃ => ?_
      match ans with
      | some e => exact behaves_fail hr₃.toPending _ _
      | none => exact behaves_succeed hr₃.toPending _

end Helm

/-! ## All verbs -/

/-- **Every command is conducted as specified**, whatever the surroundings answer. -/
theorem handleCommand_behaves (x : Executor) (fuel : ℕ) (cmd : Command) :
    x.Behaves cmd (x.handleCommand fuel cmd) [] := by
  refine behaves_read running_nil rfl fun u hr => ?_
  have hnw : NoWrite [(⟨.report { status := statusValidating }, u⟩ : Ev)] := noWrite_singleton rfl
  -- one verb after another, in the order of the dispatch
  refine behaves_ite (fun hv => behaves_apply hv hr hnw) fun _ => ?_
  refine behaves_ite (fun hv => behaves_patch hv hr hnw rfl) fun _ => ?_
  refine behaves_ite (fun hv => behaves_delete hv hr hnw rfl) fun _ => ?_
  refine behaves_ite (fun hv => behaves_drainNode hv fuel hr) fun _ => ?_
  refine behaves_ite (fun hv => behaves_uncordonNode hv hr) fun _ => ?_
  refine behaves_ite (fun hv => behaves_helmInstall hv hr) fun _ => ?_
  refine behaves_ite (fun hv => behaves_helmUpgrade hv hr) fun _ => ?_
  refine behaves_ite (fun hv => behaves_helmUninstall hv hr) fun _ => ?_
  refine behaves_ite (fun hv => behaves_certRotate hv hr) fun _ => ?_
  exact behaves_ite (fun _ => behaves_refuse hr.toPending (fun _ => .inl hnw) _)
    fun _ => behaves_refuse hr.toPending (fun _ => .inl hnw) _

/-- **Every request of every command is allowed.** Whatever the surroundings answer lawfully, the
requests `handleCommand` makes are those of the specification, each at the history where it is
made. -/
theorem handleCommand_allowed (x : Executor) (fuel : ℕ) (cmd : Command) :
    x.Safe cmd (x.handleCommand fuel cmd) [] :=
  wp_consequence (fun _ _ _ => trivial) (fun _ _ hl hc => hc.allowed hl) (fun _ _ _ _ => trivial)
    (fun e he => by cases he) (handleCommand_behaves x fuel cmd)

/-- The requests of a complete run, each allowed by the events before it. -/
lemma allowed_of_runs {x : Executor} {fuel : ℕ} {cmd : Command} {tr : List Ev} {ex : Exit}
    (hrun : Runs (x.handleCommand fuel cmd) tr ex) (hok : ∀ e ∈ tr, Lawful e.op e.ans)
    {tr₁ tr₂ : List Ev} {e : Ev} (he : tr = tr₁ ++ e :: tr₂) : x.Allowed cmd tr₁ e.op := by
  have hall := (wp_runs (handleCommand_allowed x fuel cmd) hrun hok).1 tr₁ e tr₂ he
  rwa [List.nil_append] at hall

/-- The requests and the end of a complete run. -/
lemma conduct_of_runs {x : Executor} {fuel : ℕ} {cmd : Command} {tr : List Ev} {ex : Exit}
    (hrun : Runs (x.handleCommand fuel cmd) tr ex) :
    (∀ tr₁ e tr₂, tr = tr₁ ++ e :: tr₂ → x.Conduct cmd tr₁ e.op) ∧ Ended cmd tr ex := by
  simpa using wp_runs (handleCommand_behaves x fuel cmd) hrun fun _ _ => trivial

end K8sAgent.Executor
