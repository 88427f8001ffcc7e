import K8sAgent.Executor.FailStop

set_option relaxedAutoImplicit false
set_option autoImplicit false

/-!
# What a drain does

A drain cordons the node, lists its pods and evicts those that may be evicted, one after another.
A pod is tried again until it is gone; the drain stops at a pod that cannot be evicted for too long,
or when it is cancelled. The record of a drain is made of its node patches, pod lists, evictions
and reports, and this module says exactly what it is in every run that returns.

## Main definitions

* `K8sAgent.Executor.recorded` — the events of the record.
* `K8sAgent.Executor.Evicted`, `K8sAgent.Executor.Ending` — one pod evicted; how a drain ends.
* `K8sAgent.Executor.progressReports` — the percentages reported.

## Main results

* `K8sAgent.Executor.shows_evictPod` — the attempts on one pod.
* `K8sAgent.Executor.shows_evictAll` — the pods one after another.
* `K8sAgent.Executor.drain_exact` — the record of a drain.
-/

namespace K8sAgent.Executor

open Encoding JsonTree Interaction

/-! ## The record -/

/-- Node patches, pod lists, evictions and reports. -/
def isRecorded : Op → Bool
  | .patchNode _ _ | .listPods _ | .evict _ _ | .report _ => true
  | _ => false

/-- The events of the record. -/
def recorded (e : Ev) : Bool := isRecorded e.op

/-- A pod is tried and is not evicted, once for each error. -/
def rejections (p : Pod) (errs : List String) : List Ev :=
  errs.map fun msg => ⟨.evict p.namespace_ p.name, some (.other msg)⟩

/-- A pod that was evicted: the errors of earlier attempts, and whether it was gone already. -/
structure Evicted where
  /-- The pod. -/
  pod : Pod
  /-- The errors of the attempts before the last. -/
  errs : List String
  /-- The text of the not-found error that ended the attempts, if it was one. -/
  gone : Option String

/-- The attempts on a pod that was evicted. -/
def Evicted.attempts (s : Evicted) : List Ev :=
  rejections s.pod s.errs ++ [⟨.evict s.pod.namespace_ s.pod.name, s.gone.map .notFound⟩]

/-- The report that `evicted` of `total` pods have been evicted. -/
def evictedReport (p : Pod) (evicted total : ℕ) : Report where
  status := statusProgress
  message := s!"evicted {p.namespace_}/{p.name} ({evicted}/{total})"
  progress := (evicted * 100 / total : ℕ)

/-- Pods evicted one after another, with a report after each, where `evicted` were evicted
before. -/
def evictions (total : ℕ) : ℕ → List Evicted → List Ev
  | _, [] => []
  | evicted, s :: done =>
    s.attempts ++ ⟨.report (evictedReport s.pod (evicted + 1) total), ()⟩ ::
      evictions total (evicted + 1) done

/-- How a drain ends after its pods were listed. -/
inductive Ending : Type where
  /-- All pods are gone. -/
  | finished
  /-- The pod could not be evicted for too long. -/
  | stalled (p : Pod) (errs : List String) (msg : String)
  /-- The command was cancelled while the pod could not be evicted. -/
  | cancelled (p : Pod) (errs : List String) (msg err : String)

namespace Ending

/-- The pod at which the drain stopped. -/
def pod? : Ending → Option Pod
  | finished => none
  | stalled p _ _ => some p
  | cancelled p _ _ _ => some p

/-- The message of success. -/
def successText (cmd : Command) (total : ℕ) : String :=
  if total = 0 then s!"node {cmd.target.name} drained (no evictable pods)"
  else s!"node {cmd.target.name} drained, {total} pods evicted"

/-- The end of the record, where `evicted` of `total` pods have been evicted. -/
def events (cmd : Command) (evicted total : ℕ) : Ending → List Ev
  | finished =>
    [⟨.report { status := statusSucceeded, message := successText cmd total }, ()⟩]
  | stalled p errs msg =>
    rejections p (errs ++ [msg]) ++ [⟨.report
      { status := statusProgress
        message := "drain stalled, waiting for human: cannot evict " ++ p.namespace_ ++ "/" ++
          p.name ++ ": " ++ msg
        progress := (evicted * 100 / total : ℕ) }, ()⟩]
  | cancelled p errs msg err =>
    rejections p (errs ++ [msg]) ++
      [⟨.report { status := statusFailed, message := "drain cancelled" ++ ": " ++ err }, ()⟩]

/-- The percentage a drain that stalls reports. -/
def progress (evicted total : ℕ) : Ending → List ℤ
  | stalled _ _ _ => [((evicted * 100 / total : ℕ) : ℤ)]
  | _ => []

end Ending

/-- The body of the patch that cordons a node. -/
def cordonPatch : Bytes := utf8 "\x7b\"spec\":\x7b\"unschedulable\":true\x7d\x7d"

/-- The record up to the list of pods. -/
def opening (cmd : Command) (pods : List Pod) : List Ev :=
  [⟨.report { status := statusValidating }, ()⟩, ⟨.patchNode cmd.target.name cordonPatch, none⟩,
    ⟨.listPods ("spec.nodeName=" ++ cmd.target.name), .ok pods⟩]

/-! ## One pod -/

section Runs

variable {x : Executor} {cmd : Command} {es : List Ev}

/-- The record of `fail` is one report with status `failed`. -/
lemma shows_recorded_fail {msg err : String} {ex : Exit}
    (h : Shows recorded (fail cmd msg err) es ex) :
    es = [⟨.report { status := statusFailed, message := msg ++ ": " ++ err }, ()⟩] := by
  obtain ⟨_, hreport⟩ := h.hidden fun _ => rfl
  obtain ⟨_, es, rfl, hdone⟩ := hreport.visible fun _ => rfl
  rw [(shows_done.mp hdone).1]

/-- The record of `succeed` is one report with status `succeeded`. -/
lemma shows_recorded_succeed {msg : String} {ex : Exit}
    (h : Shows recorded (succeed cmd msg) es ex) :
    es = [⟨.report { status := statusSucceeded, message := msg }, ()⟩] := by
  obtain ⟨_, hreport⟩ := h.hidden fun _ => rfl
  obtain ⟨_, es, rfl, hdone⟩ := hreport.visible fun _ => rfl
  rw [(shows_done.mp hdone).1]

/-- One more attempt before a drain that stops at the pod. -/
lemma exists_ending_cons {e : Ending} {p : Pod} (he : e.pod? = some p) (msg : String)
    (evicted total : ℕ) : ∃ e' : Ending, e'.pod? = some p ∧
      ⟨.evict p.namespace_ p.name, some (.other msg)⟩ :: e.events cmd evicted total =
        e'.events cmd evicted total := by
  cases e with
  | finished => cases he
  | stalled p' errs msg' =>
    cases he
    exact ⟨.stalled p (msg :: errs) msg', rfl, rfl⟩
  | cancelled p' errs msg' err =>
    cases he
    exact ⟨.cancelled p (msg :: errs) msg' err, rfl, rfl⟩

/-- **The attempts on one pod**: rejections until the pod is gone, or until the drain stops.

**Proof sketch.** By induction on the bound on the attempts, which a run that returns does not
use up. -/
theorem shows_evictPod {p : Pod} {lastSuccess : ℤ} {evicted total : ℕ} {next : Cmd Exit}
    {fuel : ℕ}
    (h : Shows recorded (x.evictPod cmd p lastSuccess evicted total next fuel) es .returned) :
    (∃ s : Evicted, s.pod = p ∧ ∃ es', es = s.attempts ++ es' ∧
      Shows recorded next es' .returned) ∨
    ∃ e : Ending, e.pod? = some p ∧ es = e.events cmd evicted total := by
  induction fuel generalizing es with
  | zero =>
    obtain ⟨-, hex⟩ := shows_done.mp h
    cases hex
  | succ fuel ih =>
    obtain ⟨ans, es, rfl, hans⟩ := h.visible fun _ => rfl
    cases ans with
    | none => exact .inl ⟨⟨p, [], none⟩, rfl, es, rfl, hans⟩
    | some err =>
      cases err with
      | notFound msg => exact .inl ⟨⟨p, [], some msg⟩, rfl, es, rfl, hans⟩
      | other msg =>
        obtain ⟨now, hnow⟩ := hans.hidden fun _ => rfl
        dsimp only [Prog.bind] at hnow
        split_ifs at hnow with hstall
        · obtain ⟨_, es, rfl, hdone⟩ := hnow.visible fun _ => rfl
          obtain ⟨rfl, -⟩ := shows_done.mp hdone
          exact .inr ⟨.stalled p [] msg, rfl, rfl⟩
        · obtain ⟨ans, hwait⟩ := hnow.hidden fun _ => rfl
          cases ans with
          | some err =>
            rw [shows_recorded_fail hwait]
            exact .inr ⟨.cancelled p [] msg err, rfl, rfl⟩
          | none =>
            rcases ih hwait with ⟨s, rfl, es', rfl, hnext⟩ | ⟨e, he, rfl⟩
            · exact .inl ⟨⟨s.pod, msg :: s.errs, s.gone⟩, rfl, es', rfl, hnext⟩
            · obtain ⟨e', he', hevents⟩ := exists_ending_cons he msg evicted total
              exact .inr ⟨e', he', hevents⟩

/-! ## All pods -/

/-- **The pods one after another**: those that may be evicted are, in order, up to the one at which
the drain stops. -/
theorem shows_evictAll {fuel total : ℕ} {pods : List Pod} {lastSuccess : ℤ} {evicted : ℕ}
    (htotal : evicted + pods.countP (x.evictable cmd.target.name) = total) (hpos : total ≠ 0)
    (h : Shows recorded (x.evictAll cmd fuel total pods lastSuccess evicted) es .returned) :
    ∃ (done : List Evicted) (e : Ending),
      es = evictions total evicted done ++ e.events cmd (evicted + done.length) total ∧
      done.map Evicted.pod ++ e.pod?.toList <+: pods.filter (x.evictable cmd.target.name) ∧
      (e.pod? = none → evicted + done.length = total) := by
  induction pods generalizing es lastSuccess evicted with
  | nil =>
    obtain ⟨_, hsucceed⟩ := h.hidden fun _ => rfl
    have hall : evicted = total := htotal
    refine ⟨[], .finished, ?_, List.nil_prefix, fun _ => hall⟩
    rw [shows_recorded_succeed hsucceed]
    simp [evictions, Ending.events, Ending.successText, hpos, hall]
  | cons p pods ih =>
    unfold evictAll at h
    rw [List.countP_cons] at htotal
    by_cases hev : x.evictable cmd.target.name p = true
    · rw [if_pos hev] at h htotal
      rw [List.filter_cons_of_pos hev]
      rcases shows_evictPod h with ⟨s, rfl, es', rfl, hnext⟩ | ⟨e, he, rfl⟩
      · obtain ⟨now, hgauge⟩ := hnext.hidden fun _ => rfl
        obtain ⟨_, hreport⟩ := hgauge.hidden fun _ => rfl
        obtain ⟨_, es', rfl, hrest⟩ := hreport.visible fun _ => rfl
        obtain ⟨done, e, rfl, hpre, hend⟩ := ih (by omega) hrest
        refine ⟨s :: done, e, ?_, ?_, fun hnone => ?_⟩
        · rw [List.length_cons, evictions, List.append_assoc,
            show evicted + (done.length + 1) = evicted + 1 + done.length by omega]
          rfl
        · rw [List.map_cons, List.cons_append]
          exact (List.prefix_cons_inj s.pod).mpr hpre
        · have hlen := hend hnone
          rw [List.length_cons]
          omega
      · refine ⟨[], e, rfl, ?_, fun hnone => ?_⟩
        · rw [he]
          exact (List.prefix_cons_inj p).mpr List.nil_prefix
        · rw [he] at hnone
          cases hnone
    · rw [if_neg hev] at h htotal
      rw [List.filter_cons_of_neg hev]
      exact ih (by omega) h

/-! ## What the record is made of -/

/-- What holds of the rejections of a pod. -/
lemma forall_mem_rejections {P : Ev → Prop} {p : Pod}
    (h : ∀ a, P ⟨.evict p.namespace_ p.name, a⟩) (errs : List String) :
    ∀ ev ∈ rejections p errs, P ev := by
  intro ev hev
  obtain ⟨msg, -, rfl⟩ := List.mem_map.mp hev
  exact h _

/-- What holds of the attempts on evicted pods and of the reports about them. -/
lemma forall_mem_evictions {P : Ev → Prop} {total : ℕ} {done : List Evicted}
    (hevict : ∀ s ∈ done, ∀ a, P ⟨.evict s.pod.namespace_ s.pod.name, a⟩)
    (hreport : ∀ s ∈ done, ∀ i, P ⟨.report (evictedReport s.pod i total), ()⟩) (evicted : ℕ) :
    ∀ ev ∈ evictions total evicted done, P ev := by
  induction done generalizing evicted with
  | nil =>
    intro ev hev
    cases hev
  | cons s done ih =>
    intro ev hev
    rw [evictions, Evicted.attempts, List.append_assoc] at hev
    rcases List.mem_append.mp hev with hev | hev
    · exact forall_mem_rejections (hevict s List.mem_cons_self) s.errs ev hev
    · rcases List.mem_cons.mp hev with rfl | hev
      · exact hevict s List.mem_cons_self _
      · rcases List.mem_cons.mp hev with rfl | hev
        · exact hreport s List.mem_cons_self _
        · exact ih (fun s' hs' => hevict s' (List.mem_cons_of_mem _ hs'))
            (fun s' hs' => hreport s' (List.mem_cons_of_mem _ hs')) _ ev hev

/-- What holds of the attempts on the last pod and of the last report. -/
lemma forall_mem_ending {P : Ev → Prop} {evicted total : ℕ} (e : Ending)
    (hevict : ∀ p, e.pod? = some p → ∀ a, P ⟨.evict p.namespace_ p.name, a⟩)
    (hreport : ∀ rep, (isSuccess (.report rep) = true → e.pod? = none) → P ⟨.report rep, ()⟩) :
    ∀ ev ∈ e.events cmd evicted total, P ev := by
  intro ev hev
  cases e with
  | finished =>
    rw [List.mem_singleton.mp hev]
    exact hreport _ fun _ => rfl
  | stalled p errs msg =>
    refine forall_mem_concat (forall_mem_rejections (hevict p rfl) _) (hreport _ ?_) ev hev
    exact fun hs => by cases hs
  | cancelled p errs msg err =>
    refine forall_mem_concat (forall_mem_rejections (hevict p rfl) _) (hreport _ ?_) ev hev
    exact fun hs => by cases hs

/-- **The record of a drain from the list of pods on.** -/
theorem shows_evictions {fuel : ℕ} {pods : List Pod}
    (h : Shows recorded (if pods.countP (x.evictable cmd.target.name) = 0 then do
        call (.clearDrainProgress cmd.target.name)
        succeed cmd s!"node {cmd.target.name} drained (no evictable pods)"
      else do
        let now ← call .now
        x.evictAll cmd fuel (pods.countP (x.evictable cmd.target.name)) pods now 0)
      es .returned) :
    ∃ (done : List Evicted) (e : Ending),
      es = evictions (pods.countP (x.evictable cmd.target.name)) 0 done ++
        e.events cmd done.length (pods.countP (x.evictable cmd.target.name)) ∧
      done.map Evicted.pod ++ e.pod?.toList <+: pods.filter (x.evictable cmd.target.name) ∧
      (e.pod? = none → done.length = pods.countP (x.evictable cmd.target.name)) := by
  split_ifs at h with hzero
  · obtain ⟨_, hsucceed⟩ := h.hidden fun _ => rfl
    refine ⟨[], .finished, ?_, List.nil_prefix, fun _ => hzero.symm⟩
    rw [shows_recorded_succeed hsucceed, hzero]
    rfl
  · obtain ⟨now, hall⟩ := h.hidden fun _ => rfl
    simpa using shows_evictAll (Nat.zero_add _) hzero hall

/-- Among the evictions and at the end no pods are listed. -/
lemma listPods_not_mem {done : List Evicted} {e : Ending} {sel : String} {total : ℕ}
    {ans : Ans (.listPods sel)} :
    ⟨.listPods sel, ans⟩ ∉ evictions total 0 done ++ e.events cmd done.length total := by
  intro hmem
  rcases List.mem_append.mp hmem with hmem | hmem
  · exact absurd rfl (forall_mem_evictions (P := fun ev => ev.op ≠ .listPods sel)
      (fun _ _ _ => by simp) (fun _ _ _ => by simp) 0 _ hmem)
  · exact absurd rfl (forall_mem_ending (P := fun ev => ev.op ≠ .listPods sel) e
      (fun _ _ _ => by simp) (fun _ _ => by simp) _ hmem)

/-- **The record of a drain that lists its pods.** -/
theorem shows_drainNode {fuel : ℕ} {sel : String} {pods : List Pod}
    (h : Shows recorded (x.drainNode fuel cmd) es .returned)
    (hlist : (⟨.listPods sel, .ok pods⟩ : Ev) ∈ es) :
    ∃ (done : List Evicted) (e : Ending),
      es = ⟨.patchNode cmd.target.name cordonPatch, none⟩ ::
        ⟨.listPods ("spec.nodeName=" ++ cmd.target.name), .ok pods⟩ ::
          (evictions (pods.countP (x.evictable cmd.target.name)) 0 done ++
            e.events cmd done.length (pods.countP (x.evictable cmd.target.name))) ∧
      done.map Evicted.pod ++ e.pod?.toList <+: pods.filter (x.evictable cmd.target.name) ∧
      (e.pod? = none → done.length = pods.countP (x.evictable cmd.target.name)) := by
  -- A drain that fails has not listed pods.
  have hfailed : ∀ {msg err : String} {es : List Ev},
      Shows recorded (fail cmd msg err) es .returned → (⟨.listPods sel, .ok pods⟩ : Ev) ∉ es := by
    intro msg err es hfail hmem
    rw [shows_recorded_fail hfail] at hmem
    cases List.mem_singleton.mp hmem
  unfold drainNode at h
  split_ifs at h with hname
  · exact absurd hlist (hfailed h)
  obtain ⟨ans, hget⟩ := h.hidden fun _ => rfl
  cases ans with
  | some err => exact absurd hlist (hfailed hget)
  | none =>
    obtain ⟨ans, es, rfl, hpatch⟩ := hget.visible fun _ => rfl
    replace hlist := (List.mem_cons.mp hlist).resolve_left fun heq => by cases heq
    cases ans with
    | some err => exact absurd hlist (hfailed hpatch)
    | none =>
      obtain ⟨ans, es, rfl, hrest⟩ := hpatch.visible fun _ => rfl
      cases ans with
      | error err =>
        replace hlist := (List.mem_cons.mp hlist).resolve_left fun heq => by cases heq
        exact absurd hlist (hfailed hrest)
      | ok pods' =>
        obtain ⟨done, e, rfl, hpre, hend⟩ := shows_evictions hrest
        obtain rfl : pods' = pods := by
          rcases List.mem_cons.mp hlist with heq | hmem
          · cases heq
            rfl
          · exact absurd hmem listPods_not_mem
        exact ⟨done, e, rfl, hpre, hend⟩

end Runs

/-! ## Progress -/

/-- The percentage of a progress report. -/
def progressOf (e : Ev) : Option ℤ :=
  match e.op with
  | .report rep => if rep.status = statusProgress then some rep.progress else none
  | _ => none

/-- The percentages reported, in order. -/
def progressReports (tr : List Ev) : List ℤ := tr.filterMap progressOf

/-- The record of a run has all of its progress reports. -/
lemma progressReports_filter (tr : List Ev) :
    progressReports (tr.filter recorded) = progressReports tr := by
  rw [progressReports, List.filterMap_filter, progressReports]
  refine congrArg (List.filterMap · tr) (funext fun e => ?_)
  obtain ⟨op, ans⟩ := e
  cases op <;> rfl

lemma progressReports_append (tr₁ tr₂ : List Ev) :
    progressReports (tr₁ ++ tr₂) = progressReports tr₁ ++ progressReports tr₂ :=
  List.filterMap_append

lemma progressReports_rejections (p : Pod) (errs : List String) :
    progressReports (rejections p errs) = [] := by
  rw [progressReports, List.filterMap_eq_nil_iff]
  exact forall_mem_rejections (fun _ => rfl) errs

/-- Of `total` pods the eviction number `evicted + i + 1` is reported with the percentage `(evicted
+ i + 1) * 100 / total`. -/
lemma progressReports_evictions (total : ℕ) (done : List Evicted) (evicted : ℕ) :
    progressReports (evictions total evicted done) =
      (List.range done.length).map fun i => (((evicted + i + 1) * 100 / total : ℕ) : ℤ) := by
  induction done generalizing evicted with
  | nil => rfl
  | cons s done ih =>
    have hattempt : ∀ a, progressReports
        [(⟨.evict s.pod.namespace_ s.pod.name, a⟩ : Ev)] = [] := fun _ => rfl
    have hreport : ∀ tr, progressReports
        (⟨.report (evictedReport s.pod (evicted + 1) total), ()⟩ :: tr) =
          (((evicted + 1) * 100 / total : ℕ) : ℤ) :: progressReports tr := fun _ => rfl
    rw [evictions, Evicted.attempts, progressReports_append, progressReports_append,
      progressReports_rejections, hattempt, hreport, ih, List.length_cons, List.range_succ_eq_map,
      List.map_cons, List.map_map]
    refine congrArg (_ :: ·) (List.map_congr_left fun i _ => ?_)
    simp only [Function.comp, Nat.succ_eq_add_one]
    rw [show evicted + 1 + i + 1 = evicted + (i + 1) + 1 by omega]

lemma progressReports_ending (cmd : Command) (evicted total : ℕ) (e : Ending) :
    progressReports (e.events cmd evicted total) = e.progress evicted total := by
  cases e with
  | finished => rfl
  | stalled p errs msg =>
    rw [Ending.events, progressReports_append, progressReports_rejections]
    rfl
  | cancelled p errs msg err =>
    rw [Ending.events, progressReports_append, progressReports_rejections]
    rfl

/-! ## The law -/

/-- What a drain of the listed pods has done: the pods it evicted, and how it ended. -/
structure DrainLaw (x : Executor) (cmd : Command) (pods : List Pod) (tr : List Ev)
    (done : List Evicted) (e : Ending) : Prop where
  /-- The record: the node is cordoned before the pods are listed and is not patched again; each pod
  is tried until it is evicted or not found; and a report follows each. -/
  record : tr.filter recorded = opening cmd pods ++
    evictions (pods.countP (x.evictable cmd.target.name)) 0 done ++
    e.events cmd done.length (pods.countP (x.evictable cmd.target.name))
  /-- Pods are tried in the order of the list. -/
  order : done.map Evicted.pod ++ e.pod?.toList <+: pods.filter (x.evictable cmd.target.name)
  /-- Only pods of the node are tried that are neither mirror pods nor owned by a daemon set nor in
  a protected namespace. -/
  spares : ∀ ev ∈ tr, ∀ ns name, ev.op = .evict ns name → ∃ p ∈ pods, p.namespace_ = ns ∧
    p.name = name ∧ p.nodeName = cmd.target.name ∧ isMirrorPod p = false ∧
      isDaemonSetPod p = false ∧ x.cfg.protectedNamespace p.namespace_ = false
  /-- The percentages are those of the pods evicted so far. -/
  progress : progressReports tr =
    ((List.range done.length).map fun i =>
      (((i + 1) * 100 / pods.countP (x.evictable cmd.target.name) : ℕ) : ℤ)) ++
      e.progress done.length (pods.countP (x.evictable cmd.target.name))
  /-- The numbers reported do not decrease. -/
  monotone : (progressReports tr).Pairwise (· ≤ ·)
  /-- The numbers reported are percentages. -/
  bounded : ∀ q ∈ progressReports tr, 0 ≤ q ∧ q ≤ 100
  /-- The drain has come to its end exactly when all pods were evicted. -/
  finished : e.pod? = none ↔ done.length = pods.countP (x.evictable cmd.target.name)
  /-- Success is reported exactly when all pods were evicted. -/
  succeeded : (∃ ev ∈ tr, isSuccess ev.op = true) ↔
    done.length = pods.countP (x.evictable cmd.target.name)
  /-- The last percentage of a drain that succeeds is 100, if there was a pod to evict. -/
  last : done.length = pods.countP (x.evictable cmd.target.name) → done ≠ [] →
    (progressReports tr).getLast? = some 100
  /-- A drain that stops before reports no 100. -/
  below : done.length ≠ pods.countP (x.evictable cmd.target.name) →
    ∀ q ∈ progressReports tr, q < 100

lemma evictable_iff {x : Executor} {node : String} {p : Pod} :
    x.evictable node p = true ↔ p.nodeName = node ∧ isMirrorPod p = false ∧
      isDaemonSetPod p = false ∧ x.cfg.protectedNamespace p.namespace_ = false := by
  simp [evictable, and_assoc]

/-- The percentages of the pods evicted so far do not decrease. -/
lemma pairwise_progress (total n : ℕ) (e : Ending) :
    (((List.range n).map fun i => (((i + 1) * 100 / total : ℕ) : ℤ)) ++
      e.progress n total).Pairwise (· ≤ ·) := by
  have hmono : ∀ {i j : ℕ}, i ≤ j → ((i * 100 / total : ℕ) : ℤ) ≤ ((j * 100 / total : ℕ) : ℤ) :=
    fun hij => Int.ofNat_le.mpr (Nat.div_le_div_right (Nat.mul_le_mul_right 100 hij))
  rw [List.pairwise_append]
  refine ⟨?_, ?_, fun a ha b hb => ?_⟩
  · rw [List.pairwise_map]
    exact List.pairwise_lt_range.imp fun hij => hmono (Nat.succ_le_succ hij.le)
  · cases e <;> simp [Ending.progress]
  · obtain ⟨i, hi, rfl⟩ := List.mem_map.mp ha
    cases e with
    | stalled p errs msg =>
      rw [List.mem_singleton.mp hb]
      exact hmono (List.mem_range.mp hi)
    | finished => cases hb
    | cancelled p errs msg err => cases hb

/-- Every percentage is that of a number of pods evicted so far. -/
lemma exists_of_mem_progress {total n : ℕ} {e : Ending} {q : ℤ}
    (hq : q ∈ ((List.range n).map fun i => (((i + 1) * 100 / total : ℕ) : ℤ)) ++
      e.progress n total) : ∃ i ≤ n, q = ((i * 100 / total : ℕ) : ℤ) := by
  rcases List.mem_append.mp hq with hq | hq
  · obtain ⟨i, hi, rfl⟩ := List.mem_map.mp hq
    exact ⟨i + 1, List.mem_range.mp hi, rfl⟩
  · cases e with
    | stalled p errs msg => exact ⟨n, le_rfl, List.mem_singleton.mp hq⟩
    | finished => cases hq
    | cancelled p errs msg err => cases hq

/-- A drain that did not stop at a pod reports no further percentage. -/
lemma progress_of_finished {e : Ending} (h : e.pod? = none) (evicted total : ℕ) :
    e.progress evicted total = [] := by
  cases e with
  | finished => rfl
  | stalled p errs msg => cases h
  | cancelled p errs msg err => cases h

/-- The last percentage is that of all pods. -/
lemma getLast?_progress {total : ℕ} (h : total ≠ 0) :
    ((List.range total).map fun i => (((i + 1) * 100 / total : ℕ) : ℤ)).getLast? = some 100 := by
  obtain ⟨n, rfl⟩ := Nat.exists_eq_succ_of_ne_zero h
  rw [List.range_succ, List.map_append, List.map_singleton, List.getLast?_append]
  simp [Nat.mul_div_cancel_left 100 (Nat.succ_pos n)]

section Record

variable {x : Executor} {cmd : Command} {pods : List Pod} {tr : List Ev} {done : List Evicted}
  {e : Ending} {total : ℕ}

/-- **What holds of the record**, piece by piece. -/
theorem forall_recorded {P : Ev → Prop}
    (hrecord : tr.filter recorded =
      opening cmd pods ++ evictions total 0 done ++ e.events cmd done.length total)
    (hopening : ∀ ev ∈ opening cmd pods, P ev)
    (hevict : ∀ p ∈ done.map Evicted.pod ++ e.pod?.toList, ∀ a, P ⟨.evict p.namespace_ p.name, a⟩)
    (hreport : ∀ rep, (isSuccess (.report rep) = true → e.pod? = none) → P ⟨.report rep, ()⟩)
    {ev : Ev} (hev : ev ∈ tr) (hrec : recorded ev = true) : P ev := by
  have hmem := List.mem_filter.mpr ⟨hev, hrec⟩
  rw [hrecord] at hmem
  rcases List.mem_append.mp hmem with hmem | hmem
  · rcases List.mem_append.mp hmem with hmem | hmem
    · exact hopening ev hmem
    · refine forall_mem_evictions (fun s hs => ?_) (fun s _ i => ?_) 0 ev hmem
      · exact hevict s.pod (List.mem_append_left _ (List.mem_map_of_mem hs))
      · exact hreport _ fun hs => by cases hs
  · refine forall_mem_ending e (fun p hp => ?_) hreport ev hmem
    exact hevict p (List.mem_append_right _ (by rw [hp]; exact List.mem_singleton_self p))

/-- An eviction is of one of these pods. -/
def Tries (pods : List Pod) (ev : Ev) : Prop :=
  ∀ ns name, ev.op = .evict ns name → ∃ p ∈ pods, p.namespace_ = ns ∧ p.name = name

/-- The pods that were tried are those evicted and the one at which the drain stopped. -/
lemma tries_of_record (hrecord : tr.filter recorded =
      opening cmd pods ++ evictions total 0 done ++ e.events cmd done.length total) {ev : Ev}
    (hev : ev ∈ tr) : Tries (done.map Evicted.pod ++ e.pod?.toList) ev := by
  intro ns name hop
  have hrec : recorded ev = true := by
    rw [recorded, hop]
    rfl
  refine forall_recorded (P := Tries _) hrecord (fun ev' hmem => ?_)
    (fun p hp a ns' name' hop' => ?_) (fun rep _ ns' name' hop' => ?_) hev hrec ns name hop
  · simp only [opening, List.mem_cons, List.not_mem_nil, or_false] at hmem
    rcases hmem with rfl | rfl | rfl <;> exact fun _ _ hop' => by cases hop'
  · cases hop'
    exact ⟨p, hp, rfl, rfl⟩
  · cases hop'

/-- Success is reported by a drain that did not stop at a pod. -/
lemma exists_success_iff (hrecord : tr.filter recorded =
      opening cmd pods ++ evictions total 0 done ++ e.events cmd done.length total) :
    (∃ ev ∈ tr, isSuccess ev.op = true) ↔ e.pod? = none := by
  constructor
  · rintro ⟨ev, hev, hs⟩
    have hrec : recorded ev = true := by
      obtain ⟨op, ans⟩ := ev
      cases op <;> first | rfl | cases hs
    refine forall_recorded (P := fun ev => isSuccess ev.op = true → e.pod? = none) hrecord
      (fun ev' hmem => ?_) (fun _ _ _ h => by cases h) (fun _ h => h) hev hrec hs
    simp only [opening, List.mem_cons, List.not_mem_nil, or_false] at hmem
    rcases hmem with rfl | rfl | rfl <;> exact fun h => by cases h
  · intro hpod
    cases e with
    | finished =>
      have hsub : ∀ ev ∈ Ending.finished.events cmd done.length total, ev ∈ tr := by
        intro ev hev
        have hmem : ev ∈ tr.filter recorded := by
          rw [hrecord]
          exact List.mem_append_right _ hev
        exact (List.mem_filter.mp hmem).1
      exact ⟨_, hsub _ (List.mem_singleton_self _), rfl⟩
    | stalled p errs msg => cases hpod
    | cancelled p errs msg err => cases hpod

/-- A run with this record reports the percentages `(i + 1) * 100 / total` of its evictions, and
then that of its ending. -/
lemma progressReports_of_record (hrecord : tr.filter recorded =
      opening cmd pods ++ evictions total 0 done ++ e.events cmd done.length total) :
    progressReports tr =
      ((List.range done.length).map fun i => (((i + 1) * 100 / total : ℕ) : ℤ)) ++
        e.progress done.length total := by
  rw [← progressReports_filter, hrecord, progressReports_append, progressReports_append,
    progressReports_evictions, progressReports_ending]
  simp only [Nat.zero_add]
  rfl

/-- **The law of a drain, from its record**: the pods tried are a prefix of those that may be
evicted, and a drain that did not stop at a pod has evicted them all. -/
theorem drainLaw_of_record
    (hrecord : tr.filter recorded =
      opening cmd pods ++ evictions (pods.countP (x.evictable cmd.target.name)) 0 done ++
        e.events cmd done.length (pods.countP (x.evictable cmd.target.name)))
    (hpre : done.map Evicted.pod ++ e.pod?.toList <+: pods.filter (x.evictable cmd.target.name))
    (hend : e.pod? = none → done.length = pods.countP (x.evictable cmd.target.name)) :
    DrainLaw x cmd pods tr done e := by
  -- At most all pods were evicted, and fewer if the drain stopped at one.
  have hlen : done.length + e.pod?.toList.length ≤
      pods.countP (x.evictable cmd.target.name) := by
    have hle := hpre.length_le
    rwa [List.length_append, List.length_map, ← List.countP_eq_length_filter] at hle
  have hfinished : e.pod? = none ↔
      done.length = pods.countP (x.evictable cmd.target.name) := by
    refine ⟨hend, fun hall => ?_⟩
    cases hpod : e.pod? with
    | none => rfl
    | some p =>
      rw [hpod, Option.toList_some, List.length_singleton] at hlen
      omega
  have hprogress := progressReports_of_record hrecord
  have hbound : ∀ q ∈ progressReports tr,
      ∃ i ≤ done.length, q = ((i * 100 / pods.countP (x.evictable cmd.target.name) : ℕ) : ℤ) := by
    intro q hq
    rw [hprogress] at hq
    exact exists_of_mem_progress hq
  refine ⟨hrecord, hpre, ?_, hprogress, ?_, ?_, hfinished, ?_, ?_, ?_⟩
  · intro ev hev ns name hop
    obtain ⟨p, hp, hns, hname⟩ := tries_of_record hrecord hev ns name hop
    obtain ⟨hpods, hevict⟩ := List.mem_filter.mp (hpre.subset hp)
    exact ⟨p, hpods, hns, hname, evictable_iff.mp hevict⟩
  · rw [hprogress]
    exact pairwise_progress _ _ _
  · intro q hq
    obtain ⟨i, hi, rfl⟩ := hbound q hq
    refine ⟨Int.natCast_nonneg _, Int.ofNat_le.mpr (Nat.div_le_of_le_mul ?_)⟩
    exact Nat.mul_le_mul_right 100 (by omega)
  · rw [← hfinished, exists_success_iff hrecord]
  · intro hall hne
    rw [hprogress, ← hall, progress_of_finished (hfinished.mpr hall), List.append_nil]
    exact getLast?_progress (List.length_pos_iff.mpr hne).ne'
  · intro hne q hq
    obtain ⟨i, hi, rfl⟩ := hbound q hq
    refine Int.ofNat_lt.mpr (Nat.div_lt_of_lt_mul ?_)
    exact Nat.mul_lt_mul_of_pos_right (by omega) (by decide)

end Record

/-- **A drain is complete and exact**, in every run that returns after the pods were listed.

**Proof sketch.** The record of the run is that of `shows_drainNode`. Everything else is read off
it: the pods tried are a prefix of those that may be evicted, success is reported only at the end
of a drain that did not stop at a pod, and the percentages are `i * 100 / total` for numbers `i` of
pods evicted, which is at most 100, and less if a pod is left. -/
theorem drain_exact (x : Executor) (fuel : ℕ) (cmd : Command) (tr : List Ev) (sel : String)
    (pods : List Pod) (hverb : cmd.verb = verbDrainNode)
    (hrun : Runs (x.handleCommand fuel cmd) tr .returned)
    (hlist : (⟨.listPods sel, .ok pods⟩ : Ev) ∈ tr) :
    ∃ done e, DrainLaw x cmd pods tr done e := by
  unfold handleCommand at hrun
  obtain ⟨_, es, hes, hshows⟩ := (hrun.shows recorded).visible fun _ => rfl
  rw [handler_drainNode hverb] at hshows
  have hmem : (⟨.listPods sel, .ok pods⟩ : Ev) ∈ es := by
    have hrec : (⟨.listPods sel, .ok pods⟩ : Ev) ∈ tr.filter recorded :=
      List.mem_filter.mpr ⟨hlist, rfl⟩
    rw [hes] at hrec
    exact (List.mem_cons.mp hrec).resolve_left fun heq => by cases heq
  obtain ⟨done, e, rfl, hpre, hend⟩ := shows_drainNode hshows hmem
  refine ⟨done, e, drainLaw_of_record ?_ hpre hend⟩
  rw [hes, List.append_assoc]
  rfl

/-! ## A node with five pods -/

/-- Two pods that may be evicted, and one of each kind that may not. -/
def workerPods : List Pod :=
  [{ namespace_ := "apps", name := "web", nodeName := "worker" },
    { namespace_ := "apps", name := "static", nodeName := "worker",
      annotations := [("kubernetes.io/config.mirror", "1")] },
    { namespace_ := "apps", name := "logs", nodeName := "worker",
      ownerReferences := [⟨"DaemonSet", "apps/v1"⟩] },
    { namespace_ := "kube-system", name := "dns", nodeName := "worker" },
    { namespace_ := "apps", name := "db", nodeName := "worker" }]

/-- A cluster that lists these pods and accepts everything. -/
def workerAnswers : ∀ op, Ans op
  | .listPods _ => .ok workerPods
  | op => acceptAll (fun _ => none) op

/-- A command to drain the node. -/
def drainWorker : Command where
  verb := verbDrainNode
  target := { name := "worker" }

/-- The run of the command. -/
def drainWorkerRun : List Ev :=
  play workerAnswers (handleCommand ⟨{}, .ofTables {}, true⟩ 1 drainWorker)

/-- Two of the pods are evicted, and the drain reports 50 and then 100 per cent. -/
theorem drain_exact_of_worker :
    progressReports drainWorkerRun = [50, 100] ∧
      ∃ done e, DrainLaw ⟨{}, .ofTables {}, true⟩ drainWorker workerPods drainWorkerRun done e := by
  refine ⟨by decide +kernel, ?_⟩
  have hexit : result workerAnswers (handleCommand ⟨{}, .ofTables {}, true⟩ 1 drainWorker) =
      .returned := by decide +kernel
  have hrun := runs_play workerAnswers (handleCommand ⟨{}, .ofTables {}, true⟩ 1 drainWorker)
  rw [hexit] at hrun
  have hmem : (⟨.listPods "spec.nodeName=worker", .ok workerPods⟩ : Ev) ∈ drainWorkerRun := by
    exact .tail _ (.tail _ (.tail _ (.head _)))
  exact drain_exact ⟨{}, .ofTables {}, true⟩ 1 drainWorker drainWorkerRun "spec.nodeName=worker"
    workerPods (by decide) hrun hmem

end K8sAgent.Executor
