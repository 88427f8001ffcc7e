import K8sAgent.Agent.Policy

set_option relaxedAutoImplicit false
set_option autoImplicit false

/-!
# The report protocol

What the control plane learns of one command, from the receiver and from the executor it starts:
the reports in the order they are handed to delivery, and the counts of ends. The receiver's
callback adds cluster, command and time to the executor's reports; status and progress, which the
protocol is about, stay as they are.

## Main definitions

* `K8sAgent.Agent.Handled` — the requests the executor makes for a delivery that it handles to its
  return.
* `K8sAgent.Agent.reports`, `K8sAgent.Agent.counts` — the reports on a delivery and the counts of
  its end.
* `K8sAgent.ReportProtocol` — the protocol.

## Main results

* `K8sAgent.Agent.report_protocol` — every command delivered for the first time is reported on
  according to the protocol.
-/

namespace K8sAgent

open Interaction Executor

/-! ## The protocol -/

/-- The report an effect of the receiver hands to delivery. -/
def Effect.report? : Effect → Option Report
  | .deliverReport rep => some rep
  | _ => none

/-- The count an effect of the receiver makes: verb and result. -/
def Effect.count? : Effect → Option (String × String)
  | .incCommand verb result => some (verb, result)
  | _ => none

/-- The count a request of the executor makes: verb and result. -/
def Op.count? : Op → Option (String × String)
  | .incCommand verb result => some (verb, result)
  | _ => none

/-- One terminal report, at the end. -/
def EndsOnce (reps : List Report) : Prop :=
  ∃ mid last, reps = mid ++ [last] ∧ (∀ rep ∈ mid, isTerminal rep.status = false) ∧
    isTerminal last.status = true

/-- No terminal report, and progress below 100 per cent at the end. -/
def Stalls (reps : List Report) : Prop :=
  ∃ mid last, reps = mid ++ [last] ∧ (∀ rep ∈ reps, isTerminal rep.status = false) ∧
    last.status = statusProgress ∧ last.progress < 100

/-- **The protocol**: a command is refused at once, or it is received and validated and then ends
once, unless it is a drain that stalls; and the terminal reports are counted, each with its own
status. -/
structure ReportProtocol (cmd : Command) (reps : List Report) (counts : List (String × String)) :
    Prop where
  /-- The reports. -/
  shape : (∃ rep, reps = [rep] ∧ rep.status = statusRefused) ∨
    ∃ r v rest, reps = r :: v :: rest ∧ r.status = statusReceived ∧ v.status = statusValidating ∧
      (EndsOnce rest ∨ (cmd.verb = verbDrainNode ∧ Stalls rest))
  /-- The counts. -/
  counted : counts = (reps.filter (isTerminal ·.status)).map fun rep => (cmd.verb, rep.status)

/-! ## The agent -/

namespace Agent

/-- The requests `tr` are those the executor makes for the delivery: it is started and returns, or
it is not started. -/
def Handled (a : Agent) (s : Caches) (d : Delivery) (tr : List Ev) : Prop :=
  if .handleCommand d.cmd ∈ (a.receiver.process s d).2 then
    ∃ fuel, Runs (a.executor.handleCommand fuel d.cmd) tr .returned
  else tr = []

/-- The reports on a delivery, those of the receiver first. -/
def reports (a : Agent) (s : Caches) (d : Delivery) (tr : List Ev) : List Report :=
  (a.receiver.process s d).2.filterMap Effect.report? ++ tr.filterMap (·.op.report?)

/-- The counts for a delivery. -/
def counts (a : Agent) (s : Caches) (d : Delivery) (tr : List Ev) : List (String × String) :=
  (a.receiver.process s d).2.filterMap Effect.count? ++ tr.filterMap (·.op.count?)

/-! ### The executor's part -/

/-- While the end is pending, reports are not terminal. -/
lemma not_isTerminal_of_pending {h : List Ev} (hp : Pending h) {rep : Report}
    (hrep : rep ∈ h.filterMap (·.op.report?)) : isTerminal rep.status = false := by
  obtain ⟨e, he, hop⟩ := List.mem_filterMap.mp hrep
  have hend := hp.isOpen e he
  cases hcase : e.op with
  | report rep' =>
    rw [hcase] at hop hend
    cases hop
    exact hend
  | _ =>
    rw [hcase] at hop
    cases hop

/-- While the end is pending, nothing has been counted. -/
lemma counts_of_pending {h : List Ev} (hp : Pending h) : h.filterMap (·.op.count?) = [] := by
  rw [List.filterMap_eq_nil_iff]
  intro e he
  have hcount := hp.uncounted e he
  cases hcase : e.op with
  | incCommand verb result =>
    rw [hcase] at hcount
    cases hcount
  | _ => rfl

/-- The reports of an end that is counted and reported. -/
lemma endsOnce_of_pending {h : List Ev} (hp : Pending h) (verb : String) {rep : Report}
    (hterm : isTerminal rep.status = true) :
    let tr : List Ev := h ++ [⟨.incCommand verb rep.status, ()⟩, ⟨.report rep, ()⟩]
    EndsOnce (tr.filterMap (·.op.report?)) ∧ tr.filterMap (·.op.count?) =
      ((tr.filterMap (·.op.report?)).filter (isTerminal ·.status)).map
        fun rep => (verb, rep.status) := by
  intro tr
  have hreps : tr.filterMap (·.op.report?) = h.filterMap (·.op.report?) ++ [rep] := by
    simp [tr, Op.report?]
  have hcounts : tr.filterMap (·.op.count?) = [(verb, rep.status)] := by
    rw [List.filterMap_append, counts_of_pending hp]
    rfl
  have hmid : ∀ rep' ∈ h.filterMap (·.op.report?), isTerminal rep'.status = false :=
    fun rep' hrep' => not_isTerminal_of_pending hp hrep'
  refine ⟨⟨_, rep, hreps, hmid, hterm⟩, ?_⟩
  have hnone : (h.filterMap (·.op.report?)).filter (isTerminal ·.status) = [] :=
    List.filter_eq_nil_iff.mpr fun rep' hrep' => by simp [hmid rep' hrep']
  rw [hcounts, hreps, List.filter_append, hnone]
  simp [hterm]

/-- A history `h` without terminal report, and after it a report `rep` of progress below 100 per
cent, stalls; nothing is counted. -/
lemma stalls_of_pending {h : List Ev} (hp : Pending h) (verb : String) {rep : Report}
    (hs : rep.status = statusProgress) (hprog : rep.progress < 100) :
    let tr : List Ev := h ++ [⟨.report rep, ()⟩]
    Stalls (tr.filterMap (·.op.report?)) ∧ tr.filterMap (·.op.count?) =
      ((tr.filterMap (·.op.report?)).filter (isTerminal ·.status)).map
        fun rep => (verb, rep.status) := by
  intro tr
  have hreps : tr.filterMap (·.op.report?) = h.filterMap (·.op.report?) ++ [rep] := by
    simp [tr, Op.report?]
  have hcounts : tr.filterMap (·.op.count?) = [] := by
    rw [List.filterMap_append, counts_of_pending hp]
    rfl
  have hall : ∀ rep' ∈ tr.filterMap (·.op.report?), isTerminal rep'.status = false := by
    intro rep' hrep'
    rw [hreps] at hrep'
    rcases List.mem_append.mp hrep' with hrep' | hrep'
    · exact not_isTerminal_of_pending hp hrep'
    · rw [List.mem_singleton.mp hrep', hs]
      decide
  refine ⟨⟨_, rep, hreps, hall, hs, hprog⟩, ?_⟩
  rw [hcounts, List.filter_eq_nil_iff.mpr fun rep' hrep' => by simp [hall rep' hrep']]
  rfl

/-- **The reports of the executor**, if it returns: it starts with validating and ends once or is a
drain that stalls, and counts the terminal reports. -/
theorem exists_reports_of_runs {x : Executor} {fuel : ℕ} {cmd : Command} {tr : List Ev}
    (hrun : Runs (x.handleCommand fuel cmd) tr .returned) :
    ∃ v rest, tr.filterMap (·.op.report?) = v :: rest ∧ v.status = statusValidating ∧
      (EndsOnce rest ∨ (cmd.verb = verbDrainNode ∧ Stalls rest)) ∧
      tr.filterMap (·.op.count?) =
        (rest.filter (isTerminal ·.status)).map fun rep => (cmd.verb, rep.status) := by
  obtain ⟨-, hended⟩ := conduct_of_runs hrun
  obtain ⟨u, tr', rfl, -⟩ := hrun
  refine ⟨{ status := statusValidating }, tr'.filterMap (·.op.report?), rfl, rfl, ?_⟩
  -- the first request is not the end, so the others end as all do
  rcases hended with ⟨h₁, rep, hterm, hp, heq⟩ | ⟨hverb, h₁, rep, hs, hprog, hp, heq⟩
  · cases h₁ with
    | nil => cases heq
    | cons e h₂ =>
      obtain ⟨rfl, rfl⟩ := List.cons.inj heq
      have hends := endsOnce_of_pending hp.tail cmd.verb hterm
      exact ⟨.inl hends.1, hends.2⟩
  · cases h₁ with
    | nil =>
      cases heq
      exact absurd hs (by decide)
    | cons e h₂ =>
      obtain ⟨rfl, rfl⟩ := List.cons.inj heq
      have hstalls := stalls_of_pending hp.tail cmd.verb hs hprog
      exact ⟨.inr ⟨hverb, hstalls.1⟩, hstalls.2⟩

/-! ### The whole -/

/-- The reports `received` and `validating` are not terminal, and do not count among those that are.
-/
lemma filter_isTerminal_cons {r v : Report} {rest : List Report}
    (hr : r.status = statusReceived) (hv : v.status = statusValidating) :
    (r :: v :: rest).filter (isTerminal ·.status) = rest.filter (isTerminal ·.status) := by
  have hr' : isTerminal statusReceived = false := by decide
  have hv' : isTerminal statusValidating = false := by decide
  simp [hr, hv, hr', hv']

/-- A refusal of the receiver is the whole of what is reported. -/
lemma reportProtocol_refusal {r : Receiver} {d : Delivery} {reason : String} :
    ReportProtocol d.cmd ((r.refusal d reason).filterMap Effect.report?)
      ((r.refusal d reason).filterMap Effect.count?) where
  shape := .inl ⟨r.newReport d.cmd statusRefused reason d.reportedAt, rfl, rfl⟩
  counted := rfl

/-- **The report protocol.** A command that is delivered for the first time is reported on according
to the protocol, whatever was delivered before it and whatever the surroundings answer, wherever
its execution returns.

**Proof sketch.** The ID of the command is new, so the receiver refuses it or starts the executor
after reporting it as received. The executor counts and reports the end of a command last, and
before that tells no end; only a drain can return without. -/
theorem report_protocol (a : Agent) (ds : List Delivery) (d : Delivery) (tr : List Ev)
    (hfirst : ∀ d' ∈ ds, d'.cmd.id ≠ d.cmd.id)
    (hhandled : a.Handled (a.receiver.after .init ds) d tr) :
    ReportProtocol d.cmd (a.reports (a.receiver.after .init ds) d tr)
      (a.counts (a.receiver.after .init ds) d tr) := by
  have hid := Receiver.lookup_after_of_new (r := a.receiver) hfirst
  unfold Handled at hhandled
  unfold reports counts
  cases hc : a.receiver.checks d.cmd d.checkedAt with
  | some reason =>
    rw [Receiver.process_of_checks hid hc] at hhandled ⊢
    have htr : tr = [] := by simpa [Receiver.refusal] using hhandled
    simpa [htr] using reportProtocol_refusal
  | none =>
    cases hn : (a.receiver.after .init ds).nonces.lookup d.cmd.nonce with
    | true =>
      rw [Receiver.process_of_nonce hid hc hn] at hhandled ⊢
      have htr : tr = [] := by simpa [Receiver.refusal] using hhandled
      simpa [htr] using reportProtocol_refusal
    | false =>
      rw [Receiver.process_of_fresh hid hc hn] at hhandled ⊢
      obtain ⟨fuel, hrun⟩ : ∃ fuel, Runs (a.executor.handleCommand fuel d.cmd) tr .returned := by
        simpa [Receiver.acceptance] using hhandled
      obtain ⟨v, rest, hreps, hv, hrest, hcounts⟩ := exists_reports_of_runs hrun
      rw [hreps, hcounts]
      refine ⟨.inr ⟨a.receiver.newReport d.cmd statusReceived "" d.reportedAt, v, rest, rfl, rfl,
        hv, hrest⟩, ?_⟩
      change _ = ((a.receiver.newReport d.cmd statusReceived "" d.reportedAt :: v :: rest).filter
        (isTerminal ·.status)).map _
      rw [filter_isTerminal_cons rfl hv]
      rfl

/-- An agent that trusts the sample key. -/
def sampleAgent : Agent := ⟨{ serverPublicKey := samplePublicKey }, sampleEnv, true⟩

/-- A command with another ID has been delivered to it. -/
def sampleCaches : Caches :=
  sampleAgent.receiver.after .init [⟨.push, { id := "cmd-0" }, 0, 0⟩]

/-- The requests of the executor for the sample command, where every write is accepted. -/
def sampleRun : List Ev :=
  play (acceptAll fun _ => some .empty) (sampleAgent.executor.handleCommand 0 sampleCommand)

/-- The sample command is received, validated, tried, carried out and reported as succeeded. -/
theorem report_protocol_sample :
    (sampleAgent.reports sampleCaches Receiver.sampleDelivery sampleRun).map (·.status) =
      [statusReceived, statusValidating, statusDryRun, statusApplying, statusSucceeded] ∧
    ReportProtocol sampleCommand
      (sampleAgent.reports sampleCaches Receiver.sampleDelivery sampleRun)
      (sampleAgent.counts sampleCaches Receiver.sampleDelivery sampleRun) := by
  refine ⟨by decide +kernel, report_protocol sampleAgent [⟨.push, { id := "cmd-0" }, 0, 0⟩]
    Receiver.sampleDelivery sampleRun (by decide) ?_⟩
  have hdispatched : Effect.handleCommand Receiver.sampleDelivery.cmd ∈
      (sampleAgent.receiver.process sampleCaches Receiver.sampleDelivery).2 := by
    decide +kernel
  unfold Handled
  rw [← sampleCaches, if_pos hdispatched]
  have hresult : result (acceptAll fun _ => some .empty)
      (sampleAgent.executor.handleCommand 0 sampleCommand) = .returned := by decide +kernel
  exact ⟨0, hresult ▸ runs_play _ _⟩

end Agent

end K8sAgent
