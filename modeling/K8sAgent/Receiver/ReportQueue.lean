import K8sAgent.Lib.Outbox
import K8sAgent.Lib.Transition
import K8sAgent.Protocol.Types

set_option relaxedAutoImplicit false
set_option autoImplicit false

/-!
# Delivery of reports

`deliverReport`, `reportQueue` and the poll loop of `internal/receiver/receiver.go`: a report goes
over the WebSocket at once, if that works, and into a bounded queue if it does not, or if the report
ends a command. Each poll carries a copy of the queue; when the server has accepted it, the reports
of that copy are removed from the front of the queue. Reports come at any time from the goroutines
that execute commands, so that the queue can change while a poll is under way.

The queue is an outbox in the sense of `Outbox`: its contents are the end of the history of all
reports ever queued. That is what makes removal from the front right.

## Main definitions

* `K8sAgent.ReportQueue` — the queue and its three operations.
* `K8sAgent.Reporting.State`, `K8sAgent.Reporting.Label`, `K8sAgent.Reporting.step` — goroutines
  that deliver reports, and the poll loop.
* `K8sAgent.Reporting.State.Delivered` — what becomes of reports.

## Main results

* `K8sAgent.Reporting.Kept.step` — every step keeps the queue an outbox of the reports queued.
* `K8sAgent.Reporting.reports_delivered` — reports are delivered in every run.
-/

namespace K8sAgent

open Transition

/-! ## The queue -/

/-- Capacity of the report queue. -/
def maxQueuedReports : ℕ := 1000

/-- A report in memory: two reports with the same contents are told apart by their addresses. -/
structure ReportRef where
  /-- The address. -/
  addr : ℕ
  /-- The report. -/
  rep : Report
  deriving DecidableEq

/-- A bounded queue of reports, oldest first. -/
structure ReportQueue where
  /-- Capacity. -/
  cap : ℕ
  /-- The reports. -/
  ll : List ReportRef

namespace ReportQueue

/-- The empty queue. -/
def new (cap : ℕ) : ReportQueue := ⟨cap, []⟩

/-- Append a report; the oldest one is dropped when the queue is full. -/
def enqueue (q : ReportQueue) (r : ReportRef) : ReportQueue :=
  { q with ll := (if q.cap ≤ q.ll.length then q.ll.tail else q.ll) ++ [r] }

/-- The queued reports. -/
def snapshot (q : ReportQueue) : List ReportRef := q.ll

/-- Remove sent reports from the front, up to the first that was not sent. -/
def clearSent (q : ReportQueue) (sent : List ReportRef) : ReportQueue :=
  { q with ll := q.ll.dropWhile fun r => decide (r ∈ sent) }

end ReportQueue

namespace Reporting

/-! ## Goroutines and the poll loop -/

/-- How the attempt to send a report over the WebSocket ends. -/
inductive FastPath : Type where
  /-- There is no such path, or it is not connected. -/
  | down
  /-- Sending fails. -/
  | failed
  /-- The report is sent. -/
  | sent
  deriving DecidableEq

/-- Whether a report goes into the queue. -/
def queued (r : ReportRef) (fast : FastPath) : Bool := fast ≠ .sent || isTerminal r.rep.status

/-- Where the poll loop is. -/
inductive Pc : Type where
  /-- About to copy the queue. -/
  | ready
  /-- Waiting for the answer to a poll with these reports. -/
  | polling (sent : List ReportRef)
  /-- The server has accepted the poll. -/
  | accepted (sent : List ReportRef)
  /-- Returned. -/
  | stopped
  deriving DecidableEq

/-- The reports that are about to be removed. -/
def Pc.clearing : Pc → List ReportRef
  | .accepted sent => sent
  | _ => []

/-- What the server sees of polls. -/
inductive Note : Type where
  /-- A poll with these reports. -/
  | request (reports : List ReportRef)
  /-- The poll with these reports is accepted. -/
  | accepted (reports : List ReportRef)
  deriving DecidableEq

/-- The state, with the record of the run. -/
structure State where
  /-- The queue. -/
  queue : ReportQueue := .new maxQueuedReports
  /-- The calls of `deliverReport` that are about to queue their report. -/
  pending : List ReportRef := []
  /-- Where the poll loop is. -/
  pc : Pc := .ready
  /-- Record: the calls of `deliverReport`. -/
  delivered : List (ReportRef × FastPath) := []
  /-- Record: the reports queued. -/
  enqueued : List ReportRef := []
  /-- Record: the reports dropped, each with the number of reports queued after it. -/
  evicted : List (ReportRef × ℕ) := []
  /-- Record: the polls. -/
  log : List Note := []

/-- What can happen next. -/
inductive Label : Type where
  /-- `deliverReport` tries the WebSocket. -/
  | deliver (r : ReportRef) (fast : FastPath)
  /-- `deliverReport` queues its report. -/
  | enqueue (r : ReportRef)
  /-- The poll loop copies the queue and polls. -/
  | poll
  /-- The poll fails. -/
  | fail
  /-- The poll is answered, but not accepted. -/
  | notOk
  /-- The poll is accepted. -/
  | ok
  /-- The poll loop removes the accepted reports. -/
  | clear
  /-- The poll loop returns. -/
  | stop

/-- How many reports of a history come after a report. -/
def newer (history : List ReportRef) (r : ReportRef) : ℕ :=
  history.length - (history.idxOf r + 1)

/-- The report that is dropped when another one is queued, for the record. -/
def dropped (s : State) (r : ReportRef) : List (ReportRef × ℕ) :=
  if s.queue.cap ≤ s.queue.ll.length then
    s.queue.ll.head?.toList.map fun front => (front, newer (s.enqueued ++ [r]) front)
  else []

/-- One step; `none` where it is not possible. A report is made for one call of `deliverReport`. -/
def step (s : State) : Label → Option State
  | .deliver r fast =>
    if r ∈ s.delivered.map Prod.fst then none
    else some { s with
      delivered := s.delivered ++ [(r, fast)]
      pending := if queued r fast then s.pending ++ [r] else s.pending }
  | .enqueue r =>
    if r ∈ s.pending then some { s with
      pending := s.pending.erase r
      queue := s.queue.enqueue r
      enqueued := s.enqueued ++ [r]
      evicted := s.evicted ++ dropped s r }
    else none
  | .poll => match s.pc with
    | .ready => some { s with
        pc := .polling s.queue.snapshot
        log := s.log ++ [.request s.queue.snapshot] }
    | _ => none
  | .fail => match s.pc with
    | .polling _ => some { s with pc := .ready }
    | _ => none
  | .notOk => match s.pc with
    | .polling _ => some { s with pc := .ready }
    | _ => none
  | .ok => match s.pc with
    | .polling sent => some { s with pc := .accepted sent, log := s.log ++ [.accepted sent] }
    | _ => none
  | .clear => match s.pc with
    | .accepted sent => some { s with queue := s.queue.clearSent sent, pc := .ready }
    | _ => none
  | .stop => match s.pc with
    | .ready | .polling _ => some { s with pc := .stopped }
    | _ => none

/-- The report was in a poll that was accepted. -/
def State.Accepted (s : State) (r : ReportRef) : Prop :=
  ∃ reports, .accepted reports ∈ s.log ∧ r ∈ reports

/-- The report was dropped, as many newer ones having been queued as fit into the queue. -/
def State.Evicted (s : State) (r : ReportRef) : Prop :=
  ∃ n, maxQueuedReports ≤ n ∧ (r, n) ∈ s.evicted

/-- **What becomes of reports.** -/
structure State.Delivered (s : State) : Prop where
  /-- A report that ends a command, or was not sent over the WebSocket, is still being queued, or is
  in the queue, or was accepted, or had to make room for newer ones. -/
  kept : ∀ r fast, (r, fast) ∈ s.delivered → fast ≠ .sent ∨ isTerminal r.rep.status = true →
    r ∈ s.pending ∨ r ∈ s.queue.ll ∨ s.Accepted r ∨ s.Evicted r
  /-- The queue is bounded. -/
  bounded : s.queue.ll.length ≤ maxQueuedReports
  /-- The queue keeps the order in which reports were queued. -/
  ordered : s.queue.ll <:+ s.enqueued
  /-- No report of an accepted poll is in a later one. -/
  once : s.log.Pairwise fun a b => ∀ reports reports', a = .accepted reports →
    b = .request reports' → reports.Disjoint reports'

/-! ## The invariant -/

/-- The queue is an outbox of the reports queued; those that have left it were accepted or dropped,
and those of a poll under way are a stretch of the history that begins before what is left. -/
structure Kept (s : State) (o : Outbox ReportRef) : Prop where
  /-- The history is that of the queue. -/
  history : o.history = s.enqueued
  /-- The queue holds the contents. -/
  content : s.queue.ll = o.content
  /-- The capacity. -/
  cap : s.queue.cap = maxQueuedReports
  /-- The bound. -/
  bounded : s.queue.ll.length ≤ maxQueuedReports
  /-- No report is there twice. -/
  nodup : (s.enqueued ++ s.pending).Nodup
  /-- Reports come from calls of `deliverReport`. -/
  known : ∀ r ∈ s.enqueued ++ s.pending, r ∈ s.delivered.map Prod.fst
  /-- What is to be queued is queued. -/
  owed : ∀ r fast, (r, fast) ∈ s.delivered → queued r fast = true → r ∈ s.enqueued ++ s.pending
  /-- What has left the queue was accepted or dropped. -/
  left : ∀ r ∈ o.history.take o.gone, s.Accepted r ∨ s.Evicted r
  /-- What was accepted has left the queue, or is about to. -/
  accepted : ∀ r, s.Accepted r → r ∈ o.history.take o.gone ∨ r ∈ s.pc.clearing
  /-- What is about to leave the queue was accepted. -/
  clearing : ∀ r ∈ s.pc.clearing, s.Accepted r
  /-- The reports of a poll are a stretch of the history. -/
  stretch : ∀ sent, s.pc = .polling sent ∨ s.pc = .accepted sent →
    ∃ a b, a ≤ o.gone ∧ b ≤ o.history.length ∧ sent = (o.history.take b).drop a
  /-- No report of an accepted poll is in a later one. -/
  once : s.log.Pairwise fun a b => ∀ reports reports', a = .accepted reports →
    b = .request reports' → reports.Disjoint reports'

section Lemmas

variable {s s' : State} {o : Outbox ReportRef}

lemma Kept.nodup_history (h : Kept s o) : o.history.Nodup := by
  rw [h.history]
  exact (List.nodup_append.mp h.nodup).1

/-- A call of `deliverReport` with the new report `r` begins: the invariant is kept. -/
lemma Kept.deliver (h : Kept s o) {r : ReportRef} (fast : FastPath)
    (hnew : r ∉ s.delivered.map Prod.fst) :
    Kept { s with
      delivered := s.delivered ++ [(r, fast)]
      pending := if queued r fast then s.pending ++ [r] else s.pending } o := by
  have hfresh : r ∉ s.enqueued ++ s.pending := fun hmem => hnew (h.known r hmem)
  refine { h with nodup := ?_, known := ?_, owed := ?_ }
  · dsimp only
    split_ifs
    · rw [← List.append_assoc]
      refine List.nodup_append.mpr ⟨h.nodup, List.nodup_singleton r, ?_⟩
      rintro a ha b hb rfl
      exact hfresh (List.mem_singleton.mp hb ▸ ha)
    · exact h.nodup
  · intro r' hr'
    rw [List.map_append, List.mem_append]
    have hor : r' ∈ s.enqueued ++ s.pending ∨ r' = r := by
      dsimp only at hr'
      split_ifs at hr'
      · rwa [← List.append_assoc, List.mem_append, List.mem_singleton] at hr'
      · exact .inl hr'
    rcases hor with hr' | rfl
    · exact .inl (h.known r' hr')
    · exact .inr (by simp)
  · intro r' fast' hmem hq
    rcases List.mem_append.mp hmem with hmem | hmem
    · have hold := h.owed r' fast' hmem hq
      dsimp only
      split_ifs
      · rw [← List.append_assoc]
        exact List.mem_append_left _ hold
      · exact hold
    · obtain ⟨rfl, rfl⟩ := Prod.mk.inj (List.mem_singleton.mp hmem)
      dsimp only
      rw [if_pos hq]
      simp

/-- The report that is dropped has as many newer ones as fit into the queue. -/
lemma Kept.evicts (h : Kept s o) (hfull : maxQueuedReports ≤ o.content.length) (r : ReportRef)
    (hlt : o.gone < o.history.length) :
    ∃ n, maxQueuedReports ≤ n ∧ (o.history.get ⟨o.gone, hlt⟩, n) ∈ dropped s r := by
  have hfront : s.queue.ll.head? = some (o.history.get ⟨o.gone, hlt⟩) := by
    rw [h.content, Outbox.content, List.head?_drop, List.getElem?_eq_getElem hlt]
    rfl
  have hindex : (s.enqueued ++ [r]).idxOf (o.history.get ⟨o.gone, hlt⟩) = o.gone := by
    rw [← h.history, List.idxOf_append_of_mem (List.get_mem _ _)]
    exact h.nodup_history.idxOf_getElem o.gone hlt
  have hnewer := o.le_newer_of_evicted hfull r
  refine ⟨newer (s.enqueued ++ [r]) (o.history.get ⟨o.gone, hlt⟩), ?_, ?_⟩
  · rw [newer, hindex, ← h.history]
    exact hnewer
  · rw [dropped, if_pos (by rw [h.cap, h.content]; exact hfull), hfront]
    simp

/-- **A report is queued**, and the oldest one makes room for it if need be. -/
theorem Kept.enqueue (h : Kept s o) {r : ReportRef} (hr : r ∈ s.pending) :
    Kept { s with
      pending := s.pending.erase r
      queue := s.queue.enqueue r
      enqueued := s.enqueued ++ [r]
      evicted := s.evicted ++ dropped s r } (o.push maxQueuedReports r) := by
  have hcap : 1 ≤ maxQueuedReports := by decide
  have hcontent : (s.queue.enqueue r).ll = (o.push maxQueuedReports r).content := by
    rw [o.content_push hcap, ReportQueue.enqueue, h.cap, h.content]
  have hperm : (s.enqueued ++ s.pending).Perm ((s.enqueued ++ [r]) ++ s.pending.erase r) := by
    rw [List.append_assoc]
    exact (List.perm_cons_erase hr).append_left _
  refine
    { history := congrArg (fun l => l ++ [r]) h.history
      content := hcontent
      cap := h.cap
      bounded := ?_
      nodup := hperm.nodup_iff.mp h.nodup
      known := fun r' hr' => h.known r' (hperm.mem_iff.mpr hr')
      owed := fun r' fast hmem hq => hperm.mem_iff.mp (h.owed r' fast hmem hq)
      left := ?_
      accepted := ?_
      clearing := h.clearing
      stretch := ?_
      once := h.once }
  · dsimp only
    rw [hcontent]
    exact o.length_content_push_le hcap (by rw [← h.content]; exact h.bounded) r
  · intro r' hr'
    -- it had left before, or it is the one that makes room
    rcases o.mem_take_push hcap hr' with hr' | ⟨hfull, hlt, rfl⟩
    · rcases h.left r' hr' with hacc | ⟨n, hn, hmem⟩
      · exact .inl hacc
      · exact .inr ⟨n, hn, List.mem_append_left _ hmem⟩
    · obtain ⟨n, hn, hmem⟩ := h.evicts hfull r hlt
      exact .inr ⟨n, hn, List.mem_append_right _ hmem⟩
  · intro r' hacc
    exact (h.accepted r' hacc).imp_left fun hmem => o.take_gone_subset_push _ r hmem
  · intro sent hsent
    obtain ⟨a, b, ha, hb, rfl⟩ := h.stretch sent hsent
    refine ⟨a, b, ha.trans (o.gone_le_push _ r), ?_, ?_⟩
    · change b ≤ (o.history ++ [r]).length
      rw [List.length_append]
      omega
    · rw [o.take_push hb]

/-- **The poll loop copies the queue.** Nothing of it was accepted before. -/
theorem Kept.poll (h : Kept s o) (hpc : s.pc = .ready) :
    Kept { s with
      pc := .polling s.queue.snapshot
      log := s.log ++ [.request s.queue.snapshot] } o := by
  have hsame : ∀ r, ({ s with
      pc := .polling s.queue.snapshot
      log := s.log ++ [.request s.queue.snapshot] } : State).Accepted r ↔ s.Accepted r := by
    intro r
    simp [State.Accepted]
  refine { h with left := ?_, accepted := ?_, clearing := ?_, stretch := ?_, once := ?_ }
  · intro r hr
    rw [hsame]
    exact h.left r hr
  · intro r hacc
    rw [hsame] at hacc
    have hleft := h.accepted r hacc
    rw [hpc] at hleft
    exact hleft
  · intro r hr
    exact nomatch hr
  · intro sent hsent
    rcases hsent with hsent | hsent
    · obtain rfl := Pc.polling.inj hsent
      refine ⟨o.gone, o.history.length, Nat.le_refl _, Nat.le_refl _, ?_⟩
      rw [List.take_length]
      exact h.content
    · exact nomatch hsent
  · refine List.pairwise_append.mpr ⟨h.once, List.pairwise_singleton _ _, ?_⟩
    rintro a ha b hb reports reports' rfl rfl
    obtain rfl := Note.request.inj (List.mem_singleton.mp hb)
    intro r hr hr'
    have hleft := h.accepted r ⟨reports, ha, hr⟩
    rw [hpc] at hleft
    have hgone : r ∈ o.history.take o.gone := hleft.resolve_right (List.not_mem_nil)
    have hqueue : r ∈ o.history.drop o.gone := by
      have hll := hr'
      rw [ReportQueue.snapshot, h.content] at hll
      exact hll
    exact List.disjoint_take_drop h.nodup_history (Nat.le_refl _) hgone hqueue

/-- The poll fails, or is not accepted, or the loop returns. -/
lemma Kept.idle (h : Kept s o) {pc : Pc} (hold : s.pc.clearing = []) (hpc : pc.clearing = [])
    (hno : ∀ sent, pc ≠ .polling sent ∧ pc ≠ .accepted sent) : Kept { s with pc := pc } o := by
  refine { h with accepted := ?_, clearing := ?_, stretch := ?_ }
  · intro r hacc
    have hleft := h.accepted r hacc
    rw [hold] at hleft
    exact .inl (hleft.resolve_right List.not_mem_nil)
  · intro r hr
    change r ∈ pc.clearing at hr
    rw [hpc] at hr
    exact absurd hr List.not_mem_nil
  · intro sent hsent
    exact (hsent.elim (hno sent).1 (hno sent).2).elim

/-- **The poll is accepted**: logging it keeps the invariant. -/
theorem Kept.ok (h : Kept s o) {sent : List ReportRef} (hpc : s.pc = .polling sent) :
    Kept { s with pc := .accepted sent, log := s.log ++ [.accepted sent] } o := by
  have hacc : ∀ r, ({ s with pc := .accepted sent, log := s.log ++ [.accepted sent] } :
      State).Accepted r ↔ s.Accepted r ∨ r ∈ sent := by
    intro r
    simp only [State.Accepted, List.mem_append, List.mem_singleton, Note.accepted.injEq]
    constructor
    · rintro ⟨reports, hmem | rfl, hr⟩
      · exact .inl ⟨reports, hmem, hr⟩
      · exact .inr hr
    · rintro (⟨reports, hmem, hr⟩ | hr)
      · exact ⟨reports, .inl hmem, hr⟩
      · exact ⟨sent, .inr rfl, hr⟩
  refine { h with left := ?_, accepted := ?_, clearing := ?_, stretch := ?_, once := ?_ }
  · intro r hr
    rw [hacc]
    exact (h.left r hr).imp_left .inl
  · intro r hr
    rw [hacc] at hr
    rcases hr with hr | hr
    · have hleft := h.accepted r hr
      rw [hpc] at hleft
      exact .inl (hleft.resolve_right List.not_mem_nil)
    · exact .inr hr
  · intro r hr
    rw [hacc]
    exact .inr hr
  · intro sent' hsent'
    rcases hsent' with hsent' | hsent'
    · exact nomatch hsent'
    · obtain rfl := Pc.accepted.inj hsent'
      exact h.stretch sent (.inl hpc)
  · refine List.pairwise_append.mpr ⟨h.once, List.pairwise_singleton _ _, ?_⟩
    rintro a - b hb reports reports' - rfl
    exact nomatch List.mem_singleton.mp hb

/-- **The accepted reports are removed.** What is left came after the copy was made. -/
theorem Kept.clear (h : Kept s o) {sent : List ReportRef} (hpc : s.pc = .accepted sent) :
    ∃ o', Kept { s with queue := s.queue.clearSent sent, pc := .ready } o' := by
  obtain ⟨a, b, ha, hb, rfl⟩ := h.stretch sent (.inr hpc)
  have hcontent :
      (s.queue.clearSent ((o.history.take b).drop a)).ll = (o.release b hb).content := by
    rw [← o.dropWhile_content h.nodup_history ha hb, ReportQueue.clearSent, h.content]
  have hclearing : s.pc.clearing = (o.history.take b).drop a := by rw [hpc]; rfl
  refine ⟨o.release b hb, { h with
    content := hcontent, bounded := ?_, left := ?_, accepted := ?_, clearing := ?_, stretch := ?_ }⟩
  · refine Nat.le_trans ?_ h.bounded
    exact (List.dropWhile_suffix _).length_le
  · intro r hr
    -- it had left the queue before, or has gone with the batch
    rcases o.mem_take_release ha hr with hr | hr
    · exact h.left r hr
    · exact .inl (h.clearing r (hclearing ▸ hr))
  · intro r hr
    refine .inl ?_
    change r ∈ o.history.take (max o.gone b)
    rcases h.accepted r hr with hr | hr
    · exact List.take_subset_take_left _ (Nat.le_max_left _ _) hr
    · rw [hclearing] at hr
      exact List.take_subset_take_left _ (Nat.le_max_right _ _) (List.mem_of_mem_drop hr)
  · intro r hr
    exact nomatch hr
  · intro sent hsent
    rcases hsent with hsent | hsent <;> exact nomatch hsent

/-- **Every step keeps the queue an outbox of the reports queued.** -/
theorem Kept.step (h : Kept s o) {l : Label} (hstep : step s l = some s') :
    ∃ o', Kept s' o' := by
  cases l with
  | deliver r fast =>
    by_cases hnew : r ∈ s.delivered.map Prod.fst
    · rw [Reporting.step, if_pos hnew] at hstep
      exact nomatch hstep
    · rw [Reporting.step, if_neg hnew] at hstep
      cases hstep
      exact ⟨o, h.deliver fast hnew⟩
  | enqueue r =>
    simp only [Reporting.step] at hstep
    split_ifs at hstep with hr
    cases hstep
    exact ⟨_, h.enqueue hr⟩
  | poll =>
    simp only [Reporting.step] at hstep
    split at hstep
    next hpc =>
      cases hstep
      exact ⟨o, h.poll hpc⟩
    next => exact nomatch hstep
  | fail =>
    simp only [Reporting.step] at hstep
    split at hstep
    next hpc =>
      cases hstep
      exact ⟨o, h.idle (by rw [hpc]; rfl) rfl (by simp)⟩
    next => exact nomatch hstep
  | notOk =>
    simp only [Reporting.step] at hstep
    split at hstep
    next hpc =>
      cases hstep
      exact ⟨o, h.idle (by rw [hpc]; rfl) rfl (by simp)⟩
    next => exact nomatch hstep
  | ok =>
    simp only [Reporting.step] at hstep
    split at hstep
    next hpc =>
      cases hstep
      exact ⟨o, h.ok hpc⟩
    next => exact nomatch hstep
  | clear =>
    simp only [Reporting.step] at hstep
    split at hstep
    next hpc =>
      cases hstep
      exact h.clear hpc
    next => exact nomatch hstep
  | stop =>
    simp only [Reporting.step] at hstep
    split at hstep
    next hpc =>
      cases hstep
      exact ⟨o, h.idle (by rw [hpc]; rfl) rfl (by simp)⟩
    next hpc =>
      cases hstep
      exact ⟨o, h.idle (by rw [hpc]; rfl) rfl (by simp)⟩
    next => exact nomatch hstep

/-- The invariant says of all reports what becomes of them. -/
lemma Kept.delivered (h : Kept s o) : s.Delivered where
  kept r fast hmem howed := by
    have hqueued : queued r fast = true := by simpa [queued] using howed
    rcases List.mem_append.mp (h.owed r fast hmem hqueued) with hr | hr
    · rw [← h.history, ← List.take_append_drop o.gone o.history, List.mem_append] at hr
      rcases hr with hr | hr
      · exact .inr (.inr (h.left r hr))
      · refine .inr (.inl ?_)
        rw [h.content]
        exact hr
    · exact .inl hr
  bounded := h.bounded
  ordered := by
    rw [h.content, ← h.history]
    exact o.content_suffix
  once := h.once

end Lemmas

end Reporting

end K8sAgent
