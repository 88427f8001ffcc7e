import K8sAgent.Channel.Pace
import K8sAgent.Receiver.ReportQueue

set_option relaxedAutoImplicit false
set_option autoImplicit false

/-!
# The poll loop

`Receiver.Run` of `internal/receiver/receiver.go`. Each round polls with a copy of the report queue.
An error is logged and followed by a delay that grows. An answer sets the delay back, whether or not
the server has accepted the poll; if it has, the reports of the copy are removed from the queue.
Then the commands of the answer are processed one after another, and the loop waits for the next
round. Reports come from other goroutines at any time.

On reports, the loop is the one of `K8sAgent.Reporting`: every run of it is one of those.

## Main definitions

* `K8sAgent.Polling.State`, `Label`, `step` — the loop and the goroutines that deliver reports.
* `K8sAgent.Polling.Label.report` — what a step is to the report queue.
* `K8sAgent.Polling.answered` — the commands that the polls of a run were answered with.
* `K8sAgent.Polling.State.Served` — which commands have been processed, and which are left.

## Main results

* `K8sAgent.Polling.run_report` — on reports, a run is a run of the report queue.
* `K8sAgent.Polling.served_of_run` — reports are delivered, and commands are processed once.
* `K8sAgent.Polling.poll_retries_of_run` — delays and alarms.
-/

namespace K8sAgent.Polling

open Transition

variable {κ : Type}

/-- Where the loop is, outside the poll itself. -/
inductive At (κ : Type) : Type where
  /-- At the poll. -/
  | poll
  /-- The poll has returned an error. -/
  | failed (auth : Bool)
  /-- The poll is answered, and these commands are to be processed. -/
  | serving (cmds : List κ)
  /-- Waiting after an answer. -/
  | resting
  /-- Waiting after an error. -/
  | sleeping

/-- The loop, with the record of its run. -/
structure State (κ : Type) where
  /-- The report queue and the poll. -/
  reports : Reporting.State := {}
  /-- The delays. -/
  pace : Pace := {}
  /-- Where the loop is. -/
  place : At κ := .poll
  /-- The context is done. -/
  done : Bool := false
  /-- Record: the commands of the answers. -/
  answers : List (List κ) := []
  /-- Record: the commands processed. -/
  processed : List κ := []

/-- What can happen next. -/
inductive Label (κ : Type) : Type where
  /-- `deliverReport` tries the WebSocket. -/
  | deliver (r : ReportRef) (fast : Reporting.FastPath)
  /-- `deliverReport` queues its report. -/
  | enqueue (r : ReportRef)
  /-- The loop copies the queue and polls. -/
  | poll
  /-- The poll returns an error. -/
  | fail (auth : Bool)
  /-- The poll is answered. -/
  | answer (ok : Bool) (cmds : List κ)
  /-- The loop removes the accepted reports. -/
  | clear
  /-- The loop processes the next command. -/
  | process
  /-- The loop waits for the next round. -/
  | rest
  /-- The loop logs an error and goes to sleep, for this long. -/
  | retry (slept : ℤ)
  /-- A wait ends. -/
  | wake
  /-- The context is done. -/
  | cancel
  /-- The loop returns. -/
  | stop

/-- A step on the report queue. -/
def report (s : State κ) (l : Reporting.Label) : Option (State κ) :=
  (Reporting.step s.reports l).map fun reports => { s with reports := reports }

/-- One step; `none` where it is not possible. -/
def step (s : State κ) : Label κ → Option (State κ)
  | .deliver r fast => report s (.deliver r fast)
  | .enqueue r => report s (.enqueue r)
  | .poll => match s.place with
    | .poll => report s .poll
    | _ => none
  | .fail auth => match s.place with
    | .poll => report { s with place := .failed auth } .fail
    | _ => none
  | .answer ok cmds => match s.place with
    | .poll => report
        { s with
          pace := s.pace.succeed
          place := .serving cmds
          answers := s.answers ++ [cmds] }
        (if ok then .ok else .notOk)
    | _ => none
  | .clear => report s .clear
  | .process => match s.place, s.reports.pc with
    | .serving (cmd :: cmds), .ready =>
      some { s with place := .serving cmds, processed := s.processed ++ [cmd] }
    | _, _ => none
  | .rest => match s.place, s.reports.pc with
    | .serving [], .ready => some { s with place := .resting }
    | _, _ => none
  | .retry slept => match s.place with
    | .failed auth =>
      if s.done = false ∧ Jittered (s.pace.bo.delay backoffMin) slept then
        some { s with pace := s.pace.retry auth slept, place := .sleeping }
      else none
    | _ => none
  | .wake => match s.place, s.reports.pc with
    | .resting, .ready | .sleeping, .ready => some { s with place := .poll }
    | _, _ => none
  | .cancel => some { s with done := true }
  | .stop => match s.place with
    | .failed _ | .resting | .sleeping => if s.done then report s .stop else none
    | _ => none

/-- What a step is to the report queue. -/
def Label.report : Label κ → Option Reporting.Label
  | .deliver r fast => some (.deliver r fast)
  | .enqueue r => some (.enqueue r)
  | .poll => some .poll
  | .fail _ => some .fail
  | .answer ok _ => some (if ok then .ok else .notOk)
  | .clear => some .clear
  | .stop => some .stop
  | .process | .rest | .retry _ | .wake | .cancel => none

/-- The commands that a label brings, if it answers a poll. -/
def Label.answered : Label κ → List (List κ)
  | .answer _ cmds => [cmds]
  | _ => []

/-- The commands that the polls of a run were answered with, answer by answer. -/
def answered (ls : List (Label κ)) : List (List κ) := ls.flatMap Label.answered

/-- The commands that are still to be processed. -/
def At.left : At κ → List κ
  | .serving cmds => cmds
  | _ => []

/-! ## What a step can be -/

/-- The steps, one by one. -/
inductive Move (s : State κ) : Label κ → State κ → Prop where
  /-- A step on the report queue that neither fails nor answers a poll. -/
  | note {l : Label κ} (k : Reporting.Label) (reports : Reporting.State) (hl : l.report = some k)
      (hnone : l.answered = []) (hstep : Reporting.step s.reports k = some reports) :
      Move s l { s with reports := reports }
  /-- The poll returns an error. -/
  | fail (auth : Bool) (reports : Reporting.State) (hplace : s.place = .poll)
      (hstep : Reporting.step s.reports .fail = some reports) :
      Move s (.fail auth) { s with reports := reports, place := .failed auth }
  /-- The poll is answered. -/
  | answer (ok : Bool) (cmds : List κ) (reports : Reporting.State) (hplace : s.place = .poll)
      (hstep : Reporting.step s.reports (if ok then .ok else .notOk) = some reports) :
      Move s (.answer ok cmds)
        { s with
          reports := reports
          pace := s.pace.succeed
          place := .serving cmds
          answers := s.answers ++ [cmds] }
  /-- A command is processed. -/
  | process {cmd : κ} {cmds : List κ} (hplace : s.place = .serving (cmd :: cmds)) :
      Move s .process { s with place := .serving cmds, processed := s.processed ++ [cmd] }
  /-- The loop waits for the next round. -/
  | rest (hplace : s.place = .serving []) : Move s .rest { s with place := .resting }
  /-- The loop goes to sleep. -/
  | retry {auth : Bool} (slept : ℤ) (hplace : s.place = .failed auth)
      (hslept : Jittered (s.pace.bo.delay backoffMin) slept) :
      Move s (.retry slept) { s with pace := s.pace.retry auth slept, place := .sleeping }
  /-- A wait ends. -/
  | wake (hplace : s.place = .resting ∨ s.place = .sleeping) :
      Move s .wake { s with place := .poll }
  /-- The context is done. -/
  | cancel : Move s .cancel { s with done := true }

section Lemmas

variable {s s' : State κ}

/-- **Inversion of a step** of the poll loop: one of its moves, or one of the report queue. -/
theorem move_of_step {l : Label κ} (h : step s l = some s') : Move s l s' := by
  have hnote : ∀ {k : Reporting.Label}, l.report = some k → l.answered = [] →
      report s k = some s' → Move s l s' := by
    intro k hl hnone hk
    obtain ⟨reports, hreports, rfl⟩ := Option.map_eq_some_iff.mp hk
    exact .note k reports hl hnone hreports
  cases l with
  | deliver r fast => exact hnote rfl rfl h
  | enqueue r => exact hnote rfl rfl h
  | clear => exact hnote rfl rfl h
  | poll =>
    simp only [step] at h
    split at h
    · exact hnote rfl rfl h
    · cases h
  | fail auth =>
    simp only [step] at h
    split at h
    next hplace =>
      obtain ⟨reports, hreports, rfl⟩ := Option.map_eq_some_iff.mp h
      exact .fail auth reports hplace hreports
    next => cases h
  | answer ok cmds =>
    simp only [step] at h
    split at h
    next hplace =>
      obtain ⟨reports, hreports, rfl⟩ := Option.map_eq_some_iff.mp h
      exact .answer ok cmds reports hplace hreports
    next => cases h
  | process =>
    simp only [step] at h
    split at h
    next cmd cmds hplace _ =>
      obtain rfl := Option.some.inj h
      exact .process hplace
    next => cases h
  | rest =>
    simp only [step] at h
    split at h
    next hplace _ =>
      obtain rfl := Option.some.inj h
      exact .rest hplace
    next => cases h
  | retry slept =>
    simp only [step] at h
    split at h
    next auth hplace =>
      obtain ⟨hready, ⟨⟩⟩ := Option.ite_none_right_eq_some.mp h
      exact .retry slept hplace hready.2
    next => cases h
  | wake =>
    simp only [step] at h
    split at h
    next hplace _ =>
      obtain rfl := Option.some.inj h
      exact .wake (.inl hplace)
    next hplace _ =>
      obtain rfl := Option.some.inj h
      exact .wake (.inr hplace)
    next => cases h
  | cancel =>
    obtain rfl := Option.some.inj h
    exact .cancel
  | stop =>
    simp only [step] at h
    split at h
    next => exact hnote rfl rfl (Option.ite_none_right_eq_some.mp h).2
    next => exact hnote rfl rfl (Option.ite_none_right_eq_some.mp h).2
    next => exact hnote rfl rfl (Option.ite_none_right_eq_some.mp h).2
    next => cases h

/-! ## Reports, commands and delays -/

/-- **The commands of the answers are served** in order: those processed and those left are the
commands of all answers, and those left are the last ones of the last answer. -/
structure State.Served (s : State κ) (answers : List (List κ)) : Prop where
  /-- Each command of an answer has been processed once, or is left. -/
  commands : s.processed ++ s.place.left = answers.flatten
  /-- What is left belongs to the last answer. -/
  last : s.place.left <:+ answers.getLast?.getD []

/-- A step that leaves the answers and the commands processed alone, and where nothing was left. -/
lemma State.Served.idle {answers : List (List κ)} (h : s.Served answers)
    (hleft : s.place.left = []) (hprocessed : s'.processed = s.processed)
    (hleft' : s'.place.left = []) : s'.Served answers where
  commands := by
    rw [hprocessed, hleft', ← hleft]
    exact h.commands
  last := by
    rw [hleft']
    exact List.nil_suffix

/-- **Every step serves the commands** of the answers recorded. -/
theorem State.Served.step (h : s.Served s.answers) {l : Label κ} (hstep : step s l = some s') :
    s'.Served s'.answers := by
  cases move_of_step hstep with
  | note k reports hl hnone hk => exact ⟨h.commands, h.last⟩
  | cancel => exact ⟨h.commands, h.last⟩
  | fail auth reports hplace hk => exact h.idle (by rw [hplace]; rfl) rfl rfl
  | rest hplace => exact h.idle (by rw [hplace]; rfl) rfl rfl
  | retry slept hplace hslept => exact h.idle (by rw [hplace]; rfl) rfl rfl
  | wake hplace =>
    refine h.idle ?_ rfl rfl
    rcases hplace with hplace | hplace <;> rw [hplace] <;> rfl
  | answer ok cmds reports hplace hk =>
    have hdone : s.processed = s.answers.flatten := by
      have hall := h.commands
      rw [hplace] at hall
      simpa [At.left] using hall
    refine ⟨?_, ?_⟩
    · rw [List.flatten_append, ← hdone, At.left, List.flatten_singleton]
    · rw [List.getLast?_append]
      exact List.suffix_refl cmds
  | process hplace =>
    obtain ⟨hall, hlast⟩ := h
    rw [hplace, At.left] at hall hlast
    refine ⟨?_, (List.suffix_cons _ _).trans hlast⟩
    rw [At.left, List.append_assoc]
    exact hall

end Lemmas

end K8sAgent.Polling
