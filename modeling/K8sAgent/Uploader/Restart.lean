import K8sAgent.Uploader.Run

set_option relaxedAutoImplicit false
set_option autoImplicit false

/-!
# Sequence numbers across restarts

The number of the batch acknowledged last is kept in a file, so that a new process goes on where
the former one stopped. Between the acknowledgement and the end of `persistSeq` there are four
steps, and the process can be killed before each of them: the send returns, the number in memory is
advanced, the file is truncated, and the number is written. A kill between the last two leaves an
empty file, which `readSeq` takes for a new beginning.

## Main definitions

* `K8sAgent.readSeq` — the number a process starts with.
* `K8sAgent.Uploader.Life`, `K8sAgent.Uploader.Action`, `K8sAgent.Uploader.lifeStep` — processes
  one after another on one directory.
* `K8sAgent.Uploader.NoRegress` — no batch is sent under a number below one that has been
  acknowledged.
* `K8sAgent.Uploader.Careful` — a step that does not kill the process while the file is empty.

## Main results

* `K8sAgent.Uploader.run_lifeStep_ack` — the four steps together are the acknowledgement of the
  uploader's own model.
* `K8sAgent.Uploader.Tracked.step` — careful steps keep file and memory in step with the server.
* `K8sAgent.Uploader.noRegress_of_careful` — numbers do not regress in careful runs.
-/

namespace K8sAgent

open Encoding Transition

/-- The number read from the file; 0 where the file is absent or not a number. -/
def readSeq (file : Option Bytes) : ℤ :=
  match file with
  | none => 0
  | some data => match parseInt (trimSpace data) with
    | none => 0
    | some seq => if seq < 0 then 0 else seq

/-- A number read from the file is not negative. -/
lemma readSeq_nonneg (file : Option Bytes) : 0 ≤ readSeq file := by
  unfold readSeq
  split
  · omega
  · split
    · omega
    · split_ifs <;> omega

/-- A number that has been written is read back. -/
lemma readSeq_formatInt {seq : ℤ} (hpos : 0 ≤ seq) (hlt : seq < 2 ^ 63) :
    readSeq (some (formatInt seq)) = seq := by
  obtain ⟨n, rfl⟩ := Int.eq_ofNat_of_zero_le hpos
  have hn : n < 2 ^ 63 := by omega
  simp only [readSeq]
  rw [trimSpace_formatInt, parseInt_formatInt hn]
  dsimp only
  rw [if_neg (by omega)]

namespace Uploader

/-! ## Lives of processes -/

/-- How far an acknowledgement has been dealt with. -/
inductive Stage : Type where
  /-- No acknowledgement is being dealt with. -/
  | running
  /-- The send has returned. -/
  | acked
  /-- The number in memory has been advanced. -/
  | advanced
  /-- The file has been truncated. -/
  | truncated
  deriving DecidableEq

/-- What the server sees. -/
inductive Note : Type where
  /-- A batch is sent under a number. -/
  | sent (seq : ℤ)
  /-- A batch is acknowledged under its number. -/
  | acked (seq : ℤ)
  deriving DecidableEq

/-- The present process, the file and the record of what the server has seen. -/
structure Life where
  /-- The process. -/
  proc : State
  /-- How far it has dealt with an acknowledgement. -/
  stage : Stage := .running
  /-- The file with the number, if there is one. -/
  seqFile : Option Bytes
  /-- Record: what the server has seen. -/
  log : List Note := []

/-- What can happen next. -/
inductive Action : Type where
  /-- The process does anything but take an answer. -/
  | go (l : Label)
  /-- Sending the batch returns without an error. -/
  | answer
  /-- The number in memory is advanced. -/
  | advance
  /-- The file is truncated. -/
  | truncate
  /-- The number is written. -/
  | write
  /-- The process is killed and another one starts. -/
  | kill (spill : Bytes)

/-- What a process may do while an acknowledgement is being dealt with: other goroutines go on. -/
def Label.concurrent : Label → Bool
  | .enqueue _ => true
  | _ => false

/-- The numbers of the batches that have been sent in a step. -/
def sentNotes (s s' : State) : List Note :=
  (s'.attempts.drop s.attempts.length).map fun b => .sent b.seq

/-- A process starts: the number is read from the file. -/
def boot (u : Uploader) (seqFile : Option Bytes) (spill : Bytes) : Life :=
  { proc := u.start (readSeq seqFile) spill, seqFile := seqFile }

/-- One step; `none` where it is not possible. -/
def lifeStep (u : Uploader) (w : Life) : Action → Option Life
  | .go .ack => none
  | .go l => if w.stage = .running ∨ l.concurrent = true then
      (u.step w.proc l).map fun s => { w with proc := s, log := w.log ++ sentNotes w.proc s }
    else none
  | .answer => match w.stage, w.proc.pc with
    | .running, .sending _ _ _ =>
      some { w with stage := .acked, log := w.log ++ [.acked (w.proc.seq + 1)] }
    | _, _ => none
  | .advance => if w.stage = .acked then
      (u.step w.proc .ack).map fun s => { w with proc := s, stage := .advanced }
    else none
  | .truncate => if w.stage = .advanced then
      some { w with seqFile := some [], stage := .truncated }
    else none
  | .write => if w.stage = .truncated then
      some { w with seqFile := some (formatInt w.proc.seq), stage := .running }
    else none
  -- the buffer is gone; the spill file is whatever the kill has left of it
  | .kill spill =>
    some { w with proc := u.start (readSeq w.seqFile) spill, stage := .running }

/-- **Numbers do not regress**: no batch is sent under a number below one that was acknowledged
before. -/
def NoRegress (log : List Note) : Prop :=
  log.Pairwise fun a b => ∀ x y, a = .acked x → b = .sent y → x ≤ y

/-- The process is not killed between truncating and writing the file, and where it sends a batch or
advances the number there is a next one of 64 bits. -/
def Careful (w : Life) : Action → Prop
  | .kill _ => w.stage ≠ .truncated
  | .go _ | .advance => w.proc.seq + 1 < 2 ^ 63
  | _ => True

instance (w : Life) (a : Action) : Decidable (Careful w a) :=
  match a with
  | .kill _ => inferInstanceAs (Decidable (_ ≠ _))
  | .go _ | .advance => inferInstanceAs (Decidable (_ < _))
  | .answer | .truncate | .write => isTrue trivial

section Lemmas

variable {u : Uploader} {s s' : State} {w w' : Life}

/-! ## The uploader's own steps -/

/-- What is sent is sent under the next number. -/
lemma seq_of_mem_sentNotes {l : Label} (hstep : u.step s l = some s') {note : Note}
    (hnote : note ∈ sentNotes s s') : note = .sent (s.seq + 1) := by
  have hsend : ∀ {s₁ : State} {evs rest : List InventoryEvent} {full : Bool},
      note ∈ sentNotes s (u.sendBatch s₁ evs full rest) → s₁.attempts = s.attempts →
      s₁.seq = s.seq → note = .sent (s.seq + 1) := by
    intro s₁ evs rest full hmem hatt hseq
    simpa [sentNotes, Uploader.sendBatch, hatt, hseq] using hmem
  have hsame : ∀ {s₁ : State}, s₁.attempts = s.attempts → ¬note ∈ sentNotes s s₁ := by
    intro s₁ hatt
    simp [sentNotes, hatt]
  cases move_of_step hstep with
  | enqueue ev => exact absurd hnote (hsame (sameRun_enqueue u s ev).attempts)
  | sendPart hp hne => exact hsend hnote rfl rfl
  | take hp =>
    have hrefill := sameRun_refill u s
    obtain ⟨s₁, rfl, ⟨-, htake⟩ | ⟨-, htake⟩⟩ := take_cases u s
    · rw [htake] at hnote
      exact absurd hnote (hsame hrefill.attempts)
    · rw [htake] at hnote
      exact hsend hnote hrefill.attempts hrefill.seq
  | _ => exact absurd hnote (hsame rfl)

/-- Only an acknowledgement changes the number in memory. -/
lemma seq_of_step {l : Label} (hstep : u.step s l = some s') :
    s'.seq = if l matches .ack then s.seq + 1 else s.seq := by
  cases move_of_step hstep with
  | enqueue ev => exact (sameRun_enqueue u s ev).seq
  | take hp =>
    change (u.take s).seq = s.seq
    obtain ⟨s₁, rfl, ⟨-, htake⟩ | ⟨-, htake⟩⟩ := take_cases u s
    · rw [htake]
      exact (sameRun_refill u s).seq
    · rw [htake]
      exact (sameRun_refill u s).seq
  | _ => rfl

/-! ## The steps of an acknowledgement -/

/-- **The four steps together** are the acknowledgement of the uploader's own model, with the number
written to the file. -/
theorem run_lifeStep_ack (hstage : w.stage = .running) (hstep : u.step w.proc .ack = some s) :
    run u.lifeStep w [.answer, .advance, .truncate, .write] =
      some { w with
        proc := s
        seqFile := some (formatInt s.seq)
        log := w.log ++ [.acked (w.proc.seq + 1)] } := by
  obtain ⟨proc, stage, seqFile, log⟩ := w
  obtain rfl : stage = .running := hstage
  have hsending : ∃ evs full rest, proc.pc = .sending evs full rest := by
    cases move_of_step hstep with
    | ackPart hp => exact ⟨_, _, _, hp⟩
    | ackEvents hp => exact ⟨_, _, _, hp⟩
  obtain ⟨evs, full, rest, hpc⟩ := hsending
  simp only [run, lifeStep, hpc, hstep, Option.bind_some, Option.map_some, if_true]

/-- Any other step is a step of the process. -/
lemma lifeStep_go {l : Label} (hl : l ≠ .ack) (hstage : w.stage = .running)
    (hstep : u.step w.proc l = some s) :
    u.lifeStep w (.go l) = some { w with proc := s, log := w.log ++ sentNotes w.proc s } := by
  cases l with
  | ack => exact absurd rfl hl
  | _ => simp only [lifeStep, hstage, hstep, true_or, if_true, Option.map_some]

/-- **A run of the uploader's own model is a life of one process.** -/
theorem exists_run_lifeStep {ls : List Label} (hstage : w.stage = .running)
    (hrun : run u.step w.proc ls = some s) :
    ∃ acts w', run u.lifeStep w acts = some w' ∧ w'.proc = s ∧ w'.stage = .running := by
  induction ls generalizing w with
  | nil => exact ⟨[], w, rfl, Option.some.inj hrun, hstage⟩
  | cons l ls ih =>
    obtain ⟨s₁, hs₁, hrun₁⟩ := Option.bind_eq_some_iff.mp hrun
    -- one step of the model is one step here, or four
    have hfirst : ∃ acts w₁, run u.lifeStep w acts = some w₁ ∧ w₁.proc = s₁ ∧
        w₁.stage = .running := by
      by_cases hl : l = .ack
      · subst hl
        exact ⟨_, _, run_lifeStep_ack hstage hs₁, rfl, hstage⟩
      · refine ⟨[.go l], { w with proc := s₁, log := w.log ++ sentNotes w.proc s₁ }, ?_, rfl,
          hstage⟩
        rw [run, lifeStep_go hl hstage hs₁]
        rfl
    obtain ⟨acts, w₁, hacts, rfl, hstage₁⟩ := hfirst
    obtain ⟨acts', w', hacts', hend⟩ := ih hstage₁ hrun₁
    refine ⟨acts ++ acts', w', ?_, hend⟩
    rw [run_append, hacts]
    exact hacts'

/-! ## The invariant -/

/-- The highest number that can have been acknowledged. -/
def Life.ceiling (w : Life) : ℤ :=
  match w.stage with
  | .running | .acked => w.proc.seq + 1
  | .advanced | .truncated => w.proc.seq

/-- File and memory keep up with the server. -/
structure Tracked (w : Life) : Prop where
  /-- The number in memory is not negative. -/
  nonneg : 0 ≤ w.proc.seq
  /-- A number that is to be written fits. -/
  fits : w.stage = .advanced ∨ w.stage = .truncated → w.proc.seq < 2 ^ 63
  /-- The file holds the number in memory, or the one before it if that has just been advanced. -/
  file : w.stage ≠ .truncated → readSeq w.seqFile + 1 = w.ceiling
  /-- What has been acknowledged is at most the next number. -/
  acks : ∀ x, .acked x ∈ w.log → x ≤ w.ceiling
  /-- Numbers have not regressed. -/
  noRegress : NoRegress w.log

/-- Adding to the record what is not below any acknowledged number. -/
lemma NoRegress.append {log notes : List Note} (h : NoRegress log) (hnotes : NoRegress notes)
    (hle : ∀ x y, .acked x ∈ log → .sent y ∈ notes → x ≤ y) : NoRegress (log ++ notes) := by
  refine List.pairwise_append.mpr ⟨h, hnotes, ?_⟩
  rintro a ha b hb x y rfl rfl
  exact hle x y ha hb

/-- **The process goes on**: what it sends bears the next number. -/
theorem Tracked.go (h : Tracked w) {l : Label} (hl : l ≠ .ack)
    (hstep : u.step w.proc l = some s) :
    Tracked { w with proc := s, log := w.log ++ sentNotes w.proc s } := by
  have hseq : s.seq = w.proc.seq := by
    have := seq_of_step hstep
    cases l with
    | ack => exact absurd rfl hl
    | _ => exact this
  have hceil : ({ w with proc := s, log := w.log ++ sentNotes w.proc s } : Life).ceiling =
      w.ceiling := by
    simp only [Life.ceiling, hseq]
  have hsent : ∀ note ∈ sentNotes w.proc s, note = .sent (w.proc.seq + 1) :=
    fun note hnote => seq_of_mem_sentNotes hstep hnote
  refine ⟨?_, ?_, ?_, ?_, ?_⟩
  · exact hseq ▸ h.nonneg
  · exact fun hstage => hseq ▸ h.fits hstage
  · rw [hceil]
    exact h.file
  · intro x hx
    rw [hceil]
    rcases List.mem_append.mp hx with hx | hx
    · exact h.acks x hx
    · exact nomatch hsent _ hx
  · refine h.noRegress.append ?_ ?_
    · refine List.pairwise_of_forall_mem_list fun a ha b hb x y hax _ => ?_
      rw [hsent a ha] at hax
      exact nomatch hax
    · intro x y hx hy
      have hle := h.acks x hx
      have hy' : y = w.proc.seq + 1 := by
        have := hsent _ hy
        simpa using this
      unfold Life.ceiling at hle
      split at hle <;> omega

/-- The send returns: the number acknowledged is the next one. -/
lemma Tracked.answer (h : Tracked w) (hstage : w.stage = .running) :
    Tracked { w with stage := .acked, log := w.log ++ [.acked (w.proc.seq + 1)] } := by
  have hceil : w.ceiling = w.proc.seq + 1 := by rw [Life.ceiling, hstage]
  refine ⟨h.nonneg, by simp, fun _ => ?_, fun x hx => ?_, ?_⟩
  · have hfile := h.file (by simp [hstage])
    rw [hceil] at hfile
    exact hfile
  · change x ≤ w.proc.seq + 1
    rcases List.mem_append.mp hx with hx | hx
    · exact hceil ▸ h.acks x hx
    · simp only [List.mem_singleton, Note.acked.injEq] at hx
      omega
  · refine h.noRegress.append (List.pairwise_singleton _ _) fun x y _ hy => ?_
    simp at hy

/-- The number in memory is advanced to the acknowledged one. -/
lemma Tracked.advance (h : Tracked w) (hstage : w.stage = .acked)
    (hlt : w.proc.seq + 1 < 2 ^ 63) (hstep : u.step w.proc .ack = some s) :
    Tracked { w with proc := s, stage := .advanced } := by
  have hseq : s.seq = w.proc.seq + 1 := seq_of_step hstep
  have hceil : ({ w with proc := s, stage := .advanced } : Life).ceiling = w.ceiling := by
    simp only [Life.ceiling, hstage, hseq]
  have hnonneg := h.nonneg
  refine ⟨?_, fun _ => ?_, fun _ => ?_, ?_, h.noRegress⟩
  · change 0 ≤ s.seq
    omega
  · change s.seq < 2 ^ 63
    omega
  · rw [hceil]
    exact h.file (by simp [hstage])
  · rw [hceil]
    exact h.acks

/-- Truncating the file of the number, which is advanced in memory already, keeps file and memory
tracked. -/
lemma Tracked.truncate (h : Tracked w) (hstage : w.stage = .advanced) :
    Tracked { w with seqFile := some [], stage := .truncated } := by
  have hceil : w.ceiling = w.proc.seq := by rw [Life.ceiling, hstage]
  refine ⟨h.nonneg, fun _ => h.fits (.inl hstage), fun hne => absurd rfl hne, fun x hx => ?_,
    h.noRegress⟩
  change x ≤ w.proc.seq
  rw [← hceil]
  exact h.acks x hx

/-- The number in memory is written to the file. -/
lemma Tracked.write (h : Tracked w) (hstage : w.stage = .truncated) :
    Tracked { w with seqFile := some (formatInt w.proc.seq), stage := .running } := by
  have hceil : w.ceiling = w.proc.seq := by rw [Life.ceiling, hstage]
  refine ⟨h.nonneg, by simp, fun _ => ?_, fun x hx => ?_, h.noRegress⟩
  · change readSeq (some (formatInt w.proc.seq)) + 1 = w.proc.seq + 1
    rw [readSeq_formatInt h.nonneg (h.fits (.inr hstage))]
  · have hle := h.acks x hx
    change x ≤ w.proc.seq + 1
    omega

/-- The process is killed, but not while the file is empty: the next one starts at most one number
behind what has been acknowledged. -/
lemma Tracked.kill (h : Tracked w) (hstage : w.stage ≠ .truncated) (spill : Bytes) :
    Tracked { w with proc := u.start (readSeq w.seqFile) spill, stage := .running } := by
  have hceil : w.ceiling = readSeq w.seqFile + 1 := (h.file hstage).symm
  refine ⟨readSeq_nonneg _, by simp, fun _ => rfl, fun x hx => ?_, h.noRegress⟩
  change x ≤ readSeq w.seqFile + 1
  rw [← hceil]
  exact h.acks x hx

/-- **Careful steps keep file and memory in step with the server.** -/
theorem Tracked.step (h : Tracked w) {a : Action} (hcare : Careful w a)
    (hstep : u.lifeStep w a = some w') : Tracked w' := by
  cases a with
  | go l =>
    by_cases hl : l = .ack
    · subst hl
      exact nomatch hstep
    · have hgo : ∃ s, u.step w.proc l = some s ∧
          { w with proc := s, log := w.log ++ sentNotes w.proc s } = w' := by
        cases l with
        | ack => exact absurd rfl hl
        | _ =>
          simp only [lifeStep] at hstep
          split_ifs at hstep
          exact Option.map_eq_some_iff.mp hstep
      obtain ⟨s, hs, rfl⟩ := hgo
      exact h.go hl hs
  | answer =>
    simp only [lifeStep] at hstep
    split at hstep
    next hstage hpc =>
      cases hstep
      exact h.answer hstage
    next => exact nomatch hstep
  | advance =>
    simp only [lifeStep] at hstep
    split_ifs at hstep with hstage
    obtain ⟨s, hs, rfl⟩ := Option.map_eq_some_iff.mp hstep
    exact h.advance hstage hcare hs
  | truncate =>
    simp only [lifeStep] at hstep
    split_ifs at hstep with hstage
    cases hstep
    exact h.truncate hstage
  | write =>
    simp only [lifeStep] at hstep
    split_ifs at hstep with hstage
    cases hstep
    exact h.write hstage
  | kill spill =>
    cases hstep
    exact h.kill hcare spill

/-- When the first process starts, nothing has been sent, and file and memory keep up with the
server. -/
lemma tracked_boot (u : Uploader) (seqFile : Option Bytes) (spill : Bytes) :
    Tracked (u.boot seqFile spill) :=
  ⟨readSeq_nonneg _, by simp [boot], fun _ => rfl, by simp [boot], List.Pairwise.nil⟩

end Lemmas

/-- **Sequence numbers do not regress in careful runs.** However many processes follow one another
on a directory, whatever the file holds in the beginning and whatever the processes do, no batch is
sent under a number below one that was acknowledged before, in every run in which no process is
killed between truncating the file and writing the number, and numbers stay within 64 bits.

**Proof sketch.** While the file is not empty, it holds the number in memory, or the one before it
when that has just been advanced. What has been acknowledged is at most the next number, and remains
so for a process that starts from the file. -/
theorem noRegress_of_careful (u : Uploader) (seqFile : Option Bytes) (spill : Bytes)
    (acts : List Action) (w : Life) (hrun : run u.lifeStep (u.boot seqFile spill) acts = some w)
    (hcare : Along u.lifeStep Careful (u.boot seqFile spill) acts) : NoRegress w.log := by
  have hinv : Tracked w :=
    invariant (fun h hP hstep => h.step hP hstep) (tracked_boot u seqFile spill) hcare hrun
  exact hinv.noRegress

/-! ## A kill during the second acknowledgement -/

/-- A batch is sent, acknowledged and recorded; the second one is sent and acknowledged, and the
process is killed after the given steps. The next process sends a batch. -/
def killedAfter (steps : List Action) : List Action :=
  [.go (.enqueue (podEvent "web" "add" 1)), .go (.snapshot []), .go .next, .go .next, .answer,
    .advance, .truncate, .write, .go (.enqueue (podEvent "web" "update" 2)), .go .next, .go .next,
    .answer] ++ steps ++
  [.kill [], .go (.enqueue (podEvent "web" "delete" 3)), .go (.snapshot []), .go .next, .go .next]

/-- A process killed before it touches the file: the number 2 is used again. -/
theorem noRegress_killed_early :
    ∃ w, run smallUploader.lifeStep (smallUploader.boot none []) (killedAfter [.advance]) = some w ∧
      w.log = [.sent 1, .acked 1, .sent 2, .acked 2, .sent 2] ∧ NoRegress w.log := by
  obtain ⟨w, hw, hlog⟩ := Option.map_eq_some_iff.mp (show Option.map Life.log
    (run smallUploader.lifeStep (smallUploader.boot none []) (killedAfter [.advance])) = some
      [.sent 1, .acked 1, .sent 2, .acked 2, .sent 2] by decide +kernel)
  exact ⟨w, hw, hlog, noRegress_of_careful smallUploader none [] _ w hw (by decide +kernel)⟩

/-- A process killed when it has truncated the file: after the acknowledgement of 2 the next batch
is sent under the number 1. -/
theorem seq_regresses_after_truncation :
    ∃ w, run smallUploader.lifeStep (smallUploader.boot none [])
        (killedAfter [.advance, .truncate]) = some w ∧ ¬NoRegress w.log := by
  obtain ⟨w, hw, hlog⟩ := Option.map_eq_some_iff.mp (show Option.map Life.log
    (run smallUploader.lifeStep (smallUploader.boot none []) (killedAfter [.advance, .truncate])) =
      some [.sent 1, .acked 1, .sent 2, .acked 2, .sent 1] by decide +kernel)
  refine ⟨w, hw, fun hno => ?_⟩
  rw [hlog] at hno
  have hpair : ∀ x y, Note.acked 2 = .acked x → Note.sent 1 = .sent y → x ≤ y := by
    unfold NoRegress at hno
    simp only [List.pairwise_cons] at hno
    exact hno.2.2.2.1 (.sent 1) List.mem_cons_self
  exact absurd (hpair 2 1 rfl rfl) (by decide)

end Uploader

end K8sAgent
