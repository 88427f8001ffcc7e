import K8sAgent.Channel.Pace
import K8sAgent.Lib.Transition
import K8sAgent.Protocol.Types

set_option relaxedAutoImplicit false
set_option autoImplicit false

/-!
# The WebSocket client

`internal/wsclient/wsclient.go`: `Run` connects, reads until the connection breaks, and retries with
growing delays. Any number of goroutines call `SendReport` meanwhile; they check a flag first, and
then take the mutex and write on the connection they find. The goroutine that keeps a connection
alive may close it at any time. Each access to the flag, to the connection under the mutex, and each
call of the library is one step, and steps interleave in any way.

Connections are numbered in the order in which they are dialed.

## Main definitions

* `K8sAgent.WsClient.State`, `Label`, `step` — the client.
* `K8sAgent.WsClient.State.Disciplined` — what holds of connections and writers.

## Main results

* `K8sAgent.WsClient.disciplined_of_run` — one connection at a time, and only accepted ones are
  written to.
* `K8sAgent.WsClient.silent_after_stop` — nothing is written after `Run` has returned.
* `K8sAgent.WsClient.client_retries_of_run` — delays and alarms.
-/

namespace K8sAgent.WsClient

open Transition

/-! ## The client -/

/-- Where `Run` is, with the connection it is at. -/
inductive Pc : Type where
  /-- In `Dial`. -/
  | dialing
  /-- In `handshake`. -/
  | handshake (c : ℕ)
  /-- The handshake has failed, and the connection is to be closed. -/
  | rejected (c : ℕ) (auth : Bool)
  /-- The handshake has succeeded. -/
  | accepted (c : ℕ)
  /-- The connection is there for writers. -/
  | published (c : ℕ)
  /-- In `readLoop`, with the flag set. -/
  | reading (c : ℕ)
  /-- Past `readLoop`. -/
  | leaving (c : ℕ)
  /-- The flag is cleared. -/
  | unflagged (c : ℕ)
  /-- The connection is not there for writers any more, and is to be closed. -/
  | cleared (c : ℕ)
  /-- `connectOnce` has returned an error. -/
  | failed (auth : Bool)
  /-- Waiting for the next try. -/
  | sleeping
  /-- Returned. -/
  | stopped
  deriving DecidableEq

/-- The connection `Run` is at. -/
def Pc.conn : Pc → Option ℕ
  | .handshake c | .rejected c _ | .accepted c | .published c | .reading c | .leaving c
  | .unflagged c | .cleared c => some c
  | .dialing | .failed _ | .sleeping | .stopped => none

/-- The connection that is there for writers. -/
def Pc.shared : Pc → Option ℕ
  | .published c | .reading c | .leaving c | .unflagged c => some c
  | _ => none

/-- The connection, if its handshake has succeeded. -/
def Pc.welcomed : Pc → Option ℕ
  | .accepted c | .published c | .reading c | .leaving c | .unflagged c | .cleared c => some c
  | _ => none

/-- The flag is set. -/
def Pc.flag : Pc → Bool
  | .reading _ | .leaving _ => true
  | _ => false

/-- A goroutine that calls `SendReport`. -/
inductive Sender : Type where
  /-- Not in a call. -/
  | idle
  /-- The flag was set; the mutex is next. -/
  | flagged (r : Report)
  /-- The mutex is taken. -/
  | holding (r : Report)
  /-- In `Write`. -/
  | writing (r : Report) (c : ℕ)
  deriving DecidableEq

/-- A call of `SendReport` that has returned. -/
structure Call where
  /-- The report. -/
  report : Report
  /-- The connection it was written on; `none` if an error is returned. -/
  written : Option ℕ
  /-- The number of connections dialed until then. -/
  dialed : ℕ

/-- The client, with the record of its run. -/
structure State where
  /-- Where `Run` is. -/
  pc : Pc := .dialing
  /-- The connection for writers. -/
  conn : Option ℕ := none
  /-- The flag. -/
  connected : Bool := false
  /-- The goroutine that has the mutex. -/
  mu : Option ℕ := none
  /-- The goroutines that call `SendReport`. -/
  senders : ℕ → Sender := fun _ => .idle
  /-- The delays of `Run`. -/
  pace : Pace := {}
  /-- The context is done. -/
  done : Bool := false
  /-- The number of connections dialed. -/
  dialed : ℕ := 0
  /-- The connections closed by the client. -/
  closed : List ℕ := []
  /-- Record: the connections whose handshake succeeded. -/
  accepted : List ℕ := []
  /-- Record: the calls of `SendReport`. -/
  calls : List Call := []

/-- What can happen next. -/
inductive Label : Type where
  /-- `Dial` returns. -/
  | dial (ok : Bool)
  /-- `handshake` returns; an error says whether the token was rejected. -/
  | handshake (err : Option Bool)
  /-- `Run` goes on. -/
  | next
  /-- `readLoop` returns. -/
  | broken
  /-- `Run` logs an error and goes to sleep, for this long. -/
  | retry (slept : ℤ)
  /-- A sleep ends. -/
  | wake
  /-- The context is done. -/
  | cancel
  /-- `keepalive` closes its connection. -/
  | closeNow (c : ℕ)
  /-- A goroutine calls `SendReport`, and checks the flag. -/
  | send (i : ℕ) (r : Report)
  /-- The call takes the mutex. -/
  | lock (i : ℕ)
  /-- The call looks for a connection. -/
  | look (i : ℕ)
  /-- `Write` returns. -/
  | write (i : ℕ) (ok : Bool)

/-- A goroutine is done with a call. -/
def State.returned (s : State) (i : ℕ) (r : Report) (written : Option ℕ) : State :=
  { s with
    senders := Function.update s.senders i .idle
    calls := s.calls ++ [⟨r, written, s.dialed⟩] }

/-- `Run` goes on. -/
def next (s : State) : Option State :=
  match s.pc with
  | .rejected c auth => some { s with closed := s.closed ++ [c], pc := .failed auth }
  | .accepted c => if s.mu = none then some { s with conn := some c, pc := .published c } else none
  | .published c => some { s with connected := true, pc := .reading c }
  | .leaving c => some { s with connected := false, pc := .unflagged c }
  | .unflagged c =>
    if s.mu = none then
      some { s with conn := if s.conn = some c then none else s.conn, pc := .cleared c }
    else none
  | .cleared c => some { s with closed := s.closed ++ [c], pc := .failed false }
  | .failed _ => if s.done then some { s with pc := .stopped } else none
  | .sleeping => if s.done then some { s with pc := .stopped } else none
  | _ => none

/-- One step; `none` where it is not possible. -/
def step (s : State) : Label → Option State
  | .dial ok => match s.pc with
    | .dialing =>
      if ok then some { s with dialed := s.dialed + 1, pc := .handshake s.dialed }
      else some { s with pc := .failed false }
    | _ => none
  | .handshake err => match s.pc, err with
    | .handshake c, none => some { s with
        pace := s.pace.succeed
        accepted := s.accepted ++ [c]
        pc := .accepted c }
    | .handshake c, some auth => some { s with pc := .rejected c auth }
    | _, _ => none
  | .next => next s
  | .broken => match s.pc with
    | .reading c => some { s with pc := .leaving c }
    | _ => none
  | .retry slept => match s.pc with
    | .failed auth =>
      if s.done = false ∧ Jittered (s.pace.bo.delay backoffMin) slept then
        some { s with pace := s.pace.retry auth slept, pc := .sleeping }
      else none
    | _ => none
  | .wake => match s.pc with
    | .sleeping => some { s with pc := .dialing }
    | _ => none
  | .cancel => some { s with done := true }
  | .closeNow c => if c ∈ s.accepted then some { s with closed := s.closed ++ [c] } else none
  | .send i r => match s.senders i with
    | .idle =>
      if s.connected then some { s with senders := Function.update s.senders i (.flagged r) }
      else some (s.returned i r none)
    | _ => none
  | .lock i => match s.senders i, s.mu with
    | .flagged r, none =>
      some { s with mu := some i, senders := Function.update s.senders i (.holding r) }
    | _, _ => none
  | .look i => match s.senders i with
    | .holding r => match s.conn with
      | none => some { s.returned i r none with mu := none }
      | some c => some { s with senders := Function.update s.senders i (.writing r c) }
    | _ => none
  | .write i ok => match s.senders i with
    | .writing r c =>
      -- a connection that the client has closed cannot be written to
      if ok ∧ c ∈ s.closed then none
      else some { s.returned i r (if ok then some c else none) with mu := none }
    | _ => none

/-! ## What a step can be -/

/-- The steps, one by one. -/
inductive Move (s : State) : Label → State → Prop where
  /-- A connection is dialed. -/
  | dialed (hpc : s.pc = .dialing) :
      Move s (.dial true) { s with dialed := s.dialed + 1, pc := .handshake s.dialed }
  /-- Dialing fails. -/
  | unreachable (hpc : s.pc = .dialing) : Move s (.dial false) { s with pc := .failed false }
  /-- The handshake succeeds. -/
  | welcome {c : ℕ} (hpc : s.pc = .handshake c) : Move s (.handshake none)
      { s with pace := s.pace.succeed, accepted := s.accepted ++ [c], pc := .accepted c }
  /-- The handshake fails. -/
  | refused {c : ℕ} (auth : Bool) (hpc : s.pc = .handshake c) :
      Move s (.handshake (some auth)) { s with pc := .rejected c auth }
  /-- A connection without handshake is closed. -/
  | discard {c : ℕ} {auth : Bool} (hpc : s.pc = .rejected c auth) :
      Move s .next { s with closed := s.closed ++ [c], pc := .failed auth }
  /-- The connection is there for writers. -/
  | publish {c : ℕ} (hpc : s.pc = .accepted c) (hmu : s.mu = none) :
      Move s .next { s with conn := some c, pc := .published c }
  /-- The flag is set. -/
  | flag {c : ℕ} (hpc : s.pc = .published c) :
      Move s .next { s with connected := true, pc := .reading c }
  /-- `readLoop` returns. -/
  | broken {c : ℕ} (hpc : s.pc = .reading c) : Move s .broken { s with pc := .leaving c }
  /-- The flag is cleared. -/
  | unflag {c : ℕ} (hpc : s.pc = .leaving c) :
      Move s .next { s with connected := false, pc := .unflagged c }
  /-- The connection is taken from writers. -/
  | withdraw {c : ℕ} (hpc : s.pc = .unflagged c) (hmu : s.mu = none) :
      Move s .next { s with conn := if s.conn = some c then none else s.conn, pc := .cleared c }
  /-- The connection is closed. -/
  | close {c : ℕ} (hpc : s.pc = .cleared c) :
      Move s .next { s with closed := s.closed ++ [c], pc := .failed false }
  /-- `Run` returns. -/
  | stop (hpc : s.pc = .sleeping ∨ ∃ auth, s.pc = .failed auth) (hdone : s.done = true) :
      Move s .next { s with pc := .stopped }
  /-- `Run` goes to sleep. -/
  | retry {auth : Bool} (slept : ℤ) (hpc : s.pc = .failed auth) (hdone : s.done = false)
      (hslept : Jittered (s.pace.bo.delay backoffMin) slept) :
      Move s (.retry slept) { s with pace := s.pace.retry auth slept, pc := .sleeping }
  /-- `Run` tries again. -/
  | wake (hpc : s.pc = .sleeping) : Move s .wake { s with pc := .dialing }
  /-- The context is done. -/
  | cancel : Move s .cancel { s with done := true }
  /-- `keepalive` closes its connection. -/
  | closeNow (c : ℕ) (hc : c ∈ s.accepted) :
      Move s (.closeNow c) { s with closed := s.closed ++ [c] }
  /-- A call finds the flag set. -/
  | sendUp (i : ℕ) (r : Report) (hi : s.senders i = .idle) (hflag : s.connected = true) :
      Move s (.send i r) { s with senders := Function.update s.senders i (.flagged r) }
  /-- A call finds the flag not set. -/
  | sendDown (i : ℕ) (r : Report) (hi : s.senders i = .idle) (hflag : s.connected = false) :
      Move s (.send i r) (s.returned i r none)
  /-- A call takes the mutex. -/
  | lock (i : ℕ) {r : Report} (hi : s.senders i = .flagged r) (hmu : s.mu = none) :
      Move s (.lock i)
        { s with mu := some i, senders := Function.update s.senders i (.holding r) }
  /-- A call finds no connection. -/
  | lookDown (i : ℕ) {r : Report} (hi : s.senders i = .holding r) (hconn : s.conn = none) :
      Move s (.look i) { s.returned i r none with mu := none }
  /-- A call begins to write. -/
  | lookUp (i : ℕ) {r : Report} {c : ℕ} (hi : s.senders i = .holding r) (hconn : s.conn = some c) :
      Move s (.look i) { s with senders := Function.update s.senders i (.writing r c) }
  /-- A report is written. -/
  | written (i : ℕ) {r : Report} {c : ℕ} (hi : s.senders i = .writing r c) (hopen : c ∉ s.closed) :
      Move s (.write i true) { s.returned i r (some c) with mu := none }
  /-- A report is not written. -/
  | unwritten (i : ℕ) {r : Report} {c : ℕ} (hi : s.senders i = .writing r c) :
      Move s (.write i false) { s.returned i r none with mu := none }

/-- **Inversion of a step**: one of the moves of `Run`, of the keepalive goroutine, or of a call of
`SendReport`. -/
theorem move_of_step {s s' : State} {l : Label} (h : step s l = some s') : Move s l s' := by
  cases l with
  | dial ok =>
    simp only [step] at h
    split at h
    next hpc =>
      cases ok with
      | true =>
        obtain rfl := Option.some.inj h
        exact .dialed hpc
      | false =>
        obtain rfl := Option.some.inj h
        exact .unreachable hpc
    next => cases h
  | handshake err =>
    simp only [step] at h
    split at h
    next c hpc =>
      obtain rfl := Option.some.inj h
      exact .welcome hpc
    next c auth hpc =>
      obtain rfl := Option.some.inj h
      exact .refused auth hpc
    next => cases h
  | next =>
    simp only [step, next] at h
    split at h
    next c auth hpc =>
      obtain rfl := Option.some.inj h
      exact .discard hpc
    next c hpc =>
      obtain ⟨hmu, ⟨⟩⟩ := Option.ite_none_right_eq_some.mp h
      exact .publish hpc hmu
    next c hpc =>
      obtain rfl := Option.some.inj h
      exact .flag hpc
    next c hpc =>
      obtain rfl := Option.some.inj h
      exact .unflag hpc
    next c hpc =>
      obtain ⟨hmu, ⟨⟩⟩ := Option.ite_none_right_eq_some.mp h
      exact .withdraw hpc hmu
    next c hpc =>
      obtain rfl := Option.some.inj h
      exact .close hpc
    next auth hpc =>
      obtain ⟨hdone, ⟨⟩⟩ := Option.ite_none_right_eq_some.mp h
      exact .stop (.inr ⟨auth, hpc⟩) hdone
    next hpc =>
      obtain ⟨hdone, ⟨⟩⟩ := Option.ite_none_right_eq_some.mp h
      exact .stop (.inl hpc) hdone
    next => cases h
  | broken =>
    simp only [step] at h
    split at h
    next c hpc =>
      obtain rfl := Option.some.inj h
      exact .broken hpc
    next => cases h
  | retry slept =>
    simp only [step] at h
    split at h
    next auth hpc =>
      obtain ⟨⟨hdone, hslept⟩, ⟨⟩⟩ := Option.ite_none_right_eq_some.mp h
      exact .retry slept hpc hdone hslept
    next => cases h
  | wake =>
    simp only [step] at h
    split at h
    next hpc =>
      obtain rfl := Option.some.inj h
      exact .wake hpc
    next => cases h
  | cancel =>
    obtain rfl := Option.some.inj h
    exact .cancel
  | closeNow c =>
    obtain ⟨hc, ⟨⟩⟩ := Option.ite_none_right_eq_some.mp h
    exact .closeNow c hc
  | send i r =>
    simp only [step] at h
    split at h
    next hi =>
      cases hflag : s.connected with
      | true =>
        rw [if_pos hflag] at h
        obtain rfl := Option.some.inj h
        exact .sendUp i r hi hflag
      | false =>
        rw [if_neg (by simp [hflag])] at h
        obtain rfl := Option.some.inj h
        exact .sendDown i r hi hflag
    next => cases h
  | lock i =>
    simp only [step] at h
    split at h
    next r hi hmu =>
      obtain rfl := Option.some.inj h
      exact .lock i hi hmu
    next => cases h
  | look i =>
    simp only [step] at h
    split at h
    next r hi =>
      split at h
      next hconn =>
        obtain rfl := Option.some.inj h
        exact .lookDown i hi hconn
      next c hconn =>
        obtain rfl := Option.some.inj h
        exact .lookUp i hi hconn
    next => cases h
  | write i ok =>
    simp only [step] at h
    split at h
    next r c hi =>
      cases ok with
      | true =>
        obtain ⟨hopen, ⟨⟩⟩ := Option.ite_none_left_eq_some.mp h
        exact .written i hi fun hc => hopen ⟨rfl, hc⟩
      | false =>
        obtain ⟨-, ⟨⟩⟩ := Option.ite_none_left_eq_some.mp h
        exact .unwritten i hi
    next => cases h

/-! ## Connections and writers -/

/-- **One connection at a time, and only accepted ones are written to.** -/
structure State.Disciplined (s : State) : Prop where
  /-- `Run` is at the newest connection. -/
  newest : ∀ c, s.pc.conn = some c → c + 1 = s.dialed
  /-- All others are closed. -/
  others_closed : ∀ c < s.dialed, c ∉ s.closed → s.pc.conn = some c
  /-- Writers find the connection `Run` is at, and none before its handshake. -/
  conn_eq : s.conn = s.pc.shared
  /-- The flag is set while `Run` is in the read loop, and then until `Run` clears it. -/
  flag_eq : s.connected = s.pc.flag
  /-- The connection that `Run` goes on with has had its handshake accepted. -/
  welcomed : ∀ c, s.pc.welcomed = some c → c ∈ s.accepted
  /-- Calls that look for a connection or write have the mutex. -/
  holds : ∀ i, (∃ r, s.senders i = .holding r) ∨ (∃ r c, s.senders i = .writing r c) →
    s.mu = some i
  /-- Calls write on the connection that is there for writers. -/
  target : ∀ i r c, s.senders i = .writing r c → s.conn = some c
  /-- What was written was written on the newest connection of the time, after its handshake. -/
  written : ∀ e ∈ s.calls, ∀ c, e.written = some c → c ∈ s.accepted ∧ c + 1 = e.dialed

section Lemmas

variable {s s' : State}

/-- A connection that is there for writers has had its handshake. -/
lemma Pc.welcomed_of_shared {pc : Pc} {c : ℕ} (h : pc.shared = some c) :
    pc.welcomed = some c ∧ pc.conn = some c := by
  cases pc <;> simp_all [Pc.shared, Pc.welcomed, Pc.conn]

/-- A step of `Run` that leaves writers and their connection alone. -/
lemma State.Disciplined.runs (h : s.Disciplined)
    (hnewest : ∀ c, s'.pc.conn = some c → c + 1 = s'.dialed)
    (hothers : ∀ c < s'.dialed, c ∉ s'.closed → s'.pc.conn = some c)
    (hconn : s'.conn = s'.pc.shared) (hflag : s'.connected = s'.pc.flag)
    (hwelcomed : ∀ c, s'.pc.welcomed = some c → c ∈ s'.accepted)
    (hsame : s'.conn = s.conn ∨ s.mu = none) (haccepted : ∀ c ∈ s.accepted, c ∈ s'.accepted)
    (hsenders : s'.senders = s.senders) (hmu : s'.mu = s.mu) (hcalls : s'.calls = s.calls) :
    s'.Disciplined := by
  refine ⟨hnewest, hothers, hconn, hflag, hwelcomed, ?_, fun i r c hi => ?_, fun e he c hc => ?_⟩
  · rw [hsenders, hmu]
    exact h.holds
  · rw [hsenders] at hi
    rcases hsame with hsame | hfree
    · rw [hsame]
      exact h.target i r c hi
    · have hheld := h.holds i (.inr ⟨r, c, hi⟩)
      rw [hfree] at hheld
      cases hheld
  · rw [hcalls] at he
    obtain ⟨hc, hnew⟩ := h.written e he c hc
    exact ⟨haccepted c hc, hnew⟩

/-- A step of the writer `i` keeps the discipline if it leaves `Run` and the connections alone,
takes the mutex only when it is free, and writes only on the connection it found under the mutex. -/
lemma State.Disciplined.writes (h : s.Disciplined) {i : ℕ} {x : Sender}
    (hsenders : s'.senders = Function.update s.senders i x)
    (hrun : (s'.pc, s'.conn, s'.connected, s'.dialed) = (s.pc, s.conn, s.connected, s.dialed))
    (hlists : (s'.closed, s'.accepted) = (s.closed, s.accepted))
    (hmu : s'.mu = s.mu ∨ s.mu = none ∨ s.mu = some i)
    (hx : (∃ r, x = .holding r) ∨ (∃ r c, x = .writing r c) → s'.mu = some i)
    (htarget : ∀ r c, x = .writing r c → s.conn = some c)
    (hcalls : ∀ e ∈ s'.calls, e ∈ s.calls ∨ ∀ c, e.written = some c →
      c ∈ s.accepted ∧ c + 1 = e.dialed) : s'.Disciplined := by
  simp only [Prod.mk.injEq] at hrun hlists
  obtain ⟨hpc, hconn, hflag, hdialed⟩ := hrun
  obtain ⟨hclosed, haccepted⟩ := hlists
  refine ⟨?_, ?_, ?_, ?_, ?_, fun j hj => ?_, fun j r c hj => ?_, fun e he c hc => ?_⟩
  · rw [hpc, hdialed]
    exact h.newest
  · rw [hpc, hdialed, hclosed]
    exact h.others_closed
  · rw [hpc, hconn]
    exact h.conn_eq
  · rw [hpc, hflag]
    exact h.flag_eq
  · rw [hpc, haccepted]
    exact h.welcomed
  · by_cases hji : j = i
    · subst hji
      rw [hsenders, Function.update_self] at hj
      exact hx hj
    · rw [hsenders, Function.update_of_ne hji] at hj
      have hheld := h.holds j hj
      rcases hmu with hmu | hmu | hmu
      · rw [hmu, hheld]
      · rw [hmu] at hheld
        cases hheld
      · rw [hmu] at hheld
        exact absurd (Option.some.inj hheld).symm hji
  · rw [hconn]
    by_cases hji : j = i
    · subst hji
      rw [hsenders, Function.update_self] at hj
      exact htarget r c hj
    · rw [hsenders, Function.update_of_ne hji] at hj
      exact h.target j r c hj
  · rw [haccepted]
    rcases hcalls e he with he | he
    · exact h.written e he c hc
    · exact he c hc

/-- A call that returns an error leaves no trace of a connection. -/
lemma mem_returned_none {i : ℕ} {r : Report} {e : Call} (he : e ∈ (s.returned i r none).calls) :
    e ∈ s.calls ∨ ∀ c, e.written = some c → c ∈ s.accepted ∧ c + 1 = e.dialed := by
  rcases List.mem_append.mp he with he | he
  · exact .inl he
  · refine .inr fun c hc => ?_
    rw [List.mem_singleton.mp he] at hc
    cases hc

/-- **Every step keeps the discipline** of connections and writers. -/
theorem State.Disciplined.step (h : s.Disciplined) {l : Label} (hstep : step s l = some s') :
    s'.Disciplined := by
  -- what the place of `Run` says of the state before the step
  have hconn := h.conn_eq
  have hflag := h.flag_eq
  have hnewest := h.newest
  have hothers := h.others_closed
  have hwelcomed := h.welcomed
  cases move_of_step hstep with
  | dialed hpc =>
    rw [hpc] at hconn hflag hothers
    refine h.runs (fun c hc => ?_) (fun c hc hopen => ?_) hconn hflag (fun c hc => by cases hc)
      (.inl rfl) (fun _ => id) rfl rfl rfl
    · rw [← Option.some.inj hc]
    · rcases Nat.lt_succ_iff_lt_or_eq.mp hc with hc | rfl
      · cases hothers c hc hopen
      · rfl
  | welcome hpc =>
    rw [hpc] at hconn hflag hnewest hothers
    refine h.runs hnewest hothers hconn hflag (fun c hc => ?_) (.inl rfl)
      (fun c => List.mem_append_left _) rfl rfl rfl
    rw [← Option.some.inj hc]
    exact List.mem_append_right _ (List.mem_singleton_self _)
  | discard hpc | close hpc =>
    rw [hpc] at hconn hflag hothers
    refine h.runs (fun c hc => by cases hc) (fun c hc hopen => ?_) hconn hflag
      (fun c hc => by cases hc) (.inl rfl) (fun _ => id) rfl rfl rfl
    rw [List.mem_append, not_or] at hopen
    refine absurd ?_ hopen.2
    rw [← Option.some.inj (hothers c hc hopen.1)]
    exact List.mem_singleton_self _
  | publish hpc hmu =>
    rw [hpc] at hconn hflag hnewest hothers hwelcomed
    exact h.runs hnewest hothers rfl hflag hwelcomed (.inr hmu) (fun _ => id) rfl rfl rfl
  | withdraw hpc hmu =>
    rw [hpc] at hconn hflag hnewest hothers hwelcomed
    refine h.runs hnewest hothers ?_ hflag hwelcomed (.inr hmu) (fun _ => id) rfl rfl rfl
    exact if_pos hconn
  | flag hpc | unflag hpc =>
    rw [hpc] at hconn hflag hnewest hothers hwelcomed
    exact h.runs hnewest hothers hconn rfl hwelcomed (.inl rfl) (fun _ => id) rfl rfl rfl
  | broken hpc =>
    rw [hpc] at hconn hflag hnewest hothers hwelcomed
    exact h.runs hnewest hothers hconn hflag hwelcomed (.inl rfl) (fun _ => id) rfl rfl rfl
  | unreachable hpc | retry _ hpc | wake hpc | refused _ hpc =>
    rw [hpc] at hconn hflag hnewest hothers
    exact h.runs hnewest hothers hconn hflag (fun c hc => by cases hc) (.inl rfl) (fun _ => id) rfl
      rfl rfl
  | stop hpc hdone =>
    have hnone : s.pc.conn = none ∧ s.pc.shared = none ∧ s.pc.flag = false := by
      rcases hpc with hpc | ⟨auth, hpc⟩ <;> rw [hpc] <;> exact ⟨rfl, rfl, rfl⟩
    rw [hnone.1] at hothers
    rw [hnone.2.1] at hconn
    rw [hnone.2.2] at hflag
    exact h.runs (fun c hc => by cases hc) hothers hconn hflag (fun c hc => by cases hc) (.inl rfl)
      (fun _ => id) rfl rfl rfl
  | cancel =>
    exact h.runs hnewest hothers hconn hflag hwelcomed (.inl rfl) (fun _ => id) rfl rfl rfl
  | closeNow c hc =>
    refine h.runs hnewest (fun c' hc' hopen => hothers c' hc' fun hmem => hopen ?_) hconn hflag
      hwelcomed (.inl rfl) (fun _ => id) rfl rfl rfl
    exact List.mem_append_left _ hmem
  | sendUp i r hi hup =>
    exact h.writes rfl rfl rfl (.inl rfl) (by simp) (by simp) fun e he => .inl he
  | sendDown i r hi hdown =>
    exact h.writes rfl rfl rfl (.inl rfl) (by simp) (by simp)
      fun e he => mem_returned_none (i := i) he
  | lock i hi hmu =>
    exact h.writes rfl rfl rfl (.inr (.inl hmu)) (fun _ => rfl) (by simp) fun e he => .inl he
  | lookDown i hi hnone =>
    have hheld := h.holds i (.inl ⟨_, hi⟩)
    exact h.writes rfl rfl rfl (.inr (.inr hheld)) (by simp) (by simp) fun e he =>
      mem_returned_none (i := i) he
  | lookUp i hi hsome =>
    have hheld := h.holds i (.inl ⟨_, hi⟩)
    refine h.writes rfl rfl rfl (.inl rfl) (fun _ => hheld) (fun r c hx => ?_) fun e he => .inl he
    cases hx
    exact hsome
  | written i hi hopen =>
    have hheld := h.holds i (.inr ⟨_, _, hi⟩)
    refine h.writes rfl rfl rfl (.inr (.inr hheld)) (by simp) (by simp) fun e he => ?_
    rcases List.mem_append.mp he with he | he
    · exact .inl he
    · refine .inr fun c' hc' => ?_
      rw [List.mem_singleton.mp he] at hc' ⊢
      obtain rfl := Option.some.inj hc'
      -- the connection is the one `Run` is at
      have hshared := hconn.symm.trans (h.target i _ _ hi)
      obtain ⟨hwel, hat⟩ := Pc.welcomed_of_shared hshared
      exact ⟨hwelcomed _ hwel, hnewest _ hat⟩
  | unwritten i hi =>
    have hheld := h.holds i (.inr ⟨_, _, hi⟩)
    exact h.writes rfl rfl rfl (.inr (.inr hheld)) (by simp) (by simp) fun e he =>
      mem_returned_none (i := i) he

/-- Before the first dial there is no connection and no call, and the discipline holds. -/
lemma disciplined_init : ({} : State).Disciplined where
  newest _ hc := by cases hc
  others_closed _ hc := absurd hc (Nat.not_lt_zero _)
  conn_eq := rfl
  flag_eq := rfl
  welcomed _ hc := by cases hc
  holds _ hi := by simp at hi
  target _ _ _ hi := by cases hi
  written _ he := absurd he List.not_mem_nil

/-! ## After the end -/

/-- Nothing is there for writers any more. -/
structure State.Ended (s : State) : Prop where
  /-- `Run` has returned. -/
  pc : s.pc = .stopped
  /-- There is no connection. -/
  conn : s.conn = none
  /-- No call is writing. -/
  idle : ∀ i r c, s.senders i ≠ .writing r c

/-- The reports written, with their connections. -/
def State.writtenCalls (s : State) : List Call := s.calls.filter fun e => e.written.isSome

/-- Where `Run` has returned, there is nothing for writers. -/
lemma State.Disciplined.ended (h : s.Disciplined) (hpc : s.pc = .stopped) : s.Ended := by
  have hconn : s.conn = none := by
    rw [h.conn_eq, hpc]
    rfl
  refine ⟨hpc, hconn, fun i r c hi => ?_⟩
  have htarget := h.target i r c hi
  rw [hconn] at htarget
  cases htarget

/-- When `Run` has returned, a step writes on no connection and dials none. -/
lemma State.Ended.step (h : s.Ended) {l : Label} (hstep : step s l = some s') :
    s'.Ended ∧ s'.writtenCalls = s.writtenCalls ∧ s'.dialed = s.dialed := by
  have hpc := h.pc
  have hother : ∀ {i : ℕ} {x : Sender}, (∀ r c, x ≠ .writing r c) →
      ∀ j r c, Function.update s.senders i x j ≠ .writing r c := by
    intro i x hx j r c
    by_cases hji : j = i
    · subst hji
      rw [Function.update_self]
      exact hx r c
    · rw [Function.update_of_ne hji]
      exact h.idle j r c
  have herr : ∀ i r, (s.returned i r none).writtenCalls = s.writtenCalls := by
    intro i r
    simp [State.writtenCalls, State.returned]
  cases move_of_step hstep with
  | cancel => exact ⟨⟨hpc, h.conn, h.idle⟩, rfl, rfl⟩
  | closeNow c hc => exact ⟨⟨hpc, h.conn, h.idle⟩, rfl, rfl⟩
  | sendUp i r hi hup => exact ⟨⟨hpc, h.conn, hother (by simp)⟩, rfl, rfl⟩
  | sendDown i r hi hdown => exact ⟨⟨hpc, h.conn, hother (by simp)⟩, herr i r, rfl⟩
  | lock i hi hmu => exact ⟨⟨hpc, h.conn, hother (by simp)⟩, rfl, rfl⟩
  | lookDown i hi hnone => exact ⟨⟨hpc, h.conn, hother (by simp)⟩, herr i _, rfl⟩
  | lookUp i hi hsome =>
    rw [h.conn] at hsome
    cases hsome
  | written i hi _ | unwritten i hi => exact absurd hi (h.idle i _ _)
  | stop hstop _ =>
    rcases hstop with hat | ⟨auth, hat⟩ <;> rw [hpc] at hat <;> cases hat
  | dialed hat | unreachable hat | welcome hat | refused _ hat | discard hat | publish hat _
  | flag hat | broken hat | unflag hat | withdraw hat _ | close hat | retry _ hat | wake hat =>
    rw [hpc] at hat
    cases hat

/-- The discipline holds in every state that is reached from the start. -/
lemma disciplined_reachable {ls : List Label} (hrun : run step {} ls = some s) : s.Disciplined :=
  invariant_all (fun h hstep => h.step hstep) disciplined_init hrun

end Lemmas

/-- **One connection at a time.** However `Run`, `keepalive` and any number of calls of `SendReport`
interleave, and whatever fails: every connection but the one `Run` is at has been closed; the flag
is set only while `Run` reads from a connection whose handshake has succeeded; calls write one at a
time, on that connection; and each report that was written was written on the newest connection of
the time, after its handshake. -/
theorem disciplined_of_run (ls : List Label) (s : State) (hrun : run step {} ls = some s) :
    s.Disciplined := disciplined_reachable hrun

/-- A report. -/
def doneReport : Report := { commandID := "c1", status := "succeeded" }

/-- A call finds the flag set, but the connection breaks before it has the mutex. `Run` has to wait
for it, the write fails, and the next connection takes the report. -/
def brokenWrite : List Label :=
  [.dial true, .handshake none, .next, .next, .send 0 doneReport, .lock 0, .look 0, .closeNow 0,
    .broken, .next, .write 0 false, .next, .next, .retry 900000000, .wake, .dial true,
    .handshake none, .next, .next, .send 0 doneReport, .lock 0, .look 0, .write 0 true]

/-- The report is written on the second connection. -/
theorem disciplined_brokenWrite :
    ∃ s, run step {} brokenWrite = some s ∧ s.calls.map (·.written) = [none, some 1] ∧
      s.Disciplined := by
  obtain ⟨s, hs, hcalls⟩ := Option.map_eq_some_iff.mp (show Option.map
    (fun s : State => s.calls.map (·.written)) (run step {} brokenWrite) = some [none, some 1]
      by decide +kernel)
  exact ⟨s, hs, hcalls, disciplined_of_run brokenWrite s hs⟩

/-- **Nothing is written after the end.** Once `Run` has returned, in whatever state calls of
`SendReport` are, no report is written any more, no connection is dialed, and all are closed. -/
theorem silent_after_stop (ls ls' : List Label) (s s' : State) (hrun : run step {} ls = some s)
    (hpc : s.pc = .stopped) (hrun' : run step s ls' = some s') :
    s'.pc = .stopped ∧ s'.writtenCalls = s.writtenCalls ∧ s'.dialed = s.dialed ∧
      ∀ c < s'.dialed, c ∈ s'.closed := by
  have hended : s'.Ended ∧ s'.writtenCalls = s.writtenCalls ∧ s'.dialed = s.dialed :=
    invariant_all (I := fun t => t.Ended ∧ t.writtenCalls = s.writtenCalls ∧ t.dialed = s.dialed)
      (fun h hstep => by
        obtain ⟨hend, hsame, hdialed⟩ := h.1.step hstep
        exact ⟨hend, hsame.trans h.2.1, hdialed.trans h.2.2⟩)
      ⟨(disciplined_reachable hrun).ended hpc, rfl, rfl⟩ hrun'
  have hwhole : run step {} (ls ++ ls') = some s' := by
    rw [run_append, hrun]
    exact hrun'
  refine ⟨hended.1.pc, hended.2.1, hended.2.2, fun c hc => ?_⟩
  by_contra hopen
  have hat := (disciplined_reachable hwhole).others_closed c hc hopen
  rw [hended.1.pc] at hat
  cases hat

/-- A call is between the flag and the mutex when the agent stops. -/
def stopMeanwhile : List Label :=
  [.dial true, .handshake none, .next, .next, .send 0 doneReport, .cancel, .broken, .next, .next,
    .next, .next]

/-- A call that found the flag set before `Run` returned gets the mutex after it, and writes
nothing. -/
theorem silent_stopMeanwhile :
    ∃ s s', run step {} stopMeanwhile = some s ∧ s.senders 0 = .flagged doneReport ∧
      run step s [.lock 0, .look 0] = some s' ∧ s'.calls.length = 1 ∧
      s'.pc = .stopped ∧ s'.writtenCalls = s.writtenCalls ∧ s'.dialed = s.dialed ∧
      ∀ c < s'.dialed, c ∈ s'.closed := by
  obtain ⟨s, hs, hend⟩ := Option.map_eq_some_iff.mp (show Option.map
    (fun s : State => (s.pc, s.senders 0,
      (run step s [.lock 0, .look 0]).map fun s' => s'.calls.length))
    (run step {} stopMeanwhile) = some (.stopped, .flagged doneReport, some 1) by decide +kernel)
  simp only [Prod.mk.injEq] at hend
  obtain ⟨hpc, hsender, hlater⟩ := hend
  obtain ⟨s', hs', hlen⟩ := Option.map_eq_some_iff.mp hlater
  exact ⟨s, s', hs, hsender, hs', hlen, silent_after_stop stopMeanwhile _ s s' hs hpc hs'⟩

end K8sAgent.WsClient
