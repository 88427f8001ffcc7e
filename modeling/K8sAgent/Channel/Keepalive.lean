import Mathlib.Data.Int.Notation
import Mathlib.Tactic.Lemma
import K8sAgent.Lib.Transition

set_option relaxedAutoImplicit false
set_option autoImplicit false

/-!
# Keeping a connection alive

`keepalive` of `internal/wsclient/wsclient.go`, next to the read loop that starts it, with the times
at which things happen. A ticker fires at a fixed period and keeps one tick for a receiver that is
busy. At each tick the goroutine looks how long ago the last sign of life was, and closes the
connection if that is too long; else it sends a ping and waits for the pong, for a bounded time, and
closes the connection if none comes. A pong is a sign of life, and so is every frame that is read.

There are two clocks. The ticker and the time allowed for a pong go by the monotonic clock; the last
sign of life is a reading of the wall clock, which may be set at any time, and so is the time it is
compared with. Between a reading of the wall clock and its being stored, the other goroutine may
store a later one, which is then lost.

Goroutines may be late. One bound serves for all of it: from the first sign of life to the start of
the ticker, from a reading of the clock to its being stored, from when a tick can be received to the
check, and from the end of the time allowed for a pong to the end of the wait.

## Main definitions

* `K8sAgent.Keepalive.Timing` — the periods and bounds.
* `K8sAgent.Keepalive.State`, `Label`, `step` — the goroutines, with the clocks.
* `K8sAgent.Keepalive.Timely` — the goroutines are in time.
* `K8sAgent.Keepalive.Steady` — how far the wall clock is set.

## Main results

* `K8sAgent.Keepalive.move_of_step` — what a step can be.
* `K8sAgent.Keepalive.timely_of_run` — the goroutines are in time in every run.
* `K8sAgent.Keepalive.not_silent_of_run` — a connection is only closed for a ping without pong.
-/

namespace K8sAgent.Keepalive

open Transition

/-! ## The goroutines -/

/-- Periods and bounds, in nanoseconds. -/
structure Timing where
  /-- The period of the ticker. -/
  pingEvery : ℕ
  /-- How long a pong may take. -/
  pongWithin : ℕ
  /-- How long the other side may be silent. -/
  silenceAfter : ℕ
  /-- How late goroutines may be. -/
  lag : ℕ

/-- The timing of the client: 25, 30 and 60 seconds. -/
def clientTiming (lag : ℕ) : Timing where
  pingEvery := 25 * 1000000000
  pongWithin := 30 * 1000000000
  silenceAfter := 60 * 1000000000
  lag := lag

/-- A reading of the wall clock that is to be stored, with the time at which it was made. -/
structure Stamp where
  /-- What the wall clock showed. -/
  reading : ℤ
  /-- The time on the monotonic clock. -/
  since : ℕ
  deriving DecidableEq

/-- Where the goroutine is in its loop. -/
inductive Place : Type where
  /-- At the ticker. -/
  | waiting
  /-- A tick that could be received since then was received, and this sign of life was loaded. -/
  | checking (last : ℤ) (since : ℕ)
  /-- Waiting for a pong, since then. -/
  | pinging (since : ℕ)
  /-- The pong has come, and the clock has been read. -/
  | answered (stamp : Stamp)
  deriving DecidableEq

/-- Where the goroutine is. -/
inductive Pc : Type where
  /-- The goroutine was started then, and there is no ticker yet. -/
  | starting (since : ℕ)
  /-- In its loop. The ticker fires next at `next`; `ready` is the time since when there is a tick
  that can be received. -/
  | looping (next : ℕ) (ready : Option ℕ) (place : Place)
  /-- The connection was silent for too long, and is closed. -/
  | silent
  /-- A ping has failed, and the connection is closed. -/
  | dead
  /-- The context is done. -/
  | stopped
  deriving DecidableEq

/-- The goroutine is done. -/
def Pc.ended : Pc → Bool
  | .silent | .dead | .stopped => true
  | .starting _ | .looping _ _ _ => false

/-- The goroutine has closed the connection. -/
def Pc.closed : Pc → Bool
  | .silent | .dead => true
  | .starting _ | .looping _ _ _ | .stopped => false

/-- The two goroutines and the clocks. -/
structure State where
  /-- The monotonic clock. -/
  now : ℕ
  /-- How far the wall clock is ahead of it. -/
  ahead : ℤ
  /-- Where the keepalive goroutine is. -/
  pc : Pc
  /-- The last sign of life, on the wall clock. -/
  lastActivity : ℤ
  /-- The read loop has read a frame and the clock. -/
  reader : Option Stamp := none

/-- The wall clock. -/
def State.wall (s : State) : ℤ := s.now + s.ahead

/-- What can happen next. -/
inductive Label : Type where
  /-- Time passes. -/
  | elapse (t : ℕ)
  /-- The wall clock is set. -/
  | set (ahead : ℤ)
  /-- The goroutine makes its ticker. -/
  | launch
  /-- The ticker fires. -/
  | tick
  /-- The goroutine receives a tick and loads the last sign of life. -/
  | receive
  /-- The goroutine compares it with the clock, and goes on to send a ping. -/
  | check
  /-- The pong has come, and the goroutine reads the clock. -/
  | pong
  /-- The goroutine stores what it has read. -/
  | record
  /-- No pong has come in time. -/
  | timeout
  /-- The ping fails, or the context is done meanwhile. -/
  | broken
  /-- The read loop has read a frame, and reads the clock. -/
  | frame
  /-- The read loop stores what it has read. -/
  | store
  /-- The goroutine finds the context done. -/
  | cancel
  deriving DecidableEq

variable (τ : Timing)

/-- The time until which the goroutine is not late with what it does next; at the ticker, this is
by the time `free` at which there is a tick. -/
def Place.limit (free : ℕ) : Place → ℕ
  | .waiting => free + τ.lag
  | .checking _ since => since + τ.lag
  | .pinging since => since + τ.pongWithin + τ.lag
  | .answered stamp => stamp.since + τ.lag

/-- At the time, neither the ticker nor the goroutine is late. -/
def Pc.Allows (t : ℕ) : Pc → Prop
  | .starting since => t ≤ since + τ.lag
  | .looping next ready place => t ≤ next ∧ t ≤ place.limit τ (ready.getD next)
  | .silent | .dead | .stopped => True

instance (t : ℕ) (pc : Pc) : Decidable (pc.Allows τ t) := by
  cases pc <;> unfold Pc.Allows <;> infer_instance

/-- At the time, nothing is late. -/
def State.Allows (s : State) (t : ℕ) : Prop :=
  s.pc.Allows τ t ∧ ∀ stamp ∈ s.reader, t ≤ stamp.since + τ.lag

instance (s : State) (t : ℕ) : Decidable (s.Allows τ t) := inferInstanceAs (Decidable (_ ∧ _))

/-- One step; `none` where it is not possible. -/
def step (s : State) : Label → Option State
  | .elapse t => if s.now ≤ t ∧ s.Allows τ t then some { s with now := t } else none
  | .set ahead => some { s with ahead := ahead }
  | .launch => match s.pc with
    | .starting _ => some { s with pc := .looping (s.now + τ.pingEvery) none .waiting }
    | _ => none
  | .tick => match s.pc with
    | .looping next ready place =>
      if s.now = next then
        -- a tick that has not been received stays, and the new one is dropped
        some { s with pc := .looping (next + τ.pingEvery) (some (ready.getD s.now)) place }
      else none
    | _ => none
  | .receive => match s.pc with
    | .looping next (some since) .waiting =>
      some { s with pc := .looping next none (.checking s.lastActivity since) }
    | _ => none
  | .check => match s.pc with
    | .looping next ready (.checking last _) =>
      if (τ.silenceAfter : ℤ) < s.wall - last then some { s with pc := .silent }
      else some { s with pc := .looping next ready (.pinging s.now) }
    | _ => none
  | .pong => match s.pc with
    | .looping next ready (.pinging _) =>
      some { s with pc := .looping next ready (.answered ⟨s.wall, s.now⟩) }
    | _ => none
  | .record => match s.pc with
    | .looping next ready (.answered stamp) =>
      some
        { s with
          lastActivity := stamp.reading
          -- a tick that came meanwhile can be received from now on
          pc := .looping next (ready.map fun _ => s.now) .waiting }
    | _ => none
  | .timeout => match s.pc with
    | .looping _ _ (.pinging since) =>
      if since + τ.pongWithin ≤ s.now then some { s with pc := .dead } else none
    | _ => none
  | .broken => match s.pc with
    | .looping _ _ (.pinging _) => some { s with pc := .dead }
    | _ => none
  | .frame => match s.reader with
    | none => some { s with reader := some ⟨s.wall, s.now⟩ }
    | some _ => none
  | .store => match s.reader with
    | some stamp => some { s with lastActivity := stamp.reading, reader := none }
    | none => none
  | .cancel => match s.pc with
    | .looping _ _ .waiting => some { s with pc := .stopped }
    | _ => none

/-- The connection is made: the read loop has stored the time and starts the goroutine. -/
def start (now : ℕ) (ahead : ℤ) : State where
  now := now
  ahead := ahead
  pc := .starting now
  lastActivity := now + ahead

/-! ## What a step can be -/

/-- The steps, one by one. -/
inductive Move (s : State) : Label → State → Prop where
  /-- Time passes, and nothing is late. -/
  | elapse {t : ℕ} (hle : s.now ≤ t) (hallows : s.Allows τ t) :
      Move s (.elapse t) { s with now := t }
  /-- The wall clock is set. -/
  | set (ahead : ℤ) : Move s (.set ahead) { s with ahead := ahead }
  /-- There is a ticker. -/
  | launch {since : ℕ} (hpc : s.pc = .starting since) :
      Move s .launch { s with pc := .looping (s.now + τ.pingEvery) none .waiting }
  /-- The ticker fires. -/
  | tick {ready : Option ℕ} {place : Place} (hpc : s.pc = .looping s.now ready place) :
      Move s .tick
        { s with pc := .looping (s.now + τ.pingEvery) (some (ready.getD s.now)) place }
  /-- A tick is received. -/
  | receive {next since : ℕ} (hpc : s.pc = .looping next (some since) .waiting) :
      Move s .receive { s with pc := .looping next none (.checking s.lastActivity since) }
  /-- The other side was silent for too long. -/
  | silent {next since : ℕ} {ready : Option ℕ} {last : ℤ}
      (hpc : s.pc = .looping next ready (.checking last since))
      (hsilent : (τ.silenceAfter : ℤ) < s.wall - last) : Move s .check { s with pc := .silent }
  /-- The other side was not silent for too long, and a ping is sent. -/
  | ping {next since : ℕ} {ready : Option ℕ} {last : ℤ}
      (hpc : s.pc = .looping next ready (.checking last since))
      (hquiet : ¬(τ.silenceAfter : ℤ) < s.wall - last) :
      Move s .check { s with pc := .looping next ready (.pinging s.now) }
  /-- The pong comes. -/
  | pong {next since : ℕ} {ready : Option ℕ} (hpc : s.pc = .looping next ready (.pinging since)) :
      Move s .pong { s with pc := .looping next ready (.answered ⟨s.wall, s.now⟩) }
  /-- The pong is recorded. -/
  | record {next : ℕ} {ready : Option ℕ} {stamp : Stamp}
      (hpc : s.pc = .looping next ready (.answered stamp)) :
      Move s .record
        { s with
          lastActivity := stamp.reading
          pc := .looping next (ready.map fun _ => s.now) .waiting }
  /-- The ping is given up. -/
  | timeout {next since : ℕ} {ready : Option ℕ}
      (hpc : s.pc = .looping next ready (.pinging since)) (hlate : since + τ.pongWithin ≤ s.now) :
      Move s .timeout { s with pc := .dead }
  /-- The ping fails. -/
  | broken {next since : ℕ} {ready : Option ℕ}
      (hpc : s.pc = .looping next ready (.pinging since)) : Move s .broken { s with pc := .dead }
  /-- A frame is read. -/
  | frame (hreader : s.reader = none) :
      Move s .frame { s with reader := some ⟨s.wall, s.now⟩ }
  /-- A frame is recorded. -/
  | store {stamp : Stamp} (hreader : s.reader = some stamp) :
      Move s .store { s with lastActivity := stamp.reading, reader := none }
  /-- The context is done. -/
  | cancel {next : ℕ} {ready : Option ℕ} (hpc : s.pc = .looping next ready .waiting) :
      Move s .cancel { s with pc := .stopped }

section Lemmas

variable {τ} {s s' : State}

/-- **Inversion of a step**: one of the moves of the clocks, of the keepalive goroutine, or of the
read loop. -/
theorem move_of_step {l : Label} (h : step τ s l = some s') : Move τ s l s' := by
  cases l with
  | elapse t =>
    obtain ⟨⟨hle, hallows⟩, ⟨⟩⟩ := Option.ite_none_right_eq_some.mp h
    exact .elapse hle hallows
  | set ahead =>
    cases h
    exact .set ahead
  | launch =>
    simp only [step] at h
    split at h
    next since hpc =>
      cases h
      exact .launch hpc
    next => cases h
  | tick =>
    simp only [step] at h
    split at h
    next next ready place hpc =>
      obtain ⟨rfl, ⟨⟩⟩ := Option.ite_none_right_eq_some.mp h
      exact .tick hpc
    next => cases h
  | receive =>
    simp only [step] at h
    split at h
    next next since hpc =>
      cases h
      exact .receive hpc
    next => cases h
  | check =>
    simp only [step] at h
    split at h
    next next ready last since hpc =>
      split_ifs at h with hsilent
      · cases h
        exact .silent hpc hsilent
      · cases h
        exact .ping hpc hsilent
    next => cases h
  | pong =>
    simp only [step] at h
    split at h
    next next ready since hpc =>
      cases h
      exact .pong hpc
    next => cases h
  | record =>
    simp only [step] at h
    split at h
    next next ready stamp hpc =>
      cases h
      exact .record hpc
    next => cases h
  | timeout =>
    simp only [step] at h
    split at h
    next next ready since hpc =>
      obtain ⟨hlate, ⟨⟩⟩ := Option.ite_none_right_eq_some.mp h
      exact .timeout hpc hlate
    next => cases h
  | broken =>
    simp only [step] at h
    split at h
    next next ready since hpc =>
      cases h
      exact .broken hpc
    next => cases h
  | frame =>
    simp only [step] at h
    split at h
    next hreader =>
      cases h
      exact .frame hreader
    next => cases h
  | store =>
    simp only [step] at h
    split at h
    next stamp hreader =>
      cases h
      exact .store hreader
    next => cases h
  | cancel =>
    simp only [step] at h
    split at h
    next next ready hpc =>
      cases h
      exact .cancel hpc
    next => cases h

end Lemmas

/-! ## What holds at all times -/

/-- What the goroutine is at began in the past. -/
def Place.Past (now : ℕ) : Place → Prop
  | .waiting => True
  | .checking _ since | .pinging since => since ≤ now
  | .answered stamp => stamp.since ≤ now

/-- The goroutine is in time: what it is at began in the past, the ticker fires within a period, and
nothing is late. -/
def Pc.Timely (now : ℕ) : Pc → Prop
  | .starting since => since ≤ now ∧ now ≤ since + τ.lag
  | .looping next ready place => now ≤ next ∧ next ≤ now + τ.pingEvery ∧
      (∀ since ∈ ready, since ≤ now) ∧ place.Past now ∧ now ≤ place.limit τ (ready.getD next)
  | .silent | .dead | .stopped => True

/-- Both goroutines are in time. -/
structure Timely (s : State) : Prop where
  /-- The keepalive goroutine is in time. -/
  pc : s.pc.Timely τ s.now
  /-- The read loop stores what it has read before long. -/
  reader : ∀ stamp ∈ s.reader, stamp.since ≤ s.now ∧ s.now ≤ stamp.since + τ.lag

section Lemmas

variable {τ} {s s' : State}

/-- A `place` whose time is not after `now` has a time not after any later `t`. -/
lemma Place.Past.mono {place : Place} {now t : ℕ} (h : place.Past now) (hle : now ≤ t) :
    place.Past t := by
  cases place with
  | waiting => trivial
  | checking | pinging | answered => exact Nat.le_trans h hle

/-- Time passes as far as nothing is late. -/
lemma Pc.Timely.elapse {pc : Pc} {now t : ℕ} (h : pc.Timely τ now) (hle : now ≤ t)
    (hallows : pc.Allows τ t) : pc.Timely τ t := by
  cases pc with
  | starting since => exact ⟨Nat.le_trans h.1 hle, hallows⟩
  | looping next ready place =>
    obtain ⟨-, hnext, hready, hpast, -⟩ := h
    exact ⟨hallows.1, by omega, fun since hsince => Nat.le_trans (hready since hsince) hle,
      hpast.mono hle, hallows.2⟩
  | silent | dead | stopped => trivial

/-- **Every step keeps both goroutines in time.** -/
theorem Timely.step (h : Timely τ s) {l : Label} (hstep : step τ s l = some s') :
    Timely τ s' := by
  obtain ⟨hpc, hreader⟩ := h
  cases move_of_step hstep with
  | elapse hle hallows =>
    exact ⟨hpc.elapse hle hallows.1, fun stamp hstamp =>
      ⟨Nat.le_trans (hreader stamp hstamp).1 hle, hallows.2 stamp hstamp⟩⟩
  | set ahead => exact ⟨hpc, hreader⟩
  | launch hp =>
    refine ⟨⟨Nat.le_add_right _ _, Nat.le_refl _, by simp, trivial, ?_⟩, hreader⟩
    simp only [Place.limit, Option.getD_none]
    omega
  | tick hp =>
    rename_i ready place
    rw [hp] at hpc
    obtain ⟨-, -, hready, hpast, hlimit⟩ := hpc
    refine ⟨⟨Nat.le_add_right _ _, Nat.le_refl _, fun since hsince => ?_, hpast, hlimit⟩, hreader⟩
    rw [← Option.mem_some.mp hsince]
    cases ready with
    | none => exact Nat.le_refl _
    | some r => exact hready r rfl
  | receive hp =>
    rw [hp] at hpc
    obtain ⟨hnow, hnext, hready, -, hlimit⟩ := hpc
    exact ⟨⟨hnow, hnext, by simp, hready _ rfl, hlimit⟩, hreader⟩
  | silent hp hsilent => exact ⟨trivial, hreader⟩
  | ping hp hquiet =>
    rw [hp] at hpc
    obtain ⟨hnow, hnext, hready, -, -⟩ := hpc
    refine ⟨⟨hnow, hnext, hready, Nat.le_refl _, ?_⟩, hreader⟩
    simp only [Place.limit]
    omega
  | pong hp =>
    rw [hp] at hpc
    obtain ⟨hnow, hnext, hready, -, -⟩ := hpc
    exact ⟨⟨hnow, hnext, hready, Nat.le_refl _, Nat.le_add_right _ _⟩, hreader⟩
  | record hp =>
    rename_i next ready stamp
    rw [hp] at hpc
    obtain ⟨hnow, hnext, -, -, -⟩ := hpc
    cases ready with
    | none => exact ⟨⟨hnow, hnext, by simp, trivial, Nat.le_add_right_of_le hnow⟩, hreader⟩
    | some r => exact ⟨⟨hnow, hnext, by simp, trivial, Nat.le_add_right _ _⟩, hreader⟩
  | timeout hp hlate => exact ⟨trivial, hreader⟩
  | broken hp => exact ⟨trivial, hreader⟩
  | frame hr =>
    refine ⟨hpc, fun stamp hstamp => ?_⟩
    rw [← Option.mem_some.mp hstamp]
    exact ⟨Nat.le_refl _, Nat.le_add_right _ _⟩
  | store hr => exact ⟨hpc, fun _ hstamp => by cases hstamp⟩
  | cancel hp => exact ⟨trivial, hreader⟩

/-- Both goroutines are in time when the connection is made. -/
lemma timely_start (now : ℕ) (ahead : ℤ) : Timely τ (start now ahead) :=
  ⟨⟨Nat.le_refl _, Nat.le_add_right _ _⟩, fun _ hstamp => by cases hstamp⟩

/-- **Both goroutines are in time in every run.** -/
theorem timely_of_run {now : ℕ} {ahead : ℤ} {ls : List Label}
    (hrun : run (step τ) (start now ahead) ls = some s) : Timely τ s :=
  invariant_all (fun h hstep => h.step hstep) (timely_start now ahead) hrun

end Lemmas

/-! ## Signs of life -/

/-- **The wall clock is steady**: it is ahead of the monotonic clock by `lo` at least, and by `gain`
more at most. -/
def Steady (lo : ℤ) (gain : ℕ) (ahead : ℤ) : Prop := lo ≤ ahead ∧ ahead ≤ lo + gain

instance (lo : ℤ) (gain : ℕ) (ahead : ℤ) : Decidable (Steady lo gain ahead) :=
  inferInstanceAs (Decidable (_ ∧ _))

/-- The last sign of life is recent, for a wall clock that is ahead by `lo` at least: within a
period and the lag of the tick that is received next, or has been received. -/
def Place.Recent (lo last : ℤ) (free : ℕ) : Place → Prop
  | .waiting => free + lo ≤ last + τ.pingEvery + τ.lag
  | .checking last since => since + lo ≤ last + τ.pingEvery + τ.lag
  | .pinging _ => True
  | .answered stamp => stamp.since + lo ≤ stamp.reading

/-- The goroutine has not found the connection silent, and will not at the next tick: signs of life
are recent, and none is from before its start. -/
def Pc.Recent (lo last : ℤ) (reader : Option Stamp) : Pc → Prop
  | .starting since => since + lo ≤ last ∧ ∀ stamp ∈ reader, since ≤ stamp.since
  | .looping next ready place => place.Recent τ lo last (ready.getD next)
  | .silent => False
  | .dead | .stopped => True

/-- Signs of life are recent, while the wall clock is steady. -/
structure Recent (lo : ℤ) (gain : ℕ) (s : State) : Prop where
  /-- The wall clock is steady. -/
  clock : Steady lo gain s.ahead
  /-- What the read loop has read is not in the past of the wall clock. -/
  reader : ∀ stamp ∈ s.reader, stamp.since + lo ≤ stamp.reading
  /-- The connection is not found silent. -/
  pc : s.pc.Recent τ lo s.lastActivity s.reader

section Lemmas

variable {τ} {s s' : State} {lo : ℤ} {gain : ℕ}

/-- A frame is recorded: it is not older than the lag. -/
lemma Recent.store (h : Recent τ lo gain s) (htime : Timely τ s) {stamp : Stamp}
    (hreader : s.reader = some stamp) :
    s.pc.Recent τ lo stamp.reading none := by
  obtain ⟨hpast, hlate⟩ := htime.reader stamp hreader
  have hreading := h.reader stamp hreader
  have hpc := h.pc
  have hpctime := htime.pc
  cases hp : s.pc with
  | starting since =>
    rw [hp] at hpc
    have hafter := hpc.2 stamp hreader
    refine ⟨?_, fun _ hstamp => by cases hstamp⟩
    omega
  | looping next ready place =>
    rw [hp] at hpc hpctime
    obtain ⟨-, hnext, hready, -, -⟩ := hpctime
    cases place with
    | waiting =>
      have hfree : ready.getD next ≤ s.now + τ.pingEvery := by
        cases ready with
        | none => exact hnext
        | some r => exact Nat.le_add_right_of_le (hready r rfl)
      simp only [Pc.Recent, Place.Recent]
      omega
    | checking | pinging | answered => exact hpc
  | silent =>
    rw [hp] at hpc
    exact hpc
  | dead | stopped => trivial

/-- **Every step keeps signs of life recent**, if a period, twice the lag and what the wall clock
may gain fit into the silence allowed. -/
theorem Recent.step (h : Recent τ lo gain s) (htime : Timely τ s)
    (hfit : τ.pingEvery + 2 * τ.lag + gain ≤ τ.silenceAfter) {l : Label}
    (hset : ∀ ahead, l = .set ahead → Steady lo gain ahead) (hstep : step τ s l = some s') :
    Recent τ lo gain s' := by
  obtain ⟨hclock, hreader, hpc⟩ := id h
  have hwall : (s.now : ℤ) + lo ≤ s.wall ∧ s.wall ≤ s.now + lo + gain := by
    have := hclock.1
    have := hclock.2
    rw [State.wall]
    omega
  cases move_of_step hstep with
  | elapse hle hallows => exact ⟨hclock, hreader, hpc⟩
  | set ahead => exact ⟨hset ahead rfl, hreader, hpc⟩
  | launch hp =>
    rw [hp] at hpc
    have hlate := htime.pc
    rw [hp] at hlate
    refine ⟨hclock, hreader, ?_⟩
    have hlast := hpc.1
    have hsoon := hlate.2
    simp only [Pc.Recent, Place.Recent, Option.getD_none]
    omega
  | tick hp =>
    refine ⟨hclock, hreader, ?_⟩
    rw [hp] at hpc
    exact hpc
  | receive hp =>
    refine ⟨hclock, hreader, ?_⟩
    rw [hp] at hpc
    exact hpc
  | silent hp hsilent =>
    -- the check is within the lag of the tick, and the sign of life within a period and the lag
    exfalso
    have hlate := htime.pc
    rw [hp] at hpc hlate
    have hlimit := hlate.2.2.2.2
    simp only [Pc.Recent, Place.Recent] at hpc
    simp only [Place.limit] at hlimit
    omega
  | ping hp hquiet => exact ⟨hclock, hreader, trivial⟩
  | pong hp => exact ⟨hclock, hreader, hwall.1⟩
  | record hp =>
    rename_i next ready stamp
    have hlate := htime.pc
    rw [hp] at hpc hlate
    obtain ⟨-, hnext, -, -, hlimit⟩ := hlate
    refine ⟨hclock, hreader, ?_⟩
    simp only [Pc.Recent, Place.Recent] at hpc ⊢
    simp only [Place.limit] at hlimit
    cases ready with
    | none =>
      simp only [Option.map_none, Option.getD_none]
      omega
    | some r =>
      simp only [Option.map_some, Option.getD_some]
      omega
  | timeout hp hlate => exact ⟨hclock, hreader, trivial⟩
  | broken hp => exact ⟨hclock, hreader, trivial⟩
  | frame hr =>
    refine ⟨hclock, fun stamp hstamp => ?_, ?_⟩
    · rw [← Option.mem_some.mp hstamp]
      exact hwall.1
    · have hpast := htime.pc
      cases hp : s.pc with
      | starting since =>
        rw [hp] at hpc hpast
        refine ⟨hpc.1, fun stamp hstamp => ?_⟩
        rw [← Option.mem_some.mp hstamp]
        exact hpast.1
      | looping | silent | dead | stopped =>
        rw [hp] at hpc
        exact hpc
  | store hr => exact ⟨hclock, fun _ hstamp => (by cases hstamp), h.store htime hr⟩
  | cancel hp => exact ⟨hclock, hreader, trivial⟩

/-- The first sign of life is that of the connection itself. -/
lemma recent_start (now : ℕ) {ahead : ℤ} (hahead : Steady lo gain ahead) :
    Recent τ lo gain (start now ahead) := by
  refine ⟨hahead, fun _ hstamp => (by cases hstamp), ?_, fun _ hstamp => by cases hstamp⟩
  have := hahead.1
  simp only [start]
  omega

end Lemmas

/-- **A connection is only closed for a ping without pong.** While the wall clock is steady, and if
a period, twice the lag and what the wall clock may gain fit into the silence allowed, the check for
silence never closes a connection, whatever is read on it and however late pongs are.

**Proof sketch.** Each tick is within a period and the lag of the last sign of life: of the start, a
lag before the ticker; of a pong, or of a frame read at most a lag before it was stored in place of
one. The check is within the lag of the tick. -/
theorem not_silent_of_run (τ : Timing) (lo : ℤ) (gain : ℕ)
    (hfit : τ.pingEvery + 2 * τ.lag + gain ≤ τ.silenceAfter) (now : ℕ) (ahead : ℤ)
    (hahead : Steady lo gain ahead) (ls : List Label)
    (hsteady : ∀ ahead, Label.set ahead ∈ ls → Steady lo gain ahead) (s : State)
    (hrun : run (step τ) (start now ahead) ls = some s) : s.pc ≠ .silent := by
  have hset : ∀ l ∈ ls, ∀ ahead, l = .set ahead → Steady lo gain ahead := by
    rintro _ hl ahead rfl
    exact hsteady ahead hl
  have hinv : Timely τ s ∧ Recent τ lo gain s :=
    invariant (P := fun _ l => ∀ ahead, l = .set ahead → Steady lo gain ahead)
      (I := fun s => Timely τ s ∧ Recent τ lo gain s)
      (fun h hl hstep => ⟨h.1.step hstep, h.2.step h.1 hfit hl hstep⟩)
      ⟨timely_start now ahead, recent_start now hahead⟩
      (along_of_forall_mem fun l hl _ => hset l hl) hrun
  intro hpc
  have hrecent := hinv.2.pc
  rw [hpc] at hrecent
  exact hrecent

/-- A frame and a late pong are recorded, the wall clock is set forward by a second, and the tick
that came meanwhile finds the pong. -/
def latePong : List Label :=
  [.elapse 200000000, .launch, .elapse 20000000000, .frame, .elapse 20100000000, .store,
    .elapse 25200000000, .tick, .elapse 25300000000, .receive, .check, .elapse 50200000000, .tick,
    .elapse 54000000000, .pong, .elapse 54400000000, .record, .set 1700000001000000000, .receive,
    .check]

/-- With the timing of the client and half a second of lag, the next ping is sent. -/
theorem not_silent_late_pong :
    ∃ s, run (step (clientTiming 500000000)) (start 0 1700000000000000000) latePong = some s ∧
      s.pc = .looping 75200000000 none (.pinging 54400000000) ∧ s.pc ≠ .silent := by
  obtain ⟨s, hs, hpc⟩ := Option.map_eq_some_iff.mp (show Option.map (fun s : State => s.pc)
    (run (step (clientTiming 500000000)) (start 0 1700000000000000000) latePong) =
      some (.looping 75200000000 none (.pinging 54400000000)) by decide +kernel)
  have hsteady : ∀ ahead, Label.set ahead ∈ latePong →
      Steady 1700000000000000000 1000000000 ahead := by
    intro ahead hmem
    obtain rfl : ahead = 1700000001000000000 := by simpa [latePong] using hmem
    decide
  exact ⟨s, hs, hpc, not_silent_of_run (clientTiming 500000000) 1700000000000000000 1000000000
    (by decide) 0 1700000000000000000 (by decide) latePong hsteady s hs⟩

/-- A wall clock that is set forward by 36 seconds makes a connection look silent. -/
example : (run (step (clientTiming 0)) (start 0 0)
    [.launch, .elapse 25000000000, .tick, .set 36000000000, .receive, .check]).map State.pc =
      some .silent := by decide

end K8sAgent.Keepalive
