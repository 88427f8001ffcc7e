import K8sAgent.Agent.Intake
import K8sAgent.Receiver.Ideal
import K8sAgent.Server.Mock

set_option relaxedAutoImplicit false
set_option autoImplicit false

/-!
# Commands from file to executor

The agent and the mock control plane as one system. The server starts from a command file; the agent
polls it, connects to it, and processes what it reads, element by element and frame by frame, in any
order. Answers are lost, writes fail and connections break at any time. What is sent are bytes. The
executor handles the commands it is started on in goroutines of their own; of these, it is followed
here whether they dereference a nil pointer, which ends the agent.

Calls of `process` do not overlap here; what happens if they do is in `K8sAgent.Receiver.Race`.

## Main definitions

* `K8sAgent.EndToEnd.State`, `Label`, `step` — the system.
* `K8sAgent.EndToEnd.due` — the commands that ought to be started, by what has arrived.
* `K8sAgent.EndToEnd.Exact` — what holds of every run.

## Main results

* `K8sAgent.EndToEnd.exact_of_run` — every command that arrives in time is started once, as it is in
  the file.
* `K8sAgent.EndToEnd.complete_of_answer` — the first answer is enough for every command to arrive.
-/

namespace K8sAgent.EndToEnd

open Encoding JsonReader Frames Http FifoWindow

/-! ## The system -/

/-- Agent and server, with the record of the run. -/
structure State where
  /-- The server. -/
  server : MockServer
  /-- The caches of the receiver. -/
  caches : Caches := .init
  /-- Elements of the last answer that are still to be processed. -/
  polled : List (Option Command) := []
  /-- Frames of the connection that are still to be read; `none` without a connection. -/
  inbox : Option (List Bytes) := none
  /-- Commands that goroutines of the executor are at. -/
  running : List Command := []
  /-- The process has ended: `process` was called with a nil command, or the executor has read the
  Helm part of a command without one. -/
  crashed : Bool := false
  /-- Record: the commands processed. -/
  arrivals : List Delivery := []
  /-- Record: the effects of each. -/
  effects : List (List Effect) := []

/-- What can happen next. -/
inductive Label : Type where
  /-- The agent polls with these reports; the answer may be lost. -/
  | poll (reports : List Report) (lost : Bool)
  /-- The next element of the answer is processed, at these clock readings. -/
  | process (checkedAt reportedAt : ℤ)
  /-- The agent connects; so many writes of the server succeed. -/
  | connect (writes : ℕ)
  /-- The next frame is read, at these clock readings. -/
  | read (checkedAt reportedAt : ℤ)
  /-- The connection breaks. -/
  | break
  /-- A goroutine of the executor comes to its end, by the answers that it gets to its requests; a
  drain that goes on retrying is given up after so many retries. -/
  | execute (i fuel : ℕ) (σ : ℕ → ∀ op, Ans op)

/-- The command an effect starts the executor on. -/
def starts : Effect → Option Command
  | .handleCommand cmd => some cmd
  | _ => none

/-- The agent processes an item. -/
def receive (a : Agent) (s : State) (x : Arrival) : State :=
  match x.item.pointer jsonFrames with
  | none => s
  | some none => { s with crashed := true }
  | some (some cmd) =>
    let d : Delivery := ⟨x.item.path, cmd, x.checkedAt, x.reportedAt⟩
    { s with
      caches := (a.receiver.process s.caches d).1
      running := s.running ++ (a.receiver.process s.caches d).2.filterMap starts
      arrivals := s.arrivals ++ [d]
      effects := s.effects ++ [(a.receiver.process s.caches d).2] }

/-- The commands of an answer, as the client has it. -/
def commandsOf : Except PostError PollResponse → List (Option Command)
  | .ok p => p.commands
  | .error _ => []

/-- The poll of an agent. -/
def request (a : Agent) (token : String) (s : MockServer) (reports : List Report) :
    MockServer.Outcome (List Report) :=
  s.exchange token [] fun authorization =>
    s.poll authorization (MockServer.pollBody a.cfg.clusterID reports)

/-- One step of an agent with the given token; `none` where it is not possible. -/
def step (a : Agent) (token : String) (s : State) : Label → Option State
  | .poll reports lost =>
    if s.crashed = false ∧ s.polled = [] then
      some
        { s with
          server := (request a token s.server reports).server
          polled := commandsOf (post PollResponse.codec
            (if lost then none else (request a token s.server reports).answer)) }
    else none
  | .process checkedAt reportedAt => match s.polled with
    | p :: ps =>
      if s.crashed = false then
        some (receive a { s with polled := ps } ⟨.element p, checkedAt, reportedAt⟩)
      else none
    | [] => none
  | .connect writes =>
    if s.crashed = false ∧ s.inbox = none then
      let greeted := s.server.ws (MockServer.greeting token a.cfg.clusterID) writes
      some
        { s with
          server := greeted.1
          inbox := if greeted.2.head?.map handshake = some .accepted then some greeted.2.tail
            else none }
    else none
  | .read checkedAt reportedAt => match s.inbox with
    | some (data :: frames) =>
      if s.crashed = false then
        if data.length > Frames.readLimit then some { s with inbox := none }
        else some (receive a { s with inbox := some frames }
          ⟨.frame true data, checkedAt, reportedAt⟩)
      else none
    | _ => none
  | .break => some { s with inbox := none }
  | .execute i fuel σ => match s.running[i]? with
    | some cmd =>
      if s.crashed = false then
        some
          { s with
            running := s.running.eraseIdx i
            crashed := decide (Interaction.resultFrom σ 0 (a.executor.handleCommand fuel cmd) =
              .nilDeref) }
      else none
    | none => none

/-- The system at first. -/
def start (server : MockServer) : State := { server := server }

/-- The commands that the executor was started on. -/
def State.started (s : State) : List Command := s.effects.flatten.filterMap starts

/-- The commands that arrived on a path. -/
def on (path : Path) (ds : List Delivery) : List Command :=
  (ds.filter fun d => d.path = path).map (·.cmd)

/-- The command is checked within five minutes of its time. -/
def InTime (d : Delivery) : Prop := |d.checkedAt - d.cmd.timestamp * 10 ^ 9| ≤ maxClockSkew

instance (d : Delivery) : Decidable (InTime d) := inferInstanceAs (Decidable (_ ≤ _))

/-- The commands that ought to be started: the first of each ID, if it is in time. -/
def due : List String → List Delivery → List Command
  | _, [] => []
  | known, d :: ds =>
    (if d.cmd.id ∉ known ∧ InTime d then [d.cmd] else []) ++ due (remember known d.cmd.id) ds

/-! ## A list that is handed out once -/

section Handout

variable {α β : Type} {xs arrived : List α} {wrap : α → β} {waiting : List β} {handed : Bool}

/-- What has arrived and what is under way is the beginning of a list, and nothing before it is
handed out. -/
def Underway (xs : List α) (wrap : α → β) (arrived : List α) (waiting : List β) (handed : Bool) :
    Prop :=
  ∃ rest, waiting = rest.map wrap ∧ arrived ++ rest <+: xs ∧
    (handed = false → arrived = [] ∧ waiting = [])

/-- Losing all items that are waiting leaves the items that have arrived as they are. -/
lemma Underway.lose (h : Underway xs wrap arrived waiting handed) {handed' : Bool}
    (hhanded : handed' = false → handed = false) : Underway xs wrap arrived [] handed' := by
  obtain ⟨rest, -, hle, hnone⟩ := h
  refine ⟨[], rfl, ?_, fun h => ⟨(hnone (hhanded h)).1, rfl⟩⟩
  rw [List.append_nil]
  exact (List.prefix_append arrived rest).trans hle

/-- The list is handed out, or the beginning of it. -/
lemma Underway.hand (h : Underway xs wrap arrived waiting false) {rest : List α}
    (hrest : rest <+: xs) : Underway xs wrap arrived (rest.map wrap) true := by
  obtain ⟨-, -, -, hnone⟩ := h
  obtain ⟨rfl, -⟩ := hnone rfl
  exact ⟨rest, rfl, hrest, fun h => absurd h (by decide)⟩

/-- The first item waiting, when it arrives, is the next of `xs`, as `wrap` has it. -/
lemma Underway.next {b : β} (h : Underway xs wrap arrived (b :: waiting) handed) :
    ∃ x ∈ xs, b = wrap x ∧ Underway xs wrap (arrived ++ [x]) waiting handed := by
  obtain ⟨rest, hwaiting, hle, hnone⟩ := h
  cases rest with
  | nil => cases hwaiting
  | cons x rest =>
    obtain ⟨rfl, rfl⟩ := List.cons.inj hwaiting
    have hhanded : handed ≠ false := fun h => List.cons_ne_nil _ _ (hnone h).2
    refine ⟨x, hle.subset (by simp), rfl, rest, rfl, ?_, fun h => absurd h hhanded⟩
    rwa [List.append_assoc]

end Handout

/-! ## Steps -/

section Steps

variable {a : Agent} {k : KeyPair a.env} {cs : List Command} {s : State} {token : String}

/-- Facts of the system in every state. -/
structure Inv (a : Agent) (cs : List Command) (s : State) : Prop where
  /-- The commands are those from the start. -/
  commands : s.server.commands = cs
  /-- If the process has ended, the executor was started on a Helm verb without a Helm part. -/
  crash : s.crashed = true →
    ∃ c ∈ s.started, Validator.isHelmVerb c.verb = true ∧ c.helm = none
  /-- The goroutines of the executor are at commands it was started on. -/
  running : ∀ c ∈ s.running, c ∈ s.started
  /-- The caches are those of what has arrived. -/
  caches : s.caches = a.receiver.after .init s.arrivals
  /-- The effects are those of what has arrived. -/
  effects : s.effects = a.receiver.run .init s.arrivals
  /-- Answers hand the commands out once. -/
  polls : Underway cs some (on .poll s.arrivals) s.polled s.server.delivered
  /-- Connections hand the commands out once. -/
  pushes : Underway cs (fun c => commandFrame (some c)) (on .push s.arrivals) (s.inbox.getD [])
    s.server.wsDelivered

/-- In the beginning nothing has arrived, and nothing is handed out. -/
lemma inv_start (a : Agent) (server : MockServer) : Inv a server.commands (start server) where
  commands := rfl
  crash := fun h => absurd h Bool.false_ne_true
  running := fun _ hc => absurd hc List.not_mem_nil
  caches := rfl
  effects := rfl
  polls := ⟨[], rfl, List.nil_prefix, fun _ => ⟨rfl, rfl⟩⟩
  pushes := ⟨[], rfl, List.nil_prefix, fun _ => ⟨rfl, rfl⟩⟩

/-- An arrival is counted on its own path, behind those before it, and on no other. -/
lemma on_append (path : Path) (ds : List Delivery) (d : Delivery) :
    on path (ds ++ [d]) = on path ds ++ if d.path = path then [d.cmd] else [] := by
  by_cases hpath : d.path = path <;> simp [on, List.filter_append, hpath]

/-- **A command arrives**: the call of the receiver for `c` keeps the invariant, if the lists of
what is under way account for `c`. -/
theorem Inv.arrive (h : Inv a cs s) {x : Arrival} {c : Command} (polled : List (Option Command))
    (inbox : Option (List Bytes)) (hx : x.item.pointer jsonFrames = some (some c))
    (hpolls : Underway cs some (on .poll (s.arrivals ++ [⟨x.item.path, c, x.checkedAt,
      x.reportedAt⟩])) polled s.server.delivered)
    (hpushes : Underway cs (fun c => commandFrame (some c)) (on .push (s.arrivals ++
      [⟨x.item.path, c, x.checkedAt, x.reportedAt⟩])) (inbox.getD []) s.server.wsDelivered) :
    Inv a cs (receive a { s with polled := polled, inbox := inbox } x) := by
  rw [receive, hx]
  have hstarted : ∀ es : List Effect, (s.effects ++ [es]).flatten.filterMap starts =
      s.started ++ es.filterMap starts := by
    intro es
    rw [List.flatten_append, List.flatten_singleton, List.filterMap_append, State.started]
  refine ⟨h.commands, fun hcrash => ?_, fun cmd hcmd => ?_, ?_, ?_, hpolls, hpushes⟩
  · obtain ⟨cmd, hcmd, hhelm⟩ := h.crash hcrash
    rw [State.started, hstarted]
    exact ⟨cmd, List.mem_append_left _ hcmd, hhelm⟩
  · rw [State.started, hstarted]
    exact (List.mem_append.mp hcmd).elim (fun hold => List.mem_append_left _ (h.running cmd hold))
      (List.mem_append_right _)
  · show (a.receiver.process s.caches _).1 = a.receiver.after .init (s.arrivals ++ [_])
    rw [Receiver.after_append, ← h.caches]
    rfl
  · show s.effects ++ [_] = a.receiver.run .init (s.arrivals ++ [_])
    rw [Receiver.run_append, ← h.caches, ← h.effects]
    rfl

/-- The next element of a poll answer, `nil` or a command, is processed: the invariant is kept. -/
lemma Inv.process (h : Inv a cs s) {p : Option Command} {ps : List (Option Command)}
    (hpolled : s.polled = p :: ps) (checkedAt reportedAt : ℤ) :
    Inv a cs (receive a { s with polled := ps } ⟨.element p, checkedAt, reportedAt⟩) := by
  have hpolls := h.polls
  rw [hpolled] at hpolls
  obtain ⟨c, -, rfl, hnext⟩ := hpolls.next
  refine h.arrive ps s.inbox rfl ?_ ?_
  · rw [on_append]
    exact hnext
  · rw [on_append, if_neg (by simp [Item.path]), List.append_nil]
    exact h.pushes

/-- The next frame of the connection is read and its command processed: the invariant is kept. -/
lemma Inv.read (h : Inv a cs s) (hvalid : ∀ c ∈ cs, IsInt 64 c.timestamp) {data : Bytes}
    {frames : List Bytes} (hinbox : s.inbox = some (data :: frames)) (checkedAt reportedAt : ℤ) :
    Inv a cs (receive a { s with inbox := some frames }
      ⟨.frame true data, checkedAt, reportedAt⟩) := by
  have hpushes := h.pushes
  rw [hinbox] at hpushes
  obtain ⟨c, hc, rfl, hnext⟩ := hpushes.next
  have hframe : readFrame jsonFrames true (commandFrame (some c)) = some (some c) :=
    readFrame_commandFrame fun c' hc' => Option.some.inj hc' ▸ hvalid c hc
  refine h.arrive s.polled (some frames) hframe ?_ ?_
  · rw [on_append, if_neg (by simp [Item.path]), List.append_nil]
    exact h.polls
  · rw [on_append]
    exact hnext

/-- The agent polls, and the answer comes back or not. -/
lemma Inv.poll (h : Inv a cs s) {o : MockServer.Outcome (List Report)} (ho : s.server.Handed o)
    (lost : Bool) :
    Inv a cs
      { s with
        server := o.server
        polled := commandsOf (post PollResponse.codec (if lost then none else o.answer)) } := by
  have hcases : commandsOf (post PollResponse.codec (if lost then none else o.answer)) = [] ∨
      ∃ p, post PollResponse.codec o.answer = .ok p ∧
        commandsOf (post PollResponse.codec (if lost then none else o.answer)) = p.commands := by
    cases lost with
    | true => exact .inl rfl
    | false =>
      rw [if_neg Bool.false_ne_true]
      cases post PollResponse.codec o.answer with
      | error e => exact .inl rfl
      | ok p => exact .inr ⟨p, rfl, rfl⟩
  rcases ho with ⟨hserver, hnone⟩ | ⟨hdelivered, hserver, hall⟩
  · have hpolled : commandsOf (post PollResponse.codec (if lost then none else o.answer)) = [] := by
      rcases hcases with hnil | ⟨p, hp, heq⟩
      · exact hnil
      · exact heq.trans (hnone p hp)
    rw [hpolled, hserver]
    exact { h with polls := h.polls.lose fun hhanded => hhanded }
  · have hpolls := h.polls
    rw [hdelivered] at hpolls
    rw [hserver]
    refine { h with polls := ?_ }
    rcases hcases with hnil | ⟨p, hp, heq⟩
    · rw [hnil]
      exact hpolls.lose fun _ => rfl
    · rw [heq, hall p hp, h.commands]
      exact hpolls.hand (List.prefix_refl cs)

/-- A connection whose hello frame is `hello`, with room for `n` command frames, keeps the
invariant. -/
lemma Inv.connect (h : Inv a cs s) (hello : Bytes) (n : ℕ) :
    Inv a cs
      { s with
        server := (s.server.ws hello n).1
        inbox := if (s.server.ws hello n).2.head?.map handshake = some .accepted then
          some (s.server.ws hello n).2.tail else none } := by
  rcases s.server.ws_cases hello n with ⟨hserver, htail⟩ | ⟨hpushed, hserver, m, htail⟩
  · rw [hserver, htail]
    refine { h with pushes := ?_ }
    have hnil : (if (s.server.ws hello n).2.head?.map handshake = some .accepted then
        some ([] : List Bytes) else none).getD [] = [] := by split_ifs <;> rfl
    rw [hnil]
    exact h.pushes.lose fun hhanded => hhanded
  · have hpushes := h.pushes
    rw [hpushed] at hpushes
    rw [hserver, htail]
    refine { h with pushes := ?_ }
    rw [h.commands, ← List.map_take]
    split_ifs
    · exact hpushes.hand (List.take_prefix m cs)
    · exact hpushes.lose fun _ => rfl

/-- Giving the connection up, with the frames not read yet, keeps the invariant. -/
lemma Inv.cut (h : Inv a cs s) : Inv a cs { s with inbox := none } :=
  { h with pushes := h.pushes.lose fun hhanded => hhanded }

/-- A goroutine of the executor ends. It dereferences a nil pointer only on a Helm verb without a
Helm part, by `Agent.executes_iff`. -/
lemma Inv.execute (h : Inv a cs s) {cmd : Command} {i : ℕ} (hcmd : s.running[i]? = some cmd)
    (fuel : ℕ) (σ : ℕ → ∀ op, Ans op) :
    Inv a cs
      { s with
        running := s.running.eraseIdx i
        crashed := decide (Interaction.resultFrom σ 0 (a.executor.handleCommand fuel cmd) =
          .nilDeref) } := by
  refine { h with crash := fun hcrash => ?_, running := fun c hc => ?_ }
  · refine ⟨cmd, h.running cmd (List.mem_of_getElem? hcmd), ?_⟩
    by_contra hhelm
    have hexec : a.Executes cmd := Agent.executes_iff.mpr hhelm
    exact hexec fuel _ _ (Interaction.runs_playFrom σ 0 _) (of_decide_eq_true hcrash)
  · exact h.running c (List.mem_of_mem_eraseIdx hc)

/-- **One step keeps the invariant**, if the commands of the server are signed with its key and have
timestamps of 64 bits. -/
theorem Inv.step (hvalid : ∀ c ∈ cs, c.verifySignature a.env k.pub = none ∧ IsInt 64 c.timestamp)
    {s' : State} {l : Label} (h : Inv a cs s) (hstep : EndToEnd.step a token s l = some s') :
    Inv a cs s' := by
  cases l with
  | poll reports lost =>
    rw [EndToEnd.step] at hstep
    split at hstep
    next =>
      obtain rfl := Option.some.inj hstep
      have hserver : s.server.Fits := fun c hc => (hvalid c (h.commands ▸ hc)).2
      exact h.poll (MockServer.handed_exchange hserver token _) lost
    next => cases hstep
  | process checkedAt reportedAt =>
    rw [EndToEnd.step] at hstep
    cases hpolled : s.polled with
    | nil => simp [hpolled] at hstep
    | cons p ps =>
      simp only [hpolled] at hstep
      split_ifs at hstep
      obtain rfl := Option.some.inj hstep
      exact h.process hpolled checkedAt reportedAt
  | connect writes =>
    rw [EndToEnd.step] at hstep
    split at hstep
    next =>
      obtain rfl := Option.some.inj hstep
      exact h.connect _ writes
    next => cases hstep
  | read checkedAt reportedAt =>
    rw [EndToEnd.step] at hstep
    split at hstep
    next data frames hinbox =>
      split_ifs at hstep
      · obtain rfl := Option.some.inj hstep
        exact h.cut
      · obtain rfl := Option.some.inj hstep
        exact h.read (fun c hc => (hvalid c hc).2) hinbox checkedAt reportedAt
    next => cases hstep
  | «break» =>
    obtain rfl := Option.some.inj hstep
    exact h.cut
  | execute i fuel σ =>
    rw [EndToEnd.step] at hstep
    split at hstep
    next cmd hcmd =>
      split_ifs at hstep
      obtain rfl := Option.some.inj hstep
      exact h.execute hcmd fuel σ
    next => cases hstep

end Steps

/-! ## Runs -/

section Runs

variable {a : Agent} {cs : List Command} {s : State} {ds : List Delivery}

/-- Every command that has arrived is one of the commands `cs` of the server. -/
lemma Inv.mem (h : Inv a cs s) {d : Delivery} (hd : d ∈ s.arrivals) : d.cmd ∈ cs := by
  have hon : d.cmd ∈ on d.path s.arrivals :=
    List.mem_map.mpr ⟨d, List.mem_filter.mpr ⟨hd, decide_eq_true rfl⟩, rfl⟩
  obtain ⟨_, -, hpolls, -⟩ := h.polls
  obtain ⟨_, -, hpushes, -⟩ := h.pushes
  cases hpath : d.path with
  | poll => exact hpolls.subset (List.mem_append_left _ (hpath ▸ hon))
  | push => exact hpushes.subset (List.mem_append_left _ (hpath ▸ hon))

/-- A receiver that forgets nothing starts what ought to be started, if only time can be amiss. -/
lemma starts_ideal {r : Receiver} (hds : ∀ d ∈ ds, r.checks d.cmd d.checkedAt = none ↔ InTime d)
    (known : List String) : (r.ideal known ds).flatten.filterMap starts = due known ds := by
  induction ds generalizing known with
  | nil => rfl
  | cons d ds ih =>
    have hone : (r.verdict known d).filterMap starts =
        if d.cmd.id ∉ known ∧ InTime d then [d.cmd] else [] := by
      rw [Receiver.verdict]
      by_cases hknown : d.cmd.id ∈ known
      · rw [if_pos hknown, if_neg fun h => h.1 hknown]
        rfl
      · rw [if_neg hknown]
        have hcheck := hds d List.mem_cons_self
        cases hc : r.checks d.cmd d.checkedAt with
        | none => rw [if_pos ⟨hknown, hcheck.mp hc⟩]; rfl
        | some reason =>
          rw [if_neg fun h => by rw [hcheck.mpr h.2] at hc; cases hc]
          rfl
    rw [Receiver.ideal, List.flatten_cons, List.filterMap_append, hone, due,
      ih (fun d hd => hds d (List.mem_cons_of_mem _ hd))]

/-- What ought to be started has one command of each ID, and none that is known. -/
lemma nodup_due (known : List String) :
    ((due known ds).map Command.id).Nodup ∧ ∀ c ∈ due known ds, c.id ∉ known := by
  induction ds generalizing known with
  | nil => exact ⟨List.nodup_nil, fun c hc => absurd hc List.not_mem_nil⟩
  | cons d ds ih =>
    obtain ⟨hnodup, hnew⟩ := ih (remember known d.cmd.id)
    have hold : ∀ id, id ∈ known ∨ id = d.cmd.id → id ∈ remember known d.cmd.id := by
      intro id hid
      rw [remember]
      split_ifs with hmem
      · exact hid.elim (fun h => h) fun h => h ▸ hmem
      · simpa using hid
    rw [due]
    split_ifs with hfirst
    · refine ⟨?_, fun c hc => ?_⟩
      · rw [List.singleton_append, List.map_cons, List.nodup_cons]
        refine ⟨fun hmem => ?_, hnodup⟩
        obtain ⟨c, hc, hid⟩ := List.mem_map.mp hmem
        exact hnew c hc (hold _ (.inr hid))
      · rcases List.mem_cons.mp hc with rfl | hc
        · exact hfirst.1
        · exact fun hmem => hnew c hc (hold _ (.inl hmem))
    · rw [List.nil_append]
      exact ⟨hnodup, fun c hc hmem => hnew c hc (hold _ (.inl hmem))⟩

/-- What holds of every run. -/
structure Exact (cs : List Command) (s : State) : Prop where
  /-- No nil pointer is dereferenced, but for the Helm part of a Helm verb that lacks it. -/
  crash : s.crashed = true →
    ∃ c ∈ s.started, Validator.isHelmVerb c.verb = true ∧ c.helm = none
  /-- Each path brings the commands in order, each of them once at most and as it is. -/
  inOrder : ∀ path, on path s.arrivals <+: cs
  /-- What has arrived first and in time is started. -/
  started : s.started = due [] s.arrivals
  /-- No ID is started twice. -/
  once : (s.started.map Command.id).Nodup

/-- **The invariant gives exactness**, for a writing agent with the key of the server, if the
commands fit into the cache of IDs and no two IDs share a nonce. -/
theorem Inv.exact {k : KeyPair a.env} (hinv : Inv a cs s) (hwriter : a.cfg.writerEnabled = true)
    (hkey : a.cfg.serverPublicKey = base64Encode k.pub)
    (hvalid : ∀ c ∈ cs, c.verifySignature a.env k.pub = none ∧ IsInt 64 c.timestamp)
    (hmax : cs.length ≤ maxIDs)
    (hapart : ∀ c ∈ cs, ∀ c' ∈ cs, c.nonce = c'.nonce → c.id = c'.id) : Exact cs s := by
  have hpub : a.cfg.publicKey = .ok k.pub := by
    rw [Config.publicKey_eq_ok_iff, hkey]
    exact ⟨k.length_pub, .inl (base64Decode_base64Encode k.pub)⟩
  have hchecks : ∀ d ∈ s.arrivals, a.receiver.checks d.cmd d.checkedAt = none ↔ InTime d := by
    intro d hd
    rw [Receiver.checks_eq_none_iff]
    constructor
    · rintro ⟨-, pub, -, -, htime⟩
      exact htime
    · exact fun htime => ⟨hwriter, k.pub, hpub, (hvalid d.cmd (hinv.mem hd)).1, htime⟩
  have hprompt : Prompt maxIDs [] (s.arrivals.map (·.cmd.id)) := by
    have hids : s.arrivals.map (·.cmd.id) ⊆ cs.map Command.id := by
      intro id hid
      obtain ⟨d, hd, rfl⟩ := List.mem_map.mp hid
      exact List.mem_map.mpr ⟨d.cmd, hinv.mem hd, rfl⟩
    exact prompt_of_subset List.nodup_nil (List.nil_subset _) hids (by rwa [List.length_map])
  have hideal : a.receiver.run .init s.arrivals = a.receiver.ideal [] s.arrivals := by
    have hnew : (a.receiver.after .init []).ids.Represents [] :=
      (Receiver.ids_after a.receiver []).2
    refine (Receiver.run_after_eq_ideal_iff a.receiver hnew (by simp) ?_).mpr hprompt
    exact fun d hd e he => hapart d.cmd (hinv.mem hd) e.cmd (hinv.mem he)
  have hstarted : s.started = due [] s.arrivals := by
    rw [State.started, hinv.effects, hideal]
    exact starts_ideal hchecks []
  refine ⟨hinv.crash, fun path => ?_, hstarted, hstarted ▸ (nodup_due []).1⟩
  obtain ⟨rest, -, hpolls, -⟩ := hinv.polls
  obtain ⟨rest', -, hpushes, -⟩ := hinv.pushes
  cases path with
  | poll => exact (List.prefix_append _ rest).trans hpolls
  | push => exact (List.prefix_append _ rest').trans hpushes

/-- The invariant holds in every run, if the commands of the server are signed with its key and have
timestamps of 64 bits. -/
lemma inv_of_run {k : KeyPair a.env} {server : MockServer} {token : String} {ls : List Label}
    (hvalid : ∀ c ∈ server.commands, c.verifySignature a.env k.pub = none ∧ IsInt 64 c.timestamp)
    (hrun : Transition.run (step a token) (start server) ls = some s) : Inv a server.commands s :=
  Transition.invariant_all (Inv.step hvalid) (inv_start a server) hrun

/-- An agent that trusts the key of the server. -/
def fileAgent : Agent :=
  ⟨{ serverPublicKey := base64Encode MockServer.mirrorKeys.pub }, MockServer.mirrorEnv, true⟩

/-- What the commands of the file are completed with. -/
def fileFresh (i : ℕ) : MockServer.Fresh :=
  if i = 0 then ⟨"f00d", "beef", 1700000000⟩ else ⟨"cafe", "babe", 1700000000⟩

lemma isInt_fileFresh (i : ℕ) : IsInt 64 (fileFresh i).now := by
  rw [fileFresh]
  split_ifs <;> decide

/-- A file with two commands, one of which has an ID. -/
def commandFile : Bytes :=
  utf8 "[\x7b\"id\":\"first\",\"verb\":\"apply\"\x7d,\x7b\"verb\":\"delete\"\x7d]"

/-- The server for the file. -/
def fileServer : MockServer :=
  (MockServer.newServer MockServer.mirrorKeys fileFresh 32768 "dev-token" (some commandFile)).get
    (by decide +kernel)

/-- The server signs an installation that does not say which release, and the agent takes it: its
executor ends the process. -/
example : ((MockServer.newServer MockServer.mirrorKeys fileFresh 32768 "dev-token"
    (some (utf8 "[\x7b\"verb\":\"helm-install\"\x7d]"))).bind fun server =>
      (Transition.run (step fileAgent "dev-token") (start server)
        [.poll [] false, .process (1700000060 * 10 ^ 9) (1700000060 * 10 ^ 9),
          .execute 0 0 fun _ => Executor.acceptAll fun _ => none]).map fun s =>
            (s.started.map Command.verb, s.crashed)) = some (["helm-install"], true) := by
  decide +kernel

end Runs

/-! ## Progress -/

section Progress

variable {a : Agent} {cs : List Command} {s : State} {token : String}

/-- The elements of an answer are processed one after another. -/
lemma exists_run_process (times : List (ℤ × ℤ)) (halive : s.crashed = false)
    (hpolled : s.polled = cs.map some) (htimes : times.length = cs.length) :
    ∃ s', Transition.run (step a token) s (times.map fun t => .process t.1 t.2) = some s' ∧
      s'.polled = [] ∧ on .poll s'.arrivals = on .poll s.arrivals ++ cs := by
  induction cs generalizing s times with
  | nil =>
    obtain rfl := List.length_eq_zero_iff.mp htimes
    exact ⟨s, rfl, hpolled, (List.append_nil _).symm⟩
  | cons c cs ih =>
    cases times with
    | nil => cases htimes
    | cons t times =>
      have hstep : step a token s (.process t.1 t.2) = some (receive a
          { s with polled := cs.map some } ⟨.element (some c), t.1, t.2⟩) := by
        rw [step, hpolled, List.map_cons]
        exact if_pos halive
      have hrest := ih (s := receive a { s with polled := cs.map some }
        ⟨.element (some c), t.1, t.2⟩) times halive rfl (Nat.succ.inj htimes)
      obtain ⟨s', hrun, hempty, harrived⟩ := hrest
      refine ⟨s', ?_, hempty, ?_⟩
      · rw [List.map_cons, Transition.run, hstep]
        exact hrun
      · have hone : on .poll (receive a { s with polled := cs.map some }
            ⟨.element (some c), t.1, t.2⟩).arrivals = on .poll s.arrivals ++ [c] :=
          on_append .poll s.arrivals ⟨.poll, c, t.1, t.2⟩
        rw [harrived, hone, List.append_assoc]
        rfl

/-- An ID that arrives in time, whenever it does, ought to be started. -/
lemma exists_mem_due {ds : List Delivery} {id : String}
    (htime : ∀ d ∈ ds, d.cmd.id = id → InTime d) {known : List String} (hnew : id ∉ known)
    (hmem : ∃ d ∈ ds, d.cmd.id = id) : ∃ c ∈ due known ds, c.id = id := by
  induction ds generalizing known with
  | nil =>
    obtain ⟨d, hd, -⟩ := hmem
    cases hd
  | cons e ds ih =>
    rw [due]
    by_cases heq : e.cmd.id = id
    · rw [if_pos ⟨heq.symm ▸ hnew, htime e List.mem_cons_self heq⟩]
      exact ⟨e.cmd, List.mem_cons_self, heq⟩
    · have hnew' : id ∉ remember known e.cmd.id := by
        rw [remember]
        split_ifs
        · exact hnew
        · simpa [hnew] using Ne.symm heq
      obtain ⟨d, hd, hid⟩ := hmem
      have hd' : d ∈ ds := (List.mem_cons.mp hd).resolve_left fun h => heq (h ▸ hid)
      obtain ⟨c, hc, hcid⟩ :=
        ih (fun d hd => htime d (List.mem_cons_of_mem e hd)) hnew' ⟨d, hd', hid⟩
      exact ⟨c, List.mem_append_right _ hc, hcid⟩

/-- What holds once the first answer has been processed. -/
structure Complete (cs : List Command) (s : State) : Prop where
  /-- All commands have arrived on the path. -/
  arrived : on .poll s.arrivals = cs
  /-- Every ID that was always in time has been started. -/
  started : ∀ c ∈ cs, (∀ d ∈ s.arrivals, d.cmd.id = c.id → InTime d) →
    ∃ c' ∈ s.started, c'.id = c.id

/-- **The first answer is enough.** Take any state of any run in which the agent is alive and no
poll has been answered yet, whatever the connections have brought or lost. If the server takes the
token for its own and the commands have at most 16 MiB as JSON, then the agent can poll, and can
process as many elements as the file has commands; and then every command of the file has arrived,
and every ID that was in time whenever it arrived has been started. By `Exact.crash`, the agent is
alive as long as no executor was started on a Helm verb without a Helm part.

**Proof sketch.** The answer has the commands (`MockServer.post_firstPoll`), and none is nil, so
that each can be processed (`exists_run_process`). What has arrived by then is exact
(`Inv.exact`). -/
theorem complete_of_answer (a : Agent) (k : KeyPair a.env) (hwriter : a.cfg.writerEnabled = true)
    (hkey : a.cfg.serverPublicKey = base64Encode k.pub) (fresh : ℕ → MockServer.Fresh)
    (hfresh : ∀ i, IsInt 64 (fresh i).now) (readLimit : ℕ) (secret : String)
    (file : Option Bytes) (server : MockServer)
    (hserver : MockServer.newServer k fresh readLimit secret file = some server)
    (hmax : server.commands.length ≤ maxIDs)
    (hapart : ∀ c ∈ server.commands, ∀ c' ∈ server.commands, c.nonce = c'.nonce → c.id = c'.id)
    (token : String) (ls : List Label) (s : State)
    (hrun : Transition.run (step a token) (start server) ls = some s)
    (halive : s.crashed = false) (hfirst : s.server.delivered = false)
    (htoken : s.server.Accepts token)
    (hshort : (PollResponse.explicit.marshal s.server.firstAnswer).length ≤ maxResponseBytes)
    (reports : List Report) (hreports : ∀ r ∈ reports, r.Fits) (times : List (ℤ × ℤ))
    (htimes : times.length = server.commands.length) :
    ∃ s', Transition.run (step a token) s
        (.poll reports false :: times.map fun t => .process t.1 t.2) = some s' ∧
      Complete server.commands s' := by
  have hvalid := MockServer.valid_newServer hfresh hserver
  have hinv : Inv a server.commands s := inv_of_run hvalid hrun
  have hnone : on .poll s.arrivals = [] ∧ s.polled = [] := by
    obtain ⟨_, -, -, hnone⟩ := hinv.polls
    exact hnone hfirst
  have hanswer : post PollResponse.codec (request a token s.server reports).answer =
      .ok s.server.firstAnswer := by
    have hs : s.server.Fits := fun c hc => (hvalid c (hinv.commands ▸ hc)).2
    exact MockServer.post_firstPoll hs htoken hfirst a.cfg.clusterID hreports hshort
  obtain ⟨s₁, hs₁, halive₁, hpolled, harrivals⟩ : ∃ s₁, step a token s (.poll reports false) =
      some s₁ ∧ s₁.crashed = false ∧ s₁.polled = server.commands.map some ∧
        s₁.arrivals = s.arrivals := by
    refine ⟨_, if_pos ⟨halive, hnone.2⟩, halive, ?_, rfl⟩
    rw [if_neg Bool.false_ne_true, hanswer, ← hinv.commands]
    rfl
  obtain ⟨s', hrun', -, harrived⟩ := exists_run_process times halive₁ hpolled htimes
  rw [harrivals, hnone.1, List.nil_append] at harrived
  have hwhole : Transition.run (step a token) s
      (.poll reports false :: times.map fun t => .process t.1 t.2) = some s' := by
    rw [Transition.run, hs₁]
    exact hrun'
  have hexact : Exact server.commands s' :=
    (Transition.invariant_all (Inv.step hvalid) hinv hwhole).exact hwriter hkey hvalid hmax hapart
  refine ⟨s', hwhole, harrived, fun c hc htime => ?_⟩
  rw [hexact.started]
  rw [← harrived] at hc
  obtain ⟨d, hd, rfl⟩ := List.mem_map.mp hc
  exact exists_mem_due htime List.not_mem_nil ⟨d, List.mem_of_mem_filter hd, rfl⟩

/-- After a connection that breaks before it has brought anything, one poll brings both commands. -/
theorem complete_afterBreak : ∃ s s',
    Transition.run (step fileAgent "dev-token") (start fileServer) [.connect 1, .break] = some s ∧
      Transition.run (step fileAgent "dev-token") s (.poll [] false ::
        [(1700000090 * 10 ^ 9, 0), (1700000091 * 10 ^ 9, 0)].map fun t => .process t.1 t.2) =
          some s' ∧ Complete fileServer.commands s' := by
  have hstate : (Transition.run (step fileAgent "dev-token") (start fileServer)
      [.connect 1, .break]).map (fun s => (s.crashed, s.server)) =
        some (false, { fileServer with wsDelivered := true }) := by decide +kernel
  obtain ⟨s, hs, hend⟩ := Option.map_eq_some_iff.mp hstate
  obtain ⟨halive, hserver⟩ := Prod.mk.inj hend
  have hcomplete := complete_of_answer fileAgent MockServer.mirrorKeys rfl rfl fileFresh
    isInt_fileFresh 32768 "dev-token" (some commandFile) fileServer (Option.some_get _).symm
    (by decide +kernel) (by decide +kernel) "dev-token" [.connect 1, .break] s hs halive
    (by rw [hserver]; decide +kernel) (by rw [hserver]; decide +kernel)
    (by rw [hserver]; decide +kernel) [] (by decide)
    [(1700000090 * 10 ^ 9, 0), (1700000091 * 10 ^ 9, 0)] (by decide +kernel)
  obtain ⟨s', hrun', hdone⟩ := hcomplete
  exact ⟨s, s', hs, hrun', hdone⟩

end Progress

end K8sAgent.EndToEnd
