import K8sAgent.Agent.Reports

set_option relaxedAutoImplicit false
set_option autoImplicit false

/-!
# Nil pointers on the intake path

Commands arrive as pointers: an element of a poll response may be `null`, a command frame may lack
its command, and a command may lack its Helm part. `Run` of `internal/receiver/receiver.go` and
`readLoop` of `internal/wsclient/wsclient.go` hand such pointers on as they are, `process` reads
the ID of the command first, and the Helm verbs of the executor read the Helm part; nothing on the
path recovers from a panic. The check for both is in `internal/validator`, which nothing on the
path asks.

## Main definitions

* `K8sAgent.Item` — one element of a poll response, or one frame.
* `K8sAgent.readFrame` — what the read loop makes of a frame.
* `K8sAgent.Agent.Survives` — no nil pointer is dereferenced while items arrive.
* `K8sAgent.Agent.Withstands`, `K8sAgent.Agent.Harmless` — the agent survives an item whatever has
  arrived before; the items for which it does.

## Main results

* `K8sAgent.Agent.survives_of_harmless` — the agent survives every sequence of harmless items.
* `K8sAgent.Agent.withstands_iff` — it withstands exactly the harmless ones.
-/

namespace K8sAgent

open Encoding Interaction Executor

/-! ## Items -/

/-- The type tag of command frames. -/
def wsTypeCommand : String := "command"

/-- Decoding of text frames. -/
structure FrameCodec where
  /-- The type tag of a frame; `none` where the frame cannot be decoded. -/
  envelopeType : Bytes → Option String
  /-- The command of a command frame, `none` where the frame is malformed. The command itself is a
  pointer. -/
  command : Bytes → Option (Option Command)

/-- What the read loop makes of a frame: the pointer it calls the command handler with, if it does.
All other frames are logged and dropped. -/
def readFrame (codec : FrameCodec) (isText : Bool) (data : Bytes) : Option (Option Command) :=
  if isText then
    match codec.envelopeType data with
    | none => none
    | some type => if type = wsTypeCommand then codec.command data else none
  else none

/-- What arrives from the control plane. -/
inductive Item : Type where
  /-- An element of the commands of a poll response. -/
  | element (cmd : Option Command)
  /-- A WebSocket frame. -/
  | frame (isText : Bool) (data : Bytes)

/-- The pointer that `process` is called with, if it is. -/
def Item.pointer (codec : FrameCodec) : Item → Option (Option Command)
  | .element cmd => some cmd
  | .frame isText data => readFrame codec isText data

/-- The path an item comes by. -/
def Item.path : Item → Path
  | .element _ => .poll
  | .frame _ _ => .push

/-- An item with the clock readings of its processing. -/
structure Arrival where
  /-- The item. -/
  item : Item
  /-- The reading of the skew check. -/
  checkedAt : ℤ
  /-- The reading that stamps the report. -/
  reportedAt : ℤ

namespace Agent

/-- Process an item; `none` where a nil pointer is dereferenced. -/
def receive (a : Agent) (codec : FrameCodec) (s : Caches) (x : Arrival) :
    Option (Caches × List Effect) :=
  match x.item.pointer codec with
  | none => some (s, [])
  -- `process` reads the ID of the command
  | some none => none
  | some (some cmd) => some (a.receiver.process s ⟨x.item.path, cmd, x.checkedAt, x.reportedAt⟩)

/-- The executor dereferences no nil pointer on the command, whatever it is answered. -/
def Executes (a : Agent) (cmd : Command) : Prop :=
  ∀ fuel tr ex, Runs (a.executor.handleCommand fuel cmd) tr ex → ex ≠ .nilDeref

/-- The agent can go on after an item: it is processed, and what it starts is executed. -/
def Proceeds (a : Agent) (codec : FrameCodec) (s : Caches) (x : Arrival) : Prop :=
  ∃ r, a.receive codec s x = some r ∧ ∀ cmd, .handleCommand cmd ∈ r.2 → a.Executes cmd

/-- The agent survives items that arrive one after another. -/
def Survives (a : Agent) (codec : FrameCodec) : Caches → List Arrival → Prop
  | _, [] => True
  | s, x :: xs => a.Proceeds codec s x ∧
      ∀ r, a.receive codec s x = some r → Survives a codec r.1 xs

/-- **The agent withstands an item**: whatever it has survived, it survives the item next. -/
def Withstands (a : Agent) (codec : FrameCodec) (item : Item) : Prop :=
  ∀ xs checkedAt reportedAt, a.Survives codec .init xs →
    a.Survives codec .init (xs ++ [⟨item, checkedAt, reportedAt⟩])

/-- The item carries no pointer, or it carries a command, which is not one of a Helm verb without a
Helm part that the receiver lets pass. -/
def Harmless (a : Agent) (codec : FrameCodec) (item : Item) : Prop :=
  ∀ p, item.pointer codec = some p → ∃ cmd, p = some cmd ∧
    ¬(a.Acceptable cmd ∧ Validator.isHelmVerb cmd.verb = true ∧ cmd.helm = none)

variable {a : Agent} {codec : FrameCodec} {cmd : Command} {item : Item}

/-! ## The executor -/

/-- A Helm verb without a Helm part gets as far as the first report. -/
lemma runs_nilDeref {x : Executor} (fuel : ℕ) (hverb : Validator.isHelmVerb cmd.verb = true)
    (hhelm : cmd.helm = none) :
    Runs (x.handleCommand fuel cmd) [⟨.report { status := statusValidating }, ()⟩] .nilDeref := by
  refine ⟨(), [], rfl, ?_⟩
  simp only [Validator.isHelmVerb, Bool.or_eq_true, decide_eq_true_eq] at hverb
  rcases hverb with (hv | hv) | hv
  · rw [handler_helmInstall hv, helmInstall, hhelm]
    exact ⟨rfl, rfl⟩
  · rw [handler_helmUpgrade hv, helmUpgrade, hhelm]
    exact ⟨rfl, rfl⟩
  · rw [handler_helmUninstall hv, helmUninstall, hhelm]
    exact ⟨rfl, rfl⟩

/-- **What the executor can be started on**: everything but a Helm verb without a Helm part. -/
theorem executes_iff :
    a.Executes cmd ↔ ¬(Validator.isHelmVerb cmd.verb = true ∧ cmd.helm = none) := by
  constructor
  · rintro hexec ⟨hverb, hhelm⟩
    exact hexec 0 _ _ (runs_nilDeref 0 hverb hhelm) rfl
  · rintro hnot fuel tr ex hrun rfl
    exact hnot (conduct_of_runs hrun).2

/-! ## One item -/

/-- The receiver starts the executor on acceptable commands only. -/
lemma acceptable_of_process {s : Caches} {d : Delivery}
    (hmem : .handleCommand cmd ∈ (a.receiver.process s d).2) : cmd = d.cmd ∧ a.Acceptable cmd := by
  obtain ⟨rfl, -, hc, -⟩ := Receiver.handleCommand_mem_process.mp hmem
  obtain ⟨hw, pub, hpub, hsig, -⟩ := Receiver.checks_eq_none_iff.mp hc
  exact ⟨rfl, hw, pub, hpub, hsig⟩

/-- The agent goes on after a harmless item, in every state. -/
lemma Harmless.proceeds (hi : a.Harmless codec item) (s : Caches) (checkedAt reportedAt : ℤ) :
    a.Proceeds codec s ⟨item, checkedAt, reportedAt⟩ := by
  unfold Proceeds receive
  cases hp : item.pointer codec with
  | none => exact ⟨_, rfl, fun cmd hcmd => by cases hcmd⟩
  | some p =>
    obtain ⟨cmd, rfl, hnot⟩ := hi p hp
    refine ⟨_, rfl, fun c hc => ?_⟩
    obtain ⟨rfl, hacc⟩ := acceptable_of_process hc
    exact executes_iff.mpr fun hbad => hnot ⟨hacc, hbad⟩

/-- An item after which the agent goes on in the first state, whatever the clock says, is
harmless. -/
lemma harmless_of_proceeds
    (hgo : ∀ checkedAt reportedAt, a.Proceeds codec .init ⟨item, checkedAt, reportedAt⟩) :
    a.Harmless codec item := by
  intro p hp
  unfold Proceeds receive at hgo
  simp only [hp] at hgo
  cases p with
  | none =>
    obtain ⟨r, hr, -⟩ := hgo 0 0
    cases hr
  | some cmd =>
    refine ⟨cmd, rfl, ?_⟩
    rintro ⟨⟨hw, pub, hpub, hsig⟩, hbad⟩
    -- delivered first and at the time it was signed, the command is dispatched
    obtain ⟨r, hr, hexec⟩ := hgo (cmd.timestamp * 10 ^ 9) 0
    cases hr
    refine executes_iff.mp (hexec cmd (Receiver.handleCommand_mem_process.mpr
      ⟨rfl, rfl, Receiver.checks_eq_none_iff.mpr ⟨hw, pub, hpub, hsig, ?_⟩, rfl⟩)) hbad
    rw [sub_self, abs_zero]
    decide

/-! ## Sequences -/

/-- One more item that the agent goes on after in every state. -/
lemma Survives.concat {s : Caches} {xs : List Arrival} {x : Arrival}
    (hs : a.Survives codec s xs) (hx : ∀ s, a.Proceeds codec s x) :
    a.Survives codec s (xs ++ [x]) := by
  induction xs generalizing s with
  | nil => exact ⟨hx s, fun _ _ => trivial⟩
  | cons y xs ih => exact ⟨hs.1, fun r hr => ih (hs.2 r hr)⟩

/-- **The agent survives harmless items**, however many arrive. -/
theorem survives_of_harmless {xs : List Arrival} (hxs : ∀ x ∈ xs, a.Harmless codec x.item)
    (s : Caches) : a.Survives codec s xs := by
  induction xs generalizing s with
  | nil => trivial
  | cons x xs ih =>
    refine ⟨(hxs x (by simp)).proceeds s x.checkedAt x.reportedAt, fun r _ => ?_⟩
    exact ih (fun y hy => hxs y (by simp [hy])) r.1

/-- **Which items the agent withstands.** Those without a pointer, and those with a command, unless
the receiver lets it pass and it has a Helm verb but no Helm part. A `null` element of a poll
response and a command frame without a command are withstood by no agent.

**Proof sketch.** A harmless item is processed in every state, and what it starts is executed. As
for the others, a nil command is dereferenced at once, and an acceptable command is dispatched when
it is the first to arrive, at the time it was signed. -/
theorem withstands_iff (a : Agent) (codec : FrameCodec) (item : Item) :
    a.Withstands codec item ↔ a.Harmless codec item := by
  constructor
  · intro hw
    refine harmless_of_proceeds fun checkedAt reportedAt => ?_
    exact (hw [] checkedAt reportedAt trivial).1
  · intro hi xs checkedAt reportedAt hs
    exact hs.concat fun s => hi.proceeds s checkedAt reportedAt

/-- A command frame without a command. -/
def emptyFrame : Bytes := utf8 "\x7b\"type\":\"command\"\x7d"

/-- What decoding finds in that frame; other frames cannot be decoded. -/
def emptyFrameCodec : FrameCodec where
  envelopeType data := if data = emptyFrame then some "command" else none
  command data := if data = emptyFrame then some none else none

/-- A signed command to install a release that does not say which. -/
def installNothing : Command where
  id := "cmd-3"
  nonce := "nonce-3"
  timestamp := 1700000000
  verb := verbHelmInstall
  signature := "f1zqlR3R9JJa5rsiv3Rh3G7fmbE6A3m7cMwanheptG7uCmixBNxnTlwcnslAJsQAI9luDoJkY5z8R2RfBpN2Dw=="

/-- The digest of the empty payload and the signature of that command. -/
def installEnv : Env := .ofTables
  { digests := [([], ofHex "e3b0c44298fc1c149afbf4c8996fb92427ae41e4649b934ca495991b7852b855")]
    signatures := [(ofHex "42df9cf58875460b096e097e9846c1e42a08249de77cdd75261a28b8bd9a2a76",
      utf8 ("nonce-3\n1700000000\ncmd-3\nhelm-install\n\n\n\n\n\n\n" ++
        "e3b0c44298fc1c149afbf4c8996fb92427ae41e4649b934ca495991b7852b855\n\nfalse"),
      ofHex ("7f5cea951dd1f4925ae6bb22bf7461dc6edf99b13a0379bb70cc1a9e17a9b46e" ++
        "ee0a68b104dc674e5c1c9ec94026c40023d96e0e8264639cfc47645f0693760f"))] }

/-- An agent that trusts the key. -/
def installAgent : Agent := ⟨{ serverPublicKey := samplePublicKey }, installEnv, true⟩

/-- A poll response with a `null` command, a command frame without a command, and a signed Helm
command without a Helm part each end the agent. -/
theorem nil_pointer_crashes :
    ¬installAgent.Withstands emptyFrameCodec (.element none) ∧
      ¬installAgent.Withstands emptyFrameCodec (.frame true emptyFrame) ∧
      ¬installAgent.Withstands emptyFrameCodec (.element (some installNothing)) := by
  refine ⟨fun hw => ?_, fun hw => ?_, fun hw => ?_⟩
  · obtain ⟨⟨r, hr, -⟩, -⟩ := hw [] 0 0 trivial
    cases hr
  · obtain ⟨⟨r, hr, -⟩, -⟩ := hw [] 0 0 trivial
    have hnone : installAgent.receive emptyFrameCodec .init ⟨.frame true emptyFrame, 0, 0⟩ =
        none := by decide +kernel
    rw [hnone] at hr
    cases hr
  · obtain ⟨⟨r, hr, hexec⟩, -⟩ := hw [] (1700000060 * 10 ^ 9) 0 trivial
    cases hr
    have hmem : Effect.handleCommand installNothing ∈ (installAgent.receiver.process .init
        ⟨.poll, installNothing, 1700000060 * 10 ^ 9, 0⟩).2 := by decide +kernel
    exact hexec installNothing hmem 0 _ _ (runs_nilDeref 0 rfl rfl) rfl

end Agent

end K8sAgent
