import K8sAgent.Agent.Intake
import K8sAgent.Protocol.Messages

set_option relaxedAutoImplicit false
set_option autoImplicit false

/-!
# Frames

What the client of `internal/wsclient/wsclient.go` writes to the socket and makes of what it reads
there: the handshake, and the frames of the read loop, which are at most 256 KiB long.

## Main definitions

* `K8sAgent.jsonFrames` — the decoding of frames.
* `K8sAgent.Frames.hello`, `K8sAgent.Frames.handshake` — the first frame, and what the client makes
  of the answer.
* `K8sAgent.Frames.commandFrame`, `K8sAgent.Frames.reportFrame` — frames with a command, and with a
  report.

## Main results

* `K8sAgent.Frames.readFrame_commandFrame`, `unmarshal_reportFrame` — a command and a report come
  through a frame unchanged.
* `K8sAgent.Frames.handshake_ack` — the outcome of the handshake by the answer.
-/

namespace K8sAgent

open Encoding JsonText JsonReader

/-- The decoding of frames: the type tag is read first, and then the command. -/
def jsonFrames : FrameCodec where
  envelopeType data := (WsEnvelope.codec.unmarshal data).map WsEnvelope.type
  command data := (WsCommandMessage.codec.unmarshal data).map WsCommandMessage.command

/-- What the read loop makes of a frame, by what the frame decodes to. -/
lemma readFrame_jsonFrames {data : Bytes} {env : WsEnvelope} {msg : WsCommandMessage}
    (henv : WsEnvelope.codec.unmarshal data = some env) (htype : env.type = wsTypeCommand)
    (hmsg : WsCommandMessage.codec.unmarshal data = some msg) :
    readFrame jsonFrames true data = some msg.command := by
  simp only [readFrame, jsonFrames, henv, hmsg, Option.map_some, htype, if_true]

namespace Frames

/-- The most bytes of a frame; a longer one ends the connection. -/
def readLimit : ℕ := 256 * 2 ^ 10

/-- The version the agent reports. -/
def agentVersion : String := "dev"

/-- The first frame of the client. -/
def hello (token clusterID : String) : WsHello :=
  { type := wsTypeAgentHello, token := token, clusterID := clusterID, version := agentVersion }

/-- A frame with a command. -/
def commandFrame (p : Option Command) : Bytes := WsCommandMessage.codec.marshal ⟨wsTypeCommand, p⟩

/-- A frame with a report. -/
def reportFrame (p : Option Report) : Bytes := WsReportMessage.codec.marshal ⟨wsTypeReport, p⟩

/-! ## The handshake -/

/-- A letter in lower case. The Kelvin sign and the dotted capital I become letters of ASCII. -/
def lowerChar (c : Char) : Char :=
  if c = '\u212a' then 'k' else if c = '\u0130' then 'i' else c.toLower

/-- Whether a rejection looks like one of the token. -/
def smellsAuth (msg : String) : Bool :=
  ["unauthorized", "token", "401"].any fun w => w.toList <:+: msg.toList.map lowerChar

/-- The outcome of the handshake. -/
inductive Handshake : Type where
  /-- The server has accepted the token. -/
  | accepted
  /-- The server has not, and it looks like the token or not. -/
  | rejected (auth : Bool)
  /-- The answer is no answer to the first frame. -/
  | malformed
  deriving DecidableEq

/-- What the client makes of the answer to the first frame. -/
def handshake (data : Bytes) : Handshake :=
  match WsEnvelope.codec.unmarshal data with
  | none => .malformed
  | some env =>
    -- an answer without a type tag is taken too
    if env.type ≠ "" ∧ env.type ≠ wsTypeHelloAck then .malformed
    else match WsHelloAck.codec.unmarshal data with
      | none => .malformed
      | some ack => if ack.accepted then .accepted else .rejected (smellsAuth ack.message)

/-! ## Frames are read as they were written -/

/-- The type tag is the only field that is read of a frame at first. -/
lemma skip_of_envelope {name : String} (h : name ∈ ["accepted", "message", "command", "report"])
    (env : WsEnvelope) (v : Json) : decodeMember WsEnvelope.fields env (name, v) = some env := by
  have hnone : ∀ n ∈ ["accepted", "message", "command", "report"],
      (lookupField WsEnvelope.fields n).isNone = true := by decide +kernel
  exact decodeMember_unknown (hnone name h) env v

/-- A command or a report comes behind the type tag of its frame. -/
lemma envelope_payload {σ α : Type} {c : Codec α} {d : ℕ} {p : α} {v : Json} {m zero : σ}
    {type : σ → String} {payload : σ → α} {setType : String → σ → σ} {setPayload : α → σ → σ}
    {name : String} (hname : name ∈ ["accepted", "message", "command", "report"])
    (hpayload : payload m = p) (hv : c.Takes d p v) (hd : d + 1 ≤ maxNestingDepth) :
    WsEnvelope.codec.unmarshal ((Codec.record zero [Codec.string.field "type" type setType,
      c.field name payload setPayload]).marshal m) = some ⟨type m⟩ := by
  have hcarries : Carries WsEnvelope.fields d m [Codec.string.field "type" type setType,
      c.field name payload setPayload] {} ⟨type m⟩ := by
    refine .read rfl (Codec.takes_string d (type m)).reads rfl ?_
    exact .read rfl (hpayload ▸ hv.reads) (skip_of_envelope hname _ _) .nil
  obtain ⟨ms, hreads, hdecode⟩ := hcarries.exists_object
  exact (Codec.unmarshal_bytes hreads hd hdecode).1

/-- **A command comes through a frame unchanged**; so does a nil pointer. -/
theorem readFrame_commandFrame {p : Option Command} (hp : ∀ c ∈ p, IsInt 64 c.timestamp) :
    readFrame jsonFrames true (commandFrame p) = some p := by
  obtain ⟨v, hv⟩ := exists_takes_pointer p fun c hc => Command.exists_takes (hp c hc)
  have htype : WsEnvelope.codec.unmarshal (commandFrame p) = some ⟨wsTypeCommand⟩ :=
    envelope_payload (by simp) rfl hv (by decide)
  have hmessage : WsCommandMessage.codec.unmarshal (commandFrame p) = some ⟨wsTypeCommand, p⟩ := by
    have htakes : ∃ ms, WsCommandMessage.codec.Takes 3 ⟨wsTypeCommand, p⟩ (.object ms) := by
      refine Codec.exists_takes_record (by decide) ?_
      refine ⟨_, (Codec.takes_string 2 wsTypeCommand).moves _ rfl, ?_⟩
      exact ⟨_, hv.moves _ rfl, rfl⟩
    obtain ⟨ms, hms⟩ := htakes
    exact hms.unmarshal_marshal (by decide)
  exact readFrame_jsonFrames htype rfl hmessage

/-- **A report comes through a frame unchanged.** -/
theorem unmarshal_reportFrame {p : Option Report} (hp : ∀ r ∈ p, r.Fits) :
    WsEnvelope.codec.unmarshal (reportFrame p) = some ⟨wsTypeReport⟩ ∧
      WsReportMessage.codec.unmarshal (reportFrame p) = some ⟨wsTypeReport, p⟩ := by
  obtain ⟨v, hv⟩ := exists_takes_pointer p fun r hr => Report.exists_takes (hp r hr)
  refine ⟨envelope_payload (by simp) rfl hv (by decide), ?_⟩
  have htakes : ∃ ms, WsReportMessage.codec.Takes 2 ⟨wsTypeReport, p⟩ (.object ms) := by
    refine Codec.exists_takes_record (by decide) ?_
    refine ⟨_, (Codec.takes_string 1 wsTypeReport).moves _ rfl, ?_⟩
    exact ⟨_, hv.moves _ rfl, rfl⟩
  obtain ⟨ms, hms⟩ := htakes
  exact hms.unmarshal_marshal (by decide)

end Frames

end K8sAgent
