import K8sAgent.Lib.JsonRecord
import K8sAgent.Protocol.Wire

set_option relaxedAutoImplicit false
set_option autoImplicit false

/-!
# Messages

The bodies of `internal/protocol/types.go` and the frames of `internal/protocol/ws.go`, with the
JSON tags of their fields. A field tagged `omitempty` is left out where it is empty. Pointers may be
nil; an integer has the bits of its type.

## Main definitions

* `K8sAgent.PollRequest`, `PollResponse`, `InventoryAck` — bodies of requests and answers.
* `K8sAgent.WsHello`, `WsHelloAck`, `WsEnvelope`, `WsCommandMessage`, `WsReportMessage` — frames.
* `codec` of each — how it is written and read.

## Main results

* `exists_takes` of each — a message is read as it was written, if its integers fit their types.
* `K8sAgent.eventText_eq` — the text of an event is the one of the spill file.
-/

namespace K8sAgent

open Encoding JsonText JsonReader

/-! ## Commands, reports, events -/

/-- The JSON form of a reference. -/
def ResourceRef.codec : Codec ResourceRef := .record {}
  [Codec.string.field "group" ResourceRef.group fun x r => { r with group := x },
    Codec.string.field "version" ResourceRef.version fun x r => { r with version := x },
    Codec.string.field "resource" ResourceRef.resource fun x r => { r with resource := x },
    Codec.string.omitEmpty "namespace" ResourceRef.namespace_ fun x r => { r with namespace_ := x },
    Codec.string.field "name" ResourceRef.name fun x r => { r with name := x }]

lemma ResourceRef.exists_takes (r : ResourceRef) : ∃ ms, codec.Takes 1 r (.object ms) := by
  refine Codec.exists_takes_record (by decide) ?_
  refine ⟨_, (Codec.takes_string 0 r.group).moves _ rfl, ?_⟩
  refine ⟨_, (Codec.takes_string 0 r.version).moves _ rfl, ?_⟩
  refine ⟨_, (Codec.takes_string 0 r.resource).moves _ rfl, ?_⟩
  refine ⟨_, (Codec.takes_string 0 r.namespace_).moves_omitEmpty _ rfl rfl, ?_⟩
  exact ⟨_, (Codec.takes_string 0 r.name).moves _ rfl, rfl⟩

/-- The JSON form of the Helm part. -/
def HelmSpec.codec : Codec HelmSpec := .record {}
  [Codec.string.field "releaseName" HelmSpec.releaseName fun x h => { h with releaseName := x },
    Codec.string.field "namespace" HelmSpec.namespace_ fun x h => { h with namespace_ := x },
    Codec.string.field "chartRef" HelmSpec.chartRef fun x h => { h with chartRef := x },
    Codec.string.omitEmpty "version" HelmSpec.version fun x h => { h with version := x },
    Codec.bytes.omitEmpty "valuesYaml" HelmSpec.valuesYAML fun x h => { h with valuesYAML := x }]

lemma HelmSpec.exists_takes (h : HelmSpec) : ∃ ms, codec.Takes 1 h (.object ms) := by
  refine Codec.exists_takes_record (by decide) ?_
  refine ⟨_, (Codec.takes_string 0 h.releaseName).moves _ rfl, ?_⟩
  refine ⟨_, (Codec.takes_string 0 h.namespace_).moves _ rfl, ?_⟩
  refine ⟨_, (Codec.takes_string 0 h.chartRef).moves _ rfl, ?_⟩
  refine ⟨_, (Codec.takes_string 0 h.version).moves_omitEmpty _ rfl rfl, ?_⟩
  exact ⟨_, (Codec.takes_bytes 0 h.valuesYAML).moves_omitEmpty _ rfl rfl, rfl⟩

/-- The JSON form of a command. -/
def Command.codec : Codec Command := .record {}
  [Codec.string.field "id" Command.id fun x c => { c with id := x },
    Codec.string.field "nonce" Command.nonce fun x c => { c with nonce := x },
    (Codec.int 64).field "timestamp" Command.timestamp fun x c => { c with timestamp := x },
    Codec.string.field "verb" Command.verb fun x c => { c with verb := x },
    ResourceRef.codec.field "target" Command.target fun x c => { c with target := x },
    Codec.bytes.omitEmpty "payload" Command.payload fun x c => { c with payload := x },
    Codec.string.omitEmpty "patchType" Command.patchType fun x c => { c with patchType := x },
    HelmSpec.codec.pointer.omitEmpty "helm" Command.helm fun x c => { c with helm := x },
    Codec.string.omitEmpty "expectedHash" Command.expectedHash
      fun x c => { c with expectedHash := x },
    Codec.bool.omitEmpty "override" Command.override fun x c => { c with override := x },
    Codec.string.field "signature" Command.signature fun x c => { c with signature := x }]

/-- A pointer to what is written as an object. -/
lemma exists_takes_pointer {α : Type} {c : Codec α} {d : ℕ} (p : Option α)
    (h : ∀ x ∈ p, ∃ ms, c.Takes d x (.object ms)) : ∃ v, c.pointer.Takes d p v := by
  cases p with
  | none => exact ⟨_, Codec.takes_nil d c⟩
  | some x =>
    obtain ⟨ms, hms⟩ := h x rfl
    exact ⟨_, hms.pointer Json.noConfusion⟩

/-- **A command is read as it was written.** -/
theorem Command.exists_takes {c : Command} (hc : IsInt 64 c.timestamp) :
    ∃ ms, codec.Takes 2 c (.object ms) := by
  obtain ⟨_, htarget⟩ := c.target.exists_takes
  obtain ⟨_, hhelm⟩ := exists_takes_pointer (c := HelmSpec.codec) (d := 1) c.helm
    fun h _ => h.exists_takes
  refine Codec.exists_takes_record (by decide) ?_
  refine ⟨_, (Codec.takes_string 1 c.id).moves _ rfl, ?_⟩
  refine ⟨_, (Codec.takes_string 1 c.nonce).moves _ rfl, ?_⟩
  refine ⟨_, (Codec.takes_int 1 (by omega) hc).moves _ rfl, ?_⟩
  refine ⟨_, (Codec.takes_string 1 c.verb).moves _ rfl, ?_⟩
  refine ⟨_, htarget.moves _ rfl, ?_⟩
  refine ⟨_, (Codec.takes_bytes 1 c.payload).moves_omitEmpty _ rfl rfl, ?_⟩
  refine ⟨_, (Codec.takes_string 1 c.patchType).moves_omitEmpty _ rfl rfl, ?_⟩
  refine ⟨_, hhelm.moves_omitEmpty _ rfl rfl, ?_⟩
  refine ⟨_, (Codec.takes_string 1 c.expectedHash).moves_omitEmpty _ rfl rfl, ?_⟩
  refine ⟨_, (Codec.takes_bool 1 c.override).moves_omitEmpty _ rfl rfl, ?_⟩
  exact ⟨_, (Codec.takes_string 1 c.signature).moves _ rfl, rfl⟩

/-- The JSON form of a report. -/
def Report.codec : Codec Report := .record {}
  [Codec.string.omitEmpty "clusterId" Report.clusterID fun x r => { r with clusterID := x },
    Codec.string.field "commandId" Report.commandID fun x r => { r with commandID := x },
    Codec.string.field "status" Report.status fun x r => { r with status := x },
    Codec.string.omitEmpty "message" Report.message fun x r => { r with message := x },
    Codec.string.omitEmpty "diff" Report.diff fun x r => { r with diff := x },
    (Codec.int 32).omitEmpty "progress" Report.progress fun x r => { r with progress := x },
    (Codec.int 64).field "timestamp" Report.timestamp fun x r => { r with timestamp := x }]

/-- The integers of a report fit their types. -/
def Report.Fits (r : Report) : Prop := IsInt 32 r.progress ∧ IsInt 64 r.timestamp

instance (r : Report) : Decidable r.Fits := inferInstanceAs (Decidable (_ ∧ _))

/-- **A report is read as it was written.** -/
theorem Report.exists_takes {r : Report} (hr : r.Fits) : ∃ ms, codec.Takes 1 r (.object ms) := by
  refine Codec.exists_takes_record (by decide) ?_
  refine ⟨_, (Codec.takes_string 0 r.clusterID).moves_omitEmpty _ rfl rfl, ?_⟩
  refine ⟨_, (Codec.takes_string 0 r.commandID).moves _ rfl, ?_⟩
  refine ⟨_, (Codec.takes_string 0 r.status).moves _ rfl, ?_⟩
  refine ⟨_, (Codec.takes_string 0 r.message).moves_omitEmpty _ rfl rfl, ?_⟩
  refine ⟨_, (Codec.takes_string 0 r.diff).moves_omitEmpty _ rfl rfl, ?_⟩
  refine ⟨_, (Codec.takes_int 0 (by omega) hr.1).moves_omitEmpty _ rfl rfl, ?_⟩
  exact ⟨_, (Codec.takes_int 0 (by omega) hr.2).moves _ rfl, rfl⟩

/-- The JSON form of an event. -/
def InventoryEvent.codec : Codec InventoryEvent := .record {}
  [Codec.string.field "op" InventoryEvent.op fun x ev => { ev with op := x },
    ResourceRef.codec.field "ref" InventoryEvent.ref fun x ev => { ev with ref := x },
    Codec.bytes.omitEmpty "objectJson" InventoryEvent.objectJSON
      fun x ev => { ev with objectJSON := x },
    (Codec.int 64).field "timestamp" InventoryEvent.timestamp
      fun x ev => { ev with timestamp := x }]

/-- **An event is read as it was written.** -/
theorem InventoryEvent.exists_takes {ev : InventoryEvent} (hev : IsInt 64 ev.timestamp) :
    ∃ ms, codec.Takes 2 ev (.object ms) := by
  obtain ⟨_, href⟩ := ev.ref.exists_takes
  refine Codec.exists_takes_record (by decide) ?_
  refine ⟨_, (Codec.takes_string 1 ev.op).moves _ rfl, ?_⟩
  refine ⟨_, href.moves _ rfl, ?_⟩
  refine ⟨_, (Codec.takes_bytes 1 ev.objectJSON).moves_omitEmpty _ rfl rfl, ?_⟩
  exact ⟨_, (Codec.takes_int 1 (by omega) hev).moves _ rfl, rfl⟩

/-- The text of a reference is the one by its fields. -/
lemma refText_eq (r : ResourceRef) : ResourceRef.codec.text r = refText r := by
  by_cases hns : r.namespace_ = "" <;>
    simp [ResourceRef.codec, Codec.record, membersOf, refText, refMembers, Codec.field,
      Codec.omitEmpty, Codec.string, objectText, hns]

/-- **The text of an event is the one of the spill file.** -/
theorem eventText_eq (ev : InventoryEvent) : InventoryEvent.codec.text ev = eventText ev := by
  by_cases hobj : ev.objectJSON = [] <;>
    simp [InventoryEvent.codec, Codec.record, membersOf, eventText, eventMembers, Codec.field,
      Codec.omitEmpty, Codec.string, Codec.bytes, Codec.int, objectText, hobj, refText_eq,
      byteText_eq_quoted]

/-! ## Bodies -/

/-- The body of an inventory upload, with pointers to the events. -/
structure InventoryBody where
  /-- Cluster. -/
  clusterID : String := ""
  /-- Sequence number. -/
  seq : ℤ := 0
  /-- Part of a full snapshot. -/
  full : Bool := false
  /-- The events. -/
  events : List (Option InventoryEvent) := []
  deriving DecidableEq

/-- The body a batch is sent as. -/
def InventoryBatch.body (b : InventoryBatch) : InventoryBody where
  clusterID := b.clusterID
  seq := b.seq
  full := b.full
  events := b.events.map some

/-- The answer to an inventory upload. -/
structure InventoryAck where
  /-- The batch was taken. -/
  ok : Bool := false
  /-- The last sequence number the server has. -/
  lastSeq : ℤ := 0
  /-- Error text. -/
  error : String := ""
  deriving DecidableEq

/-- The body of a poll. -/
structure PollRequest where
  /-- Cluster. -/
  clusterID : String := ""
  /-- Version of the agent. -/
  version : String := ""
  /-- The reports that are queued. -/
  reports : List (Option Report) := []
  deriving DecidableEq

/-- The answer to a poll. -/
structure PollResponse where
  /-- The poll was accepted. -/
  ok : Bool := false
  /-- The commands. -/
  commands : List (Option Command) := []
  deriving DecidableEq

/-- The JSON form of an upload. -/
def InventoryBody.codec : Codec InventoryBody := .record {}
  [Codec.string.omitEmpty "clusterId" InventoryBody.clusterID fun x b => { b with clusterID := x },
    (Codec.int 64).field "seq" InventoryBody.seq fun x b => { b with seq := x },
    Codec.bool.omitEmpty "full" InventoryBody.full fun x b => { b with full := x },
    InventoryEvent.codec.pointer.slice.field "events" InventoryBody.events
      fun x b => { b with events := x }]

/-- **An upload is read as it was written.** -/
theorem InventoryBody.exists_takes {b : InventoryBody} (hseq : IsInt 64 b.seq)
    (hevents : ∀ ev, some ev ∈ b.events → IsInt 64 ev.timestamp) :
    ∃ ms, codec.Takes 4 b (.object ms) := by
  obtain ⟨_, hslice⟩ := Codec.exists_takes_slice (c := InventoryEvent.codec.pointer) (d := 2)
    fun p hp => exists_takes_pointer p fun ev hev =>
      (InventoryEvent.exists_takes (hevents ev (hev ▸ hp)))
  refine Codec.exists_takes_record (by decide) ?_
  refine ⟨_, (Codec.takes_string 3 b.clusterID).moves_omitEmpty _ rfl rfl, ?_⟩
  refine ⟨_, (Codec.takes_int 3 (by omega) hseq).moves _ rfl, ?_⟩
  refine ⟨_, (Codec.takes_bool 3 b.full).moves_omitEmpty _ rfl rfl, ?_⟩
  exact ⟨_, hslice.moves _ rfl, rfl⟩

/-- The JSON form of an acknowledgement. -/
def InventoryAck.codec : Codec InventoryAck := .record {}
  [Codec.bool.field "ok" InventoryAck.ok fun x a => { a with ok := x },
    (Codec.int 64).field "lastSeq" InventoryAck.lastSeq fun x a => { a with lastSeq := x },
    Codec.string.omitEmpty "error" InventoryAck.error fun x a => { a with error := x }]

/-- An acknowledgement is read as it was written. -/
lemma InventoryAck.exists_takes {a : InventoryAck} (ha : IsInt 64 a.lastSeq) :
    ∃ ms, codec.Takes 1 a (.object ms) := by
  refine Codec.exists_takes_record (by decide) ?_
  refine ⟨_, (Codec.takes_bool 0 a.ok).moves _ rfl, ?_⟩
  refine ⟨_, (Codec.takes_int 0 (by omega) ha).moves _ rfl, ?_⟩
  exact ⟨_, (Codec.takes_string 0 a.error).moves_omitEmpty _ rfl rfl, rfl⟩

/-- The JSON form of a poll. -/
def PollRequest.codec : Codec PollRequest := .record {}
  [Codec.string.omitEmpty "clusterId" PollRequest.clusterID fun x p => { p with clusterID := x },
    Codec.string.omitEmpty "version" PollRequest.version fun x p => { p with version := x },
    Report.codec.pointer.slice.omitEmpty "reports" PollRequest.reports
      fun x p => { p with reports := x }]

/-- **A poll is read as it was written.** -/
theorem PollRequest.exists_takes {p : PollRequest} (hp : ∀ r, some r ∈ p.reports → r.Fits) :
    ∃ ms, codec.Takes 3 p (.object ms) := by
  obtain ⟨_, hslice⟩ := Codec.exists_takes_slice (c := Report.codec.pointer) (d := 1)
    fun q hq => exists_takes_pointer q fun r hr => Report.exists_takes (hp r (hr ▸ hq))
  refine Codec.exists_takes_record (by decide) ?_
  refine ⟨_, (Codec.takes_string 2 p.clusterID).moves_omitEmpty _ rfl rfl, ?_⟩
  refine ⟨_, (Codec.takes_string 2 p.version).moves_omitEmpty _ rfl rfl, ?_⟩
  exact ⟨_, hslice.moves_omitEmpty _ rfl rfl, rfl⟩

/-- The fields of an answer to a poll. -/
def PollResponse.fields : List (JsonField PollResponse) :=
  [Codec.bool.field "ok" PollResponse.ok fun x p => { p with ok := x },
    Command.codec.pointer.slice.omitEmpty "commands" PollResponse.commands
      fun x p => { p with commands := x }]

/-- The JSON form of an answer as the agent reads it. -/
def PollResponse.codec : Codec PollResponse := .record {} fields

/-! ## Frames -/

/-- The type tag of the first frame. -/
def wsTypeAgentHello : String := "agent_hello"
/-- The type tag of the answer to it. -/
def wsTypeHelloAck : String := "hello_ack"
/-- The type tag of report frames. -/
def wsTypeReport : String := "report"

/-- The first frame the agent sends. -/
structure WsHello where
  /-- Type tag. -/
  type : String := ""
  /-- Token. -/
  token : String := ""
  /-- Cluster. -/
  clusterID : String := ""
  /-- Version of the agent. -/
  version : String := ""
  deriving DecidableEq

/-- The answer of the server. -/
structure WsHelloAck where
  /-- Type tag. -/
  type : String := ""
  /-- The token was accepted. -/
  accepted : Bool := false
  /-- Why it was not. -/
  message : String := ""
  deriving DecidableEq

/-- The type tag of a frame. -/
structure WsEnvelope where
  /-- Type tag. -/
  type : String := ""
  deriving DecidableEq

/-- A frame with a command. -/
structure WsCommandMessage where
  /-- Type tag. -/
  type : String := ""
  /-- The command. -/
  command : Option Command := none
  deriving DecidableEq

/-- A frame with a report. -/
structure WsReportMessage where
  /-- Type tag. -/
  type : String := ""
  /-- The report. -/
  report : Option Report := none
  deriving DecidableEq

/-- The JSON form of the first frame. -/
def WsHello.codec : Codec WsHello := .record {}
  [Codec.string.field "type" WsHello.type fun x h => { h with type := x },
    Codec.string.field "token" WsHello.token fun x h => { h with token := x },
    Codec.string.omitEmpty "clusterId" WsHello.clusterID fun x h => { h with clusterID := x },
    Codec.string.omitEmpty "version" WsHello.version fun x h => { h with version := x }]

/-- **The first frame is read as it was written.** -/
theorem WsHello.exists_takes (h : WsHello) : ∃ ms, codec.Takes 1 h (.object ms) := by
  refine Codec.exists_takes_record (by decide) ?_
  refine ⟨_, (Codec.takes_string 0 h.type).moves _ rfl, ?_⟩
  refine ⟨_, (Codec.takes_string 0 h.token).moves _ rfl, ?_⟩
  refine ⟨_, (Codec.takes_string 0 h.clusterID).moves_omitEmpty _ rfl rfl, ?_⟩
  exact ⟨_, (Codec.takes_string 0 h.version).moves_omitEmpty _ rfl rfl, rfl⟩

/-- The fields of the answer to the first frame. -/
def WsHelloAck.fields : List (JsonField WsHelloAck) :=
  [Codec.string.field "type" WsHelloAck.type fun x a => { a with type := x },
    Codec.bool.field "accepted" WsHelloAck.accepted fun x a => { a with accepted := x },
    Codec.string.omitEmpty "message" WsHelloAck.message fun x a => { a with message := x }]

/-- The JSON form of the answer to it. -/
def WsHelloAck.codec : Codec WsHelloAck := .record {} fields

/-- The fields of a type tag. -/
def WsEnvelope.fields : List (JsonField WsEnvelope) :=
  [Codec.string.field "type" WsEnvelope.type fun x e => { e with type := x }]

/-- The JSON form of a type tag. -/
def WsEnvelope.codec : Codec WsEnvelope := .record {} fields

/-- The fields of a command frame. -/
def WsCommandMessage.fields : List (JsonField WsCommandMessage) :=
  [Codec.string.field "type" WsCommandMessage.type fun x m => { m with type := x },
    Command.codec.pointer.field "command" WsCommandMessage.command
      fun x m => { m with command := x }]

/-- The JSON form of a command frame. -/
def WsCommandMessage.codec : Codec WsCommandMessage := .record {} fields

/-- The fields of a report frame. -/
def WsReportMessage.fields : List (JsonField WsReportMessage) :=
  [Codec.string.field "type" WsReportMessage.type fun x m => { m with type := x },
    Report.codec.pointer.field "report" WsReportMessage.report fun x m => { m with report := x }]

/-- The JSON form of a report frame. -/
def WsReportMessage.codec : Codec WsReportMessage := .record {} fields

end K8sAgent
