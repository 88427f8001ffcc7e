import Mathlib.Data.List.ReduceOption
import K8sAgent.Channel.Frames
import K8sAgent.Protocol.Http

set_option relaxedAutoImplicit false
set_option autoImplicit false

/-!
# The mock control plane

The server of `cmd/mockserver/main.go`. It reads commands from a file, completes and signs them, and
hands them out once on each path: in the answer to the first poll, and over the first WebSocket
connection. Every request has to carry its token. Requests, answers and frames are the bytes that
are sent, and they are read by the client of the agent.

## Main definitions

* `K8sAgent.KeyPair`, `K8sAgent.Command.sign` — signatures, `Sign` of `internal/protocol/sign.go`.
* `K8sAgent.MockServer`, `K8sAgent.MockServer.newServer` — the server, and how it starts.
* `K8sAgent.MockServer.poll`, `inventory`, `ws`, `readReports` — its handlers.

## Main results

* `K8sAgent.Command.verifySignature_sign` — a command that is signed verifies.
* `K8sAgent.MockServer.valid_newServer` — the commands of a new server verify, and their timestamps
  fit their type.
* `K8sAgent.MockServer.poll_outcome`, `inventory_outcome`, `handshake_outcome`, `reports_outcome` —
  what server and agent have of a poll, an upload, a handshake and of reports.
-/

namespace K8sAgent

open Encoding JsonText JsonReader Frames Http

/-! ## Signatures -/

/-- An Ed25519 key pair: signatures have 64 bytes and verify. -/
structure KeyPair (env : Env) where
  /-- The public key. -/
  pub : Bytes
  /-- The signature of a message. -/
  sign : Bytes → Bytes
  /-- A public key has 32 bytes. -/
  length_pub : pub.length = publicKeySize
  /-- A signature has 64 bytes. -/
  length_sign : ∀ msg, (sign msg).length = 64
  /-- A signature verifies. -/
  verify_sign : ∀ msg, env.ed25519Verify pub msg (sign msg) = true

variable {env : Env}

/-- Sign a command. -/
def Command.sign (k : KeyPair env) (c : Command) : Command :=
  { c with signature := base64Encode (k.sign (c.signingPayload env)) }

/-- **A command that is signed verifies**: the signature is none of the fields it covers. -/
theorem Command.verifySignature_sign (k : KeyPair env) (c : Command) :
    (c.sign k).verifySignature env k.pub = none := by
  refine Command.verifySignature_eq_none.mpr ⟨?_, k.sign (c.signingPayload env), ?_, ?_⟩
  · intro hempty
    have hlen := congrArg (fun s => s.toList.length) hempty
    simp only [Command.sign, base64Encode, String.toList_ofList, length_base64Chars,
      k.length_sign] at hlen
    exact absurd hlen (by decide)
  · exact base64Decode_base64Encode _
  · exact k.verify_sign _

/-! ## The server -/

/-- The mock server. -/
structure MockServer where
  /-- The token that every request has to carry. -/
  token : String
  /-- The signed commands. -/
  commands : List Command
  /-- The commands have been returned by a poll. -/
  delivered : Bool := false
  /-- The commands have been pushed over a connection. -/
  wsDelivered : Bool := false
  /-- The most bytes of a frame that the WebSocket library reads for the server, which sets no limit
  of its own; a longer frame ends the connection. -/
  readLimit : ℕ
  deriving DecidableEq

namespace MockServer

/-- What a command is completed with. -/
structure Fresh where
  /-- A random ID. -/
  id : String
  /-- A random nonce. -/
  nonce : String
  /-- The time in seconds. -/
  now : ℤ

/-- Complete a command, and sign it. -/
def prepare (k : KeyPair env) (fresh : Fresh) (c : Command) : Command :=
  Command.sign k
    { c with
      id := if c.id = "" then fresh.id else c.id
      nonce := if c.nonce = "" then fresh.nonce else c.nonce
      timestamp := if c.timestamp = 0 then fresh.now else c.timestamp }

/-- A new server, with the contents of its command file if it has one; `none` where the file does
not decode or holds a nil pointer, which is dereferenced. -/
def newServer (k : KeyPair env) (fresh : ℕ → Fresh) (readLimit : ℕ) (token : String) :
    (file : Option Bytes) → Option MockServer
  | none => some { token := token, commands := [], readLimit := readLimit }
  | some data => (Command.codec.pointer.slice.unmarshal data).bind fun ps =>
      if none ∈ ps then none
      else some
        { token := token
          commands := ps.reduceOption.mapIdx fun i c => prepare k (fresh i) c
          readLimit := readLimit }

/-- The server has the token of a request. -/
def authorized (s : MockServer) (authorization : String) : Bool :=
  authorization = bearer s.token

/-- What comes of a request. -/
structure Outcome (α : Type) where
  /-- The server after it. -/
  server : MockServer
  /-- What the server has decoded, of which it logs some fields. -/
  decoded : α
  /-- Status and body of the answer; `none` where the connection is closed without one. -/
  answer : Option (ℕ × Bytes)

/-- An upload is decoded and acknowledged; `decodeError` is the text for a body that does not
decode. -/
def inventory (s : MockServer) (decodeError : Bytes → String) (authorization : String)
    (body : Bytes) : Outcome (Option InventoryBody) :=
  if s.authorized authorization = false then
    ⟨s, none, some (401, writeJSON InventoryAck.codec {})⟩
  else match InventoryBody.codec.decodeFirst body with
    | none => ⟨s, none, some (400, writeJSON InventoryAck.codec { error := decodeError body })⟩
    | some b =>
      ⟨s, some b, some (200, writeJSON InventoryAck.codec { ok := true, lastSeq := b.seq })⟩

/-- A poll: its reports are gone through up to the first nil pointer, which is dereferenced; the
first poll that gets beyond them is answered with the commands, every other one with an empty
list. -/
def poll (s : MockServer) (authorization : String) (body : Bytes) : Outcome (List Report) :=
  if s.authorized authorization = false then
    ⟨s, [], some (401, writeJSON PollResponse.codec {})⟩
  else match PollRequest.codec.decodeFirst body with
    | none => ⟨s, [], some (400, writeJSON PollResponse.codec {})⟩
    | some req =>
      let decoded := (req.reports.takeWhile Option.isSome).reduceOption
      if none ∈ req.reports then ⟨s, decoded, none⟩
      else if s.delivered then
        ⟨s, decoded, some (200, writeJSON PollResponse.explicit { ok := true })⟩
      else
        ⟨{ s with delivered := true }, decoded, some (200, writeJSON PollResponse.explicit
          { ok := true, commands := s.commands.map some })⟩

/-- A request of a client with the given token: one that cannot be sent changes nothing. -/
def exchange {α : Type} (s : MockServer) (token : String) (nothing : α)
    (handle : String → Outcome α) : Outcome α :=
  match headerValue (bearer token) with
  | none => ⟨s, nothing, none⟩
  | some authorization => handle authorization

/-- An answer to the first frame of a connection. -/
def helloAck (accepted : Bool) (msg : String) : Bytes :=
  WsHelloAck.codec.marshal ⟨wsTypeHelloAck, accepted, msg⟩

/-- The frames that are written to a connection, by the first frame that is read there, if the first
`n` writes succeed. The commands count as pushed as soon as the answer is written. -/
def ws (s : MockServer) (hello : Bytes) (n : ℕ) : MockServer × List Bytes :=
  if hello.length > s.readLimit then (s, [])
  else match WsHello.codec.unmarshal hello with
  | none => (s, [helloAck false "expected agent_hello"].take n)
  | some h =>
    if h.type ≠ wsTypeAgentHello then (s, [helloAck false "expected agent_hello"].take n)
    else if h.token ≠ s.token then (s, [helloAck false "unauthorized"].take n)
    else if n = 0 then (s, [])
    else if s.wsDelivered then (s, [helloAck true ""])
    else ({ s with wsDelivered := true },
      (helloAck true "" :: s.commands.map fun c => commandFrame (some c)).take n)

/-- What the server makes of a later frame. -/
inductive ReportFrame : Type where
  /-- The report is decoded, and fields of it are logged. -/
  | decoded (r : Report)
  /-- The frame is dropped. -/
  | dropped
  /-- The connection ends. -/
  | ended

/-- One frame of the loop that reads reports. -/
def readReport (s : MockServer) (data : Bytes) : ReportFrame :=
  if data.length > s.readLimit then .ended
  else match WsEnvelope.codec.unmarshal data with
    | none => .dropped
    | some env =>
      if env.type ≠ wsTypeReport then .dropped
      else match WsReportMessage.codec.unmarshal data with
        | none => .dropped
        | some msg => match msg.report with
          | some r => .decoded r
          -- a nil pointer is dereferenced
          | none => .ended

/-- The reports that are decoded from the frames of a connection. -/
def readReports (s : MockServer) : List Bytes → List Report
  | [] => []
  | data :: frames => match s.readReport data with
    | .decoded r => r :: s.readReports frames
    | .dropped => s.readReports frames
    | .ended => []

/-! ## The commands of a server -/

/-- The commands verify, and their timestamps fit their type. -/
def Valid (k : KeyPair env) (s : MockServer) : Prop :=
  ∀ c ∈ s.commands, c.verifySignature env k.pub = none ∧ IsInt 64 c.timestamp

/-- The timestamps of the commands fit their type. -/
def Fits (s : MockServer) : Prop := ∀ c ∈ s.commands, IsInt 64 c.timestamp

/-- The timestamp of a command that is read fits its type. -/
lemma keeps_timestamp : Command.codec.Keeps fun c => IsInt 64 c.timestamp := by
  refine Codec.keeps_record (by decide) fun f hf {v c c'} hc hdecode => ?_
  simp only [List.mem_cons, List.not_mem_nil, or_false] at hf
  rcases hf with rfl | rfl | rfl | rfl | rfl | rfl | rfl | rfl | rfl | rfl | rfl <;>
    obtain ⟨x, hx, rfl⟩ := Option.map_eq_some_iff.mp hdecode
  case inr.inr.inl => exact (Codec.keeps_int 64).decode hc hx
  all_goals exact hc

/-- A command that is completed and signed verifies, and its timestamp fits. -/
lemma valid_prepare (k : KeyPair env) {fresh : Fresh} {c : Command} (hnow : IsInt 64 fresh.now)
    (hc : IsInt 64 c.timestamp) :
    (prepare k fresh c).verifySignature env k.pub = none ∧
      IsInt 64 (prepare k fresh c).timestamp := by
  refine ⟨Command.verifySignature_sign k _, ?_⟩
  show IsInt 64 (if c.timestamp = 0 then fresh.now else c.timestamp)
  split_ifs
  · exact hnow
  · exact hc

/-- **The commands of a new server verify, and their timestamps fit their type**, whatever the file
says. -/
theorem valid_newServer {k : KeyPair env} {fresh : ℕ → Fresh} {readLimit : ℕ} {token : String}
    {file : Option Bytes} {s : MockServer} (hfresh : ∀ i, IsInt 64 (fresh i).now)
    (h : newServer k fresh readLimit token file = some s) : s.Valid k := by
  cases file with
  | none =>
    obtain rfl := Option.some.inj h
    exact fun c hc => absurd hc List.not_mem_nil
  | some data =>
    obtain ⟨ps, hps, hserver⟩ := Option.bind_eq_some_iff.mp h
    have hread : ∀ p ∈ ps, ∀ c ∈ p, IsInt 64 c.timestamp :=
      keeps_timestamp.pointer.slice.unmarshal hps
    split_ifs at hserver
    obtain rfl := Option.some.inj hserver
    intro c hc
    obtain ⟨i, hi, rfl⟩ := List.mem_mapIdx.mp hc
    have hmem := List.reduceOption_mem_iff.mp (List.getElem_mem hi)
    exact valid_prepare k (hfresh i) (hread _ hmem _ rfl)

/-! ## Requests -/

section Requests

variable {s : MockServer} {token : String}

/-- The server takes the token of a client for its own. -/
def Accepts (s : MockServer) (token : String) : Prop :=
  Sendable token ∧ s.token ≠ "" ∧ stem token = s.token.toList

instance (s : MockServer) (token : String) : Decidable (s.Accepts token) :=
  inferInstanceAs (Decidable (_ ∧ _))

/-- **What a request can do.** A token that cannot be sent changes nothing; one that is sent
arrives, and the server takes it for its own or not. -/
theorem exchange_cases {α : Type} (s : MockServer) (token : String) (nothing : α)
    (handle : String → Outcome α) :
    (¬Sendable token ∧ ¬s.Accepts token ∧ s.exchange token nothing handle = ⟨s, nothing, none⟩) ∨
    ∃ authorization, Sendable token ∧ s.exchange token nothing handle = handle authorization ∧
      ((s.Accepts token ∧ s.authorized authorization = true) ∨
        (¬s.Accepts token ∧ s.authorized authorization = false)) := by
  by_cases hsend : Sendable token
  · have hiff := headerValue_bearer_eq_iff (t := s.token) hsend
    rw [headerValue_bearer hsend, Option.some.injEq] at hiff
    refine .inr ⟨_, hsend, by rw [exchange, headerValue_bearer hsend], ?_⟩
    by_cases hacc : s.Accepts token
    · exact .inl ⟨hacc, decide_eq_true (hiff.mpr hacc.2)⟩
    · exact .inr ⟨hacc, decide_eq_false fun h => hacc ⟨hsend, hiff.mp h⟩⟩
  · refine .inl ⟨hsend, fun h => hsend h.1, ?_⟩
    rw [exchange, headerValue_bearer_of_not_sendable hsend]

/-- A rejection is short enough for the text of the error. -/
lemma post_of_rejected {α : Type} (c : Codec α) {body : Bytes} (h : body.length ≤ 200) :
    post c (some (401, body)) = .error (.auth 401 body) := by
  have htake : body.take maxResponseBytes = body := List.take_of_length_le (h.trans (by decide))
  rw [post, htake, truncate, if_neg (Nat.not_lt.mpr h)]
  rfl

/-! ## Polls -/

/-- The body of the agent's poll. -/
def pollBody (clusterID : String) (reports : List Report) : Bytes :=
  PollRequest.codec.marshal
    { clusterID := clusterID, version := agentVersion, reports := reports.map some }

/-- The answer to the first poll. -/
def firstAnswer (s : MockServer) : PollResponse := { ok := true, commands := s.commands.map some }

/-- What server and agent have of a poll. -/
structure Polled (s : MockServer) (token : String) (reports : List Report)
    (o : Outcome (List Report)) : Prop where
  /-- The server has the reports, if it takes the token for its own. -/
  decoded : o.decoded = if s.Accepts token then reports else []
  /-- The commands count as delivered if the token was accepted. -/
  server : o.server = if s.Accepts token then { s with delivered := true } else s
  /-- The agent has the commands, all of them, or an empty list, or an error. -/
  answer : post PollResponse.codec o.answer =
    if Sendable token then
      if s.Accepts token then
        if s.delivered then .ok { ok := true }
        else if (PollResponse.explicit.marshal s.firstAnswer).length ≤ maxResponseBytes then
          .ok s.firstAnswer
        else .error .decode
      else .error (.auth 401 (utf8 "\x7b\"ok\":false\x7d\n"))
    else .error .send

lemma fits_firstAnswer (hs : s.Fits) : s.firstAnswer.Fits := by
  intro c hc
  obtain ⟨c', hc', heq⟩ := List.mem_map.mp hc
  exact Option.some.inj heq ▸ hs c' hc'

/-- The answer with an empty list, as the agent has it. -/
lemma post_empty :
    post PollResponse.codec (some (200, writeJSON PollResponse.explicit { ok := true })) =
      .ok { ok := true } := by
  have hshort : (PollResponse.explicit.marshal { ok := true }).length ≤ maxResponseBytes := by
    decide +kernel
  rw [post_explicit fun c hc => absurd hc List.not_mem_nil, if_pos hshort]

/-- **A poll that decodes**, without a nil pointer among its reports. -/
theorem poll_of_request {authorization : String} {req : PollRequest} {body : Bytes}
    {reports : List Report} (hauth : s.authorized authorization = true)
    (hreq : PollRequest.codec.decodeFirst body = some req)
    (hreports : req.reports = reports.map some) :
    s.poll authorization body =
      ⟨{ s with delivered := true }, reports, some (200, writeJSON PollResponse.explicit
        (if s.delivered then { ok := true } else s.firstAnswer))⟩ := by
  have hdecoded : (req.reports.takeWhile Option.isSome).reduceOption = reports := by
    rw [hreports, List.takeWhile_eq_self_iff.mpr (by simp)]
    simp [List.reduceOption]
  have hnil : none ∉ req.reports := by simp [hreports]
  rw [poll, hauth, if_neg (by decide), hreq]
  simp only [hdecoded, if_neg hnil]
  obtain ⟨t, cs, delivered, pushed, limit⟩ := s
  cases delivered <;> rfl

/-- The agent's poll is read as it was written. -/
lemma decodeFirst_pollBody (clusterID : String) {reports : List Report}
    (hreports : ∀ r ∈ reports, r.Fits) :
    PollRequest.codec.decodeFirst (pollBody clusterID reports) =
      some { clusterID := clusterID, version := agentVersion, reports := reports.map some } := by
  obtain ⟨ms, htakes⟩ := PollRequest.exists_takes
    (p := { clusterID := clusterID, version := agentVersion, reports := reports.map some })
    (by simpa using hreports)
  rw [← List.append_nil (pollBody clusterID reports)]
  exact Codec.decodeFirst_marshal htakes.reads (by decide) htakes.decode []

/-- **What comes of a poll.** Whatever the token, the reports and the commands are, the server
decodes the reports as the agent has them if it takes the token for its own, and the agent has
exactly the commands of the server the first time and none later. A token with a control character
is not sent, blanks after it do not matter, and every other one is reported as rejected. If the
commands have more than 16 MiB as JSON, the agent has none of them, and they are not sent again.

**Proof sketch.** The request is read from its bytes as it was written (`decodeFirst_pollBody`), and
so is the answer, unless it is cut off (`post_explicit`). -/
theorem poll_outcome (s : MockServer) (hs : ∀ c ∈ s.commands, IsInt 64 c.timestamp)
    (token clusterID : String) (reports : List Report) (hreports : ∀ r ∈ reports, r.Fits) :
    s.Polled token reports (s.exchange token [] fun authorization =>
      s.poll authorization (pollBody clusterID reports)) := by
  rcases exchange_cases s token [] (fun authorization =>
      s.poll authorization (pollBody clusterID reports)) with
    ⟨hsend, hacc, heq⟩ | ⟨authorization, hsend, heq, ⟨hacc, hauth⟩ | ⟨hacc, hauth⟩⟩
  · rw [heq]
    refine ⟨(if_neg hacc).symm, (if_neg hacc).symm, ?_⟩
    rw [if_neg hsend]
    rfl
  · rw [heq, poll_of_request hauth (decodeFirst_pollBody clusterID hreports) rfl]
    refine ⟨(if_pos hacc).symm, (if_pos hacc).symm, ?_⟩
    rw [if_pos hsend, if_pos hacc]
    by_cases hdelivered : s.delivered = true
    · rw [if_pos hdelivered, if_pos hdelivered]
      exact post_empty
    · rw [if_neg hdelivered, if_neg hdelivered]
      exact post_explicit (fits_firstAnswer hs)
  · have hbody : writeJSON PollResponse.codec {} = utf8 "\x7b\"ok\":false\x7d\n" := by
      decide +kernel
    rw [heq, poll, if_pos hauth, hbody]
    refine ⟨(if_neg hacc).symm, (if_neg hacc).symm, ?_⟩
    rw [if_pos hsend, if_neg hacc]
    exact post_of_rejected _ (by decide +kernel)

/-- The first poll with a token that the server takes for its own brings the commands. -/
lemma post_firstPoll (hs : s.Fits) (hacc : s.Accepts token)
    (hdelivered : s.delivered = false) (clusterID : String) {reports : List Report}
    (hreports : ∀ r ∈ reports, r.Fits)
    (hshort : (PollResponse.explicit.marshal s.firstAnswer).length ≤ maxResponseBytes) :
    post PollResponse.codec (s.exchange token [] fun authorization =>
      s.poll authorization (pollBody clusterID reports)).answer = .ok s.firstAnswer := by
  rcases exchange_cases s token [] (fun authorization =>
      s.poll authorization (pollBody clusterID reports)) with
    ⟨-, hnot, -⟩ | ⟨authorization, -, heq, ⟨-, hauth⟩ | ⟨hnot, -⟩⟩
  · exact absurd hacc hnot
  · rw [heq, poll_of_request hauth (decodeFirst_pollBody clusterID hreports) rfl, hdelivered,
      if_neg Bool.false_ne_true, post_explicit (fits_firstAnswer hs), if_pos hshort]
  · exact absurd hacc hnot

/-- An answer with another status is an error. -/
lemma post_ne_ok {α : Type} {c : Codec α} {status : ℕ} (h : status ≠ 200) (body : Bytes) (x : α) :
    post c (some (status, body)) ≠ .ok x := by
  rw [post, if_neg h]
  split_ifs <;> simp

/-- The outcome leaves the server as it is and brings no command, or it is the first of an accepted
poll and brings all commands or an error. -/
def Handed (s : MockServer) (o : Outcome (List Report)) : Prop :=
  (o.server = s ∧ ∀ p, post PollResponse.codec o.answer = .ok p → p.commands = []) ∨
    (s.delivered = false ∧ o.server = { s with delivered := true } ∧
      ∀ p, post PollResponse.codec o.answer = .ok p → p.commands = s.commands.map some)

/-- **What a poll can do**, whatever its body. -/
theorem handed_poll (hs : s.Fits) (authorization : String) (body : Bytes) :
    s.Handed (s.poll authorization body) := by
  rw [poll]
  by_cases hauth : s.authorized authorization = false
  · rw [if_pos hauth]
    exact .inl ⟨rfl, fun p hp => absurd hp (post_ne_ok (by decide) _ p)⟩
  rw [if_neg hauth]
  cases hreq : PollRequest.codec.decodeFirst body with
  | none => exact .inl ⟨rfl, fun p hp => absurd hp (post_ne_ok (by decide) _ p)⟩
  | some req =>
    dsimp only
    split_ifs with hnil hdelivered
    · exact .inl ⟨rfl, fun p hp => nomatch hp⟩
    · refine .inl ⟨rfl, fun p hp => ?_⟩
      rw [post_empty] at hp
      obtain rfl := Except.ok.inj hp
      rfl
    · refine .inr ⟨Bool.eq_false_iff.mpr hdelivered, rfl, fun p hp => ?_⟩
      have hpost := post_explicit (fits_firstAnswer hs)
      rw [firstAnswer] at hpost
      rw [hpost] at hp
      split_ifs at hp
      obtain rfl := Except.ok.inj hp
      rfl

/-- A request that is not sent does nothing. -/
lemma handed_exchange (hs : s.Fits) (token : String) (body : Bytes) :
    s.Handed (s.exchange token [] fun authorization => s.poll authorization body) := by
  rw [exchange]
  cases headerValue (bearer token) with
  | none => exact .inl ⟨rfl, fun p hp => nomatch hp⟩
  | some authorization => exact handed_poll hs authorization body

/-- A toy signature: the message, cut or filled up to 64 bytes. -/
def mirror (msg : Bytes) : Bytes := (msg ++ List.replicate 64 0).take 64

/-- An environment in which such signatures verify. -/
def mirrorEnv : Env :=
  { Env.ofTables {} with ed25519Verify := fun _ msg sig => decide (sig = mirror msg) }

/-- A key pair for it. -/
def mirrorKeys : KeyPair mirrorEnv where
  pub := List.replicate 32 7
  sign := mirror
  length_pub := by decide
  length_sign msg := by
    rw [mirror, List.length_take, List.length_append, List.length_replicate]
    omega
  verify_sign _ := decide_eq_true rfl

/-- A server with one command, to which it has given ID, nonce and time. -/
def sampleServer : MockServer where
  token := "dev-token"
  commands := [prepare mirrorKeys ⟨"c0ffee", "1cedcafe", 1700000000⟩ { verb := "apply" }]
  readLimit := 32768

/-- A poll with a report, and with a blank after the token. -/
theorem poll_outcome_blank :
    sampleServer.Polled "dev-token " [{ commandID := "c0ffee", status := "received" }]
      (sampleServer.exchange "dev-token " [] fun authorization => sampleServer.poll authorization
        (pollBody "prod" [{ commandID := "c0ffee", status := "received" }])) :=
  poll_outcome sampleServer (by decide) "dev-token " "prod" _ (by decide)

/-! ## Uploads -/

/-- What server and agent have of an upload. -/
structure Uploaded (s : MockServer) (token : String) (b : InventoryBatch)
    (o : Outcome (Option InventoryBody)) : Prop where
  /-- The server has the batch, if it takes the token for its own. -/
  decoded : o.decoded = if s.Accepts token then some b.body else none
  /-- The agent has the acknowledgement, or an error. -/
  answer : post InventoryAck.codec o.answer =
    if Sendable token then
      if s.Accepts token then .ok { ok := true, lastSeq := b.seq }
      else .error (.auth 401 (utf8 "\x7b\"ok\":false,\"lastSeq\":0\x7d\n"))
    else .error .send

/-- An acknowledgement of a number of 64 bits is not longer than the agent reads. -/
lemma length_marshal_ack {n : ℤ} (hn : IsInt 64 n) :
    (InventoryAck.codec.marshal { ok := true, lastSeq := n }).length ≤ maxResponseBytes := by
  have htext : InventoryAck.codec.text { ok := true, lastSeq := n } =
      object ("ok", truth true) [("lastSeq", number n)] := rfl
  have hdigits : (Nat.toDigits 10 n.natAbs).length ≤ 20 := by
    refine (Nat.length_toDigits_le_iff (by decide) (by decide)).mpr ?_
    obtain ⟨hlow, hhigh⟩ := hn
    norm_num at hlow hhigh ⊢
    omega
  have hnumber : numberSize n ≤ 21 := by
    rw [numberSize]
    split_ifs <;> omega
  have hok : memberSize ("ok", truth true) = 9 := by decide +kernel
  have hkey : quotedSize "lastSeq" = 9 := by decide +kernel
  rw [Codec.marshal, htext, length_bytes_object, hok, List.map_singleton, List.sum_singleton,
    memberSize, hkey, length_bytes_number, maxResponseBytes]
  omega

/-- The agent reads the acknowledgement of `n` as it was written. -/
lemma post_ack {n : ℤ} (hn : IsInt 64 n) : post InventoryAck.codec
    (some (200, writeJSON InventoryAck.codec { ok := true, lastSeq := n })) =
      .ok { ok := true, lastSeq := n } := by
  obtain ⟨ms, htakes⟩ := InventoryAck.exists_takes (a := { ok := true, lastSeq := n }) hn
  exact (post_writeJSON htakes.reads (by decide) htakes.decode).trans
    (if_pos (length_marshal_ack hn))

/-- An upload is read as it was written. -/
lemma decodeFirst_body {b : InventoryBatch} (hseq : IsInt 64 b.seq)
    (hevents : ∀ ev ∈ b.events, IsInt 64 ev.timestamp) :
    InventoryBody.codec.decodeFirst (InventoryBody.codec.marshal b.body) = some b.body := by
  obtain ⟨ms, htakes⟩ := InventoryBody.exists_takes (b := b.body) hseq
    (by simpa [InventoryBatch.body] using hevents)
  rw [← List.append_nil (InventoryBody.codec.marshal b.body)]
  exact Codec.decodeFirst_marshal htakes.reads (by decide) htakes.decode []

/-- **What comes of an upload.** Whatever the token and the events are, objects and names with any
bytes and characters included, the server has the batch exactly as the agent has built it if it
takes the token for its own, and the agent has its sequence number back; otherwise the server has
nothing of it, and the agent has an error.

**Proof sketch.** The batch is read from its bytes as it was written (`decodeFirst_body`). The
acknowledgement has an integer of 64 bits and no text, so that it is never cut off
(`length_marshal_ack`). -/
theorem inventory_outcome (s : MockServer) (decodeError : Bytes → String) (token : String)
    (b : InventoryBatch) (hseq : IsInt 64 b.seq)
    (hevents : ∀ ev ∈ b.events, IsInt 64 ev.timestamp) :
    s.Uploaded token b (s.exchange token none fun authorization =>
      s.inventory decodeError authorization (InventoryBody.codec.marshal b.body)) := by
  rcases exchange_cases s token none (fun authorization =>
      s.inventory decodeError authorization (InventoryBody.codec.marshal b.body)) with
    ⟨hsend, hacc, heq⟩ | ⟨authorization, hsend, heq, ⟨hacc, hauth⟩ | ⟨hacc, hauth⟩⟩
  · rw [heq]
    refine ⟨(if_neg hacc).symm, ?_⟩
    rw [if_neg hsend]
    rfl
  · rw [heq, inventory, hauth, if_neg (by decide), decodeFirst_body hseq hevents]
    refine ⟨(if_pos hacc).symm, ?_⟩
    rw [if_pos hsend, if_pos hacc]
    exact post_ack hseq
  · have hbody : writeJSON InventoryAck.codec {} =
        utf8 "\x7b\"ok\":false,\"lastSeq\":0\x7d\n" := by decide +kernel
    rw [heq, inventory, if_pos hauth, hbody]
    refine ⟨(if_neg hacc).symm, ?_⟩
    rw [if_pos hsend, if_neg hacc]
    exact post_of_rejected _ (by decide +kernel)

/-- A full batch of two events, with an object of all bytes from 0 to 255 and a name that needs
escapes. -/
def mixedBatch : InventoryBatch where
  clusterID := "prod"
  seq := 7
  full := true
  events := [sampleUpdate "pods" "web" ((List.range 256).map UInt8.ofNat),
    sampleUpdate "configmaps" "a\"b<ü\u2028" []]

/-- The server has both events, and the agent has the number of the batch back. -/
theorem inventory_outcome_mixed :
    sampleServer.Accepts "dev-token" ∧
      sampleServer.Uploaded "dev-token" mixedBatch
        (sampleServer.exchange "dev-token" none fun authorization =>
          sampleServer.inventory (fun _ => "") authorization
            (InventoryBody.codec.marshal mixedBatch.body)) :=
  ⟨by decide +kernel, inventory_outcome sampleServer _ "dev-token" mixedBatch (by decide)
    (by decide)⟩

end Requests

/-! ## Connections -/

/-- The first frame of the agent. -/
def greeting (token clusterID : String) : Bytes := WsHello.codec.marshal (hello token clusterID)

/-- **What a connection can do**, whatever the first frame: it leaves the server as it is and brings
nothing behind the answer, or it is the first to be accepted and brings the commands as far as
writing succeeds. -/
theorem ws_cases (s : MockServer) (hello : Bytes) (n : ℕ) :
    ((s.ws hello n).1 = s ∧ (s.ws hello n).2.tail = []) ∨
    (s.wsDelivered = false ∧ (s.ws hello n).1 = { s with wsDelivered := true } ∧
      ∃ m, (s.ws hello n).2.tail = (s.commands.map fun c => commandFrame (some c)).take m) := by
  have hsingle : ∀ ack : Bytes, ([ack].take n).tail = [] := by
    intro ack
    cases n <;> simp
  rw [ws]
  by_cases hlong : hello.length > s.readLimit
  · rw [if_pos hlong]
    exact .inl ⟨rfl, rfl⟩
  rw [if_neg hlong]
  cases WsHello.codec.unmarshal hello with
  | none => exact .inl ⟨rfl, hsingle _⟩
  | some h =>
    dsimp only
    split_ifs with htype htoken hn hpushed
    · exact .inl ⟨rfl, hsingle _⟩
    · exact .inl ⟨rfl, hsingle _⟩
    · exact .inl ⟨rfl, rfl⟩
    · exact .inl ⟨rfl, rfl⟩
    · obtain ⟨m, rfl⟩ := Nat.exists_eq_succ_of_ne_zero hn
      exact .inr ⟨Bool.eq_false_iff.mpr hpushed, rfl, m, rfl⟩

/-- What the agent has of a handshake: the outcome, and the frames behind the answer. -/
def greeted (s : MockServer) (token clusterID : String) (n : ℕ) : Option Handshake × List Bytes :=
  ((s.ws (greeting token clusterID) n).2.head?.map handshake,
    (s.ws (greeting token clusterID) n).2.tail)

/-- A report in a frame is decoded as the agent has it, unless the frame is too long. -/
lemma readReport_reportFrame (s : MockServer) {r : Report} (hr : r.Fits) :
    s.readReport (reportFrame (some r)) =
      if (reportFrame (some r)).length ≤ s.readLimit then .decoded r else .ended := by
  have hread := unmarshal_reportFrame (p := some r) fun x hx => Option.some.inj hx ▸ hr
  by_cases hshort : (reportFrame (some r)).length ≤ s.readLimit
  · rw [if_pos hshort, readReport, if_neg (Nat.not_lt.mpr hshort), hread.1, hread.2]
    rfl
  · rw [if_neg hshort, readReport, if_pos (Nat.not_le.mp hshort)]

/-- **What the server has of reports.** Of the reports that the agent sends over a connection, with
any texts, the server decodes those before the first one whose frame has more bytes than it reads,
in order and as the agent has them, and none behind it: that frame ends the connection.

**Proof sketch.** By induction on the reports, frame by frame (`readReport_reportFrame`). -/
theorem reports_outcome (s : MockServer) (rs : List Report) (hrs : ∀ r ∈ rs, r.Fits) :
    s.readReports (rs.map fun r => reportFrame (some r)) =
      rs.takeWhile fun r => (reportFrame (some r)).length ≤ s.readLimit := by
  induction rs with
  | nil => rfl
  | cons r rs ih =>
    have hone := s.readReport_reportFrame (hrs r List.mem_cons_self)
    have hrest := ih fun x hx => hrs x (List.mem_cons_of_mem r hx)
    rw [List.map_cons, readReports, hone, List.takeWhile_cons]
    by_cases hshort : (reportFrame (some r)).length ≤ s.readLimit
    · simp only [hshort, if_true, decide_true, hrest]
    · simp only [hshort, if_false, decide_false, Bool.false_eq_true]

/-- Two reports on one command. -/
theorem reports_outcome_two :
    sampleServer.readReports ([{ commandID := "c0ffee", status := "received" },
        { commandID := "c0ffee", status := "failed", message := "a \"b\" \n" }].map
          fun r => reportFrame (some r)) =
      [{ commandID := "c0ffee", status := "received" },
        { commandID := "c0ffee", status := "failed", message := "a \"b\" \n" }] :=
  (reports_outcome sampleServer _ (by decide)).trans (by decide +kernel)

end MockServer

end K8sAgent
