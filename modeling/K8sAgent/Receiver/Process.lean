import Mathlib.Algebra.Order.Group.Int
import Mathlib.Algebra.Order.Group.Abs
import K8sAgent.Protocol.Config
import K8sAgent.Protocol.Sign
import K8sAgent.Receiver.NonceCache

set_option relaxedAutoImplicit false
set_option autoImplicit false

/-!
# Command intake

`Receiver.process` and `Receiver.validate` of `internal/receiver/receiver.go`: every delivered
command, from a poll response or from the WebSocket, is deduplicated by its ID, checked, and
refused or dispatched. A delivery carries the two clock readings the call makes; what a call does
to the outside is the list of its effects in order.

## Main definitions

* `K8sAgent.Receiver`, `K8sAgent.Caches` — the fixed part and the caches of the receiver.
* `K8sAgent.Receiver.checks` — the checks that precede the nonce lookup, in the source's order.
* `K8sAgent.Receiver.validate`, `K8sAgent.Receiver.process` — one command.
* `K8sAgent.Receiver.run`, `K8sAgent.Receiver.after` — a sequence of commands: the effects of
  each of them, and the caches it leaves.

## Main results

* `K8sAgent.Receiver.checks_eq_none_iff` — what a command must satisfy to get to the nonce lookup.
* `K8sAgent.Receiver.process_of_seen`, `process_of_checks`, `process_of_nonce`,
  `process_of_fresh`, `process_cases` — the four ways a call can go.
-/

namespace K8sAgent

/-- Capacity of the nonce cache. -/
def maxNonces : ℕ := 10000
/-- Capacity of the command ID cache. -/
def maxIDs : ℕ := 10000
/-- Accepted distance between command time and local time, in nanoseconds. -/
def maxClockSkew : ℤ := 5 * 60 * 10 ^ 9

/-- The smallest duration. -/
def minDuration : ℤ := -2 ^ 63
/-- The largest duration. -/
def maxDuration : ℤ := 2 ^ 63 - 1

/-- The nearest duration to a time difference. -/
def saturate (d : ℤ) : ℤ := max minDuration (min maxDuration d)

/-- A duration rounded to whole seconds, halves away from zero. -/
def roundSecond (d : ℤ) : ℤ :=
  let q : ℤ := (d.natAbs + 5 * 10 ^ 8) / 10 ^ 9 * 10 ^ 9
  saturate (if d < 0 then -q else q)

/-- The time since a Unix timestamp, at the clock reading `now` in nanoseconds. -/
def since (now timestamp : ℤ) : ℤ := saturate (now - timestamp * 10 ^ 9)

/-- The fixed part of a receiver. -/
structure Receiver where
  /-- Configuration. -/
  cfg : Config
  /-- Functions of other packages. -/
  env : Env

/-- The state of a receiver that decisions depend on. -/
structure Caches where
  /-- Command IDs delivered. -/
  ids : NonceCache
  /-- Nonces of accepted commands. -/
  nonces : NonceCache
  deriving DecidableEq

/-- The caches of a new receiver. -/
def Caches.init : Caches := ⟨.new maxIDs, .new maxNonces⟩

/-- How a command is delivered. -/
inductive Path : Type where
  /-- In a poll response. -/
  | poll
  /-- Over the WebSocket. -/
  | push
  deriving DecidableEq

/-- One delivered command with the clock readings of its processing, in nanoseconds. -/
structure Delivery where
  /-- The path it came by. -/
  path : Path
  /-- The command. -/
  cmd : Command
  /-- The reading of the skew check. -/
  checkedAt : ℤ
  /-- The reading that stamps the report. -/
  reportedAt : ℤ
  deriving DecidableEq

/-- What processing does to the outside. -/
inductive Effect : Type where
  /-- A command counter is incremented. -/
  | incCommand (verb result : String)
  /-- A report is handed to delivery. -/
  | deliverReport (rep : Report)
  /-- The executor is started on the command. -/
  | handleCommand (cmd : Command)
  deriving DecidableEq

namespace Receiver

/-- The refusal checks before the nonce lookup; `none` when all pass. -/
def checks (r : Receiver) (cmd : Command) (now : ℤ) : Option String :=
  if r.cfg.writerEnabled = false then some "writer disabled (read-only mode)"
  else match r.cfg.publicKey with
    | .error e => some ("server public key misconfigured: " ++ e)
    | .ok pub => match cmd.verifySignature r.env pub with
      | some e => some e
      | none =>
        let skew := since now cmd.timestamp
        if skew > maxClockSkew ∨ skew < -maxClockSkew then
          some ("timestamp skew " ++ Encoding.durationString (roundSecond skew) ++ " exceeds "
            ++ Encoding.durationString maxClockSkew)
        else none

/-- The refusal checks in order, with the nonce cache they leave; `none` accepts the command. -/
def validate (r : Receiver) (nonces : NonceCache) (cmd : Command) (now : ℤ) :
    Option String × NonceCache :=
  match r.checks cmd now with
  | some reason => (some reason, nonces)
  | none => match nonces.seen cmd.nonce with
    | (true, nonces') => (some "replayed nonce", nonces')
    | (false, nonces') => (none, nonces')

/-- A report on a command. -/
def newReport (r : Receiver) (cmd : Command) (status msg : String) (now : ℤ) : Report :=
  { clusterID := r.cfg.clusterID, commandID := cmd.id, status := status, message := msg,
    timestamp := now / 10 ^ 9 }

/-- The effects of refusing a command. -/
def refusal (r : Receiver) (d : Delivery) (reason : String) : List Effect :=
  [.incCommand d.cmd.verb statusRefused,
    .deliverReport (r.newReport d.cmd statusRefused reason d.reportedAt)]

/-- The effects of accepting a command. -/
def acceptance (r : Receiver) (d : Delivery) : List Effect :=
  [.deliverReport (r.newReport d.cmd statusReceived "" d.reportedAt), .handleCommand d.cmd]

/-- Process one delivered command. -/
def process (r : Receiver) (s : Caches) (d : Delivery) : Caches × List Effect :=
  match s.ids.seen d.cmd.id with
  -- a repeat is dropped silently: no report, no metric
  | (true, ids) => (⟨ids, s.nonces⟩, [])
  | (false, ids) => match r.validate s.nonces d.cmd d.checkedAt with
    | (some reason, nonces) => (⟨ids, nonces⟩, r.refusal d reason)
    | (none, nonces) => (⟨ids, nonces⟩, r.acceptance d)

/-- The effects of each of a sequence of calls. -/
def run (r : Receiver) : Caches → List Delivery → List (List Effect)
  | _, [] => []
  | s, d :: ds => (r.process s d).2 :: run r (r.process s d).1 ds

/-- The caches after a sequence of calls. -/
def after (r : Receiver) : Caches → List Delivery → Caches
  | s, [] => s
  | s, d :: ds => after r (r.process s d).1 ds

/-! ## What the checks ask for -/

/-- The saturated difference is within the accepted skew exactly when the difference is. -/
lemma since_within_iff (now ts : ℤ) :
    ¬(since now ts > maxClockSkew ∨ since now ts < -maxClockSkew) ↔
      |now - ts * 10 ^ 9| ≤ maxClockSkew := by
  rw [abs_le]
  unfold since saturate minDuration maxDuration maxClockSkew
  omega

/-- **What gets a command to the nonce lookup**: the writer is enabled, the public key decodes,
the signature verifies and the timestamp is within the accepted skew. -/
theorem checks_eq_none_iff {r : Receiver} {cmd : Command} {now : ℤ} :
    r.checks cmd now = none ↔ r.cfg.writerEnabled = true ∧
      ∃ pub, r.cfg.publicKey = .ok pub ∧ cmd.verifySignature r.env pub = none ∧
        |now - cmd.timestamp * 10 ^ 9| ≤ maxClockSkew := by
  unfold checks
  cases hw : r.cfg.writerEnabled with
  | false => simp
  | true =>
    cases hp : r.cfg.publicKey with
    | error e => simp
    | ok pub =>
      cases hv : cmd.verifySignature r.env pub with
      | some e => simp [hv]
      | none =>
        simp only [Bool.true_eq_false, if_false, hv]
        rw [← since_within_iff]
        split_ifs with hs <;> simp [hs, hv]

/-! ## The four ways a call can go -/

section Process

variable {r : Receiver} {s : Caches} {d : Delivery}

/-- A command whose ID is cached changes nothing and does nothing. -/
theorem process_of_seen (h : s.ids.lookup d.cmd.id = true) : r.process s d = (s, []) := by
  simp [process, NonceCache.seen, h]

/-- A command with a new ID that fails a check leaves its ID in the cache and is refused. -/
theorem process_of_checks {reason : String} (hid : s.ids.lookup d.cmd.id = false)
    (hc : r.checks d.cmd d.checkedAt = some reason) :
    r.process s d = (⟨s.ids.insert d.cmd.id, s.nonces⟩, r.refusal d reason) := by
  simp [process, validate, NonceCache.seen, hid, hc]

/-- A command with a new ID that passes the checks but repeats a nonce is refused. -/
theorem process_of_nonce (hid : s.ids.lookup d.cmd.id = false)
    (hc : r.checks d.cmd d.checkedAt = none) (hn : s.nonces.lookup d.cmd.nonce = true) :
    r.process s d = (⟨s.ids.insert d.cmd.id, s.nonces⟩, r.refusal d "replayed nonce") := by
  simp [process, validate, NonceCache.seen, hid, hc, hn]

/-- A command with a new ID and a new nonce that passes the checks is dispatched. -/
theorem process_of_fresh (hid : s.ids.lookup d.cmd.id = false)
    (hc : r.checks d.cmd d.checkedAt = none) (hn : s.nonces.lookup d.cmd.nonce = false) :
    r.process s d =
      (⟨s.ids.insert d.cmd.id, s.nonces.insert d.cmd.nonce⟩, r.acceptance d) := by
  simp [process, validate, NonceCache.seen, hid, hc, hn]

/-- A call goes one of the four ways. -/
theorem process_cases (r : Receiver) (s : Caches) (d : Delivery) :
    (s.ids.lookup d.cmd.id = true ∧ r.process s d = (s, [])) ∨
    (s.ids.lookup d.cmd.id = false ∧ ∃ reason, r.checks d.cmd d.checkedAt = some reason ∧
      r.process s d = (⟨s.ids.insert d.cmd.id, s.nonces⟩, r.refusal d reason)) ∨
    (s.ids.lookup d.cmd.id = false ∧ r.checks d.cmd d.checkedAt = none ∧
      s.nonces.lookup d.cmd.nonce = true ∧
      r.process s d = (⟨s.ids.insert d.cmd.id, s.nonces⟩, r.refusal d "replayed nonce")) ∨
    (s.ids.lookup d.cmd.id = false ∧ r.checks d.cmd d.checkedAt = none ∧
      s.nonces.lookup d.cmd.nonce = false ∧ r.process s d =
        (⟨s.ids.insert d.cmd.id, s.nonces.insert d.cmd.nonce⟩, r.acceptance d)) := by
  cases hid : s.ids.lookup d.cmd.id with
  | true => exact .inl ⟨rfl, process_of_seen hid⟩
  | false =>
    refine .inr ?_
    cases hc : r.checks d.cmd d.checkedAt with
    | some reason => exact .inl ⟨rfl, reason, rfl, process_of_checks hid hc⟩
    | none =>
      refine .inr ?_
      cases hn : s.nonces.lookup d.cmd.nonce with
      | true => exact .inl ⟨rfl, rfl, rfl, process_of_nonce hid hc hn⟩
      | false => exact .inr ⟨rfl, rfl, rfl, process_of_fresh hid hc hn⟩

end Process

/-! ## Sequences of calls -/

@[simp] lemma run_length (r : Receiver) (s : Caches) (ds : List Delivery) :
    (r.run s ds).length = ds.length := by
  induction ds generalizing s with
  | nil => rfl
  | cons d ds ih => simp [run, ih]

lemma run_append (r : Receiver) (s : Caches) (ds es : List Delivery) :
    r.run s (ds ++ es) = r.run s ds ++ r.run (r.after s ds) es := by
  induction ds generalizing s with
  | nil => rfl
  | cons d ds ih => simp [run, after, ih]

lemma after_append (r : Receiver) (s : Caches) (ds es : List Delivery) :
    r.after s (ds ++ es) = r.after (r.after s ds) es := by
  induction ds generalizing s with
  | nil => rfl
  | cons d ds ih => simp [after, ih]

end Receiver

end K8sAgent
