import K8sAgent.Lib.JsonCut
import K8sAgent.Protocol.Messages

set_option relaxedAutoImplicit false
set_option autoImplicit false

/-!
# Requests over HTTP

`post` of `internal/protocol/http.go`: what the client makes of the answer to a request. It reads at
most 16 MiB of the body. An answer with status 200 has to decode, one with status 401 or 403 is a
rejected token, every other one is an error with the beginning of the body in its text.

## Main definitions

* `K8sAgent.Http.post` — the outcome of a request.
* `K8sAgent.Http.writeJSON` — a body as `json.Encoder` writes it.
* `K8sAgent.Http.headerValue`, `bearer` — a header as it arrives, and the header with the token.

## Main results

* `K8sAgent.Http.post_writeJSON` — an answer is read whole, or not at all where it is too long.
* `K8sAgent.Http.post_explicit` — this for the answer to a poll.
* `K8sAgent.Http.headerValue_bearer_eq_iff` — which tokens the server takes for its own.
-/

namespace K8sAgent

open Encoding JsonText JsonReader

/-! ## More messages that are read as they were written -/

/-- The fields of an answer to a poll, with an empty list of commands written out. -/
def PollResponse.explicitFields : List (JsonField PollResponse) :=
  [Codec.bool.field "ok" PollResponse.ok fun x p => { p with ok := x },
    Command.codec.pointer.slice.field "commands" PollResponse.commands
      fun x p => { p with commands := x }]

/-- The JSON form of such an answer. -/
def PollResponse.explicit : Codec PollResponse := .record {} explicitFields

/-- The timestamps of the commands fit their type. -/
def PollResponse.Fits (p : PollResponse) : Prop :=
  ∀ c, some c ∈ p.commands → IsInt 64 c.timestamp

lemma PollResponse.exists_takes_commands {p : PollResponse} (hp : p.Fits) :
    ∃ v, Command.codec.pointer.slice.Takes 3 p.commands v :=
  Codec.exists_takes_slice fun q hq => exists_takes_pointer q fun c hc =>
    Command.exists_takes (hp c (hc ▸ hq))

/-- **The answer to a poll is read as it was written**, with an empty list written out too. -/
theorem PollResponse.exists_reads_explicit {p : PollResponse} (hp : p.Fits) :
    ∃ v, Reads 4 (explicit.text p) v ∧ codec.decode v codec.zero = some p := by
  obtain ⟨v, hcommands⟩ := PollResponse.exists_takes_commands hp
  have hmember : ∀ q : PollResponse, q.commands = [] →
      (Command.codec.pointer.slice.decode v q.commands).map
        (fun x => { q with commands := x }) = some { q with commands := p.commands } := by
    intro q hq
    rw [hq]
    exact congrArg (Option.map _) hcommands.decode
  have hcarries : Carries fields 3 p explicitFields {} p :=
    .read rfl (Codec.takes_bool 3 p.ok).reads rfl
      (.read rfl hcommands.reads (hmember { ok := p.ok } rfl) .nil)
  obtain ⟨ms, hreads, hdecode⟩ := hcarries.exists_object
  exact ⟨.object ms, hreads, hdecode⟩

namespace Http

/-! ## The client -/

/-- The most that is read of a body. -/
def maxResponseBytes : ℕ := 16 * 2 ^ 20

/-- Why a request failed. -/
inductive PostError : Type where
  /-- No answer, or no whole one. -/
  | send
  /-- The token was rejected. -/
  | auth (status : ℕ) (body : Bytes)
  /-- Another status. -/
  | status (status : ℕ) (body : Bytes)
  /-- The body does not decode. -/
  | decode

/-- The beginning of a text. -/
def truncate (s : Bytes) (n : ℕ) : Bytes := if s.length > n then s.take n ++ utf8 "…" else s

/-- What the client makes of the status and the body of an answer. -/
def post {α : Type} (c : Codec α) : Option (ℕ × Bytes) → Except PostError α
  | none => .error .send
  | some (status, body) =>
    if status = 200 then match c.unmarshal (body.take maxResponseBytes) with
      | some x => .ok x
      | none => .error .decode
    else if status = 401 ∨ status = 403 then
      .error (.auth status (truncate (body.take maxResponseBytes) 200))
    else .error (.status status (truncate (body.take maxResponseBytes) 200))

/-- A body as the encoder writes it, with a line feed. -/
def writeJSON {α : Type} (c : Codec α) (x : α) : Bytes := c.marshal x ++ [10]

/-- **An answer is read whole, or not at all where it is too long.** -/
theorem post_writeJSON {σ ρ : Type} {zero s : σ} {fields : List (JsonField σ)} {c : Codec ρ} {x : ρ}
    {d : ℕ} {v : Json} (hreads : Reads d ((Codec.record zero fields).text s) v)
    (hd : d ≤ maxNestingDepth) (hdecode : c.decode v c.zero = some x) :
    post c (some (200, writeJSON (.record zero fields) s)) =
      if ((Codec.record zero fields).marshal s).length ≤ maxResponseBytes then .ok x
      else .error .decode := by
  obtain ⟨hwhole, hline⟩ := Codec.unmarshal_bytes hreads hd hdecode
  have hbody : c.unmarshal ((writeJSON (.record zero fields) s).take maxResponseBytes) =
      if ((Codec.record zero fields).marshal s).length ≤ maxResponseBytes then some x
      else none := by
    rw [writeJSON]
    split_ifs with hlen
    · rcases Nat.lt_or_eq_of_le hlen with hlt | heq
      · rw [List.take_of_length_le (by rw [List.length_append, List.length_singleton]; omega)]
        exact hline
      · -- only the line feed is cut off
        rw [List.take_append_of_le_length (by omega), List.take_of_length_le (by omega)]
        exact hwhole
    · rw [List.take_append_of_le_length (by omega)]
      exact Codec.unmarshal_take hreads hd c (by omega)
  rw [post, if_pos rfl, hbody]
  split_ifs <;> rfl

/-- **The answer to a poll comes through unchanged, or not at all**: one that is cut off is never
taken for a shorter one. -/
theorem post_explicit {p : PollResponse} (hp : p.Fits) :
    post PollResponse.codec (some (200, writeJSON PollResponse.explicit p)) =
      if (PollResponse.explicit.marshal p).length ≤ maxResponseBytes then .ok p
      else .error .decode := by
  obtain ⟨v, hreads, hdecode⟩ := PollResponse.exists_reads_explicit hp
  exact post_writeJSON hreads (by decide) hdecode

/-! ## Tokens -/

/-- A control character other than the tab. -/
def isControl (c : Char) : Bool := (c.toNat < 32 && c ≠ '\t') || c.toNat = 127

/-- A blank or a tab. -/
def isBlank (c : Char) : Bool := c = ' ' || c = '\t'

/-- A header as it arrives: one with control characters is not sent, and blanks around it are
lost. -/
def headerValue (v : String) : Option String :=
  if v.toList.any isControl then none
  else some (String.ofList ((v.toList.dropWhile isBlank).rdropWhile isBlank))

/-- The header of a request with a token. -/
def bearer (token : String) : String := "Bearer " ++ token

/-- The token can be sent in a header. -/
def Sendable (token : String) : Prop := token.toList.any isControl = false

instance (token : String) : Decidable (Sendable token) :=
  inferInstanceAs (Decidable (_ = _))

/-- The token without the blanks after it. -/
def stem (token : String) : List Char := token.toList.rdropWhile isBlank

lemma headerValue_bearer_of_not_sendable {token : String} (h : ¬Sendable token) :
    headerValue (bearer token) = none := by
  rw [Sendable, Bool.not_eq_false] at h
  rw [headerValue, bearer, String.toList_append, List.any_append, h, Bool.or_true, if_pos rfl]

/-- The blanks after a token are lost, and with nothing but blanks the one before it too. -/
lemma rdropWhile_bearer (token : String) : (bearer token).toList.rdropWhile isBlank =
    if stem token = [] then "Bearer".toList else "Bearer ".toList ++ stem token := by
  have hnil : stem token = [] ↔ (token.toList.reverse.dropWhile isBlank).isEmpty = true := by
    rw [stem, List.rdropWhile, List.reverse_eq_nil_iff, List.isEmpty_iff]
  rw [bearer, String.toList_append, List.rdropWhile, List.reverse_append, List.dropWhile_append]
  by_cases hempty : stem token = []
  · rw [if_pos (hnil.mp hempty), if_pos hempty]
    decide +kernel
  · rw [if_neg (mt hnil.mpr hempty), if_neg hempty, List.reverse_append, List.reverse_reverse]
    rfl

/-- What arrives of a token that is sent. -/
lemma headerValue_bearer {token : String} (h : Sendable token) : headerValue (bearer token) =
    some (String.ofList ((bearer token).toList.rdropWhile isBlank)) := by
  have hany : (bearer token).toList.any isControl = false := by
    rw [bearer, String.toList_append, List.any_append, h]
    decide +kernel
  have hfront : (bearer token).toList.dropWhile isBlank = (bearer token).toList := by
    rw [bearer, String.toList_append]
    rfl
  rw [headerValue, hany, hfront]
  rfl

/-- **Which tokens the server takes for its own.** -/
theorem headerValue_bearer_eq_iff {token t : String} (h : Sendable token) :
    headerValue (bearer token) = some (bearer t) ↔ t ≠ "" ∧ stem token = t.toList := by
  rw [headerValue_bearer h, rdropWhile_bearer, Option.some.injEq, ← String.toList_inj,
    String.toList_ofList, bearer, String.toList_append]
  split_ifs with hempty
  · have hlen : "Bearer".toList ≠ "Bearer ".toList ++ t.toList := fun heq => by
      simpa using congrArg List.length heq
    refine iff_of_false hlen ?_
    rintro ⟨hne, ht⟩
    exact hne (String.toList_inj.mp (ht.symm.trans hempty))
  · rw [List.append_right_inj]
    refine ⟨fun ht => ⟨?_, ht⟩, And.right⟩
    rintro rfl
    exact hempty ht

end Http

end K8sAgent
