import K8sAgent.Protocol.Types
import K8sAgent.Protocol.Env

set_option relaxedAutoImplicit false
set_option autoImplicit false

/-!
# Command signatures

`internal/protocol/sign.go`: the byte string a signature covers and its verification.

## Main definitions

* `K8sAgent.Command.signingLines`, `K8sAgent.Command.signingPayload` — the signed fields, one a
  line, and the byte string they are joined to.
* `K8sAgent.Command.verifySignature` — the verification, with its error texts.
-/

namespace K8sAgent

open Encoding

namespace Command

/-- The lines of the Helm part. -/
def helmLines (env : Env) : Option HelmSpec → List String
  | none => []
  | some h => [h.releaseName, h.namespace_, h.chartRef, h.version, env.sha256Hex h.valuesYAML]

/-- The fields that are signed, in order: a command with a Helm part has five more. -/
def signingLines (env : Env) (c : Command) : List String :=
  [c.nonce, toString c.timestamp, c.id, c.verb,
    c.target.group, c.target.version, c.target.resource, c.target.namespace_, c.target.name,
    c.patchType, env.sha256Hex c.payload, c.expectedHash, toString c.override]
  ++ helmLines env c.helm

/-- The text a signature covers: the signed fields separated by line feeds, none of them
escaped. -/
def signingText (env : Env) (c : Command) : String := "\n".intercalate (c.signingLines env)

/-- The byte string a signature covers. -/
def signingPayload (env : Env) (c : Command) : Bytes := utf8 (c.signingText env)

/-- Check the signature under a public key; `none` is success. -/
def verifySignature (env : Env) (c : Command) (pub : Bytes) : Option String :=
  if c.signature = "" then some "command has no signature"
  else match base64Decode (utf8 c.signature) with
    | .error off => some ("signature is not valid base64: " ++ corruptInputError off)
    | .ok sig =>
      if env.ed25519Verify pub (c.signingPayload env) sig then none
      else some "invalid command signature"

/-- A signature verifies exactly when it is base64 text of a signature of the payload. -/
lemma verifySignature_eq_none {env : Env} {c : Command} {pub : Bytes} :
    c.verifySignature env pub = none ↔
      c.signature ≠ "" ∧ ∃ sig, base64Decode (utf8 c.signature) = .ok sig ∧
        env.ed25519Verify pub (c.signingPayload env) sig = true := by
  unfold verifySignature
  split_ifs with h
  · simp [h]
  · cases hd : base64Decode (utf8 c.signature) with
    | error off => simp
    | ok sig =>
      simp only
      split_ifs with hv <;> simp [h, hv]

end Command

/-! ## A signed command -/

/-- A public key of a control plane, in base64. -/
def samplePublicKey : String := "Qt+c9Yh1RgsJbgl+mEbB5CoIJJ3nfN11JhoouL2aKnY="

/-- A command to delete a deployment, signed under the key. -/
def sampleCommand : Command where
  id := "cmd-1"
  nonce := "nonce-1"
  timestamp := 1700000000
  verb := verbDelete
  target := ⟨"apps", "v1", "deployments", "default", "web"⟩
  signature := "7MN7/P1Me3YXhCMGpSwBSGWBuueX/QTBSAOrr4gBg9gAjQmOfbklptcsbGxv8cA8k2pvAHamGPvk1FFZmHoLDA=="

/-- The digest of the empty payload and the signature of the command. -/
def sampleEnv : Env := .ofTables
  { digests := [([], ofHex "e3b0c44298fc1c149afbf4c8996fb92427ae41e4649b934ca495991b7852b855")]
    signatures := [(ofHex "42df9cf58875460b096e097e9846c1e42a08249de77cdd75261a28b8bd9a2a76",
      utf8 ("nonce-1\n1700000000\ncmd-1\ndelete\napps\nv1\ndeployments\ndefault\nweb\n\n" ++
        "e3b0c44298fc1c149afbf4c8996fb92427ae41e4649b934ca495991b7852b855\n\nfalse"),
      ofHex ("ecc37bfcfd4c7b7617842306a52c01486581bae797fd04c14803abaf880183d8" ++
        "008d098e7db925a6d72c6c6c6ff1c03c936a6f0076a618fbe4d45159987a0b0c"))] }

end K8sAgent
