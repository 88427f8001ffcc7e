import K8sAgent.Lib.JsonTree
import K8sAgent.Lib.Encoding

set_option relaxedAutoImplicit false
set_option autoImplicit false

/-!
# What the agent calls and does not define

The pure functions of other packages that the modelled code calls: cryptographic primitives, the
JSON encoder, the YAML reader and decoder and Helm's values parser. The model is parametric in
them; calls with an effect on the cluster are requests of an interaction program instead
(`K8sAgent.Op`).

## Main definitions

* `K8sAgent.Env` — the functions, with the length of a SHA-256 digest as a law.
* `K8sAgent.Env.sha256Hex` — the digest as the agent writes it.
-/

namespace K8sAgent

open Encoding JsonTree

/-- The pure functions of other packages. -/
structure Env where
  /-- SHA-256. -/
  sha256 : Bytes → Bytes
  /-- A SHA-256 digest has 32 bytes. -/
  sha256_length : ∀ b, (sha256 b).length = 32
  /-- Ed25519 verification of a message under a public key. -/
  ed25519Verify : (pub msg sig : Bytes) → Bool
  /-- The JSON encoding of a tree; map keys are written in sorted order. -/
  marshal : Value → Bytes
  /-- The documents of a YAML stream up to its end, or up to the read error given. -/
  yamlDocs : Bytes → List Bytes × Option String
  /-- One YAML document as a map; a document that is null decodes to the empty map. -/
  yamlUnmarshal : Bytes → Except String Object
  /-- Helm's reading of a values document. -/
  readValues : Bytes → Except String Object
  /-- The value of a resource quantity. -/
  parseQuantity : String → Option ℚ
  /-- The text of a failed typed access to a path, which shows the offending value. -/
  accessError : List String → Value → String
  /-- The characters beyond ASCII that quoted text shows unescaped. -/
  isPrint : Char → Bool

/-- A SHA-256 digest in lower-case hexadecimal. -/
def Env.sha256Hex (env : Env) (b : Bytes) : String := hexEncode (env.sha256 b)

/-- True values of the functions at the inputs of a fixed run. -/
structure Tables where
  /-- Inputs of SHA-256 with their digests. -/
  digests : List (Bytes × Bytes) := []
  /-- Public key, message and a signature of it. -/
  signatures : List (Bytes × Bytes × Bytes) := []
  /-- JSON trees with their encodings. -/
  encodings : List (Value × Bytes) := []
  /-- YAML streams with their documents. -/
  streams : List (Bytes × List Bytes) := []
  /-- YAML documents with the maps they decode to. -/
  documents : List (Bytes × Object) := []

/-- A digest the tables do not list is filled up with zeros. -/
lemma length_padded (b : Bytes) : ((b ++ List.replicate 32 0).take 32).length = 32 := by
  rw [List.length_take, List.length_append, List.length_replicate]
  omega

/-- The environment that knows what the tables list. -/
def Env.ofTables (t : Tables) : Env where
  sha256 b := ((t.digests.lookup b).getD [] ++ List.replicate 32 0).take 32
  sha256_length _ := length_padded _
  ed25519Verify pub msg sig := (pub, msg, sig) ∈ t.signatures
  marshal v := (t.encodings.lookup v).getD []
  yamlDocs b := ((t.streams.lookup b).getD [], none)
  yamlUnmarshal b := match t.documents.lookup b with
    | some m => .ok m
    | none => .error "unknown document"
  readValues _ := .error "unknown document"
  parseQuantity _ := none
  accessError path _ := ".".intercalate path
  isPrint _ := false

/-- A text quoted for a message. -/
def Env.quote (env : Env) (s : String) : String := Encoding.quote env.isPrint s

end K8sAgent
