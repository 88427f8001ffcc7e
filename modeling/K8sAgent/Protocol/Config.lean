import K8sAgent.Lib.Base64

set_option relaxedAutoImplicit false
set_option autoImplicit false

/-!
# Operator configuration

The part of `internal/config/config.go` that the receiver, the validator, the executor and the
uploader read. Addresses, token paths, the watch set and the observability settings are read by
none of them and are left out.

## Main definitions

* `K8sAgent.Config` — the settings.
* `K8sAgent.Config.publicKey` — the configured Ed25519 key, from base64 or hexadecimal text.
* `K8sAgent.Config.protectedNamespace` — whether a namespace is protected from mutation.

## Main results

* `K8sAgent.Config.publicKey_eq_ok_iff` — a key is returned exactly when one of the two readings
  of the text is this key, whichever is tried first.
* `K8sAgent.Config.publicKey_unambiguous` — every key is read back from either of its texts, and no
  text has two readings.
-/

namespace K8sAgent

open Encoding

/-- Refuse a command whose target has drifted. -/
def driftRefuse : String := "refuse"
/-- Overwrite drift. -/
def driftOverwrite : String := "overwrite"
/-- Overwrite drift when the command carries an approval. -/
def driftOverwriteWithApproval : String := "overwrite-with-approval"

/-- The size of an Ed25519 public key. -/
def publicKeySize : ℕ := 32

/-- The settings the modelled components read. -/
structure Config where
  /-- Base64 or hexadecimal Ed25519 public key of the control plane. -/
  serverPublicKey : String := ""
  /-- Cluster named in reports and batches. -/
  clusterID : String := ""
  /-- Whether commands are executed at all. -/
  writerEnabled : Bool := true
  /-- Whether every write is tried as a dry run first. -/
  dryRunFirst : Bool := true
  /-- What to do about drift. -/
  driftPolicy : String := driftRefuse
  /-- Whether local policy admits deletes. -/
  allowDelete : Bool := true
  /-- Namespaces protected from mutation. -/
  protectedNamespaces : List String := ["kube-system", "k8s-agent-system"]
  /-- How long a drain may go without an eviction, in nanoseconds. -/
  drainStallTimeout : ℤ := 15 * 60 * 10 ^ 9
  deriving Repr

namespace Config

/-- The public key: 32 bytes of base64, or else 32 bytes of hexadecimal. -/
def publicKey (c : Config) : Except String Bytes :=
  match base64Decode (utf8 c.serverPublicKey) with
  | .ok raw => if raw.length = publicKeySize then .ok raw else hexKey
  | .error _ => hexKey
where
  /-- The hexadecimal reading of the key. -/
  hexKey : Except String Bytes :=
    let got := (utf8 c.serverPublicKey).length
    let bad := .error s!"expected a 32-byte Ed25519 public key as base64 or hex (got {got} chars)"
    match hexDecode (utf8 c.serverPublicKey) with
    | some raw => if raw.length = publicKeySize then .ok raw else bad
    | none => bad

/-- Whether `ns` is protected from mutation. -/
def protectedNamespace (c : Config) (ns : String) : Bool := c.protectedNamespaces.any (· == ns)

/-! ## The two texts of a key -/

/-- No byte string is read by both decoders as one of the size of a key. -/
lemma not_both_decoders {src raw raw' : Bytes} (hbase : base64Decode src = .ok raw)
    (hraw : raw.length = publicKeySize) (hhex : hexDecode src = some raw') :
    raw'.length ≠ publicKeySize := by
  have hlen := length_of_hexDecode_of_base64Decode hhex hbase
  unfold publicKeySize at hraw ⊢
  omega

/-- **Which key is returned.** The order in which the decoders are tried does not show.

**Proof sketch.** Where the base64 reading has the size of a key, the hexadecimal one does not, by
`not_both_decoders`; otherwise the base64 reading is passed over. -/
theorem publicKey_eq_ok_iff (c : Config) (k : Bytes) :
    c.publicKey = .ok k ↔ k.length = publicKeySize ∧
      (base64Decode (utf8 c.serverPublicKey) = .ok k ∨
        hexDecode (utf8 c.serverPublicKey) = some k) := by
  have hhex : publicKey.hexKey c = .ok k ↔
      k.length = publicKeySize ∧ hexDecode (utf8 c.serverPublicKey) = some k := by
    unfold publicKey.hexKey
    cases hexDecode (utf8 c.serverPublicKey) with
    | none => simp
    | some raw =>
      dsimp only
      split_ifs with hraw
      · simp only [Except.ok.injEq, Option.some.injEq]
        exact ⟨fun h => ⟨h ▸ hraw, h⟩, fun h => h.2⟩
      · simp only [Option.some.injEq, false_iff, not_and]
        rintro hk rfl
        exact hraw hk
  unfold publicKey
  cases hbase : base64Decode (utf8 c.serverPublicKey) with
  | error e => simp [hhex]
  | ok raw =>
    dsimp only
    split_ifs with hraw
    · simp only [Except.ok.injEq]
      constructor
      · rintro rfl
        exact ⟨hraw, .inl rfl⟩
      · rintro ⟨hk, h | h⟩
        · exact h
        · exact absurd hk (not_both_decoders hbase hraw h)
    · rw [hhex]
      refine and_congr_right fun hk => ?_
      have hne : raw ≠ k := fun h => hraw (h ▸ hk)
      simp [hne]

/-- **Key decoding is total and unambiguous.** A key of 32 bytes is returned for its base64 text and
for its hexadecimal text, whichever of its letters are capitals; and no byte string is read by both
decoders as 32 bytes.

**Proof sketch.** Each text is read back by its own decoder, and `publicKey_eq_ok_iff` needs one of
the two readings. A text of 64 hexadecimal digits has 48 bytes as base64. -/
theorem publicKey_unambiguous (k : Bytes) (hk : k.length = publicKeySize) :
    (∀ c : Config, c.serverPublicKey = base64Encode k → c.publicKey = .ok k) ∧
    (∀ c : Config, c.serverPublicKey.toList.map Char.toLower = (hexEncode k).toList →
      c.publicKey = .ok k) ∧
    ∀ src : Bytes, ¬∃ raw raw', base64Decode src = .ok raw ∧ raw.length = publicKeySize ∧
      hexDecode src = some raw' ∧ raw'.length = publicKeySize := by
  refine ⟨fun c hc => ?_, fun c hc => ?_, ?_⟩
  · rw [publicKey_eq_ok_iff, hc]
    exact ⟨hk, .inl (base64Decode_base64Encode k)⟩
  · rw [publicKey_eq_ok_iff]
    exact ⟨hk, .inr (hexDecode_of_toLower hc)⟩
  · rintro src ⟨raw, raw', hbase, hraw, hhex, hraw'⟩
    exact not_both_decoders hbase hraw hhex hraw'

/-- A key in base64, and in hexadecimal with some capitals. -/
theorem publicKey_of_texts :
    ({ serverPublicKey := "qqqqqqqqqqqqqqqqqqqqqqqqqqqqqqqqqqqqqqqqqqo=" } : Config).publicKey =
        .ok (List.replicate 32 0xAA) ∧
      ({ serverPublicKey :=
          "aAAaaaaaaaaaaaaaaaaaaaaaaaaaaaaaAAAAAAAAAAAAAAAAAAAAAAAAAAAAAAAA" } :
          Config).publicKey = .ok (List.replicate 32 0xAA) :=
  ⟨(publicKey_unambiguous (List.replicate 32 0xAA) (by decide)).1 _ (by decide +kernel),
    (publicKey_unambiguous (List.replicate 32 0xAA) (by decide)).2.1 _ (by decide +kernel)⟩

end Config

end K8sAgent
