import Mathlib
import K8sAgent.Lib.Lines
import K8sAgent.Protocol.Sign

set_option relaxedAutoImplicit false
set_option autoImplicit false

/-!
# What a signature binds

The signed byte string joins the fields of a command with line feeds and escapes nothing, so a
text field with a line feed in it may be read back in another way. This module finds the commands
that are the only ones with their byte string.

## Main definitions

* `K8sAgent.Command.Binds` — no command that differs beyond the signature has the same payload.
* `K8sAgent.Command.Unambiguous` — where line feeds may stand in a command, and between what.

## Main results

* `K8sAgent.Command.lines_signingText` — the signed lines, field by field.
* `K8sAgent.Command.framed_unique` — when a list of lines falls into fields in one way.
* `K8sAgent.Command.binds_iff_unambiguous` — exactly the unambiguous commands are bound.
-/

namespace K8sAgent

open Encoding Lines

/-- The range of the timestamp. -/
def InInt64 (t : ℤ) : Prop := -2 ^ 63 ≤ t ∧ t < 2 ^ 63

/-- The texts of a Helm part. -/
def HelmSpec.texts (h : HelmSpec) : List String :=
  [h.releaseName, h.namespace_, h.chartRef, h.version]

/-- A Helm part with other texts. -/
def HelmSpec.withTexts (h : HelmSpec) : List String → HelmSpec
  | [releaseName, ns, chartRef, version] => ⟨releaseName, ns, chartRef, version, h.valuesYAML⟩
  | _ => h

namespace Command

/-- The texts between timestamp and payload. -/
def middle (c : Command) : List String :=
  [c.id, c.verb, c.target.group, c.target.version, c.target.resource, c.target.namespace_,
    c.target.name, c.patchType]

/-- A command with other texts between timestamp and payload. -/
def withMiddle (c : Command) : List String → Command
  | [id, verb, group, version, resource, ns, name, patchType] =>
    { c with id := id, verb := verb, target := ⟨group, version, resource, ns, name⟩,
             patchType := patchType }
  | _ => c

/-- No command that differs in more than the signature has the same signed byte string. -/
def Binds (env : Env) (c : Command) : Prop :=
  ∀ c' : Command, InInt64 c'.timestamp → c'.signingPayload env = c.signingPayload env →
    c' = { c with signature := c'.signature }

/-- The texts between timestamp and payload have no line feed; no line of the nonce but the first
reads as a timestamp; no line of the expected hash but the last reads as a digest; and in a Helm
command the texts of the Helm part have no line feed, and no line of the expected hash but the
first reads as the override flag. -/
structure Unambiguous (env : Env) (c : Command) : Prop where
  /-- Identifier, verb, target and patch type are single lines. -/
  middle : ∀ f ∈ c.middle, '\n' ∉ f.toList
  /-- The nonce cannot end early. -/
  nonce : ∀ t, InInt64 t → (toString t).toList ∉ (lines c.nonce).tail
  /-- The expected hash cannot begin late. -/
  expectedHash : ∀ b, (env.sha256Hex b).toList ∉ (lines c.expectedHash).dropLast
  /-- The Helm texts are single lines. -/
  helm : ∀ h ∈ c.helm, ∀ f ∈ h.texts, '\n' ∉ f.toList
  /-- The expected hash of a Helm command cannot end early. -/
  override : c.helm.isSome → ∀ o : Bool, (toString o).toList ∉ (lines c.expectedHash).tail

/-! ## The signed lines -/

/-- A decimal number is one line. -/
lemma newline_not_mem_toString (t : ℤ) : '\n' ∉ (toString t).toList := by
  have hnat : ∀ n : ℕ, '\n' ∉ n.repr.toList := by
    intro n hmem
    rw [Nat.toList_repr] at hmem
    exact absurd (Nat.isDigit_of_mem_toDigits (by omega) (by omega) hmem) (by decide)
  rw [Int.toString_eq_repr, Int.repr_eq_if]
  split_ifs
  · exact hnat _
  · rw [String.toList_append, List.mem_append, not_or]
    exact ⟨by decide, hnat _⟩

lemma newline_not_mem_toString_bool (o : Bool) : '\n' ∉ (toString o).toList := by
  cases o <;> decide

lemma toString_bool_inj {o o' : Bool} (h : toString o = toString o') : o = o' := by
  revert h
  cases o <;> cases o' <;> decide

lemma length_sha256Hex (env : Env) (b : Bytes) : (env.sha256Hex b).toList.length = 64 := by
  rw [Env.sha256Hex, length_hexEncode, env.sha256_length]

/-- The lines of the Helm part. -/
def helmTail (env : Env) : Option HelmSpec → List (List Char)
  | none => []
  | some h => (h.texts.map lines).flatten ++ [(env.sha256Hex h.valuesYAML).toList]

/-- **The signed lines**: those of the nonce, the timestamp, those of the texts in the middle, the
digest of the payload, those of the expected hash, the override flag and those of the Helm part. -/
theorem lines_signingText (env : Env) (c : Command) :
    lines (c.signingText env) =
      lines c.nonce ++ (toString c.timestamp).toList :: ((c.middle.map lines).flatten ++
        (env.sha256Hex c.payload).toList :: (lines c.expectedHash ++
          (toString c.override).toList :: helmTail env c.helm)) := by
  rw [signingText, lines_intercalate (by simp [signingLines])]
  have hts := lines_of_not_mem (newline_not_mem_toString c.timestamp)
  rw [Int.toString_eq_repr] at hts
  have hov := lines_of_not_mem (newline_not_mem_toString_bool c.override)
  have hhex : ∀ b, lines (env.sha256Hex b) = [(env.sha256Hex b).toList] := fun b =>
    lines_of_not_mem (newline_not_mem_hexEncode _)
  cases hh : c.helm with
  | none => simp [signingLines, helmLines, helmTail, middle, hts, hov, hhex, hh]
  | some h => simp [signingLines, helmLines, helmTail, middle, HelmSpec.texts, hts, hov, hhex, hh]

/-- Two commands have the same payload exactly when they have the same signed lines. -/
lemma signingPayload_eq_iff {env : Env} {c c' : Command} :
    c'.signingPayload env = c.signingPayload env ↔
      lines (c'.signingText env) = lines (c.signingText env) := by
  rw [lines_injective.eq_iff]
  constructor
  · intro h
    simp only [signingPayload, utf8] at h
    exact String.toByteArray_inj.mp (ByteArray.ext (Array.toList_inj.mp h))
  · intro h
    rw [signingPayload, signingPayload, h]

/-! ## When lines fall into fields in one way -/

/-- **One reading.** A list is cut at three marks: `N`, mark `T`, `M`, mark `H`, `E`, mark `O`, `X`.
Another cut of the same list with longer middle and end is the same cut, provided its marks are
not found where they could be mistaken: its `T` in `N` after the first entry, its `H` in `E` before
the last, and, unless the ends have one length, its `O` in `E` after the first.

**Proof sketch.** The second cut's `N` is not shorter, or its `T` would be in the first one's `N`.
Its `H` does not come later, or it would be in the first one's `E`; so `N` and `M` have the lengths
of the first cut. The same argument for `O` settles `E`. -/
theorem framed_unique {α : Type*} {N₁ M₁ E₁ X₁ N₂ M₂ E₂ X₂ : List α} {T₁ H₁ O₁ T₂ H₂ O₂ : α}
    (hW : N₁ ++ T₁ :: (M₁ ++ H₁ :: (E₁ ++ O₁ :: X₁)) =
      N₂ ++ T₂ :: (M₂ ++ H₂ :: (E₂ ++ O₂ :: X₂)))
    (hM : M₁.length ≤ M₂.length) (hX : X₁.length ≤ X₂.length) (hN₂ : N₂ ≠ []) (hE₂ : E₂ ≠ [])
    (hT : T₂ ∉ N₁.tail) (hH : H₂ ∉ E₁.dropLast)
    (hO : X₁.length = X₂.length ∨ O₂ ∉ E₁.tail) :
    N₁ = N₂ ∧ T₁ = T₂ ∧ M₁ = M₂ ∧ H₁ = H₂ ∧ E₁ = E₂ ∧ O₁ = O₂ ∧ X₁ = X₂ := by
  have hlen := congrArg List.length hW
  have hN₂' := List.length_pos_iff.mpr hN₂
  have hE₂' := List.length_pos_iff.mpr hE₂
  simp only [List.length_append, List.length_cons] at hlen
  have hN : N₁.length ≤ N₂.length := by
    by_contra hlt
    have hget := congrArg (·[N₂.length]?) hW
    simp only [List.getElem?_append_right le_rfl, Nat.sub_self, List.getElem?_cons_zero] at hget
    rw [List.getElem?_append_left (by omega)] at hget
    refine hT (List.mem_of_getElem? (i := N₂.length - 1) ?_)
    rw [List.getElem?_tail, show N₂.length - 1 + 1 = N₂.length by omega, hget]
  have hNM : N₂.length + M₂.length ≤ N₁.length + M₁.length := by
    by_contra hlt
    obtain ⟨k, hk⟩ : ∃ k, N₂.length + M₂.length = N₁.length + M₁.length + 1 + k :=
      ⟨N₂.length + M₂.length - (N₁.length + M₁.length + 1), by omega⟩
    have hright : (N₂ ++ T₂ :: (M₂ ++ H₂ :: (E₂ ++ O₂ :: X₂)))[N₂.length + 1 + M₂.length]? =
        some H₂ := by
      rw [List.getElem?_append_right (by omega),
        show N₂.length + 1 + M₂.length - N₂.length = M₂.length + 1 by omega,
        List.getElem?_cons_succ, List.getElem?_append_right le_rfl, Nat.sub_self,
        List.getElem?_cons_zero]
    rw [← hW, List.getElem?_append_right (by omega),
      show N₂.length + 1 + M₂.length - N₁.length = M₁.length + 1 + k + 1 by omega,
      List.getElem?_cons_succ, List.getElem?_append_right (by omega),
      show M₁.length + 1 + k - M₁.length = k + 1 by omega, List.getElem?_cons_succ,
      List.getElem?_append_left (by omega)] at hright
    refine hH (List.mem_of_getElem? (i := k) ?_)
    rw [List.getElem?_dropLast, if_pos (by omega), hright]
  obtain ⟨rfl, hTM⟩ := List.append_inj hW (by omega)
  obtain ⟨rfl, hMH⟩ := List.cons.inj hTM
  obtain ⟨rfl, hHE⟩ := List.append_inj hMH (by omega)
  obtain ⟨rfl, hEO⟩ := List.cons.inj hHE
  have hE : E₁.length = E₂.length := by
    rcases hO with hX' | hO
    · omega
    · by_contra hne
      have hget := congrArg (·[E₂.length]?) hEO
      simp only [List.getElem?_append_right le_rfl, Nat.sub_self, List.getElem?_cons_zero] at hget
      rw [List.getElem?_append_left (by omega)] at hget
      refine hO (List.mem_of_getElem? (i := E₂.length - 1) ?_)
      rw [List.getElem?_tail, show E₂.length - 1 + 1 = E₂.length by omega, hget]
  obtain ⟨rfl, hOX⟩ := List.append_inj hEO hE
  obtain ⟨rfl, rfl⟩ := List.cons.inj hOX
  exact ⟨rfl, rfl, rfl, rfl, rfl, rfl, rfl⟩

/-! ## Unambiguous commands are bound -/

section Bound

variable {env : Env} {c c' : Command}

/-- Texts without line feed make one line each. -/
lemma length_flatten_lines {fs : List String} (h : ∀ f ∈ fs, '\n' ∉ f.toList) :
    (fs.map lines).flatten.length = fs.length := by
  induction fs with
  | nil => rfl
  | cons f fs ih =>
    rw [List.map_cons, List.flatten_cons, lines_of_not_mem (h f List.mem_cons_self),
      List.length_append, ih fun g hg => h g (List.mem_cons_of_mem _ hg), List.length_singleton,
      List.length_cons]
    omega

lemma map_lines_ne_nil (fs : List String) : ∀ b ∈ fs.map lines, b ≠ [] := by
  intro b hb
  obtain ⟨f, -, rfl⟩ := List.mem_map.mp hb
  exact lines_ne_nil f

/-- Single-line texts are determined by their lines, given how many there are. -/
lemma texts_eq {fs gs : List String} (h : ∀ f ∈ fs, '\n' ∉ f.toList)
    (hlen : gs.length = fs.length) (hflat : (gs.map lines).flatten = (fs.map lines).flatten) :
    gs = fs := by
  have hblocks : fs.map lines = gs.map lines :=
    blocks_eq (map_lines_ne_nil fs) (map_lines_ne_nil gs) (by simpa using hlen.symm) hflat.symm
      (by rw [length_flatten_lines h, List.length_map])
  exact (lines_injective.list_map hblocks).symm

/-- A digest determines a byte string that is the only one with its digest. -/
lemma eq_of_sha256Hex {b b' : Bytes} (hb : ∀ x, env.sha256 x = env.sha256 b → x = b)
    (h : (env.sha256Hex b').toList = (env.sha256Hex b).toList) : b' = b :=
  hb b' (hexEncode_injective (String.toList_inj.mp h))

/-- Whether a command has a Helm part shows in its last line: a flag or a digest. -/
lemma helm_isSome_eq (h : lines (c'.signingText env) = lines (c.signingText env)) :
    c'.helm.isSome = c.helm.isSome := by
  have hflag : ∀ (o : Bool) (b : Bytes), (toString o).toList ≠ (env.sha256Hex b).toList := by
    intro o b heq
    have hlen := congrArg List.length heq
    rw [length_sha256Hex] at hlen
    cases o <;> exact absurd hlen (by decide)
  have hlast := congrArg List.getLast? h
  rw [lines_signingText, lines_signingText] at hlast
  cases hh' : c'.helm <;> cases hh : c.helm <;>
    simp only [hh, hh', helmTail, List.getLast?_append, List.getLast?_cons, List.getLast?_nil,
      Option.getD_none, Option.getD_some, Option.some_or,
      Option.some_inj] at hlast
  · rfl
  · exact absurd hlast (hflag _ _)
  · exact absurd hlast.symm (hflag _ _)
  · rfl

/-- The ends of two commands with and without Helm part alike: the first one's is no longer, and
without Helm part both are empty. -/
lemma length_helmTail_le (hc : c.Unambiguous env) (hhelm : c'.helm.isSome = c.helm.isSome) :
    (helmTail env c.helm).length ≤ (helmTail env c'.helm).length ∧
      (c.helm.isSome = false →
        (helmTail env c.helm).length = (helmTail env c'.helm).length) := by
  cases hh : c.helm with
  | none =>
    rw [hh, Option.isSome_none, Option.isSome_eq_false_iff, Option.isNone_iff_eq_none] at hhelm
    simp [hhelm, helmTail]
  | some h =>
    rw [hh, Option.isSome_some, Option.isSome_iff_exists] at hhelm
    obtain ⟨h', hh'⟩ := hhelm
    have hle := length_le_length_flatten (map_lines_ne_nil h'.texts)
    simp only [hh', helmTail, List.length_append, List.length_singleton,
      length_flatten_lines (hc.helm h hh)]
    refine ⟨?_, fun hf => absurd hf (by simp)⟩
    simp only [HelmSpec.texts, List.length_map, List.length_cons, List.length_nil] at hle ⊢
    omega

/-- A Helm part with single-line texts is determined by its lines. -/
lemma helm_eq (hc : c.Unambiguous env)
    (hvalues : ∀ h ∈ c.helm, ∀ b, env.sha256 b = env.sha256 h.valuesYAML → b = h.valuesYAML)
    (hhelm : c'.helm.isSome = c.helm.isSome)
    (htail : helmTail env c.helm = helmTail env c'.helm) : c'.helm = c.helm := by
  cases hh : c.helm with
  | none =>
    rw [hh, Option.isSome_none, Option.isSome_eq_false_iff, Option.isNone_iff_eq_none] at hhelm
    exact hhelm
  | some h =>
    rw [hh, Option.isSome_some, Option.isSome_iff_exists] at hhelm
    obtain ⟨h', hh'⟩ := hhelm
    simp only [hh, hh', helmTail] at htail
    obtain ⟨hflat, hdigest⟩ := List.append_inj' htail rfl
    have htexts : h'.texts = h.texts := texts_eq (hc.helm h hh) rfl hflat.symm
    have hval : h'.valuesYAML = h.valuesYAML :=
      eq_of_sha256Hex (hvalues h hh) (List.singleton_inj.mp hdigest).symm
    simp only [HelmSpec.texts, List.cons.injEq, and_true] at htexts
    obtain ⟨hr, hn, hch, hv⟩ := htexts
    rw [hh', Option.some_inj]
    cases h'
    cases h
    simp_all

/-- **Unambiguous commands are bound** by their signature, if the hashes of payload and values have
no other preimage. -/
theorem Unambiguous.binds (hpayload : ∀ b, env.sha256 b = env.sha256 c.payload → b = c.payload)
    (hvalues : ∀ h ∈ c.helm, ∀ b, env.sha256 b = env.sha256 h.valuesYAML → b = h.valuesYAML)
    (hc : c.Unambiguous env) : c.Binds env := by
  intro c' hts heq
  rw [signingPayload_eq_iff] at heq
  have hhelm := helm_isSome_eq heq
  rw [lines_signingText, lines_signingText] at heq
  have hmid : (c.middle.map lines).flatten.length ≤ (c'.middle.map lines).flatten.length := by
    rw [length_flatten_lines hc.middle]
    simpa [Command.middle] using length_le_length_flatten (map_lines_ne_nil c'.middle)
  obtain ⟨htail, htail'⟩ := length_helmTail_le hc hhelm
  obtain ⟨hnonce, htime, hmiddle, hdigest, hhash, hflag, hend⟩ := framed_unique heq.symm hmid htail
    (lines_ne_nil _) (lines_ne_nil _) (hc.nonce _ hts) (hc.expectedHash _) (by
      cases hs : c.helm.isSome with
      | false => exact .inl (htail' hs)
      | true => exact .inr (hc.override hs _))
  have htexts : c'.middle = c.middle := texts_eq hc.middle rfl hmiddle.symm
  have hnonce' : c'.nonce = c.nonce := (lines_injective hnonce).symm
  have htime' : c'.timestamp = c.timestamp := by
    have := String.toList_inj.mp htime
    rw [Int.toString_eq_repr, Int.toString_eq_repr] at this
    exact (Int.repr_inj.mp this).symm
  have hpay : c'.payload = c.payload := eq_of_sha256Hex hpayload hdigest.symm
  have hhash' : c'.expectedHash = c.expectedHash := (lines_injective hhash).symm
  have hflag' : c'.override = c.override := toString_bool_inj (String.toList_inj.mp hflag.symm)
  have hhelm' := helm_eq hc hvalues hhelm hend
  simp only [Command.middle, List.cons.injEq, and_true] at htexts
  obtain ⟨hid, hverb, hg, hv, hr, hn, hna, hp⟩ := htexts
  obtain ⟨id', nonce', ts', verb', ⟨g', v', r', n', na'⟩, payload', pt', helm', eh', ov', sig'⟩ :=
    c'
  obtain ⟨id, nonce, ts, verb, ⟨g, v, r, n, na⟩, payload, pt, helm, eh, ov, sig⟩ := c
  simp_all

end Bound

/-! ## Bound commands are unambiguous -/

section Ambiguous

variable {env : Env} {c : Command}

/-- A bound command agrees with every command that has its lines. -/
lemma Binds.eq (hb : c.Binds env) (c' : Command) (hts : InInt64 c'.timestamp)
    (hlines : lines (c'.signingText env) = lines (c.signingText env)) :
    c' = { c with signature := c'.signature } :=
  hb c' hts (signingPayload_eq_iff.mpr hlines)

/-- A line feed in a text of the middle can be read as the end of the text. -/
lemma Binds.middle (hb : c.Binds env) (hts : InInt64 c.timestamp) :
    ∀ f ∈ c.middle, '\n' ∉ f.toList := by
  intro f hf hfeed
  obtain ⟨gs, hlen, hflat, hne⟩ := exists_other_texts (by simp [Command.middle]) hf hfeed
  have hlen8 : gs.length = 8 := hlen
  match gs, hlen8 with
  | [id, verb, group, version, resource, ns, name, patchType], _ =>
    have hmiddle : (c.withMiddle [id, verb, group, version, resource, ns, name, patchType]).middle =
        [id, verb, group, version, resource, ns, name, patchType] := rfl
    have heq := hb.eq (c.withMiddle [id, verb, group, version, resource, ns, name, patchType]) hts
      (by rw [lines_signingText, lines_signingText, hmiddle, hflat]; rfl)
    rw [heq] at hmiddle
    exact hne hmiddle.symm

/-- A line feed in a text of the Helm part can be read as the end of the text. -/
lemma Binds.helm (hb : c.Binds env) (hts : InInt64 c.timestamp) :
    ∀ h ∈ c.helm, ∀ f ∈ h.texts, '\n' ∉ f.toList := by
  intro h hh f hf hfeed
  rw [Option.mem_def] at hh
  obtain ⟨gs, hlen, hflat, hne⟩ := exists_other_texts (by simp [HelmSpec.texts]) hf hfeed
  have hlen4 : gs.length = 4 := hlen
  match gs, hlen4 with
  | [releaseName, ns, chartRef, version], _ =>
    have htexts : (h.withTexts [releaseName, ns, chartRef, version]).texts =
        [releaseName, ns, chartRef, version] := rfl
    have heq := hb.eq { c with helm := some (h.withTexts [releaseName, ns, chartRef, version]) } hts
      (by rw [lines_signingText, lines_signingText, hh, helmTail, helmTail, htexts, hflat]; rfl)
    have hhelm := congrArg Command.helm heq
    simp only [hh, Option.some_inj] at hhelm
    rw [hhelm] at htexts
    exact hne htexts.symm

/-- A line of the nonce that reads as a timestamp can be taken for it. -/
lemma Binds.nonce (hb : c.Binds env) :
    ∀ t, InInt64 t → (toString t).toList ∉ (lines c.nonce).tail := by
  intro t ht hmem
  obtain ⟨nonce, id, rest, hl, hid⟩ :=
    exists_cut_tail hmem (newline_not_mem_toString c.timestamp) c.id
  have heq := hb.eq { c with nonce := nonce, timestamp := t, id := id } ht (by
    rw [lines_signingText, lines_signingText, hl]
    simp only [Command.middle, List.map_cons, List.flatten_cons, hid]
    simp only [List.cons_append, List.append_assoc])
  -- the nonce has become shorter
  have hnonce := congrArg (fun c => (lines c.nonce).length) heq
  simp [hl] at hnonce

/-- A line of the expected hash that reads as a digest can be taken for that of the payload. -/
lemma Binds.expectedHash (hb : c.Binds env) (hts : InInt64 c.timestamp) :
    ∀ b, (env.sha256Hex b).toList ∉ (lines c.expectedHash).dropLast := by
  intro b hmem
  obtain ⟨patchType, hash, rest, hl, hpt⟩ :=
    exists_cut_dropLast hmem (newline_not_mem_hexEncode (env.sha256 c.payload)) c.patchType
  have heq := hb.eq { c with payload := b, expectedHash := hash, patchType := patchType } hts (by
    rw [lines_signingText, lines_signingText, hl]
    simp only [Command.middle, List.map_cons, List.map_nil, List.flatten_cons, hpt, Env.sha256Hex]
    simp only [List.flatten_nil, List.cons_append, List.nil_append, List.append_assoc])
  -- the expected hash has become shorter
  have hhash := congrArg (fun c => (lines c.expectedHash).length) heq
  simp [hl] at hhash
  omega

/-- In a Helm command a line of the expected hash that reads as a flag can be taken for it. -/
lemma Binds.override (hb : c.Binds env) (hts : InInt64 c.timestamp) (hs : c.helm.isSome) :
    ∀ o : Bool, (toString o).toList ∉ (lines c.expectedHash).tail := by
  intro o hmem
  obtain ⟨h, hh⟩ := Option.isSome_iff_exists.mp hs
  obtain ⟨hash, releaseName, rest, hl, hrelease⟩ :=
    exists_cut_tail hmem (newline_not_mem_toString_bool c.override) h.releaseName
  have heq := hb.eq
    { c with
      expectedHash := hash
      override := o
      helm := some { h with releaseName := releaseName } } hts (by
        rw [lines_signingText, lines_signingText, hl, hh]
        simp only [Command.middle, helmTail, HelmSpec.texts, List.map_cons, List.flatten_cons,
          hrelease]
        simp only [List.cons_append, List.append_assoc])
  -- the expected hash has become shorter
  have hhash := congrArg (fun c => (lines c.expectedHash).length) heq
  simp [hl] at hhash

end Ambiguous

/-- **Exactly the unambiguous commands are bound by their signed byte string**: a command is the
only one with its byte string, the signature apart, if and only if it is unambiguous. SHA-256 is
assumed to have no second preimage for the payload and the Helm values of the command.

**Proof sketch.** Two commands with one byte string have the same signed lines
(`lines_signingText`), and the lines of an unambiguous command fall into fields in one way
(`framed_unique`). Conversely a line feed in the wrong place, or a line that reads as the mark after
it, gives another command with the same lines. -/
theorem binds_iff_unambiguous (env : Env) (c : Command) (hts : InInt64 c.timestamp)
    (hpayload : ∀ b, env.sha256 b = env.sha256 c.payload → b = c.payload)
    (hvalues : ∀ h ∈ c.helm, ∀ b, env.sha256 b = env.sha256 h.valuesYAML → b = h.valuesYAML) :
    c.Binds env ↔ c.Unambiguous env := by
  refine ⟨fun hb => ?_, fun hc => hc.binds hpayload hvalues⟩
  exact ⟨hb.middle hts, hb.nonce, hb.expectedHash hts, hb.helm hts, hb.override hts⟩

/-- In the sample environment no other byte string has the digest of the empty one. -/
lemma sampleEnv_sha256_nil (b : Bytes) (h : sampleEnv.sha256 b = sampleEnv.sha256 []) :
    b = [] := by
  cases b with
  | nil => rfl
  | cons x b =>
    have hzero : sampleEnv.sha256 (x :: b) = List.replicate 32 0 := rfl
    rw [hzero] at h
    exact absurd h (by decide)

/-- The sample command is bound by its byte string. -/
theorem binds_sampleCommand : sampleCommand.Binds sampleEnv :=
  (binds_iff_unambiguous sampleEnv sampleCommand ⟨by decide, by decide⟩ sampleEnv_sha256_nil
    (fun _ hh => by cases hh)).mpr
    { middle := by decide
      nonce := fun t _ hmem => by
        rw [show (lines sampleCommand.nonce).tail = [] from rfl] at hmem
        cases hmem
      expectedHash := fun b hmem => by
        rw [show (lines sampleCommand.expectedHash).dropLast = [] from rfl] at hmem
        cases hmem
      helm := fun _ hh => by cases hh
      override := fun hs => by cases hs }

/-- A command to delete the pod `0` in the namespace `default⏎web`, with a signature. -/
def ambiguousCommand : Command where
  id := "cmd-2"
  nonce := "nonce-2"
  timestamp := 1700000000
  verb := verbDelete
  target := ⟨"", "v1", "pods", "default\nweb", "0"⟩
  signature := "xUX5rX9LVw22p/pAvmbaOWyXePMRQSkoyYR/pBv8FrRl/lMiVd4goXZpBQDqqplLjt79hus7wBnojWi9QHKUAQ=="

/-- The signature of the command. -/
def ambiguousEnv : Env := .ofTables
  { digests := [([], ofHex "e3b0c44298fc1c149afbf4c8996fb92427ae41e4649b934ca495991b7852b855")]
    signatures := [(ofHex "42df9cf58875460b096e097e9846c1e42a08249de77cdd75261a28b8bd9a2a76",
      utf8 ("nonce-2\n1700000000\ncmd-2\ndelete\n\nv1\npods\ndefault\nweb\n0\n\n" ++
        "e3b0c44298fc1c149afbf4c8996fb92427ae41e4649b934ca495991b7852b855\n\nfalse"),
      ofHex ("c545f9ad7f4b570db6a7fa40be66da396c9778f311412928c9847fa41bfc16b4" ++
        "65fe532255de20a176690500eaaa994b8edefd86eb3bc019e88d68bd40729401"))] }

/-- The command has the byte string of a command to delete the pod `web⏎0` in the namespace
`default`, and its signature verifies for both. -/
theorem ambiguousCommand_not_bound :
    { ambiguousCommand with target := ⟨"", "v1", "pods", "default", "web\n0"⟩ } ≠ ambiguousCommand ∧
    Command.signingPayload ambiguousEnv
        { ambiguousCommand with target := ⟨"", "v1", "pods", "default", "web\n0"⟩ } =
      ambiguousCommand.signingPayload ambiguousEnv ∧
    ambiguousCommand.verifySignature ambiguousEnv
      (ofHex "42df9cf58875460b096e097e9846c1e42a08249de77cdd75261a28b8bd9a2a76") = none ∧
    Command.verifySignature ambiguousEnv
      { ambiguousCommand with target := ⟨"", "v1", "pods", "default", "web\n0"⟩ }
      (ofHex "42df9cf58875460b096e097e9846c1e42a08249de77cdd75261a28b8bd9a2a76") = none := by
  refine ⟨by decide, by decide +kernel, by decide +kernel, by decide +kernel⟩

/-- A signature of an unambiguous command verifies for no other command: if the signature bytes
verify for the command's byte string only, every command they verify for has its fields. -/
theorem Unambiguous.verifies_for_no_other {env : Env} {c c' : Command} {pub sig : Bytes}
    (hc : c.Unambiguous env)
    (hpayload : ∀ b, env.sha256 b = env.sha256 c.payload → b = c.payload)
    (hvalues : ∀ h ∈ c.helm, ∀ b, env.sha256 b = env.sha256 h.valuesYAML → b = h.valuesYAML)
    (hmade : ∀ msg, env.ed25519Verify pub msg sig = true → msg = c.signingPayload env)
    (hts : InInt64 c'.timestamp) (hsig : base64Decode (utf8 c'.signature) = .ok sig)
    (hverify : c'.verifySignature env pub = none) : c' = { c with signature := c'.signature } := by
  obtain ⟨-, sig', hsig', hok⟩ := verifySignature_eq_none.mp hverify
  rw [hsig, Except.ok.injEq] at hsig'
  rw [← hsig'] at hok
  exact hc.binds hpayload hvalues c' hts (hmade _ hok)

end Command

end K8sAgent
