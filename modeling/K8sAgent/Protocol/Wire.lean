import K8sAgent.Lib.JsonMachine
import K8sAgent.Protocol.Types

set_option relaxedAutoImplicit false
set_option autoImplicit false

/-!
# Events on the wire

The JSON text of an `InventoryEvent` of `internal/protocol/types.go`, as `json.Marshal` writes it:
the fields in the order of the struct, the namespace and the object left out where they are empty,
the object in base64. The spill file and the body of an inventory upload hold such texts.

## Main definitions

* `K8sAgent.eventText`, `K8sAgent.eventJSON` — the text of an event, and its bytes.
* `K8sAgent.eventsJSON` — the bytes of a list of events.
* `K8sAgent.wireSize` — the size of an event, from the sizes of its fields.

## Main results

* `K8sAgent.length_eventJSON`, `K8sAgent.length_eventsJSON` — the sizes.
* `K8sAgent.eventJSON_injective` — an event is known from its text.
* `K8sAgent.whole_eventJSON` — the text of an event is one whole JSON object.
-/

namespace K8sAgent

open Encoding JsonText

/-! ## Texts -/

/-- A byte slice is written in base64. -/
def byteText (b : Bytes) : Text := '"' :: (base64Chars b ++ ['"'])

/-- The fields of a reference after the first. -/
def refMembers (r : ResourceRef) : List (String × Text) :=
  [("version", quoted r.version), ("resource", quoted r.resource)] ++
    (if r.namespace_ = "" then [] else [("namespace", quoted r.namespace_)]) ++
    [("name", quoted r.name)]

/-- The text of a reference. -/
def refText (r : ResourceRef) : Text := object ("group", quoted r.group) (refMembers r)

/-- The fields of an event after the first. -/
def eventMembers (ev : InventoryEvent) : List (String × Text) :=
  [("ref", refText ev.ref)] ++
    (if ev.objectJSON = [] then [] else [("objectJson", byteText ev.objectJSON)]) ++
    [("timestamp", number ev.timestamp)]

/-- The text of an event. -/
def eventText (ev : InventoryEvent) : Text := object ("op", quoted ev.op) (eventMembers ev)

/-- The bytes of an event. -/
def eventJSON (ev : InventoryEvent) : Bytes := bytes (eventText ev)

/-- The bytes of a list of events. -/
def eventsJSON (evs : List InventoryEvent) : Bytes :=
  91 :: (List.intercalate [44] (evs.map eventJSON) ++ [93])

/-- No character of a base64 text is escaped. -/
lemma byteText_eq_quoted (b : Bytes) : byteText b = quoted (base64Encode b) := by
  have key : ∀ n : Fin 64, escapeChar (base64Char n) = [base64Char n] := by decide
  have hplain : (base64Chars b).flatMap escapeChar = base64Chars b := by
    have hmap : ∀ c ∈ base64Chars b, escapeChar c = [c] := by
      intro c hc
      rcases mem_base64Chars hc with rfl | ⟨n, hn, rfl⟩
      · decide
      · exact key ⟨n, hn⟩
    rw [List.flatMap_congr hmap, List.flatMap_singleton']
  rw [byteText, quoted, base64Encode, String.toList_ofList, hplain]

/-! ## Sizes -/

/-- The size of an event: its fields, the names of its fields, and the object in base64. -/
def wireSize (ev : InventoryEvent) : ℕ :=
  68 + quotedSize ev.op + quotedSize ev.ref.group + quotedSize ev.ref.version +
    quotedSize ev.ref.resource + quotedSize ev.ref.name + numberSize ev.timestamp +
    (if ev.ref.namespace_ = "" then 0 else 13 + quotedSize ev.ref.namespace_) +
    (if ev.objectJSON = [] then 0 else 16 + 4 * ((ev.objectJSON.length + 2) / 3))

lemma length_bytes_byteText (b : Bytes) :
    (bytes (byteText b)).length = 4 * ((b.length + 2) / 3) + 2 := by
  have hascii : ∀ c ∈ byteText b, c.toNat < 128 := by
    intro c hc
    simp only [byteText, List.mem_cons, List.mem_append, List.not_mem_nil, or_false] at hc
    rcases hc with rfl | hc | rfl
    · decide
    · exact ascii_of_mem_base64Chars hc
    · decide
  rw [length_bytes_of_ascii hascii, byteText, List.length_cons, List.length_append,
    length_base64Chars]
  rfl

/-- The size of a reference: 41 bytes for the names of its fields, and the fields, the namespace
only if it is not empty. -/
lemma length_bytes_refText (r : ResourceRef) : (bytes (refText r)).length =
    41 + quotedSize r.group + quotedSize r.version + quotedSize r.resource + quotedSize r.name +
      (if r.namespace_ = "" then 0 else 13 + quotedSize r.namespace_) := by
  have hgroup : quotedSize "group" = 7 := by decide
  have hversion : quotedSize "version" = 9 := by decide
  have hresource : quotedSize "resource" = 10 := by decide
  have hnamespace : quotedSize "namespace" = 11 := by decide
  have hname : quotedSize "name" = 6 := by decide
  rw [refText, length_bytes_object, refMembers]
  split_ifs <;>
    simp only [memberSize, length_bytes_quoted, hgroup, hversion, hresource, hnamespace, hname,
      List.cons_append, List.nil_append, List.map_cons, List.map_nil, List.sum_cons,
      List.sum_nil] <;> omega

/-- **The size of an event** as JSON is `wireSize`. -/
theorem length_eventJSON (ev : InventoryEvent) : (eventJSON ev).length = wireSize ev := by
  have hop : quotedSize "op" = 4 := by decide
  have href : quotedSize "ref" = 5 := by decide
  have hobject : quotedSize "objectJson" = 12 := by decide
  have htimestamp : quotedSize "timestamp" = 11 := by decide
  rw [eventJSON, eventText, length_bytes_object, eventMembers, wireSize]
  -- the size of the reference is found first, so that its namespace is not split on twice
  generalize hns : (if ev.ref.namespace_ = "" then 0 else 13 + quotedSize ev.ref.namespace_) = ns
  have hr := length_bytes_refText ev.ref
  rw [hns] at hr
  split_ifs <;>
    simp only [memberSize, length_bytes_quoted, length_bytes_number, length_bytes_byteText, hr,
      hop, href, hobject, htimestamp, List.cons_append, List.nil_append, List.map_cons,
      List.map_nil, List.sum_cons, List.sum_nil] <;> omega

/-- The size of a list of events: a comma or a bracket with each, and one bracket more. -/
theorem length_eventsJSON {evs : List InventoryEvent} (hne : evs ≠ []) :
    (eventsJSON evs).length = (evs.map wireSize).sum + evs.length + 1 := by
  have hlist : ∀ evs : List InventoryEvent, evs ≠ [] →
      (List.intercalate [44] (evs.map eventJSON)).length + 1 =
        (evs.map wireSize).sum + evs.length := by
    intro evs
    induction evs with
    | nil => exact fun h => absurd rfl h
    | cons ev evs ih =>
      intro _
      cases evs with
      | nil => simp [length_eventJSON]
      | cons ev' evs =>
        have := ih (List.cons_ne_nil ev' evs)
        rw [List.map_cons, List.map_cons, List.intercalate_cons_cons, List.length_append,
          List.length_append, length_eventJSON, List.map_cons, List.sum_cons, List.length_cons]
        rw [List.map_cons] at this
        simp only [List.length_cons, List.length_nil] at this ⊢
        omega
  have := hlist evs hne
  rw [eventsJSON, List.length_cons, List.length_append, List.length_singleton]
  omega

/-- An update of an object in the default namespace. -/
def sampleUpdate (resource name : String) (object : Bytes) : InventoryEvent where
  op := "update"
  ref := { version := "v1", resource := resource, namespace_ := "default", name := name }
  objectJSON := object
  timestamp := 1700000000

/-- The size of such an event, by what it is about. -/
lemma wireSize_sampleUpdate (resource name : String) (object : Bytes) :
    wireSize (sampleUpdate resource name object) =
      114 + quotedSize resource + quotedSize name +
        (if object = [] then 0 else 16 + 4 * ((object.length + 2) / 3)) := by
  have hop : quotedSize "update" = 8 := by decide
  have hgroup : quotedSize "" = 2 := by decide
  have hversion : quotedSize "v1" = 4 := by decide
  have hnamespace : quotedSize "default" = 9 := by decide
  have htimestamp : numberSize 1700000000 = 10 := by decide
  have hdefault : ¬("default" = "") := by decide
  show 68 + quotedSize "update" + quotedSize "" + quotedSize "v1" + quotedSize resource +
    quotedSize name + numberSize 1700000000 +
    (if "default" = "" then 0 else 13 + quotedSize "default") +
    (if object = [] then 0 else 16 + 4 * ((object.length + 2) / 3)) = _
  rw [hop, hgroup, hversion, htimestamp, if_neg hdefault, hnamespace]
  omega

/-! ## Events are known from their texts -/

/-- A reference is known from a text that begins with it.

**Proof sketch.** The fields are read one after another; where one reference has a namespace and the
other has none, the keys differ. -/
lemma refText_append_inj {r r' : ResourceRef} {t t' : Text}
    (h : refText r ++ t = refText r' ++ t') : r = r' ∧ t = t' := by
  obtain ⟨g, v, rs, ns, n⟩ := r
  obtain ⟨g', v', rs', ns', n'⟩ := r'
  simp only [refText, refMembers, object, List.cons_append, List.nil_append, List.append_assoc,
    List.flatMap_cons, List.flatMap_append, List.flatMap_nil, List.cons.injEq, true_and] at h
  obtain ⟨-, rfl, h₁⟩ := member_quoted_append_inj h
  obtain ⟨-, rfl, h₂⟩ := member_quoted_append_inj (List.cons.inj h₁).2
  obtain ⟨-, rfl, h₃⟩ := member_quoted_append_inj (List.cons.inj h₂).2
  have hlast : ∀ {n n' : String}, member ("name", quoted n) ++ closeBrace :: t =
      member ("name", quoted n') ++ closeBrace :: t' → n = n' ∧ t = t' := by
    intro n n' h
    obtain ⟨-, hn, ht⟩ := member_quoted_append_inj h
    exact ⟨hn, (List.cons.inj ht).2⟩
  by_cases hns : ns = "" <;> by_cases hns' : ns' = "" <;>
    simp only [hns, hns', if_true, if_false, List.flatMap_cons, List.flatMap_nil, List.nil_append,
      List.append_nil, List.cons_append, List.cons.injEq, true_and] at h₃
  · obtain ⟨rfl, rfl⟩ := hlast h₃
    rw [hns, hns']
    exact ⟨rfl, rfl⟩
  · exact absurd (member_append_inj h₃).1 (by decide)
  · exact absurd (member_append_inj h₃).1 (by decide)
  · obtain ⟨-, rfl, h₄⟩ := member_quoted_append_inj h₃
    obtain ⟨rfl, rfl⟩ := hlast (List.cons.inj h₄).2
    exact ⟨rfl, rfl⟩

/-- An event is known from its text. -/
lemma eventText_injective : Function.Injective eventText := by
  rintro ⟨op, r, obj, ts⟩ ⟨op', r', obj', ts'⟩ h
  simp only [eventText, eventMembers, object, List.cons_append, List.nil_append, List.append_assoc,
    List.flatMap_cons, List.flatMap_append, List.flatMap_nil, List.cons.injEq, true_and] at h
  obtain ⟨-, rfl, h₁⟩ := member_quoted_append_inj h
  obtain ⟨-, h₂⟩ := member_append_inj (List.cons.inj h₁).2
  obtain ⟨rfl, h₃⟩ := refText_append_inj h₂
  have hlast : ∀ {n n' : ℤ}, member ("timestamp", number n) ++ [closeBrace] =
      member ("timestamp", number n') ++ [closeBrace] → n = n' := by
    intro n n' h
    obtain ⟨-, hn⟩ := member_append_inj h
    exact number_injective (List.append_cancel_right hn)
  by_cases hobj : obj = [] <;> by_cases hobj' : obj' = [] <;>
    simp only [hobj, hobj', if_true, if_false, List.flatMap_cons, List.flatMap_nil,
      List.nil_append, List.append_nil, List.cons_append, List.cons.injEq, true_and,
      byteText_eq_quoted] at h₃
  · rw [hobj, hobj', hlast h₃]
  · exact absurd (member_append_inj h₃).1 (by decide)
  · exact absurd (member_append_inj h₃).1 (by decide)
  · obtain ⟨-, h₄, h₅⟩ := member_quoted_append_inj h₃
    rw [base64Encode_injective h₄, hlast (List.cons.inj h₅).2]

/-- **An event is known from its bytes.** -/
theorem eventJSON_injective : Function.Injective eventJSON :=
  bytes_injective.comp eventText_injective

/-! ## Texts are one line each, and whole objects -/

section Members

variable {P : Text → Prop} (hquoted : ∀ s, P (quoted s))

include hquoted

/-- What strings have, all fields of a reference have. -/
lemma forall_refMembers (r : ResourceRef) : ∀ m ∈ refMembers r, P m.2 := by
  intro m hm
  rw [refMembers] at hm
  split_ifs at hm <;> simp only [List.cons_append, List.nil_append, List.mem_cons,
    List.not_mem_nil, or_false] at hm
  · rcases hm with rfl | rfl | rfl <;> exact hquoted _
  · rcases hm with rfl | rfl | rfl | rfl <;> exact hquoted _

/-- What strings, the reference and numbers have, all fields of an event have. -/
lemma forall_eventMembers (ev : InventoryEvent) (href : P (refText ev.ref))
    (hnumber : ∀ n, P (number n)) : ∀ m ∈ eventMembers ev, P m.2 := by
  intro m hm
  rw [eventMembers] at hm
  split_ifs at hm <;> simp only [List.cons_append, List.nil_append, List.mem_cons,
    List.not_mem_nil, or_false] at hm
  · rcases hm with rfl | rfl
    · exact href
    · exact hnumber _
  · rcases hm with rfl | rfl | rfl
    · exact href
    · exact byteText_eq_quoted ev.objectJSON ▸ hquoted _
    · exact hnumber _

end Members

/-- The text of an event has no control characters. -/
lemma printable_eventText (ev : InventoryEvent) : Printable (eventText ev) := by
  have href : Printable (refText ev.ref) :=
    printable_object (printable_quoted _) (forall_refMembers printable_quoted ev.ref)
  exact printable_object (printable_quoted _)
    (forall_eventMembers printable_quoted ev href printable_number)

/-- **The bytes of an event are one whole JSON object.** -/
theorem whole_eventJSON (ev : InventoryEvent) : Whole (eventJSON ev) := by
  have href : Lexes (refText ev.ref) :=
    lexes_object (lexes_quoted _) (forall_refMembers lexes_quoted ev.ref)
  refine ⟨run_object (lexes_quoted _) (forall_eventMembers lexes_quoted ev href lexes_number), ?_⟩
  -- the text begins with the key of the operation
  have hkey : quoted "op" = ['"', 'o', 'p', '"'] := by decide
  obtain ⟨rest, hrest⟩ : ∃ rest, eventJSON ev = 123 :: 34 :: 111 :: rest := by
    rw [eventJSON, eventText, bytes_object, member, hkey, List.append_assoc, List.cons_append,
      List.cons_append, bytes_cons_of_ascii (by decide), bytes_cons_of_ascii (by decide)]
    exact ⟨_, rfl⟩
  exact ⟨111, rest, hrest, by decide, by decide, by decide⟩

end K8sAgent
