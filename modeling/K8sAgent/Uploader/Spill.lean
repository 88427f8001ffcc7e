import Mathlib.Data.Countable.Basic
import Mathlib.Logic.Equiv.List
import K8sAgent.Lib.LineScanner
import K8sAgent.Protocol.Types

set_option relaxedAutoImplicit false
set_option autoImplicit false

/-!
# The spill file

`spillLocked` and `replaySpillLocked` of `internal/uploader/uploader.go`: events that do not fit
into the buffer are appended to a file, one JSON text a line, and read back when the buffer has
drained. File operations succeed; a file that does not exist is empty.

## Main definitions

* `K8sAgent.EventCodec` — `json.Marshal` and `json.Unmarshal` on events, with what the file format
  needs of them.
* `K8sAgent.EventCodec.file` — the file that holds the given events.
* `K8sAgent.EventCodec.replayed` — the events read back from a file.

## Main results

* `K8sAgent.EventCodec.replayed_file` — events whose lines fit are read back in order.
-/

namespace K8sAgent

open Encoding LineScanner

/-- The size of the buffer the spill file is read through. -/
def maxSpillLineSize : ℕ := 10 * 2 ^ 20

/-- The JSON text of an event and its decoding. The text is not empty, holds no line feed and does
not end in a carriage return, and decodes to the event. -/
structure EventCodec where
  /-- The text of an event. -/
  encode : InventoryEvent → Bytes
  /-- The event of a text. -/
  decode : Bytes → Option InventoryEvent
  /-- The text decodes to the event. -/
  decode_encode : ∀ ev, decode (encode ev) = some ev
  /-- The text is not empty. -/
  encode_ne_nil : ∀ ev, encode ev ≠ []
  /-- The text is one line. -/
  lineFeed_not_mem : ∀ ev, lineFeed ∉ encode ev
  /-- The text does not end in a carriage return. -/
  getLast?_encode : ∀ ev, (encode ev).getLast? ≠ some carriageReturn

namespace EventCodec

/-- The line of an event. -/
def line (c : EventCodec) (ev : InventoryEvent) : Bytes := c.encode ev ++ [lineFeed]

/-- The file after the events have been appended to it one after another. -/
def file (c : EventCodec) (evs : List InventoryEvent) : Bytes := (evs.map c.line).flatten

/-- The events read back: empty lines and lines that do not decode are skipped. -/
def replayed (c : EventCodec) (file : Bytes) : List InventoryEvent :=
  (scan maxSpillLineSize file).filterMap fun line => if line = [] then none else c.decode line

/-- The line of the event fits into the buffer. -/
def Fits (c : EventCodec) (ev : InventoryEvent) : Prop := (c.encode ev).length < maxSpillLineSize

instance (c : EventCodec) (ev : InventoryEvent) : Decidable (c.Fits ev) :=
  inferInstanceAs (Decidable (_ < _))

variable {c : EventCodec} {evs : List InventoryEvent}

lemma file_append (ev : InventoryEvent) : c.file (evs ++ [ev]) = c.file evs ++ c.line ev := by
  simp [file]

/-- The file is empty exactly when it holds no event. -/
lemma file_eq_nil_iff : c.file evs = [] ↔ evs = [] := by
  cases evs with
  | nil => simp [file]
  | cons ev evs => simp [file, line]

/-- **Events whose lines fit are read back in order.** -/
theorem replayed_file (hfits : ∀ ev ∈ evs, c.Fits ev) : c.replayed (c.file evs) = evs := by
  have hlines : c.file evs = ((evs.map c.encode).map (· ++ [lineFeed])).flatten := by
    rw [List.map_map]
    rfl
  rw [replayed, hlines, scan_flatten]
  · rw [List.map_map, List.filterMap_map]
    have hdecode : ∀ ev, ((fun line => if line = [] then none else c.decode line) ∘
        dropCR ∘ c.encode) ev = some ev := by
      intro ev
      simp [dropCR, c.getLast?_encode, c.encode_ne_nil, c.decode_encode]
    rw [funext hdecode, List.filterMap_some]
  · intro l hl
    obtain ⟨ev, hev, rfl⟩ := List.mem_map.mp hl
    exact ⟨c.lineFeed_not_mem ev, hfits ev hev⟩

/-! ## A codec with known texts -/

/-- The fields of an event. -/
def fields (ev : InventoryEvent) : List (List Char) × Bytes × ℤ :=
  ([ev.op.toList, ev.ref.group.toList, ev.ref.version.toList, ev.ref.resource.toList,
    ev.ref.namespace_.toList, ev.ref.name.toList], ev.objectJSON, ev.timestamp)

lemma fields_injective : Function.Injective fields := by
  rintro ⟨op, ⟨g, v, r, ns, n⟩, obj, ts⟩ ⟨op', ⟨g', v', r', ns', n'⟩, obj', ts'⟩ h
  simp only [fields, Prod.mk.injEq, List.cons.injEq, String.toList_inj] at h
  simp_all

/-- There are as many numbers as events: some function from events to numbers is injective. -/
lemma exists_code : ∃ code : InventoryEvent → ℕ, Function.Injective code := by
  have hchar : Countable Char := Function.Injective.countable fun c d h => Char.toNat_inj.mp h
  have hbyte : Countable UInt8 := Function.Injective.countable fun a b h => UInt8.toNat_inj.mp h
  have := fields_injective.countable
  exact Countable.exists_injective_nat _

/-- The text of an event the table does not list: its number in unary. -/
noncomputable def unaryText (ev : InventoryEvent) : Bytes :=
  List.replicate (exists_code.choose ev + 1) 120

lemma unaryText_injective : Function.Injective unaryText := by
  intro ev ev' h
  have hlen := congrArg List.length h
  simp only [unaryText, List.length_replicate] at hlen
  exact exists_code.choose_spec (by omega)

/-- A table of events with their texts can be extended to all events: texts begin with an opening
brace, are lines, and belong to one event each. -/
structure Table where
  /-- The entries. -/
  entries : List (InventoryEvent × Bytes)
  /-- A text belongs to one event. -/
  inj : ∀ p ∈ entries, ∀ q ∈ entries, p.2 = q.2 → p.1 = q.1
  /-- Texts begin with an opening brace. -/
  head : ∀ p ∈ entries, p.2.head? = some 123
  /-- Texts are lines. -/
  lines : ∀ p ∈ entries, lineFeed ∉ p.2 ∧ p.2.getLast? ≠ some carriageReturn

/-- The text of an event: the one in the table, or else its number. -/
noncomputable def Table.text (t : Table) (ev : InventoryEvent) : Bytes :=
  (t.entries.lookup ev).getD (unaryText ev)

/-- The event of a text. -/
noncomputable def Table.event (t : Table) (b : Bytes) : Option InventoryEvent :=
  match t.entries.find? (·.2 == b) with
  | some p => some p.1
  | none => Function.partialInv unaryText b

lemma Table.text_cases (t : Table) (ev : InventoryEvent) :
    (ev, t.text ev) ∈ t.entries ∨ t.text ev = unaryText ev := by
  unfold text
  cases h : t.entries.lookup ev with
  | none => exact .inr rfl
  | some b =>
    obtain ⟨l₁, l₂, hl, -⟩ := List.lookup_eq_some_iff.mp h
    exact .inl (by simp [hl])

/-- A number in unary is not a text of the table. -/
lemma Table.unaryText_not_mem (t : Table) {p : InventoryEvent × Bytes} (hp : p ∈ t.entries)
    (ev : InventoryEvent) : p.2 ≠ unaryText ev := by
  intro h
  have hhead := t.head p hp
  rw [h, unaryText, List.replicate_succ, List.head?_cons] at hhead
  exact absurd hhead (by decide)

lemma Table.event_text (t : Table) (ev : InventoryEvent) : t.event (t.text ev) = some ev := by
  unfold event
  rcases t.text_cases ev with hmem | hunary
  · split
    next p hp =>
      obtain ⟨hp₁, hp₂⟩ := List.find?_eq_some_iff_append.mp hp
      rw [t.inj p (List.mem_of_find?_eq_some hp) _ hmem (by simpa using hp₁)]
    next hnone =>
      have := List.find?_eq_none.mp hnone _ hmem
      simp at this
  · split
    next p hp =>
      have hp₁ : p.2 = t.text ev := by simpa using List.find?_some hp
      rw [hunary] at hp₁
      exact absurd hp₁ (t.unaryText_not_mem (List.mem_of_find?_eq_some hp) ev)
    next => rw [hunary, Function.partialInv_left unaryText_injective]

/-- A codec that knows the table. -/
noncomputable def ofTable (t : Table) : EventCodec where
  encode := t.text
  decode := t.event
  decode_encode := t.event_text
  encode_ne_nil ev := by
    rcases t.text_cases ev with hmem | hunary
    · intro hnil
      have hhead := t.head _ hmem
      rw [hnil] at hhead
      cases hhead
    · rw [hunary]
      simp [unaryText]
  lineFeed_not_mem ev := by
    rcases t.text_cases ev with hmem | hunary
    · exact (t.lines _ hmem).1
    · rw [hunary]
      simp [unaryText, lineFeed]
  getLast?_encode ev := by
    rcases t.text_cases ev with hmem | hunary
    · exact (t.lines _ hmem).2
    · rw [hunary]
      simp [unaryText, carriageReturn, List.getLast?_replicate]

end EventCodec

end K8sAgent
