import Mathlib.Data.PFun
import K8sAgent.Protocol.Wire
import K8sAgent.Uploader.Run

set_option relaxedAutoImplicit false
set_option autoImplicit false

/-!
# Spilling with failing writes

`spillLocked` of `internal/uploader/uploader.go` appends the line of an event to the spill file; a
write that fails, or that the death of the process cuts off, leaves a beginning of the line there,
and the next write goes on right after it. `replaySpillLocked` reads the file line by line, passes
over lines that do not decode, stops at a line that fills its buffer, and removes the file as soon
as one event has been read. What a failed write leaves therefore takes the event written after it
along.

## Main definitions

* `K8sAgent.SpillWrite`, `K8sAgent.EventCodec.spillLocked`, `spillAll` — writes that may fall short,
  and the file they leave.
* `K8sAgent.EventCodec.Rigid` — joined beginnings of texts decode only if they are one whole text.
* `K8sAgent.jsonCodec` — the codec of the JSON texts.
* `K8sAgent.EventCodec.Readable` — a write whose event is read back.
* `K8sAgent.Contained` — every completely written event is in the buffer or still in the file.

## Main results

* `K8sAgent.rigid_jsonCodec` — JSON texts are rigid.
* `K8sAgent.EventCodec.Readable.fits_of_mem` — no write after a line that is too long is readable.
* `K8sAgent.EventCodec.mem_replayed_iff` — the events read back are those of the readable writes.
* `K8sAgent.contained_iff` — when the failures of some writes are contained.
* `K8sAgent.torn_write_loses_next` — an event written completely is lost by the failure of the write
  before it.
-/

namespace K8sAgent

open Encoding LineScanner JsonText

/-- A write to the spill file, and how many bytes of the line reached the file. -/
structure SpillWrite where
  /-- The event. -/
  ev : InventoryEvent
  /-- The bytes written, at most. -/
  written : ℕ

namespace EventCodec

/-! ## The file -/

/-- `spillLocked`: the line of the event, or a beginning of it, is appended to the file. -/
def spillLocked (c : EventCodec) (file : Bytes) (w : SpillWrite) : Bytes :=
  file ++ (c.line w.ev).take w.written

/-- The file after some writes. -/
def spillAll (c : EventCodec) (ws : List SpillWrite) : Bytes := ws.foldl c.spillLocked []

/-- The whole line was written. -/
def Complete (c : EventCodec) (w : SpillWrite) : Prop := (c.line w.ev).length ≤ w.written

/-- What the texts of JSON objects have: they hold no carriage return, no text begins another one,
and bytes put together from beginnings of texts, none of them empty, decode to an event only if they
are its text, whole. -/
structure Rigid (c : EventCodec) : Prop where
  /-- No carriage return. -/
  carriageReturn_not_mem : ∀ ev, carriageReturn ∉ c.encode ev
  /-- No text begins another one. -/
  eq_of_begins : ∀ {ev ev'}, c.encode ev <+: c.encode ev' → ev' = ev
  /-- Joined beginnings are one whole text, or do not decode. -/
  whole : ∀ parts : List Bytes, (∀ p ∈ parts, p ≠ [] ∧ ∃ ev, p <+: c.encode ev) →
    ∀ ev, c.decode parts.flatten = some ev → parts = [c.encode ev]

/-- A write is readable when what was written before it are whole lines that fit, the event fits and
was written whole, and so was the line feed, or nothing was written after it. -/
structure Readable (c : EventCodec) (before : List SpillWrite) (w : SpillWrite)
    (after : List SpillWrite) : Prop where
  /-- The file before the write is made of whole lines that fit. -/
  wholeLines : WholeLines maxSpillLineSize (c.spillAll before)
  /-- The event fits. -/
  fits : c.Fits w.ev
  /-- The text of the event was written whole, and its line ends. -/
  ends : c.Complete w ∨ (c.encode w.ev).length ≤ w.written ∧ c.spillAll after = []

section File

variable {c : EventCodec}

/-- The file after the writes `ws` holds of each line the bytes that were written. -/
lemma spillAll_eq (ws : List SpillWrite) :
    c.spillAll ws = (ws.map fun w => (c.line w.ev).take w.written).flatten := by
  have hfold : ∀ file : Bytes, ws.foldl c.spillLocked file =
      file ++ (ws.map fun w => (c.line w.ev).take w.written).flatten := by
    induction ws with
    | nil => exact fun file => (List.append_nil file).symm
    | cons w ws ih =>
      intro file
      rw [List.foldl_cons, ih, spillLocked, List.append_assoc, List.map_cons, List.flatten_cons]
  exact hfold []

@[simp] lemma spillAll_nil : c.spillAll [] = [] := rfl

lemma spillAll_cons (w : SpillWrite) (ws : List SpillWrite) :
    c.spillAll (w :: ws) = (c.line w.ev).take w.written ++ c.spillAll ws := by
  rw [spillAll_eq, spillAll_eq, List.map_cons, List.flatten_cons]

lemma spillAll_append (ws ws' : List SpillWrite) :
    c.spillAll (ws ++ ws') = c.spillAll ws ++ c.spillAll ws' := by
  rw [spillAll_eq, spillAll_eq, spillAll_eq, List.map_append, List.flatten_append]

/-- A complete write leaves the text of the event and a line feed. -/
lemma take_of_complete {w : SpillWrite} (hw : c.Complete w) :
    (c.line w.ev).take w.written = c.encode w.ev ++ [lineFeed] := List.take_of_length_le hw

/-- A write that is not complete leaves a beginning of the text. -/
lemma take_of_not_complete {w : SpillWrite} (hw : ¬c.Complete w) :
    (c.line w.ev).take w.written = (c.encode w.ev).take w.written := by
  rw [Complete, line, List.length_append, List.length_singleton] at hw
  rw [line, List.take_append_of_le_length (by omega)]

/-- The line of a completely written event is in the file. -/
lemma line_infix_spillAll {ws : List SpillWrite} {w : SpillWrite} (hw : w ∈ ws)
    (hcomplete : c.Complete w) : c.line w.ev <:+: c.spillAll ws := by
  obtain ⟨before, after, rfl⟩ := List.append_of_mem hw
  rw [spillAll_append, spillAll_cons, take_of_complete hcomplete]
  exact ⟨c.spillAll before, c.spillAll after, by rw [List.append_assoc]; rfl⟩

/-- Where something is left of a write that is not complete, the file is not made of whole lines. -/
lemma not_wholeLines_of_not_complete (ws : List SpillWrite) {w : SpillWrite}
    (hw : ¬c.Complete w) (hpos : 0 < w.written) (size : ℕ) :
    ¬WholeLines size (c.spillAll (ws ++ [w])) := by
  intro hlines
  have hne : (c.encode w.ev).take w.written ≠ [] := by
    rw [Ne, List.take_eq_nil_iff, not_or]
    exact ⟨by omega, c.encode_ne_nil w.ev⟩
  have hfile : c.spillAll (ws ++ [w]) = c.spillAll ws ++ (c.encode w.ev).take w.written := by
    rw [spillAll_append, spillAll_cons, take_of_not_complete hw, spillAll_nil, List.append_nil]
  rw [hfile] at hlines
  have hlast := hlines.getLast? (by simp [hne])
  rw [List.getLast?_append_of_ne_nil _ hne] at hlast
  exact c.lineFeed_not_mem w.ev (List.mem_of_mem_take (List.mem_of_getLast? hlast))

end File

/-! ## What is read back -/

section Replayed

variable {c : EventCodec} {ev : InventoryEvent}

/-- The event of a line, if it is read. -/
def eventOf (c : EventCodec) (line : Bytes) : Option InventoryEvent :=
  if line = [] then none else c.decode line

/-- A text that is read as a line gives its event. -/
lemma eventOf_dropCR_encode (ev : InventoryEvent) :
    c.eventOf (dropCR (c.encode ev)) = some ev := by
  rw [dropCR, if_neg (c.getLast?_encode ev), eventOf, if_neg (c.encode_ne_nil ev),
    c.decode_encode]

/-- **The event of a readable write is read back.** -/
theorem Readable.mem_replayed {before after : List SpillWrite} {w : SpillWrite}
    (h : c.Readable before w after) : w.ev ∈ c.replayed (c.spillAll (before ++ w :: after)) := by
  obtain ⟨lines, hlines⟩ := h.wholeLines.scan_append (c.spillAll (w :: after))
  -- the line of the write is the first after the whole lines
  have hfirst : dropCR (c.encode w.ev) ∈ scan maxSpillLineSize (c.spillAll (w :: after)) := by
    have hlen : ([] : Bytes).length + (c.encode w.ev).length < maxSpillLineSize := by
      rw [List.length_nil, Nat.zero_add]
      exact h.fits
    rw [spillAll_cons, scan]
    by_cases hcomplete : c.Complete w
    · rw [take_of_complete hcomplete, List.append_assoc, List.singleton_append,
        scanFrom_line (c.lineFeed_not_mem w.ev) hlen]
      exact List.mem_cons_self
    · obtain ⟨htext, hnil⟩ := h.ends.resolve_left hcomplete
      rw [take_of_not_complete hcomplete, List.take_of_length_le htext, hnil,
        scanFrom_part (c.lineFeed_not_mem w.ev) hlen, List.nil_append, scanFrom,
        if_neg (c.encode_ne_nil w.ev)]
      exact List.mem_singleton_self _
  rw [replayed, spillAll_append, hlines]
  refine List.mem_filterMap.mpr ⟨_, List.mem_append_right lines hfirst, ?_⟩
  exact eventOf_dropCR_encode w.ev

/-- Before a readable write no line is too long: a complete line that does not fit takes along all
that is written after it. -/
theorem Readable.fits_of_mem {before after : List SpillWrite} {w v : SpillWrite}
    (h : c.Readable before w after) (hv : v ∈ before) (hcomplete : c.Complete v) :
    c.Fits v.ev := by
  have htext : c.encode v.ev <:+: c.spillAll before :=
    (List.prefix_append _ _).isInfix.trans (line_infix_spillAll hv hcomplete)
  exact h.wholeLines.length_lt htext (c.encode_ne_nil v.ev) (c.lineFeed_not_mem v.ev)

/-- An event is known from its text. -/
lemma encode_injective (c : EventCodec) : Function.Injective c.encode := by
  intro ev ev' h
  have hdecode := c.decode_encode ev
  rw [h, c.decode_encode] at hdecode
  exact (Option.some.inj hdecode).symm

/-- Beginnings of texts, none of them empty. -/
def Beginnings (c : EventCodec) (parts : List Bytes) : Prop :=
  ∀ p ∈ parts, p ≠ [] ∧ ∃ ev, p <+: c.encode ev

lemma Beginnings.nil : c.Beginnings [] := by
  intro p hp
  cases hp

lemma Beginnings.append {parts : List Bytes} (h : c.Beginnings parts) {p : Bytes} (hne : p ≠ [])
    (hp : p <+: c.encode ev) : c.Beginnings (parts ++ [p]) := by
  intro q hq
  rcases List.mem_append.mp hq with hq | hq
  · exact h q hq
  · exact List.mem_singleton.mp hq ▸ ⟨hne, ev, hp⟩

/-- A byte that no text holds, joined beginnings of texts do not hold. -/
lemma Beginnings.not_mem {parts : List Bytes} (h : c.Beginnings parts) {b : UInt8}
    (hb : ∀ ev, b ∉ c.encode ev) : b ∉ parts.flatten := by
  intro hmem
  obtain ⟨p, hp, hbp⟩ := List.mem_flatten.mp hmem
  obtain ⟨-, ev, hev⟩ := h p hp
  exact hb ev (hev.subset hbp)

/-- Joined beginnings that are read as an event are its text. -/
lemma Rigid.eq_of_eventOf (hc : c.Rigid) {parts : List Bytes} (h : c.Beginnings parts)
    (hev : c.eventOf (dropCR parts.flatten) = some ev) : parts = [c.encode ev] := by
  have hlast : parts.flatten.getLast? ≠ some carriageReturn := fun hcr =>
    h.not_mem hc.carriageReturn_not_mem (List.mem_of_getLast? hcr)
  rw [dropCR, if_neg hlast, eventOf] at hev
  split_ifs at hev
  exact hc.whole parts h ev hev

/-- Where an event comes from that is read back when the beginnings `parts` stand in the file since
the last line feed and the writes `ws` follow. -/
inductive Origin (c : EventCodec) (ev : InventoryEvent) (parts : List Bytes)
    (ws : List SpillWrite) : Prop where
  /-- The text of the event stands there, and nothing follows. -/
  | stands (hparts : parts = [c.encode ev]) (hend : c.spillAll ws = [])
  /-- One of the writes is that of the event, and before it the file is made of whole lines. -/
  | write (before : List SpillWrite) (w : SpillWrite) (after : List SpillWrite)
      (hws : ws = before ++ w :: after) (hev : w.ev = ev)
      (hlines : WholeLines maxSpillLineSize (parts.flatten ++ c.spillAll before))
      (hfits : c.Fits w.ev)
      (hends : c.Complete w ∨ (c.encode w.ev).length ≤ w.written ∧ c.spillAll after = [])

section Origin

variable {parts : List Bytes} {w : SpillWrite} {ws : List SpillWrite}

/-- A complete write ends the line; if the line is an event, nothing else stands in it. -/
lemma Rigid.origin_of_complete (hc : c.Rigid) (hparts : c.Beginnings parts)
    (hcomplete : c.Complete w)
    (hlen : parts.flatten.length + (c.encode w.ev).length < maxSpillLineSize)
    (hev : c.eventOf (dropCR (parts.flatten ++ c.encode w.ev)) = some ev) :
    c.Origin ev parts (w :: ws) := by
  have hjoin : parts.flatten ++ c.encode w.ev = (parts ++ [c.encode w.ev]).flatten := by simp
  rw [hjoin] at hev
  have hone := hc.eq_of_eventOf (hparts.append (c.encode_ne_nil w.ev) List.prefix_rfl) hev
  rcases List.append_eq_singleton_iff.mp hone with ⟨rfl, htext⟩ | ⟨-, hnil⟩
  · have hw : w.ev = ev := c.encode_injective (List.singleton_inj.mp htext)
    refine .write [] w ws rfl hw (WholeLines.nil _) ?_ (.inl hcomplete)
    simpa [Fits] using hlen
  · cases hnil

/-- After a complete write that fits with what stands before it, a new line begins. -/
lemma Origin.after_complete (hparts : c.Beginnings parts) (hcomplete : c.Complete w)
    (hlen : parts.flatten.length + (c.encode w.ev).length < maxSpillLineSize)
    (h : c.Origin ev [] ws) : c.Origin ev parts (w :: ws) := by
  cases h with
  | stands hnil _ => cases hnil
  | write before w' after hws hev hlines hfits hends =>
    refine .write (w :: before) w' after (by rw [hws]; rfl) hev ?_ hfits hends
    rw [spillAll_cons, take_of_complete hcomplete, List.append_assoc, List.singleton_append,
      ← List.append_assoc]
    refine WholeLines.cons ?_ (by rwa [List.length_append]) hlines
    rw [List.mem_append, not_or]
    exact ⟨hparts.not_mem c.lineFeed_not_mem, c.lineFeed_not_mem w.ev⟩

/-- After a write of which nothing is left. -/
lemma Origin.after_nothing (hnothing : (c.line w.ev).take w.written = [])
    (h : c.Origin ev parts ws) : c.Origin ev parts (w :: ws) := by
  have hfile : ∀ ws', c.spillAll (w :: ws') = c.spillAll ws' := by
    intro ws'
    rw [spillAll_cons, hnothing, List.nil_append]
  cases h with
  | stands hparts hend => exact .stands hparts (by rwa [hfile])
  | write before w' after hws hev hlines hfits hends =>
    exact .write (w :: before) w' after (by rw [hws]; rfl) hev (by rwa [hfile]) hfits hends

/-- After a write of which a beginning of the text is left. -/
lemma Rigid.origin_after_beginning (hc : c.Rigid) (hcomplete : ¬c.Complete w)
    (hlen : parts.flatten.length + ((c.encode w.ev).take w.written).length < maxSpillLineSize)
    (h : c.Origin ev (parts ++ [(c.encode w.ev).take w.written]) ws) :
    c.Origin ev parts (w :: ws) := by
  cases h with
  | stands hone hend =>
    rcases List.append_eq_singleton_iff.mp hone with ⟨rfl, htext⟩ | ⟨-, hnil⟩
    · have htake := List.singleton_inj.mp htext
      have hw : w.ev = ev := hc.eq_of_begins (htake ▸ List.take_prefix _ _)
      have hwhole : (c.encode w.ev).length ≤ w.written := by
        have := congrArg List.length htake
        rw [List.length_take, ← hw] at this
        omega
      refine .write [] w ws rfl hw (WholeLines.nil _) ?_ (.inr ⟨hwhole, hend⟩)
      rw [List.take_of_length_le hwhole] at hlen
      simpa [Fits] using hlen
    · cases hnil
  | write before w' after hws hev hlines hfits hends =>
    refine .write (w :: before) w' after (by rw [hws]; rfl) hev ?_ hfits hends
    rw [spillAll_cons, take_of_not_complete hcomplete, ← List.append_assoc]
    simpa using hlines

end Origin

/-- **Where the events read back come from.**

**Proof sketch.** Induction on the writes. A write that is not complete adds a beginning to what
stands in the file, or nothing; one that is complete ends the line. What does not fit ends the
scan. -/
theorem Rigid.origin_of_mem_scanFrom (hc : c.Rigid) {ws : List SpillWrite} :
    ∀ {parts : List Bytes}, c.Beginnings parts →
      ev ∈ (scanFrom maxSpillLineSize parts.flatten (c.spillAll ws)).filterMap c.eventOf →
      c.Origin ev parts ws := by
  induction ws with
  | nil =>
    intro parts hparts hmem
    rw [spillAll_nil, scanFrom] at hmem
    split_ifs at hmem
    · cases hmem
    · obtain ⟨line, hline, hev⟩ := List.mem_filterMap.mp hmem
      obtain rfl := List.mem_singleton.mp hline
      exact .stands (hc.eq_of_eventOf hparts hev) rfl
  | cons w ws ih =>
    intro parts hparts hmem
    rw [spillAll_cons] at hmem
    by_cases hcomplete : c.Complete w
    · have hfeed := c.lineFeed_not_mem w.ev
      rw [take_of_complete hcomplete, List.append_assoc, List.singleton_append] at hmem
      rcases Nat.lt_or_ge (parts.flatten.length + (c.encode w.ev).length) maxSpillLineSize with
        hlen | hlen
      · rw [scanFrom_line hfeed hlen] at hmem
        obtain ⟨line, hline, hev⟩ := List.mem_filterMap.mp hmem
        rcases List.mem_cons.mp hline with rfl | hline
        · exact hc.origin_of_complete hparts hcomplete hlen hev
        · have hrest : c.Origin ev [] ws :=
            ih Beginnings.nil (List.mem_filterMap.mpr ⟨line, hline, hev⟩)
          exact hrest.after_complete hparts hcomplete hlen
      · rw [scanFrom_long hfeed (c.encode_ne_nil w.ev) hlen] at hmem
        cases hmem
    · have hpre : (c.encode w.ev).take w.written <+: c.encode w.ev := List.take_prefix _ _
      have hfeed : lineFeed ∉ (c.encode w.ev).take w.written := fun h =>
        c.lineFeed_not_mem w.ev (hpre.subset h)
      have htake := take_of_not_complete hcomplete
      rw [htake] at hmem
      by_cases hnil : (c.encode w.ev).take w.written = []
      · rw [hnil, List.nil_append] at hmem
        exact (ih hparts hmem).after_nothing (htake.trans hnil)
      · rcases Nat.lt_or_ge (parts.flatten.length + ((c.encode w.ev).take w.written).length)
          maxSpillLineSize with hlen | hlen
        · have hjoin : parts.flatten ++ (c.encode w.ev).take w.written =
              (parts ++ [(c.encode w.ev).take w.written]).flatten := by simp
          rw [scanFrom_part hfeed hlen, hjoin] at hmem
          exact hc.origin_after_beginning hcomplete hlen (ih (hparts.append hnil hpre) hmem)
        · rw [scanFrom_long hfeed hnil hlen] at hmem
          cases hmem

/-- **The events read back are those of the readable writes.** -/
theorem mem_replayed_iff (hc : c.Rigid) (ws : List SpillWrite) :
    ev ∈ c.replayed (c.spillAll ws) ↔ ∃ before w after, ws = before ++ w :: after ∧ w.ev = ev ∧
      c.Readable before w after := by
  constructor
  · intro hmem
    have horigin : c.Origin ev [] ws := hc.origin_of_mem_scanFrom Beginnings.nil hmem
    cases horigin with
    | stands hnil _ => cases hnil
    | write before w after hws hev hlines hfits hends =>
      exact ⟨before, w, after, hws, hev, hlines, hfits, hends⟩
  · rintro ⟨before, w, after, rfl, rfl, hread⟩
    exact hread.mem_replayed

end Replayed

end EventCodec

/-! ## JSON -/

/-- The JSON texts of events, with a decoder that reads these texts and no others. -/
noncomputable def jsonCodec : EventCodec where
  encode := eventJSON
  decode := Function.partialInv eventJSON
  decode_encode := Function.partialInv_left eventJSON_injective
  encode_ne_nil ev := by
    obtain ⟨b, rest, h, -⟩ := (whole_eventJSON ev).begins
    rw [h]
    exact List.cons_ne_nil _ _
  lineFeed_not_mem ev h := absurd (le_of_mem_bytes (printable_eventText ev) h) (by decide)
  getLast?_encode ev h :=
    absurd (le_of_mem_bytes (printable_eventText ev) (List.mem_of_getLast? h)) (by decide)

/-- **JSON texts are rigid**: they can be told from texts joined of beginnings of others. -/
theorem rigid_jsonCodec : jsonCodec.Rigid where
  carriageReturn_not_mem ev h :=
    absurd (le_of_mem_bytes (printable_eventText ev) h) (by decide)
  eq_of_begins := by
    rintro ev ev' ⟨more, hmore⟩
    have hdone := (whole_eventJSON ev').done
    rw [show eventJSON ev' = eventJSON ev ++ more from hmore.symm, run_append,
      (whole_eventJSON ev).done] at hdone
    cases more with
    | nil =>
      rw [List.append_nil] at hmore
      exact (eventJSON_injective hmore).symm
    | cons b more => exact absurd ((run_bad more).symm.trans hdone) State.noConfusion
  whole parts hparts ev hdecode := by
    have htext : eventJSON ev = parts.flatten :=
      (eventJSON_injective.isPartialInv _ _).mp hdecode
    have hbeginnings : ∀ p ∈ parts, p ≠ [] ∧ ∃ t, Whole t ∧ p <+: t := by
      intro p hp
      obtain ⟨hne, ev', hev'⟩ := hparts p hp
      exact ⟨hne, eventJSON ev', whole_eventJSON ev', hev'⟩
    obtain ⟨p, rfl, -⟩ := eq_singleton_of_run_flatten hbeginnings
      (htext ▸ (whole_eventJSON ev).done)
    rw [List.flatten_singleton] at htext
    rw [← htext]
    rfl

/-! ## Events of pods -/

/-- An update of a pod. -/
def updatedPod (name : String) : InventoryEvent := sampleUpdate "pods" name []

/-- The agent with JSON texts. -/
noncomputable def jsonUploader : Uploader where
  codec := jsonCodec

/-- The update of a pod with a name of one letter has a line of 124 bytes, which fits. -/
lemma line_updatedPod {name : String} (hname : quotedSize name = 3) :
    (jsonCodec.line (updatedPod name)).length = 124 ∧ jsonCodec.Fits (updatedPod name) := by
  have hresource : quotedSize "pods" = 6 := by decide
  have hlen : (jsonCodec.encode (updatedPod name)).length = 123 := by
    rw [show jsonCodec.encode = eventJSON from rfl, length_eventJSON, updatedPod,
      wireSize_sampleUpdate, hresource, hname, if_pos rfl]
  refine ⟨?_, ?_⟩
  · rw [EventCodec.line, List.length_append, hlen, List.length_singleton]
  · rw [EventCodec.Fits, hlen, maxSpillLineSize]
    omega

/-! ## Containment -/

/-- Every event that fits and was written completely is in the buffer after the replay, or its line
is still in the file. -/
def Contained (u : Uploader) (ws : List SpillWrite) (s : Uploader.State) : Prop :=
  ∀ w ∈ ws, u.codec.Complete w → u.codec.Fits w.ev →
    w.ev ∈ (u.replaySpill s).buf ∨ u.codec.line w.ev <:+: (u.replaySpill s).spill

/-- A replay of a spill file without readable events changes nothing. -/
lemma replaySpill_of_eq_nil {u : Uploader} {s : Uploader.State}
    (h : u.codec.replayed s.spill = []) : u.replaySpill s = s := by
  rw [Uploader.replaySpill, h]

/-- A replay that reads events puts them into the buffer and removes the file. -/
lemma replaySpill_of_ne_nil {u : Uploader} {s : Uploader.State}
    (h : u.codec.replayed s.spill ≠ []) :
    (u.replaySpill s).buf = s.buf ++ u.codec.replayed s.spill ∧ (u.replaySpill s).spill = [] := by
  unfold Uploader.replaySpill
  split
  next hnil => exact absurd hnil h
  next => exact ⟨rfl, rfl⟩

/-- **When the failures of writes are contained.** Either no write is readable, and the file is
kept; or every event that fits and was written completely has a readable write, or was in the buffer
before.

**Proof sketch.** By `mem_replayed_iff` the replay reads the events of the readable writes. If there
are none, the file stays as it is. If there is one, the file is removed, and the buffer holds what
it held and the events read. -/
theorem contained_iff (u : Uploader) (hc : u.codec.Rigid) (ws : List SpillWrite)
    (s : Uploader.State) (hs : s.spill = u.codec.spillAll ws) :
    Contained u ws s ↔
      (∀ before w after, ws = before ++ w :: after → ¬u.codec.Readable before w after) ∨
      ∀ w ∈ ws, u.codec.Complete w → u.codec.Fits w.ev →
        w.ev ∈ s.buf ∨ ∃ before w' after, ws = before ++ w' :: after ∧ w'.ev = w.ev ∧
          u.codec.Readable before w' after := by
  by_cases hnone : u.codec.replayed s.spill = []
  · -- nothing is read: both sides hold
    refine iff_of_true (fun w hw hcomplete _ => .inr ?_) (.inl fun before w after hws hread => ?_)
    · rw [replaySpill_of_eq_nil hnone, hs]
      exact EventCodec.line_infix_spillAll hw hcomplete
    · have hmem := (EventCodec.mem_replayed_iff hc ws).mpr ⟨before, w, after, hws, rfl, hread⟩
      rw [← hs, hnone] at hmem
      cases hmem
  · obtain ⟨hbuf, hspill⟩ := replaySpill_of_ne_nil hnone
    have hgone : ∀ ev, ¬u.codec.line ev <:+: (u.replaySpill s).spill := by
      intro ev hinfix
      rw [hspill, List.infix_nil] at hinfix
      simp [EventCodec.line] at hinfix
    have hread : ∀ ev, ev ∈ (u.replaySpill s).buf ↔ ev ∈ s.buf ∨
        ∃ before w after, ws = before ++ w :: after ∧ w.ev = ev ∧
          u.codec.Readable before w after := by
      intro ev
      rw [hbuf, List.mem_append, hs, EventCodec.mem_replayed_iff hc]
    constructor
    · intro hcontained
      refine .inr fun w hw hcomplete hfits => ?_
      exact (hread w.ev).mp ((hcontained w hw hcomplete hfits).resolve_right (hgone w.ev))
    · rintro (hno | hall) w hw hcomplete hfits
      · obtain ⟨ev, hev⟩ := List.exists_mem_of_ne_nil _ hnone
        rw [hs, EventCodec.mem_replayed_iff hc] at hev
        obtain ⟨before, w', after, hws, -, hreadable⟩ := hev
        exact absurd hreadable (hno before w' after hws)
      · exact .inl ((hread w.ev).mpr (hall w hw hcomplete hfits))

/-- A torn write at the end of the file is contained. -/
theorem contained_torn_last :
    Contained jsonUploader [⟨updatedPod "a", 124⟩, ⟨updatedPod "b", 40⟩]
      { seq := 0, spill := jsonCodec.spillAll [⟨updatedPod "a", 124⟩, ⟨updatedPod "b", 40⟩] } := by
  obtain ⟨hlineA, hfitsA⟩ := line_updatedPod (show quotedSize "a" = 3 by decide)
  obtain ⟨hlineB, -⟩ := line_updatedPod (show quotedSize "b" = 3 by decide)
  refine (contained_iff jsonUploader rigid_jsonCodec _ _ rfl).mpr (.inr fun w hw hcomplete _ => ?_)
  simp only [List.mem_cons, List.not_mem_nil, or_false] at hw
  rcases hw with rfl | rfl
  · exact .inr ⟨[], _, _, rfl, rfl, WholeLines.nil _, hfitsA, .inl hlineA.le⟩
  · exact absurd (hlineB.ge.trans hcomplete) (by decide)

/-- Three writes, of which the second leaves forty bytes of its line. -/
def tornSecond : List SpillWrite :=
  [⟨updatedPod "a", 124⟩, ⟨updatedPod "b", 40⟩, ⟨updatedPod "c", 124⟩]

/-- **An event written completely is lost by the failure of the write before it.** The first event
is read back, so the file is removed; the third is one line with what is left of the second. -/
theorem torn_write_loses_next :
    ¬Contained jsonUploader tornSecond { seq := 0, spill := jsonCodec.spillAll tornSecond } := by
  obtain ⟨hlineA, hfitsA⟩ := line_updatedPod (show quotedSize "a" = 3 by decide)
  obtain ⟨hlineB, -⟩ := line_updatedPod (show quotedSize "b" = 3 by decide)
  obtain ⟨hlineC, hfitsC⟩ := line_updatedPod (show quotedSize "c" = 3 by decide)
  have hfirst : updatedPod "a" ∈ jsonCodec.replayed (jsonCodec.spillAll tornSecond) :=
    (EventCodec.mem_replayed_iff rigid_jsonCodec tornSecond).mpr
      ⟨[], _, _, rfl, rfl, WholeLines.nil _, hfitsA, .inl hlineA.le⟩
  have hthird : updatedPod "c" ∉ jsonCodec.replayed (jsonCodec.spillAll tornSecond) := by
    intro hmem
    obtain ⟨before, w, after, hws, hev, hread⟩ :=
      (EventCodec.mem_replayed_iff rigid_jsonCodec tornSecond).mp hmem
    rcases before with _ | ⟨x, _ | ⟨y, _ | ⟨z, before⟩⟩⟩
    · obtain ⟨rfl, -⟩ := List.cons.inj hws
      exact absurd hev (by decide)
    · obtain ⟨rfl, -⟩ := List.cons.inj (List.cons.inj hws).2
      exact absurd hev (by decide)
    · -- before the third write the file ends in the torn line
      obtain ⟨rfl, hws'⟩ := List.cons.inj hws
      obtain ⟨rfl, -⟩ := List.cons.inj hws'
      refine EventCodec.not_wholeLines_of_not_complete [⟨updatedPod "a", 124⟩]
        (fun hcomplete => ?_) (by decide) _ hread.wholeLines
      rw [EventCodec.Complete, hlineB] at hcomplete
      exact absurd hcomplete (by decide)
    · have hlen := congrArg List.length hws
      simp [tornSecond] at hlen
  intro hcontained
  obtain ⟨hbuf, hspill⟩ := replaySpill_of_ne_nil (u := jsonUploader)
    (s := { seq := 0, spill := jsonCodec.spillAll tornSecond }) (List.ne_nil_of_mem hfirst)
  have hkept := hcontained ⟨updatedPod "c", 124⟩ (by simp [tornSecond]) hlineC.le hfitsC
  rw [hbuf, hspill, List.nil_append, List.infix_nil] at hkept
  rcases hkept with h | h
  · exact hthird h
  · simp [EventCodec.line] at h

end K8sAgent
