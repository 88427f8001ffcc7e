import K8sAgent.Protocol.Wire
import K8sAgent.Uploader.Batching

set_option relaxedAutoImplicit false
set_option autoImplicit false

/-!
# The byte budget and the size of a request

`batchLen` of `internal/uploader/uploader.go` closes a batch by an estimate of its size: the object
of an event counts with its raw length and everything else with a fixed overhead. On the wire the
object is in base64, a third longer, and the other fields are as long as they are. A batch of
several events can therefore be larger than the budget it was cut by, and the default budget was
chosen for the limit an ingress puts on the body of a request.

## Main definitions

* `K8sAgent.Budget.besides` — the size of an event on the wire besides the raw length of its object.
* `K8sAgent.Budget.Compact` — the fixed overhead covers it, and two bytes for punctuation.

## Main results

* `K8sAgent.Budget.within_budget_iff` — batches of several events of a class are within every budget
  exactly when all events of the class are compact.
* `K8sAgent.Budget.two_halves_exceed` — two events whose estimates fill the default budget take a
  third more on the wire.
-/

namespace K8sAgent

namespace Budget

open Greedy JsonText

/-! ## The sizes that the estimate leaves out -/

/-- What base64 adds to the length of an object. -/
def base64Growth (object : Encoding.Bytes) : ℕ := 4 * ((object.length + 2) / 3) - object.length

/-- The size of an event on the wire besides the raw length of its object: the other fields, the
names of the fields, and what base64 adds. -/
def besides (ev : InventoryEvent) : ℕ :=
  68 + quotedSize ev.op + quotedSize ev.ref.group + quotedSize ev.ref.version +
    quotedSize ev.ref.resource + quotedSize ev.ref.name + numberSize ev.timestamp +
    (if ev.ref.namespace_ = "" then 0 else 13 + quotedSize ev.ref.namespace_) +
    (if ev.objectJSON = [] then 0 else 16 + base64Growth ev.objectJSON)

/-- The overhead that the estimate adds to every object covers what the event has besides it, and
two bytes for the comma behind the event and the brackets around the list. -/
def Compact (ev : InventoryEvent) : Prop := besides ev + 2 ≤ eventOverhead

instance (ev : InventoryEvent) : Decidable (Compact ev) := inferInstanceAs (Decidable (_ ≤ _))

/-- The size of an event on the wire, by its object. -/
lemma wireSize_eq (ev : InventoryEvent) : wireSize ev = ev.objectJSON.length + besides ev := by
  rw [wireSize, besides]
  by_cases hobject : ev.objectJSON = []
  · rw [if_pos hobject, if_pos hobject, hobject, List.length_nil, Nat.zero_add]
  · rw [if_neg hobject, if_neg hobject, base64Growth]
    omega

/-- An event is compact exactly when its estimate exceeds its size on the wire by two bytes. -/
lemma compact_iff (ev : InventoryEvent) : Compact ev ↔ wireSize ev + 2 ≤ eventSize ev := by
  rw [Compact, wireSize_eq, eventSize]
  omega

/-- The sum of some estimates, as the batches are cut by it. -/
lemma weight_eventSize (evs : List InventoryEvent) :
    weight (eventSize ·) evs = ((evs.map eventSize).sum : ℕ) := by
  induction evs with
  | nil => rfl
  | cons ev evs ih => rw [weight_cons, ih, List.map_cons, List.sum_cons, Nat.cast_add]

/-- The estimates of compact events leave two bytes for each of them. -/
lemma sum_wireSize_le {evs : List InventoryEvent} (hcompact : ∀ ev ∈ evs, Compact ev) :
    (evs.map wireSize).sum + 2 * evs.length ≤ (evs.map eventSize).sum := by
  induction evs with
  | nil => exact Nat.le_refl 0
  | cons ev evs ih =>
    have hev := (compact_iff ev).mp (hcompact ev List.mem_cons_self)
    have hevs := ih fun ev' hev' => hcompact ev' (List.mem_cons_of_mem ev hev')
    rw [List.map_cons, List.map_cons, List.sum_cons, List.sum_cons, List.length_cons]
    omega

/-! ## Batches of several events -/

/-- An event twice is one batch, if the bounds admit it. -/
lemma batchLen_pair {ev : InventoryEvent} {maxEvents maxBytes : ℕ} (hmax : 2 ≤ maxEvents)
    (hfit : eventSize ev + eventSize ev ≤ maxBytes) :
    Batching.batchLen maxEvents maxBytes [ev, ev] = 2 := by
  obtain ⟨n, rfl⟩ := Nat.exists_eq_add_of_le hmax
  have hmany : ((2 + n : ℕ) : ℤ).toNat - 1 = n + 1 := by omega
  rw [Batching.batchLen_eq, batchLen, hmany, Int.toNat_natCast, fitting, if_pos hfit,
    Batching.fitting_nil]

/-- The size of an event twice on the wire. -/
lemma length_eventsJSON_pair (ev : InventoryEvent) :
    (eventsJSON [ev, ev]).length = 2 * wireSize ev + 3 := by
  rw [length_eventsJSON (List.cons_ne_nil _ _), List.map_cons, List.map_cons, List.map_nil,
    List.sum_cons, List.sum_cons, List.sum_nil]
  simp only [List.length_cons, List.length_nil]
  omega

/-- A batch of several compact events is within its budget. -/
lemma within_budget_of_compact {maxEvents maxBytes : ℤ} {evs : List InventoryEvent}
    (hcompact : ∀ ev ∈ evs, Compact ev) (htwo : 2 ≤ Batching.batchLen maxEvents maxBytes evs) :
    ((eventsJSON (evs.take (Batching.batchLen maxEvents maxBytes evs))).length : ℤ) ≤ maxBytes := by
  obtain ⟨hle, hmax⟩ := Batching.batchLen_le maxEvents maxBytes evs
  have hcut := Batching.cut_batchLen (show 1 ≤ maxEvents by omega) maxBytes
    (List.ne_nil_of_length_pos (show 0 < evs.length by omega))
  have hlen : 2 ≤ (evs.take (Batching.batchLen maxEvents maxBytes evs)).length := by
    rw [List.length_take]
    omega
  have hweight := hcut.weight_le.resolve_right (by omega)
  have hbatch : ∀ ev ∈ evs.take (Batching.batchLen maxEvents maxBytes evs), Compact ev :=
    fun ev hev => hcompact ev (List.mem_of_mem_take hev)
  have hsum := sum_wireSize_le hbatch
  rw [weight_eventSize] at hweight
  rw [length_eventsJSON hcut.ne_nil]
  -- a comma or a bracket for each event and one bracket more are at most two bytes for each
  omega

/-- **When batches of several events are within their budgets.** For every class of events: whatever
the bounds and whatever events of the class there are, the budget bounds the JSON of a batch of two
events or more, exactly when all events of the class are compact.

**Proof sketch.** The estimates of compact events leave two bytes for each of them, which pay for
commas and brackets. In the other direction, an event twice makes one batch for the budget that its
two estimates fill, so that its estimate has to cover its size on the wire and half of the three
bytes around the two. -/
theorem within_budget_iff (P : InventoryEvent → Prop) :
    (∀ (maxEvents maxBytes : ℤ) (evs : List InventoryEvent), (∀ ev ∈ evs, P ev) →
      2 ≤ Batching.batchLen maxEvents maxBytes evs →
        ((eventsJSON (evs.take (Batching.batchLen maxEvents maxBytes evs))).length : ℤ) ≤
          maxBytes) ↔
    ∀ ev, P ev → Compact ev := by
  constructor
  · intro hbudget ev hev
    have hpair : Batching.batchLen (2 : ℕ) (eventSize ev + eventSize ev : ℕ) [ev, ev] = 2 :=
      batchLen_pair (Nat.le_refl 2) (Nat.le_refl _)
    have hsize := hbudget (2 : ℕ) (eventSize ev + eventSize ev : ℕ) [ev, ev] (by simpa using hev)
      hpair.ge
    rw [hpair, List.take_of_length_le (Nat.le_refl 2), length_eventsJSON_pair] at hsize
    rw [compact_iff]
    omega
  · exact fun hcompact maxEvents maxBytes evs hevs htwo =>
      within_budget_of_compact (fun ev hev => hcompact ev (hevs ev hev)) htwo

/-- An update of a config map of the given size. -/
def sized (n : ℕ) : InventoryEvent := sampleUpdate "configmaps" "large" (List.replicate n 120)

lemma eventSize_sized (n : ℕ) : eventSize (sized n) = n + 256 := by
  rw [eventSize, sized, sampleUpdate, List.length_replicate]
  rfl

lemma wireSize_sized {n : ℕ} (hn : 0 < n) : wireSize (sized n) = 149 + 4 * ((n + 2) / 3) := by
  have hobject : (List.replicate n 120 : Encoding.Bytes) ≠ [] :=
    List.ne_nil_of_length_pos (by rw [List.length_replicate]; exact hn)
  have hresource : quotedSize "configmaps" = 12 := by decide
  have hname : quotedSize "large" = 7 := by decide
  rw [sized, wireSize_sampleUpdate, hresource, hname, if_neg hobject, List.length_replicate]
  omega

/-- Config maps of 300 bytes are compact, and those of 400 bytes are not. -/
example : Compact (sized 300) ∧ ¬Compact (sized 400) := by
  rw [compact_iff, compact_iff, wireSize_sized (by decide), wireSize_sized (by decide),
    eventSize_sized, eventSize_sized]
  decide

/-- **Two events whose estimates fill the default budget**, of 262144 bytes each, make one batch,
of 698669 bytes of JSON where the budget is 524288. -/
theorem two_halves_exceed :
    ¬(2 ≤ Batching.batchLen batchSize defaultMaxBatchBytes [sized 261888, sized 261888] →
      ((eventsJSON ([sized 261888, sized 261888].take
        (Batching.batchLen batchSize defaultMaxBatchBytes
          [sized 261888, sized 261888]))).length : ℤ) ≤ defaultMaxBatchBytes) := by
  have hpair : Batching.batchLen batchSize defaultMaxBatchBytes [sized 261888, sized 261888] = 2 :=
    batchLen_pair (by decide) (by rw [eventSize_sized]; decide)
  rw [hpair, List.take_of_length_le (Nat.le_refl 2), length_eventsJSON_pair,
    wireSize_sized (by decide)]
  decide

end Budget

end K8sAgent
