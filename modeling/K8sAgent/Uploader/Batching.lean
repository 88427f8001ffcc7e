import K8sAgent.Lib.Greedy
import K8sAgent.Uploader.Run

set_option relaxedAutoImplicit false
set_option autoImplicit false

/-!
# Cutting batches

`batchLen`, the loop of `sendSnapshot` and `take` of `internal/uploader/uploader.go`, with the
integers of the source: both bounds may be any number, also a negative one. The uploader's steps use
`K8sAgent.batchLen`, on natural numbers, which computes the same.

## Main definitions

* `K8sAgent.Batching.batchLen` — the length of a batch, by the loop of the source.
* `K8sAgent.Batching.sendSnapshot` — the loop that sends a list batch by batch.
* `K8sAgent.Batching.take` — the batch taken from the buffer.

## Main results

* `K8sAgent.Batching.batchLen_eq` — the loop computes what the steps of the uploader use.
* `K8sAgent.Batching.cut_batchLen` — a batch is a greedy cut.
* `K8sAgent.Batching.greedy_partition` — the loop of `sendSnapshot` ends, its batches are a greedy
  partition of the list, and `take` takes one greedy cut.
* `K8sAgent.Batching.run_sendSnapshot` — where all sends succeed, the steps of the uploader send
  the batches of that loop.
-/

namespace K8sAgent

namespace Batching

open Greedy

/-! ## The loop of `batchLen` -/

/-- The loop of `batchLen` at index `i`, with the size of the events before it. -/
def batchLenLoop (events : List InventoryEvent) (n maxBytes bytes : ℤ) (i : ℕ) : ℕ :=
  if (i : ℤ) < n then
    match events[i]? with
    | some ev =>
      if bytes + eventSize ev ≤ maxBytes then
        batchLenLoop events n maxBytes (bytes + eventSize ev) (i + 1)
      else i
    -- the index is below the number of events
    | none => i
  else i
termination_by (n - i).toNat
decreasing_by omega

/-- How many leading events fit in one batch. The source is never called on no events. -/
def batchLen (maxEvents maxBytes : ℤ) : List InventoryEvent → ℕ
  | [] => 0
  | ev :: evs =>
    batchLenLoop (ev :: evs) (min maxEvents (evs.length + 1)) maxBytes (eventSize ev) 1

/-- The loop adds the events that fit, one after another.

**Proof sketch.** Induction on the iterations left. A negative budget has room for no event, as the
natural number it is read as has not. -/
lemma batchLenLoop_eq (events : List InventoryEvent) (maxBytes : ℤ) (k : ℕ) :
    ∀ (i bytes : ℕ), i + k ≤ events.length →
      batchLenLoop events (i + k : ℕ) maxBytes bytes i =
        i + fitting maxBytes.toNat k bytes (events.drop i) := by
  induction k with
  | zero =>
    intro i bytes _
    rw [batchLenLoop, if_neg (by omega), fitting, Nat.add_zero]
  | succ k ih =>
    intro i bytes hlen
    have hi : i < events.length := by omega
    have hsize : 0 < eventSize events[i] := by
      unfold eventSize eventOverhead
      omega
    rw [batchLenLoop, if_pos (by omega), List.getElem?_eq_getElem hi,
      List.drop_eq_getElem_cons hi, fitting]
    dsimp only
    by_cases hfit : (bytes : ℤ) + eventSize events[i] ≤ maxBytes
    · have hnext := ih (i + 1) (bytes + eventSize events[i]) (by omega)
      rw [if_pos hfit, if_pos (by omega)]
      rw [show i + 1 + k = i + (k + 1) by omega, Nat.cast_add bytes] at hnext
      rw [hnext]
      omega
    · rw [if_neg hfit, if_neg (by omega), Nat.add_zero]

lemma fitting_nil (maxBytes n bytes : ℕ) : fitting maxBytes n bytes [] = 0 := by
  cases n <;> rfl

/-- The events that fit are counted alike with the bound `n` and with the length of the list, where
that is less. -/
lemma fitting_min (maxBytes n bytes : ℕ) (evs : List InventoryEvent) :
    fitting maxBytes (min n evs.length) bytes evs = fitting maxBytes n bytes evs := by
  induction n generalizing bytes evs with
  | zero => rw [Nat.zero_min]
  | succ n ih =>
    cases evs with
    | nil => rfl
    | cons ev evs =>
      rw [List.length_cons, Nat.add_min_add_right, fitting, fitting, ih]

/-- **The loop computes what the steps of the uploader use.** -/
theorem batchLen_eq (maxEvents maxBytes : ℤ) (evs : List InventoryEvent) :
    batchLen maxEvents maxBytes evs = K8sAgent.batchLen maxEvents.toNat maxBytes.toNat evs := by
  cases evs with
  | nil => rfl
  | cons ev evs =>
    rw [batchLen, K8sAgent.batchLen, ← fitting_min]
    rcases Int.lt_or_le 0 maxEvents with hpos | hneg
    · have hn : min maxEvents (evs.length + 1) =
          (1 + min (maxEvents.toNat - 1) evs.length : ℕ) := by omega
      rw [hn, batchLenLoop_eq _ _ _ _ _ (by rw [List.length_cons]; omega), Nat.add_comm]
      rfl
    · -- the loop is not entered
      rw [batchLenLoop, if_neg (by omega), Int.toNat_of_nonpos hneg]
      simp [fitting]

/-- A batch has no more events than there are, and than the bound admits, or one. -/
lemma batchLen_le (maxEvents maxBytes : ℤ) (evs : List InventoryEvent) :
    batchLen maxEvents maxBytes evs ≤ evs.length ∧
      (batchLen maxEvents maxBytes evs : ℤ) ≤ max maxEvents 1 := by
  rw [batchLen_eq]
  cases evs with
  | nil =>
    rw [K8sAgent.batchLen]
    omega
  | cons ev evs =>
    have hle := fitting_le maxBytes.toNat (maxEvents.toNat - 1) (eventSize ev) evs
    rw [K8sAgent.batchLen, List.length_cons]
    omega

/-! ## Batches are greedy cuts -/

/-- The events that fit are within the budget, and the next one is not.

**Proof sketch.** Induction on the number of events admitted, with the size so far. -/
lemma fitting_spec (maxBytes : ℕ) : ∀ (n bytes : ℕ) (evs : List InventoryEvent),
    (fitting maxBytes n bytes evs = 0 ∨
      bytes + weight (eventSize ·) (evs.take (fitting maxBytes n bytes evs)) ≤ maxBytes) ∧
    (evs.drop (fitting maxBytes n bytes evs) = [] ∨ fitting maxBytes n bytes evs = n ∨
      ∃ ev ∈ (evs.drop (fitting maxBytes n bytes evs)).head?, (maxBytes : ℤ) <
        bytes + weight (eventSize ·) (evs.take (fitting maxBytes n bytes evs)) + eventSize ev) := by
  intro n
  induction n with
  | zero =>
    intro bytes evs
    exact ⟨.inl rfl, .inr (.inl rfl)⟩
  | succ n ih =>
    intro bytes evs
    cases evs with
    | nil => exact ⟨.inl rfl, .inl rfl⟩
    | cons ev evs =>
      rw [fitting]
      split_ifs with hfit
      · obtain ⟨hwithin, hmax⟩ := ih (bytes + eventSize ev) evs
        rw [List.take_succ_cons, List.drop_succ_cons, weight_cons]
        refine ⟨.inr ?_, ?_⟩
        · rcases hwithin with h | h
          · rw [h, List.take_zero, weight_nil]
            omega
          · push_cast at h
            omega
        · rcases hmax with h | h | ⟨x, hx, h⟩
          · exact .inl h
          · exact .inr (.inl (by omega))
          · refine .inr (.inr ⟨x, hx, ?_⟩)
            push_cast at h
            omega
      · refine ⟨.inl rfl, .inr (.inr ⟨ev, rfl, ?_⟩)⟩
        rw [List.take_zero, weight_nil]
        omega

/-- **A batch is a greedy cut** of the events: as many from the front as the bounds on number and
size allow, and one at least. -/
theorem cut_batchLen {maxEvents : ℤ} (hmax : 1 ≤ maxEvents) (maxBytes : ℤ)
    {evs : List InventoryEvent} (hne : evs ≠ []) :
    Cut (eventSize ·) maxEvents maxBytes evs (evs.take (batchLen maxEvents maxBytes evs))
      (evs.drop (batchLen maxEvents maxBytes evs)) := by
  obtain ⟨ev, evs, rfl⟩ := List.exists_cons_of_ne_nil hne
  rw [batchLen_eq, K8sAgent.batchLen]
  have hle := fitting_le maxBytes.toNat (maxEvents.toNat - 1) (eventSize ev) evs
  obtain ⟨hwithin, hmaximal⟩ := fitting_spec maxBytes.toNat (maxEvents.toNat - 1) (eventSize ev) evs
  have hpos : 0 < eventSize ev := by
    unfold eventSize eventOverhead
    omega
  have hlen : (evs.take (fitting maxBytes.toNat (maxEvents.toNat - 1) (eventSize ev) evs)).length =
      fitting maxBytes.toNat (maxEvents.toNat - 1) (eventSize ev) evs := by
    rw [List.length_take]
    omega
  refine ⟨List.take_append_drop _ _, by simp, ?_, ?_, ?_⟩
  · rw [List.take_succ_cons, List.length_cons, hlen]
    omega
  · rw [List.take_succ_cons, List.length_cons, hlen, weight_cons]
    rcases hwithin with h | h
    · exact .inr (by omega)
    · have := weight_nonneg (w := fun ev => (eventSize ev : ℤ)) (fun _ => by omega)
        (evs.take (fitting maxBytes.toNat (maxEvents.toNat - 1) (eventSize ev) evs))
      exact .inl (by omega)
  · rw [List.take_succ_cons, List.drop_succ_cons, List.length_cons, hlen, weight_cons]
    rcases hmaximal with h | h | ⟨x, hx, h⟩
    · exact .inl h
    · exact .inr (.inl (by omega))
    · exact .inr (.inr ⟨x, hx, by omega⟩)

/-! ## Sending and taking -/

/-- The loop of `sendSnapshot` where send number `i` succeeds if `ok i`: the batches sent, and
whether the loop went through. There is no result where more iterations are needed than `fuel`. -/
def sendSnapshot (maxEvents maxBytes : ℤ) :
    ℕ → (ℕ → Bool) → List InventoryEvent → Option (List (List InventoryEvent) × Bool)
  | _, _, [] => some ([], true)
  | 0, _, _ :: _ => none
  | fuel + 1, ok, ev :: evs =>
    let n := batchLen maxEvents maxBytes (ev :: evs)
    if ok 0 then
      (sendSnapshot maxEvents maxBytes fuel (fun i => ok (i + 1)) ((ev :: evs).drop n)).map
        fun sent => ((ev :: evs).take n :: sent.1, sent.2)
    else some ([(ev :: evs).take n], false)

/-- `take` with both bounds given: the events taken, none where there are none, and the state. -/
def take (u : Uploader) (maxBytes n : ℤ) (s : Uploader.State) :
    List InventoryEvent × Uploader.State :=
  let s := u.refill s
  if s.buf = [] then ([], s)
  else
    let n := batchLen n maxBytes s.buf
    (s.buf.take n, { s with buf := s.buf.drop n })

/-- The loop ends within as many iterations as there are events, whichever sends fail; where none
fails, its batches are a greedy partition.

**Proof sketch.** Induction on the iterations admitted. Each batch has an event, so the events left
are fewer. -/
lemma sendSnapshot_spec {maxEvents : ℤ} (hmax : 1 ≤ maxEvents) (maxBytes : ℤ) (fuel : ℕ) :
    ∀ (ok : ℕ → Bool) (evs : List InventoryEvent), evs.length ≤ fuel →
      ∃ batches through, sendSnapshot maxEvents maxBytes fuel ok evs = some (batches, through) ∧
        ((∀ i, ok i = true) →
          through = true ∧ Partition (eventSize ·) maxEvents maxBytes evs batches) := by
  induction fuel with
  | zero =>
    intro ok evs hlen
    obtain rfl := List.length_eq_zero_iff.mp (Nat.le_zero.mp hlen)
    exact ⟨[], true, rfl, fun _ => ⟨rfl, Partition.nil⟩⟩
  | succ fuel ih =>
    intro ok evs hlen
    cases evs with
    | nil => exact ⟨[], true, rfl, fun _ => ⟨rfl, Partition.nil⟩⟩
    | cons ev evs =>
      have hcut := cut_batchLen hmax maxBytes (List.cons_ne_nil ev evs)
      have hpos := List.length_pos_of_ne_nil hcut.ne_nil
      rw [List.length_take] at hpos
      rw [sendSnapshot]
      split_ifs with hok
      · obtain ⟨batches, through, hsent, hall⟩ := ih (fun i => ok (i + 1))
          ((ev :: evs).drop (batchLen maxEvents maxBytes (ev :: evs)))
          (by rw [List.length_drop]; omega)
        refine ⟨_, through, by rw [hsent]; rfl, fun h => ?_⟩
        obtain ⟨hthrough, hpart⟩ := hall fun i => h (i + 1)
        exact ⟨hthrough, hpart.cons hcut⟩
      · exact ⟨_, false, rfl, fun h => absurd (h 0) hok⟩

/-- **Batching is a greedy partition.** The loop of `sendSnapshot` ends whichever sends fail; where
none fails, the batches concatenated are the events, and each is a greedy cut of the events from it
on: not empty, at most `maxEvents` long, at most `maxBytes` in size unless it is one event, and with
no room for the next event. `take` takes such a cut from the buffer, and nothing from an empty one.

**Proof sketch.** `cut_batchLen` for one batch, `sendSnapshot_spec` for the loop. -/
theorem greedy_partition {maxEvents : ℤ} (hmax : 1 ≤ maxEvents) (maxBytes : ℤ) :
    (∀ (ok : ℕ → Bool) (evs : List InventoryEvent), ∃ batches through,
      sendSnapshot maxEvents maxBytes evs.length ok evs = some (batches, through) ∧
        ((∀ i, ok i = true) → through = true ∧ batches.flatten = evs ∧
          ∀ before batch after, batches = before ++ batch :: after →
            Cut (eventSize ·) maxEvents maxBytes (batch ++ after.flatten) batch after.flatten)) ∧
    ∀ (u : Uploader) (s : Uploader.State),
      ((u.refill s).buf = [] → take u maxBytes maxEvents s = ([], u.refill s)) ∧
      ((u.refill s).buf ≠ [] → ∃ batch rest,
        take u maxBytes maxEvents s = (batch, { u.refill s with buf := rest }) ∧
          Cut (eventSize ·) maxEvents maxBytes (u.refill s).buf batch rest) := by
  refine ⟨fun ok evs => sendSnapshot_spec hmax maxBytes evs.length ok evs (Nat.le_refl _),
    fun u s => ⟨fun hnil => ?_, fun hne => ?_⟩⟩
  · rw [take]
    exact if_pos hnil
  · refine ⟨_, _, ?_, cut_batchLen hmax maxBytes hne⟩
    rw [take]
    exact if_neg hne

/-- Three events, the second larger than a budget of 600 bytes. -/
def oversizedSecond : List InventoryEvent :=
  [{ op := "add" }, { objectJSON := List.replicate 400 0 }, { op := "delete" }]

/-- An event larger than the budget is sent in its place. -/
theorem greedy_partition_oversized : ∃ batches through,
    sendSnapshot 200 600 oversizedSecond.length (fun _ => true) oversizedSecond =
        some (batches, through) ∧ through = true ∧ batches.flatten = oversizedSecond := by
  obtain ⟨batches, through, hsent, hall⟩ := (greedy_partition (show (1 : ℤ) ≤ 200 by decide) 600).1
    (fun _ => true) oversizedSecond
  exact ⟨batches, through, hsent, (hall fun _ => rfl).1, (hall fun _ => rfl).2.1⟩

/-! ## The steps of the uploader -/

/-- A batch of the uploader is cut off by the loop. -/
lemma batchLen_uploader (u : Uploader) (evs : List InventoryEvent) :
    batchLen batchSize u.maxBatchBytes evs = K8sAgent.batchLen batchSize u.maxBatchBytes evs := by
  rw [batchLen_eq, Int.toNat_natCast, Int.toNat_natCast]

/-- The step that takes a batch takes it as `take` does. -/
lemma uploader_take_eq (u : Uploader) (s : Uploader.State) :
    u.take s =
      if (take u u.maxBatchBytes batchSize s).1 = [] then
        { (take u u.maxBatchBytes batchSize s).2 with pc := .idle }
      else
        u.sendBatch (take u u.maxBatchBytes batchSize s).2 (take u u.maxBatchBytes batchSize s).1
          false [] := by
  by_cases hbuf : (u.refill s).buf = []
  · simp only [Uploader.take, take, if_pos hbuf]
    rfl
  · have hne := (cut_batchLen (show (1 : ℤ) ≤ batchSize by decide) u.maxBatchBytes hbuf).ne_nil
    simp only [Uploader.take, take, if_neg hbuf, if_neg hne]
    rw [batchLen_uploader]
    rfl

/-- What has been sent, apart from the sequence numbers. -/
def sent (s : Uploader.State) : List (Bool × List InventoryEvent) :=
  s.attempts.map fun b => (b.full, b.events)

/-- A part of the snapshot is sent and acknowledged, and the rest is to be sent. -/
lemma run_sendPart (u : Uploader) {s : Uploader.State} {ev : InventoryEvent}
    {evs : List InventoryEvent} (hpc : s.pc = .snapshot (ev :: evs)) :
    ∃ s', Transition.run u.step s [.next, .ack] = some s' ∧
      s'.pc = .snapshot (u.rest (ev :: evs)) ∧
      sent s' = sent s ++ [(true, u.batch (ev :: evs))] := by
  have hnext : u.step s .next =
      some (u.sendBatch s (u.batch (ev :: evs)) true (u.rest (ev :: evs))) := by
    simp only [Uploader.step, Uploader.next, hpc]
  let s₁ := u.sendBatch s (u.batch (ev :: evs)) true (u.rest (ev :: evs))
  refine ⟨{ s₁ with seq := s₁.seq + 1, pc := .snapshot (u.rest (ev :: evs)) }, ?_, rfl, ?_⟩
  · rw [Transition.run, hnext]
    rfl
  · simp [s₁, sent, Uploader.sendBatch]

/-- **The steps of the uploader send the batches of the loop**, as parts of a full snapshot, where
each is acknowledged.

**Proof sketch.** Induction on the iterations, with `run_sendPart` for each. -/
theorem run_sendSnapshot (u : Uploader) (fuel : ℕ) :
    ∀ (evs : List InventoryEvent) (batches : List (List InventoryEvent)) (through : Bool)
      (s : Uploader.State), s.pc = .snapshot evs →
      sendSnapshot batchSize u.maxBatchBytes fuel (fun _ => true) evs = some (batches, through) →
      ∃ s', Transition.run u.step s (batches.flatMap fun _ => [.next, .ack]) = some s' ∧
        s'.pc = .snapshot [] ∧ sent s' = sent s ++ batches.map (true, ·) := by
  induction fuel with
  | zero =>
    intro evs batches through s hpc hsend
    cases evs with
    | nil =>
      obtain ⟨rfl, rfl⟩ := Prod.mk.inj (Option.some.inj hsend)
      exact ⟨s, rfl, hpc, by simp⟩
    | cons ev evs => cases hsend
  | succ fuel ih =>
    intro evs batches through s hpc hsend
    cases evs with
    | nil =>
      obtain ⟨rfl, rfl⟩ := Prod.mk.inj (Option.some.inj hsend)
      exact ⟨s, rfl, hpc, by simp⟩
    | cons ev evs =>
      rw [sendSnapshot, if_pos rfl, batchLen_uploader] at hsend
      obtain ⟨⟨later, through'⟩, hlater, heq⟩ := Option.map_eq_some_iff.mp hsend
      obtain ⟨rfl, rfl⟩ := Prod.mk.inj heq
      obtain ⟨s₁, hrun₁, hpc₁, hsent₁⟩ := run_sendPart u hpc
      obtain ⟨s', hrun, hpc', hsent⟩ := ih _ _ _ s₁ hpc₁ hlater
      refine ⟨s', ?_, hpc', ?_⟩
      · rw [List.flatMap_cons, Transition.run_append, hrun₁]
        exact hrun
      · rw [hsent, hsent₁, List.append_assoc]
        rfl

end Batching

end K8sAgent
