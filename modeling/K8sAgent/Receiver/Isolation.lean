import K8sAgent.Receiver.Replay

set_option relaxedAutoImplicit false
set_option autoImplicit false

/-!
# What unauthentic commands can influence

Two runs of the receiver are compared: one on a sequence of deliveries, one on the same sequence
without some commands whose signature does not verify. Such a command never gets to the nonce
cache, so the nonce caches of the two runs agree; but its ID is recorded before it is verified,
and everything depends on what the ID windows answer for the commands that remain.

## Main definitions

* `K8sAgent.Receiver.Authentic` — the signature of a command verifies under the configured key.
* `K8sAgent.Receiver.Marked` — deliveries, each marked as kept or left out.
* `K8sAgent.Receiver.visible` — the reports and dispatches among the effects of a call.

## Main results

* `K8sAgent.Receiver.nonces_process_of_not_authentic` — a forged command leaves the nonces alone.
* `K8sAgent.Receiver.kept_visible_iff` — the kept commands are treated alike in both runs exactly
  when the ID window answers alike for them.
-/

namespace K8sAgent.Receiver

open FifoWindow

/-- The signature of the command verifies under the configured key. -/
def Authentic (r : Receiver) (cmd : Command) : Prop :=
  ∃ pub, r.cfg.publicKey = .ok pub ∧ cmd.verifySignature r.env pub = none

/-- Deliveries marked `true` if they are kept and `false` if they are left out. -/
abbrev Marked := List (Bool × Delivery)

/-- The kept deliveries. -/
def Marked.kept (ms : Marked) : List Delivery := (ms.filter (·.1)).map (·.2)

/-- What a list with one entry a delivery has for the kept ones. -/
def Marked.pick {α : Type} (ms : Marked) (xs : List α) : List α :=
  ((ms.map (·.1)).zip xs).filterMap fun p => if p.1 then some p.2 else none

/-- The reports and dispatches among the effects of a call. -/
def visible (effs : List Effect) : List Effect :=
  effs.filter fun e => match e with
    | .incCommand _ _ => false
    | .deliverReport _ | .handleCommand _ => true

section Marks

variable {α : Type} {d : Delivery} {ms : Marked} {x : α} {xs : List α}

@[simp] lemma kept_cons_true : Marked.kept ((true, d) :: ms) = d :: ms.kept := by
  simp [Marked.kept]

@[simp] lemma kept_cons_false : Marked.kept ((false, d) :: ms) = ms.kept := by
  simp [Marked.kept]

@[simp] lemma pick_cons_true : Marked.pick ((true, d) :: ms) (x :: xs) = x :: ms.pick xs := by
  simp [Marked.pick]

@[simp] lemma pick_cons_false : Marked.pick ((false, d) :: ms) (x :: xs) = ms.pick xs := by
  simp [Marked.pick]

end Marks

/-! ## One call -/

section Call

variable {r : Receiver} {s s' : Caches} {d : Delivery}

/-- A command that is not authentic fails a check. -/
lemma checks_of_not_authentic {now : ℤ} (h : ¬r.Authentic d.cmd) :
    r.checks d.cmd now ≠ none := by
  intro hc
  obtain ⟨-, pub, hpub, hsig, -⟩ := checks_eq_none_iff.mp hc
  exact h ⟨pub, hpub, hsig⟩

/-- A command that is not authentic leaves the nonce cache alone. -/
theorem nonces_process_of_not_authentic (h : ¬r.Authentic d.cmd) :
    (r.process s d).1.nonces = s.nonces := by
  rw [nonces_process, if_neg]
  intro hmem
  exact checks_of_not_authentic h (handleCommand_mem_process.mp hmem).2.2.1

/-- A call reports or dispatches exactly when its ID is new. -/
lemma visible_process_eq_nil : visible (r.process s d).2 = [] ↔ s.ids.lookup d.cmd.id = true := by
  obtain ⟨hid, hp⟩ | ⟨hid, reason, -, hp⟩ | ⟨hid, -, -, hp⟩ | ⟨hid, -, -, hp⟩ :=
    process_cases r s d
  · simp [hp, hid, visible]
  · simp [hp, hid, visible, refusal]
  · simp [hp, hid, visible, refusal]
  · simp [hp, hid, visible, acceptance]

/-- What a call does, and the nonces it leaves, depend on the ID cache only through its answer. -/
lemma process_congr (hids : s.ids.lookup d.cmd.id = s'.ids.lookup d.cmd.id)
    (hnonces : s.nonces = s'.nonces) :
    (r.process s d).2 = (r.process s' d).2 ∧
      (r.process s d).1.nonces = (r.process s' d).1.nonces := by
  obtain ⟨hid, hp⟩ | ⟨hid, reason, hc, hp⟩ | ⟨hid, hc, hn, hp⟩ | ⟨hid, hc, hn, hp⟩ :=
    process_cases r s' d
  · rw [hp, process_of_seen (hids.trans hid)]
    exact ⟨rfl, hnonces⟩
  · rw [hp, process_of_checks (hids.trans hid) hc]
    exact ⟨rfl, hnonces⟩
  · rw [hp, process_of_nonce (hids.trans hid) hc (hnonces ▸ hn)]
    exact ⟨rfl, hnonces⟩
  · rw [hp, process_of_fresh (hids.trans hid) hc (hnonces ▸ hn), hnonces]
    exact ⟨rfl, rfl⟩

end Call

/-! ## Two runs -/

/-- The caches of a run on all deliveries, whose ID history is `h`, and those of the run on the
kept ones, whose ID history is `h'`. -/
structure Twin (s s' : Caches) (h h' : List String) : Prop where
  /-- The ID cache of the first run. -/
  ids : s.ids.cap = maxIDs ∧ s.ids.Represents h
  /-- The ID cache of the second run. -/
  ids' : s'.ids.cap = maxIDs ∧ s'.ids.Represents h'
  /-- The nonce caches agree. -/
  nonces : s.nonces = s'.nonces

/-- The ID cache after a call, in terms of the ID history. -/
lemma ids_process_represents {r : Receiver} {s : Caches} {h : List String} (d : Delivery)
    (hs : s.ids.cap = maxIDs ∧ s.ids.Represents h) :
    (r.process s d).1.ids.cap = maxIDs ∧
      (r.process s d).1.ids.Represents (record maxIDs h d.cmd.id) := by
  rw [ids_process, ← hs.1]
  exact ⟨NonceCache.cap_seen _ _, (hs.2.seen d.cmd.id).2⟩

/-- The answer of the ID cache, in terms of the ID history. -/
lemma lookup_eq_decide {s : Caches} {h : List String} (id : String)
    (hs : s.ids.cap = maxIDs ∧ s.ids.Represents h) :
    s.ids.lookup id = decide (id ∈ recent maxIDs h) := by
  rw [Bool.eq_iff_iff, hs.2.lookup, hs.1, decide_eq_true_iff]

/-- The two runs from caches that are twins.

**Proof sketch.** Induction on the deliveries. One that is left out is not authentic, so it
changes the first run's ID cache only. A kept one is treated alike if both ID caches give the same
answer (`process_congr`), and the caches are twins afterwards; if they do not, one run drops it and
the other reports on it. -/
lemma pick_visible_iff {r : Receiver} (ms : Marked) (s s' : Caches) (h h' : List String)
    (hforged : ∀ d, (false, d) ∈ ms → ¬r.Authentic d.cmd) (ht : Twin s s' h h') :
    ms.pick ((r.run s (ms.map (·.2))).map visible) = (r.run s' ms.kept).map visible ↔
      ms.pick (answers maxIDs h (ms.map (·.2.cmd.id))) =
        answers maxIDs h' (ms.kept.map (·.cmd.id)) := by
  induction ms generalizing s s' h h' with
  | nil => exact iff_of_true rfl rfl
  | cons m ms ih =>
    obtain ⟨keep, d⟩ := m
    have hforged' : ∀ d, (false, d) ∈ ms → ¬r.Authentic d.cmd := fun d hd =>
      hforged d (List.mem_cons_of_mem _ hd)
    have hids := ids_process_represents (r := r) d ht.ids
    cases keep with
    | false =>
      simp only [List.map_cons, run, answers, pick_cons_false, kept_cons_false]
      refine ih _ _ _ _ hforged' ⟨hids, ht.ids', ?_⟩
      rw [nonces_process_of_not_authentic (hforged d List.mem_cons_self)]
      exact ht.nonces
    | true =>
      have hids' := ids_process_represents (r := r) d ht.ids'
      simp only [List.map_cons, run, answers, pick_cons_true, kept_cons_true, List.cons.injEq]
      by_cases hans : s.ids.lookup d.cmd.id = s'.ids.lookup d.cmd.id
      · obtain ⟨heffs, hnonces⟩ := process_congr (r := r) hans ht.nonces
        rw [ih _ _ _ _ hforged' ⟨hids, hids', hnonces⟩, heffs]
        rw [lookup_eq_decide _ ht.ids, lookup_eq_decide _ ht.ids'] at hans
        simp only [hans, true_and]
      · -- one run drops the command, the other one does not
        refine iff_of_false (fun heq => hans ?_) (fun heq => hans ?_)
        · rw [Bool.eq_iff_iff, ← visible_process_eq_nil (r := r),
            ← visible_process_eq_nil (r := r) (s := s'), heq.1]
        · rw [lookup_eq_decide _ ht.ids, lookup_eq_decide _ ht.ids', heq.1]

/-- **What unauthentic commands can influence.** Leave commands whose signature does not verify
out of any sequence of deliveries. The reports and dispatches for the remaining commands are the
same in both runs exactly when the window of the last 10,000 recorded IDs answers the same for
each remaining command, whether it is fed with the IDs of all commands or with those of the
remaining ones. -/
theorem kept_visible_iff (r : Receiver) (ms : Marked)
    (hforged : ∀ d, (false, d) ∈ ms → ¬r.Authentic d.cmd) :
    ms.pick ((r.run .init (ms.map (·.2))).map visible) = (r.run .init ms.kept).map visible ↔
      ms.pick (answers maxIDs [] (ms.map (·.2.cmd.id))) =
        answers maxIDs [] (ms.kept.map (·.cmd.id)) :=
  pick_visible_iff ms .init .init [] [] hforged
    ⟨⟨rfl, NonceCache.represents_new (by decide)⟩,
      ⟨rfl, NonceCache.represents_new (by decide)⟩, rfl⟩

/-- A command without signature. -/
def unsignedDelivery (id : String) : Delivery :=
  ⟨.push, { id := id, verb := verbDelete }, 1700000059 * 10 ^ 9, 1700000059 * 10 ^ 9⟩

lemma not_authentic_unsignedDelivery (r : Receiver) (id : String) :
    ¬r.Authentic (unsignedDelivery id).cmd := by
  rintro ⟨pub, -, hsig⟩
  cases hsig

/-- A command without signature and with an ID of its own is left out without effect on the sample
command. -/
theorem kept_visible_sample :
    Marked.pick [(false, unsignedDelivery "cmd-2"), (true, sampleDelivery)]
        ((sampleReceiver.run .init [unsignedDelivery "cmd-2", sampleDelivery]).map visible) =
      (sampleReceiver.run .init [sampleDelivery]).map visible := by
  refine (kept_visible_iff sampleReceiver
    [(false, unsignedDelivery "cmd-2"), (true, sampleDelivery)] fun d hd => ?_).mpr (by decide)
  simp only [List.mem_cons, Prod.mk.injEq, Bool.false_eq_true, false_and, List.not_mem_nil,
    or_false, true_and] at hd
  rw [hd]
  exact not_authentic_unsignedDelivery _ _

/-- A command without signature that carries the ID of the sample command suppresses the signed
command that follows it: the sample command is dropped silently, where it is reported and
dispatched without the forgery. -/
theorem forged_id_suppresses_command :
    ¬sampleReceiver.Authentic (unsignedDelivery "cmd-1").cmd ∧
    sampleReceiver.Authentic sampleCommand ∧
    Marked.pick [(false, unsignedDelivery "cmd-1"), (true, sampleDelivery)]
        ((sampleReceiver.run .init [unsignedDelivery "cmd-1", sampleDelivery]).map visible) ≠
      (sampleReceiver.run .init
        (Marked.kept [(false, unsignedDelivery "cmd-1"), (true, sampleDelivery)])).map visible := by
  refine ⟨not_authentic_unsignedDelivery _ _, ?_, by decide +kernel⟩
  refine ⟨Encoding.ofHex "42df9cf58875460b096e097e9846c1e42a08249de77cdd75261a28b8bd9a2a76", ?_, ?_⟩
  · rfl
  · decide +kernel

end K8sAgent.Receiver
