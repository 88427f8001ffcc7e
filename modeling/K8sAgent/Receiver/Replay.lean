import K8sAgent.Receiver.Process

set_option relaxedAutoImplicit false
set_option autoImplicit false

/-!
# Authentic commands, dispatched once

What any sequence of deliveries does with the two caches. Nonces are recorded exactly when a
command is dispatched, so the nonce cache is the window of the dispatch history
(`K8sAgent.Receiver.nonces_after`), and a nonce comes back only after the window has been filled
with others.

## Main definitions

* `K8sAgent.Receiver.Dispatched` — the delivery at a position starts the executor.
* `K8sAgent.Receiver.dispatchNonces` — the nonces of the dispatched commands, in order.

## Main results

* `K8sAgent.Receiver.handleCommand_mem_process` — when one call dispatches.
* `K8sAgent.Receiver.nonces_after`, `K8sAgent.Receiver.ids_after` — the caches after any run.
* `K8sAgent.Receiver.dispatch_guarded` — every dispatch is authentic and timely, two dispatches of
  one nonce are separated by 10,000 dispatches with other, pairwise distinct nonces, and for two
  dispatches of one command these all happen in its time window.
-/

namespace K8sAgent.Receiver

open FifoWindow

/-! ## One call -/

/-- **When a call dispatches**: its ID is new, the checks pass and its nonce is new. -/
theorem handleCommand_mem_process {r : Receiver} {s : Caches} {d : Delivery} {c : Command} :
    Effect.handleCommand c ∈ (r.process s d).2 ↔
      c = d.cmd ∧ s.ids.lookup d.cmd.id = false ∧ r.checks d.cmd d.checkedAt = none ∧
        s.nonces.lookup d.cmd.nonce = false := by
  obtain ⟨hid, hp⟩ | ⟨hid, reason, hc, hp⟩ | ⟨hid, hc, hn, hp⟩ | ⟨hid, hc, hn, hp⟩ :=
    process_cases r s d
  · simp [hp, hid]
  · simp [hp, hc, refusal]
  · simp [hp, hn, refusal]
  · simp [hp, hid, hc, hn, acceptance]

/-- The nonce cache after a call: the nonce is inserted exactly when the call dispatches. -/
lemma nonces_process (r : Receiver) (s : Caches) (d : Delivery) :
    (r.process s d).1.nonces =
      if Effect.handleCommand d.cmd ∈ (r.process s d).2 then s.nonces.insert d.cmd.nonce
      else s.nonces := by
  simp only [handleCommand_mem_process, true_and]
  obtain ⟨hid, hp⟩ | ⟨hid, reason, hc, hp⟩ | ⟨hid, hc, hn, hp⟩ | ⟨hid, hc, hn, hp⟩ :=
    process_cases r s d
  · simp [hp, hid]
  · simp [hp, hc]
  · simp [hp, hn]
  · simp [hp, hid, hc, hn]

/-- The ID cache after a call: the ID has been offered to it, whatever the checks say. -/
lemma ids_process (r : Receiver) (s : Caches) (d : Delivery) :
    (r.process s d).1.ids = (s.ids.seen d.cmd.id).2 := by
  obtain ⟨hid, hp⟩ | ⟨hid, reason, -, hp⟩ | ⟨hid, -, -, hp⟩ | ⟨hid, -, -, hp⟩ :=
    process_cases r s d
  all_goals simp [hp, NonceCache.seen, hid]

/-! ## The dispatch history of a run -/

/-- The delivery at position `i` starts the executor. -/
def Dispatched (r : Receiver) (ds : List Delivery) (i : ℕ) (d : Delivery) : Prop :=
  ds[i]? = some d ∧ ∃ effs, (r.run .init ds)[i]? = some effs ∧ Effect.handleCommand d.cmd ∈ effs

/-- Whether the delivery at position `i` starts the executor. -/
def dispatchedAt (r : Receiver) (ds : List Delivery) (i : ℕ) : Bool :=
  match ds[i]?, (r.run .init ds)[i]? with
  | some d, some effs => Effect.handleCommand d.cmd ∈ effs
  | _, _ => false

/-- The positions that start the executor. -/
def dispatchIdx (r : Receiver) (ds : List Delivery) : List ℕ :=
  (List.range ds.length).filter (r.dispatchedAt ds)

/-- The nonce of the delivery at a position. -/
def nonceAt (ds : List Delivery) (i : ℕ) : String := ((ds[i]?).map (·.cmd.nonce)).getD ""

/-- The nonces of the dispatched commands, in order. -/
def dispatchNonces (r : Receiver) (ds : List Delivery) : List String :=
  (r.dispatchIdx ds).map (nonceAt ds)

lemma dispatchedAt_iff {r : Receiver} {ds : List Delivery} {i : ℕ} :
    r.dispatchedAt ds i = true ↔ ∃ d, r.Dispatched ds i d := by
  unfold dispatchedAt Dispatched
  cases hd : ds[i]? with
  | none => simp
  | some d =>
    cases he : (r.run .init ds)[i]? with
    | none => simp
    | some effs => simp

/-- A longer run treats its first deliveries as the shorter one did. -/
lemma dispatchedAt_append {r : Receiver} {ds : List Delivery} {i : ℕ} (d : Delivery)
    (hi : i < ds.length) : r.dispatchedAt (ds ++ [d]) i = r.dispatchedAt ds i := by
  unfold dispatchedAt
  rw [run_append, List.getElem?_append_left hi, List.getElem?_append_left (by simpa using hi)]

/-- The last delivery of a run is processed with the caches the others leave. -/
lemma dispatchedAt_last (r : Receiver) (ds : List Delivery) (d : Delivery) :
    r.dispatchedAt (ds ++ [d]) ds.length =
      decide (Effect.handleCommand d.cmd ∈ (r.process (r.after .init ds) d).2) := by
  have hrun : (r.run .init (ds ++ [d]))[ds.length]? =
      some (r.process (r.after .init ds) d).2 := by
    rw [run_append, List.getElem?_append_right (by simp)]
    simp [run]
  unfold dispatchedAt
  rw [hrun, List.getElem?_append_right le_rfl]
  simp

lemma dispatchIdx_append (r : Receiver) (ds : List Delivery) (d : Delivery) :
    r.dispatchIdx (ds ++ [d]) = r.dispatchIdx ds ++
      if Effect.handleCommand d.cmd ∈ (r.process (r.after .init ds) d).2 then [ds.length]
      else [] := by
  unfold dispatchIdx
  rw [List.length_append, List.length_singleton, List.range_succ, List.filter_append]
  congr 1
  · exact List.filter_congr fun i hi => dispatchedAt_append d (List.mem_range.mp hi)
  · simp [List.filter_cons, dispatchedAt_last]

lemma dispatchNonces_append (r : Receiver) (ds : List Delivery) (d : Delivery) :
    r.dispatchNonces (ds ++ [d]) = r.dispatchNonces ds ++
      if Effect.handleCommand d.cmd ∈ (r.process (r.after .init ds) d).2 then [d.cmd.nonce]
      else [] := by
  unfold dispatchNonces
  rw [dispatchIdx_append, List.map_append]
  congr 1
  · refine List.map_congr_left fun i hi => ?_
    have hlt : i < ds.length := List.mem_range.mp (List.mem_of_mem_filter hi)
    simp only [nonceAt, List.getElem?_append_left hlt]
  · split_ifs <;> simp [nonceAt]

/-- **The nonce cache is the window of the dispatch history**, after any sequence of calls. -/
theorem nonces_after (r : Receiver) (ds : List Delivery) :
    (r.after .init ds).nonces.cap = maxNonces ∧
      (r.after .init ds).nonces.Represents (r.dispatchNonces ds) := by
  induction ds using List.reverseRecOn with
  | nil => exact ⟨rfl, NonceCache.represents_new (by decide)⟩
  | append_singleton ds d ih =>
    obtain ⟨hcap, hrep⟩ := ih
    rw [after_append, dispatchNonces_append]
    simp only [after]
    rw [nonces_process]
    split_ifs with hd
    · have hn := (handleCommand_mem_process.mp hd).2.2.2
      refine ⟨by simpa using hcap, hrep.insert fun hmem => ?_⟩
      rw [(hrep.lookup _).mpr hmem] at hn
      exact Bool.noConfusion hn
    · rw [List.append_nil]
      exact ⟨hcap, hrep⟩

/-- **The ID cache is the window of the delivered IDs**, authentic or not. -/
theorem ids_after (r : Receiver) (ds : List Delivery) :
    (r.after .init ds).ids.cap = maxIDs ∧
      (r.after .init ds).ids.Represents ((ds.map (·.cmd.id)).foldl (record maxIDs) []) := by
  induction ds using List.reverseRecOn with
  | nil => exact ⟨rfl, NonceCache.represents_new (by decide)⟩
  | append_singleton ds d ih =>
    obtain ⟨hcap, hrep⟩ := ih
    rw [after_append, after, after, List.map_append, List.map_singleton, List.foldl_append,
      List.foldl_cons, List.foldl_nil, ids_process]
    have hseen := (hrep.seen d.cmd.id).2
    rw [hcap] at hseen
    exact ⟨by simpa using hcap, hseen⟩

/-- The ID of a command that has not been delivered before is not in the cache. -/
lemma lookup_after_of_new {r : Receiver} {ds : List Delivery} {id : String}
    (hnew : ∀ d ∈ ds, d.cmd.id ≠ id) : (r.after .init ds).ids.lookup id = false := by
  obtain ⟨-, hrep⟩ := ids_after r ds
  by_contra hseen
  rw [Bool.not_eq_false, hrep.lookup] at hseen
  rcases mem_of_mem_foldl_record (List.mem_of_mem_drop hseen) with hmem | hmem
  · cases hmem
  · obtain ⟨d, hd, rfl⟩ := List.mem_map.mp hmem
    exact hnew d hd rfl

/-! ## Dispatches of one nonce -/

/-- The dispatching positions are listed in increasing order. -/
lemma dispatchIdx_lt {r : Receiver} {ds : List Delivery} {a b i j : ℕ} (hab : a < b)
    (ha : (r.dispatchIdx ds)[a]? = some i) (hb : (r.dispatchIdx ds)[b]? = some j) : i < j := by
  have hsorted : (r.dispatchIdx ds).Pairwise (· < ·) :=
    List.Pairwise.filter _ List.pairwise_lt_range
  rw [List.pairwise_iff_getElem] at hsorted
  obtain ⟨ha', rfl⟩ := List.getElem?_eq_some_iff.mp ha
  obtain ⟨hb', rfl⟩ := List.getElem?_eq_some_iff.mp hb
  exact hsorted a b ha' hb' hab

/-- A dispatching position has a place in the list of them, where its nonce is recorded. -/
lemma Dispatched.exists_idx {r : Receiver} {ds : List Delivery} {i : ℕ} {d : Delivery}
    (hd : r.Dispatched ds i d) : ∃ a : ℕ, (r.dispatchIdx ds)[a]? = some i ∧
      (r.dispatchNonces ds)[a]? = some d.cmd.nonce := by
  have hlt : i < ds.length := (List.getElem?_eq_some_iff.mp hd.1).1
  have hmem : i ∈ r.dispatchIdx ds :=
    List.mem_filter.mpr ⟨List.mem_range.mpr hlt, dispatchedAt_iff.mpr ⟨d, hd⟩⟩
  obtain ⟨a, ha⟩ := List.mem_iff_getElem?.mp hmem
  refine ⟨a, ha, ?_⟩
  rw [dispatchNonces, List.getElem?_map, ha]
  simp [nonceAt, hd.1]

/-- The position listed at place `a` is a dispatching one. -/
lemma dispatched_of_idx {r : Receiver} {ds : List Delivery} {a i : ℕ}
    (ha : (r.dispatchIdx ds)[a]? = some i) : ∃ d, r.Dispatched ds i d := by
  have hmem : i ∈ r.dispatchIdx ds := List.mem_of_getElem? ha
  exact dispatchedAt_iff.mp (List.mem_filter.mp hmem).2

/-- **Two dispatches of one nonce** are separated by 10,000 dispatches whose nonces differ from it
and from each other.

**Proof sketch.** The nonces recorded in the cache are those of the dispatches, in order, and the
history is spaced (`nonces_after`). The 10,000 entries after the first occurrence of the nonce
come before the second one; the positions they belong to lie between the two deliveries. -/
theorem exists_dispatches_between {r : Receiver} {ds : List Delivery} {i j : ℕ}
    {d e : Delivery} (hij : i < j) (hi : r.Dispatched ds i d) (hj : r.Dispatched ds j e)
    (hn : d.cmd.nonce = e.cmd.nonce) :
    ∃ S : Finset ℕ, S.card = maxNonces ∧
      (∀ k ∈ S, i < k ∧ k < j ∧ ∃ f, r.Dispatched ds k f ∧ f.cmd.nonce ≠ d.cmd.nonce) ∧
      ∀ k ∈ S, ∀ l ∈ S, nonceAt ds k = nonceAt ds l → k = l := by
  obtain ⟨hcap, hrep⟩ := nonces_after r ds
  have hspaced := hrep.spaced
  rw [hcap] at hspaced
  obtain ⟨a, ha, hna⟩ := hi.exists_idx
  obtain ⟨b, hb, hnb⟩ := hj.exists_idx
  rw [← hn] at hnb
  have hab : a < b := by
    rcases Nat.lt_trichotomy a b with h | rfl | h
    · exact h
    · rw [ha, Option.some_inj] at hb
      omega
    · have := dispatchIdx_lt h hb ha
      omega
  obtain ⟨hfar, hne, hinj⟩ := hspaced.exists_between hab hna hnb
  have hblen : b < (r.dispatchIdx ds).length := (List.getElem?_eq_some_iff.mp hb).1
  -- the position listed at a place up to `b`
  let pos : ℕ → ℕ := fun k => ((r.dispatchIdx ds)[k]?).getD 0
  have hpos : ∀ k ≤ b, (r.dispatchIdx ds)[k]? = some (pos k) := by
    intro k hk
    simp only [pos]
    rw [List.getElem?_eq_getElem (show k < (r.dispatchIdx ds).length by omega)]
    rfl
  have hnonce : ∀ k ≤ b, (r.dispatchNonces ds)[k]? = some (nonceAt ds (pos k)) := by
    intro k hk
    rw [dispatchNonces, List.getElem?_map, hpos k hk]
    rfl
  have hmem : ∀ k ∈ Finset.Ioc a (a + maxNonces), k ≤ b := by
    intro k hk
    rw [Finset.mem_Ioc] at hk
    omega
  have hposInj : ∀ k ∈ Finset.Ioc a (a + maxNonces), ∀ l ∈ Finset.Ioc a (a + maxNonces),
      nonceAt ds (pos k) = nonceAt ds (pos l) → k = l := by
    intro k hk l hl h
    exact hinj k hk l hl (by rw [hnonce k (hmem k hk), hnonce l (hmem l hl), h])
  refine ⟨(Finset.Ioc a (a + maxNonces)).image pos, ?_, ?_, ?_⟩
  · rw [Finset.card_image_of_injOn, Nat.card_Ioc]
    · omega
    · intro k hk l hl h
      exact hposInj k hk l hl (by rw [h])
  · intro p hp
    obtain ⟨k, hk, rfl⟩ := Finset.mem_image.mp hp
    have hk' := Finset.mem_Ioc.mp hk
    obtain ⟨f, hf⟩ := dispatched_of_idx (hpos k (hmem k hk))
    refine ⟨dispatchIdx_lt hk'.1 ha (hpos k (hmem k hk)),
      dispatchIdx_lt (by omega) (hpos k (hmem k hk)) hb, f, hf, fun heq => hne k hk ?_⟩
    rw [hnonce k (hmem k hk), ← heq]
    simp [nonceAt, hf.1]
  · intro p hp q hq h
    obtain ⟨k, hk, rfl⟩ := Finset.mem_image.mp hp
    obtain ⟨l, hl, rfl⟩ := Finset.mem_image.mp hq
    rw [hposInj k hk l hl h]

/-- A dispatched delivery was processed at its position and passed every check. -/
lemma Dispatched.checks {r : Receiver} {ds : List Delivery} {i : ℕ} {d : Delivery}
    (hd : r.Dispatched ds i d) : r.checks d.cmd d.checkedAt = none := by
  obtain ⟨hdi, effs, heffs, hmem⟩ := hd
  obtain ⟨hlt, hd'⟩ := List.getElem?_eq_some_iff.mp hdi
  -- split the run at position `i`
  have hsplit : ds = ds.take i ++ d :: ds.drop (i + 1) := by
    rw [← hd', ← List.drop_eq_getElem_cons hlt, List.take_append_drop]
  have hlen : (ds.take i).length = i := List.length_take_of_le hlt.le
  rw [hsplit, run_append, List.getElem?_append_right (by simp [hlen]), run_length, hlen,
    Nat.sub_self, run, List.getElem?_cons_zero, Option.some_inj] at heffs
  rw [← heffs] at hmem
  exact (handleCommand_mem_process.mp hmem).2.2.1

/-- **Every dispatch is guarded**, in every sequence of deliveries over either path under a clock
that does not go back. A dispatched command was delivered while the writer is enabled, under a
public key that decodes and with a signature that verifies, within five minutes of its timestamp.
Two dispatches that carry one nonce are separated by 10,000 dispatches with pairwise distinct
nonces different from it; for two dispatches of one command all of these fall into the ten minutes
its timestamp admits.

**Proof sketch.** The checks precede the nonce lookup (`Dispatched.checks`,
`checks_eq_none_iff`). The separation is `exists_dispatches_between`. Both dispatches of one
command are within five minutes of its timestamp, and clock readings in between lie between
theirs. -/
theorem dispatch_guarded (r : Receiver) (ds : List Delivery)
    (hclock : ds.Pairwise fun a b => a.checkedAt ≤ b.checkedAt) :
    (∀ i d, r.Dispatched ds i d →
      r.cfg.writerEnabled = true ∧ ∃ pub, r.cfg.publicKey = .ok pub ∧
        (d.cmd.signature ≠ "" ∧ ∃ sig, Encoding.base64Decode (Encoding.utf8 d.cmd.signature)
            = .ok sig ∧ r.env.ed25519Verify pub (d.cmd.signingPayload r.env) sig = true) ∧
        |d.checkedAt - d.cmd.timestamp * 10 ^ 9| ≤ 5 * 60 * 10 ^ 9) ∧
    (∀ i j d e, i < j → r.Dispatched ds i d → r.Dispatched ds j e → d.cmd.nonce = e.cmd.nonce →
      ∃ S : Finset ℕ, S.card = 10000 ∧
        (∀ k ∈ S, i < k ∧ k < j ∧ ∃ f, r.Dispatched ds k f ∧ f.cmd.nonce ≠ d.cmd.nonce) ∧
        ∀ k ∈ S, ∀ l ∈ S, nonceAt ds k = nonceAt ds l → k = l) ∧
    (∀ i j d e, i < j → r.Dispatched ds i d → r.Dispatched ds j e → d.cmd = e.cmd →
      ∃ S : Finset ℕ, S.card = 10000 ∧
        (∀ k ∈ S, i < k ∧ k < j ∧ ∃ f, r.Dispatched ds k f ∧ f.cmd ≠ d.cmd ∧
          |f.checkedAt - d.cmd.timestamp * 10 ^ 9| ≤ 5 * 60 * 10 ^ 9) ∧
        ∀ k ∈ S, ∀ l ∈ S, nonceAt ds k = nonceAt ds l → k = l) := by
  have hguard := fun i d (hd : r.Dispatched ds i d) => checks_eq_none_iff.mp hd.checks
  have hmono : ∀ (i k : ℕ) (d f : Delivery), i < k → r.Dispatched ds i d → r.Dispatched ds k f →
      d.checkedAt ≤ f.checkedAt := by
    intro i k d f hik hd hf
    obtain ⟨hi, rfl⟩ := List.getElem?_eq_some_iff.mp hd.1
    obtain ⟨hk, rfl⟩ := List.getElem?_eq_some_iff.mp hf.1
    exact List.pairwise_iff_getElem.mp hclock i k hi hk hik
  refine ⟨fun i d hd => ?_, fun i j d e hij hi hj hn => ?_, fun i j d e hij hi hj hc => ?_⟩
  · obtain ⟨hw, pub, hpub, hsig, hskew⟩ := hguard i d hd
    exact ⟨hw, pub, hpub, Command.verifySignature_eq_none.mp hsig, hskew⟩
  · exact exists_dispatches_between hij hi hj hn
  · obtain ⟨S, hcard, hS, hinj⟩ := exists_dispatches_between hij hi hj (by rw [hc])
    refine ⟨S, hcard, fun k hk => ?_, hinj⟩
    obtain ⟨hik, hkj, f, hf, hne⟩ := hS k hk
    obtain ⟨-, -, -, -, hskewd⟩ := hguard i d hi
    obtain ⟨-, -, -, -, hskewe⟩ := hguard j e hj
    rw [← hc] at hskewe
    have h1 := hmono i k d f hik hi hf
    have h2 := hmono k j f e hkj hf hj
    refine ⟨hik, hkj, f, hf, fun hfd => hne (by rw [hfd]), ?_⟩
    rw [abs_le] at hskewd hskewe ⊢
    unfold maxClockSkew at hskewd hskewe
    omega

/-- A receiver that trusts the sample key. -/
def sampleReceiver : Receiver := ⟨{ serverPublicKey := samplePublicKey }, sampleEnv⟩

/-- The sample command, delivered a minute after it was signed. -/
def sampleDelivery : Delivery :=
  ⟨.poll, sampleCommand, 1700000060 * 10 ^ 9, 1700000060 * 10 ^ 9⟩

instance (r : Receiver) (ds : List Delivery) (i : ℕ) (d : Delivery) :
    Decidable (r.Dispatched ds i d) :=
  match h : (r.run .init ds)[i]? with
  | none => isFalse fun hd => by
      obtain ⟨-, effs, heffs, -⟩ := hd
      rw [h] at heffs
      cases heffs
  | some effs => decidable_of_iff (ds[i]? = some d ∧ Effect.handleCommand d.cmd ∈ effs) <| by
      simp [Dispatched, h]

/-- The sample command is dispatched once when it is delivered twice, and its dispatch is
guarded. -/
theorem dispatch_guarded_sample :
    sampleReceiver.Dispatched [sampleDelivery, { sampleDelivery with path := .push }] 0
        sampleDelivery ∧
      sampleReceiver.cfg.writerEnabled = true ∧ ∃ pub, sampleReceiver.cfg.publicKey = .ok pub ∧
        (sampleCommand.signature ≠ "" ∧ ∃ sig,
          Encoding.base64Decode (Encoding.utf8 sampleCommand.signature) = .ok sig ∧
          sampleEnv.ed25519Verify pub (sampleCommand.signingPayload sampleEnv) sig = true) ∧
        |sampleDelivery.checkedAt - sampleCommand.timestamp * 10 ^ 9| ≤ 5 * 60 * 10 ^ 9 := by
  have hd : sampleReceiver.Dispatched [sampleDelivery, { sampleDelivery with path := .push }] 0
      sampleDelivery := by decide +kernel
  exact ⟨hd, (dispatch_guarded sampleReceiver
    [sampleDelivery, { sampleDelivery with path := .push }] (by decide)).1 0 sampleDelivery hd⟩

end K8sAgent.Receiver
