import K8sAgent.Receiver.Replay

set_option relaxedAutoImplicit false
set_option autoImplicit false

/-!
# The receiver without bounds

Commands come over two paths, and one command may come over both, any number of times. What this
should mean is said by a receiver that forgets nothing: the first delivery of an ID is checked, and
refused or dispatched; a later one does nothing at all. It has no nonces and no caches. The receiver
of the source has two bounded caches instead, and this module says when it cannot be told from the
one that forgets nothing.

## Main definitions

* `K8sAgent.Receiver.verdict`, `K8sAgent.Receiver.ideal` — the receiver that forgets nothing.

## Main results

* `K8sAgent.Receiver.process_eq_verdict_iff` — one call.
* `K8sAgent.Receiver.run_eq_ideal_iff` — where nonces belong to one ID each, the receiver is the one
  that forgets nothing exactly if no ID comes back after 10,000 new ones.
-/

namespace K8sAgent.Receiver

open FifoWindow

/-! ## The receiver that forgets nothing -/

/-- The effects of a delivery, where `known` are the IDs delivered before. -/
def verdict (r : Receiver) (known : List String) (d : Delivery) : List Effect :=
  if d.cmd.id ∈ known then []
  else match r.checks d.cmd d.checkedAt with
    | some reason => r.refusal d reason
    | none => r.acceptance d

/-- The effects of each of a sequence of deliveries. -/
def ideal (r : Receiver) : List String → List Delivery → List (List Effect)
  | _, [] => []
  | known, d :: ds => r.verdict known d :: ideal r (remember known d.cmd.id) ds

/-- No two IDs of the deliveries share a nonce. -/
def NoncesApart (ds : List Delivery) : Prop :=
  ∀ d ∈ ds, ∀ e ∈ ds, d.cmd.nonce = e.cmd.nonce → d.cmd.id = e.cmd.id

instance (ds : List Delivery) : Decidable (NoncesApart ds) :=
  inferInstanceAs (Decidable (∀ d ∈ ds, ∀ e ∈ ds, d.cmd.nonce = e.cmd.nonce → d.cmd.id = e.cmd.id))

/-! ## One call -/

section Call

variable {r : Receiver} {past : List Delivery} {known : List String} {d : Delivery}

/-- The nonce of an ID that has not been delivered is not in the cache, where nonces belong to one
ID each. -/
lemma lookup_nonce_of_new (hapart : NoncesApart (past ++ [d]))
    (hnew : ∀ e ∈ past, e.cmd.id ≠ d.cmd.id) :
    (r.after .init past).nonces.lookup d.cmd.nonce = false := by
  obtain ⟨-, hrep⟩ := nonces_after r past
  by_contra hseen
  rw [Bool.not_eq_false, hrep.lookup] at hseen
  obtain ⟨i, hi, hnonce⟩ := List.mem_map.mp (mem_of_mem_recent hseen)
  obtain ⟨e, hat, -⟩ := dispatchedAt_iff.mp (List.mem_filter.mp hi).2
  have he : e ∈ past := List.mem_of_getElem? hat
  refine hnew e he (hapart e (by simp [he]) d (by simp) ?_)
  rw [← hnonce, nonceAt, hat]
  rfl

/-- **One call** does what the receiver that forgets nothing does exactly if its ID is new or still
in the window.

**Proof sketch.** A call that finds its ID in the cache does nothing; every other call refuses or
dispatches. So the two differ on an ID that is known but has left the window. On a new ID both run
the same checks, and the nonce cannot be in the cache. -/
theorem process_eq_verdict_iff (hids : (r.after .init past).ids.Represents known)
    (hcap : (r.after .init past).ids.cap = maxIDs)
    (hknown : ∀ id, id ∈ known ↔ ∃ e ∈ past, e.cmd.id = id)
    (hapart : NoncesApart (past ++ [d])) :
    (r.process (r.after .init past) d).2 = r.verdict known d ↔
      (d.cmd.id ∈ known → d.cmd.id ∈ recent maxIDs known) := by
  have hlookup := hids.lookup d.cmd.id
  rw [hcap] at hlookup
  by_cases hmem : d.cmd.id ∈ known
  · rw [verdict, if_pos hmem]
    by_cases hrecent : d.cmd.id ∈ recent maxIDs known
    · rw [process_of_seen (hlookup.mpr hrecent)]
      exact ⟨fun _ _ => hrecent, fun _ => rfl⟩
    · have hmiss : (r.after .init past).ids.lookup d.cmd.id = false := by
        rw [← Bool.not_eq_true, hlookup]
        exact hrecent
      refine ⟨fun hnone => ?_, fun hback => absurd (hback hmem) hrecent⟩
      rcases process_cases r (r.after .init past) d with
        ⟨hid, -⟩ | ⟨-, reason, -, hp⟩ | ⟨-, -, -, hp⟩ | ⟨-, -, -, hp⟩
      · rw [hmiss] at hid
        cases hid
      all_goals
        rw [hp] at hnone
        cases hnone
  · have hnew : ∀ e ∈ past, e.cmd.id ≠ d.cmd.id := fun e he heq =>
      hmem ((hknown d.cmd.id).mpr ⟨e, he, heq⟩)
    have hid := lookup_after_of_new (r := r) hnew
    refine ⟨fun _ hback => absurd hback hmem, fun _ => ?_⟩
    rw [verdict, if_neg hmem]
    cases hc : r.checks d.cmd d.checkedAt with
    | some reason => rw [process_of_checks hid hc]
    | none => rw [process_of_fresh hid hc (lookup_nonce_of_new hapart hnew)]

/-- The IDs known after a call, where the ID came back in time. -/
lemma represents_process (hids : (r.after .init past).ids.Represents known)
    (hcap : (r.after .init past).ids.cap = maxIDs)
    (hprompt : d.cmd.id ∈ known → d.cmd.id ∈ recent maxIDs known) :
    (r.after .init (past ++ [d])).ids.Represents (remember known d.cmd.id) := by
  have hseen := (hids.seen d.cmd.id).2
  rw [hcap, record_eq_remember hprompt] at hseen
  rw [after_append, after, after, ids_process]
  exact hseen

end Call

/-! ## Sequences of calls -/

/-- If `known` are the IDs delivered in `past`, then remembering the ID of `d` gives those of `past
++ [d]`. -/
lemma mem_remember_iff {known : List String} {past : List Delivery} {d : Delivery}
    (hknown : ∀ id, id ∈ known ↔ ∃ e ∈ past, e.cmd.id = id) (id : String) :
    id ∈ remember known d.cmd.id ↔ ∃ e ∈ past ++ [d], e.cmd.id = id := by
  have hsplit : (∃ e ∈ past ++ [d], e.cmd.id = id) ↔ id ∈ known ∨ d.cmd.id = id := by
    simp [hknown, or_and_right, exists_or]
  rw [hsplit, remember]
  split_ifs with hmem
  · exact ⟨.inl, fun h => h.elim (fun h => h) fun heq => heq ▸ hmem⟩
  · simp [eq_comm]

/-- **A sequence of calls `ds` after the calls `past`** is answered as the ideal receiver answers it
exactly if no ID comes back after `maxIDs` others. -/
theorem run_after_eq_ideal_iff (r : Receiver) {past ds : List Delivery} {known : List String}
    (hids : (r.after .init past).ids.Represents known)
    (hknown : ∀ id, id ∈ known ↔ ∃ e ∈ past, e.cmd.id = id) (hapart : NoncesApart (past ++ ds)) :
    r.run (r.after .init past) ds = r.ideal known ds ↔
      Prompt maxIDs known (ds.map (·.cmd.id)) := by
  induction ds generalizing past known with
  | nil => exact ⟨fun _ => trivial, fun _ => rfl⟩
  | cons d ds ih =>
    have hcap := (ids_after r past).1
    have hsub : past ++ [d] ⊆ past ++ d :: ds := by simp
    have hone := process_eq_verdict_iff hids hcap hknown fun e he f hf =>
      hapart e (hsub he) f (hsub hf)
    rw [run, ideal, List.cons.injEq, hone, List.map_cons, Prompt]
    refine and_congr_right fun hprompt => ?_
    have hrest := ih (represents_process hids hcap hprompt) (mem_remember_iff hknown)
      (by rwa [List.append_assoc])
    rwa [after_append] at hrest

/-- **The receiver forgets nothing that matters.** Let the deliveries come in any order over either
path, authentic or not, each as often as it likes, where no two IDs share a nonce. Then every call
has exactly the effects of a receiver that remembers every ID and has no nonces, so that the first
delivery of an ID is refused or dispatched on its own merits and every other one does nothing, if
and only if each ID that comes back is still among the last 10,000 IDs that were new.

**Proof sketch.** By induction on the calls; the ID cache is the window of the IDs in the order of
their first delivery for as long as none has come back late (`process_eq_verdict_iff`,
`represents_process`). -/
theorem run_eq_ideal_iff (r : Receiver) (ds : List Delivery) (hapart : NoncesApart ds) :
    r.run .init ds = r.ideal [] ds ↔ Prompt maxIDs [] (ds.map (·.cmd.id)) :=
  run_after_eq_ideal_iff r (ids_after r []).2 (by simp) hapart

/-- The sample command over both paths and once more over the first, with an unsigned copy under an
ID of its own in between. -/
def repeatedDeliveries : List Delivery :=
  [sampleDelivery, { sampleDelivery with path := .push },
    { sampleDelivery with cmd := { sampleCommand with
        id := "forged", nonce := "n-forged", signature := "" } },
    sampleDelivery]

/-- One of the four deliveries dispatches, and one is refused. -/
theorem run_repeatedDeliveries :
    sampleReceiver.run .init repeatedDeliveries = sampleReceiver.ideal [] repeatedDeliveries ∧
      (sampleReceiver.ideal [] repeatedDeliveries).map List.length = [2, 0, 2, 0] :=
  ⟨(run_eq_ideal_iff sampleReceiver repeatedDeliveries (by decide)).mpr (by decide +kernel),
    by decide +kernel⟩

end K8sAgent.Receiver
