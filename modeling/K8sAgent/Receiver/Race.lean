import K8sAgent.Lib.Interleave
import K8sAgent.Receiver.Replay

set_option relaxedAutoImplicit false
set_option autoImplicit false

/-!
# Two concurrent calls

The poll loop and the WebSocket read loop call `Receiver.process` from two goroutines, and no lock
covers the caches. A call is the sequence of its steps on the shared state: the two halves of each
`seen` (the map lookup and the insertion), the checks in between, which touch no shared state, and
the start of the executor. A schedule names the call that takes the next step: `false` is the call
of the poll loop, `true` the one of the read loop.

## Main definitions

* `K8sAgent.Race.Pc` — where a call is.
* `K8sAgent.Race.step`, `K8sAgent.Race.exec` — one step, and a schedule of steps, of two calls
  that deliver one command.
* `K8sAgent.Race.started` — how many of them have started the executor.

## Main results

* `K8sAgent.Race.exec_alone` — a call that runs alone does what `Receiver.process` does.
* `K8sAgent.Race.started_le_one_iff` — the schedules under which the executor is started at most
  once.
-/

namespace K8sAgent.Race

open Interleave

/-- Where a call of `process` is: the step it takes next, or how it has ended. -/
inductive Pc : Type where
  /-- Look the ID up. -/
  | idsLookup
  /-- Insert the ID. -/
  | idsInsert
  /-- Check writer mode, key, signature and skew. -/
  | checks
  /-- Look the nonce up. -/
  | nonceLookup
  /-- Insert the nonce. -/
  | nonceInsert
  /-- Start the executor. -/
  | dispatch
  /-- Dropped as a repeat. -/
  | dropped
  /-- Refused. -/
  | refused
  /-- The executor has been started. -/
  | dispatched
  deriving DecidableEq

/-- The shared caches and the positions of the two calls. -/
structure Calls where
  /-- The caches. -/
  caches : Caches
  /-- Where each call is. -/
  pc : Bool → Pc

/-- Both calls at their first step. -/
def Calls.start (s : Caches) : Calls := ⟨s, fun _ => .idsLookup⟩

/-- Where a call goes from `p`, with the caches as it finds them and `now` on its clock. -/
def next (r : Receiver) (cmd : Command) (now : ℤ) (s : Caches) : Pc → Pc
  | .idsLookup => if s.ids.lookup cmd.id then .dropped else .idsInsert
  | .idsInsert => .checks
  | .checks => if r.checks cmd now = none then .nonceLookup else .refused
  | .nonceLookup => if s.nonces.lookup cmd.nonce then .refused else .nonceInsert
  | .nonceInsert => .dispatch
  | .dispatch => .dispatched
  | .dropped => .dropped
  | .refused => .refused
  | .dispatched => .dispatched

/-- What the step of a call at `p` does to the caches. -/
def store (cmd : Command) (s : Caches) : Pc → Caches
  | .idsInsert => ⟨s.ids.insert cmd.id, s.nonces⟩
  | .nonceInsert => ⟨s.ids, s.nonces.insert cmd.nonce⟩
  | _ => s

/-- The next step of call `t` of two calls that deliver `cmd`; `now t` is what its clock says. -/
def step (r : Receiver) (cmd : Command) (now : Bool → ℤ) (x : Calls) (t : Bool) : Calls :=
  ⟨store cmd x.caches (x.pc t),
    Function.update x.pc t (next r cmd (now t) x.caches (x.pc t))⟩

/-- The steps of a schedule. -/
def exec (r : Receiver) (cmd : Command) (now : Bool → ℤ) (s : Caches) (σ : List Bool) : Calls :=
  σ.foldl (step r cmd now) (.start s)

/-- How many of the calls have started the executor. -/
def started (x : Calls) : ℕ := [false, true].countP fun t => x.pc t = .dispatched

/-! ## How far a call has got -/

namespace Pc

/-- The steps behind a call: those taken, or those before the lookup or check that turned it
away. -/
def steps : Pc → ℕ
  | idsLookup | dropped => 0
  | idsInsert => 1
  | checks => 2
  | nonceLookup | refused => 3
  | nonceInsert => 4
  | dispatch => 5
  | dispatched => 6

/-- The call was turned away. -/
def ended : Pc → Bool
  | dropped | refused => true
  | _ => false

/-- The call has inserted the ID. -/
def idStored (p : Pc) : Bool := 2 ≤ p.steps

/-- The call has inserted the nonce. -/
def nonceStored (p : Pc) : Bool := 5 ≤ p.steps

/-- A call that was not turned away is where its number of steps says. -/
lemma eq_of_steps {p q : Pc} (hp : p.ended = false) (hq : q.ended = false)
    (h : p.steps = q.steps) : p = q := by
  cases p <;> cases q <;> simp_all [ended, steps]

end Pc

section Next

variable (r : Receiver) (cmd : Command) (now : ℤ) (s : Caches) (p : Pc)

/-- A call that was turned away takes no further step. -/
lemma ended_next (hp : p.ended = true) : next r cmd now s p = p := by
  cases p <;> first | rfl | cases hp

/-- A call that is not turned away advances by one step until it has taken all six. -/
lemma steps_next (hp : (next r cmd now s p).ended = false) :
    (next r cmd now s p).steps = min 6 (p.steps + 1) := by
  cases p <;> simp only [next] at hp ⊢ <;> (try split_ifs at hp ⊢) <;> first | rfl | cases hp

/-- A call never loses a step and never gains two. -/
lemma steps_next_le : (next r cmd now s p).steps ≤ p.steps + 1 := by
  cases p <;> simp only [next] <;> (try split_ifs) <;> decide

lemma idStored_next : (next r cmd now s p).idStored = (p.idStored || p = .idsInsert) := by
  cases p <;> simp only [next] <;> (try split_ifs) <;> rfl

lemma nonceStored_next :
    (next r cmd now s p).nonceStored = (p.nonceStored || p = .nonceInsert) := by
  cases p <;> simp only [next] <;> (try split_ifs) <;> rfl

lemma ids_store :
    (store cmd s p).ids = if p = .idsInsert then s.ids.insert cmd.id else s.ids := by
  cases p <;> rfl

lemma nonces_store :
    (store cmd s p).nonces = if p = .nonceInsert then s.nonces.insert cmd.nonce else s.nonces := by
  cases p <;> rfl

end Next

/-! ## What the caches hold in between -/

/-- A cache that held `c₀` when the calls began: it is `c₀` while neither call has inserted the
value, and `c₀` with the value inserted while exactly one has. -/
structure Written (c₀ c : NonceCache) (v : String) (stored : Bool → Bool) : Prop where
  /-- Nobody has inserted. -/
  none_ : (∀ t, stored t = false) → c = c₀
  /-- One call has inserted. -/
  one : ∀ t, stored t = true → stored (!t) = false → c = c₀.insert v

namespace Written

variable {c₀ c : NonceCache} {v : String} {stored : Bool → Bool}

/-- A step of call `t` keeps the relation: it inserts the value when `p` says so, and it has not
inserted it before. -/
lemma step {t : Bool} {p : Prop} [Decidable p] (h : Written c₀ c v stored)
    (hp : p → stored t = false) :
    Written c₀ (if p then c.insert v else c) v
      (Function.update stored t (stored t || decide p)) := by
  by_cases hb : p
  · have ht := hp hb
    simp only [hb, if_true, decide_true, Bool.or_true]
    refine ⟨fun hall => ?_, fun u hu hother => ?_⟩
    · simpa using hall t
    · by_cases hut : u = t
      · subst hut
        rw [Function.update_of_ne (by simp)] at hother
        rw [h.none_ fun w => ?_]
        by_cases hw : w = u
        · rwa [hw]
        · rwa [Bool.eq_not.mpr hw]
      · have : (!u) = t := by rw [Bool.eq_not.mpr hut, Bool.not_not]
        rw [this, Function.update_self] at hother
        cases hother
  · simp only [hb, if_false, decide_false, Bool.or_false, Function.update_eq_self]
    exact h

/-- A value that one call has inserted is found by the other. -/
lemma lookup_one {hist : List String} {t : Bool} (h : Written c₀ c v stored)
    (hc : c₀.Represents hist) (hfresh : c₀.lookup v = false) (ht : stored t = false)
    (hother : stored (!t) = true) : c.lookup v = true := by
  rw [h.one (!t) hother (by rwa [Bool.not_not])]
  have hnew : v ∉ FifoWindow.recent c₀.cap hist := fun hmem => by
    rw [(hc.lookup v).mpr hmem] at hfresh
    cases hfresh
  have hcap := hc.cap_pos
  rw [(hc.insert hnew).lookup, NonceCache.cap_insert]
  refine FifoWindow.mem_recent.mpr ⟨hist.length, ?_, by simp⟩
  rw [List.length_append, List.length_singleton]
  omega

end Written

/-- Facts of two calls along a schedule. -/
structure Inv (s : Caches) (cmd : Command) (ρ : List Bool) (x : Calls) : Prop where
  /-- A call has taken no more steps than it has entries. -/
  steps_le : ∀ t, (x.pc t).steps ≤ ρ.count t
  /-- A call that was not turned away has used all its entries up to the last step. -/
  steps_eq : ∀ t, (x.pc t).ended = false → (x.pc t).steps = min 6 (ρ.count t)
  /-- The ID cache. -/
  ids : Written s.ids x.caches.ids cmd.id fun t => (x.pc t).idStored
  /-- The nonce cache. -/
  nonces : Written s.nonces x.caches.nonces cmd.nonce fun t => (x.pc t).nonceStored

section Steps

variable {r : Receiver} {cmd : Command} {now : Bool → ℤ} {s : Caches}

/-- The invariant holds of two calls that have not taken a step. -/
lemma inv_start (s : Caches) (cmd : Command) : Inv s cmd [] (.start s) where
  steps_le _ := le_rfl
  steps_eq _ _ := rfl
  ids := ⟨fun _ => rfl, fun _ h => absurd h Bool.false_ne_true⟩
  nonces := ⟨fun _ => rfl, fun _ h => absurd h Bool.false_ne_true⟩

/-- **One step of the call `t` keeps the invariant.** -/
theorem Inv.step {ρ : List Bool} {x : Calls} (h : Inv s cmd ρ x) (t : Bool) :
    Inv s cmd (ρ ++ [t]) (Race.step r cmd now x t) where
  steps_le u := by
    rw [List.count_append, List.count_singleton]
    simp only [Race.step]
    have hle := h.steps_le u
    by_cases hut : u = t
    · subst hut
      have := steps_next_le r cmd (now u) x.caches (x.pc u)
      rw [Function.update_self, BEq.rfl, if_pos rfl]
      omega
    · rw [Function.update_of_ne hut]
      omega
  steps_eq u hu := by
    rw [List.count_append, List.count_singleton]
    simp only [Race.step] at hu ⊢
    by_cases hut : u = t
    · subst hut
      rw [Function.update_self] at hu ⊢
      have hold : (x.pc u).ended = false := by
        by_contra hne
        rw [Bool.not_eq_false] at hne
        rw [ended_next _ _ _ _ _ hne, hne] at hu
        cases hu
      rw [steps_next _ _ _ _ _ hu, h.steps_eq u hold, BEq.rfl, if_pos rfl]
      omega
    · rw [Function.update_of_ne hut] at hu ⊢
      rw [h.steps_eq u hu]
      simp [Ne.symm hut]
  ids := by
    have hw := h.ids.step (t := t) (p := x.pc t = .idsInsert) fun hp => by rw [hp]; rfl
    rw [← ids_store, ← idStored_next r cmd (now t) x.caches] at hw
    rwa [← Function.comp_def Pc.idStored, ← Function.comp_update] at hw
  nonces := by
    have hw := h.nonces.step (t := t) (p := x.pc t = .nonceInsert) fun hp => by rw [hp]; rfl
    rw [← nonces_store, ← nonceStored_next r cmd (now t) x.caches] at hw
    rwa [← Function.comp_def Pc.nonceStored, ← Function.comp_update] at hw

lemma exec_append (σ : List Bool) (t : Bool) :
    exec r cmd now s (σ ++ [t]) = step r cmd now (exec r cmd now s σ) t := by
  simp [exec]

/-- **The invariant holds along every schedule** `σ`. -/
theorem inv_exec (r : Receiver) (cmd : Command) (now : Bool → ℤ) (s : Caches) (σ : List Bool) :
    Inv s cmd σ (exec r cmd now s σ) := by
  induction σ using List.reverseRecOn with
  | nil => exact inv_start s cmd
  | append_singleton σ t ih =>
    rw [exec_append]
    exact ih.step t

/-- The call that takes the step moves on from where it is. -/
lemma pc_exec_append (σ : List Bool) (t : Bool) :
    (exec r cmd now s (σ ++ [t])).pc t =
      next r cmd (now t) (exec r cmd now s σ).caches ((exec r cmd now s σ).pc t) := by
  simp [exec_append, step]

/-- A step leaves the other call where it is. -/
lemma pc_exec_append_of_ne (σ : List Bool) {t u : Bool} (h : u ≠ t) :
    (exec r cmd now s (σ ++ [t])).pc u = (exec r cmd now s σ).pc u := by
  simp [exec_append, step, h]

/-- A call that was turned away stays so. -/
lemma ended_of_isPrefix {ρ σ : List Bool} {t : Bool} (hρ : ρ <+: σ)
    (he : ((exec r cmd now s ρ).pc t).ended = true) :
    ((exec r cmd now s σ).pc t).ended = true := by
  obtain ⟨τ, rfl⟩ := hρ
  induction τ using List.reverseRecOn with
  | nil => rwa [List.append_nil]
  | append_singleton τ u ih =>
    rw [← List.append_assoc]
    by_cases htu : t = u
    · subst htu
      rw [pc_exec_append, ended_next _ _ _ _ _ ih]
      exact ih
    · rwa [pc_exec_append_of_ne _ htu]

/-- While neither call can have inserted the ID, the ID cache is as the calls found it. -/
lemma ids_exec_eq {ρ : List Bool} (h : ∀ t, ((exec r cmd now s ρ).pc t).steps ≤ 1) :
    (exec r cmd now s ρ).caches.ids = s.ids :=
  (inv_exec r cmd now s ρ).ids.none_ fun t => decide_eq_false (by have := h t; omega)

/-- While neither call can have inserted the nonce, the nonce cache is as the calls found it. -/
lemma nonces_exec_eq {ρ : List Bool} (h : ∀ t, ((exec r cmd now s ρ).pc t).steps ≤ 4) :
    (exec r cmd now s ρ).caches.nonces = s.nonces :=
  (inv_exec r cmd now s ρ).nonces.none_ fun t => decide_eq_false (by have := h t; omega)

/-- Neither call gets past the lookup of an ID that was cached before. -/
lemma steps_of_id_seen (hs : s.ids.lookup cmd.id = true) (σ : List Bool) (t : Bool) :
    ((exec r cmd now s σ).pc t).steps = 0 := by
  induction σ using List.reverseRecOn generalizing t with
  | nil => rfl
  | append_singleton σ u ih =>
    by_cases htu : t = u
    · subst htu
      rw [pc_exec_append]
      have hids : (exec r cmd now s σ).caches.ids = s.ids := ids_exec_eq fun t => by
        rw [ih t]
        omega
      have h0 := ih t
      cases hp : (exec r cmd now s σ).pc t <;> rw [hp] at h0 <;>
        simp_all [next, Pc.steps]
    · rw [pc_exec_append_of_ne _ htu]
      exact ih t

/-- Neither call gets past the lookup of a nonce that was cached before. -/
lemma steps_of_nonce_seen (hs : s.nonces.lookup cmd.nonce = true) (σ : List Bool) (t : Bool) :
    ((exec r cmd now s σ).pc t).steps ≤ 3 := by
  induction σ using List.reverseRecOn generalizing t with
  | nil => exact Nat.zero_le 3
  | append_singleton σ u ih =>
    by_cases htu : t = u
    · subst htu
      have hnonces : (exec r cmd now s σ).caches.nonces = s.nonces := nonces_exec_eq fun t => by
        have := ih t
        omega
      have h3 := ih t
      have hle := steps_next_le r cmd (now t) (exec r cmd now s σ).caches
        ((exec r cmd now s σ).pc t)
      rw [pc_exec_append]
      cases hp : (exec r cmd now s σ).pc t <;> rw [hp] at h3 hle <;>
        first
          | (simp only [Pc.steps] at h3 hle ⊢; omega)
          | simp [next, hnonces, hs, Pc.steps]
    · rw [pc_exec_append_of_ne _ htu]
      exact ih t

end Steps

/-! ## When both calls start the executor -/

section Both

variable {r : Receiver} {cmd : Command} {now : Bool → ℤ} {s : Caches} {σ : List Bool}

/-- Both calls stay on their way along the whole schedule. -/
def OnTheWay (r : Receiver) (cmd : Command) (now : Bool → ℤ) (s : Caches) (σ : List Bool) : Prop :=
  ∀ ρ, ρ <+: σ → ∀ t, ((exec r cmd now s ρ).pc t).ended = false

/-- A call on its way is at the step its entries say. -/
lemma OnTheWay.pc_eq (h : OnTheWay r cmd now s σ) {ρ : List Bool} (hρ : ρ <+: σ) {t : Bool}
    {p : Pc} (hp : p.ended = false) (hcount : p.steps = min 6 (ρ.count t)) :
    (exec r cmd now s ρ).pc t = p := by
  have hne := h ρ hρ t
  exact Pc.eq_of_steps hne hp (by rw [(inv_exec r cmd now s ρ).steps_eq t hne, hcount])

/-- **Calls on their way meet** after a step at which a call is turned away once the other is two
steps ahead. -/
theorem OnTheWay.meets (h : OnTheWay r cmd now s σ) {p : Pc} (hp : p.ended = false)
    (hearly : p.steps ≤ 4) (hall : ∀ t, p.steps + 1 ≤ σ.count t)
    (hturned : ∀ ρ t, (exec r cmd now s ρ).pc t = p →
      p.steps + 2 ≤ ((exec r cmd now s ρ).pc (!t)).steps →
      (next r cmd (now t) (exec r cmd now s ρ).caches p).ended = true) :
    Meets σ (p.steps + 1) := by
  refine (meets_iff hall).mpr fun ρ t hρ hcount => ?_
  have hρ' := (List.prefix_append ρ [t]).trans hρ
  have hpc : (exec r cmd now s ρ).pc t = p := h.pc_eq hρ' hp (by omega)
  by_contra hmore
  have hother := (inv_exec r cmd now s ρ).steps_eq (!t) (h ρ hρ' (!t))
  have hended := hturned ρ t hpc (by omega)
  rw [← hpc, ← pc_exec_append, h _ hρ t] at hended
  cases hended

/-- Calls that are both on their way passed the checks, and each found neither ID nor nonce: when
one looked a value up, the other had not inserted it. -/
lemma OnTheWay.necessary {hi hn : List String} (hids : s.ids.Represents hi)
    (hnonces : s.nonces.Represents hn) (h : OnTheWay r cmd now s σ)
    (hall : ∀ t, 6 ≤ σ.count t) :
    s.ids.lookup cmd.id = false ∧ s.nonces.lookup cmd.nonce = false ∧
      (∀ t, r.checks cmd (now t) = none) ∧ Meets σ 1 ∧ Meets σ 4 := by
  have hend : ∀ t, (exec r cmd now s σ).pc t = .dispatched := fun t =>
    h.pc_eq List.prefix_rfl rfl (by have := hall t; simp only [Pc.steps]; omega)
  have hfreshId : s.ids.lookup cmd.id = false := by
    by_contra hseen
    have hsteps : ((exec r cmd now s σ).pc true).steps = 0 :=
      steps_of_id_seen (by simpa using hseen) σ true
    rw [hend true] at hsteps
    cases hsteps
  have hfreshNonce : s.nonces.lookup cmd.nonce = false := by
    by_contra hseen
    have hsteps : ((exec r cmd now s σ).pc true).steps ≤ 3 :=
      steps_of_nonce_seen (by simpa using hseen) σ true
    rw [hend true] at hsteps
    exact absurd hsteps (by decide)
  refine ⟨hfreshId, hfreshNonce, fun t => ?_, ?_, ?_⟩
  · obtain ⟨ρ, hρ, hcount⟩ := exists_step (show 2 < σ.count t by have := hall t; omega)
    have hpc : (exec r cmd now s ρ).pc t = .checks :=
      h.pc_eq ((List.prefix_append ρ [t]).trans hρ) rfl (by rw [hcount]; rfl)
    have hne := h _ hρ t
    rw [pc_exec_append, hpc] at hne
    by_contra hc
    simp [next, hc, Pc.ended] at hne
  -- a call that looks a value up after the other has inserted it finds it
  · refine h.meets (p := .idsLookup) rfl (by decide) (fun t => (hall t).trans' (by decide))
      fun ρ t hpc hother => ?_
    have hfound := (inv_exec r cmd now s ρ).ids.lookup_one hids hfreshId (t := t)
      (by rw [hpc]; rfl) (decide_eq_true hother)
    simp [next, hfound, Pc.ended]
  · refine h.meets (p := .nonceLookup) rfl (by decide) (fun t => (hall t).trans' (by decide))
      fun ρ t hpc hother => ?_
    have hfound := (inv_exec r cmd now s ρ).nonces.lookup_one hnonces hfreshNonce (t := t)
      (by rw [hpc]; rfl) (decide_eq_true hother)
    simp [next, hfound, Pc.ended]

/-- Where calls meet after a step, neither is further when the other takes it. -/
lemma steps_le_of_meets {ρ : List Bool} {t : Bool} {k : ℕ} (hm : Meets σ k)
    (hρ : ρ ++ [t] <+: σ) (hcount : ρ.count t + 1 = k) (u : Bool) :
    ((exec r cmd now s ρ).pc u).steps ≤ k := by
  have hle := (inv_exec r cmd now s ρ).steps_le u
  by_cases hu : u = t
  · subst hu
    omega
  · have hother := (meets_iff hm.le_count).mp hm ρ t hρ hcount
    rw [← Bool.eq_not.mpr hu] at hother
    omega

/-- Calls that pass the checks and find neither ID nor nonce at the beginning stay on their way
when they meet after the first step and after the fourth: neither then looks a value up after the
other has inserted it. -/
lemma onTheWay_of_meets (hid : s.ids.lookup cmd.id = false)
    (hnonce : s.nonces.lookup cmd.nonce = false) (hchecks : ∀ t, r.checks cmd (now t) = none)
    (h1 : Meets σ 1) (h4 : Meets σ 4) : OnTheWay r cmd now s σ := by
  intro ρ
  induction ρ using List.reverseRecOn with
  | nil => exact fun _ _ => rfl
  | append_singleton ρ t ih =>
    intro hρ u
    have hρ' := (List.prefix_append ρ [t]).trans hρ
    by_cases hut : u = t
    · subst hut
      have hsteps := (inv_exec r cmd now s ρ).steps_eq u (ih hρ' u)
      rw [pc_exec_append]
      cases hp : (exec r cmd now s ρ).pc u with
      | idsLookup =>
        rw [hp] at hsteps
        simp only [Pc.steps] at hsteps
        rw [next, ids_exec_eq (steps_le_of_meets h1 hρ (by omega)), hid]
        rfl
      | nonceLookup =>
        rw [hp] at hsteps
        simp only [Pc.steps] at hsteps
        rw [next, nonces_exec_eq (steps_le_of_meets h4 hρ (by omega)), hnonce]
        rfl
      | checks => simp [next, hchecks, Pc.ended]
      | idsInsert | nonceInsert | dispatch | dispatched => rfl
      | dropped | refused => simpa [hp, Pc.ended] using ih hρ' u
    · rw [pc_exec_append_of_ne _ hut]
      exact ih hρ' u

/-- The executor is started at most once unless both calls start it. -/
lemma started_le_one {x : Calls} : started x ≤ 1 ↔ ¬∀ t, x.pc t = .dispatched := by
  by_cases hf : x.pc false = .dispatched <;> by_cases ht : x.pc true = .dispatched <;>
    simp [started, hf, ht]

end Both

/-- **When two concurrent deliveries of one command start the executor at most once.** After any
earlier deliveries, two calls deliver `cmd`. Under a schedule of their steps the executor is
started twice exactly when the command passes the checks at both clock readings, neither its ID
nor its nonce is cached when the calls begin, both calls look the ID up before either has inserted
it, both look the nonce up before either has inserted it, and both get to their last step.

**Proof sketch.** A call on its way is at the step its number of entries says (`Inv`), so "before
either has inserted it" says that the calls meet after their first, respectively their fourth
step. If they do, each lookup sees the caches as the calls found them
(`onTheWay_of_meets`); if they do not, one of them looks the value up while the other, and only
the other, has inserted it, and finds it (`OnTheWay.necessary`). -/
theorem started_le_one_iff (r : Receiver) (ds : List Delivery) (cmd : Command) (now : Bool → ℤ)
    (σ : List Bool) :
    started (exec r cmd now (r.after .init ds) σ) ≤ 1 ↔
      ¬((∀ t, r.checks cmd (now t) = none) ∧
        (r.after .init ds).ids.lookup cmd.id = false ∧
        (r.after .init ds).nonces.lookup cmd.nonce = false ∧
        Meets σ 1 ∧ Meets σ 4 ∧ ∀ t, 6 ≤ σ.count t) := by
  rw [started_le_one, not_iff_not]
  constructor
  · intro hd
    have hway : OnTheWay r cmd now (r.after .init ds) σ := by
      intro ρ hρ t
      by_contra hne
      have := ended_of_isPrefix hρ (by simpa using hne)
      rw [hd t] at this
      cases this
    have hall : ∀ t, 6 ≤ σ.count t := fun t => by
      have := (inv_exec r cmd now (r.after .init ds) σ).steps_le t
      rwa [hd t] at this
    obtain ⟨hid, hnonce, hchecks, h1, h4⟩ :=
      hway.necessary (r.ids_after ds).2 (r.nonces_after ds).2 hall
    exact ⟨hchecks, hid, hnonce, h1, h4, hall⟩
  · rintro ⟨hchecks, hid, hnonce, h1, h4, hall⟩ t
    refine (onTheWay_of_meets hid hnonce hchecks h1 h4).pc_eq List.prefix_rfl rfl ?_
    have := hall t
    simp only [Pc.steps]
    omega

/-- The signed sample command, delivered over both paths at once with the two calls taking turns,
starts the executor twice. -/
theorem started_twice :
    (∀ t, Receiver.sampleReceiver.checks sampleCommand
      (bif t then 1700000061 * 10 ^ 9 else 1700000060 * 10 ^ 9) = none) ∧
    started (exec Receiver.sampleReceiver sampleCommand
      (fun t => bif t then 1700000061 * 10 ^ 9 else 1700000060 * 10 ^ 9) .init
      [false, true, false, true, false, true, false, true, false, true, false, true]) = 2 := by
  decide +kernel

/-! ## One call alone -/

/-- **A call that runs alone is `process`**: it leaves the same caches, and it starts the executor
when `process` does. -/
theorem exec_alone (r : Receiver) (s : Caches) (d : Delivery) (now : Bool → ℤ) (t : Bool)
    (hnow : now t = d.checkedAt) :
    (exec r d.cmd now s (List.replicate 6 t)).caches = (r.process s d).1 ∧
      ((exec r d.cmd now s (List.replicate 6 t)).pc t = .dispatched ↔
        Effect.handleCommand d.cmd ∈ (r.process s d).2) := by
  rw [Receiver.handleCommand_mem_process]
  obtain ⟨hid, hp⟩ | ⟨hid, reason, hc, hp⟩ | ⟨hid, hc, hn, hp⟩ | ⟨hid, hc, hn, hp⟩ :=
    Receiver.process_cases r s d
  · rw [hp]
    simp [exec, List.replicate, Calls.start, step, store, next, hid]
  · rw [hp]
    simp [exec, List.replicate, Calls.start, step, store, next, hid, hnow, hc]
  · rw [hp]
    simp [exec, List.replicate, Calls.start, step, store, next, hid, hnow, hc, hn]
  · rw [hp]
    simp [exec, List.replicate, Calls.start, step, store, next, hid, hnow, hc, hn]

end K8sAgent.Race
