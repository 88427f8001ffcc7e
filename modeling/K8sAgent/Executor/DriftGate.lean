import K8sAgent.Lib.Transition
import K8sAgent.Lib.VersionedStore
import K8sAgent.Executor.Outcomes

set_option relaxedAutoImplicit false
set_option autoImplicit false

/-!
# The drift gate against other writers

The calls of a command interleaved with writes of other actors. The cluster keeps the versions of
its objects: what is stored gets a resource version that the object has not had before, and an
update that carries a resource version is rejected unless that version is live. Patches and deletes
act on whatever is live.

`apply` passes on the resource version of the object it has checked, so what it replaces is what it
has checked. `patch` and `delete` do not: a version stored between the check and the call is
patched or removed unchecked.

## Main definitions

* `K8sAgent.Executor.World`, `step` — the command, the cluster and the other actors.
* `K8sAgent.Executor.Window` — the target has been read and passed, and nothing has been written.
* `K8sAgent.Executor.Calm` — other actors store only undrifted versions of the target in the window.

## Main results

* `K8sAgent.Executor.serve_spec` — what answering a call can do to the cluster.
* `K8sAgent.Executor.gate_effective` — in a calm run every version the command replaces, patches or
  removes has the expected hash.
-/

namespace K8sAgent.Executor

open Encoding JsonTree Interaction VersionedStore Transition

/-! ## The cluster -/

/-- Where an object is kept. -/
abbrev Key : Type := ResourceInterface × String

/-- The resource version of an object, if it has one. -/
def versionOf (obj : Object) : Option String :=
  if getResourceVersion obj = "" then none else some (getResourceVersion obj)

/-- The objects of a cluster with their versions. -/
abbrev ObjectStore : Type := Store Key Object String versionOf

/-- The answers a read can get: the live object, or any error. -/
def readable (st : ObjectStore) (k : Key) : Except ApiError Object → Bool
  | .ok obj => k.2 ≠ "" && st.live k = some obj
  | .error (.notFound _) => k.2 ≠ ""
  | .error (.other _) => true

/-- Replace the live object of a key, where there is one that the request accepts. -/
def replace (st : ObjectStore) (k : Key) (accepts : Object → Bool) (obj : Object) :
    Option (ObjectStore × Option Object) :=
  match st.live k with
  | none => none
  | some old => if accepts old then (st.put? k obj).map (·, some old) else none

/-- Answer a request. A write takes effect, and then stores the given version, or it does not; the
answer may say so or be lost. Returned are the cluster and the version replaced, patched or
removed. -/
def serve (st : ObjectStore) (effect : Option Object) :
    (op : Op) → Ans op → Option (ObjectStore × Option Object)
  | .get ri name, ans => if readable st (ri, name) ans then some (st, none) else none
  | .create ri body false, _ => match effect with
    | none => some (st, none)
    | some obj =>
      if st.live (ri, getName body) = none then (st.put? (ri, getName body) obj).map (·, none)
      else none
  | .update ri body false, _ => match effect with
    | none => some (st, none)
    -- a stale resource version is rejected
    | some obj => replace st (ri, getName body)
        (fun old => versionOf body = none ∨ versionOf body = versionOf old) obj
  | .patch ri name _ _ false, _ => match effect with
    | none => some (st, none)
    | some obj => replace st (ri, name) (fun _ => true) obj
  | .delete ri name false, _ => match effect, st.live (ri, name) with
    | none, _ => some (st, none)
    | some _, none => none
    | some _, some old => some (st.remove (ri, name), some old)
  | _, _ => some (st, none)

/-! ## The command and the other actors -/

/-- The command among other actors. -/
structure World where
  /-- The cluster. -/
  store : ObjectStore
  /-- What the command has still to do. -/
  todo : Cmd Exit
  /-- The requests it has made, with their answers. -/
  hist : List Ev := []
  /-- The versions it has replaced, patched or removed. -/
  replaced : List Object := []

/-- What can happen next. -/
inductive Act : Type where
  /-- Another actor stores a version of an object. -/
  | write (k : Key) (obj : Object)
  /-- Another actor removes an object. -/
  | remove (k : Key)
  /-- The next request of the command is answered; if it is a write that takes effect, `effect` is
  the version it stores. -/
  | answer (σ : ∀ op, Ans op) (effect : Option Object)

/-- Whether a request that replaces an object counts: every one does but for the patch that only
records the hash, which follows the patch of the payload. -/
def counts (hist : List Ev) : Op → Bool
  | .patch _ _ _ _ _ => hist.all fun e => !e.op.isWrite
  | _ => true

/-- One step; `none` where the cluster does not admit it. -/
def step (w : World) : Act → Option World
  | .write k obj => (w.store.put? k obj).map fun st => { w with store := st }
  | .remove k => some { w with store := w.store.remove k }
  | .answer σ effect => match w.todo with
    | .done _ => none
    | .ask op next => (serve w.store effect op (σ op)).map fun r =>
      { store := r.1
        todo := next (σ op)
        hist := w.hist ++ [⟨op, σ op⟩]
        replaced := w.replaced ++ if counts w.hist op then r.2.toList else [] }

/-- The object `patch` and `delete` act on. -/
def targetKey (cmd : Command) : Key := (targetInterface cmd, cmd.target.name)

/-- The window between check and write: the target has been read and has the expected hash, and
nothing has been written. `apply` has no such window. -/
def Window (x : Executor) (cmd : Command) (hist : List Ev) : Prop :=
  cmd.verb ≠ verbApply ∧ NoWrite hist ∧
    ∃ live, Drift.hashObject x.env live = cmd.expectedHash ∧
      hist.filter (·.op.isGet) = [⟨.get (targetInterface cmd) cmd.target.name, .ok live⟩]

/-- In the window, other actors store only versions of the target with the expected hash. -/
def Calm (x : Executor) (cmd : Command) (w : World) : Act → Prop
  | .write k obj => x.Window cmd w.hist → k = targetKey cmd →
      Drift.hashObject x.env obj = cmd.expectedHash
  | _ => True

/-! ## What an answer does -/

/-- The version a request replaces, patches or removes. -/
def Replaces (st : ObjectStore) (old : Object) : Op → Prop
  | .update ri body false => st.live (ri, getName body) = some old ∧
      (versionOf body = none ∨ versionOf body = versionOf old)
  | .patch ri name _ _ false => st.live (ri, name) = some old
  | .delete ri name false => st.live (ri, name) = some old
  | _ => False

/-- The object a write changes. -/
def changedKey : Op → Option Key
  | .create ri body false => some (ri, getName body)
  | .update ri body false => some (ri, getName body)
  | .patch ri name _ _ false => some (ri, name)
  | .delete ri name false => some (ri, name)
  | _ => none

section Serve

variable {st st' : ObjectStore} {effect : Option Object} {r : Option Object}

lemma replace_eq_some {k : Key} {accepts : Object → Bool} {obj : Object}
    (h : replace st k accepts obj = some (st', r)) :
    ∃ old, st.live k = some old ∧ accepts old = true ∧ st.put? k obj = some st' ∧ r = some old := by
  unfold replace at h
  split at h
  · cases h
  next old hold =>
    split_ifs at h with hacc
    obtain ⟨st₁, hput, heq⟩ := Option.map_eq_some_iff.mp h
    cases heq
    exact ⟨old, hold, hacc, hput, rfl⟩

/-- A request that changes no object leaves the cluster as it is; if it is a read, it was answered
with the live object. -/
lemma serve_unchanged {op : Op} {ans : Ans op}
    (hkey : (effect.bind fun _ => changedKey op) = none)
    (h : serve st effect op ans = some (st', r)) :
    st' = st ∧ r = none ∧
      ∀ ri name obj, (⟨op, ans⟩ : Ev) = ⟨.get ri name, .ok obj⟩ →
        st.live (ri, name) = some obj := by
  have hidle : op.isGet = false → some (st, none) = some (st', r) → st' = st ∧ r = none ∧
      ∀ ri name obj, (⟨op, ans⟩ : Ev) = ⟨.get ri name, .ok obj⟩ →
        st.live (ri, name) = some obj := by
    intro hget heq
    cases heq
    refine ⟨rfl, rfl, fun ri name obj he => ?_⟩
    have hop : op = .get ri name := congrArg Event.op he
    rw [hop] at hget
    cases hget
  cases op with
  | get ri name =>
    simp only [serve] at h
    split_ifs at h with hread
    cases h
    refine ⟨rfl, rfl, fun ri' name' obj he => ?_⟩
    cases he
    simp only [readable, Bool.and_eq_true, decide_eq_true_eq] at hread
    exact hread.2
  | create ri body dryRun
  | update ri body dryRun
  | patch ri name pt data dryRun
  | delete ri name dryRun =>
    -- a dry run, or a write without effect
    cases dryRun with
    | true => exact hidle rfl h
    | false =>
      cases effect with
      | none => exact hidle rfl h
      | some obj => cases hkey
  | _ => exact hidle rfl h

/-- A request that changes an object is a write. -/
lemma isWrite_of_changedKey {op : Op} {k : Key} (h : changedKey op = some k) :
    op.isWrite = true := by
  cases op with
  | create _ _ dryRun | update _ _ dryRun | delete _ _ dryRun | patch _ _ _ _ dryRun =>
    cases dryRun with
    | true => cases h
    | false => rfl
  | _ => cases h

/-- A write that takes effect changes its object, and what it replaces was live. -/
lemma serve_changed {op : Op} {ans : Ans op} {obj : Object} {k : Key}
    (hkey : changedKey op = some k) (h : serve st (some obj) op ans = some (st', r)) :
    (st' = st.remove k ∨ st.put? k obj = some st') ∧ ∀ old, r = some old → Replaces st old op := by
  cases Op.writes_of_isWrite (isWrite_of_changedKey hkey) with
  | create ri body =>
    cases hkey
    simp only [serve] at h
    split_ifs at h
    obtain ⟨st₁, hput, heq⟩ := Option.map_eq_some_iff.mp h
    cases heq
    exact ⟨.inr hput, fun old hold => by cases hold⟩
  | update ri body =>
    cases hkey
    obtain ⟨old, hlive, hacc, hput, rfl⟩ := replace_eq_some h
    refine ⟨.inr hput, fun old' hold => ?_⟩
    cases hold
    exact ⟨hlive, of_decide_eq_true hacc⟩
  | patch ri name pt data =>
    cases hkey
    obtain ⟨old, hlive, -, hput, rfl⟩ := replace_eq_some h
    refine ⟨.inr hput, fun old' hold => ?_⟩
    cases hold
    exact hlive
  | delete ri name =>
    cases hkey
    simp only [serve] at h
    split at h
    next heq => cases heq
    next => cases h
    next old heq hlive =>
      cases h
      refine ⟨.inl rfl, fun old' hold => ?_⟩
      cases hold
      exact hlive
  | _ => cases hkey

/-- **What answering a request does.** Either nothing, and then a read was answered with the live
object; or the request is a write that takes effect on its object, and what it replaces was
live. -/
theorem serve_spec {op : Op} {ans : Ans op} (h : serve st effect op ans = some (st', r)) :
    (st' = st ∧ r = none ∧ (effect.bind fun _ => changedKey op) = none ∧
      ∀ ri name obj, (⟨op, ans⟩ : Ev) = ⟨.get ri name, .ok obj⟩ → st.live (ri, name) = some obj) ∨
    ∃ k, (effect.bind fun _ => changedKey op) = some k ∧
      (st' = st.remove k ∨ ∃ obj, st.put? k obj = some st') ∧
      ∀ old, r = some old → Replaces st old op := by
  cases hkey : effect.bind fun _ => changedKey op with
  | none =>
    obtain ⟨hst, hr, hread⟩ := serve_unchanged hkey h
    exact .inl ⟨hst, hr, rfl, hread⟩
  | some k =>
    obtain ⟨obj, rfl, hk⟩ := Option.bind_eq_some_iff.mp hkey
    obtain ⟨hst, hold⟩ := serve_changed hk h
    exact .inr ⟨k, rfl, hst.imp_right fun hput => ⟨obj, hput⟩, hold⟩

/-- What answering a request means for what has been stored: nothing is forgotten. -/
lemma serve_cases {op : Op} {ans : Ans op} (h : serve st effect op ans = some (st', r)) :
    (st' = st ∧ r = none ∧ ∀ ri name obj, (⟨op, ans⟩ : Ev) = ⟨.get ri name, .ok obj⟩ →
      st.live (ri, name) = some obj) ∨
    (op.isWrite = true ∧ (∀ k obj, obj ∈ st.past k → obj ∈ st'.past k) ∧
      ∀ old, r = some old → Replaces st old op) := by
  rcases serve_spec h with ⟨hst, hr, -, hread⟩ | ⟨k, hkey, hst, hrep⟩
  · exact .inl ⟨hst, hr, hread⟩
  · obtain ⟨-, -, hkey⟩ := Option.bind_eq_some_iff.mp hkey
    refine .inr ⟨isWrite_of_changedKey hkey, fun k' obj hobj => ?_, hrep⟩
    rcases hst with rfl | ⟨v, hput⟩
    · exact hobj
    · exact Store.past_put? hput hobj

/-- The answers that the cluster `serve`s are lawful. -/
lemma lawful_of_serve {op : Op} {ans : Ans op} (h : serve st effect op ans = some (st', r)) :
    Lawful op ans := by
  cases op with
  | get ri name =>
    rintro rfl
    simp only [serve] at h
    split_ifs at h with hread
    match ans with
    | .error (.other msg) => exact ⟨msg, rfl⟩
    | .error (.notFound msg) => simp [readable] at hread
    | .ok obj => simp [readable] at hread
  | _ => trivial

end Serve

/-! ## Invariant -/

/-- What holds of the command among other actors, as long as these are calm. -/
structure Inv (x : Executor) (fuel : ℕ) (cmd : Command) (w : World) : Prop where
  /-- What has been done and what is left is a run of the command. -/
  reaches : Reaches (x.handleCommand fuel cmd) w.hist w.todo
  /-- Answers have been lawful. -/
  lawful : ∀ e ∈ w.hist, Lawful e.op e.ans
  /-- What has been read has been stored. -/
  read : ∀ ri name obj, (⟨.get ri name, .ok obj⟩ : Ev) ∈ w.hist → obj ∈ w.store.past (ri, name)
  /-- In the window, the target has the expected hash if it exists. -/
  window : x.Window cmd w.hist → ∀ obj, w.store.live (targetKey cmd) = some obj →
    Drift.hashObject x.env obj = cmd.expectedHash
  /-- What has been replaced had the expected hash. -/
  replaced : ∀ obj ∈ w.replaced, Drift.hashObject x.env obj = cmd.expectedHash

section Invariant

variable {x : Executor} {fuel : ℕ} {cmd : Command} {w w' : World}

/-- The next request of the command is allowed. -/
lemma Inv.allowed (hinv : Inv x fuel cmd w) {op : Op} {next : Ans op → Cmd Exit}
    (htodo : w.todo = .ask op next) : x.Allowed cmd w.hist op := by
  have hr := hinv.reaches
  rw [htodo] at hr
  have hwp := wp_reaches (handleCommand_allowed x fuel cmd) hr hinv.lawful
  rw [List.nil_append] at hwp
  exact hwp.1

/-- A target that has been checked before anything was written is in the window. -/
lemma window_of_targetChecked (hgated : x.Gated cmd) (hverb : cmd.verb ≠ verbApply)
    (hnw : NoWrite w.hist) (hchecked : x.TargetChecked cmd w.hist) : x.Window cmd w.hist := by
  obtain ⟨live, hg, hget⟩ := hchecked
  exact ⟨hverb, hnw, live, hg hgated, hget⟩

/-- **What an allowed request replaces has the expected hash.** An update carries the version of an
object that was checked; a patch of the payload and a delete come in the window. -/
theorem Inv.hash_of_replaces (hinv : Inv x fuel cmd w) (hgated : x.Gated cmd) {op : Op}
    {old : Object} (hw : op.isWrite = true) (hall : x.Allowed cmd w.hist op)
    (hcounts : counts w.hist op = true) (hrep : Replaces w.store old op) :
    Drift.hashObject x.env old = cmd.expectedHash := by
  cases Op.writes_of_isWrite hw with
  | update ri body =>
    obtain ⟨-, -, live, hg, hget, hversion⟩ := hall.write
    obtain ⟨hold, htag⟩ := hrep
    have hbody : versionOf body = versionOf live := by rw [versionOf, hversion, versionOf]
    rw [hbody] at htag
    rw [Store.eq_live_of_tag hold (hinv.read _ _ _ hget) htag]
    exact hg hgated
  | patch ri name pt data =>
    obtain ⟨hverb, -, -, rfl, rfl, hchecked⟩ := hall.write
    have hnw : NoWrite w.hist := fun e he => by
      simpa using List.all_eq_true.mp hcounts e he
    have hne : cmd.verb ≠ verbApply := by rw [hverb]; decide
    exact hinv.window (window_of_targetChecked hgated hne hnw (hchecked hnw)) old hrep
  | delete ri name =>
    obtain ⟨hverb, -, rfl, rfl, hnw, hchecked⟩ := hall.write
    have hne : cmd.verb ≠ verbApply := by rw [hverb]; decide
    exact hinv.window (window_of_targetChecked hgated hne hnw hchecked) old hrep
  | _ => exact hrep.elim

/-- A window that is open after a request was open before it, or the request has opened it by
reading the target. -/
lemma window_append {hist : List Ev} {e : Ev} (hwin : x.Window cmd (hist ++ [e])) :
    e.op.isWrite = false ∧ (x.Window cmd hist ∨
      ∃ live, Drift.hashObject x.env live = cmd.expectedHash ∧
        e = ⟨.get (targetInterface cmd) cmd.target.name, .ok live⟩) := by
  obtain ⟨hverb, hnw, live, hhash, hget⟩ := hwin
  refine ⟨hnw e (by simp), ?_⟩
  have hnw' : NoWrite hist := fun e' he' => hnw e' (by simp [he'])
  rw [List.filter_append] at hget
  rcases List.append_eq_singleton_iff.mp hget with ⟨-, hlast⟩ | ⟨hbefore, -⟩
  · have hmem : (⟨.get (targetInterface cmd) cmd.target.name, .ok live⟩ : Ev) ∈
        [e].filter (·.op.isGet) := by simp [hlast]
    exact .inr ⟨live, hhash, (List.mem_singleton.mp (List.mem_of_mem_filter hmem)).symm⟩
  · exact .inl ⟨hverb, hnw', live, hhash, hbefore⟩

/-- **A version stored by another actor** keeps the invariant, if the step is calm. -/
theorem Inv.write (hinv : Inv x fuel cmd w) {k : Key} {obj : Object}
    (hcalm : x.Calm cmd w (.write k obj)) {st : ObjectStore} (hput : w.store.put? k obj = some st) :
    Inv x fuel cmd { w with store := st } where
  reaches := hinv.reaches
  lawful := hinv.lawful
  read ri name o ho := Store.past_put? hput (hinv.read ri name o ho)
  window hwin o ho := by
    rcases Store.live_put? hput ho with ⟨hk, rfl⟩ | ⟨-, hlive⟩
    · exact hcalm hwin hk.symm
    · exact hinv.window hwin o hlive
  replaced := hinv.replaced

/-- **A removal by another actor** keeps the invariant. -/
theorem Inv.remove (hinv : Inv x fuel cmd w) (k : Key) :
    Inv x fuel cmd { w with store := w.store.remove k } where
  reaches := hinv.reaches
  lawful := hinv.lawful
  read := hinv.read
  window hwin o ho := hinv.window hwin o (Store.live_of_live_remove ho)
  replaced := hinv.replaced

/-- **An answer to the command** keeps the invariant. -/
theorem Inv.answer (hinv : Inv x fuel cmd w) (hgated : x.Gated cmd) {op : Op}
    {next : Ans op → Cmd Exit} (htodo : w.todo = .ask op next) {ans : Ans op}
    {effect r : Option Object} {st : ObjectStore}
    (hserve : serve w.store effect op ans = some (st, r)) :
    Inv x fuel cmd
      { store := st
        todo := next ans
        hist := w.hist ++ [⟨op, ans⟩]
        replaced := w.replaced ++ if counts w.hist op then r.toList else [] } where
  reaches := .step (htodo ▸ hinv.reaches) ans
  lawful e he := by
    rcases List.mem_append.mp he with he | he
    · exact hinv.lawful e he
    · rw [List.mem_singleton.mp he]
      exact lawful_of_serve hserve
  read ri name obj hobj := by
    rcases List.mem_append.mp hobj with hobj | hobj
    · have hpast := hinv.read ri name obj hobj
      rcases serve_cases hserve with ⟨rfl, -⟩ | ⟨-, hmono, -⟩
      · exact hpast
      · exact hmono _ _ hpast
    · have he := (List.mem_singleton.mp hobj).symm
      rcases serve_cases hserve with ⟨rfl, -, hread⟩ | ⟨hw, -⟩
      · exact Store.live_mem _ (hread ri name obj he)
      · have hop : op = .get ri name := congrArg Event.op he
        rw [hop] at hw
        cases hw
  window hwin obj hobj := by
    obtain ⟨hnw, hbefore⟩ := window_append hwin
    rcases serve_cases hserve with ⟨rfl, -, hread⟩ | ⟨hw, -⟩
    · rcases hbefore with hbefore | ⟨live, hhash, he⟩
      · exact hinv.window hbefore obj hobj
      · -- the request has just read the target
        have hlive := hread _ _ _ he
        rw [targetKey, hlive] at hobj
        cases hobj
        exact hhash
    · rw [hw] at hnw
      cases hnw
  replaced obj hobj := by
    rcases List.mem_append.mp hobj with hobj | hobj
    · exact hinv.replaced obj hobj
    · split_ifs at hobj with hcounts
      · have hr : r = some obj := by simpa using hobj
        rcases serve_cases hserve with ⟨-, hnone, -⟩ | ⟨hw, -, hrep⟩
        · rw [hnone] at hr
          cases hr
        · exact hinv.hash_of_replaces hgated hw (hinv.allowed htodo) hcounts (hrep obj hr)
      · cases hobj

/-- **A calm step keeps the invariant**: between the check and the write of a gated command, others
store only versions of the target with the expected hash. -/
theorem Inv.step (hinv : Inv x fuel cmd w) (hgated : x.Gated cmd) {act : Act}
    (hcalm : x.Calm cmd w act) (hstep : step w act = some w') : Inv x fuel cmd w' := by
  cases act with
  | write k obj =>
    obtain ⟨st, hput, rfl⟩ := Option.map_eq_some_iff.mp hstep
    exact hinv.write hcalm hput
  | remove k =>
    cases hstep
    exact hinv.remove k
  | answer σ effect =>
    simp only [Executor.step] at hstep
    split at hstep
    · cases hstep
    next op next htodo =>
      obtain ⟨⟨st, r⟩, hserve, rfl⟩ := Option.map_eq_some_iff.mp hstep
      exact hinv.answer hgated htodo hserve

/-- The invariant holds before the command has made a request. -/
lemma inv_init (store : ObjectStore) :
    Inv x fuel cmd { store := store, todo := x.handleCommand fuel cmd } where
  reaches := .refl _
  lawful e he := by cases he
  read ri name obj hobj := by cases hobj
  window hwin := by
    obtain ⟨-, -, live, -, hget⟩ := hwin
    cases hget
  replaced obj hobj := by cases hobj

end Invariant

/-- **The drift gate in calm runs.** Where the command expects a hash and the policy does not let it
overwrite drift, every version that an update, a patch of the payload or a delete of the command
replaces, patches or removes has the expected hash, in every run among other actors who, between
the check of a `patch` or `delete` command and its write, store only versions of the target that
have it. Runs of `apply` are calm whatever the others do.

**Proof sketch.** What was read had been stored, and no version comes back, so an update that is not
rejected replaces the version that was checked. For `patch` and `delete` the window is kept by calm
steps: it opens with the read of the live target, and closes with the first write. -/
theorem gate_effective (x : Executor) (fuel : ℕ) (cmd : Command) (hgated : x.Gated cmd)
    (store : ObjectStore) (acts : List Act) (w : World)
    (hrun : run step { store := store, todo := x.handleCommand fuel cmd } acts = some w)
    (hcalm : Along step (x.Calm cmd) { store := store, todo := x.handleCommand fuel cmd } acts) :
    ∀ obj ∈ w.replaced, Drift.hashObject x.env obj = cmd.expectedHash := by
  have hinv : Inv x fuel cmd w := Transition.invariant
    (fun hinv hcalm hstep => hinv.step hgated hcalm hstep) (inv_init store) hcalm hrun
  exact hinv.replaced

/-! ## A deployment -/

/-- A deployment with the given further metadata. -/
def deployment (paused : Bool) (md : List (String × Value)) : Object :=
  .ofList [("apiVersion", .str "apps/v1"), ("kind", .str "Deployment"),
    ("metadata", .ofObject (.ofList ([("name", .str "web"), ("namespace", .str "default")] ++ md))),
    ("spec", .ofObject (.ofList [("paused", .bool paused)]))]

/-- A version of it. -/
def deploymentAt (paused : Bool) (rv : String) : Object :=
  deployment paused [("resourceVersion", .str rv)]

/-- The JSON text of the deployment without its resource version. -/
def deploymentJSON (paused : Bool) : Bytes :=
  utf8 ("\x7b\"apiVersion\":\"apps/v1\",\"kind\":\"Deployment\"," ++
    "\"metadata\":\x7b\"name\":\"web\",\"namespace\":\"default\"\x7d," ++
    "\"spec\":\x7b\"paused\":" ++ toString paused ++ "\x7d\x7d")

/-- The encodings and digests of both states of the deployment. -/
def deploymentEnv : Env := .ofTables
  { encodings := [(.ofObject (deployment false []), deploymentJSON false),
      (.ofObject (deployment true []), deploymentJSON true)]
    digests := [
      (deploymentJSON false,
        ofHex "0ea0f69fc6cee43a053e6cf00b9b8e889e43ffcdc216e81bad5c8208686f641e"),
      (deploymentJSON true,
        ofHex "cb3f5941929fe7de152b097c76bccc47237488fafc22abe444e401127b6b0c65")] }

/-- A command to delete the deployment as it was before it was paused. -/
def deleteUnpaused : Command where
  verb := verbDelete
  target := ⟨"apps", "v1", "deployments", "default", "web"⟩
  expectedHash := "0ea0f69fc6cee43a053e6cf00b9b8e889e43ffcdc216e81bad5c8208686f641e"

/-- An executor that does not try writes first. -/
def directExecutor : Executor := ⟨{ dryRunFirst := false }, deploymentEnv, true⟩

/-- A cluster that holds the deployment. -/
def deploymentStore : ObjectStore :=
  Store.empty.put (targetKey deleteUnpaused) (deploymentAt false "1") (by decide +kernel)

/-- The command reads the deployment and announces the delete; another actor stores a version; the
delete takes effect. -/
def deleteAfter (obj : Object) : List Act :=
  let read := Act.answer (acceptAll fun _ => some (deploymentAt false "1")) none
  [read, read, read, .write (targetKey deleteUnpaused) obj,
    .answer (acceptAll fun _ => none) (some .empty)]

/-- The other actor stores the same state once more, and that is what is deleted. -/
theorem gate_effective_sample :
    ∃ w, run step
        { store := deploymentStore, todo := directExecutor.handleCommand 0 deleteUnpaused }
        (deleteAfter (deploymentAt false "2")) = some w ∧
      w.replaced = [deploymentAt false "2"] ∧
      ∀ obj ∈ w.replaced, Drift.hashObject deploymentEnv obj = deleteUnpaused.expectedHash := by
  obtain ⟨w, hw, hrep⟩ : ∃ w, run step
      { store := deploymentStore, todo := directExecutor.handleCommand 0 deleteUnpaused }
      (deleteAfter (deploymentAt false "2")) = some w ∧ w.replaced = [deploymentAt false "2"] :=
    Option.map_eq_some_iff.mp (by decide +kernel : Option.map World.replaced _ = some _)
  refine ⟨w, hw, hrep, gate_effective directExecutor 0 deleteUnpaused (by decide +kernel)
    deploymentStore _ w hw ?_⟩
  exact ⟨trivial, fun _ _ => ⟨trivial, fun _ _ => ⟨trivial, fun _ _ =>
    ⟨fun _ _ => by decide +kernel, fun _ _ => ⟨trivial, fun _ _ => trivial⟩⟩⟩⟩⟩

/-- The other actor pauses the deployment after the check, and the paused one is deleted. -/
theorem drifted_version_deleted :
    directExecutor.Gated deleteUnpaused ∧
      ∃ w, run step
          { store := deploymentStore, todo := directExecutor.handleCommand 0 deleteUnpaused }
          (deleteAfter (deploymentAt true "2")) = some w ∧
        ∃ obj ∈ w.replaced, Drift.hashObject deploymentEnv obj ≠ deleteUnpaused.expectedHash := by
  obtain ⟨w, hw, hrep⟩ : ∃ w, run step
      { store := deploymentStore, todo := directExecutor.handleCommand 0 deleteUnpaused }
      (deleteAfter (deploymentAt true "2")) = some w ∧ w.replaced = [deploymentAt true "2"] :=
    Option.map_eq_some_iff.mp (by decide +kernel : Option.map World.replaced _ = some _)
  exact ⟨by decide +kernel, w, hw, deploymentAt true "2", by simp [hrep], by decide +kernel⟩

end K8sAgent.Executor
