import K8sAgent.Lib.Journal
import K8sAgent.Executor.DriftGate

set_option relaxedAutoImplicit false
set_option autoImplicit false

/-!
# Concurrent commands

Any number of commands under way at once, each in its own goroutine, among other writers. The
requests of all of them reach one cluster, one after another in any order. The cluster gives every
version a resource version of its own, rejects an update that carries another than the live one,
and rejects the creation of an object that exists.

An `apply` command reads an object, lays its manifest over it and sends the result with the
resource version it has read. So an update that is not rejected replaces exactly what was read, and
nothing that others have written since is lost.

## Main definitions

* `K8sAgent.Executor.Concurrent.World`, `step` — commands, cluster, other writers, and the journal
  of reads and changes.
* `K8sAgent.Executor.Concurrent.World.Lands` — the next request of a command takes effect.

## Main results

* `K8sAgent.Executor.Concurrent.Inv.step` — what every step keeps.
* `K8sAgent.Executor.Concurrent.no_lost_update` — an update of `apply` replaces what the command
  has read, checked and merged, unchanged since, and a create finds no object.
-/

namespace K8sAgent.Executor.Concurrent

open Encoding JsonTree Interaction VersionedStore Transition

/-! ## Commands and cluster -/

/-- One command under way. -/
structure Task where
  /-- What it has still to do. -/
  todo : Cmd Exit
  /-- The requests it has made, with their answers. -/
  hist : List Ev := []

/-- Commands `ι` that share a cluster. -/
structure World (ι : Type) where
  /-- The cluster. -/
  store : ObjectStore
  /-- The commands. -/
  tasks : ι → Task
  /-- What they have read and what has changed, in order. -/
  log : List (Entry ι Key Object) := []

/-- What can happen next. -/
inductive Act (ι : Type) : Type where
  /-- Another writer stores a version of an object. -/
  | write (k : Key) (obj : Object)
  /-- Another writer removes an object. -/
  | remove (k : Key)
  /-- The next request of a command is answered; if it is a write that takes effect, `effect` is
  the version it stores. -/
  | answer (i : ι) (σ : ∀ op, Ans op) (effect : Option Object)

/-- The object a request has read. -/
def found : (op : Op) → Ans op → Option (Key × Object)
  | .get ri name, ans => ans.toOption.map ((ri, name), ·)
  | _, _ => none

/-- What the answer to a request adds to the journal. -/
def entries {ι : Type} (i : ι) (effect : Option Object) (op : Op) (ans : Ans op) :
    List (Entry ι Key Object) :=
  (found op ans).toList.map (fun kv => .read i kv.1 kv.2) ++
    (effect.bind fun _ => changedKey op).toList.map .changed

variable {ι : Type}

/-- The next request of the command, if it takes effect when answered as given, and stores the
object. -/
def World.landing (w : World ι) (i : ι) (σ : ∀ op, Ans op) (obj : Object) : Option Op :=
  match (w.tasks i).todo with
  | .done _ => none
  | .ask op _ => if (serve w.store (some obj) op (σ op)).isSome then some op else none

/-- The next request of the command can take effect. -/
def World.Lands (w : World ι) (i : ι) (op : Op) : Prop := ∃ σ obj, w.landing i σ obj = some op

/-- A request that takes effect is the next of its command, and the cluster admits it. -/
lemma World.Lands.exists_serve {w : World ι} {i : ι} {op : Op} (h : w.Lands i op) :
    ∃ (next : Ans op → Cmd Exit) (ans : Ans op) (obj : Object) (r : ObjectStore × Option Object),
      (w.tasks i).todo = .ask op next ∧ serve w.store (some obj) op ans = some r := by
  obtain ⟨σ, obj, hland⟩ := h
  unfold landing at hland
  split at hland
  · cases hland
  next op' next htodo =>
    split_ifs at hland with hsome
    cases hland
    obtain ⟨r, hr⟩ := Option.isSome_iff_exists.mp hsome
    exact ⟨next, σ op, obj, r, htodo, hr⟩

variable [DecidableEq ι]

/-- One step; `none` where the cluster does not admit it. -/
def step (w : World ι) : Act ι → Option (World ι)
  | .write k obj => (w.store.put? k obj).map fun st =>
    { w with store := st, log := w.log ++ [.changed k] }
  | .remove k => some { w with store := w.store.remove k, log := w.log ++ [.changed k] }
  | .answer i σ effect => match (w.tasks i).todo with
    | .done _ => none
    | .ask op next => (serve w.store effect op (σ op)).map fun r =>
      { store := r.1
        tasks := Function.update w.tasks i
          { todo := next (σ op), hist := (w.tasks i).hist ++ [⟨op, σ op⟩] }
        log := w.log ++ entries i effect op (σ op) }

/-- All commands are about to start. -/
def start (x : Executor) (fuel : ℕ) (cmds : ι → Command) (store : ObjectStore) : World ι :=
  { store := store, tasks := fun i => { todo := x.handleCommand fuel (cmds i) } }

/-! ## The journal -/

/-- An object `obj` found under the key `k` is the answer to a `get` of that key. -/
lemma eq_get_of_found {op : Op} {ans : Ans op} {k : Key} {obj : Object}
    (h : found op ans = some (k, obj)) : (⟨op, ans⟩ : Ev) = ⟨.get k.1 k.2, .ok obj⟩ := by
  cases op with
  | get ri name =>
    match ans with
    | .ok obj' =>
      cases h
      rfl
    | .error e => cases h
  | _ => cases h

lemma found_eq_none {op : Op} {ans : Ans op} (h : op.isGet = false) : found op ans = none := by
  cases op with
  | get ri name => cases h
  | _ => rfl

omit [DecidableEq ι] in
/-- **The answer to a request keeps the journal faithful.** -/
theorem faithful_serve {st st' : ObjectStore} {log : List (Entry ι Key Object)} {i : ι}
    {effect r : Option Object} {op : Op} {ans : Ans op} (hf : Faithful st log)
    (hserve : serve st effect op ans = some (st', r)) :
    Faithful st' (log ++ entries i effect op ans) := by
  unfold entries
  rcases serve_spec hserve with ⟨rfl, -, hkey, hread⟩ | ⟨k, hkey, hst, -⟩
  · rw [hkey]
    cases hfound : found op ans with
    | none => simpa using hf
    | some kv => simpa using hf.read i (hread _ _ _ (eq_get_of_found hfound))
  · have hget : op.isGet = false := by
      obtain ⟨-, -, hkey⟩ := Option.bind_eq_some_iff.mp hkey
      cases op with
      | get ri name => cases hkey
      | _ => rfl
    rw [hkey, found_eq_none hget]
    rcases hst with rfl | ⟨obj, hput⟩
    · simpa using hf.remove k
    · simpa using hf.put hput

/-- The reads that a request adds to the journal are those of its command. -/
lemma readBy_entries (i j : ι) (effect : Option Object) (op : Op) (ans : Ans op) :
    (entries i effect op ans).filterMap (Entry.readBy j) =
      if i = j then (found op ans).toList else [] := by
  have hchanged : ((effect.bind fun _ => changedKey op).toList.map
      (Entry.changed : Key → Entry ι Key Object)).filterMap (Entry.readBy j) = [] := by
    cases effect.bind fun _ => changedKey op <;> rfl
  rw [entries, List.filterMap_append, hchanged, List.append_nil]
  cases found op ans with
  | none => simp
  | some kv =>
    by_cases hij : i = j <;> simp [Entry.readBy, hij]

/-! ## Invariant -/

/-- The objects a command has read, in order. -/
def reads (hist : List Ev) : List (Key × Object) := hist.filterMap fun e => found e.op e.ans

lemma reads_append (h₁ h₂ : List Ev) : reads (h₁ ++ h₂) = reads h₁ ++ reads h₂ :=
  List.filterMap_append

/-- What holds of each command. -/
structure Underway (x : Executor) (fuel : ℕ) (cmd : Command) (log : List (Entry ι Key Object))
    (i : ι) (t : Task) : Prop where
  /-- What it has done and what is left is a run of it. -/
  reaches : Reaches (x.handleCommand fuel cmd) t.hist t.todo
  /-- Answers have been lawful. -/
  lawful : LawfulAll t.hist
  /-- The journal lists what it has read. -/
  logged : log.filterMap (Entry.readBy i) = reads t.hist

/-- What holds of the commands among other writers. -/
structure Inv (x : Executor) (fuel : ℕ) (cmds : ι → Command) (w : World ι) : Prop where
  /-- The commands are under way. -/
  underway : ∀ i, Underway x fuel (cmds i) w.log i (w.tasks i)
  /-- The journal is faithful. -/
  faithful : Faithful w.store w.log

section Invariant

variable {x : Executor} {fuel : ℕ} {cmds : ι → Command} {w w' : World ι}

/-- A command stays under way while entries are added that are no reads of it. -/
lemma Underway.append {cmd : Command} {log new : List (Entry ι Key Object)} {i : ι} {t : Task}
    (ht : Underway x fuel cmd log i t) (hnew : new.filterMap (Entry.readBy i) = []) :
    Underway x fuel cmd (log ++ new) i t where
  reaches := ht.reaches
  lawful := ht.lawful
  logged := by rw [List.filterMap_append, hnew, List.append_nil, ht.logged]

/-- The invariant holds before any of the commands has made a request. -/
lemma inv_start (store : ObjectStore) : Inv x fuel cmds (start x fuel cmds store) where
  underway i := ⟨.refl _, by simp [start, LawfulAll], rfl⟩
  faithful := faithful_nil store

/-- A change by another writer keeps it, if the journal stays faithful. -/
lemma Inv.changed (hinv : Inv x fuel cmds w) {st : ObjectStore} {k : Key}
    (hf : Faithful st (w.log ++ [.changed k])) :
    Inv x fuel cmds { w with store := st, log := w.log ++ [.changed k] } where
  underway i := (hinv.underway i).append rfl
  faithful := hf

/-- **An answer to the next request of the command** `i` keeps the invariant. -/
theorem Inv.answer (hinv : Inv x fuel cmds w) {i : ι} {op : Op} {next : Ans op → Cmd Exit}
    (htodo : (w.tasks i).todo = .ask op next) {ans : Ans op} {effect r : Option Object}
    {st : ObjectStore} (hserve : serve w.store effect op ans = some (st, r)) :
    Inv x fuel cmds
      { store := st
        tasks := Function.update w.tasks i
          { todo := next ans, hist := (w.tasks i).hist ++ [⟨op, ans⟩] }
        log := w.log ++ entries i effect op ans } where
  underway := by
    have ht := hinv.underway i
    refine (Function.forall_update_iff w.tasks (p := fun j t =>
      Underway x fuel (cmds j) (w.log ++ entries i effect op ans) j t)).mpr ⟨⟨?_, ?_, ?_⟩, ?_⟩
    · exact .step (htodo ▸ ht.reaches) ans
    · exact forall_mem_concat ht.lawful (lawful_of_serve hserve)
    · rw [List.filterMap_append, ht.logged, readBy_entries, if_pos rfl, reads_append]
      cases hfound : found op ans <;> simp [reads, hfound]
    · intro j hj
      refine (hinv.underway j).append ?_
      rw [readBy_entries, if_neg (Ne.symm hj)]
  faithful := faithful_serve hinv.faithful hserve

/-- **Every step keeps the invariant**, be it an answer to a command or a change by others. -/
theorem Inv.step (hinv : Inv x fuel cmds w) {act : Act ι} (hstep : step w act = some w') :
    Inv x fuel cmds w' := by
  cases act with
  | write k obj =>
    obtain ⟨st, hput, rfl⟩ := Option.map_eq_some_iff.mp hstep
    exact hinv.changed (hinv.faithful.put hput)
  | remove k =>
    cases hstep
    exact hinv.changed (hinv.faithful.remove k)
  | answer i σ effect =>
    simp only [Concurrent.step] at hstep
    split at hstep
    · cases hstep
    next op next htodo =>
      obtain ⟨⟨st, r⟩, hserve, rfl⟩ := Option.map_eq_some_iff.mp hstep
      exact hinv.answer htodo hserve

/-- The next request of a command is conducted as specified. -/
lemma Inv.conduct (hinv : Inv x fuel cmds w) {i : ι} {op : Op} {next : Ans op → Cmd Exit}
    (htodo : (w.tasks i).todo = .ask op next) : x.Conduct (cmds i) (w.tasks i).hist op := by
  have hr := (hinv.underway i).reaches
  rw [htodo] at hr
  have hwp := wp_reaches (handleCommand_behaves x fuel (cmds i)) hr fun _ _ => trivial
  rw [List.nil_append] at hwp
  exact hwp.1

/-- The last read of a command stands in the journal, and no other read of it after that. -/
lemma Inv.exists_read (hinv : Inv x fuel cmds w) {i : ι} {ri : ResourceInterface}
    {name : String} {obj : Object}
    (hlast : LastGet (w.tasks i).hist ⟨.get ri name, .ok obj⟩) :
    ∃ L₁ L₂, w.log = L₁ ++ .read i (ri, name) obj :: L₂ ∧ ∀ e ∈ L₂, e.readBy i = none := by
  obtain ⟨h₁, h₂, heq, hnone⟩ := hlast
  have hafter : reads h₂ = [] :=
    List.filterMap_eq_nil_iff.mpr fun e he => found_eq_none (hnone e he)
  have hreads : reads (w.tasks i).hist = reads h₁ ++ [((ri, name), obj)] := by
    rw [heq, reads_append, ← hafter]
    rfl
  exact exists_last_read ((hinv.underway i).logged.trans hreads)

end Invariant

/-! ## Updates and creates -/

/-- **No update is lost.** In every interleaving of any number of commands with each other and with
other writers, an update that takes effect replaces the object that its command has read last: the
body was merged from that object, which had passed the drift check, and the object has not changed
since it was read. A create that takes effect finds no object.

**Proof sketch.** What a command sends as an update is made from what it read last and carries the
resource version of that (`Conduct`). The cluster admits the update only if that version is live,
and no version comes back, so what is live is what was read; and the journal of a cluster in which
no version comes back shows no change in between. -/
theorem no_lost_update (x : Executor) (fuel : ℕ) (cmds : ι → Command) (store : ObjectStore)
    (acts : List (Act ι)) (w : World ι) (hrun : run step (start x fuel cmds store) acts = some w)
    (i : ι) :
    (∀ ri body, w.Lands i (.update ri body false) →
      ∃ obj ∈ x.manifest (cmds i), ∃ live, w.store.live (ri, getName body) = some live ∧
        body = Merge.updateBody x.env live obj ∧ x.GateOpen (cmds i) live ∧
        ∃ L₁ L₂, w.log = L₁ ++ .read i (ri, getName body) live :: L₂ ∧
          .changed (ri, getName body) ∉ L₂ ∧ ∀ e ∈ L₂, e.readBy i = none) ∧
    ∀ ri body, w.Lands i (.create ri body false) → w.store.live (ri, getName body) = none := by
  have hinv : Inv x fuel cmds w := Transition.invariant (P := fun _ _ => True)
    (fun hinv _ hstep => hinv.step hstep) (inv_start store)
    (along_of_forall_mem fun _ _ _ => trivial) hrun
  constructor
  · intro ri body hland
    obtain ⟨next, ans, stored, r, htodo, hserve⟩ := hland.exists_serve
    obtain ⟨obj, hobj, live, rfl, hg, hlast⟩ := (hinv.conduct htodo).grounded
    have hname := name_ne_of_found ri (getName obj) live (hinv.underway i).lawful hlast.mem
    rw [Merge.getName_updateBody hname]
    obtain ⟨L₁, L₂, hlog, hreads⟩ := hinv.exists_read hlast
    obtain ⟨hpast, hsame⟩ := hinv.faithful i _ live L₁ L₂ hlog
    -- the live version is the one whose resource version the body carries
    obtain ⟨old, hold, hacc, -⟩ := replace_eq_some hserve
    rw [Merge.getName_updateBody hname] at hold
    have hversion : versionOf (Merge.updateBody x.env live obj) = versionOf live := by
      rw [versionOf, Merge.getResourceVersion_updateBody hname, versionOf]
    have hacc := of_decide_eq_true hacc
    rw [hversion] at hacc
    obtain rfl := Store.eq_live_of_tag hold hpast hacc
    exact ⟨obj, hobj, old, hold, rfl, hg, L₁, L₂, hlog, hsame hold, hreads⟩
  · intro ri body hland
    obtain ⟨next, ans, stored, r, htodo, hserve⟩ := hland.exists_serve
    simp only [serve] at hserve
    split_ifs at hserve with habsent
    exact habsent

/-! ## Two commands on one deployment -/

/-- A manifest that pauses the deployment. -/
def pauseManifest : Bytes := utf8 ("apiVersion: apps/v1\nkind: Deployment\nmetadata:\n" ++
  "  name: web\n  namespace: default\nspec:\n  paused: true")

/-- What is known of the manifest. -/
def pauseExecutor : Executor where
  cfg := {}
  env := .ofTables
    { streams := [(pauseManifest, [pauseManifest])]
      documents := [(pauseManifest, deployment true [])] }

/-- Where the deployment is kept. -/
def deploymentKey : Key := (⟨⟨"apps", "v1", "Deployment"⟩, "default"⟩, "web")

/-- A cluster that holds the deployment. -/
def pauseStore : ObjectStore :=
  Store.empty.put deploymentKey (deploymentAt false "1") (by decide +kernel)

/-- Both commands read the deployment, and one of them gets as far as its update. -/
def bothRead : List (Act Bool) :=
  let go (i : Bool) : Act Bool := .answer i (acceptAll fun _ => some (deploymentAt false "1")) none
  [go true, go false, go true, go false, go true, go false, go true, go true, go true]

/-- Whether the next request is an update that takes effect. -/
def updateLands (w : World Bool) : Bool :=
  match w.landing true (acceptAll fun _ => none) (deploymentAt true "2") with
  | some (.update _ _ false) => true
  | _ => false

/-- The update that is made replaces the version that was read. -/
theorem no_lost_update_pause :
    ∃ w, run step (start pauseExecutor 0 (fun _ => { verb := verbApply, payload := pauseManifest })
        pauseStore) bothRead = some w ∧
      ∃ ri body, w.Lands true (.update ri body false) ∧
        ∃ obj ∈ pauseExecutor.manifest { verb := verbApply, payload := pauseManifest },
          ∃ live, w.store.live (ri, getName body) = some live ∧
            body = Merge.updateBody pauseExecutor.env live obj := by
  obtain ⟨w, hw, hupdate⟩ : ∃ w, run step (start pauseExecutor 0
      (fun _ => { verb := verbApply, payload := pauseManifest }) pauseStore) bothRead = some w ∧
      updateLands w = true :=
    Option.map_eq_some_iff.mp (by decide +kernel : Option.map updateLands _ = some true)
  refine ⟨w, hw, ?_⟩
  unfold updateLands at hupdate
  split at hupdate
  next ri body hland =>
    have hlands : w.Lands true (.update ri body false) := ⟨_, _, hland⟩
    obtain ⟨obj, hobj, live, hlive, hbody, -⟩ :=
      (no_lost_update pauseExecutor 0 _ pauseStore bothRead w hw true).1 ri body hlands
    exact ⟨ri, body, hlands, obj, hobj, live, hlive, hbody⟩
  next => cases hupdate

end K8sAgent.Executor.Concurrent
