import K8sAgent.Executor.Requests
import K8sAgent.Protocol.Validator

set_option relaxedAutoImplicit false
set_option autoImplicit false

/-!
# How a handler conducts a command

What every handler does, whatever the surroundings answer: it makes allowed requests only; where
the configuration asks for it, a write is tried as a dry run first, and after a dry run that was
rejected nothing is attempted any more; what `apply` writes is made from the object that it has
just looked up; and the command ends with one count and one terminal report, unless a drain stalls.

The rules here are those for the steps the handlers share. They need no assumption on the answers;
where the specification of requests depends on answers being lawful, so does this one.

## Main definitions

* `K8sAgent.Op.isAttempt`, `K8sAgent.Op.asDryRun`, `K8sAgent.Executor.accepted` — writes and
  their dry runs.
* `K8sAgent.Executor.Pending`, `Running` — the end has not been told; no dry run has been rejected.
* `K8sAgent.Executor.Conduct`, `Ended` — the specification of requests and of ends.
* `K8sAgent.Executor.Behaves` — a program meets it.

## Main results

* `K8sAgent.Executor.behaves_read`, `behaves_write`, `behaves_finish` — the rules for one request.
* `K8sAgent.Executor.behaves_checkDrift`, `behaves_liveGet`, `behaves_dryRunThenApply` — the rules
  for the shared steps.
-/

namespace K8sAgent

open Encoding JsonTree Interaction

/-! ## Writes and their dry runs -/

namespace Op

/-- The requests that change the cluster, and their dry runs. -/
def isAttempt : Op → Bool
  | .create _ _ _ | .update _ _ _ | .patch _ _ _ _ _ | .delete _ _ _ => true
  | .install _ _ _ _ _ | .upgrade _ _ _ _ _ => true
  | .patchNode _ _ | .evict _ _ | .uninstall _ _ => true
  | _ => false

/-- The dry runs. -/
def isDryRun : Op → Bool
  | .create _ _ dryRun | .update _ _ dryRun | .patch _ _ _ _ dryRun | .delete _ _ dryRun => dryRun
  | .install _ _ _ _ dryRun | .upgrade _ _ _ _ dryRun => dryRun
  | _ => false

/-- The writes that have no dry run: those on nodes and pods, and uninstalling a release. -/
def isDirect : Op → Bool
  | .patchNode _ _ | .evict _ _ | .uninstall _ _ => true
  | _ => false

/-- The same request as a dry run, where there is one. -/
def asDryRun : Op → Option Op
  | .create ri obj _ => some (.create ri obj true)
  | .update ri obj _ => some (.update ri obj true)
  | .patch ri name pt data _ => some (.patch ri name pt data true)
  | .delete ri name _ => some (.delete ri name true)
  | .install ns release chart vals _ => some (.install ns release chart vals true)
  | .upgrade ns release chart vals _ => some (.upgrade ns release chart vals true)
  | _ => none

/-- The requests that count the end of a command. -/
def isCount : Op → Bool
  | .incCommand _ _ => true
  | _ => false

/-- The requests that attempt no write and tell no end. -/
def isPlain (op : Op) : Bool := !(op.isEnd || op.isCount || op.isAttempt)

variable {op : Op}

/-- A plain request is no terminal report, no count of one, and no attempt to write. -/
lemma isPlain_iff : op.isPlain = true ↔
    op.isEnd = false ∧ op.isCount = false ∧ op.isAttempt = false := by
  simp [isPlain, and_assoc]

/-- A request that is no attempt is neither a write nor a dry run. -/
lemma not_isWrite_of_not_isAttempt (hop : op.isAttempt = false) :
    op.isWrite = false ∧ op.isDryRun = false := by
  cases op <;> first | exact ⟨rfl, rfl⟩ | cases hop

/-- An attempt to write is neither a terminal report nor a count of one. -/
lemma not_isEnd_of_isAttempt (hop : op.isAttempt = true) :
    op.isEnd = false ∧ op.isCount = false := by
  cases op <;> first | exact ⟨rfl, rfl⟩ | cases hop

end Op

namespace Executor

/-- The answer to a write does not stop the command: there is no error, or the object that was to
be deleted does not exist. -/
def accepted : (op : Op) → Ans op → Bool
  | .create _ _ _, ans => ans.isNone
  | .update _ _ _, ans => ans.isNone
  | .patch _ _ _ _ _, ans => ans.isNone
  | .delete _ _ _, ans => match ans with
    | some (.other _) => false
    | _ => true
  | .install _ _ _ _ _, ans => ans.isNone
  | .upgrade _ _ _ _ _, ans => ans.isNone
  | _, _ => true

/-! ## The specification -/

/-- All answers have been lawful. -/
abbrev LawfulAll (h : List Ev) : Prop := ∀ e ∈ h, Lawful e.op e.ans

/-- The end of the command has been neither reported nor counted. -/
structure Pending (h : List Ev) : Prop where
  /-- The end of the command has not been reported. -/
  isOpen : Open h
  /-- The end of the command has not been counted. -/
  uncounted : ∀ e ∈ h, e.op.isCount = false

/-- The command is still under way. -/
structure Running (h : List Ev) : Prop extends Pending h where
  /-- No dry run has been rejected. -/
  unrejected : ∀ e ∈ h, e.op.isDryRun = true → accepted e.op e.ans = true

/-- The write has been tried: its dry run is the last attempt before it, and was accepted. -/
def Tried (h : List Ev) (op : Op) : Prop :=
  ∃ h₁ d h₂, h = h₁ ++ d :: h₂ ∧ op.asDryRun = some d.op ∧ accepted d.op d.ans = true ∧
    ∀ e ∈ h₂, e.op.isAttempt = false

/-- The write is the one of `patch` that only records the new hash, after the patch itself. -/
def Restamps (x : Executor) (cmd : Command) (h : List Ev) (op : Op) : Prop :=
  cmd.verb = verbPatch ∧ ¬NoWrite h ∧ ∃ hash,
    op = .patch (targetInterface cmd) cmd.target.name .merge (stampPatch x.env hash) false

/-- The write has no dry run, and is one of a verb that makes such writes only. -/
def Direct (cmd : Command) (op : Op) : Prop :=
  op.isDirect = true ∧ (cmd.verb = verbDrainNode ∨ cmd.verb = verbUncordonNode ∨
    cmd.verb = verbHelmUninstall)

/-- The event is the last that reads an object. -/
def LastGet (h : List Ev) (e : Ev) : Prop :=
  ∃ h₁ h₂, h = h₁ ++ e :: h₂ ∧ ∀ e' ∈ h₂, e'.op.isGet = false

/-- What `apply` writes is made from an object of the manifest and from what was looked up last:
the object does not exist, or it does and the drift policy lets the command proceed on it. -/
def Grounded (x : Executor) (cmd : Command) (h : List Ev) : Op → Prop
  | .create ri body _ => cmd.verb = verbApply → ∃ obj ∈ x.manifest cmd, ∃ msg,
      body = Drift.stamp x.env obj ∧ LastGet h ⟨.get ri (getName obj), .error (.notFound msg)⟩
  | .update ri body _ => ∃ obj ∈ x.manifest cmd, ∃ live, body = Merge.updateBody x.env live obj ∧
      x.GateOpen cmd live ∧ LastGet h ⟨.get ri (getName obj), .ok live⟩
  | _ => True

/-- What holds of every request. -/
structure Conduct (x : Executor) (cmd : Command) (h : List Ev) (op : Op) : Prop where
  /-- The request is allowed, if answers have been lawful. -/
  allowed : LawfulAll h → x.Allowed cmd h op
  /-- A write has been tried, where the configuration asks for it. -/
  tried : x.cfg.dryRunFirst = true → op.isWrite = true →
    Tried h op ∨ x.Restamps cmd h op ∨ Direct cmd op
  /-- Nothing is attempted after a dry run that was rejected. -/
  unrejected : op.isAttempt = true →
    ∀ e ∈ h, e.op.isDryRun = true → accepted e.op e.ans = true
  /-- What `apply` writes is made from what was looked up. -/
  grounded : x.Grounded cmd h op

/-- What holds of every end. A command that returns has been counted and reported, or is a drain
that has stalled. -/
def Ended (cmd : Command) (h : List Ev) : Exit → Prop
  | .returned =>
    (∃ h₁ rep, isTerminal rep.status = true ∧ Pending h₁ ∧
      h = h₁ ++ [⟨.incCommand cmd.verb rep.status, ()⟩, ⟨.report rep, ()⟩]) ∨
    (cmd.verb = verbDrainNode ∧ ∃ h₁ rep, rep.status = statusProgress ∧ rep.progress < 100 ∧
      Pending h₁ ∧ h = h₁ ++ [⟨.report rep, ()⟩])
  | .nilDeref => Validator.isHelmVerb cmd.verb = true ∧ cmd.helm = none
  | .outOfFuel => cmd.verb = verbDrainNode

/-- The program conducts the command as specified, whatever it is answered. -/
abbrev Behaves (x : Executor) (cmd : Command) (p : Cmd Exit) (h : List Ev) : Prop :=
  wp (fun _ _ => True) (x.Conduct cmd) p h (Ended cmd)

/-! ## Histories -/

lemma LawfulAll.left {h t : List Ev} (hl : LawfulAll (h ++ t)) : LawfulAll h := fun e he =>
  hl e (List.mem_append_left t he)

/-- An object that has been found has a name. -/
lemma name_ne_of_found {h : List Ev} (ri : ResourceInterface) (name : String) (live : Object)
    (hl : LawfulAll h) (hmem : (⟨.get ri name, .ok live⟩ : Ev) ∈ h) : name ≠ "" := by
  intro hn
  obtain ⟨msg, hmsg⟩ := hl _ hmem hn
  cases hmsg

/-- An object that is known not to exist was asked for by a name that is not empty. -/
lemma name_ne_of_notFound {h : List Ev} (ri : ResourceInterface) (name msg : String)
    (hl : LawfulAll h) (hmem : (⟨.get ri name, .error (.notFound msg)⟩ : Ev) ∈ h) :
    name ≠ "" := by
  intro hn
  obtain ⟨msg', hmsg⟩ := hl _ hmem hn
  cases hmsg

/-- What holds of the events of a history and of one more. -/
lemma forall_mem_concat {P : Ev → Prop} {h : List Ev} {e : Ev} (hh : ∀ e' ∈ h, P e') (he : P e) :
    ∀ e' ∈ h ++ [e], P e' := by
  intro e' he'
  rcases List.mem_append.mp he' with he' | he'
  · exact hh e' he'
  · rwa [List.mem_singleton.mp he']

/-- Before anything has happened the command is under way. -/
lemma running_nil : Running [] where
  isOpen e he := by cases he
  uncounted e he := by cases he
  unrejected e he := by cases he

lemma Pending.concat {h : List Ev} (hp : Pending h) {e : Ev} (hend : e.op.isEnd = false)
    (hcount : e.op.isCount = false) : Pending (h ++ [e]) :=
  ⟨forall_mem_concat hp.isOpen hend, forall_mem_concat hp.uncounted hcount⟩

lemma Pending.tail {h : List Ev} {e : Ev} (hp : Pending (e :: h)) : Pending h :=
  ⟨fun e' he' => hp.isOpen e' (List.mem_cons_of_mem e he'),
    fun e' he' => hp.uncounted e' (List.mem_cons_of_mem e he')⟩

lemma Running.concat {h : List Ev} (hr : Running h) {e : Ev} (hend : e.op.isEnd = false)
    (hcount : e.op.isCount = false) (hdry : e.op.isDryRun = true → accepted e.op e.ans = true) :
    Running (h ++ [e]) :=
  ⟨hr.toPending.concat hend hcount, forall_mem_concat hr.unrejected hdry⟩

/-- The read that has just been made is the last. -/
lemma lastGet_concat (h : List Ev) (e : Ev) : LastGet (h ++ [e]) e :=
  ⟨h, [], rfl, fun _ he => by cases he⟩

/-- Quiet requests `t` leave the last object read the same event `e`. -/
lemma LastGet.append {h t : List Ev} {e : Ev} (hg : LastGet h e) (ht : ∀ e ∈ t, Quiet e.op) :
    LastGet (h ++ t) e := by
  obtain ⟨h₁, h₂, rfl, hnone⟩ := hg
  refine ⟨h₁, h₂ ++ t, by simp, fun e' he' => ?_⟩
  rcases List.mem_append.mp he' with he' | he'
  · exact hnone e' he'
  · exact (ht e' he').2.2

lemma LastGet.mem {h : List Ev} {e : Ev} (hg : LastGet h e) : e ∈ h := by
  obtain ⟨h₁, h₂, rfl, -⟩ := hg
  simp

/-! ## One request -/

section Rules

variable {x : Executor} {cmd : Command} {h : List Ev} {op : Op}

/-- A request that attempts nothing need only be allowed. -/
lemma conduct_of_not_isAttempt (hop : op.isAttempt = false)
    (hall : LawfulAll h → x.Allowed cmd h op) : x.Conduct cmd h op where
  allowed := hall
  tried _ hw := by
    rw [(Op.not_isWrite_of_not_isAttempt hop).1] at hw
    cases hw
  unrejected hatt := by
    rw [hop] at hatt
    cases hatt
  grounded := by cases op <;> trivial

/-- **A plain request**, and what comes after it. -/
theorem behaves_read {k : Ans op → Cmd Exit} (hr : Running h) (hop : op.isPlain = true)
    (hk : ∀ a, Running (h ++ [⟨op, a⟩]) → x.Behaves cmd (k a) (h ++ [⟨op, a⟩])) :
    x.Behaves cmd (call op >>= k) h := by
  obtain ⟨hend, hcount, hatt⟩ := Op.isPlain_iff.mp hop
  obtain ⟨hw, hdry⟩ := Op.not_isWrite_of_not_isAttempt hatt
  refine ⟨conduct_of_not_isAttempt hatt fun _ => allowed_of_read hr.isOpen hend hw, fun a _ => ?_⟩
  refine hk a (hr.concat hend hcount fun hdry' => ?_)
  change op.isDryRun = true at hdry'
  rw [hdry] at hdry'
  cases hdry'

/-- **A write that is not tried**, and what comes after it. -/
theorem behaves_write {k : Ans op → Cmd Exit} (hr : Running h)
    (hop : op.isEnd = false ∧ op.isCount = false ∧ op.isDryRun = false)
    (hground : x.Grounded cmd h op) (hw : LawfulAll h → x.WriteOK cmd h op)
    (htried : x.Restamps cmd h op ∨ Direct cmd op)
    (hk : ∀ a, Running (h ++ [⟨op, a⟩]) → x.Behaves cmd (k a) (h ++ [⟨op, a⟩])) :
    x.Behaves cmd (call op >>= k) h := by
  obtain ⟨hend, hcount, hdry⟩ := hop
  refine ⟨⟨fun hl => allowed_of_writeOK hr.isOpen hend (hw hl), fun _ _ => .inr htried,
    fun _ => hr.unrejected, hground⟩, fun a _ => hk a (hr.concat hend hcount fun hdry' => ?_)⟩
  change op.isDryRun = true at hdry'
  rw [hdry] at hdry'
  cases hdry'

/-- **A branch** behaves well if both of its sides do, each where it is taken. -/
theorem behaves_ite {c : Prop} [Decidable c] {p q : Cmd Exit} (hp : c → x.Behaves cmd p h)
    (hq : ¬c → x.Behaves cmd q h) : x.Behaves cmd (if c then p else q) h := by
  by_cases hc : c
  · rw [if_pos hc]
    exact hp hc
  · rw [if_neg hc]
    exact hq hc

/-- **The end of a command**: it is counted and reported. -/
theorem behaves_finish (hp : Pending h) (rep : Report) (hterm : isTerminal rep.status = true)
    (hr : rep.status = statusRefused → LawfulAll h → x.RefusalOK cmd h) :
    x.Behaves cmd (do
      call (.incCommand cmd.verb rep.status)
      call (.report rep)
      return .returned) h := by
  refine ⟨conduct_of_not_isAttempt rfl fun _ => allowed_of_read hp.isOpen rfl rfl, fun u _ => ?_⟩
  have hopen : Open (h ++ [⟨.incCommand cmd.verb rep.status, u⟩]) := forall_mem_concat hp.isOpen rfl
  refine ⟨conduct_of_not_isAttempt rfl fun hl => ?_, fun v _ => ?_⟩
  · exact allowed_report hopen fun hs => (hr hs hl.left).append (noWrite_singleton rfl)
  · exact .inl ⟨h, rep, hterm, hp, by simp⟩

/-- `fail` behaves well after a history without terminal report. -/
lemma behaves_fail (hp : Pending h) (msg err : String) : x.Behaves cmd (fail cmd msg err) h :=
  behaves_finish hp { status := statusFailed, message := msg ++ ": " ++ err } rfl
    fun hs => absurd hs (show statusFailed ≠ statusRefused by decide)

/-- `succeed` behaves well after a history without terminal report. -/
lemma behaves_succeed (hp : Pending h) (msg : String) : x.Behaves cmd (succeed cmd msg) h :=
  behaves_finish hp { status := statusSucceeded, message := msg } rfl
    fun hs => absurd hs (show statusSucceeded ≠ statusRefused by decide)

/-- A refused command ends too, where it may be refused. -/
lemma behaves_refuse (hp : Pending h) (hr : LawfulAll h → x.RefusalOK cmd h) (reason : String) :
    x.Behaves cmd (refuse cmd reason) h :=
  behaves_finish hp { status := statusRefused, message := reason } rfl fun _ => hr

/-! ## Shared steps -/

/-- **The drift check**: the rest of a handler runs with the history as it is where the policy lets
the command proceed, and a refusal is reported where it does not. -/
theorem behaves_checkDrift {live : Object} {p : Cmd Exit} (hp : Pending h)
    (hr : ¬x.GateOpen cmd live → LawfulAll h → x.RefusalOK cmd h)
    (hopen : x.GateOpen cmd live → x.Behaves cmd p h) :
    x.Behaves cmd (do if ← x.checkDrift cmd live then p else return .returned) h := by
  by_cases hg : x.GateOpen cmd live
  · rw [checkDrift_of_open hg]
    exact hopen hg
  · obtain ⟨msg, diff, hc⟩ := checkDrift_of_closed hg
    rw [hc]
    exact behaves_finish hp { status := statusRefused, message := msg, diff := diff } rfl
      fun _ => hr hg

/-- **Reading the live object**, in the three ways it can go. -/
theorem behaves_liveGet {ri : ResourceInterface} {name : String}
    {f : Except String (Option Object) → Cmd Exit} (hr : Running h)
    (herr : ∀ h' msg, Pending h' → x.Behaves cmd (f (.error msg)) h')
    (hnone : ∀ msg, Running (h ++ [⟨.get ri name, .error (.notFound msg)⟩]) →
      x.Behaves cmd (f (.ok none)) (h ++ [⟨.get ri name, .error (.notFound msg)⟩]))
    (hsome : ∀ live, Running (h ++ [⟨.get ri name, .ok live⟩]) →
      x.Behaves cmd (f (.ok (some live))) (h ++ [⟨.get ri name, .ok live⟩])) :
    x.Behaves cmd (liveGet ri name >>= f) h := by
  refine behaves_read hr rfl fun ans hr' => ?_
  match ans with
  | .error (.other msg) => exact herr _ msg hr'.toPending
  | .error (.notFound msg) => exact hnone msg hr'
  | .ok live => exact hsome live hr'

/-- A request that can be made as a dry run or not, with the error a handler sees in its answer. -/
structure Attempt (op : Bool → Op) (f : ∀ b, Ans (op b) → Option String) : Prop where
  /-- The request is an attempt to write. -/
  isAttempt : ∀ b, (op b).isAttempt = true
  /-- The request is no `get`. -/
  isGet : ∀ b, (op b).isGet = false
  /-- The request is a write unless its flag is set. -/
  isWrite : ∀ b, (op b).isWrite = !b
  /-- The request is a dry run where its flag is set. -/
  isDryRun : ∀ b, (op b).isDryRun = b
  /-- The dry run is that of the write. -/
  asDryRun : (op false).asDryRun = some (op true)
  /-- The handler sees no error exactly where the answer is accepted. -/
  accepted : ∀ b a, f b a = none ↔ accepted (op b) a = true

lemma attempt_create (ri : ResourceInterface) (body : Object) (g : ApiError → String) :
    Attempt (fun b => .create ri body b) fun _ a => a.map g :=
  ⟨fun _ => rfl, fun _ => rfl, fun _ => rfl, fun _ => rfl, rfl,
    fun _ a => by cases a <;> simp [Executor.accepted]⟩

lemma attempt_update (ri : ResourceInterface) (body : Object) (g : ApiError → String) :
    Attempt (fun b => .update ri body b) fun _ a => a.map g :=
  ⟨fun _ => rfl, fun _ => rfl, fun _ => rfl, fun _ => rfl, rfl,
    fun _ a => by cases a <;> simp [Executor.accepted]⟩

lemma attempt_patch (ri : ResourceInterface) (name : String) (pt : PatchType) (data : Bytes)
    (g : ApiError → String) : Attempt (fun b => .patch ri name pt data b) fun _ a => a.map g :=
  ⟨fun _ => rfl, fun _ => rfl, fun _ => rfl, fun _ => rfl, rfl,
    fun _ a => by cases a <;> simp [Executor.accepted]⟩

lemma attempt_delete (ri : ResourceInterface) (name : String) :
    Attempt (fun b => .delete ri name b) fun _ a => ignoreNotFound a := by
  refine ⟨fun _ => rfl, fun _ => rfl, fun _ => rfl, fun _ => rfl, rfl, fun _ a => ?_⟩
  match a with
  | none | some (.notFound _) | some (.other _) => simp [ignoreNotFound, Executor.accepted]

lemma attempt_install (ns release : String) (chart : Bytes) (vals : Object)
    (g : String → String) :
    Attempt (fun b => .install ns release chart vals b) fun _ a => a.map g :=
  ⟨fun _ => rfl, fun _ => rfl, fun _ => rfl, fun _ => rfl, rfl,
    fun _ a => by cases a <;> simp [Executor.accepted]⟩

lemma attempt_upgrade (ns release : String) (chart : Bytes) (vals : Object)
    (g : String → String) :
    Attempt (fun b => .upgrade ns release chart vals b) fun _ a => a.map g :=
  ⟨fun _ => rfl, fun _ => rfl, fun _ => rfl, fun _ => rfl, rfl,
    fun _ a => by cases a <;> simp [Executor.accepted]⟩

/-- **The write after its dry run**, or without one where none is asked for: it is announced, made,
and on success the rest follows. The requests `t` come after the history the write is grounded
in. -/
theorem behaves_dryRunThenApply_write {op : Bool → Op} {f : ∀ b, Ans (op b) → Option String}
    (hop : Attempt op f) (s₃ s₄ : String) {next : Cmd Exit} {t : List Ev}
    (hr : Running (h ++ t)) (ht : ∀ e ∈ t, Quiet e.op)
    (htried : x.cfg.dryRunFirst = true → Tried (h ++ t) (op false))
    (hground : ∀ t : List Ev, (∀ e ∈ t, Quiet e.op) → x.Grounded cmd (h ++ t) (op false))
    (hw : ∀ t : List Ev, (∀ e ∈ t, Quiet e.op) → LawfulAll (h ++ t) →
      x.WriteOK cmd (h ++ t) (op false))
    (hnext : ∀ (t : List Ev) (a : Ans (op false)), (∀ e ∈ t, Quiet e.op) →
      Running (h ++ (t ++ [⟨op false, a⟩])) → x.Behaves cmd next (h ++ (t ++ [⟨op false, a⟩]))) :
    x.Behaves cmd
      (dryRunThenApply.write cmd (fun b => call (op b) >>= fun a => .done (f b a)) s₃ s₄ next)
      (h ++ t) := by
  obtain ⟨hend, hcount⟩ := Op.not_isEnd_of_isAttempt (hop.isAttempt false)
  rw [dryRunThenApply_write_eq]
  refine behaves_read hr rfl fun u hr₁ => ?_
  rw [List.append_assoc] at hr₁ ⊢
  have ht₁ := quiet_append (e := ⟨.report { status := statusApplying, message := s₃ }, u⟩) ht
    ⟨rfl, rfl, rfl⟩
  refine ⟨⟨fun hl => allowed_of_writeOK hr₁.isOpen hend (hw _ ht₁ hl), fun hfirst _ => ?_,
    fun _ => hr₁.unrejected, hground _ ht₁⟩, fun a _ => ?_⟩
  · -- the announcement comes between the dry run and the write
    obtain ⟨h₁, d, h₂, heq, hd, hacc, hnone⟩ := htried hfirst
    refine .inl ⟨h₁, d, h₂ ++ [⟨.report { status := statusApplying, message := s₃ }, u⟩], ?_, hd,
      hacc, forall_mem_concat hnone rfl⟩
    rw [← List.append_assoc, heq]
    simp
  · have hr₂ : Running (h ++ (t ++ [⟨.report { status := statusApplying, message := s₃ }, u⟩]) ++
        [⟨op false, a⟩]) := hr₁.concat hend hcount fun hdry => by
      rw [hop.isDryRun] at hdry
      cases hdry
    dsimp only
    cases f false a with
    | some err => exact behaves_fail hr₂.toPending s₄ err
    | none =>
      rw [List.append_assoc] at hr₂ ⊢
      exact hnext _ a ht₁ hr₂

/-- **Dry run, then the write.** The write must be admitted and grounded, and the rest must behave,
after the quiet requests in between. -/
theorem behaves_dryRunThenApply {op : Bool → Op} {f : ∀ b, Ans (op b) → Option String}
    (hop : Attempt op f) {s₁ s₂ s₃ s₄ : String} {next : Cmd Exit} (hr : Running h)
    (hground : ∀ (t : List Ev) (b : Bool), (∀ e ∈ t, Quiet e.op) → x.Grounded cmd (h ++ t) (op b))
    (hw : ∀ t : List Ev, (∀ e ∈ t, Quiet e.op) → LawfulAll (h ++ t) →
      x.WriteOK cmd (h ++ t) (op false))
    (hnext : ∀ (t : List Ev) (a : Ans (op false)), (∀ e ∈ t, Quiet e.op) →
      Running (h ++ (t ++ [⟨op false, a⟩])) → x.Behaves cmd next (h ++ (t ++ [⟨op false, a⟩]))) :
    x.Behaves cmd (x.dryRunThenApply cmd (fun b => call (op b) >>= fun a => .done (f b a))
      s₁ s₂ s₃ s₄ next) h := by
  have hground' := fun t ht => hground t false ht
  cases hfirst : x.cfg.dryRunFirst with
  | false =>
    unfold dryRunThenApply
    rw [hfirst]
    have hwrite := behaves_dryRunThenApply_write hop s₃ s₄ (t := [])
      (by simpa using hr) (fun e he => by cases he)
      (fun hfirst' => by rw [hfirst] at hfirst'; cases hfirst') hground' hw hnext
    simpa using hwrite
  | true =>
    obtain ⟨hend, hcount⟩ := Op.not_isEnd_of_isAttempt (hop.isAttempt true)
    have hquiet : Quiet (op true) := ⟨hend, hop.isWrite true, hop.isGet true⟩
    rw [dryRunThenApply_eq op f hfirst]
    refine ⟨⟨fun _ => allowed_of_read hr.isOpen hend hquiet.2.1, fun _ hwrite => ?_,
      fun _ => hr.unrejected, by simpa using hground [] true (by simp)⟩, fun a _ => ?_⟩
    · rw [hop.isWrite] at hwrite
      cases hwrite
    dsimp only
    cases hf : f true a with
    | some err => exact behaves_fail (hr.toPending.concat (e := ⟨op true, a⟩) hend hcount) s₁ err
    | none =>
      have hacc := (hop.accepted true a).mp hf
      refine behaves_read (hr.concat hend hcount fun _ => hacc) rfl fun u hr₂ => ?_
      rw [List.append_assoc] at hr₂ ⊢
      refine behaves_dryRunThenApply_write hop s₃ s₄ hr₂ ?_ (fun _ => ?_) hground' hw hnext
      · exact quiet_append (quiet_append (t := []) (by simp) hquiet) ⟨rfl, rfl, rfl⟩
      · exact ⟨h, ⟨op true, a⟩, [⟨.report { status := statusDryRun, message := s₂ }, u⟩], rfl,
          hop.asDryRun, hacc, by simp [Op.isAttempt]⟩

end Rules

end Executor

end K8sAgent
