import K8sAgent.Lib.Coupling
import K8sAgent.Executor.Outcomes

set_option relaxedAutoImplicit false
set_option autoImplicit false

/-!
# What reports disclose

The handlers read live objects, secrets among them, and charts, and they report to the control
plane. This module says what of the former can get into the latter. Two runs of one command are
compared, in clusters that differ in the contents of objects and charts and in all but the first
line of Helm's errors. If the differences are of a kind that the handlers have no use for, the two
runs go the same way: request by request they differ in the bodies of writes, and in the twelve
digits of the live hash that a refusal for drift shows.

## Main definitions

* `K8sAgent.Executor.outline` — a request without the body it carries.
* `K8sAgent.Executor.LookAlike` — live objects that a command cannot tell apart.
* `K8sAgent.Executor.Similar` — answers that a command cannot tell apart.
* `K8sAgent.Executor.AlikeReport` — reports that agree but for the digits of the live hash.
* `K8sAgent.Executor.reported` — the reports of a run.

## Main results

* `K8sAgent.Executor.discreet_handleCommand` — every command stays in step with itself.
* `K8sAgent.Executor.reports_of_similar` — similar clusters get the same reports, up to the digits
  of the live hash.
-/

namespace K8sAgent.Executor

open Encoding JsonTree Interaction

/-! ## What a command cannot tell apart -/

/-- A request without the body it carries, and a report without the text of a drift. -/
def outline : Op → Op
  | .report rep => .report { rep with diff := "" }
  | .create ri _ dryRun => .create ri .empty dryRun
  | .update ri _ dryRun => .update ri .empty dryRun
  | .patch ri name pt _ dryRun => .patch ri name pt [] dryRun
  | .install ns release _ vals dryRun => .install ns release [] vals dryRun
  | .upgrade ns release _ vals dryRun => .upgrade ns release [] vals dryRun
  | op => op

/-- Whether a certificate names its issuer. -/
def hasIssuer (cert : Object) : Bool := (cert.nestedMap ["spec", "issuerRef"]).toOption.isSome

/-- Live objects that the command cannot tell apart: where it expects a hash, both have it or none
has, and they have the same kind, namespace and name; to rotate a certificate, both name an issuer
or none does. -/
structure LookAlike (env : Env) (cmd : Command) (live live' : Object) : Prop where
  /-- The verdict on the drift is the same. -/
  drift : cmd.expectedHash ≠ "" → (Drift.hashObject env live = cmd.expectedHash ↔
    Drift.hashObject env live' = cmd.expectedHash)
  /-- A refusal for drift calls both the same. -/
  named : cmd.expectedHash ≠ "" →
    getKind live = getKind live' ∧ getNamespace live = getNamespace live' ∧
      getName live = getName live'
  /-- An issuer is named in both or in none. -/
  issuer : cmd.verb = verbCertRotate → hasIssuer live = hasIssuer live'

/-- Reports that agree but for the digits of the live hash: the same report, or two refusals for
drift on objects that look alike. -/
inductive AlikeReport (env : Env) (cmd : Command) : Report → Report → Prop where
  /-- The reports are the same. -/
  | same (rep : Report) : AlikeReport env cmd rep rep
  /-- The refusals differ in the beginning of the live hash. -/
  | drift {live live' : Object} (hexp : cmd.expectedHash ≠ "")
      (h : LookAlike env cmd live live') (msg : String) :
      AlikeReport env cmd
        { status := statusRefused, message := msg,
          diff := Drift.summary live cmd.expectedHash ++
            Drift.shortHash (Drift.hashObject env live) }
        { status := statusRefused, message := msg,
          diff := Drift.summary live cmd.expectedHash ++
            Drift.shortHash (Drift.hashObject env live') }

/-- Requests that correspond: they are the same up to bodies, and reports agree but for the digits
of the live hash. -/
structure Akin (env : Env) (cmd : Command) (op op' : Op) : Prop where
  /-- The requests have one outline. -/
  outline : outline op = outline op'
  /-- The reports they make agree. -/
  reports : List.Forall₂ (AlikeReport env cmd) op.report?.toList op'.report?.toList

/-- Answered requests that the command cannot tell apart. -/
inductive Similar (env : Env) (cmd : Command) : Ev → Ev → Prop where
  /-- The request and the answer are the same. -/
  | same (e : Ev) : Similar env cmd e e
  /-- A report is made; there is no answer. -/
  | report (rep rep' : Report) : Similar env cmd ⟨.report rep, ()⟩ ⟨.report rep', ()⟩
  /-- Live objects that look alike are read. -/
  | get (ri : ResourceInterface) (name : String) {live live' : Object}
      (h : LookAlike env cmd live live') :
      Similar env cmd ⟨.get ri name, .ok live⟩ ⟨.get ri name, .ok live'⟩
  /-- Objects are created, with the same outcome. -/
  | create (ri : ResourceInterface) (obj obj' : Object) (dryRun : Bool) (a : Option ApiError) :
      Similar env cmd ⟨.create ri obj dryRun, a⟩ ⟨.create ri obj' dryRun, a⟩
  /-- Objects are updated, with the same outcome. -/
  | update (ri : ResourceInterface) (obj obj' : Object) (dryRun : Bool) (a : Option ApiError) :
      Similar env cmd ⟨.update ri obj dryRun, a⟩ ⟨.update ri obj' dryRun, a⟩
  /-- Objects are patched, with the same outcome. -/
  | patch (ri : ResourceInterface) (name : String) (pt : PatchType) (data data' : Bytes)
      (dryRun : Bool) (a : Option ApiError) :
      Similar env cmd ⟨.patch ri name pt data dryRun, a⟩ ⟨.patch ri name pt data' dryRun, a⟩
  /-- Two charts are loaded. -/
  | loadChart (path : String) (chart chart' : Bytes) :
      Similar env cmd ⟨.loadChart path, .ok chart⟩ ⟨.loadChart path, .ok chart'⟩
  /-- A release has a status in both or in none. -/
  | helmStatus (ns release : String) {a a' : Option String} (h : a.isSome = a'.isSome) :
      Similar env cmd ⟨.helmStatus ns release, a⟩ ⟨.helmStatus ns release, a'⟩
  /-- A release is installed; errors agree in their first lines. -/
  | install (ns release : String) (chart chart' : Bytes) (vals : Object) (dryRun : Bool)
      {a a' : Option String} (h : a.map sanitizeHelmErr = a'.map sanitizeHelmErr) :
      Similar env cmd ⟨.install ns release chart vals dryRun, a⟩
        ⟨.install ns release chart' vals dryRun, a'⟩
  /-- A release is upgraded; errors agree in their first lines. -/
  | upgrade (ns release : String) (chart chart' : Bytes) (vals : Object) (dryRun : Bool)
      {a a' : Option String} (h : a.map sanitizeHelmErr = a'.map sanitizeHelmErr) :
      Similar env cmd ⟨.upgrade ns release chart vals dryRun, a⟩
        ⟨.upgrade ns release chart' vals dryRun, a'⟩
  /-- A release is uninstalled; errors agree in their first lines. -/
  | uninstall (ns release : String) {a a' : Option String}
      (h : a.map sanitizeHelmErr = a'.map sanitizeHelmErr) :
      Similar env cmd ⟨.uninstall ns release, a⟩ ⟨.uninstall ns release, a'⟩

/-- The requests whose answers are told apart. -/
def isTold : Op → Bool
  | .get _ _ | .loadChart _ | .helmStatus _ _ => false
  | .install _ _ _ _ _ | .upgrade _ _ _ _ _ | .uninstall _ _ => false
  | _ => true

/-- Similar answers to a request whose answers are told apart are the same. -/
lemma Similar.eq {env : Env} {cmd : Command} {op : Op} {a a' : Ans op}
    (h : Similar env cmd ⟨op, a⟩ ⟨op, a'⟩) (hop : isTold op = true) : a = a' := by
  cases h with
  | same | report | create | update | patch => rfl
  | _ => cases hop

lemma lookAlike_refl (env : Env) (cmd : Command) (live : Object) :
    LookAlike env cmd live live := ⟨fun _ => Iff.rfl, fun _ => ⟨rfl, rfl, rfl⟩, fun _ => rfl⟩

/-- Without an expected hash, reports that agree are the same. -/
lemma AlikeReport.eq {env : Env} {cmd : Command} {rep rep' : Report}
    (h : AlikeReport env cmd rep rep') (hexp : cmd.expectedHash = "") : rep = rep' := by
  cases h with
  | same => rfl
  | drift hne => exact absurd hexp hne

/-- A request corresponds to itself. -/
lemma akin_refl (env : Env) (cmd : Command) (op : Op) : Akin env cmd op op :=
  ⟨rfl, List.forall₂_same.mpr fun rep _ => .same rep⟩

/-- Requests of one outline correspond, if they are no reports. -/
lemma akin_of_outline {env : Env} {cmd : Command} {op op' : Op} (h : outline op = outline op')
    (hop : op.report? = none) (hop' : op'.report? = none) : Akin env cmd op op' :=
  ⟨h, by rw [hop, hop']; exact .nil⟩

/-- Similar reads of an object: the same error, or objects that look alike. -/
lemma Similar.get_cases {env : Env} {cmd : Command} {ri : ResourceInterface} {name : String}
    {a a' : Except ApiError Object} (h : Similar env cmd ⟨.get ri name, a⟩ ⟨.get ri name, a'⟩) :
    (∃ e, a = .error e ∧ a' = .error e) ∨
      ∃ live live', a = .ok live ∧ a' = .ok live' ∧ LookAlike env cmd live live' := by
  cases h with
  | same =>
    cases a with
    | error e => exact .inl ⟨e, rfl, rfl⟩
    | ok live => exact .inr ⟨live, live, rfl, rfl, lookAlike_refl env cmd live⟩
  | get _ _ h => exact .inr ⟨_, _, rfl, rfl, h⟩

/-- Reports that agree correspond. -/
lemma AlikeReport.akin {env : Env} {cmd : Command} {rep rep' : Report}
    (h : AlikeReport env cmd rep rep') : Akin env cmd (.report rep) (.report rep') := by
  refine ⟨?_, .cons h .nil⟩
  cases h with
  | same => rfl
  | drift => simp only [outline]

/-! ## Programs in step -/

/-- The programs make corresponding requests, as long as the answers are similar, and end with
related results. -/
abbrev InStep (x : Executor) (cmd : Command) {α β : Type} (R : α → β → Prop) (p : Cmd α)
    (q : Cmd β) : Prop :=
  Coupled (Akin x.env cmd) (Similar x.env cmd) R p q

/-- The program stays in step with itself. -/
abbrev Discreet (x : Executor) (cmd : Command) (p : Cmd Exit) : Prop := x.InStep cmd Eq p p

section Steps

variable {x : Executor} {cmd : Command}

/-- Two programs that make the same request `op`, whose answers are told, are in step if they are
for each answer. -/
lemma inStep_ask {α β : Type} {R : α → β → Prop} {op : Op} {k : Ans op → Cmd α}
    {k' : Ans op → Cmd β} (hop : isTold op = true) (hk : ∀ a, x.InStep cmd R (k a) (k' a)) :
    x.InStep cmd R (.ask op k) (.ask op k') := by
  refine ⟨akin_refl x.env cmd op, fun a a' hsim => ?_⟩
  rw [hsim.eq hop]
  exact hk a'

/-- Two programs that branch on the same condition are in step if both pairs of sides are. -/
lemma inStep_ite {α β : Type} {R : α → β → Prop} {c : Prop} [Decidable c] {p q : Cmd α}
    {p' q' : Cmd β} (hp : c → x.InStep cmd R p p') (hq : ¬c → x.InStep cmd R q q') :
    x.InStep cmd R (if c then p else q) (if c then p' else q') := by
  split_ifs with hc
  · exact hp hc
  · exact hq hc

lemma discreet_fail (msg err : String) : x.Discreet cmd (fail cmd msg err) :=
  inStep_ask rfl fun _ => inStep_ask rfl fun _ => rfl

lemma discreet_succeed (msg : String) : x.Discreet cmd (succeed cmd msg) :=
  inStep_ask rfl fun _ => inStep_ask rfl fun _ => rfl

lemma discreet_refuse (reason : String) : x.Discreet cmd (refuse cmd reason) :=
  inStep_ask rfl fun _ => inStep_ask rfl fun _ => rfl

/-! ## Shared steps -/

/-- What reading an object tells in both runs. -/
inductive LiveAlike (env : Env) (cmd : Command) :
    Except String (Option Object) → Except String (Option Object) → Prop where
  /-- The same error. -/
  | error (e : String) : LiveAlike env cmd (.error e) (.error e)
  /-- There is no object. -/
  | absent : LiveAlike env cmd (.ok none) (.ok none)
  /-- There are objects that look alike. -/
  | present {live live' : Object} (h : LookAlike env cmd live live') :
      LiveAlike env cmd (.ok (some live)) (.ok (some live'))

/-- Two runs of `liveGet` are in step, with results that agree but for objects that look alike. -/
lemma inStep_liveGet (ri : ResourceInterface) (name : String) :
    x.InStep cmd (LiveAlike x.env cmd) (liveGet ri name) (liveGet ri name) := by
  refine ⟨akin_refl _ _ _, fun a a' hsim => ?_⟩
  obtain ⟨e, rfl, rfl⟩ | ⟨live, live', rfl, rfl, h⟩ := hsim.get_cases
  · cases e with
    | notFound _ => exact .absent
    | other msg => exact .error msg
  · exact .present h

/-- Two refusals for drift, on objects that look alike. -/
lemma inStep_refuseDrift {live live' : Object} (hexp : cmd.expectedHash ≠ "")
    (h : LookAlike x.env cmd live live') (msg : String) :
    x.InStep cmd Eq
      (checkDrift.refuseDrift cmd msg (Drift.summary live cmd.expectedHash ++
        Drift.shortHash (Drift.hashObject x.env live)))
      (checkDrift.refuseDrift cmd msg (Drift.summary live' cmd.expectedHash ++
        Drift.shortHash (Drift.hashObject x.env live'))) := by
  have hsummary : Drift.summary live' cmd.expectedHash = Drift.summary live cmd.expectedHash := by
    obtain ⟨hkind, hns, hname⟩ := h.named hexp
    unfold Drift.summary
    rw [hkind, hns, hname]
  rw [hsummary]
  exact inStep_ask rfl fun _ => ⟨(AlikeReport.drift hexp h msg).akin, fun _ _ _ => rfl⟩

/-- The drift checks of two objects that look alike are in step, with the same decision. -/
lemma inStep_checkDrift {live live' : Object} (h : LookAlike x.env cmd live live') :
    x.InStep cmd Eq (x.checkDrift cmd live) (x.checkDrift cmd live') := by
  unfold checkDrift
  refine inStep_ite (fun _ => rfl) fun hexp => ?_
  by_cases hmatch : Drift.hashObject x.env live = cmd.expectedHash
  · have hmatch' := (h.drift hexp).mp hmatch
    rw [Drift.check_eq_none.mpr hmatch, Drift.check_eq_none.mpr hmatch']
    exact rfl
  · have hmatch' := mt (h.drift hexp).mpr hmatch
    rw [Drift.check_of_ne hmatch, Drift.check_of_ne hmatch']
    refine inStep_ite (fun _ => rfl) fun _ => ?_
    exact inStep_ite
      (fun _ => inStep_ite (fun _ => rfl) fun _ => inStep_refuseDrift hexp h _)
      fun _ => inStep_refuseDrift hexp h _

/-- The end of the handlers that can try their write first. -/
lemma inStep_dryRunThenApply {attempt attempt' : Bool → Cmd (Option String)} {next : Cmd Exit}
    {s₁ s₂ s₃ s₄ : String} (hatt : ∀ b, x.InStep cmd Eq (attempt b) (attempt' b))
    (hnext : x.Discreet cmd next) :
    x.InStep cmd Eq (x.dryRunThenApply cmd attempt s₁ s₂ s₃ s₄ next)
      (x.dryRunThenApply cmd attempt' s₁ s₂ s₃ s₄ next) := by
  have hwrite : x.InStep cmd Eq (dryRunThenApply.write cmd attempt s₃ s₄ next)
      (dryRunThenApply.write cmd attempt' s₃ s₄ next) := by
    refine inStep_ask rfl fun _ => (hatt false).bind ?_
    rintro err _ rfl
    cases err with
    | some err => exact discreet_fail _ _
    | none => exact hnext
  unfold dryRunThenApply
  refine inStep_ite (fun _ => (hatt true).bind ?_) fun _ => hwrite
  rintro err _ rfl
  cases err with
  | some err => exact discreet_fail _ _
  | none => exact inStep_ask rfl fun _ => hwrite

/-! ## Apply -/

/-- Creating `obj` and creating `obj'` are in step. -/
lemma inStep_create (ri : ResourceInterface) (obj obj' : Object) (b : Bool) :
    x.InStep cmd Eq (call (.create ri obj b) >>= fun a => .done (a.map ApiError.text))
      (call (.create ri obj' b) >>= fun a => .done (a.map ApiError.text)) := by
  refine ⟨akin_of_outline rfl rfl rfl, fun a a' hsim => ?_⟩
  cases hsim with
  | same | create => rfl

/-- Updating to `obj` and updating to `obj'` are in step. -/
lemma inStep_update (ri : ResourceInterface) (obj obj' : Object) (b : Bool) :
    x.InStep cmd Eq (call (.update ri obj b) >>= fun a => .done (a.map ApiError.text))
      (call (.update ri obj' b) >>= fun a => .done (a.map ApiError.text)) := by
  refine ⟨akin_of_outline rfl rfl rfl, fun a a' hsim => ?_⟩
  cases hsim with
  | same | update => rfl

/-- Writing `body` and writing `body'` by the same operation are in step. -/
lemma inStep_createOrUpdate (ri : ResourceInterface) (body body' : Object) (op : String)
    (b : Bool) :
    x.InStep cmd Eq (createOrUpdate ri body op b) (createOrUpdate ri body' op b) :=
  inStep_ite (fun _ => inStep_create ri body body' b) fun _ => inStep_update ri body body' b

/-- Two discoveries of the resource of one object `obj` are in step. -/
lemma inStep_gvrFor (obj : Object) (fallback : ResourceRef) :
    x.InStep cmd Eq (x.gvrFor obj fallback) (x.gvrFor obj fallback) := by
  refine inStep_ite (fun _ => inStep_ask rfl fun m => ?_) fun _ => rfl
  cases m <;> rfl

/-- `applyObject` is discreet if what comes after it is, whether or not the object existed. -/
lemma discreet_applyObject (obj : Object) {next : Bool → Cmd Exit}
    (hnext : ∀ existed, x.Discreet cmd (next existed)) :
    x.Discreet cmd (x.applyObject cmd obj next) := by
  refine (inStep_gvrFor obj cmd.target).bind ?_
  rintro res _ rfl
  match res with
  | .error e => exact discreet_fail _ _
  | .ok (gvr, namespaced) =>
    refine (inStep_liveGet _ _).bind fun live live' hlive => ?_
    cases hlive with
    | error e => exact discreet_fail _ _
    | absent =>
      exact inStep_dryRunThenApply (inStep_createOrUpdate _ _ _ _) (hnext false)
    | present h =>
      refine (inStep_checkDrift h).bind ?_
      rintro proceed _ rfl
      cases proceed with
      | false => exact rfl
      | true => exact inStep_dryRunThenApply (inStep_createOrUpdate _ _ _ _) (hnext true)

/-- The loop of `apply` over the objects is discreet. -/
lemma discreet_applyLoop (objs : List Object) (created updated : ℕ) :
    x.Discreet cmd (x.applyLoop cmd objs created updated) := by
  induction objs generalizing created updated with
  | nil => exact discreet_succeed _
  | cons obj objs ih =>
    exact discreet_applyObject _ fun existed => inStep_ite (fun _ => ih _ _) fun _ => ih _ _

lemma discreet_apply : x.Discreet cmd (x.apply cmd) := by
  unfold apply
  match decodeManifest x.env cmd.payload with
  | .error e => exact discreet_fail _ _
  | .ok [] => exact discreet_fail _ _
  | .ok (obj :: objs) => exact discreet_applyLoop _ _ _

/-! ## Patch and delete -/

/-- A request with the same outcome in both runs, and its error. -/
lemma inStep_call {op : Op} (f : Ans op → Option String) (hop : isTold op = true) :
    x.InStep cmd Eq (call op >>= fun a => .done (f a)) (call op >>= fun a => .done (f a)) :=
  inStep_ask hop fun _ => rfl

/-- The record of the new hash depends on the live object and is not reported. -/
lemma discreet_restamp {next : Cmd Exit} (hnext : x.Discreet cmd next) :
    x.Discreet cmd (x.restamp cmd next) := by
  refine (inStep_liveGet _ _).bind fun live live' hlive => ?_
  cases hlive with
  | error | absent => exact hnext
  | present h =>
    refine ⟨akin_of_outline ?_ rfl rfl, fun _ _ _ => hnext⟩
    simp only [outline]

lemma discreet_patch : x.Discreet cmd (x.patch cmd) := by
  unfold patch
  cases patchTypeOf cmd.patchType with
  | none => exact discreet_refuse _
  | some pt =>
    refine (inStep_liveGet _ _).bind fun live live' hlive => ?_
    cases hlive with
    | error | absent => exact discreet_fail _ _
    | present h =>
      refine (inStep_checkDrift h).bind ?_
      rintro proceed _ rfl
      cases proceed with
      | false => exact rfl
      | true =>
        exact inStep_dryRunThenApply (fun b => inStep_call _ rfl)
          (discreet_restamp (discreet_succeed _))

lemma discreet_delete : x.Discreet cmd (x.delete cmd) := by
  refine (inStep_liveGet _ _).bind fun live live' hlive => ?_
  cases hlive with
  | error => exact discreet_fail _ _
  | absent => exact discreet_succeed _
  | present h =>
    refine (inStep_checkDrift h).bind ?_
    rintro proceed _ rfl
    cases proceed with
    | false => exact rfl
    | true => exact inStep_dryRunThenApply (fun b => inStep_call _ rfl) (discreet_succeed _)

/-! ## Nodes -/

lemma discreet_evictPod {p : Pod} {lastSuccess : ℤ} {evicted total : ℕ} {next : Cmd Exit}
    (hnext : x.Discreet cmd next) (fuel : ℕ) :
    x.Discreet cmd (x.evictPod cmd p lastSuccess evicted total next fuel) := by
  induction fuel with
  | zero => exact rfl
  | succ fuel ih =>
    refine inStep_ask rfl fun ans => ?_
    match ans with
    | none => exact hnext
    | some (.notFound _) => exact hnext
    | some (.other msg) =>
      refine inStep_ask rfl fun now => inStep_ite (fun _ => inStep_ask rfl fun _ => rfl) fun _ => ?_
      refine inStep_ask rfl fun ans => ?_
      match ans with
      | some err => exact discreet_fail _ _
      | none => exact ih

lemma discreet_evictAll (fuel total : ℕ) (pods : List Pod) (lastSuccess : ℤ) (evicted : ℕ) :
    x.Discreet cmd (x.evictAll cmd fuel total pods lastSuccess evicted) := by
  induction pods generalizing lastSuccess evicted with
  | nil => exact inStep_ask rfl fun _ => discreet_succeed _
  | cons p pods ih =>
    refine inStep_ite (fun _ => discreet_evictPod ?_ fuel) fun _ => ih _ _
    exact inStep_ask rfl fun _ => inStep_ask rfl fun _ => inStep_ask rfl fun _ => ih _ _

lemma discreet_drainNode (fuel : ℕ) : x.Discreet cmd (x.drainNode fuel cmd) := by
  refine inStep_ite (fun _ => discreet_fail _ _) fun _ => inStep_ask rfl fun ans => ?_
  match ans with
  | some e => exact discreet_fail _ _
  | none =>
    refine inStep_ask rfl fun ans => ?_
    match ans with
    | some e => exact discreet_fail _ _
    | none =>
      refine inStep_ask rfl fun ans => ?_
      match ans with
      | .error e => exact discreet_fail _ _
      | .ok pods =>
        refine inStep_ite (fun _ => inStep_ask rfl fun _ => discreet_succeed _) fun _ => ?_
        exact inStep_ask rfl fun _ => discreet_evictAll _ _ _ _ _

lemma discreet_uncordonNode : x.Discreet cmd (uncordonNode cmd) := by
  refine inStep_ite (fun _ => discreet_fail _ _) fun _ => inStep_ask rfl fun ans => ?_
  match ans with
  | some e => exact discreet_fail _ _
  | none =>
    refine inStep_ask rfl fun ans => ?_
    match ans with
    | some e => exact discreet_fail _ _
    | none => exact discreet_succeed _

/-! ## Certificates -/

/-- A certificate request depends on the certificate, and what is reported of it does not. -/
lemma discreet_certRotate (hverb : cmd.verb = verbCertRotate) :
    x.Discreet cmd (x.certRotate cmd) := by
  refine ⟨akin_refl _ _ _, fun a a' hsim => ?_⟩
  obtain ⟨e, rfl, rfl⟩ | ⟨cert, cert', rfl, rfl, h⟩ := hsim.get_cases
  · exact discreet_fail _ _
  have hissuer := h.issuer hverb
  unfold hasIssuer at hissuer
  dsimp only [Prog.bind]
  cases hc : (cert.nestedMap ["spec", "issuerRef"]).toOption with
  | none =>
    cases hc' : (cert'.nestedMap ["spec", "issuerRef"]).toOption with
    | none => exact discreet_fail _ _
    | some issuerRef' => simp [hc, hc'] at hissuer
  | some issuerRef =>
    cases hc' : (cert'.nestedMap ["spec", "issuerRef"]).toOption with
    | none => simp [hc, hc'] at hissuer
    | some issuerRef' =>
      exact inStep_ask rfl fun now =>
        inStep_dryRunThenApply (fun b => inStep_create _ _ _ b) (discreet_succeed _)

/-! ## Helm -/

/-- What loading a chart tells in both runs. -/
inductive ChartAlike : Except String Bytes → Except String Bytes → Prop where
  /-- The same error. -/
  | error (e : String) : ChartAlike (.error e) (.error e)
  /-- A chart each. -/
  | ok (chart chart' : Bytes) : ChartAlike (.ok chart) (.ok chart')

/-- Two loads of the chart at one path are in step, with the same error or a chart each. -/
lemma inStep_loadChart (path : String) :
    x.InStep cmd ChartAlike (call (.loadChart path)) (call (.loadChart path)) := by
  refine ⟨akin_refl _ _ _, fun a a' hsim => ?_⟩
  cases hsim with
  | same =>
    match a with
    | .error e => exact .error e
    | .ok chart => exact .ok chart chart
  | loadChart => exact .ok _ _

/-- Finding and loading the chart of `spec` is in step with itself, with the same error or a chart
each. -/
lemma inStep_locateChart (spec : HelmSpec) :
    x.InStep cmd ChartAlike (locateChart spec) (locateChart spec) := by
  refine inStep_ask rfl fun existing => inStep_ite (fun _ => inStep_loadChart _) fun _ => ?_
  refine inStep_ask rfl fun ans => ?_
  match ans with
  | .error e => exact .error e
  | .ok path => exact inStep_loadChart path

/-- Installing `chart` and installing `chart'` with the same values are in step. -/
lemma inStep_install (ns release : String) (chart chart' : Bytes) (vals : Object) (b : Bool) :
    x.InStep cmd Eq
      (call (.install ns release chart vals b) >>= fun a => .done (a.map sanitizeHelmErr))
      (call (.install ns release chart' vals b) >>= fun a => .done (a.map sanitizeHelmErr)) := by
  refine ⟨akin_of_outline rfl rfl rfl, fun a a' hsim => ?_⟩
  cases hsim with
  | same => rfl
  | install _ _ _ _ _ _ herr => exact herr

/-- Upgrading to `chart` and upgrading to `chart'` with the same values are in step. -/
lemma inStep_upgrade (ns release : String) (chart chart' : Bytes) (vals : Object) (b : Bool) :
    x.InStep cmd Eq
      (call (.upgrade ns release chart vals b) >>= fun a => .done (a.map sanitizeHelmErr))
      (call (.upgrade ns release chart' vals b) >>= fun a => .done (a.map sanitizeHelmErr)) := by
  refine ⟨akin_of_outline rfl rfl rfl, fun a a' hsim => ?_⟩
  cases hsim with
  | same => rfl
  | upgrade _ _ _ _ _ _ herr => exact herr

/-- The removal of a release: of an error the first line counts. -/
lemma inStep_uninstall {ns release : String} {k k' : Option String → Cmd Exit}
    (hnone : x.InStep cmd Eq (k none) (k' none))
    (hsome : ∀ e e', sanitizeHelmErr e = sanitizeHelmErr e' →
      x.InStep cmd Eq (k (some e)) (k' (some e'))) :
    x.InStep cmd Eq (.ask (.uninstall ns release) k) (.ask (.uninstall ns release) k') := by
  refine ⟨akin_refl _ _ _, fun a a' hsim => ?_⟩
  have herr : a.map sanitizeHelmErr = a'.map sanitizeHelmErr := by
    cases hsim with
    | same => rfl
    | uninstall _ _ herr => exact herr
  match a, a' with
  | none, none => exact hnone
  | none, some _ => cases herr
  | some _, none => cases herr
  | some e, some e' => exact hsome e e' (Option.some_inj.mp herr)

/-- The status of a release: that there is none counts, and not why. -/
lemma inStep_helmStatus {ns release : String} {k k' : Option String → Cmd Exit}
    (hnone : x.InStep cmd Eq (k none) (k' none))
    (hsome : ∀ e e', x.InStep cmd Eq (k (some e)) (k' (some e'))) :
    x.InStep cmd Eq (.ask (.helmStatus ns release) k) (.ask (.helmStatus ns release) k') := by
  refine ⟨akin_refl _ _ _, fun a a' hsim => ?_⟩
  have hboth : a.isSome = a'.isSome := by
    cases hsim with
    | same => rfl
    | helmStatus _ _ h => exact h
  match a, a' with
  | none, none => exact hnone
  | none, some _ => cases hboth
  | some _, none => cases hboth
  | some e, some e' => exact hsome e e'

lemma discreet_helmInstall : x.Discreet cmd (x.helmInstall cmd) := by
  unfold helmInstall
  cases cmd.helm with
  | none => exact rfl
  | some h =>
    dsimp only
    cases parseValues x.env h with
    | error e => exact discreet_fail _ _
    | ok vals =>
      refine inStep_ask rfl fun ans => ?_
      match ans with
      | some e => exact discreet_fail _ _
      | none =>
        refine (inStep_locateChart h).bind fun chrt chrt' hchrt => ?_
        cases hchrt with
        | error e => exact discreet_fail _ _
        | ok chart chart' =>
          exact inStep_dryRunThenApply (fun b => inStep_install _ _ chart chart' vals b)
            (discreet_succeed _)

lemma discreet_helmUpgrade : x.Discreet cmd (x.helmUpgrade cmd) := by
  unfold helmUpgrade
  cases cmd.helm with
  | none => exact rfl
  | some h =>
    dsimp only
    cases parseValues x.env h with
    | error e => exact discreet_fail _ _
    | ok vals =>
      refine inStep_ask rfl fun ans => ?_
      match ans with
      | some e => exact discreet_fail _ _
      | none =>
        refine inStep_helmStatus ?_ fun _ _ => discreet_fail _ _
        refine (inStep_locateChart h).bind fun chrt chrt' hchrt => ?_
        cases hchrt with
        | error e => exact discreet_fail _ _
        | ok chart chart' =>
          exact inStep_dryRunThenApply (fun b => inStep_upgrade _ _ chart chart' vals b)
            (discreet_succeed _)

lemma discreet_helmUninstall : x.Discreet cmd (x.helmUninstall cmd) := by
  unfold helmUninstall
  cases cmd.helm with
  | none => exact rfl
  | some h =>
    refine inStep_ask rfl fun ans => ?_
    match ans with
    | some e => exact discreet_fail _ _
    | none =>
      refine inStep_ask rfl fun _ => inStep_uninstall (discreet_succeed _) fun e e' hline => ?_
      dsimp only [Prog.bind]
      rw [hline]
      exact discreet_fail _ _

end Steps

/-! ## All commands -/

/-- **Every command stays in step with itself**, whatever it is answered. -/
theorem discreet_handleCommand (x : Executor) (fuel : ℕ) (cmd : Command) :
    x.Discreet cmd (x.handleCommand fuel cmd) := by
  refine inStep_ask rfl fun _ => ?_
  -- one verb after another, in the order of the dispatch
  refine inStep_ite (fun _ => discreet_apply) fun _ => ?_
  refine inStep_ite (fun _ => discreet_patch) fun _ => ?_
  refine inStep_ite (fun _ => discreet_delete) fun _ => ?_
  refine inStep_ite (fun _ => discreet_drainNode fuel) fun _ => ?_
  refine inStep_ite (fun _ => discreet_uncordonNode) fun _ => ?_
  refine inStep_ite (fun _ => discreet_helmInstall) fun _ => ?_
  refine inStep_ite (fun _ => discreet_helmUpgrade) fun _ => ?_
  refine inStep_ite (fun _ => discreet_helmUninstall) fun _ => ?_
  refine inStep_ite (fun hv => discreet_certRotate hv) fun _ => ?_
  exact inStep_ite (fun _ => discreet_refuse _) fun _ => discreet_refuse _

/-- The reports of a run. -/
def reported (tr : List Ev) : List Report := tr.filterMap (·.op.report?)

/-- Runs of corresponding requests make reports that agree. -/
lemma alike_reported {env : Env} {cmd : Command} {tr tr' : List Ev}
    (h : List.Forall₂ (fun e e' : Ev => Akin env cmd e.op e'.op) tr tr') :
    List.Forall₂ (AlikeReport env cmd) (reported tr) (reported tr') := by
  have hcons : ∀ (e : Ev) (tr : List Ev),
      reported (e :: tr) = e.op.report?.toList ++ reported tr := by
    intro e tr
    rw [reported, List.filterMap_cons]
    cases e.op.report? <;> rfl
  induction h with
  | nil => exact .nil
  | cons hakin _ ih =>
    rw [hcons, hcons]
    exact List.rel_append hakin.reports ih

/-- **Reports disclose no contents**, but for the beginning of the live hash when they refuse a
command for drift. Run one command in two clusters. Let them answer alike where the runs have come
to the same request, up to its body: with the same answer; with live objects that differ in any way
that leaves, if a hash is expected, the verdict on their drift and their kind, namespace and name,
and the presence of an issuer in a certificate to be rotated; with charts of any contents; with
errors of Helm that agree in their first lines. Then both runs make the same requests up to the
bodies of writes and the text of a drift, and they end in the same way. Their reports agree but for
the digits of the live hash, of which there are twelve at most, and they are the same if no hash is
expected.

**Proof sketch.** The handlers are coupled with themselves (`discreet_handleCommand`): no request
but the body of a write and the text of a drift depends on what the answers may differ in. -/
theorem reports_of_similar (x : Executor) (fuel : ℕ) (cmd : Command) {tr tr' : List Ev}
    {ex ex' : Exit} (hrun : Runs (x.handleCommand fuel cmd) tr ex)
    (hrun' : Runs (x.handleCommand fuel cmd) tr' ex')
    (hsim : ∀ e ∈ tr.zip tr', outline e.1.op = outline e.2.op → Similar x.env cmd e.1 e.2) :
    List.Forall₂ (AlikeReport x.env cmd) (reported tr) (reported tr') ∧
      (cmd.expectedHash = "" → reported tr = reported tr') ∧
      tr.map (fun e => outline e.op) = tr'.map (fun e => outline e.op) ∧ ex = ex' := by
  obtain ⟨hall, hex⟩ := (discreet_handleCommand x fuel cmd).runs hrun hrun' fun e he hakin =>
    hsim e he hakin.outline
  have hreports : List.Forall₂ (AlikeReport x.env cmd) (reported tr) (reported tr') :=
    alike_reported (hall.imp fun _ _ h => h.1)
  refine ⟨hreports, fun hexp => ?_, ?_, hex⟩
  · rw [← List.forall₂_eq_eq_eq]
    exact hreports.imp fun _ _ h => h.eq hexp
  · rw [← List.forall₂_eq_eq_eq, List.forall₂_map_left_iff, List.forall₂_map_right_iff]
    exact hall.imp fun _ _ h => h.1.outline

/-! ## Secrets -/

/-- A secret that holds a password. -/
def passwordSecret (password : String) : Object :=
  .ofList [("kind", .str "Secret"),
    ("metadata", .ofObject (.ofList [("name", .str "db"), ("namespace", .str "apps")])),
    ("data", .ofObject (.ofList [("password", .str password)]))]

/-- The JSON text of the secret. -/
def passwordJSON (password : String) : Bytes :=
  utf8 ("\x7b\"data\":\x7b\"password\":\"" ++ password ++ "\"\x7d,\"kind\":\"Secret\"," ++
    "\"metadata\":\x7b\"name\":\"db\",\"namespace\":\"apps\"\x7d\x7d")

/-- The encodings and digests of two such secrets. -/
def passwordEnv : Env := .ofTables
  { encodings := [(.ofObject (passwordSecret "hunter2"), passwordJSON "hunter2"),
      (.ofObject (passwordSecret "swordfish"), passwordJSON "swordfish")]
    digests := [
      (passwordJSON "hunter2",
        ofHex "42e832b11f9db70a886054c419dbf2fd0013b1044545a94edfbde6038abd36c5"),
      (passwordJSON "swordfish",
        ofHex "7188b5ff547aadf6508c6c55dc219bc2080c4ea9b0abed030fc8b6ccecc834ab")] }

/-- A command to label the secret, in the state with the hash, if there is one. -/
def labelSecret (expectedHash : String) : Command where
  verb := verbPatch
  target := ⟨"", "v1", "secrets", "apps", "db"⟩
  patchType := patchMerge
  payload := utf8 "\x7b\"metadata\":\x7b\"labels\":\x7b\"team\":\"infra\"\x7d\x7d\x7d"
  expectedHash := expectedHash

/-- The run of the command on a secret. -/
def labelSecretRun (expectedHash password : String) : List Ev :=
  play (acceptAll fun _ => some (passwordSecret password))
    (handleCommand ⟨{}, passwordEnv, true⟩ 0 (labelSecret expectedHash))

/-- The hash of the secret with a third password. -/
def thirdHash : String := "ad6c6d0cd8657b120633801386ba5c1e324c59d65cc71a8eaf65609563e22a64"

/-- Two secrets look alike to the command that expects a third one. -/
lemma lookAlike_secrets : LookAlike passwordEnv (labelSecret thirdHash)
    (passwordSecret "hunter2") (passwordSecret "swordfish") where
  drift _ := iff_of_false (by decide +kernel) (by decide +kernel)
  named _ := by decide +kernel
  issuer h := absurd h (by decide)

/-- Both secrets have drifted, and the refusals differ in the digits of the live hash. -/
theorem reports_of_two_secrets :
    (reported (labelSecretRun thirdHash "hunter2")).map Report.diff =
        ["", "drift detected on Secret apps/db: expected hash ad6c6d0cd865, " ++
          "live hash 42e832b11f9d"] ∧
      (reported (labelSecretRun thirdHash "swordfish")).map Report.diff =
        ["", "drift detected on Secret apps/db: expected hash ad6c6d0cd865, " ++
          "live hash 7188b5ff547a"] ∧
      List.Forall₂ (AlikeReport passwordEnv (labelSecret thirdHash))
        (reported (labelSecretRun thirdHash "hunter2"))
        (reported (labelSecretRun thirdHash "swordfish")) := by
  refine ⟨by decide +kernel, by decide +kernel, ?_⟩
  have hall : List.Forall₂ (Similar passwordEnv (labelSecret thirdHash))
      (labelSecretRun thirdHash "hunter2") (labelSecretRun thirdHash "swordfish") :=
    .cons (.same _) (.cons (.get _ _ lookAlike_secrets) (.cons (.same _) (.cons (.report _ _)
      .nil)))
  exact (reports_of_similar ⟨{}, passwordEnv, true⟩ 0 (labelSecret thirdHash) (runs_play _ _)
    (runs_play _ _) fun e he _ => (List.forall₂_iff_zip.mp hall).2 he).1

end K8sAgent.Executor
