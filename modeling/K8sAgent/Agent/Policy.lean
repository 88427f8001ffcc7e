import K8sAgent.Protocol.Validator
import K8sAgent.Receiver.Replay
import K8sAgent.Executor.Outcomes

set_option relaxedAutoImplicit false
set_option autoImplicit false

/-!
# Local policy on the intake path

The receiver and the executor as `cmd/operator/main.go` puts them together: one configuration, and
the executor started on every command the receiver dispatches. The local policy of
`internal/validator` is to hold for every command that writes. Nothing on the path asks it, so it
holds only as far as the executor's own checks imply it.

## Main definitions

* `K8sAgent.Agent` — the intake path.
* `K8sAgent.Agent.PolicyEnforced` — a command that writes is one the policy admits, whatever was
  delivered before and whatever the cluster answers.
* `K8sAgent.Agent.Acceptable`, `K8sAgent.Agent.Overlooked` — the commands the receiver lets pass;
  the clauses of the policy that the executor does not check itself.

## Main results

* `K8sAgent.Agent.policyEnforced_iff` — the commands for which the policy is enforced.
-/

namespace K8sAgent

open Interaction

/-- The intake path of the agent. -/
structure Agent where
  /-- Configuration. -/
  cfg : Config
  /-- Functions of other packages. -/
  env : Env
  /-- Whether a discovery client could be built. -/
  hasMapper : Bool := true

namespace Agent

/-- The receiver. -/
def receiver (a : Agent) : Receiver := ⟨a.cfg, a.env⟩

/-- The executor it starts. -/
def executor (a : Agent) : Executor := ⟨a.cfg, a.env, a.hasMapper⟩

/-- **Local policy is enforced on a command**: wherever it is dispatched in a sequence of
deliveries, a run of the executor on it that writes is a run on a command the policy admits. -/
def PolicyEnforced (a : Agent) (cmd : Command) : Prop :=
  ∀ ds i d, a.receiver.Dispatched ds i d → d.cmd = cmd →
    ∀ fuel tr ex, Runs (a.executor.handleCommand fuel cmd) tr ex → (∀ e ∈ tr, Lawful e.op e.ans) →
      Executor.Wrote tr → Validator.validate a.env a.cfg (some cmd) = none

/-- The receiver lets the command pass, delivered in time and for the first time. -/
def Acceptable (a : Agent) (cmd : Command) : Prop :=
  a.cfg.writerEnabled = true ∧
    ∃ pub, a.cfg.publicKey = .ok pub ∧ cmd.verifySignature a.env pub = none

/-- The policy refuses the command for a reason that the executor does not look at: an empty
payload, a delete that is not allowed, an incomplete Helm part or a protected namespace. -/
def Overlooked (a : Agent) (cmd : Command) : Prop :=
  ((cmd.verb = verbApply ∨ cmd.verb = verbPatch) ∧ cmd.payload = []) ∨
  (cmd.verb = verbDelete ∧ a.cfg.allowDelete = false) ∨
  (Validator.isHelmVerb cmd.verb = true ∧ Validator.helmComplete cmd.helm = false) ∨
  (Validator.targetNamespace cmd ≠ "" ∧
    a.cfg.protectedNamespace (Validator.targetNamespace cmd) = true)

variable {a : Agent} {cmd : Command}

/-! ## The receiver -/

/-- A dispatched command is acceptable. -/
lemma acceptable_of_dispatched {ds : List Delivery} {i : ℕ} {d : Delivery}
    (hd : a.receiver.Dispatched ds i d) : a.Acceptable d.cmd := by
  obtain ⟨hw, pub, hpub, hsig, -⟩ := Receiver.checks_eq_none_iff.mp hd.checks
  exact ⟨hw, pub, hpub, hsig⟩

/-- An acceptable command is dispatched when it comes first and in time. -/
lemma exists_dispatched (ha : a.Acceptable cmd) :
    ∃ ds i d, a.receiver.Dispatched ds i d ∧ d.cmd = cmd := by
  obtain ⟨hw, pub, hpub, hsig⟩ := ha
  refine ⟨[⟨.poll, cmd, cmd.timestamp * 10 ^ 9, 0⟩], 0, _, ⟨rfl, _, rfl, ?_⟩, rfl⟩
  refine Receiver.handleCommand_mem_process.mpr ⟨rfl, rfl, ?_, rfl⟩
  refine Receiver.checks_eq_none_iff.mpr ⟨hw, pub, hpub, hsig, ?_⟩
  rw [sub_self, abs_zero]
  decide

/-! ## The policy -/

/-- The patch types the executor knows are those the policy knows. -/
lemma isPatchType_eq (t : String) :
    Validator.isPatchType t = (Executor.patchTypeOf t).isSome := by
  unfold Validator.isPatchType Executor.patchTypeOf
  split_ifs <;> simp_all

/-- The verbs of commands that can write are known to the policy. -/
lemma knownVerb_of_canWrite (hcan : a.executor.CanWrite cmd) :
    cmd.verb = verbApply ∨ cmd.verb = verbPatch ∨ Validator.isTargetVerb cmd.verb = true ∨
      Validator.isHelmVerb cmd.verb = true := by
  rcases hcan with ⟨hv, -⟩ | ⟨hv, -⟩ | ⟨hv, -⟩ | ⟨hv | hv | hv, -⟩ | ⟨hv | hv, -⟩ | ⟨hv, -⟩ <;>
    simp [hv, Validator.isTargetVerb, Validator.isHelmVerb]

/-- The policy's checks that depend on the verb, for a verb that can write. -/
lemma validateVerb_eq_none_iff (hcan : a.executor.CanWrite cmd) :
    Validator.validateVerb a.env cmd = none ↔
      ((cmd.verb = verbApply ∨ cmd.verb = verbPatch) → cmd.payload ≠ []) ∧
      (Validator.isHelmVerb cmd.verb = true → Validator.helmComplete cmd.helm = true) := by
  unfold Validator.validateVerb
  rcases knownVerb_of_canWrite hcan with hv | hv | hv | hv
  · have hhelm : Validator.isHelmVerb verbApply = false := by decide
    simp [hv, hhelm]
  · have hhelm : Validator.isHelmVerb verbPatch = false := by decide
    simp [hv, hhelm]
  · have hnot : ¬(cmd.verb = verbApply ∨ cmd.verb = verbPatch) ∧ cmd.verb ≠ verbClusterUpgrade ∧
        Validator.isHelmVerb cmd.verb = false := by
      simp only [Validator.isTargetVerb, Bool.or_eq_true, decide_eq_true_eq] at hv
      rcases hv with ((hv | hv) | hv) | hv <;> rw [hv] <;> decide
    simp [hv, hnot]
  · have hnot : ¬(cmd.verb = verbApply ∨ cmd.verb = verbPatch) ∧ cmd.verb ≠ verbClusterUpgrade ∧
        Validator.isTargetVerb cmd.verb = false := by
      simp only [Validator.isHelmVerb, Bool.or_eq_true, decide_eq_true_eq] at hv
      rcases hv with (hv | hv) | hv <;> rw [hv] <;> decide
    simp [hv, hnot, Validator.validateHelm]

/-- A patch that can write is of a type the policy knows. -/
lemma isPatchType_of_canWrite (hcan : a.executor.CanWrite cmd) (hv : cmd.verb = verbPatch) :
    Validator.isPatchType cmd.patchType = true := by
  rw [isPatchType_eq]
  rcases hcan with ⟨hv', -⟩ | ⟨-, hpt, -⟩ | ⟨hv', -⟩ | ⟨hv' | hv' | hv', -⟩ | ⟨hv' | hv', -⟩ |
    ⟨hv', -⟩
  case inr.inl => exact hpt
  all_goals
    rw [hv] at hv'
    exact absurd hv' (by decide)

/-- **What the policy adds to the executor's own checks** is what these overlook. -/
theorem validate_eq_none_iff_not_overlooked (hcan : a.executor.CanWrite cmd) :
    Validator.validate a.env a.cfg (some cmd) = none ↔ ¬a.Overlooked cmd := by
  rw [Validator.validate_eq_none_iff, validateVerb_eq_none_iff hcan]
  constructor
  · rintro ⟨⟨hpayload, hhelm⟩, -, hdelete, hns⟩ (⟨hv, hp⟩ | ⟨hv, hd⟩ | ⟨hv, hh⟩ | ⟨hne, hp⟩)
    · exact hpayload hv hp
    · rw [hdelete hv] at hd
      cases hd
    · rw [hhelm hv] at hh
      cases hh
    · rw [hns.resolve_left hne] at hp
      cases hp
  · intro hover
    simp only [Overlooked, not_or, not_and, Bool.not_eq_false, Bool.not_eq_true] at hover
    obtain ⟨hpayload, hdelete, hhelm, hns⟩ := hover
    exact ⟨⟨hpayload, hhelm⟩, isPatchType_of_canWrite hcan, hdelete,
      or_iff_not_imp_left.mpr hns⟩

/-- **Which commands the policy is enforced on.** Those that the receiver does not let pass, those
that cannot write, and those that no clause of the policy refuses that the executor does not check
itself.

**Proof sketch.** What is dispatched is acceptable, and what writes can write. For a command that
can write, the policy says no more than the overlooked clauses. Conversely, an acceptable command
is dispatched when it is the first to be delivered, and a command that can write does so in some
run. -/
theorem policyEnforced_iff (a : Agent) (cmd : Command) :
    a.PolicyEnforced cmd ↔ ¬(a.Acceptable cmd ∧ a.executor.CanWrite cmd ∧ a.Overlooked cmd) := by
  constructor
  · rintro henf ⟨hacc, hcan, hover⟩
    obtain ⟨ds, i, d, hd, hcmd⟩ := exists_dispatched hacc
    obtain ⟨tr, ex, hrun, hok, hw⟩ := (Executor.exists_write_iff 0).mpr hcan
    have hadmit := henf ds i d hd hcmd 0 tr ex hrun hok hw
    exact (validate_eq_none_iff_not_overlooked hcan).mp hadmit hover
  · rintro hnot ds i d hd rfl fuel tr ex hrun hok hw
    have hcan := (Executor.exists_write_iff fuel).mp ⟨tr, ex, hrun, hok, hw⟩
    refine (validate_eq_none_iff_not_overlooked hcan).mpr fun hover => ?_
    exact hnot ⟨acceptable_of_dispatched hd, hcan, hover⟩

/-- Deletes are not allowed, and the signed command deletes a deployment. -/
theorem delete_despite_policy :
    ¬PolicyEnforced ⟨{ serverPublicKey := samplePublicKey, allowDelete := false }, sampleEnv, true⟩
      sampleCommand := by
  intro henf
  have hdisp : Receiver.Dispatched
      ⟨{ serverPublicKey := samplePublicKey, allowDelete := false }, sampleEnv⟩
      [Receiver.sampleDelivery] 0 Receiver.sampleDelivery := by decide +kernel
  have hrun := runs_play (Executor.acceptAll fun _ => some .empty) (Executor.handleCommand
    ⟨{ serverPublicKey := samplePublicKey, allowDelete := false }, sampleEnv, true⟩ 0 sampleCommand)
  have hadmit := henf [Receiver.sampleDelivery] 0 Receiver.sampleDelivery hdisp rfl 0 _ _ hrun
    (fun e he => by rw [mem_play he]; exact Executor.lawful_acceptAll _ e.op)
    (by unfold Executor.Wrote; decide +kernel)
  revert hadmit
  decide +kernel

end Agent

end K8sAgent
