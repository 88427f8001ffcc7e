import Mathlib.Data.List.Forall2
import K8sAgent.Lib.Interaction

set_option relaxedAutoImplicit false
set_option autoImplicit false

/-!
# Coupled interaction programs

Two programs side by side: as long as they make corresponding requests and get corresponding
answers, they go on making corresponding requests, and finish with related results. This is how it
is said that a program does not depend on some of what it is told.

## Main definitions

* `Interaction.Coupled` — two programs stay in step.

## Main results

* `Interaction.Coupled.bind` — the rule of sequencing.
* `Interaction.Coupled.runs` — what coupling says of two runs.
-/

namespace Interaction

variable {Op : Type} {Ans : Op → Type} {α β γ δ : Type}

/-- The programs make requests that correspond by `same`, and finish with results related by `R`,
whenever they are answered alike by `like`. -/
def Coupled (same : Op → Op → Prop) (like : Event Op Ans → Event Op Ans → Prop)
    (R : α → β → Prop) : Prog Op Ans α → Prog Op Ans β → Prop
  | .done a, .done b => R a b
  | .ask op k, .ask op' k' =>
    same op op' ∧ ∀ x x', like ⟨op, x⟩ ⟨op', x'⟩ → Coupled same like R (k x) (k' x')
  | .done _, .ask _ _ => False
  | .ask _ _, .done _ => False

variable {same : Op → Op → Prop} {like : Event Op Ans → Event Op Ans → Prop} {R : α → β → Prop}
  {S : γ → δ → Prop}

/-- **The rule of sequencing**: coupled programs whose results are related by `R` can be continued
by programs that are coupled for all results so related. -/
theorem Coupled.bind {p : Prog Op Ans α} {q : Prog Op Ans β} {f : α → Prog Op Ans γ}
    {g : β → Prog Op Ans δ} (hpq : Coupled same like R p q)
    (hfg : ∀ a b, R a b → Coupled same like S (f a) (g b)) :
    Coupled same like S (p >>= f) (q >>= g) := by
  induction p generalizing q with
  | done a =>
    cases q with
    | done b => exact hfg a b hpq
    | ask op' k' => exact hpq.elim
  | ask op k ih =>
    cases q with
    | done b => exact hpq.elim
    | ask op' k' => exact ⟨hpq.1, fun x x' hx => ih x (hpq.2 x x' hx)⟩

/-- **Two runs of coupled programs**: where corresponding requests are answered alike, the runs
consist of requests that correspond one by one and are answered alike, and their results are
related. -/
theorem Coupled.runs {p : Prog Op Ans α} {q : Prog Op Ans β} {tr tr' : List (Event Op Ans)}
    {a : α} {b : β} (hpq : Coupled same like R p q) (hp : Runs p tr a) (hq : Runs q tr' b)
    (halike : ∀ e ∈ tr.zip tr', same e.1.op e.2.op → like e.1 e.2) :
    List.Forall₂ (fun e e' => same e.op e'.op ∧ like e e') tr tr' ∧ R a b := by
  induction p generalizing q tr tr' with
  | done a₀ =>
    cases q with
    | done b₀ =>
      obtain ⟨rfl, rfl⟩ := hp
      obtain ⟨rfl, rfl⟩ := hq
      exact ⟨.nil, hpq⟩
    | ask op' k' => exact hpq.elim
  | ask op k ih =>
    cases q with
    | done b₀ => exact hpq.elim
    | ask op' k' =>
      obtain ⟨x, tr, rfl, hp⟩ := hp
      obtain ⟨x', tr', rfl, hq⟩ := hq
      rw [List.zip_cons_cons] at halike
      have hlike : like ⟨op, x⟩ ⟨op', x'⟩ := halike _ List.mem_cons_self hpq.1
      obtain ⟨hall, hR⟩ := ih x (hpq.2 x x' hlike) hp hq fun e he =>
        halike e (List.mem_cons_of_mem _ he)
      exact ⟨.cons ⟨hpq.1, hlike⟩ hall, hR⟩

end Interaction
