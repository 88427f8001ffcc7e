import Mathlib.Data.List.Induction

set_option relaxedAutoImplicit false
set_option autoImplicit false

/-!
# Schedules of two threads

A schedule of two threads is the list of the threads that take the next step. How far each thread
has got at a moment is the number of its entries in the part of the schedule before it.

## Main definitions

* `Interleave.Meets` — at some moment both threads have taken a given number of steps.

## Main results

* `Interleave.exists_step` — every step of a thread is taken at some moment.
* `Interleave.meets_iff` — both threads meet after `k` steps exactly when neither takes its `k`-th
  step after the other has taken more than `k`.
-/

namespace Interleave

/-- At some moment of the schedule both threads have taken exactly `k` steps. -/
def Meets (σ : List Bool) (k : ℕ) : Prop := ∃ ρ, ρ <+: σ ∧ ∀ t, ρ.count t = k

/-- A thread that takes more than `k` steps takes the one after its `k`-th at some moment. -/
theorem exists_step {σ : List Bool} {t : Bool} {k : ℕ} (hk : k < σ.count t) :
    ∃ ρ, ρ ++ [t] <+: σ ∧ ρ.count t = k := by
  induction σ using List.reverseRecOn with
  | nil => simp at hk
  | append_singleton σ u ih =>
    by_cases hlt : k < σ.count t
    · obtain ⟨ρ, hρ, hcount⟩ := ih hlt
      exact ⟨ρ, hρ.trans (List.prefix_append σ [u]), hcount⟩
    · -- the last entry is the step in question
      rw [List.count_append, List.count_singleton] at hk
      by_cases hu : u = t
      · subst hu
        simp only [BEq.rfl, if_true] at hk
        exact ⟨σ, List.prefix_rfl, by omega⟩
      · simp only [beq_iff_eq, hu, if_false] at hk
        omega

/-- Threads that meet after `k` steps take as many. -/
lemma Meets.le_count {σ : List Bool} {k : ℕ} (h : Meets σ k) (t : Bool) : k ≤ σ.count t := by
  obtain ⟨ρ, hρ, hcount⟩ := h
  rw [← hcount t]
  exact hρ.sublist.count_le t

/-- **Where two threads meet.** Two threads that take `k` steps each meet after them exactly when
neither takes its `k`-th step after the other has taken more than `k`.

**Proof sketch.** Before the moment at which both have taken `k` steps neither has taken more.
Conversely, consider the first moment at which both have taken at least `k`: the step that leads
to it is the `k`-th of its thread, so the other has taken `k` by then, and not more. -/
theorem meets_iff {σ : List Bool} {k : ℕ} (hk : ∀ t, k ≤ σ.count t) :
    Meets σ k ↔
      ∀ ρ t, ρ ++ [t] <+: σ → ρ.count t + 1 = k → ρ.count (!t) ≤ k := by
  constructor
  · rintro ⟨μ, hμ, hcount⟩ ρ t hρ hlast
    rcases List.prefix_or_prefix_of_prefix hρ hμ with h | h
    · calc ρ.count (!t) ≤ (ρ ++ [t]).count (!t) := by
            rw [List.count_append]
            omega
        _ ≤ μ.count (!t) := h.sublist.count_le _
        _ = k := hcount _
    · rcases List.prefix_concat_iff.mp h with rfl | h
      · have := hcount (!t)
        rw [List.count_append] at this
        omega
      · have := h.sublist.count_le t
        rw [hcount t] at this
        omega
  · intro hstep
    induction σ using List.reverseRecOn with
    | nil =>
      refine ⟨[], List.prefix_rfl, fun t => ?_⟩
      have := hk t
      rw [List.count_nil] at this ⊢
      omega
    | append_singleton σ u ih =>
      by_cases hboth : ∀ t, k ≤ σ.count t
      · obtain ⟨μ, hμ, hcount⟩ := ih hboth fun ρ t hρ =>
          hstep ρ t (hρ.trans (List.prefix_append σ [u]))
        exact ⟨μ, hμ.trans (List.prefix_append σ [u]), hcount⟩
      · -- the last entry completes the `k`-th step of its thread
        have hother : k ≤ σ.count (!u) := by
          have := hk (!u)
          rw [List.count_append, List.count_singleton] at this
          simpa using this
        have hlast : σ.count u + 1 = k := by
          have hu := hk u
          rw [List.count_append, List.count_singleton_self] at hu
          have : ¬k ≤ σ.count u := by
            intro hle
            refine hboth fun t => ?_
            by_cases htu : t = u
            · rwa [htu]
            · rwa [Bool.eq_not.mpr htu]
          omega
        have hle := hstep σ u List.prefix_rfl hlast
        refine ⟨σ ++ [u], List.prefix_rfl, fun t => ?_⟩
        rw [List.count_append]
        by_cases htu : t = u
        · rw [htu, List.count_singleton_self]
          omega
        · rw [Bool.eq_not.mpr htu, List.count_singleton]
          simp only [beq_iff_eq, Bool.eq_not_self, if_false]
          omega

end Interleave
