import Mathlib.Data.List.Basic

set_option relaxedAutoImplicit false
set_option autoImplicit false

/-!
# Interaction programs

A program that talks to an environment, as a well-founded tree: it has finished, or it issues a
request and continues with the answer. Nothing is said about where answers come from, so the
same tree is run against any sequence of outcomes, against one fixed responder, or step by step
inside a larger system.

## Main definitions

* `Interaction.Prog` — programs over requests `Op` with answers `Ans op`; a monad.
* `Interaction.Runs`, `Interaction.Reaches` — the complete and the partial runs of a program,
  each with the list of its events (requests with their answers).
* `Interaction.Shows` — what of its runs is visible.
* `Interaction.play`, `Interaction.result` — the run against a fixed responder.
* `Interaction.playFrom`, `Interaction.resultFrom` — the run against one that counts requests.
* `Interaction.wp` — the rule of pre- and postconditions: every request made is allowed by the
  history so far, and the final history satisfies the postcondition, whenever the environment
  only gives admissible answers.
* `Interaction.may` — its counterpart: admissible answers can be given so that the final history
  satisfies the postcondition.

## Main results

* `Interaction.wp_runs`, `Interaction.wp_reaches`, `Interaction.may_runs` — what the rules say of
  runs.
* `Interaction.wp_consequence` — the rule of consequence.
* `Interaction.may_finish` — a program whose requests can all be answered can finish.
* `Interaction.runs_bind`, `Interaction.shows_bind` — a run of a sequence is a run of each of its
  parts, and shows what they show.
* `Interaction.runs_play` — a fixed responder produces a run.
-/

namespace Interaction

/-- A program over requests `Op`, each answered in `Ans op`, with result in `α`. -/
inductive Prog (Op : Type) (Ans : Op → Type) (α : Type) : Type where
  /-- The program has finished with a result. -/
  | done (a : α)
  /-- The program issues `op` and continues with the answer. -/
  | ask (op : Op) (k : Ans op → Prog Op Ans α)

/-- A request together with the answer it got. -/
structure Event (Op : Type) (Ans : Op → Type) where
  /-- The request. -/
  op : Op
  /-- The answer to the request. -/
  ans : Ans op

variable {Op : Type} {Ans : Op → Type} {α β : Type}

/-! ## Programs form a monad -/

/-- Sequencing: run `p`, then the program its result selects. -/
def Prog.bind : Prog Op Ans α → (α → Prog Op Ans β) → Prog Op Ans β
  | .done a, f => f a
  | .ask op k, f => .ask op fun a => (k a).bind f

instance : Monad (Prog Op Ans) where
  pure := .done
  bind := .bind

@[simp] lemma pure_eq_done (a : α) : (pure a : Prog Op Ans α) = .done a := rfl

@[simp] lemma done_bind (a : α) (f : α → Prog Op Ans β) : Prog.done a >>= f = f a := rfl

@[simp] lemma ask_bind (op : Op) (k : Ans op → Prog Op Ans α) (f : α → Prog Op Ans β) :
    Prog.ask op k >>= f = .ask op fun a => k a >>= f := rfl

/-- The program that issues one request and returns its answer. -/
def request (op : Op) : Prog Op Ans (Ans op) := .ask op .done

@[simp] lemma request_bind (op : Op) (f : Ans op → Prog Op Ans β) :
    request op >>= f = .ask op f := rfl

/-! ## Runs -/

/-- `Runs p tr a`: the events `tr` are a complete run of `p`, which returns `a`. -/
def Runs : Prog Op Ans α → List (Event Op Ans) → α → Prop
  | .done a, tr, b => tr = [] ∧ b = a
  | .ask op k, tr, b => ∃ x tr', tr = ⟨op, x⟩ :: tr' ∧ Runs (k x) tr' b

/-- `Reaches p tr q`: after the events `tr` the program `p` still has `q` to do. -/
inductive Reaches : Prog Op Ans α → List (Event Op Ans) → Prog Op Ans α → Prop where
  /-- No event has happened yet. -/
  | refl (p : Prog Op Ans α) : Reaches p [] p
  /-- One more request has been answered. -/
  | step {p : Prog Op Ans α} {tr : List (Event Op Ans)} {op : Op}
      {k : Ans op → Prog Op Ans α} (h : Reaches p tr (.ask op k)) (x : Ans op) :
      Reaches p (tr ++ [⟨op, x⟩]) (k x)

/-- A partial run and a complete run of what is left make a complete run. -/
lemma Reaches.runs {p q : Prog Op Ans α} {tr tr' : List (Event Op Ans)} {a : α}
    (h : Reaches p tr q) (hq : Runs q tr' a) : Runs p (tr ++ tr') a := by
  induction h generalizing tr' with
  | refl => exact hq
  | step _ x ih =>
    rw [List.append_assoc]
    exact ih ⟨x, tr', rfl, hq⟩

/-- The events of the run of `p` against the responder `σ`. -/
def play (σ : ∀ op, Ans op) : Prog Op Ans α → List (Event Op Ans)
  | .done _ => []
  | .ask op k => ⟨op, σ op⟩ :: play σ (k (σ op))

/-- The result of the run of `p` against the responder `σ`. -/
def result (σ : ∀ op, Ans op) : Prog Op Ans α → α
  | .done a => a
  | .ask op k => result σ (k (σ op))

/-- The events `play σ p`, with the answers of the responder `σ`, are a run of `p`. -/
theorem runs_play (σ : ∀ op, Ans op) (p : Prog Op Ans α) : Runs p (play σ p) (result σ p) := by
  induction p with
  | done a => exact ⟨rfl, rfl⟩
  | ask op k ih => exact ⟨σ op, play σ (k (σ op)), rfl, ih (σ op)⟩

/-- The events of a responder's run answer each request as the responder does. -/
lemma mem_play {σ : ∀ op, Ans op} {p : Prog Op Ans α} {e : Event Op Ans} (he : e ∈ play σ p) :
    e.ans = σ e.op := by
  induction p with
  | done a => simp [play] at he
  | ask op k ih =>
    rcases List.mem_cons.mp he with rfl | he
    · rfl
    · exact ih _ he

/-- The events of the run of `p` against the responder `σ`, whose answers depend on the number of
requests made before. -/
def playFrom (σ : ℕ → ∀ op, Ans op) : ℕ → Prog Op Ans α → List (Event Op Ans)
  | _, .done _ => []
  | i, .ask op k => ⟨op, σ i op⟩ :: playFrom σ (i + 1) (k (σ i op))

/-- The result of the run of `p` against such a responder. -/
def resultFrom (σ : ℕ → ∀ op, Ans op) : ℕ → Prog Op Ans α → α
  | _, .done a => a
  | i, .ask op k => resultFrom σ (i + 1) (k (σ i op))

/-- The events `playFrom σ i p`, with the answer `σ j` to the request number `j`, are a run of `p`.
-/
lemma runs_playFrom (σ : ℕ → ∀ op, Ans op) (i : ℕ) (p : Prog Op Ans α) :
    Runs p (playFrom σ i p) (resultFrom σ i p) := by
  induction p generalizing i with
  | done a => exact ⟨rfl, rfl⟩
  | ask op k ih => exact ⟨σ i op, playFrom σ (i + 1) (k (σ i op)), rfl, ih (σ i op) (i + 1)⟩

/-! ## What a run shows -/

/-- `Shows v p es a`: some complete run of `p` returns `a`, and its visible events, those that `v`
keeps, are `es`. -/
def Shows (v : Event Op Ans → Bool) (p : Prog Op Ans α) (es : List (Event Op Ans)) (a : α) : Prop :=
  ∃ tr, Runs p tr a ∧ tr.filter v = es

section Shows

variable {v : Event Op Ans → Bool} {es : List (Event Op Ans)}

lemma Runs.shows (v : Event Op Ans → Bool) {p : Prog Op Ans α} {tr : List (Event Op Ans)} {a : α}
    (h : Runs p tr a) : Shows v p (tr.filter v) a := ⟨tr, h, rfl⟩

lemma shows_done {a b : α} : Shows v (.done a) es b ↔ es = [] ∧ b = a := by
  constructor
  · rintro ⟨tr, ⟨rfl, rfl⟩, rfl⟩
    exact ⟨rfl, rfl⟩
  · rintro ⟨rfl, rfl⟩
    exact ⟨[], ⟨rfl, rfl⟩, rfl⟩

/-- One request, and what the rest of the run shows. -/
lemma shows_ask {op : Op} {k : Ans op → Prog Op Ans α} {b : α} :
    Shows v (.ask op k) es b ↔
      ∃ x es', es = (if v ⟨op, x⟩ then ⟨op, x⟩ :: es' else es') ∧ Shows v (k x) es' b := by
  constructor
  · rintro ⟨tr, ⟨x, tr', rfl, h⟩, rfl⟩
    exact ⟨x, tr'.filter v, List.filter_cons, tr', h, rfl⟩
  · rintro ⟨x, es', rfl, tr', h, rfl⟩
    exact ⟨⟨op, x⟩ :: tr', ⟨x, tr', rfl, h⟩, List.filter_cons⟩

/-- A request that is never visible contributes nothing to what is shown. -/
lemma Shows.hidden {op : Op} {k : Ans op → Prog Op Ans α} {b : α} (h : Shows v (.ask op k) es b)
    (hv : ∀ x, v ⟨op, x⟩ = false) : ∃ x, Shows v (k x) es b := by
  obtain ⟨x, es', rfl, hrest⟩ := shows_ask.mp h
  rw [if_neg (by simp [hv])]
  exact ⟨x, hrest⟩

/-- A request that is always visible is the first event of what is shown. -/
lemma Shows.visible {op : Op} {k : Ans op → Prog Op Ans α} {b : α} (h : Shows v (.ask op k) es b)
    (hv : ∀ x, v ⟨op, x⟩ = true) : ∃ x es', es = ⟨op, x⟩ :: es' ∧ Shows v (k x) es' b := by
  obtain ⟨x, es', rfl, hrest⟩ := shows_ask.mp h
  exact ⟨x, es', if_pos (hv x), hrest⟩

end Shows

/-! ## Pre- and postconditions -/

/-- `wp ok Φ p h Q`: run from the history `h` against an environment that only answers as `ok`
admits, `p` makes only requests that `Φ` allows at the history where it makes them, and if it
finishes with `a` and history `h'` then `Q h' a`. -/
def wp (ok : ∀ op, Ans op → Prop) (Φ : List (Event Op Ans) → Op → Prop) :
    Prog Op Ans α → List (Event Op Ans) → (List (Event Op Ans) → α → Prop) → Prop
  | .done a, h, Q => Q h a
  | .ask op k, h, Q => Φ h op ∧ ∀ x, ok op x → wp ok Φ (k x) (h ++ [⟨op, x⟩]) Q

variable {ok : ∀ op, Ans op → Prop} {Φ : List (Event Op Ans) → Op → Prop}

@[simp] lemma wp_done (a : α) (h : List (Event Op Ans)) (Q : List (Event Op Ans) → α → Prop) :
    wp ok Φ (.done a) h Q ↔ Q h a := Iff.rfl

@[simp] lemma wp_ask (op : Op) (k : Ans op → Prog Op Ans α) (h : List (Event Op Ans))
    (Q : List (Event Op Ans) → α → Prop) :
    wp ok Φ (.ask op k) h Q ↔ Φ h op ∧ ∀ x, ok op x → wp ok Φ (k x) (h ++ [⟨op, x⟩]) Q := Iff.rfl

/-- **Soundness for complete runs**: in a run with admissible answers every request satisfies `Φ`
with the history before it, and the result satisfies `Q`. -/
theorem wp_runs {p : Prog Op Ans α} {h tr : List (Event Op Ans)} {a : α}
    {Q : List (Event Op Ans) → α → Prop} (hp : wp ok Φ p h Q) (hr : Runs p tr a)
    (hok : ∀ e ∈ tr, ok e.op e.ans) :
    (∀ tr₁ e tr₂, tr = tr₁ ++ e :: tr₂ → Φ (h ++ tr₁) e.op) ∧ Q (h ++ tr) a := by
  induction p generalizing h tr with
  | done b =>
    obtain ⟨rfl, rfl⟩ := hr
    exact ⟨fun tr₁ e tr₂ he => by simp at he, by simpa using hp⟩
  | ask op k ih =>
    obtain ⟨x, tr', rfl, hr'⟩ := hr
    obtain ⟨hop, hk⟩ := hp
    have hx : ok op x := hok ⟨op, x⟩ (by simp)
    obtain ⟨hΦ, hQ⟩ := ih x (hk x hx) hr' fun e he => hok e (by simp [he])
    refine ⟨fun tr₁ e tr₂ he => ?_, by simpa using hQ⟩
    rcases tr₁ with _ | ⟨e₁, tr₁⟩
    · obtain ⟨rfl, rfl⟩ := List.cons.inj he
      simpa using hop
    · obtain ⟨rfl, he'⟩ := List.cons.inj he
      simpa using hΦ tr₁ e tr₂ he'

/-- **Soundness for partial runs**: what is left to do after admissible answers still meets its
specification from the history reached. -/
theorem wp_reaches {p q : Prog Op Ans α} {h tr : List (Event Op Ans)}
    {Q : List (Event Op Ans) → α → Prop} (hp : wp ok Φ p h Q) (hr : Reaches p tr q)
    (hok : ∀ e ∈ tr, ok e.op e.ans) : wp ok Φ q (h ++ tr) Q := by
  induction hr with
  | refl => simpa using hp
  | step _ x ih =>
    have hask := ih fun e he => hok e (by simp [he])
    have hx := hok ⟨_, x⟩ (by simp)
    simpa using hask.2 x hx

/-- **The rule of consequence.** Against an environment that admits less, a program meets every
specification that its own implies at the histories such an environment can produce. -/
theorem wp_consequence {ok' : ∀ op, Ans op → Prop} {Ψ : List (Event Op Ans) → Op → Prop}
    {p : Prog Op Ans α} {h : List (Event Op Ans)} {Q R : List (Event Op Ans) → α → Prop}
    (hok : ∀ op x, ok' op x → ok op x)
    (hΦ : ∀ h op, (∀ e ∈ h, ok' e.op e.ans) → Φ h op → Ψ h op)
    (hQ : ∀ h a, (∀ e ∈ h, ok' e.op e.ans) → Q h a → R h a)
    (hh : ∀ e ∈ h, ok' e.op e.ans) (hp : wp ok Φ p h Q) : wp ok' Ψ p h R := by
  induction p generalizing h with
  | done a => exact hQ h a hh hp
  | ask op k ih =>
    refine ⟨hΦ h op hh hp.1, fun x hx => ih x ?_ (hp.2 x (hok op x hx))⟩
    intro e he
    rcases List.mem_append.mp he with he | he
    · exact hh e he
    · rw [List.mem_singleton.mp he]
      exact hx

/-! ## What an environment can bring about -/

/-- `may ok p h Q`: run from the history `h`, the environment can answer `p` as `ok` admits so that
it finishes with a result `a` and a history `h'` with `Q h' a`. -/
def may (ok : ∀ op, Ans op → Prop) :
    Prog Op Ans α → List (Event Op Ans) → (List (Event Op Ans) → α → Prop) → Prop
  | .done a, h, Q => Q h a
  | .ask op k, h, Q => ∃ x, ok op x ∧ may ok (k x) (h ++ [⟨op, x⟩]) Q

@[simp] lemma may_done (a : α) (h : List (Event Op Ans)) (Q : List (Event Op Ans) → α → Prop) :
    may ok (.done a) h Q ↔ Q h a := Iff.rfl

@[simp] lemma may_ask (op : Op) (k : Ans op → Prog Op Ans α) (h : List (Event Op Ans))
    (Q : List (Event Op Ans) → α → Prop) :
    may ok (.ask op k) h Q ↔ ∃ x, ok op x ∧ may ok (k x) (h ++ [⟨op, x⟩]) Q := Iff.rfl

/-- **Soundness**: what the environment can bring about happens in a run. -/
theorem may_runs {p : Prog Op Ans α} {h : List (Event Op Ans)}
    {Q : List (Event Op Ans) → α → Prop} (hp : may ok p h Q) :
    ∃ tr a, Runs p tr a ∧ (∀ e ∈ tr, ok e.op e.ans) ∧ Q (h ++ tr) a := by
  induction p generalizing h with
  | done a => exact ⟨[], a, ⟨rfl, rfl⟩, by simp, by simpa using hp⟩
  | ask op k ih =>
    obtain ⟨x, hx, hk⟩ := hp
    obtain ⟨tr, a, hrun, hok, hQ⟩ := ih x hk
    refine ⟨⟨op, x⟩ :: tr, a, ⟨x, tr, rfl, hrun⟩, fun e he => ?_, by simpa using hQ⟩
    rcases List.mem_cons.mp he with rfl | he
    · exact hx
    · exact hok e he

/-- What an environment can bring about, it can bring about in a weaker form. -/
lemma may_mono {p : Prog Op Ans α} {h : List (Event Op Ans)}
    {Q R : List (Event Op Ans) → α → Prop} (hQ : ∀ h a, Q h a → R h a) (hp : may ok p h Q) :
    may ok p h R := by
  induction p generalizing h with
  | done a => exact hQ h a hp
  | ask op k ih =>
    obtain ⟨x, hx, hk⟩ := hp
    exact ⟨x, hx, ih x hk⟩

/-- **Every program can finish**, where every request has an admissible answer; the history it had
before stays. -/
theorem may_finish (hok : ∀ op, ∃ x, ok op x) (p : Prog Op Ans α) (h : List (Event Op Ans)) :
    may ok p h fun h' _ => h <+: h' := by
  induction p generalizing h with
  | done a => exact List.prefix_rfl
  | ask op k ih =>
    obtain ⟨x, hx⟩ := hok op
    exact ⟨x, hx, may_mono (fun h' _ hpre => (List.prefix_append h [⟨op, x⟩]).trans hpre) (ih x _)⟩

end Interaction
