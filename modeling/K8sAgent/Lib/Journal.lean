import K8sAgent.Lib.VersionedStore

set_option relaxedAutoImplicit false
set_option autoImplicit false

/-!
# Journals of versioned stores

Clients that share a versioned store, and the journal of what they have read and of what has
changed. Since no value of a key comes back, a client that finds the value it has read to be live
still knows that the key has not changed in between: neither written nor removed and written again.

## Main definitions

* `VersionedStore.Entry` — a read by a client, or a change.
* `VersionedStore.Faithful` — what was read has been stored, and while it is live, its key has not
  changed since.

## Main results

* `VersionedStore.Faithful.read`, `VersionedStore.Faithful.put`, `VersionedStore.Faithful.remove` —
  a journal that is kept stays faithful.
* `VersionedStore.exists_last_read` — the last read of a client in the journal.
-/

namespace VersionedStore

/-- An entry of the journal. -/
inductive Entry (C K V : Type) : Type where
  /-- The client has read the live value of the key. -/
  | read (c : C) (k : K) (v : V)
  /-- A value has been stored at the key, or its value has been removed. -/
  | changed (k : K)

/-- The reads of a client: the key and the value. -/
def Entry.readBy {C K V : Type} [DecidableEq C] (c : C) : Entry C K V → Option (K × V)
  | .read c' k v => if c' = c then some (k, v) else none
  | .changed _ => none

variable {C K V T : Type} {tag : V → Option T}

/-- What was read has been stored, and while it is live, its key has not changed since. -/
def Faithful (s : Store K V T tag) (log : List (Entry C K V)) : Prop :=
  ∀ c k v L₁ L₂, log = L₁ ++ .read c k v :: L₂ →
    v ∈ s.past k ∧ (s.live k = some v → .changed k ∉ L₂)

/-- A read in a journal with one more entry is that entry or stood there before. -/
lemma concat_eq_append_read {log L₁ L₂ : List (Entry C K V)} {e : Entry C K V} {c : C} {k : K}
    {v : V} (h : log ++ [e] = L₁ ++ .read c k v :: L₂) :
    (e = .read c k v ∧ L₂ = []) ∨ ∃ L₃, log = L₁ ++ .read c k v :: L₃ ∧ L₂ = L₃ ++ [e] := by
  rcases List.eq_nil_or_concat L₂ with rfl | ⟨L₃, e', rfl⟩
  · exact .inl ⟨(List.append_inj_right' h rfl |> List.singleton_inj.mp), rfl⟩
  · rw [List.concat_eq_append] at h ⊢
    have h' : log ++ [e] = (L₁ ++ .read c k v :: L₃) ++ [e'] := by simpa using h
    obtain ⟨hlog, he⟩ := List.append_inj' h' rfl
    exact .inr ⟨L₃, hlog, by rw [List.singleton_inj.mp he]⟩

section Faithful

variable {s s' : Store K V T tag} {log : List (Entry C K V)} {c : C} {k : K} {v : V}

/-- The empty journal is faithful. -/
lemma faithful_nil (s : Store K V T tag) : Faithful (C := C) s [] := by
  intro c k v L₁ L₂ h
  simp at h

/-- A read of the live value is entered. -/
theorem Faithful.read (hf : Faithful s log) (c : C) (hlive : s.live k = some v) :
    Faithful s (log ++ [.read c k v]) := by
  intro c' k' v' L₁ L₂ h
  rcases concat_eq_append_read h with ⟨he, rfl⟩ | ⟨L₃, hlog, rfl⟩
  · cases he
    exact ⟨s.live_mem hlive, fun _ => by simp⟩
  · obtain ⟨hpast, hsame⟩ := hf c' k' v' L₁ L₃ hlog
    exact ⟨hpast, fun hl => by simpa using hsame hl⟩

/-- **A change is entered** that leaves no value of the past live at its key, and the other keys as
they are. -/
theorem Faithful.change (hf : Faithful s log) (hpast : ∀ k' w, w ∈ s.past k' → w ∈ s'.past k')
    (hlive : ∀ k' w, w ∈ s.past k' → s'.live k' = some w → k' ≠ k ∧ s.live k' = some w) :
    Faithful s' (log ++ [.changed k]) := by
  intro c' k' v' L₁ L₂ h
  rcases concat_eq_append_read h with ⟨he, -⟩ | ⟨L₃, hlog, rfl⟩
  · cases he
  · obtain ⟨hmem, hsame⟩ := hf c' k' v' L₁ L₃ hlog
    refine ⟨hpast k' v' hmem, fun hl => ?_⟩
    obtain ⟨hne, hbefore⟩ := hlive k' v' hmem hl
    simp only [List.mem_append, List.mem_singleton, Entry.changed.injEq, not_or]
    exact ⟨hsame hbefore, hne⟩

variable [DecidableEq K]

/-- Storing a freshly tagged value under `k` keeps the journal faithful, with the change of `k`
logged. -/
theorem Faithful.put [DecidableEq T] (hf : Faithful s log) (hput : s.put? k v = some s') :
    Faithful s' (log ++ [.changed k]) :=
  hf.change (fun _ _ hw => Store.past_put? hput hw) fun _ _ hw hl =>
    Store.live_put?_of_past hput hw hl

/-- Removing the value under `k` keeps the journal faithful, with the change of `k` logged. -/
theorem Faithful.remove (hf : Faithful s log) (k : K) :
    Faithful (s.remove k) (log ++ [.changed k]) :=
  hf.change (fun _ _ hw => hw) fun _ _ _ hl => ⟨Store.ne_of_live_remove hl,
    Store.live_of_live_remove hl⟩

end Faithful

/-- **The last read of a client**, from the list of its reads. -/
theorem exists_last_read [DecidableEq C] {log : List (Entry C K V)} {c : C} {k : K} {v : V}
    {pre : List (K × V)} (h : log.filterMap (Entry.readBy c) = pre ++ [(k, v)]) :
    ∃ L₁ L₂, log = L₁ ++ .read c k v :: L₂ ∧ ∀ e ∈ L₂, e.readBy c = none := by
  obtain ⟨L₁, rest, rfl, -, hrest⟩ := List.filterMap_eq_append_iff.mp h
  obtain ⟨L₂, e, L₃, rfl, -, he, hlast⟩ := List.filterMap_eq_cons_iff.mp hrest
  cases e with
  | changed k' => cases he
  | read c' k' v' =>
    simp only [Entry.readBy] at he
    split_ifs at he with hc
    cases he
    subst hc
    exact ⟨L₁ ++ L₂, L₃, by simp, List.filterMap_eq_nil_iff.mp hlast⟩

end VersionedStore
