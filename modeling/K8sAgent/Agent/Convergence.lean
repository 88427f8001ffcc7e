import K8sAgent.Agent.Inventory

set_option relaxedAutoImplicit false
set_option autoImplicit false

/-!
# Convergence of the inventory

Whenever nothing is on the way to the control plane, its table holds what the stores of the
informers hold. For each object, the newest change is the last one on its way through handlers,
buffer and batches; a snapshot may put a newer state into the table before older events arrive, but
the newest of these brings it back; a batch that was applied although its answer was lost is applied
once more. Rows of objects that no informer has told of stay: a snapshot does not remove rows.

## Main definitions

* `K8sAgent.Inventory.World.pendingWrites` — the writes that handlers are about to bring about.
* `K8sAgent.Inventory.Inv` — the table is on its way to what it is to hold.

## Main results

* `K8sAgent.Inventory.Inv.step` — every orderly step keeps it on its way.
* `K8sAgent.Inventory.rows_eq_goal_of_quiet` — the table is right whenever nothing is on the way.
-/

namespace K8sAgent

open Encoding JsonTree Transition Replica Uploader

/-! ## Events of informers -/

namespace Manager

variable {m : Manager}

/-- Resources of one type are watched in one way. -/
lemma secrets_eq {r : WatchedResource} (hr : r ∈ m.watched) : m.secrets r.gvr = r.secret := by
  have hone : ∀ a ∈ known.map Prod.snd, ∀ b ∈ known.map Prod.snd, a.gvr = b.gvr → a = b := by
    decide +kernel
  have hmem : r ∈ m.watched.filter fun w => w.gvr = r.gvr := List.mem_filter.mpr ⟨hr, by simp⟩
  unfold secrets
  cases hlast : (m.watched.filter fun w => w.gvr = r.gvr).getLast? with
  | none =>
    rw [List.getLast?_eq_none_iff.mp hlast] at hmem
    cases hmem
  | some last =>
    obtain ⟨hw, hgvr⟩ := List.mem_filter.mp (List.mem_of_getLast? hlast)
    have heq :=
      hone last (m.watched_known last hw) r (m.watched_known r hr) (of_decide_eq_true hgvr)
    rw [heq]
    rfl

end Manager

namespace Inventory

/-- Objects with one reference `refOf` are of one resource type. -/
lemma gvr_eq_of_refOf_eq {gvr gvr' : GroupVersionResource} {o o' : Object}
    (h : refOf gvr o = refOf gvr' o') : gvr = gvr' := by
  simp only [refOf, ResourceRef.mk.injEq] at h
  obtain ⟨hg, hv, hr, -, -⟩ := h
  cases gvr
  cases gvr'
  simp_all

/-- The write that the control plane makes of an event of an object: it removes the row, or puts the
text of the object there. -/
lemma rowWrite_eventOf (m : Manager) {op : String} (gvr : GroupVersionResource) (o : Object)
    (now : ℤ) (hop : op = opAdd ∨ op = opUpdate ∨ op = opSync ∨ op = opDelete) :
    rowWrite (m.eventOf op gvr o (m.secrets gvr) now) =
      some (refOf gvr o, if op = opDelete then none else some (payload m (gvr, o))) := by
  rcases hop with rfl | rfl | rfl | rfl <;> rfl

@[simp] lemma writes_append (evs evs' : List InventoryEvent) :
    writes (evs ++ evs') = writes evs ++ writes evs' := List.filterMap_append

/-- A write is at the object of an event. -/
lemma exists_of_mem_writes {evs : List InventoryEvent} {c : Write ResourceRef Bytes}
    (h : c ∈ writes evs) : ∃ ev ∈ evs, rowWrite ev = some c ∧ ev.ref = c.1 := by
  obtain ⟨ev, hev, hc⟩ := List.mem_filterMap.mp h
  refine ⟨ev, hev, hc, ?_⟩
  unfold rowWrite at hc
  split_ifs at hc
  · rw [← Option.some.inj hc]
  · rw [← Option.some.inj hc]

/-- Events on other objects leave a row alone. -/
lemma last?_writes_eq_none {evs : List InventoryEvent} {k : ResourceRef}
    (h : ∀ ev ∈ evs, ev.ref ≠ k) : last? k (writes evs) = none := by
  cases hlast : last? k (writes evs) with
  | none => rfl
  | some v =>
    obtain ⟨ev, hev, -, href⟩ := exists_of_mem_writes (mem_of_last? hlast)
    exact absurd href (h ev hev)

/-- **An event that is enqueued in order** is the last one on its object. -/
theorem last?_enqueue {u : Uploader} {s : Uploader.State} {ev : InventoryEvent}
    (hord : u.Orderly s (.enqueue ev)) (k : ResourceRef) :
    last? k (writes (u.enqueue s ev).queue) =
      (last? k (writes [ev])).or (last? k (writes s.queue)) := by
  rw [queue_enqueue]
  simp only [Uploader.Orderly] at hord
  split_ifs at hord ⊢ with hroom
  · rw [← List.singleton_append, State.queue]
    simp only [writes_append, last?_append]
    by_cases hk : ev.ref = k
    · have hspilled : last? k (writes s.spilled) = none :=
        last?_writes_eq_none fun old hold => hk ▸ hord old hold
      rw [hspilled]
      cases last? k (writes [ev]) <;> rfl
    · have hev : last? k (writes [ev]) = none :=
        last?_writes_eq_none fun old hold => by rwa [List.mem_singleton.mp hold]
      rw [hev]
      cases last? k (writes s.spilled) <;> rfl
  · rw [writes_append, last?_append]

/-! ## The invariant -/

/-- The write that a handler is about to bring about. -/
def handlerWrite (m : Manager) (i : ℕ) (n : Notification) : Option (Write ResourceRef Bytes) :=
  (m.watched[i]?).bind fun r => (m.notify r n 0).bind rowWrite

/-- The writes that a handler is about to bring about. -/
def World.pendingWrites (m : Manager) (w : World) (i : ℕ) : List (Write ResourceRef Bytes) :=
  (w.pending i).filterMap (handlerWrite m i)

/-- The events that `Snapshot` has collected. -/
def World.collected (w : World) : List InventoryEvent := (w.listing.map Prod.snd).getD []

/-- **The table is on its way to what it is to hold.** -/
structure Inv (m : Manager) (u : Uploader) (rows : ResourceRef → Option Bytes)
    (held : List InventoryEvent) (w : World) : Prop where
  /-- The spill file can be read back. -/
  readable : Readable u w.up
  /-- For every object, the newest write on the way is right. -/
  fed : ∀ k, Fed (w.goal m rows held) w.rows (writes w.up.queue) (w.pendingWrites m) k
  /-- What a snapshot is about to write does no harm. -/
  current : ∀ c ∈ writes (w.up.syncing ++ w.collected),
    Current (w.goal m rows held) (writes w.up.queue) (w.pendingWrites m) c
  /-- The stores have been told of. -/
  told : ∀ o ∈ w.stores, refOf o.1 o.2 ∈ w.told
  /-- The stores hold one object under a reference. -/
  keys : w.stores.Pairwise fun a b => refOf a.1 a.2 ≠ refOf b.1 b.2
  /-- `Run` waits for the snapshot while it is being made. -/
  listing : w.listing ≠ none → w.up.pc = .top ∧ w.up.needSnapshot = true

section Lemmas

variable {m : Manager} {u : Uploader} {rows : ResourceRef → Option Bytes}
  {held : List InventoryEvent} {w w' : World}

/-! ## What handlers do -/

/-- A handler makes an event of the object it is told of, or none at all. -/
lemma handle_cases (m : Manager) (op : String) (r : WatchedResource) (obj : Informed) :
    (∃ o, ∀ now, m.handle op r obj now = some (m.eventOf op r.gvr o r.secret now)) ∨
      ∀ now, m.handle op r obj now = none := by
  cases obj with
  | unstructured o => exact .inl ⟨o, fun _ => rfl⟩
  | tombstone inner =>
    cases inner with
    | unstructured o => exact .inl ⟨o, fun _ => rfl⟩
    | tombstone _ => exact .inr fun _ => rfl
    | other _ => exact .inr fun _ => rfl
  | other _ => exact .inr fun _ => rfl

/-- What a handler is told of becomes one write at an object of its type, whatever the time. -/
lemma notify_cases {r : WatchedResource} (hr : r ∈ m.watched) (n : Notification) :
    (∃ o v, ∀ now, ∃ ev, m.notify r n now = some ev ∧ rowWrite ev = some (refOf r.gvr o, v)) ∨
      ∀ now, m.notify r n now = none := by
  have hwrite : ∀ op o now, op = opAdd ∨ op = opUpdate ∨ op = opSync ∨ op = opDelete →
      rowWrite (m.eventOf op r.gvr o r.secret now) =
        some (refOf r.gvr o, if op = opDelete then none else some (payload m (r.gvr, o))) := by
    intro op o now hop
    rw [← Manager.secrets_eq hr]
    exact rowWrite_eventOf m r.gvr o now hop
  have hcases : ∀ op obj, op = opAdd ∨ op = opUpdate ∨ op = opSync ∨ op = opDelete →
      (∃ o v, ∀ now, ∃ ev, m.handle op r obj now = some ev ∧
        rowWrite ev = some (refOf r.gvr o, v)) ∨ ∀ now, m.handle op r obj now = none := by
    intro op obj hop
    rcases handle_cases m op r obj with ⟨o, ho⟩ | hnone
    · exact .inl ⟨o, _, fun now => ⟨_, ho now, hwrite op o now hop⟩⟩
    · exact .inr hnone
  cases n with
  | add obj => exact hcases opAdd obj (by simp)
  | update old obj => exact hcases opUpdate obj (by simp)
  | delete obj => exact hcases opDelete obj (by simp)

/-- The write of a handler is at an object of its type. -/
lemma refOf_of_handlerWrite {i : ℕ} {n : Notification} {c : Write ResourceRef Bytes}
    (h : handlerWrite m i n = some c) : ∃ r o, m.watched[i]? = some r ∧ c.1 = refOf r.gvr o := by
  obtain ⟨r, hr, hc⟩ := Option.bind_eq_some_iff.mp h
  refine ⟨r, ?_⟩
  rcases notify_cases (List.mem_of_getElem? hr) n with ⟨o, v, hev⟩ | hnone
  · obtain ⟨ev, hn, hw⟩ := hev 0
    rw [hn, Option.bind_some, hw] at hc
    exact ⟨o, hr, by rw [← Option.some.inj hc]⟩
  · rw [hnone 0] at hc
    cases hc

/-- The event of a handler is the write it was about to bring about. -/
lemma event_eq_some {i : ℕ} {now : ℤ} {n : Notification} {rest : List Notification}
    {ev : InventoryEvent} (hpending : w.pending i = n :: rest) (hev : event m w i now = some ev) :
    ∃ c, rowWrite ev = some c ∧ handlerWrite m i n = some c := by
  obtain ⟨r, hr, hnext⟩ := Option.bind_eq_some_iff.mp hev
  rw [hpending, List.head?_cons, Option.bind_some] at hnext
  rcases notify_cases (List.mem_of_getElem? hr) n with ⟨o, v, hcase⟩ | hnone
  · obtain ⟨ev₁, hn₁, hw₁⟩ := hcase now
    obtain ⟨ev₀, hn₀, hw₀⟩ := hcase 0
    obtain rfl := Option.some.inj (hn₁.symm.trans hnext)
    exact ⟨_, hw₁, by rw [handlerWrite, hr, Option.bind_some, hn₀, Option.bind_some, hw₀]⟩
  · rw [hnone now] at hnext
    cases hnext

/-- A handler that makes no event was about to write nothing. -/
lemma event_eq_none {i : ℕ} {now : ℤ} {n : Notification} {rest : List Notification}
    (hpending : w.pending i = n :: rest) (hev : event m w i now = none) :
    handlerWrite m i n = none := by
  unfold event at hev
  unfold handlerWrite
  cases hr : m.watched[i]? with
  | none => rfl
  | some r =>
    rw [hr, Option.bind_some, hpending, List.head?_cons, Option.bind_some] at hev
    rcases notify_cases (List.mem_of_getElem? hr) n with ⟨o, v, hcase⟩ | hnone
    · obtain ⟨ev, hn, -⟩ := hcase now
      rw [hn] at hev
      cases hev
    · rw [Option.bind_some, hnone 0]
      rfl

/-- Changes reach the handlers of the type of the object, and no others. -/
lemma last?_tell {gvr : GroupVersionResource} {o : Object} {n : Notification} {v : Option Bytes}
    (hn : ∀ i r, m.watched[i]? = some r → r.gvr = gvr →
      handlerWrite m i n = some (refOf gvr o, v)) (i : ℕ) (k : ResourceRef) :
    last? k ({ w with pending := tell m w gvr n }.pendingWrites m i) =
      if (m.watched[i]?).map (·.gvr) = some gvr ∧ k = refOf gvr o then some v
      else last? k (w.pendingWrites m i) := by
  unfold World.pendingWrites tell
  dsimp only
  by_cases hi : (m.watched[i]?).map (·.gvr) = some gvr
  · obtain ⟨r, hr, hgvr⟩ := Option.map_eq_some_iff.mp hi
    rw [if_pos hi, List.filterMap_append, last?_append, List.filterMap_cons, hn i r hr hgvr]
    dsimp only
    rw [List.filterMap_nil, last?_singleton]
    by_cases hk : k = refOf gvr o
    · rw [if_pos hk.symm, if_pos ⟨hi, hk⟩]
      rfl
    · rw [if_neg (Ne.symm hk), if_neg fun h => hk h.2]
      rfl
  · rw [if_neg hi, if_neg fun h => hi h.1]

/-- Only handlers of its type write at an object. -/
lemma last?_pendingWrites_of_ne {gvr : GroupVersionResource} {o : Object} {i : ℕ}
    (hi : (m.watched[i]?).map (·.gvr) ≠ some gvr) :
    last? (refOf gvr o) (w.pendingWrites m i) = none := by
  cases hlast : last? (refOf gvr o) (w.pendingWrites m i) with
  | none => rfl
  | some v =>
    obtain ⟨n, -, hn⟩ := List.mem_filterMap.mp (mem_of_last? hlast)
    obtain ⟨r, o', hr, href⟩ := refOf_of_handlerWrite hn
    refine absurd ?_ hi
    rw [hr, gvr_eq_of_refOf_eq href]
    rfl

/-- Every informer of the manager has a handler: some watched resource is of its type. -/
lemma exists_handler {gvr : GroupVersionResource} (h : gvr ∈ m.informers) :
    ∃ i : ℕ, (m.watched[i]?).map (·.gvr) = some gvr := by
  obtain ⟨r, hr, rfl⟩ := List.mem_map.mp (List.mem_dedup.mp h)
  obtain ⟨i, hi⟩ := List.getElem?_of_mem hr
  exact ⟨i, by rw [hi]; rfl⟩

/-! ## Steps -/

/-- **A store changes**, and its handlers are told. -/
theorem Inv.change (h : Inv m u rows held w) {gvr : GroupVersionResource} {o : Object}
    {n : Notification} {v : Option Bytes} (hgvr : gvr ∈ m.informers)
    (hn : ∀ i r, m.watched[i]? = some r → r.gvr = gvr →
      handlerWrite m i n = some (refOf gvr o, v))
    (hpending : w'.pending = tell m w gvr n)
    (hgoal : w'.goal m rows held = Function.update (w.goal m rows held) (refOf gvr o) v)
    (hup : w'.up = w.up) (hrows : w'.rows = w.rows) (hlisting : w'.listing = w.listing)
    (htold : ∀ o ∈ w'.stores, refOf o.1 o.2 ∈ w'.told)
    (hkeys : w'.stores.Pairwise fun a b => refOf a.1 a.2 ≠ refOf b.1 b.2) :
    Inv m u rows held w' := by
  have hlast := last?_tell (w := w) hn
  have heq : w'.pendingWrites m = { w with pending := tell m w gvr n }.pendingWrites m := by
    funext i
    rw [World.pendingWrites, hpending]
    rfl
  have hother : ∀ i k, k ≠ refOf gvr o →
      last? k (w'.pendingWrites m i) = last? k (w.pendingWrites m i) := by
    intro i k hk
    rw [heq, hlast, if_neg fun h => hk h.2]
  have hsome : ∃ i, last? (refOf gvr o) (w'.pendingWrites m i) = some v := by
    obtain ⟨i, hi⟩ := exists_handler hgvr
    exact ⟨i, by rw [heq, hlast, if_pos ⟨hi, rfl⟩]⟩
  have hall : ∀ i v', last? (refOf gvr o) (w'.pendingWrites m i) = some v' → v' = v := by
    intro i v' hv'
    rw [heq, hlast] at hv'
    split_ifs at hv' with hi
    · exact (Option.some.inj hv').symm
    · rw [last?_pendingWrites_of_ne fun hi' => hi ⟨hi', rfl⟩] at hv'
      cases hv'
  refine ⟨hup ▸ h.readable, fun k => ?_, fun c hc => ?_, htold, hkeys, ?_⟩
  · rw [hgoal, hup, hrows]
    exact (h.fed k).change hother hsome hall
  · rw [World.collected, hlisting, hup] at hc
    rw [hgoal, hup]
    exact (h.current c hc).change hother hsome
  · rw [hlisting, hup]
    exact h.listing

/-- Removing what is under one reference leaves what is under others. -/
lemma find?_filter_refOf (stores : List Stored) {k k₀ : ResourceRef} :
    (stores.filter fun old => refOf old.1 old.2 ≠ k₀).find? (fun o => refOf o.1 o.2 = k) =
      if k = k₀ then none else stores.find? fun o => refOf o.1 o.2 = k := by
  rw [List.find?_filter]
  split_ifs with hk
  · subst hk
    simp
  · congr 1
    funext o
    by_cases ho : refOf o.1 o.2 = k
    · simp [ho, hk]
    · simp [ho]

/-- The store holds one object under a reference, also after an object has come. -/
lemma pairwise_put {gvr : GroupVersionResource} (o : Object)
    (h : w.stores.Pairwise fun a b => refOf a.1 a.2 ≠ refOf b.1 b.2) :
    (put m w gvr o).stores.Pairwise fun a b => refOf a.1 a.2 ≠ refOf b.1 b.2 := by
  refine List.pairwise_append.mpr ⟨h.filter _, List.pairwise_singleton _ _, ?_⟩
  intro a ha b hb
  rw [List.mem_singleton.mp hb]
  exact of_decide_eq_true (List.mem_filter.mp ha).2

/-- An informer that learns of the object `o` keeps the invariant. -/
lemma Inv.put (h : Inv m u rows held w) {gvr : GroupVersionResource} (o : Object)
    (hgvr : gvr ∈ m.informers) : Inv m u rows held (put m w gvr o) := by
  refine h.change (o := o) (v := some (payload m (gvr, o))) hgvr ?_ rfl ?_ rfl rfl rfl ?_ ?_
  · -- added or updated, the object is the new one
    intro i r hr hr'
    subst hr'
    have hnotify : ∃ op, (op = opAdd ∨ op = opUpdate) ∧ m.notify r (Inventory.change w r.gvr o) 0 =
        some (m.eventOf op r.gvr o r.secret 0) := by
      unfold Inventory.change
      split
      · exact ⟨opUpdate, .inr rfl, rfl⟩
      · exact ⟨opAdd, .inl rfl, rfl⟩
    obtain ⟨op, hop, hnotify⟩ := hnotify
    rw [handlerWrite, hr, Option.bind_some, hnotify, Option.bind_some,
      ← Manager.secrets_eq (List.mem_of_getElem? hr)]
    rcases hop with rfl | rfl <;> rfl
  · funext k
    simp only [World.goal, World.find, Inventory.put]
    rw [List.find?_append, find?_filter_refOf]
    by_cases hk : k = refOf gvr o
    · subst hk
      simp
    · rw [Function.update_of_ne hk]
      simp [World.goal, World.find, hk, Ne.symm hk]
  · intro o' ho'
    rcases List.mem_append.mp ho' with ho' | ho'
    · exact List.mem_append_left _ (h.told o' (List.mem_of_mem_filter ho'))
    · rw [List.mem_singleton.mp ho']
      exact List.mem_append_right _ (List.mem_singleton_self _)
  · exact pairwise_put o h.keys

/-- An informer learns that an object is gone. -/
lemma Inv.remove (h : Inv m u rows held w) {gvr : GroupVersionResource} (o : Object)
    (missed : Bool) (hgvr : gvr ∈ m.informers) : Inv m u rows held (remove m w gvr o missed) := by
  refine h.change (o := o) (v := none) hgvr ?_ rfl ?_ rfl rfl rfl ?_ (h.keys.filter _)
  · intro i r hr hr'
    subst hr'
    rw [handlerWrite, hr, Option.bind_some]
    cases missed <;> rfl
  · funext k
    simp only [World.goal, World.find, Inventory.remove]
    rw [find?_filter_refOf]
    by_cases hk : k = refOf gvr o
    · subst hk
      simp
    · rw [Function.update_of_ne hk]
      simp [World.goal, World.find, hk]
  · exact fun o' ho' => List.mem_append_left _ (h.told o' (List.mem_of_mem_filter ho'))

/-- **A handler enqueues its event**, behind all others on the same object. -/
theorem Inv.handle (h : Inv m u rows held w) {i : ℕ} {now : ℤ} {n : Notification}
    {rest : List Notification} (hpending : w.pending i = n :: rest)
    (hord : Inventory.Orderly m u w (.handle i now)) :
    Inv m u rows held (handle m u w i now rest) := by
  have hpend : (Inventory.handle m u w i now rest).pendingWrites m =
      Function.update (w.pendingWrites m) i (rest.filterMap (handlerWrite m i)) := by
    funext j
    by_cases hj : j = i
    · subst hj
      simp [World.pendingWrites, Inventory.handle]
    · simp [World.pendingWrites, Inventory.handle, hj]
  have hfirst : w.pendingWrites m i =
      (handlerWrite m i n).toList ++ rest.filterMap (handlerWrite m i) := by
    rw [World.pendingWrites, hpending, List.filterMap_cons]
    cases handlerWrite m i n <;> rfl
  cases hev : event m w i now with
  | none =>
    -- nothing is enqueued, and nothing was to be written
    rw [event_eq_none hpending hev] at hfirst
    have hsame : Function.update (w.pendingWrites m) i (rest.filterMap (handlerWrite m i)) =
        w.pendingWrites m := by
      rw [Function.update_eq_iff]
      exact ⟨hfirst.symm, fun _ _ => rfl⟩
    have hup : (Inventory.handle m u w i now rest).up = w.up := by
      rw [Inventory.handle, hev, Option.elim_none]
    refine ⟨hup ▸ h.readable, fun k => ?_, fun c hc => ?_, h.told, h.keys, hup ▸ h.listing⟩
    · rw [hpend, hsame, hup]
      exact h.fed k
    · rw [hup] at hc ⊢
      rw [hpend, hsame]
      exact h.current c hc
  | some ev =>
    obtain ⟨c, hc, hwrite⟩ := event_eq_some hpending hev
    rw [hwrite] at hfirst
    have hordev := hord ev hev
    have hup : (Inventory.handle m u w i now rest).up = u.enqueue w.up ev := by
      rw [Inventory.handle, hev, Option.elim_some]
    have hread : Readable u (u.enqueue w.up ev) := by
      refine h.readable.enqueue fun hfull => ?_
      simp only [Uploader.Orderly] at hordev
      rwa [if_neg (by omega)] at hordev
    have hlast : ∀ k, last? k (writes (u.enqueue w.up ev).queue) =
        (last? k [c]).or (last? k (writes w.up.queue)) := by
      intro k
      rw [last?_enqueue hordev k]
      simp [writes, hc]
    refine ⟨hup ▸ hread, fun k => ?_, fun c' hc' => ?_, h.told, h.keys, ?_⟩
    · rw [hpend, hup]
      exact (h.fed k).hand hfirst (hlast k)
    · rw [hup, syncing_enqueue] at hc'
      rw [hpend, hup]
      exact (h.current c' hc').hand hfirst (hlast c'.1)
    · intro hl
      have hsame := sameRun_enqueue u w.up ev
      rw [hup, hsame.pc, hsame.needSnapshot]
      exact h.listing hl

/-- `Snapshot` makes an event of every object in a store. -/
lemma snapshot_objects (m : Manager) (gvr : GroupVersionResource) (objs : List (Object × ℤ)) :
    m.snapshot [(gvr, objs.map fun o => (.unstructured o.1, o.2))] =
      objs.map fun o => m.eventOf opSync gvr o.1 (m.secrets gvr) o.2 := by
  rw [Manager.snapshot, List.flatMap_cons, List.flatMap_nil, List.append_nil, List.filterMap_map]
  exact congrFun (List.filterMap_eq_map
    (f := fun o : Object × ℤ => m.eventOf opSync gvr o.1 (m.secrets gvr) o.2)) objs

/-- These are the objects that are in it. -/
lemma mem_stores_of_listed {gvr : GroupVersionResource} {objs : List (Object × ℤ)}
    (hobjs : (objs.map Prod.fst).Perm ((w.stores.filter fun o => o.1 = gvr).map Prod.snd))
    {x : Object × ℤ} (hx : x ∈ objs) : (gvr, x.1) ∈ w.stores := by
  obtain ⟨o, ho, hox⟩ := List.mem_map.mp (hobjs.mem_iff.mp (List.mem_map_of_mem hx))
  obtain ⟨ho, hogvr⟩ := List.mem_filter.mp ho
  rwa [← hox, ← of_decide_eq_true hogvr]

/-- The events of a store that `Snapshot` lists are those of the objects in it. -/
lemma exists_of_mem_snapshot {gvr : GroupVersionResource} {objs : List (Object × ℤ)}
    (hobjs : (objs.map Prod.fst).Perm ((w.stores.filter fun o => o.1 = gvr).map Prod.snd))
    {ev : InventoryEvent}
    (hev : ev ∈ m.snapshot [(gvr, objs.map fun o => (.unstructured o.1, o.2))]) :
    ∃ o now, (gvr, o) ∈ w.stores ∧ m.eventOf opSync gvr o (m.secrets gvr) now = ev := by
  rw [snapshot_objects] at hev
  obtain ⟨x, hx, hev⟩ := List.mem_map.mp hev
  exact ⟨x.1, x.2, mem_stores_of_listed hobjs hx, hev⟩

/-- Where references differ, an object is found under its own. -/
lemma find?_refOf {stores : List Stored}
    (hkeys : stores.Pairwise fun a b => refOf a.1 a.2 ≠ refOf b.1 b.2) {o : Stored}
    (ho : o ∈ stores) : stores.find? (fun o' => refOf o'.1 o'.2 = refOf o.1 o.2) = some o := by
  induction stores with
  | nil => cases ho
  | cons o' os ih =>
    obtain ⟨hhead, htail⟩ := List.pairwise_cons.mp hkeys
    rcases List.mem_cons.mp ho with rfl | ho
    · exact List.find?_cons_of_pos (by simp)
    · rw [List.find?_cons_of_neg (by simpa using hhead o ho)]
      exact ih htail ho

/-- **`Snapshot` lists a store**: the rows are what the table is to hold. -/
theorem Inv.list (h : Inv m u rows held w) {gvr : GroupVersionResource}
    {rest : List GroupVersionResource} {evs : List InventoryEvent} {objs : List (Object × ℤ)}
    (hlisting : w.listing = some (gvr :: rest, evs))
    (hobjs : (objs.map Prod.fst).Perm ((w.stores.filter fun o => o.1 = gvr).map Prod.snd)) :
    Inv m u rows held { w with listing := some (rest,
      evs ++ m.snapshot [(gvr, objs.map fun o => (.unstructured o.1, o.2))]) } := by
  refine ⟨h.readable, h.fed, fun c hc => ?_, h.told, h.keys,
    fun _ => h.listing (by simp [hlisting])⟩
  rw [World.collected, Option.map_some, Option.getD_some, ← List.append_assoc, writes_append] at hc
  rcases List.mem_append.mp hc with hc | hc
  · refine h.current c ?_
    rwa [World.collected, hlisting]
  · obtain ⟨ev, hev, hwrite, -⟩ := exists_of_mem_writes hc
    obtain ⟨o, now, ho, rfl⟩ := exists_of_mem_snapshot hobjs hev
    rw [rowWrite_eventOf m gvr o now (by simp)] at hwrite
    obtain rfl := Option.some.inj hwrite
    refine .inl ?_
    change some (payload m (gvr, o)) = World.goal m rows held w (refOf gvr o)
    rw [World.goal, if_pos (h.told _ ho), World.find, find?_refOf h.keys ho]
    rfl

/-- A step that moves nothing along and takes nothing into a snapshot. -/
lemma Inv.of_eq (h : Inv m u rows held w) (hread : Readable u w'.up)
    (hstores : w'.stores = w.stores) (hpending : w'.pending = w.pending) (htold : w'.told = w.told)
    (hrows : w'.rows = w.rows) (hqueue : w'.up.queue = w.up.queue)
    (hcopied : ∀ c ∈ writes (w'.up.syncing ++ w'.collected),
      c ∈ writes (w.up.syncing ++ w.collected))
    (hlisting : w'.listing ≠ none → w'.up.pc = .top ∧ w'.up.needSnapshot = true) :
    Inv m u rows held w' := by
  have hgoal : w'.goal m rows held = w.goal m rows held := by
    funext k
    simp only [World.goal, World.find, hstores, htold]
  have hwrites : w'.pendingWrites m = w.pendingWrites m := by
    funext i
    simp only [World.pendingWrites, hpending]
  refine ⟨hread, fun k => ?_, fun c hc => ?_, ?_, ?_, hlisting⟩
  · rw [hgoal, hrows, hqueue, hwrites]
    exact h.fed k
  · rw [hgoal, hqueue, hwrites]
    exact h.current c (hcopied c hc)
  · rw [hstores, htold]
    exact h.told
  · rw [hstores]
    exact h.keys

/-- While `Run` waits for an answer, no snapshot is being made. -/
lemma Inv.listing_eq_none (h : Inv m u rows held w) (hpc : w.up.pc ≠ .top) :
    w.listing = none := by
  by_contra hne
  exact hpc (h.listing hne).1

/-- `Snapshot` returns, and its events are to be sent. -/
lemma Inv.snapshot (h : Inv m u rows held w) {evs : List InventoryEvent} {up : Uploader.State}
    (hlisting : w.listing = some ([], evs)) (hup : u.step w.up (.snapshot evs) = some up) :
    Inv m u rows held { w with listing := none, up := up } := by
  obtain ⟨hread, hqueue, hsync⟩ := h.readable.handed hup
  refine h.of_eq hread rfl rfl rfl rfl hqueue (fun c hc => ?_) fun hne => absurd rfl hne
  rw [hsync, World.collected, Option.map_none, Option.getD_none, List.append_nil] at hc
  rw [World.collected, hlisting, writes_append]
  exact List.mem_append_right _ hc

/-- The steps of `Run` that wait for no answer of the control plane keep the invariant. -/
lemma Inv.unanswered (h : Inv m u rows held w) {l : Uploader.Label} {up : Uploader.State}
    (hl : l = .next ∨ l = .wake ∨ l = .cancel) (hlisting : w.listing = none)
    (hup : u.step w.up l = some up) : Inv m u rows held { w with up := up } := by
  obtain ⟨hread, hqueue, hsync⟩ := h.readable.unanswered hl hup
  refine h.of_eq hread rfl rfl rfl rfl hqueue (fun c hc => ?_) fun hne => absurd hlisting hne
  rwa [hsync] at hc

/-- `Run` cannot go on while a snapshot is being made. -/
lemma Inv.listing_of_next (h : Inv m u rows held w) {l : Uploader.Label} {up : Uploader.State}
    (hl : l = .next ∨ l = .wake) (hup : u.step w.up l = some up) : w.listing = none := by
  by_contra hne
  obtain ⟨hpc, hneed⟩ := h.listing hne
  rcases hl with rfl | rfl
  · simp [Uploader.step, Uploader.next, hpc, hneed] at hup
  · simp [Uploader.step, hpc] at hup

/-- **The control plane has applied the outgoing batch**: the queue or the snapshot moves on, or
stays where the answer was lost. -/
theorem Inv.answered (h : Inv m u rows held w) {l : Uploader.Label} (hl : l = .ack ∨ l = .fail)
    (hrows : w'.rows = w.applied ∨ (l = .fail ∧ w'.rows = w.rows))
    (hup : u.step w.up l = some w'.up) (hstores : w'.stores = w.stores)
    (hpending : w'.pending = w.pending) (htold : w'.told = w.told)
    (hlisting : w'.listing = w.listing) : Inv m u rows held w' := by
  obtain ⟨hread, hanswered⟩ := h.readable.answered hl hup
  have hgoal : w'.goal m rows held = w.goal m rows held := by
    funext k
    simp only [World.goal, World.find, hstores, htold]
  have hwrites : w'.pendingWrites m = w.pendingWrites m := by
    funext i
    simp only [World.pendingWrites, hpending]
  have hnone : w.listing = none := by
    refine h.listing_eq_none fun hpc => ?_
    rcases hl with rfl | rfl <;> simp [Uploader.step, hpc] at hup
  have hcollected : w'.collected = [] := by rw [World.collected, hlisting, hnone]; rfl
  have hfed : ∀ k, Fed (w.goal m rows held) w'.rows (writes w'.up.queue) (w.pendingWrites m) k := by
    intro k
    have hk := h.fed k
    cases hanswered with
    | ackPart hqueue hsync =>
      rcases hrows with hrows | ⟨hl, -⟩
      · rw [hrows, hqueue]
        refine hk.sync fun c hc => h.current c ?_
        rw [hsync, writes_append, writes_append]
        exact List.mem_append_left _ (List.mem_append_left _ hc)
      · cases hl
    | ackEvents hqueue hsync =>
      rcases hrows with hrows | ⟨hl, -⟩
      · rw [hqueue, writes_append] at hk
        rw [hrows]
        exact hk.deliver
      · cases hl
    | failPart hqueue hout hsync =>
      rw [hqueue]
      rcases hrows with hrows | ⟨-, hrows⟩
      · rw [hrows]
        obtain ⟨rest, hrest⟩ := hout
        refine hk.sync fun c hc => h.current c ?_
        rw [← hrest, writes_append, writes_append]
        exact List.mem_append_left _ (List.mem_append_left _ hc)
      · rw [hrows]
        exact hk
    | failEvents hqueue hout hsync =>
      rw [hqueue]
      rcases hrows with hrows | ⟨-, hrows⟩
      · rw [hrows]
        obtain ⟨rest, hrest⟩ := hout
        rw [← hrest, writes_append] at hk ⊢
        exact hk.redeliver
      · rw [hrows]
        exact hk
  refine ⟨hread, fun k => ?_, fun c hc => ?_, ?_, ?_, ?_⟩
  · rw [hgoal, hwrites]
    exact hfed k
  · rw [hcollected, List.append_nil] at hc
    rw [hgoal, hwrites]
    cases hanswered with
    | ackPart hqueue hsync =>
      rw [hqueue]
      refine h.current c ?_
      rw [hsync, writes_append, writes_append]
      exact List.mem_append_left _ (List.mem_append_right _ hc)
    | ackEvents _ hsync | failPart _ _ hsync | failEvents _ _ hsync =>
      rw [hsync] at hc
      cases hc
  · rw [hstores, htold]
    exact h.told
  · rw [hstores]
    exact h.keys
  · rw [hlisting, hnone]
    exact fun hne => absurd rfl hne

/-- **Every orderly step keeps the table on its way.** -/
theorem Inv.step (h : Inv m u rows held w) {l : Inventory.Label}
    (hord : Inventory.Orderly m u w l) (hstep : Inventory.step m u w l = some w') :
    Inv m u rows held w' := by
  cases move_of_step hstep with
  | put gvr o hgvr => exact h.put o hgvr
  | remove gvr o missed hgvr hfound => exact h.remove o missed hgvr
  | handle i now n rest hpending => exact h.handle hpending hord
  | range order hlisting hpc hneed horder =>
    refine h.of_eq h.readable rfl rfl rfl rfl rfl (fun c hc => ?_) fun _ => ⟨hpc, hneed⟩
    rwa [World.collected, hlisting]
  | list gvr rest evs objs hlisting hobjs => exact h.list hlisting hobjs
  | snapshot evs up hlisting hup => exact h.snapshot hlisting hup
  | next up hup => exact h.unanswered (by simp) (h.listing_of_next (by simp) hup) hup
  | ack up hup => exact h.answered (.inl rfl) (.inl rfl) hup rfl rfl rfl rfl
  | fail applied up hup =>
    refine h.answered (.inr rfl) ?_ hup rfl rfl rfl rfl
    cases applied with
    | true => exact .inl rfl
    | false => exact .inr ⟨rfl, rfl⟩
  | wake up hup => exact h.unanswered (by simp) (h.listing_of_next (by simp) hup) hup
  | cancel up hlisting hup => exact h.unanswered (by simp) hlisting hup

/-- The invariant holds when `Run` starts with the events `held` in the spill file and the rows
`rows` in the table, if the lines of these events fit. -/
lemma inv_start (seq : ℤ) (hheld : ∀ ev ∈ held, u.codec.Fits ev) :
    Inv m u rows held (start u seq held rows) := by
  have hback : u.codec.replayed (u.codec.file held) = held := EventCodec.replayed_file hheld
  have hqueue : (start u seq held rows).up.queue = held := by
    simp [start, Uploader.start, State.queue, State.inFlight, hback]
  refine ⟨(conserved_start seq hheld).toReadable, fun k => ⟨fun i v hv => ?_, fun _ => ?_⟩,
    fun c hc => ?_, fun o ho => ?_, List.Pairwise.nil, fun hne => absurd rfl hne⟩
  · cases hv
  · rw [hqueue]
    rfl
  · cases hc
  · cases ho

/-- Where nothing is on the way, the table holds what it is to hold. -/
lemma Inv.rows_eq (h : Inv m u rows held w) (hquiet : w.Quiet m) :
    w.rows = w.goal m rows held := by
  have hspilled : w.up.spilled = [] := by
    have hfile := h.readable.file
    rw [hquiet.spill] at hfile
    exact EventCodec.file_eq_nil_iff.mp hfile.symm
  funext ref
  refine (h.fed ref).rows_eq ?_ fun i => ?_
  · rw [State.queue, hquiet.inFlight, hquiet.buf, hspilled]
    rfl
  · by_cases hi : i < m.watched.length
    · rw [World.pendingWrites, hquiet.pending i hi]
      rfl
    · -- there is no such handler
      refine List.filterMap_eq_nil_iff.mpr fun n _ => ?_
      rw [handlerWrite, List.getElem?_eq_none (Nat.le_of_not_lt hi)]
      rfl

end Lemmas

/-- **The inventory converges.** Whatever changes in the cluster, however handlers, snapshots and
the uploader interleave, whatever fails and whether or not the control plane has applied what
failed: whenever handlers have dealt with all they were told and all events are acknowledged, the
table of the control plane holds, for every object an informer has told of, the text of the object
in the store, and no row if it is gone; of all other objects it holds what the table and the spill
file from before leave. This is so in every run in which no event goes into the buffer while the
spill file holds an older one on the same object, and what is spilled can be read back.

**Proof sketch.** For each object, the newest write on its way through the handlers carries what the
store holds; where none is with a handler, that is what the table holds after the events in flight,
buffered and spilled. Changes, handlers and answers keep this. A row of a snapshot is what the store
holds, unless the object has changed since: then an event on it is on its way behind the row. -/
theorem rows_eq_goal_of_quiet (m : Manager) (u : Uploader) (seq : ℤ) (held : List InventoryEvent)
    (rows : ResourceRef → Option Bytes) (ls : List Label) (w : World)
    (hheld : ∀ ev ∈ held, u.codec.Fits ev)
    (hrun : run (step m u) (start u seq held rows) ls = some w)
    (hord : Along (step m u) (Orderly m u) (start u seq held rows) ls) (hquiet : w.Quiet m) :
    w.rows = w.goal m rows held := by
  have hinv : Inv m u rows held w :=
    invariant (fun h hord hstep => h.step hord hstep) (inv_start seq hheld) hord hrun
  exact hinv.rows_eq hquiet

/-! ## An answer that is lost -/

/-- A pod in a version. -/
def webPod (version : String) : Object :=
  .ofList [("metadata", .ofObject (.ofList [("name", .str "web"), ("namespace", .str "default")])),
    ("spec", .ofObject (.ofList [("image", .str version)]))]

/-- The JSON of the pod in this version. -/
def webJSON (version : String) : Bytes :=
  utf8 ("\x7b\"metadata\":\x7b\"name\":\"web\",\"namespace\":\"default\"\x7d," ++
    "\"spec\":\x7b\"image\":\"" ++ version ++ "\"\x7d\x7d")

/-- The resource type of pods. -/
def podsType : GroupVersionResource := ⟨"", "v1", "pods"⟩

/-- A manager that watches pods. -/
def podManager : Manager where
  env := .ofTables { encodings :=
    [(.ofObject (webPod "v1"), webJSON "v1"), (.ofObject (webPod "v2"), webJSON "v2")] }
  timeJSON := .str
  watched := [{ gvr := podsType, namespaced := true }]
  watched_known := by decide

/-- The reference of a pod. -/
def podRef (name : String) : ResourceRef :=
  { version := "v1", resource := "pods", namespace_ := "default", name := name }

/-- A table from before, with a pod that is gone. -/
def oldRows (ref : ResourceRef) : Option Bytes := if ref = podRef "api" then some [] else none

/-- A pod is added. The snapshot arrives, but its answer is lost. The pod changes, and the second
snapshot brings the change; the event of the first version comes after it, and then that of the
second. -/
def lostAnswer : List Label :=
  [.put podsType (webPod "v1"), .handle 0 1, .range [podsType], .list [(webPod "v1", 2)], .snapshot,
    .next, .fail true, .put podsType (webPod "v2"), .wake, .range [podsType],
    .list [(webPod "v2", 3)], .snapshot, .next, .ack, .next, .next, .ack, .handle 0 4, .next, .next,
    .ack]

/-- The table holds the second version then, and still the pod that is gone. -/
theorem rows_after_lostAnswer :
    ∃ w, run (step podManager smallUploader) (start smallUploader 0 [] oldRows) lostAnswer =
        some w ∧
      w.rows (podRef "web") = some (webJSON "v2") ∧ w.rows (podRef "api") = some [] ∧
      w.rows = w.goal podManager oldRows [] := by
  obtain ⟨w, hw, hend⟩ := Option.map_eq_some_iff.mp (show Option.map
    (fun w : World => ((w.pending 0).length + w.up.buf.length + w.up.spill.length +
      w.up.inFlight.length, w.rows (podRef "web"), w.rows (podRef "api")))
    (run (step podManager smallUploader) (start smallUploader 0 [] oldRows) lostAnswer) =
      some (0, some (webJSON "v2"), some []) by decide +kernel)
  simp only [Prod.mk.injEq, Nat.add_eq_zero_iff, List.length_eq_zero_iff] at hend
  obtain ⟨⟨⟨⟨hpending, hbuf⟩, hspill⟩, hflight⟩, hweb, hapi⟩ := hend
  have hquiet : w.Quiet podManager := by
    refine ⟨fun i hi => ?_, hbuf, hspill, hflight⟩
    obtain rfl : i = 0 := Nat.lt_one_iff.mp hi
    exact hpending
  exact ⟨w, hw, hweb, hapi, rows_eq_goal_of_quiet podManager smallUploader 0 [] oldRows lostAnswer w
    (fun _ h => absurd h List.not_mem_nil) hw (by decide +kernel) hquiet⟩

end Inventory

end K8sAgent
