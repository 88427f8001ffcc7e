import K8sAgent.Agent.Convergence

set_option relaxedAutoImplicit false
set_option autoImplicit false

/-!
# The inventory catches up

Once the cluster rests and the control plane answers, the table is right after so many steps: the
uploader sends the snapshot it may still owe, then the events it holds, batch by batch, and each
step brings it nearer to the end. How near it is can be read off any state; every schedule of steps
that is longer passes through a state in which the table is right, and no schedule gets stuck.

## Main definitions

* `K8sAgent.Inventory.Label.Healthy` — a step that is neither a change nor a failure.
* `K8sAgent.Inventory.World.distance` — the number of steps that are enough.

## Main results

* `K8sAgent.Inventory.distance_lt_of_step` — a step of a healthy run lowers the distance.
* `K8sAgent.Inventory.exists_healthy_step` — a healthy run can go on.
* `K8sAgent.Inventory.converges_within_distance` — the table is right within the distance.
-/

namespace K8sAgent.Inventory

open Encoding JsonTree Transition Replica Uploader

/-- Neither a change nor a failure: `Run` and `Snapshot` go on, and the control plane answers. -/
def Label.Healthy : Label → Prop
  | .range _ | .list _ | .snapshot | .next | .ack | .wake => True
  | .put _ _ | .remove _ _ _ | .handle _ _ | .fail _ | .cancel => False

instance (l : Label) : Decidable l.Healthy :=
  match l with
  | .range _ | .list _ | .snapshot | .next | .ack | .wake => isTrue trivial
  | .put _ _ | .remove _ _ _ | .handle _ _ | .fail _ | .cancel => isFalse id

/-! ## How far it is -/

/-- The number of objects in the stores of these types. -/
def stored (stores : List Stored) (order : List GroupVersionResource) : ℕ :=
  (order.map fun gvr => (stores.filter fun o => o.1 = gvr).length).sum

/-- The steps from the top of the loop until a batch is taken, with or without a snapshot before. -/
def World.fromTop (m : Manager) (w : World) : ℕ :=
  if w.up.needSnapshot then match w.listing with
    | none => m.informers.length + 2 * stored w.stores m.informers + 3
    | some (rest, evs) => rest.length + 2 * (evs.length + stored w.stores rest) + 2
  else 1

/-- The steps until a batch is taken. -/
def World.untilTaking (m : Manager) (w : World) : ℕ :=
  match w.up.pc with
  | .top => w.fromTop m
  | .snapshot evs => 2 * evs.length + 1
  | .sending _ true rest => 2 * rest.length + 2
  | .taking => 0
  | .sending _ false _ => 2
  | .failed evs => 3 * evs.length + m.informers.length + 2 * stored w.stores m.informers + 5
  | .sleeping | .idle => w.fromTop m + 1
  | .stopped => 0

/-- **The number of steps that are enough**: until a batch is taken, and three for every event. -/
def World.distance (m : Manager) (w : World) : ℕ :=
  3 * (w.up.buf.length + w.up.spilled.length) + w.untilTaking m

/-- All events that were enqueued are acknowledged. -/
def World.Drained (w : World) : Prop := w.up.queue = []

/-- Events are only taken and sent while no snapshot is owed. -/
def Synced (s : Uploader.State) : Prop :=
  match s.pc with
  | .taking | .idle | .sending _ false _ => s.needSnapshot = false
  | _ => True

section Lemmas

variable {m : Manager} {u : Uploader} {rows : ResourceRef → Option Bytes}
  {held : List InventoryEvent} {w w' : World}

/-! ## No snapshot is owed when events are taken -/

/-- A step of the uploader keeps `Synced`: it begins to take and send events only when no snapshot
is owed. -/
lemma Synced.upload {s s' : Uploader.State} (h : Synced s) {l : Uploader.Label}
    (hstep : u.step s l = some s') : Synced s' := by
  cases Uploader.move_of_step hstep with
  | enqueue ev =>
    have hsame := sameRun_enqueue u s ev
    rw [Synced, hsame.pc, hsame.needSnapshot]
    exact h
  | skip hpc hneed => exact hneed
  | snapshotDone hpc => exact rfl
  | take hpc =>
    have hneed : (u.refill s).needSnapshot = false := by
      rw [Synced, hpc] at h
      rw [(sameRun_refill u s).needSnapshot, h]
    obtain ⟨s₁, hs₁, htake⟩ := take_cases u s
    rw [hs₁] at hneed
    obtain ⟨-, htake⟩ | ⟨-, htake⟩ := htake
    · rw [htake]
      exact hneed
    · rw [htake]
      exact hneed
  | _ => trivial

/-- A step of the whole system, with its informers and the control plane, keeps `Synced` for the
uploader in it. -/
lemma Synced.step (h : Synced w.up) {l : Label} (hstep : step m u w l = some w') :
    Synced w'.up := by
  cases Inventory.move_of_step hstep with
  | handle i now n rest hpending =>
    unfold Inventory.handle
    cases event m w i now with
    | none => exact h
    | some ev => exact h.upload (l := .enqueue ev) rfl
  | snapshot evs up hlisting hup => exact h.upload hup
  | next up hup | ack up hup | fail applied up hup | wake up hup | cancel up _ hup =>
    exact h.upload hup
  | _ => exact h

/-! ## A healthy step lowers the distance -/

lemma stored_cons (stores : List Stored) (gvr : GroupVersionResource)
    (order : List GroupVersionResource) : stored stores (gvr :: order) =
      (stores.filter fun o => o.1 = gvr).length + stored stores order := by
  rw [stored, List.map_cons, List.sum_cons, stored]

lemma stored_perm (stores : List Stored) {order order' : List GroupVersionResource}
    (h : order.Perm order') : stored stores order = stored stores order' := (h.map _).sum_nat

/-- A batch that is cut off a list leaves fewer events. -/
lemma length_rest_lt {evs : List InventoryEvent} (hne : evs ≠ []) :
    (u.rest evs).length < evs.length := by
  have hpos := batchLen_pos batchSize u.maxBatchBytes hne
  have hlen := List.length_pos_of_ne_nil hne
  rw [Uploader.rest, List.length_drop]
  omega

/-- **A batch is taken**: there are fewer events after it. -/
theorem distance_take (hread : Readable u w.up) (hpc : w.up.pc = .taking) (hne : ¬w.Drained) :
    ({ w with up := u.take w.up } : World).distance m < w.distance m := by
  have hcount : (u.refill w.up).buf.length + (u.refill w.up).spilled.length =
      w.up.buf.length + w.up.spilled.length := by
    rw [hread.refill]
    split_ifs with hbuf
    · simp [hbuf]
    · rfl
  have hbuf : (u.refill w.up).buf ≠ [] := by
    rw [hread.refill]
    split_ifs with hbuf
    · intro hspilled
      have hnil : w.up.spilled = [] := hspilled
      exact hne (by simp [World.Drained, State.queue, State.inFlight, hpc, hbuf, hnil])
    · exact hbuf
  obtain ⟨s₁, hs₁, htake⟩ := take_cases u w.up
  rw [hs₁] at hcount hbuf
  obtain ⟨hnil, -⟩ | ⟨-, htake⟩ := htake
  · exact absurd hnil hbuf
  · have hlt := length_rest_lt (u := u) hbuf
    rw [htake]
    simp only [World.distance, World.untilTaking, sendBatch, hpc]
    omega

/-- **A healthy step lowers the distance**, as long as events are left. -/
theorem distance_lt_of_step (h : Inv m u rows held w) (hsynced : Synced w.up) (hne : ¬w.Drained)
    {l : Label} (hl : l.Healthy) (hstep : step m u w l = some w') :
    w'.distance m < w.distance m := by
  cases Inventory.move_of_step hstep with
  | put | remove | handle | fail | cancel => exact hl.elim
  | range order hlisting hpc hneed horder =>
    have hlen := horder.length_eq
    have hstored := stored_perm w.stores horder
    simp only [World.distance, World.untilTaking, World.fromTop, hpc, hneed, hlisting, if_true,
      List.length_nil]
    omega
  | list gvr rest evs objs hlisting hobjs =>
    obtain ⟨hpc, hneed⟩ := h.listing (by simp [hlisting])
    have hlen := hobjs.length_eq
    rw [List.length_map, List.length_map] at hlen
    have hcons := stored_cons w.stores gvr rest
    simp only [World.distance, World.untilTaking, World.fromTop, hpc, hneed, hlisting, if_true,
      snapshot_objects, List.length_append, List.length_map, List.length_cons]
    omega
  | snapshot evs up hlisting hup =>
    cases Uploader.move_of_step hup with
    | snapshot _ hpc hneed =>
      simp only [World.distance, World.untilTaking, World.fromTop, hpc, hneed, hlisting, if_true,
        List.length_nil]
      omega
  | next up hup =>
    cases Uploader.move_of_step hup with
    | skip hpc hneed =>
      simp only [World.distance, World.untilTaking, World.fromTop, hpc, hneed]
      simp
    | snapshotDone hpc =>
      simp only [World.distance, World.untilTaking, hpc]
      omega
    | sendPart hpc hevs =>
      have hlt := length_rest_lt (u := u) hevs
      simp only [World.distance, World.untilTaking, sendBatch, hpc]
      omega
    | take hpc => exact distance_take h.readable hpc hne
    | requeue hpc =>
      have hlisting := h.listing_eq_none (by simp [hpc])
      simp only [World.distance, World.untilTaking, World.fromTop, requeueFront, hpc, hlisting,
        if_true, List.length_append]
      omega
  | ack up hup =>
    cases Uploader.move_of_step hup with
    | ackPart hpc =>
      simp only [World.distance, World.untilTaking, hpc]
      omega
    | ackEvents hpc =>
      have hneed : w.up.needSnapshot = false := by
        rw [Synced, hpc] at hsynced
        exact hsynced
      simp only [World.distance, World.untilTaking, World.fromTop, hpc, hneed]
      simp
  | wake up hup =>
    cases Uploader.move_of_step hup with
    | awake hpc =>
      simp only [World.distance, World.untilTaking, hpc]
      exact Nat.lt_succ_self _
    | resume hpc =>
      simp only [World.distance, World.untilTaking, hpc]
      exact Nat.lt_succ_self _

/-! ## A healthy run can go on -/

/-- **A healthy run can go on**, wherever `Run` is, until it has returned. -/
theorem exists_healthy_step (m : Manager) (u : Uploader) (hpc : w.up.pc ≠ .stopped) :
    ∃ l w', l.Healthy ∧ step m u w l = some w' := by
  have hone : ∀ {l : Label}, l.Healthy → (step m u w l).isSome →
      ∃ l w', l.Healthy ∧ step m u w l = some w' := by
    intro l hl hsome
    obtain ⟨w', hw'⟩ := Option.isSome_iff_exists.mp hsome
    exact ⟨l, w', hl, hw'⟩
  cases hat : w.up.pc with
  | stopped => exact absurd hat hpc
  | top =>
    cases hneed : w.up.needSnapshot with
    | false =>
      exact hone (l := .next) trivial (by simp [step, upload, Uploader.step, next, hat, hneed])
    | true =>
      cases hlisting : w.listing with
      | none => exact hone (l := .range m.informers) trivial (by simp [step, hat, hneed, hlisting])
      | some p =>
        obtain ⟨rest, evs⟩ := p
        cases rest with
        | nil =>
          exact hone (l := .snapshot) trivial (by
            simp [step, upload, Uploader.step, hat, hneed, hlisting])
        | cons gvr rest =>
          refine hone (l := .list (((w.stores.filter fun o => o.1 = gvr).map Prod.snd).map
            fun o => (o, 0))) trivial ?_
          simp only [step, hlisting, List.map_map]
          rw [if_pos]
          · rfl
          · simp [Function.comp_def]
  | snapshot evs =>
    refine hone (l := .next) trivial ?_
    cases evs <;> simp [step, upload, Uploader.step, next, hat]
  | taking => exact hone (l := .next) trivial (by simp [step, upload, Uploader.step, next, hat])
  | failed evs => exact hone (l := .next) trivial (by simp [step, upload, Uploader.step, next, hat])
  | sending evs full rest =>
    refine hone (l := .ack) trivial ?_
    cases full <;> simp [step, upload, Uploader.step, hat]
  | sleeping => exact hone (l := .wake) trivial (by simp [step, upload, Uploader.step, hat])
  | idle => exact hone (l := .wake) trivial (by simp [step, upload, Uploader.step, hat])

/-- A healthy step, which cancels no context, does not end `Run`. -/
lemma pc_ne_stopped_of_step (hpc : w.up.pc ≠ .stopped) {l : Label} (hl : l.Healthy)
    (hstep : step m u w l = some w') : w'.up.pc ≠ .stopped := by
  cases Inventory.move_of_step hstep with
  | put | remove | handle | fail | cancel => exact hl.elim
  | range | list => exact hpc
  | snapshot evs up hlisting hup =>
    cases Uploader.move_of_step hup with
    | snapshot => exact Pc.noConfusion
  | next up hup =>
    cases Uploader.move_of_step hup with
    | take =>
      obtain ⟨s₁, -, ⟨-, htake⟩ | ⟨-, htake⟩⟩ := take_cases u w.up
      all_goals
        rw [htake]
        exact Pc.noConfusion
    | skip | snapshotDone | sendPart | requeue => exact Pc.noConfusion
  | ack up hup =>
    cases Uploader.move_of_step hup with
    | ackPart | ackEvents => exact Pc.noConfusion
  | wake up hup =>
    cases Uploader.move_of_step hup with
    | awake | resume => exact Pc.noConfusion

/-- **There are healthy runs of every length** `n` from a state in which `Run` has not ended. -/
theorem exists_healthy_run (m : Manager) (u : Uploader) (n : ℕ) (hpc : w.up.pc ≠ .stopped) :
    ∃ ls w', ls.length = n ∧ (∀ l ∈ ls, l.Healthy) ∧ run (step m u) w ls = some w' := by
  induction n generalizing w with
  | zero => exact ⟨[], w, rfl, fun _ hl => absurd hl List.not_mem_nil, rfl⟩
  | succ n ih =>
    obtain ⟨l, w₁, hl, hstep⟩ := exists_healthy_step m u hpc
    obtain ⟨ls, w', hlen, hls, hrun⟩ := ih (pc_ne_stopped_of_step hpc hl hstep)
    refine ⟨l :: ls, w', by rw [List.length_cons, hlen], List.forall_mem_cons.mpr ⟨hl, hls⟩, ?_⟩
    rw [run, hstep]
    exact hrun

/-! ## What healthy steps leave alone -/

/-- Nothing changes in the cluster during a healthy step. -/
lemma same_of_healthy {l : Label} (hl : l.Healthy) (hstep : step m u w l = some w') :
    w'.stores = w.stores ∧ w'.pending = w.pending ∧ w'.told = w.told := by
  cases Inventory.move_of_step hstep with
  | put | remove | handle | fail | cancel => exact hl.elim
  | _ => exact ⟨rfl, rfl, rfl⟩

/-- Healthy steps are orderly, as no handler enqueues an event in them. -/
lemma orderly_of_healthy (w : World) {l : Label} (hl : l.Healthy) : Orderly m u w l := by
  cases l with
  | handle i now => exact hl.elim
  | _ => trivial

end Lemmas

/-- **The inventory catches up.** Take any orderly run after which handlers have nothing to do, and
go on with healthy steps only: every schedule of them that is longer than the distance passes
through a state in which all is acknowledged, and in which the table of the control plane holds what
it is to hold. Until `Run` has returned there are such schedules of every length.

**Proof sketch.** A healthy step lowers the distance as long as events are left, so a longer
schedule passes through a state in which none is. The cluster has not changed on the way there, and
the table is right in that state. -/
theorem converges_within_distance (m : Manager) (u : Uploader) (seq : ℤ)
    (held : List InventoryEvent) (rows : ResourceRef → Option Bytes) (ls : List Label) (w : World)
    (hheld : ∀ ev ∈ held, u.codec.Fits ev)
    (hrun : run (step m u) (start u seq held rows) ls = some w)
    (hord : Along (step m u) (Orderly m u) (start u seq held rows) ls)
    (hpending : ∀ i < m.watched.length, w.pending i = []) :
    (∀ ls' w', (∀ l ∈ ls', l.Healthy) → run (step m u) w ls' = some w' →
      w.distance m < ls'.length → ∃ pre v, pre <+: ls' ∧ run (step m u) w pre = some v ∧
        v.Quiet m ∧ v.rows = w.goal m rows held) ∧
    (w.up.pc ≠ .stopped → ∀ n, ∃ ls' w', ls'.length = n ∧ (∀ l ∈ ls', l.Healthy) ∧
      run (step m u) w ls' = some w') := by
  refine ⟨fun ls' w' hhealthy hrun' hlong => ?_, fun hpc n => exists_healthy_run m u n hpc⟩
  have hinv : Inv m u rows held w :=
    invariant (fun h hord hstep => h.step hord hstep) (inv_start seq hheld) hord hrun
  have hsynced : Synced w.up := by
    have hstart : Synced (start u seq held rows).up := trivial
    exact invariant (I := fun w => Synced w.up) (fun h _ hstep => h.step hstep) hstart hord hrun
  -- along a healthy run the cluster stays as it is
  obtain ⟨pre, v, hpre, hv, ⟨hvinv, -, hstores, hpend, htold⟩, hdrained⟩ :=
    exists_reached (P := fun _ l => l.Healthy) (G := World.Drained)
      (I := fun v => Inv m u rows held v ∧ Synced v.up ∧ v.stores = w.stores ∧
        v.pending = w.pending ∧ v.told = w.told) (fun v => v.distance m)
      (fun h hl hstep => by
        obtain ⟨hstores, hpend, htold⟩ := same_of_healthy hl hstep
        exact ⟨h.1.step (orderly_of_healthy _ hl) hstep, h.2.1.step hstep,
          hstores.trans h.2.2.1, hpend.trans h.2.2.2.1, htold.trans h.2.2.2.2⟩)
      (fun h hne hl hstep => distance_lt_of_step h.1 h.2.1 hne hl hstep)
      ⟨hinv, hsynced, rfl, rfl, rfl⟩ (along_of_forall_mem fun l hl _ => hhealthy l hl) hrun' hlong
  obtain ⟨hrest, hspilled⟩ := List.append_eq_nil_iff.mp hdrained
  obtain ⟨hflight, hbuf⟩ := List.append_eq_nil_iff.mp hrest
  have hquiet : v.Quiet m := by
    refine ⟨fun i hi => by rw [hpend]; exact hpending i hi, hbuf, ?_, hflight⟩
    rw [hvinv.readable.file, hspilled]
    rfl
  have hgoal : v.goal m rows held = w.goal m rows held := by
    funext ref
    simp only [World.goal, World.find, hstores, htold]
  exact ⟨pre, v, hpre, hv, hquiet, (hvinv.rows_eq hquiet).trans hgoal⟩

/-- A pod is added while the answer to the first snapshot is lost. -/
def firstAnswerLost : List Label :=
  [.put podsType (webPod "v1"), .handle 0 1, .range [podsType], .list [(webPod "v1", 2)], .snapshot,
    .next, .fail true]

/-- `Run` goes on after the back-off. -/
def afterBackoff : List Label :=
  [.wake, .range [podsType], .list [(webPod "v1", 3)], .snapshot, .next, .ack, .next, .next, .ack,
    .next, .next]

/-- After a lost answer the distance is ten, and within the healthy steps that follow the table of
the control plane is right. -/
theorem converges_afterBackoff :
    ∃ w, run (step podManager smallUploader) (start smallUploader 0 [] oldRows) firstAnswerLost =
        some w ∧ w.distance podManager = 10 ∧
      ∃ pre v, pre <+: afterBackoff ∧ run (step podManager smallUploader) w pre = some v ∧
        v.Quiet podManager ∧ v.rows = w.goal podManager oldRows [] := by
  obtain ⟨w, hw, hend⟩ := Option.map_eq_some_iff.mp (show Option.map
    (fun w : World => ((w.pending 0).length, w.distance podManager,
      (run (step podManager smallUploader) w afterBackoff).isSome))
    (run (step podManager smallUploader) (start smallUploader 0 [] oldRows) firstAnswerLost) =
      some (0, 10, true) by decide +kernel)
  simp only [Prod.mk.injEq, List.length_eq_zero_iff] at hend
  obtain ⟨hpending, hdist, hsome⟩ := hend
  obtain ⟨w', hw'⟩ := Option.isSome_iff_exists.mp hsome
  have hconv := converges_within_distance podManager smallUploader 0 [] oldRows firstAnswerLost w
    (fun _ h => absurd h List.not_mem_nil) hw (by decide +kernel) (fun i hi => by
      obtain rfl : i = 0 := Nat.lt_one_iff.mp hi
      exact hpending)
  exact ⟨w, hw, hdist, hconv.1 afterBackoff w' (by decide) hw' (by rw [hdist]; decide)⟩

end K8sAgent.Inventory
