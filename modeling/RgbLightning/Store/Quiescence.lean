import RgbLightning.Store.Teardown

/-!
# No request after the teardown

The stop of the local-first store sets a flag and takes the drain gate, under which all its
mutations check the flag: when it returns, no mutation is in progress and none will begin.
The remote-first store is only told to give up: a mutation that is queued, in progress or
begun later still sends its request (`request_after_teardown`).  `teardown_quiet` says when
no request is sent after the teardown.
-/

namespace RgbLightning

open Interleave StoreWorld SyncedKvStore

/-! ### The local-first store -/

section Synced

variable {fence : Option Object} {t : ThreadId} {w : StoreWorld} {α : Type}
variable {Q : α → StoreWorld → Prop} {s : SyncedKvStore}

/-- Changing the owner of the drain gate, when no other thread owns it. -/
theorem setGate_keeps (hI : StoresInv fence w) (m : Mutex)
    (howner : ∀ t', t' ≠ t → w.gateOwner ≠ some t') :
  StoresInv fence (w.setLock .drainGate m)
    ∧ ∀ t', t' ≠ t → StoresRely t' w (w.setLock .drainGate m)
  := by
  refine ⟨⟨hI.late, hI.stopped, hI.waited, hI.complete, hI.fence⟩, fun t' ht => ?_⟩
  exact ⟨fun h => absurd h (howner t' ht), id, id, id, id⟩

theorem gateOwner_setLock (m : Mutex) :
  (w.setLock .drainGate m).gateOwner = m.owner
  := by
  rw [gateOwner, setLock]
  dsimp only
  rw [Function.update_self]

theorem gateOwner_stable (w w' : StoreWorld) (h : StoresRely t w w')
    (howner : w.gateOwner = some t) :
  w'.gateOwner = some t
  := (h.gate howner).1

theorem gateOwner_ne (howner : w.gateOwner = some t) (t' : ThreadId) (ht : t' ≠ t) :
  w.gateOwner ≠ some t'
  := by
  rw [howner]
  intro h
  exact ht (Option.some.inj h).symm

/-- Taking the drain gate, and reading the stop flag under it. -/
theorem lockGate_then {next : Bool → Store α}
    (hstopped : ∀ w', StoresInv fence w' → w'.gateOwner = some t →
      StoresRg fence t (next true) Q w')
    (hrunning : ∀ w', StoresInv fence w' → HoldsGate t w' →
      StoresRg fence t (next false) Q w') :
  StoresRg fence t (storeOp (.lock .drainGate) >>= fun _ => storeOp .loadStopped >>= next) Q w
  := by
  apply rg_any
  intro f w1 x w2 hI1 _ hx
  simp only [exec] at hx
  split at hx
  · cases hx
  rename_i hfree
  split_ifs at hx
  · cases hx
    obtain ⟨hI2, hothers⟩ := panic_keeps (t := t) hI1
    exact ⟨hI2, hothers, by simp⟩
  cases hx
  have howner : ∀ t', t' ≠ t → w1.gateOwner ≠ some t' := by
    intro t' _
    rw [gateOwner, hfree]
    simp
  obtain ⟨hI2, hothers⟩ := setGate_keeps hI1 { w1.locks .drainGate with owner := some t }
    howner
  refine ⟨hI2, hothers, ?_⟩
  rintro _ ⟨⟩
  apply rg_step (A := fun w => w.gateOwner = some t) gateOwner_stable
    (gateOwner_setLock _)
  intro f w3 x w4 hI3 howner3 _ hx3
  cases hx3
  refine ⟨hI3, fun t' _ => storesRely_refl t' w3, ?_⟩
  rintro _ ⟨⟩
  rcases hs : w3.stopped with _ | _
  · apply hrunning w3 hI3 ⟨howner3, ?_⟩
    rw [← Bool.not_eq_true]
    intro hwaited
    rw [hI3.stopped hwaited] at hs
    cases hs
  · exact hstopped w3 hI3 howner3

theorem unlockGate_then (howner : w.gateOwner = some t) {next : Unit → Store α}
    (hnext : ∀ w', StoresInv fence w' → StoresRg fence t (next ()) Q w') :
  StoresRg fence t (storeOp (.unlock .drainGate) >>= next) Q w
  := by
  apply rg_step (A := fun w => w.gateOwner = some t) gateOwner_stable howner
  intro f w1 x w2 hI1 howner1 _ hx
  cases hx
  obtain ⟨hI2, hrely⟩ := setGate_keeps hI1 { w1.locks .drainGate with owner := none }
    (gateOwner_ne howner1)
  refine ⟨hI2, hrely, ?_⟩
  rintro _ ⟨⟩
  exact hnext _ hI2

theorem ret_rg (a : α) (w : StoreWorld) :
  StoresRg fence t (pure a : Store α) (fun _ w' => StoresInv fence w') w
  := by
  intro w' _ hI
  exact hI

theorem unlockGate_rg (howner : w.gateOwner = some t) :
  StoresRg fence t (storeOp (.unlock .drainGate)) (fun _ w' => StoresInv fence w') w
  := by
  change StoresRg fence t (storeOp (.unlock .drainGate) >>= pure) _ w
  apply unlockGate_then howner
  intro w' _
  apply ret_rg

theorem drainPending_rg (hI : StoresInv fence w) :
  StoresRg fence t s.drainPending (fun _ w' => StoresInv fence w') w
  := by
  have hgate := permit_holdsGate t
  rw [drainPending]
  split
  · apply ret_rg
  apply inner_then (p := storeOp .loadStopped) (all_inner_op rfl) hI
  intro stopped w1 hI1
  split_ifs
  · apply ret_rg
  apply lockGate_then
  · intro w2 _ howner
    rw [if_pos rfl]
    apply unlockGate_rg howner
  intro w2 hI2 hw2
  rw [if_neg Bool.false_ne_true]
  apply hgate.rg_then (p := storeOp .iterPending) ⟨rfl, fun _ => trivial⟩ hI2 hw2
  intro entries w3 hI3 hw3
  apply hgate.rg_then (mutation_drainEntries _ _) hI3 hw3
  intro _ w4 _ hw4
  apply unlockGate_rg hw4.1

theorem mutate_rg (remote : VssKvStore) (k : Key) (value : Option Bytes) :
  StoresRg fence t (s.mutate remote k value) (fun _ w' => StoresInv fence w') w
  := by
  have hgate := permit_holdsGate t
  have hinner : ∀ {β : Type} {p : Store β}, p.All (fun o : StoreOp => o.isInner) →
      p.All StoreOp.isMutation := fun hp => hp.mono isMutation_of_isInner
  -- The end of a mutation.
  have hunlock : ∀ {β : Type} {next : Unit → Store β} {Q : β → StoreWorld → Prop}
      {w1 : StoreWorld}, StoresInv fence w1 → HoldsGate t w1 →
      (∀ w2, StoresInv fence w2 → StoresRg fence t (next ()) Q w2) →
      StoresRg fence t (storeOp (.unlock (.key (vssKey k))) >>= fun _ =>
        storeOp (.unlock .drainGate) >>= next) Q w1 := by
    intro β next Q w1 hI1 hw1 hnext
    apply hgate.rg_then (p := storeOp (.unlock (.key (vssKey k)))) ⟨rfl, fun _ => trivial⟩
      hI1 hw1
    intro _ w2 _ hw2
    apply unlockGate_then hw2.1 hnext
  rw [mutate]
  apply lockGate_then
  · intro w1 _ howner
    rw [if_pos rfl]
    apply unlockGate_then howner
    intro w2 _
    apply ret_rg
  intro w1 hI1 hw1
  rw [if_neg Bool.false_ne_true]
  apply hgate.rg_then (p := storeOp (.lock (.key (vssKey k)))) ⟨rfl, fun _ => trivial⟩
    hI1 hw1
  intro _ w2 hI2 hw2
  apply hgate.rg_then (hinner (inner_reservePending s _ _)) hI2 hw2
  rintro (e | previous) w3 hI3 hw3
  · apply hunlock hI3 hw3
    intro w4 _
    apply ret_rg
  apply hgate.rg_then (hinner (inner_commitWithIntent k value)) hI3 hw3
  rintro (e | _) w4 hI4 hw4
  · apply hgate.rg_then (hinner (inner_restorePendingReservation _ _)) hI4 hw4
    intro _ w5 hI5 hw5
    apply hunlock hI5 hw5
    intro w6 _
    apply ret_rg
  apply hgate.rg_then (mutation_replicate remote k value) hI4 hw4
  rintro (e | _) w5 hI5 hw5
  · apply hunlock hI5 hw5
    intro w6 _
    split_ifs <;> apply ret_rg
  apply hgate.rg_then (hinner (inner_clearPendingRow _)) hI5 hw5
  rintro (e | _) w6 hI6 hw6
  · apply hunlock hI6 hw6
    intro w7 _
    apply ret_rg
  apply hunlock hI6 hw6
  intro w7 hI7
  apply rg_bind storesRely_refl _ hI7
  apply rg_mono _ (drainPending_rg hI7)
  intro _ w8 _
  apply ret_rg

theorem write_rg (hI : StoresInv fence w) (k : Key) (buf : Bytes) :
  StoresRg fence t (s.write k buf) (fun _ w' => StoresInv fence w') w
  := by
  rw [write]
  split
  · apply ret_rg
  · apply mutate_rg
  · change StoresRg fence t (storeOp (.localWrite k buf) >>= pure) _ w
    apply inner_then (all_inner_op rfl) hI
    intro _ w' _
    apply ret_rg

theorem remove_rg (hI : StoresInv fence w) (k : Key) :
  StoresRg fence t (s.remove k) (fun _ w' => StoresInv fence w') w
  := by
  rw [remove]
  split
  · apply ret_rg
  · apply mutate_rg
  · change StoresRg fence t (storeOp (.localRemove k) >>= pure) _ w
    apply inner_then (all_inner_op rfl) hI
    intro _ w' _
    apply ret_rg

theorem flushPendingUntil_rg (rounds : ℕ) (hI : StoresInv fence w) :
  StoresRg fence t (s.flushPendingUntil rounds) (fun _ w' => StoresInv fence w') w
  := by
  have hcount : pendingRemoteWrites.All fun o : StoreOp => o.isInner := ⟨rfl, fun _ => trivial⟩
  have hlast : ∀ {w' : StoreWorld}, StoresInv fence w' →
      StoresRg fence t pendingRemoteWrites (fun _ w'' => StoresInv fence w'') w' := by
    intro w' hI'
    rw [pendingRemoteWrites]
    apply inner_then (p := storeOp (.modifyPending id)) (all_inner_op rfl) hI'
    intro _ w'' _
    apply ret_rg
  induction rounds generalizing w with
  | zero => exact hlast hI
  | succ rounds ih =>
    rw [flushPendingUntil]
    apply inner_then hcount hI
    intro before w1 hI1
    split_ifs
    · apply ret_rg
    apply rg_bind storesRely_refl _ hI1
    apply rg_mono _ (drainPending_rg hI1)
    intro _ w2 hI2
    apply inner_then hcount hI2
    intro after w3 hI3
    split_ifs
    · exact hlast hI3
    · exact ih hI3

end Synced

/-! ### The tasks -/

section Tasks

variable {fence : Option Object} {t : ThreadId} {w : StoreWorld} {α : Type}
variable {Q : α → StoreWorld → Prop} {s : SyncedKvStore}

/-- The status of a task changes.  The stop of the store has finished only if it has taken
the drain gate. -/
theorem setTask_keeps (hI : StoresInv fence w) (task : Task) (status : TaskStatus)
    (hstatus : task = .stop → status = .finished → w.teardown.waited) :
  StoresInv fence (w.setTask task status) ∧ ∀ t, StoresRely t w (w.setTask task status)
  := by
  refine ⟨⟨hI.late, hI.stopped, ?_, hI.complete, hI.fence⟩, fun t => ?_⟩
  · intro h
    by_cases htask : task = .stop
    · rw [htask, setTask] at h
      dsimp only at h
      rw [Function.update_self] at h
      exact hstatus htask h
    · rw [setTask] at h
      dsimp only at h
      rw [Function.update_of_ne (Ne.symm htask)] at h
      exact hI.waited h
  · exact ⟨fun h => ⟨h, rfl⟩, id, id, id, id⟩

theorem beginTask_then (task : Task) {next : Unit → Store α}
    (hnext : ∀ w', StoresInv fence w' → StoresRg fence t (next ()) Q w') :
  StoresRg fence t (storeOp (.beginTask task) >>= next) Q w
  := by
  apply rg_any
  intro f w1 x w2 hI1 _ hx
  simp only [exec] at hx
  split at hx
  · cases hx
    obtain ⟨hI2, hothers⟩ := setTask_keeps hI1 task (.running t) (fun _ h => by cases h)
    refine ⟨hI2, fun t' _ => hothers t', ?_⟩
    rintro _ ⟨⟩
    exact hnext _ hI2
  · cases hx

theorem flushTask_rg (rounds : ℕ) :
  StoresRg fence t (flushTask s rounds) (fun _ w' => StoresInv fence w') w
  := by
  rw [flushTask]
  apply beginTask_then
  intro w1 hI1
  apply rg_bind storesRely_refl _ hI1
  apply rg_mono _ (flushPendingUntil_rg rounds hI1)
  intro _ w2 hI2
  change StoresRg fence t (storeOp (.endTask .flush) >>= pure) _ w2
  apply rg_any
  intro f w3 x w4 hI3 _ hx
  cases hx
  obtain ⟨hI4, hothers⟩ := setTask_keeps hI3 .flush .finished (fun h => by cases h)
  refine ⟨hI4, fun t' _ => hothers t', ?_⟩
  rintro _ ⟨⟩
  apply ret_rg

/-- The stop of the store sets the flag, and takes the drain gate with the flag set. -/
theorem stopTask_rg :
  StoresRg fence t (stopTask s) (fun _ w' => StoresInv fence w') w
  := by
  rw [stopTask, stop]
  apply beginTask_then
  intro w1 hI1
  rw [Prog.bind_assoc]
  apply rg_any
  intro f w2 x w3 hI2 _ hx
  cases hx
  have hI3 : StoresInv fence { w2 with stopped := true } :=
    ⟨hI2.late, fun _ => rfl, hI2.waited, hI2.complete, hI2.fence⟩
  refine ⟨hI3, fun t' _ => ⟨fun h => ⟨h, rfl⟩, id, fun _ => rfl, id, id⟩, ?_⟩
  rintro _ ⟨⟩
  rw [Prog.bind_assoc]
  apply rg_step (A := fun w => w.stopped) (fun _ _ h => h.stopped) rfl
  intro f w4 x w5 hI4 hstopped _ hx
  simp only [exec] at hx
  split at hx
  · cases hx
  rename_i hfree
  cases hx
  have hwaited : (w4.teardown.waited || w4.stopped) = true := by
    rw [hstopped, Bool.or_true]
  refine ⟨⟨hI4.late, fun _ => hstopped, fun _ => hwaited,
    fun h => ⟨hwaited, (hI4.complete h).2⟩, hI4.fence⟩, fun t' _ => ?_, ?_⟩
  · -- Nobody held the gate.
    refine ⟨fun h => ?_, id, id, fun _ => hwaited, id⟩
    rw [gateOwner, hfree] at h
    cases h
  rintro _ ⟨⟩
  apply rg_step (A := fun w => w.gateOwner = some t ∧ w.teardown.waited)
    (fun w w' h hw => ⟨gateOwner_stable w w' h hw.1, h.waited hw.2⟩)
  · exact ⟨gateOwner_setLock (w := w4) { w4.locks .drainGate with owner := some t },
      hwaited⟩
  rintro f w6 x w7 hI6 ⟨howner, hwaited6⟩ _ hx
  cases hx
  obtain ⟨hI7, hrely⟩ := setGate_keeps hI6 { w6.locks .drainGate with owner := none }
    (gateOwner_ne howner)
  refine ⟨hI7, hrely, ?_⟩
  rintro _ ⟨⟩
  change StoresRg fence t (storeOp (.endTask .stop) >>= pure) _ _
  apply rg_step (A := fun w => w.teardown.waited) (fun _ _ h => h.waited) hwaited6
  intro f w8 x w9 hI8 hwaited8 _ hx
  cases hx
  obtain ⟨hI9, hothers⟩ := setTask_keeps hI8 .stop .finished (fun _ _ => hwaited8)
  refine ⟨hI9, fun t' _ => hothers t', ?_⟩
  rintro _ ⟨⟩
  apply ret_rg

end Tasks

/-! ### The remote-first store -/

section RemoteFirst

variable {fence : Option Object} {t : ThreadId} {w : StoreWorld} {α : Type}
variable {Q : α → StoreWorld → Prop}

theorem subscribe_then {next : Unit → Store α}
    (hnext : ∀ w', StoresInv fence w' → Subscribed t w' → StoresRg fence t (next ()) Q w') :
  StoresRg fence t (storeOp .subscribe >>= next) Q w
  := by
  apply rg_any
  intro f w1 x w2 hI1 hincomplete hx
  cases hx
  have hI2 : StoresInv fence { w1 with receivers := insert t w1.receivers } := by
    refine ⟨hI1.late, hI1.stopped, hI1.waited, fun h => ?_, hI1.fence⟩
    exact absurd h (of_decide_eq_true hincomplete)
  refine ⟨hI2, fun t' _ => ⟨fun h => ⟨h, rfl⟩, Finset.mem_insert_of_mem, id, id, id⟩, ?_⟩
  rintro _ ⟨⟩
  exact hnext _ hI2 (Finset.mem_insert_self t _)

theorem dropReceiver_then {next : Unit → Store α}
    (hnext : ∀ w', StoresInv fence w' → StoresRg fence t (next ()) Q w') :
  StoresRg fence t (storeOp .dropReceiver >>= next) Q w
  := by
  apply rg_any
  intro f w1 x w2 hI1 _ hx
  cases hx
  have hI2 : StoresInv fence { w1 with receivers := w1.receivers.erase t } := by
    refine ⟨hI1.late, hI1.stopped, hI1.waited, fun h => ?_, hI1.fence⟩
    obtain ⟨hwaited, hreceivers⟩ := hI1.complete h
    refine ⟨hwaited, ?_⟩
    dsimp only
    rw [hreceivers, Finset.erase_empty]
  refine ⟨hI2, fun t' ht => ⟨fun h => ⟨h, rfl⟩, fun h => Finset.mem_erase.mpr ⟨ht, h⟩,
    id, id, id⟩, ?_⟩
  rintro _ ⟨⟩
  exact hnext _ hI2

/-- The requests of a mutation, until one is answered for good. -/
theorem retryTransient_then {op : Store (Except IoError Unit)}
    (hop : op.All StoreOp.isMutation) (attempts : ℕ) (hI : StoresInv fence w)
    (hw : Subscribed t w) {next : Except IoError Unit → Store α}
    (hnext : ∀ r w', StoresInv fence w' → StoresRg fence t (next r) Q w') :
  StoresRg fence t (retryTransient op attempts >>= next) Q w
  := by
  have hsub := permit_subscribed t
  induction attempts generalizing w with
  | zero =>
    apply hsub.rg_then _ hI hw
    · intro a w' hI' _
      exact hnext a w' hI'
    · exact ⟨rfl, fun e => e.elim⟩
  | succ attempts ih =>
    rw [retryTransient, Prog.bind_assoc]
    apply hsub.rg_then hop hI hw
    rintro (e | _) w1 hI1 hw1
    · dsimp only
      split_ifs
      · rw [Prog.bind_assoc]
        apply hsub.rg_then (p := storeOp .backoff) ⟨rfl, fun _ => trivial⟩ hI1 hw1
        intro stopped w2 hI2 hw2
        split_ifs
        · apply dropReceiver_then
          intro w3 hI3
          exact hnext _ w3 hI3
        · exact ih hI2 hw2
      · apply dropReceiver_then
        intro w2 hI2
        exact hnext _ w2 hI2
    · apply dropReceiver_then
      intro w2 hI2
      exact hnext _ w2 hI2

theorem remoteFirst_mutate_rg (store : RemoteFirstKvStore) (k : Key) (attempts : ℕ)
    {remoteOp : VssKvStore → Store (Except IoError Unit)}
    (hremote : ∀ remote, (remoteOp remote).All StoreOp.isMutation)
    {localOp : Store (Except IoError Unit)}
    (hlocal : localOp.All fun o : StoreOp => o.isInner) :
  StoresRg fence t (store.mutate k attempts remoteOp localOp)
    (fun _ w' => StoresInv fence w') w
  := by
  have hunlock : ∀ {β : Type} {next : Unit → Store β} {Q : β → StoreWorld → Prop}
      {w1 : StoreWorld}, StoresInv fence w1 →
      (∀ w2, StoresInv fence w2 → StoresRg fence t (next ()) Q w2) →
      StoresRg fence t (storeOp (.unlock (.remoteKey (vssKey k))) >>= next) Q w1 := by
    intro β next Q w1 hI1 hnext
    apply inner_then (p := storeOp (.unlock (.remoteKey (vssKey k)))) (all_inner_op rfl) hI1
    intro _
    exact hnext
  rw [RemoteFirstKvStore.mutate]
  apply subscribe_then
  intro w1 hI1 hw1
  apply (permit_subscribed t).rg_then (p := storeOp (.lock (.remoteKey (vssKey k))))
    ⟨rfl, fun _ => trivial⟩ hI1 hw1
  intro _ w2 hI2 hw2
  split
  · apply retryTransient_then (hremote _) attempts hI2 hw2
    rintro (e | _) w3 hI3
    · apply hunlock hI3
      intro w4 _
      apply ret_rg
    · apply inner_then hlocal hI3
      intro _ w4 hI4
      apply hunlock hI4
      intro w5 _
      apply ret_rg
  · apply inner_then hlocal hI2
    intro r w3 hI3
    apply hunlock hI3
    intro w4 _
    apply dropReceiver_then
    intro w5 _
    apply ret_rg

theorem mutation_removeAsync (remote : VssKvStore) (k : Key) :
  (remote.removeAsync k).All StoreOp.isMutation
  := by
  rw [VssKvStore.removeAsync, Prog.perform_bind]
  refine ⟨⟨_, (vssKey_ne_fenceKey k).symm, Or.inr rfl⟩, fun answer => ?_⟩
  dsimp only
  split <;> trivial

end RemoteFirst

/-! ### The teardown -/

section Teardown

variable {fence : Option Object} {t : ThreadId} {w : StoreWorld} {α : Type}
variable {Q : α → StoreWorld → Prop} {s : SyncedKvStore}

theorem spawnTask_then (task : Task) {next : Unit → Store α}
    (hnext : ∀ w', StoresInv fence w' → StoresRg fence t (next ()) Q w') :
  StoresRg fence t (storeOp (.spawnTask task) >>= next) Q w
  := by
  apply rg_any
  intro f w1 x w2 hI1 _ hx
  cases hx
  obtain ⟨hI2, hothers⟩ := setTask_keeps hI1 task .spawned (fun _ h => by cases h)
  refine ⟨hI2, fun t' _ => hothers t', ?_⟩
  rintro _ ⟨⟩
  exact hnext _ hI2

theorem finished_of_awaitTask {f : StoreFault} {task : Task}
    (h : w.awaitTask f task = some .finished) :
  w.teardown.tasks task = .finished
  := by
  unfold awaitTask at h
  split at h
  · cases h
  · assumption
  · cases h
  · cases h

/-- Waiting for a task.  When the stop has finished it has taken the drain gate. -/
theorem awaitTask_then (task : Task) {next : TaskOutcome → Store α}
    (hnext : ∀ outcome w', StoresInv fence w' →
      (task = .stop → outcome = .finished → w'.teardown.waited) →
      StoresRg fence t (next outcome) Q w') :
  StoresRg fence t (storeOp (.awaitTask task) >>= next) Q w
  := by
  apply rg_any
  intro f w1 x w2 hI1 _ hx
  simp only [exec, Option.map_eq_some_iff] at hx
  obtain ⟨outcome, houtcome, hx⟩ := hx
  cases hx
  refine ⟨hI1, fun t' _ => storesRely_refl t' w1, ?_⟩
  rintro _ ⟨⟩
  apply hnext outcome w1 hI1
  rintro rfl rfl
  apply hI1.waited (finished_of_awaitTask houtcome)

variable (monitors : Option RemoteFirstKvStore)

theorem stopMonitors_then (hI : StoresInv fence w) {A : StoreWorld → Prop}
    (hA : ∀ w w', StoresRely t w w' → A w → A w') (hsend : ∀ w, A w → A { w with
      shutdown := w.shutdown || decide w.receivers.Nonempty
      teardown := { w.teardown with signalled := true } }) (hw : A w) {next : Unit → Store α}
    (hnext : ∀ w', StoresInv fence w' → A w' → StoresRg fence t (next ()) Q w') :
  StoresRg fence t (stopMonitors monitors >>= next) Q w
  := by
  cases monitors with
  | none => exact hnext w hI hw
  | some store =>
    apply rg_step hA hw
    intro f w1 x w2 hI1 hw1 _ hx
    cases hx
    have hI2 : StoresInv fence { w1 with
        shutdown := w1.shutdown || decide w1.receivers.Nonempty
        teardown := { w1.teardown with signalled := true } } :=
      ⟨hI1.late, hI1.stopped, hI1.waited, hI1.complete, hI1.fence⟩
    refine ⟨hI2, fun t' _ => ⟨fun h => ⟨h, rfl⟩, id, id, id, id⟩, ?_⟩
    rintro _ ⟨⟩
    exact hnext _ hI2 (hsend w1 hw1)

/-- The stores are stopped: the teardown is complete only if the stop of the local-first
store has taken the drain gate. -/
theorem stopVssStores_rg :
  StoresRg fence t (stopVssStores monitors)
    (fun r w' => StoresInv fence w' ∧ (r = .complete → w'.teardown.waited)) w
  := by
  have habandoned : ∀ {w : StoreWorld}, StoresInv fence w →
      StoresRg fence t (stopMonitors monitors >>= fun _ => pure VssTeardown.abandoned)
        (fun r w' => StoresInv fence w' ∧ (r = .complete → w'.teardown.waited)) w := by
    intro w hI
    apply stopMonitors_then (A := fun _ => True) monitors hI (fun _ _ _ _ => trivial)
      (fun _ _ => trivial) trivial
    intro w1 _ _ w2 _ hI2
    refine ⟨hI2, ?_⟩
    rintro ⟨⟩
  rw [stopVssStores]
  apply spawnTask_then
  intro w1 _
  apply awaitTask_then
  intro outcome w2 hI2 _
  cases outcome with
  | finished =>
    apply spawnTask_then
    intro w3 _
    apply awaitTask_then
    intro outcome w4 hI4 hwaited
    cases outcome with
    | finished =>
      apply stopMonitors_then (A := fun w => w.teardown.waited) monitors hI4
        (fun _ _ h => h.waited) (fun _ h => h) (hwaited rfl rfl)
      intro w5 _ hw5 w6 h6 hI6
      exact ⟨hI6, fun _ => h6.waited hw5⟩
    | failed => exact habandoned hI4
    | timedOut => exact habandoned hI4
  | failed => exact habandoned hI2
  | timedOut => exact habandoned hI2

theorem releaseVssFenceIfOwned_all (s : SyncedKvStore) :
  s.releaseVssFenceIfOwned.All StoreOp.releasesFence
  := by
  rw [releaseVssFenceIfOwned]
  split
  · apply releaseFenceIfOwned_all
  · trivial

theorem fenceRequest_keeps {request : PutObjectRequest} (hrequest : request.keys = [fenceKey])
    (hI : StoresInv fence w) (hw : w.teardown.complete) {f : StoreFault}
    {x : Option (Except VssError Unit)} {w' : StoreWorld}
    (hx : exec t f (.putObject request) w = some (x, w')) :
  StoresInv fence w' ∧ (∀ t, StoresRely t w w') ∧ w'.teardown.complete
  := by
  have hserver : ∀ server, StoresInv fence { w with server }
      ∧ (∀ t, StoresRely t w { w with server })
      ∧ ({ w with server } : StoreWorld).teardown.complete := by
    intro server
    refine ⟨⟨hI.late, hI.stopped, hI.waited, hI.complete, fun h => ?_⟩, fun t => ?_, hw⟩
    · dsimp only at h
      rw [hw] at h
      cases h
    · exact ⟨fun h => ⟨h, rfl⟩, id, id, id, id⟩
  have hrecord : w.recordRequest request = w := by
    rw [recordRequest, if_neg]
    simp [hrequest]
  have hput : StoresInv fence (w.put request).2 ∧ (∀ t, StoresRely t w (w.put request).2)
      ∧ (w.put request).2.teardown.complete := by
    rw [put]
    split
    · apply hserver
    · apply hserver w.server
  simp only [exec, hrecord, putObject] at hx
  cases f with
  | remoteFails e => cases hx; exact hserver w.server
  | remoteLost e => cases hx; exact hput
  | _ => cases hx; exact hput

theorem releaseVssFence_rg (hI : StoresInv fence w) (hw : w.teardown.complete) :
  StoresRg fence t (releaseVssFence s .complete) (fun _ w' => StoresInv fence w') w
  := by
  rw [releaseVssFence]
  apply rg_bind storesRely_refl _ hI
  apply rg_frame (A := fun w => w.teardown.complete) (fun _ _ h => h.complete) _
    (releaseVssFenceIfOwned_all s) hw
  · intro _ w' _ _
    apply ret_rg
  intro o ho f w1 x w2 hI1 hw1 hx
  cases o with
  | getObject key =>
    cases hx
    exact ⟨hI1, fun t' _ => storesRely_refl t' w1, fun _ => hw1⟩
  | putObject request =>
    obtain ⟨hI2, hothers, hw2⟩ := fenceRequest_keeps (t := t) ho hI1 hw1 hx
    exact ⟨hI2, fun t' _ => hothers t', fun _ => hw2⟩
  | _ => cases ho

theorem teardown_rg (hI : StoresInv fence w) :
  StoresRg fence t (teardown s monitors) (fun _ w' => StoresInv fence w') w
  := by
  rw [teardown]
  apply rg_bind storesRely_refl _ hI
  apply rg_mono _ (stopVssStores_rg monitors)
  rintro (_ | _) w1 ⟨hI1, hwaited⟩
  · apply rg_step (A := fun w => w.teardown.waited) (fun _ _ h => h.waited) (hwaited rfl)
    intro f w2 x w3 hI2 hw2 hquiet hx
    cases hx
    have hI3 : StoresInv fence { w2 with
        teardown := { w2.teardown with complete := true } } :=
      ⟨hI2.late, hI2.stopped, hI2.waited, fun _ => ⟨hw2, of_decide_eq_true hquiet⟩,
        fun h => by cases h⟩
    refine ⟨hI3, fun t' _ => ⟨fun h => ⟨h, rfl⟩, id, id, id, fun _ => rfl⟩, ?_⟩
    rintro _ ⟨⟩
    apply rg_bind storesRely_refl _ hI3
    apply rg_mono _ (releaseVssFence_rg hI3 rfl)
    intro _ w4 _
    apply ret_rg
  · apply ret_rg

end Teardown

/-! ### Every interleaving -/

theorem storesCall_rg (s : SyncedKvStore) (monitors : RemoteFirstKvStore)
    {fence : Option Object} (t : ThreadId) (c : StoresCall) {w : StoreWorld}
    (hI : StoresInv fence w) :
  StoresRg fence t (c.body s monitors t) (fun _ _ => True) w
  := by
  have hdone : ∀ {α : Type} {p : Store α},
      StoresRg fence t p (fun _ w' => StoresInv fence w') w →
      StoresRg fence t (p >>= fun _ => pure ()) (fun _ _ => True) w := by
    intro α p hp
    apply rg_bind storesRely_refl _ hI
    apply rg_mono _ hp
    intro _ w' _ w'' _ _
    trivial
  have hunit : ∀ {p : Store Unit},
      StoresRg fence t p (fun _ w' => StoresInv fence w') w →
      StoresRg fence t p (fun _ _ => True) w :=
    fun hp => rg_mono (fun _ _ _ => trivial) hp
  cases c with
  | write k buf => exact hdone (write_rg hI k buf)
  | remove k => exact hdone (remove_rg hI k)
  | drainPending => exact hunit (drainPending_rg hI)
  | remoteWrite attempts k buf =>
    apply hdone
    apply remoteFirst_mutate_rg
    · intro remote
      apply mutation_putValue
    · exact all_inner_op rfl
  | remoteRemove attempts k =>
    apply hdone
    apply remoteFirst_mutate_rg
    · intro remote
      apply mutation_removeAsync
    · exact all_inner_op rfl
  | flushTask rounds => exact hunit (flushTask_rg rounds)
  | stopTask => exact hunit stopTask_rg
  | teardown => exact hunit (teardown_rg (some monitors) hI)

/-- In every interleaving of mutations of both stores, drains and the teardown, in which the
remote-first store is quiet from the moment the teardown is complete: no request about
another object than the fence is sent after that moment, no thread is about to send one, and
the fence is the same up to that moment. -/
theorem teardown_quiet (s : SyncedKvStore) (monitors : RemoteFirstKvStore) {w : StoreWorld}
    (hw : w.teardown = {}) (ms : List (Move ThreadId StoresCall StoreFault))
    (hms : Pool.AllowsAll sharedStore MonitorsQuiet (fun _ _ _ => True)
      (StoresCall.body s monitors) (Pool.idle w) ms) :
  let pool := Pool.run sharedStore (StoresCall.body s monitors) (Pool.idle w) ms
  pool.world.teardown.late = []
    ∧ (pool.world.teardown.complete →
        ∀ t request next, pool.thread t = some (.op (.putObject request) next) →
          request.keys = [fenceKey])
    ∧ (pool.world.teardown.complete = false →
        pool.world.server.lookup fenceKey = w.server.lookup fenceKey)
  := by
  intro pool
  have hstart : StoresInv (w.server.lookup fenceKey) w := by
    constructor <;> simp [hw]
  have hsound : Pool.Sound sharedStore MonitorsQuiet (StoresInv (w.server.lookup fenceKey))
      StoresRely pool :=
    Pool.run_invariant storesRely_refl storesRely_trans
      (fun t c w _ hI => storesCall_rg s monitors t c hI) ms (Pool.idle_sound hstart) hms
  refine ⟨hsound.invariant.late, fun hcomplete t request next hthread => ?_,
    hsound.invariant.fence⟩
  -- Sending another request would be recorded, even if it fails.
  have hstep := hsound.threads t _ hthread pool.world (storesRely_refl t _) hsound.invariant
    (.remoteFails ⟨.internalError, by decide⟩) rfl
  by_contra hkeys
  have hlate := hstep.1.late
  simp only [recordRequest, hcomplete, hkeys, ne_eq,
    not_false_eq_true, and_self, if_true] at hlate
  exact absurd hlate (by simp)

/-! ### Examples -/

/-- The moves of a thread that nothing interferes with. -/
def steps (t : ThreadId) (n : ℕ) : List (Move ThreadId StoresCall StoreFault) :=
  List.replicate n (.step t .calm)

/-- The teardown runs to the end: the thread `1` flushes, the thread `2` stops the local-first
store, the thread `0` releases the fence. -/
def calmTeardown : List (Move ThreadId StoresCall StoreFault) :=
  [.spawn 0 .teardown] ++ steps 0 1
    ++ [.spawn 1 (.flushTask 0)] ++ steps 1 3 ++ steps 0 2
    ++ [.spawn 2 .stopTask] ++ steps 2 5 ++ steps 0 5

/-- The instance owns the fence. -/
def fencedWorld : StoreWorld :=
  { opened := true, server := (∅ : Objects).insert fenceKey ⟨1, str "node", Int.one_pos⟩ }

/-- The manager is written before the teardown begins. -/
def writtenBefore : List (Move ThreadId StoresCall StoreFault) :=
  [.spawn 3 (.remoteWrite 1 channelManagerKey [2])] ++ steps 3 7 ++ calmTeardown

def tornStore : SyncedKvStore := ⟨false, some ⟨str "node"⟩, 2, Nat.two_pos⟩

def tornMonitors : RemoteFirstKvStore := ⟨some ⟨str "node"⟩⟩

theorem teardown_quiet_writtenBefore :
  let pool := Pool.run sharedStore (StoresCall.body tornStore tornMonitors)
    (Pool.idle fencedWorld) writtenBefore
  pool.world.teardown.complete ∧ pool.world.server.lookup fenceKey = none
    ∧ pool.world.teardown.late = []
  := by
  refine ⟨by decide +kernel, by decide +kernel, ?_⟩
  exact (teardown_quiet tornStore tornMonitors (w := fencedWorld) rfl writtenBefore
    (by decide +kernel)).1

/-- The manager is being written when the teardown begins. -/
def writtenAcross : List (Move ThreadId StoresCall StoreFault) :=
  [.spawn 3 (.remoteWrite 1 channelManagerKey [2])] ++ steps 3 3 ++ calmTeardown ++ steps 3 1

/-- The manager is stored after the teardown is complete and the fence is released. -/
theorem request_after_teardown :
  let pool := Pool.run sharedStore (StoresCall.body tornStore tornMonitors)
    (Pool.idle fencedWorld) writtenAcross
  pool.world.teardown.complete ∧ pool.world.server.lookup fenceKey = none
    ∧ pool.world.teardown.late
      = [KeyValue.toWrite ⟨vssKey channelManagerKey, -1, [2]⟩]
    ∧ (pool.world.server.lookup (vssKey channelManagerKey)).map (·.value) = some [2]
  := by
  decide +kernel

end RgbLightning
