import RgbLightning.Store.SyncedKvStore

/-!
# The teardown of the stores

The teardown flushes the pending map and stops both stores, then hands the fence over.  The
flush and the stop of the local-first store are blocking tasks, each waited for until a
deadline.

A thread may send requests only under a permit (`Permit`): it holds the drain gate, which the
stop of the local-first store has not taken yet, or it runs a mutation of the remote-first
store.  While there is a permit the teardown is not complete.
-/

namespace RgbLightning

open Interleave StoreWorld StoreOp

/-! ### The procedure -/

/-- Whether the stores are stopped, or a step was abandoned at the deadline. -/
inductive VssTeardown where
  | complete
  | abandoned
deriving DecidableEq

def stopMonitors (monitors : Option RemoteFirstKvStore) : Store Unit :=
  match monitors with
  | some store => store.stop
  | none => pure ()

/-- Flushes the pending map and stops both stores. -/
def stopVssStores (monitors : Option RemoteFirstKvStore) : Store VssTeardown := do
  storeOp (.spawnTask .flush)
  match ← storeOp (.awaitTask .flush) with
  | .finished =>
    storeOp (.spawnTask .stop)
    match ← storeOp (.awaitTask .stop) with
    | .finished =>
      stopMonitors monitors
      pure .complete
    | _ =>
      stopMonitors monitors
      pure .abandoned
  | _ =>
    stopMonitors monitors
    pure .abandoned

/-- Releases the fence after a complete teardown.  Returns whether it tried. -/
def releaseVssFence (s : SyncedKvStore) : VssTeardown → Store Bool
  | .abandoned => pure false
  | .complete => do
    let _ ← s.releaseVssFenceIfOwned
    pure true

def flushTask (s : SyncedKvStore) (rounds : ℕ) : Store Unit := do
  storeOp (.beginTask .flush)
  let _ ← s.flushPendingUntil rounds
  storeOp (.endTask .flush)

def stopTask (s : SyncedKvStore) : Store Unit := do
  storeOp (.beginTask .stop)
  s.stop
  storeOp (.endTask .stop)

/-- The teardown.  It is noted when the stores are stopped. -/
def teardown (s : SyncedKvStore) (monitors : Option RemoteFirstKvStore) : Store Unit := do
  match ← stopVssStores monitors with
  | .complete =>
    storeOp (.note .teardownComplete)
    let _ ← releaseVssFence s .complete
    pure ()
  | .abandoned =>
    let _ ← releaseVssFence s .abandoned
    pure ()

/-- What the threads of the node do with the stores. -/
inductive StoresCall where
  | write (k : Key) (buf : Bytes)
  | remove (k : Key)
  | drainPending
  | remoteWrite (attempts : ℕ) (k : Key) (buf : Bytes)
  | remoteRemove (attempts : ℕ) (k : Key)
  | flushTask (rounds : ℕ)
  | stopTask
  | teardown

def StoresCall.body (s : SyncedKvStore) (monitors : RemoteFirstKvStore) (_ : ThreadId) :
    StoresCall → Store Unit
  | .write k buf => do
    let _ ← s.write k buf
    pure ()
  | .remove k => do
    let _ ← s.remove k
    pure ()
  | .drainPending => s.drainPending
  | .remoteWrite attempts k buf => do
    let _ ← monitors.write attempts k buf
    pure ()
  | .remoteRemove attempts k => do
    let _ ← monitors.remove attempts k
    pure ()
  | .flushTask rounds => RgbLightning.flushTask s rounds
  | .stopTask => RgbLightning.stopTask s
  | .teardown => RgbLightning.teardown s (some monitors)

/-! ### The invariant -/

/-- No request was sent after the teardown, and the fence was not touched before.  Once the
teardown is complete the drain gate was taken with the flag set, and no mutation of the
remote-first store is running. -/
structure StoresInv (fence : Option Object) (w : StoreWorld) : Prop where
  late : w.teardown.late = []
  stopped : w.teardown.waited → w.stopped
  waited : w.teardown.tasks .stop = .finished → w.teardown.waited
  complete : w.teardown.complete → w.teardown.waited ∧ w.receivers = ∅
  fence : w.teardown.complete = false → w.server.lookup fenceKey = fence

def StoreWorld.gateOwner (w : StoreWorld) : Option ThreadId :=
  (w.locks .drainGate).owner

/-- What the other threads may do.  While a thread holds the drain gate nobody else takes it,
and a receiver is dropped by its own thread only. -/
structure StoresRely (t : ThreadId) (w w' : StoreWorld) : Prop where
  gate : w.gateOwner = some t →
    w'.gateOwner = some t ∧ w'.teardown.waited = w.teardown.waited
  receiver : t ∈ w.receivers → t ∈ w'.receivers
  stopped : w.stopped → w'.stopped
  waited : w.teardown.waited → w'.teardown.waited
  complete : w.teardown.complete → w'.teardown.complete

variable (t : ThreadId)

theorem storesRely_refl (w : StoreWorld) :
  StoresRely t w w
  := ⟨fun h => ⟨h, rfl⟩, fun h => h, fun h => h, fun h => h, fun h => h⟩

theorem storesRely_trans (w w' w'' : StoreWorld) (h : StoresRely t w w')
    (h' : StoresRely t w' w'') :
  StoresRely t w w''
  := by
  refine ⟨fun howner => ?_, fun hr => h'.receiver (h.receiver hr),
    fun hs => h'.stopped (h.stopped hs), fun hw => h'.waited (h.waited hw),
    fun hc => h'.complete (h.complete hc)⟩
  obtain ⟨howner', hwaited⟩ := h.gate howner
  obtain ⟨howner'', hwaited'⟩ := h'.gate howner'
  exact ⟨howner'', hwaited'.trans hwaited⟩

/-- Whether the remote-first store is quiet at an operation: no mutation is running when the
teardown is complete, and none is started later. -/
def StoreWorld.quietAt (w : StoreWorld) : StoreOp → Bool
  | .subscribe => ¬ w.teardown.complete
  | .note .teardownComplete => w.receivers = ∅
  | _ => true

/-- The remote-first store is quiet from the moment the teardown is complete. -/
def MonitorsQuiet : Interleave.Guard storeInterface ThreadId StoreWorld StoreFault :=
  fun _ o _ w => w.quietAt o
deriving Decidable

/-- A thread keeps to the logic, with a postcondition. -/
abbrev StoresRg (fence : Option Object) {α : Type} (t : ThreadId) (p : Store α)
    (Q : α → StoreWorld → Prop) (w : StoreWorld) : Prop :=
  rg sharedStore MonitorsQuiet (StoresInv fence) StoresRely t p Q w

/-! ### Operations that leave the teardown alone -/

/-- The worlds agree on the stop flag, the receivers, the teardown, the drain gate and the
fence. -/
structure SameControl (w w' : StoreWorld) : Prop where
  stopped : w'.stopped = w.stopped
  receivers : w'.receivers = w.receivers
  teardown : w'.teardown = w.teardown
  gate : w'.locks .drainGate = w.locks .drainGate
  fence : w'.server.lookup fenceKey = w.server.lookup fenceKey

theorem SameControl.refl (w : StoreWorld) :
  SameControl w w
  := ⟨rfl, rfl, rfl, rfl, rfl⟩

/-- Operations that do not send requests and leave the teardown and the drain gate alone. -/
def StoreOp.isInner : StoreOp → Bool
  | .lock l => l ≠ .drainGate
  | .unlock l => l ≠ .drainGate
  | .panic => true
  | .hang => true
  | .loadStopped => true
  | .modifyPending _ => true
  | .iterPending => true
  | .backoff => true
  | .localWrite _ _ => true
  | .localRemove _ => true
  | .writeWithReplicationIntent _ _ _ _ => true
  | .removeWithReplicationIntent _ _ _ => true
  | .encryptValue _ => true
  | .getObject _ => true
  | .fetchAddWriteCounter => true
  | _ => false

section Steps

variable {fence : Option Object} {t : ThreadId} {w w' : StoreWorld}

theorem sameControl_setLock {l : Lock} (hl : l ≠ .drainGate) (m : Mutex) :
  SameControl w (w.setLock l m)
  := by
  refine ⟨rfl, rfl, rfl, ?_, rfl⟩
  rw [setLock]
  exact Function.update_of_ne hl.symm _ _

/-- An inner operation leaves the teardown alone, or its thread panics. -/
theorem inner_exec {o : StoreOp} (ho : o.isInner) {f : StoreFault} {x : Option o.Ans}
    (hx : StoreWorld.exec t f o w = some (x, w')) :
  SameControl w w' ∨ (x = none ∧ w' = w.panic t)
  := by
  have htransact : ∀ w1 : StoreWorld, SameControl w w1 → SameControl w (f.transact w w1).2 := by
    intro w1 h
    rw [StoreFault.transact]
    split
    · apply SameControl.refl
    · apply h
  cases o with
  | lock l =>
    simp only [isInner, decide_eq_true_eq] at ho
    simp only [StoreWorld.exec] at hx
    split at hx
    · cases hx
    · split_ifs at hx
      · cases hx
        exact Or.inr ⟨rfl, rfl⟩
      · cases hx
        exact Or.inl (sameControl_setLock ho _)
  | unlock l =>
    simp only [isInner, decide_eq_true_eq] at ho
    cases hx
    exact Or.inl (sameControl_setLock ho _)
  | panic =>
    cases hx
    exact Or.inr ⟨rfl, rfl⟩
  | hang => cases hx
  | iterPending =>
    left
    cases f <;> cases hx <;> exact SameControl.refl w
  | localWrite k value =>
    cases hx
    exact Or.inl (htransact _ ⟨rfl, rfl, rfl, rfl, rfl⟩)
  | localRemove k =>
    cases hx
    exact Or.inl (htransact _ ⟨rfl, rfl, rfl, rfl, rfl⟩)
  | writeWithReplicationIntent k value intentKey intent =>
    cases hx
    exact Or.inl (htransact _ ⟨rfl, rfl, rfl, rfl, rfl⟩)
  | removeWithReplicationIntent k intentKey intent =>
    cases hx
    exact Or.inl (htransact _ ⟨rfl, rfl, rfl, rfl, rfl⟩)
  | loadStopped => cases hx; exact Or.inl ⟨rfl, rfl, rfl, rfl, rfl⟩
  | modifyPending change => cases hx; exact Or.inl ⟨rfl, rfl, rfl, rfl, rfl⟩
  | backoff => cases hx; exact Or.inl ⟨rfl, rfl, rfl, rfl, rfl⟩
  | encryptValue plaintext => cases hx; exact Or.inl ⟨rfl, rfl, rfl, rfl, rfl⟩
  | getObject key => cases hx; exact Or.inl ⟨rfl, rfl, rfl, rfl, rfl⟩
  | fetchAddWriteCounter => cases hx; exact Or.inl ⟨rfl, rfl, rfl, rfl, rfl⟩
  | _ => cases ho

/-- A request about one object other than the fence. -/
def DataRequest (request : PutObjectRequest) : Prop :=
  ∃ item : KeyValue, item.key ≠ fenceKey ∧ (request = item.toWrite ∨ request = item.toDelete)

theorem DataRequest.lookup_fence {request : PutObjectRequest} (h : DataRequest request)
    {policy : ServerPolicy} {objects server : Objects}
    (hput : objects.put policy request = .ok server) :
  server.lookup fenceKey = objects.lookup fenceKey
  := by
  apply Objects.lookup_put hput
  obtain ⟨item, hitem, rfl | rfl⟩ := h
  · simpa [PutObjectRequest.keys, KeyValue.toWrite] using hitem.symm
  · simpa [PutObjectRequest.keys, KeyValue.toDelete] using hitem.symm

theorem put_exec {request : PutObjectRequest} (hrequest : DataRequest request)
    (hcomplete : w.teardown.complete = false) {f : StoreFault}
    {x : Option (Except VssError Unit)}
    (hx : StoreWorld.exec t f (.putObject request) w = some (x, w')) :
  SameControl w w'
  := by
  have hrecord : w.recordRequest request = w := by
    rw [recordRequest, if_neg]
    simp [hcomplete]
  have hput : SameControl w (w.put request).2 := by
    rw [put]
    rcases h : Objects.put w.policy w.server request with e | server
    · apply SameControl.refl
    · exact ⟨rfl, rfl, rfl, rfl, hrequest.lookup_fence h⟩
  simp only [StoreWorld.exec, hrecord, StoreWorld.putObject] at hx
  cases f with
  | remoteFails e => cases hx; apply SameControl.refl
  | remoteLost e => cases hx; apply hput
  | _ => cases hx; apply hput

theorem SameControl.keeps (h : SameControl w w') (hw : StoresInv fence w) :
  StoresInv fence w' ∧ ∀ t, StoresRely t w w'
  := by
  constructor
  · constructor
    · rw [h.teardown]
      apply hw.late
    · rw [h.teardown, h.stopped]
      apply hw.stopped
    · rw [h.teardown]
      apply hw.waited
    · rw [h.teardown, h.receivers]
      apply hw.complete
    · rw [h.teardown, h.fence]
      apply hw.fence
  · intro t
    have howner : w'.gateOwner = w.gateOwner := by
      rw [StoreWorld.gateOwner, StoreWorld.gateOwner, h.gate]
    constructor
    · rw [howner, h.teardown]
      intro h
      exact ⟨h, rfl⟩
    · rw [h.receivers]
      exact id
    · rw [h.stopped]
      exact id
    · rw [h.teardown]
      exact id
    · rw [h.teardown]
      exact id

/-- A panic unlocks the mutexes of its thread and drops its receiver. -/
theorem panic_keeps (hw : StoresInv fence w) :
  StoresInv fence (w.panic t) ∧ ∀ t', t' ≠ t → StoresRely t' w (w.panic t)
  := by
  constructor
  · refine ⟨hw.late, hw.stopped, ?_, ?_, hw.fence⟩
    · intro h
      simp only [StoreWorld.panic] at h
      split_ifs at h
      apply hw.waited h
    · intro h
      obtain ⟨hwaited, hreceivers⟩ := hw.complete h
      refine ⟨hwaited, ?_⟩
      simp [StoreWorld.panic, hreceivers]
  · intro t' ht
    refine ⟨fun howner => ⟨?_, rfl⟩, fun h => ?_, id, id, id⟩
    · rw [StoreWorld.gateOwner] at howner ⊢
      simp only [StoreWorld.panic, howner, Option.some.injEq, if_neg ht]
    · exact Finset.mem_erase.mpr ⟨ht, h⟩

end Steps

/-! ### Permits -/

/-- An assertion of a thread that permits it to send requests. -/
structure Permit (t : ThreadId) (A : StoreWorld → Prop) : Prop where
  stable : ∀ w w', StoresRely t w w' → A w → A w'
  sameControl : ∀ w w', SameControl w w' → A w → A w'
  incomplete : ∀ fence w, StoresInv fence w → A w → w.teardown.complete = false

/-- The thread holds the drain gate, and the stop of the store has not taken it yet. -/
def HoldsGate (t : ThreadId) (w : StoreWorld) : Prop :=
  w.gateOwner = some t ∧ w.teardown.waited = false

/-- The thread runs a mutation of the remote-first store. -/
def Subscribed (t : ThreadId) (w : StoreWorld) : Prop :=
  t ∈ w.receivers

theorem permit_holdsGate :
  Permit t (HoldsGate t)
  := by
  constructor
  · rintro w w' h ⟨howner, hwaited⟩
    obtain ⟨howner', hwaited'⟩ := h.gate howner
    exact ⟨howner', hwaited'.trans hwaited⟩
  · rintro w w' h ⟨howner, hwaited⟩
    constructor
    · rw [StoreWorld.gateOwner, h.gate]
      exact howner
    · rw [h.teardown]
      exact hwaited
  · rintro fence w hw ⟨-, hwaited⟩
    rw [← Bool.not_eq_true]
    intro hcomplete
    rw [(hw.complete hcomplete).1] at hwaited
    cases hwaited

theorem permit_subscribed :
  Permit t (Subscribed t)
  := by
  constructor
  · intro w w' h
    exact h.receiver
  · intro w w' h hw
    rw [Subscribed, h.receivers]
    exact hw
  · intro fence w hw hmem
    rw [← Bool.not_eq_true]
    intro hcomplete
    rw [Subscribed, (hw.complete hcomplete).2] at hmem
    exact absurd hmem (Finset.notMem_empty t)

/-- The operations of a mutation, between taking its permit and giving it up. -/
def StoreOp.isMutation : StoreOp → Prop
  | .putObject request => DataRequest request
  | o => o.isInner

section Permits

variable {fence : Option Object} {t : ThreadId} {w : StoreWorld} {A : StoreWorld → Prop}
variable {α β : Type} {Q : β → StoreWorld → Prop}

/-- A part of a mutation, and then the rest. -/
theorem Permit.rg_then (hA : Permit t A) {p : Store α} (hp : p.All isMutation)
    (hI : StoresInv fence w) (hw : A w) {next : α → Store β}
    (hnext : ∀ a w', StoresInv fence w' → A w' → StoresRg fence t (next a) Q w') :
  StoresRg fence t (p >>= next) Q w
  := by
  apply rg_bind storesRely_refl _ hI
  apply rg_frame hA.stable _ hp hw hnext
  intro o ho f w1 x w2 hI1 hw1 hx
  have hcontrol : SameControl w1 w2 ∨ (x = none ∧ w2 = w1.panic t) := by
    cases o with
    | putObject request => exact Or.inl (put_exec (t := t) ho (hA.incomplete _ _ hI1 hw1) hx)
    | _ => exact inner_exec (t := t) (f := f) ho hx
  rcases hcontrol with h | ⟨rfl, rfl⟩
  · obtain ⟨hI2, hothers⟩ := h.keeps hI1
    exact ⟨hI2, fun t' _ => hothers t', fun _ => hA.sameControl _ _ h hw1⟩
  · obtain ⟨hI2, hothers⟩ := panic_keeps (t := t) hI1
    exact ⟨hI2, hothers, by simp⟩

theorem inner_then {p : Store α} (hp : p.All fun o : StoreOp => o.isInner)
    (hI : StoresInv fence w) {next : α → Store β}
    (hnext : ∀ a w', StoresInv fence w' → StoresRg fence t (next a) Q w') :
  StoresRg fence t (p >>= next) Q w
  := by
  apply rg_bind storesRely_refl _ hI
  apply rg_frame (A := fun _ => True) (fun _ _ _ _ => trivial) _ hp trivial
  · intro a w' hI' _
    exact hnext a w' hI'
  intro o ho f w1 x w2 hI1 _ hx
  rcases inner_exec (t := t) (f := f) ho hx with h | ⟨rfl, rfl⟩
  · obtain ⟨hI2, hothers⟩ := h.keeps hI1
    exact ⟨hI2, fun t' _ => hothers t', fun _ => trivial⟩
  · obtain ⟨hI2, hothers⟩ := panic_keeps (t := t) hI1
    exact ⟨hI2, hothers, fun _ => trivial⟩

end Permits

/-! ### The parts of mutations -/

theorem all_inner_op {o : StoreOp} (ho : o.isInner) :
  (storeOp o).All fun o : StoreOp => o.isInner
  := ⟨ho, fun _ => trivial⟩

theorem isMutation_of_isInner (o : StoreOp) (ho : o.isInner) :
  o.isMutation
  := by
  cases o with
  | putObject request => cases ho
  | _ => exact ho

theorem mutation_checkFencePeriodic (s : VssKvStore) :
  s.checkFencePeriodic.All isMutation
  := by
  apply (checkFencePeriodic_all s).mono
  intro o ho
  cases o with
  | fetchAddWriteCounter => rfl
  | getObject key => rfl
  | panic => rfl
  | _ => cases ho

theorem mutation_putValue (k : Key) (value : Bytes) (onError : VssError → IoError) :
  (putValue (vssKey k) value onError).All isMutation
  := by
  rw [putValue, Prog.perform_bind]
  refine ⟨rfl, fun stored => ?_⟩
  dsimp only
  split
  · trivial
  · rw [Prog.perform_bind]
    refine ⟨⟨_, (vssKey_ne_fenceKey k).symm, Or.inl rfl⟩, fun answer => ?_⟩
    dsimp only
    split <;> trivial

theorem mutation_deleteCurrent (k : Key) (readMessage deleteMessage : String) :
  (deleteCurrent (vssKey k) readMessage deleteMessage).All isMutation
  := by
  rw [deleteCurrent, Prog.perform_bind]
  refine ⟨rfl, fun answer => ?_⟩
  dsimp only
  split
  · rw [deleteVersion, Prog.perform_bind]
    refine ⟨⟨_, (vssKey_ne_fenceKey k).symm, Or.inr rfl⟩, fun answer => ?_⟩
    dsimp only
    split <;> trivial
  · trivial
  · trivial
  · trivial

theorem mutation_replicate (remote : VssKvStore) (k : Key) (value : Option Bytes) :
  (remote.replicate k value).All isMutation
  := by
  cases value with
  | some buf =>
    apply Prog.All.bind (mutation_checkFencePeriodic remote)
    intro _
    apply mutation_putValue
  | none =>
    apply Prog.All.bind (mutation_checkFencePeriodic remote)
    intro _
    apply mutation_deleteCurrent

theorem inner_clearPendingRow (vk : Str) :
  (clearPendingRow vk).All fun o : StoreOp => o.isInner
  := by
  rw [clearPendingRow, Prog.perform_bind]
  refine ⟨rfl, fun r => ?_⟩
  dsimp only
  split
  · trivial
  · exact ⟨rfl, fun _ => trivial⟩

theorem inner_restorePendingReservation (vk : Str) (previous : Option (Option Bytes)) :
  (restorePendingReservation vk previous).All fun o : StoreOp => o.isInner
  := by
  cases previous <;> exact ⟨rfl, fun _ => trivial⟩

theorem inner_reservePending (s : SyncedKvStore) (vk : Str) (value : Option Bytes) :
  (s.reservePending vk value).All fun o : StoreOp => o.isInner
  := by
  rw [SyncedKvStore.reservePending, Prog.perform_bind]
  refine ⟨rfl, fun before => ?_⟩
  dsimp only
  split_ifs <;> trivial

theorem inner_commitWithIntent (k : Key) (value : Option Bytes) :
  (commitWithIntent k value).All fun o : StoreOp => o.isInner
  := by
  cases value <;> exact ⟨rfl, fun _ => trivial⟩

theorem mutation_drainEntries (remote : VssKvStore) (entries : List (Str × Option Bytes)) :
  (drainEntries remote entries).All isMutation
  := by
  have hop : ∀ {o : StoreOp}, o.isInner → (storeOp o).All isMutation :=
    fun ho => ⟨isMutation_of_isInner _ ho, fun _ => trivial⟩
  have hclear : ∀ vk, (clearPendingRow vk).All isMutation :=
    fun vk => (inner_clearPendingRow vk).mono isMutation_of_isInner
  induction entries with
  | nil => trivial
  | cons entry entries ih =>
    obtain ⟨vk, value⟩ := entry
    have hunlock : (storeOp (.unlock (.key vk))).All isMutation := hop (by rfl)
    have hrest : (storeOp (.unlock (.key vk)) >>= fun _ => drainEntries remote entries).All
        isMutation := hunlock.bind fun _ => ih
    rw [drainEntries]
    apply (hop (by rfl)).bind
    intro _
    apply (hop (by rfl)).bind
    intro pending
    split_ifs
    · exact hrest
    split
    · apply (hclear vk).bind
      intro _
      exact hrest
    apply (mutation_replicate remote _ _).bind
    rintro (e | _)
    · exact hunlock
    · apply (hclear vk).bind
      rintro (e | _)
      · exact hunlock
      · exact hrest

end RgbLightning
