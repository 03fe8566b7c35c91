import RgbLightning.Store.Durability
import RgbLightning.Store.Freshness

/-!
# Removing a key

The local-first store reads the version of an object and deletes it under that version; the
remote-first store deletes it under the version `-1`.  When nothing interferes the first
removes every key, from the server and locally.  The second does so if and only if the server
accepts that version for a delete (`removed_iff`).
-/

namespace RgbLightning

open Prog Table StoreWorld VssKvStore Objects StoreFault

/-! ### A store that nothing interferes with -/

/-- The thread holds some of the mutexes and nobody holds the others, the store was not
stopped, and no other instance owns the fence. -/
structure Ready (remote : VssKvStore) (held : List Lock) (w : StoreWorld) : Prop where
  locks : ∀ l, w.locks l = ⟨if l ∈ held then some 0 else none, false⟩
  running : w.stopped = false
  fence : ∀ object, w.server.lookup fenceKey = some object → object.value = remote.instanceId

section Ready

variable {C : StoreWorld → Prop} {α : Type} {Q : α → StoreWorld → Prop}
variable {remote : VssKvStore} {held : List Lock} {w : StoreWorld}
variable {next : Unit → Store α}

theorem Ready.lock_then (hw : Ready remote held w) {l : Lock} (hl : l ∉ held)
    (hnext : ∀ w', SameCore w w' → Ready remote (l :: held) w' →
      (next ()).wpCalm storeMachine C Q w') :
  (storeOp (.lock l) >>= next).wpCalm storeMachine C Q w
  := by
  have hfree := hw.locks l
  rw [if_neg hl] at hfree
  have hx : storeMachine.exec .calm (.lock l) w = (some (), w.setLock l ⟨some 0, false⟩) := by
    simp only [StoreWorld.exec, hfree]
    rfl
  apply wp_calm_then hx
  apply hnext _ (sameCore_setLock w l _)
  refine ⟨fun l' => ?_, hw.running, hw.fence⟩
  simp only [setLock, Function.update_apply, List.mem_cons]
  by_cases h : l' = l
  · simp [h]
  · simp only [h, false_or, if_false]
    apply hw.locks

theorem Ready.unlock_then {l : Lock} (hw : Ready remote (l :: held) w) (hl : l ∉ held)
    (hnext : ∀ w', SameCore w w' → Ready remote held w' →
      (next ()).wpCalm storeMachine C Q w') :
  (storeOp (.unlock l) >>= next).wpCalm storeMachine C Q w
  := by
  have hheld := hw.locks l
  rw [if_pos List.mem_cons_self] at hheld
  have hx : storeMachine.exec .calm (.unlock l) w = (some (), w.setLock l ⟨none, false⟩) := by
    simp only [StoreWorld.exec, hheld]
    rfl
  apply wp_calm_then hx
  apply hnext _ (sameCore_setLock w l _)
  refine ⟨fun l' => ?_, hw.running, hw.fence⟩
  simp only [setLock, Function.update_apply]
  by_cases h : l' = l
  · simp [h, hl]
  · rw [if_neg h, hw.locks]
    simp only [List.mem_cons, h, false_or]

theorem Ready.loadStopped_then (hw : Ready remote held w) {next : Bool → Store α}
    (hnext : (next false).wpCalm storeMachine C Q w) :
  (storeOp .loadStopped >>= next).wpCalm storeMachine C Q w
  := by
  have hx : storeMachine.exec .calm .loadStopped w = (some false, w) := by
    simp only [StoreWorld.exec, hw.running]
    rfl
  exact wp_calm_then hx hnext

variable {w' : StoreWorld}

/-- The server changes, but not the fence. -/
theorem Ready.congr (hw : Ready remote held w) (hlocks : w'.locks = w.locks)
    (hstopped : w'.stopped = w.stopped)
    (hfence : w'.server.lookup fenceKey = w.server.lookup fenceKey) :
  Ready remote held w'
  := by
  refine ⟨?_, hstopped.trans hw.running, ?_⟩
  · rw [hlocks]
    apply hw.locks
  · rw [hfence]
    apply hw.fence

theorem Ready.checkFence_then (hw : Ready remote held w)
    (hnext : ∀ w', SameCore w w' → Ready remote held w' →
      (next ()).wpCalm storeMachine C Q w') :
  (remote.checkFencePeriodic >>= next).wpCalm storeMachine C Q w
  := by
  have hw1 := hnext { w with writeCounter := w.writeCounter + 1 } ⟨rfl, rfl, rfl, rfl, rfl, rfl⟩
    (hw.congr rfl rfl rfl)
  rw [checkFencePeriodic, bind_assoc]
  apply wp_calm_then rfl
  split_ifs
  · exact hw1
  rw [bind_assoc]
  apply wp_calm_then rfl
  rcases hfence : w.server.lookup fenceKey with _ | object
  · simp only [Objects.get, hfence]
    exact hw1
  · simp only [Objects.get, hfence, Option.map_some, StoreFault.remoteAnswer,
      StoreFault.remoteError?, if_pos (hw.fence object hfence)]
    exact hw1

/-! ### The requests succeed -/

theorem Ready.put_then (hw : Ready remote held w) {request : PutObjectRequest}
    {server : Objects} (hput : put w.policy w.server request = .ok server)
    (hfence : server.lookup fenceKey = w.server.lookup fenceKey)
    {next : Except VssError Unit → Store α}
    (hnext : ∀ w', SameCore { w with server } w' → Ready remote held w' →
      (next (.ok ())).wpCalm storeMachine C Q w') :
  (storeOp (.putObject request) >>= next).wpCalm storeMachine C Q w
  := by
  have hrecord := sameCore_recordRequest w request
  have hready : Ready remote held { w.recordRequest request with server } := by
    apply hw.congr _ _ hfence
    · rw [recordRequest]
      split_ifs <;> rfl
    · rw [recordRequest]
      split_ifs <;> rfl
  have hx : storeMachine.exec .calm (.putObject request) w
      = (some (.ok ()), { w.recordRequest request with server }) := by
    simp only [StoreWorld.exec, StoreWorld.putObject, StoreWorld.put, hrecord.policy,
      hrecord.server, hput]
    rfl
  apply wp_calm_then hx
  apply hnext _ _ hready
  exact ⟨hrecord.rows, hrecord.opened, hrecord.pending, hrecord.policy, rfl, hrecord.commits⟩

variable {next : Except IoError Unit → Store α}

theorem Ready.deleteCurrent_then (hw : Ready remote held w) {vk : Str} (hvk : fenceKey ≠ vk)
    {readMessage deleteMessage : String}
    (hnext : ∀ w', SameCore { w with server := w.server.erase vk } w' →
      Ready remote held w' → (next (.ok ())).wpCalm storeMachine C Q w') :
  (deleteCurrent vk readMessage deleteMessage >>= next).wpCalm storeMachine C Q w
  := by
  rw [deleteCurrent, bind_assoc]
  apply wp_calm_then rfl
  rcases hobject : w.server.lookup vk with _ | object
  · simp only [Objects.get, hobject, Option.map_none, StoreFault.remoteAnswer,
      StoreFault.remoteError?]
    have herase : w.server.erase vk = w.server := by
      apply AList.ext
      apply List.kerase_of_notMem_keys
      exact AList.lookup_eq_none.mp hobject
    apply hnext w _ hw
    rw [herase]
    apply SameCore.refl
  · simp only [Objects.get, hobject, Option.map_some, StoreFault.remoteAnswer,
      StoreFault.remoteError?]
    rw [deleteVersion, Prog.bind_assoc]
    apply hw.put_then (Objects.put_deleteCurrent hobject)
    · rw [lookup_erase_eq, if_neg hvk]
    · intro w' hsame hw'
      apply hnext w' hsame hw'

theorem Ready.putValue_then (hw : Ready remote held w) {vk : Str} (hvk : fenceKey ≠ vk)
    {value : Bytes} {onError : VssError → IoError}
    (hnext : ∀ w', SameCore { w with server := w.server.insert vk ⟨1, value, Int.one_pos⟩ } w' →
      Ready remote held w' → (next (.ok ())).wpCalm storeMachine C Q w') :
  (putValue vk value onError >>= next).wpCalm storeMachine C Q w
  := by
  rw [putValue, bind_assoc]
  apply wp_calm_then rfl
  dsimp only [localAnswer, localError?]
  rw [bind_assoc]
  apply hw.put_then (put_unconditional vk value)
  · rw [lookup_insert_eq, if_neg hvk]
  · intro w' hsame hw'
    apply hnext w' hsame hw'

variable {value : Option Bytes}

theorem Ready.replicate_then (hw : Ready remote held w) {k : Key}
    (hnext : ∀ w', w'.rows = w.rows → w'.pending = w.pending → w'.opened = w.opened →
      Ready remote held w' → (next (.ok ())).wpCalm storeMachine C Q w') :
  (remote.replicate k value >>= next).wpCalm storeMachine C Q w
  := by
  cases value with
  | some buf =>
    rw [replicate, write, bind_assoc]
    apply hw.checkFence_then
    intro w1 h1 hw1
    apply hw1.putValue_then (vssKey_ne_fenceKey k)
    intro w2 h2 hw2
    exact hnext w2 (h2.rows.trans h1.rows) (h2.pending.trans h1.pending)
      (h2.opened.trans h1.opened) hw2
  | none =>
    rw [replicate, remove, bind_assoc]
    apply hw.checkFence_then
    intro w1 h1 hw1
    rw [removeRaw]
    apply hw1.deleteCurrent_then (vssKey_ne_fenceKey k)
    intro w2 h2 hw2
    exact hnext w2 (h2.rows.trans h1.rows) (h2.pending.trans h1.pending)
      (h2.opened.trans h1.opened) hw2

/-! ### The local-first store succeeds -/

/-- Intents were removed, from the rows and from the pending map. -/
structure Drained (w w' : StoreWorld) : Prop where
  rows : ∀ k : Key, k.primary ≠ pendingNs → w'.rows.lookup k = w.rows.lookup k
  pending : ∀ vk, w.pending.lookup vk = none → w'.pending.lookup vk = none

theorem Drained.refl (w : StoreWorld) :
  Drained w w
  := ⟨fun _ _ => rfl, fun _ h => h⟩

theorem Drained.trans {w'' : StoreWorld} (h : Drained w w') (h' : Drained w' w'') :
  Drained w w''
  := ⟨fun k hk => (h'.rows k hk).trans (h.rows k hk),
    fun vk hvk => h'.pending vk (h.pending vk hvk)⟩

theorem drained_of_eq (hrows : w'.rows = w.rows) (hpending : w'.pending = w.pending) :
  Drained w w'
  := ⟨fun _ _ => by rw [hrows], fun _ h => by rw [hpending, h]⟩

theorem SameCore.drained (h : SameCore w w') :
  Drained w w'
  := drained_of_eq h.rows h.pending

theorem Ready.clearPendingRow_then (hw : Ready remote held w) {vk : Str}
    (hnext : ∀ w', Drained w w' → w'.pending.lookup vk = none → Ready remote held w' →
      (next (.ok ())).wpCalm storeMachine C Q w') :
  (clearPendingRow vk >>= next).wpCalm storeMachine C Q w
  := by
  rw [clearPendingRow, bind_assoc]
  apply wp_calm_then rfl
  dsimp only [transact, localError?]
  rw [bind_assoc]
  apply wp_calm_then rfl
  apply hnext
  · constructor
    · intro k hk
      dsimp only
      rw [lookup_erase_eq, if_neg]
      rintro rfl
      exact hk rfl
    · intro vk' hvk'
      dsimp only
      rw [lookup_erase_eq, hvk']
      split_ifs <;> rfl
  · dsimp only
    rw [lookup_erase_eq, if_pos rfl]
  · exact hw.congr rfl rfl rfl

theorem Ready.drainEntries_wp (hw : Ready remote [.drainGate] w)
    (entries : List (Str × Option Bytes)) :
  (drainEntries remote entries).wpCalm storeMachine C
    (fun _ w' => Drained w w' ∧ Ready remote [.drainGate] w') w
  := by
  have hkey : ∀ vk, Lock.key vk ∉ [Lock.drainGate] := by simp
  -- The invariant of the loop: what was drained so far.
  suffices h : ∀ w1, Drained w w1 → Ready remote [.drainGate] w1 →
      (drainEntries remote entries).wpCalm storeMachine C
        (fun _ w' => Drained w w' ∧ Ready remote [.drainGate] w') w1 from
    h w (Drained.refl w) hw
  induction entries with
  | nil =>
    intro w1 hdrained hw1
    exact ⟨hdrained, hw1⟩
  | cons entry entries ih =>
    intro w1 hdrained hw1
    obtain ⟨vk, value⟩ := entry
    rw [drainEntries]
    apply hw1.lock_then (hkey vk)
    intro w2 h2 hw2
    apply wp_calm_then rfl
    replace hdrained := hdrained.trans h2.drained
    split_ifs
    · apply hw2.unlock_then (hkey vk)
      intro w3 h3 hw3
      apply ih w3 (hdrained.trans h3.drained) hw3
    rcases parseVssKey vk with _ | k
    · apply hw2.clearPendingRow_then
      intro w3 h3 _ hw3
      apply hw3.unlock_then (hkey vk)
      intro w4 h4 hw4
      apply ih w4 ((hdrained.trans h3).trans h4.drained) hw4
    apply hw2.replicate_then
    intro w3 hrows hpending _ hw3
    replace hdrained := hdrained.trans (drained_of_eq hrows hpending)
    apply hw3.clearPendingRow_then
    intro w4 h4 _ hw4
    apply hw4.unlock_then (hkey vk)
    intro w5 h5 hw5
    apply ih w5 ((hdrained.trans h4).trans h5.drained) hw5

theorem Ready.drainPending_wp {s : SyncedKvStore} (hs : s.remote = some remote)
    (hw : Ready remote [] w) :
  s.drainPending.wpCalm storeMachine C (fun _ w' => Drained w w') w
  := by
  rw [SyncedKvStore.drainPending, hs]
  apply hw.loadStopped_then
  apply hw.lock_then (by simp)
  intro w1 h1 hw1
  apply hw1.loadStopped_then
  apply wp_calm_then rfl
  apply wp_seq (hw1.drainEntries_wp _)
  rintro _ w2 ⟨h2, -⟩
  apply wp_calm rfl
  exact (h1.drained.trans h2).trans (sameCore_setLock w2 _ _).drained

theorem commitWithIntent_then {k : Key}
    (hnext : (next (.ok ())).wpCalm storeMachine C Q
      { w with rows := committedRows w.rows k value, commits := w.commits + 1 }) :
  (commitWithIntent k value >>= next).wpCalm storeMachine C Q w
  := by
  cases value with
  | some buf => exact wp_calm_then rfl hnext
  | none => exact wp_calm_then rfl hnext

theorem Ready.mutate_wp {s : SyncedKvStore} (hs : s.remote = some remote) (hw : Ready remote [] w)
    {k : Key} (hk : k.primary ≠ pendingNs) (hfull : s.isFull w.pending (vssKey k) = false) :
  (s.mutate remote k value).wpCalm storeMachine C
    (fun r w' => r = .ok () ∧ w'.rows.lookup k = value
      ∧ w'.pending.lookup (vssKey k) = none) w
  := by
  have hkey : Lock.key (vssKey k) ∉ [Lock.drainGate] := by simp
  have hgate : Lock.drainGate ∉ ([] : List Lock) := by simp
  rw [SyncedKvStore.mutate]
  apply hw.lock_then hgate
  intro w1 h1 hw1
  apply hw1.loadStopped_then
  apply hw1.lock_then hkey
  intro w2 h2 hw2
  rw [← h1.pending, ← h2.pending] at hfull
  rw [SyncedKvStore.reservePending, bind_assoc]
  apply wp_calm_then rfl
  simp only [hfull, Bool.false_eq_true, if_false]
  rw [pure_eq_ret, ret_bind]
  apply commitWithIntent_then
  have hw3 : Ready remote [.key (vssKey k), .drainGate] { w2 with
      rows := committedRows w2.rows k value
      pending := w2.pending.insert (vssKey k) value
      commits := w2.commits + 1 } := hw2.congr rfl rfl rfl
  apply hw3.replicate_then
  intro w4 hrows _ _ hw4
  apply hw4.clearPendingRow_then
  intro w5 h5 hnone hw5
  apply hw5.unlock_then hkey
  intro w6 h6 hw6
  apply hw6.unlock_then hgate
  intro w7 h7 hw7
  apply wp_seq (hw7.drainPending_wp hs)
  intro _ w8 h8
  have hdrained := (h6.drained.trans h7.drained).trans h8
  refine ⟨rfl, ?_, hdrained.pending _ hnone⟩
  have hne : k ≠ pendingKey (vssKey k) := by
    intro h
    apply hk
    rw [h]
    rfl
  rw [hdrained.rows k hk, h5.rows k hk, hrows]
  dsimp only
  rw [committedRows, lookup_insert_eq, if_neg hne, lookup_assign_eq, if_pos rfl]

end Ready

/-! ### Both removals -/

/-- A removal succeeds, and leaves the key absent from the server and locally. -/
def Removes (p : Store (Except IoError Unit)) (k : Key) (w : StoreWorld) : Prop :=
  p.result storeMachine w [] = some (.ok ())
    ∧ (p.world storeMachine w []).rows.lookup k = none
    ∧ (p.world storeMachine w []).remoteValue (vssKey k) = none

theorem syncedKvStore_removes {s : SyncedKvStore} {remote : VssKvStore}
    (hs : s.remote = some remote) {w : StoreWorld} (hw : OpenInSync s w)
    (hready : Ready remote [] w) {k : Key} (hk : k.Replicated)
    (hcheck : s.checkMutation k = .ok ()) (hfull : s.isFull w.pending (vssKey k) = false) :
  Removes (s.remove k) k w
  := by
  have hremove : s.remove k = s.mutate remote k none := by
    rw [SyncedKvStore.remove, hcheck, hs]
  have hmutate : (s.mutate remote k none).wpCalm storeMachine
      (fun _ => False) (fun r w' => r = .ok () ∧ w'.rows.lookup k = none
        ∧ w'.pending.lookup (vssKey k) = none) w :=
    hready.mutate_wp hs hk.primary_ne hfull
  obtain ⟨r, hr, rfl, hrow, hpending⟩ := result_of_wp_calmly hmutate
  rw [Removes, hremove]
  refine ⟨hr, hrow, ?_⟩
  have hloads : s.Loads (vssKey k) (encodePendingRow none) :=
    loads_of_checkMutation hcheck fun _ => rfl
  have hsync := (exec_of_wp _ _ [] (mutate_wp hs hw hk hloads)
    (admits_anyFate _ _ _)).1 _ hr
  -- The intent is gone, so the server holds the local value.
  have hintent : (Prog.world storeMachine (s.mutate remote k none) w []).intent k = none := by
    rw [intent, hsync.loaded hsync.opened, hpending]
    rfl
  rcases hsync.consistent.synced k hk with h | ⟨-, h⟩
  · rw [hintent] at h
    cases h
  · rw [h, hrow]

/-- The remote-first store removes an existing key, or fails, according to whether the server
accepts the version `-1` for a delete. -/
theorem remoteFirst_remove_calm_wp {t : RemoteFirstKvStore} {remote remote' : VssKvStore}
    (ht : t.remote = some remote') {w : StoreWorld} (hready : Ready remote [] w) {k : Key}
    {object : Object} (hobject : w.server.lookup (vssKey k) = some object) (attempts : ℕ) :
  (t.remove (attempts + 1) k).wpCalm storeMachine (fun _ => False)
    (fun r w' => if w.policy.acceptsBlindDelete then
        r = .ok () ∧ w'.rows.lookup k = none ∧ w'.remoteValue (vssKey k) = none
      else ∃ e, r = .error e) w
  := by
  rw [RemoteFirstKvStore.remove, RemoteFirstKvStore.mutate]
  apply wp_calm_then rfl
  have hready1 : Ready remote [] { w with receivers := insert 0 w.receivers } :=
    hready.congr rfl rfl rfl
  apply hready1.lock_then (by simp)
  intro w2 h2 hw2
  rw [ht]
  dsimp only
  rw [retryTransient, bind_assoc, removeAsync, bind_assoc]
  have hpolicy : w2.policy = w.policy := h2.policy
  have hserver : w2.server = w.server := h2.server
  rw [← hserver] at hobject
  have hput : put w2.policy w2.server (KeyValue.toDelete ⟨vssKey k, -1, []⟩) = _ :=
    put_blindDelete hobject
  rw [← hpolicy]
  split_ifs at hput ⊢
  · apply hw2.put_then hput
    · rw [lookup_erase_eq, if_neg (vssKey_ne_fenceKey k)]
    intro w3 h3 _
    apply wp_calm_then rfl
    apply wp_calm_then rfl
    apply wp_calm_then rfl
    refine ⟨rfl, ?_, ?_⟩
    · simp only [setLock, lookup_erase_eq, if_true]
    · have herased := (attempted_erase w2 (vssKey k)).2
      rw [← herased, ← h3.remoteValue]
      rfl
  have hrecord := sameCore_recordRequest w2 (KeyValue.toDelete ⟨vssKey k, -1, []⟩)
  have hx : storeMachine.exec .calm (.putObject (KeyValue.toDelete ⟨vssKey k, -1, []⟩)) w2
      = (some (.error .conflictError),
          w2.recordRequest (KeyValue.toDelete ⟨vssKey k, -1, []⟩)) := by
    simp only [StoreWorld.exec, StoreWorld.putObject, StoreWorld.put, hrecord.policy,
      hrecord.server, hput]
    rfl
  apply wp_calm_then hx
  apply wp_calm_then rfl
  apply wp_calm_then rfl
  exact ⟨_, rfl⟩

/-- On a server that keeps an object, in any version, both stores remove its key if and only
if the server accepts the version `-1` for a delete.  The local-first store always does. -/
theorem removed_iff {s : SyncedKvStore} {t : RemoteFirstKvStore} {remote remote' : VssKvStore}
    (hs : s.remote = some remote) (ht : t.remote = some remote') {w : StoreWorld}
    (hw : OpenInSync s w) (hready : Ready remote [] w) {k : Key} (hk : k.Replicated)
    (hcheck : s.checkMutation k = .ok ()) (hfull : s.isFull w.pending (vssKey k) = false)
    {object : Object} (hobject : w.server.lookup (vssKey k) = some object) (attempts : ℕ) :
  (Removes (t.remove (attempts + 1) k) k w ∧ Removes (s.remove k) k w
      ↔ w.policy.acceptsBlindDelete)
    ∧ Removes (s.remove k) k w
  := by
  have hsynced := syncedKvStore_removes hs hw hready hk hcheck hfull
  obtain ⟨r, hr, hpost⟩ :=
    result_of_wp_calmly (remoteFirst_remove_calm_wp ht hready hobject attempts)
  refine ⟨⟨?_, fun haccepts => ?_⟩, hsynced⟩
  · rintro ⟨⟨hok, -⟩, -⟩
    by_contra hrejects
    rw [if_neg hrejects] at hpost
    obtain ⟨e, rfl⟩ := hpost
    rw [hok] at hr
    cases hr
  · rw [if_pos haccepts] at hpost
    obtain ⟨rfl, hrow, hremote⟩ := hpost
    exact ⟨⟨hr, hrow, hremote⟩, hsynced⟩

/-! ### Examples -/

/-- The channel manager is stored under the version `3`, locally and on the server. -/
def managerWorld : StoreWorld :=
  { rows := (∅ : Table Key Bytes).insert channelManagerKey [7]
    opened := true
    server := (∅ : Objects).insert (vssKey channelManagerKey) ⟨3, [7], thirdVersion_pos⟩ }

theorem openInSync_managerWorld :
  OpenInSync sampleStore managerWorld
  := by
  have hmanager : channelManagerKey.Replicated := ⟨by decide, by decide⟩
  have hpending : ∀ vk, managerWorld.rows.lookup (pendingKey vk) = none := by
    intro vk
    rw [managerWorld, lookup_insert_eq, if_neg (hmanager.ne_pendingKey vk).symm]
    rfl
  refine ⟨⟨⟨?_, ?_⟩, ?_, by decide, ?_⟩, rfl⟩
  · intro vk hvk
    rw [hpending] at hvk
    cases hvk
  · intro k hk
    refine Or.inr ⟨hpending _, ?_⟩
    rw [remoteValue, managerWorld]
    dsimp only
    rw [lookup_insert_eq, lookup_insert_eq]
    by_cases h : k = channelManagerKey
    · rw [if_pos (congrArg vssKey h), if_pos h]
      rfl
    · rw [if_neg (hmanager.vssKey_ne hk h), if_neg h]
      rfl
  · intro vk row hrow
    rw [hpending] at hrow
    cases hrow
  · intro _ vk
    rw [hpending]
    rfl

theorem removed_iff_managerWorld :
  Removes (sampleStore.remove channelManagerKey) channelManagerKey managerWorld
    ∧ ¬ Removes (mirroredStore.remove 1 channelManagerKey) channelManagerKey managerWorld
  := by
  have hready : Ready ⟨str "node"⟩ [] managerWorld := by
    refine ⟨fun _ => rfl, rfl, fun object hobject => ?_⟩
    rw [managerWorld, lookup_insert_eq,
      if_neg (vssKey_ne_fenceKey channelManagerKey)] at hobject
    cases hobject
  obtain ⟨hiff, hsynced⟩ := removed_iff (s := sampleStore) (t := mirroredStore) rfl rfl
    openInSync_managerWorld hready ⟨by decide, by decide⟩ rfl rfl
    (AList.lookup_insert _) 0
  refine ⟨hsynced, fun h => ?_⟩
  have haccepts := hiff.mp ⟨h, hsynced⟩
  cases haccepts

/-- The remote-first store cannot remove the channel manager from a server that rejects other
versions than the current one: it fails, and the manager stays. -/
theorem manager_not_removed :
  managerWorld.policy.acceptsBlindDelete = false
    ∧ (mirroredStore.remove 1 channelManagerKey).result storeMachine managerWorld []
      = some (.error (vssErrToIo .conflictError "VSS remove failed: "))
    ∧ ((mirroredStore.remove 1 channelManagerKey).world storeMachine managerWorld
        []).remoteValue (vssKey channelManagerKey) = some [7]
    ∧ ¬ Removes (mirroredStore.remove 1 channelManagerKey) channelManagerKey managerWorld
  := by
  refine ⟨rfl, by decide +kernel, by decide +kernel, ?_⟩
  rintro ⟨h, -⟩
  exact absurd h (by decide +kernel)

end RgbLightning
