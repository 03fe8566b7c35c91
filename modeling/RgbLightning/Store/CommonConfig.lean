import RgbLightning.Store.Mutations

/-!
# Stores that may only change the common configuration

On mainnet the local-first store is opened over the records of earlier sessions, which it
must leave alone: it may only change the common configuration, the intents to replicate it,
and its objects on the server.

All calls keep to this (`commonConfig_only`), whatever rows and intents the store was opened
over, whatever fails and wherever they are interrupted.
-/

namespace RgbLightning

open Prog SyncedKvStore

/-! ### What may change -/

/-- The rows that may change: common configuration, and the intents to replicate it. -/
def Key.MayChange (k : Key) : Prop :=
  isCommonConfig k ∨ ∃ vk, isCommonRemoteKey vk ∧ k = pendingKey vk

/-- Nothing but common configuration, its intents and its objects has changed. -/
structure OnlyConfigChanged (w w' : StoreWorld) : Prop where
  rows : ∀ k : Key, ¬ k.MayChange → w'.rows.lookup k = w.rows.lookup k
  server : ∀ vk, ¬ isCommonRemoteKey vk → w'.server.lookup vk = w.server.lookup vk

namespace OnlyConfigChanged

theorem refl (w : StoreWorld) :
  OnlyConfigChanged w w
  := ⟨fun _ _ => rfl, fun _ _ => rfl⟩

theorem trans {w w' w'' : StoreWorld} (h : OnlyConfigChanged w w')
    (h' : OnlyConfigChanged w' w'') :
  OnlyConfigChanged w w''
  := ⟨fun k hk => (h'.rows k hk).trans (h.rows k hk),
    fun vk hvk => (h'.server vk hvk).trans (h.server vk hvk)⟩

theorem of_eq {w w' : StoreWorld} (hrows : w'.rows = w.rows) (hserver : w'.server = w.server) :
  OnlyConfigChanged w w'
  := by
  constructor
  · intro k _
    rw [hrows]
  · intro vk _
    rw [hserver]

/-- Rows that may change are written or removed. -/
theorem of_rows {w : StoreWorld} {rows : Table Key Bytes} {commits : ℕ}
    (hrows : ∀ k : Key, ¬ k.MayChange → rows.lookup k = w.rows.lookup k) :
  OnlyConfigChanged w { w with rows, commits }
  := ⟨hrows, fun _ _ => rfl⟩

/-- A request about objects that may change. -/
theorem of_put {w : StoreWorld} {request : PutObjectRequest}
    (hrequest : ∀ vk ∈ request.keys, isCommonRemoteKey vk) :
  OnlyConfigChanged w (w.put request).2
  := by
  rw [StoreWorld.put]
  split
  · rename_i server hput
    refine ⟨fun _ _ => rfl, fun vk hvk => ?_⟩
    apply Objects.lookup_put hput
    intro hmem
    exact hvk (hrequest vk hmem)
  · exact refl w

end OnlyConfigChanged

theorem lookup_insert_of_mayChange (rows : Table Key Bytes) {k k' : Key} (hk : k.MayChange)
    (hk' : ¬ k'.MayChange) (value : Bytes) :
  (rows.insert k value).lookup k' = rows.lookup k'
  := by
  rw [Table.lookup_insert_eq, if_neg]
  rintro rfl
  exact hk' hk

theorem lookup_erase_of_mayChange (rows : Table Key Bytes) {k k' : Key} (hk : k.MayChange)
    (hk' : ¬ k'.MayChange) :
  (rows.erase k).lookup k' = rows.lookup k'
  := by
  rw [Table.lookup_erase_eq, if_neg]
  rintro rfl
  exact hk' hk

/-! ### Programs that change only what may change -/

/-- The operations that change only what may change.  The pending map is in memory. -/
def StoreOp.ChangesOnlyConfig : StoreOp → Prop
  | .localWrite k _ => k.MayChange
  | .localRemove k => k.MayChange
  | .writeWithReplicationIntent k _ intentKey _ => k.MayChange ∧ intentKey.MayChange
  | .removeWithReplicationIntent k intentKey _ => k.MayChange ∧ intentKey.MayChange
  | .putObject request => ∀ vk ∈ request.keys, isCommonRemoteKey vk
  | _ => True

theorem onlyConfigChanged_exec (o : StoreOp) (ho : o.ChangesOnlyConfig) (f : StoreFault)
    (w : StoreWorld) :
  OnlyConfigChanged w (storeMachine.exec f o w).2
  := by
  -- A transaction is made, or fails without effect.
  have htransact : ∀ w', OnlyConfigChanged w w' → OnlyConfigChanged w (f.transact w w').2 := by
    intro w' h
    cases f with
    | localFails e => exact OnlyConfigChanged.refl w
    | _ => exact h
  rcases htouches : o.touchesCore with _ | _
  · have h := sameCore_exec o htouches f w
    exact OnlyConfigChanged.of_eq h.rows h.server
  cases o with
  | modifyPending change => exact OnlyConfigChanged.of_eq rfl rfl
  | openStore pending => exact OnlyConfigChanged.of_eq rfl rfl
  | localWrite k value =>
    apply htransact
    exact OnlyConfigChanged.of_rows fun k' hk' => lookup_insert_of_mayChange _ ho hk' value
  | localRemove k =>
    apply htransact
    exact OnlyConfigChanged.of_rows fun k' hk' => lookup_erase_of_mayChange _ ho hk'
  | writeWithReplicationIntent k value intentKey intent =>
    apply htransact
    apply OnlyConfigChanged.of_rows
    intro k' hk'
    rw [lookup_insert_of_mayChange _ ho.2 hk', lookup_insert_of_mayChange _ ho.1 hk']
  | removeWithReplicationIntent k intentKey intent =>
    apply htransact
    apply OnlyConfigChanged.of_rows
    intro k' hk'
    rw [lookup_insert_of_mayChange _ ho.2 hk', lookup_erase_of_mayChange _ ho.1 hk']
  | putObject request =>
    have h := sameCore_recordRequest w request
    have hrecord := OnlyConfigChanged.of_eq h.rows h.server
    cases f with
    | remoteFails e => exact hrecord
    | _ => exact hrecord.trans (OnlyConfigChanged.of_put ho)
  | _ => cases htouches

/-! ### The invariant -/

/-- Only common configuration has changed since `w₀`, and only that is pending. -/
structure ConfigInv (w₀ w : StoreWorld) : Prop where
  changed : OnlyConfigChanged w₀ w
  pending : ∀ vk, (w.pending.lookup vk).isSome → isCommonRemoteKey vk

theorem ConfigInv.reboot {w₀ w : StoreWorld} (hw : ConfigInv w₀ w) :
  ConfigInv w₀ w.reboot
  := ⟨hw.changed.trans (OnlyConfigChanged.of_eq rfl rfl), fun _ h => by cases h⟩

theorem ConfigInv.sameCore {w₀ w w' : StoreWorld} (hw : ConfigInv w₀ w) (h : SameCore w w') :
  ConfigInv w₀ w'
  := by
  refine ⟨hw.changed.trans (OnlyConfigChanged.of_eq h.rows h.server), ?_⟩
  rw [h.pending]
  exact hw.pending

section Rules

variable {G : Guard storeInterface StoreWorld StoreFault} {w₀ w : StoreWorld}

theorem mayChange_pendingKey {vk : Str} (hvk : isCommonRemoteKey vk) :
  (pendingKey vk).MayChange
  := Or.inr ⟨vk, hvk, rfl⟩

/-- A local mutation of a row that may change. -/
theorem ConfigInv.wp_local (hw : ConfigInv w₀ w) {o : StoreOp} (ho : o.ChangesOnlyConfig)
    (hpending : ∀ f, (storeMachine.exec f o w).2.pending = w.pending) :
  (storeOp o).wp storeMachine G (ConfigInv w₀) (fun _ => ConfigInv w₀) w
  := by
  refine ⟨fun _ => hw.reboot, fun f _ => ?_⟩
  have hafter : ConfigInv w₀ (storeMachine.exec f o w).2 := by
    refine ⟨hw.changed.trans (onlyConfigChanged_exec o ho f w), ?_⟩
    rw [hpending f]
    exact hw.pending
  rcases hx : storeMachine.exec f o w with ⟨_ | x, w'⟩
  · rw [hx] at hafter
    exact hafter
  · rw [hx] at hafter
    exact hafter

theorem pending_localRemove (k : Key) (f : StoreFault) (w : StoreWorld) :
  (storeMachine.exec f (.localRemove k) w).2.pending = w.pending
  := by
  cases f <;> rfl

theorem pending_localWrite (k : Key) (value : Bytes) (f : StoreFault) (w : StoreWorld) :
  (storeMachine.exec f (.localWrite k value) w).2.pending = w.pending
  := by
  cases f <;> rfl

theorem ConfigInv.clearPendingRow (hw : ConfigInv w₀ w) {vk : Str}
    (hvk : isCommonRemoteKey vk) :
  (clearPendingRow vk).wp storeMachine G (ConfigInv w₀) (fun _ => ConfigInv w₀) w
  := by
  rw [RgbLightning.clearPendingRow, wp_bind]
  apply wp_mono (fun _ h => h) _ _ _
    (hw.wp_local (o := .localRemove (pendingKey vk)) (mayChange_pendingKey hvk)
      fun f => pending_localRemove _ f w)
  rintro (e | _) w' hw'
  · exact hw'
  dsimp only
  rw [wp_bind]
  apply wp_modifyPending hw'.reboot
  refine ⟨hw'.changed.trans (OnlyConfigChanged.of_eq rfl rfl), fun vk' h => ?_⟩
  dsimp only at h
  rw [Table.lookup_erase_eq] at h
  split_ifs at h
  · cases h
  · exact hw'.pending vk' h

theorem replicate_all (remote : VssKvStore) (k : Key) (value : Option Bytes) :
  (remote.replicate k value).All fun o : StoreOp =>
    match o with
    | .putObject request => request.keys = [vssKey k]
    | o => o.touchesCore = false
  := by
  have hcheck : remote.checkFencePeriodic.All fun o : StoreOp =>
      match o with
      | .putObject request => request.keys = [vssKey k]
      | o => o.touchesCore = false := by
    apply (checkFencePeriodic_all remote).mono
    intro o ho
    cases o with
    | fetchAddWriteCounter => rfl
    | getObject key => rfl
    | panic => rfl
    | _ => cases ho
  cases value with
  | some buf =>
    rw [VssKvStore.replicate, VssKvStore.write]
    apply hcheck.bind
    intro _
    rw [putValue, perform_bind]
    refine ⟨rfl, ?_⟩
    rintro (e | stored)
    · trivial
    · dsimp only
      rw [perform_bind]
      refine ⟨rfl, ?_⟩
      rintro (e | _) <;> trivial
  | none =>
    rw [VssKvStore.replicate, VssKvStore.remove]
    apply hcheck.bind
    intro _
    rw [VssKvStore.removeRaw, deleteCurrent, perform_bind]
    refine ⟨rfl, fun answer => ?_⟩
    dsimp only
    split
    · rw [deleteVersion, perform_bind]
      refine ⟨rfl, fun answer => ?_⟩
      dsimp only
      split <;> trivial
    · trivial
    · trivial
    · trivial

/-- A mutation of common configuration on the server. -/
theorem ConfigInv.replicate (hw : ConfigInv w₀ w) (remote : VssKvStore) {c : Key}
    (hc : isCommonConfig c) (value : Option Bytes) :
  (remote.replicate c value).wp storeMachine G (ConfigInv w₀) (fun _ => ConfigInv w₀) w
  := by
  have hinv : ∀ {w'}, OnlyConfigChanged w w' ∧ w'.pending = w.pending → ConfigInv w₀ w' := by
    rintro w' ⟨hchanged, hpending⟩
    refine ⟨hw.changed.trans hchanged, ?_⟩
    rw [hpending]
    exact hw.pending
  apply wp_frame (R := fun w w' => OnlyConfigChanged w w' ∧ w'.pending = w.pending)
    (fun w => ⟨OnlyConfigChanged.refl w, rfl⟩)
    (fun _ _ _ h h' => ⟨h.1.trans h'.1, h'.2.trans h.2⟩) _ (replicate_all remote c value)
    (fun _ _ h => hinv h) (fun _ h => hinv h) (fun _ h => (hinv h).reboot)
  intro o ho f w
  have hleaves : ∀ {o : StoreOp}, o.touchesCore = false →
      OnlyConfigChanged w (storeMachine.exec f o w).2
        ∧ (storeMachine.exec f o w).2.pending = w.pending := by
    intro o ho
    have h := sameCore_exec o ho f w
    exact ⟨OnlyConfigChanged.of_eq h.rows h.server, h.pending⟩
  cases o with
  | putObject request =>
    constructor
    · apply onlyConfigChanged_exec
      intro vk hvk
      rw [ho, List.mem_singleton] at hvk
      rw [hvk]
      exact isCommonRemoteKey_vssKey hc
    · have hrecord := (sameCore_recordRequest w request).pending
      have hput : ((w.recordRequest request).put request).2.pending = w.pending := by
        rw [StoreWorld.put]
        split <;> exact hrecord
      cases f with
      | remoteFails e => exact hrecord
      | _ => exact hput
  | _ => exact hleaves ho

end Rules

theorem mutationInv_configInv (remote : VssKvStore)
    (G : Guard storeInterface StoreWorld StoreFault) (w₀ : StoreWorld) :
  MutationInv remote G (ConfigInv w₀) (ConfigInv w₀)
  := by
  constructor
  · intro w w' h hw
    exact hw.sameCore h
  · intro w hw
    exact hw
  · intro w hw
    exact hw.reboot
  · intro w pending hw hpending
    refine ⟨hw.changed.trans (OnlyConfigChanged.of_eq rfl rfl), fun vk h => ?_⟩
    dsimp only at h
    rw [hpending vk] at h
    exact hw.pending vk h
  · intro w vk k value hw hvalue hparse
    have hvk := hw.pending vk (by rw [hvalue]; rfl)
    obtain ⟨c, hc, rfl⟩ := exists_isCommonConfig hvk
    rw [(isCommonConfig_parsable hc).parse] at hparse
    obtain rfl : c = k := Option.some.inj hparse
    rw [replicateAndClear]
    apply wp_seq (hw.replicate remote hc value)
    rintro (e | _) w' hw'
    · exact hw'
    · exact hw'.clearPendingRow hvk
  · intro w vk value hw hvalue _
    exact hw.clearPendingRow (hw.pending vk (by rw [hvalue]; rfl))

/-! ### Sequences of calls -/

/-- The calls of a store that may only change the common configuration. -/
inductive ConfigCall where
  | write (k : Key) (buf : Bytes)
  | remove (k : Key)
  | writeLocalOnly (k : Key) (buf : Bytes)
  | removeLocalOnly (k : Key)
  | restoreFromVss (force : Bool) (pages : ℕ)
  | pushMissingToVss (pages : ℕ)
  | drainPending
  | flushPendingUntil (rounds : ℕ)
  | reload

def ConfigCall.body (s : SyncedKvStore) : ConfigCall → Store (Except IoError ℕ)
  | .write k buf => do
    let r ← s.write k buf
    pure (r.map fun _ => 0)
  | .remove k => do
    let r ← s.remove k
    pure (r.map fun _ => 0)
  | .writeLocalOnly k buf => do
    let r ← s.writeLocalOnly k buf
    pure (r.map fun _ => 0)
  | .removeLocalOnly k => do
    let r ← s.removeLocalOnly k
    pure (r.map fun _ => 0)
  | .restoreFromVss force pages => s.restoreFromVss force pages
  | .pushMissingToVss pages => s.pushMissingToVss pages
  | .drainPending => do
    s.drainPending
    pure (.ok 0)
  | .flushPendingUntil rounds => do
    let left ← s.flushPendingUntil rounds
    pure (.ok left)
  | .reload => do
    s.withVss
    pure (.ok 0)

section Calls

variable {G : Guard storeInterface StoreWorld StoreFault} {s : SyncedKvStore}
variable {w₀ w : StoreWorld}

variable (hs : s.commonConfigOnly)
include hs

theorem isCommonConfig_of_checkMutation {k : Key} {u : Unit} (hcheck : s.checkMutation k = .ok u) :
  isCommonConfig k
  := by
  rw [checkMutation] at hcheck
  split_ifs at hcheck with h
  by_contra hk
  exact h ⟨hs, hk⟩

omit hs in
/-- A mutation of common configuration, with its intent. -/
theorem ConfigInv.mutate (hw : ConfigInv w₀ w) {remote : VssKvStore}
    (hr : s.remote = some remote) {c : Key} (hc : isCommonConfig c) (value : Option Bytes) :
  (s.mutate remote c value).wp storeMachine G (ConfigInv w₀) (fun _ => ConfigInv w₀) w
  := by
  apply (mutationInv_configInv remote G w₀).mutate hr (isCommonConfig_parsable hc).parse _ hw
  intro w' hw' _
  have hvk := isCommonRemoteKey_vssKey hc
  constructor
  · apply hw'.changed.trans
    refine ⟨fun k hk => ?_, fun _ _ => rfl⟩
    dsimp only
    rw [committedRows, lookup_insert_of_mayChange _ (mayChange_pendingKey hvk) hk,
      Table.lookup_assign_eq, if_neg]
    rintro rfl
    exact hk (Or.inl hc)
  · intro vk h
    dsimp only at h
    rw [Table.lookup_insert_eq] at h
    split_ifs at h with heq
    · rw [heq]
      exact hvk
    · exact hw'.pending vk h

/-- Only intents for common configuration are read back. -/
theorem ConfigInv.loadPending (hw : ConfigInv w₀ w) (keys : List Str) {pending : Pending}
    (hpending : ∀ vk, (pending.lookup vk).isSome → isCommonRemoteKey vk) :
  (s.loadPending keys pending).wp storeMachine G (ConfigInv w₀)
    (fun pending w' => ConfigInv w₀ w'
      ∧ ∀ vk, (pending.lookup vk).isSome → isCommonRemoteKey vk) w
  := by
  induction keys generalizing pending w with
  | nil => exact ⟨hw, hpending⟩
  | cons key keys ih =>
    rw [loadPending]
    split
    · exact ih hw hpending
    rename_i hkey
    have hcommon : isCommonRemoteKey key := by
      by_contra h
      exact hkey ⟨hs, h⟩
    apply wp_leavesCore_then rfl
    · intro w' h
      exact (hw.sameCore h).reboot
    · intro w' h
      exact hw.sameCore h
    rintro (e | row) w' h
    · exact ih (hw.sameCore h) hpending
    have hw' := hw.sameCore h
    dsimp only
    split
    · exact ih hw' hpending
    split
    · apply ih hw'
      intro vk hvk
      rw [Table.lookup_insert_eq] at hvk
      split_ifs at hvk with heq
      · rw [heq]
        exact hcommon
      · exact hpending vk hvk
    · rw [wp_bind]
      apply wp_mono (fun _ h => h) _ _ _
        (hw'.wp_local (o := .localRemove (pendingKey key))
          (mayChange_pendingKey hcommon) fun f => pending_localRemove _ f w')
      intro _ w'' hw''
      exact ih hw'' hpending

theorem ConfigInv.withVss (hw : ConfigInv w₀ w) :
  s.withVss.wp storeMachine G (ConfigInv w₀) (fun _ => ConfigInv w₀) w
  := by
  have hopen : ∀ {w : StoreWorld} {pending : Pending}, ConfigInv w₀ w →
      (∀ vk, (pending.lookup vk).isSome → isCommonRemoteKey vk) →
        (storeOp (.openStore pending)).wp storeMachine G (ConfigInv w₀)
          (fun _ => ConfigInv w₀) w := by
    intro w pending hw hpending
    exact ⟨fun _ => hw.reboot,
      fun _ _ => ⟨hw.changed.trans (OnlyConfigChanged.of_eq rfl rfl), hpending⟩⟩
  have hempty : ∀ vk, ((∅ : Pending).lookup vk).isSome → isCommonRemoteKey vk :=
    fun _ h => by cases h
  rw [SyncedKvStore.withVss]
  apply wp_leavesCore_then rfl
  · intro w' h
    exact (hw.sameCore h).reboot
  · intro w' h
    exact hw.sameCore h
  rintro (e | keys) w' h
  · exact hopen (hw.sameCore h) hempty
  · dsimp only
    apply wp_seq ((hw.sameCore h).loadPending hs keys hempty)
    rintro pending w'' ⟨hw'', hpending⟩
    exact hopen hw'' hpending

omit hs in
theorem flushPendingUntil_configInv (rounds : ℕ) (hw : ConfigInv w₀ w) :
  (s.flushPendingUntil rounds).wp storeMachine G (ConfigInv w₀) (fun _ => ConfigInv w₀) w
  := by
  rcases hr : s.remote with _ | remote
  · have hcount : ∀ {Q : ℕ → StoreWorld → Prop}, (∀ n, Q n w) →
        pendingRemoteWrites.wp storeMachine G (ConfigInv w₀) Q w := by
      intro Q hQ
      rw [pendingRemoteWrites, wp_bind]
      exact wp_readPending hw.reboot (hQ _)
    induction rounds with
    | zero => exact hcount fun _ => hw
    | succ rounds ih =>
      rw [flushPendingUntil, wp_bind]
      apply hcount
      intro before
      split_ifs
      · exact hw
      rw [wp_bind, drainPending, hr]
      dsimp only
      rw [pure_eq_ret, wp_ret, wp_bind]
      apply hcount
      intro after
      split_ifs
      · exact hcount fun _ => hw
      · exact ih
  · exact (mutationInv_configInv remote G w₀).flushPendingUntil hr rounds hw

theorem configCall_wp (c : ConfigCall) (hw : ConfigInv w₀ w) :
  (c.body s).wp storeMachine G (ConfigInv w₀) (fun _ => ConfigInv w₀) w
  := by
  have hbulk : ∃ e, s.checkBulkSync = .error e := by
    rw [checkBulkSync, if_pos hs]
    exact ⟨_, rfl⟩
  obtain ⟨e, hbulk⟩ := hbulk
  cases c with
  | write k buf =>
    rw [ConfigCall.body, wp_bind, write]
    rcases hcheck : s.checkMutation k with e | u
    · exact hw
    · have hk := isCommonConfig_of_checkMutation hs hcheck
      rcases hr : s.remote with _ | remote
      · exact hw.wp_local (o := .localWrite k buf) (Or.inl hk)
          fun f => pending_localWrite k buf f w
      · exact hw.mutate hr hk (some buf)
  | remove k =>
    rw [ConfigCall.body, wp_bind, remove]
    rcases hcheck : s.checkMutation k with e | u
    · exact hw
    · have hk := isCommonConfig_of_checkMutation hs hcheck
      rcases hr : s.remote with _ | remote
      · exact hw.wp_local (o := .localRemove k) (Or.inl hk)
          fun f => pending_localRemove k f w
      · exact hw.mutate hr hk none
  | writeLocalOnly k buf =>
    rw [ConfigCall.body, wp_bind, writeLocalOnly]
    rcases hcheck : s.checkMutation k with e | u
    · exact hw
    · exact hw.wp_local (o := .localWrite k buf)
        (Or.inl (isCommonConfig_of_checkMutation hs hcheck))
        fun f => pending_localWrite k buf f w
  | removeLocalOnly k =>
    rw [ConfigCall.body, wp_bind, removeLocalOnly]
    rcases hcheck : s.checkMutation k with e | u
    · exact hw
    · exact hw.wp_local (o := .localRemove k)
        (Or.inl (isCommonConfig_of_checkMutation hs hcheck))
        fun f => pending_localRemove k f w
  | restoreFromVss force pages =>
    rw [ConfigCall.body, restoreFromVss, hbulk]
    exact hw
  | pushMissingToVss pages =>
    rw [ConfigCall.body, pushMissingToVss, hbulk]
    exact hw
  | drainPending =>
    rw [ConfigCall.body, wp_bind]
    rcases hr : s.remote with _ | remote
    · rw [drainPending, hr]
      exact hw
    · exact (mutationInv_configInv remote G w₀).drainPending hr hw
  | flushPendingUntil rounds =>
    rw [ConfigCall.body, wp_bind]
    exact flushPendingUntil_configInv rounds hw
  | reload =>
    rw [ConfigCall.body, wp_bind]
    exact hw.withVss hs

end Calls

/-- A store that may only change the common configuration changes nothing else, over any
rows, intents and objects, along every sequence of calls. -/
theorem commonConfig_only {s : SyncedKvStore} (hs : s.commonConfigOnly) (w : StoreWorld)
    (as : List (Session.Action ConfigCall StoreFault)) :
  OnlyConfigChanged w
    (Session.run storeMachine (ConfigCall.body s) ⟨[], w.reboot⟩ as).world
  := by
  have hstart : ConfigInv w w.reboot :=
    ⟨OnlyConfigChanged.of_eq rfl rfl, fun _ h => by cases h⟩
  have hrun : ConfigInv w
      (Session.run storeMachine (ConfigCall.body s) ⟨[], w.reboot⟩ as).world :=
    Session.run_invariant (I := fun _ => ConfigInv w) (fun _ c _ _ => configCall_wp hs c)
      (fun _ _ => ConfigInv.reboot) as (s := ⟨[], w.reboot⟩) hstart
      (Session.allowsAll_any storeMachine (ConfigCall.body s) _ as)
  exact hrun.changed

/-- A store opened over a channel manager, the intent to replicate it, a malformed intent and
objects of an earlier session. -/
def mainnetStore : SyncedKvStore := ⟨true, some ⟨str "node"⟩, 2, Nat.two_pos⟩

def indexerKey : Key := ⟨rgbPrimaryNamespace, rgbWalletConfigNs, str "indexer_url"⟩

def earlierSession : StoreWorld where
  rows := Table.ofList [(channelManagerKey, str "manager"),
    (pendingKey (vssKey channelManagerKey), encodePendingRow none),
    (pendingKey (str "malformed"), [7])]
  server := (∅ : Objects).insert (vssKey channelManagerKey) ⟨3, str "manager", thirdVersion_pos⟩

/-- The calls of a session that tries to change more than the configuration. -/
def mainnetSession : List (Session.Action ConfigCall StoreFault) :=
  [.call .reload [], .call (.write indexerKey (str "url")) [],
    .call (.remove channelManagerKey) [], .call (.removeLocalOnly channelManagerKey) [],
    .call (.restoreFromVss true 1) [], .call .drainPending [], .restart]

theorem commonConfig_only_mainnetSession :
  let w := (Session.run storeMachine (ConfigCall.body mainnetStore)
    ⟨[], earlierSession.reboot⟩ mainnetSession).world
  w.remoteValue (vssKey indexerKey) = some (str "url") ∧ OnlyConfigChanged earlierSession w
  := ⟨by decide +kernel, commonConfig_only rfl earlierSession mainnetSession⟩

end RgbLightning
