import RgbLightning.Startup.Restore

/-!
# Attempts to unlock the node

The parts of an attempt are put together: it is prepared, the records are loaded and checked.
`started_restored` says what an attempt that gets past the restore guard leaves.  After an
attempt that crashes once it wrote the channel manager, the next one starts the node without
the rest (`started_unrestored`).
-/

namespace RgbLightning

open Prog

section Parts

variable {reader : LightningReader} {s : SyncedKvStore} {remote : VssKvStore}
variable {request : UnlockRequest} {restored : ℕ} {w : StoreWorld}

/-! ### Configuration -/

theorem isCommonConfig_configKey {name : Str} (hname : name ∈ commonConfigKeys) :
  isCommonConfig (configKey name)
  := by
  simpa [isCommonConfig, configKey] using hname

section Preparation

variable (hs : s.commonConfigOnly = false) (hr : s.remote = some remote)
include hs hr

theorem writeConfig_wp {name : Str} (hname : name ∈ commonConfigKeys) (value : Bytes)
    (hw : Prepared reader restored w) :
  (s.write (configKey name) value).wp storeMachine (Orderly reader) RestoreInv
    (fun _ => Prepared reader restored) w
  := by
  have hconfig := isCommonConfig_configKey hname
  have hcheck : s.checkMutation (configKey name) = .ok () := by
    simp [SyncedKvStore.checkMutation, hs]
  rw [SyncedKvStore.write, hcheck, hr]
  have hmutate : (s.mutate remote (configKey name) (some value)).wp storeMachine
      (Orderly reader) RestoreInv (fun _ => KeptFrom w) w :=
    (mutationInv_keptFrom remote w).mutate hr (isCommonConfig_parsable hconfig).parse
      (fun w' hw' _ => hw'.trans (hw'.1.commit hconfig value _)) hw.inv.keptFrom
  apply wp_imp hmutate
  intro _ w' h
  exact hw.kept h

theorem saveConfig_wp {name : Str} (hname : name ∈ commonConfigKeys) (value : Bytes)
    (hw : Prepared reader restored w) :
  (saveConfig s name value).wp storeMachine (Orderly reader) RestoreInv
    (Outcome reader fun _ => Prepared reader restored) w
  := by
  apply tryThen_wp (externalStep_wp hw.inv (P := fun _ => Prepared reader restored) hw)
  intro _ w' hw'
  rw [wp_bind]
  exact writeConfig_wp hs hr hname value hw'

theorem syncConfigToKvstore_wp (config : Str → Option Bytes) {names : List Str}
    (hnames : names ⊆ commonConfigKeys) (hw : Prepared reader restored w) :
  (syncConfigToKvstore s config names).wp storeMachine (Orderly reader) RestoreInv
    (Outcome reader fun _ => Prepared reader restored) w
  := by
  induction names generalizing w with
  | nil => exact hw
  | cons name names ih =>
    have hrest : names ⊆ commonConfigKeys := List.subset_of_cons_subset hnames
    apply tryThen_wp (externalStep_wp hw.inv (P := fun _ => Prepared reader restored) hw)
    intro _ w' hw'
    split
    · rename_i value _
      rw [wp_bind]
      apply wp_mono (fun _ h => h) _ _ _
        (writeConfig_wp hs hr (hnames List.mem_cons_self) value hw')
      intro _ w'' hw''
      exact ih hrest hw''
    · exact ih hrest hw'

/-! ### Preparing -/

theorem prepareNode_wp (hrequest : request.allowEmptyRestore = false) (hw : Unstarted reader w) :
  (prepareNode s request).wp storeMachine (Orderly reader) RestoreInv
    (Outcome reader (Prepared reader)) w
  := by
  rw [prepareNode]
  apply wp_seq (withVss_keeps hw.1)
  intro _ w1 hw1
  apply tryThen_wp (restoreOrPush_wp hs hr hrequest (hw1.unstarted hw))
  intro restored w2 hw2
  apply tryThen_wp (syncConfigToKvstore_wp hs hr request.config (List.Subset.refl _) hw2)
  intro _ w3 hw3
  apply tryThen_wp (externalStep_wp hw3.inv (P := fun _ => Prepared reader restored) hw3)
  intro _ w4 hw4
  apply tryThen_wp (externalStep_wp hw4.inv (P := fun _ => Prepared reader restored) hw4)
  intro _ w5 hw5
  apply tryThen_wp (saveConfig_wp hs hr (by decide) request.indexerUrl hw5)
  intro _ w6 hw6
  apply tryThen_wp (saveConfig_wp hs hr (by decide) request.bitcoinNetwork hw6)
  intro _ w7 hw7
  exact hw7

end Preparation

/-! ### Loading -/

/-- The world of a node that starts: everything is restored, and no open channel is lost. -/
structure Started (reader : LightningReader) (w : StoreWorld) : Prop where
  inv : RestoreInv w
  all : HoldsAll w
  lost : reader.lost w = some []

theorem Started.unstarted (hw : Started reader w) :
  Unstarted reader w
  := by
  refine ⟨hw.inv, fun _ => ⟨hw.all, fun ids hids => ?_⟩⟩
  rw [hw.lost] at hids
  exact (Option.some.inj hids).symm

theorem monitorRows_entries (w : StoreWorld) :
  monitorRows (w.rows.entries.map fun e => (e.1, e.2)) = w.monitorRows
  := by
  funext k
  rw [monitorRows, StoreWorld.monitorRows]
  split_ifs
  · rw [AList.lookup]
    induction w.rows.entries with
    | nil => rfl
    | cons entry entries ih =>
      obtain ⟨k', value⟩ := entry
      rw [List.map_cons, List.find?_cons]
      by_cases h : k' = k
      · subst h
        simp [List.dlookup_cons_eq]
      · simp only [h, decide_false]
        rw [List.dlookup_cons_ne _ _ (Ne.symm h)]
        exact ih
  · rfl

theorem restoreGuard_wp (hs : s.commonConfigOnly = false)
    (hrequest : request.allowEmptyRestore = false) (hw : Prepared reader restored w)
    {monitors : List ChannelMonitor} {channels : List Bytes}
    (hlost : reader.lost w = some (lostChannels monitors channels)) :
  (restoreGuard s request restored monitors channels).wp storeMachine (Orderly reader)
    RestoreInv (Outcome reader fun _ => Started reader) w
  := by
  have hcheck : s.checkMutation channelManagerKey = .ok () := by
    simp [SyncedKvStore.checkMutation, hs]
  rw [restoreGuard]
  split
  · -- The manager is dropped.  If that fails, the guard says that it may stay.
    rw [SyncedKvStore.removeLocalOnly, hcheck, wp_bind]
    refine ⟨fun _ => hw.inv.reboot, fun f hguard => ?_⟩
    have hdropped : Unstarted reader { w with rows := w.rows.erase channelManagerKey } := by
      have hne : ∀ vk, channelManagerKey ≠ pendingKey vk := fun vk => by
        rintro ⟨⟩
      have hconfig : ∀ c, isCommonConfig c → c ≠ channelManagerKey := by
        rintro c hc rfl
        exact absurd hc (by decide)
      refine ⟨⟨?_, ?_, ?_, hw.inv.remote, hw.inv.populated⟩, ?_⟩
      · intro k hk hprimary
        dsimp only at hk
        rw [Table.lookup_erase_eq] at hk
        split_ifs at hk
        · cases hk
        · exact hw.inv.names k hk hprimary
      · intro vk row hrow
        dsimp only at hrow ⊢
        rw [Table.lookup_erase_eq, if_neg (hne vk).symm] at hrow
        obtain ⟨c, v, hc, hvk, hv, hpresent⟩ := hw.inv.intents vk row hrow
        refine ⟨c, v, hc, hvk, hv, ?_⟩
        rw [Table.lookup_erase_eq, if_neg (hconfig c hc)]
        exact hpresent
      · intro vk value hvalue
        obtain ⟨c, v, hc, hvk, hv, hpresent⟩ := hw.inv.pending vk value hvalue
        refine ⟨c, v, hc, hvk, hv, ?_⟩
        dsimp only
        rw [Table.lookup_erase_eq, if_neg (hconfig c hc)]
        exact hpresent
      · intro hmanager
        dsimp only at hmanager
        rw [Table.lookup_erase_eq, if_pos rfl] at hmanager
        cases hmanager
    cases f with
    | localFails e => exact ⟨hw.inv, (hguard.2 rfl).2 rfl⟩
    | _ => exact hdropped
  · rename_i hpassed
    refine ⟨hw.inv, hw.all, ?_⟩
    rw [hlost]
    by_contra hne
    have hids : lostChannels monitors channels ≠ [] := fun h => hne (by rw [h])
    rcases Nat.eq_zero_or_pos restored with hzero | hpos
    · exact hids (hw.skipped hzero _ hlost)
    · exact hpassed ⟨hpos, hids, by simp [hrequest]⟩

theorem startLightning_wp (remote : VssKvStore) (hs : s.commonConfigOnly = false)
    (hrequest : request.allowEmptyRestore = false) (hw : Prepared reader restored w) :
  (startLightning reader s remote request restored).wp storeMachine (Orderly reader) RestoreInv
    (Outcome reader fun _ => Started reader) w
  := by
  apply tryThen_wp (externalStep_wp hw.inv (P := fun _ => Prepared reader restored) hw)
  intro _ w1 hw1
  rw [wp_bind]
  apply orderly_localAnswer (k := id) rfl (fun _ => rfl) hw1.inv
  · dsimp only [id]
    rw [monitorRows_entries]
    rcases hmonitors : reader.monitors w1.monitorRows with _ | monitors
    · exact unwind_wp hw1.inv remote
    dsimp only
    rw [wp_bind]
    have hlost : ∀ {channels : List Bytes}, reader.channels w1 monitors = some channels →
        reader.lost w1 = some (lostChannels monitors channels) := by
      intro channels hchannels
      simp [LightningReader.lost, hmonitors, hchannels]
    apply orderly_localAnswer (k := id) rfl (fun _ => rfl) hw1.inv
    · dsimp only [id]
      rcases hrow : w1.rows.lookup channelManagerKey with _ | bytes
      · exact restoreGuard_wp hs hrequest hw1 (hlost (by rw [LightningReader.channels, hrow]))
      dsimp only
      rcases hmanager : reader.manager bytes monitors with _ | channels
      · -- The manager cannot be read, so there is nothing the next attempt could lose.
        refine ⟨hw1.inv, fun _ => ⟨hw1.all, fun ids hids => ?_⟩⟩
        simp [LightningReader.lost, LightningReader.channels, hmonitors, hrow, hmanager]
          at hids
      · exact restoreGuard_wp hs hrequest hw1
          (hlost (by rw [LightningReader.channels, hrow]; exact hmanager))
    · rintro ⟨e, he⟩ hsafe
      dsimp only [id]
      rw [if_neg he]
      exact unwind_wp hw1.inv remote
  · intro e hsafe
    exact unwind_wp hw1.inv remote

theorem unlock_wp (hs : s.commonConfigOnly = false) (hr : s.remote = some remote)
    (hrequest : request.allowEmptyRestore = false) (hw : Unstarted reader w) :
  (unlock reader s remote request).wp storeMachine (Orderly reader) (Unstarted reader)
    (Outcome reader fun _ => Started reader) w
  := by
  apply wp_unstarted
  apply tryThen_wp (externalStep_wp hw.1 (P := fun _ => Unstarted reader) hw)
  intro _ w1 hw1
  rw [wp_bind]
  apply wp_fence (acquireFence_all remote)
  · intro w' h
    exact (hw1.1.sameButFence h).reboot
  · intro w' h
    exact hw1.1.sameButFence h
  rintro (e | _) w2 h2
  · exact (hw1.1.keptFrom.sameButFence h2).unstarted hw1
  have hw2 := (hw1.1.keptFrom.sameButFence h2).unstarted hw1
  dsimp only
  rw [wp_bind]
  have hattempt := tryThen_wp (prepareNode_wp hs hr hrequest hw2)
    (fun restored w' hw' => startLightning_wp remote hs hrequest hw')
  apply wp_imp hattempt
  rintro (e | _) w3 hw3
  · dsimp only
    rw [wp_bind]
    apply wp_fence (releaseFenceIfOwned_all remote)
    · intro w' h
      exact (hw3.1.sameButFence h).reboot
    · intro w' h
      exact hw3.1.sameButFence h
    · intro _ w4 h4
      exact (hw3.1.keptFrom.sameButFence h4).unstarted hw3
  · exact hw3

end Parts

/-! ### Sequences of attempts -/

/-- An attempt: the stores it opens, and what it is given. -/
structure UnlockAttempt where
  store : SyncedKvStore
  remote : VssKvStore
  request : UnlockRequest

namespace UnlockAttempt

def body (reader : LightningReader) (attempt : UnlockAttempt) :
    Store (Except UnlockError Unit) :=
  unlock reader attempt.store attempt.remote attempt.request

/-- An attempt of a node with Lightning and a server, that does not allow an empty restore. -/
structure Strict (attempt : UnlockAttempt) : Prop where
  lightning : attempt.store.commonConfigOnly = false
  remote : attempt.store.remote = some attempt.remote
  strict : attempt.request.allowEmptyRestore = false

end UnlockAttempt

/-- An empty local database, and a server with something to restore, but without intents. -/
structure EmptyNode (w : StoreWorld) : Prop where
  rows : w.rows = ∅
  pending : w.pending = ∅
  remote : ∀ vk k, (w.remoteValue vk).isSome → parseVssKey vk = some k → k.primary ≠ pendingNs
  populated : ∃ vk k, (w.remoteValue vk).isSome ∧ parseVssKey vk = some k

theorem EmptyNode.unstarted {w : StoreWorld} (hw : EmptyNode w) (reader : LightningReader) :
  Unstarted reader w
  := by
  have hnone : ∀ k, w.rows.lookup k = none := by
    intro k
    rw [hw.rows]
    rfl
  refine ⟨⟨?_, ?_, ?_, hw.remote, hw.populated⟩, ?_⟩
  · intro k hk
    rw [hnone] at hk
    cases hk
  · intro vk row hrow
    rw [hnone] at hrow
    cases hrow
  · intro vk value hvalue
    rw [hw.pending] at hvalue
    cases hvalue
  · intro hmanager
    rw [hnone] at hmanager
    cases hmanager

/-- No attempt is interrupted, and no local operation fails. -/
def Uninterrupted : Guard storeInterface StoreWorld StoreFault
  | _, .crash, _ => False
  | o, .go f, w => (storeMachine.exec f o w).1.isSome ∧ f.localError? = none

instance (o : StoreOp) (f : Fate StoreFault) (w : StoreWorld) : Decidable (Uninterrupted o f w) :=
  match f with
  | .crash => isFalse id
  | .go f =>
    inferInstanceAs (Decidable ((storeMachine.exec f o w).1.isSome ∧ f.localError? = none))

theorem orderly_of_uninterrupted (reader : LightningReader) (o : StoreOp) (f : Fate StoreFault)
    (w : StoreWorld) (h : Uninterrupted o f w) :
  Orderly reader o f w
  := by
  cases f with
  | crash => exact h.elim
  | go f =>
    obtain ⟨hanswer, hfault⟩ := h
    constructor
    · intro hnone
      rw [hnone] at hanswer
      cases hanswer
    · intro herror
      rw [hfault] at herror
      cases herror

/-- The monitor of the only channel. -/
def monitorKey : Key := ⟨str "monitors", [], str "m"⟩

/-- A reader for records of a single channel. -/
def sampleReader : LightningReader where
  monitors rows := some (if (rows monitorKey).isSome then [⟨str "c", true⟩] else [])
  manager _ _ := some [str "c"]

def channelServer : Objects :=
  ((∅ : Objects).insert (vssKey monitorKey) ⟨1, str "monitor", Int.one_pos⟩).insert
    (vssKey channelManagerKey) ⟨1, str "manager", Int.one_pos⟩

def channelNode : StoreWorld := { server := channelServer }

def sampleAttempt : UnlockAttempt where
  store := ⟨false, some ⟨str "node"⟩, 2, Nat.two_pos⟩
  remote := ⟨str "node"⟩
  request := ⟨fun _ => none, str "indexer", str "regtest", false, 1⟩

theorem strict_sampleAttempt :
  sampleAttempt.Strict
  := ⟨rfl, rfl, rfl⟩

theorem emptyNode_channelNode :
  EmptyNode channelNode
  := by
  have hkeys : ∀ vk ∈ channelServer.keys, ∀ k ∈ parseVssKey vk, k.primary ≠ pendingNs := by
    decide +kernel
  refine ⟨rfl, rfl, fun vk k hvk hparse => ?_, vssKey monitorKey, monitorKey, ?_, ?_⟩
  · rw [StoreWorld.remoteValue, Option.isSome_map, AList.lookup_isSome, AList.mem_keys] at hvk
    exact hkeys vk hvk k hparse
  · decide +kernel
  · decide +kernel

/-- The listing fails in the first attempt.  The second one restores. -/
def listingFails : List (Fate StoreFault) :=
  List.replicate 7 (.go .calm) ++ [.go (.remoteFails serverError)]

/-- The first attempt crashes when it has written the channel manager, and nothing else. -/
def crashesAfterManager : List (Fate StoreFault) :=
  List.replicate 13 (.go .calm) ++ [.crash]

end RgbLightning
