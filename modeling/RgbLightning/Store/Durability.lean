import RgbLightning.Store.Replication

/-!
# Sequences of calls of the local-first store

`mutations_replicated` is the invariant of the local-first store along every sequence of
writes, removals, drains and flushes, with failures and crashes.

Two conditions are needed.  Keys in the namespace of the intents are not replicated: their
rows are taken for intents.  A reload that cannot read the intents starts with a pending map
that lacks them (`pending_disagrees`).
-/

namespace RgbLightning

open Prog Session

/-! ### Mutations that are not committed -/

/-- Nothing has changed.  After a crash the pending map is gone. -/
structure Unchanged (w w' : StoreWorld) : Prop where
  rows : w'.rows = w.rows
  server : w'.server = w.server
  commits : w'.commits = w.commits
  pending : w'.opened → ∀ vk, w'.pending.lookup vk = w.pending.lookup vk

/-- A mutation was committed, or nothing has changed. -/
def CommittedOrUnchanged (w w' : StoreWorld) : Prop :=
  w.commits < w'.commits ∨ Unchanged w w'

section Uncommitted

variable {G : Guard storeInterface StoreWorld StoreFault} {s : SyncedKvStore}
variable {w w' : StoreWorld} {k : Key} {value : Option Bytes}

theorem Unchanged.refl (w : StoreWorld) :
  Unchanged w w
  := ⟨rfl, rfl, rfl, fun _ _ => rfl⟩

theorem Unchanged.sameCore {w'' : StoreWorld} (hw : Unchanged w w') (h : SameCore w' w'') :
  Unchanged w w''
  := ⟨h.rows.trans hw.rows, h.server.trans hw.server, h.commits.trans hw.commits,
    fun hopened vk => by rw [h.pending, hw.pending (h.opened ▸ hopened)]⟩

theorem Unchanged.reboot (hw : Unchanged w w') :
  Unchanged w w'.reboot
  := ⟨hw.rows, hw.server, hw.commits, fun hopened => by cases hopened⟩

theorem commits_exec (o : StoreOp) (f : StoreFault) (w : StoreWorld) :
  w.commits ≤ (storeMachine.exec f o w).2.commits
  := by
  have htransact : ∀ w' : StoreWorld, w.commits ≤ w'.commits →
      w.commits ≤ (f.transact w w').2.commits := by
    intro w' h
    rw [StoreFault.transact]
    split
    · apply le_rfl
    · apply h
  by_cases ho : o.touchesCore = false
  · rw [(sameCore_exec o ho f w).commits]
  cases o with
  | modifyPending change => apply le_rfl
  | openStore pending => apply le_rfl
  | localWrite k value => exact htransact _ (le_refl w.commits)
  | localRemove k => exact htransact _ (le_refl w.commits)
  | writeWithReplicationIntent k value intentKey intent => apply htransact _ (Nat.le_succ _)
  | removeWithReplicationIntent k intentKey intent => apply htransact _ (Nat.le_succ _)
  | putObject request =>
    have hput : ∀ w' : StoreWorld, (w'.put request).2.commits = w'.commits := by
      intro w'
      rw [StoreWorld.put]
      split <;> rfl
    rw [← (sameCore_recordRequest w request).commits]
    cases f with
    | remoteFails e => apply le_rfl
    | _ => apply (hput _).ge
  | _ => exact absurd rfl ho

theorem wp_committed {α : Type} (p : Store α) {w0 : StoreWorld} (h : w0.commits < w.commits) :
  p.wp storeMachine G (CommittedOrUnchanged w0) (fun _ => CommittedOrUnchanged w0) w
  := by
  have hcommitted : ∀ w' : StoreWorld, w.commits ≤ w'.commits → CommittedOrUnchanged w0 w' :=
    fun w' hw' => Or.inl (lt_of_lt_of_le h hw')
  apply wp_frame (R := fun w w' : StoreWorld => w.commits ≤ w'.commits) (fun _ => le_rfl)
    (fun _ _ _ => le_trans) (fun o _ => commits_exec o) (all_true p)
  · intro _
    exact hcommitted
  · exact hcommitted
  · intro w' hw'
    apply hcommitted w'.reboot hw'

/-- What a mutation that returns has done: it was committed, or nothing has changed.  Unless
the record must be on the server, nothing has changed when the mutation fails. -/
def MutationOutcome (k : Key) (w : StoreWorld) (result : Except IoError Unit)
    (w' : StoreWorld) : Prop :=
  CommittedOrUnchanged w w'
    ∧ (requiresRemoteDurability k = false → ∀ e, result = .error e → Unchanged w w')

theorem Unchanged.outcome (h : Unchanged w w') (result : Except IoError Unit) :
  MutationOutcome k w result w'
  := ⟨Or.inr h, fun _ _ _ => h⟩

theorem mutate_outcome_wp (remote : VssKvStore) :
  (s.mutate remote k value).wp storeMachine G (CommittedOrUnchanged w) (MutationOutcome k w) w
  := by
  -- An operation on a mutex or a flag, with the program after it.
  have hthen : ∀ {o : StoreOp} {next : o.Ans → Store (Except IoError Unit)} {w' : StoreWorld},
      o.touchesCore = false → Unchanged w w' →
      (∀ a w'', Unchanged w w'' → (next a).wp storeMachine G (CommittedOrUnchanged w)
        (MutationOutcome k w) w'') →
      (storeOp o >>= next).wp storeMachine G (CommittedOrUnchanged w)
        (MutationOutcome k w) w' := by
    intro o next w' ho hw' hnext
    apply wp_leavesCore_then ho
    · intro w'' h
      exact Or.inr (hw'.sameCore h).reboot
    · intro w'' h
      exact Or.inr (hw'.sameCore h)
    · intro a w'' h
      apply hnext a w'' (hw'.sameCore h)
  rw [SyncedKvStore.mutate]
  apply hthen rfl (Unchanged.refl w)
  intro _ w1 hw1
  apply hthen rfl hw1
  intro stopped w2 hw2
  split
  · apply hthen rfl hw2
    intro _ w3 hw3
    apply hw3.outcome
  apply hthen rfl hw2
  intro _ w3 hw3
  rw [wp_bind]
  apply reservePending_wp (Or.inr hw3.reboot)
  · intro e
    apply hthen rfl hw3
    intro _ w4 hw4
    apply hthen rfl hw4
    intro _ w5 hw5
    apply hw5.outcome
  intro _
  dsimp only
  rw [wp_bind]
  apply commitWithIntent_wp
  · exact Or.inr hw3.reboot
  · have hcommits : w.commits < w3.commits + 1 := by
      rw [hw3.commits]
      apply Nat.lt_succ_self
    cases hk : requiresRemoteDurability k with
    | true =>
      apply wp_imp (wp_committed _ hcommits)
      intro r w' h
      refine ⟨h, fun hk' => ?_⟩
      rw [hk] at hk'
      cases hk'
    | false =>
      -- Whatever the server answers, the mutation has succeeded.
      apply wp_mono (Q := fun result w' => CommittedOrUnchanged w w' ∧ result = .ok ())
        (fun _ h => h)
      · rintro _ w' ⟨h, rfl⟩
        exact ⟨h, fun _ _ => by intros; contradiction⟩
      apply wp_returns _ (wp_committed _ hcommits)
      apply Returns.bind
      rintro (e | _)
      · intro _ _
        rfl
      apply Returns.bind
      rintro (e | _)
      · intro _ _
        rfl
      · intro _ _
        apply Returns.bind s.drainPending
        intro _
        rfl
  · intro e
    dsimp only
    rw [wp_bind]
    apply restorePendingReservation_wp (Or.inr hw3.reboot)
    intro pending hpending
    apply hthen rfl
    · exact ⟨hw3.rows, hw3.server, hw3.commits, fun hopened vk =>
        (hpending vk).trans (hw3.pending hopened vk)⟩
    intro _ w4 hw4
    apply hthen rfl hw4
    intro _ w5 hw5
    apply hw5.outcome

theorem mutate_uncommitted_wp (remote : VssKvStore) :
  (s.mutate remote k value).wp storeMachine G (CommittedOrUnchanged w)
    (fun _ => CommittedOrUnchanged w) w
  := wp_mono (fun _ h => h) (fun _ _ h => h.1) _ _ (mutate_outcome_wp remote)

/-- A write that fails leaves everything as it was, unless the record must be on the
server. -/
theorem write_failed_wp (hk : requiresRemoteDurability k = false) (buf : Bytes) :
  (s.write k buf).wp storeMachine G (fun _ => True)
    (fun result w' => ∀ e, result = .error e → Unchanged w w') w
  := by
  rw [SyncedKvStore.write]
  split
  · intro _ _
    apply Unchanged.refl
  · apply wp_mono (fun _ _ => trivial) _ _ _ (mutate_outcome_wp _)
    intro result w' h
    apply h.2 hk
  · apply wp_transaction (k := id) (fun _ => rfl) trivial
    · intros; contradiction
    · intro _ _ _
      apply Unchanged.refl

end Uncommitted

/-! ### Sequences of calls -/

/-- The calls of the local-first store. -/
inductive SyncedCall where
  | write (k : Key) (buf : Bytes)
  | remove (k : Key)
  | drainPending
  | flushPendingUntil (rounds : ℕ)
  | reload

namespace SyncedCall

def body (s : SyncedKvStore) : SyncedCall → Store (Except IoError Unit)
  | .write k buf => s.write k buf
  | .remove k => s.remove k
  | .drainPending => do
    s.drainPending
    pure (.ok ())
  | .flushPendingUntil rounds => do
    let _ ← s.flushPendingUntil rounds
    pure (.ok ())
  | .reload => do
    s.withVss
    pure (.ok ())

def mutates : SyncedCall → Bool
  | .write _ _ => true
  | .remove _ => true
  | _ => false

/-- When a call is made: after a crash the store is opened first.  A store of common
configuration is given text. -/
def Allowed (s : SyncedKvStore) : SyncedCall → StoreWorld → Prop
  | .write k buf, w =>
    w.opened ∧ k.Replicated
      ∧ (s.commonConfigOnly → isCommonConfigIntent (encodePendingRow (some buf)))
  | .remove k, w => w.opened ∧ k.Replicated
  | .drainPending, w => w.opened
  | .flushPendingUntil _, w => w.opened
  | .reload, w => w.opened = false

end SyncedCall

section Calls

variable {G : Guard storeInterface StoreWorld StoreFault} {s : SyncedKvStore}
variable {w : StoreWorld} {k : Key}

theorem loads_of_checkMutation {value : Option Bytes} {u : Unit}
    (hcheck : s.checkMutation k = .ok u)
    (hvalue : s.commonConfigOnly → isCommonConfigIntent (encodePendingRow value)) :
  s.Loads (vssKey k) (encodePendingRow value)
  := by
  intro hcommon
  refine ⟨?_, hvalue hcommon⟩
  rw [SyncedKvStore.checkMutation] at hcheck
  split_ifs at hcheck with h
  · apply isCommonRemoteKey_vssKey
    by_contra hk
    exact h ⟨hcommon, hk⟩

theorem syncedCall_wp (hs : s.remote.isSome) (c : SyncedCall) (hc : c.Allowed s w)
    (hw : InSync s w) :
  (c.body s).wp storeMachine ReadsIntents (InSync s) (fun _ => InSync s) w
  := by
  obtain ⟨remote, hremote⟩ := Option.isSome_iff_exists.mp hs
  cases c with
  | write k buf =>
    obtain ⟨hopened, hk, hvalue⟩ := hc
    rw [SyncedCall.body, SyncedKvStore.write]
    rcases hcheck : s.checkMutation k with e | u
    · exact hw
    · rw [hremote]
      apply wp_mono (fun _ h => h) (fun _ _ => OpenInSync.toInSync)
      apply mutate_wp hremote ⟨hw, hopened⟩ hk (loads_of_checkMutation hcheck hvalue)
  | remove k =>
    obtain ⟨hopened, hk⟩ := hc
    rw [SyncedCall.body, SyncedKvStore.remove]
    rcases hcheck : s.checkMutation k with e | u
    · exact hw
    · rw [hremote]
      apply wp_mono (fun _ h => h) (fun _ _ => OpenInSync.toInSync)
      apply mutate_wp hremote ⟨hw, hopened⟩ hk (loads_of_checkMutation hcheck fun _ => rfl)
  | drainPending =>
    rw [SyncedCall.body, wp_bind]
    apply wp_mono (fun _ h => h) (fun _ _ => OpenInSync.toInSync)
    apply (mutationInv_openInSync s remote).drainPending hremote ⟨hw, hc⟩
  | flushPendingUntil rounds =>
    rw [SyncedCall.body, wp_bind]
    apply wp_mono (fun _ h => h) (fun _ _ => OpenInSync.toInSync)
    apply (mutationInv_openInSync s remote).flushPendingUntil hremote rounds ⟨hw, hc⟩
  | reload =>
    rw [SyncedCall.body, wp_bind]
    apply withVss_wp hw

theorem syncedCall_uncommitted_wp (hs : s.remote.isSome) (c : SyncedCall) (hc : c.mutates) :
  (c.body s).wp storeMachine G (CommittedOrUnchanged w) (fun _ => CommittedOrUnchanged w) w
  := by
  obtain ⟨remote, hremote⟩ := Option.isSome_iff_exists.mp hs
  cases c with
  | write k buf =>
    rw [SyncedCall.body, SyncedKvStore.write]
    rcases hcheck : s.checkMutation k with e | u
    · exact Or.inr (Unchanged.refl w)
    · rw [hremote]
      apply mutate_uncommitted_wp
  | remove k =>
    rw [SyncedCall.body, SyncedKvStore.remove]
    rcases hcheck : s.checkMutation k with e | u
    · exact Or.inr (Unchanged.refl w)
    · rw [hremote]
      apply mutate_uncommitted_wp
  | drainPending => cases hc
  | flushPendingUntil rounds => cases hc
  | reload => cases hc

end Calls

/-- Along every sequence of calls, a replicated key has an intent that says what its local
value is, or the server holds its local value.  The pending map is what the intents say, and
is not larger than the capacity.  A mutation that is not committed, returning an error or
not returning, changes nothing. -/
theorem mutations_replicated {s : SyncedKvStore} (hs : s.remote.isSome) {w : StoreWorld}
    (hw : InSync s w) (as : List (Action SyncedCall StoreFault))
    (has : AllowsAll storeMachine ReadsIntents (SyncedCall.Allowed s)
      (SyncedCall.body s) ⟨[], w⟩ as) :
  let w' := (run storeMachine (SyncedCall.body s) ⟨[], w⟩ as).world
  (∀ k : Key, k.Replicated →
    w'.intent k = some (encodePendingRow (w'.rows.lookup k))
      ∨ (w'.intent k = none ∧ w'.remoteValue (vssKey k) = w'.rows.lookup k))
    ∧ (w'.opened → Loaded w' ∧ Table.size w'.pending ≤ s.pendingCapacity)
    ∧ ∀ (c : SyncedCall) (fs : List (Fate StoreFault)), c.mutates →
        ((c.body s).world storeMachine w' fs).commits = w'.commits →
          Unchanged w' ((c.body s).world storeMachine w' fs)
  := by
  intro w'
  have hw' : InSync s w' :=
    run_invariant (I := fun _ => InSync s) (fun _ c _ => syncedCall_wp hs c)
      (fun _ _ => InSync.reboot) as hw has
  refine ⟨hw'.consistent.synced, fun hopened => ?_, fun c fs hc hcommits => ?_⟩
  · have hloaded := hw'.loaded hopened
    refine ⟨hloaded, ?_⟩
    rw [hloaded.size_pending]
    apply hw'.bounded
  · rcases world_of_wp (syncedCall_uncommitted_wp hs c hc) fs with h | h
    · exact absurd hcommits h.ne'
    · exact h

/-! ### Examples -/

theorem inSync_empty (s : SyncedKvStore) (opened : Bool) :
  InSync s { opened }
  := by
  refine ⟨⟨fun _ h => ?_, fun _ _ => Or.inr ⟨rfl, rfl⟩⟩, fun _ _ h => ?_, Nat.zero_le _,
    fun _ _ => rfl⟩
  · cases h
  · cases h

def sampleStore : SyncedKvStore := ⟨false, some ⟨str "node"⟩, 2, Nat.two_pos⟩

def sampleKey : Key := ⟨rgbPrimaryNamespace, [], str "balance"⟩

theorem replicated_sampleKey :
  sampleKey.Replicated
  := ⟨by decide, by decide⟩

/-- Fates along which every request to the server fails. -/
def unreachable : List (Fate StoreFault) :=
  List.replicate 16 (.go (.remoteFails serverError))

/-- A value is written while the server cannot be reached.  After a restart the store is
opened and drained. -/
def replicatedLater : List (Action SyncedCall StoreFault) :=
  [.call (.write sampleKey [5]) unreachable, .restart, .call .reload [],
    .call .drainPending []]

theorem mutations_replicated_replicatedLater :
  let run := run storeMachine (SyncedCall.body sampleStore) ⟨[], { opened := true }⟩
  (run (replicatedLater.take 3)).world.intent sampleKey = some (encodePendingRow (some [5]))
    ∧ (run replicatedLater).world.intent sampleKey = none
    ∧ (run replicatedLater).world.rows.lookup sampleKey = some [5]
    ∧ (run replicatedLater).world.remoteValue (vssKey sampleKey) = some [5]
  := by
  have hallows : AllowsAll storeMachine ReadsIntents (SyncedCall.Allowed sampleStore)
      (SyncedCall.body sampleStore) ⟨[], { opened := true }⟩ replicatedLater := by
    have hcalm : ∀ (o : StoreOp) (w : StoreWorld), ReadsIntents o (.go .calm) w := by
      intro o w
      cases o <;> simp [ReadsIntents, StoreFault.localError?]
    have hopened : (run storeMachine (SyncedCall.body sampleStore)
        ⟨[], { opened := true }⟩ (replicatedLater.take 3)).world.opened := by
      decide +kernel
    refine ⟨⟨⟨rfl, replicated_sampleKey, by rintro ⟨⟩⟩, ?_⟩, trivial,
      ⟨rfl, admits_of_forall hcalm _ _ _ (by simp)⟩,
      ⟨hopened, admits_of_forall hcalm _ _ _ (by simp)⟩, trivial⟩
    apply admits_of_forall hcalm
    intro f hf o w
    obtain rfl := List.eq_of_mem_replicate hf
    cases o <;> simp [ReadsIntents, StoreFault.localError?]
  have hnone : (run storeMachine (SyncedCall.body sampleStore)
      ⟨[], { opened := true }⟩ replicatedLater).world.intent sampleKey = none := by
    decide +kernel
  have hlocal : (run storeMachine (SyncedCall.body sampleStore)
      ⟨[], { opened := true }⟩ replicatedLater).world.rows.lookup sampleKey = some [5] := by
    decide +kernel
  refine ⟨by decide +kernel, hnone, hlocal, ?_⟩
  have h := (mutations_replicated (s := sampleStore) rfl (inSync_empty _ true)
    replicatedLater hallows).1 sampleKey replicated_sampleKey
  rw [hnone] at h
  rcases h with h | ⟨-, h⟩
  · cases h
  · rw [h, hlocal]

/-- A value is written in the namespace of the intents. -/
def reservedKey : Key := ⟨pendingNs, [], str "x"⟩

/-- A value is written while the server cannot be reached.  After a restart the store is
opened, but the intents cannot be listed. -/
def unreadable : List (Action SyncedCall StoreFault) :=
  [.call (.write sampleKey [5]) unreachable, .restart,
    .call .reload [.go (.localFails ⟨⟨.other, "list", none⟩, by decide⟩)]]

/-- The pending map disagrees with the rows of the intents after a write to their namespace,
and after a reload that cannot list them. -/
theorem pending_disagrees :
  let run := run storeMachine (SyncedCall.body sampleStore) ⟨[], { opened := true }⟩
  InSync sampleStore { opened := true } ∧ reservedKey.Valid ∧ sampleKey.Replicated
    ∧ (run [.call (.write reservedKey [5]) []]).world.opened
    ∧ ¬ Loaded (run [.call (.write reservedKey [5]) []]).world
    ∧ (run unreadable).world.opened
    ∧ ¬ Loaded (run unreadable).world
  := by
  refine ⟨inSync_empty _ _, by decide, replicated_sampleKey, by decide +kernel, fun h => ?_,
    by decide +kernel, fun h => ?_⟩
  · exact absurd (h (str "x")) (by decide +kernel)
  · exact absurd (h (vssKey sampleKey)) (by decide +kernel)

end RgbLightning
