import RgbLightning.Store.Mutations

/-!
# The local-first store stays in sync

At every moment, and after every crash, each replicated key either has a replication intent
that says what its local value is, or the server holds its local value (`Consistent`).  While
the store is open the pending map is what the intents say (`Loaded`), and it is not larger
than the capacity.  All this is `InSync`.

Every method keeps the store in sync, whatever fails and wherever it is interrupted.  When
the store is opened the pending map is read back from the intents; errors are ignored there,
so these are assumed to be readable (`ReadsIntents`).
-/

namespace RgbLightning

open Prog Table StoreWorld Option

/-! ### The invariant -/

/-- A key that is replicated: a valid one outside of the namespace of the intents. -/
structure Key.Replicated (k : Key) : Prop where
  valid : k.Valid
  primary_ne : k.primary ≠ pendingNs

theorem Key.Replicated.ne_pendingKey {k : Key} (hk : k.Replicated) (vk : Str) :
  k ≠ pendingKey vk
  := by
  rintro rfl
  apply hk.primary_ne rfl

theorem Key.Replicated.vssKey_ne {k k' : Key} (hk : k.Replicated) (hk' : k'.Replicated)
    (hne : k' ≠ k) :
  vssKey k' ≠ vssKey k
  := by
  intro h
  apply hne (vssKey_injective hk'.valid hk.valid h)

def StoreWorld.intent (w : StoreWorld) (k : Key) : Option Bytes :=
  w.rows.lookup (pendingKey (vssKey k))

def StoreWorld.intents (w : StoreWorld) : ℕ :=
  (listRows w.rows pendingNs []).length

/-- Every replicated key has an intent that says what its local value is, or the server
holds its local value. -/
structure Consistent (w : StoreWorld) : Prop where
  names : ∀ vk, (w.rows.lookup (pendingKey vk)).isSome → ∃ k : Key, k.Replicated ∧ vk = vssKey k
  synced : ∀ k : Key, k.Replicated →
    w.intent k = some (encodePendingRow (w.rows.lookup k))
      ∨ (w.intent k = none ∧ w.remoteValue (vssKey k) = w.rows.lookup k)

/-- The pending map is what the intents say. -/
def Loaded (w : StoreWorld) : Prop :=
  ∀ vk, w.rows.lookup (pendingKey vk) = (w.pending.lookup vk).map encodePendingRow

/-- The intent is one the store reads back when it is opened.  A store of common
configuration skips the others. -/
def SyncedKvStore.Loads (s : SyncedKvStore) (vk : Str) (row : Bytes) : Prop :=
  s.commonConfigOnly → isCommonRemoteKey vk ∧ isCommonConfigIntent row

/-- The store is in sync: every mutation was replicated or will be. -/
structure InSync (s : SyncedKvStore) (w : StoreWorld) : Prop where
  consistent : Consistent w
  loads : ∀ vk row, w.rows.lookup (pendingKey vk) = some row → s.Loads vk row
  bounded : w.intents ≤ s.pendingCapacity
  loaded : w.opened → Loaded w

theorem encodePendingRow_injective :
  Function.Injective encodePendingRow
  := by
  intro a b h
  have h' := congrArg decodePendingRow h
  rw [decodePendingRow_encodePendingRow, decodePendingRow_encodePendingRow] at h'
  apply some.inj h'

theorem Loaded.size_pending {w : StoreWorld} (hw : Loaded w) :
  size w.pending = w.intents
  := by
  have hperm : List.Perm w.pending.keys (listRows w.rows pendingNs []) := by
    apply (List.perm_ext_iff_of_nodup w.pending.keys_nodup (nodup_listRows _ _ _)).mpr
    intro vk
    rw [mem_listRows, ← AList.mem_keys, ← AList.lookup_isSome]
    change _ ↔ (w.rows.lookup (pendingKey vk)).isSome
    rw [hw vk, isSome_map]
  apply hperm.length_eq

section Invariant

variable {s : SyncedKvStore} {w w' : StoreWorld} {k : Key} {value : Option Bytes}

theorem Consistent.congr (hw : Consistent w) (hrows : w'.rows = w.rows)
    (hremote : ∀ k : Key, k.Replicated → w.intent k = none →
      w'.remoteValue (vssKey k) = w.remoteValue (vssKey k)) :
  Consistent w'
  := by
  constructor
  · intro vk hvk
    rw [hrows] at hvk
    apply hw.names vk hvk
  · intro k hk
    rw [intent, hrows]
    rcases hw.synced k hk with h | ⟨hnone, h⟩
    · left
      apply h
    · right
      exact ⟨hnone, (hremote k hk hnone).trans h⟩

/-- An intent says what the local value is. -/
theorem Consistent.eq_of_intent (hw : Consistent w) (hk : k.Replicated)
    (hintent : w.intent k = some (encodePendingRow value)) :
  value = w.rows.lookup k
  := by
  rcases hw.synced k hk with h | ⟨hnone, -⟩
  · rw [hintent] at h
    apply encodePendingRow_injective (some.inj h)
  · rw [hintent] at hnone
    cases hnone

variable (hw : InSync s w)
include hw

theorem InSync.of_pending (hopened : w.opened) {vk : Str}
    (hpending : w.pending.lookup vk = some value) :
  ∃ k : Key, k.Replicated ∧ vk = vssKey k ∧ value = w.rows.lookup k
    ∧ w.intent k = some (encodePendingRow value)
  := by
  have hrow := hw.loaded hopened vk
  rw [hpending, map_some] at hrow
  obtain ⟨k, hk, rfl⟩ := hw.consistent.names vk (by rw [hrow]; rfl)
  exact ⟨k, hk, rfl, hw.consistent.eq_of_intent hk hrow, hrow⟩

/-- Worlds with the same rows, where the server has changed only objects with an intent. -/
theorem InSync.congr (hrows : w'.rows = w.rows) (hloaded : w'.opened →
      w.opened ∧ ∀ vk, w'.pending.lookup vk = w.pending.lookup vk)
    (hremote : ∀ k : Key, k.Replicated → w.intent k = none →
      w'.remoteValue (vssKey k) = w.remoteValue (vssKey k)) :
  InSync s w'
  := by
  refine ⟨hw.consistent.congr hrows hremote, ?_, ?_, fun hopened vk => ?_⟩
  · rw [hrows]
    apply hw.loads
  · rw [intents, hrows]
    apply hw.bounded
  · obtain ⟨hopened', hpending⟩ := hloaded hopened
    rw [hrows, hpending vk]
    apply hw.loaded hopened' vk

theorem InSync.sameCore (h : SameCore w w') :
  InSync s w'
  := hw.congr h.rows (fun hopened => ⟨h.opened ▸ hopened, fun _ => by rw [h.pending]⟩)
    (fun _ _ _ => h.remoteValue _)

theorem InSync.reboot :
  InSync s w.reboot
  := hw.congr rfl (fun hopened => by cases hopened) (fun _ _ _ => rfl)

/-- Trying the mutation an intent asks for. -/
theorem InSync.attempted (hk : k.Replicated) (hintent : (w.intent k).isSome)
    (h : Attempted (vssKey k) value w w') :
  InSync s w'
  := by
  apply hw.congr h.rows (fun hopened => ⟨h.opened ▸ hopened, fun _ => by rw [h.pending]⟩)
  intro k' hk' hnone
  apply h.others
  apply hk.vssKey_ne hk'
  rintro rfl
  rw [hnone] at hintent
  cases hintent

/-! ### The transactions of the store -/

omit hw in
theorem lookup_committedRows (rows : Table Key Bytes) {k' : Key} (hk' : k'.Replicated) :
  (committedRows rows k value).lookup k' = if k' = k then value else rows.lookup k'
  := by
  rw [committedRows, lookup_insert_eq, if_neg (hk'.ne_pendingKey _),
    lookup_assign_eq]

theorem InSync.commit (hopened : w.opened) (hk : k.Replicated)
    (hloads : s.Loads (vssKey k) (encodePendingRow value))
    (hfull : s.isFull w.pending (vssKey k) = false) (commits : ℕ) :
  InSync s { w with
    rows := committedRows w.rows k value
    pending := w.pending.insert (vssKey k) value
    commits }
  := by
  have hintents : ∀ vk, (committedRows w.rows k value).lookup (pendingKey vk)
      = if vk = vssKey k then some (encodePendingRow value)
        else w.rows.lookup (pendingKey vk) :=
    lookup_committedRows_intent w.rows hk.primary_ne value
  have hloaded : Loaded { w with
      rows := committedRows w.rows k value
      pending := w.pending.insert (vssKey k) value
      commits } := by
    intro vk
    dsimp only
    rw [hintents, lookup_insert_eq]
    split_ifs
    · rfl
    · apply hw.loaded hopened
  refine ⟨⟨fun vk hvk => ?_, fun k' hk' => ?_⟩, fun vk row hrow => ?_, ?_, fun _ => hloaded⟩
  · dsimp only at hvk
    rw [hintents] at hvk
    split_ifs at hvk with h
    · exact ⟨k, hk, h⟩
    · apply hw.consistent.names vk hvk
  · rw [intent]
    dsimp only
    rw [hintents, lookup_committedRows w.rows hk']
    by_cases h : k' = k
    · left
      rw [h, if_pos rfl, if_pos rfl]
    · rw [if_neg (hk.vssKey_ne hk' h), if_neg h]
      apply hw.consistent.synced k' hk'
  · dsimp only at hrow
    rw [hintents] at hrow
    split_ifs at hrow with h
    · obtain rfl := some.inj hrow
      rw [h]
      apply hloads
    · apply hw.loads vk row hrow
  · rw [← hloaded.size_pending]
    have hsize := (hw.loaded hopened).size_pending
    have hbounded := hw.bounded
    dsimp only
    by_cases h : vssKey k ∈ w.pending
    · rw [size_insert_of_mem _ _ h]
      omega
    · rw [size_insert_of_notMem _ _ h]
      simp only [SyncedKvStore.isFull, h, not_false_eq_true, and_true,
        decide_eq_false_iff_not] at hfull
      omega

theorem InSync.clear (hopened : w.opened) (hk : k.Replicated)
    (hremote : w.remoteValue (vssKey k) = w.rows.lookup k) :
  InSync s { w with
    rows := w.rows.erase (pendingKey (vssKey k))
    pending := w.pending.erase (vssKey k) }
  := by
  have hintents : ∀ vk, (w.rows.erase (pendingKey (vssKey k))).lookup (pendingKey vk)
      = if vk = vssKey k then none else w.rows.lookup (pendingKey vk) := by
    intro vk
    rw [lookup_erase_eq]
    simp only [pendingKey_injective.eq_iff]
  have hloaded : Loaded { w with
      rows := w.rows.erase (pendingKey (vssKey k))
      pending := w.pending.erase (vssKey k) } := by
    intro vk
    dsimp only
    rw [hintents, lookup_erase_eq]
    split_ifs
    · rfl
    · apply hw.loaded hopened
  refine ⟨⟨fun vk hvk => ?_, fun k' hk' => ?_⟩, fun vk row hrow => ?_, ?_, fun _ => hloaded⟩
  · dsimp only at hvk
    rw [hintents] at hvk
    split_ifs at hvk
    · cases hvk
    · apply hw.consistent.names vk hvk
  · rw [intent]
    dsimp only
    rw [hintents, lookup_erase_eq, if_neg (hk'.ne_pendingKey _)]
    by_cases h : k' = k
    · right
      rw [h, if_pos rfl]
      exact ⟨rfl, hremote⟩
    · rw [if_neg (hk.vssKey_ne hk' h)]
      apply hw.consistent.synced k' hk'
  · dsimp only at hrow
    rw [hintents] at hrow
    split_ifs at hrow
    · apply hw.loads vk row hrow
  · rw [← hloaded.size_pending]
    have hsize := (hw.loaded hopened).size_pending
    have hle := size_erase_le w.pending (vssKey k)
    have hbounded := hw.bounded
    dsimp only
    omega

end Invariant

/-! ### The methods keep the store in sync -/

structure OpenInSync (s : SyncedKvStore) (w : StoreWorld) : Prop extends InSync s w where
  opened : w.opened

section Methods

variable {G : Guard storeInterface StoreWorld StoreFault} {s : SyncedKvStore}
variable {w : StoreWorld} {k : Key} {value : Option Bytes}

theorem OpenInSync.sameCore {w' : StoreWorld} (hw : OpenInSync s w) (h : SameCore w w') :
  OpenInSync s w'
  := ⟨hw.toInSync.sameCore h, h.opened ▸ hw.opened⟩

/-- The pending mutation of a key is tried, and its intent is cleared once the server holds
the local value. -/
theorem replicateAndClear_wp (remote : VssKvStore) (hw : OpenInSync s w) (hk : k.Replicated)
    (hintent : w.intent k = some (encodePendingRow value)) :
  (replicateAndClear remote (vssKey k) k value).wp storeMachine G (InSync s)
    (fun _ => OpenInSync s) w
  := by
  have hvalue := hw.consistent.eq_of_intent hk hintent
  have hattempted : ∀ w', Attempted (vssKey k) value w w' → OpenInSync s w' := by
    intro w' hw'
    exact ⟨hw.attempted hk (by rw [hintent]; rfl) hw', hw'.opened ▸ hw.opened⟩
  rw [replicateAndClear]
  apply wp_seq (replicate_wp remote k value _ _)
  · rintro (e | _) w' hw'
    · exact hattempted w' hw'
    have hw'' := hattempted w' hw'.1
    have hcleared := hw''.clear hw''.opened hk (by rw [hw'.2, hw'.1.rows, hvalue])
    apply clearPendingRow_wp hw''.reboot hcleared.reboot
    · exact ⟨hcleared, hw''.opened⟩
    · intro e
      exact hw''
  · intro w' hw'
    apply (hattempted w' hw').reboot
  · intro w' hw'
    apply (hattempted w' hw').toInSync

/-- The parts of the methods keep the store in sync. -/
theorem mutationInv_openInSync (s : SyncedKvStore) (remote : VssKvStore) :
  MutationInv remote G (InSync s) (OpenInSync s)
  := by
  constructor
  · intro w w' h hw
    apply hw.sameCore h
  · intro w hw
    apply hw.toInSync
  · intro w hw
    apply hw.reboot
  · intro w pending hw hpending
    exact ⟨hw.congr rfl (fun _ => ⟨hw.opened, hpending⟩) (fun _ _ _ => rfl), hw.opened⟩
  · intro w vk k value hw hpending hparse
    obtain ⟨k', hk', rfl, -, hintent⟩ := hw.of_pending hw.opened hpending
    rw [parseVssKey_vssKey hk'.valid] at hparse
    cases hparse
    apply replicateAndClear_wp remote hw hk' hintent
  · intro w vk value hw hpending hparse
    obtain ⟨k', hk', rfl, -, -⟩ := hw.of_pending hw.opened hpending
    rw [parseVssKey_vssKey hk'.valid] at hparse
    cases hparse

theorem mutate_wp {remote : VssKvStore} (hs : s.remote = some remote) (hw : OpenInSync s w)
    (hk : k.Replicated) (hloads : s.Loads (vssKey k) (encodePendingRow value)) :
  (s.mutate remote k value).wp storeMachine G (InSync s) (fun _ => OpenInSync s) w
  := by
  apply (mutationInv_openInSync s remote).mutate hs (parseVssKey_vssKey hk.valid) _ hw
  intro w' hw' hfull
  exact ⟨hw'.commit hw'.opened hk hloads hfull _, hw'.opened⟩

end Methods

/-! ### Opening the store -/

def ReadsIntents : Guard storeInterface StoreWorld StoreFault
  | .localList primary _, .go f, _ => primary = pendingNs → f.localError? = none
  | .localRead k, .go f, _ => k.primary = pendingNs → f.localError? = none
  | _, _, _ => True

section Opening

variable {s : SyncedKvStore} {w : StoreWorld} {C : StoreWorld → Prop}

theorem wp_readIntent {vk : Str} {row : Bytes} (hrow : w.rows.lookup (pendingKey vk) = some row)
    {Q : Except IoError Bytes → StoreWorld → Prop} (hcrash : C w.reboot) (hQ : Q (.ok row) w) :
  (storeOp (.localRead (pendingKey vk))).wp storeMachine ReadsIntents C Q w
  := by
  refine ⟨fun _ => hcrash, fun f hf => ?_⟩
  have hf' : f.localError? = none := hf rfl
  simp only [StoreWorld.exec, StoreFault.localAnswer, hf', hrow, getD_some]
  exact hQ

theorem wp_listIntents {Q : Except IoError (List Str) → StoreWorld → Prop}
    (hcrash : C w.reboot) (hQ : Q (.ok (listRows w.rows pendingNs [])) w) :
  (storeOp (.localList pendingNs [])).wp storeMachine ReadsIntents C Q w
  := by
  refine ⟨fun _ => hcrash, fun f hf => ?_⟩
  have hf' : f.localError? = none := hf rfl
  simp only [StoreWorld.exec, StoreFault.localAnswer, hf', getD_some]
  exact hQ

theorem InSync.row_eq (hw : InSync s w) {vk : Str}
    (hvk : (w.rows.lookup (pendingKey vk)).isSome) :
  ∃ value, w.rows.lookup (pendingKey vk) = some (encodePendingRow value)
  := by
  obtain ⟨k, hk, rfl⟩ := hw.consistent.names vk hvk
  rcases hw.consistent.synced k hk with h | ⟨hnone, -⟩
  · exact ⟨_, h⟩
  · rw [intent] at hnone
    rw [hnone] at hvk
    cases hvk

theorem loadPending_wp (hw : InSync s w) (keys : List Str) (pending : Pending)
    (hkeys : ∀ vk ∈ keys, (w.rows.lookup (pendingKey vk)).isSome)
    {Q : Pending → StoreWorld → Prop}
    (hQ : ∀ pending' : Pending,
      (∀ vk, (pending'.lookup vk).map encodePendingRow
        = if vk ∈ keys then w.rows.lookup (pendingKey vk)
          else (pending.lookup vk).map encodePendingRow) →
      Q pending' w) :
  (s.loadPending keys pending).wp storeMachine ReadsIntents (InSync s) Q w
  := by
  induction keys generalizing pending with
  | nil =>
    apply hQ
    intro vk
    rfl
  | cons key keys ih =>
    obtain ⟨value, hrow⟩ := hw.row_eq (hkeys key List.mem_cons_self)
    have hloads := hw.loads key _ hrow
    rw [SyncedKvStore.loadPending, if_neg (fun h => h.2 (hloads h.1).1), wp_bind]
    apply wp_readIntent hrow hw.reboot
    dsimp only
    rw [if_neg (fun h => h.2 (hloads h.1).2), decodePendingRow_encodePendingRow]
    apply ih
    · intro vk hvk
      apply hkeys vk (List.mem_cons_of_mem key hvk)
    intro pending' hpending'
    apply hQ
    intro vk
    rw [hpending', lookup_insert_eq]
    by_cases hmem : vk ∈ keys
    · rw [if_pos hmem, if_pos (List.mem_cons_of_mem key hmem)]
    · rw [if_neg hmem]
      by_cases hkey : vk = key
      · rw [if_pos hkey, hkey, if_pos List.mem_cons_self, hrow]
        rfl
      · rw [if_neg hkey, if_neg (by simp [hkey, hmem])]

theorem withVss_wp (hw : InSync s w) :
  s.withVss.wp storeMachine ReadsIntents (InSync s) (fun _ => InSync s) w
  := by
  rw [SyncedKvStore.withVss, wp_bind]
  apply wp_listIntents hw.reboot
  dsimp only
  rw [wp_bind]
  apply loadPending_wp hw
  · intro vk hvk
    apply mem_listRows.mp hvk
  intro pending hpending
  refine ⟨fun _ => hw.reboot, fun _ _ => ?_⟩
  refine ⟨hw.consistent.congr rfl (fun _ _ _ => rfl), hw.loads, hw.bounded, fun _ vk => ?_⟩
  dsimp only
  rw [hpending vk]
  split_ifs with hvk
  · rfl
  · rw [mem_listRows, not_isSome_iff_eq_none] at hvk
    exact hvk

end Opening

end RgbLightning
