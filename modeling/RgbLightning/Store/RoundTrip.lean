import RgbLightning.Store.Bulk

/-!
# Backing up and restoring the local database

The rows of a local database are pushed to a server, and restored from there into another
one.  When nothing fails, both succeed, whatever the sizes of the pages are.  The other
database then has exactly the rows that are not local only if none of them has the namespace
`_` (`restored_iff`): that is the remote name of the empty namespace, under which such a row
comes back, or hides another one (`underscore_not_restored`).
-/

namespace RgbLightning

open Prog StoreWorld SyncedKvStore VssKvStore Objects StoreFault List

/-! ### Undisturbed programs -/

/-- Nothing fails.  The sizes of pages are left to the server. -/
def StoreFault.Quiet (f : StoreFault) : Prop :=
  f = .calm ∨ ∃ size, f = .page size

def Peaceful : Guard storeInterface StoreWorld StoreFault
  | _, .crash, _ => False
  | _, .go f, _ => f.Quiet

/-- A program that nothing interferes with returns, and then `Q` holds. -/
abbrev Succeeds {α : Type} (p : Store α) (Q : α → StoreWorld → Prop) (w : StoreWorld) : Prop :=
  p.wp storeMachine Peaceful (fun _ => False) Q w

section Peaceful

variable {α : Type} {w w' : StoreWorld} {Q : α → StoreWorld → Prop}

theorem succeeds_bind {β : Type} (p : Store β) (f : β → Store α) :
  Succeeds (p >>= f) Q w ↔ Succeeds p (fun a w' => Succeeds (f a) Q w') w
  := wp_bind p f Q w

/-- An operation with one possible answer. -/
theorem succeeds_op {o : StoreOp} {x : o.Ans} {Q : o.Ans → StoreWorld → Prop}
    (hcalm : storeMachine.exec .calm o w = (some x, w'))
    (hpage : ∀ size, storeMachine.exec (.page size) o w = (some x, w')) (hQ : Q x w') :
  Succeeds (storeOp o) Q w
  := by
  refine ⟨fun h => h, ?_⟩
  rintro f (rfl | ⟨size, rfl⟩)
  · rw [hcalm]
    exact hQ
  · rw [hpage size]
    exact hQ

/-- A program that succeeds returns along fates that do not disturb it. -/
theorem result_of_succeeds {p : Store α} (hp : Succeeds p Q w) (fs : List (Fate StoreFault))
    (hfs : ∀ f ∈ fs, ∃ g : StoreFault, f = .go g ∧ g.Quiet) :
  ∃ a, p.result storeMachine w fs = some a ∧ Q a (p.world storeMachine w fs)
  := by
  have hadmits : p.Admits storeMachine Peaceful w fs := by
    apply admits_of_forall
    · intro o w
      exact Or.inl rfl
    · intro f hf o w
      obtain ⟨g, rfl, hg⟩ := hfs f hf
      exact hg
  obtain ⟨hreturned, hstopped⟩ := exec_of_wp p w fs hp hadmits
  rcases hr : p.result storeMachine w fs with _ | a
  · exact (hstopped hr).elim
  · exact ⟨a, rfl, hreturned a hr⟩

/-! ### Reading the server -/

theorem succeeds_listKeyVersions {token : Option ℕ}
    {Q : Except VssError (List Str × Option ℕ) → StoreWorld → Prop}
    (hlast : Q (.ok (w.server.keys.drop (token.getD 0), none)) w)
    (hmore : ∀ n, 0 < n → token.getD 0 + n < w.server.keys.length →
      Q (.ok ((w.server.keys.drop (token.getD 0)).take n, some (token.getD 0 + n))) w) :
  Succeeds (storeOp (.listKeyVersions token)) Q w
  := by
  refine ⟨fun h => h, ?_⟩
  rintro f (rfl | ⟨size, rfl⟩)
  · exact hlast
  simp only [StoreWorld.exec, StoreFault.remoteAnswer, StoreFault.remoteError?,
    StoreWorld.listPage, Option.getD_some]
  split_ifs with h
  · rw [length_drop] at h
    apply hmore
    · omega
    · omega
  · rw [take_of_length_le (Nat.le_of_not_lt h)]
    exact hlast

theorem succeeds_fetch (keys : List Str)
    {Q : List (Except VssError (Option KeyValue)) → StoreWorld → Prop}
    (hQ : Q (keys.map fun key => .ok (Objects.get w.server key)) w) :
  Succeeds (fetch keys) Q w
  := by
  induction keys generalizing Q with
  | nil => exact hQ
  | cons key keys ih =>
    rw [fetch, succeeds_bind]
    apply succeeds_op rfl (fun _ => rfl)
    have hrest : Succeeds (fetch keys >>= fun rest =>
        pure (.ok (Objects.get w.server key) :: rest)) Q w := by
      rw [succeeds_bind]
      exact ih hQ
    rcases hobject : Objects.get w.server key with _ | item
    · rw [hobject] at hrest
      exact hrest
    · rw [hobject] at hrest
      exact hrest

theorem succeeds_decryptAll (keys : List Str)
    {Q : Except IoError (List (Str × Bytes)) → StoreWorld → Prop}
    (hQ : Q (.ok (w.valuesOf keys)) w) :
  Succeeds (VssKvStore.decryptAll (keys.map fun key => .ok (Objects.get w.server key))) Q w
  := by
  induction keys generalizing Q with
  | nil => exact hQ
  | cons key keys ih =>
    rw [map_cons]
    rcases hobject : w.server.lookup key with _ | object
    · have hvalue : w.remoteValue key = none := by
        rw [remoteValue, hobject]
        rfl
      rw [Objects.get, hobject, Option.map_none, VssKvStore.decryptAll]
      apply ih
      rw [valuesOf, filterMap_cons, hvalue] at hQ
      exact hQ
    have hvalue : w.remoteValue key = some object.value := by
      rw [remoteValue, hobject]
      rfl
    rw [Objects.get, hobject, Option.map_some, VssKvStore.decryptAll, succeeds_bind]
    apply succeeds_op rfl (fun _ => rfl)
    dsimp only [localAnswer, localError?]
    rw [succeeds_bind]
    apply ih
    rw [valuesOf, filterMap_cons, hvalue] at hQ
    exact hQ

theorem succeeds_listAllKeysFrom (remote : VssKvStore) (pages : ℕ) (token : Option ℕ)
    (hpages : w.server.keys.length - token.getD 0 < pages)
    {Q : Except IoError (List Str) → StoreWorld → Prop}
    (hQ : Q (.ok (w.listedFrom (token.getD 0))) w) :
  Succeeds (remote.listAllKeysFrom pages token) Q w
  := by
  induction pages generalizing token Q with
  | zero => omega
  | succ pages ih =>
    rw [listAllKeysFrom, succeeds_bind]
    apply succeeds_listKeyVersions
    · exact hQ
    intro n hn hmore
    dsimp only
    rw [succeeds_bind]
    apply ih
    · dsimp only [Option.getD_some]
      omega
    · dsimp only [Option.getD_some]
      rw [← listedFrom_split w _ n] at hQ
      exact hQ

theorem succeeds_downloadAllFrom (remote : VssKvStore) (pages : ℕ) (token : Option ℕ)
    (hpages : w.server.keys.length - token.getD 0 < pages)
    {Q : Except IoError (List (Str × Bytes)) → StoreWorld → Prop}
    (hQ : Q (.ok (w.valuesOf (w.listedFrom (token.getD 0)))) w) :
  Succeeds (remote.downloadAllFrom pages token) Q w
  := by
  induction pages generalizing token Q with
  | zero => omega
  | succ pages ih =>
    rw [downloadAllFrom, succeeds_bind]
    apply succeeds_listKeyVersions
    · dsimp only
      rw [succeeds_bind]
      apply succeeds_fetch
      rw [succeeds_bind]
      apply succeeds_decryptAll
      exact hQ
    intro n hn hmore
    dsimp only
    rw [succeeds_bind]
    apply succeeds_fetch
    rw [succeeds_bind]
    apply succeeds_decryptAll
    dsimp only
    rw [succeeds_bind]
    apply ih
    · dsimp only [Option.getD_some]
      omega
    · dsimp only [Option.getD_some]
      rw [← listedFrom_split w _ n, valuesOf, filterMap_append] at hQ
      exact hQ

end Peaceful

/-! ### Pushing -/

/-- No other instance owns the fence. -/
def OwnFence (remote : VssKvStore) (w : StoreWorld) : Prop :=
  ∀ object, w.server.lookup fenceKey = some object → object.value = remote.instanceId

section Push

variable {remote : VssKvStore} {w : StoreWorld}

theorem succeeds_checkFencePeriodic (hfence : OwnFence remote w)
    {Q : Unit → StoreWorld → Prop}
    (hQ : Q () { w with writeCounter := w.writeCounter + 1 }) :
  Succeeds remote.checkFencePeriodic Q w
  := by
  rw [checkFencePeriodic, succeeds_bind]
  apply succeeds_op rfl (fun _ => rfl)
  split_ifs
  · exact hQ
  rw [succeeds_bind]
  apply succeeds_op rfl (fun _ => rfl)
  dsimp only
  rcases hobject : w.server.lookup fenceKey with _ | object
  · simp only [Objects.get, hobject, Option.map_none, StoreFault.remoteAnswer,
      StoreFault.remoteError?]
    exact hQ
  · simp only [Objects.get, hobject, Option.map_some, StoreFault.remoteAnswer,
      StoreFault.remoteError?, if_pos (hfence object hobject)]
    exact hQ

theorem succeeds_write (hfence : OwnFence remote w) {k : Key} {value : Bytes}
    {Q : Except IoError Unit → StoreWorld → Prop}
    (hQ : ∀ w', w'.rows = w.rows →
      w'.server = w.server.insert (vssKey k) ⟨1, value, Int.one_pos⟩ → Q (.ok ()) w') :
  Succeeds (remote.write k value) Q w
  := by
  rw [VssKvStore.write, succeeds_bind]
  apply succeeds_checkFencePeriodic hfence
  rw [putValue, succeeds_bind]
  apply succeeds_op rfl (fun _ => rfl)
  dsimp only [localAnswer, localError?]
  rw [succeeds_bind]
  let w1 : StoreWorld := { w with writeCounter := w.writeCounter + 1 }
  let request := KeyValue.toWrite ⟨vssKey k, -1, value⟩
  have hrecord := sameCore_recordRequest w1 request
  have hput : (w1.recordRequest request).put request = (.ok (),
      { w1.recordRequest request with
        server := w.server.insert (vssKey k) ⟨1, value, Int.one_pos⟩ }) := by
    rw [StoreWorld.put, Objects.put_unconditional, hrecord.server]
  apply succeeds_op (o := .putObject request)
  · simp only [StoreWorld.exec, putObject]
    rw [show ({ w with writeCounter := w.writeCounter + 1 } : StoreWorld) = w1 from rfl, hput]
    rfl
  · intro size
    simp only [StoreWorld.exec, putObject]
    rw [show ({ w with writeCounter := w.writeCounter + 1 } : StoreWorld) = w1 from rfl, hput]
    rfl
  · exact hQ _ hrecord.rows rfl

structure PushedRows (rows : List (Key × Bytes)) (w w' : StoreWorld) : Prop where
  unchanged : w'.rows = w.rows
  origin : ∀ vk value, w'.remoteValue vk = some value → w.remoteValue vk = some value
    ∨ ∃ k, (k, value) ∈ rows ∧ isLocalOnly k = false ∧ vk = vssKey k
  stays : ∀ vk, (w.remoteValue vk).isSome → (w'.remoteValue vk).isSome
  present : ∀ k value, (k, value) ∈ rows → isLocalOnly k = false →
    (w'.remoteValue (vssKey k)).isSome

theorem succeeds_pushRows (rows : List (Key × Bytes)) (hfence : OwnFence remote w) :
  Succeeds (pushRows remote [] rows)
    (fun r w' => (∃ pushed, r = .ok pushed) ∧ PushedRows rows w w') w
  := by
  induction rows generalizing w with
  | nil =>
    refine ⟨⟨0, rfl⟩, rfl, fun _ _ h => Or.inl h, fun _ h => h, ?_⟩
    intro _ _ hmem
    cases hmem
  | cons row rows ih =>
    obtain ⟨k, value⟩ := row
    rw [pushRows]
    split
    · rename_i hlocal
      have hk : isLocalOnly k = true := by simpa using hlocal
      apply wp_imp (ih hfence)
      rintro r w' ⟨hr, h⟩
      refine ⟨hr, h.unchanged, fun vk value' hvalue => ?_, h.stays, ?_⟩
      · rcases h.origin vk value' hvalue with hold | ⟨k', hmem, hk', hvk⟩
        · exact Or.inl hold
        · exact Or.inr ⟨k', mem_cons_of_mem _ hmem, hk', hvk⟩
      intro k' value' hmem hk'
      rcases mem_cons.mp hmem with heq | hmem
      · cases heq
        rw [hk] at hk'
        cases hk'
      · exact h.present k' value' hmem hk'
    rename_i hlocal
    have hk : isLocalOnly k = false := by simpa using hlocal
    rw [succeeds_bind]
    apply succeeds_write hfence
    intro w1 hrows hserver
    have hvalue : ∀ vk, w1.remoteValue vk
        = if vk = vssKey k then some value else w.remoteValue vk := by
      intro vk
      rw [remoteValue, hserver, Table.lookup_insert_eq]
      split_ifs <;> rfl
    have hfence1 : OwnFence remote w1 := by
      intro object hobject
      rw [hserver, Table.lookup_insert_eq, if_neg (vssKey_ne_fenceKey k)] at hobject
      exact hfence object hobject
    dsimp only
    rw [succeeds_bind]
    apply wp_imp (ih hfence1)
    rintro r w' ⟨⟨pushed, rfl⟩, h⟩
    refine ⟨⟨pushed + 1, rfl⟩, h.unchanged.trans hrows, ?_, ?_, ?_⟩
    · intro vk value' hvalue'
      rcases h.origin vk value' hvalue' with hold | ⟨k', hmem, hk', hvk⟩
      · rw [hvalue vk] at hold
        split_ifs at hold with heq
        · cases hold
          exact Or.inr ⟨k, mem_cons_self, hk, heq⟩
        · exact Or.inl hold
      · exact Or.inr ⟨k', mem_cons_of_mem _ hmem, hk', hvk⟩
    · intro vk hvk
      apply h.stays
      rw [hvalue vk]
      split_ifs
      · rfl
      · exact hvk
    · intro k' value' hmem hk'
      rcases mem_cons.mp hmem with heq | hmem
      · cases heq
        apply h.stays
        rw [hvalue, if_pos rfl]
        rfl
      · exact h.present k' value' hmem hk'

/-- The server has no objects, except that this instance may own the fence. -/
structure EmptyServer (remote : VssKvStore) (w : StoreWorld) : Prop where
  fence : OwnFence remote w
  empty : ∀ vk, vk ≠ fenceKey → w.server.lookup vk = none

theorem EmptyServer.listedFrom (hw : EmptyServer remote w) :
  w.listedFrom 0 = []
  := by
  apply eq_nil_iff_forall_not_mem.mpr
  intro vk hvk
  obtain ⟨hvalue, hne⟩ := mem_listedFrom_zero.mp hvk
  rw [remoteValue, hw.empty vk hne] at hvalue
  cases hvalue

theorem succeeds_pushMissingToVss {s : SyncedKvStore} (hs : s.commonConfigOnly = false)
    (hr : s.remote = some remote) (hw : EmptyServer remote w) {pages : ℕ}
    (hpages : w.server.keys.length < pages) :
  Succeeds (s.pushMissingToVss pages) (fun r w' => (∃ pushed, r = .ok pushed)
    ∧ PushedRows (w.rows.entries.map fun e => (e.1, e.2)) w w') w
  := by
  have hcheck : s.checkBulkSync = .ok () := by
    simp [checkBulkSync, hs]
  rw [pushMissingToVss, hcheck, hr]
  dsimp only
  rw [succeeds_bind]
  apply succeeds_listAllKeysFrom remote pages none hpages
  dsimp only [Option.getD_none]
  rw [succeeds_bind, hw.listedFrom]
  apply succeeds_op rfl (fun _ => rfl)
  exact succeeds_pushRows _ hw.fence

end Push

/-! ### Restoring -/

section Restore

variable {w : StoreWorld}

structure RestoredRows (items : List (Str × Bytes)) (w w' : StoreWorld) : Prop where
  origin : ∀ k value, w'.rows.lookup k = some value → w.rows.lookup k = some value
    ∨ ∃ vk, (vk, value) ∈ items ∧ parseVssKey vk = some k
  stays : ∀ k, (w.rows.lookup k).isSome → (w'.rows.lookup k).isSome
  present : ∀ vk value k, (vk, value) ∈ items → parseVssKey vk = some k →
    (w'.rows.lookup k).isSome

theorem succeeds_restoreItems (items : List (Str × Bytes)) :
  Succeeds (restoreItems items) (fun _ w' => RestoredRows items w w') w
  := by
  induction items generalizing w with
  | nil =>
    refine ⟨fun _ _ h => Or.inl h, fun _ h => h, ?_⟩
    intro _ _ _ hmem
    cases hmem
  | cons item items ih =>
    obtain ⟨vk, value⟩ := item
    rw [restoreItems]
    rcases hparse : parseVssKey vk with _ | k
    · apply wp_imp ih
      intro _ w' h
      refine ⟨fun k value' hvalue => ?_, h.stays, ?_⟩
      · rcases h.origin k value' hvalue with hold | ⟨vk', hmem, hvk'⟩
        · exact Or.inl hold
        · exact Or.inr ⟨vk', mem_cons_of_mem _ hmem, hvk'⟩
      intro vk' value' k hmem hparse'
      rcases mem_cons.mp hmem with heq | hmem
      · cases heq
        rw [hparse] at hparse'
        cases hparse'
      · exact h.present vk' value' k hmem hparse'
    dsimp only
    rw [succeeds_bind]
    apply succeeds_op rfl (fun _ => rfl)
    have hlookup : ∀ k', (w.rows.insert k value).lookup k'
        = if k' = k then some value else w.rows.lookup k' :=
      fun k' => Table.lookup_insert_eq _ _ _ _
    dsimp only [transact, localError?]
    rw [succeeds_bind]
    apply wp_imp ih
    intro _ w' h
    refine ⟨fun k' value' hvalue => ?_, fun k' hk' => ?_, ?_⟩
    · rcases h.origin k' value' hvalue with hold | ⟨vk', hmem, hvk'⟩
      · dsimp only at hold
        rw [hlookup] at hold
        split_ifs at hold with heq
        · cases hold
          exact Or.inr ⟨vk, mem_cons_self, heq ▸ hparse⟩
        · exact Or.inl hold
      · exact Or.inr ⟨vk', mem_cons_of_mem _ hmem, hvk'⟩
    · apply h.stays
      dsimp only
      rw [hlookup]
      split_ifs
      · rfl
      · exact hk'
    · intro vk' value' k' hmem hparse'
      rcases mem_cons.mp hmem with heq | hmem
      · cases heq
        rw [hparse] at hparse'
        cases hparse'
        apply h.stays
        dsimp only
        rw [hlookup, if_pos rfl]
        rfl
      · exact h.present vk' value' k' hmem hparse'

theorem succeeds_restoreFromVss {s : SyncedKvStore} {remote : VssKvStore}
    (hs : s.commonConfigOnly = false) (hr : s.remote = some remote) (hw : w.rows = ∅)
    (force : Bool) {pages : ℕ} (hpages : w.server.keys.length < pages) :
  Succeeds (s.restoreFromVss force pages) (fun r w' => (∃ restored, r = .ok restored)
    ∧ RestoredRows (w.valuesOf (w.listedFrom 0)) w w') w
  := by
  have hcheck : s.checkBulkSync = .ok () := by
    simp [checkBulkSync, hs]
  have hforced : Succeeds (s.restoreFromVss true pages) (fun r w' =>
      (∃ restored, r = .ok restored) ∧ RestoredRows (w.valuesOf (w.listedFrom 0)) w w') w := by
    rw [restoreFromVss, hcheck, hr]
    change Succeeds (remote.downloadAll pages >>= _) _ _
    rw [succeeds_bind]
    apply succeeds_downloadAllFrom remote pages none hpages
    dsimp only [Option.getD_none]
    rw [succeeds_bind]
    apply wp_imp (succeeds_restoreItems _)
    intro restored w' h
    exact ⟨⟨restored, rfl⟩, h⟩
  cases force with
  | true => exact hforced
  | false =>
    rw [restoreFromVss, hcheck, hr] at hforced ⊢
    simp only [Bool.false_eq_true, if_false]
    rw [succeeds_bind]
    apply succeeds_op rfl (fun _ => rfl)
    have hnone : w.rows.lookup channelManagerKey = none := by
      rw [hw]
      rfl
    simp only [hnone, localAnswer, localError?]
    exact hforced

end Restore

/-! ### The round trip -/

structure Key.LdkValid (k : Key) : Prop where
  primary : validName k.primary
  secondary : validName k.secondary
  key : validName k.key
  key_ne : k.key ≠ []
  nested : k.primary = [] → k.secondary = []

theorem Key.LdkValid.parsable_iff {k : Key} (hk : k.LdkValid) :
  k.Parsable ↔ k.primary ≠ str "_" ∧ k.secondary ≠ str "_"
  := by
  constructor
  · intro h
    exact ⟨h.primary_ne, h.secondary_ne⟩
  · rintro ⟨hprimary, hsecondary⟩
    exact ⟨slash_notMem_of_validName hk.primary, slash_notMem_of_validName hk.secondary,
      hk.key_ne, hprimary, hsecondary⟩

/-- The rows that are not local only. -/
def backedUp (rows : Table Key Bytes) (k : Key) : Option Bytes :=
  if isLocalOnly k then none else rows.lookup k

/-- What is restored from pushed rows is what was pushed, if its keys can be read back from
their remote names. -/
theorem backedUp_iff {remote : VssKvStore} {w w' w2 w2' : StoreWorld}
    (hw : EmptyServer remote w)
    (hpushed : PushedRows (w.rows.entries.map fun e => (e.1, e.2)) w w')
    (hrows : w2.rows = ∅) (hserver : w2.server = w'.server)
    (hrestored : RestoredRows (w2.valuesOf (w2.listedFrom 0)) w2 w2') :
  (∀ k, w2'.rows.lookup k = backedUp w.rows k)
    ↔ ∀ k, (backedUp w.rows k).isSome → k.Parsable
  := by
  have hmem : ∀ k value, (k, value) ∈ (w.rows.entries.map fun e => (e.1, e.2)) ↔
      w.rows.lookup k = some value := by
    intro k value
    rw [mem_map]
    constructor
    · rintro ⟨⟨k', value'⟩, hentry, heq⟩
      cases heq
      exact AList.mem_lookup_iff.mpr hentry
    · intro h
      exact ⟨⟨k, value⟩, AList.mem_lookup_iff.mp h, rfl⟩
  have hvalue : ∀ vk, w2.remoteValue vk = w'.remoteValue vk := by
    intro vk
    rw [remoteValue, remoteValue, hserver]
  have hitem : ∀ vk value, (vk, value) ∈ w2.valuesOf (w2.listedFrom 0) ↔
      vk ≠ fenceKey ∧ w'.remoteValue vk = some value := by
    intro vk value
    rw [mem_valuesOf, mem_listedFrom_zero, hvalue]
    constructor
    · rintro ⟨⟨_, hne⟩, h⟩
      exact ⟨hne, h⟩
    · rintro ⟨hne, h⟩
      exact ⟨⟨by rw [h]; rfl, hne⟩, h⟩
  -- Every restored row was read back from the remote name of a pushed row.
  have horigin : ∀ k value, w2'.rows.lookup k = some value → ∃ k', parseVssKey (vssKey k') = some k
      ∧ backedUp w.rows k' = some value := by
    intro k value h
    rcases hrestored.origin k value h with hold | ⟨vk, hvk, hparse⟩
    · rw [hrows] at hold
      cases hold
    obtain ⟨hne, hremote⟩ := (hitem vk value).mp hvk
    rcases hpushed.origin vk value hremote with hold | ⟨k', hk', hlocal, rfl⟩
    · rw [remoteValue, hw.empty vk hne] at hold
      cases hold
    · refine ⟨k', hparse, ?_⟩
      rw [backedUp, hlocal]
      exact (hmem k' value).mp hk'
  constructor
  · intro hsame k hk
    obtain ⟨value, hbacked⟩ := Option.isSome_iff_exists.mp hk
    obtain ⟨k', hparse, -⟩ := horigin k value ((hsame k).trans hbacked)
    exact parsable_of_parseVssKey hparse
  · intro hparsable k
    rcases hrestoredRow : w2'.rows.lookup k with _ | value
    · rcases hbacked : backedUp w.rows k with _ | value
      · rfl
      -- A pushed row is on the server, so it is restored.
      have hk := hparsable k (by rw [hbacked]; rfl)
      rw [backedUp] at hbacked
      split_ifs at hbacked with hlocal
      have hpresent := hpushed.present k value ((hmem k value).mpr hbacked)
        (Bool.eq_false_iff.mpr hlocal)
      obtain ⟨value', hvalue'⟩ := Option.isSome_iff_exists.mp hpresent
      have hrow := hrestored.present (vssKey k) value' k
        ((hitem _ _).mpr ⟨(vssKey_ne_fenceKey k).symm, hvalue'⟩) hk.parse
      rw [hrestoredRow] at hrow
      cases hrow
    · obtain ⟨k', hparse, hbacked⟩ := horigin k value hrestoredRow
      have hk' := hparsable k' (by rw [hbacked]; rfl)
      rw [hk'.parse] at hparse
      obtain rfl : k' = k := Option.some.inj hparse
      exact hbacked.symm

/-- When nothing fails, the rows of a local database are pushed to an empty server and
restored from there into an empty database.  That reproduces the rows that are not local
only, and nothing else, if and only if their keys can be read back from their remote names.
For a key LDK admits this means that neither namespace is `_`, and different keys then have
different remote names. -/
theorem restored_iff {s s₂ : SyncedKvStore} {remote remote₂ : VssKvStore}
    (hs : s.commonConfigOnly = false) (hr : s.remote = some remote)
    (hs₂ : s₂.commonConfigOnly = false) (hr₂ : s₂.remote = some remote₂)
    {w w₂ : StoreWorld} (hw : EmptyServer remote w) (force : Bool) {pages pages₂ : ℕ}
    {fs fs₂ : List (Fate StoreFault)}
    (hfs : ∀ f ∈ fs ++ fs₂, ∃ g : StoreFault, f = .go g ∧ g.Quiet)
    (hpages : w.server.keys.length < pages) (hrows : w₂.rows = ∅)
    (hserver : w₂.server = ((s.pushMissingToVss pages).world storeMachine w fs).server)
    (hpages₂ : w₂.server.keys.length < pages₂) :
  (∃ pushed, (s.pushMissingToVss pages).result storeMachine w fs = some (.ok pushed))
    ∧ (∃ restored, (s₂.restoreFromVss force pages₂).result storeMachine w₂ fs₂
        = some (.ok restored))
    ∧ ((∀ k, ((s₂.restoreFromVss force pages₂).world storeMachine w₂ fs₂).rows.lookup k
          = backedUp w.rows k)
        ↔ ∀ k, (backedUp w.rows k).isSome → k.Parsable)
    ∧ (∀ k : Key, k.LdkValid →
        (parseVssKey (vssKey k) = some k ↔ k.primary ≠ str "_" ∧ k.secondary ≠ str "_")
          ∧ (k.Parsable ↔ k.primary ≠ str "_" ∧ k.secondary ≠ str "_"))
    ∧ (∀ k k' : Key, k.Parsable → k'.Parsable → vssKey k = vssKey k' → k = k')
  := by
  obtain ⟨r, hresult, ⟨pushed, rfl⟩, hpushed⟩ := result_of_succeeds
    (succeeds_pushMissingToVss hs hr hw hpages) fs
    (fun f hf => hfs f (mem_append_left _ hf))
  obtain ⟨r₂, hresult₂, ⟨restored, rfl⟩, hrestored⟩ := result_of_succeeds
    (succeeds_restoreFromVss hs₂ hr₂ hrows force hpages₂) fs₂
    (fun f hf => hfs f (mem_append_right _ hf))
  refine ⟨⟨pushed, hresult⟩, ⟨restored, hresult₂⟩,
    backedUp_iff hw hpushed hrows hserver hrestored, fun k hk => ⟨?_, hk.parsable_iff⟩, ?_⟩
  · rw [← hk.parsable_iff]
    exact ⟨parsable_of_parseVssKey, Key.Parsable.parse⟩
  · intro k k' hk hk' heq
    have hparse := hk.parse
    rw [heq, hk'.parse] at hparse
    exact (Option.some.inj hparse).symm

def backupStore : SyncedKvStore := ⟨false, some ⟨str "node"⟩, 2, Nat.two_pos⟩

/-- A channel manager, a monitor and an intent. -/
def backupRows : StoreWorld where
  rows := Table.ofList [(channelManagerKey, str "manager"),
    (⟨str "monitors", [], str "m"⟩, str "monitor"), (pendingKey (str "x"), [0])]

/-- The backup is listed in pages of one key. -/
def smallPages : List (Fate StoreFault) := replicate 20 (.go (.page 0))

theorem restored_iff_backupRows :
  let server := ((backupStore.pushMissingToVss 1).world storeMachine backupRows []).server
  let w := (backupStore.restoreFromVss false 3).world storeMachine { server } smallPages
  (∀ k, w.rows.lookup k = backedUp backupRows.rows k)
    ↔ ∀ k, (backedUp backupRows.rows k).isSome → k.Parsable
  := by
  have hempty : EmptyServer ⟨str "node"⟩ backupRows := by
    refine ⟨fun object h => ?_, fun _ _ => rfl⟩
    cases h
  have hquiet : ∀ f ∈ [] ++ smallPages, ∃ g : StoreFault, f = .go g ∧ g.Quiet := by
    intro f hf
    exact ⟨.page 0, eq_of_mem_replicate hf, Or.inr ⟨0, rfl⟩⟩
  intro server w
  have hpages : backupRows.server.keys.length < 1 := by decide
  have hpages₂ : ({ server } : StoreWorld).server.keys.length < 3 := by decide +kernel
  have hs : backupStore.commonConfigOnly = false := rfl
  have hr : backupStore.remote = some ⟨str "node"⟩ := rfl
  have hrows : ({ server } : StoreWorld).rows = ∅ := rfl
  exact (restored_iff hs hr hs hr hempty false hquiet hpages hrows rfl hpages₂).2.2.1

/-- A key of a namespace `_`, which LDK admits. -/
def underscoreKey : Key := ⟨str "_", [], str "x"⟩

def underscoreRows : StoreWorld where
  rows := Table.ofList [(underscoreKey, str "value")]

/-- The row of a namespace `_` comes back under the empty namespace. -/
theorem underscore_not_restored :
  let server := ((backupStore.pushMissingToVss 1).world storeMachine underscoreRows []).server
  let w := (backupStore.restoreFromVss false 2).world storeMachine { server } []
  underscoreKey.LdkValid ∧ backedUp underscoreRows.rows underscoreKey = some (str "value")
    ∧ w.rows.lookup underscoreKey = none
    ∧ w.rows.lookup ⟨[], [], str "x"⟩ = some (str "value")
    ∧ vssKey underscoreKey = vssKey ⟨[], [], str "x"⟩
  := by
  refine ⟨⟨by decide, by decide, by decide, by decide, by decide⟩, ?_, ?_, ?_, ?_⟩
  all_goals decide +kernel

end RgbLightning
