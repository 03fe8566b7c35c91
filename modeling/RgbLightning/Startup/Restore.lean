import RgbLightning.Store.Bulk
import RgbLightning.Store.Mutations
import RgbLightning.Startup.Unlock

/-!
# Restoring before the node starts

A node that starts from an empty local database restores what is on the server.  It should
not start before the local database holds all of it, and not with a channel manager that
does not know an open channel.

Whether to restore is decided by the presence of the channel manager, and whether to check
it by the number of keys this attempt restored.  So an attempt that is interrupted between
the two lets the next one start without either.  If attempts are interrupted only in worlds
where the next one may skip both (`SafeToSkip`), the node starts as it should.
-/

namespace RgbLightning

open Prog Table StoreWorld SyncedKvStore List Option

/-! ### What a started node needs -/

/-- The local database holds every key that can be restored from the server. -/
def HoldsAll (w : StoreWorld) : Prop :=
  ∀ vk k, (w.remoteValue vk).isSome → parseVssKey vk = some k → (w.rows.lookup k).isSome

def StoreWorld.monitorRows (w : StoreWorld) (k : Key) : Option Bytes :=
  if isMonitorKey k then w.rows.lookup k else none

variable (reader : LightningReader)

/-- The channels of the manager that is loaded: of the stored one, or of a fresh one. -/
def LightningReader.channels (w : StoreWorld) (monitors : List ChannelMonitor) :
    Option (List Bytes) :=
  match w.rows.lookup channelManagerKey with
  | some bytes => reader.manager bytes monitors
  | none => some []

/-- The open channels the loaded manager does not know, if the records can be read. -/
def LightningReader.lost (w : StoreWorld) : Option (List Bytes) := do
  let monitors ← reader.monitors w.monitorRows
  let channels ← reader.channels w monitors
  pure (lostChannels monitors channels)

/-- If there is a channel manager, then everything is restored and no open channel is lost. -/
def SafeToSkip (w : StoreWorld) : Prop :=
  (w.rows.lookup channelManagerKey).isSome →
    HoldsAll w ∧ ∀ ids, reader.lost w = some ids → ids = []

/-! ### The invariant of attempts -/

/-- What attempts keep: the rows can be named on the server, the intents ask to write common
configuration that is present, and the server has something to restore, but no intents. -/
structure RestoreInv (w : StoreWorld) : Prop where
  names : ∀ k, (w.rows.lookup k).isSome → k.primary ≠ pendingNs → k.Parsable
  intents : ∀ vk row, w.rows.lookup (pendingKey vk) = some row →
    ∃ c v, isCommonConfig c ∧ vk = vssKey c ∧ row = encodePendingRow (some v)
      ∧ (w.rows.lookup c).isSome
  pending : ∀ vk value, w.pending.lookup vk = some value →
    ∃ c v, isCommonConfig c ∧ vk = vssKey c ∧ value = some v ∧ (w.rows.lookup c).isSome
  remote : ∀ vk k, (w.remoteValue vk).isSome → parseVssKey vk = some k → k.primary ≠ pendingNs
  populated : ∃ vk k, (w.remoteValue vk).isSome ∧ parseVssKey vk = some k

/-- The worlds agree on all rows but the common configuration and the intents, no row is
lost, and what is new on the server is present. -/
structure Keeps (w w' : StoreWorld) : Prop where
  rows : ∀ k, isCommonConfig k = false → k.primary ≠ pendingNs →
    w'.rows.lookup k = w.rows.lookup k
  stays : ∀ k, k.primary ≠ pendingNs → (w.rows.lookup k).isSome → (w'.rows.lookup k).isSome
  remote : ∀ vk k, (w'.remoteValue vk).isSome → parseVssKey vk = some k →
    (w.remoteValue vk).isSome ∨ (w'.rows.lookup k).isSome

theorem ne_fenceKey_of_parse {vk : Str} {k : Key} (h : parseVssKey vk = some k) :
  vk ≠ fenceKey
  := by
  rintro rfl
  have hnone : parseVssKey fenceKey = none := by decide
  rw [hnone] at h
  cases h

section Keeps

variable {reader : LightningReader} {w w' w'' : StoreWorld}

theorem Keeps.refl (w : StoreWorld) :
  Keeps w w
  := ⟨fun _ _ _ => rfl, fun _ _ h => h, fun _ _ h _ => Or.inl h⟩

theorem Keeps.trans (hw' : RestoreInv w') (h : Keeps w w') (h' : Keeps w' w'') :
  Keeps w w''
  := by
  constructor
  · intro k hconfig hpending
    rw [h'.rows k hconfig hpending, h.rows k hconfig hpending]
  · intro k hpending hk
    apply h'.stays k hpending (h.stays k hpending hk)
  · intro vk k hvk hparse
    rcases h'.remote vk k hvk hparse with hold | hrow
    · rcases h.remote vk k hold hparse with hold' | hrow
      · exact Or.inl hold'
      · exact Or.inr (h'.stays k (hw'.remote vk k hold hparse) hrow)
    · exact Or.inr hrow

theorem Keeps.holdsAll (hw : RestoreInv w) (h : Keeps w w') (hall : HoldsAll w) :
  HoldsAll w'
  := by
  intro vk k hvk hparse
  rcases h.remote vk k hvk hparse with hold | hrow
  · apply h.stays k (hw.remote vk k hold hparse) (hall vk k hold hparse)
  · exact hrow

theorem Keeps.manager (h : Keeps w w') :
  w'.rows.lookup channelManagerKey = w.rows.lookup channelManagerKey
  := h.rows channelManagerKey (by decide) (by decide)

theorem Keeps.lost (h : Keeps w w') :
  reader.lost w' = reader.lost w
  := by
  have hmonitors : w'.monitorRows = w.monitorRows := by
    funext k
    rw [StoreWorld.monitorRows, StoreWorld.monitorRows]
    split_ifs with hk
    · -- The namespaces of the monitors are neither that of the configuration nor of intents.
      simp only [isMonitorKey, decide_eq_true_eq] at hk
      apply h.rows k
      · simp only [isCommonConfig, decide_eq_false_iff_not]
        rintro ⟨hprimary, -⟩
        rw [hprimary] at hk
        exact absurd hk (by decide)
      · rintro hprimary
        rw [hprimary] at hk
        exact absurd hk (by decide)
    · rfl
  simp only [LightningReader.lost, LightningReader.channels, hmonitors, h.manager]

theorem Keeps.safeToSkip (hw : RestoreInv w) (h : Keeps w w') (hsafe : SafeToSkip reader w) :
  SafeToSkip reader w'
  := by
  intro hmanager
  rw [h.manager] at hmanager
  obtain ⟨hall, hlost⟩ := hsafe hmanager
  rw [h.lost]
  exact ⟨h.holdsAll hw hall, hlost⟩

end Keeps

/-! ### What keeps the invariant -/

section Invariant

variable {w w' w₀ : StoreWorld}

variable (hw : RestoreInv w)
include hw

/-- Worlds with the same rows, where nothing new is pending. -/
theorem RestoreInv.congr (hrows : w'.rows = w.rows)
    (hpending : ∀ vk value, w'.pending.lookup vk = some value →
      w.pending.lookup vk = some value)
    (hremote : ∀ vk, vk ≠ fenceKey → w'.remoteValue vk = w.remoteValue vk) :
  RestoreInv w'
  := by
  constructor
  · rw [hrows]
    exact hw.names
  · rw [hrows]
    exact hw.intents
  · intro vk value h
    rw [hrows]
    exact hw.pending vk value (hpending vk value h)
  · intro vk k hvk hparse
    rw [hremote vk (ne_fenceKey_of_parse hparse)] at hvk
    exact hw.remote vk k hvk hparse
  · obtain ⟨vk, k, hvk, hparse⟩ := hw.populated
    refine ⟨vk, k, ?_, hparse⟩
    rw [hremote vk (ne_fenceKey_of_parse hparse)]
    exact hvk

omit hw in
theorem Keeps.congr (hrows : w'.rows = w.rows)
    (hremote : ∀ vk, vk ≠ fenceKey → w'.remoteValue vk = w.remoteValue vk) :
  Keeps w w'
  := by
  constructor
  · intro k _ _
    rw [hrows]
  · intro k _ hk
    rw [hrows]
    exact hk
  · intro vk k hvk hparse
    rw [hremote vk (ne_fenceKey_of_parse hparse)] at hvk
    exact Or.inl hvk

theorem RestoreInv.reboot :
  RestoreInv w.reboot
  := hw.congr rfl (fun _ _ h => by cases h) (fun _ _ => rfl)

theorem RestoreInv.sameButFence (h : SameButFence w w') :
  RestoreInv w'
  := hw.congr h.rows (fun _ _ hp => h.pending ▸ hp) h.remote

omit hw in
theorem SameButFence.keeps (h : SameButFence w w') :
  Keeps w w'
  := Keeps.congr h.rows h.remote

/-- A value was written to the server for a key that is present, or not. -/
theorem RestoreInv.attempted {k : Key} {v : Bytes} (hk : k.primary ≠ pendingNs)
    (hrow : (w.rows.lookup k).isSome) (h : Attempted (vssKey k) (some v) w w') :
  RestoreInv w' ∧ Keeps w w'
  := by
  have hparse := (hw.names k hrow hk).parse
  have hold : ∀ vk, (w.remoteValue vk).isSome → (w'.remoteValue vk).isSome := by
    intro vk hvk
    by_cases heq : vk = vssKey k
    · subst heq
      rcases h.here with hhere | hhere
      · rw [hhere]
        exact hvk
      · rw [hhere]
        rfl
    · rw [h.others vk heq]
      exact hvk
  have hnew : ∀ vk k', (w'.remoteValue vk).isSome → parseVssKey vk = some k' →
      (w.remoteValue vk).isSome ∨ k' = k := by
    intro vk k' hvk hparse'
    by_cases heq : vk = vssKey k
    · rw [heq, hparse] at hparse'
      exact Or.inr (some.inj hparse').symm
    · rw [h.others vk heq] at hvk
      exact Or.inl hvk
  constructor
  · constructor
    · rw [h.rows]
      exact hw.names
    · rw [h.rows]
      exact hw.intents
    · rw [h.rows, h.pending]
      exact hw.pending
    · intro vk k' hvk hparse'
      rcases hnew vk k' hvk hparse' with hvk | rfl
      · exact hw.remote vk k' hvk hparse'
      · exact hk
    · obtain ⟨vk, k', hvk, hparse'⟩ := hw.populated
      exact ⟨vk, k', hold vk hvk, hparse'⟩
  · constructor
    · intro k' _ _
      rw [h.rows]
    · intro k' _ hk'
      rw [h.rows]
      exact hk'
    · intro vk k' hvk hparse'
      rw [h.rows]
      rcases hnew vk k' hvk hparse' with hvk | rfl
      · exact Or.inl hvk
      · exact Or.inr hrow

omit hw in
theorem ne_pendingKey {k : Key} (hk : k.primary ≠ pendingNs) (vk : Str) :
  k ≠ pendingKey vk
  := by
  rintro rfl
  exact hk rfl

/-- A value of the common configuration is committed with its intent. -/
theorem RestoreInv.commit {c : Key} (hc : isCommonConfig c) (v : Bytes) (commits : ℕ) :
  let w' := { w with
    rows := committedRows w.rows c (some v)
    pending := w.pending.insert (vssKey c) (some v)
    commits }
  RestoreInv w' ∧ Keeps w w'
  := by
  have hlookup : ∀ k, k.primary ≠ pendingNs →
      (committedRows w.rows c (some v)).lookup k
        = if k = c then some v else w.rows.lookup k := by
    intro k hk
    rw [committedRows, lookup_insert_eq, if_neg (ne_pendingKey hk _),
      lookup_assign_eq]
  have hstays : ∀ k, k.primary ≠ pendingNs → (w.rows.lookup k).isSome →
      ((committedRows w.rows c (some v)).lookup k).isSome := by
    intro k hk h
    rw [hlookup k hk]
    split_ifs
    · rfl
    · exact h
  have hhere : ((committedRows w.rows c (some v)).lookup c).isSome := by
    rw [hlookup c (isCommonConfig_primary hc), if_pos rfl]
    rfl
  constructor
  · constructor
    · intro k hk hprimary
      dsimp only at hk
      rw [hlookup k hprimary] at hk
      split_ifs at hk with heq
      · rw [heq]
        exact isCommonConfig_parsable hc
      · exact hw.names k hk hprimary
    · intro vk row hrow
      dsimp only at hrow ⊢
      rw [committedRows, lookup_insert_eq] at hrow
      split_ifs at hrow with heq
      · cases hrow
        exact ⟨c, v, hc, pendingKey_injective heq, rfl, hhere⟩
      · rw [lookup_assign_eq, if_neg (ne_pendingKey (isCommonConfig_primary hc) vk).symm]
          at hrow
        obtain ⟨c', v', hc', hvk, hv', hpresent⟩ := hw.intents vk row hrow
        exact ⟨c', v', hc', hvk, hv', hstays c' (isCommonConfig_primary hc') hpresent⟩
    · intro vk value hvalue
      dsimp only at hvalue ⊢
      rw [lookup_insert_eq] at hvalue
      split_ifs at hvalue with heq
      · cases hvalue
        exact ⟨c, v, hc, heq, rfl, hhere⟩
      · obtain ⟨c', v', hc', hvk, hv', hpresent⟩ := hw.pending vk value hvalue
        exact ⟨c', v', hc', hvk, hv', hstays c' (isCommonConfig_primary hc') hpresent⟩
    · exact hw.remote
    · exact hw.populated
  · constructor
    · intro k hconfig hk
      dsimp only
      rw [hlookup k hk, if_neg]
      rintro rfl
      rw [hc] at hconfig
      cases hconfig
    · exact hstays
    · intro vk k hvk _
      exact Or.inl hvk

/-- An intent is removed, from the rows and perhaps from the pending map. -/
theorem RestoreInv.clear (vk : Str) {pending : Pending}
    (hpending : ∀ vk' value, pending.lookup vk' = some value →
      w.pending.lookup vk' = some value) :
  let w' := { w with rows := w.rows.erase (pendingKey vk), pending }
  RestoreInv w' ∧ Keeps w w'
  := by
  have hlookup : ∀ k, k.primary ≠ pendingNs →
      (w.rows.erase (pendingKey vk)).lookup k = w.rows.lookup k := by
    intro k hk
    rw [lookup_erase_eq, if_neg (ne_pendingKey hk vk)]
  constructor
  · constructor
    · intro k hk hprimary
      dsimp only at hk
      rw [hlookup k hprimary] at hk
      exact hw.names k hk hprimary
    · intro vk' row hrow
      dsimp only at hrow ⊢
      rw [lookup_erase_eq] at hrow
      split_ifs at hrow
      obtain ⟨c, v, hc, hvk, hv, hpresent⟩ := hw.intents vk' row hrow
      refine ⟨c, v, hc, hvk, hv, ?_⟩
      rw [hlookup c (isCommonConfig_primary hc)]
      exact hpresent
    · intro vk' value hvalue
      obtain ⟨c, v, hc, hvk, hv, hpresent⟩ := hw.pending vk' value (hpending vk' value hvalue)
      refine ⟨c, v, hc, hvk, hv, ?_⟩
      dsimp only
      rw [hlookup c (isCommonConfig_primary hc)]
      exact hpresent
    · exact hw.remote
    · exact hw.populated
  · constructor
    · intro k _ hk
      exact hlookup k hk
    · intro k hk h
      dsimp only
      rw [hlookup k hk]
      exact h
    · intro vk' k hvk _
      exact Or.inl hvk

end Invariant

/-! ### Writing configuration -/

section Configuration

variable {G : Guard storeInterface StoreWorld StoreFault} {w w₀ : StoreWorld}

/-- A world an attempt can be in after `w₀`. -/
def KeptFrom (w₀ w : StoreWorld) : Prop :=
  RestoreInv w ∧ Keeps w₀ w

theorem KeptFrom.trans {w' : StoreWorld} (h : KeptFrom w₀ w) (h' : RestoreInv w' ∧ Keeps w w') :
  KeptFrom w₀ w'
  := ⟨h'.1, h.2.trans h.1 h'.2⟩

theorem KeptFrom.sameButFence {w' : StoreWorld} (h : KeptFrom w₀ w) (h' : SameButFence w w') :
  KeptFrom w₀ w'
  := h.trans ⟨h.1.sameButFence h', h'.keeps⟩

theorem mutationInv_keptFrom (remote : VssKvStore) (w₀ : StoreWorld) :
  MutationInv remote G RestoreInv (KeptFrom w₀)
  := by
  constructor
  · intro w w' h hw
    exact hw.sameButFence h.sameButFence
  · intro w hw
    exact hw.1
  · intro w hw
    exact hw.1.reboot
  · intro w pending hw hpending
    exact hw.trans ⟨hw.1.congr rfl (fun vk _ h => hpending vk ▸ h) (fun _ _ => rfl),
      Keeps.congr rfl (fun _ _ => rfl)⟩
  · intro w vk k value hw hvalue hparse
    obtain ⟨c, v, hc, rfl, rfl, hpresent⟩ := hw.1.pending vk value hvalue
    have hprimary := isCommonConfig_primary hc
    rw [(isCommonConfig_parsable hc).parse] at hparse
    obtain rfl : c = k := some.inj hparse
    rw [replicateAndClear, wp_bind]
    have hattempted : ∀ w', Attempted (vssKey c) (some v) w w' → KeptFrom w₀ w' :=
      fun w' h => hw.trans (hw.1.attempted hprimary hpresent h)
    apply wp_imp (replicate_wp remote c (some v)
      (fun w' h => (hattempted w' h).1.reboot) (fun w' h => (hattempted w' h).1))
    rintro (e | _) w' h
    · exact hattempted w' h
    have hw' := hattempted w' h.1
    have herased : ∀ vk' value, (w'.pending.erase (vssKey c)).lookup vk' = some value →
        w'.pending.lookup vk' = some value := by
      intro vk' value h
      rw [lookup_erase_eq] at h
      split_ifs at h
      exact h
    apply clearPendingRow_wp hw'.1.reboot
    · exact (hw'.1.clear (vssKey c) (fun _ _ h => h)).1.reboot
    · exact hw'.trans (hw'.1.clear (vssKey c) herased)
    · intro e
      exact hw'
  · intro w vk value hw hvalue hparse
    obtain ⟨c, v, hc, rfl, rfl, hpresent⟩ := hw.1.pending vk value hvalue
    rw [(isCommonConfig_parsable hc).parse] at hparse
    cases hparse

end Configuration

/-! ### Interruptions -/

/-- The operations whose failure ends an attempt, or keeps a refused manager. -/
def StoreOp.endsAttempt : StoreOp → Bool
  | .external => true
  | .localListAll => true
  | .localRead k => k = channelManagerKey
  | .localRemove k => k = channelManagerKey
  | _ => false

def StoreOp.restores : StoreOp → Bool
  | .localWrite _ _ => true
  | _ => false

/-- Attempts are interrupted only in worlds where the next one may skip the restore and the
guard, and every restored value is written. -/
def Orderly : Guard storeInterface StoreWorld StoreFault
  | _, .crash, w => SafeToSkip reader w
  | o, .go f, w =>
    ((storeMachine.exec f o w).1 = none → SafeToSkip reader w)
      ∧ (f.localError?.isSome → o.restores = false ∧ (o.endsAttempt → SafeToSkip reader w))

/-- What an attempt leaves when it does not go on. -/
def Unstarted (w : StoreWorld) : Prop :=
  RestoreInv w ∧ SafeToSkip reader w

theorem KeptFrom.unstarted {reader : LightningReader} {w w₀ : StoreWorld} (h : KeptFrom w₀ w)
    (hw0 : Unstarted reader w₀) :
  Unstarted reader w
  := ⟨h.1, h.2.safeToSkip hw0.1 hw0.2⟩

theorem RestoreInv.keptFrom {w : StoreWorld} (hw : RestoreInv w) :
  KeptFrom w w
  := ⟨hw, Keeps.refl w⟩

/-- An operation at which a thread stops leaves rows, pending map and server alone. -/
theorem sameCore_of_stop {o : StoreOp} {f : StoreFault} {w w' : StoreWorld}
    (hx : storeMachine.exec f o w = (none, w')) :
  SameCore w w'
  := by
  rcases htouches : o.touchesCore with _ | _
  · have h := sameCore_exec o htouches f w
    rw [hx] at h
    exact h
  · cases o <;> cases htouches <;> cases hx

/-- If only the invariant is known where an attempt is interrupted, the guard gives the
rest. -/
theorem wp_unstarted {reader : LightningReader} {α : Type} {p : Store α}
    {Q : α → StoreWorld → Prop} {w : StoreWorld}
    (hp : p.wp storeMachine (Orderly reader) RestoreInv Q w) :
  p.wp storeMachine (Orderly reader) (Unstarted reader) Q w
  := by
  apply wp_interrupted _ _ p w hp
  · intro o w hsafe hw
    exact ⟨hw, hsafe⟩
  intro o f w w' hguard hx hw'
  have hsafe := hguard.1 (by rw [hx])
  have hkeeps := (sameCore_of_stop hx).sameButFence
  refine ⟨hw', fun hmanager => ?_⟩
  rw [hkeeps.rows] at hmanager
  obtain ⟨hall, hlost⟩ := hsafe hmanager
  rw [hkeeps.keeps.lost]
  refine ⟨fun vk k hvk hparse => ?_, hlost⟩
  rw [hkeeps.remote vk (ne_fenceKey_of_parse hparse)] at hvk
  rw [hkeeps.rows]
  exact hall vk k hvk hparse

/-! ### The steps of an attempt -/

/-- What holds after a part of an attempt. -/
def Outcome {α : Type} (reader : LightningReader) (P : α → StoreWorld → Prop) :
    Except UnlockError α → StoreWorld → Prop
  | .error _, w => Unstarted reader w
  | .ok a, w => P a w

section Steps

variable {reader : LightningReader} {w : StoreWorld}

theorem tryThen_wp {α β : Type} {p : Store (Except UnlockError α)}
    {next : α → Store (Except UnlockError β)} {P : α → StoreWorld → Prop}
    {P' : β → StoreWorld → Prop}
    (hp : p.wp storeMachine (Orderly reader) RestoreInv (Outcome reader P) w)
    (hnext : ∀ a w', P a w' →
      (next a).wp storeMachine (Orderly reader) RestoreInv (Outcome reader P') w') :
  (tryThen p next).wp storeMachine (Orderly reader) RestoreInv (Outcome reader P') w
  := by
  rw [tryThen, wp_bind]
  apply wp_mono (fun _ h => h) _ p w hp
  rintro (e | a) w' h
  · exact h
  · exact hnext a w' h

/-- A local query whose failure ends an attempt. -/
theorem orderly_localAnswer {α : Type} {o : StoreOp} (ho : o.endsAttempt)
    {a : Except IoError α} {k : Except IoError α → o.Ans}
    (hexec : ∀ f, exec 0 f o w = some (some (k (f.localAnswer a)), w))
    (hw : RestoreInv w) {Q : o.Ans → StoreWorld → Prop} (hok : Q (k a) w)
    (herror : ∀ e : Failure, SafeToSkip reader w → Q (k (.error e.val)) w) :
  (storeOp o).wp storeMachine (Orderly reader) RestoreInv Q w
  := by
  refine ⟨fun _ => hw.reboot, fun f hguard => ?_⟩
  have hx : storeMachine.exec f o w = (some (k (f.localAnswer a)), w) := by
    simp only [hexec, getD_some]
  rw [hx]
  cases f with
  | localFails e => exact herror e ((hguard.2 rfl).2 ho)
  | _ => exact hok

theorem externalStep_wp (hw : RestoreInv w) {P : Unit → StoreWorld → Prop} (hP : P () w) :
  externalStep.wp storeMachine (Orderly reader) RestoreInv (Outcome reader P) w
  := by
  rw [externalStep, wp_bind]
  apply orderly_localAnswer (k := id) rfl (fun _ => rfl) hw
  · exact hP
  · intro e hsafe
    exact ⟨hw, hsafe⟩

theorem unwind_wp (hw : RestoreInv w) (remote : VssKvStore) {α : Type}
    {Q : α → StoreWorld → Prop} :
  (unwind remote).wp storeMachine (Orderly reader) RestoreInv Q w
  := by
  rw [unwind, wp_bind]
  apply wp_fence (releaseFenceIfOwned_all remote)
  · intro w' h
    exact (hw.sameButFence h).reboot
  · intro w' h
    exact hw.sameButFence h
  · intro _ w' h
    have hw' := hw.sameButFence h
    exact ⟨fun _ => hw'.reboot,
      fun _ _ => hw'.sameButFence (sameCore_panic w' 0).sameButFence⟩

end Steps

/-! ### Opening, restoring, pushing -/

section Stores

variable {reader : LightningReader} {G : Guard storeInterface StoreWorld StoreFault}
variable {s : SyncedKvStore} {remote : VssKvStore} {w : StoreWorld}

/-- A pending map that asks to write common configuration that is present. -/
def AsksForConfig (w : StoreWorld) (pending : Pending) : Prop :=
  ∀ vk value, pending.lookup vk = some value →
    ∃ c v, isCommonConfig c ∧ vk = vssKey c ∧ value = some v ∧ (w.rows.lookup c).isSome

/-- Intents are read back.  None of them is malformed, so none is removed. -/
theorem loadPending_keeps (hw : RestoreInv w) (keys : List Str) {pending : Pending}
    (hpending : AsksForConfig w pending) {Q : Pending → StoreWorld → Prop}
    (hQ : ∀ pending, AsksForConfig w pending → Q pending w) :
  (s.loadPending keys pending).wp storeMachine G RestoreInv Q w
  := by
  induction keys generalizing pending with
  | nil => exact hQ pending hpending
  | cons key keys ih =>
    rw [loadPending]
    split
    · exact ih hpending
    rw [wp_bind]
    rcases hrow : w.rows.lookup (pendingKey key) with _ | row
    all_goals
      apply wp_localAnswer (k := id) (fun _ => rfl) hw.reboot
    · rw [hrow]
      exact ih hpending
    · intro e
      exact ih hpending
    · rw [hrow]
      obtain ⟨c, v, hc, rfl, rfl, hpresent⟩ := hw.intents key row hrow
      dsimp only [id]
      split
      · exact ih hpending
      rw [decodePendingRow_encodePendingRow]
      apply ih
      intro vk value h
      rw [lookup_insert_eq] at h
      split_ifs at h with heq
      · cases h
        exact ⟨c, v, hc, heq, rfl, hpresent⟩
      · exact hpending vk value h
    · intro e
      exact ih hpending

theorem withVss_keeps (hw : RestoreInv w) :
  s.withVss.wp storeMachine G RestoreInv (fun _ w' => KeptFrom w w') w
  := by
  have hopen : ∀ pending, AsksForConfig w pending →
      (storeOp (.openStore pending)).wp storeMachine G RestoreInv
        (fun _ w' => KeptFrom w w') w := by
    intro pending hpending
    refine ⟨fun _ => hw.reboot, fun _ _ => ?_⟩
    exact ⟨⟨hw.names, hw.intents, hpending, hw.remote, hw.populated⟩,
      Keeps.congr rfl (fun _ _ => rfl)⟩
  have hempty : AsksForConfig w ∅ := fun _ _ h => by cases h
  rw [withVss, wp_bind]
  apply wp_localAnswer (k := id) (fun _ => rfl) hw.reboot
  · dsimp only [id]
    rw [wp_bind]
    exact loadPending_keeps hw _ hempty hopen
  · intro e
    exact hopen ∅ hempty

/-- A value from the server is written to the local database. -/
theorem RestoreInv.restore (hw : RestoreInv w) {vk : Str} {k : Key}
    (hvk : (w.remoteValue vk).isSome) (hparse : parseVssKey vk = some k) (value : Bytes) :
  RestoreInv { w with rows := w.rows.insert k value }
  := by
  have hk := hw.remote vk k hvk hparse
  have hstays : ∀ k', (w.rows.lookup k').isSome →
      ((w.rows.insert k value).lookup k').isSome := by
    intro k' h
    rw [lookup_insert_eq]
    split_ifs
    · rfl
    · exact h
  constructor
  · intro k' hk' hprimary
    dsimp only at hk'
    rw [lookup_insert_eq] at hk'
    split_ifs at hk' with heq
    · rw [heq]
      exact parsable_of_parseVssKey hparse
    · exact hw.names k' hk' hprimary
  · intro vk' row hrow
    dsimp only at hrow
    rw [lookup_insert_eq, if_neg (ne_pendingKey hk vk').symm] at hrow
    obtain ⟨c, v, hc, hvk', hv, hpresent⟩ := hw.intents vk' row hrow
    exact ⟨c, v, hc, hvk', hv, hstays c hpresent⟩
  · intro vk' value' h
    obtain ⟨c, v, hc, hvk', hv, hpresent⟩ := hw.pending vk' value' h
    exact ⟨c, v, hc, hvk', hv, hstays c hpresent⟩
  · exact hw.remote
  · exact hw.populated

theorem orderly_localWrite (hw : RestoreInv w) {k : Key} {value : Bytes}
    {Q : Except IoError Unit → StoreWorld → Prop}
    (hQ : Q (.ok ()) { w with rows := w.rows.insert k value }) :
  (storeOp (.localWrite k value)).wp storeMachine (Orderly reader) RestoreInv Q w
  := by
  refine ⟨fun _ => hw.reboot, fun f hguard => ?_⟩
  cases f with
  | localFails e => cases (hguard.2 rfl).1
  | _ => exact hQ

/-- What holds after values were written to the local database. -/
structure RestoredItems (items : List (Str × Bytes)) (w : StoreWorld) (restored : ℕ)
    (w' : StoreWorld) : Prop where
  inv : RestoreInv w'
  server : w'.server = w.server
  stays : ∀ k, (w.rows.lookup k).isSome → (w'.rows.lookup k).isSome
  present : ∀ vk value k, (vk, value) ∈ items → parseVssKey vk = some k →
    (w'.rows.lookup k).isSome
  counted : restored = 0 → ∀ vk value, (vk, value) ∈ items → parseVssKey vk = none

theorem restoreItems_wp (items : List (Str × Bytes)) (hw : RestoreInv w)
    (hitems : ∀ vk value, (vk, value) ∈ items → (w.remoteValue vk).isSome) :
  (restoreItems items).wp storeMachine (Orderly reader) RestoreInv
    (RestoredItems items w) w
  := by
  induction items generalizing w with
  | nil =>
    refine ⟨hw, rfl, fun _ h => h, ?_, ?_⟩
    · intro _ _ _ hmem
      cases hmem
    · intro _ _ _ hmem
      cases hmem
  | cons item items ih =>
    obtain ⟨vk, value⟩ := item
    rw [restoreItems]
    have hvk := hitems vk value mem_cons_self
    rcases hparse : parseVssKey vk with _ | k
    · apply wp_mono (fun _ h => h) _ _ _
        (ih hw fun vk value h => hitems vk value (mem_cons_of_mem _ h))
      intro n w' h
      refine ⟨h.inv, h.server, h.stays, ?_, ?_⟩
      · intro vk' value' k hmem hparse'
        rcases mem_cons.mp hmem with heq | hmem
        · cases heq
          rw [hparse] at hparse'
          cases hparse'
        · exact h.present vk' value' k hmem hparse'
      · intro hn vk' value' hmem
        rcases mem_cons.mp hmem with heq | hmem
        · cases heq
          exact hparse
        · exact h.counted hn vk' value' hmem
    dsimp only
    rw [wp_bind]
    apply orderly_localWrite hw
    have hw' := hw.restore hvk hparse value
    dsimp only
    rw [wp_bind]
    apply wp_mono (fun _ h => h) _ _ _
      (ih hw' fun vk value h => hitems vk value (mem_cons_of_mem _ h))
    intro n w' h
    have hstays : ∀ k', (w.rows.lookup k').isSome → (w'.rows.lookup k').isSome := by
      intro k' hk'
      apply h.stays
      dsimp only
      rw [lookup_insert_eq]
      split_ifs
      · rfl
      · exact hk'
    refine ⟨h.inv, h.server, hstays, ?_, fun hn => by cases hn⟩
    intro vk' value' k' hmem hparse'
    rcases mem_cons.mp hmem with heq | hmem
    · cases heq
      rw [hparse] at hparse'
      cases hparse'
      apply h.stays
      dsimp only
      rw [lookup_insert_eq, if_pos rfl]
      rfl
    · exact h.present vk' value' k' hmem hparse'

/-- What the server lacks is pushed.  Nothing is lost, and what is new there is present. -/
theorem pushRows_keeps {w₀ : StoreWorld} (remoteKeys : List Str) (rows : List (Key × Bytes))
    (hw : KeptFrom w₀ w)
    (hrows : ∀ k value, (k, value) ∈ rows → (w.rows.lookup k).isSome) :
  (pushRows remote remoteKeys rows).wp storeMachine G RestoreInv
    (fun _ w' => KeptFrom w₀ w') w
  := by
  induction rows generalizing w with
  | nil => exact hw
  | cons row rows ih =>
    obtain ⟨k, value⟩ := row
    rw [pushRows]
    split
    · exact ih hw fun k value h => hrows k value (mem_cons_of_mem _ h)
    rename_i hpush
    have hk : k.primary ≠ pendingNs := by
      intro hprimary
      apply hpush
      simp [isLocalOnly, hprimary]
    have hpresent := hrows k value mem_cons_self
    have hattempted : ∀ w', Attempted (vssKey k) (some value) w w' → KeptFrom w₀ w' :=
      fun w' h => hw.trans (hw.1.attempted hk hpresent h)
    have hwrite := replicate_wp (G := G) (C := RestoreInv) (w := w) remote k (some value)
      (fun w' h => (hattempted w' h).1.reboot) (fun w' h => (hattempted w' h).1)
    rw [VssKvStore.replicate] at hwrite
    apply wp_seq hwrite
    rintro (e | _) w' h
    · exact hattempted w' h
    dsimp only
    rw [wp_bind]
    have hrest : ∀ k value, (k, value) ∈ rows → (w'.rows.lookup k).isSome := by
      intro k value hmem
      rw [h.1.rows]
      exact hrows k value (mem_cons_of_mem _ hmem)
    apply wp_imp (ih (hattempted w' h.1) hrest)
    rintro (e | pushed) w'' hw''
    · exact hw''
    · exact hw''

theorem pushMissingToVss_keeps (hs : s.commonConfigOnly = false) (hr : s.remote = some remote)
    (hw : RestoreInv w) (pages : ℕ) :
  (s.pushMissingToVss pages).wp storeMachine G RestoreInv (fun _ w' => KeptFrom w w') w
  := by
  have hcheck : s.checkBulkSync = .ok () := by
    simp [checkBulkSync, hs]
  rw [pushMissingToVss, hcheck, hr]
  dsimp only
  rw [wp_bind]
  apply listAllKeysFrom_wp pages none hw.reboot hw
  · dsimp only
    rw [wp_bind]
    apply wp_localAnswer (k := id) (fun _ => rfl) hw.reboot
    · apply pushRows_keeps _ _ hw.keptFrom
      intro k value hmem
      obtain ⟨entry, hentry, heq⟩ := mem_map.mp hmem
      cases heq
      rw [AList.lookup_isSome, AList.mem_keys]
      exact mem_map_of_mem hentry
    · intro e
      exact hw.keptFrom
  · intro e
    exact hw.keptFrom

/-- The world after the restore: everything is there, and if nothing was restored in this
attempt, then no open channel is lost. -/
structure Prepared (reader : LightningReader) (restored : ℕ) (w : StoreWorld) : Prop where
  inv : RestoreInv w
  all : HoldsAll w
  skipped : restored = 0 → ∀ ids, reader.lost w = some ids → ids = []

theorem Prepared.kept {restored : ℕ} {w' : StoreWorld} (hw : Prepared reader restored w)
    (h : KeptFrom w w') :
  Prepared reader restored w'
  := by
  refine ⟨h.1, h.2.holdsAll hw.inv hw.all, ?_⟩
  rw [h.2.lost]
  exact hw.skipped

theorem Unstarted.prepared {w' : StoreWorld} (hw : Unstarted reader w)
    (hmanager : (w.rows.lookup channelManagerKey).isSome) (h : KeptFrom w w') :
  Prepared reader 0 w'
  := by
  obtain ⟨hall, hlost⟩ := hw.2 hmanager
  have hprepared : Prepared reader 0 w := ⟨hw.1, hall, fun _ => hlost⟩
  exact hprepared.kept h

theorem wp_readManager (hw : RestoreInv w) {Q : Except IoError Bytes → StoreWorld → Prop}
    (hok : ∀ bytes, w.rows.lookup channelManagerKey = some bytes → Q (.ok bytes) w)
    (herror : ∀ e, Q (.error e) w) :
  (storeOp (.localRead channelManagerKey)).wp storeMachine G RestoreInv Q w
  := by
  apply wp_localAnswer (k := id) (fun _ => rfl) hw.reboot
  · rcases hrow : w.rows.lookup channelManagerKey with _ | bytes
    · exact herror _
    · exact hok bytes hrow
  · intro e
    exact herror e.val

theorem restoreFromVss_wp (hs : s.commonConfigOnly = false) (hr : s.remote = some remote)
    (hw : Unstarted reader w) (pages : ℕ) :
  (s.restoreFromVss false pages).wp storeMachine (Orderly reader) RestoreInv
    (fun r w' => match r with
      | .error _ => Unstarted reader w'
      | .ok restored => Prepared reader restored w') w
  := by
  have hcheck : s.checkBulkSync = .ok () := by
    simp [checkBulkSync, hs]
  rw [restoreFromVss, hcheck, hr]
  simp only [Bool.false_eq_true, if_false]
  rw [wp_bind]
  apply wp_readManager hw.1
  · intro bytes hbytes
    exact hw.prepared (by rw [hbytes]; rfl) hw.1.keptFrom
  intro e
  simp only [pure_eq_ret, ret_bind, Bool.false_eq_true, if_false]
  rw [wp_bind]
  apply downloadAllFrom_wp pages none hw.1.reboot hw.1
  · dsimp only [getD_none]
    rw [wp_bind]
    have hitems : ∀ vk value, (vk, value) ∈ w.valuesOf (w.listedFrom 0) →
        (w.remoteValue vk).isSome := by
      intro vk value hmem
      rw [(mem_valuesOf.mp hmem).2]
      rfl
    apply wp_imp (restoreItems_wp _ hw.1 hitems)
    intro restored w' h
    have hremote : ∀ vk, w'.remoteValue vk = w.remoteValue vk := by
      intro vk
      rw [remoteValue, remoteValue, h.server]
    have hlisted : ∀ vk k, (w.remoteValue vk).isSome → parseVssKey vk = some k →
        ∃ value, (vk, value) ∈ w.valuesOf (w.listedFrom 0) := by
      intro vk k hvk hparse
      obtain ⟨value, hvalue⟩ := isSome_iff_exists.mp hvk
      exact ⟨value, mem_valuesOf.mpr ⟨mem_listedFrom_zero.mpr
        ⟨hvk, ne_fenceKey_of_parse hparse⟩, hvalue⟩⟩
    refine ⟨h.inv, fun vk k hvk hparse => ?_, fun hnone => ?_⟩
    · rw [hremote] at hvk
      obtain ⟨value, hmem⟩ := hlisted vk k hvk hparse
      exact h.present vk value k hmem hparse
    · -- The server has a key that can be restored, so something was restored.
      obtain ⟨vk, k, hvk, hparse⟩ := hw.1.populated
      obtain ⟨value, hmem⟩ := hlisted vk k hvk hparse
      rw [h.counted hnone vk value hmem] at hparse
      cases hparse
  · intro e
    exact hw

theorem restoreOrPush_wp (hs : s.commonConfigOnly = false) (hr : s.remote = some remote)
    {request : UnlockRequest} (hrequest : request.allowEmptyRestore = false)
    (hw : Unstarted reader w) :
  (restoreOrPush s request).wp storeMachine (Orderly reader) RestoreInv
    (Outcome reader (Prepared reader)) w
  := by
  rw [restoreOrPush, wp_bind]
  apply wp_readManager hw.1
  · intro bytes hbytes
    dsimp only
    apply wp_seq (pushMissingToVss_keeps hs hr hw.1 request.pages)
    rintro (e | pushed) w' h
    · exact h.unstarted hw
    · exact hw.prepared (by rw [hbytes]; rfl) h
  intro e
  dsimp only
  apply wp_seq (restoreFromVss_wp hs hr hw request.pages)
  rintro (e | restored) w' h
  · simp only [hrequest, Bool.false_eq_true, if_false]
    exact h
  · exact h

end Stores

end RgbLightning
