import RgbLightning.Browser.Replicator

/-!
# Calls of the replicator

The invariant of the replicator compares its memory and the remote store with the last value
that was accepted for each key.  A key is either queued with that value, or settled: the
value is on the remote store and the manifest lists the key, or a change to the manifest is
parked (`Settled`).  While a value is sent its key is neither (`Underway`).

A call puts its key into the queue and leaves everything else as it was (`Handles`), so calls
may come at any time while the drain waits for the remote store.
-/

namespace RgbLightning.Replicator

open Table List Option

/-! ### Maps and names -/

theorem entries_isEmpty_iff {V : Type} {t : Table Str V} :
  t.entries.isEmpty = true ↔ t = ∅
  := by
  rw [List.isEmpty_iff, AList.ext_iff]
  rfl

theorem lookup_of_entryAt {V : Type} {t : Table Str V} {n : ℕ} {k : Str} {v : V}
    (h : entryAt t n = some (k, v)) :
  t.lookup k = some v
  := by
  obtain ⟨e, he, heq⟩ := map_eq_some_iff.mp h
  obtain ⟨rfl, rfl⟩ := Prod.mk.inj heq
  apply AList.mem_lookup_iff.mpr
  apply mem_of_getElem? he

theorem eq_empty_of_entryAt {V : Type} {t : Table Str V} {n : ℕ} (h : entryAt t n = none) :
  t = ∅
  := by
  have hlength := getElem?_eq_none_iff.mp (map_eq_none_iff.mp h)
  apply entries_isEmpty_iff.mp
  apply isEmpty_iff_length_eq_zero.mpr
  by_contra hne
  have hlt := Nat.mod_lt n (Nat.pos_of_ne_zero hne)
  omega

/-- A key is listed after changes of membership if the change of its own says so, or there is
none and it was listed before. -/
theorem mem_applyChanges {known : List Str} {changes : Table Str Bool} {k : Str} :
  k ∈ applyChanges known changes ↔
    changes.lookup k = some true ∨ changes.lookup k = none ∧ k ∈ known
  := by
  obtain ⟨entries, hnodup⟩ := changes
  change k ∈ foldl _ known entries ↔
    entries.dlookup k = some true ∨ entries.dlookup k = none ∧ k ∈ known
  induction entries generalizing known with
  | nil => simp
  | cons e entries ih =>
    obtain ⟨key, present⟩ := e
    obtain ⟨hkey, hnodup⟩ := nodupKeys_cons.mp hnodup
    rw [foldl_cons, ih hnodup]
    by_cases hk : k = key
    · -- The other changes are of other keys.
      subst hk
      rw [dlookup_eq_none.mpr hkey, dlookup_cons_eq]
      cases present <;> simp
    · rw [dlookup_cons_ne _ _ hk]
      cases present <;> simp [hk]

/-- A remote name that stands for a key with this remote name. -/
def RoundTrips (vkey : Str) : Prop :=
  (parseVssKey vkey).map vssKey = some vkey
deriving Decidable

theorem placeholder_unplaceholder_placeholder (ns : Str) :
  placeholder (unplaceholder (placeholder ns)) = placeholder ns
  := by
  by_cases hns : ns = str "_"
  · rw [hns]
    rfl
  · rw [unplaceholder_placeholder hns]

/-- The remote name of a key stands for itself, if the key is not empty and its namespaces do
not contain the separator. -/
theorem roundTrips_vssKey {k : Key} (hkey : k.key ≠ []) (hprimary : slash ∉ k.primary)
    (hsecondary : slash ∉ k.secondary) :
  RoundTrips (vssKey k)
  := by
  rw [RoundTrips, parseVssKey]
  nth_rewrite 1 [vssKey]
  rw [splitOnce_append (slash_notMem_placeholder hprimary)]
  simp only [bind_eq_bind, bind_some]
  rw [splitOnce_append (slash_notMem_placeholder hsecondary)]
  simp only [bind_some, if_neg hkey, map_some, vssKey,
    placeholder_unplaceholder_placeholder]

theorem roundTrips_vssKey_manager :
  channelManagerKey.key ≠ [] ∧ RoundTrips (vssKey channelManagerKey)
  := ⟨by decide, roundTrips_vssKey (by decide) (by decide) (by decide)⟩

theorem RoundTrips.ne_manifestKey {vkey : Str} (h : RoundTrips vkey) :
  vkey ≠ manifestKey
  := by
  rintro rfl
  exact absurd h (by decide +kernel)

theorem mem_downloadAll {server : Server} {k : Str} {v : Bytes} :
  (k, v) ∈ downloadAll server ↔
    k ∈ server.manifest.getD [] ∧ k ≠ manifestKey ∧ server.objects.lookup k = some v
  := by
  rw [downloadAll, mem_filterMap]
  constructor
  · rintro ⟨vkey, hmem, h⟩
    split_ifs at h with hne
    obtain ⟨value, hvalue, heq⟩ := map_eq_some_iff.mp h
    obtain ⟨rfl, rfl⟩ := Prod.mk.inj heq
    exact ⟨hmem, hne, hvalue⟩
  · rintro ⟨hmem, hne, hvalue⟩
    use k, hmem
    rw [if_neg hne, hvalue, map_some]

/-! ### Conditions on calls -/

section Conditions

variable (hashBytes : Bytes → UInt64)

/-- There is room for the key in the queue. -/
def Room (w : World) (c : ReplicateCall) : Prop :=
  verdict hashBytes w c = .queued →
    c.vkey ∈ w.pending ∨ size w.pending < pendingQueueCap

/-- The hash of a value tells it from the value that was accepted last for its key. -/
def NoCollision (w : World) (c : ReplicateCall) : Prop :=
  ∀ buf ∈ c.value, ∀ old ∈ (w.accepted.lookup c.vkey).join,
    hashBytes buf = hashBytes old → buf = old

/-- A call with room for its key whose value the hash tells from the last one. -/
def Regular (w : World) (c : ReplicateCall) : Prop :=
  Room hashBytes w c ∧ NoCollision hashBytes w c

/-- A regular call for a key whose remote name stands for itself. -/
def Proper (w : World) (c : ReplicateCall) : Prop :=
  Regular hashBytes w c ∧ RoundTrips c.vkey

instance (w : World) (c : ReplicateCall) : Decidable (Regular hashBytes w c) :=
  inferInstanceAs (Decidable
    ((verdict hashBytes w c = .queued →
      c.vkey ∈ w.pending ∨ size w.pending < pendingQueueCap) ∧
    ∀ buf ∈ c.value, ∀ old ∈ (w.accepted.lookup c.vkey).join,
      hashBytes buf = hashBytes old → buf = old))

instance (w : World) (c : ReplicateCall) : Decidable (Proper hashBytes w c) :=
  inferInstanceAs (Decidable (Regular hashBytes w c ∧ RoundTrips c.vkey))

variable (P : World → ReplicateCall → Prop)

/-- The calls that are handled while a request is awaited satisfy a condition. -/
def calls : Prog.Guard interface World Fault
  | o, .go f, w => o.awaits = true → Run.Meets (replicateTriple hashBytes) P w f.calls
  | _, .crash, _ => True

/-- A call satisfies the condition, and a drain runs when it was begun. -/
def pre : Call → World → Prop
  | .replicate c, w => P w c
  | .drain _, w => w.draining = true

instance [∀ w c, Decidable (P w c)] : (o : Op) → (f : Fate Fault) → (w : World) →
    Decidable (calls hashBytes P o f w)
  | o, .go f, w => inferInstanceAs (Decidable
      (o.awaits = true → Run.Meets (replicateTriple hashBytes) P w f.calls))
  | _, .crash, _ => .isTrue trivial

instance [∀ w c, Decidable (P w c)] : (c : Call) → (w : World) → Decidable (pre P c w)
  | .replicate c, w => inferInstanceAs (Decidable (P w c))
  | .drain _, w => inferInstanceAs (Decidable (w.draining = true))

end Conditions

/-! ### What is kept -/

/-- The queue and the hashes agree with what was accepted, and the manifest with the keys
that are known to be listed. -/
structure Coherent (hashBytes : Bytes → UInt64) (w : World) : Prop where
  queued : ∀ k x, w.pending.lookup k = some x → w.accepted.lookup k = some x
  hashed : ∀ k h, w.latestHash.lookup k = some h →
    ∃ v, w.accepted.lookup k = some (some v) ∧ hashBytes v = h
  named : ∀ k x, w.accepted.lookup k = some x → RoundTrips k
  listed : w.manifestLoaded = true → w.pendingManifest = ∅ →
    ∀ k, k ∈ w.server.manifest.getD [] ↔ k ∈ w.known

/-- The membership of a key in the manifest is right, or a change to it is parked. -/
def Tracked (w : World) (k : Str) (present : Bool) : Prop :=
  w.pendingManifest.lookup k = some present ∨
    w.pendingManifest.lookup k = none ∧ w.manifestLoaded = true ∧
      (k ∈ w.known ↔ present = true)

/-- Unless it is queued, the last accepted value of a key is on the remote store. -/
def Settled (w : World) (k : Str) : Prop :=
  w.pending.lookup k = none → ∀ x, w.accepted.lookup k = some x →
    w.server.objects.lookup k = x ∧ Tracked w k x.isSome

/-- Something is queued. -/
def Waiting (w : World) : Prop :=
  ∃ k x, w.pending.lookup k = some x

/-- What holds between two rounds of the drain. -/
structure Looping (hashBytes : Bytes → UInt64) (w : World) : Prop where
  coherent : Coherent hashBytes w
  enabled : w.disabled = false
  settled : ∀ k, Settled w k

/-- What holds while a value is sent. -/
structure Underway (hashBytes : Bytes → UInt64) (vkey : Str) (value : Option Bytes)
    (w : World) : Prop where
  coherent : Coherent hashBytes w
  enabled : w.disabled = false
  settled : ∀ k ≠ vkey, Settled w k
  newest : w.pending.lookup vkey = none → w.accepted.lookup vkey = some value

/-- What holds when no drain is running. -/
structure Idle (hashBytes : Bytes → UInt64) (w : World) : Prop where
  looping : w.disabled = false → Looping hashBytes w
  waiting : w.draining = true → w.disabled = false ∧ Waiting w

/-- No change to the manifest is left over, unless a request failed. -/
def Synced (w : World) : Prop :=
  w.failed = false → w.manifestLoaded = true → w.pendingManifest = ∅

/-- What a drain achieves when it comes to its end. -/
structure Ended (hashBytes : Bytes → UInt64) (w : World) : Prop where
  idle : Idle hashBytes w
  synced : w.pending = ∅ → w.manifestLoaded = true → w.failed = false →
    w.disabled = false ∧ w.pendingManifest = ∅

variable {hashBytes : Bytes → UInt64} {w w' : World} {c : ReplicateCall}
variable {vkey : Str} {value : Option Bytes}

theorem idle_new (server : Server) (history : List (Str × Option Bytes)) :
  Idle hashBytes { server, history }
  := by
  refine ⟨fun _ => ⟨⟨?_, ?_, ?_, ?_⟩, rfl, ?_⟩, ?_⟩
  · intro k x hx
    cases hx
  · intro k h hh
    cases hh
  · intro k x hx
    cases hx
  · rintro ⟨⟩
  · intro k _ x hx
    cases hx
  · rintro ⟨⟩

/-! ### Calls -/

/-- What calls do: a key they touch is queued with the value accepted last. -/
structure Handles (w w' : World) : Prop where
  server : w'.server = w.server
  known : w'.known = w.known
  pendingManifest : w'.pendingManifest = w.pendingManifest
  manifestLoaded : w'.manifestLoaded = w.manifestLoaded
  disabled : w'.disabled = w.disabled
  failed : w'.failed = w.failed
  key : ∀ k,
    w'.pending.lookup k = w.pending.lookup k ∧ w'.accepted.lookup k = w.accepted.lookup k ∨
      ∃ x, w'.pending.lookup k = some x ∧ w'.accepted.lookup k = some x

theorem Handles.refl (w : World) :
  Handles w w
  := ⟨rfl, rfl, rfl, rfl, rfl, rfl, fun _ => .inl ⟨rfl, rfl⟩⟩

section Handles

variable (h : Handles w w')
include h

theorem Handles.trans {w'' : World} (h' : Handles w' w'') :
  Handles w w''
  := by
  constructor
  · rw [h'.server, h.server]
  · rw [h'.known, h.known]
  · rw [h'.pendingManifest, h.pendingManifest]
  · rw [h'.manifestLoaded, h.manifestLoaded]
  · rw [h'.disabled, h.disabled]
  · rw [h'.failed, h.failed]
  · intro k
    obtain ⟨hpending, haccepted⟩ | hqueued := h'.key k
    · rw [hpending, haccepted]
      apply h.key k
    · exact .inr hqueued

theorem Handles.settled {k : Str} (hk : Settled w k) :
  Settled w' k
  := by
  intro hnone x hx
  obtain ⟨hpending, haccepted⟩ | ⟨y, hy, -⟩ := h.key k
  · rw [hpending] at hnone
    rw [haccepted] at hx
    rw [Tracked, h.server, h.pendingManifest, h.manifestLoaded, h.known]
    apply hk hnone x hx
  · rw [hy] at hnone
    cases hnone

theorem Handles.looping (hw : Looping hashBytes w) (hcoherent : Coherent hashBytes w') :
  Looping hashBytes w'
  := ⟨hcoherent, h.disabled.trans hw.enabled, fun k => h.settled (hw.settled k)⟩

theorem Handles.underway (hw : Underway hashBytes vkey value w)
    (hcoherent : Coherent hashBytes w') :
  Underway hashBytes vkey value w'
  := by
  refine ⟨hcoherent, h.disabled.trans hw.enabled, fun k hk => h.settled (hw.settled k hk), ?_⟩
  intro hnone
  obtain ⟨hpending, haccepted⟩ | ⟨y, hy, -⟩ := h.key vkey
  · rw [haccepted]
    apply hw.newest (hpending.symm.trans hnone)
  · rw [hy] at hnone
    cases hnone

theorem Handles.synced (hw : Synced w) :
  Synced w'
  := by
  rw [Synced, h.failed, h.manifestLoaded, h.pendingManifest]
  exact hw

end Handles

theorem kickIfPending_cases (w : World) :
  kickIfPending w = w ∨ Waiting w ∧ kickIfPending w = kickDrain w
  := by
  rw [kickIfPending]
  split_ifs with h
  · exact .inl rfl
  · right
    refine ⟨?_, rfl⟩
    obtain ⟨e, he⟩ := exists_mem_of_ne_nil w.pending.entries
      (fun hnil => h (isEmpty_iff.mpr hnil))
    exact ⟨e.1, e.2, AList.mem_lookup_iff.mpr he⟩

theorem handles_kickIfPending (w : World) :
  Handles w (kickIfPending w)
  := by
  obtain h | ⟨-, h⟩ := kickIfPending_cases w
  · rw [h]
    apply Handles.refl
  · rw [h]
    exact ⟨rfl, rfl, rfl, rfl, rfl, rfl, fun _ => .inl ⟨rfl, rfl⟩⟩

theorem Coherent.kickIfPending (hw : Coherent hashBytes w) :
  Coherent hashBytes (kickIfPending w)
  := by
  obtain h | ⟨-, h⟩ := kickIfPending_cases w
  · rw [h]
    exact hw
  · rw [h]
    exact ⟨hw.queued, hw.hashed, hw.named, hw.listed⟩

theorem exists_of_identical (h : verdict hashBytes w c = .identical) :
  ∃ buf, c.value = some buf ∧ w.latestHash.lookup c.vkey = some (hashBytes buf)
  := by
  rw [verdict] at h
  cases hvalue : c.value with
  | none =>
    simp only [hvalue] at h
    split_ifs at h
  | some buf =>
    simp only [hvalue] at h
    split_ifs at h with _ hhash
    exact ⟨buf, rfl, hhash⟩

/-- A value with the hash of the one that was accepted last is that one. -/
theorem lookup_accepted_identical
    (hw : ∀ k h, w.latestHash.lookup k = some h →
      ∃ v, w.accepted.lookup k = some (some v) ∧ hashBytes v = h)
    (hc : NoCollision hashBytes w c) (h : verdict hashBytes w c = .identical) (k : Str) :
  (w.accepted.insert c.vkey c.value).lookup k = w.accepted.lookup k
  := by
  obtain ⟨buf, hbuf, hhash⟩ := exists_of_identical h
  obtain ⟨v, hv, heq⟩ := hw c.vkey _ hhash
  have hsame : buf = v := by
    apply hc buf hbuf v _ heq.symm
    rw [hv]
    rfl
  rw [lookup_insert_eq]
  split_ifs with hk
  · rw [hk, hv, hbuf, hsame]
  · rfl

/-- What is noted of a value that is queued: the hash of its key is its own. -/
theorem note_cases (hashBytes : Bytes → UInt64) (w : World) (c : ReplicateCall) :
  ∃ hashes times,
    note hashBytes w c = { w with latestHash := hashes, lastAcceptedMs := times } ∧
      ∀ k h, hashes.lookup k = some h →
        if k = c.vkey then ∃ buf, c.value = some buf ∧ hashBytes buf = h
        else w.latestHash.lookup k = some h
  := by
  rw [note]
  cases c.value with
  | none =>
    refine ⟨_, _, rfl, ?_⟩
    intro k h hh
    rw [lookup_erase_eq] at hh
    split_ifs at hh with hk
    rw [if_neg hk]
    exact hh
  | some buf =>
    refine ⟨_, _, rfl, ?_⟩
    intro k h hh
    rw [lookup_insert_eq] at hh
    split_ifs at hh with hk
    · rw [if_pos hk]
      exact ⟨buf, rfl, some.inj hh⟩
    · rw [if_neg hk]
      exact hh

theorem evictFor_note (hc : c.vkey ∈ w.pending ∨ size w.pending < pendingQueueCap) :
  evictFor (note hashBytes w c) c = note hashBytes w c
  := by
  obtain ⟨hashes, times, hnote, -⟩ := note_cases hashBytes w c
  rw [evictFor, hnote, if_neg]
  rintro ⟨hfull, hnew⟩
  obtain hmem | hlt := hc
  · exact hnew hmem
  · dsimp only at hfull
    omega

theorem handles_queued (hashBytes : Bytes → UInt64) (w : World) (c : ReplicateCall) :
  Handles w (kickDrain (enqueue (note hashBytes w c) c))
  := by
  obtain ⟨hashes, times, hnote, -⟩ := note_cases hashBytes w c
  rw [hnote]
  refine ⟨rfl, rfl, rfl, rfl, rfl, rfl, ?_⟩
  intro k
  simp only [kickDrain, enqueue, lookup_insert_eq]
  split_ifs with hk
  · exact .inr ⟨_, rfl, rfl⟩
  · exact .inl ⟨rfl, rfl⟩

section Coherent

variable (hw : Coherent hashBytes w)
include hw

theorem Coherent.kickDrain_enqueue (hc : RoundTrips c.vkey) :
  Coherent hashBytes (kickDrain (enqueue (note hashBytes w c) c))
  := by
  obtain ⟨hashes, times, hnote, hhashes⟩ := note_cases hashBytes w c
  rw [hnote]
  constructor
  · intro k x hx
    simp only [kickDrain, enqueue, lookup_insert_eq] at hx ⊢
    split_ifs at hx ⊢ with hk
    · exact hx
    · apply hw.queued k x hx
  · intro k h hh
    have hnoted := hhashes k h hh
    simp only [kickDrain, enqueue, lookup_insert_eq]
    split_ifs at hnoted ⊢ with hk
    · obtain ⟨buf, hbuf, heq⟩ := hnoted
      rw [hbuf]
      exact ⟨buf, rfl, heq⟩
    · apply hw.hashed k h hnoted
  · intro k x hx
    simp only [kickDrain, enqueue, lookup_insert_eq] at hx
    split_ifs at hx with hk
    · rw [hk]
      exact hc
    · apply hw.named k x hx
  · exact hw.listed

theorem Coherent.replicateTriple (hc : Proper hashBytes w c) :
  Coherent hashBytes (replicateTriple hashBytes w c)
  := by
  obtain ⟨⟨hroom, hcollision⟩, htrips⟩ := hc
  rw [Replicator.replicateTriple]
  cases hverdict : verdict hashBytes w c with
  | ignored => exact hw
  | identical =>
    have hsame := lookup_accepted_identical hw.hashed hcollision hverdict
    apply Coherent.kickIfPending
    constructor
    · intro k x hx
      rw [hsame]
      apply hw.queued k x hx
    · intro k h hh
      rw [hsame]
      apply hw.hashed k h hh
    · intro k x hx
      rw [hsame] at hx
      apply hw.named k x hx
    · exact hw.listed
  | tooSoon => apply hw.kickIfPending
  | queued =>
    dsimp only
    rw [evictFor_note (hroom hverdict)]
    apply hw.kickDrain_enqueue htrips

theorem handles_replicateTriple (hc : Proper hashBytes w c) :
  Handles w (replicateTriple hashBytes w c)
  := by
  obtain ⟨⟨hroom, hcollision⟩, -⟩ := hc
  rw [replicateTriple]
  cases hverdict : verdict hashBytes w c with
  | ignored => apply Handles.refl
  | identical =>
    have hsame := lookup_accepted_identical hw.hashed hcollision hverdict
    apply Handles.trans _ (handles_kickIfPending _)
    exact ⟨rfl, rfl, rfl, rfl, rfl, rfl, fun k => .inl ⟨rfl, hsame k⟩⟩
  | tooSoon => apply handles_kickIfPending
  | queued =>
    dsimp only
    rw [evictFor_note (hroom hverdict)]
    apply handles_queued

theorem handle_spec {calls : List ReplicateCall}
    (hcalls : Run.Meets (replicateTriple hashBytes) (Proper hashBytes) w calls) :
  Coherent hashBytes (handle hashBytes w calls) ∧ Handles w (handle hashBytes w calls)
  := by
  constructor
  · apply Run.run_invariant _ hw hcalls
    intro w c hw hc
    apply hw.replicateTriple hc
  · apply Run.run_related Handles.refl _ _ _ hw hcalls
    · intro w w' w'' h h'
      apply h.trans h'
    · intro w c hw hc
      apply hw.replicateTriple hc
    · intro w c hw hc
      apply handles_replicateTriple hw hc

end Coherent

/-- A drain is begun by a call only when something is queued. -/
theorem waiting_replicateTriple (hw : w.draining = true → Waiting w)
    (h : (replicateTriple hashBytes w c).draining = true) :
  Waiting (replicateTriple hashBytes w c)
  := by
  have hkick (w : World) (hw : w.draining = true → Waiting w)
      (h : (kickIfPending w).draining = true) : Waiting (kickIfPending w) := by
    obtain hkept | ⟨hwaiting, hkicked⟩ := kickIfPending_cases w
    · rw [hkept] at h ⊢
      exact hw h
    · rw [hkicked]
      exact hwaiting
  rw [replicateTriple] at h ⊢
  cases hverdict : verdict hashBytes w c with
  | ignored =>
    rw [hverdict] at h
    exact hw h
  | identical =>
    rw [hverdict] at h
    exact hkick { w with accepted := w.accepted.insert c.vkey c.value } hw h
  | tooSoon =>
    rw [hverdict] at h
    exact hkick w hw h
  | queued => exact ⟨c.vkey, c.value, AList.lookup_insert _⟩

theorem Idle.replicateTriple (hw : Idle hashBytes w) (hc : Proper hashBytes w c) :
  Idle hashBytes (replicateTriple hashBytes w c)
  := by
  cases hdisabled : w.disabled with
  | true =>
    have hignored : verdict hashBytes w c = .ignored := by
      rw [verdict, if_pos hdisabled]
    rw [Replicator.replicateTriple, hignored]
    exact hw
  | false =>
    have hlooping := hw.looping hdisabled
    have hhandles := handles_replicateTriple hlooping.coherent hc
    constructor
    · intro _
      apply hhandles.looping hlooping (hlooping.coherent.replicateTriple hc)
    · intro hdraining
      refine ⟨hhandles.disabled.trans hdisabled, ?_⟩
      apply waiting_replicateTriple _ hdraining
      intro h
      exact (hw.waiting h).2

end RgbLightning.Replicator
