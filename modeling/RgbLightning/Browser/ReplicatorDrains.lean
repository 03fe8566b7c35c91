import RgbLightning.Browser.ReplicatorCalls

/-!
# What a drain leaves on the remote store

A drain that ends with an empty queue, after the manifest was loaded and without a failed
request, leaves the last accepted value of every key on the remote store, and the manifest
lists the keys that have one: `downloadAll` gives back what was accepted
(`drained_reproduces`).  That needs the remote names of the keys to stand for themselves.
A value with an empty key is dropped from the queue and never sent
(`empty_key_not_reproduced`).
-/

namespace RgbLightning.Replicator

open Session Prog

variable {hashBytes : Bytes → UInt64} {w w' : World}
variable {vkey : Str} {value : Option Bytes}

/-! ### Operations -/

/-- A postcondition of a program while proper calls come in. -/
abbrev Properly (hashBytes : Bytes → UInt64) {α : Type} (p : Prog interface α) :
    (α → World → Prop) → World → Prop :=
  p.wp (machine hashBytes) (calls hashBytes (Proper hashBytes)) (Idle hashBytes)

/-- A request: calls are handled while it is awaited. -/
theorem wp_await {o : Op} {Q : Ans o → World → Prop} (ho : o.awaits = true)
    (hw : Coherent hashBytes w)
    (hact : ∀ f w', Coherent hashBytes w' → Handles w w' →
      Q (act hashBytes f o w').1 (act hashBytes f o w').2) :
  Properly hashBytes (op o) Q w
  := by
  refine ⟨fun _ => idle_new w.server w.history, fun f hf => ?_⟩
  obtain ⟨hcoherent, hhandles⟩ := handle_spec hw (hf ho)
  simp only [machine, exec, if_pos ho]
  apply hact f _ hcoherent hhandles

theorem wp_local {o : Op} {Q : Ans o → World → Prop} (ho : o.awaits = false)
    (hact : ∀ f, Q (act hashBytes f o w).1 (act hashBytes f o w).2) :
  Properly hashBytes (op o) Q w
  := by
  refine ⟨fun _ => idle_new w.server w.history, fun f _ => ?_⟩
  simp only [machine, exec, ho]
  apply hact f

theorem wp_local_bind {α : Type} {o : Op} {next : Ans o → Prog interface α}
    {Q : α → World → Prop} (ho : o.awaits = false)
    (hnext : ∀ f, Properly hashBytes (next (act hashBytes f o w).1) Q (act hashBytes f o w).2) :
  Properly hashBytes (op o >>= next) Q w
  := (wp_bind _ _ _ _).mpr (wp_local ho hnext)

theorem reading_spec {α : Type} {answer : α} (Q : Option α → World → Prop)
    (hworks : Q (some answer) w) (hfails : Q none { w with failed := true })
    (fate : WriteFate) :
  Q (reading w fate answer).1 (reading w fate answer).2
  := by
  cases fate with
  | works => exact hworks
  | fails => exact hfails
  | failsAfterStoring => exact hfails

theorem writing_spec {change : Server → Server} (Q : Bool → World → Prop)
    (hworks : Q true { w with server := change w.server })
    (hfails : Q false { w with failed := true })
    (hstores : Q false { w with server := change w.server, failed := true })
    (fate : WriteFate) :
  Q (writing w fate change).1 (writing w fate change).2
  := by
  cases fate with
  | works => exact hworks
  | fails => exact hfails
  | failsAfterStoring => exact hstores

theorem wp_getVersion {Q : Option Bool → World → Prop} (hw : Coherent hashBytes w)
    (hworks : ∀ w', Coherent hashBytes w' → Handles w w' →
      Q (some (w'.server.objects.lookup vkey).isSome) w')
    (hfails : ∀ w', Coherent hashBytes w' → Handles w w' → Q none { w' with failed := true }) :
  Properly hashBytes (op (.getVersion vkey)) Q w
  := by
  apply wp_await rfl hw
  intro f w' hcoherent hhandles
  apply reading_spec Q (hworks w' hcoherent hhandles) (hfails w' hcoherent hhandles)

theorem wp_readManifest {Q : Option (List Str) → World → Prop} (hw : Coherent hashBytes w)
    (hworks : ∀ w', Coherent hashBytes w' → Handles w w' →
      Q (some (w'.server.manifest.getD [])) w')
    (hfails : ∀ w', Coherent hashBytes w' → Handles w w' → Q none { w' with failed := true }) :
  Properly hashBytes (op .readManifest) Q w
  := by
  apply wp_await rfl hw
  intro f w' hcoherent hhandles
  apply reading_spec Q (hworks w' hcoherent hhandles) (hfails w' hcoherent hhandles)

/-! ### Sending a value -/

/-- A request for a key changes nothing but the object under that key. -/
theorem Underway.stored (hw : Underway hashBytes vkey value w) {objects : Table Str Bytes}
    (hobjects : ∀ k ≠ vkey, objects.lookup k = w.server.objects.lookup k) (failed : Bool) :
  Underway hashBytes vkey value
    { w with server := { w.server with objects := objects }, failed := failed }
  := by
  refine ⟨⟨hw.coherent.queued, hw.coherent.hashed, hw.coherent.named, hw.coherent.listed⟩,
    hw.enabled, ?_, hw.newest⟩
  intro k hk hnone x hx
  obtain ⟨hobject, htracked⟩ := hw.settled k hk hnone x hx
  exact ⟨(hobjects k hk).trans hobject, htracked⟩

/-- What holds when a value was sent, or could not be sent. -/
structure Sent (hashBytes : Bytes → UInt64) (vkey : Str) (value : Option Bytes) (ok : Bool)
    (w : World) : Prop where
  underway : Underway hashBytes vkey value w
  stored : ok = true → w.server.objects.lookup vkey = value
  failed : ok = false → w.failed = true

theorem Underway.failed (hw : Underway hashBytes vkey value w) :
  Sent hashBytes vkey value false { w with failed := true }
  := ⟨hw.stored (fun _ _ => rfl) true, by rintro ⟨⟩, fun _ => rfl⟩

theorem Underway.writing (hw : Underway hashBytes vkey value w) {objects : Table Str Bytes}
    (hobjects : ∀ k, objects.lookup k = if k = vkey then value else w.server.objects.lookup k)
    (fate : WriteFate) :
  let answer := writing w fate fun s => { s with objects := objects }
  Sent hashBytes vkey value answer.1 answer.2
  := by
  have hothers : ∀ k ≠ vkey, objects.lookup k = w.server.objects.lookup k := by
    intro k hk
    rw [hobjects k, if_neg hk]
  apply writing_spec (Sent hashBytes vkey value)
  · refine ⟨hw.stored hothers w.failed, fun _ => ?_, by rintro ⟨⟩⟩
    exact (hobjects vkey).trans (if_pos rfl)
  · exact hw.failed
  · exact ⟨hw.stored hothers true, by rintro ⟨⟩, fun _ => rfl⟩

theorem send_wp {key : Key} (hw : Underway hashBytes (vssKey key) value w) :
  Properly hashBytes (send key value) (Sent hashBytes (vssKey key) value) w
  := by
  cases value with
  | some buf =>
    apply wp_await rfl hw.coherent
    intro f w' hcoherent hhandles
    apply (hhandles.underway hw hcoherent).writing
    intro k
    apply Table.lookup_insert_eq
  | none =>
    change (op (.getVersion (vssKey key)) >>= _).wp _ _ _ _ _
    rw [wp_bind]
    apply wp_getVersion hw.coherent
    · intro w' hcoherent hhandles
      have hw' := hhandles.underway hw hcoherent
      cases hobject : w'.server.objects.lookup (vssKey key) with
      | none => exact ⟨hw', fun _ => hobject, by rintro ⟨⟩⟩
      | some object =>
        apply wp_await rfl hw'.coherent
        intro f w'' hcoherent hhandles
        apply (hhandles.underway hw' hcoherent).writing
        intro k
        apply Table.lookup_erase_eq
    · intro w' hcoherent hhandles
      exact (hhandles.underway hw hcoherent).failed

/-! ### The manifest -/

theorem synced_of_failed (h : w.failed = true) :
  Synced w
  := by
  intro hfailed
  rw [h] at hfailed
  cases hfailed

section Looping

variable (hw : Looping hashBytes w)
include hw

/-- A state that differs in what the invariant does not mention. -/
theorem Looping.bookkeeping (failed : Bool) (writes : ℕ) (replies : List FenceReply) :
  Looping hashBytes
    { w with failed := failed, writesSinceFenceCheck := writes, fenceReplies := replies }
  := ⟨⟨hw.coherent.queued, hw.coherent.hashed, hw.coherent.named, hw.coherent.listed⟩,
    hw.enabled, hw.settled⟩

/-- As long as a change is parked the manifest may be anything. -/
theorem Looping.withManifest (hparked : w.pendingManifest ≠ ∅) (keys : List Str) (failed : Bool) :
  Looping hashBytes
    { w with server := { w.server with manifest := some keys }, failed := failed }
  := ⟨⟨hw.coherent.queued, hw.coherent.hashed, hw.coherent.named,
    fun _ hempty => absurd hempty hparked⟩, hw.enabled, hw.settled⟩

/-- When the changes are in the manifest, they are no longer parked. -/
theorem Looping.commit (hloaded : w.manifestLoaded = true)
    (hmanifest : w.server.manifest = some (applyChanges w.known w.pendingManifest)) :
  Looping hashBytes { w with
    known := applyChanges w.known w.pendingManifest
    pendingManifest := ∅ }
  := by
  refine ⟨⟨hw.coherent.queued, hw.coherent.hashed, hw.coherent.named, ?_⟩, hw.enabled, ?_⟩
  · intro _ _ k
    simp only [hmanifest, Option.getD_some]
  intro k hnone x hx
  obtain ⟨hobject, htracked⟩ := hw.settled k hnone x hx
  refine ⟨hobject, .inr ⟨rfl, hloaded, ?_⟩⟩
  rw [mem_applyChanges]
  obtain hparked | ⟨hparked, -, hknown⟩ := htracked
  · simp [hparked]
  · simp [hparked, hknown]

theorem syncManifest_wp :
  Properly hashBytes syncManifest (fun _ w' => Looping hashBytes w' ∧ Synced w') w
  := by
  apply wp_local_bind rfl
  intro f
  simp only [act]
  split_ifs with hnothing
  · refine ⟨hw, ?_⟩
    intro _ hloaded
    rw [hloaded, Bool.not_true, Bool.false_or] at hnothing
    exact entries_isEmpty_iff.mp hnothing
  rw [Bool.or_eq_true, not_or, Bool.not_eq_true', Bool.not_eq_false, entries_isEmpty_iff]
    at hnothing
  obtain ⟨hloaded, hparked⟩ := hnothing
  dsimp only
  rw [Properly, wp_bind]
  apply wp_await rfl hw.coherent
  intro f w' hcoherent hhandles
  have hw' := hhandles.looping hw hcoherent
  rw [← hhandles.pendingManifest] at hparked ⊢
  rw [← hhandles.known]
  rw [← hhandles.manifestLoaded] at hloaded
  apply writing_spec (fun ok w'' => wp _ _ _ (if ok then op .commit else pure ()) _ w'')
  · apply wp_local rfl
    intro f
    have hwritten := hw'.withManifest hparked
      (applyChanges w'.known w'.pendingManifest) w'.failed
    exact ⟨hwritten.commit hloaded rfl, fun _ _ => rfl⟩
  · exact ⟨hw'.bookkeeping true _ _, synced_of_failed rfl⟩
  · exact ⟨hw'.withManifest hparked _ true, synced_of_failed rfl⟩

omit hw in
/-- A value that was sent, whose key is listed as it has to be. -/
theorem Sent.unchanged (hw : Sent hashBytes vkey value true w)
    (hloaded : w.manifestLoaded = true) (hknown : vkey ∈ w.known ↔ value.isSome = true)
    (hparked : w.pendingManifest = ∅) :
  Looping hashBytes w ∧ Synced w
  := by
  refine ⟨⟨hw.underway.coherent, hw.underway.enabled, ?_⟩, fun _ _ => hparked⟩
  intro k
  by_cases hk : k = vkey
  · subst hk
    intro hnone x hx
    obtain rfl : value = x := Option.some.inj ((hw.underway.newest hnone).symm.trans hx)
    refine ⟨hw.stored rfl, .inr ⟨?_, hloaded, hknown⟩⟩
    rw [hparked]
    rfl
  · apply hw.underway.settled k hk

omit hw in
theorem Sent.park (hw : Sent hashBytes vkey value true w) :
  Looping hashBytes
    { w with pendingManifest := w.pendingManifest.insert vkey value.isSome }
  := by
  have hcoherent := hw.underway.coherent
  refine ⟨⟨hcoherent.queued, hcoherent.hashed, hcoherent.named, ?_⟩, hw.underway.enabled, ?_⟩
  · intro _ hempty
    have hlookup := congrArg (AList.lookup vkey) hempty
    rw [AList.lookup_insert] at hlookup
    cases hlookup
  intro k hnone x hx
  by_cases hk : k = vkey
  · subst hk
    obtain rfl : value = x := Option.some.inj ((hw.underway.newest hnone).symm.trans hx)
    exact ⟨hw.stored rfl, .inl (AList.lookup_insert _)⟩
  · obtain ⟨hobject, htracked⟩ := hw.underway.settled k hk hnone x hx
    refine ⟨hobject, ?_⟩
    rw [Tracked, AList.lookup_insert_ne hk]
    exact htracked

omit hw in
theorem maintainManifest_wp (hw : Sent hashBytes vkey value true w) :
  Properly hashBytes (maintainManifest vkey value.isSome)
    (fun _ w' => Looping hashBytes w' ∧ Synced w') w
  := by
  apply wp_local_bind rfl
  intro f
  dsimp only [act]
  split_ifs with hunchanged
  · rw [Bool.and_eq_true, Bool.and_eq_true, beq_iff_eq, entries_isEmpty_iff] at hunchanged
    obtain ⟨⟨hloaded, hknown⟩, hparked⟩ := hunchanged
    apply hw.unchanged hloaded _ hparked
    rw [← hknown, decide_eq_true_iff]
  · change (op (.park vkey value.isSome) >>= _).wp _ _ _ _ _
    apply wp_local_bind rfl
    intro f
    apply syncManifest_wp hw.park

/-- When the manifest is read for the first time, only parked changes are tracked. -/
theorem Looping.seed (hloaded : w.manifestLoaded = false) :
  Looping hashBytes { w with
    known := w.server.manifest.getD []
    manifestLoaded := true }
  := by
  refine ⟨⟨hw.coherent.queued, hw.coherent.hashed, hw.coherent.named, ?_⟩, hw.enabled, ?_⟩
  · intro _ _ k
    rfl
  · intro k hnone x hx
    obtain ⟨hobject, hparked | ⟨-, h, -⟩⟩ := hw.settled k hnone x hx
    · exact ⟨hobject, .inl hparked⟩
    · rw [hloaded] at h
      cases h

theorem loadManifest_wp (hwaiting : Waiting w) :
  Properly hashBytes loadManifest (fun _ w' => Looping hashBytes w' ∧ (Synced w' ∨ Waiting w')) w
  := by
  apply wp_local_bind rfl
  intro f
  dsimp only [act]
  have hstarted := hw.bookkeeping false w.writesSinceFenceCheck w.fenceReplies
  split_ifs with hloaded
  · exact ⟨hstarted, .inr hwaiting⟩
  rw [Bool.not_eq_true] at hloaded
  change (op .readManifest >>= _).wp _ _ _ _ _
  rw [wp_bind]
  apply wp_readManifest hstarted.coherent
  · intro w' hcoherent hhandles
    apply wp_local_bind rfl
    intro f
    have hw' := hhandles.looping hstarted hcoherent
    apply wp_mono (fun _ h => h) _ _ _
      (syncManifest_wp (hw'.seed (hhandles.manifestLoaded.trans hloaded)))
    rintro _ w'' ⟨hlooping, hsynced⟩
    exact ⟨hlooping, .inl hsynced⟩
  · intro w' hcoherent hhandles
    exact ⟨(hhandles.looping hstarted hcoherent).bookkeeping true _ _,
      .inl (synced_of_failed rfl)⟩

/-! ### The loop -/

theorem fenceLost_wp (hsynced : Synced w) :
  Properly hashBytes fenceLost
    (fun lost w' => Looping hashBytes w' ∧ Synced w' ∧ (lost = true → w'.failed = true)) w
  := by
  apply wp_local_bind rfl
  intro f
  dsimp only [act]
  by_cases hdue : fenceCheckInterval ≤ w.writesSinceFenceCheck + 1
  · rw [if_pos hdue]
    have hcounted := hw.bookkeeping w.failed 0 w.fenceReplies
    change (op .checkFence >>= _).wp _ _ _ _ _
    rw [wp_bind]
    apply wp_await rfl hcounted.coherent
    intro f w' hcoherent hhandles
    have hw' := hhandles.looping hcounted hcoherent
    simp only [act]
    cases f.fence.kept with
    | true =>
      rw [Bool.not_true, Bool.or_false]
      exact ⟨hw'.bookkeeping w'.failed _ _, hhandles.synced hsynced, by rintro ⟨⟩⟩
    | false =>
      rw [Bool.not_false, Bool.or_true]
      exact ⟨hw'.bookkeeping true _ _, synced_of_failed rfl, fun _ => rfl⟩
  · rw [if_neg hdue]
    exact ⟨hw.bookkeeping w.failed _ _, hsynced, by rintro ⟨⟩⟩

theorem Looping.pop (hpending : w.pending.lookup vkey = some value) :
  Underway hashBytes vkey value { w with pending := w.pending.erase vkey }
  := by
  refine ⟨⟨?_, hw.coherent.hashed, hw.coherent.named, hw.coherent.listed⟩, hw.enabled, ?_, ?_⟩
  · intro k x hx
    apply hw.coherent.queued k x (Table.lookup_of_lookup_erase hx)
  · intro k hk hnone
    rw [AList.lookup_erase_ne hk] at hnone
    apply hw.settled k hnone
  · intro _
    apply hw.coherent.queued vkey value hpending

omit hw in
theorem Underway.requeue (hw : Underway hashBytes vkey value w) :
  Looping hashBytes
    (if vkey ∈ w.pending then w else { w with pending := w.pending.insert vkey value })
  := by
  split_ifs with hmem
  · refine ⟨hw.coherent, hw.enabled, fun k => ?_⟩
    by_cases hk : k = vkey
    · intro hnone
      rw [hk] at hnone
      exact absurd hmem (AList.lookup_eq_none.mp hnone)
    · apply hw.settled k hk
  have hnewest := hw.newest (AList.lookup_eq_none.mpr hmem)
  refine ⟨⟨?_, hw.coherent.hashed, hw.coherent.named, hw.coherent.listed⟩, hw.enabled, ?_⟩
  · intro k x hx
    rw [Table.lookup_insert_eq] at hx
    split_ifs at hx with hk
    · rw [hk, hnewest, hx]
    · apply hw.coherent.queued k x hx
  · intro k hnone
    rw [Table.lookup_insert_eq] at hnone
    split_ifs at hnone with hk
    apply hw.settled k hk hnone

theorem Looping.finish (hsynced : w.pending = ∅ → Synced w) :
  Ended hashBytes { w with draining := false }
  := by
  refine ⟨⟨fun _ => ?_, by rintro ⟨⟩⟩, ?_⟩
  · exact ⟨⟨hw.coherent.queued, hw.coherent.hashed, hw.coherent.named, hw.coherent.listed⟩,
      hw.enabled, hw.settled⟩
  · intro hempty hloaded hfailed
    exact ⟨hw.enabled, hsynced hempty hfailed hloaded⟩

end Looping

theorem ended_disable (hashBytes : Bytes → UInt64) (hfailed : w.failed = true) :
  Ended hashBytes { w with
    disabled := true, pending := ∅, latestHash := ∅, lastAcceptedMs := ∅, draining := false }
  := by
  refine ⟨⟨by rintro ⟨⟩, by rintro ⟨⟩⟩, ?_⟩
  intro _ _ hnone
  rw [hfailed] at hnone
  cases hnone

/-- A round of the drain: `none` if another one follows, otherwise whether it came to its
end. -/
def round : Prog interface (Option Bool) := do
  match ← op .pop with
  | none =>
    op .finish
    return some true
  | some (vkey, value) =>
    match parseVssKey vkey with
    | none => return none
    | some key =>
      if ← send key value then
        maintainManifest vkey value.isSome
        if ← fenceLost then
          op .disable
          op .finish
          return some true
        return none
      else
        op (.requeue vkey value)
        op .finish
        return some true

theorem drainLoop_succ (fuel : ℕ) :
  drainLoop (fuel + 1) = round >>= fun result => result.elim (drainLoop fuel) pure
  := by
  rw [drainLoop, round, bind_assoc]
  congr 1
  funext entry
  rcases entry with _ | ⟨vkey, value⟩
  · rfl
  dsimp only
  cases parseVssKey vkey with
  | none => rfl
  | some key =>
    dsimp only
    rw [bind_assoc]
    congr 1
    funext sent
    cases sent with
    | false => rfl
    | true =>
      simp only [if_true, bind_assoc]
      congr 1
      funext _
      congr 1
      funext lost
      cases lost <;> rfl

/-- What every round keeps, as long as another one follows, decides what a drain does. -/
theorem drainLoop_rule {G : Guard interface World Fault} {C I : World → Prop}
    {Q : Bool → World → Prop} (hcrash : ∀ w, I w → C (reboot w))
    (habandon : ∀ w, I w → Q false (reboot w))
    (hround : ∀ w, I w →
      round.wp (machine hashBytes) G C (fun r w' => r.elim (I w') (Q · w')) w)
    (fuel : ℕ) (hw : I w) :
  (drainLoop fuel).wp (machine hashBytes) G C Q w
  := by
  induction fuel generalizing w with
  | zero => exact ⟨fun _ => hcrash w hw, fun _ _ => habandon w hw⟩
  | succ fuel ih =>
    rw [drainLoop_succ]
    apply wp_seq (hround w hw)
    rintro (_ | ended) w' hw'
    · exact ih hw'
    · exact hw'

/-- What holds at the beginning of a round. -/
def AtRound (hashBytes : Bytes → UInt64) (w : World) : Prop :=
  Looping hashBytes w ∧ (Synced w ∨ Waiting w)

theorem round_wp (hw : AtRound hashBytes w) :
  Properly hashBytes round
    (fun r w' => r.elim (AtRound hashBytes w') (fun _ => Ended hashBytes w')) w
  := by
  obtain ⟨hw, hhead⟩ := hw
  apply wp_local_bind rfl
  intro f
  dsimp only [act]
  cases hentry : entryAt w.pending f.choice with
  | none =>
    have hempty := eq_empty_of_entryAt hentry
    have hsynced : Synced w := by
      obtain hsynced | ⟨k, x, hx⟩ := hhead
      · exact hsynced
      · rw [hempty] at hx
        cases hx
    apply wp_local_bind rfl
    intro f
    exact hw.finish fun _ => hsynced
  | some entry =>
    obtain ⟨vkey, value⟩ := entry
    have hpending := lookup_of_entryAt hentry
    have hpopped := hw.pop hpending
    -- What was accepted can be sent: its remote name stands for itself.
    have htrips := hw.coherent.named vkey value (hw.coherent.queued vkey value hpending)
    obtain ⟨key, hparse, rfl⟩ := Option.map_eq_some_iff.mp htrips
    simp only [hparse]
    apply wp_seq (send_wp hpopped)
    intro ok w1 hsent
    cases ok with
    | true =>
      change (maintainManifest _ _ >>= _).wp _ _ _ _ _
      apply wp_seq (maintainManifest_wp hsent)
      rintro _ w2 ⟨hw2, hsynced⟩
      apply wp_seq (fenceLost_wp hw2 hsynced)
      rintro lost w3 ⟨hw3, hsynced, hlost⟩
      cases lost with
      | false => exact ⟨hw3, .inl hsynced⟩
      | true =>
        apply wp_local_bind rfl
        intro f
        apply wp_local_bind rfl
        intro f
        exact ended_disable hashBytes (hlost rfl)
    | false =>
      apply wp_local_bind rfl
      intro f
      apply wp_local_bind rfl
      intro f
      apply hsent.underway.requeue.finish
      intro _
      apply synced_of_failed
      split_ifs
      · exact hsent.failed rfl
      · exact hsent.failed rfl

theorem drain_wp (fuel : ℕ) (hw : Idle hashBytes w) (hdraining : w.draining = true) :
  Properly hashBytes (drain fuel)
    (fun ended w' => Idle hashBytes w' ∧ (ended = true → Ended hashBytes w')) w
  := by
  obtain ⟨henabled, hwaiting⟩ := hw.waiting hdraining
  rw [drain]
  apply wp_seq (loadManifest_wp (hw.looping henabled) hwaiting)
  intro _ w' hw'
  apply drainLoop_rule (I := AtRound hashBytes) _ _ _ fuel hw'
  · intro w _
    apply idle_new
  · intro w _
    exact ⟨idle_new w.server w.history, by rintro ⟨⟩⟩
  · intro w hw
    apply wp_imp (round_wp hw)
    rintro (_ | ended) w' hw'
    · exact hw'
    · exact ⟨hw'.idle, fun _ => hw'⟩

/-! ### Sessions -/

theorem body_wp (call : Call) (hpre : pre (Proper hashBytes) call w) (hw : Idle hashBytes w) :
  Properly hashBytes (body call) (fun _ => Idle hashBytes) w
  := by
  cases call with
  | replicate c =>
    apply wp_local_bind rfl
    intro f
    apply hw.replicateTriple hpre
  | drain fuel =>
    apply wp_imp (drain_wp fuel hw hpre)
    rintro _ w' ⟨hw', -⟩
    exact hw'

/-- `downloadAll` gives the last accepted value of every key that was not removed last, and
no other value for a key that was accepted. -/
def Reproduced (w : World) : Prop :=
  ∀ k x, w.accepted.lookup k = some x → ∀ v, (k, v) ∈ downloadAll w.server ↔ x = some v

theorem Ended.reproduced (hw : Ended hashBytes w) (hempty : w.pending = ∅)
    (hloaded : w.manifestLoaded = true) (hfailed : w.failed = false) :
  Reproduced w
  := by
  obtain ⟨henabled, hparked⟩ := hw.synced hempty hloaded hfailed
  have hlooping := hw.idle.looping henabled
  intro k x hx v
  have hnone : w.pending.lookup k = none := by
    rw [hempty]
    rfl
  obtain ⟨hobject, htracked⟩ := hlooping.settled k hnone x hx
  have hlisted : k ∈ w.server.manifest.getD [] ↔ x.isSome = true := by
    rw [hlooping.coherent.listed hloaded hparked k]
    obtain h | ⟨-, -, h⟩ := htracked
    · rw [hparked] at h
      cases h
    · exact h
  have hne := (hlooping.coherent.named k x hx).ne_manifestKey
  rw [mem_downloadAll, hlisted, hobject]
  constructor
  · rintro ⟨-, -, h⟩
    exact h
  · rintro rfl
    exact ⟨rfl, hne, rfl⟩

abbrev Action : Type := Session.Action Call Fault

/-- A session of a new replicator. -/
def session (hashBytes : Bytes → UInt64) (server : Server) (as : List Action) :
    Session.State World Call Bool :=
  Session.run (machine hashBytes) body ⟨[], { server := server }⟩ as

/-- The calls of a session satisfy a condition. -/
def Obeys (hashBytes : Bytes → UInt64) (P : World → ReplicateCall → Prop) (server : Server)
    (as : List Action) : Prop :=
  Session.AllowsAll (machine hashBytes) (calls hashBytes P) (pre P) body
    ⟨[], { server := server }⟩ as

instance (hashBytes : Bytes → UInt64) (P : World → ReplicateCall → Prop)
    [∀ w c, Decidable (P w c)] (server : Server) (as : List Action) :
    Decidable (Obeys hashBytes P server as) :=
  decidableAllowsAll _ _ _ _ _ _

/-- The session has just made a drain that came to its end with an empty queue, after the
manifest was loaded and without a failed request. -/
structure Drained (s : Session.State World Call Bool) : Prop where
  ended : ∃ fuel, s.history.getLast? = some (.drain fuel, some true)
  empty : s.world.pending = ∅
  loaded : s.world.manifestLoaded = true
  worked : s.world.failed = false

theorem idle_session {server : Server} {as : List Action}
    (has : Obeys hashBytes (Proper hashBytes) server as) :
  Idle hashBytes (session hashBytes server as).world
  := by
  apply Session.run_invariant (I := fun _ w => Idle hashBytes w) _ _ as (idle_new server []) has
  · intro h call w hpre hw
    apply body_wp call hpre hw
  · intro h w _
    apply idle_new

theorem ended_session {server : Server} {as : List Action}
    (has : Obeys hashBytes (Proper hashBytes) server as)
    (hdrained : Drained (session hashBytes server as)) :
  Ended hashBytes (session hashBytes server as).world
  := by
  obtain rfl | ⟨as, a, rfl⟩ := List.eq_nil_or_concat as
  · obtain ⟨fuel, ⟨⟩⟩ := hdrained.ended
  rw [List.concat_eq_append] at has hdrained ⊢
  obtain ⟨hfirst, hlast⟩ := Session.allowsAll_concat has
  have hstep : session hashBytes server (as ++ [a]) =
      Session.step (machine hashBytes) body (session hashBytes server as) a :=
    List.foldl_concat _ _ _ _
  rw [hstep] at hdrained ⊢
  cases a with
  | restart => cases hdrained.loaded
  | call c fs =>
    obtain ⟨hpre, hadmits⟩ := hlast
    obtain ⟨fuel, hended⟩ := hdrained.ended
    rw [Session.step, List.getLast?_concat, Option.some.injEq, Prod.mk.injEq] at hended
    obtain ⟨rfl, hresult⟩ := hended
    obtain ⟨hreturns, -⟩ := exec_of_wp _ _ _
      (drain_wp fuel (idle_session hfirst) hpre) hadmits
    apply (hreturns true hresult).2 rfl

/-- After every drain that ends with an empty queue, the manifest loaded and no failed
request, the remote store gives back what was accepted last. -/
theorem drained_reproduces (hashBytes : Bytes → UInt64) (server : Server) (as : List Action)
    (has : Obeys hashBytes (Proper hashBytes) server as)
    (hdrained : Drained (session hashBytes server as)) :
  Reproduced (session hashBytes server as).world
  := by
  apply (ended_session has hdrained).reproduced hdrained.empty hdrained.loaded hdrained.worked

/-- A hash of bytes that tells short values apart. -/
def sumHash (buf : Bytes) : UInt64 :=
  buf.foldl (fun hash byte => hash * 257 + byte.toUInt64 + 1) 0

def monitorA : Key := ⟨[], str "monitor", str "a"⟩

def monitorB : Key := ⟨[], str "monitor", str "b"⟩

/-- A value is replaced while it is sent and the manifest cannot be written at first.  Later
the first key is removed and a second one stored. -/
def replacedAndRemoved : List Action :=
  [ .call (.replicate { key := monitorA, value := some [1] }) [],
    .call (.drain 5)
      [ .go {}, .go {}, .go {}, .go {}, .go {},
        .go { calls := [{ key := monitorA, value := some [2] }] },
        .go {}, .go {}, .go {}, .go { fate := .fails } ],
    .call (.replicate { key := monitorB, value := some [3] }) [],
    .call (.replicate { key := monitorA, value := none }) [],
    .call (.drain 5) [] ]

theorem drained_reproduces_replacedAndRemoved :
  Obeys sumHash (Proper sumHash) {} replacedAndRemoved ∧
    Drained (session sumHash {} replacedAndRemoved) ∧
    (session sumHash {} replacedAndRemoved).world.accepted.lookup (vssKey monitorA)
      = some none ∧
    (session sumHash {} replacedAndRemoved).world.accepted.lookup (vssKey monitorB)
      = some (some [3]) ∧
    Reproduced (session sumHash {} replacedAndRemoved).world
  := by
  have has : Obeys sumHash (Proper sumHash) {} replacedAndRemoved := by
    decide +kernel
  have hdrained : Drained (session sumHash {} replacedAndRemoved) := by
    constructor
    · use 5
      decide +kernel
    · apply entries_isEmpty_iff.mp
      decide +kernel
    · decide +kernel
    · decide +kernel
  refine ⟨has, hdrained, ?_, ?_, ?_⟩
  · decide +kernel
  · decide +kernel
  · apply drained_reproduces sumHash {} replacedAndRemoved has hdrained

/-- A value is stored under an empty key. -/
def emptyKey : List Action :=
  [ .call (.replicate { key := ⟨[], str "monitor", []⟩, value := some [1] }) [],
    .call (.drain 5) [] ]

/-- A value with an empty key is accepted and never reaches the remote store, although the
drain ends with an empty queue and no request fails. -/
theorem empty_key_not_reproduced :
  Obeys sumHash (Regular sumHash) {} emptyKey ∧
    Drained (session sumHash {} emptyKey) ∧
    ¬ Reproduced (session sumHash {} emptyKey).world
  := by
  refine ⟨?_, ?_, ?_⟩
  · decide +kernel
  · constructor
    · use 5
      decide +kernel
    · apply entries_isEmpty_iff.mp
      decide +kernel
    · decide +kernel
    · decide +kernel
  intro h
  have haccepted : (session sumHash {} emptyKey).world.accepted.lookup
      (vssKey ⟨[], str "monitor", []⟩) = some (some [1]) := by
    decide +kernel
  have hmem := (h _ _ haccepted [1]).mpr rfl
  have hnil : downloadAll (session sumHash {} emptyKey).world.server = [] := by
    decide +kernel
  rw [hnil] at hmem
  cases hmem

end RgbLightning.Replicator
