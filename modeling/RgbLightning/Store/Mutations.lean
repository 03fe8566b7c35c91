import RgbLightning.Store.Rules

/-!
# Invariants of the local-first store

The methods of the local-first store that mutate share their parts: a mutation is committed
with its intent, then it is tried on the server, and if that succeeds its intent is cleared;
the pending mutations are tried in the same way.  A property that each of these parts keeps
(`MutationInv`) is kept by the methods, whatever fails and wherever they are interrupted.
-/

namespace RgbLightning

open Prog

/-- The rows after a mutation was committed with its intent. -/
def committedRows (rows : Table Key Bytes) (k : Key) (value : Option Bytes) :
    Table Key Bytes :=
  (rows.assign k value).insert (pendingKey (vssKey k)) (encodePendingRow value)

theorem lookup_committedRows_intent (rows : Table Key Bytes) {k : Key}
    (hk : k.primary ≠ pendingNs) (value : Option Bytes) (vk : Str) :
  (committedRows rows k value).lookup (pendingKey vk)
    = if vk = vssKey k then some (encodePendingRow value) else rows.lookup (pendingKey vk)
  := by
  have hne : pendingKey vk ≠ k := by
    rintro rfl
    exact hk rfl
  rw [committedRows, Table.lookup_insert_eq, Table.lookup_assign_eq, if_neg hne]
  simp only [pendingKey_injective.eq_iff]

/-- A mutation is tried on the server, and its intent is cleared. -/
def replicateAndClear (remote : VssKvStore) (vk : Str) (k : Key) (value : Option Bytes) :
    Store (Except IoError Unit) := do
  match ← remote.replicate k value with
  | .error e => pure (.error e)
  | .ok _ => clearPendingRow vk

/-! ### The transactions -/

section Transactions

variable {G : Guard storeInterface StoreWorld StoreFault} {C : StoreWorld → Prop}
variable {w : StoreWorld} {k : Key} {value : Option Bytes}
variable {Q : Except IoError Unit → StoreWorld → Prop}

variable (hcrash : C w.reboot)
include hcrash

theorem commitWithIntent_wp (hok : Q (.ok ())
      { w with rows := committedRows w.rows k value, commits := w.commits + 1 })
    (herror : ∀ e, Q (.error e) w) :
  (commitWithIntent k value).wp storeMachine G C Q w
  := by
  cases value with
  | some buf => apply wp_transaction (k := id) (fun _ => rfl) hcrash hok (fun e => herror e)
  | none => apply wp_transaction (k := id) (fun _ => rfl) hcrash hok (fun e => herror e)

theorem reservePending_wp {s : SyncedKvStore} {vk : Str}
    {Q : Except IoError (Option (Option Bytes)) → StoreWorld → Prop} (hfull : ∀ e, Q (.error e) w)
    (hok : s.isFull w.pending vk = false →
      Q (.ok (w.pending.lookup vk)) { w with pending := w.pending.insert vk value }) :
  (s.reservePending vk value).wp storeMachine G C Q w
  := by
  rw [SyncedKvStore.reservePending, wp_bind]
  apply wp_modifyPending hcrash
  by_cases h : s.isFull w.pending vk
  · simp only [if_pos h]
    apply hfull
  · simp only [if_neg h]
    apply hok (Bool.eq_false_iff.mpr h)

theorem restorePendingReservation_wp {vk : Str} {Q : Unit → StoreWorld → Prop}
    (hQ : ∀ pending : Pending, (∀ vk', pending.lookup vk' = w.pending.lookup vk') →
      Q () { w with pending }) :
  (restorePendingReservation vk (w.pending.lookup vk)).wp storeMachine G C Q
    { w with pending := w.pending.insert vk value }
  := by
  rcases hprevious : w.pending.lookup vk with _ | previous
  all_goals
    rw [restorePendingReservation, wp_bind]
    refine wp_modifyPending ?_ ?_
    · exact hcrash
    apply hQ
    intro vk'
    simp only [Table.lookup_insert_eq, Table.lookup_erase_eq]
    split_ifs with h
    · rw [h, hprevious]
    · rfl

theorem clearPendingRow_wp {vk : Str}
    (hcrash' : C { w with rows := w.rows.erase (pendingKey vk) }.reboot) (hok : Q (.ok ())
      { w with rows := w.rows.erase (pendingKey vk), pending := w.pending.erase vk })
    (herror : ∀ e, Q (.error e) w) :
  (clearPendingRow vk).wp storeMachine G C Q w
  := by
  rw [clearPendingRow, wp_bind]
  apply wp_transaction (k := id) (fun _ => rfl) hcrash
  · dsimp only [id]
    rw [wp_bind]
    exact wp_modifyPending hcrash' hok
  · intro e
    apply herror

end Transactions

/-! ### The methods -/

/-- A property of the world that the parts of the methods keep. -/
structure MutationInv (remote : VssKvStore) (G : Guard storeInterface StoreWorld StoreFault)
    (C I : StoreWorld → Prop) : Prop where
  sameCore : ∀ w w', SameCore w w' → I w → I w'
  stop : ∀ w, I w → C w
  crash : ∀ w, I w → C w.reboot
  pending : ∀ w (pending : Pending), I w →
    (∀ vk, pending.lookup vk = w.pending.lookup vk) → I { w with pending }
  attempt : ∀ w vk k value, I w → w.pending.lookup vk = some value → parseVssKey vk = some k →
    (replicateAndClear remote vk k value).wp storeMachine G C (fun _ => I) w
  malformed : ∀ w vk value, I w → w.pending.lookup vk = some value → parseVssKey vk = none →
    (clearPendingRow vk).wp storeMachine G C (fun _ => I) w

section Methods

variable {remote : VssKvStore} {G : Guard storeInterface StoreWorld StoreFault}
variable {C I : StoreWorld → Prop} {s : SyncedKvStore} {w : StoreWorld}

variable (hI : MutationInv remote G C I)
include hI

/-- An operation that leaves rows, pending map and server alone, and then a program. -/
theorem MutationInv.wp_then {α : Type} {o : StoreOp} {next : o.Ans → Store α} (hw : I w)
    (ho : o.touchesCore = false) {Q : α → StoreWorld → Prop}
    (hQ : ∀ a w', SameCore w w' → I w' → (next a).wp storeMachine G C Q w') :
  (storeOp o >>= next).wp storeMachine G C Q w
  := by
  apply wp_leavesCore_then ho
  · intro w' h
    apply hI.crash w' (hI.sameCore w w' h hw)
  · intro w' h
    apply hI.stop w' (hI.sameCore w w' h hw)
  · intro a w' h
    apply hQ a w' h (hI.sameCore w w' h hw)

/-- An operation that leaves rows, pending map and server alone, at the end. -/
theorem MutationInv.wp_last {o : StoreOp} (hw : I w) (ho : o.touchesCore = false) :
  (storeOp o).wp storeMachine G C (fun _ => I) w
  := by
  apply wp_leavesCore (p := storeOp o) ⟨ho, fun _ => trivial⟩
  · intro w' h
    apply hI.crash w' (hI.sameCore w w' h hw)
  · intro w' h
    apply hI.stop w' (hI.sameCore w w' h hw)
  · intro _ w' h
    apply hI.sameCore w w' h hw

theorem MutationInv.drainEntries (entries : List (Str × Option Bytes)) (hw : I w) :
  (drainEntries remote entries).wp storeMachine G C (fun _ => I) w
  := by
  induction entries generalizing w with
  | nil => exact hw
  | cons entry entries ih =>
    obtain ⟨vk, value⟩ := entry
    have hrest : ∀ {w' : StoreWorld}, I w' →
        (storeOp (.unlock (.key vk)) >>= fun _ => RgbLightning.drainEntries remote
          entries).wp storeMachine G C (fun _ => I) w' := by
      intro w' hw'
      apply hI.wp_then hw' rfl
      intro _ w'' _ hw''
      apply ih hw''
    rw [RgbLightning.drainEntries]
    apply hI.wp_then hw rfl
    intro _ w1 _ hw1
    rw [wp_bind]
    apply wp_readPending (hI.crash w1 hw1)
    split_ifs with hpending
    · exact hrest hw1
    rw [not_not] at hpending
    rcases hparse : parseVssKey vk with _ | k
    · dsimp only
      apply wp_seq (hI.malformed w1 vk value hw1 hpending hparse)
      intro _ w2 hw2
      exact hrest hw2
    dsimp only
    have hattempt := hI.attempt w1 vk k value hw1 hpending hparse
    rw [replicateAndClear, wp_bind] at hattempt
    apply wp_seq hattempt
    rintro (e | _) w2 hw2
    · exact hI.wp_last hw2 rfl
    · dsimp only at hw2 ⊢
      apply wp_seq hw2
      rintro (e | _) w3 hw3
      · exact hI.wp_last hw3 rfl
      · exact hrest hw3

variable (hs : s.remote = some remote)
include hs

theorem MutationInv.drainPending (hw : I w) :
  s.drainPending.wp storeMachine G C (fun _ => I) w
  := by
  rw [SyncedKvStore.drainPending, hs]
  apply hI.wp_then hw rfl
  intro stopped w1 _ hw1
  split_ifs
  · exact hw1
  apply hI.wp_then hw1 rfl
  intro _ w2 _ hw2
  apply hI.wp_then hw2 rfl
  intro stopped w3 _ hw3
  split_ifs
  · exact hI.wp_last hw3 rfl
  · apply hI.wp_then hw3 rfl
    intro entries w4 _ hw4
    apply wp_seq (hI.drainEntries _ hw4)
    intro _ w5 hw5
    exact hI.wp_last hw5 rfl

theorem MutationInv.flushPendingUntil (rounds : ℕ) (hw : I w) :
  (s.flushPendingUntil rounds).wp storeMachine G C (fun _ => I) w
  := by
  have hcount : ∀ {w' : StoreWorld} {Q : ℕ → StoreWorld → Prop}, I w' →
      (∀ n, Q n w') → pendingRemoteWrites.wp storeMachine G C Q w' := by
    intro w' Q hw' hQ
    rw [pendingRemoteWrites, wp_bind]
    apply wp_readPending (hI.crash w' hw')
    apply hQ
  induction rounds generalizing w with
  | zero => exact hcount hw (fun _ => hw)
  | succ rounds ih =>
    rw [SyncedKvStore.flushPendingUntil, wp_bind]
    apply hcount hw
    intro before
    split_ifs
    · exact hw
    apply wp_seq (hI.drainPending hs hw)
    intro _ w1 hw1
    rw [wp_bind]
    apply hcount hw1
    intro after
    split_ifs
    · exact hcount hw1 (fun _ => hw1)
    · apply ih hw1

/-- A mutation keeps what committing it keeps. -/
theorem MutationInv.mutate {k : Key} {value : Option Bytes} (hk : parseVssKey (vssKey k) = some k)
    (hcommit : ∀ w, I w → s.isFull w.pending (vssKey k) = false →
      I { w with
        rows := committedRows w.rows k value
        pending := w.pending.insert (vssKey k) value
        commits := w.commits + 1 }) (hw : I w) :
  (s.mutate remote k value).wp storeMachine G C (fun _ => I) w
  := by
  -- Both mutexes are unlocked at the end of every branch.
  have hunlock : ∀ {w' : StoreWorld} (r : Except IoError Unit), I w' →
      (do storeOp (.unlock (.key (vssKey k)))
          storeOp (.unlock .drainGate)
          pure r : Store (Except IoError Unit)).wp storeMachine G C (fun _ => I) w' := by
    intro w' r hw'
    apply hI.wp_then hw' rfl
    intro _ w1 _ hw1
    apply hI.wp_then hw1 rfl
    intro _ w2 _ hw2
    exact hw2
  rw [SyncedKvStore.mutate]
  apply hI.wp_then hw rfl
  intro _ w1 _ hw1
  apply hI.wp_then hw1 rfl
  intro stopped w2 _ hw2
  split
  · apply hI.wp_then hw2 rfl
    intro _ w3 _ hw3
    exact hw3
  apply hI.wp_then hw2 rfl
  intro _ w3 _ hw3
  rw [wp_bind]
  apply reservePending_wp (hI.crash w3 hw3)
  · intro e
    apply hunlock _ hw3
  intro hfull
  have hcommitted := hcommit w3 hw3 hfull
  dsimp only
  rw [wp_bind]
  apply commitWithIntent_wp
  · exact hI.crash w3 hw3
  · dsimp only
    have hattempt := hI.attempt _ (vssKey k) k value hcommitted
      (AList.lookup_insert _) hk
    rw [replicateAndClear, wp_bind] at hattempt
    apply wp_seq hattempt
    rintro (e | _) w4 hw4
    · dsimp only
      split_ifs
      · apply hunlock _ hw4
      · apply hunlock _ hw4
    dsimp only at hw4 ⊢
    apply wp_seq hw4
    rintro (e | _) w5 hw5
    · apply hunlock _ hw5
    apply hI.wp_then hw5 rfl
    intro _ w6 _ hw6
    apply hI.wp_then hw6 rfl
    intro _ w7 _ hw7
    rw [wp_bind]
    apply hI.drainPending hs hw7
  · intro e
    dsimp only
    rw [wp_bind]
    apply restorePendingReservation_wp (hI.crash w3 hw3)
    intro pending hpending
    apply hunlock
    exact hI.pending w3 pending hw3 hpending

end Methods

end RgbLightning
