import RgbLightning.Store.Mutations
import RgbLightning.Store.Teardown

/-!
# Secured values

Threads write, remove, drain, flush and stop the local-first store, and the process is
restarted at any moment.  The server is secured for a value when it holds the value and no
intent says otherwise.  Only the commit of another mutation of the same object changes that
(`KeepsSecured`).  All changes are made under the drain gate: `Holding` is what a thread
knows while it holds the gate, and `change_then` is the rule for what it may change.
-/

namespace RgbLightning

open Interleave StoreWorld List Option

/-! ### Calls, and what is recorded of them -/

/-- A thread has committed a mutation with its intent, or its call has returned without an
error. -/
inductive StoreEvent where
  | committed (t : ThreadId) (k : Key) (value : Option Bytes)
  | acknowledged (t : ThreadId) (k : Key) (value : Option Bytes)
deriving DecidableEq

/-- A mutation of the object was committed. -/
def StoreEvent.CommitsTo (vk : Str) : StoreEvent → Prop
  | .committed _ k _ => vssKey k = vk
  | .acknowledged _ _ _ => False

/-- What an answered operation records. -/
def storeEvents (t : ThreadId) : (o : StoreOp) → o.Ans → List StoreEvent
  | .writeWithReplicationIntent k value _ _, .ok _ => [.committed t k (some value)]
  | .removeWithReplicationIntent k _ _, .ok _ => [.committed t k none]
  | .note (.acknowledged k value), _ => [.acknowledged t k value]
  | _, _ => []

abbrev LoggedWorld : Type := StoreWorld × List StoreEvent

abbrev loggedStore : Shared storeInterface ThreadId LoggedWorld StoreFault :=
  sharedStore.logged storeEvents

/-- What the threads do with the local-first store. -/
inductive ConcurrentCall where
  | write (k : Key) (buf : Bytes)
  | remove (k : Key)
  | drainPending
  | flushPendingUntil (rounds : ℕ)
  | stop

/-- A mutation, with a note when it returns without an error. -/
def noteAcknowledged (k : Key) (value : Option Bytes) (p : Store (Except IoError Unit)) :
    Store Unit := do
  match ← p with
  | .ok _ => storeOp (.note (.acknowledged k value))
  | .error _ => pure ()

def ConcurrentCall.body (s : SyncedKvStore) (_ : ThreadId) : ConcurrentCall → Store Unit
  | .write k buf => noteAcknowledged k (some buf) (s.write k buf)
  | .remove k => noteAcknowledged k none (s.remove k)
  | .drainPending => s.drainPending
  | .flushPendingUntil rounds => do
    let _ ← s.flushPendingUntil rounds
    pure ()
  | .stop => s.stop

/-- The process crashes and the store is opened again, along the given fates. -/
def SyncedKvStore.reopen (s : SyncedKvStore) (fates : List (Fate StoreFault))
    (σ : LoggedWorld) : LoggedWorld :=
  (s.withVss.world storeMachine σ.1.reboot fates, σ.2)

/-- A drain of the pending mutation of an object is tried on that object. -/
def readsBack (vk : Str) : Bool :=
  (parseVssKey vk).all fun k => vssKey k = vk

/-- The key is not one of an intent, and its remote name reads back. -/
def Key.isOrdinary (k : Key) : Bool :=
  k.primary ≠ pendingNs ∧ readsBack (vssKey k)

/-- A call that mutates an ordinary key, if any. -/
def ConcurrentCall.isOrdinary : ConcurrentCall → Bool
  | .write k _ => k.isOrdinary
  | .remove k => k.isOrdinary
  | _ => true

/-! ### Secured values -/

/-- The server holds the value, and an intent says nothing else. -/
structure Secured (vk : Str) (value : Option Bytes) (w : StoreWorld) : Prop where
  remote : w.remoteValue vk = value
  intent : ∀ row, w.rows.lookup (pendingKey vk) = some row → decodePendingRow row = some value

/-- What was recorded is kept, and so is every secured value of an object of which no
mutation was committed. -/
def KeepsSecured (σ σ' : LoggedWorld) : Prop :=
  ∃ events, σ'.2 = σ.2 ++ events ∧ ∀ vk value, (∀ e ∈ events, ¬ e.CommitsTo vk) →
    Secured vk value σ.1 → Secured vk value σ'.1

/-- The thread has committed the mutation, and its value is secured unless a mutation of the
object was committed since. -/
def SettledBy (t : ThreadId) (k : Key) (value : Option Bytes) (σ : LoggedWorld) : Prop :=
  ∃ earlier since, σ.2 = earlier ++ .committed t k value :: since ∧
    ((∀ e ∈ since, ¬ e.CommitsTo (vssKey k)) → Secured (vssKey k) value σ.1)

/-- Every acknowledged record of the funding was committed before, and its value is secured
unless a mutation of the object was committed since. -/
def AcksSettled (σ : LoggedWorld) : Prop :=
  ∀ before after t k value, σ.2 = before ++ .acknowledged t k value :: after →
    requiresRemoteDurability k →
    ∃ earlier since, before = earlier ++ .committed t k value :: since ∧
      ((∀ e ∈ since ++ after, ¬ e.CommitsTo (vssKey k)) → Secured (vssKey k) value σ.1)

section Secured

variable {σ σ' σ'' : LoggedWorld} {t : ThreadId} {k : Key} {value : Option Bytes}

theorem KeepsSecured.refl (σ : LoggedWorld) :
  KeepsSecured σ σ
  := by
  use []
  simp

theorem KeepsSecured.trans (h : KeepsSecured σ σ') (h' : KeepsSecured σ' σ'') :
  KeepsSecured σ σ''
  := by
  obtain ⟨events, hlog, hkeeps⟩ := h
  obtain ⟨events', hlog', hkeeps'⟩ := h'
  use events ++ events'
  constructor
  · rw [hlog', hlog, append_assoc]
  · intro vk value hnone hsecured
    apply hkeeps' vk value (fun e he => hnone e (mem_append_right _ he))
    apply hkeeps vk value (fun e he => hnone e (mem_append_left _ he)) hsecured

theorem SettledBy.keeps (hσ : SettledBy t k value σ) (h : KeepsSecured σ σ') :
  SettledBy t k value σ'
  := by
  obtain ⟨earlier, since, hlog, hsecured⟩ := hσ
  obtain ⟨events, hlog', hkeeps⟩ := h
  use earlier, since ++ events
  constructor
  · rw [hlog', hlog, append_assoc, cons_append]
  · intro hnone
    apply hkeeps _ _ (fun e he => hnone e (mem_append_right _ he))
    apply hsecured (fun e he => hnone e (mem_append_left _ he))

/-- A step that records nothing. -/
theorem AcksSettled.keeps (hσ : AcksSettled σ) {w : StoreWorld}
    (hkeeps : ∀ vk value, Secured vk value σ.1 → Secured vk value w) :
  AcksSettled (w, σ.2)
  := by
  intro before after t k value h hk
  obtain ⟨earlier, since, hbefore, hsecured⟩ := hσ before after t k value h hk
  exact ⟨earlier, since, hbefore, fun hnone => hkeeps _ _ (hsecured hnone)⟩

/-- A step that records events.  An acknowledgement must be of a settled mutation. -/
theorem AcksSettled.append (hσ : AcksSettled σ) {w : StoreWorld} {events : List StoreEvent}
    (hkeeps : ∀ vk value, (∀ e ∈ events, ¬ e.CommitsTo vk) →
      Secured vk value σ.1 → Secured vk value w)
    (hacks : ∀ t k value, .acknowledged t k value ∈ events → requiresRemoteDurability k →
      events = [.acknowledged t k value] ∧ SettledBy t k value σ) :
  AcksSettled (w, σ.2 ++ events)
  := by
  intro before after t k value h hk
  have hnew : before = σ.2 → events = .acknowledged t k value :: after →
      ∃ earlier since, before = earlier ++ .committed t k value :: since ∧
        ((∀ e ∈ since ++ after, ¬ e.CommitsTo (vssKey k)) →
          Secured (vssKey k) value w) := by
    rintro rfl hevents
    obtain ⟨hone, earlier, since, hbefore, hsecured⟩ :=
      hacks t k value (hevents ▸ mem_cons_self) hk
    rw [hone] at hevents
    obtain ⟨-, rfl⟩ := cons.inj hevents
    refine ⟨earlier, since, hbefore, fun hnone => ?_⟩
    rw [append_nil] at hnone
    apply hkeeps _ _ _ (hsecured hnone)
    rw [hone]
    intro e he
    obtain rfl := mem_singleton.mp he
    exact id
  obtain ⟨as, hbefore, hevents⟩ | ⟨cs, hlog, hevents⟩ := append_eq_append_iff.mp h
  · cases as with
    | nil =>
      rw [append_nil] at hbefore
      exact hnew hbefore hevents
    | cons c cs =>
      obtain ⟨hone, -⟩ := hacks t k value (by rw [hevents]; simp) hk
      rw [hone] at hevents
      simp at hevents
  cases cs with
  | nil =>
    rw [append_nil] at hlog
    exact hnew hlog.symm hevents.symm
  | cons c cs =>
    rw [cons_append] at hevents
    obtain ⟨rfl, rfl⟩ := cons.inj hevents
    obtain ⟨earlier, since, hbefore, hsecured⟩ := hσ before cs t k value hlog hk
    refine ⟨earlier, since, hbefore, fun hnone => ?_⟩
    rw [← append_assoc] at hnone
    apply hkeeps _ _ (fun e he => hnone e (mem_append_right _ he))
    apply hsecured (fun e he => hnone e (mem_append_left _ he))

end Secured

/-! ### The invariant -/

def PendingSays (w : StoreWorld) (vk : Str) : Prop :=
  ∀ value, w.pending.lookup vk = some value →
    ∃ row, w.rows.lookup (pendingKey vk) = some row ∧ decodePendingRow row = some value

def NamesReadBack (w : StoreWorld) : Prop :=
  ∀ vk, (w.rows.lookup (pendingKey vk)).isSome → readsBack vk

/-- The invariant of the store.  While a thread holds the drain gate the pending map may
differ from the intents, and after a panic under the gate it may do so forever. -/
structure SyncedInv (σ : LoggedWorld) : Prop where
  names : NamesReadBack σ.1
  pending : σ.1.locks .drainGate = {} → ∀ vk, PendingSays σ.1 vk
  acks : AcksSettled σ

/-- What the other threads may do: secured values are kept, and while a thread holds the drain
gate nothing changes. -/
structure SyncedRely (t : ThreadId) (σ σ' : LoggedWorld) : Prop where
  keeps : KeepsSecured σ σ'
  gate : σ.1.gateOwner = some t →
    σ'.1.locks .drainGate = σ.1.locks .drainGate ∧ SameCore σ.1 σ'.1

theorem syncedRely_refl (t : ThreadId) (σ : LoggedWorld) :
  SyncedRely t σ σ
  := ⟨KeepsSecured.refl σ, fun _ => ⟨rfl, SameCore.refl σ.1⟩⟩

theorem syncedRely_trans (t : ThreadId) (σ σ' σ'' : LoggedWorld) (h : SyncedRely t σ σ')
    (h' : SyncedRely t σ' σ'') :
  SyncedRely t σ σ''
  := by
  refine ⟨h.keeps.trans h'.keeps, fun howner => ?_⟩
  obtain ⟨hgate, hcore⟩ := h.gate howner
  obtain ⟨hgate', hcore'⟩ := h'.gate (by rw [StoreWorld.gateOwner, hgate]; exact howner)
  exact ⟨hgate'.trans hgate, hcore.trans hcore'⟩

/-- A thread keeps to the logic, with a postcondition. -/
abbrev SyncedRg {α : Type} (t : ThreadId) (p : Store α) (Q : α → LoggedWorld → Prop)
    (σ : LoggedWorld) : Prop :=
  rg loggedStore (fun _ _ _ _ => True) SyncedInv SyncedRely t p Q σ

section Invariant

variable {σ : LoggedWorld} {t : ThreadId} {w : StoreWorld}

theorem SameCore.pendingSays {w' : StoreWorld} {vk : Str} (h : SameCore w w') :
  PendingSays w' vk ↔ PendingSays w vk
  := by
  rw [PendingSays, PendingSays, h.rows, h.pending]

theorem SameCore.secured {w' : StoreWorld} {vk : Str} {value : Option Bytes}
    (h : SameCore w w') (hw : Secured vk value w) :
  Secured vk value w'
  := by
  constructor
  · rw [h.remoteValue, hw.remote]
  · rw [h.rows]
    exact hw.intent

/-- A step that changes neither rows, pending map nor server. -/
theorem SameCore.keepsSecured (h : SameCore σ.1 w) :
  KeepsSecured σ (w, σ.2)
  := by
  use []
  rw [append_nil]
  exact ⟨rfl, fun vk value _ hsecured => h.secured hsecured⟩

/-- Such a step keeps the invariant, as far as the drain gate allows it. -/
theorem SyncedInv.sameCore (hI : SyncedInv σ) (h : SameCore σ.1 w)
    (hgate : w.locks .drainGate = {} → ∀ vk, PendingSays σ.1 vk) :
  SyncedInv (w, σ.2)
  := by
  constructor
  · intro vk hvk
    dsimp only at hvk
    rw [h.rows] at hvk
    exact hI.names vk hvk
  · intro hfree vk
    rw [h.pendingSays]
    exact hgate hfree vk
  · exact hI.acks.keeps (fun vk value hsecured => h.secured hsecured)

/-- A panic leaves the drain gate alone, or poisons it. -/
theorem panic_gate (w : StoreWorld) (t : ThreadId) :
  (w.panic t).locks .drainGate = w.locks .drainGate
    ∨ (w.gateOwner = some t ∧ (w.panic t).locks .drainGate ≠ {})
  := by
  by_cases howner : w.gateOwner = some t
  · right
    refine ⟨howner, ?_⟩
    rw [StoreWorld.gateOwner] at howner
    simp [StoreWorld.panic, howner, Lock.canBePoisoned]
  · left
    rw [StoreWorld.gateOwner] at howner
    simp only [StoreWorld.panic, if_neg howner]

/-- A step that leaves rows, pending map and server alone, and the drain gate as well unless
its thread panics. -/
theorem SyncedInv.quiet (hI : SyncedInv σ) (h : SameCore σ.1 w)
    (hgate : w.locks .drainGate = σ.1.locks .drainGate ∨ w = σ.1.panic t) :
  SyncedInv (w, σ.2) ∧ ∀ t', t' ≠ t → SyncedRely t' σ (w, σ.2)
  := by
  have hsame : w.locks .drainGate = σ.1.locks .drainGate →
      SyncedInv (w, σ.2) ∧ ∀ t', t' ≠ t → SyncedRely t' σ (w, σ.2) := by
    intro hgate
    refine ⟨hI.sameCore h (fun hfree => hI.pending (hgate ▸ hfree)), fun t' _ => ?_⟩
    exact ⟨h.keepsSecured, fun _ => ⟨hgate, h⟩⟩
  rcases hgate with hgate | rfl
  · exact hsame hgate
  · rcases panic_gate σ.1 t with hgate | ⟨howner, hpoisoned⟩
    · exact hsame hgate
    · refine ⟨hI.sameCore h (fun hfree => absurd hfree hpoisoned), fun t' ht => ?_⟩
      exact ⟨h.keepsSecured, fun howner' => absurd howner' (by rw [howner]; simpa using ht.symm)⟩

end Invariant

/-! ### Under the drain gate -/

/-- The thread holds the drain gate, the data is as `P` says, and events were recorded. -/
structure Holding (t : ThreadId) (P : StoreWorld → Prop) (events : List StoreEvent)
    (σ : LoggedWorld) : Prop where
  owner : σ.1.gateOwner = some t
  data : P σ.1
  logged : events ⊆ σ.2

/-- A change a thread may make under the drain gate, with the events it records. -/
structure AllowedChange (events : List StoreEvent) (w w' : StoreWorld) : Prop where
  locks : w'.locks = w.locks
  names : NamesReadBack w → NamesReadBack w'
  acks : ∀ t k value, .acknowledged t k value ∉ events
  secured : ∀ vk value, (∀ e ∈ events, ¬ e.CommitsTo vk) →
    Secured vk value w → Secured vk value w'

theorem AllowedChange.refl (w : StoreWorld) :
  AllowedChange [] w w
  := ⟨rfl, id, fun _ _ _ => not_mem_nil, fun _ _ _ => id⟩

/-- A property of the rows, the pending map and the server. -/
def OfCore (P : StoreWorld → Prop) : Prop :=
  ∀ w w', SameCore w w' → P w → P w'

section Holding

variable {σ : LoggedWorld} {t : ThreadId} {P N : StoreWorld → Prop}
variable {events : List StoreEvent} {α β : Type} {Q : β → LoggedWorld → Prop}

theorem Holding.stable (hP : OfCore P) (σ σ' : LoggedWorld) (h : SyncedRely t σ σ')
    (hσ : Holding t P events σ) :
  Holding t P events σ'
  := by
  obtain ⟨hgate, hcore⟩ := h.gate hσ.owner
  obtain ⟨new, hlog, -⟩ := h.keeps
  constructor
  · rw [StoreWorld.gateOwner, hgate]
    exact hσ.owner
  · exact hP _ _ hcore hσ.data
  · rw [hlog]
    exact subset_append_of_subset_left _ hσ.logged

theorem Holding.mono (hσ : Holding t P events σ) (h : ∀ w, P w → N w) :
  Holding t N events σ
  := ⟨hσ.owner, h _ hσ.data, hσ.logged⟩

theorem pure_holding {P : α → StoreWorld → Prop} {a : α} (hP : OfCore (P a))
    (hσ : Holding t (P a) events σ) :
  SyncedRg t (pure a : Store α) (fun a σ' => Holding t (P a) events σ') σ
  := by
  intro σ' h _
  exact hσ.stable hP _ _ h

/-- The operations that leave rows, pending map, server and drain gate alone. -/
def StoreOp.isQuiet (o : StoreOp) : Prop :=
  o.isInner ∧ o.touchesCore = false

variable {o : StoreOp}

theorem storeEvents_isQuiet (ho : o.isQuiet) (a : o.Ans) :
  storeEvents t o a = []
  := by
  obtain ⟨hinner, hcore⟩ := ho
  cases o with
  | writeWithReplicationIntent k value intentKey intent => cases hcore
  | removeWithReplicationIntent k intentKey intent => cases hcore
  | note n => cases hinner
  | _ => rfl

theorem silent_exec (hevents : ∀ a, storeEvents t o a = []) {f : StoreFault} {x : Option o.Ans}
    {w : StoreWorld} {log : List StoreEvent} (hx : loggedStore.exec t f o σ = some (x, (w, log))) :
  exec t f o σ.1 = some (x, w) ∧ log = σ.2
  := by
  obtain ⟨hexec, hlog⟩ := Shared.logged_exec hx
  refine ⟨hexec, ?_⟩
  cases x with
  | none => exact hlog.trans (append_nil _)
  | some a =>
    rw [elim_some, hevents, append_nil] at hlog
    exact hlog

theorem quiet_then (hP : OfCore P) {p : Store α} (hp : p.All StoreOp.isQuiet)
    (hI : SyncedInv σ) (hσ : Holding t P events σ) {next : α → Store β}
    (hnext : ∀ a σ', SyncedInv σ' → Holding t P events σ' → SyncedRg t (next a) Q σ') :
  SyncedRg t (p >>= next) Q σ
  := by
  apply rg_bind syncedRely_refl _ hI
  apply rg_frame (Holding.stable hP) _ hp hσ hnext
  rintro o ho f σ1 x ⟨w2, log⟩ hI1 hσ₁ hx
  obtain ⟨hexec, rfl⟩ := silent_exec (storeEvents_isQuiet ho) hx
  have hcore : SameCore σ1.1 w2 := sameCore_execBy ho.2 hexec
  rcases inner_exec (t := t) (f := f) ho.1 hexec with h | ⟨rfl, hpanic⟩
  · obtain ⟨hI2, hothers⟩ := hI1.quiet (t := t) hcore (Or.inl h.gate)
    refine ⟨hI2, hothers, fun _ => ⟨?_, hP _ _ hcore hσ₁.data, hσ₁.logged⟩⟩
    rw [StoreWorld.gateOwner, h.gate]
    exact hσ₁.owner
  · obtain ⟨hI2, hothers⟩ := hI1.quiet hcore (Or.inr hpanic)
    exact ⟨hI2, hothers, by simp⟩

theorem query_then {A : LoggedWorld → Prop} (hA : ∀ σ σ', SyncedRely t σ σ' → A σ → A σ')
    (hevents : ∀ a, storeEvents t o a = [])
    (ho : ∀ f w x w', exec t f o w = some (x, w') → w' = w) (hσ : A σ)
    {next : o.Ans → Store β} (hnext : ∀ f a σ', SyncedInv σ' → A σ' →
      exec t f o σ'.1 = some (some a, σ'.1) → SyncedRg t (next a) Q σ') :
  SyncedRg t (storeOp o >>= next) Q σ
  := by
  apply rg_step hA hσ
  rintro f σ1 x ⟨w2, log⟩ hI1 hσ₁ - hx
  obtain ⟨hexec, rfl⟩ := silent_exec hevents hx
  obtain rfl : w2 = σ1.1 := ho _ _ _ _ hexec
  refine ⟨hI1, fun t' _ => syncedRely_refl t' σ1, ?_⟩
  rintro a rfl
  exact hnext f a σ1 hI1 hσ₁ hexec

theorem change_then (hP : OfCore P)
    (hchange : ∀ f w x w', P w → exec t f o w = some (x, w') →
      ∃ a, x = some a ∧ AllowedChange (storeEvents t o a) w w') (hσ : Holding t P events σ)
    {next : o.Ans → Store β}
    (hnext : ∀ f w a w' log, P w → exec t f o w = some (some a, w') →
      SyncedInv (w', log) →
      Holding t (fun _ => True) (events ++ storeEvents t o a) (w', log) →
      SyncedRg t (next a) Q (w', log)) :
  SyncedRg t (storeOp o >>= next) Q σ
  := by
  apply rg_step (Holding.stable hP) hσ
  rintro f σ1 x ⟨w2, log⟩ hI1 hσ₁ - hx
  obtain ⟨hexec, hlog⟩ := Shared.logged_exec hx
  obtain ⟨a, rfl, hallowed⟩ := hchange _ _ _ _ hσ₁.data hexec
  obtain rfl : log = σ1.2 ++ storeEvents t o a := hlog
  have howner : w2.gateOwner = some t := by
    rw [StoreWorld.gateOwner, hallowed.locks]
    exact hσ₁.owner
  have hI2 : SyncedInv (w2, σ1.2 ++ storeEvents t o a) := by
    refine ⟨hallowed.names hI1.names, fun hfree => ?_, ?_⟩
    · rw [StoreWorld.gateOwner] at howner
      dsimp only at hfree
      rw [hfree] at howner
      cases howner
    · apply hI1.acks.append hallowed.secured
      intro t' k value hmem
      exact absurd hmem (hallowed.acks t' k value)
  refine ⟨hI2, fun t' ht => ⟨⟨_, rfl, hallowed.secured⟩, fun howner' => ?_⟩, ?_⟩
  · rw [hσ₁.owner] at howner'
    exact absurd (some.inj howner').symm ht
  rintro _ ⟨⟩
  refine hnext f σ1.1 a w2 _ hσ₁.data hexec hI2 ⟨howner, trivial, ?_⟩
  apply append_subset.mpr
  constructor
  · exact subset_append_of_subset_left _ hσ₁.logged
  · exact subset_append_right _ _

end Holding

/-! ### The drain gate -/

/-- The pending map is what the intents say. -/
def Agrees (w : StoreWorld) : Prop :=
  ∀ vk, PendingSays w vk

theorem ofCore_agrees :
  OfCore Agrees
  := by
  intro w w' h hw vk
  rw [h.pendingSays]
  exact hw vk

section Gate

variable {σ : LoggedWorld} {t : ThreadId} {P : StoreWorld → Prop}
variable {events : List StoreEvent} {β : Type} {Q : β → LoggedWorld → Prop}

theorem locks_setLock (w : StoreWorld) (m : Mutex) :
  (w.setLock .drainGate m).locks .drainGate = m
  := by
  rw [setLock]
  dsimp only
  rw [Function.update_self]

theorem SyncedInv.acquire (hI : SyncedInv σ) {w : StoreWorld} (h : SameCore σ.1 w)
    (hfree : σ.1.gateOwner = none) (howner : w.gateOwner = some t) :
  SyncedInv (w, σ.2) ∧ ∀ t', t' ≠ t → SyncedRely t' σ (w, σ.2)
  := by
  refine ⟨hI.sameCore h fun hgate => ?_, fun t' _ => ⟨h.keepsSecured, fun howner' => ?_⟩⟩
  · rw [StoreWorld.gateOwner, hgate] at howner
    cases howner
  · rw [hfree] at howner'
    cases howner'

theorem SyncedInv.release (hI : SyncedInv σ) (howner : σ.1.gateOwner = some t)
    (hagrees : (σ.1.locks .drainGate).poisoned = false → Agrees σ.1) :
  let w := σ.1.setLock .drainGate { σ.1.locks .drainGate with owner := none }
  SyncedInv (w, σ.2) ∧ ∀ t', t' ≠ t → SyncedRely t' σ (w, σ.2)
  := by
  have h := sameCore_setLock σ.1 .drainGate { σ.1.locks .drainGate with owner := none }
  refine ⟨hI.sameCore h fun hgate => ?_, fun t' ht => ⟨h.keepsSecured, fun howner' => ?_⟩⟩
  · rw [locks_setLock] at hgate
    exact hagrees (congrArg Mutex.poisoned hgate)
  · rw [howner] at howner'
    exact absurd (some.inj howner').symm ht

/-- Taking the drain gate.  If it is free, the pending map is what the intents say. -/
theorem takeGate_then {next : Unit → Store β}
    (hnext : ∀ σ', SyncedInv σ' → Holding t Agrees [] σ' → SyncedRg t (next ()) Q σ') :
  SyncedRg t (storeOp (.lock .drainGate) >>= next) Q σ
  := by
  apply rg_any
  rintro f σ1 x ⟨w2, log⟩ hI1 - hx
  obtain ⟨hexec, rfl⟩ := silent_exec (fun _ => rfl) hx
  simp only [exec] at hexec
  split at hexec
  · cases hexec
  rename_i hfree
  split_ifs at hexec with hpoisoned
  · cases hexec
    obtain ⟨hI2, hothers⟩ := hI1.quiet (sameCore_panic σ1.1 t) (Or.inr rfl)
    exact ⟨hI2, hothers, by simp⟩
  cases hexec
  have hgate : σ1.1.locks .drainGate = {} := by
    rcases hlock : σ1.1.locks .drainGate with ⟨owner, poisoned⟩
    rw [hlock] at hfree hpoisoned
    simp only [Bool.not_eq_true] at hfree hpoisoned
    rw [hfree, hpoisoned]
  have hcore := sameCore_setLock σ1.1 .drainGate
    { σ1.1.locks .drainGate with owner := some t }
  have howner := congrArg Mutex.owner
    (locks_setLock σ1.1 { σ1.1.locks .drainGate with owner := some t })
  obtain ⟨hI2, hothers⟩ := hI1.acquire hcore hfree howner
  refine ⟨hI2, hothers, ?_⟩
  rintro _ ⟨⟩
  exact hnext _ hI2
    ⟨howner, ofCore_agrees _ _ hcore (hI1.pending hgate), nil_subset _⟩

/-- Unlocking the drain gate, when the pending map is what the intents say. -/
theorem releaseGate_then (hP : OfCore P) (hagrees : ∀ w, P w → Agrees w)
    (hσ : Holding t P events σ) {next : Unit → Store β}
    (hnext : ∀ σ', SyncedInv σ' → SyncedRg t (next ()) Q σ') :
  SyncedRg t (storeOp (.unlock .drainGate) >>= next) Q σ
  := by
  apply rg_step (Holding.stable hP) hσ
  rintro f σ1 x ⟨w2, log⟩ hI1 hσ₁ - hx
  obtain ⟨hexec, rfl⟩ := silent_exec (fun _ => rfl) hx
  cases hexec
  obtain ⟨hI2, hothers⟩ := hI1.release hσ₁.owner (fun _ => hagrees _ hσ₁.data)
  refine ⟨hI2, hothers, ?_⟩
  rintro _ ⟨⟩
  exact hnext _ hI2

end Gate

/-! ### Changes under the drain gate -/

def RowSays (vk : Str) (value : Option Bytes) (w : StoreWorld) : Prop :=
  ∃ row, w.rows.lookup (pendingKey vk) = some row ∧ decodePendingRow row = some value

/-- Trying what the intent says keeps every secured value. -/
theorem RowSays.attempted {vk : Str} {value : Option Bytes} {w w' : StoreWorld}
    (hw : RowSays vk value w) (h : Attempted vk value w w') (vk' : Str)
    (value' : Option Bytes) (hsecured : Secured vk' value' w) :
  Secured vk' value' w'
  := by
  constructor
  · by_cases hvk : vk' = vk
    · obtain ⟨row, hrow, hdecode⟩ := hw
      subst hvk
      have hvalue := hsecured.intent row hrow
      rw [hdecode] at hvalue
      rcases h.here with hsame | hmade
      · rw [hsame, hsecured.remote]
      · rw [hmade, some.inj hvalue]
    · rw [h.others vk' hvk, hsecured.remote]
  · rw [h.rows]
    exact hsecured.intent

section Changes

variable {σ : LoggedWorld} {t : ThreadId} {P N : StoreWorld → Prop}
variable {events : List StoreEvent} {β : Type} {Q : β → LoggedWorld → Prop}

theorem modifyPending_then (hP : OfCore P) {change : Pending → Pending}
    {N : Pending → StoreWorld → Prop}
    (hN : ∀ w, P w → N w.pending { w with pending := change w.pending })
    (hσ : Holding t P events σ) {next : Pending → Store β}
    (hnext : ∀ before σ', SyncedInv σ' → Holding t (N before) events σ' →
      SyncedRg t (next before) Q σ') :
  SyncedRg t (storeOp (.modifyPending change) >>= next) Q σ
  := by
  apply change_then hP _ hσ
  · rintro f w a w' log hw hexec hI' ⟨howner, -, hlogged⟩
    cases hexec
    exact hnext _ _ hI' ⟨howner, hN w hw, (append_subset.mp hlogged).1⟩
  · rintro f w x w' - hexec
    cases hexec
    refine ⟨_, rfl, rfl, id, fun _ _ _ => not_mem_nil, fun vk value _ h => ?_⟩
    exact ⟨h.remote, h.intent⟩

theorem transact_then (hP : OfCore P) {o : StoreOp} {r : Except IoError Unit → o.Ans}
    {g : StoreWorld → StoreWorld}
    (hexec : ∀ f w, exec t f o w
      = some (some (r (f.transact w (g w)).1), (f.transact w (g w)).2))
    (herror : ∀ e, storeEvents t o (r (.error e)) = [])
    (hchange : ∀ w, P w → AllowedChange (storeEvents t o (r (.ok ()))) w (g w))
    (hg : ∀ w, P w → N (g w)) (hσ : Holding t P events σ) {next : o.Ans → Store β}
    (hok : ∀ σ', SyncedInv σ' →
      Holding t N (events ++ storeEvents t o (r (.ok ()))) σ' →
      SyncedRg t (next (r (.ok ()))) Q σ')
    (hfails : ∀ e σ', SyncedInv σ' → Holding t P events σ' →
      SyncedRg t (next (r (.error e))) Q σ') :
  SyncedRg t (storeOp o >>= next) Q σ
  := by
  have hcases : ∀ {f w x w'}, exec t f o w = some (x, w') →
      (x = some (r (.ok ())) ∧ w' = g w) ∨ (∃ e, x = some (r (.error e)) ∧ w' = w) := by
    intro f w x w' hx
    rw [hexec, StoreFault.transact] at hx
    split at hx
    · cases hx
      exact Or.inr ⟨_, rfl, rfl⟩
    · cases hx
      exact Or.inl ⟨rfl, rfl⟩
  apply change_then hP _ hσ
  · rintro f w a w' log hw hx hI' ⟨howner, -, hlogged⟩
    rcases hcases hx with ⟨ha, rfl⟩ | ⟨e, ha, rfl⟩
    · obtain rfl := some.inj ha
      exact hok _ hI' ⟨howner, hg w hw, hlogged⟩
    · obtain rfl := some.inj ha
      exact hfails e _ hI' ⟨howner, hw, (append_subset.mp hlogged).1⟩
  rintro f w x w' hw hx
  rcases hcases hx with ⟨rfl, rfl⟩ | ⟨e, rfl, rfl⟩
  · exact ⟨_, rfl, hchange w hw⟩
  · refine ⟨_, rfl, ?_⟩
    rw [herror]
    apply AllowedChange.refl

/-- A request the server accepts, for what the intent says. -/
theorem put_then (hP : OfCore P) {vk : Str} {value : Option Bytes}
    {request : PutObjectRequest} (hrow : ∀ w, P w → RowSays vk value w)
    (haccept : ∀ w, P w → ∃ server, Objects.put w.policy w.server request = .ok server ∧
      Attempted vk value w { w with server } ∧
      ({ w with server } : StoreWorld).remoteValue vk = value)
    (hN : ∀ w w', P w → Attempted vk value w w' → N w') (hσ : Holding t P events σ)
    {next : Except VssError Unit → Store β}
    (hok : ∀ σ', SyncedInv σ' →
      Holding t (fun w => N w ∧ w.remoteValue vk = value) events σ' →
      SyncedRg t (next (.ok ())) Q σ')
    (hfails : ∀ (e : RemoteFailure) σ', SyncedInv σ' → Holding t N events σ' →
      SyncedRg t (next (.error e.val)) Q σ') :
  SyncedRg t (storeOp (.putObject request) >>= next) Q σ
  := by
  have hcases : ∀ {f w x w'}, P w → exec t f (.putObject request) w = some (x, w') →
      Attempted vk value w w' ∧ w'.locks = w.locks ∧
        ((x = some (.ok ()) ∧ w'.remoteValue vk = value)
          ∨ ∃ e : RemoteFailure, x = some (.error e.val)) := by
    intro f w x w' hw hx
    obtain ⟨server, hput, hattempted, hvalue⟩ := haccept w hw
    have hrecord := sameCore_recordRequest w request
    have hlocks : (w.recordRequest request).locks = w.locks := by
      rw [recordRequest]
      split_ifs <;> rfl
    rw [← hrecord.policy, ← hrecord.server] at hput
    have hmade : (w.recordRequest request).put request
        = (.ok (), { w.recordRequest request with server }) := by
      rw [put, hput]
    have hsame : SameCore { w with server } { w.recordRequest request with server } :=
      ⟨hrecord.rows, hrecord.opened, hrecord.pending, hrecord.policy, rfl, hrecord.commits⟩
    have hattempted' := hattempted.trans (hsame.attempted vk value)
    simp only [exec, putObject] at hx
    cases f with
    | remoteFails e =>
      cases hx
      exact ⟨hrecord.attempted vk value, hlocks, Or.inr ⟨e, rfl⟩⟩
    | remoteLost e =>
      simp only [hmade] at hx
      cases hx
      exact ⟨hattempted', hlocks, Or.inr ⟨e, rfl⟩⟩
    | _ =>
      simp only [hmade] at hx
      cases hx
      exact ⟨hattempted', hlocks, Or.inl ⟨rfl, (hsame.remoteValue vk).trans hvalue⟩⟩
  apply change_then hP _ hσ
  · rintro f w a w' log hw hx hI' ⟨howner, -, hlogged⟩
    obtain ⟨hattempted, -, ⟨ha, hvalue⟩ | ⟨e, ha⟩⟩ := hcases hw hx
    · obtain rfl := some.inj ha
      exact hok _ hI' ⟨howner, ⟨hN _ _ hw hattempted, hvalue⟩,
        (append_subset.mp hlogged).1⟩
    · obtain rfl := some.inj ha
      exact hfails e _ hI' ⟨howner, hN _ _ hw hattempted, (append_subset.mp hlogged).1⟩
  rintro f w x w' hw hx
  obtain ⟨hattempted, hlocks, hanswer⟩ := hcases hw hx
  have hallowed : AllowedChange [] w w' := by
    refine ⟨hlocks, fun hnames => ?_, fun _ _ _ => not_mem_nil, fun vk' value' _ h => ?_⟩
    · rw [NamesReadBack, hattempted.rows]
      exact hnames
    · exact (hrow w hw).attempted hattempted vk' value' h
  obtain ⟨rfl, -⟩ | ⟨e, rfl⟩ := hanswer
  · exact ⟨_, rfl, hallowed⟩
  · exact ⟨_, rfl, hallowed⟩

end Changes

end RgbLightning
