import RgbLightning.Store.Secured

/-!
# Acknowledged mutations stay on the server

A record of the funding is acknowledged only when the server holds it and no intent says
otherwise, and it stays there until a mutation of the same object is committed
(`acknowledged_held`).  The commit is enough: a later mutation that is refused to its caller
is still delivered by the next drain, and one of another thread may be stored before the
first call returns (`acknowledged_replaced`).
-/

namespace RgbLightning

open Interleave Table StoreWorld SyncedKvStore List Option

/-! ### The client -/

/-- A mutation is being tried: the intent says it, and the pending map is what the intents
say. -/
def Trying (vk : Str) (value : Option Bytes) (w : StoreWorld) : Prop :=
  Agrees w ∧ RowSays vk value w

theorem ofCore_trying (vk : Str) (value : Option Bytes) :
  OfCore (Trying vk value)
  := by
  rintro w w' h ⟨hagrees, hrow⟩
  refine ⟨ofCore_agrees w w' h hagrees, ?_⟩
  rw [RowSays, h.rows]
  exact hrow

theorem Trying.attempted {vk : Str} {value : Option Bytes} {w w' : StoreWorld}
    (hw : Trying vk value w) (h : Attempted vk value w w') :
  Trying vk value w'
  := by
  obtain ⟨hagrees, hrow⟩ := hw
  constructor
  · intro vk'
    rw [PendingSays, h.rows, h.pending]
    exact hagrees vk'
  · rw [RowSays, h.rows]
    exact hrow

/-- What holds after a mutation was tried. -/
def Tried (vk : Str) (value : Option Bytes) (r : Except IoError Unit) (w : StoreWorld) : Prop :=
  Trying vk value w ∧ (r = .ok () → w.remoteValue vk = value)

theorem ofCore_tried (vk : Str) (value : Option Bytes) (r : Except IoError Unit) :
  OfCore (Tried vk value r)
  := by
  rintro w w' h ⟨htrying, hvalue⟩
  refine ⟨ofCore_trying vk value w w' h htrying, fun hr => ?_⟩
  rw [h.remoteValue, hvalue hr]

section Client

variable {σ : LoggedWorld} {t : ThreadId} {events : List StoreEvent}
variable {vk : Str}
variable {value : Option Bytes}

theorem tried_error {e : IoError} (hσ : Holding t (Trying vk value) events σ) :
  SyncedRg t (pure (.error e) : Store (Except IoError Unit))
    (fun r σ' => Holding t (Tried vk value r) events σ') σ
  := by
  apply pure_holding (ofCore_tried vk value (.error e))
  apply hσ.mono
  intro w hw
  refine ⟨hw, ?_⟩
  rintro ⟨⟩

theorem tried_ok
    (hσ : Holding t (fun w => Trying vk value w ∧ w.remoteValue vk = value) events σ) :
  SyncedRg t (pure (.ok ()) : Store (Except IoError Unit))
    (fun r σ' => Holding t (Tried vk value r) events σ') σ
  := by
  apply pure_holding (ofCore_tried vk value (.ok ()))
  apply hσ.mono
  rintro w ⟨hw, hvalue⟩
  exact ⟨hw, fun _ => hvalue⟩

theorem putValue_rg {value : Bytes} {onError : VssError → IoError}
    (hσ : Holding t (Trying vk (some value)) events σ) :
  SyncedRg t (putValue vk value onError)
    (fun r σ' => Holding t (Tried vk (some value) r) events σ') σ
  := by
  have hcore := ofCore_trying vk (some value)
  rw [putValue]
  apply query_then (Holding.stable hcore) (fun _ => rfl) _ hσ
  · intro f a σ1 hI1 hσ₁ hexec
    simp only [exec, StoreFault.localAnswer] at hexec
    split at hexec
    · cases hexec
      exact tried_error hσ₁
    cases hexec
    apply put_then hcore (fun w hw => hw.2) _ (fun w w' hw h => hw.attempted h) hσ₁
    · intro σ2 _ hσ₂
      exact tried_ok hσ₂
    · intro e σ2 _ hσ₂
      exact tried_error hσ₂
    · intro w _
      obtain ⟨hinserted, hsome⟩ := attempted_insert w vk ⟨1, value, Int.one_pos⟩
      exact ⟨_, Objects.put_unconditional vk value, hinserted, hsome⟩
  · rintro f w x w' hexec
    cases hexec
    rfl

theorem getObject_cases {f : StoreFault} {w w' : StoreWorld}
    {a : Except VssError (Option KeyValue)}
    (hx : exec t f (.getObject vk) w = some (some a, w')) :
  (∃ object, w.server.lookup vk = some object ∧
      a = .ok (some ⟨vk, object.version, object.value⟩))
    ∨ (w.server.lookup vk = none ∧ a = .error .noSuchKeyError)
    ∨ ∃ e : RemoteFailure, a = .error e.val
  := by
  simp only [exec, Objects.get] at hx
  cases f with
  | remoteFails e =>
    cases hx
    exact Or.inr (Or.inr ⟨e, rfl⟩)
  | remoteLost e =>
    cases hx
    exact Or.inr (Or.inr ⟨e, rfl⟩)
  | _ =>
    rcases hlookup : w.server.lookup vk with _ | object
    · rw [hlookup] at hx
      cases hx
      exact Or.inr (Or.inl ⟨rfl, rfl⟩)
    · rw [hlookup] at hx
      cases hx
      exact Or.inl ⟨object, rfl, rfl⟩

theorem deleteCurrent_rg {readMessage deleteMessage : String}
    (hσ : Holding t (Trying vk none) events σ) :
  SyncedRg t (deleteCurrent vk readMessage deleteMessage)
    (fun r σ' => Holding t (Tried vk none r) events σ') σ
  := by
  have hcore := ofCore_trying vk none
  rw [deleteCurrent]
  apply query_then (Holding.stable hcore) (fun _ => rfl) _ hσ
  · intro f a σ1 _ hσ₁ hexec
    obtain ⟨object, hobject, rfl⟩ | ⟨hnone, rfl⟩ | ⟨⟨e, he⟩, rfl⟩ := getObject_cases hexec
    · -- The version is still the current one when the object is deleted.
      have hcore' : OfCore fun w => Trying vk none w ∧ w.server.lookup vk = some object := by
        rintro w w' h ⟨htrying, hlookup⟩
        refine ⟨hcore w w' h htrying, ?_⟩
        rw [h.server, hlookup]
      dsimp only
      rw [deleteVersion]
      apply put_then hcore' (fun w hw => hw.1.2) _ (fun w w' hw h => hw.1.attempted h)
        ⟨hσ₁.owner, ⟨hσ₁.data, hobject⟩, hσ₁.logged⟩
      · intro σ2 _ hσ₂
        exact tried_ok hσ₂
      · rintro ⟨e, he⟩ σ2 _ hσ₂
        cases e with
        | noSuchKeyError => exact absurd rfl he
        | _ => exact tried_error hσ₂
      · rintro w ⟨-, hlookup⟩
        obtain ⟨herased, hvalue⟩ := attempted_erase w vk
        exact ⟨_, Objects.put_deleteCurrent hlookup, herased, hvalue⟩
    · apply tried_ok
      refine ⟨hσ₁.owner, ⟨hσ₁.data, ?_⟩, hσ₁.logged⟩
      rw [remoteValue, hnone]
      rfl
    · cases e with
      | noSuchKeyError => exact absurd rfl he
      | _ => exact tried_error hσ₁
  · rintro f w x w' hexec
    cases hexec
    rfl

theorem quiet_checkFencePeriodic (remote : VssKvStore) :
  remote.checkFencePeriodic.All StoreOp.isQuiet
  := by
  apply (checkFencePeriodic_all remote).mono
  intro o ho
  cases o with
  | fetchAddWriteCounter => exact ⟨rfl, rfl⟩
  | getObject key => exact ⟨rfl, rfl⟩
  | panic => exact ⟨rfl, rfl⟩
  | _ => cases ho

theorem replicate_rg (remote : VssKvStore) {k : Key} (hI : SyncedInv σ)
    (hσ : Holding t (Trying (vssKey k) value) events σ) :
  SyncedRg t (remote.replicate k value)
    (fun r σ' => Holding t (Tried (vssKey k) value r) events σ') σ
  := by
  cases value with
  | some buf =>
    apply quiet_then (ofCore_trying _ _) (quiet_checkFencePeriodic remote) hI hσ
    intro _ σ1 _ hσ₁
    exact putValue_rg hσ₁
  | none =>
    apply quiet_then (ofCore_trying _ _) (quiet_checkFencePeriodic remote) hI hσ
    intro _ σ1 _ hσ₁
    exact deleteCurrent_rg hσ₁

end Client

/-! ### The local-first store -/

section Synced

variable {σ : LoggedWorld} {t : ThreadId} {events : List StoreEvent}
variable {s : SyncedKvStore} {β : Type} {Q : β → LoggedWorld → Prop}
variable {value : Option Bytes}

theorem Secured.erase {w : StoreWorld} {vk : Str} (hw : Secured vk value w) (vk' : Str) :
  Secured vk value { w with rows := w.rows.erase (pendingKey vk') }
  := by
  refine ⟨hw.remote, fun row hrow => ?_⟩
  dsimp only at hrow
  rw [lookup_erase_eq] at hrow
  split_ifs at hrow
  exact hw.intent row hrow

theorem NamesReadBack.erase {w : StoreWorld} (hw : NamesReadBack w) (vk : Str) :
  NamesReadBack { w with rows := w.rows.erase (pendingKey vk) }
  := by
  intro vk' hvk'
  dsimp only at hvk'
  rw [lookup_erase_eq] at hvk'
  split_ifs at hvk'
  · cases hvk'
  · exact hw vk' hvk'

/-- The pending map is what the intents say, for the other objects. -/
def AgreesBut (vk : Str) (w : StoreWorld) : Prop :=
  ∀ vk', vk' ≠ vk → PendingSays w vk'

theorem ofCore_agreesBut (vk : Str) :
  OfCore (AgreesBut vk)
  := by
  intro w w' h hw vk' hvk'
  rw [h.pendingSays]
  exact hw vk' hvk'

/-- An intent is removed, from the rows and then from the pending map. -/
theorem clearPendingRow_then {vk : Str} (hσ : Holding t Agrees events σ)
    {next : Except IoError Unit → Store β}
    (hnext : ∀ r σ', SyncedInv σ' → Holding t Agrees events σ' → SyncedRg t (next r) Q σ') :
  SyncedRg t (clearPendingRow vk >>= next) Q σ
  := by
  rw [clearPendingRow, Prog.bind_assoc]
  apply transact_then ofCore_agrees (r := id) (N := AgreesBut vk)
    (g := fun w => { w with rows := w.rows.erase (pendingKey vk) })
    (fun _ _ => rfl) (fun _ => rfl) _ _ hσ
  · intro σ1 hI1 hσ₁
    dsimp only [id]
    rw [Prog.bind_assoc]
    apply modifyPending_then (ofCore_agreesBut vk) (N := fun _ => Agrees) _ hσ₁
    · intro before σ2 hI2 hσ₂
      exact hnext _ σ2 hI2 ⟨hσ₂.owner, hσ₂.data, (append_subset.mp hσ₂.logged).1⟩
    · intro w hw vk' value hvalue
      dsimp only at hvalue ⊢
      rw [lookup_erase_eq] at hvalue
      split_ifs at hvalue with hvk
      exact hw vk' hvk value hvalue
  · intro e σ1 hI1 hσ₁
    exact hnext _ σ1 hI1 hσ₁
  · intro w _
    exact ⟨rfl, fun h => h.erase vk, fun _ _ _ => not_mem_nil,
      fun vk' value _ h => h.erase vk⟩
  · intro w hw vk' hvk' value hvalue
    obtain ⟨row, hrow, hdecode⟩ := hw vk' value hvalue
    refine ⟨row, ?_, hdecode⟩
    dsimp only
    rw [lookup_erase_eq, if_neg, hrow]
    intro h
    exact hvk' (pendingKey_injective h)

theorem keyLock_then {P : StoreWorld → Prop} (hP : OfCore P) {o : StoreOp} (ho : o.isQuiet)
    (hI : SyncedInv σ) (hσ : Holding t P events σ) {next : o.Ans → Store β}
    (hnext : ∀ a σ', SyncedInv σ' → Holding t P events σ' → SyncedRg t (next a) Q σ') :
  SyncedRg t (storeOp o >>= next) Q σ
  := quiet_then hP (p := storeOp o) ⟨ho, fun _ => trivial⟩ hI hσ hnext

theorem readPending_exec (f : StoreFault) (w : StoreWorld) (x : Option Pending)
    (w' : StoreWorld) (hx : exec t f (.modifyPending id) w = some (x, w')) :
  w' = w
  := by
  cases hx
  rfl

theorem readPending_answer {f : StoreFault} {w w' : StoreWorld} {pending : Pending}
    (hx : exec t f (.modifyPending id) w = some (some pending, w')) :
  w.pending = pending
  := by
  cases hx
  rfl

theorem drainEntries_rg (remote : VssKvStore) (entries : List (Str × Option Bytes))
    (hI : SyncedInv σ) (hσ : Holding t Agrees events σ) :
  SyncedRg t (drainEntries remote entries) (fun _ σ' => Holding t Agrees events σ') σ
  := by
  induction entries generalizing σ with
  | nil => exact pure_holding (P := fun _ => Agrees) ofCore_agrees hσ
  | cons entry entries ih =>
    obtain ⟨vk, value⟩ := entry
    have hunlock : ∀ {σ' : LoggedWorld}, SyncedInv σ' → Holding t Agrees events σ' →
        SyncedRg t (storeOp (.unlock (.key vk)))
          (fun _ σ'' => Holding t Agrees events σ'') σ' := by
      intro σ' hI' hσ'
      change SyncedRg t (storeOp (.unlock (.key vk)) >>= pure) _ σ'
      apply keyLock_then ofCore_agrees ⟨rfl, rfl⟩ hI' hσ'
      intro _ σ'' _ hσ''
      exact pure_holding (P := fun _ => Agrees) ofCore_agrees hσ''
    have hrest : ∀ {σ' : LoggedWorld}, SyncedInv σ' → Holding t Agrees events σ' →
        SyncedRg t (storeOp (.unlock (.key vk)) >>= fun _ => drainEntries remote entries)
          (fun _ σ'' => Holding t Agrees events σ'') σ' := by
      intro σ' hI' hσ'
      apply keyLock_then ofCore_agrees ⟨rfl, rfl⟩ hI' hσ'
      intro _ σ'' hI'' hσ''
      exact ih hI'' hσ''
    rw [drainEntries]
    apply keyLock_then ofCore_agrees ⟨rfl, rfl⟩ hI hσ
    intro _ σ1 _ hσ₁
    apply query_then (o := .modifyPending id) (Holding.stable ofCore_agrees) (fun _ => rfl)
      readPending_exec hσ₁
    rintro f pending σ2 hI2 hσ₂ hexec
    obtain rfl : σ2.1.pending = pending := readPending_answer hexec
    split_ifs with hpending
    · exact hrest hI2 hσ₂
    rw [not_not] at hpending
    obtain ⟨row, hrow, hdecode⟩ := hσ₂.data vk value hpending
    rcases hparse : parseVssKey vk with _ | k
    · apply clearPendingRow_then hσ₂
      intro _ σ3 hI3 hσ₃
      exact hrest hI3 hσ₃
    -- The mutation is tried on the object it is pending for.
    have hreads := hI2.names vk (by rw [hrow]; rfl)
    rw [readsBack, hparse] at hreads
    obtain rfl : vssKey k = vk := of_decide_eq_true hreads
    apply rg_then syncedRely_refl (replicate_rg remote hI2
      ⟨hσ₂.owner, ⟨hσ₂.data, row, hrow, hdecode⟩, hσ₂.logged⟩) hI2
    rintro (e | _) σ3 hI3 hσ₃
    · exact hunlock hI3 (hσ₃.mono fun w hw => hw.1.1)
    · apply clearPendingRow_then (hσ₃.mono fun w hw => hw.1.1)
      rintro (e | _) σ4 hI4 hσ₄
      · exact hunlock hI4 hσ₄
      · exact hrest hI4 hσ₄

theorem pure_rg {α : Type} (a : α) (σ : LoggedWorld) :
  SyncedRg t (pure a : Store α) (fun _ _ => True) σ
  := by
  intro σ' _ _
  trivial

theorem releaseGate_rg (hσ : Holding t Agrees events σ) :
  SyncedRg t (storeOp (.unlock .drainGate)) (fun _ _ => True) σ
  := by
  change SyncedRg t (storeOp (.unlock .drainGate) >>= pure) _ σ
  apply releaseGate_then ofCore_agrees (fun w hw => hw) hσ
  intro σ' _
  apply pure_rg

theorem loadStopped_exec (f : StoreFault) (w : StoreWorld) (x : Option Bool) (w' : StoreWorld)
    (hx : exec t f .loadStopped w = some (x, w')) :
  w' = w
  := by
  cases hx
  rfl

theorem drainPending_acks :
  SyncedRg t s.drainPending (fun _ _ => True) σ
  := by
  rw [drainPending]
  split
  · apply pure_rg
  apply query_then (o := .loadStopped) (A := fun _ => True) (fun _ _ _ _ => trivial)
    (fun _ => rfl) loadStopped_exec trivial
  intro _ stopped σ1 _ _ _
  split_ifs
  · apply pure_rg
  apply takeGate_then
  intro σ2 hI2 hσ₂
  apply keyLock_then ofCore_agrees ⟨rfl, rfl⟩ hI2 hσ₂
  intro stopped σ3 hI3 hσ₃
  split_ifs
  · exact releaseGate_rg hσ₃
  · apply keyLock_then ofCore_agrees ⟨rfl, rfl⟩ hI3 hσ₃
    intro entries σ4 hI4 hσ₄
    apply rg_then syncedRely_refl (drainEntries_rg _ _ hI4 hσ₄) hI4
    intro _ σ5 _ hσ₅
    exact releaseGate_rg hσ₅

/-- A place in the pending map is reserved; the intent still says what was there before. -/
structure Reserved (vk : Str) (value : Option Bytes) (previous : Option (Option Bytes))
    (w : StoreWorld) : Prop where
  others : AgreesBut vk w
  here : w.pending.lookup vk = some value
  before : ∀ value', previous = some value' → RowSays vk value' w

theorem ofCore_reserved (vk : Str) (value : Option Bytes) (previous : Option (Option Bytes)) :
  OfCore (Reserved vk value previous)
  := by
  intro w w' h hw
  constructor
  · exact ofCore_agreesBut vk w w' h hw.others
  · rw [h.pending, hw.here]
  · intro value' hvalue'
    rw [RowSays, h.rows]
    exact hw.before value' hvalue'

theorem reservePending_then {vk : Str} (hσ : Holding t Agrees events σ)
    {next : Except IoError (Option (Option Bytes)) → Store β}
    (hfull : ∀ e σ', SyncedInv σ' → Holding t Agrees events σ' →
      SyncedRg t (next (.error e)) Q σ')
    (hok : ∀ previous σ', SyncedInv σ' → Holding t (Reserved vk value previous) events σ' →
      SyncedRg t (next (.ok previous)) Q σ') :
  SyncedRg t (s.reservePending vk value >>= next) Q σ
  := by
  rw [reservePending, Prog.bind_assoc]
  apply modifyPending_then ofCore_agrees _ hσ
    (N := fun before w => (s.isFull before vk → Agrees w)
      ∧ (¬ s.isFull before vk → Reserved vk value (before.lookup vk) w))
  · intro before σ1 hI1 hσ₁
    split_ifs with h
    · exact hfull _ σ1 hI1 (hσ₁.mono fun w hw => hw.1 h)
    · exact hok _ σ1 hI1 (hσ₁.mono fun w hw => hw.2 h)
  intro w hw
  constructor
  · intro h
    simp only [h, if_true]
    exact hw
  · intro h
    simp only [h]
    refine ⟨fun vk' hvk' value' hvalue' => ?_, ?_, fun value' hvalue' => hw vk value' hvalue'⟩
    · dsimp only at hvalue'
      rw [if_neg Bool.false_ne_true, lookup_insert_eq, if_neg hvk'] at hvalue'
      exact hw vk' value' hvalue'
    · dsimp only
      rw [if_neg Bool.false_ne_true, lookup_insert_eq, if_pos rfl]

theorem restorePendingReservation_then {vk : Str} {previous : Option (Option Bytes)}
    (hσ : Holding t (Reserved vk value previous) events σ) {next : Unit → Store β}
    (hnext : ∀ σ', SyncedInv σ' → Holding t Agrees events σ' → SyncedRg t (next ()) Q σ') :
  SyncedRg t (restorePendingReservation vk previous >>= next) Q σ
  := by
  have hcore := ofCore_reserved vk value previous
  cases previous with
  | some value' =>
    apply modifyPending_then hcore (N := fun _ => Agrees) _ hσ
    · intro before σ1 hI1 hσ₁
      exact hnext σ1 hI1 hσ₁
    intro w hw vk' value'' hvalue''
    dsimp only at hvalue'' ⊢
    rw [lookup_insert_eq] at hvalue''
    split_ifs at hvalue'' with hvk
    · cases hvalue''
      rw [hvk]
      exact hw.before value' rfl
    · exact hw.others vk' hvk value'' hvalue''
  | none =>
    apply modifyPending_then hcore (N := fun _ => Agrees) _ hσ
    · intro before σ1 hI1 hσ₁
      exact hnext σ1 hI1 hσ₁
    · intro w hw vk' value'' hvalue''
      dsimp only at hvalue'' ⊢
      rw [lookup_erase_eq] at hvalue''
      split_ifs at hvalue'' with hvk
      exact hw.others vk' hvk value'' hvalue''

section Commit

variable {k : Key} {value : Option Bytes} {w : StoreWorld}

/-- The world after a mutation was committed with its intent. -/
def StoreWorld.commit (w : StoreWorld) (k : Key) (value : Option Bytes) : StoreWorld :=
  { w with rows := committedRows w.rows k value, commits := w.commits + 1 }

theorem commit_allowed (hk : k.isOrdinary) (w : StoreWorld) :
  AllowedChange [.committed t k value] w (w.commit k value)
  := by
  simp only [Key.isOrdinary, decide_eq_true_eq] at hk
  obtain ⟨hprimary, hreads⟩ := hk
  refine ⟨rfl, fun hnames vk hvk => ?_, fun _ _ _ => by simp, fun vk value' hnone h => ?_⟩
  · rw [StoreWorld.commit] at hvk
    dsimp only at hvk
    rw [lookup_committedRows_intent _ hprimary] at hvk
    split_ifs at hvk with hvk'
    · rw [hvk']
      exact hreads
    · exact hnames vk hvk
  · have hne : ¬ vssKey k = vk := hnone _ mem_cons_self
    refine ⟨h.remote, fun row hrow => ?_⟩
    rw [StoreWorld.commit] at hrow
    dsimp only at hrow
    rw [lookup_committedRows_intent _ hprimary, if_neg (Ne.symm hne)] at hrow
    exact h.intent row hrow

/-- After the commit the intent says the reserved value. -/
theorem Reserved.commit (hk : k.isOrdinary) {previous : Option (Option Bytes)}
    (hw : Reserved (vssKey k) value previous w) :
  Trying (vssKey k) value (w.commit k value)
  := by
  simp only [Key.isOrdinary, decide_eq_true_eq] at hk
  obtain ⟨hprimary, -⟩ := hk
  have hrow : RowSays (vssKey k) value (w.commit k value) := by
    refine ⟨encodePendingRow value, ?_, decodePendingRow_encodePendingRow value⟩
    rw [StoreWorld.commit]
    dsimp only
    rw [lookup_committedRows_intent _ hprimary, if_pos rfl]
  refine ⟨fun vk value' hvalue' => ?_, hrow⟩
  by_cases hvk : vk = vssKey k
  · obtain rfl : value = value' := by
      rw [StoreWorld.commit, hvk] at hvalue'
      exact some.inj (hw.here.symm.trans hvalue')
    rw [hvk]
    exact hrow
  · obtain ⟨row, hrow', hdecode⟩ := hw.others vk hvk value' hvalue'
    refine ⟨row, ?_, hdecode⟩
    rw [StoreWorld.commit]
    dsimp only
    rw [lookup_committedRows_intent _ hprimary, if_neg hvk, hrow']

theorem commitWithIntent_holding (hk : k.isOrdinary) {previous : Option (Option Bytes)}
    (hσ : Holding t (Reserved (vssKey k) value previous) [] σ)
    {next : Except IoError Unit → Store β}
    (hok : ∀ σ', SyncedInv σ' →
      Holding t (Trying (vssKey k) value) [.committed t k value] σ' →
      SyncedRg t (next (.ok ())) Q σ')
    (hfails : ∀ e σ', SyncedInv σ' →
      Holding t (Reserved (vssKey k) value previous) [] σ' →
      SyncedRg t (next (.error e)) Q σ') :
  SyncedRg t (commitWithIntent k value >>= next) Q σ
  := by
  have hcore := ofCore_reserved (vssKey k) value previous
  cases value with
  | some buf =>
    exact transact_then hcore (r := id)
      (o := .writeWithReplicationIntent k buf (pendingKey (vssKey k))
        (encodePendingRow (some buf)))
      (g := fun w => w.commit k (some buf)) (fun _ _ => rfl) (fun _ => rfl)
      (fun w _ => commit_allowed hk w) (fun w hw => hw.commit hk) hσ hok hfails
  | none =>
    exact transact_then hcore (r := id)
      (o := .removeWithReplicationIntent k (pendingKey (vssKey k)) (encodePendingRow none))
      (g := fun w => w.commit k none) (fun _ _ => rfl) (fun _ => rfl)
      (fun w _ => commit_allowed hk w) (fun w hw => hw.commit hk) hσ hok hfails

end Commit

variable {k : Key}

/-- A tried mutation that the server has stored is settled. -/
theorem settledBy_of_tried
    (hσ : Holding t (Tried (vssKey k) value (.ok ())) [.committed t k value] σ) :
  SettledBy t k value σ
  := by
  obtain ⟨⟨-, row, hrow, hdecode⟩, hvalue⟩ := hσ.data
  obtain ⟨earlier, since, hlog⟩ :=
    append_of_mem (hσ.logged (mem_singleton_self _))
  refine ⟨earlier, since, hlog, fun _ => ⟨hvalue rfl, fun row' hrow' => ?_⟩⟩
  rw [hrow] at hrow'
  rw [← some.inj hrow', hdecode]

theorem rg_settledBy {α : Type} {p : Store α} (hp : SyncedRg t p (fun _ _ => True) σ)
    (hσ : SettledBy t k value σ) :
  SyncedRg t p (fun _ σ' => SettledBy t k value σ') σ
  := by
  apply rg_mono (Q := fun _ σ' => True ∧ SettledBy t k value σ') (fun _ _ h => h.2)
  apply rg_keeps (fun _ _ h hσ => hσ.keeps h.keeps) _ hp hσ
  intro σ1 σ2 hothers hσ₁
  exact hσ₁.keeps (hothers (t + 1) (Nat.succ_ne_self t)).keeps

/-- A mutation that requires it returns without an error only when it is settled. -/
theorem mutate_acks (remote : VssKvStore) (hk : k.isOrdinary) (value : Option Bytes) :
  SyncedRg t (s.mutate remote k value)
    (fun r σ' => r = .ok () → requiresRemoteDurability k → SettledBy t k value σ') σ
  := by
  -- The end of a mutation.
  have hunlock : ∀ {β : Type} {next : Unit → Store β} {Q : β → LoggedWorld → Prop}
      {events : List StoreEvent} {σ1 : LoggedWorld}, SyncedInv σ1 →
      Holding t Agrees events σ1 →
      (∀ σ2, SyncedInv σ2 → SyncedRg t (next ()) Q σ2) →
      SyncedRg t (storeOp (.unlock (.key (vssKey k))) >>= fun _ =>
        storeOp (.unlock .drainGate) >>= next) Q σ1 := by
    intro β next Q events σ1 hI1 hσ₁ hnext
    apply keyLock_then ofCore_agrees ⟨rfl, rfl⟩ hI1 hσ₁
    intro _ σ2 _ hσ₂
    apply releaseGate_then ofCore_agrees (fun w hw => hw) hσ₂ hnext
  have herror : ∀ {e : IoError} {σ1 : LoggedWorld},
      SyncedRg t (pure (.error e) : Store (Except IoError Unit))
        (fun r σ' => r = .ok () → requiresRemoteDurability k → SettledBy t k value σ') σ1 := by
    intro e σ1 σ2 _ _ hr
    cases hr
  rw [mutate]
  apply takeGate_then
  intro σ1 hI1 hσ₁
  apply keyLock_then ofCore_agrees ⟨rfl, rfl⟩ hI1 hσ₁
  intro stopped σ2 hI2 hσ₂
  split
  · apply releaseGate_then ofCore_agrees (fun w hw => hw) hσ₂
    intro σ3 _
    exact herror
  apply keyLock_then ofCore_agrees ⟨rfl, rfl⟩ hI2 hσ₂
  intro _ σ3 hI3 hσ₃
  apply reservePending_then hσ₃
  · intro e σ4 hI4 hσ₄
    apply hunlock hI4 hσ₄
    intro σ5 _
    exact herror
  intro previous σ4 hI4 hσ₄
  apply commitWithIntent_holding hk hσ₄
  · intro σ5 hI5 hσ₅
    apply rg_then syncedRely_refl (replicate_rg remote hI5 hσ₅) hI5
    rintro (e | ⟨⟩) σ6 hI6 hσ₆
    · apply hunlock hI6 (hσ₆.mono fun w hw => hw.1.1)
      intro σ7 _
      split_ifs with hrequires
      · exact herror
      · intro σ8 _ _ _ hrequires'
        exact absurd hrequires' hrequires
    -- From here on nothing more is needed than that the mutation stays settled.
    apply rg_mono (fun _ _ h _ _ => h)
    apply rg_settledBy _ (settledBy_of_tried hσ₆)
    apply clearPendingRow_then (hσ₆.mono fun w hw => hw.1.1)
    rintro (e | _) σ7 hI7 hσ₇
    · apply hunlock hI7 hσ₇
      intro σ8 _
      apply pure_rg
    · apply hunlock hI7 hσ₇
      intro σ8 hI8
      apply rg_then syncedRely_refl drainPending_acks hI8
      intro _ σ9 _ _
      apply pure_rg
  · intro e σ5 hI5 hσ₅
    apply restorePendingReservation_then hσ₅
    intro σ6 hI6 hσ₆
    apply hunlock hI6 hσ₆
    intro σ7 _
    exact herror

variable {remote : VssKvStore}

theorem write_acks (hs : s.remote = some remote) (hk : k.isOrdinary) (buf : Bytes) :
  SyncedRg t (s.write k buf)
    (fun r σ' => r = .ok () → requiresRemoteDurability k → SettledBy t k (some buf) σ') σ
  := by
  rw [write, hs]
  rcases s.checkMutation k with e | _
  · intro σ' _ _ hr
    cases hr
  · apply mutate_acks remote hk

theorem remove_acks (hs : s.remote = some remote) (hk : k.isOrdinary) :
  SyncedRg t (s.remove k)
    (fun r σ' => r = .ok () → requiresRemoteDurability k → SettledBy t k none σ') σ
  := by
  rw [remove, hs]
  rcases s.checkMutation k with e | _
  · intro σ' _ _ hr
    cases hr
  · apply mutate_acks remote hk

/-- A mutation is acknowledged only when it is settled. -/
theorem noteAcknowledged_acks {p : Store (Except IoError Unit)} (hI : SyncedInv σ)
    (hp : SyncedRg t p
      (fun r σ' => r = .ok () → requiresRemoteDurability k → SettledBy t k value σ') σ) :
  SyncedRg t (noteAcknowledged k value p) (fun _ _ => True) σ
  := by
  apply rg_then syncedRely_refl hp hI
  rintro (e | ⟨⟩) σ1 _ hσ₁
  · apply pure_rg
  change SyncedRg t (storeOp (.note (.acknowledged k value)) >>= pure) _ σ1
  apply rg_step (A := fun σ => requiresRemoteDurability k → SettledBy t k value σ)
    (fun _ _ h hσ hk => (hσ hk).keeps h.keeps) (hσ₁ rfl)
  rintro f σ2 x ⟨w3, log⟩ hI2 hσ₂ - hx
  obtain ⟨hexec, hlog⟩ := Shared.logged_exec hx
  cases hexec
  obtain rfl : log = σ2.2 ++ [.acknowledged t k value] := hlog
  have hkeeps : ∀ vk value', (∀ e ∈ [StoreEvent.acknowledged t k value], ¬ e.CommitsTo vk) →
      Secured vk value' σ2.1 → Secured vk value' σ2.1 := fun _ _ _ h => h
  refine ⟨⟨hI2.names, hI2.pending, ?_⟩, fun t' _ => ⟨⟨_, rfl, hkeeps⟩, fun _ => ?_⟩, ?_⟩
  · apply hI2.acks.append hkeeps
    intro t' k' value' hmem hk'
    cases mem_singleton.mp hmem
    exact ⟨rfl, hσ₂ hk'⟩
  · exact ⟨rfl, SameCore.refl _⟩
  · rintro _ ⟨⟩
    apply pure_rg

theorem pendingRemoteWrites_then {next : ℕ → Store β}
    (hnext : ∀ n σ', SyncedInv σ' → SyncedRg t (next n) Q σ') :
  SyncedRg t (pendingRemoteWrites >>= next) Q σ
  := by
  rw [pendingRemoteWrites, Prog.bind_assoc]
  apply query_then (o := .modifyPending id) (A := fun _ => True) (fun _ _ _ _ => trivial)
    (fun _ => rfl) readPending_exec trivial
  intro _ _ σ1 hI1 _ _
  exact hnext _ σ1 hI1

theorem flushPendingUntil_acks (rounds : ℕ) :
  SyncedRg t (s.flushPendingUntil rounds) (fun _ _ => True) σ
  := by
  have hlast : ∀ {σ' : LoggedWorld},
      SyncedRg t pendingRemoteWrites (fun _ _ => True) σ' := by
    intro σ'
    change SyncedRg t (pendingRemoteWrites >>= pure) _ σ'
    apply pendingRemoteWrites_then
    intro n σ1 _
    apply pure_rg
  induction rounds generalizing σ with
  | zero => exact hlast
  | succ rounds ih =>
    rw [flushPendingUntil]
    apply pendingRemoteWrites_then
    intro before σ1 hI1
    split_ifs
    · apply pure_rg
    apply rg_then syncedRely_refl drainPending_acks hI1
    intro _ σ2 _ _
    apply pendingRemoteWrites_then
    intro after σ3 _
    split_ifs
    · exact hlast
    · exact ih

/-- The stop of the store takes the drain gate even if it is poisoned. -/
theorem stop_acks (s : SyncedKvStore) :
  SyncedRg t s.stop (fun _ _ => True) σ
  := by
  rw [stop]
  apply rg_any
  rintro f σ1 x ⟨w2, log⟩ hI1 - hx
  obtain ⟨hexec, rfl⟩ := silent_exec (fun _ => rfl) hx
  cases hexec
  obtain ⟨hI2, hothers⟩ := hI1.quiet (t := t) (w := { σ1.1 with stopped := true })
    ⟨rfl, rfl, rfl, rfl, rfl, rfl⟩ (Or.inl rfl)
  refine ⟨hI2, hothers, ?_⟩
  rintro _ ⟨⟩
  apply rg_any
  rintro f σ3 x ⟨w4, log⟩ hI3 - hx
  obtain ⟨hexec, rfl⟩ := silent_exec (fun _ => rfl) hx
  simp only [exec] at hexec
  split at hexec
  · cases hexec
  rename_i hfree
  cases hexec
  have hgate := locks_setLock σ3.1 { σ3.1.locks .drainGate with owner := some t }
  obtain ⟨hI4, hothers⟩ := hI3.acquire (t := t)
    (w := { σ3.1.setLock .drainGate { σ3.1.locks .drainGate with owner := some t } with
      teardown := { σ3.1.teardown with waited := σ3.1.teardown.waited || σ3.1.stopped } })
    ⟨rfl, rfl, rfl, rfl, rfl, rfl⟩ hfree (congrArg Mutex.owner hgate)
  refine ⟨hI4, hothers, ?_⟩
  rintro _ ⟨⟩
  change SyncedRg t (storeOp (.unlock .drainGate) >>= pure) _ _
  -- While the gate is held, it is poisoned or the pending map is what the intents say.
  apply rg_step (A := fun σ => σ.1.gateOwner = some t ∧
    ((σ.1.locks .drainGate).poisoned = false → Agrees σ.1))
  · rintro σ σ' h ⟨howner, hagrees⟩
    obtain ⟨hgate', hcore⟩ := h.gate howner
    rw [gateOwner, hgate']
    exact ⟨howner, fun hpoisoned => ofCore_agrees _ _ hcore (hagrees hpoisoned)⟩
  · refine ⟨congrArg Mutex.owner hgate, fun hpoisoned => ?_⟩
    have hfree' : σ3.1.locks .drainGate = {} := by
      rcases hlock : σ3.1.locks .drainGate with ⟨owner, poisoned⟩
      dsimp only at hpoisoned
      rw [hgate, hlock] at hpoisoned
      rw [hlock] at hfree
      rw [show owner = none from hfree, show poisoned = false from hpoisoned]
    exact hI3.pending hfree'
  · rintro f σ5 x ⟨w6, log⟩ hI5 ⟨howner, hagrees⟩ - hx
    obtain ⟨hexec, rfl⟩ := silent_exec (fun _ => rfl) hx
    cases hexec
    obtain ⟨hI6, hothers⟩ := hI5.release howner hagrees
    refine ⟨hI6, hothers, ?_⟩
    rintro _ ⟨⟩
    apply pure_rg

theorem concurrentCall_acks (hs : s.remote = some remote) (t : ThreadId) (c : ConcurrentCall)
    (σ : LoggedWorld) (hc : c.isOrdinary) (hI : SyncedInv σ) :
  SyncedRg t (c.body s t) (fun _ _ => True) σ
  := by
  cases c with
  | write k buf => exact noteAcknowledged_acks hI (write_acks hs hc buf)
  | remove k => exact noteAcknowledged_acks hI (remove_acks hs hc)
  | drainPending => exact drainPending_acks
  | flushPendingUntil rounds =>
    apply rg_then syncedRely_refl (flushPendingUntil_acks rounds) hI
    intro _ σ1 _ _
    apply pure_rg
  | stop => exact stop_acks s

end Synced

/-! ### Opening the store -/

/-- The worlds while the store is opened: intents are only removed, and what is pending is
what the intents say. -/
structure Reopening (w₀ w : StoreWorld) : Prop where
  intents : ∀ vk row, w.rows.lookup (pendingKey vk) = some row →
    w₀.rows.lookup (pendingKey vk) = some row
  server : w.server = w₀.server
  gate : w.locks .drainGate = {}
  agrees : Agrees w

section Opening

variable {w₀ w : StoreWorld} {s : SyncedKvStore}

section Reopening

variable (hw : Reopening w₀ w)
include hw

theorem Reopening.reboot :
  Reopening w₀ w.reboot
  := by
  refine ⟨hw.intents, hw.server, rfl, fun vk value hvalue => ?_⟩
  cases hvalue

/-- A row that is no intent is removed. -/
theorem Reopening.erase {vk : Str} {row : Bytes} (hrow : w.rows.lookup (pendingKey vk) = some row)
    (hdecode : decodePendingRow row = none) :
  Reopening w₀ { w with rows := w.rows.erase (pendingKey vk) }
    ∧ ∀ vk' value, RowSays vk' value w →
        RowSays vk' value { w with rows := w.rows.erase (pendingKey vk) }
  := by
  have hsays : ∀ vk' value, RowSays vk' value w →
      RowSays vk' value { w with rows := w.rows.erase (pendingKey vk) } := by
    rintro vk' value ⟨row', hrow', hdecode'⟩
    refine ⟨row', ?_, hdecode'⟩
    dsimp only
    rw [lookup_erase_eq, if_neg, hrow']
    intro h
    rw [h, hrow] at hrow'
    rw [← some.inj hrow', hdecode] at hdecode'
    cases hdecode'
  refine ⟨⟨fun vk' row' hrow' => ?_, hw.server, hw.gate, fun vk' value hvalue => ?_⟩, hsays⟩
  · dsimp only at hrow'
    rw [lookup_erase_eq] at hrow'
    split_ifs at hrow'
    exact hw.intents vk' row' hrow'
  · exact hsays vk' value (hw.agrees vk' value hvalue)

/-- Loading intents makes a map of what they say. -/
theorem loadPending_agrees (keys : List Str) (pending : Pending)
    (hpending : ∀ vk value, pending.lookup vk = some value → RowSays vk value w) :
  (s.loadPending keys pending).wp storeMachine Prog.anyFate (Reopening w₀)
    (fun pending' w' => Reopening w₀ w' ∧
      ∀ vk value, pending'.lookup vk = some value → RowSays vk value w') w
  := by
  induction keys generalizing w pending with
  | nil => exact ⟨hw, hpending⟩
  | cons key keys ih =>
    rw [loadPending]
    split_ifs
    · exact ih hw pending hpending
    rw [Prog.wp_bind]
    apply wp_localAnswer (k := id) (fun _ => rfl) hw.reboot
    · rcases hrow : w.rows.lookup (pendingKey key) with _ | row
      · exact ih hw pending hpending
      dsimp only [id]
      split_ifs
      · exact ih hw pending hpending
      rcases hdecode : decodePendingRow row with _ | value
      · obtain ⟨herased, hsays⟩ := hw.erase hrow hdecode
        rw [Prog.wp_bind]
        apply wp_transaction (k := id) (fun _ => rfl) hw.reboot
        · apply ih herased pending
          intro vk value hvalue
          exact hsays vk value (hpending vk value hvalue)
        · intro e
          exact ih hw pending hpending
      apply ih hw
      intro vk value' hvalue'
      rw [lookup_insert_eq] at hvalue'
      split_ifs at hvalue' with hvk
      · cases hvalue'
        rw [hvk]
        exact ⟨row, hrow, hdecode⟩
      · exact hpending vk value' hvalue'
    · intro e
      exact ih hw pending hpending

theorem withVss_agrees :
  s.withVss.wp storeMachine Prog.anyFate (Reopening w₀) (fun _ => Reopening w₀) w
  := by
  have hopen : ∀ {w : StoreWorld} {pending : Pending}, Reopening w₀ w →
      (∀ vk value, pending.lookup vk = some value → RowSays vk value w) →
      (storeOp (.openStore pending)).wp storeMachine Prog.anyFate (Reopening w₀)
        (fun _ => Reopening w₀) w := by
    intro w pending hw hpending
    refine ⟨fun _ => hw.reboot, fun _ _ => ?_⟩
    exact ⟨hw.intents, hw.server, hw.gate, hpending⟩
  have hnone : ∀ {w : StoreWorld} vk value,
      (∅ : Pending).lookup vk = some value → RowSays vk value w := by
    intro w vk value hvalue
    cases hvalue
  rw [withVss, Prog.wp_bind]
  apply wp_localAnswer (k := id) (fun _ => rfl) hw.reboot
  · dsimp only [id]
    apply Prog.wp_seq (loadPending_agrees hw _ ∅ hnone)
    rintro pending w' ⟨hw', hpending⟩
    exact hopen hw' hpending
  · intro e
    exact hopen hw hnone

end Reopening

theorem reopen_syncedInv (s : SyncedKvStore) (fates : List (Fate StoreFault)) (σ : LoggedWorld)
    (hI : SyncedInv σ) :
  SyncedInv (s.reopen fates σ)
  := by
  have hstart : Reopening σ.1.reboot σ.1.reboot := by
    refine ⟨fun _ _ h => h, rfl, rfl, fun vk value hvalue => ?_⟩
    cases hvalue
  obtain ⟨hret, hstop⟩ := Prog.exec_of_wp _ _ _ (withVss_agrees (s := s) hstart)
    (Prog.admits_anyFate _ _ fates)
  have hw : Reopening σ.1.reboot (s.withVss.world storeMachine σ.1.reboot fates) := by
    rcases hr : s.withVss.result storeMachine σ.1.reboot fates with _ | r
    · exact hstop hr
    · exact hret r hr
  refine ⟨fun vk hvk => ?_, fun _ => hw.agrees, hI.acks.keeps fun vk value h => ⟨?_, ?_⟩⟩
  · obtain ⟨row, hrow⟩ := isSome_iff_exists.mp hvk
    exact hI.names vk (isSome_iff_exists.mpr ⟨row, hw.intents vk row hrow⟩)
  · rw [remoteValue, hw.server]
    exact h.remote
  · intro row hrow
    exact h.intent row (hw.intents vk row hrow)

end Opening

/-! ### Every life of the store -/

/-- Whatever the threads do, whatever fails and wherever the process is restarted: a record of
the funding whose call returned without an error was committed before by its thread, and the
server holds exactly its value unless a mutation of the same object was committed since. -/
theorem acknowledged_held (s : SyncedKvStore) {remote : VssKvStore}
    (hs : s.remote = some remote) {w : StoreWorld} (hnames : NamesReadBack w)
    (hagrees : Agrees w)
    (ls : List (Pool.Life ThreadId ConcurrentCall StoreFault (List (Fate StoreFault))))
    (hls : ∀ t c, .move (.spawn t c) ∈ ls → c.isOrdinary) :
  let pool := Pool.lives loggedStore (ConcurrentCall.body s) s.reopen (Pool.idle (w, [])) ls
  ∀ before after t k value,
    pool.world.2 = before ++ .acknowledged t k value :: after → requiresRemoteDurability k →
    ∃ earlier since, before = earlier ++ .committed t k value :: since ∧
      ((∀ e ∈ since ++ after, ¬ e.CommitsTo (vssKey k)) →
        pool.world.1.remoteValue (vssKey k) = value)
  := by
  intro pool before after t k value hlog hk
  have hstart : SyncedInv (w, []) := by
    refine ⟨hnames, fun _ => hagrees, ?_⟩
    intro before after t k value h
    simp at h
  have hsound : Pool.Sound loggedStore (fun _ _ _ _ => True) SyncedInv SyncedRely pool :=
    Pool.lives_invariant syncedRely_refl syncedRely_trans (concurrentCall_acks hs)
      (reopen_syncedInv s) ls (Pool.idle_sound hstart) hls
  obtain ⟨earlier, since, hbefore, hsecured⟩ :=
    hsound.invariant.acks before after t k value hlog hk
  exact ⟨earlier, since, hbefore, fun hnone => (hsecured hnone).remote⟩

/-! ### Examples -/

def senderRecord : Key := ⟨rgbSenderFundingNamespace, [], str "a"⟩

def ackStore : SyncedKvStore := ⟨false, some ⟨str "node"⟩, 2, Nat.two_pos⟩

abbrev SyncedLife : Type := Pool.Life ThreadId ConcurrentCall StoreFault (List (Fate StoreFault))

def spawnCall (t : ThreadId) (c : ConcurrentCall) : SyncedLife := .move (.spawn t c)

/-- Moves of a thread that nothing interferes with. -/
def calmSteps (t : ThreadId) (n : ℕ) : List SyncedLife :=
  replicate n (.move (.step t .calm))

/-- The world and the record after a life of a fresh store. -/
def afterLife (ls : List SyncedLife) : LoggedWorld :=
  (Pool.lives loggedStore (ConcurrentCall.body ackStore) ackStore.reopen
    (Pool.idle ({ opened := true }, [])) ls).world

/-- The record is written, and the process is restarted. -/
def writtenOnce : List SyncedLife :=
  [spawnCall 0 (.write senderRecord [1])] ++ calmSteps 0 20 ++ [.restart []]

theorem acknowledged_held_writtenOnce :
  (afterLife writtenOnce).2
      = [.committed 0 senderRecord (some [1]), .acknowledged 0 senderRecord (some [1])]
    ∧ (afterLife writtenOnce).1.remoteValue (vssKey senderRecord) = some [1]
  := by
  have hlog : (afterLife writtenOnce).2
      = [.committed 0 senderRecord (some [1]), .acknowledged 0 senderRecord (some [1])] := by
    decide +kernel
  refine ⟨hlog, ?_⟩
  obtain ⟨earlier, since, hbefore, hheld⟩ := acknowledged_held ackStore rfl
    (w := { opened := true }) (fun _ h => by cases h) (fun _ _ h => by cases h) writtenOnce
    (by
      intro t c h
      simp only [writtenOnce, spawnCall, calmSteps, mem_append, mem_singleton,
        mem_replicate, reduceCtorEq, and_false, or_false, Pool.Life.move.injEq,
        Move.spawn.injEq] at h
      obtain ⟨rfl, rfl⟩ := h
      decide +kernel)
    [.committed 0 senderRecord (some [1])] [] 0 senderRecord (some [1]) hlog (by decide +kernel)
  cases earlier with
  | nil =>
    obtain ⟨-, rfl⟩ := cons.inj hbefore
    exact hheld (by simp)
  | cons e earlier => simp at hbefore

/-- A second write of the record fails, and its intent is drained. -/
def refusedWrite : List SyncedLife :=
  [spawnCall 0 (.write senderRecord [1])] ++ calmSteps 0 20
    ++ [spawnCall 0 (.write senderRecord [2])] ++ calmSteps 0 7
    ++ [.move (.step 0 (.remoteFails serverError))] ++ calmSteps 0 10
    ++ [spawnCall 0 .drainPending] ++ calmSteps 0 20

/-- A second thread writes the record before the call of the first returns. -/
def overtakenWrite : List SyncedLife :=
  [spawnCall 0 (.write senderRecord [1])] ++ calmSteps 0 12
    ++ [spawnCall 1 (.write senderRecord [2])] ++ calmSteps 1 20 ++ calmSteps 0 10

/-- A write that is refused still replaces the acknowledged value with the next drain; and a
write may be acknowledged when the server already holds the value of another. -/
theorem acknowledged_replaced :
  ((afterLife refusedWrite).2
      = [.committed 0 senderRecord (some [1]), .acknowledged 0 senderRecord (some [1]),
        .committed 0 senderRecord (some [2])]
    ∧ (afterLife refusedWrite).1.remoteValue (vssKey senderRecord) = some [2])
  ∧ ((afterLife overtakenWrite).2
      = [.committed 0 senderRecord (some [1]), .committed 1 senderRecord (some [2]),
        .acknowledged 1 senderRecord (some [2]), .acknowledged 0 senderRecord (some [1])]
    ∧ (afterLife overtakenWrite).1.remoteValue (vssKey senderRecord) = some [2])
  ∧ requiresRemoteDurability senderRecord
  := by
  decide +kernel

end RgbLightning
