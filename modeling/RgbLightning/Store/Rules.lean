import RgbLightning.Store.SyncedKvStore

/-!
# Rules for the stores

What the methods of the client and of the stores do to the local rows, to the pending map
and to the server, when one thread runs at a time.  Most operations leave all of these
alone (`SameCore`).  A mutation on the server is made or not (`Attempted`); it is made if
the client says so.
-/

namespace RgbLightning

open Prog Option

def StoreWorld.remoteValue (w : StoreWorld) (vk : Str) : Option Bytes :=
  (w.server.lookup vk).map (·.value)

/-! ### Operations that leave rows, pending map and server alone -/

/-- The worlds agree on the local rows, on the pending map and on the server. -/
structure SameCore (w w' : StoreWorld) : Prop where
  rows : w'.rows = w.rows
  opened : w'.opened = w.opened
  pending : w'.pending = w.pending
  policy : w'.policy = w.policy
  server : w'.server = w.server
  commits : w'.commits = w.commits

namespace SameCore

theorem refl (w : StoreWorld) :
  SameCore w w
  := ⟨rfl, rfl, rfl, rfl, rfl, rfl⟩

theorem trans {w w' w'' : StoreWorld} (h : SameCore w w') (h' : SameCore w' w'') :
  SameCore w w''
  := ⟨h'.rows.trans h.rows, h'.opened.trans h.opened, h'.pending.trans h.pending,
    h'.policy.trans h.policy, h'.server.trans h.server, h'.commits.trans h.commits⟩

end SameCore

/-- Whether an operation can change the local rows, the pending map or the server. -/
def StoreOp.touchesCore : StoreOp → Bool
  | .modifyPending _ => true
  | .openStore _ => true
  | .localWrite _ _ => true
  | .localRemove _ => true
  | .writeWithReplicationIntent _ _ _ _ => true
  | .removeWithReplicationIntent _ _ _ => true
  | .putObject _ => true
  | _ => false

variable (w : StoreWorld)

theorem sameCore_panic (t : ThreadId) :
  SameCore w (w.panic t)
  := ⟨rfl, rfl, rfl, rfl, rfl, rfl⟩

theorem sameCore_setLock (l : Lock) (m : Mutex) :
  SameCore w (w.setLock l m)
  := ⟨rfl, rfl, rfl, rfl, rfl, rfl⟩

/-- An operation of a thread that leaves rows, pending map and server alone. -/
theorem sameCore_execBy {t : ThreadId} {o : StoreOp} (ho : o.touchesCore = false)
    {f : StoreFault} {w w' : StoreWorld} {x : Option o.Ans}
    (hx : StoreWorld.exec t f o w = some (x, w')) :
  SameCore w w'
  := by
  cases o with
  | lock l =>
    simp only [StoreWorld.exec] at hx
    split at hx
    · cases hx
    · split_ifs at hx
      · cases hx
        apply sameCore_panic
      · cases hx
        exact ⟨rfl, rfl, rfl, rfl, rfl, rfl⟩
  | lockIgnoringPoison l =>
    simp only [StoreWorld.exec] at hx
    split at hx
    · cases hx
    · cases hx
      exact ⟨rfl, rfl, rfl, rfl, rfl, rfl⟩
  | hang => cases hx
  | iterPending =>
    cases f <;> cases hx <;> exact SameCore.refl w
  | beginTask task =>
    simp only [StoreWorld.exec] at hx
    split at hx
    · cases hx
      exact ⟨rfl, rfl, rfl, rfl, rfl, rfl⟩
    · cases hx
  | awaitTask task =>
    obtain ⟨outcome, -, heq⟩ := map_eq_some_iff.mp hx
    cases heq
    apply SameCore.refl
  | note n =>
    cases n <;> cases hx <;> exact ⟨rfl, rfl, rfl, rfl, rfl, rfl⟩
  | modifyPending change => cases ho
  | openStore pending => cases ho
  | localWrite k value => cases ho
  | localRemove k => cases ho
  | writeWithReplicationIntent k value intentKey intent => cases ho
  | removeWithReplicationIntent k intentKey intent => cases ho
  | putObject request => cases ho
  | _ =>
    cases hx
    exact ⟨rfl, rfl, rfl, rfl, rfl, rfl⟩

theorem sameCore_exec (o : StoreOp) (ho : o.touchesCore = false) (f : StoreFault)
    (w : StoreWorld) :
  SameCore w (storeMachine.exec f o w).2
  := by
  rcases hx : StoreWorld.exec 0 f o w with _ | ⟨x, w'⟩
  · simp only [hx, getD_none]
    apply SameCore.refl
  · simp only [hx, getD_some]
    apply sameCore_execBy ho hx

/-- A program that leaves the local rows, the pending map and the server alone. -/
abbrev LeavesCore {α : Type} (p : Store α) : Prop :=
  p.All fun o : StoreOp => o.touchesCore = false

section Rules

variable {G : Guard storeInterface StoreWorld StoreFault} {C : StoreWorld → Prop}
variable {w : StoreWorld}

theorem wp_leavesCore {α : Type} {p : Store α} (hp : LeavesCore p) {Q : α → StoreWorld → Prop}
    (hcrash : ∀ w', SameCore w w' → C w'.reboot) (hstop : ∀ w', SameCore w w' → C w')
    (hQ : ∀ a w', SameCore w w' → Q a w') :
  p.wp storeMachine G C Q w
  := wp_frame SameCore.refl (fun _ _ _ => SameCore.trans) sameCore_exec hp hQ hstop hcrash

/-- An operation that leaves rows, pending map and server alone, and then a program. -/
theorem wp_leavesCore_then {α : Type} {o : StoreOp} {next : o.Ans → Store α}
    (ho : o.touchesCore = false) {Q : α → StoreWorld → Prop}
    (hcrash : ∀ w', SameCore w w' → C w'.reboot) (hstop : ∀ w', SameCore w w' → C w')
    (hQ : ∀ a w', SameCore w w' → (next a).wp storeMachine G C Q w') :
  (storeOp o >>= next).wp storeMachine G C Q w
  := by
  rw [wp_bind]
  exact wp_leavesCore (p := storeOp o) ⟨ho, fun _ => trivial⟩ hcrash hstop hQ

theorem wp_readPending {Q : Pending → StoreWorld → Prop} (hcrash : C w.reboot)
    (hQ : Q w.pending w) :
  (storeOp (.modifyPending id)).wp storeMachine G C Q w
  := ⟨fun _ => hcrash, fun _ _ => hQ⟩

theorem wp_modifyPending {change : Pending → Pending} {Q : Pending → StoreWorld → Prop}
    (hcrash : C w.reboot) (hQ : Q w.pending { w with pending := change w.pending }) :
  (storeOp (.modifyPending change)).wp storeMachine G C Q w
  := ⟨fun _ => hcrash, fun _ _ => hQ⟩

/-- A local transaction is made, or fails without effect. -/
theorem wp_transaction {o : StoreOp} {w' : StoreWorld} {k : Except IoError Unit → o.Ans}
    (hexec : ∀ f, StoreWorld.exec 0 f o w
      = some (some (k (f.transact w w').1), (f.transact w w').2))
    {Q : o.Ans → StoreWorld → Prop} (hcrash : C w.reboot) (hok : Q (k (.ok ())) w')
    (herror : ∀ e : Failure, Q (k (.error e.val)) w) :
  (storeOp o).wp storeMachine G C Q w
  := by
  refine ⟨fun _ => hcrash, fun f _ => ?_⟩
  have hx : storeMachine.exec f o w
      = (some (k (f.transact w w').1), (f.transact w w').2) := by
    simp only [hexec, getD_some]
  rw [hx]
  cases f with
  | localFails e => apply herror
  | _ => apply hok

theorem wp_localAnswer {α : Type} {o : StoreOp} {a : Except IoError α}
    {k : Except IoError α → o.Ans}
    (hexec : ∀ f, StoreWorld.exec 0 f o w = some (some (k (f.localAnswer a)), w))
    {Q : o.Ans → StoreWorld → Prop} (hcrash : C w.reboot) (hok : Q (k a) w)
    (herror : ∀ e : Failure, Q (k (.error e.val)) w) :
  (storeOp o).wp storeMachine G C Q w
  := by
  refine ⟨fun _ => hcrash, fun f _ => ?_⟩
  have hx : storeMachine.exec f o w = (some (k (f.localAnswer a)), w) := by
    simp only [hexec, getD_some]
  rw [hx]
  cases f with
  | localFails e => apply herror
  | _ => apply hok

end Rules

/-! ### Mutations on the server -/

/-- A mutation of an object on the server was made, or not. -/
structure Attempted (vk : Str) (value : Option Bytes) (w w' : StoreWorld) : Prop where
  rows : w'.rows = w.rows
  opened : w'.opened = w.opened
  pending : w'.pending = w.pending
  policy : w'.policy = w.policy
  commits : w'.commits = w.commits
  others : ∀ vk', vk' ≠ vk → w'.remoteValue vk' = w.remoteValue vk'
  here : w'.remoteValue vk = w.remoteValue vk ∨ w'.remoteValue vk = value

theorem SameCore.attempted {w w' : StoreWorld} (h : SameCore w w') (vk : Str)
    (value : Option Bytes) :
  Attempted vk value w w'
  := by
  have hremote : ∀ vk', w'.remoteValue vk' = w.remoteValue vk' := by
    intro vk'
    rw [StoreWorld.remoteValue, StoreWorld.remoteValue, h.server]
  exact ⟨h.rows, h.opened, h.pending, h.policy, h.commits, fun vk' _ => hremote vk',
    Or.inl (hremote vk)⟩

theorem Attempted.trans {vk : Str} {value : Option Bytes} {w w' w'' : StoreWorld}
    (h : Attempted vk value w w') (h' : Attempted vk value w' w'') :
  Attempted vk value w w''
  := by
  refine ⟨h'.rows.trans h.rows, h'.opened.trans h.opened, h'.pending.trans h.pending,
    h'.policy.trans h.policy, h'.commits.trans h.commits, fun vk' hvk' => ?_, ?_⟩
  · rw [h'.others vk' hvk', h.others vk' hvk']
  · rcases h'.here with hsame | hmade
    · rw [hsame]
      apply h.here
    · right
      apply hmade

theorem sameCore_recordRequest (request : PutObjectRequest) :
  SameCore w (w.recordRequest request)
  := by
  rw [StoreWorld.recordRequest]
  split_ifs <;> exact ⟨rfl, rfl, rfl, rfl, rfl, rfl⟩

section Requests

variable {G : Guard storeInterface StoreWorld StoreFault} {C : StoreWorld → Prop}
variable {w : StoreWorld}
variable {Q : Except VssError Unit → StoreWorld → Prop}

/-- A request the server accepts takes effect, unless it fails before it is received. -/
theorem wp_put_accepted {request : PutObjectRequest} {server : Objects}
    (hput : Objects.put w.policy w.server request = .ok server) (hcrash : C w.reboot)
    (hok : ∀ w', SameCore { w with server } w' → Q (.ok ()) w')
    (hfails : ∀ (e : RemoteFailure) w', SameCore w w' → Q (.error e.val) w')
    (hlost : ∀ (e : RemoteFailure) w', SameCore { w with server } w' → Q (.error e.val) w') :
  (storeOp (.putObject request)).wp storeMachine G C Q w
  := by
  have hrecord := sameCore_recordRequest w request
  rw [← hrecord.policy, ← hrecord.server] at hput
  have hmade : (w.recordRequest request).put request
      = (.ok (), { w.recordRequest request with server }) := by
    rw [StoreWorld.put, hput]
  have hsame : SameCore { w with server } { w.recordRequest request with server } :=
    ⟨hrecord.rows, hrecord.opened, hrecord.pending, hrecord.policy, rfl, hrecord.commits⟩
  refine ⟨fun _ => hcrash, fun f _ => ?_⟩
  cases f with
  | remoteFails e => apply hfails e _ hrecord
  | remoteLost e =>
    simp only [StoreWorld.exec, StoreWorld.putObject, hmade, getD_some]
    apply hlost e _ hsame
  | _ =>
    simp only [StoreWorld.exec, StoreWorld.putObject, hmade, getD_some]
    apply hok _ hsame

theorem wp_put_rejected {request : PutObjectRequest} {rejection : VssError}
    (hput : Objects.put w.policy w.server request = .error rejection) (hcrash : C w.reboot)
    (hrejected : ∀ w', SameCore w w' → Q (.error rejection) w')
    (hfails : ∀ (e : RemoteFailure) w', SameCore w w' → Q (.error e.val) w') :
  (storeOp (.putObject request)).wp storeMachine G C Q w
  := by
  have hrecord := sameCore_recordRequest w request
  have hmade : (w.recordRequest request).put request
      = (.error rejection, w.recordRequest request) := by
    rw [StoreWorld.put, hrecord.policy, hrecord.server, hput]
  refine ⟨fun _ => hcrash, fun f _ => ?_⟩
  cases f with
  | remoteFails e => apply hfails e _ hrecord
  | remoteLost e =>
    simp only [StoreWorld.exec, StoreWorld.putObject, hmade, getD_some]
    apply hfails e _ hrecord
  | _ =>
    simp only [StoreWorld.exec, StoreWorld.putObject, hmade, getD_some]
    apply hrejected _ hrecord

theorem wp_getObject {key : Str} {Q : Except VssError (Option KeyValue) → StoreWorld → Prop}
    (hcrash : C w.reboot)
    (hsome : ∀ object, w.server.lookup key = some object →
      Q (.ok (some ⟨key, object.version, object.value⟩)) w)
    (hnone : w.server.lookup key = none → Q (.error .noSuchKeyError) w)
    (hfails : ∀ e : RemoteFailure, Q (.error e.val) w) :
  (storeOp (.getObject key)).wp storeMachine G C Q w
  := by
  refine ⟨fun _ => hcrash, fun f _ => ?_⟩
  simp only [storeMachine, StoreWorld.exec, Objects.get]
  rcases hlookup : w.server.lookup key with _ | object
  · cases f with
    | remoteFails e => apply hfails
    | remoteLost e => apply hfails
    | _ => apply hnone hlookup
  · cases f with
    | remoteFails e => apply hfails
    | remoteLost e => apply hfails
    | _ => apply hsome object hlookup

end Requests

/-! ### The fence -/

/-- The worlds agree on all that `SameCore` says, except for the fence. -/
structure SameButFence (w w' : StoreWorld) : Prop where
  rows : w'.rows = w.rows
  opened : w'.opened = w.opened
  pending : w'.pending = w.pending
  policy : w'.policy = w.policy
  commits : w'.commits = w.commits
  remote : ∀ vk, vk ≠ fenceKey → w'.remoteValue vk = w.remoteValue vk

theorem SameButFence.trans {w w' w'' : StoreWorld} (h : SameButFence w w')
    (h' : SameButFence w' w'') :
  SameButFence w w''
  := ⟨h'.rows.trans h.rows, h'.opened.trans h.opened, h'.pending.trans h.pending,
    h'.policy.trans h.policy, h'.commits.trans h.commits,
    fun vk hvk => (h'.remote vk hvk).trans (h.remote vk hvk)⟩

theorem SameCore.sameButFence {w w' : StoreWorld} (h : SameCore w w') :
  SameButFence w w'
  := by
  refine ⟨h.rows, h.opened, h.pending, h.policy, h.commits, fun vk _ => ?_⟩
  rw [StoreWorld.remoteValue, StoreWorld.remoteValue, h.server]

theorem sameButFence_put {request : PutObjectRequest} (hrequest : request.keys = [fenceKey]) :
  SameButFence w (w.put request).2
  := by
  rw [StoreWorld.put]
  split
  · rename_i server hput
    refine ⟨rfl, rfl, rfl, rfl, rfl, fun vk hvk => ?_⟩
    rw [StoreWorld.remoteValue, StoreWorld.remoteValue, Objects.lookup_put hput]
    rw [hrequest, List.mem_singleton]
    exact hvk
  · exact (SameCore.refl w).sameButFence

theorem sameButFence_exec (o : StoreOp) (ho : o.releasesFence) (f : StoreFault)
    (w : StoreWorld) :
  SameButFence w (storeMachine.exec f o w).2
  := by
  cases o with
  | getObject key => exact (SameCore.refl w).sameButFence
  | putObject request =>
    have hrecord := (sameCore_recordRequest w request).sameButFence
    cases f with
    | remoteFails e => exact hrecord
    | _ => exact hrecord.trans (sameButFence_put _ ho)
  | _ => cases ho

theorem wp_fence {G : Guard storeInterface StoreWorld StoreFault} {C : StoreWorld → Prop}
    {w : StoreWorld} {α : Type} {p : Store α} (hp : p.All StoreOp.releasesFence)
    {Q : α → StoreWorld → Prop} (hcrash : ∀ w', SameButFence w w' → C w'.reboot)
    (hstop : ∀ w', SameButFence w w' → C w') (hQ : ∀ a w', SameButFence w w' → Q a w') :
  p.wp storeMachine G C Q w
  := wp_frame (fun w => (SameCore.refl w).sameButFence) (fun _ _ _ => SameButFence.trans)
    sameButFence_exec hp hQ hstop hcrash

/-! ### The client -/

theorem attempted_insert (vk : Str) (object : Object) :
  let w' := { w with server := w.server.insert vk object }
  Attempted vk (some object.value) w w' ∧ w'.remoteValue vk = some object.value
  := by
  have hhere : { w with server := w.server.insert vk object }.remoteValue vk
      = some object.value := by
    simp only [StoreWorld.remoteValue, Table.lookup_insert_eq, if_true, map_some]
  refine ⟨⟨rfl, rfl, rfl, rfl, rfl, fun vk' hvk' => ?_, Or.inr hhere⟩, hhere⟩
  simp only [StoreWorld.remoteValue, Table.lookup_insert_eq, if_neg hvk']

theorem attempted_erase (vk : Str) :
  let w' := { w with server := w.server.erase vk }
  Attempted vk none w w' ∧ w'.remoteValue vk = none
  := by
  have hhere : { w with server := w.server.erase vk }.remoteValue vk = none := by
    simp only [StoreWorld.remoteValue, Table.lookup_erase_eq, if_true, map_none]
  refine ⟨⟨rfl, rfl, rfl, rfl, rfl, fun vk' hvk' => ?_, Or.inr hhere⟩, hhere⟩
  simp only [StoreWorld.remoteValue, Table.lookup_erase_eq, if_neg hvk']

theorem SameCore.remoteValue {w w' : StoreWorld} (h : SameCore w w') (vk : Str) :
  w'.remoteValue vk = w.remoteValue vk
  := by
  rw [StoreWorld.remoteValue, StoreWorld.remoteValue, h.server]

theorem LeavesCore.checkFencePeriodic (s : VssKvStore) :
  LeavesCore s.checkFencePeriodic
  := by
  apply (checkFencePeriodic_all s).mono
  intro o ho
  cases o with
  | fetchAddWriteCounter => rfl
  | getObject key => rfl
  | panic => rfl
  | _ => cases ho

/-- What holds after a mutation was tried on the server. -/
def AttemptPost (vk : Str) (value : Option Bytes) (w : StoreWorld) :
    Except IoError Unit → StoreWorld → Prop
  | .ok _, w' => Attempted vk value w w' ∧ w'.remoteValue vk = value
  | .error _, w' => Attempted vk value w w'

section Client

variable {G : Guard storeInterface StoreWorld StoreFault} {C : StoreWorld → Prop}
variable {w w₀ : StoreWorld}

theorem deleteCurrent_wp {vk : Str} {readMessage deleteMessage : String}
    (hw : Attempted vk none w₀ w)
    (hcrash : ∀ w', Attempted vk none w₀ w' → C w'.reboot) :
  (deleteCurrent vk readMessage deleteMessage).wp storeMachine G C (AttemptPost vk none w₀) w
  := by
  rw [deleteCurrent, wp_bind]
  apply wp_getObject (hcrash w hw)
  · intro object hobject
    obtain ⟨herased, hnone⟩ := attempted_erase w vk
    dsimp only
    rw [deleteVersion, wp_bind]
    apply wp_put_accepted (Objects.put_deleteCurrent hobject) (hcrash w hw)
    · intro w' hw'
      refine ⟨hw.trans (herased.trans (hw'.attempted vk none)), ?_⟩
      rw [hw'.remoteValue, hnone]
    · rintro ⟨e, he⟩ w' hw'
      have h := hw.trans (hw'.attempted vk none)
      cases e with
      | noSuchKeyError => exact absurd rfl he
      | _ => apply h
    · rintro ⟨e, he⟩ w' hw'
      have h := hw.trans (herased.trans (hw'.attempted vk none))
      cases e with
      | noSuchKeyError => exact absurd rfl he
      | _ => apply h
  · intro hnone
    refine ⟨hw, ?_⟩
    rw [StoreWorld.remoteValue, hnone]
    rfl
  · rintro ⟨e, he⟩
    cases e with
    | noSuchKeyError => exact absurd rfl he
    | _ => apply hw

theorem putValue_wp {vk : Str} {value : Bytes} {onError : VssError → IoError}
    (hw : Attempted vk (some value) w₀ w)
    (hcrash : ∀ w', Attempted vk (some value) w₀ w' → C w'.reboot) :
  (putValue vk value onError).wp storeMachine G C (AttemptPost vk (some value) w₀) w
  := by
  obtain ⟨hinserted, hsome⟩ := attempted_insert w vk ⟨1, value, by omega⟩
  rw [putValue, wp_bind]
  apply wp_localAnswer (k := id) (fun _ => rfl) (hcrash w hw)
  · dsimp only [id]
    rw [wp_bind]
    apply wp_put_accepted (Objects.put_unconditional vk value) (hcrash w hw)
    · intro w' hw'
      refine ⟨hw.trans (hinserted.trans (hw'.attempted _ _)), ?_⟩
      rw [hw'.remoteValue, hsome]
    · intro e w' hw'
      apply hw.trans (hw'.attempted _ _)
    · intro e w' hw'
      apply hw.trans (hinserted.trans (hw'.attempted _ _))
  · intro e
    apply hw

theorem replicate_wp (remote : VssKvStore) (k : Key) (value : Option Bytes)
    (hcrash : ∀ w', Attempted (vssKey k) value w w' → C w'.reboot)
    (hstop : ∀ w', Attempted (vssKey k) value w w' → C w') :
  (remote.replicate k value).wp storeMachine G C (AttemptPost (vssKey k) value w) w
  := by
  have hcheck : ∀ {Q : Unit → StoreWorld → Prop},
      (∀ w', Attempted (vssKey k) value w w' → Q () w') →
        remote.checkFencePeriodic.wp storeMachine G C Q w := by
    intro Q hQ
    apply wp_leavesCore (LeavesCore.checkFencePeriodic remote)
    · intro w' hw'
      apply hcrash w' (hw'.attempted _ _)
    · intro w' hw'
      apply hstop w' (hw'.attempted _ _)
    · intro _ w' hw'
      apply hQ w' (hw'.attempted _ _)
  cases value with
  | some buf =>
    rw [VssKvStore.replicate, VssKvStore.write, wp_bind]
    apply hcheck
    intro w' hw'
    apply putValue_wp hw' hcrash
  | none =>
    rw [VssKvStore.replicate, VssKvStore.remove, wp_bind]
    apply hcheck
    intro w' hw'
    apply deleteCurrent_wp hw' hcrash

end Client

end RgbLightning
