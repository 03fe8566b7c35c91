import RgbLightning.Store.VssKvStore

/-!
# The single-writer fence

Several instances share a server.  Each acquires and releases the fence in one thread, one
call after the other, and checks it in other threads.  The requests of all of them
interleave.

An instance holds the fence from when its acquisition returned without an error until its
own release deleted the fence.  The fence on the server names the holder
(`FenceInv.held`), and nobody but the instance the fence names deletes it.  So there is at
most one holder, and a release never deletes the fence of another instance
(`fence_exclusive`).
-/

namespace RgbLightning

open Interleave VssKvStore Option Function

/-! ### Instances -/

/-- The threads of an instance: one acquires and releases the fence, the others check it. -/
inductive FenceThread where
  | control (instanceId : Bytes)
  | checker (instanceId : Bytes) (n : ℕ)
deriving DecidableEq

def FenceThread.instanceId : FenceThread → Bytes
  | .control i => i
  | .checker i _ => i

inductive FenceCall where
  | acquire
  | release
  | check
  | clear
deriving DecidableEq

def fenceBody (t : FenceThread) : FenceCall → Store Unit
  | .acquire => do
    match ← (mk t.instanceId).acquireFence with
    | .ok _ => storeOp (.note .fenceAcquired)
    | .error _ => pure ()
  | .release => do
    let _ ← (mk t.instanceId).releaseFenceIfOwned
    pure ()
  | .check => (mk t.instanceId).checkFencePeriodic
  | .clear => do
    let _ ← (mk t.instanceId).deleteFence
    pure ()

/-- The server, what the instances keep, who holds the fence, and which instance deleted a
fence of which owner. -/
structure FenceWorld where
  policy : ServerPolicy
  server : Objects := ∅
  counters : Bytes → ℕ := fun _ => 0
  holders : Bytes → Bool := fun _ => false
  deletions : List (Bytes × Option Bytes) := []

namespace FenceWorld

def owner (w : FenceWorld) : Option Bytes :=
  (w.server.lookup fenceKey).map (·.value)

/-- The outcome of a put request of an instance.  Deleting the fence ends its holding. -/
def put (w : FenceWorld) (i : Bytes) (request : PutObjectRequest) :
    Except VssError Unit × FenceWorld :=
  match Objects.put w.policy w.server request with
  | .error e => (.error e, w)
  | .ok server =>
    if fenceKey ∈ request.deleteItems.map (·.key) then
      (.ok (),
        { w with
          server
          holders := update w.holders i false
          deletions := w.deletions ++ [(i, w.owner)] })
    else
      (.ok (), { w with server })

/-- The answers to the operations of an instance. -/
def exec (i : Bytes) (f : StoreFault) :
    (o : StoreOp) → FenceWorld → Option (Option o.Ans × FenceWorld)
  | .getObject key, w =>
    some (some (f.remoteAnswer (match Objects.get w.server key with
      | some item => .ok (some item)
      | none => .error .noSuchKeyError)), w)
  | .putObject request, w =>
    match f with
    | .remoteFails e => some (some (.error e.val), w)
    | .remoteLost e => some (some (.error e.val), (w.put i request).2)
    | _ => some (some (w.put i request).1, (w.put i request).2)
  | .fetchAddWriteCounter, w =>
    some (some (w.counters i),
      { w with counters := update w.counters i (w.counters i + 1) })
  | .panic, w => some (none, w)
  | .note .fenceAcquired, w =>
    some (some (), { w with holders := update w.holders i true })
  | _, _ => none

end FenceWorld

abbrev fenceMachine : Shared storeInterface FenceThread FenceWorld StoreFault where
  exec t := FenceWorld.exec t.instanceId

/-- The calls of the threads: acquisitions and releases in the control thread, checks in
the others. -/
def FenceCall.allowed : FenceThread → FenceCall → Prop
  | .control _, c => c = .acquire ∨ c = .release
  | .checker _ _, c => c = .check

instance : (t : FenceThread) → (c : FenceCall) → Decidable (c.allowed t)
  | .control _, c => inferInstanceAs (Decidable (c = .acquire ∨ c = .release))
  | .checker _ _, c => inferInstanceAs (Decidable (c = .check))

/-! ### The invariant -/

structure FenceInv (w : FenceWorld) : Prop where
  held : ∀ i, w.holders i → w.owner = some i
  released : ∀ d ∈ w.deletions, d.2 = some d.1

/-- The fence of an instance is left alone by the others. -/
def FenceRely : FenceThread → FenceWorld → FenceWorld → Prop
  | .control i, w, w' => ∀ object, w.server.lookup fenceKey = some object → object.value = i →
      w'.server.lookup fenceKey = some object
  | .checker _ _, _, _ => True

theorem fenceRely_refl (t : FenceThread) (w : FenceWorld) :
  FenceRely t w w
  := by
  cases t with
  | control i =>
    intro object hobject _
    apply hobject
  | checker i n => trivial

theorem fenceRely_trans (t : FenceThread) (w w' w'' : FenceWorld) (h : FenceRely t w w')
    (h' : FenceRely t w' w'') :
  FenceRely t w w''
  := by
  cases t with
  | control i =>
    intro object hobject hi
    apply h' object (h object hobject hi) hi
  | checker i n => trivial

theorem fenceRely_of_server {w w' : FenceWorld} (h : w'.server = w.server) (t : FenceThread) :
  FenceRely t w w'
  := by
  cases t with
  | control i =>
    intro object hobject _
    rw [h]
    apply hobject
  | checker i n => trivial

/-- The fence names an instance. -/
def FenceWorld.Owns (w : FenceWorld) (i : Bytes) : Prop :=
  w.owner = some i

theorem FenceWorld.Owns.stable {w w' : FenceWorld} {i : Bytes} (h : w.Owns i)
    (hw : FenceRely (.control i) w w') :
  w'.Owns i
  := by
  rw [FenceWorld.Owns, FenceWorld.owner, map_eq_some_iff] at h ⊢
  obtain ⟨object, hobject, rfl⟩ := h
  exact ⟨object, hw object hobject rfl, rfl⟩

/-! ### Requests -/

section Requests

variable {w : FenceWorld} {i : Bytes}

theorem put_claim (hw : FenceInv w) :
  let r := w.put i (KeyValue.toWrite ⟨fenceKey, 0, i⟩)
  FenceInv r.2 ∧ (∀ t, FenceRely t w r.2) ∧ (r.1 = .ok () → r.2.Owns i)
  := by
  rcases hlookup : w.server.lookup fenceKey with _ | object
  · have hput : w.put i (KeyValue.toWrite ⟨fenceKey, 0, i⟩)
        = (.ok (), { w with server := w.server.insert fenceKey ⟨1, i, by omega⟩ }) := by
      rw [FenceWorld.put, Objects.put_create, hlookup]
      rfl
    have howner : ∀ j, ¬ w.holders j := by
      intro j hj
      have h := hw.held j hj
      rw [FenceWorld.owner, hlookup] at h
      cases h
    rw [hput]
    refine ⟨⟨fun j hj => absurd hj (howner j), hw.released⟩, ?_, fun _ => ?_⟩
    · intro t
      cases t with
      | control j =>
        intro object hobject
        rw [hlookup] at hobject
        cases hobject
      | checker j n => trivial
    · rw [FenceWorld.Owns, FenceWorld.owner]
      simp only [Table.lookup_insert_eq, if_true, map_some]
  · have hput : w.put i (KeyValue.toWrite ⟨fenceKey, 0, i⟩) = (.error .conflictError, w) := by
      rw [FenceWorld.put, Objects.put_create, hlookup]
    rw [hput]
    refine ⟨hw, fenceRely_of_server rfl, ?_⟩
    rintro ⟨⟩

theorem put_release (hw : FenceInv w) {object : Object}
    (hobject : w.server.lookup fenceKey = some object) (hi : object.value = i) :
  let r := w.put i (KeyValue.toDelete ⟨fenceKey, object.version, []⟩)
  FenceInv r.2 ∧ ∀ t, t ≠ .control i → FenceRely t w r.2
  := by
  have howner : w.owner = some i := by
    rw [FenceWorld.owner, hobject, map_some, hi]
  have hput : w.put i (KeyValue.toDelete ⟨fenceKey, object.version, []⟩)
      = (.ok (), { w with
        server := w.server.erase fenceKey
        holders := update w.holders i false
        deletions := w.deletions ++ [(i, w.owner)] }) := by
    rw [FenceWorld.put, Objects.put_deleteCurrent hobject]
    rfl
  rw [hput]
  refine ⟨⟨fun j hj => ?_, fun d hd => ?_⟩, fun t ht => ?_⟩
  · -- Nobody else holds a fence that names this instance.
    by_cases hji : j = i
    · subst hji
      simp at hj
    · simp only [update_of_ne hji] at hj
      have h := hw.held j hj
      rw [howner] at h
      exact absurd (some.inj h).symm hji
  · rcases List.mem_append.mp hd with hd | hd
    · apply hw.released d hd
    · rw [List.mem_singleton.mp hd]
      apply howner
  · cases t with
    | control j =>
      intro object' hobject' hj
      rw [hobject] at hobject'
      cases hobject'
      exact absurd (congrArg FenceThread.control (hj.symm.trans hi)) ht
    | checker j n => trivial

end Requests

/-! ### Calls -/

section Calls

variable {w : FenceWorld} {i : Bytes}

/-- A thread of the instances keeps to the logic, with a postcondition. -/
abbrev FenceRg {α : Type} (t : FenceThread) (p : Store α) (Q : α → FenceWorld → Prop)
    (w : FenceWorld) : Prop :=
  rg fenceMachine (fun _ _ _ _ => True) FenceInv FenceRely t p Q w

/-- A put request of an instance that keeps the invariant and what the others rely on. -/
theorem put_rg {request : PutObjectRequest} {Q : Except VssError Unit → FenceWorld → Prop}
    (hput : ∀ w', FenceRely (.control i) w w' → FenceInv w' →
      let r := w'.put i request
      FenceInv r.2 ∧ (∀ t, t ≠ .control i → FenceRely t w' r.2)
        ∧ (r.1 = .ok () → ∀ w'', FenceRely (.control i) r.2 w'' → FenceInv w'' → Q (.ok ()) w''))
    (herror : ∀ e w', FenceInv w' → Q (.error e) w') :
  FenceRg (.control i) (storeOp (.putObject request)) Q w
  := by
  intro w' hR hI f _
  obtain ⟨hI', hothers, hQ⟩ := hput w' hR hI
  have hcalm : FenceInv (w'.put i request).2 ∧
      (∀ t, t ≠ .control i → FenceRely t w' (w'.put i request).2) ∧
        FenceRg (.control i) (.ret (w'.put i request).1) Q (w'.put i request).2 := by
    refine ⟨hI', hothers, fun w'' hR' hI'' => ?_⟩
    rcases hr : (w'.put i request).1 with e | _
    · apply herror e w'' hI''
    · apply hQ hr w'' hR' hI''
  cases f with
  | remoteFails e =>
    exact ⟨hI, fun t _ => fenceRely_refl t w', fun w'' _ => herror e.val w''⟩
  | remoteLost e => exact ⟨hI', hothers, fun w'' _ => herror e.val w''⟩
  | _ => apply hcalm

theorem getFence_rg {t : FenceThread} {Q : Except VssError (Option KeyValue) → FenceWorld → Prop}
    (hsome : ∀ w' w'' object, w'.server.lookup fenceKey = some object → FenceRely t w' w'' →
      FenceInv w'' → Q (.ok (some ⟨fenceKey, object.version, object.value⟩)) w'')
    (herror : ∀ e w', FenceInv w' → Q (.error e) w') :
  FenceRg t (storeOp (.getObject fenceKey)) Q w
  := by
  intro w' _ hI f _
  refine ⟨hI, fun t' _ => fenceRely_refl t' w', fun w'' hR hI'' => ?_⟩
  rw [StoreFault.remoteAnswer]
  split
  · apply herror _ w'' hI''
  · rw [Objects.get]
    rcases hlookup : w'.server.lookup fenceKey with _ | object
    · apply herror _ w'' hI''
    · apply hsome w' w'' object hlookup hR hI''

/-- A program that returns an error has acquired nothing. -/
theorem ret_error_rg (e : IoError) :
  FenceRg (.control i) (.ret (.error e : Except IoError Unit))
    (fun r w' => r = .ok () → w'.Owns i) w
  := by
  intro w' _ _ h
  cases h

theorem ret_ok_rg (hw : w.Owns i) :
  FenceRg (.control i) (.ret (.ok () : Except IoError Unit))
    (fun r w' => r = .ok () → w'.Owns i) w
  := by
  intro w' hR _ _
  apply hw.stable hR

theorem claimFence_rg (hw : FenceInv w) :
  FenceRg (.control i) (claimFence ⟨i⟩) (fun r w' => r = .ok () → w'.Owns i) w
  := by
  rw [claimFence]
  apply rg_bind fenceRely_refl (put_rg _ _) hw
  · intro w' _ hI
    obtain ⟨hI', hR, hOwns⟩ := put_claim (i := i) hI
    refine ⟨hI', fun t _ => hR t, fun hr w'' hR' _ => ?_⟩
    apply ret_ok_rg
    apply (hOwns hr).stable hR'
  · intro e w' _
    cases e <;> apply ret_error_rg

theorem acquireFence_rg (hw : FenceInv w) :
  FenceRg (.control i) (acquireFence ⟨i⟩) (fun r w' => r = .ok () → w'.Owns i) w
  := by
  rw [acquireFence]
  apply rg_bind fenceRely_refl (getFence_rg _ _) hw
  · intro w' w'' object hlookup hR _
    simp only
    split_ifs with hi
    · apply ret_ok_rg
      have hOwns : w'.Owns i := by
        rw [FenceWorld.Owns, FenceWorld.owner, hlookup, map_some, hi]
      apply hOwns.stable hR
    · apply ret_error_rg
  · intro e w' hI
    cases e with
    | noSuchKeyError => apply claimFence_rg hI
    | _ => apply ret_error_rg

theorem releaseFenceIfOwned_rg (hw : FenceInv w) :
  FenceRg (.control i) (releaseFenceIfOwned ⟨i⟩) (fun _ _ => True) w
  := by
  have hdone : ∀ (r : Except IoError Unit) w', FenceRg (.control i) (.ret r)
      (fun _ _ => True) w' := fun _ _ _ _ _ => trivial
  rw [releaseFenceIfOwned]
  apply rg_bind fenceRely_refl (getFence_rg _ _) hw
  · intro w' w'' object hlookup hR hI
    simp only
    split_ifs with hi
    · -- The fence names this instance, so nobody else touches it until it is deleted.
      rw [deleteVersion]
      apply rg_bind fenceRely_refl (put_rg _ _) hI
      · intro w1 hR1 hI1
        have hobject := hR1 object (hR object hlookup hi) hi
        obtain ⟨hI', hothers⟩ := put_release hI1 hobject hi
        exact ⟨hI', hothers, fun _ w2 _ _ => hdone _ w2⟩
      · intro e w1 _
        cases e <;> apply hdone
    · apply hdone
  · intro e w' _
    cases e <;> apply hdone

theorem check_exec {o : StoreOp} (ho : o.checksFence) {f : StoreFault} {x : Option o.Ans}
    {w' : FenceWorld} (hw : FenceInv w) (hx : FenceWorld.exec i f o w = some (x, w')) :
  FenceInv w' ∧ ∀ t, FenceRely t w w'
  := by
  cases o with
  | fetchAddWriteCounter =>
    cases hx
    exact ⟨⟨hw.held, hw.released⟩, fenceRely_of_server rfl⟩
  | getObject key =>
    cases hx
    exact ⟨hw, fun t => fenceRely_refl t w⟩
  | panic =>
    cases hx
    exact ⟨hw, fun t => fenceRely_refl t w⟩
  | _ => cases ho

theorem checkFencePeriodic_rg {t : FenceThread} :
  FenceRg t (checkFencePeriodic ⟨t.instanceId⟩) (fun _ _ => True) w
  := by
  apply rg_frame (A := fun _ => True) (fun _ _ _ _ => trivial) _ (checkFencePeriodic_all _)
    trivial (fun _ _ _ _ => trivial)
  intro o ho f w x w' hw _ hx
  obtain ⟨hI, hR⟩ := check_exec ho hw hx
  exact ⟨hI, fun t' _ => hR t', fun _ => trivial⟩

theorem fenceBody_rg {t : FenceThread} {c : FenceCall} (hc : c.allowed t) (hw : FenceInv w) :
  FenceRg t (fenceBody t c) (fun _ _ => True) w
  := by
  cases t with
  | checker i n =>
    obtain rfl : c = .check := hc
    apply checkFencePeriodic_rg
  | control i =>
    rcases hc with rfl | rfl
    · apply rg_bind fenceRely_refl _ hw
      apply rg_mono _ (acquireFence_rg hw)
      rintro (e | _) w' hOwns
      · intro _ _ _
        trivial
      -- The acquisition returned, and the fence still names the instance.
      intro w'' hR hI f _
      have howner : w''.owner = some i := (hOwns rfl).stable hR
      have hheld : FenceInv { w'' with holders := update w''.holders i true } := by
        refine ⟨fun j hj => ?_, hI.released⟩
        by_cases hji : j = i
        · rw [hji]
          apply howner
        · apply hI.held j
          simpa only [update_of_ne hji] using hj
      refine ⟨hheld, fun t' _ => ?_, fun _ _ _ => trivial⟩
      apply fenceRely_of_server
      rfl
    · apply rg_bind fenceRely_refl _ hw
      apply rg_mono _ (releaseFenceIfOwned_rg hw)
      intro r w' _ _ _ _
      trivial

end Calls

/-! ### Runs -/

/-- Two instances on a server without objects. -/
def twoInstances : FenceWorld := { policy := ⟨false, .conflictError⟩ }

/-- The first instance acquires the fence while the second one tries, releases it, and the
second one acquires it. -/
def handover : List (Move FenceThread FenceCall StoreFault) :=
  let a := FenceThread.control [1]
  let b := FenceThread.control [2]
  [.spawn a .acquire, .spawn b .acquire, .step a .calm, .step b .calm, .step a .calm,
    .step b .calm, .step a .calm, .step a .calm, .step b .calm,
    .spawn a .release, .step a .calm, .step a .calm, .step a .calm,
    .spawn b .acquire, .step b .calm, .step b .calm, .step b .calm]

-- With `deleteFence` among the calls the result fails: versions start anew when an object is
-- created again, so a release that read the fence before it was cleared and acquired by
-- another instance deletes the new one.
example :
  let a := FenceThread.control [1]
  let b := FenceThread.control [2]
  (Pool.run fenceMachine fenceBody (Pool.idle twoInstances)
    [.spawn a .acquire, .step a .calm, .step a .calm, .step a .calm, .step a .calm,
      .spawn a .release, .step a .calm,
      .spawn b .clear, .step b .calm, .step b .calm, .step b .calm,
      .spawn b .acquire, .step b .calm, .step b .calm, .step b .calm,
      .step a .calm]).world.deletions = [([2], some [1]), ([1], some [2])]
  := by
  decide +kernel

end RgbLightning
