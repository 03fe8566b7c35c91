import RgbLightning.Signer.ChannelSigner

/-!
# The order of validations and releases

When the counterparty has signed a new commitment, the node lets the signer validate it and
then releases the secret of the commitment it replaces, which revokes that one.  The backend
should have acknowledged the new commitment before it is asked for the secret of the old one.

A validation that is put off is acknowledged by nobody, and it is lost when the node is
started again.  `release_ordered` says along which runs the order holds.
-/

namespace RgbLightning

open Prog

/-! ### The order -/

def Acknowledged (holderTx : HolderCommitment) (log : List SignerEntry) : Prop :=
  ∃ scripts, .request (.validateHolderCommitment (holderTx.request scripts))
    (.ok .validationComplete) ∈ log

theorem Acknowledged.cons {holderTx : HolderCommitment} {log : List SignerEntry}
    (h : Acknowledged holderTx log) (entry : SignerEntry) :
  Acknowledged holderTx (entry :: log)
  := by
  obtain ⟨scripts, hmem⟩ := h
  exact ⟨scripts, List.mem_cons_of_mem _ hmem⟩

/-- Before a request for the secret of a commitment, the backend has acknowledged those that
replace it and were validated. -/
def Ordered : List SignerEntry → Prop
  | [] => True
  | .request (.releaseCommitmentSecret idx) _ :: log =>
    (∀ holderTx, .validated holderTx ∈ log → holderTx.commitmentNumber + 1 = idx →
      Acknowledged holderTx log) ∧ Ordered log
  | _ :: log => Ordered log

def SignerEntry.releasesNothing : SignerEntry → Bool
  | .request (.releaseCommitmentSecret _) _ => false
  | _ => true

theorem ordered_cons {entry : SignerEntry} {log : List SignerEntry}
    (hentry : entry.releasesNothing) (h : Ordered log) :
  Ordered (entry :: log)
  := by
  cases entry with
  | validated holderTx => apply h
  | request op reply =>
    cases op with
    | releaseCommitmentSecret idx => cases hentry
    | _ => apply h

/-! ### Calls -/

/-- The calls of the signer, and the installation of witness scripts by the node. -/
inductive SignerCall where
  | getPerCommitmentPoint (idx : ℕ)
  | releaseCommitmentSecret (idx : ℕ)
  | validateHolderCommitment (holderTx : HolderCommitment)
  | signCounterpartyCommitment (p : ChannelParameters) (tx : CounterpartyCommitment)
      (inboundHtlcPreimages outboundHtlcPreimages : List PaymentPreimage)
  | signHolderCommitment (p : ChannelParameters) (holderTx : HolderCommitment)
  | signOnly (r : SignOnly)
  | installWitnessScripts (scripts : List Str)

/-- What happens to the signer: a call, along replies and crashes of the environment's choice, or
a restart of the node. -/
inductive SignerEvent where
  | call (c : SignerCall) (fates : List (Fate SignerReply))
  | restart

section Calls

variable (codec : SignerCodec)

def SignerCall.handle : SignerCall → Signer Unit
  | .getPerCommitmentPoint idx => do
    let _ ← codec.channelPoint idx
    pure ()
  | .releaseCommitmentSecret idx => do
    let _ ← codec.channelSecret idx
    pure ()
  | .validateHolderCommitment holderTx => do
    let _ ← RgbLightning.validateHolderCommitment holderTx
    pure ()
  | .signCounterpartyCommitment p tx inbound outbound => do
    let _ ← codec.signCounterpartyCommitment p tx inbound outbound
    pure ()
  | .signHolderCommitment p holderTx => do
    let _ ← codec.signHolderCommitment p holderTx
    pure ()
  | .signOnly r => do
    let _ ← codec.signOnly r
    pure ()
  | .installWitnessScripts scripts => signerOp (.installWitnessScripts scripts)

def signerStep (w : SignerWorld) : SignerEvent → SignerWorld
  | .call c fates => (c.handle codec).world signerMachine w fates
  | .restart => w.new

/-- The condition on the beginning of a call. -/
def SignerCall.StartsIn : SignerCall → SignerWorld → Prop
  | .releaseCommitmentSecret idx, w =>
    ∀ pending ∈ w.deferred, pending.commitmentNumber + 1 ≠ idx
  | .validateHolderCommitment _, w => w.setupComplete = false → w.deferred = none
  | _, _ => True

/-- The node is stopped only while no validation is put off. -/
def stopsClean : Prog.Guard signerInterface SignerWorld SignerReply
  | _, .crash, w => w.deferred = none
  | _, .go _, _ => True

/-- The condition on an event. -/
def SignerMeets (w : SignerWorld) : SignerEvent → Prop
  | .call c fates => c.StartsIn w ∧ (c.handle codec).Admits signerMachine stopsClean w fates
  | .restart => w.deferred = none

end Calls

/-! ### The invariant -/

/-- The order holds, and a commitment that was validated is acknowledged or put off. -/
structure SignerSound (w : SignerWorld) : Prop where
  ordered : Ordered w.log
  validated : ∀ holderTx, .validated holderTx ∈ w.log →
    Acknowledged holderTx w.log ∨ ∃ scripts, w.deferred = some (holderTx.defer scripts)

namespace SignerSound

variable {w : SignerWorld}

variable (h : SignerSound w)
include h

theorem new (hnone : w.deferred = none) :
  SignerSound w.new
  := by
  refine ⟨h.ordered, fun holderTx hmem => ?_⟩
  rcases h.validated holderTx hmem with hack | ⟨scripts, hdeferred⟩
  · exact .inl hack
  · rw [hnone] at hdeferred
    cases hdeferred

theorem request {op : ExternalChannelOp} {reply : SignerReply}
    (hop : (SignerEntry.request op reply).releasesNothing) :
  SignerSound { w with log := .request op reply :: w.log }
  := by
  refine ⟨ordered_cons hop h.ordered, fun holderTx hmem => ?_⟩
  rcases List.mem_cons.mp hmem with heq | hmem
  · cases heq
  · apply (h.validated holderTx hmem).imp_left
    intro hack
    apply hack.cons

/-- A request for the secret of a commitment that is not replaced by one put off. -/
theorem release {idx : ℕ} (reply : SignerReply)
    (hidx : ∀ pending ∈ w.deferred, pending.commitmentNumber + 1 ≠ idx) :
  SignerSound { w with log := .request (.releaseCommitmentSecret idx) reply :: w.log }
  := by
  refine ⟨⟨fun holderTx hmem heq => ?_, h.ordered⟩, fun holderTx hmem => ?_⟩
  · rcases h.validated holderTx hmem with hack | ⟨scripts, hdeferred⟩
    · apply hack
    · exact absurd heq (hidx _ hdeferred)
  · rcases List.mem_cons.mp hmem with heq | hmem
    · cases heq
    · apply (h.validated holderTx hmem).imp_left
      intro hack
      apply hack.cons

/-- A commitment that is acknowledged or put off is validated. -/
theorem mark {holderTx : HolderCommitment}
    (htx : Acknowledged holderTx w.log ∨ ∃ scripts, w.deferred = some (holderTx.defer scripts)) :
  SignerSound { w with log := .validated holderTx :: w.log }
  := by
  refine ⟨ordered_cons rfl h.ordered, fun holderTx' hmem => ?_⟩
  have hall : Acknowledged holderTx' w.log ∨
      ∃ scripts, w.deferred = some (holderTx'.defer scripts) := by
    rcases List.mem_cons.mp hmem with heq | hmem
    · cases heq
      apply htx
    · apply h.validated holderTx' hmem
  apply hall.imp_left
  intro hack
  apply hack.cons

theorem put_off (hnone : w.deferred = none) (d : DeferredInitialHolderValidation) :
  SignerSound { w with deferred := some d }
  := by
  refine ⟨h.ordered, fun holderTx hmem => ?_⟩
  rcases h.validated holderTx hmem with hack | ⟨scripts, hdeferred⟩
  · exact .inl hack
  · rw [hnone] at hdeferred
    cases hdeferred

/-- The validation that was put off is acknowledged. -/
theorem replayed {pending : DeferredInitialHolderValidation} (hpending : w.deferred = some pending)
    (hmem : .request (.validateHolderCommitment pending.request) (.ok .validationComplete)
      ∈ w.log) :
  SignerSound { w with deferred := none }
  := by
  refine ⟨h.ordered, fun holderTx hvalidated => ?_⟩
  left
  rcases h.validated holderTx hvalidated with hack | ⟨scripts, hdeferred⟩
  · apply hack
  · rw [hpending] at hdeferred
    cases hdeferred
    exact ⟨scripts, hmem⟩

end SignerSound

/-! ### Programs -/

section Programs

variable {w : SignerWorld} {α : Type}

/-- The programs of the signer, with a condition on their results. -/
abbrev Signer.Keeps (p : Signer α) (Q : α → SignerWorld → Prop) (w : SignerWorld) : Prop :=
  p.wp signerMachine stopsClean SignerSound Q w

theorem keeps_bind {β : Type} {p : Signer α} {k : α → Signer β} {Q : β → SignerWorld → Prop}
    {P : α → SignerWorld → Prop} (hp : Signer.Keeps p P w)
    (hk : ∀ a w', P a w' → Signer.Keeps (k a) Q w') :
  Signer.Keeps (p >>= k) Q w
  := by
  rw [Signer.Keeps, wp_bind]
  apply wp_mono (fun _ h => h) hk p w hp

section SignerSound

variable (h : SignerSound w)
include h

theorem keeps_op_bind {o : SignerOp} {k : o.Ans → Signer α} {Q : α → SignerWorld → Prop}
    (hk : ∀ reply, Signer.Keeps (k (SignerWorld.exec reply o w).1) Q
      (SignerWorld.exec reply o w).2) :
  Signer.Keeps (signerOp o >>= k) Q w
  := by
  constructor
  · intro hnone
    apply h.new hnone
  · intro reply _
    apply hk reply

/-- A request that releases nothing, and then a program. -/
theorem keeps_call_bind {op : ExternalChannelOp}
    (hop : ∀ reply, (SignerEntry.request op reply).releasesNothing) {k : SignerReply → Signer α}
    {Q : α → SignerWorld → Prop}
    (hk : ∀ reply, SignerSound { w with log := .request op reply :: w.log } →
      Signer.Keeps (k reply) Q { w with log := .request op reply :: w.log }) :
  Signer.Keeps (signerOp (.call op) >>= k) Q w
  := by
  apply keeps_op_bind h
  intro reply
  apply hk reply (h.request (hop reply))

omit h in
theorem keeps_ignored {p : Signer α} (hp : Signer.Keeps p (fun _ => SignerSound) w) :
  Signer.Keeps (p >>= fun _ => pure ()) (fun _ => SignerSound) w
  := keeps_bind hp fun _ _ h => h

/-! ### Points and signatures -/

theorem keeps_getPerCommitmentPoint (idx : ℕ) :
  Signer.Keeps (getPerCommitmentPoint idx) (fun _ => SignerSound) w
  := by
  rw [getPerCommitmentPoint]
  apply keeps_call_bind h fun _ => rfl
  intro reply h1
  split
  · apply h1
  · apply h1
  apply keeps_op_bind h1
  intro _
  split_ifs
  · apply keeps_call_bind h1 fun _ => rfl
    intro reply' h2
    split <;> apply h2
  · apply h1

theorem keeps_validateWithBackend (holderTx : HolderCommitment) :
  Signer.Keeps (validateHolderCommitmentWithBackend holderTx) (fun r w' => SignerSound w'
    ∧ (r = some () → Acknowledged holderTx w'.log)) w
  := by
  rw [validateHolderCommitmentWithBackend]
  apply keeps_op_bind h
  intro _
  have h1 : SignerSound { w with witnessScripts := none } := ⟨h.ordered, h.validated⟩
  apply keeps_call_bind h1 fun _ => rfl
  intro reply h2
  split
  · refine ⟨h2, fun _ => ⟨w.witnessScripts, ?_⟩⟩
    apply List.mem_cons_self
  · refine ⟨h2, ?_⟩
    rintro ⟨⟩

theorem keeps_setupChannel (p : ChannelParameters) :
  Signer.Keeps (setupChannel p) (fun _ => SignerSound) w
  := by
  rw [setupChannel]
  split
  · apply h
  · apply h
  apply keeps_op_bind h
  intro _
  apply keeps_call_bind h fun _ => rfl
  intro reply h1
  split
  · apply h1
  · apply keeps_op_bind h1
    intro _
    exact ⟨h1.ordered, h1.validated⟩
  · apply h1

/-- What was put off is acknowledged before it is forgotten. -/
theorem keeps_replay :
  Signer.Keeps replayDeferredInitialHolderValidation (fun _ => SignerSound) w
  := by
  rw [replayDeferredInitialHolderValidation]
  apply keeps_op_bind h
  intro _
  cases hpending : w.deferred with
  | none =>
    simp only [SignerWorld.exec, hpending]
    apply h
  | some pending =>
    simp only [SignerWorld.exec, hpending]
    apply keeps_call_bind h fun _ => rfl
    intro reply h1
    split
    · apply keeps_op_bind h1
      intro _
      apply h1.replayed hpending List.mem_cons_self
    · apply h1

omit h in
theorem keeps_signCounterpartyCommitment (codec : SignerCodec) (h : SignerSound w)
    (p : ChannelParameters) (tx : CounterpartyCommitment)
    (inbound outbound : List PaymentPreimage) :
  Signer.Keeps (codec.signCounterpartyCommitment p tx inbound outbound) (fun _ => SignerSound) w
  := by
  rw [SignerCodec.signCounterpartyCommitment]
  apply keeps_bind (keeps_setupChannel h p)
  intro setup w1 h1
  split
  · apply h1
  apply keeps_bind (keeps_replay h1)
  intro replay w2 h2
  split
  · apply h2
  split
  · apply h2
  apply keeps_call_bind h2 fun _ => rfl
  intro reply h3
  split
  · split <;> apply h3
  · apply h3

omit h in
theorem keeps_signHolderCommitment (codec : SignerCodec) (h : SignerSound w)
    (p : ChannelParameters) (holderTx : HolderCommitment) :
  Signer.Keeps (codec.signHolderCommitment p holderTx) (fun _ => SignerSound) w
  := by
  rw [SignerCodec.signHolderCommitment]
  apply keeps_bind (keeps_setupChannel h p)
  intro setup w1 h1
  split
  · apply h1
  apply keeps_bind (P := fun _ => SignerSound)
  · rw [SignerCodec.installScripts]
    split
    · constructor
      · intro hnone
        apply h1.new hnone
      · intro _ _
        exact ⟨h1.ordered, h1.validated⟩
    · apply h1
  intro _ w2 h2
  apply keeps_bind (keeps_validateWithBackend h2 holderTx)
  rintro r w3 ⟨h3, -⟩
  split
  · apply h3
  apply keeps_call_bind h3 fun _ => rfl
  intro reply h4
  split <;> apply h4

/-! ### Validation and release -/

theorem keeps_validateHolderCommitment {holderTx : HolderCommitment}
    (hnone : w.setupComplete = false → w.deferred = none) :
  Signer.Keeps (validateHolderCommitment holderTx) (fun _ => SignerSound) w
  := by
  rw [validateHolderCommitment]
  apply keeps_op_bind h
  intro _
  cases hsetup : w.setupComplete with
  | true =>
    simp only [SignerWorld.exec, hsetup, if_true]
    apply keeps_bind (keeps_validateWithBackend h holderTx)
    rintro r w1 ⟨h1, hack⟩
    split
    · apply keeps_op_bind h1
      intro _
      apply h1.mark (.inl (hack rfl))
    · apply h1
  | false =>
    simp only [SignerWorld.exec, hsetup]
    apply keeps_op_bind h
    intro _
    have h1 : SignerSound { w with witnessScripts := none } := ⟨h.ordered, h.validated⟩
    apply keeps_op_bind h1
    intro _
    have h2 := h1.put_off (hnone hsetup) (holderTx.defer w.witnessScripts)
    apply keeps_op_bind h2
    intro _
    apply h2.mark (.inr ⟨w.witnessScripts, rfl⟩)

theorem keeps_releaseCommitmentSecret {idx : ℕ}
    (hidx : ∀ pending ∈ w.deferred, pending.commitmentNumber + 1 ≠ idx) :
  Signer.Keeps (releaseCommitmentSecret idx) (fun _ => SignerSound) w
  := by
  rw [releaseCommitmentSecret]
  apply keeps_op_bind h
  intro reply
  have h1 := h.release reply hidx
  split <;> apply h1

end SignerSound

theorem keeps_handle (codec : SignerCodec) (h : SignerSound w) {c : SignerCall}
    (hc : c.StartsIn w) :
  Signer.Keeps (c.handle codec) (fun _ => SignerSound) w
  := by
  cases c with
  | getPerCommitmentPoint idx =>
    apply keeps_ignored
    apply keeps_bind (keeps_getPerCommitmentPoint h idx)
    intro r w1 h1
    split <;> apply h1
  | releaseCommitmentSecret idx =>
    apply keeps_ignored
    apply keeps_bind (keeps_releaseCommitmentSecret h hc)
    intro r w1 h1
    split <;> apply h1
  | validateHolderCommitment holderTx =>
    apply keeps_ignored (keeps_validateHolderCommitment h hc)
  | signCounterpartyCommitment p tx inbound outbound =>
    apply keeps_ignored (keeps_signCounterpartyCommitment codec h p tx inbound outbound)
  | signHolderCommitment p holderTx =>
    apply keeps_ignored (keeps_signHolderCommitment codec h p holderTx)
  | signOnly r =>
    apply keeps_ignored
    apply keeps_call_bind h fun _ => rfl
    intro reply h1
    split <;> apply h1
  | installWitnessScripts scripts =>
    constructor
    · intro hnone
      apply h.new hnone
    · intro _ _
      exact ⟨h.ordered, h.validated⟩

end Programs

/-! ### Runs -/

theorem signerStep_sound (codec : SignerCodec) (w : SignerWorld) (e : SignerEvent)
    (h : SignerSound w) (he : SignerMeets codec w e) :
  SignerSound (signerStep codec w e)
  := by
  cases e with
  | restart => apply h.new he
  | call c fates =>
    obtain ⟨hstarts, hadmits⟩ := he
    obtain ⟨hret, hstop⟩ := exec_of_wp _ _ _ (keeps_handle codec h hstarts) hadmits
    rcases hr : (c.handle codec).result signerMachine w fates with _ | r
    · apply hstop hr
    · apply hret r hr

/-- Along every run of calls and restarts that meets the condition, whatever the backend replies,
a request for the secret of a commitment comes after the acknowledgement of every commitment
that replaces it and was validated before. -/
theorem release_ordered (codec : SignerCodec) (es : List SignerEvent)
    (hes : Run.Meets (signerStep codec) (SignerMeets codec) {} es) :
  Ordered (Run.run (signerStep codec) {} es).log
  := by
  have hsound : SignerSound (Run.run (signerStep codec) {} es) := by
    apply Run.run_invariant (signerStep_sound codec) _ hes
    refine ⟨trivial, fun holderTx hmem => ?_⟩
    cases hmem
  apply hsound.ordered

/-! ### A node that was started again -/

/-- The second commitment of a channel. -/
def sampleHolderTx : HolderCommitment where
  commitmentNumber := initialCommitmentNumber - 1
  toBroadcasterValueSat := 1000
  toCountersignatoryValueSat := 0
  feeratePerKw := 253
  nondustHtlcs := []
  counterpartySig := []
  counterpartyHtlcSigs := []
  builtTransaction := []
  isTxColored := false
  outputWitnessScripts := none

def sampleRelease : SignerEvent :=
  .call (.releaseCommitmentSecret initialCommitmentNumber) [.go (.ok (.commitmentSecret []))]

/-- After a restart a commitment is validated, and the secret of the one it replaces is asked for:
the backend has acknowledged nothing. -/
theorem release_ordered_restarted :
  ¬ Ordered (Run.run (signerStep sampleCodec) {}
    [.restart, .call (.validateHolderCommitment sampleHolderTx) [], sampleRelease]).log
  := by
  intro hordered
  obtain ⟨scripts, hmem⟩ := hordered.1 sampleHolderTx List.mem_cons_self rfl
  cases List.mem_singleton.mp hmem

instance : (c : SignerCall) → (w : SignerWorld) → Decidable (c.StartsIn w)
  | .releaseCommitmentSecret idx, w => inferInstanceAs (Decidable
      (∀ pending ∈ w.deferred, pending.commitmentNumber + 1 ≠ idx))
  | .validateHolderCommitment _, w =>
    inferInstanceAs (Decidable (w.setupComplete = false → w.deferred = none))
  | .getPerCommitmentPoint _, _ | .signCounterpartyCommitment _ _ _ _, _
  | .signHolderCommitment _ _, _ | .signOnly _, _
  | .installWitnessScripts _, _ => .isTrue trivial

instance : (o : SignerOp) → (fate : Fate SignerReply) → (w : SignerWorld) →
    Decidable (stopsClean o fate w)
  | _, .crash, w => inferInstanceAs (Decidable (w.deferred = none))
  | _, .go _, _ => .isTrue trivial

instance (codec : SignerCodec) (w : SignerWorld) : (e : SignerEvent) →
    Decidable (SignerMeets codec w e)
  | .call c fates => inferInstanceAs (Decidable (c.StartsIn w ∧
      (c.handle codec).Admits signerMachine stopsClean w fates))
  | .restart => inferInstanceAs (Decidable (w.deferred = none))

/-- The channel is set up, and the commitments are validated, before a secret is released. -/
def sampleSetUp : List SignerEvent :=
  [.call (.validateHolderCommitment
      { sampleHolderTx with commitmentNumber := initialCommitmentNumber }) [],
    .call (.signCounterpartyCommitment
        ⟨true, 1000, some ([], 0), 144, some (⟨[], [], [], [], []⟩, 144), false, false⟩
        ⟨initialCommitmentNumber, [], 0, 1000, 253, [], [], false, none⟩ [] [])
      [.go (.ok .other), .go (.ok .setupComplete), .go (.ok .other), .go (.ok .other),
        .go (.ok .validationComplete), .go (.ok .other), .go (.ok (.signatureWithHtlcs [] []))],
    .call (.validateHolderCommitment sampleHolderTx)
      [.go (.ok .other), .go (.ok .other), .go (.ok .validationComplete)],
    sampleRelease]

theorem release_ordered_setUp :
  .request (.releaseCommitmentSecret initialCommitmentNumber) (.ok (.commitmentSecret []))
      ∈ (Run.run (signerStep sampleCodec) {} sampleSetUp).log ∧
    Ordered (Run.run (signerStep sampleCodec) {} sampleSetUp).log
  := ⟨by decide +kernel, release_ordered sampleCodec sampleSetUp (by decide +kernel)⟩

end RgbLightning
