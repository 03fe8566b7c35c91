import RgbLightning.Node.Threads
import RgbLightning.Swap.Completion
import RgbLightning.Swap.Reexecution

/-!
# Swaps that are over

A swap that succeeded, failed or expired is over, and its status should not change again.
Most calls set the status of a swap without looking at the one it has, and those that look
decide on a copy of the record.  `status_final` says along which runs it does not change.
-/

namespace RgbLightning

open Prog Interleave Discipline Threads Plain SwapString SwapCall Option Set

deriving instance DecidableEq for NodeCall, SwapCall

/-- Whether a swap is not over, except with the given status. -/
def settable (status : SwapStatus) (e : Option SwapData) : Bool :=
  e.all fun swap => !swap.status.isFinal || swap.status = status

def KeepsFinal (e e' : Option SwapData) : Prop :=
  ∀ swap, e = some swap → swap.status.isFinal →
    ∃ swap', e' = some swap' ∧ swap'.status = swap.status

theorem keepsFinal_refl (e : Option SwapData) :
  KeepsFinal e e
  := fun swap he _ => ⟨swap, he, rfl⟩

theorem KeepsFinal.trans {e e' e'' : Option SwapData} (h : KeepsFinal e e')
    (h' : KeepsFinal e' e'') :
  KeepsFinal e e''
  := by
  intro swap he hfinal
  obtain ⟨swap', he', hstatus⟩ := h swap he hfinal
  rw [← hstatus] at hfinal
  obtain ⟨swap'', he'', hstatus'⟩ := h' swap' he' hfinal
  exact ⟨swap'', he'', hstatus'.trans hstatus⟩

variable {status : SwapStatus}
variable {e : Option SwapData}

theorem keepsFinal_of_settable {swap' : SwapData} (h : settable status e)
    (hstatus : swap'.status = status) :
  KeepsFinal e (some swap')
  := by
  rintro swap rfl hfinal
  refine ⟨swap', rfl, ?_⟩
  rw [settable, all_some, hfinal] at h
  rw [hstatus]
  exact (of_decide_eq_true h).symm

theorem settable_of_not_final {swap : SwapData} (h : swap.status.isFinal = false) :
  settable status (some swap)
  := by
  rw [settable, all_some, h]
  rfl

/-! ### Calls -/

inductive SwapThread where
  | swap (c : SwapCall)
  | makerInit (r : MakerInitRequest)
  | makerExecute (r : MakerExecuteRequest)
  | paymentFailed (e : PaymentFailed)
deriving DecidableEq

instance : Nonempty SwapThread := ⟨.swap .listSwaps⟩

section Calls

variable (env : MakerEnv) (deserialize : Bytes → Option RgbPaymentInfo)

def SwapThread.handle : SwapThread → Ln Unit
  | .swap c => do
    let _ ← (c.handle env.contractIdFromStr deserialize).inl
    pure ()
  | .makerInit r => do
    let _ ← env.makerInit r
    pure ()
  | .makerExecute r => do
    let _ ← env.makerExecute r
    pure ()
  | .paymentFailed e => do
    let _ ← (RgbLightning.paymentFailed e).inl
    pure ()

/-- The program of a thread: a numbered call. -/
def swapThread (t : ℕ × SwapThread) (_ : Unit) : Ln Unit := do
  lnOp .begin
  t.2.handle env deserialize

/-- The condition on the beginning of a call that sets the status of a swap without looking
at it: the swap is not over, except with that status. -/
def SwapThread.StartsIn : SwapThread → World → Bool
  | .swap (.node (.taker payload)), w =>
    match fromStr env.contractIdFromStr payload with
    | .ok s => settable .waiting ((w.cells .takerSwaps).memory.lookup s.paymentHash)
    | .error _ => true
  | .swap (.node (.event (.paymentForwarded e))), w =>
    settable .succeeded ((w.cells .takerSwaps).memory.lookup e.paymentHash)
  | .swap (.node (.event (.paymentClaimed e))), w =>
    settable .succeeded ((w.cells .makerSwaps).memory.lookup e.paymentHash)
  | .swap (.node (.event (.paymentSent e))), w =>
    settable .succeeded ((w.cells .makerSwaps).memory.lookup e.paymentHash)
  | .makerExecute r, w =>
    match fromStr env.contractIdFromStr r.swapstring with
    | .ok s => settable .pending ((w.cells .makerSwaps).memory.lookup s.paymentHash)
    | .error _ => true
  | .paymentFailed e, w =>
    e.paymentHash.all fun h => settable .failed ((w.cells .makerSwaps).memory.lookup h)
  | _, _ => true

def swapsWatched : Cell → Bool
  | .takerSwaps => true
  | .makerSwaps => true
  | _ => false

def asksOfSwaps (t : ℕ × SwapThread) (o : lnInterface.Op) (s : Threads (ℕ × SwapThread)) : Prop :=
  match o with
  | .inr .begin => t.2.StartsIn env s.world
  | .inr .createInboundPayment =>
    (s.world.cells .makerSwaps).memory.lookup (s.ln.inboundPayment s.ln.created).1 = none
  | _ => True

/-- The discipline under which swaps that are over stay so. -/
def finality : Discipline (ℕ × SwapThread) where
  watched := swapsWatched
  keeps
    | .takerSwaps => KeepsFinal
    | .makerSwaps => KeepsFinal
    | _ => fun _ _ => True
  refl c e := by
    cases c with
    | takerSwaps | makerSwaps => apply keepsFinal_refl
    | _ => trivial
  trans c e e' e'' h h' := by
    cases c with
    | takerSwaps | makerSwaps => apply KeepsFinal.trans h h'
    | _ => trivial
  asks := asksOfSwaps env

end Calls

/-! ### Changes of swaps -/

/-- The status of an entry, if there is one. -/
def HasStatus (status : SwapStatus) (e : Option SwapData) : Prop :=
  ∀ swap, e = some swap → swap.status = status

theorem HasStatus.settable {status status' : SwapStatus} (hstatus : status.isFinal = false)
    (he : HasStatus status e) :
  settable status' e
  := by
  cases e with
  | none => rfl
  | some swap =>
    apply settable_of_not_final
    rw [he swap rfl, hstatus]

theorem hasStatus_some {swap : SwapData} (h : swap.status = status) :
  HasStatus status (some swap)
  := by
  rintro _ ⟨⟩
  apply h

theorem settable_of_pending (h : settable .pending e) :
  settable status e
  := by
  cases e with
  | none => rfl
  | some swap =>
    apply settable_of_not_final
    rw [settable, all_some, Bool.or_eq_true, Bool.not_eq_true'] at h
    rcases h with h | h
    · apply h
    · rw [of_decide_eq_true h]
      rfl

/-- A program that keeps to the discipline. -/
abbrev Final (env : MakerEnv) (t : ℕ × SwapThread) {α : Type} (p : Ln α)
    (s : Threads (ℕ × SwapThread)) : Prop :=
  (finality env).Ensures t p (fun _ _ => True) s

section Changes

variable {env : MakerEnv} {t : ℕ × SwapThread} {s : Threads (ℕ × SwapThread)} {h : PaymentHash}
variable {status : SwapStatus} {Q : Unit → Threads (ℕ × SwapThread) → Prop}

theorem ensures_setTakerSwap {swap : ℕ → SwapData} (hstatus : ∀ now, (swap now).status = status)
    (hheld : s.holder .takerSwaps = some t)
    (hs : s.Knows t .takerSwaps h fun e => settable status e)
    (hQ : ∀ s', Kept t {(.takerSwaps, h)} s s' →
      s'.Knows t .takerSwaps h (HasStatus status) → Q () s') :
  (finality env).Ensures t (getCurrentTimestamp >>= fun now =>
    setCell .takerSwaps ((s.memory .takerSwaps).insert h (swap now)) >>= fun _ =>
      saveCell .takerSwaps).inl Q s
  := by
  apply ensures_timedInsert (c := .takerSwaps) hheld
  · intro now _ hno
    apply keepsFinal_of_settable (hs.of_not_touched hno) (hstatus now)
  · intro now s' hs' hnow
    apply hQ s' hs'
    apply hnow.mono
    rintro _ rfl
    apply hasStatus_some (hstatus now)

theorem ensures_updateTakerSwapStatus
    (hs : s.Knows t .takerSwaps h fun e => settable status e)
    (hQ : ∀ s', Kept t {(.takerSwaps, h)} s s' →
      s'.Knows t .takerSwaps h (HasStatus status) → Q () s') :
  (finality env).Ensures t (updateTakerSwapStatus h status).inl Q s
  := by
  rw [updateTakerSwapStatus, inl_bind]
  apply ensures_lock_bind
  intro s1 hs1 hheld
  have hs' := hs1.remembers hs
  split
  · apply ensures_nodePanic
  · apply ensures_nodePanic
  · refine ensures_setTakerSwap (fun _ => rfl) hheld hs' fun s2 hs2 => ?_
    apply hQ s2 (hs2.after hs1)
  · refine ensures_setTakerSwap (fun _ => rfl) hheld hs' fun s2 hs2 => ?_
    apply hQ s2 (hs2.after hs1)

theorem ensures_setMakerSwapStatus
    (hs : s.Knows t .makerSwaps h fun e => settable status e)
    (hQ : ∀ s', Kept t {(.makerSwaps, h)} s s' →
      s'.Knows t .makerSwaps h (HasStatus status) → Q () s') :
  (finality env).Ensures t (updateMakerSwapStatus h status).inl Q s
  := by
  apply ensures_updateMakerSwapStatus _ hQ
  intro _
  apply hs.mono
  intro e he swap hstatus
  apply keepsFinal_of_settable he hstatus

theorem ensures_updateTakerSwapPendingIntercept (id : InterceptId)
    (hs : s.Knows t .takerSwaps h fun e => settable .pending e)
    (hQ : ∀ s', s'.Knows t .takerSwaps h (HasStatus .pending) → Q () s') :
  (finality env).Ensures t (updateTakerSwapPendingIntercept h id).inl Q s
  := by
  rw [updateTakerSwapPendingIntercept, inl_bind]
  apply ensures_lock_bind
  intro s1 hs1 hheld
  split
  · apply ensures_nodePanic
  · refine ensures_setTakerSwap (fun _ => rfl) hheld (hs1.remembers hs)
      fun s2 _ => ?_
    apply hQ s2

theorem ensures_addTakerSwap {swap : SwapData} (hstatus : swap.status = .waiting)
    (hs : s.Knows t .takerSwaps h fun e => settable .waiting e) (hQ : ∀ s', Q () s') :
  (finality env).Ensures t (addTakerSwap h swap).inl Q s
  := by
  rw [addTakerSwap, inl_bind]
  apply ensures_lock_bind
  intro s1 hs1 hheld
  apply ensures_insertAndSave (c := .takerSwaps) hheld
  · intro _ hno
    apply keepsFinal_of_settable ((hs1.remembers hs).of_not_touched hno) hstatus
  · intro s2 _ _
    apply hQ

theorem ensures_addMakerSwap {swap : SwapData} (hstatus : swap.status = .waiting)
    (hs : s.Knows t .makerSwaps h fun e => settable .waiting e) (hQ : ∀ s', Q () s') :
  (finality env).Ensures t (addMakerSwap h swap).inl Q s
  := by
  rw [addMakerSwap, inl_bind]
  apply ensures_lock_bind
  intro s1 hs1 hheld
  apply ensures_insertAndSave (c := .makerSwaps) hheld
  · intro _ hno
    apply keepsFinal_of_settable ((hs1.remembers hs).of_not_touched hno) hstatus
  · intro s2 _ _
    apply hQ

/-! ### Payments -/

theorem ensures_updateOutboundPayment (paymentId : PaymentId) (status : HTLCStatus)
    (preimage : Option PaymentPreimage) :
  Final env t (updateOutboundPayment paymentId status preimage).inl s
  := by
  rw [updateOutboundPayment, inl_bind]
  apply ensures_lock_bind
  intro s1 _ hheld
  split
  · apply ensures_nodePanic
  rw [inl_bind]
  apply ensures_held_bind Plain.getCurrentTimestamp hheld
  intro now s2 _ hheld2 hmemory2
  rw [← Prog.bind_assoc, inl_bind, ← hmemory2]
  apply ensures_then
  apply ensures_insertAndSave (c := .outboundPayments) hheld2
  · intro _ _
    trivial
  · intro _ _ _
    trivial

theorem ensures_updateOutboundPaymentStatus (paymentId : PaymentId) (status : HTLCStatus)
    (hQ : ∀ s', Q () s') :
  (finality env).Ensures t (updateOutboundPaymentStatus paymentId status).inl Q s
  := by
  rw [updateOutboundPaymentStatus, inl_bind]
  apply ensures_lock_bind
  intro s1 _ hheld
  split
  · apply ensures_nodePanic
  · apply ensures_timedInsert (c := .outboundPayments) hheld
    · intro _ _ _
      trivial
    · intro _ s' _ _
      apply hQ

end Changes

/-! ### Calls of takers -/

section Takers

variable {env : MakerEnv} {t : ℕ × SwapThread} {s : Threads (ℕ × SwapThread)}

theorem ensures_taker {payload : Str}
    (hs : ∀ str, fromStr env.contractIdFromStr payload = .ok str →
      s.Knows t .takerSwaps str.paymentHash fun e => settable .waiting e) :
  Final env t (taker env.contractIdFromStr payload).inl s
  := by
  rw [taker]
  split
  · apply ensures_done
  rename_i str hstr
  have hs := hs str hstr
  rw [inl_bind]
  apply ensures_plain_bind Plain.getCurrentTimestamp
  intro now s1 hs1
  split_ifs
  · apply ensures_done
  rw [inl_bind]
  apply ensures_plain_bind (Plain.hasEnoughAssets _)
  intro enough s2 hs2
  split_ifs
  · rw [inl_bind]
    apply ensures_plain_bind Plain.getCurrentTimestamp
    intro requestedAt s3 hs3
    rw [inl_bind]
    apply ensures_then
    apply ensures_addTakerSwap rfl _ (fun _ => trivial)
    apply ((hs1.trans hs2).trans hs3).remembers hs
  · apply ensures_done

/-- A redemption is added to the whitelist only if its payment hash is not there, and taken
back only while it is waiting. -/
theorem ensures_reserveRedemption (sender : PublicKey) (params : AssetLinkAuthorizeParams)
    (asset linked : ContractId) (hamount : params.amount ≠ 0) (hash : PaymentHash)
    (maxBalance : ℤ) :
  Final env t (reserveRedemption sender params asset linked hamount hash maxBalance).inl s
  := by
  rw [reserveRedemption, inl_bind]
  apply ensures_lock_bind
  intro s1 hs1 hheld
  split_ifs with hsome
  · rw [inl_bind]
    apply ensures_unlock_bind
    intro s2 _
    apply ensures_done
  have hnone : s1.entry .takerSwaps hash = none := by
    rw [not_isSome_iff_eq_none] at hsome
    apply hsome
  rw [inl_bind]
  apply ensures_held_bind Plain.getCurrentTimestamp hheld
  intro now s2 hs2 hheld2 hmemory2
  split_ifs
  · rw [inl_bind]
    apply ensures_unlock_bind
    intro s3 _
    apply ensures_done
  rw [inl_bind]
  apply ensures_held_bind Plain.getCurrentTimestamp hheld2
  intro requestedAt s3 hs3 hheld3 hmemory3
  have hmemory : s3.memory .takerSwaps = s1.memory .takerSwaps := hmemory3.trans hmemory2
  rw [← hmemory, inl_bind]
  apply ensures_set_bind (c := .takerSwaps) (E := {hash}) hheld3
  · intro h' hne
    apply (Table.lookup_insert_eq _ _ _ _).trans (if_neg hne)
  · rintro _ _ rfl _ swap' hentry
    rw [entry, hmemory, ← entry, hnone] at hentry
    cases hentry
  intro s4 _ hheld4 hmemory4
  rw [inl_bind]
  apply ensures_save_bind hheld4
  intro r s5 _ hheld5 hmemory5
  cases r with
  | ok _ =>
    rw [inl_bind]
    apply ensures_unlock_bind
    intro s6 _
    apply ensures_done
  | error e =>
    rw [inl_bind]
    apply ensures_set_bind (c := .takerSwaps) (E := {hash}) hheld5
    · intro h' hne
      rw [entry, hmemory5, hmemory4]
      apply (Table.lookup_erase_eq _ _ _).trans (if_neg hne)
    · rintro _ _ rfl _ swap' hentry hfinal
      rw [entry, hmemory5, hmemory4] at hentry
      have hself : ∀ (m : SwapMap) h swap, (m.insert h swap).lookup h = some swap := by
        intro m h swap
        rw [Table.lookup_insert_eq, if_pos rfl]
      cases (hself _ _ _).symm.trans hentry
      cases hfinal
    intro s6 _ _ _
    rw [inl_bind]
    apply ensures_unlock_bind
    intro s7 _
    apply ensures_done

theorem ensures_authorizeSwap (sender : PublicKey) (params : AssetLinkAuthorizeParams) :
  Final env t (authorizeSwap env.contractIdFromStr sender params).inl s
  := by
  rw [authorizeSwap]
  split
  · apply ensures_done
  split
  · apply ensures_done
  split
  · apply ensures_done
  split_ifs
  · apply ensures_done
  · apply ensures_done
  rw [inl_bind]
  apply ensures_plain_bind (Plain.nodeOp rfl)
  intro available s1 _
  split_ifs
  · rw [inl_bind]
    apply ensures_plain_bind (Plain.checkLink _ _ _)
    intro link s2 _
    split
    · apply ensures_done
    rw [inl_bind]
    apply ensures_plain_bind (Plain.nodeOp rfl)
    intro channels s3 _
    rw [inl_bind]
    apply ensures_plain_bind (Plain.getMaxLocalRgbAmount _ _)
    intro maxBalance s4 _
    apply ensures_reserveRedemption
  · apply ensures_done

theorem ensures_rejectIntercept (id : InterceptId) :
  Final env t (rejectIntercept id).inl s
  := by
  apply ensures_plain (Plain.rejectIntercept id)
  intro _ _ _
  trivial

variable (e : HTLCIntercepted)

theorem ensures_finishAndReject {status : SwapStatus}
    (hs : s.Knows t .takerSwaps e.paymentHash fun e => settable status e) :
  Final env t (updateTakerSwapStatus e.paymentHash status >>= fun _ => rejectIntercept
    e.interceptId).inl s
  := by
  rw [inl_bind]
  apply ensures_bind (P := fun _ _ => True)
  · apply ensures_updateTakerSwapStatus hs
    intro _ _ _
    trivial
  · intro _ s1 _
    apply ensures_rejectIntercept

theorem ensures_forwardSwap (outbound : ChannelDetails)
    (hs : s.Knows t .takerSwaps e.paymentHash fun e => settable .pending e) :
  Final env t (forwardSwap e outbound).inl s
  := by
  rw [forwardSwap, inl_bind]
  apply ensures_bind
    (P := fun _ s' => s'.Knows t .takerSwaps e.paymentHash (HasStatus .pending))
  · apply ensures_updateTakerSwapPendingIntercept _ hs
    intro s' hs'
    apply hs'
  intro _ s1 hs1
  rw [inl_bind]
  apply ensures_bind
    (P := fun _ s' => s'.Knows t .takerSwaps e.paymentHash (HasStatus .pending))
  · refine ensures_free ⟨rfl, fun _ => trivial⟩ fun _ s2 hs2 => ?_
    apply hs2.kept.remembers hs1
  intro r s2 hs2
  cases r with
  | ok _ =>
    apply ensures_done
  | error _ =>
    apply ensures_finishAndReject
    apply hs2.mono
    intro _ he
    apply he.settable rfl

theorem ensures_checkSwap (inbound outbound : ChannelDetails)
    (inboundContract outboundContract : Option ContractId) (swap : SwapData)
    (hs : s.Knows t .takerSwaps e.paymentHash (· = some swap)) :
  Final env t (checkSwap e inbound outbound inboundContract outboundContract swap).inl s
  := by
  rw [checkSwap]
  split
  · apply ensures_rejectIntercept
  rename_i hforwardable
  split
  · apply ensures_rejectIntercept
  -- The entry can be used, so it is not over.
  have hopen : swap.status.isFinal = false := by
    rw [Bool.not_eq_true, Bool.not_eq_false', SwapData.forwardable] at hforwardable
    split at hforwardable
    · rename_i hstatus
      rw [hstatus]
      rfl
    · rename_i hstatus
      rw [hstatus]
      rfl
    · cases hforwardable
  rw [inl_bind]
  apply ensures_plain_bind Plain.getCurrentTimestamp
  intro now s1 hs1
  have hsettable : ∀ status, s1.Knows t .takerSwaps e.paymentHash
      fun e => settable status e := by
    intro status
    apply (hs1.remembers hs).mono
    rintro _ rfl
    apply settable_of_not_final hopen
  split_ifs
  · apply ensures_finishAndReject e (hsettable _)
  · apply ensures_finishAndReject e (hsettable _)
  · apply ensures_forwardSwap e outbound (hsettable _)

theorem ensures_findSwap (inbound outbound : ChannelDetails) :
  Final env t (findSwap e inbound outbound).inl s
  := by
  rw [findSwap, inl_bind]
  apply ensures_plain_bind (Plain.getRgbChannelInfoOptional _ _)
  intro inboundInfo s1 _
  rw [inl_bind]
  apply ensures_plain_bind (Plain.getRgbChannelInfoOptional _ _)
  intro outboundInfo s2 _
  rw [inl_bind]
  apply ensures_lock_bind
  intro s3 _ _
  split
  · rw [inl_bind]
    apply ensures_bind (P := fun _ _ => True) (ensures_rejectIntercept _)
    intro r s4 _
    rw [inl_bind]
    apply ensures_unlock_bind
    intro s5 _
    apply ensures_done
  rename_i swap hswap
  rw [inl_bind]
  apply ensures_unlock_bind
  intro s4 hs4
  apply ensures_checkSwap
  apply hs4.remembers
  right
  apply hswap

theorem ensures_htlcIntercepted :
  Final env t (htlcIntercepted e).inl s
  := by
  rw [htlcIntercepted]
  split_ifs
  · apply ensures_rejectIntercept
  rw [inl_bind]
  apply ensures_plain_bind (Plain.nodeOp rfl)
  intro channels s1 _
  split
  · apply ensures_rejectIntercept
  rw [inl_bind]
  apply ensures_plain_bind (Plain.nodeOp rfl)
  intro channels' s2 _
  split
  · apply ensures_rejectIntercept
  · apply ensures_findSwap

theorem ensures_paymentForwarded (e : PaymentForwarded)
    (hs : s.Knows t .takerSwaps e.paymentHash fun e => settable .succeeded e) :
  Final env t (paymentForwarded e).inl s
  := by
  rw [paymentForwarded, inl_bind]
  apply ensures_plain_bind (Plain.clearRgbPaymentPending _ _)
  intro _ s1 hs1
  rw [inl_bind]
  apply ensures_plain_bind (Plain.clearRgbPaymentPending _ _)
  intro _ s2 hs2
  split
  · apply ensures_nodePanic
  · apply ensures_nodePanic
  rw [inl_bind]
  apply ensures_plain_bind (Plain.updateForwarded _ _ _)
  intro r s3 hs3
  split
  · apply ensures_done
  rw [inl_bind]
  apply ensures_plain_bind (Plain.updateForwarded _ _ _)
  intro r' s4 hs4
  split
  · apply ensures_done
  rw [inl_bind]
  apply ensures_look_bind
  intro isTaker s5 hs5
  split_ifs
  · rw [inl_bind]
    apply ensures_then
    apply ensures_updateTakerSwapStatus _ fun _ _ _ => trivial
    apply ((((hs1.trans hs2).trans hs3).trans hs4).trans hs5).remembers hs
  · apply ensures_done

end Takers

/-! ### Calls of makers -/

section Makers

variable {env : MakerEnv} {t : ℕ × SwapThread} {s : Threads (ℕ × SwapThread)}

theorem ensures_setMakerSwapStatus_done {α : Type} {h : PaymentHash} {status : SwapStatus}
    (a : α) (hs : s.Knows t .makerSwaps h fun e => settable status e) :
  Final env t ((updateMakerSwapStatus h status).inl >>= fun _ => .ret a) s
  := by
  apply ensures_then
  apply ensures_setMakerSwapStatus hs
  intro _ _ _
  trivial

variable (deserialize : Bytes → Option RgbPaymentInfo)

theorem ensures_paymentClaimed (e : PaymentClaimed)
    (hs : s.Knows t .makerSwaps e.paymentHash fun e => settable .succeeded e) :
  Final env t (paymentClaimed deserialize e).inl s
  := by
  rw [paymentClaimed, inl_bind]
  apply ensures_look_bind
  intro makerSwap s1 hs1
  rw [inl_bind]
  apply ensures_bind (P := fun _ => Kept t ∅ s1)
  · rw [alreadyClaimed]
    split_ifs
    · apply ensures_looked
    · apply ensures_looked
  intro claimed s2 hs2
  split_ifs
  · apply ensures_done
  all_goals
    rw [inl_bind]
    apply ensures_plain_bind (Plain.finalizeRgbChannelPayment _ _ _)
    intro r s3 hs3
    split
    · apply ensures_done
  · rw [inl_bind]
    apply ensures_setMakerSwapStatus_done
    apply ((hs1.trans hs2).trans hs3).remembers hs
  split
  · apply ensures_nodePanic
  rw [inl_bind]
  apply ensures_then
  apply ensures_upsertInboundPayment
  · intro hwatched
    cases hwatched
  · intro _ _ _
    trivial

theorem ensures_paymentSent (e : PaymentSent)
    (hs : s.Knows t .makerSwaps e.paymentHash fun e => settable .succeeded e) :
  Final env t (paymentSent deserialize e).inl s
  := by
  rw [paymentSent, inl_bind]
  apply ensures_plain_bind (Plain.finalizeRgbChannelPayment _ _ _)
  intro r s1 hs1
  split
  · apply ensures_done
  rw [inl_bind]
  apply ensures_look_bind
  intro makerSwap s2 hs2
  split_ifs
  · rw [inl_bind]
    apply ensures_setMakerSwapStatus_done
    apply (hs1.trans hs2).remembers hs
  · split
    · apply ensures_nodePanic
    · rw [inl_bind]
      apply ensures_then (ensures_updateOutboundPayment _ _ _)

theorem ensures_paymentFailed (e : PaymentFailed)
    (hs : ∀ h, e.paymentHash = some h →
      s.Knows t .makerSwaps h fun e => settable .failed e) :
  Final env t (paymentFailed e).inl s
  := by
  rw [paymentFailed]
  split
  · rename_i hash hhash
    rw [inl_bind]
    apply ensures_plain_bind (Plain.clearRgbPaymentPending _ _)
    intro _ s1 hs1
    rw [inl_bind]
    apply ensures_look_bind
    intro makerSwap s2 hs2
    split_ifs
    · rw [inl_bind]
      apply ensures_setMakerSwapStatus_done
      apply (hs1.trans hs2).remembers (hs hash hhash)
    · rw [inl_bind]
      apply ensures_then
      apply ensures_updateOutboundPaymentStatus
      intro _
      trivial
  · rw [inl_bind]
    apply ensures_then
    apply ensures_updateOutboundPaymentStatus
    intro _
    trivial

theorem ensures_createInboundPayment
    {Q : PaymentHash × PaymentSecret → Threads (ℕ × SwapThread) → Prop}
    (hQ : ∀ a s', s'.Knows t .makerSwaps a.1 (· = none) → Q a s') :
  (finality env).Ensures t (lnOp .createInboundPayment) Q s
  := by
  apply ensures_op (o := .inr .createInboundPayment)
  intro f s1 x s2 _ hguard hx
  obtain ⟨hothers, hown⟩ := exec_free (D := finality env) rfl hx
  refine ⟨hothers, fun a ha s3 hs3 => ?_⟩
  cases hx
  cases ha
  apply hQ
  apply ((hown rfl).trans t _ _ _ hs3).kept.remembers
  right
  apply hguard.2

theorem ensures_offer (r : MakerInitRequest) (fromAsset toAsset : Option ContractId)
    (hasset : ¬ (fromAsset = none ∧ toAsset = none)) :
  Final env t (MakerEnv.offer r fromAsset toAsset hasset) s
  := by
  rw [MakerEnv.offer]
  apply ensures_plain_bind Plain.getCurrentTimestamp
  intro now s1 _
  apply ensures_plain_bind Plain.getCurrentTimestamp
  intro requestedAt s2 _
  apply ensures_plain_bind (canGive _)
  intro enough s3 _
  split_ifs
  · apply ensures_bind (P := fun a s' => s'.Knows t .makerSwaps a.1 (· = none))
    · apply ensures_createInboundPayment
      intro _ _ hs'
      apply hs'
    intro a s4 hs4
    apply ensures_then
    apply ensures_addMakerSwap rfl _ fun _ => trivial
    apply hs4.mono
    rintro _ rfl
    rfl
  · apply ensures_done

theorem ensures_makerInit (r : MakerInitRequest) :
  Final env t (env.makerInit r) s
  := by
  rw [MakerEnv.makerInit]
  split
  · apply ensures_done
  split
  · apply ensures_done
  split_ifs
  · apply ensures_done
  · apply ensures_done
  · apply ensures_offer

theorem ensures_sendSwap (swapstring : SwapString) (paymentPreimage : PaymentPreimage)
    (hops : List RouteHop)
    (hs : s.Knows t .makerSwaps swapstring.paymentHash fun e => settable .pending e) :
  Final env t (env.sendSwap swapstring paymentPreimage hops) s
  := by
  rw [MakerEnv.sendSwap]
  apply ensures_bind (P := fun _ => Kept t ∅ s)
  · refine ensures_free ?_ fun _ s' hs' => hs'.kept
    rw [MakerEnv.writeMarkers]
    split
    · trivial
    · exact ⟨rfl, fun _ => ⟨rfl, fun _ => trivial⟩⟩
  intro _ s1 hs1
  apply ensures_bind
    (P := fun _ s' => s'.Knows t .makerSwaps swapstring.paymentHash (HasStatus .pending))
  · apply ensures_setMakerSwapStatus (hs1.remembers hs)
    intro _ _ hs'
    apply hs'
  intro _ s2 hs2
  apply ensures_bind
    (P := fun _ s' => s'.Knows t .makerSwaps swapstring.paymentHash (HasStatus .pending))
  · refine ensures_free ⟨rfl, fun _ => trivial⟩ fun _ s3 hs3 => ?_
    apply hs3.kept.remembers hs2
  intro r s3 hs3
  cases r with
  | ok _ => apply ensures_done
  | error e =>
    apply ensures_plain_bind (Plain.clearRgbPaymentPending _ _)
    intro _ s4 hs4
    apply ensures_setMakerSwapStatus_done
    apply (hs4.remembers hs3).mono
    intro _ he
    apply he.settable rfl

theorem ensures_routeSwap (swapstring : SwapString) (paymentSecret : PaymentSecret)
    (taker : PublicKey)
    (hs : s.Knows t .makerSwaps swapstring.paymentHash fun e => settable .pending e) :
  Final env t (env.routeSwap swapstring paymentSecret taker) s
  := by
  rw [MakerEnv.routeSwap]
  apply ensures_lnOp_bind rfl
  intro preimage s1 hs1
  split
  · apply ensures_done
  apply ensures_lnOp_bind rfl
  intro channels s2 hs2
  apply ensures_plain_bind (receiveHints _ _)
  intro hints s3 hs3
  apply ensures_lnOp_bind rfl
  intro first s4 hs4
  apply ensures_lnOp_bind rfl
  intro second s5 hs5
  split
  · split_ifs
    · apply ensures_nodePanic
    · dsimp only
      split_ifs
      · apply ensures_done
      · apply ensures_sendSwap
        apply ((((hs1.trans hs2).trans hs3).trans hs4).trans hs5).remembers hs
  · apply ensures_done

theorem ensures_makerExecute (r : MakerExecuteRequest)
    (hs : ∀ str, fromStr env.contractIdFromStr r.swapstring = .ok str →
      s.Knows t .makerSwaps str.paymentHash fun e => settable .pending e) :
  Final env t (env.makerExecute r) s
  := by
  rw [MakerEnv.makerExecute]
  split
  · apply ensures_done
  rename_i swapstring hstr
  have hs := hs swapstring hstr
  split
  · apply ensures_done
  split
  · apply ensures_done
  apply ensures_plain_bind Plain.getCurrentTimestamp
  intro now s1 hs1
  have hs1 := hs1.remembers hs
  split_ifs
  · apply ensures_setMakerSwapStatus_done
    apply hs1.mono
    intro _ he
    apply settable_of_pending he
  · apply ensures_routeSwap _ _ _ hs1

end Makers

/-! ### Listings -/

def swapCell : Bool → Cell
  | true => .takerSwaps
  | false => .makerSwaps

/-- What a call knows about a swap of a side. -/
def Threads.KnowsSwap {T : Type} (s : Threads T) (t : T) (h : PaymentHash)
    (P : Option SwapData → Prop) : Bool → Prop
  | true => s.Knows t .takerSwaps h P
  | false => s.Knows t .makerSwaps h P

section Listings

variable {env : MakerEnv} {t : ℕ × SwapThread} {s s' : Threads (ℕ × SwapThread)}
variable {h : PaymentHash} {taker : Bool}

theorem Threads.Kept.knowsSwap {E : Set (Cell × PaymentHash)} (hs' : Kept t E s s')
    (hE : (swapCell taker, h) ∉ E) {P : Option SwapData → Prop} (hs : s.KnowsSwap t h P taker) :
  s'.KnowsSwap t h P taker
  := by
  cases taker with
  | true => apply hs'.knows hE hs
  | false => apply hs'.knows hE hs

theorem Threads.KnowsSwap.mono {P P' : Option SwapData → Prop} (hs : s.KnowsSwap t h P taker)
    (hP : ∀ e, P e → P' e) :
  s.KnowsSwap t h P' taker
  := by
  cases taker with
  | true => apply Knows.mono hs hP
  | false => apply Knows.mono hs hP

theorem ensures_swapsOf (taker : Bool) :
  (finality env).Ensures t (swapsOf taker).inl (fun m s' => Kept t ∅ s s'
    ∧ ∀ h, s'.KnowsSwap t h (· = m.lookup h) taker) s
  := by
  cases taker with
  | true => exact ensures_readCell fun m s' hs' hm => ⟨hs', hm⟩
  | false => exact ensures_readCell fun m s' hs' hm => ⟨hs', hm⟩

theorem ensures_updateSwapStatus {status : SwapStatus}
    (hs : s.KnowsSwap t h (fun e => settable status e) taker) :
  (finality env).Ensures t (updateSwapStatus h status taker).inl
    (fun _ => Kept t {(swapCell taker, h)} s) s
  := by
  cases taker with
  | true => exact ensures_updateTakerSwapStatus hs fun s' hs' _ => hs'
  | false => exact ensures_setMakerSwapStatus hs fun s' hs' _ => hs'

theorem SwapData.currentStatus_of_final {swapData : SwapData} (h : swapData.status.isFinal) :
  swapData.currentStatus = pure swapData.status
  := by
  obtain ⟨swapInfo, status, requestedAt, initiatedAt, completedAt, id, peer⟩ := swapData
  cases status with
  | waiting | pending => cases h
  | _ => rfl

theorem Plain.currentStatus (swapData : SwapData) :
  Plain swapData.currentStatus
  := by
  rw [SwapData.currentStatus]
  split
  · exact ⟨rfl, fun _ => trivial⟩
  · apply All.bind (Plain.nodeOp rfl)
    intro now
    split
    · apply nodePanic
    · trivial
  · trivial

/-- Showing a swap changes it only if it was not over when it was looked at. -/
theorem ensures_mapSwap {swapData : SwapData}
    (hs : s.KnowsSwap t h (· = some swapData) taker) :
  (finality env).Ensures t (mapSwap h swapData taker).inl
    (fun _ => Kept t {(swapCell taker, h)} s) s
  := by
  rw [mapSwap]
  by_cases hfinal : swapData.status.isFinal
  · rw [SwapData.currentStatus_of_final hfinal, pure_eq_ret, ret_bind, if_neg (not_not.mpr rfl)]
    apply ensures_ret
    intro s' hs'
    apply hs'.kept.mono (empty_subset _)
  rw [inl_bind]
  apply ensures_plain_bind (currentStatus _)
  intro status s1 hs1
  dsimp only
  split_ifs
  · rw [inl_bind]
    have hsettable : s1.KnowsSwap t h (fun e => settable status e) taker := by
      apply (hs1.knowsSwap (notMem_empty _) hs).mono
      rintro _ rfl
      apply settable_of_not_final (Bool.eq_false_iff.mpr hfinal)
    apply ensures_bind (ensures_updateSwapStatus hsettable)
    intro _ s2 hs2
    apply ensures_ret
    intro s' hs'
    apply (hs2.trans (hs'.kept.mono (empty_subset _))).after hs1
  · apply ensures_ret
    intro s' hs'
    apply (hs1.trans hs'.kept).mono (empty_subset _)

/-- Showing swaps of a side changes no other swaps. -/
theorem ensures_mapSwaps (entries : List (Σ _ : PaymentHash, SwapData))
    (hnodup : (entries.map Sigma.fst).Nodup)
    (hs : ∀ entry ∈ entries, s.KnowsSwap t entry.1 (· = some entry.2) taker) :
  (finality env).Ensures t (mapSwaps taker entries).inl
    (fun _ => Kept t {p | p.1 = swapCell taker} s) s
  := by
  induction entries generalizing s with
  | nil =>
    apply ensures_ret
    intro s' hs'
    apply hs'.kept.mono (empty_subset _)
  | cons entry entries ih =>
    obtain ⟨hnot, hnodup⟩ := List.nodup_cons.mp hnodup
    rw [mapSwaps, inl_bind]
    apply ensures_bind (ensures_mapSwap (hs entry List.mem_cons_self))
    intro swap s1 hs1
    have hrest : ∀ entry' ∈ entries, s1.KnowsSwap t entry'.1 (· = some entry'.2) taker := by
      intro entry' hmem
      apply hs1.knowsSwap _ (hs entry' (List.mem_cons_of_mem _ hmem))
      intro heq
      apply hnot
      obtain hkey : entry'.1 = entry.1 := congrArg Prod.snd (mem_singleton_iff.mp heq)
      rw [← hkey]
      apply List.mem_map_of_mem hmem
    rw [inl_bind]
    apply ensures_bind (ih hnodup hrest)
    intro swaps s2 hs2
    apply ensures_ret
    intro s' hs'
    have hfirst : Kept t {p | p.1 = swapCell taker} s s1 := by
      apply hs1.mono
      rintro _ rfl
      rfl
    apply hfirst.trans (hs2.trans (hs'.kept.mono (empty_subset _)))

theorem ensures_getSwap (paymentHash : Str) (taker : Bool) :
  Final env t (getSwap paymentHash taker).inl s
  := by
  rw [getSwap]
  split
  · apply ensures_done
  rename_i requested _
  rw [inl_bind]
  apply ensures_bind (ensures_swapsOf taker)
  rintro m s1 ⟨-, hm⟩
  split
  · apply ensures_done
  rename_i swapData hswap
  rw [inl_bind]
  have hknown := hm requested
  rw [hswap] at hknown
  apply ensures_bind (ensures_mapSwap hknown)
  intro _ _ _
  apply ensures_done

/-- The entries of a record that was read are known. -/
theorem knowsSwap_entries {m : SwapMap} (hm : ∀ h, s.KnowsSwap t h (· = m.lookup h) taker) :
  ∀ entry ∈ m.entries, s.KnowsSwap t entry.1 (· = some entry.2) taker
  := by
  intro entry hmem
  have hlookup : m.lookup entry.1 = some entry.2 := AList.mem_lookup_iff.mpr hmem
  rw [← hlookup]
  apply hm

theorem ensures_listSwaps :
  Final env t listSwaps.inl s
  := by
  rw [listSwaps, inl_bind]
  apply ensures_bind (ensures_swapsOf true)
  rintro takerSwaps s1 ⟨-, htaker⟩
  rw [inl_bind]
  apply ensures_bind (ensures_swapsOf false)
  rintro makerSwaps s2 ⟨hs2, hmaker⟩
  have htaker2 : ∀ h, s2.KnowsSwap t h (· = takerSwaps.lookup h) true :=
    fun h => hs2.knowsSwap (notMem_empty _) (htaker h)
  rw [inl_bind]
  apply ensures_bind (ensures_mapSwaps _ takerSwaps.nodupKeys (knowsSwap_entries htaker2))
  intro _ s3 hs3
  have hmaker3 : ∀ h, s3.KnowsSwap t h (· = makerSwaps.lookup h) false := by
    intro h
    apply hs3.knowsSwap _ (hmaker h)
    intro heq
    cases heq
  rw [inl_bind]
  apply ensures_bind (ensures_mapSwaps _ makerSwaps.nodupKeys (knowsSwap_entries hmaker3))
  intro _ _ _
  apply ensures_done

end Listings

/-! ### Runs -/

section Runs

variable (env : MakerEnv) (deserialize : Bytes → Option RgbPaymentInfo)

theorem ensures_handleEvent {t : ℕ × SwapThread} {s : Threads (ℕ × SwapThread)} (e : Event)
    (hforwarded : ∀ e', e = .paymentForwarded e' →
      s.Knows t .takerSwaps e'.paymentHash fun e => settable .succeeded e)
    (hclaimed : ∀ e', e = .paymentClaimed e' →
      s.Knows t .makerSwaps e'.paymentHash fun e => settable .succeeded e)
    (hsent : ∀ e', e = .paymentSent e' →
      s.Knows t .makerSwaps e'.paymentHash fun e => settable .succeeded e) :
  Final env t (handleEvent deserialize e).inl s
  := by
  rw [handleEvent.eq_def, inl_bind]
  apply ensures_plain_bind (Plain.nodeOp rfl)
  intro _ s1 hs1
  cases e with
  | htlcIntercepted e => apply ensures_htlcIntercepted
  | paymentForwarded e =>
    apply ensures_paymentForwarded
    apply hs1.remembers (hforwarded e rfl)
  | paymentClaimed e =>
    apply ensures_paymentClaimed
    apply hs1.remembers (hclaimed e rfl)
  | paymentSent e =>
    apply ensures_paymentSent
    apply hs1.remembers (hsent e rfl)

theorem ensures_swapThread (t : ℕ × SwapThread) (c : Unit) (s : Threads (ℕ × SwapThread)) :
  Final env t (swapThread env deserialize t c) s
  := by
  rw [swapThread]
  apply ensures_bind (P := fun _ s' => ∃ s1 : Threads (ℕ × SwapThread),
    t.2.StartsIn env s1.world ∧ ∀ c h, s'.Knows t c h (· = s1.entry c h))
  · apply ensures_begin
    intro s1 s' hstarts hknows
    exact ⟨s1, hstarts, hknows⟩
  rintro _ s' ⟨s1, hstarts, hknows⟩
  -- What the call began with is what it knows.
  have htaker : ∀ h status, settable status ((s1.memory .takerSwaps).lookup h) →
      s'.Knows t .takerSwaps h fun e => settable status e := by
    intro h status hsettable
    apply (hknows .takerSwaps h).mono
    rintro _ rfl
    apply hsettable
  have hmaker : ∀ h status, settable status ((s1.memory .makerSwaps).lookup h) →
      s'.Knows t .makerSwaps h fun e => settable status e := by
    intro h status hsettable
    apply (hknows .makerSwaps h).mono
    rintro _ rfl
    apply hsettable
  obtain ⟨n, c⟩ := t
  cases c with
  | swap c =>
    apply ensures_then
    cases c with
    | node c =>
      cases c with
      | taker payload =>
        rw [handle, NodeCall.handle, inl_bind]
        apply ensures_then
        apply ensures_taker
        intro str hstr
        apply htaker
        simp only [SwapThread.StartsIn, hstr] at hstarts
        apply hstarts
      | authorizeSwap sender params =>
        rw [handle, NodeCall.handle, inl_bind]
        apply ensures_then
        apply ensures_authorizeSwap
      | event e =>
        rw [handle, NodeCall.handle, inl_bind]
        apply ensures_then
        apply ensures_handleEvent
        · rintro e' rfl
          apply htaker _ _ hstarts
        · rintro e' rfl
          apply hmaker _ _ hstarts
        · rintro e' rfl
          apply hmaker _ _ hstarts
    | getSwap paymentHash taker =>
      rw [handle, inl_bind]
      apply ensures_then
      apply ensures_getSwap
    | listSwaps =>
      rw [handle, inl_bind]
      apply ensures_then
      apply ensures_listSwaps
  | makerInit r =>
    apply ensures_then
    apply ensures_makerInit
  | makerExecute r =>
    apply ensures_then
    apply ensures_makerExecute
    intro str hstr
    apply hmaker
    simp only [SwapThread.StartsIn, hstr] at hstarts
    apply hstarts
  | paymentFailed e =>
    apply ensures_then
    apply ensures_paymentFailed
    intro h hhash
    apply hmaker
    simp only [SwapThread.StartsIn, hhash, all_some] at hstarts
    apply hstarts

/-- The state of a node after its threads have made moves. -/
abbrev runThreads (w : World) (ln : LnState) (ms : List (Move (ℕ × SwapThread) Unit Fault)) :
    Pool lnInterface (ℕ × SwapThread) (Threads (ℕ × SwapThread)) Unit :=
  Pool.run threadMachine (swapThread env deserialize) (Pool.idle (.start w ln)) ms

/-- Moves that meet what the discipline asks. -/
abbrev KeepsDiscipline (w : World) (ln : LnState)
    (ms : List (Move (ℕ × SwapThread) Unit Fault)) : Prop :=
  Pool.AllowsAll threadMachine (finality env).guard (fun _ _ _ => True)
    (swapThread env deserialize) (Pool.idle (.start w ln)) ms

/-- Along every run of calls and events that meets the discipline, a swap that is over keeps
its status. -/
theorem status_final (w : World) (ln : LnState)
    (ms ms' : List (Move (ℕ × SwapThread) Unit Fault))
    (hms : KeepsDiscipline env deserialize w ln (ms ++ ms')) :
  let s := (runThreads env deserialize w ln ms).world
  let s' := (runThreads env deserialize w ln (ms ++ ms')).world
  (∀ h swap, (s.memory .takerSwaps).lookup h = some swap → swap.status.isFinal →
      ∃ swap', (s'.memory .takerSwaps).lookup h = some swap' ∧ swap'.status = swap.status)
    ∧ ∀ h swap, (s.memory .makerSwaps).lookup h = some swap → swap.status.isFinal →
      ∃ swap', (s'.memory .makerSwaps).lookup h = some swap' ∧ swap'.status = swap.status
  := by
  have hkeeps := run_keeps (ensures_swapThread env deserialize) w ln ms ms' hms
  exact ⟨fun h => hkeeps .takerSwaps rfl h, fun h => hkeeps .makerSwaps rfl h⟩

end Runs

/-! ### A swap string that is taken again -/

instance decidableAsksOfSwaps (env : MakerEnv) (t : ℕ × SwapThread) :
    (o : lnInterface.Op) → (s : Threads (ℕ × SwapThread)) → Decidable (asksOfSwaps env t o s)
  | .inl _, _ => .isTrue trivial
  | .inr .begin, s => inferInstanceAs (Decidable (t.2.StartsIn env s.world = true))
  | .inr .createInboundPayment, s =>
    inferInstanceAs (Decidable ((s.world.cells .makerSwaps).memory.lookup
      (s.ln.inboundPayment s.ln.created).1 = none))
  | .inr .bestBlockHeight, _ | .inr (.claimFunds _), _ | .inr (.failHtlcBackwards _), _
  | .inr (.write _ _), _ | .inr (.invoice _), _ | .inr (.getAsyncPaymentPreimage _ _ _), _
  | .inr (.getPaymentPreimage _ _), _ | .inr .listUsableChannels, _ | .inr (.findRoute _), _
  | .inr (.sendSpontaneousPayment _), _ => .isTrue trivial

instance (env : MakerEnv) (t : ℕ × SwapThread) (o : lnInterface.Op) (f : Fault)
    (s : Threads (ℕ × SwapThread)) : Decidable ((finality env).guard t o f s) :=
  have := decidableAsksOfSwaps env t o s
  inferInstanceAs (Decidable ((finality env).Careful t s o ∧ asksOfSwaps env t o s))

def runsAlone (n : ℕ) (c : SwapThread) : List (Move (ℕ × SwapThread) Unit Fault) :=
  .spawn (n, c) () :: List.replicate 50 (.step (n, c) .calm)

def takenAndCompleted : List (Move (ℕ × SwapThread) Unit Fault) :=
  runsAlone 0 (.swap (.node (.taker samplePayload))) ++
    runsAlone 1 (.swap (.node (.event (.paymentForwarded sampleForwarded))))

def sampleStatus (ms : List (Move (ℕ × SwapThread) Unit Fault)) : Option SwapStatus :=
  (((runThreads sampleMaker (fun _ => none) sampleNode {} ms).world.memory .takerSwaps).lookup
    (List.Vector.replicate 32 3)).map (·.status)

/-- The same swap string is taken again: the swap that succeeded is waiting. -/
theorem status_final_retaken :
  sampleStatus takenAndCompleted = some .succeeded ∧
    sampleStatus (takenAndCompleted ++ runsAlone 2 (.swap (.node (.taker samplePayload))))
      = some .waiting
  := by
  decide +kernel

/-- The event is delivered again: the swap stays as it is. -/
theorem status_final_redelivered :
  ∃ swap, ((runThreads sampleMaker (fun _ => none) sampleNode {}
      (takenAndCompleted ++ runsAlone 2 (.swap (.node (.event
        (.paymentForwarded sampleForwarded)))))).world.memory .takerSwaps).lookup
          (List.Vector.replicate 32 3) = some swap ∧ swap.status = .succeeded
  := by
  have hstatus : sampleStatus takenAndCompleted = some .succeeded := by
    decide +kernel
  obtain ⟨swap, hswap, hsucceeded⟩ := map_eq_some_iff.mp hstatus
  have hfinal : swap.status.isFinal := by
    rw [hsucceeded]
    rfl
  obtain ⟨swap', hswap', hstatus'⟩ := (status_final sampleMaker (fun _ => none) sampleNode {}
    takenAndCompleted (runsAlone 2 (.swap (.node (.event (.paymentForwarded sampleForwarded)))))
    (by decide +kernel)).1 _ swap hswap hfinal
  exact ⟨swap', hswap', hstatus'.trans hsucceeded⟩

end RgbLightning
