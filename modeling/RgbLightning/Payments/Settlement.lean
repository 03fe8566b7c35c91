import RgbLightning.Node.Threads
import RgbLightning.Payments.Inbound

/-!
# Payments that are settled

A payment to this node that succeeded is over, and one that is being claimed should only
succeed.  The calls that look at the status of a payment decide on a copy of the record,
except for `claimHodlInvoice`, and `PaymentClaimable` does not look at it.  `inbound_settled`
says along which runs payments are settled once.
-/

namespace RgbLightning

open Prog Interleave Discipline InboundEnv Option

namespace PaymentInfo

/-- Whether a payment is neither being claimed nor claimed. -/
def isOpen (payment : PaymentInfo) : Bool :=
  payment.status ≠ .claiming && payment.status ≠ .succeeded

theorem isOpen_of_status {payment : PaymentInfo} {status : HTLCStatus}
    (hstatus : payment.status = status) (hclaiming : status ≠ .claiming)
    (hsucceeded : status ≠ .succeeded) :
  payment.isOpen
  := by
  rw [isOpen, hstatus, decide_eq_true hclaiming, decide_eq_true hsucceeded]
  rfl

end PaymentInfo

/-- Whether a payment, if there is one, is neither being claimed nor claimed. -/
def IsOpen (e : Option PaymentInfo) : Bool := e.all PaymentInfo.isOpen

/-- A payment that succeeded stays so, with its preimage, and one that is being claimed changes
to one that succeeded at most. -/
structure KeepsSettled (e e' : Option PaymentInfo) : Prop where
  succeeded : ∀ payment, e = some payment → payment.status = .succeeded →
    ∃ payment', e' = some payment' ∧ payment'.status = .succeeded
      ∧ payment'.preimage = payment.preimage
  claiming : ∀ payment, e = some payment → payment.status = .claiming →
    ∃ payment', e' = some payment'
      ∧ (payment'.status = .claiming ∨ payment'.status = .succeeded)

namespace KeepsSettled

theorem refl (e : Option PaymentInfo) :
  KeepsSettled e e
  := by
  constructor
  · intro payment he hstatus
    exact ⟨payment, he, hstatus, rfl⟩
  · intro payment he hstatus
    exact ⟨payment, he, .inl hstatus⟩

variable {e : Option PaymentInfo}

theorem trans {e' e'' : Option PaymentInfo} (h : KeepsSettled e e') (h' : KeepsSettled e' e'') :
  KeepsSettled e e''
  := by
  constructor
  · intro payment he hstatus
    obtain ⟨payment', he', hstatus', hpreimage'⟩ := h.succeeded payment he hstatus
    obtain ⟨payment'', he'', hstatus'', hpreimage''⟩ := h'.succeeded payment' he' hstatus'
    exact ⟨payment'', he'', hstatus'', hpreimage''.trans hpreimage'⟩
  · intro payment he hstatus
    obtain ⟨payment', he', hstatus' | hstatus'⟩ := h.claiming payment he hstatus
    · apply h'.claiming payment' he' hstatus'
    · obtain ⟨payment'', he'', hstatus'', -⟩ := h'.succeeded payment' he' hstatus'
      exact ⟨payment'', he'', .inr hstatus''⟩

/-- A payment that is neither being claimed nor claimed may change. -/
theorem of_isOpen (he : IsOpen e) (e' : Option PaymentInfo) :
  KeepsSettled e e'
  := by
  constructor
  · rintro payment rfl hstatus
    rw [IsOpen, all_some, PaymentInfo.isOpen, hstatus] at he
    cases he
  · rintro payment rfl hstatus
    rw [IsOpen, all_some, PaymentInfo.isOpen, hstatus] at he
    cases he

theorem of_succeeded (he : ∀ payment, e = some payment → payment.status ≠ .succeeded)
    {payment' : PaymentInfo} (hstatus' : payment'.status = .succeeded) :
  KeepsSettled e (some payment')
  := by
  constructor
  · intro payment heq hstatus
    exact absurd hstatus (he payment heq)
  · intro payment _ _
    exact ⟨payment', rfl, .inr hstatus'⟩

end KeepsSettled

/-! ### Calls -/

inductive InboundCall where
  | paymentClaimable (e : PaymentClaimable)
  | paymentClaimed (e : PaymentClaimed)
  | claimHodlInvoice (r : ClaimHodlInvoiceRequest)
  | cancelHodlInvoice (paymentHash : Str)
  | listPayments
deriving DecidableEq

instance : Nonempty InboundCall := ⟨.listPayments⟩

section Calls

variable (env : InboundEnv) (deserialize : Bytes → Option RgbPaymentInfo)

def InboundCall.handle : InboundCall → Ln Unit
  | .paymentClaimable e => do
    let _ ← env.paymentClaimable e
    pure ()
  | .paymentClaimed e => do
    let _ ← (handleEvent deserialize (.paymentClaimed e)).inl
    pure ()
  | .claimHodlInvoice r => do
    let _ ← env.claimHodlInvoice r
    pure ()
  | .cancelHodlInvoice paymentHash => do
    let _ ← env.cancelHodlInvoice paymentHash
    pure ()
  | .listPayments => do
    let _ ← env.listUpdatedInboundPayments
    pure ()

/-- The program of a thread: a numbered call. -/
def inboundThread (t : ℕ × InboundCall) (_ : Unit) : Ln Unit := do
  lnOp .begin
  t.2.handle env deserialize

/-- The condition on the beginning of a call: `PaymentClaimable` is delivered for a payment that
is neither being claimed nor claimed, or for one that no record is kept of before it is
claimed. -/
def InboundCall.StartsIn : InboundCall → World → Bool
  | .paymentClaimable e, w =>
    match e.purpose with
    | .spontaneousPayment _ => true
    | _ => IsOpen ((w.cells .inboundPayments).memory.lookup e.paymentHash)
  | _, _ => true

def asksOfPayments (t : ℕ × InboundCall) (o : lnInterface.Op)
    (s : Threads (ℕ × InboundCall)) : Prop :=
  match o with
  | .inr .begin => t.2.StartsIn s.world
  | _ => True

def settlement : Discipline (ℕ × InboundCall) where
  watched
    | .inboundPayments => true
    | _ => false
  keeps
    | .inboundPayments => KeepsSettled
    | _ => fun _ _ => True
  refl c e := by
    cases c with
    | inboundPayments => apply KeepsSettled.refl
    | _ => trivial
  trans c e e' e'' h h' := by
    cases c with
    | inboundPayments => apply KeepsSettled.trans h h'
    | _ => trivial
  asks := asksOfPayments

end Calls

/-! ### Changes of payments -/

section Changes

variable {env : InboundEnv} {t : ℕ × InboundCall} {s s' : Threads (ℕ × InboundCall)}
variable {h : PaymentHash} {α : Type}

variable {payment : PaymentInfo}

/-- What a call knows of a payment that it has looked up. -/
theorem knows_isOpen (hopen : payment.isOpen)
    (hs : s.Knows t .inboundPayments h (· = some payment)) :
  s.Knows t .inboundPayments h fun e => IsOpen e
  := by
  apply hs.mono
  rintro _ rfl
  apply hopen

theorem ensures_failHtlcBackwards {status : HTLCStatus}
    (hs : s.Knows t .inboundPayments h fun e => IsOpen e) :
  settlement.Ensures t (env.failHtlcBackwardsAndUpdateInboundPayment h status)
    (fun _ s' => Threads.Kept t {(.inboundPayments, h)} s s'
      ∧ s'.Knows t .inboundPayments h fun e => ∀ payment, e = some payment →
        payment.status = status) s
  := by
  rw [failHtlcBackwardsAndUpdateInboundPayment]
  apply ensures_lnOp_bind rfl
  intro _ s1 hs1
  apply ensures_bind (P := fun _ s' => Threads.Kept t {(.inboundPayments, h)} s s'
    ∧ s'.Knows t .inboundPayments h fun e => ∀ payment, e = some payment →
      payment.status = status)
  · apply ensures_upsertInboundPayment
    · intro _
      apply (hs1.remembers hs).mono
      intro e he payment _
      apply KeepsSettled.of_isOpen he
    · intro s2 hs2 hnow
      exact ⟨hs2.after hs1, hnow⟩
  · rintro _ s2 ⟨hs2, hnow⟩
    apply ensures_plain (Plain.clearRgbPaymentPending _ _)
    intro _ s3 hs3
    refine ⟨hs2.trans (hs3.kept.mono (Set.empty_subset _)), ?_⟩
    apply hs3.kept.remembers hnow

theorem ensures_failHtlcBackwards_done {status : HTLCStatus} {a : α}
    (hs : s.Knows t .inboundPayments h fun e => IsOpen e) :
  settlement.Ensures t (env.failHtlcBackwardsAndUpdateInboundPayment h status >>= fun _ => .ret a)
    (fun _ _ => True) s
  := ensures_bind (ensures_failHtlcBackwards hs) fun _ _ _ => ensures_done

theorem ensures_unlockInbound {a : α} {Q : α → Threads (ℕ × InboundCall) → Prop}
    (hQ : ∀ s', Threads.Kept t ∅ s s' → Q a s') :
  settlement.Ensures t (unlockInbound a) Q s
  := by
  rw [unlockInbound]
  apply ensures_unlock_bind
  intro s1 hs1
  apply ensures_ret
  intro s2 hs2
  apply hQ s2 (hs1.trans hs2.kept)

/-! ### Claimable payments -/

theorem free_projectRgbPaymentInfo (chanIds : List ChannelId) :
  (projectRgbPaymentInfo h chanIds).All fun o => free o
  := by
  induction chanIds with
  | nil => trivial
  | cons chanId chanIds ih =>
    refine ⟨rfl, fun r => ?_⟩
    cases r with
    | error e => apply ih
    | ok data =>
      refine ⟨rfl, fun r' => ?_⟩
      cases r' with
      | error e => apply ih
      | ok _ => trivial

theorem free_asyncPreimage (payment : PaymentInfo) (invoice : Invoice) :
  (env.asyncPreimage h payment invoice).All fun o => free o
  := by
  rw [asyncPreimage]
  split
  · trivial
  split_ifs
  · split
    · refine ⟨rfl, fun r => ?_⟩
      cases r with
      | none => trivial
      | some preimageHex => trivial
    · trivial
  · trivial

theorem ensures_settleClaimable {e : PaymentClaimable} (payment : PaymentInfo)
    (invoice : Invoice)
    (hs : s.Knows t .inboundPayments e.paymentHash fun e => IsOpen e) :
  settlement.Ensures t (env.settleClaimable e payment invoice) (fun _ _ => True) s
  := by
  rw [settleClaimable]
  split
  · split
    · apply ensures_done
    · apply ensures_lnOp_bind rfl
      intro _ _ _
      apply ensures_done
  · apply ensures_bind (P := fun _ => Threads.Kept t ∅ s)
    · apply ensures_free (free_asyncPreimage payment invoice)
      intro _ _ hs'
      apply hs'.kept
    intro preimage s1 hs1
    split
    · apply ensures_done
    · apply ensures_failHtlcBackwards_done (hs1.remembers hs)
    · apply ensures_lnOp_bind rfl
      intro _ _ _
      apply ensures_done
  · apply ensures_then
    apply ensures_upsertInboundPayment
    · intro _
      apply hs.mono
      intro e he payment _
      apply KeepsSettled.of_isOpen he
    · intro _ _ _
      trivial

/-- `PaymentClaimable` changes a payment that was neither being claimed nor claimed when it was
delivered. -/
theorem ensures_paymentClaimable {e : PaymentClaimable}
    (hs : (∃ preimage, e.purpose = .spontaneousPayment preimage)
      ∨ s.Knows t .inboundPayments e.paymentHash fun e => IsOpen e) :
  settlement.Ensures t (env.paymentClaimable e) (fun _ _ => True) s
  := by
  rw [paymentClaimable]
  apply ensures_bind (P := fun _ => Threads.Kept t ∅ s)
  · apply ensures_free (free_projectRgbPaymentInfo _)
    intro _ _ hs'
    apply hs'.kept
  intro _ s1 hs1
  split
  · apply ensures_lnOp_bind rfl
    intro _ _ _
    apply ensures_done
  rename_i hpurpose
  rcases hs with ⟨preimage, hs⟩ | hs
  · exact absurd hs (hpurpose preimage)
  apply ensures_read_bind
  intro inbound s2 hs2 _
  split
  · apply ensures_done
  rename_i payment _
  apply ensures_lnOp_bind rfl
  intro invoice s3 hs3
  rw [checkClaimable]
  apply ensures_plain_bind Plain.getCurrentTimestamp
  intro now s4 hs4
  have hopen : s4.Knows t .inboundPayments e.paymentHash fun e => IsOpen e :=
    ((hs1.trans hs2).trans (hs3.trans hs4)).remembers hs
  split_ifs
  · apply ensures_failHtlcBackwards_done hopen
  · apply ensures_failHtlcBackwards_done hopen
  · apply ensures_settleClaimable payment _ hopen

/-! ### Claimed payments -/

/-- A payment that is not recorded as claimed has not succeeded. -/
theorem ensures_alreadyClaimed (makerSwap : Bool) :
  settlement.Ensures t (alreadyClaimed h makerSwap).inl (fun claimed s' =>
    makerSwap = false → claimed = false →
      s'.Knows t .inboundPayments h fun e => ∀ payment, e = some payment →
        payment.status ≠ .succeeded) s
  := by
  rw [alreadyClaimed]
  split_ifs with hmaker
  · rw [inl_bind]
    apply ensures_read_bind
    intro makerSwaps s1 _ _
    apply ensures_ret
    intro s2 _ hnot
    rw [hmaker] at hnot
    cases hnot
  rw [inl_bind]
  apply ensures_read_bind
  intro inbound s1 _ hinbound
  apply ensures_ret
  intro s2 hs2 _ hclaimed
  apply (hs2.kept.remembers (hinbound h)).mono
  rintro _ rfl payment hpayment hstatus
  have hlookup : inbound.lookup h = some payment := hpayment
  rw [hlookup, any_some, hstatus] at hclaimed
  cases hclaimed

/-- `PaymentClaimed` changes a payment that had not succeeded when it was looked at. -/
theorem ensures_claimed (deserialize : Bytes → Option RgbPaymentInfo) (e : PaymentClaimed) :
  settlement.Ensures t (paymentClaimed deserialize e).inl (fun _ _ => True) s
  := by
  rw [paymentClaimed, inl_bind]
  apply ensures_look_bind
  intro makerSwap s1 _
  rw [inl_bind]
  apply ensures_bind (ensures_alreadyClaimed makerSwap)
  intro claimed s2 hs2
  split_ifs with hclaimed hmaker
  · apply ensures_done
  all_goals
    rw [inl_bind]
    apply ensures_plain_bind (Plain.finalizeRgbChannelPayment _ _ _)
    intro r s3 hs3
    split
    · apply ensures_done
  · rw [inl_bind]
    apply ensures_then
    apply ensures_updateMakerSwapStatus
    · intro hwatched
      cases hwatched
    · intro _ _ _
      trivial
  split
  · apply ensures_nodePanic
  rw [inl_bind]
  apply ensures_then
  apply ensures_upsertInboundPayment
  · intro _
    have hopen := hs2 (Bool.eq_false_iff.mpr hmaker) (Bool.eq_false_iff.mpr hclaimed)
    apply (hs3.remembers hopen).mono
    intro e he payment hstatus
    apply KeepsSettled.of_succeeded he hstatus
  · intro _ _ _
    trivial

/-! ### HODL invoices -/

/-- A claimable payment is marked as being claimed while the record is locked. -/
theorem ensures_startClaiming (hheld : s.holder .inboundPayments = some t)
    (hpayment : s.entry .inboundPayments h = some payment) (hopen : payment.isOpen) :
  settlement.Ensures t (startClaiming h payment (s.memory .inboundPayments))
    (fun decision s' => ∀ e, decision = .terminal e →
      s'.Knows t .inboundPayments h fun e => IsOpen e) s
  := by
  rw [startClaiming]
  apply ensures_held_lnOp_bind rfl hheld
  intro height s1 hs1 hheld1 hmemory1
  apply ensures_held_bind Plain.getCurrentTimestamp hheld1
  intro now s2 hs2 hheld2 hmemory2
  have hknown : s2.Knows t .inboundPayments h (· = some payment) :=
    (hs1.trans hs2).remembers (.inr hpayment)
  split
  · apply ensures_unlockInbound
    intro s3 hs3 _ _
    apply knows_isOpen hopen (hs3.remembers hknown)
  apply ensures_bind (P := fun _ _ => True)
  · rw [← hmemory1, ← hmemory2]
    apply ensures_insertAndSave (c := .inboundPayments) hheld2
    · intro _ hno
      apply KeepsSettled.of_isOpen
      rw [hknown.of_not_touched hno]
      apply hopen
    · intro _ _ _
      trivial
  · intro _ s3 _
    apply ensures_ret
    rintro _ _ _ ⟨⟩

theorem ensures_decideClaim (preimage : PaymentPreimage) :
  settlement.Ensures t (env.decideClaim h preimage) (fun decision s' =>
    ∀ e, decision = .terminal e → s'.Knows t .inboundPayments h fun e => IsOpen e) s
  := by
  rw [decideClaim]
  apply ensures_lock_bind
  intro s1 _ hheld1
  split
  · apply ensures_unlockInbound
    rintro _ _ _ ⟨⟩
  rename_i payment hpayment
  apply ensures_held_lnOp_bind rfl hheld1
  intro invoice s2 hs2 hheld2 hmemory2
  rw [← hmemory2]
  split_ifs
  · split
    · apply ensures_unlockInbound
      intro _ _ _ hdecision
      rw [checkClaimed] at hdecision
      split_ifs at hdecision
    · apply ensures_unlockInbound
      rintro _ _ _ ⟨⟩
    · rename_i hstatus
      apply ensures_startClaiming hheld2
      · rw [Threads.entry, hmemory2]
        apply hpayment
      · apply PaymentInfo.isOpen_of_status hstatus <;> intro heq <;> cases heq
    · apply ensures_unlockInbound
      rintro _ _ _ ⟨⟩
  · apply ensures_unlockInbound
    rintro _ _ _ ⟨⟩

theorem ensures_claimHodlInvoice (r : ClaimHodlInvoiceRequest) :
  settlement.Ensures t (env.claimHodlInvoice r) (fun _ _ => True) s
  := by
  rw [claimHodlInvoice]
  split
  · apply ensures_done
  split
  · apply ensures_done
  apply ensures_bind (ensures_decideClaim _)
  intro decision s1 hs1
  split
  · apply ensures_done
  · apply ensures_done
  · apply ensures_failHtlcBackwards_done (hs1 _ rfl)
  · apply ensures_lnOp_bind rfl
    intro _ _ _
    apply ensures_done

/-- A payment is cancelled only if it was claimable when it was looked at. -/
theorem ensures_cancelHodlInvoice (paymentHash : Str) :
  settlement.Ensures t (env.cancelHodlInvoice paymentHash) (fun _ _ => True) s
  := by
  rw [cancelHodlInvoice]
  split
  · apply ensures_done
  rename_i hash _
  apply ensures_read_bind
  intro inbound s1 _ hinbound
  split
  · apply ensures_done
  rename_i payment hpayment
  apply ensures_lnOp_bind rfl
  intro invoice s2 hs2
  split_ifs
  · split
    · apply ensures_done
    · rename_i hstatus
      apply ensures_failHtlcBackwards_done
      have hknown : s2.Knows t .inboundPayments hash (· = some payment) := by
        rw [← hpayment]
        apply hs2.remembers (hinbound hash)
      apply knows_isOpen _ hknown
      apply PaymentInfo.isOpen_of_status hstatus <;> intro heq <;> cases heq
    · apply ensures_done
    · apply ensures_done
  · apply ensures_done

/-! ### Listings -/

variable {now : ℕ}

theorem isOpen_of_pendingExpired (hexpired : payment.pendingExpired now) :
  payment.isOpen
  := by
  rw [PaymentInfo.pendingExpired, Bool.and_eq_true, decide_eq_true_eq] at hexpired
  apply PaymentInfo.isOpen_of_status hexpired.1 <;> intro heq <;> cases heq

theorem isOpen_of_overdue {height : ℕ} (hoverdue : payment.overdue now height) :
  payment.isOpen
  := by
  rw [PaymentInfo.overdue, Bool.and_eq_true, decide_eq_true_eq] at hoverdue
  apply PaymentInfo.isOpen_of_status hoverdue.1 <;> intro heq <;> cases heq

theorem expirePending_eq (hexpired : ¬ payment.pendingExpired now) :
  payment.expirePending now = payment
  := if_neg hexpired

theorem isOpen_expirePending (hexpired : payment.pendingExpired now) :
  (payment.expirePending now).isOpen
  := by
  rw [PaymentInfo.expirePending, if_pos hexpired]
  rfl

/-- Payments that are neither being claimed nor claimed stay so while pending payments
expire. -/
theorem ensures_failExpiredPending (now : ℕ) (hheld : s.holder .inboundPayments = some t)
    {Q : Unit → Threads (ℕ × InboundCall) → Prop}
    (hQ : ∀ s', (∀ h, s.Knows t .inboundPayments h (fun e => IsOpen e) →
      s'.Knows t .inboundPayments h fun e => IsOpen e) → Q () s') :
  settlement.Ensures t (failExpiredPending (s.memory .inboundPayments) now) Q s
  := by
  have hentry : ∀ h, Cell.entry .inboundPayments
      (Table.map (s.memory .inboundPayments) (·.expirePending now)) h
        = (s.entry .inboundPayments h).map (·.expirePending now) :=
    fun h => Table.lookup_map _ _ _
  rw [failExpiredPending]
  split_ifs
  · apply ensures_setAndSave (c := .inboundPayments)
      (E := {h | ∃ payment, s.entry .inboundPayments h = some payment
        ∧ payment.pendingExpired now}) hheld
    · intro h hnot
      rw [hentry]
      cases hpayment : s.entry .inboundPayments h with
      | none => rfl
      | some payment =>
        rw [map_some, expirePending_eq]
        intro hexpired
        apply hnot ⟨payment, hpayment, hexpired⟩
    · rintro _ h ⟨payment, hpayment, hexpired⟩ _
      apply KeepsSettled.of_isOpen
      rw [hpayment]
      apply isOpen_of_pendingExpired hexpired
    intro s1 hkept hs1
    apply hQ
    intro h hopen
    by_cases hmem : ∃ payment, s.entry .inboundPayments h = some payment
        ∧ payment.pendingExpired now
    · obtain ⟨payment, hpayment, hexpired⟩ := hmem
      apply (hs1 h).mono
      rintro _ rfl
      rw [hentry, hpayment]
      apply isOpen_expirePending hexpired
    · apply hkept.knows _ hopen
      rintro ⟨h', hmem', heq⟩
      cases heq
      apply hmem hmem'
  · apply ensures_unlockCell
    intro s1 hs1
    apply hQ
    intro h hopen
    apply hs1.remembers hopen

/-- Payments that are neither being claimed nor claimed are failed back. -/
theorem ensures_failAll (hashes : List PaymentHash)
    (hs : ∀ h ∈ hashes, s.Knows t .inboundPayments h fun e => IsOpen e) :
  settlement.Ensures t (env.failAll hashes) (fun _ _ => True) s
  := by
  induction hashes generalizing s with
  | nil => apply ensures_done
  | cons hash hashes ih =>
    rw [failAll]
    apply ensures_bind (ensures_failHtlcBackwards (hs hash List.mem_cons_self))
    rintro _ s1 ⟨hs1, hfailed⟩
    apply ih
    intro h hmem
    by_cases hh : h = hash
    · subst hh
      apply hfailed.mono
      intro e he
      cases e with
      | none => rfl
      | some payment =>
        apply PaymentInfo.isOpen_of_status (he payment rfl) <;> intro heq <;> cases heq
    · apply hs1.knows _ (hs h (List.mem_cons_of_mem _ hmem))
      intro heq
      apply hh (congrArg Prod.snd (Set.mem_singleton_iff.mp heq))

/-- A listing fails payments back that were claimable when it looked at them. -/
theorem ensures_listUpdatedInboundPayments :
  settlement.Ensures t env.listUpdatedInboundPayments (fun _ _ => True) s
  := by
  rw [listUpdatedInboundPayments]
  apply ensures_plain_bind Plain.getCurrentTimestamp
  intro now s1 _
  apply ensures_lnOp_bind rfl
  intro height s2 _
  apply ensures_lock_bind
  intro s3 _ hheld
  apply ensures_bind (P := fun _ s' => ∀ h,
    s3.Knows t .inboundPayments h (fun e => IsOpen e) →
      s'.Knows t .inboundPayments h fun e => IsOpen e)
  · apply ensures_failExpiredPending now hheld
    intro s' hs'
    apply hs'
  intro _ s4 hs4
  dsimp only
  split_ifs
  · apply ensures_done
  apply ensures_bind (P := fun _ _ => True)
  · apply ensures_failAll
    intro h hmem
    apply hs4
    -- The payments to fail are overdue in the record that was locked.
    obtain ⟨entry, hentry, rfl⟩ := List.mem_map.mp hmem
    obtain ⟨hentry, hoverdue⟩ := List.mem_filter.mp hentry
    have hlookup : s3.entry .inboundPayments entry.1 = some entry.2 :=
      AList.mem_lookup_iff.mpr hentry
    right
    rw [hlookup]
    apply isOpen_of_overdue hoverdue
  · intro _ _ _
    apply ensures_readCell
    intro _ _ _ _
    trivial

end Changes

/-! ### Runs -/

section Runs

variable (env : InboundEnv) (deserialize : Bytes → Option RgbPaymentInfo)

theorem ensures_inboundThread (t : ℕ × InboundCall) (c : Unit)
    (s : Threads (ℕ × InboundCall)) :
  settlement.Ensures t (inboundThread env deserialize t c) (fun _ _ => True) s
  := by
  rw [inboundThread]
  apply ensures_bind (P := fun _ s' => ∃ s1 : Threads (ℕ × InboundCall),
    t.2.StartsIn s1.world ∧ ∀ c h, s'.Knows t c h (· = s1.entry c h))
  · apply ensures_begin
    intro s1 s' hstarts hknows
    exact ⟨s1, hstarts, hknows⟩
  rintro _ s' ⟨s1, hstarts, hknows⟩
  obtain ⟨n, c⟩ := t
  cases c with
  | paymentClaimable e =>
    apply ensures_then
    apply ensures_paymentClaimable
    simp only [InboundCall.StartsIn] at hstarts
    split at hstarts
    · rename_i preimage hpurpose
      exact .inl ⟨preimage, hpurpose⟩
    · right
      apply (hknows .inboundPayments e.paymentHash).mono
      rintro _ rfl
      apply hstarts
  | paymentClaimed e =>
    apply ensures_then
    rw [handleEvent.eq_def, inl_bind]
    apply ensures_plain_bind (Plain.nodeOp rfl)
    intro _ _ _
    apply ensures_claimed
  | claimHodlInvoice r =>
    apply ensures_then
    apply ensures_claimHodlInvoice
  | cancelHodlInvoice paymentHash =>
    apply ensures_then
    apply ensures_cancelHodlInvoice
  | listPayments =>
    apply ensures_then
    apply ensures_listUpdatedInboundPayments

/-- The state of a node after calls for its inbound payments have made moves. -/
abbrev runInbound (w : World) (ln : LnState) (ms : List (Move (ℕ × InboundCall) Unit Fault)) :
    Pool lnInterface (ℕ × InboundCall) (Threads (ℕ × InboundCall)) Unit :=
  Pool.run threadMachine (inboundThread env deserialize) (Pool.idle (.start w ln)) ms

/-- Moves that meet what the discipline asks. -/
abbrev KeepsSettlement (w : World) (ln : LnState)
    (ms : List (Move (ℕ × InboundCall) Unit Fault)) : Prop :=
  Pool.AllowsAll threadMachine settlement.guard (fun _ _ _ => True)
    (inboundThread env deserialize) (Pool.idle (.start w ln)) ms

/-- Along every run of calls and events that meets the discipline, a payment that succeeded
stays so with its preimage, and one that is being claimed changes to one that succeeded at
most. -/
theorem inbound_settled (w : World) (ln : LnState)
    (ms ms' : List (Move (ℕ × InboundCall) Unit Fault))
    (hms : KeepsSettlement env deserialize w ln (ms ++ ms')) (h : PaymentHash)
    (payment : PaymentInfo)
    (hpayment : ((runInbound env deserialize w ln ms).world.memory .inboundPayments).lookup h
      = some payment) :
  let inbound := (runInbound env deserialize w ln (ms ++ ms')).world.memory .inboundPayments
  (payment.status = .succeeded → ∃ payment', inbound.lookup h = some payment'
      ∧ payment'.status = .succeeded ∧ payment'.preimage = payment.preimage)
    ∧ (payment.status = .claiming → ∃ payment', inbound.lookup h = some payment'
      ∧ (payment'.status = .claiming ∨ payment'.status = .succeeded))
  := by
  have hkeeps := run_keeps (ensures_inboundThread env deserialize) w ln ms ms' hms
  obtain ⟨hsucceeded, hclaiming⟩ := hkeeps .inboundPayments rfl h
  exact ⟨hsucceeded payment hpayment, hclaiming payment hpayment⟩

end Runs

/-! ### A payment that is announced again -/

instance decidableAsksOfPayments (t : ℕ × InboundCall) :
    (o : lnInterface.Op) → (s : Threads (ℕ × InboundCall)) → Decidable (asksOfPayments t o s)
  | .inl _, _ => .isTrue trivial
  | .inr .begin, s => inferInstanceAs (Decidable (t.2.StartsIn s.world = true))
  | .inr .createInboundPayment, _ | .inr .bestBlockHeight, _ | .inr (.claimFunds _), _
  | .inr (.failHtlcBackwards _), _ | .inr (.write _ _), _ | .inr (.invoice _), _
  | .inr (.getAsyncPaymentPreimage _ _ _), _ | .inr (.getPaymentPreimage _ _), _
  | .inr .listUsableChannels, _ | .inr (.findRoute _), _
  | .inr (.sendSpontaneousPayment _), _ => .isTrue trivial

instance (t : ℕ × InboundCall) (o : lnInterface.Op) (f : Fault)
    (s : Threads (ℕ × InboundCall)) : Decidable (settlement.guard t o f s) :=
  have := decidableAsksOfPayments t o s
  inferInstanceAs (Decidable (settlement.Careful t s o ∧ asksOfPayments t o s))

/-- A node that takes a preimage for its own payment hash. -/
def sampleInbound : InboundEnv where
  ourNodeId := List.Vector.replicate 33 2
  externalSignerMode := false
  externalSigner := false
  paymentHashOf := id

def hodlPayment : PaymentInfo :=
  ⟨none, none, .pending, some 1000, 0, 0, List.Vector.replicate 33 2, some 100, none, some 0⟩

def hodlNode : World :=
  freshWorld.setMemory .inboundPayments
    (Table.ofList [(List.Vector.replicate 32 3, hodlPayment)])

def hodlInvoices : LnState :=
  { invoices := Table.ofList [(List.Vector.replicate 32 3, ⟨some (.hodl false), none, none⟩)] }

def hodlClaimable : InboundCall :=
  .paymentClaimable ⟨List.Vector.replicate 32 3,
    .bolt11InvoicePayment none (List.Vector.replicate 32 4), 1000, none, []⟩

def hodlClaim : InboundCall :=
  .claimHodlInvoice ⟨hexStr (List.replicate 32 3), hexStr (List.replicate 32 3)⟩

def hodlCancel : InboundCall := .cancelHodlInvoice (hexStr (List.replicate 32 3))

def hodlClaimed : InboundCall :=
  .paymentClaimed ⟨List.Vector.replicate 32 3,
    .bolt11InvoicePayment (some (List.Vector.replicate 32 3)) (List.Vector.replicate 32 4), 1000,
    some (List.Vector.replicate 33 2)⟩

/-- A number of steps of a call without failures. -/
def inboundSteps (n : ℕ) (c : InboundCall) (k : ℕ) : List (Move (ℕ × InboundCall) Unit Fault) :=
  List.replicate k (.step (n, c) .calm)

def inboundAlone (n : ℕ) (c : InboundCall) : List (Move (ℕ × InboundCall) Unit Fault) :=
  .spawn (n, c) () :: inboundSteps n c 40

/-- The status and the preimage of the sample payment after some moves. -/
def hodlStatus (ms : List (Move (ℕ × InboundCall) Unit Fault)) :
    Option (HTLCStatus × Option PaymentPreimage) :=
  (((runInbound sampleInbound (fun _ => none) hodlNode hodlInvoices ms).world.memory
    .inboundPayments).lookup (List.Vector.replicate 32 3)).map fun payment =>
      (payment.status, payment.preimage)

/-- The sample payment arrives, is claimed by its recipient, and is claimed. -/
def hodlSettled : List (Move (ℕ × InboundCall) Unit Fault) :=
  inboundAlone 0 hodlClaimable ++ inboundAlone 1 hodlClaim ++ inboundAlone 2 hodlClaimed

/-- The sample payment arrives, its cancellation looks at the record, and its recipient claims
it meanwhile. -/
def hodlRace : List (Move (ℕ × InboundCall) Unit Fault) :=
  inboundAlone 0 hodlClaimable ++ .spawn (1, hodlCancel) () :: inboundSteps 1 hodlCancel 4 ++
    inboundAlone 2 hodlClaim

/-- The payment that succeeded is announced again: it is claimable, and its preimage is lost.
The payment that is being claimed is cancelled. -/
theorem inbound_settled_undone :
  (hodlStatus hodlSettled = some (.succeeded, some (List.Vector.replicate 32 3)) ∧
      hodlStatus (hodlSettled ++ inboundAlone 3 hodlClaimable) = some (.claimable, none)) ∧
    hodlStatus hodlRace = some (.claiming, none) ∧
      hodlStatus (hodlRace ++ inboundSteps 1 hodlCancel 40) = some (.cancelled, none)
  := by
  decide +kernel

/-- The end of the payment is announced again: the payment stays as it is. -/
theorem inbound_settled_redelivered :
  ∃ payment, ((runInbound sampleInbound (fun _ => none) hodlNode hodlInvoices
      (hodlSettled ++ inboundAlone 3 hodlClaimed)).world.memory .inboundPayments).lookup
        (List.Vector.replicate 32 3) = some payment ∧ payment.status = .succeeded
          ∧ payment.preimage = some (List.Vector.replicate 32 3)
  := by
  have hstatus : hodlStatus hodlSettled
      = some (.succeeded, some (List.Vector.replicate 32 3)) := by
    decide +kernel
  obtain ⟨payment, hpayment, heq⟩ := map_eq_some_iff.mp hstatus
  obtain ⟨payment', hpayment', hsucceeded, hpreimage⟩ :=
    (inbound_settled sampleInbound (fun _ => none) hodlNode hodlInvoices hodlSettled
      (inboundAlone 3 hodlClaimed) (by decide +kernel) _ payment hpayment).1
        (congrArg Prod.fst heq)
  exact ⟨payment', hpayment', hsucceeded, hpreimage.trans (congrArg Prod.snd heq)⟩

end RgbLightning
