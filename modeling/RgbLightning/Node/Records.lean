import RgbLightning.Node.Interface

/-!
# The records behind a mutex

A handler changes a record by locking its mutex, changing the value in memory and saving
it.  Saving unwraps the outcome of the write, so a failed write panics with the mutex
locked, and every later attempt to lock it panics as well until the node restarts.
-/

namespace RgbLightning

def nodePanic {α : Type} : Node α := do
  let e ← nodeOp .panic
  e.elim

def getCurrentTimestamp : Node ℕ :=
  nodeOp .getCurrentTimestamp

def lockCell (c : Cell) : Node c.Content :=
  nodeOp (.lock c)

def unlockCell (c : Cell) : Node Unit :=
  nodeOp (.unlock c)

/-- Changes a locked record in memory. -/
def setCell (c : Cell) (v : c.Content) : Node Unit :=
  nodeOp (.set c v)

/-- Saves a locked record and unlocks it. -/
def saveCell (c : Cell) : Node Unit := do
  match ← nodeOp (.save c) with
  | .ok _ => unlockCell c
  | .error _ => nodePanic

/-- A copy of a record. -/
def readCell (c : Cell) : Node c.Content := do
  let v ← lockCell c
  unlockCell c
  pure v

/-! ### Rules -/

section Rules

variable {G : Prog.Guard nodeInterface World Fault} {C : World → Prop} {w : World}
variable {c : Cell}

def World.setLocked (w : World) (c : Cell) (locked : Bool) : World :=
  w.setCell c { w.cells c with locked }

def World.saved (w : World) (c : Cell) : World :=
  w.setCell c { w.cells c with disk := (w.cells c).memory }

def World.setMemory (w : World) (c : Cell) (v : c.Content) : World :=
  w.setCell c { w.cells c with memory := v }

variable (hcrash : C w.reboot)
include hcrash

theorem wp_nodePanic {α : Type} {Q : α → World → Prop} (hpanic : C w.panic) :
  (nodePanic : Node α).wp nodeMachine G C Q w
  := ⟨fun _ => hcrash, fun _ _ => hpanic⟩

omit hcrash in
theorem wp_fallible {α : Type} {o : NodeOp} {a : Except IoError α}
    {k : Except IoError α → o.Ans} (hexec : ∀ f, World.exec f o w = (some (k (answer f a)), w))
    {Q : o.Ans → World → Prop} (hcrash : C w.reboot) (hok : Q (k a) w)
    (herror : ∀ e : Failure, Q (k (.error e.val)) w) :
  (nodeOp o).wp nodeMachine G C Q w
  := by
  refine ⟨fun _ => hcrash, fun f _ => ?_⟩
  rw [show nodeMachine.exec f o w = (some (k (answer f a)), w) from hexec f]
  cases f with
  | calm => apply hok
  | delay d => apply hok
  | fails e => apply herror
  | lost e => apply herror

theorem wp_lockCell {Q : c.Content → World → Prop} (hpanic : C w.panic)
    (h : (w.cells c).poisoned = false → Q (w.cells c).memory (w.setLocked c true)) :
  (lockCell c).wp nodeMachine G C Q w
  := by
  refine ⟨fun _ => hcrash, fun f _ => ?_⟩
  by_cases hp : (w.cells c).poisoned = true
  · have hx : nodeMachine.exec f (.lock c) w = (none, w.panic) := if_pos hp
    rw [hx]
    apply hpanic
  · have hx : nodeMachine.exec f (.lock c) w = (some (w.cells c).memory, w.setLocked c true) :=
      if_neg hp
    rw [hx]
    apply h (Bool.eq_false_iff.mpr hp)

theorem wp_unlockCell {Q : Unit → World → Prop} (h : Q () (w.setLocked c false)) :
  (unlockCell c).wp nodeMachine G C Q w
  := ⟨fun _ => hcrash, fun _ _ => h⟩

theorem wp_setCell {v : c.Content} {Q : Unit → World → Prop} (h : Q () (w.setMemory c v)) :
  (setCell c v).wp nodeMachine G C Q w
  := ⟨fun _ => hcrash, fun _ _ => h⟩

theorem wp_save {Q : Except IoError Unit → World → Prop} (hok : Q (.ok ()) (w.saved c))
    (herror : ∀ e, Q (.error e) w) (hlost : ∀ e, Q (.error e) (w.saved c)) :
  (nodeOp (.save c)).wp nodeMachine G C Q w
  := by
  refine ⟨fun _ => hcrash, fun f _ => ?_⟩
  cases f with
  | calm => apply hok
  | delay d => apply hok
  | fails e => apply herror
  | lost e => apply hlost

theorem wp_getCurrentTimestamp_le {Q : ℕ → World → Prop}
    (h : ∀ t, w.clock ≤ t → Q t { w with clock := t }) :
  getCurrentTimestamp.wp nodeMachine G C Q w
  := by
  refine ⟨fun _ => hcrash, fun f _ => ?_⟩
  cases f with
  | delay d => apply h _ (Nat.le_add_right _ _)
  | _ => apply h w.clock (le_refl _)

end Rules

/-! ### Swaps -/

/-- The swap with its status set to a final one. -/
def SwapData.complete (swap : SwapData) (status : SwapStatus) (now : ℕ) : SwapData :=
  { swap with status, completedAt := some now }

variable (paymentHash : PaymentHash)

def addTakerSwap (swap : SwapData) : Node Unit := do
  let takerSwaps ← lockCell .takerSwaps
  setCell .takerSwaps (takerSwaps.insert paymentHash swap)
  saveCell .takerSwaps

def updateTakerSwapPendingIntercept (interceptId : InterceptId) :
    Node Unit := do
  let takerSwaps ← lockCell .takerSwaps
  match takerSwaps.lookup paymentHash with
  | none => nodePanic
  | some takerSwap =>
    let now ← getCurrentTimestamp
    setCell .takerSwaps (takerSwaps.insert paymentHash
      { takerSwap with
        status := .pending
        initiatedAt := some now
        pendingInterceptId := some interceptId })
    saveCell .takerSwaps

def updateTakerSwapStatus (status : SwapStatus) : Node Unit := do
  let takerSwaps ← lockCell .takerSwaps
  match takerSwaps.lookup paymentHash, status with
  | none, _ => nodePanic
  | some _, .waiting => nodePanic
  | some takerSwap, .pending =>
    let now ← getCurrentTimestamp
    setCell .takerSwaps (takerSwaps.insert paymentHash
      { takerSwap with status := .pending, initiatedAt := some now })
    saveCell .takerSwaps
  -- The swap is over: succeeded, failed or expired.
  | some takerSwap, status =>
    let now ← getCurrentTimestamp
    setCell .takerSwaps (takerSwaps.insert paymentHash
      { takerSwap.complete status now with pendingInterceptId := none })
    saveCell .takerSwaps

def updateMakerSwapStatus (status : SwapStatus) : Node Unit := do
  let makerSwaps ← lockCell .makerSwaps
  match makerSwaps.lookup paymentHash, status with
  | none, _ => nodePanic
  | some _, .waiting => nodePanic
  | some makerSwap, .pending =>
    let now ← getCurrentTimestamp
    setCell .makerSwaps (makerSwaps.insert paymentHash
      { makerSwap with status := .pending, initiatedAt := some now })
    saveCell .makerSwaps
  | some makerSwap, status =>
    let now ← getCurrentTimestamp
    setCell .makerSwaps (makerSwaps.insert paymentHash (makerSwap.complete status now))
    saveCell .makerSwaps

def isTakerSwap : Node Bool := do
  let takerSwaps ← readCell .takerSwaps
  pure (takerSwaps.lookup paymentHash).isSome

def isMakerSwap : Node Bool := do
  let makerSwaps ← readCell .makerSwaps
  pure (makerSwaps.lookup paymentHash).isSome

/-! ### Payments -/

def PaymentInfo.update (payment : PaymentInfo) (status : HTLCStatus)
    (preimage : Option PaymentPreimage) (now : ℕ) : PaymentInfo :=
  { payment with status, preimage, updatedAt := now }

def upsertInboundPayment (status : HTLCStatus) (preimage : Option PaymentPreimage)
    (secret : Option PaymentSecret) (amtMsat : Option ℕ) (payeePubkey : PublicKey)
    (claimDeadlineHeight : Option ℕ) : Node Unit := do
  let inbound ← lockCell .inboundPayments
  match inbound.lookup paymentHash with
  | some payment =>
    let now ← getCurrentTimestamp
    setCell .inboundPayments (inbound.insert paymentHash
      { payment.update status preimage now with
        secret
        amtMsat := amtMsat <|> payment.amtMsat
        claimDeadlineHeight := claimDeadlineHeight <|> payment.claimDeadlineHeight })
    saveCell .inboundPayments
  | none =>
    let now ← getCurrentTimestamp
    let paymentIdx ← nodeOp .nextPaymentIdx
    setCell .inboundPayments (inbound.insert paymentHash
      ⟨preimage, secret, status, amtMsat, now, now, payeePubkey, none, claimDeadlineHeight,
        some paymentIdx⟩)
    saveCell .inboundPayments

def updateOutboundPayment (paymentId : PaymentId) (status : HTLCStatus)
    (preimage : Option PaymentPreimage) : Node PaymentInfo := do
  let outbound ← lockCell .outboundPayments
  match outbound.lookup paymentId with
  | none => nodePanic
  | some payment =>
    let now ← getCurrentTimestamp
    setCell .outboundPayments
      (outbound.insert paymentId (payment.update status preimage now))
    saveCell .outboundPayments
    pure (payment.update status preimage now)

/-! ### Programs that use no record -/

/-- Whether an operation uses neither a record nor an intercepted HTLC. -/
def NodeOp.plain : NodeOp → Bool
  | .lock _ => false
  | .set _ _ => false
  | .save _ => false
  | .unlock _ => false
  | .forwardInterceptedHtlc _ => false
  | _ => true

/-- A program that uses neither a record nor an intercepted HTLC. -/
abbrev Plain {α : Type} (p : Node α) : Prop :=
  p.All fun o : NodeOp => o.plain

namespace Plain

theorem nodeOp {o : NodeOp} (ho : o.plain) :
  Plain (nodeOp o)
  := ⟨ho, fun _ => trivial⟩

theorem nodePanic {α : Type} :
  Plain (nodePanic : Node α)
  := ⟨rfl, fun e => e.elim⟩

theorem getCurrentTimestamp :
  Plain getCurrentTimestamp
  := Plain.nodeOp rfl

end Plain

/-! ### Handlers that change records only -/

/-- Whether an operation changes nothing but records other than the whitelist, and the
clock. -/
def NodeOp.recordsOnly : NodeOp → Bool
  | .lock _ => true
  | .unlock _ => true
  | .set c _ => c ≠ .takerSwaps
  | .save c => c ≠ .takerSwaps
  | .panic => true
  | .getCurrentTimestamp => true
  | .nextPaymentIdx => true
  | _ => false

/-- A program that changes nothing but records other than the whitelist, and the clock. -/
abbrev RecordsOnly {α : Type} (p : Node α) : Prop :=
  p.All fun o : NodeOp => o.recordsOnly

namespace RecordsOnly

open Prog

theorem nodeOp {o : NodeOp} (ho : o.recordsOnly) :
  RecordsOnly (nodeOp o)
  := ⟨ho, fun _ => trivial⟩

theorem nodePanic {α : Type} :
  RecordsOnly (nodePanic : Node α)
  := ⟨rfl, fun e => e.elim⟩

theorem readCell (c : Cell) :
  RecordsOnly (readCell c)
  := ⟨rfl, fun _ => ⟨rfl, fun _ => trivial⟩⟩

variable (h : PaymentHash)

theorem isTakerSwap :
  RecordsOnly (isTakerSwap h)
  := All.bind (readCell _) fun _ => trivial

theorem isMakerSwap :
  RecordsOnly (isMakerSwap h)
  := All.bind (readCell _) fun _ => trivial

theorem setAndSave {c : Cell} (hc : c ≠ .takerSwaps) (v : c.Content) :
  RecordsOnly (setCell c v >>= fun _ => saveCell c)
  := by
  have hset : (NodeOp.set c v).recordsOnly := decide_eq_true hc
  have hsave : (NodeOp.save c).recordsOnly := decide_eq_true hc
  apply All.bind (RecordsOnly.nodeOp hset)
  intro _
  apply All.bind (RecordsOnly.nodeOp hsave)
  intro r
  cases r with
  | ok _ => exact ⟨rfl, fun _ => trivial⟩
  | error _ => apply nodePanic

theorem updateMakerSwapStatus (status : SwapStatus) :
  RecordsOnly (updateMakerSwapStatus h status)
  := by
  apply All.bind (RecordsOnly.nodeOp rfl)
  intro makerSwaps
  split
  · apply nodePanic
  · apply nodePanic
  · apply All.bind (RecordsOnly.nodeOp rfl)
    intro _
    apply setAndSave (by decide)
  · apply All.bind (RecordsOnly.nodeOp rfl)
    intro _
    apply setAndSave (by decide)

theorem upsertInboundPayment (status : HTLCStatus) (preimage : Option PaymentPreimage)
    (secret : Option PaymentSecret) (amtMsat : Option ℕ) (payeePubkey : PublicKey)
    (claimDeadlineHeight : Option ℕ) :
  RecordsOnly
    (upsertInboundPayment h status preimage secret amtMsat payeePubkey claimDeadlineHeight)
  := by
  apply All.bind (RecordsOnly.nodeOp rfl)
  intro inbound
  split
  · apply All.bind (RecordsOnly.nodeOp rfl)
    intro _
    apply setAndSave (by decide)
  · apply All.bind (RecordsOnly.nodeOp rfl)
    intro _
    apply All.bind (RecordsOnly.nodeOp rfl)
    intro _
    apply setAndSave (by decide)

theorem updateOutboundPayment (paymentId : PaymentId) (status : HTLCStatus)
    (preimage : Option PaymentPreimage) :
  RecordsOnly (updateOutboundPayment paymentId status preimage)
  := by
  apply All.bind (RecordsOnly.nodeOp rfl)
  intro outbound
  split
  · apply nodePanic
  apply All.bind (RecordsOnly.nodeOp rfl)
  intro _
  rw [← Prog.bind_assoc]
  apply All.bind (setAndSave (by decide) _)
  intro _
  trivial

end RecordsOnly

end RgbLightning
