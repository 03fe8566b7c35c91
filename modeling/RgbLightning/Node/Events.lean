import RgbLightning.Payments.Balances
import RgbLightning.Swap.Intercept

/-!
# The handlers of channel-manager events

The channel manager delivers an event at least once: again after the handler asks for a
replay, and again after a crash.  `handleEvent` handles one delivery.
-/

namespace RgbLightning

def updateForwarded (channelId : ChannelId) (amount : Option ℕ) (inbound : Bool) :
    Node (Except IoError Bool) :=
  match amount with
  | none => pure (.ok false)
  | some amount =>
    safeUpdateRgbChannelAmount (hexStr channelId.toList) (if inbound then 0 else amount)
      (if inbound then amount else 0)

theorem Plain.updateForwarded (channelId : ChannelId) (amount : Option ℕ) (inbound : Bool) :
  Plain (updateForwarded channelId amount inbound)
  := by
  cases amount with
  | none => trivial
  | some amount => apply Plain.safeUpdateRgbChannelAmount

/-- Handles a payment that was forwarded: the outbound amount is subtracted from the
balance of the next channel, then the inbound amount is added to that of the previous
one. -/
def paymentForwarded (e : PaymentForwarded) : Node (Except ReplayEvent Unit) := do
  clearRgbPaymentPending e.paymentHash true
  clearRgbPaymentPending e.paymentHash false
  match e.prevChannelId, e.nextChannelId with
  | none, _ => nodePanic
  | some _, none => nodePanic
  | some prevChannelId, some nextChannelId =>
    match ← updateForwarded nextChannelId e.outboundAmountForwardedRgb false with
    | .error _ => pure (.error .replayEvent)
    | .ok _ =>
      match ← updateForwarded prevChannelId e.inboundAmountForwardedRgb true with
      | .error _ => pure (.error .replayEvent)
      | .ok _ =>
        if ← isTakerSwap e.paymentHash then
          updateTakerSwapStatus e.paymentHash .succeeded
          pure (.ok ())
        else
          pure (.ok ())

def PaymentPurpose.secrets : PaymentPurpose → Option PaymentPreimage × Option PaymentSecret
  | .bolt11InvoicePayment preimage secret => (preimage, some secret)
  | .bolt12OfferPayment preimage secret => (preimage, some secret)
  | .bolt12RefundPayment preimage secret => (preimage, some secret)
  | .spontaneousPayment preimage => (some preimage, none)

/-- Whether a payment to this node is recorded as claimed, in the record of maker swaps
for those and in the record of inbound payments for the others. -/
def alreadyClaimed (paymentHash : PaymentHash) (isMakerSwap : Bool) : Node Bool := do
  if isMakerSwap then
    let makerSwaps ← readCell .makerSwaps
    pure ((makerSwaps.lookup paymentHash).any (·.status = .succeeded))
  else
    let inbound ← readCell .inboundPayments
    pure ((inbound.lookup paymentHash).any (·.status = .succeeded))

theorem RecordsOnly.alreadyClaimed (h : PaymentHash) (isMakerSwap : Bool) :
  RecordsOnly (alreadyClaimed h isMakerSwap)
  := by
  rw [RgbLightning.alreadyClaimed]
  split_ifs <;> exact Prog.All.bind (RecordsOnly.readCell _) fun _ => trivial

section Handlers

variable (deserialize : Bytes → Option RgbPaymentInfo)

def paymentClaimed (e : PaymentClaimed) : Node (Except ReplayEvent Unit) := do
  let makerSwap ← isMakerSwap e.paymentHash
  if ← alreadyClaimed e.paymentHash makerSwap then
    pure (.ok ())
  else
    match ← finalizeRgbChannelPayment deserialize e.paymentHash true with
    | .error _ => pure (.error .replayEvent)
    | .ok _ =>
      if makerSwap then
        updateMakerSwapStatus e.paymentHash .succeeded
        pure (.ok ())
      else
        match e.receiverNodeId with
        | none => nodePanic
        | some receiverNodeId =>
          upsertInboundPayment e.paymentHash .succeeded e.purpose.secrets.1
            e.purpose.secrets.2 (some e.amountMsat) receiverNodeId none
          pure (.ok ())

/-- Handles a payment of this node that reached its recipient. -/
def paymentSent (e : PaymentSent) : Node (Except ReplayEvent Unit) := do
  match ← finalizeRgbChannelPayment deserialize e.paymentHash false with
  | .error _ => pure (.error .replayEvent)
  | .ok _ =>
    if ← isMakerSwap e.paymentHash then
      updateMakerSwapStatus e.paymentHash .succeeded
      pure (.ok ())
    else
      match e.paymentId with
      | none => nodePanic
      | some paymentId =>
        let _ ← updateOutboundPayment paymentId .succeeded (some e.paymentPreimage)
        pure (.ok ())

def handleEvent (e : Event) : Node (Except ReplayEvent Unit) := do
  nodeOp (.deliver e)
  match e with
  | .htlcIntercepted e => htlcIntercepted e
  | .paymentForwarded e => paymentForwarded e
  | .paymentClaimed e => paymentClaimed deserialize e
  | .paymentSent e => paymentSent deserialize e

end Handlers

end RgbLightning
