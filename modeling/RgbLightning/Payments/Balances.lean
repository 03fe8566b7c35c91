import RgbLightning.Node.Records

/-!
# RGB balances and payment markers

An RGB payment over a channel leaves a marker in the store, in the namespace of its
direction, under the channel, the payment hash and the suffix `_pending`.  When the
payment ends, `finalizeRgbChannelPayment` applies the markers of its payment hash to the
balances of their channels and removes them.

A marker is removed after all markers of its namespace are applied, in a separate
operation whose failure is ignored.
-/

namespace RgbLightning

/-- The namespace of the payment markers of a direction.  The names are constants of the
RGB library; all that matters is that they differ. -/
def rgbPaymentInfoNs (inbound : Bool) : Str :=
  if inbound then str "payment_info_inbound" else str "payment_info_outbound"

/-- The name of a value in a namespace of payment markers. -/
def paymentKey (inbound : Bool) (key : Str) : Key :=
  ⟨rgbPrimaryNamespace, rgbPaymentInfoNs inbound, key⟩

theorem rgbPaymentInfoNs_injective :
  Function.Injective rgbPaymentInfoNs
  := by
  intro a b hab
  cases a <;> cases b <;> first | rfl | exact absurd hab (by decide)

theorem paymentKey_injective {i i' : Bool} {key key' : Str}
    (h : paymentKey i key = paymentKey i' key') :
  i = i' ∧ key = key'
  := ⟨rgbPaymentInfoNs_injective (congrArg Key.secondary h), congrArg Key.key h⟩

variable (paymentHash : PaymentHash)

def pendingSuffix : Str :=
  hexStr paymentHash.toList ++ str "_pending"

/-! ### Balances -/

/-- Updates the balance of a channel, unless it has no RGB info. -/
def safeUpdateRgbChannelAmount (channelId : Str) (offered received : ℕ) :
    Node (Except IoError Bool) := do
  match ← nodeOp (.readRgbChannelInfo channelId false) with
  | .ok _ =>
    nodeOp (.updateRgbChannelAmount channelId offered received)
    pure (.ok true)
  | .error e => if e.kind = .notFound then pure (.ok false) else pure (.error e)

/-! ### Markers -/

def removeKeys (inbound : Bool) : List Str → Node Unit
  | [] => pure ()
  | key :: keys => do
    let _ ← nodeOp (.remove (paymentKey inbound key))
    removeKeys inbound keys

def isChannelMarker (key : Str) : Bool :=
  pendingSuffix paymentHash <:+ key ∧ (pendingSuffix paymentHash).length < key.length

def clearRgbPaymentPending (inbound : Bool) : Node Unit := do
  let _ ← nodeOp (.remove (paymentKey inbound (pendingSuffix paymentHash)))
  match ← nodeOp (.list rgbPrimaryNamespace (rgbPaymentInfoNs inbound)) with
  | .ok keys => removeKeys inbound (keys.filter (isChannelMarker paymentHash))
  | .error _ => pure ()

def markerChannel (key : Str) : Option Str :=
  if isChannelMarker paymentHash key then
    let channelId := key.take (key.length - (pendingSuffix paymentHash).length)
    if channelId.length = 64 then some channelId else none
  else
    none

/-- What a marker adds to and subtracts from the balance of its channel when its payment
was received or sent. -/
def RgbPaymentInfo.amounts (info : RgbPaymentInfo) (receiver : Bool) : ℕ × ℕ :=
  if receiver then (0, info.amount) else (info.amount, 0)

section Finalize

variable (deserialize : Bytes → Option RgbPaymentInfo)

/-- Applies a marker.  Returns whether it changed a balance. -/
def applyMarker (paymentHash : PaymentHash) (receiver inbound : Bool) (key : Str) :
    Node (Except IoError Bool) := do
  match markerChannel paymentHash key with
  | none => pure (.ok false)
  | some channelId =>
    match ← nodeOp (.read (paymentKey inbound key)) with
    | .error e => if e.kind = .notFound then pure (.ok false) else pure (.error e)
    | .ok data =>
      match deserialize data with
      | none => pure (.ok false)
      | some info =>
        if info.swapPayment && receiver != info.inbound then
          pure (.ok false)
        else
          safeUpdateRgbChannelAmount channelId (info.amounts receiver).1
            (info.amounts receiver).2

/-- Applies markers.  Returns the ones that changed a balance. -/
def applyMarkers (paymentHash : PaymentHash) (receiver inbound : Bool) :
    List Str → Node (Except IoError (List Str))
  | [] => pure (.ok [])
  | key :: keys => do
    match ← applyMarker deserialize paymentHash receiver inbound key with
    | .error e => pure (.error e)
    | .ok applied =>
      match ← applyMarkers paymentHash receiver inbound keys with
      | .error e => pure (.error e)
      | .ok appliedKeys => pure (.ok (if applied then key :: appliedKeys else appliedKeys))

/-- Applies and removes the markers of a direction.  Returns whether there were any. -/
def finalizeDirection (paymentHash : PaymentHash) (receiver inbound : Bool) :
    Node (Except IoError Bool) := do
  match ← nodeOp (.list rgbPrimaryNamespace (rgbPaymentInfoNs inbound)) with
  | .error e => pure (.error e)
  | .ok keys =>
    match ← applyMarkers deserialize paymentHash receiver inbound keys with
    | .error e => pure (.error e)
    | .ok appliedKeys =>
      removeKeys inbound appliedKeys
      pure (.ok (decide (appliedKeys ≠ [])))

/-- Removes the marker of a payment hash without a channel, if no channel has one left. -/
def clearRawPending (paymentHash : PaymentHash) (inbound : Bool) :
    Node (Except IoError Unit) := do
  match ← nodeOp (.list rgbPrimaryNamespace (rgbPaymentInfoNs inbound)) with
  | .error e => pure (.error e)
  | .ok keys =>
    if keys.any (isChannelMarker paymentHash) then
      pure (.ok ())
    else
      let _ ← nodeOp (.remove (paymentKey inbound (pendingSuffix paymentHash)))
      pure (.ok ())

/-- Applies and removes the markers of a payment that was received or sent. -/
def finalizeRgbChannelPayment (paymentHash : PaymentHash) (receiver : Bool) :
    Node (Except IoError Unit) := do
  match ← finalizeDirection deserialize paymentHash receiver true with
  | .error e => pure (.error e)
  | .ok appliedInbound =>
    match ← finalizeDirection deserialize paymentHash receiver false with
    | .error e => pure (.error e)
    | .ok appliedOutbound =>
      if appliedInbound || appliedOutbound then
        match ← clearRawPending paymentHash true with
        | .error e => pure (.error e)
        | .ok _ => clearRawPending paymentHash false
      else
        pure (.ok ())

end Finalize

/-! ### Programs that use no record -/

namespace Plain

open Prog

theorem removeKeys (inbound : Bool) (keys : List Str) :
  Plain (removeKeys inbound keys)
  := by
  induction keys with
  | nil => trivial
  | cons key keys ih => exact ⟨rfl, fun _ => ih⟩

theorem clearRgbPaymentPending (h : PaymentHash) (inbound : Bool) :
  Plain (clearRgbPaymentPending h inbound)
  := by
  apply All.bind (Plain.nodeOp rfl)
  intro _
  apply All.bind (Plain.nodeOp rfl)
  intro keys
  split
  · apply removeKeys
  · trivial

theorem safeUpdateRgbChannelAmount (channelId : Str) (offered received : ℕ) :
  Plain (safeUpdateRgbChannelAmount channelId offered received)
  := by
  apply All.bind (Plain.nodeOp rfl)
  intro info
  split
  · exact ⟨rfl, fun _ => trivial⟩
  · split_ifs <;> trivial

section Finalize

variable (deserialize : Bytes → Option RgbPaymentInfo) (h : PaymentHash) (receiver : Bool)
variable (inbound : Bool)

theorem applyMarker (key : Str) :
  Plain (applyMarker deserialize h receiver inbound key)
  := by
  rw [RgbLightning.applyMarker]
  split
  · trivial
  apply All.bind (Plain.nodeOp rfl)
  intro data
  split
  · split_ifs <;> trivial
  split
  · trivial
  split_ifs
  · trivial
  · apply safeUpdateRgbChannelAmount

theorem applyMarkers (keys : List Str) :
  Plain (applyMarkers deserialize h receiver inbound keys)
  := by
  induction keys with
  | nil => trivial
  | cons key keys ih =>
    apply All.bind (applyMarker deserialize h receiver inbound key)
    intro applied
    split
    · trivial
    apply All.bind ih
    intro appliedKeys
    split <;> trivial

theorem finalizeDirection :
  Plain (finalizeDirection deserialize h receiver inbound)
  := by
  apply All.bind (Plain.nodeOp rfl)
  intro keys
  split
  · trivial
  apply All.bind (applyMarkers deserialize h receiver inbound _)
  intro appliedKeys
  split
  · trivial
  apply All.bind (removeKeys inbound _)
  intro _
  trivial

theorem clearRawPending :
  Plain (clearRawPending h inbound)
  := by
  apply All.bind (Plain.nodeOp rfl)
  intro keys
  split
  · trivial
  split_ifs
  · trivial
  · exact ⟨rfl, fun _ => trivial⟩

theorem finalizeRgbChannelPayment :
  Plain (finalizeRgbChannelPayment deserialize h receiver)
  := by
  apply All.bind (finalizeDirection deserialize h receiver true)
  intro appliedInbound
  split
  · trivial
  apply All.bind (finalizeDirection deserialize h receiver false)
  intro appliedOutbound
  split
  · trivial
  split_ifs
  · apply All.bind (clearRawPending h true)
    intro r
    split
    · trivial
    · apply clearRawPending
  · trivial

end Finalize

end Plain

end RgbLightning
