import RgbLightning.Node.Lightning
import RgbLightning.Payments.Balances
import RgbLightning.Swap.TakerSwaps

/-!
# The maker of a swap

A maker offers a swap (`makerInit`) and, once a taker has whitelisted it, carries it out by a
payment to itself through the taker (`makerExecute`).  The payment hash names both the swap
and the payment in flight, and the markers of its RGB amounts.  A send that the channel
manager refuses is rolled back: the markers of the payment hash are removed and the swap has
failed.

Offers of a zero quantity, which no taker accepts and no maker can carry out, are left out.
-/

namespace RgbLightning

/-! ### Records -/

def addMakerSwap (paymentHash : PaymentHash) (swap : SwapData) : Node Unit := do
  let makerSwaps ← lockCell .makerSwaps
  setCell .makerSwaps (makerSwaps.insert paymentHash swap)
  saveCell .makerSwaps

def updateOutboundPaymentStatus (paymentId : PaymentId) (status : HTLCStatus) : Node Unit := do
  let outbound ← lockCell .outboundPayments
  match outbound.lookup paymentId with
  | none => nodePanic
  | some payment =>
    let now ← getCurrentTimestamp
    setCell .outboundPayments
      (outbound.insert paymentId { payment with status, updatedAt := now })
    saveCell .outboundPayments

structure PaymentFailed where
  paymentId : PaymentId
  paymentHash : Option PaymentHash
deriving DecidableEq

def paymentFailed (e : PaymentFailed) : Node (Except ReplayEvent Unit) := do
  match e.paymentHash with
  | some hash =>
    clearRgbPaymentPending hash false
    if ← isMakerSwap hash then
      updateMakerSwapStatus hash .failed
    else
      updateOutboundPaymentStatus e.paymentId .failed
  | none => updateOutboundPaymentStatus e.paymentId .failed
  pure (.ok ())

/-! ### Calls -/

/-- What the maker's calls depend on: the formats of what they parse and store, and the
configuration of the node. -/
structure MakerEnv where
  contractIdFromStr : Str → Option ContractId
  publicKeyFromStr : Str → Option PublicKey
  serialize : RgbPaymentInfo → Bytes
  paymentHashOf : PaymentPreimage → PaymentHash
  runtimeNodeId : PublicKey
  htlcMinMsat : ℕ
  maxSwapFeeMsat : ℕ
  isSwapScid : ℕ

inductive MakerError where
  | invalidAssetID (asset : Str)
  | invalidSwap (message : String)
  | insufficientAssets
  | invalidSwapString (swapstring : Str) (e : String)
  | invalidPaymentSecret
  | invalidPubkey
  | expiredSwapOffer
  | missingSwapPaymentPreimage
  | noRoute
  | failedPayment (message : String)
deriving DecidableEq, Repr

def RetryableSendFailure.debug : RetryableSendFailure → String
  | .paymentExpired => "PaymentExpired"
  | .routeNotFound => "RouteNotFound"
  | .duplicatePayment => "DuplicatePayment"
  | .onionPacketSizeExceeded => "OnionPacketSizeExceeded"

@[ext]
structure MakerInitRequest where
  qtyFrom : ℕ
  qtyTo : ℕ
  fromAsset : Option Str
  toAsset : Option Str
  timeoutSec : ℕ
  qtyFrom_pos : 0 < qtyFrom
  qtyTo_pos : 0 < qtyTo

instance : DecidableEq MakerInitRequest := fun _ _ =>
  decidable_of_iff _ MakerInitRequest.ext_iff.symm

structure MakerExecuteRequest where
  swapstring : Str
  paymentSecret : Str
  takerPubkey : Str
deriving DecidableEq

namespace MakerEnv

variable (env : MakerEnv)

/-- The asset of an offer, none being bitcoin. -/
def parseAsset : Option Str → Except MakerError (Option ContractId)
  | none => .ok none
  | some asset =>
    match env.contractIdFromStr asset with
    | none => .error (.invalidAssetID asset)
    | some contractId => .ok (some contractId)

variable (swapInfo : SwapInfo)

/-- Whether the node can give what an offer promises. -/
def canGive : Node Bool := do
  match swapInfo.toAsset with
  | none => pure true
  | some toAsset =>
    let channels ← nodeOp .listChannels
    let maxBalance ← getMaxLocalRgbAmount toAsset channels
    pure (decide ((swapInfo.qtyTo : ℤ) ≤ maxBalance))

def offer (r : MakerInitRequest) (fromAsset toAsset : Option ContractId)
    (hasset : ¬ (fromAsset = none ∧ toAsset = none)) :
    Ln (Except MakerError (SwapString × PaymentSecret)) := do
  let now ← getCurrentTimestamp.inl
  let swapInfo : SwapInfo :=
    ⟨r.qtyFrom, r.qtyTo, fromAsset, toAsset, now + r.timeoutSec, r.qtyFrom_pos, r.qtyTo_pos, by
      cases fromAsset <;> cases toAsset <;> simp at hasset ⊢⟩
  let requestedAt ← getCurrentTimestamp.inl
  if ← (canGive swapInfo).inl then
    let (paymentHash, paymentSecret) ← lnOp .createInboundPayment
    (addMakerSwap paymentHash (SwapData.createFromSwapInfo swapInfo requestedAt)).inl
    pure (.ok (⟨swapInfo, paymentHash⟩, paymentSecret))
  else
    pure (.error .insufficientAssets)

def makerInit (r : MakerInitRequest) : Ln (Except MakerError (SwapString × PaymentSecret)) := do
  match env.parseAsset r.fromAsset with
  | .error e => pure (.error e)
  | .ok fromAsset =>
    match env.parseAsset r.toAsset with
    | .error e => pure (.error e)
    | .ok toAsset =>
      if hasset : fromAsset = none ∧ toAsset = none then
        pure (.error (.invalidSwap "cannot swap BTC for BTC"))
      else if fromAsset = toAsset then
        pure (.error (.invalidSwap "cannot swap the same asset"))
      else
        offer r fromAsset toAsset hasset

/-! ### Routes -/

/-- Whether what the maker receives can arrive over a channel with this RGB info. -/
def receivesOver : Option RgbInfo → Bool
  | some rgbInfo => swapInfo.isFromBtc || some rgbInfo.contractId = swapInfo.fromAsset
  | none => swapInfo.isFromBtc

/-- The hint for a channel, if what it needs is known. -/
def receiveHint (channel : UsableChannel) : Option RouteHint :=
  match channel.forwardingInfo, channel.details.shortChannelId with
  | some config, some shortChannelId =>
    some ⟨channel.details.counterparty, shortChannelId, config.cltvExpiryDelta,
      config.feeBaseMsat, config.feeProportionalMillionths⟩
  | _, _ => none

/-- The hints for the channels over which the maker can receive.  Panics if one of them cannot
be made. -/
def receiveHints (swapInfo : SwapInfo) : List UsableChannel → Node (List RouteHint)
  | [] => pure []
  | channel :: channels => do
    let rgbInfo ← getRgbChannelInfoOptional channel.details.channelId false
    if receivesOver swapInfo rgbInfo then
      match receiveHint channel with
      | none => nodePanic
      | some hint => do
        let hints ← receiveHints swapInfo channels
        pure (hint :: hints)
    else
      receiveHints swapInfo channels

def firstLeg (taker : PublicKey) : RouteQuery where
  start := env.runtimeNodeId
  dest := taker
  finalValueMsat :=
    if swapInfo.isToBtc then swapInfo.qtyTo + env.htlcMinMsat else env.htlcMinMsat
  rgbPayment := swapInfo.toAsset.map (·, swapInfo.qtyTo)
  hints := []

def secondLeg (taker : PublicKey) (hints : List RouteHint) :
    RouteQuery where
  start := taker
  dest := env.runtimeNodeId
  finalValueMsat :=
    if swapInfo.isToBtc || (swapInfo.isFromAsset && swapInfo.isToAsset) then env.htlcMinMsat
    else swapInfo.qtyFrom + env.htlcMinMsat
  rgbPayment := swapInfo.fromAsset.map (·, swapInfo.qtyFrom)
  hints

def carrying (rgbPayment : Option (ContractId × ℕ)) (hop : RouteHop) : RouteHop :=
  { hop with rgbPayment := rgbPayment <|> hop.rgbPayment }

/-- The first leg with no fee at its end, where the router puts the amount of the payment. -/
def dropLastFee (hops : List RouteHop) : List RouteHop :=
  hops.modifyLast fun hop => { hop with feeMsat := 0 }

/-- The second leg with the flag of swaps in its first hop. -/
def flagFirstHop (hops : List RouteHop) : List RouteHop :=
  hops.modifyHead fun hop => { hop with shortChannelId := hop.shortChannelId ||| env.isSwapScid }

/-- The two legs as one path. -/
def fullPaths (first second : List RouteHop) : List RouteHop :=
  (dropLastFee first).map (carrying (swapInfo.toAsset.map (·, swapInfo.qtyTo))) ++
    (env.flagFirstHop second).map (carrying (swapInfo.fromAsset.map (·, swapInfo.qtyFrom)))

/-- The fees of a path, without the amount at its end. -/
def totalFee (hops : List RouteHop) : ℕ :=
  ((hops.reverse.drop 1).map RouteHop.feeMsat).sum

/-! ### Carrying out a swap -/

/-- Writes the markers of an RGB payment that is not over a channel yet. -/
def writeRgbPaymentInfoFile (paymentHash : PaymentHash) (contractId : ContractId)
    (amountRgb : ℕ) (swapPayment inbound : Bool) : Ln Unit := do
  let data := env.serialize ⟨contractId, amountRgb, swapPayment, inbound⟩
  let _ ← lnOp (.write (paymentKey inbound (hexStr paymentHash.toList)) data)
  let _ ← lnOp (.write (paymentKey inbound (pendingSuffix paymentHash)) data)
  pure ()

def writeMarkers (swapstring : SwapString) : Ln Unit :=
  match swapstring.swapInfo.toAsset with
  | none => pure ()
  | some toAsset =>
    env.writeRgbPaymentInfoFile swapstring.paymentHash toAsset swapstring.swapInfo.qtyTo true
      false

def sendSwap (swapstring : SwapString) (paymentPreimage : PaymentPreimage)
    (route : List RouteHop) : Ln (Except MakerError Unit) := do
  env.writeMarkers swapstring
  (updateMakerSwapStatus swapstring.paymentHash .pending).inl
  match ← lnOp (.sendSpontaneousPayment ⟨route, env.paymentHashOf paymentPreimage,
      paymentPreimage, swapstring.paymentHash⟩) with
  | .ok _ => pure (.ok ())
  | .error e => do
    (clearRgbPaymentPending swapstring.paymentHash false).inl
    (updateMakerSwapStatus swapstring.paymentHash .failed).inl
    pure (.error (.failedPayment e.debug))

def routeSwap (swapstring : SwapString) (paymentSecret : PaymentSecret) (taker : PublicKey) :
    Ln (Except MakerError Unit) := do
  match ← lnOp (.getPaymentPreimage swapstring.paymentHash paymentSecret) with
  | none => pure (.error .missingSwapPaymentPreimage)
  | some paymentPreimage =>
    let channels ← lnOp .listUsableChannels
    let hints ← (receiveHints swapstring.swapInfo channels).inl
    let first ← lnOp (.findRoute (env.firstLeg swapstring.swapInfo taker))
    let second ← lnOp (.findRoute (env.secondLeg swapstring.swapInfo taker hints))
    match first, second with
    | some first, some second =>
      -- The first and the last hop of the legs are changed.
      if first = [] ∨ second = [] then
        nodePanic.inl
      else
        let hops := env.fullPaths swapstring.swapInfo first second
        if totalFee hops ≥ env.maxSwapFeeMsat then
          pure (.error (.failedPayment ("Fee too high: " ++ toString (totalFee hops))))
        else
          env.sendSwap swapstring paymentPreimage hops
    | _, _ => pure (.error .noRoute)

def makerExecute (r : MakerExecuteRequest) : Ln (Except MakerError Unit) := do
  match SwapString.fromStr env.contractIdFromStr r.swapstring with
  | .error e => pure (.error (.invalidSwapString r.swapstring e))
  | .ok swapstring =>
    match SwapString.parsePaymentHash r.paymentSecret with
    | none => pure (.error .invalidPaymentSecret)
    | some paymentSecret =>
      match env.publicKeyFromStr r.takerPubkey with
      | none => pure (.error .invalidPubkey)
      | some taker =>
        let now ← getCurrentTimestamp.inl
        if now > swapstring.swapInfo.expiry then
          (updateMakerSwapStatus swapstring.paymentHash .expired).inl
          pure (.error .expiredSwapOffer)
        else
          env.routeSwap swapstring paymentSecret taker

end MakerEnv

theorem Plain.receiveHints (swapInfo : SwapInfo) (channels : List UsableChannel) :
  Plain (MakerEnv.receiveHints swapInfo channels)
  := by
  induction channels with
  | nil => trivial
  | cons channel channels ih =>
    apply Prog.All.bind (Plain.getRgbChannelInfoOptional _ _)
    intro rgbInfo
    split_ifs
    · split
      · apply Plain.nodePanic
      · apply Prog.All.bind ih
        intro _
        trivial
    · apply ih

theorem Plain.canGive (swapInfo : SwapInfo) :
  Plain (MakerEnv.canGive swapInfo)
  := by
  rw [MakerEnv.canGive]
  split
  · trivial
  · refine ⟨rfl, fun channels => ?_⟩
    apply Prog.All.bind (Plain.getMaxLocalRgbAmount _ _)
    intro _
    trivial

end RgbLightning
