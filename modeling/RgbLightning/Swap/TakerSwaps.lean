import RgbLightning.Node.Records
import RgbLightning.Swap.SwapString

/-!
# How swaps enter the whitelist

A swap is whitelisted by a call of the API (`taker`), or by a peer that redeems a linked
asset (`authorizeSwap`).  A peer cannot authorize a payment hash that is whitelisted
already.  A call of the API replaces the entry of its payment hash, whatever its state.
-/

namespace RgbLightning

/-! ### Balances -/

/-- The RGB info of a channel, if it can be read. -/
def getRgbChannelInfoOptional (channelId : ChannelId) (pending : Bool) :
    Node (Option RgbInfo) := do
  match ← nodeOp (.readRgbChannelInfo (hexStr channelId.toList) pending) with
  | .ok info => pure (some info)
  | .error _ => pure none

/-- The largest local balance of an asset in one of the channels, at least `maxBalance`. -/
def getMaxLocalRgbAmountFrom (contractId : ContractId) :
    List ChannelDetails → ℤ → Node ℤ
  | [], maxBalance => pure maxBalance
  | chanInfo :: channels, maxBalance => do
    match ← getRgbChannelInfoOptional chanInfo.channelId false with
    | some rgbInfo =>
      if rgbInfo.contractId = contractId ∧ rgbInfo.localRgbAmount > maxBalance then
        getMaxLocalRgbAmountFrom contractId channels rgbInfo.localRgbAmount
      else
        getMaxLocalRgbAmountFrom contractId channels maxBalance
    | none => getMaxLocalRgbAmountFrom contractId channels maxBalance

def getMaxLocalRgbAmount (contractId : ContractId) (channels : List ChannelDetails) : Node ℤ :=
  getMaxLocalRgbAmountFrom contractId channels 0

/-- Whether a swap still reserves some of the asset it gives. -/
def SwapData.reserves (swap : SwapData) (contractId : ContractId) (now : ℕ) : Bool :=
  swap.swapInfo.fromAsset = some contractId &&
    match swap.status with
    | .waiting => now ≤ swap.swapInfo.expiry
    | .pending =>
      match swap.initiatedAt with
      | none => true
      | some initiatedAt => now ≤ saturatingAdd initiatedAt pendingSwapTimeoutSecs
    | .succeeded => false
    | .expired => false
    | .failed => false

def reservedOutboundRgbAmount (takerSwaps : SwapMap) (contractId : ContractId) (now : ℕ) : ℕ :=
  ((takerSwaps.entries.map Sigma.snd).filter (·.reserves contractId now)).foldl
    (fun reserved swap => saturatingAdd reserved swap.swapInfo.qtyFrom) 0

/-! ### The API call -/

inductive APIError where
  | invalidSwapString (swapstring : Str) (e : String)
  | expiredSwapOffer
  | insufficientAssets
deriving DecidableEq, Repr

/-- Whether the node can give what a swap asks for. -/
def hasEnoughAssets (swapInfo : SwapInfo) : Node Bool := do
  match swapInfo.fromAsset with
  | none => pure true
  | some fromAsset =>
    let channels ← nodeOp .listChannels
    let maxBalance ← getMaxLocalRgbAmount fromAsset channels
    pure (decide ((swapInfo.qtyFrom : ℤ) ≤ maxBalance))

def taker (contractIdFromStr : Str → Option ContractId) (payload : Str) :
    Node (Except APIError Unit) := do
  match SwapString.fromStr contractIdFromStr payload with
  | .error e => pure (.error (.invalidSwapString payload e))
  | .ok swapstring =>
    let now ← getCurrentTimestamp
    if now > swapstring.swapInfo.expiry then
      pure (.error .expiredSwapOffer)
    else
      let enough ← hasEnoughAssets swapstring.swapInfo
      if enough then
        let requestedAt ← getCurrentTimestamp
        addTakerSwap swapstring.paymentHash
          (SwapData.createFromSwapInfo swapstring.swapInfo requestedAt)
        pure (.ok ())
      else
        pure (.error .insufficientAssets)

/-! ### The authorization by a peer -/

structure AssetLinkAuthorizeParams where
  paymentHash : Str
  assetId : Str
  linkedAssetId : Str
  amount : ℕ
  expirySec : ℕ
deriving DecidableEq

structure JsonRpcError where
  code : ℤ
  message : String
deriving DecidableEq, Repr

namespace JsonRpcError

def invalidParams (message : String) : JsonRpcError := ⟨-32602, message⟩

def internalError (message : String) : JsonRpcError := ⟨-32603, message⟩

def unknownAsset : JsonRpcError := ⟨1204, "unknown_link"⟩

def unknownLink : JsonRpcError := ⟨1201, "unknown_link"⟩

def duplicatePaymentHash : JsonRpcError := ⟨1203, "duplicate_payment_hash"⟩

def insufficientLiquidity : JsonRpcError := ⟨1202, "insufficient_liquidity"⟩

end JsonRpcError

def assetLinkSwapAuthorizationMaxExpirySecs : ℕ := 24 * 60 * 60

variable (params : AssetLinkAuthorizeParams)

/-- The asset of the two that is linked to the other one. -/
def parentContract (asset linked : ContractId) (assetMetadata linkedMetadata : Metadata) :
    Option ContractId :=
  if assetMetadata.linkedToAssetId = some params.linkedAssetId
      ∧ linkedMetadata.linkedFromAssetId = some params.assetId then
    some asset
  else if linkedMetadata.linkedToAssetId = some params.assetId
      ∧ assetMetadata.linkedFromAssetId = some params.linkedAssetId then
    some linked
  else
    none

/-- Whether the two assets are linked, and the link settled. -/
def checkLink (asset linked : ContractId) :
    Node (Except JsonRpcError Unit) := do
  match ← nodeOp (.rgbGetAssetMetadata asset) with
  | none => pure (.error .unknownAsset)
  | some assetMetadata =>
    match ← nodeOp (.rgbGetAssetMetadata linked) with
    | none => pure (.error .unknownAsset)
    | some linkedMetadata =>
      match parentContract params asset linked assetMetadata linkedMetadata with
      | none => pure (.error .unknownLink)
      | some parent =>
        if assetMetadata.assetSchema ≠ .ifa ∨ linkedMetadata.assetSchema ≠ .ifa then
          pure (.error .unknownLink)
        else
          match ← nodeOp (.rgbFindLinkTransfer parent) with
          | some (some .settled) => pure (.ok ())
          | _ => pure (.error .unknownLink)

def redemption (asset linked : ContractId) (hamount : params.amount ≠ 0) (now : ℕ) : SwapInfo where
  qtyFrom := params.amount
  qtyTo := params.amount
  fromAsset := some asset
  toAsset := some linked
  expiry := saturatingAdd now (min params.expirySec assetLinkSwapAuthorizationMaxExpirySecs)
  qtyFrom_pos := Nat.pos_of_ne_zero hamount
  qtyTo_pos := Nat.pos_of_ne_zero hamount
  asset_isSome := .inl rfl

/-- Whitelists a redemption, unless its payment hash is whitelisted or the asset it gives
is reserved by other swaps.  The whitelist is locked throughout. -/
def reserveRedemption (sender : PublicKey) (params : AssetLinkAuthorizeParams)
    (asset linked : ContractId) (hamount : params.amount ≠ 0) (paymentHash : PaymentHash)
    (maxBalance : ℤ) : Node (Except JsonRpcError Unit) := do
  let takerSwaps ← lockCell .takerSwaps
  if (takerSwaps.lookup paymentHash).isSome then
    unlockCell .takerSwaps
    pure (.error .duplicatePaymentHash)
  else
    let now ← getCurrentTimestamp
    if (params.amount : ℤ) > max (maxBalance - reservedOutboundRgbAmount takerSwaps asset now) 0
    then
      unlockCell .takerSwaps
      pure (.error .insufficientLiquidity)
    else
      let requestedAt ← getCurrentTimestamp
      let swap := SwapData.createFromSwapInfo (redemption params asset linked hamount now)
        requestedAt
      setCell .takerSwaps
        (takerSwaps.insert paymentHash { swap with authorizedPeer := some sender })
      match ← nodeOp (.save .takerSwaps) with
      | .ok _ =>
        unlockCell .takerSwaps
        pure (.ok ())
      | .error e =>
        setCell .takerSwaps
          ((takerSwaps.insert paymentHash { swap with authorizedPeer := some sender }).erase
            paymentHash)
        unlockCell .takerSwaps
        pure (.error (.internalError ("taker_swaps_write_failed: " ++ e.message)))

/-- Whitelists the redemption of an asset for one it is linked to, at the request of a
peer. -/
def authorizeSwap (contractIdFromStr : Str → Option ContractId) (sender : PublicKey)
    (params : AssetLinkAuthorizeParams) : Node (Except JsonRpcError Unit) := do
  match SwapString.parsePaymentHash params.paymentHash with
  | none => pure (.error (.invalidParams "invalid_payment_hash"))
  | some paymentHash =>
    match contractIdFromStr params.assetId with
    | none => pure (.error (.invalidParams "invalid_asset_id"))
    | some asset =>
      match contractIdFromStr params.linkedAssetId with
      | none => pure (.error (.invalidParams "invalid_linked_asset_id"))
      | some linked =>
        if hamount : params.amount = 0 then
          pure (.error (.invalidParams "invalid_amount"))
        else if params.expirySec = 0 then
          pure (.error (.invalidParams "invalid_expiry_sec"))
        else if ← nodeOp .upgradeState then
          match ← checkLink params asset linked with
          | .error e => pure (.error e)
          | .ok _ =>
            let channels ← nodeOp .listChannels
            let maxBalance ← getMaxLocalRgbAmount asset channels
            reserveRedemption sender params asset linked hamount paymentHash maxBalance
        else
          pure (.error (.internalError "asset_link_state_unavailable"))

/-! ### Programs that use no record -/

namespace Plain

open Prog

theorem getRgbChannelInfoOptional (channelId : ChannelId) (pending : Bool) :
  Plain (getRgbChannelInfoOptional channelId pending)
  := by
  refine ⟨rfl, fun r => ?_⟩
  cases r <;> trivial

theorem getMaxLocalRgbAmount (contractId : ContractId) (channels : List ChannelDetails) :
  Plain (getMaxLocalRgbAmount contractId channels)
  := by
  rw [RgbLightning.getMaxLocalRgbAmount]
  generalize (0 : ℤ) = m
  induction channels generalizing m with
  | nil => trivial
  | cons chanInfo channels ih =>
    apply All.bind (getRgbChannelInfoOptional _ _)
    intro r
    cases r with
    | none => apply ih
    | some info =>
      dsimp only
      split_ifs <;> apply ih

theorem hasEnoughAssets (swapInfo : SwapInfo) :
  Plain (hasEnoughAssets swapInfo)
  := by
  rw [RgbLightning.hasEnoughAssets]
  split
  · trivial
  · refine ⟨rfl, fun channels => ?_⟩
    apply All.bind (getMaxLocalRgbAmount _ _)
    intro _
    trivial

theorem checkLink (params : AssetLinkAuthorizeParams) (asset linked : ContractId) :
  Plain (checkLink params asset linked)
  := by
  apply All.bind (Plain.nodeOp rfl)
  intro assetMetadata
  split
  · trivial
  apply All.bind (Plain.nodeOp rfl)
  intro linkedMetadata
  split
  · trivial
  split
  · trivial
  split_ifs
  · trivial
  apply All.bind (Plain.nodeOp rfl)
  intro transfer
  split <;> trivial

end Plain

end RgbLightning
