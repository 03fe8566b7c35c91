import Mathlib.Data.Vector.Basic
import RgbLightning.Text

/-!
# Identifiers, swaps, channels and payments

A swap gives `qtyFrom` of `fromAsset` for `qtyTo` of `toAsset`, where a missing asset
means bitcoin, in thousandths of a satoshi.  Swap strings and authorizations are refused
unless both quantities are positive and the two assets are not both bitcoin, and the
structure carries the result of these checks.
-/

namespace RgbLightning

/-! ### Identifiers -/

abbrev PaymentHash : Type := List.Vector UInt8 32

abbrev PaymentId : Type := List.Vector UInt8 32

abbrev PaymentPreimage : Type := List.Vector UInt8 32

abbrev PaymentSecret : Type := List.Vector UInt8 32

abbrev InterceptId : Type := List.Vector UInt8 32

abbrev ChannelId : Type := List.Vector UInt8 32

abbrev ContractId : Type := List.Vector UInt8 32

abbrev PublicKey : Type := List.Vector UInt8 33

/-! ### Swaps -/

inductive SwapStatus where
  | waiting
  | pending
  | succeeded
  | expired
  | failed
deriving DecidableEq, Repr

/-- A swap, from the side of the node that takes it. -/
structure SwapInfo where
  qtyFrom : ℕ
  qtyTo : ℕ
  fromAsset : Option ContractId
  toAsset : Option ContractId
  expiry : ℕ
  qtyFrom_pos : 0 < qtyFrom
  qtyTo_pos : 0 < qtyTo
  asset_isSome : fromAsset.isSome ∨ toAsset.isSome
deriving DecidableEq

namespace SwapInfo

def isFromBtc (s : SwapInfo) : Bool := s.fromAsset.isNone

def isFromAsset (s : SwapInfo) : Bool := s.fromAsset.isSome

def isToBtc (s : SwapInfo) : Bool := s.toAsset.isNone

def isToAsset (s : SwapInfo) : Bool := s.toAsset.isSome

end SwapInfo

/-- A swap in the whitelist, with its state. -/
structure SwapData where
  swapInfo : SwapInfo
  status : SwapStatus
  requestedAt : ℕ
  initiatedAt : Option ℕ
  completedAt : Option ℕ
  pendingInterceptId : Option InterceptId
  authorizedPeer : Option PublicKey
deriving DecidableEq

/-- The data of a swap requested at the time `now`. -/
def SwapData.createFromSwapInfo (swapInfo : SwapInfo) (now : ℕ) : SwapData :=
  ⟨swapInfo, .waiting, now, none, none, none, none⟩

abbrev SwapMap : Type := Table PaymentHash SwapData

def pendingSwapTimeoutSecs : ℕ := 24 * 60 * 60

/-! ### Channels -/

structure ChannelDetails where
  channelId : ChannelId
  shortChannelId : Option ℕ
  outboundScidAlias : Option ℕ
  counterparty : PublicKey
deriving DecidableEq

/-- The asset of a channel and its balances. -/
structure RgbInfo where
  contractId : ContractId
  localRgbAmount : ℤ
  remoteRgbAmount : ℤ
deriving DecidableEq

/-! ### Payments -/

/-- The marker of an RGB payment over a channel. -/
structure RgbPaymentInfo where
  contractId : ContractId
  amount : ℕ
  swapPayment : Bool
  inbound : Bool
deriving DecidableEq

inductive HTLCStatus where
  | pending
  | succeeded
  | failed
  | claimable
  | claiming
  | cancelled
deriving DecidableEq, Repr

/-- A payment, as the node records it. -/
structure PaymentInfo where
  preimage : Option PaymentPreimage
  secret : Option PaymentSecret
  status : HTLCStatus
  amtMsat : Option ℕ
  createdAt : ℕ
  updatedAt : ℕ
  payeePubkey : PublicKey
  expiresAt : Option ℕ
  claimDeadlineHeight : Option ℕ
  paymentIdx : Option ℕ
deriving DecidableEq

/-! ### Events -/

structure HTLCIntercepted where
  isSwap : Bool
  paymentHash : PaymentHash
  interceptId : InterceptId
  inboundAmountMsat : ℕ
  expectedOutboundAmountMsat : ℕ
  inboundRgbAmount : Option ℕ
  expectedOutboundRgbPayment : Option (ContractId × ℕ)
  requestedNextHopScid : ℕ
  prevOutboundScidAlias : ℕ
deriving DecidableEq

structure PaymentForwarded where
  prevChannelId : Option ChannelId
  nextChannelId : Option ChannelId
  outboundAmountForwardedRgb : Option ℕ
  inboundAmountForwardedRgb : Option ℕ
  paymentHash : PaymentHash
deriving DecidableEq

inductive PaymentPurpose where
  | bolt11InvoicePayment (preimage : Option PaymentPreimage) (secret : PaymentSecret)
  | bolt12OfferPayment (preimage : Option PaymentPreimage) (secret : PaymentSecret)
  | bolt12RefundPayment (preimage : Option PaymentPreimage) (secret : PaymentSecret)
  | spontaneousPayment (preimage : PaymentPreimage)
deriving DecidableEq

structure PaymentClaimed where
  paymentHash : PaymentHash
  purpose : PaymentPurpose
  amountMsat : ℕ
  receiverNodeId : Option PublicKey
deriving DecidableEq

/-- A payment of this node that reached its recipient. -/
structure PaymentSent where
  paymentPreimage : PaymentPreimage
  paymentHash : PaymentHash
  paymentId : Option PaymentId
deriving DecidableEq

/-- The events of the channel manager that the node handles. -/
inductive Event where
  | htlcIntercepted (e : HTLCIntercepted)
  | paymentForwarded (e : PaymentForwarded)
  | paymentClaimed (e : PaymentClaimed)
  | paymentSent (e : PaymentSent)
deriving DecidableEq

/-- The request to replay an event later. -/
inductive ReplayEvent where
  | replayEvent
deriving DecidableEq, Repr

end RgbLightning
