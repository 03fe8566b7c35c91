import RgbLightning.Lib.Extend
import RgbLightning.Node.Records

/-!
# More operations of the channel manager

The calls that send, claim and refuse payments use more of the channel manager than the
handlers of swaps: the preimages it derives, the payments it has in flight, its routes, its
best block, and what it claims and fails back.  They are programs over `lnInterface`, which
extends the interface of the handlers.

The channel manager identifies a payment in flight by its payment id, and refuses to send
another one with the same id.
-/

namespace RgbLightning

/-! ### Operations -/

/-- How an invoice is settled. -/
inductive InvoiceType where
  | autoClaim
  | hodl (asyncPaymentRecipient : Bool)
deriving DecidableEq, Repr

/-- What is recorded of an invoice besides its payment. -/
structure Invoice where
  invoiceType : Option InvoiceType
  asyncHashIndex : Option ℕ
  asyncHostNodeId : Option PublicKey
deriving DecidableEq

structure RouteHop where
  shortChannelId : ℕ
  feeMsat : ℕ
  rgbPayment : Option (ContractId × ℕ)
deriving DecidableEq

/-- What a counterparty asks for when it forwards payments to this node. -/
structure CounterpartyForwardingInfo where
  feeBaseMsat : ℕ
  feeProportionalMillionths : ℕ
  cltvExpiryDelta : ℕ
deriving DecidableEq

/-- A channel that can be used.  What its counterparty asks for need not be known. -/
structure UsableChannel where
  details : ChannelDetails
  forwardingInfo : Option CounterpartyForwardingInfo
deriving DecidableEq

structure RouteHint where
  srcNodeId : PublicKey
  shortChannelId : ℕ
  cltvExpiryDelta : ℕ
  feeBaseMsat : ℕ
  feeProportionalMillionths : ℕ
deriving DecidableEq

/-- What a route is asked for. -/
structure RouteQuery where
  start : PublicKey
  dest : PublicKey
  finalValueMsat : ℕ
  rgbPayment : Option (ContractId × ℕ)
  hints : List RouteHint
deriving DecidableEq

structure SpontaneousPayment where
  route : List RouteHop
  paymentHash : PaymentHash
  paymentPreimage : PaymentPreimage
  paymentId : PaymentId
deriving DecidableEq

inductive RetryableSendFailure where
  | paymentExpired
  | routeNotFound
  | duplicatePayment
  | onionPacketSizeExceeded
deriving DecidableEq, Repr

/-- The additional operations.  `begin` has no effect: it marks the start of a call. -/
inductive LnOp where
  | begin
  | bestBlockHeight
  | claimFunds (preimage : PaymentPreimage)
  | failHtlcBackwards (paymentHash : PaymentHash)
  | write (k : Key) (v : Bytes)
  | invoice (paymentHash : PaymentHash)
  | getAsyncPaymentPreimage (host : PublicKey) (index : ℕ) (paymentHash : PaymentHash)
  | getPaymentPreimage (paymentHash : PaymentHash) (secret : PaymentSecret)
  | createInboundPayment
  | listUsableChannels
  | findRoute (q : RouteQuery)
  | sendSpontaneousPayment (p : SpontaneousPayment)

abbrev LnOp.Ans : LnOp → Type
  | .begin => Unit
  | .bestBlockHeight => ℕ
  | .claimFunds _ => Unit
  | .failHtlcBackwards _ => Unit
  | .write _ _ => Except IoError Unit
  | .invoice _ => Option Invoice
  | .getAsyncPaymentPreimage _ _ _ => Option Str
  | .getPaymentPreimage _ _ => Option PaymentPreimage
  | .createInboundPayment => PaymentHash × PaymentSecret
  | .listUsableChannels => List UsableChannel
  | .findRoute _ => Option (List RouteHop)
  | .sendSpontaneousPayment _ => Except RetryableSendFailure Unit

abbrev lnInterface : Interface := nodeInterface.sum ⟨LnOp, LnOp.Ans⟩

abbrev Ln (α : Type) : Type := Prog lnInterface α

abbrev lnOp (o : LnOp) : Ln o.Ans := Prog.perform (S := lnInterface) (.inr o)

/-! ### The machine -/

/-- The state of the channel manager as far as the additional operations see it.  What it
claimed and what it failed back are recorded. -/
structure LnState where
  height : ℕ := 0
  invoices : Table PaymentHash Invoice := ∅
  asyncPreimage : PublicKey → ℕ → PaymentHash → Option Str := fun _ _ _ => none
  preimage : PaymentHash → PaymentSecret → Option PaymentPreimage := fun _ _ => none
  inboundPayment : ℕ → PaymentHash × PaymentSecret :=
    fun _ => (List.Vector.replicate 32 0, List.Vector.replicate 32 0)
  created : ℕ := 0
  usable : List UsableChannel := []
  route : RouteQuery → Option (List RouteHop) := fun _ => none
  inFlight : List PaymentId := []
  claimed : List PaymentPreimage := []
  failedBack : List PaymentHash := []

def LnState.exec (f : Fault) : (o : LnOp) → World × LnState → Option o.Ans × (World × LnState)
  | .begin, w => (some (), w)
  | .bestBlockHeight, (w, s) =>
    match f with
    | .delay d => (some (s.height + d), w, { s with height := s.height + d })
    | _ => (some s.height, w, s)
  | .claimFunds preimage, (w, s) => (some (), w, { s with claimed := preimage :: s.claimed })
  | .failHtlcBackwards h, (w, s) => (some (), w, { s with failedBack := h :: s.failedBack })
  | .write k v, (w, s) =>
    let (r, w') := commit f w { w with rows := w.rows.insert k v }
    (some r, w', s)
  | .invoice h, (w, s) => (some (s.invoices.lookup h), w, s)
  | .getAsyncPaymentPreimage host index h, (w, s) =>
    (some (if f.error?.isSome then none else s.asyncPreimage host index h), w, s)
  | .getPaymentPreimage h secret, (w, s) => (some (s.preimage h secret), w, s)
  | .createInboundPayment, (w, s) =>
    (some (s.inboundPayment s.created), w, { s with created := s.created + 1 })
  | .listUsableChannels, (w, s) => (some s.usable, w, s)
  | .findRoute q, (w, s) => (some (if f.error?.isSome then none else s.route q), w, s)
  | .sendSpontaneousPayment p, (w, s) =>
    if p.paymentId ∈ s.inFlight then (some (.error .duplicatePayment), w, s)
    else if f.error?.isSome then (some (.error .routeNotFound), w, s)
    else (some (.ok ()), w, { s with inFlight := p.paymentId :: s.inFlight })

abbrev lnMachine : Machine lnInterface (World × LnState) Fault :=
  nodeMachine.extend LnState.exec id

end RgbLightning
