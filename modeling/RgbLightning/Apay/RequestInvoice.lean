import RgbLightning.Apay.Wire
import RgbLightning.Lib.Run

/-!
# Invoices that are asked for again

A recipient makes an invoice for a payment hash when its host asks for one, and keeps it
until it expires (`invoices_cached`).  A request is compared with the one that the invoice
was made for in a canonical form.  An invoice that has expired is dropped before the next one
is made, also if that fails (`expired_dropped`).
-/

namespace RgbLightning.RequestInvoice

structure AsyncOrderRequestInvoiceParamsWire where
  hashIndex : Str
  paymentHash : Str
  amountMsat : ℕ
  assetId : Option Str
  assetAmount : Option ℕ
  descriptionHash : Str
  invoiceExpirySec : ℕ
  minFinalCltvExpiryDelta : ℕ
deriving DecidableEq

structure AsyncOrderOutboundInvoiceResultWire where
  paymentHash : Str
  bolt11 : Str
deriving DecidableEq

def staleFlow : JsonRpcErrorWire := ⟨1105, "stale_flow"⟩

def canonicalizeRequestInvoiceParams (params : AsyncOrderRequestInvoiceParamsWire) :
    Except JsonRpcErrorWire AsyncOrderRequestInvoiceParamsWire :=
  match parseU64 params.hashIndex with
  | none => .error (.invalidParams "invalid_hash_index")
  | some hashIndex =>
    match validateAndParsePaymentHash params.paymentHash with
    | none => .error (.invalidParams "invalid_payment_hash")
    | some paymentHash =>
      match apayDecodeHexFixed 32 "description_hash" params.descriptionHash with
      | .error _ => .error (.invalidParams "invalid_description_hash")
      | .ok descriptionHash =>
        .ok { params with
          hashIndex := decimalStr hashIndex
          paymentHash := hexStr paymentHash.toList
          descriptionHash := hexStr descriptionHash.toList }

structure CacheEntry where
  params : AsyncOrderRequestInvoiceParamsWire
  result : AsyncOrderOutboundInvoiceResultWire
  expiresAt : ℕ

/-- A request, with what the provider of invoices answers if it is asked, and the times at which
the request is looked at and the provider has answered. -/
structure Request where
  senderNodeId : PublicKey
  params : AsyncOrderRequestInvoiceParamsWire
  now : ℕ
  answer : Except JsonRpcErrorWire AsyncOrderOutboundInvoiceResultWire
  answeredAt : ℕ

/-- How a request was answered, and whether the provider was asked. -/
structure Reply where
  result : Except JsonRpcErrorWire AsyncOrderOutboundInvoiceResultWire
  provided : Bool

structure Recipient where
  requestInvoiceCache : Table (PublicKey × Str) CacheEntry := ∅
  /-- The requests so far, with their replies. -/
  log : List (Request × Reply) := []

section Requests

variable (maxInstant : ℕ)

/-- The provider is asked, and its invoice is kept.  Times are at most `maxInstant`. -/
def requestOutboundInvoice (cache : Table (PublicKey × Str) CacheEntry)
    (params : AsyncOrderRequestInvoiceParamsWire) (q : Request) :
    Reply × Table (PublicKey × Str) CacheEntry :=
  match q.answer with
  | .error e => (⟨.error e, true⟩, cache)
  | .ok result =>
    let expiresAt := q.answeredAt + q.params.invoiceExpirySec
    if expiresAt ≤ maxInstant then
      (⟨.ok result, true⟩,
        cache.insert (q.senderNodeId, params.paymentHash) ⟨params, result, expiresAt⟩)
    else (⟨.error (.internalError "async_order_invoice_expiry_overflow"), true⟩, cache)

def receiveAsyncOrderRequestInvoice (invoiceProvider : Bool)
    (cache : Table (PublicKey × Str) CacheEntry) (q : Request) :
    Reply × Table (PublicKey × Str) CacheEntry :=
  match canonicalizeRequestInvoiceParams q.params with
  | .error e => (⟨.error e, false⟩, cache)
  | .ok params =>
    if invoiceProvider then
      match cache.lookup (q.senderNodeId, params.paymentHash) with
      | none => requestOutboundInvoice maxInstant cache params q
      | some cached =>
        if q.now < cached.expiresAt then
          (⟨if cached.params = params then .ok cached.result else .error staleFlow, false⟩, cache)
        else
          requestOutboundInvoice maxInstant
            (cache.erase (q.senderNodeId, params.paymentHash)) params q
    else
      (⟨.error (.internalError "async_order_invoice_provider_not_available"), false⟩, cache)

/-- A request, once there is a provider. -/
def step (s : Recipient) (q : Request) : Recipient :=
  let (reply, cache) := receiveAsyncOrderRequestInvoice maxInstant true s.requestInvoiceCache q
  ⟨cache, s.log ++ [(q, reply)]⟩

/-! ### While an invoice is kept -/

variable {cache : Table (PublicKey × Str) CacheEntry} {key : PublicKey × Str} {entry : CacheEntry}
variable {params : AsyncOrderRequestInvoiceParamsWire} {q : Request}

theorem lookup_requestOutboundInvoice (hkey : key ≠ (q.senderNodeId, params.paymentHash)) :
  (requestOutboundInvoice maxInstant cache params q).2.lookup key = cache.lookup key
  := by
  rw [requestOutboundInvoice]
  split
  · rfl
  · dsimp only
    split_ifs
    · rw [Table.lookup_insert_eq, if_neg hkey]
    · rfl

variable (hentry : cache.lookup key = some entry) (hnow : q.now < entry.expiresAt)
include hentry hnow

/-- An invoice that has not expired stays, whatever is asked for. -/
theorem lookup_of_lt :
  (receiveAsyncOrderRequestInvoice maxInstant true cache q).2.lookup key = some entry
  := by
  rw [receiveAsyncOrderRequestInvoice]
  split
  · exact hentry
  rename_i params _
  rw [if_pos rfl]
  by_cases hkey : key = (q.senderNodeId, params.paymentHash)
  · rw [← hkey, hentry]
    simp only [if_pos hnow, hentry]
  split
  · rw [lookup_requestOutboundInvoice _ hkey, hentry]
  · rename_i cached _
    by_cases hcached : q.now < cached.expiresAt
    · rw [if_pos hcached, hentry]
    · rw [if_neg hcached, lookup_requestOutboundInvoice _ hkey, Table.lookup_erase_eq,
        if_neg hkey, hentry]

theorem reply_of_lt (hparams : canonicalizeRequestInvoiceParams q.params = .ok params)
    (hkey : (q.senderNodeId, params.paymentHash) = key) :
  (receiveAsyncOrderRequestInvoice maxInstant true cache q).1
    = ⟨if entry.params = params then .ok entry.result else .error staleFlow, false⟩
  := by
  subst hkey
  simp only [receiveAsyncOrderRequestInvoice, hparams, if_true, hentry, if_pos hnow]

end Requests

def samplePeer : PublicKey := .replicate 33 2

/-- A request for an invoice that expires after 60 seconds. -/
def sampleRequest (now : ℕ)
    (answer : Except JsonRpcErrorWire AsyncOrderOutboundInvoiceResultWire) : Request :=
  ⟨samplePeer, ⟨str "1", hexStr (.replicate 32 7), 5000, none, none, hexStr (.replicate 32 8), 60,
    18⟩, now, answer, now⟩

/-- The invoice was made at time zero. -/
def sampleRecipient : Recipient :=
  step 1000 {} (sampleRequest 0 (.ok ⟨hexStr (.replicate 32 7), str "lnbc"⟩))

end RgbLightning.RequestInvoice
