import RgbLightning.Apay.NextIndex

/-!
# Payments of the browser node

The browser node keeps its payments, the HODL invoices among them, and the preimages of the
invoices that it made for an invoice host in maps that live in memory only, keyed by payment
hashes in hexadecimal.

The record of a payment is the only place that has the amount and the expiry of an invoice.
The handler of `PaymentClaimable` compares the payment with the record and then writes the
amount that arrived into it, also when the payment is refused.

The log is a ghost: it lists, the latest first, the invoices that were made and the calls of
`claim_funds`.
-/

namespace RgbLightning

/-- Bytes written with two hexadecimal digits each, `hex::decode`. -/
def hexDecode (s : Str) : Option Bytes :=
  if s.length % 2 = 0 then apayDecodePairs s else none

/-- Thirty-two bytes written in hexadecimal. -/
def hexDecode32 (s : Str) : Option (List.Vector UInt8 32) :=
  match hexDecode s with
  | none => none
  | some v => if h : v.length = 32 then some ⟨v, h⟩ else none

/-! ### Records -/

inductive LivePaymentStatus where
  | pending
  | claimable
  | claiming
  | succeeded
  | failed
  | cancelled
deriving DecidableEq, Repr

/-- The record of a payment, `LdkRuntimeLivePaymentData`. -/
structure LivePaymentData where
  status : LivePaymentStatus
  amtMsat : Option ℕ := none
  assetId : Option Str := none
  assetAmount : Option ℕ := none
  inbound : Bool
  preimage : Option Str := none
  expiresAt : Option ℕ := none
  createdAt : ℕ
  updatedAt : ℕ
deriving DecidableEq

/-- Invoices that were made and calls of `claim_funds`. -/
inductive LiveEntry where
  | minted (paymentHash : PaymentHash) (amtMsat : Option ℕ) (expiresAt : ℕ)
  | claimedByHandler (preimage : PaymentPreimage) (paymentHash : PaymentHash)
      (amountMsat now : ℕ)
  | claimedByUser (preimage : PaymentPreimage)
deriving DecidableEq

structure LiveNode where
  livePayments : Table Str LivePaymentData := ∅
  hodlPaymentHashes : List Str := []
  hodlClaimDeadlines : Table Str ℕ := ∅
  asyncRecipientPreimages : Table Str PaymentPreimage := ∅
  log : List LiveEntry := []

/-- What the calls and the handlers are given. -/
structure LiveEnv where
  /-- SHA-256. -/
  paymentHashOf : PaymentPreimage → PaymentHash
  contractIdFromStr : Str → Option ContractId
  contractIdToStr : ContractId → Str
  /-- The preimages that the seed of the node determines, by their indices. -/
  preimageRoot : Except JsonRpcErrorWire (ℕ → Except JsonRpcErrorWire PaymentPreimage)

inductive LivePaymentError where
  | paymentHashInvalid
  | paymentHashAlreadyUsed
  | paymentPreimageInvalid
  | lnInvoiceUnknown
  | lnInvoiceAlreadyClaimed
  | lnInvoiceSettling
  | lnInvoiceNotClaimable
  | message (text : String)
deriving DecidableEq

structure LiveInvoiceRequest where
  amtMsat : Option ℕ
  expirySec : ℕ
  contractId : Option Str
  assetAmount : Option ℕ
deriving DecidableEq

structure AsyncOrderRequestInvoiceParamsWire where
  hashIndex : Str
  paymentHash : Str
  amountMsat : ℕ
  assetId : Option Str
  assetAmount : Option ℕ
  descriptionHash : Str
  invoiceExpirySec : ℕ
deriving DecidableEq

/-- An inbound payment that can be claimed. -/
structure LiveClaimable where
  paymentHash : PaymentHash
  purpose : PaymentPurpose
  amountMsat : ℕ
  claimDeadline : Option ℕ
deriving DecidableEq

/-- The key of a payment. -/
def hashHex (paymentHash : PaymentHash) : Str :=
  hexStr paymentHash.toList

namespace LiveNode

variable (env : LiveEnv) (s : LiveNode)

def markLivePayment (hashHex : Str) (status : LivePaymentStatus) (preimage : Option Str)
    (now : ℕ) : LiveNode :=
  let entry := (s.livePayments.lookup hashHex).getD
    { status := .pending, inbound := false, createdAt := now, updatedAt := now }
  { s with
    livePayments := s.livePayments.insert hashHex
      { entry with status, preimage := preimage <|> entry.preimage, updatedAt := now } }

def upsertInboundLivePayment (hashHex : Str) (status : LivePaymentStatus) (amtMsat now : ℕ) :
    LiveNode :=
  let entry := (s.livePayments.lookup hashHex).getD
    { status, amtMsat := some amtMsat, inbound := true, createdAt := now, updatedAt := now }
  { s with
    livePayments := s.livePayments.insert hashHex
      { entry with inbound := true, status, amtMsat := some amtMsat, updatedAt := now } }

def claimFunds (preimage : PaymentPreimage) (c : LiveClaimable) (now : ℕ) : LiveNode :=
  { s with log := .claimedByHandler preimage c.paymentHash c.amountMsat now :: s.log }

/-! ### Invoices -/

/-- An invoice was made: its record replaces that of an earlier payment with its hash. -/
def mint (paymentHash : PaymentHash) (amtMsat : Option ℕ) (expirySec : ℕ)
    (contractId : Option ContractId) (assetAmount : Option ℕ) (now : ℕ) : LiveNode :=
  let expiresAt := saturatingAdd now expirySec
  { s with
    livePayments := s.livePayments.insert (hashHex paymentHash)
      { status := .pending, amtMsat, assetId := contractId.map env.contractIdToStr, assetAmount,
        inbound := true, expiresAt := some expiresAt, createdAt := now, updatedAt := now }
    log := .minted paymentHash amtMsat expiresAt :: s.log }

/-- The asset of an invoice. -/
def parseContractId (contractId : Option Str) : Except LivePaymentError (Option ContractId) :=
  match contractId with
  | none => .ok none
  | some id =>
    match env.contractIdFromStr id with
    | none => .error (.message "invalid asset_id")
    | some contract => .ok (some contract)

/-- Makes an invoice.  `created` is the payment hash of the invoice that LDK made, and
`persists` whether the state of LDK could be stored afterwards. -/
def createBolt11InvoiceLive (request : LiveInvoiceRequest) (created : Option PaymentHash)
    (persists : Bool) (now : ℕ) : Except LivePaymentError Unit × LiveNode :=
  match parseContractId env request.contractId with
  | .error e => (.error e, s)
  | .ok contractId =>
    match created with
    | none => (.error (.message "failed to create invoice"), s)
    | some paymentHash =>
      (if persists then .ok () else .error (.message "failed to persist"),
        s.mint env paymentHash request.amtMsat request.expirySec contractId
          request.assetAmount now)

def createHodlBolt11InvoiceLive (request : LiveInvoiceRequest) (paymentHash : Str)
    (created persists : Bool) (now : ℕ) : Except LivePaymentError Unit × LiveNode :=
  match hexDecode32 paymentHash with
  | none => (.error .paymentHashInvalid, s)
  | some paymentHash =>
    if hashHex paymentHash ∈ s.hodlPaymentHashes
        ∨ (s.livePayments.lookup (hashHex paymentHash)).isSome then
      (.error .paymentHashAlreadyUsed, s)
    else
      match parseContractId env request.contractId with
      | .error e => (.error e, s)
      | .ok contractId =>
        if created then
          (if persists then .ok () else .error (.message "failed to persist"),
            { s.mint env paymentHash request.amtMsat request.expirySec contractId
                request.assetAmount now with
              hodlPaymentHashes := s.hodlPaymentHashes.insert (hashHex paymentHash) })
        else (.error (.message "failed to create HODL invoice"), s)

/-! ### Invoices for an invoice host -/

def derivePreimage (hashIndex : ℕ) : Except JsonRpcErrorWire (PaymentPreimage × PaymentHash) := do
  let root ← env.preimageRoot
  if hashIndex < asyncOrderFirstHashIndex ∨ asyncPaymentsBip32MaxChildIndex < hashIndex then
    .error .invalidHashBatch
  else
    let preimage ← root hashIndex
    .ok (preimage, env.paymentHashOf preimage)

def requestedAsset (assetId : Option Str) (assetAmount : Option ℕ) :
    Except JsonRpcErrorWire (Option ContractId × Option ℕ) :=
  match assetId, assetAmount with
  | some id, some amount =>
    match env.contractIdFromStr id with
    | none => .error (.invalidParams "invalid_asset_id")
    | some contract => .ok (some contract, some amount)
  | none, none => .ok (none, none)
  | _, _ => .error (.invalidParams "incomplete_rgb_info")

/-- An earlier invoice with the hash can still be paid. -/
def staleFlow (hashHex : Str) : Bool :=
  (s.asyncRecipientPreimages.lookup hashHex).isSome ||
    (s.livePayments.lookup hashHex).any fun p =>
      p.status ∈ [LivePaymentStatus.pending, .claimable, .claiming]

/-- The checks of a request for an invoice: the preimage and the payment hash of the
invoice, and its asset. -/
def checkRequestInvoice (params : Option AsyncOrderRequestInvoiceParamsWire) :
    Except JsonRpcErrorWire ((PaymentPreimage × PaymentHash) × Option ContractId × Option ℕ
      × AsyncOrderRequestInvoiceParamsWire) :=
  match params with
  | none => .error (.invalidParams "invalid_params")
  | some params =>
    match parseU64 params.hashIndex with
    | none => .error (.invalidParams "invalid_hash_index")
    | some hashIndex =>
      if params.assetAmount = some 0 then .error (.invalidParams "invalid_asset_amount")
      else if trim params.descriptionHash = [] then
        .error (.invalidParams "invalid_description_hash")
      else do
        let (contractId, assetAmount) ← requestedAsset env params.assetId params.assetAmount
        let material ← derivePreimage env hashIndex
        if hashHex material.2 ≠ toLowercase (trim params.paymentHash) then
          .error ⟨1104, "invoice_hash_mismatch"⟩
        else if s.staleFlow (hashHex material.2) then .error ⟨1105, "stale_flow"⟩
        else if hexDecode32 (trim params.descriptionHash) = none then
          .error (.invalidParams "invalid_description_hash")
        else .ok (material, contractId, assetAmount, params)

/-- Makes the invoice that an invoice host requests.  `created` says whether LDK could make
the invoice. -/
def processOneRequestInvoice (params : Option AsyncOrderRequestInvoiceParamsWire)
    (created : Bool) (now : ℕ) : Except JsonRpcErrorWire Str × LiveNode :=
  match s.checkRequestInvoice env params with
  | .error e => (.error e, s)
  | .ok ((preimage, paymentHash), contractId, assetAmount, params) =>
    if created then
      (.ok (hashHex paymentHash),
        { s.mint env paymentHash (some params.amountMsat) params.invoiceExpirySec contractId
            assetAmount now with
          asyncRecipientPreimages :=
            s.asyncRecipientPreimages.insert (hashHex paymentHash) preimage })
    else (.error (.internalError "request_invoice_create_failed"), s)

/-! ### Events -/

/-- The record of the payment says that it has expired. -/
def expired (c : LiveClaimable) (now : ℕ) : Bool :=
  (s.livePayments.lookup (hashHex c.paymentHash)).any fun rec => rec.expiresAt.any (now ≥ ·)

/-- The record of the payment says that more was expected. -/
def underpaid (c : LiveClaimable) : Bool :=
  (s.livePayments.lookup (hashHex c.paymentHash)).any fun rec =>
    rec.amtMsat.any (c.amountMsat < ·)

/-- The preimage that a payment comes with, and whether the invoice was made for a hash whose
preimage LDK does not know. -/
def purposePreimage : PaymentPurpose → Option PaymentPreimage × Bool
  | .spontaneousPayment preimage => (some preimage, false)
  | .bolt11InvoicePayment preimage _ => (preimage, preimage.isNone)
  | _ => (none, false)

def paymentClaimable (c : LiveClaimable) (now : ℕ) : LiveNode :=
  let hashHex := hashHex c.paymentHash
  if s.expired c now || s.underpaid c then
    s.upsertInboundLivePayment hashHex .failed c.amountMsat now
  else
    match s.asyncRecipientPreimages.lookup hashHex with
    | some preimage =>
      let s :=
        { s with
          asyncRecipientPreimages := s.asyncRecipientPreimages.erase hashHex
          hodlPaymentHashes := s.hodlPaymentHashes.filter (· ≠ hashHex) }
      (s.claimFunds preimage c now).upsertInboundLivePayment hashHex .pending c.amountMsat now
    | none =>
      let (preimage, externalHashInvoice) := purposePreimage c.purpose
      if externalHashInvoice ∨ hashHex ∈ s.hodlPaymentHashes then
        let s :=
          { s with
            hodlPaymentHashes := s.hodlPaymentHashes.insert hashHex
            hodlClaimDeadlines :=
              match c.claimDeadline with
              | some deadline => s.hodlClaimDeadlines.insert hashHex deadline
              | none => s.hodlClaimDeadlines }
        s.upsertInboundLivePayment hashHex .claimable c.amountMsat now
      else
        match preimage with
        | some preimage =>
          (s.claimFunds preimage c now).upsertInboundLivePayment hashHex .pending
            c.amountMsat now
        | none => s

/-! ### HODL invoices -/

/-- The checks of a call for a HODL invoice, of the record of its payment.  They pass if the
payment is claimable. -/
def checkClaimableStatus (paymentHash : Str) : Except LivePaymentError LivePaymentStatus :=
  match s.livePayments.lookup paymentHash with
  | none => .error .lnInvoiceUnknown
  | some payment =>
    match payment.status with
    | .succeeded => .ok .succeeded
    | .claiming => .error .lnInvoiceSettling
    | .claimable => .ok .claimable
    | _ => .error .lnInvoiceNotClaimable

def parseHodlPreimage (paymentHash paymentPreimage : Str) :
    Except LivePaymentError PaymentPreimage :=
  if paymentHash ∉ s.hodlPaymentHashes then .error .lnInvoiceUnknown
  else
    match hexDecode32 paymentPreimage with
    | none => .error .paymentPreimageInvalid
    | some preimage =>
      match hexDecode32 paymentHash with
      | none => .error .paymentHashInvalid
      | some expectedHash =>
        if env.paymentHashOf preimage ≠ expectedHash then .error .paymentPreimageInvalid
        else .ok preimage

/-- Claims the payment of a HODL invoice, unless it has been claimed. -/
def claimHodlInvoiceLive (paymentHash paymentPreimage : Str) (now : ℕ) :
    Except LivePaymentError Bool × LiveNode :=
  match s.parseHodlPreimage env paymentHash paymentPreimage with
  | .error e => (.error e, s)
  | .ok preimage =>
    match s.checkClaimableStatus paymentHash with
    | .error e => (.error e, s)
    | .ok .succeeded => (.ok false, s)
    | .ok _ =>
      let s := { s with log := .claimedByUser preimage :: s.log }
      let s := s.markLivePayment paymentHash .claiming (some paymentPreimage) now
      (.ok true, { s with hodlClaimDeadlines := s.hodlClaimDeadlines.erase paymentHash })

def cancelHodlInvoiceLive (paymentHash : Str) (now : ℕ) :
    Except LivePaymentError Unit × LiveNode :=
  if paymentHash ∉ s.hodlPaymentHashes then (.error .lnInvoiceUnknown, s)
  else
    match s.checkClaimableStatus paymentHash with
    | .error e => (.error e, s)
    | .ok .succeeded => (.error .lnInvoiceAlreadyClaimed, s)
    | .ok _ =>
      match hexDecode32 paymentHash with
      | none => (.error .paymentHashInvalid, s)
      | some paymentHash =>
        let s := s.markLivePayment (hashHex paymentHash) .cancelled none now
        (.ok (),
          { s with
            hodlClaimDeadlines := s.hodlClaimDeadlines.erase (hashHex paymentHash) })

/-- The payments whose claim deadline has passed. -/
def overdue (height : ℕ) : List Str :=
  (s.hodlClaimDeadlines.entries.filter fun e => height ≥ e.2).map Sigma.fst

/-- Fails a payment back whose claim deadline has passed. -/
def failOverdue (now : ℕ) (hashHex : Str) : LiveNode :=
  { s with
    hodlPaymentHashes := s.hodlPaymentHashes.filter (· ≠ hashHex)
    hodlClaimDeadlines := s.hodlClaimDeadlines.erase hashHex
    livePayments :=
      match s.livePayments.lookup hashHex with
      | none => s.livePayments
      | some rec =>
        s.livePayments.insert hashHex { rec with status := .cancelled, updatedAt := now } }

/-- What a new best block does to the payments. -/
def chainApplyBestBlock (height now : ℕ) : LiveNode :=
  (s.overdue height).foldl (fun s hashHex => s.failOverdue now hashHex) s

/-! ### Payments by the node -/

/-- A payment was handed to LDK: a keysend or the payment of an invoice. -/
def sendLive (paymentHash : PaymentHash) (amtMsat : ℕ) (assetId : Option Str)
    (assetAmount : Option ℕ) (now : ℕ) : LiveNode :=
  { s with
    livePayments := s.livePayments.insert (hashHex paymentHash)
      { status := .pending, amtMsat := some amtMsat, assetId, assetAmount, inbound := false,
        createdAt := now, updatedAt := now } }

end LiveNode

/-! ### Runs -/

inductive LiveEvent where
  | createBolt11Invoice (request : LiveInvoiceRequest) (created : Option PaymentHash)
      (persists : Bool) (now : ℕ)
  | createHodlBolt11Invoice (request : LiveInvoiceRequest) (paymentHash : Str)
      (created persists : Bool) (now : ℕ)
  | requestInvoice (params : Option AsyncOrderRequestInvoiceParamsWire) (created : Bool)
      (now : ℕ)
  | paymentClaimable (c : LiveClaimable) (now : ℕ)
  | paymentClaimed (paymentHash : PaymentHash) (amountMsat now : ℕ)
  | paymentSent (paymentHash : PaymentHash) (preimage : PaymentPreimage) (now : ℕ)
  | paymentFailed (paymentHash : PaymentHash) (now : ℕ)
  | claimHodlInvoice (paymentHash paymentPreimage : Str) (now : ℕ)
  | cancelHodlInvoice (paymentHash : Str) (now : ℕ)
  | bestBlock (height now : ℕ)
  | send (paymentHash : PaymentHash) (amtMsat : ℕ) (assetId : Option Str)
      (assetAmount : Option ℕ) (now : ℕ)
  /-- The page is reloaded. -/
  | reload

namespace LiveNode

def step (env : LiveEnv) (s : LiveNode) : LiveEvent → LiveNode
  | .createBolt11Invoice request created persists now =>
    (s.createBolt11InvoiceLive env request created persists now).2
  | .createHodlBolt11Invoice request paymentHash created persists now =>
    (s.createHodlBolt11InvoiceLive env request paymentHash created persists now).2
  | .requestInvoice params created now => (s.processOneRequestInvoice env params created now).2
  | .paymentClaimable c now => s.paymentClaimable c now
  | .paymentClaimed paymentHash amountMsat now =>
    s.upsertInboundLivePayment (hashHex paymentHash) .succeeded amountMsat now
  | .paymentSent paymentHash preimage now =>
    s.markLivePayment (hashHex paymentHash) .succeeded (some (hexStr preimage.toList)) now
  | .paymentFailed paymentHash now => s.markLivePayment (hashHex paymentHash) .failed none now
  | .claimHodlInvoice paymentHash paymentPreimage now =>
    (s.claimHodlInvoiceLive env paymentHash paymentPreimage now).2
  | .cancelHodlInvoice paymentHash now => (s.cancelHodlInvoiceLive paymentHash now).2
  | .bestBlock height now => s.chainApplyBestBlock height now
  | .send paymentHash amtMsat assetId assetAmount now =>
    s.sendLive paymentHash amtMsat assetId assetAmount now
  | .reload => { log := s.log }

def record (s : LiveNode) (paymentHash : PaymentHash) : Option LivePaymentData :=
  s.livePayments.lookup (hashHex paymentHash)

end LiveNode

theorem hashHex_injective :
  Function.Injective hashHex
  := fun _ _ h => List.Vector.toList_injective (hexStr_injective h)

@[simp]
theorem hashHex_inj {h h' : PaymentHash} :
  hashHex h = hashHex h' ↔ h = h'
  := hashHex_injective.eq_iff

theorem lookup_insert_hashHex {V : Type} (t : Table Str V) (h h' : PaymentHash) (v : V) :
  (t.insert (hashHex h) v).lookup (hashHex h')
    = if h' = h then some v else t.lookup (hashHex h')
  := by
  simp only [Table.lookup_insert_eq, hashHex_inj]

theorem apayHexNibble_hexDigit (v : UInt8) :
  apayHexNibble (hexDigit (v >>> 4)) = some (v >>> 4)
    ∧ apayHexNibble (hexDigit (v &&& 15)) = some (v &&& 15)
    ∧ ((v >>> 4) <<< 4) ||| (v &&& 15) = v
  := by
  have h : ∀ n < 256, let v := UInt8.ofNat n
      apayHexNibble (hexDigit (v >>> 4)) = some (v >>> 4)
        ∧ apayHexNibble (hexDigit (v &&& 15)) = some (v &&& 15)
        ∧ ((v >>> 4) <<< 4) ||| (v &&& 15) = v := by
    decide +kernel
  have hv := h v.toNat v.toNat_lt
  rw [UInt8.ofNat_toNat] at hv
  apply hv

theorem apayDecodePairs_hexStr (v : Bytes) :
  apayDecodePairs (hexStr v) = some v
  := by
  induction v with
  | nil => rfl
  | cons b v ih =>
    obtain ⟨hhi, hlo, hb⟩ := apayHexNibble_hexDigit b
    rw [hexStr, List.flatMap_cons, ← hexStr]
    simp only [List.cons_append, List.nil_append, apayDecodePairs, hhi, hlo, hb, ih,
      Option.bind_eq_bind, Option.bind_some]

theorem hexDecode32_hashHex (h : PaymentHash) :
  hexDecode32 (hashHex h) = some h
  := by
  have hlen : (hexStr h.toList).length % 2 = 0 := by
    rw [length_hexStr]
    omega
  simp only [hexDecode32, hexDecode, hashHex, hlen, if_true, apayDecodePairs_hexStr,
    List.Vector.toList_length, dite_true]
  rfl

/-! ### What a call can do -/

namespace LiveNode

variable (env : LiveEnv) (s : LiveNode)

/-- The same payments, with a HODL invoice more or less and fewer preimages. -/
structure Beside (key : Str) (s s' : LiveNode) : Prop where
  livePayments : s'.livePayments = s.livePayments
  log : s'.log = s.log
  hodl : ∀ k ∈ s'.hodlPaymentHashes, k = key ∨ k ∈ s.hodlPaymentHashes
  preimages : ∀ k p, s'.asyncRecipientPreimages.lookup k = some p →
    s.asyncRecipientPreimages.lookup k = some p

theorem paymentClaimable_cases (c : LiveClaimable) (now : ℕ) :
  ((s.expired c now || s.underpaid c) = true
      ∧ s.paymentClaimable c now
        = s.upsertInboundLivePayment (hashHex c.paymentHash) .failed c.amountMsat now)
    ∨ (s.expired c now || s.underpaid c) = false
      ∧ (s.paymentClaimable c now = s
        ∨ ∃ s', Beside (hashHex c.paymentHash) s s'
          ∧ ((∃ preimage,
              (s.asyncRecipientPreimages.lookup (hashHex c.paymentHash) = some preimage
                ∨ (purposePreimage c.purpose).1 = some preimage)
              ∧ s.paymentClaimable c now
                = (s'.claimFunds preimage c now).upsertInboundLivePayment
                  (hashHex c.paymentHash) .pending c.amountMsat now)
            ∨ s.paymentClaimable c now
              = s'.upsertInboundLivePayment (hashHex c.paymentHash) .claimable c.amountMsat now))
  := by
  cases hrefused : s.expired c now || s.underpaid c with
  | true => exact .inl ⟨rfl, by simp only [paymentClaimable, hrefused, if_true]⟩
  | false =>
    refine .inr ⟨rfl, ?_⟩
    simp only [paymentClaimable, hrefused, Bool.false_eq_true, if_false]
    split
    next preimage hpreimage =>
      refine .inr ⟨_, ?_, .inl ⟨preimage, .inl hpreimage, rfl⟩⟩
      refine ⟨rfl, rfl, fun k hk => .inr (List.mem_of_mem_filter hk), ?_⟩
      intro k p hp
      rw [Table.lookup_erase_eq] at hp
      split_ifs at hp
      apply hp
    next =>
      split
      next =>
        refine .inr ⟨_, ?_, .inr rfl⟩
        exact ⟨rfl, rfl, fun k hk => List.mem_insert_iff.mp hk, fun _ _ hp => hp⟩
      next =>
        split
        next preimage hpreimage =>
          exact .inr ⟨s, ⟨rfl, rfl, fun k hk => .inr hk, fun _ _ hp => hp⟩,
            .inl ⟨preimage, .inr hpreimage, rfl⟩⟩
        next => exact .inl rfl

theorem claimHodlInvoiceLive_cases (paymentHash paymentPreimage : Str) (now : ℕ) :
  (s.claimHodlInvoiceLive env paymentHash paymentPreimage now).2 = s
    ∨ ∃ preimage, paymentHash ∈ s.hodlPaymentHashes
      ∧ hexDecode32 paymentHash = some (env.paymentHashOf preimage)
      ∧ (s.claimHodlInvoiceLive env paymentHash paymentPreimage now).2
        = { ({ s with log := .claimedByUser preimage :: s.log } : LiveNode).markLivePayment
              paymentHash .claiming (some paymentPreimage) now with
            hodlClaimDeadlines := s.hodlClaimDeadlines.erase paymentHash }
  := by
  unfold claimHodlInvoiceLive
  cases hparse : s.parseHodlPreimage env paymentHash paymentPreimage with
  | error e => exact .inl rfl
  | ok preimage =>
    have hhodl : paymentHash ∈ s.hodlPaymentHashes
        ∧ hexDecode32 paymentHash = some (env.paymentHashOf preimage) := by
      unfold parseHodlPreimage at hparse
      split_ifs at hparse with hmem
      split at hparse
      next => cases hparse
      next parsed _ =>
        split at hparse
        next => cases hparse
        next expectedHash hexpected =>
          split_ifs at hparse with heq
          rw [← Except.ok.inj hparse, not_not.mp heq]
          exact ⟨hmem, hexpected⟩
    dsimp only
    split
    · exact .inl rfl
    · exact .inl rfl
    · exact .inr ⟨preimage, hhodl.1, hhodl.2, rfl⟩

theorem cancelHodlInvoiceLive_cases (paymentHash : Str) (now : ℕ) :
  (s.cancelHodlInvoiceLive paymentHash now).2 = s
    ∨ ∃ h, hexDecode32 paymentHash = some h
      ∧ (s.cancelHodlInvoiceLive paymentHash now).2
        = { s.markLivePayment (hashHex h) .cancelled none now with
            hodlClaimDeadlines := s.hodlClaimDeadlines.erase (hashHex h) }
  := by
  unfold cancelHodlInvoiceLive
  split_ifs
  · split
    · exact .inl rfl
    · exact .inl rfl
    · split
      next => exact .inl rfl
      next h hparse => exact .inr ⟨h, hparse, rfl⟩
  · exact .inl rfl

theorem createBolt11InvoiceLive_cases (request : LiveInvoiceRequest)
    (created : Option PaymentHash) (persists : Bool) (now : ℕ) :
  (s.createBolt11InvoiceLive env request created persists now).2 = s
    ∨ ∃ h contractId, created = some h
      ∧ (s.createBolt11InvoiceLive env request created persists now).2
        = s.mint env h request.amtMsat request.expirySec contractId request.assetAmount now
  := by
  unfold createBolt11InvoiceLive
  split
  · exact .inl rfl
  next contractId _ =>
    split
    · exact .inl rfl
    next h => exact .inr ⟨h, contractId, rfl, rfl⟩

/-- The effect of a call that makes a HODL invoice: one for a hash that has a record is
refused. -/
theorem createHodlBolt11InvoiceLive_cases (request : LiveInvoiceRequest) (paymentHash : Str)
    (created persists : Bool) (now : ℕ) :
  (s.createHodlBolt11InvoiceLive env request paymentHash created persists now).2 = s
    ∨ ∃ h contractId, s.record h = none
      ∧ (s.createHodlBolt11InvoiceLive env request paymentHash created persists now).2
        = { s.mint env h request.amtMsat request.expirySec contractId request.assetAmount now with
            hodlPaymentHashes := s.hodlPaymentHashes.insert (hashHex h) }
  := by
  unfold createHodlBolt11InvoiceLive
  split
  next => exact .inl rfl
  next h _ =>
    split
    next => exact .inl rfl
    next hused =>
      rw [not_or, Option.not_isSome_iff_eq_none] at hused
      split
      next => exact .inl rfl
      next contractId _ =>
        split
        next => exact .inr ⟨h, contractId, hused.2, rfl⟩
        next => exact .inl rfl

theorem paymentHashOf_of_derivePreimage {env : LiveEnv} {hashIndex : ℕ}
    {preimage : PaymentPreimage}
    {h : PaymentHash} (hderive : derivePreimage env hashIndex = .ok (preimage, h)) :
  env.paymentHashOf preimage = h
  := by
  obtain ⟨root, _, hderive⟩ := bind_eq_ok.mp hderive
  split_ifs at hderive
  obtain ⟨preimage', _, hderive⟩ := bind_eq_ok.mp hderive
  obtain ⟨rfl, rfl⟩ := Prod.mk.inj (Except.ok.inj hderive)
  rfl

theorem of_checkRequestInvoice {env : LiveEnv} {s : LiveNode}
    {params : Option AsyncOrderRequestInvoiceParamsWire}
    {preimage : PaymentPreimage} {h : PaymentHash}
    {r : Option ContractId × Option ℕ × AsyncOrderRequestInvoiceParamsWire}
    (hcheck : s.checkRequestInvoice env params = .ok ((preimage, h), r)) :
  s.staleFlow (hashHex h) = false ∧ env.paymentHashOf preimage = h
  := by
  unfold checkRequestInvoice at hcheck
  split at hcheck
  next => cases hcheck
  next params =>
    split at hcheck
    next => cases hcheck
    next hashIndex _ =>
      split at hcheck
      next => cases hcheck
      next =>
        split at hcheck
        next => cases hcheck
        next =>
          obtain ⟨asset, _, hcheck⟩ := bind_eq_ok.mp hcheck
          obtain ⟨material, hmaterial, hcheck⟩ := bind_eq_ok.mp hcheck
          split_ifs at hcheck with _ hstale
          obtain ⟨rfl, _⟩ := Prod.mk.inj (Except.ok.inj hcheck)
          exact ⟨by simpa using hstale, paymentHashOf_of_derivePreimage hmaterial⟩

/-- The effect of a request for an invoice: one for a hash whose earlier invoice can still be
paid is refused. -/
theorem processOneRequestInvoice_cases (params : Option AsyncOrderRequestInvoiceParamsWire)
    (created : Bool) (now : ℕ) :
  (s.processOneRequestInvoice env params created now).2 = s
    ∨ ∃ preimage amtMsat expirySec contractId assetAmount,
      s.staleFlow (hashHex (env.paymentHashOf preimage)) = false
      ∧ (s.processOneRequestInvoice env params created now).2
        = { s.mint env (env.paymentHashOf preimage) amtMsat expirySec contractId assetAmount
              now with
            asyncRecipientPreimages := s.asyncRecipientPreimages.insert
              (hashHex (env.paymentHashOf preimage)) preimage }
  := by
  unfold processOneRequestInvoice
  split
  next => exact .inl rfl
  next preimage h contractId assetAmount params hcheck =>
    split_ifs
    · obtain ⟨hstale, rfl⟩ := of_checkRequestInvoice hcheck
      exact .inr ⟨preimage, _, _, contractId, assetAmount, hstale, rfl⟩
    · exact .inl rfl

end LiveNode

end RgbLightning
