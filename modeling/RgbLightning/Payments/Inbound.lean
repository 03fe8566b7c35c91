import RgbLightning.Apay.Wire
import RgbLightning.Node.Events
import RgbLightning.Node.Lightning

/-!
# Payments to this node

A payment to this node is announced by `PaymentClaimable`.  The handler claims it at once,
unless it pays a HODL invoice: then it is recorded as claimable, and waits until
`claimHodlInvoice` releases its preimage, `cancelHodlInvoice` fails it back, or a listing of
payments finds that its invoice or its claim deadline has passed.  `PaymentClaimed` ends it.

What is recorded of an invoice besides its payment does not change, and is read apart from the
payment.
-/

namespace RgbLightning

structure PaymentClaimable where
  paymentHash : PaymentHash
  purpose : PaymentPurpose
  amountMsat : ℕ
  claimDeadline : Option ℕ
  receivingChannelIds : List ChannelId
deriving DecidableEq

/-- What the handlers of payments to this node depend on besides the state of the node. -/
structure InboundEnv where
  ourNodeId : PublicKey
  externalSignerMode : Bool
  /-- Whether there is an external signer. -/
  externalSigner : Bool
  /-- SHA-256. -/
  paymentHashOf : PaymentPreimage → PaymentHash

inductive HodlError where
  | invalidPaymentHash (paymentHash : Str)
  | invalidPaymentPreimage
  | unknownLNInvoice
  | invoiceNotHodl
  | invoiceAlreadyClaimed
  | invoiceSettlingInProgress
  | invoiceNotClaimable
  | claimDeadlineExceeded
  | invoiceExpired
deriving DecidableEq

structure ClaimHodlInvoiceRequest where
  paymentHash : Str
  paymentPreimage : Str
deriving DecidableEq

def Invoice.isHodl (invoice : Option Invoice) : Bool :=
  match invoice.bind Invoice.invoiceType with
  | some (.hodl _) => true
  | _ => false

def unlockInbound {α : Type} (a : α) : Ln α := do
  (unlockCell .inboundPayments).inl
  pure a

/-- Copies the RGB payment info of the channel that delivered the HTLC to the key of the
payment: that of the first channel for which this succeeds. -/
def projectRgbPaymentInfo (paymentHash : PaymentHash) : List ChannelId → Ln Unit
  | [] => pure ()
  | chanId :: receivingChannelIds => do
    let htlcProxyId := hexStr chanId.toList ++ hexStr paymentHash.toList
    match ← (nodeOp (.read (paymentKey true htlcProxyId))).inl with
    | .error _ => projectRgbPaymentInfo paymentHash receivingChannelIds
    | .ok data =>
      match ← lnOp (.write (paymentKey true (hexStr paymentHash.toList)) data) with
      | .ok _ => pure ()
      | .error _ => projectRgbPaymentInfo paymentHash receivingChannelIds

namespace PaymentInfo

variable (payment : PaymentInfo)

/-- A pending payment fails once its invoice has expired. -/
def pendingExpired (now : ℕ) : Bool :=
  payment.status = .pending && payment.expiresAt.any (now > ·)

def expirePending (now : ℕ) : PaymentInfo :=
  if payment.pendingExpired now then { payment with status := .failed, updatedAt := now }
  else payment

/-- Whether a claimable payment can no longer be claimed. -/
def overdue (now height : ℕ) : Bool :=
  payment.status = .claimable &&
    (payment.claimDeadlineHeight.any (height ≥ ·) || payment.expiresAt.any (now ≥ ·))

/-- Why a claimable payment can no longer be claimed. -/
def terminalError (now height : ℕ) : Option HodlError :=
  if payment.claimDeadlineHeight.any (height ≥ ·) then some .claimDeadlineExceeded
  else if payment.expiresAt.any (now ≥ ·) then some .invoiceExpired
  else none

end PaymentInfo

namespace InboundEnv

variable (env : InboundEnv)

/-- A payment preimage written in hexadecimal, if it is the one of the payment hash. -/
def validateAndParsePaymentPreimage (paymentPreimage : Str) (paymentHash : PaymentHash) :
    Option PaymentPreimage :=
  match hexStrToVec paymentPreimage with
  | none => none
  | some v =>
    if hv : v.length = 32 then
      if env.paymentHashOf ⟨v, hv⟩ = paymentHash then some ⟨v, hv⟩ else none
    else none

variable (paymentHash : PaymentHash)

def failHtlcBackwardsAndUpdateInboundPayment (status : HTLCStatus) : Ln Unit := do
  lnOp (.failHtlcBackwards paymentHash)
  (upsertInboundPayment paymentHash status none none none env.ourNodeId none).inl
  (clearRgbPaymentPending paymentHash true).inl

/-! ### Claimable payments -/

/-- The preimage of a payment to an asynchronous recipient, if it can be had now: `.error` asks
for a replay, and `.ok none` is a preimage that is not the right one. -/
def asyncPreimage (payment : PaymentInfo) (invoice : Invoice) :
    Ln (Except ReplayEvent (Option PaymentPreimage)) :=
  match payment.preimage with
  | some preimage => pure (.ok (some preimage))
  | none =>
    if env.externalSignerMode then
      match env.externalSigner, invoice.asyncHostNodeId, invoice.asyncHashIndex with
      | true, some asyncHostNodeId, some asyncHashIndex => do
        match ← lnOp (.getAsyncPaymentPreimage asyncHostNodeId asyncHashIndex
            paymentHash) with
        | some preimageHex =>
          pure (.ok (env.validateAndParsePaymentPreimage preimageHex paymentHash))
        | none => pure (.error .replayEvent)
      | _, _, _ => pure (.error .replayEvent)
    else
      pure (.error .replayEvent)

def settleClaimable (e : PaymentClaimable) (payment : PaymentInfo) (invoice : Invoice) :
    Ln (Except ReplayEvent Unit) :=
  match invoice.invoiceType.getD .autoClaim with
  | .autoClaim =>
    match e.purpose.secrets.1 with
    | none => pure (.error .replayEvent)
    | some claimPreimage => do
      lnOp (.claimFunds claimPreimage)
      pure (.ok ())
  | .hodl true => do
    match ← env.asyncPreimage e.paymentHash payment invoice with
    | .error e => pure (.error e)
    | .ok none =>
      env.failHtlcBackwardsAndUpdateInboundPayment e.paymentHash .failed
      pure (.ok ())
    | .ok (some preimage) =>
      lnOp (.claimFunds preimage)
      pure (.ok ())
  | .hodl false => do
    (upsertInboundPayment e.paymentHash .claimable e.purpose.secrets.1 e.purpose.secrets.2
      (some e.amountMsat) env.ourNodeId e.claimDeadline).inl
    pure (.ok ())

/-- Checks a claimable payment against its record, and settles it. -/
def checkClaimable (e : PaymentClaimable) (payment : PaymentInfo) (invoice : Invoice) :
    Ln (Except ReplayEvent Unit) := do
  let now ← getCurrentTimestamp.inl
  if payment.expiresAt.any (now ≥ ·) then
    env.failHtlcBackwardsAndUpdateInboundPayment e.paymentHash .failed
    pure (.ok ())
  else if payment.amtMsat.any (e.amountMsat < ·) then
    env.failHtlcBackwardsAndUpdateInboundPayment e.paymentHash .failed
    pure (.ok ())
  else
    env.settleClaimable e payment invoice

def paymentClaimable (e : PaymentClaimable) : Ln (Except ReplayEvent Unit) := do
  projectRgbPaymentInfo e.paymentHash e.receivingChannelIds
  match e.purpose with
  | .spontaneousPayment preimage =>
    lnOp (.claimFunds preimage)
    pure (.ok ())
  | _ =>
    let inbound ← (readCell .inboundPayments).inl
    match inbound.lookup e.paymentHash with
    | none => pure (.error .replayEvent)
    | some payment =>
      let invoice ← lnOp (.invoice e.paymentHash)
      env.checkClaimable e payment (invoice.getD ⟨none, none, none⟩)

/-! ### Listings -/

def failAll : List PaymentHash → Ln Unit
  | [] => pure ()
  | paymentHash :: claimablesToFail => do
    env.failHtlcBackwardsAndUpdateInboundPayment paymentHash .failed
    failAll claimablesToFail

/-- Fails the pending payments whose invoices have expired, with the record locked. -/
def failExpiredPending (inbound : Table PaymentHash PaymentInfo) (now : ℕ) : Ln Unit :=
  if inbound.entries.any (·.2.pendingExpired now) then
    (setCell .inboundPayments (Table.map inbound (·.expirePending now)) >>= fun _ =>
      saveCell .inboundPayments).inl
  else
    (unlockCell .inboundPayments).inl

/-- The inbound payments, after those that are overdue have been failed. -/
def listUpdatedInboundPayments : Ln (Table PaymentHash PaymentInfo) := do
  let now ← getCurrentTimestamp.inl
  let height ← lnOp .bestBlockHeight
  let inbound ← (lockCell .inboundPayments).inl
  failExpiredPending inbound now
  let claimablesToFail :=
    (inbound.entries.filter fun entry => entry.2.overdue now height).map Sigma.fst
  if claimablesToFail = [] then
    pure (Table.map inbound (·.expirePending now))
  else
    env.failAll claimablesToFail
    (readCell .inboundPayments).inl

/-! ### HODL invoices -/

/-- What `claimHodlInvoice` decides while it has the record locked. -/
inductive ClaimDecision where
  | refused (e : HodlError)
  | alreadyClaimed
  | terminal (e : HodlError)
  | claiming
deriving DecidableEq

/-- The answer for a payment that is claimed already. -/
def checkClaimed (preimage : PaymentPreimage) (payment : PaymentInfo) : ClaimDecision :=
  if env.paymentHashOf preimage ≠ paymentHash then .refused .invalidPaymentPreimage
  else if payment.preimage.any (· ≠ preimage) then .refused .invalidPaymentPreimage
  else .alreadyClaimed

/-- Marks a claimable payment as being claimed, with its record locked. -/
def startClaiming (payment : PaymentInfo) (inbound : Table PaymentHash PaymentInfo) :
    Ln ClaimDecision := do
  let height ← lnOp .bestBlockHeight
  let now ← getCurrentTimestamp.inl
  match payment.terminalError now height with
  | some e => unlockInbound (.terminal e)
  | none =>
    (setCell .inboundPayments (inbound.insert paymentHash
      { payment with status := .claiming, updatedAt := now }) >>= fun _ =>
        saveCell .inboundPayments).inl
    pure .claiming

def decideClaim (preimage : PaymentPreimage) :
    Ln ClaimDecision := do
  let inbound ← (lockCell .inboundPayments).inl
  match inbound.lookup paymentHash with
  | none => unlockInbound (.refused .unknownLNInvoice)
  | some payment =>
    let invoice ← lnOp (.invoice paymentHash)
    if Invoice.isHodl invoice then
      match payment.status with
      | .succeeded => unlockInbound (env.checkClaimed paymentHash preimage payment)
      | .claiming => unlockInbound (.refused .invoiceSettlingInProgress)
      | .claimable => startClaiming paymentHash payment inbound
      | _ => unlockInbound (.refused .invoiceNotClaimable)
    else
      unlockInbound (.refused .invoiceNotHodl)

/-- Releases the preimage of a claimable payment.  The answer says whether this changed
anything. -/
def claimHodlInvoice (r : ClaimHodlInvoiceRequest) : Ln (Except HodlError Bool) :=
  match validateAndParsePaymentHash r.paymentHash with
  | none => pure (.error (.invalidPaymentHash r.paymentHash))
  | some paymentHash =>
    match env.validateAndParsePaymentPreimage r.paymentPreimage paymentHash with
    | none => pure (.error .invalidPaymentPreimage)
    | some preimage => do
      match ← env.decideClaim paymentHash preimage with
      | .refused e => pure (.error e)
      | .alreadyClaimed => pure (.ok false)
      | .terminal e =>
        env.failHtlcBackwardsAndUpdateInboundPayment paymentHash .failed
        pure (.error e)
      | .claiming =>
        lnOp (.claimFunds preimage)
        pure (.ok true)

def cancelHodlInvoice (paymentHash : Str) : Ln (Except HodlError Unit) :=
  match validateAndParsePaymentHash paymentHash with
  | none => pure (.error (.invalidPaymentHash paymentHash))
  | some paymentHash => do
    let inbound ← (readCell .inboundPayments).inl
    match inbound.lookup paymentHash with
    | none => pure (.error .unknownLNInvoice)
    | some payment =>
      let invoice ← lnOp (.invoice paymentHash)
      if Invoice.isHodl invoice then
        match payment.status with
        | .succeeded => pure (.error .invoiceAlreadyClaimed)
        | .claimable =>
          env.failHtlcBackwardsAndUpdateInboundPayment paymentHash .cancelled
          pure (.ok ())
        | .claiming => pure (.error .invoiceSettlingInProgress)
        | _ => pure (.error .invoiceNotClaimable)
      else
        pure (.error .invoiceNotHodl)

theorem hexStrToVec_of_validatePreimage {s : Str} {preimage : PaymentPreimage}
    (h : env.validateAndParsePaymentPreimage s paymentHash = some preimage) :
  hexStrToVec s = some preimage.toList
  := by
  rw [validateAndParsePaymentPreimage] at h
  split at h
  next => cases h
  next v hv =>
    split_ifs at h
    rw [hv, ← Option.some.inj h]
    rfl

end InboundEnv

/-! ### Spellings -/

def checkChannelId (channelId : Str) : Option ChannelId :=
  validateAndParsePaymentHash channelId

/-- A string of digits is the encoding of its bytes, up to letter case, exactly when the
digits come in pairs: a last digit without a partner is ignored.  So two strings with one
value may differ in such a digit, and in letter case only otherwise. -/
theorem hex_spelling_iff (s : Str) :
  (∀ v, hexStrToVec s = some v → (hexStr v = toLowercase s ↔ Even s.length))
    ∧ (∀ v, hexStrToVec (hexStr v) = some v)
    ∧ ∀ s', Even s'.length →
      ((∃ id, checkChannelId s = some id ∧ checkChannelId s' = some id)
        ∨ (∃ hash, validateAndParsePaymentHash s = some hash
          ∧ validateAndParsePaymentHash s' = some hash)
        ∨ ∃ (env : InboundEnv) (hash : PaymentHash) (preimage : PaymentPreimage),
          env.validateAndParsePaymentPreimage s hash = some preimage
            ∧ env.validateAndParsePaymentPreimage s' hash = some preimage) →
      (toLowercase s = toLowercase s' ↔ Even s.length)
  := by
  refine ⟨fun v => hexStr_eq_toLowercase_iff, hexStrToVec_hexStr, ?_⟩
  rintro s' heven (⟨id, h, h'⟩ | ⟨hash, h, h'⟩ | ⟨env, hash, preimage, h, h'⟩)
  · exact toLowercase_eq_iff (hexStrToVec_of_validate h) (hexStrToVec_of_validate h') heven
  · exact toLowercase_eq_iff (hexStrToVec_of_validate h) (hexStrToVec_of_validate h') heven
  · exact toLowercase_eq_iff (env.hexStrToVec_of_validatePreimage hash h)
      (env.hexStrToVec_of_validatePreimage hash h') heven

theorem hex_spelling_cases :
  (∃ id, checkChannelId (List.replicate 64 65) = some id
      ∧ checkChannelId (List.replicate 64 97) = some id)
    ∧ toLowercase (List.replicate 64 65) = toLowercase (List.replicate 64 97)
  := by
  have hid : ∃ id, checkChannelId (List.replicate 64 65) = some id
      ∧ checkChannelId (List.replicate 64 97) = some id := ⟨_, rfl, rfl⟩
  exact ⟨hid, ((hex_spelling_iff _).2.2 _ (by decide) (.inl hid)).mpr (by decide)⟩

/-- A digit more is a further spelling of a payment hash. -/
theorem hex_spelling_odd :
  ∃ hash, validateAndParsePaymentHash (List.replicate 64 48) = some hash
    ∧ validateAndParsePaymentHash (List.replicate 65 48) = some hash
    ∧ toLowercase (List.replicate 64 48) ≠ toLowercase (List.replicate 65 48)
  := ⟨_, rfl, rfl, by decide⟩

end RgbLightning
