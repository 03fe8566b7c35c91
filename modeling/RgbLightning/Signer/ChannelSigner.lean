import RgbLightning.Lib.Prog
import RgbLightning.Lib.Run
import RgbLightning.Node.Types

/-!
# The external channel signer

The keys of a channel are held by an external signer.  The node talks to it through requests,
each of which is answered or fails.  `ExternalChannelSigner` keeps in memory whether it has told
the backend about the channel (`setupComplete`), and a validation of a holder commitment that it
has put off until then (`deferred`).

The world has what the signer keeps in memory, and a log of the requests with their replies, the
latest first.  The reply to a request is chosen by the environment.

Commitment numbers count down from `initialCommitmentNumber`, and the backend counts up from
zero.
-/

namespace RgbLightning

open Option

def initialCommitmentNumber : ℕ := 2 ^ 48 - 1

/-! ### Requests -/

inductive RlnSignerError where
  | transport (message : String)
  | protocol (message : String)
  | unsupported (message : String)
deriving DecidableEq

structure HTLCOutputInCommitment where
  offered : Bool
  amountMsat : ℕ
  cltvExpiry : ℕ
  paymentHash : PaymentHash
deriving DecidableEq

structure ExternalChannelHtlc where
  side : ℕ
  amountMsat : ℕ
  paymentHashHex : Str
  cltvExpiry : ℕ
deriving DecidableEq

def toExternalHtlcs (htlcs : List HTLCOutputInCommitment) (isRemote : Bool) :
    List ExternalChannelHtlc :=
  htlcs.map fun h =>
    ⟨if h.offered ≠ isRemote then 0 else 1, h.amountMsat, hexStr h.paymentHash.toList,
      h.cltvExpiry⟩

/-- The public keys of a side of a channel, serialized. -/
structure ChannelPublicKeys where
  fundingPubkey : Bytes
  revocationBasepoint : Bytes
  paymentPoint : Bytes
  delayedPaymentBasepoint : Bytes
  htlcBasepoint : Bytes
deriving DecidableEq

/-- What the node knows of a channel.  The features of its type are those that the signer looks
at. -/
structure ChannelParameters where
  isOutboundFromHolder : Bool
  channelValueSatoshis : ℕ
  fundingOutpoint : Option (Str × ℕ)
  holderSelectedContestDelay : ℕ
  counterparty : Option (ChannelPublicKeys × ℕ)
  anchorsZeroFeeHtlcTx : Bool
  anchorsNonzeroFeeHtlcTx : Bool
deriving DecidableEq

def ChannelParameters.channelTypeKind (p : ChannelParameters) : ℕ :=
  if p.anchorsZeroFeeHtlcTx then 2 else if p.anchorsNonzeroFeeHtlcTx then 1 else 0

/-- A commitment transaction of this node.  Signatures are in compact form, and the scripts are
those of its outputs, if they can be derived. -/
structure HolderCommitment where
  commitmentNumber : ℕ
  toBroadcasterValueSat : ℕ
  toCountersignatoryValueSat : ℕ
  feeratePerKw : ℕ
  nondustHtlcs : List HTLCOutputInCommitment
  counterpartySig : Bytes
  counterpartyHtlcSigs : List Bytes
  builtTransaction : Bytes
  isTxColored : Bool
  outputWitnessScripts : Option (List Bytes)
deriving DecidableEq

structure CounterpartyCommitment where
  commitmentNumber : ℕ
  perCommitmentPoint : Bytes
  toBroadcasterValueSat : ℕ
  toCountersignatoryValueSat : ℕ
  feeratePerKw : ℕ
  nondustHtlcs : List HTLCOutputInCommitment
  builtTransaction : Bytes
  isTxColored : Bool
  outputWitnessScripts : Option (List Bytes)
deriving DecidableEq

/-- The validation of a holder commitment, put off. -/
structure DeferredInitialHolderValidation where
  commitmentNumber : ℕ
  toBroadcasterValueSat : ℕ
  toCountersignatoryValueSat : ℕ
  feeratePerKw : ℕ
  nondustHtlcs : List HTLCOutputInCommitment
  counterpartySig : Bytes
  counterpartyHtlcSigs : List Bytes
  commitmentUnsignedTxHex : Option Str
  commitmentPsbtOutputWitnessScriptsHex : Option (List Str)
deriving DecidableEq

structure ValidateHolderCommitment where
  commitmentNumber : ℕ
  feerateSatPerKw : ℕ
  toLocalValueSat : ℕ
  toRemoteValueSat : ℕ
  htlcs : List ExternalChannelHtlc
  counterpartySignatureHex : Str
  counterpartyHtlcSignaturesHex : List Str
  commitmentUnsignedTxHex : Option Str
  commitmentPsbtOutputWitnessScriptsHex : Option (List Str)
deriving DecidableEq

structure SetupChannel where
  isOutbound : Bool
  channelValueSatoshis : ℕ
  pushValueMsat : ℕ
  fundingTxidHex : Str
  fundingVout : ℕ
  holderSelectedContestDelay : ℕ
  counterpartyPubkeys : ChannelPublicKeys
  counterpartySelectedContestDelay : ℕ
  channelTypeKind : ℕ
deriving DecidableEq

structure SignCounterpartyCommitment where
  txHex : Str
  remotePerCommitmentPointHex : Str
  commitmentNumber : ℕ
  feerateSatPerKw : ℕ
  toLocalValueSat : ℕ
  toRemoteValueSat : ℕ
  htlcs : List ExternalChannelHtlc
  preimagesHex : List Str
  commitmentPsbtOutputWitnessScriptsHex : Option (List Str)
deriving DecidableEq

/-- The requests that ask for a signature and touch nothing else. -/
inductive SignOnly where
  | justiceRevokedOutput (txHex : Str) (input amountSat : ℕ) (perCommitmentKeyHex : Str)
  | justiceRevokedHtlc (txHex : Str) (input amountSat : ℕ) (perCommitmentKeyHex : Str)
  | holderHtlcTransaction (txHex : Str) (input : ℕ)
  | counterpartyHtlcTransaction (txHex : Str) (input amountSat : ℕ)
      (perCommitmentPointHex : Str)
  | closingTransaction (txHex : Str)
  | holderAnchorInput (txHex : Str) (input : ℕ)
  | channelAnnouncementWithFundingKey (msgHex : Str)
  | splicingFundingInput (txHex : Str) (input : ℕ)
deriving DecidableEq

inductive ExternalChannelOp where
  | getPerCommitmentPoint (idx : ℕ)
  | releaseCommitmentSecret (idx : ℕ)
  | validateHolderCommitment (r : ValidateHolderCommitment)
  | setupChannel (r : SetupChannel)
  | signCounterpartyCommitment (r : SignCounterpartyCommitment)
  | signHolderCommitment (txHex : Str) (commitmentNumber : ℕ)
  | signOnly (r : SignOnly)
deriving DecidableEq

inductive ExternalChannelResponse where
  | perCommitmentPoint (pointHex : Str)
  | commitmentSecret (secretHex : Str)
  | validationComplete
  | setupComplete
  | signature (signatureHex : Str)
  | signatureWithHtlcs (signatureHex : Str) (htlcSignaturesHex : List Str)
  | other
deriving DecidableEq

abbrev SignerReply : Type := Except RlnSignerError ExternalChannelResponse

instance : DecidableEq SignerReply := fun a b =>
  match a, b with
  | .ok x, .ok y => decidable_of_iff (x = y) (by simp)
  | .error x, .error y => decidable_of_iff (x = y) (by simp)
  | .ok _, .error _ | .error _, .ok _ => .isFalse (by simp)

/-! ### The world of the signer -/

/-- An entry of the log: a request with its reply, or the return of `validateHolderCommitment`
with success. -/
inductive SignerEntry where
  | request (op : ExternalChannelOp) (reply : SignerReply)
  | validated (holderTx : HolderCommitment)
deriving DecidableEq

/-- The memory of the signer, the witness scripts of the thread, and the log. -/
structure SignerWorld where
  setupComplete : Bool := false
  deferred : Option DeferredInitialHolderValidation := none
  witnessScripts : Option (List Str) := none
  log : List SignerEntry := []

/-- The operations of the signer.  `validated` has no effect on the signer: it marks the return
of `validateHolderCommitment` with success. -/
inductive SignerOp where
  | call (op : ExternalChannelOp)
  | loadSetupComplete
  | storeSetupComplete
  | lockDeferred
  | setDeferred (d : Option DeferredInitialHolderValidation)
  | takeWitnessScripts
  | installWitnessScripts (scripts : List Str)
  | validated (holderTx : HolderCommitment)

abbrev SignerOp.Ans : SignerOp → Type
  | .call _ => SignerReply
  | .loadSetupComplete => Bool
  | .storeSetupComplete => Unit
  | .lockDeferred => Option DeferredInitialHolderValidation
  | .setDeferred _ => Unit
  | .takeWitnessScripts => Option (List Str)
  | .installWitnessScripts _ => Unit
  | .validated _ => Unit

abbrev signerInterface : Interface := ⟨SignerOp, SignerOp.Ans⟩

abbrev Signer (α : Type) : Type := Prog signerInterface α

abbrev signerOp (o : SignerOp) : Signer o.Ans := Prog.perform (S := signerInterface) o

namespace SignerWorld

/-- The answers to the operations, for a reply of the backend. -/
def exec (reply : SignerReply) : (o : SignerOp) → SignerWorld → o.Ans × SignerWorld
  | .call op, w => (reply, { w with log := .request op reply :: w.log })
  | .loadSetupComplete, w => (w.setupComplete, w)
  | .storeSetupComplete, w => ((), { w with setupComplete := true })
  | .lockDeferred, w => (w.deferred, w)
  | .setDeferred d, w => ((), { w with deferred := d })
  | .takeWitnessScripts, w => (w.witnessScripts, { w with witnessScripts := none })
  | .installWitnessScripts scripts, w => ((), { w with witnessScripts := some scripts })
  | .validated holderTx, w => ((), { w with log := .validated holderTx :: w.log })

/-- The signer of a node that was started again. -/
def new (w : SignerWorld) : SignerWorld := { log := w.log }

end SignerWorld

/-- The machine of the signer.  A fault is the reply to a request. -/
abbrev signerMachine : Machine signerInterface SignerWorld SignerReply where
  exec reply o w := (some (SignerWorld.exec reply o w).1, (SignerWorld.exec reply o w).2)
  reboot := SignerWorld.new
  calm := .error (.transport "no reply")

/-! ### Validation of holder commitments -/

/-- What is put off of the validation of a holder commitment. -/
def HolderCommitment.defer (holderTx : HolderCommitment) (scripts : Option (List Str)) :
    DeferredInitialHolderValidation where
  commitmentNumber := holderTx.commitmentNumber
  toBroadcasterValueSat := holderTx.toBroadcasterValueSat
  toCountersignatoryValueSat := holderTx.toCountersignatoryValueSat
  feeratePerKw := holderTx.feeratePerKw
  nondustHtlcs := holderTx.nondustHtlcs
  counterpartySig := holderTx.counterpartySig
  counterpartyHtlcSigs := holderTx.counterpartyHtlcSigs
  commitmentUnsignedTxHex :=
    if holderTx.isTxColored || scripts.isSome then some (hexStr holderTx.builtTransaction)
    else none
  commitmentPsbtOutputWitnessScriptsHex := scripts

/-- The request for a validation that was put off. -/
def DeferredInitialHolderValidation.request (pending : DeferredInitialHolderValidation) :
    ValidateHolderCommitment where
  commitmentNumber := initialCommitmentNumber - pending.commitmentNumber
  feerateSatPerKw := pending.feeratePerKw
  toLocalValueSat := pending.toBroadcasterValueSat
  toRemoteValueSat := pending.toCountersignatoryValueSat
  htlcs := toExternalHtlcs pending.nondustHtlcs false
  counterpartySignatureHex := hexStr pending.counterpartySig
  counterpartyHtlcSignaturesHex := pending.counterpartyHtlcSigs.map hexStr
  commitmentUnsignedTxHex := pending.commitmentUnsignedTxHex
  commitmentPsbtOutputWitnessScriptsHex := pending.commitmentPsbtOutputWitnessScriptsHex

def HolderCommitment.request (holderTx : HolderCommitment) (scripts : Option (List Str)) :
    ValidateHolderCommitment where
  commitmentNumber := initialCommitmentNumber - holderTx.commitmentNumber
  feerateSatPerKw := holderTx.feeratePerKw
  toLocalValueSat := holderTx.toBroadcasterValueSat
  toRemoteValueSat := holderTx.toCountersignatoryValueSat
  htlcs := toExternalHtlcs holderTx.nondustHtlcs false
  counterpartySignatureHex := hexStr holderTx.counterpartySig
  counterpartyHtlcSignaturesHex := holderTx.counterpartyHtlcSigs.map hexStr
  commitmentUnsignedTxHex :=
    if holderTx.isTxColored || scripts.isSome then some (hexStr holderTx.builtTransaction)
    else none
  commitmentPsbtOutputWitnessScriptsHex := scripts

def validateHolderCommitmentWithBackend (holderTx : HolderCommitment) : Signer (Option Unit) := do
  let scripts ← signerOp .takeWitnessScripts
  match ← signerOp (.call (.validateHolderCommitment (holderTx.request scripts))) with
  | .ok .validationComplete => pure (some ())
  | _ => pure none

/-- Validates a holder commitment, now or once the channel is set up. -/
def validateHolderCommitment (holderTx : HolderCommitment) : Signer (Option Unit) := do
  if ← signerOp .loadSetupComplete then
    match ← validateHolderCommitmentWithBackend holderTx with
    | some _ =>
      signerOp (.validated holderTx)
      pure (some ())
    | none => pure none
  else
    let scripts ← signerOp .takeWitnessScripts
    signerOp (.setDeferred (some (holderTx.defer scripts)))
    signerOp (.validated holderTx)
    pure (some ())

def replayDeferredInitialHolderValidation : Signer (Option Unit) := do
  match ← signerOp .lockDeferred with
  | none => pure (some ())
  | some pending =>
    match ← signerOp (.call (.validateHolderCommitment pending.request)) with
    | .ok .validationComplete =>
      signerOp (.setDeferred none)
      pure (some ())
    | _ => pure none

/-! ### Setting up the channel -/

/-- The amount pushed to the counterparty, in millisatoshis, as far as the validation that was
put off tells. -/
def deriveInitialPushValueMsat (deferred : Option DeferredInitialHolderValidation)
    (p : ChannelParameters) : Option ℕ :=
  match deferred with
  | none => none
  | some pending =>
    if pending.commitmentNumber ≠ 0 ∨ pending.nondustHtlcs ≠ [] then none
    else
      let pushedSat :=
        if p.isOutboundFromHolder then pending.toCountersignatoryValueSat
        else pending.toBroadcasterValueSat
      if pushedSat * 1000 < 2 ^ 64 then some (pushedSat * 1000) else none

def setupChannel (p : ChannelParameters) : Signer (Except RlnSignerError Unit) :=
  match p.counterparty, p.fundingOutpoint with
  | none, _ =>
    pure (.error (.protocol "missing counterparty channel parameters for external signer setup"))
  | some _, none =>
    pure (.error (.protocol "missing funding outpoint for external signer setup"))
  | some (pubkeys, selectedContestDelay), some (txid, index) => do
    let deferred ← signerOp .lockDeferred
    match ← signerOp (.call (.setupChannel
        { isOutbound := p.isOutboundFromHolder
          channelValueSatoshis := p.channelValueSatoshis
          pushValueMsat := (deriveInitialPushValueMsat deferred p).getD 0
          fundingTxidHex := txid
          fundingVout := index
          holderSelectedContestDelay := p.holderSelectedContestDelay
          counterpartyPubkeys := pubkeys
          counterpartySelectedContestDelay := selectedContestDelay
          channelTypeKind := p.channelTypeKind })) with
    | .error e => pure (.error e)
    | .ok .setupComplete =>
      signerOp .storeSetupComplete
      pure (.ok ())
    | .ok _ => pure (.error (.protocol "unexpected response for setup_channel"))

/-! ### The signer -/

/-- How replies are read: points, secrets and signatures in hexadecimal. -/
structure SignerCodec where
  point : Str → Option PublicKey
  secret : Str → Option (List.Vector UInt8 32)
  signature : Str → Option Bytes

/-- The point of a commitment, as the backend replies.  Before the channel is set up, a request
that fails is answered with the point of the commitment before. -/
def getPerCommitmentPoint (idx : ℕ) : Signer (Except RlnSignerError Str) := do
  match ← signerOp (.call (.getPerCommitmentPoint idx)) with
  | .ok (.perCommitmentPoint pointHex) => pure (.ok pointHex)
  | .ok _ => pure (.error (.protocol "unexpected response for get_per_commitment_point"))
  | .error e =>
    if !(← signerOp .loadSetupComplete) && idx < initialCommitmentNumber then
      match ← signerOp (.call (.getPerCommitmentPoint (idx + 1))) with
      | .error e => pure (.error e)
      | .ok (.perCommitmentPoint pointHex) => pure (.ok pointHex)
      | .ok _ =>
        pure (.error (.protocol "unexpected fallback response for get_per_commitment_point"))
    else
      pure (.error e)

def releaseCommitmentSecret (idx : ℕ) : Signer (Except RlnSignerError Str) := do
  match ← signerOp (.call (.releaseCommitmentSecret idx)) with
  | .error e => pure (.error e)
  | .ok (.commitmentSecret secretHex) => pure (.ok secretHex)
  | .ok _ => pure (.error (.protocol "unexpected response for release_commitment_secret"))

namespace SignerCodec

variable (codec : SignerCodec)

/-- `ChannelSigner::get_per_commitment_point`. -/
def channelPoint (idx : ℕ) : Signer (Option PublicKey) := do
  match ← getPerCommitmentPoint idx with
  | .error _ => pure none
  | .ok pointHex => pure (codec.point pointHex)

/-- `ChannelSigner::release_commitment_secret`. -/
def channelSecret (idx : ℕ) : Signer (Option (List.Vector UInt8 32)) := do
  match ← releaseCommitmentSecret idx with
  | .error _ => pure none
  | .ok secretHex => pure (codec.secret secretHex)

/-- The scripts of a commitment of the counterparty, for a request to sign it: `.error` if they
cannot be derived. -/
def counterpartyScripts (tx : CounterpartyCommitment) : Except Unit (Option (List Str)) :=
  if tx.isTxColored then
    match tx.outputWitnessScripts with
    | some scripts => .ok (some (scripts.map hexStr))
    | none => .error ()
  else .ok none

def signCounterpartyCommitment (p : ChannelParameters) (tx : CounterpartyCommitment)
    (inboundHtlcPreimages outboundHtlcPreimages : List PaymentPreimage) :
    Signer (Option (Bytes × List Bytes)) := do
  match ← setupChannel p with
  | .error _ => pure none
  | .ok _ =>
    match ← replayDeferredInitialHolderValidation with
    | none => pure none
    | some _ =>
      match counterpartyScripts tx with
      | .error _ => pure none
      | .ok scripts =>
        match ← signerOp (.call (.signCounterpartyCommitment
            { txHex := hexStr tx.builtTransaction
              remotePerCommitmentPointHex := hexStr tx.perCommitmentPoint
              commitmentNumber := initialCommitmentNumber - tx.commitmentNumber
              feerateSatPerKw := tx.feeratePerKw
              toLocalValueSat := tx.toCountersignatoryValueSat
              toRemoteValueSat := tx.toBroadcasterValueSat
              htlcs := toExternalHtlcs tx.nondustHtlcs true
              preimagesHex :=
                (inboundHtlcPreimages ++ outboundHtlcPreimages).map (hexStr ·.toList)
              commitmentPsbtOutputWitnessScriptsHex := scripts })) with
        | .ok (.signatureWithHtlcs signatureHex htlcSignaturesHex) =>
          match codec.signature signatureHex, htlcSignaturesHex.mapM codec.signature with
          | some sig, some htlcSigs => pure (some (sig, htlcSigs))
          | _, _ => pure none
        | _ => pure none

/-- Installs the scripts of a colored commitment for its validation. -/
def installScripts (holderTx : HolderCommitment) : Signer Unit :=
  match holderTx.isTxColored, holderTx.outputWitnessScripts with
  | true, some scripts => signerOp (.installWitnessScripts (scripts.map hexStr))
  | _, _ => pure ()

def signHolderCommitment (p : ChannelParameters) (holderTx : HolderCommitment) :
    Signer (Option Bytes) := do
  match ← setupChannel p with
  | .error _ => pure none
  | .ok _ =>
    installScripts holderTx
    match ← validateHolderCommitmentWithBackend holderTx with
    | none => pure none
    | some _ =>
      match ← signerOp (.call (.signHolderCommitment (hexStr holderTx.builtTransaction)
          (initialCommitmentNumber - holderTx.commitmentNumber))) with
      | .ok (.signature signatureHex) => pure (codec.signature signatureHex)
      | _ => pure none

/-- The signatures that are asked for and touch nothing else. -/
def signOnly (r : SignOnly) : Signer (Option Bytes) := do
  match ← signerOp (.call (.signOnly r)) with
  | .ok (.signature signatureHex) => pure (codec.signature signatureHex)
  | _ => pure none

end SignerCodec

/-! ### Points of commitments -/

section Points

variable (codec : SignerCodec) (w : SignerWorld) (idx : ℕ) (reply f reply' : SignerReply)

/-- The replies to the requests of `channelPoint`. -/
abbrev pointFates : List (Fate SignerReply) := [.go reply, .go f, .go reply']

/-- A point returned by the signer is a reply to a request for the point of that commitment, made
by the same call. -/
def PointOfIdx : Prop :=
  ∀ point, (codec.channelPoint idx).result signerMachine { w with log := [] }
      (pointFates reply f reply') = some (some point) →
    ∃ pointHex, codec.point pointHex = some point ∧
      .request (.getPerCommitmentPoint idx) (.ok (.perCommitmentPoint pointHex)) ∈
        ((codec.channelPoint idx).world signerMachine { w with log := [] }
          (pointFates reply f reply')).log

/-- The request for a point fails before the channel is set up, and the request for the point of
the commitment before is answered. -/
def FallsBack : Prop :=
  (∃ e, reply = .error e) ∧ w.setupComplete = false ∧ idx < initialCommitmentNumber ∧
    ∃ pointHex point, reply' = .ok (.perCommitmentPoint pointHex)
      ∧ codec.point pointHex = some point

theorem channelPoint_ok (response : ExternalChannelResponse) :
  PointOfIdx codec w idx (.ok response) f reply'
  := by
  intro point hresult
  cases response with
  | perCommitmentPoint pointHex =>
    refine ⟨pointHex, ?_, List.mem_singleton_self _⟩
    apply some.inj hresult
  | _ => cases hresult

theorem channelPoint_error (e : RlnSignerError) :
  (codec.channelPoint idx).result signerMachine { w with log := [] }
      (pointFates (.error e) f reply') =
    if w.setupComplete = false ∧ idx < initialCommitmentNumber then
      match reply' with
      | .ok (.perCommitmentPoint pointHex) => some (codec.point pointHex)
      | _ => some none
    else some none
  := by
  obtain ⟨setupComplete, deferred, scripts, log⟩ := w
  cases setupComplete with
  | true => rfl
  | false =>
    by_cases hidx : idx < initialCommitmentNumber
    · rw [if_pos ⟨rfl, hidx⟩]
      simp only [SignerCodec.channelPoint, getPerCommitmentPoint, hidx]
      cases reply' with
      | error e' => rfl
      | ok response => cases response <;> rfl
    · rw [if_neg fun h => hidx h.2]
      simp only [SignerCodec.channelPoint, getPerCommitmentPoint, hidx]
      rfl

/-- After a request that fails, no other request is for the same point. -/
theorem channelPoint_error_log (e : RlnSignerError) (response : ExternalChannelResponse) :
  .request (.getPerCommitmentPoint idx) (.ok response) ∉
    ((codec.channelPoint idx).world signerMachine { w with log := [] }
      (pointFates (.error e) f reply')).log
  := by
  have hfirst : SignerEntry.request (.getPerCommitmentPoint idx) (.ok response) ∉
      [.request (.getPerCommitmentPoint idx) (.error e)] := by
    rw [List.mem_singleton]
    rintro ⟨⟩
  have hsecond : SignerEntry.request (.getPerCommitmentPoint idx) (.ok response) ∉
      [.request (.getPerCommitmentPoint (idx + 1)) reply',
        .request (.getPerCommitmentPoint idx) (.error e)] := by
    rw [List.mem_cons, not_or]
    refine ⟨?_, hfirst⟩
    intro heq
    injection heq with hop _
    injection hop with hidx
    omega
  obtain ⟨setupComplete, deferred, scripts, log⟩ := w
  cases setupComplete with
  | true => apply hfirst
  | false =>
    by_cases hidx : idx < initialCommitmentNumber
    · simp only [SignerCodec.channelPoint, getPerCommitmentPoint, hidx]
      cases reply' with
      | error e' => apply hsecond
      | ok response' => cases response' <;> apply hsecond
    · simp only [SignerCodec.channelPoint, getPerCommitmentPoint, hidx]
      apply hfirst

/-- The point that the signer returns for a commitment is a reply to a request for it, unless that
request failed before the channel was set up and the request for the point of the commitment
before was answered. -/
theorem channelPoint_of_idx_iff :
  PointOfIdx codec w idx reply f reply' ↔ ¬ FallsBack codec w idx reply reply'
  := by
  cases reply with
  | ok response =>
    apply iff_of_true (channelPoint_ok codec w idx f reply' response)
    rintro ⟨⟨e, herror⟩, -⟩
    cases herror
  | error e =>
    constructor
    · rintro hpoint ⟨-, hsetup, hidx, pointHex, point, rfl, hcodec⟩
      obtain ⟨pointHex', -, hmem⟩ := hpoint point (by
        rw [channelPoint_error, if_pos ⟨hsetup, hidx⟩]
        apply congrArg some hcodec)
      apply channelPoint_error_log codec w idx f _ e _ hmem
    · intro hno point hresult
      rw [channelPoint_error] at hresult
      split_ifs at hresult with hfalls
      · split at hresult
        · exact absurd ⟨⟨e, rfl⟩, hfalls.1, hfalls.2, _, point, rfl, some.inj hresult⟩ hno
        · cases hresult
      · cases hresult

end Points

/-- A codec for samples, that reads every text. -/
def sampleCodec : SignerCodec where
  point _ := some (List.Vector.replicate 33 2)
  secret _ := some (List.Vector.replicate 32 1)
  signature := some

/-- The backend fails to answer the request for the point of commitment 5, and replies to the
next one: the signer returns a point without any reply for commitment 5. -/
theorem channelPoint_of_idx_fallback :
  ¬ PointOfIdx sampleCodec {} 5 (.error (.transport "timeout")) (.ok .other)
    (.ok (.perCommitmentPoint []))
  := by
  intro hpoint
  obtain ⟨pointHex, -, hmem⟩ := hpoint (List.Vector.replicate 33 2) (by decide)
  revert hmem
  apply channelPoint_error_log

/-! ### The pushed amount -/

section Push

variable (w : SignerWorld) (p : ChannelParameters) (holderTx : HolderCommitment)
  (f reply : SignerReply) (fates : List (Fate SignerReply))

/-- What a commitment gives to the side that did not fund the channel. -/
def HolderCommitment.pushedSat (holderTx : HolderCommitment) (p : ChannelParameters) : ℕ :=
  if p.isOutboundFromHolder then holderTx.toCountersignatoryValueSat
  else holderTx.toBroadcasterValueSat

/-- The request that sets up the channel is sent, and carries the amount that the commitment
gives to the side that did not fund it. -/
def CarriesPush : Prop :=
  ∃ r, .request (.setupChannel r) reply ∈
      ((setupChannel p).world signerMachine { w with log := [] }
        (.go f :: .go reply :: fates)).log
    ∧ r.pushValueMsat = 1000 * holderTx.pushedSat p

theorem log_setupChannel (hcounterparty : p.counterparty.isSome)
    (hfunding : p.fundingOutpoint.isSome) :
  ∃ r, ((setupChannel p).world signerMachine { w with log := [] }
      (.go f :: .go reply :: fates)).log = [.request (.setupChannel r) reply]
    ∧ r.pushValueMsat = (deriveInitialPushValueMsat w.deferred p).getD 0
  := by
  obtain ⟨⟨pubkeys, delay⟩, hcounterparty⟩ := isSome_iff_exists.mp hcounterparty
  obtain ⟨⟨txid, index⟩, hfunding⟩ := isSome_iff_exists.mp hfunding
  rw [setupChannel, hcounterparty, hfunding]
  cases reply with
  | error e => exact ⟨_, rfl, rfl⟩
  | ok response =>
    cases response with
    | setupComplete => rcases fates with _ | ⟨_ | _, _⟩ <;> exact ⟨_, rfl, rfl⟩
    | _ => exact ⟨_, rfl, rfl⟩

/-- Commitments are numbered downwards, so the first one has the number
`initialCommitmentNumber`; the amount is derived for the number zero only. -/
theorem deriveInitialPushValueMsat_initial (scripts : Option (List Str))
    (hinitial : holderTx.commitmentNumber = initialCommitmentNumber) :
  deriveInitialPushValueMsat (some (holderTx.defer scripts)) p = none
  := by
  rw [deriveInitialPushValueMsat, if_pos]
  left
  change holderTx.commitmentNumber ≠ 0
  rw [hinitial]
  decide

/-- While the validation of the initial commitment is put off, the request that sets up the
channel carries the pushed amount exactly when nothing was pushed. -/
theorem setupChannel_push_iff (scripts : Option (List Str))
    (hdeferred : w.deferred = some (holderTx.defer scripts))
    (hinitial : holderTx.commitmentNumber = initialCommitmentNumber)
    (hcounterparty : p.counterparty.isSome) (hfunding : p.fundingOutpoint.isSome) :
  CarriesPush w p holderTx f reply fates ↔ holderTx.pushedSat p = 0
  := by
  obtain ⟨r, hlog, hvalue⟩ := log_setupChannel w p f reply fates hcounterparty hfunding
  rw [hdeferred, deriveInitialPushValueMsat_initial p holderTx scripts hinitial] at hvalue
  constructor
  · rintro ⟨r', hr', hpush⟩
    rw [hlog, List.mem_singleton] at hr'
    obtain ⟨rfl⟩ := hr'
    rw [hvalue, getD_none] at hpush
    omega
  · intro hzero
    use r
    rw [hlog, hvalue, hzero]
    exact ⟨List.mem_singleton_self _, rfl⟩

end Push

/-- The initial commitment of a channel of 100000 satoshis that pushes an amount. -/
def sampleInitial (pushed : ℕ) : HolderCommitment where
  commitmentNumber := initialCommitmentNumber
  toBroadcasterValueSat := 100000 - pushed
  toCountersignatoryValueSat := pushed
  feeratePerKw := 253
  nondustHtlcs := []
  counterpartySig := []
  counterpartyHtlcSigs := []
  builtTransaction := []
  isTxColored := false
  outputWitnessScripts := none

def sampleParameters : ChannelParameters where
  isOutboundFromHolder := true
  channelValueSatoshis := 100000
  fundingOutpoint := some ([], 0)
  holderSelectedContestDelay := 144
  counterparty := some (⟨[], [], [], [], []⟩, 144)
  anchorsZeroFeeHtlcTx := true
  anchorsNonzeroFeeHtlcTx := false

theorem setupChannel_push_nothing :
  let w := (validateHolderCommitment (sampleInitial 0)).world signerMachine {} []
  CarriesPush w sampleParameters (sampleInitial 0) (.ok .other) (.ok .setupComplete) []
  := (setupChannel_push_iff _ _ _ _ _ _ none rfl rfl rfl rfl).mpr rfl

/-- The channel pushes 20000 satoshis, and the request says that nothing is pushed. -/
theorem setupChannel_push_lost :
  let w := (validateHolderCommitment (sampleInitial 20000)).world signerMachine {} []
  ¬ CarriesPush w sampleParameters (sampleInitial 20000) (.ok .other) (.ok .setupComplete) []
  := by
  rintro w ⟨r, hr, hpush⟩
  obtain ⟨r', hlog, hvalue⟩ := log_setupChannel w sampleParameters (.ok .other)
    (.ok .setupComplete) [] rfl rfl
  rw [hlog, List.mem_singleton] at hr
  obtain ⟨rfl⟩ := hr
  rw [hvalue] at hpush
  revert hpush
  decide +kernel

end RgbLightning
