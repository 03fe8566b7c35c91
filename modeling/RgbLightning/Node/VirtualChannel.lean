import RgbLightning.Payments.Balances

/-!
# Virtual channels without value for the client

Before a virtual channel is removed, the node checks that the counterparty has nothing in it: no
HTLC in flight, no RGB payment that has not ended, no bitcoin, and no RGB balance.  The RGB info
of a channel is stored twice, as the final one and as the pending one, and the two should agree.

`ensureNoClientValue` copies the final info over the pending one before it compares them.
-/

namespace RgbLightning

structure RgbChannelInfo where
  contractId : ContractId
  schema : AssetSchema
  localRgbAmount : ℕ
  remoteRgbAmount : ℕ
  batchTransferIdx : Option ℤ
  counterpartyKnowsAsset : Bool
deriving DecidableEq

/-- What the check reads of a channel. -/
structure VirtualChannelDetails where
  channelId : ChannelId
  hasInflightHtlcs : Bool
  counterpartyBalanceSatsFloor : Option ℕ

/-- The RGB infos, by channel, the pending ones and the final ones. -/
abbrev RgbInfoStore : Type := Table (Str × Bool) RgbChannelInfo

/-- The places at which the check reads an RGB info. -/
inductive RgbInfoRead where
  | beforeWrite
  | final
  | pending
deriving DecidableEq

/-- What the store does during a call: the keys of the payment markers of a direction, if they can
be listed, and which of the reads fail. -/
structure StoreReplies where
  list : Bool → Option (List Str)
  fails : RgbInfoRead → Bool

/-- Whether a key is that of a marker of a payment over a channel that has not ended. -/
def isTempArtifact (channelIdHex key : Str) : Bool :=
  channelIdHex <+: key ∧ channelIdHex.length < key.length ∧ str "_pending" <:+ key

/-- Looks for payments over a channel that have not ended. -/
def checkTempArtifacts (channelIdHex : Str) (keys : Option (List Str)) : Except String Unit :=
  match keys with
  | none => .error "virtual cleanup could not inspect RGB temp artifacts"
  | some keys =>
    if keys.any (isTempArtifact channelIdHex) then
      .error "virtual cleanup is blocked while RGB payment temp artifacts remain"
    else .ok ()

def checkBalanceFloor (floor : Option ℕ) : Except String Unit :=
  match floor with
  | some 0 => .ok ()
  | some balanceFloor =>
    .error ("virtual cleanup is blocked while counterparty BTC balance floor is "
      ++ toString balanceFloor ++ " sat")
  | none => .error "virtual cleanup requires an exact counterparty BTC balance floor proof"

/-- The checks that do not look at the RGB infos. -/
def checkPayments (details : VirtualChannelDetails) (replies : StoreReplies) :
    Except String Unit := do
  if details.hasInflightHtlcs then
    .error "virtual cleanup is blocked while HTLCs are still in flight"
  else
    checkTempArtifacts (hexStr details.channelId.toList) (replies.list true)
    checkTempArtifacts (hexStr details.channelId.toList) (replies.list false)
    checkBalanceFloor details.counterpartyBalanceSatsFloor

/-- Whether two RGB infos agree in what the check compares. -/
def RgbChannelInfo.Agrees (info info' : RgbChannelInfo) : Prop :=
  info.contractId = info'.contractId ∧ info.schema = info'.schema
    ∧ info.localRgbAmount = info'.localRgbAmount ∧ info.remoteRgbAmount = info'.remoteRgbAmount
deriving Decidable

def compareRgbInfos (final pending : Option RgbChannelInfo) : Except String Unit :=
  match final, pending with
  | none, none => .ok ()
  | some final, some pending =>
    if final.Agrees pending then
      if final.remoteRgbAmount ≠ 0 then
        .error ("virtual cleanup is blocked while counterparty RGB balance is "
          ++ toString final.remoteRgbAmount)
      else .ok ()
    else .error "virtual cleanup is blocked while RGB channel state is still diverged"
  | _, _ => .error "virtual cleanup requires both final and pending RGB channel state"

namespace VirtualChannelDetails

variable (details : VirtualChannelDetails) (replies : StoreReplies) (s : RgbInfoStore)

/-- The name of the final or the pending RGB info of a channel. -/
def infoKey (pending : Bool) : Str × Bool := (hexStr details.channelId.toList, pending)

def readRgbChannelInfo (place : RgbInfoRead) (pending : Bool) : Option RgbChannelInfo :=
  if replies.fails place then none else s.lookup (details.infoKey pending)

/-- The store after the final RGB info is copied over the pending one. -/
def copyFinal : RgbInfoStore :=
  match details.readRgbChannelInfo replies s .beforeWrite false with
  | some rgbState => s.insert (details.infoKey true) rgbState
  | none => s

/-- The check, with the store it leaves. -/
def ensureNoClientValue : Except String Unit × RgbInfoStore :=
  match checkPayments details replies with
  | .error e => (.error e, s)
  | .ok _ =>
    let s' := details.copyFinal replies s
    (compareRgbInfos (details.readRgbChannelInfo replies s' .final false)
      (details.readRgbChannelInfo replies s' .pending true), s')

/-- The counterparty has no RGB balance, as far as the RGB infos tell: there are none, or both, and
these agree. -/
def NoClientRgb : Prop :=
  (s.lookup (details.infoKey false) = none ∧ s.lookup (details.infoKey true) = none) ∨
    ∃ final pending, s.lookup (details.infoKey false) = some final ∧
      s.lookup (details.infoKey true) = some pending ∧ final.Agrees pending
        ∧ final.remoteRgbAmount = 0

/-- The check succeeds only if the counterparty had no RGB balance before it, and leaves the RGB
infos alone. -/
def ChecksOnly : Prop :=
  ((details.ensureNoClientValue replies s).1 = .ok () → details.NoClientRgb s) ∧
    ∀ key, (details.ensureNoClientValue replies s).2.lookup key = s.lookup key

/-- If the check gets to the RGB infos, the final one that it copies is the pending one already,
and it does not fail to read both while they show a balance of the counterparty. -/
def CopiesNothing : Prop :=
  checkPayments details replies = .ok () →
    (∀ rgbState, details.readRgbChannelInfo replies s .beforeWrite false = some rgbState →
      s.lookup (details.infoKey true) = some rgbState) ∧
    (details.readRgbChannelInfo replies s .final false = none →
      details.readRgbChannelInfo replies s .pending true = none → details.NoClientRgb s)

end VirtualChannelDetails

/-! ### What the check does -/

section Check

variable {details : VirtualChannelDetails} {replies : StoreReplies} {s : RgbInfoStore}

theorem compareRgbInfos_ok {final pending : Option RgbChannelInfo}
    (h : compareRgbInfos final pending = .ok ()) :
  (final = none ∧ pending = none) ∨ ∃ info info', final = some info ∧ pending = some info'
    ∧ info.Agrees info' ∧ info.remoteRgbAmount = 0
  := by
  cases final with
  | none =>
    cases pending with
    | none => exact .inl ⟨rfl, rfl⟩
    | some info' => cases h
  | some info =>
    cases pending with
    | none => cases h
    | some info' =>
      rw [compareRgbInfos] at h
      split_ifs at h with hagrees hamount
      exact .inr ⟨info, info', rfl, rfl, hagrees, not_not.mp hamount⟩

theorem lookup_of_read {place : RgbInfoRead} {pending : Bool} {info : RgbChannelInfo}
    (h : details.readRgbChannelInfo replies s place pending = some info) :
  s.lookup (details.infoKey pending) = some info
  := by
  rw [VirtualChannelDetails.readRgbChannelInfo] at h
  split_ifs at h
  apply h

theorem read_congr {s' : RgbInfoStore} (h : ∀ key, s'.lookup key = s.lookup key)
    (place : RgbInfoRead) (pending : Bool) :
  details.readRgbChannelInfo replies s' place pending
    = details.readRgbChannelInfo replies s place pending
  := by
  rw [VirtualChannelDetails.readRgbChannelInfo, VirtualChannelDetails.readRgbChannelInfo, h]

/-- The copy changes nothing exactly if the final info is the pending one already. -/
theorem copyFinal_eq_iff :
  (∀ key, (details.copyFinal replies s).lookup key = s.lookup key) ↔
    ∀ rgbState, details.readRgbChannelInfo replies s .beforeWrite false = some rgbState →
      s.lookup (details.infoKey true) = some rgbState
  := by
  rw [VirtualChannelDetails.copyFinal]
  cases details.readRgbChannelInfo replies s .beforeWrite false with
  | none =>
    apply iff_of_true
    · intro key
      rfl
    · rintro rgbState ⟨⟩
  | some info =>
    constructor
    · rintro hcopy rgbState ⟨⟩
      rw [← hcopy, Table.lookup_insert_eq, if_pos rfl]
    · intro hpending key
      dsimp only
      rw [Table.lookup_insert_eq]
      split_ifs with hkey
      · rw [hkey, hpending info rfl]
      · rfl

/-- The check only checks, exactly if it copies nothing. -/
theorem ensureNoClientValue_checksOnly_iff (details : VirtualChannelDetails)
    (replies : StoreReplies) (s : RgbInfoStore) :
  details.ChecksOnly replies s ↔ details.CopiesNothing replies s
  := by
  rw [VirtualChannelDetails.ChecksOnly, VirtualChannelDetails.CopiesNothing,
    VirtualChannelDetails.ensureNoClientValue]
  cases hpayments : checkPayments details replies with
  | error e =>
    apply iff_of_true
    · constructor
      · rintro ⟨⟩
      · intro key
        rfl
    · rintro ⟨⟩
  | ok _ =>
    dsimp only
    rw [copyFinal_eq_iff, and_comm]
    constructor
    · rintro ⟨hcopy, hok⟩ _
      refine ⟨hcopy, fun hfinal hpending => ?_⟩
      apply hok
      have hsame := copyFinal_eq_iff.mpr hcopy
      rw [read_congr hsame, read_congr hsame, hfinal, hpending]
      rfl
    · intro h
      obtain ⟨hcopy, hunread⟩ := h rfl
      refine ⟨hcopy, fun hok => ?_⟩
      have hsame := copyFinal_eq_iff.mpr hcopy
      rw [read_congr hsame, read_congr hsame] at hok
      rcases compareRgbInfos_ok hok with ⟨hfinal, hpending⟩ | ⟨info, info', hinfo, hinfo', h⟩
      · apply hunread hfinal hpending
      · exact .inr ⟨info, info', lookup_of_read hinfo, lookup_of_read hinfo', h⟩

end Check

/-! ### Infos that do not agree -/

def sampleVirtual : VirtualChannelDetails := ⟨List.Vector.replicate 32 1, false, some 0⟩

/-- A store that answers everything, without payment markers. -/
def sampleReplies : StoreReplies := ⟨fun _ => some [], fun _ => false⟩

/-- The final info gives the counterparty nothing, and the pending one gives it 100 units. -/
def divergedInfos : RgbInfoStore :=
  Table.ofList [
    (sampleVirtual.infoKey false, ⟨List.Vector.replicate 32 7, .nia, 100, 0, none, false⟩),
    (sampleVirtual.infoKey true, ⟨List.Vector.replicate 32 7, .nia, 0, 100, none, false⟩)]

/-- The check succeeds although the infos do not agree, and replaces the pending one. -/
theorem ensureNoClientValue_diverged :
  ¬ sampleVirtual.ChecksOnly sampleReplies divergedInfos
  := by
  rintro ⟨-, hsame⟩
  have hpending := hsame (sampleVirtual.infoKey true)
  revert hpending
  decide +kernel

end RgbLightning
