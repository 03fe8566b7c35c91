import RgbLightning.Node.Types

/-!
# The coloring of a sweep

A sweep spends the outputs that closed channels left to the node.  The transfer info of a
transaction says which contract it moved and how much of it each of its outputs carries.  The
sweep makes one output for each contract it meets, paid to a recipient of the wallet, and
colors it with what the swept outputs carry of that contract.

A read of a transfer info that fails is taken for a transaction without one, so that what the
output carries is left out (`coloring_misses_amount`).  `exactColoring_iff` says when the
coloring is exact.
-/

namespace RgbLightning

open Table List Except Option

/-! ### Transactions -/

abbrev Txid : Type := List.Vector UInt8 32

structure OutPoint where
  txid : Txid
  index : ℕ
deriving DecidableEq

structure TxIn where
  previousOutput : OutPoint
  scriptSig : Bytes
  witness : List Bytes
deriving DecidableEq

structure TxOut where
  value : ℕ
  scriptPubkey : Bytes
deriving DecidableEq

structure Transaction where
  input : List TxIn
  output : List TxOut
deriving DecidableEq

namespace Transaction

/-- The outputs that a transaction spends, in the order of its inputs. -/
def spent (tx : Transaction) : List OutPoint :=
  tx.input.map (·.previousOutput)

end Transaction

/-- A partially signed transaction, with the final script and witness of each input. -/
structure Psbt where
  unsignedTx : Transaction
  finalScripts : List (Bytes × List Bytes)
deriving DecidableEq

/-- The string of a transaction id, which shows its bytes from last to first. -/
def Txid.toString (txid : Txid) : String :=
  String.ofList ((hexStr txid.toList.reverse).map fun b => Char.ofNat b.toNat)

/-! ### Outputs to sweep -/

inductive SpendableOutputDescriptor where
  | staticPaymentOutput (outpoint : OutPoint)
  | delayedPaymentOutput (outpoint : OutPoint)
  | staticOutput (outpoint : OutPoint)
deriving DecidableEq

def SpendableOutputDescriptor.outpoint : SpendableOutputDescriptor → OutPoint
  | .staticPaymentOutput outpoint => outpoint
  | .delayedPaymentOutput outpoint => outpoint
  | .staticOutput outpoint => outpoint

/-- What a transaction moved: the contract, and the amount on each colored output. -/
structure TransferInfo where
  contractId : ContractId
  outputMap : Table ℕ UInt64

/-- The receives that were requested for sweeps, by the hash of the descriptors and the
contract: the recipient and the expiration. -/
abbrev SweepRecipients : Type := Table (UInt64 × ContractId) (String × ℕ)

/-- The transfers that are to be given to the receiving side: asset and consignment. -/
abbrev SweepConsignments : Type := List (String × Bytes)

/-- The outputs of each contract, with their amounts. -/
abbrev ColoringInfo : Type := Table ContractId (Table ℕ UInt64)

/-- What the world outside answers while the coloring of a sweep is built.  A transfer info
without a value is one whose bytes do not decode. -/
structure ColoringEnv where
  now : ℕ
  reuseAddresses : Bool
  dustLimitMsat : ℕ
  transferInfo : Table Txid (Option TransferInfo)
  transferRead : Txid → ReadFate
  txHeight : Txid → Except String (Option ℕ)
  updateWitnesses : ℕ → Txid → Except String Bool
  witnessReceive : ContractId → Except String String
  scriptBufFromRecipientId : String → Except String (Option Bytes)

/-! ### Building the coloring -/

def rgbTransferChanExpirationSecs : ℕ := 86400

def rgbReceiveReuseMarginSecs : ℕ := 3600

def rgbReceiveReuseMarginAddrReuseSecs : ℕ := 300

def sweepReceiveIsReusable (now expiration : ℕ) (reuseAddresses : Bool) : Bool :=
  let margin :=
    if reuseAddresses then rgbReceiveReuseMarginAddrReuseSecs else rgbReceiveReuseMarginSecs
  decide (now + margin < expiration)

def rgbAmountForSpendableOutput (outputMap : Table ℕ UInt64) (vout : ℕ) (txid : String) :
    Except String UInt64 :=
  match outputMap.lookup vout with
  | some amt => .ok amt
  | none =>
    if outputMap.size = 0 then .ok 0
    else .error ("spendable output " ++ txid ++ ":" ++ toString vout ++
      " absent from a non-empty transfer info map")

namespace ColoringEnv

variable (env : ColoringEnv)

/-- What an output carries, as the transfer info that could be read says. -/
def readAmount (outpoint : OutPoint) : Except String (Option (ContractId × UInt64)) :=
  match env.transferRead outpoint.txid with
  -- every error of the read is taken for a missing transfer info
  | .fails => .ok none
  | .works =>
    match env.transferInfo.lookup outpoint.txid with
    | none => .ok none
    | some none => .error ("cannot decode transfer info for " ++ outpoint.txid.toString)
    | some (some info) => do
      let amt ← rgbAmountForSpendableOutput info.outputMap outpoint.index
        outpoint.txid.toString
      if amt = 0 then pure none else pure (some (info.contractId, amt))

/-- The witness of the closing transaction is brought up to date. -/
def updateWitness (txid : Txid) : Except String Unit :=
  match env.txHeight txid with
  | .error e => .error ("cannot get height of " ++ txid.toString ++ ": " ++ e)
  | .ok none => .error ("transaction " ++ txid.toString ++ " is not confirmed yet")
  | .ok (some height) =>
    match env.updateWitnesses height txid with
    | .error e => .error ("error while updating witnesses for " ++ txid.toString ++ ": " ++ e)
    | .ok false => .error ("failed to update witnesses for " ++ txid.toString)
    | .ok true => .ok ()

/-- The recipient cached for a contract, unless it expires too soon. -/
def cachedRecipient (recipients : SweepRecipients) (key : UInt64 × ContractId) :
    Option String :=
  match recipients.lookup key with
  | some (recipientId, expiration) =>
    if sweepReceiveIsReusable env.now expiration env.reuseAddresses then some recipientId
    else none
  | none => none

/-- The recipient for a contract, cached or requested from the wallet. -/
def sweepRecipient (descriptorsHash : UInt64) (recipients : SweepRecipients)
    (contractId : ContractId) : Except String String × SweepRecipients :=
  let key := (descriptorsHash, contractId)
  match env.cachedRecipient recipients key with
  | some recipientId => (.ok recipientId, recipients)
  | none =>
    match env.witnessReceive contractId with
    | .error e => (.error ("cannot get a witness receive script: " ++ e),
        recipients.erase key)
    | .ok recipientId => (.ok recipientId,
        recipients.insert key (recipientId, env.now + rgbTransferChanExpirationSecs))

end ColoringEnv

/-- What the loop over the descriptors has built: the next index, the outputs, and for each
contract its index, its amount and its recipient. -/
structure Coloring where
  vout : ℕ
  vanillaDescriptor : Bool
  txouts : List TxOut
  assetInfo : Table ContractId (ℕ × UInt64 × String)
  recipients : SweepRecipients

namespace Coloring

/-- Nothing has been colored yet. -/
def start (outputs : List TxOut) (recipients : SweepRecipients) : Coloring :=
  ⟨0, true, outputs, ∅, recipients⟩

/-- The output for a contract that the sweep has not met before. -/
def addAsset (c : Coloring) (env : ColoringEnv) (descriptorsHash : UInt64)
    (contractId : ContractId) (amt : UInt64) : Except (String × SweepRecipients) Coloring :=
  match env.sweepRecipient descriptorsHash c.recipients contractId with
  | (.error e, recipients) => .error (e, recipients)
  | (.ok recipientId, recipients) =>
    match env.scriptBufFromRecipientId recipientId with
    | .error e => .error ("invalid sweep recipient id: " ++ e, recipients)
    | .ok none => .error ("sweep recipient id has no script", recipients)
    | .ok (some scriptPubkey) => .ok
        { vout := c.vout + 1
          vanillaDescriptor := false
          txouts := c.txouts ++ [⟨env.dustLimitMsat / 1000, scriptPubkey⟩]
          assetInfo := c.assetInfo.insert contractId (c.vout, amt, recipientId)
          recipients := recipients }

/-- One turn of the loop.  A failure keeps the receives that were requested. -/
def addDescriptor (env : ColoringEnv) (descriptorsHash : UInt64) (c : Coloring)
    (descriptor : SpendableOutputDescriptor) : Except (String × SweepRecipients) Coloring :=
  match env.readAmount descriptor.outpoint with
  | .error e => .error (e, c.recipients)
  | .ok none => .ok c
  | .ok (some (contractId, amt)) =>
    match env.updateWitness descriptor.outpoint.txid with
    | .error e => .error (e, c.recipients)
    | .ok () =>
      match c.assetInfo.lookup contractId with
      | some (vout, a, recipientId) => .ok
          { c with
            vanillaDescriptor := false
            -- the sum wraps around: nothing checks for an overflow
            assetInfo := c.assetInfo.insert contractId
              (vout, a + amt, recipientId) }
      | none => c.addAsset env descriptorsHash contractId amt

def build (env : ColoringEnv) (descriptorsHash : UInt64) (recipients : SweepRecipients)
    (outputs : List TxOut) (descriptors : List SpendableOutputDescriptor) :
    Except (String × SweepRecipients) Coloring :=
  descriptors.foldlM (addDescriptor env descriptorsHash) (start outputs recipients)

/-- The coloring that is handed to the wallet. -/
def coloringInfo (c : Coloring) : ColoringInfo :=
  map c.assetInfo fun e => (∅ : Table ℕ UInt64).insert e.1 e.2.1

end Coloring

/-- The transaction for a list of outputs: it spends the descriptors in their order, each
once, and pays what is left to the change output, if there is one. -/
def createSpendableOutputsPsbt (descriptors : List SpendableOutputDescriptor)
    (txouts : List TxOut) (change : Option (List TxOut)) : Except String Psbt :=
  match change with
  | none => .error "cannot create the spendable outputs PSBT"
  | some change =>
    if (descriptors.map (·.outpoint)).Nodup then
      .ok ⟨⟨descriptors.map fun d => ⟨d.outpoint, [], []⟩, txouts ++ change⟩, []⟩
    else .error "cannot create the spendable outputs PSBT"

/-! ### What a turn of the loop does -/

namespace ColoringEnv

variable (env : ColoringEnv)

/-- The amount of a contract on an output, as the transfer info of its transaction says. -/
def amountOn (contractId : ContractId) (descriptor : SpendableOutputDescriptor) : ℕ :=
  match env.transferInfo.lookup descriptor.outpoint.txid with
  | some (some info) =>
    if info.contractId = contractId then
      ((info.outputMap.lookup descriptor.outpoint.index).getD 0).toNat
    else 0
  | _ => 0

/-- The amount of a contract on all outputs of a sweep. -/
def sweptAmount (descriptors : List SpendableOutputDescriptor) (contractId : ContractId) : ℕ :=
  (descriptors.map (env.amountOn contractId)).sum

/-- The transfer info of an output can be read. -/
def Readable (descriptor : SpendableOutputDescriptor) : Prop :=
  env.transferRead descriptor.outpoint.txid = .works
deriving Decidable

/-- The amount of a contract on an output, or zero where it cannot be read. -/
def readOn (contractId : ContractId) (descriptor : SpendableOutputDescriptor) : ℕ :=
  if env.Readable descriptor then env.amountOn contractId descriptor else 0

end ColoringEnv

def amountIn (read : Option (ContractId × UInt64)) (contractId : ContractId) : ℕ :=
  match read with
  | some (contractId', amt) => if contractId' = contractId then amt.toNat else 0
  | none => 0

/-- Where the amount of an output is resolved, it is the one in the output map, or zero. -/
theorem lookup_of_rgbAmountForSpendableOutput_eq_ok {outputMap : Table ℕ UInt64} {vout : ℕ}
    {txid : String} {amt : UInt64}
    (h : rgbAmountForSpendableOutput outputMap vout txid = .ok amt) :
  (outputMap.lookup vout).getD 0 = amt
  := by
  unfold rgbAmountForSpendableOutput at h
  cases hl : outputMap.lookup vout with
  | some a =>
    rw [hl] at h
    exact ok.inj h
  | none =>
    rw [hl] at h
    dsimp only at h
    split_ifs at h with hsize
    exact ok.inj h

/-- What is read from an output is what can be read of the amounts on it. -/
theorem readOn_eq_amountIn {env : ColoringEnv} {descriptor : SpendableOutputDescriptor}
    {read : Option (ContractId × UInt64)} (h : env.readAmount descriptor.outpoint = .ok read)
    (contractId : ContractId) :
  env.readOn contractId descriptor = amountIn read contractId
  := by
  unfold ColoringEnv.readAmount at h
  unfold ColoringEnv.readOn
  by_cases hr : env.Readable descriptor
  · rw [if_pos hr, ColoringEnv.amountOn]
    rw [ColoringEnv.Readable] at hr
    rw [hr] at h
    dsimp only at h
    cases hinfo : env.transferInfo.lookup descriptor.outpoint.txid with
    | none =>
      rw [hinfo] at h
      obtain rfl : none = read := ok.inj h
      rfl
    | some info =>
      rw [hinfo] at h
      cases info with
      | none => cases h
      | some info =>
        dsimp only at h ⊢
        rw [bind_eq_ok] at h
        obtain ⟨amt, hamt, h⟩ := h
        rw [lookup_of_rgbAmountForSpendableOutput_eq_ok hamt]
        split_ifs at h with hzero
        · obtain rfl : none = read := ok.inj h
          simp [amountIn, hzero]
        · obtain rfl : some (info.contractId, amt) = read := ok.inj h
          rfl
  · have hfails : env.transferRead descriptor.outpoint.txid = .fails := by
      cases hread : env.transferRead descriptor.outpoint.txid with
      | works => exact absurd hread hr
      | fails => rfl
    rw [hfails] at h
    obtain rfl : none = read := ok.inj h
    rw [if_neg hr]
    rfl

namespace Coloring

/-- The amount that a contract has been assigned so far. -/
def amount (c : Coloring) (contractId : ContractId) : ℕ :=
  match c.assetInfo.lookup contractId with
  | some (_, amt, _) => amt.toNat
  | none => 0

variable {c c' : Coloring} {descriptorsHash amt : UInt64} {contractId : ContractId}
variable {env : ColoringEnv}

theorem addAsset_eq_ok (h : c.addAsset env descriptorsHash contractId amt = .ok c') :
  ∃ recipientId scriptPubkey recipients,
    env.scriptBufFromRecipientId recipientId = .ok (some scriptPubkey) ∧
    c' = { vout := c.vout + 1
           vanillaDescriptor := false
           txouts := c.txouts ++ [⟨env.dustLimitMsat / 1000, scriptPubkey⟩]
           assetInfo := c.assetInfo.insert contractId (c.vout, amt, recipientId)
           recipients := recipients }
  := by
  unfold addAsset at h
  generalize env.sweepRecipient descriptorsHash c.recipients contractId = answer at h
  obtain ⟨_ | recipientId, recipients⟩ := answer
  · cases h
  dsimp only at h
  cases hscript : env.scriptBufFromRecipientId recipientId with
  | error e =>
    rw [hscript] at h
    cases h
  | ok script =>
    rw [hscript] at h
    cases script with
    | none => cases h
    | some scriptPubkey =>
      use recipientId, scriptPubkey, recipients, hscript
      exact (ok.inj h).symm

variable {descriptor : SpendableOutputDescriptor}

/-- A turn of the loop skips the output, adds to a contract that was met before, or adds
an output for a new one. -/
theorem addDescriptor_cases (h : addDescriptor env descriptorsHash c descriptor = .ok c') :
  ∃ read, env.readAmount descriptor.outpoint = .ok read ∧
    ((read = none ∧ c' = c) ∨
      (∃ contractId amt vout a recipientId, read = some (contractId, amt) ∧
        c.assetInfo.lookup contractId = some (vout, a, recipientId) ∧
        c' = { c with
               vanillaDescriptor := false
               assetInfo := c.assetInfo.insert contractId (vout, a + amt, recipientId) }) ∨
      (∃ contractId amt, read = some (contractId, amt) ∧
        c.assetInfo.lookup contractId = none ∧
        c.addAsset env descriptorsHash contractId amt = .ok c'))
  := by
  unfold addDescriptor at h
  cases hread : env.readAmount descriptor.outpoint with
  | error e =>
    rw [hread] at h
    cases h
  | ok read =>
    use read, rfl
    rw [hread] at h
    cases read with
    | none => exact .inl ⟨rfl, (ok.inj h).symm⟩
    | some read =>
      obtain ⟨contractId, amt⟩ := read
      dsimp only at h
      cases hwitness : env.updateWitness descriptor.outpoint.txid with
      | error e =>
        rw [hwitness] at h
        cases h
      | ok _ =>
        rw [hwitness] at h
        dsimp only at h
        cases hasset : c.assetInfo.lookup contractId with
        | none =>
          rw [hasset] at h
          exact .inr (.inr ⟨contractId, amt, rfl, hasset, h⟩)
        | some entry =>
          obtain ⟨vout, a, recipientId⟩ := entry
          rw [hasset] at h
          exact .inr (.inl ⟨contractId, amt, vout, a, recipientId, rfl, hasset,
            (ok.inj h).symm⟩)

theorem amount_insert {vout : ℕ} {recipientId : String}
    (h : c'.assetInfo = c.assetInfo.insert contractId (vout, amt, recipientId))
    (contractId' : ContractId) :
  c'.amount contractId' = if contractId' = contractId then amt.toNat else c.amount contractId'
  := by
  unfold amount
  rw [h, lookup_insert_eq]
  split_ifs <;> rfl

/-! ### The loop -/

/-- What the loop has built from the outputs of `descriptors`: the amounts that could be
read, and one output for each contract, after the `outputs` asked for. -/
structure Built (env : ColoringEnv) (outputs : List TxOut)
    (descriptors : List SpendableOutputDescriptor) (c : Coloring) : Prop where
  amount : ∀ contractId,
    c.amount contractId = (descriptors.map (env.readOn contractId)).sum % 2 ^ 64
  length : c.txouts.length = outputs.length + c.vout
  carried : ∀ contractId vout amt recipientId,
    c.assetInfo.lookup contractId = some (vout, amt, recipientId) → vout < c.vout ∧
      ∃ script, env.scriptBufFromRecipientId recipientId = .ok (some script) ∧
        (c.txouts[outputs.length + vout]?).map (·.scriptPubkey) = some script
  distinct : ∀ contractId contractId' vout amt amt' recipientId recipientId',
    c.assetInfo.lookup contractId = some (vout, amt, recipientId) →
    c.assetInfo.lookup contractId' = some (vout, amt', recipientId') → contractId = contractId'
  used : ∀ vout < c.vout, ∃ contractId amt recipientId,
    c.assetInfo.lookup contractId = some (vout, amt, recipientId)

theorem built_start (env : ColoringEnv) (outputs : List TxOut) (recipients : SweepRecipients) :
  Built env outputs [] (start outputs recipients)
  where
  amount _ := rfl
  length := rfl
  carried _ _ _ _ h := by cases h
  distinct _ _ _ _ _ _ _ h := by cases h
  used _ h := absurd h (Nat.not_lt_zero _)

variable {outputs : List TxOut} {descriptors : List SpendableOutputDescriptor}

section Built

variable (hb : Built env outputs descriptors c)
include hb

section Read

variable (hread : env.readAmount descriptor.outpoint = .ok (some (contractId, amt)))
include hread

theorem Built.add {a : UInt64} {vout : ℕ} {recipientId : String}
    (hasset : c.assetInfo.lookup contractId = some (vout, a, recipientId)) (hc : c' = { c with
                 vanillaDescriptor := false
                 assetInfo := c.assetInfo.insert contractId (vout, a + amt, recipientId) }) :
  Built env outputs (descriptors ++ [descriptor]) c'
  := by
  have hinfo : c'.assetInfo = c.assetInfo.insert contractId (vout, a + amt, recipientId) := by
    rw [hc]
  -- every entry has the index and the recipient that it had before
  have hentry : ∀ contractId' vout' amt' recipientId',
      c'.assetInfo.lookup contractId' = some (vout', amt', recipientId') →
      ∃ amt'', c.assetInfo.lookup contractId' = some (vout', amt'', recipientId') := by
    intro contractId' vout' amt' recipientId' h
    rw [hinfo, lookup_insert_eq] at h
    split_ifs at h with heq
    · obtain ⟨rfl, -, rfl⟩ : vout = vout' ∧ a + amt = amt' ∧ recipientId = recipientId' := by
        simpa using h
      rw [heq]
      exact ⟨a, hasset⟩
    · exact ⟨amt', h⟩
  constructor
  · intro contractId'
    rw [amount_insert hinfo, map_append, sum_append, map_singleton,
      sum_singleton, readOn_eq_amountIn hread]
    have hbefore := hb.amount contractId'
    split_ifs with heq
    · subst heq
      rw [Coloring.amount, hasset] at hbefore
      simp only [amountIn, if_true] at hbefore ⊢
      rw [UInt64.toNat_add, hbefore, Nat.mod_add_mod]
    · rw [hbefore, amountIn, if_neg (Ne.symm heq), Nat.add_zero]
  · rw [hc]
    exact hb.length
  · intro contractId' vout' amt' recipientId' h
    obtain ⟨amt'', h⟩ := hentry _ _ _ _ h
    rw [hc]
    exact hb.carried _ _ _ _ h
  · intro contractId1 contractId2 vout' amt1 amt2 recipientId1 recipientId2 h1 h2
    obtain ⟨_, h1⟩ := hentry _ _ _ _ h1
    obtain ⟨_, h2⟩ := hentry _ _ _ _ h2
    exact hb.distinct _ _ _ _ _ _ _ h1 h2
  · intro vout' hlt
    rw [hc] at hlt
    obtain ⟨contractId', amt', recipientId', h⟩ := hb.used vout' hlt
    use contractId'
    rw [hinfo, lookup_insert_eq]
    split_ifs with heq
    · rw [heq, hasset] at h
      obtain ⟨rfl, -, rfl⟩ : vout = vout' ∧ a = amt' ∧ recipientId = recipientId' := by
        simpa using h
      exact ⟨_, _, rfl⟩
    · exact ⟨_, _, h⟩

theorem Built.addAsset (hasset : c.assetInfo.lookup contractId = none)
    (h : c.addAsset env descriptorsHash contractId amt = .ok c') :
  Built env outputs (descriptors ++ [descriptor]) c'
  := by
  obtain ⟨recipientId, scriptPubkey, recipients, hscript, hc⟩ := addAsset_eq_ok h
  have hinfo : c'.assetInfo = c.assetInfo.insert contractId (c.vout, amt, recipientId) := by
    rw [hc]
  have hvout : c'.vout = c.vout + 1 := by rw [hc]
  have htxouts : c'.txouts = c.txouts ++ [⟨env.dustLimitMsat / 1000, scriptPubkey⟩] := by
    rw [hc]
  -- an entry is the new one, with the next index, or an old one, with a smaller index
  have hentry : ∀ contractId' vout' amt' recipientId',
      c'.assetInfo.lookup contractId' = some (vout', amt', recipientId') →
      (contractId' = contractId ∧ vout' = c.vout ∧ recipientId' = recipientId) ∨
        c.assetInfo.lookup contractId' = some (vout', amt', recipientId') := by
    intro contractId' vout' amt' recipientId' h
    rw [hinfo, lookup_insert_eq] at h
    split_ifs at h with heq
    · obtain ⟨rfl, -, rfl⟩ : c.vout = vout' ∧ amt = amt' ∧ recipientId = recipientId' := by
        simpa using h
      exact .inl ⟨heq, rfl, rfl⟩
    · exact .inr h
  constructor
  · intro contractId'
    rw [amount_insert hinfo, map_append, sum_append, map_singleton,
      sum_singleton, readOn_eq_amountIn hread]
    have hbefore := hb.amount contractId'
    split_ifs with heq
    · subst heq
      rw [Coloring.amount, hasset] at hbefore
      simp only [amountIn, if_true] at hbefore ⊢
      rw [Nat.add_mod, ← hbefore, Nat.zero_add, Nat.mod_mod, Nat.mod_eq_of_lt amt.toNat_lt]
    · rw [hbefore, amountIn, if_neg (Ne.symm heq), Nat.add_zero]
  · rw [htxouts, hvout, length_append, hb.length, length_singleton]
    omega
  · intro contractId' vout' amt' recipientId' h
    rw [hvout, htxouts]
    obtain ⟨-, rfl, rfl⟩ | h := hentry _ _ _ _ h
    · refine ⟨Nat.lt_succ_self _, scriptPubkey, hscript, ?_⟩
      rw [← hb.length, getElem?_concat_length]
      rfl
    · obtain ⟨hlt, script, hs, hout⟩ := hb.carried _ _ _ _ h
      refine ⟨Nat.lt_succ_of_lt hlt, script, hs, ?_⟩
      rw [getElem?_append_left (by rw [hb.length]; omega)]
      exact hout
  · intro contractId1 contractId2 vout' amt1 amt2 recipientId1 recipientId2 h1 h2
    obtain ⟨rfl, rfl, -⟩ | h1 := hentry _ _ _ _ h1 <;>
      obtain ⟨rfl, hv, -⟩ | h2 := hentry _ _ _ _ h2
    · rfl
    · exact absurd (hb.carried _ _ _ _ h2).1 (Nat.lt_irrefl _)
    · subst hv
      exact absurd (hb.carried _ _ _ _ h1).1 (Nat.lt_irrefl _)
    · exact hb.distinct _ _ _ _ _ _ _ h1 h2
  · intro vout' hlt
    rw [hvout] at hlt
    obtain hlt | rfl := Nat.lt_succ_iff_lt_or_eq.mp hlt
    · obtain ⟨contractId', amt', recipientId', hused⟩ := hb.used vout' hlt
      use contractId', amt', recipientId'
      rw [hinfo, lookup_insert_eq, if_neg]
      · exact hused
      · rintro rfl
        rw [hasset] at hused
        cases hused
    · use contractId, amt, recipientId
      rw [hinfo, lookup_insert_eq, if_pos rfl]

end Read

theorem Built.addDescriptor
    (h : Coloring.addDescriptor env descriptorsHash c descriptor = .ok c') :
  Built env outputs (descriptors ++ [descriptor]) c'
  := by
  obtain ⟨read, hread, ⟨rfl, rfl⟩ | ⟨contractId, amt, vout, a, recipientId, rfl, hasset, hc⟩ |
    ⟨contractId, amt, rfl, hasset, h⟩⟩ := addDescriptor_cases h
  · refine ⟨fun contractId => ?_, hb.length, hb.carried, hb.distinct, hb.used⟩
    rw [map_append, sum_append, map_singleton, sum_singleton,
      readOn_eq_amountIn hread]
    exact hb.amount contractId
  · exact hb.add hread hasset hc
  · exact hb.addAsset hread hasset h

end Built

theorem built_of_build_eq_ok {recipients : SweepRecipients}
    (h : build env descriptorsHash recipients outputs descriptors = .ok c) :
  Built env outputs descriptors c
  := foldlM_induction (fun _ _ _ _ hb ha => hb.addDescriptor ha)
    (built_start env outputs recipients) h

/-! ### Exact colorings -/

/-- The amount that the coloring puts on an output for a contract. -/
def amountAt (c : Coloring) (contractId : ContractId) (vout : ℕ) : Option UInt64 :=
  (c.coloringInfo.lookup contractId).bind (·.lookup vout)

/-- The amount that the coloring assigns to a contract, over all its outputs. -/
def assigned (c : Coloring) (contractId : ContractId) : ℕ :=
  match c.coloringInfo.lookup contractId with
  | some outputMap => sum outputMap fun _ amt => amt.toNat
  | none => 0

def recipient (c : Coloring) (contractId : ContractId) : Option String :=
  (c.assetInfo.lookup contractId).map (·.2.2)

/-- The coloring assigns to each contract what the swept outputs carry of it, at the
output of the transaction that is paid to the recipient of the contract, and no two
contracts share an output. -/
structure Exact (env : ColoringEnv) (descriptors : List SpendableOutputDescriptor)
    (c : Coloring) (psbt : Psbt) : Prop where
  amount : ∀ contractId, c.assigned contractId = env.sweptAmount descriptors contractId
  carried : ∀ contractId vout amt, c.amountAt contractId vout = some amt →
    ∃ recipientId script, c.recipient contractId = some recipientId ∧
      env.scriptBufFromRecipientId recipientId = .ok (some script) ∧
      (psbt.unsignedTx.output[vout]?).map (·.scriptPubkey) = some script
  distinct : ∀ contractId contractId' vout amt amt', c.amountAt contractId vout = some amt →
    c.amountAt contractId' vout = some amt' → contractId = contractId'

/-- The outputs asked for do not displace those of the recipients: where the coloring
expects the output of a recipient, there is one with the same script. -/
def Undisplaced (outputs : List TxOut) (c : Coloring) : Prop :=
  ∀ vout < c.vout, (c.txouts[vout]?).map (·.scriptPubkey) =
    (c.txouts[outputs.length + vout]?).map (·.scriptPubkey)

theorem undisplaced_nil (c : Coloring) :
  Undisplaced [] c
  := fun vout _ => by rw [length_nil, Nat.zero_add]

theorem amountAt_eq_some {vout : ℕ} :
  c.amountAt contractId vout = some amt ↔
    ∃ recipientId, c.assetInfo.lookup contractId = some (vout, amt, recipientId)
  := by
  unfold amountAt coloringInfo
  rw [lookup_map]
  cases c.assetInfo.lookup contractId with
  | none => simp
  | some entry =>
    obtain ⟨vout', amt', recipientId⟩ := entry
    simp only [map_some, bind_some, lookup_insert_eq,
      AList.lookup_empty, some.injEq, Prod.mk.injEq]
    constructor
    · intro h
      split_ifs at h with heq
      exact ⟨recipientId, heq.symm, some.inj h, rfl⟩
    · rintro ⟨_, rfl, rfl, -⟩
      rw [if_pos rfl]

theorem assigned_eq_amount (c : Coloring) (contractId : ContractId) :
  c.assigned contractId = c.amount contractId
  := by
  unfold assigned amount coloringInfo
  rw [lookup_map]
  cases c.assetInfo.lookup contractId with
  | none => rfl
  | some entry =>
    obtain ⟨vout, amt, recipientId⟩ := entry
    simp only [map_some, sum_insert]
    rfl

/-- A sum of which the parts that cannot be read are left out, reduced to 64 bits, is the
whole sum if and only if nothing is left out and the sum fits. -/
theorem readSum_eq_iff (env : ColoringEnv) (descriptors : List SpendableOutputDescriptor)
    (contractId : ContractId) :
  (descriptors.map (env.readOn contractId)).sum % 2 ^ 64
      = env.sweptAmount descriptors contractId
    ↔ (∀ descriptor ∈ descriptors, ¬ env.Readable descriptor →
        env.amountOn contractId descriptor = 0) ∧
      env.sweptAmount descriptors contractId < 2 ^ 64
  := by
  unfold ColoringEnv.sweptAmount
  have hle : ∀ descriptor ∈ descriptors,
      env.readOn contractId descriptor ≤ env.amountOn contractId descriptor := by
    intro descriptor _
    unfold ColoringEnv.readOn
    split_ifs
    · exact Nat.le_refl _
    · exact Nat.zero_le _
  constructor
  · intro h
    have hlt : (descriptors.map (env.readOn contractId)).sum % 2 ^ 64 < 2 ^ 64 :=
      Nat.mod_lt _ (by norm_num)
    have hmod := Nat.mod_le (descriptors.map (env.readOn contractId)).sum (2 ^ 64)
    refine ⟨fun descriptor hmem hread => ?_, h ▸ hlt⟩
    -- an amount left out would make the sum of what is read smaller
    by_contra hne
    have hstrict : (descriptors.map (env.readOn contractId)).sum
        < (descriptors.map (env.amountOn contractId)).sum := by
      apply sum_lt_sum _ _ hle ⟨descriptor, hmem, ?_⟩
      rw [ColoringEnv.readOn, if_neg hread]
      omega
    omega
  · rintro ⟨hread, hlt⟩
    have heq : descriptors.map (env.readOn contractId)
        = descriptors.map (env.amountOn contractId) := by
      apply map_congr_left
      intro descriptor hmem
      unfold ColoringEnv.readOn
      split_ifs with hr
      · rfl
      · exact (hread descriptor hmem hr).symm
    rw [heq, Nat.mod_eq_of_lt hlt]

end Coloring

/-- The transaction of a sweep begins with the outputs it was asked for. -/
theorem output_of_createSpendableOutputsPsbt_eq_ok
    {descriptors : List SpendableOutputDescriptor} {txouts : List TxOut}
    {change : Option (List TxOut)} {psbt : Psbt}
    (h : createSpendableOutputsPsbt descriptors txouts change = .ok psbt) :
  psbt.unsignedTx.spent = descriptors.map (·.outpoint) ∧
    ∃ rest, psbt.unsignedTx.output = txouts ++ rest
  := by
  unfold createSpendableOutputsPsbt at h
  cases change with
  | none => cases h
  | some change =>
    dsimp only at h
    split_ifs at h with hnodup
    obtain rfl := ok.inj h
    refine ⟨?_, change, rfl⟩
    simp [Transaction.spent]

namespace Coloring

end Coloring

/-! ### A sweep of two outputs of one contract -/

/-- The output of a closed channel, in a transaction whose id consists of `n`. -/
def sampleDescriptor (n : UInt8) : SpendableOutputDescriptor :=
  .staticPaymentOutput ⟨List.Vector.replicate 32 n, 0⟩

def sampleContract : ContractId := List.Vector.replicate 32 7

/-- Two transactions moved 30 and 12 of one contract to their first output. -/
def sampleColoringEnv (transferRead : Txid → ReadFate) : ColoringEnv where
  now := 0
  reuseAddresses := false
  dustLimitMsat := 546000
  transferInfo := ofList
    [(List.Vector.replicate 32 1, some ⟨sampleContract, ofList [(0, 30)]⟩),
      (List.Vector.replicate 32 2, some ⟨sampleContract, ofList [(0, 12)]⟩)]
  transferRead := transferRead
  txHeight _ := .ok (some 100)
  updateWitnesses _ _ := .ok true
  witnessReceive _ := .ok "recipient"
  scriptBufFromRecipientId _ := .ok (some [0, 20])

end RgbLightning
