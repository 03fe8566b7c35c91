import RgbLightning.Lib.Session
import RgbLightning.Sweep.Coloring

/-!
# Sweeps in the browser

The outputs that a closed channel leaves to the node are announced by an event, which is
delivered once.  The handler appends the set of descriptors to a queue in memory and stores
the queue, together with the sweep transactions that were made so far.  A tick takes the
first item off the queue, builds a transaction for it, hands it to the broadcaster, records
it in memory, and stores the state when it is done with the item.  Events are handled while
it waits for the network.

`BrowserSweep.driveSweepWork` is the tick as a program, and `BrowserSweep.machine` answers
its operations.
-/

namespace RgbLightning.BrowserSweep

open Prog All

/-! ### The state -/

/-- An item of the queue: the encoded descriptors of one event. -/
structure PendingSweepWork where
  descriptorsHex : List Str
  channelId : Option Str
deriving DecidableEq

/-- What is stored: the queue, and the finished sweep of each set of descriptors. -/
structure PersistedSweepState where
  pending : List PendingSweepWork := []
  swept : Table Str Transaction := ∅

/-- The stored state, and what the page holds in memory while it is loaded.  The sets that
were delivered and the transactions that were broadcast are recorded for reasoning. -/
structure World where
  loaded : Bool := false
  pendingSweepWork : List PendingSweepWork := []
  sweepTxes : Table Str Transaction := ∅
  stored : PersistedSweepState := {}
  delivered : List (List Str) := []
  broadcasts : List (List Str × Transaction) := []

namespace World

def persistSweepState (w : World) : WriteFate → World
  | .fails => w
  -- an error of the write is ignored
  | .works | .failsAfterStoring => { w with stored := ⟨w.pendingSweepWork, w.sweepTxes⟩ }

/-- The handler of the event that announces spendable outputs. -/
def spendableOutputs (w : World) (item : PendingSweepWork) (fate : WriteFate) : World :=
  { w with
    pendingSweepWork := w.pendingSweepWork ++ [item]
    delivered := w.delivered ++ [item.descriptorsHex] }.persistSweepState fate

def handleEvents (w : World) (events : List (PendingSweepWork × WriteFate)) : World :=
  events.foldl (fun w e => w.spendableOutputs e.1 e.2) w

/-- A page that has been reloaded: nothing is in memory. -/
def reload (w : World) : World :=
  { w with loaded := false, pendingSweepWork := [], sweepTxes := ∅ }

/-- The state is read back from the store.  If that fails, nothing is restored. -/
def new (w : World) : ReadFate → World
  | .works =>
    { w with
      loaded := true
      pendingSweepWork := w.stored.pending
      sweepTxes := w.stored.swept }
  | .fails => { w with loaded := true, pendingSweepWork := [], sweepTxes := ∅ }

end World

/-! ### Operations -/

/-- What a sweep asks of the wallet, the keys, the network and the stores of the node. -/
inductive Query where
  | objectGraph
  | rgbWallet
  | getAddress
  | hasTransferInfo (txid : Txid)
  | readRgbTransferInfo (txid : Txid)
  | proxyEndpoint
  | getOnline
  | getTxHeight (txid : Txid)
  | updateWitnesses (height : ℕ) (txid : Txid)
  | witnessReceive (endpoint : String)
  | scriptBufFromRecipientId (recipientId : String)
  | spendSpendableOutputs (descriptors : List SpendableOutputDescriptor) (outputs : List TxOut)
      (changeScript : Bytes)
  | createSpendableOutputsPsbt (descriptors : List SpendableOutputDescriptor)
      (outputs : List TxOut) (changeScript : Bytes)
  | colorPsbtAndConsume (psbt : Psbt) (coloringInfo : ColoringInfo)
  | signSpendableOutputsPsbt (descriptors : List SpendableOutputDescriptor) (psbt : Psbt)
  | extractTx (psbt : Psbt)
  | postConsignment (endpoint recipientId : String) (consignment : Bytes) (tx : Transaction)
      (vout : ℕ)
  | refresh

namespace Query

/-- The answers: an error of a call is the text the sweep ends with, a wallet that is busy
being one. -/
def Ans : Query → Type
  | objectGraph | rgbWallet | hasTransferInfo _ => Bool
  | getAddress => Except String Bytes
  | readRgbTransferInfo _ => Except String (ContractId × UInt64)
  | proxyEndpoint => Except String (Option String)
  | getOnline => Except String Bool
  | getTxHeight _ => Except String (Option ℕ)
  | updateWitnesses _ _ => Except String (List Txid)
  | witnessReceive _ => Except String String
  | scriptBufFromRecipientId _ => Except String (Option Bytes)
  | spendSpendableOutputs _ _ _ => Option Transaction
  | createSpendableOutputsPsbt _ _ _ => Option Psbt
  | colorPsbtAndConsume _ _ => Except String (Psbt × List (ContractId × Bytes))
  | signSpendableOutputsPsbt _ _ => Option Psbt
  | extractTx _ => Except String Transaction
  | postConsignment _ _ _ _ _ => Except String Unit
  | refresh => Unit

/-- The queries at which a tick is suspended. -/
def awaits : Query → Bool
  | getTxHeight _ | updateWitnesses _ _ | colorPsbtAndConsume _ _
  | postConsignment _ _ _ _ _ | refresh => true
  | _ => false

end Query

inductive Op where
  | new
  | spendableOutputs (item : PendingSweepWork)
  | popFront
  | pushFront (item : PendingSweepWork)
  | persistSweepState
  | sweepTx (key : Str)
  | insertSweepTx (key : Str) (tx : Transaction)
  | broadcast (descriptorsHex : List Str) (tx : Transaction)
  | ask (q : Query)

def interface : Interface where
  Op := Op
  Ans
    | .popFront => Option PendingSweepWork
    | .sweepTx _ => Option Transaction
    | .ask q => q.Ans
    | _ => Unit

/-- What the world outside can do.  The answer to a query depends on a choice. -/
structure Env where
  sha256 : Bytes → Bytes
  decodeDescriptor : Str → Except String SpendableOutputDescriptor
  answer : ℕ → (q : Query) → q.Ans

/-- The identity of a set of descriptors: the hash of its members joined by commas. -/
def Env.sweepDescriptorsKey (env : Env) (descriptorsHex : List Str) : Str :=
  hexStr (env.sha256 (List.intercalate (str ",") descriptorsHex))

/-- What happens at an operation: the choice of the world outside, the events handled
meanwhile, and how a read or a write of the stored state ends. -/
structure Fault where
  choice : ℕ := 0
  events : List (PendingSweepWork × WriteFate) := []
  read : ReadFate := .works
  write : WriteFate := .works

def exec (env : Env) (f : Fault) : (o : Op) → World → Option (interface.Ans o) × World
  | .new, w => (some (), w.new f.read)
  | .spendableOutputs item, w => (some (), w.spendableOutputs item f.write)
  | .popFront, w =>
    (some w.pendingSweepWork.head?, { w with pendingSweepWork := w.pendingSweepWork.tail })
  | .pushFront item, w =>
    (some (), { w with pendingSweepWork := item :: w.pendingSweepWork })
  | .persistSweepState, w => (some (), w.persistSweepState f.write)
  | .sweepTx key, w => (some (w.sweepTxes.lookup key), w)
  | .insertSweepTx key tx, w => (some (), { w with sweepTxes := w.sweepTxes.insert key tx })
  | .broadcast descriptorsHex tx, w =>
    (some (), { w with broadcasts := w.broadcasts ++ [(descriptorsHex, tx)] })
  | .ask q, w =>
    (some (env.answer f.choice q), if q.awaits then w.handleEvents f.events else w)

def machine (env : Env) : Machine interface World Fault where
  exec := exec env
  reboot := World.reload
  calm := {}

/-! ### The sweep of one set of descriptors -/

abbrev Sweep (α : Type) : Type := Prog interface α

/-- A part of a sweep that may end it with an error. -/
abbrev Attempt (α : Type) : Type := ExceptT String (Prog interface) α

def ask (q : Query) : Sweep q.Ans :=
  perform (S := interface) (.ask q)

def call {α : Type} (p : Sweep (Except String α)) : Attempt α :=
  ExceptT.mk p

/-- A value, or the end of the sweep. -/
def orElse {α : Type} (error : String) : Option α → Attempt α
  | some a => pure a
  | none => throw error

def sweepColoredOutputSat : ℕ := 546

/-- What the loop over the descriptors has built: the next colored output, the outputs, the
endpoint of the proxy once it is known, and for each contract its output, its amount and its
recipient. -/
structure Coloring where
  nextColoredVout : ℕ := 0
  vanillaDescriptor : Bool := true
  txouts : List TxOut := []
  proxyEndpoint : Option String := none
  assetInfo : Table ContractId (ℕ × UInt64 × String) := ∅

namespace Coloring

def endpoint (c : Coloring) : Attempt String :=
  match c.proxyEndpoint with
  | some endpoint => pure endpoint
  | none => do
    let endpoint ← call (ask .proxyEndpoint)
    orElse "no RGB proxy transport configured; cannot sweep colored output" endpoint

/-- The closing transaction must be confirmed, and its witness be up to date. -/
def updateWitness (txid : Txid) : Attempt Unit := do
  let online ← call (ask .getOnline)
  if online = true then
    let height ← call (ask (.getTxHeight txid))
    let closingHeight ←
      orElse ("closing tx " ++ txid.toString ++ " not confirmed yet") height
    let failed ← call (ask (.updateWitnesses closingHeight txid))
    -- witnesses of other transactions may fail
    if txid ∈ failed then
      throw ("update_witnesses failed for closing tx " ++ txid.toString)
    else pure ()
  else throw "RGB wallet is not online"

/-- One more amount of a contract, with an output of its own if it is the first. -/
def addAmount (c : Coloring) (endpoint : String) (contractId : ContractId) (amount : UInt64) :
    Attempt Coloring :=
  match c.assetInfo.lookup contractId with
  | some (vout, sum, recipientId) => pure
      { c with
        vanillaDescriptor := false
        proxyEndpoint := some endpoint
        assetInfo := c.assetInfo.insert contractId (vout, sum + amount, recipientId) }
  | none => do
    let recipientId ← call (ask (.witnessReceive endpoint))
    let script ← call (ask (.scriptBufFromRecipientId recipientId))
    let script ← orElse "sweep recipient id has no script" script
    pure
      { nextColoredVout := c.nextColoredVout + 1
        vanillaDescriptor := false
        txouts := c.txouts ++ [⟨sweepColoredOutputSat, script⟩]
        proxyEndpoint := some endpoint
        assetInfo := c.assetInfo.insert contractId (c.nextColoredVout, amount, recipientId) }

def addDescriptor (c : Coloring) (descriptor : SpendableOutputDescriptor) :
    Attempt Coloring := do
  let txid := descriptor.outpoint.txid
  let known : Bool ← ask (.hasTransferInfo txid)
  if known = true then
    let (contractId, rgbAmount) ← call (ask (.readRgbTransferInfo txid))
    if rgbAmount = 0 then pure c
    else
      let endpoint ← c.endpoint
      updateWitness txid
      c.addAmount endpoint contractId rgbAmount
  else pure c

def build (c : Coloring) : List SpendableOutputDescriptor → Attempt Coloring
  | [] => pure c
  | descriptor :: descriptors => do
    let c ← c.addDescriptor descriptor
    c.build descriptors

/-- The colored outputs as the wallet is told them. -/
def coloringInfo (c : Coloring) : ColoringInfo :=
  c.assetInfo.map fun (vout, amount, _) => Table.ofList [(vout, amount)]

/-- The consignments are given to the proxy, each for the recipient of its contract. -/
def postConsignments (c : Coloring) (endpoint : String) (tx : Transaction) :
    List (ContractId × Bytes) → Attempt Unit
  | [] => pure ()
  | (contractId, consignment) :: consignments => do
    let (vout, _, recipientId) ←
      orElse "no asset info for contract" (c.assetInfo.lookup contractId)
    call (ask (.postConsignment endpoint recipientId consignment tx (vout + 1)))
    c.postConsignments endpoint tx consignments

/-- The transaction of a sweep that moves assets. -/
def coloredTx (c : Coloring) (descriptors : List SpendableOutputDescriptor)
    (changeScript : Bytes) : Attempt Transaction := do
  let psbt ← ask (.createSpendableOutputsPsbt descriptors c.txouts changeScript)
  let psbt ← orElse "failed to build sweep PSBT" psbt
  let (psbt, consignments) ← call (ask (.colorPsbtAndConsume psbt c.coloringInfo))
  let psbt ← ask (.signSpendableOutputsPsbt descriptors psbt)
  let psbt ← orElse "failed to sign sweep PSBT" psbt
  let tx ← call (ask (.extractTx psbt))
  let endpoint ← orElse "missing sweep proxy endpoint" c.proxyEndpoint
  c.postConsignments endpoint tx consignments
  pure tx

end Coloring

/-- The transaction that sweeps the descriptors, and whether it moves assets. -/
def buildSweep (descriptors : List SpendableOutputDescriptor) : Attempt (Transaction × Bool) := do
  let attached : Bool ← ask .rgbWallet
  if attached = true then
    let changeScript ← call (ask .getAddress)
    let c ← ({} : Coloring).build descriptors
    if c.vanillaDescriptor = true then
      let tx ← ask (.spendSpendableOutputs descriptors c.txouts changeScript)
      let tx ← orElse "vanilla sweep tx build failed" tx
      pure (tx, false)
    else
      let tx ← c.coloredTx descriptors changeScript
      pure (tx, true)
  else throw "no RGB wallet attached"

def broadcast (descriptorsHex : List Str) (tx : Transaction) : Sweep Unit :=
  perform (S := interface) (.broadcast descriptorsHex tx)

/-- The transaction is broadcast and then recorded.  The wallet is refreshed afterwards if
assets were moved, whatever comes of it. -/
def finishSweep (descriptorsHex : List Str) (key : Str) (tx : Transaction) (colored : Bool) :
    Sweep Unit := do
  broadcast descriptorsHex tx
  perform (S := interface) (.insertSweepTx key tx)
  if colored = true then ask .refresh else pure ()

def sweepTx (key : Str) : Sweep (Option Transaction) :=
  perform (S := interface) (.sweepTx key)

/-- The node must be running. -/
def objectGraph : Attempt Unit := do
  let graph : Bool ← ask .objectGraph
  if graph = true then pure () else throw "LDK object graph not initialized"

def processSweepItem (env : Env) (item : PendingSweepWork) : Attempt Unit := do
  let descriptors ← call (pure (item.descriptorsHex.mapM env.decodeDescriptor))
  if descriptors = [] then pure ()
  else
    objectGraph
    let key := env.sweepDescriptorsKey item.descriptorsHex
    match ← sweepTx key with
    -- the set was swept before: the same transaction is broadcast again
    | some tx => broadcast item.descriptorsHex tx
    | none =>
      let (tx, colored) ← buildSweep descriptors
      finishSweep item.descriptorsHex key tx colored

def popFront : Sweep (Option PendingSweepWork) :=
  perform (S := interface) .popFront

def persistSweepState : Sweep Unit :=
  perform (S := interface) .persistSweepState

/-- The tick, for a bounded number of items. -/
def driveSweepWork (env : Env) : ℕ → Sweep Unit
  | 0 => pure ()
  | fuel + 1 => do
    match ← popFront with
    | none => pure ()
    | some item =>
      match ← (processSweepItem env item).run with
      | .ok () =>
        persistSweepState
        driveSweepWork env fuel
      -- the item is tried again by the next tick
      | .error _ =>
        perform (S := interface) (.pushFront item)
        persistSweepState

/-! ### Sessions -/

inductive Call where
  | new
  | spendableOutputs (item : PendingSweepWork)
  | drive (fuel : ℕ)

def body (env : Env) : Call → Sweep Unit
  | .new => perform (S := interface) .new
  | .spendableOutputs item => perform (S := interface) (.spendableOutputs item)
  | .drive fuel => driveSweepWork env fuel

/-- The world after a sequence of events, ticks and reloads of a page that was never loaded
before. -/
def worldAfter (env : Env) (as : List (Session.Action Call Fault)) : World :=
  (Session.run (machine env) (body env) ⟨[], {}⟩ as).world

/-! ### What a sweep performs -/

/-- The operations by which a transaction is built. -/
def IsQuery : Op → Prop
  | .ask _ => True
  | _ => False

theorem all_ask (q : Query) :
  (ask q).All IsQuery
  := ⟨trivial, fun _ => trivial⟩

theorem all_lift {α : Type} {p : Sweep α} (hp : p.All IsQuery) :
  (liftM p : Attempt α).run.All IsQuery
  := hp.bind fun _ => trivial

theorem all_orElse {α : Type} (error : String) (a : Option α) :
  (orElse error a).run.All IsQuery
  := by
  cases a with
  | none => trivial
  | some a => trivial

namespace Coloring

variable (c : Coloring)

theorem all_endpoint :
  c.endpoint.run.All IsQuery
  := by
  rw [endpoint]
  split
  · trivial
  · apply attempt (all_ask _)
    intro endpoint
    apply all_orElse

theorem all_updateWitness (txid : Txid) :
  (updateWitness txid).run.All IsQuery
  := by
  apply attempt (all_ask _)
  intro online
  split_ifs
  · apply attempt (all_ask _)
    intro height
    apply attempt (all_orElse _ _)
    intro closingHeight
    apply attempt (all_ask _)
    intro failed
    split_ifs
    · trivial
    · trivial
  · trivial

theorem all_addAmount (endpoint : String) (contractId : ContractId) (amount : UInt64) :
  (c.addAmount endpoint contractId amount).run.All IsQuery
  := by
  rw [addAmount]
  split
  · trivial
  apply attempt (all_ask _)
  intro recipientId
  apply attempt (all_ask _)
  intro script
  apply attempt (all_orElse _ _)
  intro script
  trivial

theorem all_addDescriptor (descriptor : SpendableOutputDescriptor) :
  (c.addDescriptor descriptor).run.All IsQuery
  := by
  apply attempt (all_lift (all_ask _))
  intro known
  split_ifs
  · apply attempt (all_ask _)
    rintro ⟨contractId, rgbAmount⟩
    dsimp only
    split_ifs
    · trivial
    · apply attempt c.all_endpoint
      intro endpoint
      apply attempt (all_updateWitness _)
      intro _
      apply all_addAmount
  · trivial

variable (descriptors : List SpendableOutputDescriptor)

theorem all_build :
  (c.build descriptors).run.All IsQuery
  := by
  induction descriptors generalizing c with
  | nil => trivial
  | cons descriptor descriptors ih =>
    apply attempt (c.all_addDescriptor descriptor)
    apply ih

theorem all_postConsignments (endpoint : String) (tx : Transaction)
    (consignments : List (ContractId × Bytes)) :
  (c.postConsignments endpoint tx consignments).run.All IsQuery
  := by
  induction consignments with
  | nil => trivial
  | cons consignment consignments ih =>
    apply attempt (all_orElse _ _)
    intro info
    apply attempt (all_ask _)
    intro _
    apply ih

theorem all_coloredTx (changeScript : Bytes) :
  (c.coloredTx descriptors changeScript).run.All IsQuery
  := by
  apply attempt (all_lift (all_ask _))
  intro psbt
  apply attempt (all_orElse _ _)
  intro psbt
  apply attempt (all_ask _)
  intro colored
  apply attempt (all_lift (all_ask _))
  intro psbt
  apply attempt (all_orElse _ _)
  intro psbt
  apply attempt (all_ask _)
  intro tx
  apply attempt (all_orElse _ _)
  intro endpoint
  apply attempt (all_postConsignments _ _ _ _)
  intro _
  trivial

end Coloring

theorem all_objectGraph :
  objectGraph.run.All IsQuery
  := by
  apply attempt (all_lift (all_ask _))
  intro graph
  split_ifs
  · trivial
  · trivial

theorem all_buildSweep (descriptors : List SpendableOutputDescriptor) :
  (buildSweep descriptors).run.All IsQuery
  := by
  apply attempt (all_lift (all_ask _))
  intro attached
  split_ifs
  · apply attempt (all_ask _)
    intro changeScript
    apply attempt (Coloring.all_build _ _)
    intro c
    split_ifs
    · apply attempt (all_lift (all_ask _))
      intro tx
      apply attempt (all_orElse _ _)
      intro tx
      trivial
    · apply attempt (c.all_coloredTx _ _)
      intro tx
      trivial
  · trivial

end RgbLightning.BrowserSweep
