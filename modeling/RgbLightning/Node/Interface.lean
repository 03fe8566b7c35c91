import RgbLightning.Lib.Session
import RgbLightning.Node.Types
import RgbLightning.Store.Names

/-!
# What the node's handlers do to the world

The handlers of API calls and of channel-manager events are programs over `nodeInterface`.
Its operations are those of the key-value store, of the channel manager, of the RGB
channel balances, of the clock, and of the mutexes that protect the records the node
keeps both in memory and in the store.

A panic while a mutex is locked poisons it.  A crash loses what is in memory: the records
are read from the store again.
-/

namespace RgbLightning

/-! ### Records -/

/-- The records kept in memory and in the store. -/
inductive Cell where
  | takerSwaps
  | makerSwaps
  | inboundPayments
  | outboundPayments
deriving DecidableEq, Repr

abbrev Cell.Content : Cell → Type
  | .takerSwaps => SwapMap
  | .makerSwaps => SwapMap
  | .inboundPayments => Table PaymentHash PaymentInfo
  | .outboundPayments => Table PaymentId PaymentInfo

/-- A record in memory, behind its mutex, and in the store. -/
structure Persisted (α : Type) where
  memory : α
  disk : α
  locked : Bool := false
  poisoned : Bool := false

namespace Persisted

variable {α : Type}

/-- The record after a panic: a locked mutex is poisoned. -/
def panic (p : Persisted α) : Persisted α :=
  { p with locked := false, poisoned := p.poisoned || p.locked }

/-- The record after a restart. -/
def reload (p : Persisted α) : Persisted α :=
  ⟨p.disk, p.disk, false, false⟩

end Persisted

/-! ### Operations -/

inductive AssetSchema where
  | nia
  | uda
  | cfa
  | ifa
  | bfa
deriving DecidableEq, Repr

structure Metadata where
  assetSchema : AssetSchema
  linkedToAssetId : Option Str
  linkedFromAssetId : Option Str
deriving DecidableEq

inductive TransferStatus where
  | initiated
  | waitingCounterparty
  | waitingSafeHeight
  | waitingConfirmations
  | waitingBroadcast
  | settled
  | failed
deriving DecidableEq, Repr

/-- An HTLC handed on by the channel manager. -/
structure Forward where
  paymentHash : PaymentHash
  interceptId : InterceptId
  nextHopScid : ℕ
  nextNodeId : PublicKey
  amtToForwardMsat : ℕ
  rgbPayment : Option (ContractId × ℕ)
deriving DecidableEq

inductive NodeOp where
  | deliver (e : Event)
  | lock (c : Cell)
  | set (c : Cell) (v : c.Content)
  | save (c : Cell)
  | unlock (c : Cell)
  | panic
  | getCurrentTimestamp
  | nextPaymentIdx
  | listChannels
  | failInterceptedHtlc (id : InterceptId)
  | forwardInterceptedHtlc (f : Forward)
  | readRgbChannelInfo (channelId : Str) (pending : Bool)
  | updateRgbChannelAmount (channelId : Str) (offered received : ℕ)
  | list (primary secondary : Str)
  | read (k : Key)
  | remove (k : Key)
  | upgradeState
  | rgbGetAssetMetadata (c : ContractId)
  | rgbFindLinkTransfer (c : ContractId)

abbrev NodeOp.Ans : NodeOp → Type
  | .deliver _ => Unit
  | .lock c => c.Content
  | .set _ _ => Unit
  | .save _ => Except IoError Unit
  | .unlock _ => Unit
  | .panic => Empty
  | .getCurrentTimestamp => ℕ
  | .nextPaymentIdx => ℕ
  | .listChannels => List ChannelDetails
  | .failInterceptedHtlc _ => Except IoError Unit
  | .forwardInterceptedHtlc _ => Except IoError Unit
  | .readRgbChannelInfo _ _ => Except IoError RgbInfo
  | .updateRgbChannelAmount _ _ _ => Unit
  | .list _ _ => Except IoError (List Str)
  | .read _ => Except IoError Bytes
  | .remove _ => Except IoError Unit
  | .upgradeState => Bool
  | .rgbGetAssetMetadata _ => Option Metadata
  | .rgbFindLinkTransfer _ => Option (Option TransferStatus)

abbrev nodeInterface : Interface := ⟨NodeOp, NodeOp.Ans⟩

abbrev Node (α : Type) : Type := Prog nodeInterface α

abbrev nodeOp (o : NodeOp) : Node o.Ans := Prog.perform (S := nodeInterface) o

/-! ### The world -/

/-- A change of the RGB balance of a channel, made while handling an event. -/
structure Change where
  event : Option Event
  channelId : Str
  offered : ℕ
  received : ℕ
deriving DecidableEq

/-- The state of the node and of what it talks to.  The HTLCs forwarded and the balance
changes made so far are recorded. -/
structure World where
  clock : ℕ := 0
  channels : List ChannelDetails := []
  rgbInfo : Table (Str × Bool) RgbInfo := ∅
  rows : Table Key Bytes := ∅
  cells : (c : Cell) → Persisted c.Content
  paymentIdx : ℕ := 1
  stateAvailable : Bool := true
  metadata : ContractId → Option Metadata := fun _ => none
  linkTransfer : ContractId → Option (Option TransferStatus) := fun _ => none
  handling : Option Event := none
  forwarded : List Forward := []
  changes : List Change := []

def emptyCell : (c : Cell) → Persisted c.Content
  | .takerSwaps => ⟨∅, ∅, false, false⟩
  | .makerSwaps => ⟨∅, ∅, false, false⟩
  | .inboundPayments => ⟨∅, ∅, false, false⟩
  | .outboundPayments => ⟨∅, ∅, false, false⟩

/-- A node without channels, swaps and payments. -/
def freshWorld : World := { cells := emptyCell }

namespace World

def setCell (w : World) (c : Cell) (p : Persisted c.Content) : World :=
  { w with cells := Function.update w.cells c p }

def panic (w : World) : World :=
  { w with cells := fun c => (w.cells c).panic }

def reboot (w : World) : World :=
  { w with cells := fun c => (w.cells c).reload, handling := none }

/-- The world after an RGB channel balance is updated: the received amount is added to
the local balance and the offered amount subtracted from it. -/
def updateRgbChannelAmount (w : World) (channelId : Str) (info : RgbInfo)
    (offered received : ℕ) : World :=
  { w with
    rgbInfo := w.rgbInfo.insert (channelId, false)
      { info with
        localRgbAmount := info.localRgbAmount + received - offered
        remoteRgbAmount := info.remoteRgbAmount + offered - received }
    changes := w.changes ++ [⟨w.handling, channelId, offered, received⟩] }

end World

/-! ### The machine -/

/-- How the environment interferes with an operation: it fails without effect, it takes
effect but fails to say so, or time passes before it. -/
inductive Fault where
  | calm
  | fails (e : Failure)
  | lost (e : Failure)
  | delay (d : ℕ)
deriving DecidableEq, Repr

/-- The error of a fault that makes an operation fail. -/
def Fault.error? : Fault → Option Failure
  | .fails e => some e
  | .lost e => some e
  | _ => none

def answer {α : Type} (f : Fault) (a : Except IoError α) : Except IoError α :=
  match f.error? with
  | some e => .error e.val
  | none => a

def commit {W : Type} (f : Fault) (w w' : W) : Except IoError Unit × W :=
  match f with
  | .fails e => (.error e.val, w)
  | .lost e => (.error e.val, w')
  | _ => (.ok (), w')

def World.exec (f : Fault) : (o : NodeOp) → World → Option o.Ans × World
  | .deliver e, w => (some (), { w with handling := some e })
  | .lock c, w =>
    if (w.cells c).poisoned then (none, w.panic)
    else (some (w.cells c).memory, w.setCell c { w.cells c with locked := true })
  | .set c v, w => (some (), w.setCell c { w.cells c with memory := v })
  | .save c, w =>
    let (r, w') := commit f w (w.setCell c { w.cells c with disk := (w.cells c).memory })
    (some r, w')
  | .unlock c, w => (some (), w.setCell c { w.cells c with locked := false })
  | .panic, w => (none, w.panic)
  | .getCurrentTimestamp, w =>
    match f with
    | .delay d => (some (w.clock + d), { w with clock := w.clock + d })
    | _ => (some w.clock, w)
  | .nextPaymentIdx, w => (some w.paymentIdx, { w with paymentIdx := w.paymentIdx + 1 })
  | .listChannels, w => (some w.channels, w)
  | .failInterceptedHtlc _, w => (some (answer f (.ok ())), w)
  | .forwardInterceptedHtlc g, w =>
    match f.error? with
    | some e => (some (.error e.val), w)
    | none => (some (.ok ()), { w with forwarded := w.forwarded ++ [g] })
  | .readRgbChannelInfo channelId pending, w =>
    (some (answer f (match w.rgbInfo.lookup (channelId, pending) with
      | some info => .ok info
      | none => .error .keyNotFound)), w)
  -- The update is atomic: it is made, or it panics and is not made.
  | .updateRgbChannelAmount channelId offered received, w =>
    match w.rgbInfo.lookup (channelId, false), f.error? with
    | some info, none => (some (), w.updateRgbChannelAmount channelId info offered received)
    | _, _ => (none, w.panic)
  | .list primary secondary, w => (some (answer f (.ok (listRows w.rows primary secondary))), w)
  | .read k, w =>
    (some (answer f (match w.rows.lookup k with
      | some v => .ok v
      | none => .error .keyNotFound)), w)
  | .remove k, w =>
    let (r, w') := commit f w { w with rows := w.rows.erase k }
    (some r, w')
  | .upgradeState, w => (some w.stateAvailable, w)
  | .rgbGetAssetMetadata c, w => (some (if f.error?.isSome then none else w.metadata c), w)
  | .rgbFindLinkTransfer c, w => (some (if f.error?.isSome then none else w.linkTransfer c), w)

abbrev nodeMachine : Machine nodeInterface World Fault where
  exec := World.exec
  reboot := World.reboot
  calm := .calm

end RgbLightning
