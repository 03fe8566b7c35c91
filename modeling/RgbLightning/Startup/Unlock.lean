import RgbLightning.Store.SyncedKvStore

/-!
# Unlocking the node

An unlock attempt of a node with a VSS server acquires the fence, opens the local-first
store, and restores the values on the server if there is no local channel manager.  After
further steps it loads the channel monitors and the channel manager, and checks them if
values were restored: a monitor that reports an open balance must belong to a channel of the
manager.

Steps that do not touch the stores are `StoreOp.external`.  They may fail.
-/

namespace RgbLightning

/-- What the restore guard sees of a channel monitor: its channel, and whether it reports a
balance that is claimable on channel close. -/
structure ChannelMonitor where
  channelId : Bytes
  claimableOnChannelClose : Bool
deriving DecidableEq

/-- How LDK reads its records.  The channel monitors are read from the rows of their
namespaces, the channels of a manager from its row and the monitors. -/
structure LightningReader where
  monitors : (Key → Option Bytes) → Option (List ChannelMonitor)
  manager : Bytes → List ChannelMonitor → Option (List Bytes)

def isMonitorKey (k : Key) : Bool :=
  k.primary = str "monitors" ∨ k.primary = str "monitor_updates"

def monitorRows (rows : List (Key × Bytes)) (k : Key) : Option Bytes :=
  if isMonitorKey k then (rows.find? (·.1 = k)).map (·.2) else none

inductive VssSubject where
  | error (e : IoError)
  | channels (ids : List Bytes)
deriving DecidableEq

/-- Why an attempt fails.  The text of `failedVssInit` is `before`, the subject and `after`. -/
inductive UnlockError where
  | failedVssInit (before : String) (subject : VssSubject) (after : String)
  | failedLoadingChannelState
  | failedStep (cause : IoError)
deriving DecidableEq

/-- What an attempt is given: the stored configuration, the indexer and the network, and
whether an empty restore is allowed. -/
structure UnlockRequest where
  config : Str → Option Bytes
  indexerUrl : Bytes
  bitcoinNetwork : Bytes
  allowEmptyRestore : Bool
  pages : ℕ

/-- The `?` operator. -/
def tryThen {ε α β : Type} (p : Store (Except ε α)) (next : α → Store (Except ε β)) :
    Store (Except ε β) := do
  match ← p with
  | .error e => pure (.error e)
  | .ok a => next a

def externalStep : Store (Except UnlockError Unit) := do
  match ← storeOp .external with
  | .error e => pure (.error (.failedStep e))
  | .ok _ => pure (.ok ())

/-- The key of a value of the wallet configuration. -/
def configKey (name : Str) : Key :=
  ⟨rgbPrimaryNamespace, rgbWalletConfigNs, name⟩

/-- Stores a value of the configuration in the database and in the local-first store. -/
def saveConfig (s : SyncedKvStore) (name : Str) (value : Bytes) :
    Store (Except UnlockError Unit) :=
  tryThen externalStep fun _ => do
    let _ ← s.write (configKey name) value
    pure (.ok ())

/-- Copies the configuration from the database to the local-first store. -/
def syncConfigToKvstore (s : SyncedKvStore) (config : Str → Option Bytes) :
    List Str → Store (Except UnlockError Unit)
  | [] => pure (.ok ())
  | name :: names =>
    tryThen externalStep fun _ => do
      match config name with
      | some value =>
        let _ ← s.write (configKey name) value
        syncConfigToKvstore s config names
      | none => syncConfigToKvstore s config names

/-- Restores the values on the server if there is no local channel manager, and otherwise
pushes what the server lacks.  Returns how many keys were restored. -/
def restoreOrPush (s : SyncedKvStore) (request : UnlockRequest) :
    Store (Except UnlockError ℕ) := do
  match ← s.read channelManagerKey with
  | .ok _ =>
    match ← s.pushMissingToVss request.pages with
    | .error e =>
      pure (.error (.failedVssInit "VSS resync of local state failed: " (.error e) ""))
    | .ok _ => pure (.ok 0)
  | .error _ =>
    match ← s.restoreFromVss false request.pages with
    | .ok restored => pure (.ok restored)
    | .error e =>
      if request.allowEmptyRestore then pure (.ok 0)
      else pure (.error (.failedVssInit "VSS restore failed: " (.error e)
        (". Pass --vss-allow-empty-restore to start with an empty local state instead " ++
          "(UNSAFE if you previously had active channels).")))

/-- Prepares the stores and the configuration.  Returns how many keys were restored. -/
def prepareNode (s : SyncedKvStore) (request : UnlockRequest) :
    Store (Except UnlockError ℕ) := do
  s.withVss
  tryThen (restoreOrPush s request) fun restored =>
    tryThen (syncConfigToKvstore s request.config commonConfigKeys) fun _ =>
      -- The indexer and the proxy are checked.
      tryThen externalStep fun _ =>
        tryThen externalStep fun _ =>
          tryThen (saveConfig s (str "indexer_url") request.indexerUrl) fun _ =>
            tryThen (saveConfig s (str "bitcoin_network") request.bitcoinNetwork) fun _ =>
              pure (.ok restored)

/-- The channels with an open balance that the manager does not know. -/
def lostChannels (monitors : List ChannelMonitor) (channels : List Bytes) : List Bytes :=
  ((monitors.filter fun m => m.channelId ∉ channels).filter
    (·.claimableOnChannelClose)).map (·.channelId)

/-- Refuses restored records in which the manager does not know an open channel.  The restored
manager is dropped, so that the next attempt restores again. -/
def restoreGuard (s : SyncedKvStore) (request : UnlockRequest) (restored : ℕ)
    (monitors : List ChannelMonitor) (channels : List Bytes) :
    Store (Except UnlockError Unit) := do
  if 0 < restored ∧ lostChannels monitors channels ≠ [] ∧ ¬ request.allowEmptyRestore then
    let _ ← s.removeLocalOnly channelManagerKey
    pure (.error (.failedVssInit
      "VSS restore is inconsistent: the restored channel manager does not know channel(s) "
      (.channels (lostChannels monitors channels))
      (" that the restored channel monitors consider open. Unlocking would force-close " ++
        "them. Pass --vss-allow-empty-restore to proceed anyway and accept the force-close.")))
  else
    pure (.ok ())

/-- A panic.  Unwinding releases the fence. -/
def unwind {α : Type} (remote : VssKvStore) : Store α := do
  let _ ← remote.releaseFenceIfOwned
  storePanic

/-- Loads the channel monitors and the channel manager, up to the restore guard. -/
def startLightning (reader : LightningReader) (s : SyncedKvStore) (remote : VssKvStore)
    (request : UnlockRequest) (restored : ℕ) : Store (Except UnlockError Unit) :=
  -- The chain backend is set up.
  tryThen externalStep fun _ => do
    match ← storeOp .localListAll with
    | .error _ => unwind remote
    | .ok rows =>
      match reader.monitors (monitorRows rows) with
      | none => unwind remote
      | some monitors =>
        match ← s.read channelManagerKey with
        | .ok bytes =>
          match reader.manager bytes monitors with
          | none => pure (.error .failedLoadingChannelState)
          | some channels => restoreGuard s request restored monitors channels
        | .error e =>
          -- A fresh manager has no channels.
          if e.kind = .notFound then restoreGuard s request restored monitors []
          else unwind remote

/-- An attempt, up to the restore guard.  If it fails, the fence is released. -/
def unlock (reader : LightningReader) (s : SyncedKvStore) (remote : VssKvStore)
    (request : UnlockRequest) : Store (Except UnlockError Unit) :=
  tryThen externalStep fun _ => do
    match ← remote.acquireFence with
    | .error e => pure (.error (.failedVssInit "" (.error e) ""))
    | .ok _ =>
      match ← tryThen (prepareNode s request) (startLightning reader s remote request) with
      | .error e =>
        let _ ← remote.releaseFenceIfOwned
        pure (.error e)
      | .ok _ => pure (.ok ())

end RgbLightning
