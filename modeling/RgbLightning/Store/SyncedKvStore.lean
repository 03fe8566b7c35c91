import RgbLightning.Store.RemoteFirstKvStore

/-!
# The local-first store

A mutation is committed to the local database together with a replication intent, a row
that says what the server should store.  The intent is cleared once the server has stored
it; until then the mutation waits in the pending map, and draining the map tries again.  The
pending map is read back from the rows when the store is opened.
-/

namespace RgbLightning

/-- How many pending mutations are tried when the pending map is drained. -/
def pendingDrainBatch : ℕ := 16

/-- The default bound for the number of pending mutations. -/
def pendingQueueCap : ℕ := 1000

/-- The local-first store: whether it may only change the common configuration, the client
of the server if there is one, and how many keys may be pending. -/
structure SyncedKvStore where
  commonConfigOnly : Bool
  remote : Option VssKvStore
  pendingCapacity : ℕ
  pendingCapacity_pos : 0 < pendingCapacity

/-! ### Replication intents -/

def encodePendingRow : Option Bytes → Bytes
  | some buf => 1 :: buf
  | none => [0]

/-- The replication intent a row stands for. -/
def decodePendingRow : Bytes → Option (Option Bytes)
  | 1 :: buf => some (some buf)
  | 0 :: _ => some none
  | _ => none

theorem decodePendingRow_encodePendingRow (value : Option Bytes) :
  decodePendingRow (encodePendingRow value) = some value
  := by
  cases value <;> rfl

/-- Whether a row is a well-formed replication intent for the common configuration. -/
def isCommonConfigIntent : Bytes → Bool
  | 0 :: payload => payload = []
  | 1 :: payload => ByteArray.validateUTF8 ⟨payload.toArray⟩
  | _ => false

def clearPendingRow (vk : Str) : Store (Except IoError Unit) := do
  match ← storeOp (.localRemove (pendingKey vk)) with
  | .error e => pure (.error e)
  | .ok _ =>
    let _ ← storeOp (.modifyPending (·.erase vk))
    pure (.ok ())

/-- Undoes the reservation of a place in the pending map. -/
def restorePendingReservation (vk : Str) (previous : Option (Option Bytes)) : Store Unit := do
  let _ ← match previous with
    | some value => storeOp (.modifyPending (·.insert vk value))
    | none => storeOp (.modifyPending (·.erase vk))
  pure ()

def pendingRemoteWrites : Store ℕ := do
  let pending ← storeOp (.modifyPending id)
  pure (Table.size pending)

/-- Records that funding may not advance without must be stored on the server. -/
def requiresRemoteDurability (k : Key) : Bool :=
  (k.primary = rgbSenderFundingNamespace ∧ k.secondary = []) ∨
    (k.primary = rgbPrimaryNamespace ∧ k.secondary = rgbFundingAcceptanceNamespace)

/-- Commits a mutation with its replication intent. -/
def commitWithIntent (k : Key) (value : Option Bytes) : Store (Except IoError Unit) :=
  match value with
  | some buf =>
    storeOp (.writeWithReplicationIntent k buf (pendingKey (vssKey k)) (encodePendingRow value))
  | none =>
    storeOp (.removeWithReplicationIntent k (pendingKey (vssKey k)) (encodePendingRow value))

/-- Makes a mutation on the server. -/
def VssKvStore.replicate (remote : VssKvStore) (k : Key) (value : Option Bytes) :
    Store (Except IoError Unit) :=
  match value with
  | some buf => remote.write k buf
  | none => remote.remove k

/-- Tries pending mutations, up to the first failure. -/
def drainEntries (remote : VssKvStore) : List (Str × Option Bytes) → Store Unit
  | [] => pure ()
  | (vk, value) :: entries => do
    storeOp (.lock (.key vk))
    let pending ← storeOp (.modifyPending id)
    if pending.lookup vk ≠ some value then
      storeOp (.unlock (.key vk))
      drainEntries remote entries
    else
      match parseVssKey vk with
      | none =>
        let _ ← clearPendingRow vk
        storeOp (.unlock (.key vk))
        drainEntries remote entries
      | some k =>
        match ← remote.replicate k value with
        | .error _ => storeOp (.unlock (.key vk))
        | .ok _ =>
          match ← clearPendingRow vk with
          | .error _ => storeOp (.unlock (.key vk))
          | .ok _ =>
            storeOp (.unlock (.key vk))
            drainEntries remote entries

namespace SyncedKvStore

variable (s : SyncedKvStore)

def checkMutation (k : Key) : Except IoError Unit :=
  if s.commonConfigOnly ∧ ¬ isCommonConfig k then
    .error ⟨.permissionDenied,
      "Mainnet persistence permits only common wallet configuration mutations", none⟩
  else
    .ok ()

def checkBulkSync : Except IoError Unit :=
  if s.commonConfigOnly then
    .error ⟨.permissionDenied,
      "Mainnet persistence does not restore or replicate historical Lightning state", none⟩
  else
    .ok ()

/-- The pending map is full, and does not have the key. -/
def isFull (pending : Pending) (vk : Str) : Bool :=
  s.pendingCapacity ≤ Table.size pending ∧ vk ∉ pending

/-- Reserves a place in the pending map.  Returns what was there before. -/
def reservePending (vk : Str) (value : Option Bytes) :
    Store (Except IoError (Option (Option Bytes))) := do
  let before ← storeOp (.modifyPending fun pending =>
    if s.isFull pending vk then pending else pending.insert vk value)
  if s.isFull before vk then
    pure (.error ⟨.wouldBlock,
      "VSS replication backlog is full (" ++ toString s.pendingCapacity ++ " distinct keys)",
      none⟩)
  else
    pure (.ok (before.lookup vk))

def drainPending : Store Unit := do
  match s.remote with
  | none => pure ()
  | some remote =>
    if ← storeOp .loadStopped then
      pure ()
    else
      storeOp (.lock .drainGate)
      -- The store may have been stopped while this waited for the gate.
      if ← storeOp .loadStopped then
        storeOp (.unlock .drainGate)
      else
        let entries ← storeOp .iterPending
        drainEntries remote (entries.take pendingDrainBatch)
        storeOp (.unlock .drainGate)

/-- Drains the pending map until it is empty, the deadline passes, or there is no progress.
The deadline passes after `rounds` rounds. -/
def flushPendingUntil (s : SyncedKvStore) : (rounds : ℕ) → Store ℕ
  | 0 => pendingRemoteWrites
  | rounds + 1 => do
    let before ← pendingRemoteWrites
    if before = 0 then
      pure before
    else
      s.drainPending
      let after ← pendingRemoteWrites
      if before ≤ after then
        pendingRemoteWrites
      else
        s.flushPendingUntil rounds

def stoppedError : IoError :=
  ⟨.brokenPipe, "VSS-synchronized store is stopped", none⟩

/-- A mutation, to a value or to nothing, of a store with a server. -/
def mutate (remote : VssKvStore) (k : Key) (value : Option Bytes) :
    Store (Except IoError Unit) := do
  storeOp (.lock .drainGate)
  if ← storeOp .loadStopped then
    storeOp (.unlock .drainGate)
    pure (.error stoppedError)
  else
    storeOp (.lock (.key (vssKey k)))
    match ← s.reservePending (vssKey k) value with
    | .error e =>
      storeOp (.unlock (.key (vssKey k)))
      storeOp (.unlock .drainGate)
      pure (.error e)
    | .ok previous =>
      match ← commitWithIntent k value with
      | .error e =>
        restorePendingReservation (vssKey k) previous
        storeOp (.unlock (.key (vssKey k)))
        storeOp (.unlock .drainGate)
        pure (.error e)
      | .ok _ =>
        match ← remote.replicate k value with
        | .error e =>
          storeOp (.unlock (.key (vssKey k)))
          storeOp (.unlock .drainGate)
          if requiresRemoteDurability k then pure (.error e) else pure (.ok ())
        | .ok _ =>
          match ← clearPendingRow (vssKey k) with
          | .error _ =>
            storeOp (.unlock (.key (vssKey k)))
            storeOp (.unlock .drainGate)
            pure (.ok ())
          | .ok _ =>
            storeOp (.unlock (.key (vssKey k)))
            storeOp (.unlock .drainGate)
            s.drainPending
            pure (.ok ())

def write (k : Key) (buf : Bytes) : Store (Except IoError Unit) :=
  match s.checkMutation k, s.remote with
  | .error e, _ => pure (.error e)
  | .ok _, some remote => s.mutate remote k (some buf)
  | .ok _, none => storeOp (.localWrite k buf)

def remove (k : Key) : Store (Except IoError Unit) :=
  match s.checkMutation k, s.remote with
  | .error e, _ => pure (.error e)
  | .ok _, some remote => s.mutate remote k none
  | .ok _, none => storeOp (.localRemove k)

def read (_ : SyncedKvStore) (k : Key) : Store (Except IoError Bytes) :=
  storeOp (.localRead k)

/-- Stops replication, and waits for the mutation that is being replicated. -/
def stop (_ : SyncedKvStore) : Store Unit := do
  storeOp .storeStopped
  storeOp (.lockIgnoringPoison .drainGate)
  storeOp (.unlock .drainGate)

/-! ### Opening -/

/-- Reads replication intents back.  Malformed rows are removed. -/
def loadPending (s : SyncedKvStore) : List Str → Pending → Store Pending
  | [], pending => pure pending
  | key :: keys, pending => do
    if s.commonConfigOnly ∧ ¬ isCommonRemoteKey key then
      s.loadPending keys pending
    else
      match ← storeOp (.localRead (pendingKey key)) with
      | .error _ => s.loadPending keys pending
      | .ok row =>
        if s.commonConfigOnly ∧ ¬ isCommonConfigIntent row then
          s.loadPending keys pending
        else
          match decodePendingRow row with
          | some value => s.loadPending keys (pending.insert key value)
          | none =>
            let _ ← storeOp (.localRemove (pendingKey key))
            s.loadPending keys pending

def withVss : Store Unit := do
  match ← storeOp (.localList pendingNs []) with
  | .error _ => storeOp (.openStore ∅)
  | .ok keys =>
    let pending ← s.loadPending keys ∅
    storeOp (.openStore pending)

/-! ### Restoring -/

/-- Writes downloaded values to the local database.  Returns how many were written. -/
def restoreItems : List (Str × Bytes) → Store ℕ
  | [] => pure 0
  | (vk, value) :: items => do
    match parseVssKey vk with
    | none => restoreItems items
    | some k =>
      match ← storeOp (.localWrite k value) with
      | .error _ => restoreItems items
      | .ok _ =>
        let restored ← restoreItems items
        pure (restored + 1)

/-- Restores the values on the server into the local database, unless it already has a
channel manager. -/
def restoreFromVss (force : Bool) (pages : ℕ) :
    Store (Except IoError ℕ) := do
  match s.checkBulkSync, s.remote with
  | .error e, _ => pure (.error e)
  | .ok _, none => pure (.ok 0)
  | .ok _, some remote =>
    let present ← if force then pure false else do
      match ← storeOp (.localRead channelManagerKey) with
      | .ok _ => pure true
      | .error _ => pure false
    if present then
      pure (.ok 0)
    else
      match ← remote.downloadAll pages with
      | .error e => pure (.error e)
      | .ok items =>
        let restored ← restoreItems items
        pure (.ok restored)

def isLocalOnly (k : Key) : Bool :=
  k.primary = pendingNs ∨ (k.primary = reimportMarkerNamespace ∧ k.key = reimportMarkerKey)
    ∨ bpRoute k = .localOnly

def pushRows (remote : VssKvStore) (remoteKeys : List Str) : List (Key × Bytes) →
    Store (Except IoError ℕ)
  | [] => pure (.ok 0)
  | (k, value) :: rows => do
    if isLocalOnly k ∨ vssKey k ∈ remoteKeys then
      pushRows remote remoteKeys rows
    else
      match ← remote.write k value with
      | .error e => pure (.error e)
      | .ok _ =>
        match ← pushRows remote remoteKeys rows with
        | .error e => pure (.error e)
        | .ok pushed => pure (.ok (pushed + 1))

/-- Writes the values of the local database that the server lacks. -/
def pushMissingToVss (pages : ℕ) : Store (Except IoError ℕ) := do
  match s.checkBulkSync, s.remote with
  | .error e, _ => pure (.error e)
  | .ok _, none => pure (.ok 0)
  | .ok _, some remote =>
    match ← remote.listAllKeys pages with
    | .error e => pure (.error e)
    | .ok remoteKeys =>
      match ← storeOp .localListAll with
      | .error e => pure (.error e)
      | .ok rows => pushRows remote remoteKeys rows

def writeLocalOnly (k : Key) (buf : Bytes) : Store (Except IoError Unit) :=
  match s.checkMutation k with
  | .error e => pure (.error e)
  | .ok _ => storeOp (.localWrite k buf)

def removeLocalOnly (k : Key) : Store (Except IoError Unit) :=
  match s.checkMutation k with
  | .error e => pure (.error e)
  | .ok _ => storeOp (.localRemove k)

def releaseVssFenceIfOwned : Store (Except IoError Unit) :=
  match s.remote with
  | some remote => remote.releaseFenceIfOwned
  | none => pure (.ok ())

end SyncedKvStore

end RgbLightning
