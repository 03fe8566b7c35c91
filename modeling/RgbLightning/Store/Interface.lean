import RgbLightning.Lib.Session
import RgbLightning.Lib.Interleave
import RgbLightning.Store.Names
import RgbLightning.Store.Server

/-!
# What the replicated stores do to the world

The local-first and the remote-first store share a local database and a VSS server.  Their
methods are programs over `storeInterface`.  Its operations are those of the local database,
of the VSS client, and of what the stores keep in memory.

A local transaction is made or fails without effect.  A request to the server may fail
without effect, or take effect and fail to say so.  A failure never claims that an object is
missing.

The operations are answered for one thread (`storeMachine`), where a crash loses what is in
memory, and for several threads that share the world (`sharedStore`).
-/

namespace RgbLightning

/-! ### Operations -/

abbrev ThreadId : Type := ℕ

/-- The mutexes of the stores: the drain gate and the key locks of the local-first store,
and the key locks of the remote-first one. -/
inductive Lock where
  | drainGate
  | key (vssKey : Str)
  | remoteKey (vssKey : Str)
deriving DecidableEq

/-- A mutex.  The key locks of the remote-first store are never poisoned. -/
structure Mutex where
  owner : Option ThreadId := none
  poisoned : Bool := false
deriving DecidableEq

def Lock.canBePoisoned : Lock → Bool
  | .remoteKey _ => false
  | _ => true

/-- The mutations that wait for replication: what to write, or `none` for a removal. -/
abbrev Pending : Type := Table Str (Option Bytes)

inductive Task where
  | flush
  | stop
deriving DecidableEq

inductive TaskStatus where
  | idle
  | spawned
  | running (t : ThreadId)
  | finished
  | failed
deriving DecidableEq

inductive TaskOutcome where
  | finished
  | failed
  | timedOut
deriving DecidableEq

/-- What is recorded about a call when it returned. -/
inductive Note where
  | teardownComplete
  | fenceAcquired
  | acknowledged (k : Key) (value : Option Bytes)
deriving DecidableEq

inductive StoreOp where
  | lock (l : Lock)
  | lockIgnoringPoison (l : Lock)
  | unlock (l : Lock)
  | panic
  | hang
  | loadStopped
  | storeStopped
  | modifyPending (change : Pending → Pending)
  | iterPending
  | openStore (pending : Pending)
  | subscribe
  | dropReceiver
  | sendShutdown
  | backoff
  | spawnTask (task : Task)
  | beginTask (task : Task)
  | endTask (task : Task)
  | awaitTask (task : Task)
  | note (n : Note)
  | localRead (k : Key)
  | localList (primary secondary : Str)
  | localListAll
  | localWrite (k : Key) (value : Bytes)
  | localRemove (k : Key)
  | writeWithReplicationIntent (k : Key) (value : Bytes) (intentKey : Key) (intent : Bytes)
  | removeWithReplicationIntent (k : Key) (intentKey : Key) (intent : Bytes)
  | encryptValue (plaintext : Bytes)
  | decryptValue (stored : Bytes)
  | getObject (key : Str)
  | putObject (request : PutObjectRequest)
  | listKeyVersions (pageToken : Option ℕ)
  | fetchAddWriteCounter
  | external

abbrev StoreOp.Ans : StoreOp → Type
  | .lock _ => Unit
  | .lockIgnoringPoison _ => Unit
  | .unlock _ => Unit
  | .panic => Empty
  | .hang => Empty
  | .loadStopped => Bool
  | .storeStopped => Unit
  | .modifyPending _ => Pending
  | .iterPending => List (Str × Option Bytes)
  | .openStore _ => Unit
  | .subscribe => Unit
  | .dropReceiver => Unit
  | .sendShutdown => Unit
  | .backoff => Bool
  | .spawnTask _ => Unit
  | .beginTask _ => Unit
  | .endTask _ => Unit
  | .awaitTask _ => TaskOutcome
  | .note _ => Unit
  | .localRead _ => Except IoError Bytes
  | .localList _ _ => Except IoError (List Str)
  | .localListAll => Except IoError (List (Key × Bytes))
  | .localWrite _ _ => Except IoError Unit
  | .localRemove _ => Except IoError Unit
  | .writeWithReplicationIntent _ _ _ _ => Except IoError Unit
  | .removeWithReplicationIntent _ _ _ => Except IoError Unit
  | .encryptValue _ => Except IoError Bytes
  | .decryptValue _ => Except IoError Bytes
  | .getObject _ => Except VssError (Option KeyValue)
  | .putObject _ => Except VssError Unit
  | .listKeyVersions _ => Except VssError (List Str × Option ℕ)
  | .fetchAddWriteCounter => ℕ
  | .external => Except IoError Unit

abbrev storeInterface : Interface := ⟨StoreOp, StoreOp.Ans⟩

abbrev Store (α : Type) : Type := Prog storeInterface α

abbrev storeOp (o : StoreOp) : Store o.Ans := Prog.perform (S := storeInterface) o

/-! ### The world -/

/-- The state of the teardown.  It is recorded whether the stop of the local-first store has
taken the drain gate (`waited`), whether the remote-first store was told to stop
(`signalled`), whether the teardown is complete, and the requests to the server since
then, except for those about the fence alone. -/
structure Teardown where
  tasks : Task → TaskStatus := fun _ => .idle
  waited : Bool := false
  signalled : Bool := false
  complete : Bool := false
  late : List PutObjectRequest := []

/-- The state of the stores, of the local database and of the server.  It is recorded how
many mutations were committed together with their replication intents. -/
structure StoreWorld where
  rows : Table Key Bytes := ∅
  opened : Bool := false
  pending : Pending := ∅
  stopped : Bool := false
  locks : Lock → Mutex := fun _ => {}
  writeCounter : ℕ := 0
  shutdown : Bool := false
  receivers : Finset ThreadId := ∅
  teardown : Teardown := {}
  policy : ServerPolicy := ⟨false, .conflictError⟩
  server : Objects := ∅
  commits : ℕ := 0

namespace StoreWorld

def setLock (w : StoreWorld) (l : Lock) (m : Mutex) : StoreWorld :=
  { w with locks := Function.update w.locks l m }

/-- The world after a thread panicked: its mutexes are unlocked and poisoned, its task
failed. -/
def panic (w : StoreWorld) (t : ThreadId) : StoreWorld :=
  { w with
    locks := fun l =>
      if (w.locks l).owner = some t then
        ⟨none, (w.locks l).poisoned || l.canBePoisoned⟩
      else
        w.locks l
    receivers := w.receivers.erase t
    teardown :=
      { w.teardown with
        tasks := fun task =>
          if w.teardown.tasks task = .running t then .failed else w.teardown.tasks task } }

/-- The world after a crash: the local database and the server are left. -/
def reboot (w : StoreWorld) : StoreWorld :=
  { rows := w.rows, policy := w.policy, server := w.server, commits := w.commits }

end StoreWorld

/-! ### The machine -/

/-- A failure of a request to the server.  It never claims that an object is missing. -/
abbrev RemoteFailure : Type := { e : VssError // e ≠ .noSuchKeyError }

def serverError : RemoteFailure := ⟨.internalServerError, by decide⟩

/-- How the environment interferes with an operation. -/
inductive StoreFault where
  | calm
  | localFails (e : Failure)
  | remoteFails (e : RemoteFailure)
  | remoteLost (e : RemoteFailure)
  | order (keys : List Str)
  | page (size : ℕ)
  | timesOut
deriving DecidableEq

namespace StoreFault

def localError? : StoreFault → Option IoError
  | .localFails e => some e.val
  | _ => none

/-- The error of a request to the server. -/
def remoteError? : StoreFault → Option VssError
  | .remoteFails e => some e.val
  | .remoteLost e => some e.val
  | _ => none

/-- The outcome of a local query. -/
def localAnswer {α : Type} (f : StoreFault) (a : Except IoError α) : Except IoError α :=
  match f.localError? with
  | some e => .error e
  | none => a

/-- The outcome of a local transaction. -/
def transact (f : StoreFault) (w w' : StoreWorld) : Except IoError Unit × StoreWorld :=
  match f.localError? with
  | some e => (.error e, w)
  | none => (.ok (), w')

/-- The outcome of a query to the server. -/
def remoteAnswer {α : Type} (f : StoreFault) (a : Except VssError α) : Except VssError α :=
  match f.remoteError? with
  | some e => .error e
  | none => a

end StoreFault

/-- The entries of a map in an order of the environment's choice. -/
def Pending.arrange (pending : Pending) (order : List Str) : List (Str × Option Bytes) :=
  ((order.dedup ++ pending.keys.filter (· ∉ order)).filterMap fun key =>
    (pending.lookup key).map (key, ·))

namespace StoreWorld

def put (w : StoreWorld) (request : PutObjectRequest) : Except VssError Unit × StoreWorld :=
  match Objects.put w.policy w.server request with
  | .ok server => (.ok (), { w with server })
  | .error e => (.error e, w)

variable (w : StoreWorld)

def putObject (f : StoreFault) (request : PutObjectRequest) :
    Except VssError Unit × StoreWorld :=
  match f with
  | .remoteFails e => (.error e.val, w)
  | .remoteLost e => (.error e.val, (w.put request).2)
  | _ => w.put request

/-- The world when a request is sent: requests sent after the teardown are recorded, unless
they are about the fence alone. -/
def recordRequest (request : PutObjectRequest) : StoreWorld :=
  if w.teardown.complete ∧ request.keys ≠ [fenceKey] then
    { w with teardown := { w.teardown with late := w.teardown.late ++ [request] } }
  else
    w

/-- A page of the keys on the server, and the token of the next page. -/
def listPage (f : StoreFault) (pageToken : Option ℕ) :
    List Str × Option ℕ :=
  let start := pageToken.getD 0
  let rest := w.server.keys.drop start
  match f with
  | .page size =>
    (rest.take (size + 1),
      if size + 1 < rest.length then some (start + (size + 1)) else none)
  | _ => (rest, none)

def setTask (task : Task) (status : TaskStatus) : StoreWorld :=
  { w with
    teardown :=
      { w.teardown with tasks := Function.update w.teardown.tasks task status } }

/-- What waiting for a task answers.  It blocks until the task ends, unless the time is
over. -/
def awaitTask (f : StoreFault) (task : Task) : Option TaskOutcome :=
  match f, w.teardown.tasks task with
  | .timesOut, _ => some .timedOut
  | _, .finished => some .finished
  | _, .failed => some .failed
  | _, _ => none

def exec (t : ThreadId) (f : StoreFault) :
    (o : StoreOp) → StoreWorld → Option (Option o.Ans × StoreWorld)
  | .lock l, w =>
    match (w.locks l).owner with
    | some _ => none
    | none =>
      if (w.locks l).poisoned then some (none, w.panic t)
      else some (some (), w.setLock l { w.locks l with owner := some t })
  | .lockIgnoringPoison l, w =>
    match (w.locks l).owner with
    | some _ => none
    | none =>
      some (some (),
        { w.setLock l { w.locks l with owner := some t } with
          teardown := { w.teardown with waited := w.teardown.waited || w.stopped } })
  | .unlock l, w => some (some (), w.setLock l { w.locks l with owner := none })
  | .panic, w => some (none, w.panic t)
  | .hang, _ => none
  | .loadStopped, w => some (some w.stopped, w)
  | .storeStopped, w => some (some (), { w with stopped := true })
  | .modifyPending change, w => some (some w.pending, { w with pending := change w.pending })
  | .iterPending, w =>
    match f with
    | .order keys => some (some (w.pending.arrange keys), w)
    | _ => some (some (w.pending.arrange []), w)
  | .openStore pending, w => some (some (), { w with opened := true, pending })
  | .subscribe, w => some (some (), { w with receivers := insert t w.receivers })
  | .dropReceiver, w => some (some (), { w with receivers := w.receivers.erase t })
  -- Without a receiver the value of the channel does not change.
  | .sendShutdown, w =>
    some (some (),
      { w with
        shutdown := w.shutdown || decide w.receivers.Nonempty
        teardown := { w.teardown with signalled := true } })
  | .backoff, w => some (some w.shutdown, w)
  | .spawnTask task, w => some (some (), w.setTask task .spawned)
  | .beginTask task, w =>
    match w.teardown.tasks task with
    | .spawned => some (some (), w.setTask task (.running t))
    | _ => none
  | .endTask task, w => some (some (), w.setTask task .finished)
  | .awaitTask task, w => (w.awaitTask f task).map fun outcome => (some outcome, w)
  | .note .teardownComplete, w =>
    some (some (), { w with teardown := { w.teardown with complete := true } })
  | .note .fenceAcquired, w => some (some (), w)
  | .note (.acknowledged _ _), w => some (some (), w)
  | .localRead k, w =>
    some (some (f.localAnswer (match w.rows.lookup k with
      | some v => .ok v
      | none => .error .keyNotFound)), w)
  | .localList primary secondary, w =>
    some (some (f.localAnswer (.ok (listRows w.rows primary secondary))), w)
  | .localListAll, w =>
    some (some (f.localAnswer (.ok (w.rows.entries.map fun e => (e.1, e.2)))), w)
  | .localWrite k value, w =>
    let (r, w') := f.transact w { w with rows := w.rows.insert k value }
    some (some r, w')
  | .localRemove k, w =>
    let (r, w') := f.transact w { w with rows := w.rows.erase k }
    some (some r, w')
  | .writeWithReplicationIntent k value intentKey intent, w =>
    let (r, w') := f.transact w
      { w with
        rows := (w.rows.insert k value).insert intentKey intent
        commits := w.commits + 1 }
    some (some r, w')
  | .removeWithReplicationIntent k intentKey intent, w =>
    let (r, w') := f.transact w
      { w with
        rows := (w.rows.erase k).insert intentKey intent
        commits := w.commits + 1 }
    some (some r, w')
  | .encryptValue plaintext, w => some (some (f.localAnswer (.ok plaintext)), w)
  | .decryptValue stored, w => some (some (f.localAnswer (.ok stored)), w)
  | .getObject key, w =>
    some (some (f.remoteAnswer (match Objects.get w.server key with
      | some item => .ok (some item)
      | none => .error .noSuchKeyError)), w)
  | .putObject request, w =>
    let (r, w') := (w.recordRequest request).putObject f request
    some (some r, w')
  | .listKeyVersions pageToken, w =>
    some (some (f.remoteAnswer (.ok (w.listPage f pageToken))), w)
  | .fetchAddWriteCounter, w =>
    some (some w.writeCounter, { w with writeCounter := w.writeCounter + 1 })
  | .external, w => some (some (f.localAnswer (.ok ())), w)

end StoreWorld

abbrev storeMachine : Machine storeInterface StoreWorld StoreFault where
  exec f o w := (StoreWorld.exec 0 f o w).getD (none, w)
  reboot := StoreWorld.reboot
  calm := .calm

abbrev sharedStore : Interleave.Shared storeInterface ThreadId StoreWorld StoreFault where
  exec := StoreWorld.exec

end RgbLightning
