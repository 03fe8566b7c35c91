import RgbLightning.Store.VssKvStore

/-!
# The remote-first store

A mutation returns once the server has stored it, and is then mirrored to the local
database; a failure of the mirror is ignored.  A failed request is repeated as long as the
failure is transient and the store is not stopped.  Reads prefer the local database.

The number of attempts of a call is bounded by a parameter, at which the program hangs: a
mutation that is repeated forever never returns.
-/

namespace RgbLightning

/-- Where the background processor stores a value. -/
inductive BpRoute where
  | remoteFirst
  | localOnly
  | rest
deriving DecidableEq, Repr

def bpRoute (k : Key) : BpRoute :=
  if k = channelManagerKey ∨ k = outputSweeperKey then .remoteFirst
  else if k = networkGraphKey ∨ k = scorerKey then .localOnly
  else .rest

/-- The remote-first store, with the client of the server if there is one. -/
structure RemoteFirstKvStore where
  remote : Option VssKvStore

/-- Repeats an operation while it fails for a transient reason, until the store is stopped.
The receiver of the shutdown channel is dropped at the end. -/
def retryTransient (op : Store (Except IoError Unit)) : (attempts : ℕ) →
    Store (Except IoError Unit)
  | 0 => storeHang
  | attempts + 1 => do
    match ← op with
    | .ok _ =>
      storeOp .dropReceiver
      pure (.ok ())
    | .error e =>
      if isTransientIoError e then
        if ← storeOp .backoff then
          storeOp .dropReceiver
          pure (.error e)
        else
          retryTransient op attempts
      else
        storeOp .dropReceiver
        pure (.error e)

namespace RemoteFirstKvStore

/-- Tells the pending mutations to give up. -/
def stop (_ : RemoteFirstKvStore) : Store Unit :=
  storeOp .sendShutdown

variable (s : RemoteFirstKvStore)

def read (k : Key) : Store (Except IoError Bytes) := do
  match ← storeOp (.localRead k) with
  | .ok value => pure (.ok value)
  | .error e =>
    if e.kind = .notFound then
      match s.remote with
      | some remote => remote.readAsync k
      | none => pure (.error e)
    else
      pure (.error e)

/-- A mutation of a key: what to do on the server, and what to do in the local database. -/
def mutate (k : Key) (attempts : ℕ) (remoteOp : VssKvStore → Store (Except IoError Unit))
    (localOp : Store (Except IoError Unit)) :
    Store (Except IoError Unit) := do
  storeOp .subscribe
  storeOp (.lock (.remoteKey (vssKey k)))
  match s.remote with
  | some remote =>
    match ← retryTransient (remoteOp remote) attempts with
    | .error e =>
      storeOp (.unlock (.remoteKey (vssKey k)))
      pure (.error e)
    | .ok _ =>
      -- A failure of the mirror is logged.
      let _ ← localOp
      storeOp (.unlock (.remoteKey (vssKey k)))
      pure (.ok ())
  | none =>
    let r ← localOp
    storeOp (.unlock (.remoteKey (vssKey k)))
    storeOp .dropReceiver
    pure r

def write (attempts : ℕ) (k : Key) (buf : Bytes) :
    Store (Except IoError Unit) :=
  s.mutate k attempts (fun remote => remote.writeAsync k buf) (storeOp (.localWrite k buf))

def remove (attempts : ℕ) (k : Key) : Store (Except IoError Unit) :=
  s.mutate k attempts (fun remote => remote.removeAsync k) (storeOp (.localRemove k))

end RemoteFirstKvStore

end RgbLightning
