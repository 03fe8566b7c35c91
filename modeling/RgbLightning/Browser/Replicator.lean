import RgbLightning.Lib.Session
import RgbLightning.Lib.Run
import RgbLightning.Store.Names

/-!
# Replication of the browser's state

The browser copies its state to a remote store.  A call of `replicate` puts the newest value
of a key, or its removal, into a queue, unless a value with the same hash was accepted last,
and the drain takes the entries of the queue one after the other to the remote store.  Calls
are handled while it waits.  A manifest on the remote store lists the keys that are present;
a change of it that could not be written is parked until a later write succeeds.
`downloadAll` reads back what the manifest lists.
-/

namespace RgbLightning.Replicator

def pendingQueueCap : ℕ := 1000

/-- The number of writes from one check of the fence to the next. -/
def fenceCheckInterval : ℕ := 100

/-- The time in milliseconds between two uploads of a value that can be reconstructed. -/
def reconstructibleMinUploadIntervalMs : ℕ := 5 * 60 * 1000

def catNetworkGraph : Str := str "network-graph"

def catScorer : Str := str "scorer"

def manifestKey : Str := str "__ldk_manifest__"

structure Server where
  manifest : Option (List Str) := none
  objects : Table Str Bytes := ∅

/-- The answer to a request for the fence: the instance the object names, no object, or an
error. -/
inductive FenceReply where
  | ours
  | another
  | missing
  | failed
deriving DecidableEq

/-- Whether `check_fence` accepts the answer. -/
def FenceReply.kept : FenceReply → Bool
  | .ours | .missing => true
  | .another | .failed => false

/-- The state of the replicator and of the remote store.  For reasoning, also the last value
that was accepted for each key, the values that were queued, in order, the answers about the
fence, and whether a request failed or the fence was lost since the drain was begun. -/
structure World where
  pending : Table Str (Option Bytes) := ∅
  latestHash : Table Str UInt64 := ∅
  lastAcceptedMs : Table Str ℕ := ∅
  known : List Str := []
  pendingManifest : Table Str Bool := ∅
  manifestLoaded : Bool := false
  draining : Bool := false
  writesSinceFenceCheck : ℕ := 0
  disabled : Bool := false
  server : Server := {}
  accepted : Table Str (Option Bytes) := ∅
  history : List (Str × Option Bytes) := []
  fenceReplies : List FenceReply := []
  failed : Bool := false

/-! ### Queueing -/

/-- A call of `replicate_triple`, made at a time.  If the queue is full, the entry at the
position `evict` has to go. -/
structure ReplicateCall where
  key : Key
  value : Option Bytes
  now : ℕ := 0
  evict : ℕ := 0
deriving DecidableEq

def ReplicateCall.vkey (c : ReplicateCall) : Str :=
  vssKey c.key

/-- A value that can be reconstructed. -/
def ReplicateCall.reconstructible (c : ReplicateCall) : Bool :=
  c.key.primary = [] ∧ (c.key.secondary = catNetworkGraph ∨ c.key.secondary = catScorer)

/-- What becomes of a call. -/
inductive Verdict where
  | ignored
  | identical
  | tooSoon
  | queued
deriving DecidableEq

/-- The entry of a map at a position, counted cyclically. -/
def entryAt {V : Type} (t : Table Str V) (n : ℕ) : Option (Str × V) :=
  (t.entries[n % t.entries.length]?).map fun e => (e.1, e.2)

/-- Begins a drain unless one is running. -/
def kickDrain (w : World) : World :=
  { w with draining := true }

/-- Begins a drain if there is something to send. -/
def kickIfPending (w : World) : World :=
  if w.pending.entries.isEmpty then w else kickDrain w

section Replicate

variable (hashBytes : Bytes → UInt64)

def verdict (w : World) (c : ReplicateCall) : Verdict :=
  if w.disabled then .ignored
  else
    match c.value with
    | none => .queued
    | some buf =>
      if w.latestHash.lookup c.vkey = some (hashBytes buf) then .identical
      else if c.reconstructible ∧
          ∃ last ∈ w.lastAcceptedMs.lookup c.vkey,
            c.now < last + reconstructibleMinUploadIntervalMs then .tooSoon
      else .queued

/-- Makes room for a new key in a full queue. -/
def evictFor (w : World) (c : ReplicateCall) : World :=
  if pendingQueueCap ≤ Table.size w.pending ∧ c.vkey ∉ w.pending then
    match entryAt w.pending c.evict with
    | none => w
    | some (evicted, _) =>
      { w with
        pending := w.pending.erase evicted
        latestHash := w.latestHash.erase evicted
        lastAcceptedMs := w.lastAcceptedMs.erase evicted }
  else w

/-- Notes the hash and the time of a value that is queued. -/
def note (w : World) (c : ReplicateCall) : World :=
  match c.value with
  | none => { w with latestHash := w.latestHash.erase c.vkey }
  | some buf =>
    { w with
      latestHash := w.latestHash.insert c.vkey (hashBytes buf)
      lastAcceptedMs :=
        if c.reconstructible then w.lastAcceptedMs.insert c.vkey c.now
        else w.lastAcceptedMs }

def enqueue (w : World) (c : ReplicateCall) : World :=
  { w with
    pending := w.pending.insert c.vkey c.value
    accepted := w.accepted.insert c.vkey c.value
    history := w.history ++ [(c.vkey, c.value)] }

def replicateTriple (w : World) (c : ReplicateCall) : World :=
  match verdict hashBytes w c with
  | .ignored => w
  | .identical => kickIfPending { w with accepted := w.accepted.insert c.vkey c.value }
  | .tooSoon => kickIfPending w
  | .queued => kickDrain (enqueue (evictFor (note hashBytes w c) c) c)

end Replicate

/-! ### The drain -/

/-- The keys after changes of membership. -/
def applyChanges (known : List Str) (changes : Table Str Bool) : List Str :=
  changes.entries.foldl
    (fun keys change =>
      if change.2 then keys.insert change.1 else keys.filter (· ≠ change.1)) known

/-- The steps of a drain, and a call of `replicate`. -/
inductive Op where
  | replicateTriple (c : ReplicateCall)
  | start
  | readManifest
  | seed (keys : List Str)
  | snapshot
  | writeManifest (keys : List Str)
  | commit
  | pop
  | put (vkey : Str) (buf : Bytes)
  | getVersion (vkey : Str)
  | removeObject (vkey : Str)
  | unchanged (vkey : Str) (isPut : Bool)
  | park (vkey : Str) (isPut : Bool)
  | fenceCheckDue
  | checkFence
  | disable
  | requeue (vkey : Str) (value : Option Bytes)
  | finish
  | abandon

/-- The answer to a read is `none` if the request failed. -/
abbrev Ans : Op → Type
  | .start => Bool
  | .readManifest => Option (List Str)
  | .snapshot => Option (List Str)
  | .writeManifest _ => Bool
  | .pop => Option (Str × Option Bytes)
  | .put _ _ => Bool
  | .getVersion _ => Option Bool
  | .removeObject _ => Bool
  | .unchanged _ _ => Bool
  | .fenceCheckDue => Bool
  | .checkFence => Bool
  | _ => Unit

abbrev interface : Interface := ⟨Op, Ans⟩

def op (o : Op) : Prog interface (Ans o) := Prog.perform (S := interface) o

/-- The requests to the remote store. -/
def Op.awaits : Op → Bool
  | .readManifest | .writeManifest _ | .put _ _ | .getVersion _ | .removeObject _
  | .checkFence => true
  | _ => false

/-- How the environment interferes: the calls that are handled while a request is awaited,
how the request ends, what is answered about the fence, and which entry of the queue is
taken. -/
structure Fault where
  calls : List ReplicateCall := []
  fate : WriteFate := .works
  fence : FenceReply := .ours
  choice : ℕ := 0

def reading {α : Type} (w : World) (fate : WriteFate) (answer : α) : Option α × World :=
  match fate with
  | .works => (some answer, w)
  | _ => (none, { w with failed := true })

def writing (w : World) (fate : WriteFate) (change : Server → Server) : Bool × World :=
  match fate with
  | .works => (true, { w with server := change w.server })
  | .fails => (false, { w with failed := true })
  | .failsAfterStoring => (false, { w with server := change w.server, failed := true })

def reboot (w : World) : World :=
  { server := w.server, history := w.history }

/-- The answer to an operation, once the calls that came before it are handled. -/
def act (hashBytes : Bytes → UInt64) (f : Fault) : (o : Op) → World → Ans o × World
  | .replicateTriple c, w => ((), replicateTriple hashBytes w c)
  | .start, w => (w.manifestLoaded, { w with failed := false })
  | .readManifest, w => reading w f.fate (w.server.manifest.getD [])
  | .seed keys, w => ((), { w with known := keys, manifestLoaded := true })
  | .snapshot, w =>
    (if !w.manifestLoaded || w.pendingManifest.entries.isEmpty then none
      else some (applyChanges w.known w.pendingManifest), w)
  | .writeManifest keys, w => writing w f.fate fun s => { s with manifest := some keys }
  | .commit, w =>
    ((), { w with
      known := applyChanges w.known w.pendingManifest
      pendingManifest := ∅ })
  | .pop, w =>
    match entryAt w.pending f.choice with
    | none => (none, w)
    | some (vkey, value) => (some (vkey, value), { w with pending := w.pending.erase vkey })
  | .put vkey buf, w =>
    writing w f.fate fun s => { s with objects := s.objects.insert vkey buf }
  | .getVersion vkey, w => reading w f.fate (w.server.objects.lookup vkey).isSome
  | .removeObject vkey, w =>
    writing w f.fate fun s => { s with objects := s.objects.erase vkey }
  | .unchanged vkey isPut, w =>
    (w.manifestLoaded && (decide (vkey ∈ w.known) == isPut)
      && w.pendingManifest.entries.isEmpty, w)
  | .park vkey isPut, w =>
    ((), { w with pendingManifest := w.pendingManifest.insert vkey isPut })
  | .fenceCheckDue, w =>
    if fenceCheckInterval ≤ w.writesSinceFenceCheck + 1 then
      (true, { w with writesSinceFenceCheck := 0 })
    else (false, { w with writesSinceFenceCheck := w.writesSinceFenceCheck + 1 })
  | .checkFence, w =>
    (f.fence.kept, { w with
      fenceReplies := w.fenceReplies ++ [f.fence]
      failed := w.failed || !f.fence.kept })
  | .disable, w =>
    ((), { w with disabled := true, pending := ∅, latestHash := ∅, lastAcceptedMs := ∅ })
  | .requeue vkey value, w =>
    ((), if vkey ∈ w.pending then w
      else { w with pending := w.pending.insert vkey value })
  | .finish, w => ((), { w with draining := false })
  | .abandon, w => ((), reboot w)

def handle (hashBytes : Bytes → UInt64) (w : World) (calls : List ReplicateCall) : World :=
  Run.run (replicateTriple hashBytes) w calls

def exec (hashBytes : Bytes → UInt64) (f : Fault) (o : Op) (w : World) :
    Option (Ans o) × World :=
  let w := if o.awaits then handle hashBytes w f.calls else w
  (some (act hashBytes f o w).1, (act hashBytes f o w).2)

def machine (hashBytes : Bytes → UInt64) : Machine interface World Fault where
  exec := exec hashBytes
  reboot := reboot
  calm := {}

/-- Stores or removes a value, `WasmVssKvStore::put` and `remove`. -/
def send (key : Key) : Option Bytes → Prog interface Bool
  | some buf => op (.put (vssKey key) buf)
  | none => do
    match ← op (.getVersion (vssKey key)) with
    | none => return false
    | some false => return true
    | some true => op (.removeObject (vssKey key))

def syncManifest : Prog interface Unit := do
  match ← op .snapshot with
  | none => return
  | some keys =>
    if ← op (.writeManifest keys) then op .commit

def maintainManifest (vkey : Str) (isPut : Bool) : Prog interface Unit := do
  if ← op (.unchanged vkey isPut) then return
  op (.park vkey isPut)
  syncManifest

/-- Reads the manifest, if that was not done before. -/
def loadManifest : Prog interface Unit := do
  if ← op .start then return
  match ← op .readManifest with
  | none => return
  | some keys =>
    op (.seed keys)
    syncManifest

/-- Whether the fence is no longer held, asked every `fenceCheckInterval` writes. -/
def fenceLost : Prog interface Bool := do
  if ← op .fenceCheckDue then
    return !(← op .checkFence)
  return false

/-- The loop of the drain.  If it does not end within `fuel` rounds, the page is closed. -/
def drainLoop : ℕ → Prog interface Bool
  | 0 => do
    op .abandon
    return false
  | fuel + 1 => do
    match ← op .pop with
    | none =>
      op .finish
      return true
    | some (vkey, value) =>
      match parseVssKey vkey with
      | none => drainLoop fuel
      | some key =>
        if ← send key value then
          maintainManifest vkey value.isSome
          if ← fenceLost then
            op .disable
            op .finish
            return true
          drainLoop fuel
        else
          op (.requeue vkey value)
          op .finish
          return true

/-- Sends the entries of the queue.  The result says whether the drain came to its end. -/
def drain (fuel : ℕ) : Prog interface Bool := do
  loadManifest
  drainLoop fuel

/-- The values the manifest lists, with their keys. -/
def downloadAll (server : Server) : List (Str × Bytes) :=
  (server.manifest.getD []).filterMap fun vkey =>
    if vkey = manifestKey then none
    else (server.objects.lookup vkey).map fun value => (vkey, value)

/-! ### Sessions -/

inductive Call where
  | replicate (c : ReplicateCall)
  | drain (fuel : ℕ)
deriving DecidableEq

def body : Call → Prog interface Bool
  | .replicate c => do
    op (.replicateTriple c)
    return true
  | .drain fuel => drain fuel

end RgbLightning.Replicator
