import RgbLightning.Store.Interface

/-!
# The client of the VSS server

`VssKvStore` stores values on the server under their remote names, encrypted.  Writes are
unconditional.  The synchronous removal reads the version of the object and deletes it under
that version; the asynchronous one deletes under the version `-1`.

A single-writer fence is an object of its own, which holds the identity of the instance that
owns the store.
-/

namespace RgbLightning

def storePanic {α : Type} : Store α := do
  let e ← storeOp .panic
  e.elim

/-- A program that never returns. -/
def storeHang {α : Type} : Store α := do
  let e ← storeOp .hang
  e.elim

/-- An error of the client, with the error of the request. -/
def vssFailure (message : String) (cause : VssError) : IoError :=
  ⟨.other, message, some cause⟩

/-- The characters of an ASCII text. -/
def textOf (text : Bytes) : String :=
  String.ofList (text.map fun c => Char.ofNat c.toNat)

/-- How many writes there are between two checks of the fence. -/
def fenceCheckInterval : ℕ := 100

def isTransientVssError : VssError → Bool
  | .internalServerError => true
  | .internalError => true
  | _ => false

/-- The I/O error for a failed request: its kind says whether the failure is transient. -/
def vssErrToIo (e : VssError) (message : String) : IoError :=
  ⟨if isTransientVssError e then .timedOut else .other, message, some e⟩

def isTransientIoError (e : IoError) : Bool :=
  e.kind = .timedOut

/-- A client, with the identity of its instance. -/
structure VssKvStore where
  instanceId : Bytes
deriving DecidableEq

/-! ### Requests -/

def deleteVersion (key : Str) (version : ℤ) (message : String) :
    Store (Except IoError Unit) := do
  match ← storeOp (.putObject (KeyValue.toDelete ⟨key, version, []⟩)) with
  | .ok _ => pure (.ok ())
  | .error .noSuchKeyError => pure (.ok ())
  | .error e => pure (.error (vssFailure message e))

/-- Deletes an object under its current version.  A missing object is no error. -/
def deleteCurrent (key : Str) (readMessage deleteMessage : String) :
    Store (Except IoError Unit) := do
  match ← storeOp (.getObject key) with
  | .ok (some item) => deleteVersion key item.version deleteMessage
  | .ok none => pure (.ok ())
  | .error .noSuchKeyError => pure (.ok ())
  | .error e => pure (.error (vssFailure readMessage e))

/-- Encrypts a value and stores it, whatever the version of the object is. -/
def putValue (key : Str) (buf : Bytes) (onError : VssError → IoError) :
    Store (Except IoError Unit) := do
  match ← storeOp (.encryptValue buf) with
  | .error e => pure (.error e)
  | .ok stored =>
    match ← storeOp (.putObject (KeyValue.toWrite ⟨key, -1, stored⟩)) with
    | .ok _ => pure (.ok ())
    | .error e => pure (.error (onError e))

namespace VssKvStore

/-! ### The fence -/

/-- The error for a fence owned by another instance. -/
def ownedByAnother (remoteId : Bytes) : IoError :=
  ⟨.other,
    "VSS store_id is owned by another rgb-lightning-node instance (" ++ textOf remoteId ++
      "). Refusing to start to avoid concurrent-writer corruption. If this previous owner " ++
      "is definitively gone and you want to take over, delete the `" ++ textOf fenceKey ++
      "` key from VSS first.", none⟩

variable (s : VssKvStore)

def claimFence : Store (Except IoError Unit) := do
  match ← storeOp (.putObject (KeyValue.toWrite ⟨fenceKey, 0, s.instanceId⟩)) with
  | .ok _ => pure (.ok ())
  | .error .conflictError =>
    pure (.error ⟨.other,
      "VSS fence: another instance won the race to claim this store_id", none⟩)
  | .error e => pure (.error (vssFailure "VSS fence acquire failed: " e))

/-- Acquires the fence: creates it if there is none, and fails if another instance owns
it. -/
def acquireFence : Store (Except IoError Unit) := do
  match ← storeOp (.getObject fenceKey) with
  | .ok (some item) =>
    if item.value = s.instanceId then pure (.ok ())
    else pure (.error (ownedByAnother item.value))
  | .ok none => s.claimFence
  | .error .noSuchKeyError => s.claimFence
  | .error e => pure (.error (vssFailure "VSS fence read failed: " e))

def deleteFence (_ : VssKvStore) : Store (Except IoError Unit) :=
  deleteCurrent fenceKey "VSS fence read failed: " "VSS fence delete failed: "

def releaseFenceIfOwned : Store (Except IoError Unit) := do
  match ← storeOp (.getObject fenceKey) with
  | .ok (some item) =>
    if item.value = s.instanceId then
      deleteVersion fenceKey item.version "VSS fence release failed: "
    else
      pure (.ok ())
  | .ok none => pure (.ok ())
  | .error .noSuchKeyError => pure (.ok ())
  | .error e => pure (.error (vssFailure "VSS fence read failed: " e))

/-- Checks the fence at every hundredth write but the first, and panics if another instance
owns it. -/
def checkFencePeriodic : Store Unit := do
  let counter ← storeOp .fetchAddWriteCounter
  if counter = 0 ∨ counter % fenceCheckInterval ≠ 0 then
    pure ()
  else
    match ← storeOp (.getObject fenceKey) with
    | .ok (some item) => if item.value = s.instanceId then pure () else storePanic
    | .ok none => pure ()
    | .error _ => pure ()

/-! ### Reading and writing -/

def readAsync (_ : VssKvStore) (k : Key) : Store (Except IoError Bytes) := do
  match ← storeOp (.getObject (vssKey k)) with
  | .ok (some item) => storeOp (.decryptValue item.value)
  | .ok none => pure (.error .keyNotFound)
  | .error .noSuchKeyError => pure (.error .keyNotFound)
  | .error e => pure (.error (vssFailure "VSS read failed: " e))

def writeAsync (_ : VssKvStore) (k : Key) (buf : Bytes) : Store (Except IoError Unit) :=
  putValue (vssKey k) buf fun e => vssErrToIo e "VSS write failed: "

def removeAsync (_ : VssKvStore) (k : Key) : Store (Except IoError Unit) := do
  match ← storeOp (.putObject (KeyValue.toDelete ⟨vssKey k, -1, []⟩)) with
  | .ok _ => pure (.ok ())
  | .error e => pure (.error (vssErrToIo e "VSS remove failed: "))

def write (s : VssKvStore) (k : Key) (buf : Bytes) : Store (Except IoError Unit) := do
  s.checkFencePeriodic
  putValue (vssKey k) buf (vssFailure "VSS write failed: ")

def removeRaw (_ : VssKvStore) (vk : Str) : Store (Except IoError Unit) :=
  deleteCurrent vk "VSS remove read failed: " "VSS remove failed: "

def remove (k : Key) : Store (Except IoError Unit) := do
  s.checkFencePeriodic
  s.removeRaw (vssKey k)

/-! ### Listing -/

def listFailure (e : VssError) : IoError :=
  vssFailure "VSS list_key_versions failed: " e

/-- The keys on the server from a page on, except for the fence.  There are at most `pages`
pages. -/
def listAllKeysFrom (s : VssKvStore) : (pages : ℕ) → (pageToken : Option ℕ) →
    Store (Except IoError (List Str))
  | 0, _ => storeHang
  | pages + 1, pageToken => do
    match ← storeOp (.listKeyVersions pageToken) with
    | .error e => pure (.error (listFailure e))
    | .ok (page, next) =>
      let keys := page.filter (· ≠ fenceKey)
      match next with
      | none => pure (.ok keys)
      | some token =>
        match ← s.listAllKeysFrom pages (some token) with
        | .error e => pure (.error e)
        | .ok rest => pure (.ok (keys ++ rest))

def listAllKeys (pages : ℕ) : Store (Except IoError (List Str)) :=
  s.listAllKeysFrom pages none

/-- Fetches objects.  One that disappeared since it was listed is skipped. -/
def fetch : List Str → Store (List (Except VssError (Option KeyValue)))
  | [] => pure []
  | key :: keys => do
    let item ← match ← storeOp (.getObject key) with
      | .error .noSuchKeyError => pure (.ok none)
      | answer => pure answer
    let rest ← fetch keys
    pure (item :: rest)

def decryptAll : List (Except VssError (Option KeyValue)) →
    Store (Except IoError (List (Str × Bytes)))
  | [] => pure (.ok [])
  | .ok none :: items => decryptAll items
  | .error e :: _ =>
    pure (.error (vssFailure "VSS get_object failed during download_all: " e))
  | .ok (some item) :: items => do
    match ← storeOp (.decryptValue item.value) with
    | .error e => pure (.error e)
    | .ok plaintext =>
      match ← decryptAll items with
      | .error e => pure (.error e)
      | .ok rest => pure (.ok ((item.key, plaintext) :: rest))

/-- The values on the server from a page on. -/
def downloadAllFrom (s : VssKvStore) : (pages : ℕ) → (pageToken : Option ℕ) →
    Store (Except IoError (List (Str × Bytes)))
  | 0, _ => storeHang
  | pages + 1, pageToken => do
    match ← storeOp (.listKeyVersions pageToken) with
    | .error e => pure (.error (listFailure e))
    | .ok (page, next) =>
      let fetched ← fetch (page.filter (· ≠ fenceKey))
      match ← decryptAll fetched with
      | .error e => pure (.error e)
      | .ok items =>
        match next with
        | none => pure (.ok items)
        | some token =>
          match ← s.downloadAllFrom pages (some token) with
          | .error e => pure (.error e)
          | .ok rest => pure (.ok (items ++ rest))

/-- Downloads all values on the server, except for the fence. -/
def downloadAll (pages : ℕ) : Store (Except IoError (List (Str × Bytes))) :=
  s.downloadAllFrom pages none

end VssKvStore

/-! ### Operations of the methods -/

open Prog

def StoreOp.checksFence : StoreOp → Bool
  | .fetchAddWriteCounter => true
  | .getObject _ => true
  | .panic => true
  | _ => false

theorem checkFencePeriodic_all (s : VssKvStore) :
  s.checkFencePeriodic.All fun o : StoreOp => o.checksFence
  := by
  rw [VssKvStore.checkFencePeriodic, perform_bind]
  refine ⟨rfl, fun counter => ?_⟩
  dsimp only
  split_ifs
  · trivial
  rw [perform_bind]
  refine ⟨rfl, ?_⟩
  rintro (_ | _ | item)
  · trivial
  · trivial
  · simp only
    split_ifs
    · trivial
    · exact ⟨rfl, fun e => e.elim⟩

/-- The operations of acquiring and of releasing the fence. -/
def StoreOp.releasesFence : StoreOp → Prop
  | .getObject _ => True
  | .putObject request => request.keys = [fenceKey]
  | _ => False

theorem releaseFenceIfOwned_all (s : VssKvStore) :
  s.releaseFenceIfOwned.All StoreOp.releasesFence
  := by
  rw [VssKvStore.releaseFenceIfOwned, perform_bind]
  refine ⟨trivial, fun answer => ?_⟩
  dsimp only
  split
  · split_ifs
    · rw [deleteVersion, perform_bind]
      refine ⟨rfl, fun answer => ?_⟩
      dsimp only
      split <;> trivial
    · trivial
  · trivial
  · trivial
  · trivial

theorem acquireFence_all (s : VssKvStore) :
  s.acquireFence.All StoreOp.releasesFence
  := by
  have hclaim : s.claimFence.All StoreOp.releasesFence := by
    rw [VssKvStore.claimFence, perform_bind]
    refine ⟨rfl, fun answer => ?_⟩
    dsimp only
    split <;> trivial
  rw [VssKvStore.acquireFence, perform_bind]
  refine ⟨trivial, fun answer => ?_⟩
  dsimp only
  split
  · split_ifs <;> trivial
  · exact hclaim
  · exact hclaim
  · trivial

end RgbLightning
