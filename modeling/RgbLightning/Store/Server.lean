import RgbLightning.Basic

/-!
# The VSS server

The server keeps versioned objects.  A put request writes and deletes several of them in
one step, if the versions it names are the current ones.  A write with the version `-1` is
accepted whatever the current version is; whether a delete with the version `-1` is, depends
on the server.
-/

namespace RgbLightning

/-- An object on the server.  The version of a missing object is `0`. -/
structure Object where
  version : ℤ
  value : Bytes
  version_pos : 0 < version
deriving DecidableEq

theorem thirdVersion_pos :
  (0 : ℤ) < 3
  := by
  decide

abbrev Objects : Type := Table Str Object

/-- An object as it stands in requests and answers. -/
structure KeyValue where
  key : Str
  version : ℤ
  value : Bytes
deriving DecidableEq

structure PutObjectRequest where
  transactionItems : List KeyValue
  deleteItems : List KeyValue
deriving DecidableEq

def PutObjectRequest.keys (request : PutObjectRequest) : List Str :=
  (request.transactionItems ++ request.deleteItems).map (·.key)

/-- What differs between servers: whether a delete may name the version `-1`, and the error
for a delete of a missing object. -/
structure ServerPolicy where
  acceptsBlindDelete : Bool
  missingDelete : VssError
deriving DecidableEq

namespace Objects

/-- The object under a key, as it stands in an answer. -/
def get (objects : Objects) (key : Str) : Option KeyValue :=
  (objects.lookup key).map fun object => ⟨key, object.version, object.value⟩

def version (objects : Objects) (key : Str) : ℤ :=
  ((objects.lookup key).map (·.version)).getD 0

def acceptsWrite (objects : Objects) (item : KeyValue) : Bool :=
  item.version = -1 ∨ item.version = objects.version item.key

def rejectsDelete (policy : ServerPolicy) (objects : Objects) (item : KeyValue) :
    Option VssError :=
  match objects.lookup item.key with
  | none => some policy.missingDelete
  | some object =>
    if item.version = object.version ∨ (item.version = -1 ∧ policy.acceptsBlindDelete) then
      none
    else
      some .conflictError

/-- The object an item is stored as: its version is `1` for the version `-1` in the request
and the next one otherwise. -/
def stored (item : KeyValue) : Object :=
  ⟨max 1 (item.version + 1), item.value, by omega⟩

/-- The items of a request are about different keys and name possible versions. -/
def wellFormed (items : List KeyValue) : Bool :=
  (items.map (·.key)).Nodup ∧ ∀ item ∈ items, -1 ≤ item.version

def put (policy : ServerPolicy) (objects : Objects) (request : PutObjectRequest) :
    Except VssError Objects :=
  if wellFormed (request.transactionItems ++ request.deleteItems) then
    if request.transactionItems.all objects.acceptsWrite then
      match request.deleteItems.findSome? (objects.rejectsDelete policy) with
      | some e => .error e
      | none =>
        .ok (request.deleteItems.foldl (fun t item => t.erase item.key)
          (request.transactionItems.foldl (fun t item => t.insert item.key (stored item))
            objects))
    else
      .error .conflictError
  else
    .error .invalidRequestError

end Objects

/-! ### Requests -/

theorem Objects.lookup_put {policy : ServerPolicy} {objects server : Objects}
    {request : PutObjectRequest} (hput : objects.put policy request = .ok server) {key : Str}
    (hkey : key ∉ request.keys) :
  server.lookup key = objects.lookup key
  := by
  have hwrites : ∀ (items : List KeyValue) (t : Objects), key ∉ items.map (·.key) →
      (items.foldl (fun t item => t.insert item.key (stored item)) t).lookup key
        = t.lookup key := by
    intro items
    induction items with
    | nil => exact fun _ _ => rfl
    | cons item items ih =>
      intro t h
      rw [List.map_cons, List.mem_cons, not_or] at h
      rw [List.foldl_cons, ih _ h.2, Table.lookup_insert_eq, if_neg h.1]
  have hdeletes : ∀ (items : List KeyValue) (t : Objects), key ∉ items.map (·.key) →
      (items.foldl (fun t item => t.erase item.key) t).lookup key = t.lookup key := by
    intro items
    induction items with
    | nil => exact fun _ _ => rfl
    | cons item items ih =>
      intro t h
      rw [List.map_cons, List.mem_cons, not_or] at h
      rw [List.foldl_cons, ih _ h.2, Table.lookup_erase_eq, if_neg h.1]
  rw [PutObjectRequest.keys, List.map_append, List.mem_append, not_or] at hkey
  rw [put] at hput
  split_ifs at hput
  split at hput
  · cases hput
  · cases hput
    rw [hdeletes _ _ hkey.2, hwrites _ _ hkey.1]

/-! ### Requests with one item -/

def KeyValue.toWrite (item : KeyValue) : PutObjectRequest :=
  ⟨[item], []⟩

def KeyValue.toDelete (item : KeyValue) : PutObjectRequest :=
  ⟨[], [item]⟩

namespace Objects

variable {policy : ServerPolicy} {objects : Objects}

theorem put_toWrite (item : KeyValue) :
  objects.put policy item.toWrite
    = if -1 ≤ item.version then
        if objects.acceptsWrite item then .ok (objects.insert item.key (stored item))
        else .error .conflictError
      else .error .invalidRequestError
  := by
  simp [put, KeyValue.toWrite, wellFormed]

theorem put_toDelete (item : KeyValue) :
  objects.put policy item.toDelete
    = if -1 ≤ item.version then
        match objects.rejectsDelete policy item with
        | some e => .error e
        | none => .ok (objects.erase item.key)
      else .error .invalidRequestError
  := by
  simp only [put, KeyValue.toDelete, wellFormed]
  rcases h : objects.rejectsDelete policy item with _ | e <;> simp [h]

theorem put_unconditional (key : Str) (value : Bytes) :
  objects.put policy (KeyValue.toWrite ⟨key, -1, value⟩)
    = .ok (objects.insert key ⟨1, value, Int.one_pos⟩)
  := by
  rw [put_toWrite, if_pos le_rfl, if_pos (by simp [acceptsWrite])]
  rfl

theorem put_create (key : Str) (value : Bytes) :
  objects.put policy (KeyValue.toWrite ⟨key, 0, value⟩)
    = match objects.lookup key with
      | none => .ok (objects.insert key ⟨1, value, Int.one_pos⟩)
      | some _ => .error .conflictError
  := by
  rw [put_toWrite, if_pos (by dsimp only; omega)]
  rcases h : objects.lookup key with _ | object
  · rw [if_pos (by simp [acceptsWrite, version, h])]
    rfl
  · have hpos := object.version_pos
    rw [if_neg (by simp [acceptsWrite, version, h]; omega)]

theorem put_deleteCurrent {key : Str} {object : Object} (h : objects.lookup key = some object) :
  objects.put policy (KeyValue.toDelete ⟨key, object.version, []⟩) = .ok (objects.erase key)
  := by
  have hpos := object.version_pos
  rw [put_toDelete, if_pos (by dsimp only; omega)]
  simp [rejectsDelete, h]

theorem put_blindDelete {key : Str} {object : Object} (h : objects.lookup key = some object) :
  objects.put policy (KeyValue.toDelete ⟨key, -1, []⟩)
    = if policy.acceptsBlindDelete then .ok (objects.erase key) else .error .conflictError
  := by
  have hpos := object.version_pos
  have hne : ¬ (-1 = object.version) := by omega
  rw [put_toDelete, if_pos le_rfl]
  simp only [rejectsDelete, h, hne, false_or, true_and]
  split_ifs <;> rfl

end Objects

end RgbLightning
