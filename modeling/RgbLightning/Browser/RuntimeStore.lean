import RgbLightning.Basic

/-!
# The store of the browser

Values are kept in two tiers.  A write goes to the local storage, which answers at once, and
is copied to the database in the background, where it may fail, finish late or be lost when
the page is reloaded.  A page lists the database when it is loaded, and copies an entry it
found over the local one when the key is read for the first time, unless the key was used
before.

`settled` is the database after all writes that were issued, in their order.  As long as
writes finish in that order it does not change when one does (`settled_completeWrite`).
-/

namespace RgbLightning.RuntimeStore

/-- How an operation of the local storage ends. -/
inductive StorageFate where
  | works
  | fails
deriving DecidableEq

variable {K : Type} [DecidableEq K] {V : K → Type} {N : Type}

/-- A write to the database that has been issued, and what is done when it has finished.
Without a value the key is deleted. -/
structure IdbWrite (V : K → Type) (N : Type) where
  key : K
  value : Option (V key)
  next : Option N

def IdbWrite.apply (db : AList V) (write : IdbWrite V N) : AList V :=
  match write.value with
  | some value => db.insert write.key value
  | none => db.erase write.key

/-- A listing of the database under way: the revision at which it was asked for, and what it
found once it has. -/
structure PreloadRead (V : K → Type) where
  revision : UInt64
  listing : Option (AList V)

/-- What a page knows of the database: the entries not yet copied, the keys used while a
listing is under way, and whether a listing has been taken over. -/
structure DeferredRuntimeState (V : K → Type) where
  entries : AList V := ∅
  revision : UInt64 := 0
  reads : List (PreloadRead V) := []
  touched : Table K UInt64 := ∅
  preloaded : Bool := false

structure Store (V : K → Type) (N : Type) where
  localStorage : AList V := ∅
  indexedDb : AList V := ∅
  pending : List (IdbWrite V N) := []
  deferred : DeferredRuntimeState V := {}

namespace DeferredRuntimeState

variable (d : DeferredRuntimeState V)

/-- A key is used: its entry is given up, and listings under way are told. -/
def takeDeferredKey (k : K) : DeferredRuntimeState V :=
  if d.reads.isEmpty then { d with entries := d.entries.erase k }
  else
    { d with
      revision := d.revision + 1
      touched := d.touched.insert k (d.revision + 1)
      entries := d.entries.erase k }

/-- A listing is asked for, unless one has been taken over. -/
def beginPreload : DeferredRuntimeState V :=
  if d.preloaded then d else { d with reads := d.reads ++ [⟨d.revision, none⟩] }

/-- An entry that was found counts unless its key was used after the listing was asked for. -/
def addEntry (revision : UInt64) (entry : Sigma V) : DeferredRuntimeState V :=
  if revision < (d.touched.lookup entry.1).getD 0 then d
  else { d with entries := d.entries.insert entry.1 entry.2 }

/-- What a listing found is taken over, unless another was before. -/
def addListing (read : PreloadRead V) : DeferredRuntimeState V :=
  match read.listing with
  | some listing =>
    if d.preloaded then d
    else listing.entries.foldl (fun d e => d.addEntry read.revision e)
      { d with preloaded := true }
  -- the request failed
  | none => d

def finishPreload (n : ℕ) : DeferredRuntimeState V :=
  match d.reads[n]? with
  | some read =>
    let d := d.addListing read
    let reads := d.reads.eraseIdx n
    { d with reads := reads, touched := if reads.isEmpty then ∅ else d.touched }
  | none => d

end DeferredRuntimeState

namespace Store

variable (s : Store V N)

/-- A key is read, after its entry of the database has been copied if there is one. -/
def get (k : K) (hydrate read : StorageFate) : Except String (Option (V k)) × Store V N :=
  let localStorage :=
    match s.deferred.entries.lookup k, hydrate with
    | some value, .works => s.localStorage.insert k value
    | _, _ => s.localStorage
  let s := { s with localStorage := localStorage, deferred := s.deferred.takeDeferredKey k }
  match read with
  | .works => (.ok (localStorage.lookup k), s)
  | .fails => (.error "localStorage read failed", s)

/-- A key is written, and the write to the database is issued. -/
def set (k : K) (value : V k) : StorageFate → Except String Unit × Store V N
  | .fails => (.error "localStorage write failed", s)
  | .works => (.ok (),
      { s with
        localStorage := s.localStorage.insert k value
        deferred := s.deferred.takeDeferredKey k
        pending := s.pending ++ [⟨k, some value, none⟩] })

def delete (k : K) : StorageFate → Except String Unit × Store V N
  | .fails => (.error "localStorage remove failed", s)
  | .works => (.ok (),
      { s with
        localStorage := s.localStorage.erase k
        deferred := s.deferred.takeDeferredKey k
        pending := s.pending ++ [⟨k, none, none⟩] })

/-- A write to the database alone, whose end is waited for. -/
def indexedDbSetDurable (k : K) (value : V k) (next : N) : Store V N :=
  { s with pending := s.pending ++ [⟨k, some value, some next⟩] }

/-- A write to the database ends.  When it has succeeded the key counts as used. -/
def completeWrite (n : ℕ) (fate : StorageFate) : Store V N :=
  match s.pending[n]?, fate with
  | some write, .works =>
    { s with
      indexedDb := write.apply s.indexedDb
      pending := s.pending.eraseIdx n
      deferred := s.deferred.takeDeferredKey write.key }
  | some _, .fails => { s with pending := s.pending.eraseIdx n }
  | none, _ => s

def listEntries (n : ℕ) : Store V N :=
  { s with
    deferred.reads := s.deferred.reads.modify n fun read =>
      { read with listing := some s.indexedDb } }

/-- The page is reloaded.  Of the writes under way those that are named still reach the
database. -/
def reload (finished : List ℕ) : Store V N :=
  { localStorage := s.localStorage
    indexedDb := (finished.filterMap (s.pending[·]?)).foldl IdbWrite.apply s.indexedDb }

/-- The database after all writes that were issued, in their order. -/
def settled : AList V :=
  s.pending.foldl IdbWrite.apply s.indexedDb

end Store

/-! ### What the operations do -/

section

variable {s : Store V N}
variable (d : DeferredRuntimeState V)

@[simp]
theorem lookup_takeDeferredKey (k : K) :
  (d.takeDeferredKey k).entries.lookup k = none
  := by
  rw [DeferredRuntimeState.takeDeferredKey]
  split_ifs
  · apply AList.lookup_erase
  · apply AList.lookup_erase

theorem lookup_takeDeferredKey_ne {k k' : K} (h : k' ≠ k) :
  (d.takeDeferredKey k).entries.lookup k' = d.entries.lookup k'
  := by
  rw [DeferredRuntimeState.takeDeferredKey]
  split_ifs
  · apply AList.lookup_erase_ne h
  · apply AList.lookup_erase_ne h

@[simp]
theorem preloaded_takeDeferredKey (k : K) :
  (d.takeDeferredKey k).preloaded = d.preloaded
  := by
  rw [DeferredRuntimeState.takeDeferredKey]
  split_ifs
  · rfl
  · rfl

/-- A write that ends in its turn leaves what the database will be. -/
theorem settled_completeWrite {write : IdbWrite V N} {rest : List (IdbWrite V N)}
    (hpending : s.pending = write :: rest) :
  (s.completeWrite 0 .works).settled = s.settled ∧ (s.completeWrite 0 .works).pending = rest
  := by
  simp [Store.completeWrite, Store.settled, hpending]

theorem settled_of_pending_nil (hpending : s.pending = []) :
  s.settled = s.indexedDb
  := by
  simp [Store.settled, hpending]

theorem settled_indexedDbSetDurable (k : K) (value : V k) (next : N) :
  (s.indexedDbSetDurable k value next).settled = s.settled.insert k value
  := by
  simp [Store.indexedDbSetDurable, Store.settled, IdbWrite.apply]

theorem set_eq_ok {k : K} {value : V k} {fate : StorageFate} {s' : Store V N}
    (h : s.set k value fate = (.ok (), s')) :
  s'.settled = s.settled.insert k value ∧ s'.localStorage = s.localStorage.insert k value ∧
    s'.deferred = s.deferred.takeDeferredKey k ∧
    s'.pending = s.pending ++ [⟨k, some value, none⟩]
  := by
  cases fate with
  | fails => cases h
  | works =>
    obtain ⟨-, rfl⟩ := Prod.mk.inj h
    simp [Store.settled, IdbWrite.apply]

theorem settled_delete (k : K) :
  (s.delete k .works).2.settled = s.settled.erase k
  := by
  simp [Store.delete, Store.settled, IdbWrite.apply]

/-! ### Listings -/

/-- What a listing adds, if no key was used meanwhile. -/
theorem lookup_foldl_addEntry (revision : UInt64) {l : List (Sigma V)} (hl : l.NodupKeys)
    {d : DeferredRuntimeState V} (hd : d.touched = ∅) (k : K) :
  (l.foldl (fun d e => d.addEntry revision e) d).entries.lookup k
    = (l.dlookup k).or (d.entries.lookup k)
  := by
  induction l generalizing d with
  | nil => rfl
  | cons e l ih =>
    obtain ⟨k', value⟩ := e
    obtain ⟨hk', hl⟩ := List.nodupKeys_cons.mp hl
    have hadd : d.addEntry revision ⟨k', value⟩
        = { d with entries := d.entries.insert k' value } := by
      simp [DeferredRuntimeState.addEntry, hd]
    rw [List.foldl_cons, hadd, ih hl (by exact hd)]
    by_cases hk : k = k'
    · subst hk
      rw [List.dlookup_eq_none.mpr hk', List.dlookup_cons_eq, AList.lookup_insert]
      rfl
    · rw [List.dlookup_cons_ne _ _ hk, AList.lookup_insert_ne hk]

theorem foldl_addEntry_rest (revision : UInt64) (l : List (Sigma V)) (d : DeferredRuntimeState V) :
  (l.foldl (fun d e => d.addEntry revision e) d).preloaded = d.preloaded ∧
    (l.foldl (fun d e => d.addEntry revision e) d).reads = d.reads
  := by
  apply List.foldlRecOn
    (motive := fun d' : DeferredRuntimeState V => d'.preloaded = d.preloaded ∧ d'.reads = d.reads)
    _ _ ⟨rfl, rfl⟩
  intro d' hd' e _
  rw [DeferredRuntimeState.addEntry]
  split_ifs
  · exact hd'
  · exact hd'

end

end RgbLightning.RuntimeStore
