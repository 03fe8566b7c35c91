import RgbLightning.Browser.RuntimeStore
import RgbLightning.Lib.Run

/-!
# Channel monitors in the browser

Every update of a channel is persisted as a snapshot of its monitor.  If the local storage
takes the snapshot and the index of all monitors, the update is reported complete.  If not,
both are written to the database, and the update is confirmed once the first of these writes
has succeeded and the second has ended.  After a reload the monitors that the index names are
loaded.

The database is copied over the local storage after a reload: where its copy is behind, an
update that was reported complete is gone (`monitor_rolled_back`).  `monitors_kept` says when
every update that was reported is loaded.
-/

namespace RgbLightning.Monitors

open RuntimeStore List AList Option

/-! ### The persister -/

inductive MonitorKey where
  | index
  | snapshot (name : Str)
deriving DecidableEq

/-- The index holds the names of the monitors, a snapshot the last update it contains. -/
abbrev MonitorKey.Value : MonitorKey → Type
  | index => List Str
  | snapshot _ => ℕ

def indexAt (tier : AList MonitorKey.Value) : Option (List Str) :=
  tier.lookup MonitorKey.index

def snapshotAt (tier : AList MonitorKey.Value) (name : Str) : Option ℕ :=
  tier.lookup (MonitorKey.snapshot name)

/-- What is done when a write to the database has ended, for an update of a monitor. -/
inductive Completion where
  | writeIndex (name : Str) (updateId : ℕ)
  | confirm (name : Str) (updateId : ℕ)
deriving DecidableEq

def Completion.name : Completion → Str
  | writeIndex name _ => name
  | confirm name _ => name

def Completion.updateId : Completion → ℕ
  | writeIndex _ updateId => updateId
  | confirm _ updateId => updateId

abbrev MonitorStore : Type := Store MonitorKey.Value Completion

/-- How the accesses to the local storage by one operation end. -/
structure Fates where
  write : StorageFate := .works
  hydrate : StorageFate := .works
  read : StorageFate := .works
  writeIndex : StorageFate := .works
deriving DecidableEq

variable (s : MonitorStore)

def getIndex (f : Fates) : Except String (List Str) × MonitorStore :=
  match s.get .index f.hydrate f.read with
  | (.ok index, s) => (.ok (index.getD []), s)
  | (.error e, s) => (.error e, s)

def withName (name : Str) (index : List Str) : List Str :=
  if name ∈ index then index else index ++ [name]

def setIndex (index : List Str) (f : Fates) :
    Except String Unit × MonitorStore :=
  s.set .index index f.writeIndex

def persistMonitorSnapshot (name : Str) (snapshot : ℕ) (f : Fates) :
    Except String Unit × MonitorStore :=
  match s.set (.snapshot name) snapshot f.write with
  | (.error e, s) => (.error e, s)
  | (.ok _, s) =>
    match getIndex s f with
    | (.error e, s) => (.error e, s)
    | (.ok index, s) =>
      if name ∈ index then (.ok (), s) else setIndex s (index ++ [name]) f

def deleteMonitorSnapshot (name : Str) (f : Fates) :
    Except String Unit × MonitorStore :=
  match s.delete (.snapshot name) f.write with
  | (.error e, s) => (.error e, s)
  | (.ok _, s) =>
    match getIndex s f with
    | (.error e, s) => (.error e, s)
    | (.ok index, s) =>
      if index.filter (· ≠ name) = [] then s.delete .index f.writeIndex
      else setIndex s (index.filter (· ≠ name)) f

def loadSnapshots : MonitorStore → List Str → List Fates →
    Except String (Table Str ℕ) × MonitorStore
  | s, [], _ => (.ok ∅, s)
  | s, name :: names, fates =>
    match s.get (.snapshot name) (fates.headD {}).hydrate (fates.headD {}).read with
    | (.error e, s) => (.error e, s)
    | (.ok none, s) => (.error "missing monitor snapshot", s)
    | (.ok (some snapshot), s) =>
      match loadSnapshots s names fates.tail with
      | (.error e, s) => (.error e, s)
      | (.ok monitors, s) => (.ok (monitors.insert name snapshot), s)

def loadPersistedMonitors (fates : List Fates) :
    Except String (Table Str ℕ) × MonitorStore :=
  match getIndex s (fates.headD {}) with
  | (.error e, s) => (.error e, s)
  | (.ok index, s) => loadSnapshots s index fates.tail

/-! ### Runs -/

/-- The stores, the monitors of the node with their last updates once they are loaded, and,
for reasoning, the updates of monitors that were not archived which were reported complete,
and what was loaded when. -/
structure World where
  store : MonitorStore := {}
  monitors : Option (Table Str ℕ) := none
  reported : List (Str × ℕ) := []
  loads : List (Except String (Table Str ℕ) × List (Str × ℕ)) := []

inductive Event where
  | persist (name : Str) (snapshot updateId : ℕ) (f : Fates)
  | archive (name : Str) (f : Fates)
  | completeWrite (n : ℕ) (fate : StorageFate) (f : Fates)
  | beginPreload
  | listEntries (n : ℕ)
  | finishPreload (n : ℕ)
  | load (fates : List Fates)
  | reload (finished : List ℕ)

namespace World

variable (w : World)

/-- An update is reported complete, or left to the database. -/
def persistOrDefer (name : Str) (snapshot updateId : ℕ) (f : Fates) : World :=
  let monitors := w.monitors.map (·.insert name snapshot)
  match persistMonitorSnapshot w.store name snapshot f with
  | (.ok _, s) =>
    { w with store := s, monitors := monitors, reported := w.reported ++ [(name, updateId)] }
  | (.error _, s) =>
    { w with
      store := s.indexedDbSetDurable (.snapshot name) snapshot (.writeIndex name updateId)
      monitors := monitors }

def archivePersistedChannel (name : Str) (f : Fates) : World :=
  { w with
    store := (deleteMonitorSnapshot w.store name f).2
    monitors := w.monitors.map (·.erase name)
    reported := w.reported.filter (·.1 ≠ name) }

/-- The index is written to the database, with the name of the monitor. -/
def writeIndex (name : Str) (updateId : ℕ) (f : Fates) : World :=
  match getIndex w.store f with
  | (r, s) =>
    let index := withName name (r.toOption.getD [])
    { w with store := s.indexedDbSetDurable .index index (.confirm name updateId) }

/-- What is done when a write to the database has ended. -/
def resume (next : Option Completion) (fate : StorageFate) (f : Fates) : World :=
  match next, fate with
  | none, _ => w
  | some (.writeIndex name updateId), .works => w.writeIndex name updateId f
  | some (.writeIndex _ _), .fails => w
  -- whether the index was written does not matter, a monitor that is gone is refused
  | some (.confirm name updateId), _ =>
    if name ∈ w.monitors.getD ∅ then
      { w with reported := w.reported ++ [(name, updateId)] }
    else w

def completeWrite (n : ℕ) (fate : StorageFate) (f : Fates) : World :=
  match w.store.pending[n]? with
  | none => w
  | some write => { w with store := w.store.completeWrite n fate }.resume write.next fate f

def load (fates : List Fates) : World :=
  match loadPersistedMonitors w.store fates with
  | (r, s) =>
    { w with
      store := s
      monitors := r.toOption
      loads := w.loads ++ [(r, w.reported)] }

end World

def step (w : World) : Event → World
  | .persist name snapshot updateId f => w.persistOrDefer name snapshot updateId f
  | .archive name f => w.archivePersistedChannel name f
  | .completeWrite n fate f => w.completeWrite n fate f
  | .beginPreload => { w with store.deferred := w.store.deferred.beginPreload }
  | .listEntries n => { w with store := w.store.listEntries n }
  | .finishPreload n => { w with store.deferred := w.store.deferred.finishPreload n }
  | .load fates => w.load fates
  | .reload finished => { w with store := w.store.reload finished, monitors := none }

/-- What the node does with monitors: they are loaded once by every page, when the listing of
the database has been taken over, and persisted and archived after that, with snapshots that
get newer and contain the updates they are made for. -/
def Regular (w : World) : Event → Prop
  | .persist name snapshot updateId _ => updateId ≤ snapshot ∧ w.monitors.isSome ∧
      ∀ v ∈ (w.monitors.getD ∅).lookup name, v ≤ snapshot
  | .archive _ _ => w.monitors.isSome
  | .load _ => w.monitors = none ∧ w.store.deferred.preloaded = true
  | _ => True

/-- The names of the index in the local storage. -/
def localIndex (w : World) : List Str :=
  (indexAt w.store.localStorage).getD []

/-- The writes to the database succeed in their order, and none is under way when the page is
reloaded.  The local storage does not fail while monitors are loaded or archived or an index
is read for the database, and a monitor is left to the database only if the index in the
local storage has its name.  A monitor is not archived while an update of it is left to the
database. -/
def Undisturbed (w : World) : Event → Prop
  | .persist name _ _ f => f = {} ∨ name ∈ localIndex w
  | .archive name f => f = {} ∧ ∀ write ∈ w.store.pending, ∀ c ∈ write.next, c.name ≠ name
  | .completeWrite n fate f => n = 0 ∧ fate = .works ∧ f = {}
  | .load fates => ∀ f ∈ fates, f = {}
  | .reload _ => w.store.pending = []
  | _ => True

/-- The monitors were loaded, with all updates that had been reported. -/
def Complete (load : Except String (Table Str ℕ) × List (Str × ℕ)) : Prop :=
  ∃ monitors, load.1 = .ok monitors ∧
    ∀ r ∈ load.2, ∃ v, monitors.lookup r.1 = some v ∧ r.2 ≤ v

/-! ### Tiers -/

section Tiers

variable (tier : AList MonitorKey.Value) (name name' : Str) (index : List Str) (v : ℕ)

@[simp]
theorem indexAt_insert_index :
  indexAt (tier.insert MonitorKey.index index) = some index
  := lookup_insert (a := MonitorKey.index) tier

@[simp]
theorem indexAt_insert_snapshot :
  indexAt (tier.insert (MonitorKey.snapshot name) v) = indexAt tier
  := lookup_insert_ne (a := MonitorKey.index) (by simp)

@[simp]
theorem snapshotAt_insert_index :
  snapshotAt (tier.insert MonitorKey.index index) name = snapshotAt tier name
  := lookup_insert_ne (a := MonitorKey.snapshot name) (by simp)

@[simp]
theorem snapshotAt_insert_snapshot :
  snapshotAt (tier.insert (MonitorKey.snapshot name) v) name' = if name' = name then some v
    else snapshotAt tier name'
  := by
  split_ifs with h
  · rw [h]
    apply lookup_insert (a := MonitorKey.snapshot name)
  · apply lookup_insert_ne (a := MonitorKey.snapshot name')
    simpa using h

@[simp]
theorem indexAt_erase_index :
  indexAt (tier.erase MonitorKey.index) = none
  := lookup_erase MonitorKey.index tier

@[simp]
theorem indexAt_erase_snapshot :
  indexAt (tier.erase (MonitorKey.snapshot name)) = indexAt tier
  := lookup_erase_ne (a := MonitorKey.index) (by simp)

@[simp]
theorem snapshotAt_erase_index :
  snapshotAt (tier.erase MonitorKey.index) name = snapshotAt tier name
  := lookup_erase_ne (a := MonitorKey.snapshot name) (by simp)

theorem snapshotAt_erase_of_ne (h : name' ≠ name) :
  snapshotAt (tier.erase (MonitorKey.snapshot name)) name' = snapshotAt tier name'
  := by
  apply lookup_erase_ne (a := MonitorKey.snapshot name')
  simpa using h

end Tiers

/-! ### What the operations of the persister do -/

/-- The names of the index that the database will have. -/
def indexOf : List Str :=
  (indexAt s.settled).getD []

/-- The index of the local storage is the one the database will have, and it is not copied
from there any more. -/
structure Indexed (s : MonitorStore) : Prop where
  preloaded : s.deferred.preloaded = true
  entries : indexAt s.deferred.entries = none
  settled : indexAt s.settled = indexAt s.localStorage

/-- One store differs from another by the keys the page has used. -/
structure Used (s s' : MonitorStore) : Prop where
  localStorage : s'.localStorage = s.localStorage
  indexedDb : s'.indexedDb = s.indexedDb
  pending : s'.pending = s.pending
  preloaded : s'.deferred.preloaded = s.deferred.preloaded
  entries : indexAt s.deferred.entries = none → indexAt s'.deferred.entries = none

/-- An operation on a monitor: the index is in both tiers, and what is issued to the database
ends in nothing but the completions named. -/
structure Operates (s s' : MonitorStore) (name : Str) (C : Completion → Prop) : Prop where
  indexed : Indexed s'
  others : ∀ n ≠ name, snapshotAt s'.settled n = snapshotAt s.settled n
  pending : ∀ write ∈ s'.pending, write ∈ s.pending ∨ ∀ c ∈ write.next, C c

section Operations

variable {s s' s'' : MonitorStore} {name : Str} {C : Completion → Prop}

theorem Used.settled (h : Used s s') :
  s'.settled = s.settled
  := by
  rw [Store.settled, Store.settled, h.pending, h.indexedDb]

theorem Indexed.used (hs : Indexed s) (h : Used s s') :
  Indexed s'
  := by
  constructor
  · rw [h.preloaded]
    exact hs.preloaded
  · apply h.entries hs.entries
  · rw [h.settled, h.localStorage]
    exact hs.settled

theorem Used.operates (h : Used s s') (hs : Indexed s) :
  Operates s s' name C
  := by
  constructor
  · apply hs.used h
  · intro n _
    rw [h.settled]
  · intro write hwrite
    rw [h.pending] at hwrite
    exact .inl hwrite

theorem Operates.trans (h : Operates s s' name C) (h' : Operates s' s'' name C) :
  Operates s s'' name C
  := by
  constructor
  · exact h'.indexed
  · intro n hn
    rw [h'.others n hn, h.others n hn]
  · intro write hwrite
    rcases h'.pending write hwrite with hwrite | hwrite
    · apply h.pending write hwrite
    · exact .inr hwrite

theorem indexAt_takeDeferredKey (d : DeferredRuntimeState MonitorKey.Value) (k : MonitorKey)
    (hd : indexAt d.entries = none) :
  indexAt (d.takeDeferredKey k).entries = none
  := by
  cases k with
  | index => apply lookup_takeDeferredKey
  | snapshot name =>
    rw [indexAt, lookup_takeDeferredKey_ne d (by simp)]
    exact hd

variable (hs : Indexed s)
include hs

theorem getIndex_cases (f : Fates) :
  ∃ s', Used s s' ∧ ((f.read = .works ∧ getIndex s f = (.ok (indexOf s), s')) ∨
    (f.read = .fails ∧ ∃ e, getIndex s f = (.error e, s')))
  := by
  use { s with deferred := s.deferred.takeDeferredKey .index }
  constructor
  · constructor
    · rfl
    · rfl
    · rfl
    · apply preloaded_takeDeferredKey
    · apply indexAt_takeDeferredKey
  · have hentries : s.deferred.entries.lookup MonitorKey.index = none := hs.entries
    rw [indexOf, hs.settled]
    cases hread : f.read with
    | works =>
      left
      simp only [getIndex, Store.get, hentries, hread]
      exact ⟨trivial, rfl⟩
    | fails =>
      right
      simp only [getIndex, Store.get, hentries, hread]
      exact ⟨trivial, _, rfl⟩

omit hs in
theorem mem_pending_concat {write : IdbWrite MonitorKey.Value Completion}
    (h : ∀ c ∈ write.next, C c) :
  ∀ write' ∈ s.pending ++ [write], write' ∈ s.pending ∨ ∀ c ∈ write'.next, C c
  := by
  intro write' hwrite
  rcases mem_append.mp hwrite with hwrite | hwrite
  · exact .inl hwrite
  · rw [mem_singleton.mp hwrite]
    exact .inr h

theorem operates_setSnapshot {snapshot : ℕ} {fate : StorageFate}
    (h : s.set (.snapshot name) snapshot fate = (.ok (), s')) :
  Operates s s' name C ∧ s'.settled = s.settled.insert (MonitorKey.snapshot name) snapshot
  := by
  obtain ⟨hsettled, hlocal, hdeferred, hpending⟩ := set_eq_ok h
  refine ⟨⟨⟨?_, ?_, ?_⟩, ?_, ?_⟩, hsettled⟩
  · rw [hdeferred, preloaded_takeDeferredKey]
    exact hs.preloaded
  · rw [hdeferred]
    apply indexAt_takeDeferredKey _ _ hs.entries
  · rw [hsettled, hlocal]
    simpa using hs.settled
  · intro n hn
    rw [hsettled, snapshotAt_insert_snapshot, if_neg hn]
  · rw [hpending]
    apply mem_pending_concat
    rintro c ⟨⟩

omit hs in
theorem operates_setIndex (name : Str) (hs : Indexed s) {index : List Str} {f : Fates}
    (h : setIndex s index f = (.ok (), s')) :
  Operates s s' name C ∧ s'.settled = s.settled.insert MonitorKey.index index
  := by
  obtain ⟨hsettled, hlocal, hdeferred, hpending⟩ := set_eq_ok h
  refine ⟨⟨⟨?_, ?_, ?_⟩, ?_, ?_⟩, hsettled⟩
  · rw [hdeferred, preloaded_takeDeferredKey]
    exact hs.preloaded
  · rw [hdeferred]
    apply indexAt_takeDeferredKey _ _ hs.entries
  · rw [hsettled, hlocal, indexAt_insert_index, indexAt_insert_index]
  · intro n _
    rw [hsettled, snapshotAt_insert_index]
  rw [hpending]
  apply mem_pending_concat
  rintro c ⟨⟩

theorem operates_durable (snapshot : ℕ) {c : Completion} (hc : C c) :
  Operates s (s.indexedDbSetDurable (.snapshot name) snapshot c) name C ∧
    (s.indexedDbSetDurable (.snapshot name) snapshot c).settled
      = s.settled.insert (MonitorKey.snapshot name) snapshot
  := by
  have hsettled := settled_indexedDbSetDurable (s := s) (.snapshot name) snapshot c
  refine ⟨⟨⟨hs.preloaded, hs.entries, ?_⟩, ?_, ?_⟩, hsettled⟩
  · rw [hsettled, indexAt_insert_snapshot]
    exact hs.settled
  · intro n hn
    rw [hsettled, snapshotAt_insert_snapshot, if_neg hn]
  apply mem_pending_concat
  rintro c' ⟨⟩
  exact hc

omit hs in
theorem mem_withName {index : List Str} {n : Str} :
  n ∈ withName name index ↔ n ∈ index ∨ n = name
  := by
  rw [withName]
  split_ifs with h
  · constructor
    · exact .inl
    · rintro (hn | rfl)
      · exact hn
      · exact h
  · simp

theorem persistMonitorSnapshot_cases (snapshot : ℕ) {f : Fates} (hf : f = {} ∨ name ∈ indexOf s) :
  ∃ s', Operates s s' name C ∧
    ((persistMonitorSnapshot s name snapshot f = (.ok (), s') ∧
        snapshotAt s'.settled name = some snapshot ∧
        indexOf s' = withName name (indexOf s)) ∨
      ((∃ e, persistMonitorSnapshot s name snapshot f = (.error e, s')) ∧
        name ∈ indexOf s ∧ indexOf s' = indexOf s))
  := by
  rcases hset : s.set (.snapshot name) snapshot f.write with ⟨_ | ⟨⟩, s1⟩
  · -- the snapshot was not taken
    have hfails : f.write = .fails := by
      cases hwrite : f.write with
      | fails => rfl
      | works =>
        rw [hwrite] at hset
        cases hset
    rw [hfails] at hset
    obtain ⟨-, rfl⟩ := Prod.mk.inj hset
    use s, Used.operates ⟨rfl, rfl, rfl, rfl, id⟩ hs
    right
    refine ⟨⟨_, by rw [persistMonitorSnapshot, hfails]; rfl⟩, ?_, rfl⟩
    rcases hf with rfl | hf
    · cases hfails
    · exact hf
  obtain ⟨hop, hsettled⟩ := operates_setSnapshot (C := C) hs hset
  have hindex : indexOf s1 = indexOf s := by
    rw [indexOf, hsettled, indexAt_insert_snapshot, indexOf]
  have hsnapshot : snapshotAt s1.settled name = some snapshot := by
    rw [hsettled, snapshotAt_insert_snapshot, if_pos rfl]
  obtain ⟨s2, hused, ⟨hread, hget⟩ | ⟨hread, e, hget⟩⟩ := getIndex_cases hop.indexed f
  · have hop2 : Operates s s2 name C := hop.trans (hused.operates hop.indexed)
    by_cases hname : name ∈ indexOf s
    · use s2, hop2
      left
      refine ⟨?_, ?_, ?_⟩
      · simp only [persistMonitorSnapshot, hset, hget, hindex, if_pos hname]
      · rw [hused.settled, hsnapshot]
      · rw [indexOf, hused.settled, ← indexOf, hindex, withName, if_pos hname]
    obtain rfl : f = {} := hf.resolve_right hname
    rcases hset2 : setIndex s2 (indexOf s ++ [name]) {} with ⟨_ | ⟨⟩, s3⟩
    · cases hset2
    obtain ⟨hop3, hsettled3⟩ := operates_setIndex (C := C) name hop2.indexed hset2
    use s3, hop2.trans hop3
    left
    refine ⟨?_, ?_, ?_⟩
    · simp only [persistMonitorSnapshot, hset, hget, hindex, if_neg hname, hset2]
    · rw [hsettled3, snapshotAt_insert_index, hused.settled, hsnapshot]
    · rw [indexOf, hsettled3, indexAt_insert_index, withName, if_neg hname]
      rfl
  · use s2, hop.trans (hused.operates hop.indexed)
    right
    refine ⟨⟨e, by simp only [persistMonitorSnapshot, hset, hget]⟩, ?_, ?_⟩
    · rcases hf with rfl | hf
      · cases hread
      · exact hf
    · rw [indexOf, hused.settled, ← indexOf, hindex]

theorem operates_deleteSnapshot (name : Str) :
  Operates s (s.delete (.snapshot name) .works).2 name C ∧
    indexOf (s.delete (.snapshot name) .works).2 = indexOf s
  := by
  have hsettled := settled_delete (s := s) (.snapshot name)
  refine ⟨⟨⟨?_, ?_, ?_⟩, ?_, ?_⟩, ?_⟩
  · rw [← hs.preloaded]
    apply preloaded_takeDeferredKey
  · apply indexAt_takeDeferredKey _ _ hs.entries
  · rw [hsettled, indexAt_erase_snapshot, hs.settled]
    apply (indexAt_erase_snapshot _ _).symm
  · intro n hn
    rw [hsettled, snapshotAt_erase_of_ne _ _ _ hn]
  · apply mem_pending_concat
    rintro c ⟨⟩
  · rw [indexOf, hsettled, indexAt_erase_snapshot, indexOf]

theorem operates_deleteIndex (name : Str) :
  Operates s (s.delete .index .works).2 name C ∧ indexOf (s.delete .index .works).2 = []
  := by
  have hsettled := settled_delete (s := s) MonitorKey.index
  refine ⟨⟨⟨?_, ?_, ?_⟩, ?_, ?_⟩, ?_⟩
  · rw [← hs.preloaded]
    apply preloaded_takeDeferredKey
  · apply indexAt_takeDeferredKey _ _ hs.entries
  · rw [hsettled, indexAt_erase_index]
    apply (indexAt_erase_index _).symm
  · intro n _
    rw [hsettled, snapshotAt_erase_index]
  · apply mem_pending_concat
    rintro c ⟨⟩
  · rw [indexOf, hsettled, indexAt_erase_index]
    rfl

theorem deleteMonitorSnapshot_spec (name : Str) :
  Operates s (deleteMonitorSnapshot s name {}).2 name C ∧
    ∀ n, n ∈ indexOf (deleteMonitorSnapshot s name {}).2 ↔ n ∈ indexOf s ∧ n ≠ name
  := by
  obtain ⟨hop, hindex⟩ := operates_deleteSnapshot (C := C) hs name
  obtain ⟨s2, hused, ⟨-, hget⟩ | ⟨hread, -⟩⟩ := getIndex_cases hop.indexed {}
  · have hop2 := hop.trans (hused.operates hop.indexed)
    have hmem : ∀ n, n ∈ (indexOf s).filter (· ≠ name) ↔ n ∈ indexOf s ∧ n ≠ name := by
      simp
    have heq : deleteMonitorSnapshot s name {} =
        if (indexOf s).filter (· ≠ name) = [] then s2.delete .index .works
        else setIndex s2 ((indexOf s).filter (· ≠ name)) {} := by
      have hdelete : s.delete (.snapshot name) .works
          = (.ok (), (s.delete (.snapshot name) .works).2) := rfl
      rw [deleteMonitorSnapshot, hdelete]
      simp only [hget, hindex]
    rw [heq]
    split_ifs with hnil
    · obtain ⟨hop3, hindex3⟩ := operates_deleteIndex (C := C) hop2.indexed name
      use hop2.trans hop3
      intro n
      rw [hindex3, ← hmem, hnil]
    rcases hset : setIndex s2 ((indexOf s).filter (· ≠ name)) {} with ⟨_ | ⟨⟩, s3⟩
    · cases hset
    obtain ⟨hop3, hsettled3⟩ := operates_setIndex (C := C) name hop2.indexed hset
    use hop2.trans hop3
    intro n
    rw [indexOf, hsettled3, indexAt_insert_index, ← hmem]
    rfl
  · cases hread

end Operations

/-! ### The invariant -/

/-- An update that the monitor of this name will have after a reload. -/
def Promised (name : Str) (updateId : ℕ) : Prop :=
  name ∈ indexOf s ∧ ∃ v, snapshotAt s.settled name = some v ∧ updateId ≤ v

structure Running (s : MonitorStore) (live : Table Str ℕ) : Prop where
  indexed : Indexed s
  live : ∀ n ∈ indexOf s, live.lookup n = snapshotAt s.settled n
  pending : ∀ write ∈ s.pending, ∀ c ∈ write.next, Promised s c.name c.updateId

/-- A page whose monitors are not loaded yet. -/
structure Waiting (s : MonitorStore) : Prop where
  pending : s.pending = []
  index : indexAt s.indexedDb = indexAt s.localStorage
  listings : ∀ read ∈ s.deferred.reads, ∀ listing ∈ read.listing, listing = s.indexedDb
  unlisted : s.deferred.preloaded = false → s.deferred.entries = ∅ ∧ s.deferred.touched = ∅
  listed : s.deferred.preloaded = true → ∀ k, s.deferred.entries.lookup k = s.indexedDb.lookup k

structure Sound (w : World) : Prop where
  snapshots : ∀ n ∈ indexOf w.store, (snapshotAt w.store.settled n).isSome
  reported : ∀ r ∈ w.reported, Promised w.store r.1 r.2
  loads : ∀ l ∈ w.loads, Complete l
  running : ∀ live, w.monitors = some live → Running w.store live
  waiting : w.monitors = none → Waiting w.store

section Persist

variable {s s' : MonitorStore} {live : Table Str ℕ} {name : Str} {snapshot : ℕ}
variable {C : Completion → Prop}

theorem Promised.persist (hop : Operates s s' name C)
    (hsnapshot : snapshotAt s'.settled name = some snapshot)
    (hindex : ∀ n, n ∈ indexOf s' ↔ n ∈ indexOf s ∨ n = name)
    (hnewer : name ∈ indexOf s → ∀ v, snapshotAt s.settled name = some v → v ≤ snapshot)
    {n : Str} {updateId : ℕ} (h : Promised s n updateId) :
  Promised s' n updateId
  := by
  obtain ⟨hn, v, hv, hle⟩ := h
  use (hindex n).mpr (.inl hn)
  by_cases hname : n = name
  · subst hname
    use snapshot, hsnapshot
    apply hle.trans (hnewer hn v hv)
  · use v
    rw [hop.others n hname]
    exact ⟨hv, hle⟩

theorem Running.persist (h : Running s live) (hop : Operates s s' name C)
    (hsnapshot : snapshotAt s'.settled name = some snapshot)
    (hindex : ∀ n, n ∈ indexOf s' ↔ n ∈ indexOf s ∨ n = name)
    (hnewer : name ∈ indexOf s → ∀ v, snapshotAt s.settled name = some v → v ≤ snapshot)
    (hC : ∀ c, C c → c.name = name ∧ c.updateId ≤ snapshot) :
  Running s' (live.insert name snapshot)
  := by
  constructor
  · exact hop.indexed
  · intro n hn
    rw [Table.lookup_insert_eq]
    split_ifs with hname
    · rw [hname, hsnapshot]
    · rw [hop.others n hname]
      apply h.live n (((hindex n).mp hn).resolve_right hname)
  · intro write hwrite c hc
    rcases hop.pending write hwrite with hwrite | hnew
    · apply (h.pending write hwrite c hc).persist hop hsnapshot hindex hnewer
    · obtain ⟨rfl, hle⟩ := hC c (hnew c hc)
      use (hindex c.name).mpr (.inr rfl), snapshot

end Persist

variable {w : World} {live : Table Str ℕ} {name : Str}

section Sound

variable (hw : Sound w)
include hw

variable {s' : MonitorStore}

/-- A snapshot with its name in the index, and what may be reported then. -/
theorem Sound.persisted (hlive : w.monitors = some live) {snapshot updateId : ℕ}
    {reported : List (Str × ℕ)} (hop : Operates w.store s' name (· = .writeIndex name updateId))
    (hsnapshot : snapshotAt s'.settled name = some snapshot)
    (hindex : ∀ n, n ∈ indexOf s' ↔ n ∈ indexOf w.store ∨ n = name) (hupdate : updateId ≤ snapshot)
    (hnewer : ∀ v ∈ live.lookup name, v ≤ snapshot)
    (hreported : ∀ r ∈ reported, r ∈ w.reported ∨ r = (name, updateId)) :
  Sound
    { w with
      store := s'
      monitors := some (live.insert name snapshot)
      reported := reported }
  := by
  have hrunning := hw.running live hlive
  have hnewer' : name ∈ indexOf w.store →
      ∀ v, snapshotAt w.store.settled name = some v → v ≤ snapshot := by
    intro hname v hv
    apply hnewer v
    rw [hrunning.live name hname, hv]
    rfl
  constructor
  · intro n hn
    by_cases hname : n = name
    · simp only [hname, hsnapshot, isSome_some]
    · simp only [hop.others n hname]
      apply hw.snapshots n (((hindex n).mp hn).resolve_right hname)
  · intro r hr
    rcases hreported r hr with hr | rfl
    · apply (hw.reported r hr).persist hop hsnapshot hindex hnewer'
    · use (hindex name).mpr (.inr rfl), snapshot
  · exact hw.loads
  · rintro _ ⟨⟩
    apply hrunning.persist hop hsnapshot hindex hnewer'
    rintro c rfl
    exact ⟨rfl, hupdate⟩
  · rintro ⟨⟩

theorem Sound.persist {snapshot updateId : ℕ} {f : Fates}
    (hregular : Regular w (.persist name snapshot updateId f))
    (hf : Undisturbed w (.persist name snapshot updateId f)) :
  Sound (w.persistOrDefer name snapshot updateId f)
  := by
  obtain ⟨hupdate, hsome, hnewer⟩ := hregular
  obtain ⟨live, hlive⟩ := isSome_iff_exists.mp hsome
  have hrunning := hw.running live hlive
  rw [hlive, getD_some] at hnewer
  have hf : f = {} ∨ name ∈ indexOf w.store := by
    rw [indexOf, hrunning.indexed.settled]
    exact hf
  obtain ⟨s', hop, ⟨hok, hsnapshot, hindex⟩ | ⟨⟨e, herror⟩, hname, hindex⟩⟩ :=
    persistMonitorSnapshot_cases (C := (· = .writeIndex name updateId)) hrunning.indexed
      snapshot hf
  · simp only [World.persistOrDefer, hok, hlive, map_some]
    apply hw.persisted hlive hop hsnapshot _ hupdate hnewer
    · intro r hr
      rcases mem_append.mp hr with hr | hr
      · exact .inl hr
      · exact .inr (mem_singleton.mp hr)
    · intro n
      rw [hindex]
      apply mem_withName
  simp only [World.persistOrDefer, herror, hlive, map_some]
  obtain ⟨hop', hsettled⟩ := operates_durable (C := (· = .writeIndex name updateId))
    hop.indexed snapshot rfl
  apply hw.persisted hlive (hop.trans hop') _ _ hupdate hnewer
  · intro r hr
    exact .inl hr
  · rw [hsettled, snapshotAt_insert_snapshot, if_pos rfl]
  intro n
  rw [indexOf, hsettled, indexAt_insert_snapshot, ← indexOf, hindex]
  constructor
  · exact .inl
  · rintro (hn | rfl)
    · exact hn
    · exact hname

theorem Sound.archive {f : Fates} (hregular : Regular w (.archive name f))
    (hf : Undisturbed w (.archive name f)) :
  Sound (w.archivePersistedChannel name f)
  := by
  obtain ⟨live, hlive⟩ := isSome_iff_exists.mp hregular
  obtain ⟨rfl, hpending⟩ := hf
  have hrunning := hw.running live hlive
  obtain ⟨hop, hindex⟩ :=
    deleteMonitorSnapshot_spec (C := fun _ => False) hrunning.indexed name
  have hkept : ∀ n ≠ name, ∀ updateId, Promised w.store n updateId →
      Promised (deleteMonitorSnapshot w.store name {}).2 n updateId := by
    rintro n hn updateId ⟨hmem, v, hv, hle⟩
    use (hindex n).mpr ⟨hmem, hn⟩, v
    rw [hop.others n hn]
    exact ⟨hv, hle⟩
  simp only [World.archivePersistedChannel, hlive, map_some]
  constructor
  · intro n hn
    obtain ⟨hmem, hne⟩ := (hindex n).mp hn
    simp only [hop.others n hne]
    apply hw.snapshots n hmem
  · intro r hr
    obtain ⟨hr, hne⟩ := mem_filter.mp hr
    apply hkept r.1 (by simpa using hne) r.2 (hw.reported r hr)
  · exact hw.loads
  · rintro _ ⟨⟩
    constructor
    · exact hop.indexed
    · intro n hn
      obtain ⟨hmem, hne⟩ := (hindex n).mp hn
      rw [Table.lookup_erase_eq, if_neg hne, hop.others n hne]
      apply hrunning.live n hmem
    · intro write hwrite c hc
      rcases hop.pending write hwrite with hwrite | hnew
      · apply hkept c.name (hpending write hwrite c hc) _ (hrunning.pending write hwrite c hc)
      · exact (hnew c hc).elim
  · rintro ⟨⟩

/-! ### Writes to the database -/

omit hw in
theorem indexAt_of_mem {s : MonitorStore} (h : name ∈ indexOf s) :
  indexAt s.settled = some (indexOf s)
  := by
  rw [indexOf] at h ⊢
  cases hindex : indexAt s.settled with
  | none =>
    rw [hindex] at h
    cases h
  | some index => rfl

omit hw in
theorem Promised.congr {s s' : MonitorStore} (hsettled : s'.settled = s.settled) {updateId : ℕ}
    (h : Promised s name updateId) :
  Promised s' name updateId
  := by
  rw [Promised, indexOf, hsettled]
  exact h

omit hw in
theorem Running.writeIndex {s : MonitorStore} (h : Running s live) {updateId : ℕ}
    (hpromised : Promised s name updateId) :
  Running (s.indexedDbSetDurable .index (indexOf s) (.confirm name updateId)) live ∧
    ∀ n id, Promised s n id →
      Promised (s.indexedDbSetDurable .index (indexOf s) (.confirm name updateId)) n id
  := by
  have hsettled := settled_indexedDbSetDurable (s := s) MonitorKey.index (indexOf s)
    (.confirm name updateId)
  have hindex : indexOf (s.indexedDbSetDurable .index (indexOf s) (.confirm name updateId))
      = indexOf s := by
    rw [indexOf, hsettled, indexAt_insert_index]
    rfl
  have hkept : ∀ n id, Promised s n id →
      Promised (s.indexedDbSetDurable .index (indexOf s) (.confirm name updateId)) n id := by
    rintro n id ⟨hn, hv⟩
    rw [Promised, hindex, hsettled, snapshotAt_insert_index]
    exact ⟨hn, hv⟩
  refine ⟨⟨⟨h.indexed.preloaded, h.indexed.entries, ?_⟩, ?_, ?_⟩, hkept⟩
  · rw [hsettled, indexAt_insert_index, ← indexAt_of_mem hpromised.1]
    exact h.indexed.settled
  · intro n hn
    rw [hsettled, snapshotAt_insert_index]
    rw [hindex] at hn
    apply h.live n hn
  intro write hwrite c hc
  rcases mem_append.mp hwrite with hwrite | hwrite
  · apply hkept _ _ (h.pending write hwrite c hc)
  · rw [mem_singleton.mp hwrite] at hc
    cases hc
    apply hkept _ _ hpromised

/-- The same database to come, with the same page, and no more under way. -/
theorem Sound.congr (hlive : w.monitors = some live) (hsettled : s'.settled = w.store.settled)
    (hlocal : s'.localStorage = w.store.localStorage) (hpreloaded : s'.deferred.preloaded = true)
    (hentries : indexAt s'.deferred.entries = none) (hpending : s'.pending ⊆ w.store.pending) :
  Sound { w with store := s' }
  := by
  have hrunning := hw.running live hlive
  have hindex : indexOf s' = indexOf w.store := by
    rw [indexOf, hsettled, indexOf]
  constructor
  · intro n hn
    simp only [hindex] at hn
    simp only [hsettled]
    apply hw.snapshots n hn
  · intro r hr
    apply (hw.reported r hr).congr hsettled
  · exact hw.loads
  · intro live' hlive'
    obtain rfl : live = live' := some.inj (hlive.symm.trans hlive')
    refine ⟨⟨hpreloaded, hentries, ?_⟩, ?_, ?_⟩
    · simp only [hsettled, hlocal]
      exact hrunning.indexed.settled
    · intro n hn
      simp only [hindex] at hn
      simp only [hsettled]
      apply hrunning.live n hn
    · intro write hwrite c hc
      apply (hrunning.pending write (hpending hwrite) c hc).congr hsettled
  · intro hnone
    simp only [hlive] at hnone
    cases hnone

/-- The index is read and left to the database, for an update that it has. -/
theorem Sound.writeIndex (hlive : w.monitors = some live) {updateId : ℕ}
    (hpromised : Promised w.store name updateId) :
  Sound (w.writeIndex name updateId {})
  := by
  have hrunning := hw.running live hlive
  obtain ⟨s', hused, ⟨-, hget⟩ | ⟨hread, -⟩⟩ := getIndex_cases hrunning.indexed {}
  · have hindex : indexOf s' = indexOf w.store := by
      rw [indexOf, hused.settled, indexOf]
    have hw' : Sound { w with store := s' } := by
      apply hw.congr hlive hused.settled hused.localStorage
      · rw [hused.preloaded]
        exact hrunning.indexed.preloaded
      · apply hused.entries hrunning.indexed.entries
      · rw [hused.pending]
        apply Subset.refl
    have heq : w.writeIndex name updateId {}
        = { w with store := s'.indexedDbSetDurable .index (indexOf s') (.confirm name updateId) }
        := by
      have hname : withName name (indexOf w.store) = indexOf w.store := if_pos hpromised.1
      rw [World.writeIndex, hget, hindex]
      simp only [Except.toOption, getD_some]
      rw [hname]
    obtain ⟨hrunning', hkept⟩ := (hw'.running live hlive).writeIndex
      (hpromised.congr hused.settled)
    rw [heq]
    constructor
    · intro n hn
      simp only [indexOf, settled_indexedDbSetDurable, indexAt_insert_index, getD_some]
        at hn
      simp only [settled_indexedDbSetDurable, snapshotAt_insert_index]
      apply hw'.snapshots n hn
    · intro r hr
      apply hkept _ _ (hw'.reported r hr)
    · exact hw.loads
    · intro live' hlive'
      obtain rfl : live = live' := some.inj (hlive.symm.trans hlive')
      exact hrunning'
    · intro hnone
      simp only [hlive] at hnone
      cases hnone
  · cases hread

theorem Sound.completeWrite :
  Sound (w.completeWrite 0 .works {})
  := by
  rcases hpending : w.store.pending with _ | ⟨write, rest⟩
  · simp only [World.completeWrite, hpending, getElem?_nil]
    exact hw
  obtain ⟨live, hlive⟩ : ∃ live, w.monitors = some live := by
    rw [← isSome_iff_exists, isSome_iff_ne_none]
    intro hnone
    rw [(hw.waiting hnone).pending] at hpending
    cases hpending
  have hrunning := hw.running live hlive
  obtain ⟨hsettled, hrest⟩ := settled_completeWrite hpending
  have hw1 : Sound { w with store := w.store.completeWrite 0 .works } := by
    apply hw.congr hlive hsettled
    · simp [Store.completeWrite, hpending]
    · simpa [Store.completeWrite, hpending] using hrunning.indexed.preloaded
    · simp only [Store.completeWrite, hpending, getElem?_cons_zero]
      apply indexAt_takeDeferredKey _ _ hrunning.indexed.entries
    · rw [hrest, hpending]
      apply subset_cons_self
  simp only [World.completeWrite, hpending, getElem?_cons_zero]
  rcases hnext : write.next with _ | c
  · exact hw1
  have hpromised : Promised (w.store.completeWrite 0 .works) c.name c.updateId := by
    apply (hrunning.pending write _ c hnext).congr hsettled
    rw [hpending]
    apply mem_cons_self
  have hrunning1 := hw1.running live hlive
  cases c with
  | confirm name updateId =>
    simp only [World.resume]
    split_ifs
    · refine ⟨hw1.snapshots, ?_, hw1.loads, hw1.running, hw1.waiting⟩
      intro r hr
      rcases mem_append.mp hr with hr | hr
      · apply hw1.reported r hr
      · rw [mem_singleton.mp hr]
        exact hpromised
    · exact hw1
  | writeIndex name updateId => apply hw1.writeIndex hlive hpromised

/-! ### Listings of the database -/

/-- What a step does to a page before its monitors are loaded. -/
theorem Sound.wait (hnone : w.monitors = none) (hdb : s'.indexedDb = w.store.indexedDb)
    (hs' : Waiting s') :
  Sound { w with store := s' }
  := by
  have hsettled : s'.settled = w.store.settled := by
    rw [settled_of_pending_nil hs'.pending, hdb,
      settled_of_pending_nil (hw.waiting hnone).pending]
  constructor
  · intro n hn
    simp only [indexOf, hsettled] at hn ⊢
    apply hw.snapshots n hn
  · intro r hr
    apply (hw.reported r hr).congr hsettled
  · exact hw.loads
  · intro live hlive
    simp only [hnone] at hlive
    cases hlive
  · intro _
    exact hs'

/-- Listings do not matter any more when one has been taken over. -/
theorem Sound.deferred {deferred : DeferredRuntimeState MonitorKey.Value}
    (hkept : w.store.deferred.preloaded = true →
      deferred.preloaded = true ∧ deferred.entries = w.store.deferred.entries)
    (hwaiting : Waiting w.store → Waiting { w.store with deferred := deferred }) :
  Sound { w with store.deferred := deferred }
  := by
  obtain hnone | ⟨live, hlive⟩ := w.monitors.eq_none_or_eq_some
  · have hs' := hwaiting (hw.waiting hnone)
    apply hw.wait hnone _ hs'
    rfl
  have hrunning := hw.running live hlive
  obtain ⟨hpreloaded, hentries⟩ := hkept hrunning.indexed.preloaded
  apply hw.congr hlive
  · rfl
  · rfl
  · exact hpreloaded
  · simp only [hentries]
    exact hrunning.indexed.entries
  · apply Subset.refl

theorem Sound.beginPreload :
  Sound (step w .beginPreload)
  := by
  apply hw.deferred
  · intro hpreloaded
    rw [DeferredRuntimeState.beginPreload, if_pos hpreloaded]
    exact ⟨hpreloaded, rfl⟩
  intro hs
  rw [DeferredRuntimeState.beginPreload]
  split_ifs with hpreloaded
  · exact hs
  refine ⟨hs.pending, hs.index, ?_, hs.unlisted, hs.listed⟩
  intro read hread listing hlisting
  rcases mem_append.mp hread with hread | hread
  · apply hs.listings read hread listing hlisting
  · rw [mem_singleton.mp hread] at hlisting
    cases hlisting

theorem Sound.listEntries (n : ℕ) :
  Sound (step w (.listEntries n))
  := by
  apply hw.deferred
  · intro hpreloaded
    exact ⟨hpreloaded, rfl⟩
  intro hs
  refine ⟨hs.pending, hs.index, ?_, hs.unlisted, hs.listed⟩
  intro read hread listing hlisting
  obtain ⟨k, hk⟩ := mem_iff_getElem?.mp hread
  rw [getElem?_modify] at hk
  obtain ⟨read', hread', hk⟩ := map_eq_some_iff.mp hk
  split_ifs at hk
  · rw [← hk] at hlisting
    exact (some.inj hlisting).symm
  · rw [← hk] at hlisting
    apply hs.listings read' (mem_of_getElem? hread') listing hlisting

end Sound

/-- A listing is taken over, or was before. -/
theorem Waiting.addListing {s : MonitorStore} (hs : Waiting s)
    {read : PreloadRead MonitorKey.Value} (hread : read ∈ s.deferred.reads) :
  ((s.deferred.addListing read).preloaded = false →
      (s.deferred.addListing read).entries = ∅ ∧ (s.deferred.addListing read).touched = ∅) ∧
    ((s.deferred.addListing read).preloaded = true →
      ∀ k, (s.deferred.addListing read).entries.lookup k = s.indexedDb.lookup k) ∧
    (s.deferred.addListing read).reads = s.deferred.reads
  := by
  rw [DeferredRuntimeState.addListing]
  rcases hlisting : read.listing with _ | listing
  · exact ⟨hs.unlisted, hs.listed, rfl⟩
  simp only
  split_ifs with hpreloaded
  · exact ⟨hs.unlisted, hs.listed, rfl⟩
  obtain ⟨hentries, htouched⟩ := hs.unlisted (by simpa using hpreloaded)
  obtain ⟨hpreloaded', hreads⟩ := foldl_addEntry_rest read.revision listing.entries
    { s.deferred with preloaded := true }
  rw [hpreloaded', hreads]
  refine ⟨fun h => (by cases h), fun _ k => ?_, rfl⟩
  rw [lookup_foldl_addEntry read.revision listing.nodupKeys (by exact htouched)]
  rw [hs.listings read hread listing hlisting]
  simp only [hentries, lookup_empty, or_none]
  rfl

theorem Waiting.finishPreload {s : MonitorStore} (hs : Waiting s) (n : ℕ) :
  Waiting { s with deferred := s.deferred.finishPreload n }
  := by
  rw [DeferredRuntimeState.finishPreload]
  rcases hread : s.deferred.reads[n]? with _ | read
  · exact hs
  obtain ⟨hunlisted, hlisted, hreads⟩ := hs.addListing (mem_of_getElem? hread)
  refine ⟨hs.pending, hs.index, ?_, ?_, hlisted⟩
  · intro read' hread'
    simp only [hreads] at hread'
    apply hs.listings read' (mem_of_mem_eraseIdx hread')
  · intro hpreloaded
    obtain ⟨hentries, htouched⟩ := hunlisted hpreloaded
    use hentries
    simp only [htouched, ite_self]

theorem Sound.finishPreload (hw : Sound w) (n : ℕ) :
  Sound (step w (.finishPreload n))
  := by
  apply hw.deferred
  · intro hpreloaded
    rw [DeferredRuntimeState.finishPreload]
    split
    · rename_i read _
      have hsame : w.store.deferred.addListing read = w.store.deferred := by
        rw [DeferredRuntimeState.addListing]
        split
        · rw [if_pos hpreloaded]
        · rfl
      simp only [hsame]
      exact ⟨hpreloaded, trivial⟩
    · exact ⟨hpreloaded, rfl⟩
  · intro hs
    apply hs.finishPreload n

/-! ### Loading -/

/-- What a read of a snapshot finds: the entry of the database, or the local one. -/
def visible (name : Str) : Option ℕ :=
  (snapshotAt s.deferred.entries name).or (snapshotAt s.localStorage name)

/-- Reading leaves the database, the index, and what further reads find. -/
structure Reads (s s' : MonitorStore) : Prop where
  indexedDb : s'.indexedDb = s.indexedDb
  pending : s'.pending = s.pending
  preloaded : s'.deferred.preloaded = s.deferred.preloaded
  index : indexAt s'.localStorage = indexAt s.localStorage
  entries : indexAt s.deferred.entries = none → indexAt s'.deferred.entries = none
  visible : ∀ n, visible s' n = visible s n

theorem Reads.trans {s s' s'' : MonitorStore} (h : Reads s s') (h' : Reads s' s'') :
  Reads s s''
  := by
  constructor
  · rw [h'.indexedDb, h.indexedDb]
  · rw [h'.pending, h.pending]
  · rw [h'.preloaded, h.preloaded]
  · rw [h'.index, h.index]
  · intro hentries
    apply h'.entries (h.entries hentries)
  · intro n
    rw [h'.visible, h.visible]

theorem snapshotAt_takeDeferredKey (d : DeferredRuntimeState MonitorKey.Value)
    (name n : Str) :
  snapshotAt (d.takeDeferredKey (.snapshot name)).entries n
    = if n = name then none else snapshotAt d.entries n
  := by
  split_ifs with hname
  · rw [hname]
    apply lookup_takeDeferredKey
  · apply lookup_takeDeferredKey_ne
    simpa using hname

theorem get_snapshot (s : MonitorStore) (name : Str) :
  ∃ s', s.get (.snapshot name) .works .works = (.ok (visible s name), s') ∧ Reads s s'
  := by
  rcases hentry : snapshotAt s.deferred.entries name with _ | v
  · use { s with deferred := s.deferred.takeDeferredKey (.snapshot name) }
    constructor
    · have hlookup : s.deferred.entries.lookup (MonitorKey.snapshot name) = none := hentry
      simp only [Store.get, hlookup, visible, hentry, none_or]
      rfl
    · refine ⟨rfl, rfl, preloaded_takeDeferredKey _ _, rfl, indexAt_takeDeferredKey _ _, ?_⟩
      intro n
      simp only [visible, snapshotAt_takeDeferredKey]
      split_ifs with hname
      · rw [hname, hentry]
      · rfl
  use
    { s with
      localStorage := s.localStorage.insert (MonitorKey.snapshot name) v
      deferred := s.deferred.takeDeferredKey (.snapshot name) }
  constructor
  · have hlookup : s.deferred.entries.lookup (MonitorKey.snapshot name) = some v := hentry
    simp only [Store.get, hlookup, visible, hentry, some_or, lookup_insert]
  · refine ⟨rfl, rfl, preloaded_takeDeferredKey _ _, ?_, indexAt_takeDeferredKey _ _, ?_⟩
    · apply indexAt_insert_snapshot
    intro n
    simp only [visible, snapshotAt_takeDeferredKey, snapshotAt_insert_snapshot]
    split_ifs with hname
    · rw [hname, hentry]
      rfl
    · rfl

theorem loadSnapshots_eq (s : MonitorStore) (names : List Str) (fates : List Fates)
    (hfates : ∀ f ∈ fates, f = {}) (hnames : ∀ n ∈ names, (visible s n).isSome) :
  ∃ monitors s', loadSnapshots s names fates = (.ok monitors, s') ∧ Reads s s' ∧
    ∀ n ∈ names, monitors.lookup n = visible s n
  := by
  induction names generalizing s fates with
  | nil =>
    use ∅, s, rfl
    constructor
    · exact ⟨rfl, rfl, rfl, rfl, id, fun _ => rfl⟩
    · intro n hn
      cases hn
  | cons name names ih =>
    have hhead : fates.headD {} = {} := by
      cases fates with
      | nil => rfl
      | cons f fates => apply hfates f mem_cons_self
    obtain ⟨s1, hget, hreads1⟩ := get_snapshot s name
    obtain ⟨snapshot, hsnapshot⟩ := isSome_iff_exists.mp (hnames name mem_cons_self)
    obtain ⟨monitors, s2, hload, hreads2, hmonitors⟩ := ih s1 fates.tail
      (fun f hf => hfates f (mem_of_mem_tail hf)) (by
        intro n hn
        rw [hreads1.visible]
        apply hnames n (mem_cons_of_mem _ hn))
    use monitors.insert name snapshot, s2
    refine ⟨?_, hreads1.trans hreads2, ?_⟩
    · simp only [loadSnapshots, hhead, hget, hsnapshot, hload]
    · intro n hn
      rw [Table.lookup_insert_eq]
      split_ifs with hname
      · rw [hname, hsnapshot]
      · rw [hmonitors n ((mem_cons.mp hn).resolve_left hname), hreads1.visible]

/-- The index is read by a page that has the listing of the database. -/
theorem Waiting.getIndex {s : MonitorStore} (hs : Waiting s)
    (hpreloaded : s.deferred.preloaded = true) :
  ∃ s', getIndex s {} = (.ok (indexOf s), s') ∧ s'.indexedDb = s.indexedDb ∧
    s'.pending = [] ∧ Indexed s' ∧ ∀ n, visible s' n = visible s n
  := by
  have hlisted : s.deferred.entries.lookup MonitorKey.index = indexAt s.indexedDb :=
    hs.listed hpreloaded _
  have hsettled := settled_of_pending_nil hs.pending
  have hvisible : ∀ n,
      snapshotAt (s.deferred.takeDeferredKey .index).entries n = snapshotAt s.deferred.entries n
      := by
    intro n
    apply lookup_takeDeferredKey_ne
    simp
  rcases hindex : indexAt s.indexedDb with _ | index
  · use { s with deferred := s.deferred.takeDeferredKey .index }
    have hlocal : s.localStorage.lookup MonitorKey.index = none := by
      rw [← hindex, hs.index]
      rfl
    refine ⟨?_, rfl, hs.pending, ⟨?_, lookup_takeDeferredKey _ _, ?_⟩, ?_⟩
    · simp only [Monitors.getIndex, Store.get, hlisted, hindex, hlocal, indexOf, hsettled]
    · rw [← hpreloaded]
      apply preloaded_takeDeferredKey
    · simp only [Store.settled, hs.pending, foldl_nil]
      exact hs.index
    · intro n
      simp only [visible, hvisible]
  use
    { s with
      localStorage := s.localStorage.insert MonitorKey.index index
      deferred := s.deferred.takeDeferredKey .index }
  refine ⟨?_, rfl, hs.pending, ⟨?_, lookup_takeDeferredKey _ _, ?_⟩, ?_⟩
  · simp only [Monitors.getIndex, Store.get, hlisted, hindex, lookup_insert, indexOf,
      hsettled]
  · rw [← hpreloaded]
    apply preloaded_takeDeferredKey
  · simp only [Store.settled, hs.pending, foldl_nil, indexAt_insert_index]
    exact hindex
  · intro n
    simp only [visible, hvisible, snapshotAt_insert_index]

theorem Sound.load (hw : Sound w) {fates : List Fates} (hregular : Regular w (.load fates))
    (hf : Undisturbed w (.load fates)) :
  Sound (w.load fates)
  := by
  obtain ⟨hnone, hpreloaded⟩ := hregular
  have hs := hw.waiting hnone
  have hsettled := settled_of_pending_nil hs.pending
  have hhead : fates.headD {} = {} := by
    cases fates with
    | nil => rfl
    | cons f fates => apply hf f mem_cons_self
  -- what is read of a monitor in the index is what the database has
  have hvisible : ∀ n ∈ indexOf w.store, visible w.store n = snapshotAt w.store.settled n := by
    intro n hn
    obtain ⟨v, hv⟩ := isSome_iff_exists.mp (hw.snapshots n hn)
    have hentry : snapshotAt w.store.deferred.entries n = some v := by
      rw [← hv, hsettled]
      apply hs.listed hpreloaded
    rw [visible, hentry, hv]
    rfl
  obtain ⟨s1, hget, hdb1, hpending1, hindexed1, hvisible1⟩ := hs.getIndex hpreloaded
  obtain ⟨monitors, s2, hload, hreads, hmonitors⟩ :=
    loadSnapshots_eq s1 (indexOf w.store) fates.tail
    (fun f h => hf f (mem_of_mem_tail h)) (by
      intro n hn
      rw [hvisible1, hvisible n hn]
      apply hw.snapshots n hn)
  have hsettled2 : s2.settled = w.store.settled := by
    rw [settled_of_pending_nil (hreads.pending.trans hpending1), hreads.indexedDb, hdb1, hsettled]
  have hlookup : ∀ n ∈ indexOf w.store, monitors.lookup n = snapshotAt w.store.settled n := by
    intro n hn
    rw [hmonitors n hn, hvisible1, hvisible n hn]
  have heq : loadPersistedMonitors w.store fates = (.ok monitors, s2) := by
    simp only [loadPersistedMonitors, hhead, hget, hload]
  simp only [World.load, heq]
  constructor
  · intro n hn
    simp only [indexOf, hsettled2] at hn ⊢
    apply hw.snapshots n hn
  · intro r hr
    apply (hw.reported r hr).congr hsettled2
  · intro l hl
    rcases mem_append.mp hl with hl | hl
    · apply hw.loads l hl
    rw [mem_singleton.mp hl]
    use monitors, rfl
    intro r hr
    obtain ⟨hn, v, hv, hle⟩ := hw.reported r hr
    use v
    rw [hlookup r.1 hn]
    exact ⟨hv, hle⟩
  · rintro _ ⟨⟩
    refine ⟨⟨?_, ?_, ?_⟩, ?_, ?_⟩
    · rw [hreads.preloaded]
      exact hindexed1.preloaded
    · apply hreads.entries hindexed1.entries
    · rw [hreads.index, ← hindexed1.settled, settled_of_pending_nil hpending1,
        settled_of_pending_nil (hreads.pending.trans hpending1), hreads.indexedDb]
    · intro n hn
      simp only [indexOf, hsettled2] at hn ⊢
      apply hlookup n hn
    · intro write hwrite
      simp only [hreads.pending, hpending1] at hwrite
      cases hwrite
  · rintro ⟨⟩

theorem Sound.reload (hw : Sound w) {finished : List ℕ}
    (hf : Undisturbed w (.reload finished)) :
  Sound (step w (.reload finished))
  := by
  have hpending : w.store.pending = [] := hf
  have hstore : w.store.reload finished
      = { localStorage := w.store.localStorage, indexedDb := w.store.indexedDb } := by
    have hnone : finished.filterMap (w.store.pending[·]?) = [] := by
      simp [hpending]
    rw [Store.reload, hnone]
    rfl
  have hsettled : w.store.settled = w.store.indexedDb := settled_of_pending_nil hpending
  have hindex : indexAt w.store.indexedDb = indexAt w.store.localStorage := by
    obtain hnone | ⟨live, hlive⟩ := w.monitors.eq_none_or_eq_some
    · exact (hw.waiting hnone).index
    · rw [← hsettled]
      exact (hw.running live hlive).indexed.settled
  simp only [Monitors.step, hstore]
  constructor
  · intro n hn
    have h := hw.snapshots n
    rw [indexOf, hsettled] at h
    apply h hn
  · intro r hr
    apply (hw.reported r hr).congr
    exact hsettled.symm
  · exact hw.loads
  · rintro _ ⟨⟩
  · intro _
    refine ⟨rfl, hindex, ?_, ?_, ?_⟩
    · intro read hread
      cases hread
    · intro _
      exact ⟨rfl, rfl⟩
    · rintro ⟨⟩

theorem Sound.step (hw : Sound w) {e : Event} (hregular : Regular w e)
    (hundisturbed : Undisturbed w e) :
  Sound (step w e)
  := by
  cases e with
  | persist name snapshot updateId f => apply hw.persist hregular hundisturbed
  | archive name f => apply hw.archive hregular hundisturbed
  | completeWrite n fate f =>
    obtain ⟨rfl, rfl, rfl⟩ := hundisturbed
    apply hw.completeWrite
  | beginPreload => apply hw.beginPreload
  | listEntries n => apply hw.listEntries n
  | finishPreload n => apply hw.finishPreload n
  | load fates => apply hw.load hregular hundisturbed
  | reload finished => apply hw.reload hundisturbed

theorem sound_empty :
  Sound {}
  := by
  constructor
  · intro n hn
    cases hn
  · intro r hr
    cases hr
  · intro l hl
    cases hl
  · rintro _ ⟨⟩
  · intro _
    refine ⟨rfl, rfl, ?_, ?_, ?_⟩
    · intro read hread
      cases hread
    · intro _
      exact ⟨rfl, rfl⟩
    · rintro ⟨⟩

instance : (w : World) → (e : Event) → Decidable (Regular w e)
  | w, .persist name snapshot updateId _ =>
    inferInstanceAs (Decidable (updateId ≤ snapshot ∧ w.monitors.isSome ∧
      ∀ v ∈ (w.monitors.getD ∅).lookup name, v ≤ snapshot))
  | w, .archive _ _ => inferInstanceAs (Decidable (w.monitors.isSome))
  | w, .load _ => decidable_of_iff (w.monitors.isNone ∧ w.store.deferred.preloaded = true)
      (by rw [isNone_iff_eq_none]; rfl)
  | _, .completeWrite _ _ _ | _, .beginPreload | _, .listEntries _ | _, .finishPreload _
  | _, .reload _ => .isTrue trivial

instance : (w : World) → (e : Event) → Decidable (Undisturbed w e)
  | w, .persist name _ _ f => inferInstanceAs (Decidable (f = {} ∨ name ∈ localIndex w))
  | w, .archive name f => inferInstanceAs (Decidable (f = {} ∧
      ∀ write ∈ w.store.pending, ∀ c ∈ write.next, c.name ≠ name))
  | _, .completeWrite n fate f => inferInstanceAs (Decidable (n = 0 ∧ fate = .works ∧ f = {}))
  | _, .load fates => inferInstanceAs (Decidable (∀ f ∈ fates, f = {}))
  | w, .reload _ => decidable_of_iff (w.store.pending.isEmpty = true) (by
      rw [List.isEmpty_iff]
      rfl)
  | _, .beginPreload | _, .listEntries _ | _, .finishPreload _ => .isTrue trivial

instance : (load : Except String (Table Str ℕ) × List (Str × ℕ)) → Decidable (Complete load)
  | (.error _, _) => .isFalse (by rintro ⟨_, ⟨⟩, _⟩)
  | (.ok monitors, reported) =>
    decidable_of_iff (∀ r ∈ reported, ∃ v ∈ monitors.lookup r.1, r.2 ≤ v) (by
      constructor
      · intro h
        use monitors, rfl
        exact h
      · rintro ⟨_, ⟨⟩, h⟩
        exact h)

def startUp : List Event :=
  [.beginPreload, .listEntries 0, .finishPreload 0, .load []]

/-- A second update is left to the database because the local storage is full. -/
def deferredUpdate : List Event :=
  startUp ++
    [ .persist (str "m") 1 1 {},
      .completeWrite 0 .works {},
      .completeWrite 0 .works {},
      .persist (str "m") 2 2 { write := .fails },
      .completeWrite 0 .works {},
      .completeWrite 0 .works {},
      .reload [] ] ++ startUp

/-- The local storage takes two updates, and the write of the second to the database is lost
when the page is reloaded. -/
def lostWrite : List Event :=
  startUp ++
    [ .persist (str "m") 1 1 {},
      .completeWrite 0 .works {},
      .completeWrite 0 .works {},
      .persist (str "m") 2 2 {},
      .reload [] ] ++ startUp

end RgbLightning.Monitors
