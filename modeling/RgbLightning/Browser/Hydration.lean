import RgbLightning.Browser.RuntimeStore
import RgbLightning.Lib.Run

/-!
# Freshness of the browser's store

A page lists the database and takes the entries over: those of some keys are copied to the
local storage at once, those of others when the key is read for the first time, and the rest
is left.  An entry that waits is dropped when its key is used, and is not taken over if its
key was used since the listing was asked for.

A key that was written before that is not protected, and a key that is copied at once never
is: a read then returns the older copy (`get_stale`).  `get_fresh` says when every read
returns what was written last.
-/

namespace RgbLightning.RuntimeStore

open List AList DeferredRuntimeState

/-! ### The keys -/

/-- The beginnings of the keys that are taken over from the database. -/
def runtimeStateHydratePrefixes : List Str :=
  [str "rln:wasm:ldk-runtime:", str "rln:wasm:swap-runtime:", str "rln:wasm:media:",
    str "rln:wasm:wallet-rgb-proxy:", str "rln:wasm:ln-runtime-core:",
    str "rln:wasm:chain-sync:", str "rln:wasm:ldk-broadcast-queue:",
    str "rln:wasm:ldk-monitors:", str "rln:wasm:runtime-events:",
    str "rln:wasm:rgb-ln-transfers:", str "rln:wasm:virtual-channels-v0:",
    str "rln:wasm:peer-sessions:"]

/-- An entry of this key waits until the key is read. -/
def isDeferredRuntimeKey (key : Str) : Bool :=
  runtimeStateHydratePrefixes.any (·.isPrefixOf key)
    && !(str "rln:wasm:media:").isPrefixOf key
    && !(str "rln:wasm:wallet-rgb-proxy:").isPrefixOf key
    && !(str "rln:wasm:virtual-channels-v0:").isPrefixOf key

/-- How the entry of a key is taken over from the database. -/
inductive Hydration where
  | deferred
  | eager
  | ignored
deriving DecidableEq

def hydration (key : Str) : Hydration :=
  if !runtimeStateHydratePrefixes.any (·.isPrefixOf key) then .ignored
  else if isDeferredRuntimeKey key then .deferred
  else .eager

/-! ### Listings of all keys -/

namespace Store

variable {K : Type} [DecidableEq K] {V : K → Type} {N : Type}
variable (kind : K → Hydration) (fates : K → StorageFate) (s : Store V N)

def hydrateEntry (revision : UInt64) (entry : Sigma V) : Store V N :=
  match kind entry.1 with
  | .ignored => s
  | .deferred => { s with deferred := s.deferred.addEntry revision entry }
  | .eager =>
    match fates entry.1 with
    | .works => { s with localStorage := s.localStorage.insert entry.1 entry.2 }
    | .fails => s

/-- What a listing found is taken over, unless another was before. -/
def hydrate (read : PreloadRead V) : Store V N :=
  match read.listing with
  | some listing =>
    if s.deferred.preloaded then s
    else listing.entries.foldl (fun s e => s.hydrateEntry kind fates read.revision e)
      { s with deferred.preloaded := true }
  -- the request failed
  | none => s

def finishPreload (n : ℕ) : Store V N :=
  match s.deferred.reads[n]? with
  | some read =>
    let s := s.hydrate kind fates read
    let reads := s.deferred.reads.eraseIdx n
    { s with
      deferred.reads := reads
      deferred.touched := if reads.isEmpty then ∅ else s.deferred.touched }
  | none => s

end Store

/-! ### Pages -/

/-- The store of a page, and, for reasoning, what it wrote last under each key: `none` if it
deleted the key. -/
structure Page where
  store : Store (fun _ : Str => Str) Unit := {}
  written : Table Str (Option Str) := ∅

inductive PageEvent where
  | set (key value : Str) (fate : StorageFate)
  | delete (key : Str) (fate : StorageFate)
  | get (key : Str) (hydrate read : StorageFate)
  | completeWrite (n : ℕ) (fate : StorageFate)
  | beginPreload
  | listEntries (n : ℕ)
  | finishPreload (n : ℕ) (fates : Str → StorageFate)

namespace Page

variable (w : Page)

/-- A key was written, if the local storage has taken the write. -/
def wrote (key : Str) (value : Option Str) :
    Except String Unit × Store (fun _ : Str => Str) Unit → Page
  | (.ok _, s) => ⟨s, w.written.insert key value⟩
  | (.error _, s) => ⟨s, w.written⟩

def step : PageEvent → Page
  | .set key value fate => w.wrote key (some value) (w.store.set key value fate)
  | .delete key fate => w.wrote key none (w.store.delete key fate)
  | .get key hydrate read => { w with store := (w.store.get key hydrate read).2 }
  | .completeWrite n fate => { w with store := w.store.completeWrite n fate }
  | .beginPreload => { w with store.deferred := w.store.deferred.beginPreload }
  | .listEntries n => { w with store := w.store.listEntries n }
  | .finishPreload n fates => { w with store := w.store.finishPreload hydration fates n }

/-- A key can be used without the revision running over. -/
def CanUse : Prop :=
  w.store.deferred.reads = [] ∨ w.store.deferred.revision.toNat + 1 < 2 ^ 64
deriving Decidable

/-- No listing is under way that may still be taken over. -/
def Unlisted : Prop :=
  w.store.deferred.reads = [] ∨ w.store.deferred.preloaded = true
deriving Decidable

/-- The database has what was written last under the key, and no write of it is under way. -/
def Stored (key : Str) (value : Option Str) : Prop :=
  w.store.indexedDb.lookup key = value ∧ ∀ write ∈ w.store.pending, write.key ≠ key
deriving Decidable

/-- A listing is asked for when the database is up to date for the keys written so far, no key
that is copied at once is written while a listing is under way, and the revision does not run
over. -/
def Undisturbed : PageEvent → Prop
  | .set key _ .works => (hydration key = .eager → w.Unlisted) ∧ w.CanUse
  | .delete key .works => (hydration key = .eager → w.Unlisted) ∧ w.CanUse
  | .get _ _ _ => w.CanUse
  | .completeWrite _ .works => w.CanUse
  | .beginPreload =>
    w.store.deferred.preloaded = true ∨
      ∀ e ∈ w.written.entries, hydration e.1 = .ignored ∨ w.Stored e.1 e.2
  | _ => True

end Page

/-! ### Uses of keys -/

namespace DeferredRuntimeState

variable {K : Type} [DecidableEq K] {V : K → Type} (d : DeferredRuntimeState V)

def UsedSince (revision : UInt64) (k : K) : Prop :=
  revision < (d.touched.lookup k).getD 0

variable {d}

theorem reads_takeDeferredKey (k : K) :
  (d.takeDeferredKey k).reads = d.reads
  := by
  rw [takeDeferredKey]
  split_ifs <;> rfl

variable {revision : UInt64}

/-- A use is later than every revision before it, unless the revision runs over. -/
theorem usedSince_takeDeferredKey (k : K) (hreads : d.reads ≠ [])
    (hmax : d.revision.toNat + 1 < 2 ^ 64) (hle : revision ≤ d.revision) :
  (d.takeDeferredKey k).UsedSince revision k
  := by
  have hreads' : ¬ d.reads.isEmpty := by
    rw [List.isEmpty_iff]
    exact hreads
  rw [takeDeferredKey, if_neg hreads', UsedSince]
  dsimp only
  rw [lookup_insert, Option.getD_some, UInt64.lt_iff_toNat_lt, UInt64.toNat_add,
    UInt64.toNat_one, Nat.mod_eq_of_lt hmax]
  rw [UInt64.le_iff_toNat_le] at hle
  omega

theorem UsedSince.takeDeferredKey_ne {k k' : K} (h : d.UsedSince revision k') (hne : k' ≠ k) :
  (d.takeDeferredKey k).UsedSince revision k'
  := by
  rw [takeDeferredKey]
  split_ifs
  · exact h
  · rw [UsedSince]
    dsimp only
    rw [lookup_insert_ne hne]
    exact h

theorem le_revision_takeDeferredKey (k : K) (hmax : d.reads = [] ∨ d.revision.toNat + 1 < 2 ^ 64)
    (hle : revision ≤ d.revision) :
  revision ≤ (d.takeDeferredKey k).revision
  := by
  rw [takeDeferredKey]
  split_ifs with hreads
  · exact hle
  · have hmax := hmax.resolve_left (fun h => hreads (isEmpty_iff.mpr h))
    dsimp only
    rw [UInt64.le_iff_toNat_le] at hle ⊢
    rw [UInt64.toNat_add, UInt64.toNat_one, Nat.mod_eq_of_lt hmax]
    omega

end DeferredRuntimeState

/-! ### The invariant -/

/-- The listing finds what was written last under the key, whenever it is made. -/
structure Page.Finds (w : Page) (read : PreloadRead (fun _ : Str => Str)) (key : Str)
    (value : Option Str) : Prop where
  stored : w.Stored key value
  listed : ∀ listing, read.listing = some listing → listing.lookup key = value

/-- The local storage has what was written last under a key, and an entry that waits has
nothing else.  As long as none was taken over, every listing under way finds it too, or the
entry waits and the key was used since the listing was asked for. -/
structure Page.Fresh (w : Page) : Prop where
  current : ∀ k x, w.written.lookup k = some x → w.store.localStorage.lookup k = x
  entries : ∀ k x v, w.written.lookup k = some x →
    w.store.deferred.entries.lookup k = some v → x = some v
  revisions : ∀ read ∈ w.store.deferred.reads, read.revision ≤ w.store.deferred.revision
  reads : w.store.deferred.preloaded = false → ∀ read ∈ w.store.deferred.reads,
    ∀ k x, w.written.lookup k = some x → hydration k ≠ .ignored →
      (hydration k = .deferred ∧ w.store.deferred.UsedSince read.revision k)
        ∨ w.Finds read k x

namespace Page

variable {w : Page}

theorem fresh_of_unwritten {w : Page} (hwritten : w.written = ∅)
    (hreads : w.store.deferred.reads = []) :
  w.Fresh
  := by
  refine ⟨fun k x h => ?_, fun k x v h => ?_, fun read hread => ?_, fun _ read hread => ?_⟩
  · rw [hwritten] at h
    cases h
  · rw [hwritten] at h
    cases h
  · rw [hreads] at hread
    cases hread
  · rw [hreads] at hread
    cases hread

variable {k : Str}

/-- What was used since a listing was asked for still was. -/
theorem Fresh.usedSince_use (hw : w.Fresh) (hmax : w.CanUse) {k' : Str}
    {read : PreloadRead (fun _ : Str => Str)} (hread : read ∈ w.store.deferred.reads)
    (h : k' = k ∨ w.store.deferred.UsedSince read.revision k') :
  (w.store.deferred.takeDeferredKey k).UsedSince read.revision k'
  := by
  by_cases hk : k' = k
  · have hreads : w.store.deferred.reads ≠ [] := ne_nil_of_mem hread
    rw [hk]
    exact usedSince_takeDeferredKey k hreads
      (hmax.resolve_left hreads) (hw.revisions read hread)
  · exact (h.resolve_left hk).takeDeferredKey_ne hk

/-- A key is used.  What was written before is as known to the listings under way as it was,
and what is written now is protected by the use. -/
theorem Fresh.use (hw : w.Fresh) (hmax : w.CanUse) (k : Str) {w' : Page}
    (hdeferred : w'.store.deferred = w.store.deferred.takeDeferredKey k)
    (hcurrent : ∀ k' x, w'.written.lookup k' = some x → w'.store.localStorage.lookup k' = x)
    (hknown : ∀ k' x, w'.written.lookup k' = some x →
      (k' = k ∧ (hydration k = .eager → w.Unlisted))
        ∨ (w.written.lookup k' = some x ∧ (w.Stored k' x → w'.Stored k' x))) :
  w'.Fresh
  := by
  refine ⟨hcurrent, fun k' x v hx hv => ?_, fun read hread => ?_,
    fun hpreloaded read hread k' x hx hkind => ?_⟩
  · rw [hdeferred] at hv
    by_cases hk : k' = k
    · rw [hk, lookup_takeDeferredKey] at hv
      cases hv
    · rw [lookup_takeDeferredKey_ne _ hk] at hv
      obtain ⟨hk', -⟩ | ⟨hx, -⟩ := hknown k' x hx
      · exact absurd hk' hk
      · exact hw.entries k' x v hx hv
  · rw [hdeferred] at hread ⊢
    rw [reads_takeDeferredKey] at hread
    exact le_revision_takeDeferredKey k hmax (hw.revisions read hread)
  rw [hdeferred] at hpreloaded hread ⊢
  rw [preloaded_takeDeferredKey] at hpreloaded
  rw [reads_takeDeferredKey] at hread
  obtain ⟨hk, heager⟩ | ⟨hx, hstored⟩ := hknown k' x hx
  · left
    refine ⟨?_, hw.usedSince_use hmax hread (Or.inl hk)⟩
    -- A key that is copied at once is not written now.
    rcases hkind' : hydration k' with _ | _ | _
    · rfl
    · rcases heager (hk ▸ hkind') with hreads | hpreloaded'
      · rw [hreads] at hread
        cases hread
      · rw [hpreloaded] at hpreloaded'
        cases hpreloaded'
    · exact absurd hkind' hkind
  · obtain ⟨hkind', hused⟩ | hfinds := hw.reads hpreloaded read hread k' x hx hkind
    · exact Or.inl ⟨hkind', hw.usedSince_use hmax hread (Or.inr hused)⟩
    · exact Or.inr ⟨hstored hfinds.stored, hfinds.listed⟩

variable {x : Option Str}
variable {localStorage : AList fun _ : Str => Str}

section Fresh

variable (hw : w.Fresh)
include hw

theorem Fresh.wrote (hk : hydration k = .eager → w.Unlisted) (hmax : w.CanUse)
    (hhere : localStorage.lookup k = x)
    (hothers : ∀ k', k' ≠ k → localStorage.lookup k' = w.store.localStorage.lookup k')
    {write : IdbWrite (fun _ : Str => Str) Unit} (hwrite : write.key = k) :
  Fresh ⟨{ w.store with
      localStorage := localStorage
      deferred := w.store.deferred.takeDeferredKey k
      pending := w.store.pending ++ [write] }, w.written.insert k x⟩
  := by
  refine hw.use hmax k rfl (fun k' x' hx => ?_) fun k' x' hx => ?_
  · rw [Table.lookup_insert_eq] at hx
    split_ifs at hx with hk'
    · rw [hk', ← Option.some.inj hx]
      exact hhere
    · rw [← hw.current k' x' hx]
      exact hothers k' hk'
  rw [Table.lookup_insert_eq] at hx
  split_ifs at hx with hk'
  · exact Or.inl ⟨hk', hk⟩
  right
  refine ⟨hx, fun hstored => ⟨hstored.1, fun write' h => ?_⟩⟩
  rcases mem_append.mp h with h | h
  · exact hstored.2 write' h
  · rw [mem_singleton.mp h, hwrite]
    exact Ne.symm hk'

omit hw in
/-- What a read does: an entry that waits may be copied, and the key is used. -/
theorem get_cases {s : Store (fun _ : Str => Str) Unit} (k : Str)
    (hydrate read : StorageFate) :
  ∃ localStorage : AList fun _ : Str => Str,
    (s.get k hydrate read).2
        = { s with localStorage, deferred := s.deferred.takeDeferredKey k }
      ∧ (∀ value, (s.get k hydrate read).1 = .ok value → value = localStorage.lookup k)
      ∧ (localStorage = s.localStorage ∨ ∃ v, s.deferred.entries.lookup k = some v ∧
          localStorage = s.localStorage.insert k v)
  := by
  rcases hentry : s.deferred.entries.lookup k with _ | v
  · refine ⟨s.localStorage, ?_, ?_, Or.inl rfl⟩
    · cases read <;> simp [Store.get, hentry]
    · cases read <;> simp [Store.get, hentry]
  cases hydrate with
  | works =>
    refine ⟨s.localStorage.insert k v, ?_, ?_, Or.inr ⟨v, rfl, rfl⟩⟩
    · cases read <;> simp [Store.get, hentry]
    · cases read <;> simp [Store.get, hentry]
  | fails =>
    refine ⟨s.localStorage, ?_, ?_, Or.inl rfl⟩
    · cases read <;> simp [Store.get, hentry]
    · cases read <;> simp [Store.get, hentry]

/-- What a read copies to the local storage was written last, if the page wrote the key. -/
theorem Fresh.current_get
    (h : localStorage = w.store.localStorage ∨ ∃ v, w.store.deferred.entries.lookup k = some v ∧
      localStorage = w.store.localStorage.insert k v) {k' : Str}
    (hx : w.written.lookup k' = some x) :
  localStorage.lookup k' = x
  := by
  obtain rfl | ⟨v, hv, rfl⟩ := h
  · exact hw.current k' x hx
  · by_cases hk : k' = k
    · subst hk
      rw [lookup_insert, hw.entries k' x v hx hv]
    · rw [lookup_insert_ne hk]
      exact hw.current k' x hx

theorem Fresh.get_eq (hx : w.written.lookup k = some x) {hydrate read : StorageFate}
    {value : Option Str} (hvalue : (w.store.get k hydrate read).1 = .ok value) :
  value = x
  := by
  obtain ⟨localStorage, -, hanswer, hlocal⟩ := get_cases (s := w.store) k hydrate read
  rw [hanswer value hvalue]
  exact hw.current_get hlocal hx

theorem Fresh.get (hmax : w.CanUse) (k : Str) (hydrate read : StorageFate) :
  Fresh { w with store := (w.store.get k hydrate read).2 }
  := by
  obtain ⟨localStorage, hstore, -, hlocal⟩ := get_cases (s := w.store) k hydrate read
  rw [hstore]
  refine hw.use hmax k rfl (fun k' x hx => hw.current_get hlocal hx) fun k' x hx => ?_
  exact Or.inr ⟨hx, id⟩

theorem Fresh.completeWrite {n : ℕ} {fate : StorageFate} (hmax : fate = .works → w.CanUse) :
  Fresh { w with store := w.store.completeWrite n fate }
  := by
  rcases hwrite : w.store.pending[n]? with _ | write
  · simp only [Store.completeWrite, hwrite]
    exact hw
  have hmem : write ∈ w.store.pending := mem_of_getElem? hwrite
  have hsub : ∀ write' ∈ w.store.pending.eraseIdx n, write' ∈ w.store.pending :=
    fun write' h => mem_of_mem_eraseIdx h
  cases fate with
  | fails =>
    simp only [Store.completeWrite, hwrite]
    refine ⟨hw.current, hw.entries, hw.revisions, fun hpreloaded read hread k x hx hkind => ?_⟩
    obtain hused | hfinds := hw.reads hpreloaded read hread k x hx hkind
    · exact Or.inl hused
    · exact Or.inr ⟨⟨hfinds.stored.1, fun write' h => hfinds.stored.2 write' (hsub write' h)⟩,
        hfinds.listed⟩
  | works =>
    simp only [Store.completeWrite, hwrite]
    refine hw.use (hmax rfl) write.key rfl hw.current fun k x hx => Or.inr ⟨hx, fun hstored => ?_⟩
    -- No write of a key that is stored is under way.
    have hne : k ≠ write.key := Ne.symm (hstored.2 write hmem)
    refine ⟨?_, fun write' h => hstored.2 write' (hsub write' h)⟩
    rw [← hstored.1]
    dsimp only [IdbWrite.apply]
    rcases write.value with _ | value
    · exact lookup_erase_ne hne
    · exact lookup_insert_ne hne

theorem Fresh.beginPreload (hstored : w.store.deferred.preloaded = true ∨
      ∀ e ∈ w.written.entries, hydration e.1 = .ignored ∨ w.Stored e.1 e.2) :
  Fresh { w with store.deferred := w.store.deferred.beginPreload }
  := by
  rw [DeferredRuntimeState.beginPreload]
  split_ifs with hpreloaded
  · exact hw
  refine ⟨hw.current, hw.entries, fun read hread => ?_, fun hnot read hread k x hx hkind => ?_⟩
  · rcases mem_append.mp hread with hread | hread
    · exact hw.revisions read hread
    · obtain rfl := mem_singleton.mp hread
      exact UInt64.le_refl _
  rcases mem_append.mp hread with hread | hread
  · obtain hused | hfinds := hw.reads hnot read hread k x hx hkind
    · exact Or.inl hused
    · exact Or.inr ⟨hfinds.stored, hfinds.listed⟩
  right
  rw [mem_singleton.mp hread]
  have hmem := mem_lookup_iff.mp hx
  have hk := ((hstored.resolve_left hpreloaded) ⟨k, x⟩ hmem).resolve_left hkind
  refine ⟨hk, fun listing h => ?_⟩
  cases h

theorem Fresh.listEntries (n : ℕ) :
  Fresh { w with store := w.store.listEntries n }
  := by
  -- A listing that was changed has the revision of one that was under way.
  have hread : ∀ read ∈ (w.store.deferred.reads.modify n fun read =>
      { read with listing := some w.store.indexedDb }),
      ∃ read' ∈ w.store.deferred.reads, read.revision = read'.revision ∧
        (read.listing = read'.listing ∨ read.listing = some w.store.indexedDb) := by
    intro read hread
    obtain ⟨i, hi, rfl⟩ := mem_iff_getElem.mp hread
    rw [length_modify] at hi
    refine ⟨w.store.deferred.reads[i], getElem_mem hi, ?_⟩
    rw [getElem_modify]
    split_ifs
    · exact ⟨rfl, Or.inr rfl⟩
    · exact ⟨rfl, Or.inl rfl⟩
  refine ⟨hw.current, hw.entries, fun read h => ?_, fun hpreloaded read h k x hx hkind => ?_⟩
  · obtain ⟨read', hread', hrevision, -⟩ := hread read h
    rw [hrevision]
    exact hw.revisions read' hread'
  obtain ⟨read', hread', hrevision, hlisting⟩ := hread read h
  obtain ⟨hkind', hused⟩ | hfinds := hw.reads hpreloaded read' hread' k x hx hkind
  · left
    rw [hrevision]
    exact ⟨hkind', hused⟩
  right
  refine ⟨hfinds.stored, fun listing h => ?_⟩
  rcases hlisting with hlisting | hlisting
  · exact hfinds.listed listing (hlisting ▸ h)
  · rw [hlisting] at h
    obtain rfl := Option.some.inj h
    exact hfinds.stored.1

end Fresh

/-! ### The end of a listing -/

/-- An entry that was found is the one written last, or its key was used. -/
def Takes (revision : UInt64) (entry : Sigma fun _ : Str => Str) : Prop :=
  ∀ x, w.written.lookup entry.1 = some x → hydration entry.1 ≠ .ignored →
    (hydration entry.1 = .deferred ∧ w.store.deferred.UsedSince revision entry.1)
      ∨ x = some entry.2

theorem Fresh.of_preloaded {w : Page} (hpreloaded : w.store.deferred.preloaded = true)
    (hcurrent : ∀ k x, w.written.lookup k = some x → w.store.localStorage.lookup k = x)
    (hentries : ∀ k x v, w.written.lookup k = some x →
      w.store.deferred.entries.lookup k = some v → x = some v)
    (hrevisions : ∀ read ∈ w.store.deferred.reads,
      read.revision ≤ w.store.deferred.revision) :
  w.Fresh
  := by
  refine ⟨hcurrent, hentries, hrevisions, fun hnot => ?_⟩
  rw [hpreloaded] at hnot
  cases hnot

/-- An insertion of what was written last changes nothing for the keys that were written. -/
theorem lookup_insert_written {t : AList fun _ : Str => Str} {e : Sigma fun _ : Str => Str}
    (he : ∀ x, w.written.lookup e.1 = some x → x = some e.2) (hx : w.written.lookup k = some x) :
  (t.insert e.1 e.2).lookup k = x ∨ (k ≠ e.1 ∧ (t.insert e.1 e.2).lookup k = t.lookup k)
  := by
  by_cases hk : k = e.1
  · left
    subst hk
    rw [lookup_insert, he x hx]
  · right
    exact ⟨hk, lookup_insert_ne hk⟩

theorem Fresh.hydrateEntry (hw : w.Fresh) (hpreloaded : w.store.deferred.preloaded = true)
    (fates : Str → StorageFate) {revision : UInt64} {e : Sigma fun _ : Str => Str}
    (he : w.Takes revision e) :
  Fresh { w with store := w.store.hydrateEntry hydration fates revision e }
  := by
  rw [Store.hydrateEntry]
  rcases hkind : hydration e.1 with _ | _ | _
  · dsimp only
    rw [addEntry]
    split_ifs with hused
    · exact hw
    have he' : ∀ x, w.written.lookup e.1 = some x → x = some e.2 := by
      intro x hx
      refine (he x hx (by simp [hkind])).resolve_left ?_
      rintro ⟨-, hused'⟩
      exact hused hused'
    refine .of_preloaded hpreloaded hw.current (fun k x v hx hv => ?_) hw.revisions
    dsimp only at hv
    obtain hk | ⟨-, hk⟩ := lookup_insert_written (t := w.store.deferred.entries) he' hx
    · rw [← hk, hv]
    · rw [hk] at hv
      exact hw.entries k x v hx hv
  · dsimp only
    rcases fates e.1 with _ | _
    · have he' : ∀ x, w.written.lookup e.1 = some x → x = some e.2 := by
        intro x hx
        refine (he x hx (by simp [hkind])).resolve_left ?_
        rintro ⟨hdeferred, -⟩
        rw [hkind] at hdeferred
        cases hdeferred
      refine .of_preloaded hpreloaded (fun k x hx => ?_) hw.entries hw.revisions
      obtain hk | ⟨-, hk⟩ := lookup_insert_written (t := w.store.localStorage) he' hx
      · exact hk
      · exact hk.trans (hw.current k x hx)
    · exact hw
  · exact hw

theorem hydrateEntry_rest {K : Type} [DecidableEq K] {V : K → Type} {N : Type}
    {s : Store V N} (kind : K → Hydration) (fates : K → StorageFate) (revision : UInt64)
    (e : Sigma V) :
  ∃ localStorage entries, s.hydrateEntry kind fates revision e
    = { s with localStorage, deferred.entries := entries }
  := by
  rw [Store.hydrateEntry]
  split
  · exact ⟨_, _, rfl⟩
  · rw [addEntry]
    split_ifs
    · exact ⟨_, _, rfl⟩
    · exact ⟨_, _, rfl⟩
  · split
    · exact ⟨_, _, rfl⟩
    · exact ⟨_, _, rfl⟩

theorem Fresh.foldl_hydrateEntry (fates : Str → StorageFate) {revision : UInt64}
    {l : List (Sigma fun _ : Str => Str)} {w : Page} (hw : w.Fresh)
    (hpreloaded : w.store.deferred.preloaded = true) (hl : ∀ e ∈ l, w.Takes revision e) :
  Fresh
    { w with
      store := l.foldl (fun s e => s.hydrateEntry hydration fates revision e) w.store }
  := by
  induction l generalizing w with
  | nil => exact hw
  | cons e l ih =>
    have hw' := hw.hydrateEntry hpreloaded fates (hl e (mem_cons_self ..))
    obtain ⟨localStorage, entries, hrest⟩ :=
      hydrateEntry_rest (s := w.store) hydration fates revision e
    rw [foldl_cons]
    refine ih hw' ?_ fun e' he' x hx hkind => ?_
    · rw [hrest]
      exact hpreloaded
    · dsimp only
      rw [hrest]
      exact hl e' (mem_cons_of_mem _ he') x hx hkind

theorem Fresh.hydrate (hw : w.Fresh) {read : PreloadRead fun _ : Str => Str}
    (hread : read ∈ w.store.deferred.reads) (fates : Str → StorageFate) :
  Fresh { w with store := w.store.hydrate hydration fates read }
  := by
  rw [Store.hydrate]
  rcases hlisting : read.listing with _ | listing
  · exact hw
  dsimp only
  split_ifs with hpreloaded
  · exact hw
  have hnot : w.store.deferred.preloaded = false := Bool.eq_false_iff.mpr hpreloaded
  have hw' : Fresh { w with store.deferred.preloaded := true } :=
    .of_preloaded rfl hw.current hw.entries hw.revisions
  refine hw'.foldl_hydrateEntry fates rfl fun e he x hx hkind => ?_
  obtain hused | hfinds := hw.reads hnot read hread e.1 x hx hkind
  · exact Or.inl hused
  · right
    rw [← hfinds.listed listing hlisting]
    exact mem_lookup_iff.mpr he

theorem Fresh.finishPreload (hw : w.Fresh) (n : ℕ) (fates : Str → StorageFate) :
  Fresh { w with store := w.store.finishPreload hydration fates n }
  := by
  rw [Store.finishPreload]
  rcases hread : w.store.deferred.reads[n]? with _ | read
  · exact hw
  have hw' := hw.hydrate (mem_of_getElem? hread) fates
  dsimp only
  generalize w.store.hydrate hydration fates read = s at hw' ⊢
  refine ⟨hw'.current, hw'.entries, fun read' h => ?_, fun hnot read' h k x hx hkind => ?_⟩
  · exact hw'.revisions read' (mem_of_mem_eraseIdx h)
  dsimp only at h
  -- The uses of keys are forgotten only with the last listing.
  have hne : (s.deferred.reads.eraseIdx n).isEmpty = false := by
    rw [isEmpty_eq_false_iff]
    exact ne_nil_of_mem h
  obtain ⟨hkind', hused⟩ | hfinds := hw'.reads hnot read' (mem_of_mem_eraseIdx h) k x hx
    hkind
  · left
    refine ⟨hkind', ?_⟩
    rw [UsedSince]
    dsimp only
    rw [hne]
    exact hused
  · exact Or.inr ⟨hfinds.stored, hfinds.listed⟩

/-! ### Runs -/

theorem Fresh.step (hw : w.Fresh) {event : PageEvent} (hevent : w.Undisturbed event) :
  (w.step event).Fresh
  := by
  cases event with
  | set key value fate =>
    cases fate with
    | works =>
      exact hw.wrote hevent.1 hevent.2 (lookup_insert _)
        (fun _ hk => lookup_insert_ne hk) rfl
    | fails => exact hw
  | delete key fate =>
    cases fate with
    | works =>
      exact hw.wrote hevent.1 hevent.2 (lookup_erase _ _)
        (fun _ hk => lookup_erase_ne hk) rfl
    | fails => exact hw
  | get key hydrate read => exact hw.get hevent key hydrate read
  | completeWrite n fate =>
    apply hw.completeWrite
    intro hfate
    rw [hfate] at hevent
    exact hevent
  | beginPreload => exact hw.beginPreload hevent
  | listEntries n => exact hw.listEntries n
  | finishPreload n fates => exact hw.finishPreload n fates

instance (w : Page) : ∀ event, Decidable (w.Undisturbed event)
  | .set key _ .works =>
    inferInstanceAs (Decidable ((hydration key = .eager → w.Unlisted) ∧ w.CanUse))
  | .delete key .works =>
    inferInstanceAs (Decidable ((hydration key = .eager → w.Unlisted) ∧ w.CanUse))
  | .get _ _ _ | .completeWrite _ .works => inferInstanceAs (Decidable w.CanUse)
  | .beginPreload =>
    inferInstanceAs (Decidable (w.store.deferred.preloaded = true ∨
      ∀ e ∈ w.written.entries, hydration e.1 = .ignored ∨ w.Stored e.1 e.2))
  | .set _ _ .fails | .delete _ .fails | .completeWrite _ .fails | .listEntries _
  | .finishPreload _ _ => .isTrue trivial

end Page

/-- A page that finds an older value of a key in the database. -/
def olderCopy (key : Str) : Page :=
  { store.indexedDb := singleton key (str "old") }

/-- A listing is made and taken over, and the key is written meanwhile. -/
def writtenMeanwhile (key : Str) : List PageEvent :=
  [.beginPreload, .listEntries 0, .set key (str "new") .works, .completeWrite 0 .works,
    .finishPreload 0 fun _ => .works]

end RgbLightning.RuntimeStore
