import RgbLightning.Apay.Wire
import RgbLightning.Lib.Run

/-!
# Orders of an invoice host

A host keeps one order for every peer: the payment hashes that the peer has handed in, by
their index.  A batch either repeats hashes that the host already has, or continues the
order right after its last index; everything else is rejected.

The purpose of an order is a list of distinct hashes that only grows at its end.  `Stocked`
connects the map of the code with such a list, `merge_stocked` shows what a batch does to
it, and `orders_append_only` is what follows for every sequence of requests.
-/

namespace RgbLightning

open List AList

/-! ### Requests and answers -/

/-- The parameters of `async_order.new` that the host reads. -/
structure AsyncOrderNewParamsWire where
  protocolVersion : ℕ
  hashes : List AsyncOrderNewHashWire
deriving DecidableEq

structure AsyncOrderNewResultWire where
  protocolVersion : ℕ
  orderId : String
  status : String
  acceptedThroughIndex : ℕ
  nextIndexExpected : ℕ
  unusedHashes : ℕ
  refillBatchSize : ℕ
deriving DecidableEq, Repr

/-- The entries of a batch whose previous index is given.  The hashes are written anew, so
that equal hashes have equal texts. -/
def parseHashBatchFrom : Option ℕ → List AsyncOrderNewHashWire →
    Except JsonRpcErrorWire (List (ℕ × Str))
  | _, [] => .ok []
  | previousIndex, entry :: hashes =>
    match validateAndParsePaymentHash entry.paymentHash with
    | none => .error .invalidHashBatch
    | some paymentHash =>
      if previousIndex.any fun previous => entry.hashIndex ≠ saturatingAdd previous 1 then
        .error .invalidHashBatch
      else do
        let parsed ← parseHashBatchFrom (some entry.hashIndex) hashes
        .ok ((entry.hashIndex, hexStr paymentHash.toList) :: parsed)

/-- The entries of a batch, if their indices follow one another. -/
def parseHashBatch (hashes : List AsyncOrderNewHashWire) :
    Except JsonRpcErrorWire (List (ℕ × Str)) :=
  parseHashBatchFrom none hashes

def validateAsyncOrderNewParams (params : AsyncOrderNewParamsWire) :
    Except JsonRpcErrorWire Unit :=
  if params.protocolVersion ≠ protocolVersion then .error .unsupportedProtocolVersion
  else if params.hashes = [] then .error .invalidHashBatch
  else if params.hashes.length > asyncOrderMaxHashBatchSize then .error .invalidHashBatch
  else do
    let _ ← parseHashBatch params.hashes
    .ok ()

/-! ### Orders -/

/-- The order of a peer: its number, and the hashes by their index. -/
structure AsyncOrderRecord where
  orderId : ℕ
  hashes : Table ℕ Str
deriving DecidableEq

namespace AsyncOrderRecord

def new (orderId : ℕ) : AsyncOrderRecord := ⟨orderId, ∅⟩

variable (order : AsyncOrderRecord)

/-- The last key of the map, or zero. -/
def highestHashIndex : ℕ :=
  order.hashes.keys.foldr max 0

def nextHashIndex : ℕ :=
  saturatingAdd order.highestHashIndex 1

def availableHashes : ℕ :=
  order.hashes.size

/-- The loop of `merge_hashes` over the entries of a batch: whether it saw an entry that is
known and one that is not.  `seen` are the hashes of the entries before. -/
def scan (hashes : Table ℕ Str) :
    List (ℕ × Str) → List Str → Bool × Bool → Except JsonRpcErrorWire (Bool × Bool)
  | [], _, saw => .ok saw
  | (index, paymentHash) :: batch, seen, (sawExisting, sawMissing) =>
    if paymentHash ∈ seen then .error .duplicateHashConflict
    else if (hashes.lookup index).any fun existing => existing ≠ paymentHash then
      .error .duplicateIndexConflict
    else if hashes.keys.any fun i => i ≠ index && hashes.lookup i = some paymentHash then
      .error .duplicateHashConflict
    else
      scan hashes batch (paymentHash :: seen)
        (sawExisting || (hashes.lookup index).isSome, sawMissing || (hashes.lookup index).isNone)

def mergeHashes (batch : List (ℕ × Str)) :
    Except JsonRpcErrorWire AsyncOrderRecord :=
  if batch = [] then .error .invalidHashBatch
  else do
    let (sawExisting, sawMissing) ← scan order.hashes batch [] (false, false)
    let missingCount := (batch.filter fun e => (order.hashes.lookup e.1).isNone).length
    if saturatingAdd order.hashes.size missingCount > asyncOrderMaxHashBatchSize then
      .error .invalidHashBatch
    else if sawExisting && sawMissing then .error .invalidHashBatch
    else if sawExisting then .ok order
    else if batch.head?.map Prod.fst ≠ some order.nextHashIndex then .error .invalidHashBatch
    else .ok { order with hashes := batch.foldl (fun t e => t.insert e.1 e.2) order.hashes }

def snapshotResult : AsyncOrderNewResultWire where
  protocolVersion := protocolVersion
  orderId := toString order.orderId
  status := "active"
  acceptedThroughIndex := order.highestHashIndex
  nextIndexExpected := order.nextHashIndex
  unusedHashes := order.availableHashes
  refillBatchSize := asyncOrderMaxHashBatchSize

end AsyncOrderRecord

/-! ### The host -/

/-- The orders of a host.  The number of an order never overflows: every order is an entry
of the map. -/
structure AsyncOrderState where
  nextOrderId : ℕ := 1
  peers : Table PublicKey AsyncOrderRecord := ∅

namespace AsyncOrderState

variable (s : AsyncOrderState)

/-- The order of a peer, which is made if there is none, and the state with it. -/
def activeOrder (sender : PublicKey) :
    AsyncOrderRecord × AsyncOrderState :=
  match s.peers.lookup sender with
  | some order => (order, s)
  | none =>
    let order := AsyncOrderRecord.new s.nextOrderId
    (order, ⟨s.nextOrderId + 1, s.peers.insert sender order⟩)

/-- The answer to a request of a peer, and the state after it. -/
def recordAsyncOrderNew (sender : PublicKey) (params : AsyncOrderNewParamsWire) :
    Except JsonRpcErrorWire AsyncOrderNewResultWire × AsyncOrderState :=
  match validateAsyncOrderNewParams params with
  | .error e => (.error e, s)
  | .ok () =>
    match parseHashBatch params.hashes with
    | .error e => (.error e, s)
    | .ok parsedHashes =>
      let (order, s) := s.activeOrder sender
      match order.mergeHashes parsedHashes with
      | .error e => (.error e, s)
      | .ok order => (.ok order.snapshotResult, { s with peers := s.peers.insert sender order })

abbrev Request : Type := PublicKey × AsyncOrderNewParamsWire

def step (r : Request) : AsyncOrderState :=
  (s.recordAsyncOrderNew r.1 r.2).2

/-- The state after a sequence of requests to a host without orders. -/
def after (rs : List Request) : AsyncOrderState :=
  Run.run step {} rs

/-- The hash that a host has accepted from a peer under an index. -/
def accepted (peer : PublicKey) (i : ℕ) : Option Str :=
  (s.peers.lookup peer).bind fun order => order.hashes.lookup i

end AsyncOrderState

/-! ### A list that grows at its end -/

/-- The map holds the hashes of a list, numbered from one. -/
structure Numbered (t : Table ℕ Str) (l : List Str) : Prop where
  lookup_zero : t.lookup 0 = none
  lookup_succ : ∀ i, t.lookup (i + 1) = l[i]?

/-- No hash of the list is there twice, and there are no more than the cap allows. -/
structure Stocked (t : Table ℕ Str) (l : List Str) : Prop extends Numbered t l where
  nodup : l.Nodup
  length_le : l.length ≤ asyncOrderMaxHashBatchSize

theorem stocked_empty :
  Stocked ∅ []
  := ⟨⟨lookup_empty 0, fun i => by rw [lookup_empty]; rfl⟩, nodup_nil,
    Nat.zero_le _⟩

namespace Numbered

variable {t : Table ℕ Str} {l : List Str} (h : Numbered t l)
include h

theorem insert (x : Str) :
  Numbered (t.insert (l.length + 1) x) (l ++ [x])
  := by
  constructor
  · rw [Table.lookup_insert_eq, if_neg (by omega), h.lookup_zero]
  · intro i
    rw [Table.lookup_insert_eq, h.lookup_succ, List.getElem?_append]
    split_ifs with heq hlt hlt
    · omega
    · rw [Nat.add_right_cancel heq, Nat.sub_self]
      rfl
    · rfl
    · rw [List.getElem?_eq_none (by omega), List.getElem?_eq_none]
      rw [length_singleton]
      omega

/-- Entries that continue the numbers continue the list. -/
theorem insertAll {batch : List (ℕ × Str)}
    (hbatch : batch.map Prod.fst = range' (l.length + 1) batch.length) :
  Numbered (batch.foldl (fun t e => t.insert e.1 e.2) t) (l ++ batch.map Prod.snd)
  := by
  induction batch generalizing t l with
  | nil =>
    rw [map_nil, append_nil]
    apply h
  | cons e batch ih =>
    rw [map_cons, length_cons, range'_succ, cons.injEq] at hbatch
    obtain ⟨hindex, hrest⟩ := hbatch
    rw [foldl_cons, hindex, map_cons, append_cons]
    apply ih (h.insert e.2)
    rw [hrest, length_append, length_singleton]

omit h in
/-- The entries that continue a list are found under their indices. -/
theorem lookup_of_mem {batch : List (ℕ × Str)} (hl : Numbered t (l ++ batch.map Prod.snd))
    (hbatch : batch.map Prod.fst = range' (l.length + 1) batch.length) {e : ℕ × Str}
    (he : e ∈ batch) :
  t.lookup e.1 = some e.2
  := by
  obtain ⟨k, hk, rfl⟩ := getElem_of_mem he
  have hindex : batch[k].1 = (l.length + k) + 1 := by
    have hget := congrArg (fun is => is[k]?) hbatch
    simp only [List.getElem?_map, List.getElem?_eq_getElem hk, List.getElem?_range' hk,
      Option.map_some, Option.some.injEq] at hget
    omega
  rw [hindex, hl.lookup_succ, List.getElem?_append_right (by omega), Nat.add_sub_cancel_left,
    List.getElem?_map, List.getElem?_eq_getElem hk]
  rfl

theorem lookup_of_append {t' : Table ℕ Str} {more : List Str} (h' : Numbered t' (l ++ more))
    {i : ℕ} {x : Str} (hi : t.lookup i = some x) :
  t'.lookup i = some x
  := by
  cases i with
  | zero =>
    rw [h.lookup_zero] at hi
    cases hi
  | succ i =>
    rw [h.lookup_succ] at hi
    obtain ⟨hlt, -⟩ := List.getElem?_eq_some_iff.mp hi
    rw [h'.lookup_succ, List.getElem?_append_left hlt, hi]

end Numbered

namespace Stocked

variable {t : Table ℕ Str} {l : List Str} (h : Stocked t l)
include h

theorem mem_keys (i : ℕ) :
  i ∈ t.keys ↔ 1 ≤ i ∧ i ≤ l.length
  := by
  rw [← AList.mem_keys, ← AList.lookup_isSome]
  cases i with
  | zero => simp [h.lookup_zero]
  | succ i =>
    rw [h.lookup_succ]
    simp only [isSome_getElem?]
    simp

theorem size_eq :
  t.size = l.length
  := by
  have hkeys : t.keys.toFinset = Finset.Icc 1 l.length := by
    ext i
    rw [mem_toFinset, h.mem_keys, Finset.mem_Icc]
  rw [Table.size, ← toFinset_card_of_nodup t.keys_nodup, hkeys, Nat.card_Icc]
  omega

theorem foldr_max_keys :
  t.keys.foldr max 0 = l.length
  := by
  apply le_antisymm
  · apply max_le_of_forall_le
    intro i hi
    exact ((h.mem_keys i).mp hi).2
  · rcases Nat.eq_zero_or_pos l.length with hzero | hpos
    · rw [hzero]
      apply Nat.zero_le
    · apply le_max_of_le ((h.mem_keys l.length).mpr ⟨hpos, le_rfl⟩) le_rfl

theorem lookup_injective {i j : ℕ} {x : Str} (hi : t.lookup i = some x)
    (hj : t.lookup j = some x) :
  i = j
  := by
  match i, j with
  | 0, _ => simp [h.lookup_zero] at hi
  | _, 0 => simp [h.lookup_zero] at hj
  | i + 1, j + 1 =>
    rw [h.lookup_succ] at hi hj
    obtain ⟨hlt, hget⟩ := List.getElem?_eq_some_iff.mp hi
    rw [← hj, List.getElem?_inj hlt h.nodup] at hi
    rw [hi]

end Stocked

/-! ### Batches -/

variable {hashes : List AsyncOrderNewHashWire} {batch : List (ℕ × Str)}

theorem parseHashBatchFrom_cons {previous : Option ℕ} {entry : AsyncOrderNewHashWire}
    (h : parseHashBatchFrom previous (entry :: hashes) = .ok batch) :
  ∃ x parsed, parseHashBatchFrom (some entry.hashIndex) hashes = .ok parsed
    ∧ (∀ p, previous = some p → entry.hashIndex = saturatingAdd p 1)
    ∧ batch = (entry.hashIndex, x) :: parsed
  := by
  rw [parseHashBatchFrom] at h
  split at h
  next => cases h
  next x hx =>
    split at h
    next => cases h
    next hnext =>
      obtain ⟨parsed, hparsed, h⟩ := bind_eq_ok.mp h
      refine ⟨hexStr x.toList, parsed, hparsed, ?_, (Except.ok.inj h).symm⟩
      rintro p rfl
      simpa using hnext

/-- The indices after a given one follow it, one by one. -/
theorem map_fst_parseHashBatchFrom {previous : ℕ}
    (h : parseHashBatchFrom (some previous) hashes = .ok batch)
    (hmax : previous + batch.length ≤ u64Max) :
  batch.map Prod.fst = range' (previous + 1) batch.length
  := by
  induction hashes generalizing previous batch with
  | nil =>
    obtain rfl := Except.ok.inj h
    rfl
  | cons entry hashes ih =>
    obtain ⟨x, parsed, hparsed, hnext, rfl⟩ := parseHashBatchFrom_cons h
    rw [length_cons] at hmax
    have hindex : entry.hashIndex = previous + 1 := by
      rw [hnext previous rfl, saturatingAdd]
      omega
    rw [hindex] at hparsed ⊢
    rw [map_cons, ih hparsed (by omega), length_cons, range'_succ]

/-- The indices of a batch that starts at a given one, and stays within 64 bits. -/
theorem map_fst_parseHashBatch {start : ℕ} (h : parseHashBatch hashes = .ok batch)
    (hstart : batch.head?.map Prod.fst = some start)
    (hmax : start + batch.length ≤ u64Max + 1) :
  batch.map Prod.fst = range' start batch.length
  := by
  cases hashes with
  | nil =>
    obtain rfl := Except.ok.inj h
    rfl
  | cons entry hashes =>
    obtain ⟨x, parsed, hparsed, -, rfl⟩ := parseHashBatchFrom_cons h
    simp only [head?_cons, Option.map_some, Option.some.injEq] at hstart
    rw [hstart] at hparsed ⊢
    rw [length_cons] at hmax
    rw [map_cons, map_fst_parseHashBatchFrom hparsed (by omega), length_cons,
      range'_succ]

theorem map_fst_eq_map_hashIndex {previous : Option ℕ}
    (h : parseHashBatchFrom previous hashes = .ok batch) :
  batch.map Prod.fst = hashes.map (·.hashIndex)
  := by
  induction hashes generalizing previous batch with
  | nil =>
    obtain rfl := Except.ok.inj h
    rfl
  | cons entry hashes ih =>
    obtain ⟨x, parsed, hparsed, -, rfl⟩ := parseHashBatchFrom_cons h
    rw [map_cons, map_cons, ih hparsed]

/-- The indices of an accepted batch follow one another exactly as long as they stay within
64 bits: after the largest index the parser expects that index again. -/
theorem indices_consecutive_iff (h : parseHashBatch hashes = .ok batch) :
  ((∃ start, batch.map Prod.fst = range' start batch.length)
    ∧ (batch.map Prod.fst).Nodup)
    ↔ ∀ entry ∈ hashes.head?, entry.hashIndex + hashes.length ≤ u64Max + 1
  := by
  have hmap := map_fst_eq_map_hashIndex h
  have hlength : batch.length = hashes.length := by simpa using congrArg length hmap
  constructor
  · rintro ⟨⟨start, hrange⟩, -⟩ entry hentry
    obtain ⟨rest, rfl⟩ := head?_eq_some_iff.mp hentry
    rw [hmap, hlength, length_cons] at hrange
    -- the last number of the range is an index as well
    have hlast : start + rest.length ∈ (entry :: rest).map (·.hashIndex) := by
      rw [hrange]
      exact mem_range'_1.mpr ⟨by omega, by omega⟩
    obtain ⟨last, -, hlast⟩ := mem_map.mp hlast
    have hle := last.hashIndex_le
    rw [map_cons, range'_succ] at hrange
    rw [(cons.inj hrange).1, length_cons]
    omega
  · intro hmax
    have hrange : ∃ start, batch.map Prod.fst = range' start batch.length := by
      cases hashes with
      | nil =>
        obtain rfl := Except.ok.inj h
        exact ⟨0, rfl⟩
      | cons entry hashes =>
        refine ⟨entry.hashIndex, map_fst_parseHashBatch h ?_ (hlength ▸ hmax entry rfl)⟩
        rw [← head?_map, hmap]
        rfl
    obtain ⟨start, hstart⟩ := hrange
    exact ⟨⟨start, hstart⟩, hstart ▸ nodup_range'⟩

theorem indices_consecutive_pair :
  ∃ hashes batch, hashes.map (·.hashIndex) = [7, 8] ∧ parseHashBatch hashes = .ok batch
    ∧ (batch.map Prod.fst).Nodup
  := by
  let hashes : List AsyncOrderNewHashWire :=
    [⟨7, replicate 64 48, by decide⟩, ⟨8, replicate 64 48, by decide⟩]
  obtain ⟨batch, h⟩ : ∃ batch, parseHashBatch hashes = .ok batch := ⟨_, rfl⟩
  exact ⟨hashes, batch, rfl, h, ((indices_consecutive_iff h).mpr (by decide)).2⟩

/-- The largest index may be repeated. -/
theorem largest_index_repeated :
  ∃ hashes batch, hashes.map (·.hashIndex) = [u64Max, u64Max]
    ∧ parseHashBatch hashes = .ok batch ∧ ¬ (batch.map Prod.fst).Nodup
  := by
  let entry : AsyncOrderNewHashWire := ⟨u64Max, replicate 64 48, le_rfl⟩
  exact ⟨[entry, entry], _, rfl, rfl, by decide⟩

/-! ### Taking in a batch -/

/-- No entry contradicts the map: its index is free or has its hash, and no other index has
its hash. -/
def Compatible (t : Table ℕ Str) (e : ℕ × Str) : Prop :=
  (∀ x, t.lookup e.1 = some x → x = e.2) ∧ ∀ i, i ≠ e.1 → t.lookup i ≠ some e.2

namespace AsyncOrderRecord

variable {batch : List (ℕ × Str)}

/-- The loop over a batch ends when its entries are compatible with the map and its hashes
are new and distinct, and tells which entries it saw. -/
theorem scan_eq_ok {t : Table ℕ Str} {seen : List Str} {saw saw' : Bool × Bool} :
  scan t batch seen saw = .ok saw'
    ↔ (∀ e ∈ batch, Compatible t e) ∧ (batch.map Prod.snd).Nodup
      ∧ (∀ x ∈ batch.map Prod.snd, x ∉ seen)
      ∧ saw' = (saw.1 || batch.any fun e => (t.lookup e.1).isSome,
        saw.2 || batch.any fun e => (t.lookup e.1).isNone)
  := by
  induction batch generalizing seen saw with
  | nil => simp [scan, eq_comm]
  | cons e batch ih =>
    obtain ⟨index, x⟩ := e
    obtain ⟨sawExisting, sawMissing⟩ := saw
    have hother : (t.keys.any fun i => i ≠ index && t.lookup i = some x) = true
        ↔ ∃ i, i ≠ index ∧ t.lookup i = some x := by
      simp only [any_eq_true, Bool.and_eq_true, decide_eq_true_eq]
      constructor
      · rintro ⟨i, -, h⟩
        exact ⟨i, h⟩
      · rintro ⟨i, hne, hi⟩
        refine ⟨i, ?_, hne, hi⟩
        rw [← AList.mem_keys, ← AList.lookup_isSome, hi]
        rfl
    have hindex : ((t.lookup index).any fun existing => existing ≠ x) = true
        ↔ ¬ ∀ y, t.lookup index = some y → y = x := by
      cases t.lookup index with
      | none => simp
      | some y => simp
    rw [scan]
    simp only [forall_mem_cons, map_cons, nodup_cons, any_cons]
    split_ifs with hseen hconflict hdup
    · simp [hseen]
    · have hnot : ¬ Compatible t (index, x) := fun h => hindex.mp hconflict h.1
      simp [hnot]
    · obtain ⟨i, hne, hi⟩ := hother.mp hdup
      have hnot : ¬ Compatible t (index, x) := fun h => h.2 i hne hi
      simp [hnot]
    have hcompatible : Compatible t (index, x) :=
      ⟨not_not.mp (mt hindex.mpr hconflict), fun i hne hi => hdup (hother.mpr ⟨i, hne, hi⟩)⟩
    rw [ih]
    simp only [mem_cons, not_or, Bool.or_assoc]
    constructor
    · rintro ⟨hall, hnodup, hnew, hsaw⟩
      refine ⟨⟨hcompatible, hall⟩, ⟨fun hx => (hnew x hx).1 rfl, hnodup⟩,
        ⟨hseen, fun y hy => (hnew y hy).2⟩, hsaw⟩
    · rintro ⟨⟨-, hall⟩, ⟨hx, hnodup⟩, ⟨-, hnew⟩, hsaw⟩
      refine ⟨hall, hnodup, fun y hy => ⟨?_, hnew y hy⟩, hsaw⟩
      rintro rfl
      exact hx hy

/-- What it takes for a batch to be taken in, and what it does then: nothing if all its
entries are known, and otherwise it adds them all. -/
theorem mergeHashes_eq_ok {order order' : AsyncOrderRecord}
    (h : order.mergeHashes batch = .ok order') :
  batch ≠ [] ∧ (∀ e ∈ batch, Compatible order.hashes e) ∧ (batch.map Prod.snd).Nodup
    ∧ (((∀ e ∈ batch, (order.hashes.lookup e.1).isSome) ∧ order' = order)
      ∨ ((∀ e ∈ batch, order.hashes.lookup e.1 = none)
        ∧ saturatingAdd order.hashes.size batch.length ≤ asyncOrderMaxHashBatchSize
        ∧ batch.head?.map Prod.fst = some order.nextHashIndex
        ∧ order' = { order with
            hashes := batch.foldl (fun t e => t.insert e.1 e.2) order.hashes }))
  := by
  unfold mergeHashes at h
  split at h
  next => cases h
  next hne =>
    obtain ⟨⟨sawExisting, sawMissing⟩, hscan, h⟩ := bind_eq_ok.mp h
    obtain ⟨hcompatible, hnodup, -, hsaw⟩ := scan_eq_ok.mp hscan
    simp only [Bool.false_or, Prod.mk.injEq] at hsaw
    obtain ⟨rfl, rfl⟩ := hsaw
    refine ⟨hne, hcompatible, hnodup, ?_⟩
    dsimp only at h
    split_ifs at h with hcap hmixed hexisting hstart
    · left
      have hnone : (batch.any fun e => (order.hashes.lookup e.1).isNone) = false := by
        simpa [hexisting] using hmixed
      refine ⟨?_, (Except.ok.inj h).symm⟩
      intro e he
      rw [Option.isSome_iff_ne_none]
      simpa using any_eq_false.mp hnone e he
    right
    have hmissing : ∀ e ∈ batch, order.hashes.lookup e.1 = none := by
      intro e he
      simpa using any_eq_false.mp (Bool.eq_false_of_not_eq_true hexisting) e he
    have hcount : (batch.filter fun e => (order.hashes.lookup e.1).isNone) = batch := by
      rw [filter_eq_self]
      intro e he
      rw [hmissing e he]
      rfl
    rw [hcount] at hcap
    exact ⟨hmissing, not_lt.mp hcap, not_not.mp hstart, (Except.ok.inj h).symm⟩

theorem mergeHashes_of_known {order : AsyncOrderRecord} {l : List Str}
    (hl : Stocked order.hashes l) (hne : batch ≠ [])
    (hknown : ∀ e ∈ batch, order.hashes.lookup e.1 = some e.2)
    (hnodup : (batch.map Prod.snd).Nodup) :
  order.mergeHashes batch = .ok order
  := by
  have hcompatible : ∀ e ∈ batch, Compatible order.hashes e := by
    intro e he
    constructor
    · intro x hx
      rw [hknown e he] at hx
      exact (Option.some.inj hx).symm
    · intro i hne hi
      exact hne (hl.lookup_injective hi (hknown e he))
  have hmissing : (batch.any fun e => (order.hashes.lookup e.1).isNone) = false := by
    rw [any_eq_false]
    intro e he
    rw [hknown e he]
    simp
  have hexisting : (batch.any fun e => (order.hashes.lookup e.1).isSome) = true := by
    obtain ⟨e, he⟩ := exists_mem_of_ne_nil batch hne
    rw [any_eq_true]
    exact ⟨e, he, by rw [hknown e he]; rfl⟩
  have hscan : scan order.hashes batch [] (false, false) = .ok (true, false) := by
    rw [scan_eq_ok]
    exact ⟨hcompatible, hnodup, fun _ _ => not_mem_nil, by rw [hexisting, hmissing]; rfl⟩
  have hcount : (batch.filter fun e => (order.hashes.lookup e.1).isNone) = [] := by
    rw [filter_eq_nil_iff]
    simpa using hmissing
  have hcap : ¬ saturatingAdd order.hashes.size 0 > asyncOrderMaxHashBatchSize := by
    have := hl.length_le
    rw [hl.size_eq, saturatingAdd]
    omega
  rw [mergeHashes, if_neg hne, hscan]
  simp only [bind, Except.bind, hcount, length_nil, if_neg hcap, Bool.and_false,
    Bool.false_eq_true, if_false, if_true]

/-- A batch that continues the list with new and distinct hashes is added, as far as there is
room for it. -/
theorem mergeHashes_of_new {order : AsyncOrderRecord} {l : List Str}
    (hl : Stocked order.hashes l) (hne : batch ≠ [])
    (hrange : batch.map Prod.fst = range' (l.length + 1) batch.length)
    (hstart : order.nextHashIndex = l.length + 1)
    (hroom : l.length + batch.length ≤ asyncOrderMaxHashBatchSize)
    (hnodup : (batch.map Prod.snd).Nodup) (hnew : ∀ e ∈ batch, e.2 ∉ l) :
  order.mergeHashes batch
    = .ok { order with hashes := batch.foldl (fun t e => t.insert e.1 e.2) order.hashes }
  := by
  have hmissing : ∀ e ∈ batch, order.hashes.lookup e.1 = none := by
    intro e he
    have hindex := mem_map_of_mem (f := Prod.fst) he
    rw [hrange, List.mem_range'_1] at hindex
    rw [AList.lookup_eq_none, AList.mem_keys, hl.mem_keys]
    omega
  have hcompatible : ∀ e ∈ batch, Compatible order.hashes e := by
    intro e he
    constructor
    · simp [hmissing e he]
    · rintro (_ | i) - hi
      · simp [hl.lookup_zero] at hi
      · rw [hl.lookup_succ] at hi
        apply hnew e he (mem_of_getElem? hi)
  have hnone : (batch.any fun e => (order.hashes.lookup e.1).isNone) = true := by
    obtain ⟨e, he⟩ := exists_mem_of_ne_nil batch hne
    rw [any_eq_true]
    exact ⟨e, he, by rw [hmissing e he]; rfl⟩
  have hsome : (batch.any fun e => (order.hashes.lookup e.1).isSome) = false := by
    rw [any_eq_false]
    intro e he
    simp [hmissing e he]
  have hscan : scan order.hashes batch [] (false, false) = .ok (false, true) := by
    rw [scan_eq_ok]
    exact ⟨hcompatible, hnodup, fun _ _ => not_mem_nil, by rw [hnone, hsome]; rfl⟩
  have hcount : (batch.filter fun e => (order.hashes.lookup e.1).isNone) = batch := by
    rw [filter_eq_self]
    intro e he
    simp [hmissing e he]
  have hcap : ¬ saturatingAdd order.hashes.size batch.length > asyncOrderMaxHashBatchSize := by
    rw [hl.size_eq, saturatingAdd]
    omega
  have hhead : batch.head?.map Prod.fst = some order.nextHashIndex := by
    rw [hstart, ← head?_map, hrange, head?_range', if_neg (by simpa using hne)]
  rw [mergeHashes, if_neg hne, hscan]
  simp only [bind, Except.bind, hcount, if_neg hcap, Bool.false_and, Bool.false_eq_true,
    if_false, hhead, ne_eq, not_true_eq_false]

end AsyncOrderRecord

theorem nextHashIndex_eq {order : AsyncOrderRecord} {l : List Str}
    (hl : Stocked order.hashes l) :
  order.nextHashIndex = l.length + 1
  := by
  have hcap : l.length ≤ 200 := hl.length_le
  have hmax : 201 ≤ u64Max := by decide
  rw [AsyncOrderRecord.nextHashIndex, AsyncOrderRecord.highestHashIndex, hl.foldr_max_keys,
    saturatingAdd]
  omega

/-- A batch that is taken in continues the list of an order, if at all, and its hashes are
there afterwards. -/
theorem merge_stocked {order order' : AsyncOrderRecord} {l : List Str}
    (hl : Stocked order.hashes l) (hparse : parseHashBatch hashes = .ok batch)
    (h : order.mergeHashes batch = .ok order') :
  order'.orderId = order.orderId ∧ (∃ more, Stocked order'.hashes (l ++ more))
    ∧ ∀ e ∈ batch, order'.hashes.lookup e.1 = some e.2
  := by
  obtain ⟨hne, hcompatible, hnodup, ⟨hknown, rfl⟩ | ⟨hmissing, hcap, hstart, rfl⟩⟩ :=
    AsyncOrderRecord.mergeHashes_eq_ok h
  · refine ⟨rfl, ⟨[], by rwa [append_nil]⟩, ?_⟩
    intro e he
    obtain ⟨x, hx⟩ := Option.isSome_iff_exists.mp (hknown e he)
    rw [hx, (hcompatible e he).1 x hx]
  have hlength : l.length + batch.length ≤ 200 := by
    have hmax : 200 < u64Max := by decide
    rw [hl.size_eq, saturatingAdd, asyncOrderMaxHashBatchSize] at hcap
    omega
  rw [nextHashIndex_eq hl] at hstart
  have hrange := map_fst_parseHashBatch hparse hstart (by
    have hmax : 201 ≤ u64Max := by decide
    omega)
  have hnumbered := hl.toNumbered.insertAll hrange
  refine ⟨rfl, ⟨batch.map Prod.snd, hnumbered, ?_, ?_⟩, ?_⟩
  · rw [nodup_append]
    refine ⟨hl.nodup, hnodup, ?_⟩
    rintro x hx y hy rfl
    obtain ⟨e, he, rfl⟩ := mem_map.mp hy
    obtain ⟨i, hi⟩ := mem_iff_getElem?.mp hx
    rw [← hl.lookup_succ] at hi
    -- The index of the new entry is free, so the old one is another.
    refine (hcompatible e he).2 (i + 1) ?_ hi
    rintro heq
    rw [heq, hmissing e he] at hi
    cases hi
  · rw [length_append, length_map]
    apply hlength
  · intro e he
    apply hnumbered.lookup_of_mem hrange he

/-! ### Sequences of requests -/

namespace AsyncOrderState

/-- Every order holds a list of distinct hashes, numbered from one. -/
def Sound (s : AsyncOrderState) : Prop :=
  ∀ peer order, s.peers.lookup peer = some order → ∃ l, Stocked order.hashes l

/-- Every order keeps its number and its hashes. -/
def Grows (s s' : AsyncOrderState) : Prop :=
  ∀ peer order, s.peers.lookup peer = some order →
    ∃ order', s'.peers.lookup peer = some order' ∧ order'.orderId = order.orderId
      ∧ ∀ i x, order.hashes.lookup i = some x → order'.hashes.lookup i = some x

variable (s : AsyncOrderState)

theorem grows_refl :
  s.Grows s
  := fun _ order h => ⟨order, h, rfl, fun _ _ hi => hi⟩

theorem grows_trans (s s' s'' : AsyncOrderState) (h : s.Grows s') (h' : s'.Grows s'') :
  s.Grows s''
  := by
  intro peer order horder
  obtain ⟨order', horder', hid', hkeep'⟩ := h peer order horder
  obtain ⟨order'', horder'', hid'', hkeep''⟩ := h' peer order' horder'
  exact ⟨order'', horder'', hid''.trans hid', fun i x hi => hkeep'' i x (hkeep' i x hi)⟩

/-- What a request can do: it fails before or after the order is looked up, or its batch is
taken in. -/
theorem recordAsyncOrderNew_cases (sender : PublicKey) (params : AsyncOrderNewParamsWire) :
  (∃ e, s.recordAsyncOrderNew sender params = (.error e, s))
    ∨ (∃ e, s.recordAsyncOrderNew sender params = (.error e, (s.activeOrder sender).2))
    ∨ ∃ batch order, validateAsyncOrderNewParams params = .ok ()
      ∧ parseHashBatch params.hashes = .ok batch
      ∧ (s.activeOrder sender).1.mergeHashes batch = .ok order
      ∧ s.recordAsyncOrderNew sender params = (.ok order.snapshotResult,
        { (s.activeOrder sender).2 with
          peers := (s.activeOrder sender).2.peers.insert sender order })
  := by
  unfold recordAsyncOrderNew
  split
  next e _ => exact .inl ⟨e, rfl⟩
  next hvalid =>
    split
    next e _ => exact .inl ⟨e, rfl⟩
    next batch hparse =>
      rcases hmerge : (s.activeOrder sender).1.mergeHashes batch with e | order
      · exact .inr (.inl ⟨e, by simp only [hmerge]⟩)
      · exact .inr (.inr ⟨batch, order, hvalid, hparse, hmerge, by simp only [hmerge]⟩)

theorem lookup_activeOrder (sender peer : PublicKey) :
  (s.activeOrder sender).2.peers.lookup peer
    = if peer = sender then some (s.activeOrder sender).1 else s.peers.lookup peer
  := by
  unfold activeOrder
  split
  next order horder =>
    split
    next h => rw [h, horder]
    next => rfl
  next => apply Table.lookup_insert_eq

theorem activeOrder_cases (sender : PublicKey) :
  s.peers.lookup sender = some (s.activeOrder sender).1
    ∨ s.peers.lookup sender = none ∧ (s.activeOrder sender).1.hashes = ∅
  := by
  unfold activeOrder
  split
  next order horder => exact .inl horder
  next hnone => exact .inr ⟨hnone, rfl⟩

variable {s : AsyncOrderState}

theorem Sound.activeOrder (h : s.Sound) (sender : PublicKey) :
  ∃ l, Stocked (s.activeOrder sender).1.hashes l
  := by
  rcases s.activeOrder_cases sender with hsome | ⟨-, hempty⟩
  · apply h _ _ hsome
  · rw [hempty]
    exact ⟨[], stocked_empty⟩

theorem accepted_activeOrder (s : AsyncOrderState) (sender peer : PublicKey) (i : ℕ) :
  (s.activeOrder sender).2.accepted peer i = s.accepted peer i
  := by
  rw [accepted, accepted, lookup_activeOrder]
  split
  next h =>
    rw [h]
    rcases s.activeOrder_cases sender with hsome | ⟨hnone, hempty⟩
    · rw [hsome]
    · rw [hnone, Option.bind_some, hempty, lookup_empty]
      rfl
  next => rfl

theorem grows_activeOrder (s : AsyncOrderState) (sender : PublicKey) :
  s.Grows (s.activeOrder sender).2
  := by
  intro peer order horder
  refine ⟨order, ?_, rfl, fun _ _ hi => hi⟩
  rw [lookup_activeOrder]
  split
  next h =>
    rcases s.activeOrder_cases sender with hsome | ⟨hnone, -⟩
    · rw [← hsome, ← h, horder]
    · rw [← h, horder] at hnone
      cases hnone
  next => apply horder

theorem Sound.of_activeOrder (h : s.Sound) (sender : PublicKey) :
  (s.activeOrder sender).2.Sound
  := by
  intro peer order horder
  rw [lookup_activeOrder] at horder
  split at horder
  next =>
    obtain rfl := Option.some.inj horder
    apply h.activeOrder
  next => apply h _ _ horder

theorem Sound.step (h : s.Sound) (r : Request) :
  (s.step r).Sound ∧ s.Grows (s.step r)
  := by
  obtain ⟨sender, params⟩ := r
  rcases s.recordAsyncOrderNew_cases sender params with ⟨e, he⟩ | ⟨e, he⟩ |
    ⟨batch, order, -, hparse, hmerge, hok⟩
  · rw [AsyncOrderState.step, he]
    exact ⟨h, s.grows_refl⟩
  · rw [AsyncOrderState.step, he]
    exact ⟨h.of_activeOrder sender, s.grows_activeOrder sender⟩
  rw [AsyncOrderState.step, hok]
  obtain ⟨l, hl⟩ := h.activeOrder sender
  obtain ⟨hid, ⟨more, hmore⟩, -⟩ := merge_stocked hl hparse hmerge
  constructor
  · intro peer order' horder'
    rw [Table.lookup_insert_eq] at horder'
    split at horder'
    next =>
      obtain rfl := Option.some.inj horder'
      exact ⟨l ++ more, hmore⟩
    next => apply h.of_activeOrder sender _ _ horder'
  · apply grows_trans _ _ _ (s.grows_activeOrder sender)
    intro peer order' horder'
    rw [Table.lookup_insert_eq]
    split
    next heq =>
      rw [heq, lookup_activeOrder, if_pos rfl] at horder'
      obtain rfl := Option.some.inj horder'
      exact ⟨order, rfl, hid,
        fun i x hi => hl.toNumbered.lookup_of_append hmore.toNumbered hi⟩
    next => exact ⟨order', horder', rfl, fun _ _ hi => hi⟩

theorem sound_after (rs : List Request) :
  (after rs).Sound
  := by
  apply Run.run_invariant (I := Sound) (G := fun _ _ => True) (fun s r hs _ => (hs.step r).1)
  · intro peer order horder
    rw [lookup_empty] at horder
    cases horder
  · apply Run.meets_of_forall
    intros
    trivial

theorem after_append (rs more : List Request) :
  after (rs ++ more) = Run.run step (after rs) more
  := Run.run_append step {} rs more

theorem grows_after (rs more : List Request) :
  (after rs).Grows (after (rs ++ more))
  := by
  rw [after_append]
  apply Run.run_related (I := Sound) (G := fun _ _ => True) grows_refl grows_trans
    (fun s r hs _ => (hs.step r).1) (fun s r hs _ => (hs.step r).2) (sound_after rs)
  apply Run.meets_of_forall
  intros
  trivial

theorem recordAsyncOrderNew_eq_ok (hs : s.Sound) {sender : PublicKey}
    {params : AsyncOrderNewParamsWire} {result : AsyncOrderNewResultWire}
    (h : (s.recordAsyncOrderNew sender params).1 = .ok result) :
  ∃ batch order, validateAsyncOrderNewParams params = .ok ()
    ∧ parseHashBatch params.hashes = .ok batch ∧ batch ≠ [] ∧ (batch.map Prod.snd).Nodup
    ∧ (s.step (sender, params)).peers.lookup sender = some order
    ∧ result = order.snapshotResult ∧ ∀ e ∈ batch, order.hashes.lookup e.1 = some e.2
  := by
  rcases s.recordAsyncOrderNew_cases sender params with ⟨e, he⟩ | ⟨e, he⟩ |
    ⟨batch, order, hvalid, hparse, hmerge, hok⟩
  · rw [he] at h
    cases h
  · rw [he] at h
    cases h
  rw [hok] at h
  obtain ⟨l, hl⟩ := hs.activeOrder sender
  obtain ⟨-, -, hthere⟩ := merge_stocked hl hparse hmerge
  obtain ⟨hne, -, hnodup, -⟩ := AsyncOrderRecord.mergeHashes_eq_ok hmerge
  refine ⟨batch, order, hvalid, hparse, hne, hnodup, ?_, (Except.ok.inj h).symm, hthere⟩
  rw [AsyncOrderState.step, hok, Table.lookup_insert_eq, if_pos rfl]

/-- A request whose hashes are all accepted is answered with the state of the order, and
changes nothing. -/
theorem recordAsyncOrderNew_of_known {sender : PublicKey} {params : AsyncOrderNewParamsWire}
    {batch : List (ℕ × Str)} {order : AsyncOrderRecord} {l : List Str}
    (hvalid : validateAsyncOrderNewParams params = .ok ())
    (hparse : parseHashBatch params.hashes = .ok batch) (hne : batch ≠ [])
    (hnodup : (batch.map Prod.snd).Nodup) (horder : s.peers.lookup sender = some order)
    (hl : Stocked order.hashes l) (hknown : ∀ e ∈ batch, order.hashes.lookup e.1 = some e.2) :
  s.recordAsyncOrderNew sender params
    = (.ok order.snapshotResult, { s with peers := s.peers.insert sender order })
  := by
  have hmerge := AsyncOrderRecord.mergeHashes_of_known hl hne hknown hnodup
  have hactive : s.activeOrder sender = (order, s) := by
    rw [activeOrder, horder]
  simp only [recordAsyncOrderNew, hvalid, hparse, hactive, hmerge]

/-- After every sequence of requests of any peers, the hashes of every order are numbered
from one without a gap, within the cap, and no hash has two indices.  A hash that was
accepted keeps its index for ever.  A request that is rejected changes none of the accepted
hashes of any peer.  A request that was accepted once is accepted whenever it is repeated:
it is answered with the number of the same order and with the number `n` of its hashes by
then, and it changes nothing. -/
theorem orders_append_only (rs : List Request) :
  (∀ peer order, (after rs).peers.lookup peer = some order →
    ∃ n ≤ asyncOrderMaxHashBatchSize, (∀ i, i ∈ order.hashes.keys ↔ 1 ≤ i ∧ i ≤ n)
      ∧ ∀ i j x, order.hashes.lookup i = some x → order.hashes.lookup j = some x → i = j)
    ∧ (∀ more peer i x, (after rs).accepted peer i = some x →
      (after (rs ++ more)).accepted peer i = some x)
    ∧ (∀ sender params e, ((after rs).recordAsyncOrderNew sender params).1 = .error e →
      ∀ peer i, ((after rs).recordAsyncOrderNew sender params).2.accepted peer i
        = (after rs).accepted peer i)
    ∧ ∀ sender params result, ((after rs).recordAsyncOrderNew sender params).1 = .ok result →
      ∀ more, let s := after (rs ++ (sender, params) :: more)
      ∃ order n, s.peers.lookup sender = some order
        ∧ (∀ i, i ∈ order.hashes.keys ↔ 1 ≤ i ∧ i ≤ n)
        ∧ (s.recordAsyncOrderNew sender params).1 = .ok
          { result with acceptedThroughIndex := n, nextIndexExpected := n + 1, unusedHashes := n }
        ∧ (s.recordAsyncOrderNew sender params).2.nextOrderId = s.nextOrderId
        ∧ ∀ peer, (s.recordAsyncOrderNew sender params).2.peers.lookup peer
          = s.peers.lookup peer
  := by
  refine ⟨?_, ?_, ?_, ?_⟩
  · intro peer order horder
    obtain ⟨l, hl⟩ := sound_after rs peer order horder
    exact ⟨l.length, hl.length_le, hl.mem_keys, fun i j x hi hj => hl.lookup_injective hi hj⟩
  · intro more peer i x hx
    obtain ⟨order, horder, hi⟩ := Option.bind_eq_some_iff.mp hx
    obtain ⟨order', horder', -, hkeep⟩ := grows_after rs more peer order horder
    rw [accepted, horder', Option.bind_some, hkeep i x hi]
  · intro sender params e he peer i
    rcases (after rs).recordAsyncOrderNew_cases sender params with ⟨e', h⟩ | ⟨e', h⟩ |
      ⟨batch, order, -, -, -, h⟩
    · rw [h]
    · rw [h, accepted_activeOrder]
    · rw [h] at he
      cases he
  intro sender params result hok more s
  obtain ⟨batch, order, hvalid, hparse, hne, hnodup, horder, rfl, hthere⟩ :=
    recordAsyncOrderNew_eq_ok (sound_after rs) hok
  -- The order as it is when the request is repeated.
  have hfirst : after (rs ++ [(sender, params)]) = (after rs).step (sender, params) := by
    rw [after_append]
    rfl
  rw [← hfirst] at horder
  obtain ⟨order', horder', hid, hkeep⟩ := grows_after _ more sender order horder
  have hs : after (rs ++ [(sender, params)] ++ more) = s := by
    rw [append_assoc]
    rfl
  rw [hs] at horder'
  obtain ⟨l, hl⟩ := sound_after _ sender order' horder'
  have hagain := recordAsyncOrderNew_of_known hvalid hparse hne hnodup horder' hl
    (fun e he => hkeep _ _ (hthere e he))
  refine ⟨order', l.length, horder', hl.mem_keys, ?_, ?_, ?_⟩
  · rw [hagain]
    simp only [AsyncOrderRecord.snapshotResult, nextHashIndex_eq hl, hid,
      AsyncOrderRecord.highestHashIndex, AsyncOrderRecord.availableHashes,
      hl.foldr_max_keys, hl.size_eq]
  · rw [hagain]
  · intro peer
    rw [hagain, Table.lookup_insert_eq]
    split
    next h => rw [h, ← horder']
    next => rfl

/-- The theorem applies to a host that accepts two hashes of one peer, and to the repeated
request after the other peer has handed in the same hashes. -/
theorem orders_append_only_twoPeers :
  let alice : PublicKey := List.Vector.replicate 33 2
  let bob : PublicKey := List.Vector.replicate 33 3
  let params : AsyncOrderNewParamsWire :=
    ⟨1, [⟨1, replicate 64 97, by decide⟩, ⟨2, replicate 64 98, by decide⟩]⟩
  let result : AsyncOrderNewResultWire := ⟨1, "1", "active", 2, 3, 2, 200⟩
  ((after []).recordAsyncOrderNew alice params).1 = .ok result
    ∧ ∃ n, ((after [(alice, params), (bob, params)]).recordAsyncOrderNew alice params).1
      = .ok
        { result with acceptedThroughIndex := n, nextIndexExpected := n + 1, unusedHashes := n }
  := by
  intro alice bob params result
  have hok : ((after []).recordAsyncOrderNew alice params).1 = .ok result := by
    decide +kernel
  obtain ⟨order, n, -, -, hagain, -⟩ :=
    (orders_append_only []).2.2.2 alice params result hok [(bob, params)]
  exact ⟨hok, n, hagain⟩

/-! ### Several peers -/

/-- The hashes of the order of a peer, none if there is no order. -/
def stock (s : AsyncOrderState) (peer : PublicKey) : Table ℕ Str :=
  (s.peers.lookup peer).elim ∅ AsyncOrderRecord.hashes

/-- The hashes after a request, given those before. -/
def restock (t : Table ℕ Str) (params : AsyncOrderNewParamsWire) : Table ℕ Str :=
  match validateAsyncOrderNewParams params, parseHashBatch params.hashes with
  | .ok _, .ok batch =>
    ((AsyncOrderRecord.mergeHashes ⟨0, t⟩ batch).map AsyncOrderRecord.hashes).toOption.getD t
  | _, _ => t

theorem hashes_activeOrder (s : AsyncOrderState) (sender : PublicKey) :
  (s.activeOrder sender).1.hashes = s.stock sender
  := by
  rw [stock]
  rcases s.activeOrder_cases sender with hsome | ⟨hnone, hempty⟩
  · rw [hsome, Option.elim_some]
  · rw [hnone, Option.elim_none, hempty]

theorem stock_activeOrder (s : AsyncOrderState) (sender peer : PublicKey) :
  (s.activeOrder sender).2.stock peer = s.stock peer
  := by
  rw [stock, lookup_activeOrder]
  split
  next h => rw [h, Option.elim_some, hashes_activeOrder]
  next => rfl

/-- The number of an order does not matter for its hashes. -/
theorem map_hashes_mergeHashes (order : AsyncOrderRecord) (batch : List (ℕ × Str)) :
  (order.mergeHashes batch).map AsyncOrderRecord.hashes
    = (AsyncOrderRecord.mergeHashes ⟨0, order.hashes⟩ batch).map AsyncOrderRecord.hashes
  := by
  obtain ⟨orderId, hashes⟩ := order
  have hnext : AsyncOrderRecord.nextHashIndex ⟨orderId, hashes⟩
      = AsyncOrderRecord.nextHashIndex ⟨0, hashes⟩ := rfl
  unfold AsyncOrderRecord.mergeHashes
  cases AsyncOrderRecord.scan hashes batch [] (false, false) with
  | error e => simp only [bind, Except.bind]
  | ok saw =>
    simp only [bind, Except.bind, hnext, apply_ite (Except.map AsyncOrderRecord.hashes)]
    rfl

theorem stock_step (s : AsyncOrderState) (r : Request) (peer : PublicKey) :
  (s.step r).stock peer = if peer = r.1 then restock (s.stock peer) r.2 else s.stock peer
  := by
  obtain ⟨sender, params⟩ := r
  rw [step, recordAsyncOrderNew, restock]
  cases validateAsyncOrderNewParams params with
  | error e => simp
  | ok _ =>
    cases parseHashBatch params.hashes with
    | error e => simp
    | ok batch =>
      have h := map_hashes_mergeHashes (s.activeOrder sender).1 batch
      rw [hashes_activeOrder] at h
      dsimp only
      split_ifs with heq
      · rw [heq, ← h]
        cases (s.activeOrder sender).1.mergeHashes batch with
        | error e => exact s.stock_activeOrder sender sender
        | ok order =>
          dsimp only
          rw [stock, lookup_insert]
          rfl
      · rw [← s.stock_activeOrder sender peer]
        cases (s.activeOrder sender).1.mergeHashes batch with
        | error e => rfl
        | ok order =>
          dsimp only
          rw [stock, lookup_insert_ne heq]
          rfl

/-- The hashes of a peer come from its requests, one after the other. -/
theorem stock_run (s : AsyncOrderState) (rs : List Request) (peer : PublicKey) :
  (Run.run step s rs).stock peer
    = ((rs.filter (·.1 = peer)).map Prod.snd).foldl restock (s.stock peer)
  := by
  induction rs generalizing s with
  | nil => rfl
  | cons r rs ih =>
    rw [Run.run_cons, ih, stock_step]
    by_cases h : r.1 = peer
    · simp [h]
    · rw [if_neg (Ne.symm h)]
      simp [h]

/-- What a host has accepted from a peer depends on the requests of that peer alone. -/
theorem accepted_eq_filter (rs : List Request) (peer : PublicKey) (i : ℕ) :
  (after rs).accepted peer i = (after (rs.filter (·.1 = peer))).accepted peer i
  := by
  have haccepted : ∀ s : AsyncOrderState, s.accepted peer i = (s.stock peer).lookup i := by
    intro s
    rw [accepted, stock]
    cases s.peers.lookup peer <;> rfl
  simp only [haccepted, after, stock_run, filter_filter, Bool.and_self]

/-- The number of the order of a peer. -/
def orderId (s : AsyncOrderState) (peer : PublicKey) : Option ℕ :=
  (s.peers.lookup peer).map AsyncOrderRecord.orderId

/-- Every number was given out, to one peer only. -/
def DistinctIds (s : AsyncOrderState) : Prop :=
  ∀ peer n, s.orderId peer = some n →
    n < s.nextOrderId ∧ ∀ peer', s.orderId peer' = some n → peer' = peer

theorem DistinctIds.activeOrder (h : s.DistinctIds) (sender : PublicKey) :
  (s.activeOrder sender).2.DistinctIds
  := by
  unfold AsyncOrderState.activeOrder
  split
  next => exact h
  next =>
    have hid : ∀ peer, orderId ⟨s.nextOrderId + 1, s.peers.insert sender (.new s.nextOrderId)⟩ peer
        = if peer = sender then some s.nextOrderId else s.orderId peer := by
      intro peer
      rw [orderId, Table.lookup_insert_eq, apply_ite (Option.map _)]
      rfl
    intro peer n hn
    simp only [hid] at hn ⊢
    grind [DistinctIds]

theorem DistinctIds.step (h : s.DistinctIds) (r : Request) :
  (s.step r).DistinctIds
  := by
  obtain ⟨sender, params⟩ := r
  rcases s.recordAsyncOrderNew_cases sender params with ⟨e, he⟩ | ⟨e, he⟩ |
    ⟨batch, order, -, -, hmerge, hok⟩
  · rwa [AsyncOrderState.step, he]
  · rw [AsyncOrderState.step, he]
    exact h.activeOrder sender
  · have hsame : order.orderId = (s.activeOrder sender).1.orderId := by
      rcases (AsyncOrderRecord.mergeHashes_eq_ok hmerge).2.2.2 with ⟨-, rfl⟩ | ⟨-, -, -, rfl⟩ <;> rfl
    have hid : (s.step (sender, params)).orderId = (s.activeOrder sender).2.orderId := by
      funext peer
      rw [AsyncOrderState.step, hok, orderId, orderId, Table.lookup_insert_eq, lookup_activeOrder]
      split_ifs
      · rw [Option.map_some, Option.map_some, hsame]
      · rfl
    have hnext := h.activeOrder sender
    rw [DistinctIds, ← hid] at hnext
    rw [AsyncOrderState.step, hok] at hnext ⊢
    exact hnext

/-- Whatever is asked for, no two peers have orders with the same number. -/
theorem orderIds_distinct (rs : List Request) :
  (after rs).DistinctIds
  := by
  apply Run.run_invariant (I := DistinctIds) (G := fun _ _ => True) (fun s r hs _ => hs.step r)
  · intro peer n hn
    cases hn
  · exact Run.meets_of_forall (fun _ _ => trivial) _ rs

end AsyncOrderState

end RgbLightning
