import RgbLightning.Apay.Orders

/-!
# The next hash index of a recipient

A recipient persists, for every invoice host, the index from which its next batch of hashes
starts.  A call of `/apay/new` reads it, offers the batch, and waits for the reply of the
host without holding a lock, so that calls overlap; then it writes the index that the reply
names, whatever it is.

The state keeps all calls that were made, in the order in which they started.  That the host
accepts a batch is an event of its own: it can happen at any time after the batch was
offered, whether or not its reply ever arrives.

The persisted index can go back (`nextIndex_goes_back`), except in an `Orderly` run
(`nextIndex_advances`).
-/

namespace RgbLightning

open Run AsyncOrderState List Except

def asyncPaymentsBip32MaxChildIndex : ℕ := 0x7fffffff

def validateAsyncPaymentsNextHashIndex (nextIndex : ℕ) : Except JsonRpcErrorWire Unit :=
  if asyncOrderFirstHashIndex ≤ nextIndex ∧ nextIndex ≤ asyncPaymentsBip32MaxChildIndex + 1 then
    .ok ()
  else .error (.internalError "async_payments_next_index_out_of_range")

/-! ### The persisted index -/

/-- The rows of the store that hold next indices, by their keys. -/
abbrev NextIndexRows : Type := Table Str Bytes

def nextIndexKey (hostNodeId : PublicKey) : Str :=
  hexStr hostNodeId.toList

def readAsyncPaymentsNextHashIndex (rows : NextIndexRows) (fate : ReadFate)
    (hostNodeId : PublicKey) : Except JsonRpcErrorWire ℕ :=
  match fate with
  | .fails => .error (.internalError "async_payments_next_index_read_failed")
  | .works =>
    match rows.lookup (nextIndexKey hostNodeId) with
    | none => .ok asyncOrderFirstHashIndex
    | some bytes =>
      if isUtf8 bytes then
        match parseU64 bytes with
        | none => .error (.internalError "async_payments_next_index_invalid_value")
        | some nextIndex => do
          validateAsyncPaymentsNextHashIndex nextIndex
          .ok nextIndex
      else .error (.internalError "async_payments_next_index_invalid_utf8")

def writeAsyncPaymentsNextHashIndex (rows : NextIndexRows) (fate : WriteFate)
    (hostNodeId : PublicKey) (nextIndex : ℕ) : Except JsonRpcErrorWire Unit × NextIndexRows :=
  match validateAsyncPaymentsNextHashIndex nextIndex with
  | .error e => (.error e, rows)
  | .ok () =>
    let stored := rows.insert (nextIndexKey hostNodeId) (decimalStr nextIndex)
    let failed := JsonRpcErrorWire.internalError "async_payments_next_index_write_failed"
    match fate with
    | .works => (.ok (), stored)
    | .fails => (.error failed, rows)
    | .failsAfterStoring => (.error failed, stored)

/-! ### Batches -/

section Client

variable (deriveHash : ℕ → Except JsonRpcErrorWire PaymentHash)

/-- The hash with an index, as it is sent.  `deriveHash` derives it from the seed. -/
def deriveHashMaterial (hashIndex : ℕ) : Except JsonRpcErrorWire AsyncOrderNewHashWire :=
  if hindex : hashIndex < asyncOrderFirstHashIndex
      ∨ asyncPaymentsBip32MaxChildIndex < hashIndex then
    .error .invalidHashBatch
  else do
    let paymentHash ← deriveHash hashIndex
    .ok ⟨hashIndex, hexStr paymentHash.toList, by
      have hmax : asyncPaymentsBip32MaxChildIndex ≤ u64Max := by decide
      omega⟩

def prepareAsyncOrderNewParams (startIndex batchSize : ℕ) :
    Except JsonRpcErrorWire AsyncOrderNewParamsWire :=
  if startIndex < asyncOrderFirstHashIndex ∨ batchSize = 0
      ∨ batchSize > asyncOrderMaxHashBatchSize then
    .error .invalidHashBatch
  else if startIndex + (batchSize - 1) > u64Max
      ∨ startIndex + (batchSize - 1) > asyncPaymentsBip32MaxChildIndex then
    .error .invalidHashBatch
  else do
    let hashes ← (range' startIndex batchSize).mapM (deriveHashMaterial deriveHash)
    .ok ⟨protocolVersion, hashes⟩

/-! ### Calls -/

/-- What a host replies: an error, or a value, which may not be a result. -/
abbrev ApayReply : Type := Except JsonRpcErrorWire (Option AsyncOrderNewResultWire)

/-- How far a call is: it waits, its reply is there, or it is finished, and has stored the
index of its reply or not. -/
inductive ApayPhase where
  | waiting
  | answered (reply : ApayReply)
  | finished (stored : Bool)
deriving DecidableEq

/-- A call of `/apay/new` whose batch was offered. -/
structure ApayCall where
  hostNodeId : PublicKey
  requestId : Str
  params : AsyncOrderNewParamsWire
  phase : ApayPhase := .waiting
  /-- Whether the host has accepted the batch. -/
  accepted : Bool := false
deriving DecidableEq

def ApayCall.indices (c : ApayCall) : List ℕ :=
  c.params.hashes.map AsyncOrderNewHashWire.hashIndex

/-- The persisted indices and the calls of a node. -/
structure ApayClient where
  rows : NextIndexRows := ∅
  calls : List ApayCall := []

inductive ApayClient.Event where
  /-- A call reads the index and offers its batch, if it can be signed. -/
  | start (hostNodeId : PublicKey) (requestId : Str) (read : ReadFate) (signs : Bool)
  /-- The host accepts the batch of a call. -/
  | accept (call : ℕ)
  /-- A reply arrives. -/
  | reply (sender : PublicKey) (requestId : Str) (reply : ApayReply)
  /-- A call whose reply is there goes on. -/
  | resume (call : ℕ) (write : WriteFate)
  /-- A call stops waiting. -/
  | timeout (call : ℕ)
  /-- The node is restarted. -/
  | restart

namespace ApayClient

variable (s : ApayClient)

def prepareApayOrderParams (read : ReadFate) (hostNodeId : PublicKey) :
    Except JsonRpcErrorWire AsyncOrderNewParamsWire := do
  let startIndex ← readAsyncPaymentsNextHashIndex s.rows read hostNodeId
  prepareAsyncOrderNewParams deriveHash startIndex asyncOrderMaxHashBatchSize

/-- Whether a reply from a host with a request id is waited for. -/
def Pending (hostNodeId : PublicKey) (requestId : Str) (c : ApayCall) : Prop :=
  c.phase = .waiting ∧ c.hostNodeId = hostNodeId ∧ c.requestId = requestId
deriving Decidable

/-- The new call, if its batch can be prepared, signed and queued. -/
def newCall (hostNodeId : PublicKey) (requestId : Str) (read : ReadFate) (signs : Bool) :
    Option ApayCall :=
  match s.prepareApayOrderParams deriveHash read hostNodeId with
  | .error _ => none
  | .ok params =>
    if signs ∧ validateAsyncOrderNewParams params = .ok ()
        ∧ ¬ ∃ c ∈ s.calls, Pending hostNodeId requestId c then
      some { hostNodeId, requestId, params }
    else none

/-- What a call does when its reply is there. -/
def proceed (write : WriteFate) (c : ApayCall) : NextIndexRows × ApayCall :=
  match c.phase with
  | .answered (.ok (some orderState)) =>
    let (_, rows) := writeAsyncPaymentsNextHashIndex s.rows write c.hostNodeId
      orderState.nextIndexExpected
    let stored := write ≠ .fails
      ∧ validateAsyncPaymentsNextHashIndex orderState.nextIndexExpected = .ok ()
    (rows, { c with phase := .finished stored })
  | .answered _ => (s.rows, { c with phase := .finished false })
  | _ => (s.rows, c)

def change (k : ℕ) (f : ApayCall → ApayCall) : ApayClient :=
  { s with calls := s.calls.modify k f }

def step : Event → ApayClient
  | .start hostNodeId requestId read signs =>
    { s with
      calls := s.calls ++ (s.newCall deriveHash hostNodeId requestId read signs).toList }
  | .accept k => s.change k fun c => { c with accepted := true }
  | .reply sender requestId reply =>
    { s with
      calls := s.calls.map fun c =>
        if Pending sender requestId c then { c with phase := .answered reply } else c }
  | .resume k write =>
    match s.calls[k]? with
    | none => s
    | some c => ⟨(s.proceed write c).1, s.calls.set k (s.proceed write c).2⟩
  | .timeout k =>
    s.change k fun c => if c.phase = .waiting then { c with phase := .finished false } else c
  | .restart =>
    { s with
      calls := s.calls.map fun c =>
        match c.phase with
        | .finished _ => c
        | _ => { c with phase := .finished false } }

def nextIndex (hostNodeId : PublicKey) : Except JsonRpcErrorWire ℕ :=
  readAsyncPaymentsNextHashIndex s.rows .works hostNodeId

def started (e : Event) : List ApayCall :=
  (s.step deriveHash e).calls.drop s.calls.length

end ApayClient

end Client

/-! ### The persisted index and the calls that an event changes -/

theorem validateAsyncPaymentsNextHashIndex_eq_ok {n : ℕ} :
  validateAsyncPaymentsNextHashIndex n = .ok ()
    ↔ 1 ≤ n ∧ n ≤ asyncPaymentsBip32MaxChildIndex + 1
  := by
  unfold validateAsyncPaymentsNextHashIndex asyncOrderFirstHashIndex
  split_ifs with h
  · simp [h]
  · simp [h]

theorem nextIndexKey_injective :
  Function.Injective nextIndexKey
  := fun _ _ h => Vector.toList_injective (hexStr_injective h)

/-- An index that was stored is read back, and the indices of other hosts are as before. -/
theorem read_insert {rows : NextIndexRows} {host : PublicKey} {n : ℕ}
    (hn : validateAsyncPaymentsNextHashIndex n = .ok ()) (host' : PublicKey) :
  readAsyncPaymentsNextHashIndex (rows.insert (nextIndexKey host) (decimalStr n)) .works host'
    = if host' = host then .ok n else readAsyncPaymentsNextHashIndex rows .works host'
  := by
  have hmax : n ≤ u64Max := by
    have hchild : asyncPaymentsBip32MaxChildIndex + 1 ≤ u64Max := by decide
    exact (validateAsyncPaymentsNextHashIndex_eq_ok.mp hn).2.trans hchild
  unfold readAsyncPaymentsNextHashIndex
  simp only [Table.lookup_insert_eq, nextIndexKey_injective.eq_iff]
  split_ifs with h
  · simp only [isUtf8_decimalStr, if_true, parseU64_decimalStr hmax, hn]
    rfl
  · rfl

/-- A write stores an index that is in range, unless it fails before. -/
theorem write_rows (rows : NextIndexRows) (write : WriteFate) (host : PublicKey) (n : ℕ) :
  (writeAsyncPaymentsNextHashIndex rows write host n).2
    = if write ≠ .fails ∧ validateAsyncPaymentsNextHashIndex n = .ok () then
        rows.insert (nextIndexKey host) (decimalStr n)
      else rows
  := by
  unfold writeAsyncPaymentsNextHashIndex
  split
  next e he => simp [he]
  next hok =>
    cases write with
    | works => simp [hok]
    | fails => simp
    | failsAfterStoring => simp [hok]

variable {deriveHash : ℕ → Except JsonRpcErrorWire PaymentHash}

theorem hashIndex_of_deriveHashMaterial {i : ℕ} {e : AsyncOrderNewHashWire}
    (h : deriveHashMaterial deriveHash i = .ok e) :
  e.hashIndex = i
  := by
  unfold deriveHashMaterial at h
  split_ifs at h
  obtain ⟨paymentHash, -, h⟩ := bind_eq_ok.mp h
  rw [← ok.inj h]

theorem map_hashIndex_of_derive {indices : List ℕ} {hashes : List AsyncOrderNewHashWire}
    (h : Forall₂ (fun i e => deriveHashMaterial deriveHash i = .ok e) indices hashes) :
  hashes.map AsyncOrderNewHashWire.hashIndex = indices
  := by
  induction h with
  | nil => rfl
  | cons he _ ih => rw [map_cons, hashIndex_of_deriveHashMaterial he, ih]

variable {startIndex batchSize : ℕ}

/-- Hashes that are derived one after the other are read as a batch, with the texts they
have. -/
theorem parseHashBatchFrom_of_derive {hashes : List AsyncOrderNewHashWire} {previous : Option ℕ}
    (h : Forall₂ (fun i e => deriveHashMaterial deriveHash i = .ok e)
      (range' startIndex batchSize) hashes)
    (hprevious : ∀ p, previous = some p → startIndex = p + 1) :
  parseHashBatchFrom previous hashes = .ok (hashes.map fun e => (e.hashIndex, e.paymentHash))
  := by
  induction batchSize generalizing startIndex previous hashes with
  | zero =>
    cases h
    rfl
  | succ n ih =>
    rw [range'_succ] at h
    obtain _ | @⟨_, e, _, hashes, he, hrest⟩ := h
    have hindex := hashIndex_of_deriveHashMaterial he
    unfold deriveHashMaterial at he
    split_ifs at he with hrange
    obtain ⟨paymentHash, -, he⟩ := bind_eq_ok.mp he
    have htext : e.paymentHash = hexStr paymentHash.toList := by
      rw [← ok.inj he]
    have hnext : previous.any (fun p => e.hashIndex ≠ saturatingAdd p 1) = false := by
      cases previous with
      | none => rfl
      | some p =>
        have hchild : asyncPaymentsBip32MaxChildIndex < u64Max := by decide
        have hsat : saturatingAdd p 1 = startIndex := by
          rw [hprevious p rfl, saturatingAdd]
          have := hprevious p rfl
          omega
        simp [hsat, hindex]
    rw [parseHashBatchFrom, htext, validateAndParsePaymentHash_hexStr]
    have hparsed : parseHashBatchFrom (some e.hashIndex) hashes
        = .ok (hashes.map fun e => (e.hashIndex, e.paymentHash)) :=
      ih hrest fun p hp => by rw [← Option.some.inj hp, hindex]
    simp only [hnext, Bool.false_eq_true, if_false, map_cons, htext, hparsed]
    rfl

/-- What a batch that was prepared looks like, and that it passes the check of the protocol. -/
theorem prepareAsyncOrderNewParams_eq_ok {params : AsyncOrderNewParamsWire}
    (h : prepareAsyncOrderNewParams deriveHash startIndex batchSize = .ok params) :
  params.hashes.map AsyncOrderNewHashWire.hashIndex = range' startIndex batchSize
    ∧ startIndex + batchSize ≤ asyncPaymentsBip32MaxChildIndex + 1 ∧ params.hashes ≠ []
    ∧ validateAsyncOrderNewParams params = .ok ()
    ∧ parseHashBatch params.hashes
      = .ok (params.hashes.map fun e => (e.hashIndex, e.paymentHash))
  := by
  unfold prepareAsyncOrderNewParams at h
  split_ifs at h with hsize hlast
  obtain ⟨hashes, hhashes, h⟩ := bind_eq_ok.mp h
  obtain rfl := ok.inj h
  have hderived := forall₂_of_mapM_eq_ok hhashes
  have hindices := map_hashIndex_of_derive hderived
  have hlength : hashes.length = batchSize := by
    have := congrArg length hindices
    simpa using this
  have hne : hashes ≠ [] := ne_nil_of_length_pos (by omega)
  have hparse : parseHashBatch hashes = .ok (hashes.map fun e => (e.hashIndex, e.paymentHash)) :=
    parseHashBatchFrom_of_derive hderived (fun p hp => by cases hp)
  refine ⟨hindices, by omega, hne, ?_, hparse⟩
  have hcap : ¬ hashes.length > asyncOrderMaxHashBatchSize := by omega
  simp only [validateAsyncOrderNewParams, ne_eq, not_true_eq_false, if_false, hne, hcap, hparse]
  rfl

theorem le_of_prepareAsyncOrderNewParams {params : AsyncOrderNewParamsWire}
    (h : prepareAsyncOrderNewParams deriveHash startIndex batchSize = .ok params) :
  ∀ e ∈ params.hashes, startIndex ≤ e.hashIndex
  := by
  intro e he
  have hmem := mem_map_of_mem (f := AsyncOrderNewHashWire.hashIndex) he
  rw [(prepareAsyncOrderNewParams_eq_ok h).1, mem_range'_1] at hmem
  apply hmem.1

theorem exists_mapM_deriveHashMaterial (f : ℕ → PaymentHash) (hstart : 1 ≤ startIndex)
    (hlast : startIndex + batchSize ≤ asyncPaymentsBip32MaxChildIndex + 1) :
  ∃ hashes, (range' startIndex batchSize).mapM
    (deriveHashMaterial fun i => .ok (f i)) = .ok hashes
  := by
  induction batchSize generalizing startIndex with
  | zero => exact ⟨[], rfl⟩
  | succ n ih =>
    obtain ⟨hashes, hhashes⟩ := ih (Nat.le_succ_of_le hstart) (by omega)
    rw [range'_succ, mapM_cons, hhashes, deriveHashMaterial,
      dif_neg (by rw [asyncOrderFirstHashIndex]; omega)]
    exact ⟨_, rfl⟩

/-- The batch from an index is prepared when all its indices can be derived, and passes the
check of the protocol. -/
theorem prepareAsyncOrderNewParams_valid (f : ℕ → PaymentHash) (hstart : 1 ≤ startIndex)
    (hsize : 0 < batchSize) (hsize' : batchSize ≤ asyncOrderMaxHashBatchSize)
    (hlast : startIndex + batchSize ≤ asyncPaymentsBip32MaxChildIndex + 1) :
  ∃ params, prepareAsyncOrderNewParams (fun i => .ok (f i)) startIndex batchSize = .ok params
    ∧ params.hashes.map AsyncOrderNewHashWire.hashIndex = range' startIndex batchSize
    ∧ validateAsyncOrderNewParams params = .ok ()
  := by
  have hchild : asyncPaymentsBip32MaxChildIndex ≤ u64Max := by decide
  obtain ⟨hashes, hhashes⟩ := exists_mapM_deriveHashMaterial f hstart hlast
  have hprepare : prepareAsyncOrderNewParams (fun i => .ok (f i)) startIndex batchSize
      = .ok ⟨protocolVersion, hashes⟩ := by
    rw [prepareAsyncOrderNewParams, if_neg (by rw [asyncOrderFirstHashIndex]; omega),
      if_neg (by omega), hhashes]
    rfl
  obtain ⟨hindices, -, -, hvalid, -⟩ := prepareAsyncOrderNewParams_eq_ok hprepare
  exact ⟨_, hprepare, hindices, hvalid⟩

/-! ### Batches and their host -/

/-- A batch that was prepared has consecutive indices from its start, none above the limit of
the derivation.  A host whose order ends just before the start and has room for the batch
accepts all of it, provided that its hashes differ from each other and from those of the
order. -/
theorem prepared_accepted {deriveHash : ℕ → Except JsonRpcErrorWire PaymentHash}
    {params : AsyncOrderNewParamsWire}
    (h : prepareAsyncOrderNewParams deriveHash startIndex batchSize = .ok params) :
  params.hashes.map AsyncOrderNewHashWire.hashIndex = range' startIndex batchSize
    ∧ (∀ e ∈ params.hashes, e.hashIndex ≤ asyncPaymentsBip32MaxChildIndex)
    ∧ ∀ (rs : List Request) (peer : PublicKey),
      let s := after rs
      (s.activeOrder peer).1.nextHashIndex = startIndex →
      (s.activeOrder peer).1.availableHashes + batchSize ≤ asyncOrderMaxHashBatchSize →
      (params.hashes.map AsyncOrderNewHashWire.paymentHash).Nodup →
      (∀ e ∈ params.hashes, ∀ i, s.accepted peer i ≠ some e.paymentHash) →
      (∃ result, (s.recordAsyncOrderNew peer params).1 = .ok result)
        ∧ ∀ e ∈ params.hashes,
          (s.recordAsyncOrderNew peer params).2.accepted peer e.hashIndex = some e.paymentHash
  := by
  obtain ⟨hindices, hlast, hne, hvalid, hparse⟩ := prepareAsyncOrderNewParams_eq_ok h
  have hlength : params.hashes.length = batchSize := by
    have := congrArg length hindices
    simpa using this
  refine ⟨hindices, ?_, ?_⟩
  · intro e he
    have hmem := mem_map_of_mem (f := AsyncOrderNewHashWire.hashIndex) he
    rw [hindices, mem_range'_1] at hmem
    omega
  intro rs peer s hstart hroom hnodup hnew
  obtain ⟨l, hl⟩ : ∃ l, Stocked (s.activeOrder peer).1.hashes l :=
    (sound_after rs).activeOrder peer
  have hnext := nextHashIndex_eq hl
  have hrange : (params.hashes.map fun e => (e.hashIndex, e.paymentHash)).map Prod.fst
      = range' (l.length + 1) (params.hashes.map fun e =>
        (e.hashIndex, e.paymentHash)).length := by
    rw [length_map, hlength, ← hnext, hstart, ← hindices, map_map]
    rfl
  have hmerge := AsyncOrderRecord.mergeHashes_of_new hl (by simpa using hne) hrange hnext
    (by rw [length_map, hlength, ← hl.size_eq]; exact hroom)
    (by rw [map_map]; exact hnodup) (by
      -- The hashes of the list are those that the host has accepted.
      simp only [mem_map, forall_exists_index, and_imp]
      rintro _ e he rfl hmem
      obtain ⟨i, hi⟩ := mem_iff_getElem?.mp hmem
      apply hnew e he (i + 1)
      rw [← accepted_activeOrder s peer, accepted,
        lookup_activeOrder, if_pos rfl, Option.bind_some, hl.lookup_succ, hi])
  simp only [recordAsyncOrderNew, hvalid, hparse, hmerge]
  refine ⟨⟨_, rfl⟩, ?_⟩
  intro e he
  rw [accepted, Table.lookup_insert_eq, if_pos rfl, Option.bind_some]
  apply (hl.toNumbered.insertAll hrange).lookup_of_mem hrange
    (e := (e.hashIndex, e.paymentHash)) (mem_map_of_mem he)

def hashOfIndex (i : ℕ) : PaymentHash := List.Vector.replicate 32 (UInt8.ofNat i)

theorem prepared_accepted_first :
  let peer : PublicKey := List.Vector.replicate 33 2
  ∃ params result, prepareAsyncOrderNewParams (fun i => .ok (hashOfIndex i)) 1 2 = .ok params
    ∧ ((after []).recordAsyncOrderNew peer params).1 = .ok result
  := by
  intro peer
  have hprepare : prepareAsyncOrderNewParams (fun i => .ok (hashOfIndex i)) 1 2
      = .ok ⟨1, [⟨1, hexStr (hashOfIndex 1).toList, by decide⟩,
        ⟨2, hexStr (hashOfIndex 2).toList, by decide⟩]⟩ := rfl
  obtain ⟨⟨result, hresult⟩, -⟩ := (prepared_accepted hprepare).2.2 [] peer
    (by decide +kernel) (by decide +kernel) (by decide +kernel)
    (by rintro e - i ⟨⟩)
  exact ⟨_, result, hprepare, hresult⟩

/-- A peer hands in the hash of its index 2 under the index 1.  The batch that it prepares from
the index 2 then has a hash that the host has already, and is rejected. -/
theorem prepared_rejected :
  let peer : PublicKey := List.Vector.replicate 33 2
  let s := after [(peer, ⟨1, [⟨1, hexStr (hashOfIndex 2).toList, by decide⟩]⟩)]
  ∃ params, prepareAsyncOrderNewParams (fun i => .ok (hashOfIndex i)) 2 1 = .ok params
    ∧ (s.activeOrder peer).1.nextHashIndex = 2
    ∧ (s.activeOrder peer).1.availableHashes + 1 ≤ asyncOrderMaxHashBatchSize
    ∧ (s.recordAsyncOrderNew peer params).1 = .error .duplicateHashConflict
  := by
  refine ⟨⟨1, [⟨2, hexStr (hashOfIndex 2).toList, by decide⟩]⟩, rfl, ?_⟩
  decide +kernel

namespace ApayClient

variable {deriveHash : ℕ → Except JsonRpcErrorWire PaymentHash}

variable {s : ApayClient} {host : PublicKey}

theorem prepareApayOrderParams_eq_ok {read : ReadFate} {params : AsyncOrderNewParamsWire}
    (h : s.prepareApayOrderParams deriveHash read host = .ok params) :
  ∃ n, s.nextIndex host = .ok n
    ∧ ∀ i ∈ params.hashes.map AsyncOrderNewHashWire.hashIndex, n ≤ i
  := by
  obtain ⟨n, hread, hprepare⟩ := bind_eq_ok.mp h
  have hworks : read = .works := by
    cases read with
    | works => rfl
    | fails => cases hread
  rw [hworks] at hread
  refine ⟨n, hread, ?_⟩
  intro i hi
  obtain ⟨e, he, rfl⟩ := mem_map.mp hi
  apply le_of_prepareAsyncOrderNewParams hprepare e he

variable {c : ApayCall}

theorem newCall_eq_some {requestId : Str} {read : ReadFate} {signs : Bool}
    (h : s.newCall deriveHash host requestId read signs = some c) :
  c.hostNodeId = host ∧ c.phase = .waiting
    ∧ ∃ n, s.nextIndex host = .ok n ∧ ∀ i ∈ c.indices, n ≤ i
  := by
  unfold newCall at h
  split at h
  next => cases h
  next params hparams =>
    split_ifs at h with hqueue
    obtain rfl := Option.some.inj h
    exact ⟨rfl, rfl, prepareApayOrderParams_eq_ok hparams⟩

theorem prepareApayOrderParams_of_nextIndex (f : ℕ → PaymentHash) {n : ℕ}
    (hn : s.nextIndex host = .ok n) (hstart : 1 ≤ n)
    (hlast : n + asyncOrderMaxHashBatchSize ≤ asyncPaymentsBip32MaxChildIndex + 1) :
  ∃ params, s.prepareApayOrderParams (fun i => .ok (f i)) .works host = .ok params
    ∧ params.hashes.map AsyncOrderNewHashWire.hashIndex
      = range' n asyncOrderMaxHashBatchSize
    ∧ validateAsyncOrderNewParams params = .ok ()
  := by
  obtain ⟨params, hprepare, hindices, hvalid⟩ :=
    prepareAsyncOrderNewParams_valid f hstart (by decide) le_rfl hlast
  refine ⟨params, ?_, hindices, hvalid⟩
  rw [prepareApayOrderParams, bind_eq_ok]
  exact ⟨n, hn, hprepare⟩

theorem newCall_of_nextIndex (f : ℕ → PaymentHash) (requestId : Str) {n : ℕ}
    (hn : s.nextIndex host = .ok n) (hstart : 1 ≤ n)
    (hlast : n + asyncOrderMaxHashBatchSize ≤ asyncPaymentsBip32MaxChildIndex + 1)
    (hpending : ¬ ∃ c ∈ s.calls, Pending host requestId c) :
  ∃ params, s.newCall (fun i => .ok (f i)) host requestId .works true
      = some { hostNodeId := host, requestId, params }
    ∧ params.hashes.map AsyncOrderNewHashWire.hashIndex
      = range' n asyncOrderMaxHashBatchSize
  := by
  obtain ⟨params, hparams, hindices, hvalid⟩ :=
    prepareApayOrderParams_of_nextIndex f hn hstart hlast
  refine ⟨params, ?_, hindices⟩
  rw [newCall, hparams]
  exact if_pos ⟨rfl, hvalid, hpending⟩

/-- A call that went on from another one, without storing an index. -/
def Follows (c c' : ApayCall) : Prop :=
  c'.hostNodeId = c.hostNodeId ∧ c'.params = c.params
    ∧ (c'.phase = .finished true → c.phase = .finished true)

theorem follows_refl (c : ApayCall) :
  Follows c c
  := ⟨rfl, rfl, id⟩

variable {f : ApayCall → ApayCall}

theorem mem_modify {l : List ApayCall} {k : ℕ} (h : c ∈ l.modify k f) :
  c ∈ l ∨ ∃ c0 ∈ l, c = f c0
  := by
  induction l generalizing k with
  | nil => simp at h
  | cons a l ih =>
    cases k with
    | zero =>
      rw [modify_zero_cons, mem_cons] at h
      rcases h with rfl | h
      · exact .inr ⟨a, mem_cons_self, rfl⟩
      · exact .inl (mem_cons_of_mem a h)
    | succ k =>
      rw [modify_succ_cons, mem_cons] at h
      rcases h with rfl | h
      · exact .inl mem_cons_self
      · rcases ih h with h | ⟨c0, hc0, rfl⟩
        · exact .inl (mem_cons_of_mem a h)
        · exact .inr ⟨c0, mem_cons_of_mem a hc0, rfl⟩

/-- Every call goes on from one that was there, without storing an index. -/
def Continues (s s' : ApayClient) : Prop :=
  s'.rows = s.rows ∧ s'.calls.length = s.calls.length
    ∧ ∀ c' ∈ s'.calls, ∃ c ∈ s.calls, Follows c c'

theorem continues_change (s : ApayClient) (k : ℕ) (hf : ∀ c, Follows c (f c)) :
  s.Continues (s.change k f)
  := by
  refine ⟨rfl, length_modify f s.calls k, ?_⟩
  intro c' hc'
  rcases mem_modify hc' with hc' | ⟨c, hc, rfl⟩
  · exact ⟨c', hc', follows_refl c'⟩
  · exact ⟨c, hc, hf c⟩

theorem continues_map (s : ApayClient) (hf : ∀ c, Follows c (f c)) :
  s.Continues { s with calls := s.calls.map f }
  := by
  refine ⟨rfl, length_map f, ?_⟩
  intro c' hc'
  obtain ⟨c, hc, rfl⟩ := mem_map.mp hc'
  exact ⟨c, hc, hf c⟩

theorem continues_set (s : ApayClient) {k : ℕ} {c' : ApayCall} (hc : s.calls[k]? = some c)
    (hf : Follows c c') :
  s.Continues { s with calls := s.calls.set k c' }
  := by
  refine ⟨rfl, length_set, ?_⟩
  intro c'' hc''
  rcases mem_or_eq_of_mem_set hc'' with hc'' | rfl
  · exact ⟨c'', hc'', follows_refl c''⟩
  · exact ⟨c, mem_of_getElem? hc, hf⟩

/-- A call whose reply is there goes on without storing an index, or stores that of its
reply. -/
theorem proceed_cases (s : ApayClient) {k : ℕ} (write : WriteFate) (hk : s.calls[k]? = some c) :
  s.Continues ⟨(s.proceed write c).1, s.calls.set k (s.proceed write c).2⟩
    ∨ ∃ orderState, c.phase = .answered (.ok (some orderState)) ∧ write ≠ .fails
      ∧ validateAsyncPaymentsNextHashIndex orderState.nextIndexExpected = .ok ()
      ∧ (⟨(s.proceed write c).1, s.calls.set k (s.proceed write c).2⟩ : ApayClient)
        = ⟨s.rows.insert (nextIndexKey c.hostNodeId) (decimalStr orderState.nextIndexExpected),
          s.calls.set k { c with phase := .finished true }⟩
  := by
  unfold proceed
  split
  next orderState hphase =>
    by_cases hstored : write ≠ .fails
        ∧ validateAsyncPaymentsNextHashIndex orderState.nextIndexExpected = .ok ()
    · refine .inr ⟨orderState, hphase, hstored.1, hstored.2, ?_⟩
      simp only [write_rows, if_pos hstored, decide_eq_true hstored]
    · simp only [write_rows, if_neg hstored, decide_eq_false hstored]
      exact .inl (s.continues_set hk ⟨rfl, rfl, fun h => by cases h⟩)
  next hphase => exact .inl (s.continues_set hk ⟨rfl, rfl, fun h => by cases h⟩)
  next => exact .inl (s.continues_set hk (follows_refl c))

/-- What an event does: it starts a call, it lets calls go on without storing an index, or
it stores the index of a reply. -/
theorem step_cases (s : ApayClient) (e : Event) :
  (∃ host requestId read signs, e = .start host requestId read signs
      ∧ s.step deriveHash e
        = { s with calls := s.calls ++ (s.newCall deriveHash host requestId read signs).toList })
    ∨ s.Continues (s.step deriveHash e)
    ∨ ∃ k write c orderState, e = .resume k write ∧ s.calls[k]? = some c
      ∧ c.phase = .answered (.ok (some orderState)) ∧ write ≠ .fails
      ∧ validateAsyncPaymentsNextHashIndex orderState.nextIndexExpected = .ok ()
      ∧ s.step deriveHash e
        = ⟨s.rows.insert (nextIndexKey c.hostNodeId) (decimalStr orderState.nextIndexExpected),
          s.calls.set k { c with phase := .finished true }⟩
  := by
  cases e with
  | start host requestId read signs => exact .inl ⟨host, requestId, read, signs, rfl, rfl⟩
  | accept k => exact .inr (.inl (s.continues_change k fun c => ⟨rfl, rfl, id⟩))
  | reply sender requestId reply =>
    refine .inr (.inl (s.continues_map ?_))
    intro c
    split_ifs
    · exact ⟨rfl, rfl, fun h => by cases h⟩
    · apply follows_refl
  | timeout k =>
    refine .inr (.inl (s.continues_change k ?_))
    intro c
    split_ifs
    · exact ⟨rfl, rfl, fun h => by cases h⟩
    · apply follows_refl
  | restart =>
    refine .inr (.inl (s.continues_map ?_))
    intro c
    split
    · apply follows_refl
    · exact ⟨rfl, rfl, fun h => by cases h⟩
  | resume k write =>
    rw [step]
    rcases hk : s.calls[k]? with _ | c
    · exact .inr (.inl ⟨rfl, rfl, fun c hc => ⟨c, hc, follows_refl c⟩⟩)
    · rcases s.proceed_cases write hk with h | ⟨orderState, hphase, hwrite, hvalid, h⟩
      · exact .inr (.inl h)
      · exact .inr (.inr ⟨k, write, c, orderState, rfl, hk, hphase, hwrite, hvalid, h⟩)

end ApayClient

/-! ### Orderly runs -/

namespace ApayClient

/-- If a call stores an index, it does not lie below the persisted one, and it lies above
all indices of the batch of the call. -/
def StoresAbove (s : ApayClient) (write : WriteFate) (c : ApayCall) : Prop :=
  match c.phase with
  | .answered (.ok (some orderState)) =>
    write ≠ .fails →
    validateAsyncPaymentsNextHashIndex orderState.nextIndexExpected = .ok () →
    (∀ n ∈ (s.nextIndex c.hostNodeId).toOption, n ≤ orderState.nextIndexExpected)
      ∧ ∀ i ∈ c.indices, i < orderState.nextIndexExpected
  | _ => True

/-- A call to a host starts when the replies to all batches that the host has accepted are
stored, and an index that is stored lies above what was there. -/
def Orderly (s : ApayClient) : Event → Prop
  | .start host _ _ _ =>
    ∀ c ∈ s.calls, c.hostNodeId = host → c.accepted = true → c.phase = .finished true
  | .resume k write => ∀ c ∈ s.calls[k]?, s.StoresAbove write c
  | _ => True

variable {deriveHash : ℕ → Except JsonRpcErrorWire PaymentHash}

/-- The indices are readable, and those of a batch whose reply was stored lie below the
persisted one. -/
def Sound (s : ApayClient) : Prop :=
  ∀ host, ∃ n, s.nextIndex host = .ok n
    ∧ ∀ c ∈ s.calls, c.hostNodeId = host → c.phase = .finished true → ∀ i ∈ c.indices, i < n

/-- The persisted indices do not go back. -/
def Advances (s s' : ApayClient) : Prop :=
  ∀ host m, s.nextIndex host = .ok m → ∃ n, s'.nextIndex host = .ok n ∧ m ≤ n

theorem advances_refl (s : ApayClient) :
  s.Advances s
  := fun _ m h => ⟨m, h, le_rfl⟩

theorem advances_trans (s s' s'' : ApayClient) (h : s.Advances s') (h' : s'.Advances s'') :
  s.Advances s''
  := by
  intro host m hm
  obtain ⟨n, hn, hmn⟩ := h host m hm
  obtain ⟨p, hp, hnp⟩ := h' host n hn
  exact ⟨p, hp, hmn.trans hnp⟩

theorem sound_empty :
  Sound {}
  := by
  intro host
  refine ⟨1, rfl, ?_⟩
  intro c hc
  cases hc

variable {s : ApayClient}

/-- A call that waits has stored nothing. -/
theorem Sound.append (hs : s.Sound) {c : Option ApayCall} (hc : ∀ c' ∈ c, c'.phase = .waiting) :
  Sound { s with calls := s.calls ++ c.toList }
  := by
  intro host
  obtain ⟨n, hn, hbelow⟩ := hs host
  refine ⟨n, hn, ?_⟩
  intro c' hc' hhost hstored
  rcases mem_append.mp hc' with hc' | hc'
  · apply hbelow c' hc' hhost hstored
  · rw [hc c' (Option.mem_toList.mp hc')] at hstored
    cases hstored

/-- Calls that go on without storing an index leave the persisted indices alone. -/
theorem Sound.continues {s' : ApayClient} (hs : s.Sound) (h : s.Continues s') :
  s'.Sound ∧ s.Advances s'
  := by
  obtain ⟨hrows, -, hcalls⟩ := h
  have hindex (host : PublicKey) : s'.nextIndex host = s.nextIndex host := by
    rw [nextIndex, nextIndex, hrows]
  constructor
  · intro host
    obtain ⟨n, hn, hbelow⟩ := hs host
    rw [hindex]
    refine ⟨n, hn, ?_⟩
    intro c' hc' hhost hstored
    obtain ⟨c, hc, hhost', hparams, hphase⟩ := hcalls c' hc'
    rw [ApayCall.indices, hparams]
    apply hbelow c hc (hhost' ▸ hhost) (hphase hstored)
  · intro host m hm
    exact ⟨m, (hindex host).trans hm, le_rfl⟩

variable {c : ApayCall}

theorem Sound.store (hs : s.Sound) {write : WriteFate} {k : ℕ}
    {orderState : AsyncOrderNewResultWire} (hcond : s.StoresAbove write c)
    (hphase : c.phase = .answered (.ok (some orderState))) (hwrite : write ≠ .fails)
    (hvalid : validateAsyncPaymentsNextHashIndex orderState.nextIndexExpected = .ok ()) :
  let s' : ApayClient :=
    ⟨s.rows.insert (nextIndexKey c.hostNodeId) (decimalStr orderState.nextIndexExpected),
      s.calls.set k { c with phase := .finished true }⟩
  s'.Sound ∧ s.Advances s'
  := by
  rw [StoresAbove, hphase] at hcond
  obtain ⟨hnot, habove⟩ := hcond hwrite hvalid
  obtain ⟨old, hold, hbelow⟩ := hs c.hostNodeId
  have hle : old ≤ orderState.nextIndexExpected := by
    apply hnot
    rw [hold]
    rfl
  constructor
  · intro host
    rw [nextIndex, read_insert hvalid]
    split_ifs with hhost
    · refine ⟨_, rfl, ?_⟩
      intro c' hc' hhost' hstored
      rcases mem_or_eq_of_mem_set hc' with hc' | rfl
      · intro i hi
        exact (hbelow c' hc' (hhost'.trans hhost) hstored i hi).trans_le hle
      · apply habove
    obtain ⟨n, hn, hbelow'⟩ := hs host
    refine ⟨n, hn, ?_⟩
    intro c' hc' hhost' hstored
    rcases mem_or_eq_of_mem_set hc' with hc' | rfl
    · apply hbelow' c' hc' hhost' hstored
    · exact absurd hhost'.symm hhost
  · intro host m hm
    rw [nextIndex, read_insert hvalid]
    split_ifs with hhost
    · refine ⟨_, rfl, ?_⟩
      rw [hhost, hold] at hm
      rw [← ok.inj hm]
      apply hle
    · exact ⟨m, hm, le_rfl⟩

/-- A batch from the persisted index has no index of a batch whose reply was stored. -/
theorem Sound.disjoint (hs : s.Sound) {c' : ApayCall} (hc : c ∈ s.calls)
    (hstored : c.phase = .finished true) {n : ℕ} (hn : s.nextIndex c.hostNodeId = .ok n)
    (hfrom : ∀ i ∈ c'.indices, n ≤ i) :
  ∀ i ∈ c.indices, i ∉ c'.indices
  := by
  obtain ⟨n', hn', hbelow⟩ := hs c.hostNodeId
  obtain rfl : n = n' := ok.inj (hn.symm.trans hn')
  intro i hi hi'
  have hlt := hbelow c hc rfl hstored i hi
  have hge := hfrom i hi'
  omega

/-- An orderly event keeps the indices of accepted batches below the persisted index, which
does not go back. -/
theorem Sound.step (hs : s.Sound) {e : Event} (he : s.Orderly e) :
  (s.step deriveHash e).Sound ∧ s.Advances (s.step deriveHash e)
  := by
  rcases s.step_cases e with ⟨host, requestId, read, signs, rfl, hstep⟩ | hcontinues |
    ⟨k, write, c, orderState, rfl, hk, hphase, hwrite, hvalid, hstep⟩
  · rw [hstep]
    exact ⟨hs.append fun c hc => (newCall_eq_some hc).2.1, s.advances_refl⟩
  · apply hs.continues hcontinues
  · rw [hstep]
    apply hs.store (he c hk) hphase hwrite hvalid

/-- What an orderly event starts offers no index of a batch that the host has accepted. -/
theorem Sound.started (hs : s.Sound) {e : Event} (he : s.Orderly e) (hc : c ∈ s.calls)
    (haccepted : c.accepted = true) {c' : ApayCall} (hc' : c' ∈ s.started deriveHash e)
    (hhost : c'.hostNodeId = c.hostNodeId) :
  ∀ i ∈ c.indices, i ∉ c'.indices
  := by
  unfold ApayClient.started at hc'
  rcases s.step_cases e with ⟨host, requestId, read, signs, rfl, hstep⟩ | ⟨-, hlength, -⟩ |
    ⟨k, write, c0, orderState, rfl, -, -, -, -, hstep⟩
  · rw [hstep, drop_left, Option.mem_toList] at hc'
    obtain ⟨rfl, -, n, hn, hfrom⟩ := newCall_eq_some hc'
    rw [hhost] at hn
    apply hs.disjoint hc (he c hc hhost.symm haccepted) hn hfrom
  · rw [drop_eq_nil_of_le hlength.le] at hc'
    cases hc'
  · rw [hstep, drop_eq_nil_of_le (length_set).le] at hc'
    cases hc'

/-- Along an orderly run the persisted index of no host goes back, and no call offers an
index of a batch that the host had accepted when the call started. -/
theorem nextIndex_advances (deriveHash : ℕ → Except JsonRpcErrorWire PaymentHash)
    (es : List Event) (h : Meets (step deriveHash) Orderly {} es) :
  (∀ before after, es = before ++ after → ∀ host, ∃ m n,
      (run (step deriveHash) {} before).nextIndex host = .ok m
        ∧ (run (step deriveHash) {} es).nextIndex host = .ok n ∧ m ≤ n)
    ∧ ∀ before e after, es = before ++ e :: after →
      let s := run (step deriveHash) {} before
      ∀ c ∈ s.calls, c.accepted = true → ∀ c' ∈ s.started deriveHash e,
        c'.hostNodeId = c.hostNodeId → ∀ i ∈ c.indices, i ∉ c'.indices
  := by
  have hsound (before : List Event) (hmeets : Meets (step deriveHash) Orderly {} before) :
      (run (step deriveHash) {} before).Sound := by
    apply run_invariant (fun s e hs he => (hs.step he).1) sound_empty hmeets
  constructor
  · rintro before after rfl host
    obtain ⟨hbefore, hafter⟩ := meets_append.mp h
    obtain ⟨m, hm, -⟩ := hsound before hbefore host
    have hadvances : (run (step deriveHash) {} before).Advances
        (run (step deriveHash) (run (step deriveHash) {} before) after) := by
      apply run_related advances_refl advances_trans (fun s e hs he => (hs.step he).1)
        (fun s e hs he => (hs.step he).2) (hsound before hbefore) hafter
    obtain ⟨n, hn, hmn⟩ := hadvances host m hm
    refine ⟨m, n, hm, ?_, hmn⟩
    rw [run_append, hn]
  · rintro before e after rfl s c hc haccepted c' hc' hhost
    obtain ⟨hbefore, he, -⟩ := meets_append.mp h
    apply (hsound before hbefore).started he hc haccepted hc' hhost

/-! ### One exchange with a host -/

/-- A call that is not disturbed, and whose batch the host accepts. -/
def exchange (k : ℕ) (host : PublicKey) (requestId : Str) (result : AsyncOrderNewResultWire) :
    List Event :=
  [.start host requestId .works true, .accept k, .reply host requestId (.ok (some result)),
    .resume k .works]

theorem modify_concat (calls : List ApayCall) (c : ApayCall) (f : ApayCall → ApayCall) :
  (calls ++ [c]).modify calls.length f = calls ++ [f c]
  := by
  induction calls with
  | nil => rfl
  | cons a calls ih =>
    rw [cons_append, length_cons, modify_succ_cons, ih, cons_append]

theorem step_reply_last {rows : NextIndexRows} {calls : List ApayCall} {reply : ApayReply}
    (hcalls : ∀ c ∈ calls, c.phase ≠ .waiting) (hc : c.phase = .waiting) :
  step deriveHash ⟨rows, calls ++ [c]⟩ (.reply c.hostNodeId c.requestId reply)
    = ⟨rows, calls ++ [{ c with phase := .answered reply }]⟩
  := by
  have hothers : calls.map (fun c' => if Pending c.hostNodeId c.requestId c' then
      { c' with phase := .answered reply } else c') = calls := by
    conv_rhs => rw [← map_id calls]
    apply map_congr_left
    intro c' hc'
    exact if_neg fun hpending => hcalls c' hc' hpending.1
  rw [step, map_append, hothers, map_singleton, if_pos ⟨hc, rfl, rfl⟩]

theorem step_resume_last {rows : NextIndexRows} {calls : List ApayCall}
    {result : AsyncOrderNewResultWire} (hc : c.phase = .answered (.ok (some result)))
    (hvalid : validateAsyncPaymentsNextHashIndex result.nextIndexExpected = .ok ()) :
  step deriveHash ⟨rows, calls ++ [c]⟩ (.resume calls.length .works)
    = ⟨rows.insert (nextIndexKey c.hostNodeId) (decimalStr result.nextIndexExpected),
      calls ++ [{ c with phase := .finished true }]⟩
  := by
  have hget : (calls ++ [c])[calls.length]? = some c := getElem?_concat_length
  have hset (c' : ApayCall) : (calls ++ [c]).set calls.length c' = calls ++ [c'] := by
    simp
  have hstored : WriteFate.works ≠ .fails
      ∧ validateAsyncPaymentsNextHashIndex result.nextIndexExpected = .ok () :=
    ⟨by decide, hvalid⟩
  simp only [step, hget, proceed, hc, write_rows, if_pos hstored, decide_eq_true hstored, hset]

/-- In an exchange the node offers its next hashes, and stores the index of the reply.  It
is orderly if this index lies above the batch. -/
theorem run_exchange (f : ℕ → PaymentHash) (s : ApayClient) (host : PublicKey)
    (requestId : Str) {n : ℕ} (result : AsyncOrderNewResultWire)
    (hn : s.nextIndex host = .ok n) (hstart : 1 ≤ n)
    (hlast : n + asyncOrderMaxHashBatchSize ≤ asyncPaymentsBip32MaxChildIndex + 1)
    (hcalls : ∀ c ∈ s.calls, c.phase = .finished true)
    (hvalid : validateAsyncPaymentsNextHashIndex result.nextIndexExpected = .ok ()) :
  ∃ params, params.hashes.map AsyncOrderNewHashWire.hashIndex
      = range' n asyncOrderMaxHashBatchSize
    ∧ run (step fun i => .ok (f i)) s (exchange s.calls.length host requestId result)
      = ⟨s.rows.insert (nextIndexKey host) (decimalStr result.nextIndexExpected),
        s.calls ++ [⟨host, requestId, params, .finished true, true⟩]⟩
    ∧ (n + asyncOrderMaxHashBatchSize ≤ result.nextIndexExpected →
      Meets (step fun i => .ok (f i)) Orderly s
        (exchange s.calls.length host requestId result))
  := by
  have hwaiting : ∀ c ∈ s.calls, c.phase ≠ .waiting := by
    intro c hc hphase
    rw [hcalls c hc] at hphase
    cases hphase
  obtain ⟨params, hnew, hindices⟩ := newCall_of_nextIndex f requestId hn
    hstart hlast (fun ⟨c, hc, hpending⟩ => hwaiting c hc hpending.1)
  obtain ⟨rows, calls⟩ := s
  let c : ApayCall := { hostNodeId := host, requestId, params }
  have hstep1 : step (fun i => .ok (f i)) ⟨rows, calls⟩ (.start host requestId .works true)
      = ⟨rows, calls ++ [c]⟩ := by
    rw [step, hnew]
    rfl
  have hstep2 : step (fun i => .ok (f i)) ⟨rows, calls ++ [c]⟩ (.accept calls.length)
      = ⟨rows, calls ++ [{ c with accepted := true }]⟩ := by
    rw [step, change, modify_concat]
  have hstep3 : step (fun i => .ok (f i)) ⟨rows, calls ++ [{ c with accepted := true }]⟩
        (.reply host requestId (.ok (some result)))
      = ⟨rows, calls ++ [⟨host, requestId, params, .answered (.ok (some result)), true⟩]⟩ :=
    step_reply_last hwaiting rfl
  have hstep4 : step (fun i => .ok (f i))
        ⟨rows, calls ++ [⟨host, requestId, params, .answered (.ok (some result)), true⟩]⟩
        (.resume calls.length .works)
      = ⟨rows.insert (nextIndexKey host) (decimalStr result.nextIndexExpected),
        calls ++ [⟨host, requestId, params, .finished true, true⟩]⟩ :=
    step_resume_last rfl hvalid
  refine ⟨params, hindices, ?_, ?_⟩
  · simp only [exchange, run, foldl_cons, foldl_nil, hstep1, hstep2]
    rw [hstep3, hstep4]
  intro habove
  refine ⟨fun c hc _ _ => hcalls c hc, trivial, trivial, ?_, trivial⟩
  simp only [hstep1, hstep2]
  rw [hstep3]
  intro c' hc'
  rw [getElem?_concat_length, Option.mem_some] at hc'
  rw [← hc']
  intro _ _
  constructor
  · intro m hm
    rw [nextIndex] at hn hm
    rw [hn] at hm
    obtain rfl := Option.some.inj hm
    omega
  · intro i hi
    rw [ApayCall.indices, hindices, mem_range'_1] at hi
    omega

/-- The theorem applies to two exchanges with a host that answers as it should. -/
theorem nextIndex_advances_twoCalls :
  let deriveHash : ℕ → Except JsonRpcErrorWire PaymentHash :=
    fun i => .ok (List.Vector.replicate 32 (UInt8.ofNat i))
  let host : PublicKey := List.Vector.replicate 33 2
  let result (n : ℕ) : AsyncOrderNewResultWire := ⟨1, "1", "active", n - 1, n, 200, 200⟩
  let before := exchange 0 host (str "a") (result 201)
  let es := before ++ exchange 1 host (str "b") (result 401)
  Meets (step deriveHash) Orderly {} es
    ∧ ∃ m n, (run (step deriveHash) {} before).nextIndex host = .ok m
      ∧ (run (step deriveHash) {} es).nextIndex host = .ok n ∧ m ≤ n
  := by
  intro deriveHash host result before es
  obtain ⟨params, -, hrun, hfirst⟩ := run_exchange
    (fun i => List.Vector.replicate 32 (UInt8.ofNat i)) {} host (str "a") (n := 1) (result 201)
    rfl le_rfl (by decide) (by simp) (by decide)
  let s : ApayClient := ⟨(∅ : NextIndexRows).insert (nextIndexKey host) (decimalStr 201),
    [⟨host, str "a", params, .finished true, true⟩]⟩
  have hs : run (step deriveHash) {} before = s := hrun
  have hindex : s.nextIndex host = .ok 201 := by
    rw [nextIndex, read_insert (by decide), if_pos rfl]
  obtain ⟨-, -, -, hsecond⟩ := run_exchange
    (fun i => List.Vector.replicate 32 (UInt8.ofNat i)) s host (str "b") (result 401)
    hindex (by decide) (by decide) (by simp [s]) (by decide)
  have hmeets : Meets (step deriveHash) Orderly {} es := by
    rw [meets_append, hs]
    exact ⟨hfirst (by decide), hsecond (by decide)⟩
  exact ⟨hmeets, (nextIndex_advances deriveHash es hmeets).1 before _ rfl host⟩

/-- A host first answers a call as it should, and the next one with the index 1: the node
stores it, and then offers the hashes that the host has accepted again. -/
theorem nextIndex_goes_back :
  let deriveHash : ℕ → Except JsonRpcErrorWire PaymentHash :=
    fun i => .ok (List.Vector.replicate 32 (UInt8.ofNat i))
  let host : PublicKey := List.Vector.replicate 33 2
  let result (n : ℕ) : AsyncOrderNewResultWire := ⟨1, "1", "active", n - 1, n, 200, 200⟩
  let before := exchange 0 host (str "a") (result 201)
  let s := run (step deriveHash) {} (before ++ exchange 1 host (str "b") (result 1))
  (run (step deriveHash) {} before).nextIndex host = .ok 201
    ∧ s.nextIndex host = .ok 1
    ∧ ∃ c ∈ s.calls, c.accepted = true
      ∧ ∃ c' ∈ s.started deriveHash (.start host (str "c") .works true),
        c'.hostNodeId = c.hostNodeId ∧ 200 ∈ c.indices ∧ 200 ∈ c'.indices
  := by
  intro deriveHash host result before s
  have hread (rows : NextIndexRows) (calls : List ApayCall) (n : ℕ)
      (hn : validateAsyncPaymentsNextHashIndex n = .ok ()) :
      nextIndex ⟨rows.insert (nextIndexKey host) (decimalStr n), calls⟩ host = .ok n := by
    rw [nextIndex, read_insert hn, if_pos rfl]
  -- The first batch is accepted, and the index goes from 1 to 201.
  obtain ⟨params₁, hindices₁, hrun₁, -⟩ := run_exchange
    (fun i => List.Vector.replicate 32 (UInt8.ofNat i)) {} host (str "a") (n := 1) (result 201)
    rfl le_rfl (by decide) (by simp) (by decide)
  let s₁ : ApayClient := ⟨(∅ : NextIndexRows).insert (nextIndexKey host) (decimalStr 201),
    [⟨host, str "a", params₁, .finished true, true⟩]⟩
  have hs₁ : run (step deriveHash) {} before = s₁ := hrun₁
  have hindex₁ : s₁.nextIndex host = .ok 201 := hread _ _ 201 (by decide)
  -- The second reply takes it back to 1.
  obtain ⟨params₂, -, hrun₂, -⟩ := run_exchange
    (fun i => List.Vector.replicate 32 (UInt8.ofNat i)) s₁ host (str "b") (result 1)
    hindex₁ (by decide) (by decide) (by simp [s₁]) (by decide)
  have hs : s = ⟨s₁.rows.insert (nextIndexKey host) (decimalStr 1),
      [⟨host, str "a", params₁, .finished true, true⟩,
        ⟨host, str "b", params₂, .finished true, true⟩]⟩ := by
    rw [show s = run (step deriveHash) (run (step deriveHash) {} before)
      (exchange 1 host (str "b") (result 1)) from run_append _ _ _ _, hs₁]
    exact hrun₂
  have hindex : s.nextIndex host = .ok 1 := by
    rw [hs]
    apply hread _ _ 1 (by decide)
  -- The next call starts from there.
  obtain ⟨params₃, hnew, hindices₃⟩ := newCall_of_nextIndex
    (fun i => List.Vector.replicate 32 (UInt8.ofNat i)) (str "c") hindex
    le_rfl (by decide) (by rw [hs]; simp [Pending])
  refine ⟨hs₁ ▸ hindex₁, hindex, ⟨host, str "a", params₁, .finished true, true⟩, by simp [hs], rfl,
    { hostNodeId := host, requestId := str "c", params := params₃ }, ?_, rfl, ?_, ?_⟩
  · rw [started, step, drop_left, Option.mem_toList]
    exact hnew
  · rw [ApayCall.indices, hindices₁, mem_range'_1]
    decide
  · rw [ApayCall.indices, hindices₃, mem_range'_1]
    decide

end ApayClient

end RgbLightning
