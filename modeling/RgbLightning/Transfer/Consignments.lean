import RgbLightning.Transfer.Handler

/-!
# Bytes held for consignments

The node counts the funding transactions of all transfers and records, and accepts no chunk
for one transaction too many.  But it buffers a consignment for every sender of a
transaction, so with one transaction allowed, many peers can make it hold any number of bytes
(`consignmentBytes_exceeded`); `consignmentBytes_le` says when the bytes are bounded.
-/

namespace RgbLightning

open Table StagedPath List AList

namespace FileTransfer

def consignmentSize : StagedPath → StagedFile → ℕ
  | .consignment _, file => file.bytes.length
  | .media _ _, _ => 0

/-- The bytes that the node holds for consignments, in memory and on disk. -/
def consignmentBytes (s : FileTransfer) : ℕ :=
  sum s.reassembly (fun key st => if key.fileKind = .consignment then st.buffered else 0)
    + sum s.files consignmentSize

variable (limits : TransferLimits) (sha256 : Bytes → List.Vector UInt8 32)

/-- A chunk of a consignment is accepted only if no other transfer of a consignment for the
transaction is in progress and none is on disk, and a write leaves no part of a file. -/
def Exclusive (s : FileTransfer) (d : ChunkDelivery) : Prop :=
  d.msg.fileKind = .consignment → s.Accepts limits d →
    (∀ key ∈ s.reassembly.keys, key.fileKind = .consignment →
        key.fundingTxid = d.msg.fundingTxid → key = d.key)
      ∧ consignment d.msg.fundingTxid ∉ s.files
      ∧ (d.write = .works ∨ d.write = .fails)
deriving Decidable

/-- What is counted covers what is held: the transactions are within the limit, each has one
consignment, in memory or on disk, and none is too large. -/
structure Counted (s : FileTransfer) : Prop where
  fundings : s.fundings.card ≤ limits.maxPendingFundings
  recorded : ∀ t, consignment t ∈ s.files →
    ∃ key ∈ s.stagedFundings, key.fundingTxid = t
  file_le : ∀ t file, s.files.lookup (.consignment t) = some file →
    file.bytes.length ≤ maxConsignmentSize
  buffered_le : ∀ key st, s.reassembly.lookup key = some st → key.fileKind = .consignment →
    st.buffered ≤ maxConsignmentSize
  one_transfer : ∀ key ∈ s.reassembly, ∀ key' ∈ s.reassembly, key.fileKind = .consignment →
    key'.fileKind = .consignment → key.fundingTxid = key'.fundingTxid → key = key'
  no_file : ∀ key ∈ s.reassembly, key.fileKind = .consignment →
    consignment key.fundingTxid ∉ s.files

variable {limits sha256} {s : FileTransfer} {d : ChunkDelivery}

/-! ### The bound -/

/-- The transactions of the consignments in memory. -/
def bufferedTxids (s : FileTransfer) : List Str :=
  (s.reassembly.keys.filter fun key => key.fileKind = .consignment).map
    ReassemblyKey.fundingTxid

def isConsignment : StagedPath → Bool
  | .consignment _ => true
  | .media _ _ => false

/-- The transactions of the consignments on disk. -/
def fileTxids (s : FileTransfer) : List Str :=
  (s.files.keys.filter isConsignment).map fundingTxid

theorem mem_bufferedTxids {t : Str} :
  t ∈ s.bufferedTxids
    ↔ ∃ key ∈ s.reassembly, key.fileKind = .consignment ∧ key.fundingTxid = t
  := by
  simp [bufferedTxids, AList.mem_keys, and_assoc]

theorem mem_fileTxids {t : Str} :
  t ∈ s.fileTxids ↔ consignment t ∈ s.files
  := by
  constructor
  · intro h
    obtain ⟨path, hpath, rfl⟩ := mem_map.mp h
    obtain ⟨hpath, hconsignment⟩ := mem_filter.mp hpath
    cases path with
    | consignment t => exact mem_keys.mpr hpath
    | media t id => exact Bool.noConfusion hconsignment
  · intro h
    exact mem_map.mpr ⟨_, mem_filter.mpr ⟨mem_keys.mp h, rfl⟩, rfl⟩

section Counted

variable (h : s.Counted limits)
include h

theorem Counted.nodup :
  (s.bufferedTxids ++ s.fileTxids).Nodup
  := by
  rw [nodup_append']
  refine ⟨?_, ?_, ?_⟩
  · apply Nodup.map_on
    · intro key hkey key' hkey' ht
      rw [mem_filter, decide_eq_true_eq] at hkey hkey'
      exact h.one_transfer key (mem_keys.mpr hkey.1) key' (mem_keys.mpr hkey'.1)
        hkey.2 hkey'.2 ht
    · exact s.reassembly.keys_nodup.filter _
  · apply Nodup.map_on
    · intro path hpath path' hpath' ht
      rw [mem_filter] at hpath hpath'
      cases path with
      | media t id => exact Bool.noConfusion hpath.2
      | consignment t =>
        cases path' with
        | media t' id' => exact Bool.noConfusion hpath'.2
        | consignment t' => exact congrArg consignment ht
    · exact s.files.keys_nodup.filter _
  · intro t ht ht'
    obtain ⟨key, hkey, hkind, rfl⟩ := mem_bufferedTxids.mp ht
    exact h.no_file key hkey hkind (mem_fileTxids.mp ht')

theorem Counted.length_le :
  s.bufferedTxids.length + s.fileTxids.length ≤ limits.maxPendingFundings
  := by
  have hsubset : (s.bufferedTxids ++ s.fileTxids).toFinset ⊆ s.fundings := by
    intro t ht
    rw [mem_toFinset, mem_append] at ht
    rw [mem_fundings]
    rcases ht with ht | ht
    · obtain ⟨key, hkey, -, htxid⟩ := mem_bufferedTxids.mp ht
      exact .inl ⟨key, hkey, htxid⟩
    · exact .inr (h.recorded t (mem_fileTxids.mp ht))
  rw [← length_append, ← toFinset_card_of_nodup h.nodup]
  exact (Finset.card_le_card hsubset).trans h.fundings

theorem Counted.bytes_le :
  s.consignmentBytes ≤ limits.maxPendingFundings * maxConsignmentSize
  := by
  have hbuffered : sum s.reassembly
      (fun key st => if key.fileKind = .consignment then st.buffered else 0)
      ≤ s.bufferedTxids.length * maxConsignmentSize := by
    rw [bufferedTxids, length_map]
    apply sum_le_mul
    intro key st hst
    simp only [decide_eq_true_eq]
    split_ifs with hkind
    · exact h.buffered_le key st hst hkind
    · exact le_rfl
  have hfiles : sum s.files consignmentSize
      ≤ s.fileTxids.length * maxConsignmentSize := by
    rw [fileTxids, length_map]
    apply sum_le_mul
    intro path file hfile
    cases path with
    | consignment t => exact h.file_le t file hfile
    | media t id => exact le_rfl
  calc s.consignmentBytes
      ≤ s.bufferedTxids.length * maxConsignmentSize
          + s.fileTxids.length * maxConsignmentSize := Nat.add_le_add hbuffered hfiles
    _ = (s.bufferedTxids.length + s.fileTxids.length) * maxConsignmentSize :=
        (Nat.add_mul _ _ _).symm
    _ ≤ limits.maxPendingFundings * maxConsignmentSize :=
        Nat.mul_le_mul_right _ h.length_le

/-! ### One chunk -/

variable {s' : FileTransfer}

/-- Nothing is lost when transfers are dropped. -/
theorem Counted.of_subset (hreassembly : ∀ key st, s'.reassembly.lookup key = some st →
      s.reassembly.lookup key = some st) (hstaged : s'.stagedFundings = s.stagedFundings)
    (hfiles : s'.files = s.files) :
  s'.Counted limits
  := by
  have hmem : ∀ key ∈ s'.reassembly, key ∈ s.reassembly := by
    intro key hkey
    obtain ⟨st, hst⟩ := mem_iff_lookup.mp hkey
    exact mem_iff_lookup.mpr ⟨st, hreassembly key st hst⟩
  constructor
  · apply (Finset.card_le_card _).trans h.fundings
    intro t ht
    rw [mem_fundings] at ht ⊢
    rw [hstaged] at ht
    apply ht.imp_left
    rintro ⟨key, hkey, htxid⟩
    exact ⟨key, hmem key hkey, htxid⟩
  · rw [hfiles, hstaged]
    exact h.recorded
  · rw [hfiles]
    exact h.file_le
  · intro key st hst
    exact h.buffered_le key st (hreassembly key st hst)
  · intro key hkey key' hkey'
    exact h.one_transfer key (hmem key hkey) key' (hmem key' hkey')
  · rw [hfiles]
    intro key hkey
    exact h.no_file key (hmem key hkey)

omit h in
/-- An accepted chunk begins no transaction too many. -/
theorem Accepts.card_fundings_le (ha : s.Accepts limits d)
    (h : s.fundings.card ≤ limits.maxPendingFundings)
    (hsubset : s'.fundings ⊆ insert d.msg.fundingTxid s.fundings) :
  s'.fundings.card ≤ limits.maxPendingFundings
  := by
  apply (Finset.card_le_card hsubset).trans
  by_cases hknown : d.msg.fundingTxid ∈ s.fundings
  · rwa [Finset.insert_eq_of_mem hknown]
  · rw [Finset.card_insert_of_notMem hknown]
    by_contra hfull
    apply ha.withinLimits
    left
    exact ⟨hknown, by omega⟩

omit h in
theorem Accepts.prospective_le (ha : s.Accepts limits d)
    (hkind : d.msg.fileKind = .consignment) :
  s.prospective d ≤ maxConsignmentSize
  := by
  by_contra hlt
  apply ha.withinLimits
  right; right; right
  exact ⟨hkind, not_le.mp hlt⟩

theorem Counted.insert (he : s.Exclusive limits d) (ha : s.Accepts limits d) :
  Counted limits
    { s with reassembly := s.reassembly.insert d.key (s.buffer d ha.wellFormed) }
  := by
  constructor
  · apply ha.card_fundings_le h.fundings
    intro t ht
    rw [Finset.mem_insert]
    rw [mem_fundings] at ht ⊢
    rcases ht with ⟨key, hkey, rfl⟩ | hstaged
    · rcases (mem_insert _).mp hkey with rfl | hkey
      · exact .inl rfl
      · exact .inr (.inl ⟨key, hkey, rfl⟩)
    · exact .inr (.inr hstaged)
  · exact h.recorded
  · exact h.file_le
  · intro key st hst hkind
    rw [lookup_insert_eq] at hst
    split_ifs at hst with hkey
    · rw [← Option.some.inj hst, buffer_buffered]
      rw [hkey] at hkind
      exact ha.prospective_le hkind
    · exact h.buffered_le key st hst hkind
  · intro key hkey key' hkey' hkind hkind' ht
    rcases (mem_insert _).mp hkey with rfl | hkey
    · rcases (mem_insert _).mp hkey' with rfl | hkey'
      · rfl
      · exact ((he hkind ha).1 key' (mem_keys.mp hkey') hkind' ht.symm).symm
    · rcases (mem_insert _).mp hkey' with rfl | hkey'
      · exact (he hkind' ha).1 key (mem_keys.mp hkey) hkind ht
      · exact h.one_transfer key hkey key' hkey' hkind hkind' ht
  · intro key hkey hkind
    rcases (mem_insert _).mp hkey with rfl | hkey
    · exact (he hkind ha).2.1
    · exact h.no_file key hkey hkind

theorem Counted.erase (key : ReassemblyKey) :
  Counted limits { s with reassembly := s.reassembly.erase key }
  := h.of_subset (fun _ _ hst => lookup_of_lookup_erase hst) rfl rfl

theorem Counted.stage (he : s.Exclusive limits d) (ha : s.Accepts limits d)
    (hkind : d.msg.fileKind = .consignment) (r : FundingStagingRecord) {bytes : Bytes}
    (hbytes : bytes.length ≤ maxConsignmentSize) :
  Counted limits
    { reassembly := s.reassembly.erase d.key
      stagedFundings := s.stagedFundings.insert d.key.staging r
      files := s.files.insert (.consignment d.msg.fundingTxid) ⟨d.sender, bytes⟩ }
  := by
  have h' := h.erase d.key
  constructor
  · apply ha.card_fundings_le h.fundings
    intro t ht
    rw [Finset.mem_insert]
    rw [mem_fundings] at ht ⊢
    rcases ht with ⟨key, hkey, rfl⟩ | ⟨key, hkey, rfl⟩
    · exact .inr (.inl ⟨key, (mem_erase.mp hkey).2, rfl⟩)
    · rcases (mem_insert _).mp hkey with rfl | hkey
      · exact .inl rfl
      · exact .inr (.inr ⟨key, hkey, rfl⟩)
  · intro t ht
    rcases (mem_insert _).mp ht with hnew | hold
    · exact ⟨d.key.staging, (mem_insert _).mpr (.inl rfl),
        (consignment.inj hnew).symm⟩
    · obtain ⟨key, hkey, htxid⟩ := h.recorded t hold
      exact ⟨key, (mem_insert _).mpr (.inr hkey), htxid⟩
  · intro t file hfile
    rw [lookup_insert_eq] at hfile
    split_ifs at hfile with ht
    · rw [← Option.some.inj hfile]
      exact hbytes
    · exact h.file_le t file hfile
  · exact h'.buffered_le
  · exact h'.one_transfer
  · intro key hkey hkind' hfile
    obtain ⟨hne, hkey⟩ := mem_erase.mp hkey
    rcases (mem_insert _).mp hfile with ht | hfile
    · apply hne
      exact (he hkind ha).1 key (mem_keys.mp hkey) hkind' (consignment.inj ht)
    · exact h.no_file key hkey hkind' hfile

/-- A media file that is written, whole or in part, counts for nothing. -/
theorem Counted.media (hreassembly : s'.reassembly = s.reassembly)
    (hstaged : ∀ key, key ∈ s'.stagedFundings ↔ key ∈ s.stagedFundings)
    (hfiles : ∀ t, s'.files.lookup (.consignment t) = s.files.lookup (.consignment t)) :
  s'.Counted limits
  := by
  have hmem : ∀ t, consignment t ∈ s'.files ↔ .consignment t ∈ s.files := by
    intro t
    rw [mem_iff_lookup, mem_iff_lookup, hfiles]
  have hfundings : s'.fundings = s.fundings := by
    ext t
    rw [mem_fundings, mem_fundings, hreassembly]
    simp only [hstaged]
  constructor
  · rw [hfundings]
    exact h.fundings
  · intro t ht
    obtain ⟨key, hkey, htxid⟩ := h.recorded t ((hmem t).mp ht)
    exact ⟨key, (hstaged key).mpr hkey, htxid⟩
  · intro t file hfile
    rw [hfiles] at hfile
    exact h.file_le t file hfile
  · rw [hreassembly]
    exact h.buffered_le
  · rw [hreassembly]
    exact h.one_transfer
  · rw [hreassembly]
    intro key hkey hkind hfile
    exact h.no_file key hkey hkind ((hmem _).mp hfile)

theorem Counted.handleChunk (he : s.Exclusive limits d) :
  (s.handleChunk limits sha256 d).Counted limits
  := by
  rw [FileTransfer.handleChunk]
  cases hout : s.chunkOutcome limits d with
  | ignored => exact h
  | dropped => exact h.erase d.key
  | buffered st =>
    obtain ⟨ha, rfl⟩ := chunkOutcome_eq_buffered hout
    exact h.insert he ha
  | complete bytes =>
    obtain ⟨ha, rfl⟩ := chunkOutcome_eq_complete hout
    have hlen := (s.buffer d ha.wellFormed).length_bytes_le
    rw [buffer_buffered] at hlen
    dsimp only
    have hpersists : Persists limits sha256 _ d.key _ d.now d.write _ :=
      persists_persistFile { s with reassembly := s.reassembly.erase d.key } d.key
        (s.buffer d ha.wellFormed).bytes d.now d.write
    generalize persistFile limits sha256 _ d.key _ d.now d.write = s' at hpersists ⊢
    cases hpersists with
    | nothing => exact h.erase d.key
    | consignment hkind _ _ =>
      rcases (he hkind ha).2.2 with hwrite | hwrite
      · rw [hwrite]
        exact h.stage he ha hkind _ (hlen.trans (ha.prospective_le hkind))
      · rw [hwrite]
        exact h.erase d.key
    | media r _ _ hr _ _ _ =>
      apply (h.erase d.key).media
      · simp
      · intro key
        rw [stagedFundings_record, stagedFundings_writeFile]
        split_ifs
        · rw [mem_insert]
          apply or_iff_right_of_imp
          rintro rfl
          exact mem_iff_lookup.mpr ⟨r, hr⟩
        · rfl
      · intro t
        rw [files_record]
        exact lookup_writeFile_ne (fun h => StagedPath.noConfusion h)

end Counted

/-! ### Every run -/

/-- Whatever chunks arrive, if each of them is exclusive, the bytes held for consignments are
at most the number of pending fundings times the largest size of a consignment. -/
theorem consignmentBytes_le {ds : List ChunkDelivery}
    (h : Run.Meets (handleChunk limits sha256) (Exclusive limits) {} ds) :
  (Run.run (handleChunk limits sha256) {} ds).consignmentBytes
    ≤ limits.maxPendingFundings * maxConsignmentSize
  := by
  have hstart : Counted limits {} := by
    constructor
    · exact Nat.zero_le _
    · intro t ht
      exact absurd ht (notMem_empty _)
    · intro t file hfile
      exact absurd hfile.symm (Option.some_ne_none file)
    · intro key st hst
      exact absurd hst.symm (Option.some_ne_none st)
    · intro key hkey
      exact absurd hkey (notMem_empty key)
    · intro key hkey
      exact absurd hkey (notMem_empty key)
  have hrun := Run.run_invariant (fun s d hs hd => hs.handleChunk hd) hstart h
  exact hrun.bytes_le

/-- A consignment of one byte from each of two peers, for transactions of their own. -/
theorem consignmentBytes_le_twoPeers :
  let sha256 : Bytes → List.Vector UInt8 32 := fun b => .replicate 32 (b.headD 0)
  let ds := [sampleChunk (.replicate 33 2) .consignment (hexStr (.replicate 32 7)) [] 1 0,
    sampleChunk (.replicate 33 3) .consignment (hexStr (.replicate 32 8)) [] 1 0]
  Run.Meets (handleChunk ⟨2, 100, 10⟩ sha256) (Exclusive ⟨2, 100, 10⟩) {} ds
    ∧ (Run.run (handleChunk ⟨2, 100, 10⟩ sha256) {} ds).consignmentBytes = 2
    ∧ (Run.run (handleChunk ⟨2, 100, 10⟩ sha256) {} ds).consignmentBytes
      ≤ 2 * maxConsignmentSize
  := by
  intro sha256 ds
  have h : Run.Meets (handleChunk ⟨2, 100, 10⟩ sha256) (Exclusive ⟨2, 100, 10⟩) {} ds := by
    decide +kernel
  exact ⟨h, by decide +kernel, consignmentBytes_le h⟩

/-! ### Many peers -/

def numberedPeer (i : ℕ) : PublicKey :=
  ⟨BigEndian.toBytes 33 i, BigEndian.length_toBytes 33 i⟩

theorem numberedPeer_inj {i j : ℕ} (hi : i < 65536) (hj : j < 65536)
    (h : numberedPeer i = numberedPeer j) :
  i = j
  := by
  have hfits : 65536 ≤ 256 ^ 33 := by norm_num
  rw [numberedPeer, numberedPeer] at h
  have hbytes := Subtype.mk.inj h
  rw [← BigEndian.ofBytes_toBytes (Nat.lt_of_lt_of_le hi hfits), hbytes,
    BigEndian.ofBytes_toBytes (Nat.lt_of_lt_of_le hj hfits)]

/-- The first of two chunks of a consignment, from a numbered peer, with `chunkSize` bytes.
All peers name the same funding transaction. -/
def crowdChunk (i : ℕ) : ChunkDelivery :=
  ⟨⟨fun _ => 1, fun _ => false⟩,
    ⟨.consignment, hexStr (.replicate 32 7), [], 0, 2, .replicate chunkSize 0⟩,
    numberedPeer i, 0, .works⟩

/-- The first chunks of the consignments of `n` peers are buffered, and nothing else is
held. -/
structure Crowded (n : ℕ) (s : FileTransfer) : Prop where
  stagedFundings : s.stagedFundings = ∅
  files : s.files = ∅
  keys : ∀ key ∈ s.reassembly, ∃ i < n, key = (crowdChunk i).key
  known : 0 < n → hexStr (.replicate 32 7) ∈ s.fundings
  bytes : s.consignmentBytes = n * chunkSize

theorem Crowded.notMem {n : ℕ} (h : Crowded n s) (hn : n < 65536) :
  (crowdChunk n).key ∉ s.reassembly
  := by
  intro hmem
  obtain ⟨i, hi, hkey⟩ := h.keys _ hmem
  have hpeer := congrArg ReassemblyKey.peer hkey
  exact hi.ne (numberedPeer_inj hn (hi.trans hn) hpeer).symm

/-- The chunk of one more peer is accepted: its transaction is the one that is pending, and
its own consignment is small. -/
theorem Crowded.accepts {n : ℕ} (h : Crowded n s) (hn : n < 65536) :
  s.Accepts ⟨1, 0, 0⟩ (crowdChunk n)
  := by
  have hnone := lookup_eq_none.mpr (h.notMem hn)
  constructor
  · exact Nat.one_ne_zero
  · exact Bool.false_ne_true
  · rintro (h | h | h | h | h)
    · simp [crowdChunk] at h
    · simp [crowdChunk] at h
    · simp [crowdChunk, ChunkDelivery.validLen] at h
    · simp [hnone] at h
    · simp [hnone] at h
  · rintro (⟨hnew, hfull⟩ | ⟨hkind, -⟩ | ⟨hkind, -⟩ | ⟨-, hlarge⟩)
    · -- nobody has begun
      have hzero : n = 0 := by
        by_contra hpos
        exact hnew (h.known (Nat.pos_of_ne_zero hpos))
      have hempty : s.fundings = ∅ := by
        rw [Finset.eq_empty_iff_forall_notMem]
        intro t ht
        rcases mem_fundings.mp ht with ⟨key, hkey, -⟩ | ⟨key, hkey, -⟩
        · obtain ⟨i, hi, -⟩ := h.keys key hkey
          omega
        · rw [h.stagedFundings] at hkey
          exact absurd hkey (notMem_empty key)
      rw [hempty] at hfull
      exact absurd hfull (by decide)
    · exact FileKind.noConfusion hkind
    · exact FileKind.noConfusion hkind
    · rw [prospective, hnone, Option.elim_none] at hlarge
      simp only [crowdChunk, length_replicate] at hlarge
      exact absurd hlarge (by decide)

theorem Crowded.handleChunk {n : ℕ} (h : Crowded n s) (hn : n < 65536) :
  Crowded (n + 1) (s.handleChunk ⟨1, 0, 0⟩ sha256 (crowdChunk n))
  := by
  have ha := h.accepts hn
  have hnone := lookup_eq_none.mpr (h.notMem hn)
  have hincomplete : ¬ (s.buffer (crowdChunk n) ha.wellFormed).complete = true := by
    rw [ReassemblyState.complete_iff, buffer_totalChunks]
    intro hall
    have hmem := hall 1 Nat.one_lt_two
    have hindex : 1 ≠ (crowdChunk n).msg.chunkIndex := Nat.one_ne_zero
    rw [mem_iff_lookup, lookup_buffer, if_neg hindex, entry, hnone] at hmem
    obtain ⟨data, hdata⟩ := hmem
    exact absurd hdata.symm (Option.some_ne_none data)
  have hout := chunkOutcome_of_accepts ha
  rw [if_neg hincomplete] at hout
  rw [FileTransfer.handleChunk, hout]
  constructor
  · exact h.stagedFundings
  · exact h.files
  · intro key hkey
    rcases (mem_insert _).mp hkey with rfl | hkey
    · exact ⟨n, Nat.lt_succ_self n, rfl⟩
    · obtain ⟨i, hi, rfl⟩ := h.keys key hkey
      exact ⟨i, hi.trans (Nat.lt_succ_self n), rfl⟩
  · intro _
    rw [mem_fundings]
    exact .inl ⟨(crowdChunk n).key, (mem_insert _).mpr (.inl rfl), rfl⟩
  · have hbytes := h.bytes
    rw [consignmentBytes, sum_eq_erase _ _ (crowdChunk n).key, hnone, Option.elim_none]
      at hbytes
    have hkind : (crowdChunk n).key.fileKind = .consignment := rfl
    have hlen : (crowdChunk n).msg.data.length = chunkSize := length_replicate
    rw [consignmentBytes, sum_insert, buffer_buffered, prospective, hnone,
      Option.elim_none, if_pos hkind, hlen, Nat.succ_mul]
    dsimp only
    omega

/-- Each peer makes the node hold a chunk, with one pending funding. -/
theorem crowded_run (sha256 : Bytes → List.Vector UInt8 32) {n : ℕ} (hn : n ≤ 65536) :
  Crowded n (Run.run (FileTransfer.handleChunk ⟨1, 0, 0⟩ sha256) {}
    ((range n).map crowdChunk))
  := by
  induction n with
  | zero =>
    constructor
    · rfl
    · rfl
    · intro key hkey
      exact absurd hkey (notMem_empty key)
    · intro h
      exact absurd h (Nat.lt_irrefl 0)
    · rfl
  | succ n ih =>
    have hlt : n < 65536 := Nat.lt_of_succ_le hn
    rw [range_succ, map_append, map_singleton, Run.run_concat]
    exact (ih hlt.le).handleChunk hlt

/-- With one funding allowed, 280 peers that send one full chunk each for the same
transaction make the node hold more than the largest consignment. -/
theorem consignmentBytes_exceeded :
  1 * maxConsignmentSize
    < (Run.run (FileTransfer.handleChunk ⟨1, 0, 0⟩ fun _ => .replicate 32 0) {}
        ((range 280).map crowdChunk)).consignmentBytes
  := by
  have hn : 280 ≤ 65536 := by decide
  have hlt : 1 * maxConsignmentSize < 280 * chunkSize := by decide
  exact hlt.trans_eq (crowded_run _ hn).bytes.symm

/-! ### Files and records -/

variable (sha256) in
/-- What may be on disk: a consignment of an allowed size, or a beginning of media with the
digest that names the file. -/
def Genuine : StagedPath → Bytes → Prop
  | .consignment _, content => content.length ≤ maxConsignmentSize
  | .media _ id, content => ∃ bytes, content <+: bytes ∧ digest sha256 bytes = id

variable (limits) in
def WithinBudget (r : FundingStagingRecord) : Prop :=
  r.stagedMediaBytes ≤ limits.maxMediaBytesPerChannel
    ∧ r.stagedMediaCount ≤ limits.maxMediaFilesPerChannel

variable (limits sha256) in
structure Sound (s : FileTransfer) : Prop where
  file : ∀ path file, s.files.lookup path = some file → Genuine sha256 path file.bytes
  record : ∀ key r, s.stagedFundings.lookup key = some r → WithinBudget limits r
  size_le : size s.stagedFundings ≤ limits.maxPendingFundings

theorem Genuine.mono {path : StagedPath} {content bytes : Bytes}
    (h : Genuine sha256 path bytes) (hle : content <+: bytes) :
  Genuine sha256 path content
  := by
  cases path with
  | consignment t => exact hle.length_le.trans h
  | media t id =>
    obtain ⟨all, hall, hid⟩ := h
    exact ⟨all, hle.trans hall, hid⟩

theorem Sound.write {path : StagedPath} {peer : PublicKey} {bytes : Bytes} {write : FileWrite}
    {key : FundingStagingKey} {r : FundingStagingRecord} (h : s.Sound limits sha256)
    (hpath : Genuine sha256 path bytes) (hr : WithinBudget limits r)
    (hkey : key ∈ s.stagedFundings ∨ size s.stagedFundings < limits.maxPendingFundings) :
  ((s.writeFile path peer bytes write).record key r write).Sound limits sha256
  := by
  have hfile : ∀ content, content <+: bytes → ∀ path' file,
      (s.files.insert path ⟨peer, content⟩).lookup path' = some file →
      Genuine sha256 path' file.bytes := by
    intro content hcontent path' file hfile
    rw [lookup_insert_eq] at hfile
    split_ifs at hfile with heq
    · rw [heq, ← Option.some.inj hfile]
      exact hpath.mono hcontent
    · exact h.file path' file hfile
  cases write with
  | works =>
    refine ⟨hfile bytes prefix_rfl, fun key' r' hr' => ?_, ?_⟩
    · rw [stagedFundings_record, if_pos rfl, lookup_insert_eq] at hr'
      split_ifs at hr'
      · rw [← Option.some.inj hr']
        exact hr
      · exact h.record key' r' hr'
    · rw [stagedFundings_record, if_pos rfl]
      by_cases hmem : key ∈ s.stagedFundings
      · exact (size_insert_of_mem _ r hmem).trans_le h.size_le
      · exact (size_insert_of_notMem _ r hmem).trans_le (hkey.resolve_left hmem)
  | fails => exact h
  | leaves n => exact ⟨hfile _ ( take_prefix n bytes), h.record, h.size_le⟩

theorem Sound.step (h : s.Sound limits sha256) (e : Event) :
  (s.step limits sha256 e).Sound limits sha256
  := by
  cases e with
  | chunk d =>
    rcases handleChunk_cases limits sha256 s d with ⟨hfiles, hstaged⟩ | ⟨bytes, hout, hpersists⟩
    · exact ⟨fun path file hfile => h.file path file (hfiles ▸ hfile),
        fun key r hr => h.record key r (hstaged ▸ hr), hstaged ▸ h.size_le⟩
    · have hs : Sound limits sha256 { s with reassembly := s.reassembly.erase d.key } :=
        ⟨h.file, h.record, h.size_le⟩
      rw [FileTransfer.step]
      generalize s.handleChunk limits sha256 d = s' at hpersists ⊢
      cases hpersists with
      | nothing => exact hs
      | consignment hkind _ hroom =>
        obtain ⟨ha, rfl⟩ := chunkOutcome_eq_complete hout
        apply hs.write _ ⟨Nat.zero_le _, Nat.zero_le _⟩ (.inr hroom)
        have hlen := (s.buffer d ha.wellFormed).length_bytes_le
        rw [buffer_buffered] at hlen
        exact hlen.trans (ha.prospective_le hkind)
      | media r _ hdigest hr _ hbytes hcount =>
        exact hs.write ⟨bytes, prefix_rfl, hdigest⟩ ⟨hbytes, hcount⟩
          (.inl (mem_iff_lookup.mpr ⟨r, hr⟩))
  | peerDisconnected peer => exact ⟨h.file, h.record, h.size_le⟩
  | sweepStaleTransfers now => exact ⟨h.file, h.record, h.size_le⟩
  | sweepUnfundedStagings gate now survives =>
    exact ⟨fun path file hfile => h.file path file (lookup_of_lookup_retain hfile).1,
      fun key r hr => h.record key r (lookup_of_lookup_retain hr).1,
      size_retain_le.trans h.size_le⟩
  | forgetStagedFunding t survives =>
    refine ⟨fun path file hfile => h.file path file ?_,
      fun key r hr => h.record key r (lookup_of_lookup_retain hr).1,
      size_retain_le.trans h.size_le⟩
    cases survives with
    | false => exact lookup_of_lookup_erase hfile
    | true => exact hfile

/-- Whatever arrives, the node has on disk only consignments of an allowed size and beginnings
of media with the digest in their names, there are no more records than allowed, and no record
exceeds the limits for media. -/
theorem staged_sound (limits : TransferLimits) (sha256 : Bytes → List.Vector UInt8 32)
    (es : List Event) :
  (Run.run (FileTransfer.step limits sha256) {} es).Sound limits sha256
  := by
  refine Run.run_invariant (fun _ e h _ => h.step e) ⟨?_, ?_, Nat.zero_le _⟩
    (Run.meets_of_forall (fun _ _ => trivial) _ es)
  · intro path file hfile
    simp at hfile
  · intro key r hr
    simp at hr

end FileTransfer

end RgbLightning
