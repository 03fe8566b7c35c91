import RgbLightning.Transfer.Message
import RgbLightning.Lib.Run

/-!
# Receiving RGB files

A node collects the chunks that its channel counterparties send, and writes a complete file
to disk: the consignment of a funding, or a media file into the staging directory of the
funding.  Transfers in progress are kept for every sender and file, and a consignment that
was written leaves a record for its sender and its funding transaction, while the files on
disk are named by the funding transaction alone.

`step` is what the node does in each event.  The channels of the node, the time and the fate
of every file operation come with the event.
-/

namespace RgbLightning

open Table

def maxConsignmentSize : ℕ := 16 * 1024 * 1024

/-- The time, in seconds, after which a transfer without progress is dropped. -/
def reassemblyTtl : ℕ := 600

/-- The time, in seconds, that a consignment without a funding is kept. -/
def consignmentTtl : ℕ := 600

/-- The limits that the operator sets. -/
structure TransferLimits where
  maxPendingFundings : ℕ
  maxMediaBytesPerChannel : ℕ
  maxMediaFilesPerChannel : ℕ

/-- What the node knows about its channels. -/
structure PeerChannelGate where
  channelCountWith : PublicKey → ℕ
  hasChannelFundedBy : Str → Bool

/-- The transfer to which a chunk belongs. -/
structure ReassemblyKey where
  peer : PublicKey
  fileKind : FileKind
  fundingTxid : Str
  fileId : Str
deriving DecidableEq

/-- The funding to which staged files belong. -/
structure FundingStagingKey where
  peer : PublicKey
  fundingTxid : Str
deriving DecidableEq

/-- What is recorded of a funding: when its consignment was written, and how much media
was staged for it. -/
structure FundingStagingRecord where
  writtenAt : ℕ
  stagedMediaBytes : ℕ
  stagedMediaCount : ℕ
deriving DecidableEq

/-- A transfer in progress.  `buffered` is the number of bytes of the chunks held. -/
structure ReassemblyState where
  totalChunks : ℕ
  chunks : Table ℕ Bytes
  buffered : ℕ
  lastProgress : ℕ
  buffered_eq : buffered = sum chunks fun _ data => data.length

namespace ReassemblyState

/-- A transfer of which nothing has arrived. -/
def new (now : ℕ) : ReassemblyState :=
  ⟨0, ∅, 0, now, rfl⟩

/-- A transfer after one more chunk.  The first chunk determines how many there are. -/
def add (st : ReassemblyState) (index : ℕ) (data : Bytes) (total now : ℕ)
    (h : index ∉ st.chunks) : ReassemblyState where
  totalChunks := if st.totalChunks = 0 then total else st.totalChunks
  chunks := st.chunks.insert index data
  buffered := st.buffered + data.length
  lastProgress := now
  buffered_eq := by
    rw [sum_insert, st.buffered_eq, sum_eq_erase st.chunks _ index,
      AList.lookup_eq_none.mpr h, Option.elim_none, zero_add, add_comm]

/-- Whether every chunk has arrived. -/
def complete (st : ReassemblyState) : Bool :=
  (List.range st.totalChunks).all fun i => i ∈ st.chunks

/-- The bytes of the chunks, in order. -/
def bytes (st : ReassemblyState) : Bytes :=
  (List.range st.totalChunks).flatMap fun i => (st.chunks.lookup i).getD []

theorem complete_iff {st : ReassemblyState} :
  st.complete = true ↔ ∀ i < st.totalChunks, i ∈ st.chunks
  := by
  simp [complete]

theorem length_bytes_le (st : ReassemblyState) :
  st.bytes.length ≤ st.buffered
  := by
  have hlen : ∀ i, ((st.chunks.lookup i).getD []).length
      = (st.chunks.lookup i).elim 0 List.length := by
    intro i
    cases st.chunks.lookup i <;> rfl
  rw [bytes, List.length_flatMap, st.buffered_eq]
  simp only [hlen]
  exact sum_lookup_le _ _ List.nodup_range

end ReassemblyState

/-- The files that the node writes: `consignment_<txid>`, and the files of the directory
`media_staging_<txid>`. -/
inductive StagedPath where
  | consignment (fundingTxid : Str)
  | media (fundingTxid digest : Str)
deriving DecidableEq

def StagedPath.fundingTxid : StagedPath → Str
  | consignment t => t
  | media t _ => t

/-- A file on disk.  `writer` is the peer whose transfer wrote it, which the node does not
store. -/
structure StagedFile where
  writer : PublicKey
  bytes : Bytes
deriving DecidableEq

/-- What becomes of `fs::write`: the file is written, it is left as it was, or a part of
the bytes is written before the error. -/
inductive FileWrite where
  | works
  | fails
  | leaves (n : ℕ)
deriving DecidableEq

def FileWrite.content (bytes : Bytes) : FileWrite → Option Bytes
  | works => some bytes
  | fails => none
  | leaves n => some (bytes.take n)

structure FileTransfer where
  reassembly : Table ReassemblyKey ReassemblyState := ∅
  stagedFundings : Table FundingStagingKey FundingStagingRecord := ∅
  files : Table StagedPath StagedFile := ∅

/-- A chunk that arrives: the message and its sender, the channels, the time, and what
becomes of a write. -/
structure ChunkDelivery where
  gate : PeerChannelGate
  msg : RgbFileMessage
  sender : PublicKey
  now : ℕ
  write : FileWrite

namespace ChunkDelivery

def key (d : ChunkDelivery) : ReassemblyKey :=
  ⟨d.sender, d.msg.fileKind, d.msg.fundingTxid, d.msg.fileId⟩

/-- Whether a chunk has a length that its sender gives to it: all chunks but the last are
full, and no chunk is empty. -/
def validLen (d : ChunkDelivery) : Bool :=
  if d.msg.chunkIndex = d.msg.totalChunks - 1 then
    1 ≤ d.msg.data.length && d.msg.data.length ≤ chunkSize
  else
    d.msg.data.length = chunkSize

end ChunkDelivery

namespace ReassemblyKey

/-- The record to which a transfer belongs. -/
def staging (key : ReassemblyKey) : FundingStagingKey :=
  ⟨key.peer, key.fundingTxid⟩

/-- Whether a transfer is one of a media file for a funding. -/
def IsMediaFor (t : Str) (key : ReassemblyKey) : Prop :=
  key.fileKind = .media ∧ key.fundingTxid = t
deriving Decidable

end ReassemblyKey

/-- The bytes buffered for the media files of a funding. -/
def mediaBuffered (reassembly : Table ReassemblyKey ReassemblyState) (t : Str) : ℕ :=
  sum reassembly fun key st => if key.IsMediaFor t then st.buffered else 0

/-- The number of media files of a funding that are in flight. -/
def mediaInFlight (reassembly : Table ReassemblyKey ReassemblyState) (t : Str) : ℕ :=
  sum reassembly fun key _ => if key.IsMediaFor t then 1 else 0

namespace FileTransfer

/-- The funding transactions with a transfer in progress or a record. -/
def fundings (s : FileTransfer) : Finset Str :=
  (s.reassembly.keys.map ReassemblyKey.fundingTxid).toFinset
    ∪ (s.stagedFundings.keys.map FundingStagingKey.fundingTxid).toFinset

/-- The state of a transfer, a new one if nothing has arrived. -/
def entry (s : FileTransfer) (key : ReassemblyKey) (now : ℕ) : ReassemblyState :=
  (s.reassembly.lookup key).getD (.new now)

/-- The bytes buffered for a file, with one more chunk. -/
def prospective (s : FileTransfer) (d : ChunkDelivery) : ℕ :=
  (s.reassembly.lookup d.key).elim 0 ReassemblyState.buffered + d.msg.data.length

/-- Whether a chunk belongs to no stream that a correct sender emits. -/
def Malformed (s : FileTransfer) (d : ChunkDelivery) : Prop :=
  d.msg.totalChunks = 0 ∨ d.msg.totalChunks ≤ d.msg.chunkIndex ∨ d.validLen = false
    ∨ (s.reassembly.lookup d.key).any (fun st => d.msg.chunkIndex ∈ st.chunks)
    ∨ (s.reassembly.lookup d.key).any (fun st => st.totalChunks ≠ d.msg.totalChunks)
deriving Decidable

theorem notMem_entry {s : FileTransfer} {d : ChunkDelivery} (h : ¬ s.Malformed d) :
  d.msg.chunkIndex ∉ (s.entry d.key d.now).chunks
  := by
  intro hmem
  apply h
  right; right; right; left
  rw [entry] at hmem
  cases hst : s.reassembly.lookup d.key with
  | none =>
    rw [hst] at hmem
    exact absurd hmem (AList.notMem_empty _)
  | some st =>
    rw [hst] at hmem
    exact decide_eq_true hmem

theorem mem_fundings {s : FileTransfer} {t : Str} :
  t ∈ s.fundings ↔ (∃ key ∈ s.reassembly, key.fundingTxid = t)
    ∨ ∃ key ∈ s.stagedFundings, key.fundingTxid = t
  := by
  simp [fundings, AList.mem_keys]

variable (limits : TransferLimits)

/-- Whether a chunk would exceed a limit: it begins one funding too many, or the media of
its funding becomes too large or too many files, or its consignment becomes too large. -/
def Refused (s : FileTransfer) (d : ChunkDelivery) : Prop :=
  let record := s.stagedFundings.lookup d.key.staging
  (d.msg.fundingTxid ∉ s.fundings ∧ limits.maxPendingFundings ≤ s.fundings.card)
    ∨ (d.msg.fileKind = .media
      ∧ limits.maxMediaBytesPerChannel
        < mediaBuffered (s.reassembly.erase d.key) d.msg.fundingTxid + s.prospective d
          + record.elim 0 FundingStagingRecord.stagedMediaBytes)
    ∨ (d.msg.fileKind = .media ∧ d.key ∉ s.reassembly
      ∧ limits.maxMediaFilesPerChannel
        ≤ mediaInFlight s.reassembly d.msg.fundingTxid
          + record.elim 0 FundingStagingRecord.stagedMediaCount)
    ∨ (d.msg.fileKind = .consignment ∧ maxConsignmentSize < s.prospective d)
deriving Decidable

inductive ChunkOutcome where
  | ignored
  | dropped
  | buffered (st : ReassemblyState)
  | complete (bytes : Bytes)

def ChunkOutcome.isComplete : ChunkOutcome → Bool
  | complete _ => true
  | _ => false

def buffer (s : FileTransfer) (d : ChunkDelivery) (h : ¬ s.Malformed d) : ReassemblyState :=
  (s.entry d.key d.now).add d.msg.chunkIndex d.msg.data d.msg.totalChunks d.now
    (notMem_entry h)

/-- What the node does with a chunk: the sender and the funding are checked against the
channels, a malformed stream is dropped, and a chunk above a limit is ignored. -/
def chunkOutcome (s : FileTransfer) (d : ChunkDelivery) : ChunkOutcome :=
  if d.gate.channelCountWith d.sender = 0 then .ignored
  else if d.gate.hasChannelFundedBy d.msg.fundingTxid then .ignored
  else if h : s.Malformed d then .dropped
  else if s.Refused limits d then .ignored
  else if (s.buffer d h).complete then .complete (s.buffer d h).bytes
  else .buffered (s.buffer d h)

variable (sha256 : Bytes → List.Vector UInt8 32)

/-- The name of a media file: the digest of its bytes. -/
def digest (bytes : Bytes) : Str :=
  hexStr (sha256 bytes).toList

def writeFile (s : FileTransfer) (path : StagedPath) (writer : PublicKey) (bytes : Bytes)
    (write : FileWrite) : FileTransfer :=
  match write.content bytes with
  | some content => { s with files := s.files.insert path ⟨writer, content⟩ }
  | none => s

/-- The records with one of a funding set, if its file was written. -/
def record (s : FileTransfer) (key : FundingStagingKey) (r : FundingStagingRecord)
    (write : FileWrite) : FileTransfer :=
  if write = .works then { s with stagedFundings := s.stagedFundings.insert key r } else s

def persistFile (s : FileTransfer) (key : ReassemblyKey) (bytes : Bytes) (now : ℕ)
    (write : FileWrite) : FileTransfer :=
  match key.fileKind with
  | .consignment =>
    if key.staging ∈ s.stagedFundings then s
    else if limits.maxPendingFundings ≤ size s.stagedFundings then s
    else
      (s.writeFile (.consignment key.fundingTxid) key.peer bytes write).record key.staging
        ⟨now, 0, 0⟩ write
  | .media =>
    if digest sha256 bytes ≠ key.fileId then s
    else
      match s.stagedFundings.lookup key.staging with
      | none => s
      | some r =>
        let path := StagedPath.media key.fundingTxid (digest sha256 bytes)
        if path ∈ s.files then s
        else if limits.maxMediaBytesPerChannel < r.stagedMediaBytes + bytes.length then s
        else if limits.maxMediaFilesPerChannel ≤ r.stagedMediaCount then s
        else
          (s.writeFile path key.peer bytes write).record key.staging
            ⟨r.writtenAt, r.stagedMediaBytes + bytes.length, r.stagedMediaCount + 1⟩ write

def handleChunk (s : FileTransfer) (d : ChunkDelivery) : FileTransfer :=
  match s.chunkOutcome limits d with
  | .ignored => s
  | .dropped => { s with reassembly := s.reassembly.erase d.key }
  | .buffered st => { s with reassembly := s.reassembly.insert d.key st }
  | .complete bytes =>
    persistFile limits sha256 { s with reassembly := s.reassembly.erase d.key } d.key bytes
      d.now d.write

def peerDisconnected (s : FileTransfer) (peer : PublicKey) : FileTransfer :=
  { s with reassembly := retain s.reassembly fun key _ => key.peer ≠ peer }

/-- Drops the transfers without progress. -/
def sweepStaleTransfers (s : FileTransfer) (now : ℕ) : FileTransfer :=
  { s with
    reassembly := retain s.reassembly fun _ st => now - st.lastProgress < reassemblyTtl }

/-- Whether a record is the one of a funding that never happened. -/
def Expired (gate : PeerChannelGate) (now : ℕ) (key : FundingStagingKey)
    (r : FundingStagingRecord) : Prop :=
  gate.hasChannelFundedBy key.fundingTxid = false ∧ consignmentTtl ≤ now - r.writtenAt
deriving Decidable

/-- The funding transactions whose files a sweep removes. -/
def expiredFundings (s : FileTransfer) (gate : PeerChannelGate) (now : ℕ) : List Str :=
  (retain s.stagedFundings fun key r => Expired gate now key r).keys.map
    FundingStagingKey.fundingTxid

/-- Drops the records of the fundings that happened, and the records and the files of those
that never did.  The files that `survives` names cannot be removed. -/
def sweepUnfundedStagings (s : FileTransfer) (gate : PeerChannelGate) (now : ℕ)
    (survives : StagedPath → Bool) : FileTransfer :=
  { s with
    stagedFundings := retain s.stagedFundings fun key r =>
      !gate.hasChannelFundedBy key.fundingTxid && decide (now - r.writtenAt < consignmentTtl)
    files := retain s.files fun path _ =>
      decide (path.fundingTxid ∉ s.expiredFundings gate now) || survives path }

/-- Drops the records of a funding and removes its consignment, unless the file
`survives`. -/
def forgetStagedFunding (s : FileTransfer) (fundingTxid : Str) (survives : Bool) :
    FileTransfer :=
  { s with
    stagedFundings := retain s.stagedFundings fun key _ => key.fundingTxid ≠ fundingTxid
    files := if survives then s.files else s.files.erase (.consignment fundingTxid) }

inductive Event where
  | chunk (d : ChunkDelivery)
  | peerDisconnected (peer : PublicKey)
  | sweepStaleTransfers (now : ℕ)
  | sweepUnfundedStagings (gate : PeerChannelGate) (now : ℕ) (survives : StagedPath → Bool)
  | forgetStagedFunding (fundingTxid : Str) (survives : Bool)

def step (s : FileTransfer) : Event → FileTransfer
  | .chunk d => s.handleChunk limits sha256 d
  | .peerDisconnected peer => s.peerDisconnected peer
  | .sweepStaleTransfers now => s.sweepStaleTransfers now
  | .sweepUnfundedStagings gate now survives => s.sweepUnfundedStagings gate now survives
  | .forgetStagedFunding fundingTxid survives => s.forgetStagedFunding fundingTxid survives

/-! ### What is written -/

section Written

variable {limits sha256}
variable (s : FileTransfer)
variable (path : StagedPath)
variable (writer : PublicKey)

theorem files_writeFile (bytes : Bytes) (write : FileWrite) :
  (s.writeFile path writer bytes write).files
    = (write.content bytes).elim s.files fun content =>
        s.files.insert path ⟨writer, content⟩
  := by
  rw [writeFile]
  cases write.content bytes <;> rfl

variable {bytes : Bytes} {write : FileWrite}

theorem lookup_writeFile_ne {s : FileTransfer} {path path' : StagedPath} {writer : PublicKey}
    (h : path' ≠ path) :
  (s.writeFile path writer bytes write).files.lookup path' = s.files.lookup path'
  := by
  rw [files_writeFile]
  cases write.content bytes with
  | none => rfl
  | some content => exact AList.lookup_insert_ne h

theorem lookup_writeFile {s : FileTransfer} {path path' : StagedPath} {writer : PublicKey}
    {file : StagedFile}
    (h : (s.writeFile path writer bytes write).files.lookup path' = some file) :
  s.files.lookup path' = some file ∨ path' = path ∧ file.writer = writer
  := by
  by_cases hpath : path' = path
  · subst hpath
    rw [files_writeFile] at h
    cases hcontent : write.content bytes with
    | none =>
      rw [hcontent] at h
      exact .inl h
    | some content =>
      rw [hcontent, Option.elim_some, AList.lookup_insert] at h
      rw [← Option.some.inj h]
      exact .inr ⟨rfl, rfl⟩
  · rw [lookup_writeFile_ne hpath] at h
    exact .inl h

@[simp]
theorem stagedFundings_writeFile (bytes : Bytes) (write : FileWrite) :
  (s.writeFile path writer bytes write).stagedFundings = s.stagedFundings
  := by
  rw [writeFile]
  cases write.content bytes <;> rfl

@[simp]
theorem reassembly_writeFile (bytes : Bytes) (write : FileWrite) :
  (s.writeFile path writer bytes write).reassembly = s.reassembly
  := by
  rw [writeFile]
  cases write.content bytes <;> rfl

variable (key : FundingStagingKey)
variable (r : FundingStagingRecord)

@[simp]
theorem files_record (write : FileWrite) :
  (s.record key r write).files = s.files
  := by
  rw [record]
  split_ifs <;> rfl

@[simp]
theorem reassembly_record (write : FileWrite) :
  (s.record key r write).reassembly = s.reassembly
  := by
  rw [record]
  split_ifs <;> rfl

theorem stagedFundings_record (write : FileWrite) :
  (s.record key r write).stagedFundings
    = if write = .works then s.stagedFundings.insert key r else s.stagedFundings
  := by
  rw [record]
  split_ifs <;> rfl

theorem mem_stagedFundings_record {s : FileTransfer} {key key' : FundingStagingKey}
    {r : FundingStagingRecord} (h : key' ∈ (s.record key r write).stagedFundings) :
  key' ∈ s.stagedFundings ∨ key' = key
  := by
  rw [stagedFundings_record] at h
  split_ifs at h with hworks
  · exact ((AList.mem_insert _).mp h).symm
  · exact .inl h

/-- What `persistFile` can do. -/
inductive Persists (limits : TransferLimits) (sha256 : Bytes → List.Vector UInt8 32)
    (s : FileTransfer) (key : ReassemblyKey) (bytes : Bytes) (now : ℕ) (write : FileWrite) :
    FileTransfer → Prop
  | nothing : Persists limits sha256 s key bytes now write s
  | consignment (hkind : key.fileKind = .consignment) (hnew : key.staging ∉ s.stagedFundings)
      (hroom : size s.stagedFundings < limits.maxPendingFundings) :
      Persists limits sha256 s key bytes now write
        ((s.writeFile (.consignment key.fundingTxid) key.peer bytes write).record key.staging
          ⟨now, 0, 0⟩ write)
  | media (r : FundingStagingRecord) (hkind : key.fileKind = .media)
      (hdigest : digest sha256 bytes = key.fileId)
      (hr : s.stagedFundings.lookup key.staging = some r)
      (hnew : StagedPath.media key.fundingTxid key.fileId ∉ s.files)
      (hbytes : r.stagedMediaBytes + bytes.length ≤ limits.maxMediaBytesPerChannel)
      (hcount : r.stagedMediaCount < limits.maxMediaFilesPerChannel) :
      Persists limits sha256 s key bytes now write
        ((s.writeFile (.media key.fundingTxid key.fileId) key.peer bytes write).record
          key.staging
          ⟨r.writtenAt, r.stagedMediaBytes + bytes.length, r.stagedMediaCount + 1⟩ write)

theorem persists_persistFile (key : ReassemblyKey) (bytes : Bytes) (now : ℕ) (write : FileWrite) :
  Persists limits sha256 s key bytes now write
    (persistFile limits sha256 s key bytes now write)
  := by
  rw [persistFile]
  cases hkind : key.fileKind with
  | consignment =>
    dsimp only
    split_ifs with hold hfull
    · exact .nothing
    · exact .nothing
    · exact .consignment hkind hold (not_le.mp hfull)
  | media =>
    by_cases hdigest : digest sha256 bytes = key.fileId
    · rw [hdigest]
      dsimp only
      rw [if_neg (not_not_intro rfl)]
      cases hr : s.stagedFundings.lookup key.staging with
      | none => exact .nothing
      | some r =>
        dsimp only
        split_ifs with hold hbytes hcount
        · exact .nothing
        · exact .nothing
        · exact .nothing
        · exact .media r hkind hdigest hr hold (not_lt.mp hbytes) (not_le.mp hcount)
    · dsimp only
      rw [if_pos hdigest]
      exact .nothing

variable {key : ReassemblyKey}

theorem persistFile_consignment {s : FileTransfer} {now : ℕ} (hkind : key.fileKind = .consignment)
    (hnew : key.staging ∉ s.stagedFundings)
    (hroom : size s.stagedFundings < limits.maxPendingFundings) :
  persistFile limits sha256 s key bytes now write
    = (s.writeFile (.consignment key.fundingTxid) key.peer bytes write).record key.staging
        ⟨now, 0, 0⟩ write
  := by
  rw [persistFile, hkind]
  dsimp only
  rw [if_neg hnew, if_neg (not_le.mpr hroom)]

theorem persistFile_media {s : FileTransfer} {now : ℕ} {r : FundingStagingRecord}
    (hkind : key.fileKind = .media) (hdigest : digest sha256 bytes = key.fileId)
    (hr : s.stagedFundings.lookup key.staging = some r)
    (hnew : StagedPath.media key.fundingTxid key.fileId ∉ s.files)
    (hbytes : r.stagedMediaBytes + bytes.length ≤ limits.maxMediaBytesPerChannel)
    (hcount : r.stagedMediaCount < limits.maxMediaFilesPerChannel) :
  persistFile limits sha256 s key bytes now write
    = (s.writeFile (.media key.fundingTxid key.fileId) key.peer bytes write).record key.staging
        ⟨r.writtenAt, r.stagedMediaBytes + bytes.length, r.stagedMediaCount + 1⟩ write
  := by
  rw [persistFile, hkind, hdigest]
  dsimp only
  rw [if_neg (not_not_intro rfl), hr]
  dsimp only
  rw [if_neg hnew, if_neg (not_lt.mpr hbytes), if_neg (not_le.mpr hcount)]

theorem Persists.reassembly_eq {s s' : FileTransfer} {now : ℕ}
    (h : Persists limits sha256 s key bytes now write s') :
  s'.reassembly = s.reassembly
  := by
  cases h <;> simp

/-- A chunk changes the records and the files only when it completes a file. -/
theorem handleChunk_cases (limits : TransferLimits) (sha256 : Bytes → List.Vector UInt8 32)
    (s : FileTransfer) (d : ChunkDelivery) :
  ((s.handleChunk limits sha256 d).files = s.files
      ∧ (s.handleChunk limits sha256 d).stagedFundings = s.stagedFundings)
    ∨ ∃ bytes, s.chunkOutcome limits d = .complete bytes
      ∧ Persists limits sha256 { s with reassembly := s.reassembly.erase d.key } d.key bytes
          d.now d.write (s.handleChunk limits sha256 d)
  := by
  rw [handleChunk]
  cases h : s.chunkOutcome limits d with
  | ignored => exact .inl ⟨rfl, rfl⟩
  | dropped => exact .inl ⟨rfl, rfl⟩
  | buffered st => exact .inl ⟨rfl, rfl⟩
  | complete bytes => exact .inr ⟨bytes, rfl, persists_persistFile _ _ _ _ _⟩

end Written

/-! ### Accepted chunks -/

section Accepted

variable {limits}

/-- The chunks that become a part of a transfer. -/
structure Accepts (limits : TransferLimits) (s : FileTransfer) (d : ChunkDelivery) :
    Prop where
  counterparty : d.gate.channelCountWith d.sender ≠ 0
  unfunded : ¬ d.gate.hasChannelFundedBy d.msg.fundingTxid
  wellFormed : ¬ s.Malformed d
  withinLimits : ¬ s.Refused limits d

instance (s : FileTransfer) (d : ChunkDelivery) : Decidable (s.Accepts limits d) :=
  decidable_of_iff
    (d.gate.channelCountWith d.sender ≠ 0 ∧ ¬ d.gate.hasChannelFundedBy d.msg.fundingTxid
      ∧ ¬ s.Malformed d ∧ ¬ s.Refused limits d)
    ⟨fun h => ⟨h.1, h.2.1, h.2.2.1, h.2.2.2⟩,
      fun h => ⟨h.counterparty, h.unfunded, h.wellFormed, h.withinLimits⟩⟩

variable {s : FileTransfer} {d : ChunkDelivery}

theorem chunkOutcome_of_accepts (h : s.Accepts limits d) :
  s.chunkOutcome limits d
    = if (s.buffer d h.wellFormed).complete then .complete (s.buffer d h.wellFormed).bytes
      else .buffered (s.buffer d h.wellFormed)
  := by
  rw [chunkOutcome, if_neg h.counterparty, if_neg h.unfunded, dif_neg h.wellFormed,
    if_neg h.withinLimits]

/-- A chunk is kept when it is accepted and others are missing. -/
theorem chunkOutcome_eq_buffered {st : ReassemblyState}
    (h : s.chunkOutcome limits d = .buffered st) :
  ∃ ha : s.Accepts limits d, st = s.buffer d ha.wellFormed
  := by
  rw [chunkOutcome] at h
  split_ifs at h with h1 h2 h3 h4 h5
  exact ⟨⟨h1, h2, h3, h4⟩, (ChunkOutcome.buffered.inj h).symm⟩

/-- A file is complete when its last missing chunk is accepted. -/
theorem chunkOutcome_eq_complete {bytes : Bytes}
    (h : s.chunkOutcome limits d = .complete bytes) :
  ∃ ha : s.Accepts limits d, bytes = (s.buffer d ha.wellFormed).bytes
  := by
  rw [chunkOutcome] at h
  split_ifs at h with h1 h2 h3 h4 h5
  exact ⟨⟨h1, h2, h3, h4⟩, (ChunkOutcome.complete.inj h).symm⟩

theorem buffer_buffered (h : ¬ s.Malformed d) :
  (s.buffer d h).buffered = s.prospective d
  := by
  change (s.entry d.key d.now).buffered + _ = _
  rw [prospective, entry]
  cases s.reassembly.lookup d.key <;> rfl

theorem buffer_totalChunks (h : ¬ s.Malformed d) :
  (s.buffer d h).totalChunks = d.msg.totalChunks
  := by
  change (if (s.entry d.key d.now).totalChunks = 0 then d.msg.totalChunks
    else (s.entry d.key d.now).totalChunks) = _
  rw [entry]
  cases hst : s.reassembly.lookup d.key with
  | none => rfl
  | some st =>
    have htotal : st.totalChunks = d.msg.totalChunks := by
      by_contra hne
      apply h
      right; right; right; right
      rw [hst]
      exact decide_eq_true hne
    rw [Option.getD_some, htotal, ite_self]

theorem lookup_buffer (h : ¬ s.Malformed d) (i : ℕ) :
  (s.buffer d h).chunks.lookup i
    = if i = d.msg.chunkIndex then some d.msg.data
      else (s.entry d.key d.now).chunks.lookup i
  := lookup_insert_eq _ _ _ _

theorem lookup_reassembly_handleChunk_ne (limits : TransferLimits)
    (sha256 : Bytes → List.Vector UInt8 32) {key : ReassemblyKey} (h : key ≠ d.key) :
  (s.handleChunk limits sha256 d).reassembly.lookup key = s.reassembly.lookup key
  := by
  rw [handleChunk]
  cases s.chunkOutcome limits d with
  | ignored => rfl
  | dropped => exact AList.lookup_erase_ne h
  | buffered st => exact AList.lookup_insert_ne h
  | complete bytes =>
    rw [(persists_persistFile _ _ _ _ _).reassembly_eq]
    exact AList.lookup_erase_ne h

end Accepted

/-- The only chunk of a file of one byte, from a counterparty. -/
def sampleChunk (sender : PublicKey) (kind : FileKind) (fundingTxid fileId : Str)
    (byte : UInt8) (now : ℕ) : ChunkDelivery :=
  ⟨⟨fun _ => 1, fun _ => false⟩, ⟨kind, fundingTxid, fileId, 0, 1, [byte]⟩, sender, now, .works⟩

end FileTransfer

/-! ### Spellings of a funding -/

/-- The string of a transaction id, which shows its bytes from last to first. -/
def txidStr (txid : List.Vector UInt8 32) : Str :=
  hexStr txid.toList.reverse

/-- What the channel manager knows about channels, given by the counterparty and the funding
transaction, if there is one. -/
def channelGate (channels : List (PublicKey × Option (List.Vector UInt8 32))) :
    PeerChannelGate where
  channelCountWith peer := (channels.filter (·.1 = peer)).length
  hasChannelFundedBy fundingTxid :=
    channels.any fun channel => channel.2.any fun txid => txidStr txid = fundingTxid

/-- Every message that is read names a transaction, in its canonical form exactly when there is
no upper-case letter.  Then the channels it funds are found, and no other such message names it
differently. -/
theorem fundingTxid_canonical_iff {buffer rest : Bytes} {m : RgbFileMessage}
    (h : RgbFileMessage.readFrom buffer = .ok (m, rest)) :
  ∃ txid : List.Vector UInt8 32, hexStrToVec m.fundingTxid = some txid.toList.reverse
    ∧ (toLowercase m.fundingTxid = m.fundingTxid ↔
      m.fundingTxid = txidStr txid
        ∧ (∀ channels peer, (peer, some txid) ∈ channels →
          (channelGate channels).hasChannelFundedBy m.fundingTxid = true)
        ∧ ∀ buffer' m' rest', RgbFileMessage.readFrom buffer' = .ok (m', rest') →
          hexStrToVec m'.fundingTxid = some txid.toList.reverse →
          toLowercase m'.fundingTxid = m'.fundingTxid → m'.fundingTxid = m.fundingTxid)
  := by
  -- the canonical form is the lower-case form of every spelling that is read
  have hwritten : ∀ {buffer m rest v}, RgbFileMessage.readFrom buffer = .ok (m, rest) →
      hexStrToVec m.fundingTxid = some v → hexStr v = toLowercase m.fundingTxid := by
    intro buffer m rest v h hv
    rw [hexStr_eq_toLowercase_iff hv, (isHashHex_iff.mp (m.readFrom_eq_ok h).1.fundingTxid).1]
    decide
  obtain ⟨hlength, hdigits⟩ := isHashHex_iff.mp (m.readFrom_eq_ok h).1.fundingTxid
  obtain ⟨v, hv⟩ := hexStrToVecFrom_isSome hdigits false 0
  have hv32 := congrArg List.length (hwritten h hv)
  rw [length_hexStr, toLowercase, List.length_map, hlength] at hv32
  obtain ⟨txid, rfl⟩ : ∃ txid : List.Vector UInt8 32, txid.toList.reverse = v :=
    ⟨⟨v.reverse, by rw [List.length_reverse]; omega⟩, List.reverse_reverse v⟩
  have htxid : txidStr txid = toLowercase m.fundingTxid := hwritten h hv
  refine ⟨txid, hv, ?_⟩
  rw [htxid]
  constructor
  · intro hlower
    refine ⟨hlower.symm, ?_, ?_⟩
    · intro channels peer hmem
      exact List.any_eq_true.mpr ⟨_, hmem, decide_eq_true (htxid.trans hlower)⟩
    · intro buffer' m' rest' h' hv' hlower'
      rw [← hlower', ← hlower, ← htxid]
      exact (hwritten h' hv').symm
  · exact fun hcanonical => hcanonical.1.symm

/-- The chunk of a consignment of one byte, for a funding whose id repeats a digit. -/
def repeatedDigit (digit : UInt8) : RgbFileMessage :=
  ⟨.consignment, List.replicate 64 digit, [], 0, 1, [0]⟩

theorem readFrom_repeatedDigit {d : UInt8} (h : isAsciiHexdigit d = true) :
  RgbFileMessage.readFrom (repeatedDigit d).write = .ok (repeatedDigit d, [])
  := by
  have hmax : 1 ≤ u16Max := by decide
  have hread := (repeatedDigit d).readFrom_write
    ⟨by simp [isHashHex, repeatedDigit, h], rfl, Nat.zero_le _, hmax, hmax⟩ []
  rwa [List.append_nil] at hread

theorem fundingTxid_canonical_zero :
  RgbFileMessage.readFrom (repeatedDigit 48).write = .ok (repeatedDigit 48, [])
    ∧ ∃ txid : List.Vector UInt8 32, (repeatedDigit 48).fundingTxid = txidStr txid
  := by
  obtain ⟨txid, -, h⟩ := fundingTxid_canonical_iff (readFrom_repeatedDigit (d := 48) rfl)
  exact ⟨readFrom_repeatedDigit rfl, txid, (h.mp (by decide)).1⟩

/-- An upper-case spelling is read too, as another name, and a channel is not found by it. -/
theorem fundingTxid_upper_case :
  RgbFileMessage.readFrom (repeatedDigit 65).write = .ok (repeatedDigit 65, [])
    ∧ RgbFileMessage.readFrom (repeatedDigit 97).write = .ok (repeatedDigit 97, [])
    ∧ (repeatedDigit 65).fundingTxid ≠ (repeatedDigit 97).fundingTxid
    ∧ ∃ txid peer,
      hexStrToVec (repeatedDigit 65).fundingTxid = some txid.toList.reverse
        ∧ (repeatedDigit 97).fundingTxid = txidStr txid
        ∧ (channelGate [(peer, some txid)]).hasChannelFundedBy (repeatedDigit 65).fundingTxid
          = false
  := by
  refine ⟨readFrom_repeatedDigit rfl, readFrom_repeatedDigit rfl, by decide, ?_⟩
  exact ⟨List.Vector.replicate 32 0xaa, List.Vector.replicate 33 0, by decide +kernel⟩

end RgbLightning
