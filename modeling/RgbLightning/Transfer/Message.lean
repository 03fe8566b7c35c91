import RgbLightning.Node.Types
import RgbLightning.Lib.BigEndian
import RgbLightning.Lib.Chunks

/-!
# Chunks of RGB files

The files of a channel funding travel as custom messages over the connection to the
counterparty.  A file is cut into chunks (`queueFile`), and every chunk is a message with a
framing of its own (`write`, `readFrom`).

A message that passes the checks of the reader is read back from its encoding
(`readFrom_write`), and nothing else is read (`readFrom_eq_ok`).  The messages of a file
with canonical identifiers pass the checks (`wellFormed_of_mem_queueFile`).
-/

namespace RgbLightning

open Chunks BigEndian List Option Except

/-- The version of the framing. -/
def wireVersion : ℕ := 1

/-- The largest number of bytes of a file in one chunk. -/
def chunkSize : ℕ := 60000

def u16Max : ℕ := 65535

inductive FileKind where
  | consignment
  | media
deriving DecidableEq, Repr

namespace FileKind

def code : FileKind → ℕ
  | consignment => 0
  | media => 1

/-- The kind with a number. -/
def ofCode : ℕ → Option FileKind
  | 0 => some consignment
  | 1 => some media
  | _ => none

theorem code_of_ofCode {n : ℕ} {k : FileKind} (h : ofCode n = some k) :
  k.code = n
  := by
  match n with
  | 0 => rw [← some.inj h]; rfl
  | 1 => rw [← some.inj h]; rfl

end FileKind

/-- Whether a string is the hexadecimal form of a hash of 32 bytes. -/
def isHashHex (s : Str) : Bool :=
  s.length == 64 && s.all isAsciiHexdigit

theorem isHashHex_iff {s : Str} :
  isHashHex s = true ↔ s.length = 64 ∧ ∀ c ∈ s, isAsciiHexdigit c = true
  := by
  simp [isHashHex]

theorem isUtf8_of_isHashHex {s : Str} (h : isHashHex s = true) :
  isUtf8 s = true
  := by
  have hascii : ∀ n < 256, isAsciiHexdigit (UInt8.ofNat n) = true → UInt8.ofNat n < 0x80 := by
    decide +kernel
  apply isUtf8_of_ascii
  intro c hc
  have hdigit := (isHashHex_iff.mp h).2 c hc
  have hlt := hascii c.toNat c.toNat_lt
  rw [UInt8.ofNat_toNat] at hlt
  exact hlt hdigit

theorem isHashHex_hexStr {v : Bytes} (h : v.length = 32) :
  isHashHex (hexStr v) = true
  := by
  have hdigit : ∀ n < 256, isAsciiHexdigit (hexDigit (UInt8.ofNat n >>> 4)) = true
      ∧ isAsciiHexdigit (hexDigit (UInt8.ofNat n &&& 15)) = true := by
    decide +kernel
  rw [isHashHex_iff, length_hexStr, h]
  constructor
  · rfl
  · intro c hc
    obtain ⟨b, -, hb⟩ := mem_flatMap.mp hc
    have hb' := hdigit b.toNat b.toNat_lt
    rw [UInt8.ofNat_toNat] at hb'
    rcases mem_pair.mp hb with rfl | rfl
    · exact hb'.1
    · exact hb'.2

/-! ### Messages -/

structure RgbFileMessage where
  fileKind : FileKind
  fundingTxid : Str
  fileId : Str
  chunkIndex : ℕ
  totalChunks : ℕ
  data : Bytes
deriving DecidableEq, Repr

inductive DecodeError where
  | invalidValue
  | shortRead
deriving DecidableEq, Repr

/-- Whether a file of a kind may have an identifier: a consignment has none, a media file
is named by a digest. -/
def FileKind.fileIdOk (k : FileKind) (fileId : Str) : Bool :=
  match k with
  | .consignment => fileId.isEmpty
  | .media => isHashHex fileId

def readExact (n : ℕ) (buffer : Bytes) : Except DecodeError (Bytes × Bytes) :=
  if n ≤ buffer.length then .ok (buffer.take n, buffer.drop n) else .error .shortRead

def readNat (w : ℕ) (buffer : Bytes) : Except DecodeError (ℕ × Bytes) := do
  let (bytes, buffer) ← readExact w buffer
  .ok (ofBytes bytes, buffer)

/-- Goes on only if a value is valid. -/
def valid (ok : Bool) : Except DecodeError Unit :=
  if ok then .ok () else .error .invalidValue

def readKind (buffer : Bytes) : Except DecodeError (FileKind × Bytes) := do
  let (code, buffer) ← readNat 1 buffer
  match FileKind.ofCode code with
  | some fileKind => .ok (fileKind, buffer)
  | none => .error .invalidValue

def readStr (buffer : Bytes) : Except DecodeError (Str × Bytes) := do
  let (len, buffer) ← readNat 2 buffer
  let (bytes, buffer) ← readExact len buffer
  valid (isUtf8 bytes)
  .ok (bytes, buffer)

namespace RgbFileMessage

/-- The encoding of a message.  The lengths of the strings are written in two bytes
whatever they are. -/
def write (m : RgbFileMessage) : Bytes :=
  toBytes 1 wireVersion ++ (toBytes 1 m.fileKind.code
    ++ (toBytes 2 m.fundingTxid.length ++ (m.fundingTxid
    ++ (toBytes 2 m.fileId.length ++ (m.fileId
    ++ (toBytes 2 m.chunkIndex ++ (toBytes 2 m.totalChunks
    ++ (toBytes 4 m.data.length ++ m.data))))))))

def readFrom (buffer : Bytes) : Except DecodeError (RgbFileMessage × Bytes) := do
  let (version, buffer) ← readNat 1 buffer
  valid (version = wireVersion)
  let (fileKind, buffer) ← readKind buffer
  let (fundingTxid, buffer) ← readStr buffer
  valid (isHashHex fundingTxid)
  let (fileId, buffer) ← readStr buffer
  valid (fileKind.fileIdOk fileId)
  let (chunkIndex, buffer) ← readNat 2 buffer
  let (totalChunks, buffer) ← readNat 2 buffer
  let (dataLen, buffer) ← readNat 4 buffer
  -- a message of the transport is never longer
  valid (dataLen ≤ u16Max)
  let (data, buffer) ← readExact dataLen buffer
  .ok (⟨fileKind, fundingTxid, fileId, chunkIndex, totalChunks, data⟩, buffer)

/-- The messages that the reader can return. -/
structure WellFormed (m : RgbFileMessage) : Prop where
  fundingTxid : isHashHex m.fundingTxid = true
  fileId : m.fileKind.fileIdOk m.fileId = true
  chunkIndex : m.chunkIndex ≤ u16Max
  totalChunks : m.totalChunks ≤ u16Max
  data : m.data.length ≤ u16Max

end RgbFileMessage

/-! ### Reading undoes writing -/

theorem readExact_append (l rest : Bytes) :
  readExact l.length (l ++ rest) = .ok (l, rest)
  := by
  rw [readExact, if_pos (by simp), take_left, drop_left]

theorem readNat_toBytes {w n : ℕ} (h : n < 256 ^ w) (rest : Bytes) :
  readNat w (toBytes w n ++ rest) = .ok (n, rest)
  := by
  have hread := readExact_append (toBytes w n) rest
  rw [length_toBytes] at hread
  rw [readNat, hread]
  exact congrArg (fun k => ok (k, rest)) (ofBytes_toBytes h)

theorem valid_eq_ok {ok : Bool} (h : ok = true) :
  valid ok = .ok ()
  := if_pos h

theorem readStr_append {s : Str} (hlen : s.length < 256 ^ 2) (hutf8 : isUtf8 s = true)
    (rest : Bytes) :
  readStr (toBytes 2 s.length ++ (s ++ rest)) = .ok (s, rest)
  := by
  rw [readStr, bind_eq_ok]
  refine ⟨_, readNat_toBytes hlen _, ?_⟩
  rw [bind_eq_ok]
  refine ⟨_, readExact_append s rest, ?_⟩
  rw [bind_eq_ok]
  exact ⟨_, valid_eq_ok hutf8, rfl⟩

theorem readKind_code (k : FileKind) (rest : Bytes) :
  readKind (toBytes 1 k.code ++ rest) = .ok (k, rest)
  := by
  cases k <;> rfl

theorem FileKind.fileIdOk_str {k : FileKind} {s : Str} (h : k.fileIdOk s = true) :
  s.length < 256 ^ 2 ∧ isUtf8 s = true
  := by
  cases k with
  | consignment =>
    obtain rfl : s = [] := isEmpty_iff.mp h
    exact ⟨by decide, rfl⟩
  | media =>
    have hs : isHashHex s = true := h
    rw [(isHashHex_iff.mp hs).1]
    exact ⟨by decide, isUtf8_of_isHashHex hs⟩

/-- A message that the reader can return is read back from its encoding. -/
theorem RgbFileMessage.readFrom_write {m : RgbFileMessage} (h : m.WellFormed) (rest : Bytes) :
  readFrom (m.write ++ rest) = .ok (m, rest)
  := by
  have htxid : m.fundingTxid.length < 256 ^ 2 := by
    rw [(isHashHex_iff.mp h.fundingTxid).1]
    decide
  obtain ⟨hidlen, hidutf8⟩ := FileKind.fileIdOk_str h.fileId
  have hindex := h.chunkIndex
  have htotal := h.totalChunks
  have hdata := h.data
  have hu16 : u16Max < 256 ^ 2 ∧ u16Max < 256 ^ 4 := by decide
  simp only [write, append_assoc]
  rw [readFrom, bind_eq_ok]
  refine ⟨_, readNat_toBytes (by decide) _, ?_⟩
  rw [bind_eq_ok]
  refine ⟨_, valid_eq_ok rfl, ?_⟩
  rw [bind_eq_ok]
  refine ⟨_, readKind_code m.fileKind _, ?_⟩
  rw [bind_eq_ok]
  refine ⟨_, readStr_append htxid (isUtf8_of_isHashHex h.fundingTxid) _, ?_⟩
  rw [bind_eq_ok]
  refine ⟨_, valid_eq_ok h.fundingTxid, ?_⟩
  rw [bind_eq_ok]
  refine ⟨_, readStr_append hidlen hidutf8 _, ?_⟩
  rw [bind_eq_ok]
  refine ⟨_, valid_eq_ok h.fileId, ?_⟩
  rw [bind_eq_ok]
  refine ⟨_, readNat_toBytes (by omega) _, ?_⟩
  rw [bind_eq_ok]
  refine ⟨_, readNat_toBytes (by omega) _, ?_⟩
  rw [bind_eq_ok]
  refine ⟨_, readNat_toBytes (by omega) _, ?_⟩
  rw [bind_eq_ok]
  refine ⟨_, valid_eq_ok (decide_eq_true hdata), ?_⟩
  rw [bind_eq_ok]
  exact ⟨_, readExact_append m.data rest, rfl⟩

/-! ### What is read is well formed -/

variable {buffer rest : Bytes}

theorem readExact_eq_ok {n : ℕ} {x : Bytes} (h : readExact n buffer = .ok (x, rest)) :
  x.length = n ∧ buffer = x ++ rest
  := by
  rw [readExact] at h
  split_ifs at h with hn
  obtain ⟨rfl, rfl⟩ := Prod.mk.inj (ok.inj h)
  exact ⟨length_take_of_le hn, (take_append_drop n buffer).symm⟩

theorem readNat_eq_ok {w n : ℕ} (h : readNat w buffer = .ok (n, rest)) :
  n < 256 ^ w ∧ buffer = toBytes w n ++ rest
  := by
  rw [readNat, bind_eq_ok] at h
  obtain ⟨⟨x, rest'⟩, hread, h⟩ := h
  obtain ⟨rfl, rfl⟩ := Prod.mk.inj (ok.inj h)
  obtain ⟨rfl, rfl⟩ := readExact_eq_ok hread
  obtain ⟨hbytes, hlt⟩ := toBytes_ofBytes x
  rw [hbytes]
  exact ⟨hlt, rfl⟩

theorem valid_of_eq_ok {ok : Bool} {u : Unit} (h : valid ok = .ok u) :
  ok = true
  := by
  rw [valid] at h
  split_ifs at h with hok
  exact hok

theorem readStr_eq_ok {s : Bytes} (h : readStr buffer = .ok (s, rest)) :
  buffer = toBytes 2 s.length ++ (s ++ rest)
  := by
  rw [readStr, bind_eq_ok] at h
  obtain ⟨⟨len, buffer1⟩, hlen, h⟩ := h
  rw [bind_eq_ok] at h
  obtain ⟨⟨bytes, buffer2⟩, hbytes, h⟩ := h
  rw [bind_eq_ok] at h
  obtain ⟨_, -, h⟩ := h
  obtain ⟨rfl, rfl⟩ := Prod.mk.inj (ok.inj h)
  obtain ⟨rfl, rfl⟩ := readExact_eq_ok hbytes
  exact (readNat_eq_ok hlen).2

theorem readKind_eq_ok {k : FileKind} (h : readKind buffer = .ok (k, rest)) :
  buffer = toBytes 1 k.code ++ rest
  := by
  rw [readKind, bind_eq_ok] at h
  obtain ⟨⟨code, buffer1⟩, hcode, h⟩ := h
  have hk : FileKind.ofCode code = some k ∧ buffer1 = rest := by
    dsimp only at h
    cases hkind : FileKind.ofCode code with
    | none => simp [hkind] at h
    | some k' => simpa [hkind] using h
  obtain ⟨hk, rfl⟩ := hk
  rw [FileKind.code_of_ofCode hk]
  exact (readNat_eq_ok hcode).2

/-- What the reader returns is well formed, and the bytes that it consumed are its
encoding. -/
theorem RgbFileMessage.readFrom_eq_ok {m : RgbFileMessage} (h : readFrom buffer = .ok (m, rest)) :
  m.WellFormed ∧ buffer = m.write ++ rest
  := by
  rw [readFrom, bind_eq_ok] at h
  obtain ⟨⟨version, buffer1⟩, hversion, h⟩ := h
  rw [bind_eq_ok] at h
  obtain ⟨_, hvalid, h⟩ := h
  rw [bind_eq_ok] at h
  obtain ⟨⟨kind, buffer2⟩, hkind, h⟩ := h
  rw [bind_eq_ok] at h
  obtain ⟨⟨txid, buffer3⟩, htxid, h⟩ := h
  rw [bind_eq_ok] at h
  obtain ⟨_, htxidHex, h⟩ := h
  rw [bind_eq_ok] at h
  obtain ⟨⟨fileId, buffer4⟩, hfileId, h⟩ := h
  rw [bind_eq_ok] at h
  obtain ⟨_, hfileIdOk, h⟩ := h
  rw [bind_eq_ok] at h
  obtain ⟨⟨index, buffer5⟩, hindex, h⟩ := h
  rw [bind_eq_ok] at h
  obtain ⟨⟨total, buffer6⟩, htotal, h⟩ := h
  rw [bind_eq_ok] at h
  obtain ⟨⟨len, buffer7⟩, hlen, h⟩ := h
  rw [bind_eq_ok] at h
  obtain ⟨_, hlenOk, h⟩ := h
  rw [bind_eq_ok] at h
  obtain ⟨⟨data, buffer8⟩, hdata, h⟩ := h
  obtain ⟨rfl, rfl⟩ := Prod.mk.inj (ok.inj h)
  obtain rfl : version = wireVersion := of_decide_eq_true (valid_of_eq_ok hvalid)
  obtain ⟨rfl, rfl⟩ := readExact_eq_ok hdata
  obtain ⟨-, rfl⟩ := readNat_eq_ok hlen
  obtain ⟨htotalLt, rfl⟩ := readNat_eq_ok htotal
  obtain ⟨hindexLt, rfl⟩ := readNat_eq_ok hindex
  obtain rfl := readStr_eq_ok hfileId
  obtain rfl := readStr_eq_ok htxid
  obtain rfl := readKind_eq_ok hkind
  obtain ⟨-, rfl⟩ := readNat_eq_ok hversion
  constructor
  · constructor
    · exact valid_of_eq_ok htxidHex
    · exact valid_of_eq_ok hfileIdOk
    · exact Nat.le_of_lt_succ hindexLt
    · exact Nat.le_of_lt_succ htotalLt
    · exact of_decide_eq_true (valid_of_eq_ok hlenOk)
  · simp only [write, append_assoc]

/-! ### Queueing a file -/

/-- The reader accepts exactly the encodings of well-formed messages, and leaves what follows. -/
theorem RgbFileMessage.readFrom_eq_ok_iff {m : RgbFileMessage} :
  readFrom buffer = .ok (m, rest) ↔ m.WellFormed ∧ buffer = m.write ++ rest
  := by
  constructor
  · exact readFrom_eq_ok
  · rintro ⟨h, rfl⟩
    exact readFrom_write h rest

/-- The number of chunks of a file, if the framing can number them. -/
def chunkCount (len : ℕ) : Option ℕ :=
  let count := count chunkSize len
  if count ≤ u16Max then some count else none

/-- The messages that `queue_file` adds to the outbound queue of a peer.  An empty file
and one with too many chunks are refused. -/
def queueFile (fileKind : FileKind) (fundingTxid fileId : Str) (bytes : Bytes) :
    Option (List RgbFileMessage) :=
  if bytes.isEmpty then none
  else do
    let totalChunks ← chunkCount bytes.length
    some <| (chunks chunkSize bytes).mapIdx fun idx chunk =>
      ⟨fileKind, fundingTxid, fileId, idx, totalChunks, chunk⟩

def queueConsignment (fundingTxid : Str) (bytes : Bytes) : Option (List RgbFileMessage) :=
  queueFile .consignment fundingTxid [] bytes

def queueMedia (fundingTxid digest : Str) (bytes : Bytes) : Option (List RgbFileMessage) :=
  queueFile .media fundingTxid digest bytes

/-- The message that carries the chunk of a file at an index. -/
def fileMessage (fileKind : FileKind) (fundingTxid fileId : Str) (bytes : Bytes) (i : ℕ) :
    RgbFileMessage :=
  ⟨fileKind, fundingTxid, fileId, i, count chunkSize bytes.length,
    chunk chunkSize bytes i⟩

/-- The messages of a file carry its chunks, one each, in order. -/
theorem queueFile_eq_some {fileKind : FileKind} {fundingTxid fileId : Str} {bytes : Bytes}
    {msgs : List RgbFileMessage} (h : queueFile fileKind fundingTxid fileId bytes = some msgs) :
  bytes ≠ [] ∧ count chunkSize bytes.length ≤ u16Max
    ∧ msgs = (range (count chunkSize bytes.length)).map
        (fileMessage fileKind fundingTxid fileId bytes)
  := by
  rw [queueFile] at h
  split_ifs at h with hempty
  obtain ⟨total, htotal, h⟩ := bind_eq_some_iff.mp h
  rw [chunkCount] at htotal
  split_ifs at htotal with hcount
  obtain rfl := some.inj htotal
  refine ⟨fun hnil => hempty (by rw [hnil]; rfl), hcount, ?_⟩
  rw [← some.inj h]
  apply ext_getElem
  · simp [chunks]
  · intro i _ _
    simp [chunks, fileMessage]

/-- The messages of a file with canonical identifiers can be read. -/
theorem wellFormed_of_mem_queueFile {fileKind : FileKind} {fundingTxid fileId : Str}
    {bytes : Bytes} {msgs : List RgbFileMessage}
    (h : queueFile fileKind fundingTxid fileId bytes = some msgs)
    (htxid : isHashHex fundingTxid = true) (hid : fileKind.fileIdOk fileId = true) :
  ∀ m ∈ msgs, m.WellFormed
  := by
  obtain ⟨-, hcount, rfl⟩ := queueFile_eq_some h
  intro m hm
  obtain ⟨i, hi, rfl⟩ := mem_map.mp hm
  rw [mem_range] at hi
  have hdata := length_chunk_le chunkSize bytes i
  constructor
  · exact htxid
  · exact hid
  · exact (hi.trans_le hcount).le
  · exact hcount
  · exact hdata.trans (by decide)

end RgbLightning
