import RgbLightning.Basic
import RgbLightning.Lib.Chunks

/-!
# The encryption of backups

A backup is encrypted as a stream of segments.  `encryptFile` reads the cleartext in buffers
of 239 bytes.  A full buffer becomes the next segment of the stream, 16 bytes longer, and the
first buffer that is not full, possibly an empty one, becomes the last segment.  `decryptFile`
reads buffers of 255 bytes and does the reverse, except that it accepts a file that ends
where a segment does (`decryptFile_rejects_iff`).
-/

namespace RgbLightning.Backup

open Chunks List Except

/-! ### Segments -/

def bufferLenEncrypt : ℕ := 239

def bufferLenDecrypt : ℕ := bufferLenEncrypt + 16

def backupNonceLength : ℕ := 19

/-- The largest position of a stream. -/
def u32Max : ℕ := 2 ^ 32 - 1

inductive APIError where
  | invalidBackupPath
  | io
  | unexpected (text : String)
  | unsupportedBackupVersion (version : Str)
  | wrongPassword
deriving DecidableEq, Repr

/-- Why a function does not return a value: it returns an error, or it panics. -/
inductive Stop where
  | error (e : APIError)
  | panic
deriving DecidableEq, Repr

structure CypherSecrets (Key : Type) where
  key : Key
  nonce : Bytes

/-- The cryptography backups are built on: the decoding of salts, the derivation of keys, and
the segments of the stream cipher by their position and whether they are the last. -/
structure Cryptography (Key : Type) where
  decodeSalt : Str → Except APIError Bytes
  deriveKey : Str → Bytes → Except APIError Key
  encrypt : CypherSecrets Key → ℕ → Bool → Bytes → Bytes
  decrypt : CypherSecrets Key → ℕ → Bool → Bytes → Option Bytes
  length_encrypt : ∀ secrets position last chunk,
    (encrypt secrets position last chunk).length = chunk.length + 16

variable {Key : Type} (crypto : Cryptography Key)

/-- A nonce that is too short is sliced out of its range. -/
def getCypherSecrets (password saltStr nonceStr : Str) : Except Stop (CypherSecrets Key) := do
  let saltBytes ← (crypto.decodeSalt saltStr).mapError Stop.error
  let key ← (crypto.deriveKey password saltBytes).mapError Stop.error
  if nonceStr.length < backupNonceLength then throw .panic
  return ⟨key, nonceStr.take backupNonceLength⟩

variable (secrets : CypherSecrets Key)

/-- The stream leaves its largest position to a last segment. -/
def encryptNext (position : ℕ) (chunk : Bytes) :
    Except Stop Bytes :=
  if position = u32Max then
    throw (.error (.unexpected "Failed to encrypt next chunk: aead::Error"))
  else return crypto.encrypt secrets position false chunk

def decryptNext (position : ℕ) (segment : Bytes) :
    Except Stop Bytes :=
  if position = u32Max then throw (.error .wrongPassword)
  else
    match crypto.decrypt secrets position false segment with
    | some chunk => return chunk
    | none => throw (.error .wrongPassword)

def decryptLast (position : ℕ) (segment : Bytes) :
    Except Stop Bytes :=
  match crypto.decrypt secrets position true segment with
  | some chunk => return chunk
  | none => throw (.error .wrongPassword)

/-! ### Files

The loops run over the reads of the source: full buffers, and one that is not full. -/

def encryptLoop (secrets : CypherSecrets Key) : ℕ → List Bytes → Bytes → Except Stop Bytes
  | position, [], last => return crypto.encrypt secrets position true last
  | position, buffer :: buffers, last => do
    let ciphertext ← encryptNext crypto secrets position buffer
    let others ← encryptLoop secrets (position + 1) buffers last
    return ciphertext ++ others

variable (cleartext : Bytes)

def encryptFile (password saltStr nonceStr : Str) : Except Stop Bytes := do
  let secrets ← getCypherSecrets crypto password saltStr nonceStr
  encryptLoop crypto secrets 0 (full bufferLenEncrypt cleartext)
    (rest bufferLenEncrypt cleartext)

/-- An empty read ends the loop. -/
def decryptLoop (secrets : CypherSecrets Key) : ℕ → List Bytes → Bytes → Except Stop Bytes
  | position, [], last =>
    if last.length = 0 then return [] else decryptLast crypto secrets position last
  | position, buffer :: buffers, last => do
    let cleartext ← decryptNext crypto secrets position buffer
    let others ← decryptLoop secrets (position + 1) buffers last
    return cleartext ++ others

def decryptFile (encrypted : Bytes) (password saltStr nonceStr : Str) : Except Stop Bytes := do
  let secrets ← getCypherSecrets crypto password saltStr nonceStr
  decryptLoop crypto secrets 0 (full bufferLenDecrypt encrypted)
    (rest bufferLenDecrypt encrypted)

/-! ### The segments of a cleartext -/

def fullBuffers : ℕ :=
  cleartext.length / bufferLenEncrypt

/-- The chunks of a cleartext that are encrypted, with their position and whether they are
the last. -/
inductive Produced (cleartext : Bytes) : ℕ → Bool → Bytes → Prop where
  | next {i : ℕ} : i < fullBuffers cleartext → i < u32Max →
      Produced cleartext i false (chunk bufferLenEncrypt cleartext i)
  | last : fullBuffers cleartext ≤ u32Max →
      Produced cleartext (fullBuffers cleartext) true (rest bufferLenEncrypt cleartext)

/-- The stream cipher decrypts exactly the segments that were produced for a cleartext. -/
def Authentic : Prop :=
  ∀ position last segment chunk,
    crypto.decrypt secrets position last segment = some chunk ↔
      Produced cleartext position last chunk
        ∧ segment = crypto.encrypt secrets position last chunk

/-- The stream cipher decrypts the segments that are produced for a cleartext. -/
def Opens : Prop :=
  ∀ position last chunk, Produced cleartext position last chunk →
    crypto.decrypt secrets position last (crypto.encrypt secrets position last chunk)
      = some chunk

/-- The segment of the full buffer at a position. -/
def segment (i : ℕ) : Bytes :=
  crypto.encrypt secrets i false (chunk bufferLenEncrypt cleartext i)

/-- The encrypted file cut after its first `k` segments. -/
def cut (k : ℕ) : Bytes :=
  ((range k).map (segment crypto secrets cleartext)).flatten

def lastSegment : Bytes :=
  crypto.encrypt secrets (fullBuffers cleartext) true (rest bufferLenEncrypt cleartext)

/-- The number of segments that the last one can follow. -/
def nextSegments : ℕ :=
  min (fullBuffers cleartext) u32Max

section Segments

variable {crypto} {secrets : CypherSecrets Key} {cleartext : Bytes}

theorem length_segment {i : ℕ} (hi : i < fullBuffers cleartext) :
  (segment crypto secrets cleartext i).length = bufferLenDecrypt
  := by
  have hmem : chunk bufferLenEncrypt cleartext i
      ∈ full bufferLenEncrypt cleartext := by
    apply mem_map_of_mem
    apply mem_range.mpr hi
  rw [segment, crypto.length_encrypt, length_of_mem_full hmem, bufferLenDecrypt]

variable {k : ℕ}

theorem length_of_mem_cut (hk : k ≤ nextSegments cleartext) :
  ∀ c ∈ (range k).map (segment crypto secrets cleartext), c.length = bufferLenDecrypt
  := by
  intro c hc
  obtain ⟨i, hi, rfl⟩ := mem_map.mp hc
  apply length_segment
  apply (mem_range.mp hi).trans_le (hk.trans (min_le_left _ _))

theorem rest_cut_append (hk : k ≤ nextSegments cleartext) {last : Bytes}
    (hlast : last.length < bufferLenDecrypt) :
  rest bufferLenDecrypt (cut crypto secrets cleartext k ++ last) = last
  := rest_append (length_of_mem_cut hk) hlast

theorem length_lastSegment :
  16 ≤ (lastSegment crypto secrets cleartext).length
  ∧ (lastSegment crypto secrets cleartext).length < bufferLenDecrypt
  := by
  have hlt := length_rest_lt (n := bufferLenEncrypt) (by decide) cleartext
  rw [lastSegment, crypto.length_encrypt, bufferLenDecrypt]
  omega

/-- The loop encrypts the buffers from a position on, unless it runs out of positions. -/
theorem encryptLoop_eq (i n : ℕ) (last : Bytes) (hi : i ≤ u32Max) :
  encryptLoop crypto secrets i
      ((range' i n).map (chunk bufferLenEncrypt cleartext)) last
    = if i + n ≤ u32Max then
        .ok (((range' i n).map (segment crypto secrets cleartext)).flatten
          ++ crypto.encrypt secrets (i + n) true last)
      else .error (.error (.unexpected "Failed to encrypt next chunk: aead::Error"))
  := by
  induction n generalizing i with
  | zero => simp [encryptLoop, hi, pure, Except.pure]
  | succ n ih =>
    rw [range'_succ, map_cons, encryptLoop, encryptNext]
    by_cases hmax : i = u32Max
    · have hno : ¬i + (n + 1) ≤ u32Max := by omega
      rw [if_pos hmax, if_neg hno]
      rfl
    · have hsum : i + 1 + n = i + (n + 1) := by omega
      rw [if_neg hmax, ih (i + 1) (by omega), hsum]
      split_ifs
      · simp [segment, bind, Except.bind, pure, Except.pure]
      · rfl

/-- The encrypted file is the segments of the full buffers and the last one, and exists as
long as there are positions. -/
theorem encryptFile_eq {password saltStr nonceStr : Str}
    (hsecrets : getCypherSecrets crypto password saltStr nonceStr = .ok secrets) :
  encryptFile crypto cleartext password saltStr nonceStr
    = if fullBuffers cleartext ≤ u32Max then
        .ok (cut crypto secrets cleartext (fullBuffers cleartext)
          ++ lastSegment crypto secrets cleartext)
      else .error (.error (.unexpected "Failed to encrypt next chunk: aead::Error"))
  := by
  have h := @encryptLoop_eq Key crypto secrets cleartext 0 (fullBuffers cleartext)
    (rest bufferLenEncrypt cleartext) (Nat.zero_le _)
  rw [zero_add, ← range_eq_range'] at h
  rw [encryptFile, hsecrets]
  apply h

theorem decryptLoop_cons (i : ℕ) (buffer : Bytes) (buffers : List Bytes) (last : Bytes) :
  decryptLoop crypto secrets i (buffer :: buffers) last
    = decryptNext crypto secrets i buffer >>= fun cleartext =>
        decryptLoop crypto secrets (i + 1) buffers last >>= fun others =>
          pure (cleartext ++ others)
  := rfl

theorem Authentic.opens (h : Authentic crypto secrets cleartext) :
  Opens crypto secrets cleartext
  := by
  intro position last chunk hproduced
  apply (h position last _ chunk).mpr
  use hproduced

theorem decryptLoop_segments (hopens : Opens crypto secrets cleartext) (i k : ℕ)
    (hk : i + k ≤ nextSegments cleartext) (last : Bytes) :
  decryptLoop crypto secrets i
      ((range' i k).map (segment crypto secrets cleartext)) last
    = (decryptLoop crypto secrets (i + k) [] last).map
        (((range' i k).map (chunk bufferLenEncrypt cleartext)).flatten ++ ·)
  := by
  induction k generalizing i with
  | zero => 
      cases h : decryptLoop crypto secrets i [] last <;> simp [h, Except.map]
  | succ k ih =>
    have hlt : i < fullBuffers cleartext ∧ i < u32Max := by
      rw [nextSegments] at hk
      omega
    have hsum : i + 1 + k = i + (k + 1) := by omega
    have hnext : decryptNext crypto secrets i (segment crypto secrets cleartext i)
        = .ok (chunk bufferLenEncrypt cleartext i) := by
      simp only [decryptNext, if_neg hlt.2.ne, segment, hopens _ _ _ (.next hlt.1 hlt.2)]
      rfl
    rw [range'_succ, map_cons, decryptLoop_cons, hnext, ih (i + 1) (by omega), hsum]
    cases decryptLoop crypto secrets (i + (k + 1)) [] last <;>
      simp [bind, Except.bind, pure, Except.pure, Except.map]

/-- What the loop decrypts are segments in order, and after them nothing or the last one. -/
theorem segments_of_decryptLoop (hauth : Authentic crypto secrets cleartext) {i : ℕ}
    {buffers : List Bytes} {last result : Bytes} (hi : i ≤ nextSegments cleartext)
    (h : decryptLoop crypto secrets i buffers last = .ok result) :
  buffers = (range' i buffers.length).map (segment crypto secrets cleartext)
  ∧ i + buffers.length ≤ nextSegments cleartext
  ∧ (last = [] ∨ i + buffers.length = fullBuffers cleartext
      ∧ last = lastSegment crypto secrets cleartext)
  := by
  induction buffers generalizing i result with
  | nil =>
    refine ⟨rfl, hi, ?_⟩
    rw [decryptLoop] at h
    split_ifs at h with hempty
    · left
      apply eq_nil_of_length_eq_zero hempty
    right
    rw [decryptLast] at h
    split at h
    · rename_i chunk hdecrypt
      obtain ⟨hproduced, heq⟩ := (hauth i true last chunk).mp hdecrypt
      cases hproduced with
      | last hle => exact ⟨rfl, heq⟩
    · cases h
  | cons buffer buffers ih =>
    rw [decryptLoop] at h
    obtain ⟨chunk, hnext, h⟩ := bind_eq_ok.mp h
    obtain ⟨others, hothers, -⟩ := bind_eq_ok.mp h
    have hbuffer : i < nextSegments cleartext
        ∧ buffer = segment crypto secrets cleartext i := by
      rw [decryptNext] at hnext
      split_ifs at hnext
      split at hnext
      · rename_i chunk hdecrypt
        obtain ⟨hproduced, heq⟩ := (hauth i false buffer chunk).mp hdecrypt
        cases hproduced with
        | next hi hmax => exact ⟨lt_min hi hmax, heq⟩
      · cases hnext
    obtain ⟨hlt, rfl⟩ := hbuffer
    obtain ⟨hbuffers, hle, hlast⟩ := ih hlt hothers
    have hsum : i + 1 + buffers.length = i + (buffers.length + 1) := by omega
    rw [hsum] at hle hlast
    refine ⟨?_, hle, hlast⟩
    rw [length_cons, range'_succ, map_cons, ← hbuffers]

variable {password saltStr nonceStr : Str}
    (hsecrets : getCypherSecrets crypto password saltStr nonceStr = .ok secrets)
    (hopens : Opens crypto secrets cleartext)
include hsecrets hopens

/-- Decryption of the first segments and something shorter than a segment. -/
theorem decryptFile_cut_append (hk : k ≤ nextSegments cleartext) {last : Bytes}
    (hlast : last.length < bufferLenDecrypt) :
  decryptFile crypto (cut crypto secrets cleartext k ++ last) password saltStr nonceStr
    = (decryptLoop crypto secrets k [] last).map (cleartext.take (bufferLenEncrypt * k) ++ ·)
  := by
  have h := decryptLoop_segments hopens 0 k (by rwa [zero_add]) last
  rw [zero_add, ← range_eq_range', flatten_map_chunk] at h
  rw [decryptFile, hsecrets, rest_cut_append hk hlast, cut,
    full_append (length_of_mem_cut hk) hlast]
  apply h

theorem decryptFile_cut (hk : k ≤ nextSegments cleartext) :
  decryptFile crypto (cut crypto secrets cleartext k) password saltStr nonceStr
    = .ok (cleartext.take (bufferLenEncrypt * k))
  := by
  have hnil : ([] : Bytes).length < bufferLenDecrypt := by decide
  have h := decryptFile_cut_append hsecrets hopens hk hnil
  rw [append_nil] at h
  rw [h]
  simp [decryptLoop, pure, Except.pure, Except.map]

theorem decryptFile_encryptFile {encrypted : Bytes}
    (h : encryptFile crypto cleartext password saltStr nonceStr = .ok encrypted) :
  decryptFile crypto encrypted password saltStr nonceStr = .ok cleartext
  := by
  rw [encryptFile_eq hsecrets] at h
  split_ifs at h with hmax
  obtain rfl := ok.inj h
  have hlast := @length_lastSegment Key crypto secrets cleartext
  have hne : ¬(lastSegment crypto secrets cleartext).length = 0 := by omega
  have hdecrypt : decryptLast crypto secrets (fullBuffers cleartext)
      (lastSegment crypto secrets cleartext)
      = .ok (rest bufferLenEncrypt cleartext) := by
    simp only [decryptLast, lastSegment, hopens _ _ _ (.last hmax)]
    rfl
  rw [decryptFile_cut_append hsecrets hopens (le_min le_rfl hmax) hlast.2, decryptLoop,
    if_neg hne, hdecrypt, Except.map, rest, ← fullBuffers, List.take_append_drop]

omit hopens in
/-- What decrypts without an error is the encrypted file, or the file cut at the end of a
segment. -/
theorem eq_of_decryptFile (hauth : Authentic crypto secrets cleartext) {encrypted result : Bytes}
    (h : decryptFile crypto encrypted password saltStr nonceStr = .ok result) :
  (∃ k ≤ nextSegments cleartext, encrypted = cut crypto secrets cleartext k)
  ∨ encryptFile crypto cleartext password saltStr nonceStr = .ok encrypted
  := by
  rw [decryptFile, hsecrets] at h
  obtain ⟨hbuffers, hle, hlast⟩ := segments_of_decryptLoop hauth (Nat.zero_le _) h
  rw [← range_eq_range'] at hbuffers
  rw [zero_add] at hle hlast
  have heq := flatten_full_append_rest bufferLenDecrypt encrypted
  rw [hbuffers] at heq
  obtain hempty | ⟨hall, hlast⟩ := hlast
  · left
    use (full bufferLenDecrypt encrypted).length, hle
    rw [hempty, append_nil] at heq
    rw [cut, heq]
  · right
    rw [hall] at hle heq
    rw [hlast] at heq
    rw [encryptFile_eq hsecrets, if_pos (hle.trans (min_le_right _ _)), ← heq]
    rfl

omit hopens in
theorem encryptFile_ne_cut (hk : k ≤ nextSegments cleartext) :
  encryptFile crypto cleartext password saltStr nonceStr ≠ .ok (cut crypto secrets cleartext k)
  := by
  intro h
  rw [encryptFile_eq hsecrets] at h
  split_ifs at h with hmax
  have hrest := congrArg (rest bufferLenDecrypt) (ok.inj h)
  have hlast := @length_lastSegment Key crypto secrets cleartext
  rw [rest_cut_append (le_min le_rfl hmax) hlast.2,
    ← append_nil (cut crypto secrets cleartext k), rest_cut_append hk (by decide)] at hrest
  rw [hrest, length_nil] at hlast
  omega

omit hopens in
/-- However a backup was changed, what is decrypted from it is a beginning of the cleartext. -/
theorem decryptFile_isPrefix (hauth : Authentic crypto secrets cleartext) {bytes result : Bytes}
    (h : decryptFile crypto bytes password saltStr nonceStr = .ok result) :
  result <+: cleartext
  := by
  rcases eq_of_decryptFile hsecrets hauth h with ⟨k, hk, rfl⟩ | hencrypt
  · rw [decryptFile_cut hsecrets hauth.opens hk] at h
    rw [← ok.inj h]
    apply take_prefix
  · rw [decryptFile_encryptFile hsecrets hauth.opens hencrypt] at h
    rw [ok.inj h]

end Segments

/-! ### Which files are rejected -/

/-- A failure of the decryption is an error that is returned, once the secrets are there. -/
theorem decryptLoop_error {secrets : CypherSecrets Key} {i : ℕ} {buffers : List Bytes}
    {last : Bytes} {stop : Stop} (h : decryptLoop crypto secrets i buffers last = .error stop) :
  ∃ e, stop = .error e
  := by
  induction buffers generalizing i with
  | nil =>
    rw [decryptLoop] at h
    split_ifs at h
    · cases h
    · rw [decryptLast] at h
      split at h
      · cases h
      · use .wrongPassword
        rw [← error.inj h]
  | cons buffer buffers ih =>
    rw [decryptLoop_cons] at h
    cases hnext : decryptNext crypto secrets i buffer with
    | ok chunk =>
      rw [hnext] at h
      cases hothers : decryptLoop crypto secrets (i + 1) buffers last with
      | ok others =>
        rw [hothers] at h
        cases h
      | error stop' =>
        rw [hothers] at h
        obtain rfl := error.inj h
        apply ih hothers
    | error stop' =>
      rw [hnext] at h
      obtain rfl := error.inj h
      use .wrongPassword
      rw [decryptNext] at hnext
      split_ifs at hnext
      · rw [← error.inj hnext]
      · split at hnext
        · cases hnext
        · rw [← error.inj hnext]

/-- For every cleartext, password, salt and nonce: decryption inverts encryption, and a byte
string that is not the encrypted file is rejected with an error, exactly if the secrets can
be made without a panic and the byte string is not the encrypted file cut at the end of a
segment, of none at all in particular. -/
theorem decryptFile_rejects_iff (cleartext : Bytes) (password saltStr nonceStr : Str)
    (hauth : ∀ secrets, getCypherSecrets crypto password saltStr nonceStr = .ok secrets →
      Authentic crypto secrets cleartext)
    (bytes : Bytes) :
  ((∀ encrypted, encryptFile crypto cleartext password saltStr nonceStr = .ok encrypted →
      decryptFile crypto encrypted password saltStr nonceStr = .ok cleartext)
    ∧ (encryptFile crypto cleartext password saltStr nonceStr ≠ .ok bytes →
        ∃ e, decryptFile crypto bytes password saltStr nonceStr = .error (.error e)))
  ↔ getCypherSecrets crypto password saltStr nonceStr ≠ .error .panic
    ∧ ∀ secrets, getCypherSecrets crypto password saltStr nonceStr = .ok secrets →
        ∀ k ≤ nextSegments cleartext, bytes ≠ cut crypto secrets cleartext k
  := by
  cases hsecrets : getCypherSecrets crypto password saltStr nonceStr with
  | error stop =>
    have hencrypt : encryptFile crypto cleartext password saltStr nonceStr = .error stop := by
      rw [encryptFile, hsecrets]
      rfl
    have hdecrypt : decryptFile crypto bytes password saltStr nonceStr = .error stop := by
      rw [decryptFile, hsecrets]
      rfl
    rw [hencrypt, hdecrypt]
    cases stop with
    | error e => simp
    | panic => simp
  | ok secrets =>
    have hauth := hauth secrets hsecrets
    constructor
    · rintro ⟨-, hrejects⟩
      use by simp
      intro secrets' hsecrets' k hk hcut
      obtain rfl := ok.inj hsecrets'
      obtain ⟨e, he⟩ := hrejects (hcut ▸ encryptFile_ne_cut hsecrets hk)
      rw [hcut, decryptFile_cut hsecrets hauth.opens hk] at he
      cases he
    · rintro ⟨-, hcut⟩
      constructor
      · intro encrypted hencrypted
        apply decryptFile_encryptFile hsecrets hauth.opens hencrypted
      · intro hother
        cases hdecrypt : decryptFile crypto bytes password saltStr nonceStr with
        | ok result =>
          obtain ⟨k, hk, heq⟩ | heq := eq_of_decryptFile hsecrets hauth hdecrypt
          · cases hcut secrets rfl k hk heq
          · cases hother heq
        | error stop =>
          rw [decryptFile, hsecrets] at hdecrypt
          obtain ⟨e, rfl⟩ := decryptLoop_error crypto hdecrypt
          use e

def mark (last : Bool) : Bytes :=
  replicate 16 (if last then 1 else 0)

theorem length_append_mark (last : Bool) (chunk : Bytes) :
  (chunk ++ mark last).length = chunk.length + 16
  := by
  rw [length_append, mark, length_replicate]

/-- A cipher that appends a mark, and knows the chunks of one cleartext. -/
def marking : Cryptography Unit where
  decodeSalt _ := .ok []
  deriveKey _ _ := .ok ()
  encrypt _ _ last chunk := chunk ++ mark last
  decrypt
    | _, i, true, segment =>
      let chunk := rest bufferLenEncrypt cleartext
      if (i = fullBuffers cleartext ∧ i ≤ u32Max) ∧ segment = chunk ++ mark true then some chunk
      else none
    | _, i, false, segment =>
      let chunk := chunk bufferLenEncrypt cleartext i
      if (i < fullBuffers cleartext ∧ i < u32Max) ∧ segment = chunk ++ mark false then some chunk
      else none
  length_encrypt _ _ last chunk := length_append_mark last chunk

theorem authentic_marking (cleartext : Bytes) (secrets : CypherSecrets Unit) :
  Authentic (marking cleartext) secrets cleartext
  := by
  intro i last segment chunk
  cases last with
  | true =>
    simp only [marking, Option.ite_none_right_eq_some, Option.some.injEq]
    constructor
    · rintro ⟨⟨⟨rfl, hmax⟩, rfl⟩, rfl⟩
      exact ⟨.last hmax, rfl⟩
    · rintro ⟨hproduced, rfl⟩
      cases hproduced with
      | last hmax => exact ⟨⟨⟨rfl, hmax⟩, rfl⟩, rfl⟩
  | false =>
    simp only [marking, Option.ite_none_right_eq_some, Option.some.injEq]
    constructor
    · rintro ⟨⟨⟨hi, hmax⟩, rfl⟩, rfl⟩
      exact ⟨.next hi hmax, rfl⟩
    · rintro ⟨hproduced, rfl⟩
      cases hproduced with
      | next hi hmax => exact ⟨⟨⟨hi, hmax⟩, rfl⟩, rfl⟩

/-- A cleartext of one byte more than a buffer. -/
def longerThanBuffer : Bytes := replicate 240 7

def someNonce : Str := str "abcdefghijklmnopqrs"

theorem decryptFile_rejects_oneByte :
  (∀ encrypted,
      encryptFile (marking longerThanBuffer) longerThanBuffer [] [] someNonce = .ok encrypted →
      decryptFile (marking longerThanBuffer) encrypted [] [] someNonce = .ok longerThanBuffer)
  ∧ (encryptFile (marking longerThanBuffer) longerThanBuffer [] [] someNonce ≠ .ok [0] →
      ∃ e, decryptFile (marking longerThanBuffer) [0] [] [] someNonce = .error (.error e))
  := by
  apply (decryptFile_rejects_iff (marking longerThanBuffer) longerThanBuffer [] [] someNonce
    (fun secrets _ => authentic_marking longerThanBuffer secrets) [0]).mpr
  constructor
  · intro h
    cases h
  · intro secrets _ k hk hcut
    have hlength := congrArg length hcut
    rw [cut, length_flatten (length_of_mem_cut hk), length_singleton,
      length_map, length_range, bufferLenDecrypt, bufferLenEncrypt] at hlength
    omega

/-- A backup that is cut at the end of its first segment is decrypted without an error, to
the first part of the cleartext. -/
theorem decryptFile_accepts_cut :
  (∀ secrets, Authentic (marking longerThanBuffer) secrets longerThanBuffer)
  ∧ ∃ encrypted,
      encryptFile (marking longerThanBuffer) longerThanBuffer [] [] someNonce = .ok encrypted
      ∧ encrypted.take 255 ≠ encrypted
      ∧ decryptFile (marking longerThanBuffer) (encrypted.take 255) [] [] someNonce
        = .ok (longerThanBuffer.take 239)
  := by
  use authentic_marking longerThanBuffer
  use replicate 239 7 ++ mark false ++ ([7] ++ mark true)
  decide +kernel

theorem decryptFile_isPrefix_firstSegment :
  decryptFile (marking longerThanBuffer) (replicate 239 7 ++ mark false) [] [] someNonce
      = .ok (replicate 239 7)
    ∧ replicate 239 7 <+: longerThanBuffer
  := by
  have h : decryptFile (marking longerThanBuffer) (replicate 239 7 ++ mark false) [] [] someNonce
      = .ok (replicate 239 7) := by decide +kernel
  exact ⟨h, decryptFile_isPrefix rfl (authentic_marking longerThanBuffer _) h⟩

end RgbLightning.Backup
