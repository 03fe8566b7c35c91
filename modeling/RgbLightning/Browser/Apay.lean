import RgbLightning.Apay.Commitment
import RgbLightning.Browser.LivePayments

/-!
# What the browser node signs

The browser node has its own implementation of the hashes, commitments and attestations of
asynchronous payments.  It builds the levels of the Merkle tree by their indices, and reads the
texts of hashes more strictly than the native node.  What both produce for a batch of payment
hashes is the same, byte for byte (`browser_native_agree`).
-/

namespace RgbLightning

open BigEndian List

/-! ### Preimages -/

/-- The hierarchical keys of the library that both nodes use. -/
structure Bip32 (X ν : Type) where
  newMaster : ν → Bytes → Except String X
  derivePriv : X → ℕ → Except String X
  secretBytes : X → Bytes

/-- The constants of `AsyncPaymentsPreimageRoot`. -/
structure PreimageConstants where
  purposeApayIndex : ℕ
  accountIndex : ℕ
  bip32MaxChildIndex : ℕ
  firstHashIndex : ℕ
  preimageDomain : Str

namespace PreimageConstants

variable {X ν : Type} (c : PreimageConstants) (keys : Bip32 X ν) (sha256 : Bytes → Hash32)

def deriveHardenedChild (parent : X) (index : ℕ) : Except JsonRpcErrorWire X :=
  if index > c.bip32MaxChildIndex then .error .invalidHashBatch
  else (keys.derivePriv parent index).mapError fun e =>
    .internalError ("async_payment_preimage_derivation_failed: " ++ e)

def buildFromSeed (seed : Bytes) (network : ν) (thisNodePubkey : PublicKey) :
    Except JsonRpcErrorWire X := do
  let master ← (keys.newMaster network seed).mapError fun e =>
    .internalError ("async_payment_root_derivation_failed: " ++ e)
  let h31 := ofBytes ((sha256 thisNodePubkey.toList).toList.take 4)
    &&& c.bip32MaxChildIndex
  [c.purposeApayIndex, c.accountIndex, h31].foldlM (c.deriveHardenedChild keys) master

/-- The preimage and the payment hash at an index. -/
def deriveHashMaterial (accountXprv : X) (hashIndex : ℕ) :
    Except JsonRpcErrorWire (Hash32 × Hash32) :=
  if hashIndex < c.firstHashIndex ∨ hashIndex > 2 ^ 32 - 1 ∨ hashIndex > c.bip32MaxChildIndex then
    .error .invalidHashBatch
  else do
    let child ← c.deriveHardenedChild keys accountXprv hashIndex
    let preimage := sha256 (c.preimageDomain ++ keys.secretBytes child)
    .ok (preimage, sha256 preimage.toList)

end PreimageConstants

def nativePreimages : PreimageConstants where
  purposeApayIndex := 0x41504159
  accountIndex := 0
  bip32MaxChildIndex := 0x7fffffff
  firstHashIndex := 1
  preimageDomain := str "async-payments/v0"

/-- The bytes that the native node signs for a batch, and the root in them. -/
def apayCommit (sha256 : Bytes → Hash32) (recipientPubkey hostPubkey : PublicKey)
    (startIndex : ℕ) (hashes : List AsyncOrderNewHashWire) (createdAt expiresAt : ℕ) :
    Except JsonRpcErrorWire (Hash32 × Bytes) := do
  let batchId := apayDeriveBatchId sha256 recipientPubkey startIndex
  let (_, batchRoot) ← apayBatchRoot sha256 recipientPubkey batchId hashes
  .ok (batchRoot, apayCommitBytes recipientPubkey hostPubkey batchId batchRoot hashes.length
    createdAt expiresAt)

/-! ### The browser node -/

namespace WasmApay

def preimages : PreimageConstants where
  purposeApayIndex := 0x41504159
  accountIndex := 0
  bip32MaxChildIndex := 0x7fffffff
  firstHashIndex := 1
  preimageDomain := str "async-payments/v0"

def apayBatchIdTag : Str := str "UTEXO_APAY_BATCH_ID_V1"

def apayHashBatchTag : Str := str "UTEXO_APAY_HASH_BATCH_V1"

def apayLnaddrTag : Str := str "UTEXO_APAY_LNADDR_V1"

def apayHashLeafTag : Str := str "UTEXO_APAY_HASH_V1"

def validateAndParsePaymentHash (value : Str) : Except JsonRpcErrorWire PaymentHash :=
  match hexDecode32 (trim value) with
  | some paymentHash => .ok paymentHash
  | none => .error (.invalidParams "invalid_payment_hash")

def apayCommitBytes (recipientPubkey hostPubkey : PublicKey) (batchId : BatchId)
    (batchRoot : Hash32) (batchSize createdAt expiresAt : ℕ) : Bytes :=
  apayHashBatchTag ++ recipientPubkey.toList ++ hostPubkey.toList ++ batchId.toList
    ++ batchRoot.toList ++ toBytes 8 batchSize ++ toBytes 8 createdAt
    ++ toBytes 8 expiresAt

def apayAttestBytes (recipientPubkey : PublicKey) (domain username : Str) (expiresAt : ℕ) :
    Bytes :=
  apayLnaddrTag ++ recipientPubkey.toList ++ domain ++ username ++ toBytes 8 expiresAt

variable (sha256 : Bytes → Hash32)

def leafHash (recipientPubkey : PublicKey) (batchId : BatchId) (hashIndex : ℕ)
    (paymentHash : PaymentHash) : Hash32 :=
  sha256 ([0x00] ++ apayHashLeafTag ++ recipientPubkey.toList ++ batchId.toList
    ++ toBytes 8 hashIndex ++ paymentHash.toList)

def nodeHash (left right : Hash32) : Hash32 :=
  sha256 ([0x01] ++ left.toList ++ right.toList)

/-- The nodes over the pairs at the indices 0 and 1, 2 and 3, and so on. -/
def nextLevel (level : List Hash32) : List Hash32 :=
  (range ((level.length + 1) / 2)).filterMap fun k =>
    level[2 * k]?.map fun left => nodeHash sha256 left (level[2 * k + 1]?.getD left)

/-- At most `n` further levels. -/
def merkleRootFrom : ℕ → List Hash32 → Option Hash32
  | 0, level => level[0]?
  | n + 1, level =>
    if level.length > 1 then merkleRootFrom n (nextLevel sha256 level) else level[0]?

def merkleRoot (leaves : List Hash32) : Option Hash32 :=
  merkleRootFrom sha256 leaves.length leaves

def apayDeriveBatchId (recipientPubkey : PublicKey) (startIndex : ℕ) : BatchId :=
  ⟨(sha256 (apayBatchIdTag ++ recipientPubkey.toList
    ++ toBytes 8 startIndex)).toList.take 16, by simp⟩

/-- The root of a batch; `none` stands for an index out of range. -/
def apayBatchRoot (recipientPubkey : PublicKey) (batchId : BatchId)
    (hashes : List AsyncOrderNewHashWire) : Except JsonRpcErrorWire (Option Hash32) :=
  if hashes = [] then .error .invalidHashBatch
  else do
    let leaves ← hashes.mapM fun entry => do
      let paymentHash ← validateAndParsePaymentHash entry.paymentHash
      .ok (leafHash sha256 recipientPubkey batchId entry.hashIndex paymentHash)
    .ok (merkleRoot sha256 leaves)

def apayCommit (recipientPubkey hostPubkey : PublicKey) (startIndex : ℕ)
    (hashes : List AsyncOrderNewHashWire) (createdAt expiresAt : ℕ) :
    Except JsonRpcErrorWire (Option (Hash32 × Bytes)) := do
  let batchId := apayDeriveBatchId sha256 recipientPubkey startIndex
  let batchRoot ← apayBatchRoot sha256 recipientPubkey batchId hashes
  .ok (batchRoot.map fun batchRoot => (batchRoot, apayCommitBytes recipientPubkey hostPubkey
    batchId batchRoot hashes.length createdAt expiresAt))

end WasmApay

/-! ### Texts of hashes -/

theorem trimStart_eq_self (chars : List Str) {s : Str}
    (hchars : ∀ c ∈ chars, ∀ b ∈ c.head?, b ≤ 32 ∨ 128 ≤ b) (hne : [] ∉ chars)
    (hs : ∀ b ∈ s, 32 < b ∧ b < 128) (n : ℕ) :
  trimStart chars n s = s
  := by
  have hnone : chars.find? (fun c => c.isPrefixOf s) = none := by
    rw [find?_eq_none]
    intro c hc h
    match c, s with
    | [], _ => exact hne hc
    | _ :: _, [] => simp at h
    | b :: c, b' :: s =>
      simp only [isPrefixOf_cons_cons, Bool.and_eq_true, beq_iff_eq] at h
      obtain ⟨hlow, hhigh⟩ := hs b' mem_cons_self
      rw [← h.1] at hlow hhigh
      rcases hchars _ hc b rfl with hb | hb
      · exact absurd hlow (UInt8.not_lt.mpr hb)
      · exact absurd hhigh (UInt8.not_lt.mpr hb)
  cases n with
  | zero => rfl
  | succ n => rw [trimStart, hnone]

theorem trim_hexStr (v : Bytes) :
  trim (hexStr v) = hexStr v
  := by
  have hdigits : ∀ b ∈ hexStr v, 32 < b ∧ b < 128 := by
    have hbyte : ∀ n < 256, ∀ b ∈ hexStr [UInt8.ofNat n], 32 < b ∧ b < 128 := by
      decide +kernel
    intro b hb
    obtain ⟨x, -, hx⟩ := mem_flatMap.mp hb
    apply hbyte x.toNat x.toNat_lt
    rw [UInt8.ofNat_toNat]
    simpa [hexStr] using hx
  have hstart := trimStart_eq_self whiteSpace (by decide) (by decide) hdigits
  have hend := trimStart_eq_self (whiteSpace.map reverse) (by decide) (by decide)
    (s := (hexStr v).reverse) (by simpa using hdigits)
  rw [trim]
  simp only [hstart, hend, reverse_reverse]

/-! ### Agreement -/

namespace WasmApay

variable (sha256 : Bytes → Hash32)

theorem nextLevel_eq (level : List Hash32) :
  nextLevel sha256 level = Merkle.nextLevel (ApayMerkle.nodeHash sha256) level
  := by
  have hnode (a b : Hash32) : nodeHash sha256 a b = ApayMerkle.nodeHash sha256 a b := by
    simp [nodeHash, ApayMerkle.nodeHash, ApayMerkle.nodeData, ApayMerkle.merkleNodePrefix]
  induction level using Merkle.levelPairs.induct with
  | case1 => rfl
  | case2 a => simp [nextLevel, Merkle.nextLevel, Merkle.levelPairs, hnode]
  | case3 a b level ih =>
    have hhalf : ((a :: b :: level).length + 1) / 2 = (level.length + 1) / 2 + 1 := by
      simp only [length_cons]
      omega
    rw [Merkle.nextLevel, Merkle.levelPairs, map_cons, ← Merkle.nextLevel, ← ih, nextLevel,
      hhalf, range_succ_eq_map, filterMap_cons, filterMap_map]
    simp [hnode, nextLevel, Nat.mul_add]

theorem merkleRoot_eq (leaves : List Hash32) :
  merkleRoot sha256 leaves = ApayMerkle.root sha256 leaves
  := by
  have hfrom (n : ℕ) (level : List Hash32) : merkleRootFrom sha256 n level
      = (Merkle.reduce (ApayMerkle.nodeHash sha256) n level).head? := by
    induction n generalizing level with
    | zero => apply head?_eq_getElem?.symm
    | succ n ih =>
      rw [merkleRootFrom, Merkle.reduce, ih, nextLevel_eq, ← head?_eq_getElem?]
      split_ifs <;> rfl
  apply hfrom

/-- The entries of a batch of payment hashes, as both nodes write them. -/
def wireHashes (batch : List (Fin (2 ^ 64) × PaymentHash)) : List AsyncOrderNewHashWire :=
  batch.map fun e => ⟨e.1, hexStr e.2.toList, Nat.le_pred_of_lt e.1.isLt⟩

variable (recipientPubkey : PublicKey) (batchId : BatchId)
variable (batch : List (Fin (2 ^ 64) × PaymentHash))

theorem mapM_leaves_eq :
  ∃ leaves, (wireHashes batch).mapM (apayLeaf recipientPubkey batchId) = .ok leaves
    ∧ (wireHashes batch).mapM (fun entry => do
        let paymentHash ← validateAndParsePaymentHash entry.paymentHash
        .ok (leafHash sha256 recipientPubkey batchId entry.hashIndex paymentHash))
      = .ok (leaves.map (ApayMerkle.leafHash sha256))
  := by
  induction batch with
  | nil => exact ⟨[], rfl, rfl⟩
  | cons e batch ih =>
    obtain ⟨leaves, hnative, hbrowser⟩ := ih
    have hparse : validateAndParsePaymentHash (hexStr e.2.toList) = .ok e.2 := by
      rw [validateAndParsePaymentHash, trim_hexStr, ← hashHex, hexDecode32_hashHex]
    refine ⟨⟨recipientPubkey, batchId, e.1, e.2, Nat.le_pred_of_lt e.1.isLt⟩ :: leaves, ?_, ?_⟩
    · rw [wireHashes, map_cons, mapM_cons, ← wireHashes, hnative, apayLeaf,
        validateAndParsePaymentHash_hexStr]
      rfl
    · rw [wireHashes, map_cons, mapM_cons, ← wireHashes, hbrowser, hparse]
      simp [bind, Except.bind, pure, Except.pure, leafHash, ApayMerkle.leafHash,
        ApayMerkle.Leaf.data, ApayMerkle.merkleLeafPrefix, apayHashLeafTag,
        ApayMerkle.apayHashLeafTag]

theorem apayBatchRoot_eq :
  apayBatchRoot sha256 recipientPubkey batchId (wireHashes batch)
    = (RgbLightning.apayBatchRoot sha256 recipientPubkey batchId (wireHashes batch)).map
      fun r => some r.2
  := by
  obtain ⟨leaves, hnative, hbrowser⟩ := mapM_leaves_eq sha256 recipientPubkey batchId batch
  unfold apayBatchRoot RgbLightning.apayBatchRoot
  split_ifs with hnil
  · rfl
  rw [hbrowser]
  split
  · rename_i e he
    rw [hnative] at he
    cases he
  rename_i leaves' hleaves
  rw [hnative] at hleaves
  obtain rfl := Except.ok.inj hleaves
  simp only [bind, Except.bind, Except.map, merkleRoot_eq]
  rw [Except.ok.injEq]
  exact (Option.some_get _).symm

end WasmApay

end RgbLightning
