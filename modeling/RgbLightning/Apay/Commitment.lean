import RgbLightning.Apay.Wire
import RgbLightning.Lib.BigEndian
import RgbLightning.Lib.Merkle

/-!
# What a recipient signs

A recipient signs two kinds of messages for its invoice host: the payment address under which
it can be reached, and every batch of payment hashes that it hands out, by the root of a
Merkle tree over the hashes.

The message for an address does not mark where the domain ends and the user name begins
(`attestation_unambiguous_iff`).  The message for a batch has fields of fixed length only: it
determines the batch as long as no two of the byte strings that are hashed have the same hash
(`commitment_binding`).
-/

namespace RgbLightning

open BigEndian Merkle List

/-! ### Address attestations -/

/-- A payment address of a node, with the time until which it is attested. -/
@[ext]
structure ApayAddress where
  recipientPubkey : PublicKey
  domain : Str
  username : Str
  expiresAt : ℕ
  expiresAt_le : expiresAt ≤ u64Max

instance : DecidableEq ApayAddress := fun _ _ => decidable_of_iff _ ApayAddress.ext_iff.symm

def apayLnaddrTag : Str := str "UTEXO_APAY_LNADDR_V1"

def apayAttestBytes (a : ApayAddress) : Bytes :=
  [apayLnaddrTag, a.recipientPubkey.toList, a.domain, a.username,
    toBytes 8 a.expiresAt].flatten

def buildApayAddressAttestation (recipientPubkeyHex domain username : Str) (expiresAt : ℕ)
    (hexpires : expiresAt ≤ u64Max) (sign : Bytes → Option Str) :
    Except JsonRpcErrorWire Str := do
  let recipientPubkey ← apayDecodeHexFixed 33 "recipient_pubkey" recipientPubkeyHex
  match sign (apayAttestBytes ⟨recipientPubkey, domain, username, expiresAt, hexpires⟩) with
  | some sig => .ok sig
  | none => .error (.internalError "apay_attest_sign_failed")

theorem toBytes_eight_injective {m n : ℕ} (hm : m ≤ u64Max) (hn : n ≤ u64Max)
    (h : toBytes 8 m = toBytes 8 n) :
  m = n
  := by
  have hmax : u64Max < 256 ^ 8 := by decide
  apply toBytes_injOn 8 _ _ h
  · apply lt_of_le_of_lt hm hmax
  · apply lt_of_le_of_lt hn hmax

/-- Two attestations are the same message when they agree in the node, the time and the
text that the domain and the user name make together. -/
theorem apayAttestBytes_eq_iff (a b : ApayAddress) :
  apayAttestBytes a = apayAttestBytes b
    ↔ a.recipientPubkey = b.recipientPubkey ∧ a.expiresAt = b.expiresAt
      ∧ a.domain ++ a.username = b.domain ++ b.username
  := by
  have hjoin (a : ApayAddress) : apayAttestBytes a = apayLnaddrTag
      ++ (a.recipientPubkey.toList
        ++ ((a.domain ++ a.username) ++ toBytes 8 a.expiresAt)) := by
    simp [apayAttestBytes]
  rw [hjoin a, hjoin b]
  constructor
  · intro h
    obtain ⟨hkey, htail⟩ := append_inj (append_cancel_left h) (by simp)
    obtain ⟨htext, hexp⟩ := append_inj' htail (by simp)
    exact ⟨List.Vector.toList_injective hkey,
      toBytes_eight_injective a.expiresAt_le b.expiresAt_le hexp, htext⟩
  · rintro ⟨hkey, hexp, htext⟩
    rw [hkey, hexp, htext]

/-- The message determines the address exactly when no other split of the same text is in
play: two addresses are told apart if and only if, should they agree in everything else,
their domains have the same length. -/
theorem attestation_unambiguous_iff (a b : ApayAddress) :
  (apayAttestBytes a = apayAttestBytes b → a = b)
    ↔ (a.recipientPubkey = b.recipientPubkey → a.expiresAt = b.expiresAt →
        a.domain ++ a.username = b.domain ++ b.username →
        a.domain.length = b.domain.length)
  := by
  rw [apayAttestBytes_eq_iff]
  constructor
  · intro h hkey hexp htext
    rw [h ⟨hkey, hexp, htext⟩]
  · rintro h ⟨hkey, hexp, htext⟩
    obtain ⟨hdomain, husername⟩ := append_inj htext (h hkey hexp htext)
    obtain ⟨_, _, _, _, _⟩ := a
    obtain ⟨_, _, _, _, _⟩ := b
    obtain rfl : _ = _ := hkey
    obtain rfl : _ = _ := hexp
    obtain rfl : _ = _ := hdomain
    obtain rfl : _ = _ := husername
    rfl

/-- The addresses `alice@pay.me` and `ealice@pay.m` of one node have the same
attestation. -/
theorem attestation_ambiguous :
  let node : PublicKey := List.Vector.replicate 33 2
  let alice : ApayAddress := ⟨node, str "pay.me", str "alice", 0, by decide⟩
  let ealice : ApayAddress := ⟨node, str "pay.m", str "ealice", 0, by decide⟩
  apayAttestBytes alice = apayAttestBytes ealice ∧ alice ≠ ealice
  := by
  constructor
  · rw [apayAttestBytes_eq_iff]
    decide +kernel
  · intro h
    have hdomain := congrArg ApayAddress.domain h
    revert hdomain
    decide +kernel

/-! ### The Merkle tree over a batch -/

abbrev Hash32 : Type := List.Vector UInt8 32

abbrev BatchId : Type := List.Vector UInt8 16

namespace ApayMerkle

/-- What a leaf of the tree hashes: a payment hash, its index, its batch and its node. -/
@[ext]
structure Leaf where
  recipientPubkey : PublicKey
  batchId : BatchId
  hashIndex : ℕ
  paymentHash : PaymentHash
  hashIndex_le : hashIndex ≤ u64Max

instance : DecidableEq Leaf := fun _ _ => decidable_of_iff _ Leaf.ext_iff.symm

def apayHashLeafTag : Str := str "UTEXO_APAY_HASH_V1"

def merkleLeafPrefix : UInt8 := 0x00

def merkleNodePrefix : UInt8 := 0x01

/-- The byte string that a leaf hashes. -/
def Leaf.data (l : Leaf) : Bytes :=
  [[merkleLeafPrefix], apayHashLeafTag, l.recipientPubkey.toList, l.batchId.toList,
    toBytes 8 l.hashIndex, l.paymentHash.toList].flatten

/-- The byte string that a node over a pair hashes. -/
def nodeData (p : Hash32 × Hash32) : Bytes :=
  [[merkleNodePrefix], p.1.toList, p.2.toList].flatten

abbrev MerkleProofElement : Type := Step Hash32

section Tree

variable (sha256 : Bytes → Hash32)

def leafHash (l : Leaf) : Hash32 := sha256 l.data

def nodeHash (left right : Hash32) : Hash32 := sha256 (nodeData (left, right))

/-- The root over a list of leaves; the assertion that there is a leaf may fail. -/
def root (leaves : List Hash32) : Option Hash32 :=
  Merkle.root (nodeHash sha256) leaves

/-- The proof for the leaf at an index; the assertion that there is one may fail. -/
def proof (leaves : List Hash32) (index : ℕ) : Option (List MerkleProofElement) :=
  if index < leaves.length then
    pathFrom (nodeHash sha256) leaves.length leaves index
  else none

def verify (leaf : Hash32) (proof : List MerkleProofElement) (expectedRoot : Hash32) : Bool :=
  climb (nodeHash sha256) leaf proof = expectedRoot

/-- The byte strings that are hashed to compute the root over leaves. -/
def rootData (leaves : List Leaf) : List Bytes :=
  leaves.map Leaf.data
    ++ (treePairs (nodeHash sha256) leaves.length
      (leaves.map (leafHash sha256))).map nodeData

/-- The byte strings that are hashed to compute a leaf and to verify a proof for it. -/
def verifyData (leaf : Leaf) (proof : List MerkleProofElement) : List Bytes :=
  leaf.data :: (pathPairs (nodeHash sha256) (leafHash sha256 leaf) proof).map nodeData

/-- No two of the byte strings have the same hash. -/
def CollisionFree (D : List Bytes) : Prop :=
  ∀ x ∈ D, ∀ y ∈ D, sha256 x = sha256 y → x = y
deriving Decidable

end Tree

/-- The proof that is made for a leaf of a tree is accepted for its root. -/
theorem verify_proof (sha256 : Bytes → Hash32) (leaves : List Hash32)
    (index : Fin leaves.length) :
  ∃ r path, root sha256 leaves = some r ∧ proof sha256 leaves index = some path ∧
    verify sha256 (leaves.get index) path r = true
  := by
  obtain ⟨path, hpath, hroot⟩ := exists_climb_eq_root (nodeHash sha256)
    (getElem?_eq_getElem index.isLt)
  use climb (nodeHash sha256) (leaves.get index) path, path, hroot
  constructor
  · rw [proof, if_pos index.isLt, hpath]
  · rw [verify, decide_eq_true_iff]

theorem Leaf.data_injective :
  Function.Injective Leaf.data
  := by
  intro a b h
  have hfields := eq_iff_flatten_eq.mpr ⟨h, by simp⟩
  simp only [List.cons.injEq, and_true, true_and] at hfields
  obtain ⟨hkey, hid, hindex, hhash⟩ := hfields
  obtain ⟨_, _, _, _, ha⟩ := a
  obtain ⟨_, _, _, _, hb⟩ := b
  obtain rfl := List.Vector.toList_injective hkey
  obtain rfl := List.Vector.toList_injective hid
  obtain rfl := toBytes_eight_injective ha hb hindex
  obtain rfl := List.Vector.toList_injective hhash
  rfl

theorem nodeData_injective :
  Function.Injective nodeData
  := by
  rintro ⟨l, r⟩ ⟨l', r'⟩ h
  have hfields := eq_iff_flatten_eq.mpr ⟨h, by simp⟩
  simp only [List.cons.injEq, and_true, true_and] at hfields
  rw [List.Vector.toList_injective hfields.1, List.Vector.toList_injective hfields.2]

/-- A leaf and a node never hash the same byte string: their first bytes differ. -/
theorem nodeData_ne_data (p : Hash32 × Hash32) (l : Leaf) :
  nodeData p ≠ l.data
  := by
  intro h
  have hfirst := congrArg head? h
  simp [nodeData, Leaf.data, merkleLeafPrefix, merkleNodePrefix] at hfirst

theorem nodeData_mem_rootData {sha256 : Bytes → Hash32} {leaves : List Leaf}
    {p : Hash32 × Hash32}
    (hp : p ∈ treePairs (nodeHash sha256) (leaves.map (leafHash sha256)).length
      (leaves.map (leafHash sha256))) :
  nodeData p ∈ rootData sha256 leaves
  := by
  rw [length_map] at hp
  apply List.mem_append_right
  apply mem_map_of_mem hp

section Binding

variable {sha256 : Bytes → Hash32} {D : List Bytes} (hD : CollisionFree sha256 D)
include hD

theorem nodeHash_injOn {P : List (Hash32 × Hash32)} (hP : ∀ p ∈ P, nodeData p ∈ D) :
  Set.InjOn (fun p : Hash32 × Hash32 => nodeHash sha256 p.1 p.2) {p | p ∈ P}
  := by
  intro p hp q hq h
  apply nodeData_injective
  apply hD _ (hP p hp) _ (hP q hq) h

theorem nodeHash_ne_leafHash {p : Hash32 × Hash32} {l : Leaf} (hp : nodeData p ∈ D)
    (hl : l.data ∈ D) :
  nodeHash sha256 p.1 p.2 ≠ leafHash sha256 l
  := by
  intro h
  exact nodeData_ne_data p l (hD _ hp _ hl h)

/-- Without collisions a proof that is accepted starts at a leaf of the tree. -/
theorem mem_of_verify {leaves : List Leaf} {leaf : Leaf} {proof : List MerkleProofElement}
    {r : Hash32} (hleaves : ∀ x ∈ rootData sha256 leaves, x ∈ D)
    (hproof : ∀ x ∈ verifyData sha256 leaf proof, x ∈ D)
    (hroot : root sha256 (leaves.map (leafHash sha256)) = some r)
    (h : verify sha256 (leafHash sha256 leaf) proof r = true) :
  leafHash sha256 leaf ∈ leaves.map (leafHash sha256)
  := by
  have hpairs : ∀ p ∈ treePairs (nodeHash sha256) (leaves.map (leafHash sha256)).length
        (leaves.map (leafHash sha256))
      ++ pathPairs (nodeHash sha256) (leafHash sha256 leaf) proof, nodeData p ∈ D := by
    rw [forall_mem_append]
    constructor
    · intro p hp
      apply hleaves _ (nodeData_mem_rootData hp)
    · intro p hp
      apply hproof
      apply mem_cons_of_mem
      apply mem_map_of_mem hp
  apply mem_of_climb_eq_root (nodeHash_injOn hD hpairs)
    (fun p hp => nodeHash_ne_leafHash hD (hpairs p hp) (hproof _ mem_cons_self))
    (fun p hp => List.mem_append_right _ hp) (fun p hp => List.mem_append_left _ hp)
    _ hroot (of_decide_eq_true h)
  intro p hp hmem
  obtain ⟨l, hl, heq⟩ := mem_map.mp hmem
  refine nodeHash_ne_leafHash hD (hpairs p hp) ?_ heq.symm
  apply hleaves
  apply List.mem_append_left
  apply mem_map_of_mem hl

theorem eq_of_root_eq {leaves1 leaves2 : List Leaf} {r : Hash32}
    (h1 : ∀ x ∈ rootData sha256 leaves1, x ∈ D) (h2 : ∀ x ∈ rootData sha256 leaves2, x ∈ D)
    (hlen : leaves1.length = leaves2.length)
    (hr1 : root sha256 (leaves1.map (leafHash sha256)) = some r)
    (hr2 : root sha256 (leaves2.map (leafHash sha256)) = some r) :
  leaves1 = leaves2
  := by
  have hpairs {leaves : List Leaf} (h : ∀ x ∈ rootData sha256 leaves, x ∈ D) :
      ∀ p ∈ treePairs (nodeHash sha256) (leaves.map (leafHash sha256)).length
        (leaves.map (leafHash sha256)), nodeData p ∈ D :=
    fun p hp => h _ (nodeData_mem_rootData hp)
  have hhashes : leaves1.map (leafHash sha256) = leaves2.map (leafHash sha256) := by
    apply Merkle.eq_of_root_eq (nodeHash sha256) (nodeHash_injOn hD
      (forall_mem_append.mpr ⟨hpairs h1, hpairs h2⟩))
      (fun p hp => List.mem_append_left _ hp) (fun p hp => List.mem_append_right _ hp)
      (by simpa using hlen) hr1 hr2
  have hdata : leaves1.map Leaf.data = leaves2.map Leaf.data := by
    apply map_injOn (f := sha256) (P := D)
    · intro x hx y hy hxy
      apply hD x hx y hy hxy
    · intro x hx
      apply h1 x (List.mem_append_left _ hx)
    · intro x hx
      apply h2 x (List.mem_append_left _ hx)
    · rw [map_map, map_map]
      apply hhashes
  apply map_injective_iff.mpr Leaf.data_injective hdata

end Binding

end ApayMerkle

/-! ### Batch commitments -/

def apayBatchIdTag : Str := str "UTEXO_APAY_BATCH_ID_V1"

def apayHashBatchTag : Str := str "UTEXO_APAY_HASH_BATCH_V1"

def apayLeaf (recipientPubkey : PublicKey) (batchId : BatchId) (entry : AsyncOrderNewHashWire) :
    Except JsonRpcErrorWire ApayMerkle.Leaf :=
  match validateAndParsePaymentHash entry.paymentHash with
  | none => .error (.invalidParams "invalid_payment_hash")
  | some paymentHash =>
    .ok ⟨recipientPubkey, batchId, entry.hashIndex, paymentHash, entry.hashIndex_le⟩

def apayCommitBytes (recipientPubkey hostPubkey : PublicKey) (batchId : BatchId)
    (batchRoot : Hash32) (batchSize createdAt expiresAt : ℕ) : Bytes :=
  [apayHashBatchTag, recipientPubkey.toList, hostPubkey.toList, batchId.toList,
    batchRoot.toList, toBytes 8 batchSize, toBytes 8 createdAt,
    toBytes 8 expiresAt].flatten

/-- A commitment to a batch of hashes, as it is sent. -/
structure ApayBatchCommitmentWire where
  hostPubkey : Str
  batchId : Str
  batchRoot : Str
  batchSize : ℕ
  batchSig : Str
  createdAt : ℕ
  expiresAt : ℕ
deriving DecidableEq

/-- A batch that a recipient commits to.  Its callers take the index of the first hash for
the start of the batch, and stop if there is none. -/
structure ApayBatch where
  recipientPubkeyHex : Str
  hostPubkeyHex : Str
  hashes : List AsyncOrderNewHashWire
  createdAt : ℕ
  expiresAt : ℕ
  hashes_ne_nil : hashes ≠ []
  length_hashes_le : hashes.length ≤ u64Max

def ApayBatch.startIndex (b : ApayBatch) : ℕ :=
  (b.hashes.head b.hashes_ne_nil).hashIndex

/-- The entries of a batch, with the payment hashes that their texts stand for. -/
def ApayBatch.entries (b : ApayBatch) : List (ℕ × Option PaymentHash) :=
  b.hashes.map fun e => (e.hashIndex, validateAndParsePaymentHash e.paymentHash)

/-- What is ready when a batch is signed. -/
structure ApayCommit where
  recipientPubkey : PublicKey
  hostPubkey : PublicKey
  batchId : BatchId
  leaves : List ApayMerkle.Leaf
  batchRoot : Hash32
  commit : Bytes
deriving DecidableEq

section Commit

variable (sha256 : Bytes → Hash32)

def apayDeriveBatchId (recipientPubkey : PublicKey) (startIndex : ℕ) : BatchId :=
  let digest := sha256
    [apayBatchIdTag, recipientPubkey.toList, toBytes 8 startIndex].flatten
  ⟨digest.toList.take 16, by simp⟩

/-- The root of a batch, with the leaves below it. -/
def apayBatchRoot (recipientPubkey : PublicKey) (batchId : BatchId)
    (hashes : List AsyncOrderNewHashWire) :
    Except JsonRpcErrorWire (List ApayMerkle.Leaf × Hash32) :=
  if hne : hashes = [] then .error .invalidHashBatch
  else
    match hleaves : hashes.mapM (apayLeaf recipientPubkey batchId) with
    | .error e => .error e
    | .ok leaves =>
      -- The assertion of `root` holds: there are as many leaves as hashes.
      .ok (leaves, (ApayMerkle.root sha256 (leaves.map (ApayMerkle.leafHash sha256))).get
        (Merkle.isSome_root _ (by
          have hlen := (forall₂_of_mapM_eq_ok hleaves).length_eq
          simpa [← length_eq_zero_iff, ← hlen] using hne)))

/-- `build_apay_batch_commitment` until it signs. -/
def ApayBatch.prepare (b : ApayBatch) : Except JsonRpcErrorWire ApayCommit := do
  let recipientPubkey ← apayDecodeHexFixed 33 "recipient_pubkey" b.recipientPubkeyHex
  let hostPubkey ← apayDecodeHexFixed 33 "host_pubkey" b.hostPubkeyHex
  let batchId := apayDeriveBatchId sha256 recipientPubkey b.startIndex
  let (leaves, batchRoot) ← apayBatchRoot sha256 recipientPubkey batchId b.hashes
  let commit := apayCommitBytes recipientPubkey hostPubkey batchId batchRoot b.hashes.length
    b.createdAt b.expiresAt
  .ok ⟨recipientPubkey, hostPubkey, batchId, leaves, batchRoot, commit⟩

def buildApayBatchCommitment (b : ApayBatch) (sign : Bytes → Option Str) :
    Except JsonRpcErrorWire ApayBatchCommitmentWire := do
  let c ← b.prepare sha256
  match sign c.commit with
  | none => .error (.internalError "apay_batch_sign_failed")
  | some batchSig =>
    .ok ⟨hexStr c.hostPubkey.toList, hexStr c.batchId.toList, hexStr c.batchRoot.toList,
      b.hashes.length, batchSig, b.createdAt, b.expiresAt⟩

end Commit

/-! ### A commitment determines its batch -/

theorem apayCommitBytes_injective {recipient1 recipient2 host1 host2 : PublicKey}
    {id1 id2 : BatchId} {root1 root2 : Hash32} {size1 size2 created1 created2 expires1
    expires2 : ℕ} (hsize1 : size1 ≤ u64Max) (hsize2 : size2 ≤ u64Max)
    (h : apayCommitBytes recipient1 host1 id1 root1 size1 created1 expires1
      = apayCommitBytes recipient2 host2 id2 root2 size2 created2 expires2) :
  recipient1 = recipient2 ∧ host1 = host2 ∧ root1 = root2 ∧ size1 = size2
  := by
  have hfields := eq_iff_flatten_eq.mpr ⟨h, by simp⟩
  simp only [List.cons.injEq, and_true, true_and] at hfields
  obtain ⟨hrecipient, hhost, -, hroot, hsize, -, -⟩ := hfields
  exact ⟨List.Vector.toList_injective hrecipient, List.Vector.toList_injective hhost,
    List.Vector.toList_injective hroot, toBytes_eight_injective hsize1 hsize2 hsize⟩

variable {recipientPubkey : PublicKey} {batchId : BatchId}
variable {sha256 : Bytes → Hash32}

theorem apayBatchRoot_eq_ok {hashes : List AsyncOrderNewHashWire} {leaves : List ApayMerkle.Leaf}
    {r : Hash32} (h : apayBatchRoot sha256 recipientPubkey batchId hashes = .ok (leaves, r)) :
  Forall₂ (fun e l => apayLeaf recipientPubkey batchId e = .ok l) hashes leaves
    ∧ ApayMerkle.root sha256 (leaves.map (ApayMerkle.leafHash sha256)) = some r
  := by
  unfold apayBatchRoot at h
  split at h
  next => cases h
  next hne =>
    split at h
    next => cases h
    next leaves' hleaves =>
      simp only [Except.ok.injEq, Prod.mk.injEq] at h
      obtain ⟨rfl, rfl⟩ := h
      exact ⟨forall₂_of_mapM_eq_ok hleaves, (Option.some_get _).symm⟩

theorem ApayBatch.prepare_eq_ok {b : ApayBatch} {c : ApayCommit} (h : b.prepare sha256 = .ok c) :
  apayDecodeHexFixed 33 "recipient_pubkey" b.recipientPubkeyHex = .ok c.recipientPubkey
    ∧ apayDecodeHexFixed 33 "host_pubkey" b.hostPubkeyHex = .ok c.hostPubkey
    ∧ Forall₂ (fun e l => apayLeaf c.recipientPubkey c.batchId e = .ok l) b.hashes c.leaves
    ∧ ApayMerkle.root sha256 (c.leaves.map (ApayMerkle.leafHash sha256)) = some c.batchRoot
    ∧ c.commit = apayCommitBytes c.recipientPubkey c.hostPubkey c.batchId c.batchRoot
      b.hashes.length b.createdAt b.expiresAt
  := by
  unfold ApayBatch.prepare at h
  obtain ⟨recipient, hrecipient, h⟩ := bind_eq_ok.mp h
  obtain ⟨host, hhost, h⟩ := bind_eq_ok.mp h
  obtain ⟨⟨leaves, r⟩, hroot, h⟩ := bind_eq_ok.mp h
  obtain rfl := Except.ok.inj h
  obtain ⟨hleaves, hr⟩ := apayBatchRoot_eq_ok hroot
  exact ⟨hrecipient, hhost, hleaves, hr, rfl⟩

theorem apayLeaf_eq_ok {e : AsyncOrderNewHashWire} {l : ApayMerkle.Leaf}
    (h : apayLeaf recipientPubkey batchId e = .ok l) :
  (e.hashIndex, validateAndParsePaymentHash e.paymentHash) = (l.hashIndex, some l.paymentHash)
  := by
  unfold apayLeaf at h
  split at h
  next => cases h
  next paymentHash hparse =>
    obtain rfl := Except.ok.inj h
    rw [hparse]

theorem ApayBatch.entries_eq {b : ApayBatch} {leaves : List ApayMerkle.Leaf}
    (h : Forall₂ (fun e l => apayLeaf recipientPubkey batchId e = .ok l) b.hashes leaves) :
  b.entries = leaves.map fun l => (l.hashIndex, some l.paymentHash)
  := by
  unfold ApayBatch.entries
  generalize b.hashes = hashes at h ⊢
  induction h with
  | nil => rfl
  | cons he _ ih => rw [map_cons, map_cons, ih, apayLeaf_eq_ok he]

theorem ApayBatch.startIndex_eq (b : ApayBatch) :
  b.entries.head?.map Prod.fst = some b.startIndex
  := by
  rw [ApayBatch.entries, ApayBatch.startIndex, head?_map,
    head?_eq_some_head b.hashes_ne_nil]
  rfl

/-- Without collisions the message determines the node, the host and the entries. -/
theorem ApayBatch.eq_of_commit_eq {b1 b2 : ApayBatch} {c1 c2 : ApayCommit}
    (h1 : b1.prepare sha256 = .ok c1) (h2 : b2.prepare sha256 = .ok c2)
    (hfree : ApayMerkle.CollisionFree sha256
      (ApayMerkle.rootData sha256 c1.leaves ++ ApayMerkle.rootData sha256 c2.leaves))
    (h : c1.commit = c2.commit) :
  c1.recipientPubkey = c2.recipientPubkey ∧ c1.hostPubkey = c2.hostPubkey
    ∧ b1.entries = b2.entries
  := by
  obtain ⟨-, -, hleaves1, hroot1, hcommit1⟩ := ApayBatch.prepare_eq_ok h1
  obtain ⟨-, -, hleaves2, hroot2, hcommit2⟩ := ApayBatch.prepare_eq_ok h2
  rw [hcommit1, hcommit2] at h
  obtain ⟨hrecipient, hhost, hroot, hsize⟩ :=
    apayCommitBytes_injective b1.length_hashes_le b2.length_hashes_le h
  rw [hroot] at hroot1
  have hleaves : c1.leaves = c2.leaves := by
    apply ApayMerkle.eq_of_root_eq hfree (fun x hx => List.mem_append_left _ hx)
      (fun x hx => List.mem_append_right _ hx) _ hroot1 hroot2
    rw [← hleaves1.length_eq, ← hleaves2.length_eq, hsize]
  refine ⟨hrecipient, hhost, ?_⟩
  rw [ApayBatch.entries_eq hleaves1, ApayBatch.entries_eq hleaves2, hleaves]

/-- As long as the byte strings that are hashed do not collide, a Merkle proof is accepted
only for the hash of a leaf of the tree, and two commitments that are the same message are
commitments of the same node to the same host, with the same number of hashes, the same
start and the same payment hashes. -/
theorem commitment_binding (sha256 : Bytes → Hash32) :
  (∀ (leaves : List ApayMerkle.Leaf) (leaf : ApayMerkle.Leaf)
    (proof : List ApayMerkle.MerkleProofElement) (r : Hash32),
      ApayMerkle.CollisionFree sha256
        (ApayMerkle.rootData sha256 leaves ++ ApayMerkle.verifyData sha256 leaf proof) →
      ApayMerkle.root sha256 (leaves.map (ApayMerkle.leafHash sha256)) = some r →
      ApayMerkle.verify sha256 (ApayMerkle.leafHash sha256 leaf) proof r = true →
      ApayMerkle.leafHash sha256 leaf ∈ leaves.map (ApayMerkle.leafHash sha256))
    ∧ ∀ (b₁ b₂ : ApayBatch) (c₁ c₂ : ApayCommit),
      b₁.prepare sha256 = .ok c₁ → b₂.prepare sha256 = .ok c₂ →
      ApayMerkle.CollisionFree sha256
        (ApayMerkle.rootData sha256 c₁.leaves ++ ApayMerkle.rootData sha256 c₂.leaves) →
      c₁.commit = c₂.commit →
      c₁.recipientPubkey = c₂.recipientPubkey ∧ c₁.hostPubkey = c₂.hostPubkey
        ∧ b₁.hashes.length = b₂.hashes.length ∧ b₁.startIndex = b₂.startIndex
        ∧ b₁.entries = b₂.entries
  := by
  constructor
  · intro leaves leaf proof r hfree hroot h
    apply ApayMerkle.mem_of_verify hfree (fun x hx => List.mem_append_left _ hx)
      (fun x hx => List.mem_append_right _ hx) hroot h
  · intro b₁ b₂ c₁ c₂ h₁ h₂ hfree h
    obtain ⟨hrecipient, hhost, hentries⟩ := ApayBatch.eq_of_commit_eq h₁ h₂ hfree h
    have hlength := congrArg length hentries
    have hstart := congrArg (fun es => es.head?.map Prod.fst) hentries
    simp only [ApayBatch.startIndex_eq, Option.some.injEq] at hstart
    simp only [ApayBatch.entries, length_map] at hlength
    exact ⟨hrecipient, hhost, hlength, hstart, hentries⟩

/-- A hash function that keeps the first byte and the last ones, for the case below. -/
def keepEnds (x : Bytes) : Hash32 :=
  ⟨(x.head?.getD 0 :: x.reverse ++ replicate 32 0).take 32, by simp⟩

/-- The theorem applies to a batch of two hashes, written once in lower and once in upper
case, and to the proof for its first hash. -/
theorem commitment_binding_twoHashes :
  let node : PublicKey := List.Vector.replicate 33 2
  let host : PublicKey := List.Vector.replicate 33 3
  let leaf (i : ℕ) (hi : i ≤ u64Max) (b : UInt8) : ApayMerkle.Leaf :=
    ⟨node, apayDeriveBatchId keepEnds node 7, i, List.Vector.replicate 32 b, hi⟩
  let leaves := [leaf 7 (by decide) 0xaa, leaf 8 (by decide) 0xbb]
  let lower : ApayBatch := ⟨hexStr node.toList, hexStr host.toList,
    [⟨7, replicate 64 97, by decide⟩, ⟨8, replicate 64 98, by decide⟩], 0, 1,
    by decide, by decide⟩
  let upper : ApayBatch := ⟨hexStr node.toList, hexStr host.toList,
    [⟨7, replicate 64 65, by decide⟩, ⟨8, replicate 64 66, by decide⟩], 0, 1,
    by decide, by decide⟩
  (∃ r proof, ApayMerkle.verify keepEnds (ApayMerkle.leafHash keepEnds (leaf 7 (by decide) 0xaa))
      proof r = true
    ∧ ApayMerkle.root keepEnds (leaves.map (ApayMerkle.leafHash keepEnds)) = some r
    ∧ ApayMerkle.leafHash keepEnds (leaf 7 (by decide) 0xaa)
      ∈ leaves.map (ApayMerkle.leafHash keepEnds))
    ∧ lower.entries = upper.entries
  := by
  intro node host leaf leaves lower upper
  let r := ApayMerkle.nodeHash keepEnds (ApayMerkle.leafHash keepEnds (leaf 7 (by decide) 0xaa))
    (ApayMerkle.leafHash keepEnds (leaf 8 (by decide) 0xbb))
  let proof : List ApayMerkle.MerkleProofElement :=
    [⟨ApayMerkle.leafHash keepEnds (leaf 8 (by decide) 0xbb), .right⟩]
  let c : ApayCommit := ⟨node, host, apayDeriveBatchId keepEnds node 7, leaves, r,
    apayCommitBytes node host (apayDeriveBatchId keepEnds node 7) r 2 0 1⟩
  have hroot : ApayMerkle.root keepEnds (leaves.map (ApayMerkle.leafHash keepEnds)) = some r := by
    decide +kernel
  have hverify : ApayMerkle.verify keepEnds
      (ApayMerkle.leafHash keepEnds (leaf 7 (by decide) 0xaa)) proof r = true := by
    decide +kernel
  have hlower : lower.prepare keepEnds = .ok c := by decide +kernel
  have hupper : upper.prepare keepEnds = .ok c := by decide +kernel
  constructor
  · exact ⟨r, proof, hverify, hroot,
      (commitment_binding keepEnds).1 leaves _ proof r (by decide +kernel) hroot hverify⟩
  · exact ((commitment_binding keepEnds).2 lower upper c c hlower hupper
      (by decide +kernel) rfl).2.2.2.2

end RgbLightning
