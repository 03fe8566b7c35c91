import RgbLightning.Transfer.Handler

/-!
# Files of different peers

A record belongs to a peer and a funding transaction, a file on disk to the funding
transaction alone.  So two peers that name the same transaction write the same files, and the
record of one of them lets the sweep remove the files of the other (`files_shared_by_peers`).
`files_separate` says when the files of the peers are apart.
-/

namespace RgbLightning

open Table Option

namespace FileTransfer

variable (limits : TransferLimits) (sha256 : Bytes → List.Vector UInt8 32)
variable (s : FileTransfer)

/-- Whether an event may touch the files of a peer for a funding transaction: a chunk of
the peer, a sweep in which the record of the peer expires, or the end of the funding. -/
def ActsFor (peer : PublicKey) (t : Str) : Event → Prop
  | .chunk d => d.sender = peer
  | .peerDisconnected _ => False
  | .sweepStaleTransfers _ => False
  | .sweepUnfundedStagings gate now _ =>
    ∃ r, s.stagedFundings.lookup ⟨peer, t⟩ = some r ∧ Expired gate now ⟨peer, t⟩ r
  | .forgetStagedFunding t' _ => t' = t

/-- An event leaves every file as it is, unless it acts for the peer that wrote the
file. -/
def Separate (e : Event) : Prop :=
  ∀ path file, s.files.lookup path = some file →
    (s.step limits sha256 e).files.lookup path = some file
      ∨ s.ActsFor file.writer path.fundingTxid e

/-- Whether a chunk completes a consignment that is then written. -/
def StagesConsignment (d : ChunkDelivery) : Prop :=
  (s.chunkOutcome limits d).isComplete ∧ d.msg.fileKind = .consignment
    ∧ d.key.staging ∉ s.stagedFundings
    ∧ size s.stagedFundings < limits.maxPendingFundings
deriving Decidable

/-- No other peer has a record or a file for a funding transaction. -/
def Free (peer : PublicKey) (t : Str) : Prop :=
  (∀ key ∈ s.stagedFundings.keys, key.fundingTxid = t → key.peer = peer)
    ∧ ∀ f ∈ s.files.entries, f.1.fundingTxid = t → f.2.writer = peer
deriving Decidable

/-- A consignment is staged only for a funding transaction that is free. -/
def Undisputed : Event → Prop
  | .chunk d => s.StagesConsignment limits d → s.Free d.sender d.msg.fundingTxid
  | _ => True

instance (s : FileTransfer) : (e : Event) → Decidable (s.Undisputed limits e)
  | .chunk d => inferInstanceAs (Decidable (s.StagesConsignment limits d → _))
  | .peerDisconnected _ | .sweepStaleTransfers _ | .sweepUnfundedStagings _ _ _
  | .forgetStagedFunding _ _ => .isTrue trivial

/-- A funding transaction with a record has one peer, which has the records and wrote the
files of the transaction. -/
def Owned : Prop :=
  ∀ key ∈ s.stagedFundings, s.Free key.peer key.fundingTxid

variable {limits sha256} {s s' : FileTransfer}

variable {peer : PublicKey} {t : Str}

theorem Free.peer_eq (h : s.Free peer t) {key : FundingStagingKey} (hkey : key ∈ s.stagedFundings)
    (ht : key.fundingTxid = t) :
  key.peer = peer
  := h.1 key (AList.mem_keys.mp hkey) ht

variable {path : StagedPath} {file : StagedFile}

theorem Free.writer_eq (h : s.Free peer t) (hfile : s.files.lookup path = some file)
    (ht : path.fundingTxid = t) :
  file.writer = peer
  := h.2 ⟨path, file⟩ (AList.mem_lookup_iff.mp hfile) ht

theorem free_of (hkeys : ∀ key ∈ s.stagedFundings, key.fundingTxid = t → key.peer = peer)
    (hfiles : ∀ path file, s.files.lookup path = some file → path.fundingTxid = t →
      file.writer = peer) :
  s.Free peer t
  := by
  constructor
  · intro key hkey
    exact hkeys key (AList.mem_keys.mpr hkey)
  · intro f hf
    exact hfiles f.1 f.2 (AList.mem_lookup_iff.mpr hf)

/-- Ownership survives when records and files are only removed. -/
theorem Owned.of_subset (h : s.Owned)
    (hkeys : ∀ key ∈ s'.stagedFundings, key ∈ s.stagedFundings)
    (hfiles : ∀ path file, s'.files.lookup path = some file →
      s.files.lookup path = some file) :
  s'.Owned
  := by
  intro key hkey
  have hfree := h key (hkeys key hkey)
  apply free_of
  · intro key' hkey'
    exact hfree.peer_eq (hkeys key' hkey')
  · intro path file hfile
    exact hfree.writer_eq (hfiles path file hfile)

/-- Ownership survives when a peer adds a record or a file for a free transaction. -/
theorem Owned.of_add (h : s.Owned) (hfree : s.Free peer t)
    (hkeys : ∀ key ∈ s'.stagedFundings, key ∈ s.stagedFundings ∨ key = ⟨peer, t⟩)
    (hfiles : ∀ path file, s'.files.lookup path = some file →
      s.files.lookup path = some file ∨ path.fundingTxid = t ∧ file.writer = peer) :
  s'.Owned
  := by
  intro key hkey
  by_cases ht : key.fundingTxid = t
  · have hpeer : key.peer = peer := by
      rcases hkeys key hkey with hold | rfl
      · exact hfree.peer_eq hold ht
      · rfl
    rw [hpeer, ht]
    apply free_of
    · intro key' hkey' ht'
      rcases hkeys key' hkey' with hold | rfl
      · exact hfree.peer_eq hold ht'
      · rfl
    · intro path file hfile ht'
      rcases hfiles path file hfile with hold | hnew
      · exact hfree.writer_eq hold ht'
      · exact hnew.2
  · have hold : s.Free key.peer key.fundingTxid := by
      rcases hkeys key hkey with hold | rfl
      · exact h key hold
      · exact absurd rfl ht
    apply free_of
    · intro key' hkey' ht'
      rcases hkeys key' hkey' with hold' | rfl
      · exact hold.peer_eq hold' ht'
      · exact absurd ht'.symm ht
    · intro path file hfile ht'
      rcases hfiles path file hfile with hold' | hnew
      · exact hold.writer_eq hold' ht'
      · exact absurd (ht'.symm.trans hnew.1) ht

variable {now : ℕ}

/-- What a complete file adds belongs to its sender and its transaction. -/
theorem Persists.adds {s s' : FileTransfer} {key : ReassemblyKey} {bytes : Bytes}
    {write : FileWrite} (h : Persists limits sha256 s key bytes now write s') :
  (∀ key' ∈ s'.stagedFundings, key' ∈ s.stagedFundings ∨ key' = key.staging)
    ∧ ∀ path file, s'.files.lookup path = some file → s.files.lookup path = some file
      ∨ path.fundingTxid = key.fundingTxid ∧ file.writer = key.peer
  := by
  cases h with
  | nothing => exact ⟨fun _ h => .inl h, fun _ _ h => .inl h⟩
  | consignment =>
    constructor
    · intro key' hkey'
      simpa using mem_stagedFundings_record hkey'
    · intro path file hfile
      rw [files_record] at hfile
      apply (lookup_writeFile hfile).imp_right
      rintro ⟨rfl, hwriter⟩
      exact ⟨rfl, hwriter⟩
  | media =>
    constructor
    · intro key' hkey'
      simpa using mem_stagedFundings_record hkey'
    · intro path file hfile
      rw [files_record] at hfile
      apply (lookup_writeFile hfile).imp_right
      rintro ⟨rfl, hwriter⟩
      exact ⟨rfl, hwriter⟩

theorem Persists.lookup_of_ne {s s' : FileTransfer} {key : ReassemblyKey} {bytes : Bytes}
    {write : FileWrite} (h : Persists limits sha256 s key bytes now write s')
    (hpath : path.fundingTxid ≠ key.fundingTxid) :
  s'.files.lookup path = s.files.lookup path
  := by
  cases h with
  | nothing => rfl
  | consignment =>
    rw [files_record]
    apply lookup_writeFile_ne
    rintro rfl
    exact hpath rfl
  | media =>
    rw [files_record]
    apply lookup_writeFile_ne
    rintro rfl
    exact hpath rfl

/-! ### The sweep and the end of a funding -/

theorem mem_expiredFundings {gate : PeerChannelGate} :
  t ∈ s.expiredFundings gate now ↔ ∃ key r, s.stagedFundings.lookup key = some r
    ∧ Expired gate now key r ∧ key.fundingTxid = t
  := by
  constructor
  · intro h
    obtain ⟨key, hkey, rfl⟩ := List.mem_map.mp h
    obtain ⟨r, hr⟩ := mem_iff_lookup.mp (AList.mem_keys.mpr hkey)
    obtain ⟨hr, hexpired⟩ := lookup_of_lookup_retain hr
    exact ⟨key, r, hr, of_decide_eq_true hexpired, rfl⟩
  · rintro ⟨key, r, hr, hexpired, rfl⟩
    apply List.mem_map_of_mem
    apply AList.mem_keys.mp
    apply mem_iff_lookup.mpr
    use r
    rw [lookup_retain, filter_eq_some_iff]
    exact ⟨hr, decide_eq_true hexpired⟩

theorem lookup_sweepUnfundedStagings {gate : PeerChannelGate} {survives : StagedPath → Bool}
    (hfile : s.files.lookup path = some file) (h : path.fundingTxid ∉ s.expiredFundings gate now) :
  (s.sweepUnfundedStagings gate now survives).files.lookup path = some file
  := by
  rw [sweepUnfundedStagings, lookup_retain, filter_eq_some_iff]
  exact ⟨hfile, by simp [h]⟩

theorem lookup_forgetStagedFunding_ne {survives : Bool} (h : path ≠ .consignment t) :
  (s.forgetStagedFunding t survives).files.lookup path = s.files.lookup path
  := by
  rw [forgetStagedFunding]
  dsimp only
  split_ifs
  · rfl
  · exact AList.lookup_erase_ne h

theorem lookup_of_forgetStagedFunding {survives : Bool}
    (h : (s.forgetStagedFunding t survives).files.lookup path = some file) :
  s.files.lookup path = some file
  := by
  rw [forgetStagedFunding] at h
  dsimp only at h
  split_ifs at h
  · exact h
  · exact lookup_of_lookup_erase h

/-! ### One event -/

/-- A chunk writes only for a free transaction. -/
theorem handleChunk_free (sha256 : Bytes → List.Vector UInt8 32) {d : ChunkDelivery}
    (hs : s.Owned) (h : s.Undisputed limits (.chunk d)) :
  ((s.handleChunk limits sha256 d).files = s.files
      ∧ (s.handleChunk limits sha256 d).stagedFundings = s.stagedFundings)
    ∨ s.Free d.sender d.msg.fundingTxid
      ∧ ∃ bytes, Persists limits sha256 { s with reassembly := s.reassembly.erase d.key } d.key
          bytes d.now d.write (s.handleChunk limits sha256 d)
  := by
  have hcases := handleChunk_cases limits sha256 s d
  generalize s.handleChunk limits sha256 d = s' at hcases ⊢
  rcases hcases with hsame | ⟨bytes, hcomplete, hpersists⟩
  · exact .inl hsame
  have hpersists' := hpersists
  cases hpersists with
  | nothing => exact .inl ⟨rfl, rfl⟩
  | consignment hkind hnew hroom =>
    have hcomplete' : (s.chunkOutcome limits d).isComplete := by
      rw [hcomplete]
      rfl
    exact .inr ⟨h ⟨hcomplete', hkind, hnew, hroom⟩, bytes, hpersists'⟩
  | media r _ _ hr =>
    exact .inr ⟨hs _ (mem_iff_lookup.mpr ⟨r, hr⟩), bytes, hpersists'⟩

theorem Owned.step (hs : s.Owned) (e : Event) (h : s.Undisputed limits e) :
  (s.step limits sha256 e).Owned
  := by
  cases e with
  | chunk d =>
    change (s.handleChunk limits sha256 d).Owned
    rcases handleChunk_free sha256 hs h with ⟨hfiles, hkeys⟩ | ⟨hfree, _, hp⟩
    · apply hs.of_subset
      · intro key hkey
        rwa [hkeys] at hkey
      · intro path file hfile
        rwa [hfiles] at hfile
    · exact hs.of_add hfree hp.adds.1 hp.adds.2
  | peerDisconnected peer => exact hs
  | sweepStaleTransfers now => exact hs
  | sweepUnfundedStagings gate now survives =>
    apply hs.of_subset
    · intro key hkey
      exact mem_of_mem_retain hkey
    · intro path file hfile
      exact (lookup_of_lookup_retain hfile).1
  | forgetStagedFunding t survives =>
    apply hs.of_subset
    · intro key hkey
      exact mem_of_mem_retain hkey
    · intro path file hfile
      exact lookup_of_forgetStagedFunding hfile

/-- An undisputed event leaves the files of the other peers alone. -/
theorem Owned.separate (hs : s.Owned) (e : Event) (h : s.Undisputed limits e) :
  s.Separate limits sha256 e
  := by
  intro path file hfile
  cases e with
  | chunk d =>
    change (s.handleChunk limits sha256 d).files.lookup path = some file ∨ d.sender = _
    rcases handleChunk_free sha256 hs h with ⟨hfiles, -⟩ | ⟨hfree, _, hp⟩
    · left
      rwa [hfiles]
    by_cases ht : path.fundingTxid = d.msg.fundingTxid
    · right
      exact (hfree.writer_eq hfile ht).symm
    · left
      rw [← hfile]
      exact hp.lookup_of_ne ht
  | peerDisconnected peer => exact .inl hfile
  | sweepStaleTransfers now => exact .inl hfile
  | sweepUnfundedStagings gate now survives =>
    by_cases hexpired : path.fundingTxid ∈ s.expiredFundings gate now
    · right
      obtain ⟨key, r, hr, hkey, ht⟩ := mem_expiredFundings.mp hexpired
      have hwriter := (hs key (mem_iff_lookup.mpr ⟨r, hr⟩)).writer_eq hfile ht.symm
      obtain rfl : key = ⟨file.writer, path.fundingTxid⟩ := by
        rw [hwriter, ← ht]
      exact ⟨r, hr, hkey⟩
    · left
      exact lookup_sweepUnfundedStagings hfile hexpired
  | forgetStagedFunding t survives =>
    by_cases ht : path = .consignment t
    · right
      rw [ht]
      rfl
    · left
      rw [← hfile]
      exact lookup_forgetStagedFunding_ne ht

/-! ### Every run -/

/-- If consignments are staged only for transactions that are free, every event of a run
leaves every file alone, unless it acts for the peer that wrote the file.  The run begins
without records, with any transfers and any files. -/
theorem files_separate {s₀ : FileTransfer} (h₀ : s₀.stagedFundings = ∅) {es : List Event}
    (h : Run.Meets (step limits sha256) (Undisputed limits) s₀ es)
    (before : List Event) (e : Event) (after : List Event) (hes : es = before ++ e :: after) :
  (Run.run (step limits sha256) s₀ before).Separate limits sha256 e
  := by
  have hs₀ : s₀.Owned := by
    intro key hkey
    rw [h₀] at hkey
    exact absurd hkey (AList.notMem_empty key)
  rw [hes, Run.meets_append] at h
  obtain ⟨hbefore, he, -⟩ := h
  have hs := Run.run_invariant (fun s e hs he => hs.step e he) hs₀ hbefore
  exact hs.separate e he

/-! ### Two peers -/

/-- Two peers with consignments for transactions of their own, and a sweep. -/
theorem files_separate_twoPeers :
  let sha256 : Bytes → List.Vector UInt8 32 := fun b => .replicate 32 (b.headD 0)
  let alice : PublicKey := .replicate 33 2
  let bob : PublicKey := .replicate 33 3
  let before : List Event :=
    [.chunk (sampleChunk alice .consignment (hexStr (.replicate 32 7)) [] 1 0),
      .chunk (sampleChunk bob .consignment (hexStr (.replicate 32 8)) [] 2 500)]
  let sweep : Event := .sweepUnfundedStagings ⟨fun _ => 1, fun _ => false⟩ 600 fun _ => false
  Run.Meets (step ⟨10, 100, 10⟩ sha256) (Undisputed ⟨10, 100, 10⟩) {} (before ++ [sweep])
    ∧ (Run.run (step ⟨10, 100, 10⟩ sha256) {} before).Separate ⟨10, 100, 10⟩ sha256 sweep
  := by
  intro sha256 alice bob before sweep
  have h : Run.Meets (step ⟨10, 100, 10⟩ sha256) (Undisputed ⟨10, 100, 10⟩) {}
      (before ++ [sweep]) := by
    decide +kernel
  exact ⟨h, files_separate rfl h before sweep [] rfl⟩

/-- Two peers that name the same transaction.  The consignment of the second replaces the
one of the first, and when the record of the first expires, the sweep removes the file of
the second, whose own record is kept. -/
theorem files_shared_by_peers :
  let sha256 : Bytes → List.Vector UInt8 32 := fun b => .replicate 32 (b.headD 0)
  let alice : PublicKey := .replicate 33 2
  let bob : PublicKey := .replicate 33 3
  let t := hexStr (.replicate 32 7)
  let bobs : Event := .chunk (sampleChunk bob .consignment t [] 2 500)
  let sweep : Event := .sweepUnfundedStagings ⟨fun _ => 1, fun _ => false⟩ 600 fun _ => false
  let s₁ := step ⟨10, 100, 10⟩ sha256 {} (.chunk (sampleChunk alice .consignment t [] 1 0))
  let s₂ := s₁.step ⟨10, 100, 10⟩ sha256 bobs
  let s₃ := s₂.step ⟨10, 100, 10⟩ sha256 sweep
  s₁.files.lookup (.consignment t) = some ⟨alice, [1]⟩
    ∧ s₂.files.lookup (.consignment t) = some ⟨bob, [2]⟩
    ∧ s₃.files.lookup (.consignment t) = none ∧ ⟨bob, t⟩ ∈ s₃.stagedFundings
    ∧ ¬ s₁.Separate ⟨10, 100, 10⟩ sha256 bobs ∧ ¬ s₂.Separate ⟨10, 100, 10⟩ sha256 sweep
  := by
  intro sha256 alice bob t bobs sweep s₁ s₂ s₃
  have h₁ : s₁.files.lookup (.consignment t) = some ⟨alice, [1]⟩ := by decide +kernel
  have h₂ : s₂.files.lookup (.consignment t) = some ⟨bob, [2]⟩ := by decide +kernel
  have h₃ : s₃.files.lookup (.consignment t) = none := by decide +kernel
  have hbob : s₂.stagedFundings.lookup ⟨bob, t⟩ = some ⟨500, 0, 0⟩ := by decide +kernel
  have hpeers : alice ≠ bob := by decide
  refine ⟨h₁, h₂, h₃, by decide +kernel, ?_, ?_⟩
  · intro h
    rcases h _ _ h₁ with hfile | hsender
    · have heq := some.inj (h₂.symm.trans hfile)
      exact hpeers (congrArg StagedFile.writer heq).symm
    · exact hpeers hsender.symm
  · intro h
    rcases h _ _ h₂ with hfile | ⟨r, hr, hexpired⟩
    · exact some_ne_none _ (hfile.symm.trans h₃)
    · obtain rfl := some.inj (hbob.symm.trans hr)
      exact absurd hexpired.2 (by decide)

end FileTransfer

end RgbLightning
