import RgbLightning.Transfer.Interference

/-!
# Bytes held for media

The media of a funding transaction are staged in one directory, and what was staged is
recorded with the consignment of a sender.  So the limits bound what a record says, not what
the directory holds: two senders fill the directory twice (`media_beyond_limits`), and so
does one sender whose record is dropped and made again.  If the records stay in step with the
directories (`InStep`), the limits hold (`media_within_limits`).
-/

namespace RgbLightning

open Table AList Option

/-- Whether a path is in the media directory of a funding transaction. -/
def StagedPath.IsMediaFor (t : Str) : StagedPath → Prop
  | consignment _ => False
  | media t' _ => t' = t

instance (t : Str) : (path : StagedPath) → Decidable (path.IsMediaFor t)
  | .consignment _ => .isFalse id
  | .media _ _ => inferInstanceAs (Decidable (_ = _))

/-- The sum of a number over the files of the media directory of a transaction. -/
def mediaStaged (files : Table StagedPath StagedFile) (t : Str) (w : StagedFile → ℕ) : ℕ :=
  sum files fun path file => if path.IsMediaFor t then w file else 0

namespace FileTransfer

/-- The bytes in the media directory of a transaction. -/
def stagedBytes (s : FileTransfer) (t : Str) : ℕ :=
  mediaStaged s.files t fun file => file.bytes.length

/-- The number of files in the media directory of a transaction. -/
def stagedCount (s : FileTransfer) (t : Str) : ℕ :=
  mediaStaged s.files t fun _ => 1

variable (limits : TransferLimits) (sha256 : Bytes → List.Vector UInt8 32)

/-- No other peer has a record for a transaction. -/
def Sole (s : FileTransfer) (peer : PublicKey) (t : Str) : Prop :=
  ∀ key ∈ s.stagedFundings.keys, key.fundingTxid = t → key.peer = peer
deriving Decidable

/-- What a chunk may do: media are accepted from the only peer with a record, and no part of
a file is left by a write; a consignment is staged when no other peer has a record and the
media directory is empty. -/
def ChunkInStep (s : FileTransfer) (d : ChunkDelivery) : Prop :=
  (d.msg.fileKind = .media → s.Accepts limits d →
      s.Sole d.sender d.msg.fundingTxid ∧ (d.write = .works ∨ d.write = .fails))
    ∧ (s.StagesConsignment limits d →
      s.Sole d.sender d.msg.fundingTxid ∧ s.stagedCount d.msg.fundingTxid = 0)
deriving Decidable

/-- An event keeps the records in step with the directories: chunks do, and a record is
dropped only if the media directory of its transaction is then empty. -/
def InStep (s : FileTransfer) (e : Event) : Prop :=
  (∀ key ∈ s.stagedFundings.keys, key ∉ (s.step limits sha256 e).stagedFundings →
      (s.step limits sha256 e).stagedCount key.fundingTxid = 0)
    ∧ match e with
      | .chunk d => s.ChunkInStep limits d
      | _ => True

/-- The records say what the directories hold: a transaction has one record, which counts
the bytes and the files of its directory, and a directory without a record is empty. -/
structure Booked (s : FileTransfer) : Prop where
  one_record : ∀ key ∈ s.stagedFundings, ∀ key' ∈ s.stagedFundings,
    key.fundingTxid = key'.fundingTxid → key = key'
  bytes_eq : ∀ key r, s.stagedFundings.lookup key = some r →
    r.stagedMediaBytes = s.stagedBytes key.fundingTxid
  count_eq : ∀ key r, s.stagedFundings.lookup key = some r →
    r.stagedMediaCount = s.stagedCount key.fundingTxid
  empty : ∀ t, (∀ key ∈ s.stagedFundings, key.fundingTxid ≠ t) → s.stagedCount t = 0
  bytes_le : ∀ t, s.stagedBytes t + mediaBuffered s.reassembly t
    ≤ limits.maxMediaBytesPerChannel
  count_le : ∀ t, s.stagedCount t ≤ limits.maxMediaFilesPerChannel

/-! ### The files of a directory -/

section Directory

variable {files : Table StagedPath StagedFile} {t : Str} {w : StagedFile → ℕ}

theorem mediaStaged_erase_consignment (t' : Str) :
  mediaStaged (files.erase (.consignment t')) t w = mediaStaged files t w
  := by
  rw [mediaStaged, mediaStaged, sum_eq_erase files _ (.consignment t')]
  cases files.lookup (.consignment t') with
  | none => exact (Nat.zero_add _).symm
  | some file => exact (Nat.zero_add _).symm

theorem mediaStaged_insert_consignment (t' : Str) (file : StagedFile) :
  mediaStaged (files.insert (.consignment t') file) t w = mediaStaged files t w
  := by
  rw [mediaStaged, sum_insert]
  exact (Nat.zero_add _).trans (mediaStaged_erase_consignment t')

theorem mediaStaged_insert_media {t' id : Str} {file : StagedFile}
    (h : StagedPath.media t' id ∉ files) :
  mediaStaged (files.insert (.media t' id) file) t w
    = (if t' = t then w file else 0) + mediaStaged files t w
  := by
  rw [mediaStaged, mediaStaged, sum_insert,
    sum_eq_erase files _ (.media t' id), lookup_eq_none.mpr h, elim_none,
    zero_add]
  rfl

/-- Removing files of other directories changes nothing. -/
theorem mediaStaged_retain {p : StagedPath → StagedFile → Bool}
    (h : ∀ path file, path.IsMediaFor t → p path file = true) :
  mediaStaged (retain files p) t w = mediaStaged files t w
  := by
  apply sum_retain_eq
  intro path file _ hp
  rw [if_neg]
  intro hmedia
  rw [h path file hmedia] at hp
  exact Bool.noConfusion hp

theorem mediaStaged_retain_le (p : StagedPath → StagedFile → Bool) :
  mediaStaged (retain files p) t w ≤ mediaStaged files t w
  := sum_retain_le _ _ _

theorem mediaStaged_eq_zero (h : mediaStaged files t (fun _ => 1) = 0) :
  mediaStaged files t w = 0
  := by
  apply sum_eq_zero
  intro path file hfile
  rw [if_neg]
  intro hmedia
  rw [mediaStaged, sum_eq_erase files _ path, hfile, elim_some, if_pos hmedia] at h
  omega

end Directory

/-! ### The budget of an accepted chunk -/

variable {limits sha256} {s s' : FileTransfer} {d : ChunkDelivery}
variable (reassembly : Table ReassemblyKey ReassemblyState)

theorem mediaBuffered_insert (key : ReassemblyKey) (st : ReassemblyState) (t : Str) :
  mediaBuffered (reassembly.insert key st) t
    = (if key.IsMediaFor t then st.buffered else 0) + mediaBuffered (reassembly.erase key) t
  := sum_insert _ _ _ _

theorem mediaBuffered_erase_le (key : ReassemblyKey) (t : Str) :
  mediaBuffered (reassembly.erase key) t ≤ mediaBuffered reassembly t
  := sum_erase_le _ _ _

theorem mediaBuffered_retain_le (p : ReassemblyKey → ReassemblyState → Bool) (t : Str) :
  mediaBuffered (retain reassembly p) t ≤ mediaBuffered reassembly t
  := sum_retain_le _ _ _

section Booked

variable (h : s.Booked limits)
include h

/-- The record of the only peer with one says what the directory holds; if there is none,
the directory is empty. -/
theorem Booked.stagedBytes_eq {peer : PublicKey} {t : Str} (hsole : s.Sole peer t) :
  s.stagedBytes t
    = (s.stagedFundings.lookup ⟨peer, t⟩).elim 0 FundingStagingRecord.stagedMediaBytes
  := by
  cases hr : s.stagedFundings.lookup ⟨peer, t⟩ with
  | some r => exact (h.bytes_eq _ r hr).symm
  | none =>
    apply mediaStaged_eq_zero
    apply h.empty
    intro key hkey ht
    have hpeer := hsole key (mem_keys.mp hkey) ht
    have hkey' : key = ⟨peer, t⟩ := by
      rw [← hpeer, ← ht]
    rw [hkey'] at hkey
    exact lookup_eq_none.mp hr hkey

/-- An accepted media chunk fits into the budget of the directory. -/
theorem Booked.prospective_le (hkind : d.msg.fileKind = .media) (ha : s.Accepts limits d)
    (hsole : s.Sole d.sender d.msg.fundingTxid) :
  s.stagedBytes d.msg.fundingTxid + mediaBuffered (s.reassembly.erase d.key) d.msg.fundingTxid
    + s.prospective d ≤ limits.maxMediaBytesPerChannel
  := by
  rw [h.stagedBytes_eq hsole]
  by_contra hlt
  apply ha.withinLimits
  right; left
  refine ⟨hkind, ?_⟩
  dsimp only [ChunkDelivery.key, ReassemblyKey.staging] at hlt ⊢
  omega

/-! ### One event -/

/-- The books stay in order when nothing is staged and nothing more is buffered. -/
theorem Booked.of_same (hstaged : s'.stagedFundings = s.stagedFundings)
    (hfiles : ∀ t w, mediaStaged s'.files t w = mediaStaged s.files t w)
    (hbuffered : ∀ t, mediaBuffered s'.reassembly t ≤ mediaBuffered s.reassembly t) :
  s'.Booked limits
  := by
  have hbytes : s'.stagedBytes = s.stagedBytes := funext fun t => hfiles t _
  have hcount : s'.stagedCount = s.stagedCount := funext fun t => hfiles t _
  constructor
  · rw [hstaged]
    exact h.one_record
  · rw [hstaged, hbytes]
    exact h.bytes_eq
  · rw [hstaged, hcount]
    exact h.count_eq
  · rw [hstaged, hcount]
    exact h.empty
  · intro t
    rw [hbytes]
    exact (Nat.add_le_add_left (hbuffered t) _).trans (h.bytes_le t)
  · rw [hcount]
    exact h.count_le

theorem Booked.erase (key : ReassemblyKey) :
  Booked limits { s with reassembly := s.reassembly.erase key }
  := h.of_same rfl (fun _ _ => rfl) (mediaBuffered_erase_le s.reassembly key)

theorem Booked.insert (ha : s.Accepts limits d) (hd : s.ChunkInStep limits d) :
  Booked limits
    { s with reassembly := s.reassembly.insert d.key (s.buffer d ha.wellFormed) }
  := by
  refine ⟨h.one_record, h.bytes_eq, h.count_eq, h.empty, ?_, h.count_le⟩
  intro t
  dsimp only
  rw [mediaBuffered_insert, buffer_buffered]
  split_ifs with hmedia
  · obtain ⟨hkind, rfl⟩ := hmedia
    have hle := h.prospective_le hkind ha (hd.1 hkind ha).1
    dsimp only [ChunkDelivery.key] at hle ⊢
    change s.stagedBytes d.msg.fundingTxid + _ ≤ _
    omega
  · rw [zero_add]
    exact (Nat.add_le_add_left (mediaBuffered_erase_le _ _ _) _).trans (h.bytes_le t)

variable {key : FundingStagingKey}

/-- A consignment that is staged for a transaction without records and media. -/
theorem Booked.stage {now : ℕ} {files : Table StagedPath StagedFile}
    (hsole : ∀ key' ∈ s.stagedFundings, key'.fundingTxid ≠ key.fundingTxid)
    (hempty : s.stagedCount key.fundingTxid = 0)
    (hfiles : ∀ t w, mediaStaged files t w = mediaStaged s.files t w) :
  Booked limits
    { s with stagedFundings := s.stagedFundings.insert key ⟨now, 0, 0⟩, files := files }
  := by
  have hbytes : ∀ t, mediaStaged files t (fun file => file.bytes.length) = s.stagedBytes t :=
    fun t => hfiles t _
  have hcount : ∀ t, mediaStaged files t (fun _ => 1) = s.stagedCount t :=
    fun t => hfiles t _
  constructor
  · intro key1 hkey1 key2 hkey2 ht
    rcases (mem_insert _).mp hkey1 with heq1 | hold1
    · rcases (mem_insert _).mp hkey2 with heq2 | hold2
      · rw [heq1, heq2]
      · rw [heq1] at ht
        exact absurd ht.symm (hsole key2 hold2)
    · rcases (mem_insert _).mp hkey2 with heq2 | hold2
      · rw [heq2] at ht
        exact absurd ht (hsole key1 hold1)
      · exact h.one_record key1 hold1 key2 hold2 ht
  · intro key' r hr
    rw [stagedBytes, hbytes]
    rw [lookup_insert_eq] at hr
    split_ifs at hr with hkey
    · rw [← some.inj hr, hkey]
      exact (mediaStaged_eq_zero hempty).symm
    · exact h.bytes_eq key' r hr
  · intro key' r hr
    rw [stagedCount, hcount]
    rw [lookup_insert_eq] at hr
    split_ifs at hr with hkey
    · rw [← some.inj hr, hkey]
      exact hempty.symm
    · exact h.count_eq key' r hr
  · intro t ht
    rw [stagedCount, hcount]
    apply h.empty
    intro key' hkey'
    exact ht key' ((mem_insert _).mpr (.inr hkey'))
  · intro t
    rw [stagedBytes, hbytes]
    exact h.bytes_le t
  · intro t
    rw [stagedCount, hcount]
    exact h.count_le t

theorem Booked.stageMedia {r : FundingStagingRecord} {fileId : Str} (file : StagedFile)
    (hr : s.stagedFundings.lookup key = some r)
    (hnew : StagedPath.media key.fundingTxid fileId ∉ s.files)
    (hbytes : s.stagedBytes key.fundingTxid + mediaBuffered s.reassembly key.fundingTxid
      + file.bytes.length ≤ limits.maxMediaBytesPerChannel)
    (hcount : r.stagedMediaCount < limits.maxMediaFilesPerChannel) :
  Booked limits
    { s with
      stagedFundings := s.stagedFundings.insert key
        ⟨r.writtenAt, r.stagedMediaBytes + file.bytes.length, r.stagedMediaCount + 1⟩
      files := s.files.insert (.media key.fundingTxid fileId) file }
  := by
  have hkeys : ∀ key', key' ∈ s.stagedFundings.insert key
      ⟨r.writtenAt, r.stagedMediaBytes + file.bytes.length, r.stagedMediaCount + 1⟩
      ↔ key' ∈ s.stagedFundings := by
    intro key'
    rw [mem_insert]
    apply or_iff_right_of_imp
    rintro rfl
    exact mem_iff_lookup.mpr ⟨r, hr⟩
  -- the record of another key belongs to another transaction
  have hother : ∀ key' ∈ s.stagedFundings, key' ≠ key → key.fundingTxid ≠ key'.fundingTxid := by
    intro key' hkey' hne ht
    exact hne (h.one_record key' hkey' key (mem_iff_lookup.mpr ⟨r, hr⟩) ht.symm)
  constructor
  · intro key1 hkey1 key2 hkey2
    exact h.one_record key1 ((hkeys key1).mp hkey1) key2 ((hkeys key2).mp hkey2)
  · intro key' r' hr'
    rw [stagedBytes, mediaStaged_insert_media hnew]
    rw [lookup_insert_eq] at hr'
    split_ifs at hr' with hkey
    · rw [← some.inj hr', hkey, if_pos rfl]
      have heq := h.bytes_eq key r hr
      change r.stagedMediaBytes + file.bytes.length = _ + s.stagedBytes key.fundingTxid
      omega
    · have hne := hother key' (mem_iff_lookup.mpr ⟨r', hr'⟩) hkey
      rw [if_neg hne, zero_add]
      exact h.bytes_eq key' r' hr'
  · intro key' r' hr'
    rw [stagedCount, mediaStaged_insert_media hnew]
    rw [lookup_insert_eq] at hr'
    split_ifs at hr' with hkey
    · rw [← some.inj hr', hkey, if_pos rfl]
      have heq := h.count_eq key r hr
      change r.stagedMediaCount + 1 = 1 + s.stagedCount key.fundingTxid
      omega
    · have hne := hother key' (mem_iff_lookup.mpr ⟨r', hr'⟩) hkey
      rw [if_neg hne, zero_add]
      exact h.count_eq key' r' hr'
  · intro t ht
    have hne := ht key ((hkeys key).mpr (mem_iff_lookup.mpr ⟨r, hr⟩))
    rw [stagedCount, mediaStaged_insert_media hnew, if_neg hne, zero_add]
    exact h.empty t fun key' hkey' => ht key' ((hkeys key').mpr hkey')
  · intro t
    rw [stagedBytes, mediaStaged_insert_media hnew]
    split_ifs with ht
    · rw [← ht]
      change _ + s.stagedBytes key.fundingTxid + mediaBuffered s.reassembly _ ≤ _
      omega
    · rw [zero_add]
      exact h.bytes_le t
  · intro t
    rw [stagedCount, mediaStaged_insert_media hnew]
    split_ifs with ht
    · rw [← ht]
      have heq := h.count_eq key r hr
      change 1 + s.stagedCount key.fundingTxid ≤ _
      omega
    · rw [zero_add]
      exact h.count_le t

theorem Booked.handleChunk (hd : s.ChunkInStep limits d) :
  (s.handleChunk limits sha256 d).Booked limits
  := by
  rw [FileTransfer.handleChunk]
  cases hout : s.chunkOutcome limits d with
  | ignored => exact h
  | dropped => exact h.erase d.key
  | buffered st =>
    obtain ⟨ha, rfl⟩ := chunkOutcome_eq_buffered hout
    exact h.insert ha hd
  | complete bytes =>
    have hcomplete : (s.chunkOutcome limits d).isComplete := by
      rw [hout]
      rfl
    obtain ⟨ha, rfl⟩ := chunkOutcome_eq_complete hout
    have hlen := (s.buffer d ha.wellFormed).length_bytes_le
    rw [buffer_buffered] at hlen
    dsimp only
    have hpersists : Persists limits sha256 _ d.key _ d.now d.write _ :=
      persists_persistFile { s with reassembly := s.reassembly.erase d.key } d.key
        (s.buffer d ha.wellFormed).bytes d.now d.write
    generalize persistFile limits sha256 _ d.key _ d.now d.write = s' at hpersists ⊢
    cases hpersists with
    | nothing => exact h.erase d.key
    | consignment hkind hnew hroom =>
      obtain ⟨hsole, hempty⟩ := hd.2 ⟨hcomplete, hkind, hnew, hroom⟩
      have hfree : ∀ key' ∈ s.stagedFundings, key'.fundingTxid ≠ d.msg.fundingTxid := by
        intro key' hkey' ht
        apply hnew
        have hpeer := hsole key' (mem_keys.mp hkey') ht
        have hkey : key' = d.key.staging := by
          rw [ReassemblyKey.staging, ChunkDelivery.key, ← hpeer, ← ht]
        rwa [hkey] at hkey'
      cases hwrite : d.write with
      | works =>
        exact (h.erase d.key).stage hfree hempty
          fun _ _ => mediaStaged_insert_consignment _ _
      | fails => exact h.erase d.key
      | leaves n =>
        exact (h.erase d.key).of_same rfl
          (fun _ _ => mediaStaged_insert_consignment _ _) fun _ => le_rfl
    | media r hkind hdigest hr hnew hbytes hcount =>
      obtain ⟨hsole, hwrite⟩ := hd.1 hkind ha
      have hle := h.prospective_le hkind ha hsole
      have hfit : s.stagedBytes d.msg.fundingTxid
          + mediaBuffered (s.reassembly.erase d.key) d.msg.fundingTxid
          + (s.buffer d ha.wellFormed).bytes.length ≤ limits.maxMediaBytesPerChannel := by
        omega
      rcases hwrite with hwrite | hwrite
      · rw [hwrite]
        exact (h.erase d.key).stageMedia ⟨d.sender, _⟩ hr hnew hfit hcount
      · rw [hwrite]
        exact h.erase d.key

/-- The books stay in order when records are dropped whose directories are empty then. -/
theorem Booked.of_drop (hreassembly : s'.reassembly = s.reassembly)
    (hstaged : ∀ key r, s'.stagedFundings.lookup key = some r →
      s.stagedFundings.lookup key = some r
        ∧ ∀ w, mediaStaged s'.files key.fundingTxid w = mediaStaged s.files key.fundingTxid w)
    (hfiles : ∀ t w, mediaStaged s'.files t w ≤ mediaStaged s.files t w)
    (hdropped : ∀ key ∈ s.stagedFundings.keys, key ∉ s'.stagedFundings →
      s'.stagedCount key.fundingTxid = 0) :
  s'.Booked limits
  := by
  have hmem : ∀ key ∈ s'.stagedFundings, key ∈ s.stagedFundings := by
    intro key hkey
    obtain ⟨r, hr⟩ := mem_iff_lookup.mp hkey
    exact mem_iff_lookup.mpr ⟨r, (hstaged key r hr).1⟩
  constructor
  · intro key hkey key' hkey'
    exact h.one_record key (hmem key hkey) key' (hmem key' hkey')
  · intro key r hr
    obtain ⟨hr', hsame⟩ := hstaged key r hr
    rw [stagedBytes, hsame]
    exact h.bytes_eq key r hr'
  · intro key r hr
    obtain ⟨hr', hsame⟩ := hstaged key r hr
    rw [stagedCount, hsame]
    exact h.count_eq key r hr'
  · intro t ht
    by_cases hbefore : ∃ key ∈ s.stagedFundings, key.fundingTxid = t
    · obtain ⟨key, hkey, rfl⟩ := hbefore
      exact hdropped key (mem_keys.mp hkey) fun hkey' => ht key hkey' rfl
    · push Not at hbefore
      have hzero := h.empty t hbefore
      exact Nat.le_zero.mp ((hfiles t _).trans hzero.le)
  · intro t
    rw [hreassembly]
    exact (Nat.add_le_add_right (hfiles t _) _).trans (h.bytes_le t)
  · intro t
    exact (hfiles t _).trans (h.count_le t)

/-- A record that a sweep keeps is not one of those that expire, so its directory is left
alone. -/
theorem Booked.mediaStaged_sweep {gate : PeerChannelGate} {now : ℕ} {survives : StagedPath → Bool}
    {r : FundingStagingRecord} (hr : s.stagedFundings.lookup key = some r)
    (hkept : ¬ Expired gate now key r) (w : StagedFile → ℕ) :
  mediaStaged (s.sweepUnfundedStagings gate now survives).files key.fundingTxid w
    = mediaStaged s.files key.fundingTxid w
  := by
  apply mediaStaged_retain
  intro path file hpath
  have hkept' : path.fundingTxid ∉ s.expiredFundings gate now := by
    intro hmem
    obtain ⟨key', r', hr', hexpired, ht⟩ := mem_expiredFundings.mp hmem
    have htxid : path.fundingTxid = key.fundingTxid := by
      cases path with
      | consignment t => exact absurd hpath id
      | media t id => exact hpath
    have hkey := h.one_record key' (mem_iff_lookup.mpr ⟨r', hr'⟩) key
      (mem_iff_lookup.mpr ⟨r, hr⟩) (ht.trans htxid)
    subst hkey
    obtain rfl := some.inj (hr.symm.trans hr')
    exact hkept hexpired
  rw [decide_eq_true hkept', Bool.true_or]

theorem Booked.step (e : Event) (he : s.InStep limits sha256 e) :
  (s.step limits sha256 e).Booked limits
  := by
  cases e with
  | chunk d => exact h.handleChunk he.2
  | peerDisconnected peer =>
    exact h.of_same rfl (fun _ _ => rfl) (mediaBuffered_retain_le s.reassembly _)
  | sweepStaleTransfers now =>
    exact h.of_same rfl (fun _ _ => rfl) (mediaBuffered_retain_le s.reassembly _)
  | sweepUnfundedStagings gate now survives =>
    apply h.of_drop
    · rfl
    · intro key r hr
      obtain ⟨hr, hkept⟩ := lookup_of_lookup_retain hr
      use hr
      apply h.mediaStaged_sweep hr
      intro hexpired
      simp only [Bool.and_eq_true, decide_eq_true_eq] at hkept
      exact absurd hexpired.2 (not_le.mpr hkept.2)
    · intro t w
      exact mediaStaged_retain_le _
    · exact he.1
  | forgetStagedFunding t survives =>
    have hfiles : ∀ t' w, mediaStaged (s.forgetStagedFunding t survives).files t' w
        = mediaStaged s.files t' w := by
      intro t' w
      rw [forgetStagedFunding]
      dsimp only
      split_ifs
      · rfl
      · exact mediaStaged_erase_consignment t
    apply h.of_drop
    · rfl
    · intro key r hr
      exact ⟨(lookup_of_lookup_retain hr).1, hfiles _⟩
    · intro t' w
      exact (hfiles t' w).le
    · exact he.1

end Booked

/-! ### Every run -/

instance (s : FileTransfer) : (e : Event) → Decidable (s.InStep limits sha256 e)
  | .chunk d => inferInstanceAs (Decidable (_ ∧ s.ChunkInStep limits d))
  | .peerDisconnected _ | .sweepStaleTransfers _ | .sweepUnfundedStagings _ _ _
  | .forgetStagedFunding _ _ => inferInstanceAs (Decidable (_ ∧ True))

end FileTransfer

end RgbLightning
