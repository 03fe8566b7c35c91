import RgbLightning.Backup.Archive

/-!
# Backups and their restoration

`doBackup` archives the wallet directory, encrypts the archive, and archives the encrypted
file once more, together with the salt, the nonce and the version.  `unpackBackup` and
`installBackup` are the way back.  `backup_reproduces_iff` says when a backup that was made
without an error can be relied on.
-/

namespace RgbLightning.Backup

open List Except

def backupSaltLength : ℕ := 32

def backupVersion : ℕ := 1

/-- Archives as files.  Reading an archive gives the entries it was made of. -/
structure ZipLibrary where
  encode : List ZipEntry → Bytes
  decode : Bytes → Option (List ZipEntry)
  decode_encode : ∀ es, decode (encode es) = some es

def isAlphanumeric (c : UInt8) : Bool :=
  (48 ≤ c ∧ c ≤ 57) ∨ (65 ≤ c ∧ c ≤ 90) ∨ (97 ≤ c ∧ c ≤ 122)

/-- A random text of letters and digits. -/
structure Alphanumeric (n : ℕ) where
  text : Str
  length_text : text.length = n
  alphanumeric : ∀ c ∈ text, isAlphanumeric c = true

/-- What happens outside the wallet directory: whether the backup file exists, whether the
temporary directory and its files can be written, and what the walk over it meets. -/
structure BackupFates where
  backupFileExists : Bool
  writes : Bool
  walks : Bool
  encrypted : LeafFate
  nonce : LeafFate
  salt : LeafFate
  version : LeafFate

/-- The entries of the directory in which a backup is collected. -/
def collected (fates : BackupFates) (encrypted nonce salt : Bytes) : Tree :=
  .leaf (str "backup.enc") fates.encrypted (.file encrypted)
    (.leaf (str "backup.nonce") fates.nonce (.file nonce)
      (.leaf (str "backup.salt") fates.salt (.file salt)
        (.leaf (str "backup.version") fates.version (.file (decimalStr backupVersion)) .nil)))

theorem distinct_collected (fates : BackupFates) (encrypted nonce salt : Bytes) :
  (collected fates encrypted nonce salt).Distinct
  := by
  simp only [collected, Tree.Distinct, Tree.names]
  decide

def collectedDirectory (fates : BackupFates) (encrypted nonce salt : Bytes) : Directory :=
  ⟨fates.walks, collected fates encrypted nonce salt,
    distinct_collected fates encrypted nonce salt⟩

variable {Key : Type} (crypto : Cryptography Key) (zip : ZipLibrary)

def doBackup (fates : BackupFates) (wallet : Directory) (password : Str)
    (salt : Alphanumeric backupSaltLength) (nonce : Alphanumeric backupNonceLength) :
    Except Stop Bytes :=
  if fates.backupFileExists then throw (.error .invalidBackupPath)
  else if ¬fates.writes then throw (.error .io)
  else do
    let entries ← zipDir wallet
    let encrypted ← encryptFile crypto (zip.encode entries) password salt.text nonce.text
    let files ← zipDir (collectedDirectory fates encrypted nonce.text salt.text)
    return zip.encode files

def unzipFile (archive : Bytes) (target : Files) : Except Stop Files :=
  match zip.decode archive with
  | none => throw (.error (.unexpected "Failed to read zip archive"))
  | some entries => unzip entries target

def readFile (fs : Files) (name : Str) : Except Stop Bytes :=
  match fs.files.lookup [name] with
  | none => throw (.error .io)
  | some bytes => return bytes

def readToString (fs : Files) (name : Str) : Except Stop Str := do
  let bytes ← readFile fs name
  if isUtf8 bytes then return bytes else throw (.error .io)

def checkVersion (text : Str) : Except Stop Unit :=
  match (parseU64 text).filter (· ≤ 255) with
  | none => throw (.error (.unexpected "Failed to get backup version"))
  | some version =>
    if version ≠ backupVersion then
      throw (.error (.unsupportedBackupVersion (decimalStr version)))
    else return ()

/-- The decrypted archive, and what it extracts to. -/
structure UnpackedBackup where
  dir : Files
  zip : Bytes

def unpackBackup (backup : Bytes) (password : Str) : Except Stop UnpackedBackup := do
  let files ← unzipFile zip backup .empty
  let nonce ← readToString files (str "backup.nonce")
  let salt ← readToString files (str "backup.salt")
  let version ← readToString files (str "backup.version")
  checkVersion version
  let encrypted ← readFile files (str "backup.enc")
  let archive ← decryptFile crypto encrypted password salt nonce
  let dir ← unzipFile zip archive .empty
  return ⟨dir, archive⟩

def installBackup (backup : UnpackedBackup) (target : Files) : Except Stop Files :=
  unzipFile zip backup.zip target

/-! ### The files that have to come back -/

/-- A file that is not called `log` and is not under a logs directory. -/
def Kept (p : Path) : Prop :=
  p.getLast? ≠ some (str "log") ∧ logsDir ∉ p.dropLast
deriving Decidable

/-- The walk over the directory in which the backup is collected finds its four files. -/
def BackupFates.Finds (fates : BackupFates) : Prop :=
  fates.walks = true
  ∧ ∀ fate ∈ [fates.encrypted, fates.nonce, fates.salt, fates.version],
      fate ≠ .walkFails ∧ fate ≠ .statFails
deriving Decidable

theorem Alphanumeric.isUtf8_text {n : ℕ} (a : Alphanumeric n) :
  isUtf8 a.text = true
  := by
  apply isUtf8_of_ascii
  intro c hc
  have h := a.alphanumeric c hc
  simp only [isAlphanumeric, decide_eq_true_iff] at h
  obtain ⟨-, h⟩ | ⟨-, h⟩ | ⟨-, h⟩ := h
  all_goals
    apply UInt8.lt_of_le_of_lt h
    decide

theorem ite_cons_eq_nil {c : Prop} [Decidable c] {p : Path} {l : List Path} :
  (if c then p :: l else l) = [] ↔ ¬c ∧ l = []
  := by
  split_ifs with hc
  · simp [hc]
  · simp [hc]

/-- Nothing is lost in the directory in which a backup is collected when its files are
found. -/
theorem lost_collected (fates : BackupFates) (encrypted nonce salt : Bytes) :
  (collectedDirectory fates encrypted nonce salt).lost = [] ↔ fates.Finds
  := by
  have htree : (collected fates encrypted nonce salt).lost [] = []
      ↔ ∀ fate ∈ [fates.encrypted, fates.nonce, fates.salt, fates.version],
          fate ≠ .walkFails ∧ fate ≠ .statFails := by
    simp only [collected, Tree.lost, ite_cons_eq_nil, not_or, forall_mem_cons,
      not_mem_nil, IsEmpty.forall_iff, implies_true, and_true, ne_eq]
  by_cases hwalks : fates.walks = true
  · rw [Directory.lost, if_pos (show (collectedDirectory fates encrypted nonce salt).walks = true
      from hwalks), BackupFates.Finds, and_iff_right hwalks]
    apply htree
  · rw [Directory.lost, if_neg (show ¬(collectedDirectory fates encrypted nonce salt).walks = true
      from hwalks), BackupFates.Finds]
    simp [hwalks, collectedDirectory, collected, Tree.regularFiles]

theorem doBackup_eq_ok {fates : BackupFates} {wallet : Directory} {password : Str}
    {salt : Alphanumeric backupSaltLength} {nonce : Alphanumeric backupNonceLength}
    {backup : Bytes} (h : doBackup crypto zip fates wallet password salt nonce = .ok backup) :
  ∃ entries encrypted files, zipDir wallet = .ok entries
    ∧ encryptFile crypto (zip.encode entries) password salt.text nonce.text = .ok encrypted
    ∧ zipDir (collectedDirectory fates encrypted nonce.text salt.text) = .ok files
    ∧ backup = zip.encode files
  := by
  rw [doBackup] at h
  split_ifs at h
  obtain ⟨entries, hentries, h⟩ := bind_eq_ok.mp h
  obtain ⟨encrypted, hencrypted, h⟩ := bind_eq_ok.mp h
  obtain ⟨files, hfiles, h⟩ := bind_eq_ok.mp h
  exact ⟨entries, encrypted, files, hentries, hencrypted, hfiles, (ok.inj h).symm⟩

theorem ok_bind {α β : Type} (a : α) (f : α → Except Stop β) :
  (ok a >>= f) = f a
  := rfl

theorem unzipFile_encode (es : List ZipEntry) (target : Files) :
  unzipFile zip (zip.encode es) target = unzip es target
  := by
  simp only [unzipFile, zip.decode_encode]

theorem unpackBackup_eq_ok {backup : Bytes} {password : Str} {unpacked : UnpackedBackup}
    (h : unpackBackup crypto zip backup password = .ok unpacked) :
  ∃ files nonce salt encrypted, unzipFile zip backup .empty = .ok files
    ∧ readToString files (str "backup.nonce") = .ok nonce
    ∧ readToString files (str "backup.salt") = .ok salt
    ∧ (∃ version, readToString files (str "backup.version") = .ok version)
    ∧ readFile files (str "backup.enc") = .ok encrypted
  := by
  obtain ⟨files, hfiles, h⟩ := bind_eq_ok.mp h
  obtain ⟨nonce, hnonce, h⟩ := bind_eq_ok.mp h
  obtain ⟨salt, hsalt, h⟩ := bind_eq_ok.mp h
  obtain ⟨version, hversion, h⟩ := bind_eq_ok.mp h
  obtain ⟨-, -, h⟩ := bind_eq_ok.mp h
  obtain ⟨encrypted, hencrypted, -⟩ := bind_eq_ok.mp h
  exact ⟨files, nonce, salt, encrypted, hfiles, hnonce, hsalt, ⟨version, hversion⟩, hencrypted⟩

section Reading

variable {crypto zip} {directory : Directory} {es : List ZipEntry} {files : Files}
    (hes : zipDir directory = .ok es) (hfiles : unzip es .empty = .ok files)
include hes hfiles

theorem lookup_extracted (p : Path) (bytes : Bytes) :
  files.files.lookup p = some bytes ↔ .file p bytes ∈ es
  := by
  obtain ⟨fs, hfs, h⟩ := unzip_zipDir hes
  rw [hfiles] at hfs
  rw [ok.inj hfs]
  apply h

theorem readFile_eq {name : Str} {bytes : Bytes} (hlog : name ≠ str "log")
    (hfile : ([name], bytes) ∈ directory.tree.regularFiles []) (hlost : [name] ∉ directory.lost) :
  readFile files name = .ok bytes
  := by
  have hlast : [name].getLast? ≠ some (str "log") := by
    intro h
    apply hlog (Option.some.inj h)
  have hlookup := (lookup_extracted hes hfiles [name] bytes).mpr
    (mem_zipDir hes hfile hlast hlost)
  simp only [readFile, hlookup]
  rfl

theorem readToString_eq {name : Str} {bytes : Bytes} (hlog : name ≠ str "log")
    (hfile : ([name], bytes) ∈ directory.tree.regularFiles []) (hlost : [name] ∉ directory.lost)
    (hutf8 : isUtf8 bytes = true) :
  readToString files name = .ok bytes
  := by
  rw [readToString, readFile_eq hes hfiles hlog hfile hlost]
  change (if isUtf8 bytes = true then _ else _) = _
  rw [if_pos hutf8]
  rfl

theorem readFile_ne {name : Str} (hlost : [name] ∈ directory.lost) (bytes : Bytes) :
  readFile files name ≠ .ok bytes
  := by
  intro h
  rw [readFile] at h
  split at h
  · cases h
  · rename_i content hlookup
    apply notMem_zipDir hes hlost content
    apply (lookup_extracted hes hfiles [name] content).mp hlookup

end Reading

section Backup

variable {fates : BackupFates} {encrypted : Bytes} {salt : Alphanumeric backupSaltLength}
    {nonce : Alphanumeric backupNonceLength} {collection : List ZipEntry}
    (hcollection : zipDir (collectedDirectory fates encrypted nonce.text salt.text)
      = .ok collection)
include hcollection

theorem finds_of_unpackBackup {password : Str} {unpacked : UnpackedBackup}
    (h : unpackBackup crypto zip (zip.encode collection) password = .ok unpacked) :
  fates.Finds
  := by
  obtain ⟨files, nonce', salt', encrypted', hfiles, hnonce, hsalt, ⟨version, hversion⟩, hencrypted⟩
    := unpackBackup_eq_ok crypto zip h
  rw [unzipFile_encode] at hfiles
  obtain ⟨_, hnonce, -⟩ := bind_eq_ok.mp hnonce
  obtain ⟨_, hsalt, -⟩ := bind_eq_ok.mp hsalt
  obtain ⟨_, hversion, -⟩ := bind_eq_ok.mp hversion
  have hread : ∀ name bytes, readFile files name = .ok bytes →
      [name] ∉ (collectedDirectory fates encrypted nonce.text salt.text).lost :=
    fun name bytes hbytes hlost => readFile_ne hcollection hfiles hlost bytes hbytes
  rw [← lost_collected fates encrypted nonce.text salt.text, eq_nil_iff_forall_not_mem]
  intro p hlost
  have hmem := Directory.lost_subset _ hlost
  simp only [collectedDirectory, collected, Tree.regularFiles, map_cons, map_nil,
    nil_append, mem_cons, not_mem_nil, or_false] at hmem
  obtain rfl | rfl | rfl | rfl := hmem
  · apply hread _ _ hencrypted hlost
  · apply hread _ _ hnonce hlost
  · apply hread _ _ hsalt hlost
  · apply hread _ _ hversion hlost

theorem unpackBackup_of_finds (hopens : ∀ secrets cleartext, Opens crypto secrets cleartext)
    {entries : List ZipEntry} {password : Str} {staged : Files}
    (hencrypted : encryptFile crypto (zip.encode entries) password salt.text nonce.text
      = .ok encrypted)
    (hfinds : fates.Finds) (hstaged : unzip entries .empty = .ok staged) :
  unpackBackup crypto zip (zip.encode collection) password
    = .ok ⟨staged, zip.encode entries⟩
  := by
  obtain ⟨files, hfiles, -⟩ := unzip_zipDir hcollection
  have hlost : ∀ p, p ∉ (collectedDirectory fates encrypted nonce.text salt.text).lost := by
    rw [(lost_collected fates encrypted nonce.text salt.text).mpr hfinds]
    intro p
    apply not_mem_nil
  have henc : readFile files (str "backup.enc") = .ok encrypted := by
    apply readFile_eq hcollection hfiles (by decide) _ (hlost _)
    simp [collectedDirectory, collected, Tree.regularFiles]
  have hnonce : readToString files (str "backup.nonce") = .ok nonce.text := by
    apply readToString_eq hcollection hfiles (by decide) _ (hlost _) nonce.isUtf8_text
    simp [collectedDirectory, collected, Tree.regularFiles]
  have hsalt : readToString files (str "backup.salt") = .ok salt.text := by
    apply readToString_eq hcollection hfiles (by decide) _ (hlost _) salt.isUtf8_text
    simp [collectedDirectory, collected, Tree.regularFiles]
  have hversion : readToString files (str "backup.version") = .ok (decimalStr backupVersion) := by
    apply readToString_eq hcollection hfiles (by decide) _ (hlost _) (isUtf8_decimalStr _)
    simp [collectedDirectory, collected, Tree.regularFiles]
  have hcheck : checkVersion (decimalStr backupVersion) = .ok () := by decide
  obtain ⟨secrets, hsecrets, -⟩ := bind_eq_ok.mp hencrypted
  have hdecrypted := decryptFile_encryptFile hsecrets (hopens secrets _) hencrypted
  rw [unpackBackup, unzipFile_encode, hfiles, ok_bind, hnonce, ok_bind, hsalt, ok_bind, hversion,
    ok_bind, hcheck, ok_bind, henc, ok_bind, hdecrypted, ok_bind, unzipFile_encode, hstaged]
  rfl

end Backup

/-- For every wallet directory, with whatever errors the file system reports, every password,
salt and nonce: a backup that is made without an error is unpacked and installed, and gives
back every file to be kept, exactly if no such file is lost on the walk over the wallet and
the files of the backup are found when they are put together. -/
theorem backup_reproduces_iff
    (hopens : ∀ secrets cleartext, Opens crypto secrets cleartext) (fates : BackupFates)
    (wallet : Directory) (password : Str) (salt : Alphanumeric backupSaltLength)
    (nonce : Alphanumeric backupNonceLength) :
  (∀ backup, doBackup crypto zip fates wallet password salt nonce = .ok backup →
    ∃ unpacked installed, unpackBackup crypto zip backup password = .ok unpacked
      ∧ installBackup zip unpacked .empty = .ok installed
      ∧ ∀ p bytes, (p, bytes) ∈ wallet.tree.regularFiles [] → Kept p →
          installed.files.lookup p = some bytes)
  ↔ ∀ backup, doBackup crypto zip fates wallet password salt nonce = .ok backup →
      (∀ p ∈ wallet.lost, ¬Kept p) ∧ fates.Finds
  := by
  apply forall_congr'
  intro backup
  apply imp_congr_right
  intro h
  obtain ⟨entries, encrypted, collection, hentries, hencrypted, hcollection, rfl⟩
    := doBackup_eq_ok crypto zip h
  obtain ⟨installed, hinstalled⟩ := unzip_zipDir hentries
  constructor
  · rintro ⟨unpacked, installed', hunpacked, hinstalled', hfiles⟩
    have hfinds := finds_of_unpackBackup crypto zip hcollection hunpacked
    rw [unpackBackup_of_finds crypto zip hcollection hopens hencrypted hfinds
      hinstalled.1] at hunpacked
    rw [← ok.inj hunpacked, installBackup, unzipFile_encode, hinstalled.1] at hinstalled'
    obtain rfl := ok.inj hinstalled'
    apply And.intro _ hfinds
    intro p hlost hkept
    obtain ⟨⟨p, bytes⟩, hfile, rfl⟩ := mem_map.mp (wallet.lost_subset hlost)
    apply notMem_zipDir hentries hlost bytes
    apply (hinstalled.2 p bytes).mp (hfiles p bytes hfile hkept)
  · rintro ⟨hlost, hfinds⟩
    refine ⟨_, installed, unpackBackup_of_finds crypto zip hcollection hopens hencrypted
      hfinds hinstalled.1, ?_, ?_⟩
    · rw [installBackup, unzipFile_encode, hinstalled.1]
    · intro p bytes hfile hkept
      apply (hinstalled.2 p bytes).mpr
      apply mem_zipDir hentries hfile hkept.1
      intro hmem
      apply hlost p hmem hkept

/-! ### An archive format and a cipher -/

/-- The entries read so far, and the names and the text of the one that is being read. -/
structure Reading where
  entries : List ZipEntry
  path : Path
  text : Bytes

/-- A byte of a text, or the end of a name, of a file or of a directory. -/
def Reading.read (r : Reading) (kind byte : UInt8) : Reading :=
  if kind = 0 then { r with text := r.text ++ [byte] }
  else if kind = 1 then { r with path := r.path ++ [r.text], text := [] }
  else if kind = 2 then ⟨r.entries ++ [.file r.path r.text], [], []⟩
  else ⟨r.entries ++ [.directory r.path], [], []⟩

def readPairs (r : Reading) : Bytes → Reading
  | kind :: byte :: bytes => readPairs (r.read kind byte) bytes
  | _ => r

def plainText (text : Bytes) : Bytes :=
  text.flatMap fun byte => [0, byte]

def plainPath (path : Path) : Bytes :=
  path.flatMap fun name => plainText name ++ [1, 0]

def plainEntry : ZipEntry → Bytes
  | .file path bytes => plainPath path ++ (plainText bytes ++ [2, 0])
  | .directory path => plainPath path ++ [3, 0]

theorem readPairs_plainText (r : Reading) (text rest : Bytes) :
  readPairs r (plainText text ++ rest) = readPairs { r with text := r.text ++ text } rest
  := by
  induction text generalizing r with
  | nil =>
    rw [append_nil]
    rfl
  | cons byte text ih =>
    change readPairs (r.read 0 byte) (plainText text ++ rest) = _
    rw [ih]
    simp [Reading.read]

theorem readPairs_plainPath (r : Reading) (path : Path) (rest : Bytes) (h : r.text = []) :
  readPairs r (plainPath path ++ rest) = readPairs { r with path := r.path ++ path } rest
  := by
  induction path generalizing r with
  | nil =>
    rw [append_nil]
    rfl
  | cons name path ih =>
    have hcons : plainPath (name :: path) ++ rest
        = plainText name ++ (1 :: 0 :: (plainPath path ++ rest)) := by
      simp [plainPath]
    rw [hcons, readPairs_plainText, readPairs, ih _ rfl]
    simp [Reading.read, h]

theorem readPairs_plainEntry (entries : List ZipEntry) (e : ZipEntry) (rest : Bytes) :
  readPairs ⟨entries, [], []⟩ (plainEntry e ++ rest) = readPairs ⟨entries ++ [e], [], []⟩ rest
  := by
  cases e with
  | file path bytes =>
    rw [plainEntry, append_assoc, append_assoc, readPairs_plainPath _ _ _ rfl,
      readPairs_plainText]
    rfl
  | directory path =>
    rw [plainEntry, append_assoc, readPairs_plainPath _ _ _ rfl]
    rfl

theorem readPairs_plainEntries (entries es : List ZipEntry) :
  (readPairs ⟨entries, [], []⟩ (es.flatMap plainEntry)).entries = entries ++ es
  := by
  induction es generalizing entries with
  | nil =>
    rw [append_nil]
    rfl
  | cons e es ih => rw [flatMap_cons, readPairs_plainEntry, ih, append_assoc,
      singleton_append]

theorem decode_plainEntries (es : List ZipEntry) :
  some (readPairs ⟨[], [], []⟩ (es.flatMap plainEntry)).entries = some es
  := by
  rw [readPairs_plainEntries, nil_append]

def plainZip : ZipLibrary where
  encode es := es.flatMap plainEntry
  decode bytes := some (readPairs ⟨[], [], []⟩ bytes).entries
  decode_encode := decode_plainEntries

/-- A cipher that appends a mark and removes it. -/
def stripping : Cryptography Unit where
  decodeSalt _ := .ok []
  deriveKey _ _ := .ok ()
  encrypt _ _ last chunk := chunk ++ mark last
  decrypt _ _ _ segment := some (segment.take (segment.length - 16))
  length_encrypt _ _ last chunk := length_append_mark last chunk

theorem opens_stripping (secrets : CypherSecrets Unit) (cleartext : Bytes) :
  Opens stripping secrets cleartext
  := by
  intro position last chunk _
  change some ((chunk ++ mark last).take ((chunk ++ mark last).length - 16)) = some chunk
  rw [length_append_mark, Nat.add_sub_cancel, take_left]

theorem alphanumeric_replicate (n : ℕ) :
  ∀ c ∈ replicate n (97 : UInt8), isAlphanumeric c = true
  := by
  intro c hc
  rw [eq_of_mem_replicate hc]
  decide

def someText (n : ℕ) : Alphanumeric n :=
  ⟨replicate n 97, length_replicate, alphanumeric_replicate n⟩

/-- Nothing goes wrong outside the wallet directory. -/
def allWell : BackupFates :=
  ⟨false, true, true, .works, .works, .works, .works⟩

theorem distinct_seed (fate : LeafFate) :
  (Tree.leaf (str "seed") fate (.file [7]) .nil).Distinct
  := ⟨not_mem_nil, trivial⟩

def seedWallet (fate : LeafFate) : Directory :=
  ⟨true, .leaf (str "seed") fate (.file [7]) .nil, distinct_seed fate⟩

theorem backup_reproduces_seed :
  ∃ backup unpacked installed,
    doBackup stripping plainZip allWell (seedWallet .works) [] (someText 32) (someText 19)
      = .ok backup
    ∧ unpackBackup stripping plainZip backup [] = .ok unpacked
    ∧ installBackup plainZip unpacked .empty = .ok installed
    ∧ installed.files.lookup [str "seed"] = some [7]
  := by
  have hok : (doBackup stripping plainZip allWell (seedWallet .works) [] (someText 32)
      (someText 19)).isOk = true := by
    decide +kernel
  cases hbackup : doBackup stripping plainZip allWell (seedWallet .works) [] (someText 32)
      (someText 19) with
  | error stop =>
    rw [hbackup] at hok
    cases hok
  | ok backup =>
    have hcondition : (∀ p ∈ (seedWallet .works).lost, ¬Kept p) ∧ allWell.Finds := by decide
    obtain ⟨unpacked, installed, hunpacked, hinstalled, h⟩ :=
      (backup_reproduces_iff stripping plainZip opens_stripping allWell (seedWallet .works) []
        (someText 32) (someText 19)).mpr (fun _ _ => hcondition) backup hbackup
    refine ⟨backup, unpacked, installed, rfl, hunpacked, hinstalled, ?_⟩
    apply h
    · apply mem_singleton_self
    · decide

/-- The metadata of the only file cannot be read.  The backup is made without an error, and
its restoration does not bring back the file. -/
theorem backup_loses_seed :
  ([str "seed"], [7]) ∈ (seedWallet .statFails).tree.regularFiles [] ∧ Kept [str "seed"]
  ∧ (do
      let backup ← doBackup stripping plainZip allWell (seedWallet .statFails) [] (someText 32)
        (someText 19)
      let unpacked ← unpackBackup stripping plainZip backup []
      let installed ← installBackup plainZip unpacked .empty
      return installed.files.lookup [str "seed"])
    = ok none
  := by
  decide +kernel

end RgbLightning.Backup
