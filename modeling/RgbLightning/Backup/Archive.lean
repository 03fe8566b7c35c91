import RgbLightning.Backup.Stream
import RgbLightning.Text

/-!
# Directories and their archives

`zipDir` archives a directory.  It leaves out every entry for which the walk reports an
error.  What is not a file is added as a directory, and an entry whose metadata cannot be read
is not a file.  Only a file that is met and cannot be opened or read makes it fail.

A `Tree` carries what happens to the walk at each entry.  `lost` are the regular files that
end up neither in the archive nor in an error.  `unzip` leaves exactly the files of an
archive made by `zipDir` (`unzip_zipDir`).
-/

namespace RgbLightning.Backup

open List Except

/-! ### Directories -/

/-- A path relative to a directory, as the names on the way. -/
abbrev Path : Type := List Str

/-- What happens at an entry that is not a directory: all is well, the walk fails, its
metadata cannot be read, or it cannot be opened or read. -/
inductive LeafFate where
  | works
  | walkFails
  | statFails
  | readFails
deriving DecidableEq

/-- What happens at a directory: all is well, the walk fails at its entry, or its entries
cannot be listed. -/
inductive DirectoryFate where
  | works
  | walkFails
  | listFails
deriving DecidableEq

/-- An entry that is not a directory: a regular file, or a link or special file that resolves
to the content of a regular file or to something else. -/
inductive Leaf where
  | file (bytes : Bytes)
  | link (target : Option Bytes)
deriving DecidableEq

/-- The content of what the entry resolves to, if that is a regular file. -/
def Leaf.content : Leaf → Option Bytes
  | .file bytes => some bytes
  | .link target => target

/-- The entries of a directory in the order of the walk. -/
inductive Tree where
  | nil
  | leaf (name : Str) (fate : LeafFate) (leaf : Leaf) (others : Tree)
  | directory (name : Str) (fate : DirectoryFate) (content others : Tree)

def Tree.names : Tree → List Str
  | .nil => []
  | .leaf name _ _ others => name :: others.names
  | .directory name _ _ others => name :: others.names

/-- The names in every directory are different. -/
def Tree.Distinct : Tree → Prop
  | .nil => True
  | .leaf name _ _ others => name ∉ others.names ∧ others.Distinct
  | .directory name _ content others =>
    name ∉ others.names ∧ content.Distinct ∧ others.Distinct

/-- A directory, and whether the walk gets to its entries at all. -/
structure Directory where
  walks : Bool
  tree : Tree
  distinct : tree.Distinct

def Tree.regularFiles (dir : Path) : Tree → List (Path × Bytes)
  | .nil => []
  | .leaf name _ (.file bytes) others => (dir ++ [name], bytes) :: others.regularFiles dir
  | .leaf _ _ (.link _) others => others.regularFiles dir
  | .directory name _ content others =>
    content.regularFiles (dir ++ [name]) ++ others.regularFiles dir

/-! ### Archives -/

inductive ZipEntry where
  | file (path : Path) (bytes : Bytes)
  | directory (path : Path)
deriving DecidableEq

def ZipEntry.path : ZipEntry → Path
  | .file path _ => path
  | .directory path => path

def logsDir : Str := str "logs"

def render (path : Path) : Str :=
  intercalate (str "/") path

def nameStr (path : Path) : Except Stop Str :=
  if isUtf8 (render path) then return render path
  else throw (.error (.unexpected "Failed to convert file name to string"))

/-- A file is added, unless it is called `log`. -/
def addFile (path : Path) (bytes : Bytes) (reads : Bool) : Except Stop (List ZipEntry) := do
  let _ ← nameStr path
  if path.getLast? = some (str "log") then return []
  else if reads then return [.file path bytes]
  else throw (.error .io)

/-- A directory is added, unless its path ends with the name of the logs directory. -/
def addDirectory (path : Path) : Except Stop (List ZipEntry) := do
  let name ← nameStr path
  if logsDir <:+ name then return [] else return [.directory path]

def zipLeaf (path : Path) : LeafFate → Option Bytes → Except Stop (List ZipEntry)
  | .walkFails, _ => return []
  | .statFails, _ => addDirectory path
  | .works, some bytes => addFile path bytes true
  | .readFails, some bytes => addFile path bytes false
  | .works, none => addDirectory path
  | .readFails, none => addDirectory path

/-- What the entries of a directory, and those below, add to the archive. -/
def Tree.zip (dir : Path) : Tree → Except Stop (List ZipEntry)
  | .nil => return []
  | .leaf name fate node others => do
    let added ← zipLeaf (dir ++ [name]) fate node.content
    let rest ← others.zip dir
    return added ++ rest
  | .directory name fate content others => do
    let added ← (if fate = .walkFails then .ok [] else addDirectory (dir ++ [name]))
    let below ← (if fate = .works then content.zip (dir ++ [name]) else .ok [])
    let rest ← others.zip dir
    return added ++ (below ++ rest)

def zipDir (directory : Directory) : Except Stop (List ZipEntry) :=
  if directory.walks then directory.tree.zip [] else return []

/-- The regular files the walk does not find or takes for directories. -/
def Tree.lost (dir : Path) : Tree → List Path
  | .nil => []
  | .leaf name fate (.file _) others =>
    if fate = .walkFails ∨ fate = .statFails then (dir ++ [name]) :: others.lost dir
    else others.lost dir
  | .leaf _ _ (.link _) others => others.lost dir
  | .directory name fate content others =>
    (if fate = .works then content.lost (dir ++ [name])
      else (content.regularFiles (dir ++ [name])).map Prod.fst)
    ++ others.lost dir

def Directory.lost (directory : Directory) : List Path :=
  if directory.walks then directory.tree.lost []
  else (directory.tree.regularFiles []).map Prod.fst

/-! ### Extraction -/

/-- The files and directories below a target directory. -/
structure Files where
  files : Table Path Bytes
  dirs : List Path

def Files.empty : Files :=
  ⟨∅, []⟩

/-- Directories are not created at or below a file. -/
def Files.createDirAll (fs : Files) (path : Path) : Except Stop Files :=
  if ∃ q ∈ path.inits, q ∈ fs.files then throw (.error .io)
  else return { fs with dirs := path.inits ++ fs.dirs }

/-- A file is not created where a directory is. -/
def Files.create (fs : Files) (path : Path) (bytes : Bytes) : Except Stop Files :=
  if path ∈ fs.dirs then throw (.error .io)
  else return { fs with files := fs.files.insert path bytes }

def Files.extract (fs : Files) : ZipEntry → Except Stop Files
  | .directory path => fs.createDirAll path
  | .file path bytes => do
    let fs ← fs.createDirAll path.dropLast
    fs.create path bytes

def unzip (entries : List ZipEntry) (target : Files) : Except Stop Files :=
  entries.foldlM Files.extract target

/-! ### What the walk adds -/

variable {added : List ZipEntry}

theorem addDirectory_eq_ok {path : Path} (h : addDirectory path = .ok added) :
  added = [] ∨ added = [.directory path]
  := by
  obtain ⟨name, -, h⟩ := bind_eq_ok.mp h
  split_ifs at h
  · left
    apply (ok.inj h).symm
  · right
    apply (ok.inj h).symm

theorem addFile_eq_ok {path : Path} {bytes : Bytes} {reads : Bool}
    (h : addFile path bytes reads = .ok added) :
  (path.getLast? = some (str "log") ∧ added = [])
  ∨ (path.getLast? ≠ some (str "log") ∧ added = [.file path bytes])
  := by
  obtain ⟨name, -, h⟩ := bind_eq_ok.mp h
  split_ifs at h with hlog
  · left
    exact ⟨hlog, (ok.inj h).symm⟩
  · right
    exact ⟨hlog, (ok.inj h).symm⟩

variable {fate : LeafFate}

/-- An entry that is not a directory adds nothing or a directory, or it is met as a file and
adds itself unless it is called `log`. -/
theorem zipLeaf_eq_ok {path : Path} {content : Option Bytes}
    (h : zipLeaf path fate content = .ok added) :
  ((added = [] ∨ added = [.directory path])
    ∧ (fate = .walkFails ∨ fate = .statFails ∨ content = none
      ∨ path.getLast? = some (str "log")))
  ∨ ∃ bytes, content = some bytes ∧ fate ≠ .walkFails ∧ fate ≠ .statFails
    ∧ added = [.file path bytes]
  := by
  match fate, content with
  | .walkFails, _ =>
    left
    exact ⟨Or.inl (ok.inj h).symm, Or.inl rfl⟩
  | .statFails, _ =>
    left
    exact ⟨addDirectory_eq_ok h, Or.inr (Or.inl rfl)⟩
  | .works, none | .readFails, none =>
    left
    exact ⟨addDirectory_eq_ok h, Or.inr (Or.inr (Or.inl rfl))⟩
  | .works, some bytes | .readFails, some bytes =>
    obtain ⟨hlog, hadded⟩ | ⟨-, hadded⟩ := addFile_eq_ok h
    · left
      exact ⟨Or.inl hadded, Or.inr (Or.inr (Or.inr hlog))⟩
    · right
      exact ⟨bytes, rfl, by simp, by simp, hadded⟩

variable {dir : Path} {name : Str} {es : List ZipEntry}

theorem Tree.zip_leaf_eq_ok {node : Leaf} {others : Tree}
    (h : (Tree.leaf name fate node others).zip dir = .ok es) :
  ∃ added rest, zipLeaf (dir ++ [name]) fate node.content = .ok added
    ∧ others.zip dir = .ok rest ∧ es = added ++ rest
  := by
  obtain ⟨added, hadded, h⟩ := bind_eq_ok.mp h
  obtain ⟨rest, hrest, h⟩ := bind_eq_ok.mp h
  exact ⟨added, rest, hadded, hrest, (ok.inj h).symm⟩

theorem Tree.zip_directory_eq_ok {fate : DirectoryFate} {content others : Tree}
    (h : (Tree.directory name fate content others).zip dir = .ok es) :
  ∃ added below rest, (added = [] ∨ added = [.directory (dir ++ [name])])
    ∧ ((fate = .works ∧ content.zip (dir ++ [name]) = .ok below) ∨ (fate ≠ .works ∧ below = []))
    ∧ others.zip dir = .ok rest ∧ es = added ++ (below ++ rest)
  := by
  obtain ⟨added, hadded, h⟩ := bind_eq_ok.mp h
  obtain ⟨below, hbelow, h⟩ := bind_eq_ok.mp h
  obtain ⟨rest, hrest, h⟩ := bind_eq_ok.mp h
  refine ⟨added, below, rest, ?_, ?_, hrest, (ok.inj h).symm⟩
  · split_ifs at hadded
    · left
      apply (ok.inj hadded).symm
    · apply addDirectory_eq_ok hadded
  · split_ifs at hbelow with hfate
    · left
      exact ⟨hfate, hbelow⟩
    · right
      exact ⟨hfate, (ok.inj hbelow).symm⟩

/-! ### Where the paths lie -/

/-- A path that goes through one of the names of a directory. -/
def Through (dir : Path) (names : List Str) (p : Path) : Prop :=
  ∃ name ∈ names, ∃ q, p = dir ++ name :: q

variable {names names' : List Str} {p : Path}

theorem Through.mono (h : Through dir names p) (hnames : names ⊆ names') :
  Through dir names' p
  := by
  obtain ⟨name, hname, q, rfl⟩ := h
  exact ⟨name, hnames hname, q, rfl⟩

theorem through_child (dir : Path) (hname : name ∈ names) :
  Through dir names (dir ++ [name])
  := ⟨name, hname, [], rfl⟩

theorem through_below (h : Through (dir ++ [name]) names p) (hname : name ∈ names') :
  Through dir names' p
  := by
  obtain ⟨name', -, q, rfl⟩ := h
  use name, hname, name' :: q
  rw [append_assoc, singleton_append]

theorem Through.not_isPrefix {p' : Path} (h : Through dir names p) (h' : Through dir names' p')
    (hdisjoint : names.Disjoint names') :
  ¬p <+: p'
  := by
  obtain ⟨name, hname, q, rfl⟩ := h
  obtain ⟨name', hname', q', rfl⟩ := h'
  intro hprefix
  obtain ⟨rfl, -⟩ := cons_prefix_cons.mp ((prefix_append_right_inj dir).mp hprefix)
  apply hdisjoint hname hname'

variable {t : Tree}

theorem Tree.zip_through (h : t.zip dir = .ok es) :
  ∀ e ∈ es, Through dir t.names e.path
  := by
  induction t generalizing dir es with
  | nil =>
    obtain rfl := ok.inj h
    apply forall_mem_nil
  | leaf name fate node others ih =>
    obtain ⟨added, rest, hadded, hrest, rfl⟩ := Tree.zip_leaf_eq_ok h
    intro e he
    obtain he | he := mem_append.mp he
    · have hpath : e.path = dir ++ [name] := by
        obtain ⟨rfl | rfl, -⟩ | ⟨bytes, -, -, -, rfl⟩ := zipLeaf_eq_ok hadded
        · cases he
        · rw [mem_singleton.mp he]
          rfl
        · rw [mem_singleton.mp he]
          rfl
      rw [hpath]
      apply through_child dir mem_cons_self
    · apply (ih hrest e he).mono (subset_cons_self name others.names)
  | directory name fate content others ihcontent ihothers =>
    obtain ⟨added, below, rest, hadded, hbelow, hrest, rfl⟩ := Tree.zip_directory_eq_ok h
    intro e he
    obtain he | he := mem_append.mp he
    · obtain rfl | rfl := hadded
      · cases he
      · rw [mem_singleton.mp he]
        apply through_child dir mem_cons_self
    · obtain he | he := mem_append.mp he
      · obtain ⟨-, hbelow⟩ | ⟨-, rfl⟩ := hbelow
        · apply through_below (ihcontent hbelow e he) mem_cons_self
        · cases he
      · apply (ihothers hrest e he).mono (subset_cons_self name others.names)

theorem Tree.regularFiles_through (dir : Path) (t : Tree) :
  ∀ f ∈ t.regularFiles dir, Through dir t.names f.1
  := by
  induction t generalizing dir with
  | nil => apply forall_mem_nil
  | leaf name fate node others ih =>
    intro f hf
    cases node with
    | file bytes =>
      obtain rfl | hf := mem_cons.mp hf
      · apply through_child dir mem_cons_self
      · apply (ih dir f hf).mono (subset_cons_self name others.names)
    | link target => apply (ih dir f hf).mono (subset_cons_self name others.names)
  | directory name fate content others ihcontent ihothers =>
    intro f hf
    obtain hf | hf := mem_append.mp hf
    · apply through_below (ihcontent (dir ++ [name]) f hf) mem_cons_self
    · apply (ihothers dir f hf).mono (subset_cons_self name others.names)

theorem Tree.lost_subset (dir : Path) (t : Tree) :
  t.lost dir ⊆ (t.regularFiles dir).map Prod.fst
  := by
  induction t generalizing dir with
  | nil => apply Subset.refl
  | leaf name fate node others ih =>
    cases node with
    | file bytes =>
      rw [Tree.lost, Tree.regularFiles, map_cons]
      split_ifs
      · apply cons_subset_cons _ (ih dir)
      · apply subset_cons_of_subset _ (ih dir)
    | link target => apply ih dir
  | directory name fate content others ihcontent ihothers =>
    rw [Tree.lost, Tree.regularFiles, map_append]
    apply append_subset.mpr
    constructor
    · apply subset_append_of_subset_left
      split_ifs
      · apply ihcontent
      · apply Subset.refl
    · apply subset_append_of_subset_right _ (ihothers dir)

/-! ### What the archive holds -/

/-- The archive holds every regular file that is not lost and not called `log`. -/
theorem Tree.mem_zip (h : t.zip dir = .ok es) {bytes : Bytes}
    (hfile : (p, bytes) ∈ t.regularFiles dir) (hlog : p.getLast? ≠ some (str "log"))
    (hlost : p ∉ t.lost dir) :
  .file p bytes ∈ es
  := by
  induction t generalizing dir es with
  | nil => cases hfile
  | leaf name fate node others ih =>
    obtain ⟨added, rest, hadded, hrest, rfl⟩ := Tree.zip_leaf_eq_ok h
    rw [mem_append]
    cases node with
    | file content =>
      rw [Tree.lost] at hlost
      obtain heq | hfile := mem_cons.mp hfile
      · left
        obtain ⟨rfl, rfl⟩ := Prod.mk.inj heq
        obtain ⟨-, hfate | hfate | hnone | hlast⟩ | ⟨content, hsome, -, -, rfl⟩
          := zipLeaf_eq_ok hadded
        · rw [if_pos (Or.inl hfate)] at hlost
          cases hlost mem_cons_self
        · rw [if_pos (Or.inr hfate)] at hlost
          cases hlost mem_cons_self
        · cases hnone
        · cases hlog hlast
        · rw [← Option.some.inj hsome]
          apply mem_singleton_self
      · right
        apply ih hrest hfile
        split_ifs at hlost
        · apply fun hmem => hlost (mem_cons_of_mem _ hmem)
        · apply hlost
    | link target =>
      right
      apply ih hrest hfile hlost
  | directory name fate content others ihcontent ihothers =>
    obtain ⟨added, below, rest, hadded, hbelow, hrest, rfl⟩ := Tree.zip_directory_eq_ok h
    rw [Tree.lost, mem_append, not_or] at hlost
    rw [mem_append, mem_append]
    right
    obtain hfile | hfile := mem_append.mp hfile
    · left
      obtain ⟨hfate, hbelow⟩ | ⟨hfate, rfl⟩ := hbelow
      · rw [if_pos hfate] at hlost
        apply ihcontent hbelow hfile hlost.1
      · rw [if_neg hfate] at hlost
        cases hlost.1 (mem_map_of_mem hfile)
    · right
      apply ihothers hrest hfile hlost.2

/-- One entry is a file at which, or below which, the other one lies. -/
def ZipEntry.Covers : ZipEntry → ZipEntry → Prop
  | .file p _, e => p <+: e.path
  | .directory _, _ => False

/-- Neither entry stands in the way of the other. -/
def ZipEntry.Apart (e e' : ZipEntry) : Prop :=
  ¬e.Covers e' ∧ ¬e'.Covers e

variable {e : ZipEntry}

theorem ZipEntry.Covers.isPrefix {e' : ZipEntry} (h : e.Covers e') :
  e.path <+: e'.path
  := by
  cases e with
  | file p bytes => apply h
  | directory p => cases h

theorem apart_of_through {e' : ZipEntry} (h : Through dir names e.path)
    (h' : Through dir names' e'.path) (hdisjoint : names.Disjoint names') :
  e.Apart e'
  := by
  constructor
  · intro hcovers
    apply h.not_isPrefix h' hdisjoint hcovers.isPrefix
  · intro hcovers
    apply h'.not_isPrefix h hdisjoint.symm hcovers.isPrefix

theorem disjoint_singleton (h : name ∉ names) :
  [name].Disjoint names
  := by
  intro name' hname' hmem
  rw [mem_singleton.mp hname'] at hmem
  contradiction

/-- The entry a leaf adds lies at its path, and there is at most one. -/
theorem zipLeaf_through {content : Option Bytes}
    (h : zipLeaf (dir ++ [name]) fate content = .ok added) :
  added.Pairwise ZipEntry.Apart ∧ ∀ e ∈ added, Through dir [name] e.path
  := by
  have hchild := through_child dir (mem_singleton_self name)
  obtain ⟨rfl | rfl, -⟩ | ⟨bytes, -, -, -, rfl⟩ := zipLeaf_eq_ok h
  · exact ⟨Pairwise.nil, forall_mem_nil _⟩
  · exact ⟨pairwise_singleton _ _, forall_mem_singleton.mpr hchild⟩
  · exact ⟨pairwise_singleton _ _, forall_mem_singleton.mpr hchild⟩

/-- The entries of an archive do not stand in each other's way. -/
theorem Tree.pairwise_zip (hdistinct : t.Distinct) (h : t.zip dir = .ok es) :
  es.Pairwise ZipEntry.Apart
  := by
  induction t generalizing dir es with
  | nil =>
    obtain rfl := ok.inj h
    apply Pairwise.nil
  | leaf name fate node others ih =>
    obtain ⟨added, rest, hadded, hrest, rfl⟩ := Tree.zip_leaf_eq_ok h
    obtain ⟨hname, hdistinct⟩ := hdistinct
    obtain ⟨hone, hthrough⟩ := zipLeaf_through hadded
    rw [pairwise_append]
    refine ⟨hone, ih hdistinct hrest, ?_⟩
    intro e he e' he'
    apply apart_of_through (hthrough e he) (Tree.zip_through hrest e' he')
    apply disjoint_singleton hname
  | directory name fate content others ihcontent ihothers =>
    obtain ⟨added, below, rest, hadded, hbelow, hrest, rfl⟩ := Tree.zip_directory_eq_ok h
    obtain ⟨hname, hcontent, hothers⟩ := hdistinct
    have hinner : below.Pairwise ZipEntry.Apart
        ∧ ∀ e ∈ below, Through (dir ++ [name]) content.names e.path := by
      obtain ⟨-, hbelow⟩ | ⟨-, rfl⟩ := hbelow
      · exact ⟨ihcontent hcontent hbelow, Tree.zip_through hbelow⟩
      · exact ⟨Pairwise.nil, forall_mem_nil _⟩
    have hrest' : ∀ e ∈ below, ∀ e' ∈ rest, e.Apart e' := by
      intro e he e' he'
      apply apart_of_through (through_below (hinner.2 e he) (mem_singleton_self name))
        (Tree.zip_through hrest e' he')
      apply disjoint_singleton hname
    have htail : (below ++ rest).Pairwise ZipEntry.Apart :=
      pairwise_append.mpr ⟨hinner.1, ihothers hothers hrest, hrest'⟩
    obtain rfl | rfl := hadded
    · apply htail
    rw [singleton_append, pairwise_cons]
    apply And.intro _ htail
    intro e he
    obtain he | he := mem_append.mp he
    · -- a file below the directory has a longer path
      constructor
      · rintro ⟨⟩
      · intro hcovers
        obtain ⟨name', -, q, hpath⟩ := hinner.2 e he
        have hlength := hcovers.isPrefix.length_le
        rw [hpath] at hlength
        simp [ZipEntry.path] at hlength
    · apply apart_of_through (through_child dir (mem_singleton_self name))
        (Tree.zip_through hrest e he)
      apply disjoint_singleton hname

theorem notMem_of_through (h : Through dir names p) (hes : ∀ e ∈ es, Through dir names' e.path)
    (hdisjoint : names.Disjoint names') (bytes : Bytes) :
  .file p bytes ∉ es
  := by
  intro hmem
  apply h.not_isPrefix (hes _ hmem) hdisjoint
  apply prefix_rfl

theorem Tree.lost_through (h : p ∈ t.lost dir) :
  Through dir t.names p
  := by
  obtain ⟨f, hf, rfl⟩ := mem_map.mp (t.lost_subset dir h)
  apply t.regularFiles_through dir f hf

theorem Tree.notMem_zip (hdistinct : t.Distinct) (h : t.zip dir = .ok es) (hlost : p ∈ t.lost dir)
    (bytes : Bytes) :
  .file p bytes ∉ es
  := by
  induction t generalizing dir es with
  | nil => cases hlost
  | leaf name fate node others ih =>
    obtain ⟨added, rest, hadded, hrest, rfl⟩ := Tree.zip_leaf_eq_ok h
    obtain ⟨hname, hdistinct⟩ := hdistinct
    have hfirst := (zipLeaf_through hadded).2
    have hothers : p ∈ others.lost dir → ZipEntry.file p bytes ∉ added ++ rest := by
      intro hlost
      rw [mem_append, not_or]
      constructor
      · apply notMem_of_through (Tree.lost_through hlost) hfirst (disjoint_singleton hname).symm
      · apply ih hdistinct hrest hlost
    cases node with
    | link target => apply hothers hlost
    | file content =>
      rw [Tree.lost] at hlost
      split_ifs at hlost with hfate
      · obtain rfl | hlost := mem_cons.mp hlost
        · rw [mem_append, not_or]
          constructor
          · obtain ⟨rfl | rfl, -⟩ | ⟨content, -, hwalk, hstat, -⟩ := zipLeaf_eq_ok hadded
            · apply not_mem_nil
            · simp
            · cases hfate.elim hwalk hstat
          · apply notMem_of_through (through_child dir (mem_singleton_self name))
              (Tree.zip_through hrest) (disjoint_singleton hname)
        · apply hothers hlost
      · apply hothers hlost
  | directory name fate content others ihcontent ihothers =>
    obtain ⟨added, below, rest, hadded, hbelow, hrest, rfl⟩ := Tree.zip_directory_eq_ok h
    obtain ⟨hname, hcontent, hothers⟩ := hdistinct
    have hfirst : ZipEntry.file p bytes ∉ added := by
      obtain rfl | rfl := hadded
      · apply not_mem_nil
      · simp
    rw [mem_append, mem_append, not_or, not_or]
    use hfirst
    obtain hlost | hlost := mem_append.mp hlost
    · have hthrough : Through (dir ++ [name]) content.names p := by
        split_ifs at hlost
        · apply Tree.lost_through hlost
        · obtain ⟨f, hf, rfl⟩ := mem_map.mp hlost
          apply content.regularFiles_through (dir ++ [name]) f hf
      constructor
      · obtain ⟨hfate, hbelow⟩ | ⟨-, rfl⟩ := hbelow
        · rw [if_pos hfate] at hlost
          apply ihcontent hcontent hbelow hlost
        · apply not_mem_nil
      · apply notMem_of_through (through_below hthrough (mem_singleton_self name))
          (Tree.zip_through hrest) (disjoint_singleton hname)
    · constructor
      · obtain ⟨-, hbelow⟩ | ⟨-, rfl⟩ := hbelow
        · apply notMem_of_through (Tree.lost_through hlost) _ (disjoint_singleton hname).symm
          intro e he
          apply through_below (Tree.zip_through hbelow e he) (mem_singleton_self name)
        · apply not_mem_nil
      · apply ihothers hothers hrest hlost

/-! ### What extraction leaves -/

/-- The extraction of some entries has left their files, and directories above them. -/
structure Extracted (done : List ZipEntry) (fs : Files) : Prop where
  files : ∀ p bytes, fs.files.lookup p = some bytes ↔ .file p bytes ∈ done
  dirs : ∀ p ∈ fs.dirs, ∃ e ∈ done, p <+: e.path

variable {done : List ZipEntry}

theorem Extracted.createDirAll {fs : Files} (h : Extracted done fs)
    (hapart : ∀ e' ∈ done, e'.Apart e) (hp : p <+: e.path) :
  fs.createDirAll p = .ok ⟨fs.files, p.inits ++ fs.dirs⟩
  := by
  rw [Files.createDirAll, if_neg]
  · rfl
  · rintro ⟨q, hq, hmem⟩
    obtain ⟨bytes, hlookup⟩ := Table.mem_iff_lookup.mp hmem
    apply (hapart _ ((h.files q bytes).mp hlookup)).1
    apply ((mem_inits q p).mp hq).trans hp

theorem Extracted.extract {fs : Files} (h : Extracted done fs) (hapart : ∀ e' ∈ done, e'.Apart e)
    (hpath : e.path ≠ []) :
  ∃ fs', fs.extract e = .ok fs' ∧ Extracted (done ++ [e]) fs'
  := by
  have hold : ∀ p ∈ fs.dirs, ∃ e' ∈ done ++ [e], p <+: e'.path := by
    intro p hp
    obtain ⟨e', he', hprefix⟩ := h.dirs p hp
    exact ⟨e', mem_append_left [e] he', hprefix⟩
  cases e with
  | directory path =>
    refine ⟨_, h.createDirAll hapart prefix_rfl, ?_, ?_⟩
    · intro p bytes
      rw [h.files]
      simp
    · intro p hp
      obtain hp | hp := mem_append.mp hp
      · refine ⟨_, mem_append_right done (mem_singleton_self _), ?_⟩
        apply (mem_inits p path).mp hp
      · apply hold p hp
  | file path bytes =>
    have hcreate := h.createDirAll hapart ( dropLast_prefix path)
    have hfree : path ∉ path.dropLast.inits ++ fs.dirs := by
      rw [mem_append, not_or]
      constructor
      · intro hmem
        have hlength := ((mem_inits _ _).mp hmem).length_le
        have hpos := length_pos_of_ne_nil hpath
        rw [length_dropLast] at hlength
        change 0 < path.length at hpos
        omega
      · intro hmem
        obtain ⟨e', he', hprefix⟩ := h.dirs path hmem
        apply (hapart e' he').2 hprefix
    refine ⟨⟨fs.files.insert path bytes, path.dropLast.inits ++ fs.dirs⟩, ?_, ?_, ?_⟩
    · rw [Files.extract, hcreate]
      change Files.create ⟨fs.files, path.dropLast.inits ++ fs.dirs⟩ path bytes = _
      rw [Files.create, if_neg hfree]
      rfl
    · intro p content
      rw [Table.lookup_insert_eq, mem_append, mem_singleton]
      split_ifs with hp
      · constructor
        · intro heq
          right
          rw [hp, Option.some.inj heq]
        · rintro (hmem | heq)
          · rw [hp] at hmem
            cases (hapart _ hmem).1 prefix_rfl
          · rw [(ZipEntry.file.inj heq).2]
      · rw [h.files]
        constructor
        · apply Or.inl
        · rintro (hmem | heq)
          · apply hmem
          · cases hp (ZipEntry.file.inj heq).1
    · intro p hp
      obtain hp | hp := mem_append.mp hp
      · refine ⟨_, mem_append_right done (mem_singleton_self _), ?_⟩
        apply ((mem_inits p _).mp hp).trans ( dropLast_prefix path)
      · apply hold p hp

theorem Extracted.unzip {fs : Files} (h : Extracted done fs)
    (hapart : (done ++ es).Pairwise ZipEntry.Apart) (hpaths : ∀ e ∈ es, e.path ≠ []) :
  ∃ fs', unzip es fs = .ok fs' ∧ Extracted (done ++ es) fs'
  := by
  induction es generalizing done fs with
  | nil =>
    rw [append_nil]
    exact ⟨fs, rfl, h⟩
  | cons e es ih =>
    obtain ⟨hpath, hpaths⟩ := forall_mem_cons.mp hpaths
    have hbefore : ∀ e' ∈ done, e'.Apart e := by
      intro e' he'
      apply (pairwise_append.mp hapart).2.2 e' he' e mem_cons_self
    obtain ⟨fs1, hfs1, hextracted⟩ := h.extract hbefore hpath
    rw [append_cons] at hapart ⊢
    obtain ⟨fs', hfs', hall⟩ := ih hextracted hapart hpaths
    use fs'
    apply And.intro _ hall
    rw [Backup.unzip, foldlM_cons, hfs1]
    apply hfs'

variable {directory : Directory}

variable (h : zipDir directory = .ok es)
include h

/-- The extraction of an archive into an empty directory leaves exactly the files of the
archive. -/
theorem unzip_zipDir :
  ∃ fs, unzip es Files.empty = .ok fs
    ∧ ∀ p bytes, fs.files.lookup p = some bytes ↔ .file p bytes ∈ es
  := by
  have hes : es.Pairwise ZipEntry.Apart ∧ ∀ e ∈ es, e.path ≠ [] := by
    rw [zipDir] at h
    split_ifs at h
    · use Tree.pairwise_zip directory.distinct h
      intro e he hnil
      obtain ⟨name, -, q, hpath⟩ := Tree.zip_through h e he
      rw [hnil] at hpath
      cases hpath
    · obtain rfl := ok.inj h
      exact ⟨Pairwise.nil, forall_mem_nil _⟩
  have hempty : Extracted [] Files.empty := by
    constructor
    · intro p bytes
      simp [Files.empty]
    · apply forall_mem_nil
  obtain ⟨fs, hfs, hextracted⟩ := hempty.unzip hes.1 hes.2
  exact ⟨fs, hfs, hextracted.files⟩

omit h in
theorem Directory.lost_subset (directory : Directory) :
  directory.lost ⊆ (directory.tree.regularFiles []).map Prod.fst
  := by
  rw [Directory.lost]
  split_ifs
  · apply Tree.lost_subset
  · apply Subset.refl

theorem notMem_zipDir (hlost : p ∈ directory.lost) (bytes : Bytes) :
  .file p bytes ∉ es
  := by
  rw [zipDir] at h
  rw [Directory.lost] at hlost
  split_ifs at h hlost with hwalks
  · apply Tree.notMem_zip directory.distinct h hlost
  · obtain rfl := ok.inj h
    apply not_mem_nil

theorem mem_zipDir {bytes : Bytes} (hfile : (p, bytes) ∈ directory.tree.regularFiles [])
    (hlog : p.getLast? ≠ some (str "log")) (hlost : p ∉ directory.lost) :
  .file p bytes ∈ es
  := by
  rw [zipDir] at h
  rw [Directory.lost] at hlost
  split_ifs at h hlost with hwalks
  · apply Tree.mem_zip h hfile hlog hlost
  · cases hlost (mem_map_of_mem hfile)

end RgbLightning.Backup
