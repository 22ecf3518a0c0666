import Mathlib.Data.List.Infix

/-!
# File systems and path resolution

A file system assigns an entry to every path that exists. A path is the list of its components
below the root directory; a written path is a byte string. Resolution walks along the components
and follows the symbolic links.

## Main definitions

* `pathComponents`, `genericString`: the components of a written relative path, and their text.
* `FileSystem`: the entries, closed under parent directories, with their recursive listing.
* `FileSystem.walk`, `FileSystem.resolve`: resolution, with at most forty symbolic links.

## Main results

* `genericString_injective`: two paths of names with the same text are equal.
* `pathComponents_append`: a suffix without a separator changes the last component only.
* `FileSystem.resolve_of_noLink`: below a directory without symbolic links, a path of names
  resolves to itself.
-/

namespace MagpieTts.Library

/-! ### Written paths -/

/-- A path is a byte string. -/
abbrev Bytes := List UInt8

/-- The UTF-8 bytes of a text. -/
def utf8 (text : String) : Bytes := text.toList.flatMap String.utf8EncodeChar

/-- The separator of components. -/
def slash : UInt8 := 0x2F

/-- The byte of which the components `.` and `..` are made. -/
def dot : UInt8 := 0x2E

/-- The names that a directory entry may have. -/
def IsName (component : Bytes) : Prop :=
  component ≠ [] ∧ component ≠ [dot] ∧ component ≠ [dot, dot] ∧ slash ∉ component

instance (component : Bytes) : Decidable (IsName component) := by
  unfold IsName
  infer_instance

/-- The components of a relative path: repeated separators count once, and a separator at the end
leaves an empty last component. -/
def pathComponents (path : Bytes) : List Bytes :=
  if path = [] then []
  else
    (path.splitOn slash).dropLast.filter (· ≠ []) ++
      [(path.splitOn slash).getLast (List.splitOn_ne_nil _ _)]

/-- The text of a relative path. -/
def genericString (components : List Bytes) : Bytes := [slash].intercalate components

/-- The text of an absolute path. -/
def absoluteString (components : List Bytes) : Bytes := slash :: genericString components

theorem genericString_injective {p q : List Bytes} (hp : ∀ c ∈ p, IsName c)
    (hq : ∀ c ∈ q, IsName c) (hpne : p ≠ []) (hqne : q ≠ [])
    (h : genericString p = genericString q) : p = q := by
  rw [← List.splitOn_intercalate slash (fun c hc => (hp c hc).2.2.2) hpne,
    ← List.splitOn_intercalate slash (fun c hc => (hq c hc).2.2.2) hqne]
  exact congrArg _ h

theorem pathComponents_ne_nil {path : Bytes} (h : path ≠ []) : pathComponents path ≠ [] := by
  rw [pathComponents, if_neg h]
  exact List.append_ne_nil_of_right_ne_nil _ (List.cons_ne_nil _ _)

/-- No part between separators has a separator. -/
theorem notMem_of_mem_splitOn (path : Bytes) : ∀ part ∈ path.splitOn slash, slash ∉ part := by
  induction path with
  | nil => simp
  | cons byte path ih =>
    rw [List.splitOn_cons_eq_if_modifyHead]
    split_ifs with hbyte
    · exact List.forall_mem_cons.mpr ⟨List.not_mem_nil, ih⟩
    · rcases hparts : path.splitOn slash with _ | ⟨first, rest⟩
      · exact absurd hparts (List.splitOn_ne_nil _ _)
      · rw [hparts] at ih
        rw [List.modifyHead_cons]
        refine List.forall_mem_cons.mpr ⟨fun hmem => ?_, fun part hpart =>
          ih part (List.mem_cons_of_mem _ hpart)⟩
        rcases List.mem_cons.mp hmem with rfl | hmem
        · exact hbyte (beq_self_eq_true _)
        · exact ih first List.mem_cons_self hmem

theorem slash_notMem_of_mem_pathComponents {path component : Bytes}
    (h : component ∈ pathComponents path) : slash ∉ component := by
  rw [pathComponents] at h
  split_ifs at h
  · cases h
  · rcases List.mem_append.mp h with hinit | hlast
    · exact notMem_of_mem_splitOn path _ (List.dropLast_subset _ (List.mem_of_mem_filter hinit))
    · rw [List.mem_singleton.mp hlast]
      exact notMem_of_mem_splitOn path _ (List.getLast_mem _)

theorem dropLast_modifyHead (f : Bytes → Bytes) (parts : List Bytes) :
    (parts.modifyHead f).dropLast = parts.dropLast.modifyHead f := by
  rcases parts with _ | ⟨first, _ | ⟨second, rest⟩⟩ <;> rfl

/-- The parts in front of the last separator are those of the path without its suffix. -/
theorem dropLast_splitOn_append (path : Bytes) {suffix : Bytes} (hsuffix : slash ∉ suffix) :
    ((path ++ suffix).splitOn slash).dropLast = (path.splitOn slash).dropLast := by
  induction path with
  | nil => simp [List.splitOn_eq_singleton hsuffix]
  | cons byte path ih =>
    rw [List.cons_append, List.splitOn_cons_eq_if_modifyHead, List.splitOn_cons_eq_if_modifyHead]
    split_ifs
    · rw [List.dropLast_cons_of_ne_nil (List.splitOn_ne_nil _ _),
        List.dropLast_cons_of_ne_nil (List.splitOn_ne_nil _ _), ih]
    · rw [dropLast_modifyHead, dropLast_modifyHead, ih]

theorem pathComponents_append {path suffix : Bytes} (hpath : path ≠ []) (hsuffix : slash ∉ suffix) :
    (pathComponents (path ++ suffix)).dropLast = (pathComponents path).dropLast := by
  rw [pathComponents, pathComponents, if_neg hpath,
    if_neg (List.append_ne_nil_of_left_ne_nil hpath _), List.dropLast_concat, List.dropLast_concat,
    dropLast_splitOn_append path hsuffix]

/-! ### File systems -/

/-- What a system call reports when it fails. -/
inductive ErrorNumber
  | noSuchFile
  | notDirectory
  | tooManyLinks
  | other (message : Bytes)
  deriving DecidableEq

/-- A regular file, with the identity and the size that its status reports. -/
structure RegularFile where
  device : ℕ
  inode : ℕ
  size : ℤ
  contents : Bytes
  deriving DecidableEq

/-- A directory entry. Devices, pipes and sockets are special. -/
inductive FileEntry
  | directory
  | regular (file : RegularFile)
  | symlink (target : Bytes)
  | special
  deriving DecidableEq

/-- The entries of a machine. Only directories have entries below them; the listing of a directory
visits everything below it that is reached without a symbolic link, in some order. -/
structure FileSystem where
  entry : List Bytes → Option FileEntry
  root : entry [] = some .directory
  isName : ∀ path e, entry path = some e → ∀ c ∈ path, IsName c
  parent : ∀ path name e, entry (path ++ [name]) = some e → entry path = some .directory
  listing : List Bytes → List (List Bytes)
  mem_listing : ∀ directory rest,
    rest ∈ listing directory ↔ rest ≠ [] ∧ ∃ e, entry (directory ++ rest) = some e

namespace FileSystem

/-- Resolution of the components that are left, from a path that is already resolved. What is
behind a symbolic link is left to `follow`. -/
def walk (fs : FileSystem) (follow : List Bytes → List Bytes → Except ErrorNumber (List Bytes)) :
    List Bytes → List Bytes → Except ErrorNumber (List Bytes)
  | current, [] => .ok current
  | current, component :: rest =>
    if fs.entry current ≠ some .directory then .error .notDirectory
    else if component = [] ∨ component = [dot] then fs.walk follow current rest
    else if component = [dot, dot] then fs.walk follow current.dropLast rest
    else
      match fs.entry (current ++ [component]) with
      | none => .error .noSuchFile
      | some (.symlink target) =>
        follow (if target.head? = some slash then [] else current)
          (pathComponents (target.dropWhile (· = slash)) ++ rest)
      | some _ => fs.walk follow (current ++ [component]) rest

/-- Resolution that follows at most `links` symbolic links. -/
def follow (fs : FileSystem) : ℕ → List Bytes → List Bytes → Except ErrorNumber (List Bytes)
  | 0 => fs.walk fun _ _ => .error .tooManyLinks
  | links + 1 => fs.walk (fs.follow links)

/-- Resolution of a path from a directory. -/
def resolve (fs : FileSystem) (start components : List Bytes) : Except ErrorNumber (List Bytes) :=
  fs.follow 40 start components

variable {fs : FileSystem} {follow : List Bytes → List Bytes → Except ErrorNumber (List Bytes)}

/-- Everything above an entry is a directory. -/
theorem entry_of_prefix {path rest : List Bytes} {e : FileEntry}
    (h : fs.entry (path ++ rest) = some e) (hrest : rest ≠ []) :
    fs.entry path = some .directory := by
  induction rest using List.reverseRecOn generalizing e with
  | nil => exact absurd rfl hrest
  | append_singleton rest name ih =>
    rw [← List.append_assoc] at h
    have hparent := fs.parent _ _ _ h
    rcases rest with _ | ⟨first, rest⟩
    · rwa [List.append_nil] at hparent
    · exact ih hparent (List.cons_ne_nil _ _)

/-- The walk along directories. -/
theorem walk_directories {path directories rest : List Bytes}
    (h : fs.entry (path ++ directories) = some .directory) :
    fs.walk follow path (directories ++ rest) = fs.walk follow (path ++ directories) rest := by
  induction directories generalizing path with
  | nil => rw [List.nil_append, List.append_nil]
  | cons name directories ih =>
    have hpath := entry_of_prefix h (List.cons_ne_nil _ _)
    have hname : IsName name := fs.isName _ _ h name (by simp)
    rw [List.append_cons] at h
    have hnext : fs.entry (path ++ [name]) = some .directory := by
      rcases directories with _ | ⟨next, directories⟩
      · rwa [List.append_nil] at h
      · exact entry_of_prefix h (List.cons_ne_nil _ _)
    rw [List.cons_append, walk, if_neg (not_not.mpr hpath),
      if_neg (not_or.mpr ⟨hname.1, hname.2.1⟩), if_neg hname.2.2.1, hnext]
    exact (ih h).trans (by rw [← List.append_cons])

/-- There is no symbolic link below a directory. -/
def NoLink (fs : FileSystem) (directory : List Bytes) : Prop :=
  ∀ rest target, fs.entry (directory ++ rest) ≠ some (.symlink target)

theorem walk_of_noLink {directory : List Bytes} (hlink : fs.NoLink directory)
    {names rest result : List Bytes} (hnames : ∀ c ∈ names, IsName c)
    (h : fs.walk follow (directory ++ rest) names = .ok result) :
    result = directory ++ rest ++ names := by
  induction names generalizing rest with
  | nil =>
    cases h
    rw [List.append_nil]
  | cons name names ih =>
    have hname := hnames name List.mem_cons_self
    rw [walk, if_neg (not_or.mpr ⟨hname.1, hname.2.1⟩), if_neg hname.2.2.1] at h
    split_ifs at h
    split at h
    · cases h
    · rename_i target hentry
      rw [List.append_assoc] at hentry
      exact absurd hentry (hlink _ target)
    · rw [List.append_assoc] at h
      have hresult := ih (fun c hc => hnames c (List.mem_cons_of_mem _ hc)) h
      rw [hresult]
      simp only [List.append_assoc, List.cons_append, List.nil_append]

/-- Below a directory without symbolic links, a path of names resolves to itself. -/
theorem resolve_of_noLink {directory names result : List Bytes}
    (hdirectory : fs.entry directory = some .directory) (hlink : fs.NoLink directory)
    (hnames : ∀ c ∈ names, IsName c)
    (h : fs.resolve [] (directory ++ names) = .ok result) : result = directory ++ names := by
  rw [resolve, FileSystem.follow, walk_directories (by rwa [List.nil_append]), List.nil_append] at h
  rw [← List.append_nil directory] at h
  have hresult := walk_of_noLink hlink hnames h
  rwa [List.append_nil] at hresult

/-! ### File systems with finitely many entries -/

/-- A list of entries in which every entry has a name and lies in a directory of the list. -/
def Closed (entries : List (List Bytes × FileEntry)) : Prop :=
  ∀ item ∈ entries, item.1 ≠ [] ∧ (∀ c ∈ item.1, IsName c) ∧
    (item.1.dropLast = [] ∨ entries.lookup item.1.dropLast = some .directory)

instance (entries : List (List Bytes × FileEntry)) : Decidable (Closed entries) := by
  unfold Closed
  infer_instance

theorem mem_of_lookup_eq_some {entries : List (List Bytes × FileEntry)} {path : List Bytes}
    {e : FileEntry} (h : entries.lookup path = some e) : (path, e) ∈ entries := by
  obtain ⟨before, after, rfl, -⟩ := List.lookup_eq_some_iff.mp h
  simp

/-- The file system with these entries. -/
def ofEntries (entries : List (List Bytes × FileEntry)) (hclosed : Closed entries) :
    FileSystem where
  entry path := if path = [] then some .directory else entries.lookup path
  root := rfl
  isName path e h c hc := by
    split_ifs at h with hpath
    · rw [hpath] at hc
      cases hc
    · exact (hclosed _ (mem_of_lookup_eq_some h)).2.1 c hc
  parent path name e h := by
    rw [if_neg (List.concat_ne_nil _ _)] at h
    have hparent := (hclosed _ (mem_of_lookup_eq_some h)).2.2
    rw [List.dropLast_concat] at hparent
    split_ifs with hpath
    · rfl
    · exact hparent.resolve_left hpath
  listing directory :=
    (entries.filter fun item => directory <+: item.1 ∧ directory ≠ item.1).map fun item =>
      item.1.drop directory.length
  mem_listing directory rest := by
    rw [List.mem_map]
    constructor
    · rintro ⟨item, hitem, rfl⟩
      rw [List.mem_filter, decide_eq_true_iff] at hitem
      obtain ⟨hmem, ⟨below, hbelow⟩, hne⟩ := hitem
      rw [← hbelow, List.drop_left]
      refine ⟨fun hnil => hne (by rw [← hbelow, hnil, List.append_nil]), ?_⟩
      rw [hbelow, if_neg (hclosed _ hmem).1]
      rcases hlookup : entries.lookup item.1 with _ | e
      · exact absurd hmem fun hmem => by
          have := List.lookup_eq_none_iff.mp hlookup item hmem
          simp at this
      · exact ⟨e, rfl⟩
    · rintro ⟨hrest, e, hentry⟩
      rw [if_neg (List.append_ne_nil_of_right_ne_nil _ hrest)] at hentry
      refine ⟨(directory ++ rest, e), ?_, List.drop_left⟩
      rw [List.mem_filter, decide_eq_true_iff]
      exact ⟨mem_of_lookup_eq_some hentry, List.prefix_append _ _, by simpa using hrest⟩

end FileSystem

end MagpieTts.Library
