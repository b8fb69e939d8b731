import BoardConfig.FileSystem.Entries
import BoardConfig.NameOrder

/-! A file system as a value: files and directories by location, and a working directory. -/

namespace BoardConfig

/-- Why the operating system refuses an operation. -/
inductive OsError
  /-- Some entry of the path does not exist. -/
  | notFound
  /-- Some entry of the path is a file where a directory is needed. -/
  | notADirectory
  /-- The entry is a directory where a file is needed. -/
  | isADirectory
  /-- The entry exists where none may be. -/
  | alreadyExists
  /-- The entry cannot be replaced. -/
  | busy
  /-- The path, or the name of some entry on it, has too many bytes. -/
  | tooLong
  /-- The path holds a zero character. -/
  | invalidPath
  /-- The last step of the path names no entry. -/
  | noName
  | notText
  deriving DecidableEq, Repr

/-- The wording of a refusal. -/
def OsError.message : OsError → String
  | .notFound => "No such file or directory (os error 2)"
  | .notADirectory => "Not a directory (os error 20)"
  | .isADirectory => "Is a directory (os error 21)"
  | .alreadyExists => "File exists (os error 17)"
  | .busy => "Device or resource busy (os error 16)"
  | .tooLong => "File name too long (os error 36)"
  | .invalidPath => "file name contained an unexpected NUL byte"
  | .noName => "Invalid argument (os error 22)"
  | .notText => "stream did not contain valid UTF-8"

/-- Files and directories by location, with the directory that relative paths start from. -/
structure FileSystem where
  /-- The entries below the root, which is always a directory. -/
  entries : List (Location × Entry)
  /-- Each location has one entry. -/
  distinct : (entries.map (·.1)).Nodup
  /-- Each entry stands in a directory. -/
  rooted : ∀ entry ∈ entries, StandsIn entries entry.1
  cwd : Location

namespace FileSystem

/-- A file system without entries. -/
def empty : FileSystem :=
  { entries := [], distinct := List.nodup_nil, rooted := by simp, cwd := [] }

/-- What stands at a location. -/
def entryAt? (fs : FileSystem) : Location → Option Entry
  | [] => some .directory
  | location => findAt location fs.entries

/-- The bytes of the file at a location. -/
def contents? (fs : FileSystem) (location : Location) : Option ByteArray :=
  match fs.entryAt? location with
  | some (.file contents) => some contents
  | _ => none

/-- The names in a directory. -/
def namesIn (fs : FileSystem) (directory : Location) : List Name :=
  fs.entries.filterMap fun
    | (name :: above, _) => if above = directory then some name else none
    | ([], _) => none

/-- The name of an entry is among the names in its directory. -/
theorem mem_namesIn {fs : FileSystem} {name : Name} {directory : Location}
    (member : name :: directory ∈ fs.entries.map (·.1)) : name ∈ fs.namesIn directory := by
  -- The location ends in the directory, so its name is kept.
  obtain ⟨⟨location, entry⟩, among, same⟩ := List.mem_map.1 member
  cases same
  exact List.mem_filterMap.2 ⟨_, among, by simp⟩

/-- The file system with only those entries that pass a test, as do the directories around them. -/
def keep (fs : FileSystem) (test : Location → Bool)
    (closed : ∀ name above, name :: above ∈ fs.entries.map (·.1) → test (name :: above) →
      above = [] ∨ test above) : FileSystem :=
  { fs with
    entries := fs.entries.filter (test ·.1)
    -- A selection of entries has no more locations than before.
    distinct := (List.filter_sublist.map Prod.fst).nodup fs.distinct
    -- The directory around an entry that is kept passes the test as well.
    rooted := by
      rintro ⟨location, entry⟩ member
      obtain ⟨old, passes⟩ := List.mem_filter.1 member
      exact standsIn_filter (fs.rooted _ old) fun name above same =>
        closed name above (same ▸ List.mem_map_of_mem old) (same ▸ passes) }

/-- The file system without the entry at a location, unless that is a directory with entries. -/
def erase (fs : FileSystem) (location : Location) : FileSystem :=
  if isEmpty : fs.namesIn location = [] then
    fs.keep (· ≠ location) (by
      intro name above member _
      refine .inr (decide_eq_true ?_)
      rintro rfl
      -- An entry in the location would be among the names in it.
      have named := mem_namesIn member
      simp [isEmpty] at named)
  else fs

/-- The file system without all that stands below a location. -/
def eraseBelow (fs : FileSystem) (location : Location) : FileSystem :=
  fs.keep (fun other => other = location ∨ ¬ location <:+ other) (by
    intro name above _ passes
    refine .inr (decide_eq_true ?_)
    rcases of_decide_eq_true passes with same | outside
    · -- Above the location itself nothing lies below it.
      refine .inr fun below => ?_
      have longer := below.length_le
      rw [← same, List.length_cons] at longer
      omega
    · exact .inr fun below => outside (below.trans (List.suffix_cons name above)))

/-- Whether an entry may take a place: it stands in a directory, and no file takes a directory's place. -/
def admits (fs : FileSystem) (location : Location) (entry : Entry) : Bool :=
  match location with
  | [] => false
  | _ :: above =>
    fs.entryAt? above = some .directory ∧
      (fs.entryAt? location = some .directory → entry = .directory)

/-- An entry that may take a place stands in a directory there. -/
theorem standsIn_of_admits {fs : FileSystem} {location : Location} {entry : Entry}
    (admitted : fs.admits location entry) :
    StandsIn ((location, entry) :: fs.entries.filter (·.1 ≠ location)) location := by
  -- Admission says that the place above is a directory, which is the root or an entry.
  cases location with
  | nil => simp [admits] at admitted
  | cons name above =>
    have around : fs.entryAt? above = some .directory := (of_decide_eq_true admitted).1
    cases above with
    | nil => exact .inl rfl
    | cons outer rest =>
      have kept : (outer :: rest, Entry.directory) ∈ fs.entries := mem_of_findAt around
      exact .inr (List.mem_cons_of_mem _ (List.mem_filter.2 ⟨kept, by simp⟩))

/-- An entry that may take a directory's place is a directory. -/
theorem eq_directory_of_admits {fs : FileSystem} {location : Location} {entry : Entry}
    (admitted : fs.admits location entry) (there : (location, Entry.directory) ∈ fs.entries) :
    entry = .directory := by
  -- Only a named place admits anything; there, the check compares with what already stands.
  cases location with
  | nil => simp [admits] at admitted
  | cons name above => exact (of_decide_eq_true admitted).2 (findAt_of_mem fs.distinct there)

/-- The file system with an entry at a location, in place of any earlier one, if it may take the place. -/
def put (fs : FileSystem) (location : Location) (entry : Entry) : FileSystem :=
  if admitted : fs.admits location entry then
    { fs with
      entries := (location, entry) :: fs.entries.filter (·.1 ≠ location)
      distinct := by
        refine List.nodup_cons.2 ⟨by simp, ?_⟩
        exact (List.filter_sublist.map Prod.fst).nodup fs.distinct
      rooted := by
        rintro ⟨other, kept⟩ member
        rcases List.mem_cons.1 member with new | old
        · cases new
          exact standsIn_of_admits admitted
        · exact standsIn_put (eq_directory_of_admits admitted)
            (fs.rooted _ (List.mem_filter.1 old).1) }
  else fs

/-- The locations of all files. -/
def files (fs : FileSystem) : List Location :=
  fs.entries.filterMap fun
    | (location, .file _) => some location
    | (_, .directory) => none

/-- The paths below a directory from there on, in byte order, where directories end in a slash. -/
def tree (fs : FileSystem) (directory : Location) : List String :=
  sortNames (fs.entries.filterMap fun (location, entry) =>
    if directory <:+ location ∧ directory ≠ location then
      let names := (location.take (location.length - directory.length)).reverse
      let text := "/".intercalate (names.map (·.text))
      some (match entry with
        | .file _ => text
        | .directory => text ++ "/")
    else none)

end FileSystem

end BoardConfig
