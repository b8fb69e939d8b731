import BoardConfig.Proofs.FileSystem.AlikeUpdate
import BoardConfig.Proofs.FileSystem.Canonical
import BoardConfig.Proofs.Path.Ancestors

/-! A file system seen from a working directory, which nothing that is reached by absolute paths depends on. -/

namespace BoardConfig

open FileSystem

namespace FileSystem

/-- A file system as it is seen from a working directory. -/
def within (fs : FileSystem) (cwd : Location) : FileSystem :=
  { fs with cwd }

variable {fs : FileSystem} {cwd : Location} {path directory : Path}

/-- Only the last standpoint counts. -/
@[simp]
theorem within_within (fs : FileSystem) (cwd other : Location) :
    (fs.within cwd).within other = fs.within other := rfl

/-- What stands where is seen alike. -/
@[simp]
theorem entryAt?_within (fs : FileSystem) (cwd location : Location) :
    (fs.within cwd).entryAt? location = fs.entryAt? location :=
  entryAt?_cwd fs cwd location

/-- So are the names in a directory. -/
@[simp]
theorem namesIn_within (fs : FileSystem) (cwd location : Location) :
    (fs.within cwd).namesIn location = fs.namesIn location := rfl

/-- So is what stands under a name. -/
@[simp]
theorem lookUp_within (fs : FileSystem) (cwd : Location) (name : Name) (location : Location) :
    (fs.within cwd).lookUp name location = fs.lookUp name location := by
  -- Names are looked up among the entries.
  simp only [lookUp, entryAt?_within]

/-- Putting an entry keeps the standpoint. -/
@[simp]
theorem put_within (fs : FileSystem) (cwd location : Location) (entry : Entry) :
    (fs.within cwd).put location entry = (fs.put location entry).within cwd := by
  -- What may be put is decided by the entries, and the working directory is none of them.
  have admitted : (fs.within cwd).admits location entry = fs.admits location entry := by
    simp only [admits, entryAt?_within]
  by_cases may : fs.admits location entry
  · rw [put, put, dif_pos may, dif_pos (admitted.trans may)]
    rfl
  · rw [put, put, dif_neg may, dif_neg (by rwa [admitted])]

/-- Removing an entry keeps the standpoint. -/
@[simp]
theorem erase_within (fs : FileSystem) (cwd location : Location) :
    (fs.within cwd).erase location = (fs.erase location).within cwd := by
  -- What may be erased is decided by the names below it.
  by_cases isEmpty : fs.namesIn location = []
  · rw [erase, erase, dif_pos isEmpty, dif_pos ((namesIn_within ..).trans isEmpty)]
    rfl
  · rw [erase, erase, dif_neg isEmpty, dif_neg (by rwa [namesIn_within])]

/-- Steps lead to the same place from any working directory. -/
@[simp]
theorem walk_within (fs : FileSystem) (cwd start : Location) (steps : List Step) :
    (fs.within cwd).walk start steps = fs.walk start steps :=
  walk_cwd fs cwd start steps

/-- Growth is seen from every working directory. -/
theorem Grows.within {written : List Location} {before after : FileSystem}
    (grows : Grows written before after) (cwd : Location) :
    Grows written (before.within cwd) (after.within cwd) where
  cwd := rfl
  elsewhere place outside := by
    -- The same stands everywhere.
    simp only [entryAt?_within]
    exact grows.elsewhere place outside
  filed place among := by
    simp only [entryAt?_within]
    exact grows.filed place among

/-- An absolute path starts at the root, wherever it is read. -/
theorem origin_within (absolute : path.isAbsolute) : (fs.within cwd).origin path = fs.origin path := by
  -- The working directory is asked for relative paths only.
  unfold origin
  simp only [absolute, if_true]

/-- What an absolute path leads to does not depend on the working directory. -/
theorem locate_within (absolute : path.isAbsolute) : (fs.within cwd).locate path = fs.locate path := by
  -- An absolute path starts at the root and is walked among the entries.
  unfold locate
  simp only [origin_within absolute, walk_within]

/-- Nor does the file that it leads to. -/
theorem locateFile_within (absolute : path.isAbsolute) :
    (fs.within cwd).locateFile path = fs.locateFile path := by
  simp only [locateFile, locate_within absolute, entryAt?_within]

/-- Nor does what tells the path from others. -/
theorem identity_within (absolute : path.isAbsolute) :
    (fs.within cwd).identity path = fs.identity path := by
  -- The canonical path is that of the place, and an absolute path needs no directory before it.
  simp only [identity, canonical?, reaches, locate_within absolute, absolute, if_true]

/-- Nor does the text of the file. -/
theorem readText_within (absolute : path.isAbsolute) :
    (fs.within cwd).readText path = fs.readText path := by
  simp only [readText, read, locateFile_within absolute]

/-- Nor does whether there is one. -/
theorem isFile_within (absolute : path.isAbsolute) :
    (fs.within cwd).isFile path = fs.isFile path := by
  simp only [isFile, locateFile_within absolute]

/-- Nor does its comparison with a text. -/
theorem isUpToDate_within (absolute : path.isAbsolute) (text : String) :
    (fs.within cwd).isUpToDate path text = fs.isUpToDate path text := by
  simp only [isUpToDate, read, locateFile_within absolute]

/-- Nor does the directory that the path leads to. -/
theorem directory?_within (absolute : path.isAbsolute) :
    (fs.within cwd).directory? path = fs.directory? path := by
  simp only [FileSystem.directory?, locate_within absolute, entryAt?_within]

/-- Nor does its last step. -/
theorem target_within (absolute : path.isAbsolute) : (fs.within cwd).target path = fs.target path := by
  simp only [FileSystem.target, origin_within absolute, walk_within]

/-- A directory with an absolute path is created alike from every working directory. -/
theorem createDirectory_within (absolute : path.isAbsolute) :
    (fs.within cwd).createDirectory path = (fs.createDirectory path).map (·.within cwd) := by
  -- The last step is the same, and so is what stands there.
  simp only [createDirectory, target_within absolute, lookUp_within, put_within]
  -- Each outcome is the same, and what is created is seen from the working directory.
  cases fs.target path with
  | error e => rfl
  | ok found =>
    cases found with
    | none => rfl
    | some target =>
      obtain ⟨place, last, slash⟩ := target
      cases last with
      | stay => rfl
      | up => rfl
      | enter name =>
        simp only
        cases fs.lookUp name place with
        | error e => rfl
        | ok there => cases there <;> rfl

/-- Directories are created alike along absolute paths. -/
theorem createAlong_within {paths : List Path} (absolute : ∀ path ∈ paths, path.isAbsolute)
    (fs : FileSystem) (cwd : Location) :
    createAlong paths (fs.within cwd) =
      ((createAlong paths fs).1, (createAlong paths fs).2.within cwd) := by
  -- Induction on the paths, from the directory up to those above it.
  induction paths generalizing fs with
  | nil => rfl
  | cons path above ih =>
    have first := absolute path List.mem_cons_self
    have others := ih fun other among => absolute other (List.mem_cons_of_mem _ among)
    -- A failure leaves it to whether the directory is there, which is seen alike.
    have fails (fs : FileSystem) (e : OsError) :
        (if ((fs.within cwd).directory? path).isSome then
          ((.ok (), fs.within cwd) : Except OsError Unit × FileSystem)
        else (.error e, fs.within cwd)) =
        ((if (fs.directory? path).isSome then ((.ok (), fs) : Except OsError Unit × FileSystem)
          else (.error e, fs)).1,
        (if (fs.directory? path).isSome then ((.ok (), fs) : Except OsError Unit × FileSystem)
          else (.error e, fs)).2.within cwd) := by
      rw [directory?_within first]
      split <;> rfl
    simp only [createAlong, if_neg (Path.filled_of_isAbsolute first), createDirectory_within first,
      others]
    cases fs.createDirectory path with
    | ok made => rfl
    | error e =>
      cases e with
      | notFound =>
        simp only [Except.map]
        obtain ⟨result, after⟩ := createAlong above fs
        cases result with
        | error e => rfl
        | ok _ =>
          -- The directories above are there now, and this one is tried again.
          simp only [createDirectory_within first]
          cases after.createDirectory path with
          | ok made => rfl
          | error e => exact fails after e
      | _ => exact fails fs _

/-- A directory with an absolute path is created alike with those above it. -/
theorem createDirectories_within (absolute : path.isAbsolute) :
    (fs.within cwd).createDirectories path =
      ((fs.createDirectories path).1, (fs.createDirectories path).2.within cwd) := by
  -- The directories to be made are ancestors, which are absolute too.
  have all : ∀ above ∈ path.ancestors, above.isAbsolute := by
    intro above among
    exact Path.isAbsolute_of_mem_ancestors absolute among
  exact createAlong_within all fs cwd

/-- A file is moved alike onto an absolute path. -/
theorem moveOnto_within (absolute : path.isAbsolute) (source : Location) (contents : ByteArray) :
    (fs.within cwd).moveOnto source contents path =
      (fs.moveOnto source contents path).map (·.within cwd) := by
  -- The target is the same, and so is what stands there.
  simp only [moveOnto, target_within absolute, lookUp_within, erase_within, put_within]
  cases fs.target path with
  | error e => rfl
  | ok found =>
    cases found with
    | none => rfl
    | some target =>
      obtain ⟨place, last, slash⟩ := target
      cases last with
      | stay => rfl
      | up => rfl
      | enter name =>
        simp only
        cases fs.lookUp name place with
        | error e => rfl
        | ok there =>
          -- The file takes the place unless a directory is asked for or there.
          simp only
          split_ifs <;> rfl

/-- How deep an absolute directory lies does not depend on the working directory. -/
theorem isTooDeep_within (absolute : directory.isAbsolute) :
    (fs.within cwd).isTooDeep directory = fs.isTooDeep directory := by
  simp only [isTooDeep, Path.join_of_isAbsolute _ absolute]

/-- A file is replaced alike if its path and the directory are absolute. -/
theorem replace_within (directoryAbsolute : directory.isAbsolute) (absolute : path.isAbsolute)
    (contents : ByteArray) :
    (fs.within cwd).replace directory path contents =
      ((fs.replace directory path contents).1,
        (fs.replace directory path contents).2.within cwd) := by
  -- The directory, its names and the target of the move are the same.
  simp only [replace, directory?_within directoryAbsolute, isTooDeep_within directoryAbsolute,
    namesIn_within, put_within, moveOnto_within absolute, erase_within]
  cases fs.directory? directory with
  | none => rfl
  | some location =>
    simp only
    split
    · rfl
    · -- The temporary file is moved, or removed again.
      cases (fs.put (freshName (fs.namesIn location) :: location) (.file contents)).moveOnto
        (freshName (fs.namesIn location) :: location) contents path <;> rfl

/-- A path leads to a file exactly if a regular file stands where it leads. -/
theorem isFile_iff :
    fs.isFile path ↔
      ∃ location contents, fs.locate path = .ok location ∧
        fs.entryAt? location = some (.file contents) := by
  -- The path is located, and the entry tells a file from the rest.
  unfold isFile locateFile
  cases fs.locate path with
  | error e => simp
  | ok location =>
    cases stands : fs.entryAt? location with
    | none => simp [stands]
    | some entry => cases entry <;> simp [stands]

/-- An absolute path without a parent leads to no file, and not for want of one. -/
theorem locateFile_of_top (absolute : path.isAbsolute) (top : path.parent? = none) :
    ∃ e, fs.locateFile path = .error e ∧ e ≠ .notFound := by
  -- Only the root is absolute without a parent, and a directory stands there.
  obtain ⟨first, -⟩ := Path.isAbsolute_iff.1 absolute
  obtain ⟨rest, pieces⟩ : ∃ rest, path.pieces = "" :: rest := ⟨_, List.eq_cons_of_mem_head? first⟩
  -- The path is the root, as all of its pieces are idle.
  have idles : ∀ piece ∈ path.pieces, isIdle piece := by
    have bare : dropIdleEnd rest = [] := by
      rw [Path.parent?, pieces] at top
      by_contra busy
      simp at top
    intro piece among
    rw [pieces] at among
    rcases List.mem_cons.1 among with rfl | behind
    · rfl
    · exact isIdle_of_dropIdleEnd_eq_nil bare piece behind
  have stays : fs.walk [] (path.pieces.map Step.ofPiece) = .ok [] :=
    walk_idle fs.entryAt?_root idles
  unfold locateFile locate origin
  simp only [if_neg (Path.filled_of_isAbsolute absolute), absolute, if_true]
  split_ifs
  · exact ⟨.invalidPath, rfl, by simp⟩
  · exact ⟨.tooLong, rfl, by simp⟩
  · exact ⟨.isADirectory, by simp [stays], by simp⟩

/-- An absolute path that leads to a file has an absolute parent. -/
theorem exists_parent?_of_locateFile {found : Location × ByteArray} (absolute : path.isAbsolute)
    (leads : fs.locateFile path = .ok found) :
    ∃ above, path.parent? = some above ∧ above.isAbsolute := by
  -- Without a parent the path would be the root, which is no file.
  cases parent : path.parent? with
  | none =>
    obtain ⟨e, refused, -⟩ := locateFile_of_top absolute parent
    cases refused.symm.trans leads
  | some above => exact ⟨above, rfl, Path.isAbsolute_of_parent? absolute parent⟩

/-- A file with an absolute path is written alike, if it differs, from every working directory. -/
theorem writeIfChanged_within (absolute : path.isAbsolute) (text : String) :
    (fs.within cwd).writeIfChanged path text =
      ((fs.writeIfChanged path text).1, (fs.writeIfChanged path text).2.within cwd) := by
  -- Comparing, making directories and replacing are each alike for absolute paths.
  simp only [writeIfChanged, isUpToDate_within absolute]
  cases parent : path.parent? with
  | none =>
    -- What the root is compared with is not told, so nothing is written.
    obtain ⟨e, refused, found⟩ : ∃ e, fs.locateFile path = .error e ∧ e ≠ .notFound :=
      locateFile_of_top absolute parent
    have untold : fs.isUpToDate path text = .error e := by
      simp only [isUpToDate, read, refused]
    rw [untold]
  | some above =>
    have absoluteAbove := Path.isAbsolute_of_parent? absolute parent
    rw [directoryOf_eq_parent parent absoluteAbove]
    cases fs.isUpToDate path text with
    | error e => rfl
    | ok same =>
      cases same with
      | true => rfl
      | false =>
        simp only [createDirectories_within absoluteAbove]
        obtain ⟨result, made⟩ := fs.createDirectories above
        cases result with
        | error e => rfl
        | ok _ =>
          simp only [replace_within absoluteAbove absolute]
          obtain ⟨result, after⟩ := made.replace above path text.toUTF8
          cases result <;> rfl

end FileSystem

end BoardConfig
