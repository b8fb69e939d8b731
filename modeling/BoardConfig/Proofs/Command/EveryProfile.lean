import BoardConfig.Proofs.Command.Selection
import BoardConfig.Proofs.Profile.Discovery

/-! Checking every profile of a directory: what each check depends on, and what is told in the end. -/

namespace BoardConfig

open FileSystem

namespace Blueprint

variable {blueprint : Blueprint} {fs other : FileSystem} {directory : Path} {name : String}
  {result : Except GenerationError Board}

/-- What is prepared depends on no other files than those at the paths that are read. -/
theorem prepare_of_kept {reference : ProfileReference} (same : SameDirectories fs other)
    (kept : ∀ path, fs.Reads directory (reference.resolve directory ⟨""⟩) path →
      KeptAt fs other path) :
    blueprint.prepare other directory reference = blueprint.prepare fs directory reference := by
  -- Only loading the profile reads files.
  simp only [prepare, Profile.load_of_kept same blueprint.schema kept]

/-- A profile is prepared alike by the path of its file and by its name. -/
theorem prepare_bare (blueprint : Blueprint) (fs : FileSystem) (directory : Path) (name : String) :
    blueprint.prepare fs directory (.file (directory.join ⟨name ++ profileSuffix⟩)) =
      blueprint.prepare fs directory (.bare name) := by
  -- The file is loaded by its path in either way, and it is known by that path alone.
  simp only [prepare, Profile.load_bare]

/-- The results are those of the names of the directory's profiles. -/
theorem mem_validateAll_iff :
    (name, result) ∈ blueprint.validateAll fs directory ↔
      fs.HasEntry directory (name ++ profileSuffix) ∧
        result = blueprint.prepare fs directory (.bare name) := by
  -- Each result belongs to a profile that was discovered, prepared by the path of its file.
  unfold validateAll
  rw [List.mem_map]
  constructor
  · intro listed
    obtain ⟨⟨found, path⟩, member, same⟩ := listed
    cases same
    obtain ⟨has, rfl⟩ := Profile.mem_discover_iff.1 member
    exact ⟨has, prepare_bare ..⟩
  · intro both
    obtain ⟨has, rfl⟩ := both
    exact ⟨_, Profile.mem_discover_iff.2 ⟨has, rfl⟩, Prod.ext rfl (prepare_bare ..)⟩

/-- The names are told in strictly increasing order. -/
theorem validateAll_sorted (blueprint : Blueprint) (fs : FileSystem) (directory : Path) :
    ((blueprint.validateAll fs directory).map (·.1)).Pairwise (· < ·) := by
  -- Discovery collects the profiles in a map, which keeps its names in order.
  unfold validateAll
  rw [List.map_map, List.pairwise_map]
  exact (Profile.discover fs directory).sorted

/-- A name is told exactly if the directory has the file of a profile of that name. -/
theorem mem_names_validateAll_iff :
    name ∈ (blueprint.validateAll fs directory).map (·.1) ↔
      fs.HasEntry directory (name ++ profileSuffix) := by
  -- A name is told with one result, the one that preparing it gives.
  rw [List.mem_map]
  constructor
  · intro told
    obtain ⟨⟨_, result⟩, member, rfl⟩ := told
    exact (mem_validateAll_iff.1 member).1
  · intro has
    exact ⟨_, mem_validateAll_iff.2 ⟨has, rfl⟩, rfl⟩

/-- A result stays the same while the files stay that are read for it. -/
theorem mem_validateAll_of_kept (same : SameDirectories fs other)
    (kept : ∀ path, fs.Reads directory (directory.join ⟨name ++ profileSuffix⟩) path →
      KeptAt fs other path)
    (member : (name, result) ∈ blueprint.validateAll fs directory) :
    (name, result) ∈ blueprint.validateAll other directory := by
  obtain ⟨has, rfl⟩ := mem_validateAll_iff.1 member
  -- The profile's own file is the first that is read.
  have still := same.hasEntry (kept _ ⟨[], .start⟩) has
  exact mem_validateAll_iff.2 ⟨still, (prepare_of_kept same kept).symm⟩

/-- In which order the entries of a file system are told makes no difference. -/
theorem validateAll_congr (cwd : other.cwd = fs.cwd)
    (same : ∀ location, other.entryAt? location = fs.entryAt? location) :
    blueprint.validateAll other directory = blueprint.validateAll fs directory := by
  have alike := SameDirectories.of_entryAt? cwd same
  have kept (path : Path) : KeptAt fs other path := same _
  -- Both hold the same profiles, and maps that bind the same values are equal.
  have found : Profile.discover other directory = Profile.discover fs directory := by
    apply SortedMap.ext_get?
    intro name
    apply Option.ext
    intro path
    rw [← SortedMap.mem_entries_iff, ← SortedMap.mem_entries_iff, Profile.mem_discover_iff,
      Profile.mem_discover_iff]
    apply and_congr_left
    intro _
    exact ⟨alike.symm.hasEntry (alike.keptAt_symm (kept _)), alike.hasEntry (kept _)⟩
  -- The profiles found are the same, and so is what is read for each of them.
  unfold validateAll
  rw [found]
  apply List.map_congr_left
  intro entry _
  simp only [prepare_of_kept alike fun path _ => kept path]

end Blueprint

/-- Whether a line tells of a failure. -/
def tellsFailure (line : List Char) : Bool :=
  "FAIL ".toList.isPrefixOf line

/-- The lines of a text behind its first one. -/
def laterLines (text : String) : List (List Char) :=
  (runsBetween '\n' text.toList).tail

/-- The entry of a profile tells of a failure exactly if the profile is not valid. -/
theorem tellsFailure_validityLine (diagnostics : Toml.Diagnostics) (name : String)
    (result : Except GenerationError Board) :
    tellsFailure (validityLine diagnostics name result).toList = result.toOption.isNone := by
  -- The entries of valid profiles begin in another way.
  cases result with
  | ok board => simp [tellsFailure, validityLine, Except.toOption, toString, List.isPrefixOf_cons_cons]
  | error e => simp [tellsFailure, validityLine, Except.toOption, toString]

/-- Whether an entry tells of a failure is told on its first line, and its later lines may tell so too. -/
theorem countP_runsBetween (entry : String) :
    (runsBetween '\n' entry.toList).countP tellsFailure =
      (if tellsFailure entry.toList then 1 else 0) + (laterLines entry).countP tellsFailure := by
  -- What tells of a failure is a word without a line end.
  have first : tellsFailure (entry.toList.takeWhile (· ≠ '\n')) = tellsFailure entry.toList :=
    isPrefixOf_takeWhile (by decide) entry.toList
  rw [runsBetween_eq_cons, List.countP_cons, first, Nat.add_comm]
  rfl

/-- The lines of entries that each end are those of the entries, before an empty one. -/
theorem runsBetween_unlines (entries : List String) :
    runsBetween '\n' (unlines entries).toList = entries.flatMap (runsBetween '\n' ·.toList) ++ [[]] := by
  -- Induction on the entries, each of which ends before the next one begins.
  induction entries with
  | nil => rfl
  | cons entry rest ih =>
    -- The end of the first entry is a place to cut.
    have split : (unlines (entry :: rest)).toList = entry.toList ++ '\n' :: (unlines rest).toList := by
      simp [unlines, String.toList_join, List.flatMap_map]
    rw [split, runsBetween_append_separator, ih, List.flatMap_cons, List.append_assoc]

/-- As many lines tell of a failure as entries do, besides the later lines of entries. -/
theorem countP_unlines (entries : List String) :
    (runsBetween '\n' (unlines entries).toList).countP tellsFailure =
      entries.countP (tellsFailure ·.toList) + (entries.flatMap laterLines).countP tellsFailure := by
  -- The text behind the last line end is empty and tells nothing.
  have empty : [([] : List Char)].countP tellsFailure = 0 := rfl
  rw [runsBetween_unlines, List.countP_append, empty, Nat.add_zero]
  -- Each entry adds its first line and its later ones.
  induction entries with
  | nil => rfl
  | cons entry rest ih =>
    simp only [List.flatMap_cons, List.countP_append, List.countP_cons, countP_runsBetween, ih]
    omega

namespace Project

variable {fs : FileSystem} {project : Project}

/-- The number of profiles in the profiles directory that are not valid. -/
def failureCount (project : Project) (fs : FileSystem) : Nat :=
  (Blueprint.standard.validateAll fs project.profilesDirectory).countP
    fun (_, result) => result.toOption.isNone

/-- The entries that tell of the profiles in the profiles directory. -/
def profileEntries (project : Project) (fs : FileSystem) (diagnostics : Toml.Diagnostics) :
    List String :=
  (Blueprint.standard.validateAll fs project.profilesDirectory).map fun (name, result) =>
    validityLine diagnostics name result

/-- As many entries tell of a failure as there are profiles that are not valid. -/
theorem countP_profileEntries (project : Project) (fs : FileSystem) (diagnostics : Toml.Diagnostics) :
    (project.profileEntries fs diagnostics).countP (tellsFailure ·.toList) =
      project.failureCount fs := by
  -- An entry tells of a failure at its beginning exactly if its profile is not valid.
  rw [profileEntries, failureCount, List.countP_map]
  congr 1
  funext entry
  exact tellsFailure_validityLine diagnostics entry.1 entry.2

/-- Where there are profiles, their entries are shown, and those that are not valid are counted. -/
theorem validateAll_of_ne_nil
    (filled : Blueprint.standard.validateAll fs project.profilesDirectory ≠ []) :
    project.validateAll fs =
      { output := fun diagnostics => unlines (project.profileEntries fs diagnostics)
        failure :=
          if project.failureCount fs = 0 then none
          else some (.invalidProfiles (project.failureCount fs)
            (Blueprint.standard.validateAll fs project.profilesDirectory).length)
        fs } := by
  -- The other branch of the command is for a directory without profiles.
  obtain ⟨first, rest, results⟩ := List.exists_cons_of_ne_nil filled
  unfold profileEntries
  simp only [validateAll, failureCount, results]

/-- None of the profiles fails exactly if every profile can be prepared. -/
theorem failureCount_eq_zero_iff :
    project.failureCount fs = 0 ↔
      ∀ name, fs.HasEntry project.profilesDirectory (name ++ profileSuffix) →
        ∃ board, Blueprint.standard.prepare fs project.profilesDirectory (.bare name) = .ok board := by
  -- Nothing is counted exactly if each result, which is that of preparing its name, is a board.
  rw [failureCount, List.countP_eq_zero]
  constructor
  · intro valid name has
    have told := valid _ (Blueprint.mem_validateAll_iff.2 ⟨has, rfl⟩)
    -- An error would have been counted.
    cases prepared : Blueprint.standard.prepare fs project.profilesDirectory (.bare name) with
    | ok board => exact ⟨board, rfl⟩
    | error e => simp [prepared, Except.toOption] at told
  · intro valid entry member
    obtain ⟨name, result⟩ := entry
    obtain ⟨has, rfl⟩ := Blueprint.mem_validateAll_iff.1 member
    obtain ⟨board, prepared⟩ := valid name has
    simp [prepared, Except.toOption]

/-- Checking every profile succeeds exactly if there are profiles and each of them can be prepared. -/
theorem validateAll_failure_eq_none_iff :
    (project.validateAll fs).failure = none ↔
      Blueprint.standard.validateAll fs project.profilesDirectory ≠ [] ∧
        ∀ name, fs.HasEntry project.profilesDirectory (name ++ profileSuffix) →
          ∃ board,
            Blueprint.standard.prepare fs project.profilesDirectory (.bare name) = .ok board := by
  rw [← failureCount_eq_zero_iff]
  by_cases empty : Blueprint.standard.validateAll fs project.profilesDirectory = []
  · -- Without profiles the command fails.
    simp [validateAll, empty]
  · -- With profiles, the number of failures decides.
    rw [validateAll_of_ne_nil empty]
    simp [empty]

end Project

/-- The command checks the profiles of the project that it finds. -/
theorem Command.run_validateAll {fs : FileSystem} {project : Project}
    (found : Project.discover fs fs.cwd.path = .ok project) :
    Command.validateAll.run fs = project.validateAll fs := by
  simp only [Command.run, found]

/--
Checking every profile of a directory checks each of them on its own.

The names are those of the files with the suffix, in byte order, and each result is what preparing the
profile by its name gives. It depends on no other files than those at the paths that are read for it.
The command shows an entry for each of them, and fails with the number of entries that tell of a
failure. That many lines of its output tell so too, besides those lines of an entry that begin behind a
line end in a profile's name or in the text of an error.
-/
theorem validateAll_exact (fs : FileSystem) :
    (∀ (blueprint : Blueprint) (directory : Path),
      ((blueprint.validateAll fs directory).map (·.1)).Pairwise (· < ·) ∧
      (∀ name, name ∈ (blueprint.validateAll fs directory).map (·.1) ↔
        fs.HasEntry directory (name ++ ".toml")) ∧
      (fs.directory? directory = none → blueprint.validateAll fs directory = []) ∧
      -- The same entries give the same results in whatever order they are listed.
      (∀ other : FileSystem, other.cwd = fs.cwd →
        (∀ location, other.entryAt? location = fs.entryAt? location) →
        blueprint.validateAll other directory = blueprint.validateAll fs directory) ∧
      ∀ name result, (name, result) ∈ blueprint.validateAll fs directory →
        result = blueprint.prepare fs directory (.bare name) ∧
        (∀ board, result = .ok board →
          board.profile.source = directory.join ⟨name ++ ".toml"⟩) ∧
        -- All other files may change, appear or vanish.
        ∀ other, SameDirectories fs other →
          (∀ path, fs.Reads directory (directory.join ⟨name ++ ".toml"⟩) path →
            KeptAt fs other path) →
          (name, result) ∈ blueprint.validateAll other directory) ∧
    ∀ project, Project.discover fs fs.cwd.path = .ok project →
      ((Command.validateAll.run fs).failure = none ↔
        Blueprint.standard.validateAll fs project.profilesDirectory ≠ [] ∧
          ∀ name, fs.HasEntry project.profilesDirectory (name ++ ".toml") →
            ∃ board,
              Blueprint.standard.prepare fs project.profilesDirectory (.bare name) = .ok board) ∧
      (Blueprint.standard.validateAll fs project.profilesDirectory ≠ [] →
        (∀ e, (Command.validateAll.run fs).failure = some e →
          e = .invalidProfiles (project.failureCount fs)
            (Blueprint.standard.validateAll fs project.profilesDirectory).length) ∧
        ∀ diagnostics,
          (Command.validateAll.run fs).output diagnostics =
            unlines (project.profileEntries fs diagnostics) ∧
          (project.profileEntries fs diagnostics).countP (tellsFailure ·.toList) =
            project.failureCount fs ∧
          -- A name or the text of an error may take an entry to further lines.
          (runsBetween '\n' ((Command.validateAll.run fs).output diagnostics).toList).countP
              tellsFailure =
            project.failureCount fs +
              ((project.profileEntries fs diagnostics).flatMap laterLines).countP tellsFailure) := by
  -- Results first, for any directory; then the command, which shows those of its project.
  constructor
  · intro blueprint directory
    refine ⟨blueprint.validateAll_sorted fs directory, fun name => Blueprint.mem_names_validateAll_iff,
      ?_, fun other => Blueprint.validateAll_congr, ?_⟩
    · -- Without a directory there are no files to discover.
      intro absent
      simp only [Blueprint.validateAll, Profile.discover, absent, SortedMap.empty, List.map_nil]
    · -- A result is what preparing its name gives, of which all other facts are consequences.
      intro name result member
      have same := (Blueprint.mem_validateAll_iff.1 member).2
      refine ⟨same, ?_, fun other alike kept => Blueprint.mem_validateAll_of_kept alike kept member⟩
      intro board prepared
      obtain ⟨loaded, _⟩ := Blueprint.prepare_ok (same.symm.trans prepared)
      exact Profile.source_of_load loaded
  · -- The command shows the results of the project it finds, and counts among them.
    intro project found
    rw [Command.run_validateAll found]
    refine ⟨Project.validateAll_failure_eq_none_iff, ?_⟩
    intro filled
    rw [Project.validateAll_of_ne_nil filled]
    refine ⟨?_, fun diagnostics => ⟨rfl, ?_, ?_⟩⟩
    · -- There is one way to fail, by the number of failures.
      intro e failed
      split at failed
      · cases failed
      · cases failed
        rfl
    · exact Project.countP_profileEntries project fs diagnostics
    · rw [countP_unlines, Project.countP_profileEntries]

/-- The place of the sample project's manifest. -/
def manifestPlace : Location :=
  [⟨manifestName, by decide⟩]

/-- Without its manifest, the sample project has the directories that it had. -/
theorem sameDirectories_erase_manifest :
    SameDirectories projectFiles (projectFiles.erase manifestPlace) where
  cwd := cwd_erase projectFiles manifestPlace
  directory location := by
    -- What is erased is a file, so no directory comes or goes.
    have file : projectFiles.entryAt? manifestPlace ≠ some .directory := by decide
    rw [entryAt?_erase (by decide) (by decide)]
    split
    · rename_i there
      simp [there, file]
    · rfl

/-- The sample profile has no base, so that nothing is read besides its own file. -/
theorem keptAt_erase_manifest {path : Path}
    (reads : projectFiles.Reads ⟨"/"⟩ (Path.join ⟨"/"⟩ ⟨"board" ++ ".toml"⟩) path) :
    KeptAt projectFiles (projectFiles.erase manifestPlace) path := by
  obtain ⟨links, walk⟩ := reads
  have own : Path.join ⟨"/"⟩ ⟨"board" ++ ".toml"⟩ = ⟨"/board.toml"⟩ := by decide
  have located : projectFiles.locateFile ⟨"/board.toml"⟩ = .ok ([sampleName], sampleDocument.toUTF8) :=
    locateFile_projectFiles []
  -- The walk ends where it begins, at a file that is not the erased one.
  rw [own] at walk
  rw [walk.eq_start (by rw [FileSystem.read, located]), KeptAt, entryAt?_erase (by decide) (by decide)]
  exact if_neg (by decide)

/-- The manifest lies among the profiles of the sample project, but it is none. -/
theorem validateAll_projectFiles : ∃ board,
    Blueprint.standard.validateAll projectFiles ⟨"/"⟩ =
      [("board", .ok board), ("osqa", .error (.profile (.malformed ⟨"/osqa.toml"⟩ sampleManifest)))] := by
  -- The profile is rendered elsewhere, and the manifest has a table that no profile has.
  obtain ⟨⟨board, texts⟩, rendered, _⟩ := activeProject_rendered
  have prepared : Blueprint.standard.prepare projectFiles ⟨"/"⟩ (.bare "board") = .ok board :=
    (Blueprint.renderRequest_ok rendered).1
  -- The manifest is read as a profile, and is none.
  have refused : Blueprint.standard.prepare projectFiles ⟨"/"⟩ (.bare "osqa") =
      .error (.profile (.malformed ⟨"/osqa.toml"⟩ sampleManifest)) := by
    have located : projectFiles.locateFile ⟨"/osqa.toml"⟩ =
        .ok (manifestPlace, sampleManifest.toUTF8) := by
      unfold locateFile locate origin
      rfl
    have noProfile : ProfileFile.parse? sampleManifest = none := by
      have characters : sampleManifest.toList = _ := String.toList_ofList
      rw [ProfileFile.parse?, Toml.Table.parse?, characters]
      rfl
    have resolved : (ProfileReference.bare "osqa").resolve ⟨"/"⟩ ⟨""⟩ = ⟨"/osqa.toml"⟩ := by
      decide
    have walk : projectFiles.Walk ⟨"/"⟩ ((ProfileReference.bare "osqa").resolve ⟨"/"⟩ ⟨""⟩) []
        ⟨"/osqa.toml"⟩ := by
      rw [resolved]
      exact .start
    have stopped := Profile.load_of_stops_error Schema.standard walk (.malformed located noProfile)
    simp only [Blueprint.prepare, Blueprint.standard, stopped]
  -- The directory has two names with the suffix.
  have found : Profile.discover projectFiles ⟨"/"⟩ =
      .ofList [("board", Path.join ⟨"/"⟩ ⟨"board" ++ profileSuffix⟩),
        ("osqa", Path.join ⟨"/"⟩ ⟨"osqa" ++ profileSuffix⟩)] := by
    decide +kernel
  refine ⟨board, ?_⟩
  rw [Blueprint.validateAll, found, ← prepared, ← refused, ← Blueprint.prepare_bare,
    ← Blueprint.prepare_bare]
  rfl

/-- The entry of a file that is no profile ends in the reader's words. -/
theorem toList_validityLine_malformed (diagnostics : Toml.Diagnostics) (name : String) (path : Path)
    (document : String) :
    (validityLine diagnostics name (.error (.profile (.malformed path document)))).toList =
      ("FAIL " ++ name ++ ": " ++ (ProfileError.malformed path document).message ++ ": ").toList ++
        (diagnostics.profile document).toList := by
  simp only [validityLine, GenerationError.report, ProfileError.report, toString,
    String.toList_append, List.append_assoc]

/-- What a reader says of the sample project's manifest as a profile. -/
def manifestDiagnostics : Toml.Diagnostics where
  profile _ := "TOML parse error at line 1, column 2
  |
1 | [profile]
  |  ^^^^^^^
unknown field `profile`, expected one of `name`, `description`, `extends`, `parameters`
"
  manifest _ := ""

/-- The entry of the sample project's manifest. -/
def manifestEntry : String :=
  validityLine manifestDiagnostics "osqa" (.error (.profile (.malformed ⟨"/osqa.toml"⟩ sampleManifest)))

set_option maxRecDepth 2000 in
/-- That entry goes on for four lines and an empty one, none of which tells of a failure. -/
theorem laterLines_manifestEntry :
    (laterLines manifestEntry).length = 5 ∧ (laterLines manifestEntry).countP tellsFailure = 0 := by
  -- The reader's words are listed as characters, so that none of them is decoded from its bytes.
  have words : (manifestDiagnostics.profile sampleManifest).toList = _ := String.toList_ofList
  rw [laterLines, manifestEntry, toList_validityLine_malformed, words]
  decide

/-- The entries of the sample project's directory are the line of the valid profile and the manifest's. -/
theorem profileEntries_projectFiles :
    activeProject.profileEntries projectFiles manifestDiagnostics = ["ok   board", manifestEntry] := by
  obtain ⟨board, results⟩ := validateAll_projectFiles
  have directory : activeProject.profilesDirectory = ⟨"/"⟩ := by decide
  -- A valid profile's line has its name and nothing else.
  have valid : validityLine manifestDiagnostics "board" (.ok board) = "ok   board" := by
    simp [validityLine, toString]
  rw [Project.profileEntries, directory, results, ← valid]
  rfl

/-- One of the two files in the sample project's directory is not a valid profile. -/
theorem failureCount_projectFiles : activeProject.failureCount projectFiles = 1 := by
  obtain ⟨board, results⟩ := validateAll_projectFiles
  have directory : activeProject.profilesDirectory = ⟨"/"⟩ := by decide
  -- The board is counted as valid, and the manifest is not.
  rw [Project.failureCount, directory, results]
  rfl

/--
One of the two files in the sample project's directory is a profile, whatever becomes of the other.

The other one's entry goes on for five lines, of which none tells of a failure again.
-/
theorem validateAll_exact_sample :
    Project.discover projectFiles projectFiles.cwd.path = .ok activeProject ∧
    Blueprint.standard.validateAll projectFiles ⟨"/boards"⟩ = [] ∧
    Blueprint.standard.validateAll (projectFiles.put [workName] .directory) ⟨"/"⟩ =
      Blueprint.standard.validateAll projectFiles ⟨"/"⟩ ∧
    (∃ board, board.profile.source = ⟨"/board.toml"⟩ ∧
      ("board", .ok board) ∈ Blueprint.standard.validateAll projectFiles ⟨"/"⟩ ∧
      ("board", .ok board) ∈
        Blueprint.standard.validateAll (projectFiles.erase manifestPlace) ⟨"/"⟩) ∧
    (Command.validateAll.run projectFiles).failure = some (.invalidProfiles 1 2) ∧
    (activeProject.profileEntries projectFiles manifestDiagnostics).map (List.length ∘ laterLines) =
      [0, 5] ∧
    (runsBetween '\n' ((Command.validateAll.run projectFiles).output manifestDiagnostics).toList).countP
      tellsFailure = 1 := by
  obtain ⟨checks, tells⟩ := validateAll_exact projectFiles
  obtain ⟨_, named, _, reordered, each⟩ := checks Blueprint.standard ⟨"/"⟩
  obtain ⟨board, results⟩ := validateAll_projectFiles
  have discovered : Project.discover projectFiles projectFiles.cwd.path = .ok activeProject :=
    activeProject_selects.discovered
  have directory : activeProject.profilesDirectory = ⟨"/"⟩ := by decide
  obtain ⟨valid, invalid⟩ := tells activeProject discovered
  rw [directory] at valid invalid
  have member : ("board", .ok board) ∈ Blueprint.standard.validateAll projectFiles ⟨"/"⟩ := by
    rw [results]
    exact List.mem_cons_self
  have refused : ("osqa", .error (.profile (.malformed ⟨"/osqa.toml"⟩ sampleManifest))) ∈
      Blueprint.standard.validateAll projectFiles ⟨"/"⟩ := by
    rw [results]
    exact List.mem_cons_of_mem _ List.mem_cons_self
  -- A success would mean that the manifest could be prepared.
  have fails : (Command.validateAll.run projectFiles).failure ≠ none := by
    intro succeeds
    obtain ⟨other, prepared⟩ :=
      (valid.1 succeeds).2 "osqa" ((named "osqa").1 (List.mem_map_of_mem refused))
    have same := (each _ _ refused).1.trans prepared
    cases same
  obtain ⟨e, failed⟩ := Option.ne_none_iff_exists'.1 fails
  obtain ⟨counted, shown⟩ := invalid (List.ne_nil_of_mem member)
  obtain ⟨_, -, lines⟩ := shown manifestDiagnostics
  -- Only the manifest's entry has further lines, and none of these tells of a failure.
  have later : (activeProject.profileEntries projectFiles manifestDiagnostics).map laterLines =
      [[], laterLines manifestEntry] := by
    have short : laterLines "ok   board" = [] := by decide
    rw [profileEntries_projectFiles, List.map_cons, List.map_singleton, short]
  rw [failureCount_projectFiles] at counted
  rw [failureCount_projectFiles, List.flatMap_def, later, List.flatten_cons, List.flatten_singleton,
    List.nil_append, laterLines_manifestEntry.2] at lines
  refine ⟨discovered, ?_, ?_, ⟨board, ?_, member, ?_⟩, ?_, ?_, lines⟩
  · -- There is no such directory.
    exact (checks Blueprint.standard ⟨"/boards"⟩).2.2.1 (by decide +kernel)
  · -- What is put there stands there already, but is listed before the others.
    refine reordered _ (cwd_put ..) fun location => ?_
    rw [entryAt?_put (by decide)]
    split
    · rename_i there
      rw [there]
      rfl
    · rfl
  · exact (each _ _ member).2.1 board rfl
  · exact (each _ _ member).2.2 _ sameDirectories_erase_manifest fun _ => keptAt_erase_manifest
  · rw [failed, counted e failed, results]
    rfl
  · have lengths := congrArg (List.map List.length) later
    rwa [List.map_map, List.map_cons, List.map_singleton, laterLines_manifestEntry.1] at lengths

/-- A file without a text, and the sample profile in a file whose name has a line end in it. -/
def splitNameFiles : FileSystem where
  entries := [([⟨"profiles", by decide⟩], .directory),
    ([⟨"bad.toml", by decide⟩, ⟨"profiles", by decide⟩], .file "".toUTF8),
    ([⟨"x\nFAIL y.toml", by decide⟩, ⟨"profiles", by decide⟩], .file sampleDocument.toUTF8)]
  distinct := by decide
  rooted := List.forall_mem_cons.2 ⟨.inl rfl, List.forall_mem_cons.2
    ⟨.inr List.mem_cons_self, List.forall_mem_singleton.2 (.inr List.mem_cons_self)⟩⟩
  cwd := []

/-- The link of the profile in that file. -/
def splitNameLink : ProfileLink where
  name := sampleProfile.nameAt ⟨"/profiles/x\nFAIL y.toml"⟩
  path := ⟨"/profiles/x\nFAIL y.toml"⟩
  location := [⟨"x\nFAIL y.toml", by decide⟩, ⟨"profiles", by decide⟩]
  file := sampleProfile

/-- The profile in that file is valid. -/
theorem splitName_steps : (Profile.ofChain Schema.standard splitNameLink []).toOption.any
    fun profile => (evaluate standardRules profile.parameters).toOption.isSome := by
  -- Nothing but the text of the sample profile is evaluated, in a chain of one file.
  decide +kernel

/-- The file without a text lacks the first parameter, and the other one is valid. -/
theorem validateAll_splitNameFiles : ∃ board,
    Blueprint.standard.validateAll splitNameFiles ⟨"/profiles"⟩ =
      [("bad", .error (.profile (.parameter (.missing "bad" "BOARD_NAME")))),
        ("x\nFAIL y", .ok board)] := by
  obtain ⟨profile, checked, rest⟩ := (Option.any_eq_true _ _).1 splitName_steps
  obtain ⟨derived, evaluated⟩ := Option.isSome_iff_exists.1 rest
  -- The chain of either file is the file itself.
  have prepared : Blueprint.standard.prepare splitNameFiles ⟨"/profiles"⟩ (.bare "x\nFAIL y") =
      .ok ⟨profile, derived⟩ := by
    have located : splitNameFiles.locateFile ⟨"/profiles/x\nFAIL y.toml"⟩ =
        .ok (splitNameLink.location, sampleDocument.toUTF8) := by
      unfold locateFile locate origin
      rfl
    have resolved : (ProfileReference.bare "x\nFAIL y").resolve ⟨"/profiles"⟩ ⟨""⟩ =
        ⟨"/profiles/x\nFAIL y.toml"⟩ := by decide
    refine @Blueprint.prepare_of_links _ _ _ _ splitNameLink [] _ _ ?_ (ok_of_toOption checked)
      (ok_of_toOption evaluated)
    rw [resolved]
    exact profileChain_of_alone (readLink_of_text located parse_sampleDocument) rfl
  -- The empty file is a profile without parameters.
  have refused : Blueprint.standard.prepare splitNameFiles ⟨"/profiles"⟩ (.bare "bad") =
      .error (.profile (.parameter (.missing "bad" "BOARD_NAME"))) := by
    have located : splitNameFiles.locateFile ⟨"/profiles/bad.toml"⟩ =
        .ok ([⟨"bad.toml", by decide⟩, ⟨"profiles", by decide⟩], "".toUTF8) := by
      unfold locateFile locate origin
      rfl
    have nothing : ProfileFile.parse? "" = some ⟨none, none, none, .empty⟩ := by rfl
    have resolved : (ProfileReference.bare "bad").resolve ⟨"/profiles"⟩ ⟨""⟩ =
        ⟨"/profiles/bad.toml"⟩ := by decide
    have followed := @profileChain_of_alone _ ⟨"/profiles"⟩ _ _ (readLink_of_text located nothing) rfl
    simp only [Blueprint.prepare, Profile.load, resolved, followed]
    decide
  -- The directory's two files are told in the order of their names.
  have found : Profile.discover splitNameFiles ⟨"/profiles"⟩ =
      .ofList [("bad", Path.join ⟨"/profiles"⟩ ⟨"bad" ++ profileSuffix⟩),
        ("x\nFAIL y", Path.join ⟨"/profiles"⟩ ⟨"x\nFAIL y" ++ profileSuffix⟩)] := by
    decide +kernel
  refine ⟨⟨profile, derived⟩, ?_⟩
  rw [Blueprint.validateAll, found, ← prepared, ← refused, ← Blueprint.prepare_bare,
    ← Blueprint.prepare_bare]
  rfl

/-- One profile fails here, but two lines of the output tell of a failure. -/
theorem validateAll_tells_more :
    (Command.validateAll.run splitNameFiles).failure = some (.invalidProfiles 1 2) ∧
    ∀ diagnostics,
      (Command.validateAll.run splitNameFiles).output diagnostics =
        "FAIL bad: profile 'bad' is missing required parameter BOARD_NAME\nok   x\nFAIL y\n" ∧
      (runsBetween '\n' ((Command.validateAll.run splitNameFiles).output diagnostics).toList).countP
        tellsFailure = 2 := by
  obtain ⟨board, results⟩ := validateAll_splitNameFiles
  -- Without a manifest, the profiles are those in the usual directory.
  have found : Project.discover splitNameFiles splitNameFiles.cwd.path =
      .ok { root := ⟨"/"⟩, manifest := none } := by decide +kernel
  have directory : Project.profilesDirectory { root := ⟨"/"⟩, manifest := none } = ⟨"/profiles"⟩ := by
    decide
  have filled : Blueprint.standard.validateAll splitNameFiles
      (Project.profilesDirectory { root := ⟨"/"⟩, manifest := none }) ≠ [] := by
    rw [directory, results]
    exact List.cons_ne_nil _ _
  -- Of the two results one is an error.
  have one : Project.failureCount { root := ⟨"/"⟩, manifest := none } splitNameFiles = 1 := by
    rw [Project.failureCount, directory, results]
    rfl
  -- No entry shows a text of the reader, so the output is a fixed text.
  have shown (diagnostics : Toml.Diagnostics) :
      unlines (Project.profileEntries { root := ⟨"/"⟩, manifest := none } splitNameFiles diagnostics) =
        "FAIL bad: profile 'bad' is missing required parameter BOARD_NAME\nok   x\nFAIL y\n" := by
    rw [Project.profileEntries, directory, results]
    rfl
  rw [Command.run_validateAll found, Project.validateAll_of_ne_nil filled, one, directory, results]
  refine ⟨rfl, fun diagnostics => ⟨shown diagnostics, ?_⟩⟩
  simp only [shown]
  decide

end BoardConfig
