import BoardConfig.Main
import BoardConfig.Proofs.Command.Selection
import BoardConfig.Proofs.Generation.Standpoint

/-! Commands without relative paths, which answer alike from all working directories of one project. -/

namespace BoardConfig

open FileSystem

/-- Whether a selection is anything but the relative path of a profile's file. -/
def IsSettled (selection : Option String) : Prop :=
  ∀ id path, selection = some id → ProfileReference.parse id = .file path → path.isAbsolute

/-- An answer with its file system seen from a working directory. -/
def Answer.within (answer : Answer) (cwd : Location) : Answer :=
  { answer with fs := answer.fs.within cwd }

namespace Project

variable {project : Project} {fs : FileSystem} {cwd : Location} {selection : Option String}

/-- The directories that are searched for a manifest are so alike from every working directory. -/
theorem discoverAmong_within {fallback : Path} {directories : List Path}
    (absolute : ∀ directory ∈ directories, directory.isAbsolute) :
    discoverAmong (fs.within cwd) fallback directories = discoverAmong fs fallback directories := by
  -- Induction on the directories, at each of which a path from the root is asked for.
  induction directories with
  | nil => rfl
  | cons directory above ih =>
    have candidate : (directory.join ⟨manifestName⟩).isAbsolute :=
      Path.isAbsolute_join_of_isAbsolute (absolute directory List.mem_cons_self) _
    have others := ih fun other among => absolute other (List.mem_cons_of_mem _ among)
    simp only [discoverAmong, manifestIn?, isFile_within candidate, others]
    -- Where there is a manifest, its text is the same.
    split
    · rfl
    · rename_i found
      split at found <;> cases found
      rw [readText_within candidate]

/-- From an absolute directory, the same project is found. -/
theorem discover_within {start : Path} (absolute : start.isAbsolute) :
    discover (fs.within cwd) start = discover fs start := by
  -- The ancestors of an absolute path are absolute.
  apply discoverAmong_within
  intro directory among
  exact Path.isAbsolute_of_mem_ancestors absolute among

/-- The profiles directory of a project with an absolute root is absolute. -/
theorem isAbsolute_profilesDirectory (rooted : project.root.isAbsolute) :
    project.profilesDirectory.isAbsolute :=
  Path.isAbsolute_join_of_isAbsolute rooted _

/-- A settled selection is that of an absolute path, or of a file that is named bare. -/
theorem isAbsolute_of_reference {reference : ProfileReference} (rooted : project.root.isAbsolute)
    (settled : IsSettled selection) (selected : project.reference selection = .ok reference) :
    (reference.resolve project.profilesDirectory ⟨""⟩).isAbsolute := by
  -- A bare name stands for a file of the profiles directory, so only paths are left to look at.
  apply ProfileReference.isAbsolute_resolve (isAbsolute_profilesDirectory rooted)
  rintro path rfl
  cases selection with
  | some id =>
    -- A profile that is asked for by a path is so by an absolute one.
    exact settled id path rfl (Except.ok.inj selected)
  | none =>
    cases given : project.manifest with
    | none => simp [Project.reference, given] at selected
    | some manifest =>
      cases named : manifest.active with
      | none => simp [Project.reference, given, named] at selected
      | some active =>
        -- The path of the active profile starts at the root.
        simp only [Project.reference, given, named, Except.ok.injEq, activeReference] at selected
        split at selected <;> cases selected
        exact Path.isAbsolute_join_of_isAbsolute rooted _

/-- A request is for the selected profile and for the places that the project gives to artifacts. -/
theorem request_ok {check : Bool} {request : Request}
    (asked : project.request selection check = .ok request) :
    project.reference selection = .ok request.reference ∧ project.layout = .ok request.layout ∧
      request.directory = project.profilesDirectory := by
  -- The profile is selected first and the artifacts are placed second; neither may fail.
  unfold Project.request at asked
  split at asked
  · cases asked
  · rename_i reference selected
    split at asked <;> cases asked
    rename_i layout placed
    exact ⟨selected, placed, rfl⟩

/-- Generation with a settled selection answers alike from every working directory. -/
theorem generate_within (rooted : project.root.isAbsolute) (settled : IsSettled selection)
    (check : Bool) (format : Format) :
    project.generate (fs.within cwd) selection check format =
      (project.generate fs selection check format).within cwd := by
  -- What depends on files is the run, and its paths are absolute all three.
  unfold Project.generate
  cases asked : project.request selection check with
  | error e => rfl
  | ok request =>
    obtain ⟨selected, placed, directory⟩ := request_ok asked
    have directoryAbsolute : request.directory.isAbsolute := by
      rw [directory]
      exact isAbsolute_profilesDirectory rooted
    have profile : (request.reference.resolve request.directory ⟨""⟩).isAbsolute := by
      rw [directory]
      exact isAbsolute_of_reference rooted settled selected
    -- The artifacts go to places from the root.
    have places (artifact : Artifact) : (request.layout.path artifact).isAbsolute := by
      rw [Layout.path, root_of_layout placed]
      exact Path.isAbsolute_join_of_isAbsolute rooted _
    simp only [Blueprint.run_within directoryAbsolute profile places]
    obtain ⟨result, after⟩ := Blueprint.standard.run fs request
    cases result <;> rfl

/-- The list of the profiles is the same from every working directory. -/
theorem list_within (rooted : project.root.isAbsolute) :
    project.list (fs.within cwd) = (project.list fs).within cwd := by
  -- The list shows what checking all profiles gives.
  unfold Project.list
  simp only [Blueprint.validateAll_within (isAbsolute_profilesDirectory rooted)]
  cases Blueprint.standard.validateAll fs project.profilesDirectory <;> rfl

/-- A profile is described alike by a settled selection. -/
theorem describe_within {id : String} (rooted : project.root.isAbsolute)
    (settled : IsSettled (some id)) (format : Format) :
    project.describe (fs.within cwd) id format = (project.describe fs id format).within cwd := by
  -- The described profile is prepared, and nothing else is read.
  have absolute : ((ProfileReference.parse id).resolve project.profilesDirectory ⟨""⟩).isAbsolute := by
    apply ProfileReference.isAbsolute_resolve (isAbsolute_profilesDirectory rooted)
    exact fun path named => settled id path rfl named
  unfold Project.describe
  rw [Blueprint.prepare_within (isAbsolute_profilesDirectory rooted) absolute]
  cases Blueprint.standard.prepare fs project.profilesDirectory (.parse id) <;> rfl

/-- A profile is checked alike by a settled selection. -/
theorem validate_within (rooted : project.root.isAbsolute) (settled : IsSettled selection) :
    project.validate (fs.within cwd) selection = (project.validate fs selection).within cwd := by
  -- Selecting reads the manifest only, which is part of the project.
  unfold Project.validate
  cases selected : project.reference selection with
  | error e => rfl
  | ok reference =>
    simp only [Blueprint.prepare_within (isAbsolute_profilesDirectory rooted)
      (isAbsolute_of_reference rooted settled selected)]
    cases Blueprint.standard.prepare fs project.profilesDirectory reference <;> rfl

/-- All profiles are checked alike. -/
theorem validateAll_within (rooted : project.root.isAbsolute) :
    project.validateAll (fs.within cwd) = (project.validateAll fs).within cwd := by
  -- The results are the same, and so is what is shown of them.
  unfold Project.validateAll
  simp only [Blueprint.validateAll_within (isAbsolute_profilesDirectory rooted)]
  cases Blueprint.standard.validateAll fs project.profilesDirectory <;> rfl

end Project

/-- A settled command answers alike from two working directories from which one project is found. -/
theorem Command.run_within {command : Command} (settled : IsSettled command.profile?)
    {fs : FileSystem} {cwd other : Location}
    (same : Project.discover fs cwd.path = Project.discover fs other.path) :
    command.run (fs.within cwd) = (command.run (fs.within other)).within cwd := by
  -- From both directories the search comes to one result, so that the project is the same or none.
  have here : Project.discover (fs.within cwd) (fs.within cwd).cwd.path =
      Project.discover fs other.path := (Project.discover_within cwd.isAbsolute_path).trans same
  have there : Project.discover (fs.within other) (fs.within other).cwd.path =
      Project.discover fs other.path := Project.discover_within other.isAbsolute_path
  simp only [Command.run, here, there]
  cases found : Project.discover fs other.path with
  | error e => rfl
  | ok project =>
    -- The root of the project is absolute, as the search began at an absolute directory.
    have rooted : project.root.isAbsolute := Project.isAbsolute_root other.isAbsolute_path found
    simp only [← within_within fs other cwd]
    cases command with
    | generate profile check format => exact Project.generate_within rooted settled check format
    | list => exact Project.list_within rooted
    | describe id format => exact Project.describe_within rooted settled format
    | validate id => exact Project.validate_within rooted settled
    | validateAll => exact Project.validateAll_within rooted

end BoardConfig
