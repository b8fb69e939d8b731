import BoardConfig.Command.Arguments
import BoardConfig.Command.Listing
import BoardConfig.Project

/-! Carrying out commands. -/

namespace BoardConfig

/-- Why a command fails. -/
inductive CommandError
  | project (cause : ProjectError)
  | generation (cause : GenerationError)
  /-- Some files are missing or differ. -/
  | stale (count : Nat) (profile : String)
  | noProfiles (directory : Path)
  | invalidProfiles (count total : Nat)
  deriving DecidableEq, Repr

/-- The wording of a failure with its cause. -/
def CommandError.report (diagnostics : Toml.Diagnostics) : CommandError → String
  | .project cause => cause.report diagnostics
  | .generation cause => cause.report diagnostics
  | .stale count profile =>
    s!"{count} artifact(s) out of date for profile '{profile}'; run `osqa-config generate`"
  | .noProfiles directory => s!"no profiles found in {directory.text}"
  | .invalidProfiles count total => s!"{count} of {total} profile(s) failed validation"

/-- What a command leaves behind. -/
structure Answer where
  /-- What it shows, as far as it words the faults of documents in a reader's words. -/
  output : Toml.Diagnostics → String
  failure : Option CommandError
  fs : FileSystem

/-- The text that tells the version. -/
def versionText : String := "osqa-config 0.1.0\n"

namespace Project

/-- The run that a project is asked for. -/
def request (project : Project) (profile : Option String) (check : Bool) :
    Except ProjectError Request :=
  match project.reference profile with
  | .error e => .error e
  | .ok reference =>
    match project.layout with
    | .error e => .error e
    | .ok layout =>
      .ok {
        directory := project.profilesDirectory
        reference
        layout
        mode := if check then .check else .write }

/-- Writes or compares the artifacts of a profile, and shows what happened to each file. -/
def generate (project : Project) (fs : FileSystem) (profile : Option String) (check : Bool)
    (format : Format) : Answer :=
  match project.request profile check with
  | .error e => { output := fun _ => "", failure := some (.project e), fs }
  | .ok request =>
    match Blueprint.standard.run fs request with
    | (.error e, fs) => { output := fun _ => "", failure := some (.generation e), fs }
    | (.ok report, fs) =>
      let output :=
        match format with
        | .text => unlines (report.outcomes.map (·.line project.root))
        | .json => unlines [report.json.pretty]
      -- Stale files fail the command, though the report is shown.
      let failure := if report.isClean then none else some (.stale report.staleCount report.profile)
      { output := fun _ => output, failure, fs }

/-- Shows the profiles in the profiles directory. -/
def list (project : Project) (fs : FileSystem) : Answer :=
  let directory := project.profilesDirectory
  match Blueprint.standard.validateAll fs directory with
  | [] =>
    { output := fun _ => unlines [s!"No profiles found in {directory.text}"], failure := none, fs }
  | results =>
    let lines diagnostics := results.map fun (name, result) =>
      listLine diagnostics project.settings.active name result
    let output diagnostics :=
      unlines ([s!"Profiles in {directory.text}:", ""] ++ lines diagnostics ++
        ["", "Use 'osqa-config profile describe <name>' for details."])
    { output, failure := none, fs }

/-- Shows the parameters and derived values of a profile. -/
def describe (project : Project) (fs : FileSystem) (id : String) (format : Format) : Answer :=
  match Blueprint.standard.prepare fs project.profilesDirectory (.parse id) with
  | .error e => { output := fun _ => "", failure := some (.generation e), fs }
  | .ok board =>
    let output :=
      match format with
      | .text => unlines (board.lines Blueprint.standard.schema)
      | .json => unlines [board.json.pretty]
    { output := fun _ => output, failure := none, fs }

/-- Checks one profile. -/
def validate (project : Project) (fs : FileSystem) (id : Option String) : Answer :=
  match project.reference id with
  | .error e => { output := fun _ => "", failure := some (.project e), fs }
  | .ok reference =>
    match Blueprint.standard.prepare fs project.profilesDirectory reference with
    | .error e => { output := fun _ => "", failure := some (.generation e), fs }
    | .ok board =>
      { output := fun diagnostics => unlines [validityLine diagnostics board.profile.name (.ok board)]
        failure := none
        fs }

/-- Checks every profile in the profiles directory. -/
def validateAll (project : Project) (fs : FileSystem) : Answer :=
  let directory := project.profilesDirectory
  match Blueprint.standard.validateAll fs directory with
  | [] => { output := fun _ => "", failure := some (.noProfiles directory), fs }
  | results =>
    let failed := results.countP fun (_, result) => result.toOption.isNone
    { output := fun diagnostics =>
        unlines (results.map fun (name, result) => validityLine diagnostics name result)
      failure := if failed = 0 then none else some (.invalidProfiles failed results.length)
      fs }

end Project

/-- Carries out a command in the project of the working directory. -/
def Command.run (command : Command) (fs : FileSystem) : Answer :=
  match Project.discover fs fs.cwd.path with
  | .error e => { output := fun _ => "", failure := some (.project e), fs }
  | .ok project =>
    match command with
    | .generate profile check format => project.generate fs profile check format
    | .list => project.list fs
    | .describe id format => project.describe fs id format
    | .validate id => project.validate fs id
    | .validateAll => project.validateAll fs

end BoardConfig
