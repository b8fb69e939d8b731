import BoardConfig.Command

/-! The command line: shows a command what the disk holds, and carries over what it changes. -/

namespace BoardConfig

/-- The text that explains the command line. -/
def usageText : String := unlines [
  "Usage: osqa-config [-v | -q] [generate [--profile <id>] [--check] [--format text|json]]",
  "       osqa-config [-v | -q] profile list",
  "       osqa-config [-v | -q] profile describe <id> [--format text|json]",
  "       osqa-config [-v | -q] profile validate [<id> | --all]"]

/-- The file system with what the disk holds at a path and above it. -/
def observe (fs : FileSystem) (path : Path) : IO FileSystem := do
  let here ← IO.currentDir
  path.ancestors.reverse.foldlM (fun fs path => do
    if ← (here / path.text).isDir then
      return (fs.createDirectories path).2
    else if ← (here / path.text).pathExists then
      return (fs.write path (← IO.FS.readBinFile (here / path.text))).2
    else
      return fs) fs

/-- The file system with the files of a profile, as far as they are not known yet. -/
partial def observeChain (fs : FileSystem) (directory path : Path) : IO FileSystem := do
  if fs.isFile path then return fs
  let fs ← observe fs path
  match fs.readLink path with
  | .error _ => return fs
  | .ok link =>
    match FileSystem.basePath? directory link with
    | some base => observeChain fs directory base
    | none => return fs

/-- The file system with a directory and the profiles in it. -/
def observeProfiles (fs : FileSystem) (directory : Path) : IO FileSystem := do
  let fs ← observe fs directory
  let place := (← IO.currentDir) / directory.text
  if ← place.isDir then
    (← place.readDir).foldlM (fun fs entry =>
      observeChain fs directory (directory.join ⟨entry.fileName⟩)) fs
  else
    return fs

/-- The profile that a command names. -/
def Command.profile? : Command → Option String
  | .generate profile _ _ => profile
  | .describe id _ => some id
  | .validate id => id
  | .list | .validateAll => none

/-- The file system with all that a command may read or replace in the working directory. -/
def observeProject (command : Command) : IO FileSystem := do
  let here : Path := ⟨(← IO.currentDir).toString⟩
  let fs ← observe .empty here
  let fs := { fs with cwd := (fs.directory? here).getD [] }
  let fs ← here.ancestors.foldlM (fun fs directory => observe fs (directory.join ⟨manifestName⟩)) fs
  match Project.discover fs here with
  | .error _ => return fs
  | .ok project =>
    let directory := project.profilesDirectory
    let fs ← observeProfiles fs directory
    let fs ←
      match project.reference command.profile? with
      | .ok reference => observeChain fs directory (reference.resolve directory ⟨""⟩)
      | .error _ => pure fs
    match project.layout with
    | .ok layout => Artifact.all.foldlM (fun fs artifact => observe fs (layout.path artifact)) fs
    | .error _ => return fs

/-- Gives the disk the files in which one file system differs from another. -/
def carryOver (before after : FileSystem) : IO Unit :=
  after.files.forM fun location => do
    match after.contents? location with
    | some contents =>
      if before.entryAt? location ≠ some (.file contents) then
        IO.FS.createDirAll (Location.path location.tail).text
        let temporary := (Location.path location).text ++ ".tmp"
        IO.FS.writeBinFile temporary contents
        IO.FS.rename temporary (Location.path location).text
    | none => return

/-- The wording of a reader that does not tell where a document is wrong. -/
def plainDiagnostics : Toml.Diagnostics where
  profile _ := "TOML parse error"
  manifest _ := "TOML parse error"

/-- Carries out a command on the disk. -/
def Command.perform (command : Command) : IO UInt32 := do
  let before ← observeProject command
  let answer := command.run before
  carryOver before answer.fs
  IO.print (answer.output plainDiagnostics)
  match answer.failure with
  | none => return 0
  | some e =>
    IO.eprintln s!"error: {e.report plainDiagnostics}"
    return 1

end BoardConfig

open BoardConfig in
/-- Reads the arguments and carries out the command that they ask for. -/
def main (arguments : List String) : IO UInt32 := do
  match Command.ofArguments arguments with
  | .ok command => command.perform
  | .error .help =>
    IO.print usageText
    return 0
  | .error .version =>
    IO.print versionText
    return 0
  | .error .usage =>
    IO.eprint usageText
    return 2
