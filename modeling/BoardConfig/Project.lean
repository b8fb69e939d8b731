import BoardConfig.FileSystem.Resolve
import BoardConfig.Generation.Layout
import BoardConfig.Profile.Reference
import BoardConfig.Toml.Reader
import BoardConfig.Toml.Shape

/-! Projects and the manifests at their roots. -/

namespace BoardConfig

/-- The settings of a project. -/
structure Manifest where
  /-- The profile that is used unless another one is named. -/
  active : Option String := none
  /-- The profiles directory; a relative path starts at the root. -/
  directory : Path := ⟨"profiles"⟩
  /-- Places for artifacts by name; a relative path starts at the root. -/
  outputs : SortedMap Path := .empty
  deriving DecidableEq, Repr

/-- Why a project or its settings cannot be used. -/
inductive ProjectError
  /-- A manifest is not text. -/
  | notText (manifest : Path)
  /-- A manifest is no TOML document of the shape of a manifest. -/
  | malformed (manifest : Path) (document : String)
  /-- The outputs name an artifact that does not exist. -/
  | unknownArtifact (name : String)
  /-- A manifest has no active profile. -/
  | noActiveProfile
  /-- There is no manifest to name a profile. -/
  | noManifest (root : Path)
  deriving DecidableEq, Repr

/-- The name of a manifest's file. -/
def manifestName : String := "osqa.toml"

/-- The wording of a project error, without its cause. -/
def ProjectError.message : ProjectError → String
  | .notText manifest => s!"reading {manifest.text}"
  | .malformed manifest _ => s!"parsing {manifest.text}"
  | .unknownArtifact name =>
    let known := ", ".intercalate (Artifact.all.map (·.name))
    s!"unknown artifact '{name}' in [outputs] of {manifestName}; expected one of: {known}"
  | .noActiveProfile =>
    s!"no profile selected: pass --profile <name> or set [profile] active in {manifestName}"
  | .noManifest root =>
    s!"no {manifestName} found in {root.text} or its parents: pass --profile <name>"

/-- The wording of a project error with its cause. -/
def ProjectError.report (diagnostics : Toml.Diagnostics) (e : ProjectError) : String :=
  match e with
  | .notText _ => s!"{e.message}: {OsError.notText.message}"
  | .malformed _ document => s!"{e.message}: {diagnostics.manifest document}"
  | _ => e.message

namespace Manifest

/-- The active profile and the profiles directory of a section, which may list them without names. -/
def readSection (value : Toml.Value) : Option (Option String × Option String) :=
  match value with
  -- A list gives the two values by their position.
  | .array [] => some (none, none)
  | .array [active] => active.text?.map fun active => (some active, none)
  | .array (active :: directory :: _) => do return (some (← active.text?), some (← directory.text?))
  | value => do
    let table ← value.table?
    -- A table names them and no others.
    if table.bindsOnly ["active", "directory"] then
      let active ← table.optional? "active" Toml.Value.text?
      let directory ← table.optional? "directory" Toml.Value.text?
      return (active, directory)
    else none

/-- The places that a section gives to artifacts. -/
def readOutputs (value : Toml.Value) : Option (SortedMap Path) := do
  let table ← value.table?
  let places ← table.entries.mapM fun (name, value) => value.text?.map fun text => (name, ⟨text⟩)
  return .ofList places

/-- The settings that a table describes, which binds no other keys than these two. -/
def ofTable? (table : Toml.Table) : Option Manifest :=
  if table.bindsOnly ["profile", "outputs"] then do
    let (active, directory) := (← table.optional? "profile" readSection).getD (none, none)
    let outputs ← table.optional? "outputs" readOutputs
    return {
      active
      directory := (directory.map Path.mk).getD ⟨"profiles"⟩
      outputs := outputs.getD .empty }
  else none

/-- The settings that a document describes. -/
def parse? (document : String) : Option Manifest :=
  (Toml.Table.parse? document).bind ofTable?

end Manifest

/-- A project: a directory and the manifest in it, if any. -/
structure Project where
  /-- The directory that relative paths of the manifest start from. -/
  root : Path
  manifest : Option Manifest
  deriving DecidableEq, Repr

namespace Project

/-- The path of the manifest that a directory has, if it has one. -/
def manifestIn? (fs : FileSystem) (directory : Path) : Option Path :=
  let candidate := directory.join ⟨manifestName⟩
  if fs.isFile candidate then some candidate else none

/-- The project of the first of some directories that has a manifest, else one without. -/
def discoverAmong (fs : FileSystem) (fallback : Path) :
    List Path → Except ProjectError Project
  | [] => .ok { root := fallback, manifest := none }
  | directory :: above =>
    match manifestIn? fs directory with
    -- A directory without a manifest is passed over.
    | none => discoverAmong fs fallback above
    | some candidate =>
      match fs.readText candidate with
      | .error _ => .error (.notText candidate)
      | .ok document =>
        match Manifest.parse? document with
        | none => .error (.malformed candidate document)
        | some manifest => .ok { root := directory, manifest := some manifest }

/-- The project of a directory, where the nearest manifest at or above it decides. -/
def discover (fs : FileSystem) (start : Path) : Except ProjectError Project :=
  discoverAmong fs start start.ancestors

/-- The settings of the manifest, or the usual ones. -/
def settings (project : Project) : Manifest :=
  project.manifest.getD {}

/-- The profiles directory. -/
def profilesDirectory (project : Project) : Path :=
  project.root.join project.settings.directory

/-- The artifacts that outputs name, in name order, with their places. -/
def namedOutputs : List (String × Path) → Except ProjectError (List (Artifact × Path))
  | [] => .ok []
  | (name, path) :: rest =>
    match Artifact.ofName? name with
    | none => .error (.unknownArtifact name)
    | some artifact =>
      match namedOutputs rest with
      | .ok overrides => .ok ((artifact, path) :: overrides)
      | .error e => .error e

/-- The artifacts that the manifest places itself. -/
def overrides (project : Project) : Except ProjectError (List (Artifact × Path)) :=
  namedOutputs project.settings.outputs.entries

/-- The places of the artifacts. -/
def layout (project : Project) : Except ProjectError Layout :=
  match project.overrides with
  | .error e => .error e
  | .ok overrides =>
    .ok (overrides.foldl (fun layout (artifact, path) => layout.withOverride artifact path)
      { root := project.root })

/-- The active profile; a relative path in the manifest starts at the root. -/
def activeReference (project : Project) (active : String) : ProfileReference :=
  match ProfileReference.parse active with
  | .file path => .file (project.root.join path)
  | .bare name => .bare name

/-- The profile to use: the one asked for, else the active one. -/
def reference (project : Project) (explicit : Option String) :
    Except ProjectError ProfileReference :=
  match explicit, project.manifest with
  -- A profile that is asked for needs no manifest.
  | some id, _ => .ok (.parse id)
  | none, none => .error (.noManifest project.root)
  | none, some manifest =>
    match manifest.active with
    | some active => .ok (project.activeReference active)
    | none => .error .noActiveProfile

end Project

end BoardConfig
