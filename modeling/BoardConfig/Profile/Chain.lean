import BoardConfig.FileSystem.Canonical
import BoardConfig.ParameterSet
import BoardConfig.Profile.File
import BoardConfig.Profile.Reference

/-! A profile's file and the files that it overrides. -/

namespace BoardConfig

/-- Why a profile cannot be loaded. -/
inductive ProfileError
  /-- There is no file at a path. -/
  | notFound (path : Path)
  | notText
  /-- A file is no TOML document of the shape of a profile. -/
  | malformed (path : Path) (document : String)
  /-- A file overrides itself; the names on the way back to it. -/
  | extendsCycle (names : List String)
  /-- The parameters do not bind the schema. -/
  | parameter (cause : ParameterError)
  deriving DecidableEq, Repr

/-- The wording of a profile error, without its cause. -/
def ProfileError.message : ProfileError → String
  | .notFound path => s!"profile file not found: {path.text}"
  | .notText => OsError.notText.message
  | .malformed path _ => s!"TOML parse error in {path.text}"
  | .extendsCycle names => "profile extends cycle: " ++ " -> ".intercalate names
  | .parameter cause => cause.message

/-- The wording of a profile error with its cause. -/
def ProfileError.report (diagnostics : Toml.Diagnostics) (e : ProfileError) : String :=
  match e with
  | .malformed _ document => s!"{e.message}: {diagnostics.profile document}"
  | _ => e.message

/-- One file of a chain. -/
structure ProfileLink where
  name : String
  /-- The path that led to the file. -/
  path : Path
  /-- The place of the file. -/
  location : Location
  file : ProfileFile
  deriving Repr

/-- The name that a file gives its profile, else the file's name without its end. -/
def ProfileFile.nameAt (file : ProfileFile) (path : Path) : String :=
  file.name.getD (path.fileStem?.getD "")

namespace FileSystem

/-- The file of a chain that a path leads to. -/
def readLink (fs : FileSystem) (path : Path) : Except ProfileError ProfileLink :=
  match fs.locateFile path with
  -- Whatever keeps the file from being read counts as a missing file.
  | .error _ => .error (.notFound path)
  | .ok (location, contents) =>
    match String.fromUTF8? contents with
    | none => .error .notText
    | some document =>
      match ProfileFile.parse? document with
      | none => .error (.malformed path document)
      | some file => .ok { name := file.nameAt path, path, location, file }

/-- The path of the profile that a file overrides; a relative one starts beside the file. -/
def basePath? (directory : Path) (link : ProfileLink) : Option Path :=
  link.file.base.map fun base =>
    (ProfileReference.parse base).resolve directory (link.path.parent?.getD ⟨""⟩)

/-- Follows a chain behind the files visited so far, for at most so many files. -/
def followChain (fs : FileSystem) (directory : Path) :
    Nat → List ProfileLink → Path → Except ProfileError (List ProfileLink)
  | 0, visited, _ => .ok visited
  | budget + 1, visited, path =>
    match fs.readLink path with
    | .error e => .error e
    -- Two paths may lead to one file, so canonical paths are compared wherever there are any.
    | .ok link =>
      if fs.identity path ∈ visited.map (fs.identity ·.path) then
        .error (.extendsCycle ((visited ++ [link]).map (·.name)))
      else
        match basePath? directory link with
        -- A file without a base ends the chain.
        | none => .ok (visited ++ [link])
        | some base => followChain fs directory budget (visited ++ [link]) base

/-- No fewer than the paths that the operating system takes, whose bytes are digits of different numbers. -/
@[irreducible]
def pathBound : Nat := Nat.pow 257 pathLimit

/-- The files of a profile, nearest first; no chain without a cycle is longer than there are paths. -/
def profileChain (fs : FileSystem) (directory path : Path) :
    Except ProfileError (List ProfileLink) :=
  fs.followChain directory (pathBound + 1) [] path

end FileSystem

/-- The parameters of a chain, where the nearest file that binds a name gives its whole value. -/
def mergedParameters (chain : List ProfileLink) : Toml.Table :=
  chain.foldr (fun link merged => merged.override link.file.parameters) .empty

end BoardConfig
