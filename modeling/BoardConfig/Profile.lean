import BoardConfig.Profile.Chain

/-! Board profiles, loaded with the profiles that they override and checked against a schema. -/

namespace BoardConfig

/-- A board profile. -/
structure Profile where
  name : String
  /-- Its description for readers. -/
  description : Option String
  source : Path
  /-- The names of the profiles that it overrides, nearest first. -/
  bases : List String
  parameters : ParameterSet
  deriving DecidableEq, Repr

namespace Profile

/-- The profile of a chain of files, of which the first is its own. -/
def ofChain (schema : Schema) (top : ProfileLink) (bases : List ProfileLink) :
    Except ProfileError Profile :=
  match ParameterSet.ofTable schema top.name (mergedParameters (top :: bases)) with
  | .error cause => .error (.parameter cause)
  | .ok parameters =>
    .ok {
      name := top.name
      description := top.file.description
      source := top.path
      bases := bases.map (·.name)
      parameters }

/-- Loads a profile; bare names stand for files in a directory. -/
def load (fs : FileSystem) (schema : Schema) (directory : Path) (reference : ProfileReference) :
    Except ProfileError Profile :=
  let path := reference.resolve directory ⟨""⟩
  match fs.profileChain directory path with
  | .error e => .error e
  | .ok [] => .error (.notFound path)
  | .ok (top :: bases) => ofChain schema top bases

/-- The profiles in a directory, by name; a directory that does not exist holds none. -/
def discover (fs : FileSystem) (directory : Path) : SortedMap Path :=
  match fs.directory? directory with
  | none => .empty
  | some location =>
    .ofList ((fs.namesIn location).filterMap fun entry =>
      (profileName? entry.text).map fun name => (name, directory.join ⟨entry.text⟩))

end Profile

end BoardConfig
