import BoardConfig.Path

/-! How a profile is named. -/

namespace BoardConfig

/-- A way to name a profile. -/
inductive ProfileReference
  /-- A bare name, which stands for a file in the profiles directory. -/
  | bare (name : String)
  /-- The path of the profile's file. -/
  | file (path : Path)
  deriving DecidableEq, Repr

/-- The end of the name of a profile's file. -/
def profileSuffix : String := ".toml"

/-- Whether a text ends as the name of a profile's file does. -/
def namesProfileFile (text : String) : Bool :=
  profileSuffix.toList.isSuffixOf text.toList

/-- The name under which a file is a profile. -/
def profileName? (entry : String) : Option String :=
  if namesProfileFile entry then
    some (String.ofList (entry.toList.take (entry.length - profileSuffix.length)))
  else none

namespace ProfileReference

/-- A text with a slash or with the end of a file's name is a path; any other is a bare name. -/
def parse (text : String) : ProfileReference :=
  if '/' ∈ text.toList ∨ namesProfileFile text then .file ⟨text⟩ else .bare text

/-- The file that a reference stands for; a relative path starts at a base. -/
def resolve (directory base : Path) : ProfileReference → Path
  | .bare name => directory.join ⟨name ++ profileSuffix⟩
  | .file path => base.join path

/-- The text of a reference. -/
def display : ProfileReference → String
  | .bare name => name
  | .file path => path.text

end ProfileReference

end BoardConfig
