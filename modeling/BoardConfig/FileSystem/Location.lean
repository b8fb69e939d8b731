import BoardConfig.Path

/-! Places in a file system, and the steps that paths take between them. -/

namespace BoardConfig

/-- Whether a text can name an entry of a directory: it is not idle and does not lead elsewhere. -/
def isEntryName (text : String) : Bool :=
  ¬ isIdle text ∧ text ≠ ".." ∧ '/' ∉ text.toList ∧ '\x00' ∉ text.toList

/-- The name of an entry in its directory. -/
structure Name where
  text : String
  /-- The text can name an entry. -/
  isName : isEntryName text
  deriving DecidableEq, Repr

/-- The place of an entry: its name, then the names of the directories around it, innermost first. -/
abbrev Location := List Name

/-- A step on the way that a path describes. -/
inductive Step
  /-- To the directory itself. -/
  | stay
  /-- To the directory above. -/
  | up
  /-- To an entry. -/
  | enter (name : Name)
  deriving DecidableEq, Repr

/-- The step that a piece of a path stands for. -/
def Step.ofPiece (piece : String) : Step :=
  if isName : isEntryName piece then .enter ⟨piece, isName⟩
  else if piece = ".." then .up
  else .stay

/-- The absolute path of a location. -/
def Location.path (location : Location) : Path :=
  ⟨"/" ++ "/".intercalate (location.reverse.map (·.text))⟩

end BoardConfig
