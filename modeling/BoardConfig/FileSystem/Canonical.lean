import BoardConfig.FileSystem.Resolve

/-! Canonical paths, which spell places from the root, and how the paths of files are told apart. -/

namespace BoardConfig

/-- Whether steps look into the directory where they begin before they enter an entry of it. -/
def looksInside : List Step → Bool
  | [] => false
  | .stay :: rest => rest = [] ∨ looksInside rest
  | .up :: _ => true
  | .enter _ :: _ => false

/-- Whether every entry that steps enter has a path from the root that is not too long to be looked at. -/
def isInReach : Location → List Step → Bool
  | _, [] => true
  | location, .stay :: rest => isInReach location rest
  | location, .up :: rest => isInReach location.tail rest
  | location, .enter name :: rest =>
    let spelled := (Location.path (name :: location)).text.utf8ByteSize
    -- A directory is looked into by its path with a slash behind it.
    (if looksInside rest then spelled + 1 else spelled) ≤ FileSystem.pathLimit ∧
      isInReach (name :: location) rest

namespace FileSystem

/-- Whether a path enters only what has a path from the root that is not too long. -/
def reaches (fs : FileSystem) (path : Path) : Bool :=
  isInReach (if path.isAbsolute then [] else fs.cwd) (path.pieces.map Step.ofPiece)

/-- The canonical path of what a path leads to, if the operating system can tell it. -/
def canonical? (fs : FileSystem) (path : Path) : Option Path :=
  match fs.locate path with
  | .error _ => none
  | .ok location => if fs.reaches path then some location.path else none

/-- The components that tell a path from others: those of its canonical path, else its own ones. -/
def identity (fs : FileSystem) (path : Path) : List Component :=
  ((fs.canonical? path).getD path).components

end FileSystem

end BoardConfig
