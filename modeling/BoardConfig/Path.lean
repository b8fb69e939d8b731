import BoardConfig.Text.Cut

/-! Paths as they are written, with `/` between their pieces. -/

namespace BoardConfig

/-- A path as it was written. -/
structure Path where
  text : String
  deriving DecidableEq, Repr

/-- A step of a path, as comparisons see it. -/
inductive Component
  | root
  /-- The directory itself, which counts at the start of a relative path only. -/
  | here
  | up
  /-- An entry of a directory. -/
  | name (name : String)
  deriving DecidableEq, Repr

/-- The text of a component. -/
def Component.display : Component → String
  | .root => "/"
  | .here => "."
  | .up => ".."
  | .name entry => entry

/-- Whether a piece of a path stays where it is. -/
def isIdle (piece : String) : Bool :=
  piece = "" ∨ piece = "."

/-- Pieces without the idle ones at their end. -/
def dropIdleEnd (pieces : List String) : List String :=
  (pieces.reverse.dropWhile isIdle).reverse

/-- The component of a piece, unless it is idle. -/
def component? (piece : String) : Option Component :=
  if isIdle piece then none
  else if piece = ".." then some .up
  else some (.name piece)

namespace Path

/-- The texts between the slashes of a path; an absolute path begins with an empty one. -/
def pieces (path : Path) : List String :=
  (runsBetween '/' path.text.toList).map String.ofList

/-- The path of pieces. -/
def ofPieces (pieces : List String) : Path :=
  ⟨"/".intercalate pieces⟩

/-- Whether a path starts at the root. -/
def isAbsolute (path : Path) : Bool :=
  path.text.toList.head? = some '/'

/-- A path below another one; an absolute path stands for itself. -/
def join (base path : Path) : Path :=
  -- Below an empty path there is no slash to add.
  if path.isAbsolute ∨ base.text = "" then path
  else if base.text.toList.getLast? = some '/' then ⟨base.text ++ path.text⟩
  else ⟨base.text ++ "/" ++ path.text⟩

/-- The component at the start of a path, given its first piece. -/
def firstComponent? (path : Path) (first : String) : Option Component :=
  if path.isAbsolute then some .root
  else if first = "." then some .here
  else component? first

/-- The components of a path, where repeated and trailing slashes and inner `.` do not count. -/
def components (path : Path) : List Component :=
  -- Only the first piece may stand for the root or the directory itself.
  match path.pieces with
  | [] => []
  | first :: rest => (path.firstComponent? first).toList ++ rest.filterMap component?

/-- A path without idle pieces at its end. -/
def trimmed (path : Path) : Path :=
  match path.pieces with
  | [] => path
  | first :: rest =>
    let kept := dropIdleEnd rest
    if kept = [] ∧ path.isAbsolute then ⟨"/"⟩ else ofPieces (first :: kept)

/-- The path above the last component, written as its part of the path. -/
def parent? (path : Path) : Option Path :=
  match path.pieces with
  | [] => none
  | first :: rest =>
    -- Idle pieces at the end belong to the last component.
    match dropIdleEnd rest with
    -- The root and the empty path have no parent.
    | [] => if first = "" then none else some ⟨""⟩
    | body =>
      let above := dropIdleEnd body.dropLast
      some (if above = [] ∧ first = "" then ⟨"/"⟩ else ofPieces (first :: above))

/-- A path and its parents, nearest first, as long as there is one and the budget lasts. -/
def ancestorsWithin : Nat → Path → List Path
  | 0, _ => []
  | budget + 1, path =>
    path ::
      match path.parent? with
      | some above => ancestorsWithin budget above
      | none => []

/-- A path and all its parents, nearest first; each is shorter than the one before. -/
def ancestors (path : Path) : List Path :=
  ancestorsWithin (path.text.length + 1) path

/-- The last component, if it names an entry. -/
def fileName? (path : Path) : Option String :=
  match path.components.getLast? with
  | some (.name name) => some name
  | _ => none

/-- The last name without its last suffix; a dot at the start of a name begins no suffix. -/
def fileStem? (path : Path) : Option String :=
  path.fileName?.map fun name =>
    let reversed := name.toList.reverse
    match reversed.dropWhile (· ≠ '.') with
    -- Without a dot, or with one at the start only, the name is all stem.
    | [] | [_] => name
    | _ :: stem => String.ofList stem.reverse

/-- The pieces left after components have been matched in order. -/
def stripPieces : List String → List Component → Option (List String)
  | pieces, [] => some pieces
  | [], _ :: _ => none
  | piece :: pieces, component :: components =>
    match component? piece with
    -- An idle piece is no component and matches none.
    | none => stripPieces pieces (component :: components)
    | some found => if found = component then stripPieces pieces components else none

/-- The rest of a path below a base that its components begin with. -/
def strip? (path base : Path) : Option Path :=
  match base.components with
  -- A base without components is the start of every path.
  | [] => some path.trimmed
  | first :: components =>
    match path.pieces with
    | [] => none
    | piece :: pieces =>
      if path.firstComponent? piece = some first then
        (stripPieces pieces components).map fun left =>
          ofPieces (dropIdleEnd (left.dropWhile isIdle))
      else none

end Path

end BoardConfig
