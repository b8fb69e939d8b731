import BoardConfig.FileSystem

/-! Following paths through a file system, and reading what they lead to. -/

namespace BoardConfig.FileSystem

/-- The number of bytes that the name of an entry may have. -/
def nameLimit : Nat := 255

/-- The number of bytes that a path may have. -/
def pathLimit : Nat := 4095

/-- What stands under a name in a directory, if the name is not too long for one. -/
def lookUp (fs : FileSystem) (name : Name) (directory : Location) : Except OsError (Option Entry) :=
  if nameLimit < name.text.utf8ByteSize then .error .tooLong
  else .ok (fs.entryAt? (name :: directory))

/-- Takes steps from a location, each in a directory and to an entry that exists. -/
def walk (fs : FileSystem) : Location → List Step → Except OsError Location
  | location, [] => .ok location
  | location, step :: rest =>
    match fs.entryAt? location with
    | none => .error .notFound
    | some (.file _) => .error .notADirectory
    | some .directory =>
      match step with
      -- Steps within the directory need no entry, and the root is above itself.
      | .stay => walk fs location rest
      | .up => walk fs location.tail rest
      | .enter name =>
        match fs.lookUp name location with
        | .error e => .error e
        | .ok none => .error .notFound
        | .ok (some _) => walk fs (name :: location) rest

/-- Where a path starts, and its pieces from there. -/
@[irreducible]
def origin (fs : FileSystem) (path : Path) : Except OsError (Location × List String) :=
  -- The operating system refuses such a path before it looks at any entry.
  if path.text = "" then .error .notFound
  else if '\x00' ∈ path.text.toList then .error .invalidPath
  else if pathLimit < path.text.utf8ByteSize then .error .tooLong
  else .ok (if path.isAbsolute then [] else fs.cwd, path.pieces)

/-- The location that a path leads to. -/
def locate (fs : FileSystem) (path : Path) : Except OsError Location :=
  match fs.origin path with
  | .ok (start, pieces) => fs.walk start (pieces.map Step.ofPiece)
  | .error e => .error e

/-- The location that a path leads to, which must be a file, with its bytes. -/
def locateFile (fs : FileSystem) (path : Path) : Except OsError (Location × ByteArray) :=
  match fs.locate path with
  | .error e => .error e
  | .ok location =>
    match fs.entryAt? location with
    | some (.file contents) => .ok (location, contents)
    | some .directory => .error .isADirectory
    | none => .error .notFound

/-- The bytes of the file that a path leads to. -/
def read (fs : FileSystem) (path : Path) : Except OsError ByteArray :=
  match fs.locateFile path with
  | .ok (_, contents) => .ok contents
  | .error e => .error e

/-- The text of the file that a path leads to. -/
def readText (fs : FileSystem) (path : Path) : Except OsError String :=
  match fs.read path with
  | .error e => .error e
  | .ok contents =>
    match String.fromUTF8? contents with
    | some text => .ok text
    | none => .error .notText

/-- Whether a path leads to a file. -/
def isFile (fs : FileSystem) (path : Path) : Bool :=
  match fs.locateFile path with
  | .ok _ => true
  | .error _ => false

/-- The directory that a path leads to, if it does. -/
def directory? (fs : FileSystem) (path : Path) : Option Location :=
  match fs.locate path with
  | .error _ => none
  | .ok location =>
    match fs.entryAt? location with
    | some .directory => some location
    | _ => none

/-- The file system with the directory that a path leads to as its working directory. -/
def enter (fs : FileSystem) (path : Path) : Except OsError FileSystem :=
  match fs.locate path with
  | .error e => .error e
  | .ok location =>
    match fs.entryAt? location with
    | some .directory => .ok { fs with cwd := location }
    | some (.file _) => .error .notADirectory
    | none => .error .notFound

/-- Whether the file that a path leads to holds exactly a text; a missing file does not. -/
def isUpToDate (fs : FileSystem) (path : Path) (text : String) : Except OsError Bool :=
  match fs.read path with
  | .ok contents => .ok (contents.data = text.toUTF8.data)
  -- A missing file holds no text, while any other failure leaves the question open.
  | .error .notFound => .ok false
  | .error e => .error e

end BoardConfig.FileSystem
