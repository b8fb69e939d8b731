import BoardConfig.FileSystem.Resolve

/-! Creating directories, and replacing files as a whole. -/

namespace BoardConfig

/-- The last step of a path, as an operation sees it that makes or replaces an entry. -/
structure Target where
  /-- The directory that the last step is taken in. -/
  directory : Location
  last : Step
  /-- Whether slashes follow it. -/
  slash : Bool
  deriving DecidableEq, Repr

namespace FileSystem

/-- The last step of a path whose directory exists; the root alone has none. -/
def target (fs : FileSystem) (path : Path) : Except OsError (Option Target) :=
  match fs.origin path with
  | .error e => .error e
  | .ok (start, pieces) =>
    let reversed := pieces.reverse
    match reversed.dropWhile (· = "") with
    -- Without a piece that is not blank the path is the root.
    | [] => .ok none
    | last :: above =>
      -- The idle step at the end makes sure that the steps before the last end in a directory.
      match fs.walk start (above.reverse.map Step.ofPiece ++ [.stay]) with
      | .error e => .error e
      | .ok directory =>
        .ok (some { directory, last := .ofPiece last, slash := reversed.head? = some "" })

/-- Creates one directory in a directory that exists. -/
def createDirectory (fs : FileSystem) (path : Path) : Except OsError FileSystem :=
  match fs.target path with
  | .error e => .error e
  -- The root exists already.
  | .ok none => .error .alreadyExists
  | .ok (some target) =>
    match target.last with
    | .enter name =>
      match fs.lookUp name target.directory with
      | .error e => .error e
      | .ok none => .ok (fs.put (name :: target.directory) .directory)
      | .ok (some _) => .error .alreadyExists
    | _ => .error .alreadyExists

/-- Creates the first of some directories, after those behind it where one of them is missing. -/
def createAlong : List Path → FileSystem → Except OsError Unit × FileSystem
  | [], fs => (.error .notFound, fs)
  | path :: above, fs =>
    if path.text = "" then (.ok (), fs)
    else
      match fs.createDirectory path with
      -- The directory above exists, so this one can be made at once.
      | .ok fs => (.ok (), fs)
      -- Some directory above is missing, and is made before a second attempt.
      | .error .notFound =>
        match createAlong above fs with
        | (.error e, fs) => (.error e, fs)
        | (.ok (), fs) =>
          match fs.createDirectory path with
          | .ok fs => (.ok (), fs)
          | .error e => if (fs.directory? path).isSome then (.ok (), fs) else (.error e, fs)
      | .error e => if (fs.directory? path).isSome then (.ok (), fs) else (.error e, fs)

/-- Creates a directory and the missing ones above it; the state after a failure keeps those made before. -/
def createDirectories (fs : FileSystem) (path : Path) : Except OsError Unit × FileSystem :=
  createAlong path.ancestors fs

/-- A text of at least three `x` can name an entry. -/
theorem isEntryName_replicate (count : Nat) :
    isEntryName (String.ofList (List.replicate (count + 3) 'x')) := by
  -- The idle texts and the step up are shorter.
  have differs (text : String) (short : text.length < 3) :
      String.ofList (List.replicate (count + 3) 'x') ≠ text := by
    intro same
    rw [← same, String.length_ofList, List.length_replicate] at short
    omega
  simp [isEntryName, isIdle, differs "" (by decide), differs "." (by decide),
    differs ".." (by decide)]

/-- A name longer than all of some names together. -/
def freshName (names : List Name) : Name where
  text := String.ofList (List.replicate ((names.flatMap (·.text.toList)).length + 3) 'x')
  isName := isEntryName_replicate _

/-- Moves a file onto a path, in place of a file that is there. -/
def moveOnto (fs : FileSystem) (source : Location) (contents : ByteArray) (path : Path) :
    Except OsError FileSystem :=
  match fs.target path with
  | .error e => .error e
  | .ok none => .error .busy
  | .ok (some target) =>
    match target.last with
    | .enter name =>
      match fs.lookUp name target.directory with
      | .error e => .error e
      | .ok there =>
        -- A slash behind the name asks for a directory, which the file is not.
        if target.slash then .error .notADirectory
        else if there = some .directory then .error .isADirectory
        else .ok ((fs.erase source).put (name :: target.directory) (.file contents))
    | _ => .error .busy

/-- Whether the absolute path of a temporary file in a directory, whose name has ten bytes, is too long. -/
def isTooDeep (fs : FileSystem) (directory : Path) : Bool :=
  let temporary := ((Location.path fs.cwd).join directory).join ⟨"xxxxxxxxxx"⟩
  pathLimit < temporary.text.utf8ByteSize

/-- Writes a temporary file into a directory and moves it onto a path; a failure removes it again. -/
def replace (fs : FileSystem) (directory path : Path) (contents : ByteArray) :
    Except OsError Unit × FileSystem :=
  match fs.directory? directory with
  | none => (.error .notFound, fs)
  | some location =>
    if fs.isTooDeep directory then (.error .tooLong, fs)
    else
      -- The temporary file stands in the same directory under a name that nothing there has.
      let temporary := freshName (fs.namesIn location) :: location
      let written := fs.put temporary (.file contents)
      match written.moveOnto temporary contents path with
      | .ok fs => (.ok (), fs)
      | .error e => (.error e, written.erase temporary)

/-- The directory that a file's temporary neighbour goes to. -/
def directoryOf (path : Path) : Path :=
  match path.parent? with
  | some above => if above.text = "" then ⟨"."⟩ else above
  | none => ⟨"."⟩

/-- Makes a file hold exactly a text, and tells whether it had to be written for that. -/
def writeIfChanged (fs : FileSystem) (path : Path) (text : String) :
    Except OsError Bool × FileSystem :=
  match fs.isUpToDate path text with
  | .error e => (.error e, fs)
  | .ok true => (.ok false, fs)
  | .ok false =>
    match fs.createDirectories (directoryOf path) with
    | (.error e, fs) => (.error e, fs)
    | (.ok (), fs) =>
      match fs.replace (directoryOf path) path text.toUTF8 with
      | (.ok (), fs) => (.ok true, fs)
      | (.error e, fs) => (.error e, fs)

/-- Writes a file in place, after creating the directories above it. -/
def write (fs : FileSystem) (path : Path) (contents : ByteArray) :
    Except OsError Unit × FileSystem :=
  match fs.createDirectories (path.parent?.getD ⟨""⟩) with
  | (.error e, fs) => (.error e, fs)
  | (.ok (), fs) =>
    match fs.target path with
    | .error e => (.error e, fs)
    | .ok none => (.error .isADirectory, fs)
    | .ok (some target) =>
      match target.last with
      | .enter name =>
        if target.slash then (.error .isADirectory, fs)
        else
          match fs.lookUp name target.directory with
          | .error e => (.error e, fs)
          | .ok (some .directory) => (.error .isADirectory, fs)
          | .ok _ => (.ok (), fs.put (name :: target.directory) (.file contents))
      | _ => (.error .isADirectory, fs)

/-- Removes a file, or a directory after all it holds; a path that ends in a dot leaves it empty. -/
def remove (fs : FileSystem) (path : Path) : Except OsError Unit × FileSystem :=
  match fs.locate path with
  | .error e => (.error e, fs)
  | .ok location =>
    -- What the directory holds goes first, whatever becomes of the directory itself.
    let emptied := fs.eraseBelow location
    match emptied.target path with
    | .error .notFound => (.ok (), emptied)
    | .error e => (.error e, emptied)
    | .ok none => (.error .busy, emptied)
    | .ok (some target) =>
      match target.last with
      | .enter _ => (.ok (), emptied.erase location)
      | _ => (.error .noName, emptied)

end FileSystem

end BoardConfig
