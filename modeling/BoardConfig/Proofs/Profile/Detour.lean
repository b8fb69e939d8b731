import BoardConfig.Proofs.Profile.Walk

/-!
A profile so deep in the file system that no path from the root is short enough for its file. Only the
spelling of the path tells such a file from others, so a base that leads back to it is taken for another
one: the walk along the bases reads the file again and again, until the path itself has become too long.
-/

namespace BoardConfig

open FileSystem

/-- The name of a directory to go through. -/
def wayName : Name := ⟨"d", by decide⟩

/-- The name of a profile's file. -/
def selfName : Name := ⟨"a.toml", by decide⟩

/-- The base that leads through the directory and back to the file. -/
def detourText : String := "d/../a.toml"

/-- The pieces of so many ways through the directory and back. -/
def detours : Nat → List String
  | 0 => []
  | count + 1 => detours count ++ ["d", ".."]

/-- The path to the file that goes so many times through the directory. -/
def detourPath (count : Nat) : Path :=
  .ofPieces (detours count ++ ["a.toml"])

/-- Each way has two pieces. -/
theorem length_detours (count : Nat) : (detours count).length = 2 * count := by
  -- Induction on the number of ways.
  induction count with
  | zero => rfl
  | succ count ih =>
    rw [detours, List.length_append, ih]
    rfl

/-- The first way begins with a step into the directory. -/
theorem exists_detours_succ (count : Nat) : ∃ rest, detours (count + 1) = "d" :: rest := by
  -- Induction on the number of ways, which are added at the end.
  induction count with
  | zero => exact ⟨[".."], rfl⟩
  | succ count ih =>
    obtain ⟨rest, starts⟩ := ih
    exact ⟨rest ++ ["d", ".."], by rw [detours, starts, List.cons_append]⟩

/-- No piece on the way has a slash or is idle. -/
theorem detours_plain {count : Nat} {piece : String} (among : piece ∈ detours count ++ ["a.toml"]) :
    '/' ∉ piece.toList ∧ '\x00' ∉ piece.toList ∧ ¬ isIdle piece := by
  -- There are only three different pieces.
  have listed : piece ∈ ["d", "..", "a.toml"] := by
    induction count with
    | zero =>
      simp only [detours, List.nil_append, List.mem_singleton] at among
      simp [among]
    | succ count ih =>
      simp only [detours, List.mem_append, List.mem_cons, List.not_mem_nil, or_false] at among ih ⊢
      grind
  simp only [List.mem_cons, List.not_mem_nil, or_false] at listed
  rcases listed with rfl | rfl | rfl <;> decide

/-- The path has these pieces. -/
theorem pieces_detourPath (count : Nat) : (detourPath count).pieces = detours count ++ ["a.toml"] :=
  Path.pieces_ofPieces (by simp) fun _ among => (detours_plain among).1

/-- The path does not begin at the root. -/
theorem isAbsolute_detourPath (count : Nat) : (detourPath count).isAbsolute = false := by
  -- An absolute path begins with an idle piece.
  refine Bool.eq_false_iff.2 fun absolute => ?_
  have starts := Path.head?_pieces absolute
  rw [pieces_detourPath] at starts
  exact (detours_plain (List.mem_of_mem_head? starts)).2.2 (by decide)

/-- Each way through the directory makes the path five bytes longer. -/
theorem utf8ByteSize_detourPath (count : Nat) : (detourPath count).text.utf8ByteSize = 5 * count + 6 := by
  -- A text has one byte less than its pieces with a slash behind each.
  have ways : spelledSize (detours count) = 5 * count := by
    induction count with
    | zero => rfl
    | succ count ih =>
      have pair : spelledSize ["d", ".."] = 5 := by decide
      rw [detours, spelledSize_append, ih, pair]
      omega
  have size := (detourPath count).utf8ByteSize_add_one
  have last : spelledSize ["a.toml"] = 7 := by decide
  rw [pieces_detourPath, spelledSize_append, ways, last] at size
  omega

/-- Beside the file at such a path, its base is at the path that goes through the directory once more. -/
theorem join_detourText (count : Nat) :
    ((detourPath count).parent?.getD ⟨""⟩).join ⟨detourText⟩ = detourPath (count + 1) := by
  -- The parent keeps the pieces before the name, and the base's pieces come behind.
  obtain ⟨kept, idle, parts, _, idles, joined⟩ := Path.join_parent (pieces_detourPath count)
    (by decide) (show (⟨detourText⟩ : Path).isAbsolute = false by decide)
  -- None of the pieces before the name is idle, so none is dropped.
  have none : idle = [] := by
    refine List.eq_nil_iff_forall_not_mem.2 fun piece among => ?_
    have listed : piece ∈ detours count ++ ["a.toml"] := by simp [parts, among]
    exact (detours_plain listed).2.2 (idles piece among)
  have pieces : (⟨detourText⟩ : Path).pieces = ["d", "..", "a.toml"] := by decide
  rw [none, List.append_nil] at parts
  rw [joined, ← parts, pieces, detourPath, detours, List.append_assoc]
  rfl

/-- Every piece of the path counts as a component. -/
theorem length_components_detourPath (count : Nat) :
    (detourPath count).components.length = 2 * count + 1 := by
  -- The pieces are those of the path as it was joined.
  have plain : ∀ piece ∈ detours count ++ ["a.toml"], '/' ∉ piece.toList :=
    fun _ among => (detours_plain among).1
  -- There are no idle pieces at either end, nor between.
  obtain ⟨first, rest, parts⟩ := List.exists_cons_of_ne_nil (List.concat_ne_nil "a.toml" (detours count))
  have busy : ¬ isIdle first := (detours_plain (parts ▸ List.mem_cons_self)).2.2
  have whole : dropIdleEnd ((detours count ++ ["a.toml"]).dropWhile isIdle) =
      detours count ++ ["a.toml"] := by
    rw [parts, List.dropWhile_cons_of_neg busy, ← parts]
    exact dropIdleEnd_of_last _ (by decide)
  have components := Path.components_ofPieces plain
  rw [whole] at components
  have counts : ∀ piece ∈ detours count ++ ["a.toml"], (component? piece).isSome := by
    intro piece among
    rw [Option.isSome_iff_ne_none, ne_eq, Path.component?_eq_none_iff]
    exact (detours_plain among).2.2
  rw [detourPath, components, List.length_filterMap_eq_countP, List.countP_eq_length.2 counts,
    List.length_append, length_detours]
  rfl

/-- A working directory too deep for a path from the root, with a profile that leads back to itself. -/
structure LeadsBack (fs : FileSystem) (document : String) (file : ProfileFile) : Prop where
  /-- The names of the directory have more bytes than a path may have. -/
  deep : pathLimit < spelledSize (fs.cwd.map (·.text))
  here : fs.entryAt? fs.cwd = some .directory
  way : fs.entryAt? (wayName :: fs.cwd) = some .directory
  self : fs.entryAt? (selfName :: fs.cwd) = some (.file document.toUTF8)
  parsed : ProfileFile.parse? document = some file
  base : file.base = some detourText

/-- The profile's link at the path that goes so many times through the directory. -/
def detourLink (fs : FileSystem) (file : ProfileFile) (count : Nat) : ProfileLink where
  name := file.nameAt (detourPath count)
  path := detourPath count
  location := selfName :: fs.cwd
  file := file

namespace LeadsBack

variable {fs : FileSystem} {document : String} {file : ProfileFile} {directory : Path}

/-- However often they go through the directory, the pieces of the path lead to the file. -/
theorem walk (back : LeadsBack fs document file) (count : Nat) :
    fs.walk fs.cwd ((detours count ++ ["a.toml"]).map Step.ofPiece) = .ok (selfName :: fs.cwd) := by
  -- One way through the directory ends where it began.
  have around : fs.walk fs.cwd [.enter wayName, .up] = .ok fs.cwd := by
    refine walk_cons_ok_iff.2 ⟨⟨back.here, ?_⟩, walk_cons_ok_iff.2 ⟨⟨back.way, by simp⟩, rfl⟩⟩
    intro name entered
    cases entered
    exact ⟨by decide, _, back.way⟩
  have ways : fs.walk fs.cwd ((detours count).map Step.ofPiece) = .ok fs.cwd := by
    induction count with
    | zero => rfl
    | succ count ih =>
      rw [detours, List.map_append, walk_append ih]
      exact around
  rw [List.map_append, walk_append ways]
  refine walk_cons_ok_iff.2 ⟨⟨back.here, ?_⟩, rfl⟩
  -- The last piece is the file's name.
  intro name entered
  cases entered
  exact ⟨by decide, _, back.self⟩

/-- So does the path itself, unless it is too long. -/
theorem locateFile (back : LeadsBack fs document file) {count : Nat} (short : 5 * count + 6 ≤ pathLimit) :
    fs.locateFile (detourPath count) = .ok (selfName :: fs.cwd, document.toUTF8) := by
  -- None of the three refusals applies: the path is filled, plain and short.
  have filled : (detourPath count).text ≠ "" := by
    intro empty
    have size := utf8ByteSize_detourPath count
    rw [empty, String.utf8ByteSize_empty] at size
    omega
  have acceptable : '\x00' ∉ (detourPath count).text.toList := by
    rw [mem_text_iff (by decide), pieces_detourPath]
    intro zero
    obtain ⟨piece, among, inside⟩ := zero
    exact (detours_plain among).2.1 inside
  have accepted : fs.origin (detourPath count) = .ok (fs.cwd, (detourPath count).pieces) := by
    rw [origin, if_neg filled, if_neg acceptable, if_neg (by rw [utf8ByteSize_detourPath]; omega),
      isAbsolute_detourPath]
    rfl
  -- Its steps go into the directory and back, and then enter the file.
  have leads : fs.locate (detourPath count) = .ok (selfName :: fs.cwd) := by
    rw [locate, accepted, pieces_detourPath]
    exact back.walk count
  simp only [FileSystem.locateFile, leads, back.self]

/-- The path enters what is too deep, so nothing but its own components tells it from others. -/
theorem identity (back : LeadsBack fs document file) (count : Nat) :
    fs.identity (detourPath count) = (detourPath count).components := by
  -- The directory is so deep that any entry of it is out of reach.
  have outside (name : Name) (steps : List Step) : isInReach fs.cwd (.enter name :: steps) = false := by
    have long := Location.utf8ByteSize_path (List.cons_ne_nil name fs.cwd)
    rw [List.map_cons, spelledSize] at long
    have deep := back.deep
    simp only [isInReach, decide_eq_false_iff_not, not_and]
    intro short
    split at short <;> omega
  have unreached : fs.reaches (detourPath count) = false := by
    rw [reaches, isAbsolute_detourPath, pieces_detourPath]
    cases count with
    | zero => exact outside selfName []
    | succ count =>
      obtain ⟨rest, starts⟩ := exists_detours_succ count
      rw [starts]
      exact outside wayName _
  unfold FileSystem.identity canonical?
  rw [unreached]
  cases fs.locate (detourPath count) <;> rfl

/-- The profile is held by its file at each path to it that is short enough. -/
theorem holds (back : LeadsBack fs document file) {count : Nat} (short : 5 * count + 6 ≤ pathLimit) :
    fs.Holds (detourLink fs file count) where
  text := ⟨document, back.locateFile short, back.parsed⟩
  named := rfl

/-- The walk along the profile's bases goes on as long as the path to its file is short enough. -/
theorem walks (back : LeadsBack fs document file) {count : Nat} (short : 5 * count + 1 ≤ pathLimit) :
    fs.Walk directory (detourPath 0) ((List.range count).map (detourLink fs file)) (detourPath count) := by
  -- Induction on the number of spellings that have been read.
  induction count with
  | zero => exact .start
  | succ count ih =>
    have earlier := ih (by omega)
    rw [List.range_succ, List.map_append]
    show fs.Walk _ _ (_ ++ [detourLink fs file count]) _
    refine .step earlier (back.holds (by omega)) ?_ ?_
    · -- Each spelling has other components than those before it.
      intro among
      obtain ⟨link, listed, told⟩ := List.mem_map.1 among
      obtain ⟨other, less, rfl⟩ := List.mem_map.1 listed
      rw [detourLink, detourLink, back.identity, back.identity] at told
      have same := congrArg List.length told
      rw [length_components_detourPath, length_components_detourPath] at same
      have below := List.mem_range.1 less
      omega
    · -- The base is beside the file, and the path to it goes through the directory once more.
      have names := @NamesBase.path directory (detourLink fs file count) _ back.base (.inl (by decide))
      rwa [detourLink, join_detourText] at names

/--
A profile whose file is out of reach is read at every spelling that is short enough, and then not found.

Each of these spellings leads to the one file, and at none of them the walk is told to be in a cycle.
-/
theorem load_eq (back : LeadsBack fs document file) (schema : Schema) :
    Profile.load fs schema directory (.file (detourPath 0)) = .error (.notFound (detourPath 818)) := by
  -- The walk goes on as long as spellings are short enough, and stops at the first that is not.
  have walk : fs.Walk directory (detourPath 0) ((List.range 818).map (detourLink fs file))
      (detourPath 818) := back.walks (by decide)
  -- The last spelling has a byte more than a path may have.
  have absent : fs.isFile (detourPath 818) = false := by
    refine isFile_of_long ?_
    rw [utf8ByteSize_detourPath]
    decide
  exact Profile.load_of_stops_error schema walk (.missing absent)

end LeadsBack

/-- Directories inside each other, as many as there are. -/
def nested : Nat → List (Location × Entry)
  | 0 => []
  | depth + 1 => (List.replicate (depth + 1) wayName, .directory) :: nested depth

/-- The entries are the directories that are not too deep. -/
theorem mem_nested {depth : Nat} {entry : Location × Entry} :
    entry ∈ nested depth ↔ ∃ level < depth, entry = (List.replicate (level + 1) wayName, .directory) := by
  -- Induction on the depth, which adds the lowest directory.
  induction depth with
  | zero => simp [nested]
  | succ depth ih =>
    rw [nested, List.mem_cons, ih]
    constructor
    · intro among
      -- The entry is the lowest directory or one above it.
      obtain rfl | ⟨level, below, rfl⟩ := among
      · exact ⟨depth, by omega, rfl⟩
      · exact ⟨level, by omega, rfl⟩
    · intro found
      obtain ⟨level, below, rfl⟩ := found
      -- The level is the last one or below it.
      rcases Nat.lt_succ_iff_lt_or_eq.1 below with earlier | rfl
      · exact .inr ⟨level, earlier, rfl⟩
      · exact .inl rfl

/-- No two of them are the same, as each is at a level of its own. -/
theorem nodup_nested (depth : Nat) : ((nested depth).map (·.1)).Nodup := by
  -- Induction on the depth: the lowest directory is deeper than all others.
  induction depth with
  | zero => exact List.nodup_nil
  | succ depth ih =>
    rw [nested, List.map_cons, List.nodup_cons]
    refine ⟨fun again => ?_, ih⟩
    obtain ⟨entry, among, same⟩ := List.mem_map.1 again
    obtain ⟨level, below, rfl⟩ := mem_nested.1 among
    have lengths := congrArg List.length same
    simp only [List.length_replicate] at lengths
    omega

/-- The profile's text. -/
def deepDocument : String := "extends = \"d/../a.toml\"\n"

/-- The profile. -/
def deepProfile : ProfileFile :=
  ⟨none, none, some detourText, ⟨[], by simp⟩⟩

/-- The profile as the only file, inside so many directories, with one more beside it. -/
def deepFiles (depth : Nat) : FileSystem where
  entries := (selfName :: List.replicate depth wayName, .file deepDocument.toUTF8) :: nested (depth + 1)
  -- The file's name is not that of a directory.
  distinct := by
    rw [List.map_cons, List.nodup_cons]
    refine ⟨fun again => ?_, nodup_nested _⟩
    obtain ⟨entry, among, same⟩ := List.mem_map.1 again
    obtain ⟨level, _, rfl⟩ := mem_nested.1 among
    rw [List.replicate_succ, List.cons.injEq] at same
    exact absurd same.1 (by decide)
  -- Each directory is in the one that is a level above, and the file is in the last but one.
  rooted := by
    have around (level : Nat) (below : level ≤ depth) : List.replicate level wayName = [] ∨
        (List.replicate level wayName, Entry.directory) ∈
          (selfName :: List.replicate depth wayName, .file deepDocument.toUTF8) :: nested (depth + 1) := by
      cases level with
      | zero => exact .inl rfl
      | succ level => exact .inr (.tail _ (mem_nested.2 ⟨level, by omega, rfl⟩))
    intro entry among
    rcases List.mem_cons.1 among with rfl | among
    · exact around depth (Nat.le_refl depth)
    · obtain ⟨level, below, rfl⟩ := mem_nested.1 among
      exact around level (by omega)
  cwd := List.replicate depth wayName

/-- There is one file. -/
theorem files_deepFiles (depth : Nat) :
    (deepFiles depth).files = [selfName :: List.replicate depth wayName] := by
  -- The file is the first entry.
  unfold FileSystem.files
  -- All entries besides the first are directories.
  refine congrArg (_ :: ·) (List.filterMap_eq_nil_iff.2 fun entry among => ?_)
  obtain ⟨level, _, rfl⟩ := mem_nested.1 among
  rfl

/-- So many directories are too deep for a path from the root, and the profile leads back to itself. -/
theorem leadsBack_deepFiles {depth : Nat} (deep : 2048 ≤ depth) :
    LeadsBack (deepFiles depth) deepDocument deepProfile where
  deep := by
    -- Each directory adds its name and a slash.
    have size (level : Nat) : spelledSize ((List.replicate level wayName).map (·.text)) = 2 * level := by
      induction level with
      | zero => rfl
      | succ level ih =>
        have name : wayName.text.utf8ByteSize = 1 := by decide
        rw [List.replicate_succ, List.map_cons, spelledSize, ih, name]
        omega
    have limit : pathLimit = 4095 := rfl
    have whole : (deepFiles depth).cwd = List.replicate depth wayName := rfl
    rw [whole, size]
    omega
  here := by
    cases depth with
    | zero => rfl
    | succ depth =>
      exact findAt_of_mem (deepFiles (depth + 1)).distinct
        (.tail _ (mem_nested.2 ⟨depth, by omega, rfl⟩))
  way := findAt_of_mem (deepFiles depth).distinct (.tail _ (mem_nested.2 ⟨depth, by omega, rfl⟩))
  self := findAt_of_mem (deepFiles depth).distinct (.head _)
  parsed := by
    have characters : deepDocument.toList = _ := String.toList_ofList
    rw [ProfileFile.parse?, Toml.Table.parse?, characters]
    rfl
  base := rfl

/--
Where paths from the root are too long, a walk visits the only file 818 times and meets no cycle.

It goes on until the path to the file has itself become too long.
-/
theorem load_reads_again :
    (deepFiles 2048).files.length = 1 ∧
    (∃ links, (deepFiles 2048).Walk ⟨""⟩ (detourPath 0) links (detourPath 818) ∧ links.length = 818 ∧
      ∀ link ∈ links, (deepFiles 2048).locate link.path = .ok (selfName :: List.replicate 2048 wayName)) ∧
    Profile.load (deepFiles 2048) ⟨[], []⟩ ⟨""⟩ (.file (detourPath 0)) =
      .error (.notFound (detourPath 818)) := by
  -- The directory to work in is so deep that paths from the root to it are too long.
  have back : LeadsBack (deepFiles 2048) deepDocument deepProfile := leadsBack_deepFiles (Nat.le_refl _)
  refine ⟨by rw [files_deepFiles]; rfl, ⟨_, back.walks (by decide), ?_, fun link among => ?_⟩,
    back.load_eq _⟩
  · rw [List.length_map, List.length_range]
  · obtain ⟨count, less, rfl⟩ := List.mem_map.1 among
    have below := List.mem_range.1 less
    -- Up to the last one, each spelling is short enough to be looked at.
    have limit : pathLimit = 4095 := rfl
    exact (locateFile_ok (back.locateFile (by omega))).1

end BoardConfig
