import BoardConfig.Proofs.FileSystem.Replacement
import BoardConfig.Proofs.Path.Joining

/-! Two file systems that hold one tree, each below a place of its own, and paths that lead to it alike. -/

namespace BoardConfig

/-- Whether steps that begin so many directories below a place never lead above it. -/
def staysBelow : Nat → List Step → Bool
  | _, [] => true
  | depth, .stay :: rest => staysBelow depth rest
  | 0, .up :: _ => false
  | depth + 1, .up :: rest => staysBelow depth rest
  | depth, .enter _ :: rest => staysBelow (depth + 1) rest

/-- Steps that stay below a place do so at their beginning. -/
theorem staysBelow_of_append {depth : Nat} {steps others : List Step}
    (below : staysBelow depth (steps ++ others)) : staysBelow depth steps := by
  -- The depth changes with each step in the same way, whatever comes later.
  induction steps generalizing depth with
  | nil => rfl
  | cons step rest ih =>
    cases step with
    | stay => exact ih below
    | enter name => exact ih below
    | up =>
      cases depth with
      | zero => exact below
      | succ depth => exact ih below

/-- Steps that do not lead up leave no place that the steps before them stay below. -/
theorem staysBelow_append {depth : Nat} {steps others : List Step}
    (below : staysBelow depth steps) (level : Step.up ∉ others) :
    staysBelow depth (steps ++ others) := by
  -- Induction on the first steps, with the depth that they have come to.
  induction steps generalizing depth with
  | nil =>
    -- Steps that do not lead up stay below any place.
    rw [List.nil_append]
    clear below
    induction others generalizing depth with
    | nil => rfl
    | cons step rest ih =>
      simp only [List.mem_cons, not_or] at level
      cases step with
      | stay => exact ih level.2
      | enter name => exact ih level.2
      | up => exact absurd rfl level.1
  | cons step rest ih =>
    cases step with
    | stay => exact ih below
    | enter name => exact ih below
    | up =>
      cases depth with
      | zero => exact below
      | succ depth => exact ih below

/-- Whether steps below two places lead alike: they stay below them, or both places are the root. -/
def Confined (top otherTop : Location) (depth : Nat) (steps : List Step) : Prop :=
  (top = [] ∧ otherTop = []) ∨ staysBelow depth steps

/-- Steps that lead alike do so at their beginning. -/
theorem Confined.of_append {top otherTop : Location} {depth : Nat} {steps others : List Step}
    (confined : Confined top otherTop depth (steps ++ others)) :
    Confined top otherTop depth steps :=
  confined.imp_right staysBelow_of_append

/-- A step that stays does not leave the places either. -/
theorem Confined.append_stay {top otherTop : Location} {depth : Nat} {steps : List Step}
    (confined : Confined top otherTop depth steps) :
    Confined top otherTop depth (steps ++ [.stay]) :=
  confined.imp_right fun below => staysBelow_append below (by simp)

/-- Two results that are related values, or errors both. -/
inductive Together {ε δ α β : Type} (related : α → β → Prop) : Except ε α → Except δ β → Prop
  | ok {value : α} {other : β} (same : related value other) : Together related (.ok value) (.ok other)
  | error (e : ε) (other : δ) : Together related (.error e) (.error other)

/-- Two results that go together are values both or errors both. -/
theorem Together.cases {ε δ α β : Type} {related : α → β → Prop} {result : Except ε α}
    {other : Except δ β} (together : Together related result other) :
    (∃ e otherError, result = .error e ∧ other = .error otherError) ∨
      ∃ value otherValue, result = .ok value ∧ other = .ok otherValue ∧ related value otherValue := by
  -- The two constructors are the two cases.
  cases together with
  | ok same => exact .inr ⟨_, _, rfl, rfl, same⟩
  | error e otherError => exact .inl ⟨_, _, rfl, rfl⟩

/-- Related values are related by all that follows from that. -/
theorem Together.imp {ε δ α β : Type} {related weaker : α → β → Prop} {result : Except ε α}
    {other : Except δ β} (together : Together related result other)
    (follows : ∀ value otherValue, related value otherValue → weaker value otherValue) :
    Together weaker result other := by
  -- Only a pair of values has anything to relate.
  cases together with
  | ok same => exact .ok (follows _ _ same)
  | error e otherError => exact .error e otherError

namespace FileSystem

/-- Two file systems that hold the same below two places. -/
structure Alike (first : FileSystem) (top : Location) (second : FileSystem) (otherTop : Location) :
    Prop where
  /-- At the same depth below the two places the same stands. -/
  same : ∀ inner : Location, first.entryAt? (inner ++ top) = second.entryAt? (inner ++ otherTop)

variable {first second : FileSystem} {top otherTop inner : Location}

/-- Steps from the same depth lead to the same depth, or fail alike. -/
theorem Alike.walk (alike : Alike first top second otherTop) {steps : List Step}
    (confined : Confined top otherTop inner.length steps) :
    ∃ result : Except OsError Location,
      first.walk (inner ++ top) steps = result.map (· ++ top) ∧
      second.walk (inner ++ otherTop) steps = result.map (· ++ otherTop) := by
  -- The induction follows the steps, each of which finds the same in both trees.
  induction steps generalizing inner with
  | nil => exact ⟨.ok inner, rfl, rfl⟩
  | cons step rest ih =>
    simp only [FileSystem.walk, alike.same inner]
    cases second.entryAt? (inner ++ otherTop) with
    | none => exact ⟨.error .notFound, rfl, rfl⟩
    | some entry =>
      cases entry with
      | file contents => exact ⟨.error .notADirectory, rfl, rfl⟩
      | directory =>
        cases step with
        | stay => exact ih confined
        | up =>
          cases inner with
          | nil =>
            -- Only the root is above itself, and no other place may be left upwards.
            obtain ⟨rfl, rfl⟩ : top = [] ∧ otherTop = [] := confined.resolve_right (by simp [staysBelow])
            exact @ih [] (.inl ⟨rfl, rfl⟩)
          | cons name above => exact ih confined
        | enter name =>
          -- The name is looked up one deeper below both places, where the same stands.
          have there := alike.same (name :: inner)
          simp only [List.cons_append] at there
          simp only [lookUp, there]
          by_cases long : nameLimit < name.text.utf8ByteSize
          · exact ⟨.error .tooLong, by simp [long, Except.map], by simp [long, Except.map]⟩
          · simp only [long, if_false]
            cases second.entryAt? (name :: (inner ++ otherTop)) with
            | none => exact ⟨.error .notFound, rfl, rfl⟩
            | some entry =>
              have onwards : Confined top otherTop (name :: inner).length rest := confined
              exact ih onwards

/-- A step that can be taken is taken, and the others from where it leads. -/
theorem walk_of_passable {fs : FileSystem} {start : Location} {step : Step}
    (passable : fs.Passable start step) (rest : List Step) :
    fs.walk start (step :: rest) = fs.walk (step.move start) rest := by
  -- Each kind of step asks for the directory, and entering asks for the entry as well.
  obtain ⟨directory, enters⟩ := passable
  cases step with
  | stay => simp only [FileSystem.walk, directory, Step.move]
  | up => simp only [FileSystem.walk, directory, Step.move]
  | enter name =>
    obtain ⟨short, entry, there⟩ := enters name rfl
    simp only [FileSystem.walk, directory, lookUp, Nat.not_lt.2 short, if_false, there, Step.move]

/-- Steps behind others that arrive go on from there. -/
theorem walk_append {fs : FileSystem} {start middle : Location} {steps : List Step}
    (arrives : fs.walk start steps = .ok middle) (others : List Step) :
    fs.walk start (steps ++ others) = fs.walk middle others := by
  -- The steps that arrive can all be taken, and are then out of the way.
  induction steps generalizing start with
  | nil =>
    cases arrives
    rfl
  | cons step rest ih =>
    obtain ⟨passable, later⟩ := walk_cons_ok_iff.1 arrives
    rw [List.cons_append, walk_of_passable passable]
    exact ih later

/-- A character other than the slash stands in a path exactly if it stands in a piece of it. -/
theorem mem_text_iff {path : Path} {c : Char} (other : c ≠ '/') :
    c ∈ path.text.toList ↔ ∃ piece ∈ path.pieces, c ∈ piece.toList := by
  -- The text is its pieces with slashes between them.
  have whole := congrArg (fun path => path.text.toList) path.ofPieces_pieces
  simp only [Path.toList_ofPieces] at whole
  constructor
  · intro among
    rw [← whole] at among
    obtain ⟨run, member, inside⟩ := (mem_intercalate among).resolve_left other
    obtain ⟨piece, pieces, rfl⟩ := List.mem_map.1 member
    exact ⟨piece, pieces, inside⟩
  · intro among
    obtain ⟨piece, pieces, inside⟩ := among
    rw [← whole]
    exact mem_intercalate_of_mem (List.mem_map_of_mem pieces) inside

/-- Steps behind which only idle ones are left lead where all of them do. -/
theorem walk_of_idle {fs : FileSystem} {start arrival : Location} {steps : List Step}
    {idle : List String} (arrives : fs.walk start (steps ++ idle.map Step.ofPiece) = .ok arrival)
    (idles : ∀ piece ∈ idle, isIdle piece) : fs.walk start steps = .ok arrival := by
  -- The walk is cut where the idle steps begin.
  obtain ⟨middle, walked, stays⟩ := walk_append_ok_iff.1 arrives
  -- The idle steps end where they began, which is where the others had arrived.
  have there := walk_ok stays
  rw [follow_idle middle idles] at there
  rw [there, walked]

/-- A path that leads somewhere has a text without a zero character, and not too long a one. -/
theorem accepted_of_locate {fs : FileSystem} {path : Path} {location : Location}
    (leads : fs.locate path = .ok location) :
    path.text ≠ "" ∧ '\x00' ∉ path.text.toList ∧ path.text.utf8ByteSize ≤ pathLimit := by
  unfold FileSystem.locate FileSystem.origin at leads
  -- Each of the three refusals would keep the path from leading anywhere.
  by_cases empty : path.text = ""
  · simp [empty] at leads
  by_cases zero : '\x00' ∈ path.text.toList
  · simp [empty, zero] at leads
  by_cases long : pathLimit < path.text.utf8ByteSize
  · simp [empty, zero, long] at leads
  · exact ⟨empty, zero, Nat.le_of_not_lt long⟩

/-- A path that is too long leads to no file. -/
theorem isFile_of_long {fs : FileSystem} {path : Path} (long : pathLimit < path.text.utf8ByteSize) :
    fs.isFile path = false := by
  unfold isFile
  cases leads : fs.locateFile path with
  | error e => rfl
  | ok found =>
    -- What leads to a file leads somewhere, which only short enough paths do.
    have short := (accepted_of_locate (locateFile_ok leads).1).2.2
    omega

/-- A path leads to a directory exactly if it leads to its place and a directory stands there. -/
theorem directory?_eq_some_iff {fs : FileSystem} {path : Path} {location : Location} :
    fs.directory? path = some location ↔
      fs.locate path = .ok location ∧ fs.entryAt? location = some .directory := by
  -- The path is located first, and what stands there is looked at second.
  unfold FileSystem.directory?
  cases fs.locate path with
  | error e => simp
  | ok there =>
    simp only [Except.ok.injEq]
    constructor
    · intro found
      split at found <;> cases found
      exact ⟨rfl, ‹_›⟩
    · intro both
      obtain ⟨rfl, stands⟩ := both
      simp only [stands]

/-- A path comes by a directory: its first pieces lead there, and behind them others are left. -/
structure ComesBy (fs : FileSystem) (place : Location) (rest : List String) (path : Path) : Prop where
  filled : path.text ≠ ""
  /-- The operating system looks at the path at all. -/
  short : path.text.utf8ByteSize ≤ pathLimit
  /-- The pieces before the rest lead to the place. -/
  passes : ∃ front, path.pieces = front ++ rest ∧ (∀ piece ∈ front, '\x00' ∉ piece.toList) ∧
    fs.walk (if path.isAbsolute then [] else fs.cwd) (front.map Step.ofPiece) = .ok place
  /-- There is a directory at the place. -/
  directory : fs.entryAt? place = some .directory

/-- Whether the operating system refuses pieces for a zero character in one of them. -/
def HasZero (pieces : List String) : Prop :=
  ∃ piece ∈ pieces, '\x00' ∈ piece.toList

instance (pieces : List String) : Decidable (HasZero pieces) :=
  inferInstanceAs (Decidable (∃ piece ∈ pieces, '\x00' ∈ piece.toList))

namespace ComesBy

variable {fs : FileSystem} {place : Location} {rest : List String} {path : Path}

/-- A path that comes by a directory is acceptable unless the rest of it has a zero character. -/
theorem origin (comes : fs.ComesBy place rest path) :
    fs.origin path = if HasZero rest then .error .invalidPath
      else .ok (if path.isAbsolute then [] else fs.cwd, path.pieces) := by
  -- The three refusals are for an empty path, a zero character and a long path.
  obtain ⟨front, parts, plain, _⟩ := comes.passes
  -- The pieces that lead to the directory have no zero character, or they would lead nowhere.
  have zero : '\x00' ∈ path.text.toList ↔ HasZero rest := by
    rw [mem_text_iff (by decide), parts]
    constructor
    · intro holds
      obtain ⟨piece, among, inside⟩ := holds
      have later := (List.mem_append.1 among).resolve_left fun before => plain piece before inside
      exact ⟨piece, later, inside⟩
    · intro holds
      obtain ⟨piece, among, inside⟩ := holds
      exact ⟨piece, List.mem_append_right front among, inside⟩
  unfold FileSystem.origin
  rw [if_neg comes.filled]
  simp only [zero, if_neg (Nat.not_lt.2 comes.short)]

/-- A path that comes by a directory goes on from there. -/
theorem locate (comes : fs.ComesBy place rest path) :
    fs.locate path = if HasZero rest then .error .invalidPath
      else fs.walk place (rest.map Step.ofPiece) := by
  -- A zero character can only be in the rest, as the pieces before it lead somewhere.
  obtain ⟨front, parts, _, walked⟩ := comes.passes
  rw [FileSystem.locate, comes.origin]
  by_cases zero : HasZero rest
  · simp only [if_pos zero]
  · -- The pieces before the rest have led to the directory already.
    simp only [if_neg zero]
    rw [parts, List.map_append, walk_append walked]

/-- A place above which a path comes by a directory is a directory. -/
theorem directory_top {inner top : Location} (comes : fs.ComesBy (inner ++ top) rest path) :
    fs.entryAt? top = some .directory := by
  by_cases same : top = inner ++ top
  · rw [same]
    exact comes.directory
  · -- What is above a directory is a directory.
    exact entryAt?_of_suffix comes.directory (List.suffix_append inner top) same

/-- A path that starts at the root comes by it. -/
theorem of_isAbsolute (fs : FileSystem) (absolute : path.isAbsolute)
    (short : path.text.utf8ByteSize ≤ pathLimit) : fs.ComesBy [] path.pieces.tail path where
  filled := Path.filled_of_isAbsolute absolute
  short := short
  passes := by
    -- The empty piece before the first slash stays at the root.
    refine ⟨[""], ?_, by simp, ?_⟩
    · exact List.eq_cons_of_mem_head? (Path.head?_pieces absolute)
    · rw [if_pos absolute]
      rfl
  directory := rfl

/-- A path that leads to a file comes by the directory that holds the file. -/
theorem of_locateFile {location : Location} {contents : ByteArray}
    (leads : fs.locateFile path = .ok (location, contents)) :
    ∃ name, location = name :: location.tail ∧ fs.ComesBy location.tail [name.text] path := by
  -- The last piece of the path names the file, and those before it lead to its directory.
  obtain ⟨above, name, parts, inside, walked⟩ := pieces_of_file leads
  obtain ⟨located, stands⟩ := locateFile_ok leads
  obtain ⟨filled, plain, short⟩ := accepted_of_locate located
  refine ⟨name, inside, filled, short, ⟨above, parts, fun piece among => ?_, walked⟩, ?_⟩
  · -- The piece stands in a path that leads somewhere.
    exact fun zero => plain ((mem_text_iff (by decide)).2 ⟨piece, by simp [parts, among], zero⟩)
  · rw [inside] at stands
    exact entryAt?_above stands

/-- A relative path that starts beside a file comes by the directory that holds the file. -/
theorem beside {relative : Path} {location : Location} {contents : ByteArray}
    (leads : fs.locateFile path = .ok (location, contents)) (filled : relative.text ≠ "")
    (isRelative : relative.isAbsolute = false)
    (short : ((path.parent?.getD ⟨""⟩).join relative).text.utf8ByteSize ≤ pathLimit) :
    fs.ComesBy location.tail relative.pieces ((path.parent?.getD ⟨""⟩).join relative) := by
  -- The parent keeps the pieces that lead to the directory, but for idle ones.
  obtain ⟨above, name, parts, inside, walked⟩ := pieces_of_file leads
  obtain ⟨located, stands⟩ := locateFile_ok leads
  obtain ⟨_, plain, _⟩ := accepted_of_locate located
  obtain ⟨kept, idle, split, idles, pieces, sameStart⟩ :=
    Path.pieces_join_parent parts name.not_isIdle isRelative
  refine ⟨?_, short, ⟨kept, pieces, fun piece among => ?_, ?_⟩, ?_⟩
  · -- The relative path stands at the end of the joined one and is not empty.
    obtain ⟨front, ends⟩ := (path.parent?.getD ⟨""⟩).join_text relative
    simp [ends, String.append_eq_empty_iff, filled]
  · -- A piece of the parent is one of the path's own.
    exact fun zero => plain ((mem_text_iff (by decide)).2 ⟨piece, by simp [parts, split, among], zero⟩)
  · -- Behind the kept pieces the idle ones do not move.
    rw [sameStart]
    rw [split, List.map_append] at walked
    exact walk_of_idle walked idles
  · rw [inside] at stands
    exact entryAt?_above stands

/-- A relative path below a directory comes by that directory. -/
theorem join {root relative : Path} {top : Location} (leads : fs.directory? root = some top)
    (isRelative : relative.isAbsolute = false)
    (short : (root.join relative).text.utf8ByteSize ≤ pathLimit) :
    fs.ComesBy top relative.pieces (root.join relative) := by
  -- The pieces of the directory's path stand in front, but for blank ones at its end.
  obtain ⟨located, directory⟩ := directory?_eq_some_iff.1 leads
  obtain ⟨filled, plain, _⟩ := accepted_of_locate located
  obtain ⟨kept, blanks, parts, blank, _, joined⟩ := Path.pieces_join isRelative
  refine ⟨?_, short, ⟨kept, joined, fun piece among => ?_, ?_⟩, directory⟩
  · rw [Path.join_of_relative isRelative filled]
    simp [String.append_eq_empty_iff, root.slashed_ne_empty]
  · -- A zero character would keep the directory's path from leading there.
    exact fun zero => plain ((mem_text_iff (by decide)).2 ⟨piece, by simp [parts, among], zero⟩)
  · -- Without its blank pieces the directory's path leads there as well.
    have walked := walk_of_locate located
    rw [parts, List.map_append] at walked
    rw [Path.isAbsolute_join isRelative filled]
    exact walk_of_idle walked fun piece among => by simp [isIdle, blank piece among]

end ComesBy

/-- Two paths that come by the same depth below two places and go on alike from there. -/
structure Parallel (first : FileSystem) (top : Location) (second : FileSystem) (otherTop : Location)
    (inner : Location) (rest : List String) (path other : Path) : Prop where
  comes : first.ComesBy (inner ++ top) rest path
  otherComes : second.ComesBy (inner ++ otherTop) rest other
  /-- What is left of both does not tell the two places apart. -/
  confined : Confined top otherTop inner.length (rest.map Step.ofPiece)

namespace Alike

variable {rest : List String} {path other : Path}

/-- Parallel paths lead to the same depth, or fail alike. -/
theorem locate (alike : Alike first top second otherTop)
    (parallel : Parallel first top second otherTop inner rest path other) :
    ∃ result : Except OsError Location,
      first.locate path = result.map (· ++ top) ∧ second.locate other = result.map (· ++ otherTop) := by
  -- Both paths come by their directories, from where the same steps are left.
  rw [parallel.comes.locate, parallel.otherComes.locate]
  -- A zero character in the rest refuses both paths, before any step is taken.
  by_cases zero : HasZero rest
  · exact ⟨.error .invalidPath, by rw [if_pos zero]; rfl, by rw [if_pos zero]; rfl⟩
  · rw [if_neg zero, if_neg zero]
    exact alike.walk parallel.confined

/-- Parallel paths lead to the same file at the same depth, or fail alike. -/
theorem locateFile (alike : Alike first top second otherTop)
    (parallel : Parallel first top second otherTop inner rest path other) :
    ∃ result : Except OsError (Location × ByteArray),
      first.locateFile path = result.map (fun found => (found.1 ++ top, found.2)) ∧
      second.locateFile other = result.map (fun found => (found.1 ++ otherTop, found.2)) := by
  -- The paths lead to the same depth, or nowhere for one reason.
  obtain ⟨result, leads, otherLeads⟩ := alike.locate parallel
  unfold FileSystem.locateFile
  rw [leads, otherLeads]
  cases result with
  | error e => exact ⟨.error e, rfl, rfl⟩
  | ok location =>
    -- At the depth that both lead to the same stands, a file or none.
    simp only [Except.map, alike.same location]
    cases second.entryAt? (location ++ otherTop) with
    | none => exact ⟨.error .notFound, rfl, rfl⟩
    | some entry =>
      cases entry with
      | directory => exact ⟨.error .isADirectory, rfl, rfl⟩
      | file contents => exact ⟨.ok (location, contents), rfl, rfl⟩

/-- Parallel paths compare alike with a text. -/
theorem isUpToDate (alike : Alike first top second otherTop)
    (parallel : Parallel first top second otherTop inner rest path other) (text : String) :
    first.isUpToDate path text = second.isUpToDate other text := by
  -- Comparing reads the file and nothing else.
  obtain ⟨result, leads, otherLeads⟩ := alike.locateFile parallel
  -- Reading keeps the bytes of the file and forgets its place.
  have same : first.read path = second.read other := by
    rw [read, read, leads, otherLeads]
    cases result <;> rfl
  rw [FileSystem.isUpToDate, FileSystem.isUpToDate, same]

/-- Parallel paths lead to directories at the same depth, or neither leads to one. -/
theorem directory? (alike : Alike first top second otherTop)
    (parallel : Parallel first top second otherTop inner rest path other) :
    ∃ found : Option Location, first.directory? path = found.map (· ++ top) ∧
      second.directory? other = found.map (· ++ otherTop) := by
  -- The paths lead to the same depth, where the same stands.
  obtain ⟨result, leads, otherLeads⟩ := alike.locate parallel
  unfold FileSystem.directory?
  rw [leads, otherLeads]
  cases result with
  | error e => exact ⟨none, rfl, rfl⟩
  | ok location =>
    simp only [Except.map, alike.same location]
    cases second.entryAt? (location ++ otherTop) with
    | none => exact ⟨none, rfl, rfl⟩
    | some entry =>
      cases entry with
      | directory => exact ⟨some location, rfl, rfl⟩
      | file contents => exact ⟨none, rfl, rfl⟩

end Alike

end FileSystem

end BoardConfig
