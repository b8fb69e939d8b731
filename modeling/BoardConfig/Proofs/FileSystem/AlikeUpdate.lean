import BoardConfig.Proofs.FileSystem.Alike

/-! Directories and files made along parallel paths, which leave two file systems alike. -/

namespace BoardConfig

/-- What is fresh among names does not depend on their order. -/
theorem FileSystem.freshName_perm {names others : List Name} (same : names.Perm others) :
    freshName names = freshName others := by
  -- Only the length of all names together counts.
  have lengths := (same.flatMap_right fun name => name.text.toList).length_eq
  unfold freshName
  simp only [lengths]

namespace FileSystem

/-- No name stands twice in a directory. -/
theorem nodup_namesIn (fs : FileSystem) (directory : Location) : (fs.namesIn directory).Nodup := by
  -- Two entries of one name in the directory would stand at one location.
  refine List.Pairwise.filterMap _ ?_ (List.pairwise_map.1 fs.distinct)
  intro entry otherEntry differ name named otherName otherNamed same
  subst same
  obtain ⟨location, _⟩ := entry
  obtain ⟨other, _⟩ := otherEntry
  cases location with
  | nil => simp at named
  | cons head above =>
    cases other with
    | nil => simp at otherNamed
    | cons otherHead otherAbove =>
      simp only [Option.ite_none_right_eq_some, Option.some.injEq] at named otherNamed
      -- Both stand in this directory under this name.
      obtain ⟨rfl, rfl⟩ := named
      obtain ⟨rfl, rfl⟩ := otherNamed
      exact differ rfl

/-- The names in a directory are those under which something stands in it. -/
theorem mem_namesIn_iff {fs : FileSystem} {name : Name} {directory : Location} :
    name ∈ fs.namesIn directory ↔ ∃ entry, fs.entryAt? (name :: directory) = some entry := by
  -- The names are collected from the entries, of which there is one at each place.
  constructor
  · intro member
    obtain ⟨⟨location, entry⟩, among, named⟩ := List.mem_filterMap.1 member
    cases location with
    | nil =>
      -- The root has no name.
      simp at named
    | cons head above =>
      simp only [Option.ite_none_right_eq_some, Option.some.injEq] at named
      obtain ⟨rfl, rfl⟩ := named
      exact ⟨entry, findAt_of_mem fs.distinct among⟩
  · intro there
    obtain ⟨entry, stands⟩ := there
    exact mem_namesIn_of_entryAt? stands

namespace Alike

variable {first second : FileSystem} {top otherTop inner : Location}

/-- At the same depth below the two places the same name is fresh. -/
theorem freshName (alike : Alike first top second otherTop) (inner : Location) :
    FileSystem.freshName (first.namesIn (inner ++ top)) =
      FileSystem.freshName (second.namesIn (inner ++ otherTop)) := by
  -- The same names stand in the two directories, if in another order.
  apply freshName_perm
  rw [List.perm_ext_iff_of_nodup (nodup_namesIn first _) (nodup_namesIn second _)]
  intro name
  rw [mem_namesIn_iff, mem_namesIn_iff, ← List.cons_append, ← List.cons_append,
    alike.same (name :: inner)]

/-- An entry that may take a place below one may take it below the other. -/
theorem admits (alike : Alike first top second otherTop) (name : Name) (inner : Location)
    (entry : Entry) :
    first.admits (name :: (inner ++ top)) entry = second.admits (name :: (inner ++ otherTop)) entry := by
  -- What is asked is what stands around the place and at it, which is the same.
  have there := alike.same (name :: inner)
  simp only [List.cons_append] at there
  simp only [FileSystem.admits, alike.same inner, there]

/-- The same entry at the same depth leaves the two trees alike. -/
theorem put (alike : Alike first top second otherTop) (name : Name) (inner : Location)
    (entry : Entry) :
    Alike (first.put (name :: (inner ++ top)) entry) top
      (second.put (name :: (inner ++ otherTop)) entry) otherTop where
  same place := by
    by_cases admitted : first.admits (name :: (inner ++ top)) entry
    · have otherAdmitted := admitted
      rw [alike.admits] at otherAdmitted
      rw [entryAt?_put admitted, entryAt?_put otherAdmitted, alike.same place]
      -- What is put behind two depths tells them apart no more and no less.
      have here : place ++ top = name :: (inner ++ top) ↔ place = name :: inner := by
        rw [← List.cons_append, List.append_left_inj]
      have there : place ++ otherTop = name :: (inner ++ otherTop) ↔ place = name :: inner := by
        rw [← List.cons_append, List.append_left_inj]
      simp only [here, there]
    · -- An entry that may not take its place changes neither tree.
      have otherRefused := admitted
      rw [alike.admits] at otherRefused
      rw [FileSystem.put, dif_neg admitted, FileSystem.put, dif_neg otherRefused]
      exact alike.same place

end Alike

/-- Pieces that are not all idle are some pieces, the last one that is not idle, and idle ones. -/
theorem split_of_dropIdleEnd {pieces : List String} (busy : dropIdleEnd pieces ≠ []) :
    ∃ above last idle, pieces = above ++ last :: idle ∧ ¬ isIdle last ∧
      (∀ piece ∈ idle, isIdle piece) ∧ pieces.reverse.dropWhile (· = "") ≠ [] := by
  -- The idle pieces at the end are cut off, and one that is not idle is left at the end.
  obtain ⟨idle, parts, idles⟩ := dropIdleEnd_append pieces
  obtain ⟨above, last, ends, busyLast⟩ := last_dropIdleEnd busy
  have split : pieces = above ++ last :: idle := by
    rw [parts, ends]
    simp
  refine ⟨above, last, idle, split, busyLast, idles, fun blank => ?_⟩
  -- The last piece that is not idle is not blank.
  have all := List.dropWhile_eq_nil_iff.1 blank last (by simp [split])
  simp only [decide_eq_true_eq] at all
  simp [isIdle, all] at busyLast

/-- The temporary neighbour of a file with an absolute path goes to the parent. -/
theorem directoryOf_eq_parent {path parent : Path} (isParent : path.parent? = some parent)
    (absolute : parent.isAbsolute) : directoryOf path = parent := by
  -- The other cases are for a path without a parent, or with an empty one.
  simp only [directoryOf, isParent, if_neg (Path.filled_of_isAbsolute absolute)]

/-- Idle pieces do not lead away from a directory. -/
theorem walk_idle {fs : FileSystem} {place : Location}
    (directory : fs.entryAt? place = some .directory) {idle : List String}
    (idles : ∀ piece ∈ idle, isIdle piece) : fs.walk place (idle.map Step.ofPiece) = .ok place := by
  -- Induction on the pieces, each of which is a step that stays.
  induction idle with
  | nil => rfl
  | cons piece rest ih =>
    have first := idles piece List.mem_cons_self
    have stays : Step.ofPiece piece = .stay := by
      have level : piece ≠ ".." := by
        intro up
        simp [isIdle, up] at first
      simp [Step.ofPiece, isEntryName, first, level]
    rw [List.map_cons, stays]
    simp only [FileSystem.walk, directory]
    exact ih fun other among => idles other (List.mem_cons_of_mem _ among)

/-- Pieces that lead to a directory still do with other idle ones at their end. -/
theorem walk_of_dropIdleEnd_eq {fs : FileSystem} {start place : Location} {pieces others : List String}
    (walked : fs.walk start (pieces.map Step.ofPiece) = .ok place)
    (directory : fs.entryAt? place = some .directory)
    (same : dropIdleEnd others = dropIdleEnd pieces) :
    fs.walk start (others.map Step.ofPiece) = .ok place := by
  -- Both paths begin with the same pieces and end with idle ones.
  obtain ⟨idle, parts, idles⟩ := dropIdleEnd_append pieces
  obtain ⟨otherIdle, otherParts, otherIdles⟩ := dropIdleEnd_append others
  -- The pieces before the idle ones lead there already, and the idle ones do not move.
  rw [parts, List.map_append] at walked
  have arrives := walk_of_idle walked idles
  rw [otherParts, same, List.map_append, walk_append arrives]
  exact walk_idle directory otherIdles

/-- A directory that is there already is not created. -/
theorem createDirectory_of_directory? {fs : FileSystem} {path : Path} {location : Location}
    (leads : fs.directory? path = some location) :
    fs.createDirectory path = .error .alreadyExists := by
  -- The path leads to its last step, at which nothing is left to make.
  obtain ⟨located, _⟩ := directory?_eq_some_iff.1 leads
  have walked := located
  unfold FileSystem.locate at walked
  cases accepted : fs.origin path with
  | error e => simp [accepted] at walked
  | ok origin =>
    obtain ⟨start, pieces⟩ := origin
    simp only [accepted] at walked
    cases ends : pieces.reverse.dropWhile (· = "") with
    -- The root has no last step, and is there.
    | nil => simp [createDirectory, FileSystem.target, accepted, ends]
    | cons last above =>
      obtain ⟨blanks, parts, _, _⟩ := pieces_of_dropWhile ends
      rw [parts, List.map_append, walk_append_ok_iff] at walked
      obtain ⟨middle, arrives, onwards⟩ := walked
      rw [List.map_cons, walk_cons_ok_iff] at onwards
      obtain ⟨⟨directory, enters⟩, _⟩ := onwards
      have around := walk_stay_ok_iff.2 ⟨arrives, directory⟩
      -- The last step of the path can be taken, so what it leads to is there.
      simp only [createDirectory, FileSystem.target, accepted, ends, around]
      cases step : Step.ofPiece last with
      | stay => rfl
      | up => rfl
      | enter name =>
        obtain ⟨short, entry, stands⟩ := enters name step
        simp only [lookUp, Nat.not_lt.2 short, if_false, stands]

/-- Nothing is created along the ancestors of a directory that is there. -/
theorem createDirectories_of_directory? {fs : FileSystem} {path : Path} {location : Location}
    (leads : fs.directory? path = some location) : fs.createDirectories path = (.ok (), fs) := by
  -- The first attempt fails, and the directory turns out to be there.
  have exists_already := createDirectory_of_directory? leads
  rw [createDirectories, Path.ancestors, Path.ancestorsWithin, createAlong]
  simp only [exists_already, leads, Option.isSome_some, if_true, ite_self]

namespace ComesBy

variable {fs after : FileSystem} {place : Location} {rest : List String} {path : Path}

/-- A path goes on coming by a directory while the file system grows. -/
theorem grows {written : List Location} (comes : fs.ComesBy place rest path)
    (grows : Grows written fs after) : after.ComesBy place rest path where
  -- What was a directory on the way still is one.
  filled := comes.filled
  short := comes.short
  passes := by
    obtain ⟨front, parts, plain, walked⟩ := comes.passes
    refine ⟨front, parts, plain, ?_⟩
    rw [grows.cwd]
    exact grows.walk_ok walked
  directory := grows.directory comes.directory

/-- A path that has idle pieces left only leads to the directory that it comes by. -/
theorem directory?_of_idle (comes : fs.ComesBy place rest path)
    (idles : ∀ piece ∈ rest, isIdle piece) : fs.directory? path = some place := by
  -- An idle piece is empty or a dot.
  have plain : ¬ HasZero rest := by
    intro holds
    obtain ⟨piece, among, zero⟩ := holds
    have idle := idles piece among
    simp only [isIdle, decide_eq_true_eq] at idle
    rcases idle with rfl | rfl <;> simp at zero
  rw [directory?_eq_some_iff, comes.locate, if_neg plain]
  exact ⟨walk_idle comes.directory idles, comes.directory⟩

/-- The last step of a path is among the pieces behind a directory, unless these are all blank. -/
theorem target (comes : fs.ComesBy place rest path) {last : String} {above : List String}
    (ends : rest.reverse.dropWhile (· = "") = last :: above) :
    fs.target path = if HasZero rest then .error .invalidPath
      else (fs.walk place (above.reverse.map Step.ofPiece ++ [.stay])).map fun directory =>
        some { directory, last := .ofPiece last, slash := rest.reverse.head? = some "" } := by
  -- The pieces of the path are some that lead to the directory, and the rest.
  obtain ⟨front, parts, _, walked⟩ := comes.passes
  rw [FileSystem.target, comes.origin]
  by_cases zero : HasZero rest
  · simp only [if_pos zero]
  · -- The last piece of the path is that of the rest, which is not empty.
    have filled : rest.reverse ≠ [] := by
      intro empty
      simp [empty] at ends
    have first : path.pieces.reverse.head? = rest.reverse.head? := by
      rw [parts, List.reverse_append, List.head?_append_of_ne_nil _ filled]
    have dropped : path.pieces.reverse.dropWhile (· = "") = last :: (above ++ front.reverse) := by
      rw [parts, List.reverse_append, List.dropWhile_append, ends]
      simp
    -- The pieces before those that are left lead to the directory.
    have onwards : fs.walk (if path.isAbsolute then [] else fs.cwd)
        ((above ++ front.reverse).reverse.map Step.ofPiece ++ [.stay]) =
          fs.walk place (above.reverse.map Step.ofPiece ++ [.stay]) := by
      rw [List.reverse_append, List.reverse_reverse, List.map_append, List.append_assoc,
        walk_append walked]
    simp only [if_neg zero, first, dropped, onwards]
    cases fs.walk place (above.reverse.map Step.ofPiece ++ [.stay]) with
    | error e => rfl
    | ok directory => rfl

/-- The parent of an absolute path comes by the same directory, unless the path leads there itself. -/
theorem parent (comes : fs.ComesBy place rest path) (absolute : path.isAbsolute)
    {above idle : List String} {last : String} (split : rest = above ++ last :: idle)
    (busy : ¬ isIdle last) (idles : ∀ piece ∈ idle, isIdle piece) :
    ∃ parent, path.parent? = some parent ∧ parent.isAbsolute ∧
      fs.ComesBy place (dropIdleEnd above) parent := by
  -- The parent is cut from the path at the last piece that is not idle.
  obtain ⟨front, parts, plain, walked⟩ := comes.passes
  rw [if_pos absolute] at walked
  rw [split] at parts
  obtain ⟨parent, kept, isParent, absoluteAbove, shorter, pieces, same, among⟩ :=
    Path.parent?_of_append absolute parts busy idles
  refine ⟨parent, isParent, absoluteAbove, Path.filled_of_isAbsolute absoluteAbove,
    shorter.trans comes.short, ⟨kept, pieces, ?_, ?_⟩, comes.directory⟩
  · -- A blank piece has no character, and the others stand in the path as well.
    intro piece member
    rcases among piece member with rfl | before
    · simp
    · exact plain piece before
  · -- Up to idle ones, the same pieces lead to the directory.
    rw [if_pos absoluteAbove]
    exact walk_of_dropIdleEnd_eq walked comes.directory same

end ComesBy

variable {first second : FileSystem} {top otherTop inner : Location} {rest : List String}
  {path other : Path}

/-- Two results that are the same error, or states that hold the same below two places. -/
inductive ChangedAlike (top otherTop : Location) :
    Except OsError FileSystem → Except OsError FileSystem → Prop
  | error (e : OsError) : ChangedAlike top otherTop (.error e) (.error e)
  | ok {after otherAfter : FileSystem} (alike : Alike after top otherAfter otherTop) :
    ChangedAlike top otherTop (.ok after) (.ok otherAfter)

/-- Two results that are the same, with states that hold the same below two places. -/
structure EndAlike {α : Type} (top otherTop : Location) (result other : α × FileSystem) : Prop where
  same : result.1 = other.1
  alike : Alike result.2 top other.2 otherTop

/-- Results that end alike are one result, left in two states. -/
theorem EndAlike.cases {α : Type} {result other : α × FileSystem}
    (ends : EndAlike top otherTop result other) :
    ∃ outcome after otherAfter, result = (outcome, after) ∧ other = (outcome, otherAfter) ∧
      Alike after top otherAfter otherTop :=
  -- The outcome is the first part of both results.
  ⟨result.1, result.2, other.2, rfl, Prod.ext ends.same.symm rfl, ends.alike⟩

/-- States that changed alike are two states, or one error kept both from changing. -/
theorem ChangedAlike.cases {result other : Except OsError FileSystem}
    (changed : ChangedAlike top otherTop result other) :
    (∃ e, result = .error e ∧ other = .error e) ∨
      ∃ after otherAfter, result = .ok after ∧ other = .ok otherAfter ∧
        Alike after top otherAfter otherTop := by
  -- The two constructors are the two cases.
  cases changed with
  | error e => exact .inl ⟨e, rfl, rfl⟩
  | ok alike => exact .inr ⟨_, _, rfl, rfl, alike⟩

namespace Parallel

/-- Parallel paths stay so while both file systems grow. -/
theorem grows (parallel : Parallel first top second otherTop inner rest path other)
    {written otherWritten : List Location} {after otherAfter : FileSystem}
    (grows : Grows written first after) (otherGrows : Grows otherWritten second otherAfter) :
    Parallel after top otherAfter otherTop inner rest path other where
  -- Neither path nor what is left of it changes.
  comes := parallel.comes.grows grows
  otherComes := parallel.otherComes.grows otherGrows
  confined := parallel.confined

/-- The parents of parallel paths are parallel. -/
theorem parent (parallel : Parallel first top second otherTop inner rest path other)
    (absolute : path.isAbsolute) (otherAbsolute : other.isAbsolute)
    {above idle : List String} {last : String} (split : rest = above ++ last :: idle)
    (busy : ¬ isIdle last) (idles : ∀ piece ∈ idle, isIdle piece) :
    ∃ parent otherParent, path.parent? = some parent ∧ other.parent? = some otherParent ∧
      parent.isAbsolute ∧ otherParent.isAbsolute ∧
      Parallel first top second otherTop inner (dropIdleEnd above) parent otherParent := by
  -- Both parents are cut at the same piece, as it is one of the rest.
  obtain ⟨parent, isParent, absoluteAbove, comes⟩ := parallel.comes.parent absolute split busy idles
  obtain ⟨otherParent, isOther, otherAbsoluteAbove, otherComes⟩ :=
    parallel.otherComes.parent otherAbsolute split busy idles
  have confined := parallel.confined
  -- The steps to the parents are the first ones of those along the paths.
  obtain ⟨idleAbove, parts, _⟩ := dropIdleEnd_append above
  rw [split, List.map_append] at confined
  have aboveConfined := confined.of_append
  rw [parts, List.map_append] at aboveConfined
  exact ⟨parent, otherParent, isParent, isOther, absoluteAbove, otherAbsoluteAbove, comes, otherComes,
    aboveConfined.of_append⟩

end Parallel

namespace Alike

/-- Parallel paths have the same last step, taken at the same depth, or fail alike. -/
theorem target (alike : Alike first top second otherTop)
    (parallel : Parallel first top second otherTop inner rest path other)
    (named : rest.reverse.dropWhile (· = "") ≠ []) :
    ∃ result : Except OsError (Location × Step × Bool),
      (first.target path = result.map fun found => some ⟨found.1 ++ top, found.2.1, found.2.2⟩) ∧
      second.target other = result.map fun found => some ⟨found.1 ++ otherTop, found.2.1, found.2.2⟩ := by
  -- The last step is a piece of the rest, which both paths share.
  obtain ⟨last, above, ends⟩ := List.exists_cons_of_ne_nil named
  rw [parallel.comes.target ends, parallel.otherComes.target ends]
  by_cases zero : HasZero rest
  · -- A zero character refuses both.
    exact ⟨.error .invalidPath, by rw [if_pos zero]; rfl, by rw [if_pos zero]; rfl⟩
  · obtain ⟨blanks, parts, _⟩ := pieces_of_dropWhile ends
    -- The steps before the last one are the first of those along the paths.
    have confined : Confined top otherTop inner.length (above.reverse.map Step.ofPiece ++ [.stay]) := by
      have whole := parallel.confined
      rw [parts, List.map_append] at whole
      exact whole.of_append.append_stay
    obtain ⟨result, walked, otherWalked⟩ := alike.walk confined
    refine ⟨result.map fun directory => (directory, .ofPiece last, rest.reverse.head? = some ""), ?_, ?_⟩
    · rw [if_neg zero, walked]
      cases result <;> rfl
    · rw [if_neg zero, otherWalked]
      cases result <;> rfl

/-- A name at the same depth is looked up alike. -/
theorem lookUp (alike : Alike first top second otherTop) (name : Name) (inner : Location) :
    first.lookUp name (inner ++ top) = second.lookUp name (inner ++ otherTop) := by
  -- Below both, the same stands under the name.
  have there := alike.same (name :: inner)
  simp only [List.cons_append] at there
  simp only [FileSystem.lookUp, there]

/-- A directory is created at the same depth along parallel paths, or refused alike. -/
theorem createDirectory (alike : Alike first top second otherTop)
    (parallel : Parallel first top second otherTop inner rest path other)
    (named : rest.reverse.dropWhile (· = "") ≠ []) :
    ChangedAlike top otherTop (first.createDirectory path) (second.createDirectory other) := by
  -- The last steps are the same at the same depth, and so is what stands there.
  obtain ⟨result, aims, otherAims⟩ := alike.target parallel named
  unfold FileSystem.createDirectory
  rw [aims, otherAims]
  cases result with
  | error e => exact .error e
  | ok found =>
    obtain ⟨directory, last, slash⟩ := found
    simp only [Except.map]
    cases last with
    | stay => exact .error _
    | up => exact .error _
    | enter name =>
      simp only [alike.lookUp name directory]
      cases second.lookUp name (directory ++ otherTop) with
      | error e => exact .error e
      | ok there =>
        -- Either the name is free below both places, or it is taken below both.
        cases there with
        | none => exact .ok (alike.put name directory .directory)
        | some entry => exact .error _

/-- Directories are created at the same depths along parallel paths, with the same result. -/
theorem createDirectories (alike : Alike first top second otherTop)
    (parallel : Parallel first top second otherTop inner rest path other)
    (absolute : path.isAbsolute) (otherAbsolute : other.isAbsolute) :
    EndAlike top otherTop (first.createDirectories path) (second.createDirectories other) := by
  -- The induction is on the pieces that are left, of which the parent has fewer.
  induction measured : rest.length using Nat.strongRecOn generalizing rest path other with
  | ind size ih =>
    by_cases bare : dropIdleEnd rest = []
    · -- The paths lead to the directories that they come by, which are there.
      have idles := isIdle_of_dropIdleEnd_eq_nil bare
      rw [createDirectories_of_directory? (parallel.comes.directory?_of_idle idles),
        createDirectories_of_directory? (parallel.otherComes.directory?_of_idle idles)]
      exact ⟨rfl, alike⟩
    obtain ⟨above, last, idle, split, busy, idles, named⟩ := split_of_dropIdleEnd bare
    obtain ⟨parent, otherParent, isParent, isOther, absoluteAbove, otherAbsoluteAbove, parallelAbove⟩ :=
      parallel.parent absolute otherAbsolute split busy idles
    have shorter : (dropIdleEnd above).length < size := by
      obtain ⟨idleAbove, aboveParts, _⟩ := dropIdleEnd_append above
      have lengths := congrArg List.length aboveParts
      rw [List.length_append] at lengths
      rw [← measured, split, List.length_append, List.length_cons]
      omega
    -- Afterwards the directory is there or not at both places, whatever was made above it.
    have existing {after otherAfter : FileSystem} (growsFirst : Grows [] first after)
        (growsSecond : Grows [] second otherAfter) (alikeAfter : Alike after top otherAfter otherTop)
        (e : OsError) :
        EndAlike top otherTop
          (if (after.directory? path).isSome then (Except.ok (), after) else (.error e, after))
          (if (otherAfter.directory? other).isSome then (Except.ok (), otherAfter)
            else (.error e, otherAfter)) := by
      obtain ⟨found, there, otherThere⟩ := alikeAfter.directory? (parallel.grows growsFirst growsSecond)
      rw [there, otherThere]
      cases found with
      | none => exact ⟨rfl, alikeAfter⟩
      | some location => exact ⟨rfl, alikeAfter⟩
    have outer := ih _ shorter parallelAbove absoluteAbove otherAbsoluteAbove rfl
    simp only [FileSystem.createDirectories, Path.ancestors_cons isParent,
      Path.ancestors_cons isOther, createAlong, if_neg parallel.comes.filled,
      if_neg parallel.otherComes.filled] at outer ⊢
    rcases (alike.createDirectory parallel named).cases with
      ⟨e, refused, otherRefused⟩ | ⟨after, otherAfter, made, otherMade, alikeAfter⟩
    · simp only [refused, otherRefused]
      cases e with
      | notFound =>
        -- Some directory above is missing, and those above are made first.
        obtain ⟨outcome, after, otherAfter, along, otherAlong, alikeAfter⟩ := outer.cases
        simp only [along, otherAlong]
        cases outcome with
        | error e => exact ⟨rfl, alikeAfter⟩
        | ok =>
          -- The second attempt is made in what has grown below both places.
          have growsFirst := grows_createAlong along
          have growsSecond := grows_createAlong otherAlong
          rcases (alikeAfter.createDirectory (parallel.grows growsFirst growsSecond) named).cases with
            ⟨e, refused, otherRefused⟩ | ⟨last, otherLast, made, otherMade, alikeLast⟩
          · simp only [refused, otherRefused]
            exact existing growsFirst growsSecond alikeAfter e
          · simp only [made, otherMade]
            exact ⟨rfl, alikeLast⟩
      | _ => exact existing (Grows.refl first) (Grows.refl second) alike _
    · simp only [made, otherMade]
      exact ⟨rfl, alikeAfter⟩

/-- A file moves to the same depth along parallel paths, or is refused alike. -/
theorem moveOnto (alike : Alike first top second otherTop)
    (parallel : Parallel first top second otherTop inner rest path other)
    (named : rest.reverse.dropWhile (· = "") ≠ []) (contents : ByteArray)
    {source otherSource : Location}
    (erased : Alike (first.erase source) top (second.erase otherSource) otherTop) :
    ChangedAlike top otherTop (first.moveOnto source contents path)
      (second.moveOnto otherSource contents other) := by
  -- The path's last step decides, and with it what stands where it leads.
  obtain ⟨result, aims, otherAims⟩ := alike.target parallel named
  unfold FileSystem.moveOnto
  rw [aims, otherAims]
  cases result with
  | error e => exact .error e
  | ok found =>
    obtain ⟨directory, last, slash⟩ := found
    simp only [Except.map]
    cases last with
    | stay => exact .error _
    | up => exact .error _
    | enter name =>
      simp only [alike.lookUp name directory]
      cases second.lookUp name (directory ++ otherTop) with
      | error e => exact .error e
      | ok there =>
        -- A file neither takes a name with a slash behind it nor the place of a directory.
        by_cases slashed : slash
        · simp only [if_pos slashed]
          exact .error _
        · by_cases directoryThere : there = some .directory
          · simp only [if_neg slashed, if_pos directoryThere]
            exact .error _
          · simp only [if_neg slashed, if_neg directoryThere]
            exact .ok (erased.put name directory (.file contents))

/-- A file is replaced at the same depth along parallel paths, or the failure is the same. -/
theorem replace (alike : Alike first top second otherTop)
    (parallel : Parallel first top second otherTop inner rest path other)
    (named : rest.reverse.dropWhile (· = "") ≠ []) (contents : ByteArray)
    {above : List String} {directory otherDirectory : Path}
    (around : Parallel first top second otherTop inner above directory otherDirectory)
    (shallow : first.isTooDeep directory = false)
    (otherShallow : second.isTooDeep otherDirectory = false) :
    EndAlike top otherTop (first.replace directory path contents)
      (second.replace otherDirectory other contents) := by
  -- The file is written beside its place under a fresh name and moved there.
  obtain ⟨found, there, otherThere⟩ := alike.directory? around
  unfold FileSystem.replace
  rw [there, otherThere]
  cases found with
  | none => exact ⟨rfl, alike⟩
  | some location =>
    -- The temporary file is named afresh in either directory, and its path is accepted.
    simp only [Option.map_some, shallow, otherShallow, Bool.false_eq_true, if_false]
    rw [Option.map_some] at there otherThere
    -- Nothing stands under the fresh name, so that its file is put and removed without a trace.
    have free := entryAt?_freshName first (location ++ top)
    have otherFree := entryAt?_freshName second (location ++ otherTop)
    have grows := grows_put_file (admits_of_directory (directory?_eq_some there)
      fun taken => absurd (free.symm.trans taken) nofun : first.admits _ (.file contents))
    have otherGrows := grows_put_file (admits_of_directory (directory?_eq_some otherThere)
      fun taken => absurd (otherFree.symm.trans taken) nofun : second.admits _ (.file contents))
    have restored := erase_put first (.file contents) free
    have otherRestored := erase_put second (.file contents) otherFree
    have written : Alike
        (first.put (FileSystem.freshName (first.namesIn (location ++ top)) :: (location ++ top))
          (.file contents)) top
        (second.put (FileSystem.freshName (second.namesIn (location ++ otherTop)) ::
          (location ++ otherTop)) (.file contents)) otherTop := by
      rw [alike.freshName location]
      exact alike.put _ location _
    have moved := written.moveOnto (parallel.grows grows otherGrows) named contents
      (by rw [restored, otherRestored]; exact alike)
    rcases moved.cases with ⟨e, refused, otherRefused⟩ | ⟨after, otherAfter, made, otherMade, alikeAfter⟩
    · -- The file under the fresh name is removed again.
      simp only [refused, otherRefused]
      refine ⟨rfl, ?_⟩
      show Alike (FileSystem.erase _ _) top (FileSystem.erase _ _) otherTop
      rw [restored, otherRestored]
      exact alike
    · simp only [made, otherMade]
      exact ⟨rfl, alikeAfter⟩

/-- A text is written at the same depth along parallel paths, with the same result. -/
theorem writeIfChanged (alike : Alike first top second otherTop)
    (parallel : Parallel first top second otherTop inner rest path other)
    (absolute : path.isAbsolute) (otherAbsolute : other.isAbsolute)
    (shallow : first.isTooDeep (directoryOf path) = false)
    (otherShallow : second.isTooDeep (directoryOf other) = false) (text : String) :
    EndAlike top otherTop (first.writeIfChanged path text) (second.writeIfChanged other text) := by
  -- Comparing ends alike, and so do the directories and the replacement behind it.
  have compared := alike.isUpToDate parallel text
  unfold FileSystem.writeIfChanged
  rw [← compared]
  cases differs : first.isUpToDate path text with
  | error e => exact ⟨rfl, alike⟩
  | ok same =>
    cases same with
    -- A file that is up to date is left alone below both places.
    | true => exact ⟨rfl, alike⟩
    | false =>
      -- A path that leads to a directory could not be compared, so an entry is named behind it.
      have busy : dropIdleEnd rest ≠ [] := by
        intro bare
        have leads := parallel.comes.directory?_of_idle (isIdle_of_dropIdleEnd_eq_nil bare)
        obtain ⟨located, directory⟩ := directory?_eq_some_iff.1 leads
        simp [FileSystem.isUpToDate, read, FileSystem.locateFile, located, directory] at differs
      obtain ⟨above, last, idle, split, busyLast, idles, named⟩ := split_of_dropIdleEnd busy
      obtain ⟨parent, otherParent, isParent, isOther, absoluteAbove, otherAbsoluteAbove, around⟩ :=
        parallel.parent absolute otherAbsolute split busyLast idles
      rw [directoryOf_eq_parent isParent absoluteAbove] at shallow ⊢
      rw [directoryOf_eq_parent isOther otherAbsoluteAbove] at otherShallow ⊢
      -- First the directories are made, then the file is put in its place; both end alike.
      have made := alike.createDirectories around absoluteAbove otherAbsoluteAbove
      obtain ⟨outcome, after, otherAfter, along, otherAlong, alikeAfter⟩ := made.cases
      simp only [along, otherAlong]
      cases outcome with
      | error e => exact ⟨rfl, alikeAfter⟩
      | ok =>
        have grows := grows_createDirectories along
        have otherGrows := grows_createDirectories otherAlong
        have replaced := alikeAfter.replace (parallel.grows grows otherGrows) named text.toUTF8
          (around.grows grows otherGrows) (by rw [← shallow, isTooDeep, isTooDeep, grows.cwd])
          (by rw [← otherShallow, isTooDeep, isTooDeep, otherGrows.cwd])
        obtain ⟨outcome, last, otherLast, ends, otherEnds, alikeLast⟩ := replaced.cases
        simp only [ends, otherEnds]
        cases outcome with
        | error e => exact ⟨rfl, alikeLast⟩
        | ok => exact ⟨rfl, alikeLast⟩

end Alike

end FileSystem

end BoardConfig
