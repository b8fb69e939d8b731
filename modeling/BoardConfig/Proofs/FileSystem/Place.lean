import BoardConfig.FileSystem.Lookup

/-! The location that a path names, and where following the path arrives. -/

namespace BoardConfig

/-- Where a step leads from a location. -/
def Step.move (location : Location) : Step → Location
  | .stay => location
  | .up => location.tail
  | .enter name => name :: location

/-- Where steps lead from a location, whatever stands on the way. -/
def follow (location : Location) (steps : List Step) : Location :=
  steps.foldl Step.move location

/-- Steps that do not go up stay at or below the location where they begin. -/
theorem suffix_follow {steps : List Step} (level : Step.up ∉ steps) (start : Location) :
    start <:+ follow start steps := by
  -- Each step stays or goes further down, and where it leads the others begin.
  induction steps generalizing start with
  | nil => exact List.suffix_refl start
  | cons step rest ih =>
    simp only [List.mem_cons, not_or] at level
    have later := ih level.2 (step.move start)
    cases step with
    | stay => exact later
    | up => exact absurd rfl level.1
    | enter name => exact (List.suffix_cons name start).trans later

/-- An idle piece can neither name an entry nor lead up, so it is the step that stays. -/
theorem Step.ofPiece_of_isIdle {piece : String} (idle : isIdle piece) : Step.ofPiece piece = .stay := by
  -- The step up has a text of its own, which is not idle.
  have level : piece ≠ ".." := by
    rintro rfl
    simp [isIdle] at idle
  simp [Step.ofPiece, isEntryName, idle, level]

/-- Steps for idle pieces do not move. -/
theorem follow_idle (location : Location) {pieces : List String}
    (idle : ∀ piece ∈ pieces, isIdle piece) : follow location (pieces.map Step.ofPiece) = location := by
  -- Each of them is the step that stays.
  induction pieces with
  | nil => rfl
  | cons piece rest ih =>
    rw [List.map_cons, Step.ofPiece_of_isIdle (idle piece List.mem_cons_self)]
    exact ih fun other among => idle other (List.mem_cons_of_mem _ among)

/-- A text can name an entry exactly if it is not idle, leads nowhere else, and has no slash or zero. -/
theorem isEntryName_iff {text : String} :
    isEntryName text ↔
      ¬ isIdle text ∧ text ≠ ".." ∧ '/' ∉ text.toList ∧ '\x00' ∉ text.toList := by
  simp only [isEntryName, decide_eq_true_eq]

/-- A name is no idle piece. -/
theorem Name.not_isIdle (name : Name) : ¬ isIdle name.text :=
  (isEntryName_iff.1 name.isName).1

/-- A name is no step up. -/
theorem Name.ne_up (name : Name) : name.text ≠ ".." :=
  (isEntryName_iff.1 name.isName).2.1

/-- A name has no slash. -/
theorem Name.slash_not_mem (name : Name) : '/' ∉ name.text.toList :=
  (isEntryName_iff.1 name.isName).2.2.1

/-- A name has no zero byte. -/
theorem Name.zero_not_mem (name : Name) : '\x00' ∉ name.text.toList :=
  (isEntryName_iff.1 name.isName).2.2.2

/-- Only the piece `..` stands for the step up. -/
theorem Step.ofPiece_eq_up {piece : String} (up : Step.ofPiece piece = .up) : piece = ".." := by
  -- A piece that can name an entry enters it, so only a piece that cannot may lead up.
  unfold Step.ofPiece at up
  split at up
  · cases up
  · split at up
    · assumption
    · cases up

/-- The path of a location is absolute. -/
theorem Location.isAbsolute_path (location : Location) : location.path.isAbsolute := by
  -- The path is written with a slash in front.
  simp [Location.path, Path.isAbsolute]

/-- An absolute path begins with an empty piece. -/
theorem Path.head?_pieces {path : Path} (absolute : path.isAbsolute) :
    path.pieces.head? = some "" := by
  -- An absolute path has the slash as its first character.
  rw [isAbsolute, decide_eq_true_eq] at absolute
  rw [pieces]
  -- The slash at the start cuts off a run before it, which is empty.
  cases characters : path.text.toList with
  | nil => simp [characters] at absolute
  | cons c rest =>
    simp only [characters, List.head?_cons, Option.some.injEq] at absolute
    subst absolute
    simp [runsBetween]

/-- A path without the component `..` takes no step up. -/
theorem Path.up_not_mem_steps {path : Path} (level : Component.up ∉ path.components) :
    Step.up ∉ path.pieces.map Step.ofPiece := by
  -- A step up comes from a piece `..`, which counts as a component wherever it stands.
  intro among
  obtain ⟨piece, member, up⟩ := List.mem_map.1 among
  have dots := Step.ofPiece_eq_up up
  subst dots
  apply level
  unfold components
  cases split : path.pieces with
  | nil => simp [split] at member
  | cons first rest =>
    rw [split] at member
    rcases List.mem_cons.1 member with rfl | later
    · -- The first piece counts as a component only where the path is relative.
      have relative : path.isAbsolute = false := by
        refine Bool.eq_false_iff.2 fun absolute => ?_
        have empty := Path.head?_pieces absolute
        simp [split] at empty
      simp [firstComponent?, relative, component?, isIdle]
    · refine List.mem_append_right _ (List.mem_filterMap.2 ⟨"..", later, ?_⟩)
      simp [component?, isIdle]

namespace FileSystem

/-- The location that a path names, whatever stands on the way. -/
def place (fs : FileSystem) (path : Path) : Location :=
  follow (if path.isAbsolute then [] else fs.cwd) (path.pieces.map Step.ofPiece)

/-- The place of a path depends on no more than the working directory. -/
theorem place_congr {before after : FileSystem} (same : after.cwd = before.cwd) (path : Path) :
    after.place path = before.place path := by
  -- A path that is not absolute starts at the working directory.
  rw [place, place, same]

/-- The start of a path and its pieces depend on no more than the working directory. -/
theorem origin_congr {before after : FileSystem} (same : after.cwd = before.cwd) (path : Path) :
    after.origin path = before.origin path := by
  -- A path that is not absolute starts at the working directory.
  simp only [origin, same]

/-- An acceptable path starts at the root or in the working directory. -/
theorem origin_ok {fs : FileSystem} {path : Path} {start : Location} {pieces : List String}
    (accepted : fs.origin path = .ok (start, pieces)) :
    start = (if path.isAbsolute then [] else fs.cwd) ∧ pieces = path.pieces := by
  -- Each of the three refusals contradicts the acceptance.
  unfold origin at accepted
  split at accepted
  · cases accepted
  · split at accepted
    · cases accepted
    · split at accepted
      · cases accepted
      · cases accepted
        exact ⟨rfl, rfl⟩

/-- A name that is looked up is short, and what is found is what stands there. -/
theorem lookUp_ok {fs : FileSystem} {name : Name} {directory : Location} {there : Option Entry}
    (found : fs.lookUp name directory = .ok there) :
    name.text.utf8ByteSize ≤ nameLimit ∧ there = fs.entryAt? (name :: directory) := by
  -- Only a name within the limit is looked up at all.
  unfold lookUp at found
  split at found
  · cases found
  · rename_i short
    cases found
    exact ⟨Nat.le_of_not_lt short, rfl⟩

/-- A step can be taken in a directory, and only to an entry whose name is not too long. -/
def Passable (fs : FileSystem) (location : Location) (step : Step) : Prop :=
  fs.entryAt? location = some .directory ∧
    ∀ name, step = .enter name →
      name.text.utf8ByteSize ≤ nameLimit ∧ ∃ entry, fs.entryAt? (name :: location) = some entry

/-- A walk arrives exactly if its first step can be taken and the others arrive from there. -/
theorem walk_cons_ok_iff {fs : FileSystem} {start arrival : Location} {step : Step}
    {rest : List Step} :
    fs.walk start (step :: rest) = .ok arrival ↔
      fs.Passable start step ∧ fs.walk (step.move start) rest = .ok arrival := by
  -- A step is taken in a directory, and entering asks for a name that is found.
  simp only [walk, Passable]
  -- Whatever is no directory stops the walk, and so does an entry that is not found.
  cases stands : fs.entryAt? start with
  | none => simp
  | some entry =>
    cases entry with
    | file contents => simp
    | directory =>
      cases step with
      | stay => simp [Step.move]
      | up => simp [Step.move]
      | enter name =>
        simp only [lookUp, Step.move, Step.enter.injEq, forall_eq', true_and]
        by_cases long : nameLimit < name.text.utf8ByteSize
        · simp [long, Nat.not_le_of_lt long]
        · cases fs.entryAt? (name :: start) with
          | none => simp [long]
          | some entry => simp [long, Nat.le_of_not_lt long]

/-- A walk that fails stops before a missing entry, a file or a name that is too long, or later on. -/
theorem walk_cons_error {fs : FileSystem} {start : Location} {step : Step} {rest : List Step}
    {e : OsError} (fails : fs.walk start (step :: rest) = .error e) :
    e = .notFound ∨
      (e = .notADirectory ∧ ∃ contents, fs.entryAt? start = some (.file contents)) ∨
      (e = .tooLong ∧ fs.entryAt? start = some .directory ∧
        ∃ name, step = .enter name ∧ nameLimit < name.text.utf8ByteSize) ∨
      (fs.Passable start step ∧ fs.walk (step.move start) rest = .error e) := by
  -- What stands at the start decides whether the step is taken, refused or without a target.
  simp only [walk] at fails
  simp only [Passable]
  cases stands : fs.entryAt? start with
  | none =>
    simp only [stands, Except.error.injEq] at fails
    -- Nothing stands at the start.
    exact .inl fails.symm
  | some entry =>
    cases entry with
    | file contents =>
      simp only [stands, Except.error.injEq] at fails
      -- A file is no place to step from.
      exact .inr (.inl ⟨fails.symm, contents, rfl⟩)
    | directory =>
      simp only [stands] at fails
      cases step with
      | stay => exact .inr (.inr (.inr ⟨⟨rfl, by simp⟩, fails⟩))
      | up => exact .inr (.inr (.inr ⟨⟨rfl, by simp⟩, fails⟩))
      | enter name =>
        simp only [lookUp] at fails
        by_cases long : nameLimit < name.text.utf8ByteSize
        · simp only [long, if_true, Except.error.injEq] at fails
          exact .inr (.inr (.inl ⟨fails.symm, rfl, name, rfl, long⟩))
        · simp only [long, if_false] at fails
          cases there : fs.entryAt? (name :: start) with
          | none =>
            simp only [there, Except.error.injEq] at fails
            exact .inl fails.symm
          | some entry =>
            simp only [there] at fails
            refine .inr (.inr (.inr ⟨⟨rfl, ?_⟩, fails⟩))
            rintro _ ⟨⟩
            exact ⟨Nat.le_of_not_lt long, entry, there⟩

/-- A walk that arrives does so where its steps lead. -/
theorem walk_ok {fs : FileSystem} {start arrival : Location} {steps : List Step}
    (arrives : fs.walk start steps = .ok arrival) : arrival = follow start steps := by
  -- The first step moves as the walk does, and the others arrive from there.
  induction steps generalizing start with
  | nil =>
    cases arrives
    rfl
  | cons step rest ih => exact ih (walk_cons_ok_iff.1 arrives).2

/-- Two walks one after the other are one walk. -/
theorem walk_append_ok_iff {fs : FileSystem} {start arrival : Location} {first second : List Step} :
    fs.walk start (first ++ second) = .ok arrival ↔
      ∃ middle, fs.walk start first = .ok middle ∧ fs.walk middle second = .ok arrival := by
  -- The middle is where the first steps arrive, one after the other.
  induction first generalizing start with
  | nil => simp [walk]
  | cons step rest ih =>
    simp only [List.cons_append, walk_cons_ok_iff, ih, and_assoc, exists_and_left]

/-- A walk that ends with an idle step arrives in a directory. -/
theorem walk_stay_ok_iff {fs : FileSystem} {start arrival : Location} {steps : List Step} :
    fs.walk start (steps ++ [.stay]) = .ok arrival ↔
      fs.walk start steps = .ok arrival ∧ fs.entryAt? arrival = some .directory := by
  -- The walk is cut before its last step, which is taken in a directory.
  rw [walk_append_ok_iff]
  constructor
  · -- The idle step does not leave the directory that it is taken in.
    rintro ⟨middle, walked, idle⟩
    obtain ⟨⟨directory, _⟩, stays⟩ := walk_cons_ok_iff.1 idle
    cases stays
    exact ⟨walked, directory⟩
  · rintro ⟨walked, directory⟩
    exact ⟨arrival, walked, walk_cons_ok_iff.2 ⟨⟨directory, by simp⟩, rfl⟩⟩

/-- A path that leads somewhere does so by a walk along its pieces. -/
theorem walk_of_locate {fs : FileSystem} {path : Path} {location : Location}
    (leads : fs.locate path = .ok location) :
    fs.walk (if path.isAbsolute then [] else fs.cwd) (path.pieces.map Step.ofPiece) =
      .ok location := by
  -- The walk begins where an acceptable path starts.
  unfold locate at leads
  split at leads
  · rename_i start pieces accepted
    obtain ⟨rfl, rfl⟩ := origin_ok accepted
    exact leads
  · cases leads

/-- A path that leads somewhere leads to its place. -/
theorem locate_ok {fs : FileSystem} {path : Path} {location : Location}
    (leads : fs.locate path = .ok location) : location = fs.place path :=
  walk_ok (walk_of_locate leads)

/-- A path that leads to a file leads to its place, and the bytes are those that stand there. -/
theorem locateFile_ok {fs : FileSystem} {path : Path} {location : Location} {contents : ByteArray}
    (leads : fs.locateFile path = .ok (location, contents)) :
    fs.locate path = .ok location ∧ fs.entryAt? location = some (.file contents) := by
  -- Whatever is no file at the location is refused.
  unfold locateFile at leads
  split at leads
  · cases leads
  · split at leads <;> cases leads
    rename_i located stands
    exact ⟨located, stands⟩

/-- Reading a path that leads to a file gives the bytes that stand there. -/
theorem read_eq_ok_iff {fs : FileSystem} {path : Path} {contents : ByteArray} :
    fs.read path = .ok contents ↔
      fs.locate path = .ok (fs.place path) ∧ fs.entryAt? (fs.place path) = some (.file contents) := by
  -- Reading locates the file and takes its bytes.
  constructor
  -- A path that is read was located as a file, at its place.
  · intro given
    unfold read at given
    split at given
    · rename_i location found leads
      cases given
      obtain ⟨located, stands⟩ := locateFile_ok leads
      exact locate_ok located ▸ ⟨located, stands⟩
    · cases given
  · rintro ⟨located, stands⟩
    simp [read, locateFile, located, stands]

/-- The bytes read from a path stand at its place. -/
theorem contents?_of_read {fs : FileSystem} {path : Path} {contents : ByteArray}
    (given : fs.read path = .ok contents) : fs.contents? (fs.place path) = some contents := by
  -- What was read stands at the place of the path.
  simp [contents?, (read_eq_ok_iff.1 given).2]

/-- A file is up to date exactly if reading it gives the text. -/
theorem isUpToDate_eq_true_iff {fs : FileSystem} {path : Path} {text : String} :
    fs.isUpToDate path text = .ok true ↔ fs.read path = .ok text.toUTF8 := by
  -- Bytes that are read are compared, and every refusal says something else.
  unfold isUpToDate
  split
  · rename_i contents given
    simp [given, ← ByteArray.ext_iff]
  · rename_i missing
    simp [missing]
  · rename_i e _ refused
    simp [refused]

/-- A file is out of date exactly if it is missing or reading it gives other bytes. -/
theorem isUpToDate_eq_false_iff {fs : FileSystem} {path : Path} {text : String} :
    fs.isUpToDate path text = .ok false ↔
      fs.read path = .error .notFound ∨
        ∃ contents, fs.read path = .ok contents ∧ contents ≠ text.toUTF8 := by
  -- A missing file differs from every text, and so do other bytes.
  unfold isUpToDate
  split
  · rename_i contents given
    simp [given, ← ByteArray.ext_iff]
  · rename_i missing
    simp [missing]
  · rename_i e other refused
    simpa [refused] using other

/-- All directories around an entry exist. -/
theorem entryAt?_of_suffix {fs : FileSystem} {location around : Location} {entry : Entry}
    (stands : fs.entryAt? location = some entry) (above : around <:+ location)
    (different : around ≠ location) : fs.entryAt? around = some .directory := by
  -- One directory outwards at a time, each entry stands in a directory.
  induction location generalizing entry with
  | nil => exact absurd (List.suffix_nil.1 above) different
  | cons name outer ih =>
    have around_outer : around <:+ outer := (List.suffix_cons_iff.1 above).resolve_left different
    have directory := entryAt?_above stands
    by_cases same : around = outer
    · exact same ▸ directory
    · exact ih directory around_outer same

end FileSystem

end BoardConfig
