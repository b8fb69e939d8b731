import BoardConfig.Proofs.FileSystem.Place

/-! File systems that grow by directories and by files at some locations, and what stays readable. -/

namespace BoardConfig.FileSystem

/-- One file system comes from another by files at some locations, and elsewhere by new directories only. -/
structure Grows (written : List Location) (before after : FileSystem) : Prop where
  /-- Relative paths start where they did. -/
  cwd : after.cwd = before.cwd
  /-- Elsewhere all stays as it was, except that directories may be new. -/
  elsewhere : ∀ location, location ∉ written →
    after.entryAt? location = before.entryAt? location ∨
      (before.entryAt? location = none ∧ after.entryAt? location = some .directory)
  /-- A written file takes no directory's place. -/
  filed : ∀ location ∈ written, before.entryAt? location ≠ some .directory ∧
    ∃ contents, after.entryAt? location = some (.file contents)

namespace Grows

variable {written : List Location} {before after : FileSystem}

/-- Nothing happening is growth by nothing. -/
theorem refl (fs : FileSystem) : Grows [] fs fs :=
  ⟨rfl, fun _ _ => .inl rfl, by simp⟩

/-- A directory stays a directory. -/
theorem directory (grows : Grows written before after) {location : Location}
    (stands : before.entryAt? location = some .directory) :
    after.entryAt? location = some .directory := by
  -- No directory is among the written places, and elsewhere only what is missing changes.
  by_cases among : location ∈ written
  · exact absurd stands (grows.filed location among).1
  · rcases grows.elsewhere location among with same | ⟨free, _⟩
    · rw [same, stands]
    · simp [stands] at free

/-- A file stays a file, with its bytes unless it is among the written ones. -/
theorem file (grows : Grows written before after) {location : Location} {contents : ByteArray}
    (stands : before.entryAt? location = some (.file contents)) :
    ∃ later, after.entryAt? location = some (.file later) ∧
      (location ∉ written → later = contents) := by
  -- A written file has new bytes, and any other file is an entry that stays.
  by_cases among : location ∈ written
  · obtain ⟨later, filed⟩ := (grows.filed location among).2
    exact ⟨later, filed, fun outside => absurd among outside⟩
  · rcases grows.elsewhere location among with same | ⟨free, _⟩
    · exact ⟨contents, by rw [same, stands], fun _ => rfl⟩
    · simp [stands] at free

/-- Where something stands, something goes on standing. -/
theorem entry (grows : Grows written before after) {location : Location} {entry : Entry}
    (stands : before.entryAt? location = some entry) :
    ∃ later, after.entryAt? location = some later := by
  -- A directory stays one, and a file at least stays a file.
  cases entry with
  | directory => exact ⟨_, grows.directory stands⟩
  | file contents =>
    obtain ⟨later, filed, _⟩ := grows.file stands
    exact ⟨_, filed⟩

/-- A file that is not among the written ones was there before. -/
theorem file_before (grows : Grows written before after) {location : Location}
    {contents : ByteArray} (outside : location ∉ written)
    (stands : after.entryAt? location = some (.file contents)) :
    before.entryAt? location = some (.file contents) := by
  -- What is new elsewhere is a directory.
  rcases grows.elsewhere location outside with same | ⟨_, new⟩
  · rw [← same, stands]
  · simp [stands] at new

/-- Bytes change at written locations only. -/
theorem contents? (grows : Grows written before after) {location : Location}
    (outside : location ∉ written) : after.contents? location = before.contents? location := by
  -- A new directory has no contents, no more than what was missing before.
  rcases grows.elsewhere location outside with same | ⟨free, new⟩
  · simp only [FileSystem.contents?, same]
  · simp only [FileSystem.contents?, free, new]

/-- Growth one after the other is growth by all that was written. -/
theorem trans {first second : List Location} {middle : FileSystem}
    (sooner : Grows first before middle) (later : Grows second middle after) :
    Grows (first ++ second) before after where
  cwd := later.cwd.trans sooner.cwd
  elsewhere location outside := by
    simp only [List.mem_append, not_or] at outside
    -- A directory that is new in the middle stays one.
    rcases sooner.elsewhere location outside.1 with same | ⟨free, new⟩
    · exact same ▸ later.elsewhere location outside.2
    · exact .inr ⟨free, later.directory new⟩
  filed location among := by
    constructor
    · intro stands
      -- A directory stays one, so it is the place of no written file, early or late.
      rcases List.mem_append.1 among with early | late
      · exact (sooner.filed location early).1 stands
      · exact (later.filed location late).1 (sooner.directory stands)
    · by_cases late : location ∈ second
      · exact (later.filed location late).2
      · obtain ⟨contents, filed⟩ := (sooner.filed location
          ((List.mem_append.1 among).resolve_right late)).2
        obtain ⟨kept, stays, _⟩ := later.file filed
        exact ⟨kept, stays⟩

/-- A step that can be taken can still be taken. -/
theorem passable (grows : Grows written before after) {location : Location} {step : Step}
    (takes : before.Passable location step) : after.Passable location step := by
  -- The directory is still there, and so is what stands under the name.
  refine ⟨grows.directory takes.1, fun name enters => ?_⟩
  obtain ⟨short, entry, stands⟩ := takes.2 name enters
  exact ⟨short, grows.entry stands⟩

/-- A walk that arrives still arrives. -/
theorem walk_ok (grows : Grows written before after) {start arrival : Location}
    {steps : List Step} (arrives : before.walk start steps = .ok arrival) :
    after.walk start steps = .ok arrival := by
  -- Every step that is taken can still be taken, so the walk goes the same way.
  induction steps generalizing start with
  | nil => exact arrives
  | cons step rest ih =>
    obtain ⟨passable, later⟩ := walk_cons_ok_iff.1 arrives
    exact walk_cons_ok_iff.2 ⟨grows.passable passable, ih later⟩

/-- A walk that fails for another reason than a missing entry still fails for that reason. -/
theorem walk_error (grows : Grows written before after) {start : Location} {steps : List Step}
    {e : OsError} (fails : before.walk start steps = .error e) (other : e ≠ .notFound) :
    after.walk start steps = .error e := by
  -- The walk is the same up to the step that fails, and that one goes on failing.
  induction steps generalizing start with
  | nil => cases fails
  | cons step rest ih =>
    rcases walk_cons_error fails with missing | ⟨rfl, contents, stands⟩ | ⟨rfl, stands, name, rfl, long⟩ | ⟨passable, later⟩
    · exact absurd missing other
    · -- A file on the way stays a file.
      obtain ⟨kept, stays, _⟩ := grows.file stands
      simp [walk, stays]
    · -- A name stays too long wherever its directory is.
      simp [walk, grows.directory stands, lookUp, long]
    · obtain ⟨directory, enters⟩ := grows.passable passable
      have next := ih later
      cases step with
      | stay => simpa [walk, directory, Step.move] using next
      | up => simpa [walk, directory, Step.move] using next
      | enter name =>
        obtain ⟨short, entry, stands⟩ := enters name rfl
        simpa [walk, directory, lookUp, Nat.not_lt.2 short, stands, Step.move] using next

/-- A walk without steps up to a file that was there before arrived before as well. -/
theorem walk_before (grows : Grows written before after) {start arrival : Location}
    {steps : List Step} (level : Step.up ∉ steps)
    (arrives : after.walk start steps = .ok arrival) {contents : ByteArray}
    (stands : before.entryAt? arrival = some (.file contents)) :
    before.walk start steps = .ok arrival := by
  -- Going down only, each place on the way lies around the file at the end.
  obtain ⟨later, stays, _⟩ := grows.file stands
  induction steps generalizing start with
  | nil => exact arrives
  | cons step rest ih =>
    obtain ⟨⟨directory, enters⟩, onwards⟩ := walk_cons_ok_iff.1 arrives
    have levelRest : Step.up ∉ rest := fun among => level (List.mem_cons_of_mem _ among)
    refine walk_cons_ok_iff.2 ⟨⟨?_, fun name same => ?_⟩, ih levelRest onwards⟩
    · -- The walk goes through directories around the file, which were there with it.
      refine entryAt?_of_suffix stands ?_ ?_
      · rw [FileSystem.walk_ok arrives]
        exact suffix_follow level start
      · rintro rfl
        simp [stays] at directory
    · subst same
      -- What is entered is the file itself or a directory around it.
      obtain ⟨short, _⟩ := enters name rfl
      have inside : name :: start <:+ arrival := by
        rw [FileSystem.walk_ok onwards]
        exact suffix_follow levelRest (name :: start)
      by_cases last : name :: start = arrival
      · exact ⟨short, _, last ▸ stands⟩
      · exact ⟨short, _, entryAt?_of_suffix stands inside last⟩

/-- A path that leads somewhere still leads there. -/
theorem locate_ok (grows : Grows written before after) {path : Path} {location : Location}
    (leads : before.locate path = .ok location) : after.locate path = .ok location := by
  -- The path starts where it did and is walked as before.
  unfold locate at leads ⊢
  rw [origin_congr grows.cwd]
  split at leads
  · exact grows.walk_ok leads
  · cases leads

/-- A file that is not among the written ones reads as before. -/
theorem read_ok (grows : Grows written before after) {path : Path} {contents : ByteArray}
    (outside : before.place path ∉ written) (given : before.read path = .ok contents) :
    after.read path = .ok contents := by
  -- The path still leads to the file, whose bytes are those from before.
  obtain ⟨leads, stands⟩ := read_eq_ok_iff.1 given
  obtain ⟨later, stays, same⟩ := grows.file stands
  rw [read_eq_ok_iff, place_congr grows.cwd]
  exact ⟨grows.locate_ok leads, same outside ▸ stays⟩

/-- A path that fails to read for another reason than a missing entry still fails for that reason. -/
theorem read_error (grows : Grows written before after) {path : Path} {e : OsError}
    (refused : before.read path = .error e) (other : e ≠ .notFound) :
    after.read path = .error e := by
  -- The refusal comes from the path, from the walk or from what stands at its end.
  unfold FileSystem.read locateFile locate at refused ⊢
  rw [origin_congr grows.cwd]
  cases accepted : before.origin path with
  | error refusal => simpa [accepted] using refused
  | ok found =>
    obtain ⟨start, pieces⟩ := found
    simp only [accepted] at refused ⊢
    cases walked : before.walk start (pieces.map Step.ofPiece) with
    | error failure =>
      -- The walk itself fails, and goes on failing.
      simp only [walked, Except.error.injEq] at refused
      subst refused
      simp [grows.walk_error walked other]
    | ok arrival =>
      -- The walk arrives at something that is no file, which can only be a directory.
      simp only [walked] at refused
      simp only [grows.walk_ok walked]
      cases stands : before.entryAt? arrival with
      | none =>
        simp only [stands, Except.error.injEq] at refused
        exact absurd refused.symm other
      | some entry =>
        cases entry with
        | file contents => simp [stands] at refused
        | directory =>
          simp only [stands, Except.error.injEq] at refused
          simp [grows.directory stands, refused]

/-- Without steps up, a file that is not among the written ones was readable before. -/
theorem read_before (grows : Grows written before after) {path : Path} {contents : ByteArray}
    (level : Component.up ∉ path.components) (outside : before.place path ∉ written)
    (given : after.read path = .ok contents) : before.read path = .ok contents := by
  -- The file was there before, and the walk to it met only what was there with it.
  obtain ⟨leads, stands⟩ := read_eq_ok_iff.1 given
  rw [place_congr grows.cwd] at leads stands
  have there := grows.file_before outside stands
  refine read_eq_ok_iff.2 ⟨?_, there⟩
  unfold locate at leads ⊢
  rw [origin_congr grows.cwd] at leads
  cases accepted : before.origin path with
  | error refusal => simp [accepted] at leads
  | ok found =>
    obtain ⟨start, pieces⟩ := found
    simp only [accepted] at leads ⊢
    rw [(origin_ok accepted).2] at leads ⊢
    exact grows.walk_before (Path.up_not_mem_steps level) leads there

/-- Without steps up, a file that is not among the written ones compares as it did before. -/
theorem isUpToDate_before (grows : Grows written before after) {path : Path} {text : String}
    {same : Bool} (level : Component.up ∉ path.components) (outside : before.place path ∉ written)
    (given : after.isUpToDate path text = .ok same) : before.isUpToDate path text = .ok same := by
  -- Both answers rest on what is read, which is the same now and before.
  cases same with
  | true =>
    rw [isUpToDate_eq_true_iff] at given ⊢
    exact grows.read_before level outside given
  | false =>
    rw [isUpToDate_eq_false_iff] at given ⊢
    rcases given with missing | ⟨contents, read, other⟩
    · -- Whatever the path read as before, it would not be missing now.
      left
      cases earlier : before.read path with
      | ok contents =>
        have still := grows.read_ok outside earlier
        simp [missing] at still
      | error e =>
        by_cases same : e = .notFound
        · rw [same]
        · have still := grows.read_error earlier same
          rw [missing, Except.error.injEq] at still
          exact absurd still.symm same
    · exact .inr ⟨contents, grows.read_before level outside read, other⟩

end Grows

end BoardConfig.FileSystem
