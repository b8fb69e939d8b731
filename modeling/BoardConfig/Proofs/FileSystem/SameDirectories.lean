import BoardConfig.Proofs.FileSystem.Alike

/-! File systems that differ in files only, and the paths that lead to the same in both. -/

namespace BoardConfig.FileSystem

/-- Whether two file systems have the same directories, so that they differ in files only. -/
structure SameDirectories (fs other : FileSystem) : Prop where
  /-- Relative paths start where they did. -/
  cwd : other.cwd = fs.cwd
  directory : ∀ location,
    other.entryAt? location = some .directory ↔ fs.entryAt? location = some .directory

/-- Whether the same file, or none, stands at the place of a path in both. -/
def KeptAt (fs other : FileSystem) (path : Path) : Prop :=
  other.entryAt? (fs.place path) = fs.entryAt? (fs.place path)

namespace SameDirectories

variable {fs other : FileSystem} {path : Path}

/-- Both may be taken in either order. -/
theorem symm (same : SameDirectories fs other) : SameDirectories other fs :=
  ⟨same.cwd.symm, fun location => (same.directory location).symm⟩

/-- What is kept is so in either order. -/
theorem keptAt_symm (same : SameDirectories fs other) (kept : KeptAt fs other path) :
    KeptAt other fs path := by
  -- A path has one place from one working directory.
  unfold KeptAt at kept ⊢
  rw [place_congr same.cwd]
  exact kept.symm

/-- Where the same stands everywhere, the directories are the same. -/
theorem of_entryAt? (cwd : other.cwd = fs.cwd)
    (same : ∀ location, other.entryAt? location = fs.entryAt? location) : SameDirectories fs other :=
  ⟨cwd, fun location => by rw [same location]⟩

/-- A walk to a place that is kept goes the same way in both. -/
theorem walk_ok (same : SameDirectories fs other) {start arrival : Location} {steps : List Step}
    (kept : other.entryAt? arrival = fs.entryAt? arrival)
    (arrives : fs.walk start steps = .ok arrival) : other.walk start steps = .ok arrival := by
  -- Induction on the steps, all of which but the last end in directories.
  induction steps generalizing start with
  | nil => exact arrives
  | cons step rest ih =>
    obtain ⟨⟨around, enters⟩, onwards⟩ := walk_cons_ok_iff.1 arrives
    refine walk_cons_ok_iff.2 ⟨⟨(same.directory _).2 around, ?_⟩, ih onwards⟩
    intro name entered
    subst entered
    obtain ⟨short, entry, stands⟩ := enters name rfl
    -- What is entered is the place itself, or a directory, as the walk goes on from there.
    cases rest with
    | nil =>
      cases onwards
      exact ⟨short, entry, kept.trans stands⟩
    | cons next later =>
      have inner := (walk_cons_ok_iff.1 onwards).1.1
      exact ⟨short, _, (same.directory _).2 inner⟩

/-- A path to a place that is kept leads there in both. -/
theorem locate_ok (same : SameDirectories fs other) {location : Location}
    (kept : other.entryAt? location = fs.entryAt? location) (leads : fs.locate path = .ok location) :
    other.locate path = .ok location := by
  -- Both start at the same place and walk the same steps.
  unfold locate at leads ⊢
  rw [origin_congr same.cwd]
  cases accepted : fs.origin path with
  | error e => simp [accepted] at leads
  | ok found =>
    simp only [accepted] at leads ⊢
    exact same.walk_ok kept leads

/-- A path leads to the same directory in both, or to none in either. -/
theorem directory?_eq (same : SameDirectories fs other) (path : Path) :
    other.directory? path = fs.directory? path := by
  -- It is enough that a directory which one leads to is led to by the other.
  have leads {first second : FileSystem} (same : SameDirectories first second) {location : Location}
      (found : first.directory? path = some location) : second.directory? path = some location := by
    obtain ⟨located, stands⟩ := directory?_eq_some_iff.1 found
    have still := (same.directory location).2 stands
    exact directory?_eq_some_iff.2 ⟨same.locate_ok (still.trans stands.symm) located, still⟩
  apply Option.ext
  intro location
  exact ⟨leads same.symm, leads same⟩

/-- A path that leads to a file leads to it in both if the file is kept. -/
theorem locateFile_ok (same : SameDirectories fs other) (kept : KeptAt fs other path)
    {found : Location × ByteArray} (leads : fs.locateFile path = .ok found) :
    other.locateFile path = .ok found := by
  -- The path leads to the kept place, where the file stands in both.
  obtain ⟨location, contents⟩ := found
  obtain ⟨located, stands⟩ := FileSystem.locateFile_ok leads
  unfold KeptAt at kept
  rw [← FileSystem.locate_ok located] at kept
  rw [locateFile, same.locate_ok kept located]
  simp only [kept, stands]

end SameDirectories

end BoardConfig.FileSystem
