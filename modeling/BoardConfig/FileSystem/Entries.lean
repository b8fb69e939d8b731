import BoardConfig.FileSystem.Location

/-! Entries of a file system by location, each in a directory that is an entry itself. -/

namespace BoardConfig

/-- What stands at a location. -/
inductive Entry
  /-- A regular file and its bytes. -/
  | file (contents : ByteArray)
  | directory

instance : DecidableEq Entry
  | .file contents, .file other =>
    if same : contents.data = other.data then .isTrue (congrArg Entry.file (ByteArray.ext same))
    else .isFalse fun equal => same (congrArg ByteArray.data (Entry.file.inj equal))
  | .file _, .directory => .isFalse nofun
  | .directory, .file _ => .isFalse nofun
  | .directory, .directory => .isTrue rfl

/-- The entry that a list of entries has at a location. -/
def findAt (location : Location) : List (Location × Entry) → Option Entry
  | [] => none
  | (other, entry) :: rest => if location = other then some entry else findAt location rest

/-- Whether a location is in the root or in a directory that is among some entries. -/
def StandsIn (entries : List (Location × Entry)) : Location → Prop
  | [] => False
  | _ :: above => above = [] ∨ (above, Entry.directory) ∈ entries

/-- An entry that is found is one of the entries. -/
theorem mem_of_findAt {location : Location} {entry : Entry} {entries : List (Location × Entry)}
    (found : findAt location entries = some entry) : (location, entry) ∈ entries := by
  -- The search passes over entries of other locations only.
  induction entries with
  | nil => simp [findAt] at found
  | cons first rest ih =>
    obtain ⟨other, kept⟩ := first
    rw [findAt] at found
    split at found
    · rename_i same
      cases same
      cases found
      exact List.mem_cons_self
    · exact List.mem_cons_of_mem _ (ih found)

/-- Where each location has one entry, every entry is found. -/
theorem findAt_of_mem {location : Location} {entry : Entry} {entries : List (Location × Entry)}
    (distinct : (entries.map (·.1)).Nodup) (member : (location, entry) ∈ entries) :
    findAt location entries = some entry := by
  -- The entry is the first one or behind it, and the search gets to it either way.
  induction entries with
  | nil => simp at member
  | cons first rest ih =>
    obtain ⟨absent, restDistinct⟩ := List.nodup_cons.1 distinct
    rcases List.mem_cons.1 member with rfl | later
    · simp [findAt]
    · -- A second entry of the first location is excluded, so the search goes on behind it.
      have different : location ≠ first.1 := by
        rintro rfl
        exact absent (List.mem_map.2 ⟨_, later, rfl⟩)
      rw [findAt, if_neg different]
      exact ih restDistinct later

/-- Keeping entries by their locations keeps what stands there and nothing else. -/
theorem findAt_filter (test : Location → Bool) (location : Location)
    (entries : List (Location × Entry)) :
    findAt location (entries.filter (test ·.1)) =
      if test location then findAt location entries else none := by
  -- The first entry matters only at its own location, which passes the test or does not.
  induction entries with
  | nil => simp [findAt]
  | cons first rest ih =>
    by_cases same : location = first.1
    · subst same
      by_cases kept : test first.1
      · simp [findAt, kept]
      · simpa [findAt, kept] using ih
    · by_cases kept : test first.1 <;> simp [findAt, kept, same, ih]

/-- A location keeps its directory when the directory is kept. -/
theorem standsIn_filter {test : Location → Bool} {entries : List (Location × Entry)}
    {location : Location} (stands : StandsIn entries location)
    (closed : ∀ name above, location = name :: above → above = [] ∨ test above) :
    StandsIn (entries.filter (test ·.1)) location := by
  -- The directory around the location passes the test, unless that is the root.
  cases location with
  | nil => exact stands
  | cons name above =>
    rcases closed name above rfl with top | kept
    · exact .inl top
    · exact stands.imp_right fun around => List.mem_filter.2 ⟨around, kept⟩

/-- A location keeps its directory when an entry changes that no file takes the place of. -/
theorem standsIn_put {entries : List (Location × Entry)} {changed location : Location}
    {entry : Entry} (remains : (changed, Entry.directory) ∈ entries → entry = .directory)
    (stands : StandsIn entries location) :
    StandsIn ((changed, entry) :: entries.filter (·.1 ≠ changed)) location := by
  -- The directory around the location is another entry than the changed one, or that very one.
  cases location with
  | nil => exact stands
  | cons name above =>
    refine stands.imp_right fun around => ?_
    by_cases same : above = changed
    · subst same
      rw [remains around]
      exact List.mem_cons_self
    · exact List.mem_cons_of_mem _ (List.mem_filter.2 ⟨around, decide_eq_true same⟩)

end BoardConfig
