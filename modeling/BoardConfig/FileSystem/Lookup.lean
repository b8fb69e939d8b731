import BoardConfig.FileSystem.Update

/-! What stands where after entries of a file system change, and names that nothing has. -/

namespace BoardConfig.FileSystem

/-- The root is a directory whatever the entries are. -/
@[simp]
theorem entryAt?_root (fs : FileSystem) : fs.entryAt? [] = some .directory := rfl

/-- The working directory makes no difference to what stands where. -/
@[simp]
theorem entryAt?_cwd (fs : FileSystem) (cwd location : Location) :
    ({ fs with cwd } : FileSystem).entryAt? location = fs.entryAt? location := by
  -- Only at the root is a location not looked up in the entries, and there it needs none.
  cases location <;> rfl

/-- Below the root, the entries tell what stands where. -/
theorem entryAt?_of_ne_root (fs : FileSystem) {location : Location} (below : location ≠ []) :
    fs.entryAt? location = findAt location fs.entries := by
  -- The root answers by itself, and any other location is looked up.
  cases location with
  | nil => exact absurd rfl below
  | cons name directory => rfl

/-- What stands at a location below the root is one of the entries. -/
theorem mem_locations_of_entryAt? {fs : FileSystem} {location : Location} {entry : Entry}
    (below : location ≠ []) (stands : fs.entryAt? location = some entry) :
    (location, entry) ∈ fs.entries :=
  mem_of_findAt (entryAt?_of_ne_root fs below ▸ stands)

/-- Around every entry there is a directory. -/
theorem entryAt?_above {fs : FileSystem} {name : Name} {above : Location} {entry : Entry}
    (stands : fs.entryAt? (name :: above) = some entry) : fs.entryAt? above = some .directory := by
  -- The entry is among the entries, each of which stands in a directory by construction.
  rcases fs.rooted _ (mem_locations_of_entryAt? (List.cons_ne_nil _ _) stands) with rfl | around
  · rfl
  · cases above with
    | nil => rfl
    | cons outer rest => exact findAt_of_mem fs.distinct around

/-- Only a directory has names in it. -/
theorem namesIn_eq_nil {fs : FileSystem} {location : Location}
    (other : fs.entryAt? location ≠ some .directory) : fs.namesIn location = [] := by
  -- A name in the location would be that of an entry, around which there is a directory.
  refine List.eq_nil_iff_forall_not_mem.2 fun name member => other ?_
  obtain ⟨⟨place, entry⟩, among, named⟩ := List.mem_filterMap.1 member
  -- The entry of that name would stand in the location.
  cases place with
  | nil => simp at named
  | cons head above =>
    simp only [Option.ite_none_right_eq_some, Option.some.injEq] at named
    obtain ⟨rfl, rfl⟩ := named
    exact entryAt?_above (findAt_of_mem fs.distinct among)

/-- The name of what stands in a directory is among the names in it. -/
theorem mem_namesIn_of_entryAt? {fs : FileSystem} {name : Name} {directory : Location} {entry : Entry}
    (stands : fs.entryAt? (name :: directory) = some entry) : name ∈ fs.namesIn directory :=
  mem_namesIn (List.mem_map_of_mem (mem_locations_of_entryAt? (List.cons_ne_nil _ _) stands))

/-- Removing an entry changes nothing elsewhere. -/
theorem entryAt?_erase {fs : FileSystem} {removed : Location} (below : removed ≠ [])
    (isEmpty : fs.namesIn removed = []) (location : Location) :
    (fs.erase removed).entryAt? location =
      if location = removed then none else fs.entryAt? location := by
  -- What is left are the entries of all other locations.
  cases location with
  | nil => simp [Ne.symm below]
  | cons name above =>
    rw [erase, dif_pos isEmpty, keep]
    show findAt (name :: above) (fs.entries.filter fun entry => decide (entry.1 ≠ removed)) = _
    rw [findAt_filter (fun other => decide (other ≠ removed))]
    by_cases same : name :: above = removed
    · simp [same]
    · simp only [decide_eq_true (show name :: above ≠ removed from same), if_true, if_neg same]
      rfl

/-- An entry that may take a place has a name. -/
theorem ne_root_of_admits {fs : FileSystem} {location : Location} {entry : Entry}
    (admitted : fs.admits location entry) : location ≠ [] := by
  -- The root is a directory for good, so nothing may take its place.
  rintro rfl
  simp [admits] at admitted

/-- An entry is seen at its own location and changes nothing elsewhere. -/
theorem entryAt?_put {fs : FileSystem} {changed : Location} {entry : Entry}
    (admitted : fs.admits changed entry) (location : Location) :
    (fs.put changed entry).entryAt? location =
      if location = changed then some entry else fs.entryAt? location := by
  -- The new entry comes first, and behind it are those of all other locations.
  cases location with
  | nil => simp [Ne.symm (ne_root_of_admits admitted)]
  | cons name above =>
    rw [put, dif_pos admitted]
    show findAt (name :: above) ((changed, entry) :: fs.entries.filter fun entry =>
      decide (entry.1 ≠ changed)) = _
    rw [findAt]
    by_cases same : name :: above = changed
    · simp [same]
    · rw [if_neg same, if_neg same, findAt_filter (fun other => decide (other ≠ changed)),
        if_pos (decide_eq_true same)]
      rfl

/-- Putting an entry somewhere keeps the working directory. -/
@[simp]
theorem cwd_put (fs : FileSystem) (location : Location) (entry : Entry) :
    (fs.put location entry).cwd = fs.cwd := by
  -- An entry that may not take its place changes nothing at all.
  rw [put]
  split <;> rfl

/-- Removing an entry keeps the working directory. -/
@[simp]
theorem cwd_erase (fs : FileSystem) (location : Location) : (fs.erase location).cwd = fs.cwd := by
  -- Whether or not the location is erased, only the entries are replaced.
  rw [erase]
  split <;> rfl

/-- A fresh name is longer than each of the names and so is none of them. -/
theorem freshName_not_mem (names : List Name) : freshName names ∉ names := by
  -- A name among the names is no longer than all of them together.
  intro member
  have within {name : Name} {others : List Name} (among : name ∈ others) :
      name.text.toList.length ≤ (others.flatMap (·.text.toList)).length := by
    induction others with
    | nil => simp at among
    | cons first rest ih =>
      rw [List.flatMap_cons, List.length_append]
      rcases List.mem_cons.1 among with rfl | later
      · omega
      · have := ih later
        omega
  have bounded := within member
  simp only [freshName, String.toList_ofList, List.length_replicate] at bounded
  omega

/-- Nothing stands under a fresh name in its directory. -/
theorem entryAt?_freshName (fs : FileSystem) (directory : Location) :
    fs.entryAt? (freshName (fs.namesIn directory) :: directory) = none := by
  -- Whatever stood there would have its name among those that the fresh one differs from.
  cases stands : fs.entryAt? (freshName (fs.namesIn directory) :: directory) with
  | none => rfl
  | some entry => exact absurd (mem_namesIn_of_entryAt? stands) (freshName_not_mem _)

/-- An entry that is put where nothing stands and removed again leaves no trace. -/
theorem erase_put (fs : FileSystem) {location : Location} (entry : Entry)
    (free : fs.entryAt? location = none) : (fs.put location entry).erase location = fs := by
  -- Nothing stands at the location before, so filtering it out leaves all entries.
  have absent : ∀ other ∈ fs.entries, decide (other.1 ≠ location) = true := by
    rintro ⟨other, kept⟩ member
    refine decide_eq_true ?_
    rintro rfl
    cases other with
    | nil => simp at free
    | cons name above => simp [entryAt?, findAt_of_mem fs.distinct member] at free
  have isEmpty : fs.namesIn location = [] := namesIn_eq_nil (by simp [free])
  obtain ⟨entries, distinct, rooted, cwd⟩ := fs
  have unchanged : entries.filter (fun other => decide (other.1 ≠ location)) = entries :=
    List.filter_eq_self.2 absent
  rw [put]
  split
  · -- The entry itself stands in another directory, so nothing stands in it.
    rename_i admitted
    rw [erase, dif_pos]
    · simp only [keep, FileSystem.mk.injEq, and_true]
      rw [List.filter_cons_of_neg (by simp)]
      simp only [unchanged]
    · refine List.eq_nil_iff_forall_not_mem.2 fun name member => ?_
      obtain ⟨⟨place, kept⟩, among, named⟩ := List.mem_filterMap.1 member
      rcases List.mem_cons.1 among with new | old
      · cases new
        cases location with
        | nil => simp at named
        | cons head above => simp [(List.cons_ne_self head above).symm] at named
      · have listed : name ∈ FileSystem.namesIn ⟨entries, distinct, rooted, cwd⟩ location :=
          List.mem_filterMap.2 ⟨(place, kept), (List.mem_filter.1 old).1, named⟩
        simp [isEmpty] at listed
  · rw [erase, dif_pos isEmpty]
    simp only [keep, unchanged]

end BoardConfig.FileSystem
