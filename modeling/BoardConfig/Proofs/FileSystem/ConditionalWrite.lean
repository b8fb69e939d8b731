import BoardConfig.Proofs.FileSystem.AlikeUpdate
import BoardConfig.Proofs.Path.Ancestors

/-! What writing a file only if it differs changes, and what it leaves, whatever its outcome is. -/

namespace BoardConfig

namespace Path

/-- Whether some piece of a path can name an entry. -/
def HasName (path : Path) : Prop :=
  ∃ piece ∈ path.pieces, isEntryName piece

/-- The empty path, the root and the directory itself have no name in them. -/
theorem not_hasName_of_mem {path : Path}
    (plain : path ∈ ([⟨""⟩, ⟨"/"⟩, ⟨"."⟩] : List Path)) : ¬ path.HasName := by
  -- Their pieces are idle, and an idle piece names no entry.
  have nameless : ∀ path ∈ ([⟨""⟩, ⟨"/"⟩, ⟨"."⟩] : List Path),
      ∀ piece ∈ path.pieces, ¬ isEntryName piece := by
    decide
  rintro ⟨piece, among, named⟩
  exact nameless path plain piece among named

/-- A parent is empty, the root, or some of the path's first pieces. -/
theorem parent?_cases {path above : Path} (parent : path.parent? = some above) :
    above ∈ ([⟨""⟩, ⟨"/"⟩, ⟨"."⟩] : List Path) ∨
      ∃ behind, behind ≠ [] ∧ path.pieces = above.pieces ++ behind := by
  -- The parent is made of the pieces before the last one that is not idle.
  unfold parent? at parent
  cases split : path.pieces with
  | nil => exact absurd split path.pieces_ne_nil
  | cons first rest =>
    simp only [split] at parent
    cases body : dropIdleEnd rest with
    | nil =>
      -- Without a piece that is not idle behind the first, only the empty path is above.
      simp only [body] at parent
      split at parent <;> cases parent
      exact .inl (by simp)
    | cons piece others =>
      simp only [body, Option.some.injEq] at parent
      subst parent
      split
      · exact .inl (by simp)
      · -- The parent lacks the last piece that is not idle, and the idle ones around it.
        obtain ⟨idle, parts, -⟩ := dropIdleEnd_append rest
        obtain ⟨inner, last, ends⟩ : ∃ inner last, piece :: others = inner ++ [last] :=
          ⟨_, _, (List.dropLast_concat_getLast (List.cons_ne_nil piece others)).symm⟩
        rw [ends, List.dropLast_concat]
        obtain ⟨between, front, -⟩ := dropIdleEnd_append inner
        have whole : path.pieces = first :: dropIdleEnd inner ++ (between ++ last :: idle) := by
          rw [split, parts, body, ends]
          nth_rewrite 1 [front]
          simp
        refine .inr ⟨between ++ last :: idle, by simp, ?_⟩
        rw [pieces_ofPieces (List.cons_ne_nil _ _)]
        · exact split.symm.trans whole
        · intro kept among
          have member : kept ∈ path.pieces := whole ▸ List.mem_append_left _ among
          exact slash_not_mem_pieces member

/-- An ancestor with a name in it is some of the path's first pieces. -/
theorem prefix_of_mem_ancestors {path above : Path} (among : above ∈ path.ancestors)
    (named : above.HasName) : above.pieces <+: path.pieces := by
  -- Induction along the ancestors, from the path upwards.
  refine of_mem_ancestors (fun above => above.HasName → above.pieces <+: path.pieces)
    (fun _ => List.prefix_refl _) ?_ among named
  intro below next parent before nextNamed
  -- A parent is some of the first pieces, or has no name.
  rcases parent?_cases parent with plain | ⟨behind, -, parts⟩
  · exact absurd nextNamed (not_hasName_of_mem plain)
  · have first : next.pieces <+: below.pieces := ⟨behind, parts.symm⟩
    obtain ⟨piece, inside, entry⟩ := nextNamed
    exact first.trans (before ⟨piece, first.subset inside, entry⟩)

/-- A named directory that is made for a file's neighbour is some of the first pieces of its path. -/
theorem pieces_of_mem_ancestors_directoryOf {path above : Path}
    (among : above ∈ (FileSystem.directoryOf path).ancestors) (named : above.HasName) :
    ∃ behind, behind ≠ [] ∧ path.pieces = above.pieces ++ behind := by
  -- The directory is the parent of the path, or the place where relative paths start.
  obtain ⟨piece, inside, entry⟩ := named
  obtain ⟨between, before⟩ := prefix_of_mem_ancestors among ⟨piece, inside, entry⟩
  have member : piece ∈ (FileSystem.directoryOf path).pieces :=
    before ▸ List.mem_append_left between inside
  -- The neighbour goes to the directory itself where no parent has a name.
  have plain (same : FileSystem.directoryOf path = ⟨"."⟩) : False :=
    not_hasName_of_mem (by simp [same]) ⟨piece, member, entry⟩
  cases parent : path.parent? with
  | none => exact (plain (by simp [FileSystem.directoryOf, parent])).elim
  | some next =>
    by_cases empty : next.text = ""
    · exact (plain (by simp [FileSystem.directoryOf, parent, empty])).elim
    · have same : FileSystem.directoryOf path = next := by
        simp [FileSystem.directoryOf, parent, empty]
      rw [same] at before member
      rcases parent?_cases parent with nameless | ⟨behind, filled, parts⟩
      · exact absurd ⟨piece, member, entry⟩ (not_hasName_of_mem nameless)
      · exact ⟨between ++ behind, by simp [filled], by rw [parts, ← before, List.append_assoc]⟩

end Path

namespace FileSystem

/-- A step that enters an entry comes from a piece that can name it. -/
theorem isEntryName_of_ofPiece {piece : String} {name : Name}
    (enters : Step.ofPiece piece = .enter name) : isEntryName piece := by
  -- A piece that cannot name an entry leads up or stays.
  unfold Step.ofPiece at enters
  split at enters
  · assumption
  · split at enters <;> cases enters

/-- All that a created directory changes is its own place, which the path has a name for and leads to. -/
theorem createDirectory_new {fs after : FileSystem} {path : Path}
    (made : fs.createDirectory path = .ok after) {location : Location}
    (changed : after.entryAt? location ≠ fs.entryAt? location) :
    path.HasName ∧ after.locate path = .ok location := by
  -- The directory is put at one place, which its path has come to.
  have grows := grows_createDirectory made
  unfold createDirectory at made
  split at made
  · cases made
  · cases made
  · rename_i target found
    split at made
    · rename_i name enters
      split at made
      · cases made
      · rename_i looked
        cases made
        obtain ⟨stands, _, start, above, last, blanks, accepted, walked, same, blank, _⟩ :=
          target_ok found
        rw [enters] at same
        have admitted : fs.admits (name :: target.directory) .directory :=
          admits_of_directory stands fun _ => rfl
        -- Only the place that the directory is put at differs from before.
        have place : location = name :: target.directory := by
          by_contra other
          rw [entryAt?_put admitted, if_neg other] at changed
          exact changed rfl
        have directory : (fs.put (name :: target.directory) .directory).entryAt?
            (name :: target.directory) = some .directory := by
          rw [entryAt?_put admitted, if_pos rfl]
        refine ⟨⟨last, ?_, isEntryName_of_ofPiece same.symm⟩, ?_⟩
        · rw [← (origin_ok accepted).2]
          simp
        · -- The path is walked as before and enters the new directory, where the blanks do not move.
          unfold locate
          rw [origin_congr grows.cwd, accepted, place]
          simp only [List.map_append, List.map_cons, ← same]
          refine walk_append_ok_iff.2 ⟨target.directory, grows.walk_ok walked,
            walk_cons_ok_iff.2 ⟨⟨grows.directory stands, fun entered again => ?_⟩, ?_⟩⟩
          · cases again
            exact ⟨(lookUp_ok looked).1, _, directory⟩
          · exact walk_idle directory fun piece among => by simp [isIdle, blank piece among]
      · cases made
    · cases made

/-- All that creating directories changes is the places of some of them, to which their paths lead. -/
theorem createAlong_new {paths : List Path} {fs after : FileSystem} {result : Except OsError Unit}
    (made : createAlong paths fs = (result, after)) {location : Location}
    (changed : after.entryAt? location ≠ fs.entryAt? location) :
    ∃ path ∈ paths, path.HasName ∧ after.locate path = .ok location := by
  -- Each path is created at once, or after those above it.
  induction paths generalizing fs result after with
  | nil =>
    cases made
    exact absurd rfl changed
  | cons path above ih =>
    rw [createAlong] at made
    split at made
    · cases made
      exact absurd rfl changed
    · split at made
      · rename_i created
        cases made
        exact ⟨path, List.mem_cons_self, createDirectory_new created changed⟩
      · split at made
        · rename_i along
          cases made
          obtain ⟨other, among, new⟩ := ih along changed
          exact ⟨other, List.mem_cons_of_mem _ among, new⟩
        · rename_i middle along
          split at made
          · rename_i created
            cases made
            -- The place is that of a directory above, or of the one that is made on top of them.
            by_cases early : middle.entryAt? location = fs.entryAt? location
            · rw [← early] at changed
              exact ⟨path, List.mem_cons_self, createDirectory_new created changed⟩
            · obtain ⟨other, among, named, leads⟩ := ih along early
              exact ⟨other, List.mem_cons_of_mem _ among, named,
                (grows_createDirectory created).locate_ok leads⟩
          · split at made <;>
            · cases made
              obtain ⟨other, among, new⟩ := ih along changed
              exact ⟨other, List.mem_cons_of_mem _ among, new⟩
      · split at made <;> (cases made; exact absurd rfl changed)

/-- Whether a path leads to a regular file of some bytes. -/
def HasFile (fs : FileSystem) (path : Path) (contents : ByteArray) : Prop :=
  ∃ location, fs.locate path = .ok location ∧ fs.entryAt? location = some (.file contents)

/-- Whether a location is as it was, or has a new directory that some of a path's first pieces lead to. -/
def KeptBeside (before after : FileSystem) (path : Path) (location : Location) : Prop :=
  after.entryAt? location = before.entryAt? location ∨
    before.entryAt? location = none ∧ after.entryAt? location = some .directory ∧
      ∃ above behind, path.pieces = above.pieces ++ behind ∧ behind ≠ [] ∧
        after.locate above = .ok location

/-- A file is up to date exactly if the path leads to it and it holds the text. -/
theorem isUpToDate_iff_hasFile {fs : FileSystem} {path : Path} {text : String} :
    fs.isUpToDate path text = .ok true ↔ fs.HasFile path text.toUTF8 := by
  -- A path that leads somewhere leads to its place, which is where the file is read.
  rw [isUpToDate_eq_true_iff, read_eq_ok_iff]
  constructor
  · rintro ⟨leads, stands⟩
    exact ⟨_, leads, stands⟩
  · rintro ⟨location, leads, stands⟩
    cases locate_ok leads
    exact ⟨leads, stands⟩

/-- Creating the directories for a file's neighbour keeps everything beside the file's path. -/
theorem createDirectories_keptBeside {fs after : FileSystem} {path : Path}
    {result : Except OsError Unit} (made : fs.createDirectories (directoryOf path) = (result, after))
    (location : Location) : fs.KeptBeside after path location := by
  -- Only new directories make a difference, and they lie on the path.
  by_cases same : after.entryAt? location = fs.entryAt? location
  · exact .inl same
  · -- What is new is a directory, and the path that it was made for is one of those above.
    obtain ⟨free, directory⟩ :=
      ((grows_createDirectories made).elsewhere location (by simp)).resolve_left same
    obtain ⟨above, among, named, leads⟩ := createAlong_new made same
    obtain ⟨behind, filled, parts⟩ := Path.pieces_of_mem_ancestors_directoryOf among named
    exact .inr ⟨free, directory, above, behind, parts, filled, leads⟩

/-- The bytes of files stay where a location is kept. -/
theorem KeptBeside.contents? {before after : FileSystem} {path : Path} {location : Location}
    (kept : before.KeptBeside after path location) :
    after.contents? location = before.contents? location := by
  -- Where something is new it is a directory, which has no bytes.
  rcases kept with same | ⟨free, directory, -⟩
  · simp only [FileSystem.contents?, same]
  · simp only [FileSystem.contents?, free, directory]

/-- A location stays kept where the later state has the same entry there and all earlier ways. -/
theorem KeptBeside.later {before middle after : FileSystem} {path : Path} {location : Location}
    {written : List Location} (kept : before.KeptBeside middle path location)
    (grows : Grows written middle after)
    (same : after.entryAt? location = middle.entryAt? location) :
    before.KeptBeside after path location := by
  -- What was kept stays, and a way that leads to a new directory still does.
  rcases kept with old | ⟨free, directory, above, behind, parts, filled, leads⟩
  · exact .inl (same.trans old)
  · exact .inr ⟨free, same.trans directory, above, behind, parts, filled, grows.locate_ok leads⟩

/-- Nothing is to be written exactly if the path leads to a file of the text. -/
theorem writeIfChanged_eq_false_iff {fs : FileSystem} {path : Path} {text : String} :
    (fs.writeIfChanged path text).1 = .ok false ↔ fs.HasFile path text.toUTF8 := by
  -- Nothing is written exactly if the comparison finds the text.
  rw [← isUpToDate_iff_hasFile]
  -- The comparison tells the second outcome from the others.
  rcases fs.writeIfChanged_cases path text with
    ⟨e, compared, same⟩ | ⟨compared, same⟩ | ⟨compared, _, _, e, _, same⟩ |
    ⟨compared, _, _, _, _, same⟩
  all_goals simp [compared, same]

/-- After a write the path leads to a file of the text, and everything else is kept beside it. -/
theorem writeIfChanged_true_keptBeside {fs after : FileSystem} {path : Path} {text : String}
    (done : fs.writeIfChanged path text = (.ok true, after)) :
    after.HasFile path text.toUTF8 ∧
      ∀ location, after.locate path ≠ .ok location → fs.KeptBeside after path location := by
  -- Only the last of the four outcomes is a write.
  rcases fs.writeIfChanged_cases path text with
    ⟨e, _, same⟩ | ⟨_, same⟩ | ⟨_, _, _, e, _, same⟩ | ⟨_, middle, later, made, replaced, same⟩
  · simp [same] at done
  · simp [same] at done
  · simp [same] at done
  · rw [same] at done
    cases done
    obtain ⟨grows, given⟩ := replace_ok replaced
    refine ⟨isUpToDate_iff_hasFile.1 (isUpToDate_eq_true_iff.2 given), fun location apart => ?_⟩
    -- Directories come first, and then nothing changes but the place that the path leads to.
    have elsewhere : location ≠ middle.place path := by
      rintro rfl
      rw [← place_congr grows.cwd] at apart
      exact apart (read_eq_ok_iff.1 given).1
    exact (createDirectories_keptBeside made location).later grows (replace_elsewhere replaced elsewhere)

/-- After a failure everything is kept beside the path, and so is what the path leads to. -/
theorem writeIfChanged_error_keptBeside {fs after : FileSystem} {path : Path} {text : String}
    {e : OsError} (fails : fs.writeIfChanged path text = (.error e, after)) (location : Location) :
    fs.KeptBeside after path location := by
  -- The write failed in comparing, or in making directories or replacing the file.
  rcases fs.writeIfChanged_cases path text with
    ⟨_, _, same⟩ | ⟨_, same⟩ | ⟨_, _, middle, _, made, same⟩ | ⟨_, _, _, _, _, same⟩
  · rw [same] at fails
    cases fails
    exact .inl rfl
  · simp [same] at fails
  · rw [same] at fails
    cases fails
    exact createDirectories_keptBeside made location
  · simp [same] at fails

/-- After a success the file is up to date. -/
theorem isUpToDate_of_writeIfChanged {fs after : FileSystem} {path : Path} {text : String}
    {changed : Bool} (done : fs.writeIfChanged path text = (.ok changed, after)) :
    after.isUpToDate path text = .ok true := by
  -- Either the file was written, or it held the text all along.
  cases changed with
  | true => exact (writeIfChanged_true done).2.2
  | false =>
    obtain ⟨holds, rfl⟩ := writeIfChanged_false done
    exact holds

/--
A conditional write changes the file that it is about, and that only if the file differs.

It reports no change exactly if the path leads to a file of the text, and then nothing changes. After
a change the path leads to a file of the text, and after a failure all files are as they were; beside
the file there are at most new directories on its path, so no temporary file is left. Where it
succeeds, a second write has nothing to do.
-/
theorem writeIfChanged_exact (fs : FileSystem) (path : Path) (text : String) :
    ((fs.writeIfChanged path text).1 = .ok false ↔ fs.HasFile path text.toUTF8) ∧
    (∀ after, fs.writeIfChanged path text = (.ok false, after) → after = fs) ∧
    (∀ after, fs.writeIfChanged path text = (.ok true, after) →
      after.HasFile path text.toUTF8 ∧
      ∀ location, after.locate path ≠ .ok location →
        after.contents? location = fs.contents? location ∧ fs.KeptBeside after path location) ∧
    (∀ e after, fs.writeIfChanged path text = (.error e, after) →
      ∀ location,
        after.contents? location = fs.contents? location ∧ fs.KeptBeside after path location) ∧
    (∀ changed after, fs.writeIfChanged path text = (.ok changed, after) →
      after.isUpToDate path text = .ok true ∧
        after.writeIfChanged path text = (.ok false, after)) := by
  -- The outcomes are told apart by what is reported.
  refine ⟨writeIfChanged_eq_false_iff, fun after done => (writeIfChanged_false done).2,
    fun after done => ?_, fun e after fails location => ?_, fun changed after done => ?_⟩
  · obtain ⟨holds, kept⟩ := writeIfChanged_true_keptBeside done
    exact ⟨holds, fun location apart => ⟨(kept location apart).contents?, kept location apart⟩⟩
  · have kept := writeIfChanged_error_keptBeside fails location
    exact ⟨kept.contents?, kept⟩
  · have holds := isUpToDate_of_writeIfChanged done
    exact ⟨holds, writeIfChanged_of_isUpToDate holds⟩

/-- The first write of a file below missing directories is one, and the second has nothing to do. -/
theorem writeIfChanged_exact_missing :
    ∃ after, FileSystem.empty.writeIfChanged ⟨"a/b/f"⟩ "x" = (.ok true, after) ∧
      after.HasFile ⟨"a/b/f"⟩ "x".toUTF8 ∧
      after.writeIfChanged ⟨"a/b/f"⟩ "x" = (.ok false, after) := by
  -- In an empty tree both directories are missing, and the file too.
  obtain ⟨after, done⟩ : ∃ after,
      FileSystem.empty.writeIfChanged ⟨"a/b/f"⟩ "x" = (.ok true, after) := by
    refine ⟨_, Prod.ext ?_ rfl⟩
    decide +kernel
  obtain ⟨-, -, written, -, again⟩ := writeIfChanged_exact FileSystem.empty ⟨"a/b/f"⟩ "x"
  exact ⟨after, done, (written after done).1, (again true after done).2⟩

end FileSystem

end BoardConfig
