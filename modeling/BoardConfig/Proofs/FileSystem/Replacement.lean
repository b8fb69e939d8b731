import BoardConfig.Proofs.FileSystem.Growth

/-! What creating directories and replacing files change, whether they succeed or fail. -/

namespace BoardConfig.FileSystem

/-- A walk that goes on to a directory begins in one. -/
theorem directory_of_walk {fs : FileSystem} {start arrival : Location} {steps : List Step}
    (arrives : fs.walk start steps = .ok arrival)
    (directory : fs.entryAt? arrival = some .directory) :
    fs.entryAt? start = some .directory := by
  -- Without steps the walk begins where it ends, and otherwise its first step begins in a directory.
  cases steps with
  | nil =>
    cases arrives
    exact directory
  | cons step rest => exact (walk_cons_ok_iff.1 arrives).1.1

/-- A walk to a directory meets nothing but directories, so files make no difference to it. -/
theorem walk_congr_directories {before after : FileSystem}
    (directories : ∀ location, before.entryAt? location = some .directory →
      after.entryAt? location = some .directory)
    {start arrival : Location} {steps : List Step}
    (arrives : before.walk start steps = .ok arrival)
    (directory : before.entryAt? arrival = some .directory) :
    after.walk start steps = .ok arrival := by
  -- Induction on the steps, each of which is taken in a directory.
  induction steps generalizing start with
  | nil => exact arrives
  | cons step rest ih =>
    obtain ⟨⟨around, enters⟩, onwards⟩ := walk_cons_ok_iff.1 arrives
    refine walk_cons_ok_iff.2 ⟨⟨directories _ around, fun name same => ?_⟩, ih onwards⟩
    subst same
    -- What is entered on the way to a directory is a directory itself.
    exact ⟨(enters name rfl).1, _, directories _ (directory_of_walk onwards directory)⟩

/-- Pieces that are not all blank are some pieces, the last one that is not blank, and blanks. -/
theorem pieces_of_dropWhile {pieces above : List String} {last : String}
    (ends : pieces.reverse.dropWhile (· = "") = last :: above) :
    ∃ blanks, pieces = above.reverse ++ last :: blanks ∧ (∀ piece ∈ blanks, piece = "") ∧
      (pieces.reverse.head? ≠ some "" → blanks = []) := by
  -- Read from the end, the pieces are the blanks that are dropped and then the others.
  have parts : pieces.reverse.takeWhile (· = "") ++ last :: above = pieces.reverse := by
    rw [← ends]
    exact List.takeWhile_append_dropWhile
  refine ⟨(pieces.reverse.takeWhile (· = "")).reverse, ?_, fun piece among => ?_, fun noBlank => ?_⟩
  · have turned := congrArg List.reverse parts
    simpa using turned.symm
  · have blank := List.all_eq_true.1 List.all_takeWhile piece (List.mem_reverse.1 among)
    simpa using blank
  · cases reversed : pieces.reverse with
    | nil => rfl
    | cons head rest =>
      have notBlank : head ≠ "" := by simpa [reversed] using noBlank
      simp [notBlank]

/-- The last step of a path is taken in a directory and leads to the path's place. -/
theorem target_ok {fs : FileSystem} {path : Path} {target : Target}
    (found : fs.target path = .ok (some target)) :
    fs.entryAt? target.directory = some .directory ∧
      fs.place path = target.last.move target.directory ∧
      ∃ start above last blanks, fs.origin path = .ok (start, above ++ last :: blanks) ∧
        fs.walk start (above.map Step.ofPiece) = .ok target.directory ∧
        target.last = Step.ofPiece last ∧ (∀ piece ∈ blanks, piece = "") ∧
        (target.slash = false → blanks = []) := by
  -- The idle step behind the other ones makes sure that they end in a directory.
  unfold FileSystem.target at found
  cases accepted : fs.origin path with
  | error refusal => simp [accepted] at found
  | ok origin =>
    obtain ⟨start, pieces⟩ := origin
    simp only [accepted] at found
    cases ends : pieces.reverse.dropWhile (· = "") with
    | nil => simp [ends] at found
    | cons last above =>
      simp only [ends] at found
      split at found
      · cases found
      · rename_i directory walked
        cases found
        obtain ⟨arrives, stands⟩ := walk_stay_ok_iff.1 walked
        obtain ⟨blanks, inOrder, blank, bare⟩ := pieces_of_dropWhile ends
        refine ⟨stands, ?_, start, above.reverse, last, blanks, by rw [← inOrder], arrives, rfl,
          blank, fun noSlash => bare (by simpa using noSlash)⟩
        -- The blanks behind the last piece do not lead away from where it leads.
        obtain ⟨startSame, piecesSame⟩ := origin_ok accepted
        rw [place, ← startSame, ← piecesSame, inOrder]
        simp only [follow, List.map_append, List.map_cons, List.foldl_append, List.foldl_cons]
        rw [walk_ok arrives]
        exact follow_idle _ fun piece among => by simp [isIdle, blank piece among]

/-- A new directory where nothing stood is growth by nothing but a directory. -/
theorem grows_put_directory {fs : FileSystem} {location : Location}
    (free : fs.entryAt? location = none) (admitted : fs.admits location .directory) :
    Grows [] fs (fs.put location .directory) where
  cwd := cwd_put fs location .directory
  elsewhere other _ := by
    -- Nothing changes but the one place, where there was nothing.
    rw [entryAt?_put admitted]
    by_cases same : other = location
    · subst same
      exact .inr ⟨free, if_pos rfl⟩
    · exact .inl (if_neg same)
  filed := by simp

/-- A file that takes no directory's place is growth by that file. -/
theorem grows_put_file {fs : FileSystem} {location : Location} {contents : ByteArray}
    (admitted : fs.admits location (.file contents)) :
    Grows [location] fs (fs.put location (.file contents)) where
  cwd := cwd_put fs location (.file contents)
  elsewhere other outside := by
    -- Any other place is as it was.
    rw [entryAt?_put admitted, if_neg (by simpa using outside)]
    exact .inl rfl
  filed other among := by
    simp only [List.mem_singleton] at among
    subst among
    refine ⟨fun directory => ?_, contents, by rw [entryAt?_put admitted, if_pos rfl]⟩
    -- A directory at the place would make the entry a directory, which a file is not.
    have taken := eq_directory_of_admits admitted
      (mem_locations_of_entryAt? (ne_root_of_admits admitted) directory)
    cases taken

/-- A place in a directory admits a directory, and a file unless it is a directory's own place. -/
theorem admits_of_directory {fs : FileSystem} {name : Name} {directory : Location} {entry : Entry}
    (stands : fs.entryAt? directory = some .directory)
    (place : fs.entryAt? (name :: directory) = some .directory → entry = .directory) :
    fs.admits (name :: directory) entry :=
  decide_eq_true ⟨stands, place⟩

/-- Creating a directory is growth by nothing but a directory. -/
theorem grows_createDirectory {fs after : FileSystem} {path : Path}
    (made : fs.createDirectory path = .ok after) : Grows [] fs after := by
  -- A directory is created only under a name in a directory that exists.
  unfold createDirectory at made
  split at made
  · cases made
  · cases made
  · rename_i target found
    split at made
    · rename_i name _
      -- Only a name that nothing has yet gets past the look-up.
      split at made
      · cases made
      · rename_i looked
        cases made
        have free := (lookUp_ok looked).2.symm
        exact grows_put_directory free
          (admits_of_directory (target_ok found).1 fun _ => rfl)
      · cases made
    · cases made

/-- Creating directories is growth by nothing but directories, even where it fails. -/
theorem grows_createAlong {paths : List Path} {fs after : FileSystem} {result : Except OsError Unit}
    (made : createAlong paths fs = (result, after)) : Grows [] fs after := by
  -- Each path is created at once, or after those above it.
  induction paths generalizing fs result after with
  | nil =>
    cases made
    exact Grows.refl fs
  | cons path above ih =>
    rw [createAlong] at made
    split at made
    · cases made
      exact Grows.refl fs
    · split at made
      · rename_i created
        cases made
        exact grows_createDirectory created
      · -- The directories above come first, and the directory itself on top of them.
        split at made
        · rename_i along
          cases made
          exact ih along
        · rename_i middle along
          have outer := ih along
          split at made
          · rename_i created
            cases made
            exact outer.trans (grows_createDirectory created)
          · split at made <;> (cases made; exact outer)
      · split at made <;> (cases made; exact Grows.refl fs)

/-- Creating a directory and those above it is growth by nothing but directories. -/
theorem grows_createDirectories {fs after : FileSystem} {path : Path} {result : Except OsError Unit}
    (made : fs.createDirectories path = (result, after)) : Grows [] fs after :=
  grows_createAlong made

/-- A directory that a path leads to is one. -/
theorem directory?_eq_some {fs : FileSystem} {path : Path} {location : Location}
    (found : fs.directory? path = some location) : fs.entryAt? location = some .directory := by
  -- Anything but a directory at the end of the path gives none.
  unfold directory? at found
  split at found
  · cases found
  · split at found
    · rename_i stands
      cases found
      exact stands
    · cases found

/-- A file moves onto a name in a directory, unless that is a directory's own name. -/
theorem moveOnto_ok {fs after : FileSystem} {source : Location} {contents : ByteArray} {path : Path}
    (moved : fs.moveOnto source contents path = .ok after) :
    ∃ target name, fs.target path = .ok (some target) ∧ target.last = .enter name ∧
      target.slash = false ∧ name.text.utf8ByteSize ≤ nameLimit ∧
      fs.entryAt? (name :: target.directory) ≠ some .directory ∧
      after = (fs.erase source).put (name :: target.directory) (.file contents) := by
  -- Each refusal excludes one way in which the name could not be taken.
  unfold moveOnto at moved
  split at moved
  · cases moved
  · cases moved
  · rename_i target found
    split at moved
    · rename_i name last
      split at moved
      · cases moved
      · rename_i there looked
        obtain ⟨short, same⟩ := lookUp_ok looked
        split at moved
        · cases moved
        · rename_i noSlash
          split at moved
          · cases moved
          · rename_i other
            cases moved
            exact ⟨target, name, found, last, by simpa using noSlash, short, same ▸ other, rfl⟩
    · cases moved

/-- A replacement that fails leaves no trace. -/
theorem replace_error {fs after : FileSystem} {directory path : Path} {contents : ByteArray}
    {e : OsError} (fails : fs.replace directory path contents = (.error e, after)) :
    after = fs := by
  -- Nothing is written where the directory is missing or too deep.
  unfold replace at fails
  split at fails
  · cases fails
    rfl
  · split at fails
    · cases fails
      rfl
    · -- The temporary file had a fresh name, so removing it restores what was there.
      simp only at fails
      split at fails
      · cases fails
      · cases fails
        exact erase_put fs _ (entryAt?_freshName fs _)

/-- A file that is put under a name in a directory is read through any path that ends in that name. -/
theorem read_put_file {fs : FileSystem} {path : Path} {start directory : Location}
    {above : List String} {piece : String} {name : Name} {contents : ByteArray}
    (accepted : fs.origin path = .ok (start, above ++ [piece]))
    (walked : fs.walk start (above.map Step.ofPiece) = .ok directory)
    (last : Step.ofPiece piece = .enter name) (short : name.text.utf8ByteSize ≤ nameLimit)
    (around : fs.entryAt? directory = some .directory)
    (other : fs.entryAt? (name :: directory) ≠ some .directory) :
    Grows [fs.place path] fs (fs.put (name :: directory) (.file contents)) ∧
      (fs.put (name :: directory) (.file contents)).read path = .ok contents := by
  -- The directory admits the file, as no directory stands in its place.
  have admitted : fs.admits (name :: directory) (.file contents) :=
    admits_of_directory around fun taken => absurd taken other
  have grows := grows_put_file admitted
  have filed : (fs.put (name :: directory) (.file contents)).entryAt? (name :: directory) =
      some (.file contents) := by
    rw [entryAt?_put admitted, if_pos rfl]
  -- The path is walked through the same directories as before, and then to the new file.
  have leads : (fs.put (name :: directory) (.file contents)).locate path =
      .ok (name :: directory) := by
    unfold locate
    rw [origin_congr grows.cwd, accepted]
    simp only [List.map_append, List.map_cons, List.map_nil, walk_append_ok_iff]
    refine ⟨directory, grows.walk_ok walked,
      walk_cons_ok_iff.2 ⟨⟨grows.directory around, fun entered enters => ?_⟩, ?_⟩⟩
    · rw [last] at enters
      cases enters
      exact ⟨short, _, filed⟩
    · rw [last]
      rfl
  have place : fs.place path = name :: directory := by
    rw [locate_ok leads, place_congr grows.cwd]
  refine ⟨place ▸ grows, read_eq_ok_iff.2 ?_⟩
  rw [place_congr grows.cwd, place]
  exact ⟨leads, filed⟩

/-- A replacement that succeeds puts the bytes under the last name of the path and does nothing else. -/
theorem replace_eq_put {fs after : FileSystem} {directory path : Path} {contents : ByteArray}
    (done : fs.replace directory path contents = (.ok (), after)) :
    ∃ start around above piece name, fs.origin path = .ok (start, above ++ [piece]) ∧
      fs.walk start (above.map Step.ofPiece) = .ok around ∧ Step.ofPiece piece = .enter name ∧
      name.text.utf8ByteSize ≤ nameLimit ∧ fs.entryAt? around = some .directory ∧
      fs.entryAt? (name :: around) ≠ some .directory ∧
      after = fs.put (name :: around) (.file contents) := by
  -- Of all outcomes, only that of a move that is done is a success.
  unfold replace at done
  split at done
  · cases done
  · rename_i location found
    split at done
    · cases done
    · simp only at done
      split at done
      · -- Moving removes the temporary file first, so the move starts from the state before.
        rename_i moved
        cases done
        have free := entryAt?_freshName fs location
        have admitted : fs.admits (freshName (fs.namesIn location) :: location) (.file contents) :=
          admits_of_directory (directory?_eq_some found) fun taken => by simp [free] at taken
        obtain ⟨target, name, aimed, last, noSlash, short, other, rfl⟩ := moveOnto_ok moved
        rw [erase_put fs _ free]
        obtain ⟨stands, _, start, above, piece, blanks, accepted, walked, lastPiece, _, bare⟩ :=
          target_ok aimed
        rw [origin_congr (cwd_put _ _ _), bare noSlash] at accepted
        -- The temporary file is the only difference to what stood before it was written.
        have directories : ∀ place, (fs.put (freshName (fs.namesIn location) :: location)
            (.file contents)).entryAt? place = some .directory ↔
              fs.entryAt? place = some .directory := by
          intro place
          rw [entryAt?_put admitted]
          split
          · rename_i temporary
            simp [temporary, free]
          · exact Iff.rfl
        exact ⟨start, target.directory, above, piece, name, accepted,
          walk_congr_directories (fun place => (directories place).1) walked stands,
          lastPiece ▸ last, short, (directories _).1 stands, mt (directories _).2 other, rfl⟩
      · cases done

/-- A replacement that succeeds makes the path read as the bytes and takes no directory's place. -/
theorem replace_ok {fs after : FileSystem} {directory path : Path} {contents : ByteArray}
    (done : fs.replace directory path contents = (.ok (), after)) :
    Grows [fs.place path] fs after ∧ after.read path = .ok contents := by
  -- The replacement puts a file under the last name of the path.
  obtain ⟨_, _, _, _, _, accepted, walked, last, short, stands, other, rfl⟩ := replace_eq_put done
  exact read_put_file accepted walked last short stands other

/-- A replacement that succeeds leaves all but the path's place exactly as it was. -/
theorem replace_elsewhere {fs after : FileSystem} {directory path : Path} {contents : ByteArray}
    (done : fs.replace directory path contents = (.ok (), after)) {location : Location}
    (apart : location ≠ fs.place path) : after.entryAt? location = fs.entryAt? location := by
  -- The replacement puts one file, at the place of the path.
  obtain ⟨start, around, above, piece, name, accepted, walked, last, _, stands, other, rfl⟩ :=
    replace_eq_put done
  -- The last name in its directory is where the path leads.
  have place : fs.place path = name :: around := by
    obtain ⟨rfl, pieces⟩ := origin_ok accepted
    rw [place, ← pieces, List.map_append, List.map_cons, List.map_nil, last, follow,
      List.foldl_append, walk_ok walked]
    rfl
  rw [entryAt?_put (admits_of_directory stands fun taken => absurd taken other),
    if_neg (place ▸ apart)]

/-- A conditional write stops at the comparison, has nothing to do, fails on the way, or is done. -/
theorem writeIfChanged_cases (fs : FileSystem) (path : Path) (text : String) :
    (∃ e, fs.isUpToDate path text = .error e ∧ fs.writeIfChanged path text = (.error e, fs)) ∨
    (fs.isUpToDate path text = .ok true ∧ fs.writeIfChanged path text = (.ok false, fs)) ∨
    (fs.isUpToDate path text = .ok false ∧ ∃ result middle e,
      fs.createDirectories (directoryOf path) = (result, middle) ∧
      fs.writeIfChanged path text = (.error e, middle)) ∨
    (fs.isUpToDate path text = .ok false ∧ ∃ middle after,
      fs.createDirectories (directoryOf path) = (.ok (), middle) ∧
      middle.replace (directoryOf path) path text.toUTF8 = (.ok (), after) ∧
      fs.writeIfChanged path text = (.ok true, after)) := by
  -- The four outcomes are those of the comparison, the directories and the replacement.
  cases compared : fs.isUpToDate path text with
  | error e => exact .inl ⟨e, rfl, by simp [writeIfChanged, compared]⟩
  | ok same =>
    cases same with
    | true => exact .inr (.inl ⟨rfl, by simp [writeIfChanged, compared]⟩)
    | false =>
      obtain ⟨result, middle, made⟩ : ∃ result middle,
          fs.createDirectories (directoryOf path) = (result, middle) := ⟨_, _, rfl⟩
      cases result with
      | error e =>
        exact .inr (.inr (.inl ⟨rfl, _, middle, e, made, by simp [writeIfChanged, compared, made]⟩))
      | ok =>
        obtain ⟨outcome, after, replaced⟩ : ∃ outcome after,
            middle.replace (directoryOf path) path text.toUTF8 = (outcome, after) := ⟨_, _, rfl⟩
        cases outcome with
        | error e =>
          -- A replacement that fails leaves the state in which the directories were made.
          refine .inr (.inr (.inl ⟨rfl, _, middle, e, made, ?_⟩))
          rw [replace_error replaced] at replaced
          simp only [writeIfChanged, compared, made, replaced]
        | ok =>
          refine .inr (.inr (.inr ⟨rfl, middle, after, made, replaced, ?_⟩))
          simp only [writeIfChanged, compared, made, replaced]

/-- A file that holds the text already is left alone, and so is everything else. -/
theorem writeIfChanged_false {fs after : FileSystem} {path : Path} {text : String}
    (done : fs.writeIfChanged path text = (.ok false, after)) :
    fs.isUpToDate path text = .ok true ∧ after = fs := by
  -- Only a file that holds the text is reported as not written.
  rcases fs.writeIfChanged_cases path text with
    ⟨_, _, same⟩ | ⟨holds, same⟩ | ⟨_, _, _, _, _, same⟩ | ⟨_, _, _, _, _, same⟩
  · simp [same] at done
  · rw [same] at done
    cases done
    exact ⟨holds, rfl⟩
  · simp [same] at done
  · simp [same] at done

/-- A file that is written did not hold the text, holds it afterwards, and is all that changed. -/
theorem writeIfChanged_true {fs after : FileSystem} {path : Path} {text : String}
    (done : fs.writeIfChanged path text = (.ok true, after)) :
    fs.isUpToDate path text = .ok false ∧ Grows [fs.place path] fs after ∧
      after.isUpToDate path text = .ok true := by
  -- A file is written after a comparison that tells a difference, and only then.
  rcases fs.writeIfChanged_cases path text with
    ⟨_, _, same⟩ | ⟨_, same⟩ | ⟨_, _, _, _, _, same⟩ | ⟨differs, middle, later, made, replaced, same⟩
  · simp [same] at done
  · simp [same] at done
  · simp [same] at done
  · rw [same] at done
    cases done
    -- Directories come first and then the file, which is all that is written.
    have directories := grows_createDirectories made
    obtain ⟨file, given⟩ := replace_ok replaced
    rw [place_congr directories.cwd] at file
    exact ⟨differs, directories.trans file, isUpToDate_eq_true_iff.2 given⟩

/-- A file that cannot be written did not hold the text, and nothing but directories is new. -/
theorem writeIfChanged_error {fs after : FileSystem} {path : Path} {text : String} {e : OsError}
    (fails : fs.writeIfChanged path text = (.error e, after)) :
    fs.isUpToDate path text ≠ .ok true ∧ Grows [] fs after := by
  -- Of the four outcomes, two are failures.
  rcases fs.writeIfChanged_cases path text with
    ⟨_, refused, same⟩ | ⟨_, same⟩ | ⟨differs, _, middle, _, made, same⟩ | ⟨_, _, _, _, _, same⟩
  · rw [same] at fails
    cases fails
    exact ⟨by simp [refused], Grows.refl fs⟩
  · simp [same] at fails
  · rw [same] at fails
    cases fails
    exact ⟨by simp [differs], grows_createDirectories made⟩
  · simp [same] at fails

/-- A file that holds the text already need not be written. -/
theorem writeIfChanged_of_isUpToDate {fs : FileSystem} {path : Path} {text : String}
    (holds : fs.isUpToDate path text = .ok true) : fs.writeIfChanged path text = (.ok false, fs) := by
  -- The comparison comes first.
  simp [writeIfChanged, holds]

end BoardConfig.FileSystem
