import BoardConfig.FileSystem.Canonical
import BoardConfig.Proofs.FileSystem.Alike

/-!
What tells the paths of files apart: the paths of two files always differ, and those of one file are
the same wherever the operating system can tell its canonical path by both.
-/

namespace BoardConfig

/-- The step that a component of a path stands for. -/
def Component.step : Component → Step
  | .root | .here => .stay
  | .up => .up
  | .name text => .ofPiece text

/-- The component of a piece stands for the piece's step. -/
theorem step_of_component? {piece : String} {component : Component}
    (found : component? piece = some component) : component.step = Step.ofPiece piece := by
  -- A piece with a component is a step up or a name, and the component keeps the name's text.
  unfold component? at found
  split at found
  · cases found
  · split at found
    · rename_i dots
      cases found
      rw [dots]
      rfl
    · cases found
      rfl

/-- Pieces lead where their components lead. -/
theorem follow_filterMap_component? (start : Location) (pieces : List String) :
    follow start (pieces.map Step.ofPiece) =
      follow start ((pieces.filterMap component?).map Component.step) := by
  -- A piece without a component is idle, and staying where one is makes no difference.
  induction pieces generalizing start with
  | nil => rfl
  | cons piece rest ih =>
    rw [List.map_cons]
    cases found : component? piece with
    | none =>
      rw [List.filterMap_cons_none found, Step.ofPiece_of_isIdle (Path.component?_eq_none_iff.1 found)]
      exact ih start
    | some component =>
      rw [List.filterMap_cons_some found, List.map_cons, step_of_component? found]
      exact ih ((Step.ofPiece piece).move start)

/-- Only an absolute path has the root for its first component. -/
theorem Path.head?_components {path : Path} :
    path.components.head? = some .root ↔ path.isAbsolute := by
  -- A component of a piece is never the root, which is seen at the first character alone.
  have other {piece : String} : component? piece ≠ some .root := by
    unfold component?
    split
    · simp
    · split <;> simp
  obtain ⟨first, rest, parts⟩ := List.exists_cons_of_ne_nil path.pieces_ne_nil
  rw [components, parts]
  by_cases absolute : path.isAbsolute
  · simp [firstComponent?, absolute]
  · simp only [firstComponent?, absolute, Bool.false_eq_true, if_false, iff_false]
    by_cases here : first = "."
    · simp [here]
    · rw [if_neg here]
      cases found : component? first with
      | some component =>
        rw [Option.toList_some, List.singleton_append, List.head?_cons]
        exact fun same => other (found.trans same)
      | none =>
        rw [Option.toList_none, List.nil_append]
        intro starts
        obtain ⟨piece, _, same⟩ := List.mem_filterMap.1 (List.mem_of_mem_head? starts)
        exact other same

/-- The name of an entry is a step to it. -/
theorem Step.ofPiece_text (name : Name) : Step.ofPiece name.text = .enter name := by
  -- A name is neither idle nor a step up.
  rw [Step.ofPiece, dif_pos name.isName]

/-- The names of a location lead to it from the root. -/
theorem follow_names (location : Location) :
    follow [] ((location.reverse.map (·.text)).map Step.ofPiece) = location := by
  -- The innermost name comes last and is the last step that is taken.
  induction location with
  | nil => rfl
  | cons name above ih =>
    rw [List.reverse_cons, List.map_append, List.map_append, follow, List.foldl_append]
    show [Step.ofPiece name.text].foldl Step.move (follow [] _) = _
    rw [ih, Step.ofPiece_text]
    rfl

/-- The pieces of a location's path are the empty one of the root and the names, outermost first. -/
theorem Location.pieces_path (location : Location) (below : location ≠ []) :
    location.path.pieces = "" :: location.reverse.map (·.text) := by
  -- The path was made by joining these pieces.
  have whole : location.path = .ofPieces ("" :: location.reverse.map (·.text)) := by
    obtain ⟨first, rest, names⟩ := List.exists_cons_of_ne_nil (List.reverse_ne_nil_iff.2 below)
    simp [Location.path, Path.ofPieces, names, String.intercalate_cons_cons]
  rw [whole]
  -- No name has a slash, so the pieces are cut where they were joined.
  refine Path.pieces_ofPieces (by simp) fun piece among => ?_
  rcases List.mem_cons.1 among with rfl | named
  · simp
  · obtain ⟨name, _, rfl⟩ := List.mem_map.1 named
    exact name.slash_not_mem

/-- The number of bytes of texts with a slash for each. -/
def spelledSize : List String → Nat
  | [] => 0
  | text :: rest => text.utf8ByteSize + 1 + spelledSize rest

/-- Texts behind others add their bytes. -/
theorem spelledSize_append (front behind : List String) :
    spelledSize (front ++ behind) = spelledSize front + spelledSize behind := by
  -- Induction on the texts in front.
  induction front with
  | nil => simp [spelledSize]
  | cons text rest ih =>
    rw [List.cons_append, spelledSize, spelledSize, ih]
    omega

/-- The order of texts makes no difference to their bytes. -/
theorem spelledSize_reverse (texts : List String) : spelledSize texts.reverse = spelledSize texts := by
  -- The first text comes last, where it adds the same.
  induction texts with
  | nil => rfl
  | cons text rest ih =>
    rw [List.reverse_cons, spelledSize_append, ih]
    simp only [spelledSize]
    omega

/-- A path has a byte less than its pieces with a slash for each. -/
theorem Path.utf8ByteSize_add_one (path : Path) :
    path.text.utf8ByteSize + 1 = spelledSize path.pieces := by
  -- Joining puts one slash fewer than there are pieces.
  have joined (first : String) (rest : List String) :
      ("/".intercalate (first :: rest)).utf8ByteSize + 1 = spelledSize (first :: rest) := by
    induction rest generalizing first with
    | nil => simp [spelledSize]
    | cons next others ih =>
      have behind := ih next
      have slash : "/".utf8ByteSize = 1 := by decide
      simp only [String.intercalate_cons_cons, String.utf8ByteSize_append, slash]
      rw [spelledSize]
      omega
  obtain ⟨first, rest, parts⟩ := List.exists_cons_of_ne_nil path.pieces_ne_nil
  rw [parts, ← joined, ← parts]
  exact congrArg (fun path : Path => path.text.utf8ByteSize + 1) path.ofPieces_pieces.symm

/-- The path of a location below the root has as many bytes as its names with a slash for each. -/
theorem Location.utf8ByteSize_path {location : Location} (below : location ≠ []) :
    location.path.text.utf8ByteSize = spelledSize (location.map (·.text)) := by
  -- A path has one byte less than its pieces with a slash for each.
  have size := location.path.utf8ByteSize_add_one
  -- The path tells the names from the outermost on, behind the empty piece of the root.
  rw [location.pieces_path below, spelledSize, List.map_reverse, spelledSize_reverse,
    String.utf8ByteSize_empty] at size
  omega

/-- Steps that look into a directory are steps at all. -/
theorem ne_nil_of_looksInside {steps : List Step} (looks : looksInside steps) : steps ≠ [] := by
  -- There has to be a last step to look inside with.
  rintro rfl
  cases looks

/-- Whatever short pieces enter from a location that is spelled shortly has a short path from the root. -/
theorem isInReach_of_short {pieces : List String} {location : Location}
    (short : spelledSize (location.map (·.text)) + spelledSize pieces ≤ FileSystem.pathLimit) :
    isInReach location (pieces.map Step.ofPiece) := by
  -- A step down moves a name from the pieces to the location, and any other step makes both no longer.
  induction pieces generalizing location with
  | nil => rfl
  | cons piece rest ih =>
    rw [spelledSize] at short
    rw [List.map_cons]
    cases step : Step.ofPiece piece with
    | stay =>
      apply ih
      omega
    | up =>
      have shorter : spelledSize (location.tail.map (·.text)) ≤ spelledSize (location.map (·.text)) := by
        cases location with
        | nil => exact Nat.le_refl _
        | cons name above => simp [spelledSize]
      apply ih
      omega
    | enter name =>
      have same : piece = name.text := by
        unfold Step.ofPiece at step
        split at step
        · cases step
          rfl
        · split at step <;> cases step
      have deeper : spelledSize ((name :: location).map (·.text)) =
          piece.utf8ByteSize + 1 + spelledSize (location.map (·.text)) := by
        rw [List.map_cons, spelledSize, same]
      simp only [isInReach, decide_eq_true_eq]
      refine ⟨?_, ih (by omega)⟩
      rw [Location.utf8ByteSize_path (List.cons_ne_nil _ _), deeper]
      split
      · -- A step that looks inside is spelled by another piece, which has its slash.
        rename_i looks
        obtain ⟨next, others, more⟩ := List.exists_cons_of_ne_nil
          (List.map_eq_nil_iff.not.1 (ne_nil_of_looksInside looks))
        rw [more, spelledSize] at short
        omega
      · omega

namespace FileSystem

variable {fs : FileSystem} {path other : Path} {location otherLocation : Location}

/-- Where components lead, from the root or from the working directory. -/
def placeOf (fs : FileSystem) (components : List Component) : Location :=
  follow (if components.head? = some .root then [] else fs.cwd) (components.map Component.step)

/-- A path has the place that its components lead to. -/
theorem place_eq_placeOf (fs : FileSystem) (path : Path) : fs.place path = fs.placeOf path.components := by
  -- Components leave out the pieces that do not move, and both start at the same place.
  obtain ⟨first, rest, parts⟩ := List.exists_cons_of_ne_nil path.pieces_ne_nil
  have start : (if path.components.head? = some .root then [] else fs.cwd) =
      if path.isAbsolute then [] else fs.cwd := by
    simp only [Path.head?_components]
  rw [place, placeOf, start, Path.components, parts]
  show follow _ _ =
    follow _ (((path.firstComponent? first).toList ++ rest.filterMap component?).map Component.step)
  -- Beside the root and the dot at the start, the components are those of the pieces.
  by_cases absolute : path.isAbsolute
  · have empty : first = "" := by simpa [parts] using Path.head?_pieces absolute
    have root : path.firstComponent? first = some .root := if_pos absolute
    rw [root, empty]
    exact follow_filterMap_component? _ rest
  · by_cases here : first = "."
    · have dot : path.firstComponent? first = some .here := by
        rw [Path.firstComponent?, if_neg absolute, if_pos here]
      rw [dot, here]
      exact follow_filterMap_component? _ rest
    · have other : path.firstComponent? first = component? first := by
        rw [Path.firstComponent?, if_neg absolute, if_neg here]
      rw [other, follow_filterMap_component?]
      cases found : component? first with
      | none => rw [List.filterMap_cons_none found, Option.toList_none, List.nil_append]
      | some component =>
        rw [List.filterMap_cons_some found, Option.toList_some, List.singleton_append]

/-- The path of a location leads to it. -/
theorem place_path (fs : FileSystem) (location : Location) : fs.place location.path = location := by
  -- The path starts at the root and enters the names one by one.
  rw [place, if_pos location.isAbsolute_path]
  by_cases root : location = []
  · rw [root]
    decide
  · -- The empty piece before the names does not move.
    rw [location.pieces_path root, List.map_cons]
    exact follow_names location

/-- The identity of a path that leads somewhere leads there as well. -/
theorem placeOf_identity (leads : fs.locate path = .ok location) :
    fs.placeOf (fs.identity path) = location := by
  -- Whether or not there is a canonical path, the components are those of a path to the location.
  unfold identity canonical?
  rw [leads]
  by_cases reached : fs.reaches path
  · simp only [reached, if_true, Option.getD_some]
    rw [← place_eq_placeOf, place_path]
  · simp only [reached, if_false, Bool.false_eq_true, Option.getD_none]
    rw [← place_eq_placeOf, ← locate_ok leads]

/-- Paths that are told to be the same lead to one place. -/
theorem location_eq_of_identity_eq (leads : fs.locate path = .ok location)
    (otherLeads : fs.locate other = .ok otherLocation) (same : fs.identity path = fs.identity other) :
    location = otherLocation := by
  -- What a path is told by leads where the path leads.
  rw [← placeOf_identity leads, same, placeOf_identity otherLeads]

/-- What a path is told by depends on no more than where it leads and on the working directory. -/
theorem identity_congr {before after : FileSystem} (cwd : after.cwd = before.cwd)
    (leads : after.locate path = before.locate path) : after.identity path = before.identity path := by
  -- The canonical path is asked for by where the path leads.
  rw [identity, identity, canonical?, canonical?, reaches, reaches, cwd, leads]

/-- An absolute path that the operating system takes enters nothing whose path is too long. -/
theorem reaches_of_isAbsolute (absolute : path.isAbsolute) (short : path.text.utf8ByteSize ≤ pathLimit) :
    fs.reaches path := by
  -- From the root, the path of every place on the way is spelled by pieces of the path.
  have size := path.utf8ByteSize_add_one
  -- The piece before the first slash is empty and does not move.
  obtain ⟨rest, parts⟩ : ∃ rest, path.pieces = "" :: rest :=
    ⟨_, List.eq_cons_of_mem_head? (Path.head?_pieces absolute)⟩
  rw [parts] at size
  rw [reaches, if_pos absolute, parts]
  show isInReach [] (rest.map Step.ofPiece)
  apply isInReach_of_short
  rw [spelledSize, String.utf8ByteSize_empty] at size
  rw [List.map_nil, spelledSize]
  omega

/-- Nor does any other path that is short even behind the working directory's path. -/
theorem reaches_of_short (short : ((Location.path fs.cwd).join path).text.utf8ByteSize ≤ pathLimit) :
    fs.reaches path := by
  -- An absolute path is itself behind the directory's, and a relative one adds its pieces.
  by_cases absolute : path.isAbsolute
  · rw [Path.join_of_isAbsolute _ absolute] at short
    exact reaches_of_isAbsolute absolute short
  · have relative : path.isAbsolute = false := by simpa using absolute
    have filled := Path.filled_of_isAbsolute (Location.isAbsolute_path fs.cwd)
    obtain ⟨kept, blanks, parts, blank, keeps, joined⟩ :=
      @Path.pieces_join (Location.path fs.cwd) path relative
    -- What is kept of the directory's path are the empty piece of the root and all names.
    have named : 1 + spelledSize (fs.cwd.map (·.text)) ≤ spelledSize kept := by
      by_cases root : fs.cwd = []
      · obtain ⟨first, rest, more⟩ := List.exists_cons_of_ne_nil (keeps filled)
        rw [root, more, List.map_nil, spelledSize, spelledSize]
        omega
      · have size := (Location.path fs.cwd).utf8ByteSize_add_one
        rw [Location.utf8ByteSize_path root, parts] at size
        have none : blanks = [] := by
          rcases List.eq_nil_or_concat' blanks with empty | ⟨others, last, ends⟩
          · exact empty
          · -- The last piece of the directory's path is a name, and no name is empty.
            obtain ⟨name, above, inside⟩ := List.exists_cons_of_ne_nil root
            have both := parts
            rw [Location.pieces_path _ root, ends, inside, List.reverse_cons, List.map_append,
              ← List.cons_append, ← List.append_assoc] at both
            have same : name.text = last := List.head_eq_of_cons_eq (List.append_inj' both rfl).2
            have empty := blank last (by simp [ends])
            have idle : isIdle name.text := by simp [isIdle, same, empty]
            exact absurd idle name.not_isIdle
        rw [none, List.append_nil] at size
        omega
    have size := ((Location.path fs.cwd).join path).utf8ByteSize_add_one
    rw [joined, spelledSize_append] at size
    rw [reaches, if_neg absolute]
    apply isInReach_of_short
    omega

/--
Two paths of one place are told to be the same if both reach it by paths from the root, and else as they are spelled.

A path with a canonical one and a path without are never told to be the same, though they may be.
-/
theorem identity_eq_iff (leads : fs.locate path = .ok location)
    (otherLeads : fs.locate other = .ok location) :
    fs.identity path = fs.identity other ↔
      (fs.reaches path ∧ fs.reaches other) ∨
        (¬ fs.reaches path ∧ ¬ fs.reaches other ∧ path.components = other.components) := by
  -- A path that does not reach its place is relative, so its components do not begin with the root.
  have apart {path : Path} (leads : fs.locate path = .ok location) (outside : ¬ fs.reaches path) :
      location.path.components ≠ path.components := by
    intro same
    apply outside
    have starts := Path.head?_components.2 (Location.isAbsolute_path location)
    rw [same, Path.head?_components] at starts
    exact reaches_of_isAbsolute starts (accepted_of_locate leads).2.2
  by_cases reached : fs.reaches path <;> by_cases otherReached : fs.reaches other <;>
    simp only [identity, canonical?, leads, otherLeads, reached, otherReached, if_true, if_false,
      Option.getD_some, Option.getD_none, Bool.false_eq_true, not_true, not_false_eq_true, and_self,
      and_true, and_false, true_and, false_and, or_false, false_or, iff_false]
  · exact apart otherLeads otherReached
  · exact (apart leads reached).symm

end FileSystem

end BoardConfig
