import BoardConfig.Proofs.FileSystem.Beside

/-! Paths joined to others: their pieces, their parents, and what is left once the base is stripped. -/

namespace BoardConfig

/-- Idle pieces at the end make no difference to what is left without them. -/
theorem dropIdleEnd_append_of_idle (front : List String) {idle : List String}
    (idles : ∀ piece ∈ idle, isIdle piece) : dropIdleEnd (front ++ idle) = dropIdleEnd front := by
  -- Seen from the end, the idle pieces come first and are all passed over.
  unfold dropIdleEnd
  rw [List.reverse_append, List.dropWhile_append_of_pos]
  intro piece among
  exact idles piece (List.mem_reverse.1 among)

/-- Behind pieces that are not all idle, only their own idle ones are dropped. -/
theorem dropIdleEnd_append_of_ne_nil (front : List String) {pieces : List String}
    (busy : dropIdleEnd pieces ≠ []) : dropIdleEnd (front ++ pieces) = front ++ dropIdleEnd pieces := by
  -- The last piece that is not idle ends the search for idle ones.
  obtain ⟨idle, parts, idles⟩ := dropIdleEnd_append pieces
  obtain ⟨kept, last, ends, busyLast⟩ := last_dropIdleEnd busy
  have whole : front ++ pieces = front ++ kept ++ [last] ++ idle := by
    rw [parts, ends]
    simp
  rw [whole, dropIdleEnd_append_of_idle _ idles, dropIdleEnd_of_last _ busyLast, ends,
    List.append_assoc]

/-- Pieces of which nothing is left are all idle. -/
theorem isIdle_of_dropIdleEnd_eq_nil {pieces : List String} (none : dropIdleEnd pieces = []) :
    ∀ piece ∈ pieces, isIdle piece := by
  -- What is dropped is idle, and here everything is.
  obtain ⟨idle, parts, idles⟩ := dropIdleEnd_append pieces
  rw [none, List.nil_append] at parts
  exact parts ▸ idles

/-- Pieces without their idle ones at the end have none there. -/
theorem dropIdleEnd_idem (pieces : List String) :
    dropIdleEnd (dropIdleEnd pieces) = dropIdleEnd pieces :=
  List.rdropWhile_idempotent isIdle pieces

namespace Path

/-- An absolute path is not empty. -/
theorem filled_of_isAbsolute {path : Path} (absolute : path.isAbsolute) : path.text ≠ "" := by
  -- The first character is a slash.
  intro empty
  simp [isAbsolute, empty] at absolute

/-- The text of a path with a slash at its end. -/
def slashed (path : Path) : String :=
  if path.text.toList.getLast? = some '/' then path.text else path.text ++ "/"

/-- A path with a slash at its end is not empty. -/
theorem slashed_ne_empty (path : Path) : path.slashed ≠ "" := by
  -- A slash is put behind the text unless it ends with one.
  rw [slashed]
  split
  · -- A text that ends with a slash has a character.
    rename_i ends
    intro empty
    simp [empty] at ends
  · simp [String.append_eq_empty_iff]

/-- A slash at the end makes a path no shorter. -/
theorem le_utf8ByteSize_slashed (path : Path) : path.text.utf8ByteSize ≤ path.slashed.utf8ByteSize := by
  -- Nothing is taken away from the text.
  rw [slashed]
  split
  · exact le_rfl
  · rw [String.utf8ByteSize_append]
    omega

/-- A relative path is joined behind a slash. -/
theorem join_of_relative {base path : Path} (relative : path.isAbsolute = false)
    (filled : base.text ≠ "") : base.join path = ⟨base.slashed ++ path.text⟩ := by
  -- Neither text is taken alone, as the base is not empty and the path is not absolute.
  rw [join, if_neg (by simp [relative, filled]), slashed]
  split <;> rfl

/-- A path joined to the empty one is itself. -/
theorem join_of_empty {base path : Path} (empty : base.text = "") : base.join path = path := by
  -- Joining puts no slash behind an empty text.
  simp [join, empty]

/-- A slash at the end of a text cuts off an empty piece. -/
theorem pieces_slash (front behind : String) :
    (⟨front ++ "/" ++ behind⟩ : Path).pieces = (⟨front⟩ : Path).pieces ++ (⟨behind⟩ : Path).pieces := by
  -- A slash is where pieces are cut.
  simp only [pieces, String.toList_append, List.append_assoc]
  rw [← List.map_append, ← runsBetween_append_separator]
  rfl

/-- The empty path has one empty piece. -/
theorem pieces_empty : (⟨""⟩ : Path).pieces = [""] := by
  -- There is one run of no characters.
  decide

/-- Without a slash, a text is a relative path of one piece. -/
theorem pieces_of_plain {text : String} (plain : '/' ∉ text.toList) :
    (⟨text⟩ : Path).pieces = [text] ∧ (⟨text⟩ : Path).isAbsolute = false := by
  constructor
  · -- The text is cut into no pieces but itself.
    have single : (⟨text⟩ : Path) = .ofPieces [text] := by simp [ofPieces]
    rw [single, pieces_ofPieces (by simp) (by simpa using plain)]
  · -- An absolute path would begin with a slash.
    refine Bool.eq_false_iff.2 fun absolute => plain ?_
    simp only [isAbsolute, decide_eq_true_eq] at absolute
    exact List.mem_of_mem_head? absolute

/-- A text that ends with a slash is some text and that slash. -/
theorem exists_of_ends_with_slash {text : String} (ends : text.toList.getLast? = some '/') :
    ∃ front, text = front ++ "/" := by
  -- The characters before the last one are the text in front.
  obtain ⟨front, parts⟩ := List.getLast?_eq_some_iff.1 ends
  refine ⟨String.ofList front, String.toList_injective ?_⟩
  simp [parts]

/-- A path ends with an empty piece behind a slash, and joined paths come in its place. -/
theorem pieces_join {base path : Path} (relative : path.isAbsolute = false) :
    ∃ kept blanks, base.pieces = kept ++ blanks ∧ (∀ piece ∈ blanks, piece = "") ∧
      (base.text ≠ "" → kept ≠ []) ∧ (base.join path).pieces = kept ++ path.pieces := by
  -- Joining puts a slash between, unless the base ends with one.
  by_cases empty : base.text = ""
  · -- Nothing is kept of the empty path, whose one piece is blank.
    have whole : base = ⟨""⟩ := congrArg mk empty
    refine ⟨[], [""], ?_, by simp, fun filled => absurd empty filled, ?_⟩
    · rw [whole, pieces_empty, List.nil_append]
    · rw [join_of_empty empty, List.nil_append]
  · rw [join_of_relative relative empty, slashed]
    split
    · -- Behind a slash at the end stands a blank piece, in whose place the path comes.
      rename_i ends
      obtain ⟨front, parts⟩ := exists_of_ends_with_slash ends
      refine ⟨(⟨front⟩ : Path).pieces, [""], ?_, by simp, fun _ => pieces_ne_nil _, ?_⟩
      · have whole : base = ⟨front ++ "/" ++ ""⟩ := by simp [← parts]
        rw [whole, pieces_slash, pieces_empty]
      · rw [parts, pieces_slash]
    · -- Without one, the slash that is put between cuts off no blank piece.
      refine ⟨base.pieces, [], by simp, by simp, fun _ => pieces_ne_nil _, ?_⟩
      rw [pieces_slash]

/-- What is joined to a path that is not empty starts where that path does. -/
theorem isAbsolute_join {base path : Path} (relative : path.isAbsolute = false)
    (filled : base.text ≠ "") : (base.join path).isAbsolute = base.isAbsolute := by
  -- A path is absolute by its first character.
  have characters : base.text.toList ≠ [] := by simpa using filled
  obtain ⟨c, rest, parts⟩ := List.exists_cons_of_ne_nil characters
  -- The first character is that of the base.
  rw [join_of_relative relative filled, slashed]
  split <;> simp [isAbsolute, parts]

/-- What is joined to an absolute path is absolute. -/
theorem isAbsolute_join_of_isAbsolute {base : Path} (absolute : base.isAbsolute) (path : Path) :
    (base.join path).isAbsolute := by
  -- An absolute path replaces the base, and any other goes on from it.
  by_cases fromRoot : path.isAbsolute
  · rw [join_of_isAbsolute base fromRoot]
    exact fromRoot
  · rw [isAbsolute_join (by simpa using fromRoot) (filled_of_isAbsolute absolute)]
    exact absolute

/-- Joining one relative path after the other is joining them first. -/
theorem join_join (base : Path) {path behind : Path} (relative : path.isAbsolute = false)
    (alsoRelative : behind.isAbsolute = false) :
    (base.join path).join behind = base.join (path.join behind) := by
  -- An empty path takes no slash behind it, so it is told apart on both sides.
  by_cases empty : base.text = ""
  · rw [join_of_empty empty, join_of_empty empty]
  by_cases emptyPath : path.text = ""
  · -- What is joined to the base is then the slash behind it.
    have ends : base.slashed.toList.getLast? = some '/' := by
      rw [slashed]
      split
      · assumption
      · simp
    have filled : (⟨base.slashed⟩ : Path).text ≠ "" := base.slashed_ne_empty
    have whole : (⟨base.slashed⟩ : Path).slashed = base.slashed := if_pos ends
    rw [join_of_empty emptyPath, join_of_relative relative empty, emptyPath, String.append_empty,
      join_of_relative alsoRelative filled, join_of_relative alsoRelative empty, whole]
  · -- Whether a slash goes behind the path is seen at its own end.
    obtain ⟨init, final, parts⟩ : ∃ init final, path.text.toList = init ++ [final] := by
      have characters : path.text.toList ≠ [] := by simpa using emptyPath
      exact ⟨_, _, (List.dropLast_concat_getLast characters).symm⟩
    have filled : (⟨base.slashed ++ path.text⟩ : Path).text ≠ "" := by
      simp [String.append_eq_empty_iff, emptyPath]
    have whole : (⟨base.slashed ++ path.text⟩ : Path).slashed = base.slashed ++ path.slashed := by
      -- The last character of the joined text is that of the path.
      have last : (base.slashed ++ path.text).toList.getLast? = path.text.toList.getLast? := by
        simp [String.toList_append, parts, ← List.append_assoc]
      rw [slashed, last]
      conv_rhs => rw [slashed.eq_def path]
      split
      · rfl
      · rw [String.append_assoc]
    have joined : (path.join behind).isAbsolute = false := by
      rw [isAbsolute_join alsoRelative emptyPath, relative]
    rw [join_of_relative relative empty, join_of_relative alsoRelative filled,
      join_of_relative joined empty, join_of_relative alsoRelative emptyPath, whole,
      String.append_assoc]

/-- A path with a piece that is not empty is not empty. -/
theorem text_ne_empty {path : Path} {piece : String} (among : piece ∈ path.pieces)
    (named : piece ≠ "") : path.text ≠ "" := by
  -- The empty text has one piece, which is empty.
  intro empty
  have whole : path = ⟨""⟩ := congrArg mk empty
  rw [whole, pieces_empty, List.mem_singleton] at among
  exact named among

/-- A path whose pieces are parted is the path of the first ones, a slash and the path of the others. -/
theorem text_of_pieces_append {path : Path} {front behind : List String}
    (parts : path.pieces = front ++ behind) (filled : front ≠ []) (others : behind ≠ []) :
    path.text = (ofPieces front).text ++ "/" ++ (ofPieces behind).text ∧
      (ofPieces front).pieces = front ∧ (ofPieces behind).pieces = behind := by
  -- A text is its pieces with slashes in between.
  have plain {piece : String} (among : piece ∈ front ++ behind) : '/' ∉ piece.toList :=
    slash_not_mem_pieces (parts ▸ among)
  -- Pieces without slashes are cut again where they were joined.
  have piecesBehind : (ofPieces behind).pieces = behind :=
    pieces_ofPieces others fun piece among => plain (List.mem_append_right front among)
  refine ⟨?_, pieces_ofPieces filled fun piece among => plain (List.mem_append_left behind among),
    piecesBehind⟩
  have whole := ofPieces_append filled (ofPieces behind)
  rw [piecesBehind, ← parts, ofPieces_pieces] at whole
  exact congrArg Path.text whole

/-- The parent of an absolute path is what stands before its last piece that is not idle. -/
theorem parent?_of_absolute {path : Path} {middle idle : List String} {last : String}
    (parts : path.pieces = "" :: (middle ++ last :: idle)) (busy : ¬ isIdle last)
    (idles : ∀ piece ∈ idle, isIdle piece) :
    ∃ above, path.parent? = some above ∧
      above.pieces = "" :: (if dropIdleEnd middle = [] then [""] else dropIdleEnd middle) ∧
      ∃ behind, behind ≠ "" ∧ path.text = above.text ++ behind := by
  -- The idle pieces at the end are dropped first, then the last one that is not idle.
  have kept : dropIdleEnd (middle ++ last :: idle) = middle ++ [last] := by
    have whole : middle ++ last :: idle = middle ++ [last] ++ idle := by simp
    rw [whole, dropIdleEnd_append_of_idle _ idles, dropIdleEnd_of_last _ busy]
  obtain ⟨piece, others, body⟩ := List.exists_cons_of_ne_nil (List.concat_ne_nil last middle)
  have above : (piece :: others).dropLast = middle := by rw [← body, List.dropLast_concat]
  have parent : path.parent? =
      some (if dropIdleEnd middle = [] then ⟨"/"⟩ else ofPieces ("" :: dropIdleEnd middle)) := by
    rw [parent?, parts]
    simp only [kept, body, above, and_true]
  refine ⟨_, parent, ?_⟩
  -- Behind the parent stand the idle pieces of the middle, the last piece and those behind it.
  obtain ⟨idleMiddle, middleParts, _⟩ := dropIdleEnd_append middle
  have named : last ≠ "" := by
    intro empty
    simp [isIdle, empty] at busy
  by_cases bare : dropIdleEnd middle = []
  · -- With nothing left of the middle, the parent is the root.
    have split : path.pieces = [""] ++ (middle ++ last :: idle) := parts
    obtain ⟨text, _, piecesBehind⟩ := text_of_pieces_append split (by simp) (by simp)
    rw [if_pos bare, if_pos bare]
    refine ⟨by decide, (ofPieces (middle ++ last :: idle)).text, ?_, ?_⟩
    · have among : last ∈ (ofPieces (middle ++ last :: idle)).pieces := by
        rw [piecesBehind]
        simp
      exact text_ne_empty among named
    · rw [text]
      simp [ofPieces]
  · -- Otherwise the pieces that are left make up the parent, with the one before the root.
    have split : path.pieces = ("" :: dropIdleEnd middle) ++ (idleMiddle ++ last :: idle) := by
      rw [parts, List.cons_append, ← List.append_assoc, ← middleParts]
    obtain ⟨text, piecesFront, _⟩ := text_of_pieces_append split (by simp) (by simp)
    rw [if_neg bare, if_neg bare]
    refine ⟨piecesFront, "/" ++ (ofPieces (idleMiddle ++ last :: idle)).text, ?_, ?_⟩
    · simp [String.append_eq_empty_iff]
    · rw [text, String.append_assoc]

/-- An absolute path that is not empty pieces only has a last piece that is not idle. -/
theorem exists_parent?_of_absolute {path : Path} {above : Path} (absolute : path.isAbsolute)
    (parent : path.parent? = some above) :
    above.isAbsolute ∧ above.text.length < path.text.length := by
  -- An absolute path begins with an empty piece.
  obtain ⟨first, others⟩ := isAbsolute_iff.1 absolute
  obtain ⟨rest, pieces⟩ : ∃ rest, path.pieces = "" :: rest :=
    ⟨_, List.eq_cons_of_mem_head? first⟩
  by_cases bare : dropIdleEnd rest = []
  · -- Without such a piece the path is the root, which has no parent.
    rw [parent?, pieces] at parent
    simp [bare] at parent
  · obtain ⟨idle, parts, idles⟩ := dropIdleEnd_append rest
    obtain ⟨middle, last, ends, busy⟩ := last_dropIdleEnd bare
    have split : path.pieces = "" :: (middle ++ last :: idle) := by
      rw [pieces, parts, ends]
      simp
    obtain ⟨other, same, piecesAbove, behind, filled, text⟩ := parent?_of_absolute split busy idles
    rw [parent, Option.some.injEq] at same
    subst same
    constructor
    · -- The parent has the empty piece before the root and another one.
      rw [isAbsolute_iff, piecesAbove]
      refine ⟨rfl, ?_⟩
      show (if dropIdleEnd middle = [] then [""] else dropIdleEnd middle) ≠ []
      split
      · simp
      · assumption
    · have longer : 0 < behind.length := by
        rw [Nat.pos_iff_ne_zero, ne_eq, String.length_eq_zero_iff]
        exact filled
      rw [text, String.length_append]
      omega

/--
The parent of an absolute path has the first pieces of the path and those of the next ones before its last.

Which idle pieces the first ones end with may change, and so may the empty piece of the root.
-/
theorem parent?_of_append {path : Path} {front above idle : List String} {last : String}
    (absolute : path.isAbsolute) (parts : path.pieces = front ++ (above ++ last :: idle))
    (busy : ¬ isIdle last) (idles : ∀ piece ∈ idle, isIdle piece) :
    ∃ parent kept, path.parent? = some parent ∧ parent.isAbsolute ∧
      parent.text.utf8ByteSize ≤ path.text.utf8ByteSize ∧
      parent.pieces = kept ++ dropIdleEnd above ∧ dropIdleEnd kept = dropIdleEnd front ∧
      ∀ piece ∈ kept, piece = "" ∨ piece ∈ front := by
  -- The first piece is the empty one before the root, and it is none of those from the last one on.
  obtain ⟨middle, before⟩ : ∃ middle, front ++ above = "" :: middle := by
    have starts := Path.head?_pieces absolute
    rw [parts, ← List.append_assoc] at starts
    cases joined : front ++ above with
    | nil =>
      rw [joined, List.nil_append, List.head?_cons, Option.some.injEq] at starts
      simp [isIdle, starts] at busy
    | cons piece middle =>
      rw [joined, List.cons_append, List.head?_cons, Option.some.injEq] at starts
      exact ⟨middle, by rw [starts]⟩
  have inOrder : path.pieces = "" :: (middle ++ last :: idle) := by
    rw [parts, ← List.append_assoc, before, List.cons_append]
  obtain ⟨parent, isParent, pieces, behind, _, text⟩ := parent?_of_absolute inOrder busy idles
  obtain ⟨absoluteAbove, _⟩ := exists_parent?_of_absolute absolute isParent
  have shorter : parent.text.utf8ByteSize ≤ path.text.utf8ByteSize := by
    rw [text, String.utf8ByteSize_append]
    omega
  -- Where the middle has a piece that is not idle, the empty piece stands before it.
  have kept (busyMiddle : dropIdleEnd middle ≠ []) :
      "" :: dropIdleEnd middle = dropIdleEnd (front ++ above) := by
    rw [before]
    exact (dropIdleEnd_append_of_ne_nil [""] busyMiddle).symm
  by_cases bare : dropIdleEnd above = []
  · -- The first pieces alone are left, without the idle ones at their end.
    have same : dropIdleEnd (front ++ above) = dropIdleEnd front :=
      dropIdleEnd_append_of_idle front (isIdle_of_dropIdleEnd_eq_nil bare)
    by_cases top : dropIdleEnd middle = []
    · rw [if_pos top] at pieces
      refine ⟨parent, ["", ""], isParent, absoluteAbove, shorter, by rw [pieces, bare]; rfl, ?_, by simp⟩
      rw [← same, before]
      exact (dropIdleEnd_append_of_idle [""] (isIdle_of_dropIdleEnd_eq_nil top)).symm
    · rw [if_neg top, kept top, same] at pieces
      refine ⟨parent, dropIdleEnd front, isParent, absoluteAbove, shorter, ?_, dropIdleEnd_idem front, ?_⟩
      · rw [pieces, bare, List.append_nil]
      · intro piece among
        obtain ⟨idleFront, whole, _⟩ := dropIdleEnd_append front
        rw [whole]
        exact .inr (List.mem_append_left idleFront among)
  · have whole := dropIdleEnd_append_of_ne_nil front bare
    -- The middle ends with the next pieces, so it is not idle either.
    have busyMiddle : dropIdleEnd middle ≠ [] := by
      intro top
      have idleMiddle : dropIdleEnd ("" :: middle) = [] :=
        dropIdleEnd_append_of_idle [""] (isIdle_of_dropIdleEnd_eq_nil top)
      rw [← before, whole] at idleMiddle
      exact bare (List.append_eq_nil_iff.1 idleMiddle).2
    rw [if_neg busyMiddle, kept busyMiddle, whole] at pieces
    exact ⟨parent, front, isParent, absoluteAbove, shorter, pieces, rfl, fun _ among => .inr among⟩

/-- A parent is shorter than the path that it is the parent of. -/
theorem length_of_parent? {path above : Path} (parent : path.parent? = some above) :
    above.text.length < path.text.length := by
  -- The parent is a part of the path's text, without the last piece at least.
  by_cases absolute : path.isAbsolute
  · exact (exists_parent?_of_absolute absolute parent).2
  · obtain ⟨first, rest, parts⟩ := List.exists_cons_of_ne_nil path.pieces_ne_nil
    simp only [parent?, parts] at parent
    by_cases bare : dropIdleEnd rest = []
    · -- Only the empty path is above, and the first piece is not empty, or nothing would be.
      simp only [bare] at parent
      split at parent
      · cases parent
      · rename_i named
        cases parent
        have filled : path.text ≠ "" := text_ne_empty (by simp [parts]) named
        show 0 < path.text.length
        rwa [Nat.pos_iff_ne_zero, ne_eq, String.length_eq_zero_iff]
    · obtain ⟨front, last, ends, -⟩ := last_dropIdleEnd bare
      obtain ⟨idle, whole, -⟩ := dropIdleEnd_append rest
      obtain ⟨between, inner, -⟩ := dropIdleEnd_append front
      obtain ⟨piece, others, body⟩ := List.exists_cons_of_ne_nil bare
      rw [body] at parent ends
      have cut : (piece :: others).dropLast = front := by rw [ends, List.dropLast_concat]
      simp only [cut, Option.some.injEq] at parent
      -- Before more pieces an empty one would make the path absolute.
      have named : first ≠ "" := by
        rintro rfl
        refine absolute (isAbsolute_iff.2 ⟨by simp [parts], ?_⟩)
        rw [parts, List.tail_cons, whole, body]
        simp
      rw [if_neg (by simp [named])] at parent
      have split : path.pieces = (first :: dropIdleEnd front) ++ (between ++ last :: idle) := by
        rw [parts, whole, body, ends, List.cons_append]
        nth_rewrite 1 [inner]
        simp
      obtain ⟨text, -, -⟩ := text_of_pieces_append split (by simp) (by simp)
      rw [← parent, text, String.length_append, String.length_append]
      have slash : "/".length = 1 := rfl
      omega

/-- Any budget beyond its length tells all parents of a path. -/
theorem ancestorsWithin_eq (path : Path) (left right : Nat) (leftEnough : path.text.length < left)
    (rightEnough : path.text.length < right) :
    ancestorsWithin left path = ancestorsWithin right path := by
  -- Each parent is shorter, so it leaves a budget beyond its own length.
  induction left generalizing path right with
  | zero => omega
  | succ left ih =>
    cases right with
    | zero => omega
    | succ right =>
      simp only [ancestorsWithin]
      cases parent : path.parent? with
      | none => rfl
      | some above =>
        have shorter := length_of_parent? parent
        simp only [ih above right (by omega) (by omega)]

/-- The ancestors of a path are itself and those of its parent. -/
theorem ancestors_cons {path above : Path} (parent : path.parent? = some above) :
    path.ancestors = path :: above.ancestors := by
  -- The list goes on with the parent's, whatever budget is left beyond its length.
  have shorter := length_of_parent? parent
  -- The budget that is left for the parent is more than its length.
  have behind := above.ancestorsWithin_eq path.text.length (above.text.length + 1) (by omega)
    (by omega)
  rw [ancestors, ancestorsWithin, parent, ancestors]
  simp only [behind]

/-- A piece is no component exactly if it is idle. -/
theorem component?_eq_none_iff {piece : String} : component? piece = none ↔ isIdle piece := by
  -- The idle pieces are the ones that are left out.
  unfold component?
  split
  · rename_i idle
    simp [idle]
  · -- A step up and a name are components both.
    rename_i busy
    split <;> simp only [reduceCtorEq, busy, Bool.false_eq_true]

/-- Idle pieces bring no component. -/
theorem filterMap_component?_of_idle {pieces : List String} (idles : ∀ piece ∈ pieces, isIdle piece) :
    pieces.filterMap component? = [] :=
  List.filterMap_eq_nil_iff.2 fun piece among => component?_eq_none_iff.2 (idles piece among)

/-- Stripping the components of the first pieces leaves idle pieces and those behind. -/
theorem stripPieces_append (front behind : List String) :
    ∃ idle, stripPieces (front ++ behind) (front.filterMap component?) = some (idle ++ behind) ∧
      ∀ piece ∈ idle, isIdle piece := by
  -- Idle pieces are passed over while a component is looked for, and each other one is found.
  induction front with
  | nil => exact ⟨[], by simp [stripPieces], by simp⟩
  | cons piece rest ih =>
    obtain ⟨idle, stripped, idles⟩ := ih
    cases found : component? piece with
    | some component =>
      refine ⟨idle, ?_, idles⟩
      rw [List.filterMap_cons_some found, List.cons_append]
      simp only [stripPieces, found, if_true]
      exact stripped
    | none =>
      rw [List.filterMap_cons_none found, List.cons_append]
      cases components : rest.filterMap component? with
      | nil =>
        -- With no component to look for, nothing is passed over.
        refine ⟨piece :: rest, rfl, ?_⟩
        have others := List.filterMap_eq_nil_iff.1 components
        intro other among
        rcases List.mem_cons.1 among with rfl | behindFirst
        · exact component?_eq_none_iff.1 found
        · exact component?_eq_none_iff.1 (others other behindFirst)
      | cons component components =>
        refine ⟨idle, ?_, idles⟩
        simp only [stripPieces, found]
        rwa [‹rest.filterMap component? = _›] at stripped

/-- Without idle pieces at both ends, pieces make up a path with the components of all of them. -/
theorem components_ofPieces {pieces : List String} (plain : ∀ piece ∈ pieces, '/' ∉ piece.toList) :
    (ofPieces (dropIdleEnd (pieces.dropWhile isIdle))).components = pieces.filterMap component? := by
  -- What is dropped is idle and brings no component.
  obtain ⟨idle, parts, idles⟩ := dropIdleEnd_append (pieces.dropWhile isIdle)
  have whole : pieces = pieces.takeWhile isIdle ++ (dropIdleEnd (pieces.dropWhile isIdle) ++ idle) := by
    rw [← parts, List.takeWhile_append_dropWhile]
  have same : pieces.filterMap component? =
      (dropIdleEnd (pieces.dropWhile isIdle)).filterMap component? := by
    conv_lhs => rw [whole]
    rw [List.filterMap_append, List.filterMap_append, filterMap_component?_of_idle idles,
      filterMap_component?_of_idle fun piece among => List.mem_takeWhile_imp among]
    simp
  rw [same]
  cases kept : dropIdleEnd (pieces.dropWhile isIdle) with
  | nil => decide
  | cons first rest =>
    rw [kept] at parts whole
    -- The first piece that is left is not idle, so it is neither the root's nor a dot.
    have busy : ¬ isIdle first := by
      have head := List.head?_dropWhile_not isIdle pieces
      rw [parts] at head
      simpa using head
    have cut : (ofPieces (first :: rest)).pieces = first :: rest := by
      refine pieces_ofPieces (by simp) fun piece among => plain piece ?_
      rw [whole]
      exact List.mem_append_right _ (List.mem_append_left _ among)
    have relative : (ofPieces (first :: rest)).isAbsolute = false := by
      refine Bool.eq_false_iff.2 fun absolute => busy ?_
      have empty := (isAbsolute_iff.1 absolute).1
      rw [cut, List.head?_cons, Option.some.injEq] at empty
      simp [isIdle, empty]
    have other : first ≠ "." := by
      intro here
      simp [isIdle, here] at busy
    rw [components, cut]
    simp only [firstComponent?, relative, other, if_false, Bool.false_eq_true]
    cases found : component? first with
    | none => exact absurd (component?_eq_none_iff.1 found) busy
    | some component => rw [List.filterMap_cons_some found, Option.toList_some, List.singleton_append]

/-- What is joined to an absolute path is left when that path is stripped. -/
theorem strip?_join {root path : Path} (absolute : root.isAbsolute)
    (relative : path.isAbsolute = false) :
    ∃ rest, (root.join path).strip? root = some rest ∧
      rest.components = path.pieces.filterMap component? := by
  -- Stripping takes the components of the root off the front.
  have filled := filled_of_isAbsolute absolute
  obtain ⟨kept, blanks, rootParts, blank, keeps, joined⟩ := pieces_join relative
  obtain ⟨first, others⟩ := isAbsolute_iff.1 absolute
  obtain ⟨outer, front, rfl⟩ := List.exists_cons_of_ne_nil (keeps filled)
  -- Both paths begin with the empty piece of the root, and share the components behind it.
  have begins : outer = "" := by simpa [rootParts] using first
  subst begins
  have noBlank : blanks.filterMap component? = [] :=
    filterMap_component?_of_idle fun piece among => by simp [isIdle, blank piece among]
  have rootComponents : root.components = .root :: front.filterMap component? := by
    rw [components, rootParts]
    simp [firstComponent?, absolute, noBlank]
  obtain ⟨idle, stripped, idles⟩ := stripPieces_append front path.pieces
  have starts : (root.join path).firstComponent? "" = some .root := by
    rw [firstComponent?, isAbsolute_join relative filled, if_pos absolute]
  refine ⟨ofPieces (dropIdleEnd ((idle ++ path.pieces).dropWhile isIdle)), ?_, ?_⟩
  · rw [strip?, rootComponents, joined]
    simp [starts, stripped]
  · -- The pieces that are left hold no slash, as an idle piece is empty or a dot.
    have plain : ∀ piece ∈ idle ++ path.pieces, '/' ∉ piece.toList := by
      intro piece among
      rcases List.mem_append.1 among with dropped | kept
      · have idlePiece := idles piece dropped
        simp only [isIdle, decide_eq_true_eq] at idlePiece
        rcases idlePiece with rfl | rfl <;> decide
      · exact slash_not_mem_pieces kept
    rw [components_ofPieces plain, List.filterMap_append, filterMap_component?_of_idle idles,
      List.nil_append]

end Path

/-- A relative path behind another one leads on from where that one leads. -/
theorem FileSystem.place_join_of_relative (fs : FileSystem) {base path : Path}
    (filled : base.text ≠ "") (relative : path.isAbsolute = false) :
    fs.place (base.join path) = follow (fs.place base) (path.pieces.map Step.ofPiece) := by
  obtain ⟨kept, blanks, parts, blank, _, joined⟩ := @Path.pieces_join base path relative
  -- The blank pieces that joining drops do not move.
  have idle : ∀ piece ∈ blanks, isIdle piece := fun piece among => by simp [isIdle, blank piece among]
  rw [place, place, Path.isAbsolute_join relative filled, joined, parts]
  simp only [follow, List.map_append, List.foldl_append]
  exact congrArg (List.foldl Step.move · _) (follow_idle _ idle).symm

end BoardConfig
