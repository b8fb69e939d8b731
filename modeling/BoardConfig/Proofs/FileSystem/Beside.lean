import BoardConfig.Path.Pieces
import BoardConfig.Proofs.FileSystem.Place
import Mathlib.Data.List.DropRight

/-! A path that starts beside a file leads where it leads from the directory that holds the file. -/

namespace BoardConfig

/-- Joining two lists of runs puts a separator between the joined lists. -/
theorem intercalate_append {separator : Char} {first second : List (List Char)} (filled : first ≠ [])
    (others : second ≠ []) :
    [separator].intercalate (first ++ second) =
      [separator].intercalate first ++ separator :: [separator].intercalate second := by
  -- Each run of the first list brings the separator behind it.
  induction first with
  | nil => exact absurd rfl filled
  | cons run rest ih =>
    cases rest with
    | nil =>
      cases second with
      | nil => exact absurd rfl others
      | cons next later =>
        rw [List.singleton_append, intercalate_cons_cons]
        simp [List.intercalate]
    | cons next later =>
      have behind := ih (by simp)
      rw [List.cons_append] at behind
      rw [List.cons_append, List.cons_append, intercalate_cons_cons, behind, intercalate_cons_cons,
        List.append_assoc, List.cons_append]

/-- Nothing but the idle pieces at the end is dropped. -/
theorem dropIdleEnd_append (pieces : List String) :
    ∃ idle, pieces = dropIdleEnd pieces ++ idle ∧ ∀ piece ∈ idle, isIdle piece :=
  ⟨pieces.rtakeWhile isIdle, List.rdropWhile_append_rtakeWhile.symm,
    fun _ among => List.mem_rtakeWhile_imp among⟩

/-- Unless all pieces are idle, one that is not idle comes to the end. -/
theorem last_dropIdleEnd {pieces : List String} (busy : dropIdleEnd pieces ≠ []) :
    ∃ front last, dropIdleEnd pieces = front ++ [last] ∧ ¬ isIdle last :=
  ⟨_, _, (List.dropLast_concat_getLast busy).symm, List.rdropWhile_last_not isIdle pieces busy⟩

/-- Pieces that end with one that is not idle lose none. -/
theorem dropIdleEnd_of_last (pieces : List String) {last : String} (busy : ¬ isIdle last) :
    dropIdleEnd (pieces ++ [last]) = pieces ++ [last] :=
  List.rdropWhile_concat_neg isIdle pieces last busy

namespace Path

/-- A path always has a piece. -/
theorem pieces_ne_nil (path : Path) : path.pieces ≠ [] := by
  -- Cutting a text gives one run at least.
  simp [pieces, runsBetween_ne_nil]

/-- Pieces without a slash are those of the path that they make up. -/
theorem pieces_ofPieces {pieces : List String} (filled : pieces ≠ [])
    (plain : ∀ piece ∈ pieces, '/' ∉ piece.toList) : (ofPieces pieces).pieces = pieces := by
  -- Cutting at the slashes gives the joined pieces back.
  have cut : runsBetween '/' (['/'].intercalate (pieces.map String.toList)) =
      pieces.map String.toList := by
    refine runsBetween_intercalate (by simpa using filled) fun run among => ?_
    obtain ⟨piece, member, rfl⟩ := List.mem_map.1 among
    exact plain piece member
  rw [Path.pieces, toList_ofPieces, cut, List.map_map]
  simp [Function.comp_def]

/-- A path is absolute exactly if an empty piece comes before another one. -/
theorem isAbsolute_iff {path : Path} :
    path.isAbsolute ↔ path.pieces.head? = some "" ∧ path.pieces.tail ≠ [] := by
  -- A slash at the start cuts off an empty piece, and any other character lengthens the first one.
  rw [isAbsolute, decide_eq_true_eq, pieces]
  cases path.text.toList with
  | nil => simp [runsBetween]
  | cons c rest =>
    by_cases slash : c = '/'
    · simp [slash, runsBetween, runsBetween_ne_nil]
    · cases runs : runsBetween '/' rest with
      | nil => exact absurd runs (runsBetween_ne_nil '/' rest)
      | cons run others =>
        simp [slash, runsBetween, runs]

/-- The text of a path ends the path that it is joined to. -/
theorem join_text (base path : Path) : ∃ front, (base.join path).text = front ++ path.text := by
  -- In all three cases the path's text comes last.
  unfold join
  split
  · exact ⟨"", by simp⟩
  · split
    · exact ⟨base.text, rfl⟩
    · exact ⟨base.text ++ "/", rfl⟩

/-- Joined to a parent without its idle pieces, a relative path adds its pieces. -/
theorem ofPieces_append {above : List String} (filled : above ≠ []) (path : Path) :
    ofPieces (above ++ path.pieces) = ⟨(ofPieces above).text ++ "/" ++ path.text⟩ := by
  -- Both sides have the same characters.
  have same : (ofPieces (above ++ path.pieces)).text = (ofPieces above).text ++ "/" ++ path.text := by
    apply String.toList_injective
    have whole := congrArg (fun path => path.text.toList) (ofPieces_pieces path)
    simp only [toList_ofPieces] at whole
    rw [toList_ofPieces, List.map_append, intercalate_append (by simpa using filled)
      (by simpa using path.pieces_ne_nil), whole]
    simp [toList_ofPieces]
  exact congrArg Path.mk same

/-- Below pieces of which the last is named, a relative path adds its own. -/
theorem join_ofPieces {front : List String} {last : String} {relative : Path} (named : last ≠ "")
    (plain : '/' ∉ last.toList) (isRelative : relative.isAbsolute = false) :
    (ofPieces (front ++ [last])).join relative = ofPieces (front ++ [last] ++ relative.pieces) := by
  -- The path ends with a character of its last piece, so there is no slash at its end.
  obtain ⟨start, ends⟩ : ∃ start, (ofPieces (front ++ [last])).text.toList = start ++ last.toList := by
    rw [toList_ofPieces]
    cases front with
    | nil => exact ⟨[], by simp [List.intercalate]⟩
    | cons first rest =>
      rw [List.map_append, intercalate_append (by simp) (by simp)]
      exact ⟨['/'].intercalate ((first :: rest).map String.toList) ++ ['/'],
        by simp [List.intercalate]⟩
  obtain ⟨init, final, characters⟩ : ∃ init final, last.toList = init ++ [final] := by
    have filled : last.toList ≠ [] := by simpa using named
    exact ⟨_, _, (List.dropLast_concat_getLast filled).symm⟩
  have noSlash : (ofPieces (front ++ [last])).text.toList.getLast? ≠ some '/' := by
    rw [ends, characters, ← List.append_assoc, List.getLast?_concat]
    rintro ⟨⟩
    simp [characters] at plain
  have filled : (ofPieces (front ++ [last])).text ≠ "" := by
    intro empty
    simp [empty, characters] at ends
  rw [ofPieces_append (by simp), join, if_neg (by simp [isRelative, filled]), if_neg noSlash]

/-- Below the root, a relative path adds its pieces to the empty one that begins absolute paths. -/
theorem join_root {relative : Path} (isRelative : relative.isAbsolute = false) :
    (⟨"/"⟩ : Path).join relative = ofPieces ([""] ++ relative.pieces) := by
  -- An absolute path begins with a slash, behind the empty piece.
  rw [ofPieces_append (by simp), join, if_neg (by simp [isRelative]), if_pos (by decide)]
  rfl

/-- Above a path of one piece there is the empty path. -/
theorem parent?_of_single {path : Path} {last : String} (parts : path.pieces = [last])
    (named : last ≠ "") : path.parent? = some ⟨""⟩ := by
  -- Behind the only piece there is none to drop.
  rw [parent?, parts]
  simp [dropIdleEnd, named]

/-- Above a path of more pieces there are those before the last, without the idle ones at their end. -/
theorem parent?_of_pieces {path : Path} {first last : String} {rest : List String}
    (parts : path.pieces = first :: rest ++ [last]) (busy : ¬ isIdle last) :
    path.parent? = some
      (if dropIdleEnd rest = [] ∧ first = "" then ⟨"/"⟩ else ofPieces (first :: dropIdleEnd rest)) := by
  -- The last piece is not idle, so it is the one that is cut off.
  obtain ⟨piece, others, body⟩ := List.exists_cons_of_ne_nil (List.concat_ne_nil last rest)
  have above : (piece :: others).dropLast = rest := by rw [← body, List.dropLast_concat]
  have whole := dropIdleEnd_of_last rest busy
  rw [body] at whole
  rw [parent?, parts, List.cons_append, body]
  simp only [whole, above]

/-- A relative path that starts beside another one has the other's pieces above the last in front. -/
theorem join_parent {path relative : Path} {above : List String} {last : String}
    (parts : path.pieces = above ++ [last]) (busy : ¬ isIdle last)
    (isRelative : relative.isAbsolute = false) :
    ∃ kept idle, above = kept ++ idle ∧ (kept = [] → above = []) ∧ (∀ piece ∈ idle, isIdle piece) ∧
      (path.parent?.getD ⟨""⟩).join relative = ofPieces (kept ++ relative.pieces) := by
  -- The parent drops the last piece and the idle ones before it.
  cases above with
  | nil =>
    -- A path of one piece has the empty parent, below which the relative path stands for itself.
    have named : last ≠ "" := by
      rintro rfl
      simp [isIdle] at busy
    refine ⟨[], [], rfl, fun _ => rfl, by simp, ?_⟩
    rw [parent?_of_single parts named, List.nil_append, ofPieces_pieces]
    simp [join]
  | cons first rest =>
    obtain ⟨idle, split, isIdles⟩ := dropIdleEnd_append rest
    refine ⟨first :: dropIdleEnd rest, idle, by rw [List.cons_append, ← split], by simp, isIdles, ?_⟩
    rw [parent?_of_pieces parts busy, Option.getD_some]
    split
    · -- The parent is the root itself, which keeps the empty piece alone.
      rename_i root
      rw [root.1, root.2]
      exact join_root isRelative
    · rename_i notRoot
      have plain {piece : String} (among : piece ∈ first :: rest) : '/' ∉ piece.toList := by
        have member : piece ∈ path.pieces := parts ▸ List.mem_append_left [last] among
        exact slash_not_mem_pieces member
      by_cases bare : dropIdleEnd rest = []
      · -- The first piece alone is left, and it is not that of the root.
        have named : first ≠ "" := fun empty => notRoot ⟨bare, empty⟩
        have single : [first] = [] ++ [first] := rfl
        rw [bare, single]
        exact join_ofPieces named (plain List.mem_cons_self) isRelative
      · -- The last piece that is kept is not idle, so it is named.
        obtain ⟨front, final, ends, named⟩ := last_dropIdleEnd bare
        have among : final ∈ rest := by
          rw [split, ends]
          simp
        rw [ends, ← List.cons_append]
        refine join_ofPieces ?_ (plain (List.mem_cons_of_mem first among)) isRelative
        rintro rfl
        simp [isIdle] at named

/-- The path beside another one starts where the other does and takes the same way to its parent. -/
theorem pieces_join_parent {path relative : Path} {above : List String} {last : String}
    (parts : path.pieces = above ++ [last]) (busy : ¬ isIdle last)
    (isRelative : relative.isAbsolute = false) :
    ∃ kept idle, above = kept ++ idle ∧ (∀ piece ∈ idle, isIdle piece) ∧
      ((path.parent?.getD ⟨""⟩).join relative).pieces = kept ++ relative.pieces ∧
      ((path.parent?.getD ⟨""⟩).join relative).isAbsolute = path.isAbsolute := by
  -- The joined path is made of the kept pieces and those of the relative path.
  obtain ⟨kept, idle, split, bare, isIdles, joined⟩ := join_parent parts busy isRelative
  have pieces : (ofPieces (kept ++ relative.pieces)).pieces = kept ++ relative.pieces := by
    refine pieces_ofPieces (by simp [relative.pieces_ne_nil]) fun piece among => ?_
    rcases List.mem_append.1 among with before | behind
    · have member : piece ∈ path.pieces := by simp [parts, split, before]
      exact slash_not_mem_pieces member
    · exact slash_not_mem_pieces behind
  refine ⟨kept, idle, split, isIdles, joined ▸ pieces, ?_⟩
  rw [joined, Bool.eq_iff_iff, isAbsolute_iff, isAbsolute_iff, pieces, parts, split]
  cases kept with
  | nil =>
    -- Then both are relative, as the path has one piece only.
    have below := mt isAbsolute_iff.2 (Bool.eq_false_iff.1 isRelative)
    have alone : idle = [] := by simpa [split] using bare rfl
    simpa [alone] using below
  | cons first rest => simp [relative.pieces_ne_nil]

end Path

namespace FileSystem

/-- Walks do not depend on the working directory. -/
theorem walk_cwd (fs : FileSystem) (cwd start : Location) (steps : List Step) :
    ({ fs with cwd } : FileSystem).walk start steps = fs.walk start steps := by
  -- Induction on the steps, which look at the entries alone.
  induction steps generalizing start with
  | nil => rfl
  | cons step rest ih => simp only [walk, lookUp, entryAt?_cwd, ih]

/-- The end of an acceptable path is acceptable from every directory. -/
theorem origin_of_ends {fs : FileSystem} {path ending : Path} {found : Location × List String}
    {front : String} (accepted : fs.origin path = .ok found) (ends : path.text = front ++ ending.text)
    (filled : ending.text ≠ "") (cwd : Location) :
    ({ fs with cwd } : FileSystem).origin ending =
      .ok (if ending.isAbsolute then [] else cwd, ending.pieces) := by
  -- The end has no more bytes than the path, and no other characters.
  unfold origin at accepted ⊢
  split at accepted
  · cases accepted
  · split at accepted
    · cases accepted
    · rename_i noZero
      split at accepted
      · cases accepted
      · rename_i short
        rw [ends] at noZero short
        rw [if_neg filled, if_neg, if_neg]
        · rw [String.utf8ByteSize_append] at short
          omega
        · intro zero
          exact noZero (by simp [zero])

/-- The last piece of a path that leads to a file names it in the directory that holds it. -/
theorem pieces_of_file {fs : FileSystem} {path : Path} {location : Location} {contents : ByteArray}
    (leads : fs.locateFile path = .ok (location, contents)) :
    ∃ above name, path.pieces = above ++ [name.text] ∧ location = name :: location.tail ∧
      fs.walk (if path.isAbsolute then [] else fs.cwd) (above.map Step.ofPiece) =
        .ok location.tail := by
  -- The walk to the file is cut before its last step.
  obtain ⟨located, stands⟩ := locateFile_ok leads
  unfold locate at located
  split at located
  · rename_i start pieces accepted
    obtain ⟨rfl, rfl⟩ := origin_ok accepted
    obtain ⟨above, last, parts⟩ : ∃ above last, path.pieces = above ++ [last] :=
      ⟨_, _, (List.dropLast_concat_getLast path.pieces_ne_nil).symm⟩
    rw [parts, List.map_append, walk_append_ok_iff] at located
    obtain ⟨middle, walked, final⟩ := located
    obtain ⟨⟨directory, _⟩, arrives⟩ := walk_cons_ok_iff.1 final
    cases arrives
    -- A last step that does not enter the file would end in a directory.
    cases step : Step.ofPiece last with
    | stay => simp [step, Step.move, directory] at stands
    | up =>
      rw [step] at stands
      cases middle with
      | nil => simp [Step.move] at stands
      | cons inner above => simp [Step.move, entryAt?_above directory] at stands
    | enter name =>
      refine ⟨above, name, ?_, rfl, walked⟩
      unfold Step.ofPiece at step
      split at step
      · cases step
        exact parts
      · split at step <;> cases step
  · cases located

/-- A path that starts beside a file leads where it leads from the directory that holds the file. -/
theorem locate_beside {fs : FileSystem} {path relative : Path} {location arrival : Location}
    {contents : ByteArray} (leads : fs.locateFile path = .ok (location, contents))
    (filled : relative.text ≠ "")
    (onwards : fs.locate ((path.parent?.getD ⟨""⟩).join relative) = .ok arrival) :
    ({ fs with cwd := location.tail } : FileSystem).locate relative = .ok arrival := by
  -- The file's path is cut before the name of the file, which leads to the directory.
  obtain ⟨above, name, parts, inside, walked⟩ := pieces_of_file leads
  obtain ⟨front, ends⟩ := (path.parent?.getD ⟨""⟩).join_text relative
  unfold locate at onwards ⊢
  split at onwards
  · rename_i start pieces accepted
    obtain ⟨rfl, rfl⟩ := origin_ok accepted
    rw [origin_of_ends accepted ends filled]
    simp only [walk_cwd]
    cases absolute : relative.isAbsolute with
    | true => simpa [Path.join_of_isAbsolute _ absolute, absolute] using onwards
    | false =>
      obtain ⟨kept, idle, split, isIdles, pieces, sameStart⟩ :=
        Path.pieces_join_parent parts name.not_isIdle absolute
      -- Both ways take the kept pieces, behind which the idle ones do not move.
      rw [pieces, sameStart, List.map_append, walk_append_ok_iff] at onwards
      obtain ⟨middle, toMiddle, fromMiddle⟩ := onwards
      rw [split, List.map_append, walk_append_ok_iff] at walked
      obtain ⟨same, toSame, stays⟩ := walked
      have arrived := walk_ok stays
      rw [follow_idle same isIdles] at arrived
      rw [toMiddle, ← arrived] at toSame
      cases toSame
      simpa using fromMiddle
  · cases onwards

end FileSystem

end BoardConfig
