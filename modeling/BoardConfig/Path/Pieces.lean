import BoardConfig.Path

/-! The pieces of a path, which hold all of its text. -/

namespace BoardConfig.Path

/-- The characters of pieces joined by slashes are those of the joined lists. -/
theorem toList_ofPieces (pieces : List String) :
    (ofPieces pieces).text.toList = ['/'].intercalate (pieces.map String.toList) := by
  -- Joining texts joins their characters, and the slash is a single one.
  rw [ofPieces, String.toList_intercalate]
  rfl

/-- No text is lost between the pieces of a path. -/
theorem ofPieces_pieces (path : Path) : ofPieces path.pieces = path := by
  -- The pieces are the runs between the slashes, which joining puts together again.
  have same : (ofPieces path.pieces).text = path.text := by
    apply String.toList_injective
    rw [toList_ofPieces, pieces, List.map_map]
    simp only [Function.comp_def, String.toList_ofList, List.map_id']
    exact intercalate_runsBetween '/' path.text.toList
  exact congrArg Path.mk same

/-- A piece of a path holds no slash. -/
theorem slash_not_mem_pieces {path : Path} {piece : String} (member : piece ∈ path.pieces) :
    '/' ∉ piece.toList := by
  -- A piece is one of the runs between the slashes.
  obtain ⟨run, among, rfl⟩ := List.mem_map.1 member
  rw [String.toList_ofList]
  exact separator_not_mem_runsBetween among

/-- An absolute path stands for itself below any other one. -/
theorem join_of_isAbsolute (base : Path) {path : Path} (absolute : path.isAbsolute) :
    base.join path = path := by
  -- The definition asks for this case first and returns the path as it is.
  simp [join, absolute]

end BoardConfig.Path
