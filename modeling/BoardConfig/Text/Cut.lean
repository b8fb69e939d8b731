/-! Cutting a text at each occurrence of a separator. -/

namespace BoardConfig

/-- The runs between the separators of a text, one more than there are separators. -/
def runsBetween (separator : Char) : List Char → List (List Char)
  | [] => [[]]
  | c :: rest =>
    if c = separator then [] :: runsBetween separator rest
    else (runsBetween separator rest).modifyHead (c :: ·)

/-- There is always at least one run. -/
theorem runsBetween_ne_nil (separator : Char) (text : List Char) :
    runsBetween separator text ≠ [] := by
  -- Even an empty text is one run.
  induction text with
  | nil => simp [runsBetween]
  | cons c rest ih =>
    by_cases same : c = separator
    · simp [runsBetween, same]
    · cases runs : runsBetween separator rest with
      | nil => exact absurd runs ih
      | cons run others => simp [runsBetween, same, runs]

/-- No run holds the separator. -/
theorem separator_not_mem_runsBetween {separator : Char} {text run : List Char}
    (member : run ∈ runsBetween separator text) : separator ∉ run := by
  -- The first character ends a run or extends the first one.
  induction text generalizing run with
  | nil => simp_all [runsBetween]
  | cons c rest ih =>
    by_cases same : c = separator
    · simp only [runsBetween, same, if_true, List.mem_cons] at member
      rcases member with rfl | later
      · simp
      · exact ih later
    · cases runs : runsBetween separator rest with
      | nil => exact absurd runs (runsBetween_ne_nil separator rest)
      | cons first others =>
        simp only [runsBetween, same, if_false, runs, List.modifyHead_cons, List.mem_cons] at member
        rcases member with rfl | later
        · simp only [List.mem_cons, not_or]
          exact ⟨fun h => same h.symm, ih (by simp [runs])⟩
        · exact ih (by simp [runs, later])

/-- Joining the runs with the separator gives the text back. -/
theorem intercalate_runsBetween (separator : Char) (text : List Char) :
    [separator].intercalate (runsBetween separator text) = text := by
  -- The first character is put back before the first run, with the separator or without.
  induction text with
  | nil => simp [runsBetween, List.intercalate]
  | cons c rest ih =>
    cases runs : runsBetween separator rest with
    | nil => exact absurd runs (runsBetween_ne_nil separator rest)
    | cons first others =>
      rw [runs] at ih
      by_cases same : c = separator
      · subst same
        cases others <;> simp_all [runsBetween, List.intercalate, List.intersperse]
      · cases others <;> simp_all [runsBetween, List.intercalate, List.intersperse]

/-- A text without the separator is one run. -/
theorem runsBetween_of_not_mem {separator : Char} {text : List Char} (absent : separator ∉ text) :
    runsBetween separator text = [text] := by
  -- No character starts a second run, so each one joins the run behind it.
  induction text with
  | nil => rfl
  | cons c rest ih =>
    simp only [List.mem_cons, not_or] at absent
    simp [runsBetween, Ne.symm absent.1, ih absent.2]

/-- A separator ends the run before it. -/
theorem runsBetween_append_cons {separator : Char} {run : List Char} (absent : separator ∉ run)
    (rest : List Char) :
    runsBetween separator (run ++ separator :: rest) = run :: runsBetween separator rest := by
  -- The run has no separator of its own, so it goes on up to the one behind it.
  induction run with
  | nil => simp [runsBetween]
  | cons c others ih =>
    simp only [List.mem_cons, not_or] at absent
    simp [runsBetween, Ne.symm absent.1, ih absent.2]

/-- Cutting on both sides of a separator is cutting the whole text. -/
theorem runsBetween_append_separator (separator : Char) (before after : List Char) :
    runsBetween separator (before ++ separator :: after) =
      runsBetween separator before ++ runsBetween separator after := by
  -- The first character ends a run or extends the first one, which is there on the left.
  induction before with
  | nil => simp [runsBetween]
  | cons c rest ih =>
    by_cases same : c = separator
    · simp [runsBetween, same, ih]
    · cases runs : runsBetween separator rest with
      | nil => exact absurd runs (runsBetween_ne_nil separator rest)
      | cons first others => simp [runsBetween, same, ih, runs]

/-- Joining two runs or more puts the first separator behind the first run. -/
theorem intercalate_cons_cons (separator : Char) (run next : List Char) (others : List (List Char)) :
    [separator].intercalate (run :: next :: others) =
      run ++ separator :: [separator].intercalate (next :: others) := by
  -- The library writes a join as a flattened list with separators in between.
  simp [List.intercalate, List.intersperse]

/-- Cutting at the separators gives back runs that were joined with them. -/
theorem runsBetween_intercalate {separator : Char} {runs : List (List Char)} (filled : runs ≠ [])
    (absent : ∀ run ∈ runs, separator ∉ run) :
    runsBetween separator ([separator].intercalate runs) = runs := by
  -- The first run ends at the first separator, and behind it the others are joined.
  induction runs with
  | nil => exact absurd rfl filled
  | cons run rest ih =>
    have first := absent run List.mem_cons_self
    cases rest with
    | nil => simpa [List.intercalate] using runsBetween_of_not_mem first
    | cons next others =>
      have later := ih (by simp) fun other among => absent other (List.mem_cons_of_mem _ among)
      rw [intercalate_cons_cons, runsBetween_append_cons first, later]

/-- What is joined with separators holds nothing else than they and the runs do. -/
theorem mem_intercalate {separator c : Char} {runs : List (List Char)}
    (member : c ∈ [separator].intercalate runs) : c = separator ∨ ∃ run ∈ runs, c ∈ run := by
  -- The character is in the first run, the separator behind it, or in what follows.
  induction runs with
  | nil => simp [List.intercalate] at member
  | cons run rest ih =>
    cases rest with
    | nil => exact .inr ⟨run, List.mem_cons_self, by simpa [List.intercalate] using member⟩
    | cons next others =>
      rw [intercalate_cons_cons, List.mem_append, List.mem_cons] at member
      rcases member with here | mark | behind
      · exact .inr ⟨run, List.mem_cons_self, here⟩
      · exact .inl mark
      · refine (ih behind).imp_right ?_
        rintro ⟨other, among, inside⟩
        exact ⟨other, List.mem_cons_of_mem _ among, inside⟩

/-- What is joined with separators holds all that the runs do. -/
theorem mem_intercalate_of_mem {separator c : Char} {runs : List (List Char)} {run : List Char}
    (among : run ∈ runs) (inside : c ∈ run) : c ∈ [separator].intercalate runs := by
  -- The run is the first one, before its separator, or comes in what follows.
  induction runs with
  | nil => cases among
  | cons first rest ih =>
    cases rest with
    | nil =>
      rw [List.mem_singleton] at among
      simpa [List.intercalate, ← among] using inside
    | cons next others =>
      rw [intercalate_cons_cons, List.mem_append, List.mem_cons]
      rcases List.mem_cons.1 among with rfl | behind
      · exact .inl inside
      · exact .inr (.inr (ih behind))

end BoardConfig
