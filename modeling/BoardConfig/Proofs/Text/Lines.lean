import BoardConfig.Text.Cut

/-! Lines of a text, and what stands behind a marker on them. -/

namespace BoardConfig

/-- A line with a value between fixed texts; a line without one has an empty value. -/
structure Line where
  /-- The text before the value. -/
  before : String
  /-- The characters of the value. -/
  value : List Char := []
  /-- The text behind the value. -/
  after : String := ""

/-- The characters of a line. -/
def Line.text (line : Line) : List Char :=
  line.before.toList ++ (line.value ++ line.after.toList)

/-- The characters of a line are those of its parts. -/
theorem text_line (before : String) (value : List Char) (after : String) :
    (⟨before, value, after⟩ : Line).text = before.toList ++ (value ++ after.toList) := rfl

/-- The text of lines, each of which ends. -/
def textOfLines (lines : List Line) : List Char :=
  lines.flatMap (·.text ++ ['\n'])

/-- The text behind the first place where a marker stands. -/
def behind? (marker : List Char) : List Char → Option (List Char)
  | [] => none
  | c :: rest =>
    if marker.isPrefixOf (c :: rest) then some ((c :: rest).drop marker.length)
    else behind? marker rest

/-- What stands behind a marker on a line, up to a semicolon. -/
def literalOn? (marker line : List Char) : Option String :=
  (behind? marker line).map fun rest => String.ofList (rest.takeWhile (· ≠ ';'))

/-- What stands behind a marker on each line of a text that holds the marker. -/
def literalsAfter (marker text : String) : List String :=
  (runsBetween '\n' text.toList).filterMap (literalOn? marker.toList)

/-- Whether a marker neither stands in a text nor begins in it and goes on behind it. -/
def isFreeOf (marker : List Char) : List Char → Bool
  | [] => true
  | c :: rest =>
    !marker.isPrefixOf (c :: rest) && !(c :: rest).isPrefixOf marker && isFreeOf marker rest

/-- Lines that end are the runs between the line ends, before an empty one. -/
theorem runsBetween_textOfLines {lines : List Line} (plain : ∀ line ∈ lines, '\n' ∉ line.text) :
    runsBetween '\n' (textOfLines lines) = lines.map Line.text ++ [[]] := by
  -- The first line ends at the first line end, and the others follow behind it.
  induction lines with
  | nil => rfl
  | cons line rest ih =>
    have first := plain line List.mem_cons_self
    have later := ih fun other among => plain other (List.mem_cons_of_mem _ among)
    have split : textOfLines (line :: rest) = line.text ++ '\n' :: textOfLines rest := by
      simp [textOfLines]
    rw [split, runsBetween_append_cons first, later, List.map_cons, List.cons_append]

/-- The first run ends before the first separator. -/
theorem runsBetween_eq_cons (separator : Char) (text : List Char) :
    runsBetween separator text =
      text.takeWhile (· ≠ separator) :: (runsBetween separator text).tail := by
  -- The run in progress goes on character by character, up to a separator or the end.
  induction text with
  | nil => rfl
  | cons c rest ih =>
    -- A separator ends the run at once, and any other character begins the run of the rest.
    by_cases same : c = separator
    · simp [runsBetween, same]
    · rw [runsBetween, if_neg same, ih]
      simp [same]

/-- What a text begins with begins its first run, unless it goes on behind the separator. -/
theorem isPrefixOf_takeWhile {separator : Char} {marker : List Char} (plain : separator ∉ marker)
    (text : List Char) :
    marker.isPrefixOf (text.takeWhile (· ≠ separator)) = marker.isPrefixOf text := by
  -- Marker and text are compared character by character, and no separator agrees with the marker's.
  induction marker generalizing text with
  | nil => simp
  | cons first others ih =>
    simp only [List.mem_cons, not_or] at plain
    cases text with
    | nil => rfl
    | cons c rest =>
      by_cases same : c = separator
      · simp [same, List.isPrefixOf, Ne.symm plain.1]
      · simp [same, List.isPrefixOf, ← ih plain.2 rest]

/-- A text that is free of a marker may be skipped. -/
theorem behind?_of_isFreeOf {marker text : List Char} (free : isFreeOf marker text)
    (rest : List Char) : behind? marker (text ++ rest) = behind? marker rest := by
  -- The marker begins nowhere in the text, so the search goes on behind it.
  induction text with
  | nil => rfl
  | cons c others ih =>
    simp only [isFreeOf, Bool.and_eq_true, Bool.not_eq_true', ← Bool.not_eq_true,
      List.isPrefixOf_iff_prefix] at free
    obtain ⟨⟨within, across⟩, later⟩ := free
    rw [List.cons_append, behind?, if_neg, ih later]
    -- The marker would stand in the text itself or begin with all of it.
    intro stands
    have starts := List.isPrefixOf_iff_prefix.1 stands
    have both : c :: others <+: c :: (others ++ rest) := List.prefix_append (c :: others) rest
    rcases Nat.le_total marker.length (c :: others).length with short | long
    · exact within (List.prefix_of_prefix_length_le starts both short)
    · exact across (List.prefix_of_prefix_length_le both starts long)

/-- A marker that a text begins with is found there. -/
theorem behind?_append {first : Char} {marker : List Char} (rest : List Char) :
    behind? (first :: marker) (first :: marker ++ rest) = some rest := by
  -- The marker is looked for at the first character, where it stands.
  have starts : (first :: marker).isPrefixOf (first :: (marker ++ rest)) = true :=
    List.isPrefixOf_iff_prefix.2 (List.prefix_append (first :: marker) rest)
  rw [List.cons_append, behind?, if_pos starts]
  simp

/-- A marker does not stand in a text without its first character. -/
theorem behind?_of_not_mem {first : Char} {marker text : List Char} (absent : first ∉ text) :
    behind? (first :: marker) text = none := by
  -- The marker would begin with its first character.
  induction text with
  | nil => rfl
  | cons c others ih =>
    simp only [List.mem_cons, not_or] at absent
    simp [behind?, absent.1, ih absent.2]

/-- A line has no literal behind a marker that its fixed text before the value is free of. -/
theorem literalOn?_eq_none {first : Char} {marker : List Char} {line : Line}
    (free : isFreeOf (first :: marker) line.before.toList) (value : first ∉ line.value)
    (after : first ∉ line.after.toList) : literalOn? (first :: marker) line.text = none := by
  -- The marker is not in the text before the value, and its first character not behind that.
  have absent : first ∉ line.value ++ line.after.toList := by
    simp [value, after]
  rw [literalOn?, Line.text, behind?_of_isFreeOf free, behind?_of_not_mem absent]
  rfl

/-- A line has its value behind a marker that its fixed text before the value ends with. -/
theorem literalOn?_eq_some {first : Char} {marker earlier : List Char} {line : Line}
    (ends : line.before.toList = earlier ++ first :: marker)
    (free : isFreeOf (first :: marker) earlier) (value : ';' ∉ line.value)
    (after : line.after.toList = [] ∨ line.after.toList = [';']) :
    literalOn? (first :: marker) line.text = some (String.ofList line.value) := by
  -- What is behind the marker is the value up to the semicolon or the end.
  have taken : (line.value ++ line.after.toList).takeWhile (· ≠ ';') = line.value := by
    have all : ∀ c ∈ line.value, decide (c ≠ ';') = true := by
      rintro c member
      refine decide_eq_true ?_
      rintro rfl
      exact value member
    rw [List.takeWhile_append_of_pos all]
    rcases after with empty | semicolon
    · simp [empty]
    · simp [semicolon]
  rw [literalOn?, Line.text, ends, List.append_assoc, behind?_of_isFreeOf free, behind?_append]
  simp only [Option.map_some, taken]

/-- A marker does not begin in a text without its first character. -/
theorem isFreeOf_of_not_mem {first : Char} {marker text : List Char} (absent : first ∉ text) :
    isFreeOf (first :: marker) text := by
  -- Where the first character is missing, neither text begins like the other.
  induction text with
  | nil => rfl
  | cons c others ih =>
    simp only [List.mem_cons, not_or] at absent
    simp [isFreeOf, List.isPrefixOf, absent.1, Ne.symm absent.1, ih absent.2]

/-- A marker that differs from a text where its first character stands has no place in the text. -/
theorem isFreeOf_append {first : Char} {marker earlier text : List Char} (absent : first ∉ earlier)
    (later : first ∉ text) (within : ¬ first :: marker <+: first :: text)
    (across : ¬ first :: text <+: first :: marker) :
    isFreeOf (first :: marker) (earlier ++ first :: text) := by
  -- The marker can begin only where its first character stands, and there it differs.
  induction earlier with
  | nil =>
    have free : isFreeOf (first :: marker) text := isFreeOf_of_not_mem later
    simp only [← List.isPrefixOf_iff_prefix, Bool.not_eq_true] at within across
    simp [isFreeOf, within, across, free]
  | cons c others ih =>
    simp only [List.mem_cons, not_or] at absent
    simp [isFreeOf, List.isPrefixOf, absent.1, Ne.symm absent.1, ih absent.2]

/-- A word up to a mark begins like no other word up to the mark. -/
theorem eq_of_prefix_of_not_mem {mark : Char} {word other rest others : List Char}
    (begins : word ++ mark :: rest <+: other ++ mark :: others) (plain : mark ∉ word)
    (otherPlain : mark ∉ other) : word = other := by
  -- The words agree character by character until one of them comes to the mark.
  induction word generalizing other with
  | nil =>
    cases other with
    | nil => rfl
    | cons c letters =>
      have same := (List.cons_prefix_cons.1 begins).1
      exact absurd (same ▸ List.mem_cons_self) otherPlain
  | cons c letters ih =>
    simp only [List.mem_cons, not_or] at plain
    cases other with
    | nil =>
      have same := (List.cons_prefix_cons.1 begins).1
      exact absurd same.symm plain.1
    | cons d otherLetters =>
      simp only [List.mem_cons, not_or] at otherPlain
      obtain ⟨same, later⟩ := List.cons_prefix_cons.1 begins
      rw [same, ih later plain.2 otherPlain.2]

/-- A marker that stands on one line of a text has no other literal than the one there. -/
theorem literalsAfter_eq_singleton {marker body literal : String} {earlier later : List Line}
    {line : Line} (split : body.toList = textOfLines (earlier ++ line :: later))
    (plain : ∀ other ∈ earlier ++ line :: later, '\n' ∉ other.text)
    (here : literalOn? marker.toList line.text = some literal)
    (elsewhere : ∀ other ∈ earlier ++ later, literalOn? marker.toList other.text = none) :
    literalsAfter marker body = [literal] := by
  -- The text is cut into its lines again, of which one has a literal and the others have none.
  have before : (earlier.map Line.text).filterMap (literalOn? marker.toList) = [] := by
    rw [List.filterMap_map, List.filterMap_eq_nil_iff]
    exact fun other among => elsewhere other (List.mem_append_left _ among)
  have behind : (later.map Line.text).filterMap (literalOn? marker.toList) = [] := by
    rw [List.filterMap_map, List.filterMap_eq_nil_iff]
    exact fun other among => elsewhere other (List.mem_append_right _ among)
  have last : literalOn? marker.toList [] = none := rfl
  rw [literalsAfter, split, runsBetween_textOfLines plain]
  simp only [List.map_append, List.map_cons, List.filterMap_append, List.filterMap_cons, before,
    behind, here, last, List.filterMap_nil, List.nil_append, List.append_nil]

end BoardConfig
