import BoardConfig.Proofs.Artifact.Lines

/-! Where each literal of the four artifacts is found, and what it was written from. -/

namespace BoardConfig

open Template

/-- The text before the end of memory in an artifact. -/
def Artifact.memoryEndMarker : Artifact → String
  | .bootStub => "    li sp, "
  | .nativeHeader => "#define MEMORY_END "
  | .nativeNamespace => "memory_end = "
  | .hdlPackage => "MEMORY_END_ADDRESS = "

/-- The style of the end of memory in an artifact. -/
def Artifact.memoryEndStyle : Artifact → LiteralStyle
  | .bootStub => .asmHex
  | .nativeHeader => .cHex
  | .nativeNamespace => .cHex
  | .hdlPackage => .sizedHex

/-- The text before the value of a parameter in the hardware package. -/
def parameterMarker (name : String) : String :=
  "parameter int unsigned " ++ name ++ " = "

/-- The fixed texts around the value of a line. -/
def Line.frame (line : Line) : String × String :=
  (line.before, line.after)

/-- Whether a mark can be found by the character that it begins with, which no literal holds. -/
def isMark (mark : String) : Bool :=
  mark.toList.head?.any fun first => !isLiteralCharacter first

/-- Whether fixed texts around a value hold no line end and leave no place for a mark. -/
def isPassedBy (mark : String) (frame : String × String) : Bool :=
  isFreeOf mark.toList frame.1.toList ∧ mark.toList.head?.all (· ∉ frame.2.toList) ∧
    '\n' ∉ frame.1.toList ∧ '\n' ∉ frame.2.toList

/-- Whether fixed texts around a value hold no line end and put a mark before the value only. -/
def isMarkedBy (mark : String) (frame : String × String) : Bool :=
  let prior := frame.1.toList.take (frame.1.toList.length - mark.toList.length)
  frame.1.toList = prior ++ mark.toList ∧ isFreeOf mark.toList prior ∧ '\n' ∉ frame.1.toList ∧
    (frame.2.toList = [] ∨ frame.2.toList = [';'])

/-- A line around a literal has no end in it where its fixed texts have none. -/
theorem Line.plain {line : Line} (literal : ∀ c ∈ line.value, isLiteralCharacter c)
    (before : '\n' ∉ line.before.toList) (after : '\n' ∉ line.after.toList) : '\n' ∉ line.text := by
  -- No literal holds a line end.
  have value : '\n' ∉ line.value := fun member => absurd (literal _ member) (by decide)
  simp [Line.text, before, value, after]

/-- A mark finds nothing on a line around a literal whose fixed texts leave no place for it. -/
theorem literalOn?_of_isPassedBy {mark : String} {line : Line} (usable : isMark mark)
    (literal : ∀ c ∈ line.value, isLiteralCharacter c) (passed : isPassedBy mark line.frame) :
    literalOn? mark.toList line.text = none ∧ '\n' ∉ line.text := by
  -- The mark begins with a character that stands neither in a literal nor behind it.
  obtain ⟨free, after, first, second⟩ := of_decide_eq_true passed
  refine ⟨?_, Line.plain literal first second⟩
  unfold isMark at usable
  cases characters : mark.toList with
  | nil => simp [characters] at usable
  | cons c rest =>
    rw [characters] at usable free after
    refine literalOn?_eq_none free (fun member => ?_) (of_decide_eq_true after)
    have held := literal c member
    simp [held] at usable

/-- A mark finds the literal on a line whose fixed text before the literal ends with it. -/
theorem literalOn?_of_isMarkedBy {mark : String} {line : Line} (usable : isMark mark)
    (literal : ∀ c ∈ line.value, isLiteralCharacter c) (marked : isMarkedBy mark line.frame) :
    literalOn? mark.toList line.text = some (String.ofList line.value) ∧ '\n' ∉ line.text := by
  -- The mark ends the text before the value and begins nowhere else in it.
  obtain ⟨ends, free, plain, after⟩ := of_decide_eq_true marked
  constructor
  · unfold isMark at usable
    cases characters : mark.toList with
    | nil => simp [characters] at usable
    | cons c rest =>
      rw [characters] at ends free
      refine literalOn?_eq_some ends free (fun member => ?_) after
      exact absurd (literal _ member) (by decide)
  · refine Line.plain literal plain ?_
    rcases after with empty | semicolon
    · simp [Line.frame] at empty
      simp [empty]
    · simp [Line.frame] at semicolon
      simp [semicolon]

/-- A mark finds the literal of the one line that it marks. -/
theorem literalsAfter_of_frames {mark body : String} {earlier later : List Line} {line : Line}
    (usable : isMark mark) (split : body.toList = textOfLines (earlier ++ line :: later))
    (literals : ∀ other ∈ earlier ++ line :: later, ∀ c ∈ other.value, isLiteralCharacter c)
    (marked : isMarkedBy mark line.frame)
    (passed : ∀ other ∈ earlier ++ later, isPassedBy mark other.frame) :
    literalsAfter mark body = [String.ofList line.value] := by
  -- The marked line has the literal, and every other line is passed by.
  have here := literalOn?_of_isMarkedBy usable (literals line (by simp)) marked
  have elsewhere : ∀ other ∈ earlier ++ later,
      literalOn? mark.toList other.text = none ∧ '\n' ∉ other.text := by
    intro other among
    refine literalOn?_of_isPassedBy usable (literals other ?_) (passed other among)
    rcases List.mem_append.1 among with before | behind
    · exact List.mem_append_left _ before
    · exact List.mem_append_right _ (List.mem_cons_of_mem _ behind)
  refine literalsAfter_eq_singleton split (fun other among => ?_) here.1
    fun other among => (elsewhere other among).1
  -- No line has an end in it, be it the marked one or another.
  rcases List.mem_append.1 among with before | rest
  · exact (elsewhere other (List.mem_append_left _ before)).2
  · rcases List.mem_cons.1 rest with rfl | behind
    · exact here.2
    · exact (elsewhere other (List.mem_append_right _ behind)).2

/-- The end of memory as a segment of an artifact's template. -/
def Artifact.memoryEndValue : Artifact → Segment
  | .hdlPackage =>
    .value "MEMORY_END_ADDRESS" (.derived "memory_end_address") .sizedHex wordBits
  | artifact => memoryEndSegment artifact.memoryEndStyle

/-- The number of the line with the end of memory in an artifact, counted from zero. -/
def Artifact.memoryEndLine : Artifact → Nat
  | .bootStub => 2
  | .nativeHeader => 4
  | .nativeNamespace => 9
  | .hdlPackage => 13

/-- The fixed texts around the end of memory in an artifact. -/
def Artifact.memoryEndFrame : Artifact → String × String
  | .bootStub => ("    li sp, ", "")
  | .nativeHeader => ("#define MEMORY_END ", "")
  | .nativeNamespace => ("std::uint32_t constexpr memory_end = ", ";")
  | .hdlPackage => ("  parameter int unsigned MEMORY_END_ADDRESS = ", ";")

/-- The lines of an artifact before and behind the one with the end of memory. -/
def Artifact.otherLines (artifact : Artifact) (value : Segment → List Char) : List Line :=
  (artifact.lines value).take artifact.memoryEndLine ++
    (artifact.lines value).drop (artifact.memoryEndLine + 1)

/-- The line with the end of memory stands between the other lines. -/
theorem Artifact.lines_split (artifact : Artifact) (value : Segment → List Char) :
    artifact.lines value =
      (artifact.lines value).take artifact.memoryEndLine ++
        ⟨artifact.memoryEndFrame.1, value artifact.memoryEndValue, artifact.memoryEndFrame.2⟩ ::
        (artifact.lines value).drop (artifact.memoryEndLine + 1) := by
  -- The position is that of the line with the end of memory in each of the four lists.
  cases artifact <;> rfl

/-- The fixed texts of the other lines do not depend on the values. -/
theorem Artifact.frames_congr (artifact : Artifact) (value other : Segment → List Char) :
    (artifact.otherLines value).map Line.frame = (artifact.otherLines other).map Line.frame := by
  -- Values stand in the middle of a line, of which a frame knows nothing.
  cases artifact <;> rfl

/-- In each artifact, the end of memory is marked on its own line only. -/
theorem Artifact.memoryEnd_frames (artifact : Artifact) :
    isMark artifact.memoryEndMarker ∧
      isMarkedBy artifact.memoryEndMarker artifact.memoryEndFrame ∧
      ∀ frame ∈ (artifact.otherLines fun _ => []).map Line.frame,
        isPassedBy artifact.memoryEndMarker frame := by
  -- Frames are fixed texts once the values are left out, so the marks are looked for in them.
  cases artifact <;> decide

/-- The end of memory is among the segments of each template. -/
theorem Artifact.memoryEndValue_mem (artifact : Artifact) :
    artifact.memoryEndValue ∈ artifact.template.segments := by
  -- Each template names the end of memory once, in the style of its language.
  cases artifact <;>
    simp [memoryEndValue, memoryEndStyle, template, bootStubTemplate, nativeHeaderTemplate,
      nativeNamespaceTemplate, hdlPackageTemplate, hardwareParameters]

/-- The end of memory renders as a literal of the derived value. -/
theorem Artifact.memoryEndValue_ok {artifact : Artifact} {context : RenderContext} {literal : String}
    (rendered : renderSegment artifact context artifact.memoryEndValue = .ok literal) :
    ∃ value, context.derived.get? "memory_end_address" = some value ∧
      encode value artifact.memoryEndStyle wordBits = .ok literal := by
  -- In each artifact the segment takes the derived value, in the style of the artifact.
  have derived : ∃ label, artifact.memoryEndValue =
      .value label (.derived "memory_end_address") artifact.memoryEndStyle wordBits := by
    cases artifact <;> exact ⟨_, rfl⟩
  obtain ⟨label, same⟩ := derived
  rw [same] at rendered
  obtain ⟨value, resolved, encoded⟩ := renderSegment_value_ok rendered
  refine ⟨value, ?_, encoded⟩
  simp only [resolve] at resolved
  split at resolved <;> cases resolved
  assumption

/-- A rendered artifact has one literal of the end of memory, written from the derived value. -/
theorem Artifact.memoryEnd_literal {artifact : Artifact} {context : RenderContext} {body : String}
    (rendered : renderSegments artifact context artifact.template.segments = .ok body) :
    ∃ value literal, context.derived.get? "memory_end_address" = some value ∧
      encode value artifact.memoryEndStyle wordBits = .ok literal ∧
      literalsAfter artifact.memoryEndMarker body = [literal] := by
  -- The segment rendered, so there is a value, and its line is the marked one.
  obtain ⟨literal, text⟩ := (renderSegments_ok rendered).1 _ artifact.memoryEndValue_mem
  obtain ⟨value, found, encoded⟩ := memoryEndValue_ok text
  obtain ⟨usable, marked, passed⟩ := artifact.memoryEnd_frames
  refine ⟨value, literal, found, encoded, ?_⟩
  have split := lines_ok rendered
  have literals (other : Line) (among : other ∈ artifact.lines (segmentText artifact context)) :=
    isLiteralCharacter_of_mem_lines among
  rw [artifact.lines_split] at split literals
  have one := literalsAfter_of_frames usable split literals marked fun other among => by
    refine passed other.frame ?_
    rw [artifact.frames_congr _ (segmentText artifact context)]
    exact List.mem_map_of_mem among
  -- The value on the marked line is the literal that the segment renders as.
  have same : segmentText artifact context artifact.memoryEndValue = literal.toList := by
    simp [segmentText, text]
  rw [one, same, String.ofList_toList]

/-- The ten parameters that the hardware package shows, each with the style of its literal. -/
def knobs : List (String × LiteralStyle) := [
  ("CLOCK_FREQUENCY_HZ", .decimal),
  ("CPU_FREQUENCY_HZ", .decimal),
  ("RAM_ADDRESS_BITWIDTH", .decimal),
  ("RAM_ADDRESSING_MODE", .decimal),
  ("CACHE_COLUMN_INDEX_BITWIDTH", .decimal),
  ("CACHE_LINE_INDEX_BITWIDTH", .decimal),
  ("UART_BAUD_RATE", .decimal),
  ("FLASH_TRANSFER_FROM_ADDRESS", .sizedHex),
  ("FLASH_TRANSFER_BYTE_COUNT", .sizedHex),
  ("STARTUP_WAIT_CYCLES", .decimal)]

/-- An entry for each of the ten under its own name, and behind them one for the end of memory. -/
def knobEntries : List (String × Source × LiteralStyle) :=
  knobs.map (fun knob => (knob.1, .parameter knob.1, knob.2)) ++
    [("MEMORY_END_ADDRESS", .derived "memory_end_address", .sizedHex)]

/-- These are the entries of the hardware package, in order. -/
theorem hardwareParameters_eq : hardwareParameters = knobEntries := rfl

/-- Each of the ten has an entry in the hardware package. -/
theorem mem_hardwareParameters {name : String} {style : LiteralStyle} (among : (name, style) ∈ knobs) :
    (name, .parameter name, style) ∈ hardwareParameters := by
  -- The table begins with the ten, each read from the parameter of its own name.
  rw [hardwareParameters_eq]
  exact List.mem_append_left _ (List.mem_map.2 ⟨_, among, rfl⟩)

/-- The names of the hardware package's parameters hold no blank, no line end and no small letter p. -/
theorem hardwareParameters_plain : ∀ parameter ∈ hardwareParameters,
    ' ' ∉ parameter.1.toList ∧ 'p' ∉ parameter.1.toList ∧ '\n' ∉ parameter.1.toList := by
  -- The names are fixed texts, of capital letters, digits and underscores.
  decide

/-- No two parameters of the hardware package have one name. -/
theorem hardwareParameters_nodup : (hardwareParameters.map (·.1)).Nodup := by
  -- The names are fixed texts, so they are compared in pairs.
  decide

/-- The characters of a parameter's mark. -/
theorem toList_parameterMarker (name : String) :
    (parameterMarker name).toList =
      'p' :: ("arameter int unsigned ".toList ++ (name.toList ++ ' ' :: "= ".toList)) := by
  -- The first letter and the blank behind the name are set apart, as they are looked for alone.
  have fixed : parameterMarker name = "parameter int unsigned " ++ name ++ " = " := rfl
  simp [fixed]

/-- The characters before the value on a parameter's line. -/
theorem toList_before_parameterLine (name : String) (value : List Char) :
    (parameterLine name value).before.toList = [' ', ' '] ++ (parameterMarker name).toList := by
  -- What stands before the value is the mark, indented by two blanks.
  have fixed : (parameterLine name value).before = "  parameter int unsigned " ++ name ++ " = " :=
    rfl
  simp [fixed, toList_parameterMarker]

/-- The mark of a parameter can be found. -/
theorem isMark_parameterMarker (name : String) : isMark (parameterMarker name) := by
  -- The mark begins with a letter that no literal is made of.
  have first : isLiteralCharacter 'p' = false := by decide
  simp [isMark, toList_parameterMarker, first]

/-- A parameter's line is marked by the parameter's name. -/
theorem isMarkedBy_parameterLine {name : String} (value : List Char) (plain : '\n' ∉ name.toList) :
    isMarkedBy (parameterMarker name) (parameterLine name value).frame := by
  -- Before the mark the line has its two blanks and nothing else.
  have before := toList_before_parameterLine name value
  have after : (parameterLine name value).after.toList = [';'] := by
    show ";".toList = [';']
    simp
  have prior : (parameterLine name value).before.toList.take
      ((parameterLine name value).before.toList.length - (parameterMarker name).toList.length) =
        [' ', ' '] := by
    rw [before, List.length_append, Nat.add_sub_cancel]
    exact List.take_left
  refine decide_eq_true ⟨?_, ?_, ?_, .inr after⟩
  · simp only [Line.frame, prior]
    exact before
  · simp only [Line.frame, prior]
    rw [toList_parameterMarker]
    exact isFreeOf_of_not_mem (by decide)
  · simp only [Line.frame, before, toList_parameterMarker]
    simp [plain]

/-- A mark that another one begins with is that mark. -/
theorem name_of_parameterMarker {name other : String} {rest others : List Char}
    (begins : 'p' :: ("arameter int unsigned ".toList ++ (name.toList ++ ' ' :: rest)) <+:
      'p' :: ("arameter int unsigned ".toList ++ (other.toList ++ ' ' :: others)))
    (blank : ' ' ∉ name.toList) (otherBlank : ' ' ∉ other.toList) : name = other := by
  -- Behind the words that all marks share, the names differ before their blanks.
  have behind := (List.cons_prefix_cons.1 begins).2
  have names := (List.prefix_append_right_inj _).1 behind
  exact String.toList_inj.1 (eq_of_prefix_of_not_mem names blank otherBlank)

/-- A parameter's line leaves no place for the mark of another parameter. -/
theorem isPassedBy_parameterLine {name other : String} (value : List Char) (different : name ≠ other)
    (blank : ' ' ∉ name.toList)
    (plain : ' ' ∉ other.toList ∧ 'p' ∉ other.toList ∧ '\n' ∉ other.toList) :
    isPassedBy (parameterMarker name) (parameterLine other value).frame := by
  obtain ⟨otherBlank, small, ends⟩ := plain
  -- The text before the value is an indented mark, and the text behind it is one character.
  have before := toList_before_parameterLine other value
  have after : (parameterLine other value).after.toList = [';'] := by
    show ";".toList = [';']
    simp
  refine decide_eq_true ⟨?_, ?_, ?_, ?_⟩
  · simp only [Line.frame, before, toList_parameterMarker]
    -- The mark could begin at its own first character only, where the names tell the two apart.
    refine isFreeOf_append (by decide) (by simp [small]) ?_ ?_
    · intro begins
      exact different (name_of_parameterMarker begins blank otherBlank)
    · intro begins
      exact different (name_of_parameterMarker begins otherBlank blank).symm
  · -- Behind the value there is too little room for a mark.
    simp [Line.frame, toList_parameterMarker, after]
  · -- The line does not end in the middle.
    simp only [Line.frame, before, toList_parameterMarker]
    simp [ends]
  · simp [Line.frame, after]

/-- The other lines of the hardware package leave no place for the mark of a parameter. -/
theorem isPassedBy_package (name : String) :
    isPassedBy (parameterMarker name) ("", "") ∧
      isPassedBy (parameterMarker name) ("package configuration;", "") ∧
      isPassedBy (parameterMarker name) ("endpackage", "") := by
  -- These lines hold no value, and a mark begins with a letter that none of them goes on with.
  simp [isPassedBy, toList_parameterMarker, isFreeOf, List.isPrefixOf]

/-- Parameters before and behind one of the hardware package have other names. -/
theorem name_ne_of_split {parameter other : String × Source × LiteralStyle}
    {earlier later : List (String × Source × LiteralStyle)}
    (split : hardwareParameters = earlier ++ parameter :: later)
    (among : other ∈ earlier ++ later) : parameter.1 ≠ other.1 := by
  -- The names are all different, so one before or behind another is not that one.
  have nodup := hardwareParameters_nodup
  rw [split, List.map_append, List.map_cons, List.nodup_append] at nodup
  obtain ⟨_, later, apart⟩ := nodup
  rcases List.mem_append.1 among with before | behind
  · exact (apart _ (List.mem_map_of_mem before) _ List.mem_cons_self).symm
  · intro same
    exact (List.nodup_cons.1 later).1 (same ▸ List.mem_map_of_mem behind)

/-- The lines of the hardware package for parameters, given the texts of their values. -/
def parameterLines (value : Segment → List Char)
    (parameters : List (String × Source × LiteralStyle)) : List Line :=
  parameters.map fun (name, source, style) =>
    parameterLine name (value (.value name source style wordBits))

/-- The line of a parameter stands between the lines of those before and behind it. -/
theorem hdlPackage_lines_split (value : Segment → List Char)
    {parameter : String × Source × LiteralStyle}
    {earlier later : List (String × Source × LiteralStyle)}
    (split : hardwareParameters = earlier ++ parameter :: later) :
    Artifact.hdlPackage.lines value =
      ([{ before := "" }, { before := "package configuration;" }, { before := "" }] ++
        parameterLines value earlier) ++
      parameterLine parameter.1
        (value (.value parameter.1 parameter.2.1 parameter.2.2 wordBits)) ::
      (parameterLines value later ++ [{ before := "" }, { before := "endpackage" }]) := by
  -- The lines of the parameters stand in the order of the parameters.
  have lines : Artifact.hdlPackage.lines value =
      [{ before := "" }, { before := "package configuration;" }, { before := "" }] ++
        parameterLines value hardwareParameters ++
        [{ before := "" }, { before := "endpackage" }] := rfl
  rw [lines, split]
  simp [parameterLines]

/-- The lines of other parameters leave no place for the mark of a parameter. -/
theorem parameterLines_passed {name : String} {value : Segment → List Char}
    {parameters : List (String × Source × LiteralStyle)} (blank : ' ' ∉ name.toList)
    (others : ∀ parameter ∈ parameters, parameter ∈ hardwareParameters ∧ name ≠ parameter.1)
    {line : Line} (among : line ∈ parameterLines value parameters) :
    isPassedBy (parameterMarker name) line.frame := by
  -- A line among them belongs to a parameter, whose name is plain and differs.
  obtain ⟨parameter, member, rfl⟩ := List.mem_map.1 among
  obtain ⟨known, different⟩ := others parameter member
  exact isPassedBy_parameterLine _ different blank (hardwareParameters_plain _ known)

/-- A rendered hardware package has one literal of each parameter, written from its source. -/
theorem parameter_literal {context : RenderContext} {body : String}
    (rendered : renderSegments .hdlPackage context hdlPackageTemplate.segments = .ok body)
    {name : String} {source : Source} {style : LiteralStyle}
    (among : (name, source, style) ∈ hardwareParameters) :
    ∃ value literal, resolve .hdlPackage context source = .ok value ∧
      encode value style wordBits = .ok literal ∧
      literalsAfter (parameterMarker name) body = [literal] := by
  -- The parameter rendered, so there is a value, and its line is marked by its name.
  have member : Segment.value name source style wordBits ∈ hdlPackageTemplate.segments := by
    simp only [hdlPackageTemplate, List.mem_append, List.mem_flatMap]
    exact .inl (.inr ⟨_, among, by simp⟩)
  obtain ⟨literal, text⟩ := (renderSegments_ok rendered).1 _ member
  obtain ⟨value, found, encoded⟩ := renderSegment_value_ok text
  refine ⟨value, literal, found, encoded, ?_⟩
  -- The other parameters stand before it or behind it, as their lines do.
  obtain ⟨before, behind, parameters⟩ := List.append_of_mem among
  have split : body.toList =
      textOfLines (Artifact.hdlPackage.lines (segmentText .hdlPackage context)) :=
    Artifact.lines_ok rendered
  have literals (other : Line)
      (among : other ∈ Artifact.hdlPackage.lines (segmentText .hdlPackage context)) :=
    isLiteralCharacter_of_mem_lines among
  have inOrder := hdlPackage_lines_split (segmentText .hdlPackage context) parameters
  rw [inOrder] at split literals
  have plain := hardwareParameters_plain _ among
  have one := literalsAfter_of_frames (isMark_parameterMarker name) split literals
    (isMarkedBy_parameterLine _ plain.2.2) fun other others => by
      obtain ⟨empty, package, last⟩ := isPassedBy_package name
      simp only [List.mem_append, List.mem_cons, List.not_mem_nil, or_false] at others
      rcases others with (fixed | before) | behind | fixed
      · rcases fixed with rfl | rfl | rfl
        · exact empty
        · exact package
        · exact empty
      · exact parameterLines_passed plain.1 (fun other member => ⟨by simp [parameters, member],
          name_ne_of_split parameters (List.mem_append_left _ member)⟩) before
      · exact parameterLines_passed plain.1 (fun other member => ⟨by simp [parameters, member],
          name_ne_of_split parameters (List.mem_append_right _ member)⟩) behind
      · rcases fixed with rfl | rfl
        · exact empty
        · exact last
  have same : segmentText .hdlPackage context (.value name source style wordBits) =
      literal.toList := by
    simp [segmentText, text]
  rw [one]
  show [String.ofList (segmentText .hdlPackage context (.value name source style wordBits))] = _
  rw [same, String.ofList_toList]

end BoardConfig
