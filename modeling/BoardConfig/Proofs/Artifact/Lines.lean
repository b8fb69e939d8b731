import BoardConfig.Artifact.Catalog
import BoardConfig.Proofs.Literal
import BoardConfig.Proofs.Text.Lines

/-! The lines of the four artifacts, and the literals on them. -/

namespace BoardConfig

namespace Template

/-- The characters of a segment's text, if it has one. -/
def segmentText (artifact : Artifact) (context : RenderContext) (segment : Segment) : List Char :=
  match renderSegment artifact context segment with
  | .ok text => text.toList
  | .error _ => []

/-- Fixed text stands as it is. -/
@[simp]
theorem segmentText_text (artifact : Artifact) (context : RenderContext) (text : String) :
    segmentText artifact context (.text text) = text.toList := rfl

/-- Segments that render each have a text, and these follow one another. -/
theorem renderSegments_ok {artifact : Artifact} {context : RenderContext} {segments : List Segment}
    {body : String} (rendered : renderSegments artifact context segments = .ok body) :
    (∀ segment ∈ segments, ∃ text, renderSegment artifact context segment = .ok text) ∧
      body.toList = segments.flatMap (segmentText artifact context) := by
  -- The text of the first segment comes before the texts of the others.
  induction segments generalizing body with
  | nil =>
    cases rendered
    simp
  | cons segment rest ih =>
    simp only [renderSegments] at rendered
    split at rendered
    · cases rendered
    · rename_i text first
      split at rendered <;> cases rendered
      rename_i more others
      obtain ⟨all, inOrder⟩ := ih others
      refine ⟨fun other among => ?_, ?_⟩
      · rcases List.mem_cons.1 among with rfl | behind
        · exact ⟨text, first⟩
        · exact all other behind
      · simp [String.toList_append, inOrder, segmentText, first]

/-- The text of an artifact is its banner and then its segments. -/
theorem render_ok {template : Template} {context : RenderContext} {text : String}
    (rendered : template.render context = .ok text) :
    ∃ body, renderSegments template.artifact context template.segments = .ok body ∧
      text = template.banner context ++ body := by
  -- A template fails only with its segments.
  unfold render at rendered
  split at rendered <;> cases rendered
  rename_i body segments
  exact ⟨body, segments, rfl⟩

/-- A value that renders is a literal of what its source stands for. -/
theorem renderSegment_value_ok {artifact : Artifact} {context : RenderContext} {label : String}
    {source : Source} {style : LiteralStyle} {bits : Nat} {text : String}
    (rendered : renderSegment artifact context (.value label source style bits) = .ok text) :
    ∃ value, resolve artifact context source = .ok value ∧ encode value style bits = .ok text := by
  -- The source is resolved first, and its value then encoded.
  simp only [renderSegment] at rendered
  split at rendered
  · cases rendered
  · rename_i value found
    split at rendered <;> cases rendered
    rename_i encoded
    exact ⟨value, found, encoded⟩

/-- The characters of a value's text are those of a literal. -/
theorem isLiteralCharacter_of_mem_segmentText {artifact : Artifact} {context : RenderContext}
    {label : String} {source : Source} {style : LiteralStyle} {bits : Nat} {c : Char}
    (member : c ∈ segmentText artifact context (.value label source style bits)) :
    isLiteralCharacter c := by
  -- A value without a text has no characters at all.
  unfold segmentText at member
  split at member
  · rename_i text rendered
    obtain ⟨value, _, encoded⟩ := renderSegment_value_ok rendered
    exact isLiteralCharacter_of_encode encoded member
  · simp at member

end Template

open Template

/-- The line of the hardware package for a parameter. -/
def parameterLine (name : String) (value : List Char) : Line where
  before := "  parameter int unsigned " ++ name ++ " = "
  value := value
  after := ";"

/-- A parameter's line gives its name and its value. -/
theorem text_parameterLine (name : String) (value : List Char) :
    (parameterLine name value).text =
      ("  parameter int unsigned " ++ name ++ " = ").toList ++ (value ++ ";".toList) := rfl

/-- The lines of an artifact, given the texts of the values on them. -/
def Artifact.lines (value : Segment → List Char) : Artifact → List Line
  | .bootStub => [
    { before := ".global _start" },
    { before := "_start:" },
    { before := "    li sp, ", value := value (memoryEndSegment .asmHex) },
    { before := "    j run" }]
  | .nativeHeader =>
    [{ before := "#pragma once" }] ++
      memoryMap.map (fun register => {
        before := "#define " ++ register.macroName ++ " ((char volatile *)"
        value := value (.value register.macroName (.constant register.address) .cHex wordBits)
        after := ")" }) ++
      [{ before := "#define MEMORY_END ", value := value (memoryEndSegment .cHex) }]
  | .nativeNamespace =>
    [{ before := "#pragma once" }, { before := "#include <cstdint>" }, { before := "" },
      { before := "namespace osqa \x7b" }, { before := "" }, { before := "// memory map" }] ++
      memoryMap.map (fun register => {
        before := "std::uint32_t constexpr " ++ register.constantName ++ " = "
        value := value (.value register.constantName (.constant register.address) .cHex wordBits)
        after := ";" }) ++
      [{ before := "std::uint32_t constexpr memory_end = ",
          value := value (memoryEndSegment .cHex), after := ";" },
        { before := "" }, { before := "\x7d // namespace osqa" }]
  | .hdlPackage =>
    [{ before := "" }, { before := "package configuration;" }, { before := "" }] ++
      hardwareParameters.map (fun (name, source, style) =>
        parameterLine name (value (.value name source style wordBits))) ++
      [{ before := "" }, { before := "endpackage" }]

/-- The template of an artifact renders that artifact. -/
@[simp]
theorem Artifact.template_artifact (artifact : Artifact) : artifact.template.artifact = artifact := by
  -- Each template carries the artifact that it is listed for.
  cases artifact <;> rfl

/-- The body of an artifact is its lines. -/
theorem Artifact.lines_ok {artifact : Artifact} {context : RenderContext} {body : String}
    (rendered : renderSegments artifact context artifact.template.segments = .ok body) :
    body.toList = textOfLines (artifact.lines (segmentText artifact context)) := by
  -- What is rendered is the texts of the segments, one behind the other.
  rw [(renderSegments_ok rendered).2]
  -- The segments of each template are cut at their line ends.
  cases artifact with
  | bootStub => simp [template, bootStubTemplate, lines, textOfLines, text_line]
  | nativeHeader =>
    simp [template, nativeHeaderTemplate, lines, textOfLines, text_line, List.flatMap_assoc,
      List.flatMap_map]
  | nativeNamespace =>
    simp [template, nativeNamespaceTemplate, lines, textOfLines, text_line, List.flatMap_assoc,
      List.flatMap_map]
  | hdlPackage =>
    simp [template, hdlPackageTemplate, lines, textOfLines, text_line, text_parameterLine,
      List.flatMap_assoc, List.flatMap_map]

/-- On each line of an artifact stands one of its values, or none. -/
theorem value_of_mem_lines {value : Segment → List Char} {artifact : Artifact} {line : Line}
    (member : line ∈ artifact.lines value) :
    line.value = [] ∨ ∃ label source style bits,
      line.value = value (.value label source style bits) := by
  -- The lines are listed, and each of them has a value of a template or none.
  cases artifact with
  | bootStub =>
    simp only [Artifact.lines, List.mem_cons, List.not_mem_nil, or_false] at member
    rcases member with rfl | rfl | rfl | rfl
    · exact .inl rfl
    · exact .inl rfl
    · exact .inr ⟨_, _, _, _, rfl⟩
    · exact .inl rfl
  | nativeHeader =>
    simp only [Artifact.lines, List.mem_append, List.mem_singleton, List.mem_map] at member
    rcases member with (rfl | ⟨register, _, rfl⟩) | rfl
    · exact .inl rfl
    · exact .inr ⟨_, _, _, _, rfl⟩
    · exact .inr ⟨_, _, _, _, rfl⟩
  | nativeNamespace =>
    simp only [Artifact.lines, List.mem_append, List.mem_cons, List.not_mem_nil, or_false,
      List.mem_map] at member
    rcases member with (fixed | ⟨register, _, rfl⟩) | rfl | rfl | rfl
    · rcases fixed with rfl | rfl | rfl | rfl | rfl | rfl <;> exact .inl rfl
    · exact .inr ⟨_, _, _, _, rfl⟩
    · exact .inr ⟨_, _, _, _, rfl⟩
    · exact .inl rfl
    · exact .inl rfl
  | hdlPackage =>
    simp only [Artifact.lines, List.mem_append, List.mem_cons, List.not_mem_nil, or_false,
      List.mem_map] at member
    rcases member with (fixed | ⟨parameter, _, rfl⟩) | rfl | rfl
    · rcases fixed with rfl | rfl | rfl <;> exact .inl rfl
    · exact .inr ⟨_, _, _, _, rfl⟩
    · exact .inl rfl
    · exact .inl rfl

/-- The values on the lines of a rendered artifact are literals. -/
theorem isLiteralCharacter_of_mem_lines {artifact : Artifact} {context : RenderContext}
    {line : Line} (member : line ∈ artifact.lines (segmentText artifact context)) :
    ∀ c ∈ line.value, isLiteralCharacter c := by
  -- The characters on a line between its fixed texts are those of a value.
  intro c among
  rcases value_of_mem_lines member with empty | ⟨label, source, style, bits, same⟩
  · simp [empty] at among
  · exact isLiteralCharacter_of_mem_segmentText (same ▸ among)

end BoardConfig
