import BoardConfig.Proofs.Artifact.Lines
import BoardConfig.Proofs.Derivation.AddressBounds
import BoardConfig.Proofs.Generation.Rendering
import BoardConfig.Proofs.ParameterSet.Conformance
import BoardConfig.Proofs.Profile.Parameters

/-! Every board that can be prepared can be rendered. -/

namespace BoardConfig

/-- A value of an unsigned type is below two to the number of the type's bits. -/
theorem ParameterType.convert_uint_lt {bits : Nat} {raw : Toml.Value} {value : ParameterValue}
    (converted : (ParameterType.uint bits).convert raw = .ok value) :
    ∃ number : UInt64, value = .uint number ∧ number.toNat < 2 ^ bits := by
  -- A conversion that succeeds has compared the number with its bounds.
  rcases convert_cases (.uint bits) raw with ⟨conforms, found, read, ok⟩ | ⟨reason, -, failed⟩
  · cases converted.symm.trans ok
    cases conforms with
    | uint least most natural fits =>
      -- The value is the integer that it was read from, which is so small.
      cases value with
      | uint number =>
        simp only [ParameterValue.raw, Toml.Value.integer.injEq] at read
        refine ⟨number, rfl, ?_⟩
        rw [← read] at fits
        exact_mod_cast fits
      | _ => cases read
  · cases converted.symm.trans failed

namespace ParameterSet

/-- A declared unsigned parameter is bound to an integer of its width. -/
theorem uint_of_declared {schema : Schema} {profile : String} {table : Toml.Table}
    {parameters : ParameterSet} (given : ofTable schema profile table = .ok parameters)
    (distinct : schema.names.Nodup) {declaration : Declaration} {bits : Nat}
    (among : declaration ∈ schema.declarations) (type : declaration.type = .uint bits) :
    ∃ value, parameters.uint declaration.name = .ok value ∧ value.toNat < 2 ^ bits := by
  -- The table's value was converted by the declared type.
  obtain ⟨raw, converted, _, conversion, bound⟩ := get?_ofTable given distinct among
  rw [type] at conversion
  obtain ⟨value, rfl, fits⟩ := ParameterType.convert_uint_lt conversion
  exact ⟨value, by simp only [uint, require, bound], fits⟩

end ParameterSet

/-- Whether a source has a value of a width on every board that satisfies a schema. -/
def Source.isServed (schema : Schema) (bits : Nat) : Source → Bool
  | .parameter name => ∃ declaration ∈ schema.declarations,
      declaration.name = name ∧ declaration.type = .uint bits
  | .derived name => name = "memory_end_address" ∧ bits = addressBits
  | .constant value => value.toNat < 2 ^ bits

/-- Whether a segment can be rendered on every board that satisfies a schema. -/
def Segment.isServed (schema : Schema) : Segment → Bool
  | .text _ => true
  | .value _ source _ bits => ValidWidth bits ∧ source.isServed schema bits

/-- The templates take nothing but what every board of the standard schema has. -/
theorem Artifact.template_isServed (artifact : Artifact) :
    ∀ segment ∈ artifact.template.segments, segment.isServed .standard := by
  -- The segments of the four templates are looked up one by one.
  cases artifact <;> decide

/-- A context of checked parameters, with the values that the rules derive from them. -/
structure RenderContext.IsPrepared (context : RenderContext) : Prop where
  /-- The parameters satisfy the schema that every board profile shares. -/
  checked : ∃ profile table, ParameterSet.ofTable .standard profile table = .ok context.parameters
  /-- The derived values are those of the parameters. -/
  evaluated : evaluate standardRules context.parameters = .ok context.derived

/-- A prepared board is a prepared context, whatever its source is called. -/
theorem Blueprint.isPrepared_context {fs : FileSystem} {directory : Path}
    {reference : ProfileReference} {board : Board}
    (prepared : standard.prepare fs directory reference = .ok board) (source : String) :
    (board.context source).IsPrepared := by
  -- The profile is checked against the schema when it is loaded.
  obtain ⟨loaded, evaluated⟩ := prepare_ok prepared
  obtain ⟨chain, _, given⟩ := Profile.load_ok loaded
  exact ⟨⟨_, _, given⟩, evaluated⟩

namespace RenderContext.IsPrepared

variable {context : RenderContext}

/-- In a prepared context a source that is served has a value of its width. -/
theorem resolve (prepared : context.IsPrepared) (artifact : Artifact) {source : Source} {bits : Nat}
    (served : source.isServed .standard bits) :
    ∃ value, Template.resolve artifact context source = .ok value ∧ value.toNat < 2 ^ bits := by
  cases source with
  | parameter name =>
    -- The schema bounds the value.
    obtain ⟨declaration, among, rfl, type⟩ := of_decide_eq_true served
    obtain ⟨_, _, given⟩ := prepared.checked
    obtain ⟨value, found, fits⟩ := ParameterSet.uint_of_declared given standard_names_nodup among type
    exact ⟨value, by simp only [Template.resolve, found], fits⟩
  | derived name =>
    -- The rules bound whatever they derive, and the end of memory is derived.
    obtain ⟨rfl, rfl⟩ := of_decide_eq_true served
    obtain ⟨_, _, value, _, _, found, _⟩ := evaluate_memoryEnd prepared.evaluated
    have fits := evaluate_fitAddress standardRules_fitAddress prepared.evaluated _ _ found
    exact ⟨value, by simp only [Template.resolve, found], fits⟩
  | constant value => exact ⟨value, rfl, of_decide_eq_true served⟩

/-- In a prepared context each segment that is served has a text. -/
theorem renderSegment (prepared : context.IsPrepared) (artifact : Artifact) {segment : Segment}
    (served : segment.isServed .standard) :
    ∃ text, Template.renderSegment artifact context segment = .ok text := by
  -- A text stands for itself, and a value that fits its width has a literal.
  cases segment with
  | text text => exact ⟨text, rfl⟩
  | value label origin style bits =>
    obtain ⟨valid, available⟩ := of_decide_eq_true served
    obtain ⟨value, found, fits⟩ := prepared.resolve artifact available
    obtain ⟨text, encoded⟩ := (exists_encode_iff style).2 ⟨valid, fits⟩
    exact ⟨text, by simp only [Template.renderSegment, found, encoded]⟩

end RenderContext.IsPrepared

namespace Template

variable {artifact : Artifact} {context : RenderContext}

/-- Segments that each have a text have one together. -/
theorem renderSegments_of_each {segments : List Segment}
    (each : ∀ segment ∈ segments, ∃ text, renderSegment artifact context segment = .ok text) :
    ∃ body, renderSegments artifact context segments = .ok body := by
  -- Induction on the segments, none of which stops the others.
  induction segments with
  | nil => exact ⟨"", rfl⟩
  | cons segment rest ih =>
    obtain ⟨text, first⟩ := each segment List.mem_cons_self
    obtain ⟨more, others⟩ := ih fun other among => each other (List.mem_cons_of_mem _ among)
    exact ⟨text ++ more, by simp only [renderSegments, first, others]⟩

end Template

/-- Artifacts that each have a text bring no failure. -/
theorem renderEach_of_each {context : RenderContext} {artifacts : List Artifact}
    (each : ∀ artifact ∈ artifacts, ∃ text, artifact.template.render context = .ok text) :
    (renderEach context artifacts).1 = [] := by
  -- Induction on the artifacts, none of which brings a failure.
  induction artifacts with
  | nil => rfl
  | cons artifact rest ih =>
    obtain ⟨text, first⟩ := each artifact List.mem_cons_self
    have others := ih fun other among => each other (List.mem_cons_of_mem _ among)
    simp only [renderEach, first, others]

/-- Where every artifact has a text, all are rendered. -/
theorem renderAll_of_each {context : RenderContext}
    (each : ∀ artifact : Artifact, ∃ text, artifact.template.render context = .ok text) :
    ∃ texts, renderAll context = .ok texts := by
  -- The texts are kept where no failure was collected.
  have clean : (renderEach context Artifact.all).1 = [] :=
    renderEach_of_each fun artifact _ => each artifact
  obtain ⟨texts, rendered⟩ : ∃ texts, renderEach context Artifact.all = ([], texts) :=
    ⟨_, Prod.ext clean rfl⟩
  refine ⟨texts, ?_⟩
  unfold renderAll
  rw [rendered]

/-- In a prepared context every artifact has a text. -/
theorem RenderContext.IsPrepared.render {context : RenderContext} (prepared : context.IsPrepared)
    (artifact : Artifact) : ∃ text, artifact.template.render context = .ok text := by
  -- The banner needs nothing, and the template's segments are all served.
  obtain ⟨body, segments⟩ := Template.renderSegments_of_each fun segment among =>
    prepared.renderSegment artifact.template.artifact (artifact.template_isServed segment among)
  exact ⟨artifact.template.banner context ++ body, by rw [Template.render, segments]⟩

/-- A board that is prepared can be rendered, whatever its source is called. -/
theorem Blueprint.renderAll_of_prepare {fs : FileSystem} {directory : Path}
    {reference : ProfileReference} {board : Board}
    (prepared : standard.prepare fs directory reference = .ok board)
    (source : String) : ∃ texts, renderAll (board.context source) = .ok texts :=
  -- The context of a prepared board is a prepared one.
  renderAll_of_each (isPrepared_context prepared source).render

end BoardConfig
