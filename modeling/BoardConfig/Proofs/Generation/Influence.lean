import BoardConfig.Proofs.Artifact.Literals
import BoardConfig.Proofs.Generation.Availability
import BoardConfig.Proofs.Generation.Run

/-! Which parameters an artifact's text depends on, and that it tells their values apart. -/

namespace BoardConfig

open Template

namespace Template

variable {artifact : Artifact} {first second : RenderContext}

/-- Contexts that agree on the sources of some segments give these one text. -/
theorem renderSegments_congr {segments : List Segment}
    (agree : ∀ label source style bits, .value label source style bits ∈ segments →
      resolve artifact first source = resolve artifact second source) :
    renderSegments artifact first segments = renderSegments artifact second segments := by
  -- Fixed text reads nothing of the context, and a value reads its source alone.
  induction segments with
  | nil => rfl
  | cons segment rest ih =>
    have here : renderSegment artifact first segment = renderSegment artifact second segment := by
      cases segment with
      | text text => rfl
      | value label source style bits =>
        simp only [renderSegment, agree label source style bits List.mem_cons_self]
    simp only [renderSegments, here,
      ih fun label source style bits among => agree label source style bits (List.mem_cons_of_mem _ among)]

/-- Under one profile name and source, texts are equal exactly if their bodies are. -/
theorem render_eq_iff {template : Template} {text other : String}
    (profile : first.profile = second.profile) (source : first.source = second.source)
    (rendered : template.render first = .ok text) (renderedOther : template.render second = .ok other) :
    text = other ↔ renderSegments template.artifact first template.segments =
      renderSegments template.artifact second template.segments := by
  -- A text is its banner and its body.
  obtain ⟨body, segments, rfl⟩ := render_ok rendered
  obtain ⟨otherBody, otherSegments, rfl⟩ := render_ok renderedOther
  -- The banners read nothing but the profile name and the source.
  have banner : template.banner first = template.banner second := by
    simp only [Template.banner, profile, source]
  rw [banner, segments, otherSegments, String.append_right_inj, Except.ok.injEq]

/-- A parameter that resolves is bound to the number that it resolves to. -/
theorem get?_of_resolve {name : String} {value : UInt64}
    (resolved : resolve artifact first (.parameter name) = .ok value) :
    first.parameters.get? name = some (.uint value) := by
  -- Only a parameter that is bound to a number resolves.
  simp only [resolve] at resolved
  split at resolved <;> cases resolved
  rename_i given
  exact ParameterSet.get?_of_uint given

/-- A body has one value behind a marker that stands before one literal. -/
theorem value_eq_of_literalsAfter {style : LiteralStyle} {bits : Nat} {marker body : String}
    {value other : UInt64} {literal again : String} (encoded : encode value style bits = .ok literal)
    (encodedOther : encode other style bits = .ok again)
    (only : literalsAfter marker body = [literal]) (onlyOther : literalsAfter marker body = [again]) :
    value = other := by
  -- The literal is one text, and a text is read back as one value.
  have sameLiteral : literal = again := by simpa [only] using onlyOther
  subst sameLiteral
  simpa [decode_encode encoded] using decode_encode encodedOther

end Template

/-- Where a segment takes its value from, if it has one. -/
def Segment.source? : Segment → Option Source
  | .text _ => none
  | .value _ source _ _ => some source

/-- Whether a source has one value in all contexts. -/
def Source.isConstant : Source → Bool
  | .constant _ => true
  | _ => false

/-- All artifacts but the hardware package read the end of memory and nothing else. -/
theorem Artifact.sources_of_ne {artifact : Artifact} (other : artifact ≠ .hdlPackage) :
    ∀ source ∈ artifact.template.segments.filterMap Segment.source?,
      source.isConstant ∨ source = .derived "memory_end_address" := by
  -- The sources of the three templates are looked at one by one.
  cases artifact with
  | hdlPackage => exact absurd rfl other
  | _ => decide

/-- The hardware package reads the end of memory and unsigned parameters of the schema. -/
theorem hdlPackage_sources :
    ∀ source ∈ Artifact.hdlPackage.template.segments.filterMap Segment.source?,
      source = .derived "memory_end_address" ∨ ∃ declaration ∈ Schema.standard.declarations,
        declaration.type = .uint wordBits ∧ source = .parameter declaration.name := by
  -- The package has eleven entries, of which ten are parameters.
  decide

/-- Every unsigned parameter of the schema stands in the hardware package. -/
theorem hdlPackage_reads : ∀ declaration ∈ Schema.standard.declarations,
    declaration.type ≠ .string →
      ∃ parameter ∈ hardwareParameters, parameter.2.1 = .parameter declaration.name := by
  -- The declarations are looked up among the entries one by one.
  decide

/-- The two parameters of the end of memory are unsigned parameters of the schema. -/
theorem memoryEnd_declared : ∀ name ∈ ["RAM_ADDRESS_BITWIDTH", "RAM_ADDRESSING_MODE"],
    ∃ declaration ∈ Schema.standard.declarations,
      declaration.name = name ∧ declaration.type = .uint wordBits := by
  -- The two names are looked up in the schema.
  decide

/-- The sum of the address width and the addressing mode, to which the end of memory is the power of two. -/
def ParameterSet.HasAddressExponent (parameters : ParameterSet) (exponent : Nat) : Prop :=
  ∃ width mode : UInt64, parameters.get? "RAM_ADDRESS_BITWIDTH" = some (.uint width) ∧
    parameters.get? "RAM_ADDRESSING_MODE" = some (.uint mode) ∧
    exponent = width.toNat + mode.toNat

/-- A set has at most one address exponent. -/
theorem ParameterSet.HasAddressExponent.unique {parameters : ParameterSet} {exponent other : Nat}
    (has : parameters.HasAddressExponent exponent) (again : parameters.HasAddressExponent other) :
    exponent = other := by
  -- The exponent is the sum of two parameters.
  obtain ⟨width, mode, widthBound, modeBound, rfl⟩ := has
  obtain ⟨otherWidth, otherMode, otherWidthBound, otherModeBound, rfl⟩ := again
  -- A set binds each of the two names to one value.
  simp only [widthBound, modeBound, Option.some.injEq, ParameterValue.uint.injEq]
    at otherWidthBound otherModeBound
  rw [otherWidthBound, otherModeBound]

/-- Whether two sets bind the same numbers to all unsigned parameters of the schema. -/
def ParameterSet.SameNumbers (first second : ParameterSet) : Prop :=
  ∀ declaration ∈ Schema.standard.declarations, ∀ bits, declaration.type = .uint bits →
    first.get? declaration.name = second.get? declaration.name

/-- Sets with the same numbers have the same address exponent. -/
theorem ParameterSet.SameNumbers.hasAddressExponent {first second : ParameterSet} {exponent : Nat}
    (same : first.SameNumbers second) (has : first.HasAddressExponent exponent) :
    second.HasAddressExponent exponent := by
  -- The two parameters of the exponent are declared with the others.
  have bound (name : String) (among : name ∈ ["RAM_ADDRESS_BITWIDTH", "RAM_ADDRESSING_MODE"]) :
      first.get? name = second.get? name := by
    obtain ⟨declaration, declared, rfl, type⟩ := memoryEnd_declared name among
    exact same declaration declared _ type
  obtain ⟨width, mode, widthBound, modeBound, sum⟩ := has
  exact ⟨width, mode, (bound "RAM_ADDRESS_BITWIDTH" (by simp)).symm.trans widthBound,
    (bound "RAM_ADDRESSING_MODE" (by simp)).symm.trans modeBound, sum⟩

namespace RenderContext.IsPrepared

variable {first second : RenderContext} {exponent other : Nat}

/-- A prepared context has an address exponent, and its end of memory is that power of two. -/
theorem exists_exponent (prepared : first.IsPrepared) :
    ∃ exponent value, first.parameters.HasAddressExponent exponent ∧
      first.derived.get? "memory_end_address" = some value ∧ value.toNat = 2 ^ exponent := by
  -- The rules have computed the end of memory from the two parameters.
  obtain ⟨width, mode, value, widthBound, modeBound, found, power⟩ :=
    evaluate_memoryEnd prepared.evaluated
  exact ⟨_, value, ⟨width, mode, widthBound, modeBound, rfl⟩, found, power⟩

/-- The ends of memory of prepared contexts are equal exactly if their address exponents are. -/
theorem memoryEnd_eq_iff (firstPrepared : first.IsPrepared) (secondPrepared : second.IsPrepared)
    (has : first.parameters.HasAddressExponent exponent)
    (hasOther : second.parameters.HasAddressExponent other) :
    first.derived.get? "memory_end_address" = second.derived.get? "memory_end_address" ↔
      exponent = other := by
  -- Different exponents give different powers of two.
  obtain ⟨_, value, hasOwn, found, power⟩ := firstPrepared.exists_exponent
  obtain ⟨_, otherValue, hasOwnOther, foundOther, powerOther⟩ := secondPrepared.exists_exponent
  rw [hasOwn.unique has] at power
  rw [hasOwnOther.unique hasOther] at powerOther
  rw [found, foundOther, Option.some.injEq, ← UInt64.toNat_inj, power, powerOther]
  exact Nat.pow_right_inj (by decide)

/-- Artifacts with one body have one end of memory. -/
theorem memoryEnd_of_body {artifact : Artifact} {body : String}
    (rendered : renderSegments artifact first artifact.template.segments = .ok body)
    (renderedOther : renderSegments artifact second artifact.template.segments = .ok body) :
    first.derived.get? "memory_end_address" = second.derived.get? "memory_end_address" := by
  -- Each body shows its end of memory, in a literal that can be read back.
  obtain ⟨value, literal, found, encoded, only⟩ := Artifact.memoryEnd_literal rendered
  obtain ⟨other, again, foundOther, encodedOther, onlyOther⟩ :=
    Artifact.memoryEnd_literal renderedOther
  rw [found, foundOther, value_eq_of_literalsAfter encoded encodedOther only onlyOther]

/-- Hardware packages with one body were rendered from the same numbers. -/
theorem sameNumbers_of_body {body : String}
    (rendered : renderSegments .hdlPackage first hdlPackageTemplate.segments = .ok body)
    (renderedOther : renderSegments .hdlPackage second hdlPackageTemplate.segments = .ok body) :
    first.parameters.SameNumbers second.parameters := by
  -- Each unsigned parameter has a line in the package.
  intro declaration among bits type
  obtain ⟨⟨name, source, style⟩, known, reads⟩ := hdlPackage_reads declaration among (by simp [type])
  simp only at reads
  subst reads
  -- Each line of the package is marked by its parameter's name, whatever stands in the others.
  obtain ⟨value, literal, resolved, encoded, only⟩ := parameter_literal rendered known
  obtain ⟨other, again, resolvedOther, encodedOther, onlyOther⟩ :=
    parameter_literal renderedOther known
  rw [get?_of_resolve resolved, get?_of_resolve resolvedOther,
    value_eq_of_literalsAfter encoded encodedOther only onlyOther]

/-- Contexts with one end of memory render every artifact but the hardware package alike. -/
theorem renderSegments_of_memoryEnd {artifact : Artifact} (apart : artifact ≠ .hdlPackage)
    (same : first.derived.get? "memory_end_address" = second.derived.get? "memory_end_address") :
    renderSegments artifact first artifact.template.segments =
      renderSegments artifact second artifact.template.segments := by
  -- A body depends on the values of its sources alone.
  refine renderSegments_congr fun label source style bits among => ?_
  have read : source ∈ artifact.template.segments.filterMap Segment.source? :=
    List.mem_filterMap.2 ⟨_, among, rfl⟩
  rcases artifact.sources_of_ne apart source read with constant | rfl
  · -- A constant is written into the template and reads no context.
    cases source with
    | constant value => rfl
    | _ => cases constant
  · simp only [Template.resolve, same]

/-- Contexts with the same numbers and one end of memory render the hardware package alike. -/
theorem renderSegments_of_sameNumbers
    (numbers : first.parameters.SameNumbers second.parameters)
    (firstPrepared : first.IsPrepared) (secondPrepared : second.IsPrepared)
    (same : first.derived.get? "memory_end_address" = second.derived.get? "memory_end_address") :
    renderSegments .hdlPackage first hdlPackageTemplate.segments =
      renderSegments .hdlPackage second hdlPackageTemplate.segments := by
  -- A body depends on the values of its sources alone.
  refine renderSegments_congr fun label source style bits among => ?_
  have read : source ∈ Artifact.hdlPackage.template.segments.filterMap Segment.source? :=
    List.mem_filterMap.2 ⟨_, among, rfl⟩
  rcases hdlPackage_sources source read with rfl | ⟨declaration, declared, type, rfl⟩
  · -- The one value of the package that is no parameter.
    simp only [Template.resolve, same]
  · -- Both sets bind the parameter to a number, and to the same one.
    have served : (Source.parameter declaration.name).isServed .standard wordBits :=
      decide_eq_true ⟨declaration, declared, rfl, type⟩
    obtain ⟨value, resolved, -⟩ := firstPrepared.resolve .hdlPackage served
    obtain ⟨other, resolvedOther, -⟩ := secondPrepared.resolve .hdlPackage served
    have bound := numbers declaration declared _ type
    rw [get?_of_resolve resolved, get?_of_resolve resolvedOther] at bound
    cases bound
    rw [resolved, resolvedOther]

/--
An artifact's text changes exactly when what the artifact depends on changes.

Two boards of one profile name and source have the same boot stub, native header and native
namespace exactly if the sums of their address width and addressing mode are equal, and the same
hardware package exactly if they bind the same numbers to all unsigned parameters. The name of the
board, the one parameter that is a text, does not matter.
-/
theorem text_eq_iff (firstPrepared : first.IsPrepared) (secondPrepared : second.IsPrepared)
    (profile : first.profile = second.profile) (source : first.source = second.source)
    (artifact : Artifact) :
    ∃ text otherText exponent other,
      artifact.template.render first = .ok text ∧ artifact.template.render second = .ok otherText ∧
      first.parameters.HasAddressExponent exponent ∧
      second.parameters.HasAddressExponent other ∧
      (artifact ≠ .hdlPackage → (text = otherText ↔ exponent = other)) ∧
      (artifact = .hdlPackage →
        (text = otherText ↔ first.parameters.SameNumbers second.parameters)) := by
  -- Both contexts are prepared, so both artifacts have a text and an exponent.
  obtain ⟨text, rendered⟩ := firstPrepared.render artifact
  obtain ⟨otherText, renderedOther⟩ := secondPrepared.render artifact
  obtain ⟨exponent, _, has, -⟩ := firstPrepared.exists_exponent
  obtain ⟨other, _, hasOther, -⟩ := secondPrepared.exists_exponent
  have memoryEnd := memoryEnd_eq_iff firstPrepared secondPrepared has hasOther
  have bodies := render_eq_iff profile source rendered renderedOther
  rw [Artifact.template_artifact] at bodies
  -- A text is its banner and its body, and two bodies that are equal are one body.
  obtain ⟨body, segments, -⟩ := render_ok rendered
  rw [Artifact.template_artifact] at segments
  refine ⟨text, otherText, exponent, other, rendered, renderedOther, has, hasOther, ?_, ?_⟩
  · -- The end of memory is all that these artifacts read, and it is written in each of them.
    intro apart
    rw [bodies, ← memoryEnd]
    constructor
    · intro same
      exact memoryEnd_of_body segments (same ▸ segments)
    · exact renderSegments_of_memoryEnd apart
  · intro package
    subst package
    rw [bodies]
    constructor
    · intro same
      exact sameNumbers_of_body segments (same ▸ segments)
    · -- The package reads the end of memory as well, which the same numbers leave the same.
      intro numbers
      have exponents := (numbers.hasAddressExponent has).unique hasOther
      exact renderSegments_of_sameNumbers numbers firstPrepared secondPrepared (memoryEnd.2 exponents)

end RenderContext.IsPrepared

/-- A board of width 3 and mode 2 and one of width 4 and mode 1 are checked, and their numbers differ. -/
theorem boardTable_steps :
    (ParameterSet.ofTable .standard "b" (boardTable 3 2)).toOption.any fun first =>
      (ParameterSet.ofTable .standard "b" (boardTable 4 1)).toOption.any fun second =>
        (evaluate standardRules first).toOption.isSome ∧
          (evaluate standardRules second).toOption.isSome ∧
          first.get? "RAM_ADDRESS_BITWIDTH" = some (.uint 3) ∧
          first.get? "RAM_ADDRESSING_MODE" = some (.uint 2) ∧
          second.get? "RAM_ADDRESS_BITWIDTH" = some (.uint 4) ∧
          second.get? "RAM_ADDRESSING_MODE" = some (.uint 1) := by
  -- Both tables are bound and evaluated, and the four numbers are looked up.
  decide +kernel

/-- Boards of two widths with one end of memory have one boot stub and two hardware packages. -/
theorem RenderContext.IsPrepared.text_eq_iff_sample : ∃ first second : RenderContext,
    first.IsPrepared ∧ second.IsPrepared ∧ first.profile = second.profile ∧
      first.source = second.source ∧
      (∃ text, Artifact.bootStub.template.render first = .ok text ∧
        Artifact.bootStub.template.render second = .ok text) ∧
      ∃ text other, Artifact.hdlPackage.template.render first = .ok text ∧
        Artifact.hdlPackage.template.render second = .ok other ∧ text ≠ other := by
  -- The two boards differ in width and mode, whose sum is five for both.
  obtain ⟨first, checked, steps⟩ := (Option.any_eq_true _ _).1 boardTable_steps
  obtain ⟨second, checkedOther, steps⟩ := (Option.any_eq_true _ _).1 steps
  obtain ⟨evaluates, evaluatesOther, width, mode, otherWidth, otherMode⟩ := of_decide_eq_true steps
  obtain ⟨derived, evaluated⟩ := Option.isSome_iff_exists.1 evaluates
  obtain ⟨derivedOther, evaluatedOther⟩ := Option.isSome_iff_exists.1 evaluatesOther
  let context : RenderContext := ⟨"b", "b.toml", first, derived⟩
  let otherContext : RenderContext := ⟨"b", "b.toml", second, derivedOther⟩
  have prepared : context.IsPrepared := ⟨⟨_, _, ok_of_toOption checked⟩, ok_of_toOption evaluated⟩
  have preparedOther : otherContext.IsPrepared :=
    ⟨⟨_, _, ok_of_toOption checkedOther⟩, ok_of_toOption evaluatedOther⟩
  refine ⟨context, otherContext, prepared, preparedOther, rfl, rfl, ?_, ?_⟩
  · -- Three and two are as much as four and one.
    obtain ⟨text, other, exponent, exponentOther, rendered, renderedOther, has, hasOther, same, -⟩ :=
      prepared.text_eq_iff preparedOther rfl rfl .bootStub
    have sum := has.unique ⟨3, 2, width, mode, rfl⟩
    have sumOther := hasOther.unique ⟨4, 1, otherWidth, otherMode, rfl⟩
    have equal : text = other := (same (by decide)).2 (sum.trans sumOther.symm)
    exact ⟨text, rendered, equal ▸ renderedOther⟩
  · obtain ⟨text, other, _, _, rendered, renderedOther, -, -, -, same⟩ :=
      prepared.text_eq_iff preparedOther rfl rfl .hdlPackage
    refine ⟨text, other, rendered, renderedOther, fun equal => ?_⟩
    -- The hardware package tells a width of three from one of four.
    obtain ⟨declaration, among, named, type⟩ := memoryEnd_declared "RAM_ADDRESS_BITWIDTH" (by simp)
    have bound := (same rfl).1 equal declaration among _ type
    rw [named, show context.parameters = first from rfl, width,
      show otherContext.parameters = second from rfl, otherWidth] at bound
    exact absurd bound (by decide)

end BoardConfig
