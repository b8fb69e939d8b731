import BoardConfig.Proofs.Artifact.Literals
import BoardConfig.Proofs.Template.Resolution

/-! Which artifacts can be rendered from any parameters and derived values, and why the others cannot. -/

namespace BoardConfig

open Template

/-- Whether a segment needs nothing of the context: fixed text, or a constant that fits its width. -/
def Segment.isFixed : Segment → Bool
  | .text _ => true
  | .value _ (.constant number) _ bits => ValidWidth bits ∧ number.toNat < 2 ^ bits
  | .value _ _ _ _ => false

/-- A segment that needs nothing of the context always has a text. -/
theorem Template.renderSegment_of_isFixed (artifact : Artifact) (context : RenderContext)
    {segment : Segment} (fixed : segment.isFixed) :
    ∃ text, renderSegment artifact context segment = .ok text := by
  -- A text needs nothing, and a constant was compared with its width beforehand.
  cases segment with
  | text text => exact ⟨text, rfl⟩
  | value label source style bits =>
    cases source with
    | constant number =>
      obtain ⟨valid, fits⟩ := of_decide_eq_true fixed
      obtain ⟨text, encoded⟩ := (exists_encode_iff style).2 ⟨valid, fits⟩
      exact ⟨text, by simp only [renderSegment, resolve, encoded]⟩
    | parameter name => cases fixed
    | derived name => cases fixed

/-- All artifacts but the hardware package need the end of memory and nothing else. -/
theorem Artifact.isFixed_or_eq_memoryEnd {artifact : Artifact} (apart : artifact ≠ .hdlPackage) :
    ∀ segment ∈ artifact.template.segments,
      segment.isFixed ∨ segment = memoryEndSegment artifact.memoryEndStyle := by
  -- The segments of the three templates are looked at one by one.
  cases artifact with
  | hdlPackage => exact absurd rfl apart
  | _ => decide

/-- All artifacts but the hardware package have the end of memory in them. -/
theorem Artifact.memoryEndSegment_mem {artifact : Artifact} (apart : artifact ≠ .hdlPackage) :
    memoryEndSegment artifact.memoryEndStyle ∈ artifact.template.segments := by
  -- In these three templates the end of memory stands in a segment of its own.
  have among := artifact.memoryEndValue_mem
  cases artifact with
  | hdlPackage => exact absurd rfl apart
  | _ => exact among

/-- The segments of one entry of the hardware package. -/
def parameterSegments (entry : String × Source × LiteralStyle) : List Segment := [
  .text "  parameter int unsigned ", .text entry.1, .text " = ",
  .value entry.1 entry.2.1 entry.2.2 wordBits,
  .text ";\n"]

/-- The hardware package is its entries between fixed texts. -/
theorem hdlPackageTemplate_segments :
    hdlPackageTemplate.segments = .text "\n" :: .text "package configuration;\n\n" ::
      (hardwareParameters.flatMap parameterSegments ++ [.text "\nendpackage\n"]) := rfl

namespace RenderContext

/-- Whether the end of memory is derived and fits a word. -/
def HasGoodMemoryEnd (context : RenderContext) : Prop :=
  ∃ value, context.derived.get? "memory_end_address" = some value ∧ value.toNat < 2 ^ 32

/-- Whether each of the ten parameters that the hardware package shows is an integer that fits a word. -/
def HasGoodParameters (context : RenderContext) : Prop :=
  ∀ knob ∈ knobs,
    ∃ value, context.parameters.get? knob.1 = some (.uint value) ∧ value.toNat < 2 ^ 32

/-- The first of some entries of the hardware package whose source offends, and its error. -/
inductive FirstOffence (context : RenderContext) :
    List (String × Source × LiteralStyle) → RenderError → Prop
  /-- The first entry offends. -/
  | here {name : String} {source : Source} {style : LiteralStyle}
      {rest : List (String × Source × LiteralStyle)} {e : RenderError}
      (offends : source.Offends context .hdlPackage name style 32 e) :
      FirstOffence context ((name, source, style) :: rest) e
  /-- The first entry fits, and one behind it offends. -/
  | behind {entry : String × Source × LiteralStyle}
      {rest : List (String × Source × LiteralStyle)} {e : RenderError}
      (fits : entry.2.1.Fits context 32) (later : FirstOffence context rest e) :
      FirstOffence context (entry :: rest) e

variable {context : RenderContext} {entries : List (String × Source × LiteralStyle)}
  {e : RenderError}

/-- The end of memory is good exactly if its source fits a word. -/
theorem hasGoodMemoryEnd_iff :
    context.HasGoodMemoryEnd ↔ (Source.derived "memory_end_address").Fits context 32 := by
  -- A derived source denotes the value that is derived under its name.
  constructor
  · rintro ⟨value, present, fits⟩
    exact ⟨value, .derived present, fits⟩
  · rintro ⟨value, denotes, fits⟩
    cases denotes with
    | derived present => exact ⟨value, present, fits⟩

/-- A parameter is good exactly if its source fits a word. -/
theorem fits_parameter_iff {name : String} :
    (∃ value, context.parameters.get? name = some (.uint value) ∧ value.toNat < 2 ^ 32) ↔
      (Source.parameter name).Fits context 32 := by
  -- A parameter denotes the number that it is bound to.
  constructor
  · rintro ⟨value, bound, fits⟩
    exact ⟨value, .parameter bound, fits⟩
  · rintro ⟨value, denotes, fits⟩
    cases denotes with
    | parameter bound => exact ⟨value, bound, fits⟩

/-- The end of memory and the parameters are good exactly if every entry of the package fits. -/
theorem hasGoodMemoryEnd_and_hasGoodParameters_iff :
    context.HasGoodMemoryEnd ∧ context.HasGoodParameters ↔
      ∀ entry ∈ hardwareParameters, entry.2.1.Fits context 32 := by
  -- The entries are those of the parameters, and behind them that of the end of memory.
  rw [hardwareParameters_eq, knobEntries, List.forall_mem_append, List.forall_mem_map,
    List.forall_mem_singleton, hasGoodMemoryEnd_iff, and_comm]
  exact and_congr_left' (forall₂_congr fun _ _ => fits_parameter_iff)

/-- Where an entry offends, not all of them fit. -/
theorem FirstOffence.exists_not_fits (offence : context.FirstOffence entries e) :
    ∃ entry ∈ entries, ¬ entry.2.1.Fits context 32 := by
  -- Induction on the entries before the one that offends.
  induction offence with
  | here offends => exact ⟨_, List.mem_cons_self, offends.not_fits⟩
  | behind fits later ih =>
    obtain ⟨entry, among, wrong⟩ := ih
    exact ⟨entry, List.mem_cons_of_mem _ among, wrong⟩

/-- With a good end of memory and good parameters no entry of the hardware package offends. -/
theorem FirstOffence.not_good (offence : context.FirstOffence hardwareParameters e) :
    ¬ (context.HasGoodMemoryEnd ∧ context.HasGoodParameters) := by
  -- In a good context each entry of the package fits.
  intro good
  obtain ⟨entry, among, wrong⟩ := offence.exists_not_fits
  exact wrong (hasGoodMemoryEnd_and_hasGoodParameters_iff.1 good entry among)

/-- The error of an offence is one of the hardware package. -/
theorem FirstOffence.artifact_eq (offence : context.FirstOffence entries e) :
    e.artifact = .hdlPackage := by
  -- Induction on the entries before the one that offends.
  induction offence with
  | here offends => exact offends.artifact_eq
  | behind fits later ih => exact ih

/-- The error of the first offence is determined by the entries. -/
theorem FirstOffence.iff_eq (offence : context.FirstOffence entries e) (reason : RenderError) :
    context.FirstOffence entries reason ↔ reason = e := by
  constructor
  · -- An entry that offends does not fit, so both offences are in one place.
    intro again
    induction offence with
    | here offends =>
      cases again with
      | here offendsAgain => exact (offends.iff_eq reason).1 offendsAgain
      | behind fits later => exact absurd fits offends.not_fits
    | behind fits later ih =>
      cases again with
      | here offends => exact absurd fits offends.not_fits
      | behind fitsAgain laterAgain => exact ih laterAgain
  · -- The offence itself is the one that is found.
    rintro rfl
    exact offence

/-- Entries that all fit have a text, and otherwise they fail as the first that offends. -/
theorem renderSegments_entries_cases (entries : List (String × Source × LiteralStyle))
    (behind : String) :
    ((∀ entry ∈ entries, entry.2.1.Fits context 32) ∧
      ∃ text, renderSegments .hdlPackage context
        (entries.flatMap parameterSegments ++ [.text behind]) = .ok text) ∨
    ∃ e, context.FirstOffence entries e ∧
      renderSegments .hdlPackage context
        (entries.flatMap parameterSegments ++ [.text behind]) = .error e := by
  -- The first entry decides if it offends, and leaves it to the others if it fits.
  induction entries with
  | nil => exact .inl ⟨by simp, behind ++ "", rfl⟩
  | cons entry rest ih =>
    obtain ⟨name, source, style⟩ := entry
    rcases renderSegment_value_cases .hdlPackage context name source style
      (show ValidWidth wordBits by decide) with ⟨fits, text, first⟩ | ⟨e, offends, refused⟩
    · rcases ih with ⟨all, more, others⟩ | ⟨e, later, others⟩
      · -- The entry has its line, and the others follow it.
        refine .inl ⟨List.forall_mem_cons.2 ⟨fits, all⟩, ?_⟩
        simp [parameterSegments, renderSegments, first, others]
      · refine .inr ⟨e, .behind fits later, ?_⟩
        simp [parameterSegments, renderSegments, first, others]
    · -- The entry is the first that fails, and the others are not reached.
      refine .inr ⟨e, .here offends, ?_⟩
      simp [parameterSegments, renderSegments, refused]

end RenderContext

namespace Artifact

variable {context : RenderContext}

/-- An artifact other than the hardware package has a text, or fails for the end of memory. -/
theorem render_cases {artifact : Artifact} (apart : artifact ≠ .hdlPackage)
    (context : RenderContext) :
    (context.HasGoodMemoryEnd ∧ ∃ text, artifact.template.render context = .ok text) ∨
    ∃ e, (Source.derived "memory_end_address").Offends context artifact "memory_end_address"
      artifact.memoryEndStyle 32 e ∧ artifact.template.render context = .error e := by
  -- The end of memory alone decides, as every other segment has a text in any context.
  have only := artifact.isFixed_or_eq_memoryEnd apart
  rcases renderSegment_value_cases artifact context "memory_end_address"
    (.derived "memory_end_address") artifact.memoryEndStyle (show ValidWidth wordBits by decide) with
    ⟨fits, literal, found⟩ | ⟨reason, offends, refused⟩
  · have each : ∀ segment ∈ artifact.template.segments,
        ∃ text, renderSegment artifact context segment = .ok text := by
      intro segment among
      rcases only segment among with fixed | rfl
      · exact renderSegment_of_isFixed artifact context fixed
      · exact ⟨literal, found⟩
    obtain ⟨body, rendered⟩ := renderSegments_of_each each
    exact .inl ⟨RenderContext.hasGoodMemoryEnd_iff.2 fits, by simp [Template.render, rendered]⟩
  · refine .inr ⟨reason, offends, ?_⟩
    cases rendered : renderSegments artifact context artifact.template.segments with
    | ok body =>
      -- The end of memory is among the segments, so it would have a text.
      obtain ⟨text, found⟩ := (renderSegments_ok rendered).1 _ (artifact.memoryEndSegment_mem apart)
      rw [memoryEndSegment, refused] at found
      cases found
    | error e =>
      obtain ⟨before, segment, after, parts, -, fails⟩ := renderSegments_error rendered
      have among : segment ∈ artifact.template.segments := by simp [parts]
      rcases only segment among with fixed | rfl
      · obtain ⟨text, found⟩ := renderSegment_of_isFixed artifact context fixed
        rw [found] at fails
        cases fails
      · rw [memoryEndSegment, refused] at fails
        cases fails
        simp [Template.render, rendered]

/-- The hardware package has a text, or fails for its first entry that offends. -/
theorem render_hdlPackage_cases (context : RenderContext) :
    ((context.HasGoodMemoryEnd ∧ context.HasGoodParameters) ∧
      ∃ text, Artifact.hdlPackage.template.render context = .ok text) ∨
    ∃ e, context.FirstOffence hardwareParameters e ∧
      Artifact.hdlPackage.template.render context = .error e := by
  -- Before its entries the package has fixed text only.
  have split : Artifact.hdlPackage.template.segments = .text "\n" ::
      .text "package configuration;\n\n" ::
        (hardwareParameters.flatMap parameterSegments ++ [.text "\nendpackage\n"]) :=
    hdlPackageTemplate_segments
  rcases context.renderSegments_entries_cases hardwareParameters "\nendpackage\n" with
    ⟨all, text, rendered⟩ | ⟨e, offence, failed⟩
  · refine .inl ⟨RenderContext.hasGoodMemoryEnd_and_hasGoodParameters_iff.2 all, ?_⟩
    simp [Template.render, split, renderSegments, rendered]
  · refine .inr ⟨e, offence, ?_⟩
    simp [Template.render, split, renderSegments, failed]

/-- With a good end of memory every artifact but the hardware package has a text. -/
theorem render_of_memoryEnd {artifact : Artifact} (memoryEnd : context.HasGoodMemoryEnd)
    (apart : artifact ≠ .hdlPackage) : ∃ text, artifact.template.render context = .ok text := by
  -- The artifact fails only if its end of memory offends, which a good one does not.
  rcases artifact.render_cases apart context with ⟨-, rendered⟩ | ⟨e, offends, -⟩
  · exact rendered
  · exact absurd (RenderContext.hasGoodMemoryEnd_iff.1 memoryEnd) offends.not_fits

/-- With a good end of memory and good parameters every artifact has a text. -/
theorem render_of_good (memoryEnd : context.HasGoodMemoryEnd)
    (parameters : context.HasGoodParameters) (artifact : Artifact) :
    ∃ text, artifact.template.render context = .ok text := by
  -- The hardware package is the one artifact that reads parameters.
  by_cases package : artifact = .hdlPackage
  · subst package
    rcases render_hdlPackage_cases context with ⟨-, rendered⟩ | ⟨e, offence, -⟩
    · exact rendered
    · exact absurd ⟨memoryEnd, parameters⟩ offence.not_good
  · exact render_of_memoryEnd memoryEnd package

/-- Without a good end of memory every artifact fails, the hardware package for an entry. -/
theorem render_of_not_memoryEnd (wrong : ¬ context.HasGoodMemoryEnd) (artifact : Artifact) :
    ∃ e, artifact.template.render context = .error e ∧ e.artifact = artifact ∧
      (artifact ≠ .hdlPackage →
        (Source.derived "memory_end_address").Offends context artifact "memory_end_address"
          artifact.memoryEndStyle 32 e) ∧
      (artifact = .hdlPackage → context.FirstOffence hardwareParameters e) := by
  -- The hardware package has an entry for the end of memory, so it cannot do without it either.
  by_cases package : artifact = .hdlPackage
  · subst package
    rcases render_hdlPackage_cases context with ⟨good, -⟩ | ⟨e, offence, failed⟩
    · exact absurd good.1 wrong
    · exact ⟨e, failed, offence.artifact_eq, fun apart => absurd rfl apart, fun _ => offence⟩
  · rcases artifact.render_cases package context with ⟨good, -⟩ | ⟨e, offends, failed⟩
    · exact absurd good wrong
    · exact ⟨e, failed, offends.artifact_eq, fun _ => offends, fun same => absurd same package⟩

end Artifact

/-- The failures and the texts of more artifacts come behind those of the earlier ones. -/
theorem renderEach_append (context : RenderContext) (earlier later : List Artifact) :
    renderEach context (earlier ++ later) =
      ((renderEach context earlier).1 ++ (renderEach context later).1,
        (renderEach context earlier).2 ++ (renderEach context later).2) := by
  -- The later ones are rendered whether an earlier one fails or not.
  induction earlier with
  | nil => rfl
  | cons artifact rest ih =>
    simp only [List.cons_append, renderEach, ih]
    cases artifact.template.render context <;> rfl

/-- Artifacts that all fail bring their errors and no text. -/
theorem renderEach_of_errors {context : RenderContext} {artifacts : List Artifact}
    {error : Artifact → RenderError}
    (failed : ∀ artifact ∈ artifacts, artifact.template.render context = .error (error artifact)) :
    renderEach context artifacts = (artifacts.map error, []) := by
  -- Induction on the artifacts: each one adds its error in front of those of the others.
  induction artifacts with
  | nil => rfl
  | cons artifact rest ih =>
    have others := ih fun other among => failed other (List.mem_cons_of_mem _ among)
    simp only [renderEach, failed artifact List.mem_cons_self, others, List.map_cons]

/-- One failure withholds all texts, of which the names are told. -/
theorem renderAll_of_failures {context : RenderContext} {failures : List RenderError}
    {texts : List (Artifact × String)}
    (each : renderEach context Artifact.all = (failures, texts)) (some : failures ≠ []) :
    renderAll context = .error (.render failures (texts.map (·.1))) := by
  -- Only an empty list of failures counts as success.
  unfold renderAll
  rw [each]
  cases failures with
  | nil => exact absurd rfl some
  | cons first rest => rfl

/-- Where the hardware package alone fails, the three other artifacts are told as rendered. -/
theorem renderAll_of_hdlPackage_error {context : RenderContext} {e : RenderError}
    (small : ∀ artifact : Artifact, artifact ≠ .hdlPackage →
      ∃ text, artifact.template.render context = .ok text)
    (failed : Artifact.hdlPackage.template.render context = .error e) :
    renderAll context = .error (.render [e] [.bootStub, .nativeHeader, .nativeNamespace]) := by
  -- The hardware package is the last artifact, so the others come before it.
  obtain ⟨texts, early⟩ : ∃ texts,
      renderEach context [.bootStub, .nativeHeader, .nativeNamespace] = ([], texts) := by
    refine ⟨_, Prod.ext (renderEach_of_each fun artifact among => ?_) rfl⟩
    exact small artifact (by rintro rfl; simp at among)
  have late : renderEach context [.hdlPackage] = ([Artifact.hdlPackage].map fun _ => e, []) :=
    renderEach_of_errors fun artifact only => by rw [List.mem_singleton.1 only, failed]
  have all : renderEach context ([.bootStub, .nativeHeader, .nativeNamespace] ++ [.hdlPackage]) =
      ([e], texts) := by
    rw [renderEach_append, early, late, List.nil_append, List.append_nil]
    rfl
  rw [renderAll_of_failures all (by simp), (renderEach_nil early).1]

/--
Rendering succeeds, fails for the hardware package alone, or fails for every artifact.

The end of memory decides for the boot stub, the native header and the native namespace, whatever
the parameters are. Where it is good, the hardware package is rendered as well if its parameters are
good, and is the only failure if they are not; where it is not good, no artifact is rendered. The
hardware package fails for the first of its entries that offends.
-/
theorem renderAll_exact (context : RenderContext) :
    (context.HasGoodMemoryEnd → ∀ artifact : Artifact, artifact ≠ .hdlPackage →
      ∃ text, artifact.template.render context = .ok text) ∧
    (context.HasGoodMemoryEnd → context.HasGoodParameters →
      ∃ texts, renderAll context = .ok texts ∧ texts.map (·.1) = Artifact.all ∧
        ∀ entry ∈ texts, entry.1.template.render context = .ok entry.2) ∧
    (context.HasGoodMemoryEnd → ¬ context.HasGoodParameters →
      ∃ e, renderAll context = .error (.render [e] [.bootStub, .nativeHeader, .nativeNamespace]) ∧
        ∀ reason, context.FirstOffence knobEntries reason ↔ reason = e) ∧
    (¬ context.HasGoodMemoryEnd →
      ∃ error : Artifact → RenderError,
        renderAll context = .error (.render (Artifact.all.map error) []) ∧
        (∀ artifact, (error artifact).artifact = artifact) ∧
        (∀ artifact : Artifact, artifact ≠ .hdlPackage → ∀ reason,
          (Source.derived "memory_end_address").Offends context artifact "memory_end_address"
            artifact.memoryEndStyle 32 reason ↔ reason = error artifact) ∧
        ∀ reason, context.FirstOffence knobEntries reason ↔ reason = error .hdlPackage) := by
  -- The end of memory decides first, as every artifact has it; then the parameters do.
  rw [← hardwareParameters_eq]
  have small (memoryEnd : context.HasGoodMemoryEnd) (artifact : Artifact)
      (apart : artifact ≠ .hdlPackage) := Artifact.render_of_memoryEnd memoryEnd apart
  refine ⟨small, ?_, ?_, ?_⟩
  · intro memoryEnd parameters
    obtain ⟨texts, rendered⟩ := renderAll_of_each (Artifact.render_of_good memoryEnd parameters)
    exact ⟨texts, rendered, renderAll_ok rendered⟩
  · -- The hardware package is the only artifact that reads parameters.
    intro memoryEnd wrong
    rcases Artifact.render_hdlPackage_cases context with ⟨good, -⟩ | ⟨e, offence, failed⟩
    · exact absurd good.2 wrong
    · exact ⟨e, renderAll_of_hdlPackage_error (small memoryEnd) failed, offence.iff_eq⟩
  · -- Every artifact fails over the end of memory, the package unless an entry before it offends.
    intro wrong
    obtain ⟨error, told⟩ := Classical.axiomOfChoice (Artifact.render_of_not_memoryEnd wrong)
    have each : renderEach context Artifact.all = (Artifact.all.map error, []) :=
      renderEach_of_errors fun artifact _ => (told artifact).1
    exact ⟨error, renderAll_of_failures each (by simp [Artifact.all]),
      fun artifact => (told artifact).2.1,
      fun artifact apart => ((told artifact).2.2.1 apart).iff_eq,
      ((told .hdlPackage).2.2.2 rfl).iff_eq⟩

/-- A context with some parameters and one derived value, the end of memory. -/
def contextOf (bindings : List (String × ParameterValue)) (memoryEnd : UInt64) : RenderContext where
  profile := "b"
  source := "boards/b.toml"
  parameters := { profile := "b", values := .ofList bindings }
  derived := .ofList [("memory_end_address", memoryEnd)]

/-- The parameters that the hardware package shows, all of them one, but for some that are bound apart. -/
def onesBut (bindings : List (String × ParameterValue)) : List (String × ParameterValue) :=
  knobs.map (fun knob => (knob.1, .uint 1)) ++ bindings

/-- The end of memory is good exactly if it fits a word. -/
theorem hasGoodMemoryEnd_contextOf (bindings : List (String × ParameterValue)) {memoryEnd : UInt64} :
    (contextOf bindings memoryEnd).HasGoodMemoryEnd ↔ memoryEnd.toNat < 2 ^ 32 := by
  simp [RenderContext.HasGoodMemoryEnd, contextOf, SortedMap.get?_ofList, findEntry]

/-- With numbers all is rendered, with a text the package fails, and with a wide end everything. -/
theorem renderAll_exact_samples :
    (∃ texts, renderAll (contextOf (onesBut []) 64) = .ok texts) ∧
    (∃ e, renderAll (contextOf (onesBut [("CPU_FREQUENCY_HZ", .string "fast")]) 64) =
      .error (.render [e] [.bootStub, .nativeHeader, .nativeNamespace])) ∧
    ∃ failures, failures.length = 4 ∧
      renderAll (contextOf (onesBut []) 0x100000000) = .error (.render failures []) := by
  refine ⟨?_, ?_, ?_⟩
  · -- All ten parameters are one.
    have ones : ∀ knob ∈ knobs,
        (contextOf (onesBut []) 64).parameters.get? knob.1 = some (.uint 1) := by
      decide
    have parameters : (contextOf (onesBut []) 64).HasGoodParameters :=
      fun knob among => ⟨1, ones knob among, by decide⟩
    obtain ⟨texts, rendered, -⟩ := (renderAll_exact (contextOf (onesBut []) 64)).2.1
      ((hasGoodMemoryEnd_contextOf _).2 (by decide)) parameters
    exact ⟨texts, rendered⟩
  · -- One of the ten is a text.
    have wrong : ¬ (contextOf (onesBut [("CPU_FREQUENCY_HZ", .string "fast")]) 64).HasGoodParameters := by
      intro parameters
      obtain ⟨value, bound, -⟩ := parameters ("CPU_FREQUENCY_HZ", .decimal) (by decide)
      have text : (contextOf (onesBut [("CPU_FREQUENCY_HZ", .string "fast")]) 64).parameters.get?
        "CPU_FREQUENCY_HZ" = some (.string "fast") := by decide
      simp [text] at bound
    obtain ⟨e, failed, -⟩ := (renderAll_exact
      (contextOf (onesBut [("CPU_FREQUENCY_HZ", .string "fast")]) 64)).2.2.1
        ((hasGoodMemoryEnd_contextOf _).2 (by decide)) wrong
    exact ⟨e, failed⟩
  · obtain ⟨error, failed, -⟩ := (renderAll_exact (contextOf (onesBut []) 0x100000000)).2.2.2
      (mt (hasGoodMemoryEnd_contextOf _).1 (by decide))
    exact ⟨_, rfl, failed⟩

end BoardConfig
