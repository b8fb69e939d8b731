import BoardConfig.Proofs.Generation.Banner
import BoardConfig.Proofs.Generation.Influence
import BoardConfig.Proofs.Generation.Renderability

/-! A template as the row of its segments: what it renders to, where it fails, and what it reads. -/

namespace BoardConfig

open Template

/-- Whether two contexts agree on what a source names. -/
def Source.SameIn (first second : RenderContext) : Source → Prop
  | .parameter name => first.parameters.get? name = second.parameters.get? name
  | .derived name => first.derived.get? name = second.derived.get? name
  | .constant _ => True

/-- Why a segment has no text in an artifact. -/
inductive Segment.Fails (context : RenderContext) (artifact : Artifact) :
    Segment → RenderError → Prop
  /-- The source stands for no value. -/
  | noValue {label : String} {source : Source} {style : LiteralStyle} {bits : Nat}
      {e : RenderError} (lacks : source.Lacks context artifact e) :
      Fails context artifact (.value label source style bits) e
  /-- The value has no literal of the style and width. -/
  | noLiteral {label : String} {source : Source} {style : LiteralStyle} {bits : Nat}
      {value : UInt64} {cause : LiteralError} (denotes : source.Denotes context value)
      (refused : encode value style bits = .error cause) :
      Fails context artifact (.value label source style bits) (.literal artifact label cause)

namespace Template

variable {artifact : Artifact} {context : RenderContext}

/-- A source is resolved to a value exactly if it stands for it. -/
theorem resolve_eq_ok_iff {source : Source} {value : UInt64} :
    resolve artifact context source = .ok value ↔ source.Denotes context value := by
  -- A source denotes a value or lacks one, and resolving tells which.
  rcases resolve_cases artifact context source with ⟨found, denotes, ok⟩ | ⟨e, lacks, failed⟩
  · rw [ok, Except.ok.injEq]
    constructor
    · rintro rfl
      exact denotes
    · exact denotes.unique
  · -- What lacks a value stands for none.
    rw [failed]
    constructor
    · intro impossible
      cases impossible
    · intro denotes
      exact absurd denotes lacks.not_denotes

/-- A source is refused with an error exactly if it lacks a value for that reason. -/
theorem resolve_eq_error_iff {source : Source} {e : RenderError} :
    resolve artifact context source = .error e ↔ source.Lacks context artifact e := by
  -- A source denotes a value or lacks one, and resolving tells which.
  rcases resolve_cases artifact context source with ⟨found, denotes, ok⟩ | ⟨reason, lacks, failed⟩
  · rw [ok]
    constructor
    · intro impossible
      cases impossible
    · intro lacks
      exact absurd denotes lacks.not_denotes
  · rw [failed, Except.error.injEq]
    constructor
    · rintro rfl
      exact lacks
    · intro again
      exact again.unique lacks

/-- A segment renders to a text exactly if that is its piece. -/
theorem renderSegment_eq_ok_iff {segment : Segment} {piece : String} :
    renderSegment artifact context segment = .ok piece ↔ IsPiece artifact context segment piece := by
  -- A piece is the text itself or the literal of a value.
  constructor
  · exact isPiece_of_renderSegment
  · intro isPiece
    cases isPiece with
    | text => rfl
    | literal stands encoded => simp only [renderSegment, stands, encoded]

/-- A segment is refused with an error exactly if it fails for that reason. -/
theorem renderSegment_eq_error_iff {segment : Segment} {e : RenderError} :
    renderSegment artifact context segment = .error e ↔ segment.Fails context artifact e := by
  -- A value is resolved first and written second, and each may fail.
  constructor
  · intro refused
    cases segment with
    | text text => cases refused
    | value label source style bits =>
      simp only [renderSegment] at refused
      split at refused
      · -- The source already has no value.
        rename_i unresolved
        cases refused
        exact .noValue (resolve_eq_error_iff.1 unresolved)
      · rename_i value resolved
        split at refused <;> cases refused
        rename_i unencoded
        exact .noLiteral (resolve_eq_ok_iff.1 resolved) unencoded
  · intro fails
    cases fails with
    | noValue lacks => simp only [renderSegment, resolve_eq_error_iff.2 lacks]
    | noLiteral denotes refused =>
      simp only [renderSegment, resolve_eq_ok_iff.2 denotes, refused]

/-- Where two contexts agree on what a source names, it is resolved alike in both. -/
theorem resolve_congr {other : RenderContext} {source : Source}
    (profile : context.parameters.profile = other.parameters.profile)
    (same : source.SameIn context other) :
    resolve artifact context source = resolve artifact other source := by
  -- Each kind of source is looked up in one part of the context.
  cases source with
  | parameter name =>
    -- The error for a parameter that is absent names the profile of the set.
    have bound : context.parameters.get? name = other.parameters.get? name := same
    simp only [resolve, ParameterSet.uint, ParameterSet.require, bound, profile]
  | derived name =>
    have present : context.derived.get? name = other.derived.get? name := same
    simp only [resolve, present]
  | constant value => rfl

/-- Segments in front decide alone if one of them fails, and else their texts come first. -/
theorem renderSegments_append (front behind : List Segment) :
    renderSegments artifact context (front ++ behind) =
      match renderSegments artifact context front with
      | .error e => .error e
      | .ok body => (renderSegments artifact context behind).map (body ++ ·) := by
  -- Induction on the segments in front.
  induction front with
  | nil =>
    show renderSegments artifact context behind = _
    cases rendered : renderSegments artifact context behind <;> simp [renderSegments, Except.map]
  | cons segment rest ih =>
    rw [List.cons_append]
    simp only [renderSegments]
    cases renderSegment artifact context segment with
    | error e => rfl
    | ok text =>
      rw [ih]
      cases renderSegments artifact context rest with
      | error e => rfl
      | ok body =>
        -- The text of the first segment comes before the bodies of both parts.
        cases renderSegments artifact context behind with
        | error e => rfl
        | ok more => simp [Except.map, String.append_assoc]

/-- Segments render to their pieces, one behind the other, and to nothing else. -/
theorem renderSegments_eq_ok_iff {segments : List Segment} {body : String} :
    renderSegments artifact context segments = .ok body ↔
      ∃ pieces, List.Forall₂ (IsPiece artifact context) segments pieces ∧
        body = String.join pieces := by
  constructor
  · exact pieces_of_renderSegments
  · -- Induction on the segments with their pieces.
    rintro ⟨pieces, each, rfl⟩
    induction each with
    | nil => rfl
    | cons first others ih =>
      simp only [renderSegments, renderSegment_eq_ok_iff.2 first, ih, String.join_cons]

/-- Segments fail with an error exactly if it is that of the first one that fails. -/
theorem renderSegments_eq_error_iff {segments : List Segment} {e : RenderError} :
    renderSegments artifact context segments = .error e ↔
      ∃ before segment after, segments = before ++ segment :: after ∧
        (∀ other ∈ before, ∃ piece, IsPiece artifact context other piece) ∧
        segment.Fails context artifact e := by
  -- Rendering goes from the front and stops at the first failure.
  constructor
  · intro failed
    obtain ⟨before, segment, after, parts, clean, refused⟩ := renderSegments_error failed
    refine ⟨before, segment, after, parts, ?_, renderSegment_eq_error_iff.1 refused⟩
    intro other among
    obtain ⟨text, rendered⟩ := clean other among
    exact ⟨text, isPiece_of_renderSegment rendered⟩
  · rintro ⟨before, segment, after, rfl, clean, fails⟩
    -- The segments before have a body, so the failing one is reached.
    obtain ⟨body, rendered⟩ : ∃ body, renderSegments artifact context before = .ok body := by
      apply renderSegments_of_each
      intro other among
      obtain ⟨piece, isPiece⟩ := clean other among
      exact ⟨piece, renderSegment_eq_ok_iff.2 isPiece⟩
    rw [renderSegments_append, rendered]
    simp only [renderSegments, renderSegment_eq_error_iff.2 fails, Except.map]

/-- Segments have a body exactly if each value among them stands for a number with a literal. -/
theorem exists_renderSegments_iff {segments : List Segment} :
    (∃ body, renderSegments artifact context segments = .ok body) ↔
      ∀ label source style bits, .value label source style bits ∈ segments →
        ∃ value literal, source.Denotes context value ∧ encode value style bits = .ok literal := by
  -- Texts never fail, so the values decide.
  constructor
  · rintro ⟨body, rendered⟩ label source style bits among
    obtain ⟨text, found⟩ := (renderSegments_ok rendered).1 _ among
    obtain ⟨value, stands, encoded⟩ := renderSegment_value_ok found
    exact ⟨value, text, resolve_eq_ok_iff.1 stands, encoded⟩
  · intro each
    apply renderSegments_of_each
    intro segment among
    cases segment with
    | text text => exact ⟨text, rfl⟩
    | value label source style bits =>
      obtain ⟨value, literal, denotes, encoded⟩ := each label source style bits among
      exact ⟨literal, renderSegment_eq_ok_iff.2 (.literal (resolve_eq_ok_iff.2 denotes) encoded)⟩

/-- A template with more segments behind its own. -/
def append (template : Template) (more : List Segment) : Template :=
  { template with segments := template.segments ++ more }

variable {template : Template}

/-- A template has a text exactly if its segments have a body, which follows the banner. -/
theorem render_eq_ok_iff {text : String} :
    template.render context = .ok text ↔
      ∃ body, renderSegments template.artifact context template.segments = .ok body ∧
        text = template.banner context ++ body := by
  -- The banner never fails.
  constructor
  · exact render_ok
  · rintro ⟨body, rendered, rfl⟩
    simp only [render, rendered]

/-- A template fails with an error exactly if its segments do. -/
theorem render_eq_error_iff {e : RenderError} :
    template.render context = .error e ↔
      renderSegments template.artifact context template.segments = .error e := by
  -- The banner never fails, so the segments' error is the template's.
  unfold render
  split
  · rename_i body rendered
    simp [rendered]
  · rename_i reason failed
    rw [failed]

/-- A template that fails goes on to fail alike with more segments behind it. -/
theorem render_append_of_error {e : RenderError} (failed : template.render context = .error e)
    (more : List Segment) : (template.append more).render context = .error e := by
  -- The further segments stand behind the one that fails.
  rw [render_eq_error_iff] at failed ⊢
  show renderSegments template.artifact context (template.segments ++ more) = .error e
  rw [renderSegments_append, failed]

/-- Behind a text come the bodies of further segments, or the error of the first that has none. -/
theorem render_append_of_ok {text : String} (rendered : template.render context = .ok text)
    (more : List Segment) :
    (template.append more).render context =
      (renderSegments template.artifact context more).map (text ++ ·) := by
  -- The segments in front have their body, and the further ones come behind it.
  obtain ⟨body, segments, rfl⟩ := render_ok rendered
  have whole : renderSegments template.artifact context (template.append more).segments =
      (renderSegments template.artifact context more).map (body ++ ·) := by
    show renderSegments template.artifact context (template.segments ++ more) = _
    rw [renderSegments_append, segments]
  -- The banner is that of the template without the further segments.
  have banner : (template.append more).banner context = template.banner context := rfl
  have artifact : (template.append more).artifact = template.artifact := rfl
  simp only [render, artifact, whole, banner]
  cases renderSegments template.artifact context more with
  | error e => rfl
  | ok further => simp [Except.map, String.append_assoc]

/-- Contexts that agree on what a template reads render it alike. -/
theorem render_congr {other : RenderContext} (profile : context.profile = other.profile)
    (source : context.source = other.source)
    (set : context.parameters.profile = other.parameters.profile)
    (same : ∀ label origin style bits, .value label origin style bits ∈ template.segments →
      origin.SameIn context other) :
    template.render context = template.render other := by
  -- A text is the banner and the body of the segments.
  have segments : renderSegments template.artifact context template.segments =
      renderSegments template.artifact other template.segments := by
    apply renderSegments_congr
    intro label origin style bits among
    exact resolve_congr set (same label origin style bits among)
  -- The banner reads the displayed name and the source, and nothing of the values.
  have banner : template.banner context = template.banner other := by
    simp only [Template.banner, profile, source]
  simp only [render, segments, banner]

/--
A template renders piece by piece, whatever its segments are and whatever the context binds.

It has a text exactly if each value among its segments stands for a number that has a literal of
the style and width. The text is the banner and then the pieces in order. Otherwise it fails as its
first segment that fails, with that segment's own error. Further segments leave an error as it
is, and append to a text just the body that they have themselves, or fail as they do themselves.
Of the context only the displayed names, the name of the parameter set and what the sources name
is ever read.
-/
theorem render_compositional (template : Template) (context : RenderContext) :
    ((∃ text, template.render context = .ok text) ↔
      ∀ label source style bits, .value label source style bits ∈ template.segments →
        ∃ value literal, source.Denotes context value ∧ encode value style bits = .ok literal) ∧
    (∀ text, template.render context = .ok text ↔
      ∃ pieces, List.Forall₂ (IsPiece template.artifact context) template.segments pieces ∧
        text = template.banner context ++ String.join pieces) ∧
    (∀ e, template.render context = .error e ↔
      ∃ before segment after, template.segments = before ++ segment :: after ∧
        (∀ other ∈ before, ∃ piece, IsPiece template.artifact context other piece) ∧
        segment.Fails context template.artifact e) ∧
    (∀ e, template.render context = .error e →
      ∀ more, (template.append more).render context = .error e) ∧
    (∀ text, template.render context = .ok text → ∀ more,
      (∀ body, { template with segments := more }.render context =
          .ok (template.banner context ++ body) ↔
        (template.append more).render context = .ok (text ++ body)) ∧
      ∀ e, { template with segments := more }.render context = .error e ↔
        (template.append more).render context = .error e) ∧
    ∀ other : RenderContext, context.profile = other.profile → context.source = other.source →
      context.parameters.profile = other.parameters.profile →
      (∀ label source style bits, .value label source style bits ∈ template.segments →
        source.SameIn context other) →
      template.render context = template.render other := by
  -- Each part is a lemma about the body, behind a banner that never fails.
  refine ⟨?_, ?_, ?_, fun e failed => render_append_of_error failed, ?_, ?_⟩
  · -- A text is there exactly if the body is.
    have bodies : (∃ body, renderSegments template.artifact context template.segments = .ok body) ↔
        _ := exists_renderSegments_iff
    rw [← bodies]
    simp only [render_eq_ok_iff]
    constructor
    · rintro ⟨text, body, rendered, -⟩
      exact ⟨body, rendered⟩
    · rintro ⟨body, rendered⟩
      exact ⟨_, body, rendered, rfl⟩
  · intro text
    simp only [render_eq_ok_iff, renderSegments_eq_ok_iff]
    constructor
    · rintro ⟨body, ⟨pieces, each, rfl⟩, rfl⟩
      exact ⟨pieces, each, rfl⟩
    · rintro ⟨pieces, each, rfl⟩
      exact ⟨_, ⟨pieces, each, rfl⟩, rfl⟩
  · intro e
    rw [render_eq_error_iff, renderSegments_eq_error_iff]
  · -- The further segments render as if they were a template of their own.
    intro text rendered more
    rw [render_append_of_ok rendered more]
    constructor
    · intro body
      rw [render_eq_ok_iff]
      show (∃ found, renderSegments template.artifact context more = .ok found ∧
        template.banner context ++ body = template.banner context ++ found) ↔ _
      cases renderSegments template.artifact context more with
      | error e => simp [Except.map]
      | ok found => simp [Except.map, eq_comm]
    · intro e
      rw [render_eq_error_iff]
      show renderSegments template.artifact context more = .error e ↔ _
      cases renderSegments template.artifact context more <;> simp [Except.map]
  · intro other profile source set same
    exact render_congr profile source set same

/-- A template with one value between two texts. -/
def widthTemplate : Template where
  artifact := .bootStub
  comment := "#"
  segments := [.text "width = ", .value "width" (.parameter "WIDTH") .decimal 8, .text "\n"]

/-- A row with a width has it as its text, fails behind it, and reads nothing but the width. -/
theorem render_compositional_sample :
    ∃ text, widthTemplate.render (contextOf [("WIDTH", .uint 7)] 64) = .ok text ∧
      text = widthTemplate.banner (contextOf [("WIDTH", .uint 7)] 64) ++ "width = 7\n" ∧
      (widthTemplate.append [.value "depth" (.derived "depth") .asmHex 8]).render
        (contextOf [("WIDTH", .uint 7)] 64) = .error (.noDerivedValue .bootStub "depth") ∧
      widthTemplate.render (contextOf [("WIDTH", .uint 7), ("DEPTH", .boolean true)] 0) =
        .ok text := by
  -- The row has one value, which the context binds to seven.
  obtain ⟨-, texts, -, -, longer, reads⟩ :=
    render_compositional widthTemplate (contextOf [("WIDTH", .uint 7)] 64)
  have seven : resolve .bootStub (contextOf [("WIDTH", .uint 7)] 64) (.parameter "WIDTH") =
      .ok 7 := by decide
  have rendered := (texts _).2 ⟨["width = ", "7", "\n"],
    .cons (.text _) (.cons (.literal seven (by decide)) (.cons (.text _) .nil)), rfl⟩
  refine ⟨_, rendered, by congr 1, ?_, ?_⟩
  · apply ((longer _ rendered _).2 _).1
    decide
  · rw [← rendered]
    refine (reads _ rfl rfl rfl ?_).symm
    -- The width is the only value of the row.
    intro label source style bits among
    simp only [widthTemplate, List.mem_cons, reduceCtorEq, Segment.value.injEq, List.not_mem_nil,
      or_false, false_or] at among
    rw [among.2.1]
    show (contextOf _ _).parameters.get? "WIDTH" = _
    decide

end Template

end BoardConfig
