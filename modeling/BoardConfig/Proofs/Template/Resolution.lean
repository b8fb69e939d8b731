import BoardConfig.Proofs.Artifact.Lines
import BoardConfig.Proofs.Generation.Availability

/-! What the sources of a template stand for, why they stand for nothing, and where rendering stops. -/

namespace BoardConfig

open Template

namespace Source

/-- The value that a source stands for. -/
inductive Denotes (context : RenderContext) : Source → UInt64 → Prop
  | parameter {name : String} {value : UInt64}
      (bound : context.parameters.get? name = some (.uint value)) :
      Denotes context (.parameter name) value
  | derived {name : String} {value : UInt64} (present : context.derived.get? name = some value) :
      Denotes context (.derived name) value
  | constant (value : UInt64) : Denotes context (.constant value) value

/-- Why a source stands for no value, as an artifact tells it. -/
inductive Lacks (context : RenderContext) (artifact : Artifact) : Source → RenderError → Prop
  /-- The parameter is not bound. -/
  | unbound {name : String} (absent : context.parameters.get? name = none) :
      Lacks context artifact (.parameter name)
        (.parameter artifact (.missing context.parameters.profile name))
  /-- The parameter is bound to something else than an integer. -/
  | noInteger {name : String} {value : ParameterValue}
      (bound : context.parameters.get? name = some value) (other : ∀ number, value ≠ .uint number) :
      Lacks context artifact (.parameter name)
        (.parameter artifact (.typeMismatch name "unsigned integer" value.typeName))
  /-- No value of the name was derived. -/
  | underived {name : String} (absent : context.derived.get? name = none) :
      Lacks context artifact (.derived name) (.noDerivedValue artifact name)

/-- Whether a source stands for a value of a width. -/
def Fits (context : RenderContext) (bits : Nat) (source : Source) : Prop :=
  ∃ value, source.Denotes context value ∧ value.toNat < 2 ^ bits

/-- Why a source has no literal in an artifact: it stands for no value, or for one that is too wide. -/
inductive Offends (context : RenderContext) (artifact : Artifact) (label : String)
    (style : LiteralStyle) (bits : Nat) (source : Source) : RenderError → Prop
  | noValue {e : RenderError} (lacks : source.Lacks context artifact e) :
      Offends context artifact label style bits source e
  | tooWide {value : UInt64} (denotes : source.Denotes context value)
      (wide : 2 ^ bits ≤ value.toNat) :
      Offends context artifact label style bits source
        (.literal artifact label (.outOfRange value bits style))

variable {context : RenderContext} {artifact : Artifact} {source : Source} {value other : UInt64}
  {e : RenderError} {label : String} {style : LiteralStyle} {bits : Nat}

/-- A source stands for one value at most. -/
theorem Denotes.unique (denotes : source.Denotes context value)
    (again : source.Denotes context other) : value = other := by
  -- Each kind of source is looked up once, under its name.
  cases denotes with
  | parameter bound =>
    cases again with
    | parameter boundAgain => simpa [bound] using boundAgain
  | derived present =>
    cases again with
    | derived presentAgain => simpa [present] using presentAgain
  | constant => cases again; rfl

/-- A source that lacks a value stands for none. -/
theorem Lacks.not_denotes (lacks : source.Lacks context artifact e) :
    ¬ source.Denotes context value := by
  -- Whatever is lacking is what the source would be looked up by.
  intro denotes
  cases lacks with
  | unbound absent =>
    cases denotes with
    | parameter bound => simp [absent] at bound
  | noInteger bound noInteger =>
    cases denotes with
    | parameter boundAgain =>
      rw [bound, Option.some.injEq] at boundAgain
      exact noInteger _ boundAgain
  | underived absent =>
    cases denotes with
    | derived present => simp [absent] at present

/-- What offends does not fit. -/
theorem Offends.not_fits (offends : source.Offends context artifact label style bits e) :
    ¬ source.Fits context bits := by
  -- A source offends by having no value or one that is too wide.
  rintro ⟨value, denotes, fits⟩
  cases offends with
  | noValue lacks => exact lacks.not_denotes denotes
  | tooWide denotesWide wide =>
    rw [denotesWide.unique denotes] at wide
    omega

/-- A source lacks a value for one reason only. -/
theorem Lacks.unique {reason : RenderError} (lacks : source.Lacks context artifact e)
    (again : source.Lacks context artifact reason) : reason = e := by
  -- A parameter is unbound or bound to one value, and a derived value is absent.
  cases lacks with
  | unbound absent =>
    cases again with
    | unbound => rfl
    | noInteger bound => simp [absent] at bound
  | noInteger bound noInteger =>
    cases again with
    | unbound absent => simp [absent] at bound
    | noInteger boundAgain =>
      rw [bound, Option.some.injEq] at boundAgain
      rw [boundAgain]
  | underived absent => cases again; rfl

/-- The error of an offence is determined by the source and the place where it offends. -/
theorem Offends.iff_eq (offends : source.Offends context artifact label style bits e)
    (reason : RenderError) :
    source.Offends context artifact label style bits reason ↔ reason = e := by
  constructor
  · -- What stands for no value stands for none that is too wide.
    intro again
    cases offends with
    | noValue lacks =>
      cases again with
      | noValue lacksAgain => exact lacks.unique lacksAgain
      | tooWide denotes wide => exact absurd denotes lacks.not_denotes
    | tooWide denotes wide =>
      cases again with
      | noValue lacks => exact absurd denotes lacks.not_denotes
      | tooWide denotesAgain => rw [denotes.unique denotesAgain]
  · rintro rfl
    exact offends

/-- The error of an offence names the artifact. -/
theorem Offends.artifact_eq (offends : source.Offends context artifact label style bits e) :
    e.artifact = artifact := by
  -- The error is made with the artifact's name, whatever the reason is.
  cases offends with
  | noValue lacks => cases lacks <;> rfl
  | tooWide denotes wide => rfl

end Source

namespace Template

variable {artifact : Artifact} {context : RenderContext}

/-- Fixed text is its own text. -/
@[simp]
theorem renderSegment_text (artifact : Artifact) (context : RenderContext) (text : String) :
    renderSegment artifact context (.text text) = .ok text := rfl

/-- A source is resolved to the value that it stands for, or refused for the lack of one. -/
theorem resolve_cases (artifact : Artifact) (context : RenderContext) (source : Source) :
    (∃ value, source.Denotes context value ∧ resolve artifact context source = .ok value) ∨
      ∃ e, source.Lacks context artifact e ∧ resolve artifact context source = .error e := by
  -- Each kind of source is looked up in its own part of the context.
  cases source with
  | parameter name =>
    -- The parameter is bound to an integer, to something else, or not at all.
    cases bound : context.parameters.get? name with
    | none =>
      refine .inr ⟨_, .unbound bound, ?_⟩
      simp [resolve, ParameterSet.uint, ParameterSet.require, bound]
    | some value =>
      cases value with
      | uint number =>
        refine .inl ⟨number, .parameter bound, ?_⟩
        simp [resolve, ParameterSet.uint, ParameterSet.require, bound]
      | string text =>
        refine .inr ⟨_, .noInteger bound (by simp), ?_⟩
        simp [resolve, ParameterSet.uint, ParameterSet.require, bound]
      | boolean truth =>
        refine .inr ⟨_, .noInteger bound (by simp), ?_⟩
        simp [resolve, ParameterSet.uint, ParameterSet.require, bound]
  | derived name =>
    cases present : context.derived.get? name with
    | none => exact .inr ⟨_, .underived present, by simp [resolve, present]⟩
    | some value => exact .inl ⟨value, .derived present, by simp [resolve, present]⟩
  | constant value => exact .inl ⟨value, .constant value, rfl⟩

/-- A value has a literal if its source fits, and otherwise fails as its source offends. -/
theorem renderSegment_value_cases (artifact : Artifact) (context : RenderContext) (label : String)
    (source : Source) (style : LiteralStyle) {bits : Nat} (valid : ValidWidth bits) :
    (source.Fits context bits ∧
      ∃ text, renderSegment artifact context (.value label source style bits) = .ok text) ∨
    ∃ e, source.Offends context artifact label style bits e ∧
      renderSegment artifact context (.value label source style bits) = .error e := by
  -- The source is resolved first, and then its value is written.
  rcases resolve_cases artifact context source with ⟨value, denotes, found⟩ | ⟨e, lacks, refused⟩
  · by_cases fits : value.toNat < 2 ^ bits
    · obtain ⟨text, encoded⟩ := (exists_encode_iff style).2 ⟨valid, fits⟩
      exact .inl ⟨⟨value, denotes, fits⟩, text, by simp only [renderSegment, found, encoded]⟩
    · -- A value that is too wide is refused under its label.
      refine .inr ⟨_, .tooWide denotes (Nat.le_of_not_lt fits), ?_⟩
      simp [renderSegment, found, encode, valid, fits]
  · exact .inr ⟨e, .noValue lacks, by simp only [renderSegment, refused]⟩

/-- Segments fail with the error of the first one that fails. -/
theorem renderSegments_error {segments : List Segment} {e : RenderError}
    (failed : renderSegments artifact context segments = .error e) :
    ∃ before segment after, segments = before ++ segment :: after ∧
      (∀ other ∈ before, ∃ text, renderSegment artifact context other = .ok text) ∧
      renderSegment artifact context segment = .error e := by
  -- Either the first segment fails, or it has a text and the others fail as told.
  induction segments with
  | nil => cases failed
  | cons segment rest ih =>
    simp only [renderSegments] at failed
    split at failed
    · rename_i refused
      cases failed
      exact ⟨[], segment, rest, rfl, by simp, refused⟩
    · rename_i text first
      split at failed <;> cases failed
      rename_i others
      obtain ⟨before, failing, after, parts, clean, refused⟩ := ih others
      refine ⟨segment :: before, failing, after, by rw [parts]; rfl, fun other among => ?_, refused⟩
      rcases List.mem_cons.1 among with rfl | behind
      · exact ⟨text, first⟩
      · exact clean other behind

end Template

end BoardConfig
