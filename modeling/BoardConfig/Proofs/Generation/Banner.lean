import BoardConfig.Proofs.Artifact.Lines
import BoardConfig.Proofs.Generation.Run
import Mathlib.Data.List.Forall2

/-! The lines of a rendered text: those of its banner, and behind them those of its template. -/

namespace BoardConfig

/-- A text is one run just if it has no separator. -/
theorem runsBetween_eq_singleton_iff {separator : Char} {text : List Char} :
    runsBetween separator text = [text] ↔ separator ∉ text := by
  -- Separators are where runs end, so a text with one is more than one run.
  constructor
  · -- A run never holds the separator.
    intro whole
    have among : text ∈ runsBetween separator text := by
      rw [whole]
      exact List.mem_singleton_self text
    exact separator_not_mem_runsBetween among
  · intro absent
    exact runsBetween_of_not_mem absent

namespace Template

/-- What stands in a rendered text for a segment: its own text, or the literal of its value. -/
inductive IsPiece (artifact : Artifact) (context : RenderContext) : Segment → String → Prop
  | text (text : String) : IsPiece artifact context (.text text) text
  | literal {label : String} {source : Source} {style : LiteralStyle} {bits : Nat} {value : UInt64}
      {literal : String} (stands : resolve artifact context source = .ok value)
      (encoded : encode value style bits = .ok literal) :
      IsPiece artifact context (.value label source style bits) literal

/-- A segment renders to its piece. -/
theorem isPiece_of_renderSegment {artifact : Artifact} {context : RenderContext} {segment : Segment}
    {piece : String} (rendered : renderSegment artifact context segment = .ok piece) :
    IsPiece artifact context segment piece := by
  -- A fixed text is its own piece, and a value's piece is its literal.
  cases segment with
  | text text =>
    cases rendered
    exact .text _
  | value label source style bits =>
    obtain ⟨value, stands, encoded⟩ := renderSegment_value_ok rendered
    exact .literal stands encoded

/-- Segments render to their pieces, one behind the other. -/
theorem pieces_of_renderSegments {artifact : Artifact} {context : RenderContext}
    {segments : List Segment} {body : String}
    (rendered : renderSegments artifact context segments = .ok body) :
    ∃ pieces, List.Forall₂ (IsPiece artifact context) segments pieces ∧ body = String.join pieces := by
  -- The body is the texts of the segments in their order.
  obtain ⟨all, inOrder⟩ := renderSegments_ok rendered
  refine ⟨segments.map (String.ofList <| segmentText artifact context ·), ?_, ?_⟩
  · -- Each segment has a text, which is its piece.
    rw [List.forall₂_map_right_iff, List.forall₂_same]
    intro segment among
    obtain ⟨text, first⟩ := all segment among
    simpa [segmentText, first] using isPiece_of_renderSegment first
  · apply String.toList_inj.1
    rw [inOrder, String.toList_join, List.flatMap_map]
    simp

/-- The line that a banner is meant to be: a comment that names a profile and its source. -/
def bannerLine (comment profile source : String) : String :=
  comment ++ " generated - do not edit (profile `" ++ profile ++ "` from `" ++ source ++
    "`; regenerate with `osqa-config`)"

/-- A banner is its line and a line end. -/
theorem banner_eq_bannerLine (template : Template) (context : RenderContext) :
    template.banner context =
      bannerLine template.comment context.profile context.source ++ "\n" := by
  -- Both spell out the same fixed texts around the same three parts.
  simp [banner, bannerLine, toString, String.append_assoc]

/-- A banner's line is one line just if what it is made of is. -/
theorem runsBetween_bannerLine_iff {comment profile source : String} :
    runsBetween '\n' (bannerLine comment profile source).toList =
        [(bannerLine comment profile source).toList] ↔
      '\n' ∉ comment.toList ∧ '\n' ∉ profile.toList ∧ '\n' ∉ source.toList := by
  -- The fixed texts of a banner's line hold no line end.
  rw [runsBetween_eq_singleton_iff]
  simp [bannerLine]

/-- A line end in a name ends the comment of a banner's line, and the rest of the name follows it. -/
theorem runsBetween_bannerLine_of_break {comment before : String} (leader : '\n' ∉ comment.toList)
    (first : '\n' ∉ before.toList) (after source : String) :
    runsBetween '\n' (bannerLine comment (before ++ "\n" ++ after) source).toList =
      (comment ++ " generated - do not edit (profile `" ++ before).toList ::
        runsBetween '\n'
          (after ++ "` from `" ++ source ++ "`; regenerate with `osqa-config`)").toList := by
  -- The first line end of the line is the one in the name.
  have parts : (bannerLine comment (before ++ "\n" ++ after) source).toList =
      (comment ++ " generated - do not edit (profile `" ++ before).toList ++
        '\n' :: (after ++ "` from `" ++ source ++ "`; regenerate with `osqa-config`)").toList := by
    simp [bannerLine]
  rw [parts]
  apply runsBetween_append_cons
  simp [leader, first]

/--
A rendered text is its banner and then the pieces of its template, and its lines are theirs.

The banner is one line just if its comment leader, its profile's name and its source are. A line end
in the name puts the rest of the name on a line of its own, which the comment leader does not open.
-/
theorem render_lines {template : Template} {context : RenderContext} {text : String}
    (rendered : template.render context = .ok text) :
    ∃ pieces, List.Forall₂ (IsPiece template.artifact context) template.segments pieces ∧
      text = bannerLine template.comment context.profile context.source ++ "\n" ++
        String.join pieces ∧
      runsBetween '\n' text.toList =
        runsBetween '\n' (bannerLine template.comment context.profile context.source).toList ++
          runsBetween '\n' (String.join pieces).toList ∧
      (runsBetween '\n' (bannerLine template.comment context.profile context.source).toList =
          [(bannerLine template.comment context.profile context.source).toList] ↔
        '\n' ∉ template.comment.toList ∧ '\n' ∉ context.profile.toList ∧
          '\n' ∉ context.source.toList) ∧
      ∀ before after, context.profile = before ++ "\n" ++ after → '\n' ∉ before.toList →
        '\n' ∉ template.comment.toList →
        runsBetween '\n' text.toList =
          (template.comment ++ " generated - do not edit (profile `" ++ before).toList ::
            (runsBetween '\n' (after ++ "` from `" ++ context.source ++
                "`; regenerate with `osqa-config`)").toList ++
              runsBetween '\n' (String.join pieces).toList) := by
  -- A rendered text is its banner and its body.
  obtain ⟨body, segments, rfl⟩ := render_ok rendered
  obtain ⟨pieces, each, rfl⟩ := pieces_of_renderSegments segments
  rw [banner_eq_bannerLine]
  -- The line end behind the banner's line parts its lines from those of the pieces.
  have lines : runsBetween '\n' (bannerLine template.comment context.profile context.source ++
        "\n" ++ String.join pieces).toList =
      runsBetween '\n' (bannerLine template.comment context.profile context.source).toList ++
        runsBetween '\n' (String.join pieces).toList := by
    rw [← runsBetween_append_separator]
    simp
  refine ⟨pieces, each, rfl, lines, runsBetween_bannerLine_iff, ?_⟩
  intro before after name first leader
  rw [lines, name, runsBetween_bannerLine_of_break leader first, List.cons_append]

end Template

/-- A profile whose name has an instruction on a line of its own. -/
def brokenNameDocument : String :=
  "name = \"b\\n    j 0\\n#\"\n" ++ sampleDocument

set_option maxRecDepth 4000 in
/-- That profile can be read and rendered. -/
theorem brokenName_steps : (ProfileFile.parse? brokenNameDocument).any fun file =>
    file.base = none ∧ (Blueprint.standard.renderLinks? ⟨""⟩ (sampleLink file) []).any fun found =>
      found.1.profile.name = "b" ++ "\n" ++ "    j 0\n#" := by
  -- Listing the document's characters beforehand spares decoding its bytes again at each of them.
  have characters : brokenNameDocument.toList = _ :=
    String.toList_append.trans (congrArg₂ _ String.toList_ofList String.toList_ofList)
  unfold ProfileFile.parse? Toml.Table.parse?
  rw [characters]
  decide +kernel

/-- The boot stub of that profile has the instruction on its second line. -/
theorem render_lines_of_broken_name :
    ∃ board texts text more,
      Blueprint.standard.renderRequest (filesOf brokenNameDocument) sampleRequest =
        .ok (board, texts) ∧
      (.bootStub, text) ∈ texts ∧
      runsBetween '\n' text.toList =
        "# generated - do not edit (profile `b".toList :: "    j 0".toList :: more := by
  -- The profile is evaluated once, and the theorem tells the lines of its boot stub.
  obtain ⟨file, parsed, steps⟩ := (Option.any_eq_true _ _).1 brokenName_steps
  obtain ⟨alone, rest⟩ := of_decide_eq_true steps
  obtain ⟨⟨board, texts⟩, made, named⟩ := (Option.any_eq_true _ _).1 rest
  have resolved : sampleRequest.reference.resolve sampleRequest.directory ⟨""⟩ = ⟨"board.toml"⟩ := by
    decide
  have rendered : Blueprint.standard.renderRequest (filesOf brokenNameDocument) sampleRequest =
      .ok (board, texts) := renderRequest_of_document parsed alone resolved made
  -- The boot stub is one of the artifacts, so it has a text.
  obtain ⟨order, each⟩ := renderAll_ok (Blueprint.renderRequest_ok rendered).2
  have listed : Artifact.bootStub ∈ texts.map (·.1) := by
    rw [order]
    exact Artifact.bootStub.mem_all
  obtain ⟨⟨artifact, text⟩, among, rfl⟩ := List.mem_map.1 listed
  obtain ⟨pieces, _, _, _, _, broken⟩ := Template.render_lines (each _ among)
  have leader : '\n' ∉ bootStubTemplate.comment.toList := by decide
  have lines := broken "b" "    j 0\n#" (of_decide_eq_true named) (by decide) leader
  -- What follows the first line end of the name goes up to the second one.
  have second (source : String) :
      ("    j 0\n#" ++ "` from `" ++ source ++ "`; regenerate with `osqa-config`)").toList =
        "    j 0".toList ++
          '\n' :: ("#" ++ "` from `" ++ source ++ "`; regenerate with `osqa-config`)").toList := by
    simp
  rw [second, runsBetween_append_cons (by decide), List.cons_append] at lines
  exact ⟨board, texts, text, _, rendered, among, lines⟩

end BoardConfig
