import BoardConfig.Proofs.Artifact.Lines
import BoardConfig.Proofs.Generation.Rendering

/-! No two artifacts have one text, as they differ in their first characters. -/

namespace BoardConfig

open Template

/-- The first characters of an artifact's body. -/
def Artifact.opening : Artifact → String
  | .bootStub => ".global _start\n"
  | .nativeHeader => "#pragma once\n#d"
  | .nativeNamespace => "#pragma once\n#i"
  | .hdlPackage => "\npackage config"

/-- The body of an artifact begins with its opening. -/
theorem Artifact.begins_with_opening {artifact : Artifact} {context : RenderContext} {body : String}
    (rendered : renderSegments artifact.template.artifact context artifact.template.segments =
      .ok body) : artifact.opening.toList <+: body.toList := by
  -- The first lines of an artifact are fixed, and each opening is a part of them.
  rw [template_artifact] at rendered
  rw [lines_ok rendered]
  cases artifact <;>
    simp [opening, lines, memoryMap, textOfLines, text_line]

/-- No opening begins with another one. -/
theorem Artifact.eq_of_opening_begins : ∀ first ∈ Artifact.all, ∀ second ∈ Artifact.all,
    first.opening.toList <+: second.opening.toList → first = second := by
  -- The openings are fixed texts, so their pairs are compared one by one.
  decide

/-- Artifacts whose comments begin with one character have one kind of comment. -/
theorem Artifact.comment_eq_of_head : ∀ first ∈ Artifact.all, ∀ second ∈ Artifact.all,
    first.template.comment.toList.head? = second.template.comment.toList.head? →
      first.template.comment = second.template.comment := by
  -- The four leaders are compared in pairs, as texts that are known.
  decide

/-- Every artifact's comments begin with some character. -/
theorem Artifact.comment_ne_nil : ∀ artifact ∈ Artifact.all,
    artifact.template.comment.toList ≠ [] := by
  -- Each leader is a known text that is not empty.
  decide

/-- What a banner says behind the comment leader is the same in every artifact. -/
theorem banner_eq_append (context : RenderContext) :
    ∃ rest : String, ∀ template : Template,
      template.banner context = template.comment ++ rest := by
  -- Nothing but the comment leader of a banner comes from the template.
  refine ⟨" generated - do not edit (profile `" ++ context.profile ++ "` from `" ++ context.source ++
    "`; regenerate with `osqa-config`)\n", fun template => ?_⟩
  simp [banner, toString, String.append_assoc]

/-- Two artifacts that render to one text are the same. -/
theorem Artifact.eq_of_render {first second : Artifact} {context : RenderContext} {text : String}
    (firstRenders : first.template.render context = .ok text)
    (secondRenders : second.template.render context = .ok text) : first = second := by
  -- The texts agree in their banners, unless one comment leader goes on into the other.
  obtain ⟨firstBody, firstSegments, firstText⟩ := render_ok firstRenders
  obtain ⟨secondBody, secondSegments, secondText⟩ := render_ok secondRenders
  obtain ⟨rest, banners⟩ := banner_eq_append context
  have firstOpens := begins_with_opening firstSegments
  have secondOpens := begins_with_opening secondSegments
  have texts := congrArg String.toList (firstText.symm.trans secondText)
  simp only [banners, String.toList_append, List.append_assoc] at texts
  -- The comment leaders begin the texts, so the banners are one, and so are the bodies.
  have comments : first.template.comment = second.template.comment := by
    refine comment_eq_of_head _ first.mem_all _ second.mem_all ?_
    have heads := congrArg List.head? texts
    simp only [List.head?_append] at heads
    rw [List.head?_eq_some_head (comment_ne_nil _ first.mem_all)] at heads ⊢
    rw [List.head?_eq_some_head (comment_ne_nil _ second.mem_all)] at heads ⊢
    exact heads
  rw [comments, List.append_cancel_left_eq, List.append_cancel_left_eq] at texts
  rw [texts] at firstOpens
  rcases Nat.le_total first.opening.toList.length second.opening.toList.length with le | ge
  · exact eq_of_opening_begins _ first.mem_all _ second.mem_all
      (List.prefix_of_prefix_length_le firstOpens secondOpens le)
  · exact (eq_of_opening_begins _ second.mem_all _ first.mem_all
      (List.prefix_of_prefix_length_le secondOpens firstOpens ge)).symm

end BoardConfig
