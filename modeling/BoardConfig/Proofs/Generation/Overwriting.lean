import BoardConfig.Proofs.Artifact.Distinct
import BoardConfig.Proofs.Generation.Repetition

/-! What a run that succeeds leaves in the files, where artifacts may overwrite one another. -/

namespace BoardConfig

open FileSystem

/-- Rendering gives no two artifacts one text. -/
theorem renderAll_distinct {context : RenderContext} {texts : List (Artifact × String)}
    (rendered : renderAll context = .ok texts) {first second : Artifact × String}
    (firstAmong : first ∈ texts) (secondAmong : second ∈ texts) (same : first.2 = second.2) :
    first.1 = second.1 := by
  -- Both artifacts render to the same text, which tells the artifact.
  have each := (renderAll_ok rendered).2
  have secondRenders := each second secondAmong
  rw [← same] at secondRenders
  exact Artifact.eq_of_render (each first firstAmong) secondRenders

/-- No artifact goes to a file of the chain, unless it holds the artifact's text already. -/
def Layout.Spares (layout : Layout) (fs : FileSystem) (texts : List (Artifact × String))
    (chain : List ProfileLink) : Prop :=
  ∀ link ∈ chain, ∀ entry ∈ texts, fs.place (layout.path entry.1) = link.location →
    fs.contents? link.location = some entry.2.toUTF8

namespace Turns

variable {layout : Layout} {texts : List (Artifact × String)} {fs after : FileSystem}
  {outcomes : List Outcome} {chain : List ProfileLink}

/-- Every file holds its own text in the end only if the artifacts go to different places. -/
theorem separate_of_read (turns : Turns layout texts fs outcomes after)
    (artifacts : texts.map (·.1) = Artifact.all)
    (distinct : ∀ first ∈ texts, ∀ second ∈ texts, first.2 = second.2 → first.1 = second.1)
    (kept : ∀ entry ∈ texts, after.read (layout.path entry.1) = .ok entry.2.toUTF8) :
    layout.Separate fs := by
  -- Two artifacts at one place would find one text there, though their texts differ.
  intro first second same
  have known (artifact : Artifact) : ∃ text, (artifact, text) ∈ texts := by
    have listed : artifact ∈ texts.map (·.1) := artifacts ▸ artifact.mem_all
    obtain ⟨entry, among, rfl⟩ := List.mem_map.1 listed
    exact ⟨entry.2, among⟩
  obtain ⟨firstText, firstAmong⟩ := known first
  obtain ⟨secondText, secondAmong⟩ := known second
  -- Both files are one, so it holds either text, and only one artifact has that.
  have firstHeld := contents?_of_read (kept _ firstAmong)
  have secondHeld := contents?_of_read (kept _ secondAmong)
  rw [place_congr turns.grows.cwd] at firstHeld secondHeld
  simp only at firstHeld secondHeld
  rw [same, secondHeld, Option.some.injEq, String.toUTF8_eq_toByteArray,
    String.toUTF8_eq_toByteArray, String.toByteArray_inj] at firstHeld
  exact distinct _ firstAmong _ secondAmong firstHeld.symm

/-- Files of the chain keep their bytes if no artifact that goes to one of them changes it. -/
theorem chain_kept (turns : Turns layout texts fs outcomes after)
    (spares : layout.Spares fs texts chain) :
    ∀ link ∈ chain, after.contents? link.location = fs.contents? link.location := by
  -- A file of the chain that a text goes to holds that text before and after.
  intro link among
  rw [turns.contents?]
  cases found : lastText layout fs link.location texts with
  | none => rfl
  | some last =>
    obtain ⟨entry, given, there, rfl⟩ := mem_of_lastText found
    exact (spares link among entry given there).symm

/-- Files hold their texts and the chain its bytes just if nothing is overwritten. -/
theorem kept_iff (turns : Turns layout texts fs outcomes after)
    (artifacts : texts.map (·.1) = Artifact.all)
    (distinct : ∀ first ∈ texts, ∀ second ∈ texts, first.2 = second.2 → first.1 = second.1) :
    ((∀ entry ∈ texts, after.read (layout.path entry.1) = .ok entry.2.toUTF8) ∧
        ∀ link ∈ chain, after.contents? link.location = fs.contents? link.location) ↔
      layout.Separate fs ∧ layout.Spares fs texts chain := by
  -- Each artifact's file holds its own text unless another one goes there later.
  constructor
  · rintro ⟨texts, chainKept⟩
    refine ⟨turns.separate_of_read artifacts distinct texts, fun link among entry given there => ?_⟩
    -- What is read at the place of an artifact is its text, and it was there before.
    have held := contents?_of_read (texts entry given)
    rw [place_congr turns.grows.cwd, there, chainKept link among] at held
    exact held
  · rintro ⟨separate, spares⟩
    refine ⟨fun entry among => ?_, turns.chain_kept spares⟩
    exact isUpToDate_eq_true_iff.1 (turns.holds (separate.pairwise artifacts) entry among)

end Turns

namespace Blueprint

/--
A run that succeeds leaves in each place the last text that goes there.

It leaves every artifact with its own text and every file of the profile with its bytes just if the
artifacts go to different places, and to no file of the profile that they would change.
-/
theorem run_leaves (blueprint : Blueprint) {fs after : FileSystem} {request : Request}
    {report : Report} (mode : request.mode = .write)
    (finished : blueprint.run fs request = (.ok report, after)) :
    ∃ board texts chain,
      blueprint.renderRequest fs request = .ok (board, texts) ∧
      request.chain fs = .ok chain ∧
      texts.map (·.1) = Artifact.all ∧
      report.outcomes.map (fun outcome => (outcome.artifact, outcome.path)) =
        Artifact.all.map (fun artifact => (artifact, request.layout.path artifact)) ∧
      (∀ location, after.contents? location =
        ((lastText request.layout fs location texts).map String.toUTF8).or
          (fs.contents? location)) ∧
      (((∀ entry ∈ texts, after.read (request.layout.path entry.1) = .ok entry.2.toUTF8) ∧
          ∀ link ∈ chain, after.contents? link.location = fs.contents? link.location) ↔
        request.layout.Separate fs ∧ request.layout.Spares fs texts chain) := by
  -- The turns tell what is left, and the texts of one run are all different.
  obtain ⟨board, texts, rendered, _, turns⟩ := run_write_ok mode finished
  obtain ⟨chain, followed⟩ := chain_of_renderRequest rendered
  have all := (renderRequest_ok rendered).2
  have artifacts := (renderAll_ok all).1
  refine ⟨board, texts, chain, rendered, followed, artifacts, ?_, turns.contents?, ?_⟩
  · rw [turns.outcomes_eq.1, ← artifacts, List.map_map]
    rfl
  · exact turns.kept_iff artifacts fun _ first _ second same =>
      renderAll_distinct all first second same

/-- The sample profile's artifacts overwrite nothing, so its run leaves each with its text. -/
theorem run_leaves_sample : ∃ board texts report after,
    standard.renderRequest sampleFiles sampleRequest = .ok (board, texts) ∧
      standard.run sampleFiles sampleRequest = (.ok report, after) ∧
      ∀ entry ∈ texts,
        after.read (sampleRequest.layout.path entry.1) = .ok entry.2.toUTF8 := by
  -- Four places that are no file of the chain meet the condition.
  obtain ⟨report, after, finished⟩ := sample_run
  obtain ⟨board, texts, chain, rendered, followed, _, _, _, kept⟩ := run_leaves standard rfl finished
  have spares : sampleRequest.layout.Spares sampleFiles texts chain :=
    fun link among entry _ there => absurd there (sample_apart followed among entry.1)
  exact ⟨board, texts, report, after, rendered, finished, (kept.2 ⟨sample_separate, spares⟩).1⟩

end Blueprint

end BoardConfig
