import BoardConfig.Proofs.Generation.Run

/-! What a run that fails has changed, which its error tells in full. -/

namespace BoardConfig.Blueprint

open FileSystem

/--
A run that fails has changed no more than its error tells.

Whatever fails before the writing, and every run in check mode, leaves the file system as it was.
A write that fails at the turn of one artifact names the files of those before it that were written,
and besides these only directories are new.
-/
theorem run_failure (blueprint : Blueprint) (fs : FileSystem) (request : Request) :
    (request.mode = .check →
      (blueprint.run fs request).2 = fs ∧
        ∀ path written cause,
          (blueprint.run fs request).1 = .error (.write path written cause) → written = []) ∧
    (∀ e, (blueprint.run fs request).1 = .error e →
      (∀ path written cause, e ≠ .write path written cause) → (blueprint.run fs request).2 = fs) ∧
    (request.mode = .write → ∀ path written cause after,
      blueprint.run fs request = (.error (.write path written cause), after) →
      ∃ board texts before artifact text later outcomes middle,
        blueprint.renderRequest fs request = .ok (board, texts) ∧
        texts.map (·.1) = Artifact.all ∧
        texts = before ++ (artifact, text) :: later ∧
        path = request.layout.path artifact ∧
        -- The artifacts before took their turns, and those whose file differed are told.
        Turns request.layout before fs outcomes middle ∧
        written = writtenPaths outcomes ∧
        -- This artifact's own turn failed and changed no file.
        middle.writeIfChanged path text = (.error cause, after) ∧
        (∀ location, after.contents? location = middle.contents? location) ∧
        -- Every other file, this artifact's and those of later ones included, is as it was.
        ∀ location, (∀ designated ∈ written, after.locate designated ≠ .ok location) →
          after.contents? location = fs.contents? location ∧
            (after.entryAt? location = fs.entryAt? location ∨
              (fs.entryAt? location = none ∧ after.entryAt? location = some .directory))) := by
  -- In check mode nothing is written at all; in write mode a failure belongs to one turn.
  refine ⟨fun mode => ⟨run_check_state mode, fun _ _ _ => run_check_error mode⟩,
    fun e failed other => ?_, fun mode path written cause after failed => ?_⟩
  · cases mode : request.mode with
    | check => exact run_check_state mode
    | write =>
      -- Among the failures in write mode only those over a file come after a change.
      rcases run_write_error mode (Prod.ext failed rfl) with ⟨_, same⟩ | stopped
      · exact same
      · obtain ⟨_, _, _, artifact, _, _, outcomes, _, cause, _, _, told, _⟩ := stopped
        exact absurd told (other _ _ _)
  · rcases run_write_error mode failed with ⟨unrendered, _⟩ | stopped
    · exact absurd rfl (renderRequest_error unrendered path written cause)
    · obtain ⟨board, texts, before, artifact, text, later, outcomes, middle, reason, rendered,
        parts, told, turns, stops⟩ := stopped
      cases told
      have directories := (writeIfChanged_error stops).2
      have grows := turns.grows.trans directories
      refine ⟨board, texts, before, artifact, text, later, outcomes, middle, rendered,
        (renderAll_ok (renderRequest_ok rendered).2).1, parts, rfl, turns, rfl, stops,
        fun location => directories.contents? (by simp), fun location elsewhere => ?_⟩
      -- The paths that are told lead to their places, so a file they do not lead to was not written.
      have outside : location ∉ (writtenPaths outcomes).map fs.place ++ [] := by
        intro among
        obtain ⟨designated, listed, same⟩ := List.mem_map.1 (by simpa using among)
        exact elsewhere designated listed
          (same ▸ directories.locate_ok (turns.locate_written listed))
      exact ⟨grows.contents? outside, grows.elsewhere location outside⟩

/-- A run that is blocked at its second artifact leaves every file but the first one's as it was. -/
theorem run_failure_sample : ∃ after,
    standard.run sampleFiles blockedRequest =
        (.error (.write ⟨"board.toml/board.h"⟩ [⟨"boot.S"⟩] .notADirectory), after) ∧
      ∀ location, after.locate ⟨"boot.S"⟩ ≠ .ok location →
        after.contents? location = sampleFiles.contents? location := by
  -- The run stops at the second artifact, whose directory would be the profile's own file.
  obtain ⟨after, failed⟩ := blocked_run
  obtain ⟨_, _, whileWriting⟩ := run_failure standard sampleFiles blockedRequest
  obtain ⟨_, _, _, _, _, _, _, _, _, _, _, _, _, _, _, _, others⟩ := whileWriting rfl _ _ _ _ failed
  refine ⟨after, failed, fun location elsewhere => (others location fun path listed => ?_).1⟩
  -- Only the first artifact's path is told.
  rwa [List.mem_singleton.1 listed]

end BoardConfig.Blueprint
