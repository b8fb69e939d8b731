import BoardConfig.Generation
import BoardConfig.Proofs.FileSystem.Replacement

/-! Texts written to their places in turn, and what the file system holds after all turns. -/

namespace BoardConfig

open FileSystem

/-- The paths of the outcomes that say a file was written, in order. -/
def writtenPaths (outcomes : List Outcome) : List Path :=
  (outcomes.filter (·.status = .written)).map (·.path)

/--
Texts take their turns, one after the other.

A file that holds its text at its turn is left alone, and any other file is written.
-/
inductive Turns (layout : Layout) :
    List (Artifact × String) → FileSystem → List Outcome → FileSystem → Prop
  /-- No turns are left. -/
  | done (fs : FileSystem) : Turns layout [] fs [] fs
  /-- The file holds the text already. -/
  | unchanged {artifact : Artifact} {text : String} {rest : List (Artifact × String)}
      {fs after : FileSystem} {outcomes : List Outcome}
      (holds : fs.isUpToDate (layout.path artifact) text = .ok true)
      (later : Turns layout rest fs outcomes after) :
      Turns layout ((artifact, text) :: rest) fs
        (⟨artifact, layout.path artifact, .unchanged⟩ :: outcomes) after
  /-- The file is missing or holds something else, and is the only one written. -/
  | written {artifact : Artifact} {text : String} {rest : List (Artifact × String)}
      {fs middle after : FileSystem} {outcomes : List Outcome}
      (differs : fs.isUpToDate (layout.path artifact) text = .ok false)
      (grows : Grows [fs.place (layout.path artifact)] fs middle)
      (holds : middle.isUpToDate (layout.path artifact) text = .ok true)
      (later : Turns layout rest middle outcomes after) :
      Turns layout ((artifact, text) :: rest) fs
        (⟨artifact, layout.path artifact, .written⟩ :: outcomes) after

/-- Writing that succeeds gives every text its turn. -/
theorem writeTexts_ok {layout : Layout} {texts : List (Artifact × String)} {done : List Path}
    {fs after : FileSystem} {outcomes : List Outcome}
    (finished : writeTexts layout texts done fs = (.ok outcomes, after)) :
    Turns layout texts fs outcomes after := by
  -- The induction follows the texts, from the state that each turn leaves to the next.
  induction texts generalizing done fs outcomes with
  | nil =>
    unfold writeTexts at finished
    cases finished
    exact .done _
  | cons first rest ih =>
    obtain ⟨artifact, text⟩ := first
    simp only [writeTexts] at finished
    split at finished
    · cases finished
    · rename_i changed middle turn
      split at finished
      · cases finished
      · rename_i later onwards
        cases finished
        -- Whether the file changed tells which kind of turn it was.
        cases changed with
        | false =>
          obtain ⟨holds, rfl⟩ := writeIfChanged_false turn
          exact .unchanged holds (ih onwards)
        | true =>
          obtain ⟨differs, grows, holds⟩ := writeIfChanged_true turn
          exact .written differs grows holds (ih onwards)

/-- Writing that fails stops at the turn of one text, and names those that were written before. -/
theorem writeTexts_error {layout : Layout} {texts : List (Artifact × String)} {done : List Path}
    {fs after : FileSystem} {e : GenerationError}
    (failed : writeTexts layout texts done fs = (.error e, after)) :
    ∃ before artifact text later outcomes middle cause,
      texts = before ++ (artifact, text) :: later ∧
      e = .write (layout.path artifact) (done ++ writtenPaths outcomes) cause ∧
      Turns layout before fs outcomes middle ∧
      middle.writeIfChanged (layout.path artifact) text = (.error cause, after) := by
  -- Either the first text fails at once, or its turn comes before those of the failing rest.
  induction texts generalizing done fs with
  | nil =>
    unfold writeTexts at failed
    cases failed
  | cons first rest ih =>
    obtain ⟨artifact, text⟩ := first
    simp only [writeTexts] at failed
    split at failed
    · -- The first text's own turn fails.
      rename_i cause middle turn
      cases failed
      exact ⟨[], artifact, text, rest, [], fs, cause, rfl, by simp [writtenPaths], .done fs, turn⟩
    · rename_i changed middle turn
      split at failed
      · rename_i refusal final onwards
        cases failed
        -- The rest stops somewhere, and the first turn goes before all that it tells.
        obtain ⟨before, failing, failingText, later, outcomes, last, cause, parts, told, turns, stops⟩ :=
          ih onwards
        cases changed with
        | false =>
          obtain ⟨holds, rfl⟩ := writeIfChanged_false turn
          refine ⟨(artifact, text) :: before, failing, failingText, later,
            ⟨artifact, layout.path artifact, .unchanged⟩ :: outcomes, last, cause,
            by rw [parts]; rfl, ?_, .unchanged holds turns, stops⟩
          rw [told]
          simp [writtenPaths]
        | true =>
          obtain ⟨differs, grows, holds⟩ := writeIfChanged_true turn
          refine ⟨(artifact, text) :: before, failing, failingText, later,
            ⟨artifact, layout.path artifact, .written⟩ :: outcomes, last, cause,
            by rw [parts]; rfl, ?_, .written differs grows holds turns, stops⟩
          rw [told]
          simp [writtenPaths]
      · cases failed

/-- The last text that is placed at a location. -/
def lastText (layout : Layout) (fs : FileSystem) (location : Location) :
    List (Artifact × String) → Option String
  | [] => none
  | (artifact, text) :: rest =>
    (lastText layout fs location rest).or
      (if fs.place (layout.path artifact) = location then some text else none)

/-- Where no text goes, there is no last text. -/
theorem lastText_eq_none {layout : Layout} {texts : List (Artifact × String)} {fs : FileSystem}
    {location : Location}
    (elsewhere : ∀ entry ∈ texts, fs.place (layout.path entry.1) ≠ location) :
    lastText layout fs location texts = none := by
  -- Induction on the texts, none of which goes there.
  induction texts with
  | nil => rfl
  | cons first rest ih =>
    rw [lastText, ih fun entry behind => elsewhere entry (List.mem_cons_of_mem _ behind)]
    simp [elsewhere first List.mem_cons_self]

/-- The last text at a location is that of a text that goes there. -/
theorem mem_of_lastText {layout : Layout} {texts : List (Artifact × String)} {fs : FileSystem}
    {location : Location} {last : String} (found : lastText layout fs location texts = some last) :
    ∃ entry ∈ texts, fs.place (layout.path entry.1) = location ∧ entry.2 = last := by
  -- A later text wins, and only without one does the first text count.
  induction texts with
  | nil => simp [lastText] at found
  | cons first rest ih =>
    rw [lastText] at found
    cases later : lastText layout fs location rest with
    | some text =>
      rw [later, Option.some_or, Option.some.injEq] at found
      obtain ⟨entry, behind, there, same⟩ := ih (found ▸ later)
      exact ⟨entry, List.mem_cons_of_mem _ behind, there, same⟩
    | none =>
      rw [later, Option.none_or, Option.ite_none_right_eq_some, Option.some.injEq] at found
      exact ⟨first, List.mem_cons_self, found.1, found.2⟩

/-- Where texts go to different places, each of them is the last one at its place. -/
theorem lastText_of_distinct {layout : Layout} {texts : List (Artifact × String)} {fs : FileSystem}
    (distinct : texts.Pairwise fun first second =>
      fs.place (layout.path first.1) ≠ fs.place (layout.path second.1))
    {entry : Artifact × String} (among : entry ∈ texts) :
    lastText layout fs (fs.place (layout.path entry.1)) texts = some entry.2 := by
  -- No later text goes to the same place, so none takes it over.
  induction texts with
  | nil => simp at among
  | cons first rest ih =>
    obtain ⟨firstApart, restDistinct⟩ := List.pairwise_cons.1 distinct
    rw [lastText]
    rcases List.mem_cons.1 among with rfl | behind
    · rw [lastText_eq_none fun other later => (firstApart other later).symm]
      simp
    · simp [ih restDistinct behind]

namespace Turns

variable {layout : Layout} {texts : List (Artifact × String)} {fs after : FileSystem}
  {outcomes : List Outcome}

/-- The turns are reported for each text in order, as files that were written or unchanged. -/
theorem outcomes_eq (turns : Turns layout texts fs outcomes after) :
    outcomes.map (fun outcome => (outcome.artifact, outcome.path)) =
        texts.map (fun entry => (entry.1, layout.path entry.1)) ∧
      ∀ outcome ∈ outcomes, outcome.status = .written ∨ outcome.status = .unchanged := by
  -- Each turn adds one outcome, with the artifact and the path of its text.
  induction turns with
  | done => simp
  | unchanged holds later ih => simpa [ih.1] using ih.2
  | written differs grows holds later ih => simpa [ih.1] using ih.2

/-- All turns together are growth by the files that were written. -/
theorem grows (turns : Turns layout texts fs outcomes after) :
    Grows ((writtenPaths outcomes).map fs.place) fs after := by
  -- A turn that leaves its file alone adds nothing, and any other turn adds its file.
  induction turns with
  | done fs => exact Grows.refl fs
  | unchanged holds later ih => simpa [writtenPaths] using ih
  | @written artifact text rest fs middle after outcomes differs grows holds later ih =>
    -- Places mean the same before and after the first file is written.
    have same : middle.place = fs.place := funext (place_congr grows.cwd)
    rw [same] at ih
    simpa [writtenPaths] using grows.trans ih

/-- After all turns, each file holds the last text placed there, and the others what they held. -/
theorem contents? (turns : Turns layout texts fs outcomes after) (location : Location) :
    after.contents? location =
      ((lastText layout fs location texts).map String.toUTF8).or (fs.contents? location) := by
  -- A later text at the location decides, and without one it is the first turn that matters.
  induction turns with
  | done => rfl
  | @unchanged artifact text rest fs after outcomes holds later ih =>
    rw [ih, lastText]
    cases lastText layout fs location rest with
    | some last => rfl
    | none =>
      by_cases here : fs.place (layout.path artifact) = location
      · -- The file held the text already, which is what the first turn would have left.
        have given := contents?_of_read (isUpToDate_eq_true_iff.1 holds)
        rw [here] at given
        simp [here, given]
      · simp [here]
  | @written artifact text rest fs middle after outcomes differs grows holds later ih =>
    have same : middle.place = fs.place := funext (place_congr grows.cwd)
    -- Places mean the same after the first turn, so the last text among the rest does too.
    have sameLast : lastText layout middle location rest = lastText layout fs location rest := by
      clear ih later
      induction rest with
      | nil => rfl
      | cons entry others ih => simp only [lastText, ih, same]
    rw [ih, lastText, sameLast]
    cases lastText layout fs location rest with
    | some last => rfl
    | none =>
      by_cases here : fs.place (layout.path artifact) = location
      · have given := contents?_of_read (isUpToDate_eq_true_iff.1 holds)
        rw [same, here] at given
        simp [here, given]
      · simp [here, grows.contents? (show location ∉ [fs.place (layout.path artifact)] by
          simpa using Ne.symm here)]

/-- After all turns, the path of each text leads to its place. -/
theorem locate_ok (turns : Turns layout texts fs outcomes after) :
    ∀ entry ∈ texts, after.locate (layout.path entry.1) = .ok (fs.place (layout.path entry.1)) := by
  -- A path leads to its file after its own turn, and goes on doing so.
  induction turns with
  | done => simp
  | unchanged holds later ih =>
    intro entry among
    rcases List.mem_cons.1 among with rfl | behind
    · exact later.grows.locate_ok (read_eq_ok_iff.1 (isUpToDate_eq_true_iff.1 holds)).1
    · exact ih entry behind
  | written differs grows holds later ih =>
    intro entry among
    rw [← place_congr grows.cwd]
    rcases List.mem_cons.1 among with rfl | behind
    · exact later.grows.locate_ok (read_eq_ok_iff.1 (isUpToDate_eq_true_iff.1 holds)).1
    · exact ih entry behind

/-- The outcomes are about the artifacts of the texts, in order. -/
theorem artifacts_eq (turns : Turns layout texts fs outcomes after) :
    outcomes.map (·.artifact) = texts.map (·.1) := by
  -- The outcomes agree with the texts in artifact and path, hence in the artifact alone.
  have firsts := congrArg (List.map Prod.fst) turns.outcomes_eq.1
  simpa [List.map_map, Function.comp_def] using firsts

/-- With one status for all, the outcomes depend on no more than the texts. -/
theorem outcomes_with (turns : Turns layout texts fs outcomes after) (status : Status) :
    texts.map (fun entry => (⟨entry.1, layout.path entry.1, status⟩ : Outcome)) =
      outcomes.map fun outcome => { outcome with status } := by
  -- What the outcomes share with the texts is all that is left once the status is fixed.
  have built := congrArg
    (List.map fun named : Artifact × Path => (⟨named.1, named.2, status⟩ : Outcome))
    turns.outcomes_eq.1
  simpa [List.map_map, Function.comp_def] using built.symm

/-- Every outcome is about one of the texts. -/
theorem mem_outcomes (turns : Turns layout texts fs outcomes after) {outcome : Outcome}
    (among : outcome ∈ outcomes) :
    ∃ entry ∈ texts, outcome.artifact = entry.1 ∧ outcome.path = layout.path entry.1 := by
  -- The outcome stands at the position of its text.
  have reported : (outcome.artifact, outcome.path) ∈
      outcomes.map fun outcome => (outcome.artifact, outcome.path) :=
    List.mem_map.2 ⟨outcome, among, rfl⟩
  rw [turns.outcomes_eq.1] at reported
  obtain ⟨entry, given, same⟩ := List.mem_map.1 reported
  exact ⟨entry, given, (congrArg Prod.fst same).symm, (congrArg Prod.snd same).symm⟩

/-- A path that was written is that of one of the texts. -/
theorem mem_writtenPaths (turns : Turns layout texts fs outcomes after) {path : Path}
    (listed : path ∈ writtenPaths outcomes) : ∃ entry ∈ texts, path = layout.path entry.1 := by
  -- Each outcome belongs to one of the texts.
  obtain ⟨outcome, among, rfl⟩ := List.mem_map.1 listed
  obtain ⟨entry, given, _, same⟩ := turns.mem_outcomes (List.mem_filter.1 among).1
  exact ⟨entry, given, same⟩

/-- Where no artifact goes, nothing is written. -/
theorem not_mem_writtenPlaces (turns : Turns layout texts fs outcomes after) {location : Location}
    (apart : ∀ artifact, fs.place (layout.path artifact) ≠ location) :
    location ∉ (writtenPaths outcomes).map fs.place := by
  -- A written place is that of an artifact.
  intro written
  obtain ⟨path, listed, there⟩ := List.mem_map.1 written
  obtain ⟨entry, _, rfl⟩ := turns.mem_writtenPaths listed
  exact apart entry.1 there

/-- After all turns, the path of each file that was written leads to its place. -/
theorem locate_written (turns : Turns layout texts fs outcomes after) {path : Path}
    (listed : path ∈ writtenPaths outcomes) : after.locate path = .ok (fs.place path) := by
  -- A file that is written stands where its path leads.
  obtain ⟨entry, given, rfl⟩ := turns.mem_writtenPaths listed
  exact turns.locate_ok entry given

/-- After all turns, reading the path of a text gives the last text with the same place. -/
theorem read_ok (turns : Turns layout texts fs outcomes after) {entry : Artifact × String}
    (among : entry ∈ texts) {last : String}
    (found : lastText layout fs (fs.place (layout.path entry.1)) texts = some last) :
    after.read (layout.path entry.1) = .ok last.toUTF8 := by
  -- The path leads to its place, and there stands what the last text left.
  have held := turns.contents? (fs.place (layout.path entry.1))
  rw [found] at held
  rw [read_eq_ok_iff, place_congr turns.grows.cwd]
  refine ⟨turns.locate_ok entry among, ?_⟩
  -- Only a file has contents.
  unfold FileSystem.contents? at held
  split at held
  · rename_i contents stands
    simpa [stands] using held
  · simp at held

end Turns

end BoardConfig
