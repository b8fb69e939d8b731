import BoardConfig.Proofs.Artifact.Literals
import BoardConfig.Proofs.Derivation.MemoryEnd
import BoardConfig.Proofs.Generation.Run
import BoardConfig.Proofs.Profile.Parameters

/-! The artifacts agree with one another and with the profile that they were rendered from. -/

namespace BoardConfig

open Template

/-- The parameters that the hardware package shows are declared ones. -/
theorem knobs_declared : ∀ knob ∈ knobs, knob.1 ∈ Schema.standard.names := by
  -- The ten names are looked up in the schema one by one.
  decide

/--
The literals in the artifacts are the profile's values, whatever the profile and the banner's source.

Each artifact has one literal of the end of memory, and all four denote the derived value.
Each of the ten parameters that the hardware package shows has one literal there, in its own style, and
that denotes what the nearest file of the chain binds to its name.
-/
theorem renderAll_faithful {fs : FileSystem} {directory : Path} {reference : ProfileReference}
    {board : Board} {source : String} {texts : List (Artifact × String)}
    (prepared : Blueprint.standard.prepare fs directory reference = .ok board)
    (rendered : renderAll (board.context source) = .ok texts) :
    ∃ chain, ∃ width mode : Nat, ∃ memoryEnd : UInt64,
      fs.profileChain directory (reference.resolve directory ⟨""⟩) = .ok chain ∧
      nearestValue? chain "RAM_ADDRESS_BITWIDTH" = some (.integer width) ∧
      nearestValue? chain "RAM_ADDRESSING_MODE" = some (.integer mode) ∧
      board.derived.get? "memory_end_address" = some memoryEnd ∧
      memoryEnd.toNat = 2 ^ (width + mode) ∧
      texts.map (·.1) = Artifact.all ∧
      ∀ artifact text, (artifact, text) ∈ texts →
        ∃ body, text = artifact.template.banner (board.context source) ++ body ∧
          (∃ literal, literalsAfter artifact.memoryEndMarker body = [literal] ∧
            decode literal artifact.memoryEndStyle 32 = .ok memoryEnd) ∧
          (artifact = .hdlPackage → ∀ name style, (name, style) ∈ knobs →
            ∃ literal decoded,
              literalsAfter ("parameter int unsigned " ++ name ++ " = ") body = [literal] ∧
              decode literal style 32 = .ok decoded ∧
              nearestValue? chain name = some (.integer decoded.toNat)) := by
  -- Loading tells what the parameters are, and evaluating what is derived from them.
  obtain ⟨loaded, evaluated⟩ := Blueprint.prepare_ok prepared
  obtain ⟨chain, followed, given⟩ := Profile.load_ok loaded
  obtain ⟨width, mode, memoryEnd, widthBound, modeBound, derived, power⟩ :=
    evaluate_memoryEnd evaluated
  obtain ⟨artifacts, each⟩ := renderAll_ok rendered
  have nearest {name : String} (declared : name ∈ Schema.standard.names) {value : UInt64}
      (bound : board.profile.parameters.get? name = some (.uint value)) :
      nearestValue? chain name = some (.integer value.toNat) :=
    nearestValue?_of_uint given standard_names_nodup declared bound
  -- The two parameters of the address are declared, so the chain binds them.
  refine ⟨chain, width.toNat, mode.toNat, memoryEnd, followed, nearest (by decide) widthBound,
    nearest (by decide) modeBound, derived, power, artifacts, fun artifact text among => ?_⟩
  -- Behind its banner a text is its segments, on which the literals are found.
  obtain ⟨body, segments, banner⟩ := render_ok (each _ among)
  rw [Artifact.template_artifact] at segments
  refine ⟨body, banner, ?_, ?_⟩
  · obtain ⟨value, literal, found, encoded, only⟩ := Artifact.memoryEnd_literal segments
    -- The context's derived values are the board's, so this is the value in question.
    have same : some memoryEnd = some value := derived.symm.trans found
    cases same
    exact ⟨literal, only, decode_encode encoded⟩
  · -- A parameter is written from the value under its own name, which the chain binds.
    rintro rfl name style known
    obtain ⟨value, literal, resolved, encoded, only⟩ :=
      parameter_literal segments (mem_hardwareParameters known)
    refine ⟨literal, value, only, decode_encode encoded, nearest (knobs_declared _ known) ?_⟩
    simp only [resolve] at resolved
    split at resolved <;> cases resolved
    rename_i bound
    exact ParameterSet.get?_of_uint bound

/-- The sample profile's artifacts have its one end of memory, and the package its other numbers. -/
theorem renderAll_faithful_sample : ∃ board source texts,
    Blueprint.standard.prepare sampleFiles sampleRequest.directory sampleRequest.reference =
      .ok board ∧
    renderAll (board.context source) = .ok texts ∧
    texts.map (·.1) = Artifact.all ∧
    ∀ artifact text, (artifact, text) ∈ texts →
      ∃ body, text = artifact.template.banner (board.context source) ++ body ∧
        (∃ literal, literalsAfter artifact.memoryEndMarker body = [literal] ∧
          decode literal artifact.memoryEndStyle 32 = .ok 32) ∧
        (artifact = .hdlPackage →
          (∃ literal, literalsAfter "parameter int unsigned CLOCK_FREQUENCY_HZ = " body = [literal] ∧
            decode literal .decimal 32 = .ok 27) ∧
          ∃ literal,
            literalsAfter "parameter int unsigned FLASH_TRANSFER_BYTE_COUNT = " body = [literal] ∧
            decode literal .sizedHex 32 = .ok 5) := by
  -- The sample profile is prepared and rendered, so the theorem tells the literals of its
  -- artifacts.
  obtain ⟨report, after, finished⟩ := sample_run
  obtain ⟨board, texts, both, _⟩ := Blueprint.run_write_ok rfl finished
  obtain ⟨prepared, rendered⟩ := Blueprint.renderRequest_ok both
  obtain ⟨chain, width, mode, memoryEnd, followed, hasWidth, hasMode, -, power, all, each⟩ :=
    renderAll_faithful prepared rendered
  -- The chain is the profile's only file, of which the numbers are known.
  cases followed.symm.trans (chain_of_document parse_sampleDocument rfl (by decide))
  have known {name : String} {number value : Nat}
      (binds : (boardTable 3 2).get? name = some (.integer number))
      (nearest : nearestValue? [sampleLink sampleProfile] name = some (.integer value)) :
      value = number := by
    have only : nearestValue? [sampleLink sampleProfile] name = (boardTable 3 2).get? name := by
      simp [nearestValue?, sampleLink, sampleProfile]
    rw [only, binds] at nearest
    cases nearest
    rfl
  have address : memoryEnd = 32 := by
    rw [@known _ 3 _ rfl hasWidth, @known _ 2 _ rfl hasMode] at power
    exact UInt64.toNat_inj.1 power
  refine ⟨board, _, texts, prepared, rendered, all, fun artifact text among => ?_⟩
  obtain ⟨body, banner, memory, package⟩ := each artifact text among
  rw [address] at memory
  refine ⟨body, banner, memory, fun kind => ⟨?_, ?_⟩⟩
  · obtain ⟨literal, decoded, only, value, has⟩ :=
      package kind "CLOCK_FREQUENCY_HZ" .decimal (by decide)
    have number : decoded = 27 := UInt64.toNat_inj.1 (@known _ 27 _ rfl has)
    exact ⟨literal, only, number ▸ value⟩
  · obtain ⟨literal, decoded, only, value, has⟩ :=
      package kind "FLASH_TRANSFER_BYTE_COUNT" .sizedHex (by decide)
    have number : decoded = 5 := UInt64.toNat_inj.1 (@known _ 5 _ rfl has)
    exact ⟨literal, only, number ▸ value⟩

end BoardConfig
