import Semasm.Cli.VerifyCommand

/-!
# What a failure envelope says

The code of an envelope determines its stage and whether the request may be tried again. An
envelope names what was known when the run ended: the target unless that was wrong, the digests
once both files were read, and the routine once the contract was checked.
-/

namespace Semasm.Cli.Commands

open Agent Agent.Harness Contract Library.Checks

/-! ## Details -/

theorem utf8ByteSize_cons (char : Char) (text : List Char) :
    (String.ofList (char :: text)).utf8ByteSize =
      char.utf8Size + (String.ofList text).utf8ByteSize := by
  rw [String.ofList_cons, String.utf8ByteSize_append, String.utf8ByteSize_singleton]

/-- What is kept of a detail is a front of it that fits, and the next character does not. -/
theorem fittingFront_spec (room : Nat) (text : List Char) :
    ∃ rest, text = AgentFailureEnvelope.fittingFront room text ++ rest ∧
      (String.ofList (AgentFailureEnvelope.fittingFront room text)).utf8ByteSize ≤ room ∧
      ∀ char, rest.head? = some char → room <
        (String.ofList (AgentFailureEnvelope.fittingFront room text)).utf8ByteSize +
          char.utf8Size := by
  induction text generalizing room with
  | nil => exact ⟨[], rfl, Nat.zero_le _, by simp⟩
  | cons first text inductionHypothesis =>
    rw [AgentFailureEnvelope.fittingFront]
    by_cases fits : first.utf8Size ≤ room
    · obtain ⟨rest, split, bounded, stops⟩ := inductionHypothesis (room - first.utf8Size)
      rw [if_pos fits]
      refine ⟨rest, congrArg (List.cons first) split, ?_, ?_⟩
      · rw [utf8ByteSize_cons]
        omega
      · intro char next
        have beyond := stops char next
        rw [utf8ByteSize_cons]
        omega
    · rw [if_neg fits]
      refine ⟨first :: text, rfl, Nat.zero_le _, ?_⟩
      rintro char same
      obtain rfl := Option.some.inj same
      change room < 0 + first.utf8Size
      omega

/-- A detail has at most 4096 bytes and an ellipsis. -/
theorem withDetail_bounded (envelope : AgentFailureEnvelope) (detail text : String)
    (kept : (envelope.withDetail detail).detail = some text) : text.utf8ByteSize ≤ 4099 := by
  simp only [AgentFailureEnvelope.withDetail, Option.some.injEq] at kept
  subst kept
  split_ifs with long
  · obtain ⟨_, _, bounded, _⟩ := fittingFront_spec 4096 detail.toList
    rw [String.utf8ByteSize_append]
    have ellipsis : "…".utf8ByteSize = 3 := by decide
    omega
  · omega

/-! ## What is told -/

/-- The codes with their stage and whether to try again. -/
def failureTable : List (String × FailureStage × Retryability) :=
  [("INVALID_TARGET", .usage, .never), ("TOOLCHAIN_INCOMPLETE", .toolchain, .tooling),
   ("CONTRACT_IO", .io, .tooling), ("SOURCE_IO", .io, .tooling),
   ("CONTRACT_ENCODING", .contract, .never), ("CONTRACT_INVALID", .contract, .never),
   ("UNSUPPORTED_SHAPE", .unsupportedShape, .never), ("VECTORS_IO", .io, .tooling),
   ("VECTORS_INVALID", .contract, .never), ("VECTORS_BINDING_MISMATCH", .contract, .never),
   ("HARNESS_MISMATCH", .unsupportedShape, .never), ("SCRATCH_IO", .pipeline, .tooling),
   ("ASSEMBLE_FAILED", .assemble, .never), ("ASSEMBLE_ERROR", .assemble, .tooling),
   ("HARNESS_IO", .io, .tooling), ("ASSEMBLE_HARNESS_FAILED", .assemble, .never),
   ("ASSEMBLE_HARNESS_ERROR", .assemble, .tooling), ("LINK_FAILED", .link, .never),
   ("LINK_ERROR", .link, .tooling)]

/-- The contract of the request, once it is checked. -/
def checkedContract (host : Host) (request : Request) : Option CheckedContract :=
  (readInputs host request).toOption.bind fun inputs =>
    (checkContract host request inputs).toOption

/-- What an envelope says is what was known. -/
structure EnvelopeTold (host : Host) (request : Request) (envelope : AgentFailureEnvelope)
    (exit : UInt8) : Prop where
  table : (envelope.code, envelope.stage, envelope.retryability) ∈ failureTable
  exit : exit = if envelope.code = "INVALID_TARGET" then 2 else 1
  target : envelope.target =
    if envelope.code = "INVALID_TARGET" then none else some request.target
  contractDigest : envelope.contractDigest =
    (readInputs host request).toOption.map Inputs.contractDigest
  sourceDigest : envelope.sourceDigest =
    (readInputs host request).toOption.map Inputs.sourceDigest
  routine : envelope.routineSymbol = (checkedContract host request).map CheckedContract.name
  detail : ∀ text, envelope.detail = some text → text.utf8ByteSize ≤ 4099

/-- A detail takes nothing from what an envelope says. -/
theorem EnvelopeTold.withDetail {host : Host} {request : Request}
    {envelope : AgentFailureEnvelope} {exit : UInt8}
    (told : EnvelopeTold host request envelope exit) (detail : String) :
    EnvelopeTold host request (envelope.withDetail detail) exit where
  table := told.table
  exit := told.exit
  target := told.target
  contractDigest := told.contractDigest
  sourceDigest := told.sourceDigest
  routine := told.routine
  detail := fun text kept => withDetail_bounded envelope detail text kept

/-- The core is an envelope that says what was known. -/
def FailureTold (host : Host) (request : Request) (core : VerifyCore) : Prop :=
  ∃ envelope exit, core = earlyFailure envelope exit ∧ EnvelopeTold host request envelope exit

section

variable {host : Host} {request : Request}

/-- Envelopes from before the files are read say what was known. -/
theorem told_of_unread {envelope : AgentFailureEnvelope} {exit : UInt8} {core : VerifyCore}
    (unread : readInputs host request = .error core)
    (table : (envelope.code, envelope.stage, envelope.retryability) ∈ failureTable)
    (code : exit = if envelope.code = "INVALID_TARGET" then 2 else 1)
    (target : envelope.target =
      if envelope.code = "INVALID_TARGET" then none else some request.target)
    (bare : envelope.contractDigest = none ∧ envelope.sourceDigest = none ∧
      envelope.routineSymbol = none ∧ envelope.detail = none) :
    EnvelopeTold host request envelope exit := by
  obtain ⟨contractDigest, sourceDigest, routine, detail⟩ := bare
  refine ⟨table, code, target, ?_, ?_, ?_, ?_⟩
  · rw [contractDigest, unread]
    rfl
  · rw [sourceDigest, unread]
    rfl
  · rw [routine, checkedContract, unread]
    rfl
  · intro text some_
    rw [detail] at some_
    cases some_

/-- The target, the tools and the two files are refused with what was known. -/
theorem readInputs_told {core : VerifyCore} (unread : readInputs host request = .error core) :
    FailureTold host request core := by
  have refused := unread
  simp only [readInputs, bind_error_iff, mapError_error_iff, require_error_iff] at refused
  obtain ⟨reason, _, rfl⟩ | ⟨_, _, ⟨_, rfl⟩ | ⟨_, _, ⟨reason, _, rfl⟩ | ⟨_, _,
    ⟨reason, _, rfl⟩ | ⟨_, _, made⟩⟩⟩⟩ := refused
  · have listed : ("INVALID_TARGET", FailureStage.usage, Retryability.never) ∈ failureTable := by
      decide
    exact ⟨_, _, rfl, told_of_unread unread listed rfl rfl ⟨rfl, rfl, rfl, rfl⟩⟩
  · have listed : ("TOOLCHAIN_INCOMPLETE", FailureStage.toolchain, Retryability.tooling) ∈
        failureTable := by decide
    exact ⟨_, _, rfl, told_of_unread unread listed rfl rfl ⟨rfl, rfl, rfl, rfl⟩⟩
  · have listed : ("CONTRACT_IO", FailureStage.io, Retryability.tooling) ∈ failureTable := by
      decide
    exact ⟨_, _, rfl, told_of_unread unread listed rfl rfl ⟨rfl, rfl, rfl, rfl⟩⟩
  · have listed : ("SOURCE_IO", FailureStage.io, Retryability.tooling) ∈ failureTable := by
      decide
    exact ⟨_, _, rfl, told_of_unread unread listed rfl rfl ⟨rfl, rfl, rfl, rfl⟩⟩
  · cases made

/-- A row of the table for a request with a known target. -/
structure Listed (code : String) (stage : FailureStage) (retryability : Retryability) : Prop where
  row : (code, stage, retryability) ∈ failureTable
  known : code ≠ "INVALID_TARGET"

/-- Envelopes from before the contract is checked say what was known. -/
theorem told_of_unchecked {inputs : Inputs} {core : VerifyCore} {code : String}
    {stage : FailureStage} {retryability : Retryability}
    (read : readInputs host request = .ok inputs)
    (unchecked : checkContract host request inputs = .error core)
    (listed : Listed code stage retryability) (message : String) :
    EnvelopeTold host request (inputs.failure request code stage message retryability) 1 where
  table := listed.row
  exit := (if_neg listed.known).symm
  target := (if_neg listed.known).symm
  contractDigest := by
    rw [read]
    rfl
  sourceDigest := by
    rw [read]
    rfl
  routine := by
    rw [checkedContract, read, Except.toOption, Option.bind_some, unchecked]
    rfl
  detail := by
    intro text some_
    cases some_

/-- Envelopes from after the contract is checked say what was known. -/
theorem told_of_checked {inputs : Inputs} {checked : CheckedContract} {code : String}
    {stage : FailureStage} {retryability : Retryability}
    (read : readInputs host request = .ok inputs)
    (accepted : checkContract host request inputs = .ok checked)
    (listed : Listed code stage retryability) (message : String) :
    EnvelopeTold host request
      (inputs.routineFailure request checked code stage message retryability) 1 where
  table := listed.row
  exit := (if_neg listed.known).symm
  target := (if_neg listed.known).symm
  contractDigest := by
    rw [read]
    rfl
  sourceDigest := by
    rw [read]
    rfl
  routine := by
    rw [checkedContract, read, Except.toOption, Option.bind_some, accepted]
    rfl
  detail := by
    intro text some_
    cases some_

/-- A contract is refused with what was known. -/
theorem checkContract_told {inputs : Inputs} {core : VerifyCore}
    (read : readInputs host request = .ok inputs)
    (unchecked : checkContract host request inputs = .error core) :
    FailureTold host request core := by
  have encoding : Listed "CONTRACT_ENCODING" .contract .never := ⟨by decide, by decide⟩
  have invalid : Listed "CONTRACT_INVALID" .contract .never := ⟨by decide, by decide⟩
  have refused := unchecked
  simp only [checkContract, bind_error_iff, mapError_error_iff, require_error_iff] at refused
  obtain ⟨reason, _, rfl⟩ | ⟨text, _, ⟨_, rfl⟩ | ⟨_, _, missing⟩⟩ := refused
  · exact ⟨_, _, rfl, told_of_unchecked read unchecked encoding _⟩
  · exact ⟨_, _, rfl, (told_of_unchecked read unchecked invalid _).withDetail _⟩
  · cases contract : (checkStr host.fromToml text).contract with
    | some checked => simp [contract] at missing
    | none =>
      simp only [contract, Except.error.injEq] at missing
      subst missing
      exact ⟨_, _, rfl, (told_of_unchecked read unchecked invalid _).withDetail _⟩

/-- An external document is refused with what was known. -/
theorem readExternal_told {inputs : Inputs} {checked : CheckedContract} {core : VerifyCore}
    (read : readInputs host request = .ok inputs)
    (accepted : checkContract host request inputs = .ok checked)
    (refused : readExternal host request inputs checked = .error core) :
    FailureTold host request core := by
  have io : Listed "VECTORS_IO" .io .tooling := ⟨by decide, by decide⟩
  have invalid : Listed "VECTORS_INVALID" .contract .never := ⟨by decide, by decide⟩
  have mismatch : Listed "VECTORS_BINDING_MISMATCH" .contract .never := ⟨by decide, by decide⟩
  unfold readExternal at refused
  cases named : request.vectorsFile with
  | none =>
    rw [named] at refused
    cases refused
  | some path =>
    simp only [named, bind_error_iff, mapError_error_iff] at refused
    obtain ⟨reason, _, rfl⟩ | ⟨bytes, _, ⟨reason, _, rfl⟩ | ⟨document, _, rest⟩⟩ := refused
    · exact ⟨_, _, rfl, told_of_checked read accepted io _⟩
    · exact ⟨_, _, rfl, told_of_checked read accepted invalid _⟩
    · cases bound : bindingError document inputs.contractDigest request.target checked.name with
      | some message =>
        simp only [bound, Except.error.injEq] at rest
        subst rest
        exact ⟨_, _, rfl, told_of_checked read accepted mismatch _⟩
      | none =>
        simp only [bound, bind_error_iff, mapError_error_iff] at rest
        obtain ⟨message, _, rfl⟩ | ⟨vectors, _, made⟩ := rest
        · exact ⟨_, _, rfl, told_of_checked read accepted invalid _⟩
        · cases made

/-- A request that is not admitted is refused with what was known. -/
theorem prepareRun_told {core : VerifyCore} (refused : prepareRun host request = .error core) :
    FailureTold host request core := by
  have shape : Listed "UNSUPPORTED_SHAPE" .unsupportedShape .never := ⟨by decide, by decide⟩
  have mismatch : Listed "HARNESS_MISMATCH" .unsupportedShape .never := ⟨by decide, by decide⟩
  simp only [prepareRun, bind_error_iff, mapError_error_iff, require_error_iff] at refused
  obtain unread | ⟨inputs, read, unchecked | ⟨checked, accepted, ⟨_, rfl⟩ | ⟨_, _,
    external | ⟨external, _, ⟨reason, _, rfl⟩ | ⟨_, _, made⟩⟩⟩⟩⟩ := refused
  · exact readInputs_told unread
  · exact checkContract_told read unchecked
  · exact ⟨_, _, rfl, (told_of_checked read accepted shape _).withDetail _⟩
  · exact readExternal_told read accepted external
  · exact ⟨_, _, rfl, told_of_checked read accepted mismatch _⟩
  · cases made

/-- What an admitted request was read from. -/
theorem admitted_read {admitted : Admitted} (accepted : prepareRun host request = .ok admitted) :
    readInputs host request = .ok admitted.inputs ∧
      checkContract host request admitted.inputs = .ok admitted.checked := by
  simp only [prepareRun, bind_ok_iff] at accepted
  obtain ⟨inputs, read, checked, contract, _, _, external, _, shape, _, made⟩ := accepted
  cases made
  exact ⟨read, contract⟩

/-- Envelopes of an admitted request say what was known. -/
theorem told_of_admitted {admitted : Admitted} {code : String} {stage : FailureStage}
    {retryability : Retryability} (accepted : prepareRun host request = .ok admitted)
    (listed : Listed code stage retryability) (message : String) :
    EnvelopeTold host request (admitted.failure request code stage message retryability) 1 :=
  told_of_checked (admitted_read accepted).1 (admitted_read accepted).2 listed message

/-- A file that cannot be handled is reported with what was known. -/
theorem fileCheck_told {admitted : Admitted} {check : Except String Unit} {code : String}
    {stage : FailureStage} {retryability : Retryability} {message : String → String}
    {core : VerifyCore} (accepted : prepareRun host request = .ok admitted)
    (listed : Listed code stage retryability)
    (refused : (check.mapError fun error => earlyFailure
      (admitted.failure request code stage (message error) retryability) 1) = .error core) :
    FailureTold host request core := by
  obtain ⟨reason, _, rfl⟩ := (mapError_error_iff _ _ _).mp refused
  exact ⟨_, _, rfl, told_of_admitted accepted listed _⟩

/-- A tool that did not succeed is reported with what was known. -/
theorem toolCheck_told {admitted : Admitted} {outcome : ToolOutcome} {code what : String}
    {stage : FailureStage} {core : VerifyCore} (accepted : prepareRun host request = .ok admitted)
    (failed : Listed (code ++ "_FAILED") stage .never)
    (errored : Listed (code ++ "_ERROR") stage .tooling)
    (refused : outcome.check (admitted.failure request) code stage what = .error core) :
    FailureTold host request core := by
  cases outcome with
  | succeeded => cases refused
  | failed stderr =>
    obtain rfl := Except.error.inj refused
    exact ⟨_, _, rfl, (told_of_admitted accepted failed _).withDetail _⟩
  | error message =>
    obtain rfl := Except.error.inj refused
    exact ⟨_, _, rfl, (told_of_admitted accepted errored _).withDetail _⟩

end

end Semasm.Cli.Commands
