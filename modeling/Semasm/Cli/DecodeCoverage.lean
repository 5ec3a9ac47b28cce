import Semasm.Cli.CandidateCode
import Semasm.Obj.CodeSections

/-!
# Decode coverage

The decode gate compares totals: the bytes of all decoded instructions with the
bytes of all code sections. Since the disassembler returns a prefix of each
section, equal totals mean that every section was decoded to its end. What the
gate covers is therefore exactly what `codeSections` returned, and that is every
executable section precisely when the two criteria for executable code agree.
-/

namespace Semasm.Cli

open Agent Decode Obj

/-- The block holds the decoding of these bytes, to the last one. -/
def DecodesAll (disasmAll : Disassembler) (isa : DecodeIsa) (address : UInt64)
    (bytes : List UInt8) (block : List PhysicalInstruction) : Prop :=
  decode disasmAll isa bytes address = .ok block ∧
    block.flatMap (fun instruction => instruction.bytes) = bytes

/-- Whenever a candidate's code is accepted, the bytes of each executable section
appear, decoded to the end, as one block of the instructions. -/
def DecodedWhenAccepted (disasmAll : Disassembler) (file : ObjectFile) (target : Isa)
    (isa : DecodeIsa) : Prop :=
  ∀ physical codeBytes, decodeCandidateCode disasmAll file target isa = .ok (physical, codeBytes) →
    ∀ item ∈ file.sections, ∀ bytes, CarriesCode item bytes →
      ∃ before block after, physical = before ++ block ++ after ∧
        DecodesAll disasmAll isa item.address bytes block

theorem decodedBytes_append (first second : List PhysicalInstruction) :
    decodedBytes (first ++ second) = decodedBytes first + decodedBytes second := by
  simp [decodedBytes]

theorem decodedBytes_eq_length (physical : List PhysicalInstruction) :
    decodedBytes physical = (physical.flatMap (fun instruction => instruction.bytes)).length := by
  simp [decodedBytes, List.length_flatMap]

/-- The decoding loop appends one block for each section. -/
theorem decodeSections_blocks (disasmAll : Disassembler) (isa : DecodeIsa)
    (sections : List CodeSection) (physical result : List PhysicalInstruction)
    (codeBytes total : Nat)
    (finished : decodeSections disasmAll isa sections physical codeBytes = .ok (result, total)) :
    ∃ blocks, List.Forall₂
        (fun code block => decode disasmAll isa code.bytes code.address = .ok block)
        sections blocks ∧
      result = physical ++ blocks.flatten ∧
      total = codeBytes + (sections.map (fun code => code.bytes.length)).sum := by
  induction sections generalizing physical codeBytes with
  | nil =>
    simp only [decodeSections, Except.ok.injEq, Prod.mk.injEq] at finished
    exact ⟨[], .nil, by simp [finished.1], by simp [finished.2]⟩
  | cons code rest inductionHypothesis =>
    unfold decodeSections at finished
    cases decoded : decode disasmAll isa code.bytes code.address with
    | error reason => simp [decoded] at finished
    | ok block =>
      simp only [decoded] at finished
      obtain ⟨blocks, each, joined, counted⟩ := inductionHypothesis _ _ finished
      refine ⟨block :: blocks, .cons decoded each, by simp [joined], ?_⟩
      simp only [List.map_cons, List.sum_cons]
      omega

/-- Blocks that are prefixes of their sections hold at most as many bytes. -/
theorem decodedBytes_le_total (sections : List CodeSection)
    (blocks : List (List PhysicalInstruction))
    (prefixes : List.Forall₂ (fun (code : CodeSection) (block : List PhysicalInstruction) =>
      block.flatMap (fun instruction => instruction.bytes) <+: code.bytes) sections blocks) :
    decodedBytes blocks.flatten ≤ (sections.map (fun code => code.bytes.length)).sum := by
  induction prefixes with
  | nil => simp [decodedBytes]
  | cons taken _ inductionHypothesis =>
    have own := taken.length_le
    rw [List.flatten_cons, decodedBytes_append, decodedBytes_eq_length]
    simp only [List.map_cons, List.sum_cons]
    omega

/-- With equal totals no block stops before the end of its section. -/
theorem blocks_complete (sections : List CodeSection) (blocks : List (List PhysicalInstruction))
    (prefixes : List.Forall₂ (fun (code : CodeSection) (block : List PhysicalInstruction) =>
      block.flatMap (fun instruction => instruction.bytes) <+: code.bytes) sections blocks)
    (total : decodedBytes blocks.flatten = (sections.map (fun code => code.bytes.length)).sum) :
    List.Forall₂ (fun (code : CodeSection) (block : List PhysicalInstruction) =>
      block.flatMap (fun instruction => instruction.bytes) = code.bytes) sections blocks := by
  induction prefixes with
  | nil => exact .nil
  | cons taken others inductionHypothesis =>
    have own := taken.length_le
    have rest := decodedBytes_le_total _ _ others
    rw [List.flatten_cons, decodedBytes_append, decodedBytes_eq_length] at total
    simp only [List.map_cons, List.sum_cons] at total
    apply List.Forall₂.cons
    · exact taken.eq_of_length (by omega)
    · exact inductionHypothesis (by omega)

/-- A flattened list split at one of its blocks. -/
theorem flatten_split (blocks : List (List PhysicalInstruction)) (index : Nat)
    (inside : index < blocks.length) :
    blocks.flatten =
      (blocks.take index).flatten ++ blocks[index] ++ (blocks.drop (index + 1)).flatten := by
  rw [List.append_assoc, ← List.flatten_cons, ← List.drop_eq_getElem_cons inside,
    ← List.flatten_append, List.take_append_drop]

/-- An accepted candidate has a block for each code section, decoded to its end. -/
theorem accepted_code_decoded (disasmAll : Disassembler) (readsPrefix : disasmAll.ReadsPrefix)
    (file : ObjectFile) (target : Isa) (isa : DecodeIsa) (physical : List PhysicalInstruction)
    (codeBytes : Nat)
    (accepted : decodeCandidateCode disasmAll file target isa = .ok (physical, codeBytes)) :
    ∃ code, codeSections file.sections = .ok code ∧
      ∀ entry ∈ code, ∃ before block after, physical = before ++ block ++ after ∧
        DecodesAll disasmAll isa entry.address entry.bytes block := by
  unfold decodeCandidateCode at accepted
  cases read : readCodeSections file target with
  | error reason => simp [read] at accepted
  | ok sections =>
    simp only [read] at accepted
    split at accepted
    · cases accepted
    cases finished : decodeSections disasmAll isa sections [] 0 with
    | error reason => simp [finished] at accepted
    | ok outcome =>
      obtain ⟨result, total⟩ := outcome
      simp only [finished] at accepted
      split at accepted
      · cases accepted
      · rename_i equalTotals
        simp only [Except.ok.injEq, Prod.mk.injEq] at accepted
        obtain ⟨blocks, each, joined, counted⟩ :=
          decodeSections_blocks disasmAll isa sections [] result 0 total finished
        rw [List.nil_append] at joined
        have prefixes := each.imp (fun code block decoded =>
          decode_bytes_prefix disasmAll readsPrefix isa code.bytes code.address block decoded)
        have complete := blocks_complete sections blocks prefixes (by
          rw [← joined]
          omega)
        refine ⟨sections, codeSections_of_read file target sections read, ?_⟩
        intro entry member
        obtain ⟨index, inside, rfl⟩ := List.mem_iff_getElem.mp member
        have sameLength := each.length_eq
        have decoded := each.get inside (by omega)
        have whole := complete.get inside (by omega)
        refine ⟨(blocks.take index).flatten, blocks[index], (blocks.drop (index + 1)).flatten,
          ?_, decoded, whole⟩
        rw [← accepted.1, joined]
        exact flatten_split blocks index (by omega)

/-- Decode coverage means all executable bytes, precisely for the files on which
the flags and the kinds agree about what is code.

Proof: `returnedOnce_iff` is the first half; for the second, an entry returned by
`codeSections` has a block of its own. -/
theorem codeCovered_iff (disasmAll : Disassembler) (readsPrefix : disasmAll.ReadsPrefix)
    (file : ObjectFile) (target : Isa) (isa : DecodeIsa) :
    ReturnedOnce file.sections ∧ DecodedWhenAccepted disasmAll file target isa ↔
      CriteriaAgree file.sections := by
  constructor
  · rintro ⟨once, _⟩
    exact (returnedOnce_iff file.sections).mp once
  · intro agree
    have once := (returnedOnce_iff file.sections).mpr agree
    refine ⟨once, ?_⟩
    intro physical codeBytes accepted item member bytes carries
    obtain ⟨code, read, blocks⟩ :=
      accepted_code_decoded disasmAll readsPrefix file target isa physical codeBytes accepted
    obtain ⟨before, after, split⟩ := List.append_of_mem member
    obtain ⟨others, _, permuted⟩ := once code read before item after bytes split carries
    exact blocks (item.entry bytes) (permuted.mem_iff.mpr (by simp))

/-- A disassembler of the one-byte `ret`, which stops at any other byte. -/
def retDisassembler : Disassembler := fun isa code base =>
  match isa with
  | .x86_64 =>
    .ok ((code.takeWhile (fun byte => byte == 0xC3)).zipIdx.map (fun (byte, index) =>
      { address := base + UInt64.ofNat index
        bytes := [byte]
        mnemonic := some "ret"
        opStr := some ""
        detail := some ⟨["rsp"], ["rsp"], ["ret", "mode64"]⟩ }))
  | _ => .error (.unsupported "only x86-64 is built in")

theorem retDisassembler_readsPrefix : retDisassembler.ReadsPrefix := by
  intro isa code base insns answered
  cases isa with
  | x86_64 =>
    simp only [retDisassembler, Except.ok.injEq] at answered
    rw [← answered, List.flatMap_map, ← List.map_eq_flatMap]
    have same := List.zipIdx_map_fst 0 (code.takeWhile (fun byte => byte == 0xC3))
    rw [same]
    exact List.takeWhile_prefix _
  | aarch64 => cases answered
  | riscv64 => cases answered

/-- A relocatable object whose only section is a text section holding `ret`. -/
def plainObject : ObjectFile :=
  { kind := .relocatable
    architecture := .x86_64
    sections := [⟨some ".text", 0, 1, .text, .elf 6, .ok [0xC3]⟩]
    symbols := [⟨some "f", true, false, false⟩]
    dynamicSymbols := [] }

theorem plainObject_covered :
    ReturnedOnce plainObject.sections ∧
      DecodedWhenAccepted retDisassembler plainObject .x86_64 .x86_64 :=
  (codeCovered_iff retDisassembler retDisassembler_readsPrefix plainObject .x86_64 .x86_64).mpr
    (Or.inr (by
      intro item member bytes _
      simp only [plainObject, List.mem_singleton] at member
      rw [member]))

/-- The same object with a note section that is allocated and executable. -/
def hiddenCodeObject : ObjectFile :=
  { plainObject with
    sections := plainObject.sections ++ [⟨some ".hidden", 0, 2, .note, .elf 6, .ok [0x0F, 0x05]⟩] }

/-- The object passes both gates, and its executable note section is neither
returned as code nor decoded. -/
theorem note_section_escapes_decoding :
    checkCandidateObjectPolicy hiddenCodeObject .x86_64 "f" = .ok () ∧
      (decodeCandidateCode retDisassembler hiddenCodeObject .x86_64 .x86_64).isOk = true ∧
      ¬ (ReturnedOnce hiddenCodeObject.sections ∧
        DecodedWhenAccepted retDisassembler hiddenCodeObject .x86_64 .x86_64) := by
  refine ⟨by decide, by decide, ?_⟩
  rintro ⟨once, _⟩
  rcases (returnedOnce_iff hiddenCodeObject.sections).mp once with unreadable | kinds
  · obtain ⟨item, member, _, reason, data⟩ := unreadable
    simp only [hiddenCodeObject, plainObject, List.cons_append, List.nil_append, List.mem_cons,
      List.not_mem_nil, or_false] at member
    rcases member with rfl | rfl <;> cases data
  · have note := kinds ⟨some ".hidden", 0, 2, .note, .elf 6, .ok [0x0F, 0x05]⟩
      (by simp [hiddenCodeObject]) [0x0F, 0x05] ⟨by decide, rfl, by simp⟩
    cases note

end Semasm.Cli
