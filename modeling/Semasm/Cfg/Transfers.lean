import Semasm.Cfg.Resolution

/-!
# What a decoded instruction can do

Independently of the roles `classify` gives, this module says where control can
go after an instruction. The kind of transfer is known from the groups or from
the mnemonic; the groups can be missing, since the decoder leaves the list empty
when the backend has no detail. The target of a direct transfer is the printed
one. A transfer whose target is not printed can go anywhere, except that a known
conditional branch without a printed target counts as one to address zero.
-/

namespace Semasm.Cfg

open Decode

/-- One place where control can go. -/
inductive Transfer where
  | next (address : UInt64)
  | taken (target : UInt64)
  | call (target : UInt64)
  | anywhere
deriving DecidableEq, Repr

/-- Address of the first byte after an instruction. -/
def endAddress (ins : PhysicalInstruction) : UInt64 :=
  ins.address + UInt64.ofNat ins.bytes.length

/-- The instruction returns to its caller or to an interrupted program. -/
def isReturn (ins : PhysicalInstruction) : Bool :=
  ins.groups.contains "ret" || ins.groups.contains "iret" || Text.asciiLower ins.mnemonic == "ret"

/-- Mnemonics of calls. -/
def callMnemonics : List String := ["call", "bl", "blr", "jal", "jalr"]

/-- The instruction calls. -/
def isCall (ins : PhysicalInstruction) : Bool :=
  ins.groups.contains "call" || callMnemonics.contains (Text.asciiLower ins.mnemonic)

/-- The instruction branches. -/
def isBranch (ins : PhysicalInstruction) : Bool :=
  ins.groups.contains "jump" ||
    unconditionalMnemonics.contains (Text.asciiLower ins.mnemonic) ||
    isConditionalBranchMnemonic (Text.asciiLower ins.mnemonic)

/-- The target a branch prints. -/
def branchTarget (ins : PhysicalInstruction) : Option UInt64 :=
  match parseTarget ins with
  | some address => some address
  | none =>
    if isConditionalBranchMnemonic (Text.asciiLower ins.mnemonic) then some 0 else none

/-- Everywhere control can go after an instruction that does not return. A call
continues behind itself once the callee has returned. -/
def transfers (ins : PhysicalInstruction) : List Transfer :=
  if isReturn ins then []
  else if isCall ins then
    match parseTarget ins with
    | some address => [.call address, .next (endAddress ins)]
    | none => [.anywhere]
  else if isBranch ins then
    let takenPart : Transfer := match branchTarget ins with
      | some address => .taken address
      | none => .anywhere
    if unconditionalMnemonics.contains (Text.asciiLower ins.mnemonic) then [takenPart]
    else [takenPart, .next (endAddress ins)]
  else [.next (endAddress ins)]

/-- The transfer goes to the first byte of an instruction of the list. A branch
to the printed address zero is allowed: relocatable objects print it for a target
the linker fills in. -/
def Transfer.Inside (instructions : List PhysicalInstruction) : Transfer → Prop
  | .next address | .call address => Lands instructions address
  | .taken target => target = 0 ∨ Lands instructions target
  | .anywhere => False

/-- No instruction of the list transfers control out of it, returns aside. -/
def StaysInside (instructions : List PhysicalInstruction) : Prop :=
  ∀ ins ∈ instructions, ∀ transfer ∈ transfers ins, transfer.Inside instructions

/-- A call or a branch that no group of the instruction announces. -/
def Unannounced (ins : PhysicalInstruction) : Prop :=
  ins.groups.contains "call" = false ∧ ins.groups.contains "jump" = false ∧
    (isCall ins = true ∨ isBranch ins = true)

/-- The transfers that are left open by looking only at announced branches: direct
calls, the way on to the next instruction, and unannounced calls and branches. -/
structure OpenTransfersInside (instructions : List PhysicalInstruction) : Prop where
  calls : ∀ ins ∈ instructions, ∀ target, .call target ∈ transfers ins →
    Lands instructions target
  continues : ∀ ins ∈ instructions, ∀ address, .next address ∈ transfers ins →
    Lands instructions address
  unannounced : ∀ ins ∈ instructions, Unannounced ins → ∀ transfer ∈ transfers ins,
    transfer.Inside instructions

/-- One list of instructions decoded without a gap. -/
def Contiguous : List PhysicalInstruction → Prop
  | first :: second :: rest => second.address = endAddress first ∧ Contiguous (second :: rest)
  | _ => True

/-- The way on from an instruction leads to its end. -/
theorem next_eq_endAddress (ins : PhysicalInstruction) (address : UInt64)
    (next : .next address ∈ transfers ins) : address = endAddress ins := by
  unfold transfers at next
  split at next
  · cases next
  split at next
  · cases parsed : parseTarget ins <;> simp [parsed] at next
    exact next
  split at next
  · cases printed : branchTarget ins <;> simp only [printed] at next <;> split at next <;>
      simp at next <;> exact next
  · simpa using next

/-- Within a section decoded without a gap only the last instruction can leave
the section by going on. -/
theorem contiguous_continues (part : List PhysicalInstruction) (gapless : Contiguous part)
    (ins : PhysicalInstruction) (member : ins ∈ part) :
    part.getLast? = some ins ∨ Lands part (endAddress ins) := by
  induction part with
  | nil => cases member
  | cons first rest inductionHypothesis =>
    cases rest with
    | nil =>
      obtain rfl := List.mem_singleton.mp member
      exact Or.inl rfl
    | cons second others =>
      obtain ⟨adjacent, gaplessRest⟩ := gapless
      rcases List.mem_cons.mp member with rfl | later
      · exact Or.inr ⟨second, by simp, adjacent⟩
      · rcases inductionHypothesis gaplessRest later with last | ⟨found, inside, starts⟩
        · exact Or.inl (by simpa using last)
        · exact Or.inr ⟨found, List.mem_cons_of_mem _ inside, starts⟩

/-- For sections decoded without gaps, going on stays inside when it does so from
the last instruction of each section. -/
theorem continues_of_sections (sections : List (List PhysicalInstruction))
    (gapless : ∀ part ∈ sections, Contiguous part)
    (lasts : ∀ part ∈ sections, ∀ ins, part.getLast? = some ins →
      ∀ address, .next address ∈ transfers ins → Lands sections.flatten address) :
    ∀ ins ∈ sections.flatten, ∀ address, .next address ∈ transfers ins →
      Lands sections.flatten address := by
  intro ins member address next
  obtain ⟨part, inside, own⟩ := List.mem_flatten.mp member
  rcases contiguous_continues part (gapless part inside) ins own with last | ⟨found, there, start⟩
  · exact lasts part inside ins last address next
  · rw [next_eq_endAddress ins address next]
    exact ⟨found, List.mem_flatten.mpr ⟨part, inside, there⟩, start⟩

end Semasm.Cfg
