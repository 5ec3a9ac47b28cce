import Mathlib.Data.List.Induction
import Semasm.X86.Accesses
import Semasm.X86.Abi.Verdict

/-!
# Accesses below the stack pointer

The walk looks for memory operands below the stack pointer in instructions that load or
store: moves, extensions, pushes and pops, and also the computation of an address, which
accesses nothing. Arithmetic, comparisons, selections, jumps and calls are not looked at.
A body is flagged rightly when one of the former accesses such an operand, or when the
omissions and the address computations happen to cancel out.
-/

namespace Semasm.X86.Abi

/-- The address is a view of the stack pointer and a displacement. -/
def AtStack (operand : MemOperand) : Prop :=
  operand.base.map Register.storage = some (.gp .rsp) ∧ operand.index = none

/-- The operands a body must not access: the red zone, and everything below the stack
pointer where there is none. -/
def Convention.Below (convention : Convention) (operand : MemOperand) : Prop :=
  AtStack operand ∧ operand.disp < 0 ∧ (convention = .sysV → -128 ≤ operand.disp)

/-- Where such accesses are refused: in a function that calls, or everywhere. -/
def Convention.Refuses (convention : Convention) (body : List LoweredInstr) : Prop :=
  match convention with
  | .sysV => ∃ instr ∈ body, instr.mnemonic = "call"
  | .win64 => True

/-- The code of the finding. -/
def Convention.belowCode : Convention → String
  | .sysV => "RED_ZONE_NON_LEAF"
  | .win64 => "RED_ZONE_NOT_ALLOWED"

/-- The checker flags an access below the stack pointer. -/
def Convention.Flags (convention : Convention) (body : List LoweredInstr) : Prop :=
  ∃ finding ∈ convention.findings body, finding.code = convention.belowCode

/-- The flag is given exactly to the bodies that access what they must not. -/
def Convention.FlagsRightly (convention : Convention) (body : List LoweredInstr) : Prop :=
  convention.Flags body ↔ convention.Refuses body ∧
    ∃ instr ∈ body, ∃ operand, instr.Touches operand ∧ convention.Below operand

/-- The walk looks at the memory operands of the instruction. -/
def LookedAt (instr : LoweredInstr) : Prop :=
  (instr.kind = .store ∨ instr.kind = .load) ∧ isMovRspFromRbp instr = false

/-- The instruction names a memory operand it does not access. -/
def NamesOnly (instr : LoweredInstr) (operand : MemOperand) : Prop :=
  Operand.mem operand ∈ instr.operands ∧ ¬ instr.Touches operand

/-- Some instruction the walk looks at accesses what the body must not. -/
def Convention.Seen (convention : Convention) (body : List LoweredInstr) : Prop :=
  ∃ instr ∈ body, LookedAt instr ∧ ∃ operand, instr.Touches operand ∧ convention.Below operand

/-- Some instruction the walk does not look at accesses what the body must not. -/
def Convention.Missed (convention : Convention) (body : List LoweredInstr) : Prop :=
  ∃ instr ∈ body, ¬ LookedAt instr ∧ ∃ operand, instr.Touches operand ∧ convention.Below operand

/-- Some instruction the walk looks at names, and does not access, such an operand. -/
def Convention.Mistaken (convention : Convention) (body : List LoweredInstr) : Prop :=
  ∃ instr ∈ body, LookedAt instr ∧ ∃ operand, NamesOnly instr operand ∧ convention.Below operand

/-! ## The lowest displacement of the walk -/

/-- The lowest displacement is negative if an instruction adds a negative one. -/
theorem lowest_neg_iff (rules : Rules) (body : List LoweredInstr) :
    (walk rules body).lowest < 0 ↔ ∃ instr ∈ body, isMovRspFromRbp instr = false ∧
      ∃ disp, (step rules instr).belowRsp = some disp ∧ disp < 0 := by
  induction body using List.reverseRecOn with
  | nil => simp [walk, Walk.start]
  | append_singleton body instr inductionHypothesis =>
    have turn : (walk rules (body ++ [instr])).lowest < 0 ↔ (walk rules body).lowest < 0 ∨
        (isMovRspFromRbp instr = false ∧
          ∃ disp, (step rules instr).belowRsp = some disp ∧ disp < 0) := by
      rw [walk_append, Walk.visit]
      cases isMovRspFromRbp instr with
      | true => simp
      | false =>
        cases seen : (step rules instr).belowRsp with
        | none => simp [seen]
        | some disp =>
          simp only [Bool.false_eq_true, if_false, seen, true_and, Option.some.injEq,
            exists_eq_left']
          split
          next lower =>
            constructor
            · exact .inr
            · rintro (before | own)
              · exact Int64.lt_trans lower before
              · exact own
          next higher =>
            have least := Int64.not_lt.mp higher
            constructor
            · exact .inl
            · rintro (before | own)
              · exact before
              · exact Int64.lt_of_le_of_lt least own
    rw [turn, inductionHypothesis]
    simp [or_and_right, exists_or]

/-- A body is no leaf if it calls. -/
theorem isLeaf_iff (rules : Rules) (body : List LoweredInstr) :
    (walk rules body).isLeaf = false ↔ ∃ instr ∈ body, instr.mnemonic = "call" := by
  induction body using List.reverseRecOn with
  | nil => simp [walk, Walk.start]
  | append_singleton body instr inductionHypothesis =>
    have turn : (walk rules (body ++ [instr])).isLeaf = false ↔
        (walk rules body).isLeaf = false ∨ instr.mnemonic = "call" := by
      rw [walk_append, Walk.visit]
      cases restores : isMovRspFromRbp instr with
      | true =>
        have other : instr.mnemonic ≠ "call" := by
          intro calls
          simp [isMovRspFromRbp, calls] at restores
        simp [other]
      | false => simp [step, imp_iff_not_or, or_comm]
    rw [turn, inductionHypothesis]
    simp [or_and_right, exists_or]

/-- The displacement that counts of an operand. -/
def countedDisp (rules : Rules) (operand : Operand) : Option Int64 :=
  match operand with
  | .mem memory => rules.belowRsp memory
  | _ => none

/-- The last entry made of one item at most. -/
theorem getLast_filterMap {α β : Type} (entryOf : α → Option β) (items : List α)
    (single : items.length ≤ 1) (entry : β) :
    (items.filterMap entryOf).getLast? = some entry ↔ entry ∈ items.filterMap entryOf := by
  cases items with
  | nil => simp
  | cons item rest =>
    have none : rest = [] := List.eq_nil_of_length_eq_zero (by simpa using single)
    subst none
    cases made : entryOf item with
    | none => simp [made]
    | some own => simp [made, eq_comm]

/-- What the walk sees of an instruction with one memory operand at most. -/
theorem belowRsp_iff (rules : Rules) (instr : LoweredInstr)
    (single : (instr.operands.filter Operand.isMem).length ≤ 1) (disp : Int64) :
    (step rules instr).belowRsp = some disp ↔ (instr.kind = .store ∨ instr.kind = .load) ∧
      ∃ operand, Operand.mem operand ∈ instr.operands ∧ rules.belowRsp operand = some disp := by
  have counted : (step rules instr).belowRsp = if instr.kind = .store ∨ instr.kind = .load then
      (instr.operands.filterMap (countedDisp rules)).getLast? else none := rfl
  have memories : instr.operands.filterMap (countedDisp rules) =
      (instr.operands.filter Operand.isMem).filterMap (countedDisp rules) := by
    rw [List.filterMap_filter]
    apply List.filterMap_congr
    intro operand _
    cases operand <;> rfl
  have last : (instr.operands.filterMap (countedDisp rules)).getLast? = some disp ↔
      disp ∈ instr.operands.filterMap (countedDisp rules) := by
    rw [memories]
    exact getLast_filterMap (countedDisp rules) _ single disp
  have listed : disp ∈ instr.operands.filterMap (countedDisp rules) ↔
      ∃ operand, Operand.mem operand ∈ instr.operands ∧ rules.belowRsp operand = some disp := by
    rw [List.mem_filterMap]
    constructor
    · rintro ⟨operand, member, own⟩
      cases operand with
      | reg register => cases own
      | imm value => cases own
      | mem memory => exact ⟨memory, member, own⟩
    · rintro ⟨memory, member, own⟩
      exact ⟨.mem memory, member, own⟩
  rw [counted, ← listed, ← last]
  split
  next looks => simp [looks]
  next skipped => simp [skipped]

/-- The displacements that count are those of the operands a body must not access. -/
theorem belowRsp_below (convention : Convention) (operand : MemOperand) :
    (∃ disp, convention.rules.belowRsp operand = some disp ∧ disp < 0) ↔
      convention.Below operand := by
  have atStack (base : Register) (named : operand.base = some base) :
      AtStack operand ↔ isRsp base = true ∧ operand.index.isNone = true := by
    simp [AtStack, named, isRsp]
  cases named : operand.base with
  | none =>
    have apart : ¬ AtStack operand := by simp [AtStack, named]
    cases convention with
    | sysV => simp [Convention.rules, SysV.rules, SysV.redZoneDisplacement, named, Convention.Below,
        apart]
    | win64 => simp [Convention.rules, Win64.rules, Win64.belowRspDisplacement, named,
        Convention.Below, apart]
  | some base =>
    rw [Convention.Below, atStack base named]
    cases convention with
    | sysV =>
      simp only [Convention.rules, SysV.rules, SysV.redZoneDisplacement, named, true_imp_iff]
      constructor
      · rintro ⟨disp, counted, negative⟩
        split at counted
        next bounds =>
          cases counted
          exact ⟨⟨bounds.1, bounds.2.1⟩, negative, bounds.2.2.2⟩
        next => cases counted
      · rintro ⟨⟨stack, plain⟩, negative, near⟩
        exact ⟨operand.disp, if_pos ⟨stack, plain, Int64.le_of_lt negative, near⟩, negative⟩
    | win64 =>
      simp only [Convention.rules, Win64.rules, Win64.belowRspDisplacement, named]
      constructor
      · rintro ⟨disp, counted, negative⟩
        split at counted
        next bounds =>
          cases counted
          exact ⟨⟨bounds.1, bounds.2.1⟩, negative, by simp⟩
        next => cases counted
      · rintro ⟨⟨stack, plain⟩, negative, _⟩
        exact ⟨operand.disp, if_pos ⟨stack, plain, negative⟩, negative⟩

/-! ## The codes of the findings -/

/-- The codes of the findings of a call. -/
theorem callFindings_codes (rules : Rules) (index : Nat) (state : StackState)
    (finding : AbiFinding) (member : finding ∈ callFindings rules index state) :
    finding.code ∈ ["STACK_ALIGN_CALL", "SHADOW_SPACE_MISSING", "STACK_BALANCE_RET"] := by
  unfold callFindings at member
  rcases List.mem_append.mp member with misaligned | homeless
  · split at misaligned
    · cases misaligned
    · rw [List.mem_singleton.mp misaligned]
      simp
  · split at homeless
    · cases homeless
    · split at homeless
      · rw [List.mem_singleton.mp homeless]
        simp
      · cases homeless

/-- The walk reports calls and returns only. -/
theorem walk_codes (rules : Rules) (body : List LoweredInstr) (finding : AbiFinding)
    (member : finding ∈ (walk rules body).findings) :
    finding.code ∈ ["STACK_ALIGN_CALL", "SHADOW_SPACE_MISSING", "STACK_BALANCE_RET"] := by
  induction body using List.reverseRecOn with
  | nil => cases member
  | append_singleton body instr inductionHypothesis =>
    rw [walk_append, Walk.visit] at member
    split at member
    · exact inductionHypothesis member
    · simp only [List.mem_append] at member
      rcases member with (before | called) | returned
      · exact inductionHypothesis before
      · split at called
        · exact callFindings_codes rules _ _ finding called
        · cases called
      · split at returned
        · unfold retFindings at returned
          split at returned
          · cases returned
          · rw [List.mem_singleton.mp returned]
            simp
        · cases returned

/-- The codes of the callee-saved scan. -/
theorem calleeSaved_codes (rules : Rules) (body : List LoweredInstr) (finding : AbiFinding)
    (member : finding ∈ checkCalleeSaved rules body) :
    finding.code ∈ ["CALLEE_SAVED_NOT_PRESERVED", "CALLEE_SAVED_NOT_RESTORED"] := by
  obtain ⟨cell, _, own⟩ := List.mem_flatMap.mp member
  rcases List.mem_append.mp own with unsaved | unrestored
  · split at unsaved
    · cases unsaved
    · rw [List.mem_singleton.mp unsaved]
      simp
  · split at unrestored
    · cases unrestored
    · rw [List.mem_singleton.mp unrestored]
      simp

/-- The code of the scan for addresses that cannot be encoded. -/
theorem ripIndex_codes (body : List LoweredInstr) (finding : AbiFinding)
    (member : finding ∈ checkRipIndex body) : finding.code = "RIP_INDEX" := by
  obtain ⟨⟨instr, index⟩, _, own⟩ := List.mem_flatMap.mp member
  obtain ⟨operand, _, made⟩ := List.mem_filterMap.mp own
  cases operand with
  | reg register => cases made
  | imm value => cases made
  | mem memory =>
    simp only [Option.ite_none_right_eq_some] at made
    rw [← Option.some.inj made.2]

/-- The code of the scan for volatile registers read after a call. -/
theorem callerSaved_codes (body : List LoweredInstr) (finding : AbiFinding)
    (member : finding ∈ SysV.checkCallerSaved body) : finding.code = "CALLER_SAVED" := by
  have reads (index : Nat) (cells : List Gp) (watch : SysV.Watch)
      (before : ∀ finding ∈ watch.findings, finding.code = "CALLER_SAVED") :
      ∀ finding ∈ (cells.foldl (SysV.Watch.read index) watch).findings,
        finding.code = "CALLER_SAVED" := by
    induction cells generalizing watch with
    | nil => exact before
    | cons cell cells inductionHypothesis =>
      apply inductionHypothesis
      unfold SysV.Watch.read
      split
      · intro finding member
        rcases List.mem_append.mp member with earlier | own
        · exact before finding earlier
        · rw [List.mem_singleton.mp own]
      · exact before
  have writes (cells : List Gp) (watch : SysV.Watch) :
      (cells.foldl SysV.Watch.write watch).findings = watch.findings := by
    induction cells generalizing watch with
    | nil => rfl
    | cons cell cells inductionHypothesis =>
      rw [List.foldl_cons, inductionHypothesis]
      unfold SysV.Watch.write
      split <;> rfl
  have scan (entries : List (LoweredInstr × Nat)) (watch : SysV.Watch)
      (before : ∀ finding ∈ watch.findings, finding.code = "CALLER_SAVED") :
      ∀ finding ∈ (entries.foldl SysV.Watch.visit watch).findings,
        finding.code = "CALLER_SAVED" := by
    induction entries generalizing watch with
    | nil => exact before
    | cons entry entries inductionHypothesis =>
      apply inductionHypothesis
      simp only [SysV.Watch.visit]
      split
      · exact before
      · rw [writes]
        exact reads entry.2 _ watch before
  exact scan body.zipIdx _ (by simp) finding member

/-- The flag is given when the walk saw a negative displacement, and a call where only
those functions are refused. -/
theorem flags_iff (convention : Convention) (body : List LoweredInstr) :
    convention.Flags body ↔
      convention.Refuses body ∧ (walk convention.rules body).lowest < 0 := by
  have calleeSaved (finding : AbiFinding)
      (member : finding ∈ checkCalleeSaved convention.rules body) :
      finding.code ≠ convention.belowCode := by
    have codes := calleeSaved_codes _ _ _ member
    intro same
    rw [same] at codes
    cases convention <;> simp [Convention.belowCode] at codes
  have walked (finding : AbiFinding) (member : finding ∈ (walk convention.rules body).findings) :
      finding.code ≠ convention.belowCode := by
    have codes := walk_codes _ _ _ member
    intro same
    rw [same] at codes
    cases convention <;> simp [Convention.belowCode] at codes
  have rip (finding : AbiFinding) (member : finding ∈ checkRipIndex body) :
      finding.code ≠ convention.belowCode := by
    rw [ripIndex_codes _ _ member]
    cases convention <;> simp [Convention.belowCode]
  have callerSaved (finding : AbiFinding) (member : finding ∈ SysV.checkCallerSaved body) :
      finding.code ≠ Convention.sysV.belowCode := by
    rw [callerSaved_codes _ _ member]
    simp [Convention.belowCode]
  cases convention with
  | sysV =>
    have calls := isLeaf_iff SysV.rules body
    simp only [Convention.Refuses, ← calls, Convention.rules]
    constructor
    · rintro ⟨finding, member, code⟩
      simp only [Convention.findings, SysV.analyze, List.mem_append] at member
      rcases member with (((own | own) | own) | own) | flagged
      · exact absurd code (walked finding own)
      · exact absurd code (calleeSaved finding own)
      · exact absurd code (rip finding own)
      · exact absurd code (callerSaved finding own)
      · split at flagged
        next given => exact ⟨by simpa using given.1, given.2⟩
        next => cases flagged
    · rintro ⟨leaf, lower⟩
      simp only [Convention.Flags, Convention.findings, SysV.analyze, List.mem_append, leaf, lower,
        Bool.not_false, and_self, if_true]
      exact ⟨_, .inr (List.mem_singleton_self _), rfl⟩
  | win64 =>
    simp only [Convention.Refuses, true_and, Convention.rules]
    constructor
    · rintro ⟨finding, member, code⟩
      simp only [Convention.findings, Win64.analyze, List.mem_append] at member
      rcases member with ((own | own) | own) | flagged
      · exact absurd code (walked finding own)
      · exact absurd code (calleeSaved finding own)
      · exact absurd code (rip finding own)
      · split at flagged
        next given => exact given
        next => cases flagged
    · intro lower
      simp only [Convention.Flags, Convention.findings, Win64.analyze, List.mem_append, lower,
        if_true]
      exact ⟨_, .inr (List.mem_singleton_self _), rfl⟩

/-- The walk saw a negative displacement if an instruction it looks at accesses such an
operand or only names one. -/
theorem lowest_below (convention : Convention) (body : List LoweredInstr)
    (single : ∀ instr ∈ body, (instr.operands.filter Operand.isMem).length ≤ 1) :
    (walk convention.rules body).lowest < 0 ↔ convention.Seen body ∨ convention.Mistaken body := by
  rw [lowest_neg_iff]
  constructor
  · rintro ⟨instr, member, kept, disp, seen, negative⟩
    obtain ⟨looks, operand, listed, counted⟩ :=
      (belowRsp_iff convention.rules instr (single instr member) disp).mp seen
    have below := (belowRsp_below convention operand).mp ⟨disp, counted, negative⟩
    by_cases touches : instr.Touches operand
    · exact .inl ⟨instr, member, ⟨looks, kept⟩, operand, touches, below⟩
    · exact .inr ⟨instr, member, ⟨looks, kept⟩, operand, ⟨listed, touches⟩, below⟩
  · have named (instr : LoweredInstr) (member : instr ∈ body) (looked : LookedAt instr)
        (operand : MemOperand) (listed : Operand.mem operand ∈ instr.operands)
        (below : convention.Below operand) : ∃ instr ∈ body, isMovRspFromRbp instr = false ∧
          ∃ disp, (step convention.rules instr).belowRsp = some disp ∧ disp < 0 := by
      obtain ⟨disp, counted, negative⟩ := (belowRsp_below convention operand).mpr below
      have seen := (belowRsp_iff convention.rules instr (single instr member) disp).mpr
        ⟨looked.1, operand, listed, counted⟩
      exact ⟨instr, member, looked.2, disp, seen, negative⟩
    rintro (⟨instr, member, looked, operand, touches, below⟩ |
      ⟨instr, member, looked, operand, ⟨listed, _⟩, below⟩)
    · exact named instr member looked operand touches.listed below
    · exact named instr member looked operand listed below

/-- A checker flags a body rightly exactly when nothing there is refused, when an
instruction it looks at accesses what the body must not, or when another instruction does
exactly if one it looks at only names such an operand.

    Proof: the flag is given for the lowest displacement of the walk, and that comes from
the instructions it looks at. -/
theorem flags_rightly_iff (convention : Convention) (body : List LoweredInstr)
    (single : ∀ instr ∈ body, (instr.operands.filter Operand.isMem).length ≤ 1) :
    convention.FlagsRightly body ↔ (convention.Refuses body →
      convention.Seen body ∨ (convention.Missed body ↔ convention.Mistaken body)) := by
  have accessed : (∃ instr ∈ body, ∃ operand, instr.Touches operand ∧ convention.Below operand) ↔
      convention.Seen body ∨ convention.Missed body := by
    constructor
    · rintro ⟨instr, member, access⟩
      by_cases looked : LookedAt instr
      · exact .inl ⟨instr, member, looked, access⟩
      · exact .inr ⟨instr, member, looked, access⟩
    · rintro (⟨instr, member, _, access⟩ | ⟨instr, member, _, access⟩)
      · exact ⟨instr, member, access⟩
      · exact ⟨instr, member, access⟩
  rw [Convention.FlagsRightly, flags_iff, lowest_below convention body single, accessed]
  tauto

/-- `[rsp - 8]`. -/
def redZoneSlot : MemOperand := ⟨some Gp.rsp.full, none, 1, -8, .b64⟩

/-- A function that calls and adds to a place in the red zone. -/
def addBelowStack : List LoweredInstr :=
  [⟨"sub", .binary, .b64, none, [.reg Gp.rsp.full, .imm 40]⟩,
   ⟨"call", .call, .b64, none, [.imm 4096]⟩,
   ⟨"add", .binary, .b64, none, [.mem redZoneSlot, .imm 1]⟩,
   ⟨"add", .binary, .b64, none, [.reg Gp.rsp.full, .imm 40]⟩,
   ⟨"ret", .ret, .b64, none, []⟩]

/-- The addition is flagged by neither checker. -/
theorem add_below_stack_unflagged :
    (∀ instr ∈ addBelowStack, instr.op ≠ none) ∧
      (SysV.analyze addBelowStack).findings = [] ∧ (Win64.analyze addBelowStack).findings = [] ∧
      ¬ Convention.sysV.FlagsRightly addBelowStack ∧
      ¬ Convention.win64.FlagsRightly addBelowStack := by
  have access : ∃ instr ∈ addBelowStack, instr.Touches redZoneSlot :=
    ⟨_, .tail _ (.tail _ (.head _)), .alu .add, .store, by decide, by decide⟩
  obtain ⟨instr, member, touches⟩ := access
  have below (convention : Convention) : convention.Below redZoneSlot :=
    ⟨⟨rfl, rfl⟩, by decide, fun _ => by decide⟩
  have sysV : (SysV.analyze addBelowStack).findings = [] := by decide +kernel
  have win64 : (Win64.analyze addBelowStack).findings = [] := by decide +kernel
  refine ⟨by decide, sysV, win64, fun right => ?_, fun right => ?_⟩
  · obtain ⟨finding, given, _⟩ := right.mpr
      ⟨⟨_, .tail _ (.head _), rfl⟩, instr, member, redZoneSlot, touches, below .sysV⟩
    rw [Convention.findings, sysV] at given
    cases given
  · obtain ⟨finding, given, _⟩ := right.mpr
      ⟨trivial, instr, member, redZoneSlot, touches, below .win64⟩
    rw [Convention.findings, win64] at given
    cases given

/-- A store to the same place. -/
def storeInRedZone : List LoweredInstr :=
  [⟨"mov", .store, .b64, none, [.mem redZoneSlot, .reg Gp.rax.full]⟩]

/-- The store is flagged where there is no red zone. -/
theorem store_below_stack_flagged : Convention.win64.FlagsRightly storeInRedZone := by
  apply (flags_rightly_iff .win64 storeInRedZone (by decide)).mpr
  intro _
  exact .inl ⟨_, .head _, ⟨.inl rfl, by decide⟩, redZoneSlot,
    ⟨.move, .store, by decide, by decide⟩, ⟨rfl, rfl⟩, by decide, fun _ => by decide⟩

end Semasm.X86.Abi
