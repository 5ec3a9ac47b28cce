import Semasm.Machine.Abi
import Mathlib.Data.List.Induction
import Mathlib.Tactic.SplitIfs

/-!
# What the load-store checkers say

The findings of a body, by the instruction each is about, in terms of the stack delta
tracked before it; what a clean verdict means; and what a right delta says of the stack
pointer.
-/

namespace Semasm.Machine.Abi

open Library Displacement
open X86.Abi (AbiFinding)

namespace Checker

variable {Instr Gp : Type} [DecidableEq Gp] (checker : Checker Instr Gp)

/-- The change of the tracked delta by an instruction. -/
def change (instr : Instr) : Int64 := (checker.step instr).spChange

/-- The walk over one more instruction. -/
theorem walk_append (instrs : List Instr) (instr : Instr) :
    checker.walk (instrs ++ [instr]) = checker.visit (checker.walk instrs) instr instrs.length := by
  simp [walk, List.zipIdx_append]

omit [DecidableEq Gp] in
/-- The delta before a position does not depend on what comes behind it. -/
theorem tracked_append (instrs rest : List Instr) (position : Nat)
    (inside : position ≤ instrs.length) :
    tracked checker.change (instrs ++ rest) position = tracked checker.change instrs position := by
  simp only [tracked, StraightLine.accAt, List.take_append_of_le_length inside]

/-- The walk tracks the sum of the changes. -/
theorem walk_delta (instrs : List Instr) :
    (checker.walk instrs).spDelta = tracked checker.change instrs instrs.length := by
  induction instrs using List.reverseRecOn with
  | nil => rfl
  | append_singleton front instr inductionHypothesis =>
    have last : (front ++ [instr])[front.length]? = some instr := by simp
    rw [walk_append, List.length_append, List.length_singleton, tracked_succ _ _ _ instr last,
      tracked_append checker front [instr] front.length (Nat.le_refl _), ← inductionHypothesis]
    rfl

/-- The findings about one instruction. -/
def turnFindings (delta : Int64) (index : Nat) (instr : Instr) : List AbiFinding :=
  (if (checker.step instr).isCall then checker.callFindings index (StackState.of delta) else []) ++
    (if (checker.step instr).isRet then retFindings index delta else [])

/-- The findings of the walk are those of its instructions. -/
theorem mem_walk_findings_iff (instrs : List Instr) (finding : AbiFinding) :
    finding ∈ (checker.walk instrs).findings ↔
      ∃ position instr, instrs[position]? = some instr ∧
        finding ∈ checker.turnFindings (tracked checker.change instrs position) position instr := by
  induction instrs using List.reverseRecOn with
  | nil => simp [walk, Walk.start]
  | append_singleton front instr inductionHypothesis =>
    have turn : (checker.walk (front ++ [instr])).findings = (checker.walk front).findings ++
        checker.turnFindings (checker.walk front).spDelta front.length instr := by
      rw [walk_append, visit, turnFindings, List.append_assoc]
    rw [turn, List.mem_append, inductionHypothesis, walk_delta]
    constructor
    · rintro (⟨position, other, found, member⟩ | member)
      · have inside := (List.getElem?_eq_some_iff.mp found).1
        refine ⟨position, other, ?_, ?_⟩
        · rw [List.getElem?_append_left inside, found]
        · rwa [tracked_append _ _ _ _ (Nat.le_of_lt inside)]
      · refine ⟨front.length, instr, by simp, ?_⟩
        rwa [tracked_append _ _ _ _ (Nat.le_refl _)]
    · rintro ⟨position, other, found, member⟩
      by_cases inside : position < front.length
      · rw [List.getElem?_append_left inside] at found
        rw [tracked_append _ _ _ _ (Nat.le_of_lt inside)] at member
        exact Or.inl ⟨position, other, found, member⟩
      · have length := (List.getElem?_eq_some_iff.mp found).1
        rw [List.length_append, List.length_singleton] at length
        have last : position = front.length := by omega
        subst last
        have same : instr = other := by simpa using found
        rw [tracked_append _ _ _ _ (Nat.le_refl _), ← same] at member
        exact Or.inr member

/-- The walk ends as that of a leaf when it meets no call. -/
theorem walk_isLeaf (instrs : List Instr) :
    (checker.walk instrs).isLeaf = instrs.all (fun instr => !(checker.step instr).isCall) := by
  induction instrs using List.reverseRecOn with
  | nil => rfl
  | append_singleton front instr inductionHypothesis =>
    simp [walk_append, visit, inductionHypothesis]

/-- The return address counts as saved when some instruction stores it on the stack. -/
theorem walk_linkEverSaved (instrs : List Instr) :
    (checker.walk instrs).linkEverSaved =
      instrs.any (fun instr => (checker.spStoreTargets instr).contains checker.link) := by
  induction instrs using List.reverseRecOn with
  | nil => rfl
  | append_singleton front instr inductionHypothesis =>
    simp [walk_append, visit, inductionHypothesis]

/-- Listing registers once keeps them. -/
theorem mem_foldl_addOnce (cells out : List Gp) (cell : Gp) :
    cell ∈ cells.foldl addOnce out ↔ cell ∈ out ∨ cell ∈ cells := by
  induction cells generalizing out with
  | nil => simp
  | cons head rest inductionHypothesis =>
    rw [List.foldl_cons, inductionHypothesis, addOnce, List.mem_cons]
    split_ifs with listed
    · constructor
      · exact fun member => member.imp_right Or.inr
      · rintro (member | rfl | member)
        · exact Or.inl member
        · exact Or.inl listed
        · exact Or.inr member
    · rw [List.mem_append, List.mem_singleton, or_assoc]

/-- The registers that are checked are the nonvolatile ones that an instruction names. -/
theorem mem_writtenNonvolatile (instrs : List Instr) (cell : Gp) :
    cell ∈ checker.writtenNonvolatile instrs ↔
      (∃ instr ∈ instrs, cell ∈ checker.named instr) ∧ checker.nonvolatile cell = true := by
  rw [writtenNonvolatile, mem_foldl_addOnce, List.mem_filter, List.mem_flatMap]
  simp

/-- The first run of stores through the stack pointer saves its registers. -/
theorem mem_prologueSaved (before saves rest : List Instr)
    (quiet : ∀ instr ∈ before, checker.spStoreTargets instr = [])
    (stores : ∀ instr ∈ saves, checker.spStoreTargets instr ≠ []) (instr : Instr)
    (member : instr ∈ saves) (cell : Gp) (stored : cell ∈ checker.spStoreTargets instr) :
    cell ∈ checker.prologueSaved (before ++ (saves ++ rest)) := by
  have dropped : (before ++ (saves ++ rest)).dropWhile
      (fun instr => !(!(checker.spStoreTargets instr).isEmpty)) = saves ++ rest := by
    rw [List.dropWhile_append_of_pos (by simpa using quiet)]
    cases saves with
    | nil => cases member
    | cons first more =>
      have nonempty := stores first List.mem_cons_self
      rw [List.cons_append, List.dropWhile_cons_of_neg (by simpa using nonempty)]
  simp only [prologueSaved, dropped]
  rw [List.takeWhile_append_of_pos (by simpa using stores), mem_foldl_addOnce, List.mem_flatMap]
  exact Or.inr ⟨instr, List.mem_append_left _ member, stored⟩

/-- The loads through the stack pointer in an unbroken epilogue restore their registers. -/
theorem mem_epilogueRestored (front epilogue : List Instr)
    (unbroken : ∀ instr ∈ epilogue, checker.inEpilogue instr = true) (instr : Instr)
    (member : instr ∈ epilogue) (cell : Gp) (loaded : cell ∈ checker.spLoadTargets instr) :
    cell ∈ checker.epilogueRestored (front ++ epilogue) := by
  rw [epilogueRestored, List.reverse_append,
    List.takeWhile_append_of_pos (by simpa using unbroken), mem_foldl_addOnce, List.mem_flatMap]
  exact Or.inr ⟨instr, List.mem_append_left _ (List.mem_reverse.mpr member), loaded⟩

/-- What a clean verdict says of a body. -/
structure CleanBody (instrs : List Instr) : Prop where
  /-- At every call the tracked delta is aligned. -/
  call : ∀ position instr, instrs[position]? = some instr → (checker.step instr).isCall = true →
    (StackState.of (tracked checker.change instrs position)).isAligned = true
  /-- At every return the tracked delta is zero. -/
  ret : ∀ position instr, instrs[position]? = some instr → (checker.step instr).isRet = true →
    tracked checker.change instrs position = 0
  /-- Every nonvolatile register that is named is saved and restored. -/
  preserved : ∀ cell ∈ checker.writtenNonvolatile instrs,
    cell ∈ checker.prologueSaved instrs ∧ cell ∈ checker.epilogueRestored instrs
  /-- With a call, the return address is saved if its register is named. -/
  linked : (∃ instr ∈ instrs, (checker.step instr).isCall = true) →
    (∃ instr ∈ instrs, checker.link ∈ checker.named instr) →
    ∃ instr ∈ instrs, checker.link ∈ checker.spStoreTargets instr

omit [DecidableEq Gp] in
theorem callFindings_eq_nil_iff (index : Nat) (state : StackState) :
    checker.callFindings index state = [] ↔ state.isAligned = true := by
  unfold callFindings
  split_ifs with aligned <;> simp [aligned]

theorem retFindings_eq_nil_iff (index : Nat) (delta : Int64) :
    retFindings index delta = [] ↔ delta = 0 := by
  unfold retFindings
  split_ifs with zero <;> simp [zero]

theorem checkCalleeSaved_eq_nil_iff (instrs : List Instr) :
    checker.checkCalleeSaved instrs = [] ↔ ∀ cell ∈ checker.writtenNonvolatile instrs,
      cell ∈ checker.prologueSaved instrs ∧ cell ∈ checker.epilogueRestored instrs := by
  unfold checkCalleeSaved
  rw [List.flatMap_eq_nil_iff]
  apply forall₂_congr
  intro cell _
  by_cases saved : cell ∈ checker.prologueSaved instrs <;>
    by_cases restored : cell ∈ checker.epilogueRestored instrs <;> simp [saved, restored]

/-- The walk finds nothing when calls are aligned and returns are balanced. -/
theorem walk_findings_eq_nil_iff (instrs : List Instr) :
    (checker.walk instrs).findings = [] ↔
      ∀ position instr, instrs[position]? = some instr →
        ((checker.step instr).isCall = true →
          (StackState.of (tracked checker.change instrs position)).isAligned = true) ∧
        ((checker.step instr).isRet = true → tracked checker.change instrs position = 0) := by
  have turn (delta : Int64) (index : Nat) (instr : Instr) :
      checker.turnFindings delta index instr = [] ↔
        ((checker.step instr).isCall = true → (StackState.of delta).isAligned = true) ∧
        ((checker.step instr).isRet = true → delta = 0) := by
    unfold turnFindings
    rw [List.append_eq_nil_iff]
    cases (checker.step instr).isCall <;> cases (checker.step instr).isRet <;>
      simp [callFindings_eq_nil_iff, retFindings_eq_nil_iff]
  simp only [List.eq_nil_iff_forall_not_mem, mem_walk_findings_iff, not_exists, not_and]
  constructor
  · intro none position instr found
    rw [← turn _ position instr, List.eq_nil_iff_forall_not_mem]
    exact fun finding => none finding position instr found
  · intro fine finding position instr found
    have empty := (turn _ position instr).mpr (fine position instr found)
    simp [empty]

omit [DecidableEq Gp] in
/-- A finding about a call. -/
theorem mem_callFindings (index : Nat) (state : StackState) (finding : AbiFinding)
    (member : finding ∈ checker.callFindings index state) :
    finding.severity = .error ∧ finding.code ≠ "STACK_BALANCE_RET" := by
  unfold callFindings at member
  split_ifs at member
  · cases member
  · rw [List.mem_singleton.mp member]
    exact ⟨rfl, by simp⟩

/-- A finding about a return. -/
theorem mem_retFindings (index : Nat) (delta : Int64) (finding : AbiFinding)
    (member : finding ∈ retFindings index delta) :
    finding.severity = .error ∧ finding.index = some index ∧ delta ≠ 0 := by
  unfold retFindings at member
  split_ifs at member with zero
  · cases member
  · rw [List.mem_singleton.mp member]
    exact ⟨rfl, rfl, zero⟩

omit [DecidableEq Gp] in
/-- A finding about one instruction is about its call or its return. -/
theorem mem_turnFindings (delta : Int64) (index : Nat) (instr : Instr) (finding : AbiFinding)
    (member : finding ∈ checker.turnFindings delta index instr) :
    finding ∈ checker.callFindings index (StackState.of delta) ∨ finding ∈ retFindings index delta := by
  unfold turnFindings at member
  rcases List.mem_append.mp member with call | ret
  · split_ifs at call
    · exact Or.inl call
    · cases call
  · split_ifs at ret
    · exact Or.inr ret
    · cases ret

/-- A finding about a nonvolatile register names no instruction. -/
theorem mem_checkCalleeSaved (instrs : List Instr) (finding : AbiFinding)
    (member : finding ∈ checker.checkCalleeSaved instrs) :
    finding.severity = .error ∧ finding.index = none := by
  obtain ⟨cell, _, listed⟩ := List.mem_flatMap.mp member
  rcases List.mem_append.mp listed with unsaved | unrestored
  · split_ifs at unsaved
    · cases unsaved
    · rw [List.mem_singleton.mp unsaved]
      exact ⟨rfl, rfl⟩
  · split_ifs at unrestored
    · cases unrestored
    · rw [List.mem_singleton.mp unrestored]
      exact ⟨rfl, rfl⟩

/-- Where a finding comes from. -/
theorem mem_findings (instrs : List Instr) (finding : AbiFinding)
    (member : finding ∈ (checker.analyze instrs).findings) :
    (∃ position instr, instrs[position]? = some instr ∧
        finding ∈ checker.turnFindings (tracked checker.change instrs position) position instr) ∨
      finding ∈ checker.checkCalleeSaved instrs ∨ finding = checker.linkClobbered := by
  simp only [analyze, List.mem_append] at member
  obtain (walked | saved) | linked := member
  · exact Or.inl ((mem_walk_findings_iff checker instrs finding).mp walked)
  · exact Or.inr (Or.inl saved)
  · split_ifs at linked
    · exact Or.inr (Or.inr (List.mem_singleton.mp linked))
    · cases linked

/-- All findings are errors. -/
theorem severity_of_mem (fatal : checker.linkClobbered.severity = .error) (instrs : List Instr)
    (finding : AbiFinding) (member : finding ∈ (checker.analyze instrs).findings) :
    finding.severity = .error := by
  obtain ⟨position, instr, _, turn⟩ | saved | rfl := mem_findings checker instrs finding member
  · rcases mem_turnFindings checker _ _ _ _ turn with call | ret
    · exact (mem_callFindings checker _ _ _ call).1
    · exact (mem_retFindings _ _ _ ret).1
  · exact (mem_checkCalleeSaved checker instrs finding saved).1
  · exact fatal

/-- The verdict is clean exactly when the checks pass. -/
theorem isClean_iff (fatal : checker.linkClobbered.severity = .error) (instrs : List Instr) :
    (checker.analyze instrs).isClean = true ↔ checker.CleanBody instrs := by
  have empty : (checker.analyze instrs).isClean = true ↔ (checker.analyze instrs).findings = [] := by
    rw [List.eq_nil_iff_forall_not_mem, AbiReport.isClean, Bool.not_eq_true', List.any_eq_false]
    apply forall_congr'
    intro finding
    apply imp_congr_right
    intro member
    simp [severity_of_mem checker fatal instrs finding member]
  rw [empty]
  simp only [analyze, List.append_eq_nil_iff, walk_findings_eq_nil_iff, checkCalleeSaved_eq_nil_iff,
    walk_isLeaf, walk_linkEverSaved]
  have link : (if (!(instrs.all fun instr => !(checker.step instr).isCall) &&
        !(instrs.any fun instr => (checker.spStoreTargets instr).contains checker.link) &&
        (instrs.flatMap checker.named).contains checker.link) = true
      then [checker.linkClobbered] else []) = [] ↔
      ((∃ instr ∈ instrs, (checker.step instr).isCall = true) →
        (∃ instr ∈ instrs, checker.link ∈ checker.named instr) →
        ∃ instr ∈ instrs, checker.link ∈ checker.spStoreTargets instr) := by
    rw [ite_eq_right_iff]
    simp only [Bool.and_eq_true, Bool.not_eq_true', List.all_eq_false, List.any_eq_false,
      List.contains_iff_mem, List.mem_flatMap, List.cons_ne_nil, imp_false, Bool.not_eq_false]
    constructor
    · intro apart call named
      by_contra unsaved
      exact apart ⟨⟨call, fun instr member saved => unsaved ⟨instr, member, saved⟩⟩, named⟩
    · rintro saved ⟨⟨call, unsaved⟩, named⟩
      obtain ⟨instr, member, stored⟩ := saved call named
      exact unsaved instr member stored
  rw [link]
  constructor
  · rintro ⟨⟨walked, preserved⟩, linked⟩
    exact ⟨fun position instr found => (walked position instr found).1,
      fun position instr found => (walked position instr found).2, preserved, linked⟩
  · rintro ⟨call, ret, preserved, linked⟩
    exact ⟨⟨fun position instr found => ⟨call position instr found, ret position instr found⟩,
      preserved⟩, linked⟩

/-- A return is reported as unbalanced exactly when the delta tracked before it is not
zero. -/
theorem reported_iff (apart : checker.linkClobbered.index = none) (instrs : List Instr)
    (position : Nat) (instr : Instr) (found : instrs[position]? = some instr)
    (returns : (checker.step instr).isRet = true) :
    (∃ finding ∈ (checker.analyze instrs).findings,
        finding.code = "STACK_BALANCE_RET" ∧ finding.index = some position) ↔
      tracked checker.change instrs position ≠ 0 := by
  constructor
  · rintro ⟨finding, member, code, index⟩
    obtain ⟨place, other, there, turn⟩ | saved | rfl := mem_findings checker instrs finding member
    · rcases mem_turnFindings checker _ _ _ _ turn with call | ret
      · exact absurd code (mem_callFindings checker _ _ _ call).2
      · obtain ⟨_, here, unbalanced⟩ := mem_retFindings _ _ _ ret
        rw [here] at index
        cases index
        exact unbalanced
    · rw [(mem_checkCalleeSaved checker instrs finding saved).2] at index
      cases index
    · rw [apart] at index
      cases index
  · intro unbalanced
    obtain ⟨finding, listed, code, index⟩ : ∃ finding ∈
        retFindings position (tracked checker.change instrs position),
        finding.code = "STACK_BALANCE_RET" ∧ finding.index = some position := by
      simp [retFindings, unbalanced]
    refine ⟨finding, ?_, code, index⟩
    simp only [analyze, List.mem_append]
    refine Or.inl (Or.inl ((mem_walk_findings_iff checker instrs _).mpr
      ⟨position, instr, found, ?_⟩))
    rw [turnFindings, returns]
    exact List.mem_append_right _ listed

end Checker

/-- The residue of a delta that the walk computes. -/
theorem isAligned_iff (delta : Int64) :
    (StackState.of delta).isAligned = true ↔ delta.toBitVec.toNat % 16 = 0 := by
  simp only [StackState.isAligned, StackState.of, entrySpMod, stackAlign, beq_iff_eq,
    Int64.zero_add]
  have small := Int.tmod_lt_of_pos delta.toInt (show (0 : Int) < 16 by decide)
  have large := Int.lt_tmod_of_pos delta.toInt (show (0 : Int) < 16 by decide)
  have cut := Int.tmod_add_mul_tdiv delta.toInt 16
  have inner := Int64.toInt_mod delta 16
  have sum := Int64.toInt_add (delta % 16) 16
  have outer := Int64.toInt_mod (delta % 16 + 16) 16
  simp only [show (16 : Int64).toInt = 16 from rfl] at *
  rw [inner] at sum
  have bounded : (delta.toInt.tmod 16 + 16).bmod (2 ^ 64) = delta.toInt.tmod 16 + 16 := by
    apply Int.bmod_eq_of_le <;> omega
  rw [bounded] at sum
  rw [sum, Int.tmod_eq_emod_of_nonneg (by omega)] at outer
  rw [← Int64.toInt_inj, outer, show (0 : Int64).toInt = 0 from rfl]
  have word : delta.toInt = delta.toBitVec.toInt := rfl
  rw [BitVec.toInt_eq_toNat_cond] at word
  have bound := delta.toBitVec.isLt
  split at word <;> omega

/-- A stack pointer is aligned exactly when the way it has gone from an aligned entry is. -/
theorem aligned_iff_of_gone (entry pointer : BitVec 64) (delta : Int64)
    (gone : Gone entry pointer delta) (called : entry.toNat % 16 = 0) :
    (StackState.of delta).isAligned = true ↔ pointer.toNat % 16 = 0 := by
  rw [isAligned_iff, ← gone, BitVec.toNat_sub]
  have bound := pointer.isLt
  omega

/-- What a right delta says of the stack pointer at a position: in a clean body a return
finds the stack pointer of entry and a call finds it aligned when the caller called aligned,
and a return is reported as unbalanced exactly when it finds another stack pointer. -/
structure VerdictRight {Instr Gp : Type} [DecidableEq Gp] (checker : Checker Instr Gp)
    (instrs : List Instr) (entry pointer : BitVec 64) (position : Nat) : Prop where
  returned : (checker.analyze instrs).isClean = true → ∀ instr, instrs[position]? = some instr →
    (checker.step instr).isRet = true → pointer = entry
  aligned : (checker.analyze instrs).isClean = true → ∀ instr, instrs[position]? = some instr →
    (checker.step instr).isCall = true → entry.toNat % 16 = 0 → pointer.toNat % 16 = 0
  reported : ∀ instr, instrs[position]? = some instr → (checker.step instr).isRet = true →
    ((∃ finding ∈ (checker.analyze instrs).findings,
        finding.code = "STACK_BALANCE_RET" ∧ finding.index = some position) ↔ pointer ≠ entry)

/-- A delta that is right makes the verdict right. -/
theorem verdictRight_of_gone {Instr Gp : Type} [DecidableEq Gp] (checker : Checker Instr Gp)
    (fatal : checker.linkClobbered.severity = .error) (apart : checker.linkClobbered.index = none)
    (instrs : List Instr) (entry pointer : BitVec 64) (position : Nat)
    (gone : Gone entry pointer (tracked checker.change instrs position)) :
    VerdictRight checker instrs entry pointer position := by
  refine ⟨?_, ?_, ?_⟩
  · intro clean instr found returns
    have checked := (checker.isClean_iff fatal instrs).mp clean
    exact gone.zero_iff.mp (checked.ret position instr found returns)
  · intro clean instr found calls called
    have checked := (checker.isClean_iff fatal instrs).mp clean
    exact (aligned_iff_of_gone entry pointer _ gone called).mp
      (checked.call position instr found calls)
  · intro instr found returns
    rw [checker.reported_iff apart instrs position instr found returns]
    exact not_congr gone.zero_iff

end Semasm.Machine.Abi
