import Semasm.Riscv.StackWalk

/-!
# Stack frames under the LP64 checker

The usual function body reserves a frame, saves registers in it, works, restores the
registers and gives the frame back. The checker counts the offsets of the saves and of the
restores as if they moved the stack pointer, so it judges such a body clean only where
these displacements cancel.
-/

namespace Semasm.Riscv

open Library Displacement Machine Machine.Abi StraightLine Transitions

/-- `addi sp, sp, count`. -/
def adjust (count : Int64) : Instr where
  lowered := ⟨"addi", .binary, .b64, none, [.reg Gpr.sp.full, .reg Gpr.sp.full, .imm count]⟩
  decoded := "addi"
  spelled := (by decide : Spelled "addi" "addi")

/-- `sd register, offset(sp)`. -/
def save (slot : Gpr × Int64) : Instr where
  lowered := ⟨"sd", .store, .b64, none,
    [.reg slot.1.full, .mem ⟨some Gpr.sp.full, none, 1, slot.2, .b64⟩]⟩
  decoded := "sd"
  spelled := (by decide : Spelled "sd" "sd")

/-- `ld register, offset(sp)`. -/
def restore (slot : Gpr × Int64) : Instr where
  lowered := ⟨"ld", .load, .b64, none,
    [.reg slot.1.full, .mem ⟨some Gpr.sp.full, none, 1, slot.2, .b64⟩]⟩
  decoded := "ld"
  spelled := (by decide : Spelled "ld" "ld")

/-- `ret`. -/
def leave : Instr := ⟨⟨"ret", .ret, .b64, none, []⟩, "ret", by decide⟩

/-- The instructions of a frame between its adjustments. -/
def framed (saves : List (Gpr × Int64)) (middle : List Instr) (restores : List (Gpr × Int64)) :
    List Instr :=
  saves.map save ++ (middle ++ restores.map restore)

/-- A function body with a frame whose size is a multiple of sixteen. The middle neither
adjusts the stack pointer nor returns, every nonvolatile register that is named is saved
and restored, and the return address is saved if a call may overwrite it. -/
structure Frame where
  size : Int64
  saves : List (Gpr × Int64)
  middle : List Instr
  restores : List (Gpr × Int64)
  sixteen : size.toBitVec.toNat % 16 = 0
  fixed : ∀ instr ∈ middle, addedToSp instr.lowered = none
  open_ended : ∀ instr ∈ middle, instr.lowered.mnemonic ≠ "ret"
  preserved : ∀ cell, Abi.checker.nonvolatile cell = true →
    (∃ instr ∈ framed saves middle restores, cell ∈ Abi.named instr.lowered) →
    cell ∈ saves.map Prod.fst ∧ cell ∈ restores.map Prod.fst
  linked : (∃ instr ∈ middle, instr.lowered.mnemonic = "call") →
    (∃ instr ∈ framed saves middle restores, .ra ∈ Abi.named instr.lowered) →
    .ra ∈ saves.map Prod.fst

namespace Frame

variable (frame : Frame)

/-- The instructions between the adjustments. -/
def inner : List Instr := framed frame.saves frame.middle frame.restores

/-- The body of the function. -/
def code : List Instr := adjust (-frame.size) :: (frame.inner ++ [adjust frame.size, leave])

/-- The sum of the displacements that the accesses before a position show. -/
def shown (position : Nat) : Int64 :=
  tracked (fun instr => shownDisp instr.lowered) frame.inner position

/-- The displacements of the accesses through the stack pointer cancel, and are a multiple
of sixteen before every call. -/
structure Quiet : Prop where
  balanced : frame.shown frame.inner.length = 0
  aligned : ∀ position instr, frame.inner[position]? = some instr →
    instr.lowered.mnemonic = "call" → (frame.shown position).toBitVec.toNat % 16 = 0

/-- Nothing between the adjustments adjusts the stack pointer. -/
theorem inner_fixed (instr : Instr) (member : instr ∈ frame.inner) :
    addedToSp instr.lowered = none := by
  unfold inner framed at member
  simp only [List.mem_append, List.mem_map] at member
  obtain ⟨slot, _, rfl⟩ | member | ⟨slot, _, rfl⟩ := member
  · rfl
  · exact frame.fixed instr member
  · rfl

/-- Nothing between the adjustments returns. -/
theorem inner_open (instr : Instr) (member : instr ∈ frame.inner) :
    instr.lowered.mnemonic ≠ "ret" := by
  unfold inner framed at member
  simp only [List.mem_append, List.mem_map] at member
  obtain ⟨slot, _, rfl⟩ | member | ⟨slot, _, rfl⟩ := member
  · exact (by decide : "sd" ≠ "ret")
  · exact frame.open_ended instr member
  · exact (by decide : "ld" ≠ "ret")

/-- A call between the adjustments is in the middle. -/
theorem inner_call (instr : Instr) (member : instr ∈ frame.inner)
    (call : instr.lowered.mnemonic = "call") : instr ∈ frame.middle := by
  unfold inner framed at member
  simp only [List.mem_append, List.mem_map] at member
  obtain ⟨slot, _, rfl⟩ | member | ⟨slot, _, rfl⟩ := member
  · exact absurd call (by decide : "sd" ≠ "call")
  · exact member
  · exact absurd call (by decide : "ld" ≠ "call")

/-- The instructions of the body by their positions. -/
theorem code_cases (position : Nat) (instr : Instr) (found : frame.code[position]? = some instr) :
    (position = 0 ∧ instr = adjust (-frame.size)) ∨
      (∃ place, position = place + 1 ∧ frame.inner[place]? = some instr) ∨
      (position = frame.inner.length + 1 ∧ instr = adjust frame.size) ∨
      (position = frame.inner.length + 2 ∧ instr = leave) := by
  cases position with
  | zero =>
    cases found
    exact Or.inl ⟨rfl, rfl⟩
  | succ place =>
    refine Or.inr ?_
    rw [code, List.getElem?_cons_succ] at found
    by_cases inside : place < frame.inner.length
    · rw [List.getElem?_append_left inside] at found
      exact Or.inl ⟨place, rfl, found⟩
    · refine Or.inr ?_
      rw [List.getElem?_append_right (by omega)] at found
      have bound := (List.getElem?_eq_some_iff.mp found).1
      simp only [List.length_cons, List.length_nil] at bound
      have last : place = frame.inner.length ∨ place = frame.inner.length + 1 := by omega
      rcases last with rfl | rfl
      · rw [Nat.sub_self] at found
        cases found
        exact Or.inl ⟨rfl, rfl⟩
      · rw [Nat.add_sub_cancel_left] at found
        cases found
        exact Or.inr ⟨rfl, rfl⟩

theorem code_inner (place : Nat) (instr : Instr) (found : frame.inner[place]? = some instr) :
    frame.code[place + 1]? = some instr := by
  have inside := (List.getElem?_eq_some_iff.mp found).1
  rw [code, List.getElem?_cons_succ, List.getElem?_append_left inside, found]

/-- The delta tracked inside the frame is its size less the displacements shown. -/
theorem tracked_inner (place : Nat) (inside : place ≤ frame.inner.length) :
    tracked Instr.change frame.code (place + 1) = frame.size - frame.shown place := by
  have opening : tracked Instr.change [adjust (-frame.size)] 1 = frame.size := by
    show (0 : Int64) + Abi.spChange (adjust (-frame.size)).lowered = frame.size
    rw [spChange_eq, Int64.zero_add]
    exact Int64.neg_neg
  have split := tracked_append Instr.change [adjust (-frame.size)]
    (frame.inner ++ [adjust frame.size, leave]) place
  rw [List.length_singleton, opening] at split
  have whole : tracked Instr.change (frame.inner ++ [adjust frame.size, leave]) place =
      tracked Instr.change frame.inner place := by
    simp only [tracked, accAt, List.take_append_of_le_length inside]
  have opposite : tracked Instr.change frame.inner place = -frame.shown place := by
    apply tracked_neg
    intro instr member
    rw [Instr.change, spChange_eq, inner_fixed frame instr member, Option.getD_none]
  rw [code, Nat.add_comm, ← List.singleton_append, split, whole, opposite, Int64.sub_eq_add_neg]

/-- The delta tracked before the return is the sum of the displacements shown, taken
downwards. -/
theorem tracked_leave :
    tracked Instr.change frame.code (frame.inner.length + 2) = -frame.shown frame.inner.length := by
  have closing : frame.code[frame.inner.length + 1]? = some (adjust frame.size) := by
    rw [code, List.getElem?_cons_succ, List.getElem?_append_right (Nat.le_refl _), Nat.sub_self]
    rfl
  have change : (adjust frame.size).change = -frame.size := by
    rw [Instr.change, spChange_eq]
    rfl
  rw [tracked_succ _ _ _ _ closing, tracked_inner frame _ (Nat.le_refl _), change]
  apply Int64.toBitVec_inj.mp
  rw [Int64.toBitVec_add, Int64.toBitVec_sub, Int64.toBitVec_neg, Int64.toBitVec_neg]
  bv_omega

/-- Every nonvolatile register that the body names is saved and restored. -/
theorem saved_and_restored (cell : Gpr)
    (written : cell ∈ Abi.checker.writtenNonvolatile (frame.code.map Instr.lowered)) :
    cell ∈ Abi.checker.prologueSaved (frame.code.map Instr.lowered) ∧
      cell ∈ Abi.checker.epilogueRestored (frame.code.map Instr.lowered) := by
  obtain ⟨⟨lowered, listed, named⟩, nonvolatile⟩ :=
    (Abi.checker.mem_writtenNonvolatile _ cell).mp written
  obtain ⟨instr, member, rfl⟩ := List.mem_map.mp listed
  have notSp : cell ≠ .sp := by
    rintro rfl
    exact absurd nonvolatile (by decide)
  have inside : instr ∈ frame.inner := by
    simp only [code, List.mem_cons, List.mem_append, List.not_mem_nil, or_false] at member
    rcases member with rfl | inside | rfl | rfl
    · exact absurd named (by simp [adjust, Abi.checker, Abi.named, Abi.operandGpr, Gpr.full, notSp])
    · exact inside
    · exact absurd named (by simp [adjust, Abi.checker, Abi.named, Abi.operandGpr, Gpr.full, notSp])
    · exact absurd named (by simp [leave, Abi.checker, Abi.named])
  obtain ⟨isSaved, isRestored⟩ := frame.preserved cell nonvolatile ⟨instr, inside, named⟩
  obtain ⟨slot, slotSaved, rfl⟩ := List.mem_map.mp isSaved
  obtain ⟨other, otherRestored, same⟩ := List.mem_map.mp isRestored
  constructor
  · have shape : frame.code.map Instr.lowered = [(adjust (-frame.size)).lowered] ++
        ((frame.saves.map save).map Instr.lowered ++
          (frame.middle ++ frame.restores.map restore ++ [adjust frame.size, leave]).map
            Instr.lowered) := by
      simp [code, inner, framed]
    rw [shape]
    refine Abi.checker.mem_prologueSaved _ _ _ ?_ ?_ (save slot).lowered ?_ slot.1 ?_
    · intro before only
      rw [List.mem_singleton.mp only]
      rfl
    · intro stored listed
      obtain ⟨_, mapped, rfl⟩ := List.mem_map.mp listed
      obtain ⟨_, _, rfl⟩ := List.mem_map.mp mapped
      exact List.cons_ne_nil _ _
    · exact List.mem_map_of_mem (List.mem_map_of_mem slotSaved)
    · exact List.mem_singleton_self slot.1
  · have shape : frame.code.map Instr.lowered =
        ([adjust (-frame.size)] ++ frame.saves.map save ++ frame.middle).map Instr.lowered ++
          (frame.restores.map restore ++ [adjust frame.size, leave]).map Instr.lowered := by
      simp [code, inner, framed]
    rw [shape]
    refine Abi.checker.mem_epilogueRestored _ _ ?_ (restore other).lowered ?_ slot.1 ?_
    · intro lowered listed
      obtain ⟨_, mapped, rfl⟩ := List.mem_map.mp listed
      rcases List.mem_append.mp mapped with restores | closing
      · obtain ⟨_, _, rfl⟩ := List.mem_map.mp restores
        rfl
      · simp only [List.mem_cons, List.not_mem_nil, or_false] at closing
        rcases closing with rfl | rfl <;> rfl
    · exact List.mem_map_of_mem (List.mem_append_left _ (List.mem_map_of_mem otherRestored))
    · rw [← same]
      exact List.mem_singleton_self other.1

/-- A call with the return address named finds it saved. -/
theorem link_saved (called : ∃ instr ∈ frame.middle, instr.lowered.mnemonic = "call")
    (named : ∃ instr ∈ frame.code, .ra ∈ Abi.named instr.lowered) :
    ∃ instr ∈ frame.code, .ra ∈ Abi.spStoreTargets instr.lowered := by
  have inside : ∃ instr ∈ frame.inner, .ra ∈ Abi.named instr.lowered := by
    obtain ⟨instr, member, names⟩ := named
    simp only [code, List.mem_cons, List.mem_append, List.not_mem_nil, or_false] at member
    rcases member with rfl | inside | rfl | rfl
    · exact absurd names (by simp [adjust, Abi.named, Abi.operandGpr, Gpr.full])
    · exact ⟨instr, inside, names⟩
    · exact absurd names (by simp [adjust, Abi.named, Abi.operandGpr, Gpr.full])
    · exact absurd names (by simp [leave, Abi.named])
  obtain ⟨slot, saved, link⟩ := List.mem_map.mp (frame.linked called inside)
  refine ⟨save slot, ?_, ?_⟩
  · rw [code, inner, framed]
    exact List.mem_cons_of_mem _ (List.mem_append_left _
      (List.mem_append_left _ (List.mem_map_of_mem saved)))
  · rw [← link]
    exact List.mem_singleton_self slot.1

/-- A frame is judged clean exactly when the displacements shown cancel.

Proof: the delta before the return is their sum, and the one before a call differs from
their sum by the size of the frame. The other checks pass for every frame. -/
theorem clean_iff_quiet :
    (Abi.analyze (frame.code.map Instr.lowered)).isClean = true ↔ frame.Quiet := by
  rw [Abi.analyze, Abi.checker.isClean_iff rfl]
  have lowered (position : Nat) (instr : Instr) (found : frame.code[position]? = some instr) :
      (frame.code.map Instr.lowered)[position]? = some instr.lowered := by
    rw [List.getElem?_map, found, Option.map_some]
  have calls (instr : Instr) := instr.isCall_iff
  have aligned (place : Nat) (inside : place ≤ frame.inner.length) :
      (StackState.of (tracked Abi.checker.change (frame.code.map Instr.lowered) (place + 1))).isAligned
        = true ↔ (frame.shown place).toBitVec.toNat % 16 = 0 := by
    rw [tracked_map, tracked_inner frame place inside, isAligned_iff, Int64.toBitVec_sub,
      BitVec.toNat_sub]
    have sixteen := frame.sixteen
    have bound := (frame.shown place).toBitVec.isLt
    omega
  have returned : tracked Abi.checker.change (frame.code.map Instr.lowered)
      (frame.inner.length + 2) = -frame.shown frame.inner.length := by
    rw [tracked_map, tracked_leave]
  constructor
  · intro clean
    refine ⟨?_, ?_⟩
    · have last : frame.code[frame.inner.length + 2]? = some leave := by
        rw [code, List.getElem?_cons_succ, List.getElem?_append_right (by omega),
          Nat.add_sub_cancel_left]
        rfl
      have zero := clean.ret _ _ (lowered _ _ last) rfl
      rw [returned] at zero
      have opposite := congrArg Neg.neg zero
      rwa [Int64.neg_neg, Int64.neg_zero] at opposite
    · intro position instr found call
      have inside := (List.getElem?_eq_some_iff.mp found).1
      exact (aligned position (Nat.le_of_lt inside)).mp (clean.call _ _
        (lowered _ _ (frame.code_inner position instr found)) ((calls instr).mpr call))
  · intro quiet
    refine ⟨?_, ?_, frame.saved_and_restored, ?_⟩
    · intro position low there call
      rw [List.getElem?_map] at there
      obtain ⟨instr, found, rfl⟩ := Option.map_eq_some_iff.mp there
      have named := (calls instr).mp call
      obtain ⟨_, rfl⟩ | ⟨place, rfl, inside⟩ | ⟨_, rfl⟩ | ⟨_, rfl⟩ :=
        frame.code_cases position instr found
      · exact absurd named (by decide : "addi" ≠ "call")
      · have bound := (List.getElem?_eq_some_iff.mp inside).1
        exact (aligned place (Nat.le_of_lt bound)).mpr (quiet.aligned place instr inside named)
      · exact absurd named (by decide : "addi" ≠ "call")
      · exact absurd named (by decide : "ret" ≠ "call")
    · intro position low there ret
      rw [List.getElem?_map] at there
      obtain ⟨instr, found, rfl⟩ := Option.map_eq_some_iff.mp there
      have named := instr.isRet_iff.mp ret
      obtain ⟨_, rfl⟩ | ⟨place, rfl, inside⟩ | ⟨_, rfl⟩ | ⟨rfl, rfl⟩ :=
        frame.code_cases position instr found
      · exact absurd named (by decide : "addi" ≠ "ret")
      · exact absurd named (frame.inner_open instr (List.mem_of_getElem? inside))
      · exact absurd named (by decide : "addi" ≠ "ret")
      · rw [returned, quiet.balanced, Int64.neg_zero]
    · rintro ⟨low, listed, call⟩ ⟨other, otherMember, names⟩
      obtain ⟨instr, member, rfl⟩ := List.mem_map.mp listed
      obtain ⟨namer, namerMember, rfl⟩ := List.mem_map.mp otherMember
      have called : ∃ instr ∈ frame.middle, instr.lowered.mnemonic = "call" := by
        have named := (calls instr).mp call
        obtain ⟨position, found⟩ := List.getElem?_of_mem member
        obtain ⟨_, rfl⟩ | ⟨place, _, there⟩ | ⟨_, rfl⟩ | ⟨_, rfl⟩ :=
          frame.code_cases position instr found
        · exact absurd named (by decide : "addi" ≠ "call")
        · exact ⟨instr, frame.inner_call instr (List.mem_of_getElem? there) named, named⟩
        · exact absurd named (by decide : "addi" ≠ "call")
        · exact absurd named (by decide : "ret" ≠ "call")
      obtain ⟨saver, saverMember, stores⟩ := frame.link_saved called ⟨namer, namerMember, names⟩
      exact ⟨saver.lowered, List.mem_map_of_mem saverMember, stores⟩

end Frame

/-- While every instruction moves the stack pointer as its lowered form shows, what the walk
says of a run is right; and a body with a frame is judged clean exactly when the
displacements shown cancel.

Proof: the tracked delta is an invariant of the run, and a clean verdict gives it at a
return and at a call. -/
theorem lp64_walk_right_along_runs (body : List Instr) (envs : Nat → Environment State)
    (entry : State) (point : Point State)
    (reached : Reaches (Under (FollowedAt body envs) (Step body (StackRuns envs)))
      ⟨0, entry⟩ point) :
    WalkRight body envs entry.sp point ∧ ∀ frame : Frame, frame.code = body →
      ((Abi.analyze (body.map Instr.lowered)).isClean = true ↔ frame.Quiet) := by
  refine ⟨walkRight_of_reaches body envs entry point reached, ?_⟩
  rintro frame rfl
  exact frame.clean_iff_quiet

/-- `jal ra, target`. -/
def linkCall : Instr :=
  ⟨⟨"call", .call, .b64, none, [.reg Gpr.ra.full, .imm 256]⟩, "jal", by decide⟩

/-- A frame of sixteen bytes around a call, with the return address saved at an offset. -/
def callFrame (offset : Int64) : Frame where
  size := 16
  saves := [(.ra, offset)]
  middle := [linkCall]
  restores := [(.ra, offset)]
  sixteen := by decide
  fixed := by decide
  open_ended := by decide
  preserved := by
    rintro cell nonvolatile ⟨instr, member, named⟩
    have only : cell = .ra := by
      simp only [framed, List.map_cons, List.map_nil, List.cons_append, List.nil_append,
        List.mem_cons, List.not_mem_nil, or_false] at member
      rcases member with rfl | rfl | rfl <;>
        simpa [save, restore, linkCall, Abi.named, Abi.operandGpr, Gpr.full] using named
    rw [only] at nonvolatile
    exact absurd nonvolatile (by decide)
  linked := fun _ _ => List.mem_singleton_self _

/-- An environment whose callees and results are the given state and zero. -/
def returning (state : State) : Environment State := ⟨state, 0, false⟩

/-- A state with every register the same. -/
def allAt (value : Word) : State := ⟨fun _ => value, fun _ => 0⟩

/-- With the return address saved at the stack pointer itself the walk is right, and the
displacements cancel. -/
theorem callFrame_walk_right :
    (callFrame 0).Quiet ∧ ∃ state,
      WalkRight (callFrame 0).code (fun _ => returning (allAt 4096)) 4096 ⟨1, state⟩ := by
  have plain : ¬ (adjust (-16)).Calls := by
    rintro ⟨cell, linked, _⟩
    simp [Instr.link, adjust] at linked
  have step : Step (callFrame 0).code (StackRuns (fun _ => returning (allAt 4096)))
      ⟨0, allAt 4096⟩ ⟨1, (allAt 4096).set .sp 4080⟩ :=
    ⟨rfl, _, rfl, ⟨_, rfl, rfl, rfl⟩, by decide, fun calls => absurd calls plain⟩
  have followed : FollowedAt (callFrame 0).code (fun _ => returning (allAt 4096))
      ⟨0, allAt 4096⟩ := by
    intro instr found
    cases found
    exact fun _ short => absurd short (by decide)
  have right := lp64_walk_right_along_runs (callFrame 0).code (fun _ => returning (allAt 4096))
    (allAt 4096) _ (.next .start ⟨followed, step⟩)
  exact ⟨(right.2 (callFrame 0) rfl).mp (by decide +kernel), _, right.1⟩

/-- `jalr zero, 0(ra)`. -/
def jumpBack : Instr :=
  ⟨⟨"call", .call, .b64, none, [.reg Gpr.zero.full, .mem ⟨some Gpr.ra.full, none, 1, 0, .b64⟩]⟩,
    "jalr", by decide⟩

/-- The usual function body with a frame of sixteen bytes that saves the return address at
offset eight is not judged clean, and the delta tracked behind the save is not the way of
the stack pointer. `jalr zero, 0(ra)` is taken for a call and not for a return. -/
theorem callFrame_not_clean :
    lowerKeepAll
        [⟨0, [], "addi", ["sp", "sp", "-16"], [], [], [], false⟩,
          ⟨4, [], "sd", ["ra", "8(sp)"], [], [], [], false⟩,
          ⟨8, [], "jal", ["ra", "0x100"], [], [], [], false⟩,
          ⟨12, [], "ld", ["ra", "8(sp)"], [], [], [], false⟩,
          ⟨16, [], "addi", ["sp", "sp", "16"], [], [], [], false⟩,
          ⟨20, [], "ret", [], [], [], [], false⟩] = (callFrame 8).code.map Instr.lowered ∧
      (Abi.analyze ((callFrame 8).code.map Instr.lowered)).isClean = false ∧
      (∃ point, Reaches (Step (callFrame 8).code (StackRuns (fun _ => returning (allAt 4096))))
          ⟨0, allAt 4096⟩ point ∧ ¬ TracksStack (callFrame 8).code 4096 point) ∧
      lowerKeepAll [⟨0, [], "jalr", ["zero", "0(ra)"], [], [], [], false⟩] = [jumpBack.lowered] ∧
      jumpBack.Returns ∧ (Abi.step jumpBack.lowered).isRet = false ∧
        (Abi.step jumpBack.lowered).isCall = true := by
  refine ⟨by decide +kernel, by decide +kernel, ?_, by decide +kernel,
    Or.inr ⟨rfl, by decide, rfl⟩, by decide, by decide⟩
  have adjusts : ¬ (adjust (-16)).Calls := by
    rintro ⟨cell, linked, _⟩
    simp [Instr.link, adjust] at linked
  have saves : ¬ (save (.ra, 8)).Calls := by
    rintro ⟨cell, linked, _⟩
    simp [Instr.link, save] at linked
  have first : Step (callFrame 8).code (StackRuns (fun _ => returning (allAt 4096)))
      ⟨0, allAt 4096⟩ ⟨1, (allAt 4096).set .sp 4080⟩ :=
    ⟨rfl, _, rfl, ⟨_, rfl, rfl, rfl⟩, by decide, fun calls => absurd calls adjusts⟩
  obtain ⟨after, second, kept⟩ : ∃ after : State,
      Step (callFrame 8).code (StackRuns (fun _ => returning (allAt 4096)))
        ⟨1, (allAt 4096).set .sp 4080⟩ ⟨2, after⟩ ∧ after.sp = 4080 :=
    ⟨_, ⟨rfl, _, rfl, ⟨_, rfl, rfl, rfl⟩, by decide, fun calls => absurd calls saves⟩,
      by decide +kernel⟩
  refine ⟨⟨2, after⟩, .next (.next .start first) second, ?_⟩
  unfold TracksStack Tracks Gone
  rw [kept]
  show ¬ (4096#64 - 4080#64 = (tracked Instr.change (callFrame 8).code 2).toBitVec)
  decide +kernel

end Semasm.Riscv
