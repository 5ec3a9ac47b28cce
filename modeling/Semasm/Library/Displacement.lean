import Semasm.Library.StraightLine

/-!
# Tracked displacement

A scan adds up how far each instruction moves a pointer down, while a run moves the
pointer. The two agree all along a run exactly when they agree at every instruction of it.
Both are counted in words that wrap around.
-/

namespace Semasm.Library.Displacement

open StraightLine Transitions

universe u v
variable {Instr : Type u} {State : Type v}

/-- The sum of the changes before a position. -/
def tracked (change : Instr → Int64) (program : List Instr) (position : Nat) : Int64 :=
  accAt (fun delta instr => delta + change instr) 0 program position

theorem tracked_zero (change : Instr → Int64) (program : List Instr) :
    tracked change program 0 = 0 := rfl

theorem tracked_succ (change : Instr → Int64) (program : List Instr) (position : Nat)
    (instr : Instr) (found : program[position]? = some instr) :
    tracked change program (position + 1) = tracked change program position + change instr :=
  accAt_succ _ _ _ _ _ found

/-- The changes of a program that goes on add up. -/
theorem tracked_append (change : Instr → Int64) (front back : List Instr) (position : Nat) :
    tracked change (front ++ back) (front.length + position) =
      tracked change front front.length + tracked change back position := by
  have shifted (program : List Instr) (init : Int64) :
      program.foldl (fun delta instr => delta + change instr) init =
        init + program.foldl (fun delta instr => delta + change instr) 0 := by
    induction program generalizing init with
    | nil => exact (Int64.add_zero init).symm
    | cons head rest inductionHypothesis =>
      rw [List.foldl_cons, List.foldl_cons, inductionHypothesis, inductionHypothesis (0 + _),
        Int64.zero_add, Int64.add_assoc]
  simp only [tracked, accAt, List.take_length_add_append, List.foldl_append, List.take_length]
  exact shifted _ _

/-- Changes that are opposite on a program add up to the opposite. -/
theorem tracked_neg (change other : Instr → Int64) (program : List Instr) (position : Nat)
    (opposite : ∀ instr ∈ program, change instr = -other instr) :
    tracked change program position = -tracked other program position := by
  induction position with
  | zero => rw [tracked_zero, tracked_zero, Int64.neg_zero]
  | succ position inductionHypothesis =>
    cases found : program[position]? with
    | some instr =>
      rw [tracked_succ _ _ _ instr found, tracked_succ _ _ _ instr found, inductionHypothesis,
        opposite instr (List.mem_of_getElem? found), Int64.neg_add, Int64.sub_eq_add_neg]
    | none =>
      have past : program.length ≤ position := List.getElem?_eq_none_iff.mp found
      simp only [tracked, accAt] at inductionHypothesis ⊢
      rw [List.take_of_length_le (Nat.le_succ_of_le past)]
      rwa [List.take_of_length_le past] at inductionHypothesis

/-- A pointer has gone down from an entry value by a displacement. -/
def Gone (entry pointer : BitVec 64) (delta : Int64) : Prop := entry - pointer = delta.toBitVec

theorem gone_start (entry : BitVec 64) : Gone entry entry 0 := BitVec.sub_self entry

/-- One more change is right exactly when the pointer moves by it. -/
theorem gone_add_iff (entry before after : BitVec 64) (delta change : Int64)
    (gone : Gone entry before delta) :
    Gone entry after (delta + change) ↔ Gone before after change := by
  unfold Gone at *
  rw [Int64.toBitVec_add, ← gone]
  constructor <;> intro same <;> bv_omega

/-- A pointer is back at its entry value exactly when the displacement is zero. -/
theorem Gone.zero_iff {entry pointer : BitVec 64} {delta : Int64} (gone : Gone entry pointer delta) :
    delta = 0 ↔ pointer = entry := by
  unfold Gone at gone
  constructor
  · rintro rfl
    rw [show (0 : Int64).toBitVec = 0 from rfl] at gone
    bv_omega
  · rintro rfl
    rw [BitVec.sub_self] at gone
    exact Int64.toBitVec_inj.mp gone.symm

section Runs

variable (change : Instr → Int64) (program : List Instr) (pointer : State → BitVec 64)

/-- The displacement tracked before a point is that of its pointer. -/
def Tracks (entry : BitVec 64) (point : Point State) : Prop :=
  Gone entry (pointer point.state) (tracked change program point.position)

theorem tracks_start (start : State) :
    Tracks change program pointer (pointer start) ⟨0, start⟩ := gone_start _

variable (runs : Nat → Instr → State → State → Prop)

/-- Tracking goes on over an instruction exactly when the instruction moves the pointer by
its change. -/
theorem tracks_succ_iff (entry : BitVec 64) (point after : Point State)
    (tracks : Tracks change program pointer entry point)
    (step : Step program runs point after) :
    Tracks change program pointer entry after ↔
      ∀ instr, program[point.position]? = some instr →
        Gone (pointer point.state) (pointer after.state) (change instr) := by
  obtain ⟨next, instr, found, _⟩ := step
  unfold Tracks
  rw [next, tracked_succ change program point.position instr found, gone_add_iff _ _ _ _ _ tracks]
  constructor
  · intro gone other there
    rw [found] at there
    cases there
    exact gone
  · intro gone
    exact gone instr found

/-- A run whose instructions move the pointer by their changes is tracked. -/
theorem tracks_along (condition : Point State → Prop)
    (exact : ∀ point after, condition point → Step program runs point after →
      ∀ instr, program[point.position]? = some instr →
        Gone (pointer point.state) (pointer after.state) (change instr))
    (start : State) (point : Point State)
    (reached : Reaches (Under condition (Step program runs)) ⟨0, start⟩ point) :
    Tracks change program pointer (pointer start) point := by
  refine reached.invariant (Tracks change program pointer (pointer start)) ?_ ?_
  · exact tracks_start change program pointer start
  · rintro point after _ tracks ⟨fine, step⟩
    rw [tracks_succ_iff change program pointer runs _ point after tracks step]
    exact exact point after fine step

end Runs

end Semasm.Library.Displacement
