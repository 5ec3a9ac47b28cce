import Semasm.Agent.Harness.Reference

/-!
# Vectors of the scans

The templates of a scan are filled with the needle of the contract. One of them has zero
bytes around the needle and expects a single match, so a zero needle makes it wrong; all
the others are right for every needle and every length.
-/

namespace Semasm.Agent.Harness

open Contract

/-- What a scan vector must expect. -/
theorem expects_scan (shape : ScanShape) (needle : UInt8) (name : String) (bytes : List UInt8)
    (length expected : UInt64) (whole : length.toNat = bytes.length) :
    Expects (.scan shape) (scanVector needle name (bytesJson bytes) length expected) ↔
      UInt64.ofNat (shape.op.meaning bytes needle) = expected := by
  simp [Expects, RecognizedShape.reference, scanVector, upTo_bytes bytes length whole, expectedBytes]

/-- A scan of nothing finds nothing. -/
theorem expects_scan_null (shape : ScanShape) (needle : UInt8) (name : String) :
    Expects (.scan shape) (scanVector needle name .null 0 0) := by
  have nothing : shape.op.meaning [] needle = 0 := by
    cases shape.op <;> rfl
  simp [Expects, RecognizedShape.reference, scanVector, expectedBytes, nothing]

theorem expects_nullScanVector (shape : ScanShape) :
    ∀ vector ∈ nullScanVector shape, Expects (.scan shape) vector := by
  intro vector member
  unfold nullScanVector at member
  split at member
  · rw [List.mem_singleton.mp member]
    exact expects_scan_null shape _ _
  · cases member

/-- The bytes that avoid the needle. -/
theorem nonNeedleBytes_shape (needle : UInt8) :
    ∃ one two three, nonNeedleBytes needle = [one, two, three] ∧ one ≠ needle ∧ two ≠ needle ∧
      three ≠ needle := by
  by_cases zero : needle = 0
  · subst zero
    exact ⟨1, 2, 3, by decide, by decide, by decide, by decide⟩
  by_cases one : needle = 1
  · subst one
    exact ⟨0, 2, 3, by decide, by decide, by decide, by decide⟩
  by_cases two : needle = 2
  · subst two
    exact ⟨0, 1, 3, by decide, by decide, by decide, by decide⟩
  · refine ⟨0, 1, 2, ?_, Ne.symm zero, Ne.symm one, Ne.symm two⟩
    simp [nonNeedleBytes, List.filter_cons, Ne.symm zero, Ne.symm one, Ne.symm two]

/-- The places of a byte in a list with one more byte. -/
theorem places_append (bytes : List UInt8) (last needle : UInt8) :
    (List.range (bytes ++ [last]).length).filter (fun place => (bytes ++ [last])[place]? = some needle) =
      (List.range bytes.length).filter (fun place => bytes[place]? = some needle) ++
        if last = needle then [bytes.length] else [] := by
  have before : (List.range bytes.length).filter (fun place => (bytes ++ [last])[place]? = some needle) =
      (List.range bytes.length).filter (fun place => bytes[place]? = some needle) := by
    apply List.filter_congr
    intro place member
    rw [List.getElem?_append_left (List.mem_range.mp member)]
  rw [List.length_append, List.length_singleton, List.range_succ, List.filter_append, before]
  by_cases same : last = needle <;> simp [same]

/-- A match at the end is the last one. -/
theorem findLast_append_match (bytes : List UInt8) (needle : UInt8) :
    BufferScanOp.findLast.meaning (bytes ++ [needle]) needle = bytes.length := by
  simp only [BufferScanOp.meaning, places_append, if_pos]
  simp

/-- A byte at the end that does not match leaves the last match where it is. -/
theorem findLast_append_other (bytes : List UInt8) (last needle : UInt8) (other : last ≠ needle) :
    BufferScanOp.findLast.meaning (bytes ++ [last]) needle =
      if needle ∈ bytes then BufferScanOp.findLast.meaning bytes needle else bytes.length + 1 := by
  simp only [BufferScanOp.meaning, places_append, if_neg other, List.append_nil]
  split
  next found =>
    obtain ⟨place, below, there⟩ := List.getElem_of_mem found
    have member : place ∈
        (List.range bytes.length).filter (fun place => bytes[place]? = some needle) := by
      simp [below, there]
    cases last : ((List.range bytes.length).filter (fun place => bytes[place]? = some needle)).getLast?
    next =>
      rw [List.getLast?_eq_none_iff.mp last] at member
      cases member
    next => rfl
  next absent =>
    have none : (List.range bytes.length).filter (fun place => bytes[place]? = some needle) = [] := by
      apply List.filter_eq_nil_iff.mpr
      intro place _ there
      exact absent (List.mem_of_getElem? (of_decide_eq_true there))
    simp [none]

/-- The templates of a count are right except for a zero needle. -/
theorem expects_count_iff (shape : ScanShape) (count : shape.op = .count) :
    (∀ vector ∈ synthesizeBufferScanVectors shape, Expects (.scan shape) vector) ↔
      shape.needle ≠ 0 := by
  obtain ⟨one, two, three, avoiding, notOne, notTwo, notThree⟩ := nonNeedleBytes_shape shape.needle
  have whole := fixtureLength_toNat shape.maxLength
  simp only [synthesizeBufferScanVectors, List.forall_mem_append, List.forall_mem_cons, avoiding,
    expects_scan_null, true_and]
  rw [expects_scan _ _ _ _ _ _ rfl, expects_scan _ _ _ _ _ _ rfl, expects_scan _ _ _ _ _ _ rfl,
    expects_scan _ _ _ _ _ _ rfl, expects_scan _ _ _ _ _ _ (by simp [whole])]
  simp only [count, BufferScanOp.meaning]
  by_cases zero : 0 = shape.needle
  · simp [List.count_cons, ← zero]
  · simpa [notOne, notTwo, notThree, zero, Ne.symm zero] using expects_nullScanVector shape

/-- The templates of a first index are right except for a zero needle. -/
theorem expects_findFirst_iff (shape : ScanShape) (first : shape.op = .findFirst) :
    (∀ vector ∈ synthesizeFindFirstVectors shape, Expects (.scan shape) vector) ↔
      shape.needle ≠ 0 := by
  obtain ⟨one, two, three, avoiding, notOne, notTwo, notThree⟩ := nonNeedleBytes_shape shape.needle
  have whole := fixtureLength_toNat shape.maxLength
  obtain ⟨rest, more⟩ := Nat.exists_eq_add_of_le' (fixtureLength_bounds shape.maxLength).1
  simp only [synthesizeFindFirstVectors, List.forall_mem_append, List.forall_mem_cons, avoiding,
    expects_scan_null, true_and]
  rw [expects_scan _ _ _ _ _ _ rfl, expects_scan _ _ _ _ _ _ rfl, expects_scan _ _ _ _ _ _ rfl,
    expects_scan _ _ _ _ _ _ rfl, expects_scan _ _ _ _ _ _ rfl,
    expects_scan _ _ _ _ _ _ (by simp [whole])]
  simp only [first, BufferScanOp.meaning, more, List.replicate_succ]
  by_cases zero : 0 = shape.needle
  · simp [List.idxOf_cons, ← zero]
  · simpa [List.idxOf_cons, notOne, notTwo, notThree, zero, Ne.symm zero] using
      expects_nullScanVector shape

/-- The templates of a last index are right except for a zero needle. -/
theorem expects_findLast_iff (shape : ScanShape) (last : shape.op = .findLast) :
    (∀ vector ∈ synthesizeFindLastVectors shape, Expects (.scan shape) vector) ↔
      shape.needle ≠ 0 := by
  obtain ⟨one, two, three, avoiding, notOne, notTwo, notThree⟩ := nonNeedleBytes_shape shape.needle
  have whole := fixtureLength_toNat shape.maxLength
  obtain ⟨rest, more⟩ := Nat.exists_eq_add_of_le' (fixtureLength_bounds shape.maxLength).1
  simp only [synthesizeFindLastVectors, List.forall_mem_append, List.forall_mem_cons, avoiding,
    expects_scan_null, true_and]
  rw [expects_scan _ _ _ _ _ _ rfl, expects_scan _ _ _ _ _ _ rfl, expects_scan _ _ _ _ _ _ rfl,
    expects_scan _ _ _ _ _ _ rfl, expects_scan _ _ _ _ _ _ rfl, expects_scan _ _ _ _ _ _ rfl,
    expects_scan _ _ _ _ _ _ (by simp [whole])]
  have single : BufferScanOp.findLast.meaning [shape.needle] shape.needle = 0 :=
    findLast_append_match [] _
  have both : BufferScanOp.findLast.meaning [shape.needle, shape.needle] shape.needle = 1 :=
    findLast_append_match [_] _
  have atEnd (first second : UInt8) :
      BufferScanOp.findLast.meaning [first, second, shape.needle] shape.needle = 2 :=
    findLast_append_match [_, _] _
  have filled : BufferScanOp.findLast.meaning (List.replicate rest shape.needle ++ [shape.needle])
      shape.needle = rest := by
    rw [findLast_append_match, List.length_replicate]
  have absent : BufferScanOp.findLast.meaning [one, two, three] shape.needle = 3 :=
    (findLast_append_other [one, two] three _ notThree).trans
      (by simp [Ne.symm notOne, Ne.symm notTwo])
  simp only [last, more, List.replicate_succ', List.take_succ_cons, List.take_zero, List.cons_append,
    List.nil_append, single, both, atEnd, filled, absent]
  by_cases zero : 0 = shape.needle
  · have doubled : BufferScanOp.findLast.meaning [0, shape.needle, 0] shape.needle = 2 := by
      rw [zero]
      exact atEnd _ _
    simpa [doubled] using zero.symm
  · have middle : BufferScanOp.findLast.meaning [0, shape.needle, 0] shape.needle = 1 :=
      (findLast_append_other [0, shape.needle] 0 _ zero).trans
        ((if_pos (by simp)).trans (findLast_append_match [0] _))
    simpa [middle, Ne.symm zero] using expects_nullScanVector shape

end Semasm.Agent.Harness
