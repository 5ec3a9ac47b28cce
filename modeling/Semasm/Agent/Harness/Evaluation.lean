import Semasm.Agent.Harness.Synthesis
import Semasm.Library.ByteMemory
import Semasm.Library.Layout

/-!
# Verdicts on the output of a harness

The output of a harness is one result word for each vector, behind them, for the shapes
that write, the guarded buffers of each vector as they were left. The decoder reads it
with a running offset. Its verdicts are compared with the layout: a vector passes when
its word and its echo stand at their own places.
-/

namespace Semasm.Agent.Harness

open Library Library.ByteMemory Library.Layout

structure VectorResult where
  name : String
  passed : Bool
  expected : String
  observed : String

structure HarnessReport where
  cases : List VectorResult
  allPassed : Bool

/-- `expected_bits`. -/
def expectedBits (value : Json) : UInt64 :=
  match value.asU64, value.asI64 with
  | some unsigned, _ => unsigned
  | none, some signed => signed.toUInt64
  | none, none => 0xFFFFFFFFFFFFFFFF

/-- `format_observed`. -/
def formatObserved (bits : UInt64) (expected : Json) : String :=
  if expected.asI64.isSome ∧ expected.asU64.isNone then toString bits.toInt64 else toString bits

/-- `format_expected`. The text of a value that is no integer is the serializer's. -/
def formatExpected (jsonText : Json → String) (expected : Json) : String :=
  match expected.asU64, expected.asI64 with
  | some unsigned, _ => toString unsigned
  | none, some signed => toString signed
  | none, none => jsonText expected

/-- The debug rendering of bytes. -/
def debugBytes (bytes : List UInt8) : String :=
  "[" ++ ", ".intercalate (bytes.map toString) ++ "]"

/-- The word at an offset of the output, least significant byte first. -/
def wordAt (stdout : List UInt8) (base : Nat) : Option UInt64 :=
  if base + 8 ≤ stdout.length then
    some (UInt64.ofNat (decode (((stdout.drop base).take 8).map UInt8.toBitVec)))
  else none

/-- The verdict on a word that was read or not, and its rendering. -/
def wordVerdict (render : UInt64 → String) (expected : Json) : Option UInt64 → Bool × String
  | some bits => (bits == expectedBits expected, render bits)
  | none => (false, "<no output>")

/-- A word passes when it was read and is the expected one. -/
theorem wordVerdict_iff (render : UInt64 → String) (expected : Json) (got : Option UInt64) :
    (wordVerdict render expected got).1 = true ↔ got = some (expectedBits expected) := by
  cases got <;> simp [wordVerdict]

/-- `evaluate_words_only`. -/
def evaluateWordsOnly (jsonText : Json → String) (stdout : List UInt8)
    (vectors : List TestVector) : HarnessReport :=
  let observed := (List.range vectors.length).map (fun i => wordAt stdout (i * 8))
  let cases := (vectors.zip observed).map (fun pair =>
    let verdict := wordVerdict (fun bits => formatObserved bits pair.1.expected)
      pair.1.expected pair.2
    { name := pair.1.name, passed := verdict.1,
      expected := formatExpected jsonText pair.1.expected, observed := verdict.2 : VectorResult })
  { cases := cases, allPassed := cases.all VectorResult.passed }

/-- `WRITE_GUARD_PRE`. -/
def writeGuardPre : UInt8 := 0xA5

/-- `WRITE_GUARD_POST`. -/
def writeGuardPost : UInt8 := 0x5A

/-- `guarded_region`. -/
def guardedRegion (payload : List UInt8) : List UInt8 :=
  writeGuardPre :: (payload ++ [writeGuardPost])

/-- `expected_replace_byte_echo`. -/
def expectedReplaceByteEcho (vector : TestVector) : List UInt8 :=
  guardedRegion (expectedReplaceByteBuffer vector.inputs)

/-- `expected_memset_echo`. -/
def expectedMemsetEcho (vector : TestVector) : List UInt8 :=
  guardedRegion (expectedMemsetBuffer vector.inputs)

/-- The bytes of `vector_memcmp_b_bytes`: numbers above a byte count as the greatest. -/
def sourceBytes (inputs : List Json) : List UInt8 :=
  match (inputs[1]? : Option Json) with
  | some (.array items) => items.map (fun item => UInt8.ofNat (min (item.asU64.getD 0).toNat 255))
  | _ => []

/-- `expected_memcpy_echo`. -/
def expectedMemcpyEcho (vector : TestVector) : List UInt8 :=
  guardedRegion (expectedMemcpyBuffer vector.inputs) ++ guardedRegion (sourceBytes vector.inputs)

/-- The first loop of `evaluate_count_and_buffer`, with the offset it ends at. -/
def readCounts (stdout : List UInt8) : Nat → Nat → List (Option UInt64) × Nat
  | 0, offset => ([], offset)
  | remaining + 1, offset =>
    match wordAt stdout offset with
    | some word =>
      let rest := readCounts stdout remaining (offset + 8)
      (some word :: rest.1, rest.2)
    | none =>
      let rest := readCounts stdout remaining offset
      (none :: rest.1, rest.2)

/-- The verdict on the echo at the running offset, and its rendering. -/
def echoVerdict (stdout expectedBuf : List UInt8) (offset : Nat) : Bool × String :=
  if expectedBuf.length = 0 then (true, "[]")
  else if offset + expectedBuf.length ≤ stdout.length then
    let got := (stdout.drop offset).take expectedBuf.length
    (got == expectedBuf, debugBytes got)
  else (false, "<no buffer output>")

/-- The offset behind an echo that fits. -/
def echoOffset (stdout expectedBuf : List UInt8) (offset : Nat) : Nat :=
  if offset + expectedBuf.length ≤ stdout.length then offset + expectedBuf.length else offset

/-- The second loop of `evaluate_count_and_buffer`. -/
def echoCases (jsonText : Json → String) (stdout : List UInt8)
    (expectedEcho : TestVector → List UInt8) :
    Nat → List (TestVector × Option UInt64) → List VectorResult
  | _, [] => []
  | offset, (vector, count) :: rest =>
    let expectedBuf := expectedEcho vector
    let counted := wordVerdict toString vector.expected count
    let echoed := echoVerdict stdout expectedBuf offset
    let passed := counted.1 && echoed.1
    { name := vector.name, passed := passed,
      expected := "count=" ++ formatExpected jsonText vector.expected ++ "; buf=" ++
        debugBytes expectedBuf,
      observed := if passed then counted.2
        else "count=" ++ counted.2 ++ "; buf=" ++ echoed.2 } ::
      echoCases jsonText stdout expectedEcho (echoOffset stdout expectedBuf offset) rest

/-- `evaluate_count_and_buffer`. -/
def evaluateCountAndBuffer (jsonText : Json → String) (stdout : List UInt8)
    (vectors : List TestVector) (expectedEcho : TestVector → List UInt8) : HarnessReport :=
  let counts := readCounts stdout vectors.length 0
  let cases := echoCases jsonText stdout expectedEcho counts.2 (vectors.zip counts.1)
  { cases := cases, allPassed := cases.all VectorResult.passed }

/-- The echo of a shape that writes. -/
def shapeEcho : HarnessShape → Option (TestVector → List UInt8)
  | .replaceByte => some expectedReplaceByteEcho
  | .memset => some expectedMemsetEcho
  | .memcpy => some expectedMemcpyEcho
  | _ => none

/-- `evaluate`. -/
def evaluate (jsonText : Json → String) (stdout : List UInt8) (vectors : List TestVector)
    (shape : HarnessShape) : HarnessReport :=
  match shapeEcho shape with
  | some expectedEcho => evaluateCountAndBuffer jsonText stdout vectors expectedEcho
  | none => evaluateWordsOnly jsonText stdout vectors

/-! ## The layout -/

/-- The bytes of a word. -/
def wordBytes (word : UInt64) : List UInt8 := (encode 8 word.toNat).map UInt8.ofBitVec

@[simp] theorem wordBytes_length (word : UInt64) : (wordBytes word).length = 8 := by
  simp [wordBytes]

/-- The expected result word of a vector. -/
def expectedWord (vector : TestVector) : List UInt8 := wordBytes (expectedBits vector.expected)

/-- The expected echo of a vector, empty for the shapes that only return words. -/
def expectedEcho (shape : HarnessShape) (vector : TestVector) : List UInt8 :=
  ((shapeEcho shape).map (fun echo => echo vector)).getD []

/-- The output of a harness whose vectors all pass. -/
def canonicalOutput (shape : HarnessShape) (vectors : List TestVector) : List UInt8 :=
  (vectors.map expectedWord ++ vectors.map (expectedEcho shape)).flatten

/-- The place of the echo of a vector. -/
def echoStart (shape : HarnessShape) (vectors : List TestVector) (index : Nat) : Nat :=
  start (8 * vectors.length) ((vectors.map (expectedEcho shape)).map List.length) index

/-- The vector has its word and its echo at their places. -/
def InPlace (shape : HarnessShape) (stdout : List UInt8) (vectors : List TestVector) (index : Nat)
    (vector : TestVector) : Prop :=
  StandsAt stdout (8 * index) (expectedWord vector) ∧
    StandsAt stdout (echoStart shape vectors index) (expectedEcho shape vector)

/-- The verdicts are those of the layout. -/
def VerdictsExact (jsonText : Json → String) (shape : HarnessShape) (stdout : List UInt8)
    (vectors : List TestVector) : Prop :=
  (∀ index vector, vectors[index]? = some vector →
    ∃ result, (evaluate jsonText stdout vectors shape).cases[index]? = some result ∧
      (result.passed = true ↔ InPlace shape stdout vectors index vector)) ∧
  ((evaluate jsonText stdout vectors shape).allPassed = true ↔
    canonicalOutput shape vectors <+: stdout)

/-- Where the decoder looks for the echoes: behind the words that are there and the
echoes that fit. -/
def echoPlaces (shape : HarnessShape) (stdout : List UInt8) (vectors : List TestVector) :
    List (Option Nat) :=
  places stdout.length (8 * min vectors.length (stdout.length / 8))
    ((vectors.map (expectedEcho shape)).map List.length)

/-- No vector whose echo is cut off has its word in place and, where the decoder looks
instead, the bytes of its echo. -/
def NoStrayEcho (shape : HarnessShape) (stdout : List UInt8) (vectors : List TestVector) : Prop :=
  shapeEcho shape ≠ none →
    ∀ index vector place, vectors[index]? = some vector →
      stdout.length < echoStart shape vectors index + (expectedEcho shape vector).length →
      (echoPlaces shape stdout vectors)[index]? = some (some place) →
      ¬ (StandsAt stdout (8 * index) (expectedWord vector) ∧
        StandsAt stdout place (expectedEcho shape vector))

/-! ## Words -/

/-- The word read at an offset is the one whose bytes stand there. -/
theorem wordAt_eq_some_iff (stdout : List UInt8) (base : Nat) (word : UInt64) :
    wordAt stdout base = some word ↔ StandsAt stdout base (wordBytes word) := by
  have bitVecs (bytes : List UInt8) : (bytes.map UInt8.toBitVec).map UInt8.ofBitVec = bytes := by
    rw [List.map_map]
    exact List.map_id bytes
  unfold wordAt
  split
  next fits =>
    have eight : ((stdout.drop base).take 8).length = 8 := by
      rw [List.length_take, List.length_drop]
      omega
    rw [standsAt_iff_take, wordBytes_length, Option.some.injEq]
    generalize (stdout.drop base).take 8 = bytes at eight
    have low := decode_lt (bytes.map UInt8.toBitVec)
    have back := encode_decode (bytes.map UInt8.toBitVec)
    rw [List.length_map, eight] at low back
    constructor
    · rintro rfl
      rw [wordBytes, UInt64.toNat_ofNat_of_lt' low, back, bitVecs]
    · intro same
      have number := decode_encode 8 word.toNat word.toNat_lt
      rw [same, wordBytes, List.map_map]
      have plain : (UInt8.toBitVec ∘ UInt8.ofBitVec) = id := rfl
      rw [plain, List.map_id, number, UInt64.ofNat_toNat]
  next short =>
    simp only [reduceCtorEq, false_iff]
    intro stands
    have fits := stands.fits (by simp [← List.length_pos_iff])
    rw [wordBytes_length] at fits
    exact short fits

/-- The words are read one after another, and the offset ends behind those that are
there. -/
theorem readCounts_eq (stdout : List UInt8) (remaining base : Nat)
    (inside : 8 * base ≤ stdout.length) :
    readCounts stdout remaining (8 * base) =
      ((List.range remaining).map (fun i => wordAt stdout (8 * (base + i))),
        8 * min (base + remaining) (stdout.length / 8)) := by
  induction remaining generalizing base with
  | zero =>
    simp only [readCounts, List.range_zero, List.map_nil, Prod.mk.injEq, true_and]
    omega
  | succ remaining inductionHypothesis =>
    rw [readCounts, List.range_succ_eq_map, List.map_cons, List.map_map]
    cases read : wordAt stdout (8 * base) with
    | some word =>
      have fits : 8 * base + 8 ≤ stdout.length := by
        unfold wordAt at read
        split at read
        · assumption
        · cases read
      have rest := inductionHypothesis (base + 1) (by omega)
      rw [Nat.mul_add, Nat.mul_one] at rest
      simp only [rest, Prod.mk.injEq, List.cons.injEq, true_and]
      constructor
      · apply List.map_congr_left
        intro i _
        simp only [Function.comp, Nat.succ_eq_add_one]
        congr 2
        omega
      · congr 2
        omega
    | none =>
      have short : ¬ 8 * base + 8 ≤ stdout.length := by
        intro fits
        rw [wordAt, if_pos fits] at read
        cases read
      have missing (i : Nat) : wordAt stdout (8 * (base + i)) = none := by
        rw [wordAt, if_neg (by omega)]
      rw [inductionHypothesis base inside]
      simp only [missing, Prod.mk.injEq]
      constructor
      · rfl
      · omega

/-! ## Echoes -/

/-- The verdict on an echo that is not empty: it fits, and it stands there. -/
theorem echoVerdict_iff (stdout expectedBuf : List UInt8) (offset : Nat)
    (nonempty : expectedBuf ≠ []) :
    (echoVerdict stdout expectedBuf offset).1 = true ↔ StandsAt stdout offset expectedBuf := by
  have positive : expectedBuf.length ≠ 0 := by simpa using nonempty
  unfold echoVerdict
  rw [if_neg positive]
  split
  next fits => rw [beq_iff_eq, standsAt_iff_take]
  next short =>
    simp only [Bool.false_eq_true, false_iff]
    intro stands
    exact short (stands.fits nonempty)

/-- A vector passes when its word was read right and its echo stands where the decoder
looks for it. -/
theorem echoCases_passed (jsonText : Json → String) (stdout : List UInt8)
    (echo : TestVector → List UInt8) (nonempty : ∀ vector, echo vector ≠ []) (offset : Nat)
    (pairs : List (TestVector × Option UInt64)) (index : Nat) (vector : TestVector)
    (count : Option UInt64) (there : pairs[index]? = some (vector, count)) :
    ∃ result, (echoCases jsonText stdout echo offset pairs)[index]? = some result ∧
      (result.passed = true ↔ count = some (expectedBits vector.expected) ∧
        ∃ place, (places stdout.length offset
            (pairs.map fun pair => (echo pair.1).length))[index]? = some (some place) ∧
          StandsAt stdout place (echo vector)) := by
  induction pairs generalizing offset index with
  | nil => simp at there
  | cons pair pairs inductionHypothesis =>
    obtain ⟨first, firstCount⟩ := pair
    cases index with
    | zero =>
      simp only [List.getElem?_cons_zero, Option.some.injEq, Prod.mk.injEq] at there
      obtain ⟨rfl, rfl⟩ := there
      refine ⟨_, by rw [echoCases, List.getElem?_cons_zero], ?_⟩
      have verdict := echoVerdict_iff stdout (echo first) offset (nonempty first)
      simp only [Bool.and_eq_true, wordVerdict_iff, verdict, List.map_cons, places]
      apply and_congr_right
      intro _
      split
      next fits => simp
      next short =>
        simp only [List.getElem?_cons_zero, Option.some.injEq, reduceCtorEq, false_and,
          exists_false, iff_false]
        intro stands
        exact short (stands.fits (nonempty first))
    | succ index =>
      rw [List.getElem?_cons_succ] at there
      obtain ⟨result, listed, passed⟩ := inductionHypothesis
        (echoOffset stdout (echo first) offset) index there
      refine ⟨result, by rw [echoCases, List.getElem?_cons_succ, listed], ?_⟩
      rw [passed, List.map_cons, places]
      unfold echoOffset
      split <;> rw [List.getElem?_cons_succ]

/-- Guards make an echo that is not empty. -/
theorem shapeEcho_nonempty {shape : HarnessShape} {echo : TestVector → List UInt8}
    (writes : shapeEcho shape = some echo) (vector : TestVector) : echo vector ≠ [] := by
  unfold shapeEcho at writes
  split at writes <;> cases writes
  all_goals simp [expectedReplaceByteEcho, expectedMemsetEcho, expectedMemcpyEcho, guardedRegion]

/-! ## Both directions -/

/-- The words are at multiples of eight. -/
theorem start_words (vectors : List TestVector) (index : Nat) (inside : index ≤ vectors.length) :
    start 0 ((vectors.map expectedWord).map List.length) index = 8 * index := by
  have words : (vectors.map expectedWord).map List.length = List.replicate vectors.length 8 := by
    rw [List.map_map]
    exact List.map_eq_replicate_iff.mpr fun vector _ => wordBytes_length _
  rw [start, words, List.take_replicate, Nat.min_eq_left inside, List.sum_replicate_nat]
  omega

/-- The canonical output comes first exactly when every vector is in place. -/
theorem canonicalOutput_prefix_iff (shape : HarnessShape) (stdout : List UInt8)
    (vectors : List TestVector) :
    canonicalOutput shape vectors <+: stdout ↔
      ∀ index vector, vectors[index]? = some vector →
        InPlace shape stdout vectors index vector := by
  have whole : canonicalOutput shape vectors <+: stdout ↔
      StandsAt stdout 0 (vectors.map expectedWord).flatten ∧
        StandsAt stdout (8 * vectors.length) (vectors.map (expectedEcho shape)).flatten := by
    have length : (vectors.map expectedWord).flatten.length = 8 * vectors.length := by
      have ends := start_words vectors vectors.length (Nat.le_refl _)
      rw [start, Nat.zero_add, List.take_of_length_le (by simp)] at ends
      rw [List.length_flatten, ends]
    rw [canonicalOutput, List.flatten_append, ← length, ← Nat.zero_add (List.length _),
      ← append_standsAt_iff]
    rfl
  rw [whole, flatten_standsAt_iff, flatten_standsAt_iff]
  constructor
  · rintro ⟨words, echoes⟩ index vector there
    obtain ⟨inside, rfl⟩ := List.getElem?_eq_some_iff.mp there
    have word := words index (by simpa using inside)
    have echo := echoes index (by simpa using inside)
    rw [start_words vectors index (by omega), List.getElem_map] at word
    rw [List.getElem_map] at echo
    exact ⟨word, echo⟩
  · intro all
    refine ⟨fun index inside => ?_, fun index inside => ?_⟩
    · rw [List.length_map] at inside
      rw [start_words vectors index (by omega), List.getElem_map]
      exact (all index _ (List.getElem?_eq_getElem inside)).1
    · rw [List.length_map] at inside
      rw [List.getElem_map]
      exact (all index _ (List.getElem?_eq_getElem inside)).2

/-- A vector of a shape that writes passes when its word is in place and its echo
stands where the decoder looks for it. -/
theorem evaluate_writes (jsonText : Json → String) {shape : HarnessShape}
    {echo : TestVector → List UInt8} (writes : shapeEcho shape = some echo)
    (stdout : List UInt8) (vectors : List TestVector) (index : Nat) (vector : TestVector)
    (there : vectors[index]? = some vector) :
    ∃ result, (evaluate jsonText stdout vectors shape).cases[index]? = some result ∧
      (result.passed = true ↔ StandsAt stdout (8 * index) (expectedWord vector) ∧
        ∃ place, (echoPlaces shape stdout vectors)[index]? = some (some place) ∧
          StandsAt stdout place (expectedEcho shape vector)) := by
  obtain ⟨inside, rfl⟩ := List.getElem?_eq_some_iff.mp there
  have counts := readCounts_eq stdout vectors.length 0 (by omega)
  simp only [Nat.mul_zero, Nat.zero_add] at counts
  have echoes : expectedEcho shape = echo := by
    funext vector
    simp [expectedEcho, writes]
  have pair : (vectors.zip (readCounts stdout vectors.length 0).1)[index]? =
      some (vectors[index], wordAt stdout (8 * index)) := by
    rw [counts, List.getElem?_zip_eq_some]
    exact ⟨there, by simp [inside]⟩
  obtain ⟨result, listed, passed⟩ := echoCases_passed jsonText stdout echo
    (shapeEcho_nonempty writes) (readCounts stdout vectors.length 0).2 _ index _ _ pair
  refine ⟨result, by rw [evaluate, writes]; exact listed, ?_⟩
  rw [passed, wordAt_eq_some_iff, echoPlaces, echoes, counts]
  have lengths (words : List (Option UInt64)) (enough : vectors.length ≤ words.length) :
      ((vectors.zip words).map fun pair => (echo pair.1).length) =
        (vectors.map echo).map List.length := by
    have firsts := congrArg (List.map (fun vector => (echo vector).length))
      (List.map_fst_zip enough)
    rw [List.map_map] at firsts
    rw [List.map_map]
    exact firsts
  rw [lengths _ (by simp)]
  exact Iff.rfl

/-- The verdicts all pass exactly when every vector does. -/
theorem allPassed_iff (cases : List VectorResult) (vectors : List TestVector)
    (length : cases.length = vectors.length) (good : Nat → TestVector → Prop)
    (passed : ∀ index vector, vectors[index]? = some vector →
      ∃ result, cases[index]? = some result ∧ (result.passed = true ↔ good index vector)) :
    cases.all VectorResult.passed = true ↔
      ∀ index vector, vectors[index]? = some vector → good index vector := by
  rw [List.all_eq_true]
  constructor
  · intro all index vector there
    obtain ⟨result, listed, same⟩ := passed index vector there
    exact same.mp (all result (List.mem_of_getElem? listed))
  · intro all result member
    obtain ⟨index, inside, rfl⟩ := List.mem_iff_getElem.mp member
    have there := List.getElem?_eq_getElem (length ▸ inside : index < vectors.length)
    obtain ⟨other, listed, same⟩ := passed index _ there
    rw [List.getElem?_eq_getElem inside, Option.some.injEq] at listed
    rw [listed]
    exact same.mpr (all index _ there)

theorem echoCases_length (jsonText : Json → String) (stdout : List UInt8)
    (echo : TestVector → List UInt8) (offset : Nat) (pairs : List (TestVector × Option UInt64)) :
    (echoCases jsonText stdout echo offset pairs).length = pairs.length := by
  induction pairs generalizing offset with
  | nil => rfl
  | cons pair pairs inductionHypothesis =>
    rw [echoCases, List.length_cons, List.length_cons, inductionHypothesis]

/-- A vector whose echo is not cut off has it looked for at its own place. -/
theorem echoPlaces_of_fits {shape : HarnessShape} {stdout : List UInt8}
    {vectors : List TestVector} {index : Nat} {vector : TestVector}
    (there : vectors[index]? = some vector)
    (fits : echoStart shape vectors index + (expectedEcho shape vector).length ≤ stdout.length) :
    (echoPlaces shape stdout vectors)[index]? = some (some (echoStart shape vectors index)) := by
  obtain ⟨inside, rfl⟩ := List.getElem?_eq_some_iff.mp there
  have whole : min vectors.length (stdout.length / 8) = vectors.length := by
    simp only [echoStart, start] at fits
    omega
  have short : index < ((vectors.map (expectedEcho shape)).map List.length).length := by
    simpa using inside
  have end_inside : start (8 * vectors.length) ((vectors.map (expectedEcho shape)).map List.length)
      index + ((vectors.map (expectedEcho shape)).map List.length)[index] ≤ stdout.length := by
    rw [List.getElem_map, List.getElem_map]
    exact fits
  rw [echoPlaces, whole, List.getElem?_eq_getElem (by simpa using inside),
    places_of_fits short end_inside]
  rfl

/-- A vector of a shape that only returns words passes when its word is in place. -/
theorem evaluate_words (jsonText : Json → String) {shape : HarnessShape}
    (wordsOnly : shapeEcho shape = none) (stdout : List UInt8) (vectors : List TestVector)
    (index : Nat) (vector : TestVector) (there : vectors[index]? = some vector) :
    ∃ result, (evaluate jsonText stdout vectors shape).cases[index]? = some result ∧
      (result.passed = true ↔ InPlace shape stdout vectors index vector) := by
  obtain ⟨inside, rfl⟩ := List.getElem?_eq_some_iff.mp there
  have pair : (vectors.zip ((List.range vectors.length).map fun i => wordAt stdout (i * 8)))[index]? =
      some (vectors[index], wordAt stdout (index * 8)) := by
    rw [List.getElem?_zip_eq_some]
    exact ⟨there, by simp [inside]⟩
  have echo : StandsAt stdout (echoStart shape vectors index) (expectedEcho shape vectors[index]) := by
    simp [expectedEcho, wordsOnly, StandsAt]
  rw [evaluate, wordsOnly]
  refine ⟨_, by simp only [evaluateWordsOnly]; rw [List.getElem?_map, pair]; rfl, ?_⟩
  rw [wordVerdict_iff, wordAt_eq_some_iff, Nat.mul_comm]
  exact ⟨fun word => ⟨word, echo⟩, And.left⟩

/-- Where every word is in place and every echo is looked for and met, every vector is in place. -/
theorem inPlace_of_passed (shape : HarnessShape) (stdout : List UInt8) (vectors : List TestVector)
    (passed : ∀ index vector, vectors[index]? = some vector →
      StandsAt stdout (8 * index) (expectedWord vector) ∧
        ∃ place, (echoPlaces shape stdout vectors)[index]? = some (some place) ∧
          StandsAt stdout place (expectedEcho shape vector)) :
    ∀ index vector, vectors[index]? = some vector →
      InPlace shape stdout vectors index vector := by
  intro index vector there
  obtain ⟨word, place, found, stands⟩ := passed index vector there
  obtain ⟨inside, rfl⟩ := List.getElem?_eq_some_iff.mp there
  have last := (passed (vectors.length - 1) _ (List.getElem?_eq_getElem (by omega))).1
  have long := last.fits (by simp [expectedWord, ← List.length_pos_iff])
  rw [expectedWord, wordBytes_length] at long
  have whole : min vectors.length (stdout.length / 8) = vectors.length := by omega
  rw [echoPlaces, whole] at found
  have all : ∀ place ∈ places stdout.length (8 * vectors.length)
      ((vectors.map (expectedEcho shape)).map List.length), place ≠ none := by
    intro other member
    obtain ⟨position, short, rfl⟩ := List.mem_iff_getElem.mp member
    have room : position < vectors.length := by simpa using short
    obtain ⟨_, place, found, _⟩ := passed position _ (List.getElem?_eq_getElem room)
    rw [echoPlaces, whole, List.getElem?_eq_getElem short, Option.some.injEq] at found
    rw [found]
    exact Option.some_ne_none place
  rw [places_of_all all found] at stands
  exact ⟨word, stands⟩

/-- A vector in place passes. -/
theorem passed_of_inPlace {shape : HarnessShape} {echo : TestVector → List UInt8}
    (writes : shapeEcho shape = some echo) {stdout : List UInt8} {vectors : List TestVector}
    {index : Nat} {vector : TestVector} (there : vectors[index]? = some vector)
    (inPlace : InPlace shape stdout vectors index vector) :
    StandsAt stdout (8 * index) (expectedWord vector) ∧
      ∃ place, (echoPlaces shape stdout vectors)[index]? = some (some place) ∧
        StandsAt stdout place (expectedEcho shape vector) := by
  have nonempty : expectedEcho shape vector ≠ [] := by
    simpa [expectedEcho, writes] using shapeEcho_nonempty writes vector
  exact ⟨inPlace.1, _, echoPlaces_of_fits there (inPlace.2.fits nonempty), inPlace.2⟩

/-- The verdicts are exact except for echoes that are cut off and met elsewhere.

    Proof: an echo that is not cut off is looked for at its own place, since all before
    it fit as well. If all vectors pass, all echoes fit, so the verdict on the whole is
    always exact. -/
theorem verdicts_exact_iff (jsonText : Json → String) (shape : HarnessShape)
    (stdout : List UInt8) (vectors : List TestVector) :
    VerdictsExact jsonText shape stdout vectors ↔ NoStrayEcho shape stdout vectors := by
  unfold VerdictsExact NoStrayEcho
  rw [canonicalOutput_prefix_iff]
  cases writes : shapeEcho shape with
  | none =>
    have exact_ := evaluate_words jsonText writes stdout vectors
    refine iff_of_true ⟨exact_, ?_⟩ (fun other => absurd rfl other)
    have all := allPassed_iff (evaluate jsonText stdout vectors shape).cases vectors
      (by simp [evaluate, writes, evaluateWordsOnly]) (InPlace shape stdout vectors) exact_
    simpa [evaluate, writes, evaluateWordsOnly] using all
  | some echo =>
    have decoded := evaluate_writes jsonText writes stdout vectors
    have all := allPassed_iff (evaluate jsonText stdout vectors shape).cases vectors
      (by
        rw [evaluate, writes]
        simp [evaluateCountAndBuffer, echoCases_length, readCounts_eq stdout vectors.length 0
          (by omega)])
      _ decoded
    constructor
    · rintro ⟨exact_, _⟩ _ index vector place there short found ⟨word, stands⟩
      obtain ⟨result, listed, passed⟩ := decoded index vector there
      obtain ⟨other, sameListed, inPlace⟩ := exact_ index vector there
      rw [listed, Option.some.injEq] at sameListed
      subst sameListed
      have nonempty : expectedEcho shape vector ≠ [] := by
        simpa [expectedEcho, writes] using shapeEcho_nonempty writes vector
      have fits := (inPlace.mp (passed.mpr ⟨word, place, found, stands⟩)).2.fits nonempty
      omega
    · intro noStray
      refine ⟨fun index vector there => ?_, ?_⟩
      · obtain ⟨result, listed, passed⟩ := decoded index vector there
        refine ⟨result, listed, passed.trans ⟨?_, passed_of_inPlace writes there⟩⟩
        rintro ⟨word, place, found, stands⟩
        by_cases fits : echoStart shape vectors index + (expectedEcho shape vector).length ≤
            stdout.length
        · rw [echoPlaces_of_fits there fits] at found
          cases found
          exact ⟨word, stands⟩
        · exact absurd ⟨word, stands⟩
            (noStray (by simp) index vector place there (by omega) found)
      · have whole : (evaluate jsonText stdout vectors shape).allPassed =
            (evaluate jsonText stdout vectors shape).cases.all VectorResult.passed := by
          rw [evaluate, writes]
          rfl
        rw [whole, all]
        exact ⟨inPlace_of_passed shape stdout vectors, fun inPlace index vector there =>
          passed_of_inPlace writes there (inPlace index vector there)⟩

/-- Two fills of no bytes. -/
def emptyFills : List TestVector :=
  [⟨"first", [.null, .ofU64 0, .ofU64 0], .ofU64 0⟩, ⟨"second", [.null, .ofU64 0, .ofU64 0], .ofU64 0⟩]

/-- One word and one echo, the second word is missing. -/
def cutOutput : List UInt8 := [0, 0, 0, 0, 0, 0, 0, 0, 0xA5, 0x5A]

/-- The first fill passes although its echo is not in place. -/
theorem echo_in_the_place_of_a_word :
    ¬ ∀ jsonText shape stdout vectors, VerdictsExact jsonText shape stdout vectors := by
  intro claimed
  obtain ⟨result, listed, verdict⟩ :=
    (claimed (fun _ => "") .memset cutOutput emptyFills).1 0 _ rfl
  have passes : ((evaluate (fun _ => "") cutOutput emptyFills .memset).cases[0]?).map
      VectorResult.passed = some true := by
    decide
  rw [listed, Option.map_some, Option.some.injEq] at passes
  have echo := (verdict.mp passes).2
  revert echo
  decide

end Semasm.Agent.Harness
