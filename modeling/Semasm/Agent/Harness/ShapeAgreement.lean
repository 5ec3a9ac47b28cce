import Semasm.Agent.Harness.VectorTruth

/-!
# Oracle, vectors and harness shape agree

The oracle, the vectors and the harness shape of a contract are found in three separate
chains. All of them follow the order of the recognized shapes, and the layout detected on
the first vector of a shape goes with the one its oracle expects.
-/

namespace Semasm.Agent.Harness

open Contract

/-- The harness shape of a recognized contract. -/
def RecognizedShape.harness : RecognizedShape → HarnessShape
  | .scan _ => .bufferScan
  | .replaceByte _ => .replaceByte
  | .memset _ => .memset
  | .memcpy _ => .memcpy
  | .memcmp _ => .memCmp
  | .i64Sum _ => .i64Sum
  | .pureInt _ | .pureIntI64 _ => .pureInt
  | .pureIntUnaryI64 _ => .pureIntUnary
  | .cellLoad => .cellLoad
  | .cellStore => .cellStore

/-- The layout detected on the vectors of a shape. The fill, the copy and the cell store
share the layout of another shape. -/
def RecognizedShape.layout : RecognizedShape → HarnessShape
  | .memset _ => .bufferScan
  | .memcpy _ => .memCmp
  | .cellStore => .i64Sum
  | shape => shape.harness

/-- The oracle of a shape expects its harness shape. -/
theorem oracleExpectedShape_oracle (shape : RecognizedShape) :
    oracleExpectedShape shape.oracle.id = .ok shape.harness := by
  cases shape with
  | scan shape => cases op : shape.op <;> simp [RecognizedShape.oracle, op] <;> rfl
  | _ => rfl

/-- The layout of a shape goes with its harness shape. -/
theorem compatible_layout (shape : RecognizedShape) :
    compatible shape.harness shape.layout = true := by
  cases shape <;> rfl

/-- The vectors of a shape are detected by their layout. -/
theorem detectHarnessShape_synthesized (contract : CheckedContract) (shape : RecognizedShape)
    (recognized : recognizedShape contract = some shape) :
    detectHarnessShape (synthesizeVectors contract) = .ok shape.layout := by
  unfold synthesizeVectors
  rw [recognized]
  cases shape with
  | scan shape =>
    dsimp only
    cases shape.op <;> rfl
  | pureIntUnaryI64 op => cases op <;> rfl
  | _ => rfl

/-- Nothing is detected without vectors. -/
theorem ne_nil_of_detected (vectors : List TestVector) (shape : HarnessShape)
    (detected : detectHarnessShape vectors = .ok shape) : vectors ≠ [] := by
  rintro rfl
  cases detected

/-- Vectors are synthesized exactly when an oracle is recognized, and then the harness shape
is the one that the oracle expects.

Proof: by the recognized shape, on which all three depend. -/
theorem synthesis_agrees (contract : CheckedContract) :
    (synthesizeVectors contract ≠ [] ↔ (recognizeBehaviorOracle contract).isSome = true) ∧
      ∀ oracle, recognizeBehaviorOracle contract = some oracle →
        ∃ shape, oracleExpectedShape oracle.id = .ok shape ∧
          resolveHarnessShape contract (synthesizeVectors contract) = .ok shape := by
  rw [recognizeBehaviorOracle_eq]
  cases recognized : recognizedShape contract with
  | none =>
    refine ⟨?_, fun oracle known => ?_⟩
    · simp [synthesizeVectors, recognized]
    · cases known
  | some shape =>
    have detected := detectHarnessShape_synthesized contract shape recognized
    refine ⟨iff_of_true (ne_nil_of_detected _ _ detected) rfl, ?_⟩
    rintro oracle known
    obtain rfl : shape.oracle = oracle := Option.some.inj known
    have expected := oracleExpectedShape_oracle shape
    refine ⟨shape.harness, expected, ?_⟩
    simp only [resolveHarnessShape, recognizeBehaviorOracle_eq, recognized, Option.map_some, expected,
      detected]
    exact if_pos (compatible_layout shape)

end Semasm.Agent.Harness
