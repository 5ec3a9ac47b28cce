/-!
# Chains of checks

A chain of checks ends with the first check that refuses. It accepts exactly when every check
accepts what the checks before it returned, and it refuses with the refusal of one of its checks,
all checks before it having accepted.
-/

namespace Semasm.Library.Checks

universe u v w

variable {Refusal : Type u} {Value : Type v} {Result : Type v}

/-- A chain accepts when its first check accepts and the rest accepts what that returned. -/
theorem bind_ok_iff (first : Except Refusal Value) (rest : Value → Except Refusal Result)
    (result : Result) :
    (first >>= rest) = .ok result ↔ ∃ value, first = .ok value ∧ rest value = .ok result := by
  cases first with
  | error refusal => simp [bind, Except.bind]
  | ok value => simp [bind, Except.bind]

/-- A chain refuses when its first check does, or when that accepts and the rest refuses. -/
theorem bind_error_iff (first : Except Refusal Value) (rest : Value → Except Refusal Result)
    (refusal : Refusal) :
    (first >>= rest) = .error refusal ↔
      first = .error refusal ∨ ∃ value, first = .ok value ∧ rest value = .error refusal := by
  cases first with
  | error other => simp [bind, Except.bind]
  | ok value => simp [bind, Except.bind]

/-- A check that is told how to refuse accepts the same values. -/
theorem mapError_ok_iff {Other : Type w} (check : Except Refusal Value) (told : Refusal → Other)
    (value : Value) : check.mapError told = .ok value ↔ check = .ok value := by
  cases check with
  | error refusal =>
    change (.error (told refusal) : Except Other Value) = .ok value ↔ _
    simp
  | ok other =>
    change (.ok other : Except Other Value) = .ok value ↔ _
    simp

/-- A check that is told how to refuse refuses that way. -/
theorem mapError_error_iff {Other : Type w} (check : Except Refusal Value)
    (told : Refusal → Other) (refusal : Other) :
    check.mapError told = .error refusal ↔
      ∃ reason, check = .error reason ∧ told reason = refusal := by
  cases check with
  | error reason =>
    change (.error (told reason) : Except Other Value) = .error refusal ↔ _
    simp
  | ok other =>
    change (.ok other : Except Other Value) = .error refusal ↔ _
    simp

/-- A condition that is required, or else refused. -/
def require (condition : Bool) (refusal : Refusal) : Except Refusal PUnit.{v + 1} :=
  if condition then .ok ⟨⟩ else .error refusal

theorem require_ok_iff (condition : Bool) (refusal : Refusal) (value : PUnit.{v + 1}) :
    require condition refusal = .ok value ↔ condition = true := by
  cases condition with
  | false => simp [require]
  | true => simp [require]

theorem require_error_iff (condition : Bool) (refusal told : Refusal) :
    require.{u, v} condition refusal = .error told ↔ condition = false ∧ refusal = told := by
  cases condition with
  | false => simp [require]
  | true => simp [require]

end Semasm.Library.Checks
