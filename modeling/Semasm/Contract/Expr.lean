/-!
# The bounded contract expression language

The syntax tree the expression parser builds. Every node records the bytes of
the source text it was read from; evaluation does not consult them. Member
access, calls, ranges and indexing parse but carry no meaning of their own,
except for calls on the reserved receiver `regions`.
-/

namespace Semasm.Contract

/-- A byte range of the expression text. -/
structure SourceSpan where
  start : UInt32
  stop : UInt32
deriving DecidableEq, Repr

/-- Binary operators with fixed precedence. -/
inductive BinOp where
  | implies | or | and | eq | ne | lt | le | gt | ge | add | sub | mul | div
deriving DecidableEq, Repr

/-- Unary operators. -/
inductive UnaryOp where
  | not | neg
deriving DecidableEq, Repr

/-- Expression syntax. -/
inductive Expr where
  | int (value : Int64) (span : SourceSpan)
  | bool (value : Bool) (span : SourceSpan)
  | ident (name : String) (span : SourceSpan)
  | member (base : Expr) (field : String) (span : SourceSpan)
  | call (callee : Expr) (args : List Expr) (span : SourceSpan)
  | range (start stop : Expr) (span : SourceSpan)
  | index (base position : Expr) (span : SourceSpan)
  | unary (op : UnaryOp) (operand : Expr) (span : SourceSpan)
  | binary (op : BinOp) (left right : Expr) (span : SourceSpan)

end Semasm.Contract
