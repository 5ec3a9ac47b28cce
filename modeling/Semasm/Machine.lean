import Semasm.Contract.Alias
import Semasm.Library.ByteMemory
import Semasm.Library.StraightLine

/-!
# What the load-store machines share

Accesses, outcomes and environments of the AArch64 and RISC-V machines, over a state of
either. Values are kept in memory with the least significant byte first.
-/

namespace Semasm.Machine

open Contract Library

/-- A 64-bit value or address. -/
abbrev Word := BitVec 64

/-- What an instruction takes from outside: the state another routine or an instruction
outside the subset leaves, a result that depends on dropped text, and whether a branch is
taken. -/
structure Environment (State : Type) where
  returned : State
  result : Word
  taken : Bool

/-- One access of memory. -/
structure Access where
  mode : AccessMode
  address : Word
  bytes : Nat
deriving DecidableEq, Repr

/-- Where control goes after an instruction. -/
inductive Next where
  | goOn | jump | leave
deriving DecidableEq, Repr

/-- What executing an instruction does. -/
structure Outcome (State : Type) where
  accesses : List Access
  after : State
  next : Next

/-- The value of a number of bytes in memory. -/
def loaded (mem : Word → BitVec 8) (address : Word) (bytes : Nat) (signed : Bool) : Word :=
  let value := ByteMemory.decode (ByteMemory.readBytes mem address bytes)
  if signed then (BitVec.ofNat (8 * bytes) value).signExtend 64 else BitVec.ofNat 64 value

/-- The memory after a value is stored in a number of bytes. -/
def stored (mem : Word → BitVec 8) (address : Word) (bytes : Nat) (value : Word) :
    Word → BitVec 8 :=
  ByteMemory.writeBytes mem address (ByteMemory.encode bytes value.toNat)

/-- A store leaves the bytes outside its run alone. -/
theorem stored_outside (mem : Word → BitVec 8) (address : Word) (bytes : Nat) (value byte : Word)
    (small : bytes ≤ 8) (outside : ¬ ByteMemory.Within address bytes byte) :
    stored mem address bytes value byte = mem byte := by
  apply ByteMemory.writeBytes_outside
  · rw [ByteMemory.encode_length]
    omega
  · rwa [ByteMemory.encode_length]

end Semasm.Machine
