import Assembler6502.Entry
import Assembler6502.Problem
import Assembler6502.Report
import Assembler6502.SymbolTable

/-!
# Branches

The second pass replaces every label in object code by the value that a branch to it needs.
-/

namespace Assembler6502

/-- Flips the bits of an integer at the positions that are set in a mask. Negative integers have
infinitely many leading ones. -/
def flipBits (mask : Nat) : Int → Int
  | .ofNat number => .ofNat (number ^^^ mask)
  | .negSucc number => .negSucc (number ^^^ mask)

/-- The complement of a number with respect to a byte: flip the lower eight bits and add one. -/
def twosComplement (number : Int) : Int :=
  flipBits 0xff number + 1

/-- The value of a branch that stands at `index`, just after its opcode, and goes to `position`. -/
def branchValue (position : Int) (index : Nat) : Int :=
  let offset := position - index
  if offset > 0 then offset - 1 else twosComplement (offset - 1).natAbs

/-- Resolves the labels of object code that starts at `index`. A label that is not in the table is
reported, and the branch goes to the position of the last label that was found. -/
def resolveFrom (symbols : SymbolTable) (last : Option Int) (index : Nat) :
    List Entry → Report Problem (List Int)
  | [] => ⟨[], .ok []⟩
  | .value value :: rest =>
    (resolveFrom symbols last (index + 1) rest).map (value :: ·)
  | .label name :: rest =>
    let found := symbols.find? name
    let notices := if found.isSome then [] else [.labelNotFound]
    match found.or last with
    | none => ⟨notices, .error .noPosition⟩
    | some position =>
      ((resolveFrom symbols (some position) (index + 1) rest).map
        (branchValue position index :: ·)).preceded notices

def resolve (symbols : SymbolTable) (objectCode : List Entry) : Report Problem (List Int) :=
  resolveFrom symbols none 0 objectCode

end Assembler6502
