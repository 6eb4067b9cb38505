import Assembler6502.Branch
import Assembler6502.Statement

/-!
# Blocks

A block is assembled in two passes. The first one encodes the lines and records their labels, the
second one resolves the branches. Symbols stay recorded when a pass fails and when the block gets
another source.
-/

namespace Assembler6502

/-- Encodes lines of code whose first entry comes at `position`. The symbol table has the labels
of all lines before the first one that fails, and the label of that line if only its operand could
not be read. -/
def encodeLines (symbols : SymbolTable) (position : Nat) :
    List Text → SymbolTable × Except Problem (List Entry)
  | [] => (symbols, .ok [])
  | line :: rest =>
    let statement := Statement.ofLine line
    match statement.instruction with
    | .error problem => (symbols, .error problem)
    | .ok instruction =>
      let recorded := symbols.record statement.label position
      match instruction.encode statement.operand with
      | .error problem => (recorded, .error problem)
      | .ok entries =>
        let later := encodeLines recorded (position + entries.length) rest
        (later.1, later.2.map (entries ++ ·))

/-- A list of code lines and what assembling has made of it so far. -/
structure Block where
  source : List Text
  symbols : SymbolTable
  objectCode : List Entry
  execCode : List Int
deriving DecidableEq, Repr

namespace Block

def ofSource (source : List Text) : Block :=
  ⟨source, .empty, [], []⟩

def size (block : Block) : Nat :=
  block.execCode.length

def setSource (block : Block) (source : List Text) : Block :=
  { block with source }

/-- Encodes the source. Only the symbols of the block change. -/
def firstPass (block : Block) : Block × Except Problem (List Entry) :=
  let encoded := encodeLines block.symbols 0 block.source
  ({ block with symbols := encoded.1 }, encoded.2)

/-- Resolves the branches of the object code. The block does not change. -/
def secondPass (block : Block) : Report Problem (List Int) :=
  resolve block.symbols block.objectCode

/-- Assembles the source. The object code is replaced when the first pass succeeds, and the
executable code when both passes do. -/
def assemble (block : Block) : Block × Report Problem Unit :=
  match block.firstPass with
  | (encoded, .error problem) => (encoded, ⟨[], .error problem⟩)
  | (encoded, .ok objectCode) =>
    let linked := { encoded with objectCode }
    let resolved := linked.secondPass
    match resolved.result with
    | .error problem => (linked, ⟨resolved.notices, .error problem⟩)
    | .ok execCode => ({ linked with execCode }, ⟨resolved.notices, .ok ()⟩)

end Block

end Assembler6502
