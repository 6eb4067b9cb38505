import Assembler6502.Text.Basic

/-!
# Symbol tables

The positions of labels in a block's code. A label keeps its place in the table when its position
changes.
-/

namespace Assembler6502

/-- Labels with their positions, in the order in which the labels were first recorded. -/
structure SymbolTable where
  entries : List (Text × Int)
deriving DecidableEq, Repr

namespace SymbolTable

def empty : SymbolTable :=
  ⟨[]⟩

def find? (table : SymbolTable) (label : Text) : Option Int :=
  table.entries.lookup label

/-- Replaces the position of a label, or adds the label at the end. -/
def insertEntry (label : Text) (position : Int) : List (Text × Int) → List (Text × Int)
  | [] => [(label, position)]
  | entry :: rest =>
    if entry.1 = label then (label, position) :: rest
    else entry :: insertEntry label position rest

def insert (table : SymbolTable) (label : Text) (position : Int) : SymbolTable :=
  ⟨insertEntry label position table.entries⟩

/-- Records the label of a statement. A statement without a label, or with an empty one, changes
nothing. -/
def record (table : SymbolTable) (label : Option Text) (position : Int) : SymbolTable :=
  match label with
  | none | some [] => table
  | some name => table.insert name position

def sorted (table : SymbolTable) : List (Text × Int) :=
  table.entries.mergeSort fun first second => first.1.le second.1

end SymbolTable

end Assembler6502
