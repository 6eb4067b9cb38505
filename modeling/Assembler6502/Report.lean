import Assembler6502.Numeral.Hexadecimal

/-!
# Notices and reports

What the assembler tells while it works, and the outcome of a piece of work together with what was
told on the way. The notices stay in the report when the work fails.
-/

namespace Assembler6502

inductive Notice where
  | labelNotFound
  | assembled (count : Nat) (origin : Int)
  | writingCoefficients (path : Text)
  | writingMemory (path : Text)
deriving DecidableEq, Repr

namespace Notice

/-- Whether a notice only reports progress, which a quiet run leaves out. -/
def isProgress : Notice → Bool
  | labelNotFound => false
  | assembled _ _ | writingCoefficients _ | writingMemory _ => true

def text : Notice → Text
  | labelNotFound => "ERROR: Label not found\n".toList
  | assembled count origin =>
    s!"Assembling {count} bytes at offset ".toList ++ Hexadecimal.write origin ++ "...\n".toList
  | writingCoefficients path =>
    "Generating coefficients file at ".toList ++ path ++ ".\n".toList
  | writingMemory path =>
    "Generating memory initialization file at ".toList ++ path ++ ".\n".toList

def unlessQuiet (quiet : Bool) (notice : Notice) : List Notice :=
  if quiet then [] else [notice]

def printed (notices : List Notice) : Text :=
  notices.flatMap text

end Notice

structure Report (ε α : Type) where
  notices : List Notice
  result : Except ε α

namespace Report

def map {ε α β : Type} (f : α → β) (report : Report ε α) : Report ε β :=
  ⟨report.notices, report.result.map f⟩

def preceded {ε α : Type} (notices : List Notice) (report : Report ε α) : Report ε α :=
  ⟨notices ++ report.notices, report.result⟩

end Report

end Assembler6502
