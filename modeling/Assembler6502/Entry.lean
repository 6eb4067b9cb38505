import Assembler6502.Text.Basic

/-!
# Entries of object code

Between the two passes, object code holds values and the names of labels whose branch values are
not known yet.
-/

namespace Assembler6502

inductive Entry where
  | value (value : Int)
  | label (name : Text)
deriving DecidableEq, Repr

end Assembler6502
