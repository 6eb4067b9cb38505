import Assembler6502.Proofs.Classification
import Assembler6502.Proofs.TwoPasses

/-!
# The object code of a line

A line that can be encoded has an instruction, and its object code is the opcode of that
instruction and the entries that the addressing mode takes from the operand. This file says once
what these entries are for every mode. The opcode is a byte that no other pair of a mnemonic and a
mode has, and the mode alone decides how many entries there are.
-/

namespace Assembler6502

/-! ## Opcodes -/

namespace Mnemonic

theorem mem_all (mnemonic : Mnemonic) : mnemonic ∈ all := by
  cases mnemonic <;> decide

theorem eq_of_ofName?
    {name other : Text} {mnemonic : Mnemonic}
    (hname : ofName? name = some mnemonic) (hother : ofName? other = some mnemonic) :
    name = other := by
  have hfirst : mnemonic.name = name := by simpa using List.find?_some hname
  have hsecond : mnemonic.name = other := by simpa using List.find?_some hother
  exact hfirst.symm.trans hsecond

/-- All opcodes with the instructions they stand for. -/
def opcodeTable : List (Nat × Mnemonic × AddressingMode) :=
  all.flatMap fun mnemonic =>
    mnemonic.opcodes.map fun entry => (entry.2, mnemonic, entry.1)

theorem mem_opcodeTable
    {mnemonic : Mnemonic} {mode : AddressingMode} {opcode : Nat}
    (hopcode : mnemonic.opcode? mode = some opcode) :
    (opcode, mnemonic, mode) ∈ opcodeTable := by
  obtain ⟨first, last, hsplit, -⟩ := List.lookup_eq_some_iff.mp hopcode
  have hentry : (mode, opcode) ∈ mnemonic.opcodes := by simp [hsplit]
  apply List.mem_flatMap.mpr
  exact ⟨mnemonic, mem_all mnemonic, List.mem_map.mpr ⟨(mode, opcode), hentry, rfl⟩⟩

theorem opcodeTable_nodup : (opcodeTable.map Prod.fst).Nodup := by
  decide +kernel

theorem opcode?_injective
    {mnemonic other : Mnemonic} {mode otherMode : AddressingMode} {opcode : Nat}
    (hopcode : mnemonic.opcode? mode = some opcode)
    (hother : other.opcode? otherMode = some opcode) :
    mnemonic = other ∧ mode = otherMode := by
  have hequal := List.inj_on_of_nodup_map opcodeTable_nodup
    (mem_opcodeTable hopcode) (mem_opcodeTable hother) rfl
  simpa using hequal

theorem opcode?_le
    {mnemonic : Mnemonic} {mode : AddressingMode} {opcode : Nat}
    (hopcode : mnemonic.opcode? mode = some opcode) :
    opcode ≤ 0xff := by
  have hbytes : ∀ entry ∈ opcodeTable, entry.1 ≤ 0xff := by decide +kernel
  exact hbytes _ (mem_opcodeTable hopcode)

end Mnemonic

/-! ## Operands -/

namespace Operand

theorem readNumeral_eq_ok_iff (text : Text) (number : Int) :
    readNumeral text = .ok number ↔ Hexadecimal.read? text = some number := by
  unfold readNumeral
  cases Hexadecimal.read? text with
  | none => simp
  | some value => simp

theorem trimmedValue_eq_ok
    {marks : Text} {operand : Option Text} {entry : Option Entry}
    (hentry : trimmedValue marks operand = .ok entry) :
    ∃ text number, operand = some text ∧
      Hexadecimal.read? (text.trimBy marks.contains) = some number ∧
      entry = some (.value number) := by
  cases operand with
  | none => simp [trimmedValue] at hentry
  | some text =>
      cases hnumber : readNumeral (text.trimBy marks.contains) with
      | error problem => simp [trimmedValue, hnumber, Except.map] at hentry
      | ok number =>
          simp only [trimmedValue, hnumber, Except.map, Except.ok.injEq] at hentry
          exact ⟨text, number, rfl, (readNumeral_eq_ok_iff _ _).mp hnumber, hentry.symm⟩

theorem slicedValue_eq_ok
    {start stop : Nat} {operand : Option Text} {entry : Option Entry}
    (hentry : slicedValue start stop operand = .ok entry) :
    ∃ text number, operand = some text ∧
      Hexadecimal.read? (text.slice start stop) = some number ∧
      entry = some (.value number) := by
  cases operand with
  | none => simp [slicedValue] at hentry
  | some text =>
      cases hnumber : readNumeral (text.slice start stop) with
      | error problem => simp [slicedValue, hnumber, Except.map] at hentry
      | ok number =>
          simp only [slicedValue, hnumber, Except.map, Except.ok.injEq] at hentry
          exact ⟨text, number, rfl, (readNumeral_eq_ok_iff _ _).mp hnumber, hentry.symm⟩

end Operand

/-- What stands behind the opcode of an instruction in a mode, for an operand. -/
inductive OperandCode : AddressingMode → Option Text → List Entry → Prop
  | accumulator (operand : Option Text) : OperandCode .accumulator operand []
  | implied (operand : Option Text) : OperandCode .implied operand []
  | relative (name : Text) : OperandCode .relative (some name) [.label name]
  | immediate {text : Text} {number : Int}
      (hread : Hexadecimal.read? (text.trimBy ['#', '$'].contains) = some number) :
      OperandCode .immediate (some text) [.value number]
  | zeroPage {text : Text} {number : Int}
      (hread : Hexadecimal.read? (text.trimBy ['$'].contains) = some number) :
      OperandCode .zeroPage (some text) [.value number]
  | zeroPageX {text : Text} {number : Int}
      (hread : Hexadecimal.read? (text.slice 1 3) = some number) :
      OperandCode .zeroPageX (some text) [.value number]
  | absolute {mode : AddressingMode} {text : Text} {low high : Int}
      (hmode : mode.IsAbsolute)
      (hlow : Hexadecimal.read? (text.slice 3 5) = some low)
      (hhigh : Hexadecimal.read? (text.slice 1 3) = some high) :
      OperandCode mode (some text) [.value low, .value high]
  | pointer {mode : AddressingMode} {text : Text} {number : Int}
      (hmode : mode.IsPointer)
      (hread : Hexadecimal.read? (text.slice 2 4) = some number) :
      OperandCode mode (some text) [.value number]

theorem OperandCode.length_succ
    {mode : AddressingMode} {operand : Option Text} {code : List Entry}
    (hcode : OperandCode mode operand code) :
    code.length + 1 = mode.size := by
  cases hcode with
  | absolute hmode _ _ => rcases hmode with rfl | rfl | rfl <;> rfl
  | pointer hmode _ => rcases hmode with rfl | rfl <;> rfl
  | _ => rfl

theorem OperandCode.absolute_of_entries
    {mode : AddressingMode} {operand : Option Text} {low high : Option Entry}
    (hmode : mode.IsAbsolute)
    (hlow : Operand.slicedValue 3 5 operand = .ok low)
    (hhigh : Operand.slicedValue 1 3 operand = .ok high) :
    OperandCode mode operand (low.toList ++ high.toList) := by
  obtain ⟨text, number, rfl, hlowRead, rfl⟩ := Operand.slicedValue_eq_ok hlow
  obtain ⟨_, other, hsame, hhighRead, rfl⟩ := Operand.slicedValue_eq_ok hhigh
  obtain rfl := Option.some.inj hsame
  exact .absolute hmode hlowRead hhighRead

theorem OperandCode.of_entries
    {mode : AddressingMode} {operand : Option Text} {low high : Option Entry}
    (hmode : Operand.mode operand = .ok mode)
    (hlow : mode.lowEntry operand = .ok low)
    (hhigh : mode.highEntry operand = .ok high) :
    OperandCode mode operand (low.toList ++ high.toList) := by
  cases mode with
  | accumulator =>
      obtain rfl := Except.ok.inj hlow
      obtain rfl := Except.ok.inj hhigh
      exact .accumulator operand
  | implied =>
      obtain rfl := Except.ok.inj hlow
      obtain rfl := Except.ok.inj hhigh
      exact .implied operand
  | relative =>
      obtain rfl := Except.ok.inj hlow
      obtain rfl := Except.ok.inj hhigh
      cases operand with
      | none => exact absurd hmode (by decide)
      | some name => exact .relative name
  | immediate =>
      obtain ⟨text, number, rfl, hread, rfl⟩ := Operand.trimmedValue_eq_ok hlow
      obtain rfl := Except.ok.inj hhigh
      exact .immediate hread
  | zeroPage =>
      obtain ⟨text, number, rfl, hread, rfl⟩ := Operand.trimmedValue_eq_ok hlow
      obtain rfl := Except.ok.inj hhigh
      exact .zeroPage hread
  | zeroPageX =>
      obtain ⟨text, number, rfl, hread, rfl⟩ := Operand.slicedValue_eq_ok hlow
      obtain rfl := Except.ok.inj hhigh
      exact .zeroPageX hread
  | absolute => exact absolute_of_entries (Or.inl rfl) hlow hhigh
  | absoluteX => exact absolute_of_entries (Or.inr (Or.inl rfl)) hlow hhigh
  | absoluteY => exact absolute_of_entries (Or.inr (Or.inr rfl)) hlow hhigh
  | indirectX =>
      obtain ⟨text, number, rfl, hread, rfl⟩ := Operand.slicedValue_eq_ok hlow
      obtain rfl := Except.ok.inj hhigh
      exact .pointer (Or.inl rfl) hread
  | indirectY =>
      obtain ⟨text, number, rfl, hread, rfl⟩ := Operand.slicedValue_eq_ok hlow
      obtain rfl := Except.ok.inj hhigh
      exact .pointer (Or.inr rfl) hread
  | zeroPageY => simp [AddressingMode.lowEntry] at hlow
  | indirect => simp [AddressingMode.lowEntry] at hlow

theorem Operand.slicedValue_of_read?
    {start stop : Nat} {text : Text} {number : Int}
    (hread : Hexadecimal.read? (text.slice start stop) = some number) :
    slicedValue start stop (some text) = .ok (some (.value number)) := by
  simp [slicedValue, readNumeral, hread, Except.map]

theorem Operand.trimmedValue_of_read?
    {marks text : Text} {number : Int}
    (hread : Hexadecimal.read? (text.trimBy marks.contains) = some number) :
    trimmedValue marks (some text) = .ok (some (.value number)) := by
  simp only [trimmedValue, readNumeral, hread, Except.map]

/-- The first entry behind the opcode is the low entry of the operand and the second one the high
entry. -/
theorem OperandCode.entries_eq
    {mode : AddressingMode} {operand : Option Text} {code : List Entry}
    (hcode : OperandCode mode operand code) :
    mode.lowEntry operand = .ok code[0]? ∧ mode.highEntry operand = .ok code[1]? := by
  cases hcode with
  | accumulator | implied | relative => exact ⟨rfl, rfl⟩
  | immediate hread | zeroPage hread => exact ⟨Operand.trimmedValue_of_read? hread, rfl⟩
  | zeroPageX hread => exact ⟨Operand.slicedValue_of_read? hread, rfl⟩
  | absolute hmode hlow hhigh =>
      rcases hmode with rfl | rfl | rfl <;>
        exact ⟨Operand.slicedValue_of_read? hlow, Operand.slicedValue_of_read? hhigh⟩
  | pointer hmode hread =>
      rcases hmode with rfl | rfl <;> exact ⟨Operand.slicedValue_of_read? hread, rfl⟩

/-! ## Lines -/

/-- How a statement got its instruction. -/
structure Statement.HasInstruction (statement : Statement) (instruction : Instruction) : Prop where
  mnemonic : Mnemonic.ofName? statement.mnemonic = some instruction.mnemonic
  mode : Operand.mode statement.operand = .ok instruction.mode
  opcode : instruction.mnemonic.opcode? instruction.mode = some instruction.opcode

theorem Statement.hasInstruction_of_eq_ok
    {statement : Statement} {instruction : Instruction}
    (hinstruction : statement.instruction = .ok instruction) :
    statement.HasInstruction instruction := by
  unfold Statement.instruction at hinstruction
  split at hinstruction
  · simp at hinstruction
  next mode hmode =>
      split at hinstruction
      · simp at hinstruction
      next mnemonic hmnemonic =>
          split at hinstruction
          · simp at hinstruction
          next opcode hopcode =>
              obtain rfl := Except.ok.inj hinstruction
              exact ⟨hmnemonic, hmode, hopcode⟩

namespace CodeLine

/-- The number of bytes of a line's instruction, and nothing for a line without one. -/
def size (line : Text) : Nat :=
  match (Statement.ofLine line).instruction with
  | .error _ => 0
  | .ok instruction => instruction.mode.size

/-- The number of bytes of the instructions of lines. -/
def codeSize (lines : List Text) : Nat :=
  (lines.map size).sum

@[simp] theorem codeSize_nil : codeSize [] = 0 := rfl

@[simp] theorem codeSize_cons (line : Text) (rest : List Text) :
    codeSize (line :: rest) = size line + codeSize rest := by
  simp [codeSize]

@[simp] theorem codeSize_append (first second : List Text) :
    codeSize (first ++ second) = codeSize first + codeSize second := by
  simp [codeSize]

/-- A line with its instruction and the entries behind the opcode. -/
structure IsEncodedAs (line : Text) (instruction : Instruction) (code : List Entry) : Prop where
  instruction_eq : (Statement.ofLine line).instruction = .ok instruction
  operand : OperandCode instruction.mode (Statement.ofLine line).operand code

theorem IsEncodedAs.hasInstruction
    {line : Text} {instruction : Instruction} {code : List Entry}
    (hline : IsEncodedAs line instruction code) :
    (Statement.ofLine line).HasInstruction instruction :=
  Statement.hasInstruction_of_eq_ok hline.instruction_eq

theorem IsEncodedAs.size_eq
    {line : Text} {instruction : Instruction} {code : List Entry}
    (hline : IsEncodedAs line instruction code) :
    size line = code.length + 1 := by
  rw [size, hline.instruction_eq, hline.operand.length_succ]

theorem IsEncodedAs.size_pos
    {line : Text} {instruction : Instruction} {code : List Entry}
    (hline : IsEncodedAs line instruction code) :
    0 < size line := by
  rw [hline.size_eq]
  exact Nat.succ_pos _

theorem IsEncodable.exists_isEncodedAs
    {line : Text} (hline : IsEncodable line) :
    ∃ instruction code,
      IsEncodedAs line instruction code ∧
      entries line = .value instruction.opcode :: code := by
  have hencode := hline.encode_eq
  unfold encode at hencode
  split at hencode
  · simp at hencode
  next instruction hinstruction =>
      have hmode := (Statement.hasInstruction_of_eq_ok hinstruction).mode
      unfold Instruction.encode at hencode
      split at hencode
      · simp at hencode
      next low hlow =>
          split at hencode
          · simp at hencode
          next high hhigh =>
              refine ⟨instruction, low.toList ++ high.toList,
                ⟨hinstruction, OperandCode.of_entries hmode hlow hhigh⟩, ?_⟩
              exact (Except.ok.inj hencode).symm

theorem IsEncodable.length_entries
    {line : Text} (hline : IsEncodable line) :
    (entries line).length = size line := by
  obtain ⟨instruction, code, hencoded, hentries⟩ := hline.exists_isEncodedAs
  rw [hentries, List.length_cons, hencoded.size_eq]

theorem length_flatMap_entries
    {lines : List Text} (hlines : ∀ line ∈ lines, IsEncodable line) :
    (lines.flatMap entries).length = codeSize lines := by
  induction lines with
  | nil => rfl
  | cons line rest ih =>
      obtain ⟨hline, hrest⟩ := List.forall_mem_cons.mp hlines
      rw [List.flatMap_cons, List.length_append, hline.length_entries, ih hrest,
        codeSize_cons]

end CodeLine

end Assembler6502
