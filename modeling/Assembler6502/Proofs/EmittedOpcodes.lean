import Assembler6502.Proofs.Decoding
import Assembler6502.Proofs.FailedPasses
import Assembler6502.Proofs.FileCode
import Assembler6502.Proofs.Program.Lines

/-!
# Opcodes that lines emit

An entry of the table of opcodes is of use only if some operand is classified as its mode and the
bytes of operands can be read in this mode. That is so for all modes but two. The indirect mode and
the zero page with the Y register have opcodes, but no operand is classified as one of them and none
could be read. As no two entries share an opcode, their three opcodes are not emitted at all, and
each of the others is.
-/

namespace Assembler6502

open Text

/-! ## Modes in which operands are read -/

namespace Operand

theorem trimmedValue_ne_unreadable (marks : Text) (operand : Option Text) (name : Text) :
    trimmedValue marks operand ≠ .error (.unreadableMode name) := by
  intro herror
  cases operand with
  | none => simp [trimmedValue] at herror
  | some text =>
      obtain ⟨_, hnumeral, -⟩ := isBadNumeral_of_map herror
      simp at hnumeral

theorem slicedValue_ne_unreadable (start stop : Nat) (operand : Option Text) (name : Text) :
    slicedValue start stop operand ≠ .error (.unreadableMode name) := by
  intro herror
  cases operand with
  | none => simp [slicedValue] at herror
  | some text =>
      obtain ⟨_, hnumeral, -⟩ := isBadNumeral_of_map herror
      simp at hnumeral

end Operand

namespace AddressingMode

open Operand

/-- There is a way to read the low entry of operands in the mode. It may still fail for an operand
that is missing or is no numeral. -/
def HasLowReader (mode : AddressingMode) : Prop :=
  ∀ operand name, mode.lowEntry operand ≠ .error (.unreadableMode name)

/-- There is a way to read the high entry of operands in the mode, which may be none. -/
def HasHighReader (mode : AddressingMode) : Prop :=
  ∀ operand name, mode.highEntry operand ≠ .error (.unreadableMode name)

variable {mode : AddressingMode}

theorem hasLowReader_iff : mode.HasLowReader ↔ mode ≠ .indirect ∧ mode ≠ .zeroPageY := by
  constructor
  · intro hreader
    constructor
    · rintro rfl
      exact hreader none _ rfl
    · rintro rfl
      exact hreader none _ rfl
  · rintro ⟨hindirect, hzeroPageY⟩ operand name
    cases mode with
    | accumulator | implied | relative => simp [lowEntry]
    | immediate | zeroPage => exact trimmedValue_ne_unreadable _ operand name
    | zeroPageX | absolute | absoluteX | absoluteY | indirectX | indirectY =>
        exact slicedValue_ne_unreadable _ _ operand name
    | indirect => exact absurd rfl hindirect
    | zeroPageY => exact absurd rfl hzeroPageY

theorem hasHighReader_iff : mode.HasHighReader ↔ mode ≠ .indirect ∧ mode ≠ .zeroPageY := by
  constructor
  · intro hreader
    constructor
    · rintro rfl
      exact hreader none _ rfl
    · rintro rfl
      exact hreader none _ rfl
  · rintro ⟨hindirect, hzeroPageY⟩ operand name
    cases mode with
    | absolute | absoluteX | absoluteY => exact slicedValue_ne_unreadable _ _ operand name
    | indirect => exact absurd rfl hindirect
    | zeroPageY => exact absurd rfl hzeroPageY
    | _ => simp [highEntry]

end AddressingMode

/-! ## The opcode of a line -/

namespace CodeLine

/-- The first pass encodes the line, with the opcode in front. -/
def Emits (line : Text) (opcode : Nat) : Prop :=
  ∃ code, (Block.ofSource [line]).firstPass.2 = .ok (.value opcode :: code)

variable {line : Text} {opcode : Nat}

theorem emits_iff : Emits line opcode ↔ ∃ code, encode line = .ok (.value opcode :: code) := by
  constructor
  · rintro ⟨code, hpass⟩
    obtain ⟨hlines, hcode⟩ := Block.firstPass_eq_ok hpass
    have hentries : .value opcode :: code = entries line := by
      simpa [Block.ofSource] using hcode
    exact ⟨code, hentries ▸ (hlines line (List.mem_singleton.mpr rfl)).encode_eq⟩
  · rintro ⟨code, hencode⟩
    have hlines : ∀ other ∈ [line], IsEncodable other := by simpa using ⟨_, hencode⟩
    refine ⟨code, ?_⟩
    rw [Block.firstPass, Block.ofSource, encodeLines_of_encodable _ 0 _ hlines]
    simp [entries, hencode]

/-- The opcode of a line is that of its mnemonic and the mode of its operand, and in this mode
operands are read. -/
theorem IsEncodable.exists_opcode (hline : IsEncodable line) :
    ∃ mnemonic mode opcode code,
      entries line = .value (opcode : Nat) :: code ∧
      Mnemonic.ofName? (Statement.ofLine line).mnemonic = some mnemonic ∧
      Operand.mode (Statement.ofLine line).operand = .ok mode ∧
      mnemonic.opcode? mode = some opcode ∧
      mode.HasLowReader ∧ mode.HasHighReader := by
  obtain ⟨⟨mnemonic, mode, opcode⟩, code, hencoded, hentries⟩ := hline.exists_isEncodedAs
  obtain ⟨hmnemonic, hmode, hopcode⟩ := hencoded.hasInstruction
  have hwritten := (Operand.mode_isReadable hmode).symm
  exact ⟨mnemonic, mode, opcode, code, hentries, hmnemonic, hmode, hopcode,
    AddressingMode.hasLowReader_iff.mpr hwritten, AddressingMode.hasHighReader_iff.mpr hwritten⟩

/-- An opcode belongs to one mode only, so the mode of the line that emits it is that mode. -/
theorem Emits.mode_ne
    (hemits : Emits line opcode) {mnemonic : Mnemonic} {mode : AddressingMode}
    (hopcode : mnemonic.opcode? mode = some opcode) :
    mode ≠ .indirect ∧ mode ≠ .zeroPageY := by
  obtain ⟨code, hencode⟩ := emits_iff.mp hemits
  have hline : IsEncodable line := ⟨_, hencode⟩
  obtain ⟨found, foundMode, foundOpcode, others, hentries, -, -, hfound, hreader, -⟩ :=
    hline.exists_opcode
  have hsame : foundOpcode = opcode := by
    rw [entries, hencode] at hentries
    simpa [eq_comm] using (List.cons.inj hentries).1
  subst hsame
  rw [(Mnemonic.opcode?_injective hopcode hfound).2]
  exact AddressingMode.hasLowReader_iff.mp hreader

end CodeLine

/-! ## Lines for the other opcodes -/

theorem IsPhrase.isBare {text : Text} (htext : IsPhrase text) : SourceLine.IsBare text := by
  refine ⟨htext.nonempty, htext.trimmed, htext.not_mem (by decide) (by decide), ?_, ?_⟩
  · exact fun c hc => (htext.isCodeChar c hc).2.2
  · rw [lower_ascii htext.ascii, htext.map_toLower]

/-- Every mode but two has a written form. -/
theorem Argument.exists_follows
    {mode : AddressingMode} (hmode : mode ≠ .indirect ∧ mode ≠ .zeroPageY) :
    ∃ argument operand, Argument.mode argument = mode ∧ argument.IsNamed ∧
      argument.Follows operand := by
  have hcomma : IsComma [','] :=
    ⟨[], [], List.forall_mem_nil _, List.forall_mem_nil _, rfl⟩
  have hfollows {argument : Argument} {text : Text} (hwritten : argument.Written text)
      (hnamed : argument.IsNamed) :
      ∃ other operand, Argument.mode other = argument.mode ∧ other.IsNamed ∧
        other.Follows operand :=
    ⟨argument, [' '] ++ text, rfl, hnamed, .operand (by simp [IsSpaces]) (by simp) hwritten⟩
  cases mode with
  | implied => exact ⟨.implied, [], rfl, by simp [IsNamed], .nothing⟩
  | accumulator => exact hfollows .accumulator (by simp [IsNamed])
  | relative =>
      have hname : IsLabelName ['x'] := ⟨by decide, by simp, by decide⟩
      exact hfollows (.relative ['x']) (by simpa [IsNamed] using hname)
  | immediate => exact hfollows (.immediate 0) (by simp [IsNamed])
  | zeroPage => exact hfollows (.zeroPage 0) (by simp [IsNamed])
  | zeroPageX => exact hfollows (.zeroPageX 0 hcomma) (by simp [IsNamed])
  | absolute => exact hfollows (.absolute 0) (by simp [IsNamed])
  | absoluteX => exact hfollows (.absoluteX 0 hcomma) (by simp [IsNamed])
  | absoluteY => exact hfollows (.absoluteY 0 hcomma) (by simp [IsNamed])
  | indirectX => exact hfollows (.indirectX 0 hcomma) (by simp [IsNamed])
  | indirectY => exact hfollows (.indirectY 0 hcomma) (by simp [IsNamed])
  | indirect => exact absurd rfl hmode.1
  | zeroPageY => exact absurd rfl hmode.2

namespace CodeLine

theorem exists_emits
    {mnemonic : Mnemonic} {mode : AddressingMode} {opcode : Nat}
    (hopcode : mnemonic.opcode? mode = some opcode)
    (hmode : mode ≠ .indirect ∧ mode ≠ .zeroPageY) :
    ∃ line, SourceLine.IsBare line ∧ Emits line opcode := by
  obtain ⟨argument, operand, rfl, hnamed, hfollows⟩ := Argument.exists_follows hmode
  let command : Command := ⟨none, mnemonic, argument, by simp, by simp [hopcode]⟩
  have hwritten : command.Written ([] ++ mnemonic.name ++ operand) := .command .nothing hfollows
  rw [List.nil_append] at hwritten
  have hcommand : command.opcode = opcode :=
    Option.some.inj (command.opcode?_eq.symm.trans hopcode)
  refine ⟨mnemonic.name ++ operand, (hfollows.isPhrase hnamed mnemonic).isBare, ?_⟩
  rw [emits_iff, hwritten.encode_eq hnamed, ← hcommand]
  exact ⟨_, rfl⟩

end CodeLine

/-! ## The table -/

namespace Mnemonic

/-- The entries of the table whose modes have no written form. -/
def unwritten : List (Nat × Mnemonic × AddressingMode) :=
  [(0x6c, .jmp, .indirect), (0xb6, .ldx, .zeroPageY), (0x96, .stx, .zeroPageY)]

theorem mem_unwritten_iff
    {mnemonic : Mnemonic} {mode : AddressingMode} {opcode : Nat}
    (hopcode : mnemonic.opcode? mode = some opcode) :
    (opcode, mnemonic, mode) ∈ unwritten ↔ ¬(mode ≠ .indirect ∧ mode ≠ .zeroPageY) := by
  have htable : ∀ entry ∈ opcodeTable,
      entry ∈ unwritten ↔ ¬(entry.2.2 ≠ .indirect ∧ entry.2.2 ≠ .zeroPageY) := by
    decide +kernel
  exact htable _ (mem_opcodeTable hopcode)

theorem opcode?_of_mem_unwritten
    {entry : Nat × Mnemonic × AddressingMode} (hentry : entry ∈ unwritten) :
    entry.2.1.opcode? entry.2.2 = some entry.1 := by
  have hall : ∀ entry ∈ unwritten, entry.2.1.opcode? entry.2.2 = some entry.1 := by decide
  exact hall entry hentry

end Mnemonic

namespace Block

open CodeLine

/-- Each line of a block that the first pass encodes has the opcode of its mnemonic and of a mode in
which both entries of operands are read. An opcode of the table is emitted by some line, and then by
a line as it may stand in a file, exactly if its mode is neither the indirect one nor the zero page
with the Y register. The three opcodes of these modes are emitted by no line. -/
theorem firstPass_opcodes (block : Block) :
    (∀ objectCode,
      block.firstPass.2 = .ok objectCode →
        objectCode = block.source.flatMap entries ∧
        ∀ line ∈ block.source,
          ∃ mnemonic mode opcode code,
            entries line = .value (opcode : Nat) :: code ∧
            Mnemonic.ofName? (Statement.ofLine line).mnemonic = some mnemonic ∧
            Operand.mode (Statement.ofLine line).operand = .ok mode ∧
            mnemonic.opcode? mode = some opcode ∧
            mode.HasLowReader ∧ mode.HasHighReader) ∧
    (∀ (mnemonic : Mnemonic) (mode : AddressingMode) (opcode : Nat),
      mnemonic.opcode? mode = some opcode →
        ((∃ line, Emits line opcode) ↔ mode ≠ .indirect ∧ mode ≠ .zeroPageY) ∧
        ((∃ line, Emits line opcode) → ∃ line, SourceLine.IsBare line ∧ Emits line opcode) ∧
        ((opcode, mnemonic, mode) ∈ Mnemonic.unwritten ↔ ¬∃ line, Emits line opcode)) ∧
    ∀ entry ∈ Mnemonic.unwritten, ∀ line, ¬Emits line entry.1 := by
  refine ⟨?_, ?_, ?_⟩
  · intro objectCode hpass
    obtain ⟨hlines, hcode⟩ := firstPass_eq_ok hpass
    exact ⟨hcode, fun line hline => (hlines line hline).exists_opcode⟩
  · intro mnemonic mode opcode hopcode
    have hmode : (∃ line, Emits line opcode) ↔ mode ≠ .indirect ∧ mode ≠ .zeroPageY := by
      constructor
      · exact fun ⟨_, hemits⟩ => hemits.mode_ne hopcode
      · exact fun hmode => (exists_emits hopcode hmode).imp fun _ hline => hline.2
    refine ⟨hmode, fun hemits => exists_emits hopcode (hmode.mp hemits), ?_⟩
    rw [Mnemonic.mem_unwritten_iff hopcode, hmode]
  · intro entry hentry line hemits
    have hopcode := Mnemonic.opcode?_of_mem_unwritten hentry
    exact (Mnemonic.mem_unwritten_iff hopcode).mp hentry (hemits.mode_ne hopcode)

/-- A jump to an address has the opcode of the absolute mode, and a jump through a pointer cannot be
written. -/
theorem firstPass_opcodes_jump :
    let line := "jmp $1234".toList
    (ofSource [line]).firstPass.2 = .ok [.value 0x4c, .value 0x34, .value 0x12] ∧
      (∃ mnemonic mode opcode code,
        entries line = .value (opcode : Nat) :: code ∧
        Mnemonic.ofName? (Statement.ofLine line).mnemonic = some mnemonic ∧
        Operand.mode (Statement.ofLine line).operand = .ok mode ∧
        mnemonic.opcode? mode = some opcode ∧
        mode.HasLowReader ∧ mode.HasHighReader) ∧
      Mnemonic.jmp.opcode? .absolute = some 0x4c ∧
      (∃ line, Emits line 0x4c) ∧
      (0x6c, .jmp, .indirect) ∈ Mnemonic.unwritten ∧
      ∀ operand, ¬Emits ("jmp ".toList ++ operand) 0x6c := by
  intro line
  have hpass : (ofSource [line]).firstPass.2 = .ok [.value 0x4c, .value 0x34, .value 0x12] := rfl
  have hpointer : (0x6c, .jmp, .indirect) ∈ Mnemonic.unwritten := List.mem_cons_self
  obtain ⟨hlines, htable, hunwritten⟩ := firstPass_opcodes (ofSource [line])
  exact ⟨hpass, (hlines _ hpass).2 line (List.mem_singleton.mpr rfl), rfl,
    (htable .jmp .absolute 0x4c rfl).1.mpr ⟨by decide, by decide⟩, hpointer,
    fun operand => hunwritten _ hpointer _⟩

end Block

end Assembler6502
