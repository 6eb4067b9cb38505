import Assembler6502.Proofs.ByteCells
import Assembler6502.Proofs.Program.Basic
import Assembler6502.Proofs.Reassembly

/-!
# Blocks that can be reached

A block may be assembled, have one of its passes run alone, and get another source, in any order and
with any failures in between. Whatever happens to it, an operation only ever records labels of
lines, and replaces code by what the passes make of lines that can be encoded. The shape of symbols
and code follows from that for every block that such operations reach.
-/

namespace Assembler6502

open CodeLine

/-! ## The shape of symbols -/

/-- An entry of a symbol table as lines make it. -/
structure IsSymbol (entry : Text × Int) : Prop where
  nonempty : entry.1 ≠ []
  trimmed : Text.IsTrimmedBy Text.isBlank entry.1
  noColon : ':' ∉ entry.1
  position : 0 ≤ entry.2

theorem CodeLine.label_eq_some
    {line name : Text} (hlabel : label line = some name) :
    Text.IsTrimmedBy Text.isBlank name ∧ ':' ∉ name :=
  (Statement.isNormal_ofLine line).label name hlabel

theorem SymbolTable.mem_insertEntry
    {label : Text} {position : Int} {entries : List (Text × Int)} {entry : Text × Int}
    (hentry : entry ∈ insertEntry label position entries) :
    entry = (label, position) ∨ entry ∈ entries := by
  induction entries with
  | nil => exact .inl (List.mem_singleton.mp hentry)
  | cons first rest ih =>
      rw [insertEntry] at hentry
      split at hentry
      · exact (List.mem_cons.mp hentry).imp_right (List.mem_cons_of_mem first)
      · rcases List.mem_cons.mp hentry with rfl | hrest
        · exact .inr List.mem_cons_self
        · exact (ih hrest).imp_right (List.mem_cons_of_mem first)

theorem isSymbol_of_mem_record
    {table : SymbolTable} (htable : ∀ entry ∈ table.entries, IsSymbol entry)
    (line : Text) (position : Nat) :
    ∀ entry ∈ (table.record (label line) position).entries, IsSymbol entry := by
  intro entry hentry
  match hlabel : label line with
  | none => exact htable entry (by simpa [hlabel, SymbolTable.record] using hentry)
  | some [] => exact htable entry (by simpa [hlabel, SymbolTable.record] using hentry)
  | some (c :: rest) =>
      rw [hlabel] at hentry
      rcases SymbolTable.mem_insertEntry hentry with rfl | hold
      · obtain ⟨htrimmed, hcolon⟩ := label_eq_some hlabel
        exact ⟨List.cons_ne_nil c rest, htrimmed, hcolon, Int.natCast_nonneg position⟩
      · exact htable entry hold

theorem isSymbol_of_mem_recordLabels
    {symbols : SymbolTable} (hsymbols : ∀ entry ∈ symbols.entries, IsSymbol entry)
    (position : Nat) (lines : List Text) :
    ∀ entry ∈ (recordLabels symbols position lines).entries, IsSymbol entry := by
  induction lines generalizing symbols position with
  | nil => exact hsymbols
  | cons line rest ih => exact ih (isSymbol_of_mem_record hsymbols line position) _

/-! ## The shape of object code -/

namespace Mnemonic

def branches : List Mnemonic :=
  [.bpl, .bmi, .bvc, .bvs, .bcc, .bcs, .bne, .beq]

theorem mem_branches
    {mnemonic : Mnemonic} {opcode : Nat} (hopcode : mnemonic.opcode? .relative = some opcode) :
    mnemonic ∈ branches := by
  have hall : ∀ mnemonic ∈ all, (mnemonic.opcode? .relative).isSome → mnemonic ∈ branches := by
    decide
  exact hall mnemonic (mem_all mnemonic) (by rw [hopcode]; rfl)

end Mnemonic

/-- Every label stands directly behind the opcode of a branch. In lower case and without spaces it
is the name of a label. -/
def HasBranchLabels (objectCode : List Entry) : Prop :=
  ∀ index name, objectCode[index]? = some (Entry.label name) →
    ∃ place opcode, ∃ mnemonic ∈ Mnemonic.branches,
      index = place + 1 ∧
      objectCode[place]? = some (Entry.value (opcode : Nat)) ∧
      mnemonic.opcode? .relative = some opcode ∧
      IsLabelName (name.lower.filter (· ≠ ' '))

namespace Operand

theorem isLabelName_of_modeOfNormal
    {normal : Text} (hlower : ∀ c ∈ normal, c.toLower = c)
    (hmode : modeOfNormal normal = .ok .relative) :
    IsLabelName normal := by
  obtain ⟨hsome, haccumulator, hall⟩ := (isClassified_of_modeOfNormal hmode).relative rfl
  refine ⟨hsome, ?_, haccumulator⟩
  intro c hc
  have hupper := Text.isUpper_eq_false (hlower c hc)
  have hclasses : (c.isUpper || c.isLower || c.isDigit || c == '_') = true :=
    List.all_eq_true.mp hall c hc
  rw [hupper, Bool.false_or, Bool.or_eq_true, Bool.or_eq_true, beq_iff_eq] at hclasses
  tauto

theorem isLabelName_of_mode
    {name : Text} (hname : Text.IsTrimmedBy Text.isBlank name)
    (hmode : mode (some name) = .ok .relative) :
    IsLabelName (name.lower.filter (· ≠ ' ')) := by
  have hnormal : modeOfNormal (normalize name) = .ok .relative := hmode
  rw [normalize_of_isTrimmedBy hname] at hnormal
  apply isLabelName_of_modeOfNormal _ hnormal
  exact fun c hc => Text.toLower_eq_of_mem_lower (List.mem_of_mem_filter hc)

end Operand

theorem hasBranchLabels_flatMap_entries
    {source : List Text} (hsource : ∀ line ∈ source, IsEncodable line) :
    HasBranchLabels (source.flatMap entries) := by
  intro index name hindex
  have hinside : index < codeSize source := by
    rw [← length_flatMap_entries hsource]
    exact (List.getElem?_eq_some_iff.mp hindex).1
  obtain ⟨before, line, after, offset, rfl, hoffset, rfl⟩ := exists_line_at hinside
  obtain ⟨instruction, code, hencoded, hentries⟩ :=
    (hsource line (by simp)).exists_isEncodedAs
  rw [flatMap_entries_getElem? hsource hoffset, hentries] at hindex
  cases offset with
  | zero => simp at hindex
  | succ place =>
      obtain ⟨rfl, hrelative, hoperand⟩ := hencoded.operand.of_label hindex
      have hinstruction := hencoded.hasInstruction
      have hopcode := hinstruction.opcode
      have hmode := hinstruction.mode
      rw [hrelative] at hopcode hmode
      rw [hoperand] at hmode
      refine ⟨codeSize before, instruction.opcode, instruction.mnemonic,
        Mnemonic.mem_branches hopcode, rfl, ?_, hopcode,
        Operand.isLabelName_of_mode (Statement.operand_isTrimmedBy hoperand) hmode⟩
      rw [← Nat.add_zero (codeSize before), flatMap_entries_getElem? hsource hencoded.size_pos,
        hentries]
      rfl

/-! ## Operations -/

namespace Block

inductive Operation where
  | assemble
  | firstPass
  | secondPass
  | setSource (source : List Text)

/-- The block after an operation, whether the operation fails or not. -/
def after (block : Block) : Operation → Block
  | .assemble => block.assemble.1
  | .firstPass => block.firstPass.1
  | .secondPass => block
  | .setSource source => block.setSource source

def afterAll (block : Block) (operations : List Operation) : Block :=
  operations.foldl after block

/-- What an operation may change of a block, its source apart. -/
structure DevelopsInto (block next : Block) : Prop where
  symbols : ∃ lines, next.symbols = recordLabels block.symbols 0 lines
  objectCode :
    next.objectCode = block.objectCode ∨
      ∃ source : List Text, (∀ line ∈ source, IsEncodable line) ∧
        next.objectCode = source.flatMap entries
  execCode :
    next.execCode = block.execCode ∨
      ∃ source : List Text, (∀ line ∈ source, IsEncodable line) ∧
        (resolve next.symbols (source.flatMap entries)).result = .ok next.execCode

theorem developsInto_assemble (block : Block) : block.DevelopsInto block.assemble.1 := by
  rcases encodeLines_cases block.source with ⟨lines, problem, hencode⟩ | ⟨hencodable, hencode⟩
  · rw [assemble_of_firstPass_error (hencode block.symbols 0)]
    exact ⟨⟨lines, rfl⟩, .inl rfl, .inl rfl⟩
  · rw [assemble_of_firstPass_ok (hencode block.symbols 0)]
    cases hresolved : (resolve (recordLabels block.symbols 0 block.source)
        (block.source.flatMap entries)).result with
    | error problem =>
        exact ⟨⟨block.source, rfl⟩, .inr ⟨block.source, hencodable, rfl⟩, .inl rfl⟩
    | ok execCode =>
        exact ⟨⟨block.source, rfl⟩, .inr ⟨block.source, hencodable, rfl⟩,
          .inr ⟨block.source, hencodable, hresolved⟩⟩

theorem developsInto_firstPass (block : Block) : block.DevelopsInto block.firstPass.1 := by
  refine ⟨?_, .inl rfl, .inl rfl⟩
  rcases encodeLines_cases block.source with ⟨lines, problem, hencode⟩ | ⟨-, hencode⟩
  · exact ⟨lines, congrArg Prod.fst (hencode block.symbols 0)⟩
  · exact ⟨block.source, congrArg Prod.fst (hencode block.symbols 0)⟩

theorem developsInto_after (block : Block) (operation : Operation) :
    block.DevelopsInto (block.after operation) := by
  cases operation with
  | assemble => exact developsInto_assemble block
  | firstPass => exact developsInto_firstPass block
  | secondPass | setSource => exact ⟨⟨[], rfl⟩, .inl rfl, .inl rfl⟩

/-- Every symbol is one that a line can define, and every label in the object code is the operand of
a branch. The executable code has none: it has a number for each entry of such object code, and in
particular for each label. -/
structure IsSound (block : Block) : Prop where
  symbols : ∀ entry ∈ block.symbols.entries, IsSymbol entry
  objectCode : HasBranchLabels block.objectCode
  execCode : ∃ symbols objectCode,
    HasBranchLabels objectCode ∧ IsResolved symbols none 0 objectCode block.execCode

theorem isSound_ofSource (source : List Text) : IsSound (ofSource source) := by
  have hempty : HasBranchLabels [] := @hasBranchLabels_flatMap_entries [] (by simp)
  exact ⟨by simp [ofSource, SymbolTable.empty], hempty, .empty, [], hempty,
    isResolved_of_resolveFrom rfl⟩

theorem IsSound.of_developsInto
    {block next : Block} (hblock : IsSound block) (hnext : block.DevelopsInto next) :
    IsSound next := by
  constructor
  · obtain ⟨lines, hlines⟩ := hnext.symbols
    rw [hlines]
    exact isSymbol_of_mem_recordLabels hblock.symbols 0 lines
  · rcases hnext.objectCode with hsame | ⟨source, hencodable, hcode⟩
    · rw [hsame]
      exact hblock.objectCode
    · rw [hcode]
      exact hasBranchLabels_flatMap_entries hencodable
  · rcases hnext.execCode with hsame | ⟨source, hencodable, hcode⟩
    · rw [hsame]
      exact hblock.execCode
    · exact ⟨next.symbols, source.flatMap entries, hasBranchLabels_flatMap_entries hencodable,
        isResolved_of_resolveFrom hcode⟩

theorem IsSound.afterAll
    {block : Block} (hblock : IsSound block) (operations : List Operation) :
    IsSound (block.afterAll operations) := by
  induction operations generalizing block with
  | nil => exact hblock
  | cons operation rest ih => exact ih (hblock.of_developsInto (block.developsInto_after operation))

/-- Every block that operations on a fresh one can reach is sound. -/
theorem isSound_of_operations (source : List Text) (operations : List Operation) :
    IsSound ((ofSource source).afterAll operations) :=
  (isSound_ofSource source).afterAll operations

end Block

end Assembler6502
