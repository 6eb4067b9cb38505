import Assembler6502.Proofs.CodeLayout

/-!
# Reading code back

Object code can be read in one way only, although an operand may look like an opcode: the first
entry is an opcode, the opcode gives the mnemonic and the mode, and the mode tells where the next
line starts. The executable code has its opcodes at the same places, so it can be read back in the
same way up to the operands.
-/

namespace Assembler6502

namespace CodeLine

structure SameOperation (line other : Text) : Prop where
  mnemonic : (Statement.ofLine line).mnemonic = (Statement.ofLine other).mnemonic
  mode : ∃ mode,
    Operand.mode (Statement.ofLine line).operand = .ok mode ∧
    Operand.mode (Statement.ofLine other).operand = .ok mode

/-- The lines have the same mnemonic, the same mode, and the same entries behind the opcode. -/
structure SameCode (line other : Text) : Prop extends SameOperation line other where
  low : ∀ mode, Operand.mode (Statement.ofLine line).operand = .ok mode →
    ∃ entry,
      mode.lowEntry (Statement.ofLine line).operand = .ok entry ∧
      mode.lowEntry (Statement.ofLine other).operand = .ok entry
  high : ∀ mode, Operand.mode (Statement.ofLine line).operand = .ok mode →
    ∃ entry,
      mode.highEntry (Statement.ofLine line).operand = .ok entry ∧
      mode.highEntry (Statement.ofLine other).operand = .ok entry

end CodeLine

/-! ## One line -/

namespace CodeLine

variable {line other : Text} {instruction second : Instruction} {code otherCode : List Entry}

theorem IsEncodedAs.sameOperation
    (hline : IsEncodedAs line instruction code)
    (hother : IsEncodedAs other second otherCode)
    (hopcode : instruction.opcode = second.opcode) :
    SameOperation line other ∧ code.length = otherCode.length := by
  have hfirst := hline.hasInstruction
  have hsecond := hother.hasInstruction
  have htable := hsecond.opcode
  rw [← hopcode] at htable
  obtain ⟨hmnemonic, hmode⟩ := Mnemonic.opcode?_injective hfirst.opcode htable
  refine ⟨⟨?_, instruction.mode, hfirst.mode, ?_⟩, ?_⟩
  · apply Mnemonic.eq_of_ofName? hfirst.mnemonic
    rw [hmnemonic]
    exact hsecond.mnemonic
  · rw [hmode]
    exact hsecond.mode
  · have hlength := hline.operand.length_succ
    have hotherLength := hother.operand.length_succ
    rw [← hmode] at hotherLength
    omega

theorem IsEncodedAs.sameCode
    (hline : IsEncodedAs line instruction code)
    (hother : IsEncodedAs other second code)
    (hsame : SameOperation line other) :
    SameCode line other := by
  obtain ⟨mode, hmode, hotherMode⟩ := hsame.mode
  have hfirst := hline.hasInstruction.mode
  have hsecond := hother.hasInstruction.mode
  rw [hmode, Except.ok.injEq] at hfirst
  rw [hotherMode, Except.ok.injEq] at hsecond
  have hentries := hline.operand.entries_eq
  have hotherEntries := hother.operand.entries_eq
  rw [← hfirst] at hentries
  rw [← hsecond] at hotherEntries
  refine ⟨hsame, ?_, ?_⟩
  · intro found hfound
    rw [hmode, Except.ok.injEq] at hfound
    subst hfound
    exact ⟨code[0]?, hentries.1, hotherEntries.1⟩
  · intro found hfound
    rw [hmode, Except.ok.injEq] at hfound
    subst hfound
    exact ⟨code[1]?, hentries.2, hotherEntries.2⟩

end CodeLine

/-! ## Streams of lines -/

section Streams

open CodeLine

-- The cells are object code again, or executable code. All that matters is that a cell shows the
-- value it stands for.
variable {γ : Type} {shows : Entry → γ → Prop}

theorem sameOperation_of_shown
    (hshows : ∀ value other cell,
      shows (.value value) cell → shows (.value other) cell → value = other)
    {lines others : List Text} {cells : List γ}
    (hlines : ∀ line ∈ lines, IsEncodable line)
    (hothers : ∀ line ∈ others, IsEncodable line)
    (hcells : List.Forall₂ shows (lines.flatMap entries) cells)
    (hotherCells : List.Forall₂ shows (others.flatMap entries) cells) :
    List.Forall₂ SameOperation lines others := by
  induction lines generalizing others cells with
  | nil =>
      obtain rfl := List.forall₂_nil_left_iff.mp hcells
      have hempty := List.forall₂_nil_right_iff.mp hotherCells
      cases others with
      | nil => exact List.Forall₂.nil
      | cons other rest =>
          obtain ⟨second, code, -, hentries⟩ := (hothers other (by simp)).exists_isEncodedAs
          rw [List.flatMap_cons, hentries] at hempty
          simp at hempty
  | cons line rest ih =>
      obtain ⟨hline, hrest⟩ := List.forall_mem_cons.mp hlines
      obtain ⟨instruction, code, hencoded, hentries⟩ := hline.exists_isEncodedAs
      rw [List.flatMap_cons, hentries, List.cons_append, List.forall₂_cons_left_iff] at hcells
      obtain ⟨cell, later, hcell, hlater, rfl⟩ := hcells
      cases others with
      | nil => simp at hotherCells
      | cons other otherRest =>
          obtain ⟨hother, hotherRest⟩ := List.forall_mem_cons.mp hothers
          obtain ⟨second, otherCode, hotherEncoded, hotherEntries⟩ :=
            hother.exists_isEncodedAs
          rw [List.flatMap_cons, hotherEntries, List.cons_append, List.forall₂_cons]
            at hotherCells
          obtain ⟨hotherCell, hotherLater⟩ := hotherCells
          have hopcode : instruction.opcode = second.opcode := by
            exact_mod_cast hshows _ _ cell hcell hotherCell
          obtain ⟨hsame, hlength⟩ := hencoded.sameOperation hotherEncoded hopcode
          have hdropped := List.forall₂_drop code.length hlater
          have hotherDropped := List.forall₂_drop code.length hotherLater
          rw [List.drop_left] at hdropped
          rw [hlength, List.drop_left, ← hlength] at hotherDropped
          exact List.Forall₂.cons hsame (ih hrest hotherRest hdropped hotherDropped)

theorem sameCode_of_flatMap_entries_eq
    {lines others : List Text}
    (hlines : ∀ line ∈ lines, IsEncodable line)
    (hothers : ∀ line ∈ others, IsEncodable line)
    (hsame : List.Forall₂ SameOperation lines others)
    (hcode : lines.flatMap entries = others.flatMap entries) :
    List.Forall₂ SameCode lines others := by
  induction hsame with
  | nil => exact List.Forall₂.nil
  | @cons line other rest otherRest hfirst hlater ih =>
      obtain ⟨hline, hrest⟩ := List.forall_mem_cons.mp hlines
      obtain ⟨hother, hotherRest⟩ := List.forall_mem_cons.mp hothers
      obtain ⟨instruction, code, hencoded, hentries⟩ := hline.exists_isEncodedAs
      obtain ⟨second, otherCode, hotherEncoded, hotherEntries⟩ := hother.exists_isEncodedAs
      rw [List.flatMap_cons, List.flatMap_cons, hentries, hotherEntries, List.cons_append,
        List.cons_append, List.cons.injEq, Entry.value.injEq] at hcode
      obtain ⟨hopcode, htail⟩ := hcode
      have hlength := (hencoded.sameOperation hotherEncoded (by exact_mod_cast hopcode)).2
      obtain ⟨rfl, hrestCode⟩ := List.append_inj htail hlength
      exact List.Forall₂.cons (hencoded.sameCode hotherEncoded hfirst)
        (ih hrest hotherRest hrestCode)

end Streams

theorem IsResolved.forall₂
    {symbols : SymbolTable} {last : Option Int} {index : Nat}
    {objectCode : List Entry} {code : List Int}
    (hresolved : IsResolved symbols last index objectCode code) :
    List.Forall₂ (fun entry cell => ∀ value, entry = .value value → value = cell)
      objectCode code := by
  rw [List.forall₂_iff_get]
  refine ⟨hresolved.length.symm, ?_⟩
  intro place hplace hcell value hvalue
  have hkept := hresolved.value place value (by simpa [hplace] using hvalue)
  simpa [hcell, eq_comm] using hkept

/-! ## Blocks -/

namespace Block

open CodeLine

theorem firstPass_eq_ok
    {block : Block} {objectCode : List Entry} (hpass : block.firstPass.2 = .ok objectCode) :
    (∀ line ∈ block.source, IsEncodable line) ∧ objectCode = block.source.flatMap entries := by
  have hencodable : ∀ line ∈ block.source, IsEncodable line := encodable_of_encodeLines hpass
  refine ⟨hencodable, ?_⟩
  unfold firstPass at hpass
  rw [encodeLines_of_encodable block.symbols 0 block.source hencodable] at hpass
  exact (Except.ok.inj hpass).symm

/-- Blocks in any states with the same object code have the same instructions and operands, line by
line. With the same executable code they have the same instructions. -/
theorem code_determines_source (first second : Block) :
    (∀ objectCode,
      first.firstPass.2 = .ok objectCode → second.firstPass.2 = .ok objectCode →
        List.Forall₂ SameCode first.source second.source) ∧
    (first.assemble.2.result = .ok () → second.assemble.2.result = .ok () →
      first.assemble.1.execCode = second.assemble.1.execCode →
        List.Forall₂ SameOperation first.source second.source) := by
  constructor
  · intro objectCode hfirst hsecond
    obtain ⟨hlines, hcode⟩ := firstPass_eq_ok hfirst
    obtain ⟨hothers, hotherCode⟩ := firstPass_eq_ok hsecond
    have hequal := hcode.symm.trans hotherCode
    have hsame : List.Forall₂ SameOperation first.source second.source := by
      have hcells : List.Forall₂ Eq (first.source.flatMap entries)
          (first.source.flatMap entries) := List.forall₂_refl _
      have hotherCells : List.Forall₂ Eq (second.source.flatMap entries)
          (first.source.flatMap entries) := by
        rw [hequal]
        exact List.forall₂_refl _
      apply sameOperation_of_shown _ hlines hothers hcells hotherCells
      intro value other cell hvalue hother
      simpa using hvalue.trans hother.symm
    exact sameCode_of_flatMap_entries_eq hlines hothers hsame hequal
  · intro hfirst hsecond hcode
    have hcells := (isResolved_of_assemble hfirst).forall₂
    have hotherCells := (isResolved_of_assemble hsecond).forall₂
    rw [← hcode] at hotherCells
    apply sameOperation_of_shown _ (assemble_eq_ok hfirst).1 (assemble_eq_ok hsecond).1
      hcells hotherCells
    intro value other cell hvalue hother
    rw [hvalue value rfl, hother other rfl]

/-- Two spellings of one source, of which the second has a label that nothing uses. -/
theorem code_determines_source_respelled :
    let first := ofSource ["start: lda #$0a".toList, "bne start".toList]
    let second := ofSource ["start:  lda  #$A".toList, "unused: bne  start".toList]
    let objectCode := [.value 0xa9, .value 0x0a, .value 0xd0, .label "start".toList]
    (first.firstPass.2 = .ok objectCode ∧ second.firstPass.2 = .ok objectCode ∧
      List.Forall₂ SameCode first.source second.source) ∧
    (first.assemble.1.execCode = [0xa9, 0x0a, 0xd0, 0xfc] ∧
      second.assemble.1.execCode = [0xa9, 0x0a, 0xd0, 0xfc] ∧
      List.Forall₂ SameOperation first.source second.source) := by
  intro first second objectCode
  obtain ⟨hobject, hexec⟩ := code_determines_source first second
  exact ⟨⟨rfl, rfl, hobject objectCode rfl rfl⟩, rfl, rfl, hexec rfl rfl rfl⟩

end Block

end Assembler6502
