import Assembler6502.Proofs.BranchValues
import Assembler6502.Proofs.CodeLayout
import Assembler6502.Proofs.OperandForms
import Assembler6502.Proofs.StatementForms
import Assembler6502.Proofs.UndefinedLabels
import Mathlib.Data.List.MinMax

/-!
# Cells that are not bytes

Most cells of an image are bytes, whatever the source says. There are three exceptions. An immediate
operand may be any number, the two characters between parentheses may be a negative number, and a
branch may go farther than a byte can say. This file proves that a cell is a byte unless it comes
from one of these three, and that each of them shows in the code.
-/

namespace Assembler6502

def IsByte (value : Int) : Prop :=
  0 ≤ value ∧ value ≤ 0xff

instance (value : Int) : Decidable (IsByte value) :=
  inferInstanceAs (Decidable (_ ∧ _))

/-! ## Operands -/

/-- The value behind the opcode is not a byte: an immediate operand is out of range, or the number
between parentheses is negative. -/
inductive OperandOverflows : AddressingMode → Text → Int → Prop
  | immediate {text : Text} {number : Int}
      (hread : Hexadecimal.read? (text.trimBy ['#', '$'].contains) = some number)
      (hnumber : ¬IsByte number) :
      OperandOverflows .immediate text number
  | pointer {mode : AddressingMode} {text : Text} {number : Int}
      (hmode : mode.IsPointer)
      (hread : Hexadecimal.read? (text.slice 2 4) = some number)
      (hnumber : number < 0) :
      OperandOverflows mode text number

theorem Operand.isByte_of_slice
    {text : Text} {start stop : Nat} {number : Int}
    (hdash : '-' ∉ text.take stop) (hwidth : stop ≤ start + 2)
    (hread : Hexadecimal.read? (text.slice start stop) = some number) :
    IsByte number :=
  ⟨read?_slice_nonneg hdash hread, read?_slice_le hwidth hread⟩

theorem Entry.eq_of_getElem?_singleton
    {entry other : Entry} {place : Nat} (hplace : [entry][place]? = some other) :
    place = 0 ∧ entry = other := by
  simpa [List.getElem?_singleton] using hplace

theorem OperandCode.overflows_of_not_isByte
    {mode : AddressingMode} {operand : Option Text} {code : List Entry}
    (hcode : OperandCode mode operand code)
    (hmode : Operand.mode operand = .ok mode)
    (htrimmed : ∀ text, operand = some text → Text.IsTrimmedBy Text.isBlank text)
    {place : Nat} {number : Int}
    (hplace : code[place]? = some (.value number)) (hnumber : ¬IsByte number) :
    place = 0 ∧ ∃ text, operand = some text ∧ OperandOverflows mode text number := by
  cases hcode with
  | accumulator | implied => simp at hplace
  | relative name => simp [List.getElem?_singleton] at hplace
  | @immediate text read hread =>
      obtain ⟨rfl, ⟨⟩⟩ := Entry.eq_of_getElem?_singleton hplace
      exact ⟨rfl, text, rfl, .immediate hread hnumber⟩
  | @zeroPage text read hread =>
      obtain ⟨rfl, ⟨⟩⟩ := Entry.eq_of_getElem?_singleton hplace
      exact absurd (Operand.read?_zeroPage_byte (htrimmed text rfl) hmode hread) hnumber
  | @zeroPageX text read hread =>
      obtain ⟨rfl, ⟨⟩⟩ := Entry.eq_of_getElem?_singleton hplace
      have hstart := ((Operand.isClassified_of_modeOfNormal hmode).zeroPage (.inr rfl)).1
      have hdash := Operand.dash_not_mem_take (htrimmed text rfl)
        (Operand.isAddressChar_of_mem_take hstart)
      exact absurd (Operand.isByte_of_slice hdash (by omega) hread) hnumber
  | @absolute _ text low high habsolute hlow hhigh =>
      have hstart := ((Operand.isClassified_of_modeOfNormal hmode).absolute habsolute).1
      have hdash := Operand.dash_not_mem_take (htrimmed text rfl)
        (Operand.isAddressChar_of_mem_take hstart)
      have hdashHigh : '-' ∉ text.take 3 := by
        intro hmem
        exact hdash (List.take_subset_take_left text (by omega) hmem)
      have hlowByte : IsByte low := Operand.isByte_of_slice hdash (by omega) hlow
      have hhighByte : IsByte high := Operand.isByte_of_slice hdashHigh (by omega) hhigh
      match place with
      | 0 =>
          obtain rfl : low = number := by simpa using hplace
          exact absurd hlowByte hnumber
      | 1 =>
          obtain rfl : high = number := by simpa using hplace
          exact absurd hhighByte hnumber
      | place + 2 => simp at hplace
  | @pointer _ text read hpointer hread =>
      obtain ⟨rfl, ⟨⟩⟩ := Entry.eq_of_getElem?_singleton hplace
      have hle := Operand.read?_slice_le (by omega) hread
      have hnegative : number < 0 := by
        unfold IsByte at hnumber
        omega
      exact ⟨rfl, text, rfl, .pointer hpointer hread hnegative⟩

theorem OperandCode.of_label
    {mode : AddressingMode} {operand : Option Text} {code : List Entry}
    (hcode : OperandCode mode operand code) {place : Nat} {name : Text}
    (hplace : code[place]? = some (.label name)) :
    place = 0 ∧ mode = .relative ∧ operand = some name := by
  cases hcode with
  | relative target =>
      obtain ⟨rfl, ⟨⟩⟩ := Entry.eq_of_getElem?_singleton hplace
      exact ⟨rfl, rfl, rfl⟩
  | absolute =>
      have hmem := List.mem_of_getElem? hplace
      simp at hmem
  | _ =>
      have hmem := List.mem_of_getElem? hplace
      simp at hmem

theorem OperandOverflows.lowEntry_eq
    {mode : AddressingMode} {text : Text} {number : Int}
    (hoverflow : OperandOverflows mode text number) :
    mode.lowEntry (some text) = .ok (some (.value number)) ∧ ¬IsByte number := by
  cases hoverflow with
  | immediate hread hnumber => exact ⟨Operand.trimmedValue_of_read? hread, hnumber⟩
  | pointer hmode hread hnumber =>
      refine ⟨?_, fun hbyte => by unfold IsByte at hbyte; omega⟩
      rcases hmode with rfl | rfl <;> exact Operand.slicedValue_of_read? hread

/-! ## Blocks -/

/-- The cell at an index of a block's code is not a byte. It is the one behind the opcode of a line
whose operand is out of range, or of a branch whose displacement is. -/
inductive OverflowsAt (source : List Text) (symbols : SymbolTable) : Nat → Prop
  | operand {before after : List Text} {line text : Text} {mode : AddressingMode} {number : Int}
      (hsource : source = before ++ line :: after)
      (hmode : Operand.mode (Statement.ofLine line).operand = .ok mode)
      (hoperand : (Statement.ofLine line).operand = some text)
      (hnumber : OperandOverflows mode text number) :
      OverflowsAt source symbols (CodeLine.codeSize before + 1)
  | branch {before after : List Text} {line target : Text} {position : Int}
      (hsource : source = before ++ line :: after)
      (htarget : CodeLine.branchTarget? line = some target)
      (hposition : nearestPosition? symbols
        ((before ++ [line]).filterMap CodeLine.branchTarget?) = some position)
      (hfar : ¬(-0xff ≤ position - (CodeLine.codeSize before + 2) ∧
        position - (CodeLine.codeSize before + 2) ≤ 0xff)) :
      OverflowsAt source symbols (CodeLine.codeSize before + 1)

theorem isByte_branchValue_iff (position : Int) (start : Nat) :
    IsByte (branchValue position (start + 1)) ↔
      -0xff ≤ position - (start + 2) ∧ position - (start + 2) ≤ 0xff := by
  have hshift : position - ((start + 1 : Nat) + 1) = position - (start + 2) := by
    push_cast
    omega
  rw [IsByte, branchValue_byte_iff, hshift]

theorem CodeLine.branchTarget?_eq_some_iff (line target : Text) :
    branchTarget? line = some target ↔
      Operand.mode (Statement.ofLine line).operand = .ok .relative ∧
        (Statement.ofLine line).operand = some target := by
  unfold branchTarget?
  split
  next hmode => simp [hmode]
  next hmode => simp [hmode]

theorem CodeLine.labelNames_take
    {before after : List Text} {line : Text}
    (hlines : ∀ other ∈ before ++ line :: after, IsEncodable other) :
    labelNames (((before ++ line :: after).flatMap entries).take
        (codeSize before + size line)) =
      (before ++ [line]).filterMap branchTarget? := by
  have hsplit : before ++ line :: after = (before ++ [line]) ++ after := by simp
  rw [hsplit] at hlines ⊢
  obtain ⟨hfirst, -⟩ := List.forall_mem_append.mp hlines
  have hlength : ((before ++ [line]).flatMap entries).length = codeSize before + size line := by
    rw [length_flatMap_entries hfirst]
    simp
  rw [List.flatMap_append, ← hlength, List.take_left]
  exact labelNames_flatMap_entries hfirst

namespace Block

variable {block : Block} (hassemble : block.assemble.2.result = .ok ())

include hassemble

/-- What stands behind the opcode of a line, given the low entry of its operand. -/
theorem entry_behind_opcode
    {before after : List Text} {line : Text} {mode : AddressingMode} {entry : Entry}
    (hsource : block.source = before ++ line :: after)
    (hmode : Operand.mode (Statement.ofLine line).operand = .ok mode)
    (hlow : mode.lowEntry (Statement.ofLine line).operand = .ok (some entry)) :
    (block.source.flatMap CodeLine.entries)[CodeLine.codeSize before + 1]? = some entry := by
  obtain ⟨instruction, code, hencoded, hplaces⟩ := entries_at_line hassemble hsource
  have hfound := hencoded.hasInstruction.mode
  rw [hmode, Except.ok.injEq] at hfound
  have hfirst := hencoded.operand.entries_eq.1
  rw [← hfound, hlow, Except.ok.injEq] at hfirst
  have hsize : 1 < CodeLine.size line := by
    have hsome := List.getElem?_eq_some_iff.mp hfirst.symm
    obtain ⟨hlength, -⟩ := hsome
    rw [hencoded.size_eq]
    omega
  rw [hplaces 1 hsize, hfirst]
  rfl

theorem branch_cell
    {before after : List Text} {line target : Text}
    (hsource : block.source = before ++ line :: after)
    (htarget : CodeLine.branchTarget? line = some target) :
    ∃ position,
      nearestPosition? block.assemble.1.symbols
        ((before ++ [line]).filterMap CodeLine.branchTarget?) = some position ∧
      block.assemble.1.execCode[CodeLine.codeSize before + 1]? =
        some (branchValue position (CodeLine.codeSize before + 1)) := by
  have hencodable := (assemble_eq_ok hassemble).1
  obtain ⟨hmode, hoperand⟩ := (CodeLine.branchTarget?_eq_some_iff line target).mp htarget
  have hentry : (block.source.flatMap CodeLine.entries)[CodeLine.codeSize before + 1]? =
      some (.label target) := by
    apply entry_behind_opcode hassemble hsource hmode
    rw [hoperand]
    rfl
  obtain ⟨position, hposition, hcell⟩ :=
    (isResolved_of_assemble hassemble).label _ _ hentry
  obtain ⟨instruction, code, hencoded, -⟩ := entries_at_line hassemble hsource
  have hsize : CodeLine.size line = 2 := by
    have hfound := hencoded.hasInstruction.mode
    rw [hmode, Except.ok.injEq] at hfound
    rw [hencoded.size_eq, hencoded.operand.length_succ, ← hfound]
    rfl
  rw [hsource] at hencodable
  have hnames := CodeLine.labelNames_take hencodable
  rw [hsize, ← hsource] at hnames
  rw [hnames, Option.or_none] at hposition
  rw [Nat.zero_add] at hcell
  exact ⟨position, hposition, hcell⟩

theorem not_isByte_of_overflowsAt
    {index : Nat} {cell : Int}
    (hoverflow : OverflowsAt block.source block.assemble.1.symbols index)
    (hcell : block.assemble.1.execCode[index]? = some cell) :
    ¬IsByte cell := by
  cases hoverflow with
  | operand hsource hmode hoperand hnumber =>
      obtain ⟨hlow, hrange⟩ := hnumber.lowEntry_eq
      rw [← hoperand] at hlow
      have hentry := entry_behind_opcode hassemble hsource hmode hlow
      have hvalue := (isResolved_of_assemble hassemble).value _ _ hentry
      rw [hvalue, Option.some.injEq] at hcell
      rw [← hcell]
      exact hrange
  | @branch before after line target position hsource htarget hposition hfar =>
      obtain ⟨found, hfound, hvalue⟩ := branch_cell hassemble hsource htarget
      rw [hposition, Option.some.injEq] at hfound
      rw [hvalue, Option.some.injEq, ← hfound] at hcell
      rw [← hcell, isByte_branchValue_iff]
      exact hfar

theorem overflowsAt_of_not_isByte
    {index : Nat} {cell : Int}
    (hcell : block.assemble.1.execCode[index]? = some cell) (hbyte : ¬IsByte cell) :
    OverflowsAt block.source block.assemble.1.symbols index := by
  have hresolved := isResolved_of_assemble hassemble
  have hindex : index < CodeLine.codeSize block.source := by
    rw [← CodeLine.length_flatMap_entries (assemble_eq_ok hassemble).1, ← hresolved.length]
    exact (List.getElem?_eq_some_iff.mp hcell).1
  obtain ⟨before, line, after, offset, hsource, hoffset, rfl⟩ :=
    CodeLine.exists_line_at hindex
  obtain ⟨instruction, code, hencoded, hplaces⟩ := entries_at_line hassemble hsource
  have hplace := hplaces offset hoffset
  have hmode := hencoded.hasInstruction.mode
  cases offset with
  | zero =>
      -- The opcode itself is a byte.
      have hvalue := hresolved.value _ _ hplace
      rw [hvalue, Option.some.injEq] at hcell
      have hle := Mnemonic.opcode?_le hencoded.hasInstruction.opcode
      refine absurd ?_ hbyte
      unfold IsByte
      omega
  | succ offset =>
      rw [List.getElem?_cons_succ] at hplace
      have hinside : offset < code.length := by
        have hsize := hencoded.size_eq
        omega
      cases hentry : code[offset]? with
      | none =>
          rw [List.getElem?_eq_none_iff] at hentry
          omega
      | some entry =>
          rw [hentry] at hplace
          cases entry with
          | value number =>
              have hvalue := hresolved.value _ _ hplace
              rw [hvalue, Option.some.injEq] at hcell
              rw [← hcell] at hbyte
              obtain ⟨rfl, text, hoperand, hnumber⟩ :=
                hencoded.operand.overflows_of_not_isByte hmode
                  (fun text htext => Statement.operand_isTrimmedBy htext) hentry hbyte
              exact .operand hsource hmode hoperand hnumber
          | label target =>
              obtain ⟨rfl, hrelative, hoperand⟩ := hencoded.operand.of_label hentry
              rw [hrelative] at hmode
              have htarget := (CodeLine.branchTarget?_eq_some_iff line target).mpr
                ⟨hmode, hoperand⟩
              obtain ⟨position, hposition, hvalue⟩ := branch_cell hassemble hsource htarget
              refine .branch hsource htarget hposition ?_
              rw [hvalue, Option.some.injEq] at hcell
              rw [← hcell, isByte_branchValue_iff] at hbyte
              exact hbyte

end Block

/-! ## Images -/

namespace Segment

def Overflows (segment : Segment) (index : Nat) : Prop :=
  OverflowsAt segment.code segment.assembled.symbols index

theorem isByte_iff_not_overflows
    {segment : Segment} (hassembles : segment.Assembles) {index : Nat} {cell : Int}
    (hcell : segment.execCode[index]? = some cell) :
    IsByte cell ↔ ¬segment.Overflows index := by
  constructor
  · intro hbyte hoverflow
    exact Block.not_isByte_of_overflowsAt hassembles hoverflow hcell hbyte
  · intro hnone
    by_contra hbyte
    exact hnone (Block.overflowsAt_of_not_isByte hassembles hcell hbyte)

end Segment

namespace Image

theorem mem_or_mem_of_mem_lay
    {image : Image} {origin : Int} {code : List Int} {cell : Int}
    (hcell : cell ∈ image.lay origin code) :
    cell ∈ image ∨ cell ∈ code := by
  unfold lay at hcell
  rcases List.mem_append.mp hcell with hfirst | hlast
  · rcases List.mem_append.mp hfirst with hbefore | hcode
    · exact Or.inl (List.mem_of_mem_take hbefore)
    · exact Or.inr hcode
  · exact Or.inl (List.mem_of_mem_drop hlast)

theorem mem_or_exists_of_mem_layAll
    {image : Image} {segments : List Segment} {cell : Int}
    (hcell : cell ∈ image.layAll segments) :
    cell ∈ image ∨ ∃ segment ∈ segments, cell ∈ segment.execCode := by
  induction segments generalizing image with
  | nil => exact Or.inl hcell
  | cons segment rest ih =>
      rcases ih hcell with hlaid | ⟨other, hother, hmem⟩
      · rcases mem_or_mem_of_mem_lay hlaid with himage | hcode
        · exact Or.inl himage
        · exact Or.inr ⟨segment, by simp, hcode⟩
      · exact Or.inr ⟨other, by simp [hother], hmem⟩

theorem isByte_of_mem_blank {cell : Int} (hcell : cell ∈ blank) : IsByte cell := by
  rw [List.eq_of_mem_replicate hcell]
  decide

theorem exists_topAt
    {segments : List Segment} {address : Nat}
    (hcovered : ∃ segment ∈ segments, segment.Covers address) :
    ∃ segment, TopAt segments address segment := by
  obtain ⟨covering, hcovering, hcovers⟩ := hcovered
  have hmem : ∀ segment, segment ∈ segments.filter (·.Covers address) ↔
      segment ∈ segments ∧ segment.Covers address := by
    intro segment
    rw [List.mem_filter, decide_eq_true_eq]
  cases hmax : (segments.filter (·.Covers address)).argmax Segment.origin with
  | none =>
      have hnone := List.argmax_eq_none.mp hmax
      have hin := (hmem covering).mpr ⟨hcovering, hcovers⟩
      simp [hnone] at hin
  | some segment =>
      obtain ⟨hsegment, htop⟩ := (hmem segment).mp (List.argmax_mem hmax)
      refine ⟨segment, hsegment, htop, ?_⟩
      intro other hother hotherCovers
      exact List.le_of_mem_argmax ((hmem other).mpr ⟨hother, hotherCovers⟩) hmax

theorem TopAt.exists_cell
    {segments : List Segment} {address : Nat} {segment : Segment}
    (htop : TopAt segments address segment) :
    ∃ cell, segment.execCode[(address - segment.origin).toNat]? = some cell := by
  obtain ⟨hlow, hhigh⟩ := htop.covers
  have hinside : (address - segment.origin).toNat < segment.execCode.length := by omega
  exact ⟨_, List.getElem?_eq_getElem hinside⟩

/-- If no operand and no branch of the source is out of range, the cells of its image are bytes. The
converse fails only for code that does not show: where all code lies inside the address space, the
cells are bytes if and only if none of those that are seen is out of range. -/
theorem assemble_bytes
    {content : Text} {quiet : Bool} {segments : List Segment} {image : Image}
    (hsegments : Segment.ofFile content = .ok segments)
    (hassemble : (assemble content quiet).result = .ok image) :
    ((∀ segment ∈ segments, ∀ index, ¬segment.Overflows index) →
      ∀ cell ∈ image, IsByte cell) ∧
    ((∀ segment ∈ segments, segment.Fits) →
      ((∀ cell ∈ image, IsByte cell) ↔
        ∀ address segment, TopAt segments address segment →
          ¬segment.Overflows (address - segment.origin).toNat)) := by
  obtain ⟨others, hothers, hassembles, rfl⟩ :=
    (assemble_ok_iff content quiet image).mp hassemble
  obtain rfl := Except.ok.inj (hsegments.symm.trans hothers)
  constructor
  · intro hnone cell hcell
    rcases mem_or_exists_of_mem_layAll hcell with hblank | ⟨segment, hsegment, hcode⟩
    · exact isByte_of_mem_blank hblank
    · obtain ⟨index, hindex⟩ := List.mem_iff_getElem?.mp hcode
      exact (Segment.isByte_iff_not_overflows (hassembles segment hsegment) hindex).mpr
        (hnone segment hsegment index)
  · intro hfits
    have hascending := Segment.ofFile_ascending hsegments
    have htopCell : ∀ {address segment}, TopAt segments address segment →
        (blank.layAll segments)[address]? =
          segment.execCode[(address - segment.origin).toNat]? :=
      fun htop => layAll_getElem?_of_topAt length_blank hfits hascending htop
    constructor
    · intro hbytes address segment htop
      obtain ⟨cell, hcell⟩ := htop.exists_cell
      rw [← Segment.isByte_iff_not_overflows (hassembles segment htop.mem) hcell]
      apply hbytes
      rw [← htopCell htop] at hcell
      exact List.mem_of_getElem? hcell
    · intro hnone cell hcell
      obtain ⟨address, haddress⟩ := List.mem_iff_getElem?.mp hcell
      by_cases hcovered : ∃ segment ∈ segments, segment.Covers address
      · obtain ⟨segment, htop⟩ := exists_topAt hcovered
        rw [htopCell htop] at haddress
        exact (Segment.isByte_iff_not_overflows (hassembles segment htop.mem) haddress).mpr
          (hnone address segment htop)
      · push Not at hcovered
        rw [layAll_getElem?_of_not_covers length_blank hfits hcovered] at haddress
        exact isByte_of_mem_blank (List.mem_of_getElem? haddress)

theorem assemble_of_singleton
    {content : Text} {segment : Segment} (hsegments : Segment.ofFile content = .ok [segment])
    (hassembles : segment.Assembles) (quiet : Bool) :
    (assemble content quiet).result = .ok (blank.layAll [segment]) := by
  rw [assemble_ok_iff]
  refine ⟨[segment], hsegments, ?_, rfl⟩
  intro other hother
  rw [List.mem_singleton.mp hother]
  exact hassembles

/-- The two characters between the parentheses are a minus sign and a digit. -/
theorem assemble_bytes_negative_pointer :
    ∃ segments image,
      Segment.ofFile ".org $8000\nlda (x-1,x)\n".toList = .ok segments ∧
      (assemble ".org $8000\nlda (x-1,x)\n".toList true).result = .ok image ∧
      ¬∀ cell ∈ image, IsByte cell := by
  let segment : Segment := ⟨0x8000, [⟨2, "lda (x-1,x)".toList⟩]⟩
  have hsegments : Segment.ofFile ".org $8000\nlda (x-1,x)\n".toList = .ok [segment] :=
    congrArg Except.ok (List.mergeSort_singleton segment)
  have hassemble := assemble_of_singleton hsegments rfl true
  refine ⟨_, _, hsegments, hassemble, ?_⟩
  have hfits : ∀ other ∈ [segment], other.Fits := by
    intro other hother
    rw [List.mem_singleton.mp hother]
    exact ⟨by decide, by decide⟩
  rw [(assemble_bytes hsegments hassemble).2 hfits]
  intro hnone
  have hsource : segment.code = [] ++ "lda (x-1,x)".toList :: [] := rfl
  have hoverflow : OperandOverflows .indirectX "(x-1,x)".toList (-1) :=
    .pointer (Or.inl rfl) rfl (by decide)
  exact hnone 0x8001 segment ⟨by simp, by decide, by simp⟩ (.operand hsource rfl rfl hoverflow)

/-- It is not so that the cells of every image are bytes: an immediate operand may have more than
two digits. -/
theorem immediate_cell_not_byte :
    ¬∀ (content : Text) (quiet : Bool) (image : Image),
      (assemble content quiet).result = .ok image → ∀ cell ∈ image, IsByte cell := by
  intro hclaim
  let segment : Segment := ⟨0x8000, [⟨2, "lda #$100".toList⟩]⟩
  have hsegments : Segment.ofFile ".org $8000\nlda #$100\n".toList = .ok [segment] :=
    congrArg Except.ok (List.mergeSort_singleton segment)
  have hassemble := assemble_of_singleton hsegments rfl true
  have hcell : (0x100 : Int) ∈ blank.layAll [segment] := by
    have hcode : segment.execCode = [0xa9, 0x100] := rfl
    rw [layAll_cons, layAll_nil, hcode, lay]
    simp
  exact absurd (hclaim _ true _ hassemble 0x100 hcell) (by decide)

end Image

end Assembler6502
