import Assembler6502.Proofs.Program.Lines
import Assembler6502.Proofs.ReachableBlocks
import Assembler6502.Proofs.SpacedOperands

/-!
# The syntax of operands

Every mode has its documented form: nothing, a letter, a label, or a fixed number of digits between
fixed marks. Every documented form is classified as its mode. The converse fails where a mode is
recognized by the ends of an operand only. Then whatever stands between the part that is read and
the closing marks is ignored. This file says which operands of lines that assemble are documented,
and how far the others may stray.
-/

namespace Assembler6502

open Text

/-! ## The documented forms -/

namespace AddressingMode

open Hexadecimal Operand

/-- The documented form of operands in a mode, in lower case and without spaces. -/
def Documents (mode : AddressingMode) (text : Text) : Prop :=
  match mode with
  | implied => text = []
  | accumulator => text = ['a']
  | relative => IsLabelName text
  | immediate | zeroPage | zeroPageX | absolute | absoluteX | absoluteY | indirectX | indirectY =>
    mode.IsNumber text
  | zeroPageY | indirect => False

/-- The length of a documented number. -/
def width (mode : AddressingMode) : Nat :=
  mode.opening.length + mode.digitCount + mode.closing.length

/-- What an operand of a mode needs to be documented, besides what its classification has looked
at. -/
structure Fits (mode : AddressingMode) (text : Text) : Prop where
  absolute : mode.IsAbsolute → text.length = mode.width
  immediate : mode = .immediate →
    text.length = mode.width ∧ ∀ c ∈ text.drop 2, isDigit c = true
  pointer : mode.IsPointer → text.length = mode.width ∧ StartsWithPointer text

end AddressingMode

/-- The operand of a line in lower case and without spaces. -/
def CodeLine.operandText (line : Text) : Text :=
  ((Statement.ofLine line).operand.getD []).lower.spaceless

def Operand.IsDocumented (operand : Text) : Prop :=
  ∃ mode : AddressingMode, mode.Documents operand

/-! ## Documented operands are classified -/

namespace AddressingMode

open Hexadecimal Operand

variable {mode : AddressingMode} {text : Text}

theorem documents_iff_of_isNumeric (hnumeric : mode.IsNumeric) :
    mode.Documents text ↔ mode.IsNumber text := by
  rcases hnumeric with rfl | rfl | rfl | (rfl | rfl | rfl) | rfl | rfl <;> rfl

/-- A documented operand is classified as the mode that documents it, so by one mode only. -/
theorem Documents.modeOfNormal_eq (htext : mode.Documents text) :
    modeOfNormal text = .ok mode := by
  by_cases hnumeric : mode.IsNumeric
  · exact ((documents_iff_of_isNumeric hnumeric).mp htext).modeOfNormal_eq hnumeric
  · cases mode with
    | implied =>
        obtain rfl : text = [] := htext
        rfl
    | accumulator =>
        obtain rfl : text = ['a'] := htext
        rfl
    | relative => exact modeOfNormal_label htext
    | zeroPageY | indirect => exact htext.elim
    | _ => simp [IsNumeric, IsAbsolute, IsPointer] at hnumeric

theorem IsNumber.length_eq (htext : mode.IsNumber text) : text.length = mode.width := by
  obtain ⟨digits, rfl, hlength, -⟩ := htext
  simp only [List.length_append, hlength, width]

theorem Documents.fits (htext : mode.Documents text) : mode.Fits text := by
  refine ⟨?_, ?_, ?_⟩
  · intro habsolute
    have hnumeric : mode.IsNumeric := .inr (.inr (.inr (.inl habsolute)))
    exact ((documents_iff_of_isNumeric hnumeric).mp htext).length_eq
  · rintro rfl
    refine ⟨IsNumber.length_eq htext, ?_⟩
    obtain ⟨digits, rfl, -, hdigits⟩ := htext
    simpa [opening, closing] using hdigits
  · intro hpointer
    have hnumber : mode.IsNumber text :=
      (documents_iff_of_isNumeric (.inr (.inr (.inr (.inr hpointer))))).mp htext
    refine ⟨hnumber.length_eq, ?_⟩
    obtain ⟨digits, rfl, hlength, hdigits⟩ := hnumber
    have hmarks : mode.opening = ['(', '$'] ∧ mode.digitCount = 2 := by
      rcases hpointer with rfl | rfl <;> exact ⟨rfl, rfl⟩
    obtain ⟨first, second, rfl⟩ := List.length_eq_two.mp (hlength.trans hmarks.2)
    rw [hmarks.1]
    exact ⟨first, second, mode.closing, rfl, hdigits first (by simp), hdigits second (by simp)⟩

end AddressingMode

/-! ## Classified operands -/

namespace Operand

open AddressingMode Hexadecimal

/-- Where the marks and digits in front are right, the closing marks stand right behind them
exactly if the length is right. -/
theorem isNumber_of_length
    {mode : AddressingMode} {digits rest : Text}
    (hcount : digits.length = mode.digitCount) (hdigits : ∀ c ∈ digits, isDigit c = true)
    (hclosing : mode.closing <:+ mode.opening ++ digits ++ rest)
    (hlength : (mode.opening ++ digits ++ rest).length = mode.width) :
    mode.IsNumber (mode.opening ++ digits ++ rest) := by
  obtain ⟨front, hfront⟩ := hclosing
  have hrest : mode.closing.length = rest.length := by
    simp only [List.length_append, hcount, width] at hlength
    omega
  obtain ⟨-, rfl⟩ := List.append_inj' hfront hrest
  exact ⟨digits, rfl, hcount, hdigits⟩

theorem IsClassified.isNumber_of_fits
    {normal : Text} {mode : AddressingMode} (hclass : IsClassified normal mode)
    (hnumeric : mode.IsNumeric) (hfits : mode.Fits normal) :
    mode.IsNumber normal := by
  have hzeroPage (hmode : mode = .zeroPage ∨ mode = .zeroPageX) : mode.IsNumber normal := by
    have haddress := (hasAddress_iff 2 normal _).mpr (hclass.zeroPage hmode)
    rcases hmode with rfl | rfl <;> exact haddress
  rcases hnumeric with himmediate | hmode | hmode | habsolute | hpointer
  · subst himmediate
    obtain ⟨hlength, hdigits⟩ := hfits.immediate rfl
    obtain ⟨digits, rfl⟩ := hclass.immediate rfl
    refine ⟨digits, by simp [opening, closing], ?_, hdigits⟩
    simpa [width, opening, digitCount, closing] using hlength
  · exact hzeroPage (.inl hmode)
  · exact hzeroPage (.inr hmode)
  · obtain ⟨hstart, hclosing⟩ := hclass.absolute habsolute
    obtain ⟨rest, digits, hnormal, hcount, hdigits⟩ := (exists_hasAddress_iff 4 normal).mpr hstart
    have hmarks : mode.opening = ['$'] ∧ mode.digitCount = 4 := by
      rcases habsolute with rfl | rfl | rfl <;> exact ⟨rfl, rfl⟩
    replace hnormal : normal = mode.opening ++ digits ++ rest := by
      rw [hmarks.1, hnormal]
      rfl
    have hlength := hfits.absolute habsolute
    rw [hnormal] at hclosing hlength ⊢
    exact isNumber_of_length (hcount.trans hmarks.2.symm) hdigits hclosing hlength
  · obtain ⟨hlength, first, second, rest, hnormal, hfirst, hsecond⟩ := hfits.pointer hpointer
    have hclosing := (hclass.pointer hpointer).2
    have hmarks : mode.opening = ['(', '$'] ∧ mode.digitCount = 2 := by
      rcases hpointer with rfl | rfl <;> exact ⟨rfl, rfl⟩
    replace hnormal : normal = mode.opening ++ [first, second] ++ rest := by
      rw [hmarks.1, hnormal]
      rfl
    rw [hnormal] at hclosing hlength ⊢
    exact isNumber_of_length hmarks.2.symm (by simp [hfirst, hsecond]) hclosing hlength

theorem documents_of_fits
    {normal : Text} {mode : AddressingMode} (hlower : ∀ c ∈ normal, c.toLower = c)
    (hmode : modeOfNormal normal = .ok mode) (hfits : mode.Fits normal) :
    mode.Documents normal := by
  have hclass := isClassified_of_modeOfNormal hmode
  by_cases hnumeric : mode.IsNumeric
  · exact (documents_iff_of_isNumeric hnumeric).mpr (hclass.isNumber_of_fits hnumeric hfits)
  · cases mode with
    | implied => exact hclass.implied rfl
    | accumulator => exact hclass.accumulator rfl
    | relative => exact isLabelName_of_modeOfNormal hlower hmode
    | zeroPageY => exact absurd rfl hclass.written.1
    | indirect => exact absurd rfl hclass.written.2
    | _ => simp [IsNumeric, IsAbsolute, IsPointer] at hnumeric

theorem isDocumented_iff_fits
    {normal : Text} {mode : AddressingMode} (hlower : ∀ c ∈ normal, c.toLower = c)
    (hmode : modeOfNormal normal = .ok mode) :
    IsDocumented normal ↔ mode.Fits normal := by
  constructor
  · rintro ⟨other, hother⟩
    have hsame : mode = other := Except.ok.inj (hmode.symm.trans hother.modeOfNormal_eq)
    exact hsame ▸ hother.fits
  · intro hfits
    exact ⟨mode, documents_of_fits hlower hmode hfits⟩

end Operand

/-! ## Operands with an excess -/

namespace Text

theorem exists_trimBy_append_left
    {dropped : Char → Bool} {first : Text} (hfirst : ∀ c ∈ first, dropped c = false)
    (hsome : first ≠ []) (rest : Text) :
    ∃ kept, trimBy dropped (first ++ rest) = first ++ kept := by
  have hhead : (first ++ rest).dropWhile dropped = first ++ rest := by
    apply dropWhile_eq_self
    intro c hc
    rw [List.head?_append_of_ne_nil first hsome] at hc
    exact hfirst c (List.mem_of_mem_head? hc)
  have hlast : first.reverse.dropWhile dropped = first.reverse := by
    apply dropWhile_eq_self
    intro c hc
    exact hfirst c (List.mem_reverse.mp (List.mem_of_mem_head? hc))
  refine ⟨(rest.reverse.dropWhile dropped).reverse, ?_⟩
  rw [trimBy, hhead, List.reverse_append, List.dropWhile_append, hlast]
  split
  next hempty => simp [List.isEmpty_iff.mp hempty]
  next => simp

theorem exists_trimBy_append_right
    {dropped : Char → Bool} {last : Text} (hlast : ∀ c ∈ last, dropped c = false)
    (hsome : last ≠ []) (text : Text) :
    ∃ kept, trimBy dropped (text ++ last) = kept ++ last := by
  have hhead : last.dropWhile dropped = last := by
    apply dropWhile_eq_self
    intro c hc
    exact hlast c (List.mem_of_mem_head? hc)
  have hend (front : Text) :
      (front ++ last).reverse.dropWhile dropped = (front ++ last).reverse := by
    apply dropWhile_eq_self
    intro c hc
    rw [List.head?_reverse, List.getLast?_append_of_ne_nil front hsome] at hc
    exact hlast c (List.mem_of_mem_getLast? hc)
  refine ⟨text.dropWhile dropped, ?_⟩
  rw [trimBy, List.dropWhile_append, hhead]
  split
  next hempty =>
      have hwhole := hend []
      rw [List.nil_append] at hwhole
      rw [hwhole, List.reverse_reverse, List.isEmpty_iff.mp hempty, List.nil_append]
  next => rw [hend, List.reverse_reverse]

theorem exists_lowerAfter_append_left
    {first : Text} (hfirst : ∀ c ∈ first, c.toNat < 0x80) (afterCased : Bool) (rest : Text) :
    ∃ lowered, lowerAfter afterCased (first ++ rest) = first.map Char.toLower ++ lowered := by
  induction first generalizing afterCased with
  | nil => exact ⟨_, rfl⟩
  | cons c others ih =>
      obtain ⟨form, later, hform, hlower⟩ := lowerAfter_cons afterCased c (others ++ rest)
      obtain ⟨lowered, hlowered⟩ := ih (fun d hd => hfirst d (by simp [hd])) later
      refine ⟨lowered, ?_⟩
      rw [List.cons_append, hlower, hlowered, hform.eq_of_ascii (hfirst c (by simp))]
      rfl

theorem exists_lowerAfter_append_right
    {last : Text} (hlast : ∀ c ∈ last, c.toNat < 0x80) (afterCased : Bool) (text : Text) :
    ∃ lowered, lowerAfter afterCased (text ++ last) = lowered ++ last.map Char.toLower := by
  induction text generalizing afterCased with
  | nil => exact ⟨[], lowerAfter_ascii afterCased hlast⟩
  | cons c rest ih =>
      obtain ⟨form, later, -, hlower⟩ := lowerAfter_cons afterCased c (rest ++ last)
      obtain ⟨lowered, hlowered⟩ := ih later
      exact ⟨form ++ lowered, by rw [List.cons_append, hlower, hlowered, List.append_assoc]⟩

end Text

namespace Operand

open AddressingMode Hexadecimal

/-- A visible ASCII character. -/
def IsVisible (c : Char) : Prop :=
  c.toNat < 0x80 ∧ isBlank c = false

instance (c : Char) : Decidable (IsVisible c) :=
  inferInstanceAs (Decidable (_ ∧ _))

theorem isVisible_of_isDigit {c : Char} (hc : isDigit c = true) : IsVisible c := by
  refine ⟨?_, isBlank_of_isDigit hc⟩
  rw [isDigit_iff] at hc
  omega

theorem isDigit_toLower {c : Char} (hc : isDigit c = true) : isDigit c.toLower = true := by
  rw [isDigit_iff] at hc ⊢
  rw [toNat_toLower]
  split <;> omega

section Visible

variable {visible : Text} (hvisible : ∀ c ∈ visible, IsVisible c) (hsome : visible ≠ [])

include hvisible

theorem isBlank_of_mem_map_toLower : ∀ c ∈ visible.map Char.toLower, isBlank c = false := by
  intro c hc
  obtain ⟨d, hd, rfl⟩ := List.mem_map.mp hc
  rw [isBlank_toLower]
  exact (hvisible d hd).2

theorem filter_map_toLower :
    (visible.map Char.toLower).filter (· ≠ ' ') = visible.map Char.toLower := by
  rw [List.filter_eq_self]
  intro c hc
  have hblank := isBlank_of_mem_map_toLower hvisible c hc
  rw [decide_eq_true_eq]
  rintro rfl
  exact absurd hblank (by decide)

include hsome

theorem exists_normalize_append_left (rest : Text) :
    ∃ kept, normalize (visible ++ rest) = visible.map Char.toLower ++ kept := by
  obtain ⟨lowered, hlower⟩ :=
    exists_lowerAfter_append_left (fun c hc => (hvisible c hc).1) false rest
  obtain ⟨kept, hkept⟩ := exists_trimBy_append_left (isBlank_of_mem_map_toLower hvisible)
    (by simpa using hsome) lowered
  refine ⟨kept.filter (· ≠ ' '), ?_⟩
  rw [normalize, lower, hlower, trim, hkept, List.filter_append, filter_map_toLower hvisible]

theorem exists_normalize_append_right (text : Text) :
    ∃ kept, normalize (text ++ visible) = kept ++ visible.map Char.toLower := by
  obtain ⟨lowered, hlower⟩ :=
    exists_lowerAfter_append_right (fun c hc => (hvisible c hc).1) false text
  obtain ⟨kept, hkept⟩ := exists_trimBy_append_right (isBlank_of_mem_map_toLower hvisible)
    (by simpa using hsome) lowered
  refine ⟨kept.filter (· ≠ ' '), ?_⟩
  rw [normalize, lower, hlower, trim, hkept, List.filter_append, filter_map_toLower hvisible]

end Visible

theorem exists_modeOfNormal_of_hasAddress
    {normal : Text} (hstart : ∃ rest, HasAddress 4 normal rest) :
    ∃ mode : AddressingMode, mode.IsAbsolute ∧ modeOfNormal normal = .ok mode := by
  rw [modeOfNormal_of_hasAddress hstart]
  split
  · exact ⟨_, .inr (.inl rfl), rfl⟩
  · split
    · exact ⟨_, .inr (.inr rfl), rfl⟩
    · exact ⟨_, .inl rfl, rfl⟩

end Operand

/-- A line may have the text as its operand. -/
structure Operand.IsWritable (operand : Text) : Prop where
  trimmed : IsTrimmedBy isBlank operand
  noColon : ':' ∉ operand

theorem Statement.ofLine_mnemonic
    {operand : Text} (hoperand : Operand.IsWritable operand) (hsome : operand ≠ [])
    (mnemonic : Mnemonic) :
    Statement.ofLine (mnemonic.name ++ ' ' :: operand) =
      ⟨none, mnemonic.name, some operand⟩ := by
  have hname := IsPhrase.of_mnemonic mnemonic
  have hmark {mark : Char} (hmark : isPlain mark = false) : mark ∉ mnemonic.name := fun hmem =>
    ne_of_isPlain (isPlain_of_mem_mnemonic hmem) hmark rfl
  have hnormal : Statement.IsNormal ⟨none, mnemonic.name, some operand⟩ := by
    refine ⟨by simp, ⟨hname.trimmed, hmark (show isPlain ' ' = false by decide)⟩, ?_,
      fun _ => hname.nonempty, ?_⟩
    · rintro _ ⟨⟩
      exact ⟨hoperand.trimmed, hsome⟩
    · simp [Statement.body, Statement.writtenOperand, hmark (show isPlain ':' = false by decide),
        hoperand.noColon]
  exact hnormal.ofLine_render

namespace AddressingMode

open Operand Hexadecimal

/-- The first pass takes the operand in a mode, and has the entries behind the opcode of every
instruction that has the mode. -/
def Takes (mode : AddressingMode) (operand : Text) (code : List Entry) : Prop :=
  Operand.mode (some operand) = .ok mode ∧
    ∀ (mnemonic : Mnemonic) (opcode : Nat),
      mnemonic.opcode? mode = some opcode →
        (Block.ofSource [mnemonic.name ++ ' ' :: operand]).firstPass.2 =
          .ok (.value opcode :: code)

variable {mode : AddressingMode} {operand : Text}

theorem takes_of_reads
    {low high : Option Entry} (hoperand : IsWritable operand) (hsome : operand ≠ [])
    (hmode : Operand.mode (some operand) = .ok mode) (hreads : mode.Reads operand low high) :
    mode.Takes operand (low.toList ++ high.toList) := by
  refine ⟨hmode, ?_⟩
  intro mnemonic opcode hopcode
  have hstatement := Statement.ofLine_mnemonic hoperand hsome mnemonic
  have hinstruction : (Statement.ofLine (mnemonic.name ++ ' ' :: operand)).instruction =
      .ok ⟨mnemonic, mode, opcode⟩ := by
    simp only [hstatement, Statement.instruction, hmode, Mnemonic.ofName?_name, hopcode]
  have hencode : CodeLine.encode (mnemonic.name ++ ' ' :: operand) =
      .ok (.value opcode :: (low.toList ++ high.toList)) := by
    rw [CodeLine.encode, hinstruction, hstatement]
    simp only [Instruction.encode, hreads.1, hreads.2]
  have hlines : ∀ line ∈ [mnemonic.name ++ ' ' :: operand], CodeLine.IsEncodable line := by
    simpa using ⟨_, hencode⟩
  rw [Block.firstPass, Block.ofSource, encodeLines_of_encodable _ 0 _ hlines]
  simp [CodeLine.entries, hencode]

theorem exists_takes_address
    {first second third fourth : Char} {excess : Text}
    (hdigits : ∀ c ∈ [first, second, third, fourth], isDigit c = true)
    (hoperand : IsWritable ('$' :: first :: second :: third :: fourth :: excess)) :
    ∃ mode : AddressingMode,
      mode.IsAbsolute ∧
      mode.Takes ('$' :: first :: second :: third :: fourth :: excess)
        [.value (16 * digitValue third + digitValue fourth),
          .value (16 * digitValue first + digitValue second)] := by
  have hvisible : ∀ c ∈ ['$', first, second, third, fourth], IsVisible c :=
    List.forall_mem_cons.mpr ⟨by decide, fun c hc => isVisible_of_isDigit (hdigits c hc)⟩
  have hlower : ∀ c ∈ [first, second, third, fourth].map Char.toLower, isDigit c = true := by
    intro c hc
    obtain ⟨d, hd, rfl⟩ := List.mem_map.mp hc
    exact isDigit_toLower (hdigits d hd)
  obtain ⟨kept, hnormal⟩ := exists_normalize_append_left hvisible (by simp) excess
  obtain ⟨mode, habsolute, hmode⟩ :=
    exists_modeOfNormal_of_hasAddress ⟨kept, _, rfl, by simp, hlower⟩
  have hreads : mode.Reads ('$' :: first :: second :: third :: fourth :: excess)
      (some (.value (16 * digitValue third + digitValue fourth)))
      (some (.value (16 * digitValue first + digitValue second))) := by
    rw [habsolute.reads_iff]
    exact ⟨_, _, read?_digits (hdigits third (by simp)) (hdigits fourth (by simp)),
      read?_digits (hdigits first (by simp)) (hdigits second (by simp)), rfl, rfl⟩
  refine ⟨mode, habsolute, takes_of_reads hoperand (by simp) ?_ hreads⟩
  exact (congrArg modeOfNormal hnormal).trans hmode

theorem IsPointer.takes
    {mark first second : Char} {excess : Text} (hmode : mode.IsPointer)
    (hfirst : isDigit first = true) (hsecond : isDigit second = true)
    (hoperand : IsWritable ('(' :: mark :: first :: second :: excess ++ mode.closing)) :
    mode.Takes ('(' :: mark :: first :: second :: excess ++ mode.closing)
      [.value (16 * digitValue first + digitValue second)] := by
  have hclosing : (∀ c ∈ mode.closing, IsVisible c) ∧ mode.closing ≠ [] ∧
      mode.closing.map Char.toLower = mode.closing := by
    rcases hmode with rfl | rfl <;> exact ⟨forall_mem_of_all rfl, by decide, by decide⟩
  have hopening : ∀ c ∈ ['('], IsVisible c := forall_mem_of_all rfl
  obtain ⟨front, hfront⟩ := exists_normalize_append_right hclosing.1 hclosing.2.1
    ('(' :: mark :: first :: second :: excess)
  obtain ⟨kept, hkept⟩ := exists_normalize_append_left hopening (by simp)
    (mark :: first :: second :: excess ++ mode.closing)
  rw [hclosing.2.2] at hfront
  have hreads : mode.Reads ('(' :: mark :: first :: second :: excess ++ mode.closing)
      (some (.value (16 * digitValue first + digitValue second))) none := by
    rw [reads_iff_of_slice hmode.slices_eq]
    exact ⟨_, read?_digits hfirst hsecond, rfl, rfl⟩
  refine takes_of_reads hoperand (by simp) ?_ hreads
  exact modeOfNormal_of_isPointer hmode ⟨kept, hkept.symm⟩ ⟨front, hfront.symm⟩

theorem immediate_takes
    {digits : Text} (hdigits : ∀ c ∈ digits, isDigit c = true) (hsome : digits ≠ []) :
    immediate.Takes ('#' :: '$' :: digits) [.value (valueFrom 0 digits)] := by
  have hmarks : ∀ c ∈ ['#', '$'], IsVisible c := forall_mem_of_all rfl
  have hgroup : IsGroup digits := ⟨hsome, hdigits⟩
  have hoperand : IsWritable ('#' :: '$' :: digits) := by
    refine ⟨IsTrimmedBy.of_forall ?_, ?_⟩
    · simpa [show isBlank '#' = false by decide, show isBlank '$' = false by decide] using
        fun c hc => isBlank_of_isDigit (hdigits c hc)
    · simpa using hgroup.not_mem (show isDigit ':' = false by decide)
  have htrimmed : IsTrimmedBy ['#', '$'].contains digits := by
    apply IsTrimmedBy.of_forall
    intro c hc
    by_contra hmark
    simp only [Bool.not_eq_false, List.contains_iff_mem] at hmark
    rcases List.mem_cons.mp hmark with rfl | hdollar
    · exact hgroup.not_mem (by decide) hc
    · obtain rfl := List.mem_singleton.mp hdollar
      exact hgroup.not_mem (by decide) hc
  have htrim : trimBy ['#', '$'].contains ('#' :: '$' :: digits) = digits :=
    (@trimBy_append_left ['#', '$'].contains ['#', '$'] (by simp) digits).trans
      htrimmed.trimBy_eq
  have hreads :
      immediate.Reads ('#' :: '$' :: digits) (some (.value (valueFrom 0 digits))) none := by
    refine ⟨trimmedValue_of_read? ?_, rfl⟩
    rw [htrim]
    exact read?_of_isDigit hdigits hsome
  refine takes_of_reads hoperand (by simp) ?_ hreads
  obtain ⟨kept, hkept⟩ := exists_normalize_append_left hmarks (by simp) digits
  exact (congrArg modeOfNormal hkept).trans (by simp [modeOfNormal])

end AddressingMode

/-! ## Lines that assemble -/

namespace CodeLine

theorem normalize_operand (line : Text) :
    Operand.normalize ((Statement.ofLine line).operand.getD []) = operandText line := by
  rw [operandText]
  cases hoperand : (Statement.ofLine line).operand with
  | none => rfl
  | some text => exact Operand.normalize_of_isTrimmedBy (Statement.operand_isTrimmedBy hoperand)

theorem toLower_eq_of_mem_operandText {line : Text} :
    ∀ c ∈ operandText line, c.toLower = c :=
  fun _ hc => toLower_eq_of_mem_lower (List.mem_of_mem_filter hc)

end CodeLine

namespace Block

open CodeLine Hexadecimal Operand

/-- The operand of a line that assembles is documented if its mode is neither absolute, nor
immediate, nor one with parentheses, and exactly if it has the digits and the length of its mode
otherwise. What is read of other operands are the digits in their place, and the rest is ignored:
all that follows the four digits of an address, the mark in front of a pointer and what stands
between its digits and the closing marks. An immediate number may have any number of digits. -/
theorem firstPass_documented_iff (block : Block) :
    (∀ objectCode : List Entry,
      block.firstPass.2 = .ok objectCode →
        ∀ line ∈ block.source,
          ∃ mode,
            Operand.mode (Statement.ofLine line).operand = .ok mode ∧
            (IsDocumented (operandText line) ↔ mode.Fits (operandText line))) ∧
    (∀ (first second third fourth : Char) (excess : Text),
      (∀ c ∈ [first, second, third, fourth], isDigit c = true) →
      IsWritable ('$' :: first :: second :: third :: fourth :: excess) →
        ∃ mode : AddressingMode,
          mode.IsAbsolute ∧
          mode.Takes ('$' :: first :: second :: third :: fourth :: excess)
            [.value (16 * digitValue third + digitValue fourth),
              .value (16 * digitValue first + digitValue second)]) ∧
    (∀ (mode : AddressingMode) (mark first second : Char) (excess : Text),
      mode.IsPointer → isDigit first = true → isDigit second = true →
      IsWritable ('(' :: mark :: first :: second :: excess ++ mode.closing) →
        mode.Takes ('(' :: mark :: first :: second :: excess ++ mode.closing)
          [.value (16 * digitValue first + digitValue second)]) ∧
    (∀ digits : Text,
      (∀ c ∈ digits, isDigit c = true) → digits ≠ [] →
        AddressingMode.immediate.Takes ('#' :: '$' :: digits) [.value (valueFrom 0 digits)]) := by
  refine ⟨?_, ?_, ?_, ?_⟩
  · intro objectCode hpass line hline
    have hencodable := encodable_of_encodeLines hpass line hline
    obtain ⟨instruction, _, hencoded, -⟩ := hencodable.exists_isEncodedAs
    have hmode := hencoded.hasInstruction.mode
    refine ⟨instruction.mode, hmode, ?_⟩
    rw [Operand.mode, normalize_operand] at hmode
    exact Operand.isDocumented_iff_fits toLower_eq_of_mem_operandText hmode
  · exact fun _ _ _ _ _ hdigits hoperand => AddressingMode.exists_takes_address hdigits hoperand
  · exact fun _ _ _ _ _ hmode hfirst hsecond hoperand => hmode.takes hfirst hsecond hoperand
  · exact fun _ hdigits hsome => AddressingMode.immediate_takes hdigits hsome

/-- Operands with an excess in all three places assemble, and none of them is documented. -/
theorem firstPass_documented_iff_excess :
    let block := Block.ofSource
      ["lda $1234garbage".toList, "lda (!44 and so on),y".toList, "lda #$123".toList]
    block.firstPass.2 =
        .ok [.value 0xad, .value 0x34, .value 0x12, .value 0xb1, .value 0x44,
          .value 0xa9, .value 0x123] ∧
      ∀ line ∈ block.source, ¬IsDocumented (operandText line) := by
  intro block
  have hpass : block.firstPass.2 =
      .ok [.value 0xad, .value 0x34, .value 0x12, .value 0xb1, .value 0x44,
        .value 0xa9, .value 0x123] := by
    unfold block
    rfl
  have hstray {line : Text} {mode : AddressingMode} (hline : line ∈ block.source)
      (hmode : Operand.mode (Statement.ofLine line).operand = .ok mode)
      (hfits : ¬mode.Fits (operandText line)) :
      ¬IsDocumented (operandText line) := by
    obtain ⟨found, hfound, hiff⟩ := (firstPass_documented_iff block).1 _ hpass line hline
    obtain rfl : mode = found := Except.ok.inj (hmode.symm.trans hfound)
    exact mt hiff.mp hfits
  refine ⟨hpass, List.forall_mem_cons.mpr ⟨?_, List.forall_mem_cons.mpr ⟨?_, ?_⟩⟩⟩
  · apply @hstray _ .absolute (by simp [block, ofSource]) rfl
    exact fun hfits => absurd (hfits.absolute (.inl rfl)) (by decide)
  · apply @hstray _ .indirectY (by simp [block, ofSource]) rfl
    exact fun hfits => absurd (hfits.pointer (.inr rfl)).1 (by decide)
  · rw [List.forall_mem_singleton]
    apply @hstray _ .immediate (by simp [block, ofSource]) rfl
    exact fun hfits => absurd (hfits.immediate rfl).1 (by decide)

/-- An address with letters behind its digits assembles, and no documented form has them. -/
theorem firstPass_undocumented :
    ¬∀ (block : Block) (objectCode : List Entry),
      block.firstPass.2 = .ok objectCode →
        ∀ line ∈ block.source, IsDocumented (operandText line) := by
  intro hclaim
  obtain ⟨mode, hmode⟩ := hclaim (.ofSource ["lda $1234garbage".toList])
    [.value 0xad, .value 0x34, .value 0x12] rfl _ (List.mem_singleton.mpr rfl)
  have hsame : mode = .absolute := Except.ok.inj hmode.modeOfNormal_eq.symm
  subst hsame
  exact absurd (hmode.fits.absolute (.inl rfl)) (by decide)

end Block

end Assembler6502
