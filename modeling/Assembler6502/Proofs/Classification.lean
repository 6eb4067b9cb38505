import Assembler6502.Operand
import Assembler6502.Proofs.Numerals

/-!
# The classification of operands

An operand is classified by how its normal form starts and how it ends. This file says once what a
normal form of each mode has been looked at for, and once for each family of modes that whatever
looks like this has the mode. The marks and the number of digits of a mode are data, so the numbers
that are written in all modes are classified by one theorem.
-/

namespace Assembler6502

open Text

/-! ## Modes with a number -/

namespace AddressingMode

open Hexadecimal

def IsAbsolute (mode : AddressingMode) : Prop :=
  mode = .absolute ∨ mode = .absoluteX ∨ mode = .absoluteY

def IsPointer (mode : AddressingMode) : Prop :=
  mode = .indirectX ∨ mode = .indirectY

/-- The modes whose operands are numbers. -/
def IsNumeric (mode : AddressingMode) : Prop :=
  mode = .immediate ∨ mode = .zeroPage ∨ mode = .zeroPageX ∨ mode.IsAbsolute ∨ mode.IsPointer

/-- The marks in front of the digits. -/
def opening : AddressingMode → Text
  | immediate => ['#', '$']
  | zeroPage | zeroPageX | absolute | absoluteX | absoluteY => ['$']
  | indirectX | indirectY => ['(', '$']
  | accumulator | implied | relative | zeroPageY | indirect => []

def digitCount : AddressingMode → Nat
  | immediate | zeroPage | zeroPageX | indirectX | indirectY => 2
  | absolute | absoluteX | absoluteY => 4
  | accumulator | implied | relative | zeroPageY | indirect => 0

theorem IsNumeric.digitCount_pos {mode : AddressingMode} (hmode : mode.IsNumeric) :
    0 < mode.digitCount := by
  rcases hmode with rfl | rfl | rfl | (rfl | rfl | rfl) | rfl | rfl <;> decide

/-- The marks behind the digits. -/
def closing : AddressingMode → Text
  | zeroPageX | absoluteX => [',', 'x']
  | absoluteY => [',', 'y']
  | indirectX => [',', 'x', ')']
  | indirectY => [')', ',', 'y']
  | accumulator | implied | relative | immediate | zeroPage | absolute | zeroPageY | indirect => []

/-- The marks of a mode around as many digits as it takes. -/
def IsNumber (mode : AddressingMode) (text : Text) : Prop :=
  ∃ digits : Text,
    text = mode.opening ++ digits ++ mode.closing ∧
    digits.length = mode.digitCount ∧
    ∀ c ∈ digits, isDigit c = true

/-- A number of few enough digits, written between the marks of a mode. -/
theorem isNumber_padded
    {mode : AddressingMode} {number : Nat} (hcount : 0 < mode.digitCount)
    (hnumber : number < 16 ^ mode.digitCount) :
    mode.IsNumber (mode.opening ++ hexPadded mode.digitCount number ++ mode.closing) :=
  ⟨_, rfl, length_padded hcount hnumber, fun _ hc => isDigit_of_mem_padded hc⟩

end AddressingMode

namespace Operand

open AddressingMode Hexadecimal

/-! ## Addresses -/

theorem startsWithAddress_cons
    {count : Nat} {normal : Text} (hstart : startsWithAddress count normal = true) :
    ∃ rest,
      normal = '$' :: rest ∧
      (rest.take count).length = count ∧
      ∀ c ∈ rest.take count, isDigit c = true := by
  unfold startsWithAddress at hstart
  split at hstart
  next rest =>
      simp only [Bool.and_eq_true, List.all_eq_true, beq_iff_eq] at hstart
      exact ⟨rest, rfl, hstart.1, hstart.2⟩
  next => simp at hstart

theorem startsWithAddress_append
    {digits : Text} (hdigits : ∀ c ∈ digits, isDigit c = true) (rest : Text) :
    startsWithAddress digits.length ('$' :: digits ++ rest) = true := by
  simpa [startsWithAddress] using hdigits

/-- The text is a dollar sign, as many digits as the count, and the rest. -/
def HasAddress (count : Nat) (text rest : Text) : Prop :=
  ∃ digits : Text,
    text = '$' :: digits ++ rest ∧ digits.length = count ∧ ∀ c ∈ digits, isDigit c = true

theorem hasAddress_iff (count : Nat) (text rest : Text) :
    HasAddress count text rest ↔
      startsWithAddress count text = true ∧ text.drop (count + 1) = rest := by
  constructor
  · rintro ⟨digits, rfl, rfl, hdigits⟩
    exact ⟨startsWithAddress_append hdigits rest, by simp⟩
  · rintro ⟨hstart, rfl⟩
    obtain ⟨tail, rfl, hlength, hdigits⟩ := startsWithAddress_cons hstart
    exact ⟨tail.take count, by simp, hlength, hdigits⟩

theorem exists_hasAddress_iff (count : Nat) (text : Text) :
    (∃ rest, HasAddress count text rest) ↔ startsWithAddress count text = true := by
  simp [hasAddress_iff]

instance (count : Nat) (text rest : Text) : Decidable (HasAddress count text rest) :=
  decidable_of_iff _ (hasAddress_iff count text rest).symm

instance (count : Nat) (text : Text) : Decidable (∃ rest, HasAddress count text rest) :=
  decidable_of_iff _ (exists_hasAddress_iff count text).symm

/-! ## What has been looked at -/

/-- What the classification of a normal form has looked at. -/
structure IsClassified (normal : Text) (mode : AddressingMode) : Prop where
  implied : mode = .implied → normal = []
  accumulator : mode = .accumulator → normal = ['a']
  immediate : mode = .immediate → ['#', '$'] <+: normal
  zeroPage : mode = .zeroPage ∨ mode = .zeroPageX →
    startsWithAddress 2 normal = true ∧ normal.drop 3 = mode.closing
  absolute : mode.IsAbsolute → startsWithAddress 4 normal = true ∧ mode.closing <:+ normal
  pointer : mode.IsPointer → ['('] <+: normal ∧ mode.closing <:+ normal
  relative : mode = .relative → normal ≠ [] ∧ normal ≠ ['a'] ∧ normal.all isLabelChar = true
  written : mode ≠ .zeroPageY ∧ mode ≠ .indirect

theorem isClassified_of_modeOfNormal
    {normal : Text} {mode : AddressingMode} (hmode : modeOfNormal normal = .ok mode) :
    IsClassified normal mode := by
  revert hmode
  fun_cases modeOfNormal normal <;> rintro ⟨⟩ <;> constructor <;>
    simp_all [IsAbsolute, IsPointer, closing]

/-! ## What decides the mode -/

variable {normal : Text} {mode : AddressingMode}

theorem modeOfNormal_of_zeroPage
    (hmode : mode = .zeroPage ∨ mode = .zeroPageX) (haddress : HasAddress 2 normal mode.closing) :
    modeOfNormal normal = .ok mode := by
  obtain ⟨digits, rfl, hlength, hdigits⟩ := haddress
  obtain ⟨first, second, rfl⟩ := List.length_eq_two.mp hlength
  have hcomma : isDigit ',' = false := by decide
  rcases hmode with rfl | rfl <;>
    simp_all [modeOfNormal, startsWithAddress, closing]

theorem modeOfNormal_of_hasAddress (hstart : ∃ rest, HasAddress 4 normal rest) :
    modeOfNormal normal =
      if [',', 'x'] <:+ normal then .ok .absoluteX
      else if [',', 'y'] <:+ normal then .ok .absoluteY
      else .ok .absolute := by
  obtain ⟨rest, digits, rfl, hlength, hdigits⟩ := hstart
  have haddress : startsWithAddress 4 ('$' :: digits ++ rest) = true :=
    hlength ▸ startsWithAddress_append hdigits rest
  simp_all [modeOfNormal]

theorem modeOfNormal_of_isAbsolute
    (hmode : mode.IsAbsolute) (hstart : ∃ rest, HasAddress 4 normal rest)
    (hclosing : mode.closing <:+ normal)
    (hopen : mode = .absolute → ¬[',', 'x'] <:+ normal ∧ ¬[',', 'y'] <:+ normal) :
    modeOfNormal normal = .ok mode := by
  rw [modeOfNormal_of_hasAddress hstart]
  rcases hmode with rfl | rfl | rfl
  · rw [if_neg (hopen rfl).1, if_neg (hopen rfl).2]
  · exact if_pos hclosing
  · -- The endings of the two indexed modes have the same length.
    have hother : ¬[',', 'x'] <:+ normal := fun hx =>
      absurd (List.suffix_of_suffix_length_le hx hclosing le_rfl) (by decide)
    rw [if_neg hother]
    exact if_pos hclosing

theorem modeOfNormal_of_isPointer
    (hmode : mode.IsPointer) (hopening : ['('] <+: normal) (hclosing : mode.closing <:+ normal) :
    modeOfNormal normal = .ok mode := by
  obtain ⟨rest, rfl⟩ := hopening
  rcases hmode with rfl | rfl
  · simp_all [modeOfNormal, closing]
  · have hother : ¬[',', 'x', ')'] <:+ ['('] ++ rest := fun hx =>
      absurd (List.suffix_of_suffix_length_le hx hclosing le_rfl) (by decide)
    simp_all [modeOfNormal, closing]

end Operand

namespace AddressingMode

open Hexadecimal Operand

variable {mode : AddressingMode} {text : Text}

theorem IsNumber.hasAddress (htext : mode.IsNumber text) (hopening : mode.opening = ['$']) :
    HasAddress mode.digitCount text mode.closing := by
  obtain ⟨digits, rfl, hlength, hdigits⟩ := htext
  rw [hopening]
  exact ⟨digits, rfl, hlength, hdigits⟩

/-- A number that is written in a mode is classified as this mode. -/
theorem IsNumber.modeOfNormal_eq
    (hnumeric : mode.IsNumeric) (htext : mode.IsNumber text) :
    modeOfNormal text = .ok mode := by
  rcases hnumeric with rfl | rfl | rfl | habsolute | hpointer
  · obtain ⟨digits, rfl, -⟩ := htext
    simp [opening, closing, modeOfNormal]
  · exact modeOfNormal_of_zeroPage (.inl rfl) (htext.hasAddress rfl)
  · exact modeOfNormal_of_zeroPage (.inr rfl) (htext.hasAddress rfl)
  · have hmarks : mode.opening = ['$'] ∧ mode.digitCount = 4 := by
      rcases habsolute with rfl | rfl | rfl <;> exact ⟨rfl, rfl⟩
    have haddress := htext.hasAddress hmarks.1
    rw [hmarks.2] at haddress
    obtain ⟨digits, rfl, -, hdigits⟩ := htext
    refine modeOfNormal_of_isAbsolute habsolute ⟨_, haddress⟩ ⟨_, rfl⟩ ?_
    rintro rfl
    -- Without closing marks the text ends with a digit.
    have hchars : ∀ c ∈ absolute.opening ++ digits ++ absolute.closing, c = '$' ∨ isDigit c := by
      simpa [opening, closing] using fun c hc => .inr (hdigits c hc)
    constructor
    · exact fun hx => absurd (hchars 'x' (hx.subset (by simp))) (by decide)
    · exact fun hy => absurd (hchars 'y' (hy.subset (by simp))) (by decide)
  · obtain ⟨digits, rfl, -⟩ := htext
    refine modeOfNormal_of_isPointer hpointer ?_ ⟨_, rfl⟩
    rcases hpointer with rfl | rfl <;> exact ⟨_, rfl⟩

end AddressingMode

end Assembler6502
