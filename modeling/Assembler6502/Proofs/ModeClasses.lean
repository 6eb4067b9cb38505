import Assembler6502.Proofs.FailedPasses
import Assembler6502.Proofs.OperandSyntax

/-!
# The classes of operands

Every addressing mode with a written form has a class of normal forms, given by how they start and
end and without regard to the other modes. The classes are disjoint, except that the letter of the
accumulator is also the name of a label. So the classification is the class, the order of its tests
matters for that letter only, and an operand is rejected exactly if its normal form is in no class.
Normal forms are their own normal forms, and so have the same mode as the operands they come from.
-/

namespace Assembler6502

open Text

/-! ## The classes -/

namespace AddressingMode

open Operand

/-- The class of normal forms of a mode. -/
def Admits (mode : AddressingMode) (normal : Text) : Prop :=
  match mode with
  | implied => normal = []
  | immediate => ['#', '$'] <+: normal
  | accumulator => normal = ['a']
  | indirectX => ['('] <+: normal ∧ [',', 'x', ')'] <:+ normal
  | indirectY => ['('] <+: normal ∧ [')', ',', 'y'] <:+ normal
  | absoluteX => (∃ rest, HasAddress 4 normal rest) ∧ [',', 'x'] <:+ normal
  | absoluteY => (∃ rest, HasAddress 4 normal rest) ∧ [',', 'y'] <:+ normal
  | absolute =>
    (∃ rest, HasAddress 4 normal rest) ∧ ¬[',', 'x'] <:+ normal ∧ ¬[',', 'y'] <:+ normal
  | zeroPage => HasAddress 2 normal []
  | zeroPageX => HasAddress 2 normal [',', 'x']
  | relative => normal ≠ [] ∧ ∀ c ∈ normal, c.isDigit = true ∨ c.isLower = true ∨ c = '_'
  | zeroPageY | indirect => False

instance (mode : AddressingMode) (normal : Text) : Decidable (mode.Admits normal) :=
  match mode with
  | implied => inferInstanceAs (Decidable (normal = []))
  | immediate => inferInstanceAs (Decidable (['#', '$'] <+: normal))
  | accumulator => inferInstanceAs (Decidable (normal = ['a']))
  | zeroPage | zeroPageX => inferInstanceAs (Decidable (HasAddress 2 normal _))
  | indirectX | indirectY | absoluteX | absoluteY | absolute =>
    inferInstanceAs (Decidable (_ ∧ _))
  | relative => @instDecidableAnd _ _ inferInstance (List.decidableBAll _ normal)
  | zeroPageY | indirect => inferInstanceAs (Decidable False)

variable {mode : AddressingMode} {normal : Text}

/-- The members of a class are classified by it, except for the letter that is in two classes. -/
theorem Admits.modeOfNormal_eq (hmode : mode.Admits normal) (hletter : normal ≠ ['a']) :
    modeOfNormal normal = .ok mode := by
  cases mode with
  | implied =>
      obtain rfl : normal = [] := hmode
      rfl
  | immediate =>
      obtain ⟨rest, rfl⟩ := hmode
      simp [modeOfNormal]
  | accumulator => exact absurd hmode hletter
  | indirectX => exact modeOfNormal_of_isPointer (.inl rfl) hmode.1 hmode.2
  | indirectY => exact modeOfNormal_of_isPointer (.inr rfl) hmode.1 hmode.2
  | absoluteX => exact modeOfNormal_of_isAbsolute (.inr (.inl rfl)) hmode.1 hmode.2 (by simp)
  | absoluteY => exact modeOfNormal_of_isAbsolute (.inr (.inr rfl)) hmode.1 hmode.2 (by simp)
  | absolute =>
      exact modeOfNormal_of_isAbsolute (.inl rfl) hmode.1 (List.nil_suffix) fun _ => hmode.2
  | zeroPage => exact modeOfNormal_of_zeroPage (.inl rfl) hmode
  | zeroPageX => exact modeOfNormal_of_zeroPage (.inr rfl) hmode
  | relative => exact modeOfNormal_label ⟨hmode.1, hmode.2, hletter⟩
  | zeroPageY | indirect => exact hmode.elim

theorem admits_of_modeOfNormal
    (hlower : ∀ c ∈ normal, c.toLower = c) (hmode : modeOfNormal normal = .ok mode) :
    mode.Admits normal := by
  have hclass := isClassified_of_modeOfNormal hmode
  have haddress (habsolute : mode.IsAbsolute) : ∃ rest, HasAddress 4 normal rest :=
    (exists_hasAddress_iff 4 normal).mpr (hclass.absolute habsolute).1
  cases mode with
  | implied => exact hclass.implied rfl
  | immediate => exact hclass.immediate rfl
  | accumulator => exact hclass.accumulator rfl
  | indirectX => exact hclass.pointer (.inl rfl)
  | indirectY => exact hclass.pointer (.inr rfl)
  | absoluteX => exact ⟨haddress (.inr (.inl rfl)), (hclass.absolute (.inr (.inl rfl))).2⟩
  | absoluteY => exact ⟨haddress (.inr (.inr rfl)), (hclass.absolute (.inr (.inr rfl))).2⟩
  | absolute =>
      have hstart := haddress (.inl rfl)
      refine ⟨hstart, ?_⟩
      rw [modeOfNormal_of_hasAddress hstart] at hmode
      split at hmode
      next => cases hmode
      next hx =>
          split at hmode
          next => cases hmode
          next hy => exact ⟨hx, hy⟩
  | zeroPage => exact (hasAddress_iff 2 normal _).mpr (hclass.zeroPage (.inl rfl))
  | zeroPageX => exact (hasAddress_iff 2 normal _).mpr (hclass.zeroPage (.inr rfl))
  | relative =>
      have hname := isLabelName_of_modeOfNormal hlower hmode
      exact ⟨hname.nonempty, hname.chars⟩
  | zeroPageY => exact absurd rfl hclass.written.1
  | indirect => exact absurd rfl hclass.written.2

/-- The letter of the accumulator is in its own class and in that of labels. -/
theorem admits_letter_iff : mode.Admits ['a'] ↔ mode = .accumulator ∨ mode = .relative := by
  cases mode <;> decide

theorem Admits.eq_or {other : AddressingMode}
    (hmode : mode.Admits normal) (hother : other.Admits normal) :
    mode = other ∨ normal = ['a'] := by
  by_cases hletter : normal = ['a']
  · exact .inr hletter
  · exact .inl (Except.ok.inj
      ((hmode.modeOfNormal_eq hletter).symm.trans (hother.modeOfNormal_eq hletter)))

end AddressingMode

/-! ## Normal forms -/

namespace Operand

open AddressingMode

theorem mem_lower_of_mem_normalize {operand : Text} {c : Char} (hc : c ∈ normalize operand) :
    c ∈ operand.lower := by
  obtain ⟨left, right, htext, -⟩ := exists_margins isBlank operand.lower
  rw [htext, List.append_assoc]
  exact List.mem_append_right _ (List.mem_append_left _ (List.mem_of_mem_filter hc))

/-- No letter of a lower-case text has another lower-case form, and leaving out the spaces inside a
trimmed text lets no blank come to its ends. -/
theorem normalize_normalize (operand : Text) :
    normalize (normalize operand) = normalize operand := by
  have hlower : (normalize operand).lower = normalize operand :=
    lowerAfter_of_isSettled
      (fun c hc => isSettled_of_mem_lower (mem_lower_of_mem_normalize hc)) false
  have htrimmed : IsTrimmedBy isBlank (normalize operand) :=
    (isTrimmedBy_trim operand.lower).spaceless
  rw [normalize_of_isTrimmedBy htrimmed, hlower, spaceless_eq_self]
  exact fun hspace => absurd (List.of_mem_filter hspace) (by decide)

/-! ## The classification -/

variable {operand : Text}

theorem admits_of_mode {mode : AddressingMode} (hmode : Operand.mode (some operand) = .ok mode) :
    mode.Admits (normalize operand) :=
  admits_of_modeOfNormal
    (fun _ hc => toLower_eq_of_mem_lower (mem_lower_of_mem_normalize hc)) hmode

theorem mode_of_letter (hletter : normalize operand = ['a']) :
    mode (some operand) = .ok .accumulator :=
  congrArg modeOfNormal hletter

theorem mode_eq_ok_iff {mode : AddressingMode} :
    Operand.mode (some operand) = .ok mode ↔
      mode.Admits (normalize operand) ∧ (normalize operand = ['a'] → mode = .accumulator) := by
  constructor
  · intro hmode
    refine ⟨admits_of_mode hmode, ?_⟩
    intro hletter
    exact Except.ok.inj (hmode.symm.trans (mode_of_letter hletter))
  · rintro ⟨hmode, hletter⟩
    by_cases hnormal : normalize operand = ['a']
    · rw [hletter hnormal, mode_of_letter hnormal]
    · exact hmode.modeOfNormal_eq hnormal

theorem mode_eq_error_iff {problem : Problem} :
    mode (some operand) = .error problem ↔
      problem = .operandForm ∧ ∀ mode : AddressingMode, ¬mode.Admits (normalize operand) := by
  constructor
  · intro herror
    refine ⟨mode_eq_error herror, ?_⟩
    intro mode hmode
    by_cases hnormal : normalize operand = ['a']
    · exact absurd (herror.symm.trans (mode_of_letter hnormal)) (by simp)
    · exact absurd (herror.symm.trans (hmode.modeOfNormal_eq hnormal)) (by simp)
  · rintro ⟨rfl, hnone⟩
    cases hresult : mode (some operand) with
    | ok mode => exact absurd (admits_of_mode hresult) (hnone mode)
    | error problem => rw [mode_eq_error hresult]

/-- The first mode of the list whose class has the normal form. -/
def firstAdmitting (order : List AddressingMode) (normal : Text) : Except Problem AddressingMode :=
  match order.find? (fun mode => decide (mode.Admits normal)) with
  | some mode => .ok mode
  | none => .error .operandForm

/-- Every mode with a written form is in the list. -/
def IsOrder (order : List AddressingMode) : Prop :=
  ∀ mode, mode ≠ .zeroPageY → mode ≠ .indirect → mode ∈ order

theorem IsOrder.mem {order : List AddressingMode} (horder : IsOrder order)
    {mode : AddressingMode} {normal : Text} (hmode : mode.Admits normal) : mode ∈ order := by
  apply horder
  · rintro rfl
    exact hmode
  · rintro rfl
    exact hmode

theorem firstAdmitting_eq
    {order : List AddressingMode} (horder : IsOrder order) (hletter : normalize operand ≠ ['a']) :
    firstAdmitting order (normalize operand) = mode (some operand) := by
  unfold firstAdmitting
  split
  next mode hfirst =>
      have hmode : mode.Admits (normalize operand) := by simpa using List.find?_some hfirst
      exact (hmode.modeOfNormal_eq hletter).symm
  next hnone =>
      refine (mode_eq_error_iff.mpr ⟨rfl, ?_⟩).symm
      intro mode hmode
      have hmiss := List.find?_eq_none.mp hnone mode (horder.mem hmode)
      exact hmiss (decide_eq_true hmode)

/-- Labels first, the letter of the accumulator would be one. -/
theorem isOrder_relative_cons_all : IsOrder (.relative :: AddressingMode.all) := by
  intro mode _ _
  cases mode <;> decide

/-- The mode of an operand is the one whose class has its normal form. There is at most one, except
that the letter of the accumulator is also in the class of labels, and the operand is rejected
exactly if there is none. The normal form has the mode of the operand. Whatever the order in which
the classes are tried, the first one is that of the mode, except for that letter. -/
theorem mode_partition (operand : Text) :
    (∀ first second : AddressingMode,
      first.Admits (normalize operand) → second.Admits (normalize operand) →
        first = second ∨ normalize operand = ['a']) ∧
    (∀ mode : AddressingMode, mode.Admits ['a'] ↔ mode = .accumulator ∨ mode = .relative) ∧
    (∀ mode : AddressingMode,
      Operand.mode (some operand) = .ok mode ↔
        mode.Admits (normalize operand) ∧ (normalize operand = ['a'] → mode = .accumulator)) ∧
    (∀ problem : Problem,
      mode (some operand) = .error problem ↔
        problem = .operandForm ∧ ∀ mode : AddressingMode, ¬mode.Admits (normalize operand)) ∧
    mode (some (normalize operand)) = mode (some operand) ∧
    ((∀ order : List AddressingMode,
        IsOrder order → firstAdmitting order (normalize operand) = mode (some operand)) ↔
      normalize operand ≠ ['a']) := by
  refine ⟨fun _ _ => Admits.eq_or, fun _ => admits_letter_iff, fun _ => mode_eq_ok_iff,
    fun _ => mode_eq_error_iff, congrArg modeOfNormal (normalize_normalize operand), ?_, ?_⟩
  · intro horders hletter
    have hfirst := horders _ isOrder_relative_cons_all
    rw [mode_of_letter hletter, hletter] at hfirst
    exact absurd (Except.ok.inj hfirst) (by decide)
  · exact fun hletter _ horder => firstAdmitting_eq horder hletter

end Operand

end Assembler6502
