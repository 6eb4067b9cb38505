import Assembler6502.Proofs.Classification
import Assembler6502.Proofs.Program.Rendering

/-!
# Reading written operands

Every written form of an operand is classified as the mode it was written for, and its bytes are
read back. Classification sees the form without spaces. The bytes are cut out of the form with its
spaces, and come out the same, because no form has a space before its last digit.
-/

namespace Assembler6502

open Text

/-! ## Plain characters -/

/-- Visible ASCII characters in lower case, without the marks of labels and comments. -/
def isPlain (c : Char) : Bool :=
  0x20 < c.toNat && c.toNat < 0x7f && c.toNat != 0x3a && c.toNat != 0x3b &&
    !(0x41 ≤ c.toNat && c.toNat ≤ 0x5a)

theorem isPlain_iff (c : Char) :
    isPlain c = true ↔
      0x20 < c.toNat ∧ c.toNat < 0x7f ∧ c.toNat ≠ 0x3a ∧ c.toNat ≠ 0x3b ∧
        ¬(0x41 ≤ c.toNat ∧ c.toNat ≤ 0x5a) := by
  simp only [isPlain, Bool.and_eq_true, Bool.not_eq_true', Bool.and_eq_false_iff,
    decide_eq_true_eq, decide_eq_false_iff_not, bne_iff_ne]
  omega

theorem isBlank_of_isPlain {c : Char} (hc : isPlain c = true) :
    isBlank c = false := by
  rw [isPlain_iff] at hc
  simp only [isBlank, Bool.or_eq_false_iff, Bool.and_eq_false_iff,
    decide_eq_false_iff_not, beq_eq_false_iff_ne]
  omega

theorem toLower_of_isPlain {c : Char} (hc : isPlain c = true) :
    c.toLower = c := by
  unfold Char.toLower
  rw [dif_neg]
  intro hupper
  rw [isPlain_iff] at hc
  simp only [ge_iff_le, UInt32.le_iff_toNat_le] at hupper
  exact hc.2.2.2.2 hupper

theorem ne_of_isPlain {c d : Char} (hc : isPlain c = true) (hd : isPlain d = false) :
    c ≠ d := by
  rintro rfl
  rw [hd] at hc
  exact absurd hc (by decide)

theorem isPlain_of_labelChar {c : Char}
    (hc : c.isDigit = true ∨ c.isLower = true ∨ c = '_') :
    isPlain c = true := by
  rw [isPlain_iff]
  rcases hc with hdigit | hlower | rfl
  · simp only [Char.isDigit, Bool.and_eq_true, decide_eq_true_eq, ge_iff_le,
      UInt32.le_iff_toNat_le] at hdigit
    change 0x30 ≤ c.toNat ∧ c.toNat ≤ 0x39 at hdigit
    omega
  · change (decide ('a'.val ≤ c.val) && decide (c.val ≤ 'z'.val)) = true at hlower
    simp only [Bool.and_eq_true, decide_eq_true_eq, UInt32.le_iff_toNat_le] at hlower
    change 0x61 ≤ c.toNat ∧ c.toNat ≤ 0x7a at hlower
    omega
  · decide

theorem isPlain_of_mem_padded
    {width number : Nat} {c : Char} (hc : c ∈ hexPadded width number) :
    isPlain c = true := by
  obtain ⟨digit, hdigit, rfl⟩ := Hexadecimal.exists_digitChar_of_mem_padded hc
  interval_cases digit <;> decide

theorem isPlain_of_mem_mnemonic
    {mnemonic : Mnemonic} {c : Char} (hc : c ∈ mnemonic.name) :
    isPlain c = true := by
  have hall : mnemonic.name.all isPlain = true := by cases mnemonic <;> decide
  exact List.all_eq_true.mp hall c hc

/-! ## Phrases -/

/-- A text of plain characters and spaces that starts and ends with a plain one. -/
structure IsPhrase (text : Text) : Prop where
  nonempty : text ≠ []
  chars : ∀ c ∈ text, isPlain c = true ∨ c = ' '
  trimmed : IsTrimmedBy isBlank text

theorem IsPhrase.of_isPlain
    {text : Text} (hsome : text ≠ []) (hplain : ∀ c ∈ text, isPlain c = true) :
    IsPhrase text := by
  refine ⟨hsome, fun c hc => Or.inl (hplain c hc), ?_⟩
  exact IsTrimmedBy.of_forall fun c hc => isBlank_of_isPlain (hplain c hc)

theorem IsPhrase.append
    {first middle second : Text}
    (hfirst : IsPhrase first)
    (hmiddle : ∀ c ∈ middle, isPlain c = true ∨ c = ' ')
    (hsecond : IsPhrase second) :
    IsPhrase (first ++ middle ++ second) := by
  refine ⟨by simp [hfirst.nonempty], ?_, ?_⟩
  · have hleft := List.forall_mem_append.mpr ⟨hfirst.chars, hmiddle⟩
    exact List.forall_mem_append.mpr ⟨hleft, hsecond.chars⟩
  · exact hfirst.trimmed.append hsecond.trimmed hfirst.nonempty hsecond.nonempty

theorem IsPhrase.trim_eq {text : Text} (htext : IsPhrase text) :
    text.trim = text :=
  htext.trimmed.trimBy_eq

theorem IsPhrase.not_mem
    {text : Text} (htext : IsPhrase text) {c : Char}
    (hplain : isPlain c = false) (hspace : c ≠ ' ') :
    c ∉ text := by
  intro hmem
  rcases htext.chars c hmem with hc | hc
  · exact ne_of_isPlain hc hplain rfl
  · exact hspace hc

theorem IsPhrase.map_toLower {text : Text} (htext : IsPhrase text) :
    text.map Char.toLower = text := by
  rw [List.map_congr_left (g := id), List.map_id]
  intro c hc
  rcases htext.chars c hc with hplain | rfl
  · exact toLower_of_isPlain hplain
  · rfl

theorem IsPhrase.ascii {text : Text} (htext : IsPhrase text) :
    ∀ c ∈ text, c.toNat < 0x80 := by
  intro c hc
  rcases htext.chars c hc with hplain | rfl
  · rw [isPlain_iff] at hplain
    omega
  · decide

/-- In normal form a phrase only loses its spaces. -/
theorem IsPhrase.normalize_eq {text : Text} (htext : IsPhrase text) :
    Operand.normalize text = text.spaceless := by
  rw [Operand.normalize, lower_ascii htext.ascii, htext.map_toLower, htext.trim_eq, spaceless]

theorem spaceless_of_isPlain
    {text : Text} (hplain : ∀ c ∈ text, isPlain c = true) :
    text.spaceless = text :=
  spaceless_eq_self fun hspace => ne_of_isPlain (hplain ' ' hspace) (by decide) rfl

theorem spaceless_comma {comma : Text} (hcomma : IsComma comma) :
    comma.spaceless = [','] := by
  obtain ⟨left, right, hleft, hright, rfl⟩ := hcomma
  have hnone : ∀ gap, IsSpaces gap → spaceless gap = [] := by
    intro gap hgap
    rw [spaceless, List.filter_eq_nil_iff]
    intro c hc
    simp [hgap c hc]
  rw [spaceless_append, spaceless_cons_of_ne (by decide), hnone left hleft, hnone right hright]
  rfl

theorem comma_chars {comma : Text} (hcomma : IsComma comma) :
    ∀ c ∈ comma, isPlain c = true ∨ c = ' ' := by
  obtain ⟨left, right, hleft, hright, rfl⟩ := hcomma
  intro c hc
  rcases List.mem_append.mp hc with hmem | hmem
  · exact Or.inr (hleft c hmem)
  · rcases List.mem_cons.mp hmem with rfl | hmem
    · exact Or.inl (by decide)
    · exact Or.inr (hright c hmem)

/-! ## Written operands are phrases -/

theorem isPlain_of_marked
    {marks : Text} {width number : Nat}
    (hmarks : ∀ c ∈ marks, isPlain c = true) :
    ∀ c ∈ marks ++ hexPadded width number, isPlain c = true :=
  List.forall_mem_append.mpr ⟨hmarks, fun _ hc => isPlain_of_mem_padded hc⟩

/-- Targets of branches are names of labels. -/
def Argument.IsNamed (argument : Argument) : Prop :=
  ∀ target, argument = .relative target → IsLabelName target

theorem IsPhrase.of_marked
    {marks : Text} (width number : Nat) (hsome : marks ≠ [])
    (hmarks : ∀ c ∈ marks, isPlain c = true) :
    IsPhrase (marks ++ hexPadded width number) :=
  IsPhrase.of_isPlain (by simp [hsome]) (isPlain_of_marked hmarks)

theorem IsPhrase.of_mark {mark : Char} (hmark : isPlain mark = true) :
    IsPhrase [mark] :=
  IsPhrase.of_isPlain (by simp) (by simpa using hmark)

theorem IsPhrase.of_dollar (width number : Nat) :
    IsPhrase ('$' :: hexPadded width number) :=
  IsPhrase.of_marked width number (show ['$'] ≠ [] by decide) (forall_mem_of_all rfl)

theorem IsPhrase.of_labelName {name : Text} (hname : IsLabelName name) :
    IsPhrase name :=
  IsPhrase.of_isPlain hname.nonempty fun c hc => isPlain_of_labelChar (hname.chars c hc)

theorem Argument.Written.isPhrase
    {argument : Argument} {text : Text}
    (hwritten : argument.Written text) (hnamed : argument.IsNamed) :
    IsPhrase text := by
  have hparenthesis : ∀ number, IsPhrase ('(' :: '$' :: hexPadded 2 number) :=
    fun number => IsPhrase.of_marked 2 number
      (show ['(', '$'] ≠ [] by decide) (forall_mem_of_all rfl)
  have hx : IsPhrase ['x'] := IsPhrase.of_mark (by decide)
  have hy : IsPhrase ['y'] := IsPhrase.of_mark (by decide)
  cases hwritten with
  | accumulator => exact IsPhrase.of_mark (by decide)
  | relative => exact IsPhrase.of_labelName (hnamed text rfl)
  | immediate byte =>
      exact IsPhrase.of_marked 2 byte (show ['#', '$'] ≠ [] by decide)
        (forall_mem_of_all rfl)
  | zeroPage address => exact IsPhrase.of_dollar 2 address
  | zeroPageX address hcomma =>
      exact (IsPhrase.of_dollar 2 address).append (comma_chars hcomma) hx
  | absolute address => exact IsPhrase.of_dollar 4 address
  | absoluteX address hcomma =>
      exact (IsPhrase.of_dollar 4 address).append (comma_chars hcomma) hx
  | absoluteY address hcomma =>
      exact (IsPhrase.of_dollar 4 address).append (comma_chars hcomma) hy
  | indirectX address hcomma =>
      exact (hparenthesis address).append (comma_chars hcomma)
        (IsPhrase.of_isPlain (by decide) (forall_mem_of_all rfl))
  | indirectY address hcomma =>
      have hclosed : IsPhrase ('(' :: '$' :: hexPadded 2 address ++ [] ++ [')']) :=
        (hparenthesis address).append (by simp) (IsPhrase.of_mark (by decide))
      rw [List.append_nil] at hclosed
      exact hclosed.append (comma_chars hcomma) hy

/-! ## Modes -/

theorem isLabelChar_of_labelChar {c : Char}
    (hc : c.isDigit = true ∨ c.isLower = true ∨ c = '_') :
    Operand.isLabelChar c = true := by
  have hclasses : Operand.isLabelChar c =
      (c.isUpper || c.isLower || c.isDigit || c == '_') := rfl
  rw [hclasses]
  rcases hc with hdigit | hlower | rfl
  · simp [hdigit]
  · simp [hlower]
  · rfl

theorem modeOfNormal_label {name : Text} (hname : IsLabelName name) :
    Operand.modeOfNormal name = .ok .relative := by
  have hall : name.all Operand.isLabelChar = true := by
    rw [List.all_eq_true]
    exact fun c hc => isLabelChar_of_labelChar (hname.chars c hc)
  obtain ⟨c, rest, rfl⟩ := List.exists_cons_of_ne_nil hname.nonempty
  have hc : Operand.isLabelChar c = true := List.all_eq_true.mp hall c (by simp)
  have hne : ∀ {mark : Char}, Operand.isLabelChar mark = false → mark ≠ c := by
    rintro mark hmark rfl
    rw [hc] at hmark
    exact absurd hmark (by decide)
  have hdollar : ∀ count, Operand.startsWithAddress count (c :: rest) = false := by
    intro count
    unfold Operand.startsWithAddress
    split
    next hcons =>
        rw [List.cons.injEq] at hcons
        exact absurd hcons.1.symm (hne (by decide))
    next => rfl
  simp [Operand.modeOfNormal, hname.notAccumulator, hdollar, hall,
    (hne (show Operand.isLabelChar '#' = false by decide)),
    (hne (show Operand.isLabelChar '(' = false by decide))]

theorem spaceless_marked
    {marks : Text} (width number : Nat)
    (hmarks : ∀ c ∈ marks, isPlain c = true) :
    (marks ++ hexPadded width number).spaceless = marks ++ hexPadded width number :=
  spaceless_of_isPlain (isPlain_of_marked hmarks)

/-- A written number is a number of its mode with spaces in it. -/
theorem Argument.Written.spaceless_eq
    {argument : Argument} {text : Text}
    (hwritten : argument.Written text) (hnumeric : argument.mode.IsNumeric) :
    ∃ number < 16 ^ argument.mode.digitCount,
      text.spaceless =
        argument.mode.opening ++ hexPadded argument.mode.digitCount number ++
          argument.mode.closing := by
  have hdollar : ∀ width number,
      spaceless ('$' :: hexPadded width number) = '$' :: hexPadded width number :=
    fun width number => spaceless_marked width number
      (show ∀ c ∈ ['$'], _ from forall_mem_of_all rfl)
  have hparenthesis : ∀ number,
      spaceless ('(' :: '$' :: hexPadded 2 number) = '(' :: '$' :: hexPadded 2 number :=
    fun number => spaceless_marked 2 number
      (show ∀ c ∈ ['(', '$'], _ from forall_mem_of_all rfl)
  cases hwritten with
  | accumulator | relative =>
      simp [Argument.mode, AddressingMode.IsNumeric, AddressingMode.IsAbsolute,
        AddressingMode.IsPointer] at hnumeric
  | immediate byte =>
      refine ⟨byte, byte.isLt, ?_⟩
      exact (spaceless_marked 2 byte (show ∀ c ∈ ['#', '$'], _ from forall_mem_of_all rfl)).trans
        (List.append_nil _).symm
  | zeroPage address =>
      exact ⟨address, address.isLt, (hdollar 2 address).trans (List.append_nil _).symm⟩
  | zeroPageX address hcomma =>
      refine ⟨address, address.isLt, ?_⟩
      rw [spaceless_append, spaceless_append, hdollar, spaceless_comma hcomma, List.append_assoc]
      rfl
  | absolute address =>
      exact ⟨address, address.isLt, (hdollar 4 address).trans (List.append_nil _).symm⟩
  | absoluteX address hcomma | absoluteY address hcomma =>
      refine ⟨address, address.isLt, ?_⟩
      rw [spaceless_append, spaceless_append, hdollar, spaceless_comma hcomma, List.append_assoc]
      rfl
  | indirectX address hcomma =>
      refine ⟨address, address.isLt, ?_⟩
      rw [spaceless_append, spaceless_append, hparenthesis, spaceless_comma hcomma,
        List.append_assoc]
      rfl
  | indirectY address hcomma =>
      refine ⟨address, address.isLt, ?_⟩
      rw [spaceless_append, spaceless_append, spaceless_append, hparenthesis,
        spaceless_comma hcomma, List.append_assoc, List.append_assoc]
      rfl

/-- A written operand is classified as the mode it was written for. -/
theorem Argument.Written.mode_eq
    {argument : Argument} {text : Text}
    (hwritten : argument.Written text) (hnamed : argument.IsNamed) :
    Operand.mode (some text) = .ok argument.mode := by
  rw [Operand.mode, Option.getD_some, (hwritten.isPhrase hnamed).normalize_eq]
  by_cases hnumeric : argument.mode.IsNumeric
  · obtain ⟨number, hnumber, hspaceless⟩ := hwritten.spaceless_eq hnumeric
    rw [hspaceless]
    exact (AddressingMode.isNumber_padded hnumeric.digitCount_pos hnumber).modeOfNormal_eq hnumeric
  · cases hwritten with
    | accumulator => rfl
    | relative =>
        have hname := hnamed text rfl
        rw [spaceless_of_isPlain fun c hc => isPlain_of_labelChar (hname.chars c hc)]
        exact modeOfNormal_label hname
    | _ =>
        simp [Argument.mode, AddressingMode.IsNumeric, AddressingMode.IsAbsolute,
          AddressingMode.IsPointer] at hnumeric

/-! ## Bytes -/

/-- The object code behind the opcode. -/
def Argument.entries : Argument → List Entry
  | accumulator | implied => []
  | immediate byte => [.value byte.val]
  | zeroPage address | zeroPageX address | indirectX address | indirectY address =>
      [.value address.val]
  | absolute address | absoluteX address | absoluteY address =>
      [.value (address.val % 0x100 : Nat), .value (address.val / 0x100 : Nat)]
  | relative target => [.label target]

theorem readNumeral_padded (width number : Nat) :
    Operand.readNumeral (hexPadded width number) = .ok (number : Int) := by
  rw [Operand.readNumeral, Hexadecimal.read?_padded]

theorem trimmedValue_marked
    (marks : Text) (hmarks : ∀ c ∈ marks, Hexadecimal.isDigit c = false)
    (width number : Nat) :
    Operand.trimmedValue marks (some (marks ++ hexPadded width number)) =
      .ok (some (.value number)) := by
  have htrimmed : (marks ++ hexPadded width number).trimBy marks.contains =
      hexPadded width number := by
    rw [trimBy_append_left (by simp)]
    apply IsTrimmedBy.trimBy_eq
    apply IsTrimmedBy.of_forall
    intro c hc
    have hdigit := Hexadecimal.isDigit_of_mem_padded hc
    rw [← Bool.not_eq_true, List.contains_iff_mem]
    intro hmem
    rw [hmarks c hmem] at hdigit
    exact absurd hdigit (by decide)
  rw [Operand.trimmedValue, htrimmed, readNumeral_padded]
  rfl

theorem slicedValue_padded
    (before after : Text) {number : Nat} (hnumber : number < 0x100) :
    Operand.slicedValue before.length (before.length + 2)
        (some (before ++ hexPadded 2 number ++ after)) =
      .ok (some (.value number)) := by
  have hlength : (hexPadded 2 number).length = 2 :=
    Hexadecimal.length_padded (by decide) hnumber
  have hslice := slice_append before (hexPadded 2 number) after
  rw [hlength] at hslice
  rw [Operand.slicedValue, hslice, readNumeral_padded]
  rfl

/-- The upper byte of an address is its first two digits, and the lower byte the other two. -/
theorem slicedValue_address (after : Text) (address : Fin 0x10000) :
    Operand.slicedValue 3 5 (some ('$' :: hexPadded 4 address ++ after)) =
        .ok (some (.value (address.val % 0x100 : Nat))) ∧
      Operand.slicedValue 1 3 (some ('$' :: hexPadded 4 address ++ after)) =
        .ok (some (.value (address.val / 0x100 : Nat))) := by
  have hupper : address.val / 0x100 < 0x100 := by omega
  have hlength : ('$' :: hexPadded 2 (address.val / 0x100)).length = 3 := by
    rw [List.length_cons, Hexadecimal.length_padded (by decide) hupper]
  rw [Hexadecimal.padded_four]
  constructor
  · have hlower := slicedValue_padded ('$' :: hexPadded 2 (address.val / 0x100)) after
      (show address.val % 0x100 < 0x100 by omega)
    rw [hlength] at hlower
    simpa using hlower
  · have hread := slicedValue_padded ['$'] (hexPadded 2 (address.val % 0x100) ++ after) hupper
    simpa using hread

/-- The bytes of a written operand are read from where they stand. -/
theorem Argument.Written.read_entries
    {argument : Argument} {text : Text} (hwritten : argument.Written text) :
    ∃ low high,
      argument.mode.lowEntry (some text) = .ok low ∧
      argument.mode.highEntry (some text) = .ok high ∧
      low.toList ++ high.toList = argument.entries := by
  cases hwritten with
  | accumulator => exact ⟨none, none, rfl, rfl, rfl⟩
  | relative => exact ⟨some (.label text), none, rfl, rfl, rfl⟩
  | immediate byte =>
      exact ⟨_, none, trimmedValue_marked ['#', '$'] (forall_mem_of_all rfl) 2 byte,
        rfl, rfl⟩
  | zeroPage address =>
      exact ⟨_, none, trimmedValue_marked ['$'] (forall_mem_of_all rfl) 2 address,
        rfl, rfl⟩
  | @zeroPageX address comma hcomma =>
      have hread := slicedValue_padded ['$'] (comma ++ ['x']) address.isLt
      rw [← List.append_assoc] at hread
      exact ⟨_, none, hread, rfl, rfl⟩
  | absolute address =>
      have hread := slicedValue_address [] address
      rw [List.append_nil] at hread
      exact ⟨_, _, hread.1, hread.2, rfl⟩
  | @absoluteX address comma hcomma =>
      have hread := slicedValue_address (comma ++ ['x']) address
      rw [← List.append_assoc] at hread
      exact ⟨_, _, hread.1, hread.2, rfl⟩
  | @absoluteY address comma hcomma =>
      have hread := slicedValue_address (comma ++ ['y']) address
      rw [← List.append_assoc] at hread
      exact ⟨_, _, hread.1, hread.2, rfl⟩
  | @indirectX address comma hcomma =>
      have hread := slicedValue_padded ['(', '$'] (comma ++ ['x', ')']) address.isLt
      rw [← List.append_assoc] at hread
      exact ⟨_, none, hread, rfl, rfl⟩
  | @indirectY address comma hcomma =>
      have hread := slicedValue_padded ['(', '$'] ([')'] ++ comma ++ ['y']) address.isLt
      rw [← List.append_assoc, ← List.append_assoc] at hread
      exact ⟨_, none, hread, rfl, rfl⟩

end Assembler6502
