import Assembler6502.Numeral.Hexadecimal
import Assembler6502.Proofs.TextShape
import Assembler6502.Text.Quoted

/-!
# Numerals in base 16

Reading a plain run of digits gives the number they write, whatever their case, and reading what
was written gives back the number, with any number of zeros in front.
-/

namespace Assembler6502

namespace Hexadecimal

open Text

/-! ## Digits -/

theorem isDigit_iff (c : Char) :
    isDigit c = true ↔
      (0x30 ≤ c.toNat ∧ c.toNat ≤ 0x39) ∨
        (0x61 ≤ c.toNat ∧ c.toNat ≤ 0x66) ∨
        (0x41 ≤ c.toNat ∧ c.toNat ≤ 0x46) := by
  have hcode : ∀ d : Char, (d ≤ c ↔ d.toNat ≤ c.toNat) ∧ (c ≤ d ↔ c.toNat ≤ d.toNat) := by
    intro d
    exact ⟨Char.le_def.trans UInt32.le_iff_toNat_le,
      Char.le_def.trans UInt32.le_iff_toNat_le⟩
  unfold isDigit digit?
  simp only [(hcode _).1, (hcode _).2]
  change _ ↔ ('0'.toNat ≤ c.toNat ∧ c.toNat ≤ '9'.toNat) ∨
    ('a'.toNat ≤ c.toNat ∧ c.toNat ≤ 'f'.toNat) ∨
    ('A'.toNat ≤ c.toNat ∧ c.toNat ≤ 'F'.toNat)
  split_ifs <;> simp_all

theorem digit?_eq_some_of_isDigit {c : Char} (hc : isDigit c = true) :
    digit? c = some ((digit? c).getD 0) := by
  obtain ⟨digit, hdigit⟩ := Option.isSome_iff_exists.mp hc
  rw [hdigit]
  rfl

theorem isBlank_of_isDigit {c : Char} (hc : isDigit c = true) :
    Text.isBlank c = false := by
  rw [isDigit_iff] at hc
  simp only [Text.isBlank, Bool.or_eq_false_iff, Bool.and_eq_false_iff,
    decide_eq_false_iff_not, beq_eq_false_iff_ne]
  omega

theorem ne_of_isDigit {c mark : Char} (hc : isDigit c = true) (hmark : isDigit mark = false) :
    c ≠ mark := by
  rintro rfl
  rw [hc] at hmark
  exact absurd hmark (by decide)

theorem unifyDigit_of_isDigit {c : Char} (hc : isDigit c = true) :
    unifyDigit c = c := by
  have hascii : c.toNat < 0x80 := by
    rw [isDigit_iff] at hc
    omega
  unfold unifyDigit Text.decimalDigit?
  rw [if_pos hascii]
  by_cases hdecimal : c.isDigit = true
  · have hlow : 0x30 ≤ c.toNat := by
      simp only [Char.isDigit, Bool.and_eq_true, decide_eq_true_eq] at hdecimal
      exact UInt32.le_iff_toNat_le.mp hdecimal.1
    have hcode : 0x30 + (c.toNat - 0x30) = c.toNat := by omega
    simp only [hdecimal, if_true, hcode]
    exact Char.ofNat_toNat c
  · simp [hdecimal]

theorem map_unifyDigit_of_isDigit
    {text : Text} (hdigits : ∀ c ∈ text, isDigit c = true) : text.map unifyDigit = text := by
  rw [List.map_congr_left fun c hc => unifyDigit_of_isDigit (hdigits c hc)]
  exact List.map_id' text

/-- Digits that stand side by side. -/
structure IsGroup (group : Text) : Prop where
  nonempty : group ≠ []
  digits : ∀ c ∈ group, isDigit c = true

theorem IsGroup.not_mem
    {group : Text} (hgroup : IsGroup group) {c : Char} (hc : isDigit c = false) :
    c ∉ group :=
  fun hmem => ne_of_isDigit (hgroup.digits c hmem) hc rfl

/-! ## Reading digits -/

/-- The number that digits write after a number that is already there. -/
def valueFrom (value : Nat) (digits : Text) : Nat :=
  digits.foldl (fun value c => 16 * value + (digit? c).getD 0) value

theorem readGroups_of_isDigit
    {text : Text} (hdigits : ∀ c ∈ text, isDigit c = true)
    (afterDigit : Bool) (value : Nat)
    (hstart : afterDigit = true ∨ text ≠ []) :
    readGroups afterDigit value text = some (valueFrom value text) := by
  induction text generalizing afterDigit value with
  | nil =>
      have hafter : afterDigit = true := by simpa using hstart
      simp [readGroups, hafter, valueFrom]
  | cons c rest ih =>
      have hc : isDigit c = true := hdigits c (by simp)
      have hunderscore : c ≠ '_' := by
        rintro rfl
        exact absurd hc (by decide)
      rw [readGroups, if_neg hunderscore, digit?_eq_some_of_isDigit hc]
      exact ih (fun d hd => hdigits d (by simp [hd])) true _ (Or.inl rfl)

theorem readMagnitude_of_noMark
    {text : Text} (hnoMark : ∀ c ∈ text, c ≠ 'x' ∧ c ≠ 'X') :
    readMagnitude text = readGroups false 0 text := by
  unfold readMagnitude
  split
  · exact absurd rfl (hnoMark 'x' (by simp)).1
  · exact absurd rfl (hnoMark 'X' (by simp)).2
  · exact absurd rfl (hnoMark 'x' (by simp)).1
  · exact absurd rfl (hnoMark 'X' (by simp)).2
  · rfl

theorem readMagnitude_of_isDigit
    {text : Text} (hdigits : ∀ c ∈ text, isDigit c = true) (hsome : text ≠ []) :
    readMagnitude text = some (valueFrom 0 text) := by
  have hnoMark : ∀ c ∈ text, c ≠ 'x' ∧ c ≠ 'X' := by
    intro c hc
    constructor <;> rintro rfl <;> exact absurd (hdigits _ hc) (by decide)
  rw [readMagnitude_of_noMark hnoMark]
  exact readGroups_of_isDigit hdigits false 0 (Or.inr hsome)

theorem readSigned_of_noSign
    {text : Text} (hnoSign : ∀ c, text.head? = some c → c ≠ '-' ∧ c ≠ '+') :
    readSigned text = (readMagnitude text).map Int.ofNat := by
  unfold readSigned
  split
  · exact absurd rfl (hnoSign '-' rfl).1
  · exact absurd rfl (hnoSign '+' rfl).2
  · rfl

theorem read?_of_isDigit
    {text : Text} (hdigits : ∀ c ∈ text, isDigit c = true) (hsome : text ≠ []) :
    read? text = some (valueFrom 0 text : Int) := by
  have hmargin : text.trimBy isMargin = text := by
    apply Text.IsTrimmedBy.trimBy_eq
    apply Text.IsTrimmedBy.of_forall
    intro c hc
    simp [isMargin, isBlank_of_isDigit (hdigits c hc)]
  have hnoSign : ∀ c, text.head? = some c → c ≠ '-' ∧ c ≠ '+' := by
    intro c hc
    have hdigit := hdigits c (List.mem_of_mem_head? hc)
    constructor <;> rintro rfl <;> exact absurd hdigit (by decide)
  rw [read?, hmargin, map_unifyDigit_of_isDigit hdigits, readSigned_of_noSign hnoSign,
    readMagnitude_of_isDigit hdigits hsome]
  rfl

/-! ## The size of what is read -/

theorem digit?_lt {c : Char} {digit : Nat} (hdigit : digit? c = some digit) : digit < 16 := by
  have hc := (isDigit_iff c).mp (by rw [isDigit, hdigit]; rfl)
  unfold digit? at hdigit
  split at hdigit
  next hrange =>
      have hhigh : c.toNat ≤ 0x39 := UInt32.le_iff_toNat_le.mp hrange.2
      rw [Option.some.injEq] at hdigit
      omega
  next =>
      split at hdigit
      next hrange =>
          have hhigh : c.toNat ≤ 0x66 := UInt32.le_iff_toNat_le.mp hrange.2
          rw [Option.some.injEq] at hdigit
          omega
      next =>
          split at hdigit
          next hrange =>
              have hhigh : c.toNat ≤ 0x46 := UInt32.le_iff_toNat_le.mp hrange.2
              rw [Option.some.injEq] at hdigit
              omega
          next => simp at hdigit

theorem readGroups_lt
    {afterDigit : Bool} {value number : Nat} {text : Text}
    (hread : readGroups afterDigit value text = some number) :
    number < (value + 1) * 16 ^ solidLength text := by
  induction text generalizing afterDigit value with
  | nil =>
      cases afterDigit with
      | false => simp [readGroups] at hread
      | true =>
          obtain rfl : value = number := by simpa [readGroups] using hread
          simp [solidLength, spaceless]
  | cons c rest ih =>
      rw [readGroups] at hread
      have hpow : 16 ^ (1 + solidLength rest) = 16 * 16 ^ solidLength rest := by
        rw [Nat.add_comm, Nat.pow_succ, Nat.mul_comm]
      by_cases hunderscore : c = '_'
      · rw [if_pos hunderscore] at hread
        cases afterDigit with
        | false => simp at hread
        | true =>
            have hlater := ih hread
            rw [solidLength_cons, if_neg (by simp [hunderscore]), hpow]
            nlinarith
      · rw [if_neg hunderscore] at hread
        cases hdigit : digit? c with
        | none => simp [hdigit] at hread
        | some digit =>
            simp only [hdigit] at hread
            have hlater := ih hread
            have hbound := digit?_lt hdigit
            have hspace : c ≠ ' ' := by
              rintro rfl
              simp [digit?] at hdigit
            rw [solidLength_cons, if_neg hspace, hpow]
            calc
              number < (16 * value + digit + 1) * 16 ^ solidLength rest := hlater
              _ ≤ (16 * (value + 1)) * 16 ^ solidLength rest :=
                Nat.mul_le_mul_right _ (by omega)
              _ = (value + 1) * (16 * 16 ^ solidLength rest) := by ring

theorem readMagnitude_lt
    {text : Text} {number : Nat} (hread : readMagnitude text = some number) :
    number < 16 ^ solidLength text := by
  have hgroups : ∀ {rest : Text}, rest.Sublist text →
      readGroups false 0 rest = some number → number < 16 ^ solidLength text := by
    intro rest hsub hrest
    calc
      number < 16 ^ solidLength rest := by simpa using readGroups_lt hrest
      _ ≤ 16 ^ solidLength text :=
        Nat.pow_le_pow_right (by decide) (solidLength_le_of_sublist hsub)
  unfold readMagnitude at hread
  split at hread
  · exact hgroups (List.suffix_append ['0', 'x', '_'] _).sublist hread
  · exact hgroups (List.suffix_append ['0', 'X', '_'] _).sublist hread
  · exact hgroups (List.suffix_append ['0', 'x'] _).sublist hread
  · exact hgroups (List.suffix_append ['0', 'X'] _).sublist hread
  · exact hgroups (List.Sublist.refl _) hread

theorem readSigned_natAbs_lt
    {text : Text} {number : Int} (hread : readSigned text = some number) :
    number.natAbs < 16 ^ solidLength text := by
  unfold readSigned at hread
  split at hread
  next rest =>
      obtain ⟨value, hvalue, rfl⟩ := Option.map_eq_some_iff.mp hread
      obtain ⟨magnitude, hmagnitude, hcast⟩ := Option.bind_eq_some_iff.mp hvalue
      obtain rfl := Option.some.inj hcast
      rw [Int.natAbs_neg, Int.natAbs_natCast]
      calc
        magnitude < 16 ^ solidLength rest := readMagnitude_lt hmagnitude
        _ ≤ 16 ^ solidLength ('-' :: rest) :=
          Nat.pow_le_pow_right (by decide)
            (solidLength_le_of_sublist (List.sublist_cons_self _ rest))
  next rest =>
      obtain ⟨magnitude, hmagnitude, rfl⟩ := Option.map_eq_some_iff.mp hread
      calc
        magnitude < 16 ^ solidLength rest := readMagnitude_lt hmagnitude
        _ ≤ 16 ^ solidLength ('+' :: rest) :=
          Nat.pow_le_pow_right (by decide)
            (solidLength_le_of_sublist (List.sublist_cons_self _ rest))
  next =>
      obtain ⟨magnitude, hmagnitude, rfl⟩ := Option.map_eq_some_iff.mp hread
      exact readMagnitude_lt hmagnitude

theorem solidLength_map_unifyDigit_le (text : Text) :
    solidLength (text.map unifyDigit) ≤ solidLength text := by
  induction text with
  | nil => exact le_rfl
  | cons c rest ih =>
      have hspace : unifyDigit ' ' = ' ' := by decide
      rw [List.map_cons, solidLength_cons, solidLength_cons]
      by_cases hc : c = ' '
      · subst hc
        rw [hspace]
        omega
      · rw [if_neg hc]
        split <;> omega

/-- Every digit of a numeral takes a character, and spaces are none. -/
theorem read?_natAbs_lt
    {text : Text} {number : Int} (hread : read? text = some number) :
    number.natAbs < 16 ^ solidLength text := by
  calc
    number.natAbs < 16 ^ solidLength ((text.trimBy isMargin).map unifyDigit) :=
      readSigned_natAbs_lt hread
    _ ≤ 16 ^ solidLength text := by
      apply Nat.pow_le_pow_right (by decide)
      exact (solidLength_map_unifyDigit_le _).trans
        (solidLength_le_of_sublist (trimBy_sublist isMargin text))

/-! ## The characters of numerals -/

/-- The characters between the blanks of a numeral, once its digits are ASCII digits. -/
def IsNumeralChar (c : Char) : Prop :=
  isDigit c = true ∨ c ∈ ['_', 'x', 'X', '-', '+']

instance (c : Char) : Decidable (IsNumeralChar c) :=
  inferInstanceAs (Decidable (_ ∨ _))

theorem isNumeralChar_of_readGroups
    {afterDigit : Bool} {value number : Nat} {text : Text}
    (hread : readGroups afterDigit value text = some number) :
    ∀ c ∈ text, IsNumeralChar c := by
  induction text generalizing afterDigit value with
  | nil => simp
  | cons c rest ih =>
      rw [readGroups] at hread
      refine List.forall_mem_cons.mpr ?_
      by_cases hunderscore : c = '_'
      · rw [if_pos hunderscore] at hread
        cases afterDigit with
        | false => simp at hread
        | true => exact ⟨Or.inr (by simp [hunderscore]), ih hread⟩
      · rw [if_neg hunderscore] at hread
        cases hdigit : digit? c with
        | none => simp [hdigit] at hread
        | some digit =>
            simp only [hdigit] at hread
            exact ⟨Or.inl (by simp [isDigit, hdigit]), ih hread⟩

theorem isNumeralChar_of_readMagnitude
    {text : Text} {number : Nat} (hread : readMagnitude text = some number) :
    ∀ c ∈ text, IsNumeralChar c := by
  have hzero : IsNumeralChar '0' := Or.inl (by decide)
  have hmark : IsNumeralChar 'x' ∧ IsNumeralChar 'X' ∧ IsNumeralChar '_' :=
    ⟨Or.inr (by simp), Or.inr (by simp), Or.inr (by simp)⟩
  unfold readMagnitude at hread
  split at hread
  all_goals
    have hrest := isNumeralChar_of_readGroups hread
    simpa [hzero, hmark] using hrest

theorem isNumeralChar_of_readSigned
    {text : Text} {number : Int} (hread : readSigned text = some number) :
    ∀ c ∈ text, IsNumeralChar c := by
  have hsign : IsNumeralChar '-' ∧ IsNumeralChar '+' := ⟨Or.inr (by simp), Or.inr (by simp)⟩
  unfold readSigned at hread
  split at hread
  next rest =>
      obtain ⟨value, hvalue, -⟩ := Option.map_eq_some_iff.mp hread
      obtain ⟨magnitude, hmagnitude, -⟩ := Option.bind_eq_some_iff.mp hvalue
      exact List.forall_mem_cons.mpr ⟨hsign.1, isNumeralChar_of_readMagnitude hmagnitude⟩
  next rest =>
      obtain ⟨magnitude, hmagnitude, -⟩ := Option.map_eq_some_iff.mp hread
      exact List.forall_mem_cons.mpr ⟨hsign.2, isNumeralChar_of_readMagnitude hmagnitude⟩
  next =>
      obtain ⟨magnitude, hmagnitude, -⟩ := Option.map_eq_some_iff.mp hread
      exact isNumeralChar_of_readMagnitude hmagnitude

/-- A numeral stands between blanks, and has no other characters than its own. -/
theorem read?_eq_some
    {text : Text} {number : Int} (hread : read? text = some number) :
    ∃ left core right,
      text = left ++ core ++ right ∧
      (∀ c ∈ left, isMargin c = true) ∧
      (∀ c ∈ core, IsNumeralChar (unifyDigit c)) ∧
      (∀ c ∈ right, isMargin c = true) := by
  obtain ⟨left, right, htext, hleft, hright, -⟩ := exists_margins isMargin text
  refine ⟨left, text.trimBy isMargin, right, htext, hleft, ?_, hright⟩
  intro c hc
  exact isNumeralChar_of_readSigned hread _ (List.mem_map_of_mem hc)

theorem decimalDigit?_le {c : Char} {digit : Nat}
    (hdigit : Text.decimalDigit? c = some digit) : digit ≤ 9 := by
  unfold Text.decimalDigit? at hdigit
  split at hdigit
  · split at hdigit
    next hascii =>
        have hrange : 0x30 ≤ c.toNat ∧ c.toNat ≤ 0x39 := by
          simpa [Char.isDigit, UInt32.le_iff_toNat_le] using hascii
        rw [Option.some.injEq] at hdigit
        omega
    next => simp at hdigit
  · obtain ⟨first, hfirst, rfl⟩ := Option.map_eq_some_iff.mp hdigit
    have hrange := List.find?_some hfirst
    simp only [Bool.and_eq_true, decide_eq_true_eq] at hrange
    omega

theorem eq_dash_of_unifyDigit {c : Char} (hc : unifyDigit c = '-') : c = '-' := by
  unfold unifyDigit at hc
  split at hc
  next digit hdigit =>
      have hle := decimalDigit?_le hdigit
      interval_cases digit <;> exact absurd hc (by decide)
  next => exact hc

/-- A numeral without a minus sign is not negative. -/
theorem read?_nonneg
    {text : Text} {number : Int} (hread : read? text = some number) (hdash : '-' ∉ text) :
    0 ≤ number := by
  unfold read? readSigned at hread
  split at hread
  next rest hsigned =>
      have hmem : '-' ∈ (text.trimBy isMargin).map unifyDigit := by simp [hsigned]
      obtain ⟨c, hc, hunified⟩ := List.mem_map.mp hmem
      obtain rfl := eq_dash_of_unifyDigit hunified
      exact absurd ((trimBy_sublist isMargin text).subset hc) hdash
  next =>
      obtain ⟨magnitude, -, rfl⟩ := Option.map_eq_some_iff.mp hread
      exact Int.natCast_nonneg magnitude
  next =>
      obtain ⟨magnitude, -, rfl⟩ := Option.map_eq_some_iff.mp hread
      exact Int.natCast_nonneg magnitude

/-! ## Reading what was written -/

theorem digit?_digitChar {digit : Nat} (hdigit : digit < 16) :
    digit? digit.digitChar = some digit := by
  interval_cases digit <;> decide

theorem isDigit_digitChar {digit : Nat} (hdigit : digit < 16) :
    isDigit digit.digitChar = true := by
  simp [isDigit, digit?_digitChar hdigit]

theorem digits_eq (number : Nat) :
    digits number =
      if number < 16 then [number.digitChar]
      else digits (number / 16) ++ [(number % 16).digitChar] :=
  Nat.toDigits_eq_if (by decide)

theorem exists_digitChar_of_mem_digits
    {number : Nat} {c : Char} (hc : c ∈ digits number) :
    ∃ digit < 16, c = digit.digitChar := by
  induction number using Nat.strongRecOn with
  | ind number ih =>
      rw [digits_eq] at hc
      split at hc
      next hsmall => exact ⟨number, hsmall, List.mem_singleton.mp hc⟩
      next hlarge =>
          rcases List.mem_append.mp hc with hmem | hmem
          · exact ih (number / 16) (by omega) hmem
          · exact ⟨number % 16, by omega, List.mem_singleton.mp hmem⟩

theorem valueFrom_digits (number : Nat) :
    valueFrom 0 (digits number) = number := by
  induction number using Nat.strongRecOn with
  | ind number ih =>
      rw [digits_eq]
      split
      next hsmall => simp [valueFrom, digit?_digitChar hsmall]
      next hlarge =>
          have hlast : (digit? (number % 16).digitChar).getD 0 = number % 16 := by
            rw [digit?_digitChar (by omega)]
            rfl
          have hfirst := ih (number / 16) (by omega)
          unfold valueFrom at hfirst ⊢
          rw [List.foldl_append, hfirst]
          simp only [List.foldl_cons, List.foldl_nil, hlast]
          omega

theorem valueFrom_zeros (count : Nat) (text : Text) :
    valueFrom 0 (List.replicate count '0' ++ text) = valueFrom 0 text := by
  induction count with
  | zero => rfl
  | succ count ih =>
      rw [List.replicate_succ, List.cons_append]
      exact ih

theorem exists_digitChar_of_mem_padded
    {width number : Nat} {c : Char}
    (hc : c ∈ Text.hexPadded width number) :
    ∃ digit < 16, c = digit.digitChar := by
  rcases List.mem_append.mp hc with hzero | hdigit
  · exact ⟨0, by decide, List.eq_of_mem_replicate hzero⟩
  · exact exists_digitChar_of_mem_digits hdigit

theorem isDigit_of_mem_padded
    {width number : Nat} {c : Char}
    (hc : c ∈ Text.hexPadded width number) :
    isDigit c = true := by
  obtain ⟨digit, hdigit, rfl⟩ := exists_digitChar_of_mem_padded hc
  exact isDigit_digitChar hdigit

theorem padded_ne_nil (width number : Nat) :
    Text.hexPadded width number ≠ [] := by
  intro hnil
  have hdigits := (List.append_eq_nil_iff.mp hnil).2
  exact Nat.toDigits_ne_nil hdigits

theorem length_padded
    {width number : Nat} (hwidth : 0 < width) (hnumber : number < 16 ^ width) :
    (Text.hexPadded width number).length = width := by
  have hlength : (digits number).length ≤ width :=
    (Nat.length_toDigits_le_iff (by decide) hwidth).mpr hnumber
  change (Text.padZeros width (digits number)).length = width
  rw [Text.padZeros, List.length_append, List.length_replicate, Nat.sub_add_cancel hlength]

theorem valueFrom_padded (width number : Nat) :
    valueFrom 0 (Text.hexPadded width number) = number := by
  unfold Text.hexPadded Text.padZeros
  rw [valueFrom_zeros]
  exact valueFrom_digits number

/-- A written number is read back, with zeros in front or without. -/
theorem read?_padded (width number : Nat) :
    read? (Text.hexPadded width number) = some (number : Int) := by
  rw [read?_of_isDigit (fun c hc => isDigit_of_mem_padded hc)
    (padded_ne_nil width number), valueFrom_padded]

theorem padded_succ {width : Nat} (hwidth : 1 ≤ width) (number : Nat) :
    Text.hexPadded (width + 1) number =
      Text.hexPadded width (number / 16) ++ [(number % 16).digitChar] := by
  change Text.padZeros (width + 1) (digits number) =
    Text.padZeros width (digits (number / 16)) ++ _
  unfold Text.padZeros
  by_cases hsmall : number < 16
  · -- The only digit is the last one, and one of the zeros is the digit of the quotient.
    have hquotient : number / 16 = 0 := by omega
    have hremainder : number % 16 = number := by omega
    have hzeros : List.replicate width '0' =
        List.replicate (width - 1) '0' ++ ['0'] := by
      rw [← List.replicate_succ', Nat.sub_add_cancel hwidth]
    rw [digits_eq, if_pos hsmall, hquotient, hremainder]
    simp only [List.length_singleton, Nat.add_sub_cancel]
    rw [hzeros]
    rfl
  · have hlength : width + 1 - ((digits (number / 16)).length + 1) =
        width - (digits (number / 16)).length := by omega
    rw [digits_eq number, if_neg hsmall, List.length_append, List.length_singleton,
      hlength, List.append_assoc]

theorem padded_two {number : Nat} (hnumber : number < 0x100) :
    Text.hexPadded 2 number =
      [(number / 16).digitChar, (number % 16).digitChar] := by
  have hquotient : digits (number / 16) = [(number / 16).digitChar] := by
    rw [digits_eq, if_pos (by omega)]
  have hone : Text.hexPadded 1 (number / 16) = [(number / 16).digitChar] := by
    change Text.padZeros 1 (digits (number / 16)) = _
    rw [hquotient]
    rfl
  rw [padded_succ (le_refl 1), hone]
  rfl

/-- Four digits are two digits for the upper byte and two for the lower byte. -/
theorem padded_four (number : Nat) :
    Text.hexPadded 4 number =
      Text.hexPadded 2 (number / 0x100) ++ Text.hexPadded 2 (number % 0x100) := by
  have hupper : number / 16 / 16 = number / 0x100 := by omega
  have hmiddle : number % 0x100 / 16 = number / 16 % 16 := by omega
  have hlast : number % 0x100 % 16 = number % 16 := by omega
  rw [padded_two (show number % 0x100 < 0x100 by omega), hmiddle, hlast,
    padded_succ (show 1 ≤ 3 by omega), padded_succ (show 1 ≤ 2 by omega), hupper,
    List.append_assoc]
  rfl

end Hexadecimal

end Assembler6502
