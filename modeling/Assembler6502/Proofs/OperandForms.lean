import Assembler6502.Proofs.LineEncoding
import Assembler6502.Proofs.LowerCase
import Assembler6502.Proofs.Numerals

/-!
# Operands and their normal forms

An operand is classified by its normal form, in lower case and without spaces, and its bytes are
read from the operand itself. Where the normal form starts with an address, the operand starts with
the same characters and spaces between them. So the bytes that are cut out of an address are bytes.
What stands in an immediate operand or between parentheses is not looked at, and may be any numeral.
-/

namespace Assembler6502

open Text

namespace Operand

theorem normalize_of_isTrimmedBy
    {text : Text} (htext : IsTrimmedBy isBlank text) :
    normalize text = text.lower.spaceless := by
  rw [normalize, trim, htext.lower.trimBy_eq, spaceless]

theorem solidLength_le_lowerAfter (afterCased : Bool) (text : Text) :
    solidLength text ≤ solidLength (lowerAfter afterCased text) := by
  induction text generalizing afterCased with
  | nil => exact le_rfl
  | cons c rest ih =>
      obtain ⟨form, later, hform, hlower⟩ := lowerAfter_cons afterCased c rest
      have hrest := ih later
      have hsolid : (if c = ' ' then 0 else 1) ≤ solidLength form := by
        by_cases hascii : c.toNat < 0x80
        · rw [hform.eq_of_ascii hascii, solidLength_cons]
          simp only [toLower_eq_space_iff]
          omega
        · obtain ⟨first, others, rfl, hfirst⟩ := (hform.isFarForm (by omega)).head
          have hspace : first ≠ ' ' := by
            rintro rfl
            exact absurd hfirst (by decide)
          rw [solidLength_cons, if_neg hspace]
          split <;> omega
      rw [hlower, solidLength_cons, solidLength_append]
      omega

/-- Where the lower-case form starts, spaces left out, with characters before the letter `i`, it has
been made character by character. -/
theorem map_toLower_take_spaceless
    {afterCased : Bool} {text : Text} {count : Nat}
    (hlow : ∀ d ∈ (lowerAfter afterCased text).spaceless.take count, d.toNat < 0x69) :
    (text.spaceless.take count).map Char.toLower =
      (lowerAfter afterCased text).spaceless.take count := by
  induction text generalizing afterCased count with
  | nil => simp [spaceless, lowerAfter]
  | cons first rest ih =>
      obtain ⟨form, later, hform, hlower⟩ := lowerAfter_cons afterCased first rest
      rw [hlower, spaceless_append] at hlow ⊢
      by_cases hascii : first.toNat < 0x80
      · rw [hform.eq_of_ascii hascii] at hlow ⊢
        by_cases hspace : first = ' '
        · subst hspace
          exact ih hlow
        · have hkept : spaceless [first.toLower] = [first.toLower] := by
            simp [spaceless, toLower_eq_space_iff, hspace]
          rw [hkept, List.singleton_append] at hlow ⊢
          rw [spaceless_cons_of_ne hspace]
          cases count with
          | zero => rfl
          | succ count =>
              rw [List.take_succ_cons] at hlow
              rw [List.take_succ_cons, List.take_succ_cons, List.map_cons,
                ih (List.forall_mem_cons.mp hlow).2]
      · -- The form of a character beyond ASCII would come too late in the alphabet.
        obtain ⟨start, others, rfl, hstart⟩ := (hform.isFarForm (by omega)).head
        have hspace : start ≠ ' ' := by
          rintro rfl
          exact absurd hstart (by decide)
        cases count with
        | zero => simp
        | succ count =>
            have hearly := hlow start (by simp [spaceless, hspace])
            omega

theorem mem_take_of_lowerAfter
    {afterCased : Bool} {text : Text} {count : Nat}
    (hlow : ∀ d ∈ (lowerAfter afterCased text).spaceless.take count, d.toNat < 0x69) :
    ∀ c ∈ text.take count,
      c = ' ' ∨ c.toLower ∈ (lowerAfter afterCased text).spaceless.take count := by
  intro c hc
  rw [← map_toLower_take_spaceless hlow]
  by_cases hspace : c = ' '
  · exact Or.inl hspace
  · exact Or.inr (List.mem_map_of_mem (mem_take_spaceless hc hspace))

/-! ## Addresses -/

/-- The mark of addresses or one of their digits. -/
def IsAddressChar (c : Char) : Prop :=
  c = '$' ∨ Hexadecimal.isDigit c = true

theorem IsAddressChar.toNat_lt {c : Char} (hc : IsAddressChar c) : c.toNat < 0x69 := by
  rcases hc with rfl | hdigit
  · decide
  · rw [Hexadecimal.isDigit_iff] at hdigit
    omega

theorem isAddressChar_of_mem_take
    {count : Nat} {normal : Text} (hstart : startsWithAddress count normal = true) :
    ∀ c ∈ normal.take (count + 1), IsAddressChar c := by
  obtain ⟨rest, rfl, -, hdigits⟩ := startsWithAddress_cons hstart
  rw [List.take_succ_cons]
  refine List.forall_mem_cons.mpr ⟨Or.inl rfl, ?_⟩
  intro c hc
  exact Or.inr (hdigits c hc)

section Trimmed

variable {text : Text} (htext : IsTrimmedBy isBlank text)

include htext

theorem dash_not_mem_take
    {count : Nat} (hchars : ∀ d ∈ (normalize text).take count, IsAddressChar d) :
    '-' ∉ text.take count := by
  intro hdash
  rw [normalize_of_isTrimmedBy htext] at hchars
  have hmem := mem_take_of_lowerAfter (fun d hd => (hchars d hd).toNat_lt) '-' hdash
  have haddress := hchars '-' (hmem.resolve_left (by decide))
  unfold IsAddressChar at haddress
  exact absurd haddress (by decide)

theorem exists_dollar_cons
    {count : Nat} (hstart : startsWithAddress count (normalize text) = true) :
    ∃ rest, text = '$' :: rest := by
  obtain ⟨others, hnormal, -⟩ := startsWithAddress_cons hstart
  rw [normalize_of_isTrimmedBy htext] at hnormal
  have hlow : ∀ d ∈ text.lower.spaceless.take 1, d.toNat < 0x69 := by
    rw [hnormal]
    exact forall_mem_of_all rfl
  have hlower := map_toLower_take_spaceless hlow
  rw [← Text.lower, hnormal] at hlower
  cases hspaceless : text.spaceless with
  | nil => simp [hspaceless] at hlower
  | cons c rest =>
      rw [hspaceless] at hlower
      have hdollar : c.toLower = '$' := by simpa using hlower
      obtain rfl := (toLower_eq_iff (Or.inl (by decide)) c).mp hdollar
      obtain ⟨tail, htail, -⟩ := htext.exists_cons_of_spaceless hspaceless
      exact ⟨tail, htail⟩

end Trimmed

/-! ## The values of operands -/

theorem read?_slice_le
    {text : Text} {start stop : Nat} {number : Int} (hwidth : stop ≤ start + 2)
    (hread : Hexadecimal.read? (text.slice start stop) = some number) :
    number ≤ 0xff := by
  have hlength : solidLength (text.slice start stop) ≤ 2 := by
    apply (solidLength_le_length _).trans
    simp only [slice, List.length_drop, List.length_take]
    omega
  have hlt : number.natAbs < 16 ^ 2 :=
    (Hexadecimal.read?_natAbs_lt hread).trans_le (Nat.pow_le_pow_right (by decide) hlength)
  omega

theorem read?_slice_nonneg
    {text : Text} {start stop : Nat} {number : Int} (hdash : '-' ∉ text.take stop)
    (hread : Hexadecimal.read? (text.slice start stop) = some number) :
    0 ≤ number := by
  apply Hexadecimal.read?_nonneg hread
  intro hmem
  exact hdash (List.mem_of_mem_drop hmem)

theorem read?_zeroPage_byte
    {text : Text} {number : Int} (htext : IsTrimmedBy isBlank text)
    (hmode : modeOfNormal (normalize text) = .ok .zeroPage)
    (hread : Hexadecimal.read? (text.trimBy ['$'].contains) = some number) :
    0 ≤ number ∧ number ≤ 0xff := by
  obtain ⟨hstart, hend⟩ := (isClassified_of_modeOfNormal hmode).zeroPage (.inl rfl)
  have hthree : (normalize text).length ≤ 3 := List.drop_eq_nil_iff.mp hend
  have hdash : '-' ∉ text.take text.length := by
    apply dash_not_mem_take htext
    intro d hd
    apply isAddressChar_of_mem_take hstart
    rw [List.take_of_length_le hthree]
    exact List.mem_of_mem_take hd
  have hsolid : solidLength text ≤ 3 := by
    rw [normalize_of_isTrimmedBy htext] at hthree
    exact (solidLength_le_lowerAfter false text).trans hthree
  obtain ⟨rest, rfl⟩ := exists_dollar_cons htext hstart
  constructor
  · apply Hexadecimal.read?_nonneg hread
    intro hmem
    rw [List.take_length] at hdash
    exact hdash ((trimBy_sublist _ _).subset hmem)
  · have hmargin : trimBy ['$'].contains ('$' :: rest) = trimBy ['$'].contains rest :=
      @trimBy_append_left _ ['$'] (by simp) rest
    rw [hmargin] at hread
    have hlength : solidLength (trimBy ['$'].contains rest) ≤ 2 := by
      apply (solidLength_le_of_sublist (trimBy_sublist _ rest)).trans
      rw [solidLength_cons, if_neg (by decide)] at hsolid
      omega
    have hlt : number.natAbs < 16 ^ 2 :=
      (Hexadecimal.read?_natAbs_lt hread).trans_le (Nat.pow_le_pow_right (by decide) hlength)
    omega

end Operand

end Assembler6502
