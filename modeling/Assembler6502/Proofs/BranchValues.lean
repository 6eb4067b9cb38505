import Assembler6502.Branch
import Mathlib.Tactic

/-!
# The values of branches

A branch stores its displacement: the distance from the byte behind it to its target. Displacements
that go backwards are stored as a complement, which flips eight bits and adds one. On the integers
this is a closed form in the quotient and the remainder by 256. The one that is added carries out of
the eight bits on the multiples of 256, and only there: everywhere else the complement keeps the
quotient and undoes itself.
-/

namespace Assembler6502

theorem xor_byte (number : Nat) :
    number ^^^ 0xff = 0x100 * (number / 0x100) + (0xff - number % 0x100) := by
  have hquotient : (number ^^^ 0xff) / 0x100 = number / 0x100 := by
    have hshift := Nat.xor_div_two_pow (a := number) (b := 0xff) (n := 8)
    simpa using hshift
  have hremainder : (number ^^^ 0xff) % 0x100 = 0xff - number % 0x100 := by
    have hmask := Nat.xor_mod_two_pow (a := number) (b := 0xff) (n := 8)
    have hbyte : ∀ byte : Fin 0x100, byte.val ^^^ 0xff = 0xff - byte.val := by
      decide +kernel
    have hlast := hbyte ⟨number % 0x100, Nat.mod_lt _ (by decide)⟩
    simp only at hlast
    simpa [hlast] using hmask
  have hsplit := Nat.div_add_mod (number ^^^ 0xff) 0x100
  rw [hquotient, hremainder] at hsplit
  exact hsplit.symm

/-- The complement of any integer, in terms of its quotient and its remainder by 256. -/
theorem twosComplement_eq (number : Int) :
    twosComplement number = 0x100 * (number / 0x100) + 0x100 - number % 0x100 := by
  unfold twosComplement
  cases number with
  | ofNat magnitude =>
      have hflip : flipBits 0xff (.ofNat magnitude) =
          ((0x100 * (magnitude / 0x100) + (0xff - magnitude % 0x100) : Nat) : Int) := by
        rw [← xor_byte]
        rfl
      rw [hflip, Int.ofNat_eq_natCast]
      omega
  | negSucc magnitude =>
      have hflip : flipBits 0xff (.negSucc magnitude) =
          -((0x100 * (magnitude / 0x100) + (0xff - magnitude % 0x100) : Nat) : Int) - 1 := by
        rw [← xor_byte]
        exact Int.negSucc_eq _ |>.trans (by omega)
      rw [hflip, Int.negSucc_eq]
      omega

/-- A number and its complement add up to an odd multiple of 256. -/
theorem twosComplement_add_self (number : Int) :
    twosComplement number + number = 0x100 * (2 * (number / 0x100) + 1) := by
  rw [twosComplement_eq]
  omega

theorem twosComplement_modEq_neg (number : Int) :
    twosComplement number ≡ -number [ZMOD 0x100] := by
  have hsum := twosComplement_add_self number
  rw [Int.modEq_comm, Int.modEq_iff_dvd, sub_neg_eq_add, hsum]
  exact dvd_mul_right _ _

theorem twosComplement_byte_iff (number : Int) :
    (0 ≤ twosComplement number ∧ twosComplement number ≤ 0xff) ↔
      (1 ≤ number ∧ number ≤ 0xff) ∨ number = -0x100 := by
  rw [twosComplement_eq]
  constructor
  · rintro ⟨hlow, hhigh⟩
    -- The remainder is less than 256, so the quotient is 0, or it is -1 and nothing remains.
    obtain hquotient | hquotient : number / 0x100 = 0 ∨ number / 0x100 = -1 := by omega
    · exact .inl (by omega)
    · exact .inr (by omega)
  · rintro (⟨hlow, hhigh⟩ | rfl)
    · have hquotient : number / 0x100 = 0 := Int.ediv_eq_zero_of_lt (by omega) (by omega)
      omega
    · decide

/-- The one that is added to a multiple of 256 is carried out of its lower eight bits. -/
theorem twosComplement_of_dvd {number : Int} (hdvd : 0x100 ∣ number) :
    twosComplement number = number + 0x100 := by
  rw [twosComplement_eq, Int.mul_ediv_cancel' hdvd, Int.emod_eq_zero_of_dvd hdvd, sub_zero]

theorem twosComplement_ediv_of_not_dvd {number : Int} (hdvd : ¬0x100 ∣ number) :
    twosComplement number / 0x100 = number / 0x100 := by
  rw [twosComplement_eq]
  omega

theorem twosComplement_emod_of_not_dvd {number : Int} (hdvd : ¬0x100 ∣ number) :
    twosComplement number % 0x100 = 0x100 - number % 0x100 := by
  rw [twosComplement_eq]
  omega

theorem twosComplement_twosComplement_iff (number : Int) :
    twosComplement (twosComplement number) = number ↔ ¬0x100 ∣ number := by
  constructor
  · intro htwice hdvd
    have hcarried : 0x100 ∣ number + 0x100 := dvd_add_self_right.mpr hdvd
    rw [twosComplement_of_dvd hdvd, twosComplement_of_dvd hcarried] at htwice
    omega
  · intro hdvd
    rw [twosComplement_eq (twosComplement number), twosComplement_ediv_of_not_dvd hdvd,
      twosComplement_emod_of_not_dvd hdvd, add_sub_assoc, sub_sub_cancel,
      Int.mul_ediv_add_emod]

/-- The complement of any integer, of either sign and any size: its closed form by floor division,
what it is modulo 256, where it is a byte, and where it undoes itself. -/
theorem twosComplement_closed_form (number : Int) :
    twosComplement number = 0x100 * number.fdiv 0x100 + 0x100 - number.fmod 0x100 ∧
    twosComplement number ≡ -number [ZMOD 0x100] ∧
    ((0 ≤ twosComplement number ∧ twosComplement number ≤ 0xff) ↔
      (1 ≤ number ∧ number ≤ 0xff) ∨ number = -0x100) ∧
    (twosComplement (twosComplement number) = number ↔ ¬0x100 ∣ number) := by
  refine ⟨?_, twosComplement_modEq_neg number, twosComplement_byte_iff number,
    twosComplement_twosComplement_iff number⟩
  rw [Int.fdiv_eq_ediv_of_nonneg number (by decide), Int.fmod_eq_emod_of_nonneg number (by decide)]
  exact twosComplement_eq number

/-- A displacement forwards is stored as it is, and one backwards as its complement. -/
theorem branchValue_eq (position : Int) (index : Nat) :
    branchValue position index =
      if 0 ≤ position - (index + 1) then position - (index + 1)
      else 0x100 * ((index + 1 - position) / 0x100) + 0x100 - (index + 1 - position) % 0x100 := by
  unfold branchValue
  by_cases hforward : position - index > 0
  · rw [if_pos hforward, if_pos (by omega)]
    omega
  · have habs : ((position - index - 1).natAbs : Int) = index + 1 - position := by omega
    rw [if_neg hforward, if_neg (by omega), habs, twosComplement_eq]

/-- A displacement of less than 256 in either direction is stored as its remainder by 256. -/
theorem branchValue_eq_emod
    {position : Int} {index : Nat}
    (hlow : -0xff ≤ position - (index + 1)) (hhigh : position - (index + 1) ≤ 0xff) :
    branchValue position index = (position - (index + 1)) % 0x100 := by
  rw [branchValue_eq]
  split <;> omega

/-- Farther displacements are not stored in a byte. -/
theorem branchValue_byte_iff (position : Int) (index : Nat) :
    (0 ≤ branchValue position index ∧ branchValue position index ≤ 0xff) ↔
      -0xff ≤ position - (index + 1) ∧ position - (index + 1) ≤ 0xff := by
  rw [branchValue_eq]
  split <;> omega

theorem branchValue_emod (position : Int) (index : Nat) :
    branchValue position index % 0x100 = (position - (index + 1)) % 0x100 := by
  rw [branchValue_eq]
  split <;> omega

/-- The number that a byte stands for when its upper half counts as negative. -/
def signedByte (value : Int) : Int :=
  if value < 0x80 then value else value - 0x100

theorem signedByte_branchValue_iff (position : Int) (index : Nat) :
    signedByte (branchValue position index) = position - (index + 1) ↔
      -0x80 ≤ position - (index + 1) ∧ position - (index + 1) ≤ 0x7f := by
  unfold signedByte
  rw [branchValue_eq]
  split <;> split <;> omega

end Assembler6502
