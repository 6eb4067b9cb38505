import Assembler6502.Proofs.OperandForms

/-!
# Spaces inside operands

An operand is classified without its spaces, and its bytes are read from the operand as it was
written. Where marks are trimmed and the rest is read as a numeral, a space can only make reading
fail. Where two characters are cut out, a space in front of them or between them moves the digits,
so that other digits are read than the ones the operand was classified by.
-/

namespace Assembler6502

open Text

/-! ## Numerals and spaces -/

namespace Hexadecimal

theorem read?_append_margins
    {left right : Text} (hleft : ∀ c ∈ left, isMargin c = true)
    (hright : ∀ c ∈ right, isMargin c = true) (text : Text) :
    read? (left ++ text ++ right) = read? text := by
  rw [read?, trimBy_append_right hright, trimBy_append_left hleft, read?]

theorem read?_spaceless {text : Text} {number : Int} (hread : read? text = some number) :
    read? text.spaceless = some number := by
  obtain ⟨left, core, right, rfl, hleft, hcore, hright⟩ := read?_eq_some hread
  have hsolid : ' ' ∉ core := fun hspace => absurd (hcore ' ' hspace) (by decide)
  rw [read?_append_margins hleft hright] at hread
  rw [spaceless_append, spaceless_append, spaceless_eq_self hsolid, read?_append_margins]
  · exact hread
  · exact fun c hc => hleft c (List.mem_of_mem_filter hc)
  · exact fun c hc => hright c (List.mem_of_mem_filter hc)

/-- A character that is neither blank nor part of numerals. -/
def IsMark (c : Char) : Prop :=
  isMargin c = false ∧ ¬IsNumeralChar (unifyDigit c)

instance (c : Char) : Decidable (IsMark c) :=
  inferInstanceAs (Decidable (_ ∧ _))

theorem not_mem_of_read?
    {text : Text} {number : Int} (hread : read? text = some number) {c : Char} (hc : IsMark c) :
    c ∉ text := by
  obtain ⟨left, core, right, rfl, hleft, hcore, hright⟩ := read?_eq_some hread
  intro hmem
  rcases List.mem_append.mp hmem with hfront | hend
  · rcases List.mem_append.mp hfront with hstart | hmiddle
    · exact absurd (hleft c hstart) (by rw [hc.1]; decide)
    · exact hc.2 (hcore c hmiddle)
  · exact absurd (hright c hend) (by rw [hc.1]; decide)

/-- A numeral between marks is read alike with and without spaces. -/
theorem read?_trimBy_spaceless
    {marks text : Text} {number : Int} (hmarks : ∀ c ∈ marks, IsMark c)
    (hread : read? (text.trimBy marks.contains) = some number) :
    read? (text.spaceless.trimBy marks.contains) = some number := by
  obtain ⟨left, right, htext, hleft, hright, -⟩ := exists_margins marks.contains text
  have hsolid : ∀ margin : Text, (∀ c ∈ margin, marks.contains c = true) → ' ' ∉ margin := by
    intro margin hmargin hspace
    exact absurd (hmarks ' ' (by simpa using hmargin ' ' hspace)) (by decide)
  have hcore : IsTrimmedBy marks.contains (text.trimBy marks.contains).spaceless := by
    apply IsTrimmedBy.of_forall
    intro c hc
    by_contra hmark
    have hmem : c ∈ marks := by simpa using hmark
    exact not_mem_of_read? hread (hmarks c hmem) (List.mem_of_mem_filter hc)
  rw [htext, spaceless_append, spaceless_append, spaceless_eq_self (hsolid left hleft),
    spaceless_eq_self (hsolid right hright), trimBy_margins hleft hcore hright]
  exact read?_spaceless hread

/-! ## Two characters of an operand -/

def digitValue (c : Char) : Nat :=
  (digit? c).getD 0

theorem read?_digit {c : Char} (hc : isDigit c = true) : read? [c] = some (digitValue c : Int) := by
  rw [read?_of_isDigit (by simpa using hc) (by simp)]
  simp [valueFrom, digitValue]

theorem read?_digits {first second : Char}
    (hfirst : isDigit first = true) (hsecond : isDigit second = true) :
    read? [first, second] = some (16 * digitValue first + digitValue second : Int) := by
  rw [read?_of_isDigit (by simp [hfirst, hsecond]) (by simp)]
  simp [valueFrom, digitValue]

/-- Two characters are read where there are two digits and more, and spaces between them. If a
space is among the two, only the first digit is read, and the second one is left over. -/
theorem read?_take_two
    {text rest : Text} {first second : Char} {number : Int}
    (hfirst : isDigit first = true) (hsecond : isDigit second = true)
    (htext : text.spaceless = first :: second :: rest)
    (hread : read? (text.take 2) = some number) :
    (' ' ∉ text.take 2 ∧ text.take 2 = [first, second] ∧ spaceless (text.drop 2) = rest ∧
        number = 16 * digitValue first + digitValue second) ∨
      (' ' ∈ text.take 2 ∧ spaceless (text.drop 2) = second :: rest ∧
        number = digitValue first) := by
  have hmargin : ∀ c ∈ [' '], isMargin c = true := by simp; decide
  have hnone : ∀ c ∈ ([] : Text), isMargin c = true := by simp
  match text with
  | [] => simp [spaceless] at htext
  | [c] =>
      have hlength := congrArg List.length htext
      have hle := List.length_filter_le (· ≠ ' ') [c]
      simp only [spaceless, List.length_cons, List.length_nil] at hlength hle
      omega
  | c :: d :: tail =>
      change read? [c, d] = some number at hread
      change (' ' ∉ [c, d] ∧ [c, d] = [first, second] ∧ spaceless tail = rest ∧ _) ∨
        (' ' ∈ [c, d] ∧ spaceless tail = second :: rest ∧ _)
      by_cases hc : c = ' '
      · subst hc
        rw [spaceless_space_cons] at htext
        by_cases hd : d = ' '
        · have hblank : read? [' ', ' '] = none := rfl
          rw [hd, hblank] at hread
          simp at hread
        · rw [spaceless_cons_of_ne hd] at htext
          obtain ⟨rfl, htail⟩ := List.cons.inj htext
          have hone := read?_append_margins hmargin hnone [d]
          rw [read?_digit hfirst] at hone
          exact .inr ⟨by simp, htail, Option.some.inj (hread.symm.trans hone)⟩
      · rw [spaceless_cons_of_ne hc] at htext
        obtain ⟨rfl, hrest⟩ := List.cons.inj htext
        by_cases hd : d = ' '
        · subst hd
          rw [spaceless_space_cons] at hrest
          have hone := read?_append_margins hnone hmargin [c]
          rw [read?_digit hfirst] at hone
          exact .inr ⟨by simp, hrest, Option.some.inj (hread.symm.trans hone)⟩
        · rw [spaceless_cons_of_ne hd] at hrest
          obtain ⟨rfl, htail⟩ := List.cons.inj hrest
          rw [read?_digits hfirst hsecond] at hread
          exact .inl ⟨by simp [Ne.symm hc, Ne.symm hd], rfl, htail, (Option.some.inj hread).symm⟩

theorem slice_append_two (lead text : Text) :
    slice lead.length (lead.length + 2) (lead ++ text) = text.take 2 := by
  rw [slice, List.take_length_add_append, List.drop_left]

/-- Two characters that come where two digits start. They are read alike with and without spaces
exactly if there is no space up to them, or if the digits write zero. -/
theorem read?_slice_spaceless_iff
    {lead text rest : Text} {first second : Char} {number : Int}
    (hlead : ' ' ∉ lead) (hfirst : isDigit first = true) (hsecond : isDigit second = true)
    (htext : text.spaceless = first :: second :: rest)
    (hread : read? (slice lead.length (lead.length + 2) (lead ++ text)) = some number) :
    read? (slice lead.length (lead.length + 2) (spaceless (lead ++ text))) = some number ↔
      ' ' ∉ (lead ++ text).take (lead.length + 2) ∨
        read? (slice lead.length (lead.length + 2) (spaceless (lead ++ text))) = some 0 := by
  have hsolid : slice lead.length (lead.length + 2) (spaceless (lead ++ text)) =
      [first, second] := by
    rw [spaceless_append, spaceless_eq_self hlead, slice_append_two, htext]
    rfl
  rw [slice_append_two] at hread
  rw [hsolid, read?_digits hfirst hsecond, List.take_length_add_append, List.mem_append]
  rcases read?_take_two hfirst hsecond htext hread with
    ⟨hclean, -, -, rfl⟩ | ⟨hspace, -, rfl⟩
  · simp [hlead, hclean]
  · simp only [hspace, or_true, not_true_eq_false, false_or, Option.some.injEq]
    omega

/-- An address of four digits, of which the lower byte is read behind the upper one. -/
theorem read?_address_spaceless_iff
    {text rest : Text} {first second third fourth : Char} {low high : Int}
    (hdigits : ∀ c ∈ [first, second, third, fourth], isDigit c = true)
    (htext : text.spaceless = first :: second :: third :: fourth :: rest)
    (hlow : read? (slice 3 5 ('$' :: text)) = some low)
    (hhigh : read? (slice 1 3 ('$' :: text)) = some high) :
    (read? (slice 3 5 (spaceless ('$' :: text))) = some low ∧
        read? (slice 1 3 (spaceless ('$' :: text))) = some high) ↔
      (' ' ∉ ('$' :: text).take 5 ∨ read? (slice 3 5 (spaceless ('$' :: text))) = some 0) ∧
        (' ' ∉ ('$' :: text).take 3 ∨ read? (slice 1 3 (spaceless ('$' :: text))) = some 0) := by
  simp only [List.forall_mem_cons] at hdigits
  obtain ⟨hfirst, hsecond, hthird, hfourth, -⟩ := hdigits
  have hmark : ' ' ∉ ['$'] := by decide
  have hhighTake : read? (text.take 2) = some high := hhigh
  rcases read?_take_two hfirst hsecond htext hhighTake with
    ⟨hclean, htake, hdrop, -⟩ | ⟨hspace, hdrop, rfl⟩
  · -- The upper byte is read well, and the lower one comes where its digits start.
    have hsplit : '$' :: text = ['$', first, second] ++ text.drop 2 := by
      rw [List.cons_append, ← htake, List.take_append_drop]
    have hlead : ' ' ∉ ['$', first, second] := by
      rw [htake] at hclean
      simpa using hclean
    have hupper := read?_slice_spaceless_iff hmark hfirst hsecond htext hhigh
    rw [hsplit] at hlow
    have hlower := read?_slice_spaceless_iff hlead hthird hfourth hdrop hlow
    rw [← hsplit] at hlower
    exact and_congr hlower hupper
  · -- One digit is read as the upper byte, and the second digit comes next.
    have hsolid : spaceless ('$' :: text) = '$' :: first :: second :: third :: fourth :: rest := by
      rw [spaceless_cons_of_ne (by decide), htext]
    have hlowDigits : read? (slice 3 5 (spaceless ('$' :: text))) =
        some (16 * digitValue third + digitValue fourth : Int) := by
      rw [hsolid]
      exact read?_digits hthird hfourth
    have hhighDigits : read? (slice 1 3 (spaceless ('$' :: text))) =
        some (16 * digitValue first + digitValue second : Int) := by
      rw [hsolid]
      exact read?_digits hfirst hsecond
    have hspaceHigh : ' ' ∈ ('$' :: text).take 3 := List.mem_cons_of_mem _ hspace
    have hspaceLow : ' ' ∈ ('$' :: text).take 5 :=
      (List.take_subset_take_left ('$' :: text) (by decide)) hspaceHigh
    have hlowTake : read? ((text.drop 2).take 2) = some low := by
      rw [List.take_drop]
      exact hlow
    rw [hlowDigits, hhighDigits]
    simp only [hspaceLow, hspaceHigh, not_true_eq_false, false_or, Option.some.injEq]
    rcases read?_take_two hsecond hthird hdrop hlowTake with ⟨-, -, -, rfl⟩ | ⟨-, -, rfl⟩
    · omega
    · omega

/-- Where a mark is the first character that is no space, nothing is read. -/
theorem read?_take_of_mark
    {text rest : Text} {c : Char} (hc : IsMark c) (htext : text.spaceless = c :: rest)
    (count : Nat) :
    read? (text.take count) = none := by
  by_contra hread
  obtain ⟨number, hnumber⟩ := Option.ne_none_iff_exists'.mp hread
  have hsplit := spaceless_append (text.take count) (text.drop count)
  rw [List.take_append_drop, htext] at hsplit
  have hsolid := read?_spaceless hnumber
  cases hfront : spaceless (text.take count) with
  | nil =>
      have hnothing : read? [] = none := rfl
      rw [hfront, hnothing] at hsolid
      contradiction
  | cons d others =>
      rw [hfront] at hsolid hsplit
      obtain ⟨rfl, -⟩ := List.cons.inj hsplit
      exact not_mem_of_read? hsolid hc List.mem_cons_self

theorem isDigit_of_toLower {c : Char} (hc : isDigit c.toLower = true) : isDigit c = true := by
  rw [isDigit_iff, toNat_toLower] at hc
  rw [isDigit_iff]
  split at hc
  · omega
  · omega

end Hexadecimal

/-! ## The digits of an operand -/

namespace Operand

open Hexadecimal

/-- The documented start of an operand in parentheses: the mark of addresses and two digits. -/
def StartsWithPointer (text : Text) : Prop :=
  ∃ first second rest,
    text = '(' :: '$' :: first :: second :: rest ∧
    isDigit first = true ∧ isDigit second = true

theorem slicedValue_eq_ok_iff {start stop : Nat} {text : Text} {entry : Option Entry} :
    slicedValue start stop (some text) = .ok entry ↔
      ∃ number, read? (text.slice start stop) = some number ∧ entry = some (.value number) := by
  constructor
  · intro hentry
    obtain ⟨_, number, hsame, hread, rfl⟩ := slicedValue_eq_ok hentry
    obtain rfl := Option.some.inj hsame
    exact ⟨number, hread, rfl⟩
  · rintro ⟨number, hread, rfl⟩
    exact slicedValue_of_read? hread

theorem trimmedValue_spaceless
    {marks text : Text} {entry : Option Entry} (hmarks : ∀ c ∈ marks, IsMark c)
    (hentry : trimmedValue marks (some text) = .ok entry) :
    trimmedValue marks (some text.spaceless) = .ok entry := by
  obtain ⟨_, number, hsame, hread, rfl⟩ := trimmedValue_eq_ok hentry
  obtain rfl := Option.some.inj hsame
  exact trimmedValue_of_read? (read?_trimBy_spaceless hmarks hread)

section Trimmed

variable {operand : Text} (hoperand : IsTrimmedBy isBlank operand)

include hoperand

/-- An operand that is classified by the digits of an address is written with digits, and with
spaces between them. -/
theorem exists_digits
    {count : Nat} (hstart : startsWithAddress count (normalize operand) = true) :
    ∃ tail digits rest : Text,
      operand = '$' :: tail ∧
      tail.spaceless = digits ++ rest ∧
      digits.length = count ∧
      ∀ c ∈ digits, isDigit c = true := by
  obtain ⟨normal, hnormal, hlength, hdigits⟩ := startsWithAddress_cons hstart
  have hchars := isAddressChar_of_mem_take hstart
  rw [normalize_of_isTrimmedBy hoperand] at hnormal hchars
  have hlower := map_toLower_take_spaceless fun d hd => (hchars d hd).toNat_lt
  obtain ⟨tail, rfl⟩ := exists_dollar_cons hoperand hstart
  rw [← Text.lower, hnormal, spaceless_cons_of_ne (by decide), List.take_succ_cons,
    List.take_succ_cons, List.map_cons] at hlower
  have hsame := (List.cons.inj hlower).2
  refine ⟨tail, (spaceless tail).take count, (spaceless tail).drop count, rfl,
    (List.take_append_drop count _).symm, ?_, ?_⟩
  · have hsameLength := congrArg List.length hsame
    rw [List.length_map, hlength] at hsameLength
    exact hsameLength
  · intro c hc
    apply isDigit_of_toLower
    apply hdigits
    rw [← hsame]
    exact List.mem_map_of_mem hc

theorem exists_pointer_cons
    {rest : Text} {number : Int} (hspaceless : operand.spaceless = '(' :: '$' :: rest)
    (hread : read? (operand.slice 2 4) = some number) :
    ∃ tail, operand = ['(', '$'] ++ tail ∧ spaceless tail = rest := by
  obtain ⟨inner, rfl, hinner⟩ := hoperand.exists_cons_of_spaceless hspaceless
  cases inner with
  | nil => simp [spaceless] at hinner
  | cons c tail =>
      change read? (tail.take 2) = some number at hread
      by_cases hc : c = ' '
      · -- The mark is among the two characters, or they are spaces.
        rw [hc, spaceless_space_cons] at hinner
        rw [read?_take_of_mark (by decide) hinner 2] at hread
        contradiction
      · rw [spaceless_cons_of_ne hc] at hinner
        obtain ⟨rfl, htail⟩ := List.cons.inj hinner
        exact ⟨tail, rfl, htail⟩

end Trimmed

end Operand

/-! ## Reading with and without spaces -/

namespace AddressingMode

open Hexadecimal Operand

/-- The positions from which and up to which a mode cuts its bytes out of an operand, the lower
byte first. -/
def slices : AddressingMode → List (Nat × Nat)
  | zeroPageX => [(1, 3)]
  | absolute | absoluteX | absoluteY => [(3, 5), (1, 3)]
  | indirectX | indirectY => [(2, 4)]
  | accumulator | implied | relative | immediate | zeroPage | zeroPageY | indirect => []

/-- Both entries of an operand are read in a mode. -/
def Reads (mode : AddressingMode) (operand : Text) (low high : Option Entry) : Prop :=
  mode.lowEntry (some operand) = .ok low ∧ mode.highEntry (some operand) = .ok high

/-- What is read from an operand, if it is read, is what is read from it without its spaces. -/
def ReadsAlike (mode : AddressingMode) (operand : Text) : Prop :=
  ∀ low high, mode.Reads operand low high → mode.Reads operand.spaceless low high

/-- Spaces do not matter to a slice: there are none up to its end, or its digits write zero, where
one digit gives the same number as two. -/
def KeepsSlice (operand : Text) (slice : Nat × Nat) : Prop :=
  ' ' ∉ operand.take slice.2 ∨ read? (operand.spaceless.slice slice.1 slice.2) = some 0

instance (operand : Text) (slice : Nat × Nat) : Decidable (KeepsSlice operand slice) :=
  inferInstanceAs (Decidable (_ ∨ _))

theorem IsAbsolute.slices_eq {mode : AddressingMode} (hmode : mode.IsAbsolute) :
    mode.slices = [(3, 5), (1, 3)] := by
  rcases hmode with rfl | rfl | rfl <;> rfl

theorem IsPointer.slices_eq {mode : AddressingMode} (hmode : mode.IsPointer) :
    mode.slices = [(2, 4)] := by
  rcases hmode with rfl | rfl <;> rfl

theorem reads_iff_of_slice
    {mode : AddressingMode} {slice : Nat × Nat} (hslices : mode.slices = [slice])
    (operand : Text) (low high : Option Entry) :
    mode.Reads operand low high ↔
      ∃ number, read? (operand.slice slice.1 slice.2) = some number ∧
        low = some (.value number) ∧ high = none := by
  have hentries : mode.lowEntry (some operand) = slicedValue slice.1 slice.2 (some operand) ∧
      mode.highEntry (some operand) = .ok none := by
    cases mode <;> simp only [slices, List.cons.injEq, reduceCtorEq, and_true, and_false] at hslices
    case zeroPageX | indirectX | indirectY =>
      subst hslices
      exact ⟨rfl, rfl⟩
  rw [Reads, hentries.1, hentries.2, slicedValue_eq_ok_iff, Except.ok.injEq]
  constructor
  · rintro ⟨⟨number, hread, hlow⟩, hhigh⟩
    exact ⟨number, hread, hlow, hhigh.symm⟩
  · rintro ⟨number, hread, hlow, hhigh⟩
    exact ⟨⟨number, hread, hlow⟩, hhigh.symm⟩

theorem IsAbsolute.reads_iff
    {mode : AddressingMode} (hmode : mode.IsAbsolute) (operand : Text) (low high : Option Entry) :
    mode.Reads operand low high ↔
      ∃ lowNumber highNumber,
        read? (operand.slice 3 5) = some lowNumber ∧
        read? (operand.slice 1 3) = some highNumber ∧
        low = some (.value lowNumber) ∧ high = some (.value highNumber) := by
  have hentries : mode.lowEntry (some operand) = slicedValue 3 5 (some operand) ∧
      mode.highEntry (some operand) = slicedValue 1 3 (some operand) := by
    rcases hmode with rfl | rfl | rfl <;> exact ⟨rfl, rfl⟩
  rw [Reads, hentries.1, hentries.2, slicedValue_eq_ok_iff, slicedValue_eq_ok_iff]
  constructor
  · rintro ⟨⟨lowNumber, hlowRead, hlow⟩, highNumber, hhighRead, hhigh⟩
    exact ⟨lowNumber, highNumber, hlowRead, hhighRead, hlow, hhigh⟩
  · rintro ⟨lowNumber, highNumber, hlowRead, hhighRead, hlow, hhigh⟩
    exact ⟨⟨lowNumber, hlowRead, hlow⟩, highNumber, hhighRead, hhigh⟩

theorem readsAlike_of_not_mem
    {mode : AddressingMode} {operand : Text} (hnumeric : mode.IsNumeric)
    (hclean : ∀ slice ∈ mode.slices, ' ' ∉ operand.take slice.2) :
    mode.ReadsAlike operand := by
  have hone : ∀ slice, mode.slices = [slice] → mode.ReadsAlike operand := by
    intro slice hslices low high hreads
    rw [reads_iff_of_slice hslices] at hreads ⊢
    rw [slice_spaceless (hclean slice (by simp [hslices]))]
    exact hreads
  rcases hnumeric with rfl | rfl | rfl | habsolute | hpointer
  · intro low high hreads
    exact ⟨trimmedValue_spaceless (forall_mem_of_all rfl) hreads.1, hreads.2⟩
  · intro low high hreads
    exact ⟨trimmedValue_spaceless (forall_mem_of_all rfl) hreads.1, hreads.2⟩
  · exact hone (1, 3) rfl
  · intro low high hreads
    rw [habsolute.slices_eq] at hclean
    rw [habsolute.reads_iff] at hreads ⊢
    rw [slice_spaceless (hclean (3, 5) (by simp)), slice_spaceless (hclean (1, 3) (by simp))]
    exact hreads
  · exact hone (2, 4) hpointer.slices_eq

/-- A mode that cuts out one byte, and an operand that has two digits there apart from spaces. -/
theorem reads_spaceless_iff_of_slice
    {mode : AddressingMode} {lead text rest : Text} {first second : Char} {low high : Option Entry}
    (hslices : mode.slices = [(lead.length, lead.length + 2)]) (hlead : ' ' ∉ lead)
    (hfirst : isDigit first = true) (hsecond : isDigit second = true)
    (htext : text.spaceless = first :: second :: rest)
    (hreads : mode.Reads (lead ++ text) low high) :
    mode.Reads (spaceless (lead ++ text)) low high ↔
      ∀ slice ∈ mode.slices, KeepsSlice (lead ++ text) slice := by
  obtain ⟨number, hread, rfl, rfl⟩ := (reads_iff_of_slice hslices _ low high).mp hreads
  rw [reads_iff_of_slice hslices, hslices, List.forall_mem_singleton, KeepsSlice,
    ← read?_slice_spaceless_iff hlead hfirst hsecond htext hread]
  simp

theorem IsAbsolute.reads_spaceless_iff
    {mode : AddressingMode} {text rest : Text} {first second third fourth : Char}
    {low high : Option Entry} (hmode : mode.IsAbsolute)
    (hdigits : ∀ c ∈ [first, second, third, fourth], isDigit c = true)
    (htext : text.spaceless = first :: second :: third :: fourth :: rest)
    (hreads : mode.Reads ('$' :: text) low high) :
    mode.Reads (spaceless ('$' :: text)) low high ↔
      ∀ slice ∈ mode.slices, KeepsSlice ('$' :: text) slice := by
  obtain ⟨lowNumber, highNumber, hlow, hhigh, rfl, rfl⟩ := (hmode.reads_iff _ low high).mp hreads
  rw [hmode.reads_iff, hmode.slices_eq, List.forall_mem_cons, List.forall_mem_singleton,
    KeepsSlice, KeepsSlice, ← read?_address_spaceless_iff hdigits htext hlow hhigh]
  simp

/-- Operands of the documented forms are read like their text without spaces exactly if spaces do
not matter to their slices. -/
theorem reads_spaceless_iff
    {mode : AddressingMode} {operand : Text} {low high : Option Entry}
    (hoperand : IsTrimmedBy isBlank operand) (hmode : Operand.mode (some operand) = .ok mode)
    (hnumeric : mode.IsNumeric) (hdocumented : mode.IsPointer → StartsWithPointer operand.spaceless)
    (hreads : mode.Reads operand low high) :
    mode.Reads operand.spaceless low high ↔ ∀ slice ∈ mode.slices, KeepsSlice operand slice := by
  have hclass := isClassified_of_modeOfNormal hmode
  have hnone (hslices : mode.slices = []) :
      mode.Reads operand.spaceless low high ↔ ∀ slice ∈ mode.slices, KeepsSlice operand slice := by
    have halike : mode.ReadsAlike operand := readsAlike_of_not_mem hnumeric (by simp [hslices])
    simp [hslices, halike low high hreads]
  rcases hnumeric with rfl | rfl | rfl | habsolute | hpointer
  · exact hnone rfl
  · exact hnone rfl
  · obtain ⟨tail, digits, rest, rfl, htail, hlength, hdigits⟩ :=
      exists_digits hoperand (hclass.zeroPage (.inr rfl)).1
    obtain ⟨first, second, rfl⟩ := List.length_eq_two.mp hlength
    exact @reads_spaceless_iff_of_slice .zeroPageX ['$'] tail rest first second low high rfl
      (by decide) (hdigits first (by simp)) (hdigits second (by simp)) htail hreads
  · obtain ⟨tail, digits, rest, rfl, htail, hlength, hdigits⟩ :=
      exists_digits hoperand (hclass.absolute habsolute).1
    match digits, hlength with
    | [first, second, third, fourth], _ =>
        exact habsolute.reads_spaceless_iff hdigits htail hreads
  · obtain ⟨first, second, rest, hspaceless, hfirst, hsecond⟩ := hdocumented hpointer
    obtain ⟨number, hread, -⟩ := (reads_iff_of_slice hpointer.slices_eq _ low high).mp hreads
    obtain ⟨tail, rfl, htail⟩ := exists_pointer_cons hoperand hspaceless hread
    exact reads_spaceless_iff_of_slice hpointer.slices_eq (by decide) hfirst hsecond htail hreads

/-- The bytes of an operand are read like those of the text it was classified by if there is no
space up to the end of the slices its mode cuts out, and so for every operand whose marks are
trimmed instead. On the documented forms of operands this is exact: where the bytes are read at all,
they are read alike if and only if each slice that a space comes before writes zero. -/
theorem readsAlike_iff_keepsSlices
    {mode : AddressingMode} {operand : Text}
    (hoperand : IsTrimmedBy isBlank operand) (hmode : Operand.mode (some operand) = .ok mode)
    (hnumeric : mode.IsNumeric) :
    ((∀ slice ∈ mode.slices, ' ' ∉ operand.take slice.2) → mode.ReadsAlike operand) ∧
      ((mode.IsPointer → StartsWithPointer operand.spaceless) →
        (mode.ReadsAlike operand ↔
          ∀ low high, mode.Reads operand low high →
            ∀ slice ∈ mode.slices, KeepsSlice operand slice)) := by
  refine ⟨readsAlike_of_not_mem hnumeric, fun hdocumented => ?_⟩
  unfold ReadsAlike
  refine forall_congr' fun low => forall_congr' fun high => ?_
  exact imp_congr_right fun hreads =>
    reads_spaceless_iff hoperand hmode hnumeric hdocumented hreads

/-- The space in `$44 00` comes before digits that write zero. The one in `($ 34),y` pushes the `4`
out of the two characters that are read. -/
theorem readsAlike_iff_keepsSlices_spaced :
    absolute.ReadsAlike "$44 00".toList ∧ ¬indirectY.ReadsAlike "($ 34),y".toList := by
  have habsolute : IsTrimmedBy isBlank "$44 00".toList := isTrimmedBy_trim "$44 00".toList
  have hpointer : IsTrimmedBy isBlank "($ 34),y".toList := isTrimmedBy_trim "($ 34),y".toList
  constructor
  · have hexact := (readsAlike_iff_keepsSlices habsolute rfl
      (.inr (.inr (.inr (.inl (.inl rfl)))))).2 (by simp [IsPointer])
    exact hexact.mpr fun _ _ _ => by decide
  · have hexact := (readsAlike_iff_keepsSlices hpointer rfl
      (.inr (.inr (.inr (.inr (.inr rfl)))))).2 fun _ => ⟨'3', '4', _, rfl, rfl, rfl⟩
    intro halike
    exact absurd (hexact.mp halike (some (.value 3)) none ⟨rfl, rfl⟩) (by decide)

/-- The operand `$ 34,x` is classified as `$34,x` and read as the number 3. -/
theorem spaced_zeroPageX_misread :
    ¬∀ (operand : Text) (mode : AddressingMode),
      IsTrimmedBy isBlank operand → Operand.mode (some operand) = .ok mode → mode.IsNumeric →
        mode.ReadsAlike operand := by
  intro hclaim
  have halike : zeroPageX.ReadsAlike "$ 34,x".toList :=
    hclaim _ _ (isTrimmedBy_trim "$ 34,x".toList) rfl (.inr (.inr (.inl rfl)))
  have hreads : zeroPageX.Reads "$34,x".toList (some (.value 3)) none := halike _ _ ⟨rfl, rfl⟩
  exact absurd hreads.1 (by decide)

end AddressingMode

end Assembler6502
