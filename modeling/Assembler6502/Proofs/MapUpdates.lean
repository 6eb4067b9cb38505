import Assembler6502.MemoryMap
import Assembler6502.Proofs.CodeLines

/-!
# Updates by memory maps

A memory map is applied line by line. What a line does is decided by the line and the number of
cells alone, and no line changes that number. So the last line that writes to a cell decides what it
holds, a second application writes the same values over themselves, and a map that fails has done
exactly what its lines before the wrong one do.
-/

namespace Assembler6502

/-! ## Setting a cell -/

namespace Image

/-- No cell of an image with this number of cells has the address. -/
def IsOutside (size : Nat) (address : Int) : Prop :=
  address < -size ∨ size ≤ address ∨ fitsWord address = false

/-- Addresses that are too wide lie outside anyway, unless there are more cells than a machine
word counts. -/
theorem isOutside_iff {size : Nat} (hsize : size ≤ 0x8000000000000000) (address : Int) :
    IsOutside size address ↔ address < -size ∨ size ≤ address := by
  simp only [IsOutside, fitsWord, Bool.and_eq_false_iff, decide_eq_false_iff_not]
  omega

def outsideProblem (address : Int) : Problem :=
  if fitsWord address then .addressRange else .addressWidth

/-- The address names the cell, from the start of the image or from its end. -/
def IsAddressOf (size cell : Nat) (address : Int) : Prop :=
  address = cell ∨ address = (cell : Int) - size

/-- Setting a cell fails exactly if the address lies outside. Otherwise it changes the one cell that
has the address. -/
theorem setCell_cases (image : Image) (address value : Int) :
    (IsOutside image.length address ∧
        image.setCell address value = .error (outsideProblem address)) ∨
      (¬IsOutside image.length address ∧
        ∃ cell < image.length,
          image.setCell address value = .ok (image.set cell value) ∧
          ∀ other < image.length, IsAddressOf image.length other address ↔ other = cell) := by
  unfold setCell outsideProblem
  cases hwidth : fitsWord address with
  | false => exact .inl ⟨.inr (.inr hwidth), rfl⟩
  | true =>
      simp only [Bool.not_true, Bool.false_eq_true, if_false, if_true]
      generalize hindex : (if address < 0 then address + image.length else address) = index
      by_cases hinside : 0 ≤ index ∧ index < image.length
      · refine .inr ⟨?_, index.toNat, by omega, if_pos hinside, ?_⟩
        · simp only [IsOutside, hwidth, Bool.true_eq_false, or_false]
          split at hindex <;> omega
        · intro other hother
          unfold IsAddressOf
          split at hindex <;> omega
      · refine .inl ⟨?_, if_neg hinside⟩
        unfold IsOutside
        split at hindex <;> omega

end Image

namespace MemoryMap

/-! ## What is on a line -/

def IsComment (line : Text) : Prop :=
  line.head? = some '#'

def number? (word : Text) : Option Int :=
  Hexadecimal.read? (word.trimBy (· == '$'))

/-- The line has two words, an address and a value in base 16. -/
structure IsPatch (line : Text) (address value : Int) : Prop where
  notComment : ¬IsComment line
  words : ∃ first second,
    (body line).words = [first, second] ∧ number? first = some address ∧ number? second = some value

/-- What is wrong with a line, whatever image it is applied to: it has not two words, or one of them
is not a number in base 16. -/
inductive IsUnreadable (line : Text) : Problem → Prop
  | words (hline : ¬IsComment line) (hcount : (body line).words.length ≠ 2) :
      IsUnreadable line (.wordCount (body line).words.length)
  | address {first second : Text} (hline : ¬IsComment line)
      (hwords : (body line).words = [first, second]) (hfirst : number? first = none) :
      IsUnreadable line (.numeral (first.trimBy (· == '$')))
  | value {first second : Text} {address : Int} (hline : ¬IsComment line)
      (hwords : (body line).words = [first, second]) (hfirst : number? first = some address)
      (hsecond : number? second = none) :
      IsUnreadable line (.numeral (second.trimBy (· == '$')))

theorem isPrefixOf_iff (line : Text) : ['#'].isPrefixOf line = true ↔ IsComment line := by
  cases line with
  | nil => simp [IsComment]
  | cons c rest =>
      rw [IsComment, List.head?_cons, Option.some.injEq, @eq_comm _ c]
      simp

theorem readMarked_of_number? {word : Text} {number : Int} (hword : number? word = some number) :
    readMarked word = .ok number := by
  unfold number? at hword
  simp [readMarked, Operand.readNumeral, hword]

theorem readMarked_of_number?_none {word : Text} (hword : number? word = none) :
    readMarked word = .error (.numeral (word.trimBy (· == '$'))) := by
  unfold number? at hword
  simp [readMarked, Operand.readNumeral, hword]

theorem readLine_of_isComment {line : Text} (hline : IsComment line) :
    readLine line = .ok none := by
  rw [readLine, if_pos ((isPrefixOf_iff line).mpr hline)]

theorem IsPatch.readLine_eq
    {line : Text} {address value : Int} (hpatch : IsPatch line address value) :
    readLine line = .ok (some (address, value)) := by
  obtain ⟨first, second, hwords, hfirst, hsecond⟩ := hpatch.words
  rw [readLine, if_neg (mt (isPrefixOf_iff line).mp hpatch.notComment), hwords]
  simp [readMarked_of_number? hfirst, readMarked_of_number? hsecond, Except.map]

theorem IsUnreadable.readLine_eq
    {line : Text} {problem : Problem} (hline : IsUnreadable line problem) :
    readLine line = .error problem := by
  cases hline with
  | words hline hcount =>
      rw [readLine, if_neg (mt (isPrefixOf_iff line).mp hline)]
      split
      next hwords => simp [hwords] at hcount
      next => rfl
  | address hline hwords hfirst =>
      rw [readLine, if_neg (mt (isPrefixOf_iff line).mp hline), hwords]
      simp [readMarked_of_number?_none hfirst]
  | value hline hwords hfirst hsecond =>
      rw [readLine, if_neg (mt (isPrefixOf_iff line).mp hline), hwords]
      simp [readMarked_of_number? hfirst, readMarked_of_number?_none hsecond, Except.map]

theorem line_cases (line : Text) :
    IsComment line ∨ (∃ address value, IsPatch line address value) ∨
      ∃ problem, IsUnreadable line problem := by
  by_cases hline : IsComment line
  · exact .inl hline
  by_cases hcount : (body line).words.length = 2
  · obtain ⟨first, second, hwords⟩ := List.length_eq_two.mp hcount
    cases hfirst : number? first with
    | none => exact .inr (.inr ⟨_, .address hline hwords hfirst⟩)
    | some address =>
        cases hsecond : number? second with
        | none => exact .inr (.inr ⟨_, .value hline hwords hfirst hsecond⟩)
        | some value =>
            exact .inr (.inl ⟨address, value, hline, first, second, hwords, hfirst, hsecond⟩)
  · exact .inr (.inr ⟨_, .words hline hcount⟩)

theorem IsUnreadable.not_isComment
    {line : Text} {problem : Problem} (hline : IsUnreadable line problem) : ¬IsComment line := by
  cases hline with
  | words hline _ => exact hline
  | address hline _ _ => exact hline
  | value hline _ _ _ => exact hline

theorem IsUnreadable.not_isPatch
    {line : Text} {problem : Problem} (hline : IsUnreadable line problem) (address value : Int) :
    ¬IsPatch line address value := by
  intro hpatch
  have hread := hline.readLine_eq
  rw [hpatch.readLine_eq] at hread
  contradiction

theorem IsPatch.unique
    {line : Text} {address value otherAddress otherValue : Int}
    (hpatch : IsPatch line address value) (hother : IsPatch line otherAddress otherValue) :
    address = otherAddress ∧ value = otherValue := by
  have hsame := hpatch.readLine_eq.symm.trans hother.readLine_eq
  rw [Except.ok.injEq, Option.some.injEq, Prod.mk.injEq] at hsame
  exact hsame

/-! ## Applying a line -/

/-- A line writes a value to a cell of an image with some number of cells. -/
def Writes (size : Nat) (line : Text) (cell : Nat) (value : Int) : Prop :=
  ∃ address, IsPatch line address value ∧ Image.IsAddressOf size cell address

/-- An image with some number of cells cannot be changed as a line says. -/
inductive IsRefused (size : Nat) (line : Text) : Problem → Prop
  | unreadable {problem : Problem} (hline : IsUnreadable line problem) :
      IsRefused size line problem
  | outside {address value : Int} (hpatch : IsPatch line address value)
      (houtside : Image.IsOutside size address) :
      IsRefused size line (Image.outsideProblem address)

/-- The last of some lines that writes to a cell writes this value. -/
def IsLastWrite
    (writes : Text → Nat → Int → Prop) (lines : List Text) (cell : Nat) (value : Int) : Prop :=
  ∃ before line after,
    lines = before ++ line :: after ∧ writes line cell value ∧
    ∀ later ∈ after, ∀ other, ¬writes later cell other

/-- What lines make of an image: a cell holds the value that was written last, and its old value if
no line writes to it. -/
structure Updates
    (writes : Text → Nat → Int → Prop) (lines : List Text) (image changed : Image) : Prop where
  length : changed.length = image.length
  last : ∀ cell value, cell < image.length → IsLastWrite writes lines cell value →
    changed[cell]? = some value
  kept : ∀ cell, (∀ line ∈ lines, ∀ value, ¬writes line cell value) → changed[cell]? = image[cell]?

theorem applyLine_cases (image : Image) (line : Text) :
    (∃ problem, applyLine image line = .error problem ∧ IsRefused image.length line problem) ∨
      ∃ changed,
        applyLine image line = .ok changed ∧
        (∀ problem, ¬IsRefused image.length line problem) ∧
        Updates (Writes image.length) [line] image changed := by
  have hsingle : ∀ {cell : Nat} {value : Int},
      IsLastWrite (Writes image.length) [line] cell value →
        Writes image.length line cell value := by
    rintro cell value ⟨before, found, after, hlines, hwrites, -⟩
    have hmem : found ∈ [line] := by simp [hlines]
    rwa [List.mem_singleton.mp hmem] at hwrites
  rcases line_cases line with hcomment | ⟨address, value, hpatch⟩ | ⟨problem, hline⟩
  · have happly : applyLine image line = .ok image := by
      simp only [applyLine, readLine_of_isComment hcomment]
    refine .inr ⟨image, happly, ?_, rfl, ?_, fun _ _ => rfl⟩
    · rintro problem (hline | ⟨hpatch, -⟩)
      · exact hline.not_isComment hcomment
      · exact hpatch.notComment hcomment
    · intro cell value _ hlast
      obtain ⟨address, hpatch, -⟩ := hsingle hlast
      exact absurd hcomment hpatch.notComment
  · have happly : applyLine image line = image.setCell address value := by
      simp only [applyLine, hpatch.readLine_eq]
    rcases image.setCell_cases address value with
      ⟨houtside, hset⟩ | ⟨hinside, cell, hcell, hset, haddress⟩
    · exact .inl ⟨_, happly.trans hset, .outside hpatch houtside⟩
    · refine .inr ⟨image.set cell value, happly.trans hset, ?_, List.length_set, ?_, ?_⟩
      · rintro problem (hline | ⟨hother, houtside⟩)
        · exact hline.not_isPatch address value hpatch
        · rw [← (hpatch.unique hother).1] at houtside
          exact hinside houtside
      · intro other number hother hlast
        obtain ⟨found, hfound, hnames⟩ := hsingle hlast
        obtain ⟨rfl, rfl⟩ := hpatch.unique hfound
        rw [(haddress other hother).mp hnames, List.getElem?_set_self hcell]
      · intro other hnone
        have hne : cell ≠ other := by
          rintro rfl
          exact hnone line (by simp) value ⟨address, hpatch, (haddress cell hcell).mpr rfl⟩
        exact List.getElem?_set_ne hne
  · exact .inl ⟨problem, by simp only [applyLine, hline.readLine_eq], .unreadable hline⟩

/-! ## Applying lines -/

section Updates

variable {writes : Text → Nat → Int → Prop}

theorem Updates.nil (image : Image) : Updates writes [] image image := by
  refine ⟨rfl, ?_, fun _ _ => rfl⟩
  rintro cell value - ⟨before, line, after, hlines, -⟩
  simp at hlines

theorem Updates.append
    {first second : List Text} {image middle changed : Image}
    (hfirst : Updates writes first image middle) (hsecond : Updates writes second middle changed) :
    Updates writes (first ++ second) image changed := by
  refine ⟨hsecond.length.trans hfirst.length, ?_, ?_⟩
  · rintro cell value hcell ⟨before, line, after, hlines, hwrites, hafter⟩
    have hmiddle : cell < middle.length := by rw [hfirst.length]; exact hcell
    rcases List.append_eq_append_iff.mp hlines with ⟨between, -, hsplit⟩ | ⟨between, hsplit, hrest⟩
    · exact hsecond.last cell value hmiddle ⟨between, line, after, hsplit, hwrites, hafter⟩
    · cases between with
      | nil => exact hsecond.last cell value hmiddle ⟨[], line, after, hrest.symm, hwrites, hafter⟩
      | cons found between =>
          -- The last write is one of the first lines, and the second lines leave the cell alone.
          obtain ⟨rfl, rfl⟩ := List.cons.inj hrest
          obtain ⟨hbetween, hnone⟩ := List.forall_mem_append.mp hafter
          rw [hsecond.kept cell hnone]
          exact hfirst.last cell value hcell ⟨before, line, between, hsplit, hwrites, hbetween⟩
  · intro cell hnone
    obtain ⟨hnoneFirst, hnoneSecond⟩ := List.forall_mem_append.mp hnone
    rw [hsecond.kept cell hnoneSecond, hfirst.kept cell hnoneFirst]

theorem exists_isLastWrite
    {lines : List Text} {cell : Nat} (hwritten : ∃ line ∈ lines, ∃ value, writes line cell value) :
    ∃ value, IsLastWrite writes lines cell value := by
  induction lines with
  | nil => simp at hwritten
  | cons line rest ih =>
      by_cases hlater : ∃ other ∈ rest, ∃ value, writes other cell value
      · obtain ⟨value, before, found, after, rfl, hwrites, hafter⟩ := ih hlater
        exact ⟨value, line :: before, found, after, rfl, hwrites, hafter⟩
      · obtain ⟨found, hfound, value, hwrites⟩ := hwritten
        push Not at hlater
        rcases List.mem_cons.mp hfound with rfl | hrest
        · exact ⟨value, [], found, rest, rfl, hwrites, hlater⟩
        · exact absurd hwrites (hlater found hrest value)

/-- The same lines do not change a second time what they have changed. -/
theorem Updates.again
    {lines : List Text} {image changed again : Image}
    (hchanged : Updates writes lines image changed) (hagain : Updates writes lines changed again) :
    again = changed := by
  apply List.ext_getElem?
  intro cell
  by_cases hcell : cell < image.length
  · by_cases hwritten : ∃ line ∈ lines, ∃ value, writes line cell value
    · obtain ⟨value, hlast⟩ := exists_isLastWrite hwritten
      rw [hchanged.last cell value hcell hlast,
        hagain.last cell value (by rw [hchanged.length]; exact hcell) hlast]
    · push Not at hwritten
      exact hagain.kept cell hwritten
  · have hlength := hchanged.length
    rw [List.getElem?_eq_none (by rw [hagain.length]; omega), List.getElem?_eq_none (by omega)]

theorem Updates.congr
    {others : Text → Nat → Int → Prop} {lines : List Text} {image changed : Image}
    (hchanged : Updates writes lines image changed)
    (hsame : ∀ line ∈ lines, ∀ cell < image.length, ∀ value,
      writes line cell value ↔ others line cell value) :
    Updates others lines image changed := by
  refine ⟨hchanged.length, ?_, ?_⟩
  · rintro cell value hcell ⟨before, line, after, rfl, hwrites, hafter⟩
    apply hchanged.last cell value hcell
    refine ⟨before, line, after, rfl, (hsame line (by simp) cell hcell value).mpr hwrites, ?_⟩
    intro later hlater other hother
    exact hafter later hlater other ((hsame later (by simp [hlater]) cell hcell other).mp hother)
  · intro cell hnone
    by_cases hcell : cell < image.length
    · apply hchanged.kept
      intro line hline value hwrites
      exact hnone line hline value ((hsame line hline cell hcell value).mp hwrites)
    · have hlength := hchanged.length
      rw [List.getElem?_eq_none (by omega), List.getElem?_eq_none (by omega)]

end Updates

theorem applyLines_cons_of_ok
    {image changed : Image} {line : Text} (happly : applyLine image line = .ok changed)
    (rest : List Text) :
    applyLines image (line :: rest) = applyLines changed rest := by
  simp only [applyLines, happly]

/-- Lines are applied to the end, and update the image, or up to the first one that is refused. -/
theorem applyLines_cases (image : Image) (lines : List Text) :
    (∃ changed,
        applyLines image lines = (changed, .ok ()) ∧
        (∀ line ∈ lines, ∀ problem, ¬IsRefused image.length line problem) ∧
        Updates (Writes image.length) lines image changed) ∨
      ∃ before line after changed problem,
        lines = before ++ line :: after ∧
        applyLines image lines = (changed, .error problem) ∧
        applyLines image before = (changed, .ok ()) ∧
        IsRefused image.length line problem := by
  induction lines generalizing image with
  | nil => exact .inl ⟨image, rfl, by simp, .nil image⟩
  | cons line rest ih =>
      rcases applyLine_cases image line with
        ⟨problem, happly, hrefused⟩ | ⟨middle, happly, hline, hupdates⟩
      · exact .inr ⟨[], line, rest, image, problem, rfl, by simp only [applyLines, happly], rfl,
          hrefused⟩
      · have hrest := ih middle
        rw [hupdates.length] at hrest
        rw [applyLines_cons_of_ok happly]
        rcases hrest with ⟨changed, hchanged, hlines, hlater⟩ |
          ⟨before, found, after, changed, problem, rfl, hchanged, hbefore, hrefused⟩
        · exact .inl ⟨changed, hchanged, List.forall_mem_cons.mpr ⟨hline, hlines⟩,
            hupdates.append hlater⟩
        · refine .inr ⟨line :: before, found, after, changed, problem, rfl, hchanged, ?_, hrefused⟩
          rw [applyLines_cons_of_ok happly, hbefore]

theorem applyLines_eq_ok_iff (image : Image) (lines : List Text) :
    (applyLines image lines).2 = .ok () ↔
      ∀ line ∈ lines, ∀ problem, ¬IsRefused image.length line problem := by
  rcases applyLines_cases image lines with
    ⟨changed, hchanged, hlines, -⟩ |
      ⟨before, line, after, changed, problem, rfl, hchanged, -, hrefused⟩
  · simp only [hchanged, true_iff]
    exact hlines
  · simp only [hchanged, reduceCtorEq, false_iff]
    intro hlines
    exact hlines line (by simp) problem hrefused

theorem updates_of_applyLines
    {image changed : Image} {lines : List Text}
    (happly : applyLines image lines = (changed, .ok ())) :
    Updates (Writes image.length) lines image changed := by
  rcases applyLines_cases image lines with
    ⟨found, hfound, -, hupdates⟩ | ⟨-, -, -, found, problem, -, hfound, -⟩
  · rw [happly] at hfound
    rw [(Prod.mk.inj hfound).1]
    exact hupdates
  · rw [happly] at hfound
    exact absurd (Prod.mk.inj hfound).2 (by simp)

theorem applyLines_again
    {image changed : Image} {lines : List Text}
    (happly : applyLines image lines = (changed, .ok ())) :
    applyLines changed lines = (changed, .ok ()) := by
  have hupdates := updates_of_applyLines happly
  have hfine := (applyLines_eq_ok_iff image lines).mp (by rw [happly])
  rw [← hupdates.length] at hfine
  rcases hresult : applyLines changed lines with ⟨again, result⟩
  obtain rfl : result = .ok () := by
    have hok := (applyLines_eq_ok_iff changed lines).mpr hfine
    rwa [hresult] at hok
  have hagain := updates_of_applyLines hresult
  rw [hupdates.length] at hagain
  rw [hupdates.again hagain]

/-- Applying a memory map to any list of cells. The number of cells never changes. A map that is
applied to its end leaves in each cell what was written there last, and leaves it so when it is
applied again. A map that fails has done what the lines before the refused one do alone. -/
theorem applyFile_updates (image : Image) (content : Text) :
    (applyFile image content).1.length = image.length ∧
    ((applyFile image content).2 = .ok () ↔
      ∀ line ∈ content.lines, ∀ problem, ¬IsRefused image.length line problem) ∧
    (∀ changed, applyFile image content = (changed, .ok ()) →
      Updates (Writes image.length) content.lines image changed ∧
      applyFile changed content = (changed, .ok ())) ∧
    (∀ changed problem, applyFile image content = (changed, .error problem) →
      ∃ before line after,
        content.lines = before ++ line :: after ∧
        IsRefused image.length line problem ∧
        applyFile image before.flatten = (changed, .ok ())) ∧
    (image.length ≤ 0x8000000000000000 →
      ∀ address, Image.IsOutside image.length address ↔
        address < -image.length ∨ image.length ≤ address) := by
  unfold applyFile
  refine ⟨?_, applyLines_eq_ok_iff image content.lines, ?_, ?_,
    fun hsize => Image.isOutside_iff hsize⟩
  · rcases applyLines_cases image content.lines with
      ⟨changed, hchanged, -, hupdates⟩ | ⟨before, -, -, changed, problem, -, hchanged, hbefore, -⟩
    · rw [hchanged]
      exact hupdates.length
    · rw [hchanged]
      exact (updates_of_applyLines hbefore).length
  · intro changed happly
    exact ⟨updates_of_applyLines happly, applyLines_again happly⟩
  · intro changed problem happly
    rcases applyLines_cases image content.lines with
      ⟨found, hfound, -⟩ | ⟨before, line, after, found, cause, hlines, hfound, hbefore, hrefused⟩
    · rw [happly] at hfound
      exact absurd (Prod.mk.inj hfound).2 (by simp)
    · rw [happly, Prod.mk.injEq, Except.error.injEq] at hfound
      obtain ⟨rfl, rfl⟩ := hfound
      refine ⟨before, line, after, hlines, hrefused, ?_⟩
      rw [Text.lines_flatten_of_append hlines, hbefore]

end MemoryMap

end Assembler6502
