import Assembler6502.Proofs.MapUpdates
import Assembler6502.Proofs.Numerals

/-!
# Documented memory maps

A documented line of a memory map is a comment, or it assigns a value to an address and may have a
remark behind a number sign. The remark is looked for only in lines that have a semicolon, and in a
documented line that can only be in the remark itself. So exactly the remarks with a semicolon are
left out. Any other remark is taken for further words, and the map fails there.
-/

namespace Assembler6502

namespace MemoryMap

open Text

/-! ## The documented lines -/

/-- Digits in base 16 that write a number, up to a bound. -/
structure IsNumber (bound number : Nat) (text : Text) : Prop
    extends Hexadecimal.IsGroup text where
  value : Hexadecimal.valueFrom 0 text = number
  bound : number ≤ bound

/-- A marked address and a marked value with blanks between them. -/
inductive IsAssignment : Text → Nat → Nat → Prop
  | marked {address value : Nat} {first gap second : Text}
      (hfirst : IsNumber 0xffff address first) (hgap : IsGap gap)
      (hsecond : IsNumber 0xff value second) :
      IsAssignment ('$' :: first ++ gap ++ '$' :: second) address value

/-- A documented line, with the address it names and the value for it. The text of a comment or a
remark reaches to the end of the line. -/
inductive Documents : Text → Option (Nat × Nat) → Prop
  | comment (text : Text) : Documents ('#' :: text) none
  | plain {assignment lineEnd : Text} {address value : Nat}
      (hassignment : IsAssignment assignment address value)
      (hend : lineEnd = [] ∨ lineEnd = ['\n']) :
      Documents (assignment ++ lineEnd) (some (address, value))
  | remarked {assignment gap : Text} {address value : Nat}
      (hassignment : IsAssignment assignment address value) (hgap : IsGap gap) (remark : Text) :
      Documents (assignment ++ gap ++ '#' :: remark) (some (address, value))

def IsDocumented (line : Text) : Prop :=
  ∃ named, Documents line named

def Names (line : Text) (cell : Nat) (value : Int) : Prop :=
  ∃ number : Nat, value = number ∧ Documents line (some (cell, number))

/-- The line has no remark, or has a semicolon, for which the remark is left out. -/
def LeavesOutRemark (line : Text) : Prop :=
  IsComment line ∨ '#' ∉ line ∨ ';' ∈ line

instance (line : Text) : Decidable (LeavesOutRemark line) :=
  inferInstanceAs (Decidable (line.head? = some '#' ∨ '#' ∉ line ∨ ';' ∈ line))

/-! ## Assignments -/

theorem IsNumber.number?_eq
    {bound number : Nat} {digits : Text} (hdigits : IsNumber bound number digits) :
    number? ('$' :: digits) = some (number : Int) := by
  have htrimmed : IsTrimmedBy (· == '$') digits := by
    apply IsTrimmedBy.of_forall
    intro c hc
    have hne : c ≠ '$' := by
      rintro rfl
      exact hdigits.not_mem (by decide) hc
    simpa using hne
  have hmark : trimBy (· == '$') ('$' :: digits) = digits := by
    have hmargin := @trimBy_append_left (· == '$') ['$'] (by simp) digits
    rw [List.singleton_append] at hmargin
    rw [hmargin, htrimmed.trimBy_eq]
  rw [number?, hmark, Hexadecimal.read?_of_isDigit hdigits.digits hdigits.nonempty, hdigits.value]

theorem IsNumber.isBlank_of_mem
    {bound number : Nat} {digits : Text} (hdigits : IsNumber bound number digits) :
    ∀ c ∈ '$' :: digits, isBlank c = false :=
  List.forall_mem_cons.mpr ⟨by decide, fun c hc =>
    Hexadecimal.isBlank_of_isDigit (hdigits.digits c hc)⟩

section Assignment

variable {assignment : Text} {address value : Nat}
  (hassignment : IsAssignment assignment address value)

include hassignment

theorem IsAssignment.isTrimmedBy : IsTrimmedBy isBlank assignment := by
  cases hassignment with
  | marked hfirst hgap hsecond =>
      exact (IsTrimmedBy.of_forall hfirst.isBlank_of_mem).append
        (IsTrimmedBy.of_forall hsecond.isBlank_of_mem) (by simp) (by simp)

theorem IsAssignment.not_mem
    {c : Char} (hdigit : Hexadecimal.isDigit c = false) (hblank : isBlank c = false)
    (hmark : c ≠ '$') :
    c ∉ assignment := by
  cases hassignment with
  | @marked _ _ first gap second hfirst hgap hsecond =>
      have hgapFree : c ∉ gap := by
        intro hmem
        rw [hgap.blank c hmem] at hblank
        contradiction
      simp [hmark, hfirst.not_mem hdigit, hsecond.not_mem hdigit, hgapFree]

theorem IsAssignment.not_isComment (rest : Text) : ¬IsComment (assignment ++ rest) := by
  cases hassignment with
  | marked => simp [IsComment]

/-- An assignment has two words, whatever stands behind the blank that follows it. -/
theorem IsAssignment.exists_words :
    ∃ first second,
      number? first = some (address : Int) ∧ number? second = some (value : Int) ∧
      ∀ rest : Text, (∀ c, rest.head? = some c → isBlank c = true) →
        words (assignment ++ rest) = first :: second :: words rest := by
  cases hassignment with
  | @marked _ _ first gap second hfirst hgap hsecond =>
      refine ⟨'$' :: first, '$' :: second, hfirst.number?_eq, hsecond.number?_eq, ?_⟩
      intro rest hrest
      rw [List.append_assoc, words_gap_append (by simp) hfirst.isBlank_of_mem hgap,
        words_word_append (by simp) hsecond.isBlank_of_mem hrest]

theorem IsAssignment.isPatch
    {line rest : Text} (hline : line = assignment ++ rest) (hbody : body line = assignment) :
    IsPatch line address value := by
  obtain ⟨first, second, hfirst, hsecond, hwords⟩ := hassignment.exists_words
  refine ⟨by rw [hline]; exact hassignment.not_isComment rest, first, second, ?_, hfirst, hsecond⟩
  have hboth := hwords [] (by simp)
  rwa [List.append_nil, ← hbody] at hboth

end Assignment

/-! ## Documented lines are read -/

theorem body_of_not_mem {line : Text} (hline : ';' ∉ line) : body line = line.trim := by
  have hcontains : line.contains ';' = false := by simpa using hline
  rw [body, hcontains]
  rfl

theorem body_of_mem {line : Text} (hline : ';' ∈ line) (hmark : '#' ∈ line) :
    body line = (line.before '#').trim := by
  have hcontains : line.contains ';' = true := by simpa using hline
  have hfound : line.contains '#' = true := by simpa using hmark
  rw [body, hcontains, hfound]
  rfl

theorem Documents.isComment {line : Text} (hline : Documents line none) : IsComment line := by
  cases hline with
  | comment text => rfl

theorem Documents.bounds
    {line : Text} {address value : Nat} (hline : Documents line (some (address, value))) :
    address ≤ 0xffff ∧ value ≤ 0xff := by
  cases hline with
  | plain hassignment _ =>
      cases hassignment with
      | marked hfirst _ hsecond => exact ⟨hfirst.bound, hsecond.bound⟩
  | remarked hassignment _ _ =>
      cases hassignment with
      | marked hfirst _ hsecond => exact ⟨hfirst.bound, hsecond.bound⟩

theorem Documents.isPatch
    {line : Text} {address value : Nat} (hline : Documents line (some (address, value)))
    (hremark : LeavesOutRemark line) :
    IsPatch line address value := by
  cases hline with
  | @plain assignment lineEnd _ _ hassignment hend =>
      have hblank : ∀ c ∈ lineEnd, isBlank c = true := by
        rcases hend with rfl | rfl
        · simp
        · exact forall_mem_of_all rfl
      have hsemicolon : ';' ∉ assignment ++ lineEnd := by
        rw [List.mem_append, not_or]
        exact ⟨hassignment.not_mem (by decide) (by decide) (by decide),
          SourceLine.semicolon_not_mem_of_blank hblank⟩
      apply hassignment.isPatch rfl
      rw [body_of_not_mem hsemicolon, trim, trimBy_append_right hblank,
        hassignment.isTrimmedBy.trimBy_eq]
  | @remarked assignment gap _ _ hassignment hgap remark =>
      have hmark : '#' ∉ assignment ++ gap := by
        rw [List.mem_append, not_or]
        refine ⟨hassignment.not_mem (by decide) (by decide) (by decide), fun hmem => ?_⟩
        exact absurd (hgap.blank '#' hmem) (by decide)
      have hsemicolon : ';' ∈ assignment ++ gap ++ '#' :: remark := by
        rw [List.append_assoc] at hremark ⊢
        rcases hremark with hcomment | hnone | hsemicolon
        · exact absurd hcomment (hassignment.not_isComment _)
        · simp at hnone
        · exact hsemicolon
      apply hassignment.isPatch (List.append_assoc _ _ _)
      rw [body_of_mem hsemicolon (by simp), before_append_mark hmark, trim,
        trimBy_append_right hgap.blank, hassignment.isTrimmedBy.trimBy_eq]

/-- A remark that is not left out is a third word at least. -/
theorem Documents.isUnreadable
    {line : Text} {address value : Nat} (hline : Documents line (some (address, value)))
    (hremark : ¬LeavesOutRemark line) :
    ∃ count, 2 < count ∧ IsUnreadable line (.wordCount count) := by
  unfold LeavesOutRemark at hremark
  push Not at hremark
  obtain ⟨hcomment, hmark, hsemicolon⟩ := hremark
  cases hline with
  | @plain assignment lineEnd _ _ hassignment hend =>
      -- There is no number sign in an assignment or a line end.
      rcases List.mem_append.mp hmark with hmem | hmem
      · exact absurd hmem (hassignment.not_mem (by decide) (by decide) (by decide))
      · rcases hend with rfl | rfl
        · simp at hmem
        · simp at hmem
  | @remarked assignment gap _ _ hassignment hgap remark =>
      obtain ⟨first, second, -, -, hwords⟩ := hassignment.exists_words
      have hstart := hgap.isBlank_head ('#' :: remark)
      have hthird : words ('#' :: remark) ≠ [] := by
        have hsolid : isBlank '#' = false := by decide
        rw [words, hsolid]
        split
        · contradiction
        · split
          · cases words remark <;> simp [extendFirst]
          · simp
      have hall : (body (assignment ++ gap ++ '#' :: remark)).words =
          first :: second :: words ('#' :: remark) := by
        rw [body_of_not_mem hsemicolon, words_trim, List.append_assoc, hwords _ hstart,
          words_append_left hgap.blank]
      have hcount : 2 < (body (assignment ++ gap ++ '#' :: remark)).words.length := by
        have hsome := List.length_pos_of_ne_nil hthird
        rw [hall, List.length_cons, List.length_cons]
        omega
      exact ⟨_, hcount, .words hcomment (by omega)⟩

/-! ## Documented maps -/

theorem IsDocumented.writes_iff
    {line : Text} (hline : IsDocumented line) (hremark : LeavesOutRemark line)
    {cell : Nat} (hcell : cell < 0x10000) (value : Int) :
    Writes 0x10000 line cell value ↔ Names line cell value := by
  constructor
  · rintro ⟨address, hpatch, haddress⟩
    obtain ⟨_ | ⟨named, number⟩, hdocuments⟩ := hline
    · exact absurd hdocuments.isComment hpatch.notComment
    · obtain ⟨rfl, rfl⟩ := hpatch.unique (hdocuments.isPatch hremark)
      -- An address counts from the end only if it is negative, which the documented ones are not.
      obtain rfl : named = cell := by
        unfold Image.IsAddressOf at haddress
        omega
      exact ⟨number, rfl, hdocuments⟩
  · rintro ⟨number, rfl, hdocuments⟩
    exact ⟨cell, hdocuments.isPatch hremark, .inl rfl⟩

theorem IsDocumented.leavesOutRemark
    {line : Text} (hline : IsDocumented line) {size : Nat}
    (hfine : ∀ problem, ¬IsRefused size line problem) :
    LeavesOutRemark line := by
  obtain ⟨_ | ⟨address, value⟩, hdocuments⟩ := hline
  · exact .inl hdocuments.isComment
  · by_contra hremark
    obtain ⟨count, -, hunreadable⟩ := hdocuments.isUnreadable hremark
    exact hfine _ (.unreadable hunreadable)

theorem IsDocumented.of_isRefused
    {line : Text} (hline : IsDocumented line) {problem : Problem}
    (hrefused : IsRefused 0x10000 line problem) :
    ¬LeavesOutRemark line ∧ ∃ count, 2 < count ∧ problem = .wordCount count := by
  obtain ⟨_ | ⟨named, number⟩, hdocuments⟩ := hline
  · rcases hrefused with hunreadable | ⟨hpatch, -⟩
    · exact absurd hdocuments.isComment hunreadable.not_isComment
    · exact absurd hdocuments.isComment hpatch.notComment
  · by_cases hremark : LeavesOutRemark line
    · have hpatch := hdocuments.isPatch hremark
      rcases hrefused with hunreadable | ⟨hother, houtside⟩
      · exact absurd hpatch (hunreadable.not_isPatch _ _)
      · have hbound := hdocuments.bounds.1
        rw [← (hpatch.unique hother).1, Image.isOutside_iff (by decide)] at houtside
        omega
    · refine ⟨hremark, ?_⟩
      obtain ⟨count, hcount, hwords⟩ := hdocuments.isUnreadable hremark
      rcases hrefused with hunreadable | ⟨hother, -⟩
      · have hsame := hunreadable.readLine_eq.symm.trans hwords.readLine_eq
        exact ⟨count, hcount, Except.error.inj hsame⟩
      · exact absurd hother (hwords.not_isPatch _ _)

/-- Applying a documented map to an image of all addresses. It succeeds exactly if every remark is
left out, and then each address holds the value that the map names last for it. Where it fails, the
lines before the first remark that is not left out have been applied. -/
theorem applyFile_documented
    {image : Image} {content : Text} (hsize : image.length = 0x10000)
    (hlines : ∀ line ∈ content.lines, IsDocumented line) :
    ((applyFile image content).2 = .ok () ↔ ∀ line ∈ content.lines, LeavesOutRemark line) ∧
    (∀ changed, applyFile image content = (changed, .ok ()) →
      Updates Names content.lines image changed) ∧
    (∀ changed problem, applyFile image content = (changed, .error problem) →
      ∃ before line after count,
        content.lines = before ++ line :: after ∧
        (∀ earlier ∈ before, LeavesOutRemark earlier) ∧
        ¬LeavesOutRemark line ∧
        problem = .wordCount count ∧ 2 < count ∧
        Updates Names before image changed) := by
  have hupdates : ∀ {lines : List Text} {changed : Image},
      (∀ line ∈ lines, IsDocumented line) →
      applyLines image lines = (changed, .ok ()) →
      (∀ line ∈ lines, LeavesOutRemark line) ∧ Updates Names lines image changed := by
    intro lines changed hdocumented happly
    have hfine := (applyLines_eq_ok_iff image lines).mp (by rw [happly])
    have hremarks : ∀ line ∈ lines, LeavesOutRemark line := fun line hline =>
      (hdocumented line hline).leavesOutRemark (hfine line hline)
    refine ⟨hremarks, (updates_of_applyLines happly).congr ?_⟩
    rw [hsize]
    intro line hline cell hcell value
    exact (hdocumented line hline).writes_iff (hremarks line hline) hcell value
  refine ⟨⟨?_, ?_⟩, ?_, ?_⟩
  · intro hok
    exact (hupdates hlines (Prod.ext rfl hok)).1
  · intro hremarks
    apply (applyLines_eq_ok_iff image content.lines).mpr
    rw [hsize]
    intro line hline problem hrefused
    exact ((hlines line hline).of_isRefused hrefused).1 (hremarks line hline)
  · intro changed happly
    exact (hupdates hlines happly).2
  · intro changed problem happly
    rcases applyLines_cases image content.lines with
      ⟨found, hfound, -⟩ | ⟨before, line, after, found, cause, hsplit, hfound, hbefore, hrefused⟩
    · have hresult := happly.symm.trans hfound
      simp at hresult
    · have hresult := happly.symm.trans hfound
      rw [Prod.mk.injEq, Except.error.injEq] at hresult
      obtain ⟨rfl, rfl⟩ := hresult
      rw [hsplit] at hlines
      rw [hsize] at hrefused
      obtain ⟨hremark, count, hcount, hproblem⟩ := (hlines line (by simp)).of_isRefused hrefused
      obtain ⟨hremarks, hchanged⟩ :=
        hupdates (fun earlier hearlier => hlines earlier (by simp [hearlier])) hbefore
      exact ⟨before, line, after, count, hsplit, hremarks, hremark, hproblem, hcount, hchanged⟩

theorem isAssignment_ff_to_9001 : IsAssignment "$9001 $ff".toList 0x9001 0xff :=
  @IsAssignment.marked _ _ "9001".toList " ".toList "ff".toList
    ⟨⟨by simp, forall_mem_of_all rfl⟩, rfl, by decide⟩ ⟨by simp, forall_mem_of_all rfl⟩
    ⟨⟨by simp, forall_mem_of_all rfl⟩, rfl, by decide⟩

/-- The only remark of this map has a semicolon. -/
theorem applyFile_documented_semicolon :
    let content : Text := "# Comments\n$9001 $ff # here; too\n".toList
    ∃ changed,
      applyFile Image.blank content = (changed, .ok ()) ∧ changed[0x9001]? = some 0xff := by
  intro content
  have hcontent : content.lines =
      ["# Comments\n".toList, "$9001 $ff # here; too\n".toList] := by
    decide +kernel
  have hsize : Image.blank.length = 0x10000 := List.length_replicate
  have hremarked : Documents "$9001 $ff # here; too\n".toList (some (0x9001, 0xff)) :=
    @Documents.remarked _ " ".toList _ _ isAssignment_ff_to_9001
      ⟨by simp, forall_mem_of_all rfl⟩ " here; too\n".toList
  have hlines : ∀ line ∈ content.lines, IsDocumented line := by
    rw [hcontent, List.forall_mem_cons, List.forall_mem_singleton]
    exact ⟨⟨none, .comment _⟩, _, hremarked⟩
  obtain ⟨hok, hupdates, -⟩ := applyFile_documented hsize hlines
  have hresult : (applyFile Image.blank content).2 = .ok () := by
    rw [hok, hcontent, List.forall_mem_cons, List.forall_mem_singleton]
    decide
  rcases happly : applyFile Image.blank content with ⟨changed, result⟩
  rw [happly] at hresult
  obtain rfl : result = .ok () := hresult
  refine ⟨changed, rfl, (hupdates changed happly).last 0x9001 0xff (by rw [hsize]; decide) ?_⟩
  exact ⟨["# Comments\n".toList], _, [], hcontent, ⟨0xff, rfl, hremarked⟩, by simp⟩

/-- A documented map that fails: its remark has no semicolon. -/
theorem remark_without_semicolon_fails :
    ¬∀ (image : Image) (content : Text),
      image.length = 0x10000 → (∀ line ∈ content.lines, IsDocumented line) →
        (applyFile image content).2 = .ok () := by
  intro hclaim
  have hremarked : Documents "$9001 $ff # here too\n".toList (some (0x9001, 0xff)) :=
    @Documents.remarked _ " ".toList _ _ isAssignment_ff_to_9001
      ⟨by simp, forall_mem_of_all rfl⟩ " here too\n".toList
  have hcontent : lines "$9001 $ff # here too\n".toList =
      ["$9001 $ff # here too\n".toList] := by
    decide +kernel
  have hfails : (applyFile Image.blank "$9001 $ff # here too\n".toList).2 =
      .error (.wordCount 5) := rfl
  have hok := hclaim Image.blank _ List.length_replicate (by
    rw [hcontent, List.forall_mem_singleton]
    exact ⟨_, hremarked⟩)
  rw [hfails] at hok
  contradiction

end MemoryMap

end Assembler6502
