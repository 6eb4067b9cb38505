import Assembler6502.Proofs.LowerCase
import Assembler6502.Statement

/-!
# Statements in normal form

Reading a line cuts it at the first colon, cuts the rest at its first space, and trims the parts.
What is left is a statement in normal form. A normal form can be written with nothing between its
parts but the colon and one space, and reading gives it back, so the statements of lines are exactly
the normal forms. A label has no influence on how the rest of its line is read.
-/

namespace Assembler6502

/-! ## Blanks inside a trimmed text -/

namespace Text

theorem IsTrimmedBy.trimBy_left_ne_nil
    {dropped : Char → Bool} {first rest : Text} {c : Char}
    (htext : IsTrimmedBy dropped (first ++ c :: rest)) (hc : dropped c = true) :
    first.trimBy dropped ≠ [] := by
  intro hnil
  have hblank := (trimBy_eq_nil_iff dropped first).mp hnil
  cases first with
  | nil => simp [htext.head c rfl] at hc
  | cons d others =>
      have hd := hblank d (by simp)
      simp [htext.head d rfl] at hd

theorem IsTrimmedBy.trimBy_right_ne_nil
    {dropped : Char → Bool} {first rest : Text} {c : Char}
    (htext : IsTrimmedBy dropped (first ++ c :: rest)) (hc : dropped c = true) :
    rest.trimBy dropped ≠ [] := by
  intro hnil
  have hblank := (trimBy_eq_nil_iff dropped rest).mp hnil
  rcases List.eq_nil_or_concat' rest with rfl | ⟨front, d, rfl⟩
  · simp [htext.last c (by simp)] at hc
  · have hlast : (first ++ c :: (front ++ [d])).getLast? = some d := by
      rw [← List.cons_append, ← List.append_assoc, List.getLast?_concat]
    have hd := hblank d (by simp)
    simp [htext.last d hlast] at hd

end Text

namespace Statement

open Text

/-! ## Normal forms -/

def writtenLabel : Option Text → Text
  | none => []
  | some label => label ++ [':']

def writtenOperand : Option Text → Text
  | none => []
  | some operand => ' ' :: operand

/-- The statement without its label, as a text. -/
def body (statement : Statement) : Text :=
  statement.mnemonic ++ writtenOperand statement.operand

/-- The line that writes a statement with no more than a colon and a space between its parts. -/
def render (statement : Statement) : Text :=
  writtenLabel statement.label ++ statement.body

/-- Nothing is left to trim or to cut. An operand needs a mnemonic in front of it, and without a
label there is no colon at all. -/
structure IsNormal (statement : Statement) : Prop where
  label : ∀ label, statement.label = some label → IsTrimmedBy isBlank label ∧ ':' ∉ label
  mnemonic : IsTrimmedBy isBlank statement.mnemonic ∧ ' ' ∉ statement.mnemonic
  operand : ∀ operand, statement.operand = some operand →
    IsTrimmedBy isBlank operand ∧ operand ≠ []
  named : statement.operand ≠ none → statement.mnemonic ≠ []
  unlabelled : statement.label = none → ':' ∉ statement.body

/-! ## Reading by parts -/

theorem ofBody_of_space
    (label : Option Text) {first : Text} (hfirst : ' ' ∉ first) (rest : Text) :
    ofBody label (first ++ ' ' :: rest) = ⟨label, first.trim, some rest.trim⟩ := by
  rw [ofBody, cut?_append_mark hfirst]

theorem ofBody_of_not_mem
    (label : Option Text) {body : Text} (hbody : ' ' ∉ body) :
    ofBody label body = ⟨label, body.trim, none⟩ := by
  rw [ofBody, cut?_of_not_mem hbody]

theorem ofBody_eq (label : Option Text) (body : Text) :
    ofBody label body = { ofBody none body with label } := by
  unfold ofBody
  split <;> rfl

theorem ofLine_of_colon {label : Text} (hlabel : ':' ∉ label) (rest : Text) :
    ofLine (label ++ ':' :: rest) = ofBody (some label.trim) rest.trim := by
  rw [ofLine, cut?_append_mark hlabel]

theorem ofLine_of_not_mem {line : Text} (hline : ':' ∉ line) :
    ofLine line = ofBody none line.trim := by
  rw [ofLine, cut?_of_not_mem hline]

/-! ## Lines have statements in normal form -/

theorem isNormal_ofBody
    {label : Option Text} {body : Text}
    (hlabel : ∀ name, label = some name → IsTrimmedBy isBlank name ∧ ':' ∉ name)
    (hbody : IsTrimmedBy isBlank body) (hcolon : label = none → ':' ∉ body) :
    (ofBody label body).IsNormal := by
  by_cases hspace : ' ' ∈ body
  · obtain ⟨first, rest, rfl, hfirst⟩ := List.eq_append_cons_of_mem hspace
    have hblank : isBlank ' ' = true := rfl
    have hfirstPart := trimBy_sublist isBlank first
    have hrestPart := trimBy_sublist isBlank rest
    rw [ofBody_of_space label hfirst]
    have hmnemonic : ' ' ∉ trim first := fun hmem => hfirst (hfirstPart.subset hmem)
    refine ⟨hlabel, ⟨isTrimmedBy_trim first, hmnemonic⟩, ?_, ?_, ?_⟩
    · rintro operand ⟨⟩
      exact ⟨isTrimmedBy_trim rest, hbody.trimBy_right_ne_nil hblank⟩
    · exact fun _ => hbody.trimBy_left_ne_nil hblank
    · intro hnone hmem
      have hparts : (trim first ++ ' ' :: trim rest).Sublist (first ++ ' ' :: rest) :=
        hfirstPart.append (hrestPart.cons_cons ' ')
      exact hcolon hnone (hparts.subset hmem)
  · have htrim : body.trim = body := hbody.trimBy_eq
    rw [ofBody_of_not_mem label hspace, htrim]
    refine ⟨hlabel, ⟨hbody, hspace⟩, ?_, ?_, ?_⟩
    · rintro operand ⟨⟩
    · exact fun hsome => absurd rfl hsome
    · simpa [Statement.body, writtenOperand] using hcolon

theorem isNormal_ofLine (line : Text) : (ofLine line).IsNormal := by
  by_cases hcolon : ':' ∈ line
  · obtain ⟨label, rest, rfl, hlabel⟩ := List.eq_append_cons_of_mem hcolon
    rw [ofLine_of_colon hlabel]
    refine isNormal_ofBody ?_ (isTrimmedBy_trim rest) (by simp)
    rintro name ⟨⟩
    exact ⟨isTrimmedBy_trim label, fun hmem => hlabel ((trimBy_sublist _ label).subset hmem)⟩
  · rw [ofLine_of_not_mem hcolon]
    refine isNormal_ofBody (by simp) (isTrimmedBy_trim line) ?_
    exact fun _ hmem => hcolon ((trimBy_sublist _ line).subset hmem)

theorem operand_isTrimmedBy
    {line operand : Text} (hoperand : (ofLine line).operand = some operand) :
    IsTrimmedBy isBlank operand :=
  ((isNormal_ofLine line).operand operand hoperand).1

/-! ## Normal forms are read back -/

variable {statement : Statement}

theorem IsNormal.isTrimmedBy_body (hnormal : statement.IsNormal) :
    IsTrimmedBy isBlank statement.body := by
  unfold Statement.body
  cases hoperand : statement.operand with
  | none => simpa [writtenOperand] using hnormal.mnemonic.1
  | some operand =>
      obtain ⟨htrimmed, hsome⟩ := hnormal.operand operand hoperand
      have hnamed := hnormal.named (by simp [hoperand])
      have hparts : IsTrimmedBy isBlank (statement.mnemonic ++ [' '] ++ operand) :=
        hnormal.mnemonic.1.append htrimmed hnamed hsome
      simpa [writtenOperand] using hparts

theorem IsNormal.ofBody_body (hnormal : statement.IsNormal) :
    ofBody statement.label statement.body = statement := by
  obtain ⟨label, mnemonic, operand⟩ := statement
  obtain ⟨hmnemonic, hspace⟩ := hnormal.mnemonic
  have hname : trim mnemonic = mnemonic := hmnemonic.trimBy_eq
  cases operand with
  | none =>
      have hbody : body ⟨label, mnemonic, none⟩ = mnemonic := List.append_nil mnemonic
      rw [hbody, ofBody_of_not_mem label hspace, hname]
  | some operand =>
      have htrim : trim operand = operand := (hnormal.operand operand rfl).1.trimBy_eq
      have hbody : body ⟨label, mnemonic, some operand⟩ = mnemonic ++ ' ' :: operand := rfl
      rw [hbody, ofBody_of_space label hspace, hname, htrim]

theorem IsNormal.ofLine_render (hnormal : statement.IsNormal) :
    ofLine statement.render = statement := by
  have hbody : trim statement.body = statement.body := hnormal.isTrimmedBy_body.trimBy_eq
  have hread := hnormal.ofBody_body
  unfold render
  cases hlabel : statement.label with
  | none =>
      rw [hlabel] at hread
      have hcolon := hnormal.unlabelled hlabel
      rw [writtenLabel, List.nil_append, ofLine_of_not_mem hcolon, hbody, hread]
  | some label =>
      obtain ⟨htrimmed, hcolon⟩ := hnormal.label label hlabel
      have htrim : label.trim = label := htrimmed.trimBy_eq
      rw [hlabel] at hread
      rw [writtenLabel, List.append_assoc, List.singleton_append, ofLine_of_colon hcolon, htrim,
        hbody, hread]

theorem ofLine_render_eq_iff : ofLine statement.render = statement ↔ statement.IsNormal := by
  refine ⟨?_, IsNormal.ofLine_render⟩
  intro hread
  rw [← hread]
  exact isNormal_ofLine statement.render

/-! ## Labels -/

/-- A label in front of a line adds itself to the statement and changes nothing else. -/
theorem ofLine_label
    {label margin line : Text} (hlabel : ':' ∉ label)
    (hmargin : ∀ c ∈ margin, isBlank c = true) (hline : ':' ∉ line) :
    ofLine (label ++ ':' :: (margin ++ line)) = { ofLine line with label := some label.trim } := by
  have htrim : trim (margin ++ line) = line.trim := trimBy_append_left hmargin line
  rw [ofLine_of_colon hlabel, ofLine_of_not_mem hline, htrim, ofBody_eq (some label.trim)]

/-- The statement of a line is in normal form, and it is the statement of the line that writes this
form. So the statements that are read back from what they write are the normal forms and no others.
A label in front of a line without one adds itself and changes nothing else. -/
theorem ofLine_normal_form (line : Text) :
    (ofLine line).IsNormal ∧
    ofLine (ofLine line).render = ofLine line ∧
    (∀ statement, ofLine statement.render = statement ↔ statement.IsNormal) ∧
    ∀ label margin code : Text,
      ':' ∉ label → (∀ c ∈ margin, isBlank c = true) → ':' ∉ code →
        ofLine (label ++ ':' :: (margin ++ code)) =
          { ofLine code with label := some label.trim } :=
  ⟨isNormal_ofLine line, (isNormal_ofLine line).ofLine_render, fun _ => ofLine_render_eq_iff,
    fun _ _ _ => ofLine_label⟩

/-- Blanks of several kinds surround the parts of the line, and a colon stands in its operand. -/
theorem ofLine_normal_form_spaced :
    let line := "\tloop\u00a0: \u3000lda\t  a:b ".toList
    let label := "\tagain ".toList
    ofLine line = ⟨some "loop".toList, "lda".toList, some "a:b".toList⟩ ∧
      (ofLine line).IsNormal ∧
      ofLine "loop:lda a:b".toList = ofLine line ∧
      ':' ∉ label ∧ (∀ c ∈ ['\t', ' '], isBlank c = true) ∧ ':' ∉ "bne\tx".toList ∧
      ofLine (label ++ ':' :: (['\t', ' '] ++ "bne\tx".toList)) =
        ⟨some "again".toList, "bne\tx".toList, none⟩ := by
  intro line label
  have hblank : ∀ c ∈ ['\t', ' '], isBlank c = true := forall_mem_of_all rfl
  obtain ⟨hnormal, hagain, -, hlabel⟩ := ofLine_normal_form line
  exact ⟨rfl, hnormal, hagain, by decide, hblank, by decide,
    hlabel label ['\t', ' '] "bne\tx".toList (by decide) hblank (by decide)⟩

end Statement

end Assembler6502
