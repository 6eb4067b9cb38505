import Assembler6502.Proofs.Program.Operands
import Assembler6502.Proofs.TwoPasses

/-!
# Reading written lines

A line that writes a command has the command's code, and a line that writes an origin has the
origin's. Comments, indentation and the case of letters are gone after the first step, the label
and the gaps after the second, and what is left is the mnemonic with a written operand.
-/

namespace Assembler6502

open Text

/-! ## The code on a written line -/

/-- ASCII characters that end neither the code of a line nor the line. -/
def IsCodeChar (c : Char) : Prop :=
  c.toNat < 0x80 ∧ c ≠ ';' ∧ c ≠ '\n' ∧ c ≠ '\r'

instance (c : Char) : Decidable (IsCodeChar c) :=
  inferInstanceAs (Decidable (_ ∧ _))

structure IsCode (code : Text) : Prop where
  nonempty : code ≠ []
  chars : ∀ c ∈ code, IsCodeChar c
  trimmed : IsTrimmedBy isBlank code

theorem isBlank_of_mem_indentation
    {gap : Text} (hgap : IsIndentation gap) :
    ∀ c ∈ gap, isBlank c = true := by
  intro c hc
  rcases hgap c hc with rfl | rfl <;> decide

theorem isCodeChar_of_mem_indentation
    {gap : Text} (hgap : IsIndentation gap) :
    ∀ c ∈ gap, IsCodeChar c := by
  intro c hc
  rcases hgap c hc with rfl | rfl <;> decide

theorem map_toLower_indentation
    {gap : Text} (hgap : IsIndentation gap) :
    gap.map Char.toLower = gap := by
  rw [List.map_congr_left (g := id), List.map_id]
  intro c hc
  rcases hgap c hc with rfl | rfl <;> rfl

theorem ascii_of_toLower {c : Char} (hc : c.toLower.toNat < 0x80) :
    c.toNat < 0x80 := by
  unfold Char.toLower at hc
  split at hc
  next hupper =>
      have hle := UInt32.le_iff_toNat_le.mp hupper.2
      change c.toNat ≤ 0x5a at hle
      omega
  next => exact hc

theorem IsCode.written_chars
    {code written : Text} (hcode : IsCode code)
    (hwritten : written.map Char.toLower = code) :
    ∀ c ∈ written, IsCodeChar c := by
  intro c hc
  have hlower : IsCodeChar c.toLower := by
    apply hcode.chars
    rw [← hwritten]
    exact List.mem_map_of_mem hc
  obtain ⟨hascii, hsemicolon, hfeed, hreturn⟩ := hlower
  have hne : ∀ {mark : Char}, mark.toLower = mark → c.toLower ≠ mark → c ≠ mark := by
    rintro mark hmark hdiffers rfl
    exact hdiffers hmark
  exact ⟨ascii_of_toLower hascii, hne rfl hsemicolon, hne rfl hfeed, hne rfl hreturn⟩

theorem code?_of_blank
    {gap : Text} (hgap : IsIndentation gap) :
    SourceLine.code? gap = none := by
  have hascii : ∀ c ∈ gap, c.toNat < 0x80 := fun c hc =>
    (isCodeChar_of_mem_indentation hgap c hc).1
  have hblank := isBlank_of_mem_indentation hgap
  have htrim : gap.trim = [] := trimBy_of_forall hblank
  rw [SourceLine.code?_eq, lower_ascii hascii, map_toLower_indentation hgap,
    before_of_not_mem (SourceLine.semicolon_not_mem_of_blank hblank), htrim]
  rfl

theorem code?_of_isTrailer
    {line : Text} (hline : IsTrailer line) :
    SourceLine.code? line = none := by
  cases hline with
  | blank hgap => exact code?_of_blank hgap
  | comment hgap hremark =>
      rw [SourceLine.code?_append_comment]
      exact code?_of_blank hgap

theorem code?_of_written
    {code indentation written gap : Text} (hcode : IsCode code)
    (hindentation : IsIndentation indentation)
    (hwritten : written.map Char.toLower = code) (hgap : IsIndentation gap) :
    SourceLine.code? (indentation ++ written ++ gap) = some code := by
  have hchars : ∀ {middle : Text}, (∀ c ∈ middle, IsCodeChar c) →
      ∀ c ∈ indentation ++ middle ++ gap, IsCodeChar c := by
    intro middle hmiddle
    have hleft := List.forall_mem_append.mpr
      ⟨isCodeChar_of_mem_indentation hindentation, hmiddle⟩
    exact List.forall_mem_append.mpr ⟨hleft, isCodeChar_of_mem_indentation hgap⟩
  have hlower : (indentation ++ written ++ gap).lower = indentation ++ code ++ gap := by
    rw [lower_ascii fun c hc => (hchars (hcode.written_chars hwritten) c hc).1,
      List.map_append, List.map_append, hwritten,
      map_toLower_indentation hindentation, map_toLower_indentation hgap]
  have hsemicolon : ';' ∉ indentation ++ code ++ gap :=
    fun hmem => (hchars hcode.chars _ hmem).2.1 rfl
  have htrim : (indentation ++ code ++ gap).trim = code :=
    trimBy_margins (isBlank_of_mem_indentation hindentation) hcode.trimmed
      (isBlank_of_mem_indentation hgap)
  rw [SourceLine.code?_eq, hlower, before_of_not_mem hsemicolon, htrim,
    if_neg hcode.nonempty]

/-- The code of a line does not depend on its indentation, its letters' case or its comment. -/
theorem code?_of_isLineOf
    {code line : Text} (hcode : IsCode code) (hline : IsLineOf code line) :
    SourceLine.code? line = some code := by
  obtain ⟨hindentation, hwritten, htrailer⟩ := hline
  cases htrailer with
  | blank hgap => exact code?_of_written hcode hindentation hwritten hgap
  | comment hgap hremark =>
      rw [← List.append_assoc, SourceLine.code?_append_comment]
      exact code?_of_written hcode hindentation hwritten hgap

theorem isOneLine_of_indentation
    {gap : Text} (hgap : IsIndentation gap) :
    SourceLine.IsOneLine gap :=
  fun c hc => (isCodeChar_of_mem_indentation hgap c hc).2.2

theorem isOneLine_of_isTrailer
    {line : Text} (hline : IsTrailer line) :
    SourceLine.IsOneLine line := by
  cases hline with
  | blank hgap => exact isOneLine_of_indentation hgap
  | comment hgap hremark =>
      have hmarked : SourceLine.IsOneLine (';' :: _) :=
        List.forall_mem_cons.mpr ⟨by decide, hremark⟩
      exact List.forall_mem_append.mpr ⟨isOneLine_of_indentation hgap, hmarked⟩

theorem isOneLine_of_isLineOf
    {code line : Text} (hcode : IsCode code) (hline : IsLineOf code line) :
    SourceLine.IsOneLine line := by
  obtain ⟨hindentation, hwritten, htrailer⟩ := hline
  have hmiddle : SourceLine.IsOneLine _ :=
    fun c hc => (hcode.written_chars hwritten c hc).2.2
  have hleft := List.forall_mem_append.mpr ⟨isOneLine_of_indentation hindentation, hmiddle⟩
  exact List.forall_mem_append.mpr ⟨hleft, isOneLine_of_isTrailer htrailer⟩

/-! ## Statements of commands -/

/-- An operand, or the lack of one, from which an argument is read back. -/
structure Argument.IsReadFrom (argument : Argument) (operand : Option Text) : Prop where
  mode : Operand.mode operand = .ok argument.mode
  entries : ∃ low high,
    argument.mode.lowEntry operand = .ok low ∧
    argument.mode.highEntry operand = .ok high ∧
    low.toList ++ high.toList = argument.entries

theorem Argument.implied_isReadFrom_none :
    Argument.implied.IsReadFrom none :=
  ⟨rfl, none, none, rfl, rfl, rfl⟩

theorem IsPhrase.of_mnemonic (mnemonic : Mnemonic) :
    IsPhrase mnemonic.name := by
  refine IsPhrase.of_isPlain ?_ fun c hc => isPlain_of_mem_mnemonic hc
  cases mnemonic <;> decide

theorem Argument.Follows.isPhrase
    {argument : Argument} {operand : Text}
    (hfollows : argument.Follows operand) (hnamed : argument.IsNamed)
    (mnemonic : Mnemonic) :
    IsPhrase (mnemonic.name ++ operand) := by
  cases hfollows with
  | nothing =>
      rw [List.append_nil]
      exact IsPhrase.of_mnemonic mnemonic
  | operand hgap hsome htext =>
      rw [← List.append_assoc]
      exact (IsPhrase.of_mnemonic mnemonic).append (fun c hc => Or.inr (hgap c hc))
        (htext.isPhrase hnamed)

/-- The first space after a mnemonic starts the gap before the operand. -/
theorem Argument.Follows.ofBody_eq
    {argument : Argument} {operand : Text}
    (hfollows : argument.Follows operand) (hnamed : argument.IsNamed)
    (label : Option Text) (mnemonic : Mnemonic) :
    ∃ found,
      Statement.ofBody label (mnemonic.name ++ operand) =
        ⟨label, mnemonic.name, found⟩ ∧
      argument.IsReadFrom found := by
  have hname := IsPhrase.of_mnemonic mnemonic
  have hspace : ' ' ∉ mnemonic.name := fun hmem =>
    ne_of_isPlain (isPlain_of_mem_mnemonic hmem) (by decide) rfl
  cases hfollows with
  | nothing =>
      refine ⟨none, ?_, Argument.implied_isReadFrom_none⟩
      rw [List.append_nil, Statement.ofBody, cut?_of_not_mem hspace]
      simp only [hname.trim_eq]
  | @operand argument gap text hgap hsome htext =>
      obtain ⟨c, later, rfl⟩ := List.exists_cons_of_ne_nil hsome
      have hc : c = ' ' := hgap c (by simp)
      subst hc
      have hblank : ∀ d ∈ later, isBlank d = true := by
        intro d hd
        rw [hgap d (by simp [hd])]
        decide
      have htrim : trim (later ++ text) = text :=
        (trimBy_append_left hblank text).trans (htext.isPhrase hnamed).trim_eq
      refine ⟨some text, ?_, htext.mode_eq hnamed, htext.read_entries⟩
      rw [List.cons_append, Statement.ofBody, cut?_append_mark hspace]
      simp only [hname.trim_eq, htrim]

theorem Command.Written.ofLine_eq
    {command : Command} {code : Text}
    (hcode : command.Written code) (hnamed : command.argument.IsNamed) :
    ∃ found,
      Statement.ofLine code = ⟨command.label, command.mnemonic.name, found⟩ ∧
      command.argument.IsReadFrom found := by
  obtain ⟨hlabel, hoperand⟩ := hcode
  have hbody := hoperand.isPhrase hnamed command.mnemonic
  obtain ⟨found, hfound, hread⟩ :=
    hoperand.ofBody_eq hnamed command.label command.mnemonic
  refine ⟨found, ?_, hread⟩
  -- The written label decides whether the line has a colon at all.
  generalize hgiven : command.label = given at hlabel hfound ⊢
  cases hlabel with
  | nothing =>
      have hcolon := hbody.not_mem (show isPlain ':' = false by decide) (by decide)
      rw [List.nil_append, Statement.ofLine, cut?_of_not_mem hcolon]
      simp only [hbody.trim_eq, hfound]
  | label name hgap =>
      have hname := IsPhrase.of_labelName (command.labelIsName name hgiven)
      have hcolon := hname.not_mem (show isPlain ':' = false by decide) (by decide)
      have htrim := (trimBy_append_left (isBlank_of_mem_indentation hgap) _).trans
        hbody.trim_eq
      rw [List.append_assoc, List.append_assoc, List.cons_append, Statement.ofLine,
        cut?_append_mark hcolon]
      change Statement.ofBody (some (name.trim)) (trimBy isBlank _) = _
      rw [hname.trim_eq, htrim, hfound]

/-! ## Object code of commands -/

theorem Mnemonic.ofName?_name (mnemonic : Mnemonic) :
    Mnemonic.ofName? mnemonic.name = some mnemonic := by
  cases mnemonic <;> decide

def Command.entries (command : Command) : List Entry :=
  .value command.opcode :: command.argument.entries

theorem Command.length_entries (command : Command) :
    command.entries.length = command.size := by
  obtain ⟨label, mnemonic, argument, hlabel, hopcode⟩ := command
  cases argument <;> rfl

theorem Command.opcode?_eq (command : Command) :
    command.mnemonic.opcode? command.argument.mode = some command.opcode :=
  (Option.some_get command.hasOpcode).symm

theorem Command.Written.label_eq
    {command : Command} {code : Text}
    (hcode : command.Written code) (hnamed : command.argument.IsNamed) :
    CodeLine.label code = command.label := by
  obtain ⟨found, hfound, -⟩ := hcode.ofLine_eq hnamed
  rw [CodeLine.label, hfound]

theorem Command.Written.encode_eq
    {command : Command} {code : Text}
    (hcode : command.Written code) (hnamed : command.argument.IsNamed) :
    CodeLine.encode code = .ok command.entries := by
  obtain ⟨found, hfound, hmode, low, high, hlow, hhigh, hentries⟩ := hcode.ofLine_eq hnamed
  have hinstruction : (Statement.ofLine code).instruction =
      .ok ⟨command.mnemonic, command.argument.mode, command.opcode⟩ := by
    simp only [Statement.instruction, hfound, hmode, Mnemonic.ofName?_name,
      command.opcode?_eq]
  rw [CodeLine.encode, hinstruction, hfound]
  simp only [Instruction.encode, hlow, hhigh, hentries]
  rfl

/-! ## Codes of lines -/

theorem IsPhrase.isCodeChar
    {text : Text} (htext : IsPhrase text) :
    ∀ c ∈ text, IsCodeChar c := by
  intro c hc
  have hne : ∀ {mark : Char}, isPlain mark = false → mark ≠ ' ' → c ≠ mark := by
    rintro mark hplain hspace rfl
    exact htext.not_mem hplain hspace hc
  exact ⟨htext.ascii c hc, hne (by decide) (by decide), hne (by decide) (by decide),
    hne (by decide) (by decide)⟩

theorem IsPhrase.isCode
    {text : Text} (htext : IsPhrase text) :
    IsCode text :=
  ⟨htext.nonempty, htext.isCodeChar, htext.trimmed⟩

theorem IsCode.of_phrases
    {first middle second : Text}
    (hfirst : IsPhrase first) (hmiddle : ∀ c ∈ middle, IsCodeChar c)
    (hsecond : IsPhrase second) :
    IsCode (first ++ middle ++ second) := by
  refine ⟨by simp [hfirst.nonempty], ?_, ?_⟩
  · have hleft := List.forall_mem_append.mpr ⟨hfirst.isCodeChar, hmiddle⟩
    exact List.forall_mem_append.mpr ⟨hleft, hsecond.isCodeChar⟩
  · exact hfirst.trimmed.append hsecond.trimmed hfirst.nonempty hsecond.nonempty

theorem Command.Written.isCode
    {command : Command} {code : Text}
    (hcode : command.Written code) (hnamed : command.argument.IsNamed) :
    IsCode code := by
  obtain ⟨hlabel, hoperand⟩ := hcode
  have hbody := hoperand.isPhrase hnamed command.mnemonic
  rw [List.append_assoc]
  generalize hgiven : command.label = given at hlabel
  cases hlabel with
  | nothing => exact hbody.isCode
  | @label name gap hgap =>
      have hname := IsPhrase.of_labelName (command.labelIsName name hgiven)
      exact IsCode.of_phrases hname
        (List.forall_mem_cons.mpr ⟨by decide, isCodeChar_of_mem_indentation hgap⟩) hbody

/-- No label and no mnemonic starts with the point of a directive. -/
theorem Command.Written.isOrigin_eq_false
    {command : Command} {code : Text}
    (hcode : command.Written code) :
    Segment.isOrigin code = false := by
  have hstart : ∀ {start : Text}, start ≠ [] → '.' ∉ start →
      ∀ rest, Segment.isOrigin (start ++ rest) = false := by
    intro start hsome hpoint rest
    obtain ⟨c, later, rfl⟩ := List.exists_cons_of_ne_nil hsome
    rw [List.mem_cons, not_or] at hpoint
    have hc : ('.' == c) = false := by simpa using hpoint.1
    simp only [Segment.isOrigin, Segment.directive, List.cons_append, List.isPrefixOf, hc,
      Bool.false_and]
  obtain ⟨hlabel, hoperand⟩ := hcode
  generalize hgiven : command.label = given at hlabel
  cases hlabel with
  | nothing =>
      refine hstart (IsPhrase.of_mnemonic command.mnemonic).nonempty ?_ _
      cases command.mnemonic <;> decide
  | label name hgap =>
      have hname := command.labelIsName name hgiven
      rw [List.append_assoc, List.append_assoc]
      refine hstart hname.nonempty ?_ _
      intro hpoint
      exact absurd (hname.chars '.' hpoint) (by decide)

theorem OriginWritten.isCode
    {origin : Nat} {code : Text} (hcode : OriginWritten origin code) :
    IsCode code := by
  obtain ⟨width, hgap, hsome⟩ := hcode
  exact IsCode.of_phrases (IsPhrase.of_isPlain (by decide) (forall_mem_of_all rfl))
    (isCodeChar_of_mem_indentation hgap) (IsPhrase.of_dollar width origin)

theorem OriginWritten.isOrigin_eq_true
    {origin : Nat} {code : Text} (hcode : OriginWritten origin code) :
    Segment.isOrigin code = true := by
  obtain ⟨width, hgap, hsome⟩ := hcode
  rw [List.append_assoc]
  simp [Segment.isOrigin]

theorem OriginWritten.readOrigin_eq
    {origin : Nat} {code : Text} (hcode : OriginWritten origin code) :
    Segment.readOrigin code = .ok (origin : Int) := by
  obtain @⟨gap, width, hgap, hsome⟩ := hcode
  have hnumber : ∀ c ∈ '$' :: hexPadded width origin, isBlank c = false := fun c hc =>
    isBlank_of_isPlain
      (isPlain_of_marked (show ∀ c ∈ ['$'], _ from forall_mem_of_all rfl) c hc)
  have hwords : words (Segment.directive ++ gap ++ '$' :: hexPadded width origin) =
      [Segment.directive, '$' :: hexPadded width origin] := by
    rw [words_gap_append (by decide) (forall_mem_of_all rfl)
      ⟨hsome, isBlank_of_mem_indentation hgap⟩, words_word (by simp) hnumber]
  simp only [Segment.readOrigin, hwords, List.drop_succ_cons, List.drop_zero,
    readNumeral_padded]

end Assembler6502
