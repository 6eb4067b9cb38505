import Assembler6502.Proofs.FileCode
import Assembler6502.Proofs.NumeralGrammar
import Assembler6502.Proofs.Sectioning

/-!
# Origin lines

A documented origin line is the directive, blanks, and an address of digits behind a dollar sign. A
line is taken for an origin line by its first four characters alone, the first character of the
address is dropped whatever it is, and the rest is read as any numeral. This file says exactly which
lines of a source are accepted as origins and at which address their section goes. The documented
ones among them are those in which nothing is ignored and the numeral has digits only.
-/

namespace Assembler6502

/-! ## Lines of two words -/

namespace Text

/-- A trimmed text of two words has them at its ends and a gap between them. -/
theorem IsTrimmedBy.exists_gap
    {text first second : Text} (htext : IsTrimmedBy isBlank text)
    (hwords : words text = [first, second]) :
    ∃ gap,
      text = first ++ gap ++ second ∧
      IsGap gap ∧
      (∀ c ∈ first, isBlank c = false) ∧
      ∀ c ∈ second, isBlank c = false := by
  obtain ⟨left, after, hsplit, hleft, -, hfirst, hstart, hafter⟩ := exists_of_words_eq_cons hwords
  obtain ⟨gap, right, hrest, hgap, hsome, hsecond, -, hright⟩ := exists_of_words_eq_cons hafter
  have hleftNil : left = [] := by
    cases left with
    | nil => rfl
    | cons c others =>
        have hblank := hleft c (by simp)
        rw [htext.head c (by simp [hsplit])] at hblank
        exact absurd hblank (by decide)
  have hrightNil : right = [] := by
    by_contra hmargin
    have hblank := isBlank_of_words_eq_nil hright _ (List.getLast_mem hmargin)
    have hlast : text.getLast? = some (right.getLast hmargin) := by
      rw [hsplit, hrest, ← List.append_assoc, List.getLast?_append_of_ne_nil _ hmargin,
        List.getLast?_eq_some_getLast hmargin]
    rw [htext.last _ hlast] at hblank
    exact absurd hblank (by decide)
  have hgapSome : gap ≠ [] := by
    rintro rfl
    obtain ⟨c, others, hcons⟩ := List.exists_cons_of_ne_nil hsome
    have hblank := hstart c (by simp [hrest, hcons])
    rw [hsecond c (by simp [hcons])] at hblank
    exact absurd hblank (by decide)
  refine ⟨gap, ?_, ⟨hgapSome, hgap⟩, hfirst, hsecond⟩
  rw [hsplit, hrest, hleftNil, hrightNil, List.nil_append, List.append_nil, List.append_assoc]

end Text

theorem SourceLine.isTrimmedBy_code
    {content : Text} {line : SourceLine} (hline : line ∈ ofFile content) :
    Text.IsTrimmedBy Text.isBlank line.code := by
  have hcode : line.code ∈ codes content := List.mem_map_of_mem hline
  exact (isBare_of_mem_codes hcode).trimmed

namespace Segment

open Text Hexadecimal

/-! ## Accepted origin lines -/

theorem isBlank_of_mem_directive : ∀ c ∈ directive, isBlank c = false :=
  forall_mem_of_all rfl

/-- The parts of an accepted origin line. What stands right behind the directive and the mark in
front of the numeral are ignored. -/
structure OriginForm where
  excess : Text
  gap : Text
  mark : Char
  word : Text
  numeral : Numeral
  excess_solid : ∀ c ∈ excess, isBlank c = false
  isGap : IsGap gap
  address_solid : ∀ c ∈ mark :: word, isBlank c = false
  spells : numeral.text = word.map unifyDigit

namespace OriginForm

def code (form : OriginForm) : Text :=
  directive ++ form.excess ++ form.gap ++ form.mark :: form.word

def address (form : OriginForm) : Int :=
  form.numeral.value

theorem words_code (form : OriginForm) :
    form.code.words = [directive ++ form.excess, form.mark :: form.word] := by
  have hsolid : ∀ c ∈ directive ++ form.excess, isBlank c = false := by
    intro c hc
    rcases List.mem_append.mp hc with hdirective | hexcess
    · exact isBlank_of_mem_directive c hdirective
    · exact form.excess_solid c hexcess
  rw [code, words_gap_append (by simp [directive]) hsolid form.isGap,
    words_word (by simp) form.address_solid]

theorem read?_word (form : OriginForm) : read? form.word = some form.address := by
  have hsolid : ∀ c ∈ form.word, isBlank c = false := (List.forall_mem_cons.mp form.address_solid).2
  rw [read?_eq_some_iff_of_solid hsolid]
  exact ⟨form.numeral, form.spells, rfl⟩

theorem hasOrigin_code (form : OriginForm) : HasOrigin form.code form.address :=
  ⟨_, _, form.words_code, form.read?_word⟩

end OriginForm

/-- The directive has no blanks, so it lies within the first word. -/
theorem directive_isPrefix_of_word
    {first gap second : Text} (hgap : IsGap gap)
    (hdirective : isOrigin (first ++ gap ++ second) = true) :
    directive <+: first := by
  rw [isOrigin, List.isPrefixOf_iff_prefix, List.append_assoc] at hdirective
  rcases List.prefix_or_prefix_of_prefix hdirective (List.prefix_append first _) with
    hinside | ⟨rest, hrest⟩
  · exact hinside
  · cases rest with
    | nil => rw [← hrest, List.append_nil]
    | cons c rest =>
        obtain ⟨blank, later, hcons⟩ := List.exists_cons_of_ne_nil hgap.nonempty
        rw [← hrest, List.prefix_append_right_inj, hcons, List.cons_append,
          List.cons_prefix_cons] at hdirective
        have hblank := hgap.blank c (by simp [hcons, hdirective.1])
        have hsolid := isBlank_of_mem_directive c (by simp [← hrest])
        rw [hsolid] at hblank
        exact absurd hblank (by decide)

theorem exists_form
    {code : Text} {origin : Int} (htrimmed : IsTrimmedBy isBlank code)
    (hdirective : isOrigin code = true) (horigin : HasOrigin code origin) :
    ∃ form : OriginForm, form.code = code ∧ form.address = origin := by
  obtain ⟨first, second, hwords, hread⟩ := horigin
  obtain ⟨gap, hcode, hgap, hfirst, hsecond⟩ := htrimmed.exists_gap hwords
  cases second with
  | nil => simp [read?, trimBy, readSigned, readMagnitude, readGroups] at hread
  | cons mark word =>
      rw [List.drop_succ_cons, List.drop_zero,
        read?_eq_some_iff_of_solid (List.forall_mem_cons.mp hsecond).2] at hread
      obtain ⟨numeral, hspells, hvalue⟩ := hread
      obtain ⟨excess, rfl⟩ := directive_isPrefix_of_word hgap (hcode ▸ hdirective)
      refine ⟨⟨excess, gap, mark, word, numeral, ?_, hgap, hsecond, hspells⟩, hcode.symm, hvalue⟩
      exact fun c hc => hfirst c (List.mem_append_right _ hc)

theorem not_faulty_iff_exists_form
    {line : SourceLine} (htrimmed : IsTrimmedBy isBlank line.code)
    (hdirective : isOrigin line.code = true) :
    ¬IsFaultyOrigin line ↔ ∃ form : OriginForm, form.code = line.code := by
  constructor
  · intro hline
    obtain ⟨origin, horigin⟩ := hasOrigin_of_not_faulty hdirective hline
    obtain ⟨form, hform, -⟩ := exists_form htrimmed hdirective horigin
    exact ⟨form, hform⟩
  · rintro ⟨form, hform⟩ ⟨-, hnone⟩
    exact hnone form.address (hform ▸ form.hasOrigin_code)

/-! ## Documented origin lines -/

/-- The directive, blanks, and digits behind a dollar sign. -/
def DocumentsOrigin (code digits : Text) : Prop :=
  IsGroup digits ∧ ∃ gap, IsGap gap ∧ code = directive ++ gap ++ '$' :: digits

/-- The line is documented, and a segment starts at the number that its digits write. -/
def OpensAsWritten (segments : List Segment) (code : Text) : Prop :=
  ∃ digits,
    DocumentsOrigin code digits ∧
    ∃ segment ∈ segments, segment.origin = (valueFrom 0 digits : Int)

namespace OriginForm

/-- Nothing is ignored, and the numeral is digits. -/
structure IsPlain (form : OriginForm) : Prop where
  excess : form.excess = []
  mark : form.mark = '$'
  digits : IsGroup form.word

theorem IsPlain.address_eq {form : OriginForm} (hplain : form.IsPlain) :
    form.address = (valueFrom 0 form.word : Int) := by
  have hread := form.read?_word
  rw [read?_of_isDigit hplain.digits.digits hplain.digits.nonempty] at hread
  exact (Option.some.inj hread).symm

theorem documentsOrigin_iff (form : OriginForm) (digits : Text) :
    DocumentsOrigin form.code digits ↔ form.IsPlain ∧ form.word = digits := by
  constructor
  · rintro ⟨hdigits, gap, hgap, hcode⟩
    have hsolid : ∀ c ∈ '$' :: digits, isBlank c = false :=
      List.forall_mem_cons.mpr ⟨by decide, fun c hc => isBlank_of_isDigit (hdigits.digits c hc)⟩
    have hwords := form.words_code
    rw [hcode, words_gap_append (by decide) isBlank_of_mem_directive hgap,
      words_word (by simp) hsolid] at hwords
    simp only [List.cons.injEq, and_true] at hwords
    obtain ⟨hexcess, hmark, rfl⟩ := hwords
    exact ⟨⟨by simpa using hexcess, hmark.symm, hdigits⟩, rfl⟩
  · rintro ⟨hplain, rfl⟩
    refine ⟨hplain.digits, form.gap, form.isGap, ?_⟩
    rw [code, hplain.excess, hplain.mark, List.append_nil]

end OriginForm

/-! ## Source files -/

theorem ofFile_eq_ok
    {content : Text} {segments : List Segment} (hfile : ofFile content = .ok segments) :
    (∀ first,
      (SourceLine.ofFile content).head? = some first → isOrigin first.code = true) ∧
    (∀ line ∈ SourceLine.ofFile content, ¬IsFaultyOrigin line) ∧
    AreSectionsOf segments (SourceLine.ofFile content) := by
  have hfirst : ∀ first,
      (SourceLine.ofFile content).head? = some first → isOrigin first.code = true := by
    intro first hhead
    by_contra hcode
    rw [Bool.not_eq_true] at hcode
    simp [ofFile, ofLines, hhead, hcode] at hfile
  rw [ofFile, ofLines_of_origin hfirst] at hfile
  cases hparts : cutAtOrigins (SourceLine.ofFile content) with
  | error problem => simp [hparts, Except.map] at hfile
  | ok parts =>
      rw [hparts] at hfile
      obtain rfl := Except.ok.inj hfile
      exact ⟨hfirst, not_faulty_of_cutAtOrigins hparts,
        areSectionsOf_arranged hparts (SourceLine.ofFile_nodup content) hfirst⟩

theorem exists_ofFile_eq_ok_iff (content : Text) :
    (∃ segments, ofFile content = .ok segments) ↔
      (∀ first,
        (SourceLine.ofFile content).head? = some first → isOrigin first.code = true) ∧
      ∀ line ∈ SourceLine.ofFile content, ¬IsFaultyOrigin line := by
  constructor
  · rintro ⟨segments, hfile⟩
    obtain ⟨hfirst, hreadable, -⟩ := ofFile_eq_ok hfile
    exact ⟨hfirst, hreadable⟩
  · rintro ⟨hfirst, hreadable⟩
    obtain ⟨parts, hparts⟩ := cutAtOrigins_of_not_faulty hreadable
    rw [ofFile, ofLines_of_origin hfirst, hparts]
    exact ⟨_, rfl⟩

theorem opensAsWritten_iff
    {segments : List Segment} {form : OriginForm}
    (hsegment : ∃ segment ∈ segments, segment.origin = form.address) :
    OpensAsWritten segments form.code ↔ form.IsPlain := by
  constructor
  · rintro ⟨digits, hdocumented, -⟩
    exact ((form.documentsOrigin_iff digits).mp hdocumented).1
  · intro hplain
    rw [hplain.address_eq] at hsegment
    exact ⟨form.word, (form.documentsOrigin_iff _).mpr ⟨hplain, rfl⟩, hsegment⟩

/-- A source is accepted if its code starts with an origin line and every origin line has the form
of an accepted one. Then the address of its numeral starts a segment, and the line is documented and
says where exactly if nothing of it is ignored and the numeral is digits. -/
theorem ofFile_origin_forms (content : Text) :
    ((∃ segments, ofFile content = .ok segments) ↔
      (∀ first,
        (SourceLine.ofFile content).head? = some first → isOrigin first.code = true) ∧
      ∀ line ∈ SourceLine.ofFile content,
        isOrigin line.code = true → ∃ form : OriginForm, form.code = line.code) ∧
    ∀ segments, ofFile content = .ok segments →
      ∀ line ∈ SourceLine.ofFile content,
        isOrigin line.code = true →
          ∃ form : OriginForm,
            form.code = line.code ∧
            (∃ segment ∈ segments, segment.origin = form.address) ∧
            (OpensAsWritten segments line.code ↔ form.IsPlain) := by
  constructor
  · rw [exists_ofFile_eq_ok_iff, and_congr_right_iff]
    intro _
    refine forall₂_congr fun line hline => ?_
    by_cases hdirective : isOrigin line.code = true
    · have htrimmed := SourceLine.isTrimmedBy_code hline
      rw [not_faulty_iff_exists_form htrimmed hdirective, imp_iff_right hdirective]
    · exact iff_of_true (fun hfaulty => hdirective hfaulty.1) fun h => absurd h hdirective
  · intro segments hfile line hline hdirective
    obtain ⟨-, hreadable, hsections⟩ := ofFile_eq_ok hfile
    obtain ⟨origin, horigin⟩ := hasOrigin_of_not_faulty hdirective (hreadable line hline)
    obtain ⟨form, hcode, rfl⟩ :=
      exists_form (SourceLine.isTrimmedBy_code hline) hdirective horigin
    have hsegment := (hsections.origin_iff form.address).mpr ⟨line, hline, hdirective, horigin⟩
    exact ⟨form, hcode, hsegment, hcode ▸ opensAsWritten_iff hsegment⟩

/-- A longer directive, another mark and a signed numeral in groups are accepted together. -/
theorem ofFile_origin_forms_stray :
    let content := ".organic !-0x_1_0\nnop\n".toList
    let segments : List Segment := [⟨-0x10, [⟨2, "nop".toList⟩]⟩]
    ofFile content = .ok segments ∧
      ∃ form : OriginForm,
        form.code = ".organic !-0x_1_0".toList ∧
        form.address = -0x10 ∧
        ¬OpensAsWritten segments form.code := by
  intro content segments
  have hfile : ofFile content = .ok (arranged segments) := by
    unfold content segments
    rfl
  have harranged : arranged segments = segments := List.mergeSort_singleton _
  rw [harranged] at hfile
  obtain ⟨form, hcode, ⟨segment, hsegment, haddress⟩, hwritten⟩ :=
    (ofFile_origin_forms content).2 segments hfile ⟨1, ".organic !-0x_1_0".toList⟩
      (List.mem_cons_self) rfl
  refine ⟨hfile, form, hcode, ?_, ?_⟩
  · rw [← haddress, List.mem_singleton.mp hsegment]
  · rw [hcode, hwritten]
    intro hplain
    have hdollar : '$' ∈ form.code := by simp [OriginForm.code, hplain.mark]
    rw [hcode] at hdollar
    exact absurd hdollar (by decide)

/-- The dollar sign is missing, and the first digit is dropped in its place. -/
theorem origin_without_dollar_accepted :
    ¬∀ (content : Text) (segments : List Segment),
      ofFile content = .ok segments →
        ∀ line ∈ SourceLine.ofFile content,
          isOrigin line.code = true → OpensAsWritten segments line.code := by
  intro hclaim
  obtain ⟨digits, ⟨-, gap, -, hcode⟩, -⟩ := hclaim ".org 8000\nnop\n".toList
    (arranged [⟨0, [⟨2, "nop".toList⟩]⟩]) rfl ⟨1, ".org 8000".toList⟩ List.mem_cons_self rfl
  have hdollar : '$' ∈ ".org 8000".toList := by
    change '$' ∈ (⟨1, ".org 8000".toList⟩ : SourceLine).code
    rw [hcode]
    simp
  exact absurd hdollar (by decide)

end Segment

end Assembler6502
