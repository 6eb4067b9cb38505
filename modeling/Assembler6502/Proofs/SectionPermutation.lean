import Assembler6502.Proofs.ImageLaying
import Assembler6502.Proofs.Sectioning
import Assembler6502.Proofs.SourceCode

/-!
# Sections in any order

A source file that can be cut at its origins is a list of sections behind some lines without code.
If no two sections have the same origin, their order in the file has no influence: every section
becomes one segment, the segments are sorted by origin before the first of them is assembled, and
each of them has a symbol table of its own.
-/

namespace Assembler6502

open Segment

/-- A section as it is written: an origin line and the lines below it up to the next origin line. -/
structure SourceSection where
  directive : Text
  body : List Text
  code : Text
  origin : Int
  directive_code : SourceLine.code? directive = some code
  code_isOrigin : isOrigin code = true
  code_hasOrigin : HasOrigin code origin
  body_isCode : ∀ other ∈ body.filterMap SourceLine.code?, isOrigin other = false

namespace SourceSection

def lines (part : SourceSection) : List Text :=
  part.directive :: part.body

def bodyLines (part : SourceSection) : List SourceLine :=
  (part.body.filterMap SourceLine.code?).map (⟨0, ·⟩)

/-- The segment that a section becomes, without the numbers of its lines. -/
def segment (part : SourceSection) : Segment :=
  ⟨part.origin, part.bodyLines⟩

theorem isOrigin_bodyLines (part : SourceSection) :
    ∀ code ∈ part.bodyLines.map (·.code), isOrigin code = false := by
  intro code hcode
  apply part.body_isCode
  simpa [bodyLines, Function.comp_def] using hcode

theorem cutAtOrigins_flatMap_lines (sections : List SourceSection) :
    cutAtOrigins (((sections.flatMap lines).filterMap SourceLine.code?).map (⟨0, ·⟩)) =
      .ok ([], sections.map segment) := by
  induction sections with
  | nil => rfl
  | cons part rest ih =>
      have hbody := cutAtOrigins_append part.isOrigin_bodyLines
        (((rest.flatMap lines).filterMap SourceLine.code?).map (⟨0, ·⟩))
      rw [ih] at hbody
      have hstart : StartsAt ⟨0, part.code⟩ part.origin := ⟨part.code_isOrigin, part.code_hasOrigin⟩
      have hcut := cutAtOrigins_of_startsAt hstart hbody
      rw [List.flatMap_cons, lines, List.cons_append,
        List.filterMap_cons_some part.directive_code, List.filterMap_append, List.map_cons,
        List.map_append, List.map_cons]
      simpa [segment, bodyLines] using hcut

end SourceSection

/-! ## Files of sections -/

/-- The file consists of lines without code and of sections behind them. -/
structure IsCutInto
    (content : Text) (preamble : List Text) (sections : List SourceSection) : Prop where
  file : SourceLine.IsFileOf (preamble ++ sections.flatMap SourceSection.lines) content
  oneLine : ∀ line ∈ preamble ++ sections.flatMap SourceSection.lines, SourceLine.IsOneLine line
  preamble_code : ∀ line ∈ preamble, SourceLine.code? line = none

/-- Lines whose origin lines can all be read are sections, behind lines that open none. -/
theorem exists_sections
    {lines : List Text}
    (hlines : ∀ code ∈ lines.filterMap SourceLine.code?,
      isOrigin code = true → ∃ origin, HasOrigin code origin) :
    ∃ (preamble : List Text) (sections : List SourceSection),
      lines = preamble ++ sections.flatMap SourceSection.lines ∧
      ∀ code ∈ preamble.filterMap SourceLine.code?, isOrigin code = false := by
  induction lines with
  | nil => exact ⟨[], [], rfl, by simp⟩
  | cons line rest ih =>
      cases hcode : SourceLine.code? line with
      | none =>
          rw [List.filterMap_cons_none hcode] at hlines
          obtain ⟨preamble, sections, hsplit, hpreamble⟩ := ih hlines
          refine ⟨line :: preamble, sections, by rw [hsplit, List.cons_append], ?_⟩
          rw [List.filterMap_cons_none hcode]
          exact hpreamble
      | some code =>
          rw [List.filterMap_cons_some hcode] at hlines
          obtain ⟨hfirst, hrest⟩ := List.forall_mem_cons.mp hlines
          obtain ⟨preamble, sections, hsplit, hpreamble⟩ := ih hrest
          cases hstart : isOrigin code with
          | false =>
              refine ⟨line :: preamble, sections, by rw [hsplit, List.cons_append], ?_⟩
              rw [List.filterMap_cons_some hcode]
              exact List.forall_mem_cons.mpr ⟨hstart, hpreamble⟩
          | true =>
              -- What came before the next origin line is the body of the section opened here.
              obtain ⟨origin, horigin⟩ := hfirst hstart
              let part : SourceSection :=
                ⟨line, preamble, code, origin, hcode, hstart, horigin, hpreamble⟩
              exact ⟨[], part :: sections, by simp [part, SourceSection.lines, hsplit], by simp⟩

theorem exists_isCutInto
    {content : Text} {segments : List Segment} (hsegments : Segment.ofFile content = .ok segments) :
    ∃ preamble sections, IsCutInto content preamble sections := by
  obtain ⟨lines, hfile, hone⟩ := SourceLine.exists_isFileOf content
  have hcodes : (SourceLine.ofFile content).map (·.code) = lines.filterMap SourceLine.code? :=
    SourceLine.map_code_ofFile hfile hone
  obtain ⟨parts, hparts, -⟩ := ofLines_eq_ok hsegments
  have hreadable : ∀ code ∈ lines.filterMap SourceLine.code?,
      isOrigin code = true → ∃ origin, HasOrigin code origin := by
    intro code hcode hstart
    rw [← hcodes] at hcode
    obtain ⟨line, hline, rfl⟩ := List.mem_map.mp hcode
    exact hasOrigin_of_not_faulty hstart (not_faulty_of_cutAtOrigins hparts line hline)
  obtain ⟨preamble, sections, rfl, hpreamble⟩ := exists_sections hreadable
  refine ⟨preamble, sections, hfile, hone, ?_⟩
  -- The first code of the file is an origin line, so it is not in the preamble.
  have hnone : preamble.filterMap SourceLine.code? = [] := by
    by_contra hsome
    obtain ⟨first, rest, hfirst⟩ := List.exists_cons_of_ne_nil hsome
    have hcode := hpreamble first (by simp [hfirst])
    have hhead : ((SourceLine.ofFile content).map (·.code)).head? = some first := by
      rw [hcodes, List.filterMap_append, hfirst]
      rfl
    rw [List.head?_map, Option.map_eq_some_iff] at hhead
    obtain ⟨firstLine, hfirstLine, rfl⟩ := hhead
    have herror : Segment.ofFile content = .error .codeBeforeOrigin := by
      simp [Segment.ofFile, ofLines, hfirstLine, hcode]
    rw [herror] at hsegments
    simp at hsegments
  intro line hline
  exact List.filterMap_eq_nil_iff.mp hnone line hline

/-! ## The report on a file of sections -/

theorem Segment.arranged_eq_of_perm
    {segments others : List Segment}
    (hdistinct : segments.Pairwise fun first second => first.origin ≠ second.origin)
    (hperm : others.Perm segments) :
    arranged others = arranged segments := by
  have hothers : others.Pairwise fun first second => first.origin ≠ second.origin :=
    hperm.symm.pairwise hdistinct fun hne => hne.symm
  refine arranged_eq_of_ascending ?_ (arranged_ascending segments)
  rw [keepLast_eq_self hothers]
  have hkept := arranged_perm segments
  rw [keepLast_eq_self hdistinct] at hkept
  exact hkept.trans hperm.symm

namespace Image

theorem assemble_of_isCutInto
    {content : Text} {preamble : List Text} {sections : List SourceSection}
    (hcut : IsCutInto content preamble sections) (quiet : Bool) :
    assemble content quiet =
      laySegments quiet blank (arranged (sections.map SourceSection.segment)) := by
  have hpreamble : preamble.filterMap SourceLine.code? = [] :=
    List.filterMap_eq_nil_iff.mpr hcut.preamble_code
  have hcodes : SourceLine.codes content =
      (sections.flatMap SourceSection.lines).filterMap SourceLine.code? := by
    rw [SourceLine.codes_eq_of_isFileOf hcut.file hcut.oneLine, List.filterMap_append, hpreamble,
      List.nil_append]
  have hsegments := ofLines_of_cutAtOrigins (SourceSection.cutAtOrigins_flatMap_lines sections)
  rw [assemble_eq_of_ofLines, hcodes, hsegments]

/-- Segments that do not all assemble fail with the problem of the failing one that has the
smallest origin. -/
theorem exists_lowest_failing
    {quiet : Bool} {image : Image} {segments : List Segment} {problem : Problem}
    (hascending : Ascending segments)
    (hproblem : (laySegments quiet image segments).result = .error problem) :
    ∃ failing ∈ segments,
      failing.outcome.result = .error problem ∧
      ∀ segment ∈ segments, segment.origin < failing.origin → segment.Assembles := by
  obtain ⟨before, failing, after, rfl, hbefore, hfailing⟩ := exists_failing_of_laySegments hproblem
  refine ⟨failing, by simp, hfailing, ?_⟩
  intro segment hsegment hlower
  obtain ⟨-, hlater, -⟩ := List.pairwise_append.mp hascending
  rcases List.mem_append.mp hsegment with hmem | hmem
  · exact hbefore segment hmem
  · rcases List.mem_cons.mp hmem with rfl | hmem
    · omega
    · have hhigher := (List.pairwise_cons.mp hlater).1 segment hmem
      omega

/-- Every source file that has segments is a file of sections. If their origins are distinct, any
permutation of the sections has the same report: the same notices, and the same image or the same
problem, which is that of the failing segment with the smallest origin. -/
theorem assemble_permuted_sections
    {content : Text} {segments : List Segment}
    (hsegments : Segment.ofFile content = .ok segments) :
    (∃ preamble sections, IsCutInto content preamble sections) ∧
    ∀ (preamble otherPreamble : List Text) (sections permuted : List SourceSection)
      (other : Text) (quiet : Bool),
      IsCutInto content preamble sections →
      (sections.map (·.origin)).Nodup →
      permuted.Perm sections →
      IsCutInto other otherPreamble permuted →
        assemble other quiet = assemble content quiet ∧
        ∀ problem, (assemble content quiet).result = .error problem →
          ∃ failing ∈ segments,
            failing.outcome.result = .error problem ∧
            ∀ segment ∈ segments, segment.origin < failing.origin → segment.Assembles := by
  refine ⟨exists_isCutInto hsegments, ?_⟩
  intro preamble otherPreamble sections permuted other quiet hcut hdistinct hperm hother
  constructor
  · have hsegmentsDistinct : (sections.map SourceSection.segment).Pairwise
        fun first second => first.origin ≠ second.origin :=
      List.pairwise_map.mpr (List.pairwise_map.mp hdistinct)
    have harranged := arranged_eq_of_perm hsegmentsDistinct (hperm.map SourceSection.segment)
    rw [assemble_of_isCutInto hcut, assemble_of_isCutInto hother, harranged]
  · intro problem hproblem
    simp only [assemble, hsegments] at hproblem
    exact exists_lowest_failing (Segment.ofFile_ascending hsegments) hproblem

/-- Neither section assembles. The lower one decides the problem, also where it comes last. -/
theorem assemble_permuted_sections_failing :
    let content := ".org $10\nlda #$zz\n.org $20\nfoo".toList
    let other := "; high first\r\n.org $20\rfoo\n.org $10\nlda #$zz".toList
    (∃ segments, Segment.ofFile content = .ok segments) ∧
      assemble other false = assemble content false ∧
      (assemble other false).result = .error (.numeral "zz".toList) := by
  intro content other
  let low : SourceSection :=
    ⟨".org $10".toList, ["lda #$zz".toList], ".org $10".toList, 0x10, rfl, rfl,
      ⟨_, _, rfl, rfl⟩, by decide⟩
  let high : SourceSection :=
    ⟨".org $20".toList, ["foo".toList], ".org $20".toList, 0x20, rfl, rfl,
      ⟨_, _, rfl, rfl⟩, by decide⟩
  have hcontent : IsCutInto content [] [low, high] := by
    refine ⟨?_, by decide, by decide⟩
    exact .line _ (Or.inl rfl) (.line _ (Or.inl rfl) (.line _ (Or.inl rfl) (.last _)))
  have hother : IsCutInto other ["; high first".toList] [high, low] := by
    refine ⟨?_, by decide, by decide⟩
    exact .line _ (Or.inr (Or.inr rfl)) (.line _ (Or.inr (Or.inl rfl))
      (.line _ (Or.inl rfl) (.line _ (Or.inl rfl) (.last _))))
  have hsegments : Segment.ofFile content = .ok (arranged
      [⟨0x10, [⟨2, "lda #$zz".toList⟩]⟩, ⟨0x20, [⟨4, "foo".toList⟩]⟩]) := rfl
  have hsame := ((assemble_permuted_sections hsegments).2 _ _ _ _ _ false hcontent
    (by decide) (List.Perm.swap low high []) hother).1
  refine ⟨⟨_, hsegments⟩, hsame, ?_⟩
  have harranged : arranged ([low, high].map SourceSection.segment) =
      [low.segment, high.segment] :=
    arranged_eq_of_ascending (List.Perm.refl _) (by decide)
  rw [hsame, assemble_of_isCutInto hcontent, harranged]
  rfl

end Image

end Assembler6502
