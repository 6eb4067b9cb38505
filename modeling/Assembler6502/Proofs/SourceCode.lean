import Assembler6502.Image
import Assembler6502.Proofs.CodeLines

/-!
# Assembling looks at code only

A source file is assembled from the code of its lines, in their order. The numbers of the lines take
no part in it, and neither does anything else that reading drops from the file. Two files with the
same code therefore have the same report.

The code of a file is the concatenation of the code of its pieces, wherever a line end separates
them.
-/

namespace Assembler6502

/-! ## Lines without numbers -/

namespace SourceLine

def unnumbered (line : SourceLine) : SourceLine :=
  ⟨0, line.code⟩

def codes (content : Text) : List Text :=
  (ofFile content).map (·.code)

@[simp] theorem code_unnumbered (line : SourceLine) : line.unnumbered.code = line.code := rfl

theorem map_unnumbered_eq (lines : List SourceLine) :
    lines.map unnumbered = (lines.map (·.code)).map (⟨0, ·⟩) := by
  simp [unnumbered]

end SourceLine

namespace Segment

def unnumbered (segment : Segment) : Segment :=
  ⟨segment.origin, segment.lines.map SourceLine.unnumbered⟩

@[simp] theorem origin_unnumbered (segment : Segment) :
    segment.unnumbered.origin = segment.origin := rfl

@[simp] theorem code_unnumbered (segment : Segment) :
    segment.unnumbered.code = segment.code := by
  simp [code, unnumbered]

theorem cutAtOrigins_unnumbered (lines : List SourceLine) :
    cutAtOrigins (lines.map SourceLine.unnumbered) =
      (cutAtOrigins lines).map fun parts =>
        (parts.1.map SourceLine.unnumbered, parts.2.map unnumbered) := by
  induction lines with
  | nil => rfl
  | cons line rest ih =>
      simp only [List.map_cons, cutAtOrigins, SourceLine.code_unnumbered, ih]
      cases isOrigin line.code <;> cases readOrigin line.code <;>
        cases cutAtOrigins rest <;> rfl

theorem keepLast_unnumbered (segments : List Segment) :
    keepLast (segments.map unnumbered) = (keepLast segments).map unnumbered := by
  induction segments with
  | nil => rfl
  | cons segment rest ih =>
      have hagain : (rest.map unnumbered).any (·.origin == segment.unnumbered.origin) =
          rest.any (·.origin == segment.origin) := by
        simp [List.any_map, Function.comp_def]
      simp only [List.map_cons, keepLast, hagain, ih]
      split <;> simp

theorem ofLines_unnumbered (lines : List SourceLine) :
    ofLines (lines.map SourceLine.unnumbered) =
      (ofLines lines).map fun segments => segments.map unnumbered := by
  have hhead : (lines.map SourceLine.unnumbered).head?.any (!isOrigin ·.code) =
      lines.head?.any (!isOrigin ·.code) := by
    cases lines <;> rfl
  unfold ofLines
  rw [hhead, cutAtOrigins_unnumbered]
  split
  · rfl
  · cases cutAtOrigins lines with
    | error problem => rfl
    | ok parts =>
        simp only [Except.map, keepLast_unnumbered]
        rw [List.map_mergeSort]
        intro first _ second _
        rfl

end Segment

namespace Image

theorem laySegments_unnumbered
    (quiet : Bool) (image : Image) (segments : List Segment) :
    laySegments quiet image (segments.map Segment.unnumbered) =
      laySegments quiet image segments := by
  induction segments generalizing image with
  | nil => rfl
  | cons segment rest ih =>
      simp only [List.map_cons, laySegments, Segment.code_unnumbered,
        Segment.origin_unnumbered, ih]

/-- Assembling a file gives the report for its code without the numbers of the lines. -/
theorem assemble_eq_of_ofLines (content : Text) (quiet : Bool) :
    assemble content quiet =
      match Segment.ofLines ((SourceLine.codes content).map (⟨0, ·⟩)) with
      | .error problem => ⟨[], .error problem⟩
      | .ok segments => laySegments quiet blank segments := by
  unfold assemble Segment.ofFile SourceLine.codes
  rw [← SourceLine.map_unnumbered_eq, Segment.ofLines_unnumbered]
  cases Segment.ofLines (SourceLine.ofFile content) with
  | error problem => rfl
  | ok segments => exact (laySegments_unnumbered quiet blank segments).symm

theorem assemble_eq_of_codes_eq
    {content other : Text}
    (hcodes : SourceLine.codes content = SourceLine.codes other) (quiet : Bool) :
    assemble content quiet = assemble other quiet := by
  rw [assemble_eq_of_ofLines, assemble_eq_of_ofLines, hcodes]

end Image

/-! ## The code of concatenated files -/

namespace SourceLine

/-- Every text is a file of lines that have no line end inside. -/
theorem exists_isFileOf (content : Text) :
    ∃ lines, IsFileOf lines content ∧ ∀ line ∈ lines, IsOneLine line := by
  induction content with
  | nil => exact ⟨[[]], .last [], by simp [IsOneLine]⟩
  | cons c rest ih =>
      obtain ⟨lines, hfile, hlines⟩ := ih
      by_cases hc : c = '\n' ∨ c = '\r'
      · refine ⟨[] :: lines, ?_, ?_⟩
        · have hend : IsLineEnd [c] := by
            rcases hc with rfl | rfl
            · exact Or.inl rfl
            · exact Or.inr (Or.inl rfl)
          exact IsFileOf.line [] hend hfile
        · simpa [IsOneLine] using hlines
      · push Not at hc
        cases hfile with
        | last =>
            refine ⟨[c :: rest], .last _, ?_⟩
            simpa [IsOneLine, hc] using hlines
        | @line line lineEnd later rest hend hlater =>
            refine ⟨(c :: line) :: later, ?_, ?_⟩
            · exact IsFileOf.line (c :: line) hend hlater
            · simpa [IsOneLine, hc] using hlines

theorem IsFileOf.append
    {lines later : List Text} {content rest lineEnd : Text}
    (hcontent : IsFileOf lines content) (hend : IsLineEnd lineEnd)
    (hrest : IsFileOf later rest) :
    IsFileOf (lines ++ later) (content ++ lineEnd ++ rest) := by
  induction hcontent with
  | last line => exact .line line hend hrest
  | line line hfirst hlater ih =>
      have hjoined := IsFileOf.line line hfirst ih
      simpa using hjoined

theorem codes_eq_of_isFileOf
    {lines : List Text} {content : Text}
    (hfile : IsFileOf lines content) (hlines : ∀ line ∈ lines, IsOneLine line) :
    codes content = lines.filterMap code? :=
  map_code_ofFile hfile hlines

theorem codes_append_lineEnd
    {lineEnd : Text} (hend : IsLineEnd lineEnd) (first rest : Text) :
    codes (first ++ lineEnd ++ rest) = codes first ++ codes rest := by
  obtain ⟨lines, hfirst, hlines⟩ := exists_isFileOf first
  obtain ⟨later, hrest, hlater⟩ := exists_isFileOf rest
  rw [codes_eq_of_isFileOf (hfirst.append hend hrest) (List.forall_mem_append.mpr ⟨hlines, hlater⟩),
    codes_eq_of_isFileOf hfirst hlines, codes_eq_of_isFileOf hrest hlater, List.filterMap_append]

theorem codes_of_isOneLine {line : Text} (hline : IsOneLine line) :
    codes line = (code? line).toList := by
  rw [codes_eq_of_isFileOf (.last line) (by simpa using hline)]
  cases hcode : code? line <;> simp [hcode]

end SourceLine

end Assembler6502
