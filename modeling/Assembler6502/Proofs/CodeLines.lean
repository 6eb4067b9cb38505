import Assembler6502.Proofs.TextShape
import Assembler6502.SourceLine

/-!
# The code on the lines of a file

The code of a line is what stands before its first semicolon, in lower case and trimmed. Whatever
stands behind the semicolon has no influence: the lower-case form of a letter depends on its
neighbours only within a word, and a semicolon is not part of one. The same holds of the character
that ends the line, so a file has the same code whichever way its lines end. Joined again, the lines
are the text with line feeds for all its line ends.
-/

namespace Assembler6502

namespace Text

/-! ## Lower case -/

theorem lowerAfter_ascii
    (afterCased : Bool) {text : Text} (hascii : ∀ c ∈ text, c.toNat < 0x80) :
    lowerAfter afterCased text = text.map Char.toLower := by
  induction text generalizing afterCased with
  | nil => rfl
  | cons c rest ih =>
      have hc : c.toNat < 0x80 := hascii c (by simp)
      have hsigma : c ≠ 'Σ' := by
        rintro rfl
        exact absurd hc (by decide)
      rw [lowerAfter, if_neg hsigma, lowerLetter, if_pos hc,
        ih _ fun d hd => hascii d (by simp [hd])]
      rfl

theorem lower_ascii {text : Text} (hascii : ∀ c ∈ text, c.toNat < 0x80) :
    text.lower = text.map Char.toLower :=
  lowerAfter_ascii false hascii

/-- The character belongs to no word: it has no case, and case does not look past it. -/
structure SeparatesCase (c : Char) : Prop where
  uncased : isCased c = false
  seen : isCaseIgnorable c = false

theorem startsCased_append
    {separator : Char} (hseparator : SeparatesCase separator) (first rest : Text) :
    startsCased (first ++ separator :: rest) = startsCased first := by
  unfold startsCased
  rw [List.dropWhile_append]
  cases hfirst : first.dropWhile isCaseIgnorable with
  | nil =>
      have hstop : (separator :: rest).dropWhile isCaseIgnorable = separator :: rest := by
        apply List.dropWhile_cons_of_neg
        simp [hseparator.seen]
      simp [hstop, hseparator.uncased]
  | cons c others => simp

theorem lowerAfter_append
    {separator : Char} (hseparator : SeparatesCase separator)
    (afterCased : Bool) (first rest : Text) :
    lowerAfter afterCased (first ++ separator :: rest) =
      lowerAfter afterCased first ++ lowerLetter separator ++ rest.lower := by
  induction first generalizing afterCased with
  | nil =>
      have hsigma : separator ≠ 'Σ' := by
        rintro rfl
        exact absurd hseparator.uncased (by decide)
      simp only [List.nil_append, lowerAfter, if_neg hsigma, hseparator.seen,
        hseparator.uncased]
      rfl
  | cons c first ih =>
      rw [List.cons_append, lowerAfter, lowerAfter, startsCased_append hseparator, ih]
      simp only [List.append_assoc]

/-- A separator cuts a text into two that are lower-cased on their own. -/
theorem lower_append
    {separator : Char} (hseparator : SeparatesCase separator) (first rest : Text) :
    (first ++ separator :: rest).lower =
      first.lower ++ lowerLetter separator ++ rest.lower :=
  lowerAfter_append hseparator false first rest

theorem semicolon_separatesCase : SeparatesCase ';' :=
  ⟨by decide +kernel, by decide +kernel⟩

theorem lineFeed_separatesCase : SeparatesCase '\n' :=
  ⟨by decide +kernel, by decide +kernel⟩

end Text

namespace SourceLine

open Text

/-! ## One line -/

theorem semicolon_not_mem_of_blank
    {text : Text} (htext : ∀ c ∈ text, isBlank c = true) :
    ';' ∉ text := by
  intro hmem
  exact absurd (htext ';' hmem) (by decide)

theorem trim_before_append_blank
    {margin : Text} (hmargin : ∀ c ∈ margin, isBlank c = true) (text : Text) :
    ((text ++ margin).before ';').trim = (text.before ';').trim := by
  by_cases hmem : ';' ∈ text
  · rw [before_append_of_mem hmem]
  · have hboth : ';' ∉ text ++ margin := by
      rw [List.mem_append, not_or]
      exact ⟨hmem, semicolon_not_mem_of_blank hmargin⟩
    rw [before_of_not_mem hmem, before_of_not_mem hboth]
    exact trimBy_append_right hmargin text

theorem trim_before_blank_append
    {margin : Text} (hmargin : ∀ c ∈ margin, isBlank c = true) (text : Text) :
    ((margin ++ text).before ';').trim = (text.before ';').trim := by
  have hplain : ∀ c ∈ margin, decide (c ≠ ';') = true := by
    intro c hc
    have hne : c ≠ ';' := by
      rintro rfl
      exact semicolon_not_mem_of_blank hmargin hc
    simpa using hne
  unfold before
  rw [List.takeWhile_append_of_pos hplain]
  exact trimBy_append_left hmargin _

/-- A line has code exactly if something other than blanks stands before its first semicolon. -/
theorem code?_eq (line : Text) :
    code? line =
      if (line.lower.before ';').trim = [] then none
      else some (line.lower.before ';').trim := by
  obtain ⟨left, right, htext, hleft, hright, htrimmed⟩ :=
    exists_margins isBlank line.lower
  have hbefore : (line.lower.before ';').trim = (line.lower.trim.before ';').trim := by
    conv_lhs => rw [htext]
    rw [trim_before_append_blank hright, trim_before_blank_append hleft]
    rfl
  rw [hbefore]
  unfold code?
  cases hcode : line.lower.trim with
  | nil => simp [before, trim, trimBy]
  | cons c rest =>
      by_cases hc : c = ';'
      · subst hc
        simp [before, trim, trimBy]
      · have hblank : isBlank c = false := by
          apply htrimmed.head c
          have hhead : (trimBy isBlank line.lower).head? = some c := by
            rw [show trimBy isBlank line.lower = c :: rest from hcode]
            rfl
          exact hhead
        have hsome : (before ';' (c :: rest)).trim ≠ [] := by
          intro hnil
          have hall := (trimBy_eq_nil_iff isBlank _).mp hnil c (by simp [before_cons_of_ne hc])
          rw [hblank] at hall
          exact absurd hall (by decide)
        simp [hsome, Ne.symm hc]

theorem code?_nil : code? [] = none := rfl

theorem code?_append_lineFeed (line : Text) :
    code? (line ++ ['\n']) = code? line := by
  have hlower : (line ++ ['\n']).lower = line.lower ++ ['\n'] := by
    rw [lower_append lineFeed_separatesCase]
    simp [lowerLetter, lower, lowerAfter]
  have hblank : ∀ c ∈ ['\n'], isBlank c = true := forall_mem_of_all rfl
  rw [code?_eq, code?_eq, hlower, trim_before_append_blank hblank]

theorem code?_append_comment (line comment : Text) :
    code? (line ++ ';' :: comment) = code? line := by
  have hlower : (line ++ ';' :: comment).lower =
      line.lower ++ ';' :: comment.lower := by
    rw [lower_append semicolon_separatesCase]
    simp [lowerLetter]
  rw [code?_eq, code?_eq, hlower]
  by_cases hmem : ';' ∈ line.lower
  · rw [before_append_of_mem hmem]
  · rw [before_append_mark hmem, before_of_not_mem hmem]

/-! ## All lines of a file -/

def IsLineEnd (lineEnd : Text) : Prop :=
  lineEnd = ['\n'] ∨ lineEnd = ['\r'] ∨ lineEnd = ['\r', '\n']

def IsOneLine (line : Text) : Prop :=
  ∀ c ∈ line, c ≠ '\n' ∧ c ≠ '\r'

instance (line : Text) : Decidable (IsOneLine line) :=
  List.decidableBAll _ line

/-- A file is made of lines. Each of them but the last has a line end behind it. -/
inductive IsFileOf : List Text → Text → Prop
  | last (line : Text) : IsFileOf [line] line
  | line (line : Text) {lineEnd : Text} {later : List Text} {rest : Text}
      (hend : IsLineEnd lineEnd) (hlater : IsFileOf later rest) :
      IsFileOf (line :: later) (line ++ lineEnd ++ rest)

theorem map_code_numbered (number : Nat) (lines : List Text) :
    (numbered number lines).map (·.code) = lines.filterMap code? := by
  induction lines generalizing number with
  | nil => rfl
  | cons line rest ih =>
      unfold numbered
      cases hcode : code? line with
      | none => simp [hcode, ih]
      | some code => simp [hcode, ih]

theorem le_number_of_mem_numbered
    {number : Nat} {lines : List Text} {line : SourceLine}
    (hline : line ∈ numbered number lines) :
    number ≤ line.number := by
  induction lines generalizing number with
  | nil => simp [numbered] at hline
  | cons first rest ih =>
      unfold numbered at hline
      split at hline
      · have hlater := ih hline
        omega
      · rcases List.mem_cons.mp hline with rfl | hmem
        · exact le_rfl
        · have hlater := ih hmem
          omega

theorem numbered_pairwise (number : Nat) (lines : List Text) :
    (numbered number lines).Pairwise fun first second => first.number < second.number := by
  induction lines generalizing number with
  | nil => exact List.Pairwise.nil
  | cons line rest ih =>
      unfold numbered
      split
      · exact ih (number + 1)
      · apply List.Pairwise.cons _ (ih (number + 1))
        intro other hother
        exact le_number_of_mem_numbered hother

theorem ofFile_nodup (content : Text) : (ofFile content).Nodup := by
  apply (numbered_pairwise 1 content.lines).imp
  rintro first second hless rfl
  exact absurd hless (lt_irrefl first.number)

theorem unifyLineEndsAfter_append
    (afterReturn : Bool) {line : Text} (hline : IsOneLine line) (rest : Text) :
    unifyLineEndsAfter afterReturn (line ++ rest) =
      line ++ unifyLineEndsAfter (afterReturn && line.isEmpty) rest := by
  induction line generalizing afterReturn with
  | nil => simp
  | cons c line ih =>
      obtain ⟨hfeed, hreturn⟩ := hline c (by simp)
      have hlater : IsOneLine line := fun d hd => hline d (by simp [hd])
      simp [unifyLineEndsAfter, hfeed, hreturn, ih false hlater]

theorem splitLines_cons (c : Char) (rest : Text) :
    splitLines (c :: rest) =
      if c = '\n' then [c] :: splitLines rest else extendFirst c (splitLines rest) := rfl

theorem splitLines_append_lineFeed
    {line : Text} (hline : IsOneLine line) (rest : Text) :
    splitLines (line ++ '\n' :: rest) = (line ++ ['\n']) :: splitLines rest := by
  induction line with
  | nil => simp [splitLines]
  | cons c line ih =>
      have hc := (hline c (by simp)).1
      have hlater := ih fun d hd => hline d (by simp [hd])
      rw [List.cons_append, splitLines_cons, if_neg hc, hlater]
      rfl

theorem splitLines_oneLine
    {line : Text} (hline : IsOneLine line) (hsome : line ≠ []) :
    splitLines line = [line] := by
  induction line with
  | nil => exact absurd rfl hsome
  | cons c line ih =>
      have hc := (hline c (by simp)).1
      cases line with
      | nil => simp [splitLines, hc, extendFirst]
      | cons d line =>
          have hlater := ih (fun e he => hline e (List.mem_cons_of_mem c he)) (by simp)
          rw [splitLines_cons, if_neg hc, hlater]
          rfl

/-- The code in a file does not depend on how its lines end. The flag is on behind a carriage
return, where a line feed is part of the same line end. -/
theorem codes_of_isFileOf
    {lines : List Text} {content : Text}
    (hfile : IsFileOf lines content)
    (hlines : ∀ line ∈ lines, IsOneLine line) (afterReturn : Bool) :
    (splitLines (unifyLineEndsAfter afterReturn content)).filterMap code? =
      lines.filterMap code? := by
  induction hfile generalizing afterReturn with
  | last line =>
      have hline := hlines line (by simp)
      have hunified : unifyLineEndsAfter afterReturn line = line := by
        simpa [unifyLineEndsAfter] using unifyLineEndsAfter_append afterReturn hline []
      rw [hunified]
      by_cases hsome : line = []
      · subst hsome
        rfl
      · rw [splitLines_oneLine hline hsome]
  | @line line lineEnd later rest hend hlater ih =>
      have hline := hlines line (by simp)
      have hih := ih fun other hother => hlines other (by simp [hother])
      have hcons : ∀ flag,
          (splitLines (line ++ '\n' :: unifyLineEndsAfter flag rest)).filterMap code? =
            (line :: later).filterMap code? := by
        intro flag
        rw [splitLines_append_lineFeed hline, List.filterMap_cons, List.filterMap_cons,
          code?_append_lineFeed, hih]
      rw [List.append_assoc, unifyLineEndsAfter_append afterReturn hline]
      rcases hend with rfl | rfl | rfl
      · cases hflag : afterReturn && line.isEmpty with
        | false => simpa [unifyLineEndsAfter] using hcons false
        | true =>
            -- The line feed belongs to the line end before, so the line is not there at all.
            have hempty : line = [] := by simp at hflag; exact hflag.2
            subst hempty
            rw [List.filterMap_cons_none code?_nil]
            simpa [unifyLineEndsAfter] using hih false
      · simpa [unifyLineEndsAfter] using hcons true
      · simpa [unifyLineEndsAfter] using hcons false

theorem map_code_ofFile
    {lines : List Text} {content : Text}
    (hfile : IsFileOf lines content)
    (hlines : ∀ line ∈ lines, IsOneLine line) :
    (ofFile content).map (·.code) = lines.filterMap code? := by
  unfold ofFile Text.lines unifyLineEnds
  rw [map_code_numbered]
  exact codes_of_isFileOf hfile hlines false

end SourceLine

/-! ## The lines of a text -/

namespace Text

theorem return_not_mem_unifyLineEndsAfter (afterReturn : Bool) (text : Text) :
    '\r' ∉ unifyLineEndsAfter afterReturn text := by
  induction text generalizing afterReturn with
  | nil => simp [unifyLineEndsAfter]
  | cons c rest ih =>
      rw [unifyLineEndsAfter]
      split
      · exact ih false
      · rw [List.mem_cons, not_or]
        refine ⟨?_, ih _⟩
        split
        · decide
        next hc => exact Ne.symm hc

theorem unifyLineEnds_eq_self {text : Text} (htext : '\r' ∉ text) : unifyLineEnds text = text := by
  unfold unifyLineEnds
  induction text with
  | nil => rfl
  | cons c rest ih =>
      rw [List.mem_cons, not_or] at htext
      have hc : c ≠ '\r' := Ne.symm htext.1
      simp [unifyLineEndsAfter, hc, ih htext.2]

theorem flatten_splitLines (text : Text) : (splitLines text).flatten = text := by
  induction text with
  | nil => rfl
  | cons c rest ih =>
      rw [SourceLine.splitLines_cons]
      split
      · rw [List.flatten_cons, ih]
        rfl
      · cases hlines : splitLines rest with
        | nil =>
            rw [hlines] at ih
            simp [extendFirst, ← ih]
        | cons first others =>
            rw [hlines, List.flatten_cons] at ih
            simp [extendFirst, ← ih]

/-- A line that is not the last one ends with its only line feed. -/
theorem exists_lineFeed_of_mem
    {text line : Text} {before after : List Text}
    (hlines : splitLines text = before ++ line :: after) :
    ∀ earlier ∈ before, ∃ start, earlier = start ++ ['\n'] ∧ '\n' ∉ start := by
  induction text generalizing before with
  | nil => simp [splitLines] at hlines
  | cons c rest ih =>
      rw [SourceLine.splitLines_cons] at hlines
      cases before with
      | nil => simp
      | cons first others =>
          split at hlines
          next hc =>
              obtain ⟨rfl, hrest⟩ := List.cons.inj hlines
              refine List.forall_mem_cons.mpr ⟨⟨[], by rw [hc]; rfl, by simp⟩, ih hrest⟩
          next hc =>
              cases hsplit : splitLines rest with
              | nil => simp [hsplit, extendFirst] at hlines
              | cons start later =>
                  rw [hsplit] at hlines
                  obtain ⟨rfl, hlater⟩ := List.cons.inj hlines
                  have hrest : splitLines rest = (start :: others) ++ line :: after := by
                    rw [hsplit, hlater]
                    rfl
                  obtain ⟨⟨begin, rfl, hbegin⟩, hothers⟩ := List.forall_mem_cons.mp (ih hrest)
                  refine List.forall_mem_cons.mpr ⟨⟨c :: begin, rfl, ?_⟩, hothers⟩
                  simp [Ne.symm hc, hbegin]

/-- The lines in front of a line, taken as a file of their own, are its lines. -/
theorem lines_flatten_of_append
    {content line : Text} {before after : List Text}
    (hlines : content.lines = before ++ line :: after) :
    lines before.flatten = before := by
  have hfeeds := exists_lineFeed_of_mem hlines
  have hreturn : ∀ earlier ∈ before, '\r' ∉ earlier := by
    intro earlier hearlier hmem
    apply return_not_mem_unifyLineEndsAfter false content
    rw [← flatten_splitLines (unifyLineEndsAfter false content)]
    apply List.mem_flatten.mpr
    refine ⟨earlier, ?_, hmem⟩
    change earlier ∈ content.lines
    rw [hlines]
    exact List.mem_append_left _ hearlier
  have hflatten : '\r' ∉ before.flatten := by
    intro hmem
    obtain ⟨earlier, hearlier, hreturnMem⟩ := List.mem_flatten.mp hmem
    exact hreturn earlier hearlier hreturnMem
  rw [lines, unifyLineEnds_eq_self hflatten]
  clear hlines hflatten
  induction before with
  | nil => rfl
  | cons first others ih =>
      obtain ⟨⟨start, rfl, hstart⟩, hfeedOthers⟩ := List.forall_mem_cons.mp hfeeds
      obtain ⟨hfirstReturn, hreturnOthers⟩ := List.forall_mem_cons.mp hreturn
      have hone : SourceLine.IsOneLine start := by
        intro c hc
        constructor
        · rintro rfl
          exact hstart hc
        · rintro rfl
          exact hfirstReturn (List.mem_append_left _ hc)
      rw [List.flatten_cons, List.append_assoc, List.singleton_append,
        SourceLine.splitLines_append_lineFeed hone, ih hfeedOthers hreturnOthers]

end Text

end Assembler6502
