import Assembler6502.Proofs.LowerCase
import Assembler6502.Proofs.SourceCode

/-!
# Lexical noise

Much of a source file can be edited without an effect: lines that hold no code, comments, the blanks
around a line, the case of letters and the way lines end. Each such edit leaves the list of codes as
it is, because it stays within one line and reading takes the code out of every line by itself.
-/

namespace Assembler6502

namespace SourceLine

open Text

/-! ## Edits -/

/-- The text is empty or ends with a line end. -/
def AtLineStart (before : Text) : Prop :=
  ∀ c, before.getLast? = some c → c = '\n' ∨ c = '\r'

/-- The text is empty or starts with a line end. -/
def AtLineEnd (after : Text) : Prop :=
  ∀ c, after.head? = some c → c = '\n' ∨ c = '\r'

structure IsMargin (margin : Text) : Prop where
  oneLine : IsOneLine margin
  blank : ∀ c ∈ margin, isBlank c = true

/-- The line has nothing but blanks, or its first other character is a semicolon. -/
structure IsIdle (line : Text) : Prop where
  oneLine : IsOneLine line
  start : ∀ c, (line.dropWhile isBlank).head? = some c → c = ';'

/-- One edit of a source file that does not touch its code. Edits add something; taking it away is
the edit in the other direction. -/
inductive Edit : Text → Text → Prop
  | insertBefore {before line lineEnd : Text} (after : Text)
      (hbefore : AtLineStart before) (hline : IsIdle line) (hend : IsLineEnd lineEnd) :
      Edit (before ++ after) (before ++ (line ++ lineEnd ++ after))
  | insertBehind (before : Text) {lineEnd line after : Text}
      (hend : IsLineEnd lineEnd) (hline : IsIdle line) (hafter : AtLineEnd after) :
      Edit (before ++ after) (before ++ lineEnd ++ line ++ after)
  | comment (before : Text) {comment after : Text}
      (hcomment : IsOneLine comment) (hafter : AtLineEnd after) :
      Edit (before ++ after) (before ++ ';' :: comment ++ after)
  | indent {before margin : Text} (after : Text)
      (hbefore : AtLineStart before) (hmargin : IsMargin margin) :
      Edit (before ++ after) (before ++ (margin ++ after))
  | trail (before : Text) {margin after : Text}
      (hmargin : IsMargin margin) (hafter : AtLineEnd after) :
      Edit (before ++ after) (before ++ margin ++ after)
  /-- `Char.toLower` changes the letters of ASCII and nothing else. -/
  | recase {content other : Text}
      (hletters : content.map Char.toLower = other.map Char.toLower) :
      Edit content other
  | changeLineEnd (before : Text) {lineEnd other : Text} (after : Text)
      (hend : IsLineEnd lineEnd) (hother : IsLineEnd other) :
      Edit (before ++ lineEnd ++ after) (before ++ other ++ after)

/-! ## One line -/

theorem code?_cons_blank {c : Char} (hc : isBlank c = true) (line : Text) :
    code? (c :: line) = code? line := by
  have hlower : lower (c :: line) = lowerLetter c ++ line.lower :=
    lower_append (separatesCase_of_isBlank hc) [] line
  have hblank : ∀ d ∈ lowerLetter c, isBlank d = true := by
    intro d hd
    rw [IsLowerForm.isBlank_eq (Or.inl rfl) d hd, hc]
  rw [code?_eq, code?_eq, hlower, trim_before_blank_append hblank]

theorem code?_append_blank {c : Char} (hc : isBlank c = true) (line : Text) :
    code? (line ++ [c]) = code? line := by
  have hlower : (line ++ [c]).lower = line.lower ++ lowerLetter c := by
    rw [lower_append (separatesCase_of_isBlank hc) line []]
    simp [lower, lowerAfter]
  have hblank : ∀ d ∈ lowerLetter c, isBlank d = true := by
    intro d hd
    rw [IsLowerForm.isBlank_eq (Or.inl rfl) d hd, hc]
  rw [code?_eq, code?_eq, hlower, trim_before_append_blank hblank]

theorem code?_margin_append
    {margin : Text} (hmargin : ∀ c ∈ margin, isBlank c = true) (line : Text) :
    code? (margin ++ line) = code? line := by
  induction margin with
  | nil => rfl
  | cons c margin ih =>
      obtain ⟨hc, hrest⟩ := List.forall_mem_cons.mp hmargin
      rw [List.cons_append, code?_cons_blank hc, ih hrest]

theorem code?_append_margin
    {margin : Text} (hmargin : ∀ c ∈ margin, isBlank c = true) (line : Text) :
    code? (line ++ margin) = code? line := by
  induction margin generalizing line with
  | nil => rw [List.append_nil]
  | cons c margin ih =>
      obtain ⟨hc, hrest⟩ := List.forall_mem_cons.mp hmargin
      have hmoved : line ++ c :: margin = line ++ [c] ++ margin := by simp
      rw [hmoved, ih hrest, code?_append_blank hc]

theorem IsIdle.code?_eq {line : Text} (hline : IsIdle line) : code? line = none := by
  have hblank : ∀ c ∈ line.takeWhile isBlank, isBlank c = true := by
    intro c hc
    exact List.mem_takeWhile_imp hc
  rw [← List.takeWhile_append_dropWhile (p := isBlank) (l := line), code?_margin_append hblank]
  cases hrest : line.dropWhile isBlank with
  | nil => exact code?_nil
  | cons c comment =>
      have hc : c = ';' := hline.start c (by rw [hrest, List.head?_cons])
      rw [hc]
      exact code?_append_comment [] comment

theorem code?_map_toLower (line : Text) : code? (line.map Char.toLower) = code? line := by
  rw [code?_eq, code?_eq, lower_map_toLower]

/-! ## Places in a file -/

theorem codes_nil : codes [] = [] := rfl

theorem isLineEnd_singleton {c : Char} (hc : c = '\n' ∨ c = '\r') : IsLineEnd [c] := by
  rcases hc with rfl | rfl
  · exact Or.inl rfl
  · exact Or.inr (Or.inl rfl)

theorem codes_append_of_atLineEnd
    {after : Text} (hafter : AtLineEnd after) (before : Text) :
    codes (before ++ after) = codes before ++ codes after := by
  cases after with
  | nil => rw [codes_nil, List.append_nil, List.append_nil]
  | cons c rest =>
      have hend := isLineEnd_singleton (hafter c rfl)
      have hwhole := codes_append_lineEnd hend before rest
      have hrest := codes_append_lineEnd hend [] rest
      simp only [List.append_assoc, List.singleton_append, List.nil_append] at hwhole hrest
      rw [hwhole, hrest]
      rfl

theorem codes_append_of_atLineStart
    {before : Text} (hbefore : AtLineStart before) (after : Text) :
    codes (before ++ after) = codes before ++ codes after := by
  cases hlast : before.getLast? with
  | none =>
      rw [List.getLast?_eq_none_iff.mp hlast]
      rfl
  | some c =>
      obtain ⟨first, rfl⟩ := List.getLast?_eq_some_iff.mp hlast
      have hend := isLineEnd_singleton (hbefore c hlast)
      have hfirst := codes_append_lineEnd hend first []
      rw [List.append_nil] at hfirst
      rw [codes_append_lineEnd hend, hfirst, List.append_assoc]
      rfl

theorem exists_last_line (text : Text) :
    ∃ first line, text = first ++ line ∧ AtLineStart first ∧ IsOneLine line := by
  induction text with
  | nil => exact ⟨[], [], rfl, by simp [AtLineStart], by simp [IsOneLine]⟩
  | cons c rest ih =>
      obtain ⟨first, line, rfl, hfirst, hline⟩ := ih
      by_cases hc : first = [] ∧ ¬(c = '\n' ∨ c = '\r')
      · obtain ⟨rfl, hc⟩ := hc
        push Not at hc
        refine ⟨[], c :: line, rfl, by simp [AtLineStart], ?_⟩
        exact List.forall_mem_cons.mpr ⟨hc, hline⟩
      · refine ⟨c :: first, line, rfl, ?_, hline⟩
        intro d hd
        cases first with
        | nil =>
            have hbreak : c = '\n' ∨ c = '\r' := by tauto
            simpa using (by simpa using hd : c = d) ▸ hbreak
        | cons e first => exact hfirst d (by simpa using hd)

theorem exists_first_line (text : Text) :
    ∃ line rest, text = line ++ rest ∧ IsOneLine line ∧ AtLineEnd rest := by
  induction text with
  | nil => exact ⟨[], [], rfl, by simp [IsOneLine], by simp [AtLineEnd]⟩
  | cons c rest ih =>
      by_cases hc : c = '\n' ∨ c = '\r'
      · refine ⟨[], c :: rest, rfl, by simp [IsOneLine], ?_⟩
        intro d hd
        simpa using (by simpa using hd : c = d) ▸ hc
      · push Not at hc
        obtain ⟨line, after, rfl, hline, hafter⟩ := ih
        exact ⟨c :: line, after, rfl, List.forall_mem_cons.mpr ⟨hc, hline⟩, hafter⟩

/-! ## Edits keep the code -/

/-- What stands at the end of a line may be anything that does not change the code of a line. -/
theorem codes_append_addition
    {addition after : Text}
    (haddition : IsOneLine addition)
    (hcode : ∀ line, code? (line ++ addition) = code? line)
    (hafter : AtLineEnd after) (before : Text) :
    codes (before ++ addition ++ after) = codes (before ++ after) := by
  obtain ⟨first, line, rfl, hfirst, hline⟩ := exists_last_line before
  have hlonger : IsOneLine (line ++ addition) := List.forall_mem_append.mpr ⟨hline, haddition⟩
  rw [codes_append_of_atLineEnd hafter, codes_append_of_atLineEnd hafter, List.append_assoc,
    codes_append_of_atLineStart hfirst, codes_append_of_atLineStart hfirst,
    codes_of_isOneLine hlonger, codes_of_isOneLine hline, hcode]

theorem codes_margin_append
    {margin : Text} (hmargin : IsMargin margin) (after : Text) :
    codes (margin ++ after) = codes after := by
  obtain ⟨line, rest, rfl, hline, hrest⟩ := exists_first_line after
  have hlonger : IsOneLine (margin ++ line) :=
    List.forall_mem_append.mpr ⟨hmargin.oneLine, hline⟩
  rw [← List.append_assoc, codes_append_of_atLineEnd hrest, codes_append_of_atLineEnd hrest,
    codes_of_isOneLine hlonger, codes_of_isOneLine hline, code?_margin_append hmargin.blank]

theorem IsIdle.codes_eq {line : Text} (hline : IsIdle line) : codes line = [] := by
  rw [codes_of_isOneLine hline.oneLine, hline.code?_eq]
  rfl

theorem IsLineEnd.map_toLower {lineEnd : Text} (hend : IsLineEnd lineEnd) :
    lineEnd.map Char.toLower = lineEnd := by
  rcases hend with rfl | rfl | rfl <;> rfl

theorem IsFileOf.map_toLower
    {lines : List Text} {content : Text} (hfile : IsFileOf lines content) :
    IsFileOf (lines.map (·.map Char.toLower)) (content.map Char.toLower) := by
  induction hfile with
  | last line => exact .last _
  | line line hend hlater ih =>
      rw [List.map_append, List.map_append, hend.map_toLower]
      exact .line _ hend ih

theorem IsOneLine.map_toLower {line : Text} (hline : IsOneLine line) :
    IsOneLine (line.map Char.toLower) := by
  intro d hd
  obtain ⟨c, hc, rfl⟩ := List.mem_map.mp hd
  rw [ne_eq, ne_eq, toLower_eq_iff (Or.inl (by decide)), toLower_eq_iff (Or.inl (by decide))]
  exact hline c hc

theorem codes_map_toLower (content : Text) :
    codes (content.map Char.toLower) = codes content := by
  obtain ⟨lines, hfile, hlines⟩ := exists_isFileOf content
  have hlower : ∀ line ∈ lines.map (·.map Char.toLower), IsOneLine line := by
    intro line hline
    obtain ⟨original, horiginal, rfl⟩ := List.mem_map.mp hline
    exact (hlines original horiginal).map_toLower
  rw [codes_eq_of_isFileOf hfile.map_toLower hlower, codes_eq_of_isFileOf hfile hlines,
    List.filterMap_map]
  apply List.filterMap_congr
  intro line _
  exact code?_map_toLower line

theorem codes_eq_of_edit {content other : Text} (hedit : Edit content other) :
    codes content = codes other := by
  cases hedit with
  | insertBefore after hbefore hline hend =>
      rw [codes_append_of_atLineStart hbefore, codes_append_of_atLineStart hbefore,
        codes_append_lineEnd hend, hline.codes_eq, List.nil_append]
  | insertBehind before hend hline hafter =>
      rw [codes_append_of_atLineEnd hafter, codes_append_of_atLineEnd hafter,
        codes_append_lineEnd hend, hline.codes_eq, List.append_nil]
  | @comment before comment after hcomment hafter =>
      have haddition : IsOneLine (';' :: comment) :=
        List.forall_mem_cons.mpr ⟨by decide, hcomment⟩
      exact (codes_append_addition haddition (code?_append_comment · comment) hafter before).symm
  | indent after hbefore hmargin =>
      rw [codes_append_of_atLineStart hbefore, codes_append_of_atLineStart hbefore,
        codes_margin_append hmargin]
  | trail before hmargin hafter =>
      exact (codes_append_addition hmargin.oneLine (code?_append_margin hmargin.blank) hafter
        before).symm
  | recase hletters => rw [← codes_map_toLower content, ← codes_map_toLower other, hletters]
  | changeLineEnd before after hend hother =>
      rw [codes_append_lineEnd hend, codes_append_lineEnd hother]

theorem codes_eq_of_edits
    {content other : Text} (hedits : Relation.EqvGen Edit content other) :
    codes content = codes other := by
  induction hedits with
  | rel content other hedit => exact codes_eq_of_edit hedit
  | refl content => rfl
  | symm content other _ ih => exact ih.symm
  | trans content middle other _ _ hfirst hsecond => exact hfirst.trans hsecond

end SourceLine

namespace Image

open SourceLine Text

/-- Any number of edits, in either direction, leave the report on a source file as it was, whether
the file assembles or not. -/
theorem assemble_of_edits
    {content other : Text} (hedits : Relation.EqvGen Edit content other) (quiet : Bool) :
    assemble other quiet = assemble content quiet :=
  assemble_eq_of_codes_eq (codes_eq_of_edits hedits).symm quiet

/-- A file that does not assemble, before and after six edits. -/
theorem assemble_of_edits_failing :
    let content := ".org $10\nfoo".toList
    let other := "\t.ORG $10 ; start\r\n;; nothing\nFoo".toList
    Relation.EqvGen Edit content other ∧
      assemble other true = assemble content true ∧
      (assemble other true).result = .error (.unknownMnemonic "foo".toList) := by
  intro content other
  have hrecased : Edit content ".ORG $10\nFoo".toList := .recase (by decide)
  have hindented : Edit ([] ++ ".ORG $10\nFoo".toList)
      ([] ++ ("\t".toList ++ ".ORG $10\nFoo".toList)) :=
    .indent _ (by simp [AtLineStart]) ⟨by decide, forall_mem_of_all rfl⟩
  have htrailed : Edit ("\t.ORG $10".toList ++ "\nFoo".toList)
      ("\t.ORG $10".toList ++ " ".toList ++ "\nFoo".toList) :=
    .trail _ ⟨by decide, forall_mem_of_all rfl⟩ (by simp [AtLineEnd])
  have hcommented : Edit ("\t.ORG $10 ".toList ++ "\nFoo".toList)
      ("\t.ORG $10 ".toList ++ ';' :: " start".toList ++ "\nFoo".toList) :=
    .comment _ (by decide) (by simp [AtLineEnd])
  have hidle : IsIdle ";; nothing".toList := by
    refine ⟨by decide, ?_⟩
    intro c hc
    exact (Option.some.inj hc).symm
  have hinserted : Edit ("\t.ORG $10 ; start\n".toList ++ "Foo".toList)
      ("\t.ORG $10 ; start\n".toList ++ (";; nothing".toList ++ "\n".toList ++ "Foo".toList)) :=
    .insertBefore _ (by simp [AtLineStart]) hidle (Or.inl rfl)
  have hended : Edit ("\t.ORG $10 ; start".toList ++ "\n".toList ++ ";; nothing\nFoo".toList)
      ("\t.ORG $10 ; start".toList ++ "\r\n".toList ++ ";; nothing\nFoo".toList) :=
    .changeLineEnd _ _ (Or.inl rfl) (Or.inr (Or.inr rfl))
  have hedits : Relation.EqvGen Edit content other :=
    .trans _ _ _ (.rel _ _ hrecased) (.trans _ _ _ (.rel _ _ hindented)
      (.trans _ _ _ (.rel _ _ htrailed) (.trans _ _ _ (.rel _ _ hcommented)
        (.trans _ _ _ (.rel _ _ hinserted) (.rel _ _ hended)))))
  let segment : Segment := ⟨0x10, [⟨2, "foo".toList⟩]⟩
  have hsegments : Segment.ofFile content = .ok [segment] :=
    congrArg Except.ok (List.mergeSort_singleton segment)
  have hsame := assemble_of_edits hedits true
  refine ⟨hedits, hsame, ?_⟩
  rw [hsame, assemble, hsegments]
  rfl

end Image

end Assembler6502
