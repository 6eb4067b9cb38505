import Assembler6502.Proofs.LowerCase
import Assembler6502.Proofs.SourceCode

/-!
# The code of a file

The code of a line is the part before its first semicolon, lower-cased and trimmed, and a line has
code exactly if this part is not all blanks. Lower-casing and trimming are done on the whole line
first, but neither moves a semicolon nor looks past it. The codes of a file are bare: nothing is
left in them that reading would take away or change. So a file that has these codes as its lines is
read as the same codes, one on each line.
-/

namespace Assembler6502

namespace Text

theorem mark_not_mem_before (mark : Char) (text : Text) : mark ∉ text.before mark := by
  intro hmem
  simpa using List.mem_takeWhile_imp hmem

theorem before_sublist (mark : Char) (text : Text) : (text.before mark).Sublist text :=
  List.takeWhile_sublist _

end Text

namespace SourceLine

open Text

/-! ## The code of a line -/

/-- Cutting off a comment and lower-casing can be done in either order. -/
theorem before_lower (line : Text) : line.lower.before ';' = (line.before ';').lower := by
  have hlower {text : Text} (htext : ';' ∉ text) : ';' ∉ text.lower := fun hmem =>
    htext (mem_of_mem_lower (by decide) hmem)
  by_cases hmem : ';' ∈ line
  · obtain ⟨first, rest, rfl, hfirst⟩ := List.eq_append_cons_of_mem hmem
    have hmark : lowerLetter ';' = [';'] := rfl
    rw [lower_append semicolon_separatesCase, hmark, List.append_assoc, List.singleton_append,
      before_append_mark (hlower hfirst), before_append_mark hfirst]
  · rw [before_of_not_mem (hlower hmem), before_of_not_mem hmem]

theorem trim_lower_eq_nil_iff (text : Text) :
    text.lower.trim = [] ↔ ∀ c ∈ text, isBlank c = true :=
  (trimBy_eq_nil_iff isBlank text.lower).trans (forall_isBlank_lower_iff text)

theorem code?_eq_some_iff {line code : Text} :
    code? line = some code ↔
      (∃ c ∈ line.before ';', isBlank c = false) ∧ code = (line.before ';').lower.trim := by
  have hsolid : (∃ c ∈ line.before ';', isBlank c = false) ↔
      (line.before ';').lower.trim ≠ [] := by
    rw [Ne, trim_lower_eq_nil_iff]
    simp
  rw [code?_eq, before_lower, hsolid]
  by_cases hempty : (line.before ';').lower.trim = []
  · simp [hempty]
  · simp [hempty, eq_comm]

/-! ## Bare code -/

/-- A line of code from which reading takes nothing away and in which it changes nothing. -/
structure IsBare (code : Text) : Prop where
  nonempty : code ≠ []
  trimmed : IsTrimmedBy isBlank code
  noComment : ';' ∉ code
  oneLine : IsOneLine code
  lower_eq : code.lower = code

variable {line code : Text}

theorem IsBare.isUpper_eq_false (hcode : IsBare code) : ∀ c ∈ code, c.isUpper = false := by
  intro c hc
  rw [← hcode.lower_eq] at hc
  exact Text.isUpper_eq_false (toLower_eq_of_mem_lower hc)

theorem IsBare.code?_eq (hcode : IsBare code) : code? code = some code := by
  have htrim : code.trim = code := hcode.trimmed.trimBy_eq
  rw [code?_eq_some_iff, before_of_not_mem hcode.noComment, hcode.lower_eq, htrim]
  obtain ⟨c, rest, rfl⟩ := List.exists_cons_of_ne_nil hcode.nonempty
  exact ⟨⟨c, by simp, hcode.trimmed.head c rfl⟩, rfl⟩

theorem isBare_of_code? (hline : IsOneLine line) (hcode : code? line = some code) :
    IsBare code := by
  obtain ⟨⟨c, hc, hsolid⟩, rfl⟩ := code?_eq_some_iff.mp hcode
  have hlower : ∀ d ∈ (line.before ';').lower.trim, d ∈ (line.before ';').lower := fun d hd =>
    (trimBy_sublist isBlank _).subset hd
  -- Line ends and the semicolon come before the letters, so lower-casing makes none.
  have hmark {mark : Char} (hmark : mark.toNat < 0x41)
      (hmem : mark ∈ (line.before ';').lower.trim) : mark ∈ line.before ';' :=
    mem_of_mem_lower hmark (hlower mark hmem)
  refine ⟨?_, isTrimmedBy_trim _, ?_, ?_, ?_⟩
  · intro hempty
    have hblank := (trim_lower_eq_nil_iff _).mp hempty c hc
    simp [hsolid] at hblank
  · exact fun hmem => mark_not_mem_before ';' line (hmark (by decide) hmem)
  · intro d hd
    constructor
    · rintro rfl
      exact (hline '\n' ((before_sublist ';' line).subset (hmark (by decide) hd))).1 rfl
    · rintro rfl
      exact (hline '\r' ((before_sublist ';' line).subset (hmark (by decide) hd))).2 rfl
  · exact lowerAfter_of_isSettled (fun d hd => isSettled_of_mem_lower (hlower d hd)) false

theorem isBare_of_mem_codes {content : Text} (hcode : code ∈ codes content) : IsBare code := by
  obtain ⟨lines, hfile, hlines⟩ := exists_isFileOf content
  rw [codes_eq_of_isFileOf hfile hlines, List.mem_filterMap] at hcode
  obtain ⟨line, hline, hfound⟩ := hcode
  exact isBare_of_code? (hlines line hline) hfound

/-! ## Numbers -/

theorem mem_numbered_iff {first : Nat} {lines : List Text} {line : SourceLine} :
    line ∈ numbered first lines ↔
      ∃ index text,
        lines[index]? = some text ∧
        line.number = first + index ∧
        code? text = some line.code := by
  induction lines generalizing first with
  | nil => simp [numbered]
  | cons start rest ih =>
      have hlater : line ∈ numbered (first + 1) rest ↔
          ∃ index text,
            (start :: rest)[index + 1]? = some text ∧
            line.number = first + (index + 1) ∧
            code? text = some line.code := by
        simp only [ih, List.getElem?_cons_succ, Nat.add_comm, Nat.add_left_comm]
      have hsplit : (∃ index text,
            (start :: rest)[index]? = some text ∧
            line.number = first + index ∧
            code? text = some line.code) ↔
          (line.number = first ∧ code? start = some line.code) ∨
            line ∈ numbered (first + 1) rest := by
        rw [hlater]
        constructor
        · rintro ⟨_ | index, text, htext, hfound⟩
          · obtain rfl : start = text := by simpa using htext
            exact .inl hfound
          · exact .inr ⟨index, text, htext, hfound⟩
        · rintro (hfound | ⟨index, text, hfound⟩)
          · exact ⟨0, start, rfl, hfound⟩
          · exact ⟨index + 1, text, hfound⟩
      rw [hsplit, numbered]
      cases hcode : code? start with
      | none => simp
      | some code =>
          obtain ⟨number, found⟩ := line
          simp [SourceLine.mk.injEq, eq_comm]

theorem numbered_eq_mapIdx
    {lines codes : List Text}
    (hlines : List.Forall₂ (fun line code => code? line = some code) lines codes) (first : Nat) :
    numbered first lines = codes.mapIdx fun index code => ⟨first + index, code⟩ := by
  induction hlines generalizing first with
  | nil => rfl
  | @cons line code lines codes hcode hlater ih =>
      simp only [numbered, hcode, ih (first + 1), List.mapIdx_cons, Nat.add_zero,
        Nat.add_comm, Nat.add_left_comm]

/-! ## The lines of a file -/

/-- The lines of a file, without their ends. Each of them but the last has a line end behind it, and
a line feed right behind a carriage return belongs to the same line end. -/
inductive HasLines : Text → List Text → Prop
  | last {line : Text} (hline : IsOneLine line) : HasLines line [line]
  | line {line lineEnd rest : Text} {later : List Text}
      (hline : IsOneLine line) (hend : IsLineEnd lineEnd)
      (hwhole : lineEnd = ['\r'] → rest.head? ≠ some '\n') (hlater : HasLines rest later) :
      HasLines (line ++ lineEnd ++ rest) (line :: later)

theorem HasLines.cons
    {c : Char} {content : Text} {lines : List Text}
    (hc : c ≠ '\n' ∧ c ≠ '\r') (hlines : HasLines content lines) :
    ∃ others, HasLines (c :: content) others := by
  cases hlines with
  | last hline => exact ⟨_, .last (List.forall_mem_cons.mpr ⟨hc, hline⟩)⟩
  | line hline hend hwhole hlater =>
      exact ⟨_, .line (List.forall_mem_cons.mpr ⟨hc, hline⟩) hend hwhole hlater⟩

theorem exists_hasLines (content : Text) : ∃ lines, HasLines content lines := by
  have hnil : IsOneLine [] := List.forall_mem_nil _
  induction hlength : content.length using Nat.strong_induction_on generalizing content with
  | _ length ih =>
      subst hlength
      match content with
      | [] => exact ⟨[[]], .last hnil⟩
      | c :: rest =>
          obtain ⟨lines, hlines⟩ := ih rest.length (by simp) rest rfl
          by_cases hfeed : c = '\n'
          · subst hfeed
            exact ⟨[] :: lines, .line hnil (.inl rfl) (by simp) hlines⟩
          · by_cases hreturn : c = '\r'
            · subst hreturn
              by_cases hwhole : rest.head? = some '\n'
              · -- The line feed is skipped together with the carriage return.
                obtain ⟨later, rfl⟩ := List.head?_eq_some_iff.mp hwhole
                obtain ⟨others, hothers⟩ := ih later.length (by simp) later rfl
                exact ⟨[] :: others, .line hnil (.inr (.inr rfl)) (by simp) hothers⟩
              · exact ⟨[] :: lines, .line hnil (.inr (.inl rfl)) (fun _ => hwhole) hlines⟩
            · exact hlines.cons ⟨hfeed, hreturn⟩

theorem unifyLineEndsAfter_true {text : Text} (htext : text.head? ≠ some '\n') :
    unifyLineEndsAfter true text = unifyLineEndsAfter false text := by
  cases text with
  | nil => rfl
  | cons c rest =>
      have hc : c ≠ '\n' := by simpa using htext
      simp [unifyLineEndsAfter, hc]

theorem lines_append_lineEnd
    {line lineEnd rest : Text} (hline : IsOneLine line) (hend : IsLineEnd lineEnd)
    (hwhole : lineEnd = ['\r'] → rest.head? ≠ some '\n') :
    lines (line ++ lineEnd ++ rest) = (line ++ ['\n']) :: lines rest := by
  have hunified : unifyLineEndsAfter false (lineEnd ++ rest) = '\n' :: unifyLineEnds rest := by
    rcases hend with rfl | rfl | rfl
    · simp [unifyLineEndsAfter, unifyLineEnds]
    · simp [unifyLineEndsAfter, unifyLineEnds, unifyLineEndsAfter_true (hwhole rfl)]
    · simp [unifyLineEndsAfter, unifyLineEnds]
  rw [lines, unifyLineEnds, List.append_assoc, unifyLineEndsAfter_append false hline,
    Bool.false_and, hunified, splitLines_append_lineFeed hline, lines]

/-- The lines that a file is cut into have their line feeds, and there is none behind the last line
end. Neither makes a difference to the code. -/
theorem HasLines.numbered_eq
    {content : Text} {texts : List Text} (htexts : HasLines content texts) (first : Nat) :
    numbered first content.lines = numbered first texts := by
  induction htexts generalizing first with
  | @last line hline =>
      have hunified : unifyLineEnds line = line :=
        unifyLineEnds_eq_self fun hmem => (hline '\r' hmem).2 rfl
      rw [lines, hunified]
      by_cases hempty : line = []
      · subst hempty
        rfl
      · rw [splitLines_oneLine hline hempty]
  | line hline hend hwhole hlater ih =>
      rw [lines_append_lineEnd hline hend hwhole]
      simp only [numbered, code?_append_lineFeed, ih]

/-! ## Codes as a file -/

theorem forall₂_splitLines_join {codes : List Text} (hcodes : ∀ code ∈ codes, IsBare code) :
    List.Forall₂ (fun line code => code? line = some code)
      (splitLines (join ['\n'] codes)) codes := by
  induction codes with
  | nil => exact .nil
  | cons code rest ih =>
      obtain ⟨hcode, hrest⟩ := List.forall_mem_cons.mp hcodes
      cases rest with
      | nil =>
          have hjoin : join ['\n'] [code] = code := by simp [join]
          rw [hjoin, splitLines_oneLine hcode.oneLine hcode.nonempty]
          exact .cons hcode.code?_eq .nil
      | cons next later =>
          rw [join_cons_cons, List.singleton_append, splitLines_append_lineFeed hcode.oneLine]
          exact .cons ((code?_append_lineFeed code).trans hcode.code?_eq) (ih hrest)

theorem ofFile_join {codes : List Text} (hcodes : ∀ code ∈ codes, IsBare code) :
    ofFile (join ['\n'] codes) = codes.mapIdx fun index code => ⟨index + 1, code⟩ := by
  have hreturn : '\r' ∉ join ['\n'] codes := by
    intro hmem
    rcases mem_join hmem with hseparator | ⟨code, hcode, hinside⟩
    · exact absurd hseparator (by decide)
    · exact ((hcodes code hcode).oneLine '\r' hinside).2 rfl
  rw [ofFile, lines, unifyLineEnds_eq_self hreturn,
    numbered_eq_mapIdx (forall₂_splitLines_join hcodes)]
  simp only [Nat.add_comm]

/-- A line of a file is read exactly if something other than blanks stands before its first
semicolon, with its number and with that part, lower-cased and trimmed, as its code. The numbers
ascend, and every code is bare, without a capital letter of ASCII. The file that has the codes as
its lines is read as the same codes. -/
theorem ofFile_fixed_point (content : Text) :
    (∃ texts, HasLines content texts) ∧
    (∀ texts, HasLines content texts →
      ∀ line : SourceLine,
        line ∈ ofFile content ↔
          ∃ index text,
            texts[index]? = some text ∧
            line.number = index + 1 ∧
            (∃ c ∈ text.before ';', isBlank c = false) ∧
            line.code = (text.before ';').lower.trim) ∧
    (ofFile content).Pairwise (fun first second => first.number < second.number) ∧
    (∀ line ∈ ofFile content, IsBare line.code ∧ ∀ c ∈ line.code, c.isUpper = false) ∧
    ofFile (join ['\n'] ((ofFile content).map (·.code))) =
      ((ofFile content).map (·.code)).mapIdx fun index code => ⟨index + 1, code⟩ := by
  refine ⟨exists_hasLines content, ?_, numbered_pairwise 1 content.lines, ?_, ?_⟩
  · intro texts htexts line
    rw [ofFile, htexts.numbered_eq, mem_numbered_iff]
    simp only [code?_eq_some_iff, Nat.add_comm]
  · intro line hline
    have hbare : IsBare line.code := isBare_of_mem_codes (List.mem_map_of_mem hline)
    exact ⟨hbare, hbare.isUpper_eq_false⟩
  · exact ofFile_join fun code hcode => isBare_of_mem_codes hcode

/-- Lines end in all three ways, the first comment has a letter that could decide the form of the
capital sigma, and a dotted capital becomes two characters. -/
theorem ofFile_fixed_point_comments :
    let first := "bne \u039f\u03a3;x".toList
    let second := " ; no code".toList
    let third := "LDA \u0130 ;".toList
    let content := first ++ ['\r', '\n'] ++ (second ++ ['\r'] ++ (third ++ ['\n'] ++ []))
    HasLines content [first, second, third, []] ∧
      ⟨1, "bne \u03bf\u03c2".toList⟩ ∈ ofFile content ∧
      (ofFile content).map (·.code) = ["bne \u03bf\u03c2".toList, "lda i\u0307".toList] ∧
      ofFile "bne \u03bf\u03c2\nlda i\u0307".toList =
        [⟨1, "bne \u03bf\u03c2".toList⟩, ⟨2, "lda i\u0307".toList⟩] := by
  intro first second third content
  have hfirst : IsOneLine first := by decide
  have hsecond : IsOneLine second := by decide
  have hthird : IsOneLine third := by decide
  have htexts : HasLines content [first, second, third, []] :=
    .line hfirst (.inr (.inr rfl)) (by simp)
      (.line hsecond (.inr (.inl rfl)) (fun _ => by decide)
        (.line hthird (.inl rfl) (by simp) (.last (List.forall_mem_nil _))))
  have hcodes : (ofFile content).map (·.code) =
      ["bne \u03bf\u03c2".toList, "lda i\u0307".toList] := by
    unfold content first second third
    decide +kernel
  obtain ⟨-, hread, -, -, hagain⟩ := ofFile_fixed_point content
  have hsolid : 'b' ∈ before ';' first := by decide
  have hlower : "bne \u03bf\u03c2".toList = (before ';' first).lower.trim := by
    unfold first
    decide +kernel
  have hline := (hread _ htexts ⟨1, "bne \u03bf\u03c2".toList⟩).mpr
    ⟨0, first, rfl, rfl, ⟨'b', hsolid, rfl⟩, hlower⟩
  rw [hcodes] at hagain
  exact ⟨htexts, hline, hcodes, hagain⟩

end SourceLine

end Assembler6502
