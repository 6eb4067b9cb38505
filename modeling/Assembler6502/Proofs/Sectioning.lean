import Assembler6502.Proofs.CodeLines
import Assembler6502.Proofs.LineEncoding
import Assembler6502.Proofs.SegmentOrder

/-!
# The sections of a source file

An origin line opens a section that reaches to the next origin line or to the end of the file. Of
the sections with one origin only the last becomes a segment. What the earlier ones held is lost,
without any message.
-/

namespace Assembler6502

namespace Segment

/-! ## Origin lines -/

/-- The code has two words, and the second one without its first character is a numeral. -/
def HasOrigin (code : Text) (origin : Int) : Prop :=
  ∃ word address,
    code.words = [word, address] ∧ Hexadecimal.read? (address.drop 1) = some origin

def StartsAt (line : SourceLine) (origin : Int) : Prop :=
  isOrigin line.code = true ∧ HasOrigin line.code origin

def IsFaultyOrigin (line : SourceLine) : Prop :=
  isOrigin line.code = true ∧ ∀ origin, ¬HasOrigin line.code origin

theorem readOrigin_eq_ok_iff (code : Text) (origin : Int) :
    readOrigin code = .ok origin ↔ HasOrigin code origin := by
  unfold readOrigin HasOrigin
  split
  next word address hwords =>
      rw [Operand.readNumeral_eq_ok_iff]
      constructor
      · intro hread
        exact ⟨word, address, hwords, hread⟩
      · rintro ⟨first, second, htwo, hread⟩
        rw [hwords, List.cons.injEq, List.cons.injEq] at htwo
        rw [htwo.2.1]
        exact hread
  next hwords =>
      constructor
      · intro hread
        simp at hread
      · rintro ⟨word, address, htwo, -⟩
        exact absurd htwo (hwords word address)

theorem HasOrigin.unique
    {code : Text} {origin other : Int}
    (horigin : HasOrigin code origin) (hother : HasOrigin code other) :
    origin = other := by
  rw [← readOrigin_eq_ok_iff] at horigin hother
  exact Except.ok.inj (horigin.symm.trans hother)

theorem hasOrigin_of_not_faulty
    {line : SourceLine} (horigin : isOrigin line.code = true) (hline : ¬IsFaultyOrigin line) :
    ∃ origin, HasOrigin line.code origin := by
  by_contra hnone
  push Not at hnone
  exact hline ⟨horigin, hnone⟩

theorem readOrigin_error
    {code : Text} {problem : Problem} (hproblem : readOrigin code = .error problem) :
    (∃ count, problem = .wordCount count) ∨ ∃ text, problem = .numeral text := by
  unfold readOrigin at hproblem
  split at hproblem
  next word address hwords =>
      unfold Operand.readNumeral at hproblem
      split at hproblem
      · simp at hproblem
      · exact Or.inr ⟨_, (Except.error.inj hproblem).symm⟩
  next => exact Or.inl ⟨_, (Except.error.inj hproblem).symm⟩

/-! ## Cutting -/

theorem cutAtOrigins_origin_eq_ok
    {line : SourceLine} {rest : List SourceLine} {parts : List SourceLine × List Segment}
    (hline : isOrigin line.code = true)
    (hparts : cutAtOrigins (line :: rest) = .ok parts) :
    ∃ origin later,
      HasOrigin line.code origin ∧
      cutAtOrigins rest = .ok later ∧
      parts = ([], ⟨origin, later.1⟩ :: later.2) := by
  rw [cutAtOrigins, if_pos hline] at hparts
  cases horigin : readOrigin line.code with
  | error problem => simp [horigin] at hparts
  | ok origin =>
      cases hlater : cutAtOrigins rest with
      | error problem => simp [horigin, hlater, Except.map] at hparts
      | ok later =>
          simp only [horigin, hlater, Except.map, Except.ok.injEq] at hparts
          exact ⟨origin, later, (readOrigin_eq_ok_iff _ _).mp horigin, rfl, hparts.symm⟩

theorem cutAtOrigins_of_startsAt
    {line : SourceLine} {rest : List SourceLine} {origin : Int}
    {parts : List SourceLine × List Segment}
    (hline : StartsAt line origin) (hrest : cutAtOrigins rest = .ok parts) :
    cutAtOrigins (line :: rest) = .ok ([], ⟨origin, parts.1⟩ :: parts.2) := by
  have horigin := (readOrigin_eq_ok_iff _ _).mpr hline.2
  simp [cutAtOrigins, hline.1, horigin, hrest, Except.map]

theorem cutAtOrigins_code_eq_ok
    {line : SourceLine} {rest : List SourceLine} {parts : List SourceLine × List Segment}
    (hline : isOrigin line.code = false)
    (hparts : cutAtOrigins (line :: rest) = .ok parts) :
    ∃ later, cutAtOrigins rest = .ok later ∧ parts = (line :: later.1, later.2) := by
  rw [cutAtOrigins, if_neg (by simp [hline])] at hparts
  cases hlater : cutAtOrigins rest with
  | error problem => simp [hlater, Except.map] at hparts
  | ok later =>
      simp only [hlater, Except.map, Except.ok.injEq] at hparts
      exact ⟨later, rfl, hparts.symm⟩

theorem cutAtOrigins_of_not_faulty
    {lines : List SourceLine} (hlines : ∀ line ∈ lines, ¬IsFaultyOrigin line) :
    ∃ parts, cutAtOrigins lines = .ok parts := by
  induction lines with
  | nil => exact ⟨_, rfl⟩
  | cons line rest ih =>
      obtain ⟨hline, hrest⟩ := List.forall_mem_cons.mp hlines
      obtain ⟨later, hlater⟩ := ih hrest
      cases hcode : isOrigin line.code with
      | false => simp [cutAtOrigins, hcode, hlater, Except.map]
      | true =>
          obtain ⟨origin, horigin⟩ := hasOrigin_of_not_faulty hcode hline
          rw [← readOrigin_eq_ok_iff] at horigin
          simp [cutAtOrigins, hcode, horigin, hlater, Except.map]

theorem not_faulty_of_cutAtOrigins
    {lines : List SourceLine} {parts : List SourceLine × List Segment}
    (hparts : cutAtOrigins lines = .ok parts) :
    ∀ line ∈ lines, ¬IsFaultyOrigin line := by
  induction lines generalizing parts with
  | nil => simp
  | cons line rest ih =>
      cases hcode : isOrigin line.code with
      | false =>
          obtain ⟨later, hlater, -⟩ := cutAtOrigins_code_eq_ok hcode hparts
          refine List.forall_mem_cons.mpr ⟨?_, ih hlater⟩
          rintro ⟨horigin, -⟩
          simp [hcode] at horigin
      | true =>
          obtain ⟨origin, later, horigin, hlater, -⟩ := cutAtOrigins_origin_eq_ok hcode hparts
          refine List.forall_mem_cons.mpr ⟨?_, ih hlater⟩
          rintro ⟨-, hnone⟩
          exact hnone origin horigin

theorem eq_error_of_map_eq_error
    {α β ε : Type} {f : α → β} {outcome : Except ε α} {problem : ε}
    (hproblem : outcome.map f = .error problem) :
    outcome = .error problem := by
  cases outcome with
  | error found => exact congrArg _ (Except.error.inj hproblem)
  | ok value => simp [Except.map] at hproblem

theorem cutAtOrigins_cons_eq_error
    {line : SourceLine} {rest : List SourceLine} {problem : Problem}
    (hproblem : cutAtOrigins (line :: rest) = .error problem) :
    readOrigin line.code = .error problem ∨ cutAtOrigins rest = .error problem := by
  rw [cutAtOrigins] at hproblem
  split at hproblem
  · split at hproblem
    next found hfound =>
        obtain rfl := Except.error.inj hproblem
        exact Or.inl hfound
    next => exact Or.inr (eq_error_of_map_eq_error hproblem)
  · exact Or.inr (eq_error_of_map_eq_error hproblem)

theorem cutAtOrigins_error
    {lines : List SourceLine} {problem : Problem}
    (hproblem : cutAtOrigins lines = .error problem) :
    (∃ count, problem = .wordCount count) ∨ ∃ text, problem = .numeral text := by
  induction lines with
  | nil => simp [cutAtOrigins] at hproblem
  | cons line rest ih =>
      rcases cutAtOrigins_cons_eq_error hproblem with horigin | hlater
      · exact readOrigin_error horigin
      · exact ih hlater

/-! ## The last section of each origin -/

theorem mem_keepLast_cons (segment first : Segment) (rest : List Segment) :
    segment ∈ keepLast (first :: rest) ↔
      (segment = first ∧ ∀ other ∈ rest, other.origin ≠ first.origin) ∨
        segment ∈ keepLast rest := by
  rw [keepLast]
  by_cases hagain : ∃ other ∈ rest, other.origin = first.origin
  · have hany : rest.any (·.origin == first.origin) = true := by simpa using hagain
    rw [if_pos hany, or_iff_right]
    rintro ⟨-, hnone⟩
    obtain ⟨other, hother, hsame⟩ := hagain
    exact hnone other hother hsame
  · have hany : ¬rest.any (·.origin == first.origin) = true := by simpa using hagain
    push Not at hagain
    rw [if_neg hany, List.mem_cons, and_iff_left hagain]

theorem exists_origin_iff
    {lines : List SourceLine} {parts : List SourceLine × List Segment}
    (hparts : cutAtOrigins lines = .ok parts) (origin : Int) :
    (∃ segment ∈ parts.2, segment.origin = origin) ↔ ∃ line ∈ lines, StartsAt line origin := by
  induction lines generalizing parts with
  | nil =>
      obtain rfl := Except.ok.inj hparts
      simp
  | cons line rest ih =>
      rw [List.exists_mem_cons_iff]
      cases hcode : isOrigin line.code with
      | false =>
          obtain ⟨later, hlater, rfl⟩ := cutAtOrigins_code_eq_ok hcode hparts
          have hnot : ¬StartsAt line origin := by
            rintro ⟨horigin, -⟩
            simp [hcode] at horigin
          rw [ih hlater, or_iff_right hnot]
      | true =>
          obtain ⟨found, later, hfound, hlater, rfl⟩ := cutAtOrigins_origin_eq_ok hcode hparts
          rw [List.exists_mem_cons_iff, ih hlater]
          apply or_congr_left
          constructor
          · rintro rfl
            exact ⟨hcode, hfound⟩
          · rintro ⟨-, horigin⟩
            exact hfound.unique horigin

theorem lines_before_origin
    {lines : List SourceLine} {parts : List SourceLine × List Segment}
    (hparts : cutAtOrigins lines = .ok parts) :
    parts.1 = lines.takeWhile (!isOrigin ·.code) := by
  induction lines generalizing parts with
  | nil =>
      obtain rfl := Except.ok.inj hparts
      rfl
  | cons line rest ih =>
      cases hcode : isOrigin line.code with
      | false =>
          obtain ⟨later, hlater, rfl⟩ := cutAtOrigins_code_eq_ok hcode hparts
          rw [List.takeWhile_cons_of_pos (by simp [hcode]), ← ih hlater]
      | true =>
          obtain ⟨origin, later, -, -, rfl⟩ := cutAtOrigins_origin_eq_ok hcode hparts
          rw [List.takeWhile_cons_of_neg (by simp [hcode])]

/-- The segment has the lines between the last origin line of its origin and the next origin line or
the end of the file. -/
def IsLastSection (lines : List SourceLine) (segment : Segment) : Prop :=
  ∃ before directive after,
    lines = before ++ directive :: after ∧
    StartsAt directive segment.origin ∧
    (∀ later ∈ after, ¬StartsAt later segment.origin) ∧
    segment.lines = after.takeWhile (!isOrigin ·.code)

theorem isLastSection_cons
    (line : SourceLine) (rest : List SourceLine) (segment : Segment) :
    IsLastSection (line :: rest) segment ↔
      (StartsAt line segment.origin ∧
        (∀ later ∈ rest, ¬StartsAt later segment.origin) ∧
        segment.lines = rest.takeWhile (!isOrigin ·.code)) ∨
      IsLastSection rest segment := by
  constructor
  · rintro ⟨before, directive, after, hsplit, hsection⟩
    cases before with
    | nil =>
        obtain ⟨rfl, rfl⟩ := List.cons.inj hsplit
        exact Or.inl hsection
    | cons first before =>
        obtain ⟨-, rfl⟩ := List.cons.inj hsplit
        exact Or.inr ⟨before, directive, after, rfl, hsection⟩
  · rintro (hsection | ⟨before, directive, after, rfl, hsection⟩)
    · exact ⟨[], line, rest, rfl, hsection⟩
    · exact ⟨line :: before, directive, after, rfl, hsection⟩

theorem mem_keepLast_iff_isLastSection
    {lines : List SourceLine} {parts : List SourceLine × List Segment}
    (hparts : cutAtOrigins lines = .ok parts) (segment : Segment) :
    segment ∈ keepLast parts.2 ↔ IsLastSection lines segment := by
  induction lines generalizing parts with
  | nil =>
      obtain rfl := Except.ok.inj hparts
      simp [keepLast, IsLastSection]
  | cons line rest ih =>
      rw [isLastSection_cons]
      cases hcode : isOrigin line.code with
      | false =>
          obtain ⟨later, hlater, rfl⟩ := cutAtOrigins_code_eq_ok hcode hparts
          rw [ih hlater, or_iff_right]
          rintro ⟨⟨horigin, -⟩, -⟩
          simp [hcode] at horigin
      | true =>
          obtain ⟨origin, later, horigin, hlater, rfl⟩ := cutAtOrigins_origin_eq_ok hcode hparts
          rw [mem_keepLast_cons, ih hlater]
          apply or_congr_left
          have hlast : (∀ other ∈ later.2, other.origin ≠ origin) ↔
              ∀ other ∈ rest, ¬StartsAt other origin := by
            have hexists := not_congr (exists_origin_iff hlater origin)
            push Not at hexists
            exact hexists
          constructor
          · rintro ⟨rfl, hnone⟩
            exact ⟨⟨hcode, horigin⟩, hlast.mp hnone, lines_before_origin hlater⟩
          · rintro ⟨⟨-, hsame⟩, hnone, hlines⟩
            obtain rfl := horigin.unique hsame
            refine ⟨?_, hlast.mpr hnone⟩
            rw [lines_before_origin hlater, ← hlines]

/-! ## Lost lines -/

/-- The origin line under which the line behind some lines stands. -/
def originAbove? (before : List SourceLine) : Option SourceLine :=
  before.reverse.find? (isOrigin ·.code)

theorem originAbove?_append
    {directive : SourceLine} {between : List SourceLine}
    (hdirective : isOrigin directive.code = true)
    (hbetween : ∀ line ∈ between, isOrigin line.code = false)
    (earlier : List SourceLine) :
    originAbove? (earlier ++ directive :: between) = some directive := by
  have hnone : between.reverse.find? (isOrigin ·.code) = none := by
    rw [List.find?_eq_none]
    intro line hline
    simp [hbetween line (List.mem_reverse.mp hline)]
  simp [originAbove?, hnone, hdirective]

theorem exists_originAbove
    {before : List SourceLine}
    (hbefore : ∃ line ∈ before, isOrigin line.code = true) :
    ∃ earlier directive between,
      before = earlier ++ directive :: between ∧
      isOrigin directive.code = true ∧
      ∀ line ∈ between, isOrigin line.code = false := by
  obtain ⟨line, hline, horigin⟩ := hbefore
  have hsome : (originAbove? before).isSome := by
    rw [originAbove?, List.find?_isSome]
    exact ⟨line, List.mem_reverse.mpr hline, horigin⟩
  obtain ⟨directive, hfound⟩ := Option.isSome_iff_exists.mp hsome
  obtain ⟨hdirective, first, last, hreverse, hfirst⟩ :=
    List.find?_eq_some_iff_append.mp hfound
  refine ⟨last.reverse, directive, first.reverse, ?_, hdirective, ?_⟩
  · rw [← List.reverse_reverse before, hreverse]
    simp
  · intro other hother
    simpa using hfirst other (List.mem_reverse.mp hother)

variable {lines before after : List SourceLine} {line : SourceLine}

theorem IsLastSection.originAbove?_eq
    {segment : Segment} (hsection : IsLastSection lines segment) (hnodup : lines.Nodup)
    (hsplit : lines = before ++ line :: after) (hmem : line ∈ segment.lines) :
    ∃ directive,
      originAbove? before = some directive ∧
      StartsAt directive segment.origin ∧
      ∀ later ∈ after, ¬StartsAt later segment.origin := by
  obtain ⟨earlier, directive, rest, hlines, hstarts, hlast, hrun⟩ := hsection
  rw [hrun] at hmem
  obtain ⟨between, more, htake⟩ := List.append_of_mem hmem
  have hrest : rest = between ++ line :: (more ++ rest.dropWhile (!isOrigin ·.code)) := by
    conv_lhs => rw [← List.takeWhile_append_dropWhile (p := (!isOrigin ·.code)) (l := rest), htake]
    simp
  have hbetween : ∀ other ∈ between, isOrigin other.code = false := by
    intro other hother
    have hin : other ∈ rest.takeWhile (!isOrigin ·.code) := by simp [htake, hother]
    simpa using List.mem_takeWhile_imp hin
  -- A line occurs once in a file, so both ways to split the file at the line are the same.
  have hsame : before ++ line :: after =
      (earlier ++ directive :: between) ++
        line :: (more ++ rest.dropWhile (!isOrigin ·.code)) := by
    rw [← hsplit, hlines]
    conv_lhs => rw [hrest]
    simp
  rw [hsplit, List.nodup_middle, List.nodup_cons, List.mem_append, not_or] at hnodup
  obtain ⟨⟨hnotBefore, hnotAfter⟩, -⟩ := hnodup
  obtain ⟨rfl, -, rfl⟩ := (List.append_cons_inj_of_notMem hnotBefore hnotAfter).mp hsame
  refine ⟨directive, originAbove?_append hstarts.1 hbetween earlier, hstarts, ?_⟩
  intro later hlater
  apply hlast later
  rw [hrest]
  simp only [List.mem_append, List.mem_cons] at hlater ⊢
  tauto

theorem lost_iff_later_origin
    {segments : List Segment}
    (hsegments : ∀ segment, segment ∈ segments ↔ IsLastSection lines segment)
    (hnodup : lines.Nodup)
    (hreadable : ∀ line ∈ lines, ¬IsFaultyOrigin line)
    (hfirst : ∀ first, lines.head? = some first → isOrigin first.code = true)
    (hsplit : lines = before ++ line :: after) (hcode : isOrigin line.code = false) :
    (∀ segment ∈ segments, line ∉ segment.lines) ↔
      ∃ directive origin,
        originAbove? before = some directive ∧ HasOrigin directive.code origin ∧
        ∃ later ∈ after, StartsAt later origin := by
  have hbefore : ∃ first ∈ before, isOrigin first.code = true := by
    cases before with
    | nil =>
        have hline := hfirst line (by simp [hsplit])
        simp [hcode] at hline
    | cons first rest => exact ⟨first, by simp, hfirst first (by simp [hsplit])⟩
  obtain ⟨earlier, directive, between, rfl, hdirective, hbetween⟩ := exists_originAbove hbefore
  obtain ⟨origin, horigin⟩ :=
    hasOrigin_of_not_faulty hdirective (hreadable directive (by simp [hsplit]))
  constructor
  · intro hlost
    by_contra hnone
    -- Otherwise the section of the line is the last one of its origin, and holds the line.
    let segment : Segment :=
      ⟨origin, (between ++ line :: after).takeWhile (!isOrigin ·.code)⟩
    have hlast : ∀ later ∈ between ++ line :: after, ¬StartsAt later origin := by
      intro later hlater hstarts
      rcases List.mem_append.mp hlater with hmem | hmem
      · simpa [hbetween later hmem] using hstarts.1
      · rcases List.mem_cons.mp hmem with rfl | hmem
        · simpa [hcode] using hstarts.1
        · exact hnone ⟨directive, origin, originAbove?_append hdirective hbetween earlier,
            horigin, later, hmem, hstarts⟩
    have hsection : IsLastSection lines segment :=
      ⟨earlier, directive, between ++ line :: after, by simp [hsplit],
        ⟨hdirective, horigin⟩, hlast, rfl⟩
    apply hlost segment ((hsegments segment).mpr hsection)
    change line ∈ (between ++ line :: after).takeWhile (!isOrigin ·.code)
    rw [List.takeWhile_append_of_pos (by simpa using hbetween),
      List.takeWhile_cons_of_pos (by simp [hcode])]
    simp
  · rintro ⟨found, value, hfound, hvalue, later, hlater, hstarts⟩ segment hsegment hmem
    obtain ⟨above, habove, hsegmentStarts, hlast⟩ :=
      ((hsegments segment).mp hsegment).originAbove?_eq hnodup hsplit hmem
    obtain rfl := Option.some.inj (hfound.symm.trans habove)
    obtain rfl := hvalue.unique hsegmentStarts.2
    exact hlast later hlater hstarts

/-! ## Source files -/

/-- The segments are the last sections of the origins in the lines, by ascending origin. A line of
code is in none of them exactly if the origin above it is given again behind it. -/
structure AreSectionsOf (segments : List Segment) (lines : List SourceLine) : Prop where
  ascending : Ascending segments
  origin_iff : ∀ origin,
    (∃ segment ∈ segments, segment.origin = origin) ↔ ∃ line ∈ lines, StartsAt line origin
  mem_iff : ∀ segment, segment ∈ segments ↔ IsLastSection lines segment
  lost_iff : ∀ before line after,
    lines = before ++ line :: after → isOrigin line.code = false →
    ((∀ segment ∈ segments, line ∉ segment.lines) ↔
      ∃ directive origin,
        originAbove? before = some directive ∧ HasOrigin directive.code origin ∧
        ∃ later ∈ after, StartsAt later origin)

theorem exists_isLastSection_iff (lines : List SourceLine) (origin : Int) :
    (∃ segment, IsLastSection lines segment ∧ segment.origin = origin) ↔
      ∃ line ∈ lines, StartsAt line origin := by
  constructor
  · rintro ⟨segment, ⟨before, directive, after, rfl, hstarts, -⟩, rfl⟩
    exact ⟨directive, by simp, hstarts⟩
  · intro hexists
    induction lines with
    | nil => simp at hexists
    | cons line rest ih =>
        by_cases hlater : ∃ other ∈ rest, StartsAt other origin
        · obtain ⟨segment, hsection, hsegment⟩ := ih hlater
          exact ⟨segment, (isLastSection_cons line rest segment).mpr (Or.inr hsection), hsegment⟩
        · have hline := ((List.exists_mem_cons_iff _ _ _).mp hexists).resolve_right hlater
          push Not at hlater
          refine ⟨⟨origin, rest.takeWhile (!isOrigin ·.code)⟩, ?_, rfl⟩
          exact (isLastSection_cons _ _ _).mpr (Or.inl ⟨hline, hlater, rfl⟩)

theorem ofLines_of_origin
    (hfirst : ∀ first, lines.head? = some first → isOrigin first.code = true) :
    ofLines lines = (cutAtOrigins lines).map fun parts => arranged parts.2 := by
  have hstart : ¬lines.head?.any (!isOrigin ·.code) = true := by
    cases hhead : lines.head? with
    | none => simp
    | some first => simp [hfirst first hhead]
  rw [ofLines, if_neg hstart]
  rfl

theorem areSectionsOf_arranged
    {parts : List SourceLine × List Segment}
    (hparts : cutAtOrigins lines = .ok parts) (hnodup : lines.Nodup)
    (hfirst : ∀ first, lines.head? = some first → isOrigin first.code = true) :
    AreSectionsOf (arranged parts.2) lines := by
  have hmem : ∀ segment, segment ∈ arranged parts.2 ↔ IsLastSection lines segment := by
    intro segment
    rw [(arranged_perm parts.2).mem_iff]
    exact mem_keepLast_iff_isLastSection hparts segment
  refine ⟨arranged_ascending parts.2, ?_, hmem, ?_⟩
  · intro origin
    simp only [hmem]
    exact exists_isLastSection_iff lines origin
  · intro before line after
    exact lost_iff_later_origin hmem hnodup (not_faulty_of_cutAtOrigins hparts) hfirst

/-- A file whose first code is not an origin line has no segments. Any other file has segments
exactly if all its origin lines can be read, and they are its last sections. -/
theorem ofFile_sections (content : Text) :
    (∀ first,
      (SourceLine.ofFile content).head? = some first → isOrigin first.code = false →
        ofFile content = .error .codeBeforeOrigin ∧
        Problem.codeBeforeOrigin.message =
          "cannot access local variable 'offset' where it is not associated with a value".toList) ∧
    ((∀ first,
      (SourceLine.ofFile content).head? = some first → isOrigin first.code = true) →
        ((∃ problem, ofFile content = .error problem) ↔
          ∃ line ∈ SourceLine.ofFile content, IsFaultyOrigin line) ∧
        (∀ problem, ofFile content = .error problem →
          (∃ count, problem = .wordCount count) ∨ ∃ text, problem = .numeral text) ∧
        ∀ segments, ofFile content = .ok segments →
          AreSectionsOf segments (SourceLine.ofFile content)) := by
  constructor
  · intro first hhead hcode
    refine ⟨?_, rfl⟩
    simp [ofFile, ofLines, hhead, hcode]
  · intro hfirst
    have hofFile : ofFile content = _ := ofLines_of_origin hfirst
    rw [hofFile]
    cases hparts : cutAtOrigins (SourceLine.ofFile content) with
    | error problem =>
        refine ⟨?_, ?_, by simp [Except.map]⟩
        · refine iff_of_true ⟨problem, rfl⟩ ?_
          by_contra hnone
          push Not at hnone
          obtain ⟨parts, hok⟩ := cutAtOrigins_of_not_faulty hnone
          simp [hok] at hparts
        · intro other hother
          obtain rfl := Except.error.inj hother
          exact cutAtOrigins_error hparts
    | ok parts =>
        refine ⟨?_, by simp [Except.map], ?_⟩
        · refine iff_of_false (by simp [Except.map]) ?_
          rintro ⟨line, hline, hfaulty⟩
          exact not_faulty_of_cutAtOrigins hparts line hline hfaulty
        · intro segments hsegments
          obtain rfl := Except.ok.inj hsegments
          exact areSectionsOf_arranged hparts (SourceLine.ofFile_nodup content) hfirst

/-- The origin of the first section is given again in another spelling, and its line is lost. -/
theorem ofFile_sections_respelled :
    let content := ".org $10\nclc\n.org $20\nnop\n.org $0x10\nsec\n".toList
    let segments : List Segment :=
      [⟨0x10, [⟨6, "sec".toList⟩]⟩, ⟨0x20, [⟨4, "nop".toList⟩]⟩]
    ofFile content = .ok segments ∧
      AreSectionsOf segments (SourceLine.ofFile content) ∧
      ∀ segment ∈ segments, ⟨2, "clc".toList⟩ ∉ segment.lines := by
  intro content segments
  have hcut : ofFile content = .ok (arranged
      [⟨0x10, [⟨2, "clc".toList⟩]⟩, ⟨0x20, [⟨4, "nop".toList⟩]⟩,
        ⟨0x10, [⟨6, "sec".toList⟩]⟩]) := rfl
  -- The last section of the lower origin comes behind the other in the file.
  have hsegments : ofFile content = .ok segments :=
    hcut.trans (congrArg Except.ok
      (arranged_eq_of_ascending (List.Perm.swap _ _ []) (by decide)))
  have hfirst : ∀ first,
      (SourceLine.ofFile content).head? = some first → isOrigin first.code = true := by
    intro first hhead
    obtain rfl := Option.some.inj hhead
    rfl
  have hsections := ((ofFile_sections content).2 hfirst).2.2 segments hsegments
  refine ⟨hsegments, hsections, ?_⟩
  apply (hsections.lost_iff [⟨1, ".org $10".toList⟩] ⟨2, "clc".toList⟩
    [⟨3, ".org $20".toList⟩, ⟨4, "nop".toList⟩, ⟨5, ".org $0x10".toList⟩, ⟨6, "sec".toList⟩]
    rfl rfl).mpr
  exact ⟨⟨1, ".org $10".toList⟩, 0x10, rfl, ⟨_, _, rfl, rfl⟩,
    ⟨5, ".org $0x10".toList⟩, by simp, rfl, _, _, rfl, rfl⟩

end Segment

end Assembler6502
