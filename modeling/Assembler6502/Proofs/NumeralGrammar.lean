import Assembler6502.Proofs.Numerals

/-!
# The grammar of numerals

A numeral in base 16 is a sign, a mark of the base and groups of digits with single underscores
between them. Sign and mark may be missing. Reading takes exactly the texts that are numerals once
the blanks around them are gone and their digits are ASCII digits, and gives the number that the
digits of all groups write together.
-/

namespace Assembler6502.Hexadecimal

open Text

/-! ## Groups of digits -/

theorem valueFrom_append (value : Nat) (first second : Text) :
    valueFrom value (first ++ second) = valueFrom (valueFrom value first) second :=
  List.foldl_append

/-- The first group may be empty behind a digit, which then belongs to it. -/
theorem exists_groups_of_readGroups
    {afterDigit : Bool} {value number : Nat} {text : Text}
    (hread : readGroups afterDigit value text = some number) :
    ∃ first later,
      text = join ['_'] (first :: later) ∧
      (∀ c ∈ first, isDigit c = true) ∧
      (afterDigit = true ∨ first ≠ []) ∧
      (∀ group ∈ later, IsGroup group) ∧
      number = valueFrom value (first ++ later.flatten) := by
  induction text generalizing afterDigit value with
  | nil =>
      cases afterDigit with
      | false => simp [readGroups] at hread
      | true =>
          obtain rfl : value = number := by simpa [readGroups] using hread
          exact ⟨[], [], rfl, by simp, .inl rfl, by simp, rfl⟩
  | cons c rest ih =>
      rw [readGroups] at hread
      by_cases hunderscore : c = '_'
      · subst hunderscore
        cases afterDigit with
        | false => simp at hread
        | true =>
            obtain ⟨first, later, rfl, hfirst, hsome, hlater, rfl⟩ := ih hread
            have hgroup : IsGroup first := ⟨by simpa using hsome, hfirst⟩
            exact ⟨[], first :: later, rfl, by simp, .inl rfl,
              List.forall_mem_cons.mpr ⟨hgroup, hlater⟩, rfl⟩
      · rw [if_neg hunderscore] at hread
        cases hdigit : digit? c with
        | none => simp [hdigit] at hread
        | some digit =>
            simp only [hdigit] at hread
            obtain ⟨first, later, rfl, hfirst, -, hlater, rfl⟩ := ih hread
            have hc : isDigit c = true := by rw [isDigit, hdigit, Option.isSome_some]
            refine ⟨c :: first, later, ?_, List.forall_mem_cons.mpr ⟨hc, hfirst⟩, .inr (by simp),
              hlater, ?_⟩
            · cases later <;> rfl
            · simp [valueFrom, hdigit]

theorem readGroups_append
    {group : Text} (hgroup : IsGroup group) (afterDigit : Bool) (value : Nat) (rest : Text) :
    readGroups afterDigit value (group ++ rest) =
      readGroups true (valueFrom value group) rest := by
  obtain ⟨hsome, hdigits⟩ := hgroup
  induction group generalizing afterDigit value with
  | nil => exact absurd rfl hsome
  | cons c group ih =>
      obtain ⟨hc, hlater⟩ := List.forall_mem_cons.mp hdigits
      have hunderscore : c ≠ '_' := by
        rintro rfl
        exact absurd hc (by decide)
      rw [List.cons_append, readGroups, if_neg hunderscore, digit?_eq_some_of_isDigit hc]
      cases group with
      | nil => rfl
      | cons d group => exact ih true _ (by simp) hlater

theorem readGroups_join
    {first : Text} {later : List Text} (hgroups : ∀ group ∈ first :: later, IsGroup group)
    (value : Nat) :
    readGroups false value (join ['_'] (first :: later)) =
      some (valueFrom value (first :: later).flatten) := by
  induction later generalizing first value with
  | nil =>
      have hjoin : join ['_'] [first] = first ++ [] := by simp [join]
      rw [hjoin, readGroups_append (hgroups first (by simp))]
      simp [readGroups]
  | cons second later ih =>
      obtain ⟨hfirst, hlater⟩ := List.forall_mem_cons.mp hgroups
      have hunderscore (number : Nat) (rest : Text) :
          readGroups true number (['_'] ++ rest) = readGroups false number rest := rfl
      rw [join_cons_cons, readGroups_append hfirst, hunderscore, ih hlater, ← valueFrom_append,
        ← List.flatten_cons]

/-! ## Numerals -/

structure Numeral where
  sign : Text
  mark : Text
  groups : List Text
  sign_mem : sign ∈ [[], ['+'], ['-']]
  mark_mem : mark ∈ [[], ['0', 'x'], ['0', 'X'], ['0', 'x', '_'], ['0', 'X', '_']]
  groups_ne_nil : groups ≠ []
  isGroup : ∀ group ∈ groups, IsGroup group

namespace Numeral

def text (numeral : Numeral) : Text :=
  numeral.sign ++ (numeral.mark ++ join ['_'] numeral.groups)

def magnitude (numeral : Numeral) : Nat :=
  valueFrom 0 numeral.groups.flatten

def value (numeral : Numeral) : Int :=
  if numeral.sign = ['-'] then -(numeral.magnitude : Int) else numeral.magnitude

/-- The groups start with a digit. -/
theorem exists_join_groups_cons (numeral : Numeral) :
    ∃ c rest, join ['_'] numeral.groups = c :: rest ∧ isDigit c = true := by
  obtain ⟨first, later, hgroups⟩ := List.exists_cons_of_ne_nil numeral.groups_ne_nil
  have hfirst := numeral.isGroup first (by simp [hgroups])
  obtain ⟨c, rest, rfl⟩ := List.exists_cons_of_ne_nil hfirst.nonempty
  have hc := hfirst.digits c (by simp)
  rw [hgroups]
  cases later with
  | nil => exact ⟨c, rest, by simp [join], hc⟩
  | cons second later => exact ⟨c, _, join_cons_cons _ _ _ _, hc⟩

theorem noMark_join_groups (numeral : Numeral) :
    ∀ c ∈ join ['_'] numeral.groups, c ≠ 'x' ∧ c ≠ 'X' := by
  intro c hc
  rcases mem_join hc with hunderscore | ⟨group, hgroup, hmem⟩
  · rw [List.mem_singleton.mp hunderscore]
    decide
  · have hdigit := (numeral.isGroup group hgroup).digits c hmem
    exact ⟨ne_of_isDigit hdigit (by decide), ne_of_isDigit hdigit (by decide)⟩

theorem readGroups_join_groups (numeral : Numeral) :
    readGroups false 0 (join ['_'] numeral.groups) = some numeral.magnitude := by
  obtain ⟨first, later, hgroups⟩ := List.exists_cons_of_ne_nil numeral.groups_ne_nil
  have hall := numeral.isGroup
  rw [hgroups] at hall
  rw [magnitude, hgroups]
  exact readGroups_join hall 0

theorem readMagnitude_mark_append (numeral : Numeral) :
    readMagnitude (numeral.mark ++ join ['_'] numeral.groups) = some numeral.magnitude := by
  have hgroups := numeral.readGroups_join_groups
  have hnoMark := numeral.noMark_join_groups
  obtain ⟨c, rest, hjoin, hc⟩ := numeral.exists_join_groups_cons
  have hunderscore : c ≠ '_' := ne_of_isDigit hc (by decide)
  have hmark := numeral.mark_mem
  simp only [List.mem_cons, List.not_mem_nil, or_false] at hmark
  rcases hmark with hmark | hmark | hmark | hmark | hmark
  · rw [hmark, List.nil_append, readMagnitude_of_noMark hnoMark, hgroups]
  all_goals
    rw [hjoin] at hgroups
    rw [hmark, hjoin]
    simpa [readMagnitude, hunderscore] using hgroups

/-- A numeral without a sign starts with a digit, of its mark or of its groups. -/
theorem exists_text_cons_of_noSign (numeral : Numeral) :
    ∃ c rest, numeral.mark ++ join ['_'] numeral.groups = c :: rest ∧ isDigit c = true := by
  obtain ⟨c, rest, hjoin, hc⟩ := numeral.exists_join_groups_cons
  have hmark := numeral.mark_mem
  simp only [List.mem_cons, List.not_mem_nil, or_false] at hmark
  rcases hmark with hmark | hmark | hmark | hmark | hmark
  · exact ⟨c, rest, by rw [hmark, hjoin, List.nil_append], hc⟩
  all_goals exact ⟨'0', _, by rw [hmark, List.cons_append], by decide⟩

theorem readSigned_text (numeral : Numeral) : readSigned numeral.text = some numeral.value := by
  have hmagnitude := numeral.readMagnitude_mark_append
  have hsign := numeral.sign_mem
  simp only [List.mem_cons, List.not_mem_nil, or_false] at hsign
  unfold text value
  rcases hsign with hsign | hsign | hsign
  · obtain ⟨c, rest, htext, hc⟩ := numeral.exists_text_cons_of_noSign
    rw [hsign, List.nil_append, readSigned_of_noSign, hmagnitude, if_neg (by simp)]
    · rfl
    · rw [htext]
      rintro d ⟨⟩
      exact ⟨ne_of_isDigit hc (by decide), ne_of_isDigit hc (by decide)⟩
  · rw [hsign, List.singleton_append, readSigned, hmagnitude, if_neg (by simp)]
    rfl
  · rw [hsign, List.singleton_append, readSigned, hmagnitude, if_pos rfl]
    rfl

end Numeral

/-! ## Reading -/

theorem exists_marked_of_readMagnitude
    {text : Text} {number : Nat} (hread : readMagnitude text = some number) :
    ∃ numeral : Numeral,
      numeral.sign = [] ∧ numeral.text = text ∧ numeral.magnitude = number := by
  have hgroups {mark rest : Text} (hsplit : mark ++ rest = text)
      (hmark : mark ∈ [[], ['0', 'x'], ['0', 'X'], ['0', 'x', '_'], ['0', 'X', '_']])
      (hrest : readGroups false 0 rest = some number) :
      ∃ numeral : Numeral,
        numeral.sign = [] ∧ numeral.text = text ∧ numeral.magnitude = number := by
    obtain ⟨first, later, rfl, hfirst, hsome, hlater, rfl⟩ := exists_groups_of_readGroups hrest
    have hall : ∀ group ∈ first :: later, IsGroup group :=
      List.forall_mem_cons.mpr ⟨⟨by simpa using hsome, hfirst⟩, hlater⟩
    exact ⟨⟨[], mark, first :: later, by simp, hmark, by simp, hall⟩, rfl, hsplit, rfl⟩
  unfold readMagnitude at hread
  split at hread
  · exact hgroups (@List.cons_append _ '0' ['x', '_'] _) (by simp) hread
  · exact hgroups (@List.cons_append _ '0' ['X', '_'] _) (by simp) hread
  · exact hgroups (@List.cons_append _ '0' ['x'] _) (by simp) hread
  · exact hgroups (@List.cons_append _ '0' ['X'] _) (by simp) hread
  · exact hgroups (List.nil_append _) (by simp) hread

theorem exists_text_of_readSigned
    {text : Text} {number : Int} (hread : readSigned text = some number) :
    ∃ numeral : Numeral, numeral.text = text ∧ numeral.value = number := by
  unfold readSigned at hread
  split at hread
  next rest =>
      obtain ⟨value, hvalue, rfl⟩ := Option.map_eq_some_iff.mp hread
      obtain ⟨magnitude, hmagnitude, hcast⟩ := Option.bind_eq_some_iff.mp hvalue
      obtain rfl := Option.some.inj hcast
      obtain ⟨numeral, hsign, rfl, rfl⟩ := exists_marked_of_readMagnitude hmagnitude
      refine ⟨{ numeral with sign := ['-'], sign_mem := by simp }, ?_, ?_⟩
      · simp [Numeral.text, hsign]
      · simp [Numeral.value, Numeral.magnitude]
  next rest =>
      obtain ⟨magnitude, hmagnitude, rfl⟩ := Option.map_eq_some_iff.mp hread
      obtain ⟨numeral, hsign, rfl, rfl⟩ := exists_marked_of_readMagnitude hmagnitude
      refine ⟨{ numeral with sign := ['+'], sign_mem := by simp }, ?_, ?_⟩
      · simp [Numeral.text, hsign]
      · simp [Numeral.value, Numeral.magnitude]
  next =>
      obtain ⟨magnitude, hmagnitude, rfl⟩ := Option.map_eq_some_iff.mp hread
      obtain ⟨numeral, hsign, rfl, rfl⟩ := exists_marked_of_readMagnitude hmagnitude
      exact ⟨numeral, rfl, by simp [Numeral.value, hsign]⟩

/-- Reading takes exactly the numerals. -/
theorem read?_eq_some_iff (text : Text) (number : Int) :
    read? text = some number ↔
      ∃ numeral : Numeral,
        numeral.text = (text.trimBy isMargin).map unifyDigit ∧ numeral.value = number := by
  constructor
  · exact exists_text_of_readSigned
  · rintro ⟨numeral, htext, rfl⟩
    rw [read?, ← htext]
    exact numeral.readSigned_text

/-- The margins of a numeral are blanks, so a text without blanks has none. -/
theorem read?_eq_some_iff_of_solid
    {text : Text} (htext : ∀ c ∈ text, isBlank c = false) (number : Int) :
    read? text = some number ↔
      ∃ numeral : Numeral, numeral.text = text.map unifyDigit ∧ numeral.value = number := by
  have hmargin : IsTrimmedBy isMargin text := by
    apply IsTrimmedBy.of_forall
    intro c hc
    rw [isMargin, htext c hc, Bool.false_and]
  rw [read?_eq_some_iff, hmargin.trimBy_eq]

theorem read?_marked_padded (width number : Nat) :
    read? ('0' :: 'x' :: hexPadded width number) = some (number : Int) := by
  have hdigits : ∀ c ∈ hexPadded width number, isDigit c = true := fun c hc =>
    isDigit_of_mem_padded hc
  have hmark : unifyDigit '0' = '0' ∧ unifyDigit 'x' = 'x' := by decide
  have hblank : isBlank '0' = false ∧ isBlank 'x' = false := by decide
  have hsolid : ∀ c ∈ '0' :: 'x' :: hexPadded width number, isBlank c = false := by
    simpa [hblank] using fun c hc => isBlank_of_isDigit (hdigits c hc)
  let numeral : Numeral :=
    { sign := []
      mark := ['0', 'x']
      groups := [hexPadded width number]
      sign_mem := by simp
      mark_mem := by simp
      groups_ne_nil := by simp
      isGroup := by simpa using ⟨padded_ne_nil width number, hdigits⟩ }
  rw [read?_eq_some_iff_of_solid hsolid]
  refine ⟨numeral, ?_, ?_⟩
  · simp [numeral, Numeral.text, join, hmark, map_unifyDigit_of_isDigit hdigits]
  · simp [numeral, Numeral.value, Numeral.magnitude, valueFrom_padded]

end Assembler6502.Hexadecimal
