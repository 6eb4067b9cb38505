import Assembler6502.Text.Blank
import Mathlib.Data.List.TakeWhile
import Mathlib.Tactic

/-!
# The shape of texts

How trimming, cutting and splitting into words act on a text that is given as a concatenation. The
pieces of such a text are runs of one class of characters, so each function is determined by where
the runs meet.
-/

namespace Assembler6502.Text

/-- Running through the characters of a text decides a property of all of them. -/
theorem forall_mem_of_all
    {P : Char → Prop} [DecidablePred P] {text : Text}
    (htext : text.all (fun c => decide (P c)) = true) :
    ∀ c ∈ text, P c := by
  intro c hc
  exact of_decide_eq_true (List.all_eq_true.mp htext c hc)

/-! ## Trimming -/

/-- Neither end of the text is in the class that trimming drops. -/
structure IsTrimmedBy (dropped : Char → Bool) (text : Text) : Prop where
  head : ∀ c, text.head? = some c → dropped c = false
  last : ∀ c, text.getLast? = some c → dropped c = false

theorem dropWhile_eq_self
    {dropped : Char → Bool} {text : Text}
    (hhead : ∀ c, text.head? = some c → dropped c = false) :
    text.dropWhile dropped = text := by
  cases text with
  | nil => rfl
  | cons c rest =>
      apply List.dropWhile_cons_of_neg
      simp [hhead c rfl]

theorem IsTrimmedBy.trimBy_eq
    {dropped : Char → Bool} {text : Text}
    (htext : IsTrimmedBy dropped text) :
    text.trimBy dropped = text := by
  unfold trimBy
  rw [dropWhile_eq_self htext.head, dropWhile_eq_self, List.reverse_reverse]
  intro c hc
  rw [List.head?_reverse] at hc
  exact htext.last c hc

theorem trimBy_append_left
    {dropped : Char → Bool} {margin : Text}
    (hmargin : ∀ c ∈ margin, dropped c = true) (text : Text) :
    trimBy dropped (margin ++ text) = trimBy dropped text := by
  unfold trimBy
  rw [List.dropWhile_append_of_pos hmargin]

theorem trimBy_append_right
    {dropped : Char → Bool} {margin : Text}
    (hmargin : ∀ c ∈ margin, dropped c = true) (text : Text) :
    trimBy dropped (text ++ margin) = trimBy dropped text := by
  have hreverse : ∀ c ∈ margin.reverse, dropped c = true := by
    intro c hc
    exact hmargin c (List.mem_reverse.mp hc)
  unfold trimBy
  rw [List.dropWhile_append]
  split
  next hempty =>
      rw [List.dropWhile_eq_nil_iff.mpr hmargin, List.isEmpty_iff.mp hempty]
  next =>
      rw [List.reverse_append, List.dropWhile_append_of_pos hreverse]

theorem trimBy_of_forall
    {dropped : Char → Bool} {margin : Text}
    (hmargin : ∀ c ∈ margin, dropped c = true) :
    trimBy dropped margin = [] := by
  simpa [trimBy] using trimBy_append_left hmargin []

/-- Trimming takes the margins off a text that does not start or end with more of the same. -/
theorem trimBy_margins
    {dropped : Char → Bool} {left text right : Text}
    (hleft : ∀ c ∈ left, dropped c = true)
    (htext : IsTrimmedBy dropped text)
    (hright : ∀ c ∈ right, dropped c = true) :
    trimBy dropped (left ++ text ++ right) = text := by
  rw [trimBy_append_right hright, trimBy_append_left hleft, htext.trimBy_eq]

theorem IsTrimmedBy.of_forall
    {dropped : Char → Bool} {text : Text}
    (htext : ∀ c ∈ text, dropped c = false) :
    IsTrimmedBy dropped text := by
  constructor
  · intro c hc
    exact htext c (List.mem_of_mem_head? hc)
  · intro c hc
    exact htext c (List.mem_of_mem_getLast? hc)

theorem exists_margins (dropped : Char → Bool) (text : Text) :
    ∃ left right,
      text = left ++ text.trimBy dropped ++ right ∧
      (∀ c ∈ left, dropped c = true) ∧
      (∀ c ∈ right, dropped c = true) ∧
      IsTrimmedBy dropped (text.trimBy dropped) := by
  have hsplit := List.takeWhile_append_dropWhile (p := dropped) (l := text)
  have hreverse := List.takeWhile_append_dropWhile
    (p := dropped) (l := (text.dropWhile dropped).reverse)
  have hcore : text.dropWhile dropped =
      text.trimBy dropped ++
        ((text.dropWhile dropped).reverse.takeWhile dropped).reverse := by
    rw [trimBy, ← List.reverse_append, hreverse, List.reverse_reverse]
  refine ⟨text.takeWhile dropped,
    ((text.dropWhile dropped).reverse.takeWhile dropped).reverse, ?_, ?_, ?_, ?_, ?_⟩
  · rw [List.append_assoc, ← hcore, hsplit]
  · intro c hc
    exact List.mem_takeWhile_imp hc
  · intro c hc
    exact List.mem_takeWhile_imp (List.mem_reverse.mp hc)
  · intro c hc
    have hstart : (text.dropWhile dropped).head? = some c := by
      rw [hcore, List.head?_append, hc]
      rfl
    have hnot := List.head?_dropWhile_not dropped text
    rw [hstart] at hnot
    simpa using hnot
  · intro c hc
    have hnot := List.head?_dropWhile_not dropped (text.dropWhile dropped).reverse
    rw [trimBy, List.getLast?_reverse] at hc
    rw [hc] at hnot
    simpa using hnot

theorem trimBy_sublist (dropped : Char → Bool) (text : Text) :
    (text.trimBy dropped).Sublist text := by
  obtain ⟨left, right, htext, -⟩ := exists_margins dropped text
  conv_rhs => rw [htext]
  exact (List.sublist_append_right left _).trans (List.sublist_append_left _ right)

theorem trimBy_eq_nil_iff (dropped : Char → Bool) (text : Text) :
    text.trimBy dropped = [] ↔ ∀ c ∈ text, dropped c = true := by
  refine ⟨?_, trimBy_of_forall⟩
  intro hnil c hc
  obtain ⟨left, right, htext, hleft, hright, -⟩ := exists_margins dropped text
  rw [htext, hnil, List.append_nil, List.mem_append] at hc
  exact hc.elim (hleft c) (hright c)

/-- A trimmed text starts with the start of its first part and ends with the end of its last. -/
theorem IsTrimmedBy.append
    {dropped : Char → Bool} {first middle second : Text}
    (hfirst : IsTrimmedBy dropped first) (hsecond : IsTrimmedBy dropped second)
    (hfirstSome : first ≠ []) (hsecondSome : second ≠ []) :
    IsTrimmedBy dropped (first ++ middle ++ second) := by
  constructor
  · intro c hc
    apply hfirst.head c
    obtain ⟨d, rest, rfl⟩ := List.exists_cons_of_ne_nil hfirstSome
    simpa using hc
  · intro c hc
    apply hsecond.last c
    rwa [List.getLast?_append_of_ne_nil _ hsecondSome] at hc

/-! ## Spaces -/

def spaceless (text : Text) : Text :=
  text.filter (· ≠ ' ')

theorem spaceless_space_cons (rest : Text) : spaceless (' ' :: rest) = spaceless rest := rfl

theorem spaceless_cons_of_ne {c : Char} (hc : c ≠ ' ') (rest : Text) :
    spaceless (c :: rest) = c :: spaceless rest := by
  simp [spaceless, hc]

theorem spaceless_append (first second : Text) :
    spaceless (first ++ second) = spaceless first ++ spaceless second :=
  List.filter_append first second

theorem spaceless_eq_self {text : Text} (htext : ' ' ∉ text) : spaceless text = text := by
  apply List.filter_eq_self.mpr
  intro c hc
  simp only [decide_eq_true_eq]
  rintro rfl
  exact htext hc

/-- The number of characters of a text that are not spaces. -/
def solidLength (text : Text) : Nat :=
  text.spaceless.length

theorem solidLength_cons (c : Char) (rest : Text) :
    solidLength (c :: rest) = (if c = ' ' then 0 else 1) + solidLength rest := by
  unfold solidLength
  by_cases hc : c = ' '
  · rw [hc, spaceless_space_cons, if_pos rfl, Nat.zero_add]
  · rw [spaceless_cons_of_ne hc, List.length_cons, if_neg hc, Nat.add_comm]

theorem solidLength_append (first second : Text) :
    solidLength (first ++ second) = solidLength first + solidLength second := by
  unfold solidLength
  rw [spaceless_append, List.length_append]

theorem solidLength_le_of_sublist {first second : Text} (hsub : first.Sublist second) :
    solidLength first ≤ solidLength second :=
  (hsub.filter _).length_le

theorem solidLength_le_length (text : Text) : solidLength text ≤ text.length :=
  List.length_filter_le _ text

theorem IsTrimmedBy.exists_cons_of_spaceless
    {text rest : Text} {c : Char} (htext : IsTrimmedBy isBlank text)
    (hspaceless : text.spaceless = c :: rest) :
    ∃ tail, text = c :: tail ∧ spaceless tail = rest := by
  cases text with
  | nil => simp [spaceless] at hspaceless
  | cons first tail =>
      have hblank := htext.head first rfl
      have hsolid : first ≠ ' ' := by
        rintro rfl
        exact absurd hblank (by decide)
      rw [spaceless_cons_of_ne hsolid] at hspaceless
      obtain ⟨rfl, hrest⟩ := List.cons.inj hspaceless
      exact ⟨tail, rfl, hrest⟩

theorem IsTrimmedBy.spaceless {text : Text} (htext : IsTrimmedBy isBlank text) :
    IsTrimmedBy isBlank text.spaceless := by
  constructor
  · intro c hc
    obtain ⟨rest, hrest⟩ := List.head?_eq_some_iff.mp hc
    obtain ⟨tail, rfl, -⟩ := htext.exists_cons_of_spaceless hrest
    exact htext.head c rfl
  · intro c hc
    rcases List.eq_nil_or_concat' text with rfl | ⟨front, last, rfl⟩
    · simp [Text.spaceless] at hc
    · have hlast : isBlank last = false := htext.last last (by simp)
      have hsolid : last ≠ ' ' := by
        rintro rfl
        exact absurd hlast (by decide)
      rw [spaceless_append, spaceless_cons_of_ne hsolid] at hc
      obtain rfl : last = c := by simpa [Text.spaceless] using hc
      exact hlast

theorem mem_take_spaceless
    {text : Text} {count : Nat} {c : Char} (hc : c ∈ text.take count) (hsolid : c ≠ ' ') :
    c ∈ text.spaceless.take count := by
  have hsplit : text.spaceless = spaceless (text.take count) ++ spaceless (text.drop count) := by
    rw [← spaceless_append, List.take_append_drop]
  have hlength : (spaceless (text.take count)).length ≤ count :=
    (List.length_filter_le _ _).trans (List.length_take_le _ _)
  rw [hsplit, List.take_append, List.take_of_length_le hlength]
  exact List.mem_append_left _ (List.mem_filter.mpr ⟨hc, by simpa using hsolid⟩)

theorem take_spaceless
    {text : Text} {count : Nat} (htext : ' ' ∉ text.take count) :
    text.spaceless.take count = text.take count := by
  induction text generalizing count with
  | nil => rfl
  | cons c rest ih =>
      cases count with
      | zero => rfl
      | succ count =>
          rw [List.take_succ_cons, List.mem_cons, not_or] at htext
          rw [spaceless_cons_of_ne (Ne.symm htext.1), List.take_succ_cons, List.take_succ_cons,
            ih htext.2]

theorem slice_spaceless
    {text : Text} {stop : Nat} (htext : ' ' ∉ text.take stop) (start : Nat) :
    text.spaceless.slice start stop = text.slice start stop := by
  rw [slice, take_spaceless htext, slice]

/-! ## Cutting -/

theorem before_append_mark
    {mark : Char} {first : Text} (hfirst : mark ∉ first) (rest : Text) :
    (first ++ mark :: rest).before mark = first := by
  unfold before
  rw [List.takeWhile_append_of_pos]
  · simp
  · intro c hc
    have hne : c ≠ mark := fun hequal => hfirst (hequal ▸ hc)
    simpa using hne

theorem before_of_not_mem
    {mark : Char} {text : Text} (htext : mark ∉ text) :
    text.before mark = text := by
  unfold before
  rw [List.takeWhile_eq_self_iff]
  intro c hc
  have hne : c ≠ mark := fun hequal => htext (hequal ▸ hc)
  simpa using hne

theorem before_cons_of_ne
    {mark c : Char} (hc : c ≠ mark) (text : Text) :
    before mark (c :: text) = c :: before mark text := by
  simp [before, hc]

theorem before_append_of_mem
    {mark : Char} {first : Text} (hfirst : mark ∈ first) (rest : Text) :
    (first ++ rest).before mark = first.before mark := by
  induction first with
  | nil => simp at hfirst
  | cons c first ih =>
      by_cases hc : c = mark
      · simp [before, hc]
      · have hmem : mark ∈ first := by simpa [Ne.symm hc] using hfirst
        rw [List.cons_append, before_cons_of_ne hc, before_cons_of_ne hc, ih hmem]

theorem cut?_append_mark
    {mark : Char} {first : Text} (hfirst : mark ∉ first) (rest : Text) :
    (first ++ mark :: rest).cut? mark = some (first, rest) := by
  induction first with
  | nil => simp [cut?]
  | cons c first ih =>
      rw [List.mem_cons, not_or] at hfirst
      simp [cut?, Ne.symm hfirst.1, ih hfirst.2]

theorem cut?_of_not_mem
    {mark : Char} {text : Text} (htext : mark ∉ text) :
    text.cut? mark = none := by
  induction text with
  | nil => rfl
  | cons c text ih =>
      rw [List.mem_cons, not_or] at htext
      simp [cut?, Ne.symm htext.1, ih htext.2]

theorem slice_append (first middle rest : Text) :
    (first ++ middle ++ rest).slice first.length (first.length + middle.length) =
      middle := by
  have hlength : first.length + middle.length = (first ++ middle).length := by simp
  rw [slice, hlength, List.take_left, List.drop_left]

/-! ## Words -/

/-- Blanks between words. -/
structure IsGap (gap : Text) : Prop where
  nonempty : gap ≠ []
  blank : ∀ c ∈ gap, isBlank c = true

theorem IsGap.isBlank_head
    {gap : Text} (hgap : IsGap gap) (rest : Text) :
    ∀ c, (gap ++ rest).head? = some c → isBlank c = true := by
  intro c hc
  rw [List.head?_append_of_ne_nil gap hgap.nonempty] at hc
  exact hgap.blank c (List.mem_of_mem_head? hc)

theorem words_append_left
    {margin : Text} (hmargin : ∀ c ∈ margin, isBlank c = true) (text : Text) :
    words (margin ++ text) = words text := by
  induction margin with
  | nil => rfl
  | cons c margin ih =>
      have hc : isBlank c = true := hmargin c (by simp)
      rw [List.cons_append, words, if_pos hc]
      exact ih fun d hd => hmargin d (by simp [hd])

theorem words_append_right
    {margin : Text} (hmargin : ∀ c ∈ margin, isBlank c = true) (text : Text) :
    words (text ++ margin) = words text := by
  induction text with
  | nil =>
      rw [List.nil_append, ← List.append_nil margin, words_append_left hmargin]
  | cons c rest ih =>
      have hnext : (rest ++ margin).head?.any (!isBlank ·) = rest.head?.any (!isBlank ·) := by
        cases rest with
        | nil =>
            cases margin with
            | nil => rfl
            | cons d margin => simp [hmargin d (by simp)]
        | cons d rest => rfl
      rw [List.cons_append, words, words, hnext, ih]

theorem words_trim (text : Text) : words text.trim = words text := by
  obtain ⟨left, right, htext, hleft, hright, -⟩ := exists_margins isBlank text
  conv_rhs => rw [htext, words_append_right hright, words_append_left hleft]
  rfl

theorem words_word_append
    {word rest : Text} (hword : word ≠ [])
    (hplain : ∀ c ∈ word, isBlank c = false)
    (hrest : ∀ c, rest.head? = some c → isBlank c = true) :
    words (word ++ rest) = word :: words rest := by
  induction word with
  | nil => exact absurd rfl hword
  | cons c word ih =>
      have hc : isBlank c = false := hplain c (by simp)
      cases word with
      | nil =>
          have hstop : rest.head?.any (!isBlank ·) = false := by
            cases hhead : rest.head? with
            | none => rfl
            | some d => simp [hrest d hhead]
          simp [words, hc, hstop]
      | cons d word =>
          have hd : isBlank d = false := hplain d (by simp)
          have hlater := ih (by simp) fun e he => hplain e (List.mem_cons_of_mem c he)
          have hgoes : (d :: word ++ rest).head?.any (!isBlank ·) = true := by simp [hd]
          rw [List.cons_append, words, hc, hgoes, hlater]
          rfl

theorem words_word
    {word : Text} (hword : word ≠ []) (hplain : ∀ c ∈ word, isBlank c = false) :
    words word = [word] := by
  have hwords := words_word_append hword hplain
    (show ∀ c, ([] : Text).head? = some c → isBlank c = true by simp)
  rwa [List.append_nil] at hwords

theorem words_gap_append
    {word gap : Text} (hword : word ≠ []) (hplain : ∀ c ∈ word, isBlank c = false)
    (hgap : IsGap gap) (rest : Text) :
    words (word ++ gap ++ rest) = word :: words rest := by
  rw [List.append_assoc, words_word_append hword hplain (hgap.isBlank_head rest),
    words_append_left hgap.blank]

/-- The first word of a text is its first run of characters that are not blank. -/
theorem exists_of_words_eq_cons
    {text word : Text} {rest : List Text} (hwords : words text = word :: rest) :
    ∃ left after,
      text = left ++ word ++ after ∧
      (∀ c ∈ left, isBlank c = true) ∧
      word ≠ [] ∧
      (∀ c ∈ word, isBlank c = false) ∧
      (∀ c, after.head? = some c → isBlank c = true) ∧
      words after = rest := by
  have hleft : ∀ c ∈ text.takeWhile isBlank, isBlank c = true := fun c hc =>
    List.mem_takeWhile_imp hc
  have hsplit := List.takeWhile_append_dropWhile (p := isBlank) (l := text)
  have hhead := List.head?_dropWhile_not isBlank text
  generalize text.takeWhile isBlank = left at hleft hsplit
  generalize text.dropWhile isBlank = solid at hsplit hhead
  have hrun : ∀ c ∈ solid.takeWhile (!isBlank ·), isBlank c = false := by
    intro c hc
    simpa using List.mem_takeWhile_imp hc
  have hafter : ∀ c, (solid.dropWhile (!isBlank ·)).head? = some c → isBlank c = true := by
    intro c hc
    have hnot := List.head?_dropWhile_not (!isBlank ·) solid
    rw [hc] at hnot
    simpa using hnot
  have hsome : solid.takeWhile (!isBlank ·) ≠ [] := by
    cases solid with
    | nil =>
        rw [← hsplit, words_append_left hleft] at hwords
        exact absurd hwords (by simp [words])
    | cons c others =>
        rw [List.takeWhile_cons_of_pos (by simpa using hhead)]
        simp
  have hparts := List.takeWhile_append_dropWhile (p := (!isBlank ·)) (l := solid)
  rw [← hsplit, words_append_left hleft, ← hparts, words_word_append hsome hrun hafter,
    List.cons.injEq] at hwords
  obtain ⟨rfl, hrest⟩ := hwords
  exact ⟨left, _, by rw [List.append_assoc, hparts, hsplit], hleft, hsome, hrun, hafter, hrest⟩

theorem isBlank_of_words_eq_nil
    {text : Text} (hwords : words text = []) : ∀ c ∈ text, isBlank c = true := by
  induction text with
  | nil => simp
  | cons c rest ih =>
      rw [words] at hwords
      split at hwords
      next hc => exact List.forall_mem_cons.mpr ⟨hc, ih hwords⟩
      next =>
          split at hwords
          · cases hrest : words rest <;> simp [hrest, extendFirst] at hwords
          · simp at hwords

/-! ## Joining -/

theorem join_cons_cons (separator first second : Text) (rest : List Text) :
    join separator (first :: second :: rest) =
      first ++ (separator ++ join separator (second :: rest)) := rfl

theorem mem_join
    {separator : Text} {texts : List Text} {c : Char} (hc : c ∈ join separator texts) :
    c ∈ separator ∨ ∃ text ∈ texts, c ∈ text := by
  induction texts with
  | nil => simp [join] at hc
  | cons first rest ih =>
      cases rest with
      | nil => exact .inr ⟨first, by simp, by simpa [join] using hc⟩
      | cons second later =>
          rw [join_cons_cons, List.mem_append, List.mem_append] at hc
          rcases hc with hfirst | hseparator | hlater
          · exact .inr ⟨first, by simp, hfirst⟩
          · exact .inl hseparator
          · exact (ih hlater).imp_right fun ⟨text, htext, hmem⟩ =>
              ⟨text, List.mem_cons_of_mem first htext, hmem⟩

/-- Joining words by spaces and splitting gives the words back. -/
theorem words_join
    {tokens : List Text} (hsome : ∀ token ∈ tokens, token ≠ [])
    (hplain : ∀ token ∈ tokens, ∀ c ∈ token, isBlank c = false) :
    words (join [' '] tokens) = tokens := by
  induction tokens with
  | nil => rfl
  | cons token rest ih =>
      obtain ⟨htoken, hrestSome⟩ := List.forall_mem_cons.mp hsome
      obtain ⟨htokenPlain, hrestPlain⟩ := List.forall_mem_cons.mp hplain
      cases rest with
      | nil =>
          have hsingle : join [' '] [token] = token := by simp [join]
          rw [hsingle, words_word htoken htokenPlain]
      | cons next later =>
          have hgap : IsGap [' '] := ⟨by simp, by simp [isBlank]⟩
          rw [join_cons_cons, ← List.append_assoc,
            words_gap_append htoken htokenPlain hgap,
            ih hrestSome hrestPlain]

end Assembler6502.Text
