import Assembler6502.Proofs.CodeLines

/-!
# Characters in lower case

Lower-casing a text replaces every character by its lower-case form, which may depend on the
neighbours but never vanishes. Three things about the forms matter to the reading of code. Blanks
stay blanks and nothing else becomes one. No character beyond ASCII turns into a digit or into one of
the marks of operands, because its form does not come before the letter `i`. And a form has only
characters that lower-casing keeps.
-/

namespace Assembler6502.Text

/-! ## The table of cased letters -/

/-- The range of code points is in the alphabet and has no blank beyond ASCII. -/
def isClearRange (low high : Int) : Bool :=
  (high < 0xd800 || 0xe000 ≤ low) && high < 0x110000 &&
    (high < 0x85 || 0xa0 < low) && (high < 0x1680 || 0x1680 < low) &&
    (high < 0x2000 || 0x205f < low) && (high < 0x3000 || 0x3000 < low)

def CaseRun.isClear (run : CaseRun) : Bool :=
  0x80 ≤ run.first && isClearRange run.first run.last &&
    0x69 ≤ run.first + run.shift && isClearRange (run.first + run.shift) (run.last + run.shift)

theorem isClear_of_mem_caseRuns {run : CaseRun} (hrun : run ∈ caseRuns) :
    run.isClear = true := by
  have hall : caseRuns.all CaseRun.isClear = true := by decide +kernel
  exact List.all_eq_true.mp hall run hrun

theorem isBlank_of_isClearRange
    {low high : Int} {c : Char} (hclear : isClearRange low high = true)
    (hascii : 0x20 < c.toNat) (hlow : low ≤ c.toNat) (hhigh : c.toNat ≤ high) :
    isBlank c = false := by
  simp only [isClearRange, Bool.and_eq_true, Bool.or_eq_true, decide_eq_true_eq] at hclear
  simp only [isBlank, Bool.or_eq_false_iff, Bool.and_eq_false_iff,
    decide_eq_false_iff_not, beq_eq_false_iff_ne]
  omega

theorem toNat_ofNat_of_isClearRange
    {low high : Int} {code : Nat} (hclear : isClearRange low high = true)
    (hlow : low ≤ code) (hhigh : code ≤ high) :
    (Char.ofNat code).toNat = code := by
  simp only [isClearRange, Bool.and_eq_true, Bool.or_eq_true, decide_eq_true_eq] at hclear
  have hvalid : code.isValidChar := by
    unfold Nat.isValidChar
    omega
  rw [Char.ofNat, dif_pos hvalid]
  rfl

theorem toNat_toLower (c : Char) :
    c.toLower.toNat =
      if 0x41 ≤ c.toNat ∧ c.toNat ≤ 0x5a then c.toNat + 0x20 else c.toNat := by
  unfold Char.toLower
  split
  next hupper =>
      simp only [ge_iff_le, UInt32.le_iff_toNat_le] at hupper
      change 0x41 ≤ c.toNat ∧ c.toNat ≤ 0x5a at hupper
      rw [if_pos hupper]
      change (c.val + 0x20).toNat = c.val.toNat + 0x20
      rw [UInt32.toNat_add]
      exact Nat.mod_eq_of_lt (show c.toNat + 0x20 < 0x100000000 by omega)
  next hother =>
      simp only [ge_iff_le, UInt32.le_iff_toNat_le] at hother
      change ¬(0x41 ≤ c.toNat ∧ c.toNat ≤ 0x5a) at hother
      rw [if_neg hother]

theorem isBlank_toLower (c : Char) : isBlank c.toLower = isBlank c := by
  rw [Bool.eq_iff_iff]
  simp only [isBlank, toNat_toLower, Bool.or_eq_true, Bool.and_eq_true, decide_eq_true_eq,
    beq_iff_eq]
  split <;> omega

/-- No letter becomes a character outside the range of the letters. -/
theorem toLower_eq_iff {mark : Char} (hmark : mark.toNat < 0x41 ∨ 0x7a < mark.toNat) (c : Char) :
    c.toLower = mark ↔ c = mark := by
  rw [← Char.toNat_inj, ← Char.toNat_inj, toNat_toLower]
  split <;> omega

theorem toLower_eq_space_iff (c : Char) : c.toLower = ' ' ↔ c = ' ' :=
  toLower_eq_iff (Or.inl (by decide)) c

theorem toLower_eq_self {c : Char} (hbeyond : 0x80 ≤ c.toNat) : c.toLower = c := by
  rw [← Char.toNat_inj, toNat_toLower, if_neg (by omega)]

theorem toLower_toLower (c : Char) : c.toLower.toLower = c.toLower := by
  rw [← Char.toNat_inj, toNat_toLower c.toLower, if_neg]
  rw [toNat_toLower]
  split <;> omega

/-! ## Lower-case forms -/

/-- A form that lower-casing may give to a character. -/
def IsLowerForm (c : Char) (form : Text) : Prop :=
  form = lowerLetter c ∨ c = 'Σ' ∧ (form = ['ς'] ∨ form = ['σ'])

theorem lowerAfter_cons (afterCased : Bool) (c : Char) (rest : Text) :
    ∃ form later,
      IsLowerForm c form ∧
      lowerAfter afterCased (c :: rest) = form ++ lowerAfter later rest := by
  rw [lowerAfter]
  by_cases hsigma : c = 'Σ'
  · rw [if_pos hsigma]
    refine ⟨_, _, Or.inr ⟨hsigma, ?_⟩, rfl⟩
    split
    · exact Or.inl rfl
    · exact Or.inr rfl
  · rw [if_neg hsigma]
    exact ⟨_, _, Or.inl rfl, rfl⟩

theorem IsLowerForm.eq_of_ascii
    {c : Char} {form : Text} (hform : IsLowerForm c form) (hascii : c.toNat < 0x80) :
    form = [c.toLower] := by
  rcases hform with rfl | ⟨rfl, -⟩
  · rw [lowerLetter, if_pos hascii]
  · exact absurd hascii (by decide)

/-- What the form of a character beyond ASCII starts with, and that blanks and only blanks are
made of blanks. -/
structure IsFarForm (c : Char) (form : Text) : Prop where
  head : ∃ first rest, form = first :: rest ∧ 0x69 ≤ first.toNat
  blank : ∀ d ∈ form, isBlank d = isBlank c

theorem toNat_ofNat_of_run
    {run : CaseRun} {c : Char} (hrun : run ∈ caseRuns) (hcontains : run.contains c.toNat = true) :
    (Char.ofNat (c.toNat + run.shift).toNat).toNat = (c.toNat + run.shift).toNat ∧
      0x69 ≤ (c.toNat + run.shift).toNat := by
  have hclear := isClear_of_mem_caseRuns hrun
  simp only [CaseRun.isClear, Bool.and_eq_true, decide_eq_true_eq] at hclear
  simp only [CaseRun.contains, Bool.and_eq_true, decide_eq_true_eq] at hcontains
  obtain ⟨⟨-, hlow⟩, htarget⟩ := hclear
  obtain ⟨⟨hstart, hstop⟩, -⟩ := hcontains
  have hcode : (((c.toNat + run.shift).toNat : Nat) : Int) = c.toNat + run.shift := by omega
  refine ⟨?_, by omega⟩
  apply toNat_ofNat_of_isClearRange htarget <;> omega

theorem isFarForm_of_run
    {run : CaseRun} {c : Char} (hrun : run ∈ caseRuns) (hcontains : run.contains c.toNat = true) :
    IsFarForm c [Char.ofNat (c.toNat + run.shift).toNat] := by
  obtain ⟨htoNat, hletter⟩ := toNat_ofNat_of_run hrun hcontains
  have hclear := isClear_of_mem_caseRuns hrun
  simp only [CaseRun.isClear, Bool.and_eq_true, decide_eq_true_eq] at hclear
  simp only [CaseRun.contains, Bool.and_eq_true, decide_eq_true_eq] at hcontains
  obtain ⟨⟨⟨hfirst, hsource⟩, hlow⟩, htarget⟩ := hclear
  obtain ⟨⟨hstart, hstop⟩, -⟩ := hcontains
  constructor
  · refine ⟨_, [], rfl, ?_⟩
    rw [htoNat]
    exact hletter
  · intro d hd
    obtain rfl := List.mem_singleton.mp hd
    have hform : isBlank (Char.ofNat (c.toNat + run.shift).toNat) = false := by
      apply isBlank_of_isClearRange htarget <;> rw [htoNat] <;> omega
    have hsolid : isBlank c = false := by
      apply isBlank_of_isClearRange hsource <;> omega
    rw [hform, hsolid]

theorem isFarForm_self {c : Char} (hbeyond : 0x80 ≤ c.toNat) : IsFarForm c [c] := by
  refine ⟨⟨c, [], rfl, by omega⟩, ?_⟩
  intro d hd
  rw [List.mem_singleton.mp hd]

theorem IsLowerForm.isFarForm
    {c : Char} {form : Text} (hform : IsLowerForm c form) (hbeyond : 0x80 ≤ c.toNat) :
    IsFarForm c form := by
  rcases hform with rfl | ⟨rfl, rfl | rfl⟩
  · rw [lowerLetter, if_neg (by omega)]
    split
    next hdotted =>
        subst hdotted
        exact ⟨⟨'i', _, rfl, by decide⟩, forall_mem_of_all rfl⟩
    next =>
        split
        next run hrun =>
            have hcontains := List.find?_some (p := fun run : CaseRun => run.contains c.toNat) hrun
            exact isFarForm_of_run (List.mem_of_find?_eq_some hrun) hcontains
        next => exact isFarForm_self hbeyond
  · exact ⟨⟨'ς', [], rfl, by decide⟩, forall_mem_of_all rfl⟩
  · exact ⟨⟨'σ', [], rfl, by decide⟩, forall_mem_of_all rfl⟩

theorem IsLowerForm.isBlank_eq
    {c : Char} {form : Text} (hform : IsLowerForm c form) :
    ∀ d ∈ form, isBlank d = isBlank c := by
  by_cases hascii : c.toNat < 0x80
  · intro d hd
    rw [hform.eq_of_ascii hascii] at hd
    rw [List.mem_singleton.mp hd, isBlank_toLower]
  · exact (hform.isFarForm (by omega)).blank

theorem IsLowerForm.ne_nil
    {c : Char} {form : Text} (hform : IsLowerForm c form) : form ≠ [] := by
  by_cases hascii : c.toNat < 0x80
  · simp [hform.eq_of_ascii hascii]
  · obtain ⟨first, rest, hhead, -⟩ := (hform.isFarForm (by omega)).head
    simp [hhead]

/-- The form of a character beyond ASCII has no digit and none of the marks of code. -/
theorem IsLowerForm.le_toNat
    {c : Char} {form : Text} (hform : IsLowerForm c form) (hbeyond : 0x80 ≤ c.toNat) :
    ∀ d ∈ form, 0x69 ≤ d.toNat := by
  rcases hform with rfl | ⟨rfl, rfl | rfl⟩
  · rw [lowerLetter, if_neg (by omega)]
    split
    next => exact forall_mem_of_all rfl
    next =>
        split
        next run hrun =>
            have hcontains := List.find?_some (p := fun run : CaseRun => run.contains c.toNat) hrun
            obtain ⟨htoNat, hletter⟩ :=
              toNat_ofNat_of_run (List.mem_of_find?_eq_some hrun) hcontains
            intro d hd
            rw [List.mem_singleton.mp hd, htoNat]
            exact hletter
        next =>
            intro d hd
            rw [List.mem_singleton.mp hd]
            omega
  · exact forall_mem_of_all rfl
  · exact forall_mem_of_all rfl

/-! ## Characters of lower-case texts -/

theorem exists_form_of_mem_lowerAfter
    {afterCased : Bool} {text : Text} {d : Char} (hd : d ∈ lowerAfter afterCased text) :
    ∃ c ∈ text, ∃ form, IsLowerForm c form ∧ d ∈ form := by
  induction text generalizing afterCased with
  | nil => simp [lowerAfter] at hd
  | cons c rest ih =>
      obtain ⟨form, later, hform, hlower⟩ := lowerAfter_cons afterCased c rest
      rw [hlower, List.mem_append] at hd
      rcases hd with hmem | hlater
      · exact ⟨c, by simp, form, hform, hmem⟩
      · obtain ⟨found, hfound, hfoundForm⟩ := ih hlater
        exact ⟨found, List.mem_cons_of_mem c hfound, hfoundForm⟩

theorem exists_form_of_mem
    (afterCased : Bool) {text : Text} {c : Char} (hc : c ∈ text) :
    ∃ form, IsLowerForm c form ∧ ∀ d ∈ form, d ∈ lowerAfter afterCased text := by
  induction text generalizing afterCased with
  | nil => simp at hc
  | cons first rest ih =>
      obtain ⟨form, later, hform, hlower⟩ := lowerAfter_cons afterCased first rest
      rw [hlower]
      rcases List.mem_cons.mp hc with rfl | hrest
      · exact ⟨form, hform, fun d hd => List.mem_append_left _ hd⟩
      · obtain ⟨found, hfound, hmem⟩ := ih later hrest
        exact ⟨found, hfound, fun d hd => List.mem_append_right _ (hmem d hd)⟩

/-- A mark in a lower-case text was there before. -/
theorem mem_of_mem_lower
    {mark : Char} (hmark : mark.toNat < 0x41) {text : Text} (hmem : mark ∈ text.lower) :
    mark ∈ text := by
  obtain ⟨c, hc, form, hform, hmarkForm⟩ := exists_form_of_mem_lowerAfter hmem
  by_cases hascii : c.toNat < 0x80
  · rw [hform.eq_of_ascii hascii, List.mem_singleton] at hmarkForm
    rwa [← (toLower_eq_iff (Or.inl hmark) c).mp hmarkForm.symm]
  · have hletter := hform.le_toNat (by omega) mark hmarkForm
    omega

theorem forall_isBlank_lower_iff (text : Text) :
    (∀ d ∈ text.lower, isBlank d = true) ↔ ∀ c ∈ text, isBlank c = true := by
  constructor
  · intro hblank c hc
    obtain ⟨form, hform, hmem⟩ := exists_form_of_mem false hc
    obtain ⟨first, rest, hfirst⟩ := List.exists_cons_of_ne_nil hform.ne_nil
    rw [← hform.isBlank_eq first (by simp [hfirst])]
    exact hblank first (hmem first (by simp [hfirst]))
  · intro hblank d hd
    obtain ⟨c, hc, form, hform, hdForm⟩ := exists_form_of_mem_lowerAfter hd
    rw [hform.isBlank_eq d hdForm]
    exact hblank c hc

/-! ## Lower-casing again -/

/-- Lower-casing keeps the character wherever it stands. -/
structure IsSettled (c : Char) : Prop where
  lowerLetter_eq : lowerLetter c = [c]
  ne_sigma : c ≠ 'Σ'

instance (c : Char) : Decidable (IsSettled c) :=
  decidable_of_iff (lowerLetter c = [c] ∧ c ≠ 'Σ') ⟨fun h => ⟨h.1, h.2⟩, fun h => ⟨h.1, h.2⟩⟩

/-- No letter of the other run is a lower-case form of a letter of this run. -/
def CaseRun.misses (run other : CaseRun) : Bool :=
  Nat.blt other.last (run.first + run.shift).toNat ||
    Nat.blt (run.last + run.shift).toNat other.first ||
    (List.range (run.last + 1 - run.first)).all fun distance =>
      distance % run.step != 0 || !other.contains (run.first + distance + run.shift).toNat

theorem CaseRun.contains_eq_false
    {run other : CaseRun} {code : Nat} (hmisses : run.misses other = true)
    (hcode : run.contains code = true) :
    other.contains (code + run.shift).toNat = false := by
  simp only [CaseRun.contains, Bool.and_eq_true, decide_eq_true_eq, beq_iff_eq] at hcode
  obtain ⟨⟨hfirst, hlast⟩, hstep⟩ := hcode
  simp only [CaseRun.misses, Bool.or_eq_true, Nat.blt_eq, List.all_eq_true] at hmisses
  rcases hmisses with (hbelow | habove) | hnone
  · simp only [CaseRun.contains, Bool.and_eq_false_iff, decide_eq_false_iff_not]
    omega
  · simp only [CaseRun.contains, Bool.and_eq_false_iff, decide_eq_false_iff_not]
    omega
  · have hdistance := hnone (code - run.first) (by rw [List.mem_range]; omega)
    have hcast : (run.first : Int) + (code - run.first : Nat) + run.shift = code + run.shift := by
      omega
    rw [hcast] at hdistance
    simpa [hstep] using hdistance

/-- The letters whose lower-case form depends on their neighbours or has two characters, as runs. -/
def specialRuns : List CaseRun :=
  [⟨0x130, 0x130, 1, 0⟩, ⟨0x3a3, 0x3a3, 1, 0⟩]

theorem contains_eq_false_of_mem
    {run other : CaseRun} {code : Nat} (hrun : run ∈ caseRuns)
    (hother : other ∈ specialRuns ++ caseRuns) (hcode : run.contains code = true) :
    other.contains (code + run.shift).toNat = false := by
  have htable : caseRuns.all (fun run => (specialRuns ++ caseRuns).all run.misses) = true := by
    decide +kernel
  have hmisses := List.all_eq_true.mp (List.all_eq_true.mp htable run hrun) other hother
  exact CaseRun.contains_eq_false hmisses hcode

theorem isSettled_of_ascii {c : Char} (hascii : c.toNat < 0x80) (hlower : c.toLower = c) :
    IsSettled c := by
  refine ⟨by rw [lowerLetter, if_pos hascii, hlower], ?_⟩
  rintro rfl
  exact absurd hascii (by decide)

theorem isSettled_of_run
    {run : CaseRun} {c : Char} (hrun : run ∈ caseRuns) (hcontains : run.contains c.toNat = true) :
    IsSettled (Char.ofNat (c.toNat + run.shift).toNat) := by
  obtain ⟨htoNat, hletter⟩ := toNat_ofNat_of_run hrun hcontains
  have hmissed : ∀ other ∈ specialRuns ++ caseRuns,
      other.contains (Char.ofNat (c.toNat + run.shift).toNat).toNat = false := by
    intro other hother
    rw [htoNat]
    exact contains_eq_false_of_mem hrun hother hcontains
  rw [← htoNat] at hletter
  generalize Char.ofNat (c.toNat + run.shift).toNat = form at hmissed hletter
  by_cases hascii : form.toNat < 0x80
  · apply isSettled_of_ascii hascii
    rw [← Char.toNat_inj, toNat_toLower, if_neg (by omega)]
  · have hdotted : form ≠ '\u0130' := by
      rintro rfl
      exact absurd (hmissed ⟨0x130, 0x130, 1, 0⟩ (by simp [specialRuns])) (by decide)
    have hnone : caseRuns.find? (·.contains form.toNat) = none := by
      rw [List.find?_eq_none]
      intro other hother
      rw [hmissed other (List.mem_append_right _ hother)]
      exact Bool.false_ne_true
    refine ⟨?_, ?_⟩
    · rw [lowerLetter, if_neg hascii, if_neg hdotted, hnone]
    · rintro rfl
      exact absurd (hmissed ⟨0x3a3, 0x3a3, 1, 0⟩ (by simp [specialRuns])) (by decide)

theorem isSettled_of_mem_lowerLetter
    {c d : Char} (hsigma : c ≠ 'Σ') (hd : d ∈ lowerLetter c) : IsSettled d := by
  by_cases hascii : c.toNat < 0x80
  · rw [lowerLetter, if_pos hascii, List.mem_singleton] at hd
    subst hd
    refine isSettled_of_ascii ?_ (toLower_toLower c)
    rw [toNat_toLower]
    split <;> omega
  · rw [lowerLetter, if_neg hascii] at hd
    split at hd
    next => exact forall_mem_of_all (by decide +kernel) d hd
    next hdotted =>
        split at hd
        next run hrun =>
            have hcontains := List.find?_some (p := fun run : CaseRun => run.contains c.toNat) hrun
            rw [List.mem_singleton.mp hd]
            exact isSettled_of_run (List.mem_of_find?_eq_some hrun) hcontains
        next hnone =>
            obtain rfl := List.mem_singleton.mp hd
            exact ⟨by rw [lowerLetter, if_neg hascii, if_neg hdotted, hnone], hsigma⟩

theorem isSettled_of_mem_lower {text : Text} {d : Char} (hd : d ∈ text.lower) : IsSettled d := by
  suffices hafter : ∀ afterCased, d ∈ lowerAfter afterCased text → IsSettled d from
    hafter false hd
  clear hd
  have hsigmas : IsSettled 'ς' ∧ IsSettled 'σ' := by decide +kernel
  induction text with
  | nil => simp [lowerAfter]
  | cons c rest ih =>
      intro afterCased hd
      rw [lowerAfter, List.mem_append] at hd
      rcases hd with hform | hlater
      · split at hform
        next =>
            rw [List.mem_singleton] at hform
            split at hform
            · exact hform ▸ hsigmas.1
            · exact hform ▸ hsigmas.2
        next hsigma => exact isSettled_of_mem_lowerLetter hsigma hform
      · exact ih _ hlater

theorem toLower_eq_of_mem_lower
    {text : Text} {c : Char} (hc : c ∈ text.lower) : c.toLower = c := by
  by_cases hascii : c.toNat < 0x80
  · have hsettled := (isSettled_of_mem_lower hc).lowerLetter_eq
    rw [lowerLetter, if_pos hascii] at hsettled
    exact List.singleton_inj.mp hsettled
  · exact toLower_eq_self (by omega)

theorem isUpper_eq_false {c : Char} (hlower : c.toLower = c) : c.isUpper = false := by
  rw [Bool.eq_false_iff]
  intro hupper
  have hrange : 'A'.val ≤ c.val ∧ c.val ≤ 'Z'.val := of_decide_eq_true hupper
  rw [UInt32.le_iff_toNat_le, UInt32.le_iff_toNat_le] at hrange
  change 0x41 ≤ c.toNat ∧ c.toNat ≤ 0x5a at hrange
  rw [← Char.toNat_inj, toNat_toLower, if_pos hrange] at hlower
  omega

theorem lowerAfter_of_isSettled
    {text : Text} (htext : ∀ c ∈ text, IsSettled c) (afterCased : Bool) :
    lowerAfter afterCased text = text := by
  induction text generalizing afterCased with
  | nil => rfl
  | cons c rest ih =>
      obtain ⟨hc, hrest⟩ := List.forall_mem_cons.mp htext
      rw [lowerAfter, if_neg hc.ne_sigma, hc.lowerLetter_eq, ih hrest]
      rfl

/-! ## Neighbours of a capital sigma -/

/-- No range of the list meets the interval. -/
def rangesMiss (ranges : List (Nat × Nat)) (low high : Nat) : Bool :=
  ranges.all fun range => range.2 < low || high < range.1

theorem inRanges_eq_false
    {ranges : List (Nat × Nat)} {low high : Nat} {c : Char}
    (hmiss : rangesMiss ranges low high = true) (hlow : low ≤ c.toNat) (hhigh : c.toNat ≤ high) :
    inRanges ranges c = false := by
  unfold inRanges
  rw [List.any_eq_false]
  intro range hrange
  have hapart := List.all_eq_true.mp hmiss range hrange
  simp only [Bool.or_eq_true, decide_eq_true_eq] at hapart
  simp only [Bool.and_eq_true, decide_eq_true_eq]
  omega

theorem inRanges_eq_true
    {ranges : List (Nat × Nat)} {low high : Nat} {c : Char}
    (hrange : (low, high) ∈ ranges) (hlow : low ≤ c.toNat) (hhigh : c.toNat ≤ high) :
    inRanges ranges c = true := by
  unfold inRanges
  rw [List.any_eq_true]
  exact ⟨(low, high), hrange, by simp [hlow, hhigh]⟩

def blankRanges : List (Nat × Nat) :=
  [(0x9, 0x20), (0x85, 0x85), (0xa0, 0xa0), (0x1680, 0x1680), (0x2000, 0x200a), (0x2028, 0x2029),
    (0x202f, 0x202f), (0x205f, 0x205f), (0x3000, 0x3000)]

theorem separatesCase_of_isBlank {c : Char} (hc : isBlank c = true) : SeparatesCase c := by
  have hranges : inRanges blankRanges c = true := by
    simp only [isBlank, Bool.or_eq_true, Bool.and_eq_true, decide_eq_true_eq, beq_iff_eq] at hc
    simp only [inRanges, blankRanges, List.any_cons, List.any_nil, Bool.or_eq_true,
      Bool.and_eq_true, decide_eq_true_eq]
    omega
  have htable : blankRanges.all (fun range =>
      rangesMiss casedRanges range.1 range.2 && rangesMiss caseIgnorableRanges range.1 range.2) =
      true := by
    decide +kernel
  obtain ⟨range, hrange, hin⟩ := List.any_eq_true.mp hranges
  have hmiss := List.all_eq_true.mp htable range hrange
  simp only [Bool.and_eq_true, decide_eq_true_eq] at hin hmiss
  exact ⟨inRanges_eq_false hmiss.1 hin.1 hin.2, inRanges_eq_false hmiss.2 hin.1 hin.2⟩

/-- A letter of ASCII, capital or small, is a cased neighbour. -/
theorem isCased_of_letter
    {c : Char}
    (hc : (0x41 ≤ c.toNat ∧ c.toNat ≤ 0x5a) ∨ (0x61 ≤ c.toNat ∧ c.toNat ≤ 0x7a)) :
    isCased c = true ∧ isCaseIgnorable c = false := by
  have hcapital : (0x41, 0x5a) ∈ casedRanges := by decide +kernel
  have hsmall : (0x61, 0x7a) ∈ casedRanges := by decide +kernel
  have htable : rangesMiss caseIgnorableRanges 0x41 0x5a = true ∧
      rangesMiss caseIgnorableRanges 0x61 0x7a = true := by
    decide +kernel
  rcases hc with ⟨hlow, hhigh⟩ | ⟨hlow, hhigh⟩
  · exact ⟨inRanges_eq_true hcapital hlow hhigh, inRanges_eq_false htable.1 hlow hhigh⟩
  · exact ⟨inRanges_eq_true hsmall hlow hhigh, inRanges_eq_false htable.2 hlow hhigh⟩

/-! ## The case of ASCII letters -/

theorem isCased_toLower_and_isCaseIgnorable_toLower (c : Char) :
    isCased c.toLower = isCased c ∧ isCaseIgnorable c.toLower = isCaseIgnorable c := by
  by_cases hcapital : 0x41 ≤ c.toNat ∧ c.toNat ≤ 0x5a
  · have hsmall : 0x61 ≤ c.toLower.toNat ∧ c.toLower.toNat ≤ 0x7a := by
      rw [toNat_toLower, if_pos hcapital]
      omega
    obtain ⟨hcased, hseen⟩ := isCased_of_letter (Or.inl hcapital)
    obtain ⟨hlowerCased, hlowerSeen⟩ := isCased_of_letter (Or.inr hsmall)
    exact ⟨hlowerCased.trans hcased.symm, hlowerSeen.trans hseen.symm⟩
  · have hself : c.toLower = c := by
      rw [← Char.toNat_inj, toNat_toLower, if_neg hcapital]
    rw [hself]
    exact ⟨rfl, rfl⟩

theorem lowerLetter_toLower (c : Char) : lowerLetter c.toLower = lowerLetter c := by
  by_cases hascii : c.toNat < 0x80
  · have hlower : c.toLower.toNat < 0x80 := by
      rw [toNat_toLower]
      split <;> omega
    rw [lowerLetter, lowerLetter, if_pos hascii, if_pos hlower, toLower_toLower]
  · rw [toLower_eq_self (by omega)]

theorem startsCased_map_toLower (text : Text) :
    startsCased (text.map Char.toLower) = startsCased text := by
  have hignorable : isCaseIgnorable ∘ Char.toLower = isCaseIgnorable := by
    funext c
    exact (isCased_toLower_and_isCaseIgnorable_toLower c).2
  have hcased : ∀ c : Char, isCased c.toLower = isCased c := fun c =>
    (isCased_toLower_and_isCaseIgnorable_toLower c).1
  rw [startsCased, startsCased, List.dropWhile_map, hignorable, List.head?_map, Option.any_map]
  simp only [hcased]

theorem lowerAfter_map_toLower (afterCased : Bool) (text : Text) :
    lowerAfter afterCased (text.map Char.toLower) = lowerAfter afterCased text := by
  induction text generalizing afterCased with
  | nil => rfl
  | cons c rest ih =>
      have hsigma : c.toLower = 'Σ' ↔ c = 'Σ' := toLower_eq_iff (Or.inr (by decide)) c
      obtain ⟨hcased, hignorable⟩ := isCased_toLower_and_isCaseIgnorable_toLower c
      simp only [List.map_cons, lowerAfter, hsigma, hcased, hignorable, lowerLetter_toLower,
        startsCased_map_toLower, ih]

/-- The case of ASCII letters has no influence on lower-casing, not even on their neighbours. -/
theorem lower_map_toLower (text : Text) : lower (text.map Char.toLower) = text.lower :=
  lowerAfter_map_toLower false text

/-! ## Trimmed texts -/

theorem exists_getLast?_of_lowerAfter
    {afterCased : Bool} {text : Text} {d : Char}
    (hlast : (lowerAfter afterCased text).getLast? = some d) :
    ∃ c, text.getLast? = some c ∧ isBlank d = isBlank c := by
  induction text generalizing afterCased with
  | nil => simp [lowerAfter] at hlast
  | cons c rest ih =>
      obtain ⟨form, later, hform, hlower⟩ := lowerAfter_cons afterCased c rest
      rw [hlower] at hlast
      cases rest with
      | nil =>
          refine ⟨c, rfl, ?_⟩
          apply hform.isBlank_eq
          apply List.mem_of_mem_getLast?
          simpa [lowerAfter] using hlast
      | cons next others =>
          obtain ⟨nextForm, nextLater, hnextForm, hnextLower⟩ := lowerAfter_cons later next others
          have hsome : lowerAfter later (next :: others) ≠ [] := by
            simp [hnextLower, hnextForm.ne_nil]
          rw [List.getLast?_append_of_ne_nil _ hsome] at hlast
          obtain ⟨found, hfound, hblank⟩ := ih hlast
          exact ⟨found, by simpa using hfound, hblank⟩

theorem IsTrimmedBy.lower
    {text : Text} (htext : IsTrimmedBy isBlank text) : IsTrimmedBy isBlank text.lower := by
  constructor
  · intro d hd
    cases text with
    | nil => simp [Text.lower, lowerAfter] at hd
    | cons c rest =>
        obtain ⟨form, later, hform, hlower⟩ := lowerAfter_cons false c rest
        obtain ⟨first, others, hfirst⟩ := List.exists_cons_of_ne_nil hform.ne_nil
        rw [Text.lower, hlower, hfirst] at hd
        have hblank := hform.isBlank_eq first (by simp [hfirst])
        obtain rfl : first = d := by simpa using hd
        rw [hblank]
        exact htext.head c rfl
  · intro d hd
    obtain ⟨c, hc, hblank⟩ := exists_getLast?_of_lowerAfter hd
    rw [hblank]
    exact htext.last c hc

theorem isTrimmedBy_trim (text : Text) : IsTrimmedBy isBlank text.trim := by
  obtain ⟨left, right, -, -, -, htrimmed⟩ := exists_margins isBlank text
  exact htrimmed

end Assembler6502.Text
