import Assembler6502.Segment
import Mathlib.Tactic

/-!
# The order of segments

A source gives every origin at most one segment, and the segments come by strictly ascending
origin. Both facts are properties of the two functions that arrange what was cut out of the
source: one keeps the last segment of each origin, the other sorts.
-/

namespace Assembler6502

namespace Segment

def Ascending (segments : List Segment) : Prop :=
  segments.Pairwise fun first second => first.origin < second.origin

instance (segments : List Segment) : Decidable (Ascending segments) :=
  inferInstanceAs (Decidable (segments.Pairwise fun first second => first.origin < second.origin))

theorem keepLast_sublist (segments : List Segment) :
    (keepLast segments).Sublist segments := by
  induction segments with
  | nil => exact List.Sublist.refl _
  | cons segment rest ih =>
      unfold keepLast
      split
      · exact ih.cons segment
      · exact ih.cons_cons segment

theorem keepLast_origins_distinct (segments : List Segment) :
    (keepLast segments).Pairwise fun first second => first.origin ≠ second.origin := by
  induction segments with
  | nil => exact List.Pairwise.nil
  | cons segment rest ih =>
      unfold keepLast
      split
      · exact ih
      next hlast =>
          refine List.pairwise_cons.mpr ⟨?_, ih⟩
          intro other hother hequal
          have hmem := (keepLast_sublist rest).subset hother
          simp only [List.any_eq_true, beq_iff_eq, not_exists, not_and] at hlast
          exact hlast other hmem hequal.symm

/-- Where no origin comes twice, every segment is the last of its origin. -/
theorem keepLast_eq_self
    {segments : List Segment}
    (hdistinct : segments.Pairwise fun first second => first.origin ≠ second.origin) :
    keepLast segments = segments := by
  induction segments with
  | nil => rfl
  | cons segment rest ih =>
      obtain ⟨hfirst, hrest⟩ := List.pairwise_cons.mp hdistinct
      have hlast : rest.any (·.origin == segment.origin) = false := by
        simp only [List.any_eq_false, beq_iff_eq]
        intro other hother hequal
        exact hfirst other hother hequal.symm
      unfold keepLast
      rw [hlast, ih hrest]
      rfl

def comesBefore (first second : Segment) : Bool :=
  first.origin ≤ second.origin

/-- The segments as they are laid: the last of each origin, by ascending origin. -/
def arranged (segments : List Segment) : List Segment :=
  (keepLast segments).mergeSort comesBefore

theorem comesBefore_trans (first second third : Segment)
    (hfirst : comesBefore first second = true)
    (hsecond : comesBefore second third = true) :
    comesBefore first third = true := by
  simp only [comesBefore, decide_eq_true_eq] at *
  omega

theorem comesBefore_total (first second : Segment) :
    (comesBefore first second || comesBefore second first) = true := by
  simp only [comesBefore, Bool.or_eq_true, decide_eq_true_eq]
  omega

theorem arranged_perm (segments : List Segment) :
    (arranged segments).Perm (keepLast segments) :=
  List.mergeSort_perm _ _

theorem mem_arranged_iff
    {segments : List Segment}
    (hdistinct : segments.Pairwise fun first second => first.origin ≠ second.origin)
    (segment : Segment) :
    segment ∈ arranged segments ↔ segment ∈ segments := by
  rw [(arranged_perm segments).mem_iff, keepLast_eq_self hdistinct]

theorem arranged_ascending (segments : List Segment) :
    Ascending (arranged segments) := by
  have hsorted : (arranged segments).Pairwise
      fun first second => comesBefore first second = true :=
    List.pairwise_mergeSort comesBefore_trans comesBefore_total (keepLast segments)
  have hdistinct : (arranged segments).Pairwise
      fun first second => first.origin ≠ second.origin :=
    (arranged_perm segments).symm.pairwise (keepLast_origins_distinct segments)
      fun hne => hne.symm
  -- Sorting alone gives weak inequalities, and no two of the kept origins are equal.
  refine (hsorted.and hdistinct).imp ?_
  intro first second hboth
  simp only [comesBefore, decide_eq_true_eq] at hboth
  omega

/-- Only one order of the kept segments is ascending. -/
theorem arranged_eq_of_ascending
    {segments ordered : List Segment}
    (hperm : ordered.Perm (keepLast segments)) (hordered : Ascending ordered) :
    arranged segments = ordered := by
  have hsame : (arranged segments).Perm ordered := (arranged_perm segments).trans hperm.symm
  apply hsame.eq_of_pairwise _ (arranged_ascending segments) hordered
  intro first second _ _ hless hgreater
  omega

theorem cutAtOrigins_append
    {body : List SourceLine}
    (hbody : ∀ code ∈ body.map (·.code), isOrigin code = false)
    (rest : List SourceLine) :
    cutAtOrigins (body ++ rest) =
      (cutAtOrigins rest).map fun parts => (body ++ parts.1, parts.2) := by
  induction body with
  | nil => cases hrest : cutAtOrigins rest <;> simp [hrest, Except.map]
  | cons line body ih =>
      obtain ⟨hline, hlater⟩ := List.forall_mem_cons.mp hbody
      rw [List.cons_append, cutAtOrigins, if_neg (by simp [hline]), ih hlater]
      cases cutAtOrigins rest <;> rfl

theorem ofLines_eq_ok
    {lines : List SourceLine} {segments : List Segment}
    (hsegments : ofLines lines = .ok segments) :
    ∃ parts, cutAtOrigins lines = .ok parts ∧ segments = arranged parts.2 := by
  unfold ofLines at hsegments
  split at hsegments
  · simp at hsegments
  · cases hparts : cutAtOrigins lines with
    | error problem =>
        rw [hparts] at hsegments
        simp [Except.map] at hsegments
    | ok parts =>
        rw [hparts] at hsegments
        simp only [Except.map, Except.ok.injEq] at hsegments
        exact ⟨parts, rfl, hsegments.symm⟩

theorem ofLines_of_cutAtOrigins
    {lines : List SourceLine} {segments : List Segment}
    (hcut : cutAtOrigins lines = .ok ([], segments)) :
    ofLines lines = .ok (arranged segments) := by
  have hhead : lines.head?.any (!isOrigin ·.code) = false := by
    cases lines with
    | nil => rfl
    | cons line rest =>
        by_cases horigin : isOrigin line.code = true
        · simp [horigin]
        · rw [cutAtOrigins, if_neg horigin] at hcut
          cases hrest : cutAtOrigins rest <;> simp [hrest, Except.map] at hcut
  simp only [ofLines, hhead, hcut]
  rfl

theorem ofFile_ascending
    {content : Text} {segments : List Segment}
    (hsegments : ofFile content = .ok segments) :
    Ascending segments := by
  obtain ⟨parts, -, rfl⟩ := ofLines_eq_ok hsegments
  exact arranged_ascending parts.2

end Segment

end Assembler6502
