import Assembler6502.Proofs.ImageLaying
import Assembler6502.Proofs.SegmentOrder
import Assembler6502.Proofs.TwoPasses

/-!
# Branches to labels that are not defined

A branch may name a label that its segment does not define. Whether assembling then fails depends
on the branches before it: the second pass remembers the last position it found and falls back to
it. So a segment fails exactly if its first branch is undefined, and every later undefined branch
is reported and assembled all the same.
-/

namespace Assembler6502

/-! ## The labels in the object code of a line -/

namespace Operand

theorem trimmedValue_labelNames
    {marks : Text} {operand : Option Text} {low : Option Entry}
    (hlow : trimmedValue marks operand = .ok low) :
    labelNames low.toList = [] := by
  cases operand with
  | none => simp [trimmedValue] at hlow
  | some text =>
      cases hnumeral : readNumeral (text.trimBy marks.contains) with
      | error problem => simp [trimmedValue, hnumeral, Except.map] at hlow
      | ok number =>
          simp only [trimmedValue, hnumeral, Except.map, Except.ok.injEq] at hlow
          subst hlow
          rfl

theorem slicedValue_labelNames
    {start stop : Nat} {operand : Option Text} {low : Option Entry}
    (hlow : slicedValue start stop operand = .ok low) :
    labelNames low.toList = [] := by
  cases operand with
  | none => simp [slicedValue] at hlow
  | some text =>
      cases hnumeral : readNumeral (text.slice start stop) with
      | error problem => simp [slicedValue, hnumeral, Except.map] at hlow
      | ok number =>
          simp only [slicedValue, hnumeral, Except.map, Except.ok.injEq] at hlow
          subst hlow
          rfl

theorem mode_empty : mode (some []) = .ok .implied := rfl

end Operand

namespace AddressingMode

theorem lowEntry_labelNames
    {mode : AddressingMode} {operand : Option Text} {low : Option Entry}
    (hlow : mode.lowEntry operand = .ok low) :
    labelNames low.toList = if mode = .relative then operand.toList else [] := by
  cases mode with
  | accumulator | implied =>
      simp only [lowEntry, Except.ok.injEq] at hlow
      subst hlow
      rfl
  | relative =>
      simp only [lowEntry, Except.ok.injEq] at hlow
      subst hlow
      cases operand <;> rfl
  | immediate | zeroPage => exact Operand.trimmedValue_labelNames hlow
  | zeroPageX | absolute | absoluteX | absoluteY | indirectX | indirectY =>
      exact Operand.slicedValue_labelNames hlow
  | zeroPageY | indirect => simp [lowEntry] at hlow

theorem highEntry_labelNames
    {mode : AddressingMode} {operand : Option Text} {high : Option Entry}
    (hhigh : mode.highEntry operand = .ok high) :
    labelNames high.toList = [] := by
  cases mode with
  | absolute | absoluteX | absoluteY => exact Operand.slicedValue_labelNames hhigh
  | accumulator | implied | relative | immediate | zeroPage | zeroPageX
  | indirectX | indirectY =>
      simp only [highEntry, Except.ok.injEq] at hhigh
      subst hhigh
      rfl
  | zeroPageY | indirect => simp [highEntry] at hhigh

end AddressingMode

theorem labelNames_append (first second : List Entry) :
    labelNames (first ++ second) = labelNames first ++ labelNames second :=
  List.filterMap_append

theorem Instruction.encode_labelNames
    {instruction : Instruction} {operand : Option Text} {entries : List Entry}
    (hencode : instruction.encode operand = .ok entries) :
    labelNames entries =
      if instruction.mode = .relative then operand.toList else [] := by
  unfold Instruction.encode at hencode
  cases hlow : instruction.mode.lowEntry operand with
  | error problem => simp [hlow] at hencode
  | ok low =>
      cases hhigh : instruction.mode.highEntry operand with
      | error problem => simp [hlow, hhigh] at hencode
      | ok high =>
          simp only [hlow, hhigh, Except.ok.injEq] at hencode
          subst hencode
          rw [labelNames_value, labelNames_append,
            AddressingMode.lowEntry_labelNames hlow,
            AddressingMode.highEntry_labelNames hhigh, List.append_nil]

theorem Statement.instruction_mode
    {statement : Statement} {instruction : Instruction}
    (hinstruction : statement.instruction = .ok instruction) :
    Operand.mode statement.operand = .ok instruction.mode := by
  unfold Statement.instruction at hinstruction
  split at hinstruction
  · simp at hinstruction
  next mode hmode =>
      split at hinstruction
      · simp at hinstruction
      · split at hinstruction
        · simp at hinstruction
        · simp only [Except.ok.injEq] at hinstruction
          subst hinstruction
          exact hmode

namespace CodeLine

/-- The only label in the object code of a line is the operand of a branch. -/
theorem labelNames_entries
    {line : Text} (hline : IsEncodable line) :
    labelNames (entries line) = (branchTarget? line).toList := by
  have hencode := hline.encode_eq
  unfold encode at hencode
  cases hinstruction : (Statement.ofLine line).instruction with
  | error problem => simp [hinstruction] at hencode
  | ok instruction =>
      simp only [hinstruction] at hencode
      have hmode := Statement.instruction_mode hinstruction
      rw [Instruction.encode_labelNames hencode, branchTarget?, hmode]
      by_cases hrelative : instruction.mode = .relative <;> simp [hrelative]

theorem branchTarget?_ne_nil
    {line name : Text} (htarget : branchTarget? line = some name) :
    name ≠ [] := by
  rintro rfl
  unfold branchTarget? at htarget
  split at htarget
  next hmode =>
      rw [htarget, Operand.mode_empty] at hmode
      simp at hmode
  next => simp at htarget

end CodeLine

theorem labelNames_flatMap_entries
    {source : List Text}
    (hsource : ∀ line ∈ source, CodeLine.IsEncodable line) :
    labelNames (source.flatMap CodeLine.entries) =
      source.filterMap CodeLine.branchTarget? := by
  induction source with
  | nil => rfl
  | cons line rest ih =>
      have hrest : ∀ other ∈ rest, CodeLine.IsEncodable other := by
        intro other hother
        exact hsource other (by simp [hother])
      rw [List.flatMap_cons, labelNames_append, ih hrest,
        CodeLine.labelNames_entries (hsource line (by simp))]
      cases htarget : CodeLine.branchTarget? line <;> simp [htarget]

/-! ## Segments with undefined branches -/

namespace Segment

def branchTargets (segment : Segment) : List Text :=
  segment.code.filterMap CodeLine.branchTarget?

def Defines (segment : Segment) (name : Text) : Prop :=
  ∃ line ∈ segment.code, CodeLine.label line = some name

instance (segment : Segment) (name : Text) : Decidable (segment.Defines name) :=
  inferInstanceAs (Decidable (∃ line ∈ segment.code, CodeLine.label line = some name))

def undefinedTargets (segment : Segment) : List Text :=
  segment.branchTargets.filter fun name => ¬segment.Defines name

/-- The segment has a branch, and its first one is undefined. -/
def FirstBranchUndefined (segment : Segment) : Prop :=
  ∃ name, segment.branchTargets.head? = some name ∧ ¬segment.Defines name

def HasFaultyLine (segment : Segment) : Prop :=
  ∃ line ∈ segment.code, ¬CodeLine.IsEncodable line

theorem find?_isSome_iff_defines
    (segment : Segment) {name : Text} (hname : name ≠ []) :
    ((recordLabels .empty 0 segment.code).find? name).isSome ↔
      segment.Defines name :=
  isSome_find?_recordLabels_iff segment.code hname

theorem ne_nil_of_mem_branchTargets
    {segment : Segment} {name : Text} (hname : name ∈ segment.branchTargets) :
    name ≠ [] := by
  obtain ⟨line, -, htarget⟩ := List.mem_filterMap.mp hname
  exact CodeLine.branchTarget?_ne_nil htarget

theorem missingNames_eq_undefinedTargets
    {segment : Segment}
    (hencodable : ∀ line ∈ segment.code, CodeLine.IsEncodable line) :
    missingNames (recordLabels .empty 0 segment.code)
        (segment.code.flatMap CodeLine.entries) =
      segment.undefinedTargets := by
  unfold missingNames undefinedTargets
  rw [labelNames_flatMap_entries hencodable]
  refine List.filter_congr ?_
  intro name hname
  have hfound := segment.find?_isSome_iff_defines (ne_nil_of_mem_branchTargets hname)
  by_cases hdefines : segment.Defines name
  · simp [hdefines, hfound.mpr hdefines]
  · have hmissing := mt hfound.mp hdefines
    simp [hdefines] at hmissing ⊢
    exact hmissing

/-- A segment without faulty lines whose first branch is defined assembles. Its undefined branches
are reported, one by one. -/
theorem outcome_of_first_defined
    {segment : Segment}
    (hencodable : ∀ line ∈ segment.code, CodeLine.IsEncodable line)
    (hfirst : ¬segment.FirstBranchUndefined) :
    segment.outcome =
      ⟨List.replicate segment.undefinedTargets.length .labelNotFound, .ok ()⟩ := by
  have hnames := labelNames_flatMap_entries hencodable
  have hfound : ∀ name,
      (labelNames (segment.code.flatMap CodeLine.entries)).head? = some name →
        ((recordLabels .empty 0 segment.code).find? name).isSome := by
    intro name hhead
    rw [hnames] at hhead
    rw [segment.find?_isSome_iff_defines
      (ne_nil_of_mem_branchTargets (List.mem_of_mem_head? hhead))]
    by_contra hundefined
    exact hfirst ⟨name, hhead, hundefined⟩
  obtain ⟨code, hresolve, -⟩ := resolve_of_first_found hfound
  unfold outcome
  rw [Block.assemble_ofSource hencodable]
  simp only [hresolve, missingNames_eq_undefinedTargets hencodable]

theorem outcome_of_first_undefined
    {segment : Segment}
    (hencodable : ∀ line ∈ segment.code, CodeLine.IsEncodable line)
    (hfirst : segment.FirstBranchUndefined) :
    segment.outcome = ⟨[.labelNotFound], .error .noPosition⟩ := by
  obtain ⟨name, hhead, hundefined⟩ := hfirst
  have hnames := labelNames_flatMap_entries hencodable
  have hmissing : (recordLabels .empty 0 segment.code).find? name = none := by
    rw [← Option.not_isSome_iff_eq_none, segment.find?_isSome_iff_defines
      (ne_nil_of_mem_branchTargets (List.mem_of_mem_head? hhead))]
    exact hundefined
  have hresolve := resolve_of_first_missing
    (show (labelNames (segment.code.flatMap CodeLine.entries)).head? = some name by
      rw [hnames]
      exact hhead) hmissing
  unfold outcome
  rw [Block.assemble_ofSource hencodable]
  simp only [hresolve]

theorem encodable_of_assembles
    {segment : Segment} (hassembles : segment.Assembles) :
    ∀ line ∈ segment.code, CodeLine.IsEncodable line := by
  unfold Assembles outcome Block.assemble Block.firstPass Block.ofSource at hassembles
  cases hencoded : (encodeLines .empty 0 segment.code).2 with
  | error problem => simp [hencoded] at hassembles
  | ok objectCode => exact encodable_of_encodeLines hencoded

theorem assembles_iff (segment : Segment) :
    segment.Assembles ↔
      ¬segment.HasFaultyLine ∧ ¬segment.FirstBranchUndefined := by
  unfold HasFaultyLine
  push Not
  constructor
  · intro hassembles
    have hencodable := encodable_of_assembles hassembles
    refine ⟨hencodable, fun hfirst => ?_⟩
    unfold Assembles at hassembles
    rw [outcome_of_first_undefined hencodable hfirst] at hassembles
    simp at hassembles
  · rintro ⟨hencodable, hfirst⟩
    unfold Assembles
    rw [outcome_of_first_defined hencodable hfirst]

theorem count_noticesOf
    (quiet : Bool) {segment : Segment} (hassembles : segment.Assembles) :
    (Image.noticesOf quiet segment).count .labelNotFound =
      segment.undefinedTargets.length := by
  have hencodable := encodable_of_assembles hassembles
  have hfirst := ((assembles_iff segment).mp hassembles).2
  unfold Image.noticesOf
  rw [outcome_of_first_defined hencodable hfirst, List.count_append,
    List.count_replicate_self]
  cases quiet <;> simp [Notice.unlessQuiet]

theorem count_flatMap_noticesOf
    (quiet : Bool) {segments : List Segment}
    (hassembles : ∀ segment ∈ segments, segment.Assembles) :
    (segments.flatMap (Image.noticesOf quiet)).count .labelNotFound =
      (segments.flatMap undefinedTargets).length := by
  induction segments with
  | nil => rfl
  | cons segment rest ih =>
      rw [List.flatMap_cons, List.flatMap_cons, List.count_append, List.length_append,
        count_noticesOf quiet (hassembles segment (by simp)),
        ih fun other hother => hassembles other (by simp [hother])]

end Segment

/-! ## Source files with undefined branches -/

namespace Image

/-- Assembling a source file fails exactly if the file has no segments, or a segment has a faulty
line or starts its branches with an undefined one. All other undefined branches are only reported,
each of them once. -/
theorem assemble_fails_iff
    (content : Text) (quiet : Bool) :
    ((∃ problem, (assemble content quiet).result = .error problem) ↔
      (∃ problem, Segment.ofFile content = .error problem) ∨
        ∃ segments, Segment.ofFile content = .ok segments ∧
          ∃ segment ∈ segments,
            segment.HasFaultyLine ∨ segment.FirstBranchUndefined) ∧
      ∀ segments image,
        Segment.ofFile content = .ok segments →
        (assemble content quiet).result = .ok image →
        (assemble content quiet).notices.count .labelNotFound =
          (segments.flatMap Segment.undefinedTargets).length := by
  cases hsegments : Segment.ofFile content with
  | error problem => simp [assemble, hsegments]
  | ok segments =>
      have hassemble : assemble content quiet = laySegments quiet blank segments := by
        simp [assemble, hsegments]
      rw [hassemble]
      by_cases hall : ∀ segment ∈ segments, segment.Assembles
      · rw [laySegments_of_assembles quiet blank segments hall]
        refine ⟨?_, ?_⟩
        · simp only [reduceCtorEq, exists_false, false_or, Except.ok.injEq,
            exists_eq_left', false_iff]
          rintro ⟨segment, hmem, hwrong⟩
          have hgood := (Segment.assembles_iff segment).mp (hall segment hmem)
          exact hwrong.elim hgood.1 hgood.2
        · intro others image hothers _
          rw [Except.ok.injEq] at hothers
          rw [← hothers]
          exact Segment.count_flatMap_noticesOf quiet hall
      · cases hresult : (laySegments quiet blank segments).result with
        | ok image => exact absurd (assembles_of_laySegments hresult) hall
        | error problem =>
            refine ⟨?_, by simp⟩
            push Not at hall
            obtain ⟨segment, hmem, hfails⟩ := hall
            rw [Segment.assembles_iff, not_and_or, not_not, not_not] at hfails
            simp only [Except.error.injEq, exists_eq', reduceCtorEq, exists_false,
              false_or, Except.ok.injEq, exists_eq_left', true_iff]
            exact ⟨segment, hmem, hfails⟩

/-- It is not so that every undefined branch is an error: here a defined branch stands before
it. -/
theorem undefined_branch_assembled :
    ¬∀ (content : Text) (quiet : Bool) (segments : List Segment),
      Segment.ofFile content = .ok segments →
      (∃ segment ∈ segments, segment.undefinedTargets ≠ []) →
      ∃ problem, (assemble content quiet).result = .error problem := by
  intro hclaim
  let segment : Segment :=
    ⟨0x8000, [⟨2, "here: clc".toList⟩, ⟨3, "bne here".toList⟩, ⟨4, "bne gone".toList⟩]⟩
  have hsegments :
      Segment.ofFile ".org $8000\nhere: clc\nbne here\nbne gone\n".toList =
        .ok (Segment.arranged [segment]) := rfl
  have harranged : Segment.arranged [segment] = [segment] :=
    List.mergeSort_singleton segment
  rw [harranged] at hsegments
  obtain ⟨problem, hproblem⟩ := hclaim _ true _ hsegments ⟨segment, by simp, by decide⟩
  have hassemble := (assemble_ok_iff _ true _).mpr
    ⟨[segment], hsegments, fun other hother => by
      rw [List.mem_singleton.mp hother]
      rfl, rfl⟩
  rw [hassemble] at hproblem
  simp at hproblem

end Image

end Assembler6502
