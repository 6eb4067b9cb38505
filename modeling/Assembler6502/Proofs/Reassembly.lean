import Assembler6502.Proofs.FailedPasses
import Assembler6502.Proofs.Linking

/-!
# Assembling a block again

The symbol table of a block is never cleared, so a block is hardly ever assembled in the state of a
fresh one. The first pass does not look at the table, though: it records the labels of the same lines
at the same positions and ends with the same object code or problem. Recording these labels once more
changes nothing, so that assembling again changes nothing either. And a source that branches to its
own labels only never meets the labels that earlier sources have left behind.
-/

namespace Assembler6502

open CodeLine

/-! ## Recording labels that are recorded already -/

namespace SymbolTable

theorem insertEntry_insertEntry
    (label : Text) (position later : Int) (entries : List (Text × Int)) :
    insertEntry label later (insertEntry label position entries) =
      insertEntry label later entries := by
  induction entries with
  | nil => simp [insertEntry]
  | cons entry rest ih =>
      by_cases hkey : entry.1 = label
      · simp [insertEntry, hkey]
      · simp [insertEntry, hkey, ih]

-- Two new labels would come in the order in which they are inserted.
theorem insertEntry_comm
    {label other : Text} {entries : List (Text × Int)}
    (hne : label ≠ other) (hknown : (entries.lookup other).isSome)
    (position otherPosition : Int) :
    insertEntry other otherPosition (insertEntry label position entries) =
      insertEntry label position (insertEntry other otherPosition entries) := by
  induction entries with
  | nil => simp at hknown
  | cons entry rest ih =>
      by_cases hother : entry.1 = other
      · simp [insertEntry, hother, Ne.symm hne]
      · by_cases hlabel : entry.1 = label
        · simp [insertEntry, hlabel, hne]
        · have hrest : (rest.lookup other).isSome := by
            have hkey : (other == entry.1) = false := by simpa using Ne.symm hother
            rw [List.lookup_cons, hkey] at hknown
            exact hknown
          simp [insertEntry, hother, hlabel, ih hrest]

/-- The table has a position for the label of a line, if the line has one that is recorded. -/
def Knows (table : SymbolTable) (label : Option Text) : Prop :=
  ∀ name, name ≠ [] → label = some name → (table.find? name).isSome

theorem Knows.record
    {table : SymbolTable} {label : Option Text} (hknown : table.Knows label)
    (other : Option Text) (position : Int) :
    (table.record other position).Knows label := by
  intro name hname hlabel
  rw [table.find?_record other name position hname]
  split
  · rfl
  · exact hknown name hname hlabel

theorem record_record
    (table : SymbolTable) (label : Option Text) (position later : Int) :
    (table.record label position).record label later = table.record label later := by
  match label with
  | none => rfl
  | some [] => rfl
  | some (c :: rest) =>
      exact congrArg mk (insertEntry_insertEntry (c :: rest) position later table.entries)

theorem record_comm
    {table : SymbolTable} {label other : Option Text}
    (hne : label ≠ other) (hknown : table.Knows other) (position otherPosition : Int) :
    (table.record label position).record other otherPosition =
      (table.record other otherPosition).record label position := by
  match label, other with
  | none, _ => rfl
  | some [], _ => rfl
  | some (_ :: _), none => rfl
  | some (_ :: _), some [] => rfl
  | some (c :: rest), some (d :: others) =>
      have hnames : c :: rest ≠ d :: others := fun hequal => hne (congrArg some hequal)
      exact congrArg mk
        (insertEntry_comm hnames (hknown (d :: others) (by simp) rfl) position otherPosition)

end SymbolTable

theorem knows_label_recordLabels
    (symbols : SymbolTable) (position : Nat) {lines : List Text} {line : Text}
    (hline : line ∈ lines) :
    (recordLabels symbols position lines).Knows (label line) := by
  intro name hname hlabel
  have hposition := (lastPosition?_isSome_iff name position lines).mpr ⟨line, hline, hlabel⟩
  rw [find?_recordLabels symbols position lines hname, Option.isSome_or, Option.isSome_map,
    hposition, Bool.true_or]

/-- A label that is recorded after lines whose labels are all known may be recorded before them as
well. -/
theorem recordLabels_record
    {symbols : SymbolTable} {lines : List Text}
    (hknown : ∀ line ∈ lines, symbols.Knows (label line))
    (last : Option Text) (lastPosition : Int) (position : Nat) :
    (recordLabels (symbols.record last lastPosition) position lines).record last lastPosition =
      (recordLabels symbols position lines).record last lastPosition := by
  induction lines generalizing symbols position with
  | nil => exact symbols.record_record last lastPosition lastPosition
  | cons line rest ih =>
      obtain ⟨hline, hrest⟩ := List.forall_mem_cons.mp hknown
      rw [recordLabels, recordLabels]
      by_cases hsame : last = label line
      · rw [← hsame, symbols.record_record last]
      · rw [SymbolTable.record_comm hsame hline]
        exact ih (fun other hother => (hrest other hother).record _ _) _

theorem recordLabels_recordLabels
    (symbols : SymbolTable) (position : Nat) (lines : List Text) :
    recordLabels (recordLabels symbols position lines) position lines =
      recordLabels symbols position lines := by
  -- The last line decides over its label, so the lines before it come first in the induction.
  induction lines using List.reverseRecOn with
  | nil => rfl
  | append_singleton lines line ih =>
      have hknown : ∀ other ∈ lines,
          (recordLabels symbols position lines).Knows (label other) :=
        fun other hother => knows_label_recordLabels symbols position hother
      rw [recordLabels_append, recordLabels_append]
      simp only [recordLabels]
      rw [recordLabels_record hknown, ih]

/-! ## Two passes from any state -/

/-- The first pass does the same to every symbol table. It fails after the labels of some lines, or
encodes and records all of them. -/
theorem encodeLines_cases (source : List Text) :
    (∃ lines problem, ∀ symbols position,
      encodeLines symbols position source =
        (recordLabels symbols position lines, .error problem)) ∨
    ((∀ line ∈ source, IsEncodable line) ∧ ∀ symbols position,
      encodeLines symbols position source =
        (recordLabels symbols position source, .ok (source.flatMap entries))) := by
  rcases exists_first_not_encodable source with
    hencodable | ⟨before, line, after, problem, rfl, hbefore, hline⟩
  · exact .inr ⟨hencodable, fun symbols position =>
      encodeLines_of_encodable symbols position source hencodable⟩
  · exact .inl ⟨if problem.isNumeral then before ++ [line] else before, problem,
      fun symbols position => encodeLines_append_of_error hbefore hline symbols position after⟩

theorem resolveFrom_congr
    {symbols other : SymbolTable} {objectCode : List Entry}
    (hsame : ∀ name ∈ labelNames objectCode, symbols.find? name = other.find? name)
    (last : Option Int) (index : Nat) :
    resolveFrom symbols last index objectCode = resolveFrom other last index objectCode := by
  induction objectCode generalizing last index with
  | nil => rfl
  | cons entry rest ih =>
      cases entry with
      | value value => rw [resolveFrom, resolveFrom, ih hsame]
      | label name =>
          obtain ⟨hname, hrest⟩ := List.forall_mem_cons.mp hsame
          simp only [resolveFrom, hname, ih hrest]

namespace Block

theorem assemble_of_firstPass_ok
    {block : Block} {symbols : SymbolTable} {objectCode : List Entry}
    (hencoded : encodeLines block.symbols 0 block.source = (symbols, .ok objectCode)) :
    block.assemble =
      match (resolve symbols objectCode).result with
      | .error problem =>
          ({ block with symbols, objectCode },
            ⟨(resolve symbols objectCode).notices, .error problem⟩)
      | .ok execCode =>
          (⟨block.source, symbols, objectCode, execCode⟩,
            ⟨(resolve symbols objectCode).notices, .ok ()⟩) := by
  unfold assemble firstPass secondPass
  rewrite [hencoded]
  rfl

/-- A block that was assembled, with success or without, is left as it is when it is assembled
again, and the outcome and the notices are the same. -/
theorem assemble_assemble (block : Block) :
    block.assemble.1.assemble = block.assemble := by
  rcases encodeLines_cases block.source with ⟨lines, problem, hencode⟩ | ⟨-, hencode⟩
  · have hagain := hencode (recordLabels block.symbols 0 lines) 0
    rw [recordLabels_recordLabels] at hagain
    rw [assemble_of_firstPass_error (hencode block.symbols 0)]
    exact assemble_of_firstPass_error hagain
  · have hagain := hencode (recordLabels block.symbols 0 block.source) 0
    rw [recordLabels_recordLabels] at hagain
    rw [assemble_of_firstPass_ok (hencode block.symbols 0)]
    cases hresolved : (resolve (recordLabels block.symbols 0 block.source)
        (block.source.flatMap entries)).result with
    | error | ok =>
        dsimp only
        rw [assemble_of_firstPass_ok hagain]
        simp only [hresolved]

end Block

/-! ## Labels of earlier sources -/

/-- Every branch goes to a label of the same source. Unlike for a self-contained source, a word
behind a mnemonic that does not branch may be anything. -/
def BranchesToOwnLabels (source : List Text) : Prop :=
  ∀ line ∈ source, ∀ instruction name,
    (Statement.ofLine line).instruction = .ok instruction →
    instruction.mode = .relative →
    (Statement.ofLine line).operand = some name →
    name ∈ definedLabels source

theorem IsSelfContained.branchesToOwnLabels
    {source : List Text} (hsource : IsSelfContained source) : BranchesToOwnLabels source := by
  intro line hline instruction name hinstruction hrelative hoperand
  have hmode := Statement.instruction_mode hinstruction
  apply hsource name
  rw [List.mem_filterMap]
  exact ⟨line, hline, by rw [branchTarget?, hmode, hrelative, if_pos rfl, hoperand]⟩

theorem BranchesToOwnLabels.isSelfContained
    {source : List Text} (hsource : BranchesToOwnLabels source)
    (hencodable : ∀ line ∈ source, IsEncodable line) : IsSelfContained source := by
  intro name hname
  obtain ⟨line, hline, htarget⟩ := List.mem_filterMap.mp hname
  obtain ⟨instruction, code, hencoded, -⟩ := (hencodable line hline).exists_isEncodedAs
  have hmode := hencoded.hasInstruction.mode
  rw [branchTarget?] at htarget
  split at htarget
  next hrelative =>
      rw [hmode, Except.ok.injEq] at hrelative
      exact hsource line hline instruction name hencoded.instruction_eq hrelative htarget
  next => simp at htarget

theorem find?_recordLabels_or
    (symbols : SymbolTable) (position : Nat) (lines : List Text) (name : Text) :
    (recordLabels symbols position lines).find? name =
      ((recordLabels .empty position lines).find? name).or (symbols.find? name) := by
  by_cases hname : name = []
  · subst hname
    rw [find?_recordLabels_nil, find?_recordLabels_nil, SymbolTable.find?_empty, Option.none_or]
  · rw [find?_recordLabels _ _ _ hname, find?_recordLabels _ _ _ hname, SymbolTable.find?_empty,
      Option.or_none]

theorem IsSelfContained.resolve_recordLabels
    {source : List Text} (hsource : IsSelfContained source)
    (hencodable : ∀ line ∈ source, IsEncodable line) (symbols : SymbolTable) :
    resolve (recordLabels symbols 0 source) (source.flatMap entries) =
      resolve (recordLabels .empty 0 source) (source.flatMap entries) := by
  apply resolveFrom_congr
  intro name hname
  have hown := isSome_find?_of_mem_definedLabels (hsource.mem_definedLabels hencodable name hname)
  rw [find?_recordLabels_or, Option.or_of_isSome hown]

namespace Block

/-- A block in any state, with the labels and the code of whatever was assembled or has failed in it
before, is assembled like a fresh one if its source branches to its own labels only. The labels that
a fresh block would have recorded take precedence over the old ones, which stay otherwise. -/
theorem assemble_eq_fresh
    {block : Block} (hbranches : BranchesToOwnLabels block.source) :
    block.assemble.2 = (ofSource block.source).assemble.2 ∧
      (block.assemble.2.result = .ok () →
        block.assemble.1.objectCode = (ofSource block.source).assemble.1.objectCode ∧
        block.assemble.1.execCode = (ofSource block.source).assemble.1.execCode) ∧
      ∀ name,
        block.assemble.1.symbols.find? name =
          ((ofSource block.source).assemble.1.symbols.find? name).or
            (block.symbols.find? name) := by
  rcases encodeLines_cases block.source with ⟨lines, problem, hencode⟩ | ⟨hencodable, hencode⟩
  · rw [assemble_of_firstPass_error (hencode block.symbols 0),
      @assemble_of_firstPass_error (ofSource block.source) _ _ (hencode .empty 0)]
    exact ⟨rfl, by simp, find?_recordLabels_or block.symbols 0 lines⟩
  · have hresolve := (hbranches.isSelfContained hencodable).resolve_recordLabels hencodable
      block.symbols
    rw [assemble_of_firstPass_ok (hencode block.symbols 0),
      @assemble_of_firstPass_ok (ofSource block.source) _ _ (hencode .empty 0), hresolve]
    cases (resolve (recordLabels .empty 0 block.source) (block.source.flatMap entries)).result with
    | error problem => exact ⟨rfl, by simp, find?_recordLabels_or block.symbols 0 block.source⟩
    | ok execCode =>
        exact ⟨rfl, fun _ => ⟨rfl, rfl⟩, find?_recordLabels_or block.symbols 0 block.source⟩

/-- The first source fails at a branch and the second one at a numeral, and both leave a position of
`loop` behind that is wrong for the third. -/
theorem assemble_eq_fresh_after_failures :
    let failed := (ofSource ["loop: lda $1234".toList, "old: bne gone".toList]).assemble
    let unread := (failed.1.setSource ["loop: lda #$0g".toList]).firstPass
    let source := ["nop".toList, "loop: dex".toList, "bne loop".toList]
    let block := unread.1.setSource source
    failed.2.result = .error .noPosition ∧
      unread.2 = .error (.numeral "0g".toList) ∧
      block.symbols = ⟨[("loop".toList, 0), ("old".toList, 3)]⟩ ∧
      BranchesToOwnLabels source ∧
      block.assemble.2 = (ofSource source).assemble.2 ∧
      block.assemble.1.execCode = [0xea, 0xca, 0xd0, 0xfd] ∧
      block.assemble.1.symbols.find? "loop".toList = some 1 ∧
      block.assemble.1.symbols.find? "old".toList = some 3 := by
  intro failed unread source block
  have hbranches : BranchesToOwnLabels block.source :=
    IsSelfContained.branchesToOwnLabels (by decide)
  obtain ⟨hreport, hcode, hsymbols⟩ := assemble_eq_fresh hbranches
  exact ⟨rfl, rfl, rfl, hbranches, hreport, (hcode rfl).2, hsymbols _, hsymbols _⟩

end Block

end Assembler6502
