import Assembler6502.Block
import Mathlib.Tactic

/-!
# The two passes over a block

The first pass looks at each line alone: what a line encodes to depends on nothing but its text,
and the lines before it only move its position. The symbol table is the record of these positions.
The second pass replaces labels and leaves values as they are. Its one failure is a label that is
not in the table while no label before it was.
-/

namespace Assembler6502

namespace Report

theorem map_eq_self
    {ε α : Type} {f : α → α} (hf : ∀ result, f result = result)
    (report : Report ε α) :
    report.map f = report := by
  obtain ⟨notices, result⟩ := report
  cases result with
  | error problem => rfl
  | ok value => simp [map, Except.map, hf]

theorem map_map
    {ε α β γ : Type} (f : α → β) (g : β → γ) (report : Report ε α) :
    (report.map f).map g = report.map fun result => g (f result) := by
  obtain ⟨notices, result⟩ := report
  cases result <;> rfl

end Report

/-! ## Lines of code -/

namespace CodeLine

def label (line : Text) : Option Text :=
  (Statement.ofLine line).label

def encode (line : Text) : Except Problem (List Entry) :=
  match (Statement.ofLine line).instruction with
  | .error problem => .error problem
  | .ok instruction => instruction.encode (Statement.ofLine line).operand

/-- The line has an instruction, and the bytes of its operand can be read. -/
def IsEncodable (line : Text) : Prop :=
  ∃ entries, encode line = .ok entries

/-- The object code of a line, and nothing if the line is not encodable. -/
def entries (line : Text) : List Entry :=
  match encode line with
  | .error _ => []
  | .ok entries => entries

def branchTarget? (line : Text) : Option Text :=
  if Operand.mode (Statement.ofLine line).operand = .ok .relative then
    (Statement.ofLine line).operand
  else none

theorem IsEncodable.encode_eq {line : Text} (hline : IsEncodable line) :
    encode line = .ok (entries line) := by
  obtain ⟨found, hfound⟩ := hline
  simp [entries, hfound]

end CodeLine

/-! ## The first pass -/

def recordLabels (symbols : SymbolTable) (position : Nat) : List Text → SymbolTable
  | [] => symbols
  | line :: rest =>
      recordLabels (symbols.record (CodeLine.label line) position)
        (position + (CodeLine.entries line).length) rest

theorem encodeLines_cons_of_encodable
    (symbols : SymbolTable) (position : Nat) {line : Text} (rest : List Text)
    (hline : CodeLine.IsEncodable line) :
    encodeLines symbols position (line :: rest) =
      ((encodeLines (symbols.record (CodeLine.label line) position)
          (position + (CodeLine.entries line).length) rest).1,
        (encodeLines (symbols.record (CodeLine.label line) position)
          (position + (CodeLine.entries line).length) rest).2.map
            (CodeLine.entries line ++ ·)) := by
  have hencode := hline.encode_eq
  unfold CodeLine.encode at hencode
  cases hinstruction : (Statement.ofLine line).instruction with
  | error problem =>
      rw [hinstruction] at hencode
      simp at hencode
  | ok instruction =>
      rw [hinstruction] at hencode
      simp only at hencode
      simp only [encodeLines, hinstruction, hencode]
      rfl

theorem encodeLines_cons_of_not_encodable
    (symbols : SymbolTable) (position : Nat) {line : Text} (rest : List Text)
    (hline : ¬CodeLine.IsEncodable line) :
    ∃ problem,
      (encodeLines symbols position (line :: rest)).2 = .error problem := by
  cases hinstruction : (Statement.ofLine line).instruction with
  | error problem =>
      exact ⟨problem, by simp [encodeLines, hinstruction]⟩
  | ok instruction =>
      cases hencode : instruction.encode (Statement.ofLine line).operand with
      | error problem =>
          exact ⟨problem, by simp [encodeLines, hinstruction, hencode]⟩
      | ok found =>
          refine absurd ⟨found, ?_⟩ hline
          simp [CodeLine.encode, hinstruction, hencode]

theorem encodeLines_of_encodable
    (symbols : SymbolTable) (position : Nat) (lines : List Text)
    (hlines : ∀ line ∈ lines, CodeLine.IsEncodable line) :
    encodeLines symbols position lines =
      (recordLabels symbols position lines, .ok (lines.flatMap CodeLine.entries)) := by
  induction lines generalizing symbols position with
  | nil => rfl
  | cons line rest ih =>
      have hrest : ∀ other ∈ rest, CodeLine.IsEncodable other := by
        intro other hother
        exact hlines other (by simp [hother])
      rw [encodeLines_cons_of_encodable symbols position rest (hlines line (by simp)),
        ih _ _ hrest]
      rfl

theorem encodable_of_encodeLines
    {symbols : SymbolTable} {position : Nat} {lines : List Text}
    {objectCode : List Entry}
    (hresult : (encodeLines symbols position lines).2 = .ok objectCode) :
    ∀ line ∈ lines, CodeLine.IsEncodable line := by
  induction lines generalizing symbols position objectCode with
  | nil => simp
  | cons line rest ih =>
      by_cases hline : CodeLine.IsEncodable line
      · rw [encodeLines_cons_of_encodable symbols position rest hline] at hresult
        intro other hother
        rcases List.mem_cons.mp hother with rfl | hmem
        · exact hline
        · cases hlater : (encodeLines (symbols.record (CodeLine.label line) position)
              (position + (CodeLine.entries line).length) rest).2 with
          | error problem =>
              rw [hlater] at hresult
              simp [Except.map] at hresult
          | ok later => exact ih hlater other hmem
      · obtain ⟨problem, hproblem⟩ :=
          encodeLines_cons_of_not_encodable symbols position rest hline
        rw [hproblem] at hresult
        simp at hresult

/-! ## The symbol table -/

namespace SymbolTable

theorem lookup_insertEntry
    (label name : Text) (position : Int) (entries : List (Text × Int)) :
    (insertEntry label position entries).lookup name =
      if name = label then some position else entries.lookup name := by
  induction entries with
  | nil =>
      by_cases hname : name = label
      · simp [insertEntry, hname]
      · have hbeq : (name == label) = false := by simpa using hname
        simp [insertEntry, hname, hbeq, List.lookup_cons]
  | cons entry rest ih =>
      obtain ⟨key, value⟩ := entry
      unfold insertEntry
      by_cases hname : name = key
      · subst hname
        by_cases hkey : name = label <;> simp [hkey]
      · have hbeq : (name == key) = false := by simpa using hname
        by_cases hkey : key = label
        · subst hkey
          simp [hname, hbeq, List.lookup_cons]
        · simp [hkey, hbeq, List.lookup_cons, ih]

@[simp] theorem find?_empty (name : Text) : empty.find? name = none := rfl

theorem find?_insert
    (table : SymbolTable) (label name : Text) (position : Int) :
    (table.insert label position).find? name =
      if name = label then some position else table.find? name :=
  lookup_insertEntry label name position table.entries

/-- Recording a label changes what the table says about that label only. The empty label is never
recorded. -/
theorem find?_record
    (table : SymbolTable) (label : Option Text) (name : Text) (position : Int)
    (hname : name ≠ []) :
    (table.record label position).find? name =
      if label = some name then some position else table.find? name := by
  cases label with
  | none => simp [record]
  | some label =>
      cases label with
      | nil =>
          have hne : ¬(some [] = some name) := by
            simpa using fun h : [] = name => hname h.symm
          rw [if_neg hne]
          rfl
      | cons c rest =>
          have hrecord : table.record (some (c :: rest)) position =
              table.insert (c :: rest) position := rfl
          rw [hrecord, find?_insert]
          simp [eq_comm]

end SymbolTable

/-- The position of the last line with a label, where the first of the lines is at `position`. -/
def lastPosition? (name : Text) (position : Nat) : List Text → Option Nat
  | [] => none
  | line :: rest =>
      (lastPosition? name (position + (CodeLine.entries line).length) rest).or
        (if CodeLine.label line = some name then some position else none)

theorem find?_recordLabels
    (symbols : SymbolTable) (position : Nat) (lines : List Text) {name : Text}
    (hname : name ≠ []) :
    (recordLabels symbols position lines).find? name =
      ((lastPosition? name position lines).map Int.ofNat).or (symbols.find? name) := by
  induction lines generalizing symbols position with
  | nil => rfl
  | cons line rest ih =>
      simp only [recordLabels, lastPosition?]
      rw [ih, symbols.find?_record (CodeLine.label line) name position hname]
      cases lastPosition? name (position + (CodeLine.entries line).length) rest with
      | some later => rfl
      | none =>
          by_cases hlabel : CodeLine.label line = some name
          · simp [hlabel]
          · simp [hlabel]

theorem lastPosition?_isSome_iff
    (name : Text) (position : Nat) (lines : List Text) :
    (lastPosition? name position lines).isSome ↔
      ∃ line ∈ lines, CodeLine.label line = some name := by
  induction lines generalizing position with
  | nil => simp [lastPosition?]
  | cons line rest ih =>
      simp only [lastPosition?, Option.isSome_or, Bool.or_eq_true, ih,
        List.exists_mem_cons_iff]
      rw [or_comm]
      refine or_congr_left ?_
      split <;> simp_all

theorem isSome_find?_recordLabels_iff
    (source : List Text) {name : Text} (hname : name ≠ []) :
    ((recordLabels .empty 0 source).find? name).isSome ↔
      ∃ line ∈ source, CodeLine.label line = some name := by
  rw [find?_recordLabels .empty 0 source hname, SymbolTable.find?_empty, Option.or_none,
    Option.isSome_map]
  exact lastPosition?_isSome_iff name 0 source

/-! ## The second pass -/

def labelNames (objectCode : List Entry) : List Text :=
  objectCode.filterMap fun entry =>
    match entry with
    | .value _ => none
    | .label name => some name

@[simp] theorem labelNames_nil : labelNames [] = [] := rfl

@[simp] theorem labelNames_value (value : Int) (rest : List Entry) :
    labelNames (.value value :: rest) = labelNames rest := rfl

@[simp] theorem labelNames_label (name : Text) (rest : List Entry) :
    labelNames (.label name :: rest) = name :: labelNames rest := rfl

theorem resolveFrom_values
    (symbols : SymbolTable) (last : Option Int) (index : Nat)
    (values : List Int) (rest : List Entry) :
    resolveFrom symbols last index (values.map .value ++ rest) =
      (resolveFrom symbols last (index + values.length) rest).map (values ++ ·) := by
  induction values generalizing index with
  | nil => exact (Report.map_eq_self (fun code => rfl) _).symm
  | cons value values ih =>
      have hindex : index + 1 + values.length = index + (values.length + 1) := by omega
      simp only [List.map_cons, List.cons_append, resolveFrom, List.length_cons]
      rw [ih, hindex, Report.map_map]

theorem resolveFrom_label_of_find?
    {symbols : SymbolTable} {name : Text} {position : Int}
    (hfind : symbols.find? name = some position)
    (last : Option Int) (index : Nat) (rest : List Entry) :
    resolveFrom symbols last index (.label name :: rest) =
      (resolveFrom symbols (some position) (index + 1) rest).map
        (branchValue position index :: ·) := by
  simp only [resolveFrom, hfind]
  rfl

/-- The labels that are reported: those that are not in the table. -/
def missingNames (symbols : SymbolTable) (objectCode : List Entry) : List Text :=
  (labelNames objectCode).filter fun name => !(symbols.find? name).isSome

/-- Once a label was found, nothing fails any more. Every label that is not in the table is
reported, and the code has the length of the object code. -/
theorem resolveFrom_some
    (symbols : SymbolTable) (last : Int) (index : Nat) (objectCode : List Entry) :
    ∃ code,
      resolveFrom symbols (some last) index objectCode =
        ⟨List.replicate (missingNames symbols objectCode).length .labelNotFound, .ok code⟩ ∧
      code.length = objectCode.length := by
  induction objectCode generalizing last index with
  | nil => exact ⟨[], rfl, rfl⟩
  | cons entry rest ih =>
      cases entry with
      | value value =>
          obtain ⟨code, hcode, hlength⟩ := ih last (index + 1)
          refine ⟨value :: code, ?_, by simp [hlength]⟩
          simp only [resolveFrom, hcode]
          rfl
      | label name =>
          cases hfind : symbols.find? name with
          | some position =>
              obtain ⟨code, hcode, hlength⟩ := ih position (index + 1)
              refine ⟨branchValue position index :: code, ?_, by simp [hlength]⟩
              rw [resolveFrom_label_of_find? hfind, hcode]
              simp [missingNames, hfind, Report.map, Except.map]
          | none =>
              obtain ⟨code, hcode, hlength⟩ := ih last (index + 1)
              refine ⟨branchValue last index :: code, ?_, by simp [hlength]⟩
              simp only [resolveFrom, hfind, Option.none_or, hcode]
              simp [missingNames, hfind, Report.map, Report.preceded, Except.map,
                List.replicate_succ]

/-- The second pass fails exactly if the first label is not in the table. -/
theorem resolve_of_first_found
    {symbols : SymbolTable} {objectCode : List Entry}
    (hfirst : ∀ name, (labelNames objectCode).head? = some name →
      (symbols.find? name).isSome) :
    ∃ code,
      resolve symbols objectCode =
        ⟨List.replicate (missingNames symbols objectCode).length .labelNotFound, .ok code⟩ ∧
      code.length = objectCode.length := by
  suffices hfrom : ∀ index, ∃ code,
      resolveFrom symbols none index objectCode =
        ⟨List.replicate (missingNames symbols objectCode).length .labelNotFound, .ok code⟩ ∧
      code.length = objectCode.length from hfrom 0
  induction objectCode with
  | nil => exact fun index => ⟨[], rfl, rfl⟩
  | cons entry rest ih =>
      intro index
      cases entry with
      | value value =>
          obtain ⟨code, hcode, hlength⟩ := ih hfirst (index + 1)
          refine ⟨value :: code, ?_, by simp [hlength]⟩
          simp only [resolveFrom, hcode]
          rfl
      | label name =>
          obtain ⟨position, hfind⟩ := Option.isSome_iff_exists.mp (hfirst name rfl)
          obtain ⟨code, hcode, hlength⟩ :=
            resolveFrom_some symbols position (index + 1) rest
          refine ⟨branchValue position index :: code, ?_, by simp [hlength]⟩
          rw [resolveFrom_label_of_find? hfind, hcode]
          simp [missingNames, hfind, Report.map, Except.map]

theorem resolve_of_first_missing
    {symbols : SymbolTable} {objectCode : List Entry} {name : Text}
    (hfirst : (labelNames objectCode).head? = some name)
    (hmissing : symbols.find? name = none) :
    resolve symbols objectCode = ⟨[.labelNotFound], .error .noPosition⟩ := by
  suffices hfrom : ∀ index, resolveFrom symbols none index objectCode =
      ⟨[.labelNotFound], .error .noPosition⟩ from hfrom 0
  induction objectCode with
  | nil => simp at hfirst
  | cons entry rest ih =>
      intro index
      cases entry with
      | value value =>
          simp only [resolveFrom, ih hfirst (index + 1)]
          rfl
      | label other =>
          have hname : other = name := by simpa using hfirst
          subst hname
          simp [resolveFrom, hmissing]

/-! ## Assembling a fresh block -/

theorem Block.assemble_ofSource
    {source : List Text}
    (hsource : ∀ line ∈ source, CodeLine.IsEncodable line) :
    (Block.ofSource source).assemble =
      let symbols := recordLabels .empty 0 source
      let objectCode := source.flatMap CodeLine.entries
      let resolved := resolve symbols objectCode
      match resolved.result with
      | .error problem =>
          (⟨source, symbols, objectCode, []⟩, ⟨resolved.notices, .error problem⟩)
      | .ok execCode =>
          (⟨source, symbols, objectCode, execCode⟩, ⟨resolved.notices, .ok ()⟩) := by
  simp only [Block.assemble, Block.firstPass, Block.ofSource, Block.secondPass]
  rewrite [encodeLines_of_encodable .empty 0 source hsource]
  rfl

end Assembler6502
