import Assembler6502.Proofs.LineEncoding

/-!
# The layout of assembled code

The second pass replaces the labels in the object code and moves nothing. So the places that the
first pass gave to lines are the places of their bytes in the executable code: every line starts
where the lines before it end, with its opcode, and the symbol table says where that is for the last
line of each label.
-/

namespace Assembler6502

/-! ## The cells of the second pass -/

/-- The position of the last of some names that is in the table. -/
def nearestPosition? (symbols : SymbolTable) (names : List Text) : Option Int :=
  (names.filterMap symbols.find?).getLast?

theorem nearestPosition?_cons
    (symbols : SymbolTable) (name : Text) (names : List Text) :
    nearestPosition? symbols (name :: names) =
      (nearestPosition? symbols names).or (symbols.find? name) := by
  unfold nearestPosition?
  cases hfind : symbols.find? name with
  | none => simp [hfind]
  | some position =>
      rw [List.filterMap_cons_some hfind, List.getLast?_cons]
      cases (names.filterMap symbols.find?).getLast? <;> rfl

theorem resolveFrom_value_eq_ok
    {symbols : SymbolTable} {last : Option Int} {index : Nat} {value : Int}
    {rest : List Entry} {code : List Int}
    (hcode : (resolveFrom symbols last index (.value value :: rest)).result = .ok code) :
    ∃ later,
      (resolveFrom symbols last (index + 1) rest).result = .ok later ∧
      code = value :: later := by
  simp only [resolveFrom, Report.map] at hcode
  cases hlater : (resolveFrom symbols last (index + 1) rest).result with
  | error problem => simp [hlater, Except.map] at hcode
  | ok later =>
      simp only [hlater, Except.map, Except.ok.injEq] at hcode
      exact ⟨later, rfl, hcode.symm⟩

theorem resolveFrom_label_eq_ok
    {symbols : SymbolTable} {last : Option Int} {index : Nat} {name : Text}
    {rest : List Entry} {code : List Int}
    (hcode : (resolveFrom symbols last index (.label name :: rest)).result = .ok code) :
    ∃ position later,
      (symbols.find? name).or last = some position ∧
      (resolveFrom symbols (some position) (index + 1) rest).result = .ok later ∧
      code = branchValue position index :: later := by
  simp only [resolveFrom] at hcode
  cases hposition : (symbols.find? name).or last with
  | none => simp [hposition] at hcode
  | some position =>
      simp only [hposition, Report.preceded, Report.map] at hcode
      cases hlater : (resolveFrom symbols (some position) (index + 1) rest).result with
      | error problem => simp [hlater, Except.map] at hcode
      | ok later =>
          simp only [hlater, Except.map, Except.ok.injEq] at hcode
          exact ⟨position, later, rfl, hlater, hcode.symm⟩

/-- The code has a cell for each entry of the object code. A value is kept, and a label becomes the
branch to the nearest position that was found. -/
structure IsResolved
    (symbols : SymbolTable) (last : Option Int) (index : Nat)
    (objectCode : List Entry) (code : List Int) : Prop where
  length : code.length = objectCode.length
  value : ∀ (place : Nat) (value : Int),
    objectCode[place]? = some (Entry.value value) → code[place]? = some value
  label : ∀ (place : Nat) (name : Text),
    objectCode[place]? = some (Entry.label name) →
    ∃ position,
      (nearestPosition? symbols (labelNames (objectCode.take (place + 1)))).or last =
        some position ∧
      code[place]? = some (branchValue position (index + place))

theorem isResolved_of_resolveFrom
    {symbols : SymbolTable} {last : Option Int} {index : Nat}
    {objectCode : List Entry} {code : List Int}
    (hcode : (resolveFrom symbols last index objectCode).result = .ok code) :
    IsResolved symbols last index objectCode code := by
  induction objectCode generalizing last index code with
  | nil =>
      obtain rfl := Except.ok.inj hcode
      exact ⟨rfl, by simp, by simp⟩
  | cons entry rest ih =>
      cases entry with
      | value first =>
          obtain ⟨later, hlater, rfl⟩ := resolveFrom_value_eq_ok hcode
          have hrest := ih hlater
          refine ⟨by simp [hrest.length], ?_, ?_⟩
          · intro place value hplace
            cases place with
            | zero => simpa using hplace
            | succ place => exact hrest.value place value hplace
          · intro place name hplace
            cases place with
            | zero => simp at hplace
            | succ place =>
                have hindex : index + 1 + place = index + (place + 1) := by omega
                rw [← hindex]
                exact hrest.label place name hplace
      | label first =>
          obtain ⟨found, later, hfound, hlater, rfl⟩ := resolveFrom_label_eq_ok hcode
          have hrest := ih hlater
          refine ⟨by simp [hrest.length], ?_, ?_⟩
          · intro place value hplace
            cases place with
            | zero => simp at hplace
            | succ place => exact hrest.value place value hplace
          · intro place name hplace
            cases place with
            | zero =>
                refine ⟨found, ?_, rfl⟩
                simpa [nearestPosition?_cons, nearestPosition?] using hfound
            | succ place =>
                -- The names of the rest come behind the first one, and take precedence over it.
                obtain ⟨position, hposition, hcell⟩ := hrest.label place name hplace
                have hindex : index + 1 + place = index + (place + 1) := by omega
                refine ⟨position, ?_, ?_⟩
                · rw [List.take_succ_cons, labelNames_label, nearestPosition?_cons,
                    Option.or_assoc, hfound]
                  exact hposition
                · rw [← hindex]
                  exact hcell

/-! ## Blocks that assemble -/

/-- A block in any state that assembles has encodable lines only, and is left with the labels of
its source recorded, its object code, and what the second pass made of it. -/
theorem Block.assemble_eq_ok
    {block : Block} (hassemble : block.assemble.2.result = .ok ()) :
    (∀ line ∈ block.source, CodeLine.IsEncodable line) ∧
      ∃ code,
        (resolve (recordLabels block.symbols 0 block.source)
          (block.source.flatMap CodeLine.entries)).result = .ok code ∧
        block.assemble.1 =
          ⟨block.source, recordLabels block.symbols 0 block.source,
            block.source.flatMap CodeLine.entries, code⟩ := by
  have hencodable : ∀ line ∈ block.source, CodeLine.IsEncodable line := by
    unfold Block.assemble Block.firstPass at hassemble
    cases hencoded : (encodeLines block.symbols 0 block.source).2 with
    | error problem => simp [hencoded] at hassemble
    | ok objectCode => exact encodable_of_encodeLines hencoded
  refine ⟨hencodable, ?_⟩
  unfold Block.assemble Block.firstPass Block.secondPass at hassemble ⊢
  rw [encodeLines_of_encodable block.symbols 0 block.source hencodable] at hassemble ⊢
  simp only at hassemble ⊢
  cases hresolved : (resolve (recordLabels block.symbols 0 block.source)
      (block.source.flatMap CodeLine.entries)).result with
  | error problem => simp [hresolved] at hassemble
  | ok code => exact ⟨code, rfl, by simp⟩

theorem Block.isResolved_of_assemble
    {block : Block} (hassemble : block.assemble.2.result = .ok ()) :
    IsResolved block.assemble.1.symbols none 0
      (block.source.flatMap CodeLine.entries) block.assemble.1.execCode := by
  obtain ⟨-, code, hcode, hblock⟩ := Block.assemble_eq_ok hassemble
  rw [hblock]
  exact isResolved_of_resolveFrom hcode

/-! ## The places of lines -/

theorem SymbolTable.find?_record_nil
    (table : SymbolTable) (label : Option Text) (position : Int) :
    (table.record label position).find? [] = table.find? [] := by
  match label with
  | none => rfl
  | some [] => rfl
  | some (c :: rest) =>
      have hrecord : table.record (some (c :: rest)) position =
          table.insert (c :: rest) position := rfl
      rw [hrecord, find?_insert, if_neg (List.cons_ne_nil c rest).symm]

/-- The line is the last one of the source that has the name as its label. -/
structure IsLastDefinition
    (source : List Text) (name : Text)
    (before : List Text) (line : Text) (after : List Text) : Prop where
  source_eq : source = before ++ line :: after
  label_eq : CodeLine.label line = some name
  last : ∀ other ∈ after, CodeLine.label other ≠ some name

theorem lastPosition?_eq_none
    {name : Text} {lines : List Text}
    (hlines : ∀ line ∈ lines, CodeLine.label line ≠ some name) (position : Nat) :
    lastPosition? name position lines = none := by
  rw [← Option.not_isSome_iff_eq_none, lastPosition?_isSome_iff]
  rintro ⟨line, hline, hlabel⟩
  exact hlines line hline hlabel

theorem find?_recordLabels_nil
    (symbols : SymbolTable) (position : Nat) (lines : List Text) :
    (recordLabels symbols position lines).find? [] = symbols.find? [] := by
  induction lines generalizing symbols position with
  | nil => rfl
  | cons line rest ih => rw [recordLabels, ih, symbols.find?_record_nil]

theorem lastPosition?_of_isLastDefinition
    {source before after : List Text} {name line : Text}
    (hlast : IsLastDefinition source name before line after)
    (hsource : ∀ line ∈ source, CodeLine.IsEncodable line) (position : Nat) :
    lastPosition? name position source = some (position + CodeLine.codeSize before) := by
  obtain ⟨rfl, hlabel, hafter⟩ := hlast
  induction before generalizing position with
  | nil => simp [lastPosition?, hlabel, lastPosition?_eq_none hafter]
  | cons first before ih =>
      obtain ⟨hfirst, hrest⟩ := List.forall_mem_cons.mp hsource
      rw [List.cons_append, lastPosition?, ih _ hrest, hfirst.length_entries,
        CodeLine.codeSize_cons, Nat.add_assoc]
      rfl

theorem find?_recordLabels_of_isLastDefinition
    {source before after : List Text} {name line : Text}
    (hname : name ≠ [])
    (hlast : IsLastDefinition source name before line after)
    (hsource : ∀ line ∈ source, CodeLine.IsEncodable line) (symbols : SymbolTable) :
    (recordLabels symbols 0 source).find? name = some (CodeLine.codeSize before : Int) := by
  rw [find?_recordLabels symbols 0 source hname,
    lastPosition?_of_isLastDefinition hlast hsource, Nat.zero_add]
  rfl

theorem CodeLine.flatMap_entries_getElem?
    {before after : List Text} {line : Text}
    (hlines : ∀ other ∈ before ++ line :: after, IsEncodable other)
    {offset : Nat} (hoffset : offset < size line) :
    ((before ++ line :: after).flatMap entries)[codeSize before + offset]? =
      (entries line)[offset]? := by
  obtain ⟨hbefore, hrest⟩ := List.forall_mem_append.mp hlines
  obtain ⟨hline, -⟩ := List.forall_mem_cons.mp hrest
  have hinside : offset < (entries line).length := by
    rw [hline.length_entries]
    exact hoffset
  rw [List.flatMap_append, List.flatMap_cons, ← length_flatMap_entries hbefore,
    List.getElem?_append_right (Nat.le_add_right _ _), Nat.add_sub_cancel_left,
    List.getElem?_append_left hinside]

theorem CodeLine.exists_line_at
    {source : List Text} {index : Nat} (hindex : index < codeSize source) :
    ∃ before line after offset,
      source = before ++ line :: after ∧
      offset < size line ∧ index = codeSize before + offset := by
  induction source generalizing index with
  | nil => simp at hindex
  | cons line rest ih =>
      by_cases hline : index < size line
      · exact ⟨[], line, rest, index, rfl, hline, by simp⟩
      · rw [codeSize_cons] at hindex
        obtain ⟨before, later, after, offset, rfl, hoffset, hplace⟩ :=
          ih (show index - size line < codeSize rest by omega)
        refine ⟨line :: before, later, after, offset, rfl, hoffset, ?_⟩
        rw [codeSize_cons]
        omega

/-- Every line of a block that assembles starts where the lines before it end. -/
theorem Block.entries_at_line
    {block : Block} (hassemble : block.assemble.2.result = .ok ())
    {before after : List Text} {line : Text}
    (hsource : block.source = before ++ line :: after) :
    ∃ instruction code,
      CodeLine.IsEncodedAs line instruction code ∧
      ∀ offset < CodeLine.size line,
        (block.source.flatMap CodeLine.entries)[CodeLine.codeSize before + offset]? =
          (Entry.value instruction.opcode :: code)[offset]? := by
  have hencodable := (Block.assemble_eq_ok hassemble).1
  rw [hsource] at hencodable ⊢
  obtain ⟨instruction, code, hencoded, hentries⟩ :=
    (hencodable line (by simp)).exists_isEncodedAs
  refine ⟨instruction, code, hencoded, ?_⟩
  intro offset hoffset
  rw [CodeLine.flatMap_entries_getElem? hencodable hoffset, hentries]

theorem Block.execCode_opcode
    {block : Block} (hassemble : block.assemble.2.result = .ok ())
    {before after : List Text} {line : Text}
    (hsource : block.source = before ++ line :: after) :
    ∃ instruction,
      (Statement.ofLine line).instruction = .ok instruction ∧
      block.assemble.1.execCode[CodeLine.codeSize before]? = some (instruction.opcode : Int) := by
  obtain ⟨instruction, code, hencoded, hplaces⟩ := Block.entries_at_line hassemble hsource
  refine ⟨instruction, hencoded.instruction_eq, ?_⟩
  apply (Block.isResolved_of_assemble hassemble).value
  exact hplaces 0 hencoded.size_pos

/-! ## The layout of a fresh block -/

namespace Block

theorem find?_isSome_iff
    {source : List Text} (hassemble : (ofSource source).assemble.2.result = .ok ())
    (name : Text) :
    ((ofSource source).assemble.1.symbols.find? name).isSome ↔
      name ≠ [] ∧ ∃ line ∈ source, CodeLine.label line = some name := by
  obtain ⟨-, code, -, hblock⟩ := assemble_eq_ok hassemble
  rw [hblock]
  by_cases hname : name = []
  · subst hname
    simp [ofSource, find?_recordLabels_nil]
  · rw [find?_recordLabels _ 0 _ hname]
    simpa [ofSource, hname] using lastPosition?_isSome_iff name 0 source

/-- The symbol table of an assembled block has exactly the labels of its lines, each with the size
of all lines before its last definition. At that place of the code stands the opcode of the line,
and the code is as long as all its lines. -/
theorem assemble_layout
    {source : List Text} (hassemble : (ofSource source).assemble.2.result = .ok ()) :
    (∀ name,
      ((ofSource source).assemble.1.symbols.find? name).isSome ↔
        name ≠ [] ∧ ∃ line ∈ source, CodeLine.label line = some name) ∧
    (∀ name before line after,
      name ≠ [] → IsLastDefinition source name before line after →
        (ofSource source).assemble.1.symbols.find? name =
          some (CodeLine.codeSize before : Int) ∧
        ∃ instruction,
          (Statement.ofLine line).instruction = .ok instruction ∧
          (ofSource source).assemble.1.execCode[CodeLine.codeSize before]? =
            some (instruction.opcode : Int)) ∧
    (ofSource source).assemble.1.execCode.length = CodeLine.codeSize source := by
  have hencodable : ∀ line ∈ source, CodeLine.IsEncodable line := (assemble_eq_ok hassemble).1
  refine ⟨find?_isSome_iff hassemble, ?_, ?_⟩
  · intro name before line after hname hlast
    refine ⟨?_, execCode_opcode hassemble hlast.source_eq⟩
    obtain ⟨-, code, -, hblock⟩ := assemble_eq_ok hassemble
    rw [hblock]
    exact find?_recordLabels_of_isLastDefinition hname hlast hencodable _
  · rw [(isResolved_of_assemble hassemble).length]
    exact CodeLine.length_flatMap_entries hencodable

/-- The label `loop` is defined twice, and its second line starts behind five bytes. -/
theorem assemble_layout_redefined :
    let source := ["loop: lda $1234,x".toList, "bne loop".toList, "loop: rol a".toList]
    (ofSource source).assemble.2.result = .ok () ∧
      (ofSource source).assemble.1.symbols.find? "loop".toList = some 5 ∧
      (ofSource source).assemble.1.execCode[5]? = some 0x2a ∧
      (ofSource source).assemble.1.execCode.length = 6 := by
  intro source
  have hassemble : (ofSource source).assemble.2.result = .ok () := rfl
  obtain ⟨-, hlast, hlength⟩ := assemble_layout hassemble
  obtain ⟨hfind, instruction, hinstruction, hopcode⟩ :=
    hlast "loop".toList ["loop: lda $1234,x".toList, "bne loop".toList] "loop: rol a".toList []
      (by decide) ⟨rfl, rfl, by simp⟩
  obtain rfl : instruction = ⟨.rol, .accumulator, 0x2a⟩ := (Except.ok.inj hinstruction).symm
  exact ⟨hassemble, hfind, hopcode, hlength⟩

end Block

end Assembler6502
