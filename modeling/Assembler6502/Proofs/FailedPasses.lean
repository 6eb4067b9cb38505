import Assembler6502.Proofs.LineEncoding

/-!
# What a failed pass leaves behind

The first pass stops at the first line that cannot be encoded. It has then recorded the labels of
the lines before, and that of the line itself if the line has an instruction and only a numeral of
its operand cannot be read. The second pass stops at the first label if that is not defined, and at
nothing else. Only a block that is assembled to the end gets new executable code.
-/

namespace Assembler6502

/-! ## Operands that cannot be read -/

namespace Problem

def isNumeral : Problem → Bool
  | numeral _ => true
  | _ => false

def IsBadNumeral (problem : Problem) : Prop :=
  ∃ text, problem = .numeral text ∧ Hexadecimal.read? text = none

end Problem

namespace Operand

theorem isBadNumeral_of_map
    {text : Text} {problem : Problem} {entry : Int → Option Entry}
    (hread : (readNumeral text).map entry = .error problem) :
    problem.IsBadNumeral := by
  unfold readNumeral at hread
  split at hread
  · simp [Except.map] at hread
  next hnone => exact ⟨text, (Except.error.inj hread).symm, hnone⟩

theorem mode_eq_error
    {operand : Option Text} {problem : Problem} (hmode : mode operand = .error problem) :
    problem = .operandForm := by
  unfold mode at hmode
  revert hmode
  fun_cases modeOfNormal (normalize (operand.getD [])) <;> simp [eq_comm]

/-- No operand has one of the two modes whose entries are not read. -/
theorem mode_isReadable
    {operand : Option Text} {found : AddressingMode} (hmode : mode operand = .ok found) :
    found ≠ .zeroPageY ∧ found ≠ .indirect :=
  (isClassified_of_modeOfNormal hmode).written

end Operand

namespace AddressingMode

variable {mode : AddressingMode} {text : Text} {problem : Problem}

theorem lowEntry_eq_error
    (hmode : mode ≠ .zeroPageY ∧ mode ≠ .indirect)
    (hlow : mode.lowEntry (some text) = .error problem) :
    problem.IsBadNumeral := by
  cases mode with
  | accumulator | implied | relative => simp [lowEntry] at hlow
  | immediate | zeroPage | zeroPageX | absolute | absoluteX | absoluteY | indirectX | indirectY =>
      exact Operand.isBadNumeral_of_map hlow
  | zeroPageY => exact absurd rfl hmode.1
  | indirect => exact absurd rfl hmode.2

theorem highEntry_eq_error
    (hmode : mode ≠ .zeroPageY ∧ mode ≠ .indirect)
    (hhigh : mode.highEntry (some text) = .error problem) :
    problem.IsBadNumeral := by
  cases mode with
  | absolute | absoluteX | absoluteY => exact Operand.isBadNumeral_of_map hhigh
  | zeroPageY => exact absurd rfl hmode.1
  | indirect => exact absurd rfl hmode.2
  | _ => simp [highEntry] at hhigh

end AddressingMode

/-- Once a statement has its instruction, nothing but a numeral can be wrong with it. -/
theorem Statement.HasInstruction.encode_eq_error
    {statement : Statement} {instruction : Instruction} {problem : Problem}
    (hinstruction : statement.HasInstruction instruction)
    (hencode : instruction.encode statement.operand = .error problem) :
    problem.IsBadNumeral := by
  have hmode := hinstruction.mode
  have hreadable := Operand.mode_isReadable hmode
  unfold Instruction.encode at hencode
  cases hoperand : statement.operand with
  | none =>
      -- The modes that read an operand are not reached without one.
      rw [hoperand] at hmode hencode
      have himplied : instruction.mode = .implied := (Except.ok.inj hmode).symm
      simp [himplied, AddressingMode.lowEntry, AddressingMode.highEntry] at hencode
  | some text =>
      rw [hoperand] at hencode
      split at hencode
      next lowProblem hlow =>
          obtain rfl := Except.error.inj hencode
          exact AddressingMode.lowEntry_eq_error hreadable hlow
      next low hlow =>
          split at hencode
          next highProblem hhigh =>
              obtain rfl := Except.error.inj hencode
              exact AddressingMode.highEntry_eq_error hreadable hhigh
          next => simp at hencode

/-! ## Lines that cannot be encoded -/

namespace CodeLine

/-- What can be wrong with a line: its operand has no form, its mnemonic is unknown or not known in
the mode of the operand, or it has an instruction and a text of its operand is no numeral. -/
inductive HasProblem (line : Text) : Problem → Prop
  | operandForm
      (hmode : Operand.mode (Statement.ofLine line).operand = .error .operandForm) :
      HasProblem line .operandForm
  | unknownMnemonic {mode : AddressingMode}
      (hmode : Operand.mode (Statement.ofLine line).operand = .ok mode)
      (hname : Mnemonic.ofName? (Statement.ofLine line).mnemonic = none) :
      HasProblem line (.unknownMnemonic (Statement.ofLine line).mnemonic)
  | unknownMode {mode : AddressingMode} {mnemonic : Mnemonic}
      (hmode : Operand.mode (Statement.ofLine line).operand = .ok mode)
      (hname : Mnemonic.ofName? (Statement.ofLine line).mnemonic = some mnemonic)
      (hopcode : mnemonic.opcode? mode = none) :
      HasProblem line (.unknownMode mode.name)
  | numeral {instruction : Instruction} {text : Text}
      (hinstruction : (Statement.ofLine line).HasInstruction instruction)
      (hencode : instruction.encode (Statement.ofLine line).operand = .error (.numeral text))
      (hread : Hexadecimal.read? text = none) :
      HasProblem line (.numeral text)

variable {line : Text} {problem : Problem}

theorem hasProblem_of_instruction
    (hinstruction : (Statement.ofLine line).instruction = .error problem) :
    HasProblem line problem ∧ problem.isNumeral = false := by
  unfold Statement.instruction at hinstruction
  split at hinstruction
  next found hmode =>
      obtain rfl := Except.error.inj hinstruction
      obtain rfl := Operand.mode_eq_error hmode
      exact ⟨.operandForm hmode, rfl⟩
  next mode hmode =>
      split at hinstruction
      next hname =>
          obtain rfl := Except.error.inj hinstruction
          exact ⟨.unknownMnemonic hmode hname, rfl⟩
      next mnemonic hname =>
          split at hinstruction
          next hopcode =>
              obtain rfl := Except.error.inj hinstruction
              exact ⟨.unknownMode hmode hname hopcode, rfl⟩
          next => simp at hinstruction

theorem hasProblem_of_encode
    (hencode : encode line = .error problem) : HasProblem line problem := by
  unfold encode at hencode
  split at hencode
  next found hinstruction =>
      obtain rfl := Except.error.inj hencode
      exact (hasProblem_of_instruction hinstruction).1
  next instruction hinstruction =>
      have hline := Statement.hasInstruction_of_eq_ok hinstruction
      obtain ⟨text, rfl, hread⟩ := hline.encode_eq_error hencode
      exact .numeral hline hencode hread

theorem HasProblem.encode_eq
    (hproblem : HasProblem line problem) : encode line = .error problem := by
  cases hproblem with
  | operandForm hmode => simp [encode, Statement.instruction, hmode]
  | unknownMnemonic hmode hname => simp [encode, Statement.instruction, hmode, hname]
  | unknownMode hmode hname hopcode => simp [encode, Statement.instruction, hmode, hname, hopcode]
  | numeral hinstruction hencode hread =>
      obtain ⟨hname, hmode, hopcode⟩ := hinstruction
      simp [encode, Statement.instruction, hmode, hname, hopcode, hencode]

theorem HasProblem.not_isEncodable
    (hproblem : HasProblem line problem) : ¬IsEncodable line := by
  rintro ⟨entries, hencode⟩
  simp [hproblem.encode_eq] at hencode

end CodeLine

open CodeLine

/-! ## The first pass -/

theorem encodeLines_cons_of_error
    {line : Text} {problem : Problem} (hline : encode line = .error problem)
    (symbols : SymbolTable) (position : Nat) (rest : List Text) :
    encodeLines symbols position (line :: rest) =
      (if problem.isNumeral then symbols.record (label line) position else symbols,
        .error problem) := by
  unfold encode at hline
  split at hline
  next found hinstruction =>
      -- The pass fails before it looks at the label.
      obtain rfl := Except.error.inj hline
      simp [encodeLines, hinstruction, (hasProblem_of_instruction hinstruction).2]
  next instruction hinstruction =>
      obtain ⟨text, rfl, -⟩ :=
        (Statement.hasInstruction_of_eq_ok hinstruction).encode_eq_error hline
      simp only [encodeLines, hinstruction, hline]
      rfl

theorem encodeLines_append_of_error
    {before : List Text} {line : Text} {problem : Problem}
    (hbefore : ∀ other ∈ before, IsEncodable other) (hline : encode line = .error problem)
    (symbols : SymbolTable) (position : Nat) (after : List Text) :
    encodeLines symbols position (before ++ line :: after) =
      (recordLabels symbols position (if problem.isNumeral then before ++ [line] else before),
        .error problem) := by
  induction before generalizing symbols position with
  | nil =>
      rw [List.nil_append, encodeLines_cons_of_error hline]
      cases problem.isNumeral <;> rfl
  | cons other rest ih =>
      obtain ⟨hother, hrest⟩ := List.forall_mem_cons.mp hbefore
      rw [List.cons_append, encodeLines_cons_of_encodable _ _ _ hother, ih hrest]
      cases problem.isNumeral <;> rfl

theorem exists_first_not_encodable (source : List Text) :
    (∀ line ∈ source, IsEncodable line) ∨
      ∃ before line after problem,
        source = before ++ line :: after ∧
        (∀ other ∈ before, IsEncodable other) ∧
        encode line = .error problem := by
  induction source with
  | nil => exact .inl (by simp)
  | cons line rest ih =>
      cases hline : encode line with
      | error problem => exact .inr ⟨[], line, rest, problem, rfl, by simp, hline⟩
      | ok found =>
          have hencodable : IsEncodable line := ⟨found, hline⟩
          rcases ih with hrest | ⟨before, other, after, problem, rfl, hbefore, hother⟩
          · exact .inl (List.forall_mem_cons.mpr ⟨hencodable, hrest⟩)
          · exact .inr ⟨line :: before, other, after, problem, rfl,
              List.forall_mem_cons.mpr ⟨hencodable, hbefore⟩, hother⟩

/-! ## The second pass -/

theorem resolve_eq_error
    {symbols : SymbolTable} {objectCode : List Entry} {problem : Problem}
    (hresolve : (resolve symbols objectCode).result = .error problem) :
    resolve symbols objectCode = ⟨[.labelNotFound], .error .noPosition⟩ := by
  by_cases hfirst : ∀ name, (labelNames objectCode).head? = some name →
      (symbols.find? name).isSome
  · obtain ⟨code, hcode, -⟩ := resolve_of_first_found hfirst
    rw [hcode] at hresolve
    simp at hresolve
  · push Not at hfirst
    obtain ⟨name, hname, hmissing⟩ := hfirst
    exact resolve_of_first_missing hname (Option.not_isSome_iff_eq_none.mp hmissing)

/-! ## Blocks -/

namespace Block

theorem assemble_of_firstPass_error
    {block : Block} {problem : Problem} {symbols : SymbolTable}
    (hencoded : encodeLines block.symbols 0 block.source = (symbols, .error problem)) :
    block.assemble = ({ block with symbols }, ⟨[], .error problem⟩) := by
  simp only [assemble, firstPass, hencoded]

theorem assemble_of_secondPass_error
    {block : Block} {problem : Problem} (hencodable : ∀ line ∈ block.source, IsEncodable line)
    (hfail : block.assemble.2.result = .error problem) :
    block.assemble =
      ({ block with
          symbols := recordLabels block.symbols 0 block.source
          objectCode := block.source.flatMap entries },
        ⟨[.labelNotFound], .error .noPosition⟩) := by
  have hencoded := encodeLines_of_encodable block.symbols 0 block.source hencodable
  simp only [assemble, firstPass, secondPass, hencoded] at hfail ⊢
  cases hresolved : (resolve (recordLabels block.symbols 0 block.source)
      (block.source.flatMap entries)).result with
  | error found =>
      have hresolve := resolve_eq_error hresolved
      rw [hresolve] at hresolved
      obtain rfl := Except.error.inj hresolved
      rw [hresolve]
  | ok code => simp [hresolved] at hfail

/-- Assembling fails at a line, or at a branch after all lines are encoded. The executable code
stays in both cases. In the first case the object code stays too, and the labels of the lines before
are recorded, with that of the line itself exactly if the problem is a numeral. -/
theorem assemble_failed
    {block : Block} {problem : Problem} (hfail : block.assemble.2.result = .error problem) :
    block.assemble.1.execCode = block.execCode ∧
      ((∃ before line after,
          block.source = before ++ line :: after ∧
          (∀ other ∈ before, IsEncodable other) ∧
          HasProblem line problem ∧
          block.firstPass.2 = .error problem ∧
          block.assemble.1 =
            { block with
              symbols := recordLabels block.symbols 0
                (if problem.isNumeral then before ++ [line] else before) }) ∨
        (problem = .noPosition ∧
          block.firstPass.2 = .ok (block.source.flatMap entries) ∧
          block.assemble.1 =
            { block with
              symbols := recordLabels block.symbols 0 block.source
              objectCode := block.source.flatMap entries })) := by
  rcases exists_first_not_encodable block.source with
    hencodable | ⟨before, line, after, found, hsource, hbefore, hline⟩
  · have hassemble := assemble_of_secondPass_error hencodable hfail
    have hencoded := encodeLines_of_encodable block.symbols 0 block.source hencodable
    rw [hassemble] at hfail ⊢
    exact ⟨rfl, .inr ⟨(Except.error.inj hfail).symm, congrArg Prod.snd hencoded, rfl⟩⟩
  · have hencoded := encodeLines_append_of_error hbefore hline block.symbols 0 after
    rw [← hsource] at hencoded
    have hassemble := assemble_of_firstPass_error hencoded
    rw [hassemble] at hfail ⊢
    obtain rfl := Except.error.inj hfail
    exact ⟨rfl, .inl ⟨before, line, after, hsource, hbefore, hasProblem_of_encode hline,
      congrArg Prod.snd hencoded, rfl⟩⟩

/-- Of two lines with labels, the one whose numeral cannot be read leaves its label behind and the
one whose mnemonic is unknown does not. A branch to nowhere leaves the new object code behind. -/
theorem assemble_failed_midway :
    let unread : Block :=
      ⟨["one: nop".toList, "two: lda #$0g".toList], ⟨[("old".toList, 7)]⟩, [.value 9], [9]⟩
    let unknown : Block :=
      ⟨["one: nop".toList, "two: ldq #$00".toList], ⟨[("old".toList, 7)]⟩, [.value 9], [9]⟩
    let nowhere : Block :=
      ⟨["one: nop".toList, "two: bne gone".toList], ⟨[("old".toList, 7)]⟩, [.value 9], [9]⟩
    (unread.assemble.1.execCode = [9] ∧
        unread.assemble.1.objectCode = [.value 9] ∧
        unread.assemble.1.symbols = ⟨[("old".toList, 7), ("one".toList, 0), ("two".toList, 1)]⟩) ∧
      (unknown.assemble.1.execCode = [9] ∧
        unknown.assemble.1.objectCode = [.value 9] ∧
        unknown.assemble.1.symbols = ⟨[("old".toList, 7), ("one".toList, 0)]⟩) ∧
      (nowhere.assemble.1.execCode = [9] ∧
        nowhere.assemble.1.objectCode = [.value 0xea, .value 0xd0, .label "gone".toList] ∧
        nowhere.assemble.1.symbols =
          ⟨[("old".toList, 7), ("one".toList, 0), ("two".toList, 1)]⟩) := by
  intro unread unknown nowhere
  have hunread : unread.assemble.2.result = .error (.numeral "0g".toList) := rfl
  have hunknown : unknown.assemble.2.result = .error (.unknownMnemonic "ldq".toList) := rfl
  have hnowhere : nowhere.assemble.2.result = .error .noPosition := rfl
  -- The first line can be encoded, so only the second one can be the line with the problem.
  have hsecond : ∀ {second line : Text} {before after : List Text} {problem : Problem},
      ["one: nop".toList, second] = before ++ line :: after → HasProblem line problem →
        before = ["one: nop".toList] ∧ line = second := by
    intro second line before after problem hsource hproblem
    have hfirst : line ∉ ["one: nop".toList] := by
      intro hline
      rw [List.mem_singleton.mp hline] at hproblem
      exact hproblem.not_isEncodable ⟨_, rfl⟩
    obtain ⟨hbefore, hline, -⟩ :=
      (List.append_cons_inj_of_notMem hfirst List.not_mem_nil).mp hsource
    exact ⟨hbefore.symm, hline.symm⟩
  refine ⟨?_, ?_, ?_⟩
  · obtain ⟨hexec, ⟨before, line, after, hsource, -, hproblem, -, hafter⟩ | ⟨hother, -⟩⟩ :=
      assemble_failed hunread
    · obtain ⟨rfl, rfl⟩ := hsecond hsource hproblem
      exact ⟨hexec, congrArg objectCode hafter, congrArg symbols hafter⟩
    · cases hother
  · obtain ⟨hexec, ⟨before, line, after, hsource, -, hproblem, -, hafter⟩ | ⟨hother, -⟩⟩ :=
      assemble_failed hunknown
    · obtain ⟨rfl, rfl⟩ := hsecond hsource hproblem
      exact ⟨hexec, congrArg objectCode hafter, congrArg symbols hafter⟩
    · cases hother
  · obtain ⟨hexec, ⟨before, line, after, -, -, hproblem, -⟩ | ⟨-, -, hafter⟩⟩ :=
      assemble_failed hnowhere
    · cases hproblem
    · exact ⟨hexec, congrArg objectCode hafter, congrArg symbols hafter⟩

end Block

end Assembler6502
