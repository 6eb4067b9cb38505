import Assembler6502.Proofs.BranchValues
import Assembler6502.Proofs.ImageLaying
import Assembler6502.Proofs.Program.Lines
import Assembler6502.Proofs.SegmentOrder

/-!
# Sections and their segments

The lines of a program are cut into one segment for each of its sections, and the code of such a
segment is the code of the section. The second fact is an induction over the commands, in which the
position of a command is the size of the commands before it. This is where the first pass records
its label, and where the second pass stands when it gets there.
-/

namespace Assembler6502

/-! ## Names of targets -/

theorem Section.isNamed
    (part : Section) :
    ∀ command ∈ part.commands, command.argument.IsNamed := by
  intro command hcommand target htarget
  obtain ⟨before, after, hsplit⟩ := List.append_of_mem hcommand
  obtain ⟨hmem, -⟩ := part.branchesReach before command after target hsplit htarget
  obtain ⟨other, -, hlabel⟩ := List.mem_map.mp hmem
  exact other.labelIsName target hlabel

/-! ## Cutting the lines of sections -/

/-- The code lines write the commands down, one for each. -/
def AreCodesOf (commands : List Command) (codes : List Text) : Prop :=
  List.Forall₂ Command.Written commands codes

structure IsSegmentOf (part : Section) (segment : Segment) : Prop where
  origin : segment.origin = part.origin
  codes : AreCodesOf part.commands segment.code

theorem CommandLines.codes
    {commands : List Command} {lines : List Text}
    (hlines : CommandLines commands lines)
    (hnamed : ∀ command ∈ commands, command.argument.IsNamed) :
    AreCodesOf commands (lines.filterMap SourceLine.code?) ∧
      ∀ line ∈ lines, SourceLine.IsOneLine line := by
  induction hlines with
  | nil => exact ⟨List.Forall₂.nil, by simp⟩
  | trailer hline hlater ih =>
      obtain ⟨hcodes, hone⟩ := ih hnamed
      rw [List.filterMap_cons_none (code?_of_isTrailer hline)]
      exact ⟨hcodes, List.forall_mem_cons.mpr ⟨isOneLine_of_isTrailer hline, hone⟩⟩
  | @command command commands code line later hcode hline hlater ih =>
      obtain ⟨hfirst, hrest⟩ := List.forall_mem_cons.mp hnamed
      obtain ⟨hcodes, hone⟩ := ih hrest
      have hisCode := hcode.isCode hfirst
      rw [List.filterMap_cons_some (code?_of_isLineOf hisCode hline)]
      exact ⟨List.Forall₂.cons hcode hcodes,
        List.forall_mem_cons.mpr ⟨isOneLine_of_isLineOf hisCode hline, hone⟩⟩

theorem SectionLines.isOneLine
    {sections : List Section} {lines : List Text}
    (hlines : SectionLines sections lines) :
    ∀ line ∈ lines, SourceLine.IsOneLine line := by
  induction hlines with
  | nil => simp
  | trailer hline hlater ih =>
      exact List.forall_mem_cons.mpr ⟨isOneLine_of_isTrailer hline, ih⟩
  | @origin part sections code line lines later hcode hline hlines hlater ih =>
      refine List.forall_mem_cons.mpr ⟨isOneLine_of_isLineOf hcode.isCode hline, ?_⟩
      exact List.forall_mem_append.mpr ⟨(hlines.codes part.isNamed).2, ih⟩

theorem AreCodesOf.isOrigin_eq_false
    {commands : List Command} {codes : List Text}
    (hcodes : AreCodesOf commands codes) :
    ∀ code ∈ codes, Segment.isOrigin code = false := by
  induction hcodes with
  | nil => simp
  | cons hcode hrest ih =>
      exact List.forall_mem_cons.mpr ⟨hcode.isOrigin_eq_false, ih⟩

/-- Lines that write sections down are cut into the segments of these sections, with no line before
the first of them. -/
theorem SectionLines.cutAtOrigins_eq
    {sections : List Section} {lines : List Text}
    (hlines : SectionLines sections lines) {source : List SourceLine}
    (hsource : source.map (·.code) = lines.filterMap SourceLine.code?) :
    ∃ segments,
      Segment.cutAtOrigins source = .ok ([], segments) ∧
      List.Forall₂ IsSegmentOf sections segments := by
  induction hlines generalizing source with
  | nil =>
      have hempty : source = [] := List.map_eq_nil_iff.mp hsource
      subst hempty
      exact ⟨[], rfl, List.Forall₂.nil⟩
  | trailer hline hlater ih =>
      rw [List.filterMap_cons_none (code?_of_isTrailer hline)] at hsource
      exact ih hsource
  | @origin part sections code line lines later hcode hline hlines hlater ih =>
      rw [List.cons_append, List.filterMap_cons_some (code?_of_isLineOf hcode.isCode hline),
        List.filterMap_append] at hsource
      obtain ⟨first, others, rfl, hfirst, hothers⟩ := List.map_eq_cons_iff.mp hsource
      obtain ⟨body, rest, rfl, hbody, hrest⟩ := List.map_eq_append_iff.mp hothers
      obtain ⟨segments, hcut, hsegments⟩ := ih hrest
      have hcodes := (hlines.codes part.isNamed).1
      rw [← hbody] at hcodes
      refine ⟨⟨part.origin, body⟩ :: segments, ?_,
        List.Forall₂.cons ⟨rfl, hcodes⟩ hsegments⟩
      rw [Segment.cutAtOrigins, hfirst, if_pos hcode.isOrigin_eq_true, hcode.readOrigin_eq,
        Segment.cutAtOrigins_append hcodes.isOrigin_eq_false, hcut]
      simp [Except.map]

/-! ## The first pass over a section -/

section FirstPass

/-- What the first pass makes of the code of a command. -/
structure IsReadAs (command : Command) (code : Text) : Prop where
  label : CodeLine.label code = command.label
  encode : CodeLine.encode code = .ok command.entries

theorem IsReadAs.entries_eq
    {command : Command} {code : Text} (hread : IsReadAs command code) :
    CodeLine.entries code = command.entries := by
  rw [CodeLine.entries, hread.encode]

variable {commands : List Command} {codes : List Text}

theorem AreCodesOf.areRead
    (hcodes : AreCodesOf commands codes)
    (hnamed : ∀ command ∈ commands, command.argument.IsNamed) :
    List.Forall₂ IsReadAs commands codes := by
  induction hcodes with
  | nil => exact List.Forall₂.nil
  | cons hcode hrest ih =>
      obtain ⟨hfirst, hlater⟩ := List.forall_mem_cons.mp hnamed
      exact List.Forall₂.cons ⟨hcode.label_eq hfirst, hcode.encode_eq hfirst⟩ (ih hlater)

theorem isEncodable_of_areRead
    (hread : List.Forall₂ IsReadAs commands codes) :
    ∀ code ∈ codes, CodeLine.IsEncodable code := by
  induction hread with
  | nil => simp
  | cons hfirst hrest ih =>
      exact List.forall_mem_cons.mpr ⟨⟨_, hfirst.encode⟩, ih⟩

theorem flatMap_entries_of_areRead
    (hread : List.Forall₂ IsReadAs commands codes) :
    codes.flatMap CodeLine.entries = commands.flatMap Command.entries := by
  induction hread with
  | nil => rfl
  | cons hfirst hrest ih =>
      rw [List.flatMap_cons, List.flatMap_cons, hfirst.entries_eq, ih]

theorem map_label_of_areRead
    (hread : List.Forall₂ IsReadAs commands codes) :
    codes.map CodeLine.label = commands.map Command.label := by
  induction hread with
  | nil => rfl
  | cons hfirst hrest ih =>
      rw [List.map_cons, List.map_cons, hfirst.label, ih]

theorem Command.positionOf_cons_of_label
    {command : Command} {name : Text} (hlabel : command.label = some name)
    (rest : List Command) :
    positionOf (command :: rest) name = 0 := by
  simp [positionOf, codeSize, hlabel]

theorem Command.positionOf_cons_of_ne
    {command : Command} {name : Text} (hlabel : command.label ≠ some name)
    (rest : List Command) :
    positionOf (command :: rest) name = command.size + positionOf rest name := by
  simp [positionOf, codeSize, hlabel]

/-- Where no label comes twice, its last position is its only one. -/
theorem lastPosition?_of_areRead
    (hread : List.Forall₂ IsReadAs commands codes)
    (hdistinct : (commands.filterMap Command.label).Nodup)
    {name : Text} (hname : some name ∈ commands.map Command.label) (position : Nat) :
    lastPosition? name position codes =
      some (position + Command.positionOf commands name) := by
  induction hread generalizing position with
  | nil => simp at hname
  | @cons command code commands codes hfirst hrest ih =>
      rw [lastPosition?, hfirst.label, hfirst.entries_eq, command.length_entries]
      by_cases hlabel : command.label = some name
      · have habsent : lastPosition? name (position + command.size) codes = none := by
          rw [List.filterMap_cons_some hlabel, List.nodup_cons] at hdistinct
          rw [← Option.not_isSome_iff_eq_none, lastPosition?_isSome_iff,
            ← List.mem_map, map_label_of_areRead hrest]
          simpa using hdistinct.1
        rw [habsent, Command.positionOf_cons_of_label hlabel]
        simp [hlabel]
      · have hmem : some name ∈ commands.map Command.label := by
          rw [List.map_cons, List.mem_cons] at hname
          exact hname.resolve_left (Ne.symm hlabel)
        have hkept : (commands.filterMap Command.label).Nodup :=
          hdistinct.sublist ((List.sublist_cons_self command commands).filterMap _)
        rw [ih hkept hmem, Command.positionOf_cons_of_ne hlabel, Nat.add_assoc]
        rfl

end FirstPass

/-! ## The second pass over a section -/

/-- The table has the position of every label of the commands. -/
def HasPositions (symbols : SymbolTable) (commands : List Command) : Prop :=
  ∀ name, some name ∈ commands.map Command.label →
    symbols.find? name = some (Command.positionOf commands name : Int)

theorem Section.hasPositions
    (part : Section) {codes : List Text}
    (hread : List.Forall₂ IsReadAs part.commands codes) :
    HasPositions (recordLabels .empty 0 codes) part.commands := by
  intro name hname
  obtain ⟨command, -, hlabel⟩ := List.mem_map.mp hname
  have hsome := (command.labelIsName name hlabel).nonempty
  rw [find?_recordLabels _ _ _ hsome,
    lastPosition?_of_areRead hread part.labelsDistinct hname, Nat.zero_add]
  rfl

theorem Argument.entries_eq_bytes
    {argument : Argument} (hplain : ∀ target, argument ≠ .relative target)
    (displacement : Text → Int) :
    argument.entries = (argument.bytes displacement).map .value := by
  cases argument with
  | relative target => exact absurd rfl (hplain target)
  | _ => rfl

theorem Section.resolveFrom_command
    (part : Section) {symbols : SymbolTable} (hpositions : HasPositions symbols part.commands)
    {before after : List Command} {command : Command}
    (hsplit : part.commands = before ++ command :: after)
    (last : Option Int) (rest : List Entry) :
    ∃ found,
      resolveFrom symbols last (Command.codeSize before) (command.entries ++ rest) =
        (resolveFrom symbols found (Command.codeSize before + command.size) rest).map
          (command.bytes (Command.displacement part.commands (Command.codeSize before)) ++ ·) := by
  by_cases hrelative : ∃ target, command.argument = .relative target
  · obtain ⟨target, htarget⟩ := hrelative
    obtain ⟨hmem, hlow, hhigh⟩ := part.branchesReach before command after target hsplit htarget
    have hfind := hpositions target hmem
    have hsize : command.size = 2 := by simp [Command.size, htarget, Argument.mode,
      AddressingMode.size]
    have hentries : command.entries = [.value command.opcode, .label target] := by
      simp [Command.entries, htarget, Argument.entries]
    have hvalue : branchValue (Command.positionOf part.commands target)
          (Command.codeSize before + 1) =
        Command.displacement part.commands (Command.codeSize before) target % 0x100 := by
      unfold Command.displacement at hlow hhigh ⊢
      rw [branchValue_eq_emod (by omega) (by omega)]
      congr 1
    refine ⟨some (Command.positionOf part.commands target : Int), ?_⟩
    rw [hentries, List.cons_append, List.cons_append, List.nil_append, resolveFrom,
      resolveFrom_label_of_find? hfind, Report.map_map, hvalue, hsize]
    simp [Command.bytes, htarget, Argument.bytes]
  · have hplain : ∀ target, command.argument ≠ .relative target := by
      simpa using hrelative
    refine ⟨last, ?_⟩
    let bytes := command.bytes (Command.displacement part.commands (Command.codeSize before))
    have hentries : command.entries = bytes.map .value := by
      rw [Command.entries, Argument.entries_eq_bytes hplain]
      rfl
    have hlength : bytes.length = command.size := by
      rw [← command.length_entries, hentries, List.length_map]
    rw [hentries, resolveFrom_values, hlength]

theorem Section.resolveFrom_commands
    (part : Section) {symbols : SymbolTable} (hpositions : HasPositions symbols part.commands)
    {before after : List Command} (hsplit : part.commands = before ++ after)
    (last : Option Int) :
    resolveFrom symbols last (Command.codeSize before) (after.flatMap Command.entries) =
      ⟨[], .ok (Command.codeFrom part.commands (Command.codeSize before) after)⟩ := by
  -- The commands before move along, because the index of the pass is their size.
  induction after generalizing before last with
  | nil => rfl
  | cons command after ih =>
      obtain ⟨found, hstep⟩ := part.resolveFrom_command hpositions hsplit last
        (after.flatMap Command.entries)
      have hsize : Command.codeSize before + command.size =
          Command.codeSize (before ++ [command]) := by
        simp [Command.codeSize]
      have hlater := ih
        (show part.commands = (before ++ [command]) ++ after by simpa using hsplit) found
      rw [List.flatMap_cons, hstep, hsize, hlater, Command.codeFrom, hsize]
      rfl

/-- The segment of a section assembles without a notice, to the code of the section. -/
theorem IsSegmentOf.assembles
    {part : Section} {segment : Segment} (hsegment : IsSegmentOf part segment) :
    segment.outcome = ⟨[], .ok ()⟩ ∧ segment.execCode = part.code := by
  have hread := hsegment.codes.areRead part.isNamed
  have hresolve : resolve (recordLabels .empty 0 segment.code)
      (segment.code.flatMap CodeLine.entries) = ⟨[], .ok part.code⟩ := by
    rw [flatMap_entries_of_areRead hread]
    exact part.resolveFrom_commands (part.hasPositions hread)
      (show part.commands = [] ++ part.commands from rfl) none
  unfold Segment.outcome Segment.execCode Segment.assembled
  rw [Block.assemble_ofSource (isEncodable_of_areRead hread)]
  simp only [hresolve, and_self]

/-! ## Sizes -/

theorem Command.length_bytes (command : Command) (displacement : Text → Int) :
    (command.bytes displacement).length = command.size := by
  obtain ⟨label, mnemonic, argument, hlabel, hopcode⟩ := command
  cases argument <;> rfl

theorem Command.length_codeFrom
    (all : List Command) (position : Nat) (commands : List Command) :
    (codeFrom all position commands).length = codeSize commands := by
  induction commands generalizing position with
  | nil => rfl
  | cons command rest ih =>
      rw [codeFrom, List.length_append, command.length_bytes, ih]
      simp [codeSize]

theorem Section.length_code (part : Section) :
    part.code.length = Command.codeSize part.commands :=
  Command.length_codeFrom part.commands 0 part.commands

theorem IsSegmentOf.fits
    {part : Section} {segment : Segment} (hsegment : IsSegmentOf part segment) :
    segment.Fits := by
  have hend := part.fits
  unfold Segment.Fits
  rw [hsegment.origin, hsegment.assembles.2, part.length_code, Image.addressCount]
  omega

end Assembler6502
