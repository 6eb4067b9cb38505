import Assembler6502.Proofs.BranchValues
import Assembler6502.Proofs.ByteCells
import Assembler6502.Proofs.CodeLayout

/-!
# The second pass

The second pass over any object code, with any symbols. Whether it fails is decided by which labels
are in the table, and never by where they are. Where it does not fail, a branch to a label of the
table stores the distance to it modulo 256, however far that is. A branch to a label that is not in
the table goes where the nearest label before it goes that is.
-/

namespace Assembler6502

theorem labelNames_take_succ
    {objectCode : List Entry} {index : Nat} {name : Text}
    (hentry : objectCode[index]? = some (.label name)) :
    labelNames (objectCode.take (index + 1)) = labelNames (objectCode.take index) ++ [name] := by
  rw [List.take_add_one, hentry, labelNames_append]
  rfl

theorem nearestPosition?_append_of_find?
    {symbols : SymbolTable} {name : Text} {position : Int}
    (hfound : symbols.find? name = some position) (names : List Text) :
    nearestPosition? symbols (names ++ [name]) = some position := by
  simp [nearestPosition?, hfound]

/-- A label of the table becomes the branch to its own position. -/
theorem IsResolved.label_of_find?
    {symbols : SymbolTable} {objectCode : List Entry} {code : List Int}
    (hresolved : IsResolved symbols none 0 objectCode code)
    {index : Nat} {name : Text} {position : Int}
    (hentry : objectCode[index]? = some (.label name))
    (hfound : symbols.find? name = some position) :
    code[index]? = some (branchValue position index) := by
  obtain ⟨nearest, hnearest, hcell⟩ := hresolved.label index name hentry
  rw [labelNames_take_succ hentry, nearestPosition?_append_of_find? hfound, Option.some_or,
    Option.some.injEq] at hnearest
  rw [hcell, hnearest, Nat.zero_add]

def FirstLabelFound (symbols : SymbolTable) (objectCode : List Entry) : Prop :=
  ∀ name, (labelNames objectCode).head? = some name → (symbols.find? name).isSome

theorem resolve_isOk_iff (symbols : SymbolTable) (objectCode : List Entry) :
    (∃ code, (resolve symbols objectCode).result = .ok code) ↔
      FirstLabelFound symbols objectCode := by
  constructor
  · rintro ⟨code, hcode⟩ name hfirst
    by_contra hmissing
    rw [resolve_of_first_missing hfirst (Option.not_isSome_iff_eq_none.mp hmissing)] at hcode
    simp at hcode
  · intro hfirst
    obtain ⟨code, hresolve, -⟩ := resolve_of_first_found hfirst
    exact ⟨code, by rw [hresolve]⟩

theorem isSome_find?_insert
    {symbols : SymbolTable} {name : Text} (hname : (symbols.find? name).isSome)
    (position : Int) (other : Text) :
    ((symbols.insert name position).find? other).isSome = (symbols.find? other).isSome := by
  rw [SymbolTable.find?_insert]
  split
  next hother => rw [hother, hname]; rfl
  next => rfl

namespace Block

/-- A branch to a label of the table. Its displacement is the distance from the byte behind it.
What the second pass stores is the displacement modulo 256, a byte for displacements of less than
256 either way, and the displacement itself as a signed byte from -128 to 127. Whether the second
pass succeeds is not a matter of the displacement: it does if the first label of the object code is
in the table, and so it does with the label at any other position, too. -/
theorem secondPass_branch
    {block : Block} {index : Nat} {name : Text} {position : Int}
    (hentry : block.objectCode[index]? = some (.label name))
    (hfound : block.symbols.find? name = some position) :
    let displacement := position - (index + 1)
    (∀ code, block.secondPass.result = .ok code →
      ∃ value,
        code[index]? = some value ∧
        value % 0x100 = displacement % 0x100 ∧
        (IsByte value ↔ -0xff ≤ displacement ∧ displacement ≤ 0xff) ∧
        (signedByte value = displacement ↔ -0x80 ≤ displacement ∧ displacement ≤ 0x7f)) ∧
      ((∃ code, block.secondPass.result = .ok code) ↔
        FirstLabelFound block.symbols block.objectCode) ∧
      ∀ other : Int,
        (∃ code, { block with symbols := block.symbols.insert name other }.secondPass.result =
          .ok code) ↔
        ∃ code, block.secondPass.result = .ok code := by
  intro displacement
  refine ⟨?_, resolve_isOk_iff block.symbols block.objectCode, ?_⟩
  · intro code hcode
    have hresolved := isResolved_of_resolveFrom hcode
    exact ⟨branchValue position index, hresolved.label_of_find? hentry hfound,
      branchValue_emod position index, branchValue_byte_iff position index,
      signedByte_branchValue_iff position index⟩
  · intro other
    have hname : (block.symbols.find? name).isSome := by simp [hfound]
    simp only [secondPass, resolve_isOk_iff, FirstLabelFound, isSome_find?_insert hname]

/-- A displacement of exactly 256 backwards is stored as 512. -/
theorem secondPass_branch_page_back :
    let block : Block :=
      ⟨[], ⟨[("far".toList, -254)]⟩, [.value 0xd0, .label "far".toList], []⟩
    block.secondPass.result = .ok [0xd0, 512] ∧
      (512 : Int) % 0x100 = -256 % 0x100 ∧ ¬IsByte 512 ∧ signedByte 512 ≠ -256 := by
  intro block
  have hresult : block.secondPass.result = .ok [0xd0, 512] := rfl
  obtain ⟨value, hvalue, hmodulo, hbyte, hsigned⟩ :=
    (@secondPass_branch block 1 "far".toList (-254) rfl rfl).1 _ hresult
  obtain rfl : 512 = value := by simpa using hvalue
  exact ⟨hresult, hmodulo, by rw [hbyte]; decide,
    fun hsame => absurd (hsigned.mp hsame) (by decide)⟩

end Block

/-! ## The whole pass -/

/-- The object code has labels, and the first of them is not in the table. -/
def FirstLabelMissing (symbols : SymbolTable) (objectCode : List Entry) : Prop :=
  ∃ name, (labelNames objectCode).head? = some name ∧ symbols.find? name = none

theorem firstLabelFound_iff (symbols : SymbolTable) (objectCode : List Entry) :
    FirstLabelFound symbols objectCode ↔ ¬FirstLabelMissing symbols objectCode := by
  unfold FirstLabelFound FirstLabelMissing
  push Not
  simp only [Option.isSome_iff_ne_none]

theorem nearestPosition?_eq_none
    {symbols : SymbolTable} {entries : List Entry}
    (hnone : nearestPosition? symbols (labelNames entries) = none) :
    ∀ name, Entry.label name ∈ entries → symbols.find? name = none := by
  intro name hentry
  have hname : name ∈ labelNames entries := List.mem_filterMap.mpr ⟨.label name, hentry, rfl⟩
  exact List.filterMap_eq_nil_iff.mp (List.getLast?_eq_none_iff.mp hnone) name hname

/-- The last label among some entries that is in the table. -/
theorem exists_of_nearestPosition?
    {symbols : SymbolTable} {entries : List Entry} {position : Int}
    (hnearest : nearestPosition? symbols (labelNames entries) = some position) :
    ∃ before name between,
      entries = before ++ .label name :: between ∧
      symbols.find? name = some position ∧
      ∀ other, Entry.label other ∈ between → symbols.find? other = none := by
  induction entries with
  | nil => simp [nearestPosition?] at hnearest
  | cons entry rest ih =>
      cases entry with
      | value value =>
          obtain ⟨before, name, between, hrest, hfound, hmissing⟩ := ih hnearest
          exact ⟨.value value :: before, name, between, by rw [hrest]; rfl, hfound, hmissing⟩
      | label first =>
          rw [labelNames_label, nearestPosition?_cons] at hnearest
          cases hlater : nearestPosition? symbols (labelNames rest) with
          | none =>
              rw [hlater, Option.none_or] at hnearest
              exact ⟨[], first, rest, rfl, hnearest, nearestPosition?_eq_none hlater⟩
          | some later =>
              rw [hlater, Option.some_or, Option.some.injEq] at hnearest
              subst hnearest
              obtain ⟨before, name, between, hrest, hfound, hmissing⟩ := ih hlater
              exact ⟨.label first :: before, name, between, by rw [hrest]; rfl, hfound, hmissing⟩

/-- The position of the nearest label at or before an index that is in the table. -/
def IsNearestFound
    (symbols : SymbolTable) (objectCode : List Entry) (index : Nat) (position : Int) : Prop :=
  ∃ before name between,
    objectCode.take (index + 1) = before ++ .label name :: between ∧
    symbols.find? name = some position ∧
    ∀ other, Entry.label other ∈ between → symbols.find? other = none

/-- The code has a number for each entry: the value itself, or the branch to the nearest position
that is known. -/
structure IsLinked (symbols : SymbolTable) (objectCode : List Entry) (code : List Int) : Prop where
  length : code.length = objectCode.length
  value : ∀ (index : Nat) (value : Int),
    objectCode[index]? = some (Entry.value value) → code[index]? = some value
  label : ∀ (index : Nat) (name : Text),
    objectCode[index]? = some (Entry.label name) →
    ∃ position,
      IsNearestFound symbols objectCode index position ∧
      code[index]? = some (branchValue position index)

theorem IsResolved.isLinked
    {symbols : SymbolTable} {objectCode : List Entry} {code : List Int}
    (hresolved : IsResolved symbols none 0 objectCode code) :
    IsLinked symbols objectCode code := by
  refine ⟨hresolved.length, hresolved.value, ?_⟩
  intro index name hentry
  obtain ⟨position, hnearest, hcell⟩ := hresolved.label index name hentry
  rw [Option.or_none] at hnearest
  rw [Nat.zero_add] at hcell
  exact ⟨position, exists_of_nearestPosition? hnearest, hcell⟩

namespace Block

theorem assemble_of_firstPass_eq_ok
    {block encoded : Block} {objectCode : List Entry}
    (hfirst : block.firstPass = (encoded, .ok objectCode)) :
    block.assemble.1.objectCode = objectCode ∧ block.assemble.1.symbols = encoded.symbols := by
  unfold assemble
  rw [hfirst]
  simp only
  split <;> exact ⟨rfl, rfl⟩

/-- What the second pass does with any object code and any symbols. It fails exactly if the first
label is not in the table, and has then reported one label. Otherwise it links the code, and has
reported each label that is not in the table. The object code and the symbols of a block that is
assembled are what the first pass made them, however the second pass ends. -/
theorem secondPass_links (block : Block) :
    ((∃ problem, block.secondPass.result = .error problem) ↔
      FirstLabelMissing block.symbols block.objectCode) ∧
    (FirstLabelMissing block.symbols block.objectCode →
      block.secondPass.result = .error .noPosition ∧
      Problem.noPosition.message =
        ("cannot access local variable 'symbol_position' where it is not " ++
          "associated with a value").toList ∧
      Notice.printed block.secondPass.notices = "ERROR: Label not found\n".toList) ∧
    (¬FirstLabelMissing block.symbols block.objectCode →
      ∃ code,
        block.secondPass.result = .ok code ∧
        IsLinked block.symbols block.objectCode code ∧
        Notice.printed block.secondPass.notices =
          (List.replicate (missingNames block.symbols block.objectCode).length
            "ERROR: Label not found\n".toList).flatten) ∧
    ∀ encoded objectCode,
      block.firstPass = (encoded, .ok objectCode) →
      block.assemble.1.objectCode = objectCode ∧ block.assemble.1.symbols = encoded.symbols := by
  have hmissing : FirstLabelMissing block.symbols block.objectCode →
      block.secondPass = ⟨[.labelNotFound], .error .noPosition⟩ := by
    rintro ⟨name, hfirst, hname⟩
    exact resolve_of_first_missing hfirst hname
  have hfound : ¬FirstLabelMissing block.symbols block.objectCode →
      ∃ code, block.secondPass =
        ⟨List.replicate (missingNames block.symbols block.objectCode).length .labelNotFound,
          .ok code⟩ := by
    intro hnot
    obtain ⟨code, hresolve, -⟩ :=
      resolve_of_first_found ((firstLabelFound_iff block.symbols block.objectCode).mpr hnot)
    exact ⟨code, hresolve⟩
  refine ⟨⟨?_, ?_⟩, ?_, ?_, fun encoded objectCode => assemble_of_firstPass_eq_ok⟩
  · rintro ⟨problem, hproblem⟩
    by_contra hnot
    obtain ⟨code, hcode⟩ := hfound hnot
    rw [hcode] at hproblem
    contradiction
  · intro hfirst
    exact ⟨.noPosition, by rw [hmissing hfirst]⟩
  · intro hfirst
    rw [hmissing hfirst]
    exact ⟨rfl, rfl, rfl⟩
  · intro hnot
    obtain ⟨code, hcode⟩ := hfound hnot
    have hresult : block.secondPass.result = .ok code := by rw [hcode]
    refine ⟨code, hresult, (isResolved_of_resolveFrom hresult).isLinked, ?_⟩
    rw [hcode, Notice.printed, List.flatMap_replicate]
    rfl

end Block

end Assembler6502
