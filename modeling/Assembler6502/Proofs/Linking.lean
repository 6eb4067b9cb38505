import Assembler6502.Proofs.CodeLayout
import Assembler6502.Proofs.UndefinedLabels

/-!
# Linking by concatenation

Assembled code does not depend on where it stands, because a branch stores a distance. Two sources
that define different labels and branch to their own labels only can therefore be assembled as one:
the second code follows the first, and its symbols move by the size of the first code.
-/

namespace Assembler6502

/-! ## Tables side by side -/

namespace SymbolTable

def shift (table : SymbolTable) (distance : Int) : SymbolTable :=
  ⟨table.entries.map fun entry => (entry.1, entry.2 + distance)⟩

def append (table other : SymbolTable) : SymbolTable :=
  ⟨table.entries ++ other.entries⟩

theorem find?_shift (table : SymbolTable) (distance : Int) (name : Text) :
    (table.shift distance).find? name = (table.find? name).map (· + distance) := by
  obtain ⟨entries⟩ := table
  change (entries.map fun entry => (entry.1, entry.2 + distance)).lookup name =
    (entries.lookup name).map (· + distance)
  induction entries with
  | nil => rfl
  | cons entry rest ih =>
      rw [List.map_cons, List.lookup_cons, List.lookup_cons, ih]
      cases name == entry.1 <;> rfl

theorem find?_append (table other : SymbolTable) (name : Text) :
    (table.append other).find? name = (table.find? name).or (other.find? name) :=
  List.lookup_append

theorem insertEntry_append
    {label : Text} {entries : List (Text × Int)} (hlabel : entries.lookup label = none)
    (position : Int) (others : List (Text × Int)) :
    insertEntry label position (entries ++ others) =
      entries ++ insertEntry label position others := by
  induction entries with
  | nil => rfl
  | cons entry rest ih =>
      rw [List.lookup_cons] at hlabel
      cases hkey : label == entry.1 with
      | true => simp [hkey] at hlabel
      | false =>
          rw [hkey] at hlabel
          have hne : ¬entry.1 = label := by
            rw [beq_eq_false_iff_ne] at hkey
            exact hkey.symm
          rw [List.cons_append, insertEntry, if_neg hne, ih hlabel, List.cons_append]

theorem insertEntry_shift
    (label : Text) (position distance : Int) (entries : List (Text × Int)) :
    insertEntry label (position + distance)
        (entries.map fun entry => (entry.1, entry.2 + distance)) =
      (insertEntry label position entries).map fun entry => (entry.1, entry.2 + distance) := by
  induction entries with
  | nil => rfl
  | cons entry rest ih =>
      simp only [List.map_cons, insertEntry, ih]
      split <;> rfl

theorem record_append_shift
    {table : SymbolTable} {label : Option Text}
    (hlabel : ∀ name, name ≠ [] → label = some name → table.find? name = none)
    (other : SymbolTable) (position distance : Int) :
    (table.append (other.shift distance)).record label (position + distance) =
      table.append ((other.record label position).shift distance) := by
  match label with
  | none => rfl
  | some [] => rfl
  | some (c :: rest) =>
      have hfree := hlabel (c :: rest) (by simp) rfl
      change (⟨insertEntry (c :: rest) (position + distance)
          (table.entries ++ (other.shift distance).entries)⟩ : SymbolTable) =
        ⟨table.entries ++ ((other.insert (c :: rest) position).shift distance).entries⟩
      rw [insertEntry_append hfree, shift, insertEntry_shift]
      rfl

end SymbolTable

/-! ## The first pass over concatenated lines -/

theorem recordLabels_append
    (symbols : SymbolTable) (position : Nat) (first second : List Text) :
    recordLabels symbols position (first ++ second) =
      recordLabels (recordLabels symbols position first)
        (position + (first.flatMap CodeLine.entries).length) second := by
  induction first generalizing symbols position with
  | nil => rfl
  | cons line rest ih =>
      rw [List.cons_append, recordLabels, recordLabels, ih, List.flatMap_cons, List.length_append,
        Nat.add_assoc]

theorem recordLabels_append_shift
    {table : SymbolTable} {lines : List Text}
    (hfree : ∀ name, name ≠ [] →
      (∃ line ∈ lines, CodeLine.label line = some name) → table.find? name = none)
    (other : SymbolTable) (position distance : Nat) :
    recordLabels (table.append (other.shift distance)) (position + distance) lines =
      table.append ((recordLabels other position lines).shift distance) := by
  induction lines generalizing other position with
  | nil => rfl
  | cons line rest ih =>
      -- The first table has none of the labels, so that only the second one changes.
      have hline : ∀ name, name ≠ [] → CodeLine.label line = some name →
          table.find? name = none := by
        intro name hname hlabel
        exact hfree name hname ⟨line, by simp, hlabel⟩
      have hrest : ∀ name, name ≠ [] →
          (∃ other ∈ rest, CodeLine.label other = some name) → table.find? name = none := by
        rintro name hname ⟨other, hother, hlabel⟩
        exact hfree name hname ⟨other, by simp [hother], hlabel⟩
      have hmoved : position + distance + (CodeLine.entries line).length =
          position + (CodeLine.entries line).length + distance := by omega
      rw [recordLabels, recordLabels, Nat.cast_add,
        SymbolTable.record_append_shift hline, hmoved, ih hrest]

/-! ## The second pass over code without undefined labels -/

/-- The code that object code stands for if all its labels are in the table. -/
def resolvedCode (symbols : SymbolTable) (index : Nat) : List Entry → List Int
  | [] => []
  | .value value :: rest => value :: resolvedCode symbols (index + 1) rest
  | .label name :: rest =>
      branchValue ((symbols.find? name).getD 0) index :: resolvedCode symbols (index + 1) rest

theorem length_resolvedCode
    (symbols : SymbolTable) (index : Nat) (objectCode : List Entry) :
    (resolvedCode symbols index objectCode).length = objectCode.length := by
  fun_induction resolvedCode symbols index objectCode with
  | case1 => rfl
  | case2 index value rest ih => simp [ih]
  | case3 index name rest ih => simp [ih]

theorem resolveFrom_of_found
    {symbols : SymbolTable} {objectCode : List Entry}
    (hfound : ∀ name ∈ labelNames objectCode, (symbols.find? name).isSome)
    (last : Option Int) (index : Nat) :
    resolveFrom symbols last index objectCode =
      ⟨[], .ok (resolvedCode symbols index objectCode)⟩ := by
  induction objectCode generalizing last index with
  | nil => rfl
  | cons entry rest ih =>
      cases entry with
      | value value =>
          rw [resolveFrom, ih hfound, resolvedCode]
          rfl
      | label name =>
          obtain ⟨hname, hrest⟩ := List.forall_mem_cons.mp hfound
          obtain ⟨position, hposition⟩ := Option.isSome_iff_exists.mp hname
          rw [resolveFrom_label_of_find? hposition, ih hrest, resolvedCode, hposition]
          rfl

theorem resolvedCode_append
    (symbols : SymbolTable) (index : Nat) (first second : List Entry) :
    resolvedCode symbols index (first ++ second) =
      resolvedCode symbols index first ++
        resolvedCode symbols (index + first.length) second := by
  fun_induction resolvedCode symbols index first with
  | case1 => rfl
  | case2 index value rest ih =>
      rw [List.cons_append, resolvedCode, ih, List.length_cons, Nat.add_right_comm, Nat.add_assoc]
      rfl
  | case3 index name rest ih =>
      rw [List.cons_append, resolvedCode, ih, List.length_cons, Nat.add_right_comm, Nat.add_assoc]
      rfl

theorem branchValue_shift (position : Int) (index distance : Nat) :
    branchValue (position + distance) (index + distance) = branchValue position index := by
  have hoffset : position + distance - ((index + distance : Nat) : Int) = position - index := by
    omega
  rw [branchValue, branchValue, hoffset]

theorem resolvedCode_shift
    {symbols moved : SymbolTable} {distance : Nat} {objectCode : List Entry}
    (hmoved : ∀ name ∈ labelNames objectCode, ∃ position,
      symbols.find? name = some position ∧ moved.find? name = some (position + distance))
    (index : Nat) :
    resolvedCode moved (index + distance) objectCode = resolvedCode symbols index objectCode := by
  induction objectCode generalizing index with
  | nil => rfl
  | cons entry rest ih =>
      cases entry with
      | value value => rw [resolvedCode, resolvedCode, Nat.add_right_comm, ih hmoved]
      | label name =>
          obtain ⟨⟨position, hfind, hfindMoved⟩, hrest⟩ := List.forall_mem_cons.mp hmoved
          rw [resolvedCode, resolvedCode, hfind, hfindMoved, Option.getD_some, Option.getD_some,
            branchValue_shift, Nat.add_right_comm, ih hrest]

/-! ## Sources that branch to their own labels -/

namespace CodeLine

/-- The labels of lines. An empty label defines nothing. -/
def definedLabels (source : List Text) : List Text :=
  (source.filterMap label).filter (· ≠ [])

theorem mem_definedLabels_iff (source : List Text) (name : Text) :
    name ∈ definedLabels source ↔ name ≠ [] ∧ ∃ line ∈ source, label line = some name := by
  simp [definedLabels, and_comm]

theorem definedLabels_append (first second : List Text) :
    definedLabels (first ++ second) = definedLabels first ++ definedLabels second := by
  simp [definedLabels]

theorem isSome_find?_of_mem_definedLabels
    {source : List Text} {name : Text} (hname : name ∈ definedLabels source) :
    ((recordLabels .empty 0 source).find? name).isSome := by
  obtain ⟨hsome, hline⟩ := (mem_definedLabels_iff source name).mp hname
  exact (isSome_find?_recordLabels_iff source hsome).mpr hline

theorem find?_eq_none_of_not_mem_definedLabels
    {source : List Text} {name : Text} (hsome : name ≠ []) (hname : name ∉ definedLabels source) :
    (recordLabels .empty 0 source).find? name = none := by
  rw [← Option.not_isSome_iff_eq_none, isSome_find?_recordLabels_iff source hsome]
  intro hline
  exact hname ((mem_definedLabels_iff source name).mpr ⟨hsome, hline⟩)

end CodeLine

open CodeLine

/-- Every branch goes to a label of the same source. -/
def IsSelfContained (source : List Text) : Prop :=
  ∀ name ∈ source.filterMap branchTarget?, name ∈ definedLabels source

instance (source : List Text) : Decidable (IsSelfContained source) :=
  inferInstanceAs (Decidable (∀ name ∈ source.filterMap branchTarget?, name ∈ definedLabels source))

theorem IsSelfContained.append
    {first second : List Text}
    (hfirst : IsSelfContained first) (hsecond : IsSelfContained second) :
    IsSelfContained (first ++ second) := by
  intro name hname
  rw [List.filterMap_append, List.mem_append] at hname
  rw [definedLabels_append, List.mem_append]
  exact hname.imp (hfirst name) (hsecond name)

theorem IsSelfContained.mem_definedLabels
    {source : List Text} (hsource : IsSelfContained source)
    (hencodable : ∀ line ∈ source, IsEncodable line) :
    ∀ name ∈ labelNames (source.flatMap entries), name ∈ definedLabels source := by
  rw [labelNames_flatMap_entries hencodable]
  exact hsource

theorem Block.assemble_of_isSelfContained
    {source : List Text} (hsource : IsSelfContained source)
    (hencodable : ∀ line ∈ source, IsEncodable line) :
    (ofSource source).assemble =
      (⟨source, recordLabels .empty 0 source, source.flatMap entries,
          resolvedCode (recordLabels .empty 0 source) 0 (source.flatMap entries)⟩,
        ⟨[], .ok ()⟩) := by
  have hresolve := resolveFrom_of_found
    (fun name hname => isSome_find?_of_mem_definedLabels
      (hsource.mem_definedLabels hencodable name hname)) none 0
  rw [Block.assemble_ofSource hencodable]
  simp only [resolve, hresolve]

/-! ## Two sources as one -/

section Append

variable {first second : List Text}

theorem recordLabels_of_disjoint
    (hdisjoint : (definedLabels first).Disjoint (definedLabels second)) :
    recordLabels .empty 0 (first ++ second) =
      (recordLabels .empty 0 first).append
        ((recordLabels .empty 0 second).shift (first.flatMap entries).length) := by
  have hfree : ∀ name, name ≠ [] → (∃ line ∈ second, label line = some name) →
      (recordLabels .empty 0 first).find? name = none := by
    intro name hname hline
    apply find?_eq_none_of_not_mem_definedLabels hname
    intro hmem
    exact hdisjoint hmem ((mem_definedLabels_iff second name).mpr ⟨hname, hline⟩)
  have hempty : (recordLabels .empty 0 first).append
      (SymbolTable.empty.shift (first.flatMap entries).length) = recordLabels .empty 0 first := by
    simp [SymbolTable.append, SymbolTable.shift, SymbolTable.empty]
  have hsecond := recordLabels_append_shift hfree .empty 0 (first.flatMap entries).length
  rw [hempty] at hsecond
  rw [recordLabels_append, hsecond]

theorem resolvedCode_of_disjoint
    (hdisjoint : (definedLabels first).Disjoint (definedLabels second))
    (hfirst : ∀ name ∈ labelNames (first.flatMap entries), name ∈ definedLabels first)
    (hsecond : ∀ name ∈ labelNames (second.flatMap entries), name ∈ definedLabels second) :
    resolvedCode (recordLabels .empty 0 (first ++ second)) 0 ((first ++ second).flatMap entries) =
      resolvedCode (recordLabels .empty 0 first) 0 (first.flatMap entries) ++
        resolvedCode (recordLabels .empty 0 second) 0 (second.flatMap entries) := by
  rw [recordLabels_of_disjoint hdisjoint, List.flatMap_append, resolvedCode_append]
  congr 1
  · -- The code in front has not moved.
    refine @resolvedCode_shift _ _ 0 _ ?_ 0
    intro name hname
    obtain ⟨position, hposition⟩ :=
      Option.isSome_iff_exists.mp (isSome_find?_of_mem_definedLabels (hfirst name hname))
    refine ⟨position, hposition, ?_⟩
    rw [SymbolTable.find?_append, hposition]
    simp
  · apply resolvedCode_shift
    intro name hname
    have hmem := hsecond name hname
    obtain ⟨position, hposition⟩ :=
      Option.isSome_iff_exists.mp (isSome_find?_of_mem_definedLabels hmem)
    refine ⟨position, hposition, ?_⟩
    have hnone : (recordLabels .empty 0 first).find? name = none := by
      apply find?_eq_none_of_not_mem_definedLabels ((mem_definedLabels_iff second name).mp hmem).1
      exact fun hother => hdisjoint hother hmem
    rw [SymbolTable.find?_append, hnone, SymbolTable.find?_shift, hposition]
    rfl

namespace Block

/-- Two sources that assemble, define different labels and branch to their own labels only can be
assembled as one, without a notice. Everything of the second stands behind the first, and its
symbols are moved by the size of the first. -/
theorem assemble_append
    (hfirst : (ofSource first).assemble.2.result = .ok ())
    (hsecond : (ofSource second).assemble.2.result = .ok ())
    (hdisjoint : (definedLabels first).Disjoint (definedLabels second))
    (hfirstClosed : IsSelfContained first) (hsecondClosed : IsSelfContained second) :
    (ofSource (first ++ second)).assemble =
      (⟨first ++ second,
          (ofSource first).assemble.1.symbols.append
            ((ofSource second).assemble.1.symbols.shift (ofSource first).assemble.1.size),
          (ofSource first).assemble.1.objectCode ++ (ofSource second).assemble.1.objectCode,
          (ofSource first).assemble.1.execCode ++ (ofSource second).assemble.1.execCode⟩,
        ⟨[], .ok ()⟩) := by
  have hencodable : ∀ line ∈ first, IsEncodable line := (assemble_eq_ok hfirst).1
  have hsecondEncodable : ∀ line ∈ second, IsEncodable line := (assemble_eq_ok hsecond).1
  have hboth : ∀ line ∈ first ++ second, IsEncodable line :=
    List.forall_mem_append.mpr ⟨hencodable, hsecondEncodable⟩
  rw [assemble_of_isSelfContained (hfirstClosed.append hsecondClosed) hboth,
    assemble_of_isSelfContained hfirstClosed hencodable,
    assemble_of_isSelfContained hsecondClosed hsecondEncodable]
  simp only [size, length_resolvedCode]
  rw [resolvedCode_of_disjoint hdisjoint (hfirstClosed.mem_definedLabels hencodable)
      (hsecondClosed.mem_definedLabels hsecondEncodable),
    recordLabels_of_disjoint hdisjoint, List.flatMap_append]

/-- The second source branches forward and back, and its labels move by four. -/
theorem assemble_append_loop :
    let first := ["loop: lda #$0a".toList, "bne loop".toList]
    let second := ["beq done".toList, "back: nop".toList, "bne back".toList, "done: rts".toList]
    (ofSource first).assemble.1.execCode = [0xa9, 0x0a, 0xd0, 0xfc] ∧
      (ofSource second).assemble.1.execCode = [0xf0, 0x03, 0xea, 0xd0, 0xfd, 0x60] ∧
      (ofSource (first ++ second)).assemble.2.result = .ok () ∧
      (ofSource (first ++ second)).assemble.1.execCode =
        [0xa9, 0x0a, 0xd0, 0xfc, 0xf0, 0x03, 0xea, 0xd0, 0xfd, 0x60] ∧
      (ofSource (first ++ second)).assemble.1.symbols =
        ⟨[("loop".toList, 0), ("back".toList, 6), ("done".toList, 9)]⟩ := by
  intro first second
  have happend : (ofSource (first ++ second)).assemble = _ :=
    assemble_append rfl rfl (List.disjoint_left.mpr (by decide)) (by decide) (by decide)
  rw [happend]
  exact ⟨rfl, rfl, rfl, rfl, rfl⟩

end Block

end Append

end Assembler6502
