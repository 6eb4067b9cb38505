import Assembler6502.Listing.Coefficients
import Assembler6502.Listing.MemoryFile
import Assembler6502.Proofs.CodeLines
import Assembler6502.Proofs.Numerals

/-!
# Reading listings back

Both listings can be read: the coefficient file without its header and its comment lines is a list
of words, and the memory file has one cell on each line. A cell is read by its digits, and the
letter of the base tells that it is negative. So a listing determines the image it was made of,
whatever integers the cells are.
-/

namespace Assembler6502

/-! ## Lines -/

namespace Text

/-- The lines of a text, without their line feeds. -/
def lineTexts (text : Text) : List Text :=
  (splitLines text).map (before '\n')

theorem lineTexts_flatMap
    {lines : List Text} (hlines : ∀ line ∈ lines, SourceLine.IsOneLine line) :
    lineTexts (lines.flatMap (· ++ ['\n'])) = lines := by
  induction lines with
  | nil => rfl
  | cons line rest ih =>
      obtain ⟨hline, hrest⟩ := List.forall_mem_cons.mp hlines
      have hsplit : (line :: rest).flatMap (· ++ ['\n']) =
          line ++ '\n' :: rest.flatMap (· ++ ['\n']) := by simp
      have hfeed : '\n' ∉ line := fun hmem => (hline '\n' hmem).1 rfl
      have hlater := ih hrest
      unfold lineTexts at hlater ⊢
      rw [hsplit, SourceLine.splitLines_append_lineFeed hline, List.map_cons,
        before_append_mark hfeed, hlater]

theorem ne_lineEnd_of_isBlank {c : Char} (hc : isBlank c = false) : c ≠ '\n' ∧ c ≠ '\r' := by
  constructor <;> rintro rfl <;> exact absurd hc (by decide)

end Text

/-! ## Cells -/

namespace Listing

/-- Continues a number by the digits of a base. -/
def readDigits (base value : Nat) : Text → Option Nat
  | [] => some value
  | c :: rest =>
      match Hexadecimal.digit? c with
      | none => none
      | some digit => if digit < base then readDigits base (base * value + digit) rest else none

theorem readDigits_append
    (base value : Nat) (first second : Text) :
    readDigits base value (first ++ second) =
      (readDigits base value first).bind (readDigits base · second) := by
  fun_induction readDigits base value first with
  | case1 => rfl
  | case2 value c rest hdigit => simp [readDigits, hdigit]
  | case3 value c rest digit hdigit hlt ih =>
      rw [List.cons_append, readDigits, hdigit]
      simp only [hlt, if_true, ih]
  | case4 value c rest digit hdigit hlt => simp [readDigits, hdigit, hlt]

theorem readDigits_digitChar
    {base digit : Nat} (hbase : base ≤ 16) (hdigit : digit < base) (value : Nat) :
    readDigits base value [digit.digitChar] = some (base * value + digit) := by
  simp [readDigits, Hexadecimal.digit?_digitChar (hdigit.trans_le hbase), hdigit]

theorem readDigits_toDigits
    {base : Nat} (hone : 1 < base) (hbase : base ≤ 16) (number : Nat) :
    readDigits base 0 (Nat.toDigits base number) = some number := by
  induction number using Nat.strongRecOn with
  | ind number ih =>
      rw [Nat.toDigits_eq_if hone]
      split
      next hsmall => simpa using readDigits_digitChar hbase hsmall 0
      next hlarge =>
          have hquotient : number / base < number := Nat.div_lt_self (by omega) hone
          have hremainder : number % base < base := Nat.mod_lt number (by omega)
          rw [readDigits_append, ih _ hquotient, Option.bind_some,
            readDigits_digitChar hbase hremainder, Nat.div_add_mod]

theorem readDigits_zeros
    {base : Nat} (hbase : 0 < base) (count : Nat) (text : Text) :
    readDigits base 0 (List.replicate count '0' ++ text) = readDigits base 0 text := by
  induction count with
  | zero => rfl
  | succ count ih =>
      have hzero : Hexadecimal.digit? '0' = some 0 := rfl
      rw [List.replicate_succ, List.cons_append, readDigits, hzero]
      simpa [hbase] using ih

namespace CellFormat

/-- Reads a cell. A letter of the base after nothing but zeros makes it negative. -/
def read? (format : CellFormat) (token : Text) : Option Int :=
  match token.cut? format.letter with
  | none => if token = [] then none else (readDigits format.base 0 token).map Int.ofNat
  | some (zeros, digits) =>
      if digits ≠ [] ∧ zeros.all (· = '0') then
        (readDigits format.base 0 digits).map fun magnitude => -(magnitude : Int)
      else none

/-- The digits of the base are known, and its letter and blanks are none of them. -/
structure IsReadable (format : CellFormat) : Prop where
  one_lt_base : 1 < format.base
  base_le : format.base ≤ 16
  letter : ∀ digit < format.base, digit.digitChar ≠ format.letter
  plain : Text.isBlank format.letter = false ∧ format.letter ≠ ';'

theorem hexadecimalCell_isReadable : hexadecimalCell.IsReadable :=
  ⟨by decide, by decide, by decide, by decide⟩

theorem binaryCell_isReadable : binaryCell.IsReadable :=
  ⟨by decide, by decide, by decide, by decide⟩

theorem write_ne_nil (format : CellFormat) (cell : Int) : format.write cell ≠ [] := by
  simp [write, Text.padZeros, Nat.toDigits_ne_nil]

variable {format : CellFormat} (hformat : format.IsReadable)

include hformat

theorem exists_digitChar_of_mem_toDigits
    {number : Nat} {c : Char} (hc : c ∈ Nat.toDigits format.base number) :
    ∃ digit < format.base, c = digit.digitChar := by
  have hone := hformat.one_lt_base
  induction number using Nat.strongRecOn with
  | ind number ih =>
      rw [Nat.toDigits_eq_if hone] at hc
      split at hc
      next hsmall => exact ⟨number, hsmall, List.mem_singleton.mp hc⟩
      next hlarge =>
          rcases List.mem_append.mp hc with hmem | hmem
          · exact ih (number / format.base) (Nat.div_lt_self (by omega) hone) hmem
          · exact ⟨number % format.base, Nat.mod_lt number (by omega), List.mem_singleton.mp hmem⟩

/-- A written cell has digits of the base, and its letter if the cell is negative. -/
theorem mem_write
    {cell : Int} {c : Char} (hc : c ∈ format.write cell) :
    (∃ digit < format.base, c = digit.digitChar) ∨ cell < 0 ∧ c = format.letter := by
  unfold write Text.padZeros at hc
  rcases List.mem_append.mp hc with hzero | hcell
  · exact .inl ⟨0, by have hone := hformat.one_lt_base; omega, List.eq_of_mem_replicate hzero⟩
  · rcases List.mem_append.mp hcell with hletter | hdigit
    · split at hletter
      next hnegative => exact .inr ⟨hnegative, List.mem_singleton.mp hletter⟩
      next => simp at hletter
    · exact .inl (exists_digitChar_of_mem_toDigits hformat hdigit)

theorem letter_ne_zero : format.letter ≠ '0' :=
  fun hzero => hformat.letter 0 (by have hone := hformat.one_lt_base; omega) hzero.symm

theorem read?_write (cell : Int) : format.read? (format.write cell) = some cell := by
  have hpos : 0 < format.base := by have hone := hformat.one_lt_base; omega
  have hdigits := readDigits_toDigits hformat.one_lt_base hformat.base_le cell.natAbs
  by_cases hnegative : cell < 0
  · have hwrite : format.write cell =
        List.replicate (format.width - (Nat.toDigits format.base cell.natAbs).length.succ) '0' ++
          format.letter :: Nat.toDigits format.base cell.natAbs := by
      simp [write, Text.padZeros, hnegative]
    have hzeros : format.letter ∉ List.replicate
        (format.width - (Nat.toDigits format.base cell.natAbs).length.succ) '0' :=
      fun hmem => letter_ne_zero hformat (List.eq_of_mem_replicate hmem)
    rw [hwrite, read?, Text.cut?_append_mark hzeros]
    simp [hdigits, Nat.toDigits_ne_nil, abs_of_neg hnegative]
  · have hletter : format.letter ∉ format.write cell := by
      intro hmem
      rcases mem_write hformat hmem with ⟨digit, hdigit, hequal⟩ | ⟨hsign, -⟩
      · exact hformat.letter digit hdigit hequal.symm
      · exact hnegative hsign
    have hwrite : format.write cell =
        List.replicate (format.width - (Nat.toDigits format.base cell.natAbs).length) '0' ++
          Nat.toDigits format.base cell.natAbs := by
      simp [write, Text.padZeros, hnegative]
    rw [read?, Text.cut?_of_not_mem hletter, hwrite, readDigits_zeros hpos, hdigits]
    simp [Nat.toDigits_ne_nil, abs_of_nonneg (not_lt.mp hnegative)]

theorem isBlank_of_mem_write {cell : Int} {c : Char} (hc : c ∈ format.write cell) :
    Text.isBlank c = false ∧ c ≠ ';' := by
  rcases mem_write hformat hc with ⟨digit, hdigit, rfl⟩ | ⟨-, rfl⟩
  · have hisDigit := Hexadecimal.isDigit_digitChar (hdigit.trans_le hformat.base_le)
    refine ⟨Hexadecimal.isBlank_of_isDigit hisDigit, ?_⟩
    intro hsemicolon
    rw [hsemicolon] at hisDigit
    exact absurd hisDigit (by decide)
  · exact hformat.plain

theorem isOneLine_write (cell : Int) : SourceLine.IsOneLine (format.write cell) := by
  intro c hc
  exact Text.ne_lineEnd_of_isBlank (isBlank_of_mem_write hformat hc).1

theorem mapM_read?_map_write (image : Image) :
    (image.map format.write).mapM format.read? = some image := by
  induction image with
  | nil => rfl
  | cons cell rest ih => simp [List.mapM_cons, read?_write hformat, ih]

end CellFormat

/-! ## Memory files -/

namespace MemoryFile

def read? (text : Text) : Option Image :=
  text.lineTexts.mapM binaryCell.read?

theorem lineTexts_write (image : Image) :
    (write image).lineTexts = image.map binaryCell.write := by
  have hlines : ∀ line ∈ image.map binaryCell.write, SourceLine.IsOneLine line := by
    intro line hline
    obtain ⟨cell, -, rfl⟩ := List.mem_map.mp hline
    exact CellFormat.isOneLine_write CellFormat.binaryCell_isReadable cell
  rw [← Text.lineTexts_flatMap hlines, List.flatMap_map]
  rfl

theorem read?_write (image : Image) : read? (write image) = some image := by
  rw [read?, lineTexts_write]
  exact CellFormat.mapM_read?_map_write CellFormat.binaryCell_isReadable image

end MemoryFile

/-! ## Coefficient files -/

namespace Coefficients

/-- The lines behind the header that are not comments. -/
def dataLines (text : Text) : List Text :=
  (Text.lineTexts (text.drop header.length)).filter fun line => line.head? ≠ some ';'

def read? (text : Text) : Option Image :=
  if header.isPrefixOf text then ((dataLines text).flatMap Text.words).mapM hexadecimalCell.read?
  else none

theorem flatten_cutRows
    {count : Nat} {cells : Image} (hcount : cells.length ≤ rowLength * count) :
    (cutRows count cells).flatten = cells := by
  induction count generalizing cells with
  | zero =>
      have hnil : cells = [] := List.eq_nil_of_length_eq_zero (by omega)
      rw [hnil]
      rfl
  | succ count ih =>
      have hrest : (cells.drop rowLength).length ≤ rowLength * count := by
        rw [List.length_drop]
        rw [Nat.mul_succ] at hcount
        omega
      rw [cutRows, List.flatten_cons, ih hrest, List.take_append_drop]

theorem flatten_rows (image : Image) : (rows image).flatten = image := by
  apply flatten_cutRows
  unfold rowLength
  omega

/-- The line that marks a page, without its line feed. -/
def pageMarkLine (row : Nat) : Text :=
  ";; Begin page 0x".toList ++ Text.hexPadded 4 (rowLength * row) ++ ['.']

def rowTokens (cells : List Int) : List Text :=
  cells.map hexadecimalCell.write

/-- The lines of a numbered row: the mark of the page, if the row starts one, and the cells. -/
def rowLines (numbered : List Int × Nat) : List Text :=
  (if numbered.2 % pageRows = 0 then [pageMarkLine numbered.2] else []) ++
    [Text.join [' '] (rowTokens numbered.1)]

theorem pageMark_eq (row : Nat) : pageMark row = pageMarkLine row ++ ['\n'] :=
  (List.append_assoc (";; Begin page 0x".toList ++ Text.hexPadded 4 (rowLength * row))
    ['.'] ['\n']).symm

theorem rowText_eq (numbered : List Int × Nat) :
    rowText numbered = (rowLines numbered).flatMap (· ++ ['\n']) := by
  unfold rowText rowLines rowLine rowTokens
  rw [List.flatMap_append, List.flatMap_singleton, pageMark_eq]
  split
  · rw [List.flatMap_singleton]
  · rfl

theorem isOneLine_pageMarkLine (row : Nat) : SourceLine.IsOneLine (pageMarkLine row) := by
  intro c hc
  rcases List.mem_append.mp hc with hfront | hdot
  · rcases List.mem_append.mp hfront with hintro | hdigit
    · exact Text.forall_mem_of_all (P := fun c => c ≠ '\n' ∧ c ≠ '\r') rfl c hintro
    · have hblank := Hexadecimal.isBlank_of_isDigit (Hexadecimal.isDigit_of_mem_padded hdigit)
      exact Text.ne_lineEnd_of_isBlank hblank
  · rw [List.mem_singleton.mp hdot]
    decide

theorem of_mem_join_rowTokens
    {cells : List Int} {c : Char} (hc : c ∈ Text.join [' '] (rowTokens cells)) :
    c = ' ' ∨ Text.isBlank c = false ∧ c ≠ ';' := by
  rcases Text.mem_join hc with hspace | ⟨token, htoken, hmem⟩
  · exact .inl (List.mem_singleton.mp hspace)
  · obtain ⟨cell, -, rfl⟩ := List.mem_map.mp htoken
    exact .inr (CellFormat.isBlank_of_mem_write CellFormat.hexadecimalCell_isReadable hmem)

theorem isOneLine_of_mem_rowLines
    {numbered : List Int × Nat} {line : Text} (hline : line ∈ rowLines numbered) :
    SourceLine.IsOneLine line := by
  rcases List.mem_append.mp hline with hmark | hrow
  · split at hmark
    · rw [List.mem_singleton.mp hmark]
      exact isOneLine_pageMarkLine numbered.2
    · simp at hmark
  · rw [List.mem_singleton.mp hrow]
    intro c hc
    rcases of_mem_join_rowTokens hc with rfl | ⟨hblank, -⟩
    · decide
    · exact Text.ne_lineEnd_of_isBlank hblank

theorem head?_join_rowTokens_ne (cells : List Int) :
    (Text.join [' '] (rowTokens cells)).head? ≠ some ';' := by
  intro hhead
  rcases of_mem_join_rowTokens (List.mem_of_mem_head? hhead) with hspace | ⟨-, hsemicolon⟩
  · exact absurd hspace (by decide)
  · exact hsemicolon rfl

theorem filter_rowLines (numbered : List Int × Nat) :
    (rowLines numbered).filter (fun line => line.head? ≠ some ';') =
      [Text.join [' '] (rowTokens numbered.1)] := by
  have hmark : (pageMarkLine numbered.2).head? = some ';' := rfl
  have hrow := head?_join_rowTokens_ne numbered.1
  unfold rowLines
  split <;> simp [hmark, hrow]

theorem words_join_rowTokens (cells : List Int) :
    Text.words (Text.join [' '] (rowTokens cells)) = rowTokens cells := by
  apply Text.words_join
  · intro token htoken
    obtain ⟨cell, -, rfl⟩ := List.mem_map.mp htoken
    exact hexadecimalCell.write_ne_nil cell
  · intro token htoken c hc
    obtain ⟨cell, -, rfl⟩ := List.mem_map.mp htoken
    exact (CellFormat.isBlank_of_mem_write CellFormat.hexadecimalCell_isReadable hc).1

theorem lineTexts_write (image : Image) :
    Text.lineTexts ((write image).drop header.length) =
      (rows image).zipIdx.flatMap rowLines := by
  have hlines : ∀ line ∈ (rows image).zipIdx.flatMap rowLines, SourceLine.IsOneLine line := by
    intro line hline
    obtain ⟨numbered, -, hmem⟩ := List.mem_flatMap.mp hline
    exact isOneLine_of_mem_rowLines hmem
  have hrows : (rows image).zipIdx.flatMap rowText =
      ((rows image).zipIdx.flatMap rowLines).flatMap (· ++ ['\n']) := by
    rw [List.flatMap_assoc]
    exact List.flatMap_congr fun numbered _ => rowText_eq numbered
  rw [write, List.drop_left, hrows, Text.lineTexts_flatMap hlines]

theorem words_dataLines_write (image : Image) :
    (dataLines (write image)).flatMap Text.words = image.map hexadecimalCell.write := by
  calc
    (dataLines (write image)).flatMap Text.words
      = (rows image).zipIdx.flatMap fun numbered => rowTokens numbered.1 := by
        rw [dataLines, lineTexts_write, List.filter_flatMap, List.flatMap_assoc]
        refine List.flatMap_congr fun numbered _ => ?_
        rw [filter_rowLines, List.flatMap_singleton, words_join_rowTokens]
    _ = ((rows image).zipIdx.map Prod.fst).flatMap rowTokens := by rw [List.flatMap_map]
    _ = (rows image).flatten.map hexadecimalCell.write := by
        rw [List.zipIdx_map_fst, List.map_flatten, List.flatMap_def]
        rfl
    _ = image.map hexadecimalCell.write := by rw [flatten_rows]

theorem read?_write (image : Image) : read? (write image) = some image := by
  have hheader : header.isPrefixOf (write image) = true := by
    rw [List.isPrefixOf_iff_prefix]
    exact List.prefix_append _ _
  rw [read?, if_pos hheader, words_dataLines_write]
  exact CellFormat.mapM_read?_map_write CellFormat.hexadecimalCell_isReadable image

end Coefficients

end Listing

end Assembler6502
