import Assembler6502.Proofs.ListingReaders
import Assembler6502.Proofs.NumeralGrammar

/-!
# The layout of listings

A written cell fills the width of its format with digits exactly if its value is in the range of so
many digits. Wider values take more characters, and negative ones have the letter of the base. A
memory file has one line for each cell. A coefficient file has its rows behind a header, with a mark
in front of every fourth row, and the address of a cell tells its row and its place there. Both
files have their layout for every image, whatever its length and its cells are.
-/

namespace Assembler6502

namespace Listing

/-! ## Cells that fill their width -/

namespace CellFormat

variable {format : CellFormat} (hformat : format.IsReadable)

include hformat

theorem letter_mem_write_iff (cell : Int) : format.letter ∈ format.write cell ↔ cell < 0 := by
  constructor
  · intro hmem
    rcases mem_write hformat hmem with ⟨digit, hdigit, hletter⟩ | ⟨hnegative, -⟩
    · exact absurd hletter.symm (hformat.letter digit hdigit)
    · exact hnegative
  · intro hnegative
    simp [write, Text.padZeros, hnegative]

/-- A class of characters that has the digits of the base, and not its letter, tells the cells that
are not negative. -/
theorem forall_mem_write_iff
    {IsDigit : Char → Prop} (hdigits : ∀ digit < format.base, IsDigit digit.digitChar)
    (hletter : ¬IsDigit format.letter) (cell : Int) :
    (∀ c ∈ format.write cell, IsDigit c) ↔ 0 ≤ cell := by
  constructor
  · intro hall
    by_contra hnegative
    exact hletter (hall _ ((letter_mem_write_iff hformat cell).mpr (not_le.mp hnegative)))
  · intro hcell c hc
    rcases mem_write hformat hc with ⟨digit, hdigit, rfl⟩ | ⟨hnegative, -⟩
    · exact hdigits digit hdigit
    · exact absurd hcell (not_le.mpr hnegative)

theorem length_write_eq_iff
    (hwidth : 0 < format.width) {cell : Int} (hcell : 0 ≤ cell) :
    (format.write cell).length = format.width ↔ cell < format.base ^ format.width := by
  have hlength : (format.write cell).length =
      format.width - (Nat.toDigits format.base cell.natAbs).length +
        (Nat.toDigits format.base cell.natAbs).length := by
    simp [write, Text.padZeros, not_lt.mpr hcell]
  have hdigits := @Nat.length_toDigits_le_iff format.base cell.natAbs format.width
    hformat.one_lt_base hwidth
  have hcast : cell.natAbs < format.base ^ format.width ↔
      cell < format.base ^ format.width := by
    zify
    rw [abs_of_nonneg hcell]
  rw [hlength, ← hcast, ← hdigits]
  omega

theorem write_full_iff
    {IsDigit : Char → Prop} (hdigits : ∀ digit < format.base, IsDigit digit.digitChar)
    (hletter : ¬IsDigit format.letter) (hwidth : 0 < format.width) (cell : Int) :
    (format.write cell).length = format.width ∧ (∀ c ∈ format.write cell, IsDigit c) ↔
      0 ≤ cell ∧ cell < format.base ^ format.width := by
  rw [forall_mem_write_iff hformat hdigits hletter, and_comm, and_congr_right_iff]
  exact fun hcell => length_write_eq_iff hformat hwidth hcell

/-- Digits alone give back a cell exactly if it is not negative. -/
theorem readDigits_write_iff (cell : Int) :
    (readDigits format.base 0 (format.write cell)).map Int.ofNat = some cell ↔ 0 ≤ cell := by
  constructor
  · intro hread
    obtain ⟨number, -, rfl⟩ := Option.map_eq_some_iff.mp hread
    exact Int.natCast_nonneg number
  · intro hcell
    have hletter : format.letter ∉ format.write cell :=
      mt (letter_mem_write_iff hformat cell).mp (not_lt.mpr hcell)
    have hread := read?_write hformat cell
    rwa [read?, Text.cut?_of_not_mem hletter, if_neg (format.write_ne_nil cell)] at hread

omit hformat

theorem mapM_map_write_eq_iff
    {reader : Text → Option Int}
    (hreader : ∀ cell, reader (format.write cell) = some cell ↔ 0 ≤ cell) (image : Image) :
    (image.map format.write).mapM reader = some image ↔ ∀ cell ∈ image, 0 ≤ cell := by
  induction image with
  | nil => simp
  | cons cell rest ih =>
      rw [List.forall_mem_cons, ← ih, ← hreader cell, List.map_cons, List.mapM_cons]
      cases reader (format.write cell) with
      | none => simp
      | some number =>
          cases (rest.map format.write).mapM reader with
          | none => simp
          | some numbers => simp

end CellFormat

theorem hexadecimalCell_full_iff (cell : Int) :
    (hexadecimalCell.write cell).length = 2 ∧
        (∀ c ∈ hexadecimalCell.write cell, Hexadecimal.isDigit c = true) ↔
      0 ≤ cell ∧ cell ≤ 0xff := by
  have hfull := @CellFormat.write_full_iff _ CellFormat.hexadecimalCell_isReadable
    (Hexadecimal.isDigit · = true) (fun _ => Hexadecimal.isDigit_digitChar) (by decide)
    (by decide) cell
  have hpower : (hexadecimalCell.base : Int) ^ hexadecimalCell.width = 0x100 := by decide
  rw [hpower] at hfull
  exact hfull.trans (and_congr_right' (by omega))

theorem binaryCell_full_iff (cell : Int) :
    (binaryCell.write cell).length = 8 ∧
        (∀ c ∈ binaryCell.write cell, c = '0' ∨ c = '1') ↔
      0 ≤ cell ∧ cell ≤ 0xff := by
  have hfull := @CellFormat.write_full_iff _ CellFormat.binaryCell_isReadable
    (fun c => c = '0' ∨ c = '1') (by decide) (by decide) (by decide) cell
  have hpower : (binaryCell.base : Int) ^ binaryCell.width = 0x100 := by decide
  rw [hpower] at hfull
  exact hfull.trans (and_congr_right' (by omega))

/-- Reading a cell as a numeral gives it back exactly if it is not negative. -/
theorem read?_hexadecimalCell_iff (cell : Int) :
    Hexadecimal.read? (hexadecimalCell.write cell) = some cell ↔ 0 ≤ cell := by
  constructor
  · intro hread
    apply Hexadecimal.read?_nonneg hread
    intro hdash
    rcases CellFormat.mem_write CellFormat.hexadecimalCell_isReadable hdash with
      ⟨digit, hdigit, hequal⟩ | ⟨-, hletter⟩
    · have hisDigit := Hexadecimal.isDigit_digitChar hdigit
      rw [← hequal] at hisDigit
      exact absurd hisDigit (by decide)
    · exact absurd hletter (by decide)
  · intro hcell
    have hwrite : hexadecimalCell.write cell = Text.hexPadded 2 cell.natAbs := by
      rw [CellFormat.write, if_neg (not_lt.mpr hcell)]
      rfl
    rw [hwrite, Hexadecimal.read?_padded, Int.natAbs_of_nonneg hcell]

/-- A file that can be read back determines the image. -/
theorem write_eq_write_iff
    {write : Image → Text} {read? : Text → Option Image}
    (hread : ∀ image, read? (write image) = some image) (other image : Image) :
    write other = write image ↔ other = image := by
  refine ⟨?_, congrArg write⟩
  intro hsame
  have hboth := congrArg read? hsame
  rw [hread, hread] at hboth
  exact Option.some.inj hboth

/-! ## Memory files -/

namespace MemoryFile

/-- The line of a cell is read back, and has eight binary digits exactly if the cell is a byte. The
digits alone are the value of a cell that is not negative. -/
structure IsLineOf (cell : Int) (line : Text) : Prop where
  oneLine : SourceLine.IsOneLine line
  read : binaryCell.read? line = some cell
  full_iff :
    line.length = 8 ∧ (∀ c ∈ line, c = '0' ∨ c = '1') ↔ 0 ≤ cell ∧ cell ≤ 0xff
  digits_iff : (readDigits 2 0 line).map Int.ofNat = some cell ↔ 0 ≤ cell
  negative : cell < 0 →
    line = Text.padZeros 8 ('b' :: Nat.toDigits 2 cell.natAbs)

theorem isLineOf_write (cell : Int) : IsLineOf cell (binaryCell.write cell) where
  oneLine := CellFormat.isOneLine_write CellFormat.binaryCell_isReadable cell
  read := CellFormat.read?_write CellFormat.binaryCell_isReadable cell
  full_iff := binaryCell_full_iff cell
  digits_iff := CellFormat.readDigits_write_iff CellFormat.binaryCell_isReadable cell
  negative := by
    intro hnegative
    rw [CellFormat.write, if_pos hnegative]
    rfl

/-- A memory file has one line for each cell, in order, and is read back in base 2 exactly if no
cell is negative. It determines the image in any case. -/
theorem write_lines (image : Image) :
    write image = (write image).lineTexts.flatMap (· ++ ['\n']) ∧
    List.Forall₂ IsLineOf image (write image).lineTexts ∧
    ((write image).lineTexts.mapM (fun line => (readDigits 2 0 line).map Int.ofNat) =
        some image ↔
      ∀ cell ∈ image, 0 ≤ cell) ∧
    ∀ other, write other = write image ↔ other = image := by
  rw [lineTexts_write]
  refine ⟨?_, ?_, ?_, ?_⟩
  · rw [List.flatMap_map]
    rfl
  · rw [List.forall₂_map_right_iff, List.forall₂_same]
    exact fun cell _ => isLineOf_write cell
  · exact CellFormat.mapM_map_write_eq_iff
      (CellFormat.readDigits_write_iff CellFormat.binaryCell_isReadable) image
  · exact fun other => write_eq_write_iff read?_write other image

end MemoryFile

/-! ## Rows -/

namespace Coefficients

theorem length_cutRows (count : Nat) (cells : Image) : (cutRows count cells).length = count := by
  induction count generalizing cells with
  | zero => rfl
  | succ count ih => rw [cutRows, List.length_cons, ih]

theorem length_rows (image : Image) : (rows image).length = (image.length + 63) / 64 :=
  length_cutRows _ image

theorem getElem?_cutRows
    {count row : Nat} (hrow : row < count) (cells : Image) :
    (cutRows count cells)[row]? = some ((cells.drop (rowLength * row)).take rowLength) := by
  induction count generalizing row cells with
  | zero => exact absurd hrow (Nat.not_lt_zero row)
  | succ count ih =>
      cases row with
      | zero => rfl
      | succ row =>
          rw [cutRows, List.getElem?_cons_succ, ih (Nat.lt_of_succ_lt_succ hrow), List.drop_drop,
            Nat.mul_succ, Nat.add_comm]

theorem getElem?_rows
    {image : Image} {row : Nat} (hrow : row < (image.length + 63) / 64) :
    (rows image)[row]? = some ((image.drop (64 * row)).take 64) :=
  getElem?_cutRows hrow image

/-- A cell stands in the row and at the place that its address gives. -/
theorem getElem?_row (image : Image) (address : Nat) :
    ((image.drop (64 * (address / 64))).take 64)[address % 64]? = image[address]? := by
  rw [List.getElem?_take_of_lt (Nat.mod_lt address (by decide)), List.getElem?_drop,
    Nat.div_add_mod]

/-! ## Coefficient files -/

def headerLines : List Text :=
  [";; Distributed Memory Generator COE file".toList,
    ";; \tAddress Size = 65536".toList,
    ";; \tPage Size = 256".toList,
    "memory_initialization_radix = 16;".toList,
    "memory_initialization_vector =".toList]

/-- The address of the first cell of a row, with the mark of the base and at least four digits. -/
def rowAddress (row : Nat) : Text :=
  '0' :: 'x' :: Text.hexPadded 4 (64 * row)

theorem read?_rowAddress (row : Nat) :
    Hexadecimal.read? (rowAddress row) = some (64 * row : Int) :=
  Hexadecimal.read?_marked_padded 4 (64 * row)

def isPageMark (line : Text) : Bool :=
  ";; Begin page ".toList.isPrefixOf line

/-- The token of a cell is read back, and has two digits exactly if the cell is a byte. -/
structure IsTokenOf (cell : Int) (token : Text) : Prop where
  read : hexadecimalCell.read? token = some cell
  full_iff :
    token.length = 2 ∧ (∀ c ∈ token, Hexadecimal.isDigit c = true) ↔ 0 ≤ cell ∧ cell ≤ 0xff

/-- The text is a header with the rows of the image behind it, and every fourth row, from the first
on, has the mark of its page in front. -/
structure IsLayoutOf (image : Image) (text : Text) : Prop where
  text_eq :
    text =
      (headerLines ++
        (dataLines text).zipIdx.flatMap fun (line, row) =>
          (if row % 4 = 0 then [";; Begin page ".toList ++ rowAddress row ++ ['.']] else []) ++
            [line]).flatMap (· ++ ['\n'])
  rowCount : (dataLines text).length = (image.length + 63) / 64
  markCount : (text.lineTexts.filter isPageMark).length = (image.length + 255) / 256
  tokenCount : ∀ row line, (dataLines text)[row]? = some line →
    line = Text.join [' '] line.words ∧ line.words.length = min 64 (image.length - 64 * row)
  token : ∀ address cell, image[address]? = some cell →
    ∃ line token,
      (dataLines text)[address / 64]? = some line ∧
      line.words[address % 64]? = some token ∧
      IsTokenOf cell token

def rowTexts (image : Image) : List Text :=
  (rows image).map fun cells => Text.join [' '] (rowTokens cells)

theorem dataLines_write (image : Image) : dataLines (write image) = rowTexts image := by
  calc
    dataLines (write image)
      = (rows image).zipIdx.flatMap fun numbered =>
          [Text.join [' '] (rowTokens numbered.1)] := by
        rw [dataLines, lineTexts_write, List.filter_flatMap]
        exact List.flatMap_congr fun numbered _ => filter_rowLines numbered
    _ = ((rows image).zipIdx.map Prod.fst).map fun cells =>
          Text.join [' '] (rowTokens cells) := by
        rw [← List.map_eq_flatMap, List.map_map]
        rfl
    _ = rowTexts image := by rw [List.zipIdx_map_fst, rowTexts]

theorem write_eq_lines (image : Image) :
    write image =
      (headerLines ++ (rows image).zipIdx.flatMap rowLines).flatMap (· ++ ['\n']) := by
  have hheader : header = headerLines.flatMap (· ++ ['\n']) := by decide +kernel
  rw [write, hheader, List.flatMap_append, List.flatMap_assoc]
  exact congrArg _ (List.flatMap_congr fun numbered _ => rowText_eq numbered)

theorem lineTexts_write_eq (image : Image) :
    (write image).lineTexts = headerLines ++ (rows image).zipIdx.flatMap rowLines := by
  have hheader : (headerLines.all fun line => decide (SourceLine.IsOneLine line)) = true := rfl
  rw [write_eq_lines, Text.lineTexts_flatMap]
  intro line hline
  rcases List.mem_append.mp hline with hmem | hmem
  · exact of_decide_eq_true (List.all_eq_true.mp hheader line hmem)
  · obtain ⟨numbered, -, hrow⟩ := List.mem_flatMap.mp hmem
    exact isOneLine_of_mem_rowLines hrow

/-- A mark stands for every page that has begun. -/
theorem length_flatMap_pageMarkLine (count : Nat) :
    ((List.range count).flatMap fun row =>
      if row % 4 = 0 then [pageMarkLine row] else []).length = (count + 3) / 4 := by
  induction count with
  | zero => rfl
  | succ count ih =>
      rw [List.range_succ, List.flatMap_append, List.length_append, ih, List.flatMap_singleton]
      split
      · rw [List.length_singleton]
        omega
      · rw [List.length_nil]
        omega

theorem filter_isPageMark_rowLines (numbered : List Int × Nat) :
    (rowLines numbered).filter isPageMark =
      if numbered.2 % 4 = 0 then [pageMarkLine numbered.2] else [] := by
  have hmark : isPageMark (pageMarkLine numbered.2) = true := rfl
  have hrow : isPageMark (Text.join [' '] (rowTokens numbered.1)) = false := by
    have hhead := head?_join_rowTokens_ne numbered.1
    cases hline : Text.join [' '] (rowTokens numbered.1) with
    | nil => rfl
    | cons c rest =>
        have hc : ';' ≠ c := fun hequal => hhead (by rw [hline, hequal]; rfl)
        simp [isPageMark, List.isPrefixOf, hc]
  unfold rowLines pageRows
  split <;> simp [hmark, hrow]

theorem length_filter_isPageMark (image : Image) :
    ((write image).lineTexts.filter isPageMark).length = (image.length + 255) / 256 := by
  have hheader : headerLines.filter isPageMark = [] := rfl
  have hmarks : ((rows image).zipIdx.flatMap rowLines).filter isPageMark =
      (List.range (rows image).length).flatMap fun row =>
        if row % 4 = 0 then [pageMarkLine row] else [] := by
    calc
      ((rows image).zipIdx.flatMap rowLines).filter isPageMark
        = (rows image).zipIdx.flatMap fun numbered =>
            if numbered.2 % 4 = 0 then [pageMarkLine numbered.2] else [] := by
          rw [List.filter_flatMap]
          exact List.flatMap_congr fun numbered _ => filter_isPageMark_rowLines numbered
      _ = ((rows image).zipIdx.map Prod.snd).flatMap fun row =>
            if row % 4 = 0 then [pageMarkLine row] else [] := by rw [List.flatMap_map]
      _ = _ := by rw [List.zipIdx_map_snd, ← List.range_eq_range']
  rw [lineTexts_write_eq, List.filter_append, hheader, List.nil_append, hmarks,
    length_flatMap_pageMarkLine, length_rows]
  omega

theorem isLayoutOf_write (image : Image) : IsLayoutOf image (write image) where
  text_eq := by
    rw [dataLines_write, rowTexts, List.zipIdx_map, List.flatMap_map]
    exact write_eq_lines image
  rowCount := by rw [dataLines_write, rowTexts, List.length_map, length_rows]
  markCount := length_filter_isPageMark image
  tokenCount := by
    intro row line hline
    rw [dataLines_write, rowTexts, List.getElem?_map] at hline
    obtain ⟨cells, hcells, rfl⟩ := Option.map_eq_some_iff.mp hline
    have hrow : row < (image.length + 63) / 64 := by
      rw [← length_rows]
      exact (List.getElem?_eq_some_iff.mp hcells).1
    rw [getElem?_rows hrow] at hcells
    obtain rfl := Option.some.inj hcells
    rw [words_join_rowTokens]
    refine ⟨rfl, ?_⟩
    rw [rowTokens, List.length_map, List.length_take, List.length_drop]
  token := by
    intro address cell hcell
    have hbound : address < image.length := (List.getElem?_eq_some_iff.mp hcell).1
    have hrow : address / 64 < (image.length + 63) / 64 := by omega
    refine ⟨Text.join [' '] (rowTokens ((image.drop (64 * (address / 64))).take 64)),
      hexadecimalCell.write cell, ?_, ?_, ?_, hexadecimalCell_full_iff cell⟩
    · rw [dataLines_write, rowTexts, List.getElem?_map, getElem?_rows hrow, Option.map_some]
    · rw [words_join_rowTokens, rowTokens, List.getElem?_map, getElem?_row, hcell]
      rfl
    · exact CellFormat.read?_write CellFormat.hexadecimalCell_isReadable cell

/-- The coefficient file has its layout for every image, and the address of a row is a numeral.
Reading the words of the file in base 16 gives back the image exactly if no cell is negative, and
the file determines the image in any case. -/
theorem write_layout (image : Image) :
    IsLayoutOf image (write image) ∧
    (∀ row : Nat, Hexadecimal.read? (rowAddress row) = some (64 * row : Int)) ∧
    (((dataLines (write image)).flatMap Text.words).mapM Hexadecimal.read? = some image ↔
      ∀ cell ∈ image, 0 ≤ cell) ∧
    ∀ other, write other = write image ↔ other = image := by
  refine ⟨isLayoutOf_write image, read?_rowAddress, ?_, ?_⟩
  · rw [words_dataLines_write]
    exact CellFormat.mapM_map_write_eq_iff read?_hexadecimalCell_iff image
  · exact fun other => write_eq_write_iff read?_write other image

end Coefficients

end Listing

end Assembler6502
