import Assembler6502.Proofs.TextShape
import Assembler6502.Proofs.TouchedFiles

/-!
# The names of the output files

The extension of a path is taken off, and another one is put on for the coefficient file. For the
memory file this is done once more, with the name of the coefficient file as the path. The second
time takes off what the first one has put on, unless the name in front of it has nothing but dots:
then the dot of the extension is one of the leading dots of a name, which start no extension. The
two names differ in any case.
-/

namespace Assembler6502

open Text

namespace Path

/-! ## The last mark of a text -/

theorem cutLast?_append_mark
    {mark : Char} {last : Text} (first : Text) (hlast : mark ∉ last) :
    cutLast? mark (first ++ mark :: last) = some (first, last) := by
  have hreverse : (first ++ mark :: last).reverse = last.reverse ++ mark :: first.reverse := by simp
  have hfree : mark ∉ last.reverse := by simpa using hlast
  rw [cutLast?, hreverse, cut?_append_mark hfree]
  simp

theorem cutLast?_of_not_mem {mark : Char} {text : Text} (htext : mark ∉ text) :
    cutLast? mark text = none := by
  have hfree : mark ∉ text.reverse := by simpa using htext
  rw [cutLast?, cut?_of_not_mem hfree]
  rfl

theorem exists_last_mark {mark : Char} {text : Text} (hmem : mark ∈ text) :
    ∃ first last, text = first ++ mark :: last ∧ mark ∉ last := by
  obtain ⟨last, first, hreverse, hlast⟩ := List.eq_append_cons_of_mem (List.mem_reverse.mpr hmem)
  refine ⟨first.reverse, last.reverse, ?_, by simpa using hlast⟩
  have htext := congrArg List.reverse hreverse
  simpa using htext

/-! ## Names and extensions -/

/-- A path in two parts: its folders, with the slash that ends them, and its last name. -/
structure IsSplit (path folders name : Text) : Prop where
  path_eq : path = folders ++ name
  folders_end : folders = [] ∨ ['/'] <:+ folders
  noSlash : '/' ∉ name

/-- The path has an extension, which starts at the last dot of its last name. Something other than
dots comes before it in the name. -/
structure HasExtension (path base extension : Text) : Prop where
  path_eq : path = base ++ '.' :: extension
  noDot : '.' ∉ extension
  noSlash : '/' ∉ extension
  named : ∃ folders name, IsSplit base folders name ∧ ∃ c ∈ name, c ≠ '.'

/-- The path without its extension, which is all of it if it has none. -/
def IsStem (path base : Text) : Prop :=
  (∃ extension, HasExtension path base extension) ∨
    base = path ∧ ∀ other extension, ¬HasExtension path other extension

variable {path base folders name extension : Text}

theorem exists_isSplit (path : Text) : ∃ folders name, IsSplit path folders name := by
  by_cases hslash : '/' ∈ path
  · obtain ⟨front, name, rfl, hname⟩ := exists_last_mark hslash
    exact ⟨front ++ ['/'], name, by simp, .inr (List.suffix_append front _), hname⟩
  · exact ⟨[], path, rfl, .inl rfl, hslash⟩

theorem IsSplit.splitName_eq (hsplit : IsSplit path folders name) :
    splitName path = (folders, name) := by
  obtain ⟨rfl, hfolders, hname⟩ := hsplit
  rcases hfolders with rfl | ⟨front, rfl⟩
  · rw [List.nil_append, splitName, cutLast?_of_not_mem hname]
  · rw [List.append_assoc, List.singleton_append, splitName, cutLast?_append_mark front hname]

theorem IsSplit.append
    (hsplit : IsSplit path folders name) {ending : Text} (hending : '/' ∉ ending) :
    IsSplit (path ++ ending) folders (name ++ ending) := by
  refine ⟨?_, hsplit.folders_end, ?_⟩
  · rw [hsplit.path_eq, List.append_assoc]
  · rw [List.mem_append, not_or]
    exact ⟨hsplit.noSlash, hending⟩

/-! ## Stems -/

theorem any_ne_dot_iff : name.any (· ≠ '.') = true ↔ ∃ c ∈ name, c ≠ '.' := by
  simp only [List.any_eq_true, decide_eq_true_eq]

theorem stem_append_extension
    (hsplit : IsSplit base folders name) (hdot : '.' ∉ extension) (hslash : '/' ∉ extension) :
    stem (base ++ '.' :: extension) =
      if name.any (· ≠ '.') then base else base ++ '.' :: extension := by
  have hending : '/' ∉ '.' :: extension := by simpa using hslash
  simp only [stem, (hsplit.append hending).splitName_eq, cutLast?_append_mark name hdot,
    ← hsplit.path_eq]

theorem HasExtension.stem_eq (hpath : HasExtension path base extension) : stem path = base := by
  obtain ⟨folders, name, hsplit, hsolid⟩ := hpath.named
  rw [hpath.path_eq, stem_append_extension hsplit hpath.noDot hpath.noSlash,
    if_pos (any_ne_dot_iff.mpr hsolid)]

theorem stem_eq_self (hpath : ∀ base extension, ¬HasExtension path base extension) :
    stem path = path := by
  obtain ⟨folders, name, hsplit⟩ := exists_isSplit path
  by_cases hdot : '.' ∈ name
  · obtain ⟨base, extension, rfl, hextension⟩ := exists_last_mark hdot
    have hslash := hsplit.noSlash
    rw [List.mem_append, List.mem_cons, not_or, not_or] at hslash
    have hbase : IsSplit (folders ++ base) folders base := ⟨rfl, hsplit.folders_end, hslash.1⟩
    -- With something other than dots before it, the last dot would start an extension.
    have hdots : ¬base.any (· ≠ '.') = true := by
      rw [any_ne_dot_iff]
      intro hsolid
      have hparts : path = folders ++ base ++ '.' :: extension := by
        rw [hsplit.path_eq, List.append_assoc]
      exact hpath (folders ++ base) extension
        ⟨hparts, hextension, hslash.2.2, folders, base, hbase, hsolid⟩
    rw [hsplit.path_eq, ← List.append_assoc, stem_append_extension hbase hextension hslash.2.2,
      if_neg hdots]
  · simp only [stem, hsplit.splitName_eq, cutLast?_of_not_mem hdot]

theorem isStem_iff : IsStem path base ↔ stem path = base := by
  constructor
  · rintro (⟨extension, hextension⟩ | ⟨rfl, hnone⟩)
    · exact hextension.stem_eq
    · exact stem_eq_self hnone
  · rintro rfl
    by_cases hsome : ∃ other extension, HasExtension path other extension
    · obtain ⟨other, extension, hextension⟩ := hsome
      rw [hextension.stem_eq]
      exact .inl ⟨extension, hextension⟩
    · have hnone : ∀ other extension, ¬HasExtension path other extension := fun other extension h =>
        hsome ⟨other, extension, h⟩
      exact .inr ⟨stem_eq_self hnone, hnone⟩

end Path

namespace CommandLine

open Listing

namespace Settings

variable {settings : Settings} {path base folders name : Text}

/-- The path from which the names of the files are made: the one that is given for the output, and
otherwise the source. -/
def TakesNamesFrom (settings : Settings) (path : Text) : Prop :=
  settings.output = some path ∨
    (settings.output = none ∨ settings.output = some []) ∧ settings.source = path

theorem TakesNamesFrom.basePath_eq (htakes : settings.TakesNamesFrom path) (hpath : path ≠ []) :
    settings.basePath = path := by
  obtain ⟨c, rest, rfl⟩ := List.exists_cons_of_ne_nil hpath
  rcases htakes with houtput | ⟨houtput | houtput, hsource⟩
  · simp [basePath, houtput]
  · simp [basePath, houtput, hsource]
  · simp [basePath, houtput, hsource]

theorem memoryPath_eq (hpath : settings.coefficientsPath = base ++ ".coe".toList)
    (hsplit : Path.IsSplit base folders name) :
    settings.memoryPath =
      if name.any (· ≠ '.') then base ++ ".mif".toList else base ++ ".coe.mif".toList := by
  have hstem : Path.stem (base ++ ".coe".toList) =
      if name.any (· ≠ '.') then base else base ++ ".coe".toList :=
    Path.stem_append_extension hsplit (by decide) (by decide)
  rw [memoryPath, hpath, hstem]
  split
  · rfl
  · exact List.append_assoc base _ _

theorem coefficientsPath_ne_memoryPath (settings : Settings) :
    settings.coefficientsPath ≠ settings.memoryPath := by
  intro hsame
  exact settings.getLast?_steps_ne (by rw [hsame])

variable {disk : Disk}

theorem exists_image_of_run (hresult : (settings.run disk).2.result = .ok ()) :
    ∃ image,
      settings.IsImage disk image ∧
      (settings.run disk).1.look settings.coefficientsPath = .file (Coefficients.write image) ∧
      (settings.coeOnly = false →
        (settings.run disk).1.look settings.memoryPath = .file (MemoryFile.write image)) := by
  obtain ⟨image, himage⟩ := exists_isImage_of_run hresult
  obtain ⟨written, hwrite, hafter⟩ := (run_eq_ok_iff himage _).mp ⟨hresult, rfl⟩
  refine ⟨image, himage, look_coefficientsPath_run himage hwrite, ?_⟩
  intro hboth
  rw [hboth] at hafter
  exact Disk.look_write hafter

end Settings

/-- The coefficient file has the name of the output without its extension and its own extension
behind it. The memory file has the same name with another extension exactly if the last name of this
path has something other than dots. Otherwise it has the extension behind that of the coefficient
file. The names differ, nothing is written under any other, and a run that ends well has written
both files, or the first one if the second is not wanted. -/
theorem run_output_names
    {arguments : List Text} {settings : Settings} {path : Text}
    (hsettings : readSettings arguments = .ok settings)
    (htakes : settings.TakesNamesFrom path) (hpath : path ≠ []) (disk : Disk) :
    ∃ base folders name,
      Path.IsStem path base ∧
      Path.IsSplit base folders name ∧
      settings.coefficientsPath = base ++ ".coe".toList ∧
      (settings.memoryPath = base ++ ".mif".toList ↔ ∃ c ∈ name, c ≠ '.') ∧
      ((¬∃ c ∈ name, c ≠ '.') → settings.memoryPath = base ++ ".coe.mif".toList) ∧
      settings.coefficientsPath ≠ settings.memoryPath ∧
      disk.DiffersOnlyAt (run arguments disk).disk settings.outputPaths ∧
      ((run arguments disk).ending = .exit 0 →
        ∃ image,
          settings.IsImage disk image ∧
          (run arguments disk).disk.look settings.coefficientsPath =
            .file (Coefficients.write image) ∧
          (settings.coeOnly = false →
            (run arguments disk).disk.look settings.memoryPath =
              .file (MemoryFile.write image))) := by
  obtain ⟨folders, name, hsplit⟩ := Path.exists_isSplit (Path.stem path)
  have hcoefficients : settings.coefficientsPath = Path.stem path ++ ".coe".toList := by
    rw [Settings.coefficientsPath, htakes.basePath_eq hpath]
  have hmemory := Settings.memoryPath_eq hcoefficients hsplit
  obtain ⟨hdisk, hexit⟩ := run_of_readSettings hsettings disk
  rw [hdisk]
  refine ⟨Path.stem path, folders, name, Path.isStem_iff.mpr rfl, hsplit, hcoefficients, ?_, ?_,
    settings.coefficientsPath_ne_memoryPath, settings.differsOnlyAt_run disk, ?_⟩
  · rw [hmemory, ← Path.any_ne_dot_iff]
    split
    next hsolid => exact iff_of_true rfl hsolid
    next hdots => simpa using hdots
  · intro hdots
    rw [hmemory, if_neg (mt Path.any_ne_dot_iff.mp hdots)]
  · exact fun hending => Settings.exists_image_of_run (hexit.mp hending)

/-- The path for the output has a name of two dots, so the memory file keeps the extension of the
coefficient file. -/
theorem run_output_names_dots :
    let source := ".org $8000\nlda #$100\n".toList
    let note := ["out".toList, "note".toList]
    let disk : Disk := ⟨[(["prog.asm".toList], source), (note, [])]⟩
    let arguments := ["--output=out/..".toList, "prog.asm".toList]
    let settings : Settings := ⟨"prog.asm".toList, none, some "out/..".toList, false, false⟩
    readSettings arguments = .ok settings ∧
      settings.TakesNamesFrom "out/..".toList ∧
      settings.memoryPath = "out/...coe.mif".toList ∧
      (run arguments disk).ending = .exit 0 ∧
      ∃ image,
        settings.IsImage disk image ∧
        (run arguments disk).disk.look "out/...coe".toList = .file (Coefficients.write image) ∧
        (run arguments disk).disk.look "out/...coe.mif".toList =
          .file (MemoryFile.write image) := by
  intro source note disk arguments settings
  let segment : Segment := ⟨0x8000, [⟨2, "lda #$100".toList⟩]⟩
  have hsettings : readSettings arguments = .ok settings := rfl
  have htakes : settings.TakesNamesFrom "out/..".toList := .inl rfl
  have hsegments : Segment.ofFile source = .ok [segment] :=
    congrArg Except.ok (List.mergeSort_singleton segment)
  have himage : settings.IsImage disk (Image.blank.layAll [segment]) :=
    ⟨source, _, rfl, Image.assemble_of_singleton hsegments rfl false, rfl⟩
  obtain ⟨base, folders, name, hstem, hsplit, hcoefficients, -, hdots, -, -, hfiles⟩ :=
    run_output_names hsettings htakes (by decide) disk
  obtain rfl : "out/..".toList = base := Path.isStem_iff.mp hstem
  obtain ⟨rfl, rfl⟩ : "out/".toList = folders ∧ "..".toList = name :=
    Prod.mk.inj hsplit.splitName_eq
  have hmemory : settings.memoryPath = "out/...coe.mif".toList := hdots (by simp)
  replace hcoefficients : settings.coefficientsPath = "out/...coe".toList := hcoefficients
  have hfirst (content : Text) : disk.write settings.coefficientsPath content =
      .ok ⟨[(["prog.asm".toList], source), (note, []),
        (["out".toList, "...coe".toList], content)]⟩ := by
    rw [hcoefficients]
    rfl
  have hsecond (content memory : Text) :
      Disk.write ⟨[(["prog.asm".toList], source), (note, []),
        (["out".toList, "...coe".toList], content)]⟩ settings.memoryPath memory =
      .ok ⟨[(["prog.asm".toList], source), (note, []),
        (["out".toList, "...coe".toList], content),
        (["out".toList, "...coe.mif".toList], memory)]⟩ := by
    rw [hmemory]
    rfl
  have hresult : (settings.run disk).2.result = .ok () :=
    ((Settings.run_eq_ok_iff himage _).mpr
      ⟨_, hfirst _, (if_neg Bool.false_ne_true).mpr (hsecond _ _)⟩).1
  have hending := (run_of_readSettings hsettings disk).2.mpr hresult
  obtain ⟨image, hsame, hlook, hlookMemory⟩ := hfiles hending
  rw [hcoefficients] at hlook
  rw [hmemory] at hlookMemory
  exact ⟨hsettings, htakes, hmemory, hending, image, hsame, hlook, hlookMemory rfl⟩

end CommandLine

end Assembler6502
