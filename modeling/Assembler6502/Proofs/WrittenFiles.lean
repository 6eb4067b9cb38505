import Assembler6502.CommandLine.Run
import Assembler6502.Proofs.ByteCells
import Assembler6502.Proofs.DiskWrites
import Assembler6502.Proofs.ListingReaders

/-!
# The files of a run

A run that ends well has an image, which comes from the source and the map as they were before
anything was written. Both files hold this image, even where they take the places of the source and
the map, because the two names never lead to one place.
-/

namespace Assembler6502

theorem Image.setCell_last {image : Image} (hcells : 0 < image.length) (value : Int) :
    image.setCell (-1) value = .ok (image.set (image.length - 1) value) := by
  have hfits : Image.fitsWord (-1) = true := rfl
  have hindex : 0 ≤ (-1 : Int) + image.length ∧ (-1 : Int) + image.length < image.length := by
    omega
  have hlast : ((-1 : Int) + image.length).toNat = image.length - 1 := by omega
  simp only [Image.setCell, hfits, Bool.not_true, Bool.false_eq_true, if_false, Int.reduceNeg,
    Int.reduceLT, if_true, if_pos hindex, hlast]

namespace CommandLine

open Listing

namespace Settings

/-! ## The image -/

def IsMapped (settings : Settings) (disk : Disk) (cells image : Image) : Prop :=
  match settings.map with
  | none | some [] => image = cells
  | some path =>
    ∃ content, disk.look path = .file content ∧ MemoryMap.applyFile cells content = (image, .ok ())

/-- The image of the files on a disk: the source assembled, and the map applied if there is one. -/
def IsImage (settings : Settings) (disk : Disk) (image : Image) : Prop :=
  ∃ content cells,
    disk.look settings.source = .file content ∧
    (Image.assemble content settings.quiet).result = .ok cells ∧
    settings.IsMapped disk cells image

theorem applyMap_some_eq_ok_iff
    (settings : Settings) (disk : Disk) (cells : Image) (mapped : Option Image) :
    settings.applyMap disk.look (some cells) = .ok mapped ↔
      ∃ image, mapped = some image ∧ settings.IsMapped disk cells image := by
  unfold applyMap IsMapped
  rcases settings.map with _ | _ | ⟨first, rest⟩
  · simp [eq_comm]
  · simp [eq_comm]
  · cases hlook : disk.look (first :: rest) with
    | absent => simp [hlook]
    | folder => simp [hlook]
    | file content =>
        rcases happly : MemoryMap.applyFile cells content with ⟨changed, _ | _⟩
        · simp [hlook, happly]
        · simp [hlook, happly, eq_comm]

theorem applyMap_none_ne_some
    (settings : Settings) (disk : Disk) (image : Image) :
    settings.applyMap disk.look none ≠ .ok (some image) := by
  unfold applyMap
  rcases settings.map with _ | _ | ⟨first, rest⟩
  · simp
  · simp
  · cases hlook : disk.look (first :: rest) <;> simp [hlook]

theorem makeImage_result
    (settings : Settings) (disk : Disk) (image : Image) :
    (settings.makeImage disk.look).result = .ok image ↔
      (settings.assembleSource disk.look).result.bind (settings.applyMap disk.look) =
        .ok (some image) := by
  cases hmapped : (settings.assembleSource disk.look).result.bind (settings.applyMap disk.look) with
  | error failure => simp [makeImage, hmapped]
  | ok mapped => cases mapped <;> simp [makeImage, hmapped]

theorem makeImage_eq_ok_iff
    (settings : Settings) (disk : Disk) (image : Image) :
    (settings.makeImage disk.look).result = .ok image ↔ settings.IsImage disk image := by
  rw [makeImage_result]
  unfold assembleSource IsImage
  by_cases hsource : settings.source = []
  · -- The empty path leads nowhere, so there is no such file either.
    have habsent : disk.look [] = .absent := rfl
    simp [hsource, habsent, Except.bind, applyMap_none_ne_some]
  · rw [if_neg hsource]
    cases hlook : disk.look settings.source with
    | absent => simp [Except.bind]
    | folder => simp [Except.bind]
    | file content =>
        cases hassemble : (Image.assemble content settings.quiet).result with
        | error problem => simp [hassemble, Except.bind, Except.mapError, Except.map]
        | ok cells =>
            simp [hassemble, Except.bind, Except.mapError, Except.map, applyMap_some_eq_ok_iff]

theorem IsImage.unique
    {settings : Settings} {disk : Disk} {image other : Image}
    (himage : settings.IsImage disk image) (hother : settings.IsImage disk other) :
    image = other := by
  rw [← makeImage_eq_ok_iff] at himage hother
  exact Except.ok.inj (himage.symm.trans hother)

/-! ## The names of the files -/

theorem getLast?_steps_ne (settings : Settings) :
    (Path.steps settings.memoryPath).getLast? ≠
      (Path.steps settings.coefficientsPath).getLast? := by
  obtain ⟨memory, hmemory⟩ := Path.exists_getLast?_steps
    (Path.stem settings.coefficientsPath) (show '/' ∉ ".mif".toList by decide)
  obtain ⟨coefficients, hcoefficients⟩ := Path.exists_getLast?_steps
    (Path.stem settings.basePath) (show '/' ∉ ".coe".toList by decide)
  rw [memoryPath, hmemory, coefficientsPath, hcoefficients]
  intro hsame
  have hends := congrArg List.getLast? (Option.some.inj hsame)
  rw [List.getLast?_append_of_ne_nil _ (by decide),
    List.getLast?_append_of_ne_nil _ (by decide)] at hends
  exact absurd hends (by decide)

/-! ## Writing the files -/

variable {settings : Settings} {disk written : Disk} {image : Image}

theorem run_of_isImage (himage : settings.IsImage disk image) :
    (settings.run disk).1 = (writeOutputs settings.quiet disk (settings.outputs image)).1 ∧
      (settings.run disk).2.result =
        (writeOutputs settings.quiet disk (settings.outputs image)).2.result := by
  have hmade := (settings.makeImage_eq_ok_iff disk image).mpr himage
  simp [run, hmade, Report.preceded]

theorem exists_isImage_of_run (hresult : (settings.run disk).2.result = .ok ()) :
    ∃ image, settings.IsImage disk image := by
  cases hmade : (settings.makeImage disk.look).result with
  | error failure => simp [run, hmade] at hresult
  | ok image => exact ⟨image, (settings.makeImage_eq_ok_iff disk image).mp hmade⟩

theorem run_eq_ok_iff (himage : settings.IsImage disk image) (after : Disk) :
    ((settings.run disk).2.result = .ok () ∧ (settings.run disk).1 = after) ↔
      ∃ written,
        disk.write settings.coefficientsPath (Coefficients.write image) = .ok written ∧
        if settings.coeOnly then after = written
        else written.write settings.memoryPath (MemoryFile.write image) = .ok after := by
  obtain ⟨hdisk, hresult⟩ := run_of_isImage himage
  rw [hdisk, hresult, outputs]
  cases hwrite : disk.write settings.coefficientsPath (Coefficients.write image) with
  | error fault => simp [writeOutputs, hwrite]
  | ok written =>
      cases settings.coeOnly with
      | true => simp [writeOutputs, hwrite, Report.preceded, eq_comm]
      | false =>
          cases hmemory : written.write settings.memoryPath (MemoryFile.write image) with
          | error fault => simp [writeOutputs, hwrite, hmemory, Report.preceded]
          | ok last => simp [writeOutputs, hwrite, hmemory, Report.preceded]

/-- The coefficient file is written first. Writing the memory file, whether that works or not,
leaves it as it is. -/
theorem look_coefficientsPath_run
    (himage : settings.IsImage disk image)
    (hwrite : disk.write settings.coefficientsPath (Coefficients.write image) = .ok written) :
    (settings.run disk).1.look settings.coefficientsPath =
      .file (Coefficients.write image) := by
  have hlook := Disk.look_write hwrite
  rw [(run_of_isImage himage).1, outputs]
  cases settings.coeOnly with
  | true => simpa [writeOutputs, hwrite] using hlook
  | false =>
      cases hmemory : written.write settings.memoryPath (MemoryFile.write image) with
      | error fault => simpa [writeOutputs, hwrite, hmemory] using hlook
      | ok after =>
          have hkept := Disk.look_write_of_getLast?_ne hmemory settings.getLast?_steps_ne
          simpa [writeOutputs, hwrite, hmemory] using hkept.trans hlook

end Settings

/-! ## The whole command line -/

theorem run_of_readSettings
    {arguments : List Text} {settings : Settings} (hsettings : readSettings arguments = .ok settings)
    (disk : Disk) :
    (run arguments disk).disk = (settings.run disk).1 ∧
      ((run arguments disk).ending = .exit 0 ↔ (settings.run disk).2.result = .ok ()) := by
  unfold run
  rw [hsettings]
  refine ⟨rfl, ?_⟩
  cases hresult : (settings.run disk).2.result with
  | error failure => simp [hresult]
  | ok done => simp [hresult]

/-- After a run that ends well, the coefficient file reads as the image of the source and the map
as they were before the run, and so does the memory file if it is wanted. If it is not wanted, the
coefficient file is all that was written, and its text is the one that is written together with a
memory file. -/
theorem run_files
    {arguments : List Text} {settings : Settings} {disk : Disk}
    (hsettings : readSettings arguments = .ok settings)
    (hending : (run arguments disk).ending = .exit 0) :
    ∃ image,
      settings.IsImage disk image ∧
      (∃ text,
        (run arguments disk).disk.look settings.coefficientsPath = .file text ∧
        Coefficients.read? text = some image) ∧
      (settings.coeOnly = false →
        ∃ text,
          (run arguments disk).disk.look settings.memoryPath = .file text ∧
          MemoryFile.read? text = some image) ∧
      (settings.coeOnly = true →
        (∃ text, disk.write settings.coefficientsPath text = .ok (run arguments disk).disk) ∧
        (run arguments disk).disk.look settings.memoryPath = disk.look settings.memoryPath ∧
        ({ settings with coeOnly := false }.run disk).1.look settings.coefficientsPath =
          (run arguments disk).disk.look settings.coefficientsPath) := by
  obtain ⟨hdisk, hexit⟩ := run_of_readSettings hsettings disk
  have hresult := hexit.mp hending
  obtain ⟨image, himage⟩ := Settings.exists_isImage_of_run hresult
  obtain ⟨written, hwrite, hafter⟩ := (Settings.run_eq_ok_iff himage _).mp ⟨hresult, rfl⟩
  have hcoefficients := Settings.look_coefficientsPath_run himage hwrite
  rw [hdisk]
  refine ⟨image, himage, ⟨_, hcoefficients, Coefficients.read?_write image⟩, ?_, ?_⟩
  · intro hboth
    rw [hboth] at hafter
    exact ⟨_, Disk.look_write hafter, MemoryFile.read?_write image⟩
  · intro honly
    rw [honly] at hafter
    have hsame : (settings.run disk).1 = written := hafter
    refine ⟨⟨_, by rw [hsame]; exact hwrite⟩, ?_, ?_⟩
    · rw [hsame]
      exact Disk.look_write_of_getLast?_ne hwrite settings.getLast?_steps_ne.symm
    · -- The image and the coefficient file do not depend on whether a memory file is wanted.
      have himageBoth : { settings with coeOnly := false }.IsImage disk image := himage
      rw [hcoefficients]
      exact Settings.look_coefficientsPath_run himageBoth hwrite

/-- Both files take the places of the files that they are made from, and the map sets a cell to a
number that is no byte. -/
theorem run_files_over_inputs :
    let source := ".org $8000\nlda #$100\n".toList
    let map := "$-1 $-5\n".toList
    let disk : Disk := ⟨[(["prog.coe".toList], source), (["prog.mif".toList], map)]⟩
    let arguments := ["prog.coe".toList, "-m".toList, "prog.mif".toList]
    let settings : Settings := ⟨"prog.coe".toList, some "prog.mif".toList, none, false, false⟩
    readSettings arguments = .ok settings ∧
      (run arguments disk).ending = .exit 0 ∧
      ∃ image coefficients memory,
        settings.IsImage disk image ∧
        (run arguments disk).disk.look "prog.coe".toList = .file coefficients ∧
        Coefficients.read? coefficients = some image ∧
        (run arguments disk).disk.look "prog.mif".toList = .file memory ∧
        MemoryFile.read? memory = some image ∧
        -5 ∈ image := by
  intro source map disk arguments settings
  let segment : Segment := ⟨0x8000, [⟨2, "lda #$100".toList⟩]⟩
  let cells := Image.blank.layAll [segment]
  have hsettings : readSettings arguments = .ok settings := rfl
  have hsegments : Segment.ofFile source = .ok [segment] :=
    congrArg Except.ok (List.mergeSort_singleton segment)
  have hlength : 0x10000 ≤ cells.length := by
    have hgrows := Image.length_le_length_layAll Image.blank [segment]
    rwa [Image.length_blank] at hgrows
  have hlines : Text.lines map = [map] := rfl
  have hread : MemoryMap.readLine map = .ok (some (-1, -5)) := rfl
  have hmap {image : Image} (hcells : 0 < image.length) :
      MemoryMap.applyFile image map = (image.set (image.length - 1) (-5), .ok ()) := by
    have hline : MemoryMap.applyLine image map = .ok (image.set (image.length - 1) (-5)) := by
      rw [MemoryMap.applyLine, hread]
      exact Image.setCell_last hcells (-5)
    rw [MemoryMap.applyFile, hlines, MemoryMap.applyLines, hline]
    rfl
  have himage : settings.IsImage disk (cells.set (cells.length - 1) (-5)) :=
    ⟨source, cells, rfl, Image.assemble_of_singleton hsegments rfl false, map, rfl,
      hmap (by omega)⟩
  have hfirst (content : Text) : disk.write settings.coefficientsPath content =
      .ok ⟨[(["prog.coe".toList], content), (["prog.mif".toList], map)]⟩ := rfl
  have hpath : settings.memoryPath = "prog.mif".toList := rfl
  have hsecond (content memory : Text) :
      Disk.write ⟨[(["prog.coe".toList], content), (["prog.mif".toList], map)]⟩
        settings.memoryPath memory =
      .ok ⟨[(["prog.coe".toList], content), (["prog.mif".toList], memory)]⟩ := by
    rw [hpath]
    rfl
  have hresult : (settings.run disk).2.result = .ok () :=
    ((Settings.run_eq_ok_iff himage _).mpr
      ⟨_, hfirst _, (if_neg Bool.false_ne_true).mpr (hsecond _ _)⟩).1
  have hending := (run_of_readSettings hsettings disk).2.mpr hresult
  obtain ⟨image, hsame, ⟨coefficients, hcoefficients, hread⟩, hmemory, -⟩ :=
    run_files hsettings hending
  obtain ⟨memory, hmemory, hreadMemory⟩ := hmemory rfl
  have hcell : -5 ∈ image := by
    rw [hsame.unique himage]
    exact List.mem_set (by omega) _
  exact ⟨hsettings, hending, image, coefficients, memory, hsame, hcoefficients, hread, hmemory,
    hreadMemory, hcell⟩

end CommandLine

end Assembler6502
