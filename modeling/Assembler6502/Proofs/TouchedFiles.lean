import Assembler6502.Proofs.WrittenFiles

/-!
# Files that a run touches

A run writes its files one after the other and stops at the first one that cannot be opened. What
one write leaves alone, a whole run leaves alone: every file but the ones it is asked to write, all
folders, and where every path leads. As nothing is written before the image is complete, a run that
fails leaves the disk as it was, unless the coefficient file is written already and only the memory
file cannot be opened.
-/

namespace Assembler6502

namespace Disk

variable {disk written after : Disk} {path content : Text} {paths others : List Text}

/-! ## Disks that differ in some files -/

/-- Every file is as before, except for those at the places to which the paths lead. Folders and
the places of paths are as before without exception. -/
structure DiffersOnlyAt (disk after : Disk) (paths : List Text) : Prop where
  files : ∀ place, (∀ path ∈ paths, disk.resolve path ≠ .ok place) →
    after.fileAt? place = disk.fileAt? place
  folders : ∀ place, after.isFolder place = disk.isFolder place
  places : ∀ path place, after.resolve path = .ok place ↔ disk.resolve path = .ok place

theorem DiffersOnlyAt.refl (disk : Disk) (paths : List Text) : disk.DiffersOnlyAt disk paths :=
  ⟨fun _ _ => rfl, fun _ => rfl, fun _ _ => Iff.rfl⟩

theorem DiffersOnlyAt.trans
    (hfirst : disk.DiffersOnlyAt written paths)
    (hsecond : written.DiffersOnlyAt after others) :
    disk.DiffersOnlyAt after (paths ++ others) := by
  refine ⟨?_, ?_, ?_⟩
  · intro place hplace
    obtain ⟨hpaths, hothers⟩ := List.forall_mem_append.mp hplace
    have hsecondFree : ∀ path ∈ others, written.resolve path ≠ .ok place := by
      intro path hpath hresolve
      exact hothers path hpath ((hfirst.places path place).mp hresolve)
    rw [hsecond.files place hsecondFree, hfirst.files place hpaths]
  · intro place
    rw [hsecond.folders, hfirst.folders]
  · intro path place
    rw [hsecond.places, hfirst.places]

theorem differsOnlyAt_write (hwrite : disk.write path content = .ok after) :
    disk.DiffersOnlyAt after [path] := by
  obtain ⟨target, hresolve, hroom, rfl⟩ := write_eq_ok hwrite
  refine ⟨?_, hroom.isFolder_put content, hroom.resolve_put_eq_ok_iff content⟩
  intro place hplace
  have hne : place ≠ target := by
    rintro rfl
    exact hplace path (by simp) hresolve
  rw [fileAt?_put, if_neg hne]

end Disk

namespace CommandLine

open Listing

/-! ## Writing files in order -/

theorem differsOnlyAt_writeOutputs (quiet : Bool) (disk : Disk) (outputs : List Output) :
    disk.DiffersOnlyAt (writeOutputs quiet disk outputs).1 (outputs.map (·.path)) := by
  induction outputs generalizing disk with
  | nil => exact .refl disk []
  | cons output rest ih =>
      cases hwrite : disk.write output.path output.content with
      | error fault =>
          simp only [writeOutputs, hwrite]
          exact .refl disk _
      | ok written =>
          simp only [writeOutputs, hwrite]
          exact (Disk.differsOnlyAt_write hwrite).trans (ih written)

theorem write_eq_ok_of_writeOutputs
    {quiet : Bool} {disk : Disk} {output : Output}
    (hresult : (writeOutputs quiet disk [output]).2.result = .ok ()) :
    disk.write output.path output.content = .ok (writeOutputs quiet disk [output]).1 := by
  cases hwrite : disk.write output.path output.content with
  | error fault => simp [writeOutputs, hwrite] at hresult
  | ok written => simp [writeOutputs, hwrite]

/-- If writing fails, it does so at the first file that cannot be opened. The files before it are
written then, and nothing else is. -/
theorem writeOutputs_eq_error
    {quiet : Bool} {disk : Disk} {outputs : List Output} {failure : Failure}
    (hresult : (writeOutputs quiet disk outputs).2.result = .error failure) :
    ∃ before output later fault,
      outputs = before ++ output :: later ∧
      (writeOutputs quiet disk before).2.result = .ok () ∧
      (writeOutputs quiet disk before).1.write output.path output.content = .error fault ∧
      failure = .unopened fault output.path ∧
      (writeOutputs quiet disk outputs).1 = (writeOutputs quiet disk before).1 := by
  induction outputs generalizing disk with
  | nil => simp [writeOutputs] at hresult
  | cons first rest ih =>
      cases hwrite : disk.write first.path first.content with
      | error fault =>
          refine ⟨[], first, rest, fault, rfl, rfl, hwrite, ?_, ?_⟩
          · simpa [writeOutputs, hwrite, eq_comm] using hresult
          · simp [writeOutputs, hwrite]
      | ok written =>
          have hrest : (writeOutputs quiet written rest).2.result = .error failure := by
            simpa [writeOutputs, hwrite, Report.preceded] using hresult
          obtain ⟨before, output, later, fault, rfl, hbefore, hfault, hfailure, hdisk⟩ := ih hrest
          refine ⟨first :: before, output, later, fault, rfl, ?_, ?_, hfailure, ?_⟩
          · simpa [writeOutputs, hwrite, Report.preceded] using hbefore
          · simpa [writeOutputs, hwrite] using hfault
          · simpa [writeOutputs, hwrite] using hdisk

namespace Settings

variable {settings : Settings} {disk : Disk}

/-! ## Runs that fail -/

/-- The paths that a run may write. -/
def outputPaths (settings : Settings) : List Text :=
  settings.coefficientsPath :: if settings.coeOnly then [] else [settings.memoryPath]

theorem map_path_outputs (settings : Settings) (image : Image) :
    (settings.outputs image).map (·.path) = settings.outputPaths := by
  unfold outputs outputPaths
  cases settings.coeOnly <;> rfl

/-- Two files are written at most, and the second one is the memory file. -/
theorem outputs_eq_cons_append
    {image : Image} {first second : Output} {others later : List Output}
    (hsplit : settings.outputs image = first :: others ++ second :: later) :
    settings.coeOnly = false ∧
      others = [] ∧
      first.path = settings.coefficientsPath ∧ first.content = Coefficients.write image ∧
      second.path = settings.memoryPath ∧ second.content = MemoryFile.write image := by
  cases hwanted : settings.coeOnly with
  | true => simp [outputs, hwanted] at hsplit
  | false =>
      simp only [outputs, hwanted, Bool.false_eq_true, if_false, List.cons_append,
        List.cons.injEq] at hsplit
      obtain ⟨rfl, hothers⟩ := hsplit
      cases others with
      | cons other more => simp at hothers
      | nil =>
          obtain ⟨rfl, -⟩ := List.cons.inj hothers
          exact ⟨rfl, rfl, rfl, rfl, rfl, rfl⟩

/-- The run has written the coefficient file, which makes the second disk of the first one, and the
memory file cannot be opened. -/
def StopsAtMemoryFile
    (settings : Settings) (disk written : Disk) (fault : PathFault) : Prop :=
  settings.coeOnly = false ∧
    ∃ image,
      settings.IsImage disk image ∧
      disk.write settings.coefficientsPath (Coefficients.write image) = .ok written ∧
      written.write settings.memoryPath (MemoryFile.write image) = .error fault

theorem differsOnlyAt_run (settings : Settings) (disk : Disk) :
    disk.DiffersOnlyAt (settings.run disk).1 settings.outputPaths := by
  cases hmade : (settings.makeImage disk.look).result with
  | error failure =>
      simp only [run, hmade]
      exact .refl disk _
  | ok image =>
      have himage := (settings.makeImage_eq_ok_iff disk image).mp hmade
      rw [(run_of_isImage himage).1, ← settings.map_path_outputs image]
      exact differsOnlyAt_writeOutputs settings.quiet disk _

theorem run_of_stopsAtMemoryFile
    {written : Disk} {fault : PathFault} (hstops : settings.StopsAtMemoryFile disk written fault) :
    (settings.run disk).1 = written ∧
      (settings.run disk).2.result = .error (.unopened fault settings.memoryPath) := by
  obtain ⟨hwanted, image, himage, hwrite, hfault⟩ := hstops
  obtain ⟨hdisk, hresult⟩ := run_of_isImage himage
  rw [hdisk, hresult, outputs, hwanted]
  simp [writeOutputs, hwrite, hfault, Report.preceded]

/-- A run that fails has changed nothing, or it was stopped by the memory file. -/
theorem run_eq_error
    {failure : Failure} (hresult : (settings.run disk).2.result = .error failure) :
    (settings.run disk).1 = disk ∨
      ∃ written fault, settings.StopsAtMemoryFile disk written fault := by
  cases hmade : (settings.makeImage disk.look).result with
  | error found =>
      left
      simp [run, hmade]
  | ok image =>
      have himage := (settings.makeImage_eq_ok_iff disk image).mp hmade
      obtain ⟨hdisk, hwriting⟩ := run_of_isImage himage
      rw [hwriting] at hresult
      obtain ⟨before, output, later, fault, hsplit, hbefore, hfault, -, hreached⟩ :=
        writeOutputs_eq_error hresult
      rw [hdisk, hreached]
      cases before with
      | nil => exact .inl rfl
      | cons coefficients others =>
          right
          obtain ⟨hwanted, rfl, hpath, hcontent, hmemoryPath, hmemory⟩ :=
            outputs_eq_cons_append hsplit
          have hwrite := write_eq_ok_of_writeOutputs hbefore
          rw [hpath, hcontent] at hwrite
          rw [hmemoryPath, hmemory] at hfault
          exact ⟨_, fault, hwanted, image, himage, hwrite, hfault⟩

end Settings

/-! ## The whole command line -/

theorem ending_eq_failed_iff
    {arguments : List Text} {settings : Settings}
    (hsettings : readSettings arguments = .ok settings) (disk : Disk) (failure : Failure) :
    (run arguments disk).ending = .failed failure ↔
      (settings.run disk).2.result = .error failure := by
  unfold run
  rw [hsettings]
  cases hresult : (settings.run disk).2.result with
  | error found => simp [hresult]
  | ok done => simp [hresult]

/-- A run touches the files that it is asked to write and no others. It leaves the disk alone if
there are no settings, and if it fails in any way but one: when the memory file cannot be opened,
the coefficient file is written. -/
theorem run_touches (arguments : List Text) (disk : Disk) :
    (∀ stop, readSettings arguments = .error stop → (run arguments disk).disk = disk) ∧
      ∀ settings, readSettings arguments = .ok settings →
        disk.DiffersOnlyAt (run arguments disk).disk settings.outputPaths ∧
        ((run arguments disk).ending ≠ .exit 0 →
          (¬∃ written fault, settings.StopsAtMemoryFile disk written fault) →
          (run arguments disk).disk = disk) ∧
        ∀ written fault, settings.StopsAtMemoryFile disk written fault →
          (run arguments disk).ending = .failed (.unopened fault settings.memoryPath) ∧
          (run arguments disk).disk = written ∧
          disk.DiffersOnlyAt written [settings.coefficientsPath] := by
  refine ⟨?_, ?_⟩
  · intro stop hstop
    cases stop <;> simp [run, hstop]
  · intro settings hsettings
    obtain ⟨hdisk, hexit⟩ := run_of_readSettings hsettings disk
    rw [hdisk]
    refine ⟨settings.differsOnlyAt_run disk, ?_, ?_⟩
    · intro hending hmemory
      cases hresult : (settings.run disk).2.result with
      | ok done => exact absurd (hexit.mpr hresult) hending
      | error failure => exact (Settings.run_eq_error hresult).resolve_right hmemory
    · intro written fault hstops
      obtain ⟨hwritten, hresult⟩ := Settings.run_of_stopsAtMemoryFile hstops
      obtain ⟨-, image, -, hwrite, -⟩ := hstops
      exact ⟨(ending_eq_failed_iff hsettings disk _).mpr hresult, hwritten,
        Disk.differsOnlyAt_write hwrite⟩

/-- The memory file has the name of a folder. The coefficient file is written all the same, over the
source that it is made from. -/
theorem run_touches_before_folder :
    let source := ".org $8000\nlda #$100\n".toList
    let note := ["prog.mif".toList, "note".toList]
    let disk : Disk := ⟨[(["prog.coe".toList], source), (note, [])]⟩
    let arguments := ["prog.coe".toList]
    ∃ content,
      (run arguments disk).ending = .failed (.unopened .isFolder "prog.mif".toList) ∧
      (run arguments disk).disk = ⟨[(["prog.coe".toList], content), (note, [])]⟩ ∧
      (run arguments disk).disk.fileAt? note = disk.fileAt? note := by
  intro source note disk arguments
  let settings : Settings := ⟨"prog.coe".toList, none, none, false, false⟩
  let segment : Segment := ⟨0x8000, [⟨2, "lda #$100".toList⟩]⟩
  let image := Image.blank.layAll [segment]
  have hsettings : readSettings arguments = .ok settings := rfl
  have hsegments : Segment.ofFile source = .ok [segment] :=
    congrArg Except.ok (List.mergeSort_singleton segment)
  have himage : settings.IsImage disk image :=
    ⟨source, image, rfl, Image.assemble_of_singleton hsegments rfl false, rfl⟩
  have hpath : settings.memoryPath = "prog.mif".toList := rfl
  have hfirst (content : Text) : disk.write settings.coefficientsPath content =
      .ok ⟨[(["prog.coe".toList], content), (note, [])]⟩ := rfl
  have hsecond (content memory : Text) :
      Disk.write ⟨[(["prog.coe".toList], content), (note, [])]⟩ settings.memoryPath memory =
        .error .isFolder := by
    rw [hpath]
    rfl
  have hstops : settings.StopsAtMemoryFile disk
      ⟨[(["prog.coe".toList], Coefficients.write image), (note, [])]⟩ .isFolder :=
    ⟨rfl, image, himage, hfirst _, hsecond _ _⟩
  obtain ⟨hframe, -, hmemory⟩ := (run_touches arguments disk).2 settings hsettings
  obtain ⟨hending, hdisk, -⟩ := hmemory _ _ hstops
  refine ⟨Coefficients.write image, by rw [← hpath]; exact hending, hdisk, hframe.files note ?_⟩
  have hpaths : settings.outputPaths = ["prog.coe".toList, "prog.mif".toList] := rfl
  have hcoefficients : disk.resolve "prog.coe".toList = .ok ["prog.coe".toList] := rfl
  have hmemoryPlace : disk.resolve "prog.mif".toList = .ok ["prog.mif".toList] := rfl
  rw [hpaths, List.forall_mem_cons, List.forall_mem_singleton, hcoefficients, hmemoryPlace]
  exact ⟨fun hsame => absurd (Except.ok.inj hsame) (by decide),
    fun hsame => absurd (Except.ok.inj hsame) (by decide)⟩

end CommandLine

end Assembler6502
