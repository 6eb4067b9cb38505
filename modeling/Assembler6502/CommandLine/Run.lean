import Assembler6502.CommandLine.Settings
import Assembler6502.Disk
import Assembler6502.Listing.Coefficients
import Assembler6502.Listing.MemoryFile
import Assembler6502.MemoryMap

/-!
# Runs

A run assembles the source file, applies the memory map, and writes the coefficient file and the
memory file. Nothing is written before the image is complete.
-/

namespace Assembler6502.CommandLine

inductive Failure where
  | sourceNotFound
  | mapNotFound
  /-- There is no image, because the name of the source file is empty. -/
  | noImage
  | unopened (fault : PathFault) (path : Text)
  | wrong (problem : Problem)
deriving DecidableEq, Repr

def Failure.message : Failure → Text
  | sourceNotFound => "Source file not found.".toList
  | mapNotFound => "Map file not found.".toList
  | noImage => Problem.unset "data"
  | unopened fault path => fault.message path
  | wrong problem => problem.message

namespace Settings

def basePath (settings : Settings) : Text :=
  match settings.output with
  | none | some [] => settings.source
  | some path => path

def coefficientsPath (settings : Settings) : Text :=
  Path.stem settings.basePath ++ ".coe".toList

def memoryPath (settings : Settings) : Text :=
  Path.stem settings.coefficientsPath ++ ".mif".toList

/-- The image of the source file, or none if the name of the source file is empty. -/
def assembleSource (settings : Settings) (look : Text → Lookup) :
    Report Failure (Option Image) :=
  if settings.source = [] then ⟨[], .ok none⟩
  else
    match look settings.source with
    | .absent => ⟨[], .error .sourceNotFound⟩
    | .folder => ⟨[], .error (.unopened .isFolder settings.source)⟩
    | .file content =>
      let report := Image.assemble content settings.quiet
      ⟨report.notices, (report.result.mapError .wrong).map some⟩

def applyMap (settings : Settings) (look : Text → Lookup) (image : Option Image) :
    Except Failure (Option Image) :=
  match settings.map with
  | none | some [] => .ok image
  | some path =>
    match look path, image with
    | .absent, _ => .error .mapNotFound
    | _, none => .error .noImage
    | .folder, some _ => .error (.unopened .isFolder path)
    | .file content, some cells =>
      match MemoryMap.applyFile cells content with
      | (_, .error problem) => .error (.wrong problem)
      | (changed, .ok ()) => .ok (some changed)

/-- The image of a run, with the memory map applied. Failing to have any image is noticed only when
the coefficient file is about to be written. -/
def makeImage (settings : Settings) (look : Text → Lookup) : Report Failure Image :=
  let assembled := settings.assembleSource look
  match assembled.result.bind (settings.applyMap look) with
  | .error failure => ⟨assembled.notices, .error failure⟩
  | .ok (some image) => ⟨assembled.notices, .ok image⟩
  | .ok none =>
    ⟨assembled.notices ++
      Notice.unlessQuiet settings.quiet (.writingCoefficients settings.coefficientsPath),
      .error .noImage⟩

end Settings

structure Output where
  notice : Notice
  path : Text
  content : Text

def Settings.outputs (settings : Settings) (image : Image) : List Output :=
  ⟨.writingCoefficients settings.coefficientsPath, settings.coefficientsPath,
      Listing.Coefficients.write image⟩ ::
    if settings.coeOnly then []
    else
      [⟨.writingMemory settings.memoryPath, settings.memoryPath, Listing.MemoryFile.write image⟩]

/-- Writes files in order, up to the first one that cannot be opened. -/
def writeOutputs (quiet : Bool) (disk : Disk) : List Output → Disk × Report Failure Unit
  | [] => (disk, ⟨[], .ok ()⟩)
  | output :: rest =>
    let notices := Notice.unlessQuiet quiet output.notice
    match disk.write output.path output.content with
    | .error fault => (disk, ⟨notices, .error (.unopened fault output.path)⟩)
    | .ok written =>
      let later := writeOutputs quiet written rest
      (later.1, later.2.preceded notices)

def Settings.run (settings : Settings) (disk : Disk) : Disk × Report Failure Unit :=
  let made := settings.makeImage disk.look
  match made.result with
  | .error failure => (disk, ⟨made.notices, .error failure⟩)
  | .ok image =>
    let written := writeOutputs settings.quiet disk (settings.outputs image)
    (written.1, written.2.preceded made.notices)

inductive Ending where
  | exit (code : Nat)
  | failed (failure : Failure)
deriving DecidableEq, Repr

structure Outcome where
  ending : Ending
  stdout : Text
  stderr : Text
  disk : Disk

def run (arguments : List Text) (disk : Disk) : Outcome :=
  match readSettings arguments with
  | .error .help => ⟨.exit 0, helpText, [], disk⟩
  | .error (.usage problem) => ⟨.exit 2, [], usageText problem, disk⟩
  | .ok settings =>
    let (after, report) := settings.run disk
    let ending :=
      match report.result with
      | .ok () => .exit 0
      | .error failure => .failed failure
    ⟨ending, Notice.printed report.notices, [], after⟩

end Assembler6502.CommandLine
