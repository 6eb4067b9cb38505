import Assembler6502.CommandLine.Run

/-!
# The program

Runs a command line on the files of the working folder.
-/

namespace Assembler6502

open CommandLine

/-- The fault of the path that an error comes from. Errors that no path causes by itself, such as
missing rights or a full disk, have none and are passed on. -/
def faultOf? : IO.Error → Option PathFault
  | .noFileOrDirectory .. => some .missing
  | .inappropriateType _ 20 _ => some .notFolder
  | .inappropriateType _ 21 _ => some .isFolder
  | .invalidArgument _ 36 _ => some .tooLong
  | _ => none

def lookAt (path : Text) : IO Lookup := do
  try
    let handle ← IO.FS.Handle.mk (String.ofList path) .read
    return .file (← handle.readToEnd).toList
  catch error =>
    match faultOf? error with
    | some .isFolder => return .folder
    | some _ => return .absent
    | none => throw error

def reportFailure (failure : Failure) : IO UInt32 := do
  IO.eprintln (String.ofList failure.message)
  return 1

/-- Writes files in order, up to the first one that cannot be opened. -/
def writeFiles (quiet : Bool) : List Output → IO UInt32
  | [] => return 0
  | output :: rest => do
    IO.print (String.ofList (Notice.printed (Notice.unlessQuiet quiet output.notice)))
    try
      IO.FS.writeFile (String.ofList output.path) (String.ofList output.content)
    catch error =>
      match faultOf? error with
      | some fault => return ← reportFailure (.unopened fault output.path)
      | none => throw error
    writeFiles quiet rest

def runSettings (settings : Settings) : IO UInt32 := do
  let source ← lookAt settings.source
  let map ← lookAt (settings.map.getD [])
  let made := settings.makeImage fun path => if path = settings.source then source else map
  IO.print (String.ofList (Notice.printed made.notices))
  match made.result with
  | .error failure => reportFailure failure
  | .ok image => writeFiles settings.quiet (settings.outputs image)

end Assembler6502

def main (arguments : List String) : IO UInt32 := do
  match Assembler6502.CommandLine.readSettings (arguments.map String.toList) with
  | .error .help =>
    IO.print (String.ofList Assembler6502.CommandLine.helpText)
    return 0
  | .error (.usage problem) =>
    IO.eprint (String.ofList (Assembler6502.CommandLine.usageText problem))
    return 2
  | .ok settings => Assembler6502.runSettings settings
