import Assembler6502.Path
import Assembler6502.Text.Quoted

/-!
# Disks

The files that a run can read and write. Folders are there as far as files need them, and so are the
working folder, all folders above it, and the root. A path is followed name by name, and every name
but the last has to be a folder.

Links, access rights and contents that cannot be decoded to a text are left out. The working folder
has no name on its own disk, so the name of a file from the root and its name from the working
folder are two places, and writing at one of them leaves the other as it was.
-/

namespace Assembler6502

inductive PathFault where
  | missing
  | notFolder
  | isFolder
  | tooLong
  | nullCharacter
deriving DecidableEq, Repr

def PathFault.message (fault : PathFault) (path : Text) : Text :=
  match fault with
  | missing => "[Errno 2] No such file or directory: ".toList ++ path.quoted
  | notFolder => "[Errno 20] Not a directory: ".toList ++ path.quoted
  | isFolder => "[Errno 21] Is a directory: ".toList ++ path.quoted
  | tooLong => "[Errno 36] File name too long: ".toList ++ path.quoted
  | nullCharacter => "embedded null byte".toList

inductive Lookup where
  | absent
  | folder
  | file (content : Text)
deriving DecidableEq, Repr

/-- The place of a file or folder: its names from the working folder on. The name of the parent
folder stands only at the front of a place, and a place that is counted from the root starts with a
slash. -/
abbrev Place := List Text

namespace Disk

def parentName : Text :=
  ['.', '.']

def rootName : Text :=
  ['/']

def isAbove (place : Place) : Bool :=
  place.all (· = parentName)

def isInside (place : Place) : Bool :=
  place.head?.any fun name => name ≠ parentName ∧ name ≠ rootName

/-- The place that a name leads to. The root is its own parent. -/
def enter (place : Place) (name : Text) : Place :=
  if name = [] ∨ name = ['.'] then place
  else if name = parentName then
    if isAbove place then place ++ [parentName]
    else if place = [rootName] then place
    else place.dropLast
  else place ++ [name]

def nameLimit : Nat :=
  255

def pathLimit : Nat :=
  4095

end Disk

structure Disk where
  files : List (Place × Text)
deriving DecidableEq, Repr

namespace Disk

def fileAt? (disk : Disk) (place : Place) : Option Text :=
  disk.files.lookup place

def isFolder (disk : Disk) (place : Place) : Bool :=
  isAbove place || place = [rootName] ||
    disk.files.any fun file => place.isPrefixOf file.1 && place != file.1

/-- Follows names from a place. The last name need not exist. -/
def follow (disk : Disk) (place : Place) : List Text → Except PathFault Place
  | [] => .ok place
  | name :: rest =>
    if (disk.fileAt? place).isSome then .error .notFolder
    else if !disk.isFolder place then .error .missing
    else if nameLimit < name.byteCount then .error .tooLong
    else disk.follow (enter place name) rest

def resolve (disk : Disk) (path : Text) : Except PathFault Place :=
  if path.contains '\x00' then .error .nullCharacter
  else if path = [] then .error .missing
  else if pathLimit < path.byteCount then .error .tooLong
  else disk.follow (if path.head? = some '/' then [rootName] else []) (Path.steps path)

def look (disk : Disk) (path : Text) : Lookup :=
  match disk.resolve path with
  | .error _ => .absent
  | .ok place =>
    match disk.fileAt? place with
    | some content => .file content
    | none => if disk.isFolder place then .folder else .absent

/-- Replaces the content of the file at a place, or adds the file at the end. -/
def putFile (place : Place) (content : Text) : List (Place × Text) → List (Place × Text)
  | [] => [(place, content)]
  | file :: rest =>
    if file.1 = place then (place, content) :: rest else file :: putFile place content rest

def write (disk : Disk) (path content : Text) : Except PathFault Disk :=
  match disk.resolve path with
  | .error fault => .error fault
  | .ok place =>
    if disk.isFolder place then .error .isFolder
    else .ok ⟨putFile place content disk.files⟩

end Disk

end Assembler6502
