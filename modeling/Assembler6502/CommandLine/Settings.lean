import Assembler6502.CommandLine.Argument

/-!
# Settings

The arguments of a command line are taken from left to right. They give the settings of a run, or
stop with the help text or a problem.

The convention is the older one here too. A separator that is attached to a parameter as its value
is dropped: `-o--` leaves the parameter without a value, where newer parsers give it the value `--`.
-/

namespace Assembler6502.CommandLine

structure Settings where
  source : Text
  map : Option Text
  output : Option Text
  coeOnly : Bool
  quiet : Bool
deriving DecidableEq, Repr

inductive Stop where
  | help
  | usage (problem : UsageProblem)
deriving DecidableEq, Repr

/-- The settings as far as they are known, and the arguments that have no meaning. -/
structure Draft where
  source : Option Text := none
  map : Option Text := none
  output : Option Text := none
  coeOnly : Bool := false
  quiet : Bool := false
  extras : List Text := []

namespace Draft

def addExtra (draft : Draft) (text : Text) : Draft :=
  { draft with extras := draft.extras ++ [text] }

def raiseFlags (draft : Draft) : List Flag → Except Stop Draft
  | [] => .ok draft
  | .help :: _ => .error .help
  | .coeOnly :: rest => { draft with coeOnly := true }.raiseFlags rest
  | .quiet :: rest => { draft with quiet := true }.raiseFlags rest

/-- Gives a parameter its value. A later value replaces an earlier one, and the separator stands
for no value. -/
def give (draft : Draft) (parameter : Parameter) (value : Text) : Draft :=
  let given := if value = separatorText then none else some value
  match parameter with
  | .withMap => { draft with map := given }
  | .output => { draft with output := given }

def finish (draft : Draft) : Except Stop Settings :=
  match draft.source with
  | none => .error (.usage .sourceRequired)
  | some source =>
    if draft.extras.isEmpty then
      .ok ⟨source, draft.map, draft.output, draft.coeOnly, draft.quiet⟩
    else .error (.usage (.unrecognized draft.extras))

end Draft

/-- The switches that one argument calls: flags, and at most one parameter after them, which may
have its value attached. -/
structure Cluster where
  flags : List Flag
  parameter : Option (Parameter × Option Text)

namespace Cluster

def single : Switch → Cluster
  | .flag flag => ⟨[flag], none⟩
  | .parameter parameter => ⟨[], some (parameter, none)⟩

def after (flag : Flag) (cluster : Cluster) : Cluster :=
  ⟨flag :: cluster.flags, cluster.parameter⟩

/-- The cluster of a switch with a text attached. After a flag that is called by its letter, the
text has the letters of more switches. -/
def expand (byLetter : Bool) (switch : Switch) : Text → Except UsageProblem Cluster
  | [] =>
    match switch with
    | .flag flag => .error (.valueIgnored flag [])
    | .parameter parameter => .ok ⟨[], some (parameter, some [])⟩
  | c :: rest =>
    match switch with
    | .parameter parameter => .ok ⟨[], some (parameter, some (c :: rest))⟩
    | .flag flag =>
      match if byLetter then Switch.ofLetter? c else none with
      | none => .error (.valueIgnored flag (c :: rest))
      | some next =>
        if rest = [] then .ok (after flag (single next))
        else (expand true next rest).map (after flag)

def ofSwitch (switch : Switch) (byLetter : Bool) (attached : Option Text) :
    Except Stop Cluster :=
  match attached with
  | none => .ok (single switch)
  | some text => (expand byLetter switch text).mapError .usage

end Cluster

/-- Takes arguments from left to right. The first plain argument is the source file. A separator
before it or directly after it is dropped. -/
def takeArguments (draft : Draft) : List Argument → Except Stop Draft
  | [] => .ok draft
  | .unknown text :: rest => takeArguments (draft.addExtra text) rest
  | .plain text :: .separator :: rest =>
    if draft.source.isSome then takeArguments ((draft.addExtra text).addExtra separatorText) rest
    else takeArguments { draft with source := some text } rest
  | .plain text :: rest =>
    if draft.source.isSome then takeArguments (draft.addExtra text) rest
    else takeArguments { draft with source := some text } rest
  | .separator :: rest =>
    if draft.source.isSome then takeArguments (draft.addExtra separatorText) rest
    else takeArguments draft rest
  | .call switch byLetter attached :: rest =>
    match Cluster.ofSwitch switch byLetter attached with
    | .error stop => .error stop
    | .ok ⟨flags, none⟩ =>
      match draft.raiseFlags flags with
      | .error stop => .error stop
      | .ok raised => takeArguments raised rest
    | .ok ⟨flags, some (parameter, some value)⟩ =>
      match (draft.raiseFlags flags).map (·.give parameter value) with
      | .error stop => .error stop
      | .ok given => takeArguments given rest
    | .ok ⟨flags, some (parameter, none)⟩ =>
      match rest with
      | .plain value :: later =>
        match (draft.raiseFlags flags).map (·.give parameter value) with
        | .error stop => .error stop
        | .ok given => takeArguments given later
      | _ => .error (.usage (.valueExpected parameter))

def readSettings (arguments : List Text) : Except Stop Settings :=
  match Argument.ofTexts arguments with
  | .error problem => .error (.usage problem)
  | .ok taken => (takeArguments {} taken).bind (·.finish)

end Assembler6502.CommandLine
