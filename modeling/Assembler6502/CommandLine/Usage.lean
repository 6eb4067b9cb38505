import Assembler6502.CommandLine.Switch
import Assembler6502.Text.Quoted

/-!
# Usage

What can be wrong with a command line, and the texts that tell how the program is called.
-/

namespace Assembler6502.CommandLine

inductive UsageProblem where
  | sourceRequired
  | unrecognized (arguments : List Text)
  | valueExpected (parameter : Parameter)
  | valueIgnored (flag : Flag) (value : Text)
  | ambiguous (argument : Text) (switches : List Switch)
deriving DecidableEq, Repr

def switchMessage (switch : Switch) (text : Text) : Text :=
  "argument ".toList ++ switch.title ++ ": ".toList ++ text

def UsageProblem.message : UsageProblem → Text
  | sourceRequired => "the following arguments are required: filename".toList
  | unrecognized arguments => "unrecognized arguments: ".toList ++ Text.join [' '] arguments
  | valueExpected parameter =>
    switchMessage (.parameter parameter) "expected one argument".toList
  | valueIgnored flag value =>
    switchMessage (.flag flag) ("ignored explicit argument ".toList ++ value.quoted)
  | ambiguous argument switches =>
    "ambiguous option: ".toList ++ argument ++ " could match ".toList ++
      Text.join [',', ' '] (switches.map (·.longName))

def usageLine : Text :=
  "usage: oddball [-h] [-c] [-m MAP_FILE] [-o MIF_FILE] [-q] filename\n".toList

def helpText : Text :=
  usageLine ++
    ("\nConverts MOS 6502 assembly code to Xilinx .COE and .MIF files\n" ++
      "\npositional arguments:\n" ++
      "  filename                          input source code\n" ++
      "\noptions:\n" ++
      "  -h, --help                        show this help message and exit\n" ++
      "  -c, --coe-only                    only generate a coefficients file\n" ++
      "  -m MAP_FILE, --with-map MAP_FILE  additional data to place in memory\n" ++
      "  -o MIF_FILE, --output MIF_FILE    output filename to use\n" ++
      "  -q, --quiet                       suppress all output\n").toList

def usageText (problem : UsageProblem) : Text :=
  usageLine ++ "oddball: error: ".toList ++ problem.message ++ ['\n']

end Assembler6502.CommandLine
