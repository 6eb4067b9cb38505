import Assembler6502.Block
import Assembler6502.Branch
import Assembler6502.CommandLine.Argument
import Assembler6502.CommandLine.Run
import Assembler6502.CommandLine.Settings
import Assembler6502.CommandLine.Switch
import Assembler6502.CommandLine.Usage
import Assembler6502.Disk
import Assembler6502.Entry
import Assembler6502.Image
import Assembler6502.Instruction.AddressingMode
import Assembler6502.Instruction.Mnemonic
import Assembler6502.Instruction.Opcode
import Assembler6502.Listing.Cell
import Assembler6502.Listing.Coefficients
import Assembler6502.Listing.MemoryFile
import Assembler6502.Main
import Assembler6502.MemoryMap
import Assembler6502.Numeral.Hexadecimal
import Assembler6502.Operand
import Assembler6502.Path
import Assembler6502.Problem
import Assembler6502.Report
import Assembler6502.Segment
import Assembler6502.SourceLine
import Assembler6502.Statement
import Assembler6502.SymbolTable
import Assembler6502.Text.Basic
import Assembler6502.Text.Blank
import Assembler6502.Text.CaseIgnorable
import Assembler6502.Text.Cased
import Assembler6502.Text.Digit
import Assembler6502.Text.Lines
import Assembler6502.Text.Lowercase
import Assembler6502.Text.Printable
import Assembler6502.Text.Quoted
import Assembler6502.Proofs.AssembledImage
import Assembler6502.Proofs.TwoPasses
import Assembler6502.Proofs.UndefinedLabels
import Assembler6502.Proofs.CodeLines
import Assembler6502.Proofs.BranchValues
import Assembler6502.Proofs.Numerals
import Assembler6502.Proofs.Classification
import Assembler6502.Proofs.Program.Basic
import Assembler6502.Proofs.Program.Rendering
import Assembler6502.Proofs.Program.Lines
import Assembler6502.Proofs.Program.Sections
import Assembler6502.Proofs.Program.Assembly
import Assembler6502.Proofs.CodeLayout
import Assembler6502.Proofs.Decoding
import Assembler6502.Proofs.Sectioning
import Assembler6502.Proofs.LowerCase
import Assembler6502.Proofs.OperandForms
import Assembler6502.Proofs.ByteCells
import Assembler6502.Proofs.SourceCode
import Assembler6502.Proofs.SectionPermutation
import Assembler6502.Proofs.LexicalNoise
import Assembler6502.Proofs.Linking
import Assembler6502.Proofs.FailedPasses
import Assembler6502.Proofs.ReachableBlocks
import Assembler6502.Proofs.DiskWrites
import Assembler6502.Proofs.ListingReaders
import Assembler6502.Proofs.WrittenFiles
import Assembler6502.Proofs.TouchedFiles
import Assembler6502.Proofs.QuietRuns
import Assembler6502.Proofs.SecondPass
import Assembler6502.Proofs.SpacedOperands
import Assembler6502.Proofs.OperandSyntax
import Assembler6502.Proofs.DocumentedMaps
import Assembler6502.Proofs.ListingLayout
import Assembler6502.Proofs.NumeralGrammar
import Assembler6502.Proofs.OriginLines
import Assembler6502.Proofs.ModeClasses
import Assembler6502.Proofs.StatementForms
import Assembler6502.Proofs.EmittedOpcodes
import Assembler6502.Proofs.OutputNames
