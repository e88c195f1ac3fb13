import BankTrace.CommandLine.Options

/-!
# Help

The help tells how a command line is made up and what every switch is for. A command line that
cannot be followed is answered by the first part of it and the reason.
-/

namespace BankTrace.CommandLine

/-- The name of the program. -/
def programName : String := "nescdl"

/-- What the value of a switch is called in the help. -/
def Switch.valueName : Switch → String
  | bank => "NAME"
  | order => "|".intercalate (Order.all.map Order.text)
  | workers | maxSteps => "N"
  | entry => "ADDR"
  | output => "DIR"
  | help | dataRefs | dryRun | verbose => ""

/-- What a switch is for. -/
def Switch.purpose : Switch → String
  | help => "Show this help"
  | bank => "Analyze with this bank mapped; can be given again"
  | order => "Work queue order"
  | workers => "Number of traversal threads"
  | maxSteps => "Stop each traversal after this many queue entries"
  | entry => "Entry point besides the interrupt vectors; can be given again"
  | dataRefs => "Mark bytes read by operands as data"
  | dryRun => "Analyze without writing CDL files"
  | output => "Write a summary to this directory"
  | verbose => "Show progress; twice for debug logs"

namespace Usage

/-- How a command line is made up. -/
def synopsis : String := "usage: " ++ programName ++ " [options] [manifest]\n"

/-- The line of the help about a switch. -/
def switchLine (switch : Switch) : String :=
  let form := ", ".intercalate switch.names ++
    (if switch.wantsValue then " " ++ switch.valueName else "")
  "  " ++ Numeral.alignLeft 28 form ++ switch.purpose ++ "\n"

/-- The whole help. -/
def text : String :=
  synopsis ++ "\nFind the code and the data of 6502 cartridge banks.\n\n" ++
    String.join (Switch.all.map switchLine)

end Usage

/-- The line that refuses a command line. -/
def UsageError.line (e : UsageError) : String := programName ++ ": error: " ++ e.message ++ "\n"

end BankTrace.CommandLine
