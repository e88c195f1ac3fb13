import BankTrace.Bank.Snapshot
import BankTrace.Cpu.Disassembly
import BankTrace.Cpu.Interrupt
import BankTrace.Trace.Refusal

/-!
# Events

What happens on the way and is worth a line to the user. Every event has a level, which decides
whether it is shown, and the part of the program that it comes from.
-/

namespace BankTrace

/-- How much an event matters. -/
inductive Level where
  | debug | info | warning
  deriving DecidableEq

namespace Level

/-- The name of the level. -/
def text : Level → String
  | debug => "DEBUG"
  | info => "INFO"
  | warning => "WARNING"

/-- The rank of the level; higher levels matter more. -/
def rank : Level → Nat
  | debug => 0
  | info => 1
  | warning => 2

/-- The least level that is shown to a user who asks for that much. -/
def ofVerbosity : Nat → Level
  | 0 => warning
  | 1 => info
  | _ => debug

end Level

/-- Something that happened. -/
inductive Event where
  /-- A manifest is read. -/
  | readingManifest (path : Path)
  /-- The image of a bank could not be loaded. -/
  | imageNotLoaded (bank : Bank) (error : LoadError)
  /-- The image of a bank has the wrong length. -/
  | imageLength (bank : Bank) (length : Nat)
  /-- No bank is mapped at a vector. -/
  | vectorUnmapped (vector : Int)
  /-- The bank at a vector is switchable. -/
  | vectorSwitchable (vector : Int) (bank : String)
  /-- The bytes of a vector cannot be read. -/
  | vectorUnreadable (vector : Int) (bank : String)
  /-- The handler of an interrupt is known. -/
  | handlerFound (interrupt : Interrupt) (handler : Nat)
  /-- The handler of an interrupt must not be executed. -/
  | handlerNotExecutable (interrupt : Interrupt) (handler : Nat)
  /-- There is no instruction at an address. -/
  | undecodable (error : Error)
  /-- An instruction is not believed. -/
  | refused (insn : Instruction) (reason : Refusal)
  /-- A traversal ends early; where one worker does all, the addresses that wait are counted. -/
  | stepLimit (limit : Int) (pending : Option Nat)
  /-- A traversal ends. -/
  | traversed (snapshot : Snapshot) (steps accepted rejected : Nat)
  /-- Data references are marked. -/
  | referencesMarked (count : Nat)
  /-- A log file is read. -/
  | logRead (path : Path) (count : Nat)
  /-- A log file is written. -/
  | logWritten (path : Path)
  /-- The summary is written. -/
  | summaryWritten (path : Path)

namespace Event

/-- How much the event matters. -/
def level : Event → Level
  | readingManifest _ | handlerFound .. | undecodable .. | refused .. | referencesMarked _
  | logRead .. | logWritten _ => .debug
  | traversed .. | summaryWritten _ => .info
  | imageNotLoaded .. | imageLength .. | vectorUnmapped _ | vectorSwitchable ..
  | vectorUnreadable .. | handlerNotExecutable .. | stepLimit .. => .warning

/-- The part of the program that the event comes from. -/
def source : Event → String
  | readingManifest _ => "manifest"
  | imageNotLoaded .. => "loader"
  | imageLength .. => "banks"
  | vectorUnmapped _ | vectorSwitchable .. | vectorUnreadable .. | handlerFound .. => "interrupts"
  | handlerNotExecutable .. | undecodable .. | refused .. | stepLimit .. | traversed ..
  | referencesMarked _ => "engine"
  | logRead .. | logWritten _ => "cdl"
  | summaryWritten _ => "analyzer"

/-- The event in words, by what a disassembler writes for instructions. -/
def text (disassembly : Instruction → String) : Event → String
  | readingManifest path => "reading manifest " ++ path.toString
  | imageNotLoaded bank error =>
    error.message ++ "; window " ++ Numeral.dollar bank.start ++ "-" ++
      Numeral.dollar ((bank.endAddress : Int) - 1) ++ " is unanalyzable"
  | imageLength bank length =>
    "bank '" ++ bank.name ++ "': expected " ++ Numeral.lowerMarked bank.size ++ " bytes, got " ++
      Numeral.lowerMarked length ++ "; bank is unanalyzable"
  | vectorUnmapped vector => "vector " ++ Numeral.dollar vector ++ " is not mapped to any bank"
  | vectorSwitchable vector bank =>
    "vector " ++ Numeral.dollar vector ++ " lies in switchable bank '" ++ bank ++ "'"
  | vectorUnreadable vector bank =>
    "vector " ++ Numeral.dollar vector ++ " is unreadable (bank '" ++ bank ++ "')"
  | handlerFound interrupt handler =>
    interrupt.text ++ " vector " ++ Numeral.dollar interrupt.vector ++ " -> " ++
      Numeral.dollar handler
  | handlerNotExecutable interrupt handler =>
    interrupt.text ++ " handler " ++ Numeral.dollar handler ++ " is not executable"
  | undecodable error => "decode failed: " ++ error.message
  | refused insn reason => "rejected " ++ Disassembly.text disassembly insn ++ ": " ++ reason.text
  | stepLimit limit none => "step limit " ++ toString limit ++ " reached"
  | stepLimit limit (some pending) =>
    "step limit " ++ toString limit ++ " reached with " ++ toString pending ++
      " addresses pending"
  | traversed snapshot steps accepted rejected =>
    snapshot.describe ++ ": " ++ toString steps ++ " steps, " ++ toString accepted ++
      " instructions accepted, " ++ toString rejected ++ " rejected"
  | referencesMarked count => "marked " ++ toString count ++ " data reference bytes"
  | logRead path count =>
    "loaded " ++ toString count ++ " CDL bytes from " ++ path.toString
  | logWritten path => "flushed " ++ path.toString
  | summaryWritten path => "summary written to " ++ path.toString

/-- The line that shows the event. -/
def line (disassembly : Instruction → String) (e : Event) : String :=
  e.level.text ++ " nescdl." ++ e.source ++ ": " ++ e.text disassembly

/-- The event is shown to a user who asks for that level. -/
def isShown (least : Level) (e : Event) : Bool := least.rank ≤ e.level.rank

end Event

end BankTrace
