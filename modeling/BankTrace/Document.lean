import BankTrace.Text.Numeral

/-!
# Documents

A document is a tree of named and listed values. It is written over several lines, every member and
element on a line of its own, two blanks further in than the line above; only empty objects and
lists stay on one line. Texts are written with characters of the basic alphabet alone: all others
are given by their numbers, those above `FFFF` by two of them.
-/

namespace BankTrace

/-- A value that can be written down. -/
inductive Document where
  | null
  | bool (b : Bool)
  | int (n : Int)
  /-- A number that is given by its text. -/
  | number (text : String)
  | text (s : String)
  | list (elements : List Document)
  | object (members : List (String × Document))

namespace Document

/-- A unit of a text by its number. -/
def unit (n : Nat) : String := "\\u" ++ Numeral.signed 4 "" Numeral.lowerDigits n

/-- A character as it is written in a text. -/
def escaped (c : Char) : String :=
  if c = '"' then "\\\""
  else if c = '\\' then "\\\\"
  else if c = '\n' then "\\n"
  else if c = '\r' then "\\r"
  else if c = '\t' then "\\t"
  else if c = '\x08' then "\\b"
  else if c = '\x0C' then "\\f"
  else if ' ' ≤ c ∧ c ≤ '~' then c.toString
  else if c.toNat < 0x10000 then unit c.toNat
  else
    let above := c.toNat - 0x10000
    unit (0xD800 + above / 0x400) ++ unit (0xDC00 + above % 0x400)

/-- A text between quotes. -/
def quoted (s : String) : String := "\"" ++ String.join (s.toList.map escaped) ++ "\""

/-- The start of a line at a depth. -/
def newline (depth : Nat) : String := "\n" ++ Numeral.fill (2 * depth) ' '

/-- Lines between two brackets, separated by commas; without lines, the brackets alone. -/
def bracket (opening closing : String) (depth : Nat) (lines : List String) : String :=
  match lines with
  | [] => opening ++ closing
  | _ =>
    opening ++ newline (depth + 1) ++ ("," ++ newline (depth + 1)).intercalate lines ++
      newline depth ++ closing

/-- The written form of a value at a depth. -/
def render (depth : Nat) (d : Document) : String :=
  match d with
  | null => "null"
  | bool b => if b then "true" else "false"
  | int n => ToString.toString n
  | number s => s
  | text s => quoted s
  | list elements => bracket "[" "]" depth (elements.map fun e => e.render (depth + 1))
  | object members =>
    bracket "\x7b" "\x7d" depth
      (members.map fun m => quoted m.1 ++ ": " ++ m.2.render (depth + 1))
termination_by sizeOf d
decreasing_by
  all_goals simp_wf
  · rename_i h
    have := List.sizeOf_lt_of_mem h
    omega
  · rename_i h
    have := List.sizeOf_lt_of_mem h
    have : sizeOf m.2 < sizeOf m := by cases m; simp only [Prod.mk.sizeOf_spec]; omega
    omega

/-- The written form of a document. -/
def toString (d : Document) : String := d.render 0

end Document

end BankTrace
