import BankTrace.Toml.Number
import BankTrace.Toml.Quotation
import BankTrace.Toml.Value

/-!
# Reading values

A key is a path: parts separated by points, each bare or quoted. Arrays may run over several lines,
with comments between their elements and a comma behind the last one. Tables in braces stay on one
line, have no comma behind the last member, and what is given as a whole inside them cannot be added
to. Every reader takes what it reads from the front of the text and leaves the rest.

Values lie inside each other, so their readers carry an allowance; twice the length of the text is
always enough, because two readers that follow each other use up a character. They also carry the
level at which they read: the elements of an array lie two levels deeper than the array, the members
of a table three levels deeper than the table, and below the deepest level there is neither.
-/

namespace BankTrace.Toml

/-- A path of keys. -/
abbrev Key := List String

namespace Reader

open Quotation (isSpace isSpaceOrLine isControl)

/-- An answer that must be there. -/
def expect {α : Type} : Option α → Except Fault α
  | some a => .ok a
  | none => .error .malformed

/-- The text behind blanks. -/
def skipSpaces (s : List Char) : List Char := s.dropWhile isSpace

/-- The text behind a comment, if there is one at the front; a comment ends with its line. -/
def skipComment? : List Char → Option (List Char)
  | '#' :: rest =>
    if (rest.takeWhile (· ≠ '\n')).any isControl then none else some (rest.dropWhile (· ≠ '\n'))
  | s => some s

/-- The text behind blanks, line ends and comments. -/
def skipGap? (s : List Char) : Option (List Char) :=
  match _found : s.dropWhile isSpaceOrLine with
  | '#' :: rest =>
    if (rest.takeWhile (· ≠ '\n')).any isControl then none
    else skipGap? (rest.dropWhile (· ≠ '\n'))
  | behind => some behind
termination_by s.length
decreasing_by
  have behind := Quotation.length_dropWhile_le isSpaceOrLine s
  have := Quotation.length_dropWhile_le (· ≠ '\n') rest
  rw [_found, List.length_cons] at behind
  omega

/-- The character can stand in a bare key. -/
def isBare (c : Char) : Bool := c.isAlphanum || c = '-' || c = '_'

/-- A part of a key. -/
def keyPart? (s : List Char) : Option (String × List Char) :=
  match s.takeWhile isBare with
  | [] => (Quotation.line? s).map fun (text, rest) => (String.ofList text, rest)
  | bare => some (String.ofList bare, s.dropWhile isBare)

/-- A key and the blanks behind it. -/
def key? : (allowance : Nat) → List Char → Option (Key × List Char)
  | 0, _ => none
  | allowance + 1, s => do
    let (part, rest) ← keyPart? s
    match skipSpaces rest with
    | '.' :: rest =>
      let (others, rest) ← key? allowance (skipSpaces rest)
      return (part :: others, rest)
    | rest => return ([part], rest)

/-- Something that is neither a text nor a truth value, an array or a table. -/
def scalar (s : List Char) : Except Fault (Value × List Char) :=
  match Moment.read? s with
  | some (m, rest) => if m.isValid then .ok (.moment m, rest) else .error .malformed
  | none =>
    match Number.read? s with
    | some (.ok (.integer n), rest) => .ok (.integer n, rest)
    | some (.ok (.float x), rest) => .ok (.float x, rest)
    | some (.error e, _) => .error e
    | none => .error .malformed

/-- The value is made of others. -/
def isContainer : Value → Bool
  | .array _ | .table _ => true
  | _ => false

/-- A key lies at or below one of the keys. -/
def isBelow (keys : List Key) (key : Key) : Bool := keys.any fun k => k.isPrefixOf key

/-- Add a value to a table at the end of a path. -/
def addAt? (intoArrays : Bool) (key : Key) (value : Value) (t : Table) : Option Table := do
  let last ← key.getLast?
  t.modifyAt intoArrays (Table.add last value) key.dropLast

mutual

/-- A value; `levels` is the deepest level of arrays and tables. -/
def value (levels allowance level : Nat) (s : List Char) : Except Fault (Value × List Char) :=
  match allowance with
  | 0 => .error .malformed
  | allowance + 1 =>
    match s with
    | '[' :: rest =>
      if level > levels then .error .tooDeep
      else (elements levels allowance (level + 2) rest).map fun (vs, rest) => (.array vs, rest)
    | '\x7b' :: rest =>
      if level > levels then .error .tooDeep
      else
        match skipSpaces rest with
        | '\x7d' :: rest => .ok (.table [], rest)
        | rest =>
          (members levels allowance (level + 3) [] [] rest).map fun (t, rest) => (.table t, rest)
    | 't' :: 'r' :: 'u' :: 'e' :: rest => .ok (.boolean true, rest)
    | 'f' :: 'a' :: 'l' :: 's' :: 'e' :: rest => .ok (.boolean false, rest)
    | '"' :: _ | '\'' :: _ => do
      let (text, rest) ← expect (Quotation.read? s)
      return (.string (String.ofList text), rest)
    | _ => scalar s

/-- The elements of an array up to its end. -/
def elements (levels allowance level : Nat) (s : List Char) :
    Except Fault (List Value × List Char) :=
  match allowance with
  | 0 => .error .malformed
  | allowance + 1 => do
    match ← expect (skipGap? s) with
    | ']' :: rest => return ([], rest)
    | s =>
      let (v, rest) ← value levels allowance level s
      match ← expect (skipGap? rest) with
      | ']' :: rest => return ([v], rest)
      | ',' :: rest =>
        let (others, rest) ← elements levels allowance level rest
        return (v :: others, rest)
      | _ => throw .malformed

/-- The members of a table in braces up to its end; `closed` are the keys that cannot be added
to. -/
def members (levels allowance level : Nat) (t : Table) (closed : List Key) (s : List Char) :
    Except Fault (Table × List Char) :=
  match allowance with
  | 0 => .error .malformed
  | allowance + 1 => do
    let ((key, v), rest) ← keyValue levels allowance level s
    if isBelow closed key then throw .malformed
    let t ← expect (addAt? false key v t)
    match skipSpaces rest with
    | '\x7d' :: rest => return (t, rest)
    | ',' :: rest =>
      members levels allowance level t (if isContainer v then key :: closed else closed)
        (skipSpaces rest)
    | _ => throw .malformed

/-- A key and its value. -/
def keyValue (levels allowance level : Nat) (s : List Char) :
    Except Fault ((Key × Value) × List Char) :=
  match allowance with
  | 0 => .error .malformed
  | allowance + 1 => do
    let (key, rest) ← expect (key? (s.length + 1) s)
    match rest with
    | '=' :: rest =>
      let (v, rest) ← value levels allowance level (skipSpaces rest)
      return ((key, v), rest)
    | _ => throw .malformed

end

end Reader

end BankTrace.Toml
