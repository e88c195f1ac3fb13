import BankTrace.Toml.Reader

/-!
# Reading documents

A document is a list of lines. A line gives a value to a key, opens a table or adds a table to an
array; keys are then relative to that table. A table can be opened once, and not when keys with
points have made it. An array or a table that is given as a value can neither be opened nor added
to. Every element of an array of tables starts afresh.
-/

namespace BankTrace.Toml

/-- A document that is being read. -/
structure Draft where
  /-- What has been read. -/
  table : Table := []
  /-- The table that keys are relative to. -/
  header : Key := []
  /-- The tables that cannot be opened again. -/
  opened : List Key := []
  /-- The values that cannot be added to. -/
  closed : List Key := []
  /-- The tables that cannot be opened from the next one on. -/
  pending : List Key := []

namespace Draft

open Reader (isBelow isContainer addAt? expect skipSpaces skipComment?)

/-- The next line opens a table. -/
def settle (d : Draft) : Draft := { d with opened := d.pending ++ d.opened, pending := [] }

/-- Open a table. -/
def openTable? (d : Draft) (key : Key) : Option Draft := do
  if d.opened.contains key || isBelow d.closed key then none
  let table ← d.table.modifyAt true some key
  return { d with table, header := key, opened := key :: d.opened }

/-- Add a table to an array. -/
def addTable? (d : Draft) (key : Key) : Option Draft := do
  if isBelow d.closed key then none
  let last ← key.getLast?
  let table ← d.table.modifyAt true (Table.addElement last) key.dropLast
  let apart (k : Key) := !key.isPrefixOf k
  return { d with
    table, header := key
    opened := key :: d.opened.filter apart
    closed := d.closed.filter apart }

/-- The tables between the header and the end of a key. -/
def between (d : Draft) (key : Key) : List Key :=
  (List.range (key.length - 1)).map fun i => d.header ++ key.take (i + 1)

/-- Give a value to a key. -/
def assign? (d : Draft) (key : Key) (v : Value) : Option Draft := do
  let made := d.between key
  if made.any d.opened.contains || isBelow d.closed (d.header ++ key.dropLast) then none
  let table ← addAt? true (d.header ++ key) v d.table
  return { d with
    table
    pending := made ++ d.pending
    closed := if isContainer v then (d.header ++ key) :: d.closed else d.closed }

/-- Read what a line says, without a comment behind it; `levels` is the deepest level of arrays and
tables. -/
def line (levels : Nat) (d : Draft) (s : List Char) : Except Fault (Draft × List Char) := do
  match s with
  | '#' :: _ => return (d, s)
  | '[' :: '[' :: rest =>
    let (key, rest) ← expect (Reader.key? (rest.length + 1) (skipSpaces rest))
    let d ← expect (d.settle.addTable? key)
    match rest with
    | ']' :: ']' :: rest => return (d, rest)
    | _ => throw .malformed
  | '[' :: rest =>
    let (key, rest) ← expect (Reader.key? (rest.length + 1) (skipSpaces rest))
    let d ← expect (d.settle.openTable? key)
    match rest with
    | ']' :: rest => return (d, rest)
    | _ => throw .malformed
  | _ =>
    let ((key, v), rest) ← Reader.keyValue levels (2 * s.length + 2) 0 s
    let d ← expect (d.assign? key v)
    return (d, rest)

/-- Read line after line. Every line uses up a character, so the length of the text is allowance
enough. -/
def lines (levels allowance : Nat) (d : Draft) (s : List Char) : Except Fault Table :=
  match allowance with
  | 0 => .error .malformed
  | allowance + 1 => do
    match skipSpaces s with
    | [] => return d.table
    | '\n' :: rest => lines levels allowance d rest
    | s =>
      let (d, rest) ← d.line levels s
      match ← expect (skipComment? (skipSpaces rest)) with
      | [] => return d.table
      | '\n' :: rest => lines levels allowance d rest
      | _ => throw .malformed

end Draft

/-- A carriage return in front of a line feed is dropped. -/
def joinLineEnds : List Char → List Char
  | '\r' :: '\n' :: rest => '\n' :: joinLineEnds rest
  | c :: rest => c :: joinLineEnds rest
  | [] => []

/-- Read a document; `levels` is the deepest level of arrays and tables. -/
def parse (levels : Nat) (text : String) : Except Fault Table :=
  let s := joinLineEnds text.toList
  Draft.lines levels (s.length + 1) {} s

end BankTrace.Toml
