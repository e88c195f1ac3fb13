import BankTrace.Decimal.Shortest
import BankTrace.Text.Integer
import BankTrace.Text.Quoted
import BankTrace.Toml.Moment

/-!
# Values

A document is a table of values by their keys, in the order in which the keys first occur. A value
is a text, a number, a truth value, a moment, an array of values or a table.
-/

namespace BankTrace.Toml

/-- A value of a document. -/
inductive Value where
  | string (s : String)
  | integer (n : Int)
  | float (x : Decimal.Binary)
  | boolean (b : Bool)
  | moment (m : Moment)
  | array (elements : List Value)
  | table (members : List (String × Value))

/-- Values by their keys. -/
abbrev Table := List (String × Value)

namespace Value

/-- Why a value cannot be shown. -/
inductive ShowFault where
  /-- Too many values lie inside each other. -/
  | tooDeep
  /-- An integer has more decimal digits than are written. -/
  | tooLong
  deriving DecidableEq

/-- What keeps a value from being shown when as many values as there is room for may lie inside each
other; of several reasons it is the one that comes first in the text. Keys and the parts of an
offset from universal time count as values. -/
def showFault? : (room : Nat) → Value → Option ShowFault
  | 0, _ => some .tooDeep
  | _ + 1, integer n => if n.natAbs < Nat.pow 10 Integer.digitLimit then none else some .tooLong
  | room + 1, moment m => if m.shownDepth ≤ room + 1 then none else some .tooDeep
  | room + 1, array elements => (elements.map (showFault? room)).findSome? id
  | room + 1, table members =>
    if members ≠ [] ∧ room = 0 then some .tooDeep
    else (members.map fun m => showFault? room m.2).findSome? id
  | _ + 1, _ => none

/-- The value as it is shown in messages. -/
def shown (v : Value) : String :=
  match v with
  | string s => Quoted.render s
  | integer n => toString n
  | float x => x.text
  | boolean b => if b then "True" else "False"
  | moment m => m.shown
  | array elements => "[" ++ ", ".intercalate (elements.map fun e => e.shown) ++ "]"
  | table members =>
    "\x7b" ++ ", ".intercalate (members.map fun m => Quoted.render m.1 ++ ": " ++ m.2.shown) ++
      "\x7d"
termination_by sizeOf v
decreasing_by
  all_goals simp_wf
  · rename_i h
    have := List.sizeOf_lt_of_mem h
    omega
  · rename_i h
    have := List.sizeOf_lt_of_mem h
    have : sizeOf m.2 < sizeOf m := by cases m; simp only [Prod.mk.sizeOf_spec]; omega
    omega

end Value

namespace Table

/-- The value of a key. -/
def get? (t : Table) (key : String) : Option Value := t.lookup key

/-- Replace the value of a key, or add it behind the others. -/
def set (key : String) (value : Value) : Table → Table
  | [] => [(key, value)]
  | (k, old) :: rest => if k = key then (k, value) :: rest else (k, old) :: set key value rest

/-- Change the table at the end of a path of keys, making tables on the way. With `intoArrays`, an
array on the way stands for its last element. There is no answer when something on the way is not a
table, or when the change has none. -/
def modifyAt (intoArrays : Bool) (change : Table → Option Table) :
    (path : List String) → Table → Option Table
  | [], t => change t
  | key :: rest, t =>
    match get? t key with
    | none => (modifyAt intoArrays change rest []).map fun new => t.set key (.table new)
    | some (.table inner) =>
      (modifyAt intoArrays change rest inner).map fun new => t.set key (.table new)
    | some (.array elements) =>
      match intoArrays, elements.getLast? with
      | true, some (.table inner) =>
        (modifyAt intoArrays change rest inner).map fun new =>
          t.set key (.array (elements.dropLast ++ [.table new]))
      | _, _ => none
    | some _ => none

/-- Add a key that must not be there yet. -/
def add (key : String) (value : Value) (t : Table) : Option Table :=
  if (get? t key).isSome then none else some (t.set key value)

/-- Add an empty table to the array of a key, which is made if it is not there. -/
def addElement (key : String) (t : Table) : Option Table :=
  match get? t key with
  | none => some (t.set key (.array [.table []]))
  | some (.array elements) => some (t.set key (.array (elements ++ [.table []])))
  | some _ => none

end Table

end BankTrace.Toml
