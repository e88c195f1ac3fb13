/-!
# What switches are given

A switch that wants a value is given one, or the word `--` in its place, which leaves the switch
blank. A blank needs no reading, so a switch that only takes certain values takes a blank as well.
It is up to the job what it can do without the value.
-/

namespace BankTrace.CommandLine

/-- What a switch is given. -/
inductive Given (α : Type) where
  /-- A value. -/
  | value (a : α)
  /-- Nothing. -/
  | blank
  deriving DecidableEq

namespace Given

variable {α β ε : Type}

/-- What the text behind a switch gives it. -/
def ofText (text : String) : Given String := if text = "--" then .blank else .value text

/-- Read the value, if there is one. -/
def read (reader : α → Except ε β) : Given α → Except ε (Given β)
  | value a => (reader a).map .value
  | blank => .ok .blank

/-- What is given, in words. -/
def text (words : α → String) : Given α → String
  | value a => words a
  | blank => "[]"

/-- All values of a list, unless there is a blank in it. -/
def values? : List (Given α) → Option (List α)
  | [] => some []
  | value a :: rest => (values? rest).map (a :: ·)
  | blank :: _ => none

/-- A list has all its values when it consists of values only. -/
theorem values?_eq_some_iff {given : List (Given α)} {values : List α} :
    values? given = some values ↔ given = values.map value := by
  induction given generalizing values with
  | nil => cases values <;> simp [values?]
  | cons first rest ih =>
    cases values with
    | nil => cases first <;> simp [values?]
    | cons b others =>
      cases first with
      | blank => simp [values?]
      | value a => simpa [values?, ← ih] using And.comm

/-- A blank among the values leaves none of them. -/
theorem values?_eq_none_iff {given : List (Given α)} :
    values? given = none ↔ blank ∈ given := by
  induction given with
  | nil => simp [values?]
  | cons first rest ih => cases first <;> simp [values?, ih]

end Given

end BankTrace.CommandLine
