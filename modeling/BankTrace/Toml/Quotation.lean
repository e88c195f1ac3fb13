import BankTrace.Text.Digit

/-!
# Quotations

A text stands between quotes or apostrophes, one on either side or three. Between quotes, a
backslash gives a character by a name or a number; between apostrophes, every character stands for
itself. Three of them allow line ends inside, and one line end right behind them is dropped. Up to
two more quotes in front of three that end a text belong to it.
-/

namespace BankTrace.Toml.Quotation

/-- The character is a control character, apart from the tab. -/
def isControl (c : Char) : Bool := (c.toNat < 0x20 && c ≠ '\t') || c.toNat = 0x7F

/-- The character must not stand in a text. -/
def isIllegal (lines : Bool) (c : Char) : Bool := isControl c && !(lines && c = '\n')

/-- The character is a blank or a tab. -/
def isSpace (c : Char) : Bool := c = ' ' || c = '\t'

/-- The character is a blank, a tab or a line end. -/
def isSpaceOrLine (c : Char) : Bool := isSpace c || c = '\n'

/-- The number of a character that has one: surrogates have none. -/
def character? (n : Nat) : Option Char :=
  if h : n.isValidChar then some (Char.ofNatAux n h) else none

/-- The character that `count` hexadecimal digits at the front give. -/
def numbered? (count : Nat) (s : List Char) : Option (Char × List Char) := do
  let digits := s.take count
  if digits.length < count then none
  let values ← digits.mapM Digit.hex?
  let c ← character? (values.foldl (fun n d => n * 16 + d) 0)
  return (c, s.drop count)

/-- The character that a letter behind a backslash names. -/
def named? : Char → Option Char
  | 'b' => some '\x08'
  | 't' => some '\t'
  | 'n' => some '\n'
  | 'f' => some '\x0C'
  | 'r' => some '\r'
  | '"' => some '"'
  | '\\' => some '\\'
  | _ => none

/-- The character that a backslash and what is behind it stand for. -/
def escape? : List Char → Option (Char × List Char)
  | 'u' :: rest => numbered? 4 rest
  | 'U' :: rest => numbered? 8 rest
  | c :: rest => (named? c).map fun named => (named, rest)
  | [] => none

/-- What is behind a backslash at the end of a line: the text goes on at the next character that is
no blank. -/
def continued? (s : List Char) : Option (List Char) :=
  match s.dropWhile isSpace with
  | '\n' :: rest => some (rest.dropWhile isSpaceOrLine)
  | _ => none

theorem length_dropWhile_le (p : Char → Bool) (s : List Char) : (s.dropWhile p).length ≤ s.length :=
  (List.dropWhile_sublist p).length_le

theorem length_of_numbered? {count : Nat} {s rest : List Char} {c : Char}
    (h : numbered? count s = some (c, rest)) : rest.length ≤ s.length := by
  simp only [numbered?, bind, Option.bind] at h
  grind

theorem length_of_escape? {s rest : List Char} {c : Char} (h : escape? s = some (c, rest)) :
    rest.length ≤ s.length := by
  unfold escape? at h
  split at h
  · have := length_of_numbered? h
    simp only [List.length_cons]
    omega
  · have := length_of_numbered? h
    simp only [List.length_cons]
    omega
  · simp only [Option.map_eq_some_iff, Prod.mk.injEq] at h
    obtain ⟨_, _, _, rfl⟩ := h
    simp
  · simp at h

theorem length_of_continued? {s rest : List Char} (h : continued? s = some rest) :
    rest.length ≤ s.length := by
  have shorter := length_dropWhile_le isSpace s
  unfold continued? at h
  split at h
  · rename_i behind equation
    have := length_dropWhile_le isSpaceOrLine behind
    simp only [equation, List.length_cons, Option.some.injEq] at shorter h
    subst h
    omega
  · simp at h

/-- What is behind a mark and two more of its kind at the front, or behind one mark where a text has
one line. -/
def closing? (lines : Bool) (mark : Char) (rest : List Char) : Option (List Char) :=
  if lines then
    match rest with
    | c :: d :: behind => if c = mark ∧ d = mark then some behind else none
    | _ => none
  else some rest

/-- A text up to the quotes that end it, and what is behind them. -/
def basic? (lines : Bool) (s : List Char) : Option (List Char × List Char) :=
  match s with
  | [] => none
  | '"' :: rest =>
    match closing? lines '"' rest with
    | some behind => some ([], behind)
    | none => (basic? lines rest).map fun (text, behind) => ('"' :: text, behind)
  | '\\' :: rest =>
    match _read : escape? rest with
    | some (c, behind) => (basic? lines behind).map fun (text, behind) => (c :: text, behind)
    | none =>
      match _joined : continued? rest with
      | some behind => if lines then basic? lines behind else none
      | none => none
  | c :: rest =>
    if isIllegal lines c then none
    else (basic? lines rest).map fun (text, behind) => (c :: text, behind)
termination_by s.length
decreasing_by
  · simp
  · have := length_of_escape? _read
    simp only [List.length_cons]
    omega
  · have := length_of_continued? _joined
    simp only [List.length_cons]
    omega
  · simp

/-- A text up to the apostrophes that end it, and what is behind them. -/
def literal? (lines : Bool) : List Char → Option (List Char × List Char)
  | [] => none
  | '\'' :: rest =>
    match closing? lines '\'' rest with
    | some behind => some ([], behind)
    | none => (literal? lines rest).map fun (text, behind) => ('\'' :: text, behind)
  | c :: rest =>
    if isIllegal lines c then none
    else (literal? lines rest).map fun (text, behind) => (c :: text, behind)

/-- Up to two more of the mark that ended a text. -/
def more (mark : Char) (text : List Char) : List Char → List Char × List Char
  | c :: d :: rest =>
    if c = mark then
      if d = mark then (text ++ [mark, mark], rest) else (text ++ [mark], d :: rest)
    else (text, c :: d :: rest)
  | [c] => if c = mark then (text ++ [mark], []) else (text, [c])
  | [] => (text, [])

/-- What is behind a line end at the front. -/
def dropLine : List Char → List Char
  | '\n' :: rest => rest
  | rest => rest

/-- A text on one line, at the front. -/
def line? : List Char → Option (List Char × List Char)
  | '"' :: rest => basic? false rest
  | '\'' :: rest => literal? false rest
  | _ => none

/-- A text at the front. -/
def read? (s : List Char) : Option (List Char × List Char) :=
  match s with
  | '"' :: '"' :: '"' :: rest =>
    (basic? true (dropLine rest)).map fun (text, behind) => more '"' text behind
  | '\'' :: '\'' :: '\'' :: rest =>
    (literal? true (dropLine rest)).map fun (text, behind) => more '\'' text behind
  | _ => line? s

end BankTrace.Toml.Quotation
