import BankTrace.Path

/-!
# Literal paths

A literal path is a text that is followed step by step as it stands: a single dot is a step that
stays where it is, and a slash at the end asks for a directory. Cutting a literal path at its last
slash gives what leads to the directory, which is shorter than the text, and the name there.
-/

namespace BankTrace

/-- A text that is followed step by step. -/
structure LiteralPath where
  /-- The characters of the text. -/
  chars : List Char
  deriving DecidableEq

namespace LiteralPath

/-- A text as a literal path. -/
def ofString (s : String) : LiteralPath := ⟨s.toList⟩

/-- The text of a literal path. -/
def text (p : LiteralPath) : String := String.ofList p.chars

/-- Where the path starts. -/
def root (p : LiteralPath) : Path.Root := Path.rootOf p.chars

/-- The steps of the path. -/
def steps (p : LiteralPath) : List String :=
  ((Path.splitSlashes p.chars).filter (· ≠ [])).map String.ofList

/-- The steps to a directory that a slash at the end asks for: one more, which stays there. -/
def stepsInside (p : LiteralPath) : List String :=
  if p.chars.getLast? = some '/' then p.steps ++ ["."] else p.steps

/-- The part of a text behind its last slash. -/
def lastPart (s : List Char) : List Char := (s.reverse.takeWhile (· ≠ '/')).reverse

/-- The part of a text in front of its last slash, without slashes at its end unless it consists of
slashes. -/
def front (s : List Char) : List Char :=
  let slashed := s.reverse.dropWhile (· ≠ '/')
  match slashed.dropWhile (· = '/') with
  | [] => slashed.reverse
  | kept => kept.reverse

theorem length_front_add_length_lastPart (s : List Char) :
    (front s).length + (lastPart s).length ≤ s.length := by
  have parts := congrArg List.length
    (List.takeWhile_append_dropWhile (p := fun c => decide (c ≠ '/')) (l := s.reverse))
  have kept := (List.dropWhile_sublist (fun c => decide (c = '/'))
    (l := s.reverse.dropWhile fun c => decide (c ≠ '/'))).length_le
  simp only [List.length_append, List.length_reverse] at parts
  simp only [front, lastPart, List.length_reverse]
  split <;> simp_all only [List.length_reverse, List.length_nil] <;> omega

/-- What leads to the directory of a literal path, and the name there. Slashes at the end of the
text do not count. -/
def cut (s : List Char) : List Char × List Char :=
  match lastPart s with
  | [] => (front (front s), lastPart (front s))
  | name => (front s, name)

/-- Where there is a name, what leads to its directory is shorter than the text. -/
theorem length_cut_lt {s : List Char} (named : (cut s).2 ≠ []) :
    (cut s).1.length < s.length := by
  have whole := length_front_add_length_lastPart s
  have inner := length_front_add_length_lastPart (front s)
  unfold cut at named ⊢
  split at named
  · have := List.length_pos_iff.2 named
    simp_all only
    omega
  · have := List.length_pos_iff.2 named
    simp_all only
    omega

end LiteralPath

end BankTrace
