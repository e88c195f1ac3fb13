import BankTrace.Text.Numeral
import BankTrace.Text.Printable

/-!
# Quoted texts

Messages show a text they complain about between quotes. The quote is `'`, unless the text holds
`'` and not `"`. Inside, the quote and the backslash are written after a backslash, tab, line feed
and carriage return have names, and any other character that cannot be printed is written by its
code point.
-/

namespace BankTrace.Quoted

/-- The quote that a text is set in. -/
def quote (s : String) : Char :=
  if s.toList.contains '\'' && !s.toList.contains '"' then '"' else '\''

/-- Small hexadecimal digits of a code point after a mark, padded with zeros to `width`. -/
def codePoint (mark : String) (width : Nat) (c : Char) : String :=
  "\\" ++ mark ++ Numeral.signed width "" Numeral.lowerDigits c.toNat

/-- A character as it is written between quotes. -/
def escaped (quote c : Char) : String :=
  if c = quote ∨ c = '\\' then "\\" ++ c.toString
  else if c = '\t' then "\\t"
  else if c = '\n' then "\\n"
  else if c = '\r' then "\\r"
  else if Printable.isPrintable c then c.toString
  else if c.toNat < 0x100 then codePoint "x" 2 c
  else if c.toNat < 0x10000 then codePoint "u" 4 c
  else codePoint "U" 8 c

/-- The text between quotes. -/
def render (s : String) : String :=
  let q := quote s
  q.toString ++ String.join (s.toList.map (escaped q)) ++ q.toString

end BankTrace.Quoted
