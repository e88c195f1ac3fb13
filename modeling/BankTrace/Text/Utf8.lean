import BankTrace.Text.Numeral

/-!
# UTF-8 texts

A byte string is read as UTF-8 from left to right. The first byte that cannot be read ends the
reading; the fault tells where it stands, how many bytes belong to the unfinished character, and
whether the first byte cannot start a character, a later one cannot continue it, or the bytes end
too early. Overlong forms, surrogates and code points above `10FFFF` are refused at their second
byte.
-/

namespace BankTrace.Utf8

/-- Why bytes are not UTF-8. -/
inductive Cause where
  /-- The byte cannot start a character. -/
  | start
  /-- The byte after the range cannot continue the character. -/
  | continuation
  /-- The bytes end inside a character. -/
  | ending
  deriving DecidableEq

/-- The bytes from `first` to `last` cannot be read. -/
structure Fault where
  /-- The byte that the character starts with. -/
  lead : UInt8
  /-- Its position. -/
  first : Nat
  /-- The position of the last byte that belongs to it. -/
  last : Nat
  /-- Why it cannot be read. -/
  cause : Cause
  deriving DecidableEq

namespace Fault

/-- The reason in words. -/
def reason : Cause → String
  | .start => "invalid start byte"
  | .continuation => "invalid continuation byte"
  | .ending => "unexpected end of data"

/-- The message of a fault names one byte by its value and several by their positions. -/
def message (f : Fault) : String :=
  "'utf-8' codec can't decode " ++
    (if f.first = f.last then
      "byte 0x" ++ Numeral.byteHex f.lead ++ " in position " ++ toString f.first
    else
      "bytes in position " ++ toString f.first ++ "-" ++ toString f.last) ++
    ": " ++ reason f.cause

end Fault

/-- How a lead byte goes on: the number of further bytes and the bounds of the first of them. -/
def shape? (lead : UInt8) : Option (Nat × UInt8 × UInt8) :=
  if lead < 0x80 then some (0, 0x80, 0xBF)
  else if lead < 0xC2 then none
  else if lead < 0xE0 then some (1, 0x80, 0xBF)
  else if lead = 0xE0 then some (2, 0xA0, 0xBF)
  else if lead = 0xED then some (2, 0x80, 0x9F)
  else if lead < 0xF0 then some (2, 0x80, 0xBF)
  else if lead = 0xF0 then some (3, 0x90, 0xBF)
  else if lead = 0xF4 then some (3, 0x80, 0x8F)
  else if lead < 0xF5 then some (3, 0x80, 0xBF)
  else none

/-- The payload of a lead byte that `more` bytes follow. -/
def leadBits (lead : UInt8) : Nat → Nat
  | 0 => lead.toNat
  | 1 => lead.toNat - 0xC0
  | 2 => lead.toNat - 0xE0
  | _ => lead.toNat - 0xF0

/-- Read `more` bytes that continue a character, the first of them within bounds. The answer is
the code point and the bytes left, or the number of bytes that were right and the cause. -/
def continuation : (more : Nat) → (low high : UInt8) → (value : Nat) → List UInt8 →
    Except (Nat × Cause) (Nat × List UInt8)
  | 0, _, _, value, bytes => .ok (value, bytes)
  | _ + 1, _, _, _, [] => .error (0, .ending)
  | more + 1, low, high, value, b :: bytes =>
    if low ≤ b ∧ b ≤ high then
      match continuation more 0x80 0xBF (value * 64 + (b.toNat - 0x80)) bytes with
      | .ok found => .ok found
      | .error (good, cause) => .error (good + 1, cause)
    else .error (0, .continuation)

/-- Reading a continuation uses up bytes only from the front. -/
theorem continuation_length {more : Nat} {low high : UInt8} {value found : Nat}
    {bytes rest : List UInt8} (h : continuation more low high value bytes = .ok (found, rest)) :
    rest.length ≤ bytes.length := by
  induction more generalizing low high value bytes with
  | zero => simp only [continuation, Except.ok.injEq, Prod.mk.injEq] at h; simp [h.2]
  | succ more ih =>
    cases bytes with
    | nil => simp [continuation] at h
    | cons b bytes =>
      simp only [continuation] at h
      split at h
      · cases inner : continuation more 0x80 0xBF (value * 64 + (b.toNat - 0x80)) bytes with
        | ok pair =>
          simp only [inner, Except.ok.injEq] at h
          subst h
          have := ih inner
          simp only [List.length_cons]
          omega
        | error e => simp [inner] at h
      · simp at h

/-- Read all bytes from `position` on. -/
def decodeFrom (position : Nat) (bytes : List UInt8) : Except Fault (List Char) :=
  match bytes with
  | [] => .ok []
  | lead :: rest =>
    match shape? lead with
    | none => .error ⟨lead, position, position, .start⟩
    | some (more, low, high) =>
      match h : continuation more low high (leadBits lead more) rest with
      | .error (good, cause) => .error ⟨lead, position, position + good, cause⟩
      | .ok (value, left) =>
        (decodeFrom (position + more + 1) left).map (Char.ofNat value :: ·)
termination_by bytes.length
decreasing_by
  have shorter := continuation_length h
  simp only [List.length_cons]
  omega

/-- Read a byte string as text. -/
def decode (bytes : List UInt8) : Except Fault String :=
  (decodeFrom 0 bytes).map String.ofList

/-- Every line end, whether written with a carriage return, a line feed or both, as one line
feed. -/
def unifyLines : List Char → List Char
  | '\r' :: '\n' :: rest => '\n' :: unifyLines rest
  | '\r' :: rest => '\n' :: unifyLines rest
  | c :: rest => c :: unifyLines rest
  | [] => []

end BankTrace.Utf8
