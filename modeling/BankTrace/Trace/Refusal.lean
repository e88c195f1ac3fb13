/-!
# Refusals

Why an instruction that can be read is not believed to be one.
-/

namespace BankTrace

/-- A reason not to believe an instruction. -/
inductive Refusal where
  /-- The settings do not allow `brk`. -/
  | brk
  /-- The settings do not allow `clv`. -/
  | clv
  /-- The settings do not allow `sed`. -/
  | sed
  /-- The settings do not allow opcodes that the documentation leaves out. -/
  | undocumented
  /-- The two bytes of the pointer are not behind each other. -/
  | pointerWraps
  /-- No address that may be read is readable. -/
  | unreadable
  /-- No address that may be written is writable. -/
  | unwritable
  /-- Execution goes on outside the bank. -/
  | leavesBank
  deriving DecidableEq

/-- The reason in words. -/
def Refusal.text : Refusal → String
  | brk => "brk not allowed"
  | clv => "clv not allowed"
  | sed => "sed not allowed"
  | undocumented => "undocumented opcode"
  | pointerWraps => "indirect pointer wraps within its page"
  | unreadable => "reads only unreadable addresses"
  | unwritable => "writes only unwritable addresses"
  | leavesBank => "successor leaves the bank"

end BankTrace
