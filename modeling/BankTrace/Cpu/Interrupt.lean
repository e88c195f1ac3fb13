import BankTrace.Trace.Settings

/-!
# Interrupts

The processor knows three interrupts. For each of them the last bytes of the address space hold a
vector: two bytes, the lower one first, that give the address of the handler.
-/

namespace BankTrace

/-- An interrupt of the processor. -/
inductive Interrupt where
  /-- The non-maskable interrupt. -/
  | nmi
  /-- The reset. -/
  | reset
  /-- The interrupt request, which `brk` shares. -/
  | irq
  deriving DecidableEq

namespace Interrupt

/-- The name of the interrupt. -/
def text : Interrupt → String
  | nmi => "NMI"
  | reset => "RESET"
  | irq => "IRQ"

/-- The address of the vector. -/
def vector : Interrupt → Int
  | nmi => 0xFFFA
  | reset => 0xFFFC
  | irq => 0xFFFE

/-- All interrupts in the order of their vectors. -/
def all : List Interrupt := [nmi, reset, irq]

/-- The settings ask for the handler of the interrupt. -/
def isEnabled (settings : Settings) : Interrupt → Bool
  | nmi => settings.useNmi
  | reset => settings.useReset
  | irq => settings.useIrq

/-- The interrupts whose handlers the settings ask for, in the order of their vectors. -/
def enabled (settings : Settings) : List Interrupt := all.filter (isEnabled settings)

end Interrupt

end BankTrace
