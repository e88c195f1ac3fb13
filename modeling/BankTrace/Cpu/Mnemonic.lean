/-!
# Mnemonics

The names of the operations of the 6502, those that its documentation lists first and then those
that it leaves out. An operation reads its operand, writes it, or reads it and writes it back; what
this says about memory depends on the addressing mode.
-/

namespace BankTrace

/-- The name of an operation. -/
inductive Mnemonic where
  | lda | ldx | ldy | sta | stx | sty | tax | tay | tsx | txa | txs | tya | pha | php | pla
  | plp | and | eor | ora | bit | adc | sbc | cmp | cpx | cpy | inc | inx | iny | dec | dex
  | dey | asl | lsr | rol | ror | jmp | jsr | rts | bcc | bcs | beq | bmi | bne | bpl | bvc
  | bvs | clc | cld | cli | clv | sec | sed | sei | brk | nop | rti
  | slo | rla | sre | rra | sax | lax | dcp | isc | anc | alr | arr | xaa | axs | ahx | shy
  | shx | tas | las | kil
  deriving DecidableEq, Inhabited

namespace Mnemonic

/-- The name as it is written. -/
def text : Mnemonic → String
  | .lda => "lda"
  | .ldx => "ldx"
  | .ldy => "ldy"
  | .sta => "sta"
  | .stx => "stx"
  | .sty => "sty"
  | .tax => "tax"
  | .tay => "tay"
  | .tsx => "tsx"
  | .txa => "txa"
  | .txs => "txs"
  | .tya => "tya"
  | .pha => "pha"
  | .php => "php"
  | .pla => "pla"
  | .plp => "plp"
  | .and => "and"
  | .eor => "eor"
  | .ora => "ora"
  | .bit => "bit"
  | .adc => "adc"
  | .sbc => "sbc"
  | .cmp => "cmp"
  | .cpx => "cpx"
  | .cpy => "cpy"
  | .inc => "inc"
  | .inx => "inx"
  | .iny => "iny"
  | .dec => "dec"
  | .dex => "dex"
  | .dey => "dey"
  | .asl => "asl"
  | .lsr => "lsr"
  | .rol => "rol"
  | .ror => "ror"
  | .jmp => "jmp"
  | .jsr => "jsr"
  | .rts => "rts"
  | .bcc => "bcc"
  | .bcs => "bcs"
  | .beq => "beq"
  | .bmi => "bmi"
  | .bne => "bne"
  | .bpl => "bpl"
  | .bvc => "bvc"
  | .bvs => "bvs"
  | .clc => "clc"
  | .cld => "cld"
  | .cli => "cli"
  | .clv => "clv"
  | .sec => "sec"
  | .sed => "sed"
  | .sei => "sei"
  | .brk => "brk"
  | .nop => "nop"
  | .rti => "rti"
  | .slo => "slo"
  | .rla => "rla"
  | .sre => "sre"
  | .rra => "rra"
  | .sax => "sax"
  | .lax => "lax"
  | .dcp => "dcp"
  | .isc => "isc"
  | .anc => "anc"
  | .alr => "alr"
  | .arr => "arr"
  | .xaa => "xaa"
  | .axs => "axs"
  | .ahx => "ahx"
  | .shy => "shy"
  | .shx => "shx"
  | .tas => "tas"
  | .las => "las"
  | .kil => "kil"

/-- The documentation of the processor lists the operation. -/
def isDocumented : Mnemonic → Bool
  | .slo | .rla | .sre | .rra | .sax | .lax | .dcp | .isc | .anc | .alr | .arr | .xaa | .axs
  | .ahx | .shy | .shx | .tas | .las | .kil => false
  | _ => true

/-- The operation stores a register and does not look at its operand. -/
def isStore : Mnemonic → Bool
  | .sta | .stx | .sty | .sax | .ahx | .shx | .shy | .tas => true
  | _ => false

/-- The operation changes its operand in place. -/
def isModify : Mnemonic → Bool
  | .asl | .lsr | .rol | .ror | .inc | .dec | .slo | .rla | .sre | .rra | .dcp | .isc => true
  | _ => false

/-- The operand is the place where execution goes on, not a value. -/
def isTransfer : Mnemonic → Bool
  | .jmp | .jsr => true
  | _ => false

end Mnemonic

end BankTrace
