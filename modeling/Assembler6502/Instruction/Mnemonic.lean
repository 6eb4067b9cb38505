import Assembler6502.Text.Basic

/-!
# Mnemonics

The names of the fifty-six instructions.
-/

namespace Assembler6502

inductive Mnemonic where
  | adc | and | asl | bit | bpl | bmi | bvc | bvs | bcc | bcs | bne | beq | brk | cmp | cpx | cpy
  | dec | eor | clc | sec | cli | sei | clv | cld | sed | inc | jmp | jsr | lda | ldx | ldy | lsr
  | nop | ora | tax | txa | dex | inx | tay | tya | dey | iny | rol | ror | rti | rts | sbc | sta
  | txs | tsx | pha | pla | php | plp | stx | sty
deriving DecidableEq, Repr

namespace Mnemonic

def all : List Mnemonic :=
  [.adc, .and, .asl, .bit, .bpl, .bmi, .bvc, .bvs, .bcc, .bcs, .bne, .beq, .brk, .cmp, .cpx, .cpy,
    .dec, .eor, .clc, .sec, .cli, .sei, .clv, .cld, .sed, .inc, .jmp, .jsr, .lda, .ldx, .ldy, .lsr,
    .nop, .ora, .tax, .txa, .dex, .inx, .tay, .tya, .dey, .iny, .rol, .ror, .rti, .rts, .sbc, .sta,
    .txs, .tsx, .pha, .pla, .php, .plp, .stx, .sty]

def name : Mnemonic → Text
  | adc => "adc".toList
  | and => "and".toList
  | asl => "asl".toList
  | bit => "bit".toList
  | bpl => "bpl".toList
  | bmi => "bmi".toList
  | bvc => "bvc".toList
  | bvs => "bvs".toList
  | bcc => "bcc".toList
  | bcs => "bcs".toList
  | bne => "bne".toList
  | beq => "beq".toList
  | brk => "brk".toList
  | cmp => "cmp".toList
  | cpx => "cpx".toList
  | cpy => "cpy".toList
  | dec => "dec".toList
  | eor => "eor".toList
  | clc => "clc".toList
  | sec => "sec".toList
  | cli => "cli".toList
  | sei => "sei".toList
  | clv => "clv".toList
  | cld => "cld".toList
  | sed => "sed".toList
  | inc => "inc".toList
  | jmp => "jmp".toList
  | jsr => "jsr".toList
  | lda => "lda".toList
  | ldx => "ldx".toList
  | ldy => "ldy".toList
  | lsr => "lsr".toList
  | nop => "nop".toList
  | ora => "ora".toList
  | tax => "tax".toList
  | txa => "txa".toList
  | dex => "dex".toList
  | inx => "inx".toList
  | tay => "tay".toList
  | tya => "tya".toList
  | dey => "dey".toList
  | iny => "iny".toList
  | rol => "rol".toList
  | ror => "ror".toList
  | rti => "rti".toList
  | rts => "rts".toList
  | sbc => "sbc".toList
  | sta => "sta".toList
  | txs => "txs".toList
  | tsx => "tsx".toList
  | pha => "pha".toList
  | pla => "pla".toList
  | php => "php".toList
  | plp => "plp".toList
  | stx => "stx".toList
  | sty => "sty".toList

def ofName? (name : Text) : Option Mnemonic :=
  all.find? (·.name = name)

end Mnemonic

end Assembler6502
