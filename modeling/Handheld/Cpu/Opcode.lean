import Handheld.Cpu.Instruction

/-!
# Opcodes

The map from opcode bytes to instructions, row by row. Eleven bytes name no instruction, and 0xcb
leads to a second page of its own, whose byte is made of three fields: an operation in the top two
bits, a bit number or a shift in the next three, an operand in the last three.
-/
namespace Handheld

/-- The operand of a three-bit code. -/
def Operand.ofCode (code : UInt8) : Operand :=
  match code with
  | 0 => b
  | 1 => c
  | 2 => d
  | 3 => e
  | 4 => h
  | 5 => l
  | 6 => atHL
  | _ => a

/-- The shift of a three-bit code. -/
def Shift.ofCode (code : UInt8) : Shift :=
  match code with
  | 0 => rlc
  | 1 => rrc
  | 2 => rl
  | 3 => rr
  | 4 => sla
  | 5 => sra
  | 6 => swap
  | _ => srl

/-- What the first byte of an instruction says. -/
inductive Opcode where
  | plain (instruction : Instruction)
  /-- The instruction is named by a second byte. -/
  | extended
  | unassigned
  deriving DecidableEq, Repr

namespace Opcode

/-- Opcodes 0x00 to 0xbf, sixteen to a row. Each of them is assigned. -/
def lowerRows : List Instruction :=
  [
  .nop, .loadWord .bc, .storeA .bc, .incrementPair .bc,
  .increment .b, .decrement .b, .loadByte .b, .rotateA .rlc,
  .storeSP, .addHL .bc, .loadA .bc, .decrementPair .bc,
  .increment .c, .decrement .c, .loadByte .c, .rotateA .rrc,

  .stop, .loadWord .de, .storeA .de, .incrementPair .de,
  .increment .d, .decrement .d, .loadByte .d, .rotateA .rl,
  .jumpRelative .always, .addHL .de, .loadA .de, .decrementPair .de,
  .increment .e, .decrement .e, .loadByte .e, .rotateA .rr,

  .jumpRelative .nonzero, .loadWord .hl, .storeA .hlUp, .incrementPair .hl,
  .increment .h, .decrement .h, .loadByte .h, .decimalAdjust,
  .jumpRelative .zero, .addHL .hl, .loadA .hlUp, .decrementPair .hl,
  .increment .l, .decrement .l, .loadByte .l, .complement,

  .jumpRelative .noCarry, .loadWord .sp, .storeA .hlDown, .incrementPair .sp,
  .increment .atHL, .decrement .atHL, .loadByte .atHL, .setCarry,
  .jumpRelative .carry, .addHL .sp, .loadA .hlDown, .decrementPair .sp,
  .increment .a, .decrement .a, .loadByte .a, .complementCarry,

  .load .b .b, .load .b .c, .load .b .d, .load .b .e,
  .load .b .h, .load .b .l, .load .b .atHL, .load .b .a,
  .load .c .b, .load .c .c, .load .c .d, .load .c .e,
  .load .c .h, .load .c .l, .load .c .atHL, .load .c .a,

  .load .d .b, .load .d .c, .load .d .d, .load .d .e,
  .load .d .h, .load .d .l, .load .d .atHL, .load .d .a,
  .load .e .b, .load .e .c, .load .e .d, .load .e .e,
  .load .e .h, .load .e .l, .load .e .atHL, .load .e .a,

  .load .h .b, .load .h .c, .load .h .d, .load .h .e,
  .load .h .h, .load .h .l, .load .h .atHL, .load .h .a,
  .load .l .b, .load .l .c, .load .l .d, .load .l .e,
  .load .l .h, .load .l .l, .load .l .atHL, .load .l .a,

  .load .atHL .b, .load .atHL .c, .load .atHL .d, .load .atHL .e,
  .load .atHL .h, .load .atHL .l, .halt, .load .atHL .a,
  .load .a .b, .load .a .c, .load .a .d, .load .a .e,
  .load .a .h, .load .a .l, .load .a .atHL, .load .a .a,

  .arithmetic .add .b, .arithmetic .add .c, .arithmetic .add .d, .arithmetic .add .e,
  .arithmetic .add .h, .arithmetic .add .l, .arithmetic .add .atHL, .arithmetic .add .a,
  .arithmetic .adc .b, .arithmetic .adc .c, .arithmetic .adc .d, .arithmetic .adc .e,
  .arithmetic .adc .h, .arithmetic .adc .l, .arithmetic .adc .atHL, .arithmetic .adc .a,

  .arithmetic .sub .b, .arithmetic .sub .c, .arithmetic .sub .d, .arithmetic .sub .e,
  .arithmetic .sub .h, .arithmetic .sub .l, .arithmetic .sub .atHL, .arithmetic .sub .a,
  .arithmetic .sbc .b, .arithmetic .sbc .c, .arithmetic .sbc .d, .arithmetic .sbc .e,
  .arithmetic .sbc .h, .arithmetic .sbc .l, .arithmetic .sbc .atHL, .arithmetic .sbc .a,

  .arithmetic .and .b, .arithmetic .and .c, .arithmetic .and .d, .arithmetic .and .e,
  .arithmetic .and .h, .arithmetic .and .l, .arithmetic .and .atHL, .arithmetic .and .a,
  .arithmetic .xor .b, .arithmetic .xor .c, .arithmetic .xor .d, .arithmetic .xor .e,
  .arithmetic .xor .h, .arithmetic .xor .l, .arithmetic .xor .atHL, .arithmetic .xor .a,

  .arithmetic .or .b, .arithmetic .or .c, .arithmetic .or .d, .arithmetic .or .e,
  .arithmetic .or .h, .arithmetic .or .l, .arithmetic .or .atHL, .arithmetic .or .a,
  .arithmetic .cp .b, .arithmetic .cp .c, .arithmetic .cp .d, .arithmetic .cp .e,
  .arithmetic .cp .h, .arithmetic .cp .l, .arithmetic .cp .atHL, .arithmetic .cp .a
  ]

/-- Opcodes 0xc0 to 0xff, sixteen to a row. -/
def upperRows : List Opcode :=
  [
  .plain (.ret .nonzero), .plain (.pop .bc), .plain (.jump .nonzero), .plain (.jump .always),
  .plain (.call .nonzero), .plain (.push .bc), .plain (.arithmeticByte .add),
  .plain (.restart 0x00),
  .plain (.ret .zero), .plain (.ret .always), .plain (.jump .zero), .extended,
  .plain (.call .zero), .plain (.call .always), .plain (.arithmeticByte .adc),
  .plain (.restart 0x08),

  .plain (.ret .noCarry), .plain (.pop .de), .plain (.jump .noCarry), .unassigned,
  .plain (.call .noCarry), .plain (.push .de), .plain (.arithmeticByte .sub),
  .plain (.restart 0x10),
  .plain (.ret .carry), .plain .returnEnable, .plain (.jump .carry), .unassigned,
  .plain (.call .carry), .unassigned, .plain (.arithmeticByte .sbc), .plain (.restart 0x18),

  .plain .storeAHigh, .plain (.pop .hl), .plain .storeAHighC, .unassigned,
  .unassigned, .plain (.push .hl), .plain (.arithmeticByte .and), .plain (.restart 0x20),
  .plain .addSP, .plain .jumpHL, .plain .storeATo, .unassigned,
  .unassigned, .unassigned, .plain (.arithmeticByte .xor), .plain (.restart 0x28),

  .plain .loadAHigh, .plain (.pop .af), .plain .loadAHighC, .plain .disableInterrupts,
  .unassigned, .plain (.push .af), .plain (.arithmeticByte .or), .plain (.restart 0x30),
  .plain .loadHLSP, .plain .loadSPHL, .plain .loadAFrom, .plain .enableInterrupts,
  .unassigned, .unassigned, .plain (.arithmeticByte .cp), .plain (.restart 0x38)
  ]

def table : Array Opcode := (lowerRows.map plain ++ upperRows).toArray

/-- The meaning of a first byte. The map covers all 256 of them. -/
def ofByte (byte : UInt8) : Opcode := table.getD byte.toNat .unassigned

theorem size_table : table.size = 256 := by decide +kernel

end Opcode

/-- The instruction of the second page that a byte names. -/
def Instruction.ofSecondByte (byte : UInt8) : Instruction :=
  let operand := Operand.ofCode (byte &&& 0x07)
  let field := (byte >>> 3) &&& 0x07
  let bit := Fin.ofNat 8 field.toNat
  match byte >>> 6 with
  | 0 => .shift (.ofCode field) operand
  | 1 => .testBit bit operand
  | 2 => .resetBit bit operand
  | _ => .setBit bit operand

end Handheld
