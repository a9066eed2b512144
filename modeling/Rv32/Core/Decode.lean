import Rv32.Core.State

/-!
# `Core.Decode` — the field macros of an instruction word

`RD`, `RS1`, `IMM_I`, `SEXT_IMM_J` and the others, shift for shift as `rv32.h` writes them. Register
fields are `Fin 32` because `& 0x1f` makes them so. What each macro reads out of a word is proved in
`Isa.Format`, against the encoding.
-/

namespace Rv32

/-- `SEXT(x, n)` -/
def sext (x : Word) (n : Nat) : Word :=
  if x &&& (1#32 <<< (n - 1)) ≠ 0 then x ||| (0xFFFFFFFF#32 <<< n) else x

/-- A register field: the five bits from `start` on. -/
def registerField (instr : Word) (start : Nat) : Fin 32 :=
  ⟨((instr >>> start) &&& 0x1f).toNat, by
    rw [BitVec.toNat_and]; exact Nat.lt_of_le_of_lt Nat.and_le_right (by decide)⟩

def rd (instr : Word) : Fin 32 := registerField instr 7
def rs1 (instr : Word) : Fin 32 := registerField instr 15
def rs2 (instr : Word) : Fin 32 := registerField instr 20

def immI (instr : Word) : Word := (instr >>> 20) &&& 0xfff
def sextImmI (instr : Word) : Word := sext (immI instr) 12

def immS (instr : Word) : Word := ((instr &&& 0xf80) >>> 7) ||| ((instr &&& 0xfe000000) >>> 20)
def sextImmS (instr : Word) : Word := sext (immS instr) 12

def immB (instr : Word) : Word :=
  ((instr &&& 0xf00) >>> 7) ||| ((instr &&& 0x7e000000) >>> 20) |||
    ((instr &&& 0x80) <<< 4) ||| ((instr &&& 0x80000000) >>> 19)
def sextImmB (instr : Word) : Word := sext (immB instr) 13

def immU (instr : Word) : Word := instr >>> 12
def sextImmU (instr : Word) : Word := sext (immU instr) 20

def immJ (instr : Word) : Word :=
  ((instr &&& 0x7fe00000) >>> 20) ||| ((instr &&& 0x100000) >>> 9) |||
    (instr &&& 0xff000) ||| ((instr &&& 0x80000000) >>> 11)
def sextImmJ (instr : Word) : Word := sext (immJ instr) 20

/-- The locals `opcode`, `funct3` and `funct7` of `rv32_cycle`, all `uint8_t`. -/
def opcode (instr : Word) : BitVec 8 := (instr &&& 0x7f).setWidth 8
def funct3 (instr : Word) : BitVec 8 := ((instr >>> 12) &&& 0x7).setWidth 8
def funct7 (instr : Word) : BitVec 8 := ((instr >>> 25) &&& 0x7f).setWidth 8

end Rv32
