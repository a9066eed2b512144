import Rv32.Core.Cycle

/-!
# `Isa.Format` — the instruction formats and the field macros that read them

The formats are the ones of the unprivileged ISA, written as concatenations. The R-format is the finest
cut of the 32 bits and every other format regroups its fields, so there is one lemma for each macro of
`rv32.h`, over `encodeR`; the immediates of the I- and S-formats follow. `encodeR_fields` and its
siblings say that the fields of any word encode back to the word.
-/

namespace Rv32
namespace Isa

def encodeR (funct7 : BitVec 7) (rs2 rs1 : BitVec 5) (funct3 : BitVec 3) (rd : BitVec 5)
    (opcode : BitVec 7) : Word :=
  funct7 ++ rs2 ++ rs1 ++ funct3 ++ rd ++ opcode

def encodeI (imm : BitVec 12) (rs1 : BitVec 5) (funct3 : BitVec 3) (rd : BitVec 5)
    (opcode : BitVec 7) : Word :=
  imm ++ rs1 ++ funct3 ++ rd ++ opcode

def encodeS (imm : BitVec 12) (rs2 rs1 : BitVec 5) (funct3 : BitVec 3) (opcode : BitVec 7) : Word :=
  encodeR (imm.extractLsb' 5 7) rs2 rs1 funct3 (imm.extractLsb' 0 5) opcode

/-- B-format; `imm` is the offset without its bit 0. -/
def encodeB (imm : BitVec 12) (rs2 rs1 : BitVec 5) (funct3 : BitVec 3) (opcode : BitVec 7) : Word :=
  encodeR (imm.extractLsb' 11 1 ++ imm.extractLsb' 4 6) rs2 rs1 funct3
    (imm.extractLsb' 0 4 ++ imm.extractLsb' 10 1) opcode

def encodeU (imm : BitVec 20) (rd : BitVec 5) (opcode : BitVec 7) : Word := imm ++ rd ++ opcode

/-- J-format; `imm` is the offset without its bit 0. -/
def encodeJ (imm : BitVec 20) (rd : BitVec 5) (opcode : BitVec 7) : Word :=
  imm.extractLsb' 19 1 ++ imm.extractLsb' 0 10 ++ imm.extractLsb' 10 1 ++ imm.extractLsb' 11 8 ++
    rd ++ opcode

/-! ## The fields of a word -/

def opcodeOf (w : Word) : BitVec 7 := w.extractLsb' 0 7
def rdOf (w : Word) : BitVec 5 := w.extractLsb' 7 5
def funct3Of (w : Word) : BitVec 3 := w.extractLsb' 12 3
def rs1Of (w : Word) : BitVec 5 := w.extractLsb' 15 5
def rs2Of (w : Word) : BitVec 5 := w.extractLsb' 20 5
def funct7Of (w : Word) : BitVec 7 := w.extractLsb' 25 7
def immIOf (w : Word) : BitVec 12 := w.extractLsb' 20 12
def immSOf (w : Word) : BitVec 12 := funct7Of w ++ rdOf w
def immBOf (w : Word) : BitVec 12 :=
  w.extractLsb' 31 1 ++ w.extractLsb' 7 1 ++ w.extractLsb' 25 6 ++ w.extractLsb' 8 4
def immUOf (w : Word) : BitVec 20 := w.extractLsb' 12 20
def immJOf (w : Word) : BitVec 20 :=
  w.extractLsb' 31 1 ++ w.extractLsb' 12 8 ++ w.extractLsb' 20 1 ++ w.extractLsb' 21 10

/-- The slot a register field names. -/
def reg (r : BitVec 5) : Fin 32 := ⟨r.toNat, r.isLt⟩

theorem reg_eq_zero_iff (r : BitVec 5) : reg r = regZero ↔ r = 0 := by
  constructor
  · intro h
    exact BitVec.eq_of_toNat_eq (congrArg Fin.val h)
  · rintro rfl; rfl

/-- The value an instruction reads from the register a field names: `x0` reads as 0. -/
def xreg {σ : Type} (s : RV32 σ) (i : BitVec 5) : Word := if i = 0 then 0 else s.r (reg i)

theorem resetZero_r_reg {σ : Type} (s : RV32 σ) (i : BitVec 5) :
    s.resetZero.r (reg i) = xreg s i := by
  unfold xreg
  by_cases h : i = 0
  · rw [if_pos h, h]; exact resetZero_r_zero s
  · rw [if_neg h]; exact resetZero_r_of_ne s (fun he => h ((reg_eq_zero_iff i).mp he))

/-! ## Every word is the encoding of its fields -/

theorem encodeR_fields (w : Word) :
    encodeR (funct7Of w) (rs2Of w) (rs1Of w) (funct3Of w) (rdOf w) (opcodeOf w) = w := by
  simp (disch := decide) only [encodeR, funct7Of, rs2Of, rs1Of, funct3Of, rdOf, opcodeOf,
    BitVec.extractLsb'_append_extractLsb'_eq_extractLsb', BitVec.extractLsb'_eq_self]

theorem encodeI_fields (w : Word) :
    encodeI (immIOf w) (rs1Of w) (funct3Of w) (rdOf w) (opcodeOf w) = w := by
  simp (disch := decide) only [encodeI, immIOf, rs1Of, funct3Of, rdOf, opcodeOf,
    BitVec.extractLsb'_append_extractLsb'_eq_extractLsb', BitVec.extractLsb'_eq_self]

theorem encodeS_fields (w : Word) :
    encodeS (immSOf w) (rs2Of w) (rs1Of w) (funct3Of w) (opcodeOf w) = w := by
  have hhigh : (immSOf w).extractLsb' 5 7 = funct7Of w := by
    simp (disch := decide) only [immSOf, BitVec.extractLsb'_append_eq_of_le]
    exact BitVec.extractLsb'_eq_self
  have hlow : (immSOf w).extractLsb' 0 5 = rdOf w := by
    simp (disch := decide) only [immSOf, BitVec.extractLsb'_append_eq_of_add_le]
    exact BitVec.extractLsb'_eq_self
  rw [encodeS, hhigh, hlow, encodeR_fields]

theorem encodeB_fields (w : Word) :
    encodeB (immBOf w) (rs2Of w) (rs1Of w) (funct3Of w) (opcodeOf w) = w := by
  have hhigh : (immBOf w).extractLsb' 11 1 ++ (immBOf w).extractLsb' 4 6 = funct7Of w := by
    simp (disch := decide) only [immBOf, BitVec.extractLsb'_append_eq_of_le,
      BitVec.extractLsb'_append_eq_of_add_le, Nat.reduceSub, BitVec.extractLsb'_eq_self]
    exact BitVec.extractLsb'_append_extractLsb'_eq_extractLsb' (by decide)
  have hlow : (immBOf w).extractLsb' 0 4 ++ (immBOf w).extractLsb' 10 1 = rdOf w := by
    simp (disch := decide) only [immBOf, BitVec.extractLsb'_append_eq_of_le,
      BitVec.extractLsb'_append_eq_of_add_le, Nat.reduceSub, BitVec.extractLsb'_eq_self]
    exact BitVec.extractLsb'_append_extractLsb'_eq_extractLsb' (by decide)
  rw [encodeB, hhigh, hlow, encodeR_fields]

theorem encodeJ_fields (w : Word) : encodeJ (immJOf w) (rdOf w) (opcodeOf w) = w := by
  simp (disch := decide) only [encodeJ, immJOf, rdOf, opcodeOf, BitVec.extractLsb'_append_eq_of_le,
    BitVec.extractLsb'_append_eq_of_add_le, Nat.reduceSub, BitVec.extractLsb'_eq_self,
    BitVec.extractLsb'_append_extractLsb'_eq_extractLsb']

theorem encodeU_fields (w : Word) : encodeU (immUOf w) (rdOf w) (opcodeOf w) = w := by
  simp (disch := decide) only [encodeU, immUOf, rdOf, opcodeOf,
    BitVec.extractLsb'_append_extractLsb'_eq_extractLsb', BitVec.extractLsb'_eq_self]

/-! ## The fields of an encoding -/

section Fields

variable (funct7 : BitVec 7) (rs2 rs1 : BitVec 5) (funct3 : BitVec 3) (rd : BitVec 5)
  (opcode : BitVec 7)

@[simp] theorem opcodeOf_encodeR : opcodeOf (encodeR funct7 rs2 rs1 funct3 rd opcode) = opcode := by
  simp (disch := decide) only [opcodeOf, encodeR, BitVec.extractLsb'_append_eq_of_add_le,
    BitVec.extractLsb'_eq_self]

@[simp] theorem rdOf_encodeR : rdOf (encodeR funct7 rs2 rs1 funct3 rd opcode) = rd := by
  simp (disch := decide) only [rdOf, encodeR, BitVec.extractLsb'_append_eq_of_le,
    BitVec.extractLsb'_append_eq_of_add_le, Nat.reduceSub, BitVec.extractLsb'_eq_self]

@[simp] theorem funct3Of_encodeR : funct3Of (encodeR funct7 rs2 rs1 funct3 rd opcode) = funct3 := by
  simp (disch := decide) only [funct3Of, encodeR, BitVec.extractLsb'_append_eq_of_le,
    BitVec.extractLsb'_append_eq_of_add_le, Nat.reduceSub, BitVec.extractLsb'_eq_self]

@[simp] theorem rs1Of_encodeR : rs1Of (encodeR funct7 rs2 rs1 funct3 rd opcode) = rs1 := by
  simp (disch := decide) only [rs1Of, encodeR, BitVec.extractLsb'_append_eq_of_le,
    BitVec.extractLsb'_append_eq_of_add_le, Nat.reduceSub, BitVec.extractLsb'_eq_self]

@[simp] theorem rs2Of_encodeR : rs2Of (encodeR funct7 rs2 rs1 funct3 rd opcode) = rs2 := by
  simp (disch := decide) only [rs2Of, encodeR, BitVec.extractLsb'_append_eq_of_le,
    BitVec.extractLsb'_append_eq_of_add_le, Nat.reduceSub, BitVec.extractLsb'_eq_self]

@[simp] theorem funct7Of_encodeR : funct7Of (encodeR funct7 rs2 rs1 funct3 rd opcode) = funct7 := by
  simp (disch := decide) only [funct7Of, encodeR, BitVec.extractLsb'_append_eq_of_le,
    Nat.reduceSub, BitVec.extractLsb'_eq_self]

end Fields

section FieldsIS

variable (imm : BitVec 12) (rs2 rs1 : BitVec 5) (funct3 : BitVec 3) (rd : BitVec 5) (opcode : BitVec 7)

theorem imm_split : imm.extractLsb' 5 7 ++ imm.extractLsb' 0 5 = imm := by
  rw [BitVec.extractLsb'_append_extractLsb'_eq_extractLsb' (by decide)]
  exact BitVec.extractLsb'_eq_self

/-- The I-format regroups the upper two fields of the R-format. -/
theorem encodeI_eq_encodeR :
    encodeI imm rs1 funct3 rd opcode =
      encodeR (imm.extractLsb' 5 7) (imm.extractLsb' 0 5) rs1 funct3 rd opcode := by
  unfold encodeI encodeR
  rw [imm_split]

@[simp] theorem immIOf_encodeI : immIOf (encodeI imm rs1 funct3 rd opcode) = imm := by
  simp (disch := decide) only [immIOf, encodeI, BitVec.extractLsb'_append_eq_of_le,
    Nat.reduceSub, BitVec.extractLsb'_eq_self]

@[simp] theorem opcodeOf_encodeI : opcodeOf (encodeI imm rs1 funct3 rd opcode) = opcode := by
  rw [encodeI_eq_encodeR, opcodeOf_encodeR]

@[simp] theorem rdOf_encodeI : rdOf (encodeI imm rs1 funct3 rd opcode) = rd := by
  rw [encodeI_eq_encodeR, rdOf_encodeR]

@[simp] theorem funct3Of_encodeI : funct3Of (encodeI imm rs1 funct3 rd opcode) = funct3 := by
  rw [encodeI_eq_encodeR, funct3Of_encodeR]

@[simp] theorem rs1Of_encodeI : rs1Of (encodeI imm rs1 funct3 rd opcode) = rs1 := by
  rw [encodeI_eq_encodeR, rs1Of_encodeR]

@[simp] theorem immSOf_encodeS : immSOf (encodeS imm rs2 rs1 funct3 opcode) = imm := by
  rw [immSOf, encodeS, funct7Of_encodeR, rdOf_encodeR, imm_split]

@[simp] theorem opcodeOf_encodeS : opcodeOf (encodeS imm rs2 rs1 funct3 opcode) = opcode :=
  opcodeOf_encodeR ..

@[simp] theorem funct3Of_encodeS : funct3Of (encodeS imm rs2 rs1 funct3 opcode) = funct3 :=
  funct3Of_encodeR ..

@[simp] theorem rs1Of_encodeS : rs1Of (encodeS imm rs2 rs1 funct3 opcode) = rs1 := rs1Of_encodeR ..

@[simp] theorem rs2Of_encodeS : rs2Of (encodeS imm rs2 rs1 funct3 opcode) = rs2 := rs2Of_encodeR ..

@[simp] theorem opcodeOf_encodeB : opcodeOf (encodeB imm rs2 rs1 funct3 opcode) = opcode :=
  opcodeOf_encodeR ..

@[simp] theorem funct3Of_encodeB : funct3Of (encodeB imm rs2 rs1 funct3 opcode) = funct3 :=
  funct3Of_encodeR ..

@[simp] theorem rs1Of_encodeB : rs1Of (encodeB imm rs2 rs1 funct3 opcode) = rs1 := rs1Of_encodeR ..

@[simp] theorem rs2Of_encodeB : rs2Of (encodeB imm rs2 rs1 funct3 opcode) = rs2 := rs2Of_encodeR ..

/-- The B-format keeps its immediate in the two fields of the S-format. -/
theorem immBOf_eq (w : Word) : immBOf w =
    (funct7Of w).extractLsb' 6 1 ++ (rdOf w).extractLsb' 0 1 ++ (funct7Of w).extractLsb' 0 6 ++
      (rdOf w).extractLsb' 1 4 := by
  simp (disch := decide) only [immBOf, funct7Of, rdOf, Bits.extractLsb'_extractLsb', Nat.reduceAdd]

@[simp] theorem immBOf_encodeB : immBOf (encodeB imm rs2 rs1 funct3 opcode) = imm := by
  rw [immBOf_eq, encodeB, funct7Of_encodeR, rdOf_encodeR]
  simp (disch := decide) only [BitVec.extractLsb'_append_eq_of_le,
    BitVec.extractLsb'_append_eq_of_add_le, Nat.reduceSub, BitVec.extractLsb'_eq_self,
    BitVec.extractLsb'_append_extractLsb'_eq_extractLsb']

end FieldsIS

section FieldsUJ

variable (imm : BitVec 20) (rd : BitVec 5) (opcode : BitVec 7)

@[simp] theorem opcodeOf_encodeU : opcodeOf (encodeU imm rd opcode) = opcode := by
  simp (disch := decide) only [opcodeOf, encodeU, BitVec.extractLsb'_append_eq_of_add_le,
    BitVec.extractLsb'_eq_self]

@[simp] theorem rdOf_encodeU : rdOf (encodeU imm rd opcode) = rd := by
  simp (disch := decide) only [rdOf, encodeU, BitVec.extractLsb'_append_eq_of_le,
    BitVec.extractLsb'_append_eq_of_add_le, Nat.reduceSub, BitVec.extractLsb'_eq_self]

@[simp] theorem immUOf_encodeU : immUOf (encodeU imm rd opcode) = imm := by
  simp (disch := decide) only [immUOf, encodeU, BitVec.extractLsb'_append_eq_of_le,
    Nat.reduceSub, BitVec.extractLsb'_eq_self]

@[simp] theorem opcodeOf_encodeJ : opcodeOf (encodeJ imm rd opcode) = opcode := by
  simp (disch := decide) only [opcodeOf, encodeJ, BitVec.extractLsb'_append_eq_of_add_le,
    BitVec.extractLsb'_eq_self]

@[simp] theorem rdOf_encodeJ : rdOf (encodeJ imm rd opcode) = rd := by
  simp (disch := decide) only [rdOf, encodeJ, BitVec.extractLsb'_append_eq_of_le,
    BitVec.extractLsb'_append_eq_of_add_le, Nat.reduceSub, BitVec.extractLsb'_eq_self]

@[simp] theorem immJOf_encodeJ : immJOf (encodeJ imm rd opcode) = imm := by
  simp (disch := decide) only [immJOf, encodeJ, BitVec.extractLsb'_append_eq_of_le,
    BitVec.extractLsb'_append_eq_of_add_le, Nat.reduceSub, BitVec.extractLsb'_eq_self,
    BitVec.extractLsb'_append_extractLsb'_eq_extractLsb']

end FieldsUJ

/-! ## The macros of `rv32.h` read the fields -/

section Macros

variable (w : Word)

theorem registerField_eq (start : Nat) : registerField w start = reg (w.extractLsb' start 5) := by
  have hfield : w >>> start &&& 0x1f = (w.extractLsb' start 5).setWidth 32 :=
    Bits.shiftRight_and_low w start 5
  apply Fin.ext
  simp only [registerField, reg, hfield, BitVec.toNat_setWidth]
  exact Nat.mod_eq_of_lt (Nat.lt_trans (BitVec.isLt (w.extractLsb' start 5)) (by decide))

theorem rd_eq : rd w = reg (rdOf w) := registerField_eq w 7
theorem rs1_eq : rs1 w = reg (rs1Of w) := registerField_eq w 15
theorem rs2_eq : rs2 w = reg (rs2Of w) := registerField_eq w 20

theorem opcode_eq : opcode w = (opcodeOf w).setWidth 8 := by
  have hfield : w >>> 0 &&& 0x7f = (w.extractLsb' 0 7).setWidth 32 :=
    Bits.shiftRight_and_low w 0 7
  rw [BitVec.ushiftRight_zero] at hfield
  rw [opcode, hfield, BitVec.setWidth_setWidth_of_le _ (by decide)]
  rfl

theorem funct3_eq : funct3 w = (funct3Of w).setWidth 8 := by
  have hfield : w >>> 12 &&& 0x7 = (w.extractLsb' 12 3).setWidth 32 :=
    Bits.shiftRight_and_low w 12 3
  rw [funct3, hfield, BitVec.setWidth_setWidth_of_le _ (by decide)]
  rfl

theorem funct7_eq : funct7 w = (funct7Of w).setWidth 8 := by
  have hfield : w >>> 25 &&& 0x7f = (w.extractLsb' 25 7).setWidth 32 :=
    Bits.shiftRight_and_low w 25 7
  rw [funct7, hfield, BitVec.setWidth_setWidth_of_le _ (by decide)]
  rfl

theorem immI_eq : immI w = (immIOf w).setWidth 32 := Bits.shiftRight_and_low w 20 12

theorem immS_eq : immS w = (immSOf w).setWidth 32 := by
  apply BitVec.eq_of_getLsbD_eq
  intro i hi
  rw [immS, show (0xf80 : Word) = BitVec.ofNat 32 (2 ^ 5 - 1) <<< 7 from rfl,
    show (0xfe000000 : Word) = BitVec.ofNat 32 (2 ^ 7 - 1) <<< 25 from rfl]
  simp only [BitVec.getLsbD_or, BitVec.getLsbD_ushiftRight, Bits.getLsbD_and_field,
    BitVec.getLsbD_setWidth, BitVec.getLsbD_append, immSOf, funct7Of, rdOf, BitVec.getLsbD_extractLsb']
  -- the low five bits come from the field of `rd`, the next seven from `funct7`
  by_cases h5 : i < 5
  · simp [hi, h5, show ¬ 25 ≤ 20 + i by omega, show 7 + i < 12 by omega]
  · by_cases h12 : i < 12
    · simp [hi, h5, show ¬ 7 + i < 12 by omega, show 25 ≤ 20 + i by omega,
        show i - 5 < 7 by omega, show 20 + i < 32 by omega, show 25 + (i - 5) = 20 + i by omega]
    · simp [hi, h5, show ¬ 7 + i < 12 by omega, show ¬ i - 5 < 7 by omega,
        show ¬ 20 + i < 32 by omega]

/-- `SEXT` on a field is the sign extension of the field. -/
theorem sext_setWidth {n : Nat} (x : BitVec n) (hn : 0 < n) (hn32 : n ≤ 32) :
    sext (x.setWidth 32) n = x.signExtend 32 := Bits.or_high_if_sign x hn hn32

theorem sextImmI_eq : sextImmI w = (immIOf w).signExtend 32 := by
  rw [sextImmI, immI_eq, sext_setWidth _ (by decide) (by decide)]

theorem sextImmS_eq : sextImmS w = (immSOf w).signExtend 32 := by
  rw [sextImmS, immS_eq, sext_setWidth _ (by decide) (by decide)]

theorem immU_eq : immU w = (immUOf w).setWidth 32 := by
  rw [immU, immUOf, ← BitVec.setWidth_ushiftRight_eq_extractLsb]
  apply BitVec.eq_of_getLsbD_eq
  intro i hi
  simp only [BitVec.getLsbD_ushiftRight, BitVec.getLsbD_setWidth]
  by_cases h20 : i < 20
  · simp [hi, h20]
  · simp [hi, h20, BitVec.getLsbD_of_ge w (12 + i) (by omega)]

theorem sextImmU_eq : sextImmU w = (immUOf w).signExtend 32 := by
  rw [sextImmU, immU_eq, sext_setWidth _ (by decide) (by decide)]

theorem immB_eq : immB w = (immBOf w ++ 0#1).setWidth 32 := by
  apply BitVec.eq_of_getLsbD_eq
  intro i hi
  rw [immB, show (0xf00 : Word) = BitVec.ofNat 32 (2 ^ 4 - 1) <<< 8 from rfl,
    show (0x7e000000 : Word) = BitVec.ofNat 32 (2 ^ 6 - 1) <<< 25 from rfl,
    show (0x80 : Word) = BitVec.ofNat 32 (2 ^ 1 - 1) <<< 7 from rfl,
    show (0x80000000 : Word) = BitVec.ofNat 32 (2 ^ 1 - 1) <<< 31 from rfl]
  simp only [BitVec.getLsbD_or, BitVec.getLsbD_ushiftRight, BitVec.getLsbD_shiftLeft,
    Bits.getLsbD_and_field, BitVec.getLsbD_setWidth, BitVec.getLsbD_append, immBOf,
    BitVec.getLsbD_extractLsb', BitVec.getLsbD_zero]
  -- five fields, from different places of the word
  grind

theorem sextImmB_eq : sextImmB w = (immBOf w ++ 0#1).signExtend 32 := by
  rw [sextImmB, immB_eq, sext_setWidth _ (by decide) (by decide)]

theorem immJ_eq : immJ w = (immJOf w ++ 0#1).setWidth 32 := by
  apply BitVec.eq_of_getLsbD_eq
  intro i hi
  rw [immJ, show (0x7fe00000 : Word) = BitVec.ofNat 32 (2 ^ 10 - 1) <<< 21 from rfl,
    show (0x100000 : Word) = BitVec.ofNat 32 (2 ^ 1 - 1) <<< 20 from rfl,
    show ((0xff000 : Nat) : Word) = BitVec.ofNat 32 (2 ^ 8 - 1) <<< 12 from rfl,
    show (0x80000000 : Word) = BitVec.ofNat 32 (2 ^ 1 - 1) <<< 31 from rfl]
  simp only [BitVec.getLsbD_or, BitVec.getLsbD_ushiftRight, Bits.getLsbD_and_field,
    BitVec.getLsbD_setWidth, BitVec.getLsbD_append, immJOf, BitVec.getLsbD_extractLsb',
    BitVec.getLsbD_zero]
  grind

end Macros

end Isa
end Rv32
