import Rv32.Isa.Instr

/-!
# `Isa.Decode` — an instruction is read back from its encoding

`decode` takes a word apart by its opcode and looks the operation up in its table. It is a left inverse of
`Instr.encode`, so two instructions never share a word (`encode_injective`).
-/

namespace Rv32
namespace Isa

/-! ## The tables, read backwards -/

def RegOp.find (funct7 : BitVec 7) (funct3 : BitVec 3) : Option RegOp :=
  [RegOp.add, .sub, .sll, .slt, .sltu, .xor, .srl, .sra, .or, .and,
    .mul, .mulh, .mulhsu, .mulhu, .div, .divu, .rem, .remu].find? fun op =>
      op.funct7 = funct7 ∧ op.funct3 = funct3

def ImmOp.find (funct3 : BitVec 3) : Option ImmOp :=
  [ImmOp.addi, .slti, .sltiu, .xori, .ori, .andi].find? fun op => op.funct3 = funct3

def ShiftOp.find (funct7 : BitVec 7) (funct3 : BitVec 3) : Option ShiftOp :=
  [ShiftOp.slli, .srli, .srai].find? fun op => op.funct7 = funct7 ∧ op.funct3 = funct3

def LoadOp.find (funct3 : BitVec 3) : Option LoadOp :=
  [LoadOp.lb, .lh, .lw, .lbu, .lhu].find? fun op => op.funct3 = funct3

def StoreOp.find (funct3 : BitVec 3) : Option StoreOp :=
  [StoreOp.sb, .sh, .sw].find? fun op => op.funct3 = funct3

def BranchOp.find (funct3 : BitVec 3) : Option BranchOp :=
  [BranchOp.beq, .bne, .blt, .bge, .bltu, .bgeu].find? fun op => op.funct3 = funct3

def CsrOp.find (funct3 : BitVec 3) : Option CsrOp :=
  [CsrOp.csrrw, .csrrs, .csrrc, .csrrwi, .csrrsi, .csrrci].find? fun op => op.funct3 = funct3

def SystemOp.find (funct12 : BitVec 12) : Option SystemOp :=
  [SystemOp.ecall, .ebreak, .mret, .wfi].find? fun op => op.funct12 = funct12

@[simp] theorem RegOp.find_self (op : RegOp) : RegOp.find op.funct7 op.funct3 = some op := by
  cases op <;> rfl

@[simp] theorem ImmOp.find_self (op : ImmOp) : ImmOp.find op.funct3 = some op := by
  cases op <;> rfl

@[simp] theorem ShiftOp.find_self (op : ShiftOp) : ShiftOp.find op.funct7 op.funct3 = some op := by
  cases op <;> rfl

@[simp] theorem ImmOp.find_shift (op : ShiftOp) : ImmOp.find op.funct3 = none := by
  cases op <;> rfl

@[simp] theorem LoadOp.find_self (op : LoadOp) : LoadOp.find op.funct3 = some op := by
  cases op <;> rfl

@[simp] theorem StoreOp.find_self (op : StoreOp) : StoreOp.find op.funct3 = some op := by
  cases op <;> rfl

@[simp] theorem BranchOp.find_self (op : BranchOp) : BranchOp.find op.funct3 = some op := by
  cases op <;> rfl

@[simp] theorem CsrOp.find_self (op : CsrOp) : CsrOp.find op.funct3 = some op := by
  cases op <;> rfl

@[simp] theorem CsrOp.find_zero : CsrOp.find 0#3 = none := rfl

@[simp] theorem SystemOp.find_self (op : SystemOp) : SystemOp.find op.funct12 = some op := by
  cases op <;> rfl

/-! ## Words -/

/-- The instruction that a word encodes, by opcode. -/
def decode (w : Word) : Option Instr :=
  match opcodeOf w with
  | 0x33#7 => (RegOp.find (funct7Of w) (funct3Of w)).map fun op =>
      .regReg op (rdOf w) (rs1Of w) (rs2Of w)
  | 0x13#7 =>
      match ImmOp.find (funct3Of w) with
      | some op => some (.regImm op (rdOf w) (rs1Of w) (immIOf w))
      | none    => (ShiftOp.find (funct7Of w) (funct3Of w)).map fun op =>
          .regShift op (rdOf w) (rs1Of w) (rs2Of w)
  | 0x03#7 => (LoadOp.find (funct3Of w)).map fun op => .load op (rdOf w) (rs1Of w) (immIOf w)
  | 0x23#7 => (StoreOp.find (funct3Of w)).map fun op => .store op (rs1Of w) (rs2Of w) (immSOf w)
  | 0x63#7 => (BranchOp.find (funct3Of w)).map fun op => .branch op (rs1Of w) (rs2Of w) (immBOf w)
  | 0x6f#7 => some (.jal (rdOf w) (immJOf w))
  | 0x67#7 => if funct3Of w = 0 then some (.jalr (rdOf w) (rs1Of w) (immIOf w)) else none
  | 0x37#7 => some (.lui (rdOf w) (immUOf w))
  | 0x17#7 => some (.auipc (rdOf w) (immUOf w))
  | 0x0f#7 => if funct3Of w = 0 then some (.fence (immIOf w) (rs1Of w) (rdOf w)) else none
  | 0x73#7 =>
      match CsrOp.find (funct3Of w) with
      | some op => some (.zicsr op (rdOf w) (rs1Of w) (immIOf w))
      | none    =>
          if funct3Of w = 0 ∧ rdOf w = 0 ∧ rs1Of w = 0 then
            (SystemOp.find (immIOf w)).map .system
          else none
  | _ => none

theorem decode_encode (i : Instr) : decode i.encode = some i := by
  cases i <;> simp [decode, Instr.encode]

/-- **An encoding belongs to one instruction.** -/
theorem encode_injective : Function.Injective Instr.encode := by
  intro i j h
  have hdecode : some i = some j := by rw [← decode_encode i, h, decode_encode j]
  exact Option.some.inj hdecode

end Isa
end Rv32
