import Rv32.Isa.Format

/-!
# `Isa.Instr` — the instruction set: RV32I, M, Zicsr, MRET and WFI

The syntax tree of the instructions with their standard encodings, and what of a word decides whether it
is one of them (`defined_iff`). This module is written from the ISA, not from `rv32.h`: it is what the
decoder is compared with.
-/

namespace Rv32
namespace Isa

/-- Register-register operations of RV32I and M. -/
inductive RegOp where
  | add | sub | sll | slt | sltu | xor | srl | sra | or | and
  | mul | mulh | mulhsu | mulhu | div | divu | rem | remu
  deriving DecidableEq, Repr

def RegOp.funct7 : RegOp → BitVec 7
  | .sub | .sra => 0x20
  | .mul | .mulh | .mulhsu | .mulhu | .div | .divu | .rem | .remu => 0x01
  | _ => 0x00

def RegOp.funct3 : RegOp → BitVec 3
  | .add | .sub | .mul  => 0x0
  | .sll | .mulh        => 0x1
  | .slt | .mulhsu      => 0x2
  | .sltu | .mulhu      => 0x3
  | .xor | .div         => 0x4
  | .srl | .sra | .divu => 0x5
  | .or | .rem          => 0x6
  | .and | .remu        => 0x7

/-- Register-immediate operations with a 12-bit immediate. -/
inductive ImmOp where
  | addi | slti | sltiu | xori | ori | andi
  deriving DecidableEq, Repr

def ImmOp.funct3 : ImmOp → BitVec 3
  | .addi  => 0x0
  | .slti  => 0x2
  | .sltiu => 0x3
  | .xori  => 0x4
  | .ori   => 0x6
  | .andi  => 0x7

/-- Register-immediate shifts, with a 5-bit amount. -/
inductive ShiftOp where
  | slli | srli | srai
  deriving DecidableEq, Repr

def ShiftOp.funct7 : ShiftOp → BitVec 7
  | .srai => 0x20
  | _     => 0x00

def ShiftOp.funct3 : ShiftOp → BitVec 3
  | .slli         => 0x1
  | .srli | .srai => 0x5

inductive LoadOp where
  | lb | lh | lw | lbu | lhu
  deriving DecidableEq, Repr

def LoadOp.funct3 : LoadOp → BitVec 3
  | .lb  => 0x0
  | .lh  => 0x1
  | .lw  => 0x2
  | .lbu => 0x4
  | .lhu => 0x5

inductive StoreOp where
  | sb | sh | sw
  deriving DecidableEq, Repr

def StoreOp.funct3 : StoreOp → BitVec 3
  | .sb => 0x0
  | .sh => 0x1
  | .sw => 0x2

inductive BranchOp where
  | beq | bne | blt | bge | bltu | bgeu
  deriving DecidableEq, Repr

def BranchOp.funct3 : BranchOp → BitVec 3
  | .beq  => 0x0
  | .bne  => 0x1
  | .blt  => 0x4
  | .bge  => 0x5
  | .bltu => 0x6
  | .bgeu => 0x7

inductive CsrOp where
  | csrrw | csrrs | csrrc | csrrwi | csrrsi | csrrci
  deriving DecidableEq, Repr

def CsrOp.funct3 : CsrOp → BitVec 3
  | .csrrw  => 0x1
  | .csrrs  => 0x2
  | .csrrc  => 0x3
  | .csrrwi => 0x5
  | .csrrsi => 0x6
  | .csrrci => 0x7

/-- SYSTEM instructions without operands. -/
inductive SystemOp where
  | ecall | ebreak | mret | wfi
  deriving DecidableEq, Repr

def SystemOp.funct12 : SystemOp → BitVec 12
  | .ecall  => 0x000
  | .ebreak => 0x001
  | .mret   => 0x302
  | .wfi    => 0x105

/-- An instruction. Branch and jump offsets are without their bit 0. The operands of FENCE are only
    hints, which an implementation ignores. -/
inductive Instr where
  | regReg (op : RegOp) (rd rs1 rs2 : BitVec 5)
  | regImm (op : ImmOp) (rd rs1 : BitVec 5) (imm : BitVec 12)
  | regShift (op : ShiftOp) (rd rs1 shamt : BitVec 5)
  | load (op : LoadOp) (rd rs1 : BitVec 5) (imm : BitVec 12)
  | store (op : StoreOp) (rs1 rs2 : BitVec 5) (imm : BitVec 12)
  | branch (op : BranchOp) (rs1 rs2 : BitVec 5) (imm : BitVec 12)
  | jal (rd : BitVec 5) (imm : BitVec 20)
  | jalr (rd rs1 : BitVec 5) (imm : BitVec 12)
  | lui (rd : BitVec 5) (imm : BitVec 20)
  | auipc (rd : BitVec 5) (imm : BitVec 20)
  | fence (fmPredSucc : BitVec 12) (rs1 rd : BitVec 5)
  | system (op : SystemOp)
  | zicsr (op : CsrOp) (rd src : BitVec 5) (csr : BitVec 12)
  deriving DecidableEq, Repr

/-- The standard encoding. -/
def Instr.encode : Instr → Word
  | .regReg op rd rs1 rs2     => encodeR op.funct7 rs2 rs1 op.funct3 rd 0x33
  | .regImm op rd rs1 imm     => encodeI imm rs1 op.funct3 rd 0x13
  | .regShift op rd rs1 shamt => encodeR op.funct7 shamt rs1 op.funct3 rd 0x13
  | .load op rd rs1 imm       => encodeI imm rs1 op.funct3 rd 0x03
  | .store op rs1 rs2 imm     => encodeS imm rs2 rs1 op.funct3 0x23
  | .branch op rs1 rs2 imm    => encodeB imm rs2 rs1 op.funct3 0x63
  | .jal rd imm               => encodeJ imm rd 0x6f
  | .jalr rd rs1 imm          => encodeI imm rs1 0x0 rd 0x67
  | .lui rd imm               => encodeU imm rd 0x37
  | .auipc rd imm             => encodeU imm rd 0x17
  | .fence fm rs1 rd          => encodeI fm rs1 0x0 rd 0x0f
  | .system op                => encodeI op.funct12 0 0x0 0 0x73
  | .zicsr op rd src csr      => encodeI csr src op.funct3 rd 0x73

/-- The word encodes an instruction. -/
def Defined (w : Word) : Prop := ∃ i : Instr, i.encode = w

/-- What of a word makes it the encoding of an instruction, opcode by opcode. -/
def Legal (w : Word) : Prop :=
  match opcodeOf w with
  | 0x33#7 => ∃ op : RegOp, op.funct7 = funct7Of w ∧ op.funct3 = funct3Of w
  | 0x13#7 => (∃ op : ImmOp, op.funct3 = funct3Of w) ∨
      ∃ op : ShiftOp, op.funct7 = funct7Of w ∧ op.funct3 = funct3Of w
  | 0x03#7 => ∃ op : LoadOp, op.funct3 = funct3Of w
  | 0x23#7 => ∃ op : StoreOp, op.funct3 = funct3Of w
  | 0x63#7 => ∃ op : BranchOp, op.funct3 = funct3Of w
  | 0x6f#7 | 0x37#7 | 0x17#7 => True
  | 0x67#7 | 0x0f#7 => funct3Of w = 0
  | 0x73#7 =>
      (funct3Of w = 0 ∧ rdOf w = 0 ∧ rs1Of w = 0 ∧ ∃ op : SystemOp, op.funct12 = immIOf w) ∨
        ∃ op : CsrOp, op.funct3 = funct3Of w
  | _ => False

/-! ## The field values in the tables -/

theorem funct3_cases : ∀ f : BitVec 3,
    f = 0 ∨ f = 1 ∨ f = 2 ∨ f = 3 ∨ f = 4 ∨ f = 5 ∨ f = 6 ∨ f = 7 := by
  decide

section Tables

variable (f7 : BitVec 7) (f3 : BitVec 3)

theorem regOp_iff : (∃ op : RegOp, op.funct7 = f7 ∧ op.funct3 = f3) ↔
    f7 = 0x01#7 ∨ f7 = 0x00#7 ∨ (f7 = 0x20#7 ∧ (f3 = 0x0#3 ∨ f3 = 0x5#3)) := by
  constructor
  · rintro ⟨op, rfl, rfl⟩
    cases op <;> decide
  · rintro (rfl | rfl | ⟨rfl, rfl | rfl⟩)
    · rcases funct3_cases f3 with rfl | rfl | rfl | rfl | rfl | rfl | rfl | rfl
      · exact ⟨.mul, rfl, rfl⟩
      · exact ⟨.mulh, rfl, rfl⟩
      · exact ⟨.mulhsu, rfl, rfl⟩
      · exact ⟨.mulhu, rfl, rfl⟩
      · exact ⟨.div, rfl, rfl⟩
      · exact ⟨.divu, rfl, rfl⟩
      · exact ⟨.rem, rfl, rfl⟩
      · exact ⟨.remu, rfl, rfl⟩
    · rcases funct3_cases f3 with rfl | rfl | rfl | rfl | rfl | rfl | rfl | rfl
      · exact ⟨.add, rfl, rfl⟩
      · exact ⟨.sll, rfl, rfl⟩
      · exact ⟨.slt, rfl, rfl⟩
      · exact ⟨.sltu, rfl, rfl⟩
      · exact ⟨.xor, rfl, rfl⟩
      · exact ⟨.srl, rfl, rfl⟩
      · exact ⟨.or, rfl, rfl⟩
      · exact ⟨.and, rfl, rfl⟩
    · exact ⟨.sub, rfl, rfl⟩
    · exact ⟨.sra, rfl, rfl⟩

theorem immOp_iff : (∃ op : ImmOp, op.funct3 = f3) ↔ f3 ≠ 0x1#3 ∧ f3 ≠ 0x5#3 := by
  constructor
  · rintro ⟨op, rfl⟩
    cases op <;> decide
  · rintro ⟨h1, h5⟩
    rcases funct3_cases f3 with rfl | rfl | rfl | rfl | rfl | rfl | rfl | rfl
    · exact ⟨.addi, rfl⟩
    · exact absurd rfl h1
    · exact ⟨.slti, rfl⟩
    · exact ⟨.sltiu, rfl⟩
    · exact ⟨.xori, rfl⟩
    · exact absurd rfl h5
    · exact ⟨.ori, rfl⟩
    · exact ⟨.andi, rfl⟩

theorem shiftOp_iff : (∃ op : ShiftOp, op.funct7 = f7 ∧ op.funct3 = f3) ↔
    (f3 = 0x1#3 ∧ f7 = 0x00#7) ∨ (f3 = 0x5#3 ∧ (f7 = 0x00#7 ∨ f7 = 0x20#7)) := by
  constructor
  · rintro ⟨op, rfl, rfl⟩
    cases op <;> decide
  · rintro (⟨rfl, rfl⟩ | ⟨rfl, rfl | rfl⟩)
    · exact ⟨.slli, rfl, rfl⟩
    · exact ⟨.srli, rfl, rfl⟩
    · exact ⟨.srai, rfl, rfl⟩

theorem loadOp_iff : (∃ op : LoadOp, op.funct3 = f3) ↔ f3 ∈ [0x0#3, 0x1#3, 0x2#3, 0x4#3, 0x5#3] := by
  constructor
  · rintro ⟨op, rfl⟩
    cases op <;> decide
  · simp only [List.mem_cons, List.not_mem_nil, or_false]
    rintro (rfl | rfl | rfl | rfl | rfl)
    · exact ⟨.lb, rfl⟩
    · exact ⟨.lh, rfl⟩
    · exact ⟨.lw, rfl⟩
    · exact ⟨.lbu, rfl⟩
    · exact ⟨.lhu, rfl⟩

theorem storeOp_iff : (∃ op : StoreOp, op.funct3 = f3) ↔ f3 ∈ [0x0#3, 0x1#3, 0x2#3] := by
  constructor
  · rintro ⟨op, rfl⟩
    cases op <;> decide
  · simp only [List.mem_cons, List.not_mem_nil, or_false]
    rintro (rfl | rfl | rfl)
    · exact ⟨.sb, rfl⟩
    · exact ⟨.sh, rfl⟩
    · exact ⟨.sw, rfl⟩

theorem branchOp_iff : (∃ op : BranchOp, op.funct3 = f3) ↔
    f3 ∈ [0x0#3, 0x1#3, 0x4#3, 0x5#3, 0x6#3, 0x7#3] := by
  constructor
  · rintro ⟨op, rfl⟩
    cases op <;> decide
  · simp only [List.mem_cons, List.not_mem_nil, or_false]
    rintro (rfl | rfl | rfl | rfl | rfl | rfl)
    · exact ⟨.beq, rfl⟩
    · exact ⟨.bne, rfl⟩
    · exact ⟨.blt, rfl⟩
    · exact ⟨.bge, rfl⟩
    · exact ⟨.bltu, rfl⟩
    · exact ⟨.bgeu, rfl⟩

theorem csrOp_iff : (∃ op : CsrOp, op.funct3 = f3) ↔ f3 ≠ 0x0#3 ∧ f3 ≠ 0x4#3 := by
  constructor
  · rintro ⟨op, rfl⟩
    cases op <;> decide
  · rintro ⟨h0, h4⟩
    rcases funct3_cases f3 with rfl | rfl | rfl | rfl | rfl | rfl | rfl | rfl
    · exact absurd rfl h0
    · exact ⟨.csrrw, rfl⟩
    · exact ⟨.csrrs, rfl⟩
    · exact ⟨.csrrc, rfl⟩
    · exact absurd rfl h4
    · exact ⟨.csrrwi, rfl⟩
    · exact ⟨.csrrsi, rfl⟩
    · exact ⟨.csrrci, rfl⟩

theorem systemOp_iff (f12 : BitVec 12) : (∃ op : SystemOp, op.funct12 = f12) ↔
    f12 ∈ [0x000#12, 0x001#12, 0x302#12, 0x105#12] := by
  constructor
  · rintro ⟨op, rfl⟩
    cases op <;> decide
  · simp only [List.mem_cons, List.not_mem_nil, or_false]
    rintro (rfl | rfl | rfl | rfl)
    · exact ⟨.ecall, rfl⟩
    · exact ⟨.ebreak, rfl⟩
    · exact ⟨.mret, rfl⟩
    · exact ⟨.wfi, rfl⟩

end Tables

/-! ## The fields decide -/

theorem legal_encode (i : Instr) : Legal i.encode := by
  cases i with
  | regReg op rd rs1 rs2 => simpa [Instr.encode, Legal] using ⟨op, rfl, rfl⟩
  | regImm op rd rs1 imm => simp [Instr.encode, Legal]
  | regShift op rd rs1 shamt => simpa [Instr.encode, Legal] using .inr ⟨op, rfl, rfl⟩
  | load op rd rs1 imm => simp [Instr.encode, Legal]
  | store op rs1 rs2 imm => simp [Instr.encode, Legal]
  | branch op rs1 rs2 imm => simp [Instr.encode, Legal]
  | jal rd imm => simp [Instr.encode, Legal]
  | jalr rd rs1 imm => simp [Instr.encode, Legal]
  | lui rd imm => simp [Instr.encode, Legal]
  | auipc rd imm => simp [Instr.encode, Legal]
  | fence fm rs1 rd => simp [Instr.encode, Legal]
  | system op => simp [Instr.encode, Legal]
  | zicsr op rd src csr => simp [Instr.encode, Legal]

theorem defined_of_legal {w : Word} (h : Legal w) : Defined w := by
  have hR := encodeR_fields w
  have hI := encodeI_fields w
  have hS := encodeS_fields w
  have hB := encodeB_fields w
  have hU := encodeU_fields w
  have hJ := encodeJ_fields w
  unfold Legal at h
  split at h
  case _ hop =>     -- OP
    obtain ⟨op, h7, h3⟩ := h
    rw [hop, ← h7, ← h3] at hR
    exact ⟨.regReg op _ _ _, hR⟩
  case _ hop =>     -- OP-IMM
    rcases h with ⟨op, h3⟩ | ⟨op, h7, h3⟩
    · rw [hop, ← h3] at hI
      exact ⟨.regImm op _ _ _, hI⟩
    · rw [hop, ← h7, ← h3] at hR
      exact ⟨.regShift op _ _ _, hR⟩
  case _ hop =>     -- LOAD
    obtain ⟨op, h3⟩ := h
    rw [hop, ← h3] at hI
    exact ⟨.load op _ _ _, hI⟩
  case _ hop =>     -- STORE
    obtain ⟨op, h3⟩ := h
    rw [hop, ← h3] at hS
    exact ⟨.store op _ _ _, hS⟩
  case _ hop =>     -- BRANCH
    obtain ⟨op, h3⟩ := h
    rw [hop, ← h3] at hB
    exact ⟨.branch op _ _ _, hB⟩
  case _ hop =>     -- jal
    rw [hop] at hJ
    exact ⟨.jal _ _, hJ⟩
  case _ hop =>     -- lui
    rw [hop] at hU
    exact ⟨.lui _ _, hU⟩
  case _ hop =>     -- auipc
    rw [hop] at hU
    exact ⟨.auipc _ _, hU⟩
  case _ hop =>     -- jalr
    rw [hop, h] at hI
    exact ⟨.jalr _ _ _, hI⟩
  case _ hop =>     -- fence
    rw [hop, h] at hI
    exact ⟨.fence _ _ _, hI⟩
  case _ hop =>     -- SYSTEM
    rcases h with ⟨h3, hrd, hrs1, op, himm⟩ | ⟨op, h3⟩
    · rw [hop, h3, hrd, hrs1, ← himm] at hI
      exact ⟨.system op, hI⟩
    · rw [hop, ← h3] at hI
      exact ⟨.zicsr op _ _ _, hI⟩
  case _ => exact h.elim

/-- **A word is an instruction exactly when its fields make it one.** -/
theorem defined_iff (w : Word) : Defined w ↔ Legal w := by
  constructor
  · rintro ⟨i, rfl⟩; exact legal_encode i
  · exact defined_of_legal

end Isa
end Rv32
