import Rv32.Isa.Instr

/-!
# `Isa.Hart` — what the instructions mean

A `Hart` is what an instruction can see besides the memory: the registers, `pc` and the six CSRs of this
machine. `Instr.exec` is the effect of the instructions that reach nothing else. It is written from the
ISA, not from `rv32.h`: an operation takes its operands as signed or unsigned integers, computes without
a bound, and the result is the word of the integer.
-/

namespace Rv32
namespace Isa

/-! ## Operations -/

/-- The amount a register holds for a shift. -/
def shiftAmount (b : Word) : Nat := b.toNat % 32

def RegOp.eval (op : RegOp) (a b : Word) : Word :=
  match op with
  | .add    => BitVec.ofInt 32 (a.toInt + b.toInt)
  | .sub    => BitVec.ofInt 32 (a.toInt - b.toInt)
  | .sll    => BitVec.ofNat 32 (a.toNat * 2 ^ shiftAmount b)
  | .slt    => if a.toInt < b.toInt then 1 else 0
  | .sltu   => if a.toNat < b.toNat then 1 else 0
  | .xor    => a ^^^ b
  | .srl    => BitVec.ofNat 32 (a.toNat / 2 ^ shiftAmount b)
  | .sra    => BitVec.ofInt 32 (a.toInt / 2 ^ shiftAmount b)   -- rounds down, so the sign fills
  | .or     => a ||| b
  | .and    => a &&& b
  | .mul    => BitVec.ofInt 32 (a.toInt * b.toInt)
  | .mulh   => BitVec.ofInt 32 (a.toInt * b.toInt / 2 ^ 32)
  | .mulhsu => BitVec.ofInt 32 (a.toInt * b.toNat / 2 ^ 32)
  | .mulhu  => BitVec.ofInt 32 (a.toNat * b.toNat / 2 ^ 32)
  | .div    => BitVec.ofInt 32 (if b = 0 then -1 else a.toInt.tdiv b.toInt)
  | .divu   => BitVec.ofInt 32 (if b = 0 then -1 else a.toNat / b.toNat)
  | .rem    => BitVec.ofInt 32 (a.toInt.tmod b.toInt)          -- `tmod` and `%` by 0 are the dividend
  | .remu   => BitVec.ofInt 32 (a.toNat % b.toNat)

/-- The operation an immediate form applies to the sign-extended immediate. -/
def ImmOp.regOp : ImmOp → RegOp
  | .addi  => .add
  | .slti  => .slt
  | .sltiu => .sltu
  | .xori  => .xor
  | .ori   => .or
  | .andi  => .and

/-- The operation an immediate shift applies to its amount. -/
def ShiftOp.regOp : ShiftOp → RegOp
  | .slli => .sll
  | .srli => .srl
  | .srai => .sra

def BranchOp.Taken (op : BranchOp) (a b : Word) : Prop :=
  match op with
  | .beq  => a = b
  | .bne  => a ≠ b
  | .blt  => a.toInt < b.toInt
  | .bge  => b.toInt ≤ a.toInt
  | .bltu => a.toNat < b.toNat
  | .bgeu => b.toNat ≤ a.toNat

instance : (op : BranchOp) → (a b : Word) → Decidable (op.Taken a b)
  | .beq, _, _  => inferInstanceAs (Decidable (_ = _))
  | .bne, _, _  => inferInstanceAs (Decidable (_ ≠ _))
  | .blt, _, _  => inferInstanceAs (Decidable (_ < _))
  | .bge, _, _  => inferInstanceAs (Decidable (_ ≤ _))
  | .bltu, _, _ => inferInstanceAs (Decidable (_ < _))
  | .bgeu, _, _ => inferInstanceAs (Decidable (_ ≤ _))

/-- The value a CSR instruction leaves in a CSR that held `old`. -/
def CsrOp.eval (op : CsrOp) (old source : Word) : Word :=
  match op with
  | .csrrw | .csrrwi => source
  | .csrrs | .csrrsi => old ||| source
  | .csrrc | .csrrci => old &&& ~~~source

/-- The offset a B- or J-format immediate stands for. -/
def offset {n : Nat} (imm : BitVec n) : Word := (imm ++ 0#1).signExtend 32

/-- The constant a U-format immediate stands for. -/
def upper (imm : BitVec 20) : Word := imm ++ 0#12

/-! ## The hart -/

/-- The CSRs the machine has. -/
inductive Cell where
  | mstatus | mie | mtvec | mepc | mcause | mip
  deriving DecidableEq, Repr

def Cell.number : Cell → BitVec 12
  | .mstatus => 0x300
  | .mie     => 0x304
  | .mtvec   => 0x305
  | .mepc    => 0x341
  | .mcause  => 0x342
  | .mip     => 0x344

/-- The CSR with a number; the other numbers are absent. -/
def Cell.ofNumber (csr : BitVec 12) : Option Cell :=
  [Cell.mstatus, .mie, .mtvec, .mepc, .mcause, .mip].find? fun c => c.number = csr

theorem Cell.ofNumber_number (c : Cell) : Cell.ofNumber c.number = some c := by
  cases c <;> rfl

theorem Cell.number_of_ofNumber {csr : BitVec 12} {c : Cell} (h : Cell.ofNumber csr = some c) :
    c.number = csr := by
  have hfound := List.find?_some h
  exact of_decide_eq_true hfound

theorem Cell.number_ne_of_ofNumber {csr : BitVec 12} (h : Cell.ofNumber csr = none) (c : Cell) :
    csr ≠ c.number := by
  rintro rfl
  rw [Cell.ofNumber_number] at h
  cases h

/-- The registers, of which `x0` is zero, `pc` and the CSRs. -/
@[ext] structure Hart where
  x : BitVec 5 → Word
  pc : Word
  csr : Cell → Word
  x_zero : x 0 = 0

namespace Hart

variable (h : Hart)

/-- Write `rd`, unless it is `x0`, and go to `pc`. -/
def retire (rd : BitVec 5) (v pc : Word) : Hart where
  x i := if i = 0 then 0 else if i = rd then v else h.x i
  pc := pc
  csr := h.csr
  x_zero := if_pos rfl

/-- An absent CSR reads as 0. -/
def readCsr (csr : BitVec 12) : Word := ((Cell.ofNumber csr).map h.csr).getD 0

/-- An absent CSR ignores what is written to it. -/
def writeCsr (csr : BitVec 12) (v : Word) : Hart :=
  match Cell.ofNumber csr with
  | some c => { h with csr := Function.update h.csr c v }
  | none   => h

/-- The operand of a CSR instruction: the register, or the field itself. -/
def csrSource (op : CsrOp) (src : BitVec 5) : Word :=
  match op with
  | .csrrw | .csrrs | .csrrc    => h.x src
  | .csrrwi | .csrrsi | .csrrci => src.setWidth 32

@[simp] theorem retire_pc (rd : BitVec 5) (v pc : Word) : (h.retire rd v pc).pc = pc := rfl

@[simp] theorem retire_csr (rd : BitVec 5) (v pc : Word) : (h.retire rd v pc).csr = h.csr := rfl

theorem retire_x (rd : BitVec 5) (v pc : Word) (i : BitVec 5) :
    (h.retire rd v pc).x i = if i = 0 then 0 else if i = rd then v else h.x i := rfl

theorem retire_x_self {rd : BitVec 5} (hrd : rd ≠ 0) (v pc : Word) : (h.retire rd v pc).x rd = v := by
  rw [retire_x, if_neg hrd, if_pos rfl]

theorem retire_x_of_ne {rd i : BitVec 5} (hi : i ≠ rd) (v pc : Word) :
    (h.retire rd v pc).x i = h.x i := by
  rw [retire_x, if_neg hi]
  split
  · rename_i hzero
    rw [hzero, h.x_zero]
  · rfl

theorem retire_inj {rd : BitVec 5} {v v' pc pc' : Word} :
    h.retire rd v pc = h.retire rd v' pc' ↔ (rd ≠ 0 → v = v') ∧ pc = pc' := by
  constructor
  · intro heq
    refine ⟨?_, congrArg Hart.pc heq⟩
    intro hrd
    have hx := congrArg (fun g => Hart.x g rd) heq
    simp only [retire_x_self h hrd] at hx
    exact hx
  · rintro ⟨hv, rfl⟩
    by_cases hrd : rd = 0
    · apply Hart.ext
      · funext i
        rw [retire_x, retire_x]
        by_cases hi : i = 0
        · rw [if_pos hi, if_pos hi]
        · rw [if_neg hi, if_neg hi, if_neg (hrd ▸ hi), if_neg (hrd ▸ hi)]
      · rfl
      · rfl
    · rw [hv hrd]

@[simp] theorem writeCsr_x (csr : BitVec 12) (v : Word) : (h.writeCsr csr v).x = h.x := by
  unfold writeCsr
  split <;> rfl

@[simp] theorem writeCsr_pc (csr : BitVec 12) (v : Word) : (h.writeCsr csr v).pc = h.pc := by
  unfold writeCsr
  split <;> rfl

end Hart

/-- The effect of an instruction on the hart; `none` for those that reach the memory or the environment. -/
def Instr.exec (h : Hart) : Instr → Option Hart
  | .regReg op rd rs1 rs2     => some (h.retire rd (op.eval (h.x rs1) (h.x rs2)) (h.pc + 4))
  | .regImm op rd rs1 imm     =>
      some (h.retire rd (op.regOp.eval (h.x rs1) (imm.signExtend 32)) (h.pc + 4))
  | .regShift op rd rs1 shamt =>
      some (h.retire rd (op.regOp.eval (h.x rs1) (shamt.setWidth 32)) (h.pc + 4))
  | .branch op rs1 rs2 imm    =>
      some { h with pc := h.pc + if op.Taken (h.x rs1) (h.x rs2) then offset imm else 4 }
  | .jal rd imm               => some (h.retire rd (h.pc + 4) (h.pc + offset imm))
  | .jalr rd rs1 imm          =>
      some (h.retire rd (h.pc + 4) ((h.x rs1 + imm.signExtend 32) &&& ~~~1#32))
  | .lui rd imm               => some (h.retire rd (upper imm) (h.pc + 4))
  | .auipc rd imm             => some (h.retire rd (h.pc + upper imm) (h.pc + 4))
  | .zicsr op rd src csr      =>
      let old := h.readCsr csr
      some ((h.writeCsr csr (op.eval old (h.csrSource op src))).retire rd old (h.pc + 4))
  | .load .. | .store .. | .fence .. | .system .. => none

end Isa
end Rv32
