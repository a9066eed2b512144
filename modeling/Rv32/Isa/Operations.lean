import Rv32.Isa.Hart
import Rv32.Lib.Words

/-!
# `Isa.Operations` — the C expressions compute the operations of the ISA

`opResult`, `opImmResult`, `branchTaken` and `csrWriteValue` on the fields of an instruction, against
`eval` and `Taken`. Two expressions are not the ISA's: `sltiu` compares with an immediate that was not
sign-extended (`ImmOp.emulated`), and `SEXT_IMM_J` extends from the wrong bit (`emulatedOffset`).
-/

namespace Rv32
namespace Isa

variable (a b : Word)

/-! ## Register-register operations -/

theorem and_31_toNat : (b &&& 0x1f).toNat = shiftAmount b := by
  rw [BitVec.toNat_and]
  exact Nat.and_two_pow_sub_one_eq_mod b.toNat 5

theorem setWidth_mul_setWidth :
    a.setWidth 64 * b.setWidth 64 = BitVec.ofInt (32 + 32) (a.toNat * b.toNat) :=
  Words.mul_eq_ofInt (Words.ofInt_toNat_eq_setWidth 64 a) (Words.ofInt_toNat_eq_setWidth 64 b)

theorem signExtend_mul_signExtend :
    a.signExtend 64 * b.signExtend 64 = BitVec.ofInt (32 + 32) (a.toInt * b.toInt) :=
  Words.mul_eq_ofInt rfl rfl

theorem signExtend_mul_setWidth :
    a.signExtend 64 * b.setWidth 64 = BitVec.ofInt (32 + 32) (a.toInt * b.toNat) :=
  Words.mul_eq_ofInt rfl (Words.ofInt_toNat_eq_setWidth 64 b)

/-- The low word of a product is the product of the low words. -/
theorem mul_eval : ((a.setWidth 64 * b.setWidth 64 &&& 0xFFFFFFFF#64).setWidth 32) = RegOp.eval .mul a b := by
  have hlow := Bits.setWidth_and_low (a.setWidth 64 * b.setWidth 64) (n := 32) (by decide)
  rw [show 0xFFFFFFFF#64 = BitVec.ofNat 64 (2 ^ 32 - 1) from rfl, hlow, setWidth_mul_setWidth,
    Words.setWidth_ofInt (by decide)]
  calc BitVec.ofInt 32 (a.toNat * b.toNat) = a * b :=
        (Words.mul_eq_ofInt (Words.ofInt_toNat a) (Words.ofInt_toNat b)).symm
    _ = BitVec.ofInt 32 (a.toInt * b.toInt) := Words.mul_eq_ofInt BitVec.ofInt_toInt BitVec.ofInt_toInt

/-- The overflow of the division is what the word of the quotient is anyway. -/
theorem div_eval :
    (if b = 0 then 0xFFFFFFFF else if a = 0x80000000 ∧ b = -1 then a else a.sdiv b) =
      RegOp.eval .div a b := by
  simp only [RegOp.eval]
  by_cases hb : b = 0
  · rw [if_pos hb, if_pos hb]
    rfl
  rw [if_neg hb, if_neg hb]
  split
  · rename_i h
    rw [h.1, h.2]
    decide
  · apply BitVec.eq_of_toInt_eq
    rw [BitVec.toInt_sdiv, BitVec.toInt_ofInt]

theorem srem_eval : a.srem b = RegOp.eval .rem a b := by
  simp only [RegOp.eval]
  rw [← BitVec.toInt_srem, BitVec.ofInt_toInt]

theorem rem_eval :
    (if b = 0 then a else if a = 0x80000000 ∧ b = -1 then 0 else a.srem b) = RegOp.eval .rem a b := by
  split
  · rename_i h
    rw [← srem_eval, h]
    exact BitVec.srem_zero.symm
  split
  · rename_i h
    rw [h.1, h.2]
    decide
  · exact srem_eval a b

theorem divu_eval : (if b = 0 then 0xFFFFFFFF else a / b) = RegOp.eval .divu a b := by
  simp only [RegOp.eval]
  by_cases hb : b = 0
  · rw [if_pos hb, if_pos hb]
    rfl
  · rw [if_neg hb, if_neg hb, ← Int.natCast_ediv, ← BitVec.toNat_udiv, Words.ofInt_toNat]

theorem umod_eval : a % b = RegOp.eval .remu a b := by
  simp only [RegOp.eval]
  rw [← Int.natCast_emod, ← BitVec.toNat_umod, Words.ofInt_toNat]

theorem remu_eval : (if b = 0 then a else a % b) = RegOp.eval .remu a b := by
  split
  · rename_i h
    rw [← umod_eval, h]
    exact BitVec.umod_zero.symm
  · exact umod_eval a b

/-- **The multiply extension** computes the operations. -/
theorem mulDivResult_eval (op : RegOp) (hop : op.funct7 = 0x01) :
    mulDivResult (op.funct3.setWidth 8) a b = some (op.eval a b) := by
  cases op with
  | mul => exact congrArg some (mul_eval a b)
  | mulh =>
      refine congrArg some ?_
      rw [Evaluated.map_value, SignedArith.evalProduct_value, signExtend_mul_signExtend]
      exact (Words.setWidth_sshiftRight _).trans (Words.setWidth_ofInt_shiftRight 32 32 _)
  | mulhsu =>
      refine congrArg some ?_
      rw [Evaluated.map_value, SignedArith.evalProduct_value, signExtend_mul_setWidth]
      exact (Words.setWidth_sshiftRight _).trans (Words.setWidth_ofInt_shiftRight 32 32 _)
  | mulhu =>
      refine congrArg some ?_
      rw [setWidth_mul_setWidth]
      exact Words.setWidth_ofInt_shiftRight 32 32 _
  | div => exact (mulDivResult_div a b).trans (congrArg some (div_eval a b))
  | divu => exact congrArg some (divu_eval a b)
  | rem => exact (mulDivResult_rem a b).trans (congrArg some (rem_eval a b))
  | remu => exact congrArg some (remu_eval a b)
  | _ => exact absurd hop (by decide)

theorem add_eval : a + b = RegOp.eval .add a b := by
  simp only [RegOp.eval]
  rw [BitVec.ofInt_add, BitVec.ofInt_toInt, BitVec.ofInt_toInt]

theorem sub_eval : a - b = RegOp.eval .sub a b := by
  simp only [RegOp.eval]
  rw [Int.sub_eq_add_neg, BitVec.ofInt_add, BitVec.ofInt_neg, BitVec.ofInt_toInt, BitVec.ofInt_toInt,
    BitVec.sub_eq_add_neg]

theorem sll_eval : a <<< (b &&& 0x1f).toNat = RegOp.eval .sll a b := by
  simp only [RegOp.eval]
  rw [and_31_toNat]
  apply BitVec.eq_of_toNat_eq
  rw [BitVec.toNat_shiftLeft, Nat.shiftLeft_eq, BitVec.toNat_ofNat]

theorem srl_eval : a >>> (b &&& 0x1f).toNat = RegOp.eval .srl a b := by
  simp only [RegOp.eval]
  rw [and_31_toNat, ← Nat.shiftRight_eq_div_pow, ← BitVec.toNat_ushiftRight, BitVec.ofNat_toNat,
    BitVec.setWidth_eq]

theorem sra_eval : a.sshiftRight (b &&& 0x1f).toNat = RegOp.eval .sra a b := by
  simp only [RegOp.eval]
  rw [and_31_toNat]
  have hshift := Int.shiftRight_eq_div_pow a.toInt (shiftAmount b)
  rw [Nat.cast_pow, Nat.cast_ofNat] at hshift
  rw [← hshift, ← BitVec.toInt_sshiftRight, BitVec.ofInt_toInt]

theorem slt_eval : (if a.slt b then 1 else 0) = RegOp.eval .slt a b :=
  if_congr BitVec.slt_iff_toInt_lt rfl rfl

/-- **The register-register operations** compute what they are specified as. -/
theorem opResult_eval (op : RegOp) :
    opResult (op.funct7.setWidth 8) (op.funct3.setWidth 8) a b = some (op.eval a b) := by
  cases op with
  | add => exact congrArg some (add_eval a b)
  | sub => exact congrArg some (sub_eval a b)
  | sll => exact congrArg some (sll_eval a b)
  | slt => exact congrArg some (slt_eval a b)
  | sltu => rfl
  | xor => rfl
  | srl => exact congrArg some (srl_eval a b)
  | sra => exact congrArg some (sra_eval a b)
  | or => rfl
  | and => rfl
  | mul => exact mulDivResult_eval a b .mul rfl
  | mulh => exact mulDivResult_eval a b .mulh rfl
  | mulhsu => exact mulDivResult_eval a b .mulhsu rfl
  | mulhu => exact mulDivResult_eval a b .mulhu rfl
  | div => exact mulDivResult_eval a b .div rfl
  | divu => exact mulDivResult_eval a b .divu rfl
  | rem => exact mulDivResult_eval a b .rem rfl
  | remu => exact mulDivResult_eval a b .remu rfl

/-! ## Immediate forms -/

/-- What the code computes for an immediate form. -/
def ImmOp.emulated (op : ImmOp) (a : Word) (imm : BitVec 12) : Word :=
  match op with
  | .sltiu => if a.toNat < imm.toNat then 1 else 0    -- `IMM_I`, where the others have `SEXT_IMM_I`
  | _      => op.regOp.eval a (imm.signExtend 32)

theorem opImmResult_encodeI (op : ImmOp) (rd rs1 : BitVec 5) (imm : BitVec 12) :
    opImmResult (encodeI imm rs1 op.funct3 rd 0x13) a = some (op.emulated a imm) := by
  unfold opImmResult
  rw [funct3_eq, funct3Of_encodeI, sextImmI_eq, immI_eq, immIOf_encodeI]
  cases op with
  | addi => exact congrArg some (add_eval a _)
  | slti => exact congrArg some (slt_eval a _)
  | sltiu =>
      have hlt : a < imm.setWidth 32 ↔ a.toNat < imm.toNat := by
        rw [BitVec.lt_def, BitVec.toNat_setWidth_of_le (by decide)]
      exact congrArg some (if_congr hlt rfl rfl)
  | xori => rfl
  | ori => rfl
  | andi => rfl

/-- The shift amount is read out of the immediate, whose low five bits are the field of `rs2`. -/
theorem immI_and_31 (w : Word) : immI w &&& 0x1f = (rs2Of w).setWidth 32 &&& 0x1f := by
  have hfield : w >>> 20 &&& 0x1f = (rs2Of w).setWidth 32 := Bits.shiftRight_and_low w 20 5
  rw [immI, ← hfield, BitVec.and_assoc, BitVec.and_assoc]
  rfl

theorem opImmResult_encodeR (op : ShiftOp) (rd rs1 shamt : BitVec 5) :
    opImmResult (encodeR op.funct7 shamt rs1 op.funct3 rd 0x13) a =
      some (op.regOp.eval a (shamt.setWidth 32)) := by
  unfold opImmResult
  rw [funct3_eq, funct3Of_encodeR, funct7_eq, funct7Of_encodeR, immI_and_31, rs2Of_encodeR]
  cases op with
  | slli => exact congrArg some (sll_eval a _)
  | srli => exact congrArg some (srl_eval a _)
  | srai => exact congrArg some (sra_eval a _)

/-- `sltiu` is the one form that can go wrong: for a negative immediate, on the operands from the value
    that is compared with up to the value that should be. -/
theorem emulated_eq_eval_iff (op : ImmOp) (imm : BitVec 12) :
    op.emulated a imm = op.regOp.eval a (imm.signExtend 32) ↔
      ¬ (op = .sltiu ∧ imm.toNat ≤ a.toNat ∧ a.toNat < (imm.signExtend 32).toNat) := by
  cases op with
  | sltiu =>
      have hle : imm.toNat ≤ (imm.signExtend 32).toNat := by
        rw [BitVec.toNat_signExtend, BitVec.toNat_setWidth_of_le (by decide)]
        exact Nat.le_add_right _ _
      simp only [ImmOp.emulated, ImmOp.regOp, RegOp.eval, true_and]
      by_cases himm : a.toNat < imm.toNat
      · rw [if_pos himm, if_pos (Nat.lt_of_lt_of_le himm hle)]
        exact iff_of_true rfl (fun h => Nat.not_le.mpr himm h.1)
      · rw [if_neg himm]
        by_cases hsext : a.toNat < (imm.signExtend 32).toNat
        · rw [if_pos hsext]
          exact iff_of_false (by decide) (not_not.mpr ⟨Nat.not_lt.mp himm, hsext⟩)
        · rw [if_neg hsext]
          exact iff_of_true rfl (fun h => hsext h.2)
  | _ => exact iff_of_true rfl (fun h => nomatch h.1)

/-! ## Branches, jumps and CSR instructions -/

/-- The offset the code computes for `jal`. -/
def emulatedOffset (imm : BitVec 20) : Word := sext ((imm ++ 0#1).setWidth 32) 20

/-- **`SEXT_IMM_J` extends from bit 19**, the bit below the sign of the 21-bit offset. It is the offset on
    the half of the range where the two bits agree. -/
theorem emulatedOffset_eq_iff (imm : BitVec 20) :
    emulatedOffset imm = offset imm ↔ -2 ^ 18 ≤ imm.toInt ∧ imm.toInt < 2 ^ 18 := by
  have hsext := Bits.or_high_if_bit_below_sign (imm ++ 0#1) (show 20 + 1 < 32 by decide)
  refine Iff.trans hsext ?_
  rw [BitVec.getLsbD_append, BitVec.getLsbD_append]
  exact Words.getLsbD_below_sign_iff imm (show 0 < 19 by decide)

theorem branchTaken_eval (op : BranchOp) :
    branchTaken (op.funct3.setWidth 8) a b = some (decide (op.Taken a b)) := by
  cases op with
  | beq => rfl
  | bne => rfl
  | blt => rfl
  | bge =>
      refine congrArg some ?_
      rw [BitVec.slt_eq_decide, ← decide_not]
      exact decide_eq_decide.mpr Int.not_lt
  | bltu => rfl
  | bgeu => exact congrArg some (decide_eq_decide.mpr Nat.not_lt)

theorem csrWriteValue_eval (h : Hart) (op : CsrOp) (src : BitVec 5) (old : Word) :
    csrWriteValue (op.funct3.setWidth 8) old (h.x src) (src.setWidth 32) =
      some (op.eval old (h.csrSource op src)) := by
  cases op <;> rfl

end Isa
end Rv32
