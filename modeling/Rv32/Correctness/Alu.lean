import Rv32.Isa.Refinement

/-!
# `Correctness.Alu` — register-register operations and their immediate forms

A register-register instruction computes its operation. An immediate form is compared with the
register-register instruction on a machine that holds the immediate in a register: the two leave the same
`x[rd]`, `pc` and status, but for `sltiu`.
-/

namespace Rv32

open Isa

variable {σ : Type} {host : Host σ} {s t : RV32 σ}

/-- **Register-register instructions.** `rd` is the operation on the old operands, whatever registers
    coincide; the machine runs on at the next instruction. -/
theorem rv32Cycle_regReg (host : Host σ) (s : RV32 σ) (op : RegOp) (rd rs1 rs2 : BitVec 5)
    (h : Executes host s (Instr.regReg op rd rs1 rs2).encode) :
    (rd ≠ 0 → xreg (rv32Cycle host s) rd = op.eval (xreg s rs1) (xreg s rs2)) ∧
      (∀ i, i ≠ rd → xreg (rv32Cycle host s) i = xreg s i) ∧
      (rv32Cycle host s).pc = s.pc + 4 ∧ (rv32Cycle host s).status = .running := by
  obtain ⟨hhart, houtside⟩ := rv32Cycle_emulate h rfl
  have hx := xreg_of_hart hhart
  refine ⟨xreg_regReg h, ?_, pc_of_hart hhart, ?_⟩
  · intro i hi
    exact (hx i).trans (Hart.retire_x_of_ne _ hi _ _)
  · rw [houtside.status, h.running]

/-- `sra x1, x2, x2` of -1, by 31. -/
theorem rv32Cycle_regReg_emulator :
    xreg (rv32Cycle emulatorHost
      (emulatorWith (fun _ => -1) [(Instr.regReg .sra 1 2 2).encode])) 1 = -1 := by
  have hexec := executes_emulatorWith (w := (Instr.regReg .sra 1 2 2).encode) (fun _ => -1) [] (by decide)
  rw [(rv32Cycle_regReg emulatorHost _ .sra 1 2 2 hexec).1 (by decide)]
  decide

/-! ## Immediate forms -/

/-- `t` is `s` with `b` in `rs2`, as far as an operation can see. -/
structure HoldsOperand (s t : RV32 σ) (rs2 : BitVec 5) (b : Word) : Prop where
  operand : xreg t rs2 = b
  others : ∀ i, i ≠ rs2 → xreg t i = xreg s i
  pc : t.pc = s.pc

/-- The machines have the same `x[rd]`, `pc` and status. -/
structure SameResult (rd : BitVec 5) (s t : RV32 σ) : Prop where
  rd : xreg s rd = xreg t rd
  pc : s.pc = t.pc
  status : s.status = t.status

/-- An instruction that leaves `a` in `rd` has the result of the register form when that leaves `a`. -/
theorem sameResult_regReg_iff {i : Instr} {op : RegOp} {rd rs1 rs2 : BitVec 5} {a b : Word}
    (hrs2 : rs2 ≠ rs1) (hoperand : HoldsOperand s t rs2 b) (hs : Executes host s i.encode)
    (hi : i.emulate (hart s) = some ((hart s).retire rd a (s.pc + 4)))
    (ht : Executes host t (Instr.regReg op rd rs1 rs2).encode) :
    SameResult rd (rv32Cycle host s) (rv32Cycle host t) ↔ (rd ≠ 0 → a = op.eval (xreg s rs1) b) := by
  obtain ⟨hhart, houtside⟩ := rv32Cycle_emulate hs hi
  obtain ⟨hhart', houtside'⟩ := rv32Cycle_emulate ht rfl
  simp only [hart_x, hart_pc, hoperand.operand, hoperand.others rs1 hrs2.symm, hoperand.pc] at hhart'
  have hu := xreg_of_hart hhart rd
  have hv := xreg_of_hart hhart' rd
  constructor
  · intro h hrd
    rw [Hart.retire_x_self _ hrd] at hu hv
    exact hu.symm.trans (h.rd.trans hv)
  · intro hab
    constructor
    · by_cases hrd : rd = 0
      · rw [hrd]; rfl
      · rw [hu, hv, Hart.retire_x_self _ hrd, Hart.retire_x_self _ hrd, hab hrd]
    · exact (pc_of_hart hhart).trans (pc_of_hart hhart').symm
    · rw [houtside.status, houtside'.status, hs.running, ht.running]

/-- **Immediate forms agree with register forms**, exactly but for `sltiu` of a negative immediate and an
    operand between the immediate, which it compares with, and the sign extension, which it should. -/
theorem immediate_agrees_iff (host : Host σ) (s t : RV32 σ) (rd rs1 rs2 : BitVec 5) (hrs2 : rs2 ≠ rs1) :
    (∀ (op : ImmOp) (imm : BitVec 12), HoldsOperand s t rs2 (imm.signExtend 32) →
      Executes host s (Instr.regImm op rd rs1 imm).encode →
      Executes host t (Instr.regReg op.regOp rd rs1 rs2).encode →
      (SameResult rd (rv32Cycle host s) (rv32Cycle host t) ↔
        ¬ (op = .sltiu ∧ rd ≠ 0 ∧ imm.toNat ≤ (xreg s rs1).toNat ∧
          (xreg s rs1).toNat < (imm.signExtend 32).toNat))) ∧
    (∀ (op : ShiftOp) (shamt : BitVec 5), HoldsOperand s t rs2 (shamt.setWidth 32) →
      Executes host s (Instr.regShift op rd rs1 shamt).encode →
      Executes host t (Instr.regReg op.regOp rd rs1 rs2).encode →
      SameResult rd (rv32Cycle host s) (rv32Cycle host t)) := by
  constructor
  · intro op imm hoperand hs ht
    rw [sameResult_regReg_iff hrs2 hoperand hs rfl ht]
    simp only [hart_x, emulated_eq_eval_iff]
    constructor
    · rintro h ⟨hop, hrd, hbetween⟩
      exact h hrd ⟨hop, hbetween⟩
    · rintro h hrd ⟨hop, hbetween⟩
      exact h ⟨hop, hrd, hbetween⟩
  · intro op shamt hoperand hs ht
    rw [sameResult_regReg_iff hrs2 hoperand hs rfl ht]
    exact fun _ => rfl

theorem holdsOperand_operandPair (a b : Word) (ws ws' : List Word) :
    HoldsOperand (operandPair a 0 ws) (operandPair a b ws') 6 b where
  operand := rfl
  others i hi := by
    have hslot : reg i ≠ reg 6 := fun h => hi (reg_inj.mp h)
    unfold xreg
    split
    · rfl
    · exact (Function.update_of_ne hslot _ _).trans (Function.update_of_ne hslot _ _).symm
  pc := rfl

/-- `addi x1, x5, -1` against `add x1, x5, x6`, and `slli x1, x5, 3` against `sll x1, x5, x6`. -/
theorem immediate_agrees_emulator :
    SameResult 1
        (rv32Cycle emulatorHost (operandPair 7 0 [(Instr.regImm .addi 1 5 (-1)).encode]))
        (rv32Cycle emulatorHost (operandPair 7 (-1) [(Instr.regReg .add 1 5 6).encode])) ∧
      SameResult 1
        (rv32Cycle emulatorHost (operandPair 7 0 [(Instr.regShift .slli 1 5 3).encode]))
        (rv32Cycle emulatorHost (operandPair 7 3 [(Instr.regReg .sll 1 5 6).encode])) := by
  constructor
  · have hagree := immediate_agrees_iff emulatorHost
      (operandPair 7 0 [(Instr.regImm .addi 1 5 (-1)).encode])
      (operandPair 7 (-1) [(Instr.regReg .add 1 5 6).encode]) 1 5 6 (by decide)
    refine (hagree.1 .addi (-1) (holdsOperand_operandPair 7 (-1) _ _) ?_ ?_).mpr (by decide)
    · exact executes_emulatorWith _ [] (by decide)
    · exact executes_emulatorWith _ [] (by decide)
  · have hagree := immediate_agrees_iff emulatorHost
      (operandPair 7 0 [(Instr.regShift .slli 1 5 3).encode])
      (operandPair 7 3 [(Instr.regReg .sll 1 5 6).encode]) 1 5 6 (by decide)
    refine hagree.2 .slli 3 (holdsOperand_operandPair 7 3 _ _) ?_ ?_
    · exact executes_emulatorWith _ [] (by decide)
    · exact executes_emulatorWith _ [] (by decide)

/-- `sltiu x1, x5, -1` of 0x1000 is 0, `sltu x1, x5, x6` with -1 in `x6` is 1. -/
theorem sltiu_disagrees :
    HoldsOperand (operandPair 0x1000 0 [(Instr.regImm .sltiu 1 5 (-1)).encode])
        (operandPair 0x1000 (-1) [(Instr.regReg .sltu 1 5 6).encode]) 6 ((-1 : BitVec 12).signExtend 32) ∧
      Executes emulatorHost (operandPair 0x1000 0 [(Instr.regImm .sltiu 1 5 (-1)).encode])
        (Instr.regImm .sltiu 1 5 (-1)).encode ∧
      Executes emulatorHost (operandPair 0x1000 (-1) [(Instr.regReg .sltu 1 5 6).encode])
        (Instr.regReg .sltu 1 5 6).encode ∧
      ¬ SameResult 1
        (rv32Cycle emulatorHost (operandPair 0x1000 0 [(Instr.regImm .sltiu 1 5 (-1)).encode]))
        (rv32Cycle emulatorHost (operandPair 0x1000 (-1) [(Instr.regReg .sltu 1 5 6).encode])) := by
  refine ⟨holdsOperand_operandPair 0x1000 (-1) _ _, executes_emulatorWith _ [] (by decide),
    executes_emulatorWith _ [] (by decide), ?_⟩
  intro h
  exact absurd h.rd (by decide)

end Rv32
