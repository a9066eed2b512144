import Rv32.Isa.Refinement

/-!
# `Correctness.Jumps` — where `jal`, `jalr` and the branches go

The instructions are taken as a programmer writes them, with an integer offset; the encoding cuts it down
to its field. `jal` goes to `pc + emulatedOffset`, which is the offset on half of its range only; the
others go where the ISA says.
-/

namespace Rv32

open Isa

variable {σ : Type} {host : Host σ} {s : RV32 σ}

/-! ## Instructions with an integer offset -/

/-- `jal rd, n` -/
def jalWord (rd : BitVec 5) (n : Int) : Word := (Instr.jal rd (BitVec.ofInt 20 (n / 2))).encode

/-- `op rs1, rs2, n` -/
def branchWord (op : BranchOp) (rs1 rs2 : BitVec 5) (n : Int) : Word :=
  (Instr.branch op rs1 rs2 (BitVec.ofInt 12 (n / 2))).encode

/-- `jalr rd, n(rs1)` -/
def jalrWord (rd rs1 : BitVec 5) (n : Int) : Word := (Instr.jalr rd rs1 (BitVec.ofInt 12 n)).encode

/-! ## `jal` -/

/-- The machine `t` is where `jal rd, n` leads from `s`. -/
structure JalLands (s : RV32 σ) (rd : BitVec 5) (n : Int) (t : RV32 σ) : Prop where
  pc : t.pc = s.pc + BitVec.ofInt 32 n
  link : rd ≠ 0 → xreg t rd = s.pc + 4
  others : ∀ i, i ≠ rd → xreg t i = xreg s i

/-- A cycle executing `jal` lands where `SEXT_IMM_J` is the offset. -/
theorem jalLands_iff_emulatedOffset {rd : BitVec 5} {n : Int} (h : Executes host s (jalWord rd n)) :
    JalLands s rd n (rv32Cycle host s) ↔
      emulatedOffset (BitVec.ofInt 20 (n / 2)) = BitVec.ofInt 32 n := by
  have hhart := (rv32Cycle_emulate h rfl).1
  have hpc : (rv32Cycle host s).pc = s.pc + emulatedOffset (BitVec.ofInt 20 (n / 2)) :=
    pc_of_hart hhart
  have hx := xreg_of_hart hhart
  constructor
  · intro hlands
    exact add_left_cancel (hpc.symm.trans hlands.pc)
  · intro hoffset
    constructor
    · rw [hpc, hoffset]
    · intro hrd
      exact (hx rd).trans (Hart.retire_x_self _ hrd _ _)
    · intro i hi
      exact (hx i).trans (Hart.retire_x_of_ne _ hi _ _)

/-- **`jal` reaches its target** exactly when the offset is in the lower half of its range. -/
theorem jal_lands_iff (host : Host σ) (s : RV32 σ) (rd : BitVec 5) (n : Int) (heven : n % 2 = 0)
    (hlow : -2 ^ 20 ≤ n) (hhigh : n ≤ 2 ^ 20 - 2) (h : Executes host s (jalWord rd n)) :
    JalLands s rd n (rv32Cycle host s) ↔ -2 ^ 19 ≤ n ∧ n < 2 ^ 19 := by
  have hoffset : offset (BitVec.ofInt 20 (n / 2)) = BitVec.ofInt 32 n :=
    Words.signExtend_half_append (by decide) heven hlow (by omega)
  have hhalf : (BitVec.ofInt 20 (n / 2)).toInt = n / 2 := by
    apply BitVec.toInt_ofInt_eq_self (by decide)
    · omega
    · omega
  rw [jalLands_iff_emulatedOffset h, ← hoffset, emulatedOffset_eq_iff, hhalf]
  omega

/-- `jal ra, -4`, 4 bytes below the start. -/
theorem jal_lands_emulator :
    JalLands (emulatorStart [jalWord 1 (-4)]) 1 (-4)
      (rv32Cycle emulatorHost (emulatorStart [jalWord 1 (-4)])) := by
  have hexec := executes_emulatorStart (w := jalWord 1 (-4)) [] (by decide)
  exact (jal_lands_iff emulatorHost _ 1 (-4) rfl (by decide) (by decide) hexec).mpr (by decide)

/-- `jal ra, 0x80000` goes down instead of up. -/
theorem jal_misses :
    Executes emulatorHost (emulatorStart [jalWord 1 0x80000]) (jalWord 1 0x80000) ∧
      (rv32Cycle emulatorHost (emulatorStart [jalWord 1 0x80000])).pc = -0x80000 ∧
      ¬ JalLands (emulatorStart [jalWord 1 0x80000]) 1 0x80000
        (rv32Cycle emulatorHost (emulatorStart [jalWord 1 0x80000])) := by
  have hexec := executes_emulatorStart (w := jalWord 1 0x80000) [] (by decide)
  have hpc : (rv32Cycle emulatorHost (emulatorStart [jalWord 1 0x80000])).pc = -0x80000 := by decide
  refine ⟨hexec, hpc, ?_⟩
  intro h
  exact absurd (hpc.symm.trans h.pc) (by decide)

/-! ## Branches and `jalr` -/

/-- **Branches and `jalr`.** A branch goes to its target when the comparison holds, and on to the next
    instruction otherwise; `jalr` reads its base before it writes the link. -/
theorem rv32Cycle_branch_jalr (host : Host σ) (s : RV32 σ) :
    (∀ (op : BranchOp) (rs1 rs2 : BitVec 5) (n : Int), n % 2 = 0 → -4096 ≤ n → n ≤ 4094 →
      Executes host s (branchWord op rs1 rs2 n) →
      (rv32Cycle host s).pc =
          (if op.Taken (xreg s rs1) (xreg s rs2) then s.pc + BitVec.ofInt 32 n else s.pc + 4) ∧
        ∀ i, xreg (rv32Cycle host s) i = xreg s i) ∧
    (∀ (rd rs1 : BitVec 5) (n : Int), -2048 ≤ n → n ≤ 2047 → Executes host s (jalrWord rd rs1 n) →
      (rv32Cycle host s).pc = (xreg s rs1 + BitVec.ofInt 32 n) &&& ~~~1#32 ∧
        (rd ≠ 0 → xreg (rv32Cycle host s) rd = s.pc + 4) ∧
        ∀ i, i ≠ rd → xreg (rv32Cycle host s) i = xreg s i) := by
  constructor
  · intro op rs1 rs2 n heven hlow hhigh h
    have hoffset : offset (BitVec.ofInt 12 (n / 2)) = BitVec.ofInt 32 n :=
      Words.signExtend_half_append (by decide) heven hlow (by omega)
    have hhart := (rv32Cycle_emulate h rfl).1
    constructor
    · refine (pc_of_hart hhart).trans ?_
      simp only [hart_pc, hart_x, hoffset]
      exact apply_ite (s.pc + ·) _ _ _
    · intro i
      exact xreg_of_hart hhart i
  · intro rd rs1 n hlow hhigh h
    have himm : (BitVec.ofInt 12 n).signExtend 32 = BitVec.ofInt 32 n := by
      rw [BitVec.signExtend, BitVec.toInt_ofInt_eq_self (by decide) hlow (by omega)]
    have hhart := (rv32Cycle_emulate h rfl).1
    have hx := xreg_of_hart hhart
    refine ⟨?_, ?_, ?_⟩
    · refine (pc_of_hart hhart).trans ?_
      simp only [Hart.retire_pc, hart_x, himm]
    · intro hrd
      exact (hx rd).trans (Hart.retire_x_self _ hrd _ _)
    · intro i hi
      exact (hx i).trans (Hart.retire_x_of_ne _ hi _ _)

/-- `bge x0, x0, -8` is taken, and `jalr x0, 5(x0)` clears the lowest bit. -/
theorem rv32Cycle_branch_jalr_emulator :
    (rv32Cycle emulatorHost (emulatorStart [branchWord .bge 0 0 (-8)])).pc = -8 ∧
      (rv32Cycle emulatorHost (emulatorStart [jalrWord 0 0 5])).pc = 4 := by
  have hbranch := executes_emulatorStart (w := branchWord .bge 0 0 (-8)) [] (by decide)
  have hjalr := executes_emulatorStart (w := jalrWord 0 0 5) [] (by decide)
  constructor
  · have hpc := ((rv32Cycle_branch_jalr emulatorHost _).1 .bge 0 0 (-8) rfl (by decide) (by decide)
      hbranch).1
    rw [hpc]
    decide
  · have hpc := ((rv32Cycle_branch_jalr emulatorHost _).2 0 0 5 (by decide) (by decide) hjalr).1
    rw [hpc]
    decide

end Rv32
