import Rv32.Isa.Refinement

/-!
# `Correctness.Constants` — constants, addresses and far jumps in two instructions

An assembler splits a word into the upper part a U-format holds and the lower part an I-format holds. The
lower part is signed, so the upper part is rounded, and the two sum up to the word again
(`upper_add_lowPart`), modulo `2 ^ 32`.
-/

namespace Rv32

open Isa

variable {σ : Type} {host : Host σ} {s : RV32 σ}

/-- `%hi` -/
def highPart (v : Word) : BitVec 20 := ((v + 0x800) >>> 12).setWidth 20

/-- `%lo` -/
def lowPart (v : Word) : BitVec 12 := v.setWidth 12

/-- `lui rd, %hi(v)`, `addi rd, rd, %lo(v)` -/
def loadConstant (rd : BitVec 5) (v : Word) : List Instr :=
  [.lui rd (highPart v), .regImm .addi rd rd (lowPart v)]

/-- `auipc rd, %hi(d)`, `addi rd, rd, %lo(d)`, for the distance `d` -/
def loadAddress (rd : BitVec 5) (d : Word) : List Instr :=
  [.auipc rd (highPart d), .regImm .addi rd rd (lowPart d)]

/-- `auipc rd, %hi(d)`, `jalr rd, %lo(d)(rd)` -/
def farJump (rd : BitVec 5) (d : Word) : List Instr :=
  [.auipc rd (highPart d), .jalr rd rd (lowPart d)]

theorem upper_add_lowPart (v : Word) : upper (highPart v) + (lowPart v).signExtend 32 = v :=
  Words.roundedHigh_add_signedLow (v := 20) (n := 12) (by decide) v

/-- The upper part of a distance, from where it is counted. -/
theorem pc_add_upper_add_lowPart (pc v : Word) :
    pc + upper (highPart (v - pc)) + (lowPart (v - pc)).signExtend 32 = v := by
  rw [add_assoc, upper_add_lowPart, add_sub_cancel]

theorem run_pair {i j : Instr} {g : Hart} (hready : Ready s) (hready' : Ready (rv32Cycle host s))
    (hprog : ProgramAt s s.pc [i, j]) (hnext : GoesOn i) (hi : ∀ h, ¬ Deviates h i)
    (hj : ∀ h, ¬ Deviates h j) (hg : [i, j].foldlM Instr.exec (hart s) = some g) :
    hart (rv32Cycle host (rv32Cycle host s)) = g :=
  (run_refines (runs_pair hready hready' hprog hnext) ⟨hi _, hj _, trivial⟩ hg).1

/-- **Constants, addresses and far jumps.** The pairs load `v`, load the address `v` and jump to `v`,
    wherever they stand. -/
theorem rv32Cycle_constants (host : Host σ) (s : RV32 σ) (v : Word) (rd : BitVec 5) (hrd : rd ≠ 0)
    (hready : Ready s) (hready' : Ready (rv32Cycle host s)) :
    (ProgramAt s s.pc (loadConstant rd v) →
      xreg (rv32Cycle host (rv32Cycle host s)) rd = v) ∧
    (ProgramAt s s.pc (loadAddress rd (v - s.pc)) →
      xreg (rv32Cycle host (rv32Cycle host s)) rd = v) ∧
    (ProgramAt s s.pc (farJump rd (v - s.pc)) →
      (rv32Cycle host (rv32Cycle host s)).pc = v &&& ~~~1#32 ∧
        xreg (rv32Cycle host (rv32Cycle host s)) rd = s.pc + 8) := by
  refine ⟨?_, ?_, ?_⟩
  · intro hprog
    have hhart := run_pair hready hready' hprog (fun _ => ⟨_, rfl, rfl⟩) (fun _ => id) (fun _ => id) rfl
    have hx := xreg_of_hart hhart rd
    simp only [Hart.retire_x_self _ hrd, ImmOp.regOp, ← add_eval, upper_add_lowPart] at hx
    exact hx
  · intro hprog
    have hhart := run_pair hready hready' hprog (fun _ => ⟨_, rfl, rfl⟩) (fun _ => id) (fun _ => id) rfl
    have hx := xreg_of_hart hhart rd
    simp only [Hart.retire_x_self _ hrd, ImmOp.regOp, ← add_eval, hart_pc,
      pc_add_upper_add_lowPart] at hx
    exact hx
  · intro hprog
    have hhart := run_pair hready hready' hprog (fun _ => ⟨_, rfl, rfl⟩) (fun _ => id) (fun _ => id) rfl
    have hx := xreg_of_hart hhart rd
    have hpc := pc_of_hart hhart
    simp only [Hart.retire_x_self _ hrd, Hart.retire_pc, hart_pc, pc_add_upper_add_lowPart] at hx hpc
    refine ⟨hpc, hx.trans ?_⟩
    rw [add_assoc]
    rfl

/-- The emulator after the two cycles. -/
def afterPair (is : List Instr) : RV32 (List Output) :=
  rv32Cycle emulatorHost (rv32Cycle emulatorHost (emulatorStart (is.map Instr.encode)))

/-- The constant `0x12345FFF`, whose lower part is negative, the address `-4` and the address 5. -/
theorem rv32Cycle_constants_emulator :
    xreg (afterPair (loadConstant 5 0x12345FFF)) 5 = 0x12345FFF ∧
      xreg (afterPair (loadAddress 5 (-4))) 5 = -4 ∧
      (afterPair (farJump 5 5)).pc = 4 ∧ xreg (afterPair (farJump 5 5)) 5 = 8 := by
  refine ⟨?_, ?_, ?_⟩
  · obtain ⟨hready, hready'⟩ := ready_pair_emulator (i := .lui 5 (highPart 0x12345FFF))
      (j := .regImm .addi 5 5 (lowPart 0x12345FFF)) (fun _ => 0) rfl (by decide) (by decide)
    exact (rv32Cycle_constants emulatorHost _ _ 5 (by decide) hready hready').1 (by decide)
  · obtain ⟨hready, hready'⟩ := ready_pair_emulator (i := .auipc 5 (highPart (-4)))
      (j := .regImm .addi 5 5 (lowPart (-4))) (fun _ => 0) rfl (by decide) (by decide)
    exact (rv32Cycle_constants emulatorHost _ (-4) 5 (by decide) hready hready').2.1 (by decide)
  · obtain ⟨hready, hready'⟩ := ready_pair_emulator (i := .auipc 5 (highPart 5))
      (j := .jalr 5 5 (lowPart 5)) (fun _ => 0) rfl (by decide) (by decide)
    exact (rv32Cycle_constants emulatorHost _ 5 5 (by decide) hready hready').2.2 (by decide)

end Rv32
