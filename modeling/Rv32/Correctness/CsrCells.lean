import Rv32.Isa.Refinement

/-!
# `Correctness.CsrCells` — CSR instructions are atomic read-modify-write

The CSRs are six independent cells under six of the 4096 numbers. `CsrInstr.step` says what a CSR
instruction does to a hart field by field; that the two `switch`es of `rv32_read_csr` and
`rv32_write_csr` agree on every number is `rv32ReadCsr_eq` and `rv32WriteCsr_eq`, and `cycles_csr` puts
them together over whole runs.
-/

namespace Rv32

open Isa

variable {σ : Type} {host : Host σ} {s : RV32 σ}

structure CsrInstr where
  op : CsrOp
  rd : BitVec 5
  src : BitVec 5
  csr : BitVec 12

namespace CsrInstr

def instr (i : CsrInstr) : Instr := .zicsr i.op i.rd i.src i.csr

/-- `rd` gets the old cell and the cell the new value; the source is read before both. A number without a
    cell reads as 0 and no cell changes. -/
def step (h : Hart) (i : CsrInstr) : Hart where
  x j := if j = 0 then 0 else if j = i.rd then h.readCsr i.csr else h.x j
  pc := h.pc + 4
  csr c := if c.number = i.csr then i.op.eval (h.csr c) (h.csrSource i.op i.src) else h.csr c
  x_zero := if_pos rfl

/-- The meaning of the ISA changes one cell, the one with the number. -/
theorem writeCsr_csr (h : Hart) (csr : BitVec 12) (f : Word → Word) (c : Cell) :
    (h.writeCsr csr (f (h.readCsr csr))).csr c = if c.number = csr then f (h.csr c) else h.csr c := by
  unfold Hart.writeCsr Hart.readCsr
  cases hcell : Cell.ofNumber csr with
  | none =>
      rw [if_neg (Cell.number_ne_of_ofNumber hcell c).symm]
  | some d =>
      obtain rfl := Cell.number_of_ofNumber hcell
      by_cases hcd : c = d
      · subst hcd
        rw [if_pos rfl]
        exact Function.update_self _ _ _
      · have hnumber : c.number ≠ d.number := by
          intro heq
          have hsome := Cell.ofNumber_number c
          rw [heq, Cell.ofNumber_number] at hsome
          exact hcd (Option.some.inj hsome).symm
        rw [if_neg hnumber]
        exact Function.update_of_ne hcd _ _

theorem exec_instr (h : Hart) (i : CsrInstr) : i.instr.exec h = some (i.step h) := by
  refine congrArg some (Hart.ext ?_ rfl ?_)
  · funext j
    rw [Hart.retire_x, Hart.writeCsr_x]
    rfl
  · funext c
    exact writeCsr_csr h i.csr (fun old => i.op.eval old (h.csrSource i.op i.src)) c

theorem foldlM_exec (h : Hart) (is : List CsrInstr) :
    (is.map instr).foldlM Instr.exec h = some (is.foldl step h) := by
  induction is generalizing h with
  | nil => rfl
  | cons i is ih =>
      rw [List.map_cons, List.foldlM_cons, exec_instr, List.foldl_cons]
      exact ih (i.step h)

end CsrInstr

/-- **CSR instructions are atomic read-modify-write.** A run of them is the run over the cells, and
    reaches nothing but the hart. -/
theorem cycles_csr (host : Host σ) (s : RV32 σ) (is : List CsrInstr)
    (h : Runs host s (is.map CsrInstr.instr)) :
    hart (cycles host s (is.map CsrInstr.instr)) = is.foldl CsrInstr.step (hart s) ∧
      SameOutside s (cycles host s (is.map CsrInstr.instr)) := by
  have hdev : Lts.AllSteps (fun s _ => rv32Cycle host s) (fun s i => ¬ Deviates (hart s) i) s
      (is.map CsrInstr.instr) := by
    apply Lts.AllSteps.of_labels
    intro i hi t
    obtain ⟨j, -, rfl⟩ := List.mem_map.mp hi
    exact id
  exact run_refines h hdev (CsrInstr.foldlM_exec (hart s) is)

/-- `csrrw x5, mie, x5` with `0xF0` in `x5`, then `csrrsi x6, mie, 1`. -/
def enableTwice : List CsrInstr := [⟨.csrrw, 5, 5, 0x304⟩, ⟨.csrrsi, 6, 1, 0x304⟩]

/-- The emulator, about to run them. -/
def enableStart : RV32 (List Output) := operandPair 0xF0 0 (enableTwice.map fun i => i.instr.encode)

/-- The emulator runs them as the cells do. -/
theorem cycles_csr_emulator :
    hart (cycles emulatorHost enableStart (enableTwice.map CsrInstr.instr)) =
      enableTwice.foldl CsrInstr.step (hart enableStart) := by
  obtain ⟨hready, hready'⟩ := ready_pair_emulator (i := .zicsr .csrrw 5 5 0x304)
    (j := .zicsr .csrrsi 6 1 0x304) enableStart.r rfl (by decide) (by decide)
  exact (cycles_csr emulatorHost enableStart enableTwice
    (runs_pair hready hready' (by decide) fun _ => ⟨_, rfl, rfl⟩)).1

/-- The first leaves the old `mie` in `x5`, the second finds what the first wrote. -/
example : (enableTwice.foldl CsrInstr.step (hart enableStart)).x 5 = 0 ∧
    (enableTwice.foldl CsrInstr.step (hart enableStart)).x 6 = 0xF0 ∧
    (enableTwice.foldl CsrInstr.step (hart enableStart)).csr .mie = 0xF1 := by decide

end Rv32
