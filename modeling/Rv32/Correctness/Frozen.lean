import Rv32.Core.Emulator

/-!
# `Correctness.Frozen` — when a stopped machine stays as it is

`rv32_cycle` returns early when the status is not `RV32_RUNNING`, but tests for interrupts first: a
stopped machine that is interruptible enters the trap, and its `pc`, `mepc`, `mcause` and `mstatus` are
gone. That is the only way a stopped machine moves.
-/

namespace Rv32

variable {σ : Type}

/-- **A stopped machine is frozen, exactly when** no interrupt can be taken: then no number of cycles
    changes anything, and otherwise the first one does. -/
theorem frozen_iff (host : Host σ) (s : RV32 σ) (hst : s.status ≠ .running) :
    (∀ n, runActions host s (List.replicate n .cycle) = s) ↔ ¬ Interruptible s := by
  rw [← trapTaken_ne_none_iff, not_not]
  constructor
  · intro hfrozen
    have hone : rv32HandleInterrupt s = s := (rv32Cycle_of_stopped host hst).symm.trans (hfrozen 1)
    exact rv32HandleInterrupt_eq_self_iff.mp hone
  · intro hnone n
    have hcycle : rv32Cycle host s = s := by
      rw [rv32Cycle_of_stopped host hst, rv32HandleInterrupt_of_none hnone]
    -- every further cycle starts from the same state
    apply Lts.run_of_fixed
    intro a ha
    rw [List.eq_of_mem_replicate ha]
    exact hcycle

/-- The emulator, halted with no interrupt enabled. -/
theorem frozen_iff_emulator :
    runActions emulatorHost { emulatorStart [] with status := .halted } (List.replicate 5 .cycle) =
      { emulatorStart [] with status := .halted } :=
  (frozen_iff emulatorHost { emulatorStart [] with status := .halted } (by decide)).mpr
    (fun h => absurd h.1 (by decide)) 5

/-- The emulator, halted at `0x40` with a software interrupt enabled and pending. -/
def haltedInterruptible : RV32 (List Output) :=
  { emulatorStart [] with status := .halted, mstatus := 0x8, mie := 0x8, mip := 0x8, pc := 0x40 }

/-- One cycle takes it to the trap vector. -/
theorem halted_takes_trap :
    haltedInterruptible.status ≠ .running ∧
      ¬ ∀ n, runActions emulatorHost haltedInterruptible (List.replicate n .cycle) =
        haltedInterruptible := by
  refine ⟨by decide, fun h => ?_⟩
  have hpc := congrArg RV32.pc (h 1)
  exact absurd hpc (by decide)

end Rv32
