import Rv32.Core.Effect
import Rv32.Core.Emulator

/-!
# `Correctness.PreciseFault` — a fault leaves the machine at the faulting instruction

A cycle that stops with `RV32_INVALID_INSTRUCTION` or `RV32_INVALID_MEMORY_ACCESS` has changed nothing
but the status (and the slot of `x0`): the instruction can be inspected, emulated or restarted. Each of
the early returns of `rv32_cycle` has to come before the first write of its case, so the proof is the
list of exits `Exec`: the ones that write keep the status `RV32_RUNNING`.
-/

namespace Rv32

variable {σ : Type} {host : Host σ} {s t : RV32 σ}

/-- What a fault leaves as it was: everything the guest or the debugger can see except the status. The
    slot of `x0` may have been cleared. -/
structure PreciseFault (s t : RV32 σ) : Prop where
  pc : t.pc = s.pc
  r : ∀ i, i ≠ regZero → t.r i = s.r i
  zero : t.r regZero = s.r regZero ∨ t.r regZero = 0
  bytes : t.mem.bytes = s.mem.bytes
  mstatus : t.mstatus = s.mstatus
  mie : t.mie = s.mie
  mip : t.mip = s.mip
  mtvec : t.mtvec = s.mtvec
  mepc : t.mepc = s.mepc
  mcause : t.mcause = s.mcause
  wfi : t.wfi = s.wfi
  interruptController : t.interruptController = s.interruptController
  bpMask : t.bpMask = s.bpMask
  bp : t.bp = s.bp
  memSize : t.memSize = s.memSize

/-- The accesses of a store leave the status alone when the callbacks do. -/
theorem Host.MmioPure.status (hpure : host.MmioPure) :
    AccessRel host fun s t => t.status = s.status where
  refl _ := rfl
  touch _ _ _ _ _ := rfl
  mmio := hpure.mono fun _ _ ⟨_, heq⟩ => by rw [heq]
  trans h h' := h'.trans h
  bytes _ _ := rfl
  ie _ _ := rfl

theorem preciseFault_of_scratch (h : Scratch s t) (status : Rv32Status) :
    PreciseFault s { t with status := status } := by
  obtain ⟨touched, h', rfl⟩ := h
  constructor <;> first | rfl | exact fun _ _ => rfl | exact .inl rfl

/-- Clearing `x0` first does not matter to the fault that follows. -/
theorem PreciseFault.of_resetZero {u : RV32 σ} (hu : Scratch s u) (h : PreciseFault u.resetZero t) :
    PreciseFault s t := by
  obtain ⟨touched, h', rfl⟩ := hu
  refine { h with r := fun i hi => ?_, zero := ?_ }
  · exact (h.r i hi).trans (resetZero_r_of_ne _ hi)
  · exact .inr (h.zero.elim (fun hz => hz.trans (resetZero_r_zero _)) id)

/-- **The exits of an instruction.** From a running state, an exit with one of the two fault statuses
    wrote nothing. -/
theorem rv32Execute_fault (hpure : host.MmioPure) {instr : Word} (hrun : s.status = .running)
    (hecall : ¬ IsEcall instr)
    (hfault : (rv32Execute host s instr).status = .invalidInstruction ∨
      (rv32Execute host s instr).status = .invalidMemoryAccess) :
    PreciseFault s (rv32Execute host s instr) := by
  have hself : Scratch s s := hpure.scratch.refl s
  generalize ht : rv32Execute host s instr = t at hfault ⊢
  have hexec : Exec host s instr t := ht ▸ rv32Execute_exec s instr
  -- an exit that writes leaves the status running, and is no fault
  cases hexec with
  | invalid => exact preciseFault_of_scratch hself _
  | compute _ v pc => simp [RV32.retire, hrun] at hfault
  | load _ hacc =>
      obtain ⟨_, _, rfl⟩ := loadAccess_rel hpure.scratch hacc
      simp [RV32.retire, hrun] at hfault
  | loadFault _ hacc => exact preciseFault_of_scratch (loadAccess_rel hpure.scratch hacc) _
  | store _ hacc =>
      have hst := storeAccess_rel hpure.status hacc
      simp [hst, hrun] at hfault
  | storeFault _ hacc =>
      -- a store that fails has not reached the RAM
      exact preciseFault_of_scratch (storeAccess_err hpure.scratch.mmio hacc) _
  | branch pc => simp [hrun] at hfault
  | ecallStop h _ => exact absurd h hecall
  | ecallNext h => exact absurd h hecall
  | ebreak => simp at hfault
  | mret _ => simp [hrun] at hfault
  | wfi => simp [hrun] at hfault
  | csr _ _ =>
      obtain ⟨_, _, _, _, _, _, hw⟩ := rv32WriteCsr_frame s (immI instr) _
      rw [hw] at hfault
      simp [RV32.retire, hrun] at hfault

/-- **Precise faults.** When a cycle takes no trap, does not execute `ecall` and turns `RV32_RUNNING`
    into one of the two fault statuses, it leaves `pc` at the faulting instruction and every other field
    as it was, `x0` apart. -/
theorem rv32Cycle_fault_precise (host : Host σ) (hpure : host.MmioPure) (s : RV32 σ)
    (hrun : s.status = .running) (htrap : trapTaken s = none)
    (hecall : ∀ instr, (rv32Fetch host s).1 = some instr → ¬ IsEcall instr)
    (hfault : (rv32Cycle host s).status = .invalidInstruction ∨
      (rv32Cycle host s).status = .invalidMemoryAccess) :
    PreciseFault s (rv32Cycle host s) := by
  have hload := rv32Load32_rel hpure.scratch s s.pc
  unfold rv32Cycle rv32Fetch at *
  rw [cycleInterrupt_of_none htrap] at *
  generalize hp : fetchPhase host s = p at *
  have hfetched : Fetched host s p := hp ▸ fetchPhase_fetched s
  cases hfetched with
  | waiting _ => simp [hrun] at hfault
  | stopped _ hst => exact absurd hrun hst
  | breakpoint _ _ _ => simp at hfault
  | fault _ _ _ hl => rw [hl] at hload; exact preciseFault_of_scratch hload _
  | @word instr u _ _ _ hl =>
      rw [hl] at hload
      have hrunu : u.resetZero.status = .running := by
        obtain ⟨_, _, hu⟩ := id hload
        simp only at hu
        rw [hu]; exact hrun
      exact (rv32Execute_fault hpure hrunu (hecall instr rfl) hfault).of_resetZero hload

/-- The emulator on an undecodable word. -/
theorem rv32Cycle_fault_precise_emulator :
    PreciseFault (emulatorStart [0xffffffff]) (rv32Cycle emulatorHost (emulatorStart [0xffffffff])) := by
  have hfetch : (rv32Fetch emulatorHost (emulatorStart [0xffffffff])).1 = some 0xffffffff := by decide
  refine rv32Cycle_fault_precise emulatorHost emulatorHost_mmioPure _ rfl (by decide) ?_ (by decide)
  intro instr h
  obtain rfl := Option.some.inj (hfetch.symm.trans h)
  decide

end Rv32
