import Rv32.Core.Effect

/-!
# `Core.Writeback` — what an instruction writes to `rd`

`rdWritten` is the value a word makes the `switch` assign to `rv32->r[RD]`, as a function of the state it
is executed in, and `none` on the paths that assign no register. `rv32Execute_r` says that this one
assignment is all that happens to a register.
-/

namespace Rv32

variable {σ : Type} (host : Host σ)

/-- What the `switch` entered with `instr` assigns to `rv32->r[RD]`, if it gets to an assignment. -/
def rdWritten (s : RV32 σ) (instr : Word) : Option Word :=
  match opcode instr with
  | 0x33#8 => opResult (funct7 instr) (funct3 instr) (s.r (rs1 instr)) (s.r (rs2 instr))
  | 0x13#8 => opImmResult instr (s.r (rs1 instr))
  | 0x03#8 => (loadAccess host s instr).bind Prod.fst
  | 0x6f#8 => some (s.pc + 4)                              -- jal
  | 0x67#8 => some (s.pc + 4)                              -- jalr
  | 0x37#8 => some (sextImmU instr <<< 12)                 -- lui
  | 0x17#8 => some (s.pc + (sextImmU instr <<< 12))        -- auipc
  | 0x73#8 =>
      if IsCsr instr then (csrWritten s instr).map fun _ => rv32ReadCsr s (immI instr) else none
  | _ => none

variable {host} {i : Fin 32}

/-- The relation of functions that leave register `i` alone. -/
def SameReg (i : Fin 32) (s t : RV32 σ) : Prop := t.r i = s.r i

theorem retire_r (s : RV32 σ) (rd : Fin 32) (v pc : Word) :
    (s.retire rd v pc).r i = if i = rd then v else s.r i := Function.update_apply _ _ _ _

theorem sameReg_accessRel (hkeep : host.MmioRel (SameReg i)) : AccessRel host (SameReg i) where
  refl _ := rfl
  trans h h' := h'.trans h
  touch _ _ _ _ _ := rfl
  mmio := hkeep
  bytes _ _ := rfl
  ie _ _ := rfl

theorem execSystem_r (hkeep : host.Within (SameReg i)) (s : RV32 σ) {instr : Word}
    (hop : opcode instr = 0x73#8) (h : ¬ IsCsr instr) : (execSystem host s instr).r i = s.r i := by
  unfold execSystem
  split
  · split
    · -- `ecall` is the one exit on which foreign code has run
      dsimp only
      split
      · exact hkeep.ecall s
      · exact hkeep.ecall s
    · rfl
    · rfl
    · rfl
    · rfl
  · rw [if_neg fun hf => h ⟨hop, hf⟩]; rfl

/-- **The register write is the only one.** -/
theorem rv32Execute_r (hkeep : host.Within (SameReg i)) (s : RV32 σ) (instr : Word) :
    (rv32Execute host s instr).r i =
      if i = rd instr then (rdWritten host s instr).getD (s.r i) else s.r i := by
  have hacc := sameReg_accessRel hkeep.toMmioRel
  -- on a path that assigns no register the right-hand side is `s.r i`
  have hquiet {t : RV32 σ} (hnone : rdWritten host s instr = none) (ht : t.r i = s.r i) :
      t.r i = if i = rd instr then (rdWritten host s instr).getD (s.r i) else s.r i := by
    rw [hnone, Option.getD_none, ite_self, ht]
  have hwrite {t : RV32 σ} {v pc : Word} (hsome : rdWritten host s instr = some v)
      (ht : t.r i = s.r i) : (t.retire (rd instr) v pc).r i =
        if i = rd instr then (rdWritten host s instr).getD (s.r i) else s.r i := by
    rw [hsome, Option.getD_some, retire_r, ht]
  unfold rv32Execute
  split
  case _ hop =>   -- OP
    unfold execOp
    split
    · rename_i v hv; exact hwrite (by rw [rdWritten, hop]; exact hv) rfl
    · rename_i hv; exact hquiet (by rw [rdWritten, hop]; exact hv) rfl
  case _ hop =>   -- OP-IMM
    unfold execOpImm
    split
    · rename_i v hv; exact hwrite (by rw [rdWritten, hop]; exact hv) rfl
    · rename_i hv; exact hquiet (by rw [rdWritten, hop]; exact hv) rfl
  case _ hop =>   -- loads
    have hw : rdWritten host s instr = (loadAccess host s instr).bind Prod.fst := by
      rw [rdWritten, hop]; rfl
    unfold execLoad
    split
    · rename_i v t hv; exact hwrite (by rw [hw, hv]; rfl) (loadAccess_rel hacc.toLoadRel hv)
    · rename_i t hv
      exact hquiet (t := t.accessFault) (by rw [hw, hv]; rfl) (loadAccess_rel hacc.toLoadRel hv :)
    · rename_i hv; exact hquiet (by rw [hw, hv]; rfl) rfl
  case _ hop =>   -- stores
    have hw : rdWritten host s instr = none := by rw [rdWritten, hop]; rfl
    unfold execStore
    split
    · rename_i t hv; exact hquiet hw (storeAccess_rel hacc hv :)
    · rename_i t hv; exact hquiet hw (storeAccess_rel hacc hv :)
    · exact hquiet hw rfl
  case _ hop =>   -- branches
    have hw : rdWritten host s instr = none := by rw [rdWritten, hop]; rfl
    unfold execBranch
    split
    · exact hquiet hw rfl
    · exact hquiet hw rfl
    · exact hquiet hw rfl
  case _ hop => exact hwrite (by rw [rdWritten, hop]; rfl) rfl
  case _ hop => exact hwrite (by rw [rdWritten, hop]; rfl) rfl
  case _ hop => exact hwrite (by rw [rdWritten, hop]; rfl) rfl
  case _ hop => exact hwrite (by rw [rdWritten, hop]; rfl) rfl
  case _ hop =>   -- SYSTEM
    have hw : rdWritten host s instr = if IsCsr instr then
        (csrWritten s instr).map fun _ => rv32ReadCsr s (immI instr) else none := by
      rw [rdWritten, hop]; rfl
    by_cases hcsr : IsCsr instr
    · rw [if_pos hcsr] at hw
      -- the old value goes to `rd` after the CSR is written
      have hf3 : funct3 instr ≠ 0 := fun h0 => hcsr.2 (by rw [h0]; rfl)
      rw [execSystem, if_neg hf3, if_pos hcsr.2]
      unfold execCsr
      cases hv : csrWritten s instr with
      | some wVal =>
          obtain ⟨_, _, _, _, _, _, hframe⟩ := rv32WriteCsr_frame s (immI instr) wVal
          rw [hv] at hw
          simp only [csrWritten] at hv
          simp only [hv]
          exact hwrite hw (by rw [hframe])
      | none =>
          rw [hv] at hw
          simp only [csrWritten] at hv
          simp only [hv]
          exact hquiet hw rfl
    · rw [if_neg hcsr] at hw
      exact hquiet hw (execSystem_r hkeep s hop hcsr)
  case _ =>
    refine hquiet ?_ rfl
    unfold rdWritten
    split <;> first | contradiction | rfl

end Rv32
