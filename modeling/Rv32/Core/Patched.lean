import Rv32.Core.Screen

/-!
# `Core.Patched` — a cycle on two machines that differ where it does not look

Two machines may differ in a region of the RAM and in the breakpoint table: `Patched D d` says that the second
is the first with the bytes of `d` in `D`. It is a screen, and one that `mret`, the Zicsr instructions and the
trap entry cannot look behind either (`Oblivious`).
-/

namespace Rv32

variable {σ : Type} {host : Host σ} {D : Set Nat} {d : ByteMem.Mem} {s t : RV32 σ}

/-- The second machine is the first with another breakpoint table, and the bytes of `d` in the region `D`. -/
structure Patched (D : Set Nat) (d : ByteMem.Mem) (s t : RV32 σ) : Prop where
  rest : ∃ bpMask bp mem, t = { s with bpMask, bp, mem }
  outside : ∀ i ∉ D, t.mem.bytes i = s.mem.bytes i
  inside : ∀ i ∈ D, t.mem.bytes i = d i

/-! ## What does not look -/

/-- The function looks neither at the RAM nor at the breakpoint table. -/
def Oblivious (f : RV32 σ → RV32 σ) : Prop :=
  ∀ s bpMask bp mem, f { s with bpMask, bp, mem } = { f s with bpMask, bp, mem }

theorem Oblivious.mem {f : RV32 σ → RV32 σ} (hf : Oblivious f) (s : RV32 σ) : (f s).mem = s.mem := by
  have hmem := congrArg RV32.mem (hf s s.bpMask s.bp s.mem)
  exact hmem

/-- What is blind is blind to these. -/
theorem Blind.oblivious {f : RV32 σ → RV32 σ} (hf : Blind f) : Oblivious f := by
  intro s bpMask bp mem
  refine (hf s { s.hidden with bpMask, bp, mem }).trans ?_
  rw [← hf.hidden s]
  rfl

/-- **What does not look is carried over.** -/
theorem Patched.map {f : RV32 σ → RV32 σ} (h : Patched D d s t) (hf : Oblivious f) :
    Patched D d (f s) (f t) where
  rest := by
    obtain ⟨bpMask, bp, mem, rfl⟩ := h.rest
    exact ⟨bpMask, bp, mem, hf s bpMask bp mem⟩
  outside i hi := by
    rw [hf.mem, hf.mem]
    exact h.outside i hi
  inside i hi := by
    rw [hf.mem]
    exact h.inside i hi

/-- Trap entry looks at the status no more than at these. -/
theorem rv32HandleInterrupt_outer (s : RV32 σ) (status : Rv32Status) (bpMask : BitVec 8) (bp : Fin 8 → Word)
    (mem : Ram) :
    rv32HandleInterrupt { s with status, bpMask, bp, mem } =
      { rv32HandleInterrupt s with status, bpMask, bp, mem } := by
  have hclaim : rv32ClaimIrq { s with status, bpMask, bp, mem } =
      ((rv32ClaimIrq s).1, { (rv32ClaimIrq s).2 with status, bpMask, bp, mem }) := by
    simp only [rv32ClaimIrq]
    split
    · generalize List.find? _ _ = found
      cases found with
      | none => rfl
      | some i => rfl
    · rfl
  have htaken : trapTaken { s with status, bpMask, bp, mem } = trapTaken s := by
    unfold trapTaken
    rw [hclaim]
  rw [rv32HandleInterrupt_eq, rv32HandleInterrupt_eq, htaken]
  cases trapTaken s with
  | none => rfl
  | some src =>
      cases src with
      | software => rfl
      | timer => rfl
      | external irq => simp only [TrapSource.claim, hclaim]; rfl

theorem oblivious_handleInterrupt : Oblivious (rv32HandleInterrupt : RV32 σ → RV32 σ) := by
  intro s bpMask bp mem
  have houter := rv32HandleInterrupt_outer s s.status bpMask bp mem
  nth_rewrite 2 [← rv32HandleInterrupt_status s] at houter
  exact houter

theorem oblivious_execCsr (instr : Word) : Oblivious fun s : RV32 σ => execCsr s instr := by
  intro s bpMask bp mem
  have hread : rv32ReadCsr { s with bpMask, bp, mem } (immI instr) = rv32ReadCsr s (immI instr) := rfl
  have hwrite (v : Word) : rv32WriteCsr { s with bpMask, bp, mem } (immI instr) v =
      { rv32WriteCsr s (immI instr) v with bpMask, bp, mem } := by
    unfold rv32WriteCsr
    split <;> rfl
  simp only [execCsr, hread, hwrite]
  split <;> rfl

theorem rv32Execute_of_isCsr {instr : Word} (h : IsCsr instr) (s : RV32 σ) :
    rv32Execute host s instr = execCsr s instr := by
  have hf3 : funct3 instr ≠ 0 := fun h0 => h.2 (by rw [h0]; rfl)
  simp only [rv32Execute, h.1, execSystem, if_neg hf3, if_pos h.2]

/-! ## The screen -/

theorem patched_screen : Screen D (Patched D d : RV32 σ → RV32 σ → Prop) where
  sees h := by
    obtain ⟨bpMask, bp, mem, rfl⟩ := h.rest
    exact ⟨{ RV32.hidden _ with bpMask, bp, mem }, rfl⟩
  outside h := h.outside
  map h hf := h.map hf.oblivious
  wait h := h.map (f := fun s => { s with wfi := 1 }) fun _ _ _ _ => rfl
  touch addr n h := by
    obtain ⟨bpMask, bp, mem, rfl⟩ := h.rest
    exact ⟨⟨bpMask, bp, _, rfl⟩, h.outside, h.inside⟩
  write addr n v h hnotin := by
    obtain ⟨bpMask, bp, mem, rfl⟩ := h.rest
    refine ⟨⟨bpMask, bp, _, rfl⟩, fun i hi => ?_, fun i hi => ?_⟩
    · simp only [ByteMem.write_apply]
      split
      · rfl
      · exact h.outside i hi
    · simp only [ByteMem.write_apply]
      rw [if_neg fun hin => hnotin i hin hi]
      exact h.inside i hi

/-- A privileged instruction looks at neither. -/
theorem Patched.privileged (h : Patched D d s t) {instr : Word} (hpriv : Privileged instr) :
    Patched D d (rv32Execute host s instr) (rv32Execute host t instr) := by
  rcases hpriv with hmret | hcsr
  · rw [rv32Execute_mret hmret, rv32Execute_mret hmret]
    exact h.map (f := fun s => { s with
      pc := s.mepc
      mstatus := csrSetBit s.mstatus csrMstatusMie (csrGetBit s.mstatus csrMstatusMpie) }) fun _ _ _ _ => rfl
  · rw [rv32Execute_of_isCsr hcsr, rv32Execute_of_isCsr hcsr]
    exact h.map (oblivious_execCsr instr)

theorem emulatorHost_respects : emulatorHost.Respects (Patched D d) :=
  patched_screen.emulatorHost fun _ _ o h => h.map (f := fun s => { s with host := s.host ++ [o] }) fun _ _ _ _ => rfl

end Rv32
