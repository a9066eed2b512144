import Rv32.Core.Effect

/-!
# `Core.Pending` — what a call does to the two words of pending interrupts

A pending external interrupt is recorded twice: as a bit of `interrupt_controller.ip`, and in the bit
MEIP of `mip` that stands for all of them. Three things write them: the trigger, the claim at trap entry,
and a guest CSR instruction on `mip`. `rv32Cycle_pending` gives both words after a cycle in terms of the
last two.
-/

namespace Rv32

variable {σ : Type} (host : Host σ)

/-- The value the cycle from `s` writes to `mip`, if the instruction it executes is a Zicsr instruction
    on `mip`. -/
def mipWritten (s : RV32 σ) : Option Word :=
  match rv32Fetch host s with
  | (none, _)       => none
  | (some instr, u) => if IsCsr instr ∧ immI instr = 0x344#32 then csrWritten u instr else none

/-- The functions of the embedding program do not touch `ip` and `mip`. -/
def Host.KeepsPending : Prop :=
  host.Within fun s t => t.interruptController.ip = s.interruptController.ip ∧ t.mip = s.mip

variable {host}

theorem Host.KeepsPending.stepRel (hkeep : host.KeepsPending) :
    StepRel host fun s t =>
      t.interruptController.ip = s.interruptController.ip ∧ t.mip = s.mip where
  refl _ := ⟨rfl, rfl⟩
  touch _ _ _ _ _ := ⟨rfl, rfl⟩
  mmio := hkeep.toMmioRel
  trans h h' := ⟨h'.1.trans h.1, h'.2.trans h.2⟩
  bytes _ _ := ⟨rfl, rfl⟩
  ie _ _ := ⟨rfl, rfl⟩
  core _ _ _ _ _ := ⟨rfl, rfl⟩

/-- An instruction leaves both words alone, but for a CSR write to `mip`. -/
theorem rv32Execute_pending (hkeep : host.KeepsPending) (s : RV32 σ) (instr : Word) :
    (rv32Execute host s instr).interruptController.ip = s.interruptController.ip ∧
      (rv32Execute host s instr).mip =
        (if IsCsr instr ∧ immI instr = 0x344#32 then csrWritten s instr else none).getD s.mip := by
  by_cases hcsr : ∃ wVal, IsCsr instr ∧ csrWritten s instr = some wVal
  · obtain ⟨wVal, hcsr, hw⟩ := hcsr
    obtain ⟨_, _, _, _, _, _, hframe⟩ := rv32WriteCsr_frame s (immI instr) wVal
    rw [rv32Execute_csr hcsr hw, hw]
    refine ⟨by rw [hframe]; rfl, (rv32WriteCsr_mip s (immI instr) wVal).trans ?_⟩
    by_cases himm : immI instr = 0x344#32
    · rw [if_pos himm, if_pos ⟨hcsr, himm⟩]; rfl
    · rw [if_neg himm, if_neg fun h => himm h.2]; rfl
  · have hquiet := rv32Execute_rel hkeep.stepRel s instr (fun _ => hkeep.ecall s)
      (fun _ => ⟨rfl, rfl⟩) fun wVal h hw => absurd ⟨wVal, h, hw⟩ hcsr
    refine ⟨hquiet.1, hquiet.2.trans ?_⟩
    split
    · rename_i h
      cases hw : csrWritten s instr with
      | none => rfl
      | some wVal => exact absurd ⟨wVal, h.1, hw⟩ hcsr
    · rfl

/-- **A cycle.** `ip` is what the trap entry left, and so is `mip` unless the instruction wrote it. -/
theorem rv32Cycle_pending (hkeep : host.KeepsPending) (s : RV32 σ) :
    (rv32Cycle host s).interruptController.ip = (rv32HandleInterrupt s).interruptController.ip ∧
      (rv32Cycle host s).mip = (mipWritten host s).getD (rv32HandleInterrupt s).mip := by
  -- between the trap entry and the `switch` neither word changes
  have hfetch := rv32Fetch_rel hkeep.stepRel s
  unfold rv32Cycle mipWritten
  generalize rv32Fetch host s = p at *
  obtain ⟨_ | instr, u⟩ := p
  · exact hfetch
  · have hexec := rv32Execute_pending hkeep u instr
    exact ⟨hexec.1.trans hfetch.1, by rw [hexec.2, hfetch.2]⟩

/-- **A trigger** adds its bit and MEIP, if its irq is below the bound. -/
theorem rv32TriggerExternalInterrupt_pending (s : RV32 σ) (irq : Word) (i : Nat) :
    (rv32TriggerExternalInterrupt s irq).interruptController.ip.getLsbD i =
        (s.interruptController.ip.getLsbD i || decide (irq.toNat < 4 ∧ i = irq.toNat)) ∧
      (rv32TriggerExternalInterrupt s irq).mip.getLsbD csrMipMeip =
        (s.mip.getLsbD csrMipMeip || decide (irq.toNat < 4)) := by
  unfold rv32TriggerExternalInterrupt
  by_cases h : 4 ≤ irq.toNat
  · rw [if_pos h]
    simp [Nat.not_lt.mpr h]
  · rw [if_neg h]
    have hlt : irq.toNat < 4 := Nat.not_le.mp h
    have h32 : irq.toNat < 32 := by omega
    refine ⟨?_, ?_⟩
    · simp only [Bits.getLsbD_set, h32, hlt, decide_true, Bool.true_and, true_and]
    · rw [getLsbD_csrSetBit _ (by decide), if_pos rfl]
      simp [hlt]

/-- **What a call does to `ip`.** It does nothing to it, or is an accepted trigger, or a cycle that takes
    the trap of the lowest pending irq. -/
theorem step_ip (hkeep : host.KeepsPending) (s : RV32 σ) (a : Action) :
    ((a = .cycle → ∀ irq, ¬ TakesTrap host s (.external irq)) ∧
      (∀ irq, a = .trigger irq → 4 ≤ irq.toNat) ∧
      (step host s a).interruptController.ip = s.interruptController.ip) ∨
    (∃ irq, a = .trigger irq ∧ irq.toNat < 4 ∧
      ∀ i, (step host s a).interruptController.ip.getLsbD i =
        (s.interruptController.ip.getLsbD i || decide (i = irq.toNat))) ∨
    (∃ irq : Fin 32, a = .cycle ∧ TakesTrap host s (.external irq) ∧
      Bits.IsLowest s.interruptController.ip irq.val ∧
      ∀ i, (step host s a).interruptController.ip.getLsbD i =
        (s.interruptController.ip.getLsbD i && !decide (i = irq.val))) := by
  rcases step_cases host s a with rfl | ⟨irq, rfl⟩ | ⟨hcontrol, _, _, _, hstep⟩
  · -- a cycle leaves `ip` as the trap entry did
    have hip : (step host s .cycle).interruptController.ip =
        (rv32HandleInterrupt s).interruptController.ip := (rv32Cycle_pending hkeep s).1
    rw [hip]
    by_cases hext : ∃ irq, trapTaken s = some (.external irq)
    · obtain ⟨irq, htaken⟩ := hext
      obtain ⟨hset, hle, hclear, -⟩ := rv32HandleInterrupt_external htaken
      exact .inr (.inr ⟨irq, rfl, (takesTrap_iff host).mpr htaken, ⟨hset, hle⟩, hclear⟩)
    · have hnone (irq : Fin 32) : trapTaken s ≠ some (.external irq) := fun h => hext ⟨irq, h⟩
      refine .inl ⟨?_, ?_, (rv32HandleInterrupt_internal hnone).1⟩
      · intro _ irq h
        exact hnone irq ((takesTrap_iff host).mp h)
      · rintro irq ⟨⟩
  · -- a trigger: accepted or dropped
    by_cases h : irq.toNat < 4
    · refine .inr (.inl ⟨irq, rfl, h, fun i => ?_⟩)
      rw [step, (rv32TriggerExternalInterrupt_pending s irq i).1]
      simp [h]
    · refine .inl ⟨?_, ?_, ?_⟩
      · rintro ⟨⟩
      · rintro irq' ⟨⟩
        exact Nat.not_lt.mp h
      · rw [step, rv32TriggerExternalInterrupt, if_pos (Nat.not_lt.mp h)]
  · refine .inl ⟨fun h => absurd h hcontrol.ne_cycle, ?_, ?_⟩
    · rintro irq rfl
      exact hcontrol.elim
    · rw [hstep]

end Rv32
