import Rv32.Core.Effect
import Rv32.Core.Emulator
import Rv32.Isa.Format

/-!
# `Correctness.EvenPc` — which ways of changing `pc` keep bit 0 clear

Sequential flow adds 4, branches and `jal` add an offset that ends in a zero bit, `jalr` masks its target,
and trap entry masks the base of a vector table and takes an unvectored base only when its mode bits are
clear. `mret` copies `mepc`, which a guest writes as it likes. So `pc` stays even exactly as long as each
`mret` finds an even address there.
-/

namespace Rv32

variable {σ : Type} {host : Host σ}

/-- Bit 0 of an address is 0. -/
def EvenAddr (a : Word) : Prop := a.getLsbD 0 = false

instance (a : Word) : Decidable (EvenAddr a) := inferInstanceAs (Decidable (_ = _))

/-- An even `pc` stays even. -/
def KeepsEvenPc (s t : RV32 σ) : Prop := EvenAddr s.pc → EvenAddr t.pc

/-- The functions of the embedding program leave an even `pc` even. -/
def Host.KeepsEvenPc (host : Host σ) : Prop := host.Within Rv32.KeepsEvenPc

/-- If the call executes `mret`, it finds an even address in `mepc`. -/
def MretEven (host : Host σ) (s : RV32 σ) (a : Action) : Prop :=
  a = .cycle → ∀ instr u, rv32Fetch host s = (some instr, u) → IsMret instr → EvenAddr u.mepc

/-! ## Addresses -/

theorem EvenAddr.add {a b : Word} (ha : EvenAddr a) (hb : EvenAddr b) : EvenAddr (a + b) := by
  rw [EvenAddr, Bits.getLsbD_zero_add, ha, hb, Bool.xor_false]

theorem EvenAddr.next {a : Word} (ha : EvenAddr a) : EvenAddr (a + 4) := ha.add (by decide)

/-- Sign extension does not reach bit 0. -/
theorem EvenAddr.sext {a : Word} (ha : EvenAddr a) {n : Nat} (hn : 0 < n) : EvenAddr (sext a n) := by
  unfold Rv32.sext
  split
  · rw [EvenAddr, BitVec.getLsbD_or, ha, BitVec.getLsbD_shiftLeft]
    simp [hn]
  · exact ha

/-- An immediate that ends in a zero bit. -/
theorem evenAddr_immediate {n : Nat} (x : BitVec n) : EvenAddr ((x ++ 0#1).setWidth 32) := by
  rw [EvenAddr, BitVec.getLsbD_setWidth, BitVec.getLsbD_append]
  simp

theorem evenAddr_sextImmB (instr : Word) : EvenAddr (sextImmB instr) := by
  rw [sextImmB, Isa.immB_eq]
  exact (evenAddr_immediate _).sext (by decide)

theorem evenAddr_sextImmJ (instr : Word) : EvenAddr (sextImmJ instr) := by
  rw [sextImmJ, Isa.immJ_eq]
  exact (evenAddr_immediate _).sext (by decide)

/-- A mask without bit 0. -/
theorem evenAddr_masked (a : Word) {mask : Word} (hmask : mask.getLsbD 0 = false) :
    EvenAddr (a &&& mask) := by
  rw [EvenAddr, BitVec.getLsbD_and, hmask, Bool.and_false]

theorem evenAddr_four_mul (a : Word) : EvenAddr (4 * a) := by
  rw [EvenAddr, show 4 * a = 2 * a + 2 * a by bv_omega, Bits.getLsbD_zero_add, Bool.xor_self]

/-! ## Trap entry -/

/-- **Trap entry.** -/
theorem evenAddr_trapEntry (s : RV32 σ) : EvenAddr (trapEntry s).pc := by
  show EvenAddr (if s.mtvec &&& 1 ≠ 0 then _ else s.mtvec)
  split
  · -- vectored: a masked base, and four bytes a cause
    exact (evenAddr_masked _ (by decide)).add (evenAddr_four_mul _)
  · -- direct: the mode bit of `mtvec` is bit 0
    rename_i hmode
    exact Bool.eq_false_of_not_eq_true fun hbit => hmode ((Bits.and_mask_ne_zero s.mtvec 0).mpr hbit)

theorem rv32HandleInterrupt_evenPc (s : RV32 σ) : KeepsEvenPc s (rv32HandleInterrupt s) := by
  intro h
  rw [rv32HandleInterrupt_eq]
  cases trapTaken s with
  | none => exact h
  | some src => exact evenAddr_trapEntry _

/-! ## One instruction -/

theorem Host.KeepsEvenPc.accessRel (hkeep : host.KeepsEvenPc) : AccessRel host Rv32.KeepsEvenPc where
  refl _ h := h
  touch _ _ _ _ _ h := h
  mmio := hkeep.toMmioRel
  trans h h' hs := h' (h hs)
  bytes _ _ h := h
  ie _ _ h := h

/-- The part of the cycle above the `switch`. -/
theorem rv32Fetch_evenPc (hkeep : host.KeepsEvenPc) (s : RV32 σ) :
    KeepsEvenPc s (rv32Fetch host s).2 := by
  intro h
  have hentry : EvenAddr (cycleInterrupt s).pc := cycleInterrupt_eq s ▸ rv32HandleInterrupt_evenPc s h
  have hload := rv32Load32_rel hkeep.accessRel.toLoadRel (cycleInterrupt s) (cycleInterrupt s).pc hentry
  rw [rv32Fetch]
  generalize hp : fetchPhase host (cycleInterrupt s) = p
  have hfetched : Fetched host (cycleInterrupt s) p := hp ▸ fetchPhase_fetched _
  cases hfetched with
  | waiting _ => exact hentry
  | stopped _ _ => exact hentry
  | breakpoint _ _ _ => exact hentry
  | fault _ _ _ hl => rw [hl] at hload; exact hload
  | word _ _ _ hl => rw [hl] at hload; exact hload

/-- **Every instruction but `mret`.** -/
theorem rv32Execute_evenPc (hkeep : host.KeepsEvenPc) (s : RV32 σ) {instr : Word}
    (hmret : ¬ IsMret instr) : KeepsEvenPc s (rv32Execute host s instr) := by
  intro h
  unfold rv32Execute
  split
  case _ =>       -- OP
    unfold execOp
    split
    · exact h.next
    · exact h
  case _ =>       -- OP-IMM
    unfold execOpImm
    split
    · exact h.next
    · exact h
  case _ =>       -- loads
    unfold execLoad
    split
    · rename_i t hacc
      have ht : EvenAddr t.pc := loadAccess_rel hkeep.accessRel.toLoadRel hacc h
      exact ht.next
    · rename_i t hacc
      have ht : EvenAddr t.pc := loadAccess_rel hkeep.accessRel.toLoadRel hacc h
      exact ht
    · exact h
  case _ =>       -- stores
    unfold execStore
    split
    · rename_i t hacc
      have ht : EvenAddr t.pc := storeAccess_rel hkeep.accessRel hacc h
      exact ht.next
    · rename_i t hacc
      have ht : EvenAddr t.pc := storeAccess_rel hkeep.accessRel hacc h
      exact ht
    · exact h
  case _ =>       -- branches
    unfold execBranch
    split
    · exact h.add (evenAddr_sextImmB instr)
    · exact h.next
    · exact h
  case _ => exact h.add (evenAddr_sextImmJ instr)
  case _ => exact evenAddr_masked _ (by decide)
  case _ => exact h.next
  case _ => exact h.next
  case _ hop =>   -- SYSTEM
    unfold execSystem
    split
    case _ hf =>
      split
      case _ =>
        have hcall := hkeep.ecall s h
        by_cases hst : (host.ecall s).status ≠ .running
        · rw [if_pos hst]; exact hcall
        · rw [if_neg hst]; exact hcall.next
      case _ => exact h.next
      case _ himm => exact absurd ⟨hop, hf, himm⟩ hmret
      case _ => exact h.next
      case _ => exact h
    case _ =>
      split
      case _ =>
        unfold execCsr
        simp only
        split
        · rename_i wVal _
          obtain ⟨_, _, _, _, _, _, hframe⟩ := rv32WriteCsr_frame s (immI instr) wVal
          rw [hframe]
          exact h.next
        · exact h
      case _ => exact h
  case _ => exact h

/-- **One cycle**, exactly when. -/
theorem rv32Cycle_evenPc_iff (hkeep : host.KeepsEvenPc) {s : RV32 σ} (h : EvenAddr s.pc) :
    EvenAddr (rv32Cycle host s).pc ↔ MretEven host s .cycle := by
  have hfetch := rv32Fetch_evenPc hkeep s h
  unfold rv32Cycle MretEven
  generalize rv32Fetch host s = p at hfetch ⊢
  obtain ⟨_ | instr, u⟩ := p
  · refine iff_of_true hfetch ?_
    rintro - instr u heq
    cases heq
  · by_cases hmret : IsMret instr
    · -- `mret` takes its address from `mepc`
      have hpc : (rv32Execute host u instr).pc = u.mepc := by rw [rv32Execute_mret hmret]
      constructor
      · rintro heven - _ _ ⟨⟩ -
        rwa [← hpc]
      · intro heven
        show EvenAddr (rv32Execute host u instr).pc
        rw [hpc]
        exact heven rfl instr u rfl hmret
    · refine iff_of_true (rv32Execute_evenPc hkeep u hmret hfetch) ?_
      rintro - _ _ ⟨⟩ h'
      exact absurd h' hmret

/-- **One call.** -/
theorem step_evenPc_iff (hkeep : host.KeepsEvenPc) (s : RV32 σ) (a : Action) (h : EvenAddr s.pc) :
    EvenAddr (step host s a).pc ↔ MretEven host s a := by
  rcases step_cases host s a with rfl | ⟨irq, rfl⟩ | ⟨hcontrol, _, _, _, hstep⟩
  · exact rv32Cycle_evenPc_iff hkeep h
  · obtain ⟨_, _, hframe⟩ := rv32TriggerExternalInterrupt_frame s irq
    rw [step, hframe]
    refine iff_of_true h ?_
    rintro ⟨⟩
  · rw [hstep]
    exact iff_of_true h fun hcycle => absurd hcycle hcontrol.ne_cycle

/-- **The program counter stays even**, exactly as long as every `mret` finds an even address in
    `mepc`. -/
theorem evenPc_iff (host : Host σ) (hkeep : host.KeepsEvenPc) (memory : RV32 σ) (memSize : Word)
    (image : ByteMem.Mem) (as : List Action) :
    Lts.AllStates (step host) (fun s => EvenAddr s.pc) (boot memory memSize image) as ↔
      Lts.AllSteps (step host) (MretEven host) (boot memory memSize image) as := by
  have hstart : EvenAddr (boot memory memSize image).pc := by
    show EvenAddr 0
    decide
  exact Lts.allStates_iff_allSteps (fun s a h => step_evenPc_iff hkeep s a h) hstart

/-- The emulator's callbacks do not write `pc`. -/
theorem emulatorHost_keepsEvenPc : emulatorHost.KeepsEvenPc :=
  emulatorHost_within fun _ _ _ h => h

/-- The emulator executes `addi x1, x0, 1` with `pc` even before and after. -/
theorem evenPc_iff_emulator :
    Lts.AllStates (step emulatorHost) (fun s => EvenAddr s.pc)
      (boot zeroStorage 0x100 (imageOf [0x00100093])) [.resume, .cycle] := by
  have h := evenPc_iff emulatorHost emulatorHost_keepsEvenPc zeroStorage 0x100
    (imageOf [0x00100093]) [.resume, .cycle]
  refine h.mpr ⟨?_, ?_, trivial⟩
  · intro hcycle
    cases hcycle
  · intro _ instr u hfetch hmret
    have hword : (rv32Fetch emulatorHost (step emulatorHost
        (boot zeroStorage 0x100 (imageOf [0x00100093])) .resume)).1 = some 0x00100093 := by decide
    rw [hfetch] at hword
    obtain rfl := Option.some.inj hword
    exact absurd hmret (by decide)

/-- `csrrwi x0, mepc, 1` and `mret` leave 1 in `pc`. -/
theorem mret_odd_pc :
    (runActions emulatorHost (boot zeroStorage 0x100 (imageOf [0x3410d073, 0x30200073]))
      [.resume, .cycle, .cycle]).pc = 1 ∧
    ¬ Lts.AllStates (step emulatorHost) (fun s => EvenAddr s.pc)
      (boot zeroStorage 0x100 (imageOf [0x3410d073, 0x30200073])) [.resume, .cycle, .cycle] := by
  have hpc : (runActions emulatorHost (boot zeroStorage 0x100 (imageOf [0x3410d073, 0x30200073]))
      [.resume, .cycle, .cycle]).pc = 1 := by decide
  refine ⟨hpc, fun h => ?_⟩
  have hlast : EvenAddr _ := h.last
  rw [hpc] at hlast
  exact absurd hlast (by decide)

end Rv32
