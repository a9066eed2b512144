import Rv32.Core.Effect
import Rv32.Core.Emulator

/-!
# `Correctness.ZeroHidden` — no instruction sees what was written to `x0`

Slot 0 of `r` is an ordinary slot, which most instructions with `rd = 0` write. Two machines that differ
in it only are run side by side: `rv32_cycle` clears the slot between the fetch and the `switch`, so
that from there on the two are one and the same, and on every path that returns before the clearing
nothing reads the slot. A device that answers a fetch is the one thing that could (`Host.HidesZero`).
-/

namespace Rv32

variable {σ : Type} {host : Host σ} {s t : RV32 σ}

/-- The two machines differ at most in slot 0 of `r`. -/
def EqUpToZero (s t : RV32 σ) : Prop := ∃ v, t = { s with r := Function.update s.r regZero v }

/-- The callback behind a fetch neither looks at slot 0 of `r` nor lets it into anything else. -/
def Host.HidesZero (host : Host σ) : Prop :=
  ∀ s t addr, EqUpToZero s t →
    (host.mmioLoad32 t addr).1 = (host.mmioLoad32 s addr).1 ∧
      EqUpToZero (host.mmioLoad32 s addr).2 (host.mmioLoad32 t addr).2

theorem EqUpToZero.refl (s : RV32 σ) : EqUpToZero s s := ⟨s.r regZero, by simp⟩

/-- Clearing the slot makes them equal. -/
theorem EqUpToZero.resetZero_eq (h : EqUpToZero s t) : t.resetZero = s.resetZero := by
  obtain ⟨v, rfl⟩ := h
  simp [RV32.resetZero]

/-! ## Above the clearing -/

/-- The claim loop does not look at the registers. -/
theorem rv32ClaimIrq_r (s : RV32 σ) (f : Fin 32 → Word) :
    rv32ClaimIrq { s with r := f } =
      ((rv32ClaimIrq s).1, { (rv32ClaimIrq s).2 with r := f }) := by
  simp only [rv32ClaimIrq]
  split
  · generalize List.find? _ _ = found
    cases found with
    | none => rfl
    | some i => rfl
  · rfl

/-- The trap entry does not look at the registers. -/
theorem rv32HandleInterrupt_r (s : RV32 σ) (f : Fin 32 → Word) :
    rv32HandleInterrupt { s with r := f } = { rv32HandleInterrupt s with r := f } := by
  rw [rv32HandleInterrupt_eq, rv32HandleInterrupt_eq]
  have htaken : trapTaken { s with r := f } = trapTaken s := by
    unfold trapTaken
    rw [rv32ClaimIrq_r]
  rw [htaken]
  cases trapTaken s with
  | none => rfl
  | some src =>
      cases src with
      | software => rfl
      | timer => rfl
      | external irq => simp only [TrapSource.claim, rv32ClaimIrq_r]; rfl

theorem EqUpToZero.handled (h : EqUpToZero s t) :
    EqUpToZero (rv32HandleInterrupt s) (rv32HandleInterrupt t) := by
  obtain ⟨v, rfl⟩ := h
  obtain ⟨_, _, _, _, _, _, _, hframe⟩ := rv32HandleInterrupt_frame s
  refine ⟨v, ?_⟩
  rw [rv32HandleInterrupt_r, hframe]

/-- The fetch answers the same word to both. -/
theorem EqUpToZero.load (hhides : host.HidesZero) (h : EqUpToZero s t) (addr : Word) :
    (rv32Load32 host t addr).1 = (rv32Load32 host s addr).1 ∧
      EqUpToZero (rv32Load32 host s addr).2 (rv32Load32 host t addr).2 := by
  have hmmio := hhides s t addr h
  obtain ⟨v, rfl⟩ := h
  unfold rv32Load32 rv32LoadOr
  split
  · exact ⟨rfl, v, rfl⟩
  · split
    · exact ⟨rfl, v, rfl⟩
    · exact hmmio

/-- Where the first machine reaches the `switch`, the second reaches it with the same word, and they have
    become equal. Otherwise the second does not reach it either. -/
theorem EqUpToZero.fetchPhase (hhides : host.HidesZero) (h : EqUpToZero s t) :
    (∃ instr u, fetchPhase host s = (some instr, u) ∧ fetchPhase host t = (some instr, u)) ∨
      ((fetchPhase host s).1 = none ∧ (fetchPhase host t).1 = none ∧
        EqUpToZero (fetchPhase host s).2 (fetchPhase host t).2) := by
  obtain ⟨hword, hloaded⟩ := h.load hhides s.pc
  have hpc : t.pc = s.pc := by obtain ⟨v, rfl⟩ := h; rfl
  have hwfi : t.wfi = s.wfi := by obtain ⟨v, rfl⟩ := h; rfl
  have hstatus : t.status = s.status := by obtain ⟨v, rfl⟩ := h; rfl
  have hbp : breakpointHit t ↔ breakpointHit s := by obtain ⟨v, rfl⟩ := h; exact Iff.rfl
  -- the tests in front of the load come out the same, and return the machines as they are
  simp only [Rv32.fetchPhase, hwfi, hstatus, hbp, hpc]
  split
  · exact .inr ⟨rfl, rfl, h⟩
  split
  · exact .inr ⟨rfl, rfl, h⟩
  split
  · obtain ⟨v, rfl⟩ := h
    exact .inr ⟨rfl, rfl, v, rfl⟩
  rcases hs : rv32Load32 host s s.pc with ⟨_ | instr, s'⟩
  · rcases ht : rv32Load32 host t s.pc with ⟨word, t'⟩
    rw [hs, ht] at hword hloaded
    obtain rfl := hword
    obtain ⟨v, rfl⟩ := hloaded
    exact .inr ⟨rfl, rfl, v, rfl⟩
  · rcases ht : rv32Load32 host t s.pc with ⟨word, t'⟩
    rw [hs, ht] at hword hloaded
    obtain rfl := hword
    -- past the load the slot is cleared in both
    refine .inl ⟨instr, s'.resetZero, rfl, ?_⟩
    rw [← hloaded.resetZero_eq]

/-- The same, with the trap entry in front. -/
theorem EqUpToZero.rv32Fetch (hhides : host.HidesZero) (h : EqUpToZero s t) :
    (∃ instr u, rv32Fetch host s = (some instr, u) ∧ rv32Fetch host t = (some instr, u)) ∨
      ((rv32Fetch host s).1 = none ∧ (rv32Fetch host t).1 = none ∧
        EqUpToZero (rv32Fetch host s).2 (rv32Fetch host t).2) := by
  simp only [Rv32.rv32Fetch, cycleInterrupt_eq]
  exact h.handled.fetchPhase hhides

/-! ## Calls -/

theorem EqUpToZero.rv32Cycle (hhides : host.HidesZero) (h : EqUpToZero s t) :
    EqUpToZero (rv32Cycle host s) (rv32Cycle host t) := by
  rcases h.rv32Fetch hhides with ⟨instr, u, hs, ht⟩ | ⟨hs, ht, hrest⟩
  · rw [rv32Cycle_of_fetch host hs, rv32Cycle_of_fetch host ht]
    exact .refl _
  · rw [rv32Cycle_of_no_fetch host hs, rv32Cycle_of_no_fetch host ht]
    exact hrest

/-- **One call.** -/
theorem EqUpToZero.step (hhides : host.HidesZero) (h : EqUpToZero s t) (a : Action) :
    EqUpToZero (step host s a) (step host t a) := by
  cases a with
  | cycle => exact h.rv32Cycle hhides
  | resume =>
      obtain ⟨v, rfl⟩ := h
      simp only [Rv32.step, rv32Resume]
      split <;> exact ⟨v, rfl⟩
  | trigger irq =>
      obtain ⟨v, rfl⟩ := h
      simp only [Rv32.step, rv32TriggerExternalInterrupt]
      split <;> exact ⟨v, rfl⟩
  | setBreakpoint addr =>
      obtain ⟨v, rfl⟩ := h
      have hen : ∀ i, bpEnabled { s with r := Function.update s.r regZero v } i ↔ bpEnabled s i :=
        fun i => Iff.rfl
      simp only [Rv32.step, rv32SetBreakpoint, hen]
      generalize List.find? _ _ = found
      cases found <;> exact ⟨v, rfl⟩
  | clearBreakpoint addr =>
      obtain ⟨v, rfl⟩ := h
      have hen : ∀ i, bpEnabled { s with r := Function.update s.r regZero v } i ↔ bpEnabled s i :=
        fun i => Iff.rfl
      simp only [Rv32.step, rv32ClearBreakpoint, hen]
      generalize List.find? _ _ = found
      cases found <;> exact ⟨v, rfl⟩
  | clearAllBreakpoints =>
      obtain ⟨v, rfl⟩ := h
      exact ⟨v, rfl⟩

/-- **A run.** -/
theorem EqUpToZero.run (hhides : host.HidesZero) (h : EqUpToZero s t) (as : List Action) :
    EqUpToZero (runActions host s as) (runActions host t as) :=
  Lts.run_related (fun _ _ a hst => hst.step hhides a) h

/-- **`x0` is non-interfering.** Two machines that differ in slot 0 of `r` only still do so after any
    run of calls, and whenever one of them then executes an instruction, so does the other: the same
    word in the same state, in which `x0` is zero. -/
theorem x0_noninterference (host : Host σ) (hhides : host.HidesZero) (s t : RV32 σ)
    (h : EqUpToZero s t) (as : List Action) :
    EqUpToZero (runActions host s as) (runActions host t as) ∧
      ∀ instr u, rv32Fetch host (runActions host s as) = (some instr, u) →
        rv32Fetch host (runActions host t as) = (some instr, u) ∧ u.r regZero = 0 := by
  have hrun := h.run hhides as
  refine ⟨hrun, fun instr u hs => ?_⟩
  obtain ⟨-, v, -, hu⟩ := rv32Fetch_some hs
  have hzero : u.r regZero = 0 := by rw [hu, resetZero_r_zero]
  refine ⟨?_, hzero⟩
  rcases hrun.rv32Fetch hhides with ⟨instr', u', hs', ht'⟩ | ⟨hnone, -, -⟩
  · rw [ht', ← hs', hs]
  · rw [hs] at hnone; cases hnone

theorem emulatorHost_hidesZero : emulatorHost.HidesZero := fun _ _ _ h => ⟨rfl, h⟩

/-- The emulator on `jal x0, 4; addi x1, x0, 1`, with 0 and with 5 in the slot. -/
theorem x0_noninterference_emulator :
    EqUpToZero (runActions emulatorHost (emulatorStart [0x0040006f, 0x00100093]) [.cycle, .cycle])
      (runActions emulatorHost
        { emulatorStart [0x0040006f, 0x00100093] with r := Function.update (fun _ => 0) regZero 5 }
        [.cycle, .cycle]) :=
  (x0_noninterference emulatorHost emulatorHost_hidesZero _ _ ⟨5, rfl⟩ [.cycle, .cycle]).1

end Rv32
