import Rv32.Core.Patched
import Rv32.Correctness.Breakpoints
import Rv32.Correctness.StrayAccess

/-!
# `Correctness.Footprint` — a run depends on the RAM it touches, and on no more

The record of dereferences is the footprint of a run. `run_footprint` is the frame rule: in a region that a
run stays out of, the bytes may be exchanged for any others, before the run or after it. A program in the RAM
is thus undisturbed by whatever else is there, and disturbs nothing but what it touches.
-/

namespace Rv32

variable {σ : Type} {host : Host σ} {D : Set Nat} {d : ByteMem.Mem} {s t : RV32 σ}

theorem Dereferences.records (h : Dereferences s t) : Records s t := by
  obtain ⟨-, new, htouched, -⟩ := h
  exact ⟨new, htouched⟩

/-- **The cycle behind its interrupt test**, on two machines behind a screen, when neither `wfi` nor the
    breakpoints tell them apart, and a privileged instruction does not either. -/
theorem Screen.cycleTail {R : RV32 σ → RV32 σ → Prop} (hR : Screen D R) (hhost : host.Respects R)
    (hkeep : host.KeepsRam) (h : R s t) (hwfi : t.wfi = s.wfi) (hbp : breakpointHit t ↔ breakpointHit s)
    (hspares : Spares D s (cycleTail host s))
    (hpriv : ∀ instr u u', (Rv32.fetchPhase host s).1 = some instr → Privileged instr → R u u' →
      R (rv32Execute host u instr) (rv32Execute host u' instr)) :
    R (cycleTail host s) (cycleTail host t) := by
  have hfetched := (fetchPhase_rel (dereferences_stepRel hkeep) s).records
  have hsame := hR.fetchPhase hhost h hwfi hbp
  unfold Rv32.cycleTail at hspares ⊢
  rcases hp : Rv32.fetchPhase host s with ⟨_ | instr, u⟩
  · rcases hq : Rv32.fetchPhase host t with ⟨word, u'⟩
    rw [hp] at hspares
    rw [hp, hq] at hsame
    obtain ⟨hword, hrel⟩ := hsame hspares
    obtain rfl : word = none := hword
    exact hrel
  · rcases hq : Rv32.fetchPhase host t with ⟨word, u'⟩
    rw [hp] at hspares hfetched hpriv
    obtain ⟨hfirst, hsecond⟩ := hspares.split hfetched (rv32Execute_dereferences hkeep u instr).records
    rw [hp, hq] at hsame
    obtain ⟨hword, hrel⟩ := hsame hfirst
    obtain rfl : word = some instr := hword
    by_cases hinstr : Privileged instr
    · exact hpriv instr u u' rfl hinstr hrel
    · exact hR.execute hhost hrel hinstr hsecond

/-- **A cycle** that spares the region, when the breakpoint tables do not differ where it fetches. -/
theorem Patched.cycle (hhost : host.Respects (Patched D d)) (hkeep : host.KeepsRam) (h : Patched D d s t)
    (hbp : breakpointHit (rv32HandleInterrupt t) ↔ breakpointHit (rv32HandleInterrupt s))
    (hspares : Spares D s (rv32Cycle host s)) : Patched D d (rv32Cycle host s) (rv32Cycle host t) := by
  have hhandled := h.map oblivious_handleInterrupt
  have hwfi : (rv32HandleInterrupt t).wfi = (rv32HandleInterrupt s).wfi := by
    obtain ⟨_, _, _, hrest⟩ := hhandled.rest
    rw [hrest]
  have hspares' : Spares D (rv32HandleInterrupt s) (rv32Cycle host s) := by
    rw [Spares, oblivious_handleInterrupt.mem]
    exact hspares
  rw [rv32Cycle_eq_cycleTail] at hspares' ⊢
  rw [rv32Cycle_eq_cycleTail]
  exact patched_screen.cycleTail hhost hkeep hhandled hwfi hbp hspares' fun _ _ _ _ hpriv h => h.privileged hpriv

/-- With the same breakpoint table, what does not look at the RAM is carried over too. -/
theorem Patched.map_of_sameTable {f : RV32 σ → RV32 σ} (h : Patched D d s t) (htable : SameTable s t)
    (hf : ∀ (s : RV32 σ) mem, f { s with mem } = { f s with mem }) :
    Patched D d (f s) (f t) ∧ SameTable (f s) (f t) := by
  obtain ⟨bpMask, bp, mem, rfl⟩ := h.rest
  obtain ⟨rfl, rfl⟩ : bpMask = s.bpMask ∧ bp = s.bp := htable
  have hmem : (f s).mem = s.mem := by
    have hmem := congrArg RV32.mem (hf s s.mem)
    exact hmem
  rw [show f { s with mem } = { f s with mem } from hf s mem]
  refine ⟨⟨⟨_, _, mem, rfl⟩, fun i hi => ?_, h.inside⟩, rfl, rfl⟩
  rw [hmem]
  exact h.outside i hi

theorem Patched.breakpointHit_iff (h : Patched D d s t) (htable : SameTable s t) :
    breakpointHit t ↔ breakpointHit s := by
  obtain ⟨bpMask, bp, mem, rfl⟩ := h.rest
  obtain ⟨rfl, rfl⟩ : bpMask = s.bpMask ∧ bp = s.bp := htable
  exact Iff.rfl

/-- Neither machine changes its table. -/
theorem SameTable.congr {s' t' : RV32 σ} (h : SameTable s t) (hs : SameTable s s') (ht : SameTable t t') :
    SameTable s' t' := ⟨ht.1.trans (h.1.trans hs.1.symm), ht.2.trans (h.2.trans hs.2.symm)⟩

/-- No call but a cycle looks at the RAM. -/
theorem step_mem (host : Host σ) {a : Action} (ha : a ≠ .cycle) (s : RV32 σ) (mem : Ram) :
    step host { s with mem } a = { step host s a with mem } := by
  have hen : ∀ i, bpEnabled { s with mem } i ↔ bpEnabled s i := fun i => Iff.rfl
  cases a with
  | cycle => exact absurd rfl ha
  | resume =>
      simp only [step, rv32Resume]
      split <;> rfl
  | trigger irq =>
      simp only [step, rv32TriggerExternalInterrupt]
      split <;> rfl
  | setBreakpoint addr =>
      simp only [step, rv32SetBreakpoint, hen]
      generalize List.find? _ _ = found
      cases found <;> rfl
  | clearBreakpoint addr =>
      simp only [step, rv32ClearBreakpoint, hen]
      generalize List.find? _ _ = found
      cases found <;> rfl
  | clearAllBreakpoints => rfl

/-- **One call.** -/
theorem Patched.step (hhost : host.Respects (Patched D d)) (hkeep : host.KeepsRam)
    (hbps : host.KeepsBreakpoints) (h : Patched D d s t) (htable : SameTable s t) (a : Action)
    (hspares : Spares D s (step host s a)) :
    Patched D d (step host s a) (step host t a) ∧ SameTable (step host s a) (step host t a) := by
  by_cases ha : a = .cycle
  · subst ha
    have htrap : SameTable (rv32HandleInterrupt s) (rv32HandleInterrupt t) :=
      htable.congr (rv32HandleInterrupt_sameTable s) (rv32HandleInterrupt_sameTable t)
    have hbp := (h.map oblivious_handleInterrupt).breakpointHit_iff htrap
    exact ⟨h.cycle hhost hkeep hbp hspares,
      htable.congr (rv32Cycle_sameTable hbps s) (rv32Cycle_sameTable hbps t)⟩
  · exact h.map_of_sameTable htable (f := fun s => Rv32.step host s a) (step_mem host ha)

/-- **The frame rule.** A run that does not dereference `rv32->mem` in a region does the same whatever bytes are
    there, and leaves them there. -/
theorem run_footprint (host : Host σ) (hhost : host.Respects (Patched D d)) (hkeep : host.KeepsRam)
    (hbps : host.KeepsBreakpoints) (s t : RV32 σ) (h : Patched D d s t) (htable : SameTable s t)
    (as : List Action) (hspares : Spares D s (runActions host s as)) :
    Patched D d (runActions host s as) (runActions host t as) ∧
      SameTable (runActions host s as) (runActions host t as) := by
  induction as generalizing s t with
  | nil => exact ⟨h, htable⟩
  | cons a as ih =>
      obtain ⟨hfirst, hrest⟩ := hspares.split (step_dereferences hkeep s a).records
        (run_dereferences hkeep _ as).records
      obtain ⟨hstep, htable'⟩ := h.step hhost hkeep hbps htable a hfirst
      exact ih _ _ hstep htable' hrest

/-- `addi x1, x0, 0x55` and `sb x1, 0x100(x0)`, with other bytes in the upper RAM. -/
def storeProgram (upper : Byte) : RV32 (List Output) :=
  let s := emulatorStart [0x05500093, 0x10100023]
  { s with mem.bytes := fun i => if 0x1000 ≤ i then upper else s.mem.bytes i }

/-- The program does not touch the upper RAM. -/
theorem run_footprint_storeProgram :
    Patched {i | 0x1000 ≤ i} (fun _ => 0xff)
      (runActions emulatorHost (storeProgram 0) [.cycle, .trigger 1, .cycle])
      (runActions emulatorHost (storeProgram 0xff) [.cycle, .trigger 1, .cycle]) := by
  have hpatched : Patched {i | 0x1000 ≤ i} (fun _ => 0xff) (storeProgram 0) (storeProgram 0xff) :=
    { rest := ⟨_, _, _, rfl⟩
      outside := fun i hi => (if_neg hi).trans (if_neg hi).symm
      inside := fun i hi => if_pos hi }
  have htouched : (runActions emulatorHost (storeProgram 0) [.cycle, .trigger 1, .cycle]).mem.touched =
      [0x100, 4, 5, 6, 7, 0, 1, 2, 3] := by decide +kernel
  exact (run_footprint emulatorHost emulatorHost_respects emulatorHost_keepsRam
    (emulatorHost_within fun _ _ _ => ⟨rfl, rfl⟩) _ _ hpatched ⟨rfl, rfl⟩ _
    ⟨[0x100, 4, 5, 6, 7, 0, 1, 2, 3], htouched, by decide⟩).1

end Rv32
