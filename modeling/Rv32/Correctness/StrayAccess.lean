import Rv32.Core.Access
import Rv32.Core.Effect
import Rv32.Core.Emulator

/-!
# `Correctness.StrayAccess` — when `rv32->mem` is only dereferenced inside the RAM

The bounds test of a helper computes `mem_size - sizeof(type)` in `size_t`. As long as the RAM holds a
word this is exact, and no run of any program leaves the RAM; below that it wraps, and already the first
fetch of every program does. Both halves are equivalences (`noStrayAccess_iff`), so four bytes is
precisely what `rv32_new` would have to check.
-/

namespace Rv32

open Access

variable {σ : Type} {host : Host σ}

/-- The call dereferences `rv32->mem` at its address. -/
def TakesRam (host : Host σ) (s : RV32 σ) (a : Access) : Prop :=
  (a.exec host s).mem.touched = List.range' a.addr.toNat a.width ++ s.mem.touched

/-- The helpers take their RAM branch exactly for the accesses that lie in a RAM of `memSize` bytes. -/
def RamBranchExact (host : Host σ) (memSize : Word) : Prop :=
  ∀ s : RV32 σ, s.memSize = memSize → ∀ a : Access,
    TakesRam host s a ↔ a.addr.toNat + a.width ≤ memSize.toNat

/-- No run from `s` dereferences `rv32->mem` outside the RAM of `s`. -/
def RunsInBounds (host : Host σ) (s : RV32 σ) : Prop :=
  ∀ as, ∀ i ∈ (runActions host s as).mem.touched, i < s.memSize.toNat

/-- The functions of the embedding program do not resize the RAM, and they are not the emulator
    dereferencing `rv32->mem`. -/
def Host.KeepsRam (host : Host σ) : Prop :=
  host.Within fun s t => t.memSize = s.memSize ∧ t.mem.touched = s.mem.touched

/-! ## The bounds test -/

/-- A helper takes its RAM branch exactly when its bounds test succeeds. -/
theorem takesRam_iff (hkeep : host.KeepsRam) (s : RV32 σ) (a : Access) :
    TakesRam host s a ↔ ramGuard host s.memSize a.width a.addr := by
  have hout : (a.outside host s).mem.touched = s.mem.touched :=
    (outside_rel hkeep.toMmioRel (fun _ => ⟨rfl, rfl⟩) (fun _ _ => ⟨rfl, rfl⟩) s a).2
  rw [TakesRam, exec_eq]
  split
  · rename_i hg
    refine iff_of_true ?_ hg
    unfold inside
    split <;> rfl
  · rename_i hg
    refine iff_of_false (fun h => ?_) hg
    have hlen := congrArg List.length (hout.symm.trans h)
    have hpos := a.width_pos
    simp only [List.length_append, List.length_range'] at hlen
    omega

theorem ramBranchExact_iff (hkeep : host.KeepsRam) (s : RV32 σ) :
    RamBranchExact host s.memSize ↔ 4 ≤ s.memSize.toNat := by
  constructor
  · intro h
    -- address 0 passes the test whatever the size
    have h0 := (h s rfl (.load32 0)).mp ((takesRam_iff hkeep s _).mpr ramGuard_zero)
    simpa [addr, width] using h0
  · intro hsize t ht a
    have hfits : a.width ≤ t.memSize.toNat := Nat.le_trans a.width_le (ht ▸ hsize)
    rw [takesRam_iff hkeep, ramGuard_iff a.width_pos hfits, ht]

/-! ## Runs -/

/-- What a step may do to the record of dereferences: extend it, inside the RAM when that holds a word. -/
def Dereferences (s t : RV32 σ) : Prop :=
  t.memSize = s.memSize ∧ ∃ new, t.mem.touched = new ++ s.mem.touched ∧
    (4 ≤ s.memSize.toNat → ∀ i ∈ new, i < s.memSize.toNat)

theorem Dereferences.of_eq {s t : RV32 σ} (hsize : t.memSize = s.memSize)
    (h : t.mem.touched = s.mem.touched) : Dereferences s t := ⟨hsize, [], h, fun _ _ hi => by cases hi⟩

theorem dereferences_stepRel (hkeep : host.KeepsRam) : StepRel host Dereferences where
  refl _ := .of_eq rfl rfl
  touch s addr n hn hg := by
    refine ⟨rfl, _, rfl, fun hsize i hi => ?_⟩
    obtain ⟨k, hk, rfl⟩ := List.mem_range'.mp hi
    have hin := (ramGuard_iff (by omega) (by omega) addr).mp hg
    omega
  mmio := hkeep.toMmioRel.mono fun _ _ h => .of_eq h.1 h.2
  trans := by
    rintro s t u ⟨hst, new, ht, hnew⟩ ⟨htu, new', hu, hnew'⟩
    refine ⟨htu.trans hst, new' ++ new, by rw [hu, ht, List.append_assoc], fun hsize i hi => ?_⟩
    rcases List.mem_append.mp hi with h | h
    · exact hst ▸ hnew' (hst.symm ▸ hsize) i h
    · exact hnew hsize i h
  bytes _ _ := .of_eq rfl rfl
  ie _ _ := .of_eq rfl rfl
  core _ _ _ _ _ := .of_eq rfl rfl

theorem rv32Execute_dereferences (hkeep : host.KeepsRam) (s : RV32 σ) (instr : Word) :
    Dereferences s (rv32Execute host s instr) := by
  refine rv32Execute_rel (dereferences_stepRel hkeep) s instr ?_ ?_ ?_
  · exact fun _ => .of_eq (hkeep.ecall s).1 (hkeep.ecall s).2
  · exact fun _ => .of_eq rfl rfl
  · intro wVal _ _
    obtain ⟨_, _, _, _, _, _, hw⟩ := rv32WriteCsr_frame s (immI instr) wVal
    rw [hw]; exact .of_eq rfl rfl

/-- **One call.** -/
theorem step_dereferences (hkeep : host.KeepsRam) (s : RV32 σ) (a : Action) :
    Dereferences s (step host s a) := by
  rcases step_cases host s a with rfl | ⟨irq, rfl⟩ | ⟨-, _, _, _, hcontrol⟩
  · refine rv32Cycle_rel (dereferences_stepRel hkeep) ?_ ?_
    · obtain ⟨_, _, _, _, _, _, _, hframe⟩ := rv32HandleInterrupt_frame s
      rw [hframe]
      exact .of_eq rfl rfl
    · intro instr u _
      exact rv32Execute_dereferences hkeep u instr
  · obtain ⟨_, _, hframe⟩ := rv32TriggerExternalInterrupt_frame s irq
    rw [step, hframe]
    exact .of_eq rfl rfl
  · rw [hcontrol]
    exact .of_eq rfl rfl

/-- **A run.** -/
theorem run_dereferences (hkeep : host.KeepsRam) (s : RV32 σ) (as : List Action) :
    Dereferences s (runActions host s as) :=
  have hR := dereferences_stepRel hkeep
  Lts.run_rel hR.refl hR.trans (step_dereferences hkeep) s as

/-- A fetch at address 0 dereferences four bytes, whatever the size of the RAM. -/
theorem rv32Cycle_touched_zero (hkeep : host.KeepsRam) {s : RV32 σ} (hready : Ready s) (hpc : s.pc = 0)
    {i : Nat} (hi : i < 4) : i ∈ (rv32Cycle host s).mem.touched := by
  have hfetch : rv32Fetch host s =
      (some (ByteMem.read s.mem.bytes 0 4), (s.touch 0 4).resetZero) :=
    hready.fetch host (by rw [hpc, rv32Load32_zero])
  obtain ⟨-, new, htouched, -⟩ := rv32Execute_dereferences hkeep (s.touch 0 4).resetZero
    (ByteMem.read s.mem.bytes 0 4)
  rw [rv32Cycle_of_fetch host hfetch, htouched]
  refine List.mem_append_right _ (List.mem_append_left _ ?_)
  exact List.mem_range'.mpr ⟨i, hi, by simp⟩

theorem ready_resume_boot (memory : RV32 σ) (memSize : Word) (image : ByteMem.Mem) :
    Ready (rv32Resume (boot memory memSize image)) where
  wfi := rfl
  running := rfl
  noBreakpoint h := h.1 rfl
  noTrap := trapTaken_of_mie (by simp [rv32Resume, boot, loadProgram, rv32New, csrGetBit])

theorem runsInBounds_iff (hkeep : host.KeepsRam) (memory : RV32 σ) (memSize : Word)
    (image : ByteMem.Mem) :
    RunsInBounds host (boot memory memSize image) ↔ 4 ≤ memSize.toNat := by
  constructor
  · intro h
    -- below four bytes, already the first fetch reads past the end
    by_contra hlt
    have htouched := rv32Cycle_touched_zero hkeep (ready_resume_boot memory memSize image) rfl
      (Nat.not_le.mp hlt)
    exact Nat.lt_irrefl _ (h [.resume, .cycle] memSize.toNat htouched)
  · intro hsize as i hi
    obtain ⟨-, new, htouched, hnew⟩ := run_dereferences hkeep (boot memory memSize image) as
    rw [htouched] at hi
    exact hnew hsize i (by simpa [boot, loadProgram, rv32New] using hi)

/-! ## The RAM that `rv32_new` would have to ask for -/

/-- **No stray access, exactly.** For every `mem_size` given to `rv32_new`: the helpers take their RAM
    branch for the accesses inside the RAM and no others if and only if it is at least 4, and no run
    dereferences `rv32->mem` outside the RAM if and only if it is at least 4. -/
theorem noStrayAccess_iff (host : Host σ) (hkeep : host.KeepsRam) (memory : RV32 σ) (memSize : Word)
    (image : ByteMem.Mem) :
    (RamBranchExact host memSize ↔ 4 ≤ memSize.toNat) ∧
      (RunsInBounds host (boot memory memSize image) ↔ 4 ≤ memSize.toNat) :=
  ⟨ramBranchExact_iff hkeep (boot memory memSize image), runsInBounds_iff hkeep memory memSize image⟩

theorem emulatorHost_keepsRam : emulatorHost.KeepsRam := emulatorHost_within fun _ _ _ => ⟨rfl, rfl⟩

/-- The emulator with the RAM it is built with. -/
theorem noStrayAccess_iff_emulator :
    RamBranchExact emulatorHost 0x20000004 ∧
      RunsInBounds emulatorHost (boot zeroStorage 0x20000004 (imageOf [])) :=
  have h := noStrayAccess_iff emulatorHost emulatorHost_keepsRam zeroStorage 0x20000004 (imageOf [])
  ⟨h.1.mpr (by decide), h.2.mpr (by decide)⟩

/-- With a RAM of three bytes the word at address 0 passes for RAM, and the first fetch reads byte 3. -/
theorem strayAccess_three_bytes :
    ¬ (RamBranchExact emulatorHost 3 ∧
      RunsInBounds emulatorHost (boot zeroStorage 3 (imageOf []))) := by
  rintro ⟨-, hrun⟩
  have h3 := hrun [.resume, .cycle] 3 (by decide)
  exact absurd h3 (by decide)

end Rv32
