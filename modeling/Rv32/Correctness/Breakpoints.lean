import Rv32.Core.Effect
import Rv32.Core.Emulator
import Rv32.Lib.Slots

/-!
# `Correctness.Breakpoints` — breakpoints are never run through

The eight slots and their mask are a `Slots` table, and `enabledBps` is what it stores. The two calls that
search the table add and remove one address (`rv32SetBreakpoint_cases`, `rv32ClearBreakpoint_cases`),
nothing else touches it, so a run keeps it balanced with the ledger of the successful calls. The scan in
`rv32_cycle` asks for membership of `pc`, and it comes after the trap entry.
-/

namespace Rv32

variable {σ : Type} {host : Host σ} {s t : RV32 σ}

/-- The addresses in the enabled entries of the table. -/
def enabledBps (s : RV32 σ) : Multiset Word := Slots.contents (bpEnabled s) s.bp

/-- What a search of the table enters into the ledger: nothing when it answers 0. -/
def bpEntry (e : Slots.Event Word) : Bool → List (Slots.Event Word)
  | true  => [e]
  | false => []

/-- What a call enters into the ledger. -/
def bpEvents (s : RV32 σ) : Action → List (Slots.Event Word)
  | .setBreakpoint addr   => bpEntry (.add addr) (rv32SetBreakpoint s addr).1
  | .clearBreakpoint addr => bpEntry (.remove addr) (rv32ClearBreakpoint s addr).1
  | .clearAllBreakpoints  => [.clear]
  | _                     => []

@[simp] theorem bpEvents_set (s : RV32 σ) (addr : Word) :
    bpEvents s (.setBreakpoint addr) = bpEntry (.add addr) (rv32SetBreakpoint s addr).1 := rfl

@[simp] theorem bpEvents_clear (s : RV32 σ) (addr : Word) :
    bpEvents s (.clearBreakpoint addr) = bpEntry (.remove addr) (rv32ClearBreakpoint s addr).1 := rfl

@[simp] theorem bpEvents_clearAll (s : RV32 σ) : bpEvents s .clearAllBreakpoints = [.clear] := rfl

/-- The ledger of the run of the calls `as` from `s`. -/
def bpTrace (host : Host σ) (s : RV32 σ) (as : List Action) : List (Slots.Event Word) :=
  Lts.trace (step host) bpEvents s as

/-- The two states have the same table. -/
def SameTable (s t : RV32 σ) : Prop := t.bpMask = s.bpMask ∧ t.bp = s.bp

/-- The functions of the embedding program do not touch the breakpoint table. -/
def Host.KeepsBreakpoints (host : Host σ) : Prop := host.Within SameTable

/-! ## One call -/

theorem bpEnabled_iff (s : RV32 σ) (i : Fin 8) : bpEnabled s i ↔ s.bpMask.getLsbD i.val = true :=
  Bits.and_mask_ne_zero s.bpMask i.val

theorem SameTable.enabledBps (h : SameTable s t) : enabledBps t = enabledBps s := by
  refine Slots.contents_congr (fun i => ?_) (fun i _ => congrFun h.2 i)
  rw [bpEnabled, bpEnabled, h.1]

/-- **Set.** The address is added, or every slot is taken and nothing happens. -/
theorem rv32SetBreakpoint_cases (s : RV32 σ) (addr : Word) :
    ((rv32SetBreakpoint s addr).1 = true ∧
      enabledBps (rv32SetBreakpoint s addr).2 = addr ::ₘ enabledBps s) ∨
    (rv32SetBreakpoint s addr = (false, s) ∧ (enabledBps s).card = 8) := by
  unfold rv32SetBreakpoint
  split
  · rename_i i hfind
    refine .inl ⟨rfl, ?_⟩
    have hfree : ¬ bpEnabled s i := by simpa using List.find?_some hfind
    have hused : ∀ j, bpEnabled { s with bpMask := s.bpMask ||| (1#8 <<< i.val) } j ↔
        (bpEnabled s j ∨ j = i) := by
      intro j
      rw [bpEnabled_iff, bpEnabled_iff, Bits.getLsbD_set]
      simp [Fin.ext_iff]
    have hval : ∀ j, j ≠ i → Function.update s.bp i addr j = s.bp j :=
      fun j hj => Function.update_of_ne hj _ _
    have hcons := Slots.contents_cons hfree hused hval
    rw [Function.update_self] at hcons
    exact hcons
  · rename_i hfind
    refine .inr ⟨rfl, ?_⟩
    apply Slots.card_contents_eq_iff.mpr
    intro i
    simpa using List.find?_eq_none.mp hfind i (List.mem_finRange i)

/-- **Clear.** One entry of the address is removed, or there is none and nothing happens. -/
theorem rv32ClearBreakpoint_cases (s : RV32 σ) (addr : Word) :
    ((rv32ClearBreakpoint s addr).1 = true ∧
      enabledBps s = addr ::ₘ enabledBps (rv32ClearBreakpoint s addr).2) ∨
    (rv32ClearBreakpoint s addr = (false, s) ∧ addr ∉ enabledBps s) := by
  unfold rv32ClearBreakpoint
  split
  · rename_i i hfind
    refine .inl ⟨rfl, ?_⟩
    obtain ⟨henabled, rfl⟩ : bpEnabled s i ∧ s.bp i = addr := by simpa using List.find?_some hfind
    -- the old table is the new one with slot `i` more
    refine Slots.contents_cons ?_ (fun j => ?_) (fun j hj => (Function.update_of_ne hj _ _).symm)
    · rw [bpEnabled_iff, Bits.getLsbD_clear]
      simp
    · rw [bpEnabled_iff, bpEnabled_iff, Bits.getLsbD_clear]
      by_cases hj : j = i
      · simpa [hj] using (bpEnabled_iff s i).mp henabled
      · simp [hj, Fin.ext_iff.not.mp hj]
  · rename_i hfind
    refine .inr ⟨rfl, fun hmem => ?_⟩
    obtain ⟨i, henabled, hbp⟩ := Slots.mem_contents.mp hmem
    have hnone := List.find?_eq_none.mp hfind i (List.mem_finRange i)
    exact hnone (by simp [henabled, hbp])

theorem rv32ClearAllBreakpoints_enabledBps (s : RV32 σ) :
    enabledBps (rv32ClearAllBreakpoints s) = 0 := by
  apply Slots.contents_of_unused
  intro i
  rw [bpEnabled_iff]
  simp [rv32ClearAllBreakpoints]

theorem Host.KeepsBreakpoints.stepRel (hkeep : host.KeepsBreakpoints) : StepRel host SameTable where
  refl _ := ⟨rfl, rfl⟩
  touch _ _ _ _ _ := ⟨rfl, rfl⟩
  mmio := hkeep.toMmioRel
  trans h h' := ⟨h'.1.trans h.1, h'.2.trans h.2⟩
  bytes _ _ := ⟨rfl, rfl⟩
  ie _ _ := ⟨rfl, rfl⟩
  core _ _ _ _ _ := ⟨rfl, rfl⟩

theorem rv32Resume_sameTable (s : RV32 σ) : SameTable s (rv32Resume s) := by
  unfold rv32Resume
  split <;> exact ⟨rfl, rfl⟩

theorem rv32TriggerExternalInterrupt_sameTable (s : RV32 σ) (irq : Word) :
    SameTable s (rv32TriggerExternalInterrupt s irq) := by
  obtain ⟨_, _, htrigger⟩ := rv32TriggerExternalInterrupt_frame s irq
  rw [htrigger]
  exact ⟨rfl, rfl⟩

/-- Trap entry does not touch the table. -/
theorem rv32HandleInterrupt_sameTable (s : RV32 σ) : SameTable s (rv32HandleInterrupt s) := by
  obtain ⟨_, _, _, _, _, _, _, hframe⟩ := rv32HandleInterrupt_frame s
  rw [hframe]
  exact ⟨rfl, rfl⟩

/-- **Executing instructions never changes the table**, nor does the status in which it stops. -/
theorem rv32Cycle_sameTable (hkeep : host.KeepsBreakpoints) (s : RV32 σ) :
    SameTable s (rv32Cycle host s) := by
  refine rv32Cycle_rel hkeep.stepRel (rv32HandleInterrupt_sameTable s) fun instr u _ => ?_
  refine rv32Execute_rel hkeep.stepRel u instr (fun _ => hkeep.ecall u) (fun _ => ⟨rfl, rfl⟩) ?_
  intro wVal _ _
  obtain ⟨_, _, _, _, _, _, hw⟩ := rv32WriteCsr_frame u (immI instr) wVal
  rw [hw]
  exact ⟨rfl, rfl⟩

/-- **A call keeps the table balanced** with the ledger. -/
theorem step_balanced (hkeep : host.KeepsBreakpoints) (s : RV32 σ) (a : Action)
    {es : List (Slots.Event Word)} (h : Slots.Balanced (enabledBps s) es) :
    Slots.Balanced (enabledBps (step host s a)) (es ++ bpEvents s a) := by
  -- a call that enters nothing has not touched the table
  have hquiet : SameTable s (step host s a) → bpEvents s a = [] →
      Slots.Balanced (enabledBps (step host s a)) (es ++ bpEvents s a) := by
    intro hsame hnone
    rw [hnone, List.append_nil, hsame.enabledBps]
    exact h
  cases a with
  | cycle => exact hquiet (rv32Cycle_sameTable hkeep s) rfl
  | resume => exact hquiet (rv32Resume_sameTable s) rfl
  | trigger irq => exact hquiet (rv32TriggerExternalInterrupt_sameTable s irq) rfl
  | setBreakpoint addr =>
      rcases rv32SetBreakpoint_cases s addr with ⟨hok, hset⟩ | ⟨hfull, -⟩
      · rw [bpEvents_set, hok, step, hset]
        exact h.add addr
      · refine hquiet ?_ (by rw [bpEvents_set, hfull]; rfl)
        rw [step, hfull]
        exact ⟨rfl, rfl⟩
  | clearBreakpoint addr =>
      rcases rv32ClearBreakpoint_cases s addr with ⟨hok, hclear⟩ | ⟨hnone, -⟩
      · rw [hclear] at h
        rw [bpEvents_clear, hok, step]
        exact h.remove
      · refine hquiet ?_ (by rw [bpEvents_clear, hnone]; rfl)
        rw [step, hnone]
        exact ⟨rfl, rfl⟩
  | clearAllBreakpoints =>
      rw [bpEvents_clearAll, step, rv32ClearAllBreakpoints_enabledBps]
      exact Slots.balanced_clear es

/-! ## The scan -/

/-- The scan asks whether `pc` is in the table. -/
theorem breakpointHit_iff (s : RV32 σ) : breakpointHit s ↔ s.pc ∈ enabledBps s := by
  rw [enabledBps, Slots.mem_contents]
  constructor
  · rintro ⟨-, i, -, henabled, hpc⟩
    exact ⟨i, henabled, hpc.symm⟩
  · rintro ⟨i, henabled, hpc⟩
    -- the mask is not zero, since it has bit `i`
    have hmask : s.bpMask ≠ 0 :=
      (Bits.ne_zero_iff _).mpr ⟨i.val, (bpEnabled_iff s i).mp henabled⟩
    exact ⟨hmask, i, List.mem_finRange i, henabled, hpc.symm⟩

theorem rv32HandleInterrupt_enabledBps (s : RV32 σ) :
    enabledBps (rv32HandleInterrupt s) = enabledBps s := (rv32HandleInterrupt_sameTable s).enabledBps

/-- No word is fetched from an address in the table. -/
theorem rv32Fetch_of_mem (h : (rv32HandleInterrupt s).pc ∈ enabledBps s) :
    (rv32Fetch host s).1 = none := by
  rw [← rv32HandleInterrupt_enabledBps, ← breakpointHit_iff] at h
  rcases hp : rv32Fetch host s with ⟨word, u⟩
  cases word with
  | none => rfl
  | some instr => exact absurd h (rv32Fetch_some hp).1.noBreakpoint

/-- A running machine that has come to an address in the table pauses there. -/
theorem rv32Cycle_of_mem (h : (rv32HandleInterrupt s).pc ∈ enabledBps s)
    (hwfi : (rv32HandleInterrupt s).wfi = 0) (hrun : (rv32HandleInterrupt s).status = .running) :
    rv32Cycle host s = { rv32HandleInterrupt s with status := .paused } := by
  have hnone : (rv32Fetch host s).1 = none := rv32Fetch_of_mem h
  rw [← rv32HandleInterrupt_enabledBps, ← breakpointHit_iff] at h
  rw [rv32Cycle_of_no_fetch host hnone, rv32Fetch_handled, fetchPhase,
    if_neg (not_not.mpr hwfi), if_neg (not_not.mpr hrun), if_pos h]

/-- A running machine at any other address goes on to its fetch. -/
theorem fetching_of_not_mem (h : (rv32HandleInterrupt s).pc ∉ enabledBps s)
    (hwfi : (rv32HandleInterrupt s).wfi = 0) (hrun : (rv32HandleInterrupt s).status = .running) :
    Fetching (rv32HandleInterrupt s) := by
  rw [← rv32HandleInterrupt_enabledBps, ← breakpointHit_iff] at h
  exact ⟨hwfi, hrun, h⟩

/-! ## Runs -/

variable (host) in
/-- The contract of the breakpoint table in a state `s` whose history has the ledger `es`. -/
structure BreakpointsKept (s : RV32 σ) (es : List (Slots.Event Word)) : Prop where
  /-- The enabled entries are what was set and not cleared since the last clear-all. -/
  table : enabledBps s = Slots.added es - Slots.removed es
  removed_le : Slots.removed es ≤ Slots.added es
  cycle_keeps : enabledBps (rv32Cycle host s) = enabledBps s
  set_fails : ∀ addr, (rv32SetBreakpoint s addr).1 = false → (enabledBps s).card = 8
  clear_fails : ∀ addr, (rv32ClearBreakpoint s addr).1 = false → addr ∉ enabledBps s
  /-- `(rv32HandleInterrupt s).pc` is `pc` after any trap of the cycle. -/
  not_executed : (rv32HandleInterrupt s).pc ∈ enabledBps s → (rv32Fetch host s).1 = none
  paused : (rv32HandleInterrupt s).pc ∈ enabledBps s → (rv32HandleInterrupt s).wfi = 0 →
    s.status = .running → rv32Cycle host s = { rv32HandleInterrupt s with status := .paused }
  not_paused : (rv32HandleInterrupt s).pc ∉ enabledBps s → (rv32HandleInterrupt s).wfi = 0 →
    s.status = .running → ¬ breakpointHit (rv32HandleInterrupt s) ∧
      rv32Fetch host s =
        match rv32Load32 host (rv32HandleInterrupt s) (rv32HandleInterrupt s).pc with
        | (none, u)       => (none, u.accessFault)
        | (some instr, u) => (some instr, u.resetZero)

theorem breakpointsKept_of_balanced (hkeep : host.KeepsBreakpoints) {es : List (Slots.Event Word)}
    (h : Slots.Balanced (enabledBps s) es) : BreakpointsKept host s es := by
  have hstatus := rv32HandleInterrupt_status s
  constructor
  case table => exact h.eq_sub.1
  case removed_le => exact h.eq_sub.2
  case cycle_keeps => exact (rv32Cycle_sameTable hkeep s).enabledBps
  case set_fails =>
    intro addr hfail
    rcases rv32SetBreakpoint_cases s addr with ⟨hok, -⟩ | ⟨-, hcard⟩
    · rw [hok] at hfail
      cases hfail
    · exact hcard
  case clear_fails =>
    intro addr hfail
    rcases rv32ClearBreakpoint_cases s addr with ⟨hok, -⟩ | ⟨-, hnone⟩
    · rw [hok] at hfail
      cases hfail
    · exact hnone
  case not_executed => exact rv32Fetch_of_mem
  case paused =>
    intro hmem hwfi hrun
    exact rv32Cycle_of_mem hmem hwfi (hstatus.trans hrun)
  case not_paused =>
    intro hmem hwfi hrun
    have hfetching := fetching_of_not_mem hmem hwfi (hstatus.trans hrun)
    refine ⟨hfetching.noBreakpoint, ?_⟩
    rw [rv32Fetch_handled]
    exact hfetching.fetchPhase host

/-- **Breakpoints.** In every state a run of calls from `rv32_new` reaches, the table is what the calls
    made of it, and no instruction at an address in it is executed. -/
theorem breakpoints_kept (host : Host σ) (hkeep : host.KeepsBreakpoints) (memory : RV32 σ)
    (memSize : Word) (image : ByteMem.Mem) (as : List Action) :
    BreakpointsKept host (runActions host (boot memory memSize image) as)
      (bpTrace host (boot memory memSize image) as) := by
  refine breakpointsKept_of_balanced hkeep ?_
  -- by the number of calls, each taking one step of the ledger
  induction as using List.reverseRecOn with
  | nil =>
      have hempty : enabledBps (boot memory memSize image) = 0 :=
        rv32ClearAllBreakpoints_enabledBps (boot memory memSize image)
      show Slots.Balanced (enabledBps (boot memory memSize image)) []
      rw [hempty]
      exact Slots.balanced_nil
  | append_singleton as a ih =>
      rw [bpTrace, Lts.trace_concat, runActions, Lts.run_concat]
      exact step_balanced hkeep _ a ih

/-- The emulator, on a run that fills a slot twice with one address and clears it once. -/
theorem breakpoints_kept_emulator :
    BreakpointsKept emulatorHost
      (runActions emulatorHost (boot zeroStorage 64 (imageOf []))
        [.setBreakpoint 4, .setBreakpoint 4, .clearBreakpoint 4, .resume, .cycle])
      (bpTrace emulatorHost (boot zeroStorage 64 (imageOf []))
        [.setBreakpoint 4, .setBreakpoint 4, .clearBreakpoint 4, .resume, .cycle]) :=
  breakpoints_kept emulatorHost (emulatorHost_within fun _ _ _ => ⟨rfl, rfl⟩) _ _ _ _

end Rv32
