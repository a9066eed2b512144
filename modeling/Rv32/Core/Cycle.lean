import Rv32.Core.Execute
import Rv32.Core.Interrupt
import Rv32.Lib.Lts

/-!
# `Core.Cycle` — `rv32_cycle`, the breakpoint table, and runs of calls

`rv32_cycle` is cut at its `switch(opcode)`: `rv32Fetch` is everything above it (interrupt entry, the
`wfi`, status and breakpoint tests, the fetch, the reset of `x0`) and says whether the `switch` is
reached, and with which word. An `Action` is one call the embedding program makes; a run of calls is an
`Lts.run` of `step`.
-/

namespace Rv32

variable {σ : Type} (host : Host σ)

/-! ## The breakpoint table -/

/-- Bit `i` of `bp_mask`. -/
def bpEnabled (s : RV32 σ) (i : Fin 8) : Prop := s.bpMask &&& (1#8 <<< i.val) ≠ 0

instance (s : RV32 σ) (i : Fin 8) : Decidable (bpEnabled s i) := inferInstanceAs (Decidable (_ ≠ _))

/-- `rv32_set_breakpoint`, with its `int` result. -/
def rv32SetBreakpoint (s : RV32 σ) (addr : Word) : Bool × RV32 σ :=
  match (List.finRange 8).find? fun i => ¬ bpEnabled s i with
  | some i =>
      (true, { s with bpMask := s.bpMask ||| (1#8 <<< i.val), bp := Function.update s.bp i addr })
  | none => (false, s)

/-- `rv32_clear_breakpoint`, with its `int` result. -/
def rv32ClearBreakpoint (s : RV32 σ) (addr : Word) : Bool × RV32 σ :=
  match (List.finRange 8).find? fun i => bpEnabled s i ∧ s.bp i = addr with
  | some i =>
      (true, { s with bpMask := s.bpMask &&& ~~~(1#8 <<< i.val), bp := Function.update s.bp i 0 })
  | none => (false, s)

/-- `rv32_clear_all_breakpoints` -/
def rv32ClearAllBreakpoints (s : RV32 σ) : RV32 σ := { s with bpMask := 0, bp := fun _ => 0 }

/-- The scan in `rv32_cycle` finds an enabled breakpoint at `pc`. -/
def breakpointHit (s : RV32 σ) : Prop :=
  s.bpMask ≠ 0 ∧ ∃ i ∈ List.finRange 8, bpEnabled s i ∧ s.pc = s.bp i

instance (s : RV32 σ) : Decidable (breakpointHit s) := inferInstanceAs (Decidable (_ ∧ _))

/-! ## The cycle -/

/-- The interrupt test at the top of `rv32_cycle`. -/
def cycleInterrupt (s : RV32 σ) : RV32 σ :=
  if csrGetBit s.mstatus csrMstatusMie ≠ 0 ∧ s.mie &&& s.mip ≠ 0 then rv32HandleInterrupt s else s

variable {s : RV32 σ} in
/-- `rv32->r[REG_ZERO] = 0;` -/
def RV32.resetZero (s : RV32 σ) : RV32 σ := { s with r := Function.update s.r regZero 0 }

/-- `rv32_cycle` between the interrupt test and its `switch(opcode)`: the word the `switch` is entered
    with, or `none` on the paths that return before it. -/
def fetchPhase (s : RV32 σ) : Option Word × RV32 σ :=
  if s.wfi ≠ 0 then (none, s)
  else if s.status ≠ .running then (none, s)
  else if breakpointHit s then (none, { s with status := .paused })
  else
    match rv32Load32 host s s.pc with
    | (none, s)       => (none, s.accessFault)
    | (some instr, s) => (some instr, s.resetZero)

/-- `rv32_cycle` above its `switch(opcode)`. -/
def rv32Fetch (s : RV32 σ) : Option Word × RV32 σ := fetchPhase host (cycleInterrupt s)

/-- `rv32_cycle` -/
def rv32Cycle (s : RV32 σ) : RV32 σ :=
  match rv32Fetch host s with
  | (none, s)       => s
  | (some instr, s) => rv32Execute host s instr

/-! ## Runs of calls -/

/-- A call the embedding program or the debugger makes on a machine. -/
inductive Action where
  | cycle
  | resume
  | trigger (irq : Word)
  | setBreakpoint (addr : Word)
  | clearBreakpoint (addr : Word)
  | clearAllBreakpoints
  deriving DecidableEq, Repr

/-- The effect of one call. -/
def step (s : RV32 σ) : Action → RV32 σ
  | .cycle                => rv32Cycle host s
  | .resume               => rv32Resume s
  | .trigger irq          => rv32TriggerExternalInterrupt s irq
  | .setBreakpoint addr   => (rv32SetBreakpoint s addr).2
  | .clearBreakpoint addr => (rv32ClearBreakpoint s addr).2
  | .clearAllBreakpoints  => rv32ClearAllBreakpoints s

/-- The machine after the calls `as`. -/
abbrev runActions (s : RV32 σ) (as : List Action) : RV32 σ := Lts.run (step host) s as

/-- A call of the debugger: neither a cycle nor a trigger. -/
def Action.Control : Action → Prop
  | .cycle | .trigger _ => False
  | _                   => True

/-- A machine as the embedding program starts it: `rv32_new` on any storage, then a program image. -/
def boot (memory : RV32 σ) (memSize : Word) (image : ByteMem.Mem) : RV32 σ :=
  loadProgram (rv32New memory memSize) image

/-! ## The reset of `x0` -/

@[simp] theorem resetZero_r_zero (s : RV32 σ) : s.resetZero.r regZero = 0 := by simp [RV32.resetZero]

theorem resetZero_r_of_ne (s : RV32 σ) {i : Fin 32} (hi : i ≠ regZero) : s.resetZero.r i = s.r i := by
  simp [RV32.resetZero, hi]

/-! ## The interrupt test -/

/-- The test at the top of the cycle repeats the handler's own, so it can be dropped. -/
theorem cycleInterrupt_eq (s : RV32 σ) : cycleInterrupt s = rv32HandleInterrupt s := by
  unfold cycleInterrupt
  split
  · rfl
  · rename_i h
    rw [rv32HandleInterrupt_eq]
    suffices hnone : trapTaken s = none by rw [hnone]
    by_cases hmie : csrGetBit s.mstatus csrMstatusMie = 0
    · exact trapTaken_of_mie hmie
    · have hzero : s.mie &&& s.mip = 0 := by
        by_contra hne
        exact h ⟨hmie, hne⟩
      rw [trapTaken, hzero]
      rw [if_neg hmie, if_neg (by decide), if_neg (by decide), if_neg (by decide)]

/-- A cycle that takes no trap starts in the state it was given. -/
theorem cycleInterrupt_of_none {s : RV32 σ} (h : trapTaken s = none) : cycleInterrupt s = s := by
  rw [cycleInterrupt_eq, rv32HandleInterrupt_of_none h]

/-- The cycle from `s` takes the trap of `src`: the handler enters it, and the cycle goes on from there. -/
structure TakesTrap (host : Host σ) (s : RV32 σ) (src : TrapSource) : Prop where
  entered : TrapEntered src s (rv32HandleInterrupt s)
  fetch : rv32Fetch host s = fetchPhase host (rv32HandleInterrupt s)

theorem rv32Fetch_handled (s : RV32 σ) : rv32Fetch host s = fetchPhase host (rv32HandleInterrupt s) := by
  rw [rv32Fetch, cycleInterrupt_eq]

theorem takesTrap_iff {s : RV32 σ} {src : TrapSource} :
    TakesTrap host s src ↔ trapTaken s = some src := by
  constructor
  · intro h
    exact trapEntered_iff.mp h.entered
  · intro h
    exact ⟨trapEntered_iff.mpr h, rv32Fetch_handled host s⟩

variable {host} in
/-- A cycle takes one trap: `mcause` names its source. -/
theorem TakesTrap.unique {s : RV32 σ} {src src' : TrapSource} (h : TakesTrap host s src)
    (h' : TakesTrap host s src') : src = src' :=
  TrapSource.mcause_inj (h.entered.mcause.symm.trans h'.entered.mcause)

instance (s : RV32 σ) (src : TrapSource) : Decidable (TakesTrap host s src) :=
  decidable_of_iff _ (takesTrap_iff host).symm

/-! ## A cycle that gets to its fetch -/

/-- None of the three tests between the interrupt entry and the fetch stops the cycle. -/
structure Fetching (s : RV32 σ) : Prop where
  wfi : s.wfi = 0
  running : s.status = .running
  noBreakpoint : ¬ breakpointHit s

/-- The cycle takes no trap either. -/
structure Ready (s : RV32 σ) : Prop extends Fetching s where
  noTrap : trapTaken s = none

theorem Fetching.fetchPhase {s : RV32 σ} (h : Fetching s) :
    fetchPhase host s =
      match rv32Load32 host s s.pc with
      | (none, u)       => (none, u.accessFault)
      | (some instr, u) => (some instr, u.resetZero) := by
  rw [Rv32.fetchPhase, if_neg (not_not.mpr h.wfi), if_neg (not_not.mpr h.running),
    if_neg h.noBreakpoint]

theorem Ready.fetch {s u : RV32 σ} (h : Ready s) {instr : Word}
    (hload : rv32Load32 host s s.pc = (some instr, u)) :
    rv32Fetch host s = (some instr, u.resetZero) := by
  rw [rv32Fetch, cycleInterrupt_of_none h.noTrap, h.fetchPhase, hload]

/-- **A fetched word is executed.** -/
theorem rv32Cycle_of_fetch {s u : RV32 σ} {instr : Word}
    (hfetch : rv32Fetch host s = (some instr, u)) : rv32Cycle host s = rv32Execute host u instr := by
  rw [rv32Cycle, hfetch]

/-- A cycle that returns before the `switch` ends where it returned. -/
theorem rv32Cycle_of_no_fetch {s : RV32 σ} (hfetch : (rv32Fetch host s).1 = none) :
    rv32Cycle host s = (rv32Fetch host s).2 := by
  rcases hp : rv32Fetch host s with ⟨word, u⟩
  rw [hp] at hfetch
  obtain rfl := hfetch
  rw [rv32Cycle, hp]

/-- **A cycle of a stopped machine is its trap entry.** -/
theorem rv32Cycle_of_stopped (host : Host σ) {s : RV32 σ} (hst : s.status ≠ .running) :
    rv32Cycle host s = rv32HandleInterrupt s := by
  have hst' : (rv32HandleInterrupt s).status ≠ .running := by
    rw [rv32HandleInterrupt_status]
    exact hst
  have hfetch : rv32Fetch host s = (none, rv32HandleInterrupt s) := by
    rw [rv32Fetch_handled, fetchPhase, if_pos hst', ite_self]
  rw [rv32Cycle_of_no_fetch host (by rw [hfetch]), hfetch]

/-! ## Calls other than the cycle -/

theorem Action.Control.ne_cycle {a : Action} (h : a.Control) : a ≠ .cycle := by
  rintro rfl
  exact h

/-- A trigger touches the two pending words only. -/
theorem rv32TriggerExternalInterrupt_frame (s : RV32 σ) (irq : Word) :
    ∃ mip ip, rv32TriggerExternalInterrupt s irq =
      { s with mip := mip, interruptController.ip := ip } := by
  unfold rv32TriggerExternalInterrupt
  split <;> exact ⟨_, _, rfl⟩

/-- **The calls.** One that is neither a cycle nor a trigger touches the status and the breakpoint table
    only. -/
theorem step_cases (s : RV32 σ) (a : Action) :
    a = .cycle ∨ (∃ irq, a = .trigger irq) ∨
      (a.Control ∧ ∃ status bpMask bp, step host s a = { s with status, bpMask, bp }) := by
  cases a with
  | cycle => exact .inl rfl
  | trigger irq => exact .inr (.inl ⟨irq, rfl⟩)
  | resume =>
      refine .inr (.inr ⟨trivial, ?_⟩)
      simp only [step, rv32Resume]
      split <;> exact ⟨_, _, _, rfl⟩
  | setBreakpoint addr =>
      refine .inr (.inr ⟨trivial, ?_⟩)
      simp only [step, rv32SetBreakpoint]
      split <;> exact ⟨_, _, _, rfl⟩
  | clearBreakpoint addr =>
      refine .inr (.inr ⟨trivial, ?_⟩)
      simp only [step, rv32ClearBreakpoint]
      split <;> exact ⟨_, _, _, rfl⟩
  | clearAllBreakpoints => exact .inr (.inr ⟨trivial, _, _, _, rfl⟩)

end Rv32
