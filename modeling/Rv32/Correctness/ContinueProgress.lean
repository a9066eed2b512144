import Rv32.Correctness.Breakpoints
import Rv32.Correctness.Continue

/-!
# `Correctness.ContinueProgress` — continuing from a breakpoint

`rv32_resume` makes a machine run again that the breakpoint scan has paused, and nothing remembers that the
breakpoint at `pc` has been reported. The scan of the next cycle comes before its fetch, finds the same
breakpoint and pauses the machine again: the two calls cancel, and no number of them gets past it.
-/

namespace Rv32

variable {σ : Type} {host : Host σ} {s : RV32 σ}

/-- A paused machine that has nothing to wait for and no interrupt to take. -/
structure Restartable (s : RV32 σ) : Prop where
  paused : s.status = .paused
  wfi : s.wfi = 0
  quiet : ¬ Interruptible s

/-- The machine stands where the breakpoint scan has paused it. -/
structure PausedAtBreakpoint (s : RV32 σ) : Prop extends Restartable s where
  breakpoint : s.pc ∈ enabledBps s

/-- The two ways to make it run again. -/
inductive Restart where
  | resume
  | packet (buffer : Nat → Byte) (size : Nat) (h : RspStarts 'c' buffer size)

def Restart.apply (host : Host σ) (s : RV32 σ) : Restart → RV32 σ
  | .resume               => rv32Resume s
  | .packet buffer size _ => (rspHandlePacket host buffer size s).state

/-- A restart and a cycle. -/
def restartCycle (host : Host σ) (s : RV32 σ) (r : Restart) : RV32 σ := rv32Cycle host (r.apply host s)

/-- The cycle after the restart gets to its `switch(opcode)`. -/
def RoundExecutes (host : Host σ) (s : RV32 σ) (r : Restart) : Prop :=
  (rv32Fetch host (r.apply host s)).1 ≠ none

/-- After these rounds the machine is paused at the breakpoint it was paused at before them, and has not
    executed anything. -/
structure StuckAfter (host : Host σ) (s : RV32 σ) (rounds : List Restart) : Prop where
  paused : PausedAtBreakpoint (Lts.run (restartCycle host) s rounds)
  pc : (Lts.run (restartCycle host) s rounds).pc = s.pc
  nothing : Lts.AllSteps (restartCycle host) (fun t r => ¬ RoundExecutes host t r) s rounds

/-- Continuing from `s` makes progress. -/
structure Progresses (host : Host σ) (s : RV32 σ) : Prop where
  executes : ∀ r, RoundExecutes host s r
  unstuck : ∀ rounds, rounds ≠ [] → ¬ StuckAfter host s rounds

/-! ## One round -/

/-- The two calls, as the embedding program makes them. -/
theorem runActions_resume_cycle (host : Host σ) (s : RV32 σ) :
    runActions host s [.resume, .cycle] = restartCycle host s .resume := rfl

/-- A `c` packet does no more than the call. -/
theorem Restart.apply_eq (host : Host σ) (s : RV32 σ) (r : Restart) : r.apply host s = rv32Resume s := by
  cases r with
  | resume => rfl
  | packet buffer size h =>
      rw [Restart.apply, rspHandlePacket_continue h]
      rfl

theorem rv32Resume_of_paused (h : s.status = .paused) : rv32Resume s = { s with status := .running } :=
  if_pos h

theorem Restartable.noTrap (h : Restartable s) : trapTaken (rv32Resume s) = none := by
  by_contra htrap
  have hresumed := (trapTaken_ne_none_iff (rv32Resume s)).mp htrap
  rw [rv32Resume_of_paused h.paused] at hresumed
  exact h.quiet hresumed

theorem Restartable.handleInterrupt (h : Restartable s) :
    rv32HandleInterrupt (rv32Resume s) = { s with status := .running } := by
  rw [rv32HandleInterrupt_of_none h.noTrap, rv32Resume_of_paused h.paused]

/-- **Getting past the scan.** The restarted machine goes on to its fetch exactly when there is no
    breakpoint at `pc`. -/
theorem Restartable.ready_iff (h : Restartable s) : Ready (rv32Resume s) ↔ s.pc ∉ enabledBps s := by
  have hrun := rv32Resume_of_paused h.paused
  constructor
  · intro hready hmem
    refine hready.noBreakpoint ((breakpointHit_iff _).mpr ?_)
    rw [hrun]
    exact hmem
  · intro hmem
    refine ⟨⟨?_, ?_, ?_⟩, h.noTrap⟩
    · rw [hrun]
      exact h.wfi
    · rw [hrun]
    · rw [hrun, breakpointHit_iff]
      exact hmem

/-- **What a round executes.** The instruction at `pc`, exactly when it can be fetched and there is no
    breakpoint at it. -/
theorem Restartable.executes_iff (h : Restartable s) (r : Restart) :
    RoundExecutes host s r ↔
      s.pc ∉ enabledBps s ∧ (rv32Load32 host (rv32Resume s) s.pc).1 ≠ none := by
  rw [RoundExecutes, Restart.apply_eq]
  by_cases hmem : s.pc ∈ enabledBps s
  · refine iff_of_false (not_not.mpr ?_) fun hready => hready.1 hmem
    apply rv32Fetch_of_mem
    rw [h.handleInterrupt, rv32Resume_of_paused h.paused]
    exact hmem
  · have hready := h.ready_iff.mpr hmem
    have hpc : (rv32Resume s).pc = s.pc := by rw [rv32Resume_of_paused h.paused]
    rw [rv32Fetch, cycleInterrupt_of_none hready.noTrap, hready.fetchPhase, hpc, and_iff_right hmem]
    rcases rv32Load32 host (rv32Resume s) s.pc with ⟨_ | instr, u⟩ <;> rfl

/-- **The restart and the cycle cancel.** -/
theorem PausedAtBreakpoint.restartCycle_eq (h : PausedAtBreakpoint s) (r : Restart) :
    restartCycle host s r = s := by
  have hentry := h.handleInterrupt
  rw [restartCycle, Restart.apply_eq, rv32Cycle_of_mem, hentry]
  · -- the status is the only thing either of them writes
    rw [← h.paused]
  · rw [hentry, rv32Resume_of_paused h.paused]
    exact h.breakpoint
  · rw [hentry]
    exact h.wfi
  · rw [hentry]

/-! ## Any number of rounds -/

theorem PausedAtBreakpoint.stuck (h : PausedAtBreakpoint s) (rounds : List Restart) :
    StuckAfter host s rounds := by
  have hround : ∀ r ∈ rounds, restartCycle host s r = s := fun r _ => h.restartCycle_eq r
  have hrun : Lts.run (restartCycle host) s rounds = s := Lts.run_of_fixed hround
  constructor
  case paused => rw [hrun]; exact h
  case pc => rw [hrun]
  case nothing =>
    refine Lts.AllSteps.of_fixed hround fun r _ hexecutes => ?_
    exact ((h.executes_iff r).mp hexecutes).1 h.breakpoint

theorem PausedAtBreakpoint.not_progresses (h : PausedAtBreakpoint s) : ¬ Progresses host s :=
  fun hprogress => hprogress.unstuck [.resume] (by simp) (h.stuck [.resume])

/-- **Continuing from a breakpoint** never makes progress: no restart leads to the instruction at `pc`, and
    after any number of them the machine is paused at the same breakpoint. -/
theorem continue_stuck (host : Host σ) (s : RV32 σ) (h : PausedAtBreakpoint s) :
    ¬ Progresses host s ∧ (∀ r, ¬ RoundExecutes host s r) ∧ ∀ rounds, StuckAfter host s rounds := by
  refine ⟨h.not_progresses, fun r => ?_, h.stuck⟩
  exact (h.stuck [r]).nothing.1

/-- The emulator with a `nop` at address 0 and a breakpoint at it, paused there by its first cycle. -/
def atBreakpoint : RV32 (List Output) :=
  runActions emulatorHost (boot zeroStorage 64 (imageOf [0x00000013]))
    [.setBreakpoint 0, .resume, .cycle]

theorem pausedAtBreakpoint_atBreakpoint : PausedAtBreakpoint atBreakpoint where
  paused := by decide
  wfi := by decide
  quiet h := absurd h.1 (by decide)
  breakpoint := (breakpointHit_iff atBreakpoint).mp (by decide)

theorem continue_stuck_emulator :
    ¬ Progresses emulatorHost atBreakpoint ∧ (∀ r, ¬ RoundExecutes emulatorHost atBreakpoint r) ∧
      ∀ rounds, StuckAfter emulatorHost atBreakpoint rounds :=
  continue_stuck emulatorHost atBreakpoint pausedAtBreakpoint_atBreakpoint

/-- It gets to the next instruction only when the breakpoint is taken out of the table. -/
theorem breakpoint_not_passed :
    PausedAtBreakpoint atBreakpoint ∧ ¬ Progresses emulatorHost atBreakpoint ∧
      runActions emulatorHost atBreakpoint [.resume, .cycle] = atBreakpoint ∧
      (runActions emulatorHost atBreakpoint [.clearBreakpoint 0, .resume, .cycle]).pc = 4 := by
  have hpaused := pausedAtBreakpoint_atBreakpoint
  refine ⟨hpaused, hpaused.not_progresses, ?_, by decide⟩
  rw [runActions_resume_cycle, hpaused.restartCycle_eq]

/-! ## What the debugger sees -/

/-- **The same stop again.** A `c` packet to a machine paused at a breakpoint is answered, in the round that
    takes it, with a stop reply, and the machine is the one it was. -/
theorem mainRound_continue_at_breakpoint {p : Process (Stub σ)} {input : MainInput}
    (hcontinue : ContinuePacket p input) (h : PausedAtBreakpoint p.state.machine) :
    (Process.step (mainRound host) p input).state.machine = p.state.machine ∧
      stopReply .sigtrap ∈ Process.emit (mainRound host) p input := by
  cases input with
  | idle => exact hcontinue.elim
  | byte c ind =>
      obtain ⟨halive, hcompletes⟩ := hcontinue
      have hbyte := rspHandleByte_continue host hcompletes
      have hcycle : rv32Cycle host (rv32Resume p.state.machine) = p.state.machine :=
        h.restartCycle_eq .resume
      have hcycles : CyclesFrom host p (.byte c ind)
          ⟨rv32Resume p.state.machine, p.state.receiver.finish c .noPacketSent⟩ := by
        refine ⟨halive, ?_, ?_, ?_⟩
        · rw [mainByte, hbyte]
        · rw [mainByte, hbyte]
        · exact (rv32Resume_running_iff p.state.machine).mpr (.inl h.paused)
      refine ⟨?_, ?_⟩
      · rw [hcycles.step]
        exact hcycle
      · rw [hcycles.emit, hcycle, h.paused]
        exact List.mem_append_right _ (List.mem_singleton_self _)

end Rv32
