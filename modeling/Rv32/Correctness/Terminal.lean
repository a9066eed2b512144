import Rv32.Core.Emulator
import Rv32.Rsp.Effect

/-!
# `Correctness.Terminal` — who can leave a terminal status

The core leaves `RV32_HALTED` and the two fault statuses to nobody: `rv32_cycle` returns early and
`rv32_resume` tests for `RV32_PAUSED`. The handlers go through `rv32_resume` too. The one writer that does
not look at the status is the byte 3 outside of a packet: it pauses a machine that has stopped for good,
and a paused machine can be resumed.
-/

namespace Rv32

open Prog

variable {σ : Type} {host : Host σ}

/-- The statuses only `rv32_reset` should leave. -/
def Terminal (status : Rv32Status) : Prop :=
  status = .halted ∨ status = .invalidInstruction ∨ status = .invalidMemoryAccess

instance (status : Rv32Status) : Decidable (Terminal status) := inferInstanceAs (Decidable (_ ∨ _))

/-- The byte completes a packet that starts with `k`. -/
def KillPacket (p : Process (Stub σ)) : StubAction → Prop
  | .byte c ind =>
      p.state.receiver.state = .checksum2 ∧ rspIsHexDigit c = true ∧ Matches p.state.receiver c ∧
        RspStarts 'k' (p.state.receiver.buffer ind.behind) p.state.receiver.iptr
  | .call _ => False

/-- The byte is 3, outside of a packet. -/
def CtrlC (p : Process (Stub σ)) : StubAction → Prop
  | .byte c _ => p.state.receiver.state = .waitStart ∧ c = 3
  | .call _   => False

instance (p : Process (Stub σ)) : (a : StubAction) → Decidable (KillPacket p a)
  | .byte _ _ => inferInstanceAs (Decidable (_ ∧ _))
  | .call _   => instDecidableFalse

instance (p : Process (Stub σ)) : (a : StubAction) → Decidable (CtrlC p a)
  | .byte _ _ => inferInstanceAs (Decidable (_ ∧ _))
  | .call _   => instDecidableFalse

/-- A terminal status is kept. -/
def KeepsTerminal (s t : RV32 σ) : Prop := Terminal s.status → t.status = s.status

instance : IsPreorder (RV32 σ) KeepsTerminal where
  refl _ _ := rfl
  trans s t u hst htu hterminal := by
    have hs := hst hterminal
    rw [KeepsTerminal, hs] at htu
    exact htu hterminal

theorem Terminal.ne_running {status : Rv32Status} (h : Terminal status) : status ≠ .running := by
  rintro rfl
  revert h
  decide

theorem rv32Resume_keepsTerminal (s : RV32 σ) : KeepsTerminal s (rv32Resume s) := by
  intro hterminal
  have hpaused : s.status ≠ .paused := by
    intro h
    rw [h] at hterminal
    revert hterminal
    decide
  rw [rv32Resume, if_neg hpaused]

/-- The handlers write the status in `rv32_resume` and `rv32_reset` only. -/
theorem keepsTerminal_rspRel : RspRel (KeepsTerminal (σ := σ)) where
  registers _ _ _ _ := rfl
  mem _ _ _ := rfl
  breakpoints _ _ _ _ := rfl
  resume := rv32Resume_keepsTerminal

theorem step_keepsTerminal (s : RV32 σ) (a : Action) : KeepsTerminal s (step host s a) := by
  intro hterminal
  cases a with
  | cycle =>
      rw [step, rv32Cycle_of_stopped host hterminal.ne_running, rv32HandleInterrupt_status]
  | resume => exact rv32Resume_keepsTerminal s hterminal
  | trigger irq =>
      obtain ⟨_, _, htrigger⟩ := rv32TriggerExternalInterrupt_frame s irq
      rw [step, htrigger]
  | setBreakpoint addr =>
      rw [step, rv32SetBreakpoint]
      split <;> rfl
  | clearBreakpoint addr =>
      rw [step, rv32ClearBreakpoint]
      split <;> rfl
  | clearAllBreakpoints => rfl

/-- **A byte** other than those two keeps a terminal status. -/
theorem rspHandleByte_keepsTerminal (p : Process (Stub σ)) (c : Byte) (ind : Indeterminate)
    (hkill : ¬ KillPacket p (.byte c ind)) (hctrl : ¬ CtrlC p (.byte c ind)) :
    KeepsTerminal p.state.machine (rspHandleByte host ind c p.state).state.machine := by
  apply rspHandleByte_within keepsTerminal_rspRel
  · intro hstate hc
    exact absurd ⟨hstate, hc⟩ hctrl
  · intro hk
    exact absurd hk hkill

/-- **An action** other than those two keeps a terminal status. -/
theorem serve_keepsTerminal (host : Host σ) (p : Process (Stub σ)) (a : StubAction) (hkill : ¬ KillPacket p a)
    (hctrl : ¬ CtrlC p a) :
    KeepsTerminal p.state.machine (Process.step (serve host) p a).state.machine := by
  refine Process.step_within (R := fun t u => KeepsTerminal t.machine u.machine)
    (fun t => refl_of KeepsTerminal t.machine) p a ?_
  cases a with
  | byte c ind => exact rspHandleByte_keepsTerminal p c ind hkill hctrl
  | call a => exact step_keepsTerminal p.state.machine a

/-- **Terminal statuses.** In a run of calls and debugger bytes in which no kill packet arrives, and no
    byte 3 outside of a packet either, a terminal status is never left, so the machine never runs again. -/
theorem terminal_absorbing (host : Host σ) (p : Process (Stub σ)) (as : List StubAction)
    (hterminal : Terminal p.state.machine.status)
    (hkill : Lts.AllSteps (Process.step (serve host)) (fun q a => ¬ KillPacket q a) p as)
    (hctrl : Lts.AllSteps (Process.step (serve host)) (fun q a => ¬ CtrlC q a) p as) :
    Lts.AllStates (Process.step (serve host))
      (fun q => q.state.machine.status = p.state.machine.status ∧ q.state.machine.status ≠ .running)
      p as := by
  have hkept : Lts.AllStates (Process.step (serve host))
      (fun q => q.state.machine.status = p.state.machine.status) p as := by
    refine Lts.AllStates.of_step ?_ rfl (hkill.and hctrl)
    intro q a hq hG
    have hkeep := serve_keepsTerminal host q a hG.1 hG.2
    exact (hkeep (hq ▸ hterminal)).trans hq
  refine hkept.mono fun q hq => ⟨hq, ?_⟩
  rw [hq]
  exact hterminal.ne_running

/-- The emulator, halted. -/
def haltedEmulator : RV32 (List Output) := { emulatorStart [] with status := .halted }

/-- Neither `c` nor `rv32_resume` resumes it. -/
theorem terminal_absorbing_emulator :
    Lts.AllStates (Process.step (serve emulatorHost))
      (fun q => q.state.machine.status = .halted ∧ q.state.machine.status ≠ .running)
      (stubStart haltedEmulator) (bytesOf "$c#63" ++ [.call .resume, .call .cycle]) := by
  have hrun := terminal_absorbing emulatorHost (stubStart haltedEmulator)
    (bytesOf "$c#63" ++ [.call .resume, .call .cycle])
  exact hrun (by decide) (by decide) (by decide)

/-- The byte 3 outside of a packet, and a resume after it, set any machine running. -/
theorem ctrlC_resume (m : RV32 σ) {r : RspReceiver} (hstate : r.state = .waitStart)
    (ind : Indeterminate) :
    (stubRun host { state := ⟨m, r⟩ } [.byte 3 ind, .call .resume]).state.machine.status = .running := by
  have hbyte : Process.step (serve host) { state := ⟨m, r⟩ } (.byte 3 ind) =
      { state := ⟨{ m with status := .paused }, r.clear⟩ } := by
    have hserve : serve host (.byte 3 ind) ⟨m, r⟩ =
        ⟨.ok (), ⟨{ m with status := .paused }, r.clear⟩, [.sent (rspFrame (cstr "S02"))]⟩ := by
      rw [serve, rspHandleByte_waitStart hstate, rspWaitStart_run]
      rfl
    rw [Process.step_of_ok (by rw [hserve]), hserve]
  rw [stubRun, Process.run, Lts.run_cons, hbyte]
  rfl

/-- A halted emulator runs again, with no kill packet in the stream. -/
theorem terminal_left_by_ctrlC :
    ¬ ∀ (p : Process (Stub (List Output))) (as : List StubAction), Terminal p.state.machine.status →
      Lts.AllSteps (Process.step (serve emulatorHost)) (fun q a => ¬ KillPacket q a) p as →
      Lts.AllStates (Process.step (serve emulatorHost))
        (fun q => q.state.machine.status ≠ .running) p as := by
  intro h
  have hlast := (h (stubStart haltedEmulator)
    [.byte 3 noIndeterminate, .call .resume] (by decide) (by decide)).last
  exact hlast (ctrlC_resume _ rfl _)

end Rv32
