import Rv32.Core.Emulator
import Rv32.Rsp.Receiver

/-!
# `Rsp.Main` — the main loop of the stub

One round of the loop in `main` takes a byte from the debugger if there is one, and then, if the machine
runs, calls `rv32_cycle` and reports a stop. A stopped machine with no byte at hand waits in `fgetc`, which
is a round that does nothing; the end of the input leaves the loop, which is the end of the rounds. Any
interleaving of bytes and cycles the loop can produce is a list of rounds.
-/

namespace Rv32

open Prog

variable {σ : Type} (host : Host σ)

/-- The host of `main.c`: the callbacks are those of `emulator.c`, and its `ecall` knows one call. -/
def stubHost : Host (List Output) :=
  { emulatorHost with
    ecall := fun s => if s.r regA7 = 93 then { s with status := .halted } else s }

/-- A machine of the stub that runs on whatever its debugger does. -/
def busyStart : RV32 (List Output) := emulatorStart (List.replicate 16 0x00000013)

/-- What a round finds on the standard input. -/
inductive MainInput where
  | idle
  | byte (c : Byte) (ind : Indeterminate)

/-- `rsp_handle_byte(rv32, c);`, if there is a byte. -/
def mainByte : MainInput → StubProg σ Unit
  | .idle       => pure ()
  | .byte c ind => rspHandleByte host ind c

/-- The `switch` behind `rv32_cycle`. -/
def mainReport : Rv32Status → StubProg σ Unit
  | .running             => pure ()
  | .invalidMemoryAccess => rspReportSignal .sigsegv
  | .invalidInstruction  => do
      rspReportSignal .sigill
      -- there is no `break` before the `default`
      rspReportSignal .sigtrap
  | .halted | .paused | .ebreak => rspReportSignal .sigtrap

/-- `if(rv32->status == RV32_RUNNING)`, with its body. -/
def mainCycle : StubProg σ Unit := do
  let t ← getState
  if t.machine.status = .running then do
    setMachine (rv32Cycle host)
    let t ← getState
    mainReport t.machine.status
  else pure ()

/-- One round of the loop. -/
def mainRound (input : MainInput) : StubProg σ Unit := do
  mainByte host input
  mainCycle host

/-! ## The reports -/

/-- The frame of a stop reply. -/
def stopReply (signal : RspSignal) : RspEvent := .sent (rspFrame (cstr signal.text))

/-- What the `switch` sends. -/
def stopReplies : Rv32Status → List RspEvent
  | .running                    => []
  | .invalidMemoryAccess        => [stopReply .sigsegv]
  | .invalidInstruction         => [stopReply .sigill, stopReply .sigtrap]
  | .halted | .paused | .ebreak => [stopReply .sigtrap]

theorem mainReport_run (status : Rv32Status) (t : Stub σ) :
    mainReport status t = ⟨.ok (), t, stopReplies status⟩ := by
  cases status with
  | running => rfl
  | invalidInstruction =>
      rw [mainReport, run_bind_ok (a := ()) (by rw [rspReportSignal_run]), rspReportSignal_run,
        rspReportSignal_run]
      rfl
  | invalidMemoryAccess => exact rspReportSignal_run .sigsegv t
  | halted => exact rspReportSignal_run .sigtrap t
  | paused => exact rspReportSignal_run .sigtrap t
  | ebreak => exact rspReportSignal_run .sigtrap t

variable {host}

/-- **The second half of a round** of a machine that runs: a cycle, and what there is to report of it. -/
theorem mainCycle_run {t : Stub σ} (hrunning : t.machine.status = .running) :
    mainCycle host t =
      ⟨.ok (), { t with machine := rv32Cycle host t.machine },
        stopReplies (rv32Cycle host t.machine).status⟩ := by
  rw [mainCycle, run_get_bind, if_pos hrunning, setMachine, run_modify_bind, run_get_bind, mainReport_run]

/-- A machine that does not run is left alone. -/
theorem mainCycle_of_stopped {t : Stub σ} (hstopped : t.machine.status ≠ .running) :
    mainCycle host t = ⟨.ok (), t, []⟩ := by
  rw [mainCycle, run_get_bind, if_neg hstopped]
  rfl

/-- A round that gets past its byte to a cycle. -/
structure CyclesFrom (host : Host σ) (p : Process (Stub σ)) (input : MainInput) (t : Stub σ) : Prop where
  alive : p.died = none
  returned : (mainByte host input p.state).value = .ok ()
  state : (mainByte host input p.state).state = t
  running : t.machine.status = .running

theorem CyclesFrom.emit {p : Process (Stub σ)} {input : MainInput} {t : Stub σ}
    (h : CyclesFrom host p input t) :
    Process.emit (mainRound host) p input =
      Process.emit (mainByte host) p input ++ stopReplies (rv32Cycle host t.machine).status := by
  simp only [Process.emit, h.alive]
  rw [mainRound, run_bind_ok h.returned, h.state, mainCycle_run h.running]

theorem CyclesFrom.step {p : Process (Stub σ)} {input : MainInput} {t : Stub σ}
    (h : CyclesFrom host p input t) :
    Process.step (mainRound host) p input =
      { state := { t with machine := rv32Cycle host t.machine } } := by
  have hround : mainRound host input p.state =
      ⟨.ok (), { t with machine := rv32Cycle host t.machine },
        (mainByte host input p.state).out ++ stopReplies (rv32Cycle host t.machine).status⟩ := by
    rw [mainRound, run_bind_ok h.returned, h.state, mainCycle_run h.running]
  simp only [Process.step, h.alive, hround]

end Rv32
