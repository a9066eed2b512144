import Rv32.Rsp.Effect
import Rv32.Rsp.Main

/-!
# `Correctness.Continue` — `c` gets the machine going, or an answer

The main loop reports every status a cycle can stop with; `rsp_continue` answers with nothing and relies on
`rv32_resume`, which knows one of them, `RV32_PAUSED`. After any other stop a `c` packet leaves the machine
where it is and sends no stop reply. The debugger then waits for one, and the stub for a byte
(`wedged_rounds`).
-/

namespace Rv32

open Prog

variable {σ : Type} {host : Host σ} {t : Stub σ} {c : Byte} {ind : Indeterminate}

/-- The round handles a packet that starts with `c`. -/
def ContinuePacket (p : Process (Stub σ)) : MainInput → Prop
  | .idle       => False
  | .byte c ind => p.died = none ∧ CompletesPacket 'c' p.state c ind

instance (p : Process (Stub σ)) : (input : MainInput) → Decidable (ContinuePacket p input)
  | .idle     => instDecidableFalse
  | .byte _ _ => inferInstanceAs (Decidable (_ ∧ _))

/-- If the round handles a `c` packet, this leaves the machine running or sends a stop reply. -/
def ContinueAnswered (host : Host σ) (p : Process (Stub σ)) (input : MainInput) : Prop :=
  ContinuePacket p input →
    (Process.step (mainByte host) p input).state.machine.status = .running ∨
      ∃ signal, stopReply signal ∈ Process.emit (mainByte host) p input

/-- The statuses `rv32_resume` leaves running. -/
def Resumable (status : Rv32Status) : Prop := status = .paused ∨ status = .running

instance (status : Rv32Status) : Decidable (Resumable status) := inferInstanceAs (Decidable (_ ∨ _))

/-! ## One round -/

theorem rv32Resume_running_iff (s : RV32 σ) :
    (rv32Resume s).status = .running ↔ Resumable s.status := by
  unfold rv32Resume Resumable
  by_cases h : s.status = .paused
  · rw [if_pos h]
    exact iff_of_true rfl (.inl h)
  · rw [if_neg h]
    exact (or_iff_right h).symm

/-- **`c`.** The machine is resumed; the packet is acknowledged, and nothing more is sent. -/
theorem rspHandleByte_continue (host : Host σ) (h : CompletesPacket 'c' t c ind) :
    rspHandleByte host ind c t =
      ⟨.ok (), ⟨rv32Resume t.machine, t.receiver.finish c .noPacketSent⟩,
        [.sent [char '+'], .handled t.receiver.packet]⟩ := by
  obtain ⟨hstate, hdigit, hsum, hstarts⟩ := h
  rw [rspHandleByte_checksum2 hstate, rspChecksum2_accept hdigit hsum, rspHandlePacket_continue hstarts]
  rfl

/-- A stop reply is longer than an acknowledgement. -/
theorem stopReply_not_mem_ack (signal : RspSignal) (packet : List Byte) :
    stopReply signal ∉ [.sent [char '+'], .handled packet] := by
  rw [stopReply, List.mem_cons, List.mem_singleton]
  rintro (h | h)
  · have hlength := congrArg List.length (RspEvent.sent.inj h)
    cases signal <;> exact absurd hlength (by decide)
  · cases h

theorem continueAnswered_iff (p : Process (Stub σ)) (input : MainInput) :
    ContinueAnswered host p input ↔ (ContinuePacket p input → Resumable p.state.machine.status) := by
  apply imp_congr_right
  intro h
  cases input with
  | idle => exact h.elim
  | byte c ind =>
      obtain ⟨halive, hcompletes⟩ := h
      have hbyte := rspHandleByte_continue host hcompletes
      have hstatus : (Process.step (mainByte host) p (.byte c ind)).state.machine.status =
          (rv32Resume p.state.machine).status := by
        rw [Process.step, halive]
        simp only [mainByte, hbyte]
      have hemit : Process.emit (mainByte host) p (.byte c ind) =
          [.sent [char '+'], .handled p.state.receiver.packet] := by
        rw [Process.emit, halive]
        simp only [mainByte, hbyte]
      rw [hstatus, hemit, rv32Resume_running_iff]
      apply or_iff_left
      rintro ⟨signal, hreply⟩
      exact stopReply_not_mem_ack signal _ hreply

/-! ## Runs -/

/-- **Continue never wedges**, exactly when. In a run of the main loop from any state, every `c` packet
    leaves the machine running or is answered with a stop reply if and only if none is handled while the
    machine is stopped for another reason than a pause. -/
theorem continue_iff (host : Host σ) (p : Process (Stub σ)) (inputs : List MainInput) :
    Lts.AllSteps (Process.step (mainRound host)) (ContinueAnswered host) p inputs ↔
      Lts.AllSteps (Process.step (mainRound host))
        (fun q input => ContinuePacket q input → Resumable q.state.machine.status) p inputs :=
  Lts.allSteps_congr continueAnswered_iff

/-! ## Sessions that only pause -/

/-- A machine that can be resumed stays one. -/
def KeepsResumable (s t : RV32 σ) : Prop := Resumable s.status → Resumable t.status

instance : IsPreorder (RV32 σ) KeepsResumable where
  refl _ := id
  trans _ _ _ hst htu := htu ∘ hst

theorem keepsResumable_rspRel : RspRel (KeepsResumable (σ := σ)) where
  registers _ _ _ := id
  mem _ _ := id
  breakpoints _ _ _ := id
  resume s h := .inr ((rv32Resume_running_iff s).mpr h)

/-- The byte of a round pauses, resumes or resets the machine, and all three can be continued. -/
theorem mainByte_keepsResumable (host : Host σ) (input : MainInput) (t : Stub σ) :
    KeepsResumable t.machine (mainByte host input t).state.machine := by
  cases input with
  | idle => exact id
  | byte c ind =>
      apply rspHandleByte_within keepsResumable_rspRel
      · exact fun _ _ _ => .inl rfl
      · exact fun _ _ _ => .inl rfl

/-- If the round gets to a cycle, this goes on or stops at a breakpoint. -/
def CyclePauses (host : Host σ) (p : Process (Stub σ)) (input : MainInput) : Prop :=
  ∀ t, CyclesFrom host p input t → Resumable (rv32Cycle host t.machine).status

theorem mainRound_resumable {p : Process (Stub σ)} {input : MainInput}
    (hresumable : Resumable p.state.machine.status) (hpauses : CyclePauses host p input) :
    Resumable (Process.step (mainRound host) p input).state.machine.status := by
  obtain ⟨t, died⟩ := p
  cases died with
  | some msg => exact hresumable
  | none =>
      have hbyte := mainByte_keepsResumable host input t hresumable
      cases hvalue : (mainByte host input t).value with
      | error msg =>
          rw [Process.step, mainRound, run_bind_error hvalue]
          exact hbyte
      | ok _ =>
          by_cases hrunning : (mainByte host input t).state.machine.status = .running
          · have hcycles : CyclesFrom host ⟨t, none⟩ input (mainByte host input t).state :=
              ⟨rfl, hvalue, rfl, hrunning⟩
            rw [hcycles.step]
            exact hpauses _ hcycles
          · rw [Process.step, mainRound, run_bind_ok hvalue, mainCycle_of_stopped hrunning]
            exact hbyte

/-- **A session of breakpoints and Ctrl-C** never wedges: what the debugger sends can make no other stop. -/
theorem continue_answered_of_pauses {p : Process (Stub σ)} {inputs : List MainInput}
    (hresumable : Resumable p.state.machine.status)
    (hpauses : Lts.AllSteps (Process.step (mainRound host)) (CyclePauses host) p inputs) :
    Lts.AllSteps (Process.step (mainRound host)) (ContinueAnswered host) p inputs := by
  refine Lts.AllSteps.of_invariant (P := fun q => Resumable q.state.machine.status) ?_ ?_ hresumable hpauses
  · intro q input hq hpauses
    exact mainRound_resumable hq hpauses
  · intro q input hq
    exact (continueAnswered_iff q input).mpr fun _ => hq

/-! ## The wedge -/

/-- **The wedge.** While no byte comes, the rounds of a stopped machine do nothing. -/
theorem wedged_rounds {p : Process (Stub σ)} (halive : p.died = none)
    (hstopped : p.state.machine.status ≠ .running) (n : Nat) :
    Process.Runs (mainRound host) p (List.replicate n .idle) p [] := by
  obtain ⟨t, _⟩ := p
  obtain rfl := halive
  have hbyte : mainByte host .idle t = ⟨.ok (), t, []⟩ := rfl
  have hround : mainRound host .idle t = ⟨.ok (), t, []⟩ := by
    rw [mainRound, run_bind_ok (by rw [hbyte]), hbyte, mainCycle_of_stopped hstopped]
    rfl
  induction n with
  | zero => exact Process.Runs.nil _
  | succ n ih => exact (Process.Runs.single_ok hround).append ih

/-- A machine of the stub, running at an `ebreak`. -/
def ebreakStub : RV32 (List Output) :=
  { boot zeroStorage 0x10000 (imageOf [0x00100073]) with status := .running }

/-- The bytes of a text, one for each round. -/
def roundsOf (text : String) : List MainInput := (cstr text).map fun c => .byte c noIndeterminate

/-- The session in which the `ebreak` is reported, and the debugger sends `c`. -/
def continueSession : Process (Stub (List Output)) :=
  Process.run (mainRound stubHost) (stubStart ebreakStub) (.idle :: roundsOf "$c#63")

/-- The machine stays stopped, and however long the two wait, no reply is sent. -/
theorem continue_wedges :
    Process.emit (mainRound stubHost) (stubStart ebreakStub) .idle = [stopReply .sigtrap] ∧
      continueSession.state.machine.status = .ebreak ∧
      (∀ n, Process.sent (mainRound stubHost) continueSession (List.replicate n .idle) = []) ∧
      ¬ Lts.AllSteps (Process.step (mainRound stubHost)) (ContinueAnswered stubHost)
        (stubStart ebreakStub) (.idle :: roundsOf "$c#63") := by
  have hstatus : continueSession.state.machine.status = .ebreak := by decide
  have hstopped : continueSession.state.machine.status ≠ .running := by
    rw [hstatus]
    exact Rv32Status.noConfusion
  refine ⟨by decide, hstatus, ?_, ?_⟩
  · intro n
    exact (wedged_rounds (by decide) hstopped n).sent
  · rw [Lts.allSteps_congr continueAnswered_iff]
    decide

end Rv32
