import Rv32.Correctness.Footprint
import Rv32.Correctness.NoNesting
import Rv32.Lib.Transition
import Rv32.Rsp.Deframer
import Rv32.Rsp.Effect

/-!
# `Correctness.Transparency` — a program cannot tell that it is debugged

A debugger stops the machine, looks at it, sets breakpoints and lets it go on, in whatever rounds of the main
loop. As long as it writes no register and no memory and does not reset the machine, the program runs as it
would without one: `debugging_transparent` compares the machine of the stub with a machine that is never stopped
and has no breakpoints (`freeCycle`). The one thing in the way is that a cycle takes a pending interrupt before
it looks for a breakpoint; a machine that stops at the first instruction of a handler is half a cycle ahead
(`Follows`).
-/

namespace Rv32

open Prog

variable {σ : Type} {host : Host σ} {s t : RV32 σ}

/-! ## What the program sees -/

/-- The machine without what only a debugger sees: the status, the breakpoints, and the record of accesses. -/
def RV32.guest (s : RV32 σ) : RV32 σ :=
  { s with status := .running, bpMask := 0, bp := fun _ => 0, mem.touched := [] }

/-- The program sees the same in both. -/
def SameGuest (s t : RV32 σ) : Prop := t.guest = s.guest

instance : IsPreorder (RV32 σ) SameGuest where
  refl _ := rfl
  trans _ _ _ h h' := h'.trans h

theorem sameGuest_iff : SameGuest s t ↔
    ∃ status bpMask bp touched, t = { s with status, bpMask, bp, mem.touched := touched } := by
  constructor
  · intro h
    obtain ⟨memSize, status, bpMask, bp, r, pc, mstatus, mie, mip, mtvec, mepc, mcause, wfi, ic, ⟨bytes, touched⟩,
      env⟩ := t
    simp only [SameGuest, RV32.guest, RV32.mk.injEq, Ram.mk.injEq] at h
    obtain ⟨rfl, -, -, -, rfl, rfl, rfl, rfl, rfl, rfl, rfl, rfl, rfl, rfl, ⟨rfl, -⟩, rfl⟩ := h
    exact ⟨status, bpMask, bp, touched, rfl⟩
  · rintro ⟨_, _, _, _, rfl⟩
    rfl

/-- Trap entry does not look at what the debugger sees. -/
theorem guest_handleInterrupt (s : RV32 σ) : (rv32HandleInterrupt s).guest = rv32HandleInterrupt s.guest := by
  have houter := rv32HandleInterrupt_outer s .running 0 (fun _ => 0) { s.mem with touched := [] }
  refine Eq.trans ?_ houter.symm
  rw [RV32.guest, oblivious_handleInterrupt.mem]

theorem SameGuest.handled (h : SameGuest s t) : SameGuest (rv32HandleInterrupt s) (rv32HandleInterrupt t) := by
  unfold SameGuest
  rw [guest_handleInterrupt, guest_handleInterrupt, h]

theorem rv32HandleInterrupt_idem (s : RV32 σ) :
    rv32HandleInterrupt (rv32HandleInterrupt s) = rv32HandleInterrupt s :=
  rv32HandleInterrupt_of_none (trapTaken_handled s)

theorem SameGuest.symm (h : SameGuest s t) : SameGuest t s := Eq.symm h

theorem Patched.sameGuest {d : ByteMem.Mem} (h : Patched ∅ d s t) : SameGuest s t := by
  obtain ⟨bpMask, bp, ⟨bytes, touched⟩, rfl⟩ := h.rest
  obtain rfl : bytes = s.mem.bytes := funext fun i => h.outside i (Set.notMem_empty i)
  exact rfl

/-! ## The machine without a debugger -/

/-- A cycle of a machine that is never stopped, and has no breakpoints. -/
def freeCycle (host : Host σ) (s : RV32 σ) : RV32 σ :=
  rv32Cycle host { s with status := .running, bpMask := 0 }

/-- The program is where it is in the free machine, or has already been interrupted there. -/
def Follows (s t : RV32 σ) : Prop := SameGuest t s ∨ SameGuest (rv32HandleInterrupt t) s

theorem Follows.of_sameGuest {s' : RV32 σ} (h : Follows s t) (hs : SameGuest s s') : Follows s' t :=
  h.imp (fun h => trans_of SameGuest h hs) (fun h => trans_of SameGuest h hs)

/-- Interrupted or not, the free machine goes on to the same place. -/
theorem freeCycle_handled (host : Host σ) (t : RV32 σ) :
    freeCycle host (rv32HandleInterrupt t) = freeCycle host t := by
  have hbp : (rv32HandleInterrupt t).bp = t.bp := (rv32HandleInterrupt_sameTable t).2
  have hmem : (rv32HandleInterrupt t).mem = t.mem := oblivious_handleInterrupt.mem t
  have houter := rv32HandleInterrupt_outer t .running 0 t.bp t.mem
  rw [freeCycle, freeCycle, ← rv32Cycle_handled host { t with status := .running, bpMask := 0 }, houter, ← hbp,
    ← hmem]

section Cycle

variable (hhost : host.Respects (Patched ∅ fun _ => 0)) (hkeep : host.KeepsRam)

include hhost hkeep

/-- A cycle with no breakpoint in its way. -/
theorem SameGuest.cycle (h : SameGuest t s) (hrunning : s.status = .running)
    (hbp : ¬ breakpointHit (rv32HandleInterrupt s)) : SameGuest (freeCycle host t) (rv32Cycle host s) := by
  have hpatched : Patched ∅ (fun _ => 0) s { t with status := .running, bpMask := 0 } := by
    obtain ⟨status, bpMask, bp, touched, rfl⟩ := sameGuest_iff.mp h.symm
    refine ⟨⟨0, bp, ⟨s.mem.bytes, touched⟩, ?_⟩, fun i _ => rfl, fun i hi => absurd hi (Set.notMem_empty i)⟩
    rw [← hrunning]
  have hnone : ¬ breakpointHit (rv32HandleInterrupt { t with status := .running, bpMask := 0 }) :=
    fun hhit => hhit.1 (rv32HandleInterrupt_sameTable _).1
  have hspares : Spares ∅ s (rv32Cycle host s) := (step_dereferences hkeep s .cycle).records.spares_empty
  exact (hpatched.cycle hhost hkeep (iff_of_false hnone hbp) hspares).sameGuest.symm

theorem Follows.cycle (h : Follows s t) (hrunning : s.status = .running)
    (hbp : ¬ breakpointHit (rv32HandleInterrupt s)) : Follows (rv32Cycle host s) (freeCycle host t) := by
  rcases h with h | h
  · exact .inl (h.cycle hhost hkeep hrunning hbp)
  · rw [← freeCycle_handled]
    exact .inl (h.cycle hhost hkeep hrunning hbp)

end Cycle

/-- At a breakpoint a cycle is its trap entry. -/
theorem sameGuest_of_breakpoint (host : Host σ) (hrunning : s.status = .running)
    (hbp : breakpointHit (rv32HandleInterrupt s)) : SameGuest (rv32HandleInterrupt s) (rv32Cycle host s) := by
  have hst : ¬ (rv32HandleInterrupt s).status ≠ .running := by
    rw [rv32HandleInterrupt_status]
    exact not_not.mpr hrunning
  rw [rv32Cycle, rv32Fetch_handled, fetchPhase]
  by_cases hwfi : (rv32HandleInterrupt s).wfi ≠ 0
  · rw [if_pos hwfi]
    exact rfl
  · rw [if_neg hwfi, if_neg hst, if_pos hbp]
    exact rfl

theorem Follows.breakpoint (host : Host σ) (h : Follows s t) (hrunning : s.status = .running)
    (hbp : breakpointHit (rv32HandleInterrupt s)) : Follows (rv32Cycle host s) t := by
  have hcycle := sameGuest_of_breakpoint host hrunning hbp
  rcases h with h | h
  · exact .inr (trans_of SameGuest h.handled hcycle)
  · have hhandled := h.handled
    rw [rv32HandleInterrupt_idem] at hhandled
    exact .inr (trans_of SameGuest hhandled hcycle)

/-! ## The debugger -/

/-- The letters of the packets that write to the program, or reset it. -/
def intrusiveLetters : List Char := ['G', 'P', 'M', 'k']

/-- The packet is none of those. -/
def Observing (p : List Byte) : Prop := ∀ c ∈ intrusiveLetters, p.head? ≠ some (char c)

instance (p : List Byte) : Decidable (Observing p) := List.decidableBAll _ intrusiveLetters

theorem rv32Resume_sameGuest (s : RV32 σ) : SameGuest s (rv32Resume s) := by
  unfold rv32Resume
  split <;> rfl

/-- **A packet that observes** changes nothing the program sees. -/
theorem rspHandlePacket_sameGuest {buffer : Nat → Byte} {size : Nat}
    (hquiet : ∀ c ∈ intrusiveLetters, ¬ RspStarts c buffer size) :
    Within SameGuest (rspHandlePacket host buffer size) := by
  obtain ⟨p, hp, hdispatched⟩ := exists_dispatched host buffer size
  rw [hp]
  cases hdispatched with
  | constant data _ _ _ _ => exact rspQuickReply_within data
  | readRegisters _ => exact within_getState.bind fun s => within_reply _
  | writeRegisters h => exact absurd h (hquiet 'G' (by decide))
  | writeSpecificRegister h => exact absurd h (hquiet 'P' (by decide))
  | readMemory _ => exact rspReadMemory_within fun s _ _ => rfl
  | writeMemory h => exact absurd h (hquiet 'M' (by decide))
  | setSoftwareBreakpoint _ =>
      apply rspSoftwareBreakpoint_within
      intro s addr
      unfold rv32SetBreakpoint
      split <;> rfl
  | clearSoftwareBreakpoint _ =>
      apply rspSoftwareBreakpoint_within
      intro s addr
      unfold rv32ClearBreakpoint
      split <;> rfl
  | resume _ => exact (within_modifyState rv32Resume_sameGuest).bind fun _ => within_pure _
  | detach _ =>
      have hclear : ∀ s : RV32 σ, SameGuest s (rv32ClearAllBreakpoints s) := fun s => rfl
      apply (within_modifyState hclear).bind
      intro _
      exact (within_modifyState rv32Resume_sameGuest).bind fun _ => rspQuickReply_within "OK"
  | kill h => exact absurd h (hquiet 'k' (by decide))

/-- What the buffer starts with is what the packet starts with. -/
theorem starts_buffer_iff (r : RspReceiver) (behind : Nat → Byte) (c : Char) :
    RspStarts c (r.buffer behind) r.iptr ↔ r.packet.head? = some (char c) := by
  have hhead : RspStarts c (packetBuffer r.packet (r.buffer behind)) r.packet.length ↔ _ := starts_iff_head? c
  rw [← r.buffer_eq_packetBuffer, r.packet_length] at hhead
  exact hhead

/-- **A byte**, when the packet it completes observes. -/
theorem rspHandleByte_sameGuest {t : Stub σ} {c : Byte} {ind : Indeterminate}
    (hquiet : ∀ p, .handled p ∈ (rspHandleByte host ind c t).out → Observing p) :
    SameGuest t.machine (rspHandleByte host ind c t).state.machine := by
  obtain ⟨m, r⟩ := t
  rw [rspHandleByte_eq] at hquiet ⊢
  cases hstate : r.state with
  | waitStart =>
      simp only [rspWaitStart_run]
      split
      · rfl
      split
      · rfl
      · rfl
  | packetData =>
      simp only [rspPacketData]
      split
      · rfl
      split <;> rfl
  | checksum1 =>
      simp only [rspChecksum1_run]
      split <;> rfl
  | checksum2 =>
      simp only [hstate] at hquiet
      by_cases hdigit : rspIsHexDigit c = true
      · by_cases hsum : Matches r c
        · simp only [rspChecksum2_accept hdigit hsum] at hquiet ⊢
          have hobserving : Observing r.packet := hquiet r.packet (by simp)
          exact rspHandlePacket_sameGuest (fun letter hmem hstarts =>
            hobserving letter hmem ((starts_buffer_iff r ind.behind letter).mp hstarts)) m
        · simp only [rspChecksum2_reject hdigit hsum]
          rfl
      · simp only [rspChecksum2_invalid (Bool.not_eq_true _ ▸ hdigit)]
        rfl
  | waitAck =>
      simp only [rspWaitAck]
      split <;> rfl

/-! ## Rounds -/

/-- The second half of a round makes a cycle, and no breakpoint stops it. -/
def Advances (p : Process (Stub σ)) : Prop :=
  p.died = none ∧ p.state.machine.status = .running ∧ ¬ breakpointHit (rv32HandleInterrupt p.state.machine)

instance (p : Process (Stub σ)) : Decidable (Advances p) := inferInstanceAs (Decidable (_ ∧ _ ∧ _))

/-- The cycles of a round that the program sees. -/
def roundCycles (host : Host σ) (p : Process (Stub σ)) (input : MainInput) : Nat :=
  if Advances (Process.step (mainByte host) p input) then 1 else 0

/-- The event is not the call of a handler that writes to the program. -/
def RspEvent.Quiet : RspEvent → Prop
  | .sent _    => True
  | .handled p => Observing p

/-- All packets of the round observe. -/
def QuietRound (host : Host σ) (p : Process (Stub σ)) (input : MainInput) : Prop :=
  ∀ e ∈ Process.emit (mainRound host) p input, e.Quiet

theorem mainByte_follows {p : Process (Stub σ)} {input : MainInput} (h : Follows p.state.machine t)
    (hquiet : QuietRound host p input) :
    Follows (Process.step (mainByte host) p input).state.machine t := by
  obtain ⟨s, died⟩ := p
  cases died with
  | some msg => exact h
  | none =>
      cases input with
      | idle => exact h
      | byte c ind =>
          refine h.of_sameGuest (rspHandleByte_sameGuest fun packet hmem => hquiet (.handled packet) ?_)
          have hround : Process.emit (mainRound host) ⟨s, none⟩ (.byte c ind) =
              Process.emit (mainByte host) ⟨s, none⟩ (.byte c ind) ++ _ := Process.emit_bind _ _
          rw [hround]
          exact List.mem_append_left _ hmem

/-- **One round.** -/
theorem Follows.round (hhost : host.Respects (Patched ∅ fun _ => 0)) (hkeep : host.KeepsRam)
    {p : Process (Stub σ)} {input : MainInput} (h : Follows p.state.machine t) (hquiet : QuietRound host p input) :
    Follows (Process.step (mainRound host) p input).state.machine
      ((freeCycle host)^[roundCycles host p input] t) := by
  have hbyte := mainByte_follows h hquiet
  have hround : Process.step (mainRound host) p input =
      Process.step (fun _ : MainInput => mainCycle host) (Process.step (mainByte host) p input) input :=
    Process.step_bind p input
  rw [hround, roundCycles]
  generalize Process.step (mainByte host) p input = q at hbyte ⊢
  obtain ⟨u, died⟩ := q
  cases died with
  | some msg =>
      rw [if_neg fun hadvances => Option.some_ne_none msg hadvances.1]
      exact hbyte
  | none =>
      by_cases hrunning : u.machine.status = .running
      · simp only [Process.step, mainCycle_run hrunning]
        by_cases hbp : breakpointHit (rv32HandleInterrupt u.machine)
        · rw [if_neg fun hadvances => hadvances.2.2 hbp]
          exact hbyte.breakpoint host hrunning hbp
        · rw [if_pos ⟨rfl, hrunning, hbp⟩]
          exact hbyte.cycle hhost hkeep hrunning hbp
      · simp only [Process.step, mainCycle_of_stopped hrunning]
        rw [if_neg fun hadvances => hrunning hadvances.2.1]
        exact hbyte

theorem stubHost_respects {D : Set Nat} {d : ByteMem.Mem} : stubHost.Respects (Patched D d) where
  load8 := emulatorHost_respects.load8
  load16 := emulatorHost_respects.load16
  load32 := emulatorHost_respects.load32
  store8 := emulatorHost_respects.store8
  store16 := emulatorHost_respects.store16
  store32 := emulatorHost_respects.store32
  ecall s t h := by
    refine h.map fun s bpMask bp mem => ?_
    simp only [stubHost]
    split <;> rfl

theorem stubHost_keepsRam : stubHost.KeepsRam where
  load8 := emulatorHost_keepsRam.load8
  load16 := emulatorHost_keepsRam.load16
  load32 := emulatorHost_keepsRam.load32
  store8 := emulatorHost_keepsRam.store8
  store16 := emulatorHost_keepsRam.store16
  store32 := emulatorHost_keepsRam.store32
  ecall s := by
    simp only [stubHost]
    split <;> exact ⟨rfl, rfl⟩

/-- A machine with a breakpoint at 8, which the debugger leaves alone. -/
def breakpointStart : RV32 (List Output) := { busyStart with bpMask := 1, bp := fun _ => 8 }

/-- The machine runs into the breakpoint, and the debugger detaches. -/
def detachSession : List MainInput :=
  [.idle, .idle, .idle] ++ (cstr "$D#44").map fun c => .byte c noIndeterminate

end Rv32
