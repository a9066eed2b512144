import Rv32.Rsp.Receiver

/-!
# `Rsp.Effect` — what a packet can do to the machine

`RspRel R` says that a preorder `R` contains the primitive effects of the handlers. `rspHandlePacket` is
then within `R`, whether it returns or dies on the way; only `k`, which resets the machine, has to be
asked for, and for a byte (`rspHandleByte_within`) also the byte 3, which pauses it. This is to the
debugger what `StepRel` is to the instructions.
-/

namespace Rv32

open Prog

variable {σ : Type} {host : Host σ} {buffer : Nat → Byte} {size : Nat} {R : RV32 σ → RV32 σ → Prop}

/-- The machines differ in their ghost state at most. -/
def SameMachine (s t : RV32 σ) : Prop := ∃ touched, t = { s with mem.touched := touched }

theorem SameMachine.symm {s t : RV32 σ} (h : SameMachine s t) : SameMachine t s := by
  obtain ⟨touched, rfl⟩ := h
  exact ⟨s.mem.touched, rfl⟩

instance : IsPreorder (RV32 σ) SameMachine where
  refl s := ⟨s.mem.touched, rfl⟩
  trans s t u hst htu := by
    obtain ⟨_, rfl⟩ := hst
    obtain ⟨touched, rfl⟩ := htu
    exact ⟨touched, rfl⟩

theorem sameMachine_touch (s : RV32 σ) (addr : Word) (n : Nat) : SameMachine s (s.touch addr n) :=
  ⟨_, rfl⟩

/-- `R` contains every effect a handler other than that of `k` is made of. -/
structure RspRel (R : RV32 σ → RV32 σ → Prop) : Prop where
  registers : ∀ s r pc, R s { s with r, pc }
  mem : ∀ s mem, R s { s with mem }
  breakpoints : ∀ s bpMask bp, R s { s with bpMask, bp }
  resume : ∀ s, R s (rv32Resume s)

variable [IsPreorder (RV32 σ) R]

theorem rspQuickReply_within (data : String) : Within R (rspQuickReply data : RspHandler σ) :=
  within_reply _

section Registers

variable (hregisters : ∀ (s : RV32 σ) r pc, R s { s with r, pc })

include hregisters

theorem rspAssignRegister_within (reg : Byte) (val : Word) :
    Within R (rspAssignRegister reg val) := by
  refine Within.ite (within_fatal _) (Within.ite ?_ ?_)
  · exact within_modifyState fun s => hregisters s s.r val
  · exact within_modifyState fun s => hregisters s _ s.pc

theorem rspWriteRegisters_within : Within R (rspWriteRegisters buffer size) := by
  refine (within_attempt _).bind ?_
  intro _
  apply (within_loop (within_assign fun i v s => hregisters s _ s.pc) 0 32 ()).bind
  intro _
  refine (within_attempt _).bind ?_
  intro v
  exact (within_modifyState fun s => hregisters s s.r v).bind fun _ => rspQuickReply_within ""

theorem rspWriteSpecificRegister_within : Within R (rspWriteSpecificRegister buffer size) := by
  refine (within_attempt _).bind ?_
  intro _
  refine (within_attempt _).bind ?_
  intro reg
  refine (within_attempt _).bind ?_
  intro val
  exact (rspAssignRegister_within hregisters reg val).bind fun _ => rspQuickReply_within "OK"

end Registers

theorem rspReadByte_within (htouch : ∀ s addr n, R s (s.touch addr n)) (args : MemoryArgs) (i : Nat)
    (p : RspPacket) : Within R (rspReadByte args i p) := by
  refine within_getState.bind ?_
  intro s
  exact (within_modifyState fun s => htouch s _ _).bind fun _ => within_attempt _

/-- `m` only reads. -/
theorem rspReadMemory_within (htouch : ∀ s addr n, R s (s.touch addr n)) :
    Within R (rspReadMemory buffer size) := by
  refine (within_attempt _).bind ?_
  intro args
  refine within_getState.bind ?_
  intro s
  refine Within.ite (rspQuickReply_within "") ?_
  exact (within_loop (rspReadByte_within htouch args) _ _ _).bind fun p => within_reply _

theorem rspWriteMemory_within (hmem : ∀ (s : RV32 σ) mem, R s { s with mem }) :
    Within R (rspWriteMemory host buffer size) := by
  refine (within_attempt _).bind ?_
  intro args
  refine within_getState.bind ?_
  intro s
  refine Within.ite (rspQuickReply_within "") ?_
  apply (within_loop (within_assign fun i v s => hmem s _) _ _ _).bind
  intro _
  exact rspQuickReply_within ""

theorem rspSoftwareBreakpoint_within {call : RV32 σ → Word → Bool × RV32 σ}
    (hcall : ∀ s addr, R s (call s addr).2) : Within R (rspSoftwareBreakpoint call buffer size) := by
  refine (within_attempt _).bind ?_
  intro addr
  refine within_getState.bind ?_
  intro s
  apply (within_modifyState fun s => hcall s addr).bind
  intro _
  exact Within.ite (rspQuickReply_within "OK") (rspQuickReply_within "")

/-- **A packet is within any preorder that contains the primitive effects**, provided the reset is, when
    it is `k`. -/
theorem rspHandlePacket_within (hR : RspRel R)
    (hkill : RspStarts 'k' buffer size → ∀ s, R s (rv32Reset s)) :
    Within R (rspHandlePacket host buffer size) := by
  obtain ⟨p, hp, hdispatched⟩ := exists_dispatched host buffer size
  rw [hp]
  cases hdispatched with
  | constant data _ _ _ _ => exact rspQuickReply_within data
  | readRegisters _ => exact within_getState.bind fun s => within_reply _
  | writeRegisters _ => exact rspWriteRegisters_within hR.registers
  | writeSpecificRegister _ => exact rspWriteSpecificRegister_within hR.registers
  | readMemory _ => exact rspReadMemory_within fun s _ _ => hR.mem s _
  | writeMemory _ => exact rspWriteMemory_within hR.mem
  | setSoftwareBreakpoint _ =>
      apply rspSoftwareBreakpoint_within
      intro s addr
      unfold rv32SetBreakpoint
      split
      · exact hR.breakpoints s _ _
      · exact refl_of R s
  | clearSoftwareBreakpoint _ =>
      apply rspSoftwareBreakpoint_within
      intro s addr
      unfold rv32ClearBreakpoint
      split
      · exact hR.breakpoints s _ _
      · exact refl_of R s
  | resume _ => exact (within_modifyState hR.resume).bind fun _ => within_pure _
  | detach _ =>
      apply (within_modifyState fun s => hR.breakpoints s _ _).bind
      intro _
      exact (within_modifyState hR.resume).bind fun _ => rspQuickReply_within "OK"
  | kill h => exact (within_modifyState (hkill h)).bind fun _ => within_pure _

/-- The byte completes a packet that starts with `letter`. -/
def CompletesPacket (letter : Char) (t : Stub σ) (c : Byte) (ind : Indeterminate) : Prop :=
  t.receiver.state = .checksum2 ∧ rspIsHexDigit c = true ∧ Matches t.receiver c ∧
    RspStarts letter (t.receiver.buffer ind.behind) t.receiver.iptr

instance (letter : Char) (t : Stub σ) (c : Byte) (ind : Indeterminate) :
    Decidable (CompletesPacket letter t c ind) := inferInstanceAs (Decidable (_ ∧ _))

/-- **A byte**, likewise. Outside of a packet the byte 3 pauses the machine. -/
theorem rspHandleByte_within (hR : RspRel R) (t : Stub σ) (c : Byte) (ind : Indeterminate)
    (hctrlC : t.receiver.state = .waitStart → c = 3 → R t.machine { t.machine with status := .paused })
    (hkill : CompletesPacket 'k' t c ind → ∀ s, R s (rv32Reset s)) :
    R t.machine (rspHandleByte host ind c t).state.machine := by
  obtain ⟨m, r⟩ := t
  rw [rspHandleByte_eq]
  cases hstate : r.state with
  | waitStart =>
      simp only [rspWaitStart_run]
      split
      · exact refl_of R m
      split
      · rename_i hc
        exact hctrlC hstate hc
      · exact refl_of R m
  | packetData =>
      simp only [rspPacketData]
      split
      · exact refl_of R m
      split <;> exact refl_of R m
  | checksum1 =>
      simp only [rspChecksum1_run]
      split <;> exact refl_of R m
  | checksum2 =>
      by_cases hdigit : rspIsHexDigit c = true
      · by_cases hsum : Matches r c
        · simp only [rspChecksum2_accept hdigit hsum]
          exact rspHandlePacket_within hR (fun hk => hkill ⟨hstate, hdigit, hsum, hk⟩) m
        · simp only [rspChecksum2_reject hdigit hsum]
          exact refl_of R m
      · simp only [rspChecksum2_invalid (Bool.not_eq_true _ ▸ hdigit)]
        exact refl_of R m
  | waitAck =>
      simp only [rspWaitAck]
      split <;> exact refl_of R m

end Rv32
