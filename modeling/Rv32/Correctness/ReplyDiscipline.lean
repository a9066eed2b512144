import Rv32.Core.Emulator
import Rv32.Rsp.Receiver

/-!
# `Correctness.ReplyDiscipline` — one valid frame for each packet, or none

Every handler that returns either ends in the one call of `rsp_packet_send` it makes, or is `rsp_continue`
or `rsp_kill` and sends nothing. Whatever is sent was begun, filled and ended by the builder, and it was
filled with hex digits or with escaped text, so the delimiters stand at the ends only.
-/

namespace Rv32

open Prog

variable {σ : Type} {host : Host σ} {buffer : Nat → Byte} {size : Nat}

/-- A frame of the protocol: `$`, a payload without delimiters, `#`, and the sum of the payload in two
    lowercase hex digits; it fits into the buffer with the NUL behind it. -/
def ValidFrame (text : List Byte) : Prop :=
  ∃ payload d1 d2, text = char '$' :: payload ++ [char '#', d1, d2] ∧
    (∀ d ∈ payload, d ≠ char '#' ∧ d ≠ char '$') ∧
    d1 ∈ rspDigits ∧ d2 ∈ rspDigits ∧ hexByte d1 d2 = payload.sum ∧ text.length ≤ 1023

/-- The reply of a handler that sends. -/
def SendsFrame (handlerResult : RspHandlerResult) (text : List Byte) : Prop :=
  handlerResult = .packetSent ∧ ValidFrame text

/-! ## What the builder sends -/

theorem validFrame_rspFrame {payload : List Byte} (h : ∀ d ∈ payload, d ≠ char '#' ∧ d ≠ char '$')
    (hlen : payload.length + 5 ≤ rspBufferSize) : ValidFrame (rspFrame payload) := by
  refine ⟨payload, _, _, rfl, h, hexDigit_mem _, hexDigit_mem _, hexByte_digits _, ?_⟩
  rw [rspFrame_length]
  rw [rspBufferSize] at hlen
  omega

theorem rspPacketFrame_sends {payload : List Byte}
    (h : ∀ d ∈ payload, d ≠ 0 ∧ d ≠ char '#' ∧ d ≠ char '$') {handlerResult : RspHandlerResult}
    {text : List Byte} (hframe : rspPacketFrame payload = .ok (handlerResult, text)) :
    SendsFrame handlerResult text := by
  rw [rspPacketFrame_eq fun d hd => (h d hd).1] at hframe
  split at hframe
  · rename_i hlen
    obtain ⟨rfl, rfl⟩ := Prod.mk.inj (Except.ok.inj hframe)
    exact ⟨rfl, validFrame_rspFrame (fun d hd => (h d hd).2) hlen⟩
  · cases hframe

theorem rspQuickReply_sends {data : String} (h : data ∈ rspAnswers) :
    Replies SendsFrame (rspQuickReply data : RspHandler σ) := by
  obtain ⟨-, hlen, hbytes⟩ := rspAnswers_payload data h
  intro s handlerResult hvalue
  rw [rspQuickReply_run h] at hvalue ⊢
  obtain rfl := Except.ok.inj hvalue
  refine ⟨_, rfl, rfl, validFrame_rspFrame (fun d hd => (hbytes d hd).2) ?_⟩
  exact Nat.le_trans (Nat.add_le_add_right hlen 5) (by decide)

/-- The packet has been begun and filled with hex digits. -/
def Filled (p : RspPacket) : Prop :=
  ∃ payload, (∀ d ∈ payload, d ∈ rspDigits) ∧ rspPacketBegin.appendBytes payload = .ok p

theorem filled_begin : Filled rspPacketBegin := ⟨[], by simp, rfl⟩

theorem Filled.appendU8 {p q : RspPacket} {b : Byte} (h : Filled p)
    (happend : rspPacketAppendU8 p b = .ok q) : Filled q := by
  obtain ⟨payload, hdigits, hp⟩ := h
  refine ⟨payload ++ hexU8 b, fun d hd => ?_, ?_⟩
  · exact (List.mem_append.mp hd).elim (hdigits d) (hexU8_mem b d)
  · rw [RspPacket.appendBytes_append, hp, ← happend, rspPacketAppendU8_eq]
    rfl

theorem Filled.sends {p : RspPacket} (h : Filled p) :
    Replies SendsFrame
      (reply (rspPacketEnd p >>= fun p => pure (rspPacketSend p)) : RspHandler σ) := by
  obtain ⟨payload, hdigits, hp⟩ := h
  have hframe : rspPacketFrame payload = rspPacketEnd p >>= fun p => pure (rspPacketSend p) := by
    rw [rspPacketFrame, hp]
    rfl
  rw [← hframe]
  exact replies_reply fun _ _ => rspPacketFrame_sends fun d hd => rspDigits_ne d (hdigits d hd)

/-! ## The handlers -/

theorem rspReadRegistersReply_sends : Replies SendsFrame (rspReadRegistersReply : RspHandler σ) := by
  refine Replies.after silent_getState fun s => replies_reply ?_
  intro handlerResult text hreply
  rw [rspReadRegisters_eq] at hreply
  obtain ⟨rfl, rfl⟩ := Prod.mk.inj (Except.ok.inj hreply)
  refine ⟨rfl, validFrame_rspFrame (fun d hd => (rspDigits_ne d (registersHex_mem s d hd)).2) ?_⟩
  rw [registersHex_length]
  decide

theorem rspWriteRegisters_sends :
    Replies SendsFrame (rspWriteRegisters buffer size : RspHandler σ) := by
  apply Replies.after (silent_attempt _)
  intro _
  apply Replies.after (silent_loop (silent_assign _ _) _ _ _)
  intro _
  apply Replies.after (silent_attempt _)
  intro v
  exact Replies.after (silent_modify _) fun _ => rspQuickReply_sends unsupported_mem_answers

theorem rspAssignRegister_silent (reg : Byte) (val : Word) :
    Silent (rspAssignRegister reg val : RspProg σ Unit) := by
  unfold rspAssignRegister
  split
  · exact fun _ => rfl
  split
  · exact silent_modify _
  · exact silent_modify _

theorem rspWriteSpecificRegister_sends :
    Replies SendsFrame (rspWriteSpecificRegister buffer size : RspHandler σ) := by
  apply Replies.after (silent_attempt _)
  intro _
  apply Replies.after (silent_attempt _)
  intro reg
  apply Replies.after (silent_attempt _)
  intro val
  exact Replies.after (rspAssignRegister_silent reg val) fun _ => rspQuickReply_sends ok_mem_answers

theorem rspReadByte_silent (args : MemoryArgs) (i : Nat) (p : RspPacket) :
    Silent (rspReadByte args i p : RspProg σ RspPacket) :=
  silent_getState.bind fun _ => (silent_modify _).bind fun _ => silent_attempt _

theorem rspReadByte_filled (args : MemoryArgs) (i : Nat) (p : RspPacket) (hp : Filled p) (s : RV32 σ)
    (q : RspPacket) (h : (rspReadByte args i p s).value = .ok q) : Filled q := by
  have happend : rspPacketAppendU8 p (s.mem.bytes (args.index i).toNat) = .ok q := h
  exact hp.appendU8 happend

theorem rspReadMemory_sends : Replies SendsFrame (rspReadMemory buffer size : RspHandler σ) := by
  apply Replies.after (silent_attempt _)
  intro args
  apply Replies.after silent_getState
  intro s
  refine Replies.ite (rspQuickReply_sends unsupported_mem_answers) ?_
  refine Replies.bind (silent_loop (rspReadByte_silent args) _ _ _) (P := Filled) ?_
    fun p hp => hp.sends
  exact fun s p h => loop_returns (rspReadByte_filled args) _ _ filled_begin s p h

theorem rspWriteMemory_sends :
    Replies SendsFrame (rspWriteMemory host buffer size : RspHandler σ) := by
  apply Replies.after (silent_attempt _)
  intro args
  apply Replies.after silent_getState
  intro s
  refine Replies.ite (rspQuickReply_sends unsupported_mem_answers) ?_
  apply Replies.after (silent_loop (silent_assign _ _) _ _ _)
  intro _
  exact rspQuickReply_sends unsupported_mem_answers

theorem rspSoftwareBreakpoint_sends (call : RV32 σ → Word → Bool × RV32 σ) :
    Replies SendsFrame (rspSoftwareBreakpoint call buffer size) := by
  apply Replies.after (silent_attempt _)
  intro addr
  apply Replies.after silent_getState
  intro s
  apply Replies.after (silent_modify _)
  intro _
  exact Replies.ite (rspQuickReply_sends ok_mem_answers) (rspQuickReply_sends unsupported_mem_answers)

theorem rspDetach_sends : Replies SendsFrame (rspDetach : RspHandler σ) := by
  apply Replies.after (silent_modify _)
  intro _
  exact Replies.after (silent_modify _) fun _ => rspQuickReply_sends ok_mem_answers

/-! ## The dispatch -/

variable (host buffer size) in
/-- What a call of `rsp_handle_packet` that returns has sent. -/
structure OneReply (s : RV32 σ) (handlerResult : RspHandlerResult) : Prop where
  sent : handlerResult = .packetSent →
    ∃ text, (rspHandlePacket host buffer size s).out = [text] ∧ ValidFrame text
  notSent : handlerResult = .noPacketSent → (rspHandlePacket host buffer size s).out = []
  notSent_iff : handlerResult = .noPacketSent ↔ RspStarts 'c' buffer size ∨ RspStarts 'k' buffer size

theorem oneReply_of_sends (h : Replies SendsFrame (rspHandlePacket host buffer size))
    (hletter : ¬ (RspStarts 'c' buffer size ∨ RspStarts 'k' buffer size)) {s : RV32 σ}
    {handlerResult : RspHandlerResult}
    (hvalue : (rspHandlePacket host buffer size s).value = .ok handlerResult) :
    OneReply host buffer size s handlerResult := by
  obtain ⟨text, hout, rfl, hvalid⟩ := h s handlerResult hvalue
  refine ⟨fun _ => ⟨text, hout, hvalid⟩, fun hno => ?_, iff_of_false ?_ hletter⟩
  · cases hno
  · intro hno
    cases hno

/-- **Every handler that returns has sent one frame, or is `c` or `k`.** -/
theorem rspHandlePacket_oneReply {s : RV32 σ} {handlerResult : RspHandlerResult}
    (hvalue : (rspHandlePacket host buffer size s).value = .ok handlerResult) :
    OneReply host buffer size s handlerResult := by
  obtain ⟨p, hp, hdispatched⟩ := exists_dispatched host buffer size
  -- no other letter is `c` or `k`
  have hother : ∀ {d : Char}, RspStarts d buffer size → char d ∉ ['c', 'k'].map char →
      ¬ (RspStarts 'c' buffer size ∨ RspStarts 'k' buffer size) := by
    rintro d hd hne (h | h)
    · exact hne (hd.mem_map h (by decide))
    · exact hne (hd.mem_map h (by decide))
  have hsends : Replies SendsFrame p → ¬ (RspStarts 'c' buffer size ∨ RspStarts 'k' buffer size) →
      OneReply host buffer size s handlerResult := by
    intro h hletter
    exact oneReply_of_sends (hp ▸ h) hletter hvalue
  cases hdispatched with
  | constant data hdata h _ _ =>
      refine hsends (rspQuickReply_sends (constant_mem_answers hdata)) ?_
      rintro (hc | hk)
      · exact absurd (h 'c' (by decide) hc) (by decide)
      · exact absurd (h 'k' (by decide) hk) (by decide)
  | readRegisters h => exact hsends rspReadRegistersReply_sends (hother h (by decide))
  | writeRegisters h => exact hsends rspWriteRegisters_sends (hother h (by decide))
  | writeSpecificRegister h => exact hsends rspWriteSpecificRegister_sends (hother h (by decide))
  | readMemory h => exact hsends rspReadMemory_sends (hother h (by decide))
  | writeMemory h => exact hsends rspWriteMemory_sends (hother h (by decide))
  | setSoftwareBreakpoint h =>
      exact hsends (rspSoftwareBreakpoint_sends _) (hother (h.starts (c := 'Z') rfl) (by decide))
  | clearSoftwareBreakpoint h =>
      exact hsends (rspSoftwareBreakpoint_sends _) (hother (h.starts (c := 'z') rfl) (by decide))
  | resume h =>
      rw [hp] at hvalue
      obtain rfl := Except.ok.inj hvalue
      refine ⟨fun hsent => ?_, fun _ => ?_, iff_of_true rfl (.inl h)⟩
      · cases hsent
      · rw [hp]; rfl
  | detach h => exact hsends rspDetach_sends (hother h (by decide))
  | kill h =>
      rw [hp] at hvalue
      obtain rfl := Except.ok.inj hvalue
      refine ⟨fun hsent => ?_, fun _ => ?_, iff_of_true rfl (.inr h)⟩
      · cases hsent
      · rw [hp]; rfl

/-- **The receiver waits for an acknowledgement exactly when a reply is outstanding.** -/
theorem rspHandleByte_waitAck_iff {m : RV32 σ} {r : RspReceiver} {ind : Indeterminate} {c : Byte}
    (hstate : r.state = .checksum2) (hdigit : rspIsHexDigit c = true) (hsum : Matches r c)
    (hvalue : (rspHandleByte host ind c ⟨m, r⟩).value = .ok ()) :
    (rspHandleByte host ind c ⟨m, r⟩).state.receiver.state = .waitAck ↔
      ∃ text, (rspHandleByte host ind c ⟨m, r⟩).out =
        [.sent [char '+'], .handled r.packet, .sent text] := by
  rw [rspHandleByte_checksum2 hstate, rspChecksum2_accept hdigit hsum] at hvalue
  rw [rspHandleByte_checksum2 hstate, rspChecksum2_accept hdigit hsum]
  generalize hhandler : (rspHandlePacket host (r.buffer ind.behind) r.iptr m).value = value at hvalue ⊢
  cases value with
  | error msg => cases hvalue
  | ok handlerResult =>
      have hone := rspHandlePacket_oneReply hhandler
      simp only [RspReceiver.finish]
      cases handlerResult with
      | packetSent =>
          obtain ⟨text, hout, -⟩ := hone.sent rfl
          rw [hout]
          exact iff_of_true rfl ⟨text, rfl⟩
      | noPacketSent =>
          rw [hone.notSent rfl]
          refine iff_of_false ?_ ?_
          · intro h
            cases h
          · rintro ⟨text, h⟩
            cases h

/-- **The reply discipline.** A packet on which `rsp_handle_packet` returns is answered with one valid
    frame, or with nothing, and the latter exactly when it starts with `c` or `k`; so the receiver goes on
    to `RSP_WAIT_ACK` exactly when a reply is outstanding. -/
theorem reply_discipline (host : Host σ) :
    (∀ (s : RV32 σ) (buffer : Nat → Byte) (size : Nat) (handlerResult : RspHandlerResult),
      (rspHandlePacket host buffer size s).value = .ok handlerResult →
      OneReply host buffer size s handlerResult) ∧
    ∀ (m : RV32 σ) (r : RspReceiver) (ind : Indeterminate) (c : Byte), r.state = .checksum2 →
      rspIsHexDigit c = true → Matches r c → (rspHandleByte host ind c ⟨m, r⟩).value = .ok () →
      ((rspHandleByte host ind c ⟨m, r⟩).state.receiver.state = .waitAck ↔
        ∃ text, (rspHandleByte host ind c ⟨m, r⟩).out =
          [.sent [char '+'], .handled r.packet, .sent text]) :=
  ⟨fun _ _ _ _ => rspHandlePacket_oneReply, fun _ _ _ _ => rspHandleByte_waitAck_iff⟩

/-- The receiver before the last byte of `$?#3F`. -/
def queryReceiver : RspReceiver :=
  { rspInit.push (char '?') (by decide) with sum2 := 0x30, state := .checksum2 }

/-- The emulator answers the query, and then waits for the acknowledgement. -/
theorem reply_discipline_query :
    (∃ text, (rspHandlePacket emulatorHost (packetBuffer (cstr "?") fun _ => 0) 1 (emulatorStart [])).out =
      [text] ∧ ValidFrame text) ∧
    (rspHandleByte emulatorHost noIndeterminate (char 'F')
      ⟨emulatorStart [], queryReceiver⟩).state.receiver.state = .waitAck := by
  obtain ⟨hpacket, hbyte⟩ := reply_discipline emulatorHost
  constructor
  · exact (hpacket (emulatorStart []) _ _ .packetSent rfl).sent rfl
  · rw [hbyte _ queryReceiver noIndeterminate (char 'F') rfl (by decide) (by decide) rfl]
    exact ⟨_, rfl⟩

end Rv32
