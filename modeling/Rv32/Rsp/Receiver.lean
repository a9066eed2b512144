import Rv32.Rsp.Handlers

/-!
# `Rsp.Receiver` — `rsp_handle_byte`, and sessions

The `static` variables of `rsp_handle_byte` are an `RspReceiver`; the bound of the index is a field,
because the one branch that moves it tests for the end of the buffer. Two things the source reads are not
determined by it, and come with each byte as `Indeterminate`: `handler_result` is read without having been
set when the checksum is wrong, and the handlers can look at what lies behind the array.

`RspEvent.handled` is a ghost event: it marks a call of `rsp_handle_packet` with its arguments. A session
is a `Process`: after `RSP_FATAL` the program has exited, and no byte and no call changes anything.
-/

namespace Rv32

open Prog

variable {σ : Type}

/-- `enum rsp_state` -/
inductive RspState where
  | waitStart
  | packetData
  | checksum1
  | checksum2
  | waitAck
  deriving DecidableEq, Repr

/-- The static variables of `rsp_handle_byte`. -/
structure RspReceiver where
  inBuffer : Fin rspBufferSize → Byte
  sum1 : Byte
  sum2 : Byte
  iptr : Nat
  state : RspState
  fits : iptr ≤ rspBufferSize

/-- What the source leaves open in one call of `rsp_handle_byte`. -/
structure Indeterminate where
  handlerResult : RspHandlerResult
  behind : Nat → Byte

/-- The machine and the stub that serves it. -/
structure Stub (σ : Type) where
  machine : RV32 σ
  receiver : RspReceiver

/-- What a call does that can be seen from outside, and the calls of `rsp_handle_packet`. -/
inductive RspEvent where
  | sent (text : List Byte)
  | handled (packet : List Byte)
  deriving DecidableEq, Repr

/-- The programs of the stub with its receiver. -/
abbrev StubProg (σ : Type) : Type → Type := Prog (Stub σ) RspEvent

/-- `enum rsp_signal` -/
inductive RspSignal where
  | sigint
  | sigill
  | sigtrap
  | sigsegv
  deriving DecidableEq, Repr

/-- The text of a stop reply. -/
def RspSignal.text : RspSignal → String
  | .sigint  => "S02"
  | .sigill  => "S04"
  | .sigtrap => "S05"
  | .sigsegv => "S0b"

/-- A program of the machine, run by the stub. -/
def onMachine {α : Type} (p : RspProg σ α) : StubProg σ α :=
  zoom Stub.machine (fun t m => { t with machine := m }) RspEvent.sent p

def setMachine (f : RV32 σ → RV32 σ) : StubProg σ Unit :=
  modifyState fun t => { t with machine := f t.machine }

def setReceiver (f : RspReceiver → RspReceiver) : StubProg σ Unit :=
  modifyState fun t => { t with receiver := f t.receiver }

/-- `rsp_report_signal` -/
def rspReportSignal (signal : RspSignal) : StubProg σ Unit := do
  let _ ← onMachine (rspQuickReply signal.text)
  pure ()

namespace RspReceiver

variable (r : RspReceiver)

/-- The bytes from the start of `in_buffer` on. -/
def buffer (behind : Nat → Byte) (i : Nat) : Byte :=
  if h : i < rspBufferSize then r.inBuffer ⟨i, h⟩ else behind i

/-- The packet received so far. -/
def packet : List Byte := (List.range r.iptr).map (r.buffer fun _ => 0)

/-- `iptr = 0; sum1 = sum2 = 0;` -/
def clear : RspReceiver :=
  { r with sum1 := 0, sum2 := 0, iptr := 0, fits := Nat.zero_le _ }

/-- `in_buffer[iptr++] = c; sum1 += c;` -/
def push (c : Byte) (h : r.iptr < rspBufferSize) : RspReceiver :=
  { r with
    inBuffer := Function.update r.inBuffer ⟨r.iptr, h⟩ c
    sum1 := r.sum1 + c
    iptr := r.iptr + 1
    fits := h }

end RspReceiver

/-! ## The five cases -/

variable (host : Host σ) (ind : Indeterminate) (r : RspReceiver) (c : Byte)

/-- `case RSP_WAIT_START` -/
def rspWaitStart : StubProg σ Unit := do
  setReceiver fun r => r.clear
  if c = char '$' then
    setReceiver fun r => { r with state := .packetData }
  else if c = 3 then
    setMachine fun s => { s with status := .paused }
    rspReportSignal .sigint

/-- `case RSP_PACKET_DATA` -/
def rspPacketData : StubProg σ Unit :=
  if c = char '#' then
    setReceiver fun r => { r with state := .checksum1 }
  else if h : r.iptr < rspBufferSize then
    setReceiver fun _ => r.push c h
  else fatal "input buffer too small"

/-- `case RSP_CHECKSUM_1` -/
def rspChecksum1 : StubProg σ Unit := do
  let d ← attempt (rspFromHexDigit c)
  setReceiver fun r => { r with sum2 := d <<< 4, state := .checksum2 }

/-- The call of `rsp_handle_packet` for the packet in the buffer. -/
def rspHandleReceived : StubProg σ RspHandlerResult := do
  send (.sent [char '+'])
  send (.handled r.packet)
  onMachine (rspHandlePacket host (r.buffer ind.behind) r.iptr)

/-- The `else` branch, in which `handler_result` is not assigned. -/
def rspRejectReceived : StubProg σ RspHandlerResult := do
  send (.sent [char '-'])
  pure ind.handlerResult

/-- `if(sum1 == sum2)`, with both of its branches. -/
def rspJudgeReceived : StubProg σ RspHandlerResult :=
  if r.sum1 = r.sum2 then rspHandleReceived host ind r else rspRejectReceived ind

/-- `case RSP_CHECKSUM_2` -/
def rspChecksum2 : StubProg σ Unit := do
  let d ← attempt (rspFromHexDigit c)
  setReceiver fun r => { r with sum2 := r.sum2 ||| d }
  let handlerResult ← rspJudgeReceived host ind { r with sum2 := r.sum2 ||| d }
  setReceiver fun r =>
    { r with state := if handlerResult = .packetSent then .waitAck else .waitStart }

/-- `case RSP_WAIT_ACK` -/
def rspWaitAck : StubProg σ Unit :=
  if c = char '+' then
    setReceiver fun r => { r with state := .waitStart }
  else fatal "gdb didn't acknowledge last packet"

/-- `rsp_handle_byte` -/
def rspHandleByte : StubProg σ Unit := do
  let t ← getState
  match t.receiver.state with
  | .waitStart  => rspWaitStart c
  | .packetData => rspPacketData t.receiver c
  | .checksum1  => rspChecksum1 c
  | .checksum2  => rspChecksum2 host ind t.receiver c
  | .waitAck    => rspWaitAck c

/-! ## Sessions -/

/-- A byte from the debugger, or a call of the embedding program. -/
inductive StubAction where
  | byte (c : Byte) (ind : Indeterminate)
  | call (a : Action)

/-- The effect of an action. -/
def serve : StubAction → StubProg σ Unit
  | .byte c ind => rspHandleByte host ind c
  | .call a     => setMachine fun s => step host s a

/-- The receiver as the program starts with it: static storage, all zero. -/
def rspInit : RspReceiver where
  inBuffer := fun _ => 0
  sum1 := 0
  sum2 := 0
  iptr := 0
  state := .waitStart
  fits := Nat.zero_le _

/-- The session a program starts on a machine. -/
def stubStart (m : RV32 σ) : Process (Stub σ) := { state := { machine := m, receiver := rspInit } }

/-- The session after the actions `as`. -/
abbrev stubRun (p : Process (Stub σ)) (as : List StubAction) : Process (Stub σ) :=
  Process.run (serve host) p as

/-- The events of the actions `as`. -/
abbrev stubEvents (p : Process (Stub σ)) (as : List StubAction) : List RspEvent :=
  Process.sent (serve host) p as

/-- What is left open, left at zero. -/
def noIndeterminate : Indeterminate := { handlerResult := .noPacketSent, behind := fun _ => 0 }

/-- The bytes of a text, sent one by one. -/
def bytesOf (text : String) : List StubAction := (cstr text).map fun c => .byte c noIndeterminate

/-! ## One byte -/

section Byte

variable {host} {ind} {r} {c} {m : RV32 σ}

theorem rspReportSignal_run (signal : RspSignal) (t : Stub σ) :
    rspReportSignal signal t = ⟨.ok (), t, [.sent (rspFrame (cstr signal.text))]⟩ := by
  have hanswer : signal.text ∈ rspAnswers := by cases signal <;> decide
  have hreply : (onMachine (rspQuickReply signal.text) : StubProg σ _) t =
      ⟨.ok .packetSent, t, [.sent (rspFrame (cstr signal.text))]⟩ := by
    rw [onMachine, zoom, rspQuickReply_run hanswer]
    rfl
  rw [rspReportSignal, run_bind_ok (by rw [hreply]), hreply]
  rfl

/-- **`RSP_WAIT_START`.** -/
theorem rspWaitStart_run (c : Byte) (m : RV32 σ) (r : RspReceiver) :
    rspWaitStart c ⟨m, r⟩ =
      if c = char '$' then ⟨.ok (), ⟨m, { r.clear with state := .packetData }⟩, []⟩
      else if c = 3 then
        ⟨.ok (), ⟨{ m with status := .paused }, r.clear⟩, [.sent (rspFrame (cstr "S02"))]⟩
      else ⟨.ok (), ⟨m, r.clear⟩, []⟩ := by
  unfold rspWaitStart setReceiver setMachine
  rw [run_modify_bind]
  by_cases hstart : c = char '$'
  · rw [if_pos hstart, if_pos hstart]
    rfl
  · rw [if_neg hstart, if_neg hstart]
    by_cases hctrlC : c = 3
    · rw [if_pos hctrlC, if_pos hctrlC, run_modify_bind, rspReportSignal_run]
      rfl
    · rw [if_neg hctrlC, if_neg hctrlC]
      rfl

/-- **`RSP_CHECKSUM_1`.** -/
theorem rspChecksum1_run (c : Byte) (m : RV32 σ) (r : RspReceiver) :
    rspChecksum1 c ⟨m, r⟩ =
      if rspIsHexDigit c then
        ⟨.ok (), ⟨m, { r with sum2 := hexValue c <<< 4, state := .checksum2 }⟩, []⟩
      else ⟨.error "invalid hex digit", ⟨m, r⟩, []⟩ := by
  rw [rspChecksum1, rspFromHexDigit_eq]
  by_cases hdigit : rspIsHexDigit c = true
  · rw [if_pos hdigit, if_pos hdigit]
    rfl
  · rw [if_neg hdigit, if_neg hdigit]
    rfl

/-- The packet is handed over when the digits match its sum. -/
def Matches (r : RspReceiver) (c : Byte) : Prop := r.sum1 = (r.sum2 ||| hexValue c)

instance (r : RspReceiver) (c : Byte) : Decidable (Matches r c) := inferInstanceAs (Decidable (_ = _))

/-- The state of the receiver after a packet. -/
def RspReceiver.finish (r : RspReceiver) (c : Byte) (handlerResult : RspHandlerResult) : RspReceiver :=
  { r with
    sum2 := r.sum2 ||| hexValue c
    state := if handlerResult = .packetSent then .waitAck else .waitStart }

/-- **`RSP_CHECKSUM_2`, wrong checksum.** -/
theorem rspChecksum2_reject (hdigit : rspIsHexDigit c = true) (hsum : ¬ Matches r c) :
    rspChecksum2 host ind r c ⟨m, r⟩ =
      ⟨.ok (), ⟨m, r.finish c ind.handlerResult⟩, [.sent [char '-']]⟩ := by
  have hjudge : rspJudgeReceived host ind { r with sum2 := r.sum2 ||| hexValue c } =
      rspRejectReceived ind := if_neg hsum
  rw [rspChecksum2, rspFromHexDigit_eq, if_pos hdigit, run_attempt_ok_bind, hjudge]
  rfl

/-- **`RSP_CHECKSUM_2`, right checksum.** The handler runs on the buffer, and its end is the end of the
    case. -/
theorem rspChecksum2_accept (hdigit : rspIsHexDigit c = true) (hsum : Matches r c) :
    rspChecksum2 host ind r c ⟨m, r⟩ =
      { value := (rspHandlePacket host (r.buffer ind.behind) r.iptr m).value.map fun _ => ()
        state :=
          { machine := (rspHandlePacket host (r.buffer ind.behind) r.iptr m).state
            receiver := match (rspHandlePacket host (r.buffer ind.behind) r.iptr m).value with
              | .ok handlerResult => r.finish c handlerResult
              | .error _          => { r with sum2 := r.sum2 ||| hexValue c } }
        out := .sent [char '+'] :: .handled r.packet ::
          (rspHandlePacket host (r.buffer ind.behind) r.iptr m).out.map .sent } := by
  have hjudge : rspJudgeReceived host ind { r with sum2 := r.sum2 ||| hexValue c } =
      rspHandleReceived host ind { r with sum2 := r.sum2 ||| hexValue c } := if_pos hsum
  have hreceived : (rspHandleReceived host ind { r with sum2 := r.sum2 ||| hexValue c } :
        StubProg σ _) ⟨m, { r with sum2 := r.sum2 ||| hexValue c }⟩ =
      { value := (rspHandlePacket host (r.buffer ind.behind) r.iptr m).value
        state := ⟨(rspHandlePacket host (r.buffer ind.behind) r.iptr m).state,
          { r with sum2 := r.sum2 ||| hexValue c }⟩
        out := .sent [char '+'] :: .handled r.packet ::
          (rspHandlePacket host (r.buffer ind.behind) r.iptr m).out.map .sent } := rfl
  rw [rspChecksum2, rspFromHexDigit_eq, if_pos hdigit, run_attempt_ok_bind, hjudge, setReceiver,
    run_modify_bind]
  cases hvalue : (rspHandlePacket host (r.buffer ind.behind) r.iptr m).value with
  | ok handlerResult =>
      rw [run_bind_ok (a := handlerResult) (by rw [hreceived]; exact hvalue), hreceived]
      simp [setReceiver, Except.map, RspReceiver.finish]
  | error msg =>
      have hdead : ((rspHandleReceived host ind { r with sum2 := r.sum2 ||| hexValue c } :
          StubProg σ _) ⟨m, { r with sum2 := r.sum2 ||| hexValue c }⟩).value = .error msg := by
        rw [hreceived]
        exact hvalue
      rw [run_bind_error hdead, hreceived]
      rfl

theorem rspChecksum2_invalid (hdigit : rspIsHexDigit c = false) :
    rspChecksum2 host ind r c ⟨m, r⟩ = ⟨.error "invalid hex digit", ⟨m, r⟩, []⟩ := by
  rw [rspChecksum2, rspFromHexDigit_eq, if_neg (by simp [hdigit])]
  rfl

theorem rspHandleByte_eq (m : RV32 σ) (r : RspReceiver) :
    rspHandleByte host ind c ⟨m, r⟩ =
      match r.state with
      | .waitStart  => rspWaitStart c ⟨m, r⟩
      | .packetData => rspPacketData r c ⟨m, r⟩
      | .checksum1  => rspChecksum1 c ⟨m, r⟩
      | .checksum2  => rspChecksum2 host ind r c ⟨m, r⟩
      | .waitAck    => rspWaitAck c ⟨m, r⟩ := by
  show (match r.state with
    | .waitStart  => rspWaitStart c
    | .packetData => rspPacketData r c
    | .checksum1  => rspChecksum1 c
    | .checksum2  => rspChecksum2 host ind r c
    | .waitAck    => rspWaitAck c) _ = _
  cases r.state <;> rfl

/-- Outside of a packet. -/
theorem rspHandleByte_waitStart (hstate : r.state = .waitStart) :
    rspHandleByte host ind c ⟨m, r⟩ = rspWaitStart c ⟨m, r⟩ := by
  rw [rspHandleByte_eq, hstate]

/-- At the last byte of a packet. -/
theorem rspHandleByte_checksum2 (hstate : r.state = .checksum2) :
    rspHandleByte host ind c ⟨m, r⟩ = rspChecksum2 host ind r c ⟨m, r⟩ := by
  rw [rspHandleByte_eq, hstate]

end Byte

end Rv32
