import Rv32.Core.Emulator
import Rv32.Rsp.Framing

/-!
# `Correctness.Retransmission` — when a refused packet can be sent again

After the second checksum digit `rsp_handle_byte` chooses its next state by `handler_result`, which it has
assigned only if the checksum was right. After a `-` the next state is whatever the local happened to hold
makes of it: the start of the next frame, or the wait for an acknowledgement that nobody owes. In the
second case the `$` of the frame sent again ends the program.
-/

namespace Rv32

open Prog

variable {σ : Type} {host : Host σ} {m : RV32 σ} {r : RspReceiver} {ind ind' : Indeterminate}
  {noise p : List Byte} {d1 d2 e1 e2 : Byte}

/-- The session has ended in `RSP_FATAL("gdb didn't acknowledge last packet")`. -/
def DiedUnacknowledged (q : Process (Stub σ)) : Prop :=
  q.died ≠ none ∧ q.state.receiver.state = .waitAck

/-- A byte that ends the program leaves the receiver in the state it was in. -/
theorem rspHandleByte_died_state (host : Host σ) (ind : Indeterminate) (m : RV32 σ) (r : RspReceiver)
    (c : Byte) (msg : String) :
    (rspHandleByte host ind c ⟨m, r⟩).value = .error msg →
      (rspHandleByte host ind c ⟨m, r⟩).state.receiver.state = r.state := by
  rw [rspHandleByte_eq]
  cases hstate : r.state with
  | waitStart =>
      simp only [rspWaitStart_run]
      by_cases hstart : c = char '$'
      · simp only [if_pos hstart]
        rintro ⟨⟩
      · by_cases hctrlC : c = 3
        · simp only [if_neg hstart, if_pos hctrlC]
          rintro ⟨⟩
        · simp only [if_neg hstart, if_neg hctrlC]
          rintro ⟨⟩
  | packetData =>
      simp only [rspPacketData]
      by_cases hhash : c = char '#'
      · simp only [if_pos hhash]
        rintro ⟨⟩
      · by_cases hroom : r.iptr < rspBufferSize
        · simp only [if_neg hhash, dif_pos hroom]
          rintro ⟨⟩
        · simp only [if_neg hhash, dif_neg hroom]
          exact fun _ => hstate
  | checksum1 =>
      simp only [rspChecksum1_run]
      by_cases hdigit : rspIsHexDigit c = true
      · simp only [if_pos hdigit]
        rintro ⟨⟩
      · simp only [if_neg hdigit]
        exact fun _ => hstate
  | checksum2 =>
      by_cases hdigit : rspIsHexDigit c = true
      · by_cases hsum : Matches r c
        · simp only [rspChecksum2_accept hdigit hsum]
          cases (rspHandlePacket host (r.buffer ind.behind) r.iptr m).value with
          | ok handlerResult => rintro ⟨⟩
          | error _ => exact fun _ => hstate
        · simp only [rspChecksum2_reject hdigit hsum]
          rintro ⟨⟩
      · simp only [rspChecksum2_invalid (Bool.not_eq_true _ ▸ hdigit)]
        exact fun _ => hstate
  | waitAck =>
      simp only [rspWaitAck]
      by_cases hack : c = char '+'
      · simp only [if_pos hack]
        rintro ⟨⟩
      · simp only [if_neg hack]
        exact fun _ => hstate

/-- A byte ends a session so exactly when it comes in place of an acknowledgement. -/
theorem diesUnacknowledged_iff (host : Host σ) (m : RV32 σ) (r : RspReceiver) (c : Byte)
    (ind : Indeterminate) :
    DiedUnacknowledged (Process.step (serve host) ⟨⟨m, r⟩, none⟩ (.byte c ind)) ↔
      r.state = .waitAck ∧ c ≠ char '+' := by
  have hkept (msg : String) := rspHandleByte_died_state host ind m r c msg
  constructor
  · rintro ⟨hdied, hwait⟩
    rw [Process.step] at hdied hwait
    cases hvalue : (rspHandleByte host ind c ⟨m, r⟩).value with
    | ok _ =>
        simp only [serve, hvalue] at hdied
        exact absurd rfl hdied
    | error msg =>
        have hstate : r.state = .waitAck := (hkept msg hvalue).symm.trans hwait
        refine ⟨hstate, fun hack => ?_⟩
        rw [rspHandleByte_eq, hstate] at hvalue
        simp only [rspWaitAck, if_pos hack] at hvalue
        cases hvalue
  · rintro ⟨hstate, hack⟩
    have hfatal : rspHandleByte host ind c ⟨m, r⟩ =
        ⟨.error "gdb didn't acknowledge last packet", ⟨m, r⟩, []⟩ := by
      rw [rspHandleByte_eq, hstate]
      simp only [rspWaitAck, if_neg hack]
      rfl
    rw [Process.step, serve, hfatal]
    exact ⟨Option.some_ne_none _, hstate⟩

/-- The session after the bytes `noise` and a frame with payload `p` and digits `d1` and `d2`. -/
def afterFrame (host : Host σ) (m : RV32 σ) (r : RspReceiver) (ind : Indeterminate)
    (noise p : List Byte) (d1 d2 : Byte) : Process (Stub σ) :=
  stubRun host ⟨⟨m, r⟩, none⟩ (feed ind (noise ++ frameBytes p d1 d2))

/-- After a frame that was answered with `-`, the receiver waits for a frame; and the frame sent again,
    with the digits `e1` and `e2`, is acknowledged and handed over, and does not want an acknowledgement
    itself. -/
structure Retransmits (host : Host σ) (m : RV32 σ) (r : RspReceiver) (ind ind' : Indeterminate)
    (noise p : List Byte) (d1 d2 e1 e2 : Byte) : Prop where
  alive : (afterFrame host m r ind noise p d1 d2).died = none
  waitStart : (afterFrame host m r ind noise p d1 d2).state.receiver.state = .waitStart
  dispatched : ∃ out, stubEvents host (afterFrame host m r ind noise p d1 d2)
    (feed ind' (frameBytes p e1 e2)) = .sent [char '+'] :: .handled p :: out
  acknowledged : ¬ DiedUnacknowledged
    (stubRun host (afterFrame host m r ind noise p d1 d2) (feed ind' (frameBytes p e1 e2)))

/-- **The frame with the wrong digits** is answered with `-`, does not touch the machine, and leaves the
    receiver in the state `handler_result` chooses. -/
theorem afterFrame_wrong (host : Host σ) (m : RV32 σ) (ind : Indeterminate) (hstate : r.state = .waitStart)
    (hnoise : ∀ c ∈ noise, c ≠ char '$' ∧ c ≠ 3) (hlen : p.length ≤ rspBufferSize) (hhash : char '#' ∉ p)
    (hd1 : rspIsHexDigit d1 = true) (hd2 : rspIsHexDigit d2 = true) (hwrong : hexByte d1 d2 ≠ p.sum) :
    ∃ r' : RspReceiver,
      afterFrame host m r ind noise p d1 d2 = ⟨⟨m, r'.finish d2 ind.handlerResult⟩, none⟩ ∧
      stubEvents host ⟨⟨m, r⟩, none⟩ (feed ind (noise ++ frameBytes p d1 d2)) = [.sent [char '-']] := by
  obtain ⟨r', -, -, -, hmatches, hevents, hrun⟩ :=
    feed_frameBytes host m ind hstate hnoise hlen hhash hd1
  have hreject : rspChecksum2 host ind r' d2 ⟨m, r'⟩ =
      ⟨.ok (), ⟨m, r'.finish d2 ind.handlerResult⟩, [.sent [char '-']]⟩ :=
    rspChecksum2_reject hd2 fun h => hwrong (hmatches.mp h).symm
  refine ⟨r', hrun.trans ?_, hevents.trans ?_⟩
  · rw [hreject]
  · rw [hreject]

/-- **The frame with the right digits**, on a receiver that waits for one. -/
theorem frame_acknowledged (host : Host σ) (m : RV32 σ) (ind : Indeterminate)
    (hright : WellFormed p e1 e2) (hstate : r.state = .waitStart) :
    (∃ out, stubEvents host ⟨⟨m, r⟩, none⟩ (feed ind (frameBytes p e1 e2)) =
      .sent [char '+'] :: .handled p :: out) ∧
    ¬ DiedUnacknowledged (stubRun host ⟨⟨m, r⟩, none⟩ (feed ind (frameBytes p e1 e2))) := by
  obtain ⟨r', hstate', -, -, hruns⟩ := feed_wellFormed host m ind hright hstate
  refine ⟨⟨_, hruns.sent⟩, ?_⟩
  rw [stubRun, hruns.run]
  rintro ⟨hdied, hwait⟩
  -- if the handler has died, it did so in the last byte of the frame
  cases hvalue : (frameOutcome host m r ind p).value with
  | ok handlerResult =>
      rw [hvalue] at hdied
      exact hdied rfl
  | error msg =>
      rw [hvalue] at hwait
      exact absurd (hstate'.symm.trans hwait) (by decide)

/-- A frame that comes in place of an acknowledgement ends the session. -/
theorem frame_unacknowledged (hstate : r.state = .waitAck) :
    DiedUnacknowledged (stubRun host ⟨⟨m, r⟩, none⟩ (feed ind (frameBytes p e1 e2))) := by
  have hdies : DiedUnacknowledged
      (Process.step (serve host) ⟨⟨m, r⟩, none⟩ (.byte (char '$') ind)) :=
    (diesUnacknowledged_iff host m r (char '$') ind).mpr ⟨hstate, by decide⟩
  show DiedUnacknowledged (stubRun host (Process.step (serve host) _ _) _)
  rw [stubRun, Process.run_of_died hdies.1]
  exact hdies

/-- **Retransmission**, exactly when it works: when the unassigned local does not hold
    `RSP_PACKET_SENT`. -/
theorem retransmits_iff (host : Host σ) (m : RV32 σ) (r : RspReceiver) (ind ind' : Indeterminate)
    (noise p : List Byte) (d1 d2 e1 e2 : Byte) (hstate : r.state = .waitStart)
    (hnoise : ∀ c ∈ noise, c ≠ char '$' ∧ c ≠ 3) (hlen : p.length ≤ 1024) (hhash : char '#' ∉ p)
    (hd1 : rspIsHexDigit d1 = true) (hd2 : rspIsHexDigit d2 = true) (hwrong : hexByte d1 d2 ≠ p.sum)
    (he1 : rspIsHexDigit e1 = true) (he2 : rspIsHexDigit e2 = true) (hright : hexByte e1 e2 = p.sum) :
    Retransmits host m r ind ind' noise p d1 d2 e1 e2 ↔ ind.handlerResult ≠ .packetSent := by
  obtain ⟨r', hafter, -⟩ :=
    afterFrame_wrong host m ind hstate hnoise hlen hhash hd1 hd2 hwrong
  constructor
  · intro h hsent
    have hwait := h.waitStart
    rw [hafter] at hwait
    simp [RspReceiver.finish, hsent] at hwait
  · intro hsent
    have hwait : (r'.finish d2 ind.handlerResult).state = .waitStart := if_neg hsent
    have hframe : WellFormed p e1 e2 := ⟨hlen, hhash, he1, he2, hright⟩
    have hagain := frame_acknowledged host m ind' hframe hwait
    rw [← hafter] at hagain
    exact ⟨by rw [hafter], by rw [hafter]; exact hwait, hagain.1, hagain.2⟩

/-- The emulator, on `$?#00` and then `$?#3f`, with a local that is zero. -/
theorem retransmits_iff_emulator :
    Retransmits emulatorHost (emulatorStart []) rspInit noIndeterminate noIndeterminate [] (cstr "?")
      (char '0') (char '0') (char '3') (char 'f') :=
  (retransmits_iff emulatorHost (emulatorStart []) rspInit noIndeterminate noIndeterminate [] (cstr "?")
    (char '0') (char '0') (char '3') (char 'f') rfl (by decide) (by decide) (by decide) (by decide)
    (by decide) (by decide) (by decide) (by decide) (by decide)).mpr (by decide)

/-- With a local that holds `RSP_PACKET_SENT`, the `$` of the second frame ends the program. -/
theorem retransmission_unacknowledged :
    stubEvents emulatorHost (stubStart (emulatorStart []))
        (feed ⟨.packetSent, fun _ => 0⟩ (frameBytes (cstr "?") (char '0') (char '0'))) =
        [.sent [char '-']] ∧
      DiedUnacknowledged (stubRun emulatorHost
        (afterFrame emulatorHost (emulatorStart []) rspInit ⟨.packetSent, fun _ => 0⟩ [] (cstr "?")
          (char '0') (char '0'))
        (feed noIndeterminate (frameBytes (cstr "?") (char '3') (char 'f')))) ∧
      ¬ Retransmits emulatorHost (emulatorStart []) rspInit ⟨.packetSent, fun _ => 0⟩ noIndeterminate []
        (cstr "?") (char '0') (char '0') (char '3') (char 'f') := by
  obtain ⟨r, hafter, hevents⟩ := @afterFrame_wrong _ rspInit [] (cstr "?") (char '0') (char '0')
    emulatorHost (emulatorStart []) ⟨.packetSent, fun _ => 0⟩ rfl (by decide) (by decide) (by decide)
    (by decide) (by decide) (by decide)
  have hdies : DiedUnacknowledged (stubRun emulatorHost
      (afterFrame emulatorHost (emulatorStart []) rspInit ⟨.packetSent, fun _ => 0⟩ [] (cstr "?")
        (char '0') (char '0'))
      (feed noIndeterminate (frameBytes (cstr "?") (char '3') (char 'f')))) := by
    rw [hafter]
    exact frame_unacknowledged rfl
  refine ⟨hevents, hdies, fun h => h.acknowledged hdies⟩

end Rv32
