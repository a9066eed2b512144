import Rv32.Core.Emulator
import Rv32.Rsp.Framing

/-!
# `Correctness.ChecksumGate` — a packet is handled if and only if its checksum is right

Whatever the receiver has gone through, outside of a packet the next frame is judged by its own bytes:
the `$` clears the sum and the index, the payload is summed as it is stored, and the two digits are put
together by the last byte. The first thing sent is the verdict, and `rsp_handle_packet` is called after a
`+` only, once, with the payload.
-/

namespace Rv32

open Prog

variable {σ : Type}

/-- What becomes of a frame with payload `p` and digits `d1` and `d2`, after the bytes `noise`. -/
structure FrameGate (host : Host σ) (m : RV32 σ) (r : RspReceiver) (ind : Indeterminate)
    (noise p : List Byte) (d1 d2 : Byte) : Prop where
  /-- The handler's buffer holds the payload, and anything behind it. -/
  accepted : hexByte d1 d2 = p.sum →
    ∃ behind,
      stubEvents host ⟨⟨m, r⟩, none⟩ (feed ind (noise ++ frameBytes p d1 d2)) =
        .sent [char '+'] :: .handled p ::
          (rspHandlePacket host (packetBuffer p behind) p.length m).out.map .sent ∧
      (stubRun host ⟨⟨m, r⟩, none⟩ (feed ind (noise ++ frameBytes p d1 d2))).state.machine =
        (rspHandlePacket host (packetBuffer p behind) p.length m).state
  refused : hexByte d1 d2 ≠ p.sum →
    stubEvents host ⟨⟨m, r⟩, none⟩ (feed ind (noise ++ frameBytes p d1 d2)) = [.sent [char '-']] ∧
    (stubRun host ⟨⟨m, r⟩, none⟩ (feed ind (noise ++ frameBytes p d1 d2))).state.machine = m

/-- **The gate.** From any state outside of a packet, after any bytes other than `$` and 3, a frame whose
    digits denote the sum of its payload is acknowledged and handed over, once and with exactly its
    payload; any other frame is refused and does nothing. -/
theorem checksum_gate (host : Host σ) (m : RV32 σ) (r : RspReceiver) (ind : Indeterminate)
    (noise p : List Byte) (d1 d2 : Byte) (hstate : r.state = .waitStart)
    (hnoise : ∀ c ∈ noise, c ≠ char '$' ∧ c ≠ 3) (hlen : p.length ≤ 1024) (hhash : char '#' ∉ p)
    (hd1 : rspIsHexDigit d1 = true) (hd2 : rspIsHexDigit d2 = true) :
    FrameGate host m r ind noise p d1 d2 := by
  obtain ⟨r', -, hpacket, -, hmatches, hevents, hrun⟩ :=
    feed_frameBytes host m ind hstate hnoise hlen hhash hd1
  constructor
  case accepted =>
    intro hsum
    have hbuffer : r'.buffer ind.behind = packetBuffer p (r'.buffer ind.behind) := by
      rw [← hpacket]
      exact r'.buffer_eq_packetBuffer ind.behind
    have hsize : r'.iptr = p.length := by rw [← r'.packet_length, hpacket]
    refine ⟨r'.buffer ind.behind, ?_⟩
    rw [hevents, hrun, rspChecksum2_accept hd2 (hmatches.mpr hsum.symm), hpacket, ← hsize, ← hbuffer]
    exact ⟨rfl, rfl⟩
  case refused =>
    intro hsum
    rw [hevents, hrun, rspChecksum2_reject hd2 fun h => hsum (hmatches.mp h).symm]
    exact ⟨rfl, rfl⟩

/-- The emulator, on `$?#3F` after two bytes of noise. -/
theorem checksum_gate_emulator :
    FrameGate emulatorHost (emulatorStart []) rspInit ⟨.packetSent, fun _ => 0⟩ (cstr "ab") (cstr "?")
      (char '3') (char 'F') :=
  checksum_gate emulatorHost (emulatorStart []) rspInit _ (cstr "ab") (cstr "?") _ _ rfl (by decide)
    (by decide) (by decide) (by decide) (by decide)

end Rv32
