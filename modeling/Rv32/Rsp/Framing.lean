import Rv32.Rsp.Receiver

/-!
# `Rsp.Framing` — what a frame does to the receiver

A frame is read in four phases: anything before the `$`, the payload, the `#` with the first digit, and
the second digit. `Receiving` is what holds in the middle of a payload, whatever was received before it;
`feed_frame` composes the phases up to the last digit, where the packet is judged, and `feed_frameBytes`
adds that digit.
-/

namespace Rv32

open Prog

variable {σ : Type} {host : Host σ}

/-- The bytes `bs`, one by one. -/
def feed (ind : Indeterminate) (bs : List Byte) : List StubAction := bs.map fun c => .byte c ind

theorem feed_append (ind : Indeterminate) (as bs : List Byte) :
    feed ind (as ++ bs) = feed ind as ++ feed ind bs := List.map_append

/-! ## The received packet -/

namespace RspReceiver

variable {r : RspReceiver}

theorem packet_length (r : RspReceiver) : r.packet.length = r.iptr := by
  rw [packet, List.length_map, List.length_range]

/-- The buffer starts with the packet, so what lies behind it is the rest. -/
theorem buffer_eq_packetBuffer (r : RspReceiver) (behind : Nat → Byte) :
    r.buffer behind = packetBuffer r.packet (r.buffer behind) := by
  funext i
  rw [packetBuffer, packet]
  by_cases hi : i < r.iptr
  · have hfits : i < rspBufferSize := Nat.lt_of_lt_of_le hi r.fits
    rw [List.getElem?_map, List.getElem?_range hi]
    simp only [Option.map_some, Option.getD_some, buffer, dif_pos hfits]
  · rw [List.getElem?_eq_none (by simp; omega), Option.getD_none]

theorem push_packet (r : RspReceiver) (c : Byte) (h : r.iptr < rspBufferSize) :
    (r.push c h).packet = r.packet ++ [c] := by
  have hsame : ∀ i ∈ List.range r.iptr,
      (r.push c h).buffer (fun _ => 0) i = r.buffer (fun _ => 0) i := by
    intro i hi
    have hlt : i < r.iptr := List.mem_range.mp hi
    have hne : (⟨i, Nat.lt_trans hlt h⟩ : Fin rspBufferSize) ≠ ⟨r.iptr, h⟩ := by
      intro heq
      exact absurd (congrArg Fin.val heq) (Nat.ne_of_lt hlt)
    simp only [buffer, dif_pos (Nat.lt_trans hlt h), push, Function.update_of_ne hne]
  have hlast : (r.push c h).buffer (fun _ => 0) r.iptr = c := by
    simp only [buffer, dif_pos h, push, Function.update_self]
  rw [packet, show (r.push c h).iptr = r.iptr + 1 from rfl, List.range_succ, List.map_append,
    List.map_congr_left hsame, List.map_singleton, hlast, packet]

end RspReceiver

/-- The receiver has seen the `$` and then `q`; behind `q` its buffer is still `old`. -/
structure Receiving (old : Fin rspBufferSize → Byte) (q : List Byte) (r : RspReceiver) : Prop where
  state : r.state = .packetData
  packet : r.packet = q
  sum : r.sum1 = q.sum
  rest : ∀ i, q.length ≤ i.val → r.inBuffer i = old i

/-! ## The phases -/

section Phases

variable (host) (m : RV32 σ) (ind : Indeterminate) {r : RspReceiver} {old : Fin rspBufferSize → Byte}

/-- Outside of a packet, a byte other than `$` and 3 is dropped. -/
theorem feed_noise {noise : List Byte} (hstate : r.state = .waitStart)
    (hnoise : ∀ c ∈ noise, c ≠ char '$' ∧ c ≠ 3) :
    ∃ r', r'.state = .waitStart ∧ r'.inBuffer = r.inBuffer ∧
      Process.Runs (serve host) ⟨⟨m, r⟩, none⟩ (feed ind noise) ⟨⟨m, r'⟩, none⟩ [] := by
  induction noise generalizing r with
  | nil => exact ⟨r, hstate, rfl, Process.Runs.nil _⟩
  | cons c noise ih =>
      obtain ⟨⟨hstart, hctrl⟩, hrest⟩ := List.forall_mem_cons.mp hnoise
      have hbyte : serve host (.byte c ind) ⟨m, r⟩ = ⟨.ok (), ⟨m, r.clear⟩, []⟩ := by
        rw [serve, rspHandleByte_waitStart hstate, rspWaitStart_run, if_neg hstart, if_neg hctrl]
      obtain ⟨r', hstate', hold, hruns⟩ := ih (r := r.clear) hstate hrest
      exact ⟨r', hstate', hold, (Process.Runs.single_ok hbyte).append hruns⟩

/-- The `$` starts an empty packet, whatever the variables held. -/
theorem feed_start (hstate : r.state = .waitStart) :
    ∃ r', Receiving r.inBuffer [] r' ∧
      Process.Runs (serve host) ⟨⟨m, r⟩, none⟩ (feed ind [char '$']) ⟨⟨m, r'⟩, none⟩ [] := by
  have hbyte : serve host (.byte (char '$') ind) ⟨m, r⟩ =
      ⟨.ok (), ⟨m, { r.clear with state := .packetData }⟩, []⟩ := by
    rw [serve, rspHandleByte_waitStart hstate, rspWaitStart_run, if_pos rfl]
  refine ⟨{ r.clear with state := .packetData }, ?_, Process.Runs.single_ok hbyte⟩
  exact { state := rfl, packet := rfl, sum := rfl, rest := fun _ _ => rfl }

/-- **The payload** is appended to what has been received. -/
theorem feed_payload {q p : List Byte} (h : Receiving old q r)
    (hlen : (q ++ p).length ≤ rspBufferSize) (hhash : char '#' ∉ p) :
    ∃ r', Receiving old (q ++ p) r' ∧
      Process.Runs (serve host) ⟨⟨m, r⟩, none⟩ (feed ind p) ⟨⟨m, r'⟩, none⟩ [] := by
  induction p generalizing q r with
  | nil => exact ⟨r, by rw [List.append_nil]; exact h, Process.Runs.nil _⟩
  | cons c p ih =>
      obtain ⟨hc, hrest⟩ := not_or.mp (List.mem_cons.not.mp hhash)
      have hiptr : r.iptr = q.length := by rw [← r.packet_length, h.packet]
      have hroom : r.iptr < rspBufferSize := by
        rw [List.length_append, List.length_cons] at hlen
        omega
      have hbyte : serve host (.byte c ind) ⟨m, r⟩ = ⟨.ok (), ⟨m, r.push c hroom⟩, []⟩ := by
        rw [serve, rspHandleByte_eq]
        simp only [h.state, rspPacketData, if_neg (Ne.symm hc), dif_pos hroom]
        rfl
      have hpush : Receiving old (q ++ [c]) (r.push c hroom) := by
        refine ⟨h.state, by rw [RspReceiver.push_packet, h.packet], ?_, fun i hi => ?_⟩
        · show r.sum1 + c = _
          rw [h.sum, List.sum_append, List.sum_singleton]
        · rw [List.length_append, List.length_singleton] at hi
          have hne : i ≠ ⟨r.iptr, hroom⟩ := by
            intro heq
            have hval : i.val = r.iptr := congrArg Fin.val heq
            omega
          exact (Function.update_of_ne hne _ _).trans (h.rest i (by omega))
      obtain ⟨r', hr', hruns⟩ := ih hpush (by simpa using hlen) hrest
      refine ⟨r', ?_, (Process.Runs.single_ok hbyte).append hruns⟩
      rw [List.append_assoc] at hr'
      exact hr'

/-- The `#` and the first digit. -/
theorem feed_digit {p : List Byte} {d1 : Byte} (h : Receiving old p r)
    (hd1 : rspIsHexDigit d1 = true) :
    Process.Runs (serve host) ⟨⟨m, r⟩, none⟩ (feed ind [char '#', d1])
      ⟨⟨m, { r with sum2 := hexValue d1 <<< 4, state := .checksum2 }⟩, none⟩ [] := by
  have hend : serve host (.byte (char '#') ind) ⟨m, r⟩ =
      ⟨.ok (), ⟨m, { r with state := .checksum1 }⟩, []⟩ := by
    rw [serve, rspHandleByte_eq]
    simp only [h.state, rspPacketData, if_true]
    rfl
  have hdigit : serve host (.byte d1 ind) ⟨m, { r with state := .checksum1 }⟩ =
      ⟨.ok (), ⟨m, { r with sum2 := hexValue d1 <<< 4, state := .checksum2 }⟩, []⟩ := by
    rw [serve, rspHandleByte_eq]
    simp only [rspChecksum1_run, if_pos hd1]
  exact (Process.Runs.single_ok hend).append (Process.Runs.single_ok hdigit)

/-- **A frame up to its last digit.** From any state outside of a packet, the packet is in the buffer with
    its sum, and what the buffer held behind it is still there. -/
theorem feed_frame {noise p : List Byte} {d1 : Byte} (hstate : r.state = .waitStart)
    (hnoise : ∀ c ∈ noise, c ≠ char '$' ∧ c ≠ 3) (hlen : p.length ≤ rspBufferSize)
    (hhash : char '#' ∉ p) (hd1 : rspIsHexDigit d1 = true) :
    ∃ r', r'.state = .checksum2 ∧ r'.packet = p ∧ r'.sum1 = p.sum ∧ r'.sum2 = hexValue d1 <<< 4 ∧
      (∀ i, p.length ≤ i.val → r'.inBuffer i = r.inBuffer i) ∧
      Process.Runs (serve host) ⟨⟨m, r⟩, none⟩
        (feed ind (noise ++ char '$' :: p ++ [char '#', d1])) ⟨⟨m, r'⟩, none⟩ [] := by
  obtain ⟨r1, hstate1, hold1, hruns1⟩ := feed_noise host m ind hstate hnoise
  obtain ⟨r2, hr2, hruns2⟩ := feed_start host m ind hstate1
  obtain ⟨r3, hr3, hruns3⟩ := feed_payload host m ind (p := p) hr2 hlen hhash
  have hruns4 := feed_digit host m ind hr3 hd1
  refine ⟨{ r3 with sum2 := hexValue d1 <<< 4, state := .checksum2 }, rfl, hr3.packet, hr3.sum, rfl,
    ?_, ?_⟩
  · intro i hi
    rw [← hold1]
    exact hr3.rest i hi
  · have hsplit : noise ++ char '$' :: p ++ [char '#', d1] =
        noise ++ ([char '$'] ++ (p ++ [char '#', d1])) := by simp
    rw [hsplit, feed_append, feed_append, feed_append]
    exact hruns1.append (hruns2.append (hruns3.append hruns4))

end Phases

/-! ## A frame -/

/-- The bytes of a frame with payload `p` and checksum digits `d1` and `d2`. -/
def frameBytes (p : List Byte) (d1 d2 : Byte) : List Byte := char '$' :: p ++ [char '#', d1, d2]

/-- **The last digit of a frame** decides. The handler runs on a buffer that starts with the payload; it
    is not called when the digits are wrong. -/
theorem feed_frameBytes (host : Host σ) (m : RV32 σ) (ind : Indeterminate) {r : RspReceiver}
    {noise p : List Byte} {d1 d2 : Byte} (hstate : r.state = .waitStart)
    (hnoise : ∀ c ∈ noise, c ≠ char '$' ∧ c ≠ 3) (hlen : p.length ≤ rspBufferSize)
    (hhash : char '#' ∉ p) (hd1 : rspIsHexDigit d1 = true) :
    ∃ r', r'.state = .checksum2 ∧ r'.packet = p ∧
      (∀ i, p.length ≤ i.val → r'.inBuffer i = r.inBuffer i) ∧
      (Matches r' d2 ↔ p.sum = hexByte d1 d2) ∧
      stubEvents host ⟨⟨m, r⟩, none⟩ (feed ind (noise ++ frameBytes p d1 d2)) =
        (rspChecksum2 host ind r' d2 ⟨m, r'⟩).out ∧
      stubRun host ⟨⟨m, r⟩, none⟩ (feed ind (noise ++ frameBytes p d1 d2)) =
        ⟨(rspChecksum2 host ind r' d2 ⟨m, r'⟩).state,
          match (rspChecksum2 host ind r' d2 ⟨m, r'⟩).value with
          | .ok _      => none
          | .error msg => some msg⟩ := by
  obtain ⟨r', hstate', hpacket, hsum1, hsum2, hrest, hruns⟩ :=
    feed_frame host m ind hstate hnoise hlen hhash hd1
  have hsplit : noise ++ frameBytes p d1 d2 = (noise ++ char '$' :: p ++ [char '#', d1]) ++ [d2] := by
    simp [frameBytes]
  have hserve : serve host (.byte d2 ind) ⟨m, r'⟩ = rspChecksum2 host ind r' d2 ⟨m, r'⟩ :=
    rspHandleByte_checksum2 hstate'
  have hlast : Process.Runs (serve host) ⟨⟨m, r'⟩, none⟩ [.byte d2 ind] _ _ := Process.Runs.single _ _
  rw [hserve] at hlast
  have hall := hruns.append hlast
  refine ⟨r', hstate', hpacket, hrest, ?_, ?_, ?_⟩
  · rw [Matches, hsum1, hsum2, hexByte]
  · rw [hsplit, feed_append]
    exact hall.sent
  · rw [hsplit, feed_append]
    exact hall.run

/-- A payload and two digits that are accepted. -/
structure WellFormed (p : List Byte) (d1 d2 : Byte) : Prop where
  fits : p.length ≤ rspBufferSize
  noHash : char '#' ∉ p
  digit1 : rspIsHexDigit d1 = true
  digit2 : rspIsHexDigit d2 = true
  sum : hexByte d1 d2 = p.sum

/-- The call of `rsp_handle_packet` a frame leads to. Behind the packet, the buffer holds what it held. -/
def frameOutcome (host : Host σ) (m : RV32 σ) (r : RspReceiver) (ind : Indeterminate) (p : List Byte) :
    Outcome (RV32 σ) (List Byte) RspHandlerResult :=
  rspHandlePacket host (packetBuffer p (r.buffer ind.behind)) p.length m

/-- **A well-formed frame** is acknowledged and handed over, and that call is all there is to it. -/
theorem feed_wellFormed (host : Host σ) (m : RV32 σ) (ind : Indeterminate) {r : RspReceiver}
    {p : List Byte} {d1 d2 : Byte} (h : WellFormed p d1 d2) (hstate : r.state = .waitStart) :
    ∃ r' : RspReceiver, r'.state = .checksum2 ∧ r'.packet = p ∧
      (∀ i, p.length ≤ i.val → r'.inBuffer i = r.inBuffer i) ∧
      Process.Runs (serve host) ⟨⟨m, r⟩, none⟩ (feed ind (frameBytes p d1 d2))
        (match (frameOutcome host m r ind p).value with
          | .ok handlerResult => ⟨⟨(frameOutcome host m r ind p).state, r'.finish d2 handlerResult⟩, none⟩
          | .error msg        =>
              ⟨⟨(frameOutcome host m r ind p).state, { r' with sum2 := r'.sum2 ||| hexValue d2 }⟩, some msg⟩)
        (.sent [char '+'] :: .handled p :: (frameOutcome host m r ind p).out.map .sent) := by
  have hnoise : ∀ c ∈ ([] : List Byte), c ≠ char '$' ∧ c ≠ 3 := List.forall_mem_nil _
  obtain ⟨r', hstate', hpacket, hrest, hmatches, hevents, hrun⟩ :=
    feed_frameBytes host m ind hstate hnoise h.fits h.noHash h.digit1
  have hsize : r'.iptr = p.length := by rw [← r'.packet_length, hpacket]
  -- the handler's buffer is the packet, and the old buffer behind it
  have hbuffer : r'.buffer ind.behind = packetBuffer p (r.buffer ind.behind) := by
    rw [r'.buffer_eq_packetBuffer, hpacket]
    funext i
    by_cases hi : i < p.length
    · exact packetBuffer_agree hi
    · rw [packetBuffer_of_le (Nat.le_of_not_lt hi), packetBuffer_of_le (Nat.le_of_not_lt hi)]
      unfold RspReceiver.buffer
      split
      · exact hrest _ (Nat.le_of_not_lt hi)
      · rfl
  have haccept : rspChecksum2 host ind r' d2 ⟨m, r'⟩ = _ :=
    rspChecksum2_accept h.digit2 (hmatches.mpr h.sum.symm)
  have hcall : rspHandlePacket host (r'.buffer ind.behind) r'.iptr m = frameOutcome host m r ind p := by
    rw [frameOutcome, hbuffer, hsize]
  rw [hcall, hpacket] at haccept
  refine ⟨r', hstate', hpacket, hrest, hrun.trans ?_, hevents.trans ?_⟩
  · rw [haccept]
    cases (frameOutcome host m r ind p).value with
    | ok handlerResult => rfl
    | error msg => rfl
  · rw [haccept]

end Rv32
