import Mathlib.Data.Bool.AllAny
import Mathlib.Data.List.FinRange
import Mathlib.Data.List.GetD
import Mathlib.Tactic.IntervalCases
import Rv32.Core.State

/-!
# `Rsp.Packet` — the packet builder of the GDB stub, its frames, and the reply to `g`

A packet under construction is the part of `buffer` below `ptr`, with the checksum of what was put behind
the `$`; that it fits into the buffer is a field, because the only function that extends it tests for the
end. `RSP_FATAL(msg)` does not return and is `throw msg`.

Everything the builder does is to put bytes at the end, one at a time. `RspPacket.appendBytes` is that
for a list of bytes, each function of the builder is equal to it at the bytes it writes, and
`RspPacket.appendBytes_of_fits` says once what becomes of the packet. A packet that is begun, filled, ended
and sent then is the `rspFrame` of what it was filled with (`rspPacketFrame_eq`).
-/

namespace Rv32

variable {σ : Type}

/-- `RSP_BUFFER_SIZE` -/
def rspBufferSize : Nat := 1024

/-- A character constant. -/
def char (c : Char) : Byte := BitVec.ofNat 8 c.toNat

/-- `rsp_handler_result_t` -/
inductive RspHandlerResult where
  | noPacketSent
  | packetSent
  deriving DecidableEq, Repr

/-- `rsp_packet_t` -/
structure RspPacket where
  buffer : List Byte   -- the bytes below `ptr`
  checksum : Byte
  fits : buffer.length ≤ rspBufferSize

def rspDigits : List Byte :=
  ['0', '1', '2', '3', '4', '5', '6', '7', '8', '9', 'a', 'b', 'c', 'd', 'e', 'f'].map char

/-- `rsp_to_hex_digit` -/
def rspToHexDigit (i : Byte) : Except String Byte :=
  if i > 0xf then throw "can't convert to hex digit" else pure (rspDigits.getD i.toNat 0)

/-- `rsp_packet_begin` -/
def rspPacketBegin : RspPacket where
  buffer := [char '$']
  checksum := 0
  fits := by decide

/-- `rsp_packet_append_byte_raw` -/
def rspPacketAppendByteRaw (p : RspPacket) (b : Byte) : Except String RspPacket :=
  if h : p.buffer.length < rspBufferSize then
    pure
      { buffer := p.buffer ++ [b]
        checksum := p.checksum + b
        fits := by rw [List.length_append]; exact h }
  else throw "output buffer too small"

/-- `rsp_packet_append_u8` -/
def rspPacketAppendU8 (p : RspPacket) (b : Byte) : Except String RspPacket := do
  let p ← rspPacketAppendByteRaw p (← rspToHexDigit ((b >>> 4) &&& 0xf))
  rspPacketAppendByteRaw p (← rspToHexDigit (b &&& 0xf))

/-- `rsp_packet_append_u32` -/
def rspPacketAppendU32 (p : RspPacket) (w : Word) : Except String RspPacket :=
  [0, 8, 16, 24].foldlM (fun p i => rspPacketAppendU8 p (((w >>> i) &&& 0xff).setWidth 8)) p

/-- `rsp_packet_end` -/
def rspPacketEnd (p : RspPacket) : Except String RspPacket := do
  let savedChecksum := p.checksum
  let p ← rspPacketAppendByteRaw p (char '#')
  let p ← rspPacketAppendU8 p savedChecksum
  rspPacketAppendByteRaw p 0

/-- `rsp_packet_send`: its result, and what the `"%s"` of `RSP_SEND` prints. -/
def rspPacketSend (p : RspPacket) : RspHandlerResult × List Byte :=
  (.packetSent, p.buffer.takeWhile (· ≠ 0))

/-- The bytes of a C string. -/
def cstr (s : String) : List Byte := s.toList.map char

/-- `rsp_packet_append`, on the bytes of a C string. -/
def rspPacketAppend (p : RspPacket) (data : List Byte) : Except String RspPacket :=
  data.foldlM (fun p c =>
    if p.buffer.length < rspBufferSize then
      if c = char '#' ∨ c = char '$' ∨ c = char '\x7d' then do
        let p ← rspPacketAppendByteRaw p (char '\x7d')
        rspPacketAppendByteRaw p (c ^^^ 0x20)
      else rspPacketAppendByteRaw p c
    else throw "output buffer too small") p

/-- `rsp_packet_quick_send` -/
def rspPacketQuickSend (data : List Byte) : Except String (RspHandlerResult × List Byte) := do
  let p ← rspPacketAppend rspPacketBegin data
  let p ← rspPacketEnd p
  pure (rspPacketSend p)

/-- `rsp_read_registers`, the handler of `g`. -/
def rspReadRegisters (s : RV32 σ) : Except String (RspHandlerResult × List Byte) := do
  let p ← (List.finRange 32).foldlM (fun p i => rspPacketAppendU32 p (s.r i)) rspPacketBegin
  let p ← rspPacketAppendU32 p s.pc
  let p ← rspPacketEnd p
  pure (rspPacketSend p)

/-! ## Hex digits -/

/-- The digit of a nibble. -/
def hexDigit (i : Byte) : Byte := rspDigits.getD i.toNat 0

/-- The two digits of a byte, high nibble first. -/
def hexU8 (b : Byte) : List Byte := [hexDigit ((b >>> 4) &&& 0xf), hexDigit (b &&& 0xf)]

/-- The eight digits of a word, low byte first. -/
def hexU32 (w : Word) : List Byte :=
  [0, 8, 16, 24].flatMap fun i => hexU8 (((w >>> i) &&& 0xff).setWidth 8)

theorem and_0xf_toNat (b : Byte) : (b &&& 0xf).toNat = b.toNat % 16 := by
  rw [BitVec.toNat_and, show (0xf : Byte).toNat = 2 ^ 4 - 1 from rfl, Nat.and_two_pow_sub_one_eq_mod]

theorem and_0xf_le (b : Byte) : b &&& 0xf ≤ 0xf := by
  rw [BitVec.le_def, and_0xf_toNat, show (0xf : Byte).toNat = 15 from rfl]
  omega

/-- The function is total where the builder calls it. -/
theorem rspToHexDigit_nibble (b : Byte) : rspToHexDigit (b &&& 0xf) = .ok (hexDigit (b &&& 0xf)) := by
  rw [rspToHexDigit, if_neg (BitVec.not_lt.mpr (and_0xf_le b))]
  rfl

theorem hexDigit_mem (b : Byte) : hexDigit (b &&& 0xf) ∈ rspDigits := by
  have hlt : (b &&& 0xf).toNat < rspDigits.length := by
    rw [and_0xf_toNat]
    exact Nat.mod_lt _ (by decide)
  rw [hexDigit, List.getD_eq_getElem _ _ hlt]
  exact List.getElem_mem hlt

/-- No digit is the NUL that ends a packet, or one of the bytes that delimit it. -/
theorem rspDigits_ne : ∀ d ∈ rspDigits, d ≠ 0 ∧ d ≠ char '#' ∧ d ≠ char '$' := by
  -- `decide` on the quantifier itself would go through all the bytes
  have hall : rspDigits.all fun d => d ≠ 0 ∧ d ≠ char '#' ∧ d ≠ char '$' := by decide
  exact List.all_iff_forall_prop.mp hall

/-- Only 0 has the digit `0`. -/
theorem hexDigit_nibble (b : Byte) : hexDigit (b &&& 0xf) = char '0' ↔ b.toNat % 16 = 0 := by
  -- the digits are looked at one by one
  unfold hexDigit
  rw [and_0xf_toNat]
  have hlt : b.toNat % 16 < 16 := Nat.mod_lt _ (by decide)
  generalize b.toNat % 16 = n at hlt
  interval_cases n <;> decide

theorem hexU8_length (b : Byte) : (hexU8 b).length = 2 := rfl

theorem hexU8_mem (b : Byte) : ∀ d ∈ hexU8 b, d ∈ rspDigits := by
  intro d hd
  rcases List.mem_pair.mp hd with rfl | rfl
  · exact hexDigit_mem _
  · exact hexDigit_mem b

theorem hexU32_length (w : Word) : (hexU32 w).length = 8 := rfl

theorem hexU32_mem (w : Word) : ∀ d ∈ hexU32 w, d ∈ rspDigits := by
  intro d hd
  obtain ⟨i, -, hi⟩ := List.mem_flatMap.mp hd
  exact hexU8_mem _ d hi

theorem hexU8_zero_iff (b : Byte) : hexU8 b = List.replicate 2 (char '0') ↔ b = 0 := by
  have hlt : b.toNat < 256 := b.isLt
  have hhigh : (b >>> 4).toNat = b.toNat / 16 := by
    rw [BitVec.toNat_ushiftRight, Nat.shiftRight_eq_div_pow]
  simp only [hexU8, List.replicate, List.cons.injEq, hexDigit_nibble _, hhigh, and_true,
    ← BitVec.toNat_inj, show (0 : Byte).toNat = 0 from rfl]
  omega

/-- **Eight zero digits are the word zero.** -/
theorem hexU32_zero_iff (w : Word) : hexU32 w = List.replicate 8 (char '0') ↔ w = 0 := by
  have hbyte : ∀ i, ((w >>> i) &&& 0xff).setWidth 8 = (0 : Byte) ↔ w.toNat / 2 ^ i % 256 = 0 := by
    intro i
    rw [← BitVec.toNat_inj, BitVec.toNat_setWidth, BitVec.toNat_and, BitVec.toNat_ushiftRight,
      Nat.shiftRight_eq_div_pow, show (0xff : Word).toNat = 2 ^ 8 - 1 from rfl,
      Nat.and_two_pow_sub_one_eq_mod, show (0 : Byte).toNat = 0 from rfl, Nat.mod_mod]
  have hlt : w.toNat < 2 ^ 32 := w.isLt
  simp only [hexU32, List.flatMap_cons, List.flatMap_nil, List.append_eq_replicate_iff,
    List.length_append, List.length_nil, hexU8_length, hexU8_zero_iff, hbyte, List.replicate_zero,
    ← BitVec.toNat_inj, show (0 : Word).toNat = 0 from rfl, and_true, true_and]
  omega

/-! ## Building -/

/-- The bytes of `bs` put at the end, one by one. -/
def RspPacket.appendBytes (p : RspPacket) (bs : List Byte) : Except String RspPacket :=
  bs.foldlM rspPacketAppendByteRaw p

theorem RspPacket.appendBytes_append (p : RspPacket) (as bs : List Byte) :
    p.appendBytes (as ++ bs) = (p.appendBytes as >>= fun q => q.appendBytes bs) :=
  List.foldlM_append

/-- A loop that appends for every element appends the concatenation. -/
theorem RspPacket.foldlM_appendBytes {ι : Type} (f : ι → List Byte) (xs : List ι) (p : RspPacket) :
    xs.foldlM (fun q x => q.appendBytes (f x)) p = p.appendBytes (xs.flatMap f) := by
  induction xs generalizing p with
  | nil => rfl
  | cons x xs ih =>
      rw [List.foldlM_cons, List.flatMap_cons, RspPacket.appendBytes_append]
      exact bind_congr fun q => ih q

/-- **What fits is appended**, to the buffer and to the checksum. -/
theorem RspPacket.appendBytes_of_fits (p : RspPacket) (bs : List Byte)
    (h : (p.buffer ++ bs).length ≤ rspBufferSize) :
    p.appendBytes bs = .ok { buffer := p.buffer ++ bs, checksum := p.checksum + bs.sum, fits := h } := by
  induction bs generalizing p with
  | nil => simp [appendBytes, pure, Except.pure]
  | cons b bs ih =>
      have hb : p.buffer.length < rspBufferSize := by
        simp only [List.length_append, List.length_cons] at h; omega
      rw [appendBytes, List.foldlM_cons, rspPacketAppendByteRaw, dif_pos hb]
      refine (ih _ (by simpa using h)).trans ?_
      simp [BitVec.add_assoc]

/-- **What does not fit is fatal.** -/
theorem RspPacket.appendBytes_of_not_fits (p : RspPacket) (bs : List Byte)
    (h : rspBufferSize < (p.buffer ++ bs).length) :
    p.appendBytes bs = .error "output buffer too small" := by
  induction bs generalizing p with
  | nil =>
      rw [List.append_nil] at h
      exact absurd p.fits (by omega)
  | cons b bs ih =>
      rw [appendBytes, List.foldlM_cons, rspPacketAppendByteRaw]
      split
      · refine ih _ ?_
        simpa using h
      · rfl

theorem rspPacketAppendU8_eq (p : RspPacket) (b : Byte) :
    rspPacketAppendU8 p b = p.appendBytes (hexU8 b) := by
  rw [rspPacketAppendU8, rspToHexDigit_nibble, rspToHexDigit_nibble]
  simp only [RspPacket.appendBytes, hexU8, List.foldlM_cons, List.foldlM_nil, bind_pure]
  rfl

theorem rspPacketAppendU32_eq (p : RspPacket) (w : Word) :
    rspPacketAppendU32 p w = p.appendBytes (hexU32 w) := by
  simp only [rspPacketAppendU32, rspPacketAppendU8_eq]
  exact RspPacket.foldlM_appendBytes _ _ _

theorem rspPacketEnd_eq (p : RspPacket) :
    rspPacketEnd p = p.appendBytes (char '#' :: hexU8 p.checksum ++ [0]) := by
  simp only [rspPacketEnd, rspPacketAppendU8_eq, RspPacket.appendBytes, List.cons_append,
    List.foldlM_cons, List.foldlM_append, List.foldlM_nil, bind_pure]

/-- Sending stops at the NUL. -/
theorem rspPacketSend_of_nul {p : RspPacket} {bs : List Byte} (hp : p.buffer = bs ++ [0])
    (hbs : ∀ d ∈ bs, d ≠ 0) : rspPacketSend p = (.packetSent, bs) := by
  rw [rspPacketSend, hp, List.takeWhile_append_of_pos fun d hd => decide_eq_true (hbs d hd)]
  simp

/-! ## Frames -/

/-- The frame of a payload, as it goes over the wire. -/
def rspFrame (payload : List Byte) : List Byte :=
  char '$' :: payload ++ char '#' :: hexU8 payload.sum

/-- A packet filled with `payload`, from its beginning to its sending. -/
def rspPacketFrame (payload : List Byte) : Except String (RspHandlerResult × List Byte) := do
  let p ← rspPacketBegin.appendBytes payload
  let p ← rspPacketEnd p
  pure (rspPacketSend p)

theorem rspFrame_length (payload : List Byte) : (rspFrame payload).length = payload.length + 4 := by
  simp [rspFrame, hexU8_length]

theorem rspFrame_ne_zero {payload : List Byte} (h : ∀ d ∈ payload, d ≠ 0) :
    ∀ d ∈ rspFrame payload, d ≠ 0 := by
  intro d hd
  simp only [rspFrame, List.cons_append, List.mem_cons, List.mem_append] at hd
  rcases hd with rfl | hp | rfl | hsum
  · decide
  · exact h d hp
  · decide
  · exact (rspDigits_ne d (hexU8_mem _ d hsum)).1

/-- **A packet that is begun, filled and ended** holds the frame of the payload and the NUL. -/
theorem rspPacketFilled_of_fits {payload : List Byte} (h : payload.length + 5 ≤ rspBufferSize) :
    ∃ p, (rspPacketBegin.appendBytes payload >>= rspPacketEnd) = .ok p ∧
      p.buffer = rspFrame payload ++ [0] := by
  have hbody := RspPacket.appendBytes_of_fits rspPacketBegin payload
    (by simp [rspPacketBegin]; omega)
  rw [hbody]
  show ∃ p, rspPacketEnd _ = Except.ok p ∧ _
  rw [rspPacketEnd_eq, RspPacket.appendBytes_of_fits _ _
    (by simp [rspPacketBegin, hexU8_length]; omega)]
  refine ⟨_, rfl, ?_⟩
  simp [rspPacketBegin, rspFrame]

/-- What does not fit is fatal, be it the payload or what comes after it. -/
theorem rspPacketFilled_of_not_fits {payload : List Byte} (h : rspBufferSize < payload.length + 5) :
    (rspPacketBegin.appendBytes payload >>= rspPacketEnd) = .error "output buffer too small" := by
  by_cases hbody : payload.length + 1 ≤ rspBufferSize
  · rw [RspPacket.appendBytes_of_fits _ _ (by simp [rspPacketBegin]; omega)]
    show rspPacketEnd _ = _
    rw [rspPacketEnd_eq, RspPacket.appendBytes_of_not_fits _ _
      (by simp [rspPacketBegin, hexU8_length]; omega)]
  · rw [RspPacket.appendBytes_of_not_fits _ _ (by simp [rspPacketBegin]; omega)]
    rfl

/-- **What is sent is the frame of the payload**, when it fits with the NUL behind it. -/
theorem rspPacketFrame_eq {payload : List Byte} (h : ∀ d ∈ payload, d ≠ 0) :
    rspPacketFrame payload =
      if payload.length + 5 ≤ rspBufferSize then .ok (.packetSent, rspFrame payload)
      else .error "output buffer too small" := by
  have hfilled : rspPacketFrame payload =
      (rspPacketBegin.appendBytes payload >>= rspPacketEnd) >>= fun p => pure (rspPacketSend p) := by
    rw [rspPacketFrame, bind_assoc]
  rw [hfilled]
  by_cases hfits : payload.length + 5 ≤ rspBufferSize
  · obtain ⟨p, hp, hbuffer⟩ := rspPacketFilled_of_fits hfits
    rw [if_pos hfits, hp]
    exact congrArg Except.ok (rspPacketSend_of_nul hbuffer (rspFrame_ne_zero h))
  · rw [if_neg hfits, rspPacketFilled_of_not_fits (Nat.lt_of_not_le hfits)]
    rfl

/-- What `rsp_packet_append` puts for one byte. -/
def rspEscape (c : Byte) : List Byte :=
  if c = char '#' ∨ c = char '$' ∨ c = char '\x7d' then [char '\x7d', c ^^^ 0x20] else [c]

/-- The test for room of `rsp_packet_append` is made again by the append itself. -/
theorem rspPacketAppend_eq (p : RspPacket) (data : List Byte) :
    rspPacketAppend p data = p.appendBytes (data.flatMap rspEscape) := by
  rw [rspPacketAppend, ← RspPacket.foldlM_appendBytes]
  refine congrArg (fun f => data.foldlM f p) (funext fun q => funext fun c => ?_)
  by_cases hroom : q.buffer.length < rspBufferSize
  · rw [if_pos hroom, rspEscape]
    split
    · simp [RspPacket.appendBytes]
    · simp [RspPacket.appendBytes]
  · rw [if_neg hroom]
    refine (RspPacket.appendBytes_of_not_fits q _ ?_).symm
    have hescape : 0 < (rspEscape c).length := by
      unfold rspEscape
      split <;> simp
    rw [List.length_append]
    omega

theorem rspPacketQuickSend_eq (data : List Byte) :
    rspPacketQuickSend data = rspPacketFrame (data.flatMap rspEscape) := by
  rw [rspPacketQuickSend, rspPacketFrame, rspPacketAppend_eq]

/-! ## The reply to `g` -/

/-- The payload of the reply: the registers in order, then `pc`. -/
def registersHex (s : RV32 σ) : List Byte :=
  (List.finRange 32).flatMap (fun i => hexU32 (s.r i)) ++ hexU32 s.pc

theorem registersHex_length (s : RV32 σ) : (registersHex s).length = 264 := by
  simp [registersHex, List.length_flatMap, hexU32_length]

theorem registersHex_mem (s : RV32 σ) : ∀ d ∈ registersHex s, d ∈ rspDigits := by
  intro d hd
  rcases List.mem_append.mp hd with hr | hpc
  · obtain ⟨i, -, hi⟩ := List.mem_flatMap.mp hr
    exact hexU32_mem _ d hi
  · exact hexU32_mem _ d hpc

/-- The first register comes first. -/
theorem registersHex_head (s : RV32 σ) : ∃ rest, registersHex s = hexU32 (s.r regZero) ++ rest :=
  ⟨(List.finRange 31).flatMap (fun i => hexU32 (s.r i.succ)) ++ hexU32 s.pc, by
    rw [registersHex, List.finRange_succ, List.flatMap_cons, List.flatMap_map, List.append_assoc]⟩

/-- **The reply to `g`** is the one frame of the register file. -/
theorem rspReadRegisters_eq (s : RV32 σ) :
    rspReadRegisters s =
      .ok (.packetSent, char '$' :: registersHex s ++ char '#' :: hexU8 (registersHex s).sum) := by
  have hbody : ((List.finRange 32).foldlM (fun p i => rspPacketAppendU32 p (s.r i)) rspPacketBegin >>=
      fun p => rspPacketAppendU32 p s.pc) = rspPacketBegin.appendBytes (registersHex s) := by
    simp only [rspPacketAppendU32_eq, RspPacket.foldlM_appendBytes, registersHex,
      RspPacket.appendBytes_append]
  rw [rspReadRegisters, ← bind_assoc, hbody]
  have hnul : ∀ d ∈ registersHex s, d ≠ 0 := fun d hd => (rspDigits_ne d (registersHex_mem s d hd)).1
  refine (rspPacketFrame_eq hnul).trans (if_pos ?_)
  rw [registersHex_length]
  decide

end Rv32
