import Rv32.Lib.Refine
import Rv32.Rsp.Packet

/-!
# `Rsp.PacketMemory` — the packet builder, on the array it writes to

In `Rsp.Packet` a packet is the list of the bytes below `ptr`, and that it fits is part of its type. Here the
same functions work on the struct as it lies in memory, with everything that is behind the array: what keeps
them inside of the array is their own test, and every index they write to is an item they send. They refine
the functions of `Rsp.Packet`, and no index they send is past the end.
-/

namespace Rv32

open Prog

/-- `rsp_packet_t`, and the memory behind its `buffer`. -/
structure RspPacketT where
  buffer : Nat → Byte
  ptr : Nat
  checksum : Byte

/-- The functions of the builder. They send the indices of `buffer` they write to. -/
abbrev RspBuilder : Type := Prog RspPacketT Nat Unit

namespace RspPacketT

/-- `p->buffer[i] = b;` -/
def write (i : Nat) (b : Byte) : RspBuilder := do
  send i
  modifyState fun p => { p with buffer := Function.update p.buffer i b }

/-- `rsp_packet_begin` -/
def packetBegin : RspBuilder := do
  write 0 (char '$')
  modifyState fun p => { p with ptr := 1, checksum := 0 }

/-- `rsp_packet_append_byte_raw` -/
def appendByteRaw (b : Byte) : RspBuilder := do
  let p ← getState
  if p.ptr < rspBufferSize then
    write p.ptr b
    modifyState fun p => { p with ptr := p.ptr + 1, checksum := p.checksum + b }
  else fatal "output buffer too small"

/-- `rsp_packet_append`, on the bytes of a C string. -/
def append (data : List Byte) : RspBuilder :=
  data.forM fun c => do
    let p ← getState
    if p.ptr < rspBufferSize then
      if c = char '#' ∨ c = char '$' ∨ c = char '\x7d' then
        appendByteRaw (char '\x7d')
        appendByteRaw (c ^^^ 0x20)
      else appendByteRaw c
    else fatal "output buffer too small"

/-- `rsp_packet_append_u8` -/
def appendU8 (b : Byte) : RspBuilder := do
  let hi ← attempt (rspToHexDigit ((b >>> 4) &&& 0xf))
  appendByteRaw hi
  let lo ← attempt (rspToHexDigit (b &&& 0xf))
  appendByteRaw lo

/-- `rsp_packet_append_u32` -/
def appendU32 (w : Word) : RspBuilder :=
  [0, 8, 16, 24].forM fun i => appendU8 (((w >>> i) &&& 0xff).setWidth 8)

/-- `rsp_packet_end` -/
def packetEnd : RspBuilder := do
  let p ← getState
  let savedChecksum := p.checksum
  appendByteRaw (char '#')
  appendU8 savedChecksum
  appendByteRaw 0

/-- The bytes below `ptr`. -/
def text (m : RspPacketT) : List Byte := (List.range m.ptr).map m.buffer

end RspPacketT

/-! ## Refinement -/

/-- `m` holds the packet `p`. -/
structure Holds (p : RspPacket) (m : RspPacketT) : Prop where
  text : m.text = p.buffer
  checksum : m.checksum = p.checksum

theorem Holds.ptr {p : RspPacket} {m : RspPacketT} (h : Holds p m) : m.ptr = p.buffer.length := by
  rw [← h.text, RspPacketT.text, List.length_map, List.length_range]

/-- A function of the builder does to the packet what its counterpart says, and writes inside of the
    buffer. -/
abbrev Builds (f : RspPacket → Except String RspPacket) (b : RspBuilder) : Prop :=
  Refines Holds Holds (· < rspBufferSize) f b

/-- A packet can be begun in any memory. -/
theorem refines_packetBegin :
    Refines (fun (_ : Unit) _ => True) Holds (· < rspBufferSize) (fun _ => .ok rspPacketBegin)
      RspPacketT.packetBegin := by
  intro _ m _
  refine ⟨rfl, ?_, ?_⟩
  · rintro p ⟨⟩
    refine ⟨?_, rfl⟩
    show [Function.update m.buffer 0 (char '$') 0] = [char '$']
    rw [Function.update_self]
  · intro i hi
    obtain rfl : i = 0 := List.mem_singleton.mp hi
    decide

theorem builds_appendByteRaw (b : Byte) :
    Builds (fun p => rspPacketAppendByteRaw p b) (RspPacketT.appendByteRaw b) := by
  intro p m hm
  show Outcome.Refines _ _ (if h : p.buffer.length < rspBufferSize then _ else _)
    ((if m.ptr < rspBufferSize then _ else _ : RspBuilder) m)
  rw [hm.ptr]
  by_cases hroom : p.buffer.length < rspBufferSize
  · rw [dif_pos hroom, if_pos hroom]
    refine ⟨rfl, ?_, ?_⟩
    · rintro q ⟨⟩
      refine ⟨?_, congrArg (· + b) hm.checksum⟩
      show (List.range (m.ptr + 1)).map (Function.update m.buffer p.buffer.length b) = p.buffer ++ [b]
      have hkept : (List.range m.ptr).map (Function.update m.buffer p.buffer.length b) = p.buffer := by
        rw [← hm.text]
        refine List.map_congr_left fun i hi => Function.update_of_ne ?_ _ _
        rw [hm.text, ← hm.ptr]
        exact Nat.ne_of_lt (List.mem_range.mp hi)
      rw [List.range_succ, List.map_append, hkept, List.map_singleton, hm.ptr, Function.update_self]
    · intro i hi
      obtain rfl : i = p.buffer.length := List.mem_singleton.mp hi
      exact hroom
  · rw [dif_neg hroom, if_neg hroom]
    exact refines_fatal "output buffer too small" p m hm

theorem Holds.room {p : RspPacket} {m : RspPacketT} (h : Holds p m) :
    p.buffer.length < rspBufferSize ↔ m.ptr < rspBufferSize := by
  rw [h.ptr]

theorem builds_append (data : List Byte) :
    Builds (fun p => rspPacketAppend p data) (RspPacketT.append data) := by
  unfold rspPacketAppend RspPacketT.append
  refine refines_forM (fun c => ?_) data
  refine refines_getState_bind fun p m hm => refines_ite hm.room (fun _ => ?_) fun _ => ?_
  · refine refines_ite Iff.rfl (fun _ => ?_) fun _ => ?_
    · exact (builds_appendByteRaw _).bind (builds_appendByteRaw _) p m hm
    · exact builds_appendByteRaw c p m hm
  · exact refines_fatal "output buffer too small" p m hm

theorem builds_appendU8 (b : Byte) :
    Builds (fun p => rspPacketAppendU8 p b) (RspPacketT.appendU8 b) := by
  refine refines_attempt_bind fun hi => ?_
  refine (builds_appendByteRaw hi).bind ?_
  exact refines_attempt_bind fun lo => builds_appendByteRaw lo

theorem builds_appendU32 (w : Word) :
    Builds (fun p => rspPacketAppendU32 p w) (RspPacketT.appendU32 w) := by
  unfold rspPacketAppendU32 RspPacketT.appendU32
  apply refines_forM
  intro i
  exact builds_appendU8 (((w >>> i) &&& 0xff).setWidth 8)

theorem builds_packetEnd : Builds rspPacketEnd RspPacketT.packetEnd := by
  refine refines_getState_bind fun p m hm => ?_
  simp only [hm.checksum]
  have htrailer : Builds (fun q => rspPacketAppendByteRaw q (char '#') >>= fun q =>
      rspPacketAppendU8 q p.checksum >>= fun q => rspPacketAppendByteRaw q 0) _ :=
    (builds_appendByteRaw (char '#')).bind ((builds_appendU8 p.checksum).bind (builds_appendByteRaw 0))
  exact htrailer p m hm

end Rv32
