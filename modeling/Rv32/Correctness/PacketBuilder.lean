import Rv32.Rsp.Hex
import Rv32.Rsp.PacketMemory

/-!
# `Correctness.PacketBuilder` — what is put into a packet can be taken out again

A packet is begun, filled by any sequence of calls, and ended. If all of it fits, its text is a frame whose
payload has none of the bytes that delimit it, whose checksum is right, and which means what the calls were
given. If not, one of the calls is fatal, wherever the end of the buffer falls, and nothing has been written
behind the buffer.
-/

namespace Rv32

open Prog

/-- A C string, without the NUL that ends it. -/
structure CString where
  bytes : List Byte
  noNul : (0 : Byte) ∉ bytes

/-- A call that fills a packet. -/
inductive RspPacketCall where
  | append (data : CString)
  | appendU8 (b : Byte)
  | appendU32 (w : Word)

/-- The call. -/
def RspPacketCall.run : RspPacketCall → RspBuilder
  | append data => RspPacketT.append data.bytes
  | appendU8 b  => RspPacketT.appendU8 b
  | appendU32 w => RspPacketT.appendU32 w

/-- What it is given, as text. -/
def RspPacketCall.plain : RspPacketCall → List Byte
  | append data => data.bytes
  | appendU8 b  => hexU8 b
  | appendU32 w => hexU32 w

/-- What it puts into the packet. -/
def RspPacketCall.encoded : RspPacketCall → List Byte
  | append data => data.bytes.flatMap rspEscape
  | appendU8 b  => hexU8 b
  | appendU32 w => hexU32 w

/-- A packet, from `rsp_packet_begin` to `rsp_packet_end`. -/
def rspPacketBuild (calls : List RspPacketCall) : RspBuilder := do
  RspPacketT.packetBegin
  calls.forM RspPacketCall.run
  RspPacketT.packetEnd

/-- Escapes taken back: a `}` stands for the byte behind it, flipped. -/
def unescape : List Byte → List Byte
  | []          => []
  | [c]         => [c]
  | c :: d :: q => if c = char '\x7d' then (d ^^^ 0x20) :: unescape q else c :: unescape (d :: q)

/-- A text that is the packet of `payload`, which means `data`. -/
structure DecodablePacket (payload data text : List Byte) : Prop where
  framed : ∃ h1 h2, text = char '$' :: payload ++ [char '#', h1, h2, 0] ∧
    rspIsHexDigit h1 = true ∧ rspIsHexDigit h2 = true ∧
    (hexByte h1 h2).toNat = (payload.map BitVec.toNat).sum % 256
  noHash : char '#' ∉ payload
  noDollar : char '$' ∉ payload
  unescapes : unescape payload = data

/-! ## Escapes -/

theorem unescape_escape (c : Byte) (q : List Byte) : unescape (rspEscape c ++ q) = c :: unescape q := by
  rw [rspEscape]
  by_cases hspecial : c = char '#' ∨ c = char '$' ∨ c = char '\x7d'
  · have hflip : (c ^^^ 0x20) ^^^ 0x20 = c := by rw [BitVec.xor_assoc, BitVec.xor_self, BitVec.xor_zero]
    rw [if_pos hspecial, List.cons_append, List.cons_append, unescape, if_pos rfl, hflip, List.nil_append]
  · rw [if_neg hspecial, List.singleton_append]
    have hc : c ≠ char '\x7d' := fun h => hspecial (.inr (.inr h))
    cases q with
    | nil => rfl
    | cons d q => rw [unescape, if_neg hc]

/-- **Escaped data can be read back.** -/
theorem unescape_flatMap (data : List Byte) : unescape (data.flatMap rspEscape) = data := by
  induction data with
  | nil => rfl
  | cons c data ih => rw [List.flatMap_cons, unescape_escape, ih]

/-- Escaped data does not have the bytes that delimit a packet. -/
theorem rspEscape_ne {c d : Byte} (h : d ∈ rspEscape c) : d ≠ char '#' ∧ d ≠ char '$' := by
  rw [rspEscape] at h
  split at h
  · next hspecial =>
      rcases hspecial with rfl | rfl | rfl
      all_goals
        rcases List.mem_pair.mp h with rfl | rfl
        all_goals decide
  · next hspecial =>
      obtain rfl : d = c := List.mem_singleton.mp h
      exact ⟨fun hd => hspecial (.inl hd), fun hd => hspecial (.inr (.inl hd))⟩

/-- Digits are not escaped. -/
theorem flatMap_escape_digits {ds : List Byte} (h : ∀ d ∈ ds, d ∈ rspDigits) :
    ds.flatMap rspEscape = ds := by
  have hdigit : rspDigits.all fun d => rspEscape d = [d] := by decide
  have hsame : ∀ d ∈ ds, rspEscape d = [d] := fun d hd =>
    List.all_iff_forall_prop.mp hdigit d (h d hd)
  rw [List.flatMap_congr hsame]
  exact List.flatMap_singleton' ds

/-- Every call puts what it is given, escaped. -/
theorem RspPacketCall.encoded_eq (call : RspPacketCall) : call.encoded = call.plain.flatMap rspEscape := by
  cases call with
  | append data => rfl
  | appendU8 b => exact (flatMap_escape_digits (hexU8_mem b)).symm
  | appendU32 w => exact (flatMap_escape_digits (hexU32_mem w)).symm

theorem encoded_eq (calls : List RspPacketCall) :
    calls.flatMap RspPacketCall.encoded = (calls.flatMap RspPacketCall.plain).flatMap rspEscape := by
  rw [List.flatMap_assoc]
  exact List.flatMap_congr fun call _ => call.encoded_eq

/-! ## The checksum -/

/-- Bytes are added modulo 256. -/
theorem sum_toNat (bs : List Byte) : bs.sum.toNat = (bs.map BitVec.toNat).sum % 256 := by
  induction bs with
  | nil => rfl
  | cons b bs ih =>
      rw [List.sum_cons, BitVec.toNat_add, ih, List.map_cons, List.sum_cons]
      omega

/-- **The frame of escaped data** means the data. -/
theorem decodablePacket_frame (data : List Byte) :
    DecodablePacket (data.flatMap rspEscape) data (rspFrame (data.flatMap rspEscape) ++ [0]) := by
  have hne : ∀ d ∈ data.flatMap rspEscape, d ≠ char '#' ∧ d ≠ char '$' := by
    intro d hd
    obtain ⟨c, -, hc⟩ := List.mem_flatMap.mp hd
    exact rspEscape_ne hc
  constructor
  case framed =>
    generalize data.flatMap rspEscape = payload
    refine ⟨hexDigit ((payload.sum >>> 4) &&& 0xf), hexDigit (payload.sum &&& 0xf), ?_,
      (hexDigit_decode _).1, (hexDigit_decode _).1, ?_⟩
    · rw [rspFrame, hexU8]
      simp
    · rw [hexByte_digits, sum_toNat]
  case noHash => exact fun h => (hne _ h).1 rfl
  case noDollar => exact fun h => (hne _ h).2 rfl
  case unescapes => exact unescape_flatMap data

/-! ## Building -/

theorem RspPacketCall.builds (call : RspPacketCall) :
    Builds (fun p => p.appendBytes call.encoded) call.run := by
  cases call with
  | append data =>
      have happend := builds_append data.bytes
      simp only [rspPacketAppend_eq] at happend
      exact happend
  | appendU8 b =>
      have happend := builds_appendU8 b
      simp only [rspPacketAppendU8_eq] at happend
      exact happend
  | appendU32 w =>
      have happend := builds_appendU32 w
      simp only [rspPacketAppendU32_eq] at happend
      exact happend

/-- **The build** fills a packet with what the calls put into it, and stays in the buffer. -/
theorem refines_packetBuild (calls : List RspPacketCall) :
    Refines (fun (_ : Unit) _ => True) Holds (· < rspBufferSize)
      (fun _ => rspPacketBegin.appendBytes (calls.flatMap RspPacketCall.encoded) >>= rspPacketEnd)
      (rspPacketBuild calls) := by
  have hcalls := refines_forM RspPacketCall.builds calls
  simp only [RspPacket.foldlM_appendBytes] at hcalls
  exact refines_packetBegin.bind (hcalls.bind builds_packetEnd)

/-- What fits leaves its frame and the NUL, and what does not is fatal. -/
theorem packetBuild_cases (calls : List RspPacketCall) (m : RspPacketT) :
    ((calls.flatMap RspPacketCall.encoded).length ≤ 1019 ∧ (rspPacketBuild calls m).value = .ok () ∧
        (rspPacketBuild calls m).state.text =
          rspFrame (calls.flatMap RspPacketCall.encoded) ++ [0]) ∨
      (1019 < (calls.flatMap RspPacketCall.encoded).length ∧
        (rspPacketBuild calls m).value = .error "output buffer too small") := by
  obtain ⟨hvalue, hstate, -⟩ := refines_packetBuild calls () m trivial
  rcases Nat.lt_or_ge 1019 (calls.flatMap RspPacketCall.encoded).length with hlong | hfits
  · refine .inr ⟨hlong, ?_⟩
    have hover : rspBufferSize < (calls.flatMap RspPacketCall.encoded).length + 5 := by
      rw [rspBufferSize]
      omega
    rw [hvalue, rspPacketFilled_of_not_fits hover]
    rfl
  · obtain ⟨p, hp, hbuffer⟩ := rspPacketFilled_of_fits (Nat.add_le_add_right hfits 5)
    refine .inl ⟨hfits, ?_, ?_⟩
    · rw [hvalue, hp]
      rfl
    · rw [(hstate p hp).text, hbuffer]

/-- **The packet builder is decodable.** Whatever was in the struct, a sequence of calls either fits and
    leaves a packet that means what they were given, or ends in `RSP_FATAL`; and it writes to no index past
    the end of the buffer. -/
theorem packetBuild_decodable (calls : List RspPacketCall) (m : RspPacketT) :
    (∀ i ∈ (rspPacketBuild calls m).out, i < 1024) ∧
      if (calls.flatMap RspPacketCall.encoded).length ≤ 1019 then
        (rspPacketBuild calls m).value = .ok () ∧
          DecodablePacket (calls.flatMap RspPacketCall.encoded) (calls.flatMap RspPacketCall.plain)
            (rspPacketBuild calls m).state.text
      else (rspPacketBuild calls m).value = .error "output buffer too small" := by
  refine ⟨(refines_packetBuild calls () m trivial).out, ?_⟩
  rcases packetBuild_cases calls m with ⟨hfits, hok, htext⟩ | ⟨hlong, herror⟩
  · rw [if_pos hfits]
    refine ⟨hok, ?_⟩
    rw [htext, encoded_eq]
    exact decodablePacket_frame _
  · rw [if_neg (Nat.not_le_of_lt hlong)]
    exact herror

end Rv32
