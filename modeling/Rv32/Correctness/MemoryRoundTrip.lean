import Rv32.Correctness.MemoryReads

/-!
# `Correctness.MemoryRoundTrip` — a debugger reads back what it wrote

`M` and `m` parse the same two numbers, `M` decodes the bytes that `m` encodes, and both index the RAM from
the same address. Inside of the RAM a write therefore changes the bytes it names and nothing else, and the
read that follows answers with them, whatever the case of the digits they were written in.
-/

namespace Rv32

open Prog

variable {σ : Type} {s : RV32 σ}

/-- The digits `ds`, of either case, denote the bytes `bs`, two digits each. -/
inductive HexData : List Byte → List Byte → Prop where
  | nil : HexData [] []
  | cons {d1 d2 : Byte} {ds bs : List Byte} (h1 : rspIsHexDigit d1 = true)
      (h2 : rspIsHexDigit d2 = true) (rest : HexData ds bs) :
      HexData (d1 :: d2 :: ds) (hexByte d1 d2 :: bs)

/-- The packet `M` with an address, a length and data. -/
def writePacket (addr len ds : List Byte) : List Byte :=
  char 'M' :: (addr ++ char ',' :: (len ++ char ':' :: ds))

/-- The machine with the bytes `bs` in its RAM from `a` on, and nothing else changed. -/
def RV32.withBytes (s : RV32 σ) (a : Nat) (bs : List Byte) : RV32 σ :=
  { s with
    mem.bytes := fun x => if a ≤ x then (bs[x - a]?).getD (s.mem.bytes x) else s.mem.bytes x }

/-! ## Data -/

variable {ds bs : List Byte}

theorem HexData.length (h : HexData ds bs) : ds.length = 2 * bs.length := by
  induction h with
  | nil => rfl
  | cons _ _ _ ih =>
      simp only [List.length_cons, ih]
      omega

/-- **Decoding.** Where the digits stand in a packet, the decoder finds the bytes. -/
theorem HexData.pair (h : HexData ds bs) (behind : Nat → Byte) {p : List Byte} {k : Nat} (hp : p.drop k = ds) (i : Nat)
    (hi : i < bs.length) :
    HexPair (packetBuffer p behind) (k + 2 * i) ∧
      hexPairValue (packetBuffer p behind) (k + 2 * i) = bs[i] := by
  induction h generalizing k i with
  | nil => cases hi
  | @cons d1 d2 ds bs h1 h2 _ ih =>
      have hp1 : p.drop (k + 1) = d2 :: ds := by rw [← List.tail_drop, hp]; rfl
      have hp2 : p.drop (k + 2) = ds := by rw [← List.tail_drop, hp1]; rfl
      cases i with
      | zero =>
          have hd1 : packetBuffer p behind k = d1 := packetBuffer_of_drop hp
          have hd2 : packetBuffer p behind (k + 1) = d2 := packetBuffer_of_drop hp1
          rw [Nat.mul_zero, Nat.add_zero, HexPair, hexPairValue, hd1, hd2]
          exact ⟨⟨h1, h2⟩, rfl⟩
      | succ i =>
          have hrest := ih hp2 i (Nat.lt_of_succ_lt_succ hi)
          rw [show k + 2 * (i + 1) = k + 2 + 2 * i by omega]
          exact hrest

/-! ## The write -/

section Write

variable {a : Nat} {addr len : List Byte}

theorem writePacket_header (host : Host σ) (haddr : HexOf a addr) (hlen : HexOf bs.length len)
    (hdata : HexData ds bs) (hn : 2 * bs.length < 2 ^ 32) :
    WriteHeader host (addr ++ char ',' :: (len ++ char ':' :: ds)) addr len ds where
  header :=
    { text := rfl
      addr_ne := haddr.ne_nil
      addrDigits := haddr.digits
      lenDigits := hlen.digits
      stop := noDigit_cons not_digit_colon ds }
  size := by
    have hbits : 2 ^ 32 ≤ 2 ^ host.sizeBits := Nat.pow_le_pow_right (by decide) host.sizeBits_ge
    rw [BitVec.toNat_mul, hlen.toNat (by omega), hdata.length, Nat.mod_eq_of_lt (by omega)]
    exact (Nat.mod_eq_of_lt hn).symm

/-- The bytes after the loop are those of `withBytes`. -/
theorem withBytes_of_written {bytes : ByteMem.Mem} {args : MemoryArgs} (hstart : args.start.toNat = a)
    (hfits : a + bs.length < 2 ^ 32) (hwritten : ∀ i, ∀ hi : i < bs.length, bytes (args.index i).toNat = bs[i])
    (hrest : ∀ x, (∀ i < bs.length, x ≠ (args.index i).toNat) → bytes x = s.mem.bytes x) :
    bytes = (s.withBytes a bs).mem.bytes := by
  have hindex : ∀ i < bs.length, (args.index i).toNat = a + i := by
    intro i hi
    rw [MemoryArgs.index_toNat, hstart, Nat.mod_eq_of_lt (by omega)]
  funext x
  show bytes x = if a ≤ x then (bs[x - a]?).getD (s.mem.bytes x) else s.mem.bytes x
  by_cases hle : a ≤ x
  · rw [if_pos hle]
    by_cases hlt : x - a < bs.length
    · -- `x` is an index of the loop
      have hx := hwritten (x - a) hlt
      rw [hindex _ hlt, Nat.add_sub_of_le hle] at hx
      rw [hx, List.getElem?_eq_getElem hlt, Option.getD_some]
    · rw [List.getElem?_eq_none (by omega), Option.getD_none]
      refine hrest x fun i hi => ?_
      rw [hindex i hi]
      omega
  · rw [if_neg hle]
    refine hrest x fun i hi => ?_
    rw [hindex i hi]
    omega

/-- **`M`** writes its bytes, and changes nothing else. -/
theorem rspHandlePacket_write (host : Host σ) (behind : Nat → Byte) (haddr : HexOf a addr)
    (hlen : HexOf bs.length len) (hdata : HexData ds bs) (hn : 2 * bs.length < 2 ^ 32)
    (hin : a + bs.length < s.memSize.toNat) :
    ∃ t, SameMachine (s.withBytes a bs) t ∧
      rspHandlePacket host (packetBuffer (writePacket addr len ds) behind)
        (writePacket addr len ds).length s = ⟨.ok .packetSent, t, [rspFrame []]⟩ := by
  have hsize : s.memSize.toNat < 2 ^ 32 := s.memSize.isLt
  have hheader := writePacket_header host haddr hlen hdata hn
  have hstart : (writeArgs host addr len ds).start.toNat = a := haddr.toNat (by omega)
  have hchunk : (hexNumber 0 len).toNat = bs.length := hlen.toNat (by omega)
  have hrange : ¬ (writeArgs host addr len ds).OutOfRange s.memSize := by
    have hchunk' : (writeArgs host addr len ds).chunkSize.toNat = bs.length := hchunk
    rw [outOfRange_iff (by omega)]
    omega
  have hdrop : (writePacket addr len ds).drop (writeArgs host addr len ds).k = ds := by
    have hcolon := hheader.header.drop_k (char 'M')
    show (writePacket addr len ds).drop ((memoryArgs addr len (char ':' :: ds)).k + 1) = ds
    rw [← List.tail_drop, writePacket, hcolon, List.tail_cons]
  have hpair (i : Nat) (hi : i < bs.length) := hdata.pair behind hdrop i hi
  obtain ⟨m, hm, -, hbad, hrun⟩ := rspWriteMemory_run behind hheader (char 'M') hrange rfl
  rw [hchunk] at hm hbad hrun
  -- all of the data is hex, so the loop runs to its end
  have hall : m = bs.length := by
    by_contra hne
    have hlt : m < bs.length := by omega
    exact hbad hlt (hpair m hlt).1
  rw [if_pos hall, hall] at hrun
  obtain ⟨bytes, touched, hstate, hwritten, hrest⟩ :=
    (writeArgs host addr len ds).written_eq (packetBuffer (writePacket addr len ds) behind) s
      (m := bs.length) (by omega)
  have hbytes : bytes = (s.withBytes a bs).mem.bytes :=
    withBytes_of_written hstart (by omega) (fun i hi => (hwritten i hi).trans (hpair i hi).2) hrest
  refine ⟨{ s.withBytes a bs with mem.touched := touched }, ⟨touched, rfl⟩, ?_⟩
  rw [rspHandlePacket_writeMemory ⟨by simp [writePacket], rfl⟩]
  refine hrun.trans ?_
  rw [← writePacket, hstate, hbytes]
  rfl

end Write

/-! ## The read -/

/-- What was written is what `m` encodes. -/
theorem ramHex_withBytes (s : RV32 σ) (a : Nat) (bs : List Byte) :
    ramHex (s.withBytes a bs) a bs.length = bs.flatMap hexU8 := by
  have hbyte : ∀ i ∈ List.range bs.length,
      hexU8 ((s.withBytes a bs).mem.bytes (a + i)) = hexU8 (bs.getD i 0) := by
    intro i hi
    have hlt : i < bs.length := List.mem_range.mp hi
    show hexU8 (if a ≤ a + i then (bs[a + i - a]?).getD _ else _) = _
    rw [if_pos (Nat.le_add_right a i), Nat.add_sub_cancel_left, List.getElem?_eq_getElem hlt,
      Option.getD_some, List.getD_eq_getElem _ _ hlt]
  rw [ramHex, List.flatMap_congr hbyte, ← List.flatMap_map (fun i => bs.getD i 0)]
  congr 1
  apply List.ext_getElem
  · simp
  · intro i h1 h2
    simp [List.getElem?_eq_getElem h2]

/-- **Write and read.** An `M` whose part lies below the end of the RAM writes exactly its bytes, and an
    `m` for the same part answers with them in lower case and changes nothing. -/
theorem memory_roundTrip (host : Host σ) (s : RV32 σ) (a : Nat) (bs ds addr len addr' len' : List Byte)
    (behind behind' : Nat → Byte) (hn : bs.length ≤ 509) (hin : a + bs.length < s.memSize.toNat)
    (haddr : HexOf a addr) (hlen : HexOf bs.length len) (hdata : HexData ds bs)
    (haddr' : HexOf a addr') (hlen' : HexOf bs.length len') :
    ∃ t u, SameMachine (s.withBytes a bs) t ∧ SameMachine t u ∧
      rspHandlePacket host (packetBuffer (writePacket addr len ds) behind)
        (writePacket addr len ds).length s = ⟨.ok .packetSent, t, [rspFrame []]⟩ ∧
      rspHandlePacket host (packetBuffer (readPacket addr' len') behind')
        (readPacket addr' len').length t = ⟨.ok .packetSent, u, [rspFrame (bs.flatMap hexU8)]⟩ := by
  obtain ⟨t, hwritten, hwrite⟩ :=
    rspHandlePacket_write host behind haddr hlen hdata (by omega) hin
  obtain ⟨touched, rfl⟩ := hwritten
  have hread := rspReadMemory_below (s := { s.withBytes a bs with mem.touched := touched }) behind' haddr'
    hlen' hin
  obtain ⟨u, hsame, hread⟩ := hread
  have hhex : ramHex { s.withBytes a bs with mem.touched := touched } a bs.length = bs.flatMap hexU8 :=
    ramHex_withBytes s a bs
  rw [if_pos hn, hhex] at hread
  refine ⟨_, u, ⟨touched, rfl⟩, hsame, hwrite, ?_⟩
  rw [rspHandlePacket_readMemory ⟨by simp [readPacket], rfl⟩]
  exact hread

/-- The emulator, on `M10,2:aBCd` and `m10,2`. -/
theorem memory_roundTrip_emulator :
    ∃ t u, SameMachine ((emulatorStart []).withBytes 16 [0xab, 0xcd]) t ∧ SameMachine t u ∧
      rspHandlePacket emulatorHost
        (packetBuffer (writePacket (cstr "10") (cstr "2") (cstr "aBCd")) fun _ => 0) 10
        (emulatorStart []) = ⟨.ok .packetSent, t, [rspFrame []]⟩ ∧
      rspHandlePacket emulatorHost (packetBuffer (readPacket (cstr "10") (cstr "2")) fun _ => 0) 5 t =
        ⟨.ok .packetSent, u, [rspFrame ([0xab, 0xcd].flatMap hexU8)]⟩ := by
  have hdata : HexData (cstr "aBCd") [0xab, 0xcd] :=
    .cons (by decide) (by decide) (.cons (by decide) (by decide) .nil)
  exact memory_roundTrip emulatorHost (emulatorStart []) 16 [0xab, 0xcd] (cstr "aBCd") (cstr "10")
    (cstr "2") (cstr "10") (cstr "2") (fun _ => 0) (fun _ => 0) (by decide) (by decide)
    ⟨by decide, by decide, by decide⟩ ⟨by decide, by decide, by decide⟩ hdata
    ⟨by decide, by decide, by decide⟩ ⟨by decide, by decide, by decide⟩

end Rv32
