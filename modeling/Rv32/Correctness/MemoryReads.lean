import Rv32.Core.Emulator
import Rv32.Rsp.Runs

/-!
# `Correctness.MemoryReads` — which memory reads are served

`rsp_read_memory` refuses a read by `start + chunk_size >= mem_size`, which takes the end of the part for
its last byte: a read of the last bytes of the RAM is answered as if it were out of range. A read that
passes is written into a packet without asking whether it fits, so one of more than 509 bytes is fatal.
-/

namespace Rv32

open Prog

variable {σ : Type} {s : RV32 σ} {behind : Nat → Byte}

/-- `ds` is `n` in hex, with digits of either case. -/
structure HexOf (n : Nat) (ds : List Byte) : Prop where
  ne_nil : ds ≠ []
  digits : HexDigits ds
  value : hexNat 0 ds = n

/-- The packet `m` with an address and a length. -/
def readPacket (addr len : List Byte) : List Byte := char 'm' :: (addr ++ char ',' :: len)

/-- The digits of the `n` bytes of the RAM from `a` on. -/
def ramHex (s : RV32 σ) (a n : Nat) : List Byte :=
  (List.range n).flatMap fun i => hexU8 (s.mem.bytes (a + i))

/-- The read of `n` bytes from `a` on is served by the call with this outcome: with their digits if one
    packet holds them, and with some packet if not. -/
structure ReadServed (s : RV32 σ) (a n : Nat)
    (outcome : Outcome (RV32 σ) (List Byte) RspHandlerResult) : Prop where
  served : n ≤ 509 → ∃ t, SameMachine s t ∧ outcome = ⟨.ok .packetSent, t, [rspFrame (ramHex s a n)]⟩
  answered : 509 < n → ∃ t out, SameMachine s t ∧ outcome = ⟨.ok .packetSent, t, [out]⟩

/-- The reads the handler serves: below the end of the RAM, or of nothing; and those it refuses although
    they are too long. -/
def ReadServable (memSize : Word) (a n : Nat) : Prop :=
  if n ≤ 509 then a + n < memSize.toNat ∨ n = 0 else a + n = memSize.toNat

/-! ## The request -/

section Request

variable {a n : Nat} {addr len : List Byte}

theorem HexOf.toNat {ds : List Byte} (h : HexOf n ds) (hn : n < 2 ^ 32) : (hexNumber 0 ds).toNat = n := by
  rw [hexNumber_toNat_of_lt h.digits (by rw [h.value]; exact hn), h.value]

theorem readPacket_header (haddr : HexOf a addr) (hlen : HexOf n len) :
    MemoryHeader (addr ++ char ',' :: len) addr len [] where
  text := by rw [List.append_nil]
  addr_ne := haddr.ne_nil
  addrDigits := haddr.digits
  lenDigits := hlen.digits
  stop := by rintro d ⟨⟩

/-- **The bounds test**, for a part that lies in the RAM, asks whether it ends with the RAM. -/
theorem outOfRange_iff {args : MemoryArgs} {memSize : Word}
    (hin : args.start.toNat + args.chunkSize.toNat ≤ memSize.toNat) :
    args.OutOfRange memSize ↔ args.start.toNat + args.chunkSize.toNat = memSize.toNat := by
  have hsize : memSize.toNat < 2 ^ 32 := memSize.isLt
  rw [MemoryArgs.OutOfRange, ge_iff_le, ge_iff_le, BitVec.le_def, BitVec.le_def, BitVec.toNat_add,
    Nat.mod_eq_of_lt (by omega)]
  omega

theorem readHex_eq_ramHex (args : MemoryArgs) (s : RV32 σ)
    (hin : args.start.toNat + args.chunkSize.toNat < 2 ^ 32) :
    args.readHex s 0 args.chunkSize.toNat = ramHex s args.start.toNat args.chunkSize.toNat := by
  rw [MemoryArgs.readHex, ramHex, List.range_eq_range']
  refine List.flatMap_congr fun i hi => ?_
  have hlt : i < args.chunkSize.toNat := by simpa using hi
  rw [MemoryArgs.index_toNat, Nat.mod_eq_of_lt (by omega)]

/-- **A read below the end of the RAM** is answered with its bytes, if they fit. -/
theorem rspReadMemory_below (behind : Nat → Byte) (haddr : HexOf a addr) (hlen : HexOf n len)
    (hin : a + n < s.memSize.toNat) :
    ∃ t, SameMachine s t ∧
      rspReadMemory (packetBuffer (readPacket addr len) behind) (readPacket addr len).length s =
        if n ≤ 509 then ⟨.ok .packetSent, t, [rspFrame (ramHex s a n)]⟩
        else ⟨.error "output buffer too small", t, []⟩ := by
  have hsize : s.memSize.toNat < 2 ^ 32 := s.memSize.isLt
  have hstart : (memoryArgs addr len []).start.toNat = a := haddr.toNat (by omega)
  have hchunk : (memoryArgs addr len []).chunkSize.toNat = n := hlen.toNat (by omega)
  have hrange : ¬ (memoryArgs addr len []).OutOfRange s.memSize := by
    rw [outOfRange_iff (by omega)]
    omega
  obtain ⟨t, hsame, hrun⟩ := rspReadMemory_run behind (readPacket_header haddr hlen) (char 'm') hrange
  have hhex := readHex_eq_ramHex (memoryArgs addr len []) s (by omega)
  have hnumber : (hexNumber 0 len).toNat = n := hchunk
  rw [hstart, hchunk] at hhex
  rw [hnumber, hhex] at hrun
  refine ⟨t, hsame, hrun.trans ?_⟩
  refine if_congr ?_ rfl rfl
  rw [rspBufferSize]
  omega

/-- **A read that ends with the RAM** is refused. -/
theorem rspReadMemory_at_end (behind : Nat → Byte) (haddr : HexOf a addr) (hlen : HexOf n len)
    (hend : a + n = s.memSize.toNat) :
    rspReadMemory (packetBuffer (readPacket addr len) behind) (readPacket addr len).length s =
      ⟨.ok .packetSent, s, [rspFrame []]⟩ := by
  have hsize : s.memSize.toNat < 2 ^ 32 := s.memSize.isLt
  have hstart : (memoryArgs addr len []).start.toNat = a := haddr.toNat (by omega)
  have hchunk : (memoryArgs addr len []).chunkSize.toNat = n := hlen.toNat (by omega)
  have hrange : (memoryArgs addr len []).OutOfRange s.memSize := by
    rw [outOfRange_iff (by omega)]
    omega
  exact rspReadMemory_of_outOfRange behind (readPacket_header haddr hlen) (char 'm') hrange

end Request

/-! ## The reply -/

theorem ramHex_length (s : RV32 σ) (a n : Nat) : (ramHex s a n).length = 2 * n := by
  simp [ramHex, List.length_flatMap, hexU8_length, Nat.mul_comm]

/-- The refusal says the right thing about nothing only. -/
theorem rspFrame_ramHex_eq_nil {a n : Nat} : rspFrame [] = rspFrame (ramHex s a n) ↔ n = 0 := by
  constructor
  · intro h
    have hlength := congrArg List.length h
    rw [rspFrame_length, rspFrame_length, ramHex_length] at hlength
    simp at hlength
    exact hlength
  · rintro rfl
    rfl

/-- **Memory reads**, exactly which are served. Of the reads that lie in the RAM, those of at most 509
    bytes are answered with their bytes if and only if they end before the RAM does, or are of nothing;
    longer ones are answered if and only if they end with the RAM. -/
theorem readServed_iff (s : RV32 σ) (a n : Nat) (addr len : List Byte) (behind : Nat → Byte)
    (haddr : HexOf a addr) (hlen : HexOf n len) (hin : a + n ≤ s.memSize.toNat) :
    ReadServed s a n
        (rspReadMemory (packetBuffer (readPacket addr len) behind) (readPacket addr len).length s) ↔
      ReadServable s.memSize a n := by
  rw [ReadServable]
  rcases Nat.lt_or_eq_of_le hin with hlt | hend
  · obtain ⟨t, hsame, hrun⟩ := rspReadMemory_below behind haddr hlen hlt
    rw [hrun]
    by_cases hn : n ≤ 509
    · rw [if_pos hn, if_pos hn]
      exact iff_of_true ⟨fun _ => ⟨t, hsame, rfl⟩, fun h => absurd h (by omega)⟩ (.inl hlt)
    · rw [if_neg hn, if_neg hn]
      refine iff_of_false (fun h => ?_) (by omega)
      obtain ⟨_, _, -, heq⟩ := h.answered (by omega)
      cases congrArg Outcome.value heq
  · rw [rspReadMemory_at_end behind haddr hlen hend]
    by_cases hn : n ≤ 509
    · rw [if_pos hn]
      constructor
      · intro h
        obtain ⟨_, -, heq⟩ := h.served hn
        have hframe := (List.cons.inj (congrArg Outcome.out heq)).1
        exact .inr (rspFrame_ramHex_eq_nil.mp hframe)
      · intro h
        have hzero : n = 0 := by omega
        refine ⟨fun _ => ⟨s, refl_of SameMachine s, ?_⟩, fun h => absurd h (by omega)⟩
        rw [rspFrame_ramHex_eq_nil.mpr hzero]
    · rw [if_neg hn]
      refine iff_of_true ⟨fun h => absurd h hn, fun _ => ?_⟩ hend
      exact ⟨s, _, refl_of SameMachine s, rfl⟩

/-- The emulator's machine serves `m0,4`. -/
theorem readServed_emulator :
    ReadServed (emulatorStart [0x00000013]) 0 4
      (rspReadMemory (packetBuffer (readPacket (cstr "0") (cstr "4")) fun _ => 0) 4
        (emulatorStart [0x00000013])) :=
  (readServed_iff (emulatorStart [0x00000013]) 0 4 (cstr "0") (cstr "4") (fun _ => 0)
    ⟨by decide, by decide, by decide⟩ ⟨by decide, by decide, by decide⟩ (by decide)).mpr
    (.inl (by decide))

/-- It does not serve `m20000000,4`, its last word, and dies of `m0,1fe`. -/
theorem readServed_fails :
    ¬ ReadServed (emulatorStart []) 0x20000000 4
        (rspReadMemory (packetBuffer (readPacket (cstr "20000000") (cstr "4")) fun _ => 0) 11
          (emulatorStart [])) ∧
      ¬ ReadServed (emulatorStart []) 0 510
        (rspReadMemory (packetBuffer (readPacket (cstr "0") (cstr "1fe")) fun _ => 0) 6
          (emulatorStart [])) := by
  constructor
  · intro h
    have haddr : HexOf 0x20000000 (cstr "20000000") := ⟨by decide, by decide, by decide⟩
    have hlen : HexOf 4 (cstr "4") := ⟨by decide, by decide, by decide⟩
    have hend := rspReadMemory_at_end (s := emulatorStart []) (fun _ => 0) haddr hlen (by decide)
    obtain ⟨_, -, heq⟩ := h.served (by decide)
    have hframe := (List.cons.inj (congrArg Outcome.out (hend.symm.trans heq))).1
    exact absurd (rspFrame_ramHex_eq_nil.mp hframe) (by decide)
  · intro h
    have haddr : HexOf 0 (cstr "0") := ⟨by decide, by decide, by decide⟩
    have hlen : HexOf 510 (cstr "1fe") := ⟨by decide, by decide, by decide⟩
    obtain ⟨_, -, hrun⟩ := rspReadMemory_below (s := emulatorStart []) (fun _ => 0) haddr hlen (by decide)
    obtain ⟨_, _, -, heq⟩ := h.answered (by decide)
    cases congrArg Outcome.value (hrun.symm.trans heq)

end Rv32
