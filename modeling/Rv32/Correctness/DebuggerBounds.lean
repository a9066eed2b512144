import Rv32.Core.Emulator
import Rv32.Rsp.Runs

/-!
# `Correctness.DebuggerBounds` — the RAM that `m` and `M` reach

Both handlers test `start` and `start + chunk_size` against the size of the RAM, and the sum is taken modulo
`2 ^ 32`. A length that makes it wrap passes, and then the loop runs over the end of the RAM as soon as it
gets there. `m` gets at most 512 bytes far before its output buffer is full; `M` gets as far as it finds
hex digits.
-/

namespace Rv32

open Prog

variable {σ : Type} {behind : Nat → Byte} {q : List Byte}

/-- Of the RAM, what is touched on the way from `s` to `t` lies below `mem_size`. -/
def StaysInRam (s t : RV32 σ) : Prop :=
  ∃ new, t.mem.touched = new ++ s.mem.touched ∧ ∀ x ∈ new, x < s.memSize.toNat

/-- The bounds test of the two handlers is passed with a sum that has wrapped. -/
def PassesWrapped (memSize start chunkSize : Word) : Prop :=
  start < memSize ∧ start + chunkSize < memSize ∧ 2 ^ 32 ≤ start.toNat + chunkSize.toNat

/-- `m` with the text `q` behind the letter reads past the end. -/
def ReadsPastEnd (memSize : Word) (q : List Byte) : Prop :=
  ∃ addr len, MemoryHeader q addr len [] ∧ PassesWrapped memSize (hexNumber 0 addr) (hexNumber 0 len) ∧
    memSize.toNat ≤ (hexNumber 0 addr).toNat + 511

/-- `M` with the text `q` behind the letter writes past the end. -/
def WritesPastEnd (host : Host σ) (memSize : Word) (q : List Byte) (behind : Nat → Byte) : Prop :=
  ∃ addr len data, WriteHeader host q addr len data ∧
    PassesWrapped memSize (hexNumber 0 addr) (hexNumber 0 len) ∧
    ∀ i ≤ memSize.toNat - (hexNumber 0 addr).toNat,
      HexPair (packetBuffer (char 'M' :: q) behind) (addr.length + len.length + 3 + 2 * i)

/-! ## The two loops -/

theorem staysInRam_refl (s : RV32 σ) : StaysInRam s s := ⟨[], rfl, by simp⟩

theorem staysInRam_of_touched {s t : RV32 σ} {new : List Nat} (h : t.mem.touched = new ++ s.mem.touched) :
    StaysInRam s t ↔ ∀ x ∈ new, x < s.memSize.toNat := by
  constructor
  · rintro ⟨new', h', hnew⟩
    rwa [List.append_cancel_right (h.symm.trans h')]
  · intro hnew
    exact ⟨new, h, hnew⟩

theorem wraps_iff {args : MemoryArgs} {memSize : Word} :
    args.Wraps memSize ↔ PassesWrapped memSize args.start args.chunkSize := by
  rw [MemoryArgs.Wraps, MemoryArgs.OutOfRange, not_or, BitVec.not_le, BitVec.not_le, PassesWrapped, and_assoc]

/-- A loop of `m` rounds that goes through the indices of a packet that has passed the test. -/
theorem staysInRam_iff {args : MemoryArgs} {f : RV32 σ → Nat → RV32 σ}
    (hf : ∀ s i, (f s i).mem.touched = (args.index i).toNat :: s.mem.touched) {s : RV32 σ}
    (hin : ¬ args.OutOfRange s.memSize) {m : Nat} (hm : m ≤ args.chunkSize.toNat) :
    StaysInRam s ((List.range' 0 m).foldl f s) ↔
      ¬ (PassesWrapped s.memSize args.start args.chunkSize ∧ s.memSize.toNat - args.start.toNat < m) := by
  rw [staysInRam_of_touched (foldl_touched hf _ s), ← wraps_iff, ← MemoryArgs.index_lt_iff hin hm]
  simp [List.mem_range'_1]

/-- A sum that wraps asks for more than is left of the RAM. -/
theorem PassesWrapped.lt {memSize start chunkSize : Word} (h : PassesWrapped memSize start chunkSize) :
    memSize.toNat - start.toNat < chunkSize.toNat := by
  have hsize : memSize.toNat < 2 ^ 32 := memSize.isLt
  have hstart := h.1
  rw [BitVec.lt_def] at hstart
  have hwraps := h.2.2
  omega

theorem not_passesWrapped {args : MemoryArgs} {memSize : Word} (hout : args.OutOfRange memSize) :
    ¬ PassesWrapped memSize args.start args.chunkSize := fun h => (wraps_iff.mpr h).1 hout

/-! ## `m` -/

theorem readMemory_staysInRam_iff (host : Host σ) (s : RV32 σ) (q : List Byte) (behind : Nat → Byte) :
    StaysInRam s (rspHandlePacket host (packetBuffer (char 'm' :: q) behind) (q.length + 1) s).state ↔
      ¬ ReadsPastEnd s.memSize q := by
  rw [rspHandlePacket_readMemory ⟨Nat.le_add_left 1 _, rfl⟩]
  by_cases hheader : ∃ addr len, MemoryHeader q addr len []
  case neg =>
    -- the parser is fatal
    refine iff_of_true ?_ ?_
    · rw [rspReadMemory, rspReadMemoryArgs_of_no_header fun addr len h => hheader ⟨addr, len, h⟩,
        run_attempt_error_bind]
      exact staysInRam_refl s
    · rintro ⟨addr, len, h, -⟩
      exact hheader ⟨addr, len, h⟩
  obtain ⟨addr, len, h⟩ := hheader
  have hpast : ReadsPastEnd s.memSize q ↔
      PassesWrapped s.memSize (hexNumber 0 addr) (hexNumber 0 len) ∧
        s.memSize.toNat ≤ (hexNumber 0 addr).toNat + 511 := by
    constructor
    · rintro ⟨addr', len', h', hpasses⟩
      obtain ⟨rfl, rfl, -⟩ := h.unique h'
      exact hpasses
    · intro hpasses
      exact ⟨addr, len, h, hpasses⟩
  rw [hpast]
  by_cases hout : (memoryArgs addr len []).OutOfRange s.memSize
  · refine iff_of_true ?_ fun hpasses => not_passesWrapped hout hpasses.1
    rw [rspReadMemory, rspReadMemoryArgs_of_header h, run_attempt_ok_bind, run_get_bind, if_pos hout,
      rspQuickReply_run unsupported_mem_answers]
    exact staysInRam_refl s
  · have hmin : min (hexNumber 0 len).toNat 512 ≤ (memoryArgs addr len []).chunkSize.toNat :=
      Nat.min_le_left _ _
    rw [rspReadMemory_state h _ hout]
    refine (staysInRam_iff (fun _ _ => rfl) hout hmin).trans (not_congr (and_congr_right fun hpasses => ?_))
    have hlt : s.memSize.toNat - (hexNumber 0 addr).toNat < (hexNumber 0 len).toNat := hpasses.lt
    show s.memSize.toNat - (hexNumber 0 addr).toNat < min (hexNumber 0 len).toNat 512 ↔ _
    omega

/-! ## `M` -/

theorem writeMemory_staysInRam_iff (host : Host σ) (s : RV32 σ) (q : List Byte) (behind : Nat → Byte) :
    StaysInRam s (rspHandlePacket host (packetBuffer (char 'M' :: q) behind) (q.length + 1) s).state ↔
      ¬ WritesPastEnd host s.memSize q behind := by
  rw [rspHandlePacket_writeMemory ⟨Nat.le_add_left 1 _, rfl⟩]
  by_cases hheader : ∃ addr len data, WriteHeader host q addr len data
  case neg =>
    refine iff_of_true ?_ ?_
    · obtain ⟨msg, hrun⟩ := rspWriteMemory_of_no_header behind hheader (char 'M') s
      rw [hrun]
      exact staysInRam_refl s
    · rintro ⟨addr, len, data, h, -⟩
      exact hheader ⟨addr, len, data, h⟩
  obtain ⟨addr, len, data, h⟩ := hheader
  have hpast : WritesPastEnd host s.memSize q behind ↔
      PassesWrapped s.memSize (hexNumber 0 addr) (hexNumber 0 len) ∧
        ∀ i ≤ s.memSize.toNat - (hexNumber 0 addr).toNat,
          HexPair (packetBuffer (char 'M' :: q) behind) (addr.length + len.length + 3 + 2 * i) := by
    constructor
    · rintro ⟨addr', len', data', h', hpasses⟩
      obtain ⟨rfl, rfl, -⟩ := h.unique h'
      exact hpasses
    · intro hpasses
      exact ⟨addr, len, data, h, hpasses⟩
  rw [hpast]
  by_cases hout : (writeArgs host addr len data).OutOfRange s.memSize
  · refine iff_of_true ?_ fun hpasses => not_passesWrapped hout hpasses.1
    rw [rspWriteMemory_of_outOfRange behind h _ hout]
    exact staysInRam_refl s
  · obtain ⟨m, hm, hgood, hbad, hrun⟩ :=
      rspWriteMemory_run behind h (char 'M') hout rfl
    have hstate : (rspWriteMemory host (packetBuffer (char 'M' :: q) behind) (q.length + 1) s).state =
        (writeArgs host addr len data).written (packetBuffer (char 'M' :: q) behind) s m := by
      rw [hrun]
      split <;> rfl
    rw [hstate, MemoryArgs.written, staysInRam_iff (fun _ _ => rfl) hout hm]
    refine not_congr (and_congr_right fun hpasses => ?_)
    have hlt := hpasses.lt
    constructor
    · intro hreach i hi
      exact hgood i (Nat.lt_of_le_of_lt hi hreach)
    · intro hpairs
      by_contra hstop
      exact hbad (Nat.lt_of_le_of_lt (Nat.le_of_not_lt hstop) hlt) (hpairs m (Nat.le_of_not_lt hstop))

/-- **Debugger access to the RAM, exactly.** An `m` packet reads and an `M` packet writes below `mem_size`
    only, unless its two numbers pass the bounds test with a sum that has wrapped and the loop gets to the
    end of the RAM: the one of `m` if the end is at most 511 bytes behind the start, the one of `M` if all
    the pairs up to there are hex. -/
theorem debuggerAccess_iff (host : Host σ) (s : RV32 σ) (q : List Byte) (behind : Nat → Byte) :
    (StaysInRam s (rspHandlePacket host (packetBuffer (char 'm' :: q) behind) (q.length + 1) s).state ↔
      ¬ ReadsPastEnd s.memSize q) ∧
    (StaysInRam s (rspHandlePacket host (packetBuffer (char 'M' :: q) behind) (q.length + 1) s).state ↔
      ¬ WritesPastEnd host s.memSize q behind) :=
  ⟨readMemory_staysInRam_iff host s q behind, writeMemory_staysInRam_iff host s q behind⟩

/-- The emulator with its RAM of `0x20000004` bytes, asked for `2 ^ 32 - 1` bytes from the last one on. -/
theorem debuggerAccess_past_end :
    ¬ ∀ (s : RV32 (List Output)) (q : List Byte) (behind : Nat → Byte),
      StaysInRam s
        (rspHandlePacket emulatorHost (packetBuffer (char 'm' :: q) behind) (q.length + 1) s).state := by
  intro h
  have hstays := h (emulatorStart []) (cstr "20000003,ffffffff") fun _ => 0
  rw [readMemory_staysInRam_iff] at hstays
  refine hstays ⟨cstr "20000003", cstr "ffffffff", ⟨by decide, by decide, by decide, by decide, ?_⟩,
    ⟨by decide, by decide, by decide⟩, by decide⟩
  intro d hd
  cases hd

end Rv32
