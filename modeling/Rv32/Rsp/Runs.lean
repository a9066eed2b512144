import Rv32.Rsp.Effect
import Rv32.Rsp.Request

/-!
# `Rsp.Runs` — what a handler that got past its parser does

The loops of the handlers, run. Those of `G` and `M` assign until the first place that is not hex; the one
of `m` reads until the output buffer is full. Each leaves the machine that a fold over the indices it went
through gives.
-/

namespace Rv32

open Prog

variable {σ : Type} {host : Host σ} {buffer behind : Nat → Byte} {args : MemoryArgs}

/-! ## `G` -/

/-- Writing the registers one by one. -/
theorem foldl_setRegister (v : Nat → Word) (n : Nat) (s : RV32 σ) :
    (List.range' 0 n).foldl (fun s i => s.setRegister i (v i)) s =
      { s with r := fun j => if j.val < n then v j.val else s.r j } := by
  induction n with
  | zero => simp
  | succ n ih =>
      rw [List.range'_1_concat, List.foldl_append, ih]
      simp only [List.foldl_cons, List.foldl_nil, Nat.zero_add, RV32.setRegister]
      congr 1
      funext j
      by_cases hj : j.val = n
      · simp [hj]
      · by_cases hlt : j.val < n
        · simp [hj, hlt, Nat.lt_succ_of_lt hlt]
        · simp [hj, hlt, show ¬ j.val < n + 1 by omega]

/-- The machine with the first `m` of the 33 words of a packet in its registers, `pc` being the last. -/
def RV32.assigned (s : RV32 σ) (buffer : Nat → Byte) (m : Nat) : RV32 σ :=
  { s with
    r := fun j => if j.val < m then hexWordValue buffer (1 + 8 * j.val) else s.r j
    pc := if 32 < m then hexWordValue buffer (1 + 8 * 32) else s.pc }

/-- **`G`** assigns until the first word that is not hex. -/
theorem rspWriteRegisters_run (buffer : Nat → Byte) (s : RV32 σ) :
    ∃ m ≤ 33, (∀ i < m, HexWord buffer (1 + 8 * i)) ∧ (m < 33 → ¬ HexWord buffer (1 + 8 * m)) ∧
      rspWriteRegisters buffer 265 s =
        if m = 33 then ⟨.ok .packetSent, s.assigned buffer m, [rspFrame []]⟩
        else ⟨.error "invalid hex digit", s.assigned buffer m, []⟩ := by
  obtain ⟨m, hm, hgood, hbad, hloop⟩ := run_loop_assign (S := RV32 σ) (O := List Byte)
    (fun i => rspHexToU32_eq buffer (1 + 8 * i)) (fun i v s => s.setRegister i v) 0 32 s
  simp only [Nat.zero_add] at hgood hbad
  rw [foldl_setRegister (fun i => hexWordValue buffer (1 + 8 * i))] at hloop
  rw [rspWriteRegisters, check, if_pos rfl, run_attempt_ok_bind]
  by_cases hall : m = 32
  case neg =>
    rw [if_neg hall] at hloop
    refine ⟨m, by omega, hgood, fun _ => hbad (by omega), ?_⟩
    rw [run_bind_error (by rw [hloop]), hloop, if_neg (by omega), RV32.assigned, if_neg (by omega)]
  subst hall
  rw [if_pos rfl] at hloop
  rw [run_bind_ok (by rw [hloop]), hloop, rspHexToU32_eq]
  by_cases hpc : HexWord buffer (1 + 8 * 32)
  · refine ⟨33, Nat.le_refl 33, fun i hi => ?_, fun h => absurd h (Nat.lt_irrefl 33), ?_⟩
    · rcases Nat.lt_succ_iff_lt_or_eq.mp hi with hlt | rfl
      · exact hgood i hlt
      · exact hpc
    · rw [if_pos hpc, if_pos rfl, run_attempt_ok_bind, run_modify_bind, rspQuickReply_run unsupported_mem_answers,
        RV32.assigned, if_pos (by decide)]
      have hregisters : (fun j : Fin 32 => if j.val < 33 then hexWordValue buffer (1 + 8 * j.val) else s.r j) =
          fun j => if j.val < 32 then hexWordValue buffer (1 + 8 * j.val) else s.r j := by
        funext j
        rw [if_pos j.isLt, if_pos (Nat.lt_succ_of_lt j.isLt)]
      rw [hregisters]
      rfl
  · refine ⟨32, by decide, hgood, fun _ => hpc, ?_⟩
    rw [if_neg hpc, if_neg (by decide), run_attempt_error_bind, RV32.assigned, if_neg (by decide)]
    rfl

/-! ## The bounds test -/

theorem MemoryArgs.index_toNat (i : Nat) :
    (args.index i).toNat = (args.start.toNat + i) % 2 ^ 32 := by
  rw [index, BitVec.toNat_add, BitVec.toNat_ofNat, Nat.add_mod_mod]

/-- The test is passed, and its sum has wrapped. -/
def MemoryArgs.Wraps (args : MemoryArgs) (memSize : Word) : Prop :=
  ¬ args.OutOfRange memSize ∧ 2 ^ 32 ≤ args.start.toNat + args.chunkSize.toNat

/-- **What the test is good for.** If the sum has not wrapped, all of the bytes asked for lie in the RAM; if
    it has, only those before the end of the RAM do, and there are more. -/
theorem MemoryArgs.index_lt_iff {memSize : Word} (hin : ¬ args.OutOfRange memSize) {m : Nat}
    (hm : m ≤ args.chunkSize.toNat) :
    (∀ i < m, (args.index i).toNat < memSize.toNat) ↔
      ¬ (args.Wraps memSize ∧ memSize.toNat - args.start.toNat < m) := by
  have hsize : memSize.toNat < 2 ^ 32 := memSize.isLt
  rw [OutOfRange, not_or, BitVec.not_le, BitVec.not_le, BitVec.lt_def, BitVec.lt_def,
    BitVec.toNat_add] at hin
  constructor
  · rintro hall ⟨⟨-, -⟩, hlt⟩
    -- the first index past the end is the size of the RAM
    have hend := hall (memSize.toNat - args.start.toNat) hlt
    rw [index_toNat, Nat.add_sub_of_le (Nat.le_of_lt hin.1), Nat.mod_eq_of_lt hsize] at hend
    exact Nat.lt_irrefl _ hend
  · intro hnot i hi
    rw [index_toNat]
    by_cases hwraps : 2 ^ 32 ≤ args.start.toNat + args.chunkSize.toNat
    · have hle : ¬ memSize.toNat - args.start.toNat < m := by
        intro hlt
        refine hnot ⟨⟨?_, hwraps⟩, hlt⟩
        rw [OutOfRange, not_or, BitVec.not_le, BitVec.not_le, BitVec.lt_def, BitVec.lt_def,
          BitVec.toNat_add]
        exact hin
      rw [Nat.mod_eq_of_lt (by omega)]
      omega
    · have hsum := hin.2
      rw [Nat.mod_eq_of_lt (by omega)] at hsum
      rw [Nat.mod_eq_of_lt (by omega)]
      omega

/-! ## `m` -/

/-- One round: the byte is read, and its digits are appended. -/
theorem rspReadByte_run (args : MemoryArgs) (i : Nat) (p : RspPacket) (s : RV32 σ) :
    (rspReadByte args i p : RspProg σ RspPacket) s =
      ⟨p.appendBytes (hexU8 (s.mem.bytes (args.index i).toNat)), s.touch (args.index i) 1, []⟩ := by
  rw [rspReadByte, run_get_bind, run_modify_bind, rspPacketAppendU8_eq, run_attempt]

/-- The digits of the bytes the rounds from `first` on read. -/
def MemoryArgs.readHex (args : MemoryArgs) (s : RV32 σ) (first n : Nat) : List Byte :=
  (List.range' first n).flatMap fun i => hexU8 (s.mem.bytes (args.index i).toNat)

/-- **The loop of `m`** appends these digits. -/
theorem rspReadByte_loop_value (args : MemoryArgs) (first n : Nat) (p : RspPacket) (s : RV32 σ) :
    ∃ t, SameMachine s t ∧ (loop (rspReadByte args) first n p : RspProg σ RspPacket) s =
      ⟨p.appendBytes (args.readHex s first n), t, []⟩ := by
  induction n generalizing first p s with
  | zero => exact ⟨s, refl_of SameMachine s, rfl⟩
  | succ n ih =>
      have hbody := rspReadByte_run args first p s
      have hsplit : args.readHex s first (n + 1) =
          hexU8 (s.mem.bytes (args.index first).toNat) ++ args.readHex s (first + 1) n := by
        rw [MemoryArgs.readHex, List.range'_succ, List.flatMap_cons]
        rfl
      rw [hsplit, RspPacket.appendBytes_append, loop]
      cases hbyte : p.appendBytes (hexU8 (s.mem.bytes (args.index first).toNat)) with
      | error msg =>
          rw [hbyte] at hbody
          refine ⟨_, sameMachine_touch s (args.index first) 1, ?_⟩
          exact (run_bind_error (by rw [hbody])).trans (by rw [hbody]; rfl)
      | ok q =>
          rw [hbyte] at hbody
          obtain ⟨t, hsame, hrest⟩ := ih (first + 1) q (s.touch (args.index first) 1)
          refine ⟨t, trans_of SameMachine (sameMachine_touch s (args.index first) 1) hsame, ?_⟩
          exact (run_bind_ok (a := q) (by rw [hbody])).trans (by rw [hbody, hrest]; rfl)

/-- **The loop of `m`** goes on until a byte does not fit, and that one has been read. -/
theorem rspReadByte_loop (args : MemoryArgs) (first n : Nat) (p : RspPacket) (s : RV32 σ)
    (hp : p.buffer.length = 1 + 2 * first) :
    ((loop (rspReadByte args) first n p : RspProg σ RspPacket) s).state =
      (List.range' first (min n (512 - first))).foldl (fun s i => s.touch (args.index i) 1) s := by
  induction n generalizing first p s with
  | zero => rw [Nat.zero_min]; rfl
  | succ n ih =>
      have hfits := p.fits
      rw [hp, rspBufferSize] at hfits
      have hmin : min (n + 1) (512 - first) = min n (512 - (first + 1)) + 1 := by omega
      rw [hmin, List.range'_succ, List.foldl_cons, loop]
      have hbody := rspReadByte_run args first p s
      have hlen : (p.buffer ++ hexU8 (s.mem.bytes (args.index first).toNat)).length =
          1 + 2 * (first + 1) := by
        rw [List.length_append, hp, hexU8_length]
        omega
      by_cases hroom : first < 511
      · -- two more digits fit
        rw [RspPacket.appendBytes_of_fits _ _ (by rw [hlen, rspBufferSize]; omega)] at hbody
        rw [run_bind_ok (by rw [hbody]), hbody]
        exact ih (first + 1) _ _ hlen
      · rw [RspPacket.appendBytes_of_not_fits _ _ (by rw [hlen, rspBufferSize]; omega)] at hbody
        rw [run_bind_error (by rw [hbody]), hbody, show 512 - (first + 1) = 0 by omega, Nat.min_zero]
        rfl

/-- **`m`** that asks for a part of the RAM. -/
theorem rspReadMemory_state {q addr len : List Byte} (h : MemoryHeader q addr len []) (c : Byte)
    {s : RV32 σ} (hin : ¬ (memoryArgs addr len []).OutOfRange s.memSize) :
    (rspReadMemory (packetBuffer (c :: q) behind) (q.length + 1) s).state =
      (List.range' 0 (min (hexNumber 0 len).toNat 512)).foldl
        (fun s i => s.touch ((memoryArgs addr len []).index i) 1) s := by
  have hloop := rspReadByte_loop (memoryArgs addr len []) 0 (hexNumber 0 len).toNat rspPacketBegin s rfl
  rw [rspReadMemory, rspReadMemoryArgs_of_header h, run_attempt_ok_bind, run_get_bind, if_neg hin]
  rw [← hloop]
  -- what comes after the loop does not touch the machine
  cases hvalue : ((loop (rspReadByte (memoryArgs addr len [])) 0 (hexNumber 0 len).toNat
      rspPacketBegin : RspProg σ RspPacket) s).value with
  | error msg => exact congrArg Outcome.state (run_bind_error hvalue)
  | ok p =>
      rw [show (memoryArgs addr len []).chunkSize = hexNumber 0 len from rfl, run_bind_ok hvalue]
      exact within_reply (R := Eq) _ _ |>.symm

theorem MemoryArgs.readHex_length (args : MemoryArgs) (s : RV32 σ) (first n : Nat) :
    (args.readHex s first n).length = 2 * n := by
  simp [readHex, List.length_flatMap, hexU8_length, Nat.mul_comm]

/-- **`m`** answers with the digits of the part of the RAM it asks for, if they fit. -/
theorem rspReadMemory_run (behind : Nat → Byte) {q addr len : List Byte}
    (h : MemoryHeader q addr len []) (c : Byte) {s : RV32 σ}
    (hin : ¬ (memoryArgs addr len []).OutOfRange s.memSize) :
    ∃ t, SameMachine s t ∧ rspReadMemory (packetBuffer (c :: q) behind) (q.length + 1) s =
      if 2 * (hexNumber 0 len).toNat + 5 ≤ rspBufferSize then
        ⟨.ok .packetSent, t,
          [rspFrame ((memoryArgs addr len []).readHex s 0 (hexNumber 0 len).toNat)]⟩
      else ⟨.error "output buffer too small", t, []⟩ := by
  obtain ⟨t, hsame, hloop⟩ := rspReadByte_loop_value (memoryArgs addr len []) 0 (hexNumber 0 len).toNat
    rspPacketBegin s
  refine ⟨t, hsame, ?_⟩
  have hnul : ∀ d ∈ (memoryArgs addr len []).readHex s 0 (hexNumber 0 len).toNat, d ≠ 0 := by
    intro d hd
    obtain ⟨i, -, hi⟩ := List.mem_flatMap.mp hd
    exact (rspDigits_ne d (hexU8_mem _ d hi)).1
  rw [rspReadMemory, rspReadMemoryArgs_of_header h, run_attempt_ok_bind, run_get_bind, if_neg hin]
  -- the rest is one frame, from its beginning to its sending
  refine (run_bind_reply hloop _).trans ?_
  show reply (rspPacketFrame _) t = _
  rw [rspPacketFrame_eq hnul, MemoryArgs.readHex_length]
  split
  · rfl
  · rfl

/-- **`m`** that asks for more than the RAM is refused. -/
theorem rspReadMemory_of_outOfRange (behind : Nat → Byte) {q addr len : List Byte}
    (h : MemoryHeader q addr len []) (c : Byte) {s : RV32 σ}
    (hout : (memoryArgs addr len []).OutOfRange s.memSize) :
    rspReadMemory (packetBuffer (c :: q) behind) (q.length + 1) s =
      ⟨.ok .packetSent, s, [rspFrame []]⟩ := by
  rw [rspReadMemory, rspReadMemoryArgs_of_header h, run_attempt_ok_bind, run_get_bind, if_pos hout,
    rspQuickReply_run unsupported_mem_answers]
  rfl

/-! ## `M` -/

/-- The machine after the first `m` bytes the digits from `k` on denote. -/
def MemoryArgs.written (args : MemoryArgs) (buffer : Nat → Byte) (s : RV32 σ) (m : Nat) : RV32 σ :=
  (List.range' 0 m).foldl (fun s i => args.writeByte i (hexPairValue buffer (args.k + 2 * i)) s) s

/-- **`M`** without its header is fatal, and nothing has been done. -/
theorem rspWriteMemory_of_no_header (behind : Nat → Byte) {q : List Byte}
    (hheader : ¬ ∃ addr len data, WriteHeader host q addr len data) (c : Byte) (s : RV32 σ) :
    ∃ msg, rspWriteMemory host (packetBuffer (c :: q) behind) (q.length + 1) s = ⟨.error msg, s, []⟩ := by
  have hno : ∀ addr len data, ¬ WriteHeader host q addr len data := by
    intro addr len data h
    exact hheader ⟨addr, len, data, h⟩
  obtain ⟨msg, hparse⟩ := rspWriteMemoryArgs_of_no_header behind hno c
  refine ⟨msg, ?_⟩
  rw [rspWriteMemory, hparse, run_attempt_error_bind]

/-- **`M`** that asks for more than the RAM is refused. -/
theorem rspWriteMemory_of_outOfRange (behind : Nat → Byte) {q addr len data : List Byte}
    (h : WriteHeader host q addr len data) (c : Byte) {s : RV32 σ}
    (hout : (writeArgs host addr len data).OutOfRange s.memSize) :
    rspWriteMemory host (packetBuffer (c :: q) behind) (q.length + 1) s =
      ⟨.ok .packetSent, s, [rspFrame []]⟩ := by
  rw [rspWriteMemory, rspWriteMemoryArgs_of_header h, run_attempt_ok_bind, run_get_bind, if_pos hout,
    rspQuickReply_run unsupported_mem_answers]
  rfl

/-- **`M`** that asks for a part of the RAM writes until the first pair that is not hex. -/
theorem rspWriteMemory_run (behind : Nat → Byte) {q addr len data : List Byte}
    (h : WriteHeader host q addr len data) (c : Byte) {s : RV32 σ}
    (hin : ¬ (writeArgs host addr len data).OutOfRange s.memSize) {b : Nat → Byte}
    (hb : b = packetBuffer (c :: q) behind) :
    ∃ m ≤ (hexNumber 0 len).toNat,
      (∀ i < m, HexPair b ((writeArgs host addr len data).k + 2 * i)) ∧
      (m < (hexNumber 0 len).toNat → ¬ HexPair b ((writeArgs host addr len data).k + 2 * m)) ∧
      rspWriteMemory host b (q.length + 1) s =
        if m = (hexNumber 0 len).toNat then
          ⟨.ok .packetSent, (writeArgs host addr len data).written b s m, [rspFrame []]⟩
        else ⟨.error "invalid hex digit", (writeArgs host addr len data).written b s m, []⟩ := by
  have hparse : rspWriteMemoryArgs host b (q.length + 1) = .ok (writeArgs host addr len data) := by
    rw [hb]
    exact rspWriteMemoryArgs_of_header h c
  generalize hargs : writeArgs host addr len data = args at hparse hin ⊢
  have hchunk : (hexNumber 0 len).toNat = args.chunkSize.toNat := by rw [← hargs]; rfl
  rw [hchunk]
  obtain ⟨m, hm, hgood, hbad, hloop⟩ := run_loop_assign (S := RV32 σ) (O := List Byte)
    (fun i => rspHexToU8_eq b (args.k + 2 * i)) args.writeByte 0 args.chunkSize.toNat s
  simp only [Nat.zero_add] at hgood hbad
  refine ⟨m, hm, hgood, hbad, ?_⟩
  rw [rspWriteMemory, hparse, run_attempt_ok_bind, run_get_bind, if_neg hin]
  by_cases hall : m = args.chunkSize.toNat
  · rw [if_pos hall] at hloop
    rw [if_pos hall, run_bind_ok (by rw [hloop]), hloop, rspQuickReply_run unsupported_mem_answers]
    rfl
  · rw [if_neg hall] at hloop
    rw [if_neg hall, run_bind_error (by rw [hloop]), hloop]
    rfl

/-- **What has been written**: at each index the byte of its pair, and elsewhere nothing. -/
theorem MemoryArgs.written_eq (args : MemoryArgs) (buffer : Nat → Byte) (s : RV32 σ) {m : Nat}
    (hm : m ≤ 2 ^ 32) :
    ∃ bytes touched, args.written buffer s m = { s with mem := { bytes, touched } } ∧
      (∀ i < m, bytes (args.index i).toNat = hexPairValue buffer (args.k + 2 * i)) ∧
      ∀ x, (∀ i < m, x ≠ (args.index i).toNat) → bytes x = s.mem.bytes x := by
  induction m with
  | zero => exact ⟨s.mem.bytes, s.mem.touched, rfl, by simp, by simp⟩
  | succ m ih =>
      obtain ⟨bytes, touched, heq, hwritten, hrest⟩ := ih (Nat.le_of_succ_le hm)
      refine ⟨Function.update bytes (args.index m).toNat (hexPairValue buffer (args.k + 2 * m)),
        (args.index m).toNat :: touched, ?_, ?_, ?_⟩
      · rw [written, List.range'_1_concat, List.foldl_append, ← written, heq, Nat.zero_add]
        rfl
      · intro i hi
        rcases Nat.lt_succ_iff_lt_or_eq.mp hi with hlt | rfl
        · -- the earlier indices are others
          have hne : (args.index i).toNat ≠ (args.index m).toNat := by
            rw [index_toNat, index_toNat]
            omega
          rw [Function.update_of_ne hne, hwritten i hlt]
        · rw [Function.update_self]
      · intro x hx
        rw [Function.update_of_ne (hx m (Nat.lt_succ_self m))]
        exact hrest x fun i hi => hx i (Nat.lt_succ_of_lt hi)

/-! ## The indices a loop goes through -/

/-- A fold that touches one index in each round. -/
theorem foldl_touched {f : RV32 σ → Nat → RV32 σ} {x : Nat → Nat}
    (hf : ∀ s i, (f s i).mem.touched = x i :: s.mem.touched) (is : List Nat) (s : RV32 σ) :
    (is.foldl f s).mem.touched = (is.map x).reverse ++ s.mem.touched := by
  induction is generalizing s with
  | nil => rfl
  | cons i is ih =>
      rw [List.foldl_cons, ih, hf, List.map_cons, List.reverse_cons, List.append_assoc]
      rfl

end Rv32
