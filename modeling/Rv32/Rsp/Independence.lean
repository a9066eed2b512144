import Rv32.Lib.TwoRuns
import Rv32.Rsp.Effect
import Rv32.Rsp.Runs

/-!
# `Rsp.Independence` — what of its buffer a handler depends on

Two calls on the same packet, with anything behind it and with machines that are the same up to their ghost
state, are alike: every handler but those of `M`, `Z0` and `z0` looks at bytes of the packet only. Those
three are compared under what keeps them inside of it.
-/

namespace Rv32

open Prog

variable {σ : Type} {host : Host σ} {p : List Byte} {behind behind' : Nat → Byte}

theorem rspIsPrefix_agree (s1 : String) :
    rspIsPrefix s1 (packetBuffer p behind) p.length ↔ rspIsPrefix s1 (packetBuffer p behind') p.length := by
  apply and_congr_right
  intro hlen
  have hmap : (List.range (cstr s1).length).map (packetBuffer p behind) =
      (List.range (cstr s1).length).map (packetBuffer p behind') := by
    refine List.map_congr_left fun i hi => packetBuffer_agree ?_
    exact Nat.lt_of_lt_of_le (List.mem_range.mp hi) hlen
  rw [hmap]

theorem rspHexToU8_agree {k : Nat} (hk : k + 2 ≤ p.length) :
    rspHexToU8 (packetBuffer p behind) k = rspHexToU8 (packetBuffer p behind') k :=
  rspHexToU8_congr fun _ hi => packetBuffer_agree (by omega)

theorem rspHexToU32_agree {k : Nat} (hk : k + 8 ≤ p.length) :
    rspHexToU32 (packetBuffer p behind) k = rspHexToU32 (packetBuffer p behind') k :=
  rspHexToU32_congr fun _ hi => packetBuffer_agree (by omega)

/-! ## What handlers do to machines that differ in their ghost state -/

section Machines

variable {s t : RV32 σ}

theorem SameMachine.registers (h : SameMachine s t) (f : (Fin 32 → Word) → Fin 32 → Word) (pc : Word → Word) :
    SameMachine { s with r := f s.r, pc := pc s.pc } { t with r := f t.r, pc := pc t.pc } := by
  obtain ⟨touched, rfl⟩ := h
  exact ⟨touched, rfl⟩

theorem SameMachine.touch (h : SameMachine s t) (addr : Word) (n : Nat) :
    SameMachine (s.touch addr n) (t.touch addr n) := by
  obtain ⟨touched, rfl⟩ := h
  exact ⟨_, rfl⟩

theorem SameMachine.writeByte (h : SameMachine s t) (args : MemoryArgs) (i : Nat) (v : Byte) :
    SameMachine (args.writeByte i v s) (args.writeByte i v t) := by
  obtain ⟨touched, rfl⟩ := h
  exact ⟨_, rfl⟩

theorem SameMachine.resume (h : SameMachine s t) : SameMachine (rv32Resume s) (rv32Resume t) := by
  obtain ⟨touched, rfl⟩ := h
  unfold rv32Resume
  split
  · exact ⟨touched, rfl⟩
  · exact ⟨touched, rfl⟩

theorem SameMachine.reset (h : SameMachine s t) : SameMachine (rv32Reset s) (rv32Reset t) := by
  obtain ⟨touched, rfl⟩ := h
  exact ⟨_, rfl⟩

theorem SameMachine.clearAllBreakpoints (h : SameMachine s t) :
    SameMachine (rv32ClearAllBreakpoints s) (rv32ClearAllBreakpoints t) := by
  obtain ⟨touched, rfl⟩ := h
  exact ⟨touched, rfl⟩

/-- A breakpoint call answers the same, and does the same. -/
def KeepsSame (call : RV32 σ → Word → Bool × RV32 σ) : Prop :=
  ∀ s t addr, SameMachine s t → (call s addr).1 = (call t addr).1 ∧
    SameMachine (call s addr).2 (call t addr).2

theorem rv32SetBreakpoint_keepsSame : KeepsSame (rv32SetBreakpoint : RV32 σ → Word → Bool × RV32 σ) := by
  rintro s _ addr ⟨touched, rfl⟩
  have hfind : ∀ i, bpEnabled { s with mem.touched := touched } i ↔ bpEnabled s i := fun i => Iff.rfl
  unfold rv32SetBreakpoint
  simp only [hfind]
  split
  · exact ⟨rfl, touched, rfl⟩
  · exact ⟨rfl, touched, rfl⟩

theorem rv32ClearBreakpoint_keepsSame :
    KeepsSame (rv32ClearBreakpoint : RV32 σ → Word → Bool × RV32 σ) := by
  rintro s _ addr ⟨touched, rfl⟩
  have hfind : ∀ i, bpEnabled { s with mem.touched := touched } i ↔ bpEnabled s i := fun i => Iff.rfl
  unfold rv32ClearBreakpoint
  simp only [hfind]
  split
  · exact ⟨rfl, touched, rfl⟩
  · exact ⟨rfl, touched, rfl⟩

end Machines

/-! ## The handlers -/

theorem rspQuickReply_alike (data : String) :
    Alike SameMachine (rspQuickReply data : RspProg σ RspHandlerResult) (rspQuickReply data) :=
  alike_reply _

theorem rspReadRegistersReply_alike :
    Alike SameMachine (rspReadRegistersReply : RspProg σ RspHandlerResult) rspReadRegistersReply := by
  refine alike_getState_bind ?_
  rintro s _ ⟨touched, rfl⟩
  exact alike_reply _

theorem rspWriteRegisters_alike :
    Alike SameMachine (rspWriteRegisters (packetBuffer p behind) p.length : RspProg σ RspHandlerResult)
      (rspWriteRegisters (packetBuffer p behind') p.length) := by
  by_cases hsize : p.length = 265
  case neg =>
    rw [rspWriteRegisters, rspWriteRegisters, check, if_neg hsize]
    exact fun s t h => ⟨rfl, rfl, h⟩
  have hword : ∀ i ≤ 32, rspHexToU32 (packetBuffer p behind) (1 + 8 * i) =
      rspHexToU32 (packetBuffer p behind') (1 + 8 * i) := by
    intro i hi
    exact rspHexToU32_agree (by omega)
  have hregister : ∀ (i : Nat) (v : Word) (s t : RV32 σ), SameMachine s t →
      SameMachine (s.setRegister i v) (t.setRegister i v) := by
    intro i v s t h
    exact h.registers (fun r j => if j.val = i then v else r j) id
  have hbody : ∀ i, 0 ≤ i → i < 0 + 32 → ∀ u, Alike SameMachine
      (assign (fun i => rspHexToU32 (packetBuffer p behind) (1 + 8 * i)) (fun i v s => s.setRegister i v) i u :
        RspProg σ Unit)
      (assign (fun i => rspHexToU32 (packetBuffer p behind') (1 + 8 * i)) (fun i v s => s.setRegister i v) i
        u) := by
    intro i _ hi u
    exact alike_assign i (hword i (by omega)) (hregister i) u
  apply (alike_attempt rfl).bind
  intro _
  apply (alike_loop hbody ()).bind
  intro _
  apply (alike_attempt (by rw [hword 32 (Nat.le_refl 32)])).bind
  intro v
  exact (alike_modify fun s t h => h.registers id fun _ => v).bind fun _ => rspQuickReply_alike ""

theorem rspAssignRegister_alike (reg : Byte) (val : Word) :
    Alike SameMachine (rspAssignRegister reg val : RspProg σ Unit) (rspAssignRegister reg val) := by
  unfold rspAssignRegister
  split
  · exact alike_fatal _
  split
  · exact alike_modify fun s t h => h.registers id fun _ => val
  · apply alike_modify
    intro s t h
    exact h.registers (fun r j => if j.val = reg.toNat then val else r j) id

theorem rspWriteSpecificRegister_alike :
    Alike SameMachine (rspWriteSpecificRegister (packetBuffer p behind) p.length : RspProg σ RspHandlerResult)
      (rspWriteSpecificRegister (packetBuffer p behind') p.length) := by
  by_cases hsize : p.length = 12
  case neg =>
    rw [rspWriteSpecificRegister, rspWriteSpecificRegister, check, if_neg hsize]
    exact fun s t h => ⟨rfl, rfl, h⟩
  apply (alike_attempt rfl).bind
  intro _
  apply (alike_attempt (by rw [rspHexToU8_agree (by omega)])).bind
  intro reg
  apply (alike_attempt (by rw [rspHexToU32_agree (by omega)])).bind
  intro val
  exact (rspAssignRegister_alike reg val).bind fun _ => rspQuickReply_alike "OK"

theorem rspReadByte_alike (args : MemoryArgs) (i : Nat) (q : RspPacket) :
    Alike SameMachine (rspReadByte args i q : RspProg σ RspPacket) (rspReadByte args i q) := by
  refine alike_getState_bind ?_
  rintro s _ ⟨touched, rfl⟩
  exact (alike_modify fun s t h => h.touch _ _).bind fun _ => alike_attempt rfl

/-- The parser of `m` never gets behind the packet. -/
theorem rspReadMemoryArgs_agree (c : Byte) (q : List Byte) :
    rspReadMemoryArgs (packetBuffer (c :: q) behind) (q.length + 1) =
      rspReadMemoryArgs (packetBuffer (c :: q) behind') (q.length + 1) := by
  by_cases hheader : ∃ addr len, MemoryHeader q addr len []
  · obtain ⟨addr, len, h⟩ := hheader
    rw [rspReadMemoryArgs_of_header h, rspReadMemoryArgs_of_header h]
  · have hno : ∀ addr len, ¬ MemoryHeader q addr len [] := fun addr len h => hheader ⟨addr, len, h⟩
    rw [rspReadMemoryArgs_of_no_header hno, rspReadMemoryArgs_of_no_header hno]

theorem rspReadMemory_alike (c : Byte) (q : List Byte) :
    Alike SameMachine
      (rspReadMemory (packetBuffer (c :: q) behind) (q.length + 1) : RspProg σ RspHandlerResult)
      (rspReadMemory (packetBuffer (c :: q) behind') (q.length + 1)) := by
  apply (alike_attempt (by rw [rspReadMemoryArgs_agree])).bind
  intro args
  refine alike_getState_bind ?_
  rintro s _ ⟨touched, rfl⟩ s' t' h
  apply alike_ite Iff.rfl (fun _ => rspQuickReply_alike "" s' t' h)
  intro _
  refine Alike.bind (alike_loop (fun i _ _ q => rspReadByte_alike args i q) _) (fun q => ?_) s' t' h
  exact alike_reply _

theorem rspSoftwareBreakpoint_alike {call : RV32 σ → Word → Bool × RV32 σ} (hcall : KeepsSame call)
    {b b' : Nat → Byte} {size : Nat}
    (haddr : (rspBreakpointAddr b size).toOption = (rspBreakpointAddr b' size).toOption) :
    Alike SameMachine (rspSoftwareBreakpoint call b size) (rspSoftwareBreakpoint call b' size) := by
  refine (alike_attempt haddr).bind fun addr => alike_getState_bind ?_
  intro s t hst
  apply (alike_modify fun s t h => (hcall s t addr h).2).bind
  intro _ s' t' h
  refine alike_ite ?_ (fun _ => rspQuickReply_alike "OK" s' t' h) fun _ => rspQuickReply_alike "" s' t' h
  rw [(hcall s t addr hst).1]

/-! ## `M`, as long as its pairs are in the packet -/

theorem MemoryArgs.written_alike (args : MemoryArgs) {b b' : Nat → Byte} {s t : RV32 σ} {m : Nat}
    (hst : SameMachine s t)
    (hvalue : ∀ i < m, hexPairValue b (args.k + 2 * i) = hexPairValue b' (args.k + 2 * i)) :
    SameMachine (args.written b s m) (args.written b' t m) := by
  induction m with
  | zero => exact hst
  | succ m ih =>
      have hbefore := ih fun i hi => hvalue i (Nat.lt_succ_of_lt hi)
      rw [written, written, List.range'_1_concat, List.foldl_append, List.foldl_append, ← written, ← written]
      rw [Nat.zero_add, List.foldl_cons, List.foldl_cons, List.foldl_nil, List.foldl_nil,
        hvalue m (Nat.lt_succ_self m)]
      exact hbefore.writeByte _ _ _

/-- The data stand where the pointer points to. -/
theorem WriteHeader.packetBuffer_data {q addr len data : List Byte} (h : WriteHeader host q addr len data)
    (behind : Nat → Byte) (c : Byte) {x : Nat} (hx : x < data.length) :
    packetBuffer (c :: q) behind ((writeArgs host addr len data).k + x) = data[x] := by
  have hrest := h.header.drop_k c
  have hdrop : (c :: q).drop (writeArgs host addr len data).k = data := by
    rw [show (writeArgs host addr len data).k = (memoryArgs addr len (char ':' :: data)).k + 1 from rfl,
      ← List.tail_drop, hrest, List.tail_cons]
  rw [packetBuffer, ← List.getElem?_drop, hdrop, List.getElem?_eq_getElem hx, Option.getD_some]

/-- Digits that are not all hex have a pair that is not. -/
theorem exists_not_hexPair (behind : Nat → Byte) {q addr len data : List Byte}
    (h : WriteHeader host q addr len data) (c : Byte) (hdata : ¬ HexDigits data) :
    ∃ x < data.length, ¬ HexPair (packetBuffer (c :: q) behind)
      ((writeArgs host addr len data).k + 2 * (x / 2)) := by
  obtain ⟨d, hd, hdigit⟩ : ∃ d ∈ data, ¬ rspIsHexDigit d = true := by
    by_contra hall
    exact hdata fun d hd => by_contra fun hdigit => hall ⟨d, hd, hdigit⟩
  obtain ⟨x, hx, hget⟩ := List.getElem_of_mem hd
  have hat := h.packetBuffer_data behind c hx
  rw [hget] at hat
  refine ⟨x, hx, fun hpair => hdigit ?_⟩
  -- the digit is the first or the second of its pair
  rcases Nat.mod_two_eq_zero_or_one x with heven | hodd
  · rw [← hat, show x = 2 * (x / 2) by omega]
    exact hpair.1
  · rw [← hat, show (writeArgs host addr len data).k + x =
      (writeArgs host addr len data).k + 2 * (x / 2) + 1 by omega]
    exact hpair.2

/-- Where the data of an accepted packet stand. -/
theorem WriteHeader.length_eq {q addr len data : List Byte} (h : WriteHeader host q addr len data) :
    q.length + 1 = (writeArgs host addr len data).k + data.length := by
  have hlength := h.header.length_eq
  rw [List.length_cons] at hlength
  show q.length + 1 = addr.length + len.length + 3 + data.length
  omega

/-- The data of a packet that the receiver can hold are twice as many as the length says, modulo `2 ^ 32`. -/
theorem WriteHeader.data_length {q addr len data : List Byte} (h : WriteHeader host q addr len data)
    (hlen : q.length + 1 ≤ rspBufferSize) : data.length = 2 * (hexNumber 0 len).toNat % 2 ^ 32 := by
  have hpow : 2 ^ 32 ≤ 2 ^ host.sizeBits := Nat.pow_le_pow_right (by decide) host.sizeBits_ge
  have hsize := h.size
  rw [BitVec.toNat_mul, show (2 : Word).toNat = 2 from rfl, Nat.mod_eq_of_lt] at hsize
  · exact hsize
  · have hlength := h.length_eq
    rw [rspBufferSize] at hlen
    omega

/-- The data of the packet run out before the loop does, and all of them are hex. -/
def Oversized (host : Host σ) (s : RV32 σ) (p : List Byte) : Prop :=
  ∃ q addr len data, p = char 'M' :: q ∧ WriteHeader host q addr len data ∧
    ¬ (writeArgs host addr len data).OutOfRange s.memSize ∧ HexDigits data ∧
    2 ^ 31 ≤ (hexNumber 0 len).toNat

/-- **The loop of `M`** looks at pairs of the packet only, unless the packet is `Oversized`. -/
theorem pair_inside {q addr len data : List Byte} (h : WriteHeader host q addr len data) (c : Byte)
    (hlen : q.length + 1 ≤ rspBufferSize)
    (hnot : HexDigits data → (hexNumber 0 len).toNat < 2 ^ 31) {i : Nat} (hi : i < (hexNumber 0 len).toNat)
    (hpairs : ∀ j < i, HexPair (packetBuffer (c :: q) behind) ((writeArgs host addr len data).k + 2 * j)) :
    (writeArgs host addr len data).k + 2 * i + 2 ≤ q.length + 1 := by
  have hdata := h.data_length hlen
  rw [h.length_eq]
  by_cases hhex : HexDigits data
  · have hsmall := hnot hhex
    omega
  · obtain ⟨x, hx, hpair⟩ := exists_not_hexPair behind h c hhex
    have hle : ¬ x / 2 < i := fun hlt => hpair (hpairs (x / 2) hlt)
    omega

theorem rspWriteMemory_alike {q : List Byte} {s t : RV32 σ} (hst : SameMachine s t)
    (hlen : q.length + 1 ≤ rspBufferSize) (hnot : ¬ Oversized host s (char 'M' :: q)) :
    Outcome.Alike SameMachine
      (rspWriteMemory host (packetBuffer (char 'M' :: q) behind) (q.length + 1) s)
      (rspWriteMemory host (packetBuffer (char 'M' :: q) behind') (q.length + 1) t) := by
  have hsize : t.memSize = s.memSize := by
    obtain ⟨_, rfl⟩ := hst
    rfl
  by_cases hheader : ∃ addr len data, WriteHeader host q addr len data
  case neg =>
    obtain ⟨msg, hrun⟩ := rspWriteMemory_of_no_header behind hheader (char 'M') s
    obtain ⟨msg', hrun'⟩ := rspWriteMemory_of_no_header behind' hheader (char 'M') t
    rw [hrun, hrun']
    exact ⟨rfl, rfl, hst⟩
  obtain ⟨addr, len, data, h⟩ := hheader
  by_cases hout : (writeArgs host addr len data).OutOfRange s.memSize
  case pos =>
    rw [rspWriteMemory_of_outOfRange behind h _ hout,
      rspWriteMemory_of_outOfRange behind' h _ (hsize.symm ▸ hout)]
    exact ⟨rfl, rfl, hst⟩
  have hsmall : HexDigits data → (hexNumber 0 len).toNat < 2 ^ 31 := by
    intro hhex
    by_contra hlarge
    exact hnot ⟨q, addr, len, data, rfl, h, hout, hhex, Nat.le_of_not_lt hlarge⟩
  obtain ⟨m, hm, hgood, hbad, hrun⟩ :=
    rspWriteMemory_run behind h (char 'M') hout rfl
  obtain ⟨m', hm', hgood', hbad', hrun'⟩ :=
    rspWriteMemory_run behind' h (char 'M') (hsize.symm ▸ hout) rfl
  -- both loops look at the same pairs
  have hagree : ∀ i < (hexNumber 0 len).toNat,
      (∀ j < i, HexPair (packetBuffer (char 'M' :: q) behind) ((writeArgs host addr len data).k + 2 * j)) →
      ∀ x, (writeArgs host addr len data).k + 2 * i ≤ x →
        x < (writeArgs host addr len data).k + 2 * i + 2 →
        packetBuffer (char 'M' :: q) behind x = packetBuffer (char 'M' :: q) behind' x := by
    intro i hi hpairs x _ hx
    have hinside := pair_inside h (char 'M') hlen hsmall hi hpairs
    exact packetBuffer_agree (Nat.lt_of_lt_of_le hx hinside)
  have hstop : m = m' := stop_unique hm hgood hbad hm' hgood' hbad'
    fun i hi hpairs => (hexPair_congr (hagree i hi hpairs)).1
  subst hstop
  have hstate := (writeArgs host addr len data).written_alike hst (m := m)
    fun i hi => (hexPair_congr (hagree i (Nat.lt_of_lt_of_le hi hm)
      fun j hj => hgood j (Nat.lt_trans hj hi))).2
  rw [hrun, hrun']
  split
  · exact ⟨rfl, rfl, hstate⟩
  · exact ⟨rfl, rfl, hstate⟩

/-! ## `Z0` and `z0`, as long as the comma is in the packet -/

/-- A packet for a breakpoint that ends with its address. -/
def Truncated (p : List Byte) : Prop :=
  ∃ ds, (p = cstr "Z0," ++ ds ∨ p = cstr "z0," ++ ds) ∧ HexDigits ds

theorem rspBreakpointAddr_agree {q : List Byte} (c d : Byte)
    (hnot : ∀ ds, HexDigits ds → q ≠ char ',' :: ds) :
    rspBreakpointAddr (packetBuffer (c :: d :: q) behind) (q.length + 2) =
      rspBreakpointAddr (packetBuffer (c :: d :: q) behind') (q.length + 2) := by
  by_cases hheader : ∃ ds rest, BreakpointHeader q ds rest
  case neg =>
    have hno : ∀ ds rest, ¬ BreakpointHeader q ds rest := fun ds rest h => hheader ⟨ds, rest, h⟩
    rw [rspBreakpointAddr_of_no_header hno, rspBreakpointAddr_of_no_header hno]
  obtain ⟨ds, rest, h⟩ := hheader
  cases rest with
  | nil => exact absurd (by rw [h.text, List.append_nil]) (hnot ds h.digits)
  | cons e rest => rw [rspBreakpointAddr_of_rest h, rspBreakpointAddr_of_rest h]

/-! ## All packets -/

/-- **What is behind a packet does not matter**, unless it is `Truncated` or `Oversized`. -/
theorem rspHandlePacket_alike {s t : RV32 σ} (hst : SameMachine s t) (hlen : p.length ≤ rspBufferSize)
    (htruncated : ¬ Truncated p) (hoversized : ¬ Oversized host s p) :
    Outcome.Alike SameMachine (rspHandlePacket host (packetBuffer p behind) p.length s)
      (rspHandlePacket host (packetBuffer p behind') p.length t) := by
  have hbreakpoint : ∀ {call : RV32 σ → Word → Bool × RV32 σ} (letters : String) (c : Char),
      KeepsSame call → cstr letters = [char c, char '0'] → (c = 'Z' ∨ c = 'z') →
      rspIsPrefix letters (packetBuffer p behind) p.length →
      Outcome.Alike SameMachine (rspSoftwareBreakpoint call (packetBuffer p behind) p.length s)
        (rspSoftwareBreakpoint call (packetBuffer p behind') p.length t) := by
    intro call letters c hcall hletters hc h
    obtain ⟨q, rfl⟩ := rspIsPrefix_packetBuffer h
    rw [hletters, List.cons_append, List.cons_append, List.nil_append] at htruncated ⊢
    refine rspSoftwareBreakpoint_alike hcall ?_ s t hst
    rw [List.length_cons, List.length_cons, rspBreakpointAddr_agree]
    rintro ds hds rfl
    refine htruncated ⟨ds, ?_, hds⟩
    rcases hc with rfl | rfl
    · exact .inl rfl
    · exact .inr rfl
  unfold rspHandlePacket
  apply alike_ite (rspIsPrefix_agree _) (fun _ => rspQuickReply_alike _ s t hst)
  intro _
  apply alike_ite (rspIsPrefix_agree _) (fun _ => rspQuickReply_alike _ s t hst)
  intro _
  apply alike_ite (rspIsPrefix_agree _) (fun _ => rspQuickReply_alike _ s t hst)
  intro _
  apply alike_ite (rspIsPrefix_agree _) (fun _ => rspReadRegistersReply_alike s t hst)
  intro _
  apply alike_ite (rspIsPrefix_agree _) (fun _ => rspWriteRegisters_alike s t hst)
  intro _
  apply alike_ite (rspIsPrefix_agree _) (fun _ => rspWriteSpecificRegister_alike s t hst)
  intro _
  refine alike_ite (rspIsPrefix_agree _) (fun hm => ?_) fun _ => ?_
  · obtain ⟨q, rfl⟩ := rspStarts_packetBuffer ((rspIsPrefix_singleton (c := 'm') rfl).mp hm)
    exact rspReadMemory_alike _ q s t hst
  refine alike_ite (rspIsPrefix_agree _) (fun hM => ?_) fun _ => ?_
  · obtain ⟨q, rfl⟩ := rspStarts_packetBuffer ((rspIsPrefix_singleton (c := 'M') rfl).mp hM)
    exact rspWriteMemory_alike hst hlen hoversized
  refine alike_ite (rspIsPrefix_agree _)
    (hbreakpoint "Z0" 'Z' rv32SetBreakpoint_keepsSame rfl (.inl rfl)) fun _ => ?_
  refine alike_ite (rspIsPrefix_agree _)
    (hbreakpoint "z0" 'z' rv32ClearBreakpoint_keepsSame rfl (.inr rfl)) fun _ => ?_
  refine alike_ite (rspIsPrefix_agree _) (fun _ => ⟨rfl, rfl, hst.resume⟩) ?_
  intro _
  refine alike_ite (rspIsPrefix_agree _) (fun _ => ?_) fun _ => ?_
  · refine Alike.bind (alike_modify fun s t h => h.clearAllBreakpoints) (fun _ => ?_) s t hst
    exact (alike_modify fun s t h => h.resume).bind fun _ => rspQuickReply_alike "OK"
  refine alike_ite (rspIsPrefix_agree _) (fun _ => ⟨rfl, rfl, hst.reset⟩) ?_
  intro _
  exact rspQuickReply_alike "" s t hst

end Rv32
