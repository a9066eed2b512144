import Rv32.Core.Cycle
import Rv32.Lib.Prog
import Rv32.Rsp.Hex

/-!
# `Rsp.Handlers` — the packet handlers and `rsp_handle_packet`

A handler is a `Prog` on the machine whose output items are the texts given to `RSP_SEND`. The parsing of
a handler does not look at the machine and is a function to `Except String`; what it does to the machine
comes after it, as in the source. A pointer into the packet is an index of `buffer`.

`Dispatched` lists the handlers with the packets that lead to them. It is the only place where the chain
of `isprefix` tests is taken apart.
-/

namespace Rv32

open Prog

variable {σ : Type}

/-- The programs of the stub. -/
abbrev RspProg (σ : Type) : Type → Type := Prog (RV32 σ) (List Byte)

/-- The type of the handlers. -/
abbrev RspHandler (σ : Type) : Type := RspProg σ RspHandlerResult

/-- `return rsp_packet_quick_send(data);` -/
def rspQuickReply (data : String) : RspHandler σ := reply (rspPacketQuickSend (cstr data))

/-- `rv32_reset` -/
def rv32Reset (s : RV32 σ) : RV32 σ := rv32New s s.memSize

/-! ## Registers -/

/-- `rv32->r[i] = v;` -/
def RV32.setRegister (s : RV32 σ) (i : Nat) (v : Word) : RV32 σ :=
  { s with r := fun j => if j.val = i then v else s.r j }

/-- `rsp_read_registers`, on the machine the handler is called with. -/
def rspReadRegistersReply : RspProg σ RspHandlerResult := do
  let s ← getState
  reply (rspReadRegisters s)

/-- `rsp_write_registers` -/
def rspWriteRegisters (buffer : Nat → Byte) (size : Nat) : RspProg σ RspHandlerResult := do
  attempt (check (size = 265) "received invalid number of registers")
  -- the `G` is discarded, then there are 8 hex digits for each u32
  loop (assign (fun i => rspHexToU32 buffer (1 + 8 * i)) fun i v s => s.setRegister i v) 0 32 ()
  let v ← attempt (rspHexToU32 buffer (1 + 8 * 32))
  modifyState fun s => { s with pc := v }
  rspQuickReply ""

/-- The assignment of `rsp_write_specific_register`. -/
def rspAssignRegister (reg : Byte) (val : Word) : RspProg σ Unit :=
  if reg.toNat > 32 then
    fatal "invalid register in P command"
  else if reg.toNat = 32 then
    modifyState fun s => { s with pc := val }
  else
    modifyState fun s => s.setRegister reg.toNat val

/-- `rsp_write_specific_register` -/
def rspWriteSpecificRegister (buffer : Nat → Byte) (size : Nat) : RspProg σ RspHandlerResult := do
  attempt (check (size = 12) "invalid 'P' message from gdb")
  let reg ← attempt (rspHexToU8 buffer 1)
  let val ← attempt (rspHexToU32 buffer 4)
  rspAssignRegister reg val
  rspQuickReply "OK"

/-! ## Memory -/

/-- What the two memory packets say, and where the pointer stands after it. -/
structure MemoryArgs where
  start : Word
  chunkSize : Word
  k : Nat
  size : Nat

/-- The part the handlers of `m` and `M` have in common: an address, a comma and a length. -/
def rspParseMemory (msg : String) (buffer : Nat → Byte) (size : Nat) : Except String MemoryArgs := do
  check (rspIsHexDigit (buffer 1)) msg
  let start ← rspParseHex buffer 0 1 (size - 1)
  check (start.size ≠ 0 ∧ buffer start.k = char ',') msg
  let chunk ← rspParseHex buffer 0 (start.k + 1) (start.size - 1)
  pure { start := start.value, chunkSize := chunk.value, k := chunk.k, size := chunk.size }

/-- The parsing of `rsp_read_memory`. -/
def rspReadMemoryArgs (buffer : Nat → Byte) (size : Nat) : Except String MemoryArgs := do
  let args ← rspParseMemory "invalid 'm' message from gdb" buffer size
  check (args.size = 0) "invalid 'm' message from gdb"
  pure args

/-- The bounds test of the two handlers; its sum wraps. -/
def MemoryArgs.OutOfRange (args : MemoryArgs) (memSize : Word) : Prop :=
  args.start ≥ memSize ∨ args.start + args.chunkSize ≥ memSize

instance (args : MemoryArgs) (memSize : Word) : Decidable (args.OutOfRange memSize) :=
  inferInstanceAs (Decidable (_ ∨ _))

/-- The index `start + i`, in `uint32_t`. -/
def MemoryArgs.index (args : MemoryArgs) (i : Nat) : Word := args.start + BitVec.ofNat 32 i

/-- One round of the loop of `rsp_read_memory`. -/
def rspReadByte (args : MemoryArgs) (i : Nat) (p : RspPacket) : RspProg σ RspPacket := do
  let s ← getState
  modifyState fun s => s.touch (args.index i) 1
  attempt (rspPacketAppendU8 p (s.mem.bytes (args.index i).toNat))

/-- `rsp_read_memory` -/
def rspReadMemory (buffer : Nat → Byte) (size : Nat) : RspProg σ RspHandlerResult := do
  let args ← attempt (rspReadMemoryArgs buffer size)
  let s ← getState
  if args.OutOfRange s.memSize then
    rspQuickReply ""
  else
    let p ← loop (rspReadByte args) 0 args.chunkSize.toNat rspPacketBegin
    reply do
      let p ← rspPacketEnd p
      pure (rspPacketSend p)

variable (host : Host σ)

/-- The parsing of `rsp_write_memory`. Its second `size--` may wrap. -/
def rspWriteMemoryArgs (buffer : Nat → Byte) (size : Nat) : Except String MemoryArgs := do
  let args ← rspParseMemory "invalid 'M' message from gdb" buffer size
  check (buffer args.k = char ':') "invalid 'M' message from gdb"
  let size := (args.size + (2 ^ host.sizeBits - 1)) % 2 ^ host.sizeBits
  check (size = (2 * args.chunkSize).toNat) "invalid size in 'M' message from gdb"
  pure { args with k := args.k + 1, size := size }

/-- `rv32->mem[start + i] = v;` -/
def MemoryArgs.writeByte (args : MemoryArgs) (i : Nat) (v : Byte) (s : RV32 σ) : RV32 σ :=
  { s.touch (args.index i) 1 with mem.bytes := Function.update s.mem.bytes (args.index i).toNat v }

/-- `rsp_write_memory` -/
def rspWriteMemory (buffer : Nat → Byte) (size : Nat) : RspProg σ RspHandlerResult := do
  let args ← attempt (rspWriteMemoryArgs host buffer size)
  let s ← getState
  if args.OutOfRange s.memSize then
    rspQuickReply ""
  else
    loop (assign (fun i => rspHexToU8 buffer (args.k + 2 * i)) args.writeByte) 0 args.chunkSize.toNat ()
    rspQuickReply ""

/-! ## Breakpoints -/

/-- The parsing of the two breakpoint handlers. -/
def rspBreakpointAddr (buffer : Nat → Byte) (size : Nat) : Except String Word := do
  check (size - 2 ≠ 0 ∧ buffer 2 = char ',') "invalid 'Z0' message from GDB"
  let addr ← rspParseHex buffer 0 3 (size - 3)
  -- the size is not tested again
  check (buffer addr.k = char ',') "invalid 'Z0' message from gdb"
  pure addr.value

/-- The two breakpoint handlers differ in the call they make. -/
def rspSoftwareBreakpoint (call : RV32 σ → Word → Bool × RV32 σ) (buffer : Nat → Byte) (size : Nat) :
    RspProg σ RspHandlerResult := do
  let addr ← attempt (rspBreakpointAddr buffer size)
  let s ← getState
  modifyState fun s => (call s addr).2
  if (call s addr).1 then rspQuickReply "OK" else rspQuickReply ""

/-- `rsp_set_software_breakpoint` -/
def rspSetSoftwareBreakpoint (buffer : Nat → Byte) (size : Nat) : RspHandler σ :=
  rspSoftwareBreakpoint rv32SetBreakpoint buffer size

/-- `rsp_clear_software_breakpoint` -/
def rspClearSoftwareBreakpoint (buffer : Nat → Byte) (size : Nat) : RspHandler σ :=
  rspSoftwareBreakpoint rv32ClearBreakpoint buffer size

/-! ## Execution control -/

/-- `rsp_continue` -/
def rspContinue : RspProg σ RspHandlerResult := do
  modifyState rv32Resume
  pure .noPacketSent

/-- `rsp_detach` -/
def rspDetach : RspProg σ RspHandlerResult := do
  modifyState rv32ClearAllBreakpoints
  modifyState rv32Resume
  rspQuickReply "OK"

/-- `rsp_kill` -/
def rspKill : RspProg σ RspHandlerResult := do
  modifyState rv32Reset
  pure .noPacketSent

/-! ## The dispatch -/

/-- `isprefix(s1, buffer)` -/
def rspIsPrefix (s1 : String) (buffer : Nat → Byte) (size : Nat) : Prop :=
  (cstr s1).length ≤ size ∧ (List.range (cstr s1).length).map buffer = cstr s1

instance (s1 : String) (buffer : Nat → Byte) (size : Nat) : Decidable (rspIsPrefix s1 buffer size) :=
  inferInstanceAs (Decidable (_ ∧ _))

/-- `rsp_handle_packet` -/
def rspHandlePacket (buffer : Nat → Byte) (size : Nat) : RspHandler σ :=
  if rspIsPrefix "qSupported" buffer size then rspQuickReply "hwbreak+"
  else if rspIsPrefix "?" buffer size then rspQuickReply "S05"
  else if rspIsPrefix "qAttached" buffer size then rspQuickReply "1"
  else if rspIsPrefix "g" buffer size then rspReadRegistersReply
  else if rspIsPrefix "G" buffer size then rspWriteRegisters buffer size
  else if rspIsPrefix "P" buffer size then rspWriteSpecificRegister buffer size
  else if rspIsPrefix "m" buffer size then rspReadMemory buffer size
  else if rspIsPrefix "M" buffer size then rspWriteMemory host buffer size
  else if rspIsPrefix "Z0" buffer size then rspSetSoftwareBreakpoint buffer size
  else if rspIsPrefix "z0" buffer size then rspClearSoftwareBreakpoint buffer size
  else if rspIsPrefix "c" buffer size then rspContinue
  else if rspIsPrefix "D" buffer size then rspDetach
  else if rspIsPrefix "k" buffer size then rspKill
  else rspQuickReply ""

/-- The first byte of the packet is `c`. -/
def RspStarts (c : Char) (buffer : Nat → Byte) (size : Nat) : Prop := 1 ≤ size ∧ buffer 0 = char c

instance (c : Char) (buffer : Nat → Byte) (size : Nat) : Decidable (RspStarts c buffer size) :=
  inferInstanceAs (Decidable (_ ∧ _))

variable {buffer : Nat → Byte} {size : Nat}

theorem RspStarts.unique {c d : Char} (hc : RspStarts c buffer size) (hd : RspStarts d buffer size) :
    char c = char d := hc.2.symm.trans hd.2

theorem RspStarts.mem_map {c d : Char} (hc : RspStarts c buffer size) (hd : RspStarts d buffer size)
    {l : List Char} (hmem : d ∈ l) : char c ∈ l.map char := by
  rw [hc.unique hd]
  exact List.mem_map_of_mem hmem

/-- The packets a letter stands for. -/
def rspLetters : List Char := ['g', 'G', 'P', 'm', 'M', 'Z', 'z', 'c', 'D', 'k']

variable (buffer size) in
/-- The handlers, each with the packets it is called for. -/
inductive Dispatched : RspHandler σ → Prop where
  | constant (data : String) (hdata : data ∈ ["hwbreak+", "S05", "1", ""])
      (h : ∀ c ∈ rspLetters, RspStarts c buffer size → c = 'Z' ∨ c = 'z')
      (hZ : ¬ rspIsPrefix "Z0" buffer size) (hz : ¬ rspIsPrefix "z0" buffer size) :
      Dispatched (rspQuickReply data)
  | readRegisters (h : RspStarts 'g' buffer size) : Dispatched rspReadRegistersReply
  | writeRegisters (h : RspStarts 'G' buffer size) : Dispatched (rspWriteRegisters buffer size)
  | writeSpecificRegister (h : RspStarts 'P' buffer size) :
      Dispatched (rspWriteSpecificRegister buffer size)
  | readMemory (h : RspStarts 'm' buffer size) : Dispatched (rspReadMemory buffer size)
  | writeMemory (h : RspStarts 'M' buffer size) : Dispatched (rspWriteMemory host buffer size)
  | setSoftwareBreakpoint (h : rspIsPrefix "Z0" buffer size) :
      Dispatched (rspSetSoftwareBreakpoint buffer size)
  | clearSoftwareBreakpoint (h : rspIsPrefix "z0" buffer size) :
      Dispatched (rspClearSoftwareBreakpoint buffer size)
  | resume (h : RspStarts 'c' buffer size) : Dispatched rspContinue
  | detach (h : RspStarts 'D' buffer size) : Dispatched rspDetach
  | kill (h : RspStarts 'k' buffer size) : Dispatched rspKill

variable {host}

theorem rspIsPrefix_singleton {s1 : String} {c : Char} (hs : cstr s1 = [char c]) :
    rspIsPrefix s1 buffer size ↔ RspStarts c buffer size := by
  rw [rspIsPrefix, hs]
  simp [RspStarts]

/-- The first byte of a prefix is the first byte of the packet. -/
theorem rspIsPrefix.starts {s1 : String} {c : Char} {rest : List Byte} (hs : cstr s1 = char c :: rest)
    (h : rspIsPrefix s1 buffer size) : RspStarts c buffer size := by
  rw [rspIsPrefix, hs, List.length_cons, List.range_succ_eq_map, List.map_cons] at h
  exact ⟨by omega, (List.cons.inj h.2).1⟩

/-- **The dispatch.** -/
theorem rspHandlePacket_dispatched :
    Dispatched host buffer size (rspHandlePacket host buffer size : RspHandler σ) := by
  -- a packet whose first byte is no letter has a constant answer
  have hconstant : ∀ {d : Char} {data : String}, data ∈ ["hwbreak+", "S05", "1", ""] →
      RspStarts d buffer size → char d ∉ rspLetters.map char →
      Dispatched host buffer size (rspQuickReply data) := by
    intro d data hdata hd hne
    refine .constant data hdata ?_ ?_ ?_
    · intro c hc hstarts
      exact absurd (hd.mem_map hstarts hc) hne
    · intro h
      exact hne (hd.mem_map (h.starts (c := 'Z') rfl) (by decide))
    · intro h
      exact hne (hd.mem_map (h.starts (c := 'z') rfl) (by decide))
  unfold rspHandlePacket
  by_cases hqS : rspIsPrefix "qSupported" buffer size
  · rw [if_pos hqS]
    exact hconstant (by decide) (hqS.starts (c := 'q') rfl) (by decide)
  rw [if_neg hqS]
  by_cases hquery : rspIsPrefix "?" buffer size
  · rw [if_pos hquery]
    exact hconstant (by decide) (hquery.starts (c := '?') rfl) (by decide)
  rw [if_neg hquery]
  by_cases hqA : rspIsPrefix "qAttached" buffer size
  · rw [if_pos hqA]
    exact hconstant (by decide) (hqA.starts (c := 'q') rfl) (by decide)
  by_cases hg : rspIsPrefix "g" buffer size
  · rw [if_neg hqA, if_pos hg]; exact .readRegisters ((rspIsPrefix_singleton rfl).mp hg)
  by_cases hG : rspIsPrefix "G" buffer size
  · rw [if_neg hqA, if_neg hg, if_pos hG]; exact .writeRegisters ((rspIsPrefix_singleton rfl).mp hG)
  rw [if_neg hqA, if_neg hg, if_neg hG]
  by_cases hP : rspIsPrefix "P" buffer size
  · rw [if_pos hP]; exact .writeSpecificRegister ((rspIsPrefix_singleton rfl).mp hP)
  by_cases hm : rspIsPrefix "m" buffer size
  · rw [if_neg hP, if_pos hm]; exact .readMemory ((rspIsPrefix_singleton rfl).mp hm)
  by_cases hM : rspIsPrefix "M" buffer size
  · rw [if_neg hP, if_neg hm, if_pos hM]; exact .writeMemory ((rspIsPrefix_singleton rfl).mp hM)
  rw [if_neg hP, if_neg hm, if_neg hM]
  by_cases hZ : rspIsPrefix "Z0" buffer size
  · rw [if_pos hZ]; exact .setSoftwareBreakpoint hZ
  by_cases hz : rspIsPrefix "z0" buffer size
  · rw [if_neg hZ, if_pos hz]; exact .clearSoftwareBreakpoint hz
  rw [if_neg hZ, if_neg hz]
  by_cases hc : rspIsPrefix "c" buffer size
  · rw [if_pos hc]; exact .resume ((rspIsPrefix_singleton rfl).mp hc)
  by_cases hD : rspIsPrefix "D" buffer size
  · rw [if_neg hc, if_pos hD]; exact .detach ((rspIsPrefix_singleton rfl).mp hD)
  by_cases hk : rspIsPrefix "k" buffer size
  · rw [if_neg hc, if_neg hD, if_pos hk]; exact .kill ((rspIsPrefix_singleton rfl).mp hk)
  rw [if_neg hc, if_neg hD, if_neg hk]
  refine .constant _ (by decide) ?_ hZ hz
  rw [rspIsPrefix_singleton (c := 'g') rfl] at hg
  rw [rspIsPrefix_singleton (c := 'G') rfl] at hG
  rw [rspIsPrefix_singleton (c := 'P') rfl] at hP
  rw [rspIsPrefix_singleton (c := 'm') rfl] at hm
  rw [rspIsPrefix_singleton (c := 'M') rfl] at hM
  rw [rspIsPrefix_singleton (c := 'c') rfl] at hc
  rw [rspIsPrefix_singleton (c := 'D') rfl] at hD
  rw [rspIsPrefix_singleton (c := 'k') rfl] at hk
  intro c hmem hstarts
  simp only [rspLetters, List.mem_cons, List.not_mem_nil, or_false] at hmem
  rcases hmem with rfl | rfl | rfl | rfl | rfl | rfl | rfl | rfl | rfl | rfl
  all_goals first | contradiction | simp

variable (host buffer size) in
/-- The handler of a packet, to be told from the others by cases. -/
theorem exists_dispatched :
    ∃ p, (rspHandlePacket host buffer size : RspHandler σ) = p ∧ Dispatched host buffer size p :=
  ⟨_, rfl, rspHandlePacket_dispatched⟩

/-! ## Constant answers -/

/-- The constant answers of the stub. None of them has a byte that needs escaping. -/
def rspAnswers : List String := ["hwbreak+", "S05", "1", "", "OK", "S02", "S04", "S0b"]

theorem ok_mem_answers : "OK" ∈ rspAnswers := by decide

/-- The empty answer, which stands for a packet that is not supported. -/
theorem unsupported_mem_answers : "" ∈ rspAnswers := by decide

theorem constant_mem_answers {data : String} (h : data ∈ ["hwbreak+", "S05", "1", ""]) :
    data ∈ rspAnswers := List.Sublist.subset (by decide) h

theorem rspAnswers_payload :
    ∀ data ∈ rspAnswers, (cstr data).flatMap rspEscape = cstr data ∧ (cstr data).length ≤ 8 ∧
      ∀ d ∈ cstr data, d ≠ 0 ∧ d ≠ char '#' ∧ d ≠ char '$' := by
  have hescape : ∀ data ∈ rspAnswers,
      (cstr data).flatMap rspEscape = cstr data ∧ (cstr data).length ≤ 8 := by decide
  have hbytes : ∀ data ∈ rspAnswers,
      (cstr data).all fun d => d ≠ 0 ∧ d ≠ char '#' ∧ d ≠ char '$' := by decide
  intro data hdata
  obtain ⟨hsame, hlen⟩ := hescape data hdata
  exact ⟨hsame, hlen, List.all_iff_forall_prop.mp (hbytes data hdata)⟩

theorem rspPacketQuickSend_answer {data : String} (h : data ∈ rspAnswers) :
    rspPacketQuickSend (cstr data) = .ok (.packetSent, rspFrame (cstr data)) := by
  obtain ⟨hescape, hlen, hbytes⟩ := rspAnswers_payload data h
  rw [rspPacketQuickSend_eq, hescape, rspPacketFrame_eq fun d hd => (hbytes d hd).1, if_pos]
  exact Nat.le_trans (Nat.add_le_add_right hlen 5) (by decide)

/-- **A constant answer** is one frame, and leaves the machine alone. -/
theorem rspQuickReply_run {data : String} (h : data ∈ rspAnswers) (s : RV32 σ) :
    rspQuickReply data s = ⟨.ok .packetSent, s, [rspFrame (cstr data)]⟩ := by
  rw [rspQuickReply, rspPacketQuickSend_answer h, run_reply_ok]

/-- **A breakpoint packet** that names an address makes the call and answers with its result. -/
theorem rspSoftwareBreakpoint_run (call : RV32 σ → Word → Bool × RV32 σ) (buffer : Nat → Byte)
    (size : Nat) (s : RV32 σ) :
    rspSoftwareBreakpoint call buffer size s =
      match rspBreakpointAddr buffer size with
      | .ok addr   =>
          ⟨.ok .packetSent, (call s addr).2, [rspFrame (cstr (if (call s addr).1 then "OK" else ""))]⟩
      | .error msg => ⟨.error msg, s, []⟩ := by
  rw [rspSoftwareBreakpoint]
  cases rspBreakpointAddr buffer size with
  | error msg => rfl
  | ok addr =>
      rw [run_attempt_ok_bind, run_get_bind, run_modify_bind]
      cases hresult : (call s addr).1 with
      | true =>
          rw [if_pos rfl, rspQuickReply_run ok_mem_answers]
          simp only [hresult, if_true]
      | false =>
          rw [if_neg Bool.false_ne_true, rspQuickReply_run unsupported_mem_answers]
          simp only [hresult, Bool.false_eq_true, if_false]

/-! ## Letters -/

variable (host buffer size) in
/-- The handler a letter stands for. -/
def rspLetterHandler : Char → RspHandler σ
  | 'g' => rspReadRegistersReply
  | 'G' => rspWriteRegisters buffer size
  | 'P' => rspWriteSpecificRegister buffer size
  | 'm' => rspReadMemory buffer size
  | 'M' => rspWriteMemory host buffer size
  | 'Z' => rspSetSoftwareBreakpoint buffer size
  | 'z' => rspClearSoftwareBreakpoint buffer size
  | 'c' => rspContinue
  | 'D' => rspDetach
  | 'k' => rspKill
  | _   => rspQuickReply ""

/-- A packet goes to the handler of its letter, or gets a constant answer. -/
theorem Dispatched.letter {p : RspHandler σ} (h : Dispatched host buffer size p) :
    (∃ c ∈ rspLetters, RspStarts c buffer size ∧ p = rspLetterHandler host buffer size c) ∨
      (∃ data ∈ rspAnswers, p = rspQuickReply data) ∧
        (∀ c ∈ rspLetters, RspStarts c buffer size → c = 'Z' ∨ c = 'z') ∧
        ¬ rspIsPrefix "Z0" buffer size ∧ ¬ rspIsPrefix "z0" buffer size := by
  cases h with
  | constant data hdata hother hZ hz =>
      exact .inr ⟨⟨data, constant_mem_answers hdata, rfl⟩, hother, hZ, hz⟩
  | readRegisters h => exact .inl ⟨'g', by decide, h, rfl⟩
  | writeRegisters h => exact .inl ⟨'G', by decide, h, rfl⟩
  | writeSpecificRegister h => exact .inl ⟨'P', by decide, h, rfl⟩
  | readMemory h => exact .inl ⟨'m', by decide, h, rfl⟩
  | writeMemory h => exact .inl ⟨'M', by decide, h, rfl⟩
  | setSoftwareBreakpoint h => exact .inl ⟨'Z', by decide, h.starts rfl, rfl⟩
  | clearSoftwareBreakpoint h => exact .inl ⟨'z', by decide, h.starts rfl, rfl⟩
  | resume h => exact .inl ⟨'c', by decide, h, rfl⟩
  | detach h => exact .inl ⟨'D', by decide, h, rfl⟩
  | kill h => exact .inl ⟨'k', by decide, h, rfl⟩

/-- The letters are told apart by their bytes. -/
theorem rspLetters_inj {c d : Char} (hc : c ∈ rspLetters) (hd : d ∈ rspLetters) (h : char c = char d) :
    c = d := List.inj_on_of_nodup_map (by decide : (rspLetters.map char).Nodup) hc hd h

/-- **The letter decides**, where it is enough. -/
theorem rspHandlePacket_letter {c : Char} (hc : c ∈ rspLetters) (h : RspStarts c buffer size)
    (hZ : c = 'Z' → rspIsPrefix "Z0" buffer size) (hz : c = 'z' → rspIsPrefix "z0" buffer size) :
    (rspHandlePacket host buffer size : RspHandler σ) = rspLetterHandler host buffer size c := by
  obtain ⟨p, hp, hdispatched⟩ := exists_dispatched host buffer size
  rw [hp]
  rcases hdispatched.letter with ⟨d, hd, hstarts, rfl⟩ | ⟨-, hother, hnotZ, hnotz⟩
  · rw [rspLetters_inj hc hd (h.unique hstarts)]
  · rcases hother c hc h with hcZ | hcz
    · exact absurd (hZ hcZ) hnotZ
    · exact absurd (hz hcz) hnotz

/-- It is enough for every letter but the two of the breakpoint packets. -/
theorem rspHandlePacket_of_starts {c : Char} (hc : c ∈ rspLetters ∧ c ≠ 'Z' ∧ c ≠ 'z')
    (h : RspStarts c buffer size) :
    (rspHandlePacket host buffer size : RspHandler σ) = rspLetterHandler host buffer size c :=
  rspHandlePacket_letter hc.1 h (fun hZ => absurd hZ hc.2.1) fun hz => absurd hz hc.2.2

theorem rspHandlePacket_writeRegisters (h : RspStarts 'G' buffer size) :
    (rspHandlePacket host buffer size : RspHandler σ) = rspWriteRegisters buffer size :=
  rspHandlePacket_of_starts (by decide) h

theorem rspHandlePacket_readMemory (h : RspStarts 'm' buffer size) :
    (rspHandlePacket host buffer size : RspHandler σ) = rspReadMemory buffer size :=
  rspHandlePacket_of_starts (by decide) h

theorem rspHandlePacket_writeMemory (h : RspStarts 'M' buffer size) :
    (rspHandlePacket host buffer size : RspHandler σ) = rspWriteMemory host buffer size :=
  rspHandlePacket_of_starts (by decide) h

theorem rspHandlePacket_continue (h : RspStarts 'c' buffer size) :
    (rspHandlePacket host buffer size : RspHandler σ) = rspContinue :=
  rspHandlePacket_of_starts (by decide) h

theorem rspHandlePacket_setSoftwareBreakpoint (h : rspIsPrefix "Z0" buffer size) :
    (rspHandlePacket host buffer size : RspHandler σ) = rspSetSoftwareBreakpoint buffer size :=
  rspHandlePacket_letter (c := 'Z') (by decide) (h.starts rfl) (fun _ => h) fun heq =>
    absurd heq (by decide)

theorem rspHandlePacket_clearSoftwareBreakpoint (h : rspIsPrefix "z0" buffer size) :
    (rspHandlePacket host buffer size : RspHandler σ) = rspClearSoftwareBreakpoint buffer size :=
  rspHandlePacket_letter (c := 'z') (by decide) (h.starts rfl) (fun heq => absurd heq (by decide))
    fun _ => h

end Rv32
