import Rv32.Correctness.MemoryRoundTrip
import Rv32.Correctness.RegisterRoundTrip
import Rv32.Correctness.SpecificRegister
import Rv32.Correctness.Survival

/-!
# `Correctness.Requests` — what the packets of a debugger mean

A debugger asks for registers, memory and breakpoints, and does not think of texts. `Request` is what it can
ask for, `Request.serve` what is done about it and what the answer says, and `Request.Encodes` the texts it may
be written in. `request_served` says that the handlers do what is asked, whatever the text and whatever is
behind it, for the requests they are right about (`Request.Supported`): a word has to be small to survive
the decoder, a register of one digit is refused, and one reply holds 509 bytes.
-/

namespace Rv32

open Prog

variable {σ : Type} {host : Host σ} {s : RV32 σ} {p : List Byte} {behind : Nat → Byte}

/-! ## Requests -/

/-- What a debugger asks for. -/
inductive Request where
  | supported
  | reason
  | attached
  | readRegisters
  | writeRegisters (r : Fin 32 → Word) (pc : Word)
  | writeRegister (n : Nat) (v : Word)
  | readMemory (a n : Nat)
  | writeMemory (a : Nat) (bs : List Byte)
  | insertBreakpoint (a : Word)
  | removeBreakpoint (a : Word)
  | resume
  | detach
  | kill
  | other

/-- The accesses of a read of `n` bytes from `a` on. -/
def RV32.peeks : RV32 σ → Nat → Nat → RV32 σ
  | s, _, 0     => s
  | s, a, n + 1 => (s.touch (BitVec.ofNat 32 a) 1).peeks (a + 1) n

/-- The byte `b` at `a`. -/
def RV32.poke (s : RV32 σ) (a : Nat) (b : Byte) : RV32 σ :=
  { s.touch (BitVec.ofNat 32 a) 1 with mem.bytes := Function.update s.mem.bytes a b }

/-- The bytes `bs` from `a` on. -/
def RV32.pokes : RV32 σ → Nat → List Byte → RV32 σ
  | s, _, []      => s
  | s, a, b :: bs => (s.poke a b).pokes (a + 1) bs

/-- The prefixes `rsp_handle_packet` tests for. -/
def rspPrefixes : List String :=
  ["qSupported", "?", "qAttached", "g", "G", "P", "m", "M", "Z0", "z0", "c", "D", "k"]

namespace Request

/-- The answer of a request, if it has one, and the machine behind it. -/
def serve : Request → RV32 σ → Option (List Byte) × RV32 σ
  | supported, s           => (some (cstr "hwbreak+"), s)
  | reason, s              => (some (cstr "S05"), s)
  | attached, s            => (some (cstr "1"), s)
  | readRegisters, s       => (some (registersHex s), s)
  | writeRegisters r pc, s => (some [], { s with r, pc })
  | writeRegister n v, s   => (some (cstr "OK"), s.withRegister n v)
  | readMemory a n, s      =>
      if a + n < s.memSize.toNat then (some (ramHex s a n), s.peeks a n) else (some [], s)
  | writeMemory a bs, s    =>
      if a + bs.length < s.memSize.toNat then (some [], s.pokes a bs) else (some [], s)
  | insertBreakpoint a, s  =>
      (some (cstr (if (rv32SetBreakpoint s a).1 then "OK" else "")), (rv32SetBreakpoint s a).2)
  | removeBreakpoint a, s  =>
      (some (cstr (if (rv32ClearBreakpoint s a).1 then "OK" else "")), (rv32ClearBreakpoint s a).2)
  | resume, s              => (none, rv32Resume s)
  | detach, s              => (some (cstr "OK"), rv32Resume (rv32ClearAllBreakpoints s))
  | kill, s                => (none, rv32Reset s)
  | other, s               => (some [], s)

/-- The packet asks for it. -/
def Encodes : Request → List Byte → Prop
  | supported, p           => ∃ q, p = cstr "qSupported" ++ q
  | reason, p              => ∃ q, p = char '?' :: q
  | attached, p            => ∃ q, p = cstr "qAttached" ++ q
  | readRegisters, p       => ∃ q, p = char 'g' :: q
  | writeRegisters r pc, p => p = char 'G' :: ((List.finRange 32).flatMap (fun i => hexU32 (r i)) ++ hexU32 pc)
  | writeRegister n v, p   => p = registerPacket n (hexU32 v)
  | readMemory a n, p      => ∃ addr len, HexOf a addr ∧ HexOf n len ∧ p = readPacket addr len
  | writeMemory a bs, p    => ∃ addr len ds, HexOf a addr ∧ HexOf bs.length len ∧ HexData ds bs ∧
      p = writePacket addr len ds
  | insertBreakpoint a, p  => ∃ ds rest, HexOf a.toNat ds ∧ p = cstr "Z0" ++ char ',' :: (ds ++ char ',' :: rest)
  | removeBreakpoint a, p  => ∃ ds rest, HexOf a.toNat ds ∧ p = cstr "z0" ++ char ',' :: (ds ++ char ',' :: rest)
  | resume, p              => ∃ q, p = char 'c' :: q
  | detach, p              => ∃ q, p = char 'D' :: q
  | kill, p                => ∃ q, p = char 'k' :: q
  | other, p               => ∀ s1 ∈ rspPrefixes, ¬ cstr s1 <+: p

/-- The handlers do what is asked. -/
def Supported : Request → Prop
  | writeRegisters r pc => (∀ i, (r i).toNat < 256) ∧ pc.toNat < 256
  | writeRegister n v   => 16 ≤ n ∧ n ≤ 32 ∧ v.toNat < 256
  | readMemory a n      => a + n < 2 ^ 32 ∧ n ≤ 509
  | writeMemory a bs    => a + bs.length < 2 ^ 32 ∧ bs.length ≤ 509
  | _                   => True

/-- Every request is answered, except those to run on and to start again. -/
def Answered : Request → Prop
  | resume | kill => False
  | _             => True

end Request

/-- What a handler ends with that has this to say. -/
def answer : Option (List Byte) × RV32 σ → Outcome (RV32 σ) (List Byte) RspHandlerResult
  | (some payload, s) => ⟨.ok .packetSent, s, [rspFrame payload]⟩
  | (none, s)         => ⟨.ok .noPacketSent, s, []⟩

/-! ## Constant answers -/

theorem isPrefix_append (s1 : String) (q : List Byte) :
    rspIsPrefix s1 (packetBuffer (cstr s1 ++ q) behind) (cstr s1 ++ q).length := by
  refine ⟨by simp, List.ext_getElem (by simp) fun i hi hi' => ?_⟩
  simp [packetBuffer, List.getElem?_append_left hi', List.getElem?_eq_getElem hi']

theorem quickReply_answer {data : String} (h : data ∈ rspAnswers) :
    rspQuickReply data s = answer (some (cstr data), s) := rspQuickReply_run h s

/-- The queries the stub knows. -/
theorem supported_served (q : List Byte) :
    rspHandlePacket host (packetBuffer (cstr "qSupported" ++ q) behind) (cstr "qSupported" ++ q).length s =
      answer (some (cstr "hwbreak+"), s) := by
  rw [rspHandlePacket, if_pos (isPrefix_append "qSupported" q)]
  exact quickReply_answer (by decide)

theorem reason_served (q : List Byte) :
    rspHandlePacket host (packetBuffer (char '?' :: q) behind) (char '?' :: q).length s =
      answer (some (cstr "S05"), s) := by
  have hquery : rspIsPrefix "?" (packetBuffer (char '?' :: q) behind) (char '?' :: q).length :=
    isPrefix_append "?" q
  have hno : ¬ rspIsPrefix "qSupported" (packetBuffer (char '?' :: q) behind) (char '?' :: q).length := by
    intro h
    exact absurd ((h.starts (c := 'q') rfl).unique (hquery.starts (c := '?') rfl)) (by decide)
  rw [rspHandlePacket, if_neg hno, if_pos hquery]
  exact quickReply_answer (by decide)

theorem attached_served (q : List Byte) :
    rspHandlePacket host (packetBuffer (cstr "qAttached" ++ q) behind) (cstr "qAttached" ++ q).length s =
      answer (some (cstr "1"), s) := by
  have hattached : rspIsPrefix "qAttached" (packetBuffer (cstr "qAttached" ++ q) behind)
      (cstr "qAttached" ++ q).length := isPrefix_append "qAttached" q
  have hstarts := hattached.starts (c := 'q') rfl
  have hnoS : ¬ rspIsPrefix "qSupported" (packetBuffer (cstr "qAttached" ++ q) behind)
      (cstr "qAttached" ++ q).length := by
    rintro ⟨-, hmap⟩
    -- the second letter differs
    have hsecond := congrArg (fun bs => bs[1]?) hmap
    exact absurd hsecond (by simp [packetBuffer, cstr, char])
  have hnoQ : ¬ rspIsPrefix "?" (packetBuffer (cstr "qAttached" ++ q) behind) (cstr "qAttached" ++ q).length := by
    intro h
    exact absurd ((h.starts (c := '?') rfl).unique hstarts) (by decide)
  rw [rspHandlePacket, if_neg hnoS, if_neg hnoQ, if_pos hattached]
  exact quickReply_answer (by decide)

/-- A packet with none of the prefixes. -/
theorem other_served (h : ∀ s1 ∈ rspPrefixes, ¬ cstr s1 <+: p) :
    rspHandlePacket host (packetBuffer p behind) p.length s = answer (some [], s) := by
  have hno : ∀ s1 ∈ rspPrefixes, ¬ rspIsPrefix s1 (packetBuffer p behind) p.length := by
    intro s1 hs1 hprefix
    obtain ⟨q, hq⟩ := rspIsPrefix_packetBuffer hprefix
    exact h s1 hs1 ⟨q, hq.symm⟩
  simp only [rspPrefixes, List.forall_mem_cons, List.not_mem_nil, false_imp_iff, implies_true, and_true] at hno
  obtain ⟨h1, h2, h3, h4, h5, h6, h7, h8, h9, h10, h11, h12, h13⟩ := hno
  rw [rspHandlePacket, if_neg h1, if_neg h2, if_neg h3, if_neg h4, if_neg h5, if_neg h6, if_neg h7, if_neg h8,
    if_neg h9, if_neg h10, if_neg h11, if_neg h12, if_neg h13]
  exact quickReply_answer unsupported_mem_answers

/-! ## Letters -/

/-- The handler of the first letter. -/
theorem rspHandlePacket_cons {c : Char} (hc : c ∈ rspLetters ∧ c ≠ 'Z' ∧ c ≠ 'z') (q : List Byte) :
    (rspHandlePacket host (packetBuffer (char c :: q) behind) (char c :: q).length : RspHandler σ) =
      rspLetterHandler host (packetBuffer (char c :: q) behind) (char c :: q).length c :=
  rspHandlePacket_of_starts hc ⟨by simp, rfl⟩

theorem readRegisters_served (q : List Byte) :
    rspHandlePacket host (packetBuffer (char 'g' :: q) behind) (char 'g' :: q).length s =
      answer (some (registersHex s), s) := by
  rw [rspHandlePacket_cons (by decide)]
  show reply (rspReadRegisters s) s = _
  rw [rspReadRegisters_eq]
  rfl

theorem resume_served (q : List Byte) :
    rspHandlePacket host (packetBuffer (char 'c' :: q) behind) (char 'c' :: q).length s =
      answer (none, rv32Resume s) := by
  rw [rspHandlePacket_cons (by decide)]
  rfl

theorem kill_served (q : List Byte) :
    rspHandlePacket host (packetBuffer (char 'k' :: q) behind) (char 'k' :: q).length s =
      answer (none, rv32Reset s) := by
  rw [rspHandlePacket_cons (by decide)]
  rfl

theorem detach_served (q : List Byte) :
    rspHandlePacket host (packetBuffer (char 'D' :: q) behind) (char 'D' :: q).length s =
      answer (some (cstr "OK"), rv32Resume (rv32ClearAllBreakpoints s)) := by
  rw [rspHandlePacket_cons (by decide)]
  show rspDetach s = _
  rw [rspDetach, run_modify_bind, run_modify_bind]
  exact quickReply_answer ok_mem_answers

/-- All the registers, as `g` would show them. -/
theorem writeRegisters_served {r : Fin 32 → Word} {pc : Word}
    (h : (∀ i, (r i).toNat < 256) ∧ pc.toNat < 256) :
    rspHandlePacket host
        (packetBuffer (char 'G' :: ((List.finRange 32).flatMap (fun i => hexU32 (r i)) ++ hexU32 pc)) behind)
        (char 'G' :: ((List.finRange 32).flatMap (fun i => hexU32 (r i)) ++ hexU32 pc)).length s =
      answer (some [], { s with r, pc }) := by
  -- the packet is one made from a machine with these registers
  have hhex : (List.finRange 32).flatMap (fun i => hexU32 (r i)) ++ hexU32 pc =
      readReply { s with r := r, pc := pc } := (readReply_eq { s with r := r, pc := pc }).symm
  have hlen : (readReply { s with r := r, pc := pc }).length = 264 := by
    rw [readReply_eq, registersHex_length]
  rw [hhex, rspHandlePacket_cons (by decide), List.length_cons, hlen]
  have hr : ∀ i : Fin 32, rspHexToU32 (writeBack { s with r := r, pc := pc } behind) (1 + 8 * i.val) = .ok (r i) := by
    intro i
    rw [rspHexToU32_of_wordAt (writeBack_register _ behind i)]
    exact congrArg _ ((misplaced_eq_iff _).mpr (h.1 i))
  have hpc : rspHexToU32 (writeBack { s with r := r, pc := pc } behind) (1 + 8 * 32) = .ok pc := by
    rw [rspHexToU32_of_wordAt (writeBack_pc _ behind)]
    exact congrArg _ ((misplaced_eq_iff _).mpr h.2)
  have hstate := rspWriteRegisters_decodes hr hpc s
  obtain ⟨m, hm, -, hbad, hrun⟩ := rspWriteRegisters_run (writeBack { s with r := r, pc := pc } behind) s
  have hall : m = 33 := by
    by_contra hne
    have hlt : m < 33 := by omega
    rcases Nat.lt_succ_iff_lt_or_eq.mp hlt with hreg | rfl
    · exact hbad hlt (rspHexToU32_eq_ok (hr ⟨m, hreg⟩)).1
    · exact hbad hlt (rspHexToU32_eq_ok hpc).1
  rw [hrun, if_pos hall] at hstate
  refine (hrun.trans (if_pos hall)).trans ?_
  rw [show s.assigned (writeBack { s with r := r, pc := pc } behind) m = _ from hstate]
  rfl

/-- One register, its number in two digits. -/
theorem writeRegister_served {n : Nat} {v : Word} (h : 16 ≤ n ∧ n ≤ 32 ∧ v.toNat < 256) :
    rspHandlePacket host (packetBuffer (registerPacket n (hexU32 v)) behind)
        (registerPacket n (hexU32 v)).length s = answer (some (cstr "OK"), s.withRegister n v) := by
  have hdigits : HexDigits (hexU32 v) := by
    intro d hd
    have hall : rspDigits.all fun d => rspIsHexDigit d := by decide
    exact List.all_eq_true.mp hall d (hexU32_mem v d hd)
  have hwrites : WritesRegister s n (hexU32 v)
      (rspHandlePacket host (packetBuffer (registerPacket n (hexU32 v)) behind)
        (registerPacket n (hexU32 v)).length s) :=
    rspHandlePacket_two_digits behind h.1 h.2.1 hdigits (hexU32_length v)
  obtain ⟨w, hw, hrun⟩ := hwrites
  rw [(rspHexToU32_hexU32_iff v fun _ => 0).mpr h.2.2] at hw
  rw [hrun, ← Except.ok.inj hw]
  rfl

/-! ## Memory -/

section Memory

variable {a n : Nat} {addr len : List Byte} {args : MemoryArgs}

/-- The bounds test asks whether the part ends before the RAM, as long as its end is an address. -/
theorem not_outOfRange_iff {memSize : Word} (hend : args.start.toNat + args.chunkSize.toNat < 2 ^ 32) :
    ¬ args.OutOfRange memSize ↔ args.start.toNat + args.chunkSize.toNat < memSize.toNat := by
  rw [MemoryArgs.OutOfRange, not_or, BitVec.not_le, BitVec.not_le, BitVec.lt_def, BitVec.lt_def,
    BitVec.toNat_add, Nat.mod_eq_of_lt hend]
  omega

theorem index_eq (hstart : args.start.toNat = a) (i : Nat) : args.index i = BitVec.ofNat 32 (a + i) := by
  rw [MemoryArgs.index, ← hstart, BitVec.ofNat_add, BitVec.ofNat_toNat, BitVec.setWidth_eq]

/-- The rounds of `m`. -/
theorem foldl_touch_eq_peeks (hstart : args.start.toNat = a) (first n : Nat) (s : RV32 σ) :
    (List.range' first n).foldl (fun s i => s.touch (args.index i) 1) s = s.peeks (a + first) n := by
  induction n generalizing first s with
  | zero => rfl
  | succ n ih =>
      rw [List.range'_succ, List.foldl_cons, ih, index_eq hstart]
      rfl

/-- The rounds of `M`. -/
theorem foldl_write_eq_pokes {v : Nat → Byte} {bs : List Byte} {first : Nat} (hstart : args.start.toNat = a)
    (hend : a + first + bs.length ≤ 2 ^ 32) (hv : ∀ i, ∀ hi : i < bs.length, v (first + i) = bs[i]) (s : RV32 σ) :
    (List.range' first bs.length).foldl (fun s i => args.writeByte i (v i) s) s = s.pokes (a + first) bs := by
  induction bs generalizing first s with
  | nil => rfl
  | cons b bs ih =>
      rw [List.length_cons] at hend
      have hb : v first = b := hv 0 (Nat.succ_pos _)
      have hindex : (args.index first).toNat = a + first := by
        rw [index_eq hstart, BitVec.toNat_ofNat, Nat.mod_eq_of_lt (by omega)]
      have hbyte : args.writeByte first (v first) s = s.poke (a + first) b := by
        rw [MemoryArgs.writeByte, hindex, hb, index_eq hstart]
        rfl
      have hrest : ∀ i, ∀ hi : i < bs.length, v (first + 1 + i) = bs[i] := by
        intro i hi
        rw [Nat.add_assoc, Nat.add_comm 1]
        exact hv (i + 1) (Nat.succ_lt_succ hi)
      rw [List.length_cons, List.range'_succ, List.foldl_cons, hbyte, ih (by omega) hrest]
      rfl

theorem readMemory_served (haddr : HexOf a addr) (hlen : HexOf n len) (hend : a + n < 2 ^ 32) (hn : n ≤ 509) :
    rspHandlePacket host (packetBuffer (readPacket addr len) behind) (readPacket addr len).length s =
      answer (if a + n < s.memSize.toNat then (some (ramHex s a n), s.peeks a n) else (some [], s)) := by
  have hheader := readPacket_header haddr hlen
  have hstart : (memoryArgs addr len []).start.toNat = a := haddr.toNat (by omega)
  have hchunk : (memoryArgs addr len []).chunkSize.toNat = n := hlen.toNat (by omega)
  have hrange : ¬ (memoryArgs addr len []).OutOfRange s.memSize ↔ a + n < s.memSize.toNat := by
    rw [not_outOfRange_iff (by omega), hstart, hchunk]
  rw [readPacket, rspHandlePacket_cons (by decide), List.length_cons]
  show rspReadMemory _ _ s = _
  by_cases hin : a + n < s.memSize.toNat
  · -- the state is that of the rounds, and the rest that of the reply
    obtain ⟨t, -, hrun⟩ := rspReadMemory_below behind haddr hlen hin
    rw [if_pos hn, readPacket, List.length_cons] at hrun
    have hstate : (rspReadMemory (packetBuffer (char 'm' :: (addr ++ char ',' :: len)) behind) _ s).state = _ :=
      rspReadMemory_state hheader (char 'm') (hrange.mpr hin)
    rw [show (hexNumber 0 len).toNat = n from hchunk, Nat.min_eq_left (by omega), foldl_touch_eq_peeks hstart,
      hrun] at hstate
    rw [hrun, if_pos hin, show t = _ from hstate]
    rfl
  · rw [rspReadMemory_of_outOfRange behind hheader (char 'm') (not_not.mp (hrange.not.mpr hin)), if_neg hin]
    rfl

theorem writeMemory_served {bs ds : List Byte} (haddr : HexOf a addr) (hlen : HexOf bs.length len)
    (hdata : HexData ds bs) (hend : a + bs.length < 2 ^ 32) (hn : bs.length ≤ 509) :
    rspHandlePacket host (packetBuffer (writePacket addr len ds) behind) (writePacket addr len ds).length s =
      answer (if a + bs.length < s.memSize.toNat then (some [], s.pokes a bs) else (some [], s)) := by
  have hheader := writePacket_header host haddr hlen hdata (by omega)
  have hstart : (writeArgs host addr len ds).start.toNat = a := haddr.toNat (by omega)
  have hchunk : (writeArgs host addr len ds).chunkSize.toNat = bs.length := hlen.toNat (by omega)
  have hrange : ¬ (writeArgs host addr len ds).OutOfRange s.memSize ↔ a + bs.length < s.memSize.toNat := by
    rw [not_outOfRange_iff (by omega), hstart, hchunk]
  rw [writePacket, rspHandlePacket_cons (by decide), List.length_cons]
  show rspWriteMemory host _ _ s = _
  by_cases hin : a + bs.length < s.memSize.toNat
  · have hdrop : (writePacket addr len ds).drop (writeArgs host addr len ds).k = ds := by
      have hcolon := hheader.header.drop_k (char 'M')
      show (writePacket addr len ds).drop ((memoryArgs addr len (char ':' :: ds)).k + 1) = ds
      rw [← List.tail_drop, writePacket, hcolon, List.tail_cons]
    have hpair (i : Nat) (hi : i < bs.length) := hdata.pair behind hdrop i hi
    obtain ⟨m, hm, -, hbad, hrun⟩ := rspWriteMemory_run behind hheader (char 'M') (hrange.mpr hin) rfl
    rw [show (hexNumber 0 len).toNat = bs.length from hchunk] at hm hbad hrun
    have hall : m = bs.length := by
      by_contra hne
      have hlt : m < bs.length := by omega
      exact hbad hlt (hpair m hlt).1
    rw [hrun, if_pos hall, if_pos hin, hall, MemoryArgs.written]
    have hpokes : (List.range' 0 bs.length).foldl (fun s i => (writeArgs host addr len ds).writeByte i
        (hexPairValue (packetBuffer (writePacket addr len ds) behind)
          ((writeArgs host addr len ds).k + 2 * i)) s) s = s.pokes a bs :=
      foldl_write_eq_pokes hstart (by omega) (fun i hi => by rw [Nat.zero_add]; exact (hpair i hi).2) s
    exact congrArg (fun t => Outcome.mk (Except.ok RspHandlerResult.packetSent) t [rspFrame []]) hpokes
  · rw [rspWriteMemory_of_outOfRange behind hheader (char 'M') (not_not.mp (hrange.not.mpr hin)), if_neg hin]
    rfl

end Memory

/-! ## Breakpoints -/

/-- The two breakpoint packets make their call, with the address. -/
theorem breakpoint_served (call : RV32 σ → Word → Bool × RV32 σ) {a : Word} {ds : List Byte} (hds : HexOf a.toNat ds)
    (c d : Byte) (rest : List Byte) :
    rspSoftwareBreakpoint call (packetBuffer (c :: d :: char ',' :: (ds ++ char ',' :: rest)) behind)
        (c :: d :: char ',' :: (ds ++ char ',' :: rest)).length s =
      answer (some (cstr (if (call s a).1 then "OK" else "")), (call s a).2) := by
  have hheader : BreakpointHeader (char ',' :: (ds ++ char ',' :: rest)) ds (char ',' :: rest) :=
    { text := rfl, digits := hds.digits, stop := noDigit_cons not_digit_comma rest }
  have haddr : hexNumber 0 ds = a := BitVec.eq_of_toNat_eq (hds.toNat a.isLt)
  have hparse : rspBreakpointAddr (packetBuffer (c :: d :: char ',' :: (ds ++ char ',' :: rest)) behind) _ = _ :=
    rspBreakpointAddr_of_rest hheader c d
  rw [if_pos rfl, haddr] at hparse
  rw [rspSoftwareBreakpoint_run, List.length_cons, List.length_cons, hparse]
  rfl

/-! ## All requests -/

/-- **A request is served**, in whatever text it comes. -/
theorem request_served (host : Host σ) (s : RV32 σ) {request : Request} (h : request.Encodes p)
    (hsupported : request.Supported) (behind : Nat → Byte) :
    rspHandlePacket host (packetBuffer p behind) p.length s = answer (request.serve s) := by
  cases request with
  | supported =>
      obtain ⟨q, rfl⟩ := h
      exact supported_served q
  | reason =>
      obtain ⟨q, rfl⟩ := h
      exact reason_served q
  | attached =>
      obtain ⟨q, rfl⟩ := h
      exact attached_served q
  | readRegisters =>
      obtain ⟨q, rfl⟩ := h
      exact readRegisters_served q
  | writeRegisters r pc =>
      obtain rfl : p = _ := h
      exact writeRegisters_served hsupported
  | writeRegister n v =>
      obtain rfl : p = _ := h
      exact writeRegister_served hsupported
  | readMemory a n =>
      obtain ⟨addr, len, haddr, hlen, rfl⟩ := h
      exact readMemory_served haddr hlen hsupported.1 hsupported.2
  | writeMemory a bs =>
      obtain ⟨addr, len, ds, haddr, hlen, hdata, rfl⟩ := h
      exact writeMemory_served haddr hlen hdata hsupported.1 hsupported.2
  | insertBreakpoint a =>
      obtain ⟨ds, rest, hds, rfl⟩ := h
      rw [rspHandlePacket_setSoftwareBreakpoint (isPrefix_append "Z0" (char ',' :: (ds ++ char ',' :: rest)))]
      exact breakpoint_served rv32SetBreakpoint hds _ _ rest
  | removeBreakpoint a =>
      obtain ⟨ds, rest, hds, rfl⟩ := h
      rw [rspHandlePacket_clearSoftwareBreakpoint (isPrefix_append "z0" (char ',' :: (ds ++ char ',' :: rest)))]
      exact breakpoint_served rv32ClearBreakpoint hds _ _ rest
  | resume =>
      obtain ⟨q, rfl⟩ := h
      exact resume_served q
  | detach =>
      obtain ⟨q, rfl⟩ := h
      exact detach_served q
  | kill =>
      obtain ⟨q, rfl⟩ := h
      exact kill_served q
  | other => exact other_served h

end Rv32
