import Rv32.Rsp.Handlers

/-!
# `Rsp.Request` — what a packet asks for

The handlers of `m`, `M`, `Z0` and `z0` find an address and a length by walking through the packet. Here
the walk is put down to the text: a packet either has the form a header describes, and then the parser
returns the numbers its digits denote, or it has not, and then the parser is fatal. What is behind the
packet matters only where `rsp_write_memory` and `rspBreakpointAddr` look at a byte without asking for the
size.
-/

namespace Rv32

open Prog

variable {σ : Type} {behind : Nat → Byte}

theorem not_digit_comma : rspIsHexDigit (char ',') = false := by decide

theorem not_digit_colon : rspIsHexDigit (char ':') = false := by decide

/-- A byte that is no digit ends the digits before it. -/
theorem noDigit_cons {d : Byte} (hd : rspIsHexDigit d = false) (q : List Byte) : NoDigit (d :: q) := by
  intro e he
  rw [List.head?_cons, Option.mem_some_iff] at he
  rw [← he, hd]

/-- A prefix of the buffer that is no longer than the packet is one of the packet. -/
theorem rspIsPrefix_packetBuffer {s1 : String} {p : List Byte}
    (h : rspIsPrefix s1 (packetBuffer p behind) p.length) : ∃ q, p = cstr s1 ++ q := by
  obtain ⟨hlen, hmap⟩ := h
  have htake : (List.range (cstr s1).length).map (packetBuffer p behind) = p.take (cstr s1).length := by
    apply List.ext_getElem
    · simp [hlen]
    · intro i hi _
      have hp : i < p.length := by simp at hi; omega
      simp [packetBuffer, List.getElem?_eq_getElem hp]
  refine ⟨p.drop (cstr s1).length, ?_⟩
  rw [← hmap, htake, List.length_take, Nat.min_eq_left hlen, List.take_append_drop]

theorem rspStarts_packetBuffer {c : Char} {p : List Byte}
    (h : RspStarts c (packetBuffer p behind) p.length) : ∃ q, p = char c :: q := by
  cases p with
  | nil => exact absurd h.1 (by decide)
  | cons d q => exact ⟨q, congrArg (fun d => d :: q) h.2⟩

/-! ## An address and a length -/

/-- Behind its letter, a packet of `m` or `M` has an address, a comma, a length, and then `rest`. -/
structure MemoryHeader (q addr len rest : List Byte) : Prop where
  text : q = addr ++ char ',' :: (len ++ rest)
  addr_ne : addr ≠ []
  addrDigits : HexDigits addr
  lenDigits : HexDigits len
  stop : NoDigit rest

/-- What the parser makes of it. -/
def memoryArgs (addr len rest : List Byte) : MemoryArgs where
  start := hexNumber 0 addr
  chunkSize := hexNumber 0 len
  k := addr.length + len.length + 2
  size := rest.length

variable {q addr len rest : List Byte}

theorem MemoryHeader.unique {addr' len' rest' : List Byte} (h : MemoryHeader q addr len rest)
    (h' : MemoryHeader q addr' len' rest') : addr = addr' ∧ len = len' ∧ rest = rest' := by
  have haddr := digits_unique (h.text.symm.trans h'.text) h.addrDigits (noDigit_cons not_digit_comma _)
    h'.addrDigits (noDigit_cons not_digit_comma _)
  have hlen := digits_unique (List.cons.inj haddr.2).2 h.lenDigits h.stop h'.lenDigits h'.stop
  exact ⟨haddr.1, hlen.1, hlen.2⟩

theorem MemoryHeader.length_eq (h : MemoryHeader q addr len rest) :
    q.length = addr.length + len.length + 1 + rest.length := by
  rw [h.text]
  simp only [List.length_append, List.length_cons]
  omega

/-- Where the pointer stands after the length. -/
theorem MemoryHeader.drop_k (h : MemoryHeader q addr len rest) (c : Byte) :
    (c :: q).drop (memoryArgs addr len rest).k = rest := by
  rw [h.text]
  show (addr ++ char ',' :: (len ++ rest)).drop (addr.length + len.length + 1) = rest
  rw [Nat.add_assoc, ← List.drop_drop, List.drop_left, List.drop_succ_cons, List.drop_left]

/-- **A header** is parsed to its two numbers. -/
theorem rspParseMemory_of_header (h : MemoryHeader q addr len rest) (msg : String) (c : Byte) :
    rspParseMemory msg (packetBuffer (c :: q) behind) (q.length + 1) =
      .ok (memoryArgs addr len rest) := by
  have haddr : (c :: q).drop 1 = addr ++ char ',' :: (len ++ rest) := h.text
  have hcomma : (c :: q).drop (1 + addr.length) = char ',' :: (len ++ rest) := by
    rw [h.text, Nat.add_comm, List.drop_succ_cons, List.drop_left]
  have hlen : (c :: q).drop (1 + addr.length + 1) = len ++ rest := by
    rw [← List.tail_drop, hcomma, List.tail_cons]
  have hfirst : rspIsHexDigit (packetBuffer (c :: q) behind 1) = true := by
    obtain ⟨d, addr', rfl⟩ := List.exists_cons_of_ne_nil h.addr_ne
    rw [packetBuffer_of_drop haddr]
    exact h.addrDigits d (List.mem_cons_self ..)
  have hstart := rspParseHex_eq behind 0 haddr h.addrDigits (noDigit_cons not_digit_comma _)
  have hchunk := rspParseHex_eq behind 0 hlen h.lenDigits h.stop
  rw [← h.text] at hstart
  rw [rspParseMemory, check_bind_pos hfirst, Nat.add_sub_cancel, hstart, ok_bind,
    check_bind_pos ⟨by simp, packetBuffer_of_drop hcomma⟩]
  rw [List.length_cons, Nat.add_sub_cancel, hchunk, ok_bind, memoryArgs]
  refine congrArg (fun k => Except.ok (MemoryArgs.mk _ _ k _)) ?_
  simp only
  omega

/-- **Without a header** the parser is fatal, whatever is behind the packet. -/
theorem rspParseMemory_of_no_header (h : ∀ addr len rest, ¬ MemoryHeader q addr len rest) (msg : String)
    (c : Byte) : rspParseMemory msg (packetBuffer (c :: q) behind) (q.length + 1) = .error msg := by
  rw [rspParseMemory]
  by_cases hfirst : rspIsHexDigit (packetBuffer (c :: q) behind 1) = true
  case neg => rw [check_bind_neg hfirst]
  obtain ⟨addr, tail, rfl, haddr, htail⟩ := exists_digits q
  have hdrop : (c :: (addr ++ tail)).drop 1 = addr ++ tail := rfl
  have hstart := rspParseHex_eq behind 0 hdrop haddr htail
  rw [check_bind_pos hfirst, Nat.add_sub_cancel, hstart, ok_bind, check_bind_neg]
  rintro ⟨hsize, hcomma⟩
  -- something is left, so the digit that was looked at is the packet's, and so is the comma
  obtain ⟨d, tail, rfl⟩ := List.exists_cons_of_length_pos (Nat.pos_of_ne_zero hsize)
  have hd : (c :: (addr ++ d :: tail)).drop (1 + addr.length) = d :: tail := by
    rw [Nat.add_comm, List.drop_succ_cons, List.drop_left]
  rw [packetBuffer_of_drop hd] at hcomma
  obtain ⟨len, rest, rfl, hlen, hrest⟩ := exists_digits tail
  refine h addr len rest ⟨by rw [hcomma], ?_, haddr, hlen, hrest⟩
  rintro rfl
  rw [packetBuffer_of_drop (q := len ++ rest) (d := d) rfl, htail d rfl] at hfirst
  exact Bool.false_ne_true hfirst

/-! ## `m` -/

theorem rspReadMemoryArgs_of_header (h : MemoryHeader q addr len []) (c : Byte) :
    rspReadMemoryArgs (packetBuffer (c :: q) behind) (q.length + 1) = .ok (memoryArgs addr len []) := by
  have hsize : (memoryArgs addr len []).size = 0 := rfl
  rw [rspReadMemoryArgs, rspParseMemory_of_header h, ok_bind, check_bind_pos hsize]
  rfl

theorem rspReadMemoryArgs_of_no_header (h : ∀ addr len, ¬ MemoryHeader q addr len []) (c : Byte) :
    rspReadMemoryArgs (packetBuffer (c :: q) behind) (q.length + 1) =
      .error "invalid 'm' message from gdb" := by
  rw [rspReadMemoryArgs]
  by_cases hheader : ∃ addr len rest, MemoryHeader q addr len rest
  · obtain ⟨addr, len, rest, hheader⟩ := hheader
    rw [rspParseMemory_of_header hheader, ok_bind, check_bind_neg]
    intro hsize
    obtain rfl := List.eq_nil_of_length_eq_zero hsize
    exact h addr len hheader
  · rw [rspParseMemory_of_no_header fun addr len rest hh => hheader ⟨addr, len, rest, hh⟩, error_bind]

/-! ## `M` -/

variable (host : Host σ) {data : List Byte}

/-- In a packet of `M` a colon and the data follow, two digits for each byte of the length; the product is
    a `uint32_t`. -/
structure WriteHeader (q addr len data : List Byte) : Prop where
  header : MemoryHeader q addr len (char ':' :: data)
  size : data.length % 2 ^ host.sizeBits = (2 * hexNumber 0 len).toNat

/-- What the parser makes of it: the pointer stands at the data. -/
def writeArgs (addr len data : List Byte) : MemoryArgs where
  start := hexNumber 0 addr
  chunkSize := hexNumber 0 len
  k := addr.length + len.length + 3
  size := data.length % 2 ^ host.sizeBits

variable {host} in
theorem WriteHeader.unique {addr' len' data' : List Byte} (h : WriteHeader host q addr len data)
    (h' : WriteHeader host q addr' len' data') : addr = addr' ∧ len = len' ∧ data = data' := by
  obtain ⟨haddr, hlen, hrest⟩ := h.header.unique h'.header
  exact ⟨haddr, hlen, (List.cons.inj hrest).2⟩

/-- The second `size--` takes the colon away. -/
theorem sizeAfterColon (n : Nat) :
    (n + 1 + (2 ^ host.sizeBits - 1)) % 2 ^ host.sizeBits = n % 2 ^ host.sizeBits := by
  have hpos : 0 < 2 ^ host.sizeBits := Nat.two_pow_pos _
  rw [show n + 1 + (2 ^ host.sizeBits - 1) = n + 2 ^ host.sizeBits by omega, Nat.add_mod_right]

variable {host}

theorem rspWriteMemoryArgs_of_header (h : WriteHeader host q addr len data) (c : Byte) :
    rspWriteMemoryArgs host (packetBuffer (c :: q) behind) (q.length + 1) =
      .ok (writeArgs host addr len data) := by
  rw [rspWriteMemoryArgs, rspParseMemory_of_header h.header, ok_bind,
    check_bind_pos (packetBuffer_of_drop (h.header.drop_k c))]
  simp only [memoryArgs, List.length_cons, sizeAfterColon]
  rw [check_bind_pos h.size]
  rfl

/-- Otherwise it is fatal. Where the digits of the length end the packet, the byte behind it may pass for
    the colon, but then the size has wrapped to an odd number. -/
theorem rspWriteMemoryArgs_of_no_header (behind : Nat → Byte)
    (h : ∀ addr len data, ¬ WriteHeader host q addr len data) (c : Byte) :
    ∃ msg, rspWriteMemoryArgs host (packetBuffer (c :: q) behind) (q.length + 1) = .error msg := by
  rw [rspWriteMemoryArgs]
  by_cases hheader : ∃ addr len rest, MemoryHeader q addr len rest
  case neg =>
    rw [rspParseMemory_of_no_header fun addr len rest hh => hheader ⟨addr, len, rest, hh⟩, error_bind]
    exact ⟨_, rfl⟩
  obtain ⟨addr, len, rest, hheader⟩ := hheader
  rw [rspParseMemory_of_header hheader, ok_bind]
  by_cases hcolon : packetBuffer (c :: q) behind (memoryArgs addr len rest).k = char ':'
  case neg => exact ⟨_, check_bind_neg hcolon _⟩
  rw [check_bind_pos hcolon]
  refine ⟨_, check_bind_neg (fun hsize => ?_) _⟩
  cases rest with
  | nil =>
      have heven : (2 * hexNumber 0 len).toNat % 2 = 0 := by
        rw [BitVec.toNat_mul, show (2 : Word).toNat = 2 from rfl]
        omega
      have hdouble : 2 ^ host.sizeBits = 2 ^ (host.sizeBits - 1) * 2 := by
        have hbits := host.sizeBits_ge
        rw [← Nat.pow_succ, show (host.sizeBits - 1).succ = host.sizeBits by omega]
      have hpos : 0 < 2 ^ (host.sizeBits - 1) := Nat.two_pow_pos _
      have hodd : (0 + (2 ^ host.sizeBits - 1)) % 2 ^ host.sizeBits =
          (2 * hexNumber 0 len).toNat := hsize
      rw [Nat.zero_add, Nat.mod_eq_of_lt (by omega)] at hodd
      omega
  | cons d data =>
      rw [packetBuffer_of_drop (hheader.drop_k c)] at hcolon
      exact h addr len data ⟨hcolon ▸ hheader, (sizeAfterColon host data.length).symm.trans hsize⟩

/-! ## `Z0` and `z0` -/

/-- Behind its two letters, a packet for a breakpoint has a comma, an address, and then `rest`. -/
structure BreakpointHeader (q ds rest : List Byte) : Prop where
  text : q = char ',' :: (ds ++ rest)
  digits : HexDigits ds
  stop : NoDigit rest

variable {ds : List Byte}

/-- **An address** is accepted for the comma behind it, whether or not that one belongs to the packet. -/
theorem rspBreakpointAddr_of_header (h : BreakpointHeader q ds rest) (c d : Byte) :
    rspBreakpointAddr (packetBuffer (c :: d :: q) behind) (q.length + 2) =
      if packetBuffer (c :: d :: q) behind (ds.length + 3) = char ',' then .ok (hexNumber 0 ds)
      else .error "invalid 'Z0' message from gdb" := by
  have hcomma : packetBuffer (c :: d :: q) behind 2 = char ',' := by
    rw [h.text]
    rfl
  have hdrop : (c :: d :: q).drop 3 = ds ++ rest := by rw [h.text]; rfl
  have hsize : q.length + 2 - 3 = (ds ++ rest).length := by rw [h.text, List.length_cons]; omega
  have hne : q.length + 2 - 2 ≠ 0 := by rw [h.text, List.length_cons]; omega
  rw [rspBreakpointAddr, check_bind_pos ⟨hne, hcomma⟩, hsize, rspParseHex_eq behind 0 hdrop h.digits h.stop, ok_bind]
  rw [Nat.add_comm 3, check]
  by_cases hstop : packetBuffer (c :: d :: q) behind (ds.length + 3) = char ','
  · rw [if_pos hstop, if_pos hstop]
    rfl
  · rw [if_neg hstop, if_neg hstop]
    rfl

theorem rspBreakpointAddr_of_no_header (h : ∀ ds rest, ¬ BreakpointHeader q ds rest) (c d : Byte) :
    rspBreakpointAddr (packetBuffer (c :: d :: q) behind) (q.length + 2) =
      .error "invalid 'Z0' message from GDB" := by
  rw [rspBreakpointAddr, check_bind_neg]
  rintro ⟨hsize, hcomma⟩
  obtain ⟨e, q, rfl⟩ := List.exists_cons_of_length_pos (Nat.pos_of_ne_zero hsize)
  obtain rfl : e = char ',' := hcomma
  obtain ⟨ds, rest, rfl, hds, hrest⟩ := exists_digits q
  exact h ds rest ⟨rfl, hds, hrest⟩

/-- Where the digits end before the packet does, what is behind the packet does not matter. -/
theorem rspBreakpointAddr_of_rest {e : Byte} {rest : List Byte} (h : BreakpointHeader q ds (e :: rest))
    (c d : Byte) :
    rspBreakpointAddr (packetBuffer (c :: d :: q) behind) (q.length + 2) =
      if e = char ',' then .ok (hexNumber 0 ds) else .error "invalid 'Z0' message from gdb" := by
  have hdrop : (c :: d :: q).drop (ds.length + 3) = e :: rest := by
    rw [h.text]
    exact List.drop_left ..
  rw [rspBreakpointAddr_of_header h, packetBuffer_of_drop hdrop]

end Rv32
