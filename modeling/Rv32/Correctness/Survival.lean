import Rv32.Correctness.Deframed
import Rv32.Rsp.Runs

/-!
# `Correctness.Survival` — when the stub exits

`RSP_FATAL` ends the program, and with it the debugging session. Which packets are fatal is decided by their
text, by the size of the RAM, and for a few by what is behind them in the buffer: `Served` says it for each
handler. Over a run, the program is still there exactly when every packet was served in the state it
found, and no byte was out of place (`stub_survives_iff`).
-/

namespace Rv32

open Prog

variable {σ : Type} {host : Host σ} {s : RV32 σ} {p q : List Byte} {behind : Nat → Byte}

variable (host s p behind) in
/-- What the handler of a letter asks of a packet not to end in `RSP_FATAL`. -/
def ServedBy : Char → Prop
  | 'G' => p.tail.length = 264 ∧ HexDigits p.tail
  | 'P' => p.tail.length = 11 ∧ HexPair (packetBuffer p behind) 1 ∧ HexWord (packetBuffer p behind) 4 ∧
      (hexPairValue (packetBuffer p behind) 1).toNat ≤ 32
  | 'm' => ∃ addr len, MemoryHeader p.tail addr len [] ∧
      ((memoryArgs addr len []).OutOfRange s.memSize ∨ 2 * (hexNumber 0 len).toNat + 5 ≤ rspBufferSize)
  | 'M' => ∃ addr len data, WriteHeader host p.tail addr len data ∧
      ((writeArgs host addr len data).OutOfRange s.memSize ∨
        ∀ i < (hexNumber 0 len).toNat,
          HexPair (packetBuffer p behind) ((writeArgs host addr len data).k + 2 * i))
  | 'Z' | 'z' => ∀ q, p.tail = char '0' :: q → ∃ ds rest, BreakpointHeader q ds rest ∧
      packetBuffer p behind (ds.length + 3) = char ','
  | _ => True

variable (host s p behind) in
/-- The packet does not end in `RSP_FATAL`. -/
def Served : Prop := ∀ c ∈ rspLetters, p.head? = some (char c) → ServedBy host s p behind c

theorem returns_quickReply {data : String} (h : data ∈ rspAnswers) :
    Returns (rspQuickReply data : RspHandler σ) s := ⟨.packetSent, by rw [rspQuickReply_run h]⟩

/-! ## The handlers -/

/-- The 33 words of a packet of `G` are its digits. -/
theorem hexWords_iff (hlen : q.length = 264) (c : Byte) :
    (∀ i < 33, HexWord (packetBuffer (c :: q) behind) (1 + 8 * i)) ↔ HexDigits q := by
  have hget : ∀ k, ∀ hk : k < q.length, packetBuffer (c :: q) behind (1 + k) = q.get ⟨k, hk⟩ := by
    intro k hk
    rw [packetBuffer, Nat.add_comm, List.getElem?_cons_succ, List.getElem?_eq_getElem hk, Option.getD_some]
    rfl
  constructor
  · intro h d hd
    obtain ⟨⟨k, hk⟩, rfl⟩ := List.mem_iff_get.mp hd
    -- digit `k` is in word `k / 8` and in its pair `k % 8 / 2`
    have hpair := h (k / 8) (by omega) (k % 8 / 2) (by omega)
    rcases Nat.mod_two_eq_zero_or_one k with heven | hodd
    · have hdigit := hpair.1
      rw [show 1 + 8 * (k / 8) + 2 * (k % 8 / 2) = 1 + k by omega, hget k hk] at hdigit
      exact hdigit
    · have hdigit := hpair.2
      rw [show 1 + 8 * (k / 8) + 2 * (k % 8 / 2) + 1 = 1 + k by omega, hget k hk] at hdigit
      exact hdigit
  · intro h i hi j hj
    have hdigit : ∀ k, k < q.length → rspIsHexDigit (packetBuffer (c :: q) behind (1 + k)) = true := by
      intro k hk
      rw [hget k hk]
      exact h _ (List.get_mem ..)
    constructor
    · rw [show 1 + 8 * i + 2 * j = 1 + (8 * i + 2 * j) by omega]
      exact hdigit _ (by omega)
    · rw [show 1 + 8 * i + 2 * j + 1 = 1 + (8 * i + 2 * j + 1) by omega]
      exact hdigit _ (by omega)

theorem writeRegisters_returns (c : Byte) :
    Returns (rspWriteRegisters (packetBuffer (c :: q) behind) (q.length + 1)) s ↔
      q.length = 264 ∧ HexDigits q := by
  by_cases hlen : q.length = 264
  · obtain ⟨m, hm, hgood, hbad, hrun⟩ := rspWriteRegisters_run (packetBuffer (c :: q) behind) s
    rw [hlen, ← hexWords_iff hlen c, Returns, hrun]
    by_cases hall : m = 33
    · rw [if_pos hall]
      exact iff_of_true ⟨_, rfl⟩ ⟨rfl, fun i hi => hgood i (by omega)⟩
    · rw [if_neg hall]
      refine iff_of_false ?_ fun h => hbad (by omega) (h.2 m (by omega))
      rintro ⟨a, ha⟩
      cases ha
  · refine iff_of_false ?_ fun h => hlen h.1
    rw [rspWriteRegisters, returns_check_bind]
    rintro ⟨hsize, -⟩
    omega

theorem assignRegister_returns (reg : Byte) (val : Word) :
    Returns (rspAssignRegister reg val >>= fun _ => rspQuickReply "OK") s ↔ reg.toNat ≤ 32 := by
  by_cases hreg : reg.toNat ≤ 32
  · obtain ⟨t, ht⟩ : ∃ t, (rspAssignRegister reg val) s = ⟨.ok (), t, []⟩ := by
      unfold rspAssignRegister
      rw [if_neg (by omega)]
      split
      · exact ⟨_, rfl⟩
      · exact ⟨_, rfl⟩
    rw [returns_bind_ok (a := ()) (by rw [ht])]
    exact iff_of_true (returns_quickReply ok_mem_answers) hreg
  · have hfatal : ((rspAssignRegister reg val) s).value = .error "invalid register in P command" := by
      unfold rspAssignRegister
      rw [if_pos (by omega)]
      rfl
    exact iff_of_false (not_returns_bind (not_returns_of_error hfatal)) hreg

theorem writeSpecificRegister_returns (c : Byte) :
    Returns (rspWriteSpecificRegister (packetBuffer (c :: q) behind) (q.length + 1)) s ↔
      q.length = 11 ∧ HexPair (packetBuffer (c :: q) behind) 1 ∧ HexWord (packetBuffer (c :: q) behind) 4 ∧
        (hexPairValue (packetBuffer (c :: q) behind) 1).toNat ≤ 32 := by
  rw [rspWriteSpecificRegister, returns_check_bind]
  simp only [rspHexToU8_eq, rspHexToU32_eq, returns_attempt_ite_bind, assignRegister_returns]
  exact and_congr_left' (by omega)

/-- There is one header only. -/
theorem MemoryHeader.exists_and_iff {addr len : List Byte} {P : List Byte → List Byte → Prop}
    (h : MemoryHeader q addr len []) :
    (∃ addr len, MemoryHeader q addr len [] ∧ P addr len) ↔ P addr len := by
  refine ⟨?_, fun hp => ⟨addr, len, h, hp⟩⟩
  rintro ⟨addr', len', h', hp⟩
  obtain ⟨rfl, rfl, -⟩ := h.unique h'
  exact hp

theorem WriteHeader.exists_and_iff {addr len data : List Byte} {P : List Byte → List Byte → List Byte → Prop}
    (h : WriteHeader host q addr len data) :
    (∃ addr len data, WriteHeader host q addr len data ∧ P addr len data) ↔ P addr len data := by
  refine ⟨?_, fun hp => ⟨addr, len, data, h, hp⟩⟩
  rintro ⟨addr', len', data', h', hp⟩
  obtain ⟨rfl, rfl, rfl⟩ := h.unique h'
  exact hp

theorem readMemory_returns (c : Byte) :
    Returns (rspReadMemory (packetBuffer (c :: q) behind) (q.length + 1)) s ↔
      ∃ addr len, MemoryHeader q addr len [] ∧
        ((memoryArgs addr len []).OutOfRange s.memSize ∨
          2 * (hexNumber 0 len).toNat + 5 ≤ rspBufferSize) := by
  by_cases hheader : ∃ addr len, MemoryHeader q addr len []
  case neg =>
    have hno : ∀ addr len, ¬ MemoryHeader q addr len [] := fun addr len h => hheader ⟨addr, len, h⟩
    rw [rspReadMemory, rspReadMemoryArgs_of_no_header hno]
    refine iff_of_false (not_returns_bind (not_returns_of_error rfl)) ?_
    rintro ⟨addr, len, h, -⟩
    exact hno addr len h
  obtain ⟨addr, len, h⟩ := hheader
  rw [h.exists_and_iff]
  by_cases hout : (memoryArgs addr len []).OutOfRange s.memSize
  · rw [Returns, rspReadMemory_of_outOfRange behind h c hout]
    exact iff_of_true ⟨_, rfl⟩ (.inl hout)
  · obtain ⟨t, -, hrun⟩ := rspReadMemory_run behind h c hout
    rw [or_iff_right hout, Returns, hrun]
    split
    · exact iff_of_true ⟨_, rfl⟩ ‹_›
    · refine iff_of_false ?_ ‹_›
      rintro ⟨a, ha⟩
      cases ha

theorem writeMemory_returns (c : Byte) :
    Returns (rspWriteMemory host (packetBuffer (c :: q) behind) (q.length + 1)) s ↔
      ∃ addr len data, WriteHeader host q addr len data ∧
        ((writeArgs host addr len data).OutOfRange s.memSize ∨
          ∀ i < (hexNumber 0 len).toNat,
            HexPair (packetBuffer (c :: q) behind) ((writeArgs host addr len data).k + 2 * i)) := by
  by_cases hheader : ∃ addr len data, WriteHeader host q addr len data
  case neg =>
    obtain ⟨msg, hrun⟩ := rspWriteMemory_of_no_header behind hheader c s
    refine iff_of_false (not_returns_of_error (by rw [hrun])) ?_
    rintro ⟨addr, len, data, h, -⟩
    exact hheader ⟨addr, len, data, h⟩
  obtain ⟨addr, len, data, h⟩ := hheader
  rw [h.exists_and_iff]
  by_cases hout : (writeArgs host addr len data).OutOfRange s.memSize
  · rw [Returns, rspWriteMemory_of_outOfRange behind h c hout]
    exact iff_of_true ⟨_, rfl⟩ (.inl hout)
  · obtain ⟨m, hm, hgood, hbad, hrun⟩ := rspWriteMemory_run behind h c hout rfl
    rw [or_iff_right hout, Returns, hrun]
    by_cases hall : m = (hexNumber 0 len).toNat
    · rw [if_pos hall]
      exact iff_of_true ⟨_, rfl⟩ fun i hi => hgood i (hall ▸ hi)
    · rw [if_neg hall]
      have hlt : m < (hexNumber 0 len).toNat := by omega
      refine iff_of_false ?_ fun h => hbad hlt (h m hlt)
      rintro ⟨a, ha⟩
      cases ha

theorem softwareBreakpoint_returns (call : RV32 σ → Word → Bool × RV32 σ) (c d : Byte) :
    Returns (rspSoftwareBreakpoint call (packetBuffer (c :: d :: q) behind) (q.length + 2)) s ↔
      ∃ ds rest, BreakpointHeader q ds rest ∧
        packetBuffer (c :: d :: q) behind (ds.length + 3) = char ',' := by
  rw [Returns, rspSoftwareBreakpoint_run]
  by_cases hheader : ∃ ds rest, BreakpointHeader q ds rest
  case neg =>
    rw [rspBreakpointAddr_of_no_header fun ds rest h => hheader ⟨ds, rest, h⟩]
    constructor
    · rintro ⟨a, ha⟩
      cases ha
    · rintro ⟨ds, rest, h, -⟩
      exact absurd ⟨ds, rest, h⟩ hheader
  obtain ⟨ds, rest, h⟩ := hheader
  rw [rspBreakpointAddr_of_header h]
  by_cases hcomma : packetBuffer (c :: d :: q) behind (ds.length + 3) = char ','
  · rw [if_pos hcomma]
    exact iff_of_true ⟨_, rfl⟩ ⟨ds, rest, h, hcomma⟩
  · rw [if_neg hcomma]
    constructor
    · rintro ⟨a, ha⟩
      cases ha
    · rintro ⟨ds', rest', h', hcomma'⟩
      -- the digits of the address are determined by the packet
      obtain ⟨rfl, -⟩ := digits_unique (List.cons.inj (h.text.symm.trans h'.text)).2 h.digits h.stop
        h'.digits h'.stop
      exact absurd hcomma' hcomma

/-! ## The dispatch -/

/-- The two breakpoint handlers, behind their second letter. -/
theorem breakpoint_returns (call : RV32 σ → Word → Bool × RV32 σ) {c : Char}
    (hp : p = char c :: q) (hzero : ∃ q', q = char '0' :: q') :
    Returns (rspSoftwareBreakpoint call (packetBuffer p behind) p.length) s ↔
      ∀ q', p.tail = char '0' :: q' → ∃ ds rest, BreakpointHeader q' ds rest ∧
        packetBuffer p behind (ds.length + 3) = char ',' := by
  subst hp
  obtain ⟨q', rfl⟩ := hzero
  refine (softwareBreakpoint_returns call _ _).trans ⟨?_, fun h => h q' rfl⟩
  intro h q'' hq
  obtain rfl := (List.cons.inj hq).2
  exact h

theorem detach_returns : Returns (rspDetach : RspHandler σ) s := by
  have hreply : (rspQuickReply "OK" : RspHandler σ) (rv32Resume (rv32ClearAllBreakpoints s)) = _ :=
    rspQuickReply_run ok_mem_answers _
  refine ⟨.packetSent, ?_⟩
  rw [rspDetach, run_modify_bind, run_modify_bind, hreply]

/-- **Each handler** returns when its letter says so. -/
theorem letterHandler_returns {c : Char} (hc : c ∈ rspLetters) (hp : p = char c :: q)
    (hzero : c = 'Z' ∨ c = 'z' → ∃ q', q = char '0' :: q') :
    Returns (rspLetterHandler host (packetBuffer p behind) p.length c) s ↔ ServedBy host s p behind c := by
  simp only [rspLetters, List.mem_cons, List.not_mem_nil, or_false] at hc
  rcases hc with rfl | rfl | rfl | rfl | rfl | rfl | rfl | rfl | rfl | rfl
  · refine iff_of_true ⟨.packetSent, ?_⟩ trivial
    show (reply (rspReadRegisters s) s).value = _
    rw [rspReadRegisters_eq]
    rfl
  · subst hp
    exact writeRegisters_returns _
  · subst hp
    exact writeSpecificRegister_returns _
  · subst hp
    exact readMemory_returns _
  · subst hp
    exact writeMemory_returns _
  · exact breakpoint_returns rv32SetBreakpoint hp (hzero (.inl rfl))
  · exact breakpoint_returns rv32ClearBreakpoint hp (hzero (.inr rfl))
  · exact iff_of_true ⟨_, rfl⟩ trivial
  · exact iff_of_true detach_returns trivial
  · exact iff_of_true ⟨_, rfl⟩ trivial

/-- `Z0` and `z0` are the packets whose second byte is `0`. -/
theorem isPrefix_zero_iff {c : Char} {s1 : String} (hs : cstr s1 = [char c, char '0']) :
    rspIsPrefix s1 (packetBuffer (char c :: q) behind) (q.length + 1) ↔ ∃ q', q = char '0' :: q' := by
  constructor
  · intro h
    obtain ⟨q', hq'⟩ := rspIsPrefix_packetBuffer (p := char c :: q) h
    rw [hs] at hq'
    exact ⟨q', (List.cons.inj hq').2⟩
  · rintro ⟨q', rfl⟩
    rw [rspIsPrefix, hs]
    exact ⟨by simp, rfl⟩

/-- A packet goes to the handler of its letter, or it gets a constant answer and no handler is asked. -/
theorem rspHandlePacket_cases (host : Host σ) (p : List Byte) (behind : Nat → Byte) :
    (∃ c ∈ rspLetters, ∃ q, p = char c :: q ∧ (c = 'Z' ∨ c = 'z' → ∃ q', q = char '0' :: q') ∧
      (rspHandlePacket host (packetBuffer p behind) p.length : RspHandler σ) =
        rspLetterHandler host (packetBuffer p behind) p.length c) ∨
    (∃ data ∈ rspAnswers,
      (rspHandlePacket host (packetBuffer p behind) p.length : RspHandler σ) = rspQuickReply data) ∧
      ∀ c ∈ rspLetters, ∀ q, p = char c :: q → (c = 'Z' ∨ c = 'z') ∧ ∀ q', q ≠ char '0' :: q' := by
  by_cases hletter : ∃ c ∈ rspLetters, ∃ q, p = char c :: q ∧ (c = 'Z' ∨ c = 'z' → ∃ q', q = char '0' :: q')
  · obtain ⟨c, hc, q, rfl, hzero⟩ := hletter
    refine .inl ⟨c, hc, q, rfl, hzero, ?_⟩
    refine rspHandlePacket_letter hc ⟨by simp, rfl⟩ ?_ ?_
    · rintro rfl
      exact (isPrefix_zero_iff rfl).mpr (hzero (.inl rfl))
    · rintro rfl
      exact (isPrefix_zero_iff rfl).mpr (hzero (.inr rfl))
  · refine .inr ⟨?_, ?_⟩
    · obtain ⟨prog, hprog, hdispatched⟩ := exists_dispatched (σ := σ) host (packetBuffer p behind) p.length
      rw [hprog]
      -- no letter has a handler for this packet
      have hno : ∀ {c : Char}, RspStarts c (packetBuffer p behind) p.length →
          c ∈ rspLetters ∧ c ≠ 'Z' ∧ c ≠ 'z' → False := by
        intro c hstarts hc
        obtain ⟨q, hq⟩ := rspStarts_packetBuffer hstarts
        exact hletter ⟨c, hc.1, q, hq, fun h => (h.elim hc.2.1 hc.2.2).elim⟩
      have hnoZero : ∀ {c : Char} {s1 : String}, c ∈ rspLetters → cstr s1 = [char c, char '0'] →
          ¬ rspIsPrefix s1 (packetBuffer p behind) p.length := by
        intro c s1 hc hs h
        obtain ⟨q, rfl⟩ := rspStarts_packetBuffer (h.starts hs)
        exact hletter ⟨c, hc, q, rfl, fun _ => (isPrefix_zero_iff hs).mp h⟩
      cases hdispatched with
      | constant data hdata _ _ _ => exact ⟨data, constant_mem_answers hdata, rfl⟩
      | readRegisters h => exact (hno h (by decide)).elim
      | writeRegisters h => exact (hno h (by decide)).elim
      | writeSpecificRegister h => exact (hno h (by decide)).elim
      | readMemory h => exact (hno h (by decide)).elim
      | writeMemory h => exact (hno h (by decide)).elim
      | setSoftwareBreakpoint h => exact absurd h (hnoZero (c := 'Z') (by decide) rfl)
      | clearSoftwareBreakpoint h => exact absurd h (hnoZero (c := 'z') (by decide) rfl)
      | resume h => exact (hno h (by decide)).elim
      | detach h => exact (hno h (by decide)).elim
      | kill h => exact (hno h (by decide)).elim
    · intro c hc q hq
      constructor
      · by_contra hZ
        exact hletter ⟨c, hc, q, hq, fun h => absurd h hZ⟩
      · rintro q' rfl
        exact hletter ⟨c, hc, _, hq, fun _ => ⟨q', rfl⟩⟩

/-- **A packet is served** exactly when the handler of its letter serves it. -/
theorem rspHandlePacket_returns (host : Host σ) (s : RV32 σ) (p : List Byte) (behind : Nat → Byte) :
    Returns (rspHandlePacket host (packetBuffer p behind) p.length) s ↔ Served host s p behind := by
  rcases rspHandlePacket_cases host p behind with ⟨c, hc, q, hp, hzero, hprog⟩ | ⟨⟨data, hdata, hprog⟩, hother⟩
  · rw [hprog, letterHandler_returns hc hp hzero]
    constructor
    · intro h d hd hhead
      rw [hp, List.head?_cons] at hhead
      rw [← rspLetters_inj hc hd (Option.some.inj hhead)]
      exact h
    · intro h
      exact h c hc (by rw [hp]; rfl)
  · rw [hprog]
    refine iff_of_true (returns_quickReply hdata) ?_
    intro c hc hhead
    obtain ⟨q, rfl⟩ : ∃ q, p = char c :: q := ⟨p.tail, (List.cons_head?_tail hhead).symm⟩
    obtain ⟨hZ, hno⟩ := hother c hc q rfl
    rcases hZ with rfl | rfl
    · exact fun q' hq' => absurd hq' (hno q')
    · exact fun q' hq' => absurd hq' (hno q')

/-! ## Runs -/

variable (host) in
/-- The command does not end the program. -/
def Survives (s : RV32 σ) : Command → Prop
  | .handle packet behind => Served host s packet behind
  | .abort _              => False
  | _                     => True

theorem execute_returns (s : RV32 σ) (command : Command) :
    Returns (execute host command) s ↔ Survives host s command := by
  cases command with
  | cycle =>
      refine iff_of_true ⟨(), ?_⟩ trivial
      simp only [execute, executeCycle]
      split <;> rfl
  | handle packet behind =>
      refine Iff.trans ?_ (rspHandlePacket_returns host s packet behind)
      simp only [Returns, execute, executePacket]
      cases (rspHandlePacket host (packetBuffer packet behind) packet.length s).value with
      | ok handlerResult => exact iff_of_true ⟨(), rfl⟩ ⟨handlerResult, rfl⟩
      | error msg =>
          constructor
          · rintro ⟨a, ha⟩
            cases ha
          · rintro ⟨a, ha⟩
            cases ha
  | refuse => exact iff_of_true ⟨(), rfl⟩ trivial
  | interrupt => exact iff_of_true ⟨(), rfl⟩ trivial
  | abort msg => exact iff_of_false (not_returns_of_error rfl) not_false

/-- **The stub survives** a run exactly when no byte was out of place and every packet was served, each on the
    machine it came to. -/
theorem stub_survives_iff (host : Host σ) (m : RV32 σ) (inputs : List MainInput) :
    (Process.run (mainRound host) (stubStart m) inputs).died = none ↔
      Lts.AllSteps (Process.step (execute host)) (fun q command => Survives host q.state command) ⟨m, none⟩
        (Deframer.initial.commands inputs) := by
  have hbehind := ((mainRound_layers host).run (layered_stubStart m) inputs).1.behind
  have hdied : (Process.run (mainRound host) (stubStart m) inputs).died =
      (executeAll host ⟨m, none⟩ (Deframer.initial.commands inputs)).died := (congrArg Process.died hbehind).symm
  rw [hdied, Process.run_alive_iff rfl]
  exact Lts.allSteps_congr fun q command => execute_returns q.state command

end Rv32
