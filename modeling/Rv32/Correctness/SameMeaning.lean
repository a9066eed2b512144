import Rv32.Core.Emulator
import Rv32.Rsp.Framing
import Rv32.Rsp.Independence

/-!
# `Correctness.SameMeaning` — a packet after two histories

The input buffer is never cleared, so behind a packet it holds what earlier packets left there, and behind
its end anything at all. A packet means the same after every history as long as its handler stays inside of
it. Two kinds of packets do not: `Z0` and `z0` look for a second comma behind the address without asking
for the size, and `M` with a length of `2 ^ 31` or more is accepted although its data, twice the length
modulo `2 ^ 32`, run out before the loop does.
-/

namespace Rv32

open Prog

variable {σ : Type} {host : Host σ} {m : RV32 σ} {p : List Byte} {d1 d2 : Byte}

/-- Bytes from the debugger, each with what is left open while it is handled. -/
def byteHistory (bytes : List (Byte × Indeterminate)) : List StubAction :=
  bytes.map fun b => .byte b.1 b.2

/-- A session that has seen nothing but bytes is in the state `t`, outside of a packet. -/
def ReachedByBytes (host : Host σ) (t : Stub σ) : Prop :=
  ∃ (start : RV32 σ) (bytes : List (Byte × Indeterminate)),
    stubRun host (stubStart start) (byteHistory bytes) = ⟨t, none⟩ ∧ t.receiver.state = .waitStart

/-- From the states `t` and `t'`, the frame is answered by the same bytes, does the same to the machine,
    and ends the program in both or in neither. -/
structure SameEffect (host : Host σ) (t t' : Stub σ) (ind ind' : Indeterminate) (p : List Byte)
    (d1 d2 : Byte) : Prop where
  sent : stubEvents host ⟨t, none⟩ (feed ind (frameBytes p d1 d2)) =
    stubEvents host ⟨t', none⟩ (feed ind' (frameBytes p d1 d2))
  machine : SameMachine (stubRun host ⟨t, none⟩ (feed ind (frameBytes p d1 d2))).state.machine
    (stubRun host ⟨t', none⟩ (feed ind' (frameBytes p d1 d2))).state.machine
  died : (stubRun host ⟨t, none⟩ (feed ind (frameBytes p d1 d2))).died.isSome =
    (stubRun host ⟨t', none⟩ (feed ind' (frameBytes p d1 d2))).died.isSome

/-- After any two histories that leave the machine `m`, the frame has the same effect. -/
def SameMeaning (host : Host σ) (m : RV32 σ) (p : List Byte) (d1 d2 : Byte) : Prop :=
  ∀ (t t' : Stub σ) (ind ind' : Indeterminate), ReachedByBytes host t → ReachedByBytes host t' →
    SameMachine m t.machine → SameMachine m t'.machine → SameEffect host t t' ind ind' p d1 d2

/-! ## One frame, two receivers -/

/-- What can be seen of a frame is what can be seen of the call it leads to. -/
theorem frame_effect (host : Host σ) (hframe : WellFormed p d1 d2) {t : Stub σ}
    (ht : t.receiver.state = .waitStart) (ind : Indeterminate) :
    stubEvents host ⟨t, none⟩ (feed ind (frameBytes p d1 d2)) =
        .sent [char '+'] :: .handled p ::
          (frameOutcome host t.machine t.receiver ind p).out.map .sent ∧
      (stubRun host ⟨t, none⟩ (feed ind (frameBytes p d1 d2))).state.machine =
        (frameOutcome host t.machine t.receiver ind p).state ∧
      (stubRun host ⟨t, none⟩ (feed ind (frameBytes p d1 d2))).died.isSome =
        (frameOutcome host t.machine t.receiver ind p).value.toOption.isNone := by
  obtain ⟨m, r⟩ := t
  obtain ⟨r', -, -, -, hrun, hevents⟩ := feed_wellFormed host m ind hframe ht
  refine ⟨hevents, ?_, ?_⟩
  · rw [stubRun, hrun]
    split <;> rfl
  · rw [stubRun, hrun]
    split
    · rename_i hvalue
      rw [hvalue]
      rfl
    · rename_i hvalue
      rw [hvalue]
      rfl

theorem sameEffect_of_alike (hframe : WellFormed p d1 d2) {t t' : Stub σ}
    (ht : t.receiver.state = .waitStart) (ht' : t'.receiver.state = .waitStart) {ind ind' : Indeterminate}
    (h : Outcome.Alike SameMachine (frameOutcome host t.machine t.receiver ind p)
      (frameOutcome host t'.machine t'.receiver ind' p)) : SameEffect host t t' ind ind' p d1 d2 := by
  obtain ⟨hevents, hmachine, hdied⟩ := frame_effect host hframe ht ind
  obtain ⟨hevents', hmachine', hdied'⟩ := frame_effect host hframe ht' ind'
  refine ⟨?_, ?_, ?_⟩
  · rw [hevents, hevents', h.out]
  · rw [hmachine, hmachine']
    exact h.state
  · rw [hdied, hdied', h.value]

/-- **Inside of the packet.** -/
theorem sameMeaning_of_inside (hframe : WellFormed p d1 d2) (htruncated : ¬ Truncated p)
    (hoversized : ¬ Oversized host m p) : SameMeaning host m p d1 d2 := by
  rintro t t' ind ind' ⟨-, -, -, ht⟩ ⟨-, -, -, ht'⟩ hm hm'
  have hsame : SameMachine t.machine t'.machine := trans_of SameMachine hm.symm hm'
  have hoversized' : ¬ Oversized host t.machine p := by
    obtain ⟨_, heq⟩ := hm
    rw [heq]
    exact hoversized
  exact sameEffect_of_alike hframe ht ht' (rspHandlePacket_alike hsame hframe.fits htruncated hoversized')

/-! ## A history that fills the buffer -/

/-- A packet of one letter, as long as the buffer, that the stub does not know. -/
def fillPacket (c : Char) : List Byte := List.replicate rspBufferSize (char c)

theorem fillPacket_sum (c : Char) : (fillPacket c).sum = 0 := by
  have hsum : ∀ n, (List.replicate n (char c)).sum = BitVec.ofNat 8 n * char c := by
    intro n
    induction n with
    | zero => simp
    | succ n ih =>
        have hone : BitVec.ofNat 8 1 * char c = char c := BitVec.one_mul _
        rw [List.replicate_succ, List.sum_cons, ih, BitVec.ofNat_add, BitVec.add_mul, hone, BitVec.add_comm]
  rw [fillPacket, hsum]
  simp [rspBufferSize]

theorem fillPacket_wellFormed {c : Char} (hc : char c ≠ char '#') :
    WellFormed (fillPacket c) (char '0') (char '0') where
  fits := by rw [fillPacket, List.length_replicate]
  noHash := by
    intro hmem
    exact hc (List.eq_of_mem_replicate hmem).symm
  digit1 := by decide
  digit2 := by decide
  sum := by
    rw [fillPacket_sum]
    decide

/-- A packet with a letter of its own is answered with a constant. -/
theorem rspHandlePacket_other (host : Host σ) {buffer : Nat → Byte} {size : Nat} {c : Char}
    (h : RspStarts c buffer size) (hc : char c ∉ rspLetters.map char) (s : RV32 σ) :
    ∃ out, rspHandlePacket host buffer size s = ⟨.ok .packetSent, s, out⟩ := by
  obtain ⟨p, hp, hdispatched⟩ := exists_dispatched host buffer size
  rw [hp]
  rcases hdispatched.letter with ⟨d, hd, hstarts, -⟩ | ⟨⟨data, hdata, rfl⟩, -⟩
  · exact absurd (h.mem_map hstarts hd) hc
  · exact ⟨_, rspQuickReply_run hdata s⟩

/-- Such a packet, if it is as long as the buffer, is all the buffer holds. -/
theorem inBuffer_of_fillPacket {r : RspReceiver} {c : Char} (h : r.packet = fillPacket c)
    (i : Fin rspBufferSize) : r.inBuffer i = char c := by
  have hiptr : r.iptr = rspBufferSize := by
    rw [← r.packet_length, h, fillPacket, List.length_replicate]
  have hget : r.packet[i.val]? = some (char c) := by
    rw [h, fillPacket, List.getElem?_replicate, if_pos i.isLt]
  rw [RspReceiver.packet, List.getElem?_map, hiptr, List.getElem?_range i.isLt, Option.map_some,
    RspReceiver.buffer, dif_pos i.isLt] at hget
  exact Option.some.inj hget

/-- The memory behind the buffer, if it is filled with the same byte. -/
def fillIndeterminate (c : Char) : Indeterminate :=
  { handlerResult := .noPacketSent, behind := fun _ => char c }

/-- **A history that fills the buffer** and leaves the machine alone. -/
theorem exists_filled (host : Host σ) (m : RV32 σ) {c : Char} (hc : char c ∉ rspLetters.map char)
    (hhash : char c ≠ char '#') :
    ∃ t, ReachedByBytes host t ∧ t.machine = m ∧
      t.receiver.buffer (fillIndeterminate c).behind = fun _ => char c := by
  obtain ⟨r, -, hpacket, -, hruns⟩ := feed_wellFormed host m noIndeterminate (r := rspInit)
    (fillPacket_wellFormed hhash) rfl
  have hstarts : RspStarts c (packetBuffer (fillPacket c) (rspInit.buffer noIndeterminate.behind))
      (fillPacket c).length := by
    refine ⟨?_, ?_⟩
    · rw [fillPacket, List.length_replicate]
      decide
    · rfl
  obtain ⟨out, hanswer⟩ := rspHandlePacket_other host hstarts hc m
  have hvalue : frameOutcome host m rspInit noIndeterminate (fillPacket c) =
      ⟨.ok .packetSent, m, out⟩ := hanswer
  rw [hvalue] at hruns
  have hack : serve host (.byte (char '+') noIndeterminate) ⟨m, r.finish (char '0') .packetSent⟩ =
      ⟨.ok (), ⟨m, { r.finish (char '0') .packetSent with state := .waitStart }⟩, []⟩ := by
    rw [serve, rspHandleByte_eq]
    rfl
  have hall := hruns.append (Process.Runs.single_ok hack)
  refine ⟨⟨m, { r.finish (char '0') .packetSent with state := .waitStart }⟩, ⟨m,
    (frameBytes (fillPacket c) (char '0') (char '0') ++ [char '+']).map fun b => (b, noIndeterminate),
    ?_, rfl⟩, rfl, ?_⟩
  · rw [byteHistory, List.map_map, List.map_append]
    exact hall.run
  · funext i
    unfold RspReceiver.buffer
    split
    · exact inBuffer_of_fillPacket hpacket _
    · rfl

/-- If a frame means the same after every history, its call does the same after any two that fill the
    buffer, with what they filled it with behind the packet. -/
theorem SameMeaning.filled (hsame : SameMeaning host m p d1 d2) (hframe : WellFormed p d1 d2) (c c' : Char)
    (hc : char c ∉ ('#' :: rspLetters).map char) (hc' : char c' ∉ ('#' :: rspLetters).map char) :
    SameMachine (rspHandlePacket host (packetBuffer p fun _ => char c) p.length m).state
        (rspHandlePacket host (packetBuffer p fun _ => char c') p.length m).state ∧
      (rspHandlePacket host (packetBuffer p fun _ => char c) p.length m).value.toOption.isSome =
        (rspHandlePacket host (packetBuffer p fun _ => char c') p.length m).value.toOption.isSome := by
  rw [List.map_cons, List.mem_cons, not_or] at hc hc'
  obtain ⟨t, ht, htm, hbuffer⟩ := exists_filled host m hc.2 hc.1
  obtain ⟨t', ht', htm', hbuffer'⟩ := exists_filled host m hc'.2 hc'.1
  have heffect : SameEffect host t t' (fillIndeterminate c) (fillIndeterminate c') p d1 d2 := by
    apply hsame t t' _ _ ht ht'
    · rw [htm]
      exact refl_of SameMachine m
    · rw [htm']
      exact refl_of SameMachine m
  obtain ⟨-, -, -, hstart⟩ := ht
  obtain ⟨-, -, -, hstart'⟩ := ht'
  obtain ⟨-, hmachine, hdied⟩ := frame_effect host hframe hstart (fillIndeterminate c)
  obtain ⟨-, hmachine', hdied'⟩ := frame_effect host hframe hstart' (fillIndeterminate c')
  rw [frameOutcome, hbuffer, htm] at hmachine hdied
  rw [frameOutcome, hbuffer', htm'] at hmachine' hdied'
  constructor
  · rw [← hmachine, ← hmachine']
    exact heffect.machine
  · have hend := heffect.died
    rw [hdied, hdied', ← Option.not_isSome, ← Option.not_isSome] at hend
    exact Bool.not_inj hend

/-! ## What is behind the packet, and matters -/

theorem rspSoftwareBreakpoint_returns (call : RV32 σ → Word → Bool × RV32 σ) (buffer : Nat → Byte)
    (size : Nat) (s : RV32 σ) :
    (rspSoftwareBreakpoint call buffer size s).value.toOption.isSome =
      (rspBreakpointAddr buffer size).toOption.isSome := by
  rw [rspSoftwareBreakpoint_run]
  cases rspBreakpointAddr buffer size with
  | error msg => rfl
  | ok addr => rfl

/-- **A truncated packet** is accepted for a comma behind it. -/
theorem truncated_returns_iff (host : Host σ) (h : Truncated p) (s : RV32 σ) (c : Char) :
    (rspHandlePacket host (packetBuffer p fun _ => char c) p.length s).value.toOption.isSome = true ↔
      char c = char ',' := by
  obtain ⟨ds, hp, hds⟩ := h
  have hheader : BreakpointHeader (char ',' :: ds) ds [] := by
    refine ⟨by rw [List.append_nil], hds, ?_⟩
    intro d hd
    cases hd
  -- the byte that is looked at is the first one behind the packet
  have haddr : ∀ x : Byte,
      (rspBreakpointAddr (packetBuffer (x :: char '0' :: char ',' :: ds) fun _ => char c)
        ((char ',' :: ds).length + 2)).toOption.isSome = true ↔ char c = char ',' := by
    intro x
    rw [rspBreakpointAddr_of_header hheader, packetBuffer_of_le (by simp)]
    split
    · exact iff_of_true rfl ‹_›
    · exact iff_of_false Bool.false_ne_true ‹_›
  rcases hp with rfl | rfl
  · rw [rspHandlePacket_setSoftwareBreakpoint ⟨by simp [cstr], rfl⟩, rspSetSoftwareBreakpoint,
      rspSoftwareBreakpoint_returns]
    exact haddr (char 'Z')
  · rw [rspHandlePacket_clearSoftwareBreakpoint ⟨by simp [cstr], rfl⟩, rspClearSoftwareBreakpoint,
      rspSoftwareBreakpoint_returns]
    exact haddr (char 'z')

/-- **An oversized packet** writes what is behind it. -/
theorem oversized_writes {q addr len data : List Byte} (h : WriteHeader host q addr len data)
    (hlen : q.length + 1 ≤ rspBufferSize) {s : RV32 σ}
    (hin : ¬ (writeArgs host addr len data).OutOfRange s.memSize) (hdata : HexDigits data)
    (hchunk : 2 ^ 31 ≤ (hexNumber 0 len).toNat) {c : Char} (hc : rspIsHexDigit (char c) = true) :
    (rspHandlePacket host (packetBuffer (char 'M' :: q) fun _ => char c) (q.length + 1) s).state.mem.bytes
        ((writeArgs host addr len data).index (data.length / 2)).toNat =
      hexByte (char c) (char c) := by
  have heven : data.length % 2 = 0 := by
    rw [h.data_length hlen]
    omega
  have hsmall : data.length ≤ rspBufferSize := by
    rw [h.length_eq] at hlen
    omega
  have hbehind : ∀ x, data.length ≤ x →
      packetBuffer (char 'M' :: q) (fun _ => char c) ((writeArgs host addr len data).k + x) = char c := by
    intro x hx
    refine packetBuffer_of_le ?_
    rw [List.length_cons, h.length_eq]
    omega
  have hhex : ∀ x, rspIsHexDigit
      (packetBuffer (char 'M' :: q) (fun _ => char c) ((writeArgs host addr len data).k + x)) = true := by
    intro x
    by_cases hx : x < data.length
    · rw [h.packetBuffer_data _ _ hx]
      exact hdata _ (List.getElem_mem hx)
    · rw [hbehind x (Nat.le_of_not_lt hx)]
      exact hc
  obtain ⟨m, hm, -, hbad, hrun⟩ := rspWriteMemory_run (fun _ => char c) h (char 'M') hin rfl
  -- nothing stops the loop
  have hall : m = (hexNumber 0 len).toNat := by
    by_contra hne
    refine hbad (by omega) ⟨hhex _, ?_⟩
    rw [Nat.add_assoc]
    exact hhex _
  have hm32 : m ≤ 2 ^ 32 := Nat.le_trans hm (Nat.le_of_lt (hexNumber 0 len).isLt)
  obtain ⟨bytes, touched, hwritten, hat, -⟩ := (writeArgs host addr len data).written_eq
    (packetBuffer (char 'M' :: q) fun _ => char c) s hm32
  rw [rspHandlePacket_writeMemory ⟨Nat.le_add_left 1 _, rfl⟩, hrun, if_pos hall, hwritten]
  rw [rspBufferSize] at hsmall
  refine (hat (data.length / 2) (by omega)).trans ?_
  rw [hexPairValue, hbehind _ (by omega), Nat.add_assoc, hbehind _ (by omega)]

/-- **A packet that ends with its address** is taken for another one after some history. -/
theorem not_sameMeaning_of_truncated (hframe : WellFormed p d1 d2) (h : Truncated p) :
    ¬ SameMeaning host m p d1 d2 := by
  intro hsame
  obtain ⟨-, hvalue⟩ := hsame.filled hframe ',' 'a' (by decide) (by decide)
  -- one of the two calls returns, and the other one does not
  have hreturns := (truncated_returns_iff host h m ',').mpr rfl
  have hfatal := (truncated_returns_iff host h m 'a').not.mpr (by decide)
  exact hfatal (hvalue.symm.trans hreturns)

/-- **A packet that claims more data than it has** writes what an earlier one left. -/
theorem not_sameMeaning_of_oversized (hframe : WellFormed p d1 d2) (h : Oversized host m p) :
    ¬ SameMeaning host m p d1 d2 := by
  intro hsame
  obtain ⟨⟨touched, hmachine⟩, -⟩ := hsame.filled hframe 'a' 'b' (by decide) (by decide)
  obtain ⟨q, addr, len, data, rfl, hheader, hin, hdata, hchunk⟩ := h
  rw [List.length_cons] at hmachine
  have hbytes := congrArg
    (fun s => s.mem.bytes ((writeArgs host addr len data).index (data.length / 2)).toNat) hmachine
  have hwrites := oversized_writes hheader hframe.fits hin hdata hchunk (c := 'a') (by decide)
  have hwrites' := oversized_writes hheader hframe.fits hin hdata hchunk (c := 'b') (by decide)
  exact absurd ((hwrites'.symm.trans hbytes).trans hwrites) (by decide)

/-- **One meaning, exactly.** After any two histories that leave the machine `m`, a well-formed frame is
    answered by the same bytes, does the same to the machine and ends the program in both or in neither,
    exactly when it is not a `Z0` or `z0` packet that ends with its address, and not an `M` packet that is
    accepted with hex data and a length of `2 ^ 31` or more. -/
theorem sameMeaning_iff (host : Host σ) (m : RV32 σ) (p : List Byte) (d1 d2 : Byte)
    (hframe : WellFormed p d1 d2) :
    SameMeaning host m p d1 d2 ↔ ¬ (Truncated p ∨ Oversized host m p) := by
  constructor
  · rintro hsame (h | h)
    · exact not_sameMeaning_of_truncated hframe h hsame
    · exact not_sameMeaning_of_oversized hframe h hsame
  · intro hnot
    rw [not_or] at hnot
    exact sameMeaning_of_inside hframe hnot.1 hnot.2

/-- `$M0,1:ff#e0`, whose handler reads an address, a length and the data out of the buffer, means the same
    after every history. -/
theorem sameMeaning_write :
    SameMeaning emulatorHost (emulatorStart []) (cstr "M0,1:ff") (char 'e') (char '0') := by
  have hframe : WellFormed (cstr "M0,1:ff") (char 'e') (char '0') :=
    ⟨by decide, by decide, by decide, by decide, by decide⟩
  refine (sameMeaning_iff emulatorHost (emulatorStart []) _ _ _ hframe).mpr ?_
  rintro (⟨ds, h | h, -⟩ | ⟨q, addr, len, data, h, hheader, -, -, hlen⟩)
  · cases h
  · cases h
  · obtain rfl := (List.cons.inj h).2
    have hread : WriteHeader emulatorHost (cstr "0,1:ff") (cstr "0") (cstr "1") (cstr "ff") :=
      ⟨⟨rfl, by decide, by decide, by decide, by rintro _ ⟨⟩; decide⟩, by decide⟩
    obtain ⟨-, rfl, -⟩ := hheader.unique hread
    exact absurd hlen (by decide)

/-- `$Z0,0#e6` does not. -/
theorem not_sameMeaning_truncated :
    ¬ ∀ (m : RV32 (List Output)) (p : List Byte) (d1 d2 : Byte), WellFormed p d1 d2 →
      SameMeaning emulatorHost m p d1 d2 := by
  intro h
  have hframe : WellFormed (cstr "Z0,0") (char 'e') (char '6') :=
    ⟨by decide, by decide, by decide, by decide, by decide⟩
  have htruncated : Truncated (cstr "Z0,0") := ⟨cstr "0", .inl rfl, by decide⟩
  exact not_sameMeaning_of_truncated hframe htruncated (h (emulatorStart []) _ _ _ hframe)

end Rv32
