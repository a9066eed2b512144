import Rv32.Core.Emulator
import Rv32.Correctness.PacketBuilder
import Rv32.Rsp.Framing

/-!
# `Correctness.EscapeRoundTrip` — which strings survive from the builder to the handler

`rsp_packet_append` escapes `#`, `$` and `}`. `rsp_handle_byte` has no counterpart to it: it sums and stores
the bytes as they come, so the checksum of a frame from the builder is right and its payload is handed over
as it stands, with the escapes in it. A string gets to `rsp_handle_packet` exactly when it has no byte to
escape.
-/

namespace Rv32

variable {σ : Type} {s : CString}

/-- The bytes `rsp_packet_append` escapes. -/
def Special (c : Byte) : Prop := c = char '#' ∨ c = char '$' ∨ c = char '\x7d'

instance (c : Byte) : Decidable (Special c) := inferInstanceAs (Decidable (_ ∨ _))

/-- The string in the buffer of a packet, which is what `rsp_packet_send` prints. -/
def RspPacketT.sent (p : RspPacketT) : List Byte := p.text.takeWhile (· ≠ 0)

/-- Fed byte by byte to a receiver, `frame` passes the checksum, and `rsp_handle_packet` is called with the
    bytes of `s`. -/
def Receives (host : Host σ) (m : RV32 σ) (r : RspReceiver) (ind : Indeterminate) (s : CString)
    (frame : List Byte) : Prop :=
  ∃ texts : List (List Byte), stubEvents host ⟨⟨m, r⟩, none⟩ (feed ind frame) =
    .sent [char '+'] :: .handled s.bytes :: texts.map .sent

/-! ## The sender -/

theorem rspEscape_of_not_special {c : Byte} (h : ¬ Special c) : rspEscape c = [c] := if_neg h

theorem rspEscape_of_special {c : Byte} (h : Special c) : rspEscape c = [char '\x7d', c ^^^ 0x20] := if_pos h

/-- Escaping does not make a NUL. -/
theorem rspEscape_ne_zero {c d : Byte} (hc : c ≠ 0) (h : d ∈ rspEscape c) : d ≠ 0 := by
  by_cases hspecial : Special c
  · rw [rspEscape_of_special hspecial] at h
    rcases hspecial with rfl | rfl | rfl
    all_goals
      rcases List.mem_pair.mp h with rfl | rfl
      all_goals decide
  · rw [rspEscape_of_not_special hspecial] at h
    rw [List.mem_singleton.mp h]
    exact hc

/-- Escaping does not shorten a text. -/
theorem length_le_escaped (data : List Byte) : data.length ≤ (data.flatMap rspEscape).length := by
  induction data with
  | nil => exact Nat.le_refl 0
  | cons c data ih =>
      have hc : 0 < (rspEscape c).length := by
        unfold rspEscape
        split <;> simp
      rw [List.flatMap_cons, List.length_append, List.length_cons]
      omega

/-- **A text is its own escape** when there is nothing in it to escape. -/
theorem escaped_eq_iff (data : List Byte) :
    data.flatMap rspEscape = data ↔ ∀ c ∈ data, ¬ Special c := by
  induction data with
  | nil => simp
  | cons c data ih =>
      rw [List.flatMap_cons, List.forall_mem_cons, ← ih]
      by_cases hc : Special c
      · -- the escape is longer
        refine iff_of_false (fun h => ?_) fun h => h.1 hc
        have hlength := congrArg List.length h
        have hrest := length_le_escaped data
        simp only [rspEscape_of_special hc, List.length_append, List.length_cons, List.length_nil] at hlength
        omega
      · rw [rspEscape_of_not_special hc, List.singleton_append, List.cons.injEq]
        exact ⟨fun h => ⟨hc, h.2⟩, fun h => ⟨rfl, h.2⟩⟩

/-- **What the sender prints** is the frame of the escaped string. -/
theorem built_sent {p : RspPacketT} (hbuild : (rspPacketBuild [.append s] p).value = .ok ()) :
    (s.bytes.flatMap rspEscape).length ≤ 1019 ∧
      (rspPacketBuild [.append s] p).state.sent = rspFrame (s.bytes.flatMap rspEscape) := by
  have hencoded : [RspPacketCall.append s].flatMap RspPacketCall.encoded = s.bytes.flatMap rspEscape :=
    List.flatMap_singleton ..
  rcases packetBuild_cases [.append s] p with ⟨hfits, -, htext⟩ | ⟨-, herror⟩
  · rw [hencoded] at hfits htext
    have hnul : ∀ d ∈ s.bytes.flatMap rspEscape, d ≠ 0 := by
      intro d hd
      obtain ⟨c, hc, hdc⟩ := List.mem_flatMap.mp hd
      refine rspEscape_ne_zero ?_ hdc
      rintro rfl
      exact s.noNul hc
    refine ⟨hfits, ?_⟩
    rw [RspPacketT.sent, htext, List.takeWhile_append_of_pos fun d hd =>
      decide_eq_true (rspFrame_ne_zero hnul d hd)]
    simp
  · rw [hbuild] at herror
    cases herror

/-! ## The receiver -/

/-- A frame of escaped text is a well-formed one. -/
theorem wellFormed_escaped {data : List Byte} (hfits : (data.flatMap rspEscape).length ≤ rspBufferSize) :
    WellFormed (data.flatMap rspEscape) (hexDigit (((data.flatMap rspEscape).sum >>> 4) &&& 0xf))
      (hexDigit ((data.flatMap rspEscape).sum &&& 0xf)) where
  fits := hfits
  noHash := by
    intro h
    obtain ⟨c, -, hc⟩ := List.mem_flatMap.mp h
    exact (rspEscape_ne hc).1 rfl
  digit1 := (hexDigit_decode _).1
  digit2 := (hexDigit_decode _).1
  sum := hexByte_digits _

/-- **What the receiver hands over** is the escaped string. -/
theorem feed_built (host : Host σ) (m : RV32 σ) {r : RspReceiver} (ind : Indeterminate)
    (hstate : r.state = .waitStart) {p : RspPacketT}
    (hbuild : (rspPacketBuild [.append s] p).value = .ok ()) :
    ∃ texts : List (List Byte), stubEvents host ⟨⟨m, r⟩, none⟩
      (feed ind (rspPacketBuild [.append s] p).state.sent) =
        .sent [char '+'] :: .handled (s.bytes.flatMap rspEscape) :: texts.map .sent := by
  obtain ⟨hlength, hsent⟩ := built_sent hbuild
  have hfits : (s.bytes.flatMap rspEscape).length ≤ rspBufferSize := Nat.le_trans hlength (by decide)
  obtain ⟨_, -, -, -, hruns⟩ := feed_wellFormed host m ind (wellFormed_escaped hfits) hstate
  rw [hsent]
  exact ⟨_, hruns.sent⟩

/-- **The receiver undoes the sender's escaping**, exactly when there is none to undo. -/
theorem receives_iff (host : Host σ) (m : RV32 σ) (r : RspReceiver) (ind : Indeterminate) (s : CString)
    (p : RspPacketT) (hstate : r.state = .waitStart)
    (hbuild : (rspPacketBuild [.append s] p).value = .ok ()) :
    Receives host m r ind s (rspPacketBuild [.append s] p).state.sent ↔
      ∀ c ∈ s.bytes, ¬ Special c := by
  obtain ⟨texts, hevents⟩ := feed_built host m ind hstate hbuild
  rw [← escaped_eq_iff]
  constructor
  · rintro ⟨_, hreceived⟩
    have htail := (List.cons.inj (hevents.symm.trans hreceived)).2
    exact RspEvent.handled.inj (List.cons.inj htail).1
  · intro hsame
    refine ⟨texts, ?_⟩
    rw [hevents, hsame]

/-- A packet before it is begun. -/
def zeroPacket : RspPacketT := { buffer := fun _ => 0, ptr := 0, checksum := 0 }

/-- `OK` gets through. -/
theorem receives_ok :
    Receives emulatorHost (emulatorStart []) rspInit noIndeterminate ⟨cstr "OK", by decide⟩
      (rspPacketBuild [.append ⟨cstr "OK", by decide⟩] zeroPacket).state.sent :=
  (receives_iff emulatorHost (emulatorStart []) rspInit noIndeterminate ⟨cstr "OK", by decide⟩ zeroPacket
    rfl (by decide)).mpr (by decide)

/-- A single `#` does not: the handler gets a `}` and the byte 3. -/
theorem hash_arrives_escaped :
    (rspPacketBuild [.append ⟨[char '#'], by decide⟩] zeroPacket).value = .ok () ∧
      (∃ texts : List (List Byte), stubEvents emulatorHost (stubStart (emulatorStart []))
        (feed noIndeterminate (rspPacketBuild [.append ⟨[char '#'], by decide⟩] zeroPacket).state.sent) =
          .sent [char '+'] :: .handled [char '\x7d', 3] :: texts.map .sent) ∧
      ¬ Receives emulatorHost (emulatorStart []) rspInit noIndeterminate ⟨[char '#'], by decide⟩
        (rspPacketBuild [.append ⟨[char '#'], by decide⟩] zeroPacket).state.sent := by
  have hbuild : (rspPacketBuild [.append ⟨[char '#'], by decide⟩] zeroPacket).value = .ok () := by decide
  obtain ⟨texts, hevents⟩ := feed_built emulatorHost (emulatorStart []) noIndeterminate
    (show rspInit.state = .waitStart from rfl) hbuild
  have hpayload : [char '#'].flatMap rspEscape = [char '\x7d', 3] := by decide
  rw [hpayload] at hevents
  refine ⟨hbuild, ⟨texts, hevents⟩, ?_⟩
  rintro ⟨_, hreceived⟩
  have htail := (List.cons.inj (hevents.symm.trans hreceived)).2
  have hsame := RspEvent.handled.inj (List.cons.inj htail).1
  exact absurd hsame (by decide)

end Rv32
