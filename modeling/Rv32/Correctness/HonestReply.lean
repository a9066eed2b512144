import Rv32.Core.Emulator
import Rv32.Rsp.Effect
import Rv32.Rsp.Runs

/-!
# `Correctness.HonestReply` — what an empty reply says about the machine

An empty reply stands for a packet that is unknown or refused. The handlers of `P`, `Z0` and `z0` keep to
this: they answer `OK` if they have done something, and have done nothing if they answer anything else. The
handlers of `G` and `M` end with an empty reply too after they have written everything, so they keep to it
exactly as long as they write what was there before.
-/

namespace Rv32

open Prog

variable {σ : Type} {host : Host σ} {s : RV32 σ} {p : List Byte} {behind : Nat → Byte}

/-- The packets that write registers, memory or a breakpoint. -/
def Modifies (buffer : Nat → Byte) (size : Nat) : Prop :=
  RspStarts 'G' buffer size ∨ RspStarts 'M' buffer size ∨ RspStarts 'P' buffer size ∨
    rspIsPrefix "Z0" buffer size ∨ rspIsPrefix "z0" buffer size

/-- The machine is as it was after an empty reply, and after a packet that writes it has changed only if
    the answer is `OK`. -/
structure HonestReply (host : Host σ) (s : RV32 σ) (buffer : Nat → Byte) (size : Nat) : Prop where
  empty : (rspHandlePacket host buffer size s).out = [rspFrame []] →
    SameMachine s (rspHandlePacket host buffer size s).state
  changed : Modifies buffer size → ¬ SameMachine s (rspHandlePacket host buffer size s).state →
    (rspHandlePacket host buffer size s).out = [rspFrame (cstr "OK")]

/-- Register `i` as GDB counts them, `pc` being the last. -/
def RV32.gdbRegister (s : RV32 σ) (i : Nat) : Word := if h : i < 32 then s.r ⟨i, h⟩ else s.pc

/-- A `G` packet of the right size gets to a word that is not in its register already. -/
def ChangesRegisters (s : RV32 σ) (buffer : Nat → Byte) (size : Nat) : Prop :=
  RspStarts 'G' buffer size ∧ size = 265 ∧
    ∃ i < 33, (∀ j ≤ i, HexWord buffer (1 + 8 * j)) ∧ hexWordValue buffer (1 + 8 * i) ≠ s.gdbRegister i

/-- An `M` packet that is not refused gets to a byte that is not in the RAM already. -/
def ChangesMemory (host : Host σ) (s : RV32 σ) (p : List Byte) (behind : Nat → Byte) : Prop :=
  ∃ q addr len data, p = char 'M' :: q ∧ WriteHeader host q addr len data ∧
    ¬ (writeArgs host addr len data).OutOfRange s.memSize ∧
    ∃ i < (hexNumber 0 len).toNat,
      (∀ j ≤ i, HexPair (packetBuffer p behind) ((writeArgs host addr len data).k + 2 * j)) ∧
      hexPairValue (packetBuffer p behind) ((writeArgs host addr len data).k + 2 * i) ≠
        s.mem.bytes ((writeArgs host addr len data).index i).toNat

theorem empty_ne_ok : [rspFrame []] ≠ [rspFrame (cstr "OK")] := by decide

/-! ## The handlers that keep to it -/

/-- Nothing was done, or the answer is `OK`. -/
def Acknowledged (s : RV32 σ) (p : RspProg σ RspHandlerResult) : Prop :=
  SameMachine s (p s).state ∨ (p s).out = [rspFrame (cstr "OK")]

theorem Acknowledged.honestReply {buffer : Nat → Byte} {size : Nat}
    (h : Acknowledged s (rspHandlePacket host buffer size)) : HonestReply host s buffer size := by
  constructor
  case empty =>
    intro hempty
    rcases h with hsame | hok
    · exact hsame
    · exact absurd (hempty.symm.trans hok) empty_ne_ok
  case changed =>
    intro _ hchanged
    exact h.resolve_left hchanged

theorem acknowledged_attempt {α : Type} {e : Except String α} {f : α → RspProg σ RspHandlerResult}
    (hf : ∀ a, Acknowledged s (f a)) : Acknowledged s (attempt e >>= f) := by
  cases e with
  | error msg => exact .inl (refl_of SameMachine s)
  | ok a => exact hf a

theorem acknowledged_of_within {p : RspHandler σ} (h : Within SameMachine p) : Acknowledged s p :=
  .inl (h s)

theorem rspWriteSpecificRegister_acknowledged (buffer : Nat → Byte) (size : Nat) :
    Acknowledged s (rspWriteSpecificRegister buffer size) := by
  refine acknowledged_attempt fun _ => acknowledged_attempt fun reg => acknowledged_attempt ?_
  intro val
  unfold rspAssignRegister
  split
  · exact .inl (refl_of SameMachine s)
  split
  · right
    rw [run_modify_bind, rspQuickReply_run ok_mem_answers]
  · right
    rw [run_modify_bind, rspQuickReply_run ok_mem_answers]

/-- A breakpoint call that answers 0 has not done anything. -/
theorem rspSoftwareBreakpoint_acknowledged {call : RV32 σ → Word → Bool × RV32 σ}
    (hcall : ∀ s addr, (call s addr).1 = false → (call s addr).2 = s) (buffer : Nat → Byte) (size : Nat) :
    Acknowledged s (rspSoftwareBreakpoint call buffer size) := by
  rw [Acknowledged, rspSoftwareBreakpoint_run]
  cases rspBreakpointAddr buffer size with
  | error msg => exact .inl (refl_of SameMachine s)
  | ok addr =>
      cases hresult : (call s addr).1 with
      | false =>
          left
          simp only
          rw [hcall s addr hresult]
          exact refl_of SameMachine s
      | true =>
          right
          simp only [hresult, if_true]

theorem rv32SetBreakpoint_refused (s : RV32 σ) (addr : Word) (h : (rv32SetBreakpoint s addr).1 = false) :
    (rv32SetBreakpoint s addr).2 = s := by
  unfold rv32SetBreakpoint at h ⊢
  split
  · rename_i hfind
    rw [hfind] at h
    cases h
  · rfl

theorem rv32ClearBreakpoint_refused (s : RV32 σ) (addr : Word)
    (h : (rv32ClearBreakpoint s addr).1 = false) : (rv32ClearBreakpoint s addr).2 = s := by
  unfold rv32ClearBreakpoint at h ⊢
  split
  · rename_i hfind
    rw [hfind] at h
    cases h
  · rfl

/-! ## `G` -/

/-- A handler that never says `OK` has to leave the machine alone. -/
theorem honestReply_iff_same {buffer : Nat → Byte} {size : Nat} (hmodifies : Modifies buffer size)
    (hout : (rspHandlePacket host buffer size s).out ≠ [rspFrame (cstr "OK")]) :
    HonestReply host s buffer size ↔ SameMachine s (rspHandlePacket host buffer size s).state := by
  constructor
  · intro h
    by_contra hchanged
    exact hout (h.changed hmodifies hchanged)
  · intro hsame
    exact ⟨fun _ => hsame, fun _ hchanged => absurd hsame hchanged⟩

theorem sameMachine_assigned_iff {buffer : Nat → Byte} {m : Nat} (hm : m ≤ 33) :
    SameMachine s (s.assigned buffer m) ↔
      ∀ i < m, hexWordValue buffer (1 + 8 * i) = s.gdbRegister i := by
  constructor
  · rintro ⟨touched, heq⟩ i hi
    by_cases hreg : i < 32
    · have hr := congrFun (congrArg RV32.r heq) ⟨i, hreg⟩
      simp only [RV32.assigned, if_pos hi] at hr
      rw [hr, RV32.gdbRegister, dif_pos hreg]
    · have hpc := congrArg RV32.pc heq
      simp only [RV32.assigned, if_pos (show 32 < m by omega)] at hpc
      rw [show i = 32 by omega, hpc, RV32.gdbRegister, dif_neg (Nat.lt_irrefl 32)]
  · intro hall
    have hr : (fun j : Fin 32 => if j.val < m then hexWordValue buffer (1 + 8 * j.val) else s.r j) = s.r := by
      funext j
      split
      · rename_i hj
        rw [hall j.val hj, RV32.gdbRegister, dif_pos j.isLt]
      · rfl
    have hpc : (if 32 < m then hexWordValue buffer (1 + 8 * 32) else s.pc) = s.pc := by
      split
      · rename_i h32
        rw [hall 32 h32, RV32.gdbRegister, dif_neg (Nat.lt_irrefl 32)]
      · rfl
    rw [RV32.assigned, hr, hpc]
    exact refl_of SameMachine s

theorem honestReply_writeRegisters {buffer : Nat → Byte} {size : Nat} (h : RspStarts 'G' buffer size) :
    HonestReply host s buffer size ↔ ¬ ChangesRegisters s buffer size := by
  by_cases hsize : size = 265
  case neg =>
    refine iff_of_true (Acknowledged.honestReply ?_) fun hchanges => hsize hchanges.2.1
    rw [rspHandlePacket_writeRegisters h, rspWriteRegisters, check, if_neg hsize]
    exact .inl (refl_of SameMachine s)
  subst hsize
  obtain ⟨m, hm, hgood, hbad, hrun⟩ := rspWriteRegisters_run buffer s
  have hstate : (rspWriteRegisters buffer 265 s).state = s.assigned buffer m := by
    rw [hrun]
    split <;> rfl
  have hout : (rspWriteRegisters buffer 265 s).out ≠ [rspFrame (cstr "OK")] := by
    rw [hrun]
    split
    · exact empty_ne_ok
    · intro hnil
      cases hnil
  have hhandler : (rspHandlePacket host buffer 265 : RspHandler σ) = _ := rspHandlePacket_writeRegisters h
  rw [← hhandler] at hstate hout
  rw [honestReply_iff_same (.inl h) hout, hstate, sameMachine_assigned_iff hm]
  constructor
  · rintro hall ⟨-, -, i, hi, hwords, hne⟩
    exact hne (hall i ((lt_stop_iff hm hgood hbad i).mpr ⟨hi, hwords⟩))
  · intro hchanges i hi
    by_contra hne
    obtain ⟨hi33, hwords⟩ := (lt_stop_iff hm hgood hbad i).mp hi
    exact hchanges ⟨h, rfl, i, hi33, hwords, hne⟩

/-! ## `M` -/

theorem sameMachine_written_iff {args : MemoryArgs} {buffer : Nat → Byte} {m : Nat} (hm : m ≤ 2 ^ 32) :
    SameMachine s (args.written buffer s m) ↔
      ∀ i < m, hexPairValue buffer (args.k + 2 * i) = s.mem.bytes (args.index i).toNat := by
  obtain ⟨bytes, touched, hwritten, hat, helse⟩ := args.written_eq buffer s hm
  rw [hwritten]
  constructor
  · rintro ⟨_, heq⟩ i hi
    have hbytes : bytes = s.mem.bytes := congrArg (fun t => t.mem.bytes) heq
    rw [← hat i hi, hbytes]
  · intro hall
    have hbytes : bytes = s.mem.bytes := by
      funext x
      by_cases hx : ∃ i < m, x = (args.index i).toNat
      · obtain ⟨i, hi, rfl⟩ := hx
        rw [hat i hi, hall i hi]
      · exact helse x fun i hi heq => hx ⟨i, hi, heq⟩
    exact ⟨touched, by rw [hbytes]⟩

theorem honestReply_writeMemory (q : List Byte) :
    HonestReply host s (packetBuffer (char 'M' :: q) behind) (q.length + 1) ↔
      ¬ ChangesMemory host s (char 'M' :: q) behind := by
  have hstarts : RspStarts 'M' (packetBuffer (char 'M' :: q) behind) (q.length + 1) :=
    ⟨Nat.le_add_left 1 _, rfl⟩
  have hhandler : (rspHandlePacket host (packetBuffer (char 'M' :: q) behind) (q.length + 1) :
      RspHandler σ) = _ := rspHandlePacket_writeMemory hstarts
  by_cases hheader : ∃ addr len data, WriteHeader host q addr len data
  case neg =>
    obtain ⟨msg, hrun⟩ := rspWriteMemory_of_no_header behind hheader (char 'M') s
    refine iff_of_true (Acknowledged.honestReply ?_) ?_
    · left
      rw [hhandler, hrun]
      exact refl_of SameMachine s
    · rintro ⟨q', addr, len, data, hq, h, -⟩
      obtain rfl := (List.cons.inj hq).2
      exact hheader ⟨addr, len, data, h⟩
  obtain ⟨addr, len, data, h⟩ := hheader
  by_cases hout : (writeArgs host addr len data).OutOfRange s.memSize
  case pos =>
    refine iff_of_true (Acknowledged.honestReply ?_) ?_
    · left
      rw [hhandler, rspWriteMemory_of_outOfRange behind h _ hout]
      exact refl_of SameMachine s
    · rintro ⟨q', addr', len', data', hq, h', hin, -⟩
      obtain rfl := (List.cons.inj hq).2
      obtain ⟨rfl, rfl, rfl⟩ := h.unique h'
      exact hin hout
  obtain ⟨m, hm, hgood, hbad, hrun⟩ := rspWriteMemory_run behind h (char 'M') hout rfl
  have hstate : (rspWriteMemory host (packetBuffer (char 'M' :: q) behind) (q.length + 1) s).state =
      (writeArgs host addr len data).written (packetBuffer (char 'M' :: q) behind) s m := by
    rw [hrun]
    split <;> rfl
  have hsent : (rspWriteMemory host (packetBuffer (char 'M' :: q) behind) (q.length + 1) s).out ≠
      [rspFrame (cstr "OK")] := by
    rw [hrun]
    split
    · exact empty_ne_ok
    · intro hnil
      cases hnil
  rw [← hhandler] at hstate hsent
  have hm32 : m ≤ 2 ^ 32 := Nat.le_trans hm (Nat.le_of_lt (hexNumber 0 len).isLt)
  rw [honestReply_iff_same (.inr (.inl hstarts)) hsent, hstate, sameMachine_written_iff hm32]
  constructor
  · rintro hall ⟨q', addr', len', data', hq, h', -, i, hi, hpairs, hne⟩
    obtain rfl := (List.cons.inj hq).2
    obtain ⟨rfl, rfl, rfl⟩ := h.unique h'
    exact hne (hall i ((lt_stop_iff hm hgood hbad i).mpr ⟨hi, hpairs⟩))
  · intro hchanges i hi
    by_contra hne
    obtain ⟨hchunk, hpairs⟩ := (lt_stop_iff hm hgood hbad i).mp hi
    exact hchanges ⟨q, addr, len, data, rfl, h, hout, i, hchunk, hpairs, hne⟩

/-! ## All packets -/

theorem not_modifies {c : Char} {buffer : Nat → Byte} {size : Nat} (h : RspStarts c buffer size)
    (hc : char c ∉ ['G', 'M', 'P', 'Z', 'z'].map char) : ¬ Modifies buffer size := by
  rintro (hG | hM | hP | hZ | hz)
  · exact hc (h.mem_map hG (by decide))
  · exact hc (h.mem_map hM (by decide))
  · exact hc (h.mem_map hP (by decide))
  · exact hc (h.mem_map (hZ.starts (c := 'Z') rfl) (by decide))
  · exact hc (h.mem_map (hz.starts (c := 'z') rfl) (by decide))

/-- A handler that sends nothing, for a packet that is not to write anything. -/
theorem honestReply_of_silent {buffer : Nat → Byte} {size : Nat} (hmodifies : ¬ Modifies buffer size)
    (hout : (rspHandlePacket host buffer size s).out = []) : HonestReply host s buffer size := by
  refine ⟨fun hempty => ?_, fun h => absurd h hmodifies⟩
  rw [hout] at hempty
  cases hempty

/-- **The other packets.** -/
theorem honestReply_of_not_writes {buffer : Nat → Byte} {size : Nat} (hG : ¬ RspStarts 'G' buffer size)
    (hM : ¬ RspStarts 'M' buffer size) : HonestReply host s buffer size := by
  obtain ⟨p, hp, hdispatched⟩ := exists_dispatched host buffer size
  have hacknowledged : Acknowledged s p → HonestReply host s buffer size := by
    intro h
    exact Acknowledged.honestReply (hp ▸ h)
  cases hdispatched with
  | constant data hdata _ _ _ =>
      refine hacknowledged (.inl ?_)
      rw [rspQuickReply_run (constant_mem_answers hdata)]
      exact refl_of SameMachine s
  | readRegisters _ =>
      exact hacknowledged (acknowledged_of_within (within_getState.bind fun s => within_reply _))
  | writeRegisters h => exact absurd h hG
  | writeSpecificRegister _ => exact hacknowledged (rspWriteSpecificRegister_acknowledged _ _)
  | readMemory _ => exact hacknowledged (acknowledged_of_within (rspReadMemory_within sameMachine_touch))
  | writeMemory h => exact absurd h hM
  | setSoftwareBreakpoint _ =>
      exact hacknowledged (rspSoftwareBreakpoint_acknowledged rv32SetBreakpoint_refused _ _)
  | clearSoftwareBreakpoint _ =>
      exact hacknowledged (rspSoftwareBreakpoint_acknowledged rv32ClearBreakpoint_refused _ _)
  | resume h =>
      refine honestReply_of_silent (not_modifies h (by decide)) ?_
      rw [hp]
      rfl
  | detach _ =>
      refine hacknowledged (.inr ?_)
      rw [rspDetach, run_modify_bind, run_modify_bind, rspQuickReply_run ok_mem_answers]
  | kill h =>
      refine honestReply_of_silent (not_modifies h (by decide)) ?_
      rw [hp]
      rfl

/-- **An empty reply, exactly.** The reply to a packet tells the truth about the machine unless it is a `G`
    packet that gets to a word its register does not hold already, or an `M` packet that is not refused and
    gets to a byte the RAM does not hold already. -/
theorem honestReply_iff (host : Host σ) (s : RV32 σ) (p : List Byte) (behind : Nat → Byte) :
    HonestReply host s (packetBuffer p behind) p.length ↔
      ¬ (ChangesRegisters s (packetBuffer p behind) p.length ∨ ChangesMemory host s p behind) := by
  have hchangesM : ChangesMemory host s p behind → RspStarts 'M' (packetBuffer p behind) p.length := by
    rintro ⟨q, _, _, _, rfl, -⟩
    exact ⟨Nat.le_add_left 1 _, rfl⟩
  by_cases hG : RspStarts 'G' (packetBuffer p behind) p.length
  · rw [honestReply_writeRegisters hG, not_or]
    refine (and_iff_left fun h => ?_).symm
    exact absurd (hG.unique (hchangesM h)) (by decide)
  by_cases hM : RspStarts 'M' (packetBuffer p behind) p.length
  · obtain ⟨q, rfl⟩ := rspStarts_packetBuffer hM
    rw [List.length_cons, honestReply_writeMemory q, not_or]
    exact (and_iff_right fun h => hG h.1).symm
  · refine iff_of_true (honestReply_of_not_writes hG hM) ?_
    rintro (h | h)
    · exact hG h.1
    · exact hM (hchangesM h)

/-- A byte written by `M` is answered with the empty packet. -/
theorem emptyReply_after_write :
    ¬ ∀ (s : RV32 (List Output)) (p : List Byte) (behind : Nat → Byte),
      HonestReply emulatorHost s (packetBuffer p behind) p.length := by
  intro h
  have hhonest := (honestReply_writeMemory (cstr "0,1:ff")).mp
    (h (emulatorStart []) (cstr "M0,1:ff") fun _ => 0)
  refine hhonest ⟨cstr "0,1:ff", cstr "0", cstr "1", cstr "ff", rfl, ⟨⟨rfl, by decide, by decide, by decide,
    noDigit_cons not_digit_colon _⟩, by decide⟩, by decide, 0, by decide, ?_, by decide⟩
  intro j hj
  obtain rfl := Nat.le_zero.mp hj
  decide

end Rv32
