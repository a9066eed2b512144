import Rv32.Core.Emulator
import Rv32.Rsp.Handlers

/-!
# `Correctness.Reset` — what survives a reset

`rv32_reset` is `rv32_new` on the machine's own storage, and `rv32_new` clears `sizeof(RV32)` bytes. The
struct ends with `mem[1]`, the first byte of the RAM, and with the padding behind it, which the RAM
overlays; so the clearing reaches four bytes into the program. A program whose first word is zero does not
notice.
-/

namespace Rv32

variable {σ : Type}

/-- `t` is `s` after a reset as it should be: the header back at its start, the RAM as it was. -/
structure IsReset (s t : RV32 σ) : Prop where
  pc : t.pc = 0
  registers : ∀ i, t.r i = 0
  csrs : t.mstatus = 0 ∧ t.mie = 0 ∧ t.mip = 0 ∧ t.mtvec = 0 ∧ t.mepc = 0 ∧ t.mcause = 0
  interruptController : t.interruptController = { ie := 0, ip := 0 }
  wfi : t.wfi = 0
  breakpoints : t.bpMask = 0 ∧ ∀ i, t.bp i = 0
  memSize : t.memSize = s.memSize
  status : t.status = .paused
  ram : ∀ i < s.memSize.toNat, t.mem.bytes i = s.mem.bytes i

/-- A run after the reset is the first run of the image that the RAM held before it: the one from
    `rv32_new` on, on any storage, with the same bytes behind the RAM. -/
def Repeats (host : Host σ) (s : RV32 σ) : Prop :=
  ∀ (memory : RV32 σ) (image : ByteMem.Mem), memory.host = s.host →
    (∀ i < s.memSize.toNat, image i = s.mem.bytes i) →
    (∀ i, s.memSize.toNat ≤ i → image i = (rv32Reset s).mem.bytes i) →
    ∀ as, runActions host (rv32Reset s) as = runActions host (boot memory s.memSize image) as

/-- A reset keeps the program, by the call and by the packet `k`. -/
structure ResetKeeps (host : Host σ) (s : RV32 σ) : Prop where
  reset : IsReset s (rv32Reset s)
  kill : ∀ buffer size, RspStarts 'k' buffer size →
    IsReset s (rspHandlePacket host buffer size s).state
  repeats : Repeats host s

/-- The four bytes behind the header that `sizeof(RV32)` covers are zero, as far as they are RAM. -/
def FirstWordZero (s : RV32 σ) : Prop := ∀ i < 4, i < s.memSize.toNat → s.mem.bytes i = 0

/-- **The RAM after a reset.** -/
theorem rv32Reset_bytes (s : RV32 σ) (i : Nat) :
    (rv32Reset s).mem.bytes i = if i < 4 then 0 else s.mem.bytes i := by
  have hoverlap : offsetofMem + i < sizeofRV32 ↔ i < 4 := by simp only [offsetofMem, sizeofRV32]; omega
  show (if offsetofMem + i < sizeofRV32 then 0 else s.mem.bytes i) = _
  simp only [hoverlap]

theorem rspHandlePacket_kill (host : Host σ) {buffer : Nat → Byte} {size : Nat}
    (h : RspStarts 'k' buffer size) (s : RV32 σ) :
    rspHandlePacket host buffer size s = ⟨.ok .noPacketSent, rv32Reset s, []⟩ := by
  rw [rspHandlePacket_of_starts (by decide) h]
  rfl

/-- The RAM is kept exactly when the bytes the clearing reaches were zero. -/
theorem rv32Reset_ram_iff (s : RV32 σ) :
    (∀ i < s.memSize.toNat, (rv32Reset s).mem.bytes i = s.mem.bytes i) ↔ FirstWordZero s := by
  constructor
  · intro h i hi hlt
    have hbyte := h i hlt
    rw [rv32Reset_bytes, if_pos hi] at hbyte
    exact hbyte.symm
  · intro h i hlt
    rw [rv32Reset_bytes]
    by_cases hi : i < 4
    · rw [if_pos hi, h i hi hlt]
    · rw [if_neg hi]

/-- The rest of the reset does not depend on the program. -/
theorem isReset_iff (s : RV32 σ) : IsReset s (rv32Reset s) ↔ FirstWordZero s := by
  constructor
  · intro h
    exact (rv32Reset_ram_iff s).mp h.ram
  · intro h
    exact
      { pc := rfl
        registers := fun _ => rfl
        csrs := ⟨rfl, rfl, rfl, rfl, rfl, rfl⟩
        interruptController := rfl
        wfi := rfl
        breakpoints := ⟨rfl, fun _ => rfl⟩
        memSize := rfl
        status := rfl
        ram := (rv32Reset_ram_iff s).mpr h }

/-- With the RAM kept, the machine is the one `rv32_new` and the loader made. -/
theorem rv32Reset_eq_boot {s memory : RV32 σ} {image : ByteMem.Mem} (hhost : memory.host = s.host)
    (hbytes : ∀ i, image i = (rv32Reset s).mem.bytes i) :
    rv32Reset s = boot memory s.memSize image := by
  have himage : image = (rv32Reset s).mem.bytes := funext hbytes
  rw [himage, boot, loadProgram, rv32New, hhost]
  rfl

theorem repeats_of_firstWordZero (host : Host σ) {s : RV32 σ} (h : FirstWordZero s) :
    Repeats host s := by
  intro memory image hhost himage hbehind as
  have hbytes : ∀ i, image i = (rv32Reset s).mem.bytes i := by
    intro i
    by_cases hi : i < s.memSize.toNat
    · rw [himage i hi, (rv32Reset_ram_iff s).mpr h i hi]
    · exact hbehind i (Nat.le_of_not_lt hi)
  rw [rv32Reset_eq_boot hhost hbytes]

/-- **Reset keeps the program**, exactly when the program begins with a zero word. -/
theorem resetKeeps_iff (host : Host σ) (s : RV32 σ) : ResetKeeps host s ↔ FirstWordZero s := by
  constructor
  · intro h
    exact (isReset_iff s).mp h.reset
  · intro h
    have hreset : IsReset s (rv32Reset s) := (isReset_iff s).mpr h
    refine ⟨hreset, fun buffer size hk => ?_, repeats_of_firstWordZero host h⟩
    rw [rspHandlePacket_kill host hk]
    exact hreset

/-- The emulator's machine with `addi x0, x0, 0` at address 0 loses it. -/
theorem reset_clears_program :
    ¬ ResetKeeps emulatorHost (emulatorStart [0x00000013]) ∧
      (emulatorStart [0x00000013]).mem.bytes 0 = 0x13 ∧
      (rv32Reset (emulatorStart [0x00000013])).mem.bytes 0 = 0 := by
  have hbefore : (emulatorStart [0x00000013]).mem.bytes 0 = 0x13 := by decide
  refine ⟨fun h => ?_, hbefore, rfl⟩
  have hkept := h.reset.ram 0 (by decide)
  rw [hbefore] at hkept
  exact absurd hkept (by decide)

end Rv32
