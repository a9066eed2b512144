import Mathlib.Logic.Function.Basic
import Rv32.Lib.ByteMem

/-!
# `Core.State` — the `RV32` struct, its host, and its creation

The struct is the one of `rv32.h`, field by field; an array slot is a function of its index, a C integer
is the `BitVec` of its width. Two things stand beside it.

* `Host σ` is the code that is linked in and not part of the emulator: the six `mmio_*` callbacks and
  `ecall`. A callback receives the whole struct and may return another one. `σ` is whatever state the
  host keeps for itself; it travels in the field `host`, which no function of the emulator reads.
* `Ram.touched` is ghost state: the indices at which the emulator has dereferenced `rv32->mem`, most
  recent first. No function reads it.

The width of the host's `size_t` is a parameter of `Host`, because the bounds checks of the load and
store helpers are done in that type.
-/

namespace Rv32

abbrev Word := BitVec 32
abbrev Byte := BitVec 8

/-- `rv32_status_t` -/
inductive Rv32Status where
  | running
  | halted
  | paused
  | ebreak
  | invalidInstruction
  | invalidMemoryAccess
  deriving DecidableEq, Repr

/-- `rv32_result_t` -/
inductive Rv32Result where
  | ok
  | err
  deriving DecidableEq, Repr

/-- The bytes behind `mem[1]`: the RAM proper is the indices below `memSize`. -/
structure Ram where
  bytes : ByteMem.Mem
  touched : List Nat := []

/-- The anonymous struct `interrupt_controller`. -/
structure InterruptController where
  ie : Word   -- interrupt enabled
  ip : Word   -- interrupt pending
  deriving DecidableEq, Repr

structure RV32 (σ : Type) where
  memSize : Word
  status : Rv32Status
  bpMask : BitVec 8            -- breakpoint enabled if bit enabled
  bp : Fin 8 → Word
  r : Fin 32 → Word
  pc : Word
  mstatus : Word
  mie : Word
  mip : Word
  mtvec : Word
  mepc : Word
  mcause : Word
  wfi : BitVec 8
  interruptController : InterruptController
  mem : Ram
  host : σ

/-- `REG_ZERO` -/
abbrev regZero : Fin 32 := 0

/-- `REG_A0` -/
abbrev regA0 : Fin 32 := 10

/-- `REG_A7` -/
abbrev regA7 : Fin 32 := 17

variable {σ : Type}

/-- The functions the embedding program supplies. A load callback answers `none` for `RV32_ERR` and
    `some v` for `RV32_OK` with `v` stored through its pointer. -/
structure Host (σ : Type) where
  mmioLoad8 : RV32 σ → Word → Option (BitVec 8) × RV32 σ
  mmioLoad16 : RV32 σ → Word → Option (BitVec 16) × RV32 σ
  mmioLoad32 : RV32 σ → Word → Option (BitVec 32) × RV32 σ
  mmioStore8 : RV32 σ → Word → BitVec 8 → Rv32Result × RV32 σ
  mmioStore16 : RV32 σ → Word → BitVec 16 → Rv32Result × RV32 σ
  mmioStore32 : RV32 σ → Word → BitVec 32 → Rv32Result × RV32 σ
  ecall : RV32 σ → RV32 σ
  sizeBits : Nat := 64
  sizeBits_ge : 32 ≤ sizeBits := by decide

/-- Every `mmio_*` callback relates the struct it returns to the struct it was given by `R`. -/
structure Host.MmioRel (host : Host σ) (R : RV32 σ → RV32 σ → Prop) : Prop where
  load8 : ∀ s addr, R s (host.mmioLoad8 s addr).2
  load16 : ∀ s addr, R s (host.mmioLoad16 s addr).2
  load32 : ∀ s addr, R s (host.mmioLoad32 s addr).2
  store8 : ∀ s addr v, R s (host.mmioStore8 s addr v).2
  store16 : ∀ s addr v, R s (host.mmioStore16 s addr v).2
  store32 : ∀ s addr v, R s (host.mmioStore32 s addr v).2

/-- So do they all, `ecall` included. -/
structure Host.Within (host : Host σ) (R : RV32 σ → RV32 σ → Prop) : Prop
    extends host.MmioRel R where
  ecall : ∀ s, R s (host.ecall s)

/-- The callbacks do not modify the `RV32` struct (they may change the host's own state). -/
def Host.MmioPure (host : Host σ) : Prop := host.MmioRel fun s t => ∃ h, t = { s with host := h }

theorem Host.MmioRel.mono {host : Host σ} {R Q : RV32 σ → RV32 σ → Prop} (h : host.MmioRel R)
    (hRQ : ∀ s t, R s t → Q s t) : host.MmioRel Q where
  load8 s addr := hRQ _ _ (h.load8 s addr)
  load16 s addr := hRQ _ _ (h.load16 s addr)
  load32 s addr := hRQ _ _ (h.load32 s addr)
  store8 s addr v := hRQ _ _ (h.store8 s addr v)
  store16 s addr v := hRQ _ _ (h.store16 s addr v)
  store32 s addr v := hRQ _ _ (h.store32 s addr v)

/-! ## Creation

`rv32_new` clears `sizeof(RV32)` bytes from the start of the storage it is given. With the fields at
their C offsets, `mem[1]` sits at offset 212 and three bytes of padding follow it, so the clearing also
covers the first four bytes of the RAM. -/

/-- `offsetof(RV32, mem)` -/
def offsetofMem : Nat := 212

/-- `sizeof(RV32)` -/
def sizeofRV32 : Nat := 216

/-- `rv32_new` on the storage `memory`, whatever it held. -/
def rv32New (memory : RV32 σ) (memSize : Word) : RV32 σ where
  memSize := memSize
  status := .paused
  bpMask := 0
  bp := fun _ => 0
  r := fun _ => 0
  pc := 0
  mstatus := 0
  mie := 0
  mip := 0
  mtvec := 0
  mepc := 0
  mcause := 0
  wfi := 0
  interruptController := { ie := 0, ip := 0 }
  mem := { bytes := fun i => if offsetofMem + i < sizeofRV32 then 0 else memory.mem.bytes i }
  host := memory.host

/-- What a loader does between `rv32_new` and the first cycle: it puts a program image into the RAM. -/
def loadProgram (s : RV32 σ) (image : ByteMem.Mem) : RV32 σ := { s with mem.bytes := image }

/-- `rv32_resume` -/
def rv32Resume (s : RV32 σ) : RV32 σ :=
  if s.status = .paused then { s with status := .running } else s

end Rv32
