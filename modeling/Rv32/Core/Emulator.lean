import Rv32.Core.Cycle

/-!
# `Core.Emulator` — the host of `examples/embedding`

The command-line emulator of the repository: no readable devices, one writable byte at `0x80000000`, and
three `ecall`s. It is the host on which statements about every host are instantiated.
-/

namespace Rv32

/-- One `printf` of the emulator: a character or a decimal line. -/
inductive Output where
  | char (c : Byte)
  | int (n : Word)
  deriving DecidableEq, Repr

/-- The callbacks of `emulator.c` and the `ecall` of `ecall.c`; the host's state is what it printed. -/
def emulatorHost : Host (List Output) where
  mmioLoad8 s _ := (none, s)
  mmioLoad16 s _ := (none, s)
  mmioLoad32 s _ := (none, s)
  mmioStore8 s addr val :=
    if addr = 0x80000000 then (.ok, { s with host := s.host ++ [.char val] }) else (.err, s)
  mmioStore16 s _ _ := (.err, s)
  mmioStore32 s _ _ := (.err, s)
  ecall s :=
    match s.r regA7 with
    | 1#32 => { s with host := s.host ++ [.char ((s.r regA0).setWidth 8)] }
    | 2#32 => { s with host := s.host ++ [.int (s.r regA0)] }
    | 93#32 => { s with status := .halted }
    | _ => s

/-- The emulator's callbacks do not modify the struct. -/
theorem emulatorHost_mmioPure : emulatorHost.MmioPure where
  load8 s _ := ⟨s.host, rfl⟩
  load16 s _ := ⟨s.host, rfl⟩
  load32 s _ := ⟨s.host, rfl⟩
  store8 s addr val := by
    simp only [emulatorHost]
    split
    · exact ⟨_, rfl⟩
    · exact ⟨_, rfl⟩
  store16 s _ _ := ⟨s.host, rfl⟩
  store32 s _ _ := ⟨s.host, rfl⟩

/-- The emulator's `ecall` touches no field but the status. -/
theorem emulatorHost_ecall (s : RV32 (List Output)) :
    ∃ status h, emulatorHost.ecall s = { s with status := status, host := h } := by
  unfold emulatorHost
  simp only
  split <;> exact ⟨_, _, rfl⟩

/-- So the emulator is within every relation that allows the two. -/
theorem emulatorHost_within {R : RV32 (List Output) → RV32 (List Output) → Prop}
    (hR : ∀ s status h, R s { s with status := status, host := h }) : emulatorHost.Within R where
  toMmioRel := emulatorHost_mmioPure.mono fun s _ ⟨h, heq⟩ => heq ▸ hR s s.status h
  ecall s := by
    obtain ⟨status, h, heq⟩ := emulatorHost_ecall s
    rw [heq]; exact hR s status h

/-- The program of the words `ws` from address 0 on. -/
def imageOf (ws : List Word) : ByteMem.Mem :=
  fun i => ((ws.getD (i / 4) 0) >>> (8 * (i % 4))).setWidth 8

/-- Storage as `malloc` may return it, all bytes zero. -/
def zeroStorage : RV32 (List Output) where
  memSize := 0
  status := .running
  bpMask := 0
  bp := fun _ => 0
  r := fun _ => 0
  pc := 0
  mstatus := 0
  mie := 0
  mip := 0
  mtvec := 0
  mepc := 0
  mcause := 0
  wfi := 0
  interruptController := { ie := 0, ip := 0 }
  mem := { bytes := fun _ => 0 }
  host := []

/-- The machine `main` of `emulator.c` enters its loop with. -/
def emulatorStart (ws : List Word) : RV32 (List Output) :=
  { boot zeroStorage 0x20000004 (imageOf ws) with status := .running }

end Rv32
