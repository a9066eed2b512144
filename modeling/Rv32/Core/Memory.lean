import Rv32.Core.State

/-!
# `Core.Memory` — `rv32_load8/16/32` and `rv32_store8/16/32`

Each helper first tests `addr <= rv32->mem_size - sizeof(type)`, a comparison in `size_t` whose
subtraction wraps, and dereferences `rv32->mem + addr` when it succeeds; on a little-endian host the
dereference is `ByteMem.read`/`ByteMem.write` at that width. When it fails, the access goes to the
callback of its width, the 32-bit ones to the interrupt controller's word first.
-/

namespace Rv32

variable {σ : Type} (host : Host σ) (s : RV32 σ)

/-- `RV32_INTERRUPT_CONTROLLER_ADDRESS` -/
def rv32InterruptControllerAddress : Word := 0x90000000

/-- `rv32->mem_size - n` in the host's `size_t`. -/
def Host.sizeSub (memSize : Word) (n : Nat) : Nat :=
  (memSize.toNat + (2 ^ host.sizeBits - n)) % 2 ^ host.sizeBits

/-- The test `addr <= rv32->mem_size - sizeof(type)` for a type of `n` bytes. -/
def ramGuard (memSize : Word) (n : Nat) (addr : Word) : Prop :=
  addr.toNat ≤ host.sizeSub memSize n

instance (memSize : Word) (n : Nat) (addr : Word) : Decidable (ramGuard host memSize n addr) :=
  inferInstanceAs (Decidable (_ ≤ _))

variable {s} in
/-- Ghost: record that `rv32->mem` is dereferenced at the `n` indices from `addr` on. -/
def RV32.touch (s : RV32 σ) (addr : Word) (n : Nat) : RV32 σ :=
  { s with mem.touched := List.range' addr.toNat n ++ s.mem.touched }

/-- A load of `n` bytes: the RAM branch, or else what `otherwise` answers. -/
def rv32LoadOr (n : Nat) (otherwise : Option (BitVec (8 * n)) × RV32 σ) (addr : Word) :
    Option (BitVec (8 * n)) × RV32 σ :=
  if ramGuard host s.memSize n addr then
    (some (ByteMem.read s.mem.bytes addr.toNat n), s.touch addr n)
  else
    otherwise

def rv32Load8 (addr : Word) : Option (BitVec 8) × RV32 σ :=
  rv32LoadOr host s 1 (host.mmioLoad8 s addr) addr

def rv32Load16 (addr : Word) : Option (BitVec 16) × RV32 σ :=
  rv32LoadOr host s 2 (host.mmioLoad16 s addr) addr

def rv32Load32 (addr : Word) : Option (BitVec 32) × RV32 σ :=
  rv32LoadOr host s 4
    (if addr = rv32InterruptControllerAddress then (some s.interruptController.ie, s)
     else host.mmioLoad32 s addr)
    addr

/-- A store of `n` bytes: the RAM branch, or else what `otherwise` answers. -/
def rv32StoreOr (n : Nat) (otherwise : Rv32Result × RV32 σ) (addr : Word) (val : BitVec (8 * n)) :
    Rv32Result × RV32 σ :=
  if ramGuard host s.memSize n addr then
    (.ok, { s.touch addr n with
            mem.bytes := ByteMem.write s.mem.bytes addr.toNat n val })
  else
    otherwise

def rv32Store8 (addr : Word) (val : BitVec 8) : Rv32Result × RV32 σ :=
  rv32StoreOr host s 1 (host.mmioStore8 s addr val) addr val

def rv32Store16 (addr : Word) (val : BitVec 16) : Rv32Result × RV32 σ :=
  rv32StoreOr host s 2 (host.mmioStore16 s addr val) addr val

def rv32Store32 (addr : Word) (val : BitVec 32) : Rv32Result × RV32 σ :=
  rv32StoreOr host s 4
    (if addr = rv32InterruptControllerAddress then
      (.ok, { s with interruptController.ie := val })
     else host.mmioStore32 s addr val)
    addr val

/-! ## The bounds test -/

variable {host} {memSize : Word} {n : Nat}

/-- The subtraction does not wrap when the RAM holds one value of the type. -/
theorem sizeSub_of_le (hn : 0 < n) (hle : n ≤ memSize.toNat) :
    host.sizeSub memSize n = memSize.toNat - n := by
  have hpow : 2 ^ 32 ≤ 2 ^ host.sizeBits := Nat.pow_le_pow_right (by decide) host.sizeBits_ge
  have hlt : memSize.toNat < 2 ^ 32 := memSize.isLt
  unfold Host.sizeSub
  rw [show memSize.toNat + (2 ^ host.sizeBits - n) = memSize.toNat - n + 2 ^ host.sizeBits by omega,
    Nat.add_mod_right, Nat.mod_eq_of_lt (by omega)]

/-- **The bounds test is exact** as long as one value of the type fits into the RAM. -/
theorem ramGuard_iff (hn : 0 < n) (hle : n ≤ memSize.toNat) (addr : Word) :
    ramGuard host memSize n addr ↔ addr.toNat + n ≤ memSize.toNat := by
  rw [ramGuard, sizeSub_of_le hn hle]
  omega

/-- Address 0 passes the test whatever the size of the RAM. -/
theorem ramGuard_zero : ramGuard host memSize n 0 := Nat.zero_le _

theorem rv32Load32_zero (s : RV32 σ) :
    rv32Load32 host s 0 = (some (ByteMem.read s.mem.bytes 0 4), s.touch 0 4) := by
  rw [rv32Load32, rv32LoadOr, if_pos ramGuard_zero]
  rfl

end Rv32
