import Rv32.Core.State
import Rv32.Lib.Bits

/-!
# `Core.Csr` — the bit macros, `rv32_read_csr` and `rv32_write_csr`

The macros take a mask apart with shifts; each gets one lemma that says what it does to the bits
(`csrGetBit_ne_zero`, `getLsbD_csrSetBit`), and nothing after this module looks at a shift again.
-/

namespace Rv32

/-- `CSR_GET_BIT` -/
def csrGetBit (csr : Word) (bit : Nat) : Word := csr >>> bit &&& 1

/-- `CSR_SET_BIT`; `!!val` is 0 or 1. -/
def csrSetBit (csr : Word) (bit : Nat) (val : Word) : Word :=
  (csr &&& ~~~(1#32 <<< bit)) ||| ((if val ≠ 0 then 1#32 else 0) <<< bit)

-- mstatus
def csrMstatusMie : Nat := 3
def csrMstatusMpie : Nat := 7

-- mie
def csrMieMsie : Nat := 3    -- machine software interrupt enable
def csrMieMtie : Nat := 7    -- machine timer interrupt enable
def csrMieMeie : Nat := 11   -- machine external interrupt enable

-- mip
def csrMipMeip : Nat := 11

-- mcause
def csrMcauseInterrupt : Word := 1#32 <<< 31
def csrMcauseMsi : Word := 0x80000003
def csrMcauseMti : Word := 0x80000007

variable {σ : Type}

def rv32ReadCsr (s : RV32 σ) (csr : Word) : Word :=
  match csr with
  | 0x300#32 => s.mstatus
  | 0x304#32 => s.mie
  | 0x305#32 => s.mtvec
  | 0x341#32 => s.mepc
  | 0x342#32 => s.mcause
  | 0x344#32 => s.mip
  | _ => 0

def rv32WriteCsr (s : RV32 σ) (csr val : Word) : RV32 σ :=
  match csr with
  | 0x300#32 => { s with mstatus := val }
  | 0x304#32 => { s with mie := val }
  | 0x305#32 => { s with mtvec := val }
  | 0x341#32 => { s with mepc := val }
  | 0x342#32 => { s with mcause := val }
  | 0x344#32 => { s with mip := val }
  | _ => s

/-! ## The macros, bit by bit -/

theorem csrGetBit_ne_zero (csr : Word) (bit : Nat) :
    csrGetBit csr bit ≠ 0 ↔ csr.getLsbD bit = true :=
  Bits.shiftRight_and_one_ne_zero csr bit

theorem csrGetBit_eq_zero (csr : Word) (bit : Nat) :
    csrGetBit csr bit = 0 ↔ csr.getLsbD bit = false := by
  rw [← not_iff_not, ← ne_eq, csrGetBit_ne_zero, Bool.not_eq_false]

theorem getLsbD_csrSetBit (csr : Word) {bit : Nat} (hbit : bit < 32) (val : Word) (i : Nat) :
    (csrSetBit csr bit val).getLsbD i = if i = bit then decide (val ≠ 0) else csr.getLsbD i := by
  unfold csrSetBit
  by_cases hval : val ≠ 0
  · rw [if_pos hval, Bits.getLsbD_set, Bits.getLsbD_clear]
    by_cases hi : i = bit
    · simp only [hi, hbit]; simpa using hval
    · simp [hi]
  · rw [if_neg hval, BitVec.getLsbD_or, Bits.getLsbD_clear]
    by_cases hi : i = bit
    · simp only [hi]; simpa using hval
    · simp [hi]

/-! ## What a CSR write leaves alone -/

/-- A CSR write touches the six CSRs only. -/
theorem rv32WriteCsr_frame (s : RV32 σ) (csr val : Word) :
    ∃ mstatus mie mtvec mepc mcause mip, rv32WriteCsr s csr val =
      { s with mstatus, mie, mtvec, mepc, mcause, mip } := by
  unfold rv32WriteCsr
  split <;> exact ⟨_, _, _, _, _, _, rfl⟩

theorem rv32WriteCsr_mstatus {s : RV32 σ} {csr : Word} (h : csr ≠ 0x300#32) (val : Word) :
    (rv32WriteCsr s csr val).mstatus = s.mstatus := by
  unfold rv32WriteCsr
  split <;> first | rfl | exact absurd rfl h

theorem rv32WriteCsr_mepc {s : RV32 σ} {csr : Word} (h : csr ≠ 0x341#32) (val : Word) :
    (rv32WriteCsr s csr val).mepc = s.mepc := by
  unfold rv32WriteCsr
  split <;> first | rfl | exact absurd rfl h

theorem rv32WriteCsr_mip (s : RV32 σ) (csr val : Word) :
    (rv32WriteCsr s csr val).mip = if csr = 0x344#32 then val else s.mip := by
  by_cases h : csr = 0x344#32
  · subst h; rfl
  · rw [if_neg h]
    unfold rv32WriteCsr
    split <;> first | rfl | exact absurd rfl h

end Rv32
