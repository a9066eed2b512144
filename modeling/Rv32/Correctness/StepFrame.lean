import Rv32.Core.Effect
import Rv32.Core.Emulator
import Rv32.Isa.Format

/-!
# `Correctness.StepFrame` — what one instruction may change

`StepFrame s instr t` is the frame of a word: `t` differs from `s` in `x[rd]` if the word has an `rd`, in
`x0`, `pc`, `status` and `wfi`, in the bytes a store names, in `ie` if the store goes to the interrupt
controller, and in the CSR the word addresses. Every exit of the `switch(opcode)` is one access or one CSR write, which has its own
frame, followed by an assignment of `rd`, `pc`, `status` and `wfi`, which `StepFrame.core` allows.
-/

namespace Rv32

open Isa

variable {σ : Type} {host : Host σ} {s t u : RV32 σ} {instr : Word}

/-- The number of bytes a store of this `funct3` writes. -/
def storeWidth : BitVec 3 → Option Nat
  | 0b000#3 => some 1   -- sb
  | 0b001#3 => some 2   -- sh
  | 0b010#3 => some 4   -- sw
  | _       => none

/-- `x[rs1] + imm` of a store word. -/
def storeAddress (s : RV32 σ) (instr : Word) : Word :=
  xreg s (rs1Of instr) + (immSOf instr).signExtend 32

/-- The word is a store, and `i` is one of the bytes it names. -/
def StoresByte (s : RV32 σ) (instr : Word) (i : Nat) : Prop :=
  opcodeOf instr = 0b0100011 ∧ ∃ n, storeWidth (funct3Of instr) = some n ∧
    (storeAddress s instr).toNat ≤ i ∧ i < (storeAddress s instr).toNat + n

/-- The word is a 32-bit store to the interrupt controller. -/
def StoresIe (s : RV32 σ) (instr : Word) : Prop :=
  opcodeOf instr = 0b0100011 ∧ funct3Of instr = 0b010 ∧ storeAddress s instr = 0x90000000

/-- The word writes the CSR at address `csr`. -/
def WritesCsr (instr csr : Word) : Prop :=
  (IsCsr instr ∧ immI instr = csr) ∨ (IsMret instr ∧ csr = 0x300#32)

/-- The word has a destination register. Stores, branches, `ecall`, `ebreak`, `mret` and `wfi` have none:
    their bits 11 to 7 are something else. -/
def HasRd (instr : Word) : Prop :=
  IsCompute instr ∨ opcode instr = 0x03#8 ∨ IsCsr instr

/-- `i` is the destination register of the word. -/
def IsRd (instr : Word) (i : Fin 32) : Prop := HasRd instr ∧ i = reg (rdOf instr)

/-- **The frame of a word.** What is not listed may change: `x[rd]`, `x0`, `pc`, `status` and `wfi`. -/
structure StepFrame (s : RV32 σ) (instr : Word) (t : RV32 σ) : Prop where
  r : ∀ i, ¬ IsRd instr i → i ≠ regZero → t.r i = s.r i
  bytes : ∀ i, ¬ StoresByte s instr i → t.mem.bytes i = s.mem.bytes i
  ie : ¬ StoresIe s instr → t.interruptController.ie = s.interruptController.ie
  csr : ∀ csr, ¬ WritesCsr instr csr → rv32ReadCsr t csr = rv32ReadCsr s csr
  ip : t.interruptController.ip = s.interruptController.ip
  memSize : t.memSize = s.memSize
  bpMask : t.bpMask = s.bpMask
  bp : t.bp = s.bp

/-! ## Composing frames -/

theorem StepFrame.of_scratch (h : Scratch s t) : StepFrame s instr t := by
  obtain ⟨touched, h', rfl⟩ := h
  constructor <;> intros <;> rfl

/-- A frame absorbs the assignments an exit ends with. -/
theorem StepFrame.core (h : StepFrame s instr t) {r : Fin 32 → Word}
    (hr : ∀ i, ¬ IsRd instr i → r i = t.r i) (pc : Word) (status : Rv32Status)
    (wfi : BitVec 8) : StepFrame s instr { t with r, pc, status, wfi } :=
  { h with
    r := fun i hrd hzero => (hr i hrd).trans (h.r i hrd hzero)
    csr := fun c hc => h.csr c hc }

theorem StepFrame.retire (h : StepFrame s instr t) (hrd : HasRd instr) (v pc : Word) :
    StepFrame s instr (t.retire (rd instr) v pc) := by
  refine h.core (fun i hi => ?_) pc t.status t.wfi
  have hne : i ≠ rd instr := fun heq => hi ⟨hrd, by rw [← rd_eq]; exact heq⟩
  exact Function.update_of_ne hne _ _

/-- Fetching the word first does not matter: it clears `x0`, which the address of a store reads as 0
    either way. -/
theorem StepFrame.of_fetch (hu : Scratch s u) (h : StepFrame u.resetZero instr t) :
    StepFrame s instr t := by
  obtain ⟨touched, h', rfl⟩ := hu
  have haddr : storeAddress (RV32.resetZero { s with mem.touched := touched, host := h' }) instr =
      storeAddress s instr := by
    unfold storeAddress xreg
    by_cases hrs : rs1Of instr = 0
    · rw [if_pos hrs, if_pos hrs]
    · rw [if_neg hrs, if_neg hrs,
        resetZero_r_of_ne _ (fun hz => hrs ((reg_eq_zero_iff _).mp hz))]
  refine { h with r := ?_, bytes := ?_, ie := ?_ }
  · intro i hrd hzero
    exact (h.r i hrd hzero).trans (resetZero_r_of_ne _ hzero)
  · intro i hi
    exact h.bytes i (by rw [StoresByte, haddr]; exact hi)
  · intro hie
    exact h.ie (by rw [StoresIe, haddr]; exact hie)

/-! ## The accesses -/

theorem opcodeOf_of_store (h : opcode instr = 0x23#8) : opcodeOf instr = 0b0100011 :=
  (Bits.setWidth_inj (by decide) _ _).mp ((opcode_eq instr).symm.trans h)

theorem funct3Of_of {f : BitVec 3} (h : funct3 instr = f.setWidth 8) : funct3Of instr = f :=
  (Bits.setWidth_inj (by decide) _ _).mp ((funct3_eq instr).symm.trans h)

/-- With `x0` cleared, the address the `switch` computes is the address of the word. -/
theorem storeAddr_eq (hzero : s.r regZero = 0) : storeAddr s instr = storeAddress s instr := by
  rw [storeAddr, storeAddress, rs1_eq, sextImmS_eq, xreg]
  split
  · rename_i h
    rw [(reg_eq_zero_iff _).mpr h, hzero]
  · rfl

/-- A store helper of `n` bytes stays within the frame if what it does outside the RAM does. -/
theorem rv32StoreOr_frame {n : Nat} (hop : opcodeOf instr = 0b0100011)
    (hwidth : storeWidth (funct3Of instr) = some n) {otherwise : Rv32Result × RV32 σ}
    (ho : StepFrame s instr otherwise.2) (val : BitVec (8 * n)) :
    StepFrame s instr (rv32StoreOr host s n otherwise (storeAddress s instr) val).2 := by
  unfold rv32StoreOr
  split
  · refine { StepFrame.of_scratch (t := s) ⟨_, _, rfl⟩ with bytes := ?_ }
    intro i hi
    -- outside the bytes of the store the write leaves the old byte
    show ByteMem.write _ _ _ _ i = _
    rw [ByteMem.write_apply, if_neg fun h => hi ⟨hop, n, hwidth, h⟩]
  · exact ho

theorem storeAccess_frame (hpure : host.MmioPure) (hzero : s.r regZero = 0)
    (hop : opcode instr = 0x23#8) {v : Rv32Result} (h : storeAccess host s instr = some (v, t)) :
    StepFrame s instr t := by
  have hmmio : host.MmioRel fun s t => ∀ instr, StepFrame s instr t :=
    hpure.mono fun _ _ hst instr => .of_scratch (hst.elim fun h' heq => ⟨_, h', heq⟩)
  have hop' : opcodeOf instr = 0b0100011 := opcodeOf_of_store hop
  unfold storeAccess at h
  rw [storeAddr_eq hzero] at h
  split at h
  case _ hf =>
    obtain rfl := congrArg Prod.snd (Option.some.inj h)
    have hwidth : storeWidth (funct3Of instr) = some 1 := by rw [funct3Of_of (f := 0b000) hf]; rfl
    exact rv32StoreOr_frame hop' hwidth (hmmio.store8 s _ _ instr) _
  case _ hf =>
    obtain rfl := congrArg Prod.snd (Option.some.inj h)
    have hwidth : storeWidth (funct3Of instr) = some 2 := by rw [funct3Of_of (f := 0b001) hf]; rfl
    exact rv32StoreOr_frame hop' hwidth (hmmio.store16 s _ _ instr) _
  case _ hf =>
    obtain rfl := congrArg Prod.snd (Option.some.inj h)
    have hf3 : funct3Of instr = 0b010 := funct3Of_of hf
    have hwidth : storeWidth (funct3Of instr) = some 4 := by rw [hf3]; rfl
    refine rv32StoreOr_frame hop' hwidth ?_ _
    split
    · rename_i haddr
      refine { StepFrame.of_scratch (t := s) ⟨_, _, rfl⟩ with ie := ?_ }
      intro hie
      exact absurd ⟨hop', hf3, haddr⟩ hie
    · exact hmmio.store32 s _ _ instr
  case _ => cases h

/-! ## The CSR writes -/

theorem rv32WriteCsr_read {csr c : Word} (h : csr ≠ c) (val : Word) :
    rv32ReadCsr (rv32WriteCsr s csr val) c = rv32ReadCsr s c := by
  unfold rv32WriteCsr
  split
  all_goals first | rfl | skip
  -- of the six registers, the one written is not the one read
  all_goals
    unfold rv32ReadCsr
    split <;> first | rfl | exact absurd rfl h

theorem rv32WriteCsr_stepFrame (h : IsCsr instr) (val : Word) :
    StepFrame s instr (rv32WriteCsr s (immI instr) val) := by
  have hcsr : ∀ c, ¬ WritesCsr instr c →
      rv32ReadCsr (rv32WriteCsr s (immI instr) val) c = rv32ReadCsr s c := by
    intro c hc
    exact rv32WriteCsr_read (fun heq => hc (.inl ⟨h, heq⟩)) val
  obtain ⟨_, _, _, _, _, _, hw⟩ := rv32WriteCsr_frame s (immI instr) val
  rw [hw] at hcsr ⊢
  exact { StepFrame.of_scratch (t := s) ⟨_, _, rfl⟩ with csr := hcsr }

theorem mret_stepFrame (h : IsMret instr) (mstatus : Word) :
    StepFrame s instr { s with mstatus := mstatus } := by
  refine { StepFrame.of_scratch (t := s) ⟨_, _, rfl⟩ with csr := ?_ }
  intro c hc
  have hne : c ≠ 0x300#32 := fun heq => hc (.inr ⟨h, heq⟩)
  unfold rv32ReadCsr
  split <;> first | rfl | exact absurd rfl hne

/-! ## The cycle -/

/-- **The frame of the `switch`.** -/
theorem rv32Execute_stepFrame (hpure : host.MmioPure) (hzero : s.r regZero = 0)
    (hecall : ¬ IsEcall instr) : StepFrame s instr (rv32Execute host s instr) := by
  have hself : StepFrame s instr s := .of_scratch (hpure.scratch.refl s)
  have hsame : ∀ (t : RV32 σ) i, ¬ IsRd instr i → t.r i = t.r i := fun _ _ _ => rfl
  generalize ht : rv32Execute host s instr = t
  have hexec : Exec host s instr t := ht ▸ rv32Execute_exec s instr
  cases hexec with
  | invalid => exact hself.core (hsame s) _ _ _
  | compute h v pc => exact hself.retire (.inl h) v pc
  | load h hacc =>
      have hload : StepFrame s instr _ := .of_scratch (loadAccess_rel hpure.scratch hacc)
      exact hload.retire (.inr (.inl h)) _ _
  | loadFault _ hacc =>
      have hload : StepFrame s instr _ := .of_scratch (loadAccess_rel hpure.scratch hacc)
      exact hload.core (hsame _) _ _ _
  | store hop hacc => exact (storeAccess_frame hpure hzero hop hacc).core (hsame _) _ _ _
  | storeFault hop hacc => exact (storeAccess_frame hpure hzero hop hacc).core (hsame _) _ _ _
  | branch pc => exact hself.core (hsame s) pc _ _
  | ecallStop h _ => exact absurd h hecall
  | ecallNext h => exact absurd h hecall
  | ebreak => exact hself.core (hsame s) _ _ _
  | mret h =>
      exact (mret_stepFrame h (csrSetBit s.mstatus csrMstatusMie (csrGetBit s.mstatus csrMstatusMpie))).core
        (hsame s) s.mepc _ _
  | wfi => exact hself.core (hsame s) _ _ _
  | csr h _ => exact (rv32WriteCsr_stepFrame h _).retire (.inr (.inr h)) _ _

/-- **The frame of a cycle.** A cycle that takes no trap and executes a word other than `ecall` changes
    what the frame of the word allows, and nothing else. -/
theorem rv32Cycle_stepFrame (host : Host σ) (hpure : host.MmioPure) (s : RV32 σ) (instr : Word)
    (htrap : trapTaken s = none) (hfetch : (rv32Fetch host s).1 = some instr)
    (hecall : ¬ IsEcall instr) : StepFrame s instr (rv32Cycle host s) := by
  obtain ⟨u, hu⟩ : ∃ u, rv32Fetch host s = (some instr, u) := ⟨_, Prod.ext hfetch rfl⟩
  obtain ⟨-, v, hload, rfl⟩ := rv32Fetch_some hu
  have hscratch := rv32Load32_rel hpure.scratch (rv32HandleInterrupt s) (rv32HandleInterrupt s).pc
  rw [hload, ← cycleInterrupt_eq, cycleInterrupt_of_none htrap] at hscratch
  rw [rv32Cycle_of_fetch host hu]
  exact (rv32Execute_stepFrame hpure (resetZero_r_zero v) hecall).of_fetch hscratch

/-- The emulator on `csrrw x5, mepc, x6`. -/
theorem rv32Cycle_stepFrame_emulator :
    StepFrame (emulatorStart [0x341312f3]) 0x341312f3
      (rv32Cycle emulatorHost (emulatorStart [0x341312f3])) :=
  rv32Cycle_stepFrame emulatorHost emulatorHost_mmioPure _ _ (by decide) (by decide) (by decide)

end Rv32
