import Rv32.Core.Effect
import Rv32.Core.Emulator
import Rv32.Isa.Operations

/-!
# `Isa.Refinement` — a cycle takes the step of the instruction

`hart` is the abstraction: what of the machine the instructions see. `Instr.emulate` is what the emulator
makes of an instruction, and `rv32Cycle_emulate` proves it for every cycle that executes the encoding of
one. It is `Instr.exec`, the meaning of the ISA, but for two instructions (`emulate_eq_exec_iff`): `jal`
over more than half of its range, and `sltiu` with a negative immediate.
-/

namespace Rv32
namespace Isa

variable {σ : Type} {host : Host σ} {s t u : RV32 σ}

/-! ## The hart of a machine -/

def cellValue (s : RV32 σ) : Cell → Word
  | .mstatus => s.mstatus
  | .mie     => s.mie
  | .mtvec   => s.mtvec
  | .mepc    => s.mepc
  | .mcause  => s.mcause
  | .mip     => s.mip

def hart (s : RV32 σ) : Hart where
  x := xreg s
  pc := s.pc
  csr := cellValue s
  x_zero := if_pos rfl

@[simp] theorem hart_x (s : RV32 σ) (i : BitVec 5) : (hart s).x i = xreg s i := rfl

@[simp] theorem hart_pc (s : RV32 σ) : (hart s).pc = s.pc := rfl

/-- What is known of the hart, register by register. -/
theorem xreg_of_hart {h : Hart} (heq : hart s = h) (i : BitVec 5) : xreg s i = h.x i := by
  rw [← heq, hart_x]

theorem pc_of_hart {h : Hart} (heq : hart s = h) : s.pc = h.pc := by
  rw [← heq, hart_pc]

theorem reg_inj {i j : BitVec 5} : reg i = reg j ↔ i = j := by
  constructor
  · intro h
    exact BitVec.eq_of_toNat_eq (congrArg Fin.val h)
  · rintro rfl; rfl

theorem xreg_resetZero (s : RV32 σ) (i : BitVec 5) : xreg s.resetZero i = xreg s i := by
  rw [xreg, resetZero_r_reg, xreg]
  split <;> rfl

theorem xreg_retire (s : RV32 σ) (rd : BitVec 5) (v pc : Word) (i : BitVec 5) :
    xreg (s.retire (reg rd) v pc) i = if i = 0 then 0 else if i = rd then v else xreg s i := by
  unfold xreg RV32.retire
  by_cases hi : i = 0
  · rw [if_pos hi, if_pos hi]
  rw [if_neg hi, if_neg hi, if_neg hi]
  by_cases hrd : i = rd
  · rw [if_pos hrd, hrd]
    exact Function.update_self _ _ _
  · rw [if_neg hrd]
    exact Function.update_of_ne (fun h => hrd (reg_inj.mp h)) _ _

theorem hart_resetZero (s : RV32 σ) : hart s.resetZero = hart s := by
  apply Hart.ext
  · funext i
    exact xreg_resetZero s i
  · rfl
  · rfl

theorem hart_retire (s : RV32 σ) (rd : BitVec 5) (v pc : Word) :
    hart (s.retire (reg rd) v pc) = (hart s).retire rd v pc := by
  apply Hart.ext
  · funext i
    exact xreg_retire s rd v pc i
  · rfl
  · rfl

theorem hart_of_scratch (h : Scratch s t) : hart t = hart s := by
  obtain ⟨_, _, rfl⟩ := h
  rfl

/-! ## The CSRs of a machine -/

def writeCell (s : RV32 σ) (v : Word) : Cell → RV32 σ
  | .mstatus => { s with mstatus := v }
  | .mie     => { s with mie := v }
  | .mtvec   => { s with mtvec := v }
  | .mepc    => { s with mepc := v }
  | .mcause  => { s with mcause := v }
  | .mip     => { s with mip := v }

theorem hart_writeCell (s : RV32 σ) (v : Word) (c : Cell) :
    hart (writeCell s v c) = { hart s with csr := Function.update (hart s).csr c v } := by
  apply Hart.ext
  · cases c <;> rfl
  · cases c <;> rfl
  · funext d
    cases c <;> cases d <;> rfl

/-- The `switch`es compare the number as a 32-bit word. -/
theorem setWidth_ne_number {csr : BitVec 12} (h : Cell.ofNumber csr = none) (c : Cell) :
    csr.setWidth 32 ≠ c.number.setWidth 32 := by
  intro heq
  exact Cell.number_ne_of_ofNumber h c ((Bits.setWidth_inj (by decide) _ _).mp heq)

/-- `rv32_read_csr` is the cell with the number, and 0 for the other numbers. -/
theorem rv32ReadCsr_eq (s : RV32 σ) (csr : BitVec 12) :
    rv32ReadCsr s (csr.setWidth 32) = (hart s).readCsr csr := by
  unfold Hart.readCsr
  cases h : Cell.ofNumber csr with
  | some c =>
      obtain rfl := Cell.number_of_ofNumber h
      cases c <;> rfl
  | none =>
      have hne := setWidth_ne_number h
      unfold rv32ReadCsr
      split
      case _ heq => exact absurd heq (hne .mstatus)
      case _ heq => exact absurd heq (hne .mie)
      case _ heq => exact absurd heq (hne .mtvec)
      case _ heq => exact absurd heq (hne .mepc)
      case _ heq => exact absurd heq (hne .mcause)
      case _ heq => exact absurd heq (hne .mip)
      case _ => rfl

/-- `rv32_write_csr` knows the same numbers. -/
theorem rv32WriteCsr_eq (s : RV32 σ) (csr : BitVec 12) (v : Word) :
    rv32WriteCsr s (csr.setWidth 32) v = ((Cell.ofNumber csr).map (writeCell s v)).getD s := by
  cases h : Cell.ofNumber csr with
  | some c =>
      obtain rfl := Cell.number_of_ofNumber h
      cases c <;> rfl
  | none =>
      have hne := setWidth_ne_number h
      unfold rv32WriteCsr
      split
      case _ heq => exact absurd heq (hne .mstatus)
      case _ heq => exact absurd heq (hne .mie)
      case _ heq => exact absurd heq (hne .mtvec)
      case _ heq => exact absurd heq (hne .mepc)
      case _ heq => exact absurd heq (hne .mcause)
      case _ heq => exact absurd heq (hne .mip)
      case _ => rfl

theorem hart_writeCsr (s : RV32 σ) (csr : BitVec 12) (v : Word) :
    hart (rv32WriteCsr s (csr.setWidth 32) v) = (hart s).writeCsr csr v := by
  rw [rv32WriteCsr_eq, Hart.writeCsr]
  cases Cell.ofNumber csr with
  | some c => exact hart_writeCell s v c
  | none => rfl

/-! ## The `switch` on an encoding -/

section Execute

/-- With `x0` cleared, the slot of a field holds what the field reads. -/
theorem r_reg (hzero : s.r regZero = 0) (i : BitVec 5) : s.r (reg i) = xreg s i := by
  unfold xreg
  split
  · rename_i hi
    rw [(reg_eq_zero_iff i).mpr hi, hzero]
  · rfl

theorem rv32Execute_regReg (s : RV32 σ) (op : RegOp) (rd rs1 rs2 : BitVec 5) :
    rv32Execute host s (Instr.regReg op rd rs1 rs2).encode =
      s.retire (reg rd) (op.eval (s.r (reg rs1)) (s.r (reg rs2))) (s.pc + 4) := by
  simp only [rv32Execute, Instr.encode, opcode_eq, opcodeOf_encodeR, BitVec.reduceSetWidth, execOp,
    funct7_eq, funct3_eq, rs1_eq, rs2_eq, rd_eq, funct7Of_encodeR, funct3Of_encodeR, rs1Of_encodeR,
    rs2Of_encodeR, rdOf_encodeR, opResult_eval]

theorem rv32Execute_regImm (s : RV32 σ) (op : ImmOp) (rd rs1 : BitVec 5) (imm : BitVec 12) :
    rv32Execute host s (Instr.regImm op rd rs1 imm).encode =
      s.retire (reg rd) (op.emulated (s.r (reg rs1)) imm) (s.pc + 4) := by
  simp only [rv32Execute, Instr.encode, opcode_eq, opcodeOf_encodeI, BitVec.reduceSetWidth, execOpImm,
    opImmResult_encodeI, rs1_eq, rd_eq, rs1Of_encodeI, rdOf_encodeI]

theorem rv32Execute_regShift (s : RV32 σ) (op : ShiftOp) (rd rs1 shamt : BitVec 5) :
    rv32Execute host s (Instr.regShift op rd rs1 shamt).encode =
      s.retire (reg rd) (op.regOp.eval (s.r (reg rs1)) (shamt.setWidth 32)) (s.pc + 4) := by
  simp only [rv32Execute, Instr.encode, opcode_eq, opcodeOf_encodeR, BitVec.reduceSetWidth, execOpImm,
    opImmResult_encodeR, rs1_eq, rd_eq, rs1Of_encodeR, rdOf_encodeR]

theorem rv32Execute_branch (s : RV32 σ) (op : BranchOp) (rs1 rs2 : BitVec 5) (imm : BitVec 12) :
    rv32Execute host s (Instr.branch op rs1 rs2 imm).encode =
      { s with pc := s.pc + if op.Taken (s.r (reg rs1)) (s.r (reg rs2)) then offset imm else 4 } := by
  simp only [rv32Execute, Instr.encode, opcode_eq, opcodeOf_encodeB, BitVec.reduceSetWidth, execBranch,
    funct3_eq, funct3Of_encodeB, rs1_eq, rs2_eq, rs1Of_encodeB, rs2Of_encodeB, branchTaken_eval,
    sextImmB_eq, immBOf_encodeB]
  by_cases htaken : op.Taken (s.r (reg rs1)) (s.r (reg rs2))
  · rw [decide_eq_true htaken, if_pos htaken]
    rfl
  · rw [decide_eq_false htaken, if_neg htaken]

theorem rv32Execute_jal (s : RV32 σ) (rd : BitVec 5) (imm : BitVec 20) :
    rv32Execute host s (Instr.jal rd imm).encode =
      s.retire (reg rd) (s.pc + 4) (s.pc + emulatedOffset imm) := by
  simp only [rv32Execute, Instr.encode, opcode_eq, opcodeOf_encodeJ, BitVec.reduceSetWidth, rd_eq,
    rdOf_encodeJ, sextImmJ, immJ_eq, immJOf_encodeJ, emulatedOffset]

theorem rv32Execute_jalr (s : RV32 σ) (rd rs1 : BitVec 5) (imm : BitVec 12) :
    rv32Execute host s (Instr.jalr rd rs1 imm).encode =
      s.retire (reg rd) (s.pc + 4) ((s.r (reg rs1) + imm.signExtend 32) &&& ~~~1#32) := by
  simp only [rv32Execute, Instr.encode, opcode_eq, opcodeOf_encodeI, BitVec.reduceSetWidth, rd_eq,
    rs1_eq, rdOf_encodeI, rs1Of_encodeI, sextImmI_eq, immIOf_encodeI]

/-- `SEXT_IMM_U << 12` is the field followed by zeros; what `SEXT` added is shifted out. -/
theorem sextImmU_shiftLeft (w : Word) : sextImmU w <<< 12 = upper (immUOf w) := by
  apply BitVec.eq_of_getLsbD_eq
  intro i hi
  rw [sextImmU_eq, upper, BitVec.getLsbD_shiftLeft, BitVec.getLsbD_append, BitVec.getLsbD_signExtend]
  by_cases h12 : i < 12
  · simp [h12]
  · simp [hi, h12, show i - 12 < 32 by omega, show i - 12 < 20 by omega]

theorem rv32Execute_lui (s : RV32 σ) (rd : BitVec 5) (imm : BitVec 20) :
    rv32Execute host s (Instr.lui rd imm).encode = s.retire (reg rd) (upper imm) (s.pc + 4) := by
  simp only [rv32Execute, Instr.encode, opcode_eq, opcodeOf_encodeU, BitVec.reduceSetWidth, rd_eq,
    rdOf_encodeU, sextImmU_shiftLeft, immUOf_encodeU]

theorem rv32Execute_auipc (s : RV32 σ) (rd : BitVec 5) (imm : BitVec 20) :
    rv32Execute host s (Instr.auipc rd imm).encode =
      s.retire (reg rd) (s.pc + upper imm) (s.pc + 4) := by
  simp only [rv32Execute, Instr.encode, opcode_eq, opcodeOf_encodeU, BitVec.reduceSetWidth, rd_eq,
    rdOf_encodeU, sextImmU_shiftLeft, immUOf_encodeU]

theorem isCsr_encode (op : CsrOp) (rd src : BitVec 5) (csr : BitVec 12) :
    IsCsr (Instr.zicsr op rd src csr).encode := by
  constructor
  · rw [Instr.encode, opcode_eq, opcodeOf_encodeI]; rfl
  · rw [Instr.encode, funct3_eq, funct3Of_encodeI]
    cases op <;> decide

theorem rv32Execute_zicsr (s : RV32 σ) (hzero : s.r regZero = 0) (op : CsrOp) (rd src : BitVec 5)
    (csr : BitVec 12) :
    rv32Execute host s (Instr.zicsr op rd src csr).encode =
      (rv32WriteCsr s (csr.setWidth 32)
        (op.eval ((hart s).readCsr csr) ((hart s).csrSource op src))).retire (reg rd)
          ((hart s).readCsr csr) (s.pc + 4) := by
  have hwrite : csrWritten s (Instr.zicsr op rd src csr).encode =
      some (op.eval ((hart s).readCsr csr) ((hart s).csrSource op src)) := by
    have hfield : BitVec.ofNat 32 (reg src).val = src.setWidth 32 := BitVec.ofNat_toNat 32 src
    simp only [csrWritten, Instr.encode, funct3_eq, funct3Of_encodeI, immI_eq, immIOf_encodeI, rs1_eq,
      rs1Of_encodeI, rv32ReadCsr_eq, r_reg hzero, hfield]
    exact csrWriteValue_eval (hart s) op src _
  obtain ⟨_, _, _, _, _, _, hframe⟩ := rv32WriteCsr_frame s (csr.setWidth 32)
    (op.eval ((hart s).readCsr csr) ((hart s).csrSource op src))
  rw [rv32Execute_csr (isCsr_encode op rd src csr) hwrite]
  simp only [Instr.encode, immI_eq, immIOf_encodeI, rd_eq, rdOf_encodeI, rv32ReadCsr_eq]
  rw [hframe]

end Execute

/-! ## A cycle -/

/-- The cycle gets to the `switch` with the word `w`; the fetch leaves the struct alone. -/
structure Executes (host : Host σ) (s : RV32 σ) (w : Word) : Prop extends Ready s where
  fetches : ∃ u, rv32Load32 host s s.pc = (some w, u) ∧ Scratch s u

/-- A word in the RAM is fetched without a callback. -/
theorem Executes.of_ram {w : Word} (h : Ready s) (hin : s.pc.toNat + 4 ≤ s.memSize.toNat)
    (hword : ByteMem.read s.mem.bytes s.pc.toNat 4 = w) : Executes host s w where
  toReady := h
  fetches := by
    refine ⟨s.touch s.pc 4, ?_, ⟨_, s.host, rfl⟩⟩
    rw [rv32Load32, rv32LoadOr, if_pos ((ramGuard_iff (by decide) (by omega) _).mpr hin)]
    exact congrArg (fun v => (some v, _)) hword

/-- The emulator with the registers `r`. -/
def emulatorWith (r : Fin 32 → Word) (ws : List Word) : RV32 (List Output) :=
  { emulatorStart ws with r := r }

/-- The emulator executes the word at address 0. -/
theorem executes_emulatorWith {w : Word} (r : Fin 32 → Word) (ws : List Word)
    (hword : ByteMem.read (imageOf (w :: ws)) 0 4 = w) :
    Executes emulatorHost (emulatorWith r (w :: ws)) w := by
  have hmie : csrGetBit 0 csrMstatusMie = 0 := by decide
  have hready : Ready (emulatorWith r (w :: ws)) := by
    refine ⟨⟨rfl, rfl, ?_⟩, trapTaken_of_mie hmie⟩
    exact fun h => h.1 rfl
  have hin : (0 : Word).toNat + 4 ≤ (0x20000004 : Word).toNat := by decide
  exact Executes.of_ram hready hin hword

theorem executes_emulatorStart {w : Word} (ws : List Word)
    (hword : ByteMem.read (imageOf (w :: ws)) 0 4 = w) :
    Executes emulatorHost (emulatorStart (w :: ws)) w := executes_emulatorWith _ ws hword

/-- The emulator with `a` in `x5` and `b` in `x6`. -/
def operandPair (a b : Word) (ws : List Word) : RV32 (List Output) :=
  emulatorWith (Function.update (Function.update (fun _ => 0) (reg 5) a) (reg 6) b) ws

/-- What the instructions of a hart do not see is the same. -/
def SameOutside (s t : RV32 σ) : Prop :=
  ∃ r pc mstatus mie mip mtvec mepc mcause touched h,
    t = { s with r, pc, mstatus, mie, mip, mtvec, mepc, mcause, mem.touched := touched, host := h }

theorem SameOutside.status (h : SameOutside s t) : t.status = s.status := by
  obtain ⟨_, _, _, _, _, _, _, _, _, _, rfl⟩ := h
  rfl

theorem SameOutside.refl (s : RV32 σ) : SameOutside s s := ⟨_, _, _, _, _, _, _, _, _, _, rfl⟩

theorem SameOutside.trans (hst : SameOutside s t) (htu : SameOutside t u) : SameOutside s u := by
  obtain ⟨_, _, _, _, _, _, _, _, _, _, rfl⟩ := hst
  obtain ⟨_, _, _, _, _, _, _, _, _, _, rfl⟩ := htu
  exact ⟨_, _, _, _, _, _, _, _, _, _, rfl⟩

theorem SameOutside.retire (s : RV32 σ) (rd : Fin 32) (v pc : Word) : SameOutside s (s.retire rd v pc) :=
  ⟨_, _, _, _, _, _, _, _, _, _, rfl⟩

theorem SameOutside.writeCsr (s : RV32 σ) (addr v : Word) : SameOutside s (rv32WriteCsr s addr v) := by
  obtain ⟨_, _, _, _, _, _, hframe⟩ := rv32WriteCsr_frame s addr v
  rw [hframe]
  exact ⟨_, _, _, _, _, _, _, _, _, _, rfl⟩

/-- With interrupts masked and no breakpoint set, nothing stops the next cycle before its fetch. -/
theorem SameOutside.ready (h : SameOutside s t) (hready : Ready s) (hbp : s.bpMask = 0)
    (hmie : csrGetBit ((hart t).csr .mstatus) csrMstatusMie = 0) : Ready t := by
  obtain ⟨_, _, _, _, _, _, _, _, _, _, rfl⟩ := h
  refine ⟨⟨hready.wfi, hready.running, ?_⟩, trapTaken_of_mie hmie⟩
  exact fun hhit => hhit.1 hbp

/-- What the emulator makes of an instruction. -/
def Instr.emulate (h : Hart) : Instr → Option Hart
  | .regImm op rd rs1 imm => some (h.retire rd (op.emulated (h.x rs1) imm) (h.pc + 4))
  | .jal rd imm           => some (h.retire rd (h.pc + 4) (h.pc + emulatedOffset imm))
  | i                     => i.exec h

/-- **The `switch` on the encoding of an instruction**, one case per constructor. -/
theorem rv32Execute_emulate (hzero : s.r regZero = 0) {i : Instr} {g : Hart}
    (hg : i.emulate (hart s) = some g) :
    hart (rv32Execute host s i.encode) = g ∧ SameOutside s (rv32Execute host s i.encode) := by
  cases i with
  | regReg op rd rs1 rs2 =>
      obtain rfl := Option.some.inj hg
      rw [rv32Execute_regReg, hart_retire, r_reg hzero, r_reg hzero]
      exact ⟨rfl, SameOutside.retire s _ _ _⟩
  | regImm op rd rs1 imm =>
      obtain rfl := Option.some.inj hg
      rw [rv32Execute_regImm, hart_retire, r_reg hzero]
      exact ⟨rfl, SameOutside.retire s _ _ _⟩
  | regShift op rd rs1 shamt =>
      obtain rfl := Option.some.inj hg
      rw [rv32Execute_regShift, hart_retire, r_reg hzero]
      exact ⟨rfl, SameOutside.retire s _ _ _⟩
  | branch op rs1 rs2 imm =>
      obtain rfl := Option.some.inj hg
      rw [rv32Execute_branch, r_reg hzero, r_reg hzero]
      exact ⟨rfl, _, _, _, _, _, _, _, _, _, _, rfl⟩
  | jal rd imm =>
      obtain rfl := Option.some.inj hg
      rw [rv32Execute_jal, hart_retire]
      exact ⟨rfl, SameOutside.retire s _ _ _⟩
  | jalr rd rs1 imm =>
      obtain rfl := Option.some.inj hg
      rw [rv32Execute_jalr, hart_retire, r_reg hzero]
      exact ⟨rfl, SameOutside.retire s _ _ _⟩
  | lui rd imm =>
      obtain rfl := Option.some.inj hg
      rw [rv32Execute_lui, hart_retire]
      exact ⟨rfl, SameOutside.retire s _ _ _⟩
  | auipc rd imm =>
      obtain rfl := Option.some.inj hg
      rw [rv32Execute_auipc, hart_retire]
      exact ⟨rfl, SameOutside.retire s _ _ _⟩
  | zicsr op rd src csr =>
      obtain rfl := Option.some.inj hg
      rw [rv32Execute_zicsr s hzero, hart_retire, hart_writeCsr]
      exact ⟨rfl, (SameOutside.writeCsr s _ _).trans (SameOutside.retire _ _ _ _)⟩
  | load op rd rs1 imm => cases hg
  | store op rs1 rs2 imm => cases hg
  | fence fm rs1 rd => cases hg
  | system op => cases hg

/-- **A cycle** that executes the encoding of an instruction takes the emulator's step of it. -/
theorem rv32Cycle_emulate {i : Instr} {g : Hart} (h : Executes host s i.encode)
    (hg : i.emulate (hart s) = some g) :
    hart (rv32Cycle host s) = g ∧ SameOutside s (rv32Cycle host s) := by
  obtain ⟨u, hload, hscratch⟩ := h.fetches
  have hhart : hart u.resetZero = hart s := by
    rw [hart_resetZero, hart_of_scratch hscratch]
  have hfetched : SameOutside s u.resetZero := by
    obtain ⟨_, _, rfl⟩ := hscratch
    exact ⟨_, _, _, _, _, _, _, _, _, _, rfl⟩
  rw [rv32Cycle_of_fetch host (h.fetch host hload)]
  have hexec : hart (rv32Execute host u.resetZero i.encode) = g ∧
      SameOutside u.resetZero (rv32Execute host u.resetZero i.encode) :=
    rv32Execute_emulate (resetZero_r_zero u) (hhart ▸ hg)
  exact ⟨hexec.1, hfetched.trans hexec.2⟩

/-- Two instructions at address 0 of the emulator, the first of which leaves interrupts masked. -/
theorem ready_pair_emulator {i j : Instr} {g : Hart} (r : Fin 32 → Word)
    (hg : i.emulate (hart (emulatorWith r [i.encode, j.encode])) = some g)
    (hmie : csrGetBit (g.csr .mstatus) csrMstatusMie = 0)
    (hword : ByteMem.read (imageOf [i.encode, j.encode]) 0 4 = i.encode) :
    Ready (emulatorWith r [i.encode, j.encode]) ∧
      Ready (rv32Cycle emulatorHost (emulatorWith r [i.encode, j.encode])) := by
  have hexec := executes_emulatorWith r [j.encode] hword
  obtain ⟨hhart, houtside⟩ := rv32Cycle_emulate hexec hg
  refine ⟨hexec.toReady, houtside.ready hexec.toReady rfl ?_⟩
  rw [hhart]
  exact hmie

/-- The destination of a register-register instruction. -/
theorem xreg_regReg {op : RegOp} {rd rs1 rs2 : BitVec 5}
    (h : Executes host s (Instr.regReg op rd rs1 rs2).encode) (hrd : rd ≠ 0) :
    xreg (rv32Cycle host s) rd = op.eval (xreg s rs1) (xreg s rs2) := by
  rw [xreg_of_hart (rv32Cycle_emulate h rfl).1, Hart.retire_x_self _ hrd]
  rfl

/-! ## Against the ISA -/

/-- The instruction is one of the two the emulator has its own step for. -/
def Deviates (h : Hart) : Instr → Prop
  | .regImm .sltiu rd rs1 imm =>
      rd ≠ 0 ∧ imm.toNat ≤ (h.x rs1).toNat ∧ (h.x rs1).toNat < (imm.signExtend 32).toNat
  | .jal _ imm => ¬ (-2 ^ 18 ≤ imm.toInt ∧ imm.toInt < 2 ^ 18)
  | _ => False

theorem emulate_eq_exec_iff (h : Hart) (i : Instr) : i.emulate h = i.exec h ↔ ¬ Deviates h i := by
  cases i with
  | regImm op rd rs1 imm =>
      have heval := emulated_eq_eval_iff (h.x rs1) op imm
      simp only [Instr.emulate, Instr.exec, Option.some.injEq, Hart.retire_inj, and_true]
      cases op with
      | sltiu =>
          simp only [true_and] at heval
          rw [heval, Deviates]
          exact not_and.symm
      | _ => exact iff_of_true (fun _ => rfl) id
  | jal rd imm =>
      simp only [Instr.emulate, Instr.exec, Option.some.injEq, Hart.retire_inj, Deviates, not_not]
      rw [and_iff_right (fun _ => trivial), add_right_inj]
      exact emulatedOffset_eq_iff imm
  | _ => exact iff_of_true rfl id

/-- The emulator has a step for the instructions that reach the hart only. -/
theorem exists_emulate {h g : Hart} {i : Instr} (hg : i.exec h = some g) :
    ∃ g', i.emulate h = some g' := by
  cases i with
  | regImm op rd rs1 imm => exact ⟨_, rfl⟩
  | jal rd imm => exact ⟨_, rfl⟩
  | _ => exact ⟨g, hg⟩

/-- **A cycle takes the step of the ISA** exactly when the instruction is not one of the two. -/
theorem rv32Cycle_refines_iff {i : Instr} {g : Hart} (h : Executes host s i.encode)
    (hg : i.exec (hart s) = some g) :
    hart (rv32Cycle host s) = g ↔ ¬ Deviates (hart s) i := by
  obtain ⟨g', hg'⟩ := exists_emulate hg
  rw [(rv32Cycle_emulate h hg').1, ← emulate_eq_exec_iff, hg, hg', Option.some.injEq]

/-! ## A run -/

/-- The machine after a cycle for each of the instructions. -/
abbrev cycles (host : Host σ) : RV32 σ → List Instr → RV32 σ := Lts.run fun s _ => rv32Cycle host s

/-- The cycles execute the instructions, one after the other. -/
def Runs (host : Host σ) : RV32 σ → List Instr → Prop :=
  Lts.AllSteps (fun s _ => rv32Cycle host s) fun s i => Executes host s i.encode

/-- **Refinement of a run**: the cycles take the steps of the ISA, one by one. -/
theorem run_refines {is : List Instr} {g : Hart} (h : Runs host s is)
    (hdev : Lts.AllSteps (fun s _ => rv32Cycle host s) (fun s i => ¬ Deviates (hart s) i) s is)
    (hg : is.foldlM Instr.exec (hart s) = some g) :
    hart (cycles host s is) = g ∧ SameOutside s (cycles host s is) := by
  induction is generalizing s with
  | nil =>
      obtain rfl := Option.some.inj hg
      exact ⟨rfl, SameOutside.refl s⟩
  | cons i is ih =>
      obtain ⟨hexec, hrest⟩ := h
      obtain ⟨hdevHead, hdevRest⟩ := hdev
      obtain ⟨g', hstep, hg⟩ := Option.bind_eq_some_iff.mp hg
      have hemulate : i.emulate (hart s) = some g' :=
        ((emulate_eq_exec_iff _ i).mpr hdevHead).trans hstep
      obtain ⟨hcycle, houtside⟩ := rv32Cycle_emulate hexec hemulate
      obtain ⟨hrun, hrunOutside⟩ := ih hrest hdevRest (hcycle ▸ hg)
      exact ⟨hrun, houtside.trans hrunOutside⟩

/-! ## Programs in the RAM -/

/-- The RAM holds the encodings of the instructions from `addr` on. -/
def ProgramAt (s : RV32 σ) (addr : Word) : List Instr → Prop
  | []      => True
  | i :: is =>
      addr.toNat + 4 ≤ s.memSize.toNat ∧ ByteMem.read s.mem.bytes addr.toNat 4 = i.encode ∧
        ProgramAt s (addr + 4) is

instance instDecidableProgramAt (s : RV32 σ) : (addr : Word) → (is : List Instr) → Decidable (ProgramAt s addr is)
  | _, []         => inferInstanceAs (Decidable True)
  | addr, _ :: is =>
      have : Decidable (ProgramAt s (addr + 4) is) := instDecidableProgramAt s (addr + 4) is
      inferInstanceAs (Decidable (_ ∧ _ ∧ _))

theorem ProgramAt.of_sameOutside (h : SameOutside s t) {addr : Word} {is : List Instr}
    (hprog : ProgramAt s addr is) : ProgramAt t addr is := by
  induction is generalizing addr with
  | nil => trivial
  | cons i is ih =>
      obtain ⟨hin, hword, hrest⟩ := hprog
      refine ⟨?_, ?_, ih hrest⟩
      · obtain ⟨_, _, _, _, _, _, _, _, _, _, rfl⟩ := h
        exact hin
      · obtain ⟨_, _, _, _, _, _, _, _, _, _, rfl⟩ := h
        exact hword

/-- The instruction leads to the one behind it. -/
def GoesOn (i : Instr) : Prop := ∀ h : Hart, ∃ g, i.emulate h = some g ∧ g.pc = h.pc + 4

/-- **A program in the RAM** is executed, as long as no cycle is stopped before its fetch. -/
theorem runs_of_programAt {is : List Instr} (hprog : ProgramAt s s.pc is)
    (hready : Lts.AllSteps (fun s _ => rv32Cycle host s) (fun s _ => Ready s) s is)
    (hnext : ∀ i ∈ is.dropLast, GoesOn i) : Runs host s is := by
  induction is generalizing s with
  | nil => trivial
  | cons i is ih =>
      obtain ⟨hin, hword, hrest⟩ := hprog
      have hexec : Executes host s i.encode := Executes.of_ram hready.1 hin hword
      refine ⟨hexec, ?_⟩
      cases is with
      | nil => trivial
      | cons j is =>
          obtain ⟨g, hg, hpc⟩ := hnext i (List.mem_cons_self ..) (hart s)
          obtain ⟨hhart, houtside⟩ := rv32Cycle_emulate hexec hg
          have hpc' : (rv32Cycle host s).pc = s.pc + 4 := (pc_of_hart hhart).trans hpc
          refine ih ?_ hready.2 (fun k hk => hnext k (List.mem_cons_of_mem i hk))
          rw [hpc']
          exact hrest.of_sameOutside houtside

/-- Two instructions in the RAM, both executed. -/
theorem runs_pair {i j : Instr} (hready : Ready s) (hready' : Ready (rv32Cycle host s))
    (hprog : ProgramAt s s.pc [i, j]) (hnext : GoesOn i) : Runs host s [i, j] :=
  runs_of_programAt hprog ⟨hready, hready', trivial⟩ (List.forall_mem_singleton.mpr hnext)

end Isa
end Rv32
