import Rv32.Correctness.LittleEndian
import Rv32.Isa.Decode
import Rv32.Isa.Trap
import Rv32.Lib.Transition

/-!
# `Correctness.System` — the emulator runs the machine of the ISA

Every step of `Machine.Step` is a call of `rv32_cycle` or `rv32_trigger_external_interrupt`, over whole runs
(`run_refines_machine`): the memory and the devices are read and written as the ISA says, by programs that may
write themselves, and traps are taken in between. The machine has to conform: no instruction is one that the
emulator treats in its own way, and interrupts come one at a time.
-/

namespace Rv32

open Isa

variable {σ : Type} {host : Host σ} {E : Environment σ} {s t u : RV32 σ}

/-! ## Memory -/

/-- The answer of a load helper is the machine's. -/
structure LoadsLike (E : Environment σ) (s : RV32 σ) (n : Nat) (addr : Word)
    (p : Option (BitVec (8 * n)) × RV32 σ) : Prop where
  value : p.1 = ((machine s).load E n addr).1
  state : machine p.2 = ((machine s).load E n addr).2
  undisturbed : Undisturbed p.2

structure StoresLike (E : Environment σ) (s : RV32 σ) (n : Nat) (addr : Word) (v : BitVec (8 * n))
    (p : Rv32Result × RV32 σ) : Prop where
  result : p.1 = if ((machine s).store E n addr v).1 then .ok else .err
  state : machine p.2 = ((machine s).store E n addr v).2
  undisturbed : Undisturbed p.2

theorem answerLoad_loadsLike (h : Undisturbed s) {n : Nat} {addr : Word}
    (hout : ¬ (machine s).InRam addr n) (hcontroller : ¬ (n = 4 ∧ addr = controllerAddress)) :
    LoadsLike E s n addr (answerLoad E s n addr) := by
  constructor
  · rw [Machine.load, if_neg hout, if_neg hcontroller]
    rfl
  · rw [Machine.load, if_neg hout, if_neg hcontroller]
    rfl
  · exact h.of_eq rfl rfl

theorem rv32LoadOr_loadsLike (h : Undisturbed s) {n : Nat} (hn : 0 < n) (hn4 : n ≤ 4) {addr : Word}
    {otherwise : Option (BitVec (8 * n)) × RV32 σ}
    (hotherwise : ¬ (machine s).InRam addr n → LoadsLike E s n addr otherwise) :
    LoadsLike E s n addr (rv32LoadOr host s n otherwise addr) := by
  by_cases hin : (machine s).InRam addr n
  · have hload : (machine s).load E n addr =
        (some (ByteMem.read s.mem.bytes addr.toNat n), machine s) := if_pos hin
    rw [rv32LoadOr_inside hn hin]
    constructor
    · rw [hload]
    · rw [hload]
      rfl
    · exact h.of_eq rfl rfl
  · rw [rv32LoadOr_outside hn (Nat.le_trans hn4 h.size) (Nat.not_le.mp hin)]
    exact hotherwise hin

theorem rv32Load8_loadsLike (himp : Implements host E) (h : Undisturbed s) (addr : Word) :
    LoadsLike E s 1 addr (rv32Load8 host s addr) := by
  refine rv32LoadOr_loadsLike h (by decide) (by decide) fun hout => ?_
  rw [himp.load8]
  exact answerLoad_loadsLike h hout (by simp)

theorem rv32Load16_loadsLike (himp : Implements host E) (h : Undisturbed s) (addr : Word) :
    LoadsLike E s 2 addr (rv32Load16 host s addr) := by
  refine rv32LoadOr_loadsLike h (by decide) (by decide) fun hout => ?_
  rw [himp.load16]
  exact answerLoad_loadsLike h hout (by simp)

theorem rv32Load32_loadsLike (himp : Implements host E) (h : Undisturbed s) (addr : Word) :
    LoadsLike E s 4 addr (rv32Load32 host s addr) := by
  refine rv32LoadOr_loadsLike h (by decide) (by decide) fun hout => ?_
  by_cases hcontroller : addr = rv32InterruptControllerAddress
  · have hload : (machine s).load E 4 addr = (some s.interruptController.ie, machine s) := by
      rw [Machine.load, if_neg hout, if_pos ⟨rfl, hcontroller⟩]
      exact congrArg (fun v => (some v, _)) (BitVec.setWidth_eq _)
    rw [if_pos hcontroller]
    constructor
    · rw [hload]
    · rw [hload]
    · exact h
  · rw [if_neg hcontroller, himp.load32]
    exact answerLoad_loadsLike h hout (fun hc => hcontroller hc.2)

theorem answerStore_storesLike (h : Undisturbed s) {n : Nat} {addr : Word} {v : BitVec (8 * n)}
    (hout : ¬ (machine s).InRam addr n) (hcontroller : ¬ (n = 4 ∧ addr = controllerAddress)) :
    StoresLike E s n addr v (answerStore E s n addr v) := by
  constructor
  · rw [Machine.store, if_neg hout, if_neg hcontroller]
    rfl
  · rw [Machine.store, if_neg hout, if_neg hcontroller]
    rfl
  · exact h.of_eq rfl rfl

theorem rv32StoreOr_storesLike (h : Undisturbed s) {n : Nat} (hn : 0 < n) (hn4 : n ≤ 4) {addr : Word}
    {v : BitVec (8 * n)} {otherwise : Rv32Result × RV32 σ}
    (hotherwise : ¬ (machine s).InRam addr n → StoresLike E s n addr v otherwise) :
    StoresLike E s n addr v (rv32StoreOr host s n otherwise addr v) := by
  by_cases hin : (machine s).InRam addr n
  · have hstore : (machine s).store E n addr v =
        (true, { machine s with mem := ByteMem.write s.mem.bytes addr.toNat n v }) := if_pos hin
    rw [rv32StoreOr_inside hn hin]
    constructor
    · rw [hstore]
      rfl
    · rw [hstore]
      rfl
    · exact h.of_eq rfl rfl
  · rw [rv32StoreOr_outside hn (Nat.le_trans hn4 h.size) (Nat.not_le.mp hin)]
    exact hotherwise hin

theorem rv32Store8_storesLike (himp : Implements host E) (h : Undisturbed s) (addr : Word) (v : BitVec 8) :
    StoresLike E s 1 addr v (rv32Store8 host s addr v) := by
  refine rv32StoreOr_storesLike h (by decide) (by decide) fun hout => ?_
  rw [himp.store8]
  exact answerStore_storesLike h hout (by simp)

theorem rv32Store16_storesLike (himp : Implements host E) (h : Undisturbed s) (addr : Word)
    (v : BitVec 16) : StoresLike E s 2 addr v (rv32Store16 host s addr v) := by
  refine rv32StoreOr_storesLike h (by decide) (by decide) fun hout => ?_
  rw [himp.store16]
  exact answerStore_storesLike h hout (by simp)

theorem rv32Store32_storesLike (himp : Implements host E) (h : Undisturbed s) (addr : Word)
    (v : BitVec 32) : StoresLike E s 4 addr v (rv32Store32 host s addr v) := by
  refine rv32StoreOr_storesLike h (by decide) (by decide) fun hout => ?_
  by_cases hcontroller : addr = rv32InterruptControllerAddress
  · have hstore : (machine s).store E 4 addr v =
        (true, { machine s with controller.ie := v }) := by
      rw [Machine.store, if_neg hout, if_pos ⟨rfl, hcontroller⟩, BitVec.setWidth_eq]
    rw [if_pos hcontroller]
    constructor
    · rw [hstore]
      rfl
    · rw [hstore]
      rfl
    · exact h.of_eq rfl rfl
  · rw [if_neg hcontroller, himp.store32]
    exact answerStore_storesLike h hout (fun hc => hcontroller hc.2)

/-! ## Instructions -/

theorem Isa.Undisturbed.resetZero (h : Undisturbed s) : Undisturbed s.resetZero := h.of_eq rfl rfl

theorem machine_resetZero (s : RV32 σ) : machine s.resetZero = machine s :=
  Machine.ext (hart_resetZero s) rfl rfl rfl rfl rfl

theorem machine_retire (s : RV32 σ) (rd : BitVec 5) (v pc : Word) :
    machine (s.retire (reg rd) v pc) = { machine s with hart := (machine s).hart.retire rd v pc } :=
  Machine.ext (hart_retire s rd v pc) rfl rfl rfl rfl rfl

/-- The instruction does what the ISA says and leaves the debugger's fields alone. -/
structure RunsAs (E : Environment σ) (s : RV32 σ) (i : Instr) (t : RV32 σ) : Prop where
  machine : Isa.machine t = i.run E (Isa.machine s)
  undisturbed : Undisturbed t

theorem LoadsLike.runsAs {op : LoadOp} {rd rs1 : BitVec 5} {imm : BitVec 12}
    {p : Option (BitVec (8 * op.width)) × RV32 σ}
    (h : LoadsLike E s op.width ((machine s).hart.x rs1 + imm.signExtend 32) p) :
    RunsAs E s (.load op rd rs1 imm) (finishLoad rd op.extend p) := by
  obtain ⟨hvalue, hstate, hund⟩ := h
  have hrun : Instr.run E (machine s) (.load op rd rs1 imm) = Machine.finishLoad op rd
      ((machine s).load E op.width ((machine s).hart.x rs1 + imm.signExtend 32)) := rfl
  generalize (machine s).load E op.width ((machine s).hart.x rs1 + imm.signExtend 32) = q at *
  obtain ⟨v, t⟩ := p
  obtain ⟨v', m⟩ := q
  obtain rfl : v = v' := hvalue
  obtain rfl : machine t = m := hstate
  cases v with
  | none => exact ⟨hrun.symm, hund.of_eq rfl rfl⟩
  | some v => exact ⟨(machine_retire t rd _ _).trans hrun.symm, hund.of_eq rfl rfl⟩

theorem StoresLike.runsAs {op : StoreOp} {rs1 rs2 : BitVec 5} {imm : BitVec 12} {p : Rv32Result × RV32 σ}
    (h : StoresLike E s op.width ((machine s).hart.x rs1 + imm.signExtend 32)
      (((machine s).hart.x rs2).setWidth (8 * op.width)) p) :
    RunsAs E s (.store op rs1 rs2 imm) (finishStore p) := by
  obtain ⟨hresult, hstate, hund⟩ := h
  have hrun : Instr.run E (machine s) (.store op rs1 rs2 imm) = Machine.finishStore
      ((machine s).store E op.width ((machine s).hart.x rs1 + imm.signExtend 32)
        (((machine s).hart.x rs2).setWidth (8 * op.width))) := rfl
  generalize (machine s).store E op.width ((machine s).hart.x rs1 + imm.signExtend 32)
    (((machine s).hart.x rs2).setWidth (8 * op.width)) = q at *
  obtain ⟨r, t⟩ := p
  obtain ⟨ok, m⟩ := q
  obtain rfl : machine t = m := hstate
  cases ok with
  | true =>
      obtain rfl : r = .ok := hresult
      exact ⟨hrun.symm, hund.of_eq rfl rfl⟩
  | false =>
      obtain rfl : r = .err := hresult
      exact ⟨hrun.symm, hund.of_eq rfl rfl⟩

theorem Isa.Implements.mmioPure (himp : Implements host E) : host.MmioPure where
  load8 s addr := ⟨_, congrArg Prod.snd (himp.load8 s addr)⟩
  load16 s addr := ⟨_, congrArg Prod.snd (himp.load16 s addr)⟩
  load32 s addr := ⟨_, congrArg Prod.snd (himp.load32 s addr)⟩
  store8 s addr v := ⟨_, congrArg Prod.snd (himp.store8 s addr v)⟩
  store16 s addr v := ⟨_, congrArg Prod.snd (himp.store16 s addr v)⟩
  store32 s addr v := ⟨_, congrArg Prod.snd (himp.store32 s addr v)⟩

/-- The instructions that the emulator has a step of its own for: FENCE, and MRET unless it leaves MPIE as it
    is. The others are the two of the hart. -/
def Conforms (m : Machine σ) : Instr → Prop
  | .fence ..      => False
  | .system .mret  => m.mpie = true
  | i              => ¬ Deviates m.hart i

theorem rv32Execute_system (s : RV32 σ) (op : SystemOp) :
    rv32Execute host s (Instr.system op).encode =
      match op with
      | .ecall  =>
          if (host.ecall s).status ≠ .running then host.ecall s
          else { host.ecall s with pc := (host.ecall s).pc + 4 }
      | .ebreak => { s with status := .ebreak, pc := s.pc + 4 }
      | .mret   =>
          { s with
            pc := s.mepc
            mstatus := csrSetBit s.mstatus csrMstatusMie (csrGetBit s.mstatus csrMstatusMpie) }
      | .wfi    => { s with wfi := 1, pc := s.pc + 4 } := by
  simp only [rv32Execute, Instr.encode, opcode_eq, opcodeOf_encodeI, BitVec.reduceSetWidth, execSystem,
    funct3_eq, funct3Of_encodeI, immI_eq, immIOf_encodeI]
  rw [if_pos (show (0#8 : BitVec 8) = 0 from rfl)]
  cases op <;> rfl

theorem machine_mret (hmpie : (machine s).mpie = true) :
    machine { s with
      pc := s.mepc
      mstatus := csrSetBit s.mstatus csrMstatusMie (csrGetBit s.mstatus csrMstatusMpie) } =
        (machine s).mret := by
  have hmstatus : csrSetBit s.mstatus csrMstatusMie (csrGetBit s.mstatus csrMstatusMpie) =
      setBit (setBit s.mstatus 3 (s.mstatus.getLsbD 7)) 7 true := by
    rw [csrSetBit_eq _ (by decide), csrGetBit_bit]
    -- MPIE is set already
    apply BitVec.eq_of_getLsbD_eq
    intro i _
    rw [getLsbD_setBit _ (by decide), getLsbD_setBit _ (by decide), getLsbD_setBit _ (by decide)]
    by_cases hi : i = 7
    · rw [if_pos hi, hi, if_neg (by decide)]
      exact hmpie
    · rw [if_neg hi]
      rfl
  rw [hmstatus]
  have hcell := machine_writeCell s (setBit (setBit s.mstatus 3 (s.mstatus.getLsbD 7)) 7 true) .mstatus
  exact congrArg (fun m => Machine.goTo m s.mepc) hcell

/-- An instruction of the hart. -/
theorem rv32Execute_hart (hund : Undisturbed s) (hzero : s.r regZero = 0) {i : Instr} {g : Hart}
    (hg : i.emulate (hart s) = some g) :
    machine (rv32Execute host s i.encode) = { machine s with hart := g } ∧
      Undisturbed (rv32Execute host s i.encode) := by
  have hhart : hart (rv32Execute host s i.encode) = g := (rv32Execute_emulate hzero hg).1
  suffices hframe : ∃ r pc mstatus mie mip mtvec mepc mcause,
      rv32Execute host s i.encode = { s with r, pc, mstatus, mie, mip, mtvec, mepc, mcause } by
    obtain ⟨_, _, _, _, _, _, _, _, heq⟩ := hframe
    refine ⟨Machine.ext hhart ?_ ?_ ?_ ?_ ?_, hund.of_eq ?_ ?_⟩ <;> rw [heq] <;> rfl
  cases i with
  | regReg op rd rs1 rs2 => exact ⟨_, _, _, _, _, _, _, _, rv32Execute_regReg s op rd rs1 rs2⟩
  | regImm op rd rs1 imm => exact ⟨_, _, _, _, _, _, _, _, rv32Execute_regImm s op rd rs1 imm⟩
  | regShift op rd rs1 shamt => exact ⟨_, _, _, _, _, _, _, _, rv32Execute_regShift s op rd rs1 shamt⟩
  | branch op rs1 rs2 imm => exact ⟨_, _, _, _, _, _, _, _, rv32Execute_branch s op rs1 rs2 imm⟩
  | jal rd imm => exact ⟨_, _, _, _, _, _, _, _, rv32Execute_jal s rd imm⟩
  | jalr rd rs1 imm => exact ⟨_, _, _, _, _, _, _, _, rv32Execute_jalr s rd rs1 imm⟩
  | lui rd imm => exact ⟨_, _, _, _, _, _, _, _, rv32Execute_lui s rd imm⟩
  | auipc rd imm => exact ⟨_, _, _, _, _, _, _, _, rv32Execute_auipc s rd imm⟩
  | zicsr op rd src csr =>
      rw [rv32Execute_zicsr s hzero]
      obtain ⟨_, _, _, _, _, _, hwrite⟩ := rv32WriteCsr_frame s (csr.setWidth 32)
        (op.eval ((hart s).readCsr csr) ((hart s).csrSource op src))
      rw [hwrite]
      exact ⟨_, _, _, _, _, _, _, _, rfl⟩
  | load op rd rs1 imm => cases hg
  | store op rs1 rs2 imm => cases hg
  | fence fm rs1 rd => cases hg
  | system op => cases hg

theorem run_of_exec {m : Machine σ} {i : Instr} {g : Hart} (h : i.exec m.hart = some g) :
    i.run E m = { m with hart := g } := by
  have helim : i.run E m = (i.exec m.hart).elim m fun h => { m with hart := h } := by
    cases i with
    | load op rd rs1 imm => cases h
    | store op rs1 rs2 imm => cases h
    | fence fm rs1 rd => cases h
    | system op => cases h
    | _ => rfl
  rw [helim, h]
  rfl

/-- The `switch` on `ecall`. -/
theorem rv32Execute_ecall_runsAs (himp : Implements host E) (hund : Undisturbed s) (hwfi : s.wfi = 0) :
    RunsAs E s (.system .ecall) (rv32Execute host s (Instr.system .ecall).encode) := by
  obtain ⟨hbp, hsize, hwfi'⟩ := himp.frame s
  have hmode : (machine (host.ecall s)).mode = .running ↔ (host.ecall s).status = .running :=
    modeOf_eq_running.trans (and_iff_left (hwfi'.trans hwfi))
  have hrun := run_ecall E (machine s)
  rw [← himp.ecall] at hrun
  rw [rv32Execute_system]
  by_cases hst : (host.ecall s).status = .running
  · rw [if_pos (hmode.mpr hst)] at hrun
    have hnext : machine { host.ecall s with pc := (host.ecall s).pc + 4 } =
        Instr.run E (machine s) (.system .ecall) := by
      rw [hrun]
      rfl
    refine ⟨?_, ?_⟩
    · exact (congrArg machine (if_neg (not_not.mpr hst))).trans hnext
    · exact (if_neg (not_not.mpr hst)).symm ▸ hund.of_eq hbp hsize
  · rw [if_neg fun h => hst (hmode.mp h)] at hrun
    refine ⟨?_, ?_⟩
    · exact (congrArg machine (if_pos hst)).trans hrun.symm
    · exact (if_pos hst).symm ▸ hund.of_eq hbp hsize

/-- **The `switch`** on an instruction that conforms and leaves the memory alone. -/
theorem rv32Execute_runsAs (himp : Implements host E) (hund : Undisturbed s) (hzero : s.r regZero = 0)
    (hmode : (machine s).mode = .running) {i : Instr} (hconf : Conforms (machine s) i)
    (hload : ∀ op rd rs1 imm, i ≠ .load op rd rs1 imm)
    (hstore : ∀ op rs1 rs2 imm, i ≠ .store op rs1 rs2 imm) :
    RunsAs E s i (rv32Execute host s i.encode) := by
  obtain ⟨hrunning, hwfi⟩ := modeOf_eq_running.mp hmode
  have hhart : ∀ {g}, i.exec (hart s) = some g → ¬ Deviates (hart s) i →
      RunsAs E s i (rv32Execute host s i.encode) := by
    intro g hg hdev
    have hemulate : i.emulate (hart s) = some g := ((emulate_eq_exec_iff _ i).mpr hdev).trans hg
    have hexec : machine (rv32Execute host s i.encode) = { machine s with hart := g } ∧
        Undisturbed (rv32Execute host s i.encode) := rv32Execute_hart hund hzero hemulate
    have hrun : i.run E (machine s) = { machine s with hart := g } := run_of_exec hg
    exact ⟨hexec.1.trans hrun.symm, hexec.2⟩
  cases i with
  | load op rd rs1 imm => exact absurd rfl (hload op rd rs1 imm)
  | store op rs1 rs2 imm => exact absurd rfl (hstore op rs1 rs2 imm)
  | fence fm rs1 rd => exact hconf.elim
  | system op =>
      cases op with
      | ecall => exact rv32Execute_ecall_runsAs himp hund hwfi
      | ebreak =>
          rw [rv32Execute_system]
          exact ⟨rfl, hund.of_eq rfl rfl⟩
      | mret =>
          rw [rv32Execute_system]
          exact ⟨machine_mret hconf, hund.of_eq rfl rfl⟩
      | wfi =>
          rw [rv32Execute_system]
          refine ⟨Machine.ext rfl ?_ rfl rfl rfl rfl, hund.of_eq rfl rfl⟩
          have hset : (1#8 : BitVec 8) ≠ 0 := by decide
          exact modeOf_eq_waiting.mpr ⟨hrunning, hset⟩
  | _ => exact hhart rfl hconf

/-! ## Cycles -/

/-- The registers of a fetched machine. -/
theorem xreg_fetched (hpure : host.MmioPure) {instr : Word} (hfetch : rv32Fetch host s = (some instr, u))
    (i : BitVec 5) : xreg s i = (machine u).hart.x i := by
  show xreg s i = xreg u i
  rw [xreg, xreg, fetch_r hpure hfetch, xreg]
  split <;> rfl

theorem rv32Cycle_load_runsAs (himp : Implements host E) {op : LoadOp} {rd rs1 : BitVec 5}
    {imm : BitVec 12} (hfetch : rv32Fetch host s = (some (Instr.load op rd rs1 imm).encode, u))
    (hund : Undisturbed u) : RunsAs E u (.load op rd rs1 imm) (rv32Cycle host s) := by
  have hpure := himp.mmioPure
  have hcycle : MemoryInstructions host s := memoryInstructions hpure
  have hx := xreg_fetched hpure hfetch rs1
  cases op with
  | lb =>
      rw [hcycle.lb imm rs1 rd u hfetch, hx]
      exact LoadsLike.runsAs (rv32Load8_loadsLike himp hund _)
  | lh =>
      rw [hcycle.lh imm rs1 rd u hfetch, hx]
      exact LoadsLike.runsAs (rv32Load16_loadsLike himp hund _)
  | lw =>
      have hid : (id : Word → Word) = LoadOp.lw.extend := by
        funext v
        exact (BitVec.signExtend_eq v).symm
      rw [hcycle.lw imm rs1 rd u hfetch, hx, hid]
      exact LoadsLike.runsAs (rv32Load32_loadsLike himp hund _)
  | lbu =>
      rw [hcycle.lbu imm rs1 rd u hfetch, hx]
      exact LoadsLike.runsAs (rv32Load8_loadsLike himp hund _)
  | lhu =>
      rw [hcycle.lhu imm rs1 rd u hfetch, hx]
      exact LoadsLike.runsAs (rv32Load16_loadsLike himp hund _)

theorem rv32Cycle_store_runsAs (himp : Implements host E) {op : StoreOp} {rs1 rs2 : BitVec 5}
    {imm : BitVec 12} (hfetch : rv32Fetch host s = (some (Instr.store op rs1 rs2 imm).encode, u))
    (hund : Undisturbed u) : RunsAs E u (.store op rs1 rs2 imm) (rv32Cycle host s) := by
  have hpure := himp.mmioPure
  have hcycle : MemoryInstructions host s := memoryInstructions hpure
  have hx := xreg_fetched hpure hfetch
  cases op with
  | sb =>
      rw [hcycle.sb imm rs2 rs1 u hfetch, hx, hx]
      exact StoresLike.runsAs (rv32Store8_storesLike himp hund _ _)
  | sh =>
      rw [hcycle.sh imm rs2 rs1 u hfetch, hx, hx]
      exact StoresLike.runsAs (rv32Store16_storesLike himp hund _ _)
  | sw =>
      rw [hcycle.sw imm rs2 rs1 u hfetch, hx, hx]
      refine StoresLike.runsAs (rv32Store32_storesLike himp hund _ _)

/-- **A cycle** that gets to its `switch` with an instruction that conforms. -/
theorem rv32Cycle_runsAs (himp : Implements host E) {i : Instr}
    (hfetch : rv32Fetch host s = (some i.encode, u)) (hund : Undisturbed u)
    (hmode : (machine u).mode = .running) (hconf : Conforms (machine u) i) :
    RunsAs E u i (rv32Cycle host s) := by
  by_cases hload : ∃ op rd rs1 imm, i = .load op rd rs1 imm
  · obtain ⟨op, rd, rs1, imm, rfl⟩ := hload
    exact rv32Cycle_load_runsAs himp hfetch hund
  by_cases hstore : ∃ op rs1 rs2 imm, i = .store op rs1 rs2 imm
  · obtain ⟨op, rs1, rs2, imm, rfl⟩ := hstore
    exact rv32Cycle_store_runsAs himp hfetch hund
  obtain ⟨-, v, -, rfl⟩ := rv32Fetch_some hfetch
  rw [rv32Cycle_of_fetch host hfetch]
  exact rv32Execute_runsAs himp hund (resetZero_r_zero v) hmode hconf
    (fun op rd rs1 imm h => hload ⟨op, rd, rs1, imm, h⟩)
    (fun op rs1 rs2 imm h => hstore ⟨op, rs1, rs2, imm, h⟩)

/-! ## Runs -/

/-- The machine conforms to the emulator in an event: interrupts are orderly while they are enabled, the
    instruction it comes to conforms, and the trigger knows the irq. -/
def ConformsIn (E : Environment σ) (m : Machine σ) : Event → Prop
  | .cycle     => (m.mie → Orderly m) ∧ ∀ i u, m.trap.fetch E = (some (Instr.encode i), u) → Conforms u i
  | .raise irq => irq.val < 4

/-- A step of the ISA's machine that the emulator is to take. -/
def ConformingStep (E : Environment σ) (m : Machine σ) (e : Event) (m' : Machine σ) : Prop :=
  m.Step E e m' ∧ ConformsIn E m e

/-- With interrupts disabled it is the instruction that has to. -/
theorem ConformingStep.of_ram {m : Machine σ} (hmode : m.mode = .running) (hmie : m.mie = false)
    (hin : m.InRam m.hart.pc 4) {i : Instr}
    (hword : ByteMem.read m.mem m.hart.pc.toNat 4 = i.encode) (hconf : Conforms m i) :
    ConformingStep E m .cycle (i.run E m) := by
  refine ⟨.of_ram hmode hmie hin hword, ?_, ?_⟩
  · rw [hmie]
    rintro ⟨⟩
  · intro j u hfetch
    rw [Machine.trap_of_mie hmie, Machine.fetch_of_ram hin hword] at hfetch
    obtain ⟨hencode, rfl⟩ := Prod.mk.inj hfetch
    obtain rfl := encode_injective (Option.some.inj hencode)
    exact hconf

/-- The call that an event is. -/
def actionOf : Event → Action
  | .cycle     => .cycle
  | .raise irq => .trigger (BitVec.ofNat 32 irq.val)

theorem Isa.Undisturbed.fetching (h : Undisturbed s) (hmode : (machine s).mode = .running) : Fetching s := by
  obtain ⟨hrunning, hwfi⟩ := modeOf_eq_running.mp hmode
  exact ⟨hwfi, hrunning, fun hhit => hhit.1 h.bpMask⟩

/-- A machine that goes on is not stopped. -/
theorem running_of_trap (h : (machine s).trap.mode = .running ∨ (machine s).trap.mode = .waiting) :
    s.status = .running := by
  by_contra hstopped
  have hmode : ∃ why, (machine s).mode = .stopped why := by
    show ∃ why, modeOf s.wfi s.status = .stopped why
    cases hst : s.status with
    | running => exact absurd hst hstopped
    | _ => exact ⟨_, rfl⟩
  obtain ⟨why, hmode⟩ := hmode
  have htrap : (machine s).trap = machine s := by
    rw [Machine.trap, Machine.interrupt, hmode]
  rw [htrap, hmode] at h
  simp at h

theorem rv32Fetch_eq (host : Host σ) (h : Fetching (rv32HandleInterrupt s)) :
    rv32Fetch host s =
      match rv32Load32 host (rv32HandleInterrupt s) (rv32HandleInterrupt s).pc with
      | (none, u)       => (none, u.accessFault)
      | (some instr, u) => (some instr, u.resetZero) := by
  rw [rv32Fetch_handled]
  exact h.fetchPhase host

/-- The fetch of the machine is the load at `pc`. -/
theorem rv32Load32_of_fetch (himp : Implements host E) (hund : Undisturbed s) {v : Option Word}
    {m : Machine σ} (h : (machine s).fetch E = (v, m)) :
    ∃ w, rv32Load32 host s s.pc = (v, w) ∧ machine w = m ∧ Undisturbed w := by
  obtain ⟨hvalue, hstate, hloaded⟩ := rv32Load32_loadsLike himp hund s.pc
  have hfetch : (machine s).load E 4 s.pc = (v, m) := h
  rw [hfetch] at hvalue hstate
  exact ⟨_, Prod.ext hvalue rfl, hstate, hloaded⟩

theorem fetch_mode {m m' : Machine σ} {v : Option Word} (h : m.fetch E = (v, m')) : m'.mode = m.mode := by
  obtain rfl := congrArg Prod.snd h
  unfold Machine.fetch Machine.load
  split_ifs <;> rfl

/-- **A cycle** takes the machine's step. -/
theorem rv32Cycle_follows (himp : Implements host E) (hund : Undisturbed s) {m' : Machine σ}
    (h : ConformingStep E (machine s) .cycle m') :
    machine (rv32Cycle host s) = m' ∧ Undisturbed (rv32Cycle host s) := by
  obtain ⟨hstep, horderly, hconf⟩ := h
  have hund' : Undisturbed (rv32HandleInterrupt s) := hund.handleInterrupt
  have htrap : ∀ {mode}, (machine s).trap.mode = mode → mode = .running ∨ mode = .waiting →
      machine (rv32HandleInterrupt s) = (machine s).trap := by
    rintro _ rfl hmode
    exact machine_handleInterrupt (running_of_trap hmode) horderly
  cases hstep with
  | @instr i v hrunning hfetch =>
      have hmachine := htrap hrunning (.inl rfl)
      rw [← hmachine] at hrunning hfetch hconf
      obtain ⟨w, hload, rfl, hloaded⟩ := rv32Load32_of_fetch himp hund' hfetch
      have hword : rv32Fetch host s = (some i.encode, w.resetZero) := by
        rw [rv32Fetch_eq host (hund'.fetching hrunning), hload]
      have hmode : (machine w).mode = .running := by
        rw [← hrunning, ← fetch_mode hfetch]
      have hconf' : Conforms (machine w.resetZero) i := by
        rw [machine_resetZero]
        exact hconf i _ hfetch
      obtain ⟨hcycle, hundCycle⟩ := rv32Cycle_runsAs himp hword hloaded.resetZero
        ((machine_resetZero w).symm ▸ hmode) hconf'
      rw [machine_resetZero] at hcycle
      exact ⟨hcycle, hundCycle⟩
  | @fault v hrunning hfetch =>
      have hmachine := htrap hrunning (.inl rfl)
      rw [← hmachine] at hrunning hfetch
      obtain ⟨w, hload, rfl, hloaded⟩ := rv32Load32_of_fetch himp hund' hfetch
      have hword : rv32Fetch host s = (none, w.accessFault) := by
        rw [rv32Fetch_eq host (hund'.fetching hrunning), hload]
      rw [rv32Cycle_of_no_fetch host (by rw [hword]), hword]
      exact ⟨rfl, hloaded.of_eq rfl rfl⟩
  | wait hwaiting =>
      have hmachine := htrap hwaiting (.inr rfl)
      have hwfi : (rv32HandleInterrupt s).wfi ≠ 0 := by
        rw [← hmachine] at hwaiting
        exact (modeOf_eq_waiting.mp hwaiting).2
      have hword : rv32Fetch host s = (none, rv32HandleInterrupt s) := by
        rw [rv32Fetch_handled, fetchPhase, if_pos hwfi]
      rw [rv32Cycle_of_no_fetch host (by rw [hword]), hword]
      exact ⟨hmachine, hund'⟩

/-- A call follows the event it is. -/
theorem conforming_simulates (himp : Implements host E) :
    Transition.Simulates (ConformingStep E) (fun s e => step host s (actionOf e)) machine Undisturbed := by
  have hfollows : ∀ {s : RV32 σ} {e m'}, Undisturbed s → ConformingStep E (machine s) e m' →
      machine (step host s (actionOf e)) = m' ∧ Undisturbed (step host s (actionOf e)) := by
    intro s e m' hund h
    cases e with
    | cycle => exact rv32Cycle_follows himp hund h
    | raise irq =>
        obtain ⟨hstep, hirq⟩ := h
        cases hstep
        obtain ⟨_, _, hframe⟩ := rv32TriggerExternalInterrupt_frame s (BitVec.ofNat 32 irq.val)
        refine ⟨machine_trigger hirq, ?_⟩
        simp only [actionOf, step, hframe]
        exact hund.of_eq rfl rfl
  exact ⟨fun hund h => (hfollows hund h).1, fun hund h => (hfollows hund h).2⟩

/-! ## The command-line emulator -/

/-- What the emulator gives its guests: a byte to print at `0x80000000`, and the three `ecall`s. -/
def emulatorEnvironment : Environment (List Output) where
  load out _ _ := (none, out)
  store out n addr v :=
    if n = 1 ∧ addr = 0x80000000 then (true, out ++ [.char (v.setWidth 8)]) else (false, out)
  ecall m :=
    if m.hart.x 17 = 1#32 then { m with env := m.env ++ [.char ((m.hart.x 10).setWidth 8)] }
    else if m.hart.x 17 = 2#32 then { m with env := m.env ++ [.int (m.hart.x 10)] }
    else if m.hart.x 17 = 93#32 then m.stop .halted
    else m

theorem emulatorEnvironment_char {m : Machine (List Output)} (h : m.hart.x 17 = 1#32) :
    emulatorEnvironment.ecall m =
      { m with env := m.env ++ [.char ((m.hart.x 10).setWidth 8)] } := if_pos h

theorem emulatorEnvironment_exit {m : Machine (List Output)} (h : m.hart.x 17 = 93#32) :
    emulatorEnvironment.ecall m = m.stop .halted := by
  simp only [emulatorEnvironment, h]
  rfl

theorem emulatorHost_implements : Implements emulatorHost emulatorEnvironment where
  load8 _ _ := rfl
  load16 _ _ := rfl
  load32 _ _ := rfl
  store8 s addr v := by
    by_cases haddr : addr = 0x80000000
    · simp [emulatorHost, answerStore, emulatorEnvironment, haddr]
    · have henv : emulatorEnvironment.store s.host 1 addr v = (false, s.host) :=
        if_neg fun h => haddr h.2
      rw [answerStore, henv]
      exact if_neg haddr
  store16 s addr v := by simp [emulatorHost, answerStore, emulatorEnvironment]
  store32 s addr v := by simp [emulatorHost, answerStore, emulatorEnvironment]
  ecall s := by
    have ha7 : (machine s).hart.x 17 = s.r regA7 := rfl
    simp only [emulatorHost, emulatorEnvironment, ha7]
    split
    · rename_i h
      rw [if_pos h]
      rfl
    · rename_i h
      rw [if_neg (by rw [h]; decide), if_pos h]
      rfl
    · rename_i h
      rw [if_neg (by rw [h]; decide), if_neg (by rw [h]; decide), if_pos h]
      rfl
    · rename_i h1 h2 h93
      rw [if_neg h1, if_neg h2, if_neg h93]
  frame s := by
    obtain ⟨_, _, hframe⟩ := emulatorHost_ecall s
    rw [hframe]
    exact ⟨rfl, rfl, rfl⟩

/-- **The emulator runs the machine of the ISA.** Whatever run of cycles and raised interrupts the machine has,
    the calls that the events are take the emulator to the struct of the machine the run ends in, if the
    events conform. -/
theorem run_refines_machine (himp : Implements host E) (hund : Undisturbed s) {es : List Event}
    {m : Machine σ} (h : Transition.Run (ConformingStep E) (machine s) es m) :
    machine (runActions host s (es.map actionOf)) = m := by
  rw [runActions, Lts.run_map]
  exact (h.simulate (conforming_simulates himp) hund).1

/-- A device raises irq 3, and the guest prints a byte through the device at `0x80000000`. -/
theorem run_refines_machine_emulator :
    let s := operandPair 0x41 0x80000000 [(Instr.store .sb 6 5 0).encode]
    machine (runActions emulatorHost s [.trigger 3, .cycle]) =
      Instr.run emulatorEnvironment ((machine s).raise 3) (.store .sb 6 5 0) := by
  have hstore : ConformingStep emulatorEnvironment
      ((machine (operandPair 0x41 0x80000000 [(Instr.store .sb 6 5 0).encode])).raise 3) .cycle
      (Instr.run emulatorEnvironment
        ((machine (operandPair 0x41 0x80000000 [(Instr.store .sb 6 5 0).encode])).raise 3)
        (.store .sb 6 5 0)) :=
    .of_ram rfl rfl (by decide) (by decide) id
  have hirq : (3 : Fin 32).val < 4 := by decide
  exact run_refines_machine emulatorHost_implements ⟨rfl, by decide⟩
    (.cons ⟨.raise 3, hirq⟩ (.cons hstore (.nil _)))

end Rv32
