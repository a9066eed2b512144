import Rv32.Core.Main
import Rv32.Correctness.System
import Rv32.Lib.Reach

/-!
# `Guest.Program` — reasoning about a program in the RAM

A guest program is a list of instructions that the RAM holds from address 0 on (`Loaded`). `At` is a machine
that has come to one of them, with interrupts disabled; there is a rule for each kind of instruction that says
which machine is next. The rules are about the machine of the ISA, and only ask for what the emulator follows;
`mainLoop_of_reaches` carries what is proved with them to the loop of `main`.
-/

namespace Rv32
namespace Guest

open Isa Transition

variable {ε : Type} {E : Environment ε} {code : List Instr} {mem : ByteMem.Mem} {size : Word}

/-- The RAM holds the code from address 0 on. -/
structure Loaded (code : List Instr) (mem : ByteMem.Mem) (size : Word) : Prop where
  fits : 4 * code.length ≤ size.toNat
  word : ∀ k i, code[k]? = some i → ByteMem.read mem (4 * k) 4 = i.encode

/-- A machine before the instruction `k`. -/
structure At (mem : ByteMem.Mem) (size : Word) (k : Nat) (env : ε) (m : Machine ε) : Prop where
  mode : m.mode = .running
  mie : m.mie = false
  mem : m.mem = mem
  size : m.size = size
  pc : m.hart.pc = BitVec.ofNat 32 (4 * k)
  env : m.env = env

/-- A cycle that the emulator follows. -/
abbrev Cycle (E : Environment ε) (m m' : Machine ε) : Prop := ConformingStep E m .cycle m'

section Rules

variable {m : Machine ε} {k k' : Nat} {env : ε} {i : Instr}

theorem Loaded.index_lt (h : Loaded code mem size) (hi : code[k]? = some i) : 4 * k + 4 ≤ size.toNat := by
  have hk : k < code.length := (List.getElem?_eq_some_iff.mp hi).1
  have hfits := h.fits
  omega

theorem Loaded.toNat_pc (h : Loaded code mem size) (hi : code[k]? = some i) :
    (BitVec.ofNat 32 (4 * k)).toNat = 4 * k := by
  have hlt := h.index_lt hi
  have hsize := size.isLt
  rw [BitVec.toNat_ofNat]
  omega

/-- **The instruction is executed.** -/
theorem At.cycle (h : At mem size k env m) (hcode : Loaded code mem size) (hi : code[k]? = some i)
    (hconf : Conforms m i) : Cycle E m (i.run E m) := by
  have hpc : m.hart.pc.toNat = 4 * k := by
    rw [h.pc]
    exact hcode.toNat_pc hi
  refine .of_ram h.mode h.mie ?_ ?_ hconf
  · rw [Machine.InRam, hpc, h.size]
    exact hcode.index_lt hi
  · rw [h.mem, hpc]
    exact hcode.word k i hi

theorem conforms_of_exec {g : Hart} (hexec : i.exec m.hart = some g) (hdev : ¬ Deviates m.hart i) :
    Conforms m i := by
  cases i with
  | fence fm rs1 rd => cases hexec
  | system op => cases hexec
  | _ => exact hdev

/-- An instruction of the hart. -/
theorem At.exec (h : At mem size k env m) (hcode : Loaded code mem size) (hi : code[k]? = some i) {g : Hart}
    (hexec : i.exec m.hart = some g) (hdev : ¬ Deviates m.hart i) (hcsr : g.csr = m.hart.csr)
    (hpc : g.pc = BitVec.ofNat 32 (4 * k')) :
    ∃ m', Cycle E m m' ∧ At mem size k' env m' ∧ m'.hart = g := by
  have hrun : i.run E m = { m with hart := g } := run_of_exec hexec
  refine ⟨{ m with hart := g }, hrun ▸ h.cycle hcode hi (conforms_of_exec hexec hdev), ?_, rfl⟩
  refine ⟨h.mode, ?_, h.mem, h.size, hpc, h.env⟩
  show (g.csr .mstatus).getLsbD 3 = false
  rw [hcsr]
  exact h.mie

theorem At.next_pc (h : At mem size k env m) : m.hart.pc + 4 = BitVec.ofNat 32 (4 * (k + 1)) := by
  rw [h.pc, Nat.mul_succ, BitVec.ofNat_add]
  rfl

theorem eval_add (a b : Word) : RegOp.add.eval a b = a + b := by
  rw [RegOp.eval, BitVec.ofInt_add, BitVec.ofInt_toInt, BitVec.ofInt_toInt]

theorem At.addi (h : At mem size k env m) (hcode : Loaded code mem size) {rd rs1 : BitVec 5}
    {imm : BitVec 12} (hi : code[k]? = some (.regImm .addi rd rs1 imm)) :
    ∃ m', Cycle E m m' ∧ At mem size (k + 1) env m' ∧
      ∀ j, m'.hart.x j =
        if j = 0 then 0 else if j = rd then m.hart.x rs1 + imm.signExtend 32 else m.hart.x j := by
  obtain ⟨m', hcycle, hat, hhart⟩ := h.exec (E := E) hcode hi rfl id rfl h.next_pc
  refine ⟨m', hcycle, hat, fun j => ?_⟩
  rw [hhart, Hart.retire_x, ImmOp.regOp, eval_add]

theorem At.auipc (h : At mem size k env m) (hcode : Loaded code mem size) {rd : BitVec 5}
    {imm : BitVec 20} (hi : code[k]? = some (.auipc rd imm)) :
    ∃ m', Cycle E m m' ∧ At mem size (k + 1) env m' ∧
      ∀ j, m'.hart.x j =
        if j = 0 then 0 else if j = rd then BitVec.ofNat 32 (4 * k) + upper imm else m.hart.x j := by
  obtain ⟨m', hcycle, hat, hhart⟩ := h.exec (E := E) hcode hi rfl id rfl h.next_pc
  refine ⟨m', hcycle, hat, fun j => ?_⟩
  rw [hhart, Hart.retire_x, h.pc]

/-- A branch to the instruction `k'`, or past it. -/
theorem At.branch (h : At mem size k env m) (hcode : Loaded code mem size) {op : BranchOp}
    {rs1 rs2 : BitVec 5} {imm : BitVec 12} (hi : code[k]? = some (.branch op rs1 rs2 imm))
    (htarget : BitVec.ofNat 32 (4 * k) + offset imm = BitVec.ofNat 32 (4 * k')) :
    ∃ m', Cycle E m m' ∧
      At mem size (if op.Taken (m.hart.x rs1) (m.hart.x rs2) then k' else k + 1) env m' ∧
      m'.hart.x = m.hart.x := by
  have hpc : m.hart.pc + (if op.Taken (m.hart.x rs1) (m.hart.x rs2) then offset imm else 4) =
      BitVec.ofNat 32 (4 * if op.Taken (m.hart.x rs1) (m.hart.x rs2) then k' else k + 1) := by
    split
    · rw [h.pc, htarget]
    · exact h.next_pc
  obtain ⟨m', hcycle, hat, hhart⟩ := h.exec (E := E) hcode hi rfl id rfl hpc
  exact ⟨m', hcycle, hat, by rw [hhart]⟩

/-- A jump to the instruction `k'`. -/
theorem At.j (h : At mem size k env m) (hcode : Loaded code mem size) {imm : BitVec 20}
    (hi : code[k]? = some (.jal 0 imm)) (hreach : -2 ^ 18 ≤ imm.toInt ∧ imm.toInt < 2 ^ 18)
    (htarget : BitVec.ofNat 32 (4 * k) + offset imm = BitVec.ofNat 32 (4 * k')) :
    ∃ m', Cycle E m m' ∧ At mem size k' env m' ∧ m'.hart.x = m.hart.x := by
  obtain ⟨m', hcycle, hat, hhart⟩ := h.exec (E := E) hcode hi rfl (not_not.mpr hreach) rfl
    (show m.hart.pc + offset imm = _ by rw [h.pc, htarget])
  refine ⟨m', hcycle, hat, ?_⟩
  rw [hhart]
  funext j
  by_cases hj : j = 0
  · rw [hj, Hart.x_zero, Hart.x_zero]
  · rw [Hart.retire_x_of_ne _ hj]

/-- A load from the RAM. -/
theorem At.lw (h : At mem size k env m) (hcode : Loaded code mem size) {rd rs1 : BitVec 5} {imm : BitVec 12}
    (hi : code[k]? = some (.load .lw rd rs1 imm)) {a : Nat}
    (haddr : (m.hart.x rs1 + imm.signExtend 32).toNat = a) (hin : a + 4 ≤ size.toNat) :
    ∃ m', Cycle E m m' ∧ At mem size (k + 1) env m' ∧
      ∀ j, m'.hart.x j = if j = 0 then 0 else if j = rd then ByteMem.read mem a 4 else m.hart.x j := by
  have hram : m.InRam (m.hart.x rs1 + imm.signExtend 32) 4 := by
    rw [Machine.InRam, haddr, h.size]
    exact hin
  have hload : m.load E 4 (m.hart.x rs1 + imm.signExtend 32) =
      (some (ByteMem.read mem a 4), m) := by
    rw [Machine.load, if_pos hram, h.mem, haddr]
  have hrun : Instr.run E m (.load .lw rd rs1 imm) =
      { m with hart := m.hart.retire rd (ByteMem.read mem a 4) (m.hart.pc + 4) } := by
    have hfinish : Instr.run E m (.load .lw rd rs1 imm) =
        Machine.finishLoad .lw rd (m.load E 4 (m.hart.x rs1 + imm.signExtend 32)) := rfl
    rw [hfinish, hload]
    simp only [Machine.finishLoad, LoadOp.extend, BitVec.signExtend_eq]
  have hcycle := h.cycle (E := E) hcode hi id
  rw [hrun] at hcycle
  refine ⟨_, hcycle, ⟨h.mode, h.mie, h.mem, h.size, h.next_pc, h.env⟩, fun j => ?_⟩
  exact Hart.retire_x _ _ _ _ j

/-- A load from nowhere stops the machine. -/
theorem At.lw_fault (h : At mem size k env m) (hcode : Loaded code mem size) {rd rs1 : BitVec 5}
    {imm : BitVec 12} (hi : code[k]? = some (.load .lw rd rs1 imm))
    (hout : size.toNat < (m.hart.x rs1 + imm.signExtend 32).toNat + 4)
    (hcontroller : m.hart.x rs1 + imm.signExtend 32 ≠ controllerAddress)
    (hload : E.load env 4 (m.hart.x rs1 + imm.signExtend 32) = (none, env)) :
    Cycle E m (m.stop .fault) := by
  have hram : ¬ m.InRam (m.hart.x rs1 + imm.signExtend 32) 4 := by
    rw [Machine.InRam, h.size]
    omega
  have hnone : m.load E 4 (m.hart.x rs1 + imm.signExtend 32) = (none, m) := by
    rw [Machine.load, if_neg hram, if_neg (fun hc => hcontroller hc.2), h.env, hload]
    have hm := h.env
    subst hm
    rfl
  have hrun : Instr.run E m (.load .lw rd rs1 imm) = m.stop .fault := by
    have hfinish : Instr.run E m (.load .lw rd rs1 imm) =
        Machine.finishLoad .lw rd (m.load E 4 (m.hart.x rs1 + imm.signExtend 32)) := rfl
    rw [hfinish, hnone]
    rfl
  exact hrun ▸ h.cycle hcode hi id

end Rules

/-! ## The emulator's environment -/

section Ecall

variable {m : Machine (List Output)} {k : Nat} {out : List Output}

/-- `ecall` with 1 in `a7` prints the low byte of `a0`. -/
theorem At.printChar (h : At mem size k out m) (hcode : Loaded code mem size)
    (hi : code[k]? = some (.system .ecall)) (ha7 : m.hart.x 17 = 1#32) :
    ∃ m', Cycle emulatorEnvironment m m' ∧
      At mem size (k + 1) (out ++ [Output.char ((m.hart.x 10).setWidth 8)]) m' ∧ m'.hart.x = m.hart.x := by
  have hcycle := h.cycle (E := emulatorEnvironment) hcode hi id
  rw [run_ecall, emulatorEnvironment_char ha7, if_pos h.mode] at hcycle
  refine ⟨_, hcycle, ⟨h.mode, h.mie, h.mem, h.size, h.next_pc, ?_⟩, rfl⟩
  exact congrArg (fun env => env ++ [Output.char ((m.hart.x 10).setWidth 8)]) h.env

/-- `ecall` with 93 in `a7` stops the machine. -/
theorem At.exit (h : At mem size k out m) (hcode : Loaded code mem size)
    (hi : code[k]? = some (.system .ecall)) (ha7 : m.hart.x 17 = 93#32) :
    Cycle emulatorEnvironment m (m.stop .halted) := by
  have hcycle := h.cycle (E := emulatorEnvironment) hcode hi id
  rw [run_ecall, emulatorEnvironment_exit ha7, if_neg (by simp [Machine.stop])] at hcycle
  exact hcycle

end Ecall

/-! ## Program files -/

/-- The bytes of a word, as a file holds them. -/
def wordBytes (w : Word) : List Byte := (List.range 4).map fun j => w.extractLsb' (8 * j) 8

/-- The code as `objcopy` leaves it. -/
def binary (code : List Instr) : List Byte := code.flatMap fun i => wordBytes i.encode

theorem length_binary (code : List Instr) : (binary code).length = 4 * code.length := by
  induction code with
  | nil => rfl
  | cons i is ih =>
      rw [binary, List.flatMap_cons, List.length_append, ← binary, ih, List.length_cons]
      simp only [wordBytes, List.length_map, List.length_range]
      omega

theorem getElem?_binary {code : List Instr} {k : Nat} {i : Instr} (hi : code[k]? = some i) {j : Nat}
    (hj : j < 4) : (binary code)[4 * k + j]? = some (i.encode.extractLsb' (8 * j) 8) := by
  have hbytes : ∀ i : Instr, (wordBytes i.encode).length = 4 := fun i => rfl
  induction code generalizing k with
  | nil => cases hi
  | cons i' is ih =>
      rw [binary, List.flatMap_cons, ← binary]
      cases k with
      | zero =>
          obtain rfl := Option.some.inj hi
          rw [List.getElem?_append_left (by rw [hbytes]; omega), wordBytes, List.getElem?_map,
            Nat.mul_zero, Nat.zero_add, List.getElem?_range hj]
          rfl
      | succ k =>
          rw [List.getElem?_append_right (by rw [hbytes]; omega), hbytes,
            show 4 * (k + 1) + j - 4 = 4 * k + j by omega]
          exact ih hi

/-- A word is read back from its bytes. -/
theorem read_wordBytes {a : Nat} {w : Word} (h : ∀ j < 4, mem (a + j) = w.extractLsb' (8 * j) 8) :
    ByteMem.read mem a 4 = w := by
  have h0 : mem a = w.extractLsb' 0 8 := h 0 (by decide)
  rw [read_four, le32, h 3 (by decide), h 2 (by decide), h 1 (by decide), h0]
  simp (disch := decide) only [Nat.reduceMul, BitVec.extractLsb'_append_extractLsb'_eq_extractLsb']
  exact BitVec.extractLsb'_eq_self

/-- A file that starts with the code loads it. -/
theorem loaded_binary {code : List Instr} {data : List Byte} {rest : ByteMem.Mem}
    (hfits : 4 * code.length ≤ size.toNat) :
    Loaded code (fun i => (binary code ++ data)[i]?.getD (rest i)) size where
  fits := hfits
  word k i hi := by
    refine read_wordBytes fun j hj => ?_
    have hlt : 4 * k + j < (binary code).length := by
      have hk : k < code.length := (List.getElem?_eq_some_iff.mp hi).1
      rw [length_binary]
      omega
    show Option.getD _ _ = _
    rw [List.getElem?_append_left hlt, getElem?_binary hi hj]
    rfl

/-! ## In the loop of `main` -/

section Main

variable {σ : Type} {host : Host σ} {E : Environment σ} {s : RV32 σ} {m : Machine σ}

/-- A machine that is stopped has no cycle. -/
theorem status_of_cycle {m' : Machine σ} (h : Cycle E (machine s) m') : s.status = .running := by
  obtain ⟨hstep, -⟩ := h
  cases hstep with
  | instr hrunning _ => exact running_of_trap (.inl hrunning)
  | fault hrunning _ => exact running_of_trap (.inl hrunning)
  | wait hwaiting => exact running_of_trap (.inr hwaiting)

/-- Cycles that stop the machine are the cycles the emulator makes until it stops. -/
theorem runsFor_of_run (himp : Implements host E) (hund : Undisturbed s) {n : Nat}
    (h : Run (ConformingStep E) (machine s) (List.replicate n .cycle) m)
    (hrunning : s.status = .running) (hstopped : ∃ why, m.mode = .stopped why) :
    ∃ k, RunsFor host s (k + 1) ∧ machine ((rv32Cycle host)^[k + 1] s) = m := by
  induction n generalizing s with
  | zero =>
      cases h
      obtain ⟨why, hmode⟩ := hstopped
      have hst : s.status = statusOf why := modeOf_eq_stopped.mp hmode
      exact absurd (hst.symm.trans hrunning) (statusOf_ne_running why)
  | succ n ih =>
      cases h with
      | cons hstep hrest =>
          obtain ⟨hcycle, hund'⟩ := rv32Cycle_follows himp hund hstep
          subst hcycle
          by_cases hnext : (rv32Cycle host s).status = .running
          · obtain ⟨k, hruns, hmachine⟩ := ih hund' hrest hnext
            refine ⟨k + 1, ⟨?_, hruns.2⟩, hmachine⟩
            intro i hi
            cases i with
            | zero => exact hrunning
            | succ i => exact hruns.1 i (Nat.lt_of_succ_lt_succ hi)
          · refine ⟨0, ⟨?_, hnext⟩, ?_⟩
            · intro i hi
              obtain rfl : i = 0 := by omega
              exact hrunning
            · cases n with
              | zero =>
                  cases hrest
                  rfl
              | succ n =>
                  cases hrest with
                  | cons hmore _ => exact absurd (status_of_cycle hmore) hnext

/-- **What the machine of the ISA reaches, the loop of `main` reaches.** -/
theorem mainLoop_of_reaches (himp : Implements host E) (hund : Undisturbed s)
    (h : Relation.ReflTransGen (Cycle E) (machine s) m) (hrunning : s.status = .running)
    (hstopped : ∃ why, m.mode = .stopped why) :
    ∃ n t, mainLoop host n s = some (emulatorReport t) ∧ machine t = m := by
  obtain ⟨n, hrun⟩ := Run.of_reachable h
  obtain ⟨k, hruns, hmachine⟩ := runsFor_of_run himp hund hrun hrunning hstopped
  exact ⟨k + 1, _, mainLoop_of_runsFor hruns, hmachine⟩

end Main

end Guest
end Rv32
