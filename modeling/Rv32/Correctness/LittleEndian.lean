import Rv32.Core.Access
import Rv32.Core.Effect
import Rv32.Core.Emulator
import Rv32.Isa.Format

/-!
# `Correctness.LittleEndian` — the RAM is a little-endian byte array

Seen through the six helpers, in any sequence and at any alignment, the RAM is an array of bytes: a load
assembles, least significant byte first, what was last stored at each of its addresses
(`ByteArrayRam`), and an access that is not wholly inside it never reaches it. Seen through
`rv32_cycle`, the load and store instructions are those helpers at the address and with the extension
the ISA gives them (`MemoryInstructions`).
-/

namespace Rv32

open Access Isa

variable {σ : Type} {host : Host σ} {s t : RV32 σ}

/-! ## Little-endian values -/

/-- The half-word whose bytes, least significant first, stand from `a` on. -/
def le16 (m : Nat → Byte) (a : Nat) : BitVec 16 := m (a + 1) ++ m a

/-- The word whose bytes, least significant first, stand from `a` on. -/
def le32 (m : Nat → Byte) (a : Nat) : Word := m (a + 3) ++ m (a + 2) ++ m (a + 1) ++ m a

theorem read_one (m : ByteMem.Mem) (a : Nat) : ByteMem.read m a 1 = m a := by
  apply BitVec.eq_of_getLsbD_eq
  intro i hi
  simp only [ByteMem.read, BitVec.getLsbD_append]
  rw [if_pos (by omega)]

theorem read_two (m : ByteMem.Mem) (a : Nat) : ByteMem.read m a 2 = le16 m a := by
  apply BitVec.eq_of_getLsbD_eq
  intro i hi
  simp only [ByteMem.read, le16, BitVec.getLsbD_append]
  split_ifs <;> first | rfl | omega

theorem read_four (m : ByteMem.Mem) (a : Nat) : ByteMem.read m a 4 = le32 m a := by
  apply BitVec.eq_of_getLsbD_eq
  intro i hi
  simp only [ByteMem.read, le32, BitVec.getLsbD_append]
  split_ifs <;> first | rfl | omega

/-! ## The statements -/

/-- The RAM of `s` as a byte array: `lastByte s as` is what the helper calls `as` leave in it. -/
structure ByteArrayRam (host : Host σ) (s : RV32 σ) : Prop where
  load8 : ∀ as addr, addr.toNat + 1 ≤ s.memSize.toNat →
    (rv32Load8 host (execAll host s as) addr).1 = some (lastByte s as addr.toNat)
  load16 : ∀ as addr, addr.toNat + 2 ≤ s.memSize.toNat →
    (rv32Load16 host (execAll host s as) addr).1 = some (le16 (lastByte s as) addr.toNat)
  load32 : ∀ as addr, addr.toNat + 4 ≤ s.memSize.toNat →
    (rv32Load32 host (execAll host s as) addr).1 = some (le32 (lastByte s as) addr.toNat)
  fetch : ∀ as t, rv32HandleInterrupt (execAll host s as) = t → Fetching t →
    t.pc.toNat + 4 ≤ s.memSize.toNat →
      (rv32Fetch host (execAll host s as)).1 = some (le32 (lastByte s as) t.pc.toNat)
  store8 : ∀ addr val, addr.toNat + 1 ≤ s.memSize.toNat →
    rv32Store8 host s addr val =
      (.ok, { s.touch addr 1 with mem.bytes := ByteMem.write s.mem.bytes addr.toNat 1 val })
  store16 : ∀ addr val, addr.toNat + 2 ≤ s.memSize.toNat →
    rv32Store16 host s addr val =
      (.ok, { s.touch addr 2 with mem.bytes := ByteMem.write s.mem.bytes addr.toNat 2 val })
  store32 : ∀ addr val, addr.toNat + 4 ≤ s.memSize.toNat →
    rv32Store32 host s addr val =
      (.ok, { s.touch addr 4 with mem.bytes := ByteMem.write s.mem.bytes addr.toNat 4 val })
  outside_mem : ∀ a : Access, ¬ a.InRam s.memSize → (a.exec host s).mem = s.mem
  load8_outside : ∀ addr, s.memSize.toNat < addr.toNat + 1 →
    rv32Load8 host s addr = host.mmioLoad8 s addr
  load16_outside : ∀ addr, s.memSize.toNat < addr.toNat + 2 →
    rv32Load16 host s addr = host.mmioLoad16 s addr
  load32_outside : ∀ addr, s.memSize.toNat < addr.toNat + 4 →
    rv32Load32 host s addr =
      if addr = rv32InterruptControllerAddress then (some s.interruptController.ie, s)
      else host.mmioLoad32 s addr
  store8_outside : ∀ addr val, s.memSize.toNat < addr.toNat + 1 →
    rv32Store8 host s addr val = host.mmioStore8 s addr val
  store16_outside : ∀ addr val, s.memSize.toNat < addr.toNat + 2 →
    rv32Store16 host s addr val = host.mmioStore16 s addr val
  store32_outside : ∀ addr val, s.memSize.toNat < addr.toNat + 4 →
    rv32Store32 host s addr val =
      if addr = rv32InterruptControllerAddress then
        (.ok, { s with interruptController.ie := val })
      else host.mmioStore32 s addr val

/-- How a load instruction ends, given what its helper answered. -/
def finishLoad {n : Nat} (rd : BitVec 5) (extend : BitVec n → Word) :
    Option (BitVec n) × RV32 σ → RV32 σ
  | (some v, t) => t.retire (reg rd) (extend v) (t.pc + 4)
  | (none, t)   => t.accessFault

/-- How a store instruction ends, given what its helper answered. -/
def finishStore : Rv32Result × RV32 σ → RV32 σ
  | (.ok, t)  => { t with pc := t.pc + 4 }
  | (.err, t) => t.accessFault

/-- A cycle of `s` whose fetch yields the I-type encoding of a load or the S-type encoding of a store. `u`
    is the machine after the fetch. -/
structure MemoryInstructions (host : Host σ) (s : RV32 σ) : Prop where
  lb : ∀ imm rs1 rd u, rv32Fetch host s = (some (encodeI imm rs1 0x0 rd 0x03), u) →
    rv32Cycle host s = finishLoad rd (BitVec.signExtend 32)
      (rv32Load8 host u (xreg s rs1 + imm.signExtend 32))
  lh : ∀ imm rs1 rd u, rv32Fetch host s = (some (encodeI imm rs1 0x1 rd 0x03), u) →
    rv32Cycle host s = finishLoad rd (BitVec.signExtend 32)
      (rv32Load16 host u (xreg s rs1 + imm.signExtend 32))
  lw : ∀ imm rs1 rd u, rv32Fetch host s = (some (encodeI imm rs1 0x2 rd 0x03), u) →
    rv32Cycle host s = finishLoad rd id
      (rv32Load32 host u (xreg s rs1 + imm.signExtend 32))
  lbu : ∀ imm rs1 rd u, rv32Fetch host s = (some (encodeI imm rs1 0x4 rd 0x03), u) →
    rv32Cycle host s = finishLoad rd (BitVec.setWidth 32)
      (rv32Load8 host u (xreg s rs1 + imm.signExtend 32))
  lhu : ∀ imm rs1 rd u, rv32Fetch host s = (some (encodeI imm rs1 0x5 rd 0x03), u) →
    rv32Cycle host s = finishLoad rd (BitVec.setWidth 32)
      (rv32Load16 host u (xreg s rs1 + imm.signExtend 32))
  sb : ∀ imm rs2 rs1 u, rv32Fetch host s = (some (encodeS imm rs2 rs1 0x0 0x23), u) →
    rv32Cycle host s = finishStore
      (rv32Store8 host u (xreg s rs1 + imm.signExtend 32) ((xreg s rs2).setWidth 8))
  sh : ∀ imm rs2 rs1 u, rv32Fetch host s = (some (encodeS imm rs2 rs1 0x1 0x23), u) →
    rv32Cycle host s = finishStore
      (rv32Store16 host u (xreg s rs1 + imm.signExtend 32) ((xreg s rs2).setWidth 16))
  sw : ∀ imm rs2 rs1 u, rv32Fetch host s = (some (encodeS imm rs2 rs1 0x2 0x23), u) →
    rv32Cycle host s = finishStore
      (rv32Store32 host u (xreg s rs1 + imm.signExtend 32) (xreg s rs2))

/-! ## Through the helpers -/

theorem byteArrayRam (hpure : host.MmioPure) (hsize : 4 ≤ s.memSize.toNat) : ByteArrayRam host s := by
  have hram as := execAll_ram hpure hsize as
  constructor
  case load8 =>
    intro as addr h
    obtain ⟨hmem, hbytes⟩ := hram as
    rw [rv32Load8, rv32LoadOr_inside (by decide) (hmem ▸ h), hbytes, read_one]
  case load16 =>
    intro as addr h
    obtain ⟨hmem, hbytes⟩ := hram as
    rw [rv32Load16, rv32LoadOr_inside (by decide) (hmem ▸ h), hbytes, read_two]
  case load32 =>
    intro as addr h
    obtain ⟨hmem, hbytes⟩ := hram as
    rw [rv32Load32, rv32LoadOr_inside (by decide) (hmem ▸ h), hbytes, read_four]
  case fetch =>
    rintro as t ht hfetching h
    obtain ⟨hmem, hbytes⟩ := hram as
    -- a trap moves `pc`, but neither the RAM nor its size
    obtain ⟨_, _, _, _, _, _, _, hframe⟩ := rv32HandleInterrupt_frame (execAll host s as)
    have hmem' : t.memSize = s.memSize := by rw [← ht, hframe]; exact hmem
    have hbytes' : t.mem.bytes = lastByte s as := by rw [← ht, hframe]; exact hbytes
    rw [rv32Fetch_handled, ht, hfetching.fetchPhase, rv32Load32,
      rv32LoadOr_inside (by decide) (hmem' ▸ h), hbytes', read_four]
  case store8 => exact fun addr val h => rv32StoreOr_inside (by decide) h
  case store16 => exact fun addr val h => rv32StoreOr_inside (by decide) h
  case store32 => exact fun addr val h => rv32StoreOr_inside (by decide) h
  case outside_mem =>
    intro a h
    have hmmio : host.MmioRel fun s t => t.mem = s.mem := by
      refine hpure.mono ?_
      rintro s _ ⟨_, rfl⟩
      rfl
    rw [exec_eq_of_le hsize, if_neg h]
    exact outside_rel hmmio (fun _ => rfl) (fun _ _ => rfl) s a
  case load8_outside => exact fun addr h => rv32LoadOr_outside (by decide) (by omega) h
  case load16_outside => exact fun addr h => rv32LoadOr_outside (by decide) (by omega) h
  case load32_outside => exact fun addr h => rv32LoadOr_outside (by decide) (by omega) h
  case store8_outside => exact fun addr val h => rv32StoreOr_outside (by decide) (by omega) h
  case store16_outside => exact fun addr val h => rv32StoreOr_outside (by decide) (by omega) h
  case store32_outside => exact fun addr val h => rv32StoreOr_outside (by decide) (by omega) h

/-! ## Through the cycle -/

theorem execLoad_eq {instr : Word} {n : Nat} {p : Option (BitVec n) × RV32 σ} {extend : BitVec n → Word}
    (h : loadAccess host t instr = some (p.map (Option.map extend) id)) :
    execLoad host t instr = finishLoad (rdOf instr) extend p := by
  obtain ⟨v, u⟩ := p
  cases v with
  | none => simp [execLoad, h, finishLoad]
  | some v => simp [execLoad, h, finishLoad, rd_eq]

theorem execStore_eq {instr : Word} {p : Rv32Result × RV32 σ}
    (h : storeAccess host t instr = some p) : execStore host t instr = finishStore p := by
  obtain ⟨res, u⟩ := p
  cases res with
  | ok => simp [execStore, h, finishStore]
  | err => simp [execStore, h, finishStore]

/-- What is above the `switch` clears `x0` and leaves the other registers as they were. -/
theorem fetch_r (hpure : host.MmioPure) {instr : Word} {u : RV32 σ}
    (hfetch : rv32Fetch host s = (some instr, u)) (i : BitVec 5) : u.r (reg i) = xreg s i := by
  obtain ⟨-, v, hload, rfl⟩ := rv32Fetch_some hfetch
  obtain ⟨_, _, hv⟩ := rv32Load32_rel hpure.scratch (rv32HandleInterrupt s) (rv32HandleInterrupt s).pc
  obtain ⟨_, _, _, _, _, _, _, hframe⟩ := rv32HandleInterrupt_frame s
  rw [hload, hframe] at hv
  rw [resetZero_r_reg, show v = _ from hv]
  rfl

section Words

variable {imm : BitVec 12} {rs2 rs1 : BitVec 5} {funct3 : BitVec 3} {rd : BitVec 5}
  {opcode : BitVec 7} {u : RV32 σ}

theorem loadAddr_encodeI (hpure : host.MmioPure)
    (hfetch : rv32Fetch host s = (some (encodeI imm rs1 funct3 rd opcode), u)) :
    loadAddr u (encodeI imm rs1 funct3 rd opcode) = xreg s rs1 + imm.signExtend 32 := by
  rw [loadAddr, rs1_eq, sextImmI_eq, rs1Of_encodeI, immIOf_encodeI, fetch_r hpure hfetch]

theorem storeAddr_encodeS (hpure : host.MmioPure)
    (hfetch : rv32Fetch host s = (some (encodeS imm rs2 rs1 funct3 opcode), u)) :
    storeAddr u (encodeS imm rs2 rs1 funct3 opcode) = xreg s rs1 + imm.signExtend 32 := by
  rw [storeAddr, rs1_eq, sextImmS_eq, rs1Of_encodeS, immSOf_encodeS, fetch_r hpure hfetch]

theorem rs2_encodeS (hpure : host.MmioPure)
    (hfetch : rv32Fetch host s = (some (encodeS imm rs2 rs1 funct3 opcode), u)) :
    u.r (Rv32.rs2 (encodeS imm rs2 rs1 funct3 opcode)) = xreg s rs2 := by
  rw [rs2_eq, rs2Of_encodeS, fetch_r hpure hfetch]

/-- A fetched load word ends as `finishLoad` says. -/
theorem cycle_load (hpure : host.MmioPure) {n : Nat}
    {helper : RV32 σ → Word → Option (BitVec n) × RV32 σ} {extend : BitVec n → Word}
    (hfetch : rv32Fetch host s = (some (encodeI imm rs1 funct3 rd 0x03), u))
    (hacc : ∀ t instr, Rv32.funct3 instr = funct3.setWidth 8 →
      loadAccess host t instr = some ((helper t (loadAddr t instr)).map (Option.map extend) id)) :
    rv32Cycle host s = finishLoad rd extend (helper u (xreg s rs1 + imm.signExtend 32)) := by
  have hop : Rv32.opcode (encodeI imm rs1 funct3 rd 0x03) = 0x03#8 := by
    rw [opcode_eq, opcodeOf_encodeI]; rfl
  have hf3 : Rv32.funct3 (encodeI imm rs1 funct3 rd 0x03) = funct3.setWidth 8 := by
    rw [funct3_eq, funct3Of_encodeI]
  have hexec := execLoad_eq (hacc u _ hf3)
  rw [loadAddr_encodeI hpure hfetch, rdOf_encodeI] at hexec
  rw [rv32Cycle_of_fetch host hfetch, ← hexec]
  simp only [rv32Execute, hop]

/-- A fetched store word ends as `finishStore` says. -/
theorem cycle_store (hpure : host.MmioPure)
    (helper : RV32 σ → Word → Word → Rv32Result × RV32 σ)
    (hfetch : rv32Fetch host s = (some (encodeS imm rs2 rs1 funct3 0x23), u))
    (hacc : ∀ t instr, Rv32.funct3 instr = funct3.setWidth 8 →
      storeAccess host t instr = some (helper t (storeAddr t instr) (t.r (Rv32.rs2 instr)))) :
    rv32Cycle host s =
      finishStore (helper u (xreg s rs1 + imm.signExtend 32) (xreg s rs2)) := by
  have hop : Rv32.opcode (encodeS imm rs2 rs1 funct3 0x23) = 0x23#8 := by
    rw [opcode_eq, opcodeOf_encodeS]; rfl
  have hf3 : Rv32.funct3 (encodeS imm rs2 rs1 funct3 0x23) = funct3.setWidth 8 := by
    rw [funct3_eq, funct3Of_encodeS]
  have hexec := execStore_eq (hacc u _ hf3)
  rw [storeAddr_encodeS hpure hfetch, rs2_encodeS hpure hfetch] at hexec
  rw [rv32Cycle_of_fetch host hfetch, ← hexec]
  simp only [rv32Execute, hop]

end Words

theorem memoryInstructions (hpure : host.MmioPure) : MemoryInstructions host s := by
  constructor
  case lb =>
    intro imm rs1 rd u hfetch
    refine cycle_load hpure hfetch ?_
    intro t instr hf
    simp only [loadAccess, hf.trans (show _ = 0x0#8 from rfl)]
    simp only [sext_setWidth _ (by decide : 0 < 8) (by decide)]
  case lh =>
    intro imm rs1 rd u hfetch
    refine cycle_load hpure hfetch ?_
    intro t instr hf
    simp only [loadAccess, hf.trans (show _ = 0x1#8 from rfl)]
    simp only [sext_setWidth _ (by decide : 0 < 16) (by decide)]
  case lw =>
    intro imm rs1 rd u hfetch
    refine cycle_load hpure hfetch ?_
    intro t instr hf
    simp only [loadAccess, hf.trans (show _ = 0x2#8 from rfl)]
    simp
  case lbu =>
    intro imm rs1 rd u hfetch
    refine cycle_load hpure hfetch ?_
    intro t instr hf
    simp only [loadAccess, hf.trans (show _ = 0x4#8 from rfl)]
  case lhu =>
    intro imm rs1 rd u hfetch
    refine cycle_load hpure hfetch ?_
    intro t instr hf
    simp only [loadAccess, hf.trans (show _ = 0x5#8 from rfl)]
  case sb =>
    intro imm rs2 rs1 u hfetch
    refine cycle_store hpure (fun t addr v => rv32Store8 host t addr (v.setWidth 8)) hfetch ?_
    intro t instr hf
    have hlow : (t.r (Rv32.rs2 instr) &&& 0xff).setWidth 8 = (t.r (Rv32.rs2 instr)).setWidth 8 :=
      Bits.setWidth_and_low _ (by decide)
    simp only [storeAccess, hf.trans (show _ = 0x0#8 from rfl), hlow]
  case sh =>
    intro imm rs2 rs1 u hfetch
    refine cycle_store hpure (fun t addr v => rv32Store16 host t addr (v.setWidth 16)) hfetch ?_
    intro t instr hf
    have hlow : (t.r (Rv32.rs2 instr) &&& 0xffff).setWidth 16 = (t.r (Rv32.rs2 instr)).setWidth 16 :=
      Bits.setWidth_and_low _ (by decide)
    simp only [storeAccess, hf.trans (show _ = 0x1#8 from rfl), hlow]
  case sw =>
    intro imm rs2 rs1 u hfetch
    refine cycle_store hpure (rv32Store32 host) hfetch ?_
    intro t instr hf
    simp only [storeAccess, hf.trans (show _ = 0x2#8 from rfl)]

/-- **The RAM is a little-endian byte array under mixed-width access**, and the load and store
    instructions read and write it at `x[rs1]` plus the sign-extended immediate. -/
theorem ram_littleEndian (host : Host σ) (hpure : host.MmioPure) (s : RV32 σ)
    (hsize : 4 ≤ s.memSize.toNat) :
    ByteArrayRam host s ∧ MemoryInstructions host s :=
  ⟨byteArrayRam hpure hsize, memoryInstructions hpure⟩

/-- The emulator with a load at address 0. -/
theorem ram_littleEndian_emulator :
    ByteArrayRam emulatorHost (emulatorStart [0x00052503]) ∧
      MemoryInstructions emulatorHost (emulatorStart [0x00052503]) :=
  ram_littleEndian emulatorHost emulatorHost_mmioPure (emulatorStart [0x00052503]) (by decide)

end Rv32
