import Rv32.Core.Csr
import Rv32.Core.Decode
import Rv32.Core.Memory

/-!
# `Core.Execute` — the `switch(opcode)` of `rv32_cycle`

One definition per opcode case, each over the state in which the `switch` is entered (`x0` just
cleared). The nested `switch` of a case computes a value or falls into `default`; it is a function to
`Option Word`, `none` being the path that sets `RV32_INVALID_INSTRUCTION` and returns.

The cases of the multiply extension also say which signed operations they evaluate: `mulDivEval` is the
case with both, and `mulDivResult` its value.
-/

namespace Rv32

variable {σ : Type} (host : Host σ)

/-! ## Signed arithmetic -/

/-- A signed operation of C, with its operands in the type it is done in. -/
inductive SignedArith where
  | product (x y : BitVec 64)     -- `int64_t`
  | quotient (x y : Word)         -- `int32_t`
  | remainder (x y : Word)
  deriving DecidableEq, Repr

/-- A value, with the signed operations that are evaluated for it. -/
structure Evaluated (α : Type) where
  value : α
  signedOps : List SignedArith

/-- A value computed without signed operations. -/
def Evaluated.plain {α : Type} (v : α) : Evaluated α := ⟨v, []⟩

def Evaluated.map {α β : Type} (f : α → β) (e : Evaluated α) : Evaluated β := ⟨f e.value, e.signedOps⟩

def SignedArith.evalProduct (x y : BitVec 64) : Evaluated (BitVec 64) := ⟨x * y, [.product x y]⟩
def SignedArith.evalQuotient (x y : Word) : Evaluated Word := ⟨x.sdiv y, [.quotient x y]⟩
def SignedArith.evalRemainder (x y : Word) : Evaluated Word := ⟨x.srem y, [.remainder x y]⟩

@[simp] theorem Evaluated.map_value {α β : Type} (f : α → β) (e : Evaluated α) :
    (e.map f).value = f e.value := rfl

@[simp] theorem SignedArith.evalProduct_value (x y : BitVec 64) : (evalProduct x y).value = x * y := rfl

/-! ## Results of the inner switches -/

open SignedArith in
/-- The multiply extension, on the values of `rs1` and `rs2`. -/
def mulDivEval (funct3 : BitVec 8) (a b : Word) : Option (Evaluated Word) :=
  match funct3 with
  | 0x0#8 => some                                                                    -- mul
      ((evalProduct (a.setWidth 64) (b.setWidth 64)).map fun p => (p &&& 0xFFFFFFFF#64).setWidth 32)
  | 0x1#8 => some                                                                    -- mulh
      ((evalProduct (a.signExtend 64) (b.signExtend 64)).map fun p => (p.sshiftRight 32).setWidth 32)
  | 0x2#8 => some                                                                    -- mulhsu
      ((evalProduct (a.signExtend 64) (b.setWidth 64)).map fun p => (p.sshiftRight 32).setWidth 32)
  | 0x3#8 => some (.plain (((a.setWidth 64 * b.setWidth 64) >>> 32).setWidth 32))    -- mulhu
  | 0x4#8 => some                                                                    -- div
      (if b = 0 then .plain 0xFFFFFFFF
       else if a = 0x80000000 ∧ b = -1 then .plain a
       else evalQuotient a b)
  | 0x5#8 => some (.plain (if b = 0 then 0xFFFFFFFF else a / b))                     -- divu
  | 0x6#8 => some                                                                    -- rem
      (if b = 0 then .plain a
       else if a = 0x80000000 ∧ b = -1 then .plain 0
       else evalRemainder a b)
  | 0x7#8 => some (.plain (if b = 0 then a else a % b))                              -- remu
  | _ => none

/-- What the multiply extension assigns to `rd`. -/
def mulDivResult (funct3 : BitVec 8) (a b : Word) : Option Word := (mulDivEval funct3 a b).map Evaluated.value

theorem mulDivResult_div (a b : Word) :
    mulDivResult 0x4#8 a b =
      some (if b = 0 then 0xFFFFFFFF else if a = 0x80000000 ∧ b = -1 then a else a.sdiv b) := by
  simp only [mulDivResult, mulDivEval, Option.map_some, apply_ite Evaluated.value]
  rfl

theorem mulDivResult_rem (a b : Word) :
    mulDivResult 0x6#8 a b =
      some (if b = 0 then a else if a = 0x80000000 ∧ b = -1 then 0 else a.srem b) := by
  simp only [mulDivResult, mulDivEval, Option.map_some, apply_ite Evaluated.value]
  rfl

/-- `case 0x33`, on the values of `rs1` and `rs2`. -/
def opResult (funct7 funct3 : BitVec 8) (a b : Word) : Option Word :=
  if funct7 = 0x01 then mulDivResult funct3 a b
  else match funct3 with
  | 0x0#8 =>
      if funct7 = 0x00 then some (a + b)                                 -- add
      else if funct7 = 0x20 then some (a - b)                            -- sub
      else none
  | 0x4#8 => some (a ^^^ b)                                              -- xor
  | 0x6#8 => some (a ||| b)                                              -- or
  | 0x7#8 => some (a &&& b)                                              -- and
  | 0x1#8 => some (a <<< (b &&& 0x1f).toNat)                             -- sll
  | 0x5#8 =>
      if funct7 = 0x00 then some (a >>> (b &&& 0x1f).toNat)              -- srl
      else if funct7 = 0x20 then some (a.sshiftRight (b &&& 0x1f).toNat) -- sra
      else none
  | 0x2#8 => some (if a.slt b then 1 else 0)                             -- slt
  | 0x3#8 => some (if a < b then 1 else 0)                               -- sltu
  | _ => none

/-- `case 0x13`, on the value of `rs1`. -/
def opImmResult (instr : Word) (a : Word) : Option Word :=
  match funct3 instr with
  | 0x0#8 => some (a + sextImmI instr)                              -- addi
  | 0x4#8 => some (a ^^^ sextImmI instr)                            -- xori
  | 0x6#8 => some (a ||| sextImmI instr)                            -- ori
  | 0x7#8 => some (a &&& sextImmI instr)                            -- andi
  | 0x1#8 => some (a <<< (immI instr &&& 0x1f).toNat)               -- slli
  | 0x5#8 =>
      if funct7 instr = 0x00 then
        some (a >>> (immI instr &&& 0x1f).toNat)                    -- srli
      else if funct7 instr = 0x20 then
        some (a.sshiftRight (immI instr &&& 0x1f).toNat)            -- srai
      else none
  | 0x2#8 => some (if a.slt (sextImmI instr) then 1 else 0)         -- slti
  | 0x3#8 => some (if a < immI instr then 1 else 0)                 -- sltiu
  | _ => none

/-- The condition of a branch (`case 0x63`), on the values of `rs1` and `rs2`. -/
def branchTaken (funct3 : BitVec 8) (a b : Word) : Option Bool :=
  match funct3 with
  | 0x0#8 => some (a = b)          -- beq
  | 0x1#8 => some (a ≠ b)          -- bne
  | 0x4#8 => some (a.slt b)        -- blt
  | 0x5#8 => some (!a.slt b)       -- bge
  | 0x6#8 => some (a < b)          -- bltu
  | 0x7#8 => some (¬ a < b)        -- bgeu
  | _ => none

/-- `w_val` of a Zicsr instruction. -/
def csrWriteValue (funct3 : BitVec 8) (rVal rs1 imm : Word) : Option Word :=
  match funct3 with
  | 0x1#8 => some rs1              -- csrrw
  | 0x2#8 => some (rVal ||| rs1)   -- csrrs
  | 0x3#8 => some (rVal &&& ~~~rs1) -- csrrc
  | 0x5#8 => some imm              -- csrrwi
  | 0x6#8 => some (rVal ||| imm)   -- csrrsi
  | 0x7#8 => some (rVal &&& ~~~imm) -- csrrci
  | _ => none

variable (s : RV32 σ) (instr : Word)

/-- The address of a load, `rv32->r[RS1] + SEXT_IMM_I`. -/
def loadAddr : Word := s.r (rs1 instr) + sextImmI instr

/-- The address of a store, `rv32->r[RS1] + SEXT_IMM_S`. -/
def storeAddr : Word := s.r (rs1 instr) + sextImmS instr

/-- The memory access of `case 0x3`: the value for `rd`, or `none` when the helper fails. -/
def loadAccess : Option (Option Word × RV32 σ) :=
  let addr := loadAddr s instr
  match funct3 instr with
  | 0x0#8 => some ((rv32Load8 host s addr).map (Option.map fun v => sext (v.setWidth 32) 8) id)    -- lb
  | 0x1#8 => some ((rv32Load16 host s addr).map (Option.map fun v => sext (v.setWidth 32) 16) id)  -- lh
  | 0x2#8 => some (rv32Load32 host s addr)                                                         -- lw
  | 0x4#8 => some ((rv32Load8 host s addr).map (Option.map fun v => v.setWidth 32) id)             -- lbu
  | 0x5#8 => some ((rv32Load16 host s addr).map (Option.map fun v => v.setWidth 32) id)            -- lhu
  | _ => none

/-- The memory access of `case 0x23`. -/
def storeAccess : Option (Rv32Result × RV32 σ) :=
  let addr := storeAddr s instr
  match funct3 instr with
  | 0x0#8 => some (rv32Store8 host s addr ((s.r (rs2 instr) &&& 0xff).setWidth 8))       -- sb
  | 0x1#8 => some (rv32Store16 host s addr ((s.r (rs2 instr) &&& 0xffff).setWidth 16))   -- sh
  | 0x2#8 => some (rv32Store32 host s addr (s.r (rs2 instr)))                            -- sw
  | _ => none

/-! ## The opcode cases -/

variable {s} in
/-- `rv32->status = RV32_INVALID_INSTRUCTION; return;` -/
def RV32.invalid (s : RV32 σ) : RV32 σ := { s with status := .invalidInstruction }

variable {s} in
/-- `rv32->status = RV32_INVALID_MEMORY_ACCESS; return;` -/
def RV32.accessFault (s : RV32 σ) : RV32 σ := { s with status := .invalidMemoryAccess }

variable {s} in
/-- `rv32->r[RD] = v; rv32->pc = pc;` -/
def RV32.retire (s : RV32 σ) (rd : Fin 32) (v pc : Word) : RV32 σ :=
  { s with r := Function.update s.r rd v, pc := pc }

def execOp : RV32 σ :=
  match opResult (funct7 instr) (funct3 instr) (s.r (rs1 instr)) (s.r (rs2 instr)) with
  | some v => s.retire (rd instr) v (s.pc + 4)
  | none   => s.invalid

def execOpImm : RV32 σ :=
  match opImmResult instr (s.r (rs1 instr)) with
  | some v => s.retire (rd instr) v (s.pc + 4)
  | none   => s.invalid

def execLoad : RV32 σ :=
  match loadAccess host s instr with
  | some (some v, s) => s.retire (rd instr) v (s.pc + 4)
  | some (none, s)   => s.accessFault
  | none             => s.invalid

def execStore : RV32 σ :=
  match storeAccess host s instr with
  | some (.ok, s)  => { s with pc := s.pc + 4 }
  | some (.err, s) => s.accessFault
  | none           => s.invalid

def execBranch : RV32 σ :=
  match branchTaken (funct3 instr) (s.r (rs1 instr)) (s.r (rs2 instr)) with
  | some true  => { s with pc := s.pc + sextImmB instr }
  | some false => { s with pc := s.pc + 4 }
  | none       => s.invalid

/-- The Zicsr branch of `case 0x73`. -/
def execCsr : RV32 σ :=
  let rVal := rv32ReadCsr s (immI instr)
  match csrWriteValue (funct3 instr) rVal (s.r (rs1 instr)) (BitVec.ofNat 32 (rs1 instr).val) with
  | some wVal =>
      let s := rv32WriteCsr s (immI instr) wVal
      s.retire (rd instr) rVal (s.pc + 4)
  | none => s.invalid

def execSystem : RV32 σ :=
  if funct3 instr = 0 then
    match immI instr with
    | 0x0#32 =>                                                 -- ecall
        let s := host.ecall s
        if s.status ≠ .running then s else { s with pc := s.pc + 4 }
    | 0x1#32 => { s with status := .ebreak, pc := s.pc + 4 }    -- ebreak
    | 0x302#32 =>                                               -- mret
        { s with
          pc := s.mepc
          mstatus := csrSetBit s.mstatus csrMstatusMie (csrGetBit s.mstatus csrMstatusMpie) }
    | 0x105#32 => { s with wfi := 1, pc := s.pc + 4 }           -- wfi
    | _ => s.invalid
  else if funct3 instr &&& 0x3 ≠ 0 then execCsr s instr
  else s.invalid

/-- `switch(opcode)` -/
def rv32Execute : RV32 σ :=
  match opcode instr with
  | 0x33#8 => execOp s instr
  | 0x13#8 => execOpImm s instr
  | 0x03#8 => execLoad host s instr
  | 0x23#8 => execStore host s instr
  | 0x63#8 => execBranch s instr
  | 0x6f#8 => s.retire (rd instr) (s.pc + 4) (s.pc + sextImmJ instr)                             -- jal
  | 0x67#8 => s.retire (rd instr) (s.pc + 4) ((s.r (rs1 instr) + sextImmI instr) &&& ~~~1#32)    -- jalr
  | 0x37#8 => s.retire (rd instr) (sextImmU instr <<< 12) (s.pc + 4)                             -- lui
  | 0x17#8 => s.retire (rd instr) (s.pc + (sextImmU instr <<< 12)) (s.pc + 4)                    -- auipc
  | 0x73#8 => execSystem host s instr
  | _ => s.invalid

end Rv32
