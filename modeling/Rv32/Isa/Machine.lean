import Rv32.Isa.Hart

/-!
# `Isa.Machine` — a hart with its memory, its environment and its interrupts

`Instr.exec` stops where an instruction leaves the hart. Here is the rest of the machine: the byte-addressed
RAM, the environment that answers the accesses beside it and the `ecall`s, the interrupt controller, and trap
entry. `Step` is one event of the whole machine, a cycle or a device raising its irq, and a run of it fetches
its own instructions, so a program may write the memory it is executed from.

Like `Isa.Hart` this is written from the ISA and not from `rv32.h`. The environment is free where the ISA
leaves it free: an exception stops the hart, and the external interrupts have causes of their own from 16 on.
-/

namespace Rv32
namespace Isa

/-! ## The machine -/

/-- Why a hart does not go on. -/
inductive Stop where
  | halted
  | paused
  | ebreak
  | illegal
  | fault
  deriving DecidableEq, Repr

inductive Mode where
  | running
  | waiting                 -- after WFI, until the next trap
  | stopped (why : Stop)
  deriving DecidableEq, Repr

/-- `size` bytes of `mem` are RAM; `env` is the state the environment keeps. -/
@[ext] structure Machine (ε : Type) where
  hart : Hart
  mode : Mode
  mem : ByteMem.Mem
  size : Word
  controller : InterruptController
  env : ε

/-- What answers the accesses outside the RAM, by their number of bytes, and the `ecall`s. -/
structure Environment (ε : Type) where
  load : ε → (n : Nat) → Word → Option (BitVec (8 * n)) × ε
  store : ε → (n : Nat) → Word → BitVec (8 * n) → Bool × ε
  ecall : Machine ε → Machine ε

/-- The word with one bit set or cleared. -/
def setBit (w : Word) (i : Nat) (b : Bool) : Word :=
  if b then w ||| BitVec.twoPow 32 i else w &&& ~~~BitVec.twoPow 32 i

theorem getLsbD_setBit (w : Word) {i : Nat} (hi : i < 32) (b : Bool) (j : Nat) :
    (setBit w i b).getLsbD j = if j = i then b else w.getLsbD j := by
  have htwo : (BitVec.twoPow 32 i).getLsbD j = decide (j = i) := by
    rw [BitVec.getLsbD_twoPow, decide_eq_true hi, Bool.true_and, decide_eq_decide]
    exact eq_comm
  unfold setBit
  cases b with
  | true =>
      rw [if_pos rfl, BitVec.getLsbD_or, htwo]
      by_cases hj : j = i <;> simp [hj]
  | false =>
      rw [if_neg Bool.false_ne_true, BitVec.getLsbD_and, BitVec.getLsbD_not, htwo]
      by_cases hj : j = i
      · simp [hj]
      · rw [decide_eq_false hj, if_neg hj]
        by_cases hlt : j < 32
        · simp [hlt]
        · rw [BitVec.getLsbD_of_ge w j (by omega), Bool.false_and]

/-- The word the interrupt controller shows its enable bits at. -/
def controllerAddress : Word := 0x90000000

namespace Machine

variable {ε : Type} (E : Environment ε) (m : Machine ε)

def stop (why : Stop) : Machine ε := { m with mode := .stopped why }

/-- On to `pc`. -/
def goTo (pc : Word) : Machine ε := { m with hart := { m.hart with pc := pc } }

def setCsr (c : Cell) (v : Word) : Machine ε :=
  { m with hart := { m.hart with csr := Function.update m.hart.csr c v } }

/-! ## Memory -/

/-- All `n` bytes from `addr` on are RAM. -/
def InRam (addr : Word) (n : Nat) : Prop := addr.toNat + n ≤ m.size.toNat

instance (addr : Word) (n : Nat) : Decidable (m.InRam addr n) := inferInstanceAs (Decidable (_ ≤ _))

/-- The little-endian value of the `n` bytes at `addr`. -/
def load (n : Nat) (addr : Word) : Option (BitVec (8 * n)) × Machine ε :=
  if m.InRam addr n then (some (ByteMem.read m.mem addr.toNat n), m)
  else if n = 4 ∧ addr = controllerAddress then (some (m.controller.ie.setWidth (8 * n)), m)
  else ((E.load m.env n addr).1, { m with env := (E.load m.env n addr).2 })

def store (n : Nat) (addr : Word) (v : BitVec (8 * n)) : Bool × Machine ε :=
  if m.InRam addr n then (true, { m with mem := ByteMem.write m.mem addr.toNat n v })
  else if n = 4 ∧ addr = controllerAddress then (true, { m with controller.ie := v.setWidth 32 })
  else ((E.store m.env n addr v).1, { m with env := (E.store m.env n addr v).2 })

/-- The instruction word at `pc`. -/
def fetch : Option Word × Machine ε := m.load E 4 m.hart.pc

end Machine

/-! ## Interrupts -/

inductive Interrupt where
  | software
  | timer
  | external (irq : Fin 32)
  deriving DecidableEq, Repr

def Interrupt.cause : Interrupt → Nat
  | .software     => 3
  | .timer        => 7
  | .external irq => 16 + irq.val

/-- Where a trap goes: in the vectored mode every cause has a slot of its own. -/
def vector (mtvec : Word) (cause : Nat) : Word :=
  let base := mtvec &&& ~~~3#32
  if mtvec.getLsbD 0 then base + BitVec.ofNat 32 (4 * cause) else base

namespace Machine

variable {ε : Type} (m : Machine ε)

/-- The bits of `mstatus`, and the bits of `mie` and `mip` for the three sources. -/
def mie : Bool := (m.hart.csr .mstatus).getLsbD 3
def mpie : Bool := (m.hart.csr .mstatus).getLsbD 7
def pending : Word := m.hart.csr .mie &&& m.hart.csr .mip

/-- The first irq that is pending and enabled in the controller. -/
def firstIrq : Option (Fin 32) :=
  (List.finRange 32).find? fun i => (m.controller.ie &&& m.controller.ip).getLsbD i.val

/-- The interrupt that is due: external before software before timer. -/
def due : Option Interrupt :=
  if m.mie then
    (if m.pending.getLsbD 11 then m.firstIrq.map .external else none).or
      (if m.pending.getLsbD 3 then some .software
       else if m.pending.getLsbD 7 then some .timer
       else none)
  else none

/-- A machine that is not stopped takes it before its next instruction. -/
def interrupt : Option Interrupt :=
  match m.mode with
  | .stopped _ => none
  | _          => m.due

/-- Claiming an irq makes it no longer pending. `mip` shows the external interrupts until all are claimed. -/
def claim : Interrupt → Machine ε
  | .external irq =>
      let ip := setBit m.controller.ip irq.val false
      let claimed := { m with controller.ip := ip }
      if ip = 0 then claimed.setCsr .mip (setBit (m.hart.csr .mip) 11 false) else claimed
  | _ => m

/-- Trap entry, for an interrupt that has been claimed. -/
def enter (k : Interrupt) : Machine ε :=
  let m := m.setCsr .mcause (BitVec.ofNat 32 (2 ^ 31 + k.cause))
  let m := m.setCsr .mepc m.hart.pc
  let m := m.setCsr .mstatus (setBit (setBit (m.hart.csr .mstatus) 7 m.mie) 3 false)
  { m.goTo (vector (m.hart.csr .mtvec) k.cause) with mode := .running }

/-- The machine its next instruction finds. -/
def trap : Machine ε :=
  match m.interrupt with
  | none   => m
  | some k => (m.claim k).enter k

/-- A device raises its irq. -/
def raise (irq : Fin 32) : Machine ε :=
  { m with controller.ip := setBit m.controller.ip irq.val true }.setCsr .mip
    (setBit (m.hart.csr .mip) 11 true)

/-- MRET ends the handler. -/
def mret : Machine ε :=
  (m.setCsr .mstatus (setBit (setBit (m.hart.csr .mstatus) 3 m.mpie) 7 true)).goTo (m.hart.csr .mepc)

end Machine

/-! ## Instructions -/

/-- The bytes a load reads. -/
def LoadOp.width : LoadOp → Nat
  | .lb | .lbu => 1
  | .lh | .lhu => 2
  | .lw        => 4

/-- What a load makes of them. -/
def LoadOp.extend {n : Nat} : LoadOp → BitVec n → Word
  | .lbu, v | .lhu, v => v.setWidth 32
  | _, v              => v.signExtend 32

/-- The bytes a store writes. -/
def StoreOp.width : StoreOp → Nat
  | .sb => 1
  | .sh => 2
  | .sw => 4

variable {ε : Type} (E : Environment ε)

/-- How a load ends. -/
def Machine.finishLoad {n : Nat} (op : LoadOp) (rd : BitVec 5) :
    Option (BitVec n) × Machine ε → Machine ε
  | (some v, m) => { m with hart := m.hart.retire rd (op.extend v) (m.hart.pc + 4) }
  | (none, m)   => m.stop .fault

/-- How a store ends. -/
def Machine.finishStore : Bool × Machine ε → Machine ε
  | (true, m)  => m.goTo (m.hart.pc + 4)
  | (false, m) => m.stop .fault

/-- The machine after an instruction, which has been fetched. -/
def Instr.run (m : Machine ε) : Instr → Machine ε
  | .load op rd rs1 imm   =>
      Machine.finishLoad op rd (m.load E op.width (m.hart.x rs1 + imm.signExtend 32))
  | .store op rs1 rs2 imm =>
      Machine.finishStore (m.store E op.width (m.hart.x rs1 + imm.signExtend 32)
        ((m.hart.x rs2).setWidth (8 * op.width)))
  | .fence ..             => m.goTo (m.hart.pc + 4)
  | .system .ecall        =>
      let m := E.ecall m
      if m.mode = .running then m.goTo (m.hart.pc + 4) else m
  | .system .ebreak       => (m.goTo (m.hart.pc + 4)).stop .ebreak
  | .system .mret         => m.mret
  | .system .wfi          => { m.goTo (m.hart.pc + 4) with mode := .waiting }
  | i                     => (i.exec m.hart).elim m fun h => { m with hart := h }

theorem run_ecall (m : Machine ε) :
    Instr.run E m (.system .ecall) =
      if (E.ecall m).mode = .running then (E.ecall m).goTo ((E.ecall m).hart.pc + 4) else E.ecall m := rfl

/-! ## Runs -/

/-- What happens to a machine. -/
inductive Event where
  | cycle
  | raise (irq : Fin 32)
  deriving DecidableEq, Repr

/-- One event. A cycle takes the interrupt that is due, and then fetches and executes an instruction; a word
    that is no instruction has no step. -/
inductive Machine.Step (m : Machine ε) : Event → Machine ε → Prop where
  | instr {i : Instr} {u : Machine ε} (hrunning : m.trap.mode = .running)
      (hfetch : m.trap.fetch E = (some i.encode, u)) : Step m .cycle (i.run E u)
  | fault {u : Machine ε} (hrunning : m.trap.mode = .running) (hfetch : m.trap.fetch E = (none, u)) :
      Step m .cycle (u.stop .fault)
  | wait (hwaiting : m.trap.mode = .waiting) : Step m .cycle m.trap
  | raise (irq : Fin 32) : Step m (.raise irq) (m.raise irq)

/-! ## With the interrupts disabled -/

section Masked

variable {E} {m : Machine ε}

theorem Machine.trap_of_mie (h : m.mie = false) : m.trap = m := by
  have hdue : m.due = none := by
    rw [Machine.due, h]
    rfl
  have hinterrupt : m.interrupt = none := by
    unfold Machine.interrupt
    split
    · rfl
    · exact hdue
  rw [Machine.trap, hinterrupt]

/-- A word in the RAM is fetched, and nothing else happens. -/
theorem Machine.fetch_of_ram (hin : m.InRam m.hart.pc 4) {w : Word}
    (hword : ByteMem.read m.mem m.hart.pc.toNat 4 = w) : m.fetch E = (some w, m) := by
  rw [Machine.fetch, Machine.load, if_pos hin]
  exact congrArg (fun v => (some v, m)) hword

/-- The machine executes the instruction that its RAM holds at `pc`. -/
theorem Machine.Step.of_ram (hmode : m.mode = .running) (hmie : m.mie = false) (hin : m.InRam m.hart.pc 4)
    {i : Instr} (hword : ByteMem.read m.mem m.hart.pc.toNat 4 = i.encode) :
    m.Step E .cycle (i.run E m) := by
  have htrap := Machine.trap_of_mie hmie
  refine .instr (by rw [htrap]; exact hmode) ?_
  rw [htrap]
  exact Machine.fetch_of_ram hin hword

end Masked

end Isa
end Rv32
