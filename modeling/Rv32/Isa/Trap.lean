import Rv32.Isa.Machine
import Rv32.Isa.Refinement

/-!
# `Isa.Trap` — the machine of a struct, and its interrupts

`machine` is what of the struct is the ISA's machine, and a host whose callbacks answer like an `Environment`
`Implements` it. The first part of the machine to be refined is its traps: when interrupts come one at a time
(`Orderly`), `rv32_handle_interrupt` takes the interrupt that is due (`machine_handleInterrupt`).
-/

namespace Rv32
namespace Isa

variable {σ : Type} {host : Host σ} {E : Environment σ} {s t u : RV32 σ}

/-! ## The machine of a struct -/

def modeOf (wfi : BitVec 8) : Rv32Status → Mode
  | .running             => if wfi = 0 then .running else .waiting
  | .halted              => .stopped .halted
  | .paused              => .stopped .paused
  | .ebreak              => .stopped .ebreak
  | .invalidInstruction  => .stopped .illegal
  | .invalidMemoryAccess => .stopped .fault

def machine (s : RV32 σ) : Machine σ where
  hart := hart s
  mode := modeOf s.wfi s.status
  mem := s.mem.bytes
  size := s.memSize
  controller := s.interruptController
  env := s.host

/-- What a load callback is to return, and a store callback. -/
def answerLoad (E : Environment σ) (s : RV32 σ) (n : Nat) (addr : Word) :
    Option (BitVec (8 * n)) × RV32 σ :=
  ((E.load s.host n addr).1, { s with host := (E.load s.host n addr).2 })

def answerStore (E : Environment σ) (s : RV32 σ) (n : Nat) (addr : Word) (v : BitVec (8 * n)) :
    Rv32Result × RV32 σ :=
  (if (E.store s.host n addr v).1 then .ok else .err, { s with host := (E.store s.host n addr v).2 })

/-- The embedding program's functions do what the environment says; `ecall` leaves the debugger's fields and
    the size of the RAM alone. -/
structure Implements (host : Host σ) (E : Environment σ) : Prop where
  load8 : ∀ s addr, host.mmioLoad8 s addr = answerLoad E s 1 addr
  load16 : ∀ s addr, host.mmioLoad16 s addr = answerLoad E s 2 addr
  load32 : ∀ s addr, host.mmioLoad32 s addr = answerLoad E s 4 addr
  store8 : ∀ s addr v, host.mmioStore8 s addr v = answerStore E s 1 addr v
  store16 : ∀ s addr v, host.mmioStore16 s addr v = answerStore E s 2 addr v
  store32 : ∀ s addr v, host.mmioStore32 s addr v = answerStore E s 4 addr v
  ecall : ∀ s, machine (host.ecall s) = E.ecall (machine s)
  frame : ∀ s, (host.ecall s).bpMask = s.bpMask ∧ (host.ecall s).memSize = s.memSize ∧
    (host.ecall s).wfi = s.wfi

/-- No debugger interferes, and the RAM holds a word. -/
structure Undisturbed (s : RV32 σ) : Prop where
  bpMask : s.bpMask = 0
  size : 4 ≤ s.memSize.toNat

theorem Undisturbed.of_eq (h : Undisturbed s) (hbp : t.bpMask = s.bpMask) (hsize : t.memSize = s.memSize) :
    Undisturbed t where
  bpMask := hbp.trans h.bpMask
  size := hsize ▸ h.size

theorem modeOf_eq_running {wfi : BitVec 8} {status : Rv32Status} :
    modeOf wfi status = .running ↔ status = .running ∧ wfi = 0 := by
  unfold modeOf
  cases status <;> by_cases hwfi : wfi = 0 <;> simp [hwfi]

theorem modeOf_eq_waiting {wfi : BitVec 8} {status : Rv32Status} :
    modeOf wfi status = .waiting ↔ status = .running ∧ wfi ≠ 0 := by
  unfold modeOf
  cases status <;> by_cases hwfi : wfi = 0 <;> simp [hwfi]

/-- The status of a machine that has stopped. -/
def statusOf : Stop → Rv32Status
  | .halted  => .halted
  | .paused  => .paused
  | .ebreak  => .ebreak
  | .illegal => .invalidInstruction
  | .fault   => .invalidMemoryAccess

theorem statusOf_ne_running (why : Stop) : statusOf why ≠ .running := by
  cases why <;> exact Rv32Status.noConfusion

theorem modeOf_eq_stopped {wfi : BitVec 8} {status : Rv32Status} {why : Stop} :
    modeOf wfi status = .stopped why ↔ status = statusOf why := by
  cases status with
  | running =>
      refine iff_of_false ?_ (statusOf_ne_running why).symm
      rw [modeOf]
      split <;> exact Mode.noConfusion
  | _ => cases why <;> simp [modeOf, statusOf]

/-! ## Interrupts -/

/-- Interrupts come one at a time: one source is pending and enabled, the first pending irq is one that is
    enabled, and `mtvec` has a mode that is defined. -/
structure Orderly {ε : Type} (m : Machine ε) : Prop where
  one : m.pending = 0 ∨ m.pending = 1#32 <<< 3 ∨ m.pending = 1#32 <<< 7 ∨ m.pending = 1#32 <<< 11
  first : m.controller.ie &&& m.controller.ip = 0 ∨
    ∀ irq, Bits.IsLowest m.controller.ip irq → m.controller.ie.getLsbD irq = true
  vectors : (m.hart.csr .mtvec).getLsbD 1 = false

def interruptOf : TrapSource → Interrupt
  | .software     => .software
  | .timer        => .timer
  | .external irq => .external irq

theorem csrSetBit_eq (w : Word) {i : Nat} (hi : i < 32) (v : Word) :
    csrSetBit w i v = setBit w i (decide (v ≠ 0)) := by
  apply BitVec.eq_of_getLsbD_eq
  intro j _
  rw [getLsbD_csrSetBit w hi, getLsbD_setBit w hi]

theorem csrGetBit_bit (w : Word) (i : Nat) : decide (csrGetBit w i ≠ 0) = w.getLsbD i := by
  rw [Bool.eq_iff_iff, decide_eq_true_iff]
  exact csrGetBit_ne_zero w i

/-- The scan finds the lowest bit. -/
theorem firstIrq_eq {m : Machine σ} {irq : Fin 32}
    (h : Bits.IsLowest (m.controller.ie &&& m.controller.ip) irq.val) : m.firstIrq = some irq := by
  refine List.find?_eq_some_iff_getElem.mpr ⟨h.set, irq.val, by simp, by simp, fun j hj => ?_⟩
  rw [List.getElem_finRange, Bool.not_eq_true']
  by_contra hset
  exact Nat.not_le.mpr hj (h.le j (Bool.eq_true_of_not_eq_false hset))

theorem firstIrq_none {m : Machine σ} (h : m.controller.ie &&& m.controller.ip = 0) :
    m.firstIrq = none := by
  refine List.find?_eq_none.mpr fun i _ => ?_
  rw [h]
  simp

/-- The claim of the emulator is the first irq that is pending and enabled. -/
theorem firstIrq_machine (h : Orderly (machine s)) : (machine s).firstIrq = (rv32ClaimIrq s).1 := by
  rcases rv32ClaimIrq_cases s with ⟨hzero, hclaim⟩ | ⟨hne, irq, ip, mip, hclaim, hset, hle, -⟩
  · rw [hclaim]
    exact firstIrq_none hzero
  · rw [hclaim]
    have hlowest : Bits.IsLowest s.interruptController.ip irq.val := ⟨hset, hle⟩
    have henabled := (h.first.resolve_left hne) irq.val hlowest
    exact firstIrq_eq (hlowest.and_iff.mpr henabled)

theorem pending_machine (s : RV32 σ) : (machine s).pending = s.mie &&& s.mip := rfl

theorem interrupt_eq_due {m : Machine σ} (h : m.mode = .running ∨ m.mode = .waiting) :
    m.interrupt = m.due := by
  unfold Machine.interrupt
  rcases h with h | h
  · rw [h]
  · rw [h]

/-- A machine that is not stopped. -/
theorem mode_machine (h : s.status = .running) :
    (machine s).mode = .running ∨ (machine s).mode = .waiting := by
  by_cases hwfi : s.wfi = 0
  · exact .inl (modeOf_eq_running.mpr ⟨h, hwfi⟩)
  · exact .inr (modeOf_eq_waiting.mpr ⟨h, hwfi⟩)

/-- **The interrupt that is due** is the trap the handler takes. -/
theorem interrupt_machine (hrunning : s.status = .running) (h : (machine s).mie → Orderly (machine s)) :
    (machine s).interrupt = (trapTaken s).map interruptOf := by
  rw [interrupt_eq_due (mode_machine hrunning), Machine.due]
  by_cases hmie : (machine s).mie = true
  · have hset : csrGetBit s.mstatus csrMstatusMie ≠ 0 := (csrGetBit_ne_zero _ _).mpr hmie
    have horderly := h hmie
    have hfirst := firstIrq_machine horderly
    rw [if_pos hmie, trapTaken, if_neg hset, hfirst, ← pending_machine]
    rcases horderly.one with hone | hone | hone | hone
    · rw [hone]
      rfl
    · rw [hone]
      rfl
    · rw [hone]
      rfl
    · rw [hone]
      show ((rv32ClaimIrq s).1.map Interrupt.external).or none =
        ((rv32ClaimIrq s).1.map TrapSource.external).map interruptOf
      cases (rv32ClaimIrq s).1 <;> rfl
  · have hclear : csrGetBit s.mstatus csrMstatusMie = 0 := by
      by_contra hne
      exact hmie ((csrGetBit_ne_zero _ _).mp hne)
    rw [if_neg hmie, trapTaken_of_mie hclear]
    rfl

theorem machine_writeCell (s : RV32 σ) (v : Word) (c : Cell) :
    machine (writeCell s v c) = (machine s).setCsr c v := by
  have hhart := hart_writeCell s v c
  cases c <;> exact Machine.ext hhart rfl rfl rfl rfl rfl

/-- Claiming. -/
theorem machine_claim {src : TrapSource} (h : trapTaken s = some src) :
    machine (src.claim s) = (machine s).claim (interruptOf src) := by
  cases src with
  | software => rfl
  | timer => rfl
  | external irq =>
      have hirq : (rv32ClaimIrq s).1 = some irq := (trapTaken_external_iff.mp h).2
      rcases rv32ClaimIrq_cases s with ⟨-, hclaim⟩ | ⟨-, irq', ip, mip, hclaim, -, -, hip, hmip⟩
      · rw [hclaim] at hirq
        cases hirq
      · rw [hclaim] at hirq
        obtain rfl := Option.some.inj hirq
        -- the two ways to clear a bit
        have hclear : setBit s.interruptController.ip irq'.val false = ip := by
          apply BitVec.eq_of_getLsbD_eq
          intro i _
          rw [getLsbD_setBit _ irq'.isLt, hip]
          by_cases hi : i = irq'.val <;> simp [hi]
        have hmeip : setBit s.mip 11 false = s.mip &&& ~~~(1#32 <<< csrMipMeip) := by
          apply BitVec.eq_of_getLsbD_eq
          intro i _
          rw [getLsbD_setBit _ (by decide), Bits.getLsbD_clear]
          by_cases hi : i = 11 <;> simp [hi, csrMipMeip]
        rw [TrapSource.claim, hclaim, hmip]
        show _ = Machine.claim (machine s) (.external irq')
        simp only [Machine.claim]
        rw [show (machine s).controller.ip = s.interruptController.ip from rfl, hclear,
          show (machine s).hart.csr .mip = s.mip from rfl, hmeip]
        split
        · exact machine_writeCell { s with interruptController.ip := ip } _ .mip
        · rfl

theorem mcause_external (irq : Fin 32) :
    (TrapSource.external irq).mcause = BitVec.ofNat 32 (2 ^ 31 + (16 + irq.val)) := by
  revert irq
  decide

/-- Without the interrupt bit, `mcause` is the cause. -/
theorem cause_and {cause : Nat} (hlt : cause < 2 ^ 31) :
    BitVec.ofNat 32 (2 ^ 31 + cause) &&& ~~~(1#32 <<< 31) = BitVec.ofNat 32 cause := by
  apply BitVec.eq_of_toNat_eq
  have hlow : BitVec.ofNat 32 (2 ^ 31 + cause) &&& ~~~(1#32 <<< 31) =
      ((BitVec.ofNat 32 (2 ^ 31 + cause)).setWidth 31).setWidth 32 := by
    apply BitVec.eq_of_getLsbD_eq
    intro i hi
    rw [Bits.getLsbD_clear, BitVec.getLsbD_setWidth, BitVec.getLsbD_setWidth]
    by_cases h31 : i = 31
    · simp [h31]
    · simp [h31, hi, show i < 31 by omega]
  rw [hlow, BitVec.toNat_setWidth, BitVec.toNat_setWidth, BitVec.toNat_ofNat, BitVec.toNat_ofNat]
  omega

theorem cause_lt (k : Interrupt) : k.cause < 2 ^ 31 := by
  cases k with
  | software => decide
  | timer => decide
  | external irq =>
      have hirq := irq.isLt
      simp only [Interrupt.cause]
      omega

/-- Where the handler goes. -/
theorem vector_eq {mtvec mcause : Word} {cause : Nat} (hvectors : mtvec.getLsbD 1 = false)
    (hcause : mcause = BitVec.ofNat 32 (2 ^ 31 + cause)) (hlt : cause < 2 ^ 31) :
    (if mtvec &&& 1 ≠ 0 then (mtvec &&& ~~~0x3#32) + 4#32 * (mcause &&& ~~~(1#32 <<< 31)) else mtvec) =
      vector mtvec cause := by
  have hbit : mtvec &&& 1 ≠ 0 ↔ mtvec.getLsbD 0 = true := Bits.and_mask_ne_zero mtvec 0
  unfold vector
  by_cases hmode : mtvec.getLsbD 0 = true
  · have hmul : 4#32 * BitVec.ofNat 32 cause = BitVec.ofNat 32 (4 * cause) := (BitVec.ofNat_mul ..).symm
    rw [if_pos (hbit.mpr hmode), if_pos hmode, hcause, cause_and hlt, hmul]
  · rw [if_neg (fun h => hmode (hbit.mp h)), if_neg hmode]
    -- in the direct mode both mode bits are clear
    apply BitVec.eq_of_getLsbD_eq
    intro i hi
    have hthree : (3#32).getLsbD i = decide (i < 2) := by
      revert i
      decide
    rw [BitVec.getLsbD_and, BitVec.getLsbD_not, hthree]
    by_cases hlow : i < 2
    · rcases (show i = 0 ∨ i = 1 by omega) with rfl | rfl
      · simpa using hmode
      · simpa using hvectors
    · simp [hi, hlow]

/-- Trap entry. -/
theorem machine_trapEntry {src : TrapSource} (hrunning : s.status = .running)
    (hvectors : s.mtvec.getLsbD 1 = false) :
    machine (trapEntry { s with mcause := src.mcause }) = (machine s).enter (interruptOf src) := by
  have hcause : src.mcause = BitVec.ofNat 32 (2 ^ 31 + (interruptOf src).cause) := by
    cases src with
    | software => rfl
    | timer => rfl
    | external irq => exact mcause_external irq
  have hstatus : csrSetBit (csrSetBit s.mstatus csrMstatusMpie (csrGetBit s.mstatus csrMstatusMie))
      csrMstatusMie 0 = setBit (setBit s.mstatus 7 (s.mstatus.getLsbD 3)) 3 false := by
    rw [csrSetBit_eq _ (by decide), csrSetBit_eq _ (by decide), csrGetBit_bit]
    rfl
  apply Machine.ext
  · apply Hart.ext
    · rfl
    · exact vector_eq hvectors hcause (cause_lt _)
    · funext c
      cases c with
      | mcause => exact hcause
      | mstatus => exact hstatus
      | _ => rfl
  · exact modeOf_eq_running.mpr ⟨hrunning, rfl⟩
  · rfl
  · rfl
  · rfl
  · rfl

/-- The emulator takes the interrupt that is due. -/
theorem machine_handleInterrupt (hrunning : s.status = .running)
    (h : (machine s).mie → Orderly (machine s)) :
    machine (rv32HandleInterrupt s) = (machine s).trap := by
  rw [rv32HandleInterrupt_eq, Machine.trap, interrupt_machine hrunning h]
  cases htaken : trapTaken s with
  | none => rfl
  | some src =>
      have hmie : (machine s).mie = true := by
        have htrap := (trapTaken_ne_none_iff s).mp (by rw [htaken]; exact Option.some_ne_none src)
        exact htrap.1
      obtain ⟨ip, mip, hframe⟩ := src.claim_frame s
      show machine (trapEntry { src.claim s with mcause := src.mcause }) = _
      rw [machine_trapEntry, machine_claim htaken]
      · rfl
      · rw [hframe]
        exact hrunning
      · rw [hframe]
        exact (h hmie).vectors

theorem Undisturbed.handleInterrupt (h : Undisturbed s) : Undisturbed (rv32HandleInterrupt s) := by
  obtain ⟨_, _, _, _, _, _, _, hframe⟩ := rv32HandleInterrupt_frame s
  refine h.of_eq ?_ ?_
  · rw [hframe]
  · rw [hframe]

/-- **A trigger** is a device raising its irq, for the irqs the trigger knows. -/
theorem machine_trigger {irq : Fin 32} (hirq : irq.val < 4) :
    machine (rv32TriggerExternalInterrupt s (BitVec.ofNat 32 irq.val)) = (machine s).raise irq := by
  have hlt := irq.isLt
  have hnat : (BitVec.ofNat 32 irq.val).toNat = irq.val := by
    rw [BitVec.toNat_ofNat]
    omega
  have hip : s.interruptController.ip ||| (1#32 <<< irq.val) =
      setBit s.interruptController.ip irq.val true := by
    apply BitVec.eq_of_getLsbD_eq
    intro i _
    rw [getLsbD_setBit _ hlt, Bits.getLsbD_set]
    by_cases hi : i = irq.val <;> simp [hi]
  have hmip : csrSetBit s.mip csrMipMeip 1 = setBit s.mip 11 true := csrSetBit_eq _ (by decide) _
  rw [rv32TriggerExternalInterrupt, hnat, if_neg (by omega), hip, hmip]
  exact machine_writeCell
    { s with interruptController.ip := setBit s.interruptController.ip irq.val true } _ .mip

end Isa
end Rv32
