import Mathlib.Data.List.FinRange
import Rv32.Core.Csr

/-!
# `Core.Interrupt` — trigger, claim and trap entry

`rv32_handle_interrupt` has four early returns; `trapTaken` says when none of them is taken and which
source wins, and `rv32HandleInterrupt_eq` is the one case analysis of the handler: it either returns the
state it was given or enters the trap of that source. `rv32ClaimIrq_cases` does the same for the claim
loop. What a trap is to the guest is `TrapEntered`, which names no function of the handler;
`trapEntered_iff` ties it to `trapTaken`.
-/

namespace Rv32

variable {σ : Type}

/-- `rv32_trigger_external_interrupt`. The bound is `sizeof(uint32_t)`, in bytes. -/
def rv32TriggerExternalInterrupt (s : RV32 σ) (irq : Word) : RV32 σ :=
  if 4 ≤ irq.toNat then s
  else
    { s with
      mip := csrSetBit s.mip csrMipMeip 1
      interruptController.ip := s.interruptController.ip ||| (1#32 <<< irq.toNat) }

/-- `rv32_claim_irq`: the irq it stores through its pointer, or `none` when it returns 0. -/
def rv32ClaimIrq (s : RV32 σ) : Option (Fin 32) × RV32 σ :=
  if s.interruptController.ie &&& s.interruptController.ip ≠ 0 then
    match (List.finRange 32).find? fun i => s.interruptController.ip &&& (1#32 <<< i.val) ≠ 0 with
    | some i =>
        let ip := s.interruptController.ip &&& ~~~(1#32 <<< i.val)
        (some i,
          { s with
            interruptController.ip := ip
            -- if all interrupts are claimed, the external interrupt bit in mip is cleared
            mip := if ip = 0 then s.mip &&& ~~~(1#32 <<< csrMipMeip) else s.mip })
    | none => (none, s)
  else (none, s)

/-- The tail of `rv32_handle_interrupt`, after the `switch` has set `mcause`. -/
def trapEntry (s : RV32 σ) : RV32 σ :=
  let s := { s with mepc := s.pc }
  let s := { s with
    mstatus := csrSetBit s.mstatus csrMstatusMpie (csrGetBit s.mstatus csrMstatusMie) }
  let s := { s with mstatus := csrSetBit s.mstatus csrMstatusMie 0 }
  let baseAddr := s.mtvec &&& ~~~0x3#32
  { s with
    -- in vectored mode each cause has its own slot of four bytes
    pc := if s.mtvec &&& 1 ≠ 0 then baseAddr + 4 * (s.mcause &&& ~~~(1#32 <<< 31)) else s.mtvec
    wfi := 0 }

/-- `rv32_handle_interrupt` -/
def rv32HandleInterrupt (s : RV32 σ) : RV32 σ :=
  if csrGetBit s.mstatus csrMstatusMie = 0 then s
  else if s.mie &&& s.mip = 1#32 <<< csrMieMsie then
    trapEntry { s with mcause := csrMcauseMsi }
  else if s.mie &&& s.mip = 1#32 <<< csrMieMtie then
    trapEntry { s with mcause := csrMcauseMti }
  else if s.mie &&& s.mip = 1#32 <<< csrMieMeie then
    match rv32ClaimIrq s with
    | (none, s) => s
    | (some irq, s) =>
        trapEntry { s with mcause := csrMcauseInterrupt ||| (16 + BitVec.ofNat 32 irq.val) }
  else
    -- `default`: of several sources pending at once, none is taken
    s

/-! ## Which trap is taken -/

/-- The interrupt source a trap is taken for. -/
inductive TrapSource where
  | software
  | timer
  | external (irq : Fin 32)
  deriving DecidableEq, Repr

/-- The value `rv32_handle_interrupt` puts in `mcause` for a source. -/
def TrapSource.mcause : TrapSource → Word
  | .software     => csrMcauseMsi
  | .timer        => csrMcauseMti
  | .external irq => csrMcauseInterrupt ||| (16 + BitVec.ofNat 32 irq.val)

/-- The state in which the `switch` leaves the claim of a source. -/
def TrapSource.claim (s : RV32 σ) : TrapSource → RV32 σ
  | .external _ => (rv32ClaimIrq s).2
  | _           => s

/-- The trap `rv32_handle_interrupt` takes in `s`, if it does not return early. -/
def trapTaken (s : RV32 σ) : Option TrapSource :=
  if csrGetBit s.mstatus csrMstatusMie = 0 then none
  else if s.mie &&& s.mip = 1#32 <<< csrMieMsie then some .software
  else if s.mie &&& s.mip = 1#32 <<< csrMieMtie then some .timer
  else if s.mie &&& s.mip = 1#32 <<< csrMieMeie then (rv32ClaimIrq s).1.map .external
  else none

theorem trapTaken_of_mie {s : RV32 σ} (h : csrGetBit s.mstatus csrMstatusMie = 0) :
    trapTaken s = none := if_pos h

/-- **The claim loop.** Either nothing enabled is pending and nothing happens, or the lowest pending irq
    is claimed: exactly its bit leaves `ip`, and `mip` loses MEIP when no bit is left. -/
theorem rv32ClaimIrq_cases (s : RV32 σ) :
    (s.interruptController.ie &&& s.interruptController.ip = 0 ∧ rv32ClaimIrq s = (none, s)) ∨
    (s.interruptController.ie &&& s.interruptController.ip ≠ 0 ∧
      ∃ irq : Fin 32, ∃ ip mip : Word,
        rv32ClaimIrq s = (some irq, { s with interruptController.ip := ip, mip := mip }) ∧
        s.interruptController.ip.getLsbD irq.val = true ∧
        (∀ i, s.interruptController.ip.getLsbD i = true → irq.val ≤ i) ∧
        (∀ i, ip.getLsbD i = (s.interruptController.ip.getLsbD i && !decide (i = irq.val))) ∧
        mip = if ip = 0 then s.mip &&& ~~~(1#32 <<< csrMipMeip) else s.mip) := by
  unfold rv32ClaimIrq
  by_cases hen : s.interruptController.ie &&& s.interruptController.ip ≠ 0
  · rw [if_pos hen]
    refine .inr ⟨hen, ?_⟩
    obtain ⟨k, -, hk⟩ := (Bits.and_ne_zero_iff _ _).mp hen
    have hk32 : k < 32 := BitVec.lt_of_getLsbD hk
    split
    · rename_i irq hfind
      obtain ⟨hirq, pre, post, hsplit, hpre⟩ := List.find?_eq_some_iff_append.mp hfind
      refine ⟨irq, _, _, rfl, ?_, ?_, fun i => Bits.getLsbD_clear _ _ _, rfl⟩
      · exact (Bits.and_mask_ne_zero _ _).mp (of_decide_eq_true hirq)
      · -- everything the loop passed over before `irq` was clear
        intro i hi
        have hi32 : i < 32 := BitVec.lt_of_getLsbD hi
        by_contra hlt
        have hsorted : (pre ++ irq :: post).Pairwise (· < ·) :=
          hsplit ▸ List.pairwise_lt_finRange 32
        have hmem : (⟨i, hi32⟩ : Fin 32) ∈ pre ++ irq :: post := hsplit ▸ List.mem_finRange _
        rcases List.mem_append.mp hmem with hp | hp
        · have hclear := hpre _ hp
          simp only [ne_eq, decide_not, Bool.not_not, decide_eq_true_eq] at hclear
          exact (Bits.and_mask_ne_zero _ _).mpr hi hclear
        · have hlt' : irq < ⟨i, hi32⟩ ∨ irq = ⟨i, hi32⟩ := by
            rcases List.mem_cons.mp hp with heq | htail
            · exact .inr heq.symm
            · exact .inl (List.rel_of_pairwise_cons (List.pairwise_append.mp hsorted).2.1 htail)
          rcases hlt' with h | h
          · exact hlt (Nat.le_of_lt h)
          · exact hlt (le_of_eq (congrArg Fin.val h))
    · -- the loop cannot run to its end: bit `k` is pending
      rename_i hfind
      have hnone := List.find?_eq_none.mp hfind ⟨k, hk32⟩ (List.mem_finRange _)
      exact absurd ((Bits.and_mask_ne_zero _ _).mpr hk) (by simpa using hnone)
  · rw [if_neg hen]
    exact .inl ⟨not_not.mp hen, rfl⟩

/-- **The handler.** It returns its argument when no trap is taken, and otherwise enters the trap of the
    source that is. -/
theorem rv32HandleInterrupt_eq (s : RV32 σ) :
    rv32HandleInterrupt s =
      match trapTaken s with
      | none     => s
      | some src => trapEntry { src.claim s with mcause := src.mcause } := by
  unfold rv32HandleInterrupt trapTaken
  split
  · rfl
  split
  · rfl
  split
  · rfl
  split
  · rcases rv32ClaimIrq_cases s with ⟨-, hclaim⟩ | ⟨-, irq, ip, mip, hclaim, -⟩
    · simp only [hclaim, Option.map_none]
    · simp only [hclaim, Option.map_some, TrapSource.claim, TrapSource.mcause]
  · rfl

theorem rv32HandleInterrupt_of_none {s : RV32 σ} (h : trapTaken s = none) : rv32HandleInterrupt s = s := by
  rw [rv32HandleInterrupt_eq, h]

/-- Claiming touches the two pending words only. -/
theorem TrapSource.claim_frame (src : TrapSource) (s : RV32 σ) :
    ∃ ip mip, src.claim s = { s with interruptController.ip := ip, mip := mip } := by
  cases src with
  | software => exact ⟨_, _, rfl⟩
  | timer => exact ⟨_, _, rfl⟩
  | external irq =>
      rcases rv32ClaimIrq_cases s with ⟨-, hclaim⟩ | ⟨-, _, ip, mip, hclaim, -⟩
      · exact ⟨_, _, congrArg Prod.snd hclaim⟩
      · exact ⟨ip, mip, congrArg Prod.snd hclaim⟩

/-! ## What a trap does -/

/-- The address `rv32_handle_interrupt` jumps to for a cause: `mtvec`, or in the vectored mode the slot of
    the cause behind its base. -/
def trapVector (mtvec mcause : Word) : Word :=
  if mtvec &&& 1 ≠ 0 then (mtvec &&& ~~~0x3#32) + 4 * (mcause &&& ~~~(1#32 <<< 31)) else mtvec

/-- `t` is `s` with the trap of `src` entered: everything the guest can see of a trap. -/
structure TrapEntered (src : TrapSource) (s t : RV32 σ) : Prop where
  enabled : s.mstatus.getLsbD csrMstatusMie = true
  mcause : t.mcause = src.mcause
  mepc : t.mepc = s.pc
  mie : t.mstatus.getLsbD csrMstatusMie = false
  mpie : t.mstatus.getLsbD csrMstatusMpie = true
  pc : t.pc = trapVector s.mtvec src.mcause
  wfi : t.wfi = 0

/-- The cause names its source. -/
theorem TrapSource.mcause_inj {src src' : TrapSource} (h : src.mcause = src'.mcause) : src = src' := by
  have hext (i j : Fin 32) : (TrapSource.external i).mcause = (TrapSource.external j).mcause → i = j := by
    revert i j
    decide
  have hother (i : Fin 32) : (TrapSource.external i).mcause ≠ csrMcauseMsi ∧
      (TrapSource.external i).mcause ≠ csrMcauseMti := by
    revert i
    decide
  cases src with
  | software =>
      cases src' with
      | software => rfl
      | timer => exact absurd h (by decide)
      | external j => exact absurd h.symm (hother j).1
  | timer =>
      cases src' with
      | software => exact absurd h (by decide)
      | timer => rfl
      | external j => exact absurd h.symm (hother j).2
  | external i =>
      cases src' with
      | software => exact absurd h (hother i).1
      | timer => exact absurd h (hother i).2
      | external j => exact congrArg TrapSource.external (hext i j h)

/-- Interrupts are enabled, and one source alone is pending and enabled in the CSRs; the external one also
    needs an irq that is pending and enabled in the interrupt controller. -/
def Interruptible (s : RV32 σ) : Prop :=
  s.mstatus.getLsbD csrMstatusMie = true ∧
    (s.mie &&& s.mip = 1#32 <<< csrMieMsie ∨ s.mie &&& s.mip = 1#32 <<< csrMieMtie ∨
      (s.mie &&& s.mip = 1#32 <<< csrMieMeie ∧
        s.interruptController.ie &&& s.interruptController.ip ≠ 0))

/-- **When a trap is taken.** -/
theorem trapTaken_ne_none_iff (s : RV32 σ) : trapTaken s ≠ none ↔ Interruptible s := by
  unfold trapTaken Interruptible
  by_cases hmie : csrGetBit s.mstatus csrMstatusMie = 0
  · simp [hmie, (csrGetBit_eq_zero _ _).mp hmie]
  · rw [if_neg hmie]
    have hset := (csrGetBit_ne_zero _ _).mp hmie
    by_cases hs : s.mie &&& s.mip = 1#32 <<< csrMieMsie
    · simp [hs, hset]
    rw [if_neg hs]
    by_cases ht : s.mie &&& s.mip = 1#32 <<< csrMieMtie
    · simp [ht, hset]
    rw [if_neg ht]
    by_cases he : s.mie &&& s.mip = 1#32 <<< csrMieMeie
    · rw [if_pos he]
      rcases rv32ClaimIrq_cases s with ⟨hzero, hclaim⟩ | ⟨hne, irq, ip, mip, hclaim, -⟩
      · exact iff_of_false (by simp [hclaim]) (by simp [hzero, hs, ht])
      · exact iff_of_true (by simp [hclaim]) ⟨hset, .inr (.inr ⟨he, hne⟩)⟩
    · simp [he, hs, ht]

/-- **The trap that is taken is entered**, and no other. -/
theorem trapEntered_iff {src : TrapSource} {s : RV32 σ} :
    TrapEntered src s (rv32HandleInterrupt s) ↔ trapTaken s = some src := by
  constructor
  · intro h
    cases htaken : trapTaken s with
    | none =>
        -- the state is returned as it was, with MIE set
        have hclear := h.mie
        rw [rv32HandleInterrupt_of_none htaken, h.enabled] at hclear
        cases hclear
    | some src' =>
        have hcause : src'.mcause = src.mcause := by
          rw [← h.mcause, rv32HandleInterrupt_eq, htaken]
          rfl
        rw [TrapSource.mcause_inj hcause]
  · intro h
    have hset : s.mstatus.getLsbD csrMstatusMie = true :=
      ((trapTaken_ne_none_iff s).mp (by rw [h]; exact Option.some_ne_none src)).1
    obtain ⟨ip, mip, hclaim⟩ := src.claim_frame s
    rw [rv32HandleInterrupt_eq, h]
    simp only [hclaim, trapEntry]
    -- MPIE gets the old MIE before MIE is cleared
    refine ⟨hset, rfl, rfl, ?_, ?_, rfl, rfl⟩
    · rw [getLsbD_csrSetBit _ (by decide), if_pos rfl]
      rfl
    · rw [getLsbD_csrSetBit _ (by decide), if_neg (by decide), getLsbD_csrSetBit _ (by decide),
        if_pos rfl]
      exact decide_eq_true ((csrGetBit_ne_zero _ _).mpr hset)

/-- The handler returns its argument, or enters a trap. -/
theorem rv32HandleInterrupt_cases (s : RV32 σ) :
    (trapTaken s = none ∧ rv32HandleInterrupt s = s) ∨
      ∃ src, trapTaken s = some src ∧ TrapEntered src s (rv32HandleInterrupt s) := by
  cases htaken : trapTaken s with
  | none => exact .inl ⟨rfl, rv32HandleInterrupt_of_none htaken⟩
  | some src => exact .inr ⟨src, rfl, trapEntered_iff.mpr htaken⟩

/-- A trap is never without effect: it clears MIE. -/
theorem rv32HandleInterrupt_eq_self_iff {s : RV32 σ} : rv32HandleInterrupt s = s ↔ trapTaken s = none := by
  constructor
  · intro hsame
    rcases rv32HandleInterrupt_cases s with ⟨hnone, -⟩ | ⟨src, -, hentered⟩
    · exact hnone
    · have hclear := hentered.mie
      rw [hsame, hentered.enabled] at hclear
      cases hclear
  · exact rv32HandleInterrupt_of_none

/-- Who has been interrupted cannot be interrupted again. -/
theorem trapTaken_handled (s : RV32 σ) : trapTaken (rv32HandleInterrupt s) = none := by
  rcases rv32HandleInterrupt_cases s with ⟨hnone, hsame⟩ | ⟨src, -, hentered⟩
  · rw [hsame]
    exact hnone
  · exact trapTaken_of_mie ((csrGetBit_eq_zero _ _).mpr hentered.mie)

/-- With only MEIP enabled and pending, the claim decides. -/
theorem trapTaken_of_meie {s : RV32 σ} (hmie : s.mstatus.getLsbD csrMstatusMie = true)
    (h : s.mie &&& s.mip = 1#32 <<< csrMieMeie) :
    trapTaken s = (rv32ClaimIrq s).1.map .external := by
  have hset : csrGetBit s.mstatus csrMstatusMie ≠ 0 := (csrGetBit_ne_zero _ _).mpr hmie
  rw [trapTaken, if_neg hset, h, if_neg (by decide), if_neg (by decide), if_pos rfl]

/-- The handler gets to the claim: interrupts are enabled, and MEIP alone is pending and enabled. -/
def ReachesClaim (s : RV32 σ) : Prop :=
  s.mstatus.getLsbD csrMstatusMie = true ∧ s.mie &&& s.mip = 1#32 <<< csrMieMeie

/-- **The trap of an irq** is taken when the handler gets to the claim and the claim returns the irq. -/
theorem trapTaken_external_iff {s : RV32 σ} {irq : Fin 32} :
    trapTaken s = some (.external irq) ↔ ReachesClaim s ∧ (rv32ClaimIrq s).1 = some irq := by
  constructor
  · intro h
    unfold trapTaken at h
    split_ifs at h with hmie _ _ hmeie
    · cases h
    · cases h
    · obtain ⟨irq', hirq', heq⟩ := Option.map_eq_some_iff.mp h
      obtain rfl := TrapSource.external.inj heq
      exact ⟨⟨(csrGetBit_ne_zero _ _).mp hmie, hmeie⟩, hirq'⟩
  · rintro ⟨⟨hmie, hmeie⟩, hirq⟩
    rw [trapTaken_of_meie hmie hmeie, hirq]
    rfl

/-- **An external trap** is for the lowest pending irq. It takes exactly that irq out of `ip`, leaves
    `mip` alone while another one is pending, and names the irq in `mcause`. -/
theorem rv32HandleInterrupt_external {s : RV32 σ} {irq : Fin 32}
    (h : trapTaken s = some (.external irq)) :
    s.interruptController.ip.getLsbD irq.val = true ∧
      (∀ i, s.interruptController.ip.getLsbD i = true → irq.val ≤ i) ∧
      (∀ i, (rv32HandleInterrupt s).interruptController.ip.getLsbD i =
        (s.interruptController.ip.getLsbD i && !decide (i = irq.val))) ∧
      ((rv32HandleInterrupt s).interruptController.ip ≠ 0 → (rv32HandleInterrupt s).mip = s.mip) ∧
      (rv32HandleInterrupt s).mcause = csrMcauseInterrupt ||| (16 + BitVec.ofNat 32 irq.val) := by
  have hirq : (rv32ClaimIrq s).1 = some irq := (trapTaken_external_iff.mp h).2
  rw [rv32HandleInterrupt_eq, h]
  rcases rv32ClaimIrq_cases s with ⟨-, hclaim⟩ | ⟨-, irq', ip, mip, hclaim, hset, hlow, hip, hmip⟩
  · rw [hclaim] at hirq; cases hirq
  · rw [hclaim] at hirq
    obtain rfl := Option.some.inj hirq
    simp only [TrapSource.claim, hclaim]
    refine ⟨hset, hlow, hip, fun hne => ?_, rfl⟩
    exact hmip.trans (if_neg hne)

/-- Every other way through the handler leaves `ip` and `mip` alone. -/
theorem rv32HandleInterrupt_internal {s : RV32 σ} (h : ∀ irq, trapTaken s ≠ some (.external irq)) :
    (rv32HandleInterrupt s).interruptController.ip = s.interruptController.ip ∧
      (rv32HandleInterrupt s).mip = s.mip := by
  rw [rv32HandleInterrupt_eq]
  cases htaken : trapTaken s with
  | none => exact ⟨rfl, rfl⟩
  | some src =>
      cases src with
      | software => exact ⟨rfl, rfl⟩
      | timer => exact ⟨rfl, rfl⟩
      | external irq => exact absurd htaken (h irq)

/-- Trap entry touches seven words and `wfi`. -/
theorem rv32HandleInterrupt_frame (s : RV32 σ) :
    ∃ pc mstatus mip mepc mcause wfi ip, rv32HandleInterrupt s =
      { s with pc, mstatus, mip, mepc, mcause, wfi, interruptController.ip := ip } := by
  rw [rv32HandleInterrupt_eq]
  cases trapTaken s with
  | none => exact ⟨_, _, _, _, _, _, _, rfl⟩
  | some src =>
      obtain ⟨ip, mip, hclaim⟩ := src.claim_frame s
      simp only [hclaim]
      exact ⟨_, _, _, _, _, _, _, rfl⟩

/-- A running machine is still running after the trap entry. -/
theorem rv32HandleInterrupt_status (s : RV32 σ) : (rv32HandleInterrupt s).status = s.status := by
  obtain ⟨_, _, _, _, _, _, _, hframe⟩ := rv32HandleInterrupt_frame s
  rw [hframe]

end Rv32
