import Rv32.Core.Cycle

/-!
# `Core.Effect` — what one executed instruction can do

`Exec host s instr t` lists the states the `switch(opcode)` can leave behind, one constructor per kind
of exit, each with the test that led there. `rv32Execute_exec` proves the list complete by going through
the opcode cases once. Everything later that quantifies over all words works on `Exec`.

`StepRel host R` says that a relation `R` contains the primitive effects an instruction is made of.
`rv32Execute_rel` composes them: an instruction other than `mret` and Zicsr is then within `R`, and those
two are once their one write is.
-/

namespace Rv32

variable {σ : Type} (host : Host σ)

/-! ## Kinds of words, as the `switch` tells them apart -/

/-- The word reaches `case 0x0: /* ecall */`. -/
def IsEcall (instr : Word) : Prop := opcode instr = 0x73#8 ∧ funct3 instr = 0 ∧ immI instr = 0x0#32

/-- The word reaches `case 0x302: /* mret */`. -/
def IsMret (instr : Word) : Prop := opcode instr = 0x73#8 ∧ funct3 instr = 0 ∧ immI instr = 0x302#32

/-- The word reaches the Zicsr branch of `case 0x73`. -/
def IsCsr (instr : Word) : Prop := opcode instr = 0x73#8 ∧ funct3 instr &&& 0x3 ≠ 0

/-- The opcodes whose case assigns `rv32->r[RD]` a value computed from registers, `pc` and the word. -/
def IsCompute (instr : Word) : Prop :=
  opcode instr ∈ [0x33#8, 0x13#8, 0x6f#8, 0x67#8, 0x37#8, 0x17#8]

instance (instr : Word) : Decidable (IsEcall instr) := inferInstanceAs (Decidable (_ ∧ _))
instance (instr : Word) : Decidable (IsMret instr) := inferInstanceAs (Decidable (_ ∧ _))
instance (instr : Word) : Decidable (IsCsr instr) := inferInstanceAs (Decidable (_ ∧ _))
instance (instr : Word) : Decidable (IsCompute instr) := inferInstanceAs (Decidable (_ ∈ _))

/-- The operand `w_val` is computed from, by the case of `rv32_cycle`. -/
def csrWritten (s : RV32 σ) (instr : Word) : Option Word :=
  csrWriteValue (funct3 instr) (rv32ReadCsr s (immI instr)) (s.r (rs1 instr))
    (BitVec.ofNat 32 (rs1 instr).val)

/-- The ways out of the `switch(opcode)` entered with `instr` in state `s`. -/
inductive Exec (s : RV32 σ) (instr : Word) : RV32 σ → Prop where
  | invalid : Exec s instr s.invalid
  | compute (h : IsCompute instr) (v pc : Word) : Exec s instr (s.retire (rd instr) v pc)
  | load {v : Word} {t : RV32 σ} (h : opcode instr = 0x03#8)
      (hacc : loadAccess host s instr = some (some v, t)) :
      Exec s instr (t.retire (rd instr) v (t.pc + 4))
  | loadFault {t : RV32 σ} (h : opcode instr = 0x03#8)
      (hacc : loadAccess host s instr = some (none, t)) : Exec s instr t.accessFault
  | store {t : RV32 σ} (h : opcode instr = 0x23#8)
      (hacc : storeAccess host s instr = some (.ok, t)) : Exec s instr { t with pc := t.pc + 4 }
  | storeFault {t : RV32 σ} (h : opcode instr = 0x23#8)
      (hacc : storeAccess host s instr = some (.err, t)) : Exec s instr t.accessFault
  | branch (pc : Word) : Exec s instr { s with pc := pc }
  | ecallStop (h : IsEcall instr) (hstop : (host.ecall s).status ≠ .running) :
      Exec s instr (host.ecall s)
  | ecallNext (h : IsEcall instr) :
      Exec s instr { host.ecall s with pc := (host.ecall s).pc + 4 }
  | ebreak : Exec s instr { s with status := .ebreak, pc := s.pc + 4 }
  | mret (h : IsMret instr) :
      Exec s instr
        { s with
          pc := s.mepc
          mstatus := csrSetBit s.mstatus csrMstatusMie (csrGetBit s.mstatus csrMstatusMpie) }
  | wfi : Exec s instr { s with wfi := 1, pc := s.pc + 4 }
  | csr {wVal : Word} (h : IsCsr instr) (hw : csrWritten s instr = some wVal) :
      Exec s instr
        ((rv32WriteCsr s (immI instr) wVal).retire (rd instr) (rv32ReadCsr s (immI instr))
          ((rv32WriteCsr s (immI instr) wVal).pc + 4))

variable {host}

/-- **Every executed instruction is one of the listed effects.** -/
theorem rv32Execute_exec (s : RV32 σ) (instr : Word) : Exec host s instr (rv32Execute host s instr) := by
  unfold rv32Execute
  split
  case _ hop =>   -- OP
    unfold execOp
    split
    · exact .compute (by simp [IsCompute, hop]) _ _
    · exact .invalid
  case _ hop =>   -- OP-IMM
    unfold execOpImm
    split
    · exact .compute (by simp [IsCompute, hop]) _ _
    · exact .invalid
  case _ hop =>   -- loads
    unfold execLoad
    split
    · exact .load hop ‹_›
    · exact .loadFault hop ‹_›
    · exact .invalid
  case _ hop =>   -- stores
    unfold execStore
    split
    · exact .store hop ‹_›
    · exact .storeFault hop ‹_›
    · exact .invalid
  case _ =>       -- branches
    unfold execBranch
    split
    · exact .branch _
    · exact .branch _
    · exact .invalid
  case _ hop => exact .compute (by simp [IsCompute, hop]) _ _
  case _ hop => exact .compute (by simp [IsCompute, hop]) _ _
  case _ hop => exact .compute (by simp [IsCompute, hop]) _ _
  case _ hop => exact .compute (by simp [IsCompute, hop]) _ _
  case _ hop =>   -- SYSTEM
    unfold execSystem
    split
    case _ hf =>
      split
      case _ himm =>
        by_cases hst : (host.ecall s).status ≠ .running
        · rw [if_pos hst]; exact .ecallStop ⟨hop, hf, himm⟩ hst
        · rw [if_neg hst]; exact .ecallNext ⟨hop, hf, himm⟩
      case _ => exact .ebreak
      case _ himm => exact .mret ⟨hop, hf, himm⟩
      case _ => exact .wfi
      case _ => exact .invalid
    case _ =>
      split
      case _ hcsr =>
        unfold execCsr
        cases hw : csrWritten s instr with
        | some wVal => simp only [csrWritten] at hw; simp only [hw]; exact .csr ⟨hop, hcsr⟩ hw
        | none => simp only [csrWritten] at hw; simp only [hw]; exact .invalid
      case _ => exact .invalid
  case _ => exact .invalid

/-- A Zicsr instruction writes its operand and reads the old value into `rd`. -/
theorem rv32Execute_csr {s : RV32 σ} {instr wVal : Word} (h : IsCsr instr)
    (hw : csrWritten s instr = some wVal) :
    rv32Execute host s instr =
      (rv32WriteCsr s (immI instr) wVal).retire (rd instr) (rv32ReadCsr s (immI instr))
        ((rv32WriteCsr s (immI instr) wVal).pc + 4) := by
  -- the Zicsr branch is the `else` of `funct3 == 0`
  have hf3 : funct3 instr ≠ 0 := fun h0 => h.2 (by rw [h0]; rfl)
  rw [csrWritten] at hw
  simp only [rv32Execute, h.1, execSystem, if_neg hf3, if_pos h.2, execCsr, hw]

/-- `mret` restores `pc` and the interrupt enable bit. -/
theorem rv32Execute_mret {s : RV32 σ} {instr : Word} (h : IsMret instr) :
    rv32Execute host s instr =
      { s with
        pc := s.mepc
        mstatus := csrSetBit s.mstatus csrMstatusMie (csrGetBit s.mstatus csrMstatusMpie) } := by
  simp only [rv32Execute, h.1, execSystem, h.2.1, h.2.2, if_true]

variable (host) in
/-- The ways out of the part of the cycle between the interrupt test and the `switch`. -/
inductive Fetched (s : RV32 σ) : Option Word × RV32 σ → Prop where
  | waiting (hwfi : s.wfi ≠ 0) : Fetched s (none, s)
  | stopped (hwfi : s.wfi = 0) (hst : s.status ≠ .running) : Fetched s (none, s)
  | breakpoint (hwfi : s.wfi = 0) (hst : s.status = .running) (hbp : breakpointHit s) :
      Fetched s (none, { s with status := .paused })
  | fault {u : RV32 σ} (hwfi : s.wfi = 0) (hst : s.status = .running) (hbp : ¬ breakpointHit s)
      (hload : rv32Load32 host s s.pc = (none, u)) : Fetched s (none, u.accessFault)
  | word {instr : Word} {u : RV32 σ} (hwfi : s.wfi = 0) (hst : s.status = .running)
      (hbp : ¬ breakpointHit s) (hload : rv32Load32 host s s.pc = (some instr, u)) :
      Fetched s (some instr, u.resetZero)

theorem fetchPhase_fetched (s : RV32 σ) : Fetched host s (fetchPhase host s) := by
  unfold fetchPhase
  split
  · exact .waiting ‹_›
  rename_i hwfi
  split
  · exact .stopped (not_not.mp hwfi) ‹_›
  rename_i hst
  split
  · exact .breakpoint (not_not.mp hwfi) (not_not.mp hst) ‹_›
  split
  · exact .fault (not_not.mp hwfi) (not_not.mp hst) ‹_› ‹_›
  · exact .word (not_not.mp hwfi) (not_not.mp hst) ‹_› ‹_›

/-- A word that reaches the `switch` was loaded at `pc`, with no test in its way. -/
theorem rv32Fetch_some {s u : RV32 σ} {instr : Word} (h : rv32Fetch host s = (some instr, u)) :
    Fetching (rv32HandleInterrupt s) ∧ ∃ v,
      rv32Load32 host (rv32HandleInterrupt s) (rv32HandleInterrupt s).pc = (some instr, v) ∧
        u = v.resetZero := by
  rw [rv32Fetch_handled] at h
  have hfetched : Fetched host (rv32HandleInterrupt s) (some instr, u) := h ▸ fetchPhase_fetched _
  cases hfetched with
  | @word _ v hwfi hst hbp hload => exact ⟨⟨hwfi, hst, hbp⟩, v, hload, rfl⟩

/-! ## Relations closed under the primitive effects -/

variable (host) in
/-- `R` contains what a load does: nothing, a RAM dereference, or a callback. -/
structure LoadRel (R : RV32 σ → RV32 σ → Prop) : Prop where
  refl : ∀ s, R s s
  touch : ∀ s addr n, n ≤ 4 → ramGuard host s.memSize n addr → R s (s.touch addr n)
  mmio : host.MmioRel R

variable (host) in
/-- `R` also contains what a store does, and composes. -/
structure AccessRel (R : RV32 σ → RV32 σ → Prop) : Prop extends LoadRel host R where
  trans : ∀ {s t u}, R s t → R t u → R s u
  bytes : ∀ s bytes, R s { s with mem.bytes := bytes }
  ie : ∀ s ie, R s { s with interruptController.ie := ie }

variable (host) in
/-- `R` contains every primitive effect of an instruction, except the three that are left to the
    instruction they belong to: `ecall`, the write of `mret` and the CSR write. -/
structure StepRel (R : RV32 σ → RV32 σ → Prop) : Prop extends AccessRel host R where
  core : ∀ s r pc status wfi, R s { s with r, pc, status, wfi }

variable {R : RV32 σ → RV32 σ → Prop} {s t : RV32 σ} {instr : Word}

theorem rv32LoadOr_rel (hR : LoadRel host R) {n : Nat} (hn : n ≤ 4)
    {otherwise : Option (BitVec (8 * n)) × RV32 σ} (ho : R s otherwise.2) (addr : Word) :
    R s (rv32LoadOr host s n otherwise addr).2 := by
  unfold rv32LoadOr
  split
  · exact hR.touch s addr n hn ‹_›
  · exact ho

theorem rv32StoreOr_rel (hR : AccessRel host R) {n : Nat} (hn : n ≤ 4)
    {otherwise : Rv32Result × RV32 σ} (ho : R s otherwise.2) (addr : Word) (val : BitVec (8 * n)) :
    R s (rv32StoreOr host s n otherwise addr val).2 := by
  unfold rv32StoreOr
  split
  · exact hR.trans (hR.touch s addr n hn ‹_›) (hR.bytes _ _)
  · exact ho

theorem rv32Load32_rel (hR : LoadRel host R) (s : RV32 σ) (addr : Word) :
    R s (rv32Load32 host s addr).2 := by
  refine rv32LoadOr_rel hR (Nat.le_refl 4) ?_ addr
  split
  · exact hR.refl s
  · exact hR.mmio.load32 s addr

theorem rv32Store32_rel (hR : AccessRel host R) (s : RV32 σ) (addr val : Word) :
    R s (rv32Store32 host s addr val).2 := by
  refine rv32StoreOr_rel hR (Nat.le_refl 4) ?_ addr val
  split
  · exact hR.ie s _
  · exact hR.mmio.store32 s addr val

theorem loadAccess_rel (hR : LoadRel host R) {v : Option Word}
    (h : loadAccess host s instr = some (v, t)) : R s t := by
  have h8 : R s (rv32Load8 host s (loadAddr s instr)).2 :=
    rv32LoadOr_rel hR (by decide) (hR.mmio.load8 s _) _
  have h16 : R s (rv32Load16 host s (loadAddr s instr)).2 :=
    rv32LoadOr_rel hR (by decide) (hR.mmio.load16 s _) _
  unfold loadAccess at h
  split at h
  · obtain rfl := congrArg Prod.snd (Option.some.inj h); exact h8
  · obtain rfl := congrArg Prod.snd (Option.some.inj h); exact h16
  · obtain rfl := congrArg Prod.snd (Option.some.inj h); exact rv32Load32_rel hR s _
  · obtain rfl := congrArg Prod.snd (Option.some.inj h); exact h8
  · obtain rfl := congrArg Prod.snd (Option.some.inj h); exact h16
  · cases h

theorem storeAccess_rel (hR : AccessRel host R) {v : Rv32Result}
    (h : storeAccess host s instr = some (v, t)) : R s t := by
  unfold storeAccess at h
  split at h
  · obtain rfl := congrArg Prod.snd (Option.some.inj h)
    exact rv32StoreOr_rel hR (by decide) (hR.mmio.store8 s _ _) _ _
  · obtain rfl := congrArg Prod.snd (Option.some.inj h)
    exact rv32StoreOr_rel hR (by decide) (hR.mmio.store16 s _ _) _ _
  · obtain rfl := congrArg Prod.snd (Option.some.inj h)
    exact rv32Store32_rel hR s _ _
  · cases h

/-- A store that fails has only asked a callback. -/
theorem rv32StoreOr_err {n : Nat} {otherwise : Rv32Result × RV32 σ}
    (ho : otherwise.1 = .err → R s otherwise.2) {addr : Word} {val : BitVec (8 * n)}
    (h : (rv32StoreOr host s n otherwise addr val).1 = .err) :
    R s (rv32StoreOr host s n otherwise addr val).2 := by
  unfold rv32StoreOr at h ⊢
  split
  · rename_i hg; rw [if_pos hg] at h; cases h
  · rename_i hg; rw [if_neg hg] at h; exact ho h

theorem storeAccess_err (hR : host.MmioRel R) (h : storeAccess host s instr = some (.err, t)) :
    R s t := by
  unfold storeAccess at h
  split at h
  · obtain ⟨herr, rfl⟩ := Prod.mk.inj (Option.some.inj h)
    exact rv32StoreOr_err (fun _ => hR.store8 s _ _) herr
  · obtain ⟨herr, rfl⟩ := Prod.mk.inj (Option.some.inj h)
    exact rv32StoreOr_err (fun _ => hR.store16 s _ _) herr
  · obtain ⟨herr, rfl⟩ := Prod.mk.inj (Option.some.inj h)
    refine rv32StoreOr_err (fun ho => ?_) herr
    split
    · rename_i ha; rw [if_pos ha] at ho; cases ho
    · exact hR.store32 s _ _
  · cases h

/-- **An instruction is within any relation that contains its primitive effects**, provided its own
    effect is, when it is `ecall`, `mret` or a Zicsr instruction. -/
theorem rv32Execute_rel (hR : StepRel host R) (s : RV32 σ) (instr : Word)
    (hecall : IsEcall instr → R s (host.ecall s))
    (hmret : IsMret instr → R s { s with
      mstatus := csrSetBit s.mstatus csrMstatusMie (csrGetBit s.mstatus csrMstatusMpie) })
    (hcsr : ∀ wVal, IsCsr instr → csrWritten s instr = some wVal →
      R s (rv32WriteCsr s (immI instr) wVal)) :
    R s (rv32Execute host s instr) := by
  generalize ht : rv32Execute host s instr = t
  have hexec : Exec host s instr t := ht ▸ rv32Execute_exec s instr
  -- `hR.core` is all of an exit that only computes; the others do one more thing before it
  cases hexec with
  | invalid => exact hR.core s _ _ _ _
  | compute _ v pc => exact hR.core s _ _ _ _
  | load _ hacc => exact hR.trans (loadAccess_rel hR.toLoadRel hacc) (hR.core _ _ _ _ _)
  | loadFault _ hacc => exact hR.trans (loadAccess_rel hR.toLoadRel hacc) (hR.core _ _ _ _ _)
  | store _ hacc => exact hR.trans (storeAccess_rel hR.toAccessRel hacc) (hR.core _ _ _ _ _)
  | storeFault _ hacc => exact hR.trans (storeAccess_rel hR.toAccessRel hacc) (hR.core _ _ _ _ _)
  | branch pc => exact hR.core s _ _ _ _
  | ecallStop h _ => exact hecall h
  | ecallNext h => exact hR.trans (hecall h) (hR.core _ _ _ _ _)
  | ebreak => exact hR.core s _ _ _ _
  | mret h => exact hR.trans (hmret h) (hR.core _ _ _ _ _)
  | wfi => exact hR.core s _ _ _ _
  | csr h hw => exact hR.trans (hcsr _ h hw) (hR.core _ _ _ _ _)

/-- The part of the cycle between the interrupt test and the `switch` is within such a relation. -/
theorem fetchPhase_rel (hR : StepRel host R) (s : RV32 σ) : R s (fetchPhase host s).2 := by
  have hload := rv32Load32_rel hR.toLoadRel s s.pc
  generalize hp : fetchPhase host s = p
  have hfetched : Fetched host s p := hp ▸ fetchPhase_fetched s
  cases hfetched with
  | waiting _ => exact hR.refl s
  | stopped _ _ => exact hR.refl s
  | breakpoint _ _ _ => exact hR.core s _ _ _ _
  | fault _ _ _ hl => rw [hl] at hload; exact hR.trans hload (hR.core _ _ _ _ _)
  | word _ _ _ hl => rw [hl] at hload; exact hR.trans hload (hR.core _ _ _ _ _)

/-- After the trap entry, the part of the cycle above the `switch` is within such a relation. -/
theorem rv32Fetch_rel (hR : StepRel host R) (s : RV32 σ) :
    R (rv32HandleInterrupt s) (rv32Fetch host s).2 := by
  rw [rv32Fetch_handled]
  exact fetchPhase_rel hR _

/-- **A cycle is within such a relation** if its trap entry and its instruction are. -/
theorem rv32Cycle_rel (hR : StepRel host R) (hirq : R s (rv32HandleInterrupt s))
    (hexec : ∀ instr u, rv32Fetch host s = (some instr, u) → R u (rv32Execute host u instr)) :
    R s (rv32Cycle host s) := by
  have hfetch : R s (rv32Fetch host s).2 := hR.trans hirq (rv32Fetch_rel hR s)
  unfold rv32Cycle
  split
  · rename_i u h; rw [h] at hfetch; exact hfetch
  · rename_i instr u h; rw [h] at hfetch; exact hR.trans hfetch (hexec instr u h)

/-! ## Hosts whose callbacks leave the struct alone -/

/-- `t` is `s` but for the host's own state and the ghost record of dereferences. -/
def Scratch (s t : RV32 σ) : Prop := ∃ touched h, t = { s with mem.touched := touched, host := h }

theorem Host.MmioPure.scratch (h : host.MmioPure) : LoadRel host Scratch where
  refl _ := ⟨_, _, rfl⟩
  touch _ _ _ _ _ := ⟨_, _, rfl⟩
  mmio := h.mono fun _ _ ⟨h', heq⟩ => ⟨_, h', heq⟩

end Rv32
