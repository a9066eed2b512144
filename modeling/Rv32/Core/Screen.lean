import Rv32.Core.Effect
import Rv32.Core.Emulator

/-!
# `Core.Screen` — an instruction on two machines it cannot tell apart

Most of an instruction looks at the registers, `pc`, the status and the enable word of the interrupt
controller, and at no other field of the struct; the other fields are the `Hidden` ones, and what leaves them
alone is `Blind`. The rest are the memory helpers, whose RAM branch is followed byte by byte, and the
callbacks, of which it has to be asked that they do not look either (`Host.Respects`). A relation that hides
some of those fields and the bytes of a region `D` of the RAM, a `Screen`, is then kept by every instruction
that stays out of `D` (`Spares`), but for `mret` and the Zicsr instructions, which are there to look behind it.
-/

namespace Rv32

variable {σ : Type} {host : Host σ} {D : Set Nat} {R : RV32 σ → RV32 σ → Prop} {s t u : RV32 σ}

/-- From one state to the next, `rv32->mem` is not dereferenced in `D`. -/
def Spares (D : Set Nat) (s t : RV32 σ) : Prop :=
  ∃ new, t.mem.touched = new ++ s.mem.touched ∧ ∀ i ∈ new, i ∉ D

/-- Two answers are the same, given by machines in the relation. -/
def SameAnswer {α : Type} (R : RV32 σ → RV32 σ → Prop) (p q : α × RV32 σ) : Prop := q.1 = p.1 ∧ R p.2 q.2

/-- The callbacks answer machines in the relation alike, and keep them in it. -/
structure Host.Respects (host : Host σ) (R : RV32 σ → RV32 σ → Prop) : Prop where
  load8 : ∀ s t addr, R s t → SameAnswer R (host.mmioLoad8 s addr) (host.mmioLoad8 t addr)
  load16 : ∀ s t addr, R s t → SameAnswer R (host.mmioLoad16 s addr) (host.mmioLoad16 t addr)
  load32 : ∀ s t addr, R s t → SameAnswer R (host.mmioLoad32 s addr) (host.mmioLoad32 t addr)
  store8 : ∀ s t addr v, R s t → SameAnswer R (host.mmioStore8 s addr v) (host.mmioStore8 t addr v)
  store16 : ∀ s t addr v, R s t → SameAnswer R (host.mmioStore16 s addr v) (host.mmioStore16 t addr v)
  store32 : ∀ s t addr v, R s t → SameAnswer R (host.mmioStore32 s addr v) (host.mmioStore32 t addr v)
  ecall : ∀ s t, R s t → R (host.ecall s) (host.ecall t)

theorem SameAnswer.map {α β : Type} {p q : α × RV32 σ} (h : SameAnswer R p q) (f : α → β) :
    SameAnswer R (p.map f id) (q.map f id) := ⟨congrArg f h.1, h.2⟩

/-! ## The hidden fields -/

/-- The fields an instruction does not look at. -/
structure Hidden (σ : Type) where
  bpMask : BitVec 8
  bp : Fin 8 → Word
  mstatus : Word
  mie : Word
  mip : Word
  mtvec : Word
  mepc : Word
  mcause : Word
  wfi : BitVec 8
  ip : Word
  mem : Ram
  host : σ

/-- The hidden fields of a machine. -/
def RV32.hidden (s : RV32 σ) : Hidden σ where
  bpMask := s.bpMask
  bp := s.bp
  mstatus := s.mstatus
  mie := s.mie
  mip := s.mip
  mtvec := s.mtvec
  mepc := s.mepc
  mcause := s.mcause
  wfi := s.wfi
  ip := s.interruptController.ip
  mem := s.mem
  host := s.host

/-- The machine with other hidden fields. -/
def RV32.withHidden (s : RV32 σ) (h : Hidden σ) : RV32 σ :=
  { s with
    bpMask := h.bpMask
    bp := h.bp
    mstatus := h.mstatus
    mie := h.mie
    mip := h.mip
    mtvec := h.mtvec
    mepc := h.mepc
    mcause := h.mcause
    wfi := h.wfi
    interruptController.ip := h.ip
    mem := h.mem
    host := h.host }

@[simp] theorem withHidden_memSize (s : RV32 σ) (h : Hidden σ) : (s.withHidden h).memSize = s.memSize := rfl

@[simp] theorem withHidden_status (s : RV32 σ) (h : Hidden σ) : (s.withHidden h).status = s.status := rfl

@[simp] theorem withHidden_r (s : RV32 σ) (h : Hidden σ) : (s.withHidden h).r = s.r := rfl

@[simp] theorem withHidden_pc (s : RV32 σ) (h : Hidden σ) : (s.withHidden h).pc = s.pc := rfl

@[simp] theorem withHidden_ie (s : RV32 σ) (h : Hidden σ) :
    (s.withHidden h).interruptController.ie = s.interruptController.ie := rfl

/-! ## What does not look -/

/-- The function neither looks at the hidden fields nor touches them. -/
def Blind (f : RV32 σ → RV32 σ) : Prop := ∀ s h, f (s.withHidden h) = (f s).withHidden h

theorem Blind.hidden {f : RV32 σ → RV32 σ} (hf : Blind f) (s : RV32 σ) : (f s).hidden = s.hidden := by
  have hself := congrArg RV32.hidden (hf s s.hidden)
  exact hself

theorem blind_invalid : Blind (RV32.invalid : RV32 σ → RV32 σ) := fun _ _ => rfl

theorem blind_accessFault : Blind (RV32.accessFault : RV32 σ → RV32 σ) := fun _ _ => rfl

theorem blind_resetZero : Blind (RV32.resetZero : RV32 σ → RV32 σ) := fun _ _ => rfl

theorem blind_execOp (instr : Word) : Blind fun s : RV32 σ => execOp s instr := by
  intro s h
  simp only [execOp, withHidden_r]
  split <;> rfl

theorem blind_execOpImm (instr : Word) : Blind fun s : RV32 σ => execOpImm s instr := by
  intro s h
  simp only [execOpImm, withHidden_r]
  split <;> rfl

theorem blind_execBranch (instr : Word) : Blind fun s : RV32 σ => execBranch s instr := by
  intro s h
  simp only [execBranch, withHidden_r]
  split <;> rfl

/-- The two kinds of instructions that do look: `mret` and the Zicsr instructions. -/
def Privileged (instr : Word) : Prop := IsMret instr ∨ IsCsr instr

instance (instr : Word) : Decidable (Privileged instr) := inferInstanceAs (Decidable (_ ∨ _))

/-! ## Screens -/

/-- The relation lets only hidden fields differ, and of the RAM only `D`; it is kept by what does not look, and
    by an access to the RAM outside of `D`. -/
structure Screen (D : Set Nat) (R : RV32 σ → RV32 σ → Prop) : Prop where
  sees : ∀ {s t}, R s t → ∃ h, t = s.withHidden h
  outside : ∀ {s t}, R s t → ∀ i ∉ D, t.mem.bytes i = s.mem.bytes i
  map : ∀ {s t f}, R s t → Blind f → R (f s) (f t)
  wait : ∀ {s t}, R s t → R { s with wfi := 1 } { t with wfi := 1 }
  touch : ∀ {s t} addr n, R s t → R (s.touch addr n) (t.touch addr n)
  write : ∀ {s t} addr n v, R s t → (∀ i, addr ≤ i ∧ i < addr + n → i ∉ D) →
    R { s with mem.bytes := ByteMem.write s.mem.bytes addr n v }
      { t with mem.bytes := ByteMem.write t.mem.bytes addr n v }

/-- An access to the RAM that is spared lies outside of the region. -/
theorem Spares.of_touch {addr : Word} {n : Nat} (h : Spares D s (s.touch addr n)) {i : Nat}
    (hi : addr.toNat ≤ i ∧ i < addr.toNat + n) : i ∉ D := by
  obtain ⟨new, htouched, hnew⟩ := h
  have hrange : List.range' addr.toNat n = new := List.append_cancel_right htouched
  refine hnew i (hrange ▸ List.mem_range'.mpr ⟨i - addr.toNat, by omega, by omega⟩)

/-- `rv32_cycle` behind its interrupt test. -/
def cycleTail (host : Host σ) (s : RV32 σ) : RV32 σ :=
  match fetchPhase host s with
  | (none, s)       => s
  | (some instr, s) => rv32Execute host s instr

theorem rv32Cycle_eq_cycleTail (host : Host σ) (s : RV32 σ) :
    rv32Cycle host s = cycleTail host (rv32HandleInterrupt s) := by
  rw [rv32Cycle, rv32Fetch_handled]
  rfl

namespace Screen

/-! ## The helpers -/

section Helpers

variable (hR : Screen D R) (h : R s t) {n : Nat} {addr : Word}

include hR h

theorem loadOr {p q : Option (BitVec (8 * n)) × RV32 σ} (hother : SameAnswer R p q)
    (hspares : Spares D s (rv32LoadOr host s n p addr).2) :
    SameAnswer R (rv32LoadOr host s n p addr) (rv32LoadOr host t n q addr) := by
  have hsize : t.memSize = s.memSize := by obtain ⟨_, rfl⟩ := hR.sees h; rfl
  unfold rv32LoadOr at hspares ⊢
  rw [hsize]
  split
  · rename_i hguard
    rw [if_pos hguard] at hspares
    refine ⟨congrArg some (ByteMem.read_congr fun i hi => ?_), hR.touch _ _ h⟩
    exact hR.outside h i (hspares.of_touch hi)
  · exact hother

theorem storeOr {p q : Rv32Result × RV32 σ} {v : BitVec (8 * n)} (hother : SameAnswer R p q)
    (hspares : Spares D s (rv32StoreOr host s n p addr v).2) :
    SameAnswer R (rv32StoreOr host s n p addr v) (rv32StoreOr host t n q addr v) := by
  have hsize : t.memSize = s.memSize := by obtain ⟨_, rfl⟩ := hR.sees h; rfl
  unfold rv32StoreOr at hspares ⊢
  rw [hsize]
  split
  · rename_i hguard
    rw [if_pos hguard] at hspares
    have hnotin : ∀ i, addr.toNat ≤ i ∧ i < addr.toNat + n → i ∉ D := fun i hi =>
      Spares.of_touch (s := s) hspares hi
    exact ⟨rfl, hR.write _ _ _ (hR.touch addr n h) hnotin⟩
  · exact hother

end Helpers

/-! ## Instructions -/

section Execute

variable (hR : Screen D R) (hhost : host.Respects R) (h : R s t)

include hR hhost h

theorem load8 {addr : Word} (hspares : Spares D s (rv32Load8 host s addr).2) :
    SameAnswer R (rv32Load8 host s addr) (rv32Load8 host t addr) :=
  hR.loadOr h (hhost.load8 s t addr h) hspares

theorem load16 {addr : Word} (hspares : Spares D s (rv32Load16 host s addr).2) :
    SameAnswer R (rv32Load16 host s addr) (rv32Load16 host t addr) :=
  hR.loadOr h (hhost.load16 s t addr h) hspares

theorem load32 {addr : Word} (hspares : Spares D s (rv32Load32 host s addr).2) :
    SameAnswer R (rv32Load32 host s addr) (rv32Load32 host t addr) := by
  refine hR.loadOr h ?_ hspares
  split
  · refine ⟨?_, h⟩
    obtain ⟨_, rfl⟩ := hR.sees h
    rfl
  · exact hhost.load32 s t addr h

theorem store32 {addr v : Word} (hspares : Spares D s (rv32Store32 host s addr v).2) :
    SameAnswer R (rv32Store32 host s addr v) (rv32Store32 host t addr v) := by
  refine hR.storeOr h ?_ hspares
  split
  · exact ⟨rfl, hR.map (f := fun s => { s with interruptController.ie := v }) h fun _ _ => rfl⟩
  · exact hhost.store32 s t addr v h

theorem loadAccess {instr : Word} (hspares : ∀ v u, loadAccess host s instr = some (v, u) → Spares D s u) :
    Option.Rel (SameAnswer R) (loadAccess host s instr) (loadAccess host t instr) := by
  have haddr : loadAddr t instr = loadAddr s instr := by
    obtain ⟨_, rfl⟩ := hR.sees h
    rfl
  unfold Rv32.loadAccess at hspares ⊢
  rw [haddr]
  split
  · rename_i hf
    simp only [hf] at hspares
    exact .some ((hR.load8 hhost h (hspares _ _ rfl)).map _)
  · rename_i hf
    simp only [hf] at hspares
    exact .some ((hR.load16 hhost h (hspares _ _ rfl)).map _)
  · rename_i hf
    simp only [hf] at hspares
    exact .some (hR.load32 hhost h (hspares _ _ rfl))
  · rename_i hf
    simp only [hf] at hspares
    exact .some ((hR.load8 hhost h (hspares _ _ rfl)).map _)
  · rename_i hf
    simp only [hf] at hspares
    exact .some ((hR.load16 hhost h (hspares _ _ rfl)).map _)
  · exact .none

theorem storeAccess {instr : Word} (hspares : ∀ v u, storeAccess host s instr = some (v, u) → Spares D s u) :
    Option.Rel (SameAnswer R) (storeAccess host s instr) (storeAccess host t instr) := by
  have haddr : storeAddr t instr = storeAddr s instr := by
    obtain ⟨_, rfl⟩ := hR.sees h
    rfl
  have hvalue : t.r (rs2 instr) = s.r (rs2 instr) := by
    obtain ⟨_, rfl⟩ := hR.sees h
    rfl
  unfold Rv32.storeAccess at hspares ⊢
  rw [haddr, hvalue]
  split
  · rename_i hf
    simp only [hf] at hspares
    exact .some (hR.storeOr h (hhost.store8 s t _ _ h) (hspares _ _ rfl))
  · rename_i hf
    simp only [hf] at hspares
    exact .some (hR.storeOr h (hhost.store16 s t _ _ h) (hspares _ _ rfl))
  · rename_i hf
    simp only [hf] at hspares
    exact .some (hR.store32 hhost h (hspares _ _ rfl))
  · exact .none

theorem execLoad {instr : Word} (hspares : Spares D s (execLoad host s instr)) :
    R (execLoad host s instr) (execLoad host t instr) := by
  have hacc : Option.Rel (SameAnswer R) (Rv32.loadAccess host s instr) (Rv32.loadAccess host t instr) := by
    refine hR.loadAccess hhost h fun v u hv => ?_
    simp only [Rv32.execLoad, hv] at hspares
    cases v <;> exact hspares
  simp only [Rv32.execLoad]
  generalize Rv32.loadAccess host s instr = p at hacc ⊢
  generalize Rv32.loadAccess host t instr = q at hacc ⊢
  cases hacc with
  | none => exact hR.map h blind_invalid
  | @some p q hsame =>
      obtain ⟨v, u⟩ := p
      obtain ⟨w, u'⟩ := q
      obtain ⟨hv, hrel⟩ := hsame
      obtain rfl : w = v := hv
      cases w with
      | none => exact hR.map hrel blind_accessFault
      | some v => exact hR.map (f := fun u => u.retire (rd instr) v (u.pc + 4)) hrel fun _ _ => rfl

theorem execStore {instr : Word} (hspares : Spares D s (execStore host s instr)) :
    R (execStore host s instr) (execStore host t instr) := by
  have hacc : Option.Rel (SameAnswer R) (Rv32.storeAccess host s instr) (Rv32.storeAccess host t instr) := by
    refine hR.storeAccess hhost h fun v u hv => ?_
    simp only [Rv32.execStore, hv] at hspares
    cases v <;> exact hspares
  simp only [Rv32.execStore]
  generalize Rv32.storeAccess host s instr = p at hacc ⊢
  generalize Rv32.storeAccess host t instr = q at hacc ⊢
  cases hacc with
  | none => exact hR.map h blind_invalid
  | @some p q hsame =>
      obtain ⟨v, u⟩ := p
      obtain ⟨w, u'⟩ := q
      obtain ⟨hv, hrel⟩ := hsame
      obtain rfl : w = v := hv
      cases w with
      | ok => exact hR.map (f := fun u => { u with pc := u.pc + 4 }) hrel fun _ _ => rfl
      | err => exact hR.map hrel blind_accessFault

theorem execSystem {instr : Word} (hop : opcode instr = 0x73#8) (hunpriv : ¬ Privileged instr) :
    R (execSystem host s instr) (execSystem host t instr) := by
  have hnext : Blind fun s : RV32 σ => if s.status ≠ .running then s else { s with pc := s.pc + 4 } := by
    intro s h
    have hrunning : (s.withHidden h).status ≠ .running ↔ s.status ≠ .running := Iff.rfl
    by_cases hst : s.status ≠ .running
    · simp only [if_pos hst, if_pos (hrunning.mpr hst)]
    · simp only [if_neg hst, if_neg (hrunning.not.mpr hst)]
      rfl
  unfold Rv32.execSystem
  split
  · rename_i hf
    split
    · exact hR.map (hhost.ecall s t h) hnext
    · exact hR.map (f := fun s => { s with status := .ebreak, pc := s.pc + 4 }) h fun _ _ => rfl
    · exact absurd (.inl ⟨hop, hf, ‹_›⟩) hunpriv
    · exact hR.map (f := fun s => { s with pc := s.pc + 4 }) (hR.wait h) fun _ _ => rfl
    · exact hR.map h blind_invalid
  · split
    · exact absurd (.inr ⟨hop, ‹_›⟩) hunpriv
    · exact hR.map h blind_invalid

/-- **An instruction** that spares the region, and is not privileged. -/
theorem execute {instr : Word} (hunpriv : ¬ Privileged instr) (hspares : Spares D s (rv32Execute host s instr)) :
    R (rv32Execute host s instr) (rv32Execute host t instr) := by
  unfold rv32Execute at hspares ⊢
  split
  · exact hR.map h (blind_execOp instr)
  · exact hR.map h (blind_execOpImm instr)
  · rename_i hop
    simp only [hop] at hspares
    exact hR.execLoad hhost h hspares
  · rename_i hop
    simp only [hop] at hspares
    exact hR.execStore hhost h hspares
  · exact hR.map h (blind_execBranch instr)
  · exact hR.map (f := fun s => s.retire (rd instr) (s.pc + 4) (s.pc + sextImmJ instr)) h fun _ _ => rfl
  · exact hR.map (f := fun s => s.retire (rd instr) (s.pc + 4)
      ((s.r (rs1 instr) + sextImmI instr) &&& ~~~1#32)) h fun _ _ => rfl
  · exact hR.map (f := fun s => s.retire (rd instr) (sextImmU instr <<< 12) (s.pc + 4)) h fun _ _ => rfl
  · exact hR.map (f := fun s => s.retire (rd instr) (s.pc + (sextImmU instr <<< 12)) (s.pc + 4)) h fun _ _ => rfl
  · exact hR.execSystem hhost h ‹_› hunpriv
  · exact hR.map h blind_invalid

end Execute

/-! ## Above the `switch` -/

/-- **The part of the cycle above the `switch`**, when neither `wfi` nor the breakpoints tell the two apart. -/
theorem fetchPhase (hR : Screen D R) (hhost : host.Respects R) (h : R s t) (hwfi : t.wfi = s.wfi)
    (hbp : breakpointHit t ↔ breakpointHit s) (hspares : Spares D s (fetchPhase host s).2) :
    SameAnswer R (fetchPhase host s) (fetchPhase host t) := by
  have hw' : t.wfi ≠ 0 ↔ s.wfi ≠ 0 := by rw [hwfi]
  have hstatus : t.status ≠ .running ↔ s.status ≠ .running := by
    obtain ⟨_, rfl⟩ := hR.sees h
    exact Iff.rfl
  have hpc : t.pc = s.pc := by obtain ⟨_, rfl⟩ := hR.sees h; rfl
  -- both machines leave on the same path
  unfold Rv32.fetchPhase at hspares ⊢
  by_cases hw : s.wfi ≠ 0
  · rw [if_pos hw, if_pos (hw'.mpr hw)]
    exact ⟨rfl, h⟩
  rw [if_neg hw] at hspares ⊢
  rw [if_neg (hw'.not.mpr hw)]
  by_cases hst : s.status ≠ .running
  · rw [if_pos hst, if_pos (hstatus.mpr hst)]
    exact ⟨rfl, h⟩
  rw [if_neg hst] at hspares ⊢
  rw [if_neg (hstatus.not.mpr hst)]
  by_cases hhit : breakpointHit s
  · rw [if_pos hhit, if_pos (hbp.mpr hhit)]
    exact ⟨rfl, hR.map (f := fun s => { s with status := .paused }) h fun _ _ => rfl⟩
  rw [if_neg hhit] at hspares ⊢
  rw [if_neg (hbp.not.mpr hhit)]
  have hload : SameAnswer R (rv32Load32 host s s.pc) (rv32Load32 host t t.pc) := by
    rw [hpc]
    refine hR.load32 hhost h ?_
    rcases hp : rv32Load32 host s s.pc with ⟨_ | instr, u⟩
    · rw [hp] at hspares
      exact hspares
    · rw [hp] at hspares
      exact hspares
  rcases hp : rv32Load32 host s s.pc with ⟨word, u⟩
  rcases hq : rv32Load32 host t t.pc with ⟨word', u'⟩
  rw [hp, hq] at hload
  obtain ⟨hword, hrel⟩ := hload
  obtain rfl : word' = word := hword
  cases word' with
  | none => exact ⟨rfl, hR.map hrel blind_accessFault⟩
  | some instr => exact ⟨rfl, hR.map hrel blind_resetZero⟩

end Screen

/-! ## Stretches that spare the region -/

/-- The record of dereferences only grows. -/
def Records (s t : RV32 σ) : Prop := ∃ new, t.mem.touched = new ++ s.mem.touched

/-- What is spared on the whole way is spared on both parts of it. -/
theorem Spares.split (h : Spares D s u) (hst : Records s t) (htu : Records t u) :
    Spares D s t ∧ Spares D t u := by
  obtain ⟨new, hnew, hspared⟩ := h
  obtain ⟨first, hfirst⟩ := hst
  obtain ⟨second, hsecond⟩ := htu
  have hsplit : new = second ++ first := by
    rw [hsecond, hfirst, ← List.append_assoc] at hnew
    exact (List.append_cancel_right hnew).symm
  rw [hsplit] at hspared
  exact ⟨⟨first, hfirst, fun i hi => hspared i (List.mem_append_right _ hi)⟩,
    ⟨second, hsecond, fun i hi => hspared i (List.mem_append_left _ hi)⟩⟩

theorem Records.spares_empty (h : Records s t) : Spares ∅ s t := by
  obtain ⟨new, hnew⟩ := h
  exact ⟨new, hnew, fun _ _ => Set.notMem_empty _⟩

/-! ## The emulator -/

/-- The callbacks of the emulator look at nothing that is hidden, and print the same. -/
theorem Screen.emulatorHost {R : RV32 (List Output) → RV32 (List Output) → Prop} (hR : Screen D R)
    (hprint : ∀ s t o, R s t → R { s with host := s.host ++ [o] } { t with host := t.host ++ [o] }) :
    emulatorHost.Respects R where
  load8 _ _ _ h := ⟨rfl, h⟩
  load16 _ _ _ h := ⟨rfl, h⟩
  load32 _ _ _ h := ⟨rfl, h⟩
  store8 s t addr v h := by
    simp only [Rv32.emulatorHost]
    split
    · exact ⟨rfl, hprint _ _ _ h⟩
    · exact ⟨rfl, h⟩
  store16 _ _ _ _ h := ⟨rfl, h⟩
  store32 _ _ _ _ h := ⟨rfl, h⟩
  ecall s t h := by
    have hr : ∀ i, t.r i = s.r i := by
      obtain ⟨_, rfl⟩ := hR.sees h
      exact fun i => rfl
    simp only [Rv32.emulatorHost, hr]
    split
    · exact hprint _ _ _ h
    · exact hprint _ _ _ h
    · exact hR.map (f := fun s => { s with status := .halted }) h fun _ _ => rfl
    · exact h

end Rv32
