import Rv32.Core.Effect
import Rv32.Core.Emulator

/-!
# `Correctness.NoNesting` — a handler runs undisturbed, and `mret` undoes its trap

Trap entry clears MIE, saves it in MPIE and saves `pc` in `mepc`. `InHandler p` is that situation; as
long as the handler keeps its hands off `mstatus` and `mepc` it is kept by every call, no trap is taken,
and the `mret` that ends the handler finds exactly what the entry saved.
-/

namespace Rv32

variable {σ : Type} {host : Host σ}

/-- The situation trap entry at `p` sets up. -/
structure InHandler (p : Word) (s : RV32 σ) : Prop where
  mepc : s.mepc = p
  mie : s.mstatus.getLsbD csrMstatusMie = false
  mpie : s.mstatus.getLsbD csrMstatusMpie = true

/-- The call executes neither `mret` nor a CSR instruction that changes `mstatus` or `mepc`. -/
def InsideHandler (host : Host σ) (s : RV32 σ) (a : Action) : Prop :=
  a = .cycle → ∀ instr u, rv32Fetch host s = (some instr, u) →
    ¬ IsMret instr ∧ ∀ v, IsCsr instr → csrWritten u instr = some v →
      (immI instr = 0x300#32 → v = u.mstatus) ∧ (immI instr = 0x341#32 → v = u.mepc)

/-- The functions of the embedding program do not touch `mstatus` and `mepc`. -/
def Host.KeepsTrapState (host : Host σ) : Prop :=
  host.Within fun s t => t.mstatus = s.mstatus ∧ t.mepc = s.mepc

theorem Host.KeepsTrapState.stepRel (hkeep : host.KeepsTrapState) :
    StepRel host fun s t => t.mstatus = s.mstatus ∧ t.mepc = s.mepc where
  refl _ := ⟨rfl, rfl⟩
  touch _ _ _ _ _ := ⟨rfl, rfl⟩
  mmio := hkeep.toMmioRel
  trans h h' := ⟨h'.1.trans h.1, h'.2.trans h.2⟩
  bytes _ _ := ⟨rfl, rfl⟩
  ie _ _ := ⟨rfl, rfl⟩
  core _ _ _ _ _ := ⟨rfl, rfl⟩

/-! ## Entry -/

/-- **Trap entry.** -/
theorem inHandler_of_trap {s : RV32 σ} (htrap : trapTaken s ≠ none) :
    InHandler s.pc (rv32HandleInterrupt s) := by
  obtain ⟨src, hsrc⟩ := Option.ne_none_iff_exists'.mp htrap
  have hentered : TrapEntered src s (rv32HandleInterrupt s) := trapEntered_iff.mpr hsrc
  exact ⟨hentered.mepc, hentered.mie, hentered.mpie⟩

/-- In a handler no trap is taken. -/
theorem InHandler.noTrap {p : Word} {s : RV32 σ} (h : InHandler p s) : trapTaken s = none :=
  trapTaken_of_mie ((csrGetBit_eq_zero _ _).mpr h.mie)

/-! ## One call -/

theorem InHandler.of_eq {p : Word} {s t : RV32 σ} (h : InHandler p s)
    (heq : t.mstatus = s.mstatus ∧ t.mepc = s.mepc) : InHandler p t where
  mepc := heq.2.trans h.mepc
  mie := heq.1 ▸ h.mie
  mpie := heq.1 ▸ h.mpie

theorem rv32Cycle_insideHandler (hkeep : host.KeepsTrapState) {s : RV32 σ}
    (htrap : trapTaken s = none) (hinside : InsideHandler host s .cycle) :
    (rv32Cycle host s).mstatus = s.mstatus ∧ (rv32Cycle host s).mepc = s.mepc := by
  refine rv32Cycle_rel hkeep.stepRel ?_ fun instr u hfetch => ?_
  · rw [rv32HandleInterrupt_of_none htrap]; exact ⟨rfl, rfl⟩
  · obtain ⟨hmret, hcsr⟩ := hinside rfl instr u hfetch
    refine rv32Execute_rel hkeep.stepRel u instr (fun _ => hkeep.ecall u)
      (fun h => absurd h hmret) fun v h hw => ?_
    -- a write of the value that is there already does no harm
    obtain ⟨hmstatus, hmepc⟩ := hcsr v h hw
    constructor
    · by_cases himm : immI instr = 0x300#32
      · rw [himm, hmstatus himm]; rfl
      · exact rv32WriteCsr_mstatus himm v
    · by_cases himm : immI instr = 0x341#32
      · rw [himm, hmepc himm]; rfl
      · exact rv32WriteCsr_mepc himm v

/-- **One call.** -/
theorem InHandler.step (hkeep : host.KeepsTrapState) {p : Word} {s : RV32 σ} (h : InHandler p s)
    {a : Action} (hinside : InsideHandler host s a) : InHandler p (step host s a) := by
  rcases step_cases host s a with rfl | ⟨irq, rfl⟩ | ⟨-, _, _, _, hcontrol⟩
  · exact h.of_eq (rv32Cycle_insideHandler hkeep h.noTrap hinside)
  · obtain ⟨_, _, hframe⟩ := rv32TriggerExternalInterrupt_frame s irq
    rw [Rv32.step, hframe]
    exact h.of_eq ⟨rfl, rfl⟩
  · rw [hcontrol]
    exact h.of_eq ⟨rfl, rfl⟩

/-! ## The first `mret` -/

/-- **`mret` undoes the entry.** -/
theorem InHandler.mret (hkeep : host.KeepsTrapState) {p : Word} {s u : RV32 σ} (h : InHandler p s)
    {instr : Word} (hfetch : rv32Fetch host s = (some instr, u)) (hmret : IsMret instr) :
    (rv32Cycle host s).pc = p ∧ (rv32Cycle host s).mstatus.getLsbD csrMstatusMie = true := by
  have hu := rv32Fetch_rel hkeep.stepRel s
  rw [hfetch, rv32HandleInterrupt_of_none h.noTrap] at hu
  have hin : InHandler p u := h.of_eq hu
  rw [rv32Cycle_of_fetch host hfetch, rv32Execute_mret hmret]
  refine ⟨hin.mepc, ?_⟩
  rw [getLsbD_csrSetBit _ (by decide), if_pos rfl]
  exact decide_eq_true ((csrGetBit_ne_zero _ _).mpr hin.mpie)

/-- A cycle that takes a trap goes on with the first instruction of the handler. -/
theorem rv32Cycle_handled (host : Host σ) (s : RV32 σ) :
    rv32Cycle host (rv32HandleInterrupt s) = rv32Cycle host s := by
  rw [rv32Cycle, rv32Cycle, rv32Fetch_handled, rv32Fetch_handled,
    rv32HandleInterrupt_of_none (trapTaken_handled s)]

/-- **Interrupts do not nest, and `mret` returns exactly.** After a trap taken at `p`, a run of calls that
    execute neither `mret` nor a CSR instruction that changes `mstatus` or `mepc` takes no trap and keeps
    `mepc`, MIE and MPIE as the entry left them; an `mret` executed next returns to `p` and sets MIE. The
    run may begin with the rest of the very cycle that took the trap. -/
theorem handler_undisturbed (host : Host σ) (hkeep : host.KeepsTrapState) (s : RV32 σ)
    (htrap : trapTaken s ≠ none) (as : List Action)
    (hinside : Lts.AllSteps (step host) (InsideHandler host) (rv32HandleInterrupt s) as) :
    (∃ src, TakesTrap host s src) ∧
    rv32Cycle host (rv32HandleInterrupt s) = rv32Cycle host s ∧
    Lts.AllStates (step host)
      (fun t => (trapTaken t = none ∧ rv32HandleInterrupt t = t) ∧ t.mepc = s.pc ∧
        t.mstatus.getLsbD csrMstatusMie = false ∧ t.mstatus.getLsbD csrMstatusMpie = true)
      (rv32HandleInterrupt s) as ∧
    ∀ instr u,
      rv32Fetch host (runActions host (rv32HandleInterrupt s) as) = (some instr, u) → IsMret instr →
      (rv32Cycle host (runActions host (rv32HandleInterrupt s) as)).pc = s.pc ∧
      (rv32Cycle host (runActions host (rv32HandleInterrupt s) as)).mstatus.getLsbD csrMstatusMie =
        true := by
  have hrun : Lts.AllStates (step host) (InHandler s.pc) (rv32HandleInterrupt s) as :=
    Lts.AllStates.of_step (fun t a ht ha => ht.step hkeep ha) (inHandler_of_trap htrap) hinside
  have hquiet (t : RV32 σ) (h : InHandler s.pc t) : trapTaken t = none ∧ rv32HandleInterrupt t = t :=
    ⟨h.noTrap, rv32HandleInterrupt_of_none h.noTrap⟩
  obtain ⟨src, hsrc⟩ := Option.ne_none_iff_exists'.mp htrap
  refine ⟨⟨src, (takesTrap_iff host).mpr hsrc⟩, rv32Cycle_handled host s,
    hrun.mono fun t h => ⟨hquiet t h, h.mepc, h.mie, h.mpie⟩, ?_⟩
  exact fun instr u hfetch hmret => hrun.last.mret hkeep hfetch hmret

/-- The emulator at 0x40 with a software interrupt, whose handler is `addi x1, x0, 1` and `mret`. -/
def softwarePending : RV32 (List Output) :=
  { emulatorStart [0x00100093, 0x30200073] with
    mstatus := 1#32 <<< csrMstatusMie
    mie := 1#32 <<< csrMieMsie
    mip := 1#32 <<< csrMieMsie
    pc := 0x40 }

/-- The handler runs, an external interrupt is triggered meanwhile, and `mret` returns to 0x40. -/
theorem handler_undisturbed_emulator :
    (rv32Cycle emulatorHost
      (runActions emulatorHost (rv32HandleInterrupt softwarePending) [.cycle, .trigger 0])).pc = 0x40 := by
  have hfirst : (rv32Fetch emulatorHost (rv32HandleInterrupt softwarePending)).1 = some 0x00100093 := by
    decide
  have hinside : InsideHandler emulatorHost (rv32HandleInterrupt softwarePending) .cycle := by
    intro _ instr u hfetch
    rw [hfetch] at hfirst
    obtain rfl := Option.some.inj hfirst
    exact ⟨by decide, fun _ hcsr => absurd hcsr (by decide)⟩
  have h := handler_undisturbed emulatorHost (emulatorHost_within fun _ _ _ => ⟨rfl, rfl⟩)
    softwarePending (by decide) [.cycle, .trigger 0] ⟨hinside, nofun, trivial⟩
  have hfetch : (rv32Fetch emulatorHost (runActions emulatorHost (rv32HandleInterrupt softwarePending)
      [.cycle, .trigger 0])).1 = some 0x30200073 := by decide +kernel
  exact (h.2.2.2 0x30200073 _ (Prod.ext hfetch rfl) (by decide)).1

end Rv32
