import Rv32.Core.Emulator

/-!
# `Correctness.EnabledIrq` — only enabled interrupts are claimed

The guard of `rv32_claim_irq` asks for an irq that is pending and enabled, `ie & ip`; its loop looks for
one that is pending, in `ip` alone. The two agree when the lowest pending irq is enabled. When it is
masked and a higher one is enabled, the masked one is claimed and its trap delivered.
-/

namespace Rv32

variable {σ : Type} {host : Host σ} {s : RV32 σ}

/-- The external interrupts that are enabled and pending in the interrupt controller. -/
def enabledPending (s : RV32 σ) : Word := s.interruptController.ie &&& s.interruptController.ip

/-- What `rv32_claim_irq` is to return: the lowest enabled and pending irq, taken out of `ip`. -/
structure ClaimsEnabled (s : RV32 σ) (claim : Option (Fin 32) × RV32 σ) : Prop where
  succeeds : claim.1.isSome ↔ enabledPending s ≠ 0
  fails : claim.1 = none → claim.2 = s
  lowest : ∀ irq, claim.1 = some irq → Bits.IsLowest (enabledPending s) irq.val
  clears : ∀ irq, claim.1 = some irq → ∃ ip mip : Word,
    claim.2 = { s with interruptController.ip := ip, mip := mip } ∧
    (∀ i, ip.getLsbD i = (s.interruptController.ip.getLsbD i && !decide (i = irq.val))) ∧
    mip = if ip = 0 then s.mip &&& ~~~(1#32 <<< csrMipMeip) else s.mip

/-- Nothing enabled is pending, or the lowest pending irq is enabled. -/
def LowestEnabled (s : RV32 σ) : Prop :=
  enabledPending s = 0 ∨
    ∀ irq, Bits.IsLowest s.interruptController.ip irq → s.interruptController.ie.getLsbD irq = true

/-- The guest has the irq enabled whose trap the cycle takes, if it takes one. -/
def DeliversEnabled (host : Host σ) (s : RV32 σ) : Prop :=
  ∀ irq, TakesTrap host s (.external irq) → s.interruptController.ie.getLsbD irq.val = true

/-- A claimed irq is the lowest pending one, and the condition is about it. -/
theorem lowestEnabled_iff_of_claim {irq : Fin 32} (h : (rv32ClaimIrq s).1 = some irq) :
    LowestEnabled s ↔ s.interruptController.ie.getLsbD irq.val = true := by
  rcases rv32ClaimIrq_cases s with ⟨-, hclaim⟩ | ⟨hne, irq', _, _, hclaim, hset, hle, -⟩
  · rw [hclaim] at h
    cases h
  · rw [hclaim] at h
    obtain rfl := Option.some.inj h
    have hlowest : Bits.IsLowest s.interruptController.ip irq'.val := ⟨hset, hle⟩
    constructor
    · rintro (hzero | hall)
      · exact absurd hzero hne
      · exact hall _ hlowest
    · intro hie
      refine .inr fun i hi => ?_
      rw [← hlowest.unique hi]
      exact hie

/-- A failed claim meets the condition: nothing enabled was pending. -/
theorem lowestEnabled_of_no_claim (h : (rv32ClaimIrq s).1 = none) : LowestEnabled s := by
  rcases rv32ClaimIrq_cases s with ⟨hzero, -⟩ | ⟨-, _, _, _, hclaim, -⟩
  · exact .inl hzero
  · rw [hclaim] at h
    cases h

/-- **The claim**, exactly when. -/
theorem claimsEnabled_iff (s : RV32 σ) : ClaimsEnabled s (rv32ClaimIrq s) ↔ LowestEnabled s := by
  rcases rv32ClaimIrq_cases s with ⟨hzero, hclaim⟩ | ⟨hne, irq, ip, mip, hclaim, hset, hle, hip, hmip⟩
  · refine iff_of_true ?_ (.inl hzero)
    rw [hclaim]
    refine ⟨iff_of_false Bool.false_ne_true (not_not.mpr hzero), fun _ => rfl, ?_, ?_⟩
    · rintro irq ⟨⟩
    · rintro irq ⟨⟩
  · have hlowest : Bits.IsLowest s.interruptController.ip irq.val := ⟨hset, hle⟩
    rw [lowestEnabled_iff_of_claim (congrArg Prod.fst hclaim), ← hlowest.and_iff, hclaim]
    constructor
    · intro h
      exact h.lowest irq rfl
    · intro hmasked
      refine ⟨iff_of_true rfl hne, ?_, ?_, ?_⟩
      · rintro ⟨⟩
      · rintro _ ⟨⟩
        exact hmasked
      · rintro _ ⟨⟩
        exact ⟨ip, mip, rfl, hip, hmip⟩

/-- **The trap**, exactly when. -/
theorem deliversEnabled_iff (host : Host σ) (s : RV32 σ) :
    DeliversEnabled host s ↔ (ReachesClaim s → LowestEnabled s) := by
  constructor
  · intro h hreach
    cases hclaim : (rv32ClaimIrq s).1 with
    | none => exact lowestEnabled_of_no_claim hclaim
    | some irq =>
        have htrap : trapTaken s = some (.external irq) := trapTaken_external_iff.mpr ⟨hreach, hclaim⟩
        have hie := h irq ((takesTrap_iff host).mpr htrap)
        exact (lowestEnabled_iff_of_claim hclaim).mpr hie
  · intro h irq htrap
    obtain ⟨hreach, hclaim⟩ := trapTaken_external_iff.mp ((takesTrap_iff host).mp htrap)
    exact (lowestEnabled_iff_of_claim hclaim).mp (h hreach)

/-- **Only enabled interrupts are claimed**, exactly when the lowest pending irq is enabled; and in a run
    no trap is delivered for a masked irq exactly when that is so at each cycle that gets to the claim. -/
theorem rv32ClaimIrq_enabled_iff (host : Host σ) (s : RV32 σ) (as : List Action) :
    (ClaimsEnabled s (rv32ClaimIrq s) ↔ LowestEnabled s) ∧
    (Lts.AllSteps (step host) (fun t a => a = .cycle → DeliversEnabled host t) s as ↔
      Lts.AllSteps (step host) (fun t a => a = .cycle → ReachesClaim t → LowestEnabled t) s as) := by
  refine ⟨claimsEnabled_iff s, ?_⟩
  apply Lts.allSteps_congr
  intro t a
  exact imp_congr_right fun _ => deliversEnabled_iff host t

/-- The emulator with external interrupts enabled, irq 1 enabled and irq 0 masked, and both triggered. -/
def maskedAndEnabled : RV32 (List Output) :=
  let s := { emulatorStart [] with
    mstatus := 1#32 <<< csrMstatusMie
    mie := 1#32 <<< csrMieMeie
    interruptController.ie := 0b10 }
  rv32TriggerExternalInterrupt (rv32TriggerExternalInterrupt s 0) 1

/-- The masked irq is claimed, and its trap taken. -/
theorem rv32ClaimIrq_masked :
    (rv32ClaimIrq maskedAndEnabled).1.map Fin.val = some 0 ∧
      maskedAndEnabled.interruptController.ie = 0b10 ∧
      (rv32HandleInterrupt maskedAndEnabled).mcause = csrMcauseInterrupt ||| 16 ∧
      ¬ ClaimsEnabled maskedAndEnabled (rv32ClaimIrq maskedAndEnabled) := by
  have hclaim : (rv32ClaimIrq maskedAndEnabled).1.map Fin.val = some 0 := by decide
  refine ⟨hclaim, rfl, by decide, ?_⟩
  intro h
  obtain ⟨irq, hirq, hzero⟩ := Option.map_eq_some_iff.mp hclaim
  have hset := (h.lowest irq hirq).set
  rw [hzero] at hset
  exact absurd hset (by decide)

end Rv32
