import Rv32.Core.Emulator
import Rv32.Core.Pending

/-!
# `Correctness.PendingIrq` — when a triggered interrupt stays pending, and is delivered

Between its trigger and its trap an external interrupt should stay recorded in both words, whatever the
guest does, and be delivered once it is enabled. Three things get in the way. The trigger compares the irq
with `sizeof(uint32_t)`, so that it drops 28 of the 32 irqs it documents; a CSR instruction on `mip` can
clear MEIP, and the handler does not look at `ip` without it; and a second bit in `mie & mip` keeps the
handler from its external branch. `trigger_pending_iff` says that these are the only three: it is an equivalence,
over every run up to the trap. Where none of them happens, `bounded_waiting` bounds the cycles an enabled
irq waits, by the lower irqs that go first.
-/

namespace Rv32

variable {σ : Type} {host : Host σ}

/-- The irq is recorded in `ip`, and MEIP in `mip`. -/
structure Pending (irq : Fin 32) (s : RV32 σ) : Prop where
  ip : s.interruptController.ip.getLsbD irq.val = true
  meip : s.mip.getLsbD csrMipMeip = true

/-- The call takes the trap of the irq. -/
def TakesIrq (host : Host σ) (irq : Fin 32) (s : RV32 σ) (a : Action) : Prop :=
  a = .cycle ∧ TakesTrap host s (.external irq)

instance (irq : Fin 32) (s : RV32 σ) (a : Action) : Decidable (TakesIrq host irq s a) :=
  inferInstanceAs (Decidable (_ ∧ _))

/-- If the call executes a CSR instruction that writes `mip`, it writes MEIP as set. -/
def KeepsMeip (host : Host σ) (s : RV32 σ) (a : Action) : Prop :=
  a = .cycle → ∀ v, mipWritten host s = some v → v.getLsbD csrMipMeip = true

/-- The guest has enabled the irq: in `mstatus`, in `mie` and in the interrupt controller. -/
structure Enabled (irq : Fin 32) (s : RV32 σ) : Prop where
  mstatus : s.mstatus.getLsbD csrMstatusMie = true
  mie : s.mie.getLsbD csrMieMeie = true
  ie : s.interruptController.ie.getLsbD irq.val = true

instance (irq : Fin 32) (s : RV32 σ) : Decidable (Enabled irq s) :=
  decidable_of_iff (s.mstatus.getLsbD csrMstatusMie = true ∧ s.mie.getLsbD csrMieMeie = true ∧
    s.interruptController.ie.getLsbD irq.val = true) ⟨fun ⟨h, h', h''⟩ => ⟨h, h', h''⟩,
      fun h => ⟨h.mstatus, h.mie, h.ie⟩⟩

/-- The next cycle delivers the irq: it takes the trap of the lowest pending irq, which is this one or goes
    before it. -/
def Delivers (host : Host σ) (irq : Fin 32) (s : RV32 σ) : Prop :=
  ∃ j : Fin 32, j ≤ irq ∧ Bits.IsLowest s.interruptController.ip j.val ∧ TakesTrap host s (.external j)

/-- The irq is not lost: it is pending, and delivered when it is enabled. -/
structure Kept (host : Host σ) (irq : Fin 32) (s : RV32 σ) : Prop where
  pending : Pending irq s
  delivered : Enabled irq s → Delivers host irq s

/-- MEIE is the only bit of `mie & mip`. -/
def MeieAlone (s : RV32 σ) : Prop := s.mie &&& s.mip = 1#32 <<< csrMieMeie

/-! ## One call -/

/-- A cycle of a machine with a pending irq keeps it pending exactly when it neither takes its trap nor
    clears MEIP. -/
theorem rv32Cycle_pending_iff (hkeep : host.KeepsPending) {irq : Fin 32} {s : RV32 σ}
    (h : Pending irq s) :
    Pending irq (rv32Cycle host s) ↔
      ¬ TakesTrap host s (.external irq) ∧
        ∀ v, mipWritten host s = some v → v.getLsbD csrMipMeip = true := by
  rw [takesTrap_iff]
  obtain ⟨hip, hmip⟩ := rv32Cycle_pending hkeep s
  by_cases htrap : trapTaken s = some (.external irq)
  · -- the trap of `irq` takes its bit out of `ip`
    obtain ⟨-, -, hclear, -⟩ := rv32HandleInterrupt_external htrap
    refine iff_of_false (fun hp => ?_) fun hn => hn.1 htrap
    have hbit := hp.ip
    rw [hip, hclear] at hbit
    simp at hbit
  · -- any other trap leaves the bit, and then MEIP too
    have hhandled : (rv32HandleInterrupt s).interruptController.ip.getLsbD irq.val = true ∧
        (rv32HandleInterrupt s).mip = s.mip := by
      by_cases hext : ∃ irq', trapTaken s = some (.external irq')
      · obtain ⟨irq', hext⟩ := hext
        obtain ⟨-, -, hclear, hkept, -⟩ := rv32HandleInterrupt_external hext
        have hne : irq.val ≠ irq'.val := fun he => htrap (Fin.ext he ▸ hext)
        have hbit : (rv32HandleInterrupt s).interruptController.ip.getLsbD irq.val = true := by
          rw [hclear, h.ip]; simp [hne]
        exact ⟨hbit, hkept ((Bits.ne_zero_iff _).mpr ⟨_, hbit⟩)⟩
      · obtain ⟨hsame, hkept⟩ := rv32HandleInterrupt_internal fun irq' h' => hext ⟨irq', h'⟩
        exact ⟨hsame ▸ h.ip, hkept⟩
    constructor
    · intro hp
      refine ⟨htrap, fun v hv => ?_⟩
      have hbit := hp.meip
      rwa [hmip, hv] at hbit
    · rintro ⟨-, hv⟩
      refine ⟨by rw [hip]; exact hhandled.1, ?_⟩
      rw [hmip, hhandled.2]
      cases hw : mipWritten host s with
      | none => exact h.meip
      | some v => exact hv v hw

/-- **One call.** -/
theorem step_pending_iff (hkeep : host.KeepsPending) {irq : Fin 32} {s : RV32 σ} (h : Pending irq s)
    (a : Action) :
    Pending irq (step host s a) ↔ ¬ TakesIrq host irq s a ∧ KeepsMeip host s a := by
  rcases step_cases host s a with rfl | ⟨irq', rfl⟩ | ⟨hcontrol, _, _, _, hstep⟩
  · simpa [step, TakesIrq, KeepsMeip] using rv32Cycle_pending_iff hkeep h
  · -- a trigger only sets bits
    refine iff_of_true ⟨?_, ?_⟩ ⟨?_, ?_⟩
    · rw [step, (rv32TriggerExternalInterrupt_pending s irq' irq.val).1, h.ip, Bool.true_or]
    · rw [step, (rv32TriggerExternalInterrupt_pending s irq' irq.val).2, h.meip, Bool.true_or]
    · rintro ⟨hcycle, -⟩
      cases hcycle
    · intro hcycle
      cases hcycle
  · rw [hstep]
    refine iff_of_true ⟨h.ip, h.meip⟩ ⟨?_, ?_⟩
    · intro htakes
      exact hcontrol.ne_cycle htakes.1
    · intro hcycle
      exact absurd hcycle hcontrol.ne_cycle

/-- A trigger makes its irq pending when it is below the bound, and otherwise does nothing. -/
theorem trigger_pending {irq : Fin 32} {s : RV32 σ} :
    Pending irq (rv32TriggerExternalInterrupt s (BitVec.ofNat 32 irq.val)) ↔
      irq.val < 4 ∨ Pending irq s := by
  have hval : (BitVec.ofNat 32 irq.val).toNat = irq.val := by
    rw [BitVec.toNat_ofNat]; exact Nat.mod_eq_of_lt (Nat.lt_trans irq.isLt (by decide))
  have hbits := rv32TriggerExternalInterrupt_pending s (BitVec.ofNat 32 irq.val) irq.val
  rw [hval] at hbits
  by_cases h4 : irq.val < 4
  · refine iff_of_true ⟨?_, ?_⟩ (.inl h4)
    · rw [hbits.1]; simp [h4]
    · rw [hbits.2]; simp [h4]
  · have hsame : rv32TriggerExternalInterrupt s (BitVec.ofNat 32 irq.val) = s :=
      if_pos (by rw [hval]; exact Nat.not_lt.mp h4)
    rw [hsame]
    exact (or_iff_right h4).symm

/-- **Delivery**, exactly when. A pending and enabled irq is delivered by the next cycle if and only if MEIE
    is the only bit of `mie & mip`. -/
theorem Pending.delivers_iff {irq : Fin 32} {s : RV32 σ} (h : Pending irq s) (hen : Enabled irq s) :
    Delivers host irq s ↔ MeieAlone s := by
  constructor
  · rintro ⟨j, -, -, htrap⟩
    exact (trapTaken_external_iff.mp ((takesTrap_iff host).mp htrap)).1.2
  · intro halone
    have hne : s.interruptController.ie &&& s.interruptController.ip ≠ 0 :=
      (Bits.and_ne_zero_iff _ _).mpr ⟨irq.val, hen.ie, h.ip⟩
    -- the claim loop stops at the lowest pending irq, which `irq` is or stands above
    rcases rv32ClaimIrq_cases s with ⟨hzero, -⟩ | ⟨-, j, _, _, hclaim, hset, hlow, -⟩
    · exact absurd hzero hne
    · have htrap : trapTaken s = some (.external j) :=
        trapTaken_external_iff.mpr ⟨⟨hen.mstatus, halone⟩, congrArg Prod.fst hclaim⟩
      exact ⟨j, hlow irq.val h.ip, ⟨hset, hlow⟩, (takesTrap_iff host).mpr htrap⟩

theorem kept_iff {irq : Fin 32} {s : RV32 σ} :
    Kept host irq s ↔ Pending irq s ∧ (Enabled irq s → MeieAlone s) := by
  constructor
  · intro h
    exact ⟨h.pending, fun hen => (h.pending.delivers_iff hen).mp (h.delivered hen)⟩
  · rintro ⟨hpend, halone⟩
    exact ⟨hpend, fun hen => (hpend.delivers_iff hen).mpr (halone hen)⟩

/-! ## Waiting -/

/-- A cycle that begins with the irq enabled. -/
def enabledCycle (irq : Fin 32) (s : RV32 σ) (a : Action) : Nat :=
  if a = .cycle ∧ Enabled irq s then 1 else 0

/-- An accepted trigger of a lower irq. -/
def lowerTrigger (irq : Fin 32) (_ : RV32 σ) : Action → Nat
  | .trigger i => if i.toNat < 4 ∧ i.toNat < irq.val then 1 else 0
  | _          => 0

/-- How many lower irqs are pending. -/
def lowerPending (irq : Fin 32) (s : RV32 σ) : Nat := Bits.countBelow s.interruptController.ip irq.val

/-- A call that waits with the irq enabled takes the trap of a lower one; only a trigger adds a lower one. -/
theorem Kept.waits (hkeep : host.KeepsPending) {irq : Fin 32} {s : RV32 σ} (h : Kept host irq s) {a : Action}
    (hwait : ¬ TakesIrq host irq s a) :
    enabledCycle irq s a + lowerPending irq (step host s a) ≤ lowerPending irq s + lowerTrigger irq s a := by
  unfold lowerPending
  rcases step_ip hkeep s a with ⟨hcycle, -, hip⟩ | ⟨i, rfl, h4, hbits⟩ | ⟨j, rfl, htrap, hlowest, hbits⟩
  · -- a cycle without an external trap did not have the irq enabled
    have hidle : enabledCycle irq s a = 0 := by
      refine if_neg ?_
      rintro ⟨ha, hen⟩
      obtain ⟨j, -, -, htrap⟩ := h.delivered hen
      exact hcycle ha j htrap
    rw [hidle, hip]
    omega
  · have hidle : enabledCycle irq s (.trigger i) = 0 := if_neg fun hn => nomatch hn.1
    have hle := Bits.countBelow_set_le hbits irq.val
    simp only [lowerTrigger, h4, true_and, hidle]
    omega
  · have hlt : j.val < irq.val := by
      have hle : j.val ≤ irq.val := hlowest.le irq.val h.pending.ip
      have hne : j.val ≠ irq.val := fun heq => hwait ⟨rfl, Fin.ext heq ▸ htrap⟩
      omega
    have hclear := Bits.countBelow_clear hlowest.set hbits irq.val
    rw [if_pos hlt] at hclear
    have hone : enabledCycle irq s .cycle ≤ 1 := by
      unfold enabledCycle
      split <;> omega
    simp only [lowerTrigger]
    omega

/-! ## Runs -/

/-- **Bounded waiting.** A run that keeps the irq and has not taken its trap has at most one cycle with the irq
    enabled for each lower irq that was pending at its start or triggered on its way. -/
theorem bounded_waiting (hkeep : host.KeepsPending) {irq : Fin 32} {s : RV32 σ} {as : List Action}
    (hkept : Lts.AllStates (step host) (Kept host irq) s as)
    (hwait : Lts.AllSteps (step host) (fun t a => ¬ TakesIrq host irq t a) s as) :
    Lts.total (step host) (enabledCycle irq) s as ≤
      lowerPending irq s + Lts.total (step host) (lowerTrigger irq) s as := by
  have hpays : Lts.total (step host) (enabledCycle irq) s as + lowerPending irq (runActions host s as) ≤
      lowerPending irq s + Lts.total (step host) (lowerTrigger irq) s as :=
    Lts.total_add_le (lowerPending irq) (fun _ _ ht hno => ht.waits hkeep hno) hkept hwait
  omega

/-- **No external interrupt is lost, exactly when.** From the trigger of an irq on, in every run that has
    not taken its trap, the irq is pending in every state, and delivered by the next cycle in every state in
    which it is enabled, if and only if the trigger took it (it is below 4, or was pending before), no CSR
    instruction has cleared MEIP, and MEIE is the only bit of `mie & mip` wherever the irq is enabled. The
    next cycle delivers the lowest pending irq. So the irq's own trap is taken at the latest by the first
    enabled cycle beyond the lower irqs that were pending at the trigger or have been triggered since. -/
theorem trigger_pending_iff (host : Host σ) (hkeep : host.KeepsPending) (s t : RV32 σ) (irq : Fin 32)
    (ht : rv32TriggerExternalInterrupt s (BitVec.ofNat 32 irq.val) = t) (as : List Action)
    (hwait : Lts.AllSteps (step host) (fun u a => ¬ TakesIrq host irq u a) t as) :
    (Lts.AllStates (step host) (Kept host irq) t as ↔
      (irq.val < 4 ∨ Pending irq s) ∧ Lts.AllSteps (step host) (KeepsMeip host) t as ∧
        Lts.AllStates (step host) (fun u => Enabled irq u → MeieAlone u) t as) ∧
    (Lts.AllStates (step host) (Kept host irq) t as →
      Lts.total (step host) (enabledCycle irq) t as ≤
        lowerPending irq t + Lts.total (step host) (lowerTrigger irq) t as) := by
  refine ⟨?_, fun hkept => bounded_waiting hkeep hkept hwait⟩
  have hexact (ht : Pending irq t) :
      Lts.AllStates (step host) (Pending irq) t as ↔
        Lts.AllSteps (step host) (fun u a => ¬ TakesIrq host irq u a ∧ KeepsMeip host u a) t as :=
    Lts.allStates_iff_allSteps (fun u a hu => step_pending_iff hkeep hu a) ht
  rw [Lts.allStates_congr fun u => kept_iff, Lts.allStates_and, ← trigger_pending, ht]
  constructor
  · rintro ⟨hpend, halone⟩
    exact ⟨hpend.head, ((hexact hpend.head).mp hpend).mono fun _ _ h => h.2, halone⟩
  · rintro ⟨hstart, hmeip, halone⟩
    exact ⟨(hexact hstart).mpr (hwait.and hmeip), halone⟩

theorem emulatorHost_keepsPending : emulatorHost.KeepsPending :=
  emulatorHost_within fun _ _ _ => ⟨rfl, rfl⟩

/-- The emulator with irq 1 enabled and irq 0 pending; its handler is `mret`. -/
def lowerFirst : RV32 (List Output) :=
  { emulatorStart [0x30200073] with
    pc := 0x40
    mstatus := 1#32 <<< csrMstatusMie
    mie := 1#32 <<< csrMieMeie
    mip := 1#32 <<< csrMipMeip
    interruptController := { ie := 0b10, ip := 0b01 } }

/-- Irq 1 waits while the first cycle takes the trap of irq 0, and the next cycle delivers it. -/
theorem trigger_pending_iff_emulator :
    Lts.AllStates (step emulatorHost) (Kept emulatorHost 1) (rv32TriggerExternalInterrupt lowerFirst 1)
        [.cycle] ∧
      TakesTrap emulatorHost (rv32TriggerExternalInterrupt lowerFirst 1) (.external 0) ∧
      Delivers emulatorHost 1 (rv32Cycle emulatorHost (rv32TriggerExternalInterrupt lowerFirst 1)) := by
  have h := trigger_pending_iff emulatorHost emulatorHost_keepsPending lowerFirst _ 1 rfl [.cycle]
    (by decide +kernel)
  have hnone : mipWritten emulatorHost (rv32TriggerExternalInterrupt lowerFirst 1) = none := by
    decide +kernel
  have hkept := h.1.mpr ⟨.inl (by decide), ⟨fun _ v hv => (nomatch hnone.symm.trans hv), trivial⟩,
    fun _ => by unfold MeieAlone; decide +kernel, fun _ => by unfold MeieAlone; decide +kernel⟩
  exact ⟨hkept, by decide +kernel, hkept.last.delivered (by decide +kernel)⟩

/-- Irq 4 is dropped by its trigger; irq 0 loses MEIP to `csrrw x0, mip, x0` before its trap; and with a timer
    interrupt pending beside it, irq 1 is not delivered although it is pending and enabled. -/
theorem trigger_lost :
    ¬ Pending 4 (rv32TriggerExternalInterrupt (emulatorStart []) 4) ∧
      (¬ TakesIrq emulatorHost 0 (rv32TriggerExternalInterrupt (emulatorStart [0x34401073]) 0) .cycle ∧
        ¬ Pending 0 (rv32Cycle emulatorHost
          (rv32TriggerExternalInterrupt (emulatorStart [0x34401073]) 0))) ∧
      (Enabled 1 (rv32TriggerExternalInterrupt { lowerFirst with mie := 0x880, mip := 0x80 } 1) ∧
        Pending 1 (rv32TriggerExternalInterrupt { lowerFirst with mie := 0x880, mip := 0x80 } 1) ∧
        ¬ Delivers emulatorHost 1
          (rv32TriggerExternalInterrupt { lowerFirst with mie := 0x880, mip := 0x80 } 1)) := by
  refine ⟨fun h => absurd h.ip (by decide), ⟨by decide, fun h => ?_⟩, by decide, ⟨by decide, by decide⟩, ?_⟩
  · exact absurd h.meip (by decide)
  · rintro ⟨j, -, -, htrap⟩
    have hnone : trapTaken (rv32TriggerExternalInterrupt { lowerFirst with mie := 0x880, mip := 0x80 } 1) =
        none := by decide
    cases hnone.symm.trans ((takesTrap_iff emulatorHost).mp htrap)

end Rv32
