import Rv32.Correctness.NoNesting

/-!
# `Correctness.Simultaneous` — several interrupts at once, and what ends a wait

`rv32_handle_interrupt` dispatches by a `switch` on the whole word `mie & mip`, whose cases are the three
words with one bit. A second bit in that word, of another source or of none at all, sends it to the
`default`, and no trap is taken although one is due. A machine that waits in `wfi` is woken in one place,
the end of trap entry; so it sleeps on in that case too, and also while MIE is clear.
-/

namespace Rv32

variable {σ : Type} {s : RV32 σ}

/-- The source is enabled and pending. Other bits of `mie & mip` do not matter to it. -/
def SourcePending (s : RV32 σ) : TrapSource → Prop
  | .software     => (s.mie &&& s.mip).getLsbD csrMieMsie = true
  | .timer        => (s.mie &&& s.mip).getLsbD csrMieMtie = true
  | .external irq =>
      (s.mie &&& s.mip).getLsbD csrMieMeie = true ∧
        s.interruptController.ie &&& s.interruptController.ip ≠ 0 ∧
        s.interruptController.ip.getLsbD irq.val = true

/-- `mie & mip` is the bit of one source and nothing else. -/
def OneSource (s : RV32 σ) : Prop :=
  s.mie &&& s.mip = 1#32 <<< csrMieMsie ∨ s.mie &&& s.mip = 1#32 <<< csrMieMtie ∨
    s.mie &&& s.mip = 1#32 <<< csrMieMeie

/-- `t` is `s` with the trap of one of its pending sources entered. -/
structure TakesPendingTrap (s t : RV32 σ) : Prop where
  cause : ∃ src, SourcePending s src ∧ t.mcause = src.mcause
  mepc : t.mepc = s.pc
  mie : t.mstatus.getLsbD csrMstatusMie = false
  mpie : t.mstatus.getLsbD csrMstatusMpie = true
  wfi : t.wfi = 0

/-! ## The trap that is due -/

/-- With one bit in `mie & mip`, the sources of the other two bits are not pending. -/
theorem OneSource.meie_claimable (h : s.mie &&& s.mip = 1#32 <<< csrMieMeie)
    (hpend : ∃ src, SourcePending s src) :
    s.interruptController.ie &&& s.interruptController.ip ≠ 0 := by
  obtain ⟨src, hsrc⟩ := hpend
  cases src with
  | software =>
      rw [SourcePending, h, Bits.getLsbD_mask] at hsrc
      simp [csrMieMsie, csrMieMeie] at hsrc
  | timer =>
      rw [SourcePending, h, Bits.getLsbD_mask] at hsrc
      simp [csrMieMtie, csrMieMeie] at hsrc
  | external irq => exact hsrc.2.1

/-- **When the due trap is taken.** -/
theorem trapTaken_ne_none_iff_oneSource (hpend : ∃ src, SourcePending s src) :
    trapTaken s ≠ none ↔ s.mstatus.getLsbD csrMstatusMie = true ∧ OneSource s := by
  rw [trapTaken_ne_none_iff, Interruptible, OneSource]
  constructor
  · rintro ⟨hmie, hs | ht | ⟨he, -⟩⟩
    · exact ⟨hmie, .inl hs⟩
    · exact ⟨hmie, .inr (.inl ht)⟩
    · exact ⟨hmie, .inr (.inr he)⟩
  · rintro ⟨hmie, hs | ht | he⟩
    · exact ⟨hmie, .inl hs⟩
    · exact ⟨hmie, .inr (.inl ht)⟩
    · exact ⟨hmie, .inr (.inr ⟨he, OneSource.meie_claimable he hpend⟩)⟩

/-- A trap is taken for a pending source only. -/
theorem sourcePending_of_trap {src : TrapSource} (h : trapTaken s = some src) :
    SourcePending s src := by
  cases src with
  | external irq =>
      obtain ⟨⟨-, hmeie⟩, hclaim⟩ := trapTaken_external_iff.mp h
      refine ⟨by rw [hmeie, Bits.getLsbD_mask]; rfl, ?_, (rv32HandleInterrupt_external h).1⟩
      rcases rv32ClaimIrq_cases s with ⟨-, hnone⟩ | ⟨hne, -⟩
      · rw [hnone] at hclaim; cases hclaim
      · exact hne
  | software =>
      unfold trapTaken at h
      split_ifs at h with _ hs _ _
      · rw [SourcePending, hs, Bits.getLsbD_mask]; rfl
      · cases h
      · obtain ⟨_, -, heq⟩ := Option.map_eq_some_iff.mp h
        cases heq
  | timer =>
      unfold trapTaken at h
      split_ifs at h with _ _ ht _
      · cases h
      · rw [SourcePending, ht, Bits.getLsbD_mask]; rfl
      · obtain ⟨_, -, heq⟩ := Option.map_eq_some_iff.mp h
        cases heq

/-- So none is taken while no source is pending. -/
theorem no_trap_of_none_pending (h : ¬ ∃ src, SourcePending s src) : trapTaken s = none := by
  by_contra htrap
  obtain ⟨src, hsrc⟩ := Option.ne_none_iff_exists'.mp htrap
  exact h ⟨src, sourcePending_of_trap hsrc⟩

/-- **A taken trap is the due one.** -/
theorem takesPendingTrap_of_trap (htrap : trapTaken s ≠ none) :
    TakesPendingTrap s (cycleInterrupt s) := by
  obtain ⟨src, hsrc⟩ := Option.ne_none_iff_exists'.mp htrap
  have hentered : TrapEntered src s (cycleInterrupt s) := cycleInterrupt_eq s ▸ trapEntered_iff.mpr hsrc
  exact ⟨⟨src, sourcePending_of_trap hsrc, hentered.mcause⟩, hentered.mepc, hentered.mie, hentered.mpie,
    hentered.wfi⟩

/-- Where none is taken MIE stays as it was. -/
theorem not_takesPendingTrap_of_none (hmie : s.mstatus.getLsbD csrMstatusMie = true)
    (htrap : trapTaken s = none) : ¬ TakesPendingTrap s (cycleInterrupt s) := by
  intro h
  have hclear := h.mie
  rw [cycleInterrupt_of_none htrap, hmie] at hclear
  cases hclear

/-- **Simultaneous interrupts**, exactly when they are taken. With MIE set and a source enabled and
    pending, `rv32_cycle` goes on from its interrupt test to its fetch in the trap of a pending source if and
    only if `mie & mip` is the bit of one source alone. -/
theorem cycle_takesPendingTrap_iff (host : Host σ) (s : RV32 σ)
    (hmie : s.mstatus.getLsbD csrMstatusMie = true) (hpend : ∃ src, SourcePending s src) :
    rv32Fetch host s = fetchPhase host (cycleInterrupt s) ∧
      (TakesPendingTrap s (cycleInterrupt s) ↔ OneSource s) := by
  have hiff := trapTaken_ne_none_iff_oneSource hpend
  refine ⟨rfl, ?_⟩
  constructor
  · intro htakes
    have htrap : trapTaken s ≠ none := fun hnone => not_takesPendingTrap_of_none hmie hnone htakes
    exact (hiff.mp htrap).2
  · intro hone
    exact takesPendingTrap_of_trap (hiff.mpr ⟨hmie, hone⟩)

/-- The emulator at the start of a run with MIE set and the bits `bits` enabled and pending. -/
def pendingStart (bits : Word) : RV32 (List Output) :=
  { emulatorStart [] with mstatus := 1#32 <<< csrMstatusMie, mie := bits, mip := bits }

/-- A timer interrupt alone is taken. -/
theorem cycle_takesPendingTrap_timer :
    TakesPendingTrap (pendingStart 0x80) (cycleInterrupt (pendingStart 0x80)) :=
  (cycle_takesPendingTrap_iff emulatorHost (pendingStart 0x80) (by decide)
    ⟨.timer, by unfold SourcePending; decide⟩).2.mpr (.inr (.inl (by decide)))

/-- A timer and a software interrupt at once are both left pending. -/
theorem cycle_ignores_simultaneous :
    (pendingStart 0x88).mstatus.getLsbD csrMstatusMie = true ∧
      SourcePending (pendingStart 0x88) .software ∧ SourcePending (pendingStart 0x88) .timer ∧
      ¬ TakesPendingTrap (pendingStart 0x88) (cycleInterrupt (pendingStart 0x88)) := by
  have hmie : (pendingStart 0x88).mstatus.getLsbD csrMstatusMie = true := by decide
  refine ⟨hmie, by unfold SourcePending; decide, by unfold SourcePending; decide, ?_⟩
  exact not_takesPendingTrap_of_none hmie (by decide)

/-! ## The end of a wait -/

variable {host : Host σ}

/-- The cycle from `s` goes on from `t`: awake, in the trap of a pending source while MIE is set, and
    otherwise in the instruction after `wfi`, to which `pc` already points. -/
structure WakesAt (host : Host σ) (s t : RV32 σ) : Prop where
  fetch : rv32Fetch host s = fetchPhase host t
  awake : t.wfi = 0
  running : t.status = .running
  trap : s.mstatus.getLsbD csrMstatusMie = true → TakesPendingTrap s t
  next : s.mstatus.getLsbD csrMstatusMie = false → t = { s with wfi := 0 }

/-- `wfi` does its job in the waiting machine `s`. -/
structure WfiWakes (host : Host σ) (s : RV32 σ) : Prop where
  wakes : (∃ src, SourcePending s src) → ∃ t, WakesAt host s t
  waits : (¬ ∃ src, SourcePending s src) → ∀ n, (rv32Cycle host)^[n] s = s

/-- A waiting machine that takes no trap returns before its fetch. -/
theorem rv32Fetch_waiting (hwfi : s.wfi ≠ 0) (htrap : trapTaken s = none) :
    rv32Fetch host s = (none, s) := by
  rw [rv32Fetch, cycleInterrupt_of_none htrap, fetchPhase, if_pos hwfi]

/-- So it stays as it is. -/
theorem rv32Cycle_waiting (hwfi : s.wfi ≠ 0) (htrap : trapTaken s = none) : rv32Cycle host s = s := by
  have hfetch : rv32Fetch host s = (none, s) := rv32Fetch_waiting hwfi htrap
  rw [rv32Cycle_of_no_fetch host (by rw [hfetch]), hfetch]

/-- A machine that is awake and running leaves a fetch with a word, or not running. -/
theorem fetchPhase_awake (host : Host σ) {t : RV32 σ} (hawake : t.wfi = 0) (hrun : t.status = .running)
    (hnone : (fetchPhase host t).1 = none) : (fetchPhase host t).2.status ≠ .running := by
  generalize hp : fetchPhase host t = p at hnone ⊢
  have hfetched : Fetched host t p := hp ▸ fetchPhase_fetched t
  cases hfetched with
  | waiting hwfi => exact absurd hawake hwfi
  | stopped _ hst => exact absurd hrun hst
  | breakpoint _ _ _ => rintro ⟨⟩
  | fault _ _ _ _ => rintro ⟨⟩
  | word _ _ _ _ => cases hnone

/-- **The one way to wake.** -/
theorem wakesAt_iff (host : Host σ) (hrun : s.status = .running) (hwfi : s.wfi ≠ 0) :
    (∃ t, WakesAt host s t) ↔ trapTaken s ≠ none := by
  constructor
  · rintro ⟨t, h⟩ hnone
    have hfetch := h.fetch
    rw [rv32Fetch_waiting hwfi hnone] at hfetch
    -- a cycle that goes on cannot leave the running machine behind without a word
    have hstop := fetchPhase_awake host h.awake h.running (by rw [← hfetch])
    rw [← hfetch] at hstop
    exact hstop hrun
  · intro htrap
    have hmie := ((trapTaken_ne_none_iff s).mp htrap).1
    have hentry := takesPendingTrap_of_trap htrap
    refine ⟨cycleInterrupt s, rfl, hentry.wfi, ?_, fun _ => hentry, fun hclear => ?_⟩
    · rw [cycleInterrupt_eq, rv32HandleInterrupt_status]; exact hrun
    · rw [hmie] at hclear; cases hclear

/-- **`wfi`**, exactly when it does its job. A running machine that waits is woken by a pending source if
    and only if MIE is set and `mie & mip` is the bit of one source alone; with no source pending it
    waits on, unchanged by any number of cycles. -/
theorem wfiWakes_iff (host : Host σ) (s : RV32 σ) (hrun : s.status = .running) (hwfi : s.wfi ≠ 0) :
    WfiWakes host s ↔
      ((∃ src, SourcePending s src) → s.mstatus.getLsbD csrMstatusMie = true ∧ OneSource s) := by
  constructor
  · intro h hpend
    rw [← trapTaken_ne_none_iff_oneSource hpend, ← wakesAt_iff host hrun hwfi]
    exact h.wakes hpend
  · intro h
    refine ⟨fun hpend => ?_, fun hnone n => ?_⟩
    · rw [wakesAt_iff host hrun hwfi, trapTaken_ne_none_iff_oneSource hpend]
      exact h hpend
    · exact Function.iterate_fixed (rv32Cycle_waiting hwfi (no_trap_of_none_pending hnone)) n

/-- A timer interrupt alone wakes the emulator. -/
theorem wfiWakes_timer : WfiWakes emulatorHost { pendingStart 0x80 with wfi := 1 } :=
  (wfiWakes_iff emulatorHost { pendingStart 0x80 with wfi := 1 } rfl (by decide)).mpr
    fun _ => ⟨by decide, .inr (.inl (by decide))⟩

/-- With MIE clear the same interrupt does not, and neither do two at once with MIE set. -/
theorem wfi_sleeps_on :
    ¬ WfiWakes emulatorHost { pendingStart 0x80 with mstatus := 0, wfi := 1 } ∧
      ¬ WfiWakes emulatorHost { pendingStart 0x88 with wfi := 1 } := by
  constructor
  · intro h
    have hpend : SourcePending { pendingStart 0x80 with mstatus := 0, wfi := 1 } .timer := by
      unfold SourcePending; decide
    exact (wakesAt_iff emulatorHost rfl (by decide)).mp (h.wakes ⟨.timer, hpend⟩) (by decide)
  · intro h
    have hpend : SourcePending { pendingStart 0x88 with wfi := 1 } .timer := by
      unfold SourcePending; decide
    exact (wakesAt_iff emulatorHost rfl (by decide)).mp (h.wakes ⟨.timer, hpend⟩) (by decide)

end Rv32
