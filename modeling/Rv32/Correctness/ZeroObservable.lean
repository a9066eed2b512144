import Rv32.Core.Emulator
import Rv32.Core.Writeback
import Rv32.Rsp.Packet

/-!
# `Correctness.ZeroObservable` — when a debugger sees `x0` as zero

`rv32_cycle` clears slot 0 of `r` in front of the `switch`, not behind it. Whatever an instruction with
`rd = 0` assigns therefore stays in the slot until the next fetch, and the reply to a `g` packet shows
it. The slot is zero in every state of a run exactly when no instruction of the run does that with
another value than zero.
-/

namespace Rv32

variable {σ : Type} {host : Host σ}

/-- The reply to a `g` packet begins with eight `0` digits. -/
def ReplyStartsZero (s : RV32 σ) : Prop :=
  ∃ reply, rspReadRegisters s = .ok (.packetSent, reply) ∧
    char '$' :: List.replicate 8 (char '0') <+: reply

/-- Slot 0 of `r` is zero, for the debugger too. -/
def ZeroObservable (s : RV32 σ) : Prop := s.r regZero = 0 ∧ ReplyStartsZero s

/-- The cycle from `s` executes an instruction with `rd = 0` whose result is not zero. -/
def SpoilsZero (host : Host σ) (s : RV32 σ) : Prop :=
  ∃ instr u v, rv32Fetch host s = (some instr, u) ∧ rd instr = regZero ∧
    rdWritten host u instr = some v ∧ v ≠ 0

/-- The call does not execute such an instruction. -/
def SparesZero (host : Host σ) (s : RV32 σ) (a : Action) : Prop := a = .cycle → ¬ SpoilsZero host s

/-- The functions of the embedding program leave slot 0 of `r` alone. -/
def Host.KeepsZero (host : Host σ) : Prop := host.Within (SameReg regZero)

/-! ## The reply -/

/-- **The reply shows the slot.** -/
theorem replyStartsZero_iff (s : RV32 σ) : ReplyStartsZero s ↔ s.r regZero = 0 := by
  obtain ⟨rest, hhead⟩ := registersHex_head s
  rw [← hexU32_zero_iff]
  have hreply : rspReadRegisters s = .ok (.packetSent,
      char '$' :: (hexU32 (s.r regZero) ++ (rest ++ char '#' :: hexU8 (registersHex s).sum))) := by
    rw [rspReadRegisters_eq, hhead, List.cons_append, List.append_assoc]
  constructor
  · rintro ⟨reply, heq, hpre⟩
    rw [hreply] at heq
    obtain rfl := (Prod.mk.inj (Except.ok.inj heq)).2
    obtain ⟨tail, htail⟩ := (List.cons_prefix_cons.mp hpre).2
    exact (List.append_inj_left htail rfl).symm
  · intro h
    exact ⟨_, hreply, List.cons_prefix_cons.mpr ⟨rfl, h ▸ List.prefix_append _ _⟩⟩

theorem zeroObservable_iff (s : RV32 σ) : ZeroObservable s ↔ s.r regZero = 0 := by
  rw [ZeroObservable, replyStartsZero_iff, and_self]

/-! ## Calls -/

theorem handled_r (s : RV32 σ) : (rv32HandleInterrupt s).r = s.r := by
  obtain ⟨_, _, _, _, _, _, _, hframe⟩ := rv32HandleInterrupt_frame s
  rw [hframe]

/-- Above the `switch`, nothing puts a value into the slot. -/
theorem rv32Fetch_r_zero (hkeep : host.KeepsZero) {s : RV32 σ} (hs : s.r regZero = 0) :
    (rv32Fetch host s).2.r regZero = 0 := by
  have hacc := (sameReg_accessRel hkeep.toMmioRel).toLoadRel
  have hload := rv32Load32_rel hacc (rv32HandleInterrupt s) (rv32HandleInterrupt s).pc
  have hs' : (rv32HandleInterrupt s).r regZero = 0 := by rw [handled_r, hs]
  rw [rv32Fetch_handled]
  generalize hp : fetchPhase host (rv32HandleInterrupt s) = p
  have hfetched : Fetched host (rv32HandleInterrupt s) p := hp ▸ fetchPhase_fetched _
  cases hfetched with
  | waiting _ => exact hs'
  | stopped _ _ => exact hs'
  | breakpoint _ _ _ => exact hs'
  | fault _ _ _ hl => rw [hl] at hload; exact hload.trans hs'
  | word _ _ _ _ => exact resetZero_r_zero _

theorem spoilsZero_of_fetch {s u : RV32 σ} {instr : Word}
    (hfetch : rv32Fetch host s = (some instr, u)) :
    SpoilsZero host s ↔ rd instr = regZero ∧ ∃ v, rdWritten host u instr = some v ∧ v ≠ 0 := by
  constructor
  · rintro ⟨instr', u', v, hfetch', hrd, hw, hv⟩
    obtain ⟨hinstr, rfl⟩ := Prod.mk.inj (hfetch.symm.trans hfetch')
    obtain rfl := Option.some.inj hinstr
    exact ⟨hrd, v, hw, hv⟩
  · rintro ⟨hrd, v, hw, hv⟩
    exact ⟨instr, u, v, hfetch, hrd, hw, hv⟩

/-- **A cycle** keeps the slot zero exactly when its instruction does not spoil it. -/
theorem rv32Cycle_r_zero (hkeep : host.KeepsZero) {s : RV32 σ} (hs : s.r regZero = 0) :
    (rv32Cycle host s).r regZero = 0 ↔ ¬ SpoilsZero host s := by
  have hfetched := rv32Fetch_r_zero hkeep hs
  rcases hfetch : rv32Fetch host s with ⟨_ | instr, u⟩
  · rw [rv32Cycle_of_no_fetch host (by rw [hfetch])]
    refine iff_of_true hfetched ?_
    rintro ⟨instr, u, v, h, -⟩
    rw [hfetch] at h; cases h
  · rw [hfetch] at hfetched
    rw [rv32Cycle_of_fetch host hfetch, rv32Execute_r hkeep, spoilsZero_of_fetch hfetch, hfetched]
    -- the slot was cleared in `u`, so only a write to `rd = 0` matters
    by_cases hrd : regZero = rd instr
    · rw [if_pos hrd]
      cases hw : rdWritten host u instr with
      | none => simp
      | some v => simp [← hrd]
    · rw [if_neg hrd]
      exact iff_of_true rfl fun h => hrd h.1.symm

/-- **One call.** -/
theorem step_r_zero (hkeep : host.KeepsZero) {s : RV32 σ} (hs : s.r regZero = 0) (a : Action) :
    (step host s a).r regZero = 0 ↔ SparesZero host s a := by
  rcases step_cases host s a with rfl | ⟨irq, rfl⟩ | ⟨hcontrol, _, _, _, hstep⟩
  · exact (rv32Cycle_r_zero hkeep hs).trans ⟨fun h _ => h, fun h => h rfl⟩
  · obtain ⟨_, _, hframe⟩ := rv32TriggerExternalInterrupt_frame s irq
    rw [step, hframe]
    refine iff_of_true hs ?_
    intro hcycle
    cases hcycle
  · rw [hstep]
    refine iff_of_true hs ?_
    intro hcycle
    exact absurd hcycle hcontrol.ne_cycle

/-- **`x0` is observably zero, exactly when** no instruction of the run with `rd = 0` has a result other
    than zero: then the slot is zero in every state of the run, and every reply to a `g` packet begins
    with eight `0` digits. -/
theorem zeroObservable_iff_run (host : Host σ) (hkeep : host.KeepsZero) (memory : RV32 σ)
    (memSize : Word) (image : ByteMem.Mem) (as : List Action) :
    Lts.AllStates (step host) ZeroObservable (boot memory memSize image) as ↔
      Lts.AllSteps (step host) (SparesZero host) (boot memory memSize image) as := by
  refine Lts.allStates_iff_allSteps (fun s a hs => ?_) ((zeroObservable_iff _).mpr rfl)
  rw [zeroObservable_iff]
  exact step_r_zero hkeep ((zeroObservable_iff s).mp hs) a

theorem emulatorHost_keepsZero : emulatorHost.KeepsZero := emulatorHost_within fun _ _ _ => rfl

/-- The emulator on `jal x1, 0`. -/
theorem zeroObservable_iff_run_emulator :
    Lts.AllStates (step emulatorHost) ZeroObservable
      (boot zeroStorage 0x20000004 (imageOf [0x000000ef])) [.resume, .cycle] :=
  (zeroObservable_iff_run emulatorHost emulatorHost_keepsZero zeroStorage 0x20000004
    (imageOf [0x000000ef]) [.resume, .cycle]).mpr
    ⟨nofun, fun _ => by
      rintro ⟨instr, u, v, hfetch, hrd, -⟩
      have hword : some instr = some 0xef := (congrArg Prod.fst hfetch).symm.trans (by decide)
      obtain rfl := Option.some.inj hword
      exact absurd hrd (by decide), trivial⟩

/-- After `jal x0, 0`, the idle loop of an assembler's `j .`, a debugger reads 4 in `x0`. -/
theorem zero_observed_four :
    ¬ ∀ as, Lts.AllStates (step emulatorHost) ZeroObservable
      (boot zeroStorage 0x20000004 (imageOf [0x0000006f])) as := by
  intro h
  have hlast := (h [.resume, .cycle]).last.1
  exact absurd hlast (by decide)

end Rv32
