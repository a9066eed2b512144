import Rv32.Correctness.Footprint
import Rv32.Correctness.NoNesting
import Rv32.Correctness.ZeroHidden
import Rv32.Lib.Transition

/-!
# `Correctness.Preemption` — a program cannot tell that it is interrupted

An interrupt takes the machine away from a program between any two of its instructions. `interrupts_transparent`
compares a run in which interrupts come at any time, and handlers run, with a machine that has no interrupts
(`plainCycle`): the program is where it would be after as many cycles of its own. What a handler owes for this
is that at its `mret` it has put back what it has used (`Restores`): the registers, the RAM but for a region
`D` of its own, `mepc`, and the device as far as the program can tell (`E`). The trap entry and `mret` do the
rest: they bring `pc` back, and end a `wfi`.
-/

namespace Rv32

variable {σ : Type} {host : Host σ} {E : Setoid σ} {D : Set Nat} {s t u : RV32 σ}

/-! ## What the program sees -/

/-- The second machine is the first with other CSRs, other interrupts pending, other bytes in `D`, and a device
    in an equivalent state. -/
structure Alongside (E : Setoid σ) (D : Set Nat) (s t : RV32 σ) : Prop where
  rest : ∃ mstatus mie mip mtvec mepc mcause wfi ip mem env, t =
    { s with mstatus, mie, mip, mtvec, mepc, mcause, wfi, interruptController.ip := ip, mem, host := env }
  device : E.r s.host t.host
  outside : ∀ i ∉ D, t.mem.bytes i = s.mem.bytes i

theorem Alongside.refl (s : RV32 σ) : Alongside E D s s :=
  ⟨⟨_, _, _, _, _, _, _, _, _, _, rfl⟩, E.refl _, fun _ _ => rfl⟩

theorem Alongside.symm (h : Alongside E D s t) : Alongside E D t s := by
  refine ⟨?_, E.symm h.device, fun i hi => (h.outside i hi).symm⟩
  obtain ⟨_, _, _, _, _, _, _, _, _, _, rfl⟩ := h.rest
  exact ⟨_, _, _, _, _, _, _, _, _, _, rfl⟩

theorem Alongside.trans (h : Alongside E D s t) (h' : Alongside E D t u) : Alongside E D s u := by
  refine ⟨?_, E.trans h.device h'.device, fun i hi => (h'.outside i hi).trans (h.outside i hi)⟩
  obtain ⟨_, _, _, _, _, _, _, _, _, _, rfl⟩ := h.rest
  obtain ⟨_, _, _, _, _, _, _, _, _, _, rfl⟩ := h'.rest
  exact ⟨_, _, _, _, _, _, _, _, _, _, rfl⟩

theorem alongside_screen : Screen D (Alongside E D : RV32 σ → RV32 σ → Prop) where
  sees {s t} h := by
    obtain ⟨mstatus, mie, mip, mtvec, mepc, mcause, wfi, ip, mem, env, rfl⟩ := h.rest
    exact ⟨{ s.hidden with mstatus, mie, mip, mtvec, mepc, mcause, wfi, ip, mem, host := env }, rfl⟩
  outside h := h.outside
  map {s t f} h hf := by
    have hs := hf.hidden s
    have ht := hf.hidden t
    refine ⟨?_, ?_, fun i hi => ?_⟩
    · obtain ⟨mstatus, mie, mip, mtvec, mepc, mcause, wfi, ip, mem, env, rfl⟩ := h.rest
      refine ⟨mstatus, mie, mip, mtvec, mepc, mcause, wfi, ip, mem, env, ?_⟩
      refine (hf s { s.hidden with mstatus, mie, mip, mtvec, mepc, mcause, wfi, ip, mem, host := env }).trans ?_
      rw [← hs]
      rfl
    · have hdevice : E.r (f s).hidden.host (f t).hidden.host := by
        rw [hs, ht]
        exact h.device
      exact hdevice
    · have hbytes : (f t).hidden.mem.bytes i = (f s).hidden.mem.bytes i := by
        rw [hs, ht]
        exact h.outside i hi
      exact hbytes
  wait h := by
    refine ⟨?_, h.device, h.outside⟩
    obtain ⟨_, _, _, _, _, _, _, _, _, _, rfl⟩ := h.rest
    exact ⟨_, _, _, _, _, _, 1, _, _, _, rfl⟩
  touch addr n h := by
    refine ⟨?_, h.device, h.outside⟩
    obtain ⟨_, _, _, _, _, _, _, _, _, _, rfl⟩ := h.rest
    exact ⟨_, _, _, _, _, _, _, _, _, _, rfl⟩
  write addr n v h _ := by
    refine ⟨?_, h.device, fun i hi => ?_⟩
    · obtain ⟨_, _, _, _, _, _, _, _, _, _, rfl⟩ := h.rest
      exact ⟨_, _, _, _, _, _, _, _, _, _, rfl⟩
    · simp only [ByteMem.write_apply]
      split
      · rfl
      · exact h.outside i hi

/-- The program sees the same in both: `x0` is not seen either. -/
def SameProgram (E : Setoid σ) (D : Set Nat) (s t : RV32 σ) : Prop := Alongside E D s.resetZero t.resetZero

theorem SameProgram.refl (s : RV32 σ) : SameProgram E D s s := Alongside.refl _

theorem SameProgram.symm (h : SameProgram E D s t) : SameProgram E D t s := Alongside.symm h

theorem SameProgram.trans (h : SameProgram E D s t) (h' : SameProgram E D t u) : SameProgram E D s u :=
  Alongside.trans h h'

theorem Alongside.sameProgram (h : Alongside E D s t) : SameProgram E D s t := alongside_screen.map h blind_resetZero

theorem EqUpToZero.sameProgram (h : EqUpToZero s t) : SameProgram E D s t := by
  rw [SameProgram, h.resetZero_eq]
  exact Alongside.refl _

/-- What the program sees does not change with `pc` put elsewhere in both. -/
theorem SameProgram.withPc (h : SameProgram E D s t) (pc : Word) :
    SameProgram E D { s with pc := pc } { t with pc := pc } :=
  alongside_screen.map (f := fun s => { s with pc := pc }) h fun _ _ => rfl

/-! ## The program's own cycles -/

/-- A cycle of a machine without interrupts; a `wfi` there waits for nothing. -/
def plainCycle (host : Host σ) (s : RV32 σ) : RV32 σ := cycleTail host { s with wfi := 0 }

/-- With nothing to wait for and no interrupt to take, that is a cycle. -/
theorem plainCycle_of_noTrap (host : Host σ) (htrap : trapTaken s = none) (hwfi : s.wfi = 0) :
    plainCycle host s = rv32Cycle host s := by
  have hawake : { s with wfi := 0 } = s := by
    obtain ⟨_, _, _, _, _, _, _, _, _, _, _, _, wfi, _, _, _⟩ := s
    obtain rfl : wfi = 0 := hwfi
    rfl
  rw [plainCycle, hawake, rv32Cycle_eq_cycleTail, rv32HandleInterrupt_of_none htrap]

theorem EqUpToZero.cycleTail (hhides : host.HidesZero) (h : EqUpToZero s t) :
    EqUpToZero (cycleTail host s) (cycleTail host t) := by
  unfold Rv32.cycleTail
  rcases h.fetchPhase hhides with ⟨instr, u, hs, ht⟩ | ⟨hs, ht, hrest⟩
  · rw [hs, ht]
    exact .refl _
  · rcases hp : Rv32.fetchPhase host s with ⟨word, u⟩
    rcases hq : Rv32.fetchPhase host t with ⟨word', u'⟩
    rw [hp] at hs hrest
    rw [hq] at ht hrest
    obtain rfl := hs
    obtain rfl := ht
    exact hrest

/-- The word that is fetched does not depend on slot 0 of `r`. -/
theorem EqUpToZero.word_eq (hhides : host.HidesZero) (h : EqUpToZero s t) :
    (Rv32.fetchPhase host t).1 = (Rv32.fetchPhase host s).1 := by
  rcases h.fetchPhase hhides with ⟨instr, u, hs, ht⟩ | ⟨hs, ht, -⟩
  · rw [hs, ht]
  · rw [hs, ht]

theorem eqUpToZero_resetZero (s : RV32 σ) : EqUpToZero s s.resetZero := ⟨0, rfl⟩

/-- **A cycle of the program**, in the machine with interrupts and in the machine without. -/
theorem SameProgram.cycleTail (hhost : host.Respects (Alongside E D)) (hhides : host.HidesZero)
    (hkeep : host.KeepsRam) (h : SameProgram E D s t) (hwfi : t.wfi = s.wfi)
    (hspares : Spares D s (cycleTail host s))
    (hunpriv : ∀ instr, (fetchPhase host s).1 = some instr → ¬ Privileged instr) :
    SameProgram E D (cycleTail host s) (cycleTail host t) := by
  have hs := (eqUpToZero_resetZero s).cycleTail hhides
  have ht := (eqUpToZero_resetZero t).cycleTail hhides
  have hword := (eqUpToZero_resetZero s).word_eq hhides
  have hspares' : Spares D s.resetZero (Rv32.cycleTail host s.resetZero) := by
    obtain ⟨v, hv⟩ := hs
    rw [hv]
    exact hspares
  have hbp : breakpointHit t.resetZero ↔ breakpointHit s.resetZero := by
    obtain ⟨_, _, _, _, _, _, _, _, _, _, hrest⟩ := h.rest
    rw [hrest]
    exact Iff.rfl
  have hreset : Alongside E D (Rv32.cycleTail host s.resetZero) (Rv32.cycleTail host t.resetZero) := by
    refine alongside_screen.cycleTail hhost hkeep h hwfi hbp hspares' fun instr _ _ hinstr hpriv _ => ?_
    rw [hword] at hinstr
    exact absurd hpriv (hunpriv instr hinstr)
  exact hs.sameProgram.trans (hreset.sameProgram.trans ht.sameProgram.symm)

/-! ## Runs with their handlers -/

/-- A machine with the handlers that are running in it, the last one entered first: each as its trap entry has
    left it. -/
structure Tracked (σ : Type) where
  machine : RV32 σ
  handlers : List (RV32 σ) := []

/-- The trap entry, if there is one, is the start of a handler. -/
def Tracked.enter (x : Tracked σ) : Tracked σ where
  machine := rv32HandleInterrupt x.machine
  handlers := if trapTaken x.machine = none then x.handlers else rv32HandleInterrupt x.machine :: x.handlers

/-- An `mret` is the end of a handler. -/
def Tracked.proceed (host : Host σ) (x : Tracked σ) : Tracked σ where
  machine := cycleTail host x.machine
  handlers := match (fetchPhase host x.machine).1 with
    | some instr => if IsMret instr then x.handlers.tail else x.handlers
    | none => x.handlers

/-- One call. -/
def Tracked.step (host : Host σ) (x : Tracked σ) (a : Action) : Tracked σ :=
  if a = .cycle then x.enter.proceed host else { x with machine := Rv32.step host x.machine a }

/-- The program is what the machine was when the first of the running handlers was entered. -/
def Tracked.program (x : Tracked σ) : RV32 σ :=
  match x.handlers.getLast? with
  | none         => x.machine
  | some entered => { entered with pc := entered.mepc }

/-- Keeping track changes nothing. -/
theorem Tracked.step_machine (host : Host σ) (x : Tracked σ) (a : Action) :
    (x.step host a).machine = Rv32.step host x.machine a := by
  by_cases ha : a = .cycle
  · subst ha
    exact (rv32Cycle_eq_cycleTail host x.machine).symm
  · rw [Tracked.step, if_neg ha]

theorem Tracked.run_machine (host : Host σ) (x : Tracked σ) (as : List Action) :
    (Lts.run (Tracked.step host) x as).machine = runActions host x.machine as := by
  induction as generalizing x with
  | nil => rfl
  | cons a as ih =>
      rw [Lts.run_cons, ih, Tracked.step_machine]
      rfl

/-- A cycle that is the program's: no handler runs, and the program does not wait for one. -/
def programCycles (x : Tracked σ) (a : Action) : Nat :=
  if a = .cycle ∧ x.enter.handlers = [] ∧ x.enter.machine.wfi = 0 then 1 else 0

/-- A handler that was entered in `entered` and ends in `u` has put back what it found. -/
structure Restores (E : Setoid σ) (D : Set Nat) (entered u : RV32 σ) : Prop where
  program : SameProgram E D entered { u with pc := entered.pc }
  mepc : u.mepc = entered.mepc

/-- What a cycle behind its interrupt test has to keep to: the program stays out of `D` and of the privileged
    instructions, and a handler that returns to it has put back what it found. -/
structure Disciplined (host : Host σ) (E : Setoid σ) (D : Set Nat) (x : Tracked σ) : Prop where
  spares : x.handlers = [] → Spares D x.machine (cycleTail host x.machine)
  unprivileged : x.handlers = [] → ∀ instr, (fetchPhase host x.machine).1 = some instr → ¬ Privileged instr
  restores : ∀ entered instr, x.handlers = [entered] → (fetchPhase host x.machine).1 = some instr →
    IsMret instr → Restores E D entered (fetchPhase host x.machine).2

/-! ## One call -/

/-- **Trap entry** puts `pc` where `mret` will find it. -/
theorem Tracked.enter_program (x : Tracked σ) : SameProgram E D x.enter.program x.program := by
  obtain ⟨m, handlers⟩ := x
  by_cases htrap : trapTaken m = none
  · have hsame : rv32HandleInterrupt m = m := rv32HandleInterrupt_of_none htrap
    simp only [Tracked.enter, if_pos htrap, hsame]
    exact .refl _
  · simp only [Tracked.enter, if_neg htrap]
    cases handlers with
    | cons entered rest => exact .refl _
    | nil =>
        have hmepc : (rv32HandleInterrupt m).mepc = m.pc := (inHandler_of_trap htrap).mepc
        obtain ⟨_, _, _, _, _, _, _, hframe⟩ := rv32HandleInterrupt_frame m
        refine Alongside.sameProgram ⟨?_, ?_, ?_⟩
        · simp only [Tracked.program, List.getLast?_singleton, List.getLast?_nil, hmepc]
          rw [hframe]
          exact ⟨_, _, _, _, _, _, _, _, _, _, rfl⟩
        · have hdevice : (rv32HandleInterrupt m).host = m.host := by rw [hframe]
          simp only [Tracked.program, List.getLast?_singleton, List.getLast?_nil]
          exact (congrArg (E.r · m.host) hdevice).mpr (E.refl m.host)
        · intro i _
          simp only [Tracked.program, List.getLast?_singleton, List.getLast?_nil]
          rw [hframe]

/-- **A cycle of a handler** changes nothing the program sees, its `mret` included. -/
theorem Tracked.proceed_handler {x : Tracked σ} (h : x.handlers ≠ []) (hdisc : Disciplined host E D x) :
    SameProgram E D (x.proceed host).program x.program := by
  obtain ⟨m, handlers⟩ := x
  have hrest := hdisc.restores
  simp only [Tracked.proceed] at hrest ⊢
  rcases hp : fetchPhase host m with ⟨_ | instr, u⟩
  · simp only
    cases handlers with
    | nil => exact absurd rfl h
    | cons entered rest => exact .refl _
  · rw [hp] at hrest
    by_cases hmret : IsMret instr
    · simp only [if_pos hmret]
      cases handlers with
      | nil => exact absurd rfl h
      | cons entered rest =>
          cases rest with
          | cons outer rest => exact .refl _
          | nil =>
              -- the last handler returns
              obtain ⟨hprogram, hmepc⟩ := hrest entered instr rfl rfl hmret
              have htail : cycleTail host m = rv32Execute host u instr := by rw [cycleTail, hp]
              have hreturned : Alongside E D { u with pc := u.mepc } (cycleTail host m) := by
                rw [htail, rv32Execute_mret hmret]
                exact ⟨⟨_, _, _, _, _, _, _, _, _, _, rfl⟩, E.refl _, fun _ _ => rfl⟩
              have hsame := hprogram.withPc u.mepc
              rw [hmepc] at hreturned hsame
              exact hreturned.sameProgram.symm.trans hsame.symm
    · simp only [if_neg hmret]
      cases handlers with
      | nil => exact absurd rfl h
      | cons entered rest => exact .refl _

/-- A program that waits stays where it is. -/
theorem Tracked.proceed_waiting {x : Tracked σ} (hwfi : x.machine.wfi ≠ 0) : x.proceed host = x := by
  have hfetch : fetchPhase host x.machine = (none, x.machine) := if_pos hwfi
  rw [Tracked.proceed, cycleTail, hfetch]

/-- **A cycle of the program.** -/
theorem Tracked.proceed_program (hhost : host.Respects (Alongside E D)) (hhides : host.HidesZero)
    (hkeep : host.KeepsRam) {x : Tracked σ} (hnone : x.handlers = []) (hwfi : x.machine.wfi = 0)
    (hdisc : Disciplined host E D x) (h : SameProgram E D x.program t) :
    SameProgram E D (x.proceed host).program (plainCycle host t) := by
  obtain ⟨m, handlers⟩ := x
  subst hnone
  have hwoken : SameProgram E D t { t with wfi := 0 } :=
    Alongside.sameProgram ⟨⟨_, _, _, _, _, _, 0, _, _, _, rfl⟩, E.refl _, fun _ _ => rfl⟩
  have hawake : SameProgram E D m { t with wfi := 0 } := SameProgram.trans h hwoken
  have htail := hawake.cycleTail hhost hhides hkeep hwfi.symm (hdisc.spares rfl) (hdisc.unprivileged rfl)
  have hstill : (Tracked.proceed host ⟨m, []⟩).handlers = [] := by
    simp only [Tracked.proceed, List.tail_nil, ite_self]
    split <;> rfl
  rw [Tracked.program, hstill]
  exact htail

/-- No call but a cycle changes what the program sees, unless the debugger makes it. -/
theorem trigger_sameProgram (host : Host σ) (s : RV32 σ) {a : Action} (ha : a ≠ .cycle) (hcall : ¬ a.Control) :
    SameProgram E D s (step host s a) := by
  rcases step_cases host s a with hcycle | ⟨irq, rfl⟩ | ⟨hcontrol, -⟩
  · exact absurd hcycle ha
  · obtain ⟨mip, ip, hframe⟩ := rv32TriggerExternalInterrupt_frame s irq
    rw [step, hframe]
    exact Alongside.sameProgram ⟨⟨_, _, _, _, _, _, _, _, _, _, rfl⟩, E.refl _, fun _ _ => rfl⟩
  · exact absurd hcontrol hcall

/-- **One call.** -/
theorem Tracked.step_sameProgram (hhost : host.Respects (Alongside E D)) (hhides : host.HidesZero)
    (hkeep : host.KeepsRam) {x : Tracked σ} (h : SameProgram E D x.program t) {a : Action} (hcall : ¬ a.Control)
    (hdisc : a = .cycle → Disciplined host E D x.enter) :
    SameProgram E D (x.step host a).program ((plainCycle host)^[programCycles x a] t) := by
  by_cases ha : a = .cycle
  · subst ha
    have hentered : SameProgram E D x.enter.program t := x.enter_program.trans h
    have hd := hdisc rfl
    rw [Tracked.step, if_pos rfl]
    by_cases hnone : x.enter.handlers = []
    · by_cases hwfi : x.enter.machine.wfi = 0
      · rw [programCycles, if_pos ⟨rfl, hnone, hwfi⟩]
        exact Tracked.proceed_program hhost hhides hkeep hnone hwfi hd hentered
      · rw [programCycles, if_neg fun hcycle => hwfi hcycle.2.2, Tracked.proceed_waiting hwfi]
        exact hentered
    · rw [programCycles, if_neg fun hcycle => hnone hcycle.2.1]
      exact (Tracked.proceed_handler hnone hd).trans hentered
  · rw [programCycles, if_neg fun hcycle => ha hcycle.1, Tracked.step, if_neg ha]
    obtain ⟨m, handlers⟩ := x
    cases hlast : handlers.getLast? with
    | none =>
        simp only [Tracked.program, hlast] at h ⊢
        exact (trigger_sameProgram host m ha hcall).symm.trans h
    | some entered =>
        simp only [Tracked.program, hlast] at h ⊢
        exact h

/-- **Interrupts are transparent.** However a run of cycles is interrupted, as long as the program keeps to its
    own and every handler that returns to it has put back what it found, the program is where it would be
    without interrupts after as many cycles of its own. -/
theorem interrupts_transparent (host : Host σ) (hhost : host.Respects (Alongside E D)) (hhides : host.HidesZero)
    (hkeep : host.KeepsRam) (m : RV32 σ) (as : List Action) (hcalls : ∀ a ∈ as, ¬ a.Control)
    (hdisc : Lts.AllSteps (Tracked.step host) (fun x a => a = .cycle → Disciplined host E D x.enter) ⟨m, []⟩ as) :
    (Lts.run (Tracked.step host) ⟨m, []⟩ as).machine = runActions host m as ∧
      SameProgram E D (Lts.run (Tracked.step host) ⟨m, []⟩ as).program
        ((plainCycle host)^[Lts.total (Tracked.step host) programCycles ⟨m, []⟩ as] m) := by
  refine ⟨Tracked.run_machine host ⟨m, []⟩ as, ?_⟩
  have hundebugged : Lts.AllSteps (Tracked.step host) (fun _ a => ¬ a.Control) ⟨m, []⟩ as :=
    .of_labels fun a ha _ => hcalls a ha
  exact Lts.run_stutter (R := fun (x : Tracked σ) t => SameProgram E D x.program t)
    (fun x t a h hguest => Tracked.step_sameProgram hhost hhides hkeep h hguest.1 hguest.2) (.refl m)
    (hundebugged.and hdisc)

/-! ## The emulator, interrupted -/

/-- A cycle of a handler that does not return yet has nothing to keep to. -/
theorem Disciplined.of_handler {x : Tracked σ} (instr : Word) (h : x.handlers.length ≠ 0)
    (hword : (fetchPhase host x.machine).1 = some instr) (hinstr : ¬ IsMret instr) : Disciplined host E D x where
  spares hnone := absurd (congrArg List.length hnone) h
  unprivileged hnone := absurd (congrArg List.length hnone) h
  restores _ instr' _ hword' hmret := by
    rw [hword] at hword'
    obtain rfl := Option.some.inj hword'
    exact absurd hmret hinstr

/-- A cycle of the program that executes `instr`, and whose accesses are `new`. -/
theorem Disciplined.of_program {x : Tracked σ} (new : List Nat) (instr : Word) (h : x.handlers.length = 0)
    (htouched : (cycleTail host x.machine).mem.touched = new ++ x.machine.mem.touched) (hnew : ∀ i ∈ new, i ∉ D)
    (hword : (fetchPhase host x.machine).1 = some instr) (hinstr : ¬ Privileged instr) :
    Disciplined host E D x where
  spares _ := ⟨new, htouched, hnew⟩
  unprivileged _ instr' hword' := by
    rw [hword] at hword'
    obtain rfl := Option.some.inj hword'
    exact hinstr
  restores entered _ hone := by
    rw [hone] at h
    cases h

/-- The emulator prints the same on both, so all it takes is that what is printed next does not matter. -/
theorem emulatorHost_respects_alongside {E : Setoid (List Output)}
    (hE : ∀ s t o, E.r s t → E.r (s ++ [o]) (t ++ [o])) : emulatorHost.Respects (Alongside E D) := by
  refine alongside_screen.emulatorHost fun s t o h => ?_
  refine ⟨?_, hE _ _ o h.device, h.outside⟩
  obtain ⟨_, _, _, _, _, _, _, _, _, _, rfl⟩ := h.rest
  exact ⟨_, _, _, _, _, _, _, _, _, _, rfl⟩

/-- Equal outputs. -/
def sameOutput : Setoid (List Output) := ⟨Eq, eq_equivalence⟩

/-- What a handler with the RAM from `n` on has to put back. -/
def PutBack (n : Nat) (entered u : RV32 (List Output)) : Prop :=
  (u.memSize = entered.memSize ∧ u.status = entered.status ∧ u.bpMask = entered.bpMask ∧ u.mepc = entered.mepc ∧
      u.interruptController.ie = entered.interruptController.ie ∧ u.host = entered.host) ∧
    (∀ i, u.bp i = entered.bp i) ∧ (∀ i, u.resetZero.r i = entered.resetZero.r i) ∧
      ∀ i < n, u.mem.bytes i = entered.mem.bytes i

instance (n : Nat) (entered u : RV32 (List Output)) : Decidable (PutBack n entered u) :=
  inferInstanceAs (Decidable (_ ∧ _ ∧ _ ∧ _))

theorem PutBack.restores {n : Nat} {entered u : RV32 (List Output)} (h : PutBack n entered u) :
    Restores sameOutput {i | n ≤ i} entered u := by
  obtain ⟨⟨hsize, hstatus, hmask, hmepc, hie, hhost⟩, hbp, hr, hbytes⟩ := h
  have hbp' : u.bp = entered.bp := funext hbp
  have hr' : u.resetZero.r = entered.resetZero.r := funext hr
  refine ⟨⟨?_, hhost.symm, fun i hi => hbytes i (Nat.lt_of_not_le hi)⟩, hmepc⟩
  obtain ⟨memSize, status, bpMask, bp, r, pc, mstatus, mie, mip, mtvec, mepc, mcause, wfi, ⟨ie, ip⟩, mem, env⟩ := u
  simp only [RV32.resetZero] at hsize hstatus hmask hie hbp' hr' ⊢
  subst hsize hstatus hmask hie hbp'
  rw [hr']
  exact ⟨mstatus, mie, mip, mtvec, mepc, mcause, wfi, ip, mem, env, rfl⟩

/-- `addi x1, x1, 1` and a jump back to it; at 0x40 a handler that keeps `x1` at 0x100 while it uses it:
    `sw x1, 0x100(x0)`, `addi x1, x0, 42`, `lw x1, 0x100(x0)`, `mret`. -/
def preemptedStart : RV32 (List Output) :=
  let handler := [0x10102023, 0x02a00093, 0x10002083, 0x30200073]
  { emulatorStart ([0x00108093, 0xffdff06f] ++ List.replicate 14 0 ++ handler) with
    mstatus := 0x8
    mie := 0x800
    mtvec := 0x40
    interruptController.ie := 1 }

/-- The interrupt comes after the first instruction. -/
def preemptedRun : List Action := [.cycle, .trigger 0, .cycle, .cycle, .cycle, .cycle, .cycle]

/-- The machine after the first `n` calls. -/
def preemptedAt (n : Nat) : Tracked (List Output) :=
  Lts.run (Tracked.step emulatorHost) ⟨preemptedStart, []⟩ (preemptedRun.take n)

theorem preemptedRun_disciplined : Lts.AllSteps (Tracked.step emulatorHost)
    (fun x a => a = .cycle → Disciplined emulatorHost sameOutput {i | 0x40 ≤ i} x.enter) ⟨preemptedStart, []⟩
    preemptedRun := by
  have hputBack : ∀ entered ∈ (preemptedAt 5).enter.handlers,
      PutBack 0x40 entered (fetchPhase emulatorHost (preemptedAt 5).enter.machine).2 := by decide +kernel
  have h0 : Disciplined emulatorHost sameOutput {i | 0x40 ≤ i} (preemptedAt 0).enter :=
    .of_program [0, 1, 2, 3] 0x00108093 (by decide +kernel) (by decide +kernel) (by decide)
      (by decide +kernel) (by decide)
  have h2 : Disciplined emulatorHost sameOutput {i | 0x40 ≤ i} (preemptedAt 2).enter :=
    .of_handler 0x10102023 (by decide +kernel) (by decide +kernel) (by decide)
  have h3 : Disciplined emulatorHost sameOutput {i | 0x40 ≤ i} (preemptedAt 3).enter :=
    .of_handler 0x02a00093 (by decide +kernel) (by decide +kernel) (by decide)
  have h4 : Disciplined emulatorHost sameOutput {i | 0x40 ≤ i} (preemptedAt 4).enter :=
    .of_handler 0x10002083 (by decide +kernel) (by decide +kernel) (by decide)
  have h5 : Disciplined emulatorHost sameOutput {i | 0x40 ≤ i} (preemptedAt 5).enter := by
    have hlength : (preemptedAt 5).enter.handlers.length ≠ 0 := by decide +kernel
    refine ⟨fun hnone => absurd (congrArg List.length hnone) hlength,
      fun hnone => absurd (congrArg List.length hnone) hlength, fun entered instr hone _ _ => ?_⟩
    exact (hputBack entered (hone ▸ List.mem_singleton_self entered)).restores
  have h6 : Disciplined emulatorHost sameOutput {i | 0x40 ≤ i} (preemptedAt 6).enter :=
    .of_program [4, 5, 6, 7] 0xffdff06f (by decide +kernel) (by decide +kernel) (by decide)
      (by decide +kernel) (by decide)
  exact ⟨fun _ => h0, (fun h => nomatch h), fun _ => h2, fun _ => h3, fun _ => h4, fun _ => h5, fun _ => h6, trivial⟩

/-- The program is where its two cycles take it. -/
theorem interrupts_transparent_preempted :
    SameProgram sameOutput {i | 0x40 ≤ i}
      (Lts.run (Tracked.step emulatorHost) ⟨preemptedStart, []⟩ preemptedRun).program
      ((plainCycle emulatorHost)^[2] preemptedStart) := by
  have hcycles : Lts.total (Tracked.step emulatorHost) programCycles ⟨preemptedStart, []⟩ preemptedRun = 2 := by
    decide +kernel
  have hrespects : emulatorHost.Respects (Alongside sameOutput {i | 0x40 ≤ i}) :=
    emulatorHost_respects_alongside fun s t o (h : s = t) => congrArg (· ++ [o]) h
  have htransparent := (interrupts_transparent emulatorHost hrespects emulatorHost_hidesZero emulatorHost_keepsRam
    preemptedStart preemptedRun (by simp [preemptedRun, Action.Control]) preemptedRun_disciplined).2
  rw [hcycles] at htransparent
  exact htransparent

end Rv32
