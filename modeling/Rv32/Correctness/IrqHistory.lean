import Rv32.Core.Emulator
import Rv32.Core.Pending

/-!
# `Correctness.IrqHistory` — the pending word is the history of triggers and traps

A run emits one event for each trigger that is accepted and one for each external trap that is taken.
`interrupt_controller.ip` then is a summary of the events so far, whatever the guest writes to its CSRs:
bit `i` is set exactly when `i` was triggered since its last trap. The step lemma is `step_irq`, the list
of what one call can do to the word; claims without a trap and traps without a claim are not on it.
-/

namespace Rv32

variable {σ : Type} {host : Host σ}

/-- What the history of a run is made of. -/
inductive IrqEvent where
  | triggered (irq : Fin 32)
  | trapped (irq : Fin 32)
  deriving DecidableEq, Repr

/-- The event of a cycle: the external trap it takes, if it takes one. -/
def trapEvents (host : Host σ) (s : RV32 σ) : List IrqEvent :=
  ((List.finRange 32).filter fun irq => TakesTrap host s (.external irq)).map .trapped

/-- The event of a call: an accepted trigger, or a trap. -/
def irqEvents (host : Host σ) (s : RV32 σ) : Action → List IrqEvent
  | .trigger irq =>
      if h : irq.toNat < 4 then [.triggered ⟨irq.toNat, Nat.lt_trans h (by decide)⟩] else []
  | .cycle => trapEvents host s
  | _ => []

/-- The events of the run of the calls `as` from `s`. -/
def irqTrace (host : Host σ) (s : RV32 σ) (as : List Action) : List IrqEvent :=
  Lts.trace (step host) (irqEvents host) s as

/-- The irq was triggered, and has not been trapped since. -/
def TriggeredSince (irq : Fin 32) (evs : List IrqEvent) : Prop :=
  Lts.Since (· = .triggered irq) (· = .trapped irq) evs

/-! ## One call -/

theorem filter_finRange_eq (irq : Fin 32) : (List.finRange 32).filter (fun j => decide (irq = j)) = [irq] := by
  revert irq
  decide

/-- A cycle that takes an external trap emits the event of that trap. -/
theorem trapEvents_of_trap {s : RV32 σ} {irq : Fin 32} (h : TakesTrap host s (.external irq)) :
    trapEvents host s = [.trapped irq] := by
  have hsame (j : Fin 32) : decide (TakesTrap host s (.external j)) = decide (irq = j) := by
    refine decide_eq_decide.mpr ⟨fun hj => ?_, fun hj => hj ▸ h⟩
    exact TrapSource.external.inj (h.unique hj)
  simp only [trapEvents, hsame, filter_finRange_eq, List.map_cons, List.map_nil]

/-- And one that takes none emits none. -/
theorem trapEvents_of_no_trap {s : RV32 σ} (h : ∀ irq, ¬ TakesTrap host s (.external irq)) :
    trapEvents host s = [] := by
  rw [trapEvents, List.filter_eq_nil_iff.mpr fun irq _ => by simpa using h irq, List.map_nil]

/-- **The events of a call** account for what it does to `ip`: it does nothing, or accepts one trigger, or
    takes one external trap. -/
theorem step_irq (hkeep : host.KeepsPending) (s : RV32 σ) (a : Action) :
    (irqEvents host s a = [] ∧ (step host s a).interruptController.ip = s.interruptController.ip) ∨
    (∃ irq : Fin 32, irqEvents host s a = [.triggered irq] ∧
      ∀ i, (step host s a).interruptController.ip.getLsbD i =
        (s.interruptController.ip.getLsbD i || decide (i = irq.val))) ∨
    (∃ irq : Fin 32, irqEvents host s a = [.trapped irq] ∧
      (a = .cycle ∧ TakesTrap host s (.external irq)) ∧
      s.interruptController.ip.getLsbD irq.val = true ∧
      ∀ i, (step host s a).interruptController.ip.getLsbD i =
        (s.interruptController.ip.getLsbD i && !decide (i = irq.val))) := by
  rcases step_ip hkeep s a with ⟨hcycle, htrigger, hip⟩ | ⟨irq, rfl, h4, hbits⟩ |
    ⟨irq, rfl, htrap, hlowest, hbits⟩
  · refine .inl ⟨?_, hip⟩
    cases a with
    | cycle => exact trapEvents_of_no_trap (hcycle rfl)
    | trigger irq => exact dif_neg (Nat.not_lt.mpr (htrigger irq rfl))
    | _ => rfl
  · exact .inr (.inl ⟨_, dif_pos h4, hbits⟩)
  · exact .inr (.inr ⟨irq, trapEvents_of_trap htrap, ⟨rfl, htrap⟩, hlowest.set, hbits⟩)

/-! ## Runs -/

/-- What holds of a history and of the word it leads to. -/
structure Summarises (irq : Fin 32) (evs : List IrqEvent) (ip : Word) : Prop where
  pending : ip.getLsbD irq.val = true ↔ TriggeredSince irq evs
  counts : evs.count (.trapped irq) + (if ip.getLsbD irq.val then 1 else 0) ≤
    evs.count (.triggered irq)

theorem summarises_boot (irq : Fin 32) : Summarises irq [] 0 where
  pending := iff_of_false (by simp) (Lts.not_since_nil _ _)
  counts := by simp

/-- A trigger of `irq` itself. -/
theorem Summarises.triggered {irq : Fin 32} {evs : List IrqEvent} {ip ip' : Word}
    (h : Summarises irq evs ip) (hbit : ip'.getLsbD irq.val = true) :
    Summarises irq (evs ++ [.triggered irq]) ip' where
  pending := iff_of_true hbit (Lts.since_concat.mpr (.inl rfl))
  counts := by
    have hcounts := h.counts
    simp only [List.count_append, List.count_singleton, hbit, beq_self_eq_true, if_true]
    simp only [show (IrqEvent.triggered irq == IrqEvent.trapped irq) = false from rfl]
    simp only [Bool.false_eq_true, if_false]
    omega

/-- A trap of `irq` itself, which was pending. -/
theorem Summarises.trapped {irq : Fin 32} {evs : List IrqEvent} {ip ip' : Word}
    (h : Summarises irq evs ip) (hset : ip.getLsbD irq.val = true)
    (hbit : ip'.getLsbD irq.val = false) : Summarises irq (evs ++ [.trapped irq]) ip' where
  pending := by
    refine iff_of_false (by rw [hbit]; exact Bool.false_ne_true) ?_
    intro hsince
    rcases Lts.since_concat.mp hsince with h | h
    · cases h
    · exact h.1 rfl
  counts := by
    have hcounts := h.counts
    simp only [hset, if_true] at hcounts
    simp only [List.count_append, List.count_singleton, hbit, beq_self_eq_true, if_true]
    simp only [show (IrqEvent.trapped irq == IrqEvent.triggered irq) = false from rfl]
    simp only [Bool.false_eq_true, if_false]
    omega

/-- An event of another irq, which leaves the bit alone. -/
theorem Summarises.other {irq : Fin 32} {evs : List IrqEvent} {ip ip' : Word} {e : IrqEvent}
    (h : Summarises irq evs ip) (htrig : e ≠ .triggered irq) (htrap : e ≠ .trapped irq)
    (hbit : ip'.getLsbD irq.val = ip.getLsbD irq.val) : Summarises irq (evs ++ [e]) ip' where
  pending := by
    rw [hbit, h.pending, TriggeredSince, TriggeredSince, Lts.since_concat]
    simp [htrig, htrap]
  counts := by
    have hcounts := h.counts
    rw [hbit]
    simpa [List.count_append, List.count_singleton, htrig, htrap] using hcounts

/-- One more call. -/
theorem Summarises.next (hkeep : host.KeepsPending) {irq : Fin 32} {evs : List IrqEvent} {s : RV32 σ}
    (h : Summarises irq evs s.interruptController.ip) (a : Action) :
    Summarises irq (evs ++ irqEvents host s a) (step host s a).interruptController.ip := by
  rcases step_irq hkeep s a with ⟨hev, hip⟩ | ⟨j, hev, hip⟩ | ⟨j, hev, -, hset, hip⟩
  · rw [hev, hip, List.append_nil]
    exact h
  · rw [hev]
    by_cases hj : j = irq
    · subst hj
      exact h.triggered (by rw [hip]; simp)
    · have hne : irq.val ≠ j.val := fun he => hj (Fin.ext he.symm)
      exact h.other (by simpa using hj) nofun (by rw [hip]; simp [hne])
  · rw [hev]
    by_cases hj : j = irq
    · subst hj
      exact h.trapped hset (by rw [hip]; simp)
    · have hne : irq.val ≠ j.val := fun he => hj (Fin.ext he.symm)
      exact h.other nofun (by simpa using hj) (by rw [hip]; simp [hne])

/-- **A run.** -/
theorem summarises_run (hkeep : host.KeepsPending) (memory : RV32 σ) (memSize : Word)
    (image : ByteMem.Mem) (irq : Fin 32) (as : List Action) :
    Summarises irq (irqTrace host (boot memory memSize image) as)
      (runActions host (boot memory memSize image) as).interruptController.ip := by
  induction as using List.reverseRecOn with
  | nil => exact summarises_boot irq
  | append_singleton as a ih =>
      rw [irqTrace, Lts.trace_concat, runActions, Lts.run_concat]
      exact ih.next hkeep a

/-- **No spurious or duplicated external interrupt.** In every state a run from `rv32_new` reaches: an irq
    is pending exactly when it was triggered since its last trap, and it was trapped at most as often as
    it was triggered. The next cycle takes an external trap only for an irq that is pending, with that irq
    in `mcause`, and clears its bit and no other; a call that clears a bit takes the trap of that irq; and
    the interrupt entry leaves the machine as it is, or enters a trap, from its external branch an
    external one. -/
theorem irq_neither_spurious_nor_duplicated (host : Host σ) (hkeep : host.KeepsPending)
    (memory : RV32 σ) (memSize : Word) (image : ByteMem.Mem) (as : List Action) (t : RV32 σ)
    (ht : runActions host (boot memory memSize image) as = t) (irq : Fin 32) :
    (t.interruptController.ip.getLsbD irq.val = true ↔
      TriggeredSince irq (irqTrace host (boot memory memSize image) as)) ∧
    (irqTrace host (boot memory memSize image) as).count (.trapped irq) ≤
      (irqTrace host (boot memory memSize image) as).count (.triggered irq) ∧
    (TakesTrap host t (.external irq) →
      t.interruptController.ip.getLsbD irq.val = true ∧
      (rv32HandleInterrupt t).mcause = csrMcauseInterrupt ||| (16 + BitVec.ofNat 32 irq.val) ∧
      ∀ i, (rv32Cycle host t).interruptController.ip.getLsbD i =
        (t.interruptController.ip.getLsbD i && !decide (i = irq.val))) ∧
    (∀ a, t.interruptController.ip.getLsbD irq.val = true →
      (step host t a).interruptController.ip.getLsbD irq.val = false →
      a = .cycle ∧ TakesTrap host t (.external irq)) ∧
    (rv32HandleInterrupt t = t ∨
      ∃ src, TakesTrap host t src ∧ (ReachesClaim t → ∃ j, src = .external j)) := by
  have hsum := ht ▸ summarises_run hkeep memory memSize image irq as
  refine ⟨hsum.pending, Nat.le_trans (Nat.le_add_right _ _) hsum.counts, fun htrap => ?_,
    fun a hset hclear => ?_, ?_⟩
  · rcases step_ip hkeep t .cycle with ⟨hnone, -⟩ | ⟨_, ⟨⟩, -⟩ | ⟨j, -, hj, hlowest, hbits⟩
    · exact absurd htrap (hnone rfl irq)
    · obtain rfl := TrapSource.external.inj (htrap.unique hj)
      exact ⟨hlowest.set, htrap.entered.mcause, hbits⟩
  · rcases step_irq hkeep t a with ⟨-, hip⟩ | ⟨j, -, hip⟩ | ⟨j, -, htakes, -, hip⟩
    · rw [hip, hset] at hclear; cases hclear
    · rw [hip, hset] at hclear; cases hclear
    · rw [hip, hset] at hclear
      obtain rfl : irq = j := Fin.ext (by simpa using hclear)
      exact htakes
  · rcases rv32HandleInterrupt_cases t with ⟨-, hsame⟩ | ⟨src, htaken, -⟩
    · exact .inl hsame
    · refine .inr ⟨src, (takesTrap_iff host).mpr htaken, fun hreach => ?_⟩
      rw [trapTaken_of_meie hreach.1 hreach.2] at htaken
      obtain ⟨j, -, hj⟩ := Option.map_eq_some_iff.mp htaken
      exact ⟨j, hj.symm⟩

/-- Enables irq 0 everywhere: `mie`, the interrupt controller at `0x90000000`, and `mstatus`. -/
def enableProgram : List Word :=
  [ 0x000010b7, 0x0010d093, 0x3040a073,   -- lui x1, 1; srli x1, x1, 1; csrrs x0, mie, x1
    0x90000137, 0x00100193, 0x00312023,   -- lui x2, 0x90000; addi x3, x0, 1; sw x3, 0(x2)
    0x30046073 ]                          -- csrrsi x0, mstatus, 8

/-- The calls that run it, trigger irq 0, let its trap be taken and trigger it again. -/
def trappedRun : List Action :=
  .resume :: List.replicate 7 .cycle ++ [.trigger 0, .cycle, .trigger 0]

/-- The emulator takes the trap of irq 0, and has it pending again. -/
theorem irq_neither_spurious_nor_duplicated_emulator :
    irqTrace emulatorHost (boot zeroStorage 0x20000004 (imageOf enableProgram)) trappedRun =
        [.triggered 0, .trapped 0, .triggered 0] ∧
      (runActions emulatorHost (boot zeroStorage 0x20000004 (imageOf enableProgram))
        trappedRun).interruptController.ip.getLsbD 0 = true := by
  have h := irq_neither_spurious_nor_duplicated emulatorHost
    (emulatorHost_within fun _ _ _ => ⟨rfl, rfl⟩) zeroStorage 0x20000004 (imageOf enableProgram)
    trappedRun _ rfl 0
  have hevents : irqTrace emulatorHost (boot zeroStorage 0x20000004 (imageOf enableProgram)) trappedRun =
      [.triggered 0, .trapped 0, .triggered 0] := by decide +kernel
  refine ⟨hevents, h.1.mpr ?_⟩
  rw [hevents]
  exact ⟨[.triggered 0, .trapped 0], .triggered 0, [], rfl, rfl, nofun⟩

end Rv32
