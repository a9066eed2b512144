import Rv32.Correctness.Decoder
import Rv32.Rsp.Main

/-!
# `Correctness.StopReplies` — one stop reply for each stop

The `switch` in the main loop sends one stop reply for every status but two: none for `RV32_RUNNING`, and,
because a `break` is missing, two for `RV32_INVALID_INSTRUCTION`. So the rounds that report a stop twice are
those whose cycle fetches a word the decoder refuses.
-/

namespace Rv32

open Prog

variable {σ : Type} {host : Host σ} {s : RV32 σ}

/-- What should be sent for a cycle that ends with `status`. -/
def StopReplied (status : Rv32Status) (replies : List RspEvent) : Prop :=
  if status = .running then replies = [] else ∃ signal, replies = [stopReply signal]

/-- If the round gets to a cycle, what it sends after its byte is one stop reply if the cycle stops the
    machine, and nothing if it does not. -/
def StopsOnce (host : Host σ) (p : Process (Stub σ)) (input : MainInput) : Prop :=
  ∀ t, CyclesFrom host p input t →
    ∃ replies,
      Process.emit (mainRound host) p input = Process.emit (mainByte host) p input ++ replies ∧
      StopReplied (Process.step (mainRound host) p input).state.machine.status replies

/-- A cycle of `s` gets to its fetch, and fetches `w`. -/
def Fetches (host : Host σ) (s : RV32 σ) (w : Word) : Prop :=
  Fetching (rv32HandleInterrupt s) ∧
    ∃ u, rv32Load32 host (rv32HandleInterrupt s) (rv32HandleInterrupt s).pc = (some w, u)

/-- The round gets to a cycle that fetches a word the decoder refuses. -/
def FetchesRefused (host : Host σ) (p : Process (Stub σ)) (input : MainInput) : Prop :=
  ∃ t w, CyclesFrom host p input t ∧ Fetches host t.machine w ∧ ¬ Accepted w

/-! ## The cycles that end with `RV32_INVALID_INSTRUCTION` -/

/-- A cycle that does not get to its fetch stops at a breakpoint at most. -/
theorem fetchPhase_of_not_fetching (host : Host σ) (hrunning : s.status = .running) (h : ¬ Fetching s) :
    (fetchPhase host s).1 = none ∧ (fetchPhase host s).2.status ≠ .invalidInstruction := by
  have hvalid : s.status ≠ .invalidInstruction := by
    rw [hrunning]
    decide
  unfold fetchPhase
  split
  · exact ⟨rfl, hvalid⟩
  split
  · exact ⟨rfl, hvalid⟩
  split
  · exact ⟨rfl, Rv32Status.noConfusion⟩
  · rename_i hwfi hst hbp
    exact absurd ⟨not_not.mp hwfi, not_not.mp hst, hbp⟩ h

theorem rv32Cycle_invalid_iff (hval : host.NeverInvalid) (hrunning : s.status = .running) :
    (rv32Cycle host s).status = .invalidInstruction ↔ ∃ w, Fetches host s w ∧ ¬ Accepted w := by
  have hfetch : rv32Fetch host s = fetchPhase host (rv32HandleInterrupt s) := by
    rw [rv32Fetch_handled]
  have hrunning' : (rv32HandleInterrupt s).status = .running :=
    (rv32HandleInterrupt_status s).trans hrunning
  by_cases hfetching : Fetching (rv32HandleInterrupt s)
  case neg =>
    obtain ⟨hnone, hstatus⟩ := fetchPhase_of_not_fetching host hrunning' hfetching
    rw [← hfetch] at hnone hstatus
    rw [rv32Cycle_of_no_fetch host hnone]
    refine iff_of_false hstatus ?_
    rintro ⟨w, hw, -⟩
    exact hfetching hw.1
  rcases hload : rv32Load32 host (rv32HandleInterrupt s) (rv32HandleInterrupt s).pc with ⟨word, u⟩
  rw [hfetching.fetchPhase host, hload] at hfetch
  cases word with
  | none =>
      rw [rv32Cycle_of_no_fetch host (by rw [hfetch]), hfetch]
      refine iff_of_false Rv32Status.noConfusion ?_
      rintro ⟨w, ⟨-, v, hw⟩, -⟩
      rw [hload] at hw
      cases hw
  | some w =>
      have hvalid : (rv32HandleInterrupt s).status ≠ .invalidInstruction := by
        rw [hrunning']
        decide
      have hu : u.resetZero.status ≠ .invalidInstruction := by
        have hrel := rv32Load32_rel hval.accessRel.toLoadRel _ (rv32HandleInterrupt s).pc hvalid
        rw [hload] at hrel
        exact hrel
      rw [rv32Cycle_of_fetch host hfetch, rv32Execute_invalid_iff hval hu]
      constructor
      · intro hrefused
        exact ⟨w, ⟨hfetching, u, hload⟩, hrefused⟩
      · rintro ⟨w', ⟨-, v, hw⟩, hrefused⟩
        rw [hload] at hw
        cases hw
        exact hrefused

/-! ## One round -/

/-- **The `switch`** reports every status once but `RV32_INVALID_INSTRUCTION`. -/
theorem stopReplied_iff (status : Rv32Status) :
    StopReplied status (stopReplies status) ↔ status ≠ .invalidInstruction := by
  unfold StopReplied
  cases status with
  | running => exact iff_of_true rfl Rv32Status.noConfusion
  | halted => exact iff_of_true ⟨.sigtrap, rfl⟩ Rv32Status.noConfusion
  | paused => exact iff_of_true ⟨.sigtrap, rfl⟩ Rv32Status.noConfusion
  | ebreak => exact iff_of_true ⟨.sigtrap, rfl⟩ Rv32Status.noConfusion
  | invalidMemoryAccess => exact iff_of_true ⟨.sigsegv, rfl⟩ Rv32Status.noConfusion
  | invalidInstruction =>
      refine iff_of_false ?_ (not_not.mpr rfl)
      rintro ⟨signal, h⟩
      have htwo : 2 = 1 := congrArg List.length h
      exact absurd htwo (by decide)

theorem stopsOnce_iff (hval : host.NeverInvalid) (p : Process (Stub σ)) (input : MainInput) :
    StopsOnce host p input ↔ ¬ FetchesRefused host p input := by
  -- for a round with a cycle, both sides are about how that cycle ends
  have hround : ∀ t, CyclesFrom host p input t →
      ((∃ replies,
          Process.emit (mainRound host) p input = Process.emit (mainByte host) p input ++ replies ∧
          StopReplied (Process.step (mainRound host) p input).state.machine.status replies) ↔
        ¬ ∃ w, Fetches host t.machine w ∧ ¬ Accepted w) := by
    intro t ht
    rw [← rv32Cycle_invalid_iff hval ht.running, ht.emit, ht.step]
    constructor
    · rintro ⟨replies, hreplies, hreplied⟩
      rw [← List.append_cancel_left hreplies] at hreplied
      exact (stopReplied_iff _).mp hreplied
    · intro hvalid
      exact ⟨_, rfl, (stopReplied_iff _).mpr hvalid⟩
  constructor
  · rintro honce ⟨t, w, ht, hrefused⟩
    exact (hround t ht).mp (honce t ht) ⟨w, hrefused⟩
  · intro hnot t ht
    refine (hround t ht).mpr ?_
    rintro ⟨w, hrefused⟩
    exact hnot ⟨t, w, ht, hrefused⟩

theorem stubHost_neverInvalid : stubHost.NeverInvalid where
  load8 _ _ := id
  load16 _ _ := id
  load32 _ _ := id
  store8 s addr val hst := by
    simp only [stubHost, emulatorHost]
    split
    · exact hst
    · exact hst
  store16 _ _ _ := id
  store32 _ _ _ := id
  ecall s hst := by
    simp only [stubHost]
    split
    · exact Rv32Status.noConfusion
    · exact hst

/-- **One stop reply for each stop.** In a run of the main loop from any state, every cycle that stops the
    machine is answered with one stop reply, and no other cycle with any, exactly when no cycle of the run
    fetches a word that the decoder refuses. -/
theorem stopReplies_iff (p : Process (Stub (List Output))) (inputs : List MainInput) :
    Lts.AllSteps (Process.step (mainRound stubHost)) (StopsOnce stubHost) p inputs ↔
      Lts.AllSteps (Process.step (mainRound stubHost)) (fun q input => ¬ FetchesRefused stubHost q input) p
        inputs := by
  constructor
  · intro h
    exact h.mono fun q input => (stopsOnce_iff stubHost_neverInvalid q input).mp
  · intro h
    exact h.mono fun q input => (stopsOnce_iff stubHost_neverInvalid q input).mpr

/-- A machine of the stub, running at a word of zeros. -/
def runningStub : RV32 (List Output) := { boot zeroStorage 0x10000 (imageOf []) with status := .running }

theorem runningStub_fetches : Fetches stubHost runningStub 0 := by
  have hpc : (rv32HandleInterrupt runningStub).pc = 0 := by decide
  have hword : ByteMem.read (rv32HandleInterrupt runningStub).mem.bytes 0 4 = 0 := by decide
  refine ⟨⟨by decide, by decide, by decide⟩, (rv32HandleInterrupt runningStub).touch 0 4, ?_⟩
  rw [hpc, rv32Load32_zero, hword]

/-- Its first cycle is reported twice. -/
theorem stopReplies_twice :
    ¬ ∀ (p : Process (Stub (List Output))) (inputs : List MainInput),
      Lts.AllSteps (Process.step (mainRound stubHost)) (StopsOnce stubHost) p inputs := by
  intro h
  have honce := (h (stubStart runningStub) [.idle]).1
  rw [stopsOnce_iff stubHost_neverInvalid] at honce
  have hcycles : CyclesFrom stubHost (stubStart runningStub) .idle ⟨runningStub, rspInit⟩ :=
    ⟨rfl, rfl, rfl, rfl⟩
  have hrefused : ¬ Accepted 0 := id
  exact honce ⟨_, 0, hcycles, runningStub_fetches, hrefused⟩

end Rv32
