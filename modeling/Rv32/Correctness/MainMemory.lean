import Rv32.Core.Main
import Rv32.Correctness.StrayAccess
import Rv32.Lib.Transition

/-!
# `Correctness.MainMemory` — what `main` reads of the storage it allocated

The emulator's own accesses stay in the RAM. The report of `main` is another matter: it prints the word at
`pc` whatever `pc` is, and after a jump out of the RAM that is a word outside the storage.
-/

namespace Rv32

variable {fuel : Nat} {argv : List String} {fopen : String → Option (List Byte)}
  {memory t : RV32 (List Output)}

/-- The index lies in the `RV32_NEEDED_MEMORY(ram_size)` bytes of `main`. -/
def InStorage (i : Nat) : Prop := offsetofMem + i < sizeofRV32 + emulatorRamSize.toNat

theorem inStorage_iff (i : Nat) : InStorage i ↔ i < emulatorRamSize.toNat + 4 := by
  unfold InStorage offsetofMem sizeofRV32
  omega

/-- `main` reports a word of the memory. -/
def Rv32Status.Reported (st : Rv32Status) : Prop := st ≠ .running ∧ st ≠ .halted ∧ st ≠ .ebreak

theorem emulatorReport_of_reported {σ : Type} {s : RV32 σ} (h : s.status.Reported) :
    (emulatorReport s).2 = s.touch s.pc 4 := by
  obtain ⟨hrunning, hhalted, hebreak⟩ := h
  unfold emulatorReport
  split
  · exact absurd ‹_› hrunning
  · exact absurd ‹_› hhalted
  · exact absurd ‹_› hebreak
  · rfl

theorem emulatorReport_of_not_reported {σ : Type} {s : RV32 σ} (h : ¬ s.status.Reported) :
    (emulatorReport s).2 = s := by
  unfold emulatorReport
  split
  · rfl
  · rfl
  · rfl
  · rename_i hrunning hhalted hebreak
    exact absurd ⟨hrunning, hhalted, hebreak⟩ h

/-- The accesses of the emulator itself. -/
theorem iterate_inStorage (memory : RV32 (List Output)) (file : List Byte) (n : Nat) :
    ∀ i ∈ ((rv32Cycle emulatorHost)^[n] (mainStart memory file)).mem.touched, InStorage i := by
  intro i hi
  have hrun : (rv32Cycle emulatorHost)^[n] (mainStart memory file) =
      runActions emulatorHost (mainStart memory file) (List.replicate n .cycle) := by
    rw [runActions, Lts.run_replicate]
    rfl
  obtain ⟨-, new, htouched, hnew⟩ := run_dereferences emulatorHost_keepsRam (mainStart memory file)
    (List.replicate n .cycle)
  rw [hrun, htouched] at hi
  have hsize : 4 ≤ (mainStart memory file).memSize.toNat := show 4 ≤ emulatorRamSize.toNat by decide
  have hlt : i < (mainStart memory file).memSize.toNat := by
    refine hnew hsize i ?_
    simpa [mainStart, readProgram, rv32New] using hi
  have hlt' : i < emulatorRamSize.toNat := hlt
  rw [inStorage_iff]
  omega

theorem exists_start_of_mainLoad {memory : Option (RV32 (List Output))}
    (h : mainLoad argv fopen memory = .ok t) : ∃ storage file, t = mainStart storage file := by
  unfold mainLoad at h
  split at h
  · split at h
    · cases h
    · split at h
      · cases h
      · split_ifs at h
        exact ⟨_, _, (Except.ok.inj h).symm⟩
  · cases h

/-- A machine that `main` returns with has run until it stopped. -/
theorem exists_runsFor_of_emulatorMain {result : MainResult} {memory : Option (RV32 (List Output))}
    (h : emulatorMain fuel argv fopen memory = some result) (ht : result.machine = some t) :
    ∃ storage file k, RunsFor emulatorHost (mainStart storage file) (k + 1) ∧
      t = (emulatorReport ((rv32Cycle emulatorHost)^[k + 1] (mainStart storage file))).2 := by
  unfold emulatorMain at h
  split at h
  · obtain rfl := Option.some.inj h
    cases ht
  · rename_i s hload
    obtain ⟨storage, file, rfl⟩ := exists_start_of_mainLoad hload
    obtain ⟨r, hloop, rfl⟩ := Option.map_eq_some_iff.mp h
    obtain ⟨k, hruns, rfl⟩ := exists_runsFor_of_mainLoop rfl hloop
    exact ⟨storage, file, k, hruns, (Option.some.inj ht).symm⟩

/-- **`main` stays in its storage** exactly when it has no error to report, or the program got no further than
    the end of the RAM. -/
theorem emulatorMain_inStorage_iff {result : MainResult} {memory : Option (RV32 (List Output))}
    (h : emulatorMain fuel argv fopen memory = some result) (ht : result.machine = some t) :
    (∀ i ∈ t.mem.touched, InStorage i) ↔
      (t.status = .halted ∨ t.status = .ebreak ∨ t.pc.toNat ≤ emulatorRamSize.toNat) := by
  obtain ⟨storage, file, k, hruns, rfl⟩ := exists_runsFor_of_emulatorMain h ht
  have hcycles := iterate_inStorage storage file (k + 1)
  have hstopped := hruns.2
  generalize (rv32Cycle emulatorHost)^[k + 1] (mainStart storage file) = u at hcycles hstopped ⊢
  by_cases hreported : u.status.Reported
  · rw [emulatorReport_of_reported hreported]
    constructor
    · intro hall
      have hlast : InStorage (u.pc.toNat + 3) := by
        refine hall _ (List.mem_append_left _ ?_)
        exact List.mem_range'.mpr ⟨3, by decide, by omega⟩
      rw [inStorage_iff] at hlast
      refine .inr (.inr ?_)
      show u.pc.toNat ≤ _
      omega
    · rintro (hhalted | hebreak | hpc) i hi
      · exact absurd hhalted hreported.2.1
      · exact absurd hebreak hreported.2.2
      · rcases List.mem_append.mp hi with hnew | hold
        · obtain ⟨j, hj, rfl⟩ := List.mem_range'.mp hnew
          have hpc' : u.pc.toNat ≤ emulatorRamSize.toNat := hpc
          rw [inStorage_iff]
          omega
        · exact hcycles i hold
  · rw [emulatorReport_of_not_reported hreported]
    refine iff_of_true hcycles ?_
    by_cases hhalted : u.status = .halted
    · exact .inl hhalted
    · by_cases hebreak : u.status = .ebreak
      · exact .inr (.inl hebreak)
      · exact absurd ⟨hstopped, hhalted, hebreak⟩ hreported

/-- `lui t0, 0x30000` and `jr t0` -/
def jumpFile : List Byte := [0xb7, 0x02, 0x00, 0x30, 0x67, 0x80, 0x02, 0x00]

/-- A jump out of the RAM ends in a report of a word outside the storage. -/
theorem emulatorMain_inStorage_iff_jump :
    ∃ result t, emulatorMain 3 ["rv32", "jump.bin"] (fun _ => some jumpFile) (some zeroStorage) =
        some result ∧ result.machine = some t ∧ ¬ ∀ i ∈ t.mem.touched, InStorage i := by
  have hruns : RunsFor emulatorHost (mainStart zeroStorage jumpFile) 3 := by
    refine ⟨fun i hi => ?_, by decide +kernel⟩
    match i, hi with
    | 0, _ => rfl
    | 1, _ => decide +kernel
    | 2, _ => decide +kernel
  have hst : ((rv32Cycle emulatorHost)^[3] (mainStart zeroStorage jumpFile)).status = .invalidMemoryAccess := by
    decide +kernel
  have hpc : ((rv32Cycle emulatorHost)^[3] (mainStart zeroStorage jumpFile)).pc = 0x30000000 := by
    decide +kernel
  have hmain : emulatorMain 3 ["rv32", "jump.bin"] (fun _ => some jumpFile) (some zeroStorage) = some _ :=
    emulatorMain_of_mainLoop rfl (by decide) (List.cons_ne_nil _ _) (mainLoop_of_runsFor hruns)
  refine ⟨_, _, hmain, rfl, fun hall => ?_⟩
  have hcases := (emulatorMain_inStorage_iff hmain rfl).mp hall
  generalize (rv32Cycle emulatorHost)^[3] (mainStart zeroStorage jumpFile) = u at hst hpc hcases
  have hreported : u.status.Reported := by
    rw [hst]
    exact ⟨by decide, by decide, by decide⟩
  simp only [emulatorReport_of_reported hreported] at hcases
  rcases hcases with hhalted | hebreak | hle
  · exact hreported.2.1 hhalted
  · exact hreported.2.2 hebreak
  · have hle' : u.pc.toNat ≤ emulatorRamSize.toNat := hle
    rw [hpc] at hle'
    exact absurd hle' (by decide)

end Rv32
