import Rv32.Core.Emulator

/-!
# `Core.Main` — `main` of `examples/embedding/emulator.c`

The command-line emulator: it allocates the machine, reads a program file to the start of the RAM, and calls
`rv32_cycle` until the status is no longer `RV32_RUNNING`. Its loop need not end, so it is given a number of
cycles (`mainLoop`), and has no result when they do not suffice.

When a cycle ends in an error, `main` prints the word at `pc` by dereferencing `rv32->mem` itself. That is
recorded like the emulator's own accesses.
-/

namespace Rv32

/-! ## What it prints -/

/-- `rv32_status_name` -/
def rv32StatusName : Rv32Status → String
  | .running             => "RV32_RUNNING"
  | .halted              => "RV32_HALTED"
  | .paused              => "RV32_PAUSED"
  | .ebreak              => "RV32_EBREAK"
  | .invalidInstruction  => "RV32_INVALID_INSTRUCTION"
  | .invalidMemoryAccess => "RV32_INVALID_MEMORY_ACCESS"

/-- `%08x` -/
def hex08 (w : Word) : String :=
  String.ofList <| (List.range 8).map fun i =>
    "0123456789abcdef".toList.getD (w >>> (28 - 4 * i) &&& 0xf).toNat '0'

variable {σ : Type}

/-- The `switch` of `main` on the status a cycle left: what goes to `stderr`, and the machine. -/
def emulatorReport (s : RV32 σ) : List String × RV32 σ :=
  match s.status with
  | .running | .halted => ([], s)
  | .ebreak            => (["ebreak at pc=" ++ hex08 s.pc ++ "\n"], s)
  | st                 =>
      (["Error " ++ rv32StatusName st ++ " at pc=" ++ hex08 s.pc ++ "\n",
        "instruction = 0x" ++ hex08 (ByteMem.read s.mem.bytes s.pc.toNat 4) ++ "\n"], s.touch s.pc 4)

/-- `while (rv32->status == RV32_RUNNING)`, for at most the given number of cycles. -/
def mainLoop (host : Host σ) : Nat → RV32 σ → Option (List String × RV32 σ)
  | 0, s     => if s.status = .running then none else some ([], s)
  | n + 1, s =>
      if s.status = .running then
        let report := emulatorReport (rv32Cycle host s)
        (mainLoop host n report.2).map fun result => (report.1 ++ result.1, result.2)
      else some ([], s)

/-! ## `main` -/

/-- `ram_size` -/
def emulatorRamSize : Word := 0x20000004

/-- What a call of `main` ends with. The machine is there once it was allocated and loaded. -/
structure MainResult where
  rc : Word
  stderr : List String
  machine : Option (RV32 (List Output))

/-- `fread(rv32->mem, fsize, 1, f)` -/
def readProgram (s : RV32 σ) (file : List Byte) : RV32 σ :=
  { s with mem.bytes := fun i => file[i]?.getD (s.mem.bytes i) }

/-- The machine with which the loop is entered, in the storage that `malloc` returned. -/
def mainStart (memory : RV32 (List Output)) (file : List Byte) : RV32 (List Output) :=
  { readProgram (rv32New memory emulatorRamSize) file with status := .running, host := [] }

/-- `main` above its loop: the machine, or the message it returns 1 with. `fopen` gives the bytes of a file
    that can be opened, `memory` is what `malloc` returns. -/
def mainLoad (argv : List String) (fopen : String → Option (List Byte))
    (memory : Option (RV32 (List Output))) : Except String (RV32 (List Output)) :=
  match argv with
  | _ :: path :: _ =>
      match fopen path with
      | none      => .error ("Failed to open program " ++ path ++ "\n")
      | some file =>
          match memory with
          | none        => .error "Failed to allocate memory.\n"
          | some memory =>
              if file.length > emulatorRamSize.toNat then .error "Program too big.\n"
              -- of an object of no bytes `fread` reads none
              else if file = [] then .error "Failed to read program\n"
              else .ok (mainStart memory file)
  | _ => .error "Please provide a program to run.\n"

/-- `main` of `emulator.c`. Without a result, its loop needs more cycles. -/
def emulatorMain (fuel : Nat) (argv : List String) (fopen : String → Option (List Byte))
    (memory : Option (RV32 (List Output))) : Option MainResult :=
  match mainLoad argv fopen memory with
  | .error message => some { rc := 1, stderr := [message], machine := none }
  | .ok s          =>
      (mainLoop emulatorHost fuel s).map fun result =>
        { rc := if result.2.status = .halted then result.2.r regA0 else 1
          stderr := result.1
          machine := some result.2 }

/-! ## The loop -/

section Loop

variable {host : Host σ} {s : RV32 σ} {n k : Nat} {result : List String × RV32 σ}

theorem mainLoop_of_stopped (h : s.status ≠ .running) : mainLoop host n s = some ([], s) := by
  cases n <;> rw [mainLoop, if_neg h]

theorem mainLoop_succ (h : s.status = .running) :
    mainLoop host (n + 1) s =
      (mainLoop host n (emulatorReport (rv32Cycle host s)).2).map fun result =>
        ((emulatorReport (rv32Cycle host s)).1 ++ result.1, result.2) := by
  rw [mainLoop, if_pos h]

/-- While the machine runs there is nothing to report. -/
theorem emulatorReport_of_running (h : s.status = .running) : emulatorReport s = ([], s) := by
  rw [emulatorReport, h]

theorem emulatorReport_status (s : RV32 σ) : (emulatorReport s).2.status = s.status := by
  unfold emulatorReport
  split <;> rfl

/-- More cycles do not change the result. -/
theorem mainLoop_mono (h : mainLoop host n s = some result) : mainLoop host (n + k) s = some result := by
  induction n generalizing s result with
  | zero =>
      rw [mainLoop] at h
      split at h
      · cases h
      · rename_i hst
        rw [mainLoop_of_stopped hst, ← h]
  | succ n ih =>
      by_cases hst : s.status = .running
      · rw [mainLoop_succ hst] at h
        obtain ⟨result', hrest, rfl⟩ := Option.map_eq_some_iff.mp h
        rw [Nat.succ_add, mainLoop_succ hst, ih hrest]
        rfl
      · rw [mainLoop_of_stopped hst] at h
        rw [mainLoop_of_stopped hst, ← h]

theorem mainLoop_unique {n' : Nat} {result' : List String × RV32 σ} (h : mainLoop host n s = some result)
    (h' : mainLoop host n' s = some result') : result = result' := by
  have hleft := mainLoop_mono (k := n') h
  have hright := mainLoop_mono (k := n) h'
  rw [Nat.add_comm] at hright
  exact Option.some.inj (hleft.symm.trans hright)

theorem emulatorMain_unique {fuel fuel' : Nat} {argv : List String} {fopen : String → Option (List Byte)}
    {memory : Option (RV32 (List Output))} {result result' : MainResult}
    (h : emulatorMain fuel argv fopen memory = some result)
    (h' : emulatorMain fuel' argv fopen memory = some result') : result = result' := by
  -- only the loop depends on the number of cycles
  unfold emulatorMain at h h'
  split at h
  · rename_i hload
    rw [hload] at h'
    exact Option.some.inj (h.symm.trans h')
  · rename_i hload
    rw [hload] at h'
    obtain ⟨r, hloop, rfl⟩ := Option.map_eq_some_iff.mp h
    obtain ⟨r', hloop', rfl⟩ := Option.map_eq_some_iff.mp h'
    rw [mainLoop_unique hloop hloop']

/-- `main` runs the loop on a file that fits. -/
theorem emulatorMain_of_mainLoop {memory : RV32 (List Output)} {fuel : Nat} {prog path : String} {rest : List String}
    {fopen : String → Option (List Byte)} {file : List Byte} {result : List String × RV32 (List Output)}
    (hfile : fopen path = some file) (hfits : file.length ≤ emulatorRamSize.toNat) (hne : file ≠ [])
    (hloop : mainLoop emulatorHost fuel (mainStart memory file) = some result) :
    emulatorMain fuel (prog :: path :: rest) fopen (some memory) =
      some { rc := if result.2.status = .halted then result.2.r regA0 else 1
             stderr := result.1
             machine := some result.2 } := by
  have hload : mainLoad (prog :: path :: rest) fopen (some memory) = .ok (mainStart memory file) := by
    simp only [mainLoad, hfile]
    rw [if_neg (Nat.not_lt.mpr hfits), if_neg hne]
  rw [emulatorMain, hload]
  simp only [hloop]
  rfl

variable (host) in
/-- The machine runs for exactly `k` cycles. -/
def RunsFor (s : RV32 σ) (k : Nat) : Prop :=
  (∀ i < k, ((rv32Cycle host)^[i] s).status = .running) ∧ ((rv32Cycle host)^[k] s).status ≠ .running

theorem RunsFor.running (h : RunsFor host s (k + 1)) : s.status = .running := h.1 0 (Nat.succ_pos k)

theorem RunsFor.tail (h : RunsFor host s (k + 1)) : RunsFor host (rv32Cycle host s) k :=
  ⟨fun i hi => h.1 (i + 1) (Nat.succ_lt_succ hi), h.2⟩

/-- **The loop** makes as many cycles as the machine runs for, and reports on the last. -/
theorem mainLoop_of_runsFor (h : RunsFor host s (k + 1)) :
    mainLoop host (k + 1) s = some (emulatorReport ((rv32Cycle host)^[k + 1] s)) := by
  induction k generalizing s with
  | zero =>
      have hstop : (emulatorReport (rv32Cycle host s)).2.status ≠ .running := by
        rw [emulatorReport_status]
        exact h.2
      rw [mainLoop_succ h.running, mainLoop_of_stopped hstop]
      simp
  | succ k ih =>
      have hnext : (rv32Cycle host s).status = .running := h.1 1 (by omega)
      rw [mainLoop_succ h.running, emulatorReport_of_running hnext, ih h.tail]
      rfl

/-- And a loop that ends has made them. -/
theorem exists_runsFor_of_mainLoop (hrunning : s.status = .running)
    (h : mainLoop host n s = some result) :
    ∃ k, RunsFor host s (k + 1) ∧ result = emulatorReport ((rv32Cycle host)^[k + 1] s) := by
  induction n generalizing s result with
  | zero =>
      rw [mainLoop, if_pos hrunning] at h
      cases h
  | succ n ih =>
      rw [mainLoop_succ hrunning] at h
      by_cases hnext : (rv32Cycle host s).status = .running
      · rw [emulatorReport_of_running hnext] at h
        obtain ⟨result', hrest, rfl⟩ := Option.map_eq_some_iff.mp h
        obtain ⟨k, hruns, rfl⟩ := ih hnext hrest
        refine ⟨k + 1, ⟨?_, hruns.2⟩, rfl⟩
        intro i hi
        cases i with
        | zero => exact hrunning
        | succ i => exact hruns.1 i (Nat.lt_of_succ_lt_succ hi)
      · have hstop : (emulatorReport (rv32Cycle host s)).2.status ≠ .running := by
          rw [emulatorReport_status]
          exact hnext
        rw [mainLoop_of_stopped hstop] at h
        refine ⟨0, ⟨?_, hnext⟩, ?_⟩
        · intro i hi
          obtain rfl : i = 0 := by omega
          exact hrunning
        · rw [← Option.some.inj h]
          simp

end Loop

end Rv32
