import Rv32.Correctness.Breakpoints
import Rv32.Rsp.Effect

/-!
# `Correctness.BreakpointSet` — when the breakpoint table is a set

`rv32_set_breakpoint` takes the first free slot and does not look whether the address is in the table
already; `rv32_clear_breakpoint` returns after the first slot it finds. So an address that is set twice
occupies two slots, and is still enabled after a clear that succeeded. A history in which no enabled
address is set again, unless the table is full and the call refused, keeps the table free of duplicates,
and only such a one keeps the table a set. Calls and packets may be mixed in any order.
-/

namespace Rv32

open Prog

variable {σ : Type} {host : Host σ} {s t : RV32 σ}

/-- What a debugger does: a call, or a packet that reaches `rsp_handle_packet`. -/
inductive DebugAction where
  | call (a : Action)
  | packet (buffer : Nat → Byte) (size : Nat)

/-- Its effect on the machine. -/
def debugStep (host : Host σ) (s : RV32 σ) : DebugAction → RV32 σ
  | .call a             => step host s a
  | .packet buffer size => (rspHandlePacket host buffer size s).state

/-- The address in a packet with the prefix `name`. -/
def packetAddr (name : String) (buffer : Nat → Byte) (size : Nat) : Option Word :=
  if rspIsPrefix name buffer size then (rspBreakpointAddr buffer size).toOption else none

namespace DebugAction

/-- The address that is set. -/
def sets : DebugAction → Option Word
  | .call (.setBreakpoint addr) => some addr
  | .call _                     => none
  | .packet buffer size         => packetAddr "Z0" buffer size

/-- The address that is cleared. -/
def clears : DebugAction → Option Word
  | .call (.clearBreakpoint addr) => some addr
  | .call _                       => none
  | .packet buffer size           => packetAddr "z0" buffer size

end DebugAction

/-- The number of slots that are not enabled. -/
def freeSlots (s : RV32 σ) : Nat := (Finset.univ.filter fun i : Fin 8 => ¬ bpEnabled s i).card

/-- The step treats the table as a set of addresses. -/
structure ActsOnSet (host : Host σ) (s : RV32 σ) (l : DebugAction) : Prop where
  set_again : ∀ addr, l.sets = some addr → addr ∈ enabledBps s →
    (∀ a, a ∈ enabledBps (debugStep host s l) ↔ a ∈ enabledBps s) ∧
      freeSlots (debugStep host s l) = freeSlots s
  cleared : ∀ addr, l.clears = some addr → (rv32ClearBreakpoint s addr).1 = true →
    addr ∉ enabledBps (debugStep host s l) ∧
      ∀ u, SameTable (debugStep host s l) u → u.pc = addr → ¬ breakpointHit u

/-- The step does not set an address that is enabled, unless no slot is free. -/
def SetsNoneTwice (s : RV32 σ) (l : DebugAction) : Prop :=
  ∀ addr, l.sets = some addr → addr ∈ enabledBps s → freeSlots s = 0

/-! ## What a step does to the table -/

variable (host) in
/-- The effects of a step on the table, with the request they belong to. -/
inductive TableEffect (s : RV32 σ) (l : DebugAction) (t : RV32 σ) : Prop where
  | set (addr : Word) (hsets : l.sets = some addr) (hclears : l.clears = none)
      (ht : SameTable (rv32SetBreakpoint s addr).2 t)
  | clear (addr : Word) (hsets : l.sets = none) (hclears : l.clears = some addr)
      (ht : SameTable (rv32ClearBreakpoint s addr).2 t)
  | keep (hsets : l.sets = none) (hclears : l.clears = none) (ht : SameTable s t)
  | empty (hsets : l.sets = none) (hclears : l.clears = none) (ht : enabledBps t = 0)

theorem SameTable.refl (s : RV32 σ) : SameTable s s := ⟨rfl, rfl⟩

instance : IsPreorder (RV32 σ) SameTable where
  refl := SameTable.refl
  trans _ _ _ h h' := ⟨h'.1.trans h.1, h'.2.trans h.2⟩

/-- The state after a breakpoint packet is the one after its call, if it names an address. -/
theorem rspSoftwareBreakpoint_state (call : RV32 σ → Word → Bool × RV32 σ) (buffer : Nat → Byte)
    (size : Nat) (s : RV32 σ) :
    (rspSoftwareBreakpoint call buffer size s).state =
      match (rspBreakpointAddr buffer size).toOption with
      | some addr => (call s addr).2
      | none      => s := by
  rw [rspSoftwareBreakpoint_run]
  cases rspBreakpointAddr buffer size with
  | error msg => rfl
  | ok addr => rfl

/-- A packet that is no breakpoint packet leaves the table alone or empties it. -/
theorem rspHandlePacket_table (host : Host σ) {buffer : Nat → Byte} {size : Nat}
    (hZ : ¬ rspIsPrefix "Z0" buffer size) (hz : ¬ rspIsPrefix "z0" buffer size) (s : RV32 σ) :
    SameTable s (rspHandlePacket host buffer size s).state ∨
      enabledBps (rspHandlePacket host buffer size s).state = 0 := by
  obtain ⟨p, hp, hdispatched⟩ := exists_dispatched host buffer size
  rw [hp]
  cases hdispatched with
  | constant data _ _ _ _ => exact .inl (rspQuickReply_within (R := SameTable) data s)
  | readRegisters _ =>
      have hread : Within SameTable (rspReadRegistersReply : RspHandler σ) :=
        within_getState.bind fun s => within_reply _
      exact .inl (hread s)
  | writeRegisters _ => exact .inl (rspWriteRegisters_within (fun _ _ _ => ⟨rfl, rfl⟩) s)
  | writeSpecificRegister _ =>
      exact .inl (rspWriteSpecificRegister_within (fun _ _ _ => ⟨rfl, rfl⟩) s)
  | readMemory _ => exact .inl (rspReadMemory_within (fun _ _ _ => ⟨rfl, rfl⟩) s)
  | writeMemory _ => exact .inl (rspWriteMemory_within (fun _ _ => ⟨rfl, rfl⟩) s)
  | setSoftwareBreakpoint h => exact absurd h hZ
  | clearSoftwareBreakpoint h => exact absurd h hz
  | resume _ => exact .inl (rv32Resume_sameTable s)
  | detach _ =>
      refine .inr ?_
      have hstate : (rspDetach s).state = rv32Resume (rv32ClearAllBreakpoints s) := rfl
      rw [hstate, (rv32Resume_sameTable _).enabledBps, rv32ClearAllBreakpoints_enabledBps]
  | kill _ => exact .inr (rv32ClearAllBreakpoints_enabledBps (rv32Reset s))

/-- **One step.** -/
theorem debugStep_tableEffect (hkeep : host.KeepsBreakpoints) (s : RV32 σ) (l : DebugAction) :
    TableEffect s l (debugStep host s l) := by
  cases l with
  | call a =>
      cases a with
      | cycle => exact .keep rfl rfl (rv32Cycle_sameTable hkeep s)
      | resume => exact .keep rfl rfl (rv32Resume_sameTable s)
      | trigger irq => exact .keep rfl rfl (rv32TriggerExternalInterrupt_sameTable s irq)
      | setBreakpoint addr => exact .set addr rfl rfl (SameTable.refl _)
      | clearBreakpoint addr => exact .clear addr rfl rfl (SameTable.refl _)
      | clearAllBreakpoints => exact .empty rfl rfl (rv32ClearAllBreakpoints_enabledBps s)
  | packet buffer size =>
      -- no packet has both prefixes
      have hboth : rspIsPrefix "Z0" buffer size → ¬ rspIsPrefix "z0" buffer size := by
        intro hZ hz
        exact absurd ((hZ.starts (c := 'Z') rfl).unique (hz.starts (c := 'z') rfl)) (by decide)
      by_cases hZ : rspIsPrefix "Z0" buffer size
      · have hclears : DebugAction.clears (.packet buffer size) = none := if_neg (hboth hZ)
        have hsets : DebugAction.sets (.packet buffer size) =
            (rspBreakpointAddr buffer size).toOption := if_pos hZ
        have hstate := rspSoftwareBreakpoint_state rv32SetBreakpoint buffer size s
        rw [debugStep, rspHandlePacket_setSoftwareBreakpoint hZ, rspSetSoftwareBreakpoint, hstate]
        cases haddr : (rspBreakpointAddr buffer size).toOption with
        | none => exact .keep (hsets.trans haddr) hclears (SameTable.refl s)
        | some addr => exact .set addr (hsets.trans haddr) hclears (SameTable.refl _)
      have hsets : DebugAction.sets (.packet buffer size) = none := if_neg hZ
      by_cases hz : rspIsPrefix "z0" buffer size
      · have hclears : DebugAction.clears (.packet buffer size) =
            (rspBreakpointAddr buffer size).toOption := if_pos hz
        have hstate := rspSoftwareBreakpoint_state rv32ClearBreakpoint buffer size s
        rw [debugStep, rspHandlePacket_clearSoftwareBreakpoint hz, rspClearSoftwareBreakpoint, hstate]
        cases haddr : (rspBreakpointAddr buffer size).toOption with
        | none => exact .keep hsets (hclears.trans haddr) (SameTable.refl s)
        | some addr => exact .clear addr hsets (hclears.trans haddr) (SameTable.refl _)
      · have hclears : DebugAction.clears (.packet buffer size) = none := if_neg hz
        rcases rspHandlePacket_table host hZ hz s with hsame | hempty
        · exact .keep hsets hclears hsame
        · exact .empty hsets hclears hempty

section TableEffect

variable {l : DebugAction} {addr : Word}

/-- A step that sets an address has the effect of the call. -/
theorem TableEffect.of_sets (h : TableEffect s l t) (haddr : l.sets = some addr) :
    SameTable (rv32SetBreakpoint s addr).2 t := by
  cases h with
  | set addr' hsets _ ht =>
      obtain rfl := Option.some.inj (haddr.symm.trans hsets)
      exact ht
  | clear _ hsets _ _ => cases haddr.symm.trans hsets
  | keep hsets _ _ => cases haddr.symm.trans hsets
  | empty hsets _ _ => cases haddr.symm.trans hsets

/-- So has a step that clears one. -/
theorem TableEffect.of_clears (h : TableEffect s l t) (haddr : l.clears = some addr) :
    SameTable (rv32ClearBreakpoint s addr).2 t := by
  cases h with
  | clear addr' _ hclears ht =>
      obtain rfl := Option.some.inj (haddr.symm.trans hclears)
      exact ht
  | set _ _ hclears _ => cases haddr.symm.trans hclears
  | keep _ hclears _ => cases haddr.symm.trans hclears
  | empty _ hclears _ => cases haddr.symm.trans hclears

end TableEffect

/-! ## Duplicates -/

theorem freeSlots_add_card (s : RV32 σ) : freeSlots s + (enabledBps s).card = 8 :=
  Slots.card_unused_add_card_contents

/-- The table after a set: the address is added in a free slot, or none is free. -/
theorem set_free_cases (s : RV32 σ) (addr : Word) :
    (0 < freeSlots s ∧ enabledBps (rv32SetBreakpoint s addr).2 = addr ::ₘ enabledBps s) ∨
      (freeSlots s = 0 ∧ rv32SetBreakpoint s addr = (false, s)) := by
  have hs := freeSlots_add_card s
  rcases rv32SetBreakpoint_cases s addr with ⟨-, hset⟩ | ⟨hfail, hcard⟩
  · have ht := freeSlots_add_card (rv32SetBreakpoint s addr).2
    rw [hset, Multiset.card_cons] at ht
    exact .inl ⟨by omega, hset⟩
  · exact .inr ⟨by omega, hfail⟩

/-- A step that sets no address twice adds no duplicate. -/
theorem nodup_debugStep (hkeep : host.KeepsBreakpoints) (s : RV32 σ) (l : DebugAction)
    (hnodup : (enabledBps s).Nodup) (hl : SetsNoneTwice s l) :
    (enabledBps (debugStep host s l)).Nodup := by
  cases debugStep_tableEffect hkeep s l with
  | set addr hsets _ ht =>
      rw [ht.enabledBps]
      rcases set_free_cases s addr with ⟨hfree, hset⟩ | ⟨-, hfail⟩
      · rw [hset, Multiset.nodup_cons]
        refine ⟨fun hmem => ?_, hnodup⟩
        have hfull := hl addr hsets hmem
        omega
      · rw [hfail]
        exact hnodup
  | clear addr _ _ ht =>
      rw [ht.enabledBps]
      rcases rv32ClearBreakpoint_cases s addr with ⟨-, hclear⟩ | ⟨hfail, -⟩
      · rw [hclear] at hnodup
        exact (Multiset.nodup_cons.mp hnodup).2
      · rw [hfail]
        exact hnodup
  | keep _ _ ht =>
      rw [ht.enabledBps]
      exact hnodup
  | empty _ _ ht =>
      rw [ht]
      exact Multiset.nodup_zero

/-- **A step acts on a set** if the table has no duplicates and it makes none. -/
theorem actsOnSet_of_nodup (hkeep : host.KeepsBreakpoints) {s : RV32 σ} {l : DebugAction}
    (hnodup : (enabledBps s).Nodup) (hl : SetsNoneTwice s l) : ActsOnSet host s l := by
  have heffect := debugStep_tableEffect hkeep s l
  constructor
  case set_again =>
    intro addr haddr hmem
    have hfull := hl addr haddr hmem
    have ht := heffect.of_sets haddr
    -- the table is full, so nothing has been done
    rcases set_free_cases s addr with ⟨hfree, -⟩ | ⟨-, hfail⟩
    · omega
    · rw [hfail] at ht
      have hsame : enabledBps (debugStep host s l) = enabledBps s := ht.enabledBps
      have hs := freeSlots_add_card s
      have hcard := freeSlots_add_card (debugStep host s l)
      rw [hsame] at hcard
      exact ⟨fun a => by rw [hsame], by omega⟩
  case cleared =>
    intro addr haddr hok
    -- the one entry of the address is gone
    have hgone : addr ∉ enabledBps (debugStep host s l) := by
      rcases rv32ClearBreakpoint_cases s addr with ⟨-, hclear⟩ | ⟨hfail, -⟩
      · rw [(heffect.of_clears haddr).enabledBps]
        rw [hclear] at hnodup
        exact (Multiset.nodup_cons.mp hnodup).1
      · rw [hfail] at hok
        cases hok
    refine ⟨hgone, fun u hu hpc hhit => hgone ?_⟩
    rw [breakpointHit_iff, hu.enabledBps, hpc] at hhit
    exact hhit

/-- A set of an enabled address in a free slot takes the slot. -/
theorem setsNoneTwice_of_actsOnSet (hkeep : host.KeepsBreakpoints) {s : RV32 σ} {l : DebugAction}
    (h : ActsOnSet host s l) : SetsNoneTwice s l := by
  intro addr haddr hmem
  have hfree := (h.set_again addr haddr hmem).2
  have hsame := (debugStep_tableEffect hkeep s l).of_sets haddr
  rcases set_free_cases s addr with ⟨-, hset⟩ | ⟨hfull, -⟩
  · have hs := freeSlots_add_card s
    have ht := freeSlots_add_card (debugStep host s l)
    rw [hsame.enabledBps, hset, Multiset.card_cons] at ht
    omega
  · exact hfull

/-! ## Histories -/

/-- **Breakpoints are a set**, exactly in the histories from `rv32_new` in which no enabled address is
    set again while a slot is free. -/
theorem breakpoints_set_iff (host : Host σ) (hkeep : host.KeepsBreakpoints) (memory : RV32 σ)
    (memSize : Word) (image : ByteMem.Mem) (ls : List DebugAction) :
    Lts.AllSteps (debugStep host) (ActsOnSet host) (boot memory memSize image) ls ↔
      Lts.AllSteps (debugStep host) SetsNoneTwice (boot memory memSize image) ls := by
  constructor
  · intro h
    exact h.mono fun _ _ => setsNoneTwice_of_actsOnSet hkeep
  · intro h
    have hstart : (enabledBps (boot memory memSize image)).Nodup := by
      have hempty : enabledBps (boot memory memSize image) = 0 :=
        rv32ClearAllBreakpoints_enabledBps (boot memory memSize image)
      rw [hempty]
      exact Multiset.nodup_zero
    -- no step adds a duplicate, and without duplicates every step acts on a set
    have hacts : Lts.AllSteps (debugStep host) (fun s l => SetsNoneTwice s l → ActsOnSet host s l)
        (boot memory memSize image) ls :=
      Lts.AllSteps.of_invariant (fun s l => nodup_debugStep hkeep s l)
        (fun _ _ hnodup => actsOnSet_of_nodup hkeep hnodup) hstart h
    exact (h.and hacts).mono fun _ _ hboth => hboth.2 hboth.1

/-- Setting and clearing one address on the emulator's machine. -/
theorem breakpoints_set_iff_emulator :
    Lts.AllSteps (debugStep emulatorHost) (ActsOnSet emulatorHost) (boot zeroStorage 64 (imageOf []))
      [.call (.setBreakpoint 4), .call (.clearBreakpoint 4)] := by
  refine (breakpoints_set_iff emulatorHost (emulatorHost_within fun _ _ _ => ⟨rfl, rfl⟩) zeroStorage 64
    (imageOf []) [.call (.setBreakpoint 4), .call (.clearBreakpoint 4)]).mpr ⟨?_, ?_, trivial⟩
  · intro addr _ hmem
    have hempty : enabledBps (boot zeroStorage 64 (imageOf [])) = 0 :=
      rv32ClearAllBreakpoints_enabledBps (boot zeroStorage 64 (imageOf []))
    rw [hempty] at hmem
    cases Multiset.notMem_zero _ hmem
  · rintro _ ⟨⟩

/-- Set twice and cleared once, the address is still enabled, and the machine pauses at it. -/
theorem breakpoint_survives_clear :
    (rv32ClearBreakpoint (runActions emulatorHost (boot zeroStorage 64 (imageOf []))
        [.setBreakpoint 0, .setBreakpoint 0]) 0).1 = true ∧
      (runActions emulatorHost (boot zeroStorage 64 (imageOf []))
        [.setBreakpoint 0, .setBreakpoint 0, .clearBreakpoint 0, .resume, .cycle]).status = .paused ∧
      ¬ Lts.AllSteps (debugStep emulatorHost) (ActsOnSet emulatorHost)
        (boot zeroStorage 64 (imageOf []))
        [.call (.setBreakpoint 0), .call (.setBreakpoint 0), .call (.clearBreakpoint 0)] := by
  refine ⟨by decide, by decide, fun h => ?_⟩
  have hhit : breakpointHit (runActions emulatorHost (boot zeroStorage 64 (imageOf []))
      [.setBreakpoint 0, .setBreakpoint 0, .clearBreakpoint 0]) := by decide
  exact (h.2.2.1.cleared 0 rfl (by decide)).2 _ (SameTable.refl _) rfl hhit

end Rv32
