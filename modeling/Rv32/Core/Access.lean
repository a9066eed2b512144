import Rv32.Core.Memory
import Rv32.Lib.Lts

/-!
# `Core.Access` — calls of the memory helpers, alone and in sequence

An `Access` is one call of one of the six helpers. For a RAM that holds at least one word the bounds test
is the intended one, so a call falls either into the RAM or outside it: the `_inside` and `_outside`
lemmas give what each does, and `execAll_ram` puts a whole sequence of calls down to the stores of it that
fall into the RAM.
-/

namespace Rv32

variable {σ : Type} {host : Host σ}

/-! ## One helper, inside and outside the RAM -/

section Helper

variable {s : RV32 σ} {n : Nat} {addr : Word} {val : BitVec (8 * n)}
  {onLoad : Option (BitVec (8 * n)) × RV32 σ} {onStore : Rv32Result × RV32 σ}

theorem rv32LoadOr_inside (hn : 0 < n) (h : addr.toNat + n ≤ s.memSize.toNat) :
    rv32LoadOr host s n onLoad addr =
      (some (ByteMem.read s.mem.bytes addr.toNat n), s.touch addr n) :=
  if_pos ((ramGuard_iff hn (by omega) addr).mpr h)

theorem rv32LoadOr_outside (hn : 0 < n) (hfits : n ≤ s.memSize.toNat)
    (h : s.memSize.toNat < addr.toNat + n) : rv32LoadOr host s n onLoad addr = onLoad :=
  if_neg fun hg => Nat.not_le.mpr h ((ramGuard_iff hn hfits addr).mp hg)

theorem rv32StoreOr_inside (hn : 0 < n) (h : addr.toNat + n ≤ s.memSize.toNat) :
    rv32StoreOr host s n onStore addr val =
      (.ok, { s.touch addr n with
              mem.bytes := ByteMem.write s.mem.bytes addr.toNat n val }) :=
  if_pos ((ramGuard_iff hn (by omega) addr).mpr h)

theorem rv32StoreOr_outside (hn : 0 < n) (hfits : n ≤ s.memSize.toNat)
    (h : s.memSize.toNat < addr.toNat + n) : rv32StoreOr host s n onStore addr val = onStore :=
  if_neg fun hg => Nat.not_le.mpr h ((ramGuard_iff hn hfits addr).mp hg)

end Helper

/-! ## Calls as values -/

/-- A call of `rv32_load8/16/32` or `rv32_store8/16/32`. -/
inductive Access where
  | load8 (addr : Word)
  | load16 (addr : Word)
  | load32 (addr : Word)
  | store8 (addr : Word) (val : BitVec 8)
  | store16 (addr : Word) (val : BitVec 16)
  | store32 (addr : Word) (val : BitVec 32)
  deriving DecidableEq, Repr

namespace Access

def addr : Access → Word
  | .load8 a | .load16 a | .load32 a | .store8 a _ | .store16 a _ | .store32 a _ => a

def width : Access → Nat
  | .load8 _ | .store8 _ _   => 1
  | .load16 _ | .store16 _ _ => 2
  | .load32 _ | .store32 _ _ => 4

/-- All the bytes of the access lie in the RAM. -/
def InRam (memSize : Word) (a : Access) : Prop := a.addr.toNat + a.width ≤ memSize.toNat

instance (memSize : Word) (a : Access) : Decidable (a.InRam memSize) :=
  inferInstanceAs (Decidable (_ ≤ _))

variable (host) in
/-- The machine after the call. -/
def exec (s : RV32 σ) : Access → RV32 σ
  | .load8 a      => (rv32Load8 host s a).2
  | .load16 a     => (rv32Load16 host s a).2
  | .load32 a     => (rv32Load32 host s a).2
  | .store8 a v   => (rv32Store8 host s a v).2
  | .store16 a v  => (rv32Store16 host s a v).2
  | .store32 a v  => (rv32Store32 host s a v).2

/-- The write a call asks for. -/
def stored : Access → Option ByteMem.Store
  | .store8 a v  => some ⟨a.toNat, 1, v⟩
  | .store16 a v => some ⟨a.toNat, 2, v⟩
  | .store32 a v => some ⟨a.toNat, 4, v⟩
  | _            => none

/-- The write a call performs on a RAM of `memSize` bytes. -/
def ramStore (memSize : Word) (a : Access) : Option ByteMem.Store :=
  if a.InRam memSize then a.stored else none

/-- What the call does when the bounds test succeeds. -/
def inside (s : RV32 σ) (a : Access) : RV32 σ :=
  match a.stored with
  | none    => s.touch a.addr a.width
  | some st =>
      { s.touch a.addr a.width with mem.bytes := ByteMem.write s.mem.bytes st.addr st.len st.val }

variable (host) in
/-- Where the call goes when it fails: the interrupt controller's word, or the callback. -/
def outside (s : RV32 σ) : Access → RV32 σ
  | .load8 a     => (host.mmioLoad8 s a).2
  | .load16 a    => (host.mmioLoad16 s a).2
  | .load32 a    => if a = rv32InterruptControllerAddress then s else (host.mmioLoad32 s a).2
  | .store8 a v  => (host.mmioStore8 s a v).2
  | .store16 a v => (host.mmioStore16 s a v).2
  | .store32 a v =>
      if a = rv32InterruptControllerAddress then { s with interruptController.ie := v }
      else (host.mmioStore32 s a v).2

theorem width_pos (a : Access) : 0 < a.width := by
  cases a <;> exact Nat.succ_pos _

theorem width_le (a : Access) : a.width ≤ 4 := by
  cases a <;> simp [width]

/-- **The six helpers are one.** -/
theorem exec_eq (s : RV32 σ) (a : Access) :
    a.exec host s =
      if ramGuard host s.memSize a.width a.addr then a.inside s else a.outside host s := by
  cases a with
  | load8 a => exact apply_ite Prod.snd _ _ _
  | load16 a => exact apply_ite Prod.snd _ _ _
  | load32 a =>
      -- the 32-bit helpers have a second test, for the interrupt controller's word
      refine (apply_ite Prod.snd _ _ _).trans (if_congr Iff.rfl rfl ?_)
      exact apply_ite Prod.snd _ _ _
  | store8 a v => exact apply_ite Prod.snd _ _ _
  | store16 a v => exact apply_ite Prod.snd _ _ _
  | store32 a v =>
      refine (apply_ite Prod.snd _ _ _).trans (if_congr Iff.rfl rfl ?_)
      exact apply_ite Prod.snd _ _ _

/-- The same with the bounds in unbounded arithmetic, for a RAM of at least a word. -/
theorem exec_eq_of_le {s : RV32 σ} (hsize : 4 ≤ s.memSize.toNat) (a : Access) :
    a.exec host s = if a.InRam s.memSize then a.inside s else a.outside host s := by
  have hfits : a.width ≤ s.memSize.toNat := Nat.le_trans a.width_le hsize
  rw [exec_eq]
  exact if_congr (ramGuard_iff a.width_pos hfits a.addr) rfl rfl

/-- Outside the RAM a call is within any relation that contains the callbacks and the write of `ie`. -/
theorem outside_rel {R : RV32 σ → RV32 σ → Prop} (hmmio : host.MmioRel R) (hrefl : ∀ s, R s s)
    (hie : ∀ s ie, R s { s with interruptController.ie := ie }) (s : RV32 σ) (a : Access) :
    R s (a.outside host s) := by
  cases a with
  | load8 a => exact hmmio.load8 s a
  | load16 a => exact hmmio.load16 s a
  | load32 a =>
      simp only [outside]
      split
      · exact hrefl s
      · exact hmmio.load32 s a
  | store8 a v => exact hmmio.store8 s a v
  | store16 a v => exact hmmio.store16 s a v
  | store32 a v =>
      simp only [outside]
      split
      · exact hie s v
      · exact hmmio.store32 s a v

/-! ## Sequences of calls -/

variable (host) in
/-- The machine after the calls `as`. -/
abbrev execAll (s : RV32 σ) (as : List Access) : RV32 σ := Lts.run (exec host) s as

/-- The byte at index `i` after the calls `as`: the one most recently stored there, and the initial one
    when none was. -/
def lastByte (s : RV32 σ) (as : List Access) (i : Nat) : BitVec 8 :=
  (ByteMem.lastStored (as.filterMap (ramStore s.memSize)) i).getD (s.mem.bytes i)

/-- The calls keep the size of the RAM and its bytes outside the write of the call. -/
theorem exec_ram (hpure : host.MmioPure) {s : RV32 σ} (hsize : 4 ≤ s.memSize.toNat) (a : Access) :
    (a.exec host s).memSize = s.memSize ∧
      (a.exec host s).mem.bytes =
        ByteMem.apply s.mem.bytes ((a.ramStore s.memSize).toList) := by
  have hmmio : host.MmioRel fun s t => t.memSize = s.memSize ∧ t.mem.bytes = s.mem.bytes :=
    hpure.mono fun _ _ ⟨_, heq⟩ => by rw [heq]; exact ⟨rfl, rfl⟩
  have hout : (a.outside host s).memSize = s.memSize ∧ (a.outside host s).mem.bytes = s.mem.bytes :=
    outside_rel hmmio (fun _ => ⟨rfl, rfl⟩) (fun _ _ => ⟨rfl, rfl⟩) s a
  rw [exec_eq_of_le hsize, ramStore]
  by_cases hin : a.InRam s.memSize
  · rw [if_pos hin, if_pos hin, inside]
    cases a.stored with
    | none => exact ⟨rfl, rfl⟩
    | some st => exact ⟨rfl, rfl⟩
  · rw [if_neg hin, if_neg hin]
    exact hout

/-- **The RAM after any calls.** -/
theorem execAll_ram (hpure : host.MmioPure) {s : RV32 σ} (hsize : 4 ≤ s.memSize.toNat)
    (as : List Access) :
    (execAll host s as).memSize = s.memSize ∧ (execAll host s as).mem.bytes = lastByte s as := by
  suffices h : (execAll host s as).memSize = s.memSize ∧
      (execAll host s as).mem.bytes = ByteMem.apply s.mem.bytes (as.filterMap (ramStore s.memSize)) by
    exact ⟨h.1, h.2.trans (funext fun i => ByteMem.apply_eq_lastStored _ _ i)⟩
  -- on the calls from the last one back, because the size of the RAM is the one of the state before it
  induction as using List.reverseRecOn with
  | nil => exact ⟨rfl, rfl⟩
  | append_singleton as a ih =>
      obtain ⟨hmem, hbytes⟩ := ih
      have hstep := exec_ram hpure (s := execAll host s as) (hmem ▸ hsize) a
      rw [hmem, hbytes] at hstep
      rw [execAll, Lts.run_concat]
      refine ⟨hstep.1, hstep.2.trans ?_⟩
      rw [List.filterMap_append, ByteMem.apply_append]
      cases h : a.ramStore s.memSize <;> simp [h]

end Access

end Rv32
