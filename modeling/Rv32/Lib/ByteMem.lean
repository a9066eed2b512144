import Mathlib.Data.BitVec

/-!
# `Lib.ByteMem` — a byte-addressed little-endian memory under mixed-width access

A memory is a function from indices to bytes. `read m a n` assembles the `n` bytes from `a` on with the
least significant byte first, `write m a n v` stores the `n` bytes of `v` there. Any two widths may
overlap in any alignment, so nothing is said about words: a read is characterised by its bytes
(`byteOf_read`), a write by the byte it leaves at each index (`write_apply`).

A `Store` is a write as a value. `apply` performs a list of them in order, and `lastStored` looks a byte
up by scanning that list backwards for the most recent store that covers it; `apply_eq_lastStored` says
the two agree at every index, whatever the overlaps.
-/

namespace ByteMem

/-- A memory. -/
abbrev Mem := Nat → BitVec 8

/-- The `n` bytes from `a` on, least significant first. -/
def read (m : Mem) (a : Nat) : (n : Nat) → BitVec (8 * n)
  | 0     => 0
  | n + 1 => (read m (a + 1) n ++ m a : BitVec (8 * n + 8))

/-- Byte `k` of a value, counted from the least significant. -/
def byteOf {n : Nat} (v : BitVec (8 * n)) (k : Nat) : BitVec 8 := v.extractLsb' (8 * k) 8

/-- The memory with the `n` bytes of `v` stored from `a` on. -/
def write (m : Mem) (a n : Nat) (v : BitVec (8 * n)) : Mem :=
  fun i => if a ≤ i ∧ i < a + n then byteOf v (i - a) else m i

variable {m m' : Mem} {a b n k i : Nat}

theorem write_apply (m : Mem) (a n : Nat) (v : BitVec (8 * n)) (i : Nat) :
    write m a n v i = if a ≤ i ∧ i < a + n then byteOf v (i - a) else m i := rfl

/-- Byte `k` of a read is the byte at index `a + k`. -/
theorem byteOf_read (m : Mem) (a : Nat) (hk : k < n) : byteOf (read m a n) k = m (a + k) := by
  -- the read peels the byte at `a` off; byte `k + 1` is byte `k` of the read from `a + 1`
  induction n generalizing a k with
  | zero => omega
  | succ n ih =>
      cases k with
      | zero =>
          apply BitVec.eq_of_getLsbD_eq
          intro j hj
          simp only [byteOf, read, BitVec.getLsbD_extractLsb', BitVec.getLsbD_append]
          simp [hj]
      | succ k =>
          have hrest : byteOf (read m (a + 1) n) k = m (a + 1 + k) := ih (a + 1) (by omega)
          rw [show a + (k + 1) = a + 1 + k by omega, ← hrest]
          apply BitVec.eq_of_getLsbD_eq
          intro j hj
          simp only [byteOf, read, BitVec.getLsbD_extractLsb', BitVec.getLsbD_append]
          rw [if_neg (show ¬ 8 * (k + 1) + j < 8 by omega),
            show 8 * (k + 1) + j - 8 = 8 * k + j by omega]

/-- A read depends on its own bytes only. -/
theorem read_congr (h : ∀ i, a ≤ i ∧ i < a + n → m' i = m i) : read m' a n = read m a n := by
  induction n generalizing a with
  | zero => rfl
  | succ n ih => rw [read, read, ih fun i hi => h i (by omega), h a (by omega)]

/-! ## Sequences of stores -/

/-- One write: the bytes of `val` at `addr .. addr + len - 1`. -/
structure Store where
  addr : Nat
  len : Nat
  val : BitVec (8 * len)

/-- The indices a store writes. -/
def Store.Covers (st : Store) (i : Nat) : Prop := st.addr ≤ i ∧ i < st.addr + st.len

instance (st : Store) (i : Nat) : Decidable (st.Covers i) := inferInstanceAs (Decidable (_ ∧ _))

/-- Perform the stores in order. -/
def apply (m : Mem) (sts : List Store) : Mem :=
  sts.foldl (fun m st => write m st.addr st.len st.val) m

/-- The byte the most recent covering store left at `i`, if any store covers `i`. -/
def lastStored (sts : List Store) (i : Nat) : Option (BitVec 8) :=
  (sts.reverse.find? fun st => st.Covers i).map fun st => byteOf st.val (i - st.addr)

theorem apply_append (m : Mem) (sts sts' : List Store) :
    apply m (sts ++ sts') = apply (apply m sts) sts' := List.foldl_append

theorem apply_concat (m : Mem) (sts : List Store) (st : Store) :
    apply m (sts ++ [st]) = write (apply m sts) st.addr st.len st.val := by
  rw [apply_append]; rfl

theorem lastStored_concat (sts : List Store) (st : Store) (i : Nat) :
    lastStored (sts ++ [st]) i =
      if st.Covers i then some (byteOf st.val (i - st.addr)) else lastStored sts i := by
  unfold lastStored
  -- the scan goes backwards, so it looks at the appended store first
  rw [List.reverse_append, List.reverse_singleton, List.singleton_append, List.find?_cons]
  by_cases hc : st.Covers i
  · simp [hc]
  · simp [hc]

/-- **Last write wins.** After any stores, the byte at `i` is the one the most recent store covering `i`
    left there, and the original byte when none covers it. -/
theorem apply_eq_lastStored (m : Mem) (sts : List Store) (i : Nat) :
    apply m sts i = (lastStored sts i).getD (m i) := by
  induction sts using List.reverseRecOn with
  | nil => rfl
  | append_singleton sts st ih =>
      rw [apply_concat, lastStored_concat, write_apply]
      by_cases hc : st.Covers i
      · rw [if_pos hc]; exact if_pos hc
      · rw [if_neg hc]; exact (if_neg hc).trans ih

end ByteMem
