import Mathlib.Data.BitVec
import Mathlib.Data.Nat.Count

/-!
# `Lib.Bits` — single-bit tests, clears and sets on fixed-width words

A C program names one bit of a word by a mask `1 << b` and reads, clears or sets it with `&`, `~` and
`|`. Every lemma here turns one of these idioms into a statement about `getLsbD`, the bit itself, for an
arbitrary width `w`. Nothing here knows what the word means.
-/

namespace Bits

variable {w : Nat}

/-- The mask `1 << b` has bit `b` and no other. -/
theorem getLsbD_mask (b i : Nat) :
    (1#w <<< b).getLsbD i = (decide (b < w) && decide (i = b)) := by
  simp only [BitVec.getLsbD_shiftLeft, BitVec.getLsbD_one]
  by_cases hib : i = b
  · subst hib
    by_cases hw : i < w
    · simp [hw, Nat.zero_lt_of_lt hw]
    · simp [hw]
  · by_cases hlt : i < b
    · simp [hib, hlt]
    · have hpos : i - b ≠ 0 := by omega
      simp [hib, hpos]

/-- A word is nonzero exactly when it has a bit. -/
theorem ne_zero_iff (x : BitVec w) : x ≠ 0 ↔ ∃ i, x.getLsbD i = true := by
  constructor
  · intro hx
    by_contra hnone
    apply hx
    apply BitVec.eq_of_getLsbD_eq
    intro i _
    have hi : ¬ x.getLsbD i = true := fun hi => hnone ⟨i, hi⟩
    simpa using hi
  · rintro ⟨i, hi⟩ rfl
    simp at hi

/-- No carry reaches bit 0. -/
theorem getLsbD_zero_add (x y : BitVec w) :
    (x + y).getLsbD 0 = (x.getLsbD 0 ^^ y.getLsbD 0) := by
  by_cases hw : 0 < w
  · rw [BitVec.getLsbD_add hw, BitVec.carry_zero, Bool.xor_false]
  · have hzero (z : BitVec w) : z.getLsbD 0 = false := BitVec.getLsbD_of_ge z 0 (by omega)
    rw [hzero, hzero, hzero, Bool.xor_false]

/-- **Test.** `x & (1 << b)` is nonzero exactly when bit `b` of `x` is set. -/
theorem and_mask_ne_zero (x : BitVec w) (b : Nat) : x &&& (1#w <<< b) ≠ 0 ↔ x.getLsbD b = true := by
  rw [ne_zero_iff]
  constructor
  · rintro ⟨i, hi⟩
    rw [BitVec.getLsbD_and, getLsbD_mask] at hi
    simp only [Bool.and_eq_true, decide_eq_true_eq] at hi
    obtain ⟨hx, -, rfl⟩ := hi
    exact hx
  · intro hb
    have hbw : b < w := BitVec.lt_of_getLsbD hb
    exact ⟨b, by rw [BitVec.getLsbD_and, getLsbD_mask]; simp [hb, hbw]⟩

/-- **Test, shifted.** `x >> b & 1` is nonzero exactly when bit `b` of `x` is set. -/
theorem shiftRight_and_one_ne_zero (x : BitVec w) (b : Nat) :
    x >>> b &&& 1#w ≠ 0 ↔ x.getLsbD b = true := by
  -- bit `b` of `x` is bit 0 of the shifted word
  have h := and_mask_ne_zero (x >>> b) 0
  rw [show (1#w <<< 0) = 1#w by simp] at h
  rw [h, BitVec.getLsbD_ushiftRight, Nat.add_zero]

/-- **Clear.** `x & ~(1 << b)` drops bit `b` and keeps the others. -/
theorem getLsbD_clear (x : BitVec w) (b i : Nat) :
    (x &&& ~~~(1#w <<< b)).getLsbD i = (x.getLsbD i && !decide (i = b)) := by
  rw [BitVec.getLsbD_and, BitVec.getLsbD_not, getLsbD_mask]
  by_cases hi : i < w
  · by_cases hib : i = b
    · subst hib; simp [hi]
    · simp [hi, hib]
  · simp [BitVec.getLsbD_of_ge x i (by omega)]

/-- **Set.** `x | (1 << b)` adds bit `b` (when the word is that wide) and keeps the others. -/
theorem getLsbD_set (x : BitVec w) (b i : Nat) :
    (x ||| (1#w <<< b)).getLsbD i = (x.getLsbD i || (decide (b < w) && decide (i = b))) := by
  rw [BitVec.getLsbD_or, getLsbD_mask]

/-- **Field.** `x >> k & (2ⁿ - 1)` is the field of `n` bits from bit `k` on. -/
theorem shiftRight_and_low (x : BitVec w) (k n : Nat) :
    x >>> k &&& BitVec.ofNat w (2 ^ n - 1) = (x.extractLsb' k n).setWidth w := by
  apply BitVec.eq_of_getLsbD_eq
  intro i hi
  simp only [BitVec.getLsbD_and, BitVec.getLsbD_ushiftRight, BitVec.getLsbD_ofNat,
    Nat.testBit_two_pow_sub_one, BitVec.getLsbD_setWidth, BitVec.getLsbD_extractLsb', hi,
    decide_true, Bool.true_and]
  exact Bool.and_comm _ _

/-- A field can be compared in any type that holds it. -/
theorem setWidth_inj {n m : Nat} (hn : n ≤ m) (x y : BitVec n) :
    x.setWidth m = y.setWidth m ↔ x = y := by
  constructor
  · intro h
    have hback := congrArg (BitVec.setWidth n) h
    simpa [hn] using hback
  · rintro rfl; rfl

/-- A field of a field. -/
theorem extractLsb'_extractLsb' (x : BitVec w) {k m j n : Nat} (h : j + n ≤ m) :
    (x.extractLsb' k m).extractLsb' j n = x.extractLsb' (k + j) n := by
  apply BitVec.eq_of_getLsbD_eq
  intro i hi
  simp only [BitVec.getLsbD_extractLsb', hi, decide_true, Bool.true_and]
  rw [decide_eq_true (show j + i < m by omega), Bool.true_and, Nat.add_assoc]

/-- The low `n` bits of a word do not need to be masked before they are taken. -/
theorem setWidth_and_low (x : BitVec w) {n : Nat} (hn : n ≤ w) :
    (x &&& BitVec.ofNat w (2 ^ n - 1)).setWidth n = x.setWidth n := by
  apply BitVec.eq_of_getLsbD_eq
  intro i hi
  simp only [BitVec.getLsbD_setWidth, BitVec.getLsbD_and, BitVec.getLsbD_ofNat,
    Nat.testBit_two_pow_sub_one]
  simp [hi, show i < w by omega]

/-- **Field, in place.** A mask of `n` ones at bit `k` keeps the bits from `k` up to `k + n`. -/
theorem getLsbD_and_field (x : BitVec w) (k n i : Nat) :
    (x &&& (BitVec.ofNat w (2 ^ n - 1) <<< k)).getLsbD i =
      (x.getLsbD i && decide (k ≤ i ∧ i < k + n)) := by
  simp only [BitVec.getLsbD_and, BitVec.getLsbD_shiftLeft, BitVec.getLsbD_ofNat,
    Nat.testBit_two_pow_sub_one]
  by_cases hi : i < w
  · by_cases hk : k ≤ i
    · have hsub : i - k < w := by omega
      simp [hi, hk, hsub, Nat.not_lt.mpr hk, show i < k + n ↔ i - k < n by omega]
    · simp [hk, show i < k by omega]
  · simp [BitVec.getLsbD_of_ge x i (by omega)]

/-- **Sign extension.** Testing bit `n - 1` and setting every bit from `n` on is `signExtend`. -/
theorem or_high_if_sign {n : Nat} (x : BitVec n) (hn : 0 < n) (hnw : n ≤ w) :
    (if x.setWidth w &&& (1#w <<< (n - 1)) ≠ 0 then x.setWidth w ||| (BitVec.allOnes w <<< n)
     else x.setWidth w) = x.signExtend w := by
  have hmsb : x.setWidth w &&& (1#w <<< (n - 1)) ≠ 0 ↔ x.msb = true := by
    rw [and_mask_ne_zero, BitVec.getLsbD_setWidth, BitVec.msb_eq_getLsbD_last]
    simp [show n - 1 < w by omega]
  -- below bit `n` both sides are `x`, and from there on both are its sign
  apply BitVec.eq_of_getLsbD_eq
  intro i hi
  rw [BitVec.getLsbD_signExtend]
  by_cases hs : x.msb = true
  · rw [if_pos (hmsb.mpr hs)]
    by_cases hin : i < n
    · simp [hi, hin]
    · simp [hi, hin, hs]
  · rw [if_neg (fun h => hs (hmsb.mp h))]
    by_cases hin : i < n
    · simp [hi, hin]
    · simp [hi, hin, hs, BitVec.getLsbD_of_ge x i (by omega)]

/-- **Sign extension from one bit too few.** Of a word of `n + 1` bits, testing bit `n - 1` gives the sign
    extension exactly when the top two bits agree. -/
theorem or_high_if_bit_below_sign {n : Nat} (x : BitVec (n + 1)) (hnw : n + 1 < w) :
    (if x.setWidth w &&& (1#w <<< (n - 1)) ≠ 0 then x.setWidth w ||| (BitVec.allOnes w <<< n)
     else x.setWidth w) = x.signExtend w ↔ x.getLsbD (n - 1) = x.getLsbD n := by
  have hbit : x.setWidth w &&& (1#w <<< (n - 1)) ≠ 0 ↔ x.getLsbD (n - 1) = true := by
    rw [and_mask_ne_zero, BitVec.getLsbD_setWidth]
    simp [show n - 1 < w by omega]
  have hmsb : x.msb = x.getLsbD n := by rw [BitVec.msb_eq_getLsbD_last, Nat.add_sub_cancel]
  have htop : x.getLsbD (n + 1) = false := BitVec.getLsbD_of_ge x _ (Nat.le_refl _)
  constructor
  · -- the bit above the word shows the difference
    intro h
    have hnext := congrArg (fun y => BitVec.getLsbD y (n + 1)) h
    simp only [BitVec.getLsbD_signExtend, hmsb] at hnext
    by_cases hb : x.getLsbD (n - 1) = true
    · rw [if_pos (hbit.mpr hb)] at hnext
      rw [hb]
      simpa [hnw, show ¬ n + 1 < n by omega] using hnext
    · rw [if_neg (fun h' => hb (hbit.mp h'))] at hnext
      rw [Bool.eq_false_of_not_eq_true hb]
      simpa [hnw, htop] using hnext
  · intro h
    apply BitVec.eq_of_getLsbD_eq
    intro i hi
    rw [BitVec.getLsbD_signExtend, hmsb, ← h]
    by_cases hb : x.getLsbD (n - 1) = true
    · rw [if_pos (hbit.mpr hb)]
      by_cases hin : i < n
      · simp [hi, hin, Nat.lt_succ_of_lt hin]
      · by_cases heq : i = n
        · subst heq
          simp [hi, ← h, hb]
        · simp [hi, hin, hb, show ¬ i < n + 1 by omega]
    · rw [if_neg (fun h' => hb (hbit.mp h')), Bool.eq_false_of_not_eq_true hb]
      by_cases hin : i < n + 1
      · simp [hi, hin]
      · simp [hi, hin, BitVec.getLsbD_of_ge x i (by omega)]

/-- Two words with a common bit have a nonzero conjunction, and conversely. -/
theorem and_ne_zero_iff (x y : BitVec w) :
    x &&& y ≠ 0 ↔ ∃ i, x.getLsbD i = true ∧ y.getLsbD i = true := by
  rw [ne_zero_iff]
  simp only [BitVec.getLsbD_and, Bool.and_eq_true]

/-! ## The lowest bit -/

/-- `i` is the lowest bit of `x`. -/
structure IsLowest (x : BitVec w) (i : Nat) : Prop where
  set : x.getLsbD i = true
  le : ∀ j, x.getLsbD j = true → i ≤ j

theorem IsLowest.unique {x : BitVec w} {i j : Nat} (h : IsLowest x i) (h' : IsLowest x j) : i = j :=
  Nat.le_antisymm (h.le j h'.set) (h'.le i h.set)

/-- Under a mask the lowest bit stays the lowest exactly when the mask has it. -/
theorem IsLowest.and_iff {x m : BitVec w} {i : Nat} (h : IsLowest x i) :
    IsLowest (m &&& x) i ↔ m.getLsbD i = true := by
  constructor
  · intro hand
    have hset := hand.set
    rw [BitVec.getLsbD_and, Bool.and_eq_true] at hset
    exact hset.1
  · intro hm
    constructor
    · rw [BitVec.getLsbD_and, hm, h.set]; rfl
    · intro j hj
      rw [BitVec.getLsbD_and, Bool.and_eq_true] at hj
      exact h.le j hj.2

/-! ## How many bits are set -/

/-- How many bits below `n` are set. -/
def countBelow (x : BitVec w) (n : Nat) : Nat := Nat.count (fun i => x.getLsbD i = true) n

/-- Setting a bit adds at most that bit. -/
theorem countBelow_set_le {x y : BitVec w} {b : Nat}
    (h : ∀ i, y.getLsbD i = (x.getLsbD i || decide (i = b))) (n : Nat) :
    countBelow y n ≤ countBelow x n + if b < n then 1 else 0 := by
  induction n with
  | zero => simp [countBelow]
  | succ n ih =>
      simp only [countBelow, Nat.count_succ, h n] at ih ⊢
      by_cases hb : n = b
      · subst hb
        simp only [Nat.lt_irrefl, if_false] at ih
        simp only [decide_true, Bool.or_true, if_true, Nat.lt_succ_self]
        omega
      · simp only [hb, decide_false, Bool.or_false]
        split_ifs at ih ⊢ <;> omega

/-- Clearing a set bit takes away exactly that bit. -/
theorem countBelow_clear {x y : BitVec w} {b : Nat} (hset : x.getLsbD b = true)
    (h : ∀ i, y.getLsbD i = (x.getLsbD i && !decide (i = b))) (n : Nat) :
    (countBelow y n + if b < n then 1 else 0) = countBelow x n := by
  induction n with
  | zero => simp [countBelow]
  | succ n ih =>
      simp only [countBelow, Nat.count_succ, h n] at ih ⊢
      by_cases hb : n = b
      · subst hb
        simp only [Nat.lt_irrefl, if_false] at ih
        simp only [decide_true, Bool.not_true, Bool.and_false, Bool.false_eq_true, if_false, hset, if_true,
          Nat.lt_succ_self]
        omega
      · simp only [hb, decide_false, Bool.not_false, Bool.and_true]
        split_ifs at ih ⊢ <;> omega

end Bits
