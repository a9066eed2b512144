import Mathlib.Data.BitVec
import Mathlib.Data.Int.Basic

/-!
# `Lib.Words` — words as integers

A word of `w` bits is the residue of an integer modulo `2 ^ w` (`BitVec.ofInt w`), and it has two
readings: `toNat` in `[0, 2 ^ w)` and `toInt` in `[-2 ^ (w - 1), 2 ^ (w - 1))`. An operation of a machine
is specified by the integer operation on the readings it takes, and `ofInt` takes the result back.

The three groups of rules are: how a word is cut in two and joined (`ofInt_append`, and the high and low
word of a product); when a word is determined by fewer bits (`signExtend_setWidth_eq_iff`); and how it is
the sum of a rounded upper and a signed lower part (`roundedHigh_add_signedLow`).
-/

namespace Words

variable {v w : Nat}

/-! ## Readings -/

theorem ofInt_toNat_eq_setWidth (v : Nat) (x : BitVec w) : BitVec.ofInt v x.toNat = x.setWidth v := by
  rw [BitVec.ofInt_natCast, BitVec.ofNat_toNat]

theorem ofInt_toNat (x : BitVec w) : BitVec.ofInt w x.toNat = x := by
  rw [ofInt_toNat_eq_setWidth, BitVec.setWidth_eq]

/-- Two integers are the same word exactly when they are congruent. -/
theorem ofInt_eq_ofInt_iff {m n : Int} :
    BitVec.ofInt w m = BitVec.ofInt w n ↔ m % 2 ^ w = n % 2 ^ w := by
  have hpow : (0 : Int) < 2 ^ w := Int.pow_pos (by decide)
  have hm := Int.emod_nonneg m (Int.ne_of_gt hpow)
  have hn := Int.emod_nonneg n (Int.ne_of_gt hpow)
  constructor
  · intro h
    have htoNat := congrArg BitVec.toNat h
    rw [BitVec.toNat_ofInt, BitVec.toNat_ofInt, Nat.cast_pow, Nat.cast_ofNat] at htoNat
    omega
  · intro h
    apply BitVec.eq_of_toNat_eq
    rw [BitVec.toNat_ofInt, BitVec.toNat_ofInt, Nat.cast_pow, Nat.cast_ofNat, h]

/-- A product may be taken in any readings of its factors. -/
theorem mul_eq_ofInt {a b : BitVec w} {m n : Int} (ha : BitVec.ofInt w m = a)
    (hb : BitVec.ofInt w n = b) : a * b = BitVec.ofInt w (m * n) := by
  rw [BitVec.ofInt_mul, ha, hb]

/-! ## Cutting and joining -/

/-- The remainder by a product, in two digits. -/
theorem emod_mul (n : Int) {k l : Int} (hk : 0 < k) (hl : 0 < l) :
    n % (k * l) = n % k + k * (n / k % l) := by
  have hn := Int.mul_ediv_add_emod n k
  have hq := Int.mul_ediv_add_emod (n / k) l
  have hr := Int.emod_lt_of_pos n hk
  have hr0 := Int.emod_nonneg n (Int.ne_of_gt hk)
  have hs := Int.emod_lt_of_pos (n / k) hl
  have hs0 := Int.emod_nonneg (n / k) (Int.ne_of_gt hl)
  -- the right side is in range, and congruent to `n`
  have hlt : n % k + k * (n / k % l) < k * l := by
    have hle : k * (n / k % l + 1) ≤ k * l :=
      Int.mul_le_mul_of_nonneg_left (by omega) (Int.le_of_lt hk)
    rw [Int.mul_add, Int.mul_one] at hle
    omega
  have hpos : 0 ≤ n % k + k * (n / k % l) :=
    Int.add_nonneg hr0 (Int.mul_nonneg (Int.le_of_lt hk) hs0)
  have hsplit : n = n % k + k * (n / k % l) + k * l * (n / k / l) := by
    rw [Int.mul_assoc, Int.add_assoc, ← Int.mul_add, Int.add_comm (n / k % l), hq, Int.add_comm, hn]
  calc n % (k * l) = (n % k + k * (n / k % l) + k * l * (n / k / l)) % (k * l) := by rw [← hsplit]
    _ = (n % k + k * (n / k % l)) % (k * l) := Int.add_mul_emod_self_left _ _ _
    _ = n % k + k * (n / k % l) := Int.emod_eq_of_lt hpos hlt

/-- **A number is its quotient by `2 ^ w`, followed by its low word.** -/
theorem ofInt_append (v w : Nat) (n : Int) :
    BitVec.ofInt v (n / 2 ^ w) ++ BitVec.ofInt w n = BitVec.ofInt (v + w) n := by
  apply BitVec.eq_of_toNat_eq
  have hv : (0 : Int) < 2 ^ v := Int.pow_pos (by decide)
  have hw : (0 : Int) < 2 ^ w := Int.pow_pos (by decide)
  have hlow := Int.emod_nonneg n (Int.ne_of_gt hw)
  have hhigh := Int.emod_nonneg (n / 2 ^ w) (Int.ne_of_gt hv)
  rw [BitVec.toNat_append, ← Nat.shiftLeft_add_eq_or_of_lt (BitVec.isLt _), Nat.shiftLeft_eq]
  simp only [BitVec.toNat_ofInt, Nat.cast_pow, Nat.cast_ofNat]
  rw [Int.pow_add, Int.mul_comm (2 ^ v), emod_mul n hw hv,
    Int.toNat_add hlow (Int.mul_nonneg (Int.le_of_lt hw) hhigh), Int.toNat_mul (Int.le_of_lt hw) hhigh,
    Int.toNat_pow_of_nonneg (by decide), Nat.add_comm, Nat.mul_comm]
  rfl

/-- The low word of a number. -/
theorem setWidth_ofInt (h : w ≤ v) (n : Int) :
    (BitVec.ofInt v n).setWidth w = BitVec.ofInt w n := by
  obtain ⟨k, rfl⟩ := Nat.exists_eq_add_of_le' h
  rw [← ofInt_append k w n, BitVec.setWidth_eq_extractLsb' h, BitVec.extractLsb'_append_eq_right]

/-- The high word of a number. -/
theorem setWidth_ofInt_shiftRight (v w : Nat) (n : Int) :
    (BitVec.ofInt (v + w) n >>> w).setWidth v = BitVec.ofInt v (n / 2 ^ w) := by
  rw [BitVec.setWidth_ushiftRight_eq_extractLsb, ← ofInt_append v w n, BitVec.extractLsb'_append_eq_left]

/-- An arithmetic shift and a logical one have the same high word. -/
theorem setWidth_sshiftRight (x : BitVec (v + w)) :
    (x.sshiftRight w).setWidth v = (x >>> w).setWidth v := by
  apply BitVec.eq_of_getLsbD_eq
  intro i hi
  rw [BitVec.getLsbD_setWidth, BitVec.getLsbD_setWidth, BitVec.getLsbD_sshiftRight,
    BitVec.getLsbD_ushiftRight, if_pos (show w + i < v + w by omega)]
  simp [show ¬ v + w ≤ i by omega]

/-! ## Fewer bits -/

/-- **A word is the sign extension of its low `n` bits** exactly when its signed reading fits them. -/
theorem signExtend_setWidth_eq_iff {n : Nat} (x : BitVec w) (hn : 0 < n) (hnw : n ≤ w) :
    (x.setWidth n).signExtend w = x ↔ -2 ^ (n - 1) ≤ x.toInt ∧ x.toInt < 2 ^ (n - 1) := by
  constructor
  · intro h
    rw [← h, BitVec.toInt_signExtend_of_le hnw]
    exact ⟨BitVec.le_toInt _, BitVec.toInt_lt⟩
  · rintro ⟨hlow, hhigh⟩
    apply BitVec.eq_of_toInt_eq
    have hx : x.setWidth n = BitVec.ofInt n x.toInt := by
      rw [← setWidth_ofInt hnw, BitVec.ofInt_toInt]
    rw [BitVec.toInt_signExtend_of_le hnw, hx, BitVec.toInt_ofInt_eq_self hn hlow hhigh]

/-- The top two bits of a word agree exactly when its signed reading fits one bit less. -/
theorem getLsbD_below_sign_iff {n : Nat} (x : BitVec (n + 1)) (hn : 0 < n) :
    x.getLsbD (n - 1) = x.getLsbD n ↔ -2 ^ (n - 1) ≤ x.toInt ∧ x.toInt < 2 ^ (n - 1) := by
  have hmsb : (x.setWidth n).msb = x.getLsbD (n - 1) := by
    rw [BitVec.msb_eq_getLsbD_last, BitVec.getLsbD_setWidth, decide_eq_true (by omega), Bool.true_and]
  rw [← signExtend_setWidth_eq_iff x hn (Nat.le_succ n)]
  constructor
  · intro h
    apply BitVec.eq_of_getLsbD_eq
    intro i hi
    rw [BitVec.getLsbD_signExtend, hmsb, decide_eq_true hi, Bool.true_and]
    by_cases hin : i < n
    · rw [if_pos hin, BitVec.getLsbD_setWidth, decide_eq_true hin, Bool.true_and]
    · rw [if_neg hin, h, show i = n by omega]
  · intro h
    have htop := congrArg (fun y => BitVec.getLsbD y n) h
    simp only [BitVec.getLsbD_signExtend, Nat.lt_irrefl, if_false, hmsb] at htop
    rwa [decide_eq_true (Nat.lt_succ_self n), Bool.true_and] at htop

/-- An even number in range is the sign extension of its half, followed by a zero. -/
theorem signExtend_half_append {n : Int} (hw : 0 < w) (heven : n % 2 = 0) (hlow : -2 ^ w ≤ n)
    (hhigh : n < 2 ^ w) :
    (BitVec.ofInt w (n / 2) ++ 0#1).signExtend v = BitVec.ofInt v n := by
  have hpow : (2 : Int) ^ w = 2 * 2 ^ (w - 1) := by
    rw [← Int.pow_succ', Nat.sub_add_cancel hw]
  have hhalf : (BitVec.ofInt w (n / 2)).toInt = n / 2 := by
    apply BitVec.toInt_ofInt_eq_self hw <;> omega
  rw [BitVec.signExtend, BitVec.toInt_append_zero, hhalf, Int.pow_one,
    Int.mul_ediv_cancel' (Int.dvd_of_emod_eq_zero heven)]

/-! ## Upper and lower part -/

/-- Dividing with the remainder closest to zero rounds the quotient. -/
theorem bmod_eq_sub_rounded (n : Int) {k : Nat} (hk : 0 < k) :
    n.bmod (2 * k) = n - 2 * k * ((n + k) / (2 * k)) := by
  have hpos : (0 : Int) < 2 * k := by omega
  have hdiv := Int.mul_ediv_add_emod n (2 * k)
  have hr0 := Int.emod_nonneg n (Int.ne_of_gt hpos)
  have hr := Int.emod_lt_of_pos n hpos
  have hhalf : ((2 * k : Int) + 1) / 2 = k := by omega
  rw [Int.bmod_def, Nat.cast_mul, Nat.cast_ofNat, hhalf]
  split
  · -- below the half the quotient stays
    have hq : (n + k) / (2 * k) = n / (2 * k) := by
      refine ((Int.ediv_emod_unique hpos (r := n % (2 * k) + k)).mpr ⟨?_, ?_, ?_⟩).1 <;> omega
    rw [hq]
    omega
  · have hq : (n + k) / (2 * k) = n / (2 * k) + 1 := by
      refine ((Int.ediv_emod_unique hpos (r := n % (2 * k) - k)).mpr ⟨?_, ?_, ?_⟩).1
      · rw [Int.mul_add]; omega
      · omega
      · omega
    rw [hq, Int.mul_add]
    omega

/-- A word followed by zeros is a multiple. -/
theorem ofInt_append_zero (v n : Nat) (q : Int) :
    BitVec.ofInt v q ++ 0#n = BitVec.ofInt (v + n) (2 ^ n * q) := by
  have hpow : (2 ^ n : Int) ≠ 0 := Int.ne_of_gt (Int.pow_pos (by decide))
  have hlow : BitVec.ofInt n (2 ^ n * q) = 0#n := by
    rw [show 0#n = BitVec.ofInt n 0 from rfl, ofInt_eq_ofInt_iff, Int.mul_emod_right, Int.zero_emod]
  rw [← ofInt_append v n, Int.mul_ediv_cancel_left q hpow, hlow]

/-- **Upper and lower part.** A word is its upper part, rounded, plus its lower part as a signed number. -/
theorem roundedHigh_add_signedLow {n : Nat} (hn : 0 < n) (x : BitVec (v + n)) :
    (((x + BitVec.ofNat (v + n) (2 ^ (n - 1))) >>> n).setWidth v ++ 0#n) +
      (x.setWidth n).signExtend (v + n) = x := by
  have hhalf : 2 ^ n = 2 * 2 ^ (n - 1) := by
    rw [← Nat.pow_succ', Nat.succ_eq_add_one, Nat.sub_add_cancel hn]
  have hsum : x + BitVec.ofNat (v + n) (2 ^ (n - 1)) =
      BitVec.ofInt (v + n) (x.toNat + (2 ^ (n - 1) : Nat)) := by
    rw [BitVec.ofInt_add, ofInt_toNat, BitVec.ofInt_natCast]
  have hlow : (x.setWidth n).signExtend (v + n) =
      BitVec.ofInt (v + n) ((x.toNat : Int).bmod (2 * 2 ^ (n - 1))) := by
    rw [BitVec.signExtend, BitVec.toInt_setWidth, hhalf]
  rw [hsum, setWidth_ofInt_shiftRight, ofInt_append_zero, hlow, ← BitVec.ofInt_add,
    bmod_eq_sub_rounded _ (Nat.pow_pos (by decide))]
  conv_rhs => rw [← ofInt_toNat x]
  congr 1
  have hpow : (2 ^ n : Int) = 2 * ((2 ^ (n - 1) : Nat) : Int) := by exact_mod_cast hhalf
  rw [hpow]
  omega

end Words
