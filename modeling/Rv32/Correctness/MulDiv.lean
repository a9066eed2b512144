import Rv32.Isa.Refinement

/-!
# `Correctness.MulDiv` — the multiply extension

First the results: eight machines that execute the eight instructions on the same operands leave values
that fit together as products, quotients and remainders. Then the C arithmetic they are computed with:
`mulDivArith` lists the signed operations `mulDivEval` goes through, with the operands they get after the
casts.
-/

namespace Rv32

open Isa

variable {σ : Type} {host : Host σ}

/-! ## The results -/

/-- The values `v` of the eight instructions are products, quotients and remainders of `a` and `b`. -/
structure MulDivLaws (v : RegOp → Word) (a b : Word) : Prop where
  mulhu : v .mulhu ++ v .mul = BitVec.ofInt 64 (a.toNat * b.toNat)
  mulh : v .mulh ++ v .mul = BitVec.ofInt 64 (a.toInt * b.toInt)
  mulhsu : v .mulhsu ++ v .mul = BitVec.ofInt 64 (a.toInt * b.toNat)
  div_rem : a = v .div * b + v .rem
  divu_remu : a = v .divu * b + v .remu
  rem_lt : b ≠ 0 → (v .rem).toInt.natAbs < b.toInt.natAbs
  rem_sign : b ≠ 0 → (v .rem).toInt = 0 ∨ (v .rem).toInt.sign = a.toInt.sign
  remu_lt : b ≠ 0 → (v .remu).toNat < b.toNat
  by_zero : b = 0 → v .div = -1 ∧ v .rem = a ∧ v .divu = -1 ∧ v .remu = a
  overflow : a.toInt = -2 ^ 31 → b.toInt = -1 → v .div = a ∧ v .rem = 0

/-- The laws are about the eight instructions only. -/
theorem MulDivLaws.congr {v v' : RegOp → Word} {a b : Word} (h : MulDivLaws v a b)
    (hv : ∀ op : RegOp, op.funct7 = 0x01 → v' op = v op) : MulDivLaws v' a b := by
  constructor
  · rw [hv .mulhu rfl, hv .mul rfl]; exact h.mulhu
  · rw [hv .mulh rfl, hv .mul rfl]; exact h.mulh
  · rw [hv .mulhsu rfl, hv .mul rfl]; exact h.mulhsu
  · rw [hv .div rfl, hv .rem rfl]; exact h.div_rem
  · rw [hv .divu rfl, hv .remu rfl]; exact h.divu_remu
  · rw [hv .rem rfl]; exact h.rem_lt
  · rw [hv .rem rfl]; exact h.rem_sign
  · rw [hv .remu rfl]; exact h.remu_lt
  · rw [hv .div rfl, hv .rem rfl, hv .divu rfl, hv .remu rfl]; exact h.by_zero
  · rw [hv .div rfl, hv .rem rfl]; exact h.overflow

/-- `mul` is the low word of the product of any readings of its operands. -/
theorem eval_mul_eq {a b : Word} {m n : Int} (ha : BitVec.ofInt 32 m = a) (hb : BitVec.ofInt 32 n = b) :
    RegOp.eval .mul a b = BitVec.ofInt 32 (m * n) := by
  rw [← Words.mul_eq_ofInt ha hb]
  exact (Words.mul_eq_ofInt BitVec.ofInt_toInt BitVec.ofInt_toInt).symm

theorem eval_div_mul_add_rem (a b : Word) :
    a = RegOp.eval .div a b * b + RegOp.eval .rem a b := by
  by_cases hb : b = 0
  · rw [← srem_eval, hb, mul_zero, zero_add]
    exact BitVec.srem_zero.symm
  · simp only [RegOp.eval, if_neg hb]
    conv_rhs => rw [Words.mul_eq_ofInt rfl BitVec.ofInt_toInt, ← BitVec.ofInt_add, Int.tdiv_mul_add_tmod,
      BitVec.ofInt_toInt]

theorem eval_divu_mul_add_remu (a b : Word) :
    a = RegOp.eval .divu a b * b + RegOp.eval .remu a b := by
  by_cases hb : b = 0
  · rw [← umod_eval, hb, mul_zero, zero_add]
    exact BitVec.umod_zero.symm
  · simp only [RegOp.eval, if_neg hb]
    conv_rhs => rw [Words.mul_eq_ofInt rfl (Words.ofInt_toNat b), ← BitVec.ofInt_add,
      Int.ediv_mul_add_emod, Words.ofInt_toNat]

theorem toInt_ne_zero {b : Word} (hb : b ≠ 0) : b.toInt ≠ 0 := by
  intro h
  exact hb (BitVec.eq_of_toInt_eq (h.trans BitVec.toInt_zero.symm))

/-- **The operations of the ISA** fit together. -/
theorem mulDivLaws_eval (a b : Word) : MulDivLaws (fun op => op.eval a b) a b where
  mulhu := by
    rw [eval_mul_eq (Words.ofInt_toNat a) (Words.ofInt_toNat b)]
    exact Words.ofInt_append 32 32 _
  mulh := Words.ofInt_append 32 32 _
  mulhsu := by
    rw [eval_mul_eq BitVec.ofInt_toInt (Words.ofInt_toNat b)]
    exact Words.ofInt_append 32 32 _
  div_rem := eval_div_mul_add_rem a b
  divu_remu := eval_divu_mul_add_remu a b
  rem_lt hb := by
    rw [← srem_eval, BitVec.toInt_srem, Int.natAbs_tmod]
    exact Nat.mod_lt _ (Int.natAbs_pos.mpr (toInt_ne_zero hb))
  rem_sign _ := by
    rw [← srem_eval, BitVec.toInt_srem]
    by_cases hdvd : b.toInt ∣ a.toInt
    · exact .inl (Int.tmod_eq_zero_of_dvd hdvd)
    · exact .inr (by rw [Int.sign_tmod, if_neg hdvd])
  remu_lt hb := by
    rw [← umod_eval, BitVec.toNat_umod]
    apply Nat.mod_lt
    exact Nat.pos_of_ne_zero fun h => hb (BitVec.eq_of_toNat_eq h)
  by_zero hb := by
    rw [← srem_eval, ← umod_eval, hb]
    exact ⟨rfl, BitVec.srem_zero, rfl, BitVec.umod_zero⟩
  overflow ha hb := by
    have ha' : a = 0x80000000 := BitVec.eq_of_toInt_eq ha
    have hb' : b = -1 := BitVec.eq_of_toInt_eq hb
    rw [ha', hb']
    decide

/-- **The multiply extension.** Whatever registers the eight instructions take their operands from and
    write to, their results fit together. -/
theorem mulDiv_laws (host : Host σ) (run : RegOp → RV32 σ) (rd rs1 rs2 : RegOp → BitVec 5) (a b : Word)
    (h : ∀ op : RegOp, op.funct7 = 0x01 →
      Executes host (run op) (Instr.regReg op (rd op) (rs1 op) (rs2 op)).encode ∧ rd op ≠ 0 ∧
        xreg (run op) (rs1 op) = a ∧ xreg (run op) (rs2 op) = b) :
    MulDivLaws (fun op => xreg (rv32Cycle host (run op)) (rd op)) a b := by
  apply (mulDivLaws_eval a b).congr
  intro op hop
  obtain ⟨hexec, hrd, ha, hb⟩ := h op hop
  rw [xreg_regReg hexec hrd, ha, hb]

/-- On the emulator, -7 in `x5` and 2 in `x6`: `mulh` and `mul`, `div` and `rem`. -/
theorem mulDiv_laws_emulator :
    MulDivLaws (fun op => xreg (rv32Cycle emulatorHost
      (operandPair (-7) 2 [(Instr.regReg op 5 5 6).encode])) 5) (-7) 2 := by
  apply mulDiv_laws emulatorHost (fun op => operandPair (-7) 2 [(Instr.regReg op 5 5 6).encode])
    (fun _ => 5) (fun _ => 5) (fun _ => 6)
  intro op _
  refine ⟨executes_emulatorWith _ [] ?_, by decide, rfl, rfl⟩
  cases op <;> decide

/-! ## The signed arithmetic -/

/-- The type holds the result; for a remainder, that of the division. -/
def SignedArith.Defined : SignedArith → Prop
  | .product x y                    => -2 ^ 63 ≤ x.toInt * y.toInt ∧ x.toInt * y.toInt ≤ 2 ^ 63 - 1
  | .quotient x y | .remainder x y  =>
      y.toInt ≠ 0 ∧ -2 ^ 31 ≤ x.toInt.tdiv y.toInt ∧ x.toInt.tdiv y.toInt ≤ 2 ^ 31 - 1

/-- The signed operations the multiply extension evaluates on the values of `rs1` and `rs2`. -/
def mulDivArith (funct3 : BitVec 8) (a b : Word) : List SignedArith :=
  ((mulDivEval funct3 a b).map Evaluated.signedOps).getD []

/-- The word reaches the multiply extension. -/
def IsMulDiv (instr : Word) : Prop := opcode instr = 0x33#8 ∧ funct7 instr = 0x01

instance (instr : Word) : Decidable (IsMulDiv instr) := inferInstanceAs (Decidable (_ ∧ _))

theorem toInt_setWidth_64 (a : Word) : (a.setWidth 64).toInt = a.toNat := by
  have hlt := a.isLt
  rw [BitVec.toInt_setWidth]
  apply Int.bmod_eq_of_le <;> omega

/-- `mulh` multiplies two words, which fits. -/
theorem mulh_defined (a b : Word) :
    (SignedArith.product (a.signExtend 64) (b.signExtend 64)).Defined := by
  have hle := BitVec.toInt_mul_toInt_le (x := a) (y := b)
  have hge := BitVec.le_toInt_mul_toInt (x := a) (y := b)
  simp only [SignedArith.Defined]
  rw [BitVec.toInt_signExtend_of_le (by decide), BitVec.toInt_signExtend_of_le (by decide)]
  omega

/-- `mulhsu` multiplies a word by an unsigned one; the product reaches down to `-2 ^ 63 + 2 ^ 31`. -/
theorem mulhsu_defined (a b : Word) :
    (SignedArith.product (a.signExtend 64) (b.setWidth 64)).Defined := by
  have hlow := BitVec.le_toInt a
  have hhigh := BitVec.toInt_lt (x := a)
  have hb := b.isLt
  have hb0 : (0 : Int) ≤ b.toNat := Int.natCast_nonneg _
  have hge : -2 ^ 31 * (b.toNat : Int) ≤ a.toInt * b.toNat := Int.mul_le_mul_of_nonneg_right hlow hb0
  have hle : a.toInt * b.toNat ≤ (2 ^ 31 - 1) * (b.toNat : Int) :=
    Int.mul_le_mul_of_nonneg_right (by omega) hb0
  simp only [SignedArith.Defined]
  rw [BitVec.toInt_signExtend_of_le (by decide), toInt_setWidth_64]
  omega

/-- `mul` multiplies two unsigned words, which fits up to `2 ^ 63`. -/
theorem mul_defined_iff (a b : Word) :
    (SignedArith.product (a.setWidth 64) (b.setWidth 64)).Defined ↔ a.toNat * b.toNat < 2 ^ 63 := by
  have hnonneg : (0 : Int) ≤ a.toNat * b.toNat :=
    Int.mul_nonneg (Int.natCast_nonneg _) (Int.natCast_nonneg _)
  simp only [SignedArith.Defined]
  rw [toInt_setWidth_64, toInt_setWidth_64]
  constructor
  · rintro ⟨-, h⟩
    have hlt : (a.toNat * b.toNat : Int) < 2 ^ 63 := by omega
    exact_mod_cast hlt
  · intro h
    have hlt : (a.toNat * b.toNat : Int) < 2 ^ 63 := by exact_mod_cast h
    omega

/-- The division is guarded. -/
theorem tdiv_range {a b : Word} (hb : b ≠ 0) (hover : ¬ (a = 0x80000000 ∧ b = -1)) :
    b.toInt ≠ 0 ∧ -2 ^ 31 ≤ a.toInt.tdiv b.toInt ∧ a.toInt.tdiv b.toInt ≤ 2 ^ 31 - 1 := by
  have hsdiv := BitVec.toInt_sdiv_of_ne_or_ne a b (not_and_or.mp hover)
  have hlow := BitVec.le_toInt (a.sdiv b)
  have hhigh := BitVec.toInt_lt (x := a.sdiv b)
  refine ⟨toInt_ne_zero hb, ?_, ?_⟩ <;> omega

/-- The operations of one word are undefined only for `mul`, beyond the range. -/
theorem forall_mulDivArith_iff (funct3 : BitVec 8) (a b : Word) :
    (∀ e ∈ mulDivArith funct3 a b, e.Defined) ↔
      ¬ (funct3 = 0x0#8 ∧ 2 ^ 63 ≤ a.toNat * b.toNat) := by
  have hdivision (e : SignedArith) {v w : Word} (he : b ≠ 0 → ¬ (a = 0x80000000 ∧ b = -1) → e.Defined)
      {c : Evaluated Word} (hc : c.signedOps = [e]) :
      ∀ o ∈ (if b = 0 then .plain v else if a = 0x80000000 ∧ b = -1 then .plain w else c :
        Evaluated Word).signedOps, o.Defined := by
    split_ifs with hb hover
    · exact List.forall_mem_nil _
    · exact List.forall_mem_nil _
    · rw [hc]
      exact List.forall_mem_singleton.mpr (he hb hover)
  unfold mulDivArith mulDivEval
  split
  · simp only [Option.map_some, Option.getD_some, Evaluated.map, SignedArith.evalProduct,
      List.forall_mem_singleton, mul_defined_iff, true_and, Nat.not_le]
  · refine iff_of_true ?_ (fun h => absurd h.1 (by decide))
    exact List.forall_mem_singleton.mpr (mulh_defined a b)
  · refine iff_of_true ?_ (fun h => absurd h.1 (by decide))
    exact List.forall_mem_singleton.mpr (mulhsu_defined a b)
  · exact iff_of_true (List.forall_mem_nil _) (fun h => absurd h.1 (by decide))
  · refine iff_of_true ?_ (fun h => absurd h.1 (by decide))
    exact hdivision (.quotient a b) tdiv_range rfl
  · exact iff_of_true (List.forall_mem_nil _) (fun h => absurd h.1 (by decide))
  · refine iff_of_true ?_ (fun h => absurd h.1 (by decide))
    exact hdivision (.remainder a b) tdiv_range rfl
  · exact iff_of_true (List.forall_mem_nil _) (fun h => absurd h.1 (by decide))
  · rename_i hmul _ _ _ _ _ _ _
    exact iff_of_true (List.forall_mem_nil _) (fun h => hmul h.1)

/-- A word that reaches the multiply extension has a case in it. -/
theorem mulDivEval_funct3 (instr a b : Word) : ∃ e, mulDivEval (funct3 instr) a b = some e := by
  rw [funct3_eq]
  rcases funct3_cases (funct3Of instr) with h | h | h | h | h | h | h | h <;> rw [h] <;> exact ⟨_, rfl⟩

/-- **No undefined arithmetic**, but in `mul`: it multiplies as `int64_t` what `mulhu` multiplies as
    `uint64_t`. So it is for the operations of every case and operands; and a cycle that executes a word of the
    extension writes the value they are evaluated for to `rd`. -/
theorem mulDivArith_defined_iff (host : Host σ) (s : RV32 σ) :
    (∀ (funct3 : BitVec 8) (a b : Word), (∀ e ∈ mulDivArith funct3 a b, e.Defined) ↔
      ¬ (funct3 = 0x0#8 ∧ 2 ^ 63 ≤ a.toNat * b.toNat)) ∧
    ∀ instr u, rv32Fetch host s = (some instr, u) → IsMulDiv instr →
      ∃ e, mulDivEval (funct3 instr) (u.r (rs1 instr)) (u.r (rs2 instr)) = some e ∧
        rv32Cycle host s = u.retire (rd instr) e.value (u.pc + 4) ∧
        ((∀ o ∈ e.signedOps, o.Defined) ↔
          ¬ (funct3 instr = 0x0#8 ∧ 2 ^ 63 ≤ (u.r (rs1 instr)).toNat * (u.r (rs2 instr)).toNat)) := by
  refine ⟨forall_mulDivArith_iff, fun instr u hfetch hmul => ?_⟩
  obtain ⟨e, he⟩ := mulDivEval_funct3 instr (u.r (rs1 instr)) (u.r (rs2 instr))
  refine ⟨e, he, ?_, ?_⟩
  · have hvalue : mulDivResult (funct3 instr) (u.r (rs1 instr)) (u.r (rs2 instr)) = some e.value := by
      rw [mulDivResult, he, Option.map_some]
    have hresult : opResult (funct7 instr) (funct3 instr) (u.r (rs1 instr)) (u.r (rs2 instr)) =
        some e.value := (if_pos hmul.2).trans hvalue
    simp only [rv32Cycle_of_fetch host hfetch, rv32Execute, hmul.1, execOp, hresult]
  · have hops : mulDivArith (funct3 instr) (u.r (rs1 instr)) (u.r (rs2 instr)) = e.signedOps := by
      rw [mulDivArith, he, Option.map_some, Option.getD_some]
    rw [← hops]
    exact forall_mulDivArith_iff _ _ _

/-- On the emulator, `mulh` of -7 and 2 evaluates one product, which is defined. -/
theorem mulDivArith_defined_emulator :
    ∃ e, mulDivEval 0x1#8 (-7) 2 = some e ∧ (∀ o ∈ e.signedOps, o.Defined) ∧
      xreg (rv32Cycle emulatorHost (operandPair (-7) 2 [(Instr.regReg .mulh 5 5 6).encode])) 5 = e.value := by
  have hfetch : (rv32Fetch emulatorHost (operandPair (-7) 2 [(Instr.regReg .mulh 5 5 6).encode])).1 =
      some (Instr.regReg .mulh 5 5 6).encode := by decide
  obtain ⟨e, he, hcycle, hdefined⟩ := (mulDivArith_defined_iff emulatorHost _).2 _ _ (Prod.ext hfetch rfl)
    (by decide)
  refine ⟨e, he, hdefined.mpr (fun h => absurd h.1 (by decide)), ?_⟩
  rw [hcycle]
  rfl

/-- `mul` of 0xFFFFFFFF with itself. -/
theorem mul_overflows : ¬ ∀ e ∈ mulDivArith 0x0#8 0xFFFFFFFF 0xFFFFFFFF, e.Defined := by
  intro h
  have hdefined := h _ (List.mem_singleton.mpr rfl)
  rw [mul_defined_iff] at hdefined
  exact absurd hdefined (by decide)

end Rv32
