import Rv32.Core.Emulator
import Rv32.Rsp.Runs

/-!
# `Correctness.RegisterRoundTrip` — `G` on the reply to `g`

The encoder puts byte `i` of a word at bit `8 * i`, low byte first. The decoder reads the same bytes and
puts byte `i` at bit `4 * i`, so they overlap: `misplaced` is the word it makes. A word survives exactly
when all its bytes but the lowest are zero, and writing back what was read restores a machine exactly when
all of its 33 words are that small.
-/

namespace Rv32

open Prog

variable {σ : Type}

/-! ## One word -/

/-- The word with its byte `i` at bit `4 * i`. -/
def misplaced (w : Word) : Word :=
  [0, 1, 2, 3].foldl
    (fun ret i => ret ||| ((((w >>> (8 * i)) &&& 0xff).setWidth 8 : Byte).setWidth 32 <<< (i * 4))) 0

theorem misplaced_toNat (w : Word) :
    (misplaced w).toNat = w.toNat % 256 ||| w.toNat / 2 ^ 8 % 256 * 2 ^ 4 |||
      w.toNat / 2 ^ 16 % 256 * 2 ^ 8 ||| w.toNat / 2 ^ 24 % 256 * 2 ^ 12 := by
  have hbyte : ∀ i k, k ≤ 12 →
      ((((w >>> i) &&& 0xff).setWidth 8 : Byte).setWidth 32 <<< k).toNat =
        w.toNat / 2 ^ i % 256 * 2 ^ k := by
    intro i k hk
    have hlt : w.toNat / 2 ^ i % 256 < 256 := Nat.mod_lt _ (by decide)
    have hpow : (2 : Nat) ^ k ≤ 2 ^ 12 := Nat.pow_le_pow_right (by decide) hk
    have hmul : w.toNat / 2 ^ i % 256 * 2 ^ k ≤ 256 * 2 ^ 12 :=
      Nat.mul_le_mul (Nat.le_of_lt hlt) hpow
    rw [BitVec.toNat_shiftLeft, BitVec.toNat_setWidth, BitVec.toNat_setWidth, BitVec.toNat_and,
      BitVec.toNat_ushiftRight, Nat.shiftRight_eq_div_pow, show (0xff : Word).toNat = 2 ^ 8 - 1 from rfl,
      Nat.and_two_pow_sub_one_eq_mod, Nat.shiftLeft_eq, Nat.mod_mod,
      Nat.mod_eq_of_lt (Nat.lt_trans hlt (by decide)), Nat.mod_eq_of_lt (by omega)]
  simp only [misplaced, List.foldl_cons, List.foldl_nil, BitVec.toNat_or, hbyte 0 0 (by decide),
    hbyte 8 4 (by decide), hbyte 16 8 (by decide), hbyte 24 12 (by decide), Nat.mul_zero, Nat.zero_mul,
    Nat.mul_one, Nat.one_mul, Nat.pow_zero, Nat.div_one,
    show 8 * 2 = 16 from rfl, show 8 * 3 = 24 from rfl, show 2 * 4 = 8 from rfl,
    show 3 * 4 = 12 from rfl]
  simp

/-- **A word is decoded to itself exactly when it is a byte.** -/
theorem misplaced_eq_iff (w : Word) : misplaced w = w ↔ w.toNat < 256 := by
  rw [← BitVec.toNat_inj, misplaced_toNat]
  have hlt : w.toNat < 2 ^ 32 := w.isLt
  have h0 : w.toNat % 256 < 2 ^ 8 := Nat.mod_lt _ (by decide)
  have h1 : w.toNat / 2 ^ 8 % 256 < 2 ^ 8 := Nat.mod_lt _ (by decide)
  have h2 : w.toNat / 2 ^ 16 % 256 < 2 ^ 8 := Nat.mod_lt _ (by decide)
  have h3 : w.toNat / 2 ^ 24 % 256 < 2 ^ 8 := Nat.mod_lt _ (by decide)
  constructor
  · intro heq
    -- the decoded word has 20 bits, so byte 3 is zero; then it has 16, 12 and at last 8
    have hbits : ∀ n, 8 ≤ n → w.toNat / 2 ^ 8 % 256 * 2 ^ 4 < 2 ^ n →
        w.toNat / 2 ^ 16 % 256 * 2 ^ 8 < 2 ^ n → w.toNat / 2 ^ 24 % 256 * 2 ^ 12 < 2 ^ n →
        w.toNat < 2 ^ n := by
      intro n hn hb1 hb2 hb3
      have hb0 : w.toNat % 256 < 2 ^ n := Nat.lt_of_lt_of_le h0 (Nat.pow_le_pow_right (by decide) hn)
      rw [← heq]
      exact Nat.or_lt_two_pow (Nat.or_lt_two_pow (Nat.or_lt_two_pow hb0 hb1) hb2) hb3
    have h20 : w.toNat < 2 ^ 20 := hbits 20 (by decide) (by omega) (by omega) (by omega)
    have h16 : w.toNat < 2 ^ 16 := hbits 16 (by decide) (by omega) (by omega) (by omega)
    have h12 : w.toNat < 2 ^ 12 := hbits 12 (by decide) (by omega) (by omega) (by omega)
    exact hbits 8 (by decide) (by omega) (by omega) (by omega)
  · intro hsmall
    have hz1 : w.toNat / 2 ^ 8 % 256 = 0 := by omega
    have hz2 : w.toNat / 2 ^ 16 % 256 = 0 := by omega
    have hz3 : w.toNat / 2 ^ 24 % 256 = 0 := by omega
    rw [hz1, hz2, hz3, Nat.mod_eq_of_lt hsmall]
    simp

/-! ## Where the digits stand -/

/-- Element `j` of block `i`, when all blocks have `k` elements. -/
theorem getElem?_flatMap_block {α β : Type} {f : α → List β} {k : Nat} (hf : ∀ a, (f a).length = k)
    (xs : List α) (i : Nat) {j : Nat} (hj : j < k) :
    (xs.flatMap f)[k * i + j]? = xs[i]?.bind fun a => (f a)[j]? := by
  induction xs generalizing i with
  | nil => simp
  | cons x xs ih =>
      cases i with
      | zero =>
          rw [List.flatMap_cons, Nat.mul_zero, Nat.zero_add,
            List.getElem?_append_left (by rw [hf]; exact hj)]
          rfl
      | succ i =>
          have hle : (f x).length ≤ k * (i + 1) + j := by rw [hf, Nat.mul_succ]; omega
          rw [List.flatMap_cons, List.getElem?_append_right hle, hf,
            show k * (i + 1) + j - k = k * i + j by rw [Nat.mul_succ]; omega, ih]
          rfl

/-- The eight digits of `w` stand at `k`. -/
def WordAt (buffer : Nat → Byte) (k : Nat) (w : Word) : Prop :=
  ∀ i < 8, (hexU32 w)[i]? = some (buffer (k + i))

/-- **They decode to the misplaced word.** -/
theorem rspHexToU32_of_wordAt {buffer : Nat → Byte} {k : Nat} {w : Word} (h : WordAt buffer k w) :
    rspHexToU32 buffer k = .ok (misplaced w) := by
  have hpair : ∀ i < 4, HexPair buffer (k + 2 * i) ∧
      hexPairValue buffer (k + 2 * i) = ((w >>> (8 * i)) &&& 0xff).setWidth 8 := by
    intro i hi
    apply hexPair_of_hexU8
    intro j hj
    have hdigit := h (2 * i + j) (by omega)
    have hblock : (hexU32 w)[2 * i + j]? = _ :=
      getElem?_flatMap_block (fun i => hexU8_length _) [0, 8, 16, 24] i hj
    have hbyte : [0, 8, 16, 24][i]? = some (8 * i) := by interval_cases i <;> rfl
    rw [hblock, hbyte, Option.bind_some, List.getElem?_eq_getElem hj] at hdigit
    rw [Nat.add_assoc]
    exact (Option.some.inj hdigit).symm
  have hword : HexWord buffer k := fun i hi => (hpair i hi).1
  rw [rspHexToU32_eq, if_pos hword, hexWordValue, misplaced]
  simp only [List.foldl_cons, List.foldl_nil, (hpair 0 (by decide)).2, (hpair 1 (by decide)).2,
    (hpair 2 (by decide)).2, (hpair 3 (by decide)).2]

/-! ## The register file -/

/-- The payload of a frame. -/
def framePayload (text : List Byte) : List Byte := (text.drop 1).takeWhile (· ≠ char '#')

/-- The payload of the reply `rsp_read_registers` produces. -/
def readReply (s : RV32 σ) : List Byte :=
  match rspReadRegisters s with
  | .ok (_, text) => framePayload text
  | .error _      => []

theorem readReply_eq (s : RV32 σ) : readReply s = registersHex s := by
  simp only [readReply, rspReadRegisters_eq, framePayload, List.cons_append, List.drop_one, List.tail_cons]
  rw [List.takeWhile_append_of_pos]
  · simp
  · intro d hd
    exact decide_eq_true (rspDigits_ne d (registersHex_mem s d hd)).2.1

/-- A `G` packet made of what was read from `s`. -/
def writeBack (s : RV32 σ) (behind : Nat → Byte) : Nat → Byte :=
  packetBuffer (char 'G' :: readReply s) behind

theorem registers_length (s : RV32 σ) :
    ((List.finRange 32).flatMap fun i => hexU32 (s.r i)).length = 256 := by
  simp [List.length_flatMap, hexU32_length]

theorem writeBack_register (s : RV32 σ) (behind : Nat → Byte) (i : Fin 32) :
    WordAt (writeBack s behind) (1 + 8 * i.val) (s.r i) := by
  intro j hj
  have hi : (List.finRange 32)[i.val]? = some i := by simp
  have hblock := getElem?_flatMap_block (fun i => hexU32_length (s.r i)) (List.finRange 32) i.val hj
  rw [hi, Option.bind_some] at hblock
  rw [writeBack, packetBuffer, readReply_eq, show 1 + 8 * i.val + j = 8 * i.val + j + 1 by omega,
    List.getElem?_cons_succ, registersHex,
    List.getElem?_append_left (by rw [registers_length]; omega), hblock]
  have hj' : j < (hexU32 (s.r i)).length := hj
  simp [List.getElem?_eq_getElem hj']

theorem writeBack_pc (s : RV32 σ) (behind : Nat → Byte) :
    WordAt (writeBack s behind) (1 + 8 * 32) s.pc := by
  intro j hj
  have hj' : j < (hexU32 s.pc).length := hj
  rw [writeBack, packetBuffer, readReply_eq, show 1 + 8 * 32 + j = 256 + j + 1 by omega,
    List.getElem?_cons_succ, registersHex,
    List.getElem?_append_right (by rw [registers_length]; omega), registers_length,
    Nat.add_sub_cancel_left]
  simp [List.getElem?_eq_getElem hj']

theorem rspHexToU32_eq_ok {buffer : Nat → Byte} {k : Nat} {w : Word} (h : rspHexToU32 buffer k = .ok w) :
    HexWord buffer k ∧ hexWordValue buffer k = w := by
  rw [rspHexToU32_eq] at h
  split at h
  · exact ⟨‹_›, Except.ok.inj h⟩
  · cases h

/-- **`G` with 33 words** assigns what they decode to, and nothing else. -/
theorem rspWriteRegisters_decodes {buffer : Nat → Byte} {r : Fin 32 → Word} {pc : Word}
    (hr : ∀ i : Fin 32, rspHexToU32 buffer (1 + 8 * i.val) = .ok (r i))
    (hpc : rspHexToU32 buffer (1 + 8 * 32) = .ok pc) (t : RV32 σ) :
    (rspWriteRegisters buffer 265 t).state = { t with r := r, pc := pc } := by
  obtain ⟨m, hm, -, hbad, hrun⟩ := rspWriteRegisters_run buffer t
  -- none of the 33 words stops the loop
  have hall : m = 33 := by
    by_contra hne
    have hlt : m < 33 := by omega
    rcases Nat.lt_succ_iff_lt_or_eq.mp hlt with hreg | rfl
    · exact hbad hlt (rspHexToU32_eq_ok (hr ⟨m, hreg⟩)).1
    · exact hbad hlt (rspHexToU32_eq_ok hpc).1
  subst hall
  rw [hrun, if_pos rfl, RV32.assigned, if_pos (by decide), (rspHexToU32_eq_ok hpc).2]
  have hregisters : (fun j : Fin 32 =>
      if j.val < 33 then hexWordValue buffer (1 + 8 * j.val) else t.r j) = r := by
    funext j
    rw [if_pos (Nat.lt_succ_of_lt j.isLt), (rspHexToU32_eq_ok (hr j)).2]
  rw [hregisters]

theorem rspHexToU32_hexU32_iff (w : Word) (behind : Nat → Byte) :
    rspHexToU32 (packetBuffer (hexU32 w) behind) 0 = .ok w ↔ w.toNat < 256 := by
  have hat : WordAt (packetBuffer (hexU32 w) behind) 0 w := by
    intro i hi
    have hi' : i < (hexU32 w).length := hi
    simp [packetBuffer, List.getElem?_eq_getElem hi']
  rw [rspHexToU32_of_wordAt hat, Except.ok.injEq]
  exact misplaced_eq_iff w

theorem writeBack_restores_iff (host : Host σ) (s t : RV32 σ) (behind : Nat → Byte) :
    (rspHandlePacket host (writeBack s behind) (1 + (readReply s).length) t).state =
        { t with r := s.r, pc := s.pc } ↔
      (∀ i, (s.r i).toNat < 256) ∧ s.pc.toNat < 256 := by
  have hsize : 1 + (readReply s).length = 265 := by rw [readReply_eq, registersHex_length]
  have hstarts : RspStarts 'G' (writeBack s behind) 265 := ⟨by decide, rfl⟩
  have hrun := rspWriteRegisters_decodes
    (fun i => rspHexToU32_of_wordAt (writeBack_register s behind i))
    (rspHexToU32_of_wordAt (writeBack_pc s behind)) t
  rw [hsize, rspHandlePacket_writeRegisters hstarts, hrun]
  constructor
  · intro heq
    refine ⟨fun i => ?_, ?_⟩
    · exact (misplaced_eq_iff _).mp (congrFun (congrArg RV32.r heq) i)
    · exact (misplaced_eq_iff _).mp (congrArg RV32.pc heq)
  · rintro ⟨hr, hpc⟩
    have hr' : (fun i => misplaced (s.r i)) = s.r := funext fun i => (misplaced_eq_iff _).mpr (hr i)
    rw [hr', (misplaced_eq_iff _).mpr hpc]

/-- **Registers, there and back.** The decoder inverts the encoder on a word exactly when the word is less
    than 256. Handing a machine the registers read from another one makes its registers and `pc` equal to
    the other one's, and changes nothing else, exactly when all 33 values are. -/
theorem registers_roundTrip_iff (host : Host σ) :
    (∀ (w : Word) (behind : Nat → Byte),
      rspHexToU32 (packetBuffer (hexU32 w) behind) 0 = .ok w ↔ w.toNat < 256) ∧
    ∀ (s t : RV32 σ) (behind : Nat → Byte),
      (rspHandlePacket host (writeBack s behind) (1 + (readReply s).length) t).state =
          { t with r := s.r, pc := s.pc } ↔
        (∀ i, (s.r i).toNat < 256) ∧ s.pc.toNat < 256 :=
  ⟨rspHexToU32_hexU32_iff, writeBack_restores_iff host⟩

/-- A register that holds `0x1234abcd` is not written back. -/
theorem registers_not_restored :
    ¬ ∀ (s t : RV32 (List Output)) (behind : Nat → Byte),
      (rspHandlePacket emulatorHost (writeBack s behind) (1 + (readReply s).length) t).state =
        { t with r := s.r, pc := s.pc } := by
  intro h
  have hsmall := (writeBack_restores_iff emulatorHost
    { emulatorStart [] with r := fun _ => 0x1234abcd } (emulatorStart []) fun _ => 0).mp (h _ _ _)
  exact absurd (hsmall.1 regA0) (by decide)

/-- The comment of the source says `0x1234abcd` here. -/
example : rspHexToU32 (packetBuffer (cstr "cdab3412") fun _ => 0) 0 = .ok 0x00013efd := by decide

end Rv32
