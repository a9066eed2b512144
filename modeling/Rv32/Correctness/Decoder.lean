import Rv32.Core.Effect
import Rv32.Core.Emulator
import Rv32.Isa.Instr

/-!
# `Correctness.Decoder` — the words the `switch` accepts against the words the ISA defines

`Accepted` is what the nested `switch`es of `rv32_cycle` look at, opcode by opcode, and
`rv32Execute_invalid_iff` says that `RV32_INVALID_INSTRUCTION` is set for the other words and no more.
`Legal` is what the ISA looks at. The two differ on five kinds of words, `DecodedWrongly`: FENCE, and
four fields that the code does not check.
-/

namespace Rv32

open Isa

variable {σ : Type} {host : Host σ} {s t : RV32 σ}

/-- What of a word the `switch` checks. -/
def Accepted (w : Word) : Prop :=
  match opcodeOf w with
  | 0x33#7 => funct7Of w = 0x01#7 ∨
      (funct3Of w = 0x0#3 ∨ funct3Of w = 0x5#3 → funct7Of w = 0x00#7 ∨ funct7Of w = 0x20#7)
  | 0x13#7 => funct3Of w = 0x5#3 → funct7Of w = 0x00#7 ∨ funct7Of w = 0x20#7
  | 0x03#7 => funct3Of w ∈ [0x0#3, 0x1#3, 0x2#3, 0x4#3, 0x5#3]
  | 0x23#7 => funct3Of w ∈ [0x0#3, 0x1#3, 0x2#3]
  | 0x63#7 => funct3Of w ∈ [0x0#3, 0x1#3, 0x4#3, 0x5#3, 0x6#3, 0x7#3]
  | 0x6f#7 | 0x67#7 | 0x37#7 | 0x17#7 => True
  | 0x73#7 =>
      if funct3Of w = 0x0#3 then immIOf w ∈ [0x000#12, 0x001#12, 0x302#12, 0x105#12]
      else funct3Of w ≠ 0x4#3
  | _ => False

/-- The kinds of words on which the `switch` and the ISA differ. -/
def DecodedWrongly (w : Word) : Prop :=
  match opcodeOf w with
  | 0x0f#7 => funct3Of w = 0x0#3                                            -- fence
  | 0x33#7 => funct3Of w ∉ [0x0#3, 0x5#3] ∧ funct7Of w ∉ [0x00#7, 0x01#7]   -- xor, or, and, sll, slt(u)
  | 0x13#7 => funct3Of w = 0x1#3 ∧ funct7Of w ≠ 0x00#7                      -- slli
  | 0x67#7 => funct3Of w ≠ 0x0#3                                            -- jalr
  | 0x73#7 =>                                                               -- ecall, ebreak, mret, wfi
      funct3Of w = 0x0#3 ∧ immIOf w ∈ [0x000#12, 0x001#12, 0x302#12, 0x105#12] ∧
        (rdOf w ≠ 0 ∨ rs1Of w ≠ 0)
  | _ => False

/-! ## The inner switches, field by field -/

section Switches

variable (f7 : BitVec 7) (f3 : BitVec 3) (a b : Word)

theorem mulDivResult_ne_none : mulDivResult (f3.setWidth 8) a b ≠ none := by
  rcases funct3_cases f3 with rfl | rfl | rfl | rfl | rfl | rfl | rfl | rfl <;>
    simp [mulDivResult, mulDivEval]

theorem opResult_eq_none_iff :
    opResult (f7.setWidth 8) (f3.setWidth 8) a b = none ↔
      ¬ (f7 = 0x01#7 ∨ (f3 = 0x0#3 ∨ f3 = 0x5#3 → f7 = 0x00#7 ∨ f7 = 0x20#7)) := by
  have h1 : f7.setWidth 8 = 0x01 ↔ f7 = 0x01#7 := Bits.setWidth_inj (by decide) f7 0x01
  have h0 : f7.setWidth 8 = 0x00 ↔ f7 = 0x00#7 := Bits.setWidth_inj (by decide) f7 0x00
  have h20 : f7.setWidth 8 = 0x20 ↔ f7 = 0x20#7 := Bits.setWidth_inj (by decide) f7 0x20
  unfold opResult
  simp only [h1, h0, h20]
  by_cases hm : f7 = 0x01#7
  · rw [if_pos hm]
    exact iff_of_false (mulDivResult_ne_none f3 a b) (not_not.mpr (.inl hm))
  rw [if_neg hm]
  by_cases hbase : f7 = 0x00#7 ∨ f7 = 0x20#7
  · rcases funct3_cases f3 with rfl | rfl | rfl | rfl | rfl | rfl | rfl | rfl <;>
      rcases hbase with rfl | rfl <;> simp
  · obtain ⟨hn0, hn20⟩ := not_or.mp hbase
    rcases funct3_cases f3 with rfl | rfl | rfl | rfl | rfl | rfl | rfl | rfl <;>
      simp [hm, hn0, hn20]

theorem opImmResult_eq_none_iff (w : Word) :
    opImmResult w a = none ↔
      ¬ (funct3Of w = 0x5#3 → funct7Of w = 0x00#7 ∨ funct7Of w = 0x20#7) := by
  have h0 : (funct7Of w).setWidth 8 = 0x00 ↔ funct7Of w = 0x00#7 := Bits.setWidth_inj (by decide) _ 0x00
  have h20 : (funct7Of w).setWidth 8 = 0x20 ↔ funct7Of w = 0x20#7 := Bits.setWidth_inj (by decide) _ 0x20
  unfold opImmResult
  rw [funct3_eq, funct7_eq]
  simp only [h0, h20]
  by_cases hz : funct7Of w = 0x00#7
  · rcases funct3_cases (funct3Of w) with h | h | h | h | h | h | h | h <;> simp [h, hz]
  · by_cases ha : funct7Of w = 0x20#7
    · rcases funct3_cases (funct3Of w) with h | h | h | h | h | h | h | h <;> simp [h, ha]
    · rcases funct3_cases (funct3Of w) with h | h | h | h | h | h | h | h <;> simp [h, hz, ha]

theorem branchTaken_eq_none_iff :
    branchTaken (f3.setWidth 8) a b = none ↔
      f3 ∉ [0x0#3, 0x1#3, 0x4#3, 0x5#3, 0x6#3, 0x7#3] := by
  rcases funct3_cases f3 with rfl | rfl | rfl | rfl | rfl | rfl | rfl | rfl <;> simp [branchTaken]

theorem csrWriteValue_eq_none_iff (rVal : Word) :
    csrWriteValue (f3.setWidth 8) rVal a b = none ↔ f3 = 0x0#3 ∨ f3 = 0x4#3 := by
  rcases funct3_cases f3 with rfl | rfl | rfl | rfl | rfl | rfl | rfl | rfl <;> simp [csrWriteValue]

theorem loadAccess_eq_none_iff (s : RV32 σ) (w : Word) :
    loadAccess host s w = none ↔ funct3Of w ∉ [0x0#3, 0x1#3, 0x2#3, 0x4#3, 0x5#3] := by
  unfold loadAccess
  rw [funct3_eq]
  rcases funct3_cases (funct3Of w) with h | h | h | h | h | h | h | h <;> simp [h]

theorem storeAccess_eq_none_iff (s : RV32 σ) (w : Word) :
    storeAccess host s w = none ↔ funct3Of w ∉ [0x0#3, 0x1#3, 0x2#3] := by
  unfold storeAccess
  rw [funct3_eq]
  rcases funct3_cases (funct3Of w) with h | h | h | h | h | h | h | h <;> simp [h]

end Switches

/-! ## The cases of the `switch` -/

/-- The functions of the embedding program do not set `RV32_INVALID_INSTRUCTION`. -/
def Host.NeverInvalid (host : Host σ) : Prop :=
  host.Within fun s t => s.status ≠ .invalidInstruction → t.status ≠ .invalidInstruction

theorem Host.NeverInvalid.accessRel (hval : host.NeverInvalid) :
    AccessRel host fun s t => s.status ≠ .invalidInstruction → t.status ≠ .invalidInstruction where
  refl _ := id
  touch _ _ _ _ _ := id
  mmio := hval.toMmioRel
  trans h h' := h' ∘ h
  bytes _ _ := id
  ie _ _ := id

section Cases

variable (hst : s.status ≠ .invalidInstruction) (w : Word)
include hst

theorem execOp_invalid_iff :
    (execOp s w).status = .invalidInstruction ↔
      opResult (funct7 w) (funct3 w) (s.r (rs1 w)) (s.r (rs2 w)) = none := by
  unfold execOp
  split <;> simp_all [RV32.retire, RV32.invalid]

theorem execOpImm_invalid_iff :
    (execOpImm s w).status = .invalidInstruction ↔ opImmResult w (s.r (rs1 w)) = none := by
  unfold execOpImm
  split <;> simp_all [RV32.retire, RV32.invalid]

theorem execBranch_invalid_iff :
    (execBranch s w).status = .invalidInstruction ↔
      branchTaken (funct3 w) (s.r (rs1 w)) (s.r (rs2 w)) = none := by
  unfold execBranch
  split <;> simp_all [RV32.invalid]

theorem execLoad_invalid_iff (hval : host.NeverInvalid) :
    (execLoad host s w).status = .invalidInstruction ↔ loadAccess host s w = none := by
  unfold execLoad
  split
  · rename_i v t hacc
    have ht := loadAccess_rel hval.accessRel.toLoadRel hacc hst
    simp [hacc, RV32.retire, ht]
  · rename_i t hacc
    simp [hacc, RV32.accessFault]
  · rename_i hacc
    simp [hacc, RV32.invalid]

theorem execStore_invalid_iff (hval : host.NeverInvalid) :
    (execStore host s w).status = .invalidInstruction ↔ storeAccess host s w = none := by
  unfold execStore
  split
  · rename_i t hacc
    have ht := storeAccess_rel hval.accessRel hacc hst
    simp [hacc, ht]
  · rename_i t hacc
    simp [hacc, RV32.accessFault]
  · rename_i hacc
    simp [hacc, RV32.invalid]

theorem execCsr_invalid_iff (hf : funct3Of w ≠ 0x0#3) :
    (execCsr s w).status = .invalidInstruction ↔ funct3Of w = 0x4#3 := by
  have hnone (rVal a b : Word) : csrWriteValue (funct3 w) rVal a b = none ↔ funct3Of w = 0x4#3 := by
    rw [funct3_eq, csrWriteValue_eq_none_iff]
    exact or_iff_right hf
  unfold execCsr
  simp only
  split
  · rename_i wVal hw
    obtain ⟨_, _, _, _, _, _, hframe⟩ := rv32WriteCsr_frame s (immI w) wVal
    rw [hframe]
    refine iff_of_false hst ?_
    intro h4
    rw [(hnone _ _ _).mpr h4] at hw
    cases hw
  · rename_i hw
    exact iff_of_true rfl ((hnone _ _ _).mp hw)

theorem execSystem_invalid_iff (hval : host.NeverInvalid) :
    (execSystem host s w).status = .invalidInstruction ↔
      ¬ if funct3Of w = 0x0#3 then immIOf w ∈ [0x000#12, 0x001#12, 0x302#12, 0x105#12]
        else funct3Of w ≠ 0x4#3 := by
  have hf3 : funct3 w = 0 ↔ funct3Of w = 0x0#3 := by
    rw [funct3_eq]; exact Bits.setWidth_inj (by decide) _ 0x0#3
  have himm (v : BitVec 12) : immI w = v.setWidth 32 ↔ immIOf w = v := by
    rw [immI_eq]; exact Bits.setWidth_inj (by decide) _ v
  unfold execSystem
  by_cases h0 : funct3Of w = 0x0#3
  · rw [if_pos (hf3.mpr h0), if_pos h0]
    split
    case _ h =>     -- ecall
      have hecall := hval.ecall s hst
      refine iff_of_false ?_ (not_not.mpr (by simp [(himm 0x000#12).mp h]))
      simp only
      split <;> exact hecall
    case _ h =>     -- ebreak
      exact iff_of_false nofun (not_not.mpr (by simp [(himm 0x001#12).mp h]))
    case _ h =>     -- mret
      exact iff_of_false hst (not_not.mpr (by simp [(himm 0x302#12).mp h]))
    case _ h =>     -- wfi
      exact iff_of_false hst (not_not.mpr (by simp [(himm 0x105#12).mp h]))
    case _ n0 n1 n302 n105 =>
      refine iff_of_true rfl ?_
      intro hmem
      simp only [List.mem_cons, List.not_mem_nil, or_false] at hmem
      rcases hmem with h | h | h | h
      · exact n0 ((himm 0x000#12).mpr h)
      · exact n1 ((himm 0x001#12).mpr h)
      · exact n302 ((himm 0x302#12).mpr h)
      · exact n105 ((himm 0x105#12).mpr h)
  · rw [if_neg (fun h => h0 (hf3.mp h)), if_neg h0, not_not]
    split
    · exact execCsr_invalid_iff hst w h0
    · rename_i hand
      refine iff_of_true rfl ?_
      rw [funct3_eq] at hand
      rcases funct3_cases (funct3Of w) with h | h | h | h | h | h | h | h <;> simp_all

end Cases

/-- **What the `switch` accepts.** `RV32_INVALID_INSTRUCTION` is set for the words that are not
    `Accepted`. -/
theorem rv32Execute_invalid_iff (hval : host.NeverInvalid) (hst : s.status ≠ .invalidInstruction)
    (w : Word) : (rv32Execute host s w).status = .invalidInstruction ↔ ¬ Accepted w := by
  have hop (v : BitVec 7) : opcode w = v.setWidth 8 ↔ opcodeOf w = v := by
    rw [opcode_eq]; exact Bits.setWidth_inj (by decide) _ v
  have hstay {pc : Word} {v : Word} :
      (s.retire (rd w) v pc).status = .invalidInstruction ↔ ¬ True := by
    simp [RV32.retire, hst]
  unfold Accepted
  split
  case _ h =>     -- OP
    simp only [rv32Execute, (hop 0x33#7).mpr h, BitVec.reduceSetWidth]
    rw [execOp_invalid_iff hst, funct7_eq, funct3_eq]
    exact opResult_eq_none_iff _ _ _ _
  case _ h =>     -- OP-IMM
    simp only [rv32Execute, (hop 0x13#7).mpr h, BitVec.reduceSetWidth]
    rw [execOpImm_invalid_iff hst]
    exact opImmResult_eq_none_iff _ _
  case _ h =>     -- LOAD
    simp only [rv32Execute, (hop 0x03#7).mpr h, BitVec.reduceSetWidth]
    rw [execLoad_invalid_iff hst w hval]
    exact loadAccess_eq_none_iff s w
  case _ h =>     -- STORE
    simp only [rv32Execute, (hop 0x23#7).mpr h, BitVec.reduceSetWidth]
    rw [execStore_invalid_iff hst w hval]
    exact storeAccess_eq_none_iff s w
  case _ h =>     -- BRANCH
    simp only [rv32Execute, (hop 0x63#7).mpr h, BitVec.reduceSetWidth]
    rw [execBranch_invalid_iff hst, funct3_eq]
    exact branchTaken_eq_none_iff _ _ _
  case _ h => simp only [rv32Execute, (hop 0x6f#7).mpr h, BitVec.reduceSetWidth]; exact hstay
  case _ h => simp only [rv32Execute, (hop 0x67#7).mpr h, BitVec.reduceSetWidth]; exact hstay
  case _ h => simp only [rv32Execute, (hop 0x37#7).mpr h, BitVec.reduceSetWidth]; exact hstay
  case _ h => simp only [rv32Execute, (hop 0x17#7).mpr h, BitVec.reduceSetWidth]; exact hstay
  case _ h =>     -- SYSTEM
    simp only [rv32Execute, (hop 0x73#7).mpr h, BitVec.reduceSetWidth]
    exact execSystem_invalid_iff hst w hval
  case _ h33 h13 h03 h23 h63 h6f h67 h37 h17 h73 =>
    refine iff_of_true ?_ not_false
    unfold rv32Execute
    split
    case _ h => exact absurd ((hop 0x33#7).mp h) h33
    case _ h => exact absurd ((hop 0x13#7).mp h) h13
    case _ h => exact absurd ((hop 0x03#7).mp h) h03
    case _ h => exact absurd ((hop 0x23#7).mp h) h23
    case _ h => exact absurd ((hop 0x63#7).mp h) h63
    case _ h => exact absurd ((hop 0x6f#7).mp h) h6f
    case _ h => exact absurd ((hop 0x67#7).mp h) h67
    case _ h => exact absurd ((hop 0x37#7).mp h) h37
    case _ h => exact absurd ((hop 0x17#7).mp h) h17
    case _ h => exact absurd ((hop 0x73#7).mp h) h73
    case _ => rfl

/-! ## The comparison -/

/-- **Where the decoder and the ISA agree.** -/
theorem accepted_iff_legal (w : Word) : (Accepted w ↔ Legal w) ↔ ¬ DecodedWrongly w := by
  unfold Accepted
  split
  case _ h =>     -- OP
    -- without the two operations of RV32I that have a variant, the code does not look at funct7
    simp only [Legal, DecodedWrongly, h, regOp_iff, List.mem_cons, List.not_mem_nil, or_false]
    by_cases h1 : funct7Of w = 0x01#7
    · simp [h1]
    · by_cases h0 : funct7Of w = 0x00#7
      · simp [h0]
      · simp only [h1, h0, false_or, or_false, not_false_iff, and_true, not_not]
        tauto
  case _ h =>     -- OP-IMM
    simp only [Legal, DecodedWrongly, h, immOp_iff, shiftOp_iff]
    by_cases h1 : funct3Of w = 0x1#3
    · simp [h1]
    · by_cases h5 : funct3Of w = 0x5#3
      · simp [h5]
      · simp [h1, h5]
  case _ h => exact iff_of_true (by simp only [Legal, h, loadOp_iff]) (by simp [DecodedWrongly, h])
  case _ h => exact iff_of_true (by simp only [Legal, h, storeOp_iff]) (by simp [DecodedWrongly, h])
  case _ h => exact iff_of_true (by simp only [Legal, h, branchOp_iff]) (by simp [DecodedWrongly, h])
  case _ h => exact iff_of_true (by simp only [Legal, h]) (by simp [DecodedWrongly, h])
  case _ h =>     -- jalr
    simp only [Legal, DecodedWrongly, h]
    tauto
  case _ h => exact iff_of_true (by simp only [Legal, h]) (by simp [DecodedWrongly, h])
  case _ h => exact iff_of_true (by simp only [Legal, h]) (by simp [DecodedWrongly, h])
  case _ h =>     -- SYSTEM
    -- the code looks at the immediate only, the ISA also asks for rd = rs1 = 0
    simp only [Legal, DecodedWrongly, h, systemOp_iff, csrOp_iff]
    by_cases h0 : funct3Of w = 0x0#3
    · simp only [h0, if_true]
      tauto
    · simp only [h0, if_false]
      tauto
  case _ h33 h13 h03 h23 h63 h6f h67 h37 h17 h73 =>
    -- of the opcodes the code does not have, FENCE is the one the ISA defines
    by_cases h0f : opcodeOf w = 0x0f#7
    · simp only [Legal, DecodedWrongly, h0f]
      tauto
    · have hlegal : ¬ Legal w := by
        unfold Legal
        split <;> simp_all
      have hwrong : ¬ DecodedWrongly w := by
        unfold DecodedWrongly
        split <;> simp_all
      exact iff_of_true (iff_of_false not_false hlegal) hwrong

/-- **The decoder accepts exactly the instruction set, but for five kinds of words.** In a cycle that
    fetches `w`, setting `RV32_INVALID_INSTRUCTION` exactly when `w` is not the encoding of an
    instruction is the same as `w` not being one of the wrongly decoded words. -/
theorem rv32Cycle_decodes_iff (host : Host σ) (hval : host.NeverInvalid) (s u : RV32 σ) (w : Word)
    (hready : Ready s) (hload : rv32Load32 host s s.pc = (some w, u)) :
    ((rv32Cycle host s).status = .invalidInstruction ↔ ¬ Defined w) ↔ ¬ DecodedWrongly w := by
  have hs : s.status ≠ .invalidInstruction := by simp [hready.running]
  have hu : u.resetZero.status ≠ .invalidInstruction := by
    have hrel := rv32Load32_rel hval.accessRel.toLoadRel s s.pc hs
    rw [hload] at hrel
    exact hrel
  rw [rv32Cycle_of_fetch host (hready.fetch host hload), rv32Execute_invalid_iff hval hu,
    defined_iff, not_iff_not]
  exact accepted_iff_legal w

theorem emulatorHost_neverInvalid : emulatorHost.NeverInvalid where
  toMmioRel := emulatorHost_mmioPure.mono fun _ _ ⟨_, heq⟩ hst => by rw [heq]; exact hst
  ecall s hst := by
    unfold emulatorHost
    simp only
    split
    · exact hst
    · exact hst
    · exact nofun
    · exact hst

/-- The emulator on `addi x0, x0, 0`. -/
theorem rv32Cycle_decodes_iff_emulator :
    (rv32Cycle emulatorHost (emulatorStart [0x00000013])).status = .invalidInstruction ↔
      ¬ Defined 0x00000013 := by
  have hready : Ready (emulatorStart [0x00000013]) := ⟨⟨by decide, by decide, by decide⟩, by decide⟩
  have hload : rv32Load32 emulatorHost (emulatorStart [0x00000013]) 0 =
      (some 0x00000013, (emulatorStart [0x00000013]).touch 0 4) := by
    rw [rv32Load32_zero]
    exact congrArg (fun w => (some w, _)) (by decide)
  refine (rv32Cycle_decodes_iff emulatorHost emulatorHost_neverInvalid _ _ 0x00000013 hready hload).mpr ?_
  have hf3 : funct3Of 0x00000013 ≠ 0x1#3 := by decide
  exact fun h => hf3 h.1

/-- `andn x0, x0, x0`, of another extension, is executed; `fence` is refused. -/
theorem decoder_andn_fence :
    (Ready (emulatorStart [0x40007033]) ∧
      (rv32Fetch emulatorHost (emulatorStart [0x40007033])).1 = some 0x40007033 ∧
      ¬ ((rv32Cycle emulatorHost (emulatorStart [0x40007033])).status = .invalidInstruction ↔
        ¬ Defined 0x40007033)) ∧
    (Ready (emulatorStart [0x0000000f]) ∧
      (rv32Fetch emulatorHost (emulatorStart [0x0000000f])).1 = some 0x0000000f ∧
      ¬ ((rv32Cycle emulatorHost (emulatorStart [0x0000000f])).status = .invalidInstruction ↔
        ¬ Defined 0x0000000f)) := by
  refine ⟨⟨⟨⟨by decide, by decide, by decide⟩, by decide⟩, by decide, ?_⟩,
    ⟨⟨by decide, by decide, by decide⟩, by decide⟩, by decide, ?_⟩
  · have hstatus : (rv32Cycle emulatorHost (emulatorStart [0x40007033])).status = .running := by decide
    have hundefined : ¬ Defined 0x40007033 := by
      rw [defined_iff]
      simp only [Legal, show opcodeOf 0x40007033 = 0x33#7 by decide, regOp_iff]
      decide
    rw [hstatus]
    exact fun h => absurd (h.mpr hundefined) (by decide)
  · have hstatus : (rv32Cycle emulatorHost (emulatorStart [0x0000000f])).status =
        .invalidInstruction := by decide
    have hdefined : Defined 0x0000000f := ⟨.fence 0 0 0, by decide⟩
    exact fun h => h.mp hstatus hdefined

end Rv32
