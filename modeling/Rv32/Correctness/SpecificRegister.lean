import Rv32.Core.Emulator
import Rv32.Rsp.Runs

/-!
# `Correctness.SpecificRegister` — which registers `P` can write

GDB writes the number of a register in hex without leading zeros. `rsp_write_specific_register` does not
walk through these digits as the handlers of `m`, `M` and `Z0` do: it wants two of them, and tests for them
by the length of the packet. The numbers below 16 have one, and a write to their registers is fatal.
-/

namespace Rv32

open Prog

variable {σ : Type} {host : Host σ} {s : RV32 σ} {n : Nat} {d : List Byte} {behind : Nat → Byte}

/-- A number as GDB writes it: in hex, lower case, without leading zeros. -/
def gdbHex (n : Nat) : List Byte := (Nat.toDigits 16 n).map char

/-- The packet `P` with the number of a register and the digits of its value. -/
def registerPacket (n : Nat) (d : List Byte) : List Byte := char 'P' :: (gdbHex n ++ char '=' :: d)

/-- The machine with `v` in register `n`, where 32 stands for `pc`. -/
def RV32.withRegister (s : RV32 σ) (n : Nat) (v : Word) : RV32 σ :=
  if n = 32 then { s with pc := v } else s.setRegister n v

/-- The call with this outcome has returned, has put into register `n` what `rsp_hex_to_u32` makes of the
    digits `d` and done nothing else, and has answered `OK`. -/
def WritesRegister (s : RV32 σ) (n : Nat) (d : List Byte)
    (outcome : Outcome (RV32 σ) (List Byte) RspHandlerResult) : Prop :=
  ∃ v, rspHexToU32 (packetBuffer d fun _ => 0) 0 = .ok v ∧
    outcome = ⟨.ok .packetSent, s.withRegister n v, [rspFrame (cstr "OK")]⟩

/-! ## The number -/

theorem byte_toNat (hn : n < 256) : (BitVec.ofNat 8 n).toNat = n := by
  rw [BitVec.toNat_ofNat]
  exact Nat.mod_eq_of_lt hn

theorem char_digitChar {k : Nat} (hk : k < 16) : char (Nat.digitChar k) = rspDigits.getD k 0 := by
  interval_cases k <;> rfl

/-- Below 16 there is one digit. -/
theorem gdbHex_length_of_lt (hn : n < 16) : (gdbHex n).length = 1 := by
  rw [gdbHex, Nat.toDigits_of_lt_base hn]
  rfl

/-- From 16 on there are two, those of the byte. -/
theorem gdbHex_of_le (hle : 16 ≤ n) (hlt : n < 256) : gdbHex n = hexU8 (BitVec.ofNat 8 n) := by
  have htoNat : (BitVec.ofNat 8 n).toNat = n := byte_toNat hlt
  have hlow : (BitVec.ofNat 8 n &&& 0xf).toNat = n % 16 := by rw [and_0xf_toNat, htoNat]
  have hhigh : ((BitVec.ofNat 8 n >>> 4) &&& 0xf).toNat = n / 16 := by
    rw [and_0xf_toNat, BitVec.toNat_ushiftRight, htoNat, Nat.shiftRight_eq_div_pow]
    omega
  rw [gdbHex, Nat.toDigits_of_base_le (by decide) hle, Nat.toDigits_of_lt_base (by omega), hexU8, hexDigit,
    hexDigit, hlow, hhigh, List.map_append, List.map_singleton, List.map_singleton,
    char_digitChar (by omega), char_digitChar (Nat.mod_lt n (by decide))]
  rfl

/-! ## The value -/

theorem hexWord_of_digits (hd : HexDigits d) (hlen : d.length = 8) : HexWord (packetBuffer d behind) 0 := by
  have hdigit : ∀ i < 8, rspIsHexDigit (packetBuffer d behind i) = true := by
    intro i hi
    have hlt : i < d.length := by omega
    rw [packetBuffer, List.getElem?_eq_getElem hlt, Option.getD_some]
    exact hd _ (List.getElem_mem hlt)
  intro i hi
  exact ⟨hdigit _ (by omega), hdigit _ (by omega)⟩

/-- The digits mean the same behind what precedes them in a packet. -/
theorem rspHexToU32_behind (behind behind' : Nat → Byte) {p q : List Byte} (hp : p = q ++ d)
    (hlen : 8 ≤ d.length) :
    rspHexToU32 (packetBuffer p behind) q.length = rspHexToU32 (packetBuffer d behind') 0 := by
  apply rspHexToU32_congr
  intro i hi
  have hlt : i < d.length := by omega
  rw [packetBuffer, packetBuffer, hp, List.getElem?_append_right (Nat.le_add_right _ _),
    Nat.add_sub_cancel_left, Nat.zero_add, List.getElem?_eq_getElem hlt, Option.getD_some, Option.getD_some]

/-! ## The packet -/

theorem registerPacket_length (n : Nat) (d : List Byte) :
    (registerPacket n d).length = (gdbHex n).length + d.length + 2 := by
  simp only [registerPacket, List.length_cons, List.length_append]
  omega

theorem rspHandlePacket_registerPacket (host : Host σ) (n : Nat) (d : List Byte) (behind : Nat → Byte) :
    rspHandlePacket host (packetBuffer (registerPacket n d) behind) (registerPacket n d).length =
      rspWriteSpecificRegister (packetBuffer (registerPacket n d) behind) (registerPacket n d).length := by
  have hstarts : RspStarts 'P' (packetBuffer (registerPacket n d) behind) (registerPacket n d).length :=
    ⟨by rw [registerPacket_length]; omega, rfl⟩
  exact rspHandlePacket_of_starts (by decide) hstarts

/-- A number of one digit makes the packet too short. -/
theorem rspHandlePacket_short (behind : Nat → Byte) (hn : n < 16) (hlen : d.length = 8) :
    rspHandlePacket host (packetBuffer (registerPacket n d) behind) (registerPacket n d).length s =
      ⟨.error "invalid 'P' message from gdb", s, []⟩ := by
  have hsize : ¬ (registerPacket n d).length = 12 := by
    rw [registerPacket_length, gdbHex_length_of_lt hn, hlen]
    decide
  rw [rspHandlePacket_registerPacket, rspWriteSpecificRegister, check, if_neg hsize, run_attempt_error_bind]

theorem rspAssignRegister_run (hn : n ≤ 32) (v : Word) (s : RV32 σ) :
    (rspAssignRegister (BitVec.ofNat 8 n) v : RspProg σ Unit) s = ⟨.ok (), s.withRegister n v, []⟩ := by
  rw [rspAssignRegister, byte_toNat (by omega), if_neg (by omega), RV32.withRegister]
  by_cases hpc : n = 32
  · rw [if_pos hpc, if_pos hpc]
    rfl
  · rw [if_neg hpc, if_neg hpc]
    rfl

/-- A number of two digits, and the eight of the value, are what the handler wants. -/
theorem rspHandlePacket_two_digits (behind : Nat → Byte) (hle : 16 ≤ n) (hn : n ≤ 32) (hd : HexDigits d)
    (hlen : d.length = 8) :
    WritesRegister s n d
      (rspHandlePacket host (packetBuffer (registerPacket n d) behind) (registerPacket n d).length s) := by
  have hhex : gdbHex n = hexU8 (BitVec.ofNat 8 n) := gdbHex_of_le hle (by omega)
  have hsize : (registerPacket n d).length = 12 := by rw [registerPacket_length, hhex, hexU8_length, hlen]
  -- the digits of the number stand at 1
  have hreg : HexPair (packetBuffer (registerPacket n d) behind) 1 ∧
      hexPairValue (packetBuffer (registerPacket n d) behind) 1 = BitVec.ofNat 8 n := by
    apply hexPair_of_hexU8
    intro i hi
    have hlt : i < (gdbHex n).length := by rw [hhex]; exact hi
    rw [packetBuffer, registerPacket, Nat.add_comm, List.getElem?_cons_succ,
      List.getElem?_append_left hlt, List.getElem?_eq_getElem hlt, Option.getD_some]
    simp only [hhex, List.get_eq_getElem]
  -- and those of the value at 4
  have hsplit : registerPacket n d = (char 'P' :: (gdbHex n ++ [char '='])) ++ d := by
    rw [registerPacket, List.cons_append, List.append_assoc]
    rfl
  have hval := rspHexToU32_behind behind (fun _ => 0) hsplit (by omega)
  have hk : (char 'P' :: (gdbHex n ++ [char '='])).length = 4 := by rw [hhex]; rfl
  rw [hk, rspHexToU32_eq (packetBuffer d fun _ => 0), if_pos (hexWord_of_digits hd hlen)] at hval
  refine ⟨hexWordValue (packetBuffer d fun _ => 0) 0, ?_, ?_⟩
  · rw [rspHexToU32_eq, if_pos (hexWord_of_digits hd hlen)]
  · rw [rspHandlePacket_registerPacket, rspWriteSpecificRegister, check, if_pos hsize, run_attempt_ok_bind,
      rspHexToU8_eq, if_pos hreg.1, run_attempt_ok_bind, hreg.2, hval, run_attempt_ok_bind]
    have hassign := rspAssignRegister_run hn (hexWordValue (packetBuffer d fun _ => 0) 0) s
    rw [run_bind_ok (a := ()) (by rw [hassign]), hassign, rspQuickReply_run ok_mem_answers]
    rfl

/-- **Writing one register**, exactly when it works: when its number has two digits. -/
theorem writesRegister_iff (host : Host σ) (s : RV32 σ) (n : Nat) (d : List Byte) (behind : Nat → Byte)
    (hn : n ≤ 32) (hd : HexDigits d) (hlen : d.length = 8) :
    WritesRegister s n d
        (rspHandlePacket host (packetBuffer (registerPacket n d) behind) (registerPacket n d).length s) ↔
      16 ≤ n := by
  constructor
  · rintro ⟨v, -, heq⟩
    by_contra hlt
    rw [rspHandlePacket_short behind (Nat.lt_of_not_le hlt) hlen] at heq
    cases congrArg Outcome.value heq
  · intro hle
    exact rspHandlePacket_two_digits behind hle hn hd hlen

/-- The emulator, on `P20=78563412`, which is for `pc`. -/
theorem writesRegister_pc :
    WritesRegister (emulatorStart []) 32 (cstr "78563412")
      (rspHandlePacket emulatorHost (packetBuffer (registerPacket 32 (cstr "78563412")) fun _ => 0)
        (registerPacket 32 (cstr "78563412")).length (emulatorStart [])) :=
  (writesRegister_iff emulatorHost (emulatorStart []) 32 (cstr "78563412") (fun _ => 0) (by decide)
    (by decide) (by decide)).mpr (by decide)

/-- It dies of `P1=00000000`. -/
theorem register_one_fatal :
    (rspHandlePacket emulatorHost (packetBuffer (cstr "P1=00000000") fun _ => 0) 11
        (emulatorStart [])).value = .error "invalid 'P' message from gdb" ∧
      ¬ WritesRegister (emulatorStart []) 1 (cstr "00000000")
        (rspHandlePacket emulatorHost (packetBuffer (cstr "P1=00000000") fun _ => 0) 11
          (emulatorStart [])) := by
  have hpacket : cstr "P1=00000000" = registerPacket 1 (cstr "00000000") := by decide
  have hlen : 11 = (registerPacket 1 (cstr "00000000")).length := by decide
  rw [hpacket, hlen, rspHandlePacket_short (fun _ => 0) (by decide) (by decide)]
  refine ⟨rfl, ?_⟩
  rintro ⟨v, -, heq⟩
  cases congrArg Outcome.value heq

end Rv32
