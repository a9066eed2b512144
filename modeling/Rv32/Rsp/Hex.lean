import Mathlib.Data.List.TakeWhile
import Rv32.Rsp.Packet

/-!
# `Rsp.Hex` — the hex decoders of the GDB stub

The handlers walk through a packet with a pointer. A packet is the function from indices to the bytes of
the input buffer, and the pointer is the index it has reached; nothing stops it at the end of the packet,
so a decoder may look at whatever the buffer holds behind it.

Each decoder is characterised by the digits it looks at: it succeeds exactly on hex digits
(`rspHexToU8_eq`, `rspHexToU32_eq`), and what it returns depends on those bytes alone (the `_congr`
lemmas). The loop over the digits of a number never fails, and stops where the leading digits of the
packet end (`rspParseHex_eq`).
-/

namespace Rv32

/-- A buffer that holds the packet `p`, with the bytes `behind` where it ends. -/
def packetBuffer (p : List Byte) (behind : Nat → Byte) (i : Nat) : Byte := p[i]?.getD (behind i)

/-- `rsp_is_hex_digit` -/
def rspIsHexDigit (h : Byte) : Bool :=
  if char '0' ≤ h ∧ h ≤ char '9' then true
  else if char 'a' ≤ h ∧ h ≤ char 'f' then true
  else if char 'A' ≤ h ∧ h ≤ char 'F' then true
  else false

/-- `rsp_from_hex_digit` -/
def rspFromHexDigit (h : Byte) : Except String Byte :=
  if char '0' ≤ h ∧ h ≤ char '9' then pure (h - char '0')
  else if char 'a' ≤ h ∧ h ≤ char 'f' then pure (h - char 'a' + 10)
  else if char 'A' ≤ h ∧ h ≤ char 'F' then pure (h - char 'A' + 10)
  else throw "invalid hex digit"

/-- `rsp_hex_to_u8` -/
def rspHexToU8 (buffer : Nat → Byte) (k : Nat) : Except String Byte := do
  let hi ← rspFromHexDigit (buffer k)
  let lo ← rspFromHexDigit (buffer (k + 1))
  pure ((hi <<< 4) ||| lo)

/-- `rsp_hex_to_u32` -/
def rspHexToU32 (buffer : Nat → Byte) (k : Nat) : Except String Word :=
  [0, 1, 2, 3].foldlM (fun ret i => do
    let b ← rspHexToU8 buffer (k + 2 * i)
    pure (ret ||| (b.setWidth 32 <<< (i * 4)))) 0

/-- What the loop over the digits of a number leaves: the number, the pointer and the size. -/
structure HexNumber where
  value : Word
  k : Nat
  size : Nat

/-- `while(rsp_is_hex_digit(buffer[0]) && size) { value <<= 4; value |= rsp_from_hex_digit(buffer[0]);
    buffer++; size--; }`. With `size` 0 the byte that is looked at does not matter. -/
def rspParseHex (buffer : Nat → Byte) : (value : Word) → (k size : Nat) → Except String HexNumber
  | value, k, 0        => pure ⟨value, k, 0⟩
  | value, k, size + 1 =>
      if rspIsHexDigit (buffer k) then do
        let d ← rspFromHexDigit (buffer k)
        rspParseHex buffer ((value <<< 4) ||| d.setWidth 32) (k + 1) size
      else pure ⟨value, k, size + 1⟩

/-! ## One digit -/

/-- The value of a hex digit. -/
def hexValue (h : Byte) : Byte :=
  if char '0' ≤ h ∧ h ≤ char '9' then h - char '0'
  else if char 'a' ≤ h ∧ h ≤ char 'f' then h - char 'a' + 10
  else h - char 'A' + 10

/-- The decoder succeeds exactly on hex digits. -/
theorem rspFromHexDigit_eq (h : Byte) :
    rspFromHexDigit h = if rspIsHexDigit h then .ok (hexValue h) else .error "invalid hex digit" := by
  unfold rspFromHexDigit rspIsHexDigit hexValue
  split
  · rfl
  split
  · rfl
  split
  · rfl
  · rfl

/-- Digits of either case denote what they should. -/
example : (cstr "0123456789abcdefABCDEF").map hexValue =
    [0, 1, 2, 3, 4, 5, 6, 7, 8, 9, 10, 11, 12, 13, 14, 15, 10, 11, 12, 13, 14, 15] := by decide

/-- The byte two hex digits denote. -/
def hexByte (d1 d2 : Byte) : Byte := (hexValue d1 <<< 4) ||| hexValue d2

/-- **A digit decodes to its nibble.** -/
theorem hexDigit_decode (b : Byte) :
    rspIsHexDigit (hexDigit (b &&& 0xf)) = true ∧ hexValue (hexDigit (b &&& 0xf)) = b &&& 0xf := by
  have hnibble : b &&& 0xf = BitVec.ofNat 8 (b.toNat % 16) := by
    apply BitVec.eq_of_toNat_eq
    rw [and_0xf_toNat, BitVec.toNat_ofNat]
    exact (Nat.mod_eq_of_lt (Nat.lt_trans (Nat.mod_lt _ (by decide)) (by decide))).symm
  -- the sixteen digits are looked at one by one
  rw [hnibble]
  have hlt : b.toNat % 16 < 16 := Nat.mod_lt _ (by decide)
  generalize b.toNat % 16 = n at hlt
  interval_cases n <;> decide

/-! ## Two digits -/

/-- Two hex digits stand at `k`. -/
def HexPair (buffer : Nat → Byte) (k : Nat) : Prop :=
  rspIsHexDigit (buffer k) = true ∧ rspIsHexDigit (buffer (k + 1)) = true

instance (buffer : Nat → Byte) (k : Nat) : Decidable (HexPair buffer k) :=
  inferInstanceAs (Decidable (_ ∧ _))

/-- The byte they denote. -/
def hexPairValue (buffer : Nat → Byte) (k : Nat) : Byte := hexByte (buffer k) (buffer (k + 1))

theorem rspHexToU8_eq (buffer : Nat → Byte) (k : Nat) :
    rspHexToU8 buffer k =
      if HexPair buffer k then .ok (hexPairValue buffer k) else .error "invalid hex digit" := by
  unfold rspHexToU8 HexPair hexPairValue hexByte
  rw [rspFromHexDigit_eq, rspFromHexDigit_eq]
  by_cases h0 : rspIsHexDigit (buffer k) = true
  · by_cases h1 : rspIsHexDigit (buffer (k + 1)) = true
    · simp [h0, h1, bind, Except.bind, pure, Except.pure]
    · simp [h0, h1, bind, Except.bind]
  · simp [h0, bind, Except.bind]

theorem nibbles_join (b : Byte) : (((b >>> 4) &&& 0xf) <<< 4) ||| (b &&& 0xf) = b := by
  apply BitVec.eq_of_getLsbD_eq
  intro i hi
  interval_cases i <;> simp

theorem hexByte_digits (b : Byte) :
    hexByte (hexDigit ((b >>> 4) &&& 0xf)) (hexDigit (b &&& 0xf)) = b := by
  rw [hexByte, (hexDigit_decode _).2, (hexDigit_decode b).2, nibbles_join]

/-- **The two digits of a byte decode to the byte.** -/
theorem hexPair_of_hexU8 {buffer : Nat → Byte} {k : Nat} {b : Byte}
    (h : ∀ i, ∀ hi : i < 2, buffer (k + i) = (hexU8 b).get ⟨i, hi⟩) :
    HexPair buffer k ∧ hexPairValue buffer k = b := by
  have hhi : buffer k = hexDigit ((b >>> 4) &&& 0xf) := h 0 (by decide)
  have hlo : buffer (k + 1) = hexDigit (b &&& 0xf) := h 1 (by decide)
  rw [HexPair, hexPairValue, hhi, hlo]
  exact ⟨⟨(hexDigit_decode _).1, (hexDigit_decode b).1⟩, hexByte_digits b⟩

/-! ## Four bytes -/

/-- Eight hex digits stand at `k`. -/
def HexWord (buffer : Nat → Byte) (k : Nat) : Prop := ∀ i < 4, HexPair buffer (k + 2 * i)

instance (buffer : Nat → Byte) (k : Nat) : Decidable (HexWord buffer k) :=
  inferInstanceAs (Decidable (∀ i < 4, _))

/-- What `rsp_hex_to_u32` makes of them: byte `i` goes to bit `4 * i`. -/
def hexWordValue (buffer : Nat → Byte) (k : Nat) : Word :=
  [0, 1, 2, 3].foldl
    (fun ret i => ret ||| ((hexPairValue buffer (k + 2 * i)).setWidth 32 <<< (i * 4))) 0

theorem rspHexToU32_eq (buffer : Nat → Byte) (k : Nat) :
    rspHexToU32 buffer k =
      if HexWord buffer k then .ok (hexWordValue buffer k) else .error "invalid hex digit" := by
  have hloop : ∀ (is : List Nat) (ret : Word),
      is.foldlM (fun ret i => do
        let b ← rspHexToU8 buffer (k + 2 * i)
        pure (ret ||| (b.setWidth 32 <<< (i * 4)))) ret =
      if ∀ i ∈ is, HexPair buffer (k + 2 * i) then
        .ok (is.foldl
          (fun ret i => ret ||| ((hexPairValue buffer (k + 2 * i)).setWidth 32 <<< (i * 4))) ret)
      else .error "invalid hex digit" := by
    intro is
    induction is with
    | nil => intro ret; simp [pure, Except.pure]
    | cons i is ih =>
        intro ret
        rw [List.foldlM_cons, rspHexToU8_eq]
        by_cases hi : HexPair buffer (k + 2 * i)
        · simp only [List.forall_mem_cons, hi, true_and]
          exact ih _
        · simp only [List.forall_mem_cons, hi, false_and, if_false]
          rfl
  rw [rspHexToU32, hloop]
  refine if_congr ?_ rfl rfl
  constructor
  · intro h i hi
    exact h i (by interval_cases i <;> simp)
  · intro h i hi
    exact h i (by simp only [List.mem_cons, List.not_mem_nil, or_false] at hi; omega)

/-! ## A number of digits -/

/-- Hex digits and nothing else. -/
def HexDigits (ds : List Byte) : Prop := ∀ d ∈ ds, rspIsHexDigit d = true

instance (ds : List Byte) : Decidable (HexDigits ds) := List.decidableBAll _ ds

/-- What follows does not go on with a hex digit. -/
def NoDigit (rest : List Byte) : Prop := ∀ d ∈ rest.head?, rspIsHexDigit d = false

/-- The number the digits `ds` denote behind `value`, modulo `2 ^ 32`. -/
def hexNumber (value : Word) (ds : List Byte) : Word :=
  ds.foldl (fun value d => (value <<< 4) ||| (hexValue d).setWidth 32) value

/-- The natural number the digits `ds` denote behind `value`. -/
def hexNat (value : Nat) (ds : List Byte) : Nat :=
  ds.foldl (fun value d => 16 * value + (hexValue d).toNat) value

/-- A digit is less than the base. -/
theorem hexValue_lt {d : Byte} (h : rspIsHexDigit d = true) : (hexValue d).toNat < 16 := by
  unfold rspIsHexDigit at h
  unfold hexValue
  rw [show char '0' = 0x30 from rfl, show char '9' = 0x39 from rfl, show char 'a' = 0x61 from rfl,
    show char 'f' = 0x66 from rfl, show char 'A' = 0x41 from rfl] at *
  rw [show char 'F' = 0x46 from rfl] at h
  split_ifs at h ⊢
  · bv_omega
  · bv_omega
  · bv_omega

/-- One digit more. -/
theorem hexNumber_step (value : Word) {d : Byte} (h : rspIsHexDigit d = true) :
    ((value <<< 4) ||| (hexValue d).setWidth 32).toNat =
      (16 * value.toNat + (hexValue d).toNat) % 2 ^ 32 := by
  have hd := hexValue_lt h
  have hvalue : value.toNat < 2 ^ 32 := value.isLt
  have hshift : (value <<< 4).toNat = 2 ^ 4 * (value.toNat % 2 ^ 28) := by
    rw [BitVec.toNat_shiftLeft, Nat.shiftLeft_eq]
    omega
  have hdigit : ((hexValue d).setWidth 32).toNat = (hexValue d).toNat := by
    rw [BitVec.toNat_setWidth]
    omega
  rw [BitVec.toNat_or, hshift, hdigit, ← Nat.two_pow_add_eq_or_of_lt hd]
  omega

theorem hexNat_congr {v w : Nat} (h : v % 2 ^ 32 = w % 2 ^ 32) (ds : List Byte) :
    hexNat v ds % 2 ^ 32 = hexNat w ds % 2 ^ 32 := by
  induction ds generalizing v w with
  | nil => exact h
  | cons d ds ih =>
      apply ih
      show (16 * v + (hexValue d).toNat) % 2 ^ 32 = (16 * w + (hexValue d).toNat) % 2 ^ 32
      omega

/-- **The loop computes the number**, modulo `2 ^ 32`. -/
theorem hexNumber_toNat (value : Word) {ds : List Byte} (hds : HexDigits ds) :
    (hexNumber value ds).toNat = hexNat value.toNat ds % 2 ^ 32 := by
  induction ds generalizing value with
  | nil => exact (Nat.mod_eq_of_lt value.isLt).symm
  | cons d ds ih =>
      obtain ⟨hd, hrest⟩ := List.forall_mem_cons.mp hds
      refine (ih ((value <<< 4) ||| (hexValue d).setWidth 32) hrest).trans ?_
      apply hexNat_congr
      rw [hexNumber_step value hd, Nat.mod_mod]

theorem hexNumber_toNat_of_lt {ds : List Byte} (hds : HexDigits ds) (h : hexNat 0 ds < 2 ^ 32) :
    (hexNumber 0 ds).toNat = hexNat 0 ds :=
  (hexNumber_toNat 0 hds).trans (Nat.mod_eq_of_lt h)

/-- A text is split where its leading digits end. -/
theorem exists_digits (q : List Byte) : ∃ ds rest, q = ds ++ rest ∧ HexDigits ds ∧ NoDigit rest := by
  refine ⟨q.takeWhile rspIsHexDigit, q.dropWhile rspIsHexDigit,
    List.takeWhile_append_dropWhile.symm, fun d hd => List.mem_takeWhile_imp hd, fun d hd => ?_⟩
  simpa [Option.mem_def.mp hd] using List.head?_dropWhile_not rspIsHexDigit q

/-- There is one such place. -/
theorem digits_unique {ds rest ds' rest' : List Byte} (h : ds ++ rest = ds' ++ rest') (hds : HexDigits ds)
    (hrest : NoDigit rest) (hds' : HexDigits ds') (hrest' : NoDigit rest') : ds = ds' ∧ rest = rest' := by
  have htake : ∀ {ds rest : List Byte}, HexDigits ds → NoDigit rest →
      (ds ++ rest).takeWhile rspIsHexDigit = ds := by
    intro ds rest hds hrest
    have hstop : rest.takeWhile rspIsHexDigit = [] := by
      cases rest with
      | nil => rfl
      | cons d rest => rw [List.takeWhile_cons_of_neg (by simp [hrest d rfl])]
    rw [List.takeWhile_append_of_pos hds, hstop, List.append_nil]
  have heq : ds = ds' := by rw [← htake hds hrest, h, htake hds' hrest']
  exact ⟨heq, List.append_cancel_left (heq ▸ h)⟩

section Packet

variable {p : List Byte} {behind : Nat → Byte} {k : Nat}

theorem packetBuffer_of_drop {d : Byte} {q : List Byte} (h : p.drop k = d :: q) :
    packetBuffer p behind k = d := by
  rw [packetBuffer, ← List.head?_drop, h]
  rfl

/-- Inside of the packet, what is behind it does not matter. -/
theorem packetBuffer_agree {behind' : Nat → Byte} (hk : k < p.length) :
    packetBuffer p behind k = packetBuffer p behind' k := by
  rw [packetBuffer, packetBuffer, List.getElem?_eq_getElem hk, Option.getD_some, Option.getD_some]

theorem packetBuffer_of_le (h : p.length ≤ k) : packetBuffer p behind k = behind k := by
  rw [packetBuffer, List.getElem?_eq_none h, Option.getD_none]

/-- **The loop** runs over the leading digits of what is left of the packet, and never fails. -/
theorem rspParseHex_eq (behind : Nat → Byte) (value : Word) {ds rest : List Byte} (hp : p.drop k = ds ++ rest)
    (hds : HexDigits ds) (hrest : NoDigit rest) :
    rspParseHex (packetBuffer p behind) value k (ds ++ rest).length =
      .ok ⟨hexNumber value ds, k + ds.length, rest.length⟩ := by
  induction ds generalizing value k with
  | nil =>
      cases rest with
      | nil => rfl
      | cons d rest =>
          have hstop : ¬ rspIsHexDigit (packetBuffer p behind k) = true := by
            rw [packetBuffer_of_drop hp, hrest d rfl]
            exact Bool.false_ne_true
          rw [List.nil_append, List.length_cons, rspParseHex, if_neg hstop]
          rfl
  | cons d ds ih =>
      have hd : packetBuffer p behind k = d := packetBuffer_of_drop hp
      have hdigit : rspIsHexDigit d = true := hds d (List.mem_cons_self ..)
      have hdrop : p.drop (k + 1) = ds ++ rest := by rw [← List.tail_drop, hp]; rfl
      rw [List.cons_append, List.length_cons, rspParseHex, hd, if_pos hdigit, rspFromHexDigit_eq,
        if_pos hdigit]
      have hloop := ih ((value <<< 4) ||| (hexValue d).setWidth 32) hdrop
        fun d hd => hds d (List.mem_cons_of_mem _ hd)
      rw [show k + (d :: ds).length = k + 1 + ds.length by rw [List.length_cons]; omega]
      exact hloop

end Packet

/-! ## The bytes a decoder looks at -/

variable {b b' : Nat → Byte}

theorem hexPair_congr {k : Nat} (h : ∀ i, k ≤ i → i < k + 2 → b i = b' i) :
    (HexPair b k ↔ HexPair b' k) ∧ hexPairValue b k = hexPairValue b' k := by
  have h0 := h k (Nat.le_refl k) (by omega)
  have h1 := h (k + 1) (by omega) (by omega)
  rw [HexPair, HexPair, hexPairValue, hexPairValue, h0, h1]
  exact ⟨Iff.rfl, rfl⟩

variable {k k' : Nat}

theorem rspHexToU8_congr (h : ∀ i < 2, b (k + i) = b' (k' + i)) : rspHexToU8 b k = rspHexToU8 b' k' := by
  have h0 : b k = b' k' := h 0 (by decide)
  rw [rspHexToU8, rspHexToU8, h0, h 1 (by decide)]

theorem rspHexToU32_congr (h : ∀ i < 8, b (k + i) = b' (k' + i)) : rspHexToU32 b k = rspHexToU32 b' k' := by
  have hbyte : ∀ j < 4, rspHexToU8 b (k + 2 * j) = rspHexToU8 b' (k' + 2 * j) := by
    intro j hj
    apply rspHexToU8_congr
    intro i hi
    rw [Nat.add_assoc, Nat.add_assoc]
    exact h (2 * j + i) (by omega)
  simp only [rspHexToU32, List.foldlM_cons, List.foldlM_nil]
  rw [hbyte 0 (by decide), hbyte 1 (by decide), hbyte 2 (by decide), hbyte 3 (by decide)]

end Rv32
