import Rv32.Guest.Program

/-!
# `Guest.Hello` — `hello.s` on the emulator

The guest program of `examples/asm/hello_world`, instruction by instruction, and what it does whatever the
memory holds behind its code. Its loop loads a word where it prints a byte, so it does not stop at the end of
the text, but at the first four bytes that are zero.
-/

namespace Rv32
namespace Guest

open Isa Transition

/-- `hello.s`, with its pseudo-instructions expanded. -/
def hello : List Instr :=
  [ .regImm .addi 17 0 1,         --        li a7, 1
    .auipc 5 0,                   --        la t0, hello
    .regImm .addi 5 5 44,
    .regImm .addi 6 0 0,          -- loop:  li t1, 0
    .load .lw 10 5 0,             --        lw a0, 0(t0)
    .branch .beq 10 6 8,          --        beq a0, t1, end
    .system .ecall,               --        ecall
    .regImm .addi 5 5 1,          --        addi t0, t0, 1
    .jal 0 (-10),                 --        j loop
    .regImm .addi 17 0 93,        -- end:   li a7, 93
    .regImm .addi 10 0 0,         --        li a0, 0
    .system .ecall ]              --        ecall

/-- The label `hello`, behind the code. -/
def helloText : Nat := 48

/-- The word at the byte `k` of the text. -/
def helloWord (mem : ByteMem.Mem) (k : Nat) : Word := ByteMem.read mem (helloText + k) 4

/-- The first `k` bytes of the text, printed. -/
def printed (mem : ByteMem.Mem) (k : Nat) : List Output :=
  (List.range k).map fun j => Output.char (mem (helloText + j))

variable {mem : ByteMem.Mem} {size : Word} {k : Nat} {m : Machine (List Output)}

/-- The head of the loop, with `k` bytes printed. -/
structure HelloLoop (mem : ByteMem.Mem) (size : Word) (k : Nat) (m : Machine (List Output)) : Prop
    extends At mem size 3 (printed mem k) m where
  a7 : m.hart.x 17 = 1#32
  t0 : m.hart.x 5 = BitVec.ofNat 32 (helloText + k)

/-- The loop comes to its test, with the word that starts at the byte it is at. -/
theorem hello_test (hcode : Loaded hello mem size) (hin : helloText + k + 4 ≤ size.toNat)
    (h : HelloLoop mem size k m) :
    ∃ m', Relation.ReflTransGen (Cycle emulatorEnvironment) m m' ∧
      At mem size (if helloWord mem k = 0 then 9 else 6) (printed mem k) m' ∧
      m'.hart.x 17 = 1#32 ∧ m'.hart.x 5 = BitVec.ofNat 32 (helloText + k) ∧
      m'.hart.x 10 = helloWord mem k := by
  have hsize := size.isLt
  obtain ⟨m1, hstep1, hat1, hx1⟩ := h.toAt.addi (E := emulatorEnvironment) hcode rfl
  have haddr : (m1.hart.x 5 + (0 : BitVec 12).signExtend 32).toNat = helloText + k := by
    rw [hx1, h.t0]
    simp [BitVec.toNat_ofNat]
    omega
  obtain ⟨m2, hstep2, hat2, hx2⟩ := hat1.lw (E := emulatorEnvironment) hcode rfl haddr hin
  obtain ⟨m3, hstep3, hat3, hx3⟩ := hat2.branch (E := emulatorEnvironment) hcode rfl
    (show _ = BitVec.ofNat 32 (4 * 9) by decide)
  have ha0 : m3.hart.x 10 = helloWord mem k := by
    rw [hx3, hx2]
    rfl
  have htest : BranchOp.beq.Taken (m2.hart.x 10) (m2.hart.x 6) ↔ helloWord mem k = 0 := by
    rw [← hx3, ha0, hx3, hx2, hx1, m.hart.x_zero]
    rfl
  refine ⟨m3, .head hstep1 (.head hstep2 (.single hstep3)), ?_, ?_, ?_, ha0⟩
  · rw [if_congr htest rfl rfl] at hat3
    exact hat3
  · rw [hx3, hx2, hx1]
    exact h.a7
  · rw [hx3, hx2, hx1]
    exact h.t0

theorem helloWord_low (mem : ByteMem.Mem) (k : Nat) : (helloWord mem k).setWidth 8 = mem (helloText + k) := by
  have hbyte : ByteMem.byteOf (ByteMem.read mem (helloText + k) 4) 0 = mem (helloText + k + 0) :=
    ByteMem.byteOf_read mem (helloText + k) (show 0 < 4 by decide)
  exact (BitVec.setWidth_eq_extractLsb' (by decide)).trans hbyte

theorem printed_succ (mem : ByteMem.Mem) (k : Nat) :
    printed mem (k + 1) = printed mem k ++ [Output.char (mem (helloText + k))] := by
  rw [printed, List.range_succ, List.map_append]
  rfl

/-- **A round** prints a byte, unless a zero word starts with it. -/
theorem hello_round (hcode : Loaded hello mem size) (hin : helloText + k + 4 ≤ size.toNat)
    (hword : helloWord mem k ≠ 0) :
    Reaches (Cycle emulatorEnvironment) (HelloLoop mem size k) (HelloLoop mem size (k + 1)) := by
  intro m h
  obtain ⟨m1, hsteps, hat1, ha7, ht0, ha0⟩ := hello_test hcode hin h
  rw [if_neg hword] at hat1
  obtain ⟨m2, hstep2, hat2, hx2⟩ := hat1.printChar hcode rfl ha7
  obtain ⟨m3, hstep3, hat3, hx3⟩ := hat2.addi (E := emulatorEnvironment) hcode rfl
  obtain ⟨m4, hstep4, hat4, hx4⟩ := hat3.j (E := emulatorEnvironment) hcode rfl (by decide)
    (show _ = BitVec.ofNat 32 (4 * 3) by decide)
  refine ⟨m4, (hsteps.tail hstep2).tail hstep3 |>.tail hstep4, ?_, ?_, ?_⟩
  · rw [ha0, helloWord_low] at hat4
    rw [printed_succ]
    exact hat4
  · rw [hx4, hx3, hx2]
    exact ha7
  · have hnext : BitVec.ofNat 32 (helloText + (k + 1)) = BitVec.ofNat 32 (helloText + k) + 1#32 := by
      rw [← Nat.add_assoc, BitVec.ofNat_add]
    rw [hx4, hx3, hx2, ht0, hnext]
    rfl

/-- The end: four zero bytes. -/
theorem hello_end (hcode : Loaded hello mem size) (hin : helloText + k + 4 ≤ size.toNat)
    (hword : helloWord mem k = 0) :
    Reaches (Cycle emulatorEnvironment) (HelloLoop mem size k) fun m =>
      m.mode = .stopped .halted ∧ m.hart.x 10 = 0 ∧ m.env = printed mem k := by
  intro m h
  obtain ⟨m1, hsteps, hat1, -, -, -⟩ := hello_test hcode hin h
  rw [if_pos hword] at hat1
  obtain ⟨m2, hstep2, hat2, hx2⟩ := hat1.addi (E := emulatorEnvironment) hcode rfl
  obtain ⟨m3, hstep3, hat3, hx3⟩ := hat2.addi (E := emulatorEnvironment) hcode rfl
  have ha7 : m3.hart.x 17 = 93#32 := by
    simp only [hx3, hx2, Hart.x_zero]
    rfl
  refine ⟨m3.stop .halted, ((hsteps.tail hstep2).tail hstep3).tail (hat3.exit hcode rfl ha7), rfl, ?_, hat3.env⟩
  show m3.hart.x 10 = 0
  simp only [hx3, Hart.x_zero]
  rfl

/-- Or the end of the RAM. -/
theorem hello_fault (hcode : Loaded hello mem size) (hout : size.toNat < helloText + k + 4)
    (hin : helloText + k ≤ size.toNat) (hsize : size.toNat < 0x90000000) :
    Reaches (Cycle emulatorEnvironment) (HelloLoop mem size k) fun m =>
      m.mode = .stopped .fault ∧ m.hart.pc = 16 ∧ m.mem = mem ∧ m.env = printed mem k := by
  intro m h
  obtain ⟨m1, hstep1, hat1, hx1⟩ := h.toAt.addi (E := emulatorEnvironment) hcode rfl
  have haddr : (m1.hart.x 5 + (0 : BitVec 12).signExtend 32).toNat = helloText + k := by
    rw [hx1, h.t0]
    simp [BitVec.toNat_ofNat]
    omega
  have hcontroller : m1.hart.x 5 + (0 : BitVec 12).signExtend 32 ≠ controllerAddress := by
    intro heq
    have hnat := congrArg BitVec.toNat heq
    rw [haddr] at hnat
    have hval : controllerAddress.toNat = 0x90000000 := by decide
    omega
  refine ⟨m1.stop .fault, (Relation.ReflTransGen.single hstep1).tail
    (hat1.lw_fault hcode rfl (by rw [haddr]; exact hout) hcontroller rfl), rfl, ?_, hat1.mem, hat1.env⟩
  exact hat1.pc

/-- The way in. -/
theorem hello_start (hcode : Loaded hello mem size) :
    Reaches (Cycle emulatorEnvironment) (At mem size 0 []) (HelloLoop mem size 0) := by
  intro m h
  obtain ⟨m1, hstep1, hat1, hx1⟩ := h.addi (E := emulatorEnvironment) hcode rfl
  obtain ⟨m2, hstep2, hat2, hx2⟩ := hat1.auipc (E := emulatorEnvironment) hcode rfl
  obtain ⟨m3, hstep3, hat3, hx3⟩ := hat2.addi (E := emulatorEnvironment) hcode rfl
  refine ⟨m3, .head hstep1 (.head hstep2 (.single hstep3)), hat3, ?_, ?_⟩
  · simp only [hx3, hx2, hx1, Hart.x_zero]
    rfl
  · simp only [hx3, hx2]
    rfl

/-! ## In `main` -/

/-- **`hello.s`** comes to its end at the first zero word. -/
theorem hello_reaches_end (hcode : Loaded hello mem size) (hin : helloText + k + 4 ≤ size.toNat)
    (hword : helloWord mem k = 0) (hfirst : ∀ j < k, helloWord mem j ≠ 0) :
    Reaches (Cycle emulatorEnvironment) (At mem size 0 []) fun m =>
      m.mode = .stopped .halted ∧ m.hart.x 10 = 0 ∧ m.env = printed mem k := by
  have hrounds : Reaches (Cycle emulatorEnvironment) (HelloLoop mem size 0) (HelloLoop mem size k) :=
    .iterate fun j hj => hello_round hcode (by omega) (hfirst j hj)
  exact ((hello_start hcode).trans hrounds).trans (hello_end hcode hin hword)

/-- Without one it comes to the end of the RAM. -/
theorem hello_reaches_fault (hcode : Loaded hello mem size) (hsize : size.toNat < 0x90000000)
    (hend : helloText + k + 3 = size.toNat)
    (hnever : ∀ j, helloText + j + 4 ≤ size.toNat → helloWord mem j ≠ 0) :
    Reaches (Cycle emulatorEnvironment) (At mem size 0 []) fun m =>
      m.mode = .stopped .fault ∧ m.hart.pc = 16 ∧ m.mem = mem ∧ m.env = printed mem k := by
  have hrounds : Reaches (Cycle emulatorEnvironment) (HelloLoop mem size 0) (HelloLoop mem size k) :=
    .iterate fun j hj => hello_round hcode (by omega) (hnever j (by omega))
  exact ((hello_start hcode).trans hrounds).trans (hello_fault hcode (by omega) (by omega) hsize)

/-- A program file: the code of `hello.s` and any text. -/
def helloFile (text : List Byte) : List Byte := binary hello ++ text

/-- The memory `main` starts `hello.s` with: the file, and behind it what the storage held. -/
def helloMemory (memory : RV32 (List Output)) (text : List Byte) : ByteMem.Mem :=
  (mainStart memory (helloFile text)).mem.bytes

section Main

variable {memory : RV32 (List Output)} {text : List Byte}

theorem hello_loaded (memory : RV32 (List Output)) (text : List Byte) :
    Loaded hello (helloMemory memory text) emulatorRamSize := loaded_binary (by decide)

theorem hello_at_start (memory : RV32 (List Output)) (text : List Byte) :
    At (helloMemory memory text) emulatorRamSize 0 [] (machine (mainStart memory (helloFile text))) where
  mode := rfl
  mie := show (0#32).getLsbD 3 = false by decide
  mem := rfl
  size := rfl
  pc := rfl
  env := rfl

theorem undisturbed_mainStart (memory : RV32 (List Output)) (file : List Byte) :
    Undisturbed (mainStart memory file) :=
  ⟨rfl, show 4 ≤ emulatorRamSize.toNat by decide⟩

theorem helloFile_ne_nil (text : List Byte) : helloFile text ≠ [] := by
  intro h
  have hlen := congrArg List.length h
  rw [helloFile, List.length_append, length_binary] at hlen
  simp [hello] at hlen

section Run

variable {prog path : String} {rest : List String} {fopen : String → Option (List Byte)}

/-- `hello.s` in `main`, with a zero word in the RAM. -/
theorem hello_ends (prog : String) (rest : List String) (hfile : fopen path = some (helloFile text))
    (hfits : (helloFile text).length ≤ emulatorRamSize.toNat)
    (hin : helloText + k + 4 ≤ emulatorRamSize.toNat) (hword : helloWord (helloMemory memory text) k = 0)
    (hfirst : ∀ j < k, helloWord (helloMemory memory text) j ≠ 0) :
    ∃ fuel t, emulatorMain fuel (prog :: path :: rest) fopen (some memory) =
        some { rc := 0, stderr := [], machine := some t } ∧
      t.host = printed (helloMemory memory text) k := by
  obtain ⟨m, hsteps, hmode, ha0, hout⟩ :=
    hello_reaches_end (hello_loaded memory text) hin hword hfirst _ (hello_at_start memory text)
  obtain ⟨fuel, t, hloop, rfl⟩ := mainLoop_of_reaches emulatorHost_implements
    (undisturbed_mainStart memory (helloFile text)) hsteps rfl ⟨_, hmode⟩
  have hst : t.status = .halted := modeOf_eq_stopped.mp hmode
  have hreport : emulatorReport t = ([], t) := by rw [emulatorReport, hst]
  have hrc : t.r regA0 = 0 := ha0
  refine ⟨fuel, t, ?_, hout⟩
  rw [emulatorMain_of_mainLoop hfile hfits (helloFile_ne_nil text) hloop, hreport, if_pos hst, hrc]

/-- What `main` reports when the load of `hello.s` fails. -/
def helloReport : List String :=
  ["Error RV32_INVALID_MEMORY_ACCESS at pc=" ++ hex08 16 ++ "\n",
    "instruction = 0x" ++ hex08 (Instr.load .lw 10 5 0).encode ++ "\n"]

/-- `hello.s` in `main`, without one. -/
theorem hello_faults (prog : String) (rest : List String) (hfile : fopen path = some (helloFile text))
    (hfits : (helloFile text).length ≤ emulatorRamSize.toNat)
    (hnever : ∀ k, helloText + k + 4 ≤ emulatorRamSize.toNat →
      helloWord (helloMemory memory text) k ≠ 0) :
    ∃ fuel t, emulatorMain fuel (prog :: path :: rest) fopen (some memory) =
        some { rc := 1, stderr := helloReport, machine := some t } ∧
      t.host = printed (helloMemory memory text) (emulatorRamSize.toNat - helloText - 3) := by
  have hcode := hello_loaded memory text
  obtain ⟨m, hsteps, hmode, hpc, hmem, hout⟩ := hello_reaches_fault
    (k := emulatorRamSize.toNat - helloText - 3) hcode (by decide) (by decide) hnever _
    (hello_at_start memory text)
  obtain ⟨fuel, t, hloop, rfl⟩ := mainLoop_of_reaches emulatorHost_implements
    (undisturbed_mainStart memory (helloFile text)) hsteps rfl ⟨_, hmode⟩
  have hst : t.status = .invalidMemoryAccess := modeOf_eq_stopped.mp hmode
  -- `main` prints the load itself, which the machine has not overwritten
  have hword : ByteMem.read t.mem.bytes 16 4 = (Instr.load .lw 10 5 0).encode := by
    have hread : t.mem.bytes = helloMemory memory text := hmem
    rw [hread]
    exact hcode.word 4 _ rfl
  have hreport : emulatorReport t = (helloReport, t.touch t.pc 4) := by
    have hpc' : t.pc = 16 := hpc
    simp only [emulatorReport, hst]
    rw [hpc', helloReport, ← hword]
    rfl
  have hrc : (t.touch t.pc 4).status ≠ .halted := by
    show t.status ≠ .halted
    rw [hst]
    decide
  refine ⟨fuel, t.touch t.pc 4, ?_, hout⟩
  rw [emulatorMain_of_mainLoop hfile hfits (helloFile_ne_nil text) hloop, hreport, if_neg hrc]

/-- **`hello.s` in `main`**, whatever text follows its code and whatever the storage held behind the file. It
    prints the bytes before the first four that are zero, and `main` returns 0; when there are no four zero
    bytes it prints all of the RAM behind its code but the last three bytes, where the word it loads no longer
    fits, and `main` reports the load that failed. -/
theorem hello_main (hfile : fopen path = some (helloFile text))
    (hfits : (helloFile text).length ≤ emulatorRamSize.toNat) :
    (∀ k, helloText + k + 4 ≤ emulatorRamSize.toNat → helloWord (helloMemory memory text) k = 0 →
      (∀ j < k, helloWord (helloMemory memory text) j ≠ 0) →
        ∃ fuel t, emulatorMain fuel (prog :: path :: rest) fopen (some memory) =
            some { rc := 0, stderr := [], machine := some t } ∧
          t.host = printed (helloMemory memory text) k) ∧
    ((∀ k, helloText + k + 4 ≤ emulatorRamSize.toNat → helloWord (helloMemory memory text) k ≠ 0) →
        ∃ fuel t, emulatorMain fuel (prog :: path :: rest) fopen (some memory) =
            some { rc := 1, stderr := helloReport, machine := some t } ∧
          t.host = printed (helloMemory memory text) (emulatorRamSize.toNat - helloText - 3)) :=
  ⟨fun _ hin hword hfirst => hello_ends prog rest hfile hfits hin hword hfirst,
    hello_faults prog rest hfile hfits⟩

end Run

/-! ## Its own text -/

/-- `"Hello, world!\n"` -/
def helloMessage : List Byte := "Hello, world!\n".toList.map fun c => BitVec.ofNat 8 c.toNat

/-- `.asciz` -/
def asciz (message : List Byte) : List Byte := message ++ [0]

theorem helloWord_eq_zero_iff : helloWord mem k = 0 ↔ ∀ j < 4, mem (helloText + k + j) = 0 := by
  constructor
  · intro hword j hj
    have hbyte : ByteMem.byteOf (ByteMem.read mem (helloText + k) 4) j = mem (helloText + k + j) :=
      ByteMem.byteOf_read mem (helloText + k) hj
    have hzero : ByteMem.read mem (helloText + k) 4 = 0 := hword
    rw [← hbyte, hzero]
    exact BitVec.extractLsb'_zero
  · intro hbytes
    exact read_wordBytes fun j hj => (hbytes j hj).trans BitVec.extractLsb'_zero.symm

theorem helloMemory_text (memory : RV32 (List Output)) {j : Nat} (hj : j < text.length) :
    helloMemory memory text (helloText + j) = text[j] := by
  have hlen : (binary hello).length = helloText := length_binary hello
  show Option.getD ((binary hello ++ text)[helloText + j]?) _ = _
  rw [List.getElem?_append_right (by omega), hlen, Nat.add_sub_cancel_left,
    List.getElem?_eq_getElem hj]
  rfl

/-- Behind the file is what the storage held. -/
theorem helloMemory_behind (memory : RV32 (List Output)) {i : Nat} (hi : helloText + text.length ≤ i) :
    helloMemory memory text i = memory.mem.bytes i := by
  have hlen : (helloFile text).length = helloText + text.length := by
    rw [helloFile, List.length_append, length_binary]
    rfl
  show Option.getD ((helloFile text)[i]?) (if offsetofMem + i < sizeofRV32 then 0 else _) = _
  have hoffset : ¬ offsetofMem + i < sizeofRV32 := by
    simp only [offsetofMem, sizeofRV32, helloText] at *
    omega
  rw [List.getElem?_eq_none (by omega), if_neg hoffset]
  rfl

/-- The message is printed when its text has been. -/
theorem printed_eq_message_iff (memory : RV32 (List Output)) {message rest : List Byte} :
    printed (helloMemory memory (message ++ rest)) k = message.map Output.char ↔ k = message.length := by
  constructor
  · intro h
    have hlen := congrArg List.length h
    simpa [printed] using hlen
  · rintro rfl
    apply List.ext_getElem
    · simp [printed]
    · intro j hj hj'
      have hlt : j < message.length := by simpa using hj'
      have htext : j < (message ++ rest).length := by
        rw [List.length_append]
        omega
      have hbyte := helloMemory_text memory htext
      simp only [printed, List.getElem_map, List.getElem_range, hbyte]
      rw [List.getElem_append_left hlt]

/-- No zero word starts inside the message. -/
theorem helloWord_ne_zero (memory : RV32 (List Output)) {message : List Byte} (rest : List Byte)
    (hne : ∀ b ∈ message, b ≠ 0) (hk : k < message.length) :
    helloWord (helloMemory memory (message ++ rest)) k ≠ 0 := by
  intro hword
  have hzero := helloWord_eq_zero_iff.mp hword 0 (by decide)
  have hlen : k < (message ++ rest).length := by
    rw [List.length_append]
    omega
  rw [Nat.add_zero, helloMemory_text memory hlen, List.getElem_append_left hk] at hzero
  exact hne message[k] (List.getElem_mem hk) hzero

/-- The message with its terminator and what the assembler pads the section with. -/
def paddedText (message : List Byte) (pad : Nat) : List Byte := asciz message ++ List.replicate pad 0

theorem paddedText_eq (message : List Byte) (pad : Nat) :
    paddedText message pad = message ++ List.replicate (pad + 1) 0 := by
  simp [paddedText, asciz, List.replicate_succ]

theorem length_paddedText (message : List Byte) (pad : Nat) :
    (paddedText message pad).length = message.length + 1 + pad := by
  rw [paddedText_eq, List.length_append, List.length_replicate]
  omega

/-- A zero word starts with its terminator when what is left of the word behind the file is zero. -/
theorem helloWord_terminator (memory : RV32 (List Output)) (message : List Byte) (pad : Nat) :
    helloWord (helloMemory memory (paddedText message pad)) message.length = 0 ↔
      ∀ i, helloText + message.length + 1 + pad ≤ i → i < helloText + message.length + 4 →
        memory.mem.bytes i = 0 := by
  have hlen := length_paddedText message pad
  have hbehind : ∀ i, helloText + message.length + 1 + pad ≤ i →
      helloMemory memory (paddedText message pad) i = memory.mem.bytes i :=
    fun i hi => helloMemory_behind memory (by omega)
  have hinside : ∀ j ≤ pad,
      helloMemory memory (paddedText message pad) (helloText + message.length + j) = 0 := by
    intro j hj
    rw [Nat.add_assoc, helloMemory_text memory (by omega)]
    simp [paddedText_eq]
  rw [helloWord_eq_zero_iff]
  constructor
  · intro h i hlow hhigh
    rw [← hbehind i hlow]
    have hbyte := h (i - (helloText + message.length)) (by omega)
    rwa [Nat.add_sub_cancel' (by omega)] at hbyte
  · intro h j hj
    by_cases hpad : j ≤ pad
    · exact hinside j hpad
    · rw [hbehind _ (by omega)]
      exact h _ (by omega) (by omega)

/-- Where a first zero word is, or that there is none. -/
theorem exists_first_zero (mem : ByteMem.Mem) (size : Word) :
    (∃ k, helloText + k + 4 ≤ size.toNat ∧ helloWord mem k = 0 ∧ ∀ j < k, helloWord mem j ≠ 0) ∨
      ∀ k, helloText + k + 4 ≤ size.toNat → helloWord mem k ≠ 0 := by
  by_cases h : ∃ k, helloText + k + 4 ≤ size.toNat ∧ helloWord mem k = 0
  · obtain ⟨hin, hword⟩ := Nat.find_spec h
    refine .inl ⟨Nat.find h, hin, hword, fun j hj hzero => ?_⟩
    exact Nat.find_min h hj ⟨by omega, hzero⟩
  · exact .inr fun k hin hword => h ⟨k, hin, hword⟩

/-- **When `hello.s` prints its message and no more.** Its loop tests a word, so that the bytes behind the file
    that the word of the terminator reaches to, and `main` never wrote, have to be zero: three of them, less
    the zero bytes the assembler has padded the file with. -/
theorem hello_prints_iff {prog path : String} {rest : List String} {fopen : String → Option (List Byte)}
    {pad : Nat} (hfile : fopen path = some (helloFile (paddedText helloMessage pad)))
    (hfits : (helloFile (paddedText helloMessage pad)).length ≤ emulatorRamSize.toNat) :
    (∃ fuel t, emulatorMain fuel (prog :: path :: rest) fopen (some memory) =
        some { rc := 0, stderr := [], machine := some t } ∧ t.host = helloMessage.map Output.char) ↔
      ∀ i, 63 + pad ≤ i → i < 66 → memory.mem.bytes i = 0 := by
  have hlen : helloMessage.length = 14 := by decide
  have hne : ∀ b ∈ helloMessage, b ≠ 0 := by decide
  have hprinted {k : Nat} : printed (helloMemory memory (paddedText helloMessage pad)) k =
      helloMessage.map Output.char ↔ k = 14 := by
    rw [paddedText_eq, printed_eq_message_iff, hlen]
  have hterminator := helloWord_terminator memory helloMessage pad
  rw [hlen] at hterminator
  rw [show (63 : Nat) = helloText + 14 + 1 from rfl, show (66 : Nat) = helloText + 14 + 4 from rfl,
    ← hterminator]
  constructor
  · rintro ⟨fuel, t, hresult, hout⟩
    rcases exists_first_zero (helloMemory memory (paddedText helloMessage pad)) emulatorRamSize with
      ⟨k, hin, hword, hfirst⟩ | hnever
    · obtain ⟨fuel', t', hresult', hout'⟩ := hello_ends prog rest hfile hfits hin hword hfirst
      have hsame := emulatorMain_unique hresult hresult'
      simp only [MainResult.mk.injEq, Option.some.injEq, true_and] at hsame
      subst hsame
      have hk : k = 14 := hprinted.mp (hout'.symm.trans hout)
      rw [hk] at hword
      exact hword
    · obtain ⟨fuel', t', hresult', -⟩ := hello_faults prog rest hfile hfits hnever
      have hsame := emulatorMain_unique hresult hresult'
      simp at hsame
  · intro hword
    have hfirst : ∀ j < 14, helloWord (helloMemory memory (paddedText helloMessage pad)) j ≠ 0 := by
      intro j hj
      rw [paddedText_eq]
      exact helloWord_ne_zero memory _ hne (by omega)
    obtain ⟨fuel, t, hresult, hout⟩ := hello_ends prog rest hfile hfits (by decide) hword hfirst
    exact ⟨fuel, t, hresult, hout.trans (hprinted.mpr rfl)⟩

/-- In storage that is zero it prints its message. -/
theorem hello_main_zeroStorage :
    ∃ fuel t, emulatorMain fuel ["rv32", "hello.bin"] (fun _ => some (helloFile (paddedText helloMessage 0)))
        (some zeroStorage) = some { rc := 0, stderr := [], machine := some t } ∧
      t.host = printed (helloMemory zeroStorage (paddedText helloMessage 0)) 14 := by
  have hlen : helloMessage.length = 14 := by decide
  have hne : ∀ b ∈ helloMessage, b ≠ 0 := by decide
  have hword := (helloWord_terminator zeroStorage helloMessage 0).mpr fun _ _ _ => rfl
  rw [hlen] at hword
  refine (hello_main rfl (by decide)).1 14 (by decide) hword fun j hj => ?_
  rw [paddedText_eq]
  exact helloWord_ne_zero zeroStorage _ hne (by omega)

/-- Padded to 64 bytes, too. -/
theorem hello_prints_iff_zeroStorage :
    ∃ fuel t, emulatorMain fuel ["rv32", "hello.bin"] (fun _ => some (helloFile (paddedText helloMessage 1)))
        (some zeroStorage) = some { rc := 0, stderr := [], machine := some t } ∧
      t.host = helloMessage.map Output.char :=
  (hello_prints_iff rfl (by decide)).mpr fun _ _ _ => rfl

end Main

end Guest
end Rv32
