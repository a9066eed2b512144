import Rv32.Lib.Layers
import Rv32.Rsp.Framing
import Rv32.Rsp.Main

/-!
# `Rsp.Deframer` — the stub as a reader of frames and an executor of packets

What the bytes of the debugger ask of the machine does not depend on the machine: the receiver looks at
bytes only, and whether a packet is answered is decided by its first letter. A `Deframer` is the
receiver as a specification would have it. It knows how much of a frame it has seen, and turns each byte into
at most one `Command`; `execute` is what a command does to the machine. The bytes behind the packet, which
the handlers can look at, are those of earlier frames, so the deframer remembers them too.
-/

namespace Rv32

open Prog

variable {σ : Type}

/-- How far a frame has been read. -/
inductive Phase where
  | outside
  | payload (q : List Byte)
  | sum (q : List Byte)
  | digit (q : List Byte) (d : Byte)
  | unacknowledged
  | aborted

/-- The reader of frames. -/
structure Deframer where
  phase : Phase
  stale : Nat → Byte   -- the buffer before the frame being read

/-- What a byte, or the second half of a round, asks of the machine. -/
inductive Command where
  | cycle
  | handle (packet : List Byte) (behind : Nat → Byte)
  | refuse
  | interrupt
  | abort (msg : String)

/-- The packet is one of those that are not answered. -/
def Unanswered (p : List Byte) : Prop := p.head? = some (char 'c') ∨ p.head? = some (char 'k')

instance (p : List Byte) : Decidable (Unanswered p) := inferInstanceAs (Decidable (_ ∨ _))

namespace Deframer

/-- Nothing has been read, and the buffer is static storage. -/
def initial : Deframer := { phase := .outside, stale := fun _ => 0 }

variable (f : Deframer)

/-- The buffer behind a packet, and what lies behind the array. -/
def behind (ind : Indeterminate) (i : Nat) : Byte := if i < rspBufferSize then f.stale i else ind.behind i

/-- The deframer after a frame with payload `q`. -/
def after (q : List Byte) (answered : Prop) [Decidable answered] : Deframer where
  phase := if answered then .unacknowledged else .outside
  stale := packetBuffer q f.stale

/-- The deframer after a byte the protocol does not allow, for which the program exits. -/
def abort (msg : String) : Deframer × List Command := ({ f with phase := .aborted }, [.abort msg])

/-- One byte: the new state, and what there is to do. -/
def feed (c : Byte) (ind : Indeterminate) : Deframer × List Command :=
  match f.phase with
  | .outside        =>
      if c = char '$' then ({ f with phase := .payload [] }, [])
      else if c = 3 then (f, [.interrupt])
      else (f, [])
  | .payload q      =>
      if c = char '#' then ({ f with phase := .sum q }, [])
      else if q.length < rspBufferSize then ({ f with phase := .payload (q ++ [c]) }, [])
      else f.abort "input buffer too small"
  | .sum q          =>
      if rspIsHexDigit c then ({ f with phase := .digit q c }, []) else f.abort "invalid hex digit"
  | .digit q d      =>
      if rspIsHexDigit c then
        if q.sum = hexByte d c then (f.after q (¬ Unanswered q), [.handle q (f.behind ind)])
        else (f.after q (ind.handlerResult = .packetSent), [.refuse])
      else f.abort "invalid hex digit"
  | .unacknowledged =>
      if c = char '+' then ({ f with phase := .outside }, [])
      else f.abort "gdb didn't acknowledge last packet"
  | .aborted        => (f, [])

/-- What the input of a round does to the deframer. -/
def readInput : MainInput → Deframer
  | .idle       => f
  | .byte c ind => (f.feed c ind).1

/-- The commands of the first half of a round. -/
def inputCommands : MainInput → List Command
  | .idle       => []
  | .byte c ind => (f.feed c ind).2

/-- The commands of a round: those of its byte, and the cycle. -/
def roundCommands (input : MainInput) : List Command := f.inputCommands input ++ [.cycle]

/-- The commands of the rounds `inputs`. -/
abbrev commands (inputs : List MainInput) : List Command := Lts.trace readInput roundCommands f inputs

/-- The deframer after the rounds `inputs`. -/
abbrev read (inputs : List MainInput) : Deframer := Lts.run readInput f inputs

end Deframer

/-! ## The executor -/

variable (host : Host σ)

/-- The packet is acknowledged and handed over. -/
def executePacket (packet : List Byte) (behind : Nat → Byte) : Prog (RV32 σ) RspEvent Unit := fun s =>
  let outcome := rspHandlePacket host (packetBuffer packet behind) packet.length s
  { value := outcome.value.map fun _ => ()
    state := outcome.state
    out := .sent [char '+'] :: .handled packet :: outcome.out.map .sent }

/-- A cycle, if the machine runs, and what there is to report of it. -/
def executeCycle : Prog (RV32 σ) RspEvent Unit := fun s =>
  if s.status = .running then ⟨.ok (), rv32Cycle host s, stopReplies (rv32Cycle host s).status⟩
  else ⟨.ok (), s, []⟩

/-- What a command does to the machine, and what it sends. -/
def execute : Command → Prog (RV32 σ) RspEvent Unit
  | .cycle                => executeCycle host
  | .handle packet behind => executePacket host packet behind
  | .refuse               => send (.sent [char '-'])
  | .interrupt            => do
      modifyState fun s => { s with status := .paused }
      send (stopReply .sigint)
  | .abort msg            => fatal msg

/-- The machine after the commands `cs`. -/
abbrev executeAll (p : Process (RV32 σ)) (cs : List Command) : Process (RV32 σ) :=
  Process.run (execute host) p cs

/-- What the commands `cs` send. -/
abbrev executeEvents (p : Process (RV32 σ)) (cs : List Command) : List RspEvent :=
  Process.sent (execute host) p cs

/-- What a packet starts with, read off the buffer. -/
theorem starts_iff_head? {p : List Byte} {behind : Nat → Byte} (letter : Char) :
    RspStarts letter (packetBuffer p behind) p.length ↔ p.head? = some (char letter) := by
  cases p with
  | nil => simp [RspStarts]
  | cons d q => simp [RspStarts, packetBuffer]

/-! ## The receiver -/

/-- The buffer holds `q`, behind it what it held before, and `q` has been summed up. -/
structure Collected (stale : Nat → Byte) (q : List Byte) (r : RspReceiver) : Prop where
  packet : r.packet = q
  sum : r.sum1 = q.sum
  rest : ∀ i, q.length ≤ i.val → r.inBuffer i = stale i

/-- The receiver is where the deframer is. -/
def Deframer.Tracks (f : Deframer) (r : RspReceiver) : Prop :=
  match f.phase with
  | .outside        => r.state = .waitStart ∧ ∀ i, r.inBuffer i = f.stale i
  | .payload q      => r.state = .packetData ∧ Collected f.stale q r
  | .sum q          => r.state = .checksum1 ∧ Collected f.stale q r
  | .digit q d      => r.state = .checksum2 ∧ Collected f.stale q r ∧ r.sum2 = hexValue d <<< 4
  | .unacknowledged => r.state = .waitAck ∧ ∀ i, r.inBuffer i = f.stale i
  | .aborted        => False

section Collected

variable {stale : Nat → Byte} {q : List Byte} {r : RspReceiver}

theorem Collected.size (h : Collected stale q r) : r.iptr = q.length := by rw [← r.packet_length, h.packet]

theorem Collected.fits (h : Collected stale q r) : q.length ≤ rspBufferSize := by
  rw [← h.size]
  exact r.fits

/-- A frame starts with an empty packet. -/
theorem collected_clear (h : ∀ i, r.inBuffer i = stale i) (state : RspState) :
    Collected stale [] { r.clear with state := state } where
  packet := rfl
  sum := rfl
  rest i _ := h i

/-- A byte of the payload. -/
theorem Collected.push (h : Collected stale q r) (c : Byte) (hroom : r.iptr < rspBufferSize) :
    Collected stale (q ++ [c]) (r.push c hroom) where
  packet := by rw [RspReceiver.push_packet, h.packet]
  sum := by
    show r.sum1 + c = _
    rw [h.sum, List.sum_append, List.sum_singleton]
  rest i hi := by
    rw [List.length_append, List.length_singleton] at hi
    have hne : i ≠ ⟨r.iptr, hroom⟩ := by
      intro heq
      have hval : i.val = r.iptr := congrArg Fin.val heq
      have hsize := h.size
      omega
    exact (Function.update_of_ne hne _ _).trans (h.rest i (by omega))

/-- The whole buffer, in the array. -/
theorem Collected.inBuffer (h : Collected stale q r) (i : Fin rspBufferSize) :
    r.inBuffer i = packetBuffer q stale i := by
  by_cases hi : q.length ≤ i.val
  · rw [packetBuffer_of_le hi]
    exact h.rest i hi
  · have hbuffer := congrFun (r.buffer_eq_packetBuffer fun _ => 0) i.val
    rw [h.packet, RspReceiver.buffer, dif_pos i.isLt] at hbuffer
    exact hbuffer.trans (packetBuffer_agree (Nat.lt_of_not_le hi))

/-- The buffer the handlers are given. -/
theorem Collected.buffer {f : Deframer} (h : Collected f.stale q r) (ind : Indeterminate) :
    r.buffer ind.behind = packetBuffer q (f.behind ind) := by
  have hfits := h.fits
  funext i
  by_cases hi : i < rspBufferSize
  · rw [RspReceiver.buffer, dif_pos hi, h.inBuffer]
    by_cases hlen : i < q.length
    · exact packetBuffer_agree hlen
    · rw [packetBuffer_of_le (Nat.le_of_not_lt hlen), packetBuffer_of_le (Nat.le_of_not_lt hlen),
        Deframer.behind, if_pos hi]
  · rw [RspReceiver.buffer, dif_neg hi, packetBuffer_of_le (by omega), Deframer.behind, if_neg hi]

end Collected

end Rv32
