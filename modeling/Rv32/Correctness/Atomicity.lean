import Rv32.Correctness.Deframed

/-!
# `Correctness.Atomicity` — a frame takes effect in one piece

While a frame is on its way the machine goes on running, and the loop may come by many times between two of
its bytes. None of that shows: up to the last digit the deframer gives no command but the cycles, so the packet
is handled at one point of the run, on the machine as it is then (`frame_atomic`). And nothing else is
handled: behind every call of `rsp_handle_packet` there is a frame that has come to its last digit, with the
packet for its payload and the right sum (`handled_framed`).
-/

namespace Rv32

open Prog

variable {σ : Type} {f g : Deframer} {inputs : List MainInput}

/-- The byte of a round, if there was one. -/
def MainInput.byte? : MainInput → Option Byte
  | .idle     => none
  | .byte c _ => some c

/-- The bytes of the rounds `inputs`. -/
def bytesIn (inputs : List MainInput) : List Byte := inputs.filterMap MainInput.byte?

theorem bytesIn_concat (inputs : List MainInput) (input : MainInput) :
    bytesIn (inputs ++ [input]) = bytesIn inputs ++ input.byte?.toList := by
  rw [bytesIn, List.filterMap_append]
  cases input <;> rfl

/-! ## Bytes that ask for nothing -/

/-- The bytes take the deframer from one state to the other, and none of them is a command. -/
inductive Absorbs : Deframer → List Byte → Deframer → Prop where
  | nil (f : Deframer) : Absorbs f [] f
  | cons {f g h : Deframer} {c : Byte} {cs : List Byte} (hfeed : ∀ ind, f.feed c ind = (g, []))
      (hrest : Absorbs g cs h) : Absorbs f (c :: cs) h

theorem Absorbs.append {h : Deframer} {cs ds : List Byte} (hleft : Absorbs f cs g) (hright : Absorbs g ds h) :
    Absorbs f (cs ++ ds) h := by
  induction hleft with
  | nil => exact hright
  | cons hfeed _ ih => exact .cons hfeed (ih hright)

/-- Whatever rounds such bytes come in, there is nothing to do but the cycles. -/
theorem Absorbs.commands (h : Absorbs f (bytesIn inputs) g) :
    f.commands inputs = List.replicate inputs.length .cycle ∧ f.read inputs = g := by
  induction inputs generalizing f with
  | nil =>
      cases h
      exact ⟨rfl, rfl⟩
  | cons input inputs ih =>
      cases input with
      | idle =>
          obtain ⟨hcommands, hread⟩ := ih h
          exact ⟨congrArg (Command.cycle :: ·) hcommands, hread⟩
      | byte c ind =>
          have hbytes : bytesIn (.byte c ind :: inputs) = c :: bytesIn inputs := rfl
          rw [hbytes] at h
          cases h with
          | cons hfeed hrest =>
              obtain ⟨hcommands, hread⟩ := ih hrest
              have hnext : f.readInput (.byte c ind) = _ := congrArg Prod.fst (hfeed ind)
              have hnone : f.inputCommands (.byte c ind) = [] := congrArg Prod.snd (hfeed ind)
              rw [Deframer.commands, Lts.trace, Deframer.roundCommands, hnone, hnext, Deframer.read,
                Lts.run_cons, hnext]
              exact ⟨congrArg (Command.cycle :: ·) hcommands, hread⟩

/-- The payload of a frame. -/
theorem absorbs_payload {q p : List Byte} {stale : Nat → Byte} (hlen : (q ++ p).length ≤ rspBufferSize)
    (hhash : char '#' ∉ p) : Absorbs ⟨.payload q, stale⟩ p ⟨.payload (q ++ p), stale⟩ := by
  induction p generalizing q with
  | nil =>
      rw [List.append_nil]
      exact .nil _
  | cons c p ih =>
      obtain ⟨hc, hrest⟩ := not_or.mp (List.mem_cons.not.mp hhash)
      have hroom : q.length < rspBufferSize := by
        rw [List.length_append, List.length_cons] at hlen
        omega
      have hfeed : ∀ ind, Deframer.feed ⟨.payload q, stale⟩ c ind = (⟨.payload (q ++ [c]), stale⟩, []) := by
        intro ind
        simp only [Deframer.feed]
        rw [if_neg (Ne.symm hc), if_pos hroom]
      have hih := ih (q := q ++ [c]) (by simpa using hlen) hrest
      rw [List.append_assoc] at hih
      exact .cons hfeed hih

/-- **A frame up to its last digit** asks for nothing. -/
theorem absorbs_frame {p : List Byte} {d1 : Byte} {stale : Nat → Byte} (hlen : p.length ≤ rspBufferSize)
    (hhash : char '#' ∉ p) (hd1 : rspIsHexDigit d1 = true) :
    Absorbs ⟨.outside, stale⟩ (char '$' :: p ++ [char '#', d1]) ⟨.digit p d1, stale⟩ := by
  have hdigit : ∀ ind, Deframer.feed ⟨.sum p, stale⟩ d1 ind = (⟨.digit p d1, stale⟩, []) := by
    intro ind
    simp only [Deframer.feed]
    rw [if_pos hd1]
  have htail : Absorbs ⟨.payload p, stale⟩ [char '#', d1] ⟨.digit p d1, stale⟩ :=
    .cons (fun _ => rfl) (.cons hdigit (.nil _))
  exact .cons (fun _ => rfl) ((absorbs_payload (q := []) hlen hhash).append htail)

/-! ## Atomicity -/

/-- The deframer of a stub that is outside of a frame. -/
def Deframer.outsideOf (r : RspReceiver) : Deframer := { phase := .outside, stale := r.buffer fun _ => 0 }

theorem layered_outsideOf {r : RspReceiver} (m : RV32 σ) (hstate : r.state = .waitStart) :
    Layered ⟨⟨m, r⟩, none⟩ (Deframer.outsideOf r) ⟨m, none⟩ where
  behind := rfl
  tracks _ := by
    refine ⟨hstate, fun i => ?_⟩
    simp only [Deframer.outsideOf, RspReceiver.buffer, i.isLt, dite_true]

theorem outsideOf_behind (r : RspReceiver) (ind : Indeterminate) :
    (Deframer.outsideOf r).behind ind = r.buffer ind.behind := by
  funext i
  simp only [Deframer.behind, Deframer.outsideOf, RspReceiver.buffer]
  split <;> rfl

/-- **A frame takes effect at its last digit.** However its bytes are spread over the rounds, the loop has made
    as many cycles as there were rounds before the last, then it handles the packet, and then it makes a cycle
    again; nothing else is done or sent. -/
theorem frame_atomic (host : Host σ) (m : RV32 σ) {r : RspReceiver} {p : List Byte} {d1 d2 : Byte}
    {inputs : List MainInput} (ind : Indeterminate) (hstate : r.state = .waitStart) (h : WellFormed p d1 d2)
    (hbytes : bytesIn inputs = char '$' :: p ++ [char '#', d1]) :
    executeAll host ⟨m, none⟩
        (List.replicate inputs.length .cycle ++ [.handle p (r.buffer ind.behind), .cycle]) =
      ⟨(Process.run (mainRound host) ⟨⟨m, r⟩, none⟩ (inputs ++ [.byte d2 ind])).state.machine,
        (Process.run (mainRound host) ⟨⟨m, r⟩, none⟩ (inputs ++ [.byte d2 ind])).died⟩ ∧
    executeEvents host ⟨m, none⟩
        (List.replicate inputs.length .cycle ++ [.handle p (r.buffer ind.behind), .cycle]) =
      Process.sent (mainRound host) ⟨⟨m, r⟩, none⟩ (inputs ++ [.byte d2 ind]) := by
  have habsorbs : Absorbs (Deframer.outsideOf r) (bytesIn inputs) { Deframer.outsideOf r with phase := .digit p d1 } := by
    rw [hbytes]
    exact absorbs_frame h.fits h.noHash h.digit1
  obtain ⟨hcommands, hread⟩ := habsorbs.commands
  have hlast : Deframer.roundCommands { Deframer.outsideOf r with phase := .digit p d1 } (.byte d2 ind) =
      [.handle p (r.buffer ind.behind), .cycle] := by
    simp only [Deframer.roundCommands, Deframer.inputCommands, Deframer.feed]
    rw [if_pos h.digit2, if_pos h.sum.symm, ← outsideOf_behind]
    rfl
  have hall : (Deframer.outsideOf r).commands (inputs ++ [.byte d2 ind]) =
      List.replicate inputs.length .cycle ++ [.handle p (r.buffer ind.behind), .cycle] := by
    rw [Deframer.commands, Lts.trace_concat]
    exact congrArg₂ (· ++ ·) hcommands (by rw [← hlast, ← hread])
  obtain ⟨hlayered, hsent⟩ :=
    (mainRound_layers host).run (layered_outsideOf m hstate) (inputs ++ [.byte d2 ind])
  rw [← hall]
  exact ⟨hlayered.behind, hsent.symm⟩

/-- The bytes of `$?#3`, with rounds without a byte between them. -/
def slowQuery : List MainInput :=
  [.idle, .byte (char '$') noIndeterminate, .byte (char '?') noIndeterminate, .idle,
    .byte (char '#') noIndeterminate, .idle, .idle, .byte (char '3') noIndeterminate]

/-- The query of a debugger that takes its time. -/
theorem frame_atomic_slowQuery :
    Process.sent (mainRound stubHost) (stubStart busyStart)
        (slowQuery ++ [.byte (char 'f') noIndeterminate]) =
      [.sent [char '+'], .handled (cstr "?"), stopReply .sigtrap] := by
  have hframe : WellFormed (cstr "?") (char '3') (char 'f') :=
    { fits := by decide, noHash := by decide, digit1 := by decide, digit2 := by decide, sum := by decide }
  have hslow : bytesIn slowQuery = char '$' :: cstr "?" ++ [char '#', char '3'] := rfl
  have hsent := (frame_atomic stubHost busyStart noIndeterminate (r := rspInit) rfl hframe hslow).2
  exact hsent.symm.trans (by decide +kernel)

/-! ## What is handled has been framed -/

/-- The bytes that have come end with the part of a frame the deframer has read. -/
def Deframer.Spells (f : Deframer) (bs : List Byte) : Prop :=
  match f.phase with
  | .outside | .unacknowledged | .aborted => True
  | .payload q => (∃ noise, bs = noise ++ char '$' :: q) ∧ char '#' ∉ q ∧ q.length ≤ rspBufferSize
  | .sum q     => (∃ noise, bs = noise ++ (char '$' :: q ++ [char '#'])) ∧ char '#' ∉ q ∧ q.length ≤ rspBufferSize
  | .digit q d => (∃ noise, bs = noise ++ (char '$' :: q ++ [char '#', d])) ∧ rspIsHexDigit d = true ∧
      char '#' ∉ q ∧ q.length ≤ rspBufferSize

theorem Deframer.Spells.after (f : Deframer) (q : List Byte) (answered : Prop) [Decidable answered]
    (bs : List Byte) : (f.after q answered).Spells bs := by
  unfold Deframer.Spells Deframer.after
  split_ifs <;> trivial

/-- One more byte. -/
theorem Deframer.Spells.feed {bs : List Byte} (h : f.Spells bs) (c : Byte) (ind : Indeterminate) :
    (f.feed c ind).1.Spells (bs ++ [c]) := by
  unfold Spells at h
  unfold Deframer.feed
  cases hphase : f.phase with
  | outside =>
      simp only
      have hsame : f.Spells (bs ++ [c]) := by simp only [Spells, hphase]
      split_ifs with hstart hctrlC
      · exact ⟨⟨bs, by rw [hstart]⟩, List.not_mem_nil, Nat.zero_le _⟩
      · exact hsame
      · exact hsame
  | payload q =>
      simp only [hphase] at h
      obtain ⟨⟨noise, rfl⟩, hhash, hlen⟩ := h
      simp only
      split_ifs with hc hroom
      · exact ⟨⟨noise, by simp [hc]⟩, hhash, hlen⟩
      · refine ⟨⟨noise, by simp⟩, ?_, ?_⟩
        · rw [List.mem_append, List.mem_singleton]
          exact not_or.mpr ⟨hhash, Ne.symm hc⟩
        · rw [List.length_append, List.length_singleton]
          exact hroom
      · trivial
  | sum q =>
      simp only [hphase] at h
      obtain ⟨⟨noise, rfl⟩, hhash, hlen⟩ := h
      simp only
      split_ifs with hdigit
      · exact ⟨⟨noise, by simp⟩, hdigit, hhash, hlen⟩
      · trivial
  | digit q d =>
      simp only
      split_ifs
      · exact Spells.after f q _ _
      · exact Spells.after f q _ _
      · trivial
  | unacknowledged =>
      simp only
      split_ifs
      · trivial
      · trivial
  | aborted => simp only [Spells, hphase]

theorem Deframer.Spells.read {bs : List Byte} (h : f.Spells bs) (inputs : List MainInput) :
    (f.read inputs).Spells (bs ++ bytesIn inputs) := by
  induction inputs generalizing f bs with
  | nil => simpa [bytesIn] using h
  | cons input inputs ih =>
      cases input with
      | idle => exact ih h
      | byte c ind =>
          have hbytes : bytesIn (.byte c ind :: inputs) = [c] ++ bytesIn inputs := rfl
          rw [hbytes, ← List.append_assoc]
          exact ih (h.feed c ind)

/-- A packet is handed over at the last digit of its frame. -/
theorem Deframer.handle_mem {bs p : List Byte} {behind : Nat → Byte} {input : MainInput} (h : f.Spells bs)
    (hmem : Command.handle p behind ∈ f.roundCommands input) :
    ∃ noise d1 d2, bs ++ input.byte?.toList = noise ++ frameBytes p d1 d2 ∧ WellFormed p d1 d2 := by
  rw [roundCommands, List.mem_append, List.mem_singleton, or_iff_left (by simp)] at hmem
  cases input with
  | idle => cases hmem
  | byte c ind =>
      unfold Spells at h
      simp only [inputCommands, Deframer.feed] at hmem
      cases hphase : f.phase with
      | digit q d =>
          simp only [hphase] at h hmem
          obtain ⟨⟨noise, rfl⟩, hd, hhash, hlen⟩ := h
          split_ifs at hmem with hdigit hsum
          · obtain ⟨rfl, -⟩ := Command.handle.inj (List.mem_singleton.mp hmem)
            refine ⟨noise, d, c, by simp [frameBytes, MainInput.byte?], ?_⟩
            exact { fits := hlen, noHash := hhash, digit1 := hd, digit2 := hdigit, sum := hsum.symm }
          · simp at hmem
          · simp [abort] at hmem
      | outside =>
          simp only [hphase] at hmem
          split_ifs at hmem <;> simp at hmem
      | payload q =>
          simp only [hphase] at hmem
          split_ifs at hmem <;> simp [abort] at hmem
      | sum q =>
          simp only [hphase] at hmem
          split_ifs at hmem <;> simp [abort] at hmem
      | unacknowledged =>
          simp only [hphase] at hmem
          split_ifs at hmem <;> simp [abort] at hmem
      | aborted => simp [hphase] at hmem

/-- A call of `rsp_handle_packet` comes from the command. -/
theorem handled_mem_execute {host : Host σ} {p : List Byte} {command : Command} {s : RV32 σ}
    (h : RspEvent.handled p ∈ (execute host command s).out) : ∃ behind, command = .handle p behind := by
  cases command with
  | cycle =>
      have hnone : ∀ status, RspEvent.handled p ∉ stopReplies status := by
        intro status
        cases status <;> simp [stopReplies, stopReply]
      simp only [execute, executeCycle] at h
      split_ifs at h
      · exact absurd h (hnone _)
      · cases h
  | handle q behind =>
      simp only [execute, executePacket, List.mem_cons, List.mem_map, reduceCtorEq, and_false,
        exists_false, or_false, false_or, RspEvent.handled.injEq] at h
      exact ⟨behind, by rw [h]⟩
  | refuse => simp [execute, send] at h
  | interrupt => simp [execute, send, stopReply] at h
  | abort msg => cases h

/-- **Only frames are handled.** In every run of the loop, a round that calls `rsp_handle_packet` has received
    the last digit of a frame with that payload and the right sum. -/
theorem handled_framed (host : Host σ) (m : RV32 σ) {inputs : List MainInput} {input : MainInput}
    {p : List Byte}
    (h : RspEvent.handled p ∈
      Process.emit (mainRound host) (Process.run (mainRound host) (stubStart m) inputs) input) :
    ∃ noise d1 d2, bytesIn (inputs ++ [input]) = noise ++ frameBytes p d1 d2 ∧ WellFormed p d1 d2 := by
  have hlayered := ((mainRound_layers host).run (layered_stubStart m) inputs).1
  rw [(mainRound_layers host).emit input hlayered] at h
  obtain ⟨pre, command, post, hcommands, hmem⟩ := Lts.mem_trace_iff.mp h
  have hstart : Deframer.initial.Spells [] := trivial
  have hspells : (Deframer.initial.read inputs).Spells (bytesIn inputs) := hstart.read inputs
  -- the command is one of the round's
  have hcommand : ∃ behind, command = .handle p behind := by
    unfold Process.emit at hmem
    split at hmem
    · cases hmem
    · exact handled_mem_execute hmem
  obtain ⟨behind, rfl⟩ := hcommand
  have hround : .handle p behind ∈ (Deframer.initial.read inputs).roundCommands input := by
    rw [hcommands]
    exact List.mem_append_right _ (List.mem_cons_self ..)
  rw [bytesIn_concat]
  exact Deframer.handle_mem hspells hround

/-- What is behind the call for the slow query. -/
theorem handled_framed_slowQuery :
    ∃ noise d1 d2, bytesIn (slowQuery ++ [.byte (char 'f') noIndeterminate]) =
      noise ++ frameBytes (cstr "?") d1 d2 ∧ WellFormed (cstr "?") d1 d2 := by
  refine handled_framed stubHost busyStart ?_
  have hemit : Process.emit (mainRound stubHost)
      (Process.run (mainRound stubHost) (stubStart busyStart) slowQuery) (.byte (char 'f') noIndeterminate) =
        [.sent [char '+'], .handled (cstr "?"), stopReply .sigtrap] := by decide +kernel
  rw [hemit]
  decide

end Rv32
