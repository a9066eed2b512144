import Rv32.Correctness.ReplyDiscipline
import Rv32.Rsp.Deframer

/-!
# `Correctness.Deframed` — the main loop executes packets, whatever the bytes are interleaved with

The receiver and the machine meet only where a packet is handed over, so the loop is a deframer with an
executor behind it (`mainLoop_deframed`): a run over any bytes, cycles between any of them, does to the machine
and sends to the debugger what the commands of the deframer do and send, and ends the program where they do.
A frame therefore takes effect in one piece, at its last digit, however long it has been on its way
(`frame_atomic`), and only what came as a whole frame with the right sum is handled (`handled_framed`).
-/

namespace Rv32

open Prog

variable {σ : Type} {host : Host σ} {f : Deframer} {r : RspReceiver} {c : Byte} {ind : Indeterminate}
  {m : RV32 σ}

/-! ## One byte -/

/-- What a call of `rsp_handle_byte` did is what the commands `cs` do, and if it returned, the receiver is
    where `f` is. -/
structure Executed (host : Host σ) (m : RV32 σ) (cs : List Command) (f : Deframer)
    (o : Outcome (Stub σ) RspEvent Unit) : Prop where
  run : executeAll host ⟨m, none⟩ cs =
    ⟨o.state.machine, match o.value with
      | .ok _      => none
      | .error msg => some msg⟩
  sent : executeEvents host ⟨m, none⟩ cs = o.out
  tracks : o.value = .ok () → f.Tracks o.state.receiver

/-- Nothing is done. -/
theorem executed_nil {r' : RspReceiver} (h : f.Tracks r') : Executed host m [] f ⟨.ok (), ⟨m, r'⟩, []⟩ where
  run := rfl
  sent := rfl
  tracks _ := h

/-- One command is executed. -/
theorem executed_single {command : Command} {o : Outcome (Stub σ) RspEvent Unit}
    (hexec : execute host command m = ⟨o.value, o.state.machine, o.out⟩)
    (htracks : o.value = .ok () → f.Tracks o.state.receiver) : Executed host m [command] f o where
  run := by
    have hsingle : Process.Runs (execute host) ⟨m, none⟩ [command] _ _ := Process.Runs.single m command
    rw [hexec] at hsingle
    exact hsingle.run
  sent := by
    have hsingle : Process.Runs (execute host) ⟨m, none⟩ [command] _ _ := Process.Runs.single m command
    rw [hexec] at hsingle
    exact hsingle.sent
  tracks := htracks

theorem executed_abort (msg : String) (t : Stub σ) :
    Executed host t.machine [.abort msg] f ⟨.error msg, t, []⟩ :=
  executed_single rfl (fun h => by cases h)

/-- Behind the last digit the receiver is outside of a frame again, or waits for the acknowledgement. -/
theorem Collected.tracks_finish {q : List Byte} (h : Collected f.stale q r) (c : Byte)
    (handlerResult : RspHandlerResult) {answered : Prop} [Decidable answered]
    (hanswered : answered ↔ handlerResult = .packetSent) :
    (f.after q answered).Tracks (r.finish c handlerResult) := by
  simp only [Deframer.Tracks, Deframer.after, RspReceiver.finish]
  by_cases hsent : handlerResult = .packetSent
  · rw [if_pos (hanswered.mpr hsent), if_pos hsent]
    exact ⟨rfl, h.inBuffer⟩
  · rw [if_neg (hanswered.not.mpr hsent), if_neg hsent]
    exact ⟨rfl, h.inBuffer⟩

/-- The packet that is complete with the digit `c`. -/
theorem executed_packet {q : List Byte} {d : Byte} (hcollected : Collected f.stale q r)
    (hsum2 : r.sum2 = hexValue d <<< 4) (hdigit : rspIsHexDigit c = true) (hsum : q.sum = hexByte d c) :
    Executed host m [.handle q (f.behind ind)] (f.after q (¬ Unanswered q))
      (rspChecksum2 host ind r c ⟨m, r⟩) := by
  have hmatches : Matches r c := by
    rw [Matches, hcollected.sum, hsum2, hsum, hexByte]
  have hcall : rspHandlePacket host (r.buffer ind.behind) r.iptr m =
      rspHandlePacket host (packetBuffer q (f.behind ind)) q.length m := by
    rw [hcollected.buffer, hcollected.size]
  rw [rspChecksum2_accept hdigit hmatches, hcall, hcollected.packet]
  refine executed_single rfl ?_
  intro hok
  cases hvalue : (rspHandlePacket host (packetBuffer q (f.behind ind)) q.length m).value with
  | error msg =>
      rw [hvalue] at hok
      cases hok
  | ok handlerResult =>
      refine hcollected.tracks_finish c handlerResult ?_
      have hletters : handlerResult = .noPacketSent ↔ Unanswered q := by
        rw [(rspHandlePacket_oneReply hvalue).notSent_iff, starts_iff_head?, starts_iff_head?]
        rfl
      rw [← hletters]
      cases handlerResult <;> decide

/-- The packet with another sum. What becomes of the receiver is left to the unset variable. -/
theorem executed_refuse {q : List Byte} {d : Byte} (hcollected : Collected f.stale q r)
    (hsum2 : r.sum2 = hexValue d <<< 4) (hdigit : rspIsHexDigit c = true) (hsum : q.sum ≠ hexByte d c) :
    Executed host m [.refuse] (f.after q (ind.handlerResult = .packetSent))
      (rspChecksum2 host ind r c ⟨m, r⟩) := by
  have hmatches : ¬ Matches r c := by
    rw [Matches, hcollected.sum, hsum2]
    exact hsum
  rw [rspChecksum2_reject hdigit hmatches]
  exact executed_single rfl fun _ => hcollected.tracks_finish c ind.handlerResult Iff.rfl

/-- **One byte** does what its commands do. -/
theorem feed_executed (host : Host σ) (h : f.Tracks r) (c : Byte) (ind : Indeterminate) (m : RV32 σ) :
    Executed host m (f.feed c ind).2 (f.feed c ind).1 (rspHandleByte host ind c ⟨m, r⟩) := by
  rw [rspHandleByte_eq]
  unfold Deframer.Tracks at h
  unfold Deframer.feed
  cases hphase : f.phase with
  | outside =>
      rw [hphase] at h
      obtain ⟨hstate, hstale⟩ := h
      have hclear : ∀ g : Deframer, g = f → g.Tracks r.clear := by
        rintro g rfl
        simp only [Deframer.Tracks, hphase]
        exact ⟨hstate, hstale⟩
      simp only [hstate, rspWaitStart_run]
      by_cases hstart : c = char '$'
      · rw [if_pos hstart, if_pos hstart]
        exact executed_nil ⟨rfl, collected_clear hstale _⟩
      rw [if_neg hstart, if_neg hstart]
      by_cases hctrlC : c = 3
      · rw [if_pos hctrlC, if_pos hctrlC]
        exact executed_single rfl fun _ => hclear f rfl
      · rw [if_neg hctrlC, if_neg hctrlC]
        exact executed_nil (hclear f rfl)
  | payload q =>
      rw [hphase] at h
      obtain ⟨hstate, hcollected⟩ := h
      simp only [hstate, rspPacketData]
      by_cases hhash : c = char '#'
      · rw [if_pos hhash, if_pos hhash]
        exact executed_nil ⟨rfl, hcollected.packet, hcollected.sum, hcollected.rest⟩
      rw [if_neg hhash, if_neg hhash]
      by_cases hroom : q.length < rspBufferSize
      · have hroom' : r.iptr < rspBufferSize := by rw [hcollected.size]; exact hroom
        rw [if_pos hroom, dif_pos hroom']
        exact executed_nil ⟨hstate, hcollected.push c hroom'⟩
      · have hroom' : ¬ r.iptr < rspBufferSize := by rw [hcollected.size]; exact hroom
        rw [if_neg hroom, dif_neg hroom']
        exact executed_abort _ ⟨m, r⟩
  | sum q =>
      rw [hphase] at h
      obtain ⟨hstate, hcollected⟩ := h
      simp only [hstate, rspChecksum1_run]
      by_cases hdigit : rspIsHexDigit c = true
      · rw [if_pos hdigit, if_pos hdigit]
        exact executed_nil ⟨rfl, ⟨hcollected.packet, hcollected.sum, hcollected.rest⟩, rfl⟩
      · rw [if_neg hdigit, if_neg hdigit]
        exact executed_abort _ ⟨m, r⟩
  | digit q d =>
      rw [hphase] at h
      obtain ⟨hstate, hcollected, hsum2⟩ := h
      simp only [hstate]
      by_cases hdigit : rspIsHexDigit c = true
      · rw [if_pos hdigit]
        by_cases hsum : q.sum = hexByte d c
        · rw [if_pos hsum]
          exact executed_packet hcollected hsum2 hdigit hsum
        · rw [if_neg hsum]
          exact executed_refuse hcollected hsum2 hdigit hsum
      · rw [if_neg hdigit, rspChecksum2_invalid (Bool.not_eq_true _ ▸ hdigit)]
        exact executed_abort _ ⟨m, r⟩
  | unacknowledged =>
      rw [hphase] at h
      obtain ⟨hstate, hstale⟩ := h
      simp only [hstate, rspWaitAck]
      by_cases hack : c = char '+'
      · rw [if_pos hack, if_pos hack]
        exact executed_nil ⟨rfl, hstale⟩
      · rw [if_neg hack, if_neg hack]
        exact executed_abort _ ⟨m, r⟩
  | aborted =>
      rw [hphase] at h
      exact absurd h not_false

/-! ## Rounds -/

/-- The stub, seen as a deframer and the machine behind it. -/
structure Layered (p : Process (Stub σ)) (f : Deframer) (q : Process (RV32 σ)) : Prop where
  behind : q = ⟨p.state.machine, p.died⟩
  tracks : p.died = none → f.Tracks p.state.receiver

/-- The first half of a round. -/
theorem mainByte_layers (host : Host σ) :
    Lts.Layers (Process.step (mainByte host)) (Process.emit (mainByte host)) Deframer.readInput
      Deframer.inputCommands (Process.step (execute host)) (Process.emit (execute host)) Layered := by
  -- a dead stub has a dead machine behind it
  have hdead : ∀ {t : Stub σ} {msg : String} (input : MainInput) (cs : List Command) (f' : Deframer),
      Layered (Process.step (mainByte host) ⟨t, some msg⟩ input) f'
        (executeAll host ⟨t.machine, some msg⟩ cs) ∧
      executeEvents host ⟨t.machine, some msg⟩ cs = [] := by
    intro t msg input cs f'
    have hfixed : executeAll host ⟨t.machine, some msg⟩ cs = ⟨t.machine, some msg⟩ :=
      Process.run_of_died (Option.some_ne_none msg) cs
    refine ⟨⟨hfixed, fun hnone => by cases hnone⟩, ?_⟩
    clear hfixed
    induction cs with
    | nil => rfl
    | cons c cs ih => exact ih
  constructor
  · rintro ⟨⟨m, r⟩, died⟩ f q input ⟨rfl, htracks⟩
    cases died with
    | some msg => exact (hdead input _ _).1
    | none =>
        cases input with
        | idle => exact ⟨rfl, htracks⟩
        | byte c ind =>
            have hbyte := feed_executed host (htracks rfl) c ind m
            refine ⟨hbyte.run, ?_⟩
            intro halive
            refine hbyte.tracks ?_
            -- a live stub has returned from the call
            simp only [Process.step, mainByte] at halive
            cases hvalue : (rspHandleByte host ind c ⟨m, r⟩).value with
            | ok u => rfl
            | error msg =>
                rw [hvalue] at halive
                cases halive
  · rintro ⟨⟨m, r⟩, died⟩ f q input ⟨rfl, htracks⟩
    cases died with
    | some msg => exact (hdead input (f.inputCommands input) f).2.symm
    | none =>
        cases input with
        | idle => rfl
        | byte c ind => exact (feed_executed host (htracks rfl) c ind m).sent.symm

/-- The second half. -/
theorem mainCycle_executed (host : Host σ) {p : Process (Stub σ)} {q : Process (RV32 σ)} (h : Layered p f q) :
    Layered (Process.step (fun _ : MainInput => mainCycle host) p .idle) f (Process.step (execute host) q .cycle) ∧
      Process.emit (fun _ : MainInput => mainCycle host) p .idle = Process.emit (execute host) q .cycle := by
  obtain ⟨⟨m, r⟩, died⟩ := p
  obtain ⟨rfl, htracks⟩ := h
  cases died with
  | some msg => exact ⟨⟨rfl, htracks⟩, rfl⟩
  | none =>
      by_cases hrunning : m.status = .running
      · have hcycle : mainCycle host ⟨m, r⟩ = _ := mainCycle_run hrunning
        have hexec : execute host .cycle m = _ := if_pos hrunning
        simp only [Process.step, Process.emit, hcycle, hexec]
        exact ⟨⟨rfl, htracks⟩, trivial⟩
      · have hcycle : mainCycle host ⟨m, r⟩ = _ := mainCycle_of_stopped hrunning
        have hexec : execute host .cycle m = _ := if_neg hrunning
        simp only [Process.step, Process.emit, hcycle, hexec]
        exact ⟨⟨rfl, htracks⟩, trivial⟩

/-- **A round** is its byte and its cycle, in either system. -/
theorem mainRound_layers (host : Host σ) :
    Lts.Layers (Process.step (mainRound host)) (Process.emit (mainRound host)) Deframer.readInput
      Deframer.roundCommands (Process.step (execute host)) (Process.emit (execute host)) Layered := by
  constructor
  · intro p f q input h
    have hcycle := (mainCycle_executed host ((mainByte_layers host).step input h)).1
    rw [Deframer.roundCommands, Lts.run_concat]
    have hstep : Process.step (mainRound host) p input =
        Process.step (fun _ : MainInput => mainCycle host) (Process.step (mainByte host) p input) input :=
      Process.step_bind p input
    rw [hstep]
    exact hcycle
  · intro p f q input h
    have hcycle := (mainCycle_executed host ((mainByte_layers host).step input h)).2
    rw [Deframer.roundCommands, Lts.trace_concat, ← (mainByte_layers host).emit input h, ← hcycle]
    exact Process.emit_bind p input

/-- The stub starts where the deframer starts. -/
theorem layered_stubStart (m : RV32 σ) : Layered (stubStart m) Deframer.initial ⟨m, none⟩ where
  behind := rfl
  tracks _ := ⟨rfl, fun _ => rfl⟩

/-- **The main loop is an executor of packets.** Whatever bytes come, and whenever they come, the machine, what
    is sent, and the end of the program are those of the commands the deframer reads from the bytes. -/
theorem mainLoop_deframed (host : Host σ) (m : RV32 σ) (inputs : List MainInput) :
    executeAll host ⟨m, none⟩ (Deframer.initial.commands inputs) =
        ⟨(Process.run (mainRound host) (stubStart m) inputs).state.machine,
          (Process.run (mainRound host) (stubStart m) inputs).died⟩ ∧
      executeEvents host ⟨m, none⟩ (Deframer.initial.commands inputs) =
        Process.sent (mainRound host) (stubStart m) inputs := by
  obtain ⟨hlayered, hsent⟩ := (mainRound_layers host).run (layered_stubStart m) inputs
  exact ⟨hlayered.behind, hsent.symm⟩

end Rv32
