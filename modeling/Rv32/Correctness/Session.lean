import Rv32.Correctness.Atomicity
import Rv32.Correctness.Requests

/-!
# `Correctness.Session` — a whole debugging session

A debugger sends requests, acknowledges what is answered, and may interrupt a machine that runs; its
acknowledgements of stop replies come outside of a frame, where they are dropped. The machine runs whenever
it can. `session_served` says that such a session, in whatever rounds its bytes come, is one in which the
requests are served one after the other with cycles between them, on the machine itself and with no text in
between; the program survives it, and is then ready for the next one.
-/

namespace Rv32

open Prog

variable {σ : Type} {host : Host σ}

/-! ## The session of the debugger -/

/-- A request, and a frame it is sent in. -/
structure Exchange where
  request : Request
  payload : List Byte
  d1 : Byte
  d2 : Byte
  encodes : request.Encodes payload
  supported : request.Supported
  framed : WellFormed payload d1 d2

/-- What the debugger sends in one piece. -/
inductive Turn where
  | exchange (x : Exchange)
  | interrupt
  | noise (c : Byte) (h : c ≠ char '$' ∧ c ≠ 3)

instance : DecidablePred Request.Answered := fun request => by
  cases request <;> unfold Request.Answered <;> infer_instance

/-- Its bytes. An answer is acknowledged. -/
def Turn.bytes : Turn → List Byte
  | .exchange x => frameBytes x.payload x.d1 x.d2 ++ if x.request.Answered then [char '+'] else []
  | .interrupt  => [3]
  | .noise c _  => [c]

/-- The byte it takes effect with: of a frame, the second digit. -/
def Turn.last : Turn → Byte
  | .exchange x => x.d2
  | .interrupt  => 3
  | .noise c _  => c

/-- The bytes before that one. -/
def Turn.before : Turn → List Byte
  | .exchange x => char '$' :: x.payload ++ [char '#', x.d1]
  | _           => []

/-- The bytes behind it: the acknowledgement. -/
def Turn.behind : Turn → List Byte
  | .exchange x => if x.request.Answered then [char '+'] else []
  | _           => []

theorem Turn.bytes_eq (turn : Turn) : turn.bytes = turn.before ++ turn.last :: turn.behind := by
  cases turn with
  | exchange x => simp [bytes, before, last, behind, frameBytes]
  | interrupt => rfl
  | noise c hc => rfl

/-- What happens to the machine: a turn of the debugger, or a cycle. -/
inductive SessionStep where
  | turn (t : Turn)
  | cycle

/-- The turn of a step. -/
def SessionStep.turn? : SessionStep → Option Turn
  | .turn t => some t
  | .cycle  => none

/-- The machine behind a step. -/
def sessionStep (host : Host σ) (s : RV32 σ) : SessionStep → RV32 σ
  | .turn (.exchange x) => (x.request.serve s).2
  | .turn .interrupt    => { s with status := .paused }
  | .turn (.noise _ _)  => s
  | .cycle              => if s.status = .running then rv32Cycle host s else s

/-- What is sent in a step. -/
def sessionEvents (host : Host σ) (s : RV32 σ) : SessionStep → List RspEvent
  | .turn (.exchange x) =>
      .sent [char '+'] :: .handled x.payload :: (x.request.serve s).1.toList.map fun payload => .sent (rspFrame payload)
  | .turn .interrupt    => [stopReply .sigint]
  | .turn (.noise _ _)  => []
  | .cycle              => if s.status = .running then stopReplies (rv32Cycle host s).status else []

/-! ## Commands and steps -/

/-- The commands do what the steps say. -/
inductive Carries : List Command → List SessionStep → Prop where
  | nil : Carries [] []
  | cycle {cs : List Command} {steps : List SessionStep} (h : Carries cs steps) :
      Carries (.cycle :: cs) (.cycle :: steps)
  | exchange {cs : List Command} {steps : List SessionStep} (x : Exchange) (behind : Nat → Byte)
      (h : Carries cs steps) : Carries (.handle x.payload behind :: cs) (.turn (.exchange x) :: steps)
  | interrupt {cs : List Command} {steps : List SessionStep} (h : Carries cs steps) :
      Carries (.interrupt :: cs) (.turn .interrupt :: steps)
  | noise {cs : List Command} {steps : List SessionStep} {c : Byte} (hc : c ≠ char '$' ∧ c ≠ 3)
      (h : Carries cs steps) : Carries cs (.turn (.noise c hc) :: steps)

theorem Carries.append {cs ds : List Command} {steps steps' : List SessionStep} (h : Carries cs steps)
    (h' : Carries ds steps') : Carries (cs ++ ds) (steps ++ steps') := by
  induction h with
  | nil => exact h'
  | cycle _ ih => exact .cycle ih
  | exchange x behind _ ih => exact .exchange x behind ih
  | interrupt _ ih => exact .interrupt ih
  | noise hc _ ih => exact .noise hc ih

theorem Carries.cycles (n : Nat) : Carries (List.replicate n .cycle) (List.replicate n .cycle) := by
  induction n with
  | zero => exact .nil
  | succ n ih => exact .cycle ih

/-- A request is served by its command. -/
theorem exchange_executed (host : Host σ) (x : Exchange) (behind : Nat → Byte) (s : RV32 σ) :
    execute host (.handle x.payload behind) s =
      ⟨.ok (), sessionStep host s (.turn (.exchange x)), sessionEvents host s (.turn (.exchange x))⟩ := by
  simp only [execute, executePacket, request_served host s x.encodes x.supported behind, sessionStep,
    sessionEvents]
  obtain ⟨reply, t⟩ := x.request.serve s
  cases reply with
  | none => rfl
  | some payload => rfl

/-- **What the steps say, the commands do.** -/
theorem Carries.executed {cs : List Command} {steps : List SessionStep} (h : Carries cs steps) (s : RV32 σ) :
    Process.Runs (execute host) ⟨s, none⟩ cs ⟨Lts.run (sessionStep host) s steps, none⟩
      (Lts.trace (sessionStep host) (sessionEvents host) s steps) := by
  induction h generalizing s with
  | nil => exact Process.Runs.nil _
  | cycle _ ih =>
      have hcycle : execute host .cycle s = ⟨.ok (), sessionStep host s .cycle, sessionEvents host s .cycle⟩ := by
        simp only [execute, executeCycle, sessionStep, sessionEvents]
        split <;> rfl
      exact (Process.Runs.single_ok hcycle).append (ih _)
  | exchange x behind _ ih =>
      exact (Process.Runs.single_ok (exchange_executed host x behind s)).append (ih _)
  | interrupt _ ih =>
      have hinterrupt : execute host .interrupt s =
        ⟨.ok (), sessionStep host s (.turn .interrupt), sessionEvents host s (.turn .interrupt)⟩ := rfl
      exact (Process.Runs.single_ok hinterrupt).append (ih _)
  | noise hc _ ih => exact ih s

/-! ## Bytes and commands -/

/-- The rounds up to a byte, that round, and those behind it. -/
theorem bytesIn_eq_append_cons {inputs : List MainInput} {bs cs : List Byte} {c : Byte}
    (h : bytesIn inputs = bs ++ c :: cs) :
    ∃ pre ind post, inputs = pre ++ .byte c ind :: post ∧ bytesIn pre = bs ∧ bytesIn post = cs := by
  obtain ⟨pre, rest, rfl, hpre, hrest⟩ := List.filterMap_eq_append_iff.mp h
  obtain ⟨idles, input, post, rfl, hidles, hinput, hpost⟩ := List.filterMap_eq_cons_iff.mp hrest
  cases input with
  | idle => cases hinput
  | byte d ind =>
      obtain rfl := Option.some.inj hinput
      refine ⟨pre ++ idles, ind, post, by simp, ?_, hpost⟩
      rw [bytesIn, List.filterMap_append, hpre, List.filterMap_eq_nil_iff.mpr hidles, List.append_nil]

theorem Request.serve_eq_none_iff (request : Request) (s : RV32 σ) :
    (request.serve s).1 = none ↔ ¬ request.Answered := by
  cases request with
  | resume => exact iff_of_true rfl not_false
  | kill => exact iff_of_true rfl not_false
  | readMemory a n =>
      refine iff_of_false ?_ (not_not.mpr trivial)
      simp only [serve]
      split <;> exact Option.some_ne_none _
  | writeMemory a bs =>
      refine iff_of_false ?_ (not_not.mpr trivial)
      simp only [serve]
      split <;> exact Option.some_ne_none _
  | _ => exact iff_of_false (Option.some_ne_none _) (not_not.mpr trivial)

/-- The packet of an exchange says whether it is answered: a packet of `c` or `k` is not. -/
theorem Exchange.unanswered_iff (host : Host σ) (s : RV32 σ) (x : Exchange) :
    Unanswered x.payload ↔ ¬ x.request.Answered := by
  have hserved := request_served host s x.encodes x.supported fun _ => 0
  rw [← x.request.serve_eq_none_iff s]
  generalize x.request.serve s = outcome at hserved ⊢
  have hone : ∀ {handlerResult : RspHandlerResult}, (answer outcome).value = .ok handlerResult →
      (handlerResult = .noPacketSent ↔ Unanswered x.payload) := by
    intro handlerResult hvalue
    rw [← hserved] at hvalue
    rw [(rspHandlePacket_oneReply hvalue).notSent_iff, starts_iff_head?, starts_iff_head?]
    rfl
  obtain ⟨reply, t⟩ := outcome
  cases reply with
  | none => exact iff_of_true ((hone rfl).mp rfl) rfl
  | some payload => exact iff_of_false (fun h => by cases (hone rfl).mpr h) (Option.some_ne_none _)

/-- The steps of the rounds of one turn: cycles up to the round that brings the byte it takes effect with, in
    which it comes before the cycle, and cycles behind that. -/
inductive TurnSchedule (turn : Turn) : List MainInput → List SessionStep → Prop where
  | mk {pre post : List MainInput} (ind : Indeterminate) (hpre : bytesIn pre = turn.before)
      (hpost : bytesIn post = turn.behind) :
      TurnSchedule turn (pre ++ .byte turn.last ind :: post)
        (List.replicate pre.length .cycle ++ .turn turn :: .cycle :: List.replicate post.length .cycle)

/-- The steps of the rounds of a session: those of its turns, one turn after the other, and a cycle for each
    round behind them. -/
inductive Schedule : List Turn → List MainInput → List SessionStep → Prop where
  | nil {inputs : List MainInput} (h : bytesIn inputs = []) :
      Schedule [] inputs (List.replicate inputs.length .cycle)
  | cons {turn : Turn} {turns : List Turn} {mine rest : List MainInput} {steps steps' : List SessionStep}
      (h : TurnSchedule turn mine steps) (hrest : Schedule turns rest steps') :
      Schedule (turn :: turns) (mine ++ rest) (steps ++ steps')

/-- The turns are taken in their order. -/
theorem Schedule.turns {turns : List Turn} {inputs : List MainInput} {steps : List SessionStep}
    (h : Schedule turns inputs steps) : steps.filterMap SessionStep.turn? = turns := by
  have hcycles (n : Nat) : (List.replicate n SessionStep.cycle).filterMap SessionStep.turn? = [] :=
    List.filterMap_replicate_of_none rfl
  induction h with
  | nil => exact hcycles _
  | cons h _ ih =>
      obtain ⟨ind, -, -⟩ := h
      simp only [List.filterMap_append, List.filterMap_cons, SessionStep.turn?, hcycles, ih,
        List.nil_append, List.cons_append]

/-- And each round has its cycle. -/
theorem Schedule.length_eq {turns : List Turn} {inputs : List MainInput} {steps : List SessionStep}
    (h : Schedule turns inputs steps) : steps.length = turns.length + inputs.length := by
  induction h with
  | nil => simp
  | cons h _ ih =>
      obtain ⟨ind, -, -⟩ := h
      simp only [List.length_append, List.length_cons, List.length_replicate, ih]
      omega

/-- The rounds `inputs` bring a deframer the steps `steps`, and leave it in the state `g`. -/
structure Brings (f : Deframer) (inputs : List MainInput) (steps : List SessionStep) (g : Deframer) : Prop where
  carries : Carries (f.commands inputs) steps
  read : f.read inputs = g

theorem Brings.append {f g h : Deframer} {inputs inputs' : List MainInput} {steps steps' : List SessionStep}
    (hleft : Brings f inputs steps g) (hright : Brings g inputs' steps' h) :
    Brings f (inputs ++ inputs') (steps ++ steps') h := by
  obtain ⟨hcarries, rfl⟩ := hleft
  obtain ⟨hcarries', rfl⟩ := hright
  refine ⟨?_, Lts.run_append ..⟩
  rw [Deframer.commands, Lts.trace_append]
  exact hcarries.append hcarries'

/-- Rounds in which nothing is asked. -/
theorem Absorbs.brings {f g : Deframer} {inputs : List MainInput} (h : Absorbs f (bytesIn inputs) g) :
    Brings f inputs (List.replicate inputs.length .cycle) g := by
  obtain ⟨hcommands, hread⟩ := h.commands
  refine ⟨?_, hread⟩
  rw [hcommands]
  exact Carries.cycles _

/-- The byte that is a turn, or completes one. -/
theorem brings_byte {f g : Deframer} {c : Byte} {ind : Indeterminate} {cs : List Command} {turn : Turn}
    (hfeed : f.feed c ind = (g, cs)) (hcarries : Carries (cs ++ [.cycle]) [.turn turn, .cycle]) :
    Brings f [.byte c ind] [.turn turn, .cycle] g := by
  refine ⟨?_, congrArg Prod.fst hfeed⟩
  have hnone : f.commands [.byte c ind] = cs ++ [.cycle] := by
    show f.roundCommands (.byte c ind) ++ [] = _
    rw [List.append_nil, Deframer.roundCommands, Deframer.inputCommands, hfeed]
  rw [hnone]
  exact hcarries

/-- A turn is a byte that completes it, with bytes before and behind it that ask for nothing. -/
theorem brings_turn {f g h k : Deframer} {inputs : List MainInput} {turn : Turn}
    (hbytes : bytesIn inputs = turn.bytes) (hbefore : Absorbs f turn.before g)
    (hbyte : ∀ ind, Brings g [.byte turn.last ind] [.turn turn, .cycle] h)
    (hbehind : Absorbs h turn.behind k) : ∃ steps, TurnSchedule turn inputs steps ∧ Brings f inputs steps k := by
  rw [turn.bytes_eq] at hbytes
  obtain ⟨pre, ind, post, rfl, hpre, hpost⟩ := bytesIn_eq_append_cons hbytes
  rw [← hpre] at hbefore
  rw [← hpost] at hbehind
  exact ⟨_, .mk ind hpre hpost, hbefore.brings.append ((hbyte ind).append hbehind.brings)⟩

/-! ## Turns -/

/-- The deframer behind a turn. -/
def Deframer.behindTurn (f : Deframer) : Turn → Deframer
  | .exchange x => { f with stale := packetBuffer x.payload f.stale }
  | _           => f

/-- **A turn of the debugger**, in whatever rounds it comes. -/
theorem Turn.brings (host : Host σ) (s : RV32 σ) {f : Deframer} {inputs : List MainInput} (turn : Turn)
    (hf : f.phase = .outside) (hbytes : bytesIn inputs = turn.bytes) :
    ∃ steps, TurnSchedule turn inputs steps ∧ Brings f inputs steps (f.behindTurn turn) := by
  obtain ⟨phase, stale⟩ := f
  obtain rfl : phase = .outside := hf
  cases turn with
  | interrupt =>
      refine brings_turn hbytes (.nil _) (fun ind => ?_) (.nil _)
      exact brings_byte rfl (.interrupt (.cycle .nil))
  | noise c hc =>
      refine brings_turn hbytes (.nil _) (fun ind => ?_) (.nil _)
      have hfeed : Deframer.feed ⟨.outside, stale⟩ c ind = (⟨.outside, stale⟩, []) := by
        simp only [Deframer.feed, if_neg hc.1, if_neg hc.2]
      exact brings_byte hfeed (.noise hc (.cycle .nil))
  | exchange x =>
      have hanswered : (¬ Unanswered x.payload) ↔ x.request.Answered := by
        rw [x.unanswered_iff host s, not_not]
      have hframe : Absorbs ⟨.outside, stale⟩ (Turn.before (.exchange x)) ⟨.digit x.payload x.d1, stale⟩ :=
        absorbs_frame x.framed.fits x.framed.noHash x.framed.digit1
      refine brings_turn hbytes hframe (fun ind => ?_) ?_
        (h := Deframer.after ⟨.outside, stale⟩ x.payload (¬ Unanswered x.payload))
      · have hfeed : Deframer.feed ⟨.digit x.payload x.d1, stale⟩ x.d2 ind =
            (Deframer.after ⟨.outside, stale⟩ x.payload (¬ Unanswered x.payload),
              [.handle x.payload (Deframer.behind ⟨.outside, stale⟩ ind)]) := by
          simp only [Deframer.feed]
          rw [if_pos x.framed.digit2, if_pos x.framed.sum.symm]
          rfl
        exact brings_byte hfeed (.exchange x _ (.cycle .nil))
      · simp only [Deframer.after, Deframer.behindTurn, Turn.behind]
        by_cases h : x.request.Answered
        · rw [if_pos h, if_pos (hanswered.mpr h)]
          exact .cons (fun _ => rfl) (.nil _)
        · rw [if_neg h, if_neg (hanswered.not.mpr h)]
          exact .nil _

/-- **A session**, in whatever rounds it comes. -/
theorem session_brings (host : Host σ) (s : RV32 σ) {f : Deframer} {inputs : List MainInput}
    (turns : List Turn) (hf : f.phase = .outside) (hbytes : bytesIn inputs = turns.flatMap Turn.bytes) :
    ∃ g steps, g.phase = .outside ∧ Schedule turns inputs steps ∧ Brings f inputs steps g := by
  induction turns generalizing f inputs with
  | nil =>
      refine ⟨f, _, hf, .nil hbytes, Absorbs.brings ?_⟩
      rw [hbytes]
      exact .nil f
  | cons turn turns ih =>
      obtain ⟨mine, rest, rfl, hmine, hrest⟩ := List.filterMap_eq_append_iff.mp hbytes
      obtain ⟨steps, hschedule, hturn⟩ := turn.brings host s hf hmine
      have houtside : (f.behindTurn turn).phase = .outside := by cases turn <;> exact hf
      obtain ⟨g, steps', hg, hschedule', hbrings⟩ := ih houtside hrest
      exact ⟨g, _, hg, .cons hschedule hschedule', hturn.append hbrings⟩

theorem process_eq {p : Process (Stub σ)} {m : RV32 σ} (hdied : p.died = none) (hm : p.state.machine = m) :
    p = ⟨⟨m, p.state.receiver⟩, none⟩ := by
  obtain ⟨⟨_, _⟩, _⟩ := p
  obtain rfl := hdied
  obtain rfl := hm
  rfl

/-- **A whole session.** When a debugger sends requests the stub is right about, acknowledges the answers, and
    interrupts the machine where it likes, then in whatever rounds its bytes come, every request is served on
    the machine in the round that brings the last byte of its frame, before the cycle of that round, and every
    other round is its cycle; the program survives, and is then outside of a frame. -/
theorem session_served (host : Host σ) (m : RV32 σ) {r : RspReceiver} (hstate : r.state = .waitStart)
    {turns : List Turn} {inputs : List MainInput} (hbytes : bytesIn inputs = turns.flatMap Turn.bytes) :
    ∃ steps r', Schedule turns inputs steps ∧ r'.state = .waitStart ∧
      Process.Runs (mainRound host) ⟨⟨m, r⟩, none⟩ inputs
        ⟨⟨Lts.run (sessionStep host) m steps, r'⟩, none⟩
        (Lts.trace (sessionStep host) (sessionEvents host) m steps) := by
  obtain ⟨g, steps, hg, hschedule, hcarries, hread⟩ :=
    session_brings host m (f := Deframer.outsideOf r) turns rfl hbytes
  obtain ⟨hlayered, hsent⟩ := (mainRound_layers host).run (layered_outsideOf m hstate) inputs
  have hexecuted : Process.Runs (execute host) ⟨m, none⟩ _ _ _ := hcarries.executed m
  -- the stub is the machine behind the deframer
  have hbehind := hlayered.behind.symm.trans hexecuted.run
  have hdied : (Process.run (mainRound host) ⟨⟨m, r⟩, none⟩ inputs).died = none := congrArg Process.died hbehind
  have hmachine := congrArg Process.state hbehind
  have htracks := hlayered.tracks hdied
  rw [show Lts.run Deframer.readInput (Deframer.outsideOf r) inputs = g from hread] at htracks
  simp only [Deframer.Tracks, hg] at htracks
  refine ⟨steps, (Process.run (mainRound host) ⟨⟨m, r⟩, none⟩ inputs).state.receiver, hschedule, htracks.1,
    process_eq hdied hmachine, hsent.trans hexecuted.sent⟩

/-- `$m0,4#fd` -/
def readExchange : Exchange where
  request := .readMemory 0 4
  payload := cstr "m0,4"
  d1 := char 'f'
  d2 := char 'd'
  encodes := ⟨cstr "0", cstr "4", ⟨by decide, by decide, by decide⟩, ⟨by decide, by decide, by decide⟩, rfl⟩
  supported := ⟨by decide, by decide⟩
  framed :=
    { fits := by decide, noHash := by decide, digit1 := by decide, digit2 := by decide, sum := by decide }

/-- The rounds of a debugger that stops the machine and looks at its first word. -/
def stopAndRead : List MainInput :=
  .idle :: .byte 3 noIndeterminate :: .byte (char '+') noIndeterminate :: .idle ::
    (cstr "$m0,4#fd+").map fun c => .byte c noIndeterminate

/-- Its session on a machine that runs. -/
theorem session_served_stopAndRead :
    ∃ steps r', Schedule [.interrupt, .noise (char '+') (by decide), .exchange readExchange] stopAndRead steps ∧
      r'.state = .waitStart ∧
      Process.Runs (mainRound stubHost) ⟨⟨busyStart, rspInit⟩, none⟩ stopAndRead
        ⟨⟨Lts.run (sessionStep stubHost) busyStart steps, r'⟩, none⟩
        (Lts.trace (sessionStep stubHost) (sessionEvents stubHost) busyStart steps) :=
  session_served stubHost busyStart rfl (by decide)

end Rv32
