import Mathlib.Control.Basic
import Mathlib.Order.Defs.Unbundled
import Rv32.Lib.Lts

/-!
# `Lib.Prog` — programs with a state, output, and a fatal error

A `Prog S O α` is a C function that works on a state `S`, sends items `O` to the outside, and returns an
`α` or dies with a message. Death undoes nothing: what was written stays written and what was sent stays
sent, which is why the state and the output of an `Outcome` stand beside its value and not inside it.

The rules below follow a program along its binds. `Within R` bounds what it does to the state, `Silent`
says it sends nothing, and `Replies Q` that it ends by sending one item with `Q`. A `Process` is a program
that is called again and again until it dies; its runs are runs of an `Lts`.
-/

/-- What one call of a program leaves behind. -/
structure Outcome (S O α : Type) where
  value : Except String α
  state : S
  out : List O

def Prog (S O α : Type) : Type := S → Outcome S O α

namespace Prog

variable {S O α β : Type}

protected def pure (a : α) : Prog S O α := fun s => ⟨.ok a, s, []⟩

protected def bind (p : Prog S O α) (f : α → Prog S O β) : Prog S O β := fun s =>
  match (p s).value with
  | .ok a      => { f a (p s).state with out := (p s).out ++ (f a (p s).state).out }
  | .error msg => ⟨.error msg, (p s).state, (p s).out⟩

instance : Monad (Prog S O) where
  pure := Prog.pure
  bind := Prog.bind

/-- Die with a message. -/
def fatal (msg : String) : Prog S O α := fun s => ⟨.error msg, s, []⟩

def getState : Prog S O S := fun s => ⟨.ok s, s, []⟩

def modifyState (f : S → S) : Prog S O Unit := fun s => ⟨.ok (), f s, []⟩

def send (o : O) : Prog S O Unit := fun s => ⟨.ok (), s, [o]⟩

/-- A computation that does not look at the state. -/
def attempt (e : Except String α) : Prog S O α := fun s => ⟨e, s, []⟩

/-- A computation whose result comes with something to send. -/
def reply (e : Except String (α × O)) : Prog S O α := attempt e >>= fun r => send r.2 >>= fun _ => pure r.1

/-- `if(!c) FATAL(msg)` -/
def check (c : Prop) [Decidable c] (msg : String) : Except String Unit :=
  if c then .ok () else .error msg

/-- `for(i = first; i < first + n; i++) b = body(i, b)` -/
def loop (body : Nat → β → Prog S O β) : (first n : Nat) → β → Prog S O β
  | _, 0, b         => pure b
  | first, n + 1, b => body first b >>= fun b => loop body (first + 1) n b

/-- The body of `for(...) f(i, e(i))`, where `e` may die and `f` works on the state. -/
def assign (e : Nat → Except String α) (f : Nat → α → S → S) (i : Nat) (_ : Unit) : Prog S O Unit :=
  attempt (e i) >>= fun a => modifyState (f i a)

/-! ## Computations that only die -/

section Except

variable {f : α → Except String β} {c : Prop} [Decidable c] {g : Unit → Except String β}

@[simp] theorem ok_bind (a : α) : ((Except.ok a : Except String α) >>= f) = f a := rfl

@[simp] theorem error_bind (msg : String) :
    ((Except.error msg : Except String α) >>= f) = .error msg := rfl

theorem check_bind_pos (h : c) (msg : String) : (check c msg >>= g) = g () := by
  rw [check, if_pos h, ok_bind]

theorem check_bind_neg (h : ¬ c) (msg : String) : (check c msg >>= g) = .error msg := by
  rw [check, if_neg h, error_bind]

end Except

/-! ## Running -/

section Run

variable (s : S)

@[simp] theorem run_modify (f : S → S) : (modifyState f : Prog S O Unit) s = ⟨.ok (), f s, []⟩ := rfl

@[simp] theorem run_attempt (e : Except String α) : (attempt e : Prog S O α) s = ⟨e, s, []⟩ := rfl

variable {s} {p : Prog S O α} {f : α → Prog S O β}

/-- A bind goes on from the state its first half returned in. -/
theorem run_bind_ok {a : α} (h : (p s).value = .ok a) :
    (p >>= f) s = { f a (p s).state with out := (p s).out ++ (f a (p s).state).out } := by
  show Prog.bind p f s = _
  rw [Prog.bind, h]

theorem run_bind_error {msg : String} (h : (p s).value = .error msg) :
    (p >>= f) s = ⟨.error msg, (p s).state, (p s).out⟩ := by
  show Prog.bind p f s = _
  rw [Prog.bind, h]

@[simp] theorem run_get_bind (f : S → Prog S O β) (s : S) : (getState >>= f) s = f s s := rfl

@[simp] theorem run_modify_bind (g : S → S) (f : Unit → Prog S O β) (s : S) :
    (modifyState g >>= f) s = f () (g s) := rfl

@[simp] theorem run_attempt_ok_bind (a : α) (f : α → Prog S O β) (s : S) :
    ((attempt (.ok a) : Prog S O α) >>= f) s = f a s := rfl

@[simp] theorem run_attempt_error_bind (msg : String) (f : α → Prog S O β) (s : S) :
    ((attempt (.error msg) : Prog S O α) >>= f) s = ⟨.error msg, s, []⟩ := rfl

@[simp] theorem run_reply_ok (a : α) (o : O) (s : S) :
    (reply (.ok (a, o)) : Prog S O α) s = ⟨.ok a, s, [o]⟩ := rfl

end Run

variable {p : Prog S O α} {f : α → Prog S O β}

/-- A reply computed from what a silent start returns is one reply. -/
theorem run_bind_reply {e : Except String α} {t : S} {s : S} (h : p s = ⟨e, t, []⟩)
    (f : α → Except String (β × O)) : (p >>= fun a => reply (f a)) s = reply (e >>= f) t := by
  cases e with
  | error msg => exact (run_bind_error (by rw [h])).trans (by rw [h]; rfl)
  | ok a => exact (run_bind_ok (a := a) (by rw [h])).trans (by rw [h]; rfl)

/-- A call that returns has returned from both halves. -/
theorem value_bind_eq_ok {s : S} {b : β} (h : ((p >>= f) s).value = .ok b) :
    ∃ a, (p s).value = .ok a ∧ (f a (p s).state).value = .ok b := by
  cases hp : (p s).value with
  | error msg =>
      rw [run_bind_error hp] at h
      cases h
  | ok a =>
      rw [run_bind_ok hp] at h
      exact ⟨a, rfl, h⟩

/-- **A loop of assignments** runs until the first index at which `e` dies. -/
theorem run_loop_assign {e : Nat → Except String α} {P : Nat → Prop} [DecidablePred P] {v : Nat → α}
    {msg : String} (he : ∀ i, e i = if P i then .ok (v i) else .error msg) (f : Nat → α → S → S)
    (first n : Nat) (s : S) :
    ∃ m ≤ n, (∀ i < m, P (first + i)) ∧ (m < n → ¬ P (first + m)) ∧
      (loop (assign e f) first n () : Prog S O Unit) s =
        ⟨if m = n then .ok () else .error msg,
          (List.range' first m).foldl (fun s i => f i (v i) s) s, []⟩ := by
  induction n generalizing first s with
  | zero => exact ⟨0, Nat.le_refl 0, by simp, by simp, rfl⟩
  | succ n ih =>
      by_cases hP : P first
      · obtain ⟨m, hm, hgood, hbad, heq⟩ := ih (first + 1) (f first (v first) s)
        have hbody : (assign e f first () : Prog S O Unit) s = ⟨.ok (), f first (v first) s, []⟩ := by
          rw [assign, he, if_pos hP]
          rfl
        refine ⟨m + 1, by omega, ?_, ?_, ?_⟩
        · intro i hi
          cases i with
          | zero => exact hP
          | succ i => rw [show first + (i + 1) = first + 1 + i by omega]; exact hgood i (by omega)
        · intro hlt
          rw [show first + (m + 1) = first + 1 + m by omega]
          exact hbad (by omega)
        · rw [loop, run_bind_ok (a := ()) (by rw [hbody]), hbody, heq]
          simp [List.range'_succ]
      · refine ⟨0, Nat.zero_le _, by simp, fun _ => hP, ?_⟩
        have hbody : (assign e f first () : Prog S O Unit) s = ⟨.error msg, s, []⟩ := by
          rw [assign, he, if_neg hP]
          rfl
        have hdead : ((assign e f first () : Prog S O Unit) s).value = .error msg := by rw [hbody]
        rw [loop, run_bind_error hdead, hbody]
        simp

/-- The rounds of a loop that stops at the first index without `P`. -/
theorem lt_stop_iff {P : Nat → Prop} {m n : Nat} (hm : m ≤ n) (hgood : ∀ i < m, P i)
    (hbad : m < n → ¬ P m) (i : Nat) : i < m ↔ i < n ∧ ∀ j ≤ i, P j := by
  constructor
  · intro hi
    exact ⟨Nat.lt_of_lt_of_le hi hm, fun j hj => hgood j (Nat.lt_of_le_of_lt hj hi)⟩
  · rintro ⟨hi, hall⟩
    by_contra hge
    have hle : m ≤ i := Nat.le_of_not_lt hge
    exact hbad (Nat.lt_of_le_of_lt hle hi) (hall m hle)

/-- Two loops stop at the same index if they agree on every index they get to. -/
theorem stop_unique {P P' : Nat → Prop} {m m' n : Nat} (hm : m ≤ n) (hgood : ∀ i < m, P i)
    (hbad : m < n → ¬ P m) (hm' : m' ≤ n) (hgood' : ∀ i < m', P' i) (hbad' : m' < n → ¬ P' m')
    (hagree : ∀ i < n, (∀ j < i, P j) → (P i ↔ P' i)) : m = m' := by
  rcases Nat.lt_trichotomy m m' with hlt | heq | hgt
  · have hn : m < n := Nat.lt_of_lt_of_le hlt hm'
    exact absurd ((hagree m hn hgood).mpr (hgood' m hlt)) (hbad hn)
  · exact heq
  · have hn : m' < n := Nat.lt_of_lt_of_le hgt hm
    have hbefore : ∀ j < m', P j := fun j hj => hgood j (Nat.lt_trans hj hgt)
    exact absurd ((hagree m' hn hbefore).mp (hgood m' hgt)) (hbad' hn)

/-! ## Programs that return -/

/-- The call returns. -/
def Returns (p : Prog S O α) (s : S) : Prop := ∃ a, (p s).value = .ok a

section Returns

variable {t : S} {c : Prop} [Decidable c] {msg : String}

theorem returns_bind_ok {a : α} (h : (p t).value = .ok a) :
    Returns (p >>= f) t ↔ Returns (f a) (p t).state := by
  rw [Returns, Returns, run_bind_ok h]

theorem not_returns_bind (h : ¬ Returns p t) : ¬ Returns (p >>= f) t := by
  rintro ⟨b, hb⟩
  obtain ⟨a, ha, -⟩ := value_bind_eq_ok hb
  exact h ⟨a, ha⟩

theorem not_returns_of_error (h : (p t).value = .error msg) : ¬ Returns p t := by
  rintro ⟨a, ha⟩
  rw [h] at ha
  cases ha

/-- A test is passed, and the rest returns. -/
theorem returns_check_bind {g : Unit → Prog S O β} :
    Returns (attempt (check c msg) >>= g) t ↔ c ∧ Returns (g ()) t := by
  by_cases hc : c
  · rw [check, if_pos hc]
    exact (iff_of_eq rfl).trans (and_iff_right hc).symm
  · rw [check, if_neg hc]
    exact iff_of_false (not_returns_bind (not_returns_of_error rfl)) fun h => hc h.1

/-- Likewise where the value is computed first. -/
theorem returns_attempt_ite_bind {a : α} :
    Returns (attempt (if c then .ok a else .error msg) >>= f) t ↔ c ∧ Returns (f a) t := by
  by_cases hc : c
  · rw [if_pos hc]
    exact (iff_of_eq rfl).trans (and_iff_right hc).symm
  · rw [if_neg hc]
    exact iff_of_false (not_returns_bind (not_returns_of_error rfl)) fun h => hc h.1

end Returns

/-! ## What a program does to the state -/

/-- Every call takes the state along `R`, whether it returns or dies. -/
def Within (R : S → S → Prop) (p : Prog S O α) : Prop := ∀ s, R s (p s).state

section Within

variable {R : S → S → Prop} [IsPreorder S R]

theorem within_pure (a : α) : Within R (pure a : Prog S O α) := fun s => refl_of R s

theorem within_fatal (msg : String) : Within R (fatal msg : Prog S O α) := fun s => refl_of R s

theorem within_getState : Within R (getState : Prog S O S) := fun s => refl_of R s

theorem within_send (o : O) : Within R (send o : Prog S O Unit) := fun s => refl_of R s

theorem within_attempt (e : Except String α) : Within R (attempt e : Prog S O α) :=
  fun s => refl_of R s

omit [IsPreorder S R] in
theorem within_modifyState {g : S → S} (h : ∀ s, R s (g s)) :
    Within R (modifyState g : Prog S O Unit) := h

theorem Within.bind (hp : Within R p) (hf : ∀ a, Within R (f a)) : Within R (p >>= f) := by
  intro s
  cases h : (p s).value with
  | error msg =>
      rw [run_bind_error h]
      exact hp s
  | ok a =>
      rw [run_bind_ok h]
      exact trans_of R (hp s) (hf a _)

omit [IsPreorder S R] in
theorem Within.ite {c : Prop} [Decidable c] {p q : Prog S O α} (hp : Within R p) (hq : Within R q) :
    Within R (if c then p else q) := by
  split
  · exact hp
  · exact hq

theorem within_reply (e : Except String (α × O)) : Within R (reply e : Prog S O α) :=
  (within_attempt e).bind fun _ => (within_send _).bind fun _ => within_pure _

theorem within_assign {e : Nat → Except String α} {g : Nat → α → S → S}
    (h : ∀ i a s, R s (g i a s)) (i : Nat) (u : Unit) :
    Within R (assign e g i u : Prog S O Unit) :=
  (within_attempt (e i)).bind fun a => within_modifyState (h i a)

theorem within_loop {body : Nat → β → Prog S O β} (hbody : ∀ i b, Within R (body i b))
    (first n : Nat) (b : β) : Within R (loop body first n b) := by
  induction n generalizing first b with
  | zero => exact within_pure b
  | succ n ih => exact (hbody first b).bind fun b => ih (first + 1) b

end Within

/-! ## What a program sends -/

/-- Nothing is sent. -/
def Silent (p : Prog S O α) : Prop := ∀ s, (p s).out = []

/-- A call that returns has sent one item, and it satisfies `Q`. -/
def Replies (Q : α → O → Prop) (p : Prog S O α) : Prop :=
  ∀ s a, (p s).value = .ok a → ∃ o, (p s).out = [o] ∧ Q a o

theorem silent_attempt (e : Except String α) : Silent (attempt e : Prog S O α) := fun _ => rfl

theorem silent_modify (g : S → S) : Silent (modifyState g : Prog S O Unit) := fun _ => rfl

theorem Silent.bind (hp : Silent p) (hf : ∀ a, Silent (f a)) : Silent (p >>= f) := by
  intro s
  cases h : (p s).value with
  | error msg =>
      rw [run_bind_error h]
      exact hp s
  | ok a =>
      rw [run_bind_ok h]
      show (p s).out ++ (f a (p s).state).out = []
      rw [hp s, hf a, List.append_nil]

theorem silent_loop {body : Nat → β → Prog S O β} (hbody : ∀ i b, Silent (body i b)) (first n : Nat)
    (b : β) : Silent (loop body first n b) := by
  induction n generalizing first b with
  | zero => exact fun _ => rfl
  | succ n ih => exact Silent.bind (hbody first b) fun b => ih (first + 1) b

theorem silent_getState : Silent (getState : Prog S O S) := fun _ => rfl

theorem silent_assign (e : Nat → Except String α) (g : Nat → α → S → S) (i : Nat) (u : Unit) :
    Silent (assign e g i u : Prog S O Unit) :=
  (silent_attempt (e i)).bind fun a => silent_modify (g i a)

variable {Q : β → O → Prop}

/-- A silent start does not add to the reply. -/
theorem Replies.bind (hp : Silent p) {P : α → Prop} (hreturns : ∀ s a, (p s).value = .ok a → P a)
    (hf : ∀ a, P a → Replies Q (f a)) : Replies Q (p >>= f) := by
  intro s b h
  obtain ⟨a, ha, hb⟩ := value_bind_eq_ok h
  rw [run_bind_ok ha]
  show ∃ o, (p s).out ++ (f a (p s).state).out = [o] ∧ Q b o
  rw [hp s, List.nil_append]
  exact hf a (hreturns s a ha) _ b hb

theorem Replies.after (hp : Silent p) (hf : ∀ a, Replies Q (f a)) : Replies Q (p >>= f) :=
  Replies.bind hp (fun _ _ _ => trivial) fun a _ => hf a

/-- What every round of a loop keeps holds of what the loop returns. -/
theorem loop_returns {P : β → Prop} {body : Nat → β → Prog S O β}
    (hbody : ∀ i b, P b → ∀ s b', (body i b s).value = .ok b' → P b') (first n : Nat) {b : β}
    (hb : P b) (s : S) (b' : β) (h : (loop body first n b s).value = .ok b') : P b' := by
  induction n generalizing first b s with
  | zero =>
      cases h
      exact hb
  | succ n ih =>
      obtain ⟨b1, h1, h2⟩ := value_bind_eq_ok h
      exact ih (first + 1) (hbody first b hb s b1 h1) _ h2

theorem replies_reply {e : Except String (β × O)} (h : ∀ b o, e = .ok (b, o) → Q b o) :
    Replies Q (reply e : Prog S O β) := by
  intro s b hb
  cases e with
  | error msg => cases hb
  | ok r =>
      obtain ⟨b', o⟩ := r
      cases hb
      exact ⟨o, rfl, h _ _ rfl⟩

theorem Replies.ite {c : Prop} [Decidable c] {p q : Prog S O β} (hp : Replies Q p) (hq : Replies Q q) :
    Replies Q (if c then p else q) := by
  split
  · exact hp
  · exact hq

/-! ## On a part of a larger state -/

variable {T O' : Type}

/-- The program on the part `get t` of a larger state, its output renamed. -/
def zoom (get : T → S) (set : T → S → T) (emit : O → O') (p : Prog S O α) : Prog T O' α := fun t =>
  { value := (p (get t)).value
    state := set t (p (get t)).state
    out := (p (get t)).out.map emit }

end Prog

/-! ## Processes -/

/-- A state that is served until a call dies. -/
structure Process (S : Type) where
  state : S
  died : Option String := none

namespace Process

variable {S O A : Type} (serve : A → Prog S O Unit)

/-- The effect of one call; a dead process does not change. -/
def step (p : Process S) (a : A) : Process S :=
  match p.died with
  | some _ => p
  | none   =>
      { state := (serve a p.state).state
        died := match (serve a p.state).value with
          | .ok _      => none
          | .error msg => some msg }

/-- What one call sends. -/
def emit (p : Process S) (a : A) : List O :=
  match p.died with
  | some _ => []
  | none   => (serve a p.state).out

/-- The process after the calls `as`. -/
abbrev run (p : Process S) (as : List A) : Process S := Lts.run (step serve) p as

/-- What the calls `as` send, in order. -/
abbrev sent (p : Process S) (as : List A) : List O := Lts.trace (step serve) (emit serve) p as

variable {serve} {s : S} {a : A}

/-- A call that returns leaves the process alive. -/
theorem step_of_ok (h : (serve a s).value = .ok ()) :
    step serve ⟨s, none⟩ a = ⟨(serve a s).state, none⟩ := by
  rw [step, h]

/-- A dead process stays as it is. -/
theorem run_of_died {p : Process S} (h : p.died ≠ none) (as : List A) : run serve p as = p := by
  induction as with
  | nil => rfl
  | cons a as ih =>
      obtain ⟨msg, hmsg⟩ := Option.ne_none_iff_exists'.mp h
      have hstep : step serve p a = p := by rw [step, hmsg]
      rw [run, Lts.run_cons, hstep]
      exact ih

/-- A relation every call respects is respected by a step, dead or alive. -/
theorem step_within {R : S → S → Prop} (hrefl : ∀ s, R s s) (p : Process S) (a : A)
    (h : R p.state (serve a p.state).state) : R p.state (step serve p a).state := by
  unfold step
  split
  · exact hrefl p.state
  · exact h

variable (serve) in
/-- The calls `as` take `p` to `q` and send `os`. -/
structure Runs (p : Process S) (as : List A) (q : Process S) (os : List O) : Prop where
  run : Process.run serve p as = q
  sent : Process.sent serve p as = os

theorem Runs.nil (p : Process S) : Runs serve p [] p [] := ⟨rfl, rfl⟩

theorem Runs.append {p q r : Process S} {as bs : List A} {os os' : List O} (h : Runs serve p as q os)
    (h' : Runs serve q bs r os') : Runs serve p (as ++ bs) r (os ++ os') := by
  have hrun : Lts.run (step serve) p as = q := h.run
  constructor
  · rw [Process.run, Lts.run_append, hrun]
    exact h'.run
  · rw [Process.sent, Lts.trace_append, hrun]
    exact congrArg₂ (· ++ ·) h.sent h'.sent

/-- One call of a process that is alive. -/
theorem Runs.single (s : S) (a : A) :
    Runs serve ⟨s, none⟩ [a]
      ⟨(serve a s).state, match (serve a s).value with
        | .ok _      => none
        | .error msg => some msg⟩
      (serve a s).out := by
  constructor
  · rfl
  · simp [Process.sent, Lts.trace, emit]

/-- One call that returns. -/
theorem Runs.single_ok {t : S} {os : List O} (h : serve a s = ⟨.ok (), t, os⟩) :
    Runs serve ⟨s, none⟩ [a] ⟨t, none⟩ os := by
  have hsingle : Runs serve ⟨s, none⟩ [a] _ _ := Runs.single s a
  rw [h] at hsingle
  exact hsingle

/-! ## Calls in a row -/

section Bind

variable {p q : A → Prog S O Unit}

/-- A call of two programs in a row is a call of the first and a call of the second. -/
theorem step_bind (s : Process S) (a : A) :
    step (fun a => p a >>= fun _ => q a) s a = step q (step p s a) a := by
  obtain ⟨s, died⟩ := s
  cases died with
  | some msg => rfl
  | none =>
      cases h : (p a s).value with
      | ok u => simp only [step, Prog.run_bind_ok h, h]
      | error msg => simp only [step, Prog.run_bind_error h, h]

/-- And sends what the two send. -/
theorem emit_bind (s : Process S) (a : A) :
    emit (fun a => p a >>= fun _ => q a) s a = emit p s a ++ emit q (step p s a) a := by
  obtain ⟨s, died⟩ := s
  cases died with
  | some msg => rfl
  | none =>
      cases h : (p a s).value with
      | ok u => simp only [emit, step, Prog.run_bind_ok h, h]
      | error msg => simp only [emit, step, Prog.run_bind_error h, h, List.append_nil]

end Bind

/-! ## Staying alive -/

/-- A call that returns, and nothing else, keeps a process alive. -/
theorem step_alive_iff {p : Process S} (h : p.died = none) (a : A) :
    (step serve p a).died = none ↔ Prog.Returns (serve a) p.state := by
  simp only [step, h]
  cases hvalue : (serve a p.state).value with
  | ok u => exact iff_of_true rfl ⟨u, hvalue⟩
  | error msg => exact iff_of_false (Option.some_ne_none msg) (Prog.not_returns_of_error hvalue)

/-- **Survival rule.** A process is alive after a run exactly when all its calls have returned. -/
theorem run_alive_iff {p : Process S} (h : p.died = none) (as : List A) :
    (run serve p as).died = none ↔
      Lts.AllSteps (step serve) (fun p a => Prog.Returns (serve a) p.state) p as := by
  rw [← Lts.allStates_iff_allSteps (P := fun p : Process S => p.died = none)
    (fun t a ht => step_alive_iff ht a) h]
  refine ⟨fun hend => Lts.allStates_iff_at_prefixes.mpr ?_, fun hall => hall.last⟩
  rintro pre ⟨post, rfl⟩
  by_contra hdead
  -- who is dead at the prefix is dead at the end
  have hsame : run serve p (pre ++ post) = run serve p pre :=
    (Lts.run_append p pre post).trans (run_of_died hdead post)
  rw [hsame] at hend
  exact hdead hend

end Process
