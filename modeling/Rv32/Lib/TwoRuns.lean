import Rv32.Lib.Prog

/-!
# `Lib.TwoRuns` — programs that cannot be told apart

Two calls are alike up to a relation `R` of their states when both return the same value or both die, when
they send the same, and when `R` holds of the states they leave. Which message a program dies with does not
count. The rules compare two programs bind by bind; they are what says that a program does not depend on
something both runs are free to choose.
-/

/-- Seen from outside, the two calls have done the same. -/
structure Outcome.Alike {S O α : Type} (R : S → S → Prop) (o o' : Outcome S O α) : Prop where
  value : o.value.toOption = o'.value.toOption
  out : o.out = o'.out
  state : R o.state o'.state

namespace Prog

variable {S O α β : Type} {R : S → S → Prop}

/-- From related states, the two programs do the same. -/
def Alike (R : S → S → Prop) (p p' : Prog S O α) : Prop :=
  ∀ s t, R s t → Outcome.Alike R (p s) (p' t)

theorem alike_pure (a : α) : Alike R (pure a : Prog S O α) (pure a) := fun _ _ h => ⟨rfl, rfl, h⟩

theorem alike_send (o : O) : Alike R (send o : Prog S O Unit) (send o) := fun _ _ h => ⟨rfl, rfl, h⟩

theorem alike_fatal (msg : String) : Alike R (fatal msg : Prog S O α) (fatal msg) :=
  fun _ _ h => ⟨rfl, rfl, h⟩

theorem alike_attempt {e e' : Except String α} (he : e.toOption = e'.toOption) :
    Alike R (attempt e : Prog S O α) (attempt e') := fun _ _ h => ⟨he, rfl, h⟩

theorem alike_modify {f f' : S → S} (hf : ∀ s t, R s t → R (f s) (f' t)) :
    Alike R (modifyState f : Prog S O Unit) (modifyState f') := fun s t h => ⟨rfl, rfl, hf s t h⟩

/-- **Sequence.** What comes after is compared from the states the first halves have left. -/
theorem Alike.bind {p p' : Prog S O α} {f f' : α → Prog S O β} (hp : Alike R p p')
    (hf : ∀ a, Alike R (f a) (f' a)) : Alike R (p >>= f) (p' >>= f') := by
  intro s t hst
  obtain ⟨hvalue, hout, hstate⟩ := hp s t hst
  cases h : (p s).value with
  | error msg =>
      cases h' : (p' t).value with
      | error msg' =>
          rw [run_bind_error h, run_bind_error h']
          exact ⟨rfl, hout, hstate⟩
      | ok a =>
          rw [h, h'] at hvalue
          cases hvalue
  | ok a =>
      cases h' : (p' t).value with
      | error msg' =>
          rw [h, h'] at hvalue
          cases hvalue
      | ok a' =>
          rw [h, h'] at hvalue
          obtain rfl := Option.some.inj hvalue
          obtain ⟨hvalue2, hout2, hstate2⟩ := hf a _ _ hstate
          rw [run_bind_ok h, run_bind_ok h']
          exact ⟨hvalue2, congrArg₂ (· ++ ·) hout hout2, hstate2⟩

/-- A program that looks at the state goes on alike if what it sees is related. -/
theorem alike_getState_bind {f f' : S → Prog S O β} (hf : ∀ s t, R s t → Alike R (f s) (f' t)) :
    Alike R (getState >>= f) (getState >>= f') := fun s t h => hf s t h s t h

theorem alike_reply (e : Except String (α × O)) : Alike R (reply e : Prog S O α) (reply e) :=
  (alike_attempt rfl).bind fun _ => (alike_send _).bind fun _ => alike_pure _

theorem alike_assign {e e' : Nat → Except String α} {g : Nat → α → S → S} (i : Nat) (he : e i = e' i)
    (hg : ∀ a s t, R s t → R (g i a s) (g i a t)) (u : Unit) :
    Alike R (assign e g i u : Prog S O Unit) (assign e' g i u) :=
  (alike_attempt (by rw [he])).bind fun a => alike_modify (hg a)

theorem alike_loop {body body' : Nat → β → Prog S O β} {first n : Nat}
    (hbody : ∀ i, first ≤ i → i < first + n → ∀ b, Alike R (body i b) (body' i b)) (b : β) :
    Alike R (loop body first n b) (loop body' first n b) := by
  induction n generalizing first b with
  | zero => exact alike_pure b
  | succ n ih =>
      refine (hbody first (Nat.le_refl first) (by omega) b).bind fun b => ih ?_ b
      intro i hfirst hi
      exact hbody i (by omega) (by omega)

/-- Two branches, taken under the same condition. -/
theorem alike_ite {c c' : Prop} [Decidable c] [Decidable c'] {p p' q q' : Prog S O α} {s t : S}
    (hc : c ↔ c') (hp : c → Outcome.Alike R (p s) (p' t)) (hq : ¬ c → Outcome.Alike R (q s) (q' t)) :
    Outcome.Alike R ((if c then p else q) s) ((if c' then p' else q') t) := by
  by_cases h : c
  · rw [if_pos h, if_pos (hc.mp h)]
    exact hp h
  · rw [if_neg h, if_neg fun h' => h (hc.mpr h')]
    exact hq h

end Prog
