import Rv32.Lib.Prog

/-!
# `Lib.Refine` — programs that do what a function says

A function from `A` to `Except String B` is an abstract account of a `Prog S O Unit`. The program refines it
when, called in a state that `R` relates to `a`, it dies with the function's message if the function dies at
`a`, leaves a state that `R'` relates to the function's result if it has one, and sends nothing but items
with `Q` in either case. The rules take a program and a function apart together.
-/

/-- An outcome is what `e` says it should be. -/
structure Outcome.Refines {B S O : Type} (R : B → S → Prop) (Q : O → Prop) (e : Except String B)
    (o : Outcome S O Unit) : Prop where
  value : o.value = e.map fun _ => ()
  state : ∀ b, e = .ok b → R b o.state
  out : ∀ x ∈ o.out, Q x

namespace Prog

variable {A B C S O α ι : Type} {R : A → S → Prop} {R' : B → S → Prop} {R'' : C → S → Prop} {Q : O → Prop}

/-- From a state that `R` relates to `a`, the program does what `f a` says. -/
def Refines (R : A → S → Prop) (R' : B → S → Prop) (Q : O → Prop) (f : A → Except String B)
    (p : Prog S O Unit) : Prop :=
  ∀ a s, R a s → Outcome.Refines R' Q (f a) (p s)

theorem refines_pure : Refines R R Q pure (pure ()) := by
  intro a s hR
  refine ⟨rfl, ?_, by rintro x ⟨⟩⟩
  rintro b ⟨⟩
  exact hR

theorem refines_fatal (msg : String) : Refines R R' Q (fun _ => throw msg) (fatal msg) := by
  intro a s hR
  refine ⟨rfl, ?_, by rintro x ⟨⟩⟩
  rintro b ⟨⟩

variable {f : A → Except String B} {g : B → Except String C} {p q : Prog S O Unit}

/-- **Sequence.** -/
theorem Refines.bind (hp : Refines R R' Q f p) (hq : Refines R' R'' Q g q) :
    Refines R R'' Q (fun a => f a >>= g) (p >>= fun _ => q) := by
  intro a s hR
  obtain ⟨hvalue, hstate, hout⟩ := hp a s hR
  show Outcome.Refines R'' Q (f a >>= g) _
  cases hf : f a with
  | error msg =>
      rw [hf] at hvalue
      rw [error_bind, run_bind_error hvalue]
      exact ⟨rfl, by rintro b ⟨⟩, hout⟩
  | ok b =>
      rw [hf] at hvalue
      rw [ok_bind, run_bind_ok hvalue]
      obtain ⟨hvalue2, hstate2, hout2⟩ := hq b _ (hstate b hf)
      refine ⟨hvalue2, hstate2, fun x hx => ?_⟩
      rcases List.mem_append.mp hx with hx | hx
      · exact hout x hx
      · exact hout2 x hx

/-- A computation both of them make. -/
theorem refines_attempt_bind {e : Except String α} {f : α → A → Except String B}
    {p : α → Prog S O Unit} (h : ∀ x, Refines R R' Q (f x) (p x)) :
    Refines R R' Q (fun a => e >>= fun x => f x a) (attempt e >>= p) := by
  cases e with
  | error msg => exact refines_fatal msg
  | ok x => exact h x

/-- A program that looks at the state. -/
theorem refines_getState_bind {k : S → Prog S O Unit}
    (h : ∀ a s, R a s → Outcome.Refines R' Q (f a) (k s s)) : Refines R R' Q f (getState >>= k) := h

/-- Two branches, taken under the same condition. -/
theorem refines_ite {c c' : Prop} [Decidable c] [Decidable c'] {e e' : Except String B}
    {p p' : Prog S O Unit} {s : S} (hc : c ↔ c') (hpos : c → Outcome.Refines R' Q e (p s))
    (hneg : ¬ c → Outcome.Refines R' Q e' (p' s)) :
    Outcome.Refines R' Q (if c then e else e') ((if c' then p else p') s) := by
  by_cases h : c
  · rw [if_pos h, if_pos (hc.mp h)]
    exact hpos h
  · rw [if_neg h, if_neg fun h' => h (hc.mpr h')]
    exact hneg h

/-- **A loop** over a list. -/
theorem refines_forM {f : A → ι → Except String A} {p : ι → Prog S O Unit}
    (h : ∀ x, Refines R R Q (fun a => f a x) (p x)) (xs : List ι) :
    Refines R R Q (fun a => xs.foldlM f a) (xs.forM p) := by
  induction xs with
  | nil => exact refines_pure
  | cons x xs ih => exact (h x).bind ih

end Prog
