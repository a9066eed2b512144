import Rv32.Lib.Lts

/-!
# `Lib.Transition` — runs of a labelled transition relation, and their implementation by a function

`Lib.Lts` is about systems that are total functions. A specification is rather a relation: it says which
steps there are, and leaves out the states it says nothing about. `Run` is a run of one. `Simulates` says that
a function, on states that `φ` maps to the specification's and that satisfy `I`, takes every step the relation
has; `Run.simulate` carries it to runs.
-/

namespace Transition

variable {S T A : Type*} {R : S → A → S → Prop}

/-- The labels `as` lead from one state to the other. -/
inductive Run (R : S → A → S → Prop) : S → List A → S → Prop where
  | nil (s : S) : Run R s [] s
  | cons {s t u : S} {a : A} {as : List A} (h : R s a t) (hrest : Run R t as u) : Run R s (a :: as) u

theorem Run.append {s t u : S} {as bs : List A} (h : Run R s as t) (h' : Run R t bs u) :
    Run R s (as ++ bs) u := by
  induction h with
  | nil => exact h'
  | cons hstep _ ih => exact .cons hstep (ih h')

theorem Run.single {s t : S} {a : A} (h : R s a t) : Run R s [a] t := .cons h (.nil t)

/-- The function takes the steps of the relation, as seen through `φ`, and keeps `I`. -/
structure Simulates (R : S → A → S → Prop) (step : T → A → T) (φ : T → S) (I : T → Prop) : Prop where
  follows : ∀ {t a s'}, I t → R (φ t) a s' → φ (step t a) = s'
  keeps : ∀ {t a s'}, I t → R (φ t) a s' → I (step t a)

variable {step : T → A → T} {φ : T → S} {I : T → Prop}

/-- **Simulation rule.** The function follows a whole run of the relation. -/
theorem Run.simulate (hsim : Simulates R step φ I) {t : T} {s' : S} {as : List A} (hI : I t)
    (h : Run R (φ t) as s') : φ (Lts.run step t as) = s' ∧ I (Lts.run step t as) := by
  induction as generalizing t with
  | nil =>
      cases h
      exact ⟨rfl, hI⟩
  | cons a as ih =>
      cases h with
      | cons hstep hrest =>
          have hnext := hsim.follows hI hstep
          subst hnext
          exact ih (hsim.keeps hI hstep) hrest

end Transition

/-- Labels in another alphabet. -/
theorem Lts.run_map {S A B : Type*} {step : S → A → S} (f : B → A) (s : S) (bs : List B) :
    Lts.run step s (bs.map f) = Lts.run (fun s b => step s (f b)) s bs := by
  induction bs generalizing s with
  | nil => rfl
  | cons b bs ih => exact ih (step s (f b))

/-- The same label over and over. -/
theorem Lts.run_replicate {S A : Type*} {step : S → A → S} (s : S) (a : A) (n : Nat) :
    Lts.run step s (List.replicate n a) = (fun s => step s a)^[n] s := by
  induction n generalizing s with
  | zero => rfl
  | succ n ih => exact ih (step s a)

/-- What holds of all events of a run holds of the events of each step. -/
theorem Lts.AllSteps.of_trace {S A E : Type*} {step : S → A → S} {emit : S → A → List E} {P : E → Prop} {s : S}
    {as : List A} (h : ∀ e ∈ Lts.trace step emit s as, P e) :
    Lts.AllSteps step (fun s a => ∀ e ∈ emit s a, P e) s as := by
  induction as generalizing s with
  | nil => trivial
  | cons a as ih =>
      exact ⟨fun e he => h e (List.mem_append_left _ he), ih fun e he => h e (List.mem_append_right _ he)⟩

/-- **Stuttering rule.** When every step comes to so many applications of `f`, as many as its weight, a run comes
    to as many as its steps together. -/
theorem Lts.run_stutter {S T A : Type*} {step : S → A → S} {R : S → T → Prop} {G : S → A → Prop} {f : T → T}
    {weight : S → A → Nat} (hstep : ∀ s t a, R s t → G s a → R (step s a) (f^[weight s a] t)) {s : S} {t : T}
    (h : R s t) {as : List A} (hG : Lts.AllSteps step G s as) :
    R (Lts.run step s as) (f^[Lts.total step weight s as] t) := by
  induction as generalizing s t with
  | nil => exact h
  | cons a as ih =>
      have hrest := ih (hstep s t a h hG.1) hG.2
      rw [← Function.iterate_add_apply, Nat.add_comm] at hrest
      exact hrest
