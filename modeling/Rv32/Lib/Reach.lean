import Mathlib.Logic.Relation
import Rv32.Lib.Transition

/-!
# `Lib.Reach` — total correctness over a transition relation

`Reaches R P Q` says that from every state with `P` the relation leads to a state with `Q`. It is the triple
of a program logic in which the program is the relation: composition is transitivity, and a loop is an
invariant indexed by the rounds gone (`Reaches.iterate`). `Run.of_reachable` gives the run behind a triple,
for a relation that is one label of a labelled one.
-/

namespace Transition

variable {S A : Type*} {R : S → S → Prop} {P Q Q' : S → Prop}

/-- From every state with `P`, some steps lead to one with `Q`. -/
def Reaches (R : S → S → Prop) (P Q : S → Prop) : Prop :=
  ∀ s, P s → ∃ t, Relation.ReflTransGen R s t ∧ Q t

theorem Reaches.of_imp (h : ∀ s, P s → Q s) : Reaches R P Q := fun s hs => ⟨s, .refl, h s hs⟩

/-- **Composition.** -/
theorem Reaches.trans (h : Reaches R P Q) (h' : Reaches R Q Q') : Reaches R P Q' := by
  intro s hs
  obtain ⟨t, hst, ht⟩ := h s hs
  obtain ⟨u, htu, hu⟩ := h' t ht
  exact ⟨u, hst.trans htu, hu⟩

/-- **Loops.** `n` rounds of a loop that keeps its invariant in each. -/
theorem Reaches.iterate {I : Nat → S → Prop} {n : Nat} (h : ∀ k < n, Reaches R (I k) (I (k + 1))) :
    Reaches R (I 0) (I n) := by
  induction n with
  | zero => exact .of_imp fun _ hs => hs
  | succ n ih => exact (ih fun k hk => h k (Nat.lt_succ_of_lt hk)).trans (h n (Nat.lt_succ_self n))

/-- The steps are a run of one label. -/
theorem Run.of_reachable {R : S → A → S → Prop} {a : A} {s t : S}
    (h : Relation.ReflTransGen (fun s t => R s a t) s t) : ∃ n, Run R s (List.replicate n a) t := by
  induction h using Relation.ReflTransGen.head_induction_on with
  | refl => exact ⟨0, .nil t⟩
  | head hstep _ ih =>
      obtain ⟨n, hrun⟩ := ih
      exact ⟨n + 1, .cons hstep hrun⟩

end Transition
