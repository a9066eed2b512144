import Mathlib.Data.List.Infix

/-!
# `Lib.Lts` — runs of a deterministic labelled transition system

A system is a total function `step : S → A → S`; a run is a list of labels. Three things are said of a
run, each by recursion on the list: the state it ends in (`run`), a predicate of every state it passes
through, endpoints included (`AllStates`), and a predicate of every step it takes (`AllSteps`). `trace`
collects what the steps emit, and `total` adds up what they weigh.

The rules of use are the invariant rule (`AllStates.of_step`), its exact form (`allStates_iff_allSteps`:
when a guard decides each step of the invariant, it decides the whole run), the two-run rule
(`run_related`) and the potential rule (`total_add_le`: what a run may spend).
-/

namespace Lts

variable {S A E : Type*} (step : S → A → S)

/-- The state after the labels `as`. -/
def run : S → List A → S
  | s, []      => s
  | s, a :: as => run (step s a) as

/-- `P` holds in every state of the run, the first and the last included. -/
def AllStates (P : S → Prop) : S → List A → Prop
  | s, []      => P s
  | s, a :: as => P s ∧ AllStates P (step s a) as

/-- `G` holds of every step of the run. -/
def AllSteps (G : S → A → Prop) : S → List A → Prop
  | _, []      => True
  | s, a :: as => G s a ∧ AllSteps G (step s a) as

instance AllSteps.decidable {G : S → A → Prop} [∀ s a, Decidable (G s a)] :
    (s : S) → (as : List A) → Decidable (AllSteps step G s as)
  | _, []      => isTrue trivial
  | s, a :: as => @instDecidableAnd _ _ _ (AllSteps.decidable (step s a) as)

/-- What the steps emit, in order. -/
def trace (emit : S → A → List E) : S → List A → List E
  | _, []      => []
  | s, a :: as => emit s a ++ trace emit (step s a) as

/-- The sum of a weight over the steps of the run. -/
def total (weight : S → A → Nat) : S → List A → Nat
  | _, []      => 0
  | s, a :: as => weight s a + total weight (step s a) as

variable {step}

@[simp] theorem run_nil (s : S) : run step s [] = s := rfl

@[simp] theorem run_cons (s : S) (a : A) (as : List A) :
    run step s (a :: as) = run step (step s a) as := rfl

theorem run_append (s : S) (as bs : List A) : run step s (as ++ bs) = run step (run step s as) bs := by
  induction as generalizing s with
  | nil => rfl
  | cons a as ih => exact ih (step s a)

theorem run_concat (s : S) (as : List A) (a : A) :
    run step s (as ++ [a]) = step (run step s as) a := run_append s as [a]

theorem trace_append (emit : S → A → List E) (s : S) (as bs : List A) :
    trace step emit s (as ++ bs) = trace step emit s as ++ trace step emit (run step s as) bs := by
  induction as generalizing s with
  | nil => rfl
  | cons a as ih => simp only [List.cons_append, trace, run_cons, ih, List.append_assoc]

theorem trace_concat (emit : S → A → List E) (s : S) (as : List A) (a : A) :
    trace step emit s (as ++ [a]) = trace step emit s as ++ emit (run step s as) a := by
  rw [trace_append]; simp [trace]

/-- An event with `p` is in the list, and none with `q` after it. -/
def Since (p q : E → Prop) (es : List E) : Prop :=
  ∃ pre e post, es = pre ++ e :: post ∧ p e ∧ ∀ x ∈ post, ¬ q x

theorem not_since_nil (p q : E → Prop) : ¬ Since p q [] := by
  rintro ⟨pre, e, post, h, -⟩
  simp at h

theorem since_concat {p q : E → Prop} {es : List E} {e : E} :
    Since p q (es ++ [e]) ↔ p e ∨ (¬ q e ∧ Since p q es) := by
  constructor
  · rintro ⟨pre, x, post, h, hp, hq⟩
    -- the witness is the appended event, or stands in `es`
    rcases List.eq_nil_or_concat' post with rfl | ⟨post, y, rfl⟩
    · obtain ⟨-, heq⟩ := List.append_inj' h rfl
      obtain rfl := (List.cons.inj heq).1
      exact .inl hp
    · rw [← List.cons_append, ← List.append_assoc] at h
      obtain ⟨hes, heq⟩ := List.append_inj' h rfl
      obtain rfl := (List.cons.inj heq).1
      exact .inr ⟨hq e (by simp), pre, x, post, hes, hp, fun z hz => hq z (by simp [hz])⟩
  · rintro (hp | ⟨hq, pre, x, post, rfl, hp, hpost⟩)
    · exact ⟨es, e, [], rfl, hp, by simp⟩
    · refine ⟨pre, x, post ++ [e], by simp, hp, fun z hz => ?_⟩
      rcases List.mem_append.mp hz with h | h
      · exact hpost z h
      · rw [List.mem_singleton.mp h]; exact hq

/-! ## Reading `AllStates` and `AllSteps` off prefixes -/

variable {P : S → Prop} {G : S → A → Prop} {s : S} {as : List A}

theorem AllStates.head (h : AllStates step P s as) : P s := by
  cases as with
  | nil => exact h
  | cons a as => exact h.1

/-- Every state of a run is the end of one of its prefixes. -/
theorem allStates_iff_at_prefixes :
    AllStates step P s as ↔ ∀ pre, pre <+: as → P (run step s pre) := by
  induction as generalizing s with
  | nil =>
      constructor
      · intro h pre hpre
        rw [List.prefix_nil.mp hpre]; exact h
      · intro h; exact h [] List.prefix_rfl
  | cons a as ih =>
      constructor
      · rintro ⟨hs, hrest⟩ pre hpre
        cases pre with
        | nil => exact hs
        | cons b pre =>
            obtain ⟨rfl, htail⟩ := List.cons_prefix_cons.mp hpre
            exact ih.mp hrest pre htail
      · intro h
        refine ⟨h [] List.nil_prefix, ih.mpr fun pre hpre => ?_⟩
        exact h (a :: pre) (List.cons_prefix_cons.mpr ⟨rfl, hpre⟩)

theorem AllStates.last (h : AllStates step P s as) : P (run step s as) :=
  allStates_iff_at_prefixes.mp h as List.prefix_rfl

theorem AllStates.mono {Q : S → Prop} (h : AllStates step P s as) (hPQ : ∀ t, P t → Q t) :
    AllStates step Q s as :=
  allStates_iff_at_prefixes.mpr fun pre hpre => hPQ _ (allStates_iff_at_prefixes.mp h pre hpre)

theorem allStates_congr {Q : S → Prop} (hPQ : ∀ t, P t ↔ Q t) :
    AllStates step P s as ↔ AllStates step Q s as :=
  ⟨fun h => h.mono fun t => (hPQ t).mp, fun h => h.mono fun t => (hPQ t).mpr⟩

theorem allStates_and {Q : S → Prop} :
    AllStates step (fun t => P t ∧ Q t) s as ↔ AllStates step P s as ∧ AllStates step Q s as := by
  simp only [allStates_iff_at_prefixes, forall_and]

/-- What is true of the labels in every state is true of every step. -/
theorem AllSteps.of_labels (h : ∀ a ∈ as, ∀ t, G t a) : AllSteps step G s as := by
  induction as generalizing s with
  | nil => trivial
  | cons a as ih =>
      exact ⟨h a (List.mem_cons_self ..) s, ih fun b hb => h b (List.mem_cons_of_mem a hb)⟩

theorem AllSteps.mono {H : S → A → Prop} (h : AllSteps step G s as) (hGH : ∀ t a, G t a → H t a) :
    AllSteps step H s as := by
  induction as generalizing s with
  | nil => trivial
  | cons a as ih => exact ⟨hGH _ _ h.1, ih h.2⟩

theorem allSteps_congr {H : S → A → Prop} (hGH : ∀ t a, G t a ↔ H t a) :
    AllSteps step G s as ↔ AllSteps step H s as :=
  ⟨fun h => h.mono fun t a => (hGH t a).mp, fun h => h.mono fun t a => (hGH t a).mpr⟩

theorem AllSteps.and {H : S → A → Prop} (h : AllSteps step G s as) (h' : AllSteps step H s as) :
    AllSteps step (fun t a => G t a ∧ H t a) s as := by
  induction as generalizing s with
  | nil => trivial
  | cons a as ih => exact ⟨⟨h.1, h'.1⟩, ih h.2 h'.2⟩

/-! ## Rules -/

/-- **Invariant rule.** What one guarded step keeps, a run of guarded steps keeps in every state. -/
theorem AllStates.of_step (hstep : ∀ t a, P t → G t a → P (step t a)) (hs : P s)
    (hG : AllSteps step G s as) : AllStates step P s as := by
  induction as generalizing s with
  | nil => exact hs
  | cons a as ih => exact ⟨hs, ih (hstep s a hs hG.1) hG.2⟩

/-- The same for what the invariant says of each step. -/
theorem AllSteps.of_invariant {H : S → A → Prop} (hstep : ∀ t a, P t → G t a → P (step t a))
    (hH : ∀ t a, P t → H t a) (hs : P s) (hG : AllSteps step G s as) : AllSteps step H s as := by
  induction as generalizing s with
  | nil => trivial
  | cons a as ih => exact ⟨hH s a hs, ih (hstep s a hs hG.1) hG.2⟩

/-- **Potential rule.** When each step pays what it spends from what it gets and from a potential, a run
    spends no more than it gets and the potential it starts with. -/
theorem total_add_le {f g : S → A → Nat} (pot : S → Nat)
    (hpays : ∀ t a, P t → G t a → f t a + pot (step t a) ≤ pot t + g t a)
    (hP : AllStates step P s as) (hG : AllSteps step G s as) :
    total step f s as + pot (run step s as) ≤ pot s + total step g s as := by
  induction as generalizing s with
  | nil => simp [total]
  | cons a as ih =>
      have hstep := hpays s a hP.head hG.1
      have hrest := ih hP.2 hG.2
      simp only [total, run_cons]
      omega

/-- **Preorder rule.** A preorder that contains every step relates the two ends of a run. -/
theorem run_rel {R : S → S → Prop} (hrefl : ∀ t, R t t) (htrans : ∀ {t u v}, R t u → R u v → R t v)
    (hstep : ∀ t a, R t (step t a)) (s : S) (as : List A) : R s (run step s as) := by
  induction as generalizing s with
  | nil => exact hrefl s
  | cons a as ih => exact htrans (hstep s a) (ih (step s a))

/-- **Fixed-point rule.** Labels that leave `s` as it is do so in any number. -/
theorem run_of_fixed (h : ∀ a ∈ as, step s a = s) : run step s as = s := by
  induction as with
  | nil => rfl
  | cons a as ih =>
      rw [run_cons, h a (List.mem_cons_self ..)]
      exact ih fun b hb => h b (List.mem_cons_of_mem a hb)

/-- And all the steps of the run are steps from `s`. -/
theorem AllSteps.of_fixed (h : ∀ a ∈ as, step s a = s) (hG : ∀ a ∈ as, G s a) :
    AllSteps step G s as := by
  induction as with
  | nil => trivial
  | cons a as ih =>
      refine ⟨hG a (List.mem_cons_self ..), ?_⟩
      rw [h a (List.mem_cons_self ..)]
      exact ih (fun b hb => h b (List.mem_cons_of_mem a hb)) fun b hb => hG b (List.mem_cons_of_mem a hb)

/-- **Exact invariant rule.** When `G` says exactly which steps keep `P`, a run keeps `P` throughout
    exactly when all its steps satisfy `G`. -/
theorem allStates_iff_allSteps (hstep : ∀ t a, P t → (P (step t a) ↔ G t a)) (hs : P s) :
    AllStates step P s as ↔ AllSteps step G s as := by
  induction as generalizing s with
  | nil => exact iff_of_true hs trivial
  | cons a as ih =>
      constructor
      · rintro ⟨-, hrest⟩
        have hnext : P (step s a) := hrest.head
        exact ⟨(hstep s a hs).mp hnext, (ih hnext).mp hrest⟩
      · rintro ⟨hG, hrest⟩
        have hnext : P (step s a) := (hstep s a hs).mpr hG
        exact ⟨hs, (ih hnext).mpr hrest⟩

/-- **Two-run rule.** A relation that every step keeps is kept by two runs of the same labels. -/
theorem run_related {R : S → S → Prop} (hstep : ∀ t u a, R t u → R (step t a) (step u a)) {t u : S}
    (h : R t u) : R (run step t as) (run step u as) := by
  induction as generalizing t u with
  | nil => exact h
  | cons a as ih => exact ih (hstep t u a h)

end Lts
