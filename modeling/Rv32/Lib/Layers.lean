import Rv32.Lib.Lts

/-!
# `Lib.Layers` — a front that turns labels into commands, and the system behind it

A server that reads a stream is often two machines one behind the other: the front reads a label and gives
commands to the back, and only the back has effects. The front does not see the back, so what it gives it is
a function of the labels alone: the `trace` of the front. `Layers` says of one step that a whole system is
made of a front and a back, up to a relation between their states. `Layers.run` carries that to runs, where
the whole run is the run of the back on the commands.
-/

namespace Lts

variable {S P T A C E : Type*}

/-- Every step of the whole is what the back makes of the commands of the front. -/
structure Layers (step : S → A → S) (emit : S → A → List E) (front : P → A → P) (commands : P → A → List C)
    (back : T → C → T) (answer : T → C → List E) (R : S → P → T → Prop) : Prop where
  step : ∀ {s p t} a, R s p t → R (step s a) (front p a) (run back t (commands p a))
  emit : ∀ {s p t} a, R s p t → emit s a = trace back answer t (commands p a)

variable {step : S → A → S} {emit : S → A → List E} {front : P → A → P} {commands : P → A → List C}
  {back : T → C → T} {answer : T → C → List E} {R : S → P → T → Prop}

/-- **Layer rule.** A whole run is the run of the back on what the front makes of the labels. -/
theorem Layers.run (h : Layers step emit front commands back answer R) {s : S} {p : P} {t : T} (hR : R s p t)
    (as : List A) :
    R (run step s as) (run front p as) (run back t (trace front commands p as)) ∧
      trace step emit s as = trace back answer t (trace front commands p as) := by
  induction as generalizing s p t with
  | nil => exact ⟨hR, rfl⟩
  | cons a as ih =>
      obtain ⟨hrest, hsent⟩ := ih (h.step a hR)
      simp only [run_cons, trace, run_append, trace_append]
      exact ⟨hrest, by rw [h.emit a hR, hsent]⟩

/-- What a step has given is in the trace, and what is in the trace some step has given. -/
theorem mem_trace_iff {s : S} {as : List A} {e : E} :
    e ∈ trace step emit s as ↔ ∃ pre a post, as = pre ++ a :: post ∧ e ∈ emit (run step s pre) a := by
  induction as generalizing s with
  | nil => simp [trace]
  | cons b as ih =>
      rw [trace, List.mem_append, ih]
      constructor
      · rintro (hb | ⟨pre, a, post, rfl, he⟩)
        · exact ⟨[], b, as, rfl, hb⟩
        · exact ⟨b :: pre, a, post, rfl, he⟩
      · rintro ⟨pre, a, post, has, he⟩
        cases pre with
        | nil =>
            obtain ⟨rfl, rfl⟩ := List.cons.inj has
            exact .inl he
        | cons c pre =>
            obtain ⟨rfl, rfl⟩ := List.cons.inj has
            exact .inr ⟨pre, a, post, rfl, he⟩

end Lts
