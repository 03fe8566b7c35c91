import Mathlib.Tactic

/-!
# Runs of a transition function

A system takes one step for every event.  A condition on the events of a run is asked of
each event in the state in which it occurs (`Meets`).

`run_invariant` derives what holds after every run from what a step keeps, and
`run_related` what every run does to a state from what a step does.
-/

namespace Run

variable {S E : Type} (step : S → E → S)

/-- The state after a sequence of events. -/
def run (s : S) (es : List E) : S :=
  es.foldl step s

theorem run_cons (s : S) (e : E) (es : List E) :
  run step s (e :: es) = run step (step s e) es
  := rfl

theorem run_append (s : S) (es fs : List E) :
  run step s (es ++ fs) = run step (run step s es) fs
  := List.foldl_append

theorem run_concat (s : S) (es : List E) (e : E) :
  run step s (es ++ [e]) = step (run step s es) e
  := List.foldl_concat _ _ _ _

/-- Every event meets the condition `G` in the state in which it occurs. -/
def Meets (G : S → E → Prop) : S → List E → Prop
  | _, [] => True
  | s, e :: es => G s e ∧ Meets G (step s e) es

instance decidableMeets (G : S → E → Prop) [∀ s e, Decidable (G s e)] :
    ∀ (s : S) (es : List E), Decidable (Meets step G s es)
  | _, [] => .isTrue trivial
  | s, e :: es =>
    have := decidableMeets G (step s e) es
    inferInstanceAs (Decidable (G s e ∧ Meets step G (step s e) es))

variable {step}
variable {G : S → E → Prop}

theorem meets_of_forall (h : ∀ s e, G s e) (s : S) (es : List E) :
  Meets step G s es
  := by
  induction es generalizing s with
  | nil => trivial
  | cons e es ih => exact ⟨h s e, ih _⟩

theorem meets_append {s : S} {es fs : List E} :
  Meets step G s (es ++ fs) ↔ Meets step G s es ∧ Meets step G (run step s es) fs
  := by
  induction es generalizing s with
  | nil => simp [Meets, run]
  | cons e es ih => rw [List.cons_append, Meets, Meets, ih, and_assoc, run_cons]

/-- What every step keeps holds after every run. -/
theorem run_invariant {I : S → Prop} (hstep : ∀ s e, I s → G s e → I (step s e)) {s : S}
    {es : List E} (hs : I s) (h : Meets step G s es) :
  I (run step s es)
  := by
  induction es generalizing s with
  | nil => apply hs
  | cons e es ih => apply ih (hstep s e hs h.1) h.2

/-- If a step relates the states before and after it, so does every run. -/
theorem run_related {I : S → Prop} {R : S → S → Prop} (hrefl : ∀ s, R s s)
    (htrans : ∀ s s' s'', R s s' → R s' s'' → R s s'') (hinv : ∀ s e, I s → G s e → I (step s e))
    (hstep : ∀ s e, I s → G s e → R s (step s e)) {s : S} {es : List E} (hs : I s)
    (h : Meets step G s es) :
  R s (run step s es)
  := by
  induction es generalizing s with
  | nil => apply hrefl
  | cons e es ih =>
    apply htrans _ _ _ (hstep s e hs h.1)
    apply ih (hinv s e hs h.1) h.2

end Run
