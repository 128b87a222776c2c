/-! Runs of a system that takes one step after the other. A step that cannot be made ends no run:
there is no run through it. -/

namespace MonitorOperator

variable {σ ε : Type}

def after? (next : σ → ε → Option σ) (s : σ) (steps : List ε) : Option σ := steps.foldlM next s

theorem after?_cons (next : σ → ε → Option σ) (s : σ) (e : ε) (steps : List ε) :
    after? next s (e :: steps) = (next s e).bind (fun t => after? next t steps) := by
  simp only [after?, List.foldlM_cons]; rfl

theorem after?_append (next : σ → ε → Option σ) (s : σ) (steps more : List ε) :
    after? next s (steps ++ more) = (after? next s steps).bind (fun t => after? next t more) := by
  simp only [after?, List.foldlM_append]; rfl

def trail (next : σ → ε → Option σ) : σ → List ε → List σ
  | s, [] => [s]
  | s, e :: steps =>
    s :: match next s e with
      | none => []
      | some t => trail next t steps

theorem head?_trail (next : σ → ε → Option σ) (s : σ) (steps : List ε) :
    (trail next s steps).head? = some s := by
  cases steps <;> rfl

theorem after?_invariant_of_mem {next : σ → ε → Option σ} {P : σ → Prop} (steps : List ε)
    (kept : ∀ s e t, e ∈ steps → P s → next s e = some t → P t) {s t : σ} (start : P s)
    (run : after? next s steps = some t) : P t := by
  induction steps generalizing s with
  | nil => exact Option.some.inj run ▸ start
  | cons e steps ih =>
    rw [after?_cons, Option.bind_eq_some_iff] at run
    obtain ⟨u, first, rest⟩ := run
    exact ih (fun s e t member => kept s e t (List.mem_cons_of_mem _ member))
      (kept s e u (List.mem_cons_self ..) start first) rest

theorem after?_invariant {next : σ → ε → Option σ} {P : σ → Prop}
    (kept : ∀ s e t, P s → next s e = some t → P t) (steps : List ε) {s t : σ} (start : P s)
    (run : after? next s steps = some t) : P t :=
  after?_invariant_of_mem steps (fun s e t _ => kept s e t) start run

end MonitorOperator
