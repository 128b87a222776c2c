import MonitorOperator.Program

/-! What a program and those who answer it say to each other: its calls in their order, each with
the reply to it. -/

namespace MonitorOperator.Program

variable {Call : Type} {Reply : Call → Type} {α β σ : Type}

abbrev Exchange (Reply : Call → Type) : Type := (c : Call) × Reply c

/-- The exchanges of a program that is answered from some state on. An answer may hang on anything
that the state holds, so every sequence of replies comes from some way to answer. -/
def transcript (answer : (c : Call) → σ → σ × Reply c) :
    Program Call Reply α → σ → List (Exchange Reply)
  | .finish _, _ => []
  | .call c next, s => ⟨c, (answer c s).2⟩ :: (next (answer c s).2).transcript answer (answer c s).1

def Tells : Program Call Reply α → List (Exchange Reply) → α → Prop
  | .finish a, log, b => log = [] ∧ b = a
  | .call c next, log, b => ∃ r rest, log = ⟨c, r⟩ :: rest ∧ (next r).Tells rest b

theorem tells_transcript (answer : (c : Call) → σ → σ × Reply c) (p : Program Call Reply α)
    (s : σ) : p.Tells (p.transcript answer s) (p.run answer s).2 := by
  induction p generalizing s with
  | finish a => exact ⟨rfl, rfl⟩
  | call c next ih => exact ⟨_, _, rfl, ih _ _⟩

theorem tells_bind {p : Program Call Reply α} {f : α → Program Call Reply β}
    {log : List (Exchange Reply)} {b : β} (tells : (p >>= f).Tells log b) :
    ∃ first a rest, log = first ++ rest ∧ p.Tells first a ∧ (f a).Tells rest b := by
  induction p generalizing log with
  | finish a => exact ⟨[], a, log, rfl, ⟨rfl, rfl⟩, tells⟩
  | call c next ih =>
    obtain ⟨r, rest, rfl, tells⟩ := tells
    obtain ⟨first, a, last, rfl, start, finish⟩ := ih r tells
    exact ⟨⟨c, r⟩ :: first, a, last, rfl, ⟨r, first, rfl, start⟩, finish⟩

inductive Leaves (p : Program Call Reply α) :
    List (Exchange Reply) → Program Call Reply α → Prop where
  | start : Leaves p [] p
  | step {log : List (Exchange Reply)} {c : Call} {next : Reply c → Program Call Reply α}
      (h : Leaves p log (.call c next)) (r : Reply c) : Leaves p (log ++ [⟨c, r⟩]) (next r)

theorem Leaves.tells {p q : Program Call Reply α} {log rest : List (Exchange Reply)} {a : α}
    (h : p.Leaves log q) (tells : q.Tells rest a) : p.Tells (log ++ rest) a := by
  induction h generalizing rest with
  | start => exact tells
  | step h r ih =>
    rw [List.append_assoc]
    exact ih ⟨r, rest, rfl, tells⟩

theorem leaves_finish {p : Program Call Reply α} {log : List (Exchange Reply)} {a : α}
    (h : (finish a : Program Call Reply α).Leaves log p) : log = [] ∧ p = .finish a := by
  induction h with
  | start => exact ⟨rfl, rfl⟩
  | step h r ih => exact nomatch ih.2

/-- A program can be brought to its end, if there is a reply to every call. -/
theorem exists_tells [∀ c, Nonempty (Reply c)] (p : Program Call Reply α) :
    ∃ log a, p.Tells log a := by
  induction p with
  | finish a => exact ⟨[], a, rfl, rfl⟩
  | call c next ih =>
    obtain ⟨r⟩ : Nonempty (Reply c) := inferInstance
    obtain ⟨log, a, tells⟩ := ih r
    exact ⟨⟨c, r⟩ :: log, a, r, log, rfl, tells⟩

theorem Leaves.exists_tells [∀ c, Nonempty (Reply c)] {p : Program Call Reply α}
    {log : List (Exchange Reply)} {c : Call} {next : Reply c → Program Call Reply α}
    (h : p.Leaves log (.call c next)) :
    ∃ r rest a, p.Tells (log ++ ⟨c, r⟩ :: rest) a := by
  obtain ⟨r⟩ : Nonempty (Reply c) := inferInstance
  obtain ⟨rest, a, tells⟩ := (next r).exists_tells
  exact ⟨r, rest, a, h.tells ⟨r, rest, rfl, tells⟩⟩

end MonitorOperator.Program
