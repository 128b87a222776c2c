import MonitorOperator.Duration

/-!
Alarms on a clock. They ring by their time, and those of one moment in the order they were set.
-/

namespace MonitorOperator

abbrev Moment := Nat

/-- Where the clock ends: it counts whole seconds in 63 bits. -/
def Moment.limit : Moment := Nat.pow 2 63 * nanosPerSecond

structure Agenda (α : Type) where
  alarms : List (Moment × α) := []
deriving DecidableEq, Repr

namespace Agenda

variable {α : Type}

def set (a : Agenda α) (due : Moment) (subject : α) : Agenda α := ⟨a.alarms ++ [(due, subject)]⟩

def next? (a : Agenda α) (now limit : Moment) : Option Moment :=
  ((a.alarms.map (·.1)).filter (fun due => now < due ∧ due ≤ limit)).min?

def ringing (a : Agenda α) (t : Moment) : List α := (a.alarms.filter (·.1 = t)).map (·.2)

def without (a : Agenda α) (t : Moment) : Agenda α := ⟨a.alarms.filter (·.1 ≠ t)⟩

theorem lt_of_next? {a : Agenda α} {now limit t : Moment} (h : a.next? now limit = some t) :
    now < t ∧ t ≤ limit := by
  have member := List.min?_mem h
  simpa using (List.mem_filter.mp member).2

end Agenda

end MonitorOperator
