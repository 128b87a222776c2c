import MonitorOperator.Cluster.Object

/-!
The feed of a store: every change in order. A reader has a position in it and gets one change after
the other; one that falls too far behind loses the oldest changes and is told how many.
-/

namespace MonitorOperator

/-- All changes so far. -/
structure Feed where
  changes : Array Change := #[]
deriving DecidableEq

namespace Feed

def window : Nat := 1024

def size (f : Feed) : Nat := f.changes.size

def push (f : Feed) (c : Change) : Feed := ⟨f.changes.push c⟩

inductive Delivery where
  /-- there is no further change -/
  | nothing
  | lagged (missed : Nat)
  | change (c : Change)
deriving DecidableEq

/-- Reads at a position: what is delivered and the position after it. -/
def read (f : Feed) (position : Nat) : Delivery × Nat :=
  if position + window < f.size then (.lagged (f.size - window - position), f.size - window)
  else
    match f.changes[position]? with
    | none => (.nothing, position)
    | some c => (.change c, position + 1)

def since (f : Feed) (position : Nat) : List Change := f.changes.toList.drop position

end Feed

end MonitorOperator
