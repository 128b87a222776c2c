/-!
A gate at which visitors wait for a signal. A signal wakes the visitor who came first; with nobody
there it stays as a permit, of which there is at most one. A visitor who leaves without having
noticed a signal that was for one visitor passes it on.
-/

namespace MonitorOperator

inductive Gate.Signal where
  | one
  | everyone
deriving DecidableEq, Repr

/-- A gate, with visitors by number in the order they came, and signals that were given to visitors
who have not noticed yet. -/
structure Gate where
  permit : Bool := false
  waiting : List Nat := []
  granted : List (Nat × Gate.Signal) := []
deriving DecidableEq, Repr

namespace Gate

/-- A visitor comes and uses up the permit, or waits. The answer says whether there was a permit. -/
def enroll (g : Gate) (visitor : Nat) : Gate × Bool :=
  if g.permit then ({ g with permit := false }, true)
  else ({ g with waiting := g.waiting ++ [visitor] }, false)

def signal (g : Gate) : Gate :=
  match g.waiting with
  | [] => { g with permit := true }
  | visitor :: rest => { g with waiting := rest, granted := g.granted ++ [(visitor, .one)] }

def signalAll (g : Gate) : Gate :=
  { g with waiting := [], granted := g.granted ++ g.waiting.map (·, .everyone) }

def isGranted (g : Gate) (visitor : Nat) : Bool := g.granted.any (·.1 == visitor)

def notice (g : Gate) (visitor : Nat) : Gate :=
  { g with granted := g.granted.filter (·.1 ≠ visitor) }

/-- A visitor leaves: the wait is over, and a signal for one that was not noticed is passed on. -/
def leave (g : Gate) (visitor : Nat) : Gate :=
  let left : Gate :=
    { g with
      waiting := g.waiting.filter (· ≠ visitor)
      granted := g.granted.filter (·.1 ≠ visitor) }
  if g.granted.contains (visitor, .one) then left.signal else left

end Gate

end MonitorOperator
