import MonitorOperator.Queue.Gate
import MonitorOperator.Queue.WorkQueue

/-!
A queue on a clock with the consumers who wait for its keys. A consumer first enrols at the gate and
then looks into the queue, so the signal of a key that is added in between is not lost.
-/

namespace MonitorOperator

inductive Consumer where
  | arriving
  /-- enrolled, about to look; `passed` if there was a permit -/
  | looking (passed : Bool)
  /-- saw no key and waits for a signal -/
  | blocked
  | served (key : String)
  | dismissed
  | gone
deriving DecidableEq, Repr

/-- A queue, the gate before it, the consumers by number, the clock and the alarms of keys that are
to be added later. -/
structure Desk where
  queue : WorkQueue
  gate : Gate := {}
  consumers : List Consumer := []
  now : Moment := 0
  agenda : Agenda String := {}

namespace Desk

def place (d : Desk) (i : Nat) (c : Consumer) : Desk := { d with consumers := d.consumers.set i c }

def update (d : Desk) (queue : WorkQueue) : Desk :=
  { d with
    queue := queue
    gate :=
      if queue.shuttingDown && !d.queue.shuttingDown then d.gate.signalAll
      else if d.queue.length < queue.length then d.gate.signal
      else d.gate }

def add (d : Desk) (key : String) : Desk := d.update (d.queue.add key)

def done (d : Desk) (key : String) : Desk := d.update (d.queue.done key)

def forget (d : Desk) (key : String) : Desk := d.update (d.queue.forget key)

def shutdown (d : Desk) : Desk := d.update d.queue.shutdown

def setAlarm (d : Desk) (key : String) : Option Moment → Desk
  | none => d
  | some due => { d with agenda := d.agenda.set due key }

def addAfter (d : Desk) (key : String) (delay : Duration) : Desk :=
  let (queue, alarm) := d.queue.addAfter d.now key delay
  (d.update queue).setAlarm key alarm

def addRateLimited (d : Desk) (key : String) : Desk × Duration :=
  let (queue, alarm, delay) := d.queue.addRateLimited d.now key
  ((d.update queue).setAlarm key alarm, delay)

def expire (d : Desk) (key : String) (due : Moment) : Desk := d.update (d.queue.expire key due)

def enroll (d : Desk) (i : Nat) : Desk :=
  let (gate, passed) := d.gate.enroll i
  { d with gate := gate }.place i (.looking passed)

/-- A consumer looks into the queue. With a key, or after the shutdown, it leaves the gate; without
either it enrols again if there was a permit, and waits if not. -/
def look (d : Desk) (i : Nat) (passed : Bool) : Desk :=
  if d.queue.shuttingDown then { d with gate := d.gate.leave i }.place i .dismissed
  else
    match d.queue.take? with
    | some (key, queue) => { d with queue := queue, gate := d.gate.leave i }.place i (.served key)
    | none => d.place i (if passed then .arriving else .blocked)

def wake (d : Desk) (i : Nat) : Desk := { d with gate := d.gate.notice i }.place i .arriving

def giveUp (d : Desk) (i : Nat) : Desk := { d with gate := d.gate.leave i }.place i .gone

def move? (d : Desk) (i : Nat) : Option Desk :=
  match d.consumers[i]? with
  | some .arriving => some (d.enroll i)
  | some (.looking passed) => some (d.look i passed)
  | some .blocked => if d.gate.isGranted i then some (d.wake i) else none
  | _ => none

def moves : Nat → Desk → Nat → Desk
  | 0, d, _ => d
  | n + 1, d, i =>
    match d.move? i with
    | none => d
    | some d => moves n d i

/-- The most moves a consumer makes in a row: it wakes, enrols and looks, and does the last two once
more if there was a permit. -/
def longestVisit : Nat := 5

def visit (d : Desk) : Desk × Nat :=
  let i := d.consumers.length
  (moves longestVisit { d with consumers := d.consumers ++ [.arriving] } i, i)

/-- Whoever was woken makes the moves it can make, in the order of the signals. -/
def settle (d : Desk) : Desk := (d.gate.granted.map (·.1)).foldl (moves longestVisit) d

def poll (d : Desk) : Desk × Consumer :=
  let (d, i) := d.visit
  match d.consumers[i]? with
  | some .blocked => (d.giveUp i, .gone)
  | some c => (d, c)
  | none => (d, .gone)

def ring (d : Desk) (t : Moment) : Desk :=
  let keys := d.agenda.ringing t
  let d := { d with agenda := d.agenda.without t }
  { (keys.foldl (fun d key => d.expire key t) d).settle with now := t }

def advanceTo (d : Desk) (limit : Moment) : Desk :=
  match _next : d.agenda.next? d.now limit with
  | none => { d with now := max d.now limit }
  | some t => (d.ring t).advanceTo limit
termination_by limit - d.now
decreasing_by
  have := Agenda.lt_of_next? _next
  exact Nat.sub_lt_sub_left (Nat.lt_of_lt_of_le this.1 this.2) this.1

end Desk

end MonitorOperator
