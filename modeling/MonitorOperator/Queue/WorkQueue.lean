import MonitorOperator.Agenda
import MonitorOperator.Queue.Backoff

/-!
The queue of keys that need work. A key is dirty from the moment it is added until it is taken, and
stands in line once however often it was added. A key that a worker holds is not handed out again:
if it was added meanwhile, it joins the line when the worker is done.
-/

namespace MonitorOperator

structure WorkQueue.Stats where
  queued : Nat
  processing : Nat
  deferred : Nat
  waiting : Nat
deriving DecidableEq, Repr

/-- Keys in line, keys that need work, keys that workers hold and keys that are to be added later. -/
structure WorkQueue where
  name : String
  backoff : Backoff
  ready : List String := []
  dirty : Table String Unit := ∅
  processing : Table String Unit := ∅
  waiting : Table String Moment := ∅
  shuttingDown : Bool := false
deriving DecidableEq

namespace WorkQueue

def new (name : String) (bounds : Backoff.Bounds) : WorkQueue :=
  { name := name, backoff := .new bounds }

/-- Adds a key: it joins the line unless it stands there or a worker holds it. -/
def add (q : WorkQueue) (key : String) : WorkQueue :=
  if q.shuttingDown || q.dirty.contains key then q
  else
    let q := { q with dirty := q.dirty.insert key () }
    if q.processing.contains key then q else { q with ready := q.ready ++ [key] }

def take? (q : WorkQueue) : Option (String × WorkQueue) :=
  if q.shuttingDown then none
  else
    match q.ready with
    | [] => none
    | key :: rest =>
      some (key, { q with
        ready := rest
        dirty := q.dirty.erase key
        processing := q.processing.insert key () })

/-- A worker is done with a key: if it is dirty, it joins the line. -/
def done (q : WorkQueue) (key : String) : WorkQueue :=
  let q := { q with processing := q.processing.erase key }
  if q.dirty.contains key && !q.shuttingDown then { q with ready := q.ready ++ [key] } else q

def drainUpTo : Nat → WorkQueue → WorkQueue × List String
  | 0, q => (q, [])
  | n + 1, q =>
    match q.take? with
    | none => (q, [])
    | some (key, held) =>
      let (rest, keys) := drainUpTo n (held.done key)
      (rest, key :: keys)

def drain (q : WorkQueue) : WorkQueue × List String := drainUpTo q.ready.length q

def forget (q : WorkQueue) (key : String) : WorkQueue :=
  { q with backoff := q.backoff.forget key }

def attempts (q : WorkQueue) (key : String) : Nat := q.backoff.attempts key

def isDueBy (q : WorkQueue) (key : String) (ready : Moment) : Bool :=
  match q.waiting.get? key with
  | none => false
  | some pending => pending ≤ ready

/-- Whether a delay leads beyond the end of the clock. Whoever asks for a key after such a delay fails
at it. -/
def isBeyond (now : Moment) (delay : Duration) : Bool :=
  !delay.isZero && Moment.limit ≤ now + delay.nanos

/-- Adds a key once a delay has passed. Only the earliest moment of a key is kept; the answer is the
moment for which an alarm must be set. No delay adds the key at once. A request beyond the end of the
clock fails, and leaves the queue as it was. -/
def addAfter (q : WorkQueue) (now : Moment) (key : String) (delay : Duration) :
    WorkQueue × Option Moment :=
  if delay.isZero then (q.add key, none)
  else if isBeyond now delay then (q, none)
  else
    let ready := now + delay.nanos
    if q.shuttingDown || q.isDueBy key ready then (q, none)
    else ({ q with waiting := q.waiting.insert key ready }, some ready)

/-- Counts a failure of a key and adds it after the delay of that failure. It is counted also where the
request then fails. -/
def addRateLimited (q : WorkQueue) (now : Moment) (key : String) :
    WorkQueue × Option Moment × Duration :=
  let (backoff, delay) := q.backoff.fail key
  let (q, alarm) := { q with backoff := backoff }.addAfter now key delay
  (q, alarm, delay)

/-- The first half of an alarm: it takes the key from those that wait, unless the alarm is of another
moment than the one the key waits for. -/
def release? (q : WorkQueue) (key : String) (due : Moment) : Option WorkQueue :=
  if q.waiting.get? key = some due then some { q with waiting := q.waiting.erase key } else none

def expire (q : WorkQueue) (key : String) (due : Moment) : WorkQueue :=
  match q.release? key due with
  | none => q
  | some q => q.add key

def shutdown (q : WorkQueue) : WorkQueue := { q with shuttingDown := true, waiting := ∅ }

def length (q : WorkQueue) : Nat := q.ready.length

def stats (q : WorkQueue) : Stats where
  queued := q.ready.length
  processing := q.processing.size
  deferred := (q.dirty.keys.filter q.processing.contains).length
  waiting := q.waiting.size

end WorkQueue

end MonitorOperator
