import MonitorOperator.Proofs.Queue.Line
import MonitorOperator.Proofs.Run

/-! A queue that many use at once. Calls come in any order and from anyone; each of them is one
step, and an alarm rings in two steps, between which others may come. Main statement: where every
key is released once and by its holder, no key is in two hands at a time. -/

namespace MonitorOperator

/-- What becomes of keys. -/
inductive Traffic.Entry where
  | added (key : String)
  | delivered (key : String)
deriving DecidableEq, Repr

/-- What can happen to a queue. Workers are known by number. -/
inductive Traffic.Call where
  | add (key : String)
  | addAfter (key : String) (delay : Duration)
  | addRateLimited (key : String)
  | forget (key : String)
  | take (worker : Nat)
  | done (worker : Nat) (key : String)
  | shutdown
  /-- time goes by -/
  | wait (time : Nat)
  /-- the first half of an alarm -/
  | ring (due : Moment) (key : String)
  /-- the second half of an alarm -/
  | complete (key : String)
deriving DecidableEq

/-- A queue, its clock and its alarms, keys between the two halves of an alarm, keys in the hands of
workers, and what became of keys so far, the latest first. -/
structure Traffic where
  queue : WorkQueue
  now : Moment := 0
  agenda : Agenda String := {}
  ringing : List String := []
  held : List (Nat × String) := []
  history : List Traffic.Entry := []

namespace Traffic

def new (name : String) (bounds : Backoff.Bounds) : Traffic := { queue := .new name bounds }

def add (s : Traffic) (key : String) : Traffic :=
  { s with queue := s.queue.add key, history := .added key :: s.history }

/-- A key is added after a delay: the queue's answer, the alarm it asks for, and no delay at all
counts as added. -/
def later (s : Traffic) (key : String) (delay : Duration) (answer : WorkQueue × Option Moment) :
    Traffic :=
  { s with
    queue := answer.1
    agenda := match answer.2 with
      | none => s.agenda
      | some due => s.agenda.set due key
    history := if delay.isZero then .added key :: s.history else s.history }

def ring (s : Traffic) (due : Moment) (key : String) : Traffic :=
  let s := { s with agenda := ⟨s.agenda.alarms.erase (due, key)⟩ }
  match s.queue.release? key due with
  | none => s
  | some queue => { s with queue := queue, ringing := key :: s.ringing }

/-- One step, if it can be made: a key is taken only if one is handed out, and only an alarm that
was set and is due rings. -/
def step? (s : Traffic) : Call → Option Traffic
  | .add key => some (s.add key)
  | .addAfter key delay => some (s.later key delay (s.queue.addAfter s.now key delay))
  | .addRateLimited key =>
    let (queue, alarm, delay) := s.queue.addRateLimited s.now key
    some (s.later key delay (queue, alarm))
  | .forget key => some { s with queue := s.queue.forget key }
  | .take worker =>
    match s.queue.take? with
    | none => none
    | some (key, queue) =>
      some { s with
        queue := queue
        held := (worker, key) :: s.held
        history := .delivered key :: s.history }
  | .done worker key =>
    some { s with queue := s.queue.done key, held := s.held.erase (worker, key) }
  | .shutdown => some { s with queue := s.queue.shutdown }
  | .wait time => some { s with now := s.now + time }
  | .ring due key =>
    if (due, key) ∈ s.agenda.alarms ∧ due ≤ s.now then some (s.ring due key) else none
  | .complete key =>
    if key ∈ s.ringing then some ({ s with ringing := s.ringing.erase key }.add key) else none

def permits (s : Traffic) : Call → Bool
  | .done worker key => (worker, key) ∈ s.held
  | _ => true

/-- One step of workers who release what they hold, and nothing else. -/
def orderly? (s : Traffic) (c : Call) : Option Traffic := if s.permits c then s.step? c else none

theorem orderly?_eq_some {s t : Traffic} {c : Call} :
    s.orderly? c = some t ↔ s.permits c = true ∧ s.step? c = some t := by
  simp [orderly?]

inductive Effect (s : Traffic) (c : Call) (t : Traffic) : Prop where
  | add (key : String) (queue : t.queue = s.queue.add key) (held : t.held = s.held)
      (history : t.history = .added key :: s.history)
  | take (worker : Nat) (key : String) (queue : s.queue.take? = some (key, t.queue))
      (held : t.held = (worker, key) :: s.held) (history : t.history = .delivered key :: s.history)
  | done (worker : Nat) (key : String) (call : c = .done worker key)
      (queue : t.queue = s.queue.done key)
      (held : t.held = s.held.erase (worker, key)) (history : t.history = s.history)
  | aside (ready : t.queue.ready = s.queue.ready) (dirty : t.queue.dirty = s.queue.dirty)
      (processing : t.queue.processing = s.queue.processing)
      (down : s.queue.shuttingDown = true → t.queue.shuttingDown = true)
      (held : t.held = s.held) (history : t.history = s.history)

theorem later_aside (s : Traffic) (c : Call) (key : String) {delay : Duration}
    (positive : delay.isZero = false) {answer : WorkQueue × Option Moment}
    (ready : answer.1.ready = s.queue.ready)
    (dirty : answer.1.dirty = s.queue.dirty) (processing : answer.1.processing = s.queue.processing)
    (down : answer.1.shuttingDown = s.queue.shuttingDown) : Effect s c (s.later key delay answer) :=
  .aside ready dirty processing (fun h => down.trans h) rfl (by simp [later, positive])

theorem addAfter_effect (s : Traffic) (key : String) (delay : Duration) :
    Effect s (.addAfter key delay) (s.later key delay (s.queue.addAfter s.now key delay)) := by
  obtain ⟨zero, eq⟩ | ⟨positive, ⟨_, eq⟩ | ⟨_, eq⟩⟩ := s.queue.addAfter_cases s.now key delay
  · exact .add key (by simp [later, eq]) rfl (by simp [later, zero])
  · rw [eq]; exact s.later_aside _ key positive rfl rfl rfl rfl
  · rw [eq]; exact s.later_aside _ key positive rfl rfl rfl rfl

theorem addRateLimited_effect {s t : Traffic} {key : String}
    (step : s.step? (.addRateLimited key) = some t) : Effect s (.addRateLimited key) t := by
  obtain ⟨_, _, _, positive, ⟨_, eq⟩ | ⟨_, eq⟩⟩ := s.queue.addRateLimited_cases s.now key
  · simp only [step?, eq] at step
    cases Option.some.inj step
    exact s.later_aside _ key positive rfl rfl rfl rfl
  · simp only [step?, eq] at step
    cases Option.some.inj step
    exact s.later_aside _ key positive rfl rfl rfl rfl

theorem ring_effect (s : Traffic) (due : Moment) (key : String) :
    Effect s (.ring due key) (s.ring due key) := by
  cases h : s.queue.release? key due with
  | none =>
    exact .aside (by simp [ring, h]) (by simp [ring, h]) (by simp [ring, h]) (by simp [ring, h])
      (by simp [ring, h]) (by simp [ring, h])
  | some queue =>
    obtain ⟨_, rfl⟩ := WorkQueue.release?_eq_some.mp h
    exact .aside (by simp [ring, h]) (by simp [ring, h]) (by simp [ring, h]) (by simp [ring, h])
      (by simp [ring, h]) (by simp [ring, h])

theorem step_effect {s t : Traffic} {c : Call} (step : s.step? c = some t) : Effect s c t := by
  cases c with
  | add key => cases Option.some.inj step; exact .add key rfl rfl rfl
  | addAfter key delay => cases Option.some.inj step; exact s.addAfter_effect key delay
  | addRateLimited key => exact addRateLimited_effect step
  | forget key => cases Option.some.inj step; exact .aside rfl rfl rfl id rfl rfl
  | take worker =>
    simp only [step?] at step
    split at step
    · contradiction
    · rename_i key queue taken
      cases Option.some.inj step
      exact .take worker key taken rfl rfl
  | done worker key => cases Option.some.inj step; exact .done worker key rfl rfl rfl rfl
  | shutdown => cases Option.some.inj step; exact .aside rfl rfl rfl (fun _ => rfl) rfl rfl
  | wait time => cases Option.some.inj step; exact .aside rfl rfl rfl id rfl rfl
  | ring due key =>
    simp only [step?] at step
    split at step
    · cases Option.some.inj step; exact s.ring_effect due key
    · contradiction
  | complete key =>
    simp only [step?] at step
    split at step
    · cases Option.some.inj step; exact .add key rfl rfl rfl
    · contradiction

theorem taking_of_step {s t : Traffic} {c : Call} (step : s.step? c = some t)
    (taking : t.queue.shuttingDown = false) : s.queue.shuttingDown = false := by
  cases step_effect step with
  | add key queue => simpa [queue] using taking
  | take _ _ queue => exact (WorkQueue.take?_eq_some.mp queue).1
  | done _ _ _ queue => simpa [queue] using taking
  | aside _ _ _ down =>
    cases h : s.queue.shuttingDown with
    | false => rfl
    | true => rw [down h] at taking; contradiction

end Traffic

end MonitorOperator
