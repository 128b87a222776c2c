import Mathlib.Logic.Function.Basic
import MonitorOperator.Deployment.Live
import MonitorOperator.Proofs.Run
import MonitorOperator.Proofs.Store.Operation

/-! The whole system, one step at a time: a store that anyone writes to, a router that lists it and
reads its feed, a queue with its alarms, and any number of workers. A step reads or writes one
shared thing, and between two steps of one party everyone else may come. -/

namespace MonitorOperator

inductive System.Stage where
  | unsubscribed
  | listing
  | resting
  /-- it has read the monitors, but not the pods -/
  | listed (monitors : List Object)
  /-- it has changes to handle, those of a listing if the cache is synced after them -/
  | taking (todo : List Change) (syncs : Bool)
  /-- a change is in the cache, and its wake-up is not in the queue yet -/
  | waking (wake : Wake) (todo : List Change) (syncs : Bool)
  | watching

/-- What a worker does: the key that it holds, if any, and what is left of the work. One that has
fallen makes no step any more and keeps what it held. -/
inductive System.Hand where
  | free
  | working (held : Option String) (rest : Worker.Steps Unit)
  | fallen (held : Option String)

/-- A deployment, its router and the position in the feed, keys between the two halves of an alarm,
and workers by number. -/
structure System where
  site : Deployment
  stage : System.Stage := .unsubscribed
  position : Nat := 0
  ringing : List String := []
  hands : Nat → System.Hand := fun _ => .free

inductive System.Move where
  | outside (op : Store.Operation)
  /-- time goes by -/
  | wait (time : Nat)
  | route
  /-- the first half of an alarm, and all of it for one that has the router list again -/
  | ring (due : Moment) (alarm : Alarm)
  /-- the second half of an alarm -/
  | complete (key : String)
  | take (worker : Nat)
  | work (worker : Nat)

namespace System

abbrev store (s : System) : Store := s.site.drill.store

abbrev queue (s : System) : WorkQueue := s.site.operator.queue

abbrev alarms (s : System) : List (Moment × Alarm) := s.site.agenda.alarms

def start {σ τ : Type} (retention : Nat) (stamp : Recorder.Stamp) (parts : Operator.Parts σ τ) :
    System :=
  { site := {
      drill := { store := .empty retention }
      operator := .ofParts parts
      stamp := stamp } }

def rest (s : System) (cause : StoreError) : System :=
  { s with
    site := { s.site.log (.listFailed cause.message) with
      agenda := s.site.agenda.set (s.site.now + Deployment.restTime.nanos) (.relist 0) }
    stage := .resting }

def listMonitors (s : System) : System :=
  match s.store.list with
  | .error cause => s.rest cause
  | .ok listing => { s with stage := .listed (listing.filter Object.isMonitor) }

def listPods (s : System) (monitors : List Object) : System :=
  let listing := monitors ++ s.store.pods.values.map .pod
  { s with stage := .taking (s.site.operator.cache.catchUp listing) true }

def absorb (s : System) (c : Change) (todo : List Change) (syncs : Bool) : System :=
  let cache := s.site.operator.cache.absorb c
  { s with site := s.site.setCache cache, stage := .waking (Wake.ofChange cache c) todo syncs }

def rouse (s : System) (wake : Wake) (todo : List Change) (syncs : Bool) : System :=
  { s with
    site := { s.site.setQueue (wake.run s.queue) with
      journal := s.site.journal ++ wake.notices.toArray }
    stage := .taking todo syncs }

def rejoin (s : System) (syncs : Bool) : System :=
  { s with
    site := if syncs then s.site.setCache s.site.operator.cache.markSynced else s.site
    stage := .watching }

def read? (s : System) : Option System :=
  match s.store.feed.read s.position with
  | (.nothing, _) => none
  | (.lagged missed, position) =>
    some { s with site := s.site.log (.feedLagged missed), stage := .listing, position := position }
  | (.change c, position) => some { s with stage := .taking [c] false, position := position }

def route? (s : System) : Option System :=
  match s.stage with
  | .unsubscribed => some { s with stage := .listing, position := s.store.feed.size }
  | .listing => some s.listMonitors
  | .resting => none
  | .listed monitors => some (s.listPods monitors)
  | .taking (c :: todo) syncs => some (s.absorb c todo syncs)
  | .waking wake todo syncs => some (s.rouse wake todo syncs)
  | .taking [] syncs => some (s.rejoin syncs)
  | .watching => s.read?

def ring (s : System) (due : Moment) (alarm : Alarm) : System :=
  let s := { s with site := { s.site with agenda := ⟨s.alarms.erase (due, alarm)⟩ } }
  match alarm with
  | .add key =>
    match s.queue.release? key due with
    | none => s
    | some queue => { s with site := s.site.setQueue queue, ringing := key :: s.ringing }
  | .relist _ =>
    match s.stage with
    | .resting => { s with stage := .listing }
    | _ => s

def complete (s : System) (key : String) : System :=
  { s with site := s.site.setQueue (s.queue.add key), ringing := s.ringing.erase key }

def hand (s : System) (worker : Nat) (h : Hand) : System :=
  { s with hands := Function.update s.hands worker h }

@[simp] theorem hands_hand (s : System) (worker : Nat) (h : Hand) :
    (s.hand worker h).hands worker = h := Function.update_self ..

theorem hands_hand_of_ne {worker other : Nat} (apart : other ≠ worker) (s : System) (h : Hand) :
    (s.hand worker h).hands other = s.hands other := Function.update_of_ne apart ..

def take? (s : System) (worker : Nat) : Option System :=
  match s.hands worker, s.queue.take? with
  | .free, some (key, queue) =>
    let work := Worker.serve s.site.operator.delays s.site.operator.template key
    some ({ s with site := s.site.setQueue queue }.hand worker (.working (some key) work))
  | _, _ => none

def heldAfter (held : Option String) : Worker.Call → Option String
  | .done _ => none
  | _ => held

/-- A worker makes its next call, or is free once there is none. It falls if the call fails. -/
def work? (s : System) (worker : Nat) : Option System :=
  match s.hands worker with
  | .free => none
  | .working _ (.finish _) => some (s.hand worker .free)
  | .working held (.call c next) =>
    let (site, reply) := Deployment.reply c s.site
    if Deployment.fails c s.site then some ({ s with site := site }.hand worker (.fallen held))
    else some ({ s with site := site }.hand worker (.working (heldAfter held c) (next reply)))
  | .fallen _ => none

def step? (s : System) : Move → Option System
  | .outside op =>
    some { s with site := { s.site with drill := { s.site.drill with store := op.run s.store } } }
  | .wait time => some { s with site := { s.site with now := s.site.now + time } }
  | .route => s.route?
  | .ring due alarm =>
    if (due, alarm) ∈ s.alarms ∧ due ≤ s.site.now then some (s.ring due alarm) else none
  | .complete key => if key ∈ s.ringing then some (s.complete key) else none
  | .take worker => s.take? worker
  | .work worker => s.work? worker

end System

end MonitorOperator
