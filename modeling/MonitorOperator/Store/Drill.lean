import MonitorOperator.Store

/-!
A store under drill: calls fail as planned, reads of pods miss what is there, and another writer
comes between a read and the write that follows. A call that fails as planned does not reach the
store.
-/

namespace MonitorOperator

inductive Drill.Endpoint where
  | getMonitor
  | updateStatus
  | getPod
  | createPod
  | list
deriving DecidableEq, Repr

/-- A store with a plan. Each endpoint meets its planned errors in their order. -/
structure Drill where
  store : Store := {}
  plan : List (Drill.Endpoint × StoreError) := []
  /-- the next reads of pods that find nothing -/
  staleReads : Nat := 0
  /-- the next reads of monitors that are followed by a write of someone else -/
  touches : Nat := 0
  /-- the next events that cannot be published -/
  failingPublishes : Nat := 0
deriving DecidableEq

namespace Drill

def schedule (d : Drill) (e : Endpoint) (cause : StoreError) (times : Nat) : Drill :=
  { d with plan := d.plan ++ List.replicate times (e, cause) }

def intercept (d : Drill) (e : Endpoint) : Drill × Option StoreError :=
  match d.plan.find? (·.1 = e) with
  | none => (d, none)
  | some (_, cause) => ({ d with plan := d.plan.eraseP (·.1 = e) }, some cause)

def onStore {α : Type} (d : Drill) (answer : Store × α) : Drill × α :=
  ({ d with store := answer.1 }, answer.2)

def getMonitor (d : Drill) (key : Key) : Drill × Except StoreError Monitor :=
  match d.intercept .getMonitor with
  | (d, some cause) => (d, .error cause)
  | (d, none) =>
    match d.store.getMonitor key with
    | .error cause => (d, .error cause)
    | .ok m =>
      if d.touches = 0 then (d, .ok m)
      else ({ d with store := (d.store.apply m).1, touches := d.touches - 1 }, .ok m)

def updateStatus (d : Drill) (m : Monitor) : Drill × Except StoreError Monitor :=
  match d.intercept .updateStatus with
  | (d, some cause) => (d, .error cause)
  | (d, none) => d.onStore (d.store.updateStatus m)

def getPod (d : Drill) (key : Key) : Drill × Except StoreError Pod :=
  match d.intercept .getPod with
  | (d, some cause) => (d, .error cause)
  | (d, none) =>
    if d.staleReads = 0 then (d, d.store.getPod key)
    else ({ d with staleReads := d.staleReads - 1 }, .error (Store.noPod key))

def createPod (d : Drill) (p : Pod) : Drill × Except StoreError Pod :=
  match d.intercept .createPod with
  | (d, some cause) => (d, .error cause)
  | (d, none) => d.onStore (d.store.createPod p)

def list (d : Drill) : Drill × Except StoreError (List Object) :=
  match d.intercept .list with
  | (d, some cause) => (d, .error cause)
  | (d, none) => (d, d.store.list)

def publish (d : Drill) (e : Event) : Drill × Option String :=
  if d.failingPublishes = 0 then ({ d with store := d.store.publish e }, none)
  else ({ d with failingPublishes := d.failingPublishes - 1 }, some "event sink offline")

end Drill

end MonitorOperator
