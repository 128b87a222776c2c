import MonitorOperator.Cache
import MonitorOperator.Health
import MonitorOperator.Pass.Report
import MonitorOperator.Queue.WorkQueue

/-!
The operator: everything that passes and workers need besides the store.
-/

namespace MonitorOperator

structure Operator where
  cache : Cache
  queue : WorkQueue
  recorder : Recorder
  metrics : Metrics
  board : Health.Board
  template : Child.Template
  delays : Pass.Delays

namespace Operator

def component : String := "podmonitor-controller"

def queueName : String := "podmonitors"

def defaultWorkers : Nat := 2

/-- What an operator is made of. A store and a sink for events must be there; the rest has
defaults. -/
structure Parts (σ τ : Type) where
  store : Option σ := none
  sink : Option τ := none
  cache : Cache := {}
  board : Health.Board := {}
  backoff : Backoff.Bounds := {}
  window : Duration := Recorder.defaultWindow
  template : Child.Template := {}
  delays : Pass.Delays := {}

inductive Missing where
  | store
  | sink
deriving DecidableEq, Repr

def Missing.message : Missing → String
  | .store => "Resource store is required"
  | .sink => "Event sink is required"

variable {σ τ : Type}

def ofParts (p : Parts σ τ) : Operator where
  cache := p.cache
  queue := .new queueName p.backoff
  recorder := .new component p.window
  metrics := {}
  board := p.board
  template := p.template
  delays := p.delays

def assemble (p : Parts σ τ) : Except Missing (σ × τ × Operator) :=
  match p.store, p.sink with
  | none, _ => .error .store
  | some _, none => .error .sink
  | some store, some sink => .ok (store, sink, ofParts p)

end Operator

end MonitorOperator
