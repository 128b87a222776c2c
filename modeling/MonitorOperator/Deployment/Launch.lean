import MonitorOperator.Config.Arguments
import MonitorOperator.Deployment.Live
import MonitorOperator.Seed

/-!
From a configuration to a deployment that runs.
-/

namespace MonitorOperator

def Config.parts (c : Config) (s : Store) (time : Int64) : Operator.Parts Store Store where
  store := some s
  sink := some s
  board := .forOperator time
  backoff := c.backoff
  window := c.window
  template := c.template
  delays := c.delays

namespace Deployment

def version : String := "0.1.0"

def launch (c : Config) (s : Store) (stamp : Recorder.Stamp) (time : Int64) : Deployment :=
  let d : Deployment := {
    drill := { store := s }
    operator := Operator.ofParts (c.parts s time)
    stamp := stamp }
  let d := (d.log (.started version c.workers.toNat)).startRouter
  (d.startController c.workers.toNat).settle

def continueTo (d : Deployment) (now : Moment) (stamp : Recorder.Stamp) (time : Int64) : Deployment :=
  ({ d with wall := now, stamp := stamp }.setBoard (d.operator.board.tick time)).advanceTo now

def entriesFrom (d : Deployment) (n : Nat) : List Log.Entry :=
  (d.journal.toList.drop n).map (·.entry Operator.component)

end Deployment

end MonitorOperator
