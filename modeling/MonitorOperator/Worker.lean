import MonitorOperator.Agenda
import MonitorOperator.Log
import MonitorOperator.Metrics
import MonitorOperator.Pass

/-!
The work on one key that a worker holds: a pass, what follows from its result, and the release of
the key.
-/

namespace MonitorOperator.Worker

inductive Call where
  | pass (c : Pass.Call)
  | clock
  | started
  | finished
  | forget (key : String)
  | addAfter (key : String) (delay : Duration)
  /-- counts a failure of a key and adds it after the delay of the failure -/
  | addRateLimited (key : String)
  | attempts (key : String)
  | countRetry
  | observe (elapsed : Duration) (outcome : Outcome)
  | storeWell
  | storeFailing (message : String)
  | log (n : Log.Notice)
  | done (key : String)
  | showDepth

abbrev Reply : Call → Type
  | .pass c => Pass.Reply c
  | .clock => Moment
  | .addRateLimited _ => Duration
  | .attempts _ => Nat
  | _ => Unit

abbrev Steps (α : Type) := Program Call Reply α

def tell (c : Call) : Steps Unit := .call c (fun _ => .finish ())

def ofPass {α : Type} (p : Pass.Steps α) : Steps α := p.embed Call.pass (fun _ r => r)

def succeed (key : String) (action : Pass.Action) : Steps Outcome := do
  tell (.forget key)
  tell .storeWell
  match action with
  | .requeue delay => tell (.addAfter key delay)
  | .awaitChange => pure ()
  return .success

def retry (key : String) (cause : Error) : Steps Outcome := do
  let delay ← Program.ask (.addRateLimited key)
  tell .countRetry
  let attempts ← Program.ask (.attempts key)
  tell (.log (.syncFailed key cause.message delay attempts))
  match cause with
  | .store _ => tell (.storeFailing cause.message)
  | _ => pure ()
  return .retry

def giveUp (key : String) (cause : Error) : Steps Outcome := do
  tell (.forget key)
  tell (.log (.keyDropped key cause.message))
  return .dropped

def follow (key : String) : Except Error Pass.Action → Steps Outcome
  | .ok action => succeed key action
  | .error cause => if cause.isRetryable then retry key cause else giveUp key cause

def elapsed (start stop : Moment) : Duration := (Duration.ofNanos? (stop - start)).getD .zero

def serve (d : Pass.Delays) (t : Child.Template) (key : String) : Steps Unit := do
  tell .started
  let start ← Program.ask .clock
  let result ← ofPass (Pass.sync d t key)
  let outcome ← follow key result
  let stop ← Program.ask .clock
  tell (.observe (elapsed start stop) outcome)
  tell .finished
  tell (.done key)
  tell .showDepth

end MonitorOperator.Worker
