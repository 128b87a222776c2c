import MonitorOperator.Proofs.System.Alarms
import MonitorOperator.Proofs.System.Sound
import MonitorOperator.Proofs.Worker.Duty

/-! A ledger beside the system. It knows what each worker does next and how the pass on its key
ended, for which moment each alarm was set that is between its halves, and what came to pass for
each key so far. -/

namespace MonitorOperator

namespace System

/-- What came to pass for a key. -/
inductive Entry where
  | delivered (worker : Nat) (key : String)
  | released (worker : Nat) (key : String)
  /-- a pass ended, and what follows on it has begun -/
  | ended (key : String) (result : Except Error Pass.Action)
  /-- the result of a pass was reported as the health of the store -/
  | told (result : Except Error Pass.Action)
  /-- the router handled the deletion of a monitor -/
  | deleted (key : String)
deriving DecidableEq

/-- A key in the hand of a worker, and the work on it: how many calls it took so far, how the pass
ended, when the key was to be added again and with which delay, whether the result was reported as
the health of the store, and whether the worker has fallen. -/
structure Task where
  key : String
  duty : Duty
  calls : Nat := 0
  result : Option (Except Error Pass.Action) := none
  asked : Option (Moment × Duration) := none
  told : Bool := false
  fallen : Bool := false

namespace Task

def rest (task : Task) : Worker.Steps Unit := task.duty.rest task.key

def held (task : Task) : Option String :=
  match task.duty with
  | .showing => none
  | .ended => none
  | _ => some task.key

def hand : Option Task → Hand
  | none => .free
  | some task => if task.fallen then .fallen task.held else .working task.held task.rest

def next (task : Task) (site : Deployment) : Task :=
  let later := { task with duty := task.duty.next task.key site, calls := task.calls + 1 }
  match task.duty with
  | .passing _ (.finish (.error cause)) =>
    { later with
      result := some (.error cause)
      asked :=
        if cause.isRetryable then some (site.now, (site.addRateLimited task.key).2) else none }
  | .passing _ (.finish result) => { later with result := some result }
  | .renewing _ delay => { later with asked := some (site.now, delay) }
  | .praising .. => { later with told := true }
  | .blaming .. => { later with told := true }
  | _ => later

/-- The worker falls at the next call. What it was to ask for was not asked for. -/
def fall (task : Task) (site : Deployment) : Task :=
  { task with result := (task.next site).result, fallen := true }

def entry? (worker : Nat) (task : Task) : Option Entry :=
  match task.duty with
  | .passing _ (.finish result) => some (.ended task.key result)
  | .praising .. => task.result.map .told
  | .blaming .. => task.result.map .told
  | .releasing => some (.released worker task.key)
  | _ => none

end Task

structure Ledger where
  system : System
  tasks : Nat → Option Task := fun _ => none
  rung : List (String × Moment) := []
  /-- the last one first -/
  history : List Entry := []

namespace Ledger

def start {σ τ : Type} (retention : Nat) (stamp : Recorder.Stamp) (parts : Operator.Parts σ τ) :
    Ledger := { system := System.start retention stamp parts }

abbrev site (l : Ledger) : Deployment := l.system.site

abbrev queue (l : Ledger) : WorkQueue := l.system.queue

abbrev board (l : Ledger) : Health.Board := l.system.site.operator.board

def assign (l : Ledger) (worker : Nat) (task : Option Task) : Ledger :=
  { l with tasks := Function.update l.tasks worker task }

def enter (l : Ledger) (entry : Option Entry) : Ledger :=
  { l with history := entry.toList ++ l.history }

def noteTake (l : Ledger) (worker : Nat) : Ledger :=
  match l.queue.take? with
  | none => l
  | some (key, _) =>
    let duty := Duty.opening l.site.operator.delays l.site.operator.template
    (l.assign worker (some { key := key, duty := duty })).enter (some (.delivered worker key))

def noteWork (l : Ledger) (worker : Nat) : Ledger :=
  match l.tasks worker with
  | none => l
  | some task =>
    match task.rest with
    | .finish _ => l.assign worker none
    | .call c _ =>
      let later := if Deployment.fails c l.site then task.fall l.site else task.next l.site
      (l.assign worker (some later)).enter (task.entry? worker)

def noteRing (l : Ledger) (due : Moment) : Alarm → Ledger
  | .relist _ => l
  | .add key =>
    if l.queue.waiting.get? key = some due then { l with rung := (key, due) :: l.rung } else l

def noteRoute (l : Ledger) : Ledger :=
  match l.system.stage with
  | .waking (.forget key) _ _ => l.enter (some (.deleted key.text))
  | _ => l

def note (l : Ledger) : Move → Ledger
  | .take worker => l.noteTake worker
  | .work worker => l.noteWork worker
  | .ring due alarm => l.noteRing due alarm
  | .complete key => { l with rung := l.rung.eraseP (·.1 == key) }
  | .route => l.noteRoute
  | _ => l

def step? (l : Ledger) (move : Move) : Option Ledger :=
  (l.system.step? move).map fun t => { l.note move with system := t }

theorem step?_eq_some {l l' : Ledger} {move : Move} :
    l.step? move = some l' ↔
      ∃ t, l.system.step? move = some t ∧ { l.note move with system := t } = l' :=
  Option.map_eq_some_iff

theorem exists_of_run {moves : List Move} {l : Ledger} {s : System}
    (run : after? System.step? l.system moves = some s) :
    ∃ l', after? step? l moves = some l' ∧ l'.system = s := by
  induction moves generalizing l with
  | nil => exact ⟨l, rfl, Option.some.inj run⟩
  | cons move moves ih =>
    rw [after?_cons, Option.bind_eq_some_iff] at run
    obtain ⟨t, step, rest⟩ := run
    obtain ⟨l', run', same⟩ := ih (l := { l.note move with system := t }) rest
    refine ⟨l', ?_, same⟩
    rw [after?_cons, step?, step]
    exact run'

def hand (l : Ledger) (worker : Nat) : Hand := Task.hand (l.tasks worker)

theorem hand_assign (l : Ledger) (worker : Nat) (task : Option Task) :
    (l.assign worker task).hand = Function.update l.hand worker (Task.hand task) :=
  Function.comp_update Task.hand l.tasks worker task

end Ledger

end System

end MonitorOperator
