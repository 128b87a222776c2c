import Mathlib.Logic.Function.Basic
import MonitorOperator.Deployment
import MonitorOperator.Proofs.Pass.Transitions
import MonitorOperator.Proofs.Run
import MonitorOperator.Proofs.Store.Ownership

/-! Any number of passes over one store, one call of one pass at a time. Between two calls of a pass
the others make theirs, and others write to the store or to the cache. -/

namespace MonitorOperator

/-- A pass on its way: what it said and was told so far, and what is left of it. It is overtaken if
the monitor that it has read is deleted. -/
structure Passes.Flight where
  said : Pass.Log := []
  rest : Pass.Steps (Except Error Pass.Action)
  overtaken : Bool := false

structure Passes where
  site : Deployment
  flights : Nat → Option Passes.Flight := fun _ => none
  /-- where a pass that was overtaken has created a pod -/
  late : Table Key Unit := ∅

inductive Passes.Move where
  | outside (op : Store.Operation)
  /-- the cache has other content now -/
  | cache (c : Cache)
  | start (pass : Nat) (text : String)
  /-- a pass makes its next call, or lands if there is none -/
  | call (pass : Nat)

namespace Passes

abbrev store (w : Passes) : Store := w.site.drill.store

def start {σ τ : Type} (s : Store) (stamp : Recorder.Stamp) (parts : Operator.Parts σ τ) : Passes :=
  { site := { drill := { store := s }, operator := .ofParts parts, stamp := stamp } }

namespace Flight

/-- A monitor is deleted while the pass is on its way. -/
def overtake (f : Flight) : Option Monitor → Flight
  | none => f
  | some gone =>
    { f with
      overtaken := f.overtaken || f.said.readings.any fun m =>
        m.key = gone.key ∧ m.metadata.uid = gone.metadata.uid }

def told (f : Flight) (c : Pass.Call) (reply : Pass.Reply c)
    (rest : Pass.Steps (Except Error Pass.Action)) : Flight :=
  { f with said := f.said ++ [⟨c, reply⟩], rest := rest }

def note (f : Flight) (late : Table Key Unit) : (c : Pass.Call) → Pass.Reply c → Table Key Unit
  | .createPod p, .ok _ => if f.overtaken then late.insert p.key () else late.erase p.key
  | _, _ => late

end Flight

def set (w : Passes) (pass : Nat) (f : Option Flight) : Passes :=
  { w with flights := Function.update w.flights pass f }

def write (w : Passes) (op : Store.Operation) : Passes :=
  { w with
    site := { w.site with drill := { w.site.drill with store := op.run w.store } }
    flights := fun pass => (w.flights pass).map (·.overtake (op.deletes? w.store)) }

def answer (w : Passes) (pass : Nat) (f : Flight) (c : Pass.Call)
    (next : Pass.Reply c → Pass.Steps (Except Error Pass.Action)) : Passes :=
  let (site, reply) := Deployment.replyToPass c w.site
  { w with site := site, late := f.note w.late c reply }.set pass
    (some (f.told c reply (next reply)))

def step? (w : Passes) : Move → Option Passes
  | .outside op => some (w.write op)
  | .cache c => some { w with site := w.site.setCache c }
  | .start pass text =>
    match w.flights pass with
    | some _ => none
    | none =>
      let rest := Pass.sync w.site.operator.delays w.site.operator.template text
      some (w.set pass (some { rest := rest }))
  | .call pass =>
    match w.flights pass with
    | none => none
    | some f =>
      match f.rest with
      | .finish _ => some (w.set pass none)
      | .call c next => some (w.answer pass f c next)

inductive Stepped (w : Passes) : Move → Passes → Prop where
  | wrote (op : Store.Operation) : Stepped w (.outside op) (w.write op)
  | cached (c : Cache) : Stepped w (.cache c) { w with site := w.site.setCache c }
  | started (pass : Nat) (text : String) (free : w.flights pass = none) :
      Stepped w (.start pass text) (w.set pass (some {
        rest := Pass.sync w.site.operator.delays w.site.operator.template text }))
  | landed (pass : Nat) (f : Flight) (flies : w.flights pass = some f)
      (result : Except Error Pass.Action) (ended : f.rest = .finish result) :
      Stepped w (.call pass) (w.set pass none)
  | called (pass : Nat) (f : Flight) (flies : w.flights pass = some f) (c : Pass.Call)
      (next : Pass.Reply c → Pass.Steps (Except Error Pass.Action)) (busy : f.rest = .call c next) :
      Stepped w (.call pass) (w.answer pass f c next)

theorem stepped {w w' : Passes} {move : Move} (step : w.step? move = some w') :
    Stepped w move w' := by
  cases move with
  | outside op => cases Option.some.inj step; exact .wrote op
  | cache c => cases Option.some.inj step; exact .cached c
  | start pass text =>
    simp only [step?] at step
    split at step
    · contradiction
    · rename_i free
      cases Option.some.inj step
      exact .started pass text free
  | call pass =>
    simp only [step?] at step
    split at step
    · contradiction
    · rename_i f flies
      split at step
      · rename_i result ended
        cases Option.some.inj step
        exact .landed pass f flies result ended
      · rename_i c next busy
        cases Option.some.inj step
        exact .called pass f flies c next busy

theorem set_eq_some {w : Passes} {pass other : Nat} {new : Option Flight} {f : Flight} :
    (w.set pass new).flights other = some f ↔
      other = pass ∧ new = some f ∨ other ≠ pass ∧ w.flights other = some f := by
  simp only [set, Function.update_apply]
  split <;> simp [*]

end Passes

end MonitorOperator
