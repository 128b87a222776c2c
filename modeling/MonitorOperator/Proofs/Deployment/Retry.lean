import Mathlib.Data.List.Induction
import MonitorOperator.Proofs.Cluster.Key
import MonitorOperator.Proofs.Deployment.Scene
import MonitorOperator.Proofs.Store.Ownership

/-! Passes some of whose calls fail, and the pass after them. A failing pass may leave a child
behind that it created before it could write the status, and nothing else. The pass that retries
takes this child for its own. Main statement: it ends as if the failing passes had never been
made. -/

namespace MonitorOperator

namespace Pass

variable {fault : StoreError → Prop} {d : Delays} {t : Child.Template} {target : Option Pod}
  {log : Log} {u v w : Scene} {r : Except Error Action}

/-- What failing passes leave of a scene: all of it, and at most the child that the pass creates. -/
structure Prepared (d : Delays) (t : Child.Template) (target : Option Pod) (v w : Scene) :
    Prop where
  unavailable : w.unavailable = v.unavailable
  monitor : w.monitor = v.monitor
  child : w.child = v.child ∨ v.child = none ∧ ∃ m pod, v.monitor = some m ∧
    (verdict d m target none).creates = true ∧ w.child = some pod ∧ pod.bare = Child.build m t

theorem Prepared.refl (v : Scene) : Prepared d t target v v := ⟨rfl, rfl, .inl rfl⟩

theorem Outcome.failed (h : Outcome fault d t target v log r w)
    (told : ∃ e ∈ log.errors, e.isNotFound = false) :
    ∃ e, r = .error (.store e) ∧ Prepared d t target v w := by
  cases h with
  | struck e faulty => exact ⟨e, rfl, .refl v⟩
  | halfway e faulty up m stored creates pod built =>
    have absent := absent_of_creates creates
    rw [absent] at creates
    exact ⟨e, rfl, rfl, rfl, .inr ⟨absent, m, pod, stored, creates, rfl, built⟩⟩
  | settled w up same kept idle calm =>
    obtain ⟨e, heard, other⟩ := told
    rw [calm e heard] at other
    contradiction

theorem Prepared.trans (h : Prepared d t target u v) (h' : Prepared d t target v w) :
    Prepared d t target u w where
  unavailable := h'.unavailable.trans h.unavailable
  monitor := h'.monitor.trans h.monitor
  child := by
    rcases h'.child with same | ⟨absent, m, pod, stored, creates, child, built⟩
    · rw [same]
      exact h.child
    -- A child that was created first leaves no room for a second one.
    · rcases h.child with same | ⟨_, _, _, _, _, present, _⟩
      · exact .inr ⟨same ▸ absent, m, pod, h.monitor ▸ stored, creates, child, built⟩
      · rw [absent] at present
        contradiction

theorem Prepared.pass (h : Prepared d t target v w) (up : v.unavailable = false) :
    (w.pass d t target).1.bare = (v.pass d t target).1.bare ∧
      (w.pass d t target).2 = (v.pass d t target).2 := by
  have clear := h.unavailable.trans up
  rcases h.child with same | ⟨absent, m, pod, stored, creates, present, built⟩
  · obtain rfl : w = v := Scene.ext h.unavailable h.monitor same
    exact ⟨rfl, rfl⟩
  · have verdict := verdict_created creates built
    rw [Scene.pass_stored up stored, Scene.pass_stored clear (h.monitor.trans stored), absent,
      present, verdict]
    simp [Scene.bare, Child.build_bare, creates, built, up, clear]

theorem Prepared.restored (h : Prepared d t target v w) :
    Prepared d t target { v with unavailable := false } { w with unavailable := false } :=
  ⟨rfl, h.monitor, h.child⟩

end Pass

namespace Deployment

open Pass

/-- A pass was told that a call of the store has failed, for no reason that lies in the objects. -/
def Disturbed (log : Log) : Prop := ∃ fault : Fault, fault.error ∈ log.errors

def tried (d : Deployment) (text : String) (passes : List (Nat → Option Fault)) : Deployment :=
  passes.foldl (fun d faults => (d.syncOver faults text).1) d

def restored (d : Deployment) : Deployment :=
  { d with drill := { d.drill with store := d.drill.store.setUnavailable false } }

variable {d : Deployment} {key : Key} {text : String}

theorem tried_snoc (d : Deployment) (text : String) (passes : List (Nat → Option Fault))
    (faults : Nat → Option Fault) :
    d.tried text (passes ++ [faults]) = ((d.tried text passes).syncOver faults text).1 :=
  List.foldl_append ..

theorem disturbed_outcome {faults : Nat → Option Fault} (parsed : Key.parse text = .ok key)
    (plain : d.Plain) (keyed : d.drill.store.Keyed) (failing : Disturbed (d.logOver faults text)) :
    (∃ e, (d.syncOver faults text).2 = .error (.store e)) ∧
      Prepared d.operator.delays d.operator.template (d.operator.cache.pods.get? key)
        (d.drill.store.scene key) ((d.syncOver faults text).1.drill.store.scene key) ∧
      Served key d (d.syncOver faults text).1 := by
  obtain ⟨outcome, served⟩ := syncOver_outcome faults parsed plain keyed
  obtain ⟨fault, told⟩ := failing
  have other : fault.error.isNotFound = false := by cases fault <;> rfl
  obtain ⟨e, result, prepared⟩ := outcome.failed ⟨fault.error, told, other⟩
  exact ⟨⟨e, result⟩, prepared, served⟩

/-- Whatever number of passes fail, the scene is prepared. -/
theorem tried_prepared (parsed : Key.parse text = .ok key) (plain : d.Plain)
    (keyed : d.drill.store.Keyed) (passes : List (Nat → Option Fault))
    (failing : ∀ before faults after, passes = before ++ faults :: after →
      Disturbed ((d.tried text before).logOver faults text)) :
    Prepared d.operator.delays d.operator.template (d.operator.cache.pods.get? key)
        (d.drill.store.scene key) ((d.tried text passes).drill.store.scene key) ∧
      Served key d (d.tried text passes) := by
  -- By the last pass: it meets what the ones before have left, with the same settings and cache.
  induction passes using List.reverseRecOn with
  | nil => exact ⟨.refl _, .refl plain keyed⟩
  | append_singleton before faults ih =>
    obtain ⟨prepared, served⟩ := ih fun earlier other since split =>
      failing earlier other (since ++ [faults]) (by simp [split])
    obtain ⟨_, further, next⟩ :=
      disturbed_outcome parsed served.plain served.keyed (failing before faults [] rfl)
    obtain ⟨_, _, operator⟩ := served.operator
    rw [operator] at further
    rw [tried_snoc]
    exact ⟨prepared.trans further, served.trans next⟩

theorem restored_plain (plain : d.Plain) : d.restored.Plain := by
  rw [Plain, restored]
  rw [plain]

theorem retry_reached {e : Deployment} (parsed : Key.parse text = .ok key) (served : Served key d e)
    (prepared : Prepared d.operator.delays d.operator.template (d.operator.cache.pods.get? key)
      (d.drill.store.scene key) (e.drill.store.scene key)) :
    let outlook := d.foresee key { d.drill.store.scene key with unavailable := false }
    (e.restored.sync text).2 = outlook.2 ∧
      d.drill.store.Reached [key] (fun _ => outlook.1.bare) (e.restored.sync text).1.drill.store ∧
      ∃ n ≤ 1, (e.restored.sync text).1.drill.store.births = d.drill.store.births + n ∧
        (e.restored.sync text).1.drill.store.podsCreated =
          d.drill.store.podsCreated + UInt64.ofNat n := by
  intro outlook
  obtain ⟨result, scene, kept, last⟩ := sync_undisturbed parsed (restored_plain served.plain)
    ⟨served.keyed.monitors, served.keyed.pods⟩
  obtain ⟨same, action⟩ := prepared.restored.pass rfl
  have view : e.restored.foresee = d.foresee := served.foresee
  rw [view] at result scene
  refine ⟨result.trans action, ⟨fun other apart => ?_, fun other apart => ?_, ?_, ?_⟩, ?_⟩
  · have ne : other ≠ key := by simpa using apart
    exact (last.beside.monitors other ne).trans (served.beside.monitors other ne)
  · have ne : other ≠ key.child := by simpa using apart
    exact (last.beside.pods other ne).trans (served.beside.pods other ne)
  · intro other member
    obtain rfl := List.mem_singleton.mp member
    exact scene.trans same
  · intro other member p found
    obtain rfl := List.mem_singleton.mp member
    rcases prepared.child with still | ⟨absent, _⟩
    · exact kept p (still.trans found)
    · cases absent.symm.trans found
  · have retried : e.drill.store.AddsOne key _ := last.beside.created
    obtain ⟨n, births, counted, few⟩ := served.beside.created.trans retried
    have room : d.drill.store.vacancies key ≤ 1 := by
      unfold Store.vacancies
      split <;> omega
    exact ⟨n, by omega, births, counted⟩

/-- Failing passes are safe to retry. Whatever state the store is in and whatever the cache holds,
if each of some passes over a key is told that a call was in vain, each ends with an error that is
retried and leaves the monitor as it is, version included. Once nothing fails any more, the next
pass ends with the action and in the objects of a pass from the start, and all these passes have
created one pod at most, and counted it. -/
theorem failed_passes_retry (d : Deployment) (retention : Nat) (ops : List Store.Operation)
    (reached : d.drill = { store := (Store.empty retention).after ops }) (key : Key)
    (formed : key.WellFormed) (passes : List (Nat → Option Fault))
    (failing : ∀ before faults after, passes = before ++ faults :: after →
      Disturbed ((d.tried key.text before).logOver faults key.text)) :
    (∀ before faults after, passes = before ++ faults :: after →
      (∃ cause, ((d.tried key.text before).syncOver faults key.text).2 = .error cause ∧
        cause.isRetryable = true) ∧
      (d.tried key.text (before ++ [faults])).drill.store.monitors.get? key =
        d.drill.store.monitors.get? key) ∧
    ∃ action, ((d.tried key.text passes).restored.sync key.text).2 = .ok action ∧
      (d.restored.sync key.text).2 = .ok action ∧
      d.drill.store.Agree (d.restored.sync key.text).1.drill.store
        ((d.tried key.text passes).restored.sync key.text).1.drill.store ∧
      ∃ n ≤ 1, ((d.tried key.text passes).restored.sync key.text).1.drill.store.births =
          d.drill.store.births + n ∧
        ((d.tried key.text passes).restored.sync key.text).1.drill.store.podsCreated =
          d.drill.store.podsCreated + UInt64.ofNat n := by
  have parsed := Key.parse_text formed
  have plain : d.Plain := by rw [Plain, reached]
  have keyed : d.drill.store.Keyed := by
    rw [reached]
    exact (Store.Keyed.empty retention).after ops
  constructor
  · rintro before faults after rfl
    have sooner (more : List (Nat → Option Fault)) (more' : List (Nat → Option Fault))
        (all : before ++ faults :: after = more ++ more') := tried_prepared parsed plain keyed more
      fun earlier other since split => failing earlier other (since ++ more') (by simp [all, split])
    obtain ⟨_, served⟩ := sooner before (faults :: after) rfl
    obtain ⟨⟨e, result⟩, _⟩ := disturbed_outcome parsed served.plain served.keyed
      (failing before faults after rfl)
    obtain ⟨prepared, _⟩ := sooner (before ++ [faults]) after (by simp)
    exact ⟨⟨.store e, result, rfl⟩, prepared.monitor⟩
  · obtain ⟨prepared, served⟩ := tried_prepared parsed plain keyed passes failing
    obtain ⟨retried, after, few⟩ := retry_reached parsed served prepared
    obtain ⟨fresh, alone, _⟩ := retry_reached parsed (.refl plain keyed) (.refl _)
    obtain ⟨action, ok⟩ : ∃ action, (d.foresee key
        { d.drill.store.scene key with unavailable := false }).2 = .ok action := Scene.pass_ok rfl
    exact ⟨action, retried.trans ok, fresh.trans ok, alone.agree after, few⟩

def Fault.only (fault : Fault) (number : Nat) : Nat → Option Fault :=
  fun n => if n = number then some fault else none

/-- A pass creates the child and cannot write the status, another one does not even reach the
monitor, and the third one takes the child that is there. -/
theorem failed_passes_retry_with_child :
    let target : Pod := { metadata := { ns := "a", name := "x" } }
    let job : Monitor := { metadata := target.metadata, status := .plain .pending }
    let d : Deployment :=
      { drill := { store := (Store.empty 10).after [.apply job] }
        operator := .ofParts ({ cache := { pods := Table.ofList [(⟨"a", "x"⟩, target)] } } :
          Operator.Parts Unit Unit)
        stamp := ⟨"0", ""⟩ }
    let passes := [(Fault.conflict monitorKind "a/x" 1 2).only 5, (Fault.unavailable "gone").only 0]
    let retried := (d.tried "a/x" passes).restored.sync "a/x"
    (d.tried "a/x" passes).drill.store.podsCreated = 1 ∧
    ((d.tried "a/x" passes).drill.store.monitors.get? ⟨"a", "x"⟩).map (·.status.phase) =
      some .pending ∧
    (∃ action, retried.2 = .ok action ∧ (d.restored.sync "a/x").2 = .ok action ∧
      d.drill.store.Agree (d.restored.sync "a/x").1.drill.store retried.1.drill.store ∧
      ∃ n ≤ 1, retried.1.drill.store.births = d.drill.store.births + n ∧
        retried.1.drill.store.podsCreated = d.drill.store.podsCreated + UInt64.ofNat n) ∧
    (retried.1.drill.store.monitors.get? ⟨"a", "x"⟩).map (·.status.phase) = some .running := by
  refine ⟨rfl, rfl, (failed_passes_retry _ 10 [.apply _] rfl ⟨"a", "x"⟩ (by decide) _ ?_).2, rfl⟩
  intro before faults after split
  rcases before with _ | ⟨first, _ | ⟨second, before⟩⟩
  · cases split
    exact ⟨.conflict monitorKind "a/x" 1 2, .tail _ (.head _)⟩
  · cases split
    exact ⟨.unavailable "gone", .head _⟩
  · simp at split

end Deployment

end MonitorOperator
