import MonitorOperator.Proofs.Pass.Transitions
import MonitorOperator.Store

/-! The part of a store that a pass over a key can reach: the monitor, and the pod that has the name
of its child. What an undisturbed pass makes of it is a function, up to versions and to the uid of
the child that it creates. Main statement: a pass is cut short by a failing call, in which case it
leaves the monitor alone, or it ends as this function says. -/

namespace MonitorOperator

def Monitor.unversioned (m : Monitor) : Monitor :=
  { m with metadata := { m.metadata with version := 0 } }

def Pod.bare (p : Pod) : Pod := { p with metadata := { p.metadata with uid := "", version := 0 } }

def Key.child (key : Key) : Key := ⟨key.ns, Child.namePrefix ++ key.name⟩

theorem Key.child_injective : Function.Injective Key.child := by
  intro ⟨ns, name⟩ ⟨ns', name'⟩ same
  simpa [Key.child] using same

theorem Child.build_bare (m : Monitor) (t : Child.Template) :
    (Child.build m t).bare = Child.build m t := rfl

@[simp] theorem Child.controls_build (m : Monitor) (t : Child.Template) :
    m.controls (Child.build m t).metadata = true := by
  simp [Monitor.controls, Child.build, Child.key, Metadata.controller?, Monitor.ownerRef]

namespace Pass

/-- What a pass over a key can reach. -/
@[ext]
structure Scene where
  unavailable : Bool
  monitor : Option Monitor
  child : Option Pod

def Scene.bare (v : Scene) : Scene :=
  { v with monitor := v.monitor.map Monitor.unversioned, child := v.child.map Pod.bare }

structure Verdict where
  status : MonitorStatus
  action : Action
  creates : Bool := false

section

variable (d : Delays) (m : Monitor)

def taken (pod : Pod) : Verdict where
  status := .failure (Error.childNotOwned pod.key.text m.key.text).message
  action := .requeue d.failed

/-- The verdict on a monitor, given the monitored pod in the cache and the pod that has the name of
the child. -/
def verdict (target child : Option Pod) : Verdict :=
  match m.status.phase with
  | .unset => { status := .plain .pending, action := .awaitChange }
  | .pending => start
  | .failed => start
  | .running =>
    match child with
    | none => { status := m.status, action := .requeue d.resync, creates := true }
    | some pod =>
      if m.controls pod.metadata then
        if pod.status.phase.isTerminal then { status := .plain .completed, action := .awaitChange }
        else { status := m.status, action := .requeue d.resync }
      else taken d m pod
  | .completed => { status := m.status, action := .awaitChange }
  | .unrecognized _ => { status := m.status, action := .requeue d.unrecognized }
where
  start : Verdict :=
    match target with
    | none =>
      { status := .failure ("monitored pod " ++ m.key.text ++ " not found")
        action := .requeue d.failed }
    | some _ =>
      match child with
      | none => { status := .plain .running, action := .requeue d.resync, creates := true }
      | some pod =>
        if m.controls pod.metadata then { status := .plain .running, action := .requeue d.resync }
        else taken d m pod

end

variable {d : Delays} {t : Child.Template} {target child : Option Pod} {m : Monitor} {log : Log}

theorem verdict_start (phase : m.status.phase = .pending ∨ m.status.phase = .failed) :
    verdict d m target child = verdict.start d m target child := by
  rcases phase with phase | phase <;> simp [verdict, phase]

theorem absent_of_creates (creates : (verdict d m target child).creates = true) : child = none := by
  cases child with
  | none => rfl
  | some pod =>
    simp only [verdict, verdict.start, taken] at creates
    grind

theorem verdict_created {q : Pod} (creates : (verdict d m target none).creates = true)
    (built : q.bare = Child.build m t) :
    verdict d m target (some q) = { verdict d m target none with creates := false } := by
  -- It belongs to the monitor and has not ended.
  have ours : m.controls q.metadata = true := by
    rw [← Child.controls_build m t, ← built]
    rfl
  have going : q.status.phase.isTerminal = false := by
    change q.bare.status.phase.isTerminal = false
    rw [built]
    rfl
  simp only [verdict, verdict.start, ours, going] at creates ⊢
  grind

namespace Scene

variable (d t target)

def pass (v : Scene) : Scene × Except Error Action :=
  if v.unavailable then (v, .error (.store Store.outage))
  else
    match v.monitor with
    | none => (v, .ok .awaitChange)
    | some m =>
      let next := verdict d m target v.child
      ({ v with
          monitor := some { m with status := next.status }
          child := if next.creates then some (Child.build m t) else v.child }, .ok next.action)

/-- Versions and the uid of the child do not matter to a pass. -/
theorem pass_bare (v : Scene) :
    v.bare.pass d t target = ((v.pass d t target).1.bare, (v.pass d t target).2) := by
  obtain ⟨unavailable, monitor, child⟩ := v
  have same (m : Monitor) : verdict d m.unversioned target (child.map Pod.bare) =
      verdict d m target child := by cases child <;> rfl
  cases unavailable with
  | true => rfl
  | false =>
    cases monitor with
    | none => rfl
    | some m =>
      simp only [pass, bare, Option.map_some, same]
      cases (verdict d m target child).creates <;> rfl

variable {d t target}

theorem pass_congr {v w : Scene} (same : v.bare = w.bare) :
    (v.pass d t target).1.bare = (w.pass d t target).1.bare ∧
      (v.pass d t target).2 = (w.pass d t target).2 := by
  have passes := congrArg (pass d t target) same
  rw [pass_bare, pass_bare] at passes
  exact Prod.mk.inj passes

theorem pass_ok {v : Scene} (up : v.unavailable = false) :
    ∃ action, (v.pass d t target).2 = .ok action := by
  cases found : v.monitor with
  | none => exact ⟨.awaitChange, by simp [pass, up, found]⟩
  | some m => exact ⟨(verdict d m target v.child).action, by simp [pass, up, found]⟩

end Scene

def Log.errors (log : Log) : List StoreError :=
  log.filterMap fun
    | ⟨.getMonitor _, .error e⟩ => some e
    | ⟨.updateStatus _, .error e⟩ => some e
    | ⟨.getPod _, .error e⟩ => some e
    | ⟨.createPod _, .error e⟩ => some e
    | _ => none

section

variable (fault : StoreError → Prop) (target : Option Pod)

/-- A reply to a call, and the scene after it. Calls may fail with a fault, which changes nothing;
otherwise the reply is what the scene makes it. -/
def Scene.Answers (v : Scene) : (c : Call) → Reply c → Scene → Prop
  | .getMonitor _, .ok m, v' => v.unavailable = false ∧ v.monitor = some m ∧ v' = v
  | .getMonitor _, .error e, v' =>
    (fault e ∨ v.unavailable = false ∧ v.monitor = none ∧ e.isNotFound = true) ∧ v' = v
  | .updateStatus u, .ok _, v' =>
    ∃ m version, v.monitor = some m ∧
      v' = { v with monitor := some { m with
        status := u.status
        metadata := { m.metadata with version := version } } }
  | .updateStatus u, .error e, v' =>
    (fault e ∨ ∀ m, v.monitor = some m → m.metadata.version ≠ u.metadata.version) ∧ v' = v
  | .getPod _, .ok p, v' => v.child = some p ∧ v' = v
  | .getPod _, .error e, v' => (fault e ∨ v.child = none ∧ e.isNotFound = true) ∧ v' = v
  | .createPod p, .ok q, v' => v.child = none ∧ q.bare = p.bare ∧ v' = { v with child := some q }
  | .createPod _, .error e, v' => (fault e ∨ v.child ≠ none) ∧ v' = v
  | .cachedPod _, reply, v' => reply = target ∧ v' = v
  | .report _, _, v' => v' = v

def Scene.Through : Log → Scene → Scene → Prop
  | [], v, v' => v' = v
  | ⟨c, reply⟩ :: log, v, v' => ∃ u, v.Answers fault target c reply u ∧ Through log u v'

end

variable {fault : StoreError → Prop} {more : Log} {v v' : Scene}

theorem Scene.Answers.mono {fault' : StoreError → Prop} {c : Call} {reply : Reply c}
    (h : v.Answers fault target c reply v') (sub : ∀ e, fault e → fault' e) :
    v.Answers fault' target c reply v' := by
  cases c with
  | cachedPod key => exact h
  | report r => exact h
  | _ =>
    cases reply with
    | ok value => exact h
    | error e => exact ⟨h.1.imp_left (sub e), h.2⟩

theorem Scene.through_append :
    Scene.Through fault target (log ++ more) v v' ↔
      ∃ u, Scene.Through fault target log v u ∧ Scene.Through fault target more u v' := by
  induction log generalizing v with
  | nil => simp [Scene.Through]
  | cons x log ih =>
    simp only [List.cons_append, Scene.Through, ih]
    grind

theorem Scene.through_snoc {c : Call} {reply : Reply c} :
    Scene.Through fault target (log ++ [⟨c, reply⟩]) v v' ↔
      ∃ u, Scene.Through fault target log v u ∧ u.Answers fault target c reply v' := by
  simp [Scene.through_append, Scene.Through]

inductive Looked.Result (fault : StoreError → Prop) (t : Child.Template) (m : Monitor) (v : Scene)
    (log : Log) : Except Error Found → Scene → Prop where
  | struck (e : StoreError) (faulty : fault e) : Result fault t m v log (.error (.store e)) v
  | there (pod : Pod) (found : v.child = some pod) (creations : log.creations = [])
      (calm : log.errors = []) : Result fault t m v log (owned m pod) v
  | created (pod : Pod) (absent : v.child = none) (built : pod.bare = Child.build m t)
      (calm : ∀ e ∈ log.errors, e.isNotFound = true) :
      Result fault t m v log (.ok .created) { v with child := some pod }

/-- Faults are no answers that a pass makes something of. -/
def Faulty (fault : StoreError → Prop) : Prop :=
  ∀ e, fault e → e.isNotFound = false ∧ e.isAlreadyExists = false

theorem Faulty.not_missing (faulty : Faulty fault) {e : StoreError}
    (missing : e.isNotFound = true) : ¬ fault e := fun struck => by simp [(faulty e struck).1] at missing

theorem Faulty.not_second (faulty : Faulty fault) {e : StoreError}
    (second : e.isAlreadyExists = true) : ¬ fault e := fun struck => by
  simp [(faulty e struck).2] at second

theorem Faulty.of_refused (faulty : Faulty fault) {k : Key} {p : Pod} {e late : StoreError}
    (missing : e.isNotFound = true)
    (through : Scene.Through fault target
      (⟨.getPod k, .error e⟩ :: ⟨.createPod p, .error late⟩ :: log) v v') :
    fault late ∧ Scene.Through fault target log v v' := by
  obtain ⟨_, ⟨first, rfl⟩, _, ⟨second, rfl⟩, rest⟩ := through
  have absent := (first.resolve_left (faulty.not_missing missing)).1
  exact ⟨second.resolve_right fun present => present absent, rest⟩

theorem Looked.result {r : Except Error Found} (faulty : Faulty fault) (looked : Looked t m log r)
    (through : Scene.Through fault target log v v') : Looked.Result fault t m v log r v' := by
  cases looked with
  | there pod =>
    obtain ⟨_, ⟨found, rfl⟩, rfl⟩ := through
    exact .there pod found rfl rfl
  | unread e other =>
    obtain ⟨_, ⟨struck | ⟨_, missing⟩, rfl⟩, rfl⟩ := through
    · exact .struck e struck
    · simp [other] at missing
  | created e missing pod =>
    obtain ⟨_, ⟨_, rfl⟩, _, ⟨absent, built, rfl⟩, _, rfl, rfl⟩ := through
    exact .created pod absent built (by simpa [Log.errors] using missing)
  | refused e missing cause other =>
    obtain ⟨struck, rfl⟩ := faulty.of_refused missing through
    exact .struck cause struck
  | second e missing late exist pod =>
    exact (faulty.not_second exist (faulty.of_refused missing through).1).elim
  | lost e missing late exist cause =>
    exact (faulty.not_second exist (faulty.of_refused missing through).1).elim

def Resolves (d : Delays) (r : Except Error Move) (next : Move) : Prop :=
  r = .ok next ∨ ∃ pod owner, r = .error (.childNotOwned pod owner) ∧ next = conflict d pod owner

def Move.Obeys (next : Move) (w : Verdict) : Prop := next.status = w.status ∧ next.action = w.action

inductive Moved.Result (fault : StoreError → Prop) (d : Delays) (t : Child.Template)
    (target : Option Pod) (m : Monitor) (v : Scene) (log : Log) :
    Except Error Move → Scene → Prop where
  | struck (e : StoreError) (faulty : fault e) :
      Result fault d t target m v log (.error (.store e)) v
  | kept (r : Except Error Move) (next : Move) (resolved : Resolves d r next)
      (obeys : next.Obeys (verdict d m target v.child))
      (stays : (verdict d m target v.child).creates = false) (creations : log.creations = [])
      (calm : log.errors = []) : Result fault d t target m v log r v
  | created (next : Move) (pod : Pod) (obeys : next.Obeys (verdict d m target v.child))
      (creates : (verdict d m target v.child).creates = true) (built : pod.bare = Child.build m t)
      (calm : ∀ e ∈ log.errors, e.isNotFound = true) :
      Result fault d t target m v log (.ok next) { v with child := some pod }

theorem Looked.Result.moved {r : Except Error Found} {f : Found → Move} {whole : Log}
    (h : Looked.Result fault t m v log r v') (creations : whole.creations = log.creations)
    (errors : whole.errors = log.errors)
    (ours : ∀ pod, v.child = some pod → m.controls pod.metadata = true →
      (f (.existing pod)).Obeys (verdict d m target v.child) ∧
        (verdict d m target v.child).creates = false)
    (other : ∀ pod, v.child = some pod → m.controls pod.metadata = false →
      verdict d m target v.child = taken d m pod)
    (fresh : v.child = none → (f .created).Obeys (verdict d m target v.child) ∧
      (verdict d m target v.child).creates = true) :
    Moved.Result fault d t target m v whole (r.map f) v' := by
  cases h with
  | struck e struck => exact .struck e struck
  | there pod there none calm =>
    cases controls : m.controls pod.metadata with
    | true =>
      obtain ⟨obeys, stays⟩ := ours pod there controls
      refine .kept _ (f (.existing pod)) (.inl ?_) obeys stays (creations.trans none)
        (errors.trans calm)
      simp [owned, controls, Except.map]
    | false =>
      have verdict := other pod there controls
      refine .kept _ (conflict d pod.key.text m.key.text) (.inr ⟨_, _, ?_, rfl⟩) ?_ ?_
        (creations.trans none) (errors.trans calm)
      · simp [owned, controls, Except.map]
      · rw [verdict]
        exact ⟨rfl, rfl⟩
      · rw [verdict]
        rfl
  | created pod absent built calm =>
    obtain ⟨obeys, creates⟩ := fresh absent
    exact .created (f .created) pod obeys creates built (errors ▸ calm)

theorem Moved.result {r : Except Error Move} (faulty : Faulty fault) (moved : Moved d t m log r)
    (through : Scene.Through fault target log v v') :
    Moved.Result fault d t target m v log r v' := by
  cases moved with
  | begun phase =>
    obtain rfl := through
    exact .kept _ _ (.inl rfl) (by simp [Move.Obeys, verdict, phase]) (by simp [verdict, phase])
      rfl rfl
  | missing phase =>
    obtain ⟨_, ⟨rfl, rfl⟩, rfl⟩ := through
    exact .kept _ _ (.inl rfl) (by simp [Move.Obeys, verdict_start phase, verdict.start])
      (by simp [verdict_start phase, verdict.start]) rfl rfl
  | started phase found looked =>
    obtain ⟨_, ⟨rfl, rfl⟩, through⟩ := through
    refine (looked.result faulty through).moved rfl rfl (fun pod there ours => ?_)
      (fun pod there other => ?_) fun absent => ?_
    · simp [Move.Obeys, verdict_start phase, verdict.start, there, ours]
    · simp [verdict_start phase, verdict.start, there, other]
    · simp [Move.Obeys, verdict_start phase, verdict.start, absent]
  | watched phase looked =>
    refine (looked.result faulty through).moved rfl rfl (fun pod there ours => ?_)
      (fun pod there other => ?_) fun absent => ?_
    · simp only [Move.Obeys, verdict, phase, there, ours, afterChild]
      cases pod.status.phase.isTerminal <;> simp
    · simp [verdict, phase, there, other]
    · simp [Move.Obeys, verdict, phase, absent, afterChild]
  | rested phase =>
    obtain rfl := through
    exact .kept _ _ (.inl rfl) (by simp [Move.Obeys, verdict, phase]) (by simp [verdict, phase])
      rfl rfl
  | unknown raw phase =>
    obtain ⟨_, rfl, rfl⟩ := through
    exact .kept _ _ (.inl rfl) (by simp [Move.Obeys, verdict, phase]) (by simp [verdict, phase])
      rfl rfl

inductive Concluded.Result (fault : StoreError → Prop) (next : Move) (m : Monitor) (v : Scene)
    (log : Log) : Except Error Action → Scene → Prop where
  | struck (e : StoreError) (faulty : fault e) : Result fault next m v log (.error (.store e)) v
  | ended (w : Monitor) (status : w.unversioned = { m with status := next.status }.unversioned)
      (idle : m.status = next.status → log.writes = []) (calm : log.errors = []) :
      Result fault next m v log (.ok next.action) { v with monitor := some w }

theorem Concluded.result {next : Move} {r : Except Error Action}
    (concluded : Concluded m next log r) (stored : v.monitor = some m)
    (through : Scene.Through fault target log v v') :
    Concluded.Result fault next m v log r v' := by
  cases concluded with
  | same still =>
    obtain rfl := through
    have same := unchanged_iff.mp still
    have scene : v' = { v' with monitor := some m } := by rw [← stored]
    rw [scene]
    exact .ended m (by rw [← same]) (fun _ => rfl) rfl
  | refused changes e =>
    obtain ⟨_, ⟨struck | stale, rfl⟩, rfl⟩ := through
    · exact .struck e struck
    · exact (stale m stored rfl).elim
  | written changes reply =>
    obtain ⟨_, ⟨old, version, found, rfl⟩, _, rfl, rfl⟩ := through
    cases stored.symm.trans found
    exact .ended _ rfl (fun same => (changed_iff.mp changes same).elim) rfl

/-- What a pass can come to. A failing call ends it, at worst between the creation of the child and
the status; otherwise it ends as the function says. -/
inductive Outcome (fault : StoreError → Prop) (d : Delays) (t : Child.Template)
    (target : Option Pod) (v : Scene) (log : Log) : Except Error Action → Scene → Prop where
  | struck (e : StoreError) (faulty : fault e) :
      Outcome fault d t target v log (.error (.store e)) v
  | halfway (e : StoreError) (faulty : fault e) (up : v.unavailable = false) (m : Monitor)
      (stored : v.monitor = some m)
      (creates : (verdict d m target v.child).creates = true) (pod : Pod)
      (built : pod.bare = Child.build m t) :
      Outcome fault d t target v log (.error (.store e)) { v with child := some pod }
  | settled (v' : Scene) (up : v.unavailable = false)
      (same : v'.bare = (v.pass d t target).1.bare)
      (kept : ∀ p, v.child = some p → v'.child = some p)
      (idle : (v.pass d t target).1.bare = v.bare → log.writes = [] ∧ log.creations = [])
      (calm : ∀ e ∈ log.errors, e.isNotFound = true) :
      Outcome fault d t target v log (v.pass d t target).2 v'

/-- A pass that meets no faults but that the store is down ends as the function says. -/
theorem Outcome.undisturbed {r : Except Error Action} (h : Outcome fault d t target v log r v')
    (own : ∀ e, fault e → v.unavailable = true ∧ e = Store.outage) :
    r = (v.pass d t target).2 ∧ v'.bare = (v.pass d t target).1.bare ∧
      ∀ p, v.child = some p → v'.child = some p := by
  cases h with
  | struck e faulty =>
    obtain ⟨down, rfl⟩ := own e faulty
    have pass : v.pass d t target = (v, .error (.store Store.outage)) := by simp [Scene.pass, down]
    rw [pass]
    exact ⟨rfl, rfl, fun _ kept => kept⟩
  | halfway e faulty up =>
    rw [(own e faulty).1] at up
    contradiction
  | settled v' up same kept idle calm => exact ⟨rfl, same, kept⟩

theorem Outcome.quiet {r : Except Error Action} (h : Outcome fault d t target v log r v')
    (unstruck : ∀ e, ¬ fault e) (idle : (v.pass d t target).1.bare = v.bare) :
    log.writes = [] ∧ log.creations = [] := by
  cases h with
  | struck e faulty => exact (unstruck e faulty).elim
  | halfway e faulty => exact (unstruck e faulty).elim
  | settled v' up same kept quiet calm => exact quiet idle

theorem Scene.pass_stored (up : v.unavailable = false) (stored : v.monitor = some m) :
    v.pass d t target = ({ v with
      monitor := some { m with status := (verdict d m target v.child).status }
      child := if (verdict d m target v.child).creates then some (Child.build m t) else v.child },
      .ok (verdict d m target v.child).action) := by
  simp [Scene.pass, up, stored]

theorem Scene.idle_of_stored (up : v.unavailable = false) (stored : v.monitor = some m)
    (idle : (v.pass d t target).1.bare = v.bare) :
    m.status = (verdict d m target v.child).status ∧
      (verdict d m target v.child).creates = false := by
  rw [Scene.pass_stored up stored] at idle
  simp only [Scene.bare, stored, Option.map_some, Scene.mk.injEq, Option.some.injEq,
    true_and] at idle
  refine ⟨(congrArg Monitor.status idle.1).symm, ?_⟩
  cases creates : (verdict d m target v.child).creates with
  | false => rfl
  | true =>
    rw [creates, absent_of_creates creates] at idle
    simp at idle

theorem Resolves.unique {r : Except Error Move} {next other : Move} (h : Resolves d r next)
    (h' : Resolves d r other) : next = other := by
  rcases h with rfl | ⟨pod, owner, rfl, rfl⟩
  · rcases h' with same | ⟨_, _, other, _⟩
    · exact Except.ok.inj same
    · contradiction
  · rcases h' with other | ⟨_, _, same, rfl⟩
    · contradiction
    · cases same
      rfl

theorem outcome_of_resolved {first rest : Log} {r : Except Error Move} {next : Move}
    {result : Except Error Action} {u : Scene} (up : v.unavailable = false)
    (stored : v.monitor = some m) (moved : Moved.Result fault d t target m v first r u)
    (resolved : Resolves d r next) (concluded : Concluded.Result fault next m u rest result v')
    (writes : log.writes = rest.writes) (creations : log.creations = first.creations)
    (errors : log.errors = first.errors ++ rest.errors) :
    Outcome fault d t target v log result v' := by
  have pass : v.pass d t target = _ := Scene.pass_stored up stored
  cases moved with
  | struck e struck =>
    rcases resolved with no | ⟨_, _, no, _⟩ <;> cases no
  | kept r other decided obeys stays none calm =>
    -- The look for the child has changed nothing, so that all of the effect is the status write.
    cases decided.unique resolved
    cases concluded with
    | struck e struck => exact .struck e struck
    | ended w status idle quiet =>
      have settled : Outcome fault d t target v log (v.pass d t target).2
          { v with monitor := some w } := by
        refine .settled _ up ?_ (fun _ kept => kept) (fun still => ⟨?_, by rw [creations, none]⟩) ?_
        · simp [pass, Scene.bare, stays, status, obeys.1]
        · rw [writes]
          exact idle ((Scene.idle_of_stored up stored still).1.trans obeys.1.symm)
        · simp [errors, calm, quiet]
      rwa [pass, ← obeys.2] at settled
  | created next pod obeys creates built calm =>
    obtain rfl : next = _ := Resolves.unique (.inl rfl) resolved
    cases concluded with
    -- The child is there already when the status write fails.
    | struck e struck => exact .halfway e struck up m stored creates pod built
    | ended w status idle quiet =>
      have settled : Outcome fault d t target v log (v.pass d t target).2
          { v with child := some pod, monitor := some w } := by
        refine .settled _ up ?_ (fun p there => ?_) (fun still => ?_) ?_
        · simp [pass, Scene.bare, Child.build_bare, creates, status, obeys.1, built]
        · simp [absent_of_creates creates] at there
        · have stays := (Scene.idle_of_stored up stored still).2
          rw [creates] at stays
          contradiction
        · simpa [errors, quiet] using calm
      rwa [pass, ← obeys.2] at settled

theorem Synced.outcome {text : String} {key : Key} {r : Except Error Action} (faulty : Faulty fault)
    (synced : Synced d t text log r) (parsed : Key.parse text = .ok key)
    (through : Scene.Through fault target log v v') : Outcome fault d t target v log r v' := by
  cases synced with
  | malformed cause bad => rw [parsed] at bad; contradiction
  | gone key parsed e missing =>
    obtain ⟨_, ⟨struck | ⟨up, absent, _⟩, rfl⟩, rfl⟩ := through
    · exact (faulty.not_missing missing struck).elim
    · have pass : v'.pass d t target = (v', .ok .awaitChange) := by simp [Scene.pass, up, absent]
      have settled : Outcome fault d t target v' [⟨.getMonitor key, .error e⟩]
          (v'.pass d t target).2 v' :=
        .settled v' up (by rw [pass]) (fun _ kept => kept) (fun _ => ⟨rfl, rfl⟩)
          (by simpa [Log.errors] using missing)
      rwa [pass] at settled
  | unread key parsed e other =>
    obtain ⟨_, ⟨struck | ⟨_, _, missing⟩, rfl⟩, rfl⟩ := through
    · exact .struck e struck
    · rw [other] at missing
      contradiction
  | @moved key parsed m first rest next r move conclusion =>
    obtain ⟨_, ⟨up, stored, rfl⟩, through⟩ := through
    obtain ⟨u, early, late⟩ := Scene.through_append.mp through
    have choice := move.result faulty early
    have kept : u.monitor = some m := by cases choice <;> exact stored
    refine outcome_of_resolved up stored choice (.inl rfl) (conclusion.result kept late) ?_ ?_ ?_
    · change (first ++ rest).writes = _
      rw [Log.writes_append, move.aside.1, List.nil_append]
    · change (first ++ rest).creations = _
      rw [Log.creations_append, conclusion.aside.1, List.append_nil]
    · exact List.filterMap_append
  | @taken key parsed m first rest pod owner r move conclusion =>
    obtain ⟨_, ⟨up, stored, rfl⟩, through⟩ := through
    obtain ⟨_, early, u, rfl, late⟩ := Scene.through_append.mp through
    have choice := move.result faulty early
    have kept : u.monitor = some m := by cases choice; exact stored
    refine outcome_of_resolved up stored choice (.inr ⟨pod, owner, rfl, rfl⟩)
      (conclusion.result kept late) ?_ ?_ ?_
    -- the report between the choice and the end neither writes nor creates
    · change (first ++ ⟨.report _, ()⟩ :: rest).writes = _
      rw [Log.writes_append, move.aside.1, List.nil_append]
      rfl
    · change (first ++ ⟨.report _, ()⟩ :: rest).creations = _
      rw [Log.creations_append]
      change first.creations ++ rest.creations = _
      rw [conclusion.aside.1, List.append_nil]
    · exact List.filterMap_append
  | failed key parsed m move =>
    obtain ⟨_, ⟨up, stored, rfl⟩, through⟩ := through
    cases move.result faulty through with
    | struck _ struck => exact .struck _ struck
    | kept r next resolved =>
      rcases resolved with no | ⟨_, _, no, _⟩ <;> cases no

def Call.Within (key : Key) : Call → Prop
  | .getMonitor k => k = key
  | .updateStatus m => m.key = key
  | .getPod k => k = key.child
  | .createPod p => p.key = key.child
  | .cachedPod k => k = key
  | .report _ => True

theorem Looked.within {r : Except Error Found} (looked : Looked t m log r) :
    ∀ x ∈ log, x.1.Within m.key := by
  cases looked <;> simp [Call.Within, Child.key, Key.child, Child.build, Pod.key, Monitor.key,
    Metadata.key]

theorem Moved.within {r : Except Error Move} (moved : Moved d t m log r) :
    ∀ x ∈ log, x.1.Within m.key := by
  cases moved with
  | started phase found looked => simpa [Call.Within] using looked.within
  | watched phase looked => exact looked.within
  | _ => simp [Call.Within]

theorem Concluded.within {next : Move} {r : Except Error Action}
    (concluded : Concluded m next log r) : ∀ x ∈ log, x.1.Within m.key := by
  cases concluded <;> simp [Call.Within, Monitor.key]

theorem Synced.opens {text : String} {key : Key} {r : Except Error Action}
    (synced : Synced d t text log r) (parsed : Key.parse text = .ok key) :
    ∃ reply rest, log = ⟨.getMonitor key, reply⟩ :: rest ∧
      ∀ x ∈ rest, ∃ m, reply = .ok m ∧ x.1.Within m.key := by
  cases synced with
  | malformed cause bad => rw [parsed] at bad; contradiction
  | gone other same =>
    cases parsed.symm.trans same
    exact ⟨_, _, rfl, by simp⟩
  | unread other same =>
    cases parsed.symm.trans same
    exact ⟨_, _, rfl, by simp⟩
  | moved other same m move conclusion =>
    cases parsed.symm.trans same
    refine ⟨_, _, rfl, fun x member => ⟨m, rfl, ?_⟩⟩
    rcases List.mem_append.mp member with early | late
    · exact move.within x early
    · exact conclusion.within x late
  | taken other same m move conclusion =>
    cases parsed.symm.trans same
    refine ⟨_, _, rfl, fun x member => ⟨m, rfl, ?_⟩⟩
    rcases List.mem_append.mp member with early | late
    · exact move.within x early
    · rcases List.mem_cons.mp late with rfl | late
      · trivial
      · exact conclusion.within x late
  | failed other same m move =>
    cases parsed.symm.trans same
    exact ⟨_, _, rfl, fun x member => ⟨m, rfl, move.within x member⟩⟩

theorem within_of_opening {text : String} {key : Key} {c : Call}
    {next : Reply c → Steps (Except Error Action)}
    (leaves : (sync d t text).Leaves log (.call c next)) (parsed : Key.parse text = .ok key)
    (named : ∀ m rest, log = ⟨.getMonitor key, .ok m⟩ :: rest → m.key = key) : c.Within key := by
  -- The pass as it stands is the beginning of a whole pass, whose first reply names the monitor.
  obtain ⟨r, after, result, tells⟩ := leaves.exists_tells
  obtain ⟨reply, rest, whole, within⟩ := (synced_of_tells tells).opens parsed
  cases log with
  | nil =>
    cases (List.cons.inj whole).1
    rfl
  | cons first log =>
    obtain ⟨rfl, rfl⟩ := List.cons.inj whole
    obtain ⟨m, rfl, inside⟩ := within ⟨c, r⟩ (by simp)
    exact named m log rfl ▸ inside

theorem within_of_leaves {text : String} {key : Key} {c : Call}
    {next : Reply c → Steps (Except Error Action)}
    (leaves : (sync d t text).Leaves log (.call c next)) (parsed : Key.parse text = .ok key)
    (through : Scene.Through fault target log v v')
    (named : ∀ m, v.monitor = some m → m.key = key) : c.Within key := by
  refine within_of_opening leaves parsed fun m rest opens => ?_
  subst opens
  obtain ⟨_, ⟨_, stored, _⟩, _⟩ := through
  exact named m stored

theorem parsed_of_leaves {text : String} {c : Call} {next : Reply c → Steps (Except Error Action)}
    (leaves : (sync d t text).Leaves log (.call c next)) : ∃ key, Key.parse text = .ok key := by
  cases parsed : Key.parse text with
  | ok key => exact ⟨key, rfl⟩
  | error cause =>
    simp only [sync, parsed] at leaves
    cases (Program.leaves_finish leaves).2

end Pass

end MonitorOperator
