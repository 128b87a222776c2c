import MonitorOperator.Proofs.System.Steps

/-! A system from its start to its end. A controller reports to the board, waits for the cache, starts
the workers and stops them; it and the router hear of the shutdown at their own time. Between two of
their steps everyone else may come. -/

namespace MonitorOperator

inductive Service.Stage where
  | starting
  /-- it waits for the cache or the shutdown, whichever it notices first -/
  | waiting
  | synced
  | announcing
  /-- so many workers are still to be started -/
  | opening (left : Nat)
  | running
  | closing
  | reporting
  /-- it waits for its workers to end -/
  | joining
  /-- the shutdown came first -/
  | aborting
  | finished (result : Except Error Unit)

/-- A system and its controller, how many workers there are to be, how many were started and which
of them have ended, whether the shutdown was signalled and whether the router has heard of it. What
the last listing that succeeded read, and what those that were taken in whole had read, the last one
first, is for the record. -/
structure Service where
  system : System
  stage : Service.Stage := .starting
  workers : Nat
  started : Nat := 0
  ended : List Nat := []
  signalled : Bool := false
  halted : Bool := false
  listed : Cache := {}
  relists : List Cache := []

inductive Service.Move where
  | world (m : System.Move)
  /-- anyone adds a key -/
  | add (key : String)
  | signal
  /-- the router hears of the shutdown -/
  | halt
  | supervise
  /-- the controller hears of the shutdown while it waits for the cache -/
  | abort
  /-- a worker finds the queue shut down, or has fallen -/
  | retire (worker : Nat)

namespace Service

def start {σ τ : Type} (retention : Nat) (stamp : Recorder.Stamp) (parts : Operator.Parts σ τ)
    (workers : Nat) : Service :=
  { system := .start retention stamp parts, workers := max workers 1 }

abbrev site (s : Service) : Deployment := s.system.site

abbrev store (s : Service) : Store := s.system.store

abbrev queue (s : Service) : WorkQueue := s.system.queue

abbrev cache (s : Service) : Cache := s.system.site.operator.cache

abbrev board (s : Service) : Health.Board := s.system.site.operator.board

def onSite (s : Service) (site : Deployment) : Service :=
  { s with system := { s.system with site := site } }

/-- The record after a step of the system: a listing reads the monitors and then the pods, and is
taken in whole once the router goes back to the feed. -/
def note (s : Service) (t : System) : Service :=
  match s.system.stage, t.stage with
  | .listing, .listed _ => { s with
    system := t, listed := { s.listed with monitors := t.store.monitors } }
  | .listed _, .taking .. => { s with system := t, listed := { s.listed with pods := t.store.pods } }
  | .taking [] true, .watching => { s with system := t, relists := s.listed :: s.relists }
  | _, _ => { s with system := t }

def employs (s : Service) (worker : Nat) : Bool := worker < s.started && !s.ended.contains worker

def allows (s : Service) : System.Move → Bool
  | .route => !s.halted
  | .take worker => s.employs worker
  | .work worker => s.employs worker
  | _ => true

def listens (s : Service) : Bool :=
  match s.system.stage with
  | .resting => true
  | .watching => true
  | _ => false

/-- The loop of a worker is over: the worker has fallen, or it comes for a key after the shutdown. -/
def isOver (s : Service) (worker : Nat) : Bool :=
  match s.system.hands worker with
  | .free => s.queue.shuttingDown
  | .working .. => false
  | .fallen _ => true

def isFallen (s : Service) (worker : Nat) : Bool :=
  match s.system.hands worker with
  | .fallen _ => true
  | _ => false

def fallen (s : Service) : Nat := (List.range s.started).countP s.isFallen

def supervise? (s : Service) : Option Service :=
  match s.stage with
  | .starting =>
    let board := s.board.registerAll.setDegraded Health.cacheComponent "waiting for initial sync"
    some { s.onSite (s.site.setBoard board) with stage := .waiting }
  | .waiting => if s.cache.synced then some { s with stage := .synced } else none
  | .synced =>
    let board := s.board.setHealthy Health.cacheComponent
    some { s.onSite (s.site.setBoard board) with stage := .announcing }
  | .announcing =>
    some { s.onSite (s.site.setBoard (s.board.setSynced true)) with stage := .opening s.workers }
  | .opening 0 => some { s with stage := .running }
  | .opening (left + 1) => some { s with stage := .opening left, started := s.started + 1 }
  | .running => if s.signalled then some { s with stage := .closing } else none
  | .closing => some { s.onSite (s.site.setQueue s.queue.shutdown) with stage := .reporting }
  | .reporting =>
    let board := s.board.setUnhealthy Health.queueComponent "queue shut down"
    some { s.onSite (s.site.setBoard board) with stage := .joining }
  | .joining =>
    if (List.range s.started).all s.ended.contains then
      let board := s.board.setUnhealthy Health.workersComponent "workers stopped"
      some { s.onSite ((s.site.logFallen s.fallen).setBoard board) with stage := .finished (.ok ()) }
    else none
  | .aborting =>
    some { s.onSite ((s.site.setQueue s.queue.shutdown).log .shutdownBeforeSync) with
      stage := .finished (.error .cacheSyncAborted) }
  | .finished _ => none

def step? (s : Service) : Move → Option Service
  | .world m => if s.allows m then (s.system.step? m).map s.note else none
  | .add key => some (s.onSite (s.site.setQueue (s.queue.add key)))
  | .signal => some { s with signalled := true }
  | .halt => if s.signalled && s.listens then some { s with halted := true } else none
  | .supervise => s.supervise?
  | .abort =>
    match s.stage with
    | .waiting => if s.signalled then some { s with stage := .aborting } else none
    | _ => none
  | .retire worker =>
    if s.employs worker && s.isOver worker then some { s with ended := worker :: s.ended } else none

inductive Supervised (s : Service) : Service → Prop where
  | waits (stage : s.stage = .starting) : Supervised s { s.onSite (s.site.setBoard
      (s.board.registerAll.setDegraded Health.cacheComponent "waiting for initial sync")) with
        stage := .waiting }
  | found (stage : s.stage = .waiting) (synced : s.cache.synced = true) :
      Supervised s { s with stage := .synced }
  | heals (stage : s.stage = .synced) : Supervised s { s.onSite (s.site.setBoard
      (s.board.setHealthy Health.cacheComponent)) with stage := .announcing }
  | announces (stage : s.stage = .announcing) : Supervised s
      { s.onSite (s.site.setBoard (s.board.setSynced true)) with stage := .opening s.workers }
  | opened (stage : s.stage = .opening 0) : Supervised s { s with stage := .running }
  | hired (left : Nat) (stage : s.stage = .opening (left + 1)) :
      Supervised s { s with stage := .opening left, started := s.started + 1 }
  | heard (stage : s.stage = .running) (signalled : s.signalled = true) :
      Supervised s { s with stage := .closing }
  | closed (stage : s.stage = .closing) :
      Supervised s { s.onSite (s.site.setQueue s.queue.shutdown) with stage := .reporting }
  | reported (stage : s.stage = .reporting) : Supervised s { s.onSite (s.site.setBoard
      (s.board.setUnhealthy Health.queueComponent "queue shut down")) with stage := .joining }
  | joined (stage : s.stage = .joining)
      (gone : (List.range s.started).all s.ended.contains = true) :
      Supervised s { s.onSite ((s.site.logFallen s.fallen).setBoard
        (s.board.setUnhealthy Health.workersComponent "workers stopped")) with
          stage := .finished (.ok ()) }
  | aborted (stage : s.stage = .aborting) :
      Supervised s { s.onSite ((s.site.setQueue s.queue.shutdown).log .shutdownBeforeSync) with
        stage := .finished (.error .cacheSyncAborted) }

theorem supervised {s t : Service} (step : s.supervise? = some t) : Supervised s t := by
  unfold supervise? at step
  split at step
  · rename_i stage
    cases Option.some.inj step
    exact .waits stage
  · rename_i stage
    split at step
    · rename_i synced
      cases Option.some.inj step
      exact .found stage synced
    · contradiction
  · rename_i stage
    cases Option.some.inj step
    exact .heals stage
  · rename_i stage
    cases Option.some.inj step
    exact .announces stage
  · rename_i stage
    cases Option.some.inj step
    exact .opened stage
  · rename_i left stage
    cases Option.some.inj step
    exact .hired left stage
  · rename_i stage
    split at step
    · rename_i signalled
      cases Option.some.inj step
      exact .heard stage signalled
    · contradiction
  · rename_i stage
    cases Option.some.inj step
    exact .closed stage
  · rename_i stage
    cases Option.some.inj step
    exact .reported stage
  · rename_i stage
    split at step
    · rename_i gone
      cases Option.some.inj step
      exact .joined stage gone
    · contradiction
  · rename_i stage
    cases Option.some.inj step
    exact .aborted stage
  · contradiction

inductive Stepped (s : Service) : Move → Service → Prop where
  | world (m : System.Move) (allowed : s.allows m = true) (t : System)
      (step : System.Stepped s.system m t) : Stepped s (.world m) (s.note t)
  | added (key : String) : Stepped s (.add key) (s.onSite (s.site.setQueue (s.queue.add key)))
  | signalled : Stepped s .signal { s with signalled := true }
  | halted (signalled : s.signalled = true) (listens : s.listens = true) :
      Stepped s .halt { s with halted := true }
  | supervised (t : Service) (h : Supervised s t) : Stepped s .supervise t
  | aborts (stage : s.stage = .waiting) (signalled : s.signalled = true) :
      Stepped s .abort { s with stage := .aborting }
  | retired (worker : Nat) (employed : s.employs worker = true) (leaves : s.isOver worker = true) :
      Stepped s (.retire worker) { s with ended := worker :: s.ended }

theorem stepped {s t : Service} {m : Move} (step : s.step? m = some t) : Stepped s m t := by
  cases m with
  | world m =>
    simp only [step?] at step
    split at step
    · rename_i allowed
      obtain ⟨after, made, rfl⟩ := Option.map_eq_some_iff.mp step
      exact .world m allowed after (System.stepped made)
    · contradiction
  | add key =>
    cases Option.some.inj step
    exact .added key
  | signal =>
    cases Option.some.inj step
    exact .signalled
  | halt =>
    simp only [step?] at step
    split at step
    · rename_i heard
      obtain ⟨signalled, listens⟩ := Bool.and_eq_true_iff.mp heard
      cases Option.some.inj step
      exact .halted signalled listens
    · contradiction
  | supervise => exact .supervised t (supervised step)
  | abort =>
    simp only [step?] at step
    split at step
    · rename_i stage
      split at step
      · rename_i signalled
        cases Option.some.inj step
        exact .aborts stage signalled
      · contradiction
    · contradiction
  | retire worker =>
    simp only [step?] at step
    split at step
    · rename_i ready
      obtain ⟨employed, leaves⟩ := Bool.and_eq_true_iff.mp ready
      cases Option.some.inj step
      exact .retired worker employed leaves
    · contradiction

@[simp] theorem note_system (s : Service) (t : System) : (s.note t).system = t := by
  unfold note
  split <;> rfl

theorem note_crew (s : Service) (t : System) :
    (s.note t).stage = s.stage ∧ (s.note t).started = s.started := by
  unfold note
  split <;> exact ⟨rfl, rfl⟩

/-- What the controller of a deployment does in one go takes several steps here. -/
theorem starts_alone {s : Service} (stage : s.stage = .starting) :
    ∃ t, s.step? .supervise = some t ∧ t.stage = .waiting ∧
      t.site.operator = (s.site.startController s.workers).operator := by
  have step : s.step? .supervise = some { s.onSite (s.site.setBoard
      (s.board.registerAll.setDegraded Health.cacheComponent "waiting for initial sync")) with
        stage := .waiting } := by simp only [step?, supervise?, stage]
  exact ⟨_, step, rfl, rfl⟩

theorem hires_alone {s : Service} {left : Nat} (stage : s.stage = .opening left) :
    after? step? s (List.replicate (left + 1) .supervise) =
      some { s with stage := .running, started := s.started + left } := by
  induction left generalizing s with
  | zero =>
    have step : s.step? .supervise = some { s with stage := .running } := by
      simp only [step?, supervise?, stage]
    rw [List.replicate_succ, after?_cons, step]
    rfl
  | succ left ih =>
    have step : s.step? .supervise =
        some { s with stage := .opening left, started := s.started + 1 } := by
      simp only [step?, supervise?, stage]
    rw [List.replicate_succ, after?_cons, step, Option.bind_some, ih rfl]
    simp only [Nat.add_assoc, Nat.add_comm 1 left]

theorem opens_alone {s : Service} (stage : s.stage = .waiting) (synced : s.cache.synced = true) :
    ∃ n t, after? step? s (List.replicate n .supervise) = some t ∧ t.stage = .running ∧
      t.started = s.started + s.workers ∧
      t.site.operator =
        { s.site with controllers := [.waiting s.workers] }.openWorkers.operator := by
  let ready := s.onSite (s.site.setBoard
    ((s.board.setHealthy Health.cacheComponent).setSynced true))
  have opened : ready.site.operator =
      { s.site with controllers := [.waiting s.workers] }.openWorkers.operator := by
    simp only [Deployment.openWorkers, synced, Bool.true_and]
    rfl
  have found : s.step? .supervise = some { s with stage := .synced } := by
    simp only [step?, supervise?, stage, synced, if_true]
  refine ⟨s.workers + 1 + 3, { ready with stage := .running, started := s.started + s.workers },
    ?_, rfl, rfl, opened⟩
  rw [List.replicate_succ, after?_cons, found, Option.bind_some]
  exact hires_alone (s := { ready with stage := .opening s.workers }) rfl

theorem stops_alone {s : Service} (stage : s.stage = .closing)
    (gone : (List.range s.started).all s.ended.contains = true) :
    ∃ t, after? step? s (List.replicate 3 .supervise) = some t ∧ t.stage = .finished (.ok ()) ∧
      t.site = (s.site.stopController (.running (s.started - s.fallen) s.fallen)).1 := by
  let shut := { s.onSite (s.site.setQueue s.queue.shutdown) with stage := .reporting }
  let told := { shut.onSite (shut.site.setBoard
    (shut.board.setUnhealthy Health.queueComponent "queue shut down")) with stage := .joining }
  let still := { told.onSite ((told.site.logFallen told.fallen).setBoard
    (told.board.setUnhealthy Health.workersComponent "workers stopped")) with
      stage := .finished (.ok ()) }
  have first : s.step? .supervise = some shut := by simp only [step?, supervise?, stage, shut]
  have second : shut.step? .supervise = some told := rfl
  have last : told.step? .supervise = some still := if_pos gone
  refine ⟨still, ?_, rfl, rfl⟩
  rw [List.replicate_succ, after?_cons, first, Option.bind_some, List.replicate_succ, after?_cons,
    second, Option.bind_some, List.replicate_succ, after?_cons, last]
  rfl

theorem aborts_alone {s : Service} (stage : s.stage = .waiting) (signalled : s.signalled = true) :
    ∃ t, after? step? s [.abort, .supervise] = some t ∧
      t.stage = .finished (.error .cacheSyncAborted) ∧
      t.site = (s.site.stopController (.waiting s.workers)).1 := by
  have heard : s.step? .abort = some { s with stage := .aborting } := by
    simp only [step?, stage, signalled, if_true]
  refine ⟨{ s.onSite ((s.site.setQueue s.queue.shutdown).log .shutdownBeforeSync) with
    stage := .finished (.error .cacheSyncAborted) }, ?_, rfl, rfl⟩
  rw [after?_cons, heard]
  rfl

end Service

end MonitorOperator
