import MonitorOperator.Proofs.Service.Moves
import MonitorOperator.Proofs.Store.Differences
import MonitorOperator.Proofs.System.Listing

/-! The start of a service. No worker makes a step before a listing was taken in whole, and the cache
then has what that listing read. Main statement: `workers_wait_for_listing`. -/

namespace MonitorOperator

namespace System

def Move.written? : Move → Option Store.Operation
  | .outside op => some op
  | _ => none

def Move.ofWorker : Move → Bool
  | .take _ => true
  | .work _ => true
  | _ => false

/-- What no step of the system but those of workers changes. -/
structure Unattended (s : System) (m : Move) (t : System) : Prop where
  hands : t.hands = s.hands
  board : t.site.operator.board = s.site.operator.board
  processing : t.queue.processing = s.queue.processing
  down : t.queue.shuttingDown = s.queue.shuttingDown
  store : t.store = s.store.after m.written?.toList

theorem run_unattended (q : WorkQueue) (wake : Wake) :
    (wake.run q).processing = q.processing ∧ (wake.run q).shuttingDown = q.shuttingDown := by
  cases wake with
  | monitor key => exact ⟨q.add_processing _, q.add_shuttingDown _⟩
  | _ => exact ⟨rfl, rfl⟩

theorem Routed.unattended {s t : System} (h : Routed s t) : Unattended s .route t := by
  have store : t.store = s.store := congrArg Drill.store h.drill
  cases h with
  | roused wake todo syncs stage =>
    obtain ⟨processing, down⟩ := run_unattended s.queue wake
    exact ⟨rfl, rfl, processing, down, rfl⟩
  | rejoined syncs stage => cases syncs <;> exact ⟨rfl, rfl, rfl, rfl, rfl⟩
  | _ => exact ⟨rfl, rfl, rfl, rfl, store⟩

theorem ring_unattended (s : System) (due : Moment) (alarm : Alarm) :
    Unattended s (.ring due alarm) (s.ring due alarm) := by
  cases alarm with
  | add key =>
    simp only [ring]
    split
    · exact ⟨rfl, rfl, rfl, rfl, rfl⟩
    · rename_i queue released
      obtain ⟨_, rfl⟩ := WorkQueue.release?_eq_some.mp released
      exact ⟨rfl, rfl, rfl, rfl, rfl⟩
  | relist router =>
    simp only [ring]
    split <;> exact ⟨rfl, rfl, rfl, rfl, rfl⟩

theorem Stepped.unattended {s t : System} {m : Move} (step : Stepped s m t)
    (other : m.ofWorker = false) : Unattended s m t := by
  cases step with
  | outside op => exact ⟨rfl, rfl, rfl, rfl, rfl⟩
  | waited time => exact ⟨rfl, rfl, rfl, rfl, rfl⟩
  | routed _ h => exact h.unattended
  | rang due alarm set late => exact s.ring_unattended due alarm
  | completed key rung =>
    exact ⟨rfl, rfl, s.queue.add_processing key, s.queue.add_shuttingDown key, rfl⟩
  | took worker key queue free taken => contradiction
  | ended worker held last => contradiction
  | called worker held c next busy _ => contradiction
  | fell worker held c next busy _ => contradiction

end System

namespace Service

variable {s t : Service} {m : Move}

def Move.ofWorker : Move → Bool
  | .world m => m.ofWorker
  | .retire _ => true
  | _ => false

def Move.written? : Move → Option Store.Operation
  | .world m => m.written?
  | _ => none

def Stage.hires : Stage → Bool
  | .opening _ => true
  | .running => true
  | .closing => true
  | .reporting => true
  | .joining => true
  | .finished (.ok _) => true
  | _ => false

def Stage.opens : Stage → Bool
  | .synced => true
  | .announcing => true
  | stage => stage.hires

structure Idle (s : Service) : Prop where
  started : s.started = 0
  hands : ∀ worker, s.system.hands worker = .free
  processing : s.queue.processing = ∅
  unready : s.board.synced = false

theorem still_of_started (nobody : s.started = 0) (worker : m.ofWorker = true) :
    s.step? m = none := by
  have nobody (w : Nat) : s.employs w = false := by simp [employs, nobody]
  cases m with
  | world m =>
    cases m with
    | take w => simp [step?, allows, nobody]
    | work w => simp [step?, allows, nobody]
    | _ => contradiction
  | retire w => simp [step?, nobody]
  | _ => contradiction

theorem other_of_started (nobody : s.started = 0) (step : s.step? m = some t) :
    m.ofWorker = false := by
  cases worker : m.ofWorker with
  | false => rfl
  | true =>
    rw [still_of_started nobody worker] at step
    contradiction

theorem Idle.unattended (h : s.Idle) {m : System.Move} {t : System}
    (unattended : System.Unattended s.system m t) : (s.note t).Idle where
  started := (s.note_crew t).2.trans h.started
  hands worker := by
    rw [note_system, unattended.hands]
    exact h.hands worker
  processing := by
    rw [queue, note_system, unattended.processing]
    exact h.processing
  unready := by
    rw [board, note_system, unattended.board]
    exact h.unready

theorem Idle.step (h : s.Idle) (made : s.step? m = some t) (hires : t.stage.hires = false) :
    t.Idle := by
  have other := other_of_started h.started made
  cases stepped made with
  | world m allowed t step => exact h.unattended (step.unattended other)
  | added key => exact ⟨h.started, h.hands, (s.queue.add_processing key).trans h.processing, h.unready⟩
  | supervised t supervised =>
    cases supervised with
    | announces stage => contradiction
    | opened stage => contradiction
    | hired left stage => contradiction
    | _ => exact ⟨h.started, h.hands, h.processing, h.unready⟩
  | _ => exact ⟨h.started, h.hands, h.processing, h.unready⟩

def Catches (s : Service) : Prop :=
  match s.system.stage with
  | .listed monitors => monitors = s.listed.monitors.values.map .monitor
  | .taking todo true => Cache.Leads s.listed.at? s.cache todo
  | .waking _ todo true => Cache.Leads s.listed.at? s.cache todo
  | _ => True

theorem catches_congr (h : s.Catches) (stage : t.system.stage = s.system.stage)
    (cache : t.cache = s.cache) (listed : t.listed = s.listed) : t.Catches := by
  rw [Catches, stage, cache, listed]
  exact h

structure Recorded (s : Service) : Prop where
  plain : s.site.Plain
  keyed : s.store.Keyed
  reading : s.system.position ≤ s.store.feed.size
  placed : s.cache.Placed
  listed : s.listed.Placed
  synced : s.cache.synced = true ↔ s.relists ≠ []
  catches : s.Catches

structure Relisted (s t : Service) : Prop where
  relists : t.relists = s.listed :: s.relists
  synced : t.cache.synced = true
  monitors : t.cache.monitors = s.listed.monitors
  pods : t.cache.pods = s.listed.pods

inductive Recording (s t : Service) : Prop where
  | relisted (h : Relisted s t)
  | aside (relists : t.relists = s.relists) (synced : t.cache.synced = s.cache.synced)

theorem Recording.synced (h : Recording s t) (before : s.cache.synced = true ↔ s.relists ≠ []) :
    t.cache.synced = true ↔ t.relists ≠ [] := by
  cases h with
  | relisted h =>
    rw [h.relists]
    exact ⟨fun _ => by simp, fun _ => h.synced⟩
  | aside relists synced =>
    rw [relists, synced]
    exact before

theorem placed_monitors {c : Cache} (h : c.Placed) {store : Store} (keyed : store.Keyed) :
    Cache.Placed { c with monitors := store.monitors } := by
  rintro ⟨isMonitor, key⟩ o found
  cases isMonitor with
  | true => exact keyed.placed ⟨true, key⟩ o found
  | false => exact h ⟨false, key⟩ o found

theorem placed_pods {c : Cache} (h : c.Placed) {store : Store} (keyed : store.Keyed) :
    Cache.Placed { c with pods := store.pods } := by
  rintro ⟨isMonitor, key⟩ o found
  cases isMonitor with
  | true => exact h ⟨true, key⟩ o found
  | false => exact keyed.placed ⟨false, key⟩ o found

/-- What the router does to the cache, and what there is to say of what it has in hand then. -/
structure Follows (s t : Service) : Prop where
  recording : Recording s t
  listed : t.listed.Placed
  catches : t.Catches

theorem Recorded.follows_compared (h : s.Recorded) {monitors : List Object}
    (stage : s.system.stage = .listed monitors) : s.Follows (s.note (s.system.listPods monitors)) := by
  have same := h.catches
  simp only [Catches, stage] at same
  have noted : s.note (s.system.listPods monitors) = { s with
      system := s.system.listPods monitors, listed := { s.listed with pods := s.store.pods } } := by
    simp only [note, stage]
    rfl
  rw [noted]
  have placed := placed_pods h.listed h.keyed
  refine ⟨.aside rfl rfl, placed, ?_⟩
  refine Cache.leads_catchUp h.placed placed fun o => ?_
  rw [same]
  rfl

theorem Recorded.follows_on (h : s.Recorded) {t : System} (noted : s.note t = { s with system := t })
    (synced : t.cache.synced = s.cache.synced) (catches : Catches { s with system := t }) :
    s.Follows (s.note t) := by
  rw [noted]
  exact ⟨.aside rfl synced, h.listed, catches⟩

theorem Recorded.follows_absorbed (h : s.Recorded) {c : Change} {todo : List Change} {syncs : Bool}
    (stage : s.system.stage = .taking (c :: todo) syncs) :
    s.Follows (s.note (s.system.absorb c todo syncs)) := by
  have before := h.catches
  refine h.follows_on (by simp only [note, stage]) (Cache.synced_absorb _ c) ?_
  cases syncs with
  | true =>
    simp only [Catches, stage] at before
    exact before.cons
  | false => trivial

theorem Recorded.follows_roused (h : s.Recorded) {wake : Wake} {todo : List Change} {syncs : Bool}
    (stage : s.system.stage = .waking wake todo syncs) :
    s.Follows (s.note (s.system.rouse wake todo syncs)) := by
  have before := h.catches
  refine h.follows_on (by simp only [note, stage]) rfl ?_
  cases syncs with
  | true =>
    simp only [Catches, stage] at before
    exact before
  | false => trivial

theorem Recorded.follows_rejoined (h : s.Recorded) {syncs : Bool}
    (stage : s.system.stage = .taking [] syncs) : s.Follows (s.note (s.system.rejoin syncs)) := by
  have before := h.catches
  cases syncs with
  | true =>
    have noted : s.note (s.system.rejoin true) =
        { s with system := s.system.rejoin true, relists := s.listed :: s.relists } := by
      simp only [note, stage]
      rfl
    rw [noted]
    simp only [Catches, stage] at before
    obtain ⟨monitors, pods⟩ := Cache.ext_at? before.nil
    exact ⟨.relisted ⟨rfl, rfl, monitors, pods⟩, h.listed, trivial⟩
  | false => exact h.follows_on (by simp only [note, stage]) rfl trivial

theorem Recorded.follows (h : s.Recorded) {t : System} (routed : System.Routed s.system t) :
    s.Follows (s.note t) := by
  cases routed with
  | subscribed stage => exact h.follows_on (by simp only [note, stage]) rfl trivial
  | failed cause stage => exact h.follows_on (by simp only [note, stage]; rfl) rfl trivial
  | listed listing stage answer =>
    have noted : s.note { s.system with stage := .listed (listing.filter Object.isMonitor) } =
        { s with
          system := { s.system with stage := .listed (listing.filter Object.isMonitor) }
          listed := { s.listed with monitors := s.store.monitors } } := by
      simp only [note, stage]
    rw [noted]
    exact ⟨.aside rfl rfl, placed_monitors h.listed h.keyed, Store.monitors_of_list answer⟩
  | compared monitors stage => exact h.follows_compared stage
  | absorbed c todo syncs stage => exact h.follows_absorbed stage
  | roused wake todo syncs stage => exact h.follows_roused stage
  | rejoined syncs stage => exact h.follows_rejoined stage
  | lagged missed position stage back => exact h.follows_on (by simp only [note, stage]) rfl trivial
  | read c stage kept there => exact h.follows_on (by simp only [note, stage]) rfl trivial

theorem Recorded.follows_elsewhere (h : s.Recorded) {t : System}
    (elsewhere : System.Elsewhere s.system t) : s.Follows (s.note t) := by
  have synced : t.cache.synced = s.cache.synced := congrArg Cache.synced elsewhere.cache
  rcases elsewhere.stage with same | lists
  · refine h.follows_on ?_ synced ?_
    · simp only [note, same]
      split <;> rename_i first second
      · rw [first] at second; contradiction
      · rw [first] at second; contradiction
      · rw [first] at second; contradiction
      · rfl
    · exact catches_congr h.catches same elsewhere.cache rfl
  · refine h.follows_on ?_ synced ?_
    · simp only [note, lists]
      split <;> first | contradiction | rfl
    · simp only [Catches, lists]

structure Aside (s t : Service) : Prop where
  drill : t.site.drill = s.site.drill
  cache : t.cache = s.cache
  stage : t.system.stage = s.system.stage
  position : t.system.position = s.system.position
  listed : t.listed = s.listed
  relists : t.relists = s.relists

theorem Supervised.aside (h : Supervised s t) : s.Aside t := by
  cases h <;> exact ⟨rfl, rfl, rfl, rfl, rfl, rfl⟩

theorem Recorded.aside (h : s.Recorded) (aside : s.Aside t) : t.Recorded ∧ Recording s t := by
  have store : t.store = s.store := congrArg Drill.store aside.drill
  refine ⟨?_, .aside aside.relists (congrArg Cache.synced aside.cache)⟩
  refine ⟨?_, store ▸ h.keyed, ?_, aside.cache ▸ h.placed, aside.listed ▸ h.listed, ?_, ?_⟩
  · rw [Deployment.Plain, aside.drill]
    exact h.plain
  · rw [store, aside.position]
    exact h.reading
  · rw [aside.cache, aside.relists]
    exact h.synced
  · exact catches_congr h.catches aside.stage aside.cache aside.listed

theorem Recorded.step (h : s.Recorded) (stepped : Stepped s m t) : t.Recorded ∧ Recording s t := by
  cases stepped with
  | world m allowed t step =>
    obtain ⟨plain, upstream⟩ := step.upstream h.plain h.keyed h.reading
    have ⟨follows, placed⟩ : s.Follows (s.note t) ∧ t.cache.Placed := by
      rcases step.routed_or_elsewhere with routed | elsewhere
      · exact ⟨h.follows routed, routed.placed h.placed⟩
      · exact ⟨h.follows_elsewhere elsewhere, elsewhere.cache ▸ h.placed⟩
    refine ⟨?_, follows.recording⟩
    have keyed := upstream.keyed h.keyed
    have reading := upstream.reading h.reading
    exact {
      plain := by rw [site, note_system]; exact plain
      keyed := by rw [store, note_system]; exact keyed
      reading := by rw [store, note_system]; exact reading
      placed := by rw [cache, note_system]; exact placed
      listed := follows.listed
      synced := follows.recording.synced h.synced
      catches := follows.catches }
  | supervised t supervised => exact h.aside supervised.aside
  | _ => exact h.aside ⟨rfl, rfl, rfl, rfl, rfl, rfl⟩

/-- The controller goes past its wait only once a listing was taken in, and starts workers later
still. One that was aborted has shut the queue down. -/
structure Barrier (s : Service) : Prop where
  recorded : s.Recorded
  opens : s.stage.opens = true → s.relists ≠ []
  idle : s.stage.hires = false → s.Idle
  aborted : ∀ cause, s.stage = .finished (.error cause) →
    cause = .cacheSyncAborted ∧ s.queue.shuttingDown = true

theorem hires_le_opens {stage : Stage} (hires : stage.hires = true) : stage.opens = true := by
  cases stage <;> first | rfl | contradiction | exact hires

theorem relists_grow (recording : Recording s t) (some : s.relists ≠ []) : t.relists ≠ [] := by
  cases recording with
  | relisted h =>
    rw [h.relists]
    simp
  | aside relists synced =>
    rw [relists]
    exact some

theorem Stepped.stage (h : Stepped s m t) :
    t.stage = s.stage ∨ Supervised s t ∨ s.stage = .waiting ∧ t.stage = .aborting := by
  cases h with
  | world m allowed t step => exact .inl (s.note_crew t).1
  | supervised t h => exact .inr (.inl h)
  | aborts stage signalled => exact .inr (.inr ⟨stage, rfl⟩)
  | _ => exact .inl rfl

theorem hires_step (stepped : Stepped s m t) (hires : s.stage.hires = true) :
    t.stage.hires = true := by
  rcases stepped.stage with same | supervised | ⟨waiting, _⟩
  · rw [same]
    exact hires
  · cases supervised with
    | waits stage => rw [stage] at hires; contradiction
    | found stage synced => rw [stage] at hires; contradiction
    | heals stage => rw [stage] at hires; contradiction
    | aborted stage => rw [stage] at hires; contradiction
    | _ => rfl
  · rw [waiting] at hires
    contradiction

theorem Barrier.opens_step (h : s.Barrier) (stepped : Stepped s m t)
    (opens : t.stage.opens = true) : s.relists ≠ [] := by
  rcases stepped.stage with same | supervised | ⟨_, aborting⟩
  · exact h.opens (same ▸ opens)
  · cases supervised with
    | waits stage => contradiction
    | found stage synced => exact h.recorded.synced.mp synced
    | aborted stage => contradiction
    | hired left stage => exact h.opens (by rw [stage]; rfl)
    | _ stage => exact h.opens (by rw [stage]; rfl)
  · rw [aborting] at opens
    contradiction

theorem Barrier.aborted_step (h : s.Barrier) (made : s.step? m = some t) {cause : Error}
    (stage : t.stage = .finished (.error cause)) :
    cause = .cacheSyncAborted ∧ t.queue.shuttingDown = true := by
  have before (same : t.stage = s.stage) (down : t.queue.shuttingDown = s.queue.shuttingDown) :
      cause = .cacheSyncAborted ∧ t.queue.shuttingDown = true := by
    rw [down]
    exact h.aborted cause (same ▸ stage)
  cases stepped made with
  | world m allowed t step =>
    have same := (s.note_crew t).1
    have idle : s.Idle := h.idle (by rw [← same, stage]; rfl)
    refine before same ?_
    rw [queue, note_system]
    exact (step.unattended (other_of_started idle.started made)).down
  | added key => exact before rfl (s.queue.add_shuttingDown key)
  | supervised t supervised =>
    cases supervised with
    | aborted _ =>
      cases stage
      exact ⟨rfl, rfl⟩
    | joined _ _ => cases stage
    | _ => contradiction
  | aborts waiting signalled => contradiction
  | _ => exact before rfl rfl

theorem Barrier.step (h : s.Barrier) (made : s.step? m = some t) : t.Barrier := by
  have stepped := stepped made
  obtain ⟨recorded, recording⟩ := h.recorded.step stepped
  refine ⟨recorded, ?_, ?_, fun cause stage => h.aborted_step made stage⟩
  · intro opens
    exact relists_grow recording (h.opens_step stepped opens)
  · intro hires
    refine (h.idle ?_).step made hires
    apply Bool.eq_false_iff.mpr
    intro hired
    rw [hires_step stepped hired] at hires
    contradiction

theorem Barrier.start {σ τ : Type} (retention : Nat) (stamp : Recorder.Stamp)
    (parts : Operator.Parts σ τ) (workers : Nat) (unsynced : parts.cache.synced = false)
    (unready : parts.board.synced = false) (placed : parts.cache.Placed) :
    (start retention stamp parts workers).Barrier where
  recorded := {
    plain := rfl
    keyed := .empty retention
    reading := Nat.le_refl _
    placed := placed
    listed := Cache.placed_empty
    synced := by
      have before : (Service.start retention stamp parts workers).cache.synced = false := unsynced
      rw [before]
      exact ⟨nofun, fun some => (some rfl).elim⟩
    catches := trivial }
  opens opens := nomatch opens
  idle _ := ⟨rfl, fun _ => rfl, rfl, unready⟩
  aborted cause stage := nomatch stage

theorem Stepped.started_le (stepped : Stepped s m t) : s.started ≤ t.started := by
  cases stepped with
  | world m allowed t step => exact Nat.le_of_eq (s.note_crew t).2.symm
  | supervised t supervised =>
    cases supervised with
    | hired left stage => exact Nat.le_succ _
    | _ => exact Nat.le_refl _
  | _ => exact Nat.le_refl _

theorem store_step (stepped : Stepped s m t) (other : m.ofWorker = false) :
    t.store = s.store.after m.written?.toList := by
  cases stepped with
  | world m allowed t step =>
    rw [store, note_system]
    exact (step.unattended other).store
  | supervised t supervised => exact congrArg Drill.store supervised.aside.drill
  | _ => rfl

/-- No worker has made a step, and none can make one. All that was written was written from
outside. -/
structure Untouched (s t : Service) (moves : List Move) : Prop where
  others : ∀ m ∈ moves, m.ofWorker = false
  store : t.store = s.store.after (moves.filterMap Move.written?)
  processing : t.queue.processing = ∅
  still : ∀ m : Move, m.ofWorker = true → t.step? m = none
  unready : t.board.readiness.ready = false

theorem store_of_run {moves : List Move} (run : after? step? s moves = some t)
    (others : ∀ m ∈ moves, m.ofWorker = false) :
    t.store = s.store.after (moves.filterMap Move.written?) := by
  induction moves generalizing s with
  | nil =>
    cases Option.some.inj run
    rfl
  | cons m moves ih =>
    rw [after?_cons, Option.bind_eq_some_iff] at run
    obtain ⟨u, made, rest⟩ := run
    have first := store_step (stepped made) (others m (List.mem_cons_self ..))
    have later := ih rest fun m member => others m (List.mem_cons_of_mem _ member)
    rw [later, first]
    cases written : m.written? with
    | none =>
      rw [List.filterMap_cons_none written]
      rfl
    | some op =>
      rw [List.filterMap_cons_some written]
      rfl

theorem others_of_run {moves : List Move} (run : after? step? s moves = some t)
    (nobody : t.started = 0) : s.started = 0 ∧ ∀ m ∈ moves, m.ofWorker = false := by
  induction moves generalizing s with
  | nil =>
    cases Option.some.inj run
    exact ⟨nobody, nofun⟩
  | cons m moves ih =>
    rw [after?_cons, Option.bind_eq_some_iff] at run
    obtain ⟨u, made, rest⟩ := run
    obtain ⟨later, others⟩ := ih rest
    have before : s.started = 0 := Nat.le_zero.mp (later ▸ (stepped made).started_le)
    exact ⟨before, List.forall_mem_cons.mpr ⟨other_of_started before made, others⟩⟩

theorem Idle.untouched {moves : List Move} (idle : t.Idle) (run : after? step? s moves = some t) :
    Untouched s t moves where
  others := (others_of_run run idle.started).2
  store := store_of_run run (others_of_run run idle.started).2
  processing := idle.processing
  still m worker := still_of_started idle.started worker
  unready := by simp [Health.Board.readiness, idle.unready]

theorem Barrier.untouched {moves : List Move} (h : t.Barrier) (run : after? step? s moves = some t)
    (none : t.relists = []) : Untouched s t moves := by
  refine (h.idle ?_).untouched run
  apply Bool.eq_false_iff.mpr
  intro hires
  exact h.opens (hires_le_opens hires) none

theorem failed_listing (stage : s.system.stage = .listing) (unavailable : s.store.unavailable = true)
    (made : s.step? (.world .route) = some t) :
    t.system.stage = .resting ∧ t.cache = s.cache ∧ t.listed = s.listed ∧ t.relists = s.relists := by
  have answer : s.system.store.list = .error Store.outage := by simp [Store.list, unavailable]
  have rests : s.system.step? .route = some (s.system.rest Store.outage) := by
    simp only [System.step?, System.route?, stage, System.listMonitors, answer]
  have noted : s.note (s.system.rest Store.outage) =
      { s with system := s.system.rest Store.outage } := by
    simp only [note, stage]
    rfl
  simp only [step?, rests, Option.map_some, noted] at made
  split at made
  · cases Option.some.inj made
    exact ⟨rfl, rfl, rfl, rfl⟩
  · contradiction

/-- Workers wait for a listing, however often it fails and whatever stands in the queue. Before a
listing was taken in whole, no worker has moved or can move, so that nothing but what came from
outside was written. The cache is synced from the first listing on that was taken in whole, which is
when it has the monitors and the pods that this listing read; a listing that fails does nothing. When
the shutdown comes first, the controller ends with an error, the queue is shut down, the operator is
not ready, and no worker has moved. -/
theorem workers_wait_for_listing {σ τ : Type} (retention : Nat) (stamp : Recorder.Stamp)
    (parts : Operator.Parts σ τ) (workers : Nat) (unsynced : parts.cache.synced = false)
    (unready : parts.board.synced = false) (placed : parts.cache.Placed) (moves : List Move)
    (run : after? step? (start retention stamp parts workers) moves = some s) :
    (s.relists = [] → Untouched (start retention stamp parts workers) s moves) ∧
      (s.cache.synced = true ↔ s.relists ≠ []) ∧
      (∀ m t, s.step? m = some t → t.relists ≠ s.relists ∨ t.cache.synced ≠ s.cache.synced →
        Relisted s t) ∧
      (∀ t, s.system.stage = .listing → s.store.unavailable = true →
        s.step? (.world .route) = some t →
          t.system.stage = .resting ∧ t.cache = s.cache ∧ t.listed = s.listed ∧
            t.relists = s.relists) ∧
      (s.stage = .waiting → s.signalled = true →
        ∃ t, s.step? .abort = some t ∧ t.stage = .aborting) ∧
      (s.stage = .aborting →
        ∃ t, s.step? .supervise = some t ∧ t.stage = .finished (.error .cacheSyncAborted)) ∧
      (∀ cause, s.stage = .finished (.error cause) →
        cause = .cacheSyncAborted ∧ s.queue.shuttingDown = true ∧
          Untouched (start retention stamp parts workers) s moves) := by
  have barrier : s.Barrier := by
    apply after?_invariant (P := Barrier) ?_ moves ?_ run
    · intro t m u barrier made
      exact barrier.step made
    · exact .start retention stamp parts workers unsynced unready placed
  refine ⟨barrier.untouched run, barrier.recorded.synced, ?_, ?_, ?_, ?_, ?_⟩
  · intro m t made changed
    cases (barrier.recorded.step (stepped made)).2 with
    | relisted h => exact h
    | aside relists synced =>
      rcases changed with other | other
      · exact (other relists).elim
      · exact (other synced).elim
  · intro t stage unavailable made
    exact failed_listing stage unavailable made
  · intro stage signalled
    simp only [step?, stage, signalled, if_true]
    exact ⟨_, rfl, rfl⟩
  · intro stage
    simp only [step?, supervise?, stage]
    exact ⟨_, rfl, rfl⟩
  · intro cause stage
    obtain ⟨same, down⟩ := barrier.aborted cause stage
    have idle : s.Idle := barrier.idle (by rw [stage]; rfl)
    exact ⟨same, down, idle.untouched run⟩

theorem workers_wait_for_listing_of_shutdown : ∃ s,
    after? step? (start 0 ⟨"", ""⟩ ({} : Operator.Parts Unit Unit) 2)
      [.supervise, .add "a/b", .world .route, .world (.outside (.setUnavailable true)),
        .world .route, .signal, .abort, .supervise] = some s ∧
      s.system.stage = .resting ∧ s.queue.ready = ["a/b"] ∧ s.queue.shuttingDown = true ∧
      s.store = (Store.empty 0).after [.setUnavailable true] := by
  refine ⟨_, rfl, rfl, rfl, ?_⟩
  have aborted := (workers_wait_for_listing 0 ⟨"", ""⟩ ({} : Operator.Parts Unit Unit) 2 rfl rfl
    Cache.placed_empty [.supervise, .add "a/b", .world .route,
      .world (.outside (.setUnavailable true)), .world .route, .signal, .abort, .supervise]
    rfl).2.2.2.2.2.2 .cacheSyncAborted rfl
  exact ⟨aborted.2.1, aborted.2.2.store⟩

end Service

end MonitorOperator
