import MonitorOperator.Proofs.System.Falls
import MonitorOperator.Proofs.System.Following

/-! The bookkeeping of workers over whole runs. Main statement: at any time, and whatever came
before, the queue knows how often each key failed, a key that failed comes to a worker again, every
delivery of a key is followed by one release, which leaves the key due by the time that was asked
for, and the health of the store is the last result that was told. This is so but for the keys of
workers that fell at a request beyond the end of the clock: those are never released. -/

namespace MonitorOperator.System

inductive Tended (s : System) (text : String) : Prop where
  | queued (h : text ∈ s.queue.ready)
  | deferred (dirty : s.queue.dirty.contains text = true) (worker : Nat)
      (works : s.WorksOn worker text)
  | processed (worker : Nat) (works : s.WorksOn worker text)
  | waiting (due : Moment) (waits : s.queue.waiting.get? text = some due)
      (alarm : (due, .add text) ∈ s.alarms)
  | rung (h : text ∈ s.ringing)

namespace Ledger

variable {l l' : Ledger} {first : Option Health.Status} {worker : Nat} {task : Task}

/-- A worker is about to release its key. It did with the result of the pass what there is to do,
and once the key is released it comes back by the time that was asked for. -/
structure Releases (l : Ledger) (worker : Nat) (task : Task) : Prop where
  accounted : Task.Accounted task.result task.asked task.told
  released : ∃ l', l.step? (.work worker) = some l' ∧
    l'.history = .released worker task.key :: l.history ∧
    ∀ moment delay, task.asked = some (moment, delay) →
      l'.queue.Due l'.rung task.key (moment + delay.nanos)

/-- What a ledger sums up of a run that began with some health of the store. -/
structure Sums (first : Option Health.Status) (l : Ledger) : Prop where
  /-- the workers and the alarms of the ledger are those of the system -/
  hands : l.system.hands = l.hand
  ringing : l.system.ringing = l.rung.map (·.1)
  alarmed : l.system.Alarmed
  /-- the queue counts the failures of a key since a pass on it ended otherwise and since its monitor
  was deleted -/
  attempts : ∀ key, l.queue.attempts key = min (failures key l.history) Backoff.maxFailures
  tended : ∀ key, 0 < l.queue.attempts key →
    (∀ worker, l.system.hands worker ≠ .fallen (some key)) → l.system.Tended key
  /-- as many releases as deliveries, but for the key in hand -/
  handed : ∀ worker key, l.history.count (.delivered worker key) =
    l.history.count (.released worker key) + if l.system.held worker = some key then 1 else 0
  /-- a worker that holds a key can always go on until it falls, and releases the key within twenty
  calls -/
  prompt : ∀ worker task key, l.tasks worker = some task → task.held = some key →
    task.fallen = false → task.calls < 20 ∧ ∃ l', l.step? (.work worker) = some l'
  releases : ∀ worker task, l.tasks worker = some task → task.fallen = false →
    task.duty = .releasing → l.Releases worker task
  /-- a worker falls at a request beyond the end of the clock, and its key is lost -/
  falls : ∀ move t worker held, l.system.step? move = some t → t.hands worker = .fallen held →
    l.system.hands worker = .fallen held ∨ ∃ c more,
      l.system.hands worker = .working held (.call c more) ∧ Deployment.fails c l.site = true
  lost : ∀ worker key, l.system.hands worker = .fallen (some key) →
    ∀ moves t, after? System.step? l.system moves = some t → t.Lost key
  health : l.board.status? Health.storeComponent = some .degraded ↔
    (∃ cause, lastTold l.history = some (.error (.store cause))) ∨
      lastTold l.history = none ∧ first = some .degraded

structure Kept (first : Option Health.Status) (l : Ledger) : Prop where
  sound : l.system.Sound
  alarmed : l.system.Alarmed
  faithful : l.Faithful
  balanced : l.books.Balanced first

theorem Faithful.held (h : l.Faithful) : l.books.held = l.system.held := by
  funext worker
  rw [System.held, h.hands, hand, Books.held]
  cases mine : l.tasks worker with
  | none =>
    have idle : l.books.tasks worker = none := mine
    rw [idle]
    rfl
  | some task =>
    have busy : l.books.tasks worker = some task := mine
    rw [busy, Task.hand]
    split <;> rfl

theorem Faithful.orderly (h : l.Faithful) (orderly : l.system.Orderly) : l.books.Orderly where
  taking := orderly.taking
  line := orderly.line
  holds worker key holds := (orderly.held key).mpr ⟨worker, h.held ▸ holds⟩
  alone worker other key mine yours :=
    orderly.alone worker other key (h.held ▸ mine) (h.held ▸ yours)

theorem Kept.start {σ τ : Type} (retention : Nat) (stamp : Recorder.Stamp)
    (parts : Operator.Parts σ τ) :
    (start retention stamp parts).Kept (parts.board.status? Health.storeComponent) where
  sound := .start retention stamp parts
  alarmed := .start retention stamp parts
  faithful := ⟨rfl, rfl, fun worker task mine => by contradiction⟩
  balanced := {
    counted := fun key => rfl
    handed := fun worker key => rfl
    told := ⟨rfl, fun cause last => by contradiction⟩
    minded := fun worker task key mine => by contradiction
    tended := fun key failed => absurd failed (Nat.lt_irrefl 0) }

theorem Kept.step {move : Move} (h : l.Kept first) (step : l.step? move = some l') :
    l'.Kept first := by
  obtain ⟨faithful, mover, turn⟩ := h.faithful.step step
  have balanced := h.balanced.turn turn (h.faithful.orderly h.sound.orderly)
  obtain ⟨t, moved, rfl⟩ := step?_eq_some.mp step
  have stepped := stepped moved
  have down := stepped.downstream h.sound.minds
  exact ⟨h.sound.step stepped, h.alarmed.step down stepped, faithful, balanced⟩

theorem Kept.tended (h : l.Kept first) {key : String} (failed : 0 < l.queue.attempts key)
    (stand : ∀ worker, l.system.hands worker ≠ .fallen (some key)) : l.system.Tended key := by
  rcases h.balanced.tended key failed with ⟨limit, due⟩ | processed
  · cases due with
    | dirty dirty =>
      cases processed : l.queue.processing.contains key with
      | true =>
        obtain ⟨worker, holds⟩ := (h.sound.orderly.held key).mp processed
        exact .deferred dirty worker (worksOn_of_held holds (stand worker))
      | false => exact .queued ((h.sound.orderly.line.standing key).mpr ⟨dirty, processed⟩)
    | waits due waits early => exact .waiting due waits (h.alarmed.waits key due waits)
    | rung due rung early =>
      refine .rung ?_
      rw [h.faithful.ringing]
      exact List.mem_map_of_mem rung
  · obtain ⟨worker, holds⟩ := (h.sound.orderly.held key).mp processed
    exact .processed worker (worksOn_of_held holds (stand worker))

theorem Faithful.busy (h : l.Faithful) (mine : l.tasks worker = some task)
    (standing : task.fallen = false) :
    l.system.hands worker = .working task.held task.rest := by
  rw [h.hands, hand, mine, Task.hand, standing]
  rfl

theorem Faithful.step_of_call (h : l.Faithful) {c : Worker.Call}
    {more : Worker.Reply c → Worker.Steps Unit} (mine : l.tasks worker = some task)
    (standing : task.fallen = false) (rest : task.rest = .call c more)
    (stands : Deployment.fails c l.site = false) :
    ∃ l', l.step? (.work worker) = some l' ∧ l'.site = (Deployment.reply c l.site).1 ∧
      l'.rung = l.rung ∧ l'.history = (task.entry? worker).toList ++ l.history := by
  have busy := h.busy mine standing
  rw [rest] at busy
  have step : l.system.step? (.work worker) =
      some ({ l.system with site := (Deployment.reply c l.site).1 }.hand worker
        (.working (heldAfter task.held c) (more (Deployment.reply c l.site).2))) := by
    simp only [System.step?, work?, busy, stands, Bool.false_eq_true, if_false]
  refine ⟨_, step?_eq_some.mpr ⟨_, step, rfl⟩, rfl, ?_, ?_⟩
  · simp only [note, noteWork_of_call mine rest stands]
    rfl
  · simp only [note, noteWork_of_call mine rest stands]
    rfl

theorem Kept.prompt (h : l.Kept first) {key : String} (mine : l.tasks worker = some task)
    (holds : task.held = some key) (standing : task.fallen = false) :
    task.calls < 20 ∧ ∃ l', l.step? (.work worker) = some l' := by
  cases rest : task.rest with
  | finish result =>
    have ended := Duty.eq_ended rest
    rw [Task.held, ended] at holds
    contradiction
  | call c more =>
    have busy := h.faithful.busy mine standing
    rw [rest] at busy
    refine ⟨(h.faithful.tasks worker task mine standing).2.calls_lt rest, ?_⟩
    simp only [step?, System.step?, work?, busy]
    split <;> exact ⟨_, rfl⟩

theorem Kept.releases (h : l.Kept first) (mine : l.tasks worker = some task)
    (standing : task.fallen = false) (duty : task.duty = .releasing) :
    l.Releases worker task := by
  have fits := (h.faithful.tasks worker task mine standing).1
  rw [Task.Fits, duty] at fits
  have holds : task.held = some task.key := by rw [Task.held, duty]
  have rest : task.rest = .call (.done task.key) fun _ => Worker.tell .showDepth := by
    rw [Task.rest, duty]
    rfl
  obtain ⟨l', step, site, rung, history⟩ := h.faithful.step_of_call mine standing rest rfl
  rw [Task.entry?, duty] at history
  refine ⟨fits, l', step, history, fun moment delay asked => ?_⟩
  have due := (h.balanced.minded worker task task.key mine holds).due moment delay asked
  have queue : l'.queue = l.queue.done task.key := by
    change l'.site.operator.queue = _
    rw [site]
    rfl
  rw [queue, rung]
  exact due.congr (WorkQueue.done_dirty ..) (WorkQueue.done_waiting ..)

theorem Kept.health (h : l.Kept first) :
    l.board.status? Health.storeComponent = some .degraded ↔
      (∃ cause, lastTold l.history = some (.error (.store cause))) ∨
        lastTold l.history = none ∧ first = some .degraded := by
  have status : l.board.status? Health.storeComponent =
      (lastTold l.history).elim first fun result => some (standing result) :=
    h.balanced.told.status
  have stored : ∀ cause, lastTold l.history = some (.error cause) → ∃ e, cause = .store e :=
    h.balanced.told.stored
  rw [status]
  cases last : lastTold l.history with
  | none => simp
  | some result =>
    cases result with
    | ok action => simp [standing]
    | error cause =>
      obtain ⟨e, rfl⟩ := stored cause last
      simp [standing]

theorem Kept.sums (h : l.Kept first) : l.Sums first where
  hands := h.faithful.hands
  ringing := h.faithful.ringing
  alarmed := h.alarmed
  attempts := h.balanced.counted
  tended key failed stand := h.tended failed stand
  handed worker key := by
    rw [← h.faithful.held]
    exact h.balanced.handed worker key
  prompt worker task key mine holds standing := h.prompt mine holds standing
  releases worker task mine standing duty := h.releases mine standing duty
  falls move t worker held step fallen := (stepped step).fails_of_fallen fallen
  lost worker key fallen moves t run := lost_of_fallen h.sound fallen run
  health := h.health

end Ledger

/-- In every run, of whatever moves and in whatever order, the ledger that is kept of it sums up. -/
theorem worker_books_balance {σ τ : Type} (retention : Nat) (stamp : Recorder.Stamp)
    (parts : Operator.Parts σ τ) (moves : List Move) (s : System)
    (run : after? step? (start retention stamp parts) moves = some s) :
    ∃ l, after? Ledger.step? (Ledger.start retention stamp parts) moves = some l ∧ l.system = s ∧
      l.Sums (parts.board.status? Health.storeComponent) := by
  obtain ⟨l, kept, same⟩ := Ledger.exists_of_run (l := .start retention stamp parts) run
  refine ⟨l, kept, same, Ledger.Kept.sums ?_⟩
  exact after?_invariant (fun l move l' => .step) moves (.start retention stamp parts) kept

theorem worker_books_balance_on_failure :
    let moves : List Move := [.outside (.apply { metadata := { ns := "a", name := "x" } }), .route,
      .route, .route, .route, .route, .route, .outside (.setUnavailable true), .take 0] ++
      List.replicate 11 (.work 0)
    ∃ s, after? step? (start 10 ⟨"0", ""⟩ ({} : Operator.Parts Unit Unit)) moves = some s ∧
      s.queue.attempts "a/x" = 1 ∧ s.queue.waiting.get? "a/x" = some 5000000 ∧
      s.held 0 = some "a/x" ∧
      s.site.operator.board.status? Health.storeComponent = some .degraded ∧
      ∃ l, after? Ledger.step? (.start 10 ⟨"0", ""⟩ ({} : Operator.Parts Unit Unit)) moves =
        some l ∧ l.system = s ∧ l.Sums none := by
  intro moves
  have h := worker_books_balance 10 ⟨"0", ""⟩ ({} : Operator.Parts Unit Unit) moves _ rfl
  exact ⟨_, rfl, rfl, rfl, rfl, rfl, h⟩

/-- A key that was delivered is never released, and nothing was asked for on its behalf. -/
theorem unreleased_by_fallen_worker : ∃ s,
    after? step? (start 10 ⟨"0", ""⟩ overlongParts) overlongMoves = some s ∧
      s.held 0 = some "a/x" ∧ s.queue.dirty.contains "a/x" = false ∧
      s.queue.waiting.get? "a/x" = none ∧ s.ringing = [] ∧
      ∀ moves t, after? step? s moves = some t → t.queue.processing.contains "a/x" = true := by
  obtain ⟨s, m, run, _, _, fallen, _, dirty, waiting, ringing, _⟩ := falls_at_resync
  refine ⟨s, run, ?_, ?_, ?_, ringing, fun moves t later => ?_⟩
  · rw [System.held, fallen, Hand.held]
  · rw [dirty]
    rfl
  · rw [waiting]
    rfl
  · exact (lost_of_fallen (sound_of_run run) fallen later).processed

end MonitorOperator.System
