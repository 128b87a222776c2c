import MonitorOperator.Proofs.Cluster.Key
import MonitorOperator.Proofs.System.Upstream

/-! What every reachable state of the system has. A monitor is settled if it has nothing left to do,
or if its key will come to a worker without anyone's doing. One that is not settled is in the hands
of a worker, and that worker does not release its key before it is. -/

namespace MonitorOperator.System

inductive Pending (s : System) (text : String) : Prop where
  | dirty (h : s.queue.dirty.contains text = true)
  | waits (due : Moment) (h : s.queue.waiting.get? text = some due)
  | rung (h : text ∈ s.ringing)

/-- A monitor whose key a worker may release: nothing is left to do, or the key comes again. -/
def Settled (s : System) (key : Key) : Prop :=
  s.Quiet key ∨ s.Heralded key ∨ s.Pending key.text

/-- A worker may release the key in its hand. -/
def May (s : System) (worker : Nat) : Prop :=
  ∀ key : Key, key.WellFormed → s.held worker = some key.text → s.Settled key

/-- The queue hands out keys in their order, and what it holds to be in work is in one hand. -/
structure Orderly (s : System) : Prop where
  taking : s.queue.shuttingDown = false
  line : s.queue.InLine
  held : ∀ text, s.queue.processing.contains text = true ↔ ∃ worker, s.held worker = some text
  alone : ∀ worker other text, s.held worker = some text → s.held other = some text → worker = other

structure Sound (s : System) : Prop where
  plain : s.site.Plain
  keyed : s.store.Keyed
  reading : s.position ≤ s.store.feed.size
  orderly : s.Orderly
  minds : ∀ worker, (s.hands worker).Minds (s.May worker)
  settled : ∀ key : Key, key.WellFormed →
    s.Settled key ∨ s.queue.processing.contains key.text = true

variable {may : Nat → Prop} {s t : System}

theorem Orderly.congr (h : s.Orderly) (line : t.queue.InLine)
    (down : t.queue.shuttingDown = s.queue.shuttingDown)
    (processing : t.queue.processing = s.queue.processing) (held : t.held = s.held) :
    t.Orderly := by
  refine ⟨down.trans h.taking, line, ?_, ?_⟩
  · rw [processing, held]; exact h.held
  · rw [held]; exact h.alone

theorem Orderly.take {worker : Nat} {key : String} (h : s.Orderly)
    (queue : s.queue.take? = some (key, t.queue)) (free : s.held worker = none)
    (held : t.held = Function.update s.held worker (some key)) : t.Orderly := by
  have fresh := (h.line.free_of_take queue).2
  obtain ⟨_, rest, _, eq⟩ := WorkQueue.take?_eq_some.mp queue
  have nobody : ∀ other, s.held other ≠ some key := by
    intro other mine
    rw [(h.held key).mpr ⟨other, mine⟩] at fresh
    contradiction
  refine ⟨by rw [eq]; exact h.taking, h.line.take queue, fun text => ?_, ?_⟩
  · rw [eq, Table.contains_insert, Bool.or_eq_true, decide_eq_true_iff, h.held, held]
    constructor
    · rintro (rfl | ⟨other, mine⟩)
      · exact ⟨worker, Function.update_self ..⟩
      · have apart : other ≠ worker := fun same => by rw [same, free] at mine; contradiction
        exact ⟨other, by rwa [Function.update_of_ne apart]⟩
    · rintro ⟨other, mine⟩
      rw [Function.update_apply] at mine
      split at mine
      · exact .inl (Option.some.inj mine).symm
      · exact .inr ⟨other, mine⟩
  · intro one two text mine yours
    rw [held, Function.update_apply] at mine yours
    split at mine <;> split at yours
    · simp [*]
    · cases mine; exact (nobody two yours).elim
    · cases yours; exact (nobody one mine).elim
    · exact h.alone one two text mine yours

theorem Orderly.done {worker : Nat} {key : String} (h : s.Orderly)
    (queue : t.queue = s.queue.done key) (holds : s.held worker = some key)
    (held : t.held = Function.update s.held worker none) : t.Orderly := by
  have processed := (h.held key).mpr ⟨worker, holds⟩
  refine ⟨by rw [queue]; simpa using h.taking, queue ▸ h.line.done h.taking processed,
    fun text => ?_, ?_⟩
  · rw [queue, WorkQueue.done_processing, Table.contains_erase, held]
    constructor
    · intro remains
      have differ : text ≠ key := by simpa using (Bool.and_eq_true_iff.mp remains).1
      obtain ⟨other, mine⟩ := (h.held text).mp (Bool.and_eq_true_iff.mp remains).2
      have apart : other ≠ worker := fun same => by
        rw [same, holds] at mine
        exact differ (Option.some.inj mine).symm
      exact ⟨other, by rwa [Function.update_of_ne apart]⟩
    · rintro ⟨other, mine⟩
      rw [Function.update_apply] at mine
      split at mine
      · contradiction
      · rename_i apart
        have differ : text ≠ key := by
          intro same
          exact apart (h.alone other worker text mine (same ▸ holds))
        simp [differ, (h.held text).mpr ⟨other, mine⟩]
  · intro one two text mine yours
    rw [held, Function.update_apply] at mine yours
    split at mine <;> split at yours
    · contradiction
    · contradiction
    · contradiction
    · exact h.alone one two text mine yours

theorem Orderly.step (h : s.Orderly) (down : Downstream may s t) : t.Orderly := by
  cases down with
  | still queue _ held =>
    exact h.congr (h.line.congr queue.ready queue.dirty queue.processing) queue.shuttingDown
      queue.processing held
  | add key queue _ held =>
    exact h.congr (queue ▸ h.line.add key) (by rw [queue]; simp) (by rw [queue]; simp) held
  | waits key due queue _ _ held =>
    exact h.congr (h.line.congr queue.ready queue.dirty queue.processing) queue.shuttingDown
      queue.processing held
  | release key due _ queue _ held =>
    exact h.congr (queue ▸ h.line.congr rfl rfl rfl) (by rw [queue]) (by rw [queue]) held
  | take worker key queue _ free held => exact h.take queue free held
  | done worker key queue _ _ holds held => exact h.done queue holds held

theorem Pending.step {text : String} (h : s.Pending text) (orderly : s.Orderly)
    (down : Downstream may s t) :
    t.Pending text ∨ s.queue.processing.contains text = false ∧
      t.queue.processing.contains text = true := by
  cases down with
  | still queue ringing _ =>
    cases h with
    | dirty h => exact .inl (.dirty (queue.dirty ▸ h))
    | waits due h => exact .inl (.waits due (queue.waiting ▸ h))
    | rung h => exact .inl (.rung (ringing ▸ h))
  | add key queue ringing _ =>
    cases h with
    | dirty h =>
      exact .inl (.dirty (by rw [queue, WorkQueue.dirty_add orderly.taking, h, Bool.or_true]))
    | waits due h => exact .inl (.waits due (by rw [queue, WorkQueue.add_waiting]; exact h))
    | rung h =>
      rcases ringing text h with rfl | still
      · exact .inl (.dirty (by rw [queue, WorkQueue.dirty_add orderly.taking]; simp))
      · exact .inl (.rung still)
  | waits key due queue _ ringing _ =>
    cases h with
    | dirty h => exact .inl (.dirty (queue.dirty ▸ h))
    | waits moment h =>
      -- the moment may be another one from now on, but there is one
      by_cases same : text = key
      · exact .inl (.waits due (by rw [queue.waiting, Table.get?_insert, if_pos same]))
      · exact .inl (.waits moment (by rw [queue.waiting, Table.get?_insert, if_neg same]; exact h))
    | rung h => exact .inl (.rung (ringing ▸ h))
  | release key due _ queue ringing _ =>
    cases h with
    | dirty h => exact .inl (.dirty (by rw [queue]; exact h))
    | waits moment h =>
      by_cases same : text = key
      · exact .inl (.rung (by rw [ringing, same]; exact List.mem_cons_self ..))
      · exact .inl (.waits moment (by rw [queue, Table.get?_erase, if_neg same]; exact h))
    | rung h => exact .inl (.rung (by rw [ringing]; exact List.mem_cons_of_mem _ h))
  | take worker key queue ringing _ _ =>
    obtain ⟨_, rest, _, eq⟩ := WorkQueue.take?_eq_some.mp queue
    by_cases same : text = key
    · refine .inr ⟨same ▸ (orderly.line.free_of_take queue).2, ?_⟩
      rw [eq, Table.contains_insert, same]; simp
    · cases h with
      | dirty h => exact .inl (.dirty (by rw [eq, Table.contains_erase]; simp [same, h]))
      | waits due h => exact .inl (.waits due (by rw [eq]; exact h))
      | rung h => exact .inl (.rung (ringing ▸ h))
  | done worker key queue ringing _ _ _ =>
    cases h with
    | dirty h => exact .inl (.dirty (by rw [queue, WorkQueue.done_dirty]; exact h))
    | waits due h => exact .inl (.waits due (by rw [queue, WorkQueue.done_waiting]; exact h))
    | rung h => exact .inl (.rung (ringing ▸ h))

theorem pending_add {text : String} (taking : s.queue.shuttingDown = false)
    (queue : t.queue = s.queue.add text) : t.Pending text :=
  .dirty (by rw [queue, WorkQueue.dirty_add taking]; simp)

theorem Settled.step {key : Key} (h : s.Settled key) (orderly : s.Orderly)
    (reading : s.position ≤ s.store.feed.size) (up : Upstream s t) (down : Downstream may s t) :
    t.Settled key ∨ s.queue.processing.contains key.text = false ∧
      t.queue.processing.contains key.text = true := by
  have upstream : s.Quiet key ∨ s.Heralded key → t.Settled key := by
    intro before
    rcases up.heralded reading before with quiet | heralded | added
    · exact .inl quiet
    · exact .inr (.inl heralded)
    · exact .inr (.inr (pending_add orderly.taking added))
  rcases h with quiet | heralded | pending
  · exact .inl (upstream (.inl quiet))
  · exact .inl (upstream (.inr heralded))
  · exact (pending.step orderly down).imp_left fun pending => .inr (.inr pending)

theorem settled_of_released {key : Key} (down : Downstream s.May s t)
    (named : key.WellFormed) (processed : s.queue.processing.contains key.text = true)
    (released : t.queue.processing.contains key.text = false) : s.Settled key := by
  cases down with
  | still queue _ _ => rw [queue.processing, processed] at released; contradiction
  | add other queue _ _ =>
    rw [queue, WorkQueue.add_processing, processed] at released; contradiction
  | waits other due queue _ _ _ => rw [queue.processing, processed] at released; contradiction
  | release other due _ queue _ _ => rw [queue, processed] at released; contradiction
  | take worker other queue _ _ _ =>
    obtain ⟨_, rest, _, eq⟩ := WorkQueue.take?_eq_some.mp queue
    rw [eq, Table.contains_insert, processed, Bool.or_true] at released
    contradiction
  | done worker other queue _ may holds _ =>
    rw [queue, WorkQueue.done_processing, Table.contains_erase, processed, Bool.and_true]
      at released
    have same : key.text = other := by simpa using released
    exact may key named (same ▸ holds)

theorem pending_of_delayed {text : String} {q : WorkQueue} {alarm : Option Moment}
    (taking : s.queue.shuttingDown = false) (answer : s.queue.Delayed text q alarm)
    (queue : t.queue = q) : t.Pending text := by
  cases answer with
  | added => exact pending_add taking queue
  | kept there alike =>
    have kept : s.queue.waiting.contains text = true := there.resolve_left (by simp [taking])
    obtain ⟨due, waits⟩ := Option.isSome_iff_exists.mp kept
    exact .waits due (by rw [queue, alike.waiting]; exact waits)
  | waits due alike =>
    exact .waits due (by rw [queue, alike.waiting, Table.get?_insert, if_pos rfl])

theorem eq_of_parse {key other : Key} (named : key.WellFormed)
    (parsed : Key.parse key.text = .ok other) : other = key := by
  rw [Key.parse_text named] at parsed
  exact (Except.ok.inj parsed).symm

theorem quiet_of_read {key other : Key} (named : key.WellFormed) (store : t.store = s.store)
    (learns : Worker.Learns key.text (.pass (.getMonitor other)) (s.store.getMonitor other)) :
    t.Quiet key := by
  intro m found
  rw [store] at found
  cases result : s.store.getMonitor other with
  | ok read =>
    rw [result] at learns
    obtain ⟨parsed, completed⟩ := learns
    cases eq_of_parse named parsed
    have stored := (Store.getMonitor_eq_ok.mp result).2
    cases Option.some.inj (stored.symm.trans found)
    exact completed
  | error e =>
    rw [result] at learns
    obtain ⟨parsed, missing⟩ := learns
    cases eq_of_parse named parsed
    rw [Store.absent_of_getMonitor result missing] at found
    contradiction

theorem heralded_of_written {key : Key} {m : Monitor} (h : s.Sound) (named : key.WellFormed)
    (store : t.store = (s.store.updateStatus m).1) (position : t.position = s.position)
    (learns : Worker.Learns key.text (.pass (.updateStatus m)) (s.store.updateStatus m).2) :
    t.Heralded key := by
  cases result : (s.store.updateStatus m).2 with
  | error e =>
    rw [result] at learns
    exact learns.elim
  | ok written =>
    rw [result] at learns
    have effect := Store.updateStatus_effect h.keyed m
    rw [result, ← store] at effect
    obtain ⟨c, there, wakes⟩ := effect.wakes
    obtain ⟨_, stored, found, _, eq⟩ := Store.updateStatus_eq_ok.mp result
    have name : written.key = key := by
      rw [← eq_of_parse named learns, ← h.keyed.monitors m.key stored found, eq]; rfl
    exact .unread _ c (position ▸ h.reading) there (name ▸ wakes)

/-- A worker that learns that it may release a key is right: by now the monitor is settled. -/
theorem settled_of_learns {key : Key} {c : Worker.Call} (h : s.Sound) (named : key.WellFormed)
    (learns : Worker.Learns key.text c (Deployment.reply c s.site).2)
    (stands : Deployment.fails c s.site = false)
    (site : t.site = (Deployment.reply c s.site).1) (position : t.position = s.position) :
    t.Settled key := by
  cases c with
  | pass c =>
    cases c with
    | getMonitor other =>
      obtain ⟨drill, answer⟩ := Deployment.reply_getMonitor h.plain other
      have store : t.store = s.store := by rw [System.store, site, drill]
      rw [answer] at learns
      exact .inl (quiet_of_read named store learns)
    | updateStatus m =>
      obtain ⟨store, answer⟩ := Deployment.reply_updateStatus h.plain m
      rw [answer] at learns
      rw [← site] at store
      exact .inr (.inl (heralded_of_written h named store position learns))
    | _ => exact learns.elim
  | addAfter other delay =>
    cases learns
    refine .inr (.inr (pending_of_delayed h.orderly.taking
      (s.queue.addAfter_delayed key.text stands) ?_))
    rw [System.queue, site]
    exact s.site.setAlarm_queue _ _ _
  | addRateLimited other =>
    cases learns
    refine .inr (.inr (pending_of_delayed h.orderly.taking
      (s.queue.addRateLimited_delayed stands) ?_))
    rw [System.queue, site]
    exact s.site.setAlarm_queue _ _ _
  | _ => exact learns.elim

theorem Hand.Minds.weaken {hand : Hand} {known more : Prop} (minds : hand.Minds known)
    (h : known → more) : hand.Minds more := by
  cases hand with
  | free => trivial
  | fallen held => trivial
  | working held rest =>
    cases held with
    | none => exact minds
    | some text => exact Worker.Minds.weaken h minds

theorem Hand.Minds.call {held : Option String} {c : Worker.Call}
    {next : Worker.Reply c → Worker.Steps Unit} {known : Prop} {r : Worker.Reply c}
    (minds : (Hand.working held (.call c next)).Minds known) (keeps : c.isDone = false)
    (faithful : Worker.Faithful c r) :
    (Hand.working held (next r)).Minds
      (known ∨ ∃ text, held = some text ∧ Worker.Learns text c r) := by
  cases held with
  | none =>
    obtain ⟨text, _, later⟩ := minds
    exact ⟨text, later r faithful⟩
  | some text =>
    have later := minds.2 r faithful
    simp only [Worker.Grip.after, keeps, Bool.false_eq_true, if_false] at later
    exact Worker.Minds.weaken (Or.imp_right fun learns => ⟨text, rfl, learns⟩) later

theorem May.step {worker : Nat} (may : s.May worker) (h : s.Sound) (up : Upstream s t)
    (down : Downstream s.May s t) (held : t.held worker = s.held worker) : t.May worker := by
  intro key named holds
  rw [held] at holds
  rcases (may key named holds).step h.orderly h.reading up down with settled | ⟨free, _⟩
  · exact settled
  · rw [(h.orderly.held key.text).mpr ⟨worker, holds⟩] at free
    contradiction

theorem minds_took {worker : Nat} {text : String} {d : Pass.Delays} {template : Child.Template}
    (after : t.hands worker = .working (some text) (Worker.serve d template text)) :
    (t.hands worker).Minds (t.May worker) := by
  rw [after]
  have fresh := Worker.serve_minds text d template
  refine Worker.Minds.weaken (fun nothing key named holds => ?_) fresh
  cases Option.some.inj ((held_eq after).symm.trans holds)
  exact (nothing key (Key.parse_text named)).elim

theorem minds_called {worker : Nat} {held : Option String} {c : Worker.Call}
    {next : Worker.Reply c → Worker.Steps Unit} (h : s.Sound) (up : Upstream s t)
    (down : Downstream s.May s t) (busy : s.hands worker = .working held (.call c next))
    (stands : Deployment.fails c s.site = false)
    (after : t.hands worker = .working (heldAfter held c) (next (Deployment.reply c s.site).2))
    (site : t.site = (Deployment.reply c s.site).1) (position : t.position = s.position) :
    (t.hands worker).Minds (t.May worker) := by
  have minds := h.minds worker
  have faithful := Deployment.reply_faithful h.plain h.keyed c
  have holds := held_eq busy
  rw [busy] at minds
  cases keeps : c.isDone with
  | true =>
    cases c with
    | done key =>
      cases held with
      | none => exact after ▸ minds.imp fun text minds => minds.2 () trivial
      | some text => exact after ▸ ⟨text, minds.2 () trivial⟩
    | _ => contradiction
  | false =>
    rw [heldAfter_keeps keeps] at after
    rw [after]
    refine (minds.call keeps faithful).weaken ?_
    rintro (may | ⟨text, rfl, learns⟩)
    · exact May.step may h up down ((held_eq after).trans holds.symm)
    · intro key named again
      cases Option.some.inj ((held_eq after).symm.trans again)
      exact settled_of_learns h named learns stands site position

theorem Stepped.minds {move : Move} (step : Stepped s move t) (h : s.Sound) (up : Upstream s t)
    (down : Downstream s.May s t) (worker : Nat) : (t.hands worker).Minds (t.May worker) := by
  -- a worker that does not move keeps its hand, but what it may do must outlast the step
  have still : t.hands worker = s.hands worker → (t.hands worker).Minds (t.May worker) := by
    intro same
    have held : t.held worker = s.held worker := congrArg Hand.held same
    rw [same]
    exact (h.minds worker).weaken fun may => May.step may h up down held
  cases step with
  | routed _ routed => exact still (congrFun routed.hands worker)
  | rang due alarm _ _ => exact still (congrFun (s.ring_cases due alarm).2.2.1 worker)
  | took mover text queue _ _ =>
    by_cases mine : worker = mover
    · subst mine
      exact minds_took (hands_hand ..)
    · exact still (hands_hand_of_ne mine _ _)
  | ended mover held _ =>
    by_cases mine : worker = mover
    · subst mine
      rw [hands_hand]
      trivial
    · exact still (hands_hand_of_ne mine _ _)
  | called mover held c next busy stands =>
    by_cases mine : worker = mover
    · subst mine
      exact minds_called h up down busy stands (hands_hand ..) rfl rfl
    · exact still (hands_hand_of_ne mine _ _)
  | fell mover held c next _ _ =>
    by_cases mine : worker = mover
    · subst mine
      rw [hands_hand]
      trivial
    · exact still (hands_hand_of_ne mine _ _)
  | _ => exact still rfl

theorem Sound.start {σ τ : Type} (retention : Nat) (stamp : Recorder.Stamp)
    (parts : Operator.Parts σ τ) : (start retention stamp parts).Sound where
  plain := rfl
  keyed := ⟨fun _ _ found => (nomatch found), fun _ _ found => (nomatch found)⟩
  reading := Nat.le_refl _
  orderly := by
    refine ⟨rfl, .new _ _, fun text => ⟨fun held => (nomatch held), ?_⟩,
      fun worker other text mine => ?_⟩
    · rintro ⟨worker, holds⟩
      exact nomatch holds
    · exact nomatch mine
  minds _ := trivial
  settled _ _ := .inl (.inl fun _ found => nomatch found)

theorem Sound.step {move : Move} (h : s.Sound) (step : Stepped s move t) : t.Sound := by
  obtain ⟨plain, up⟩ := step.upstream h.plain h.keyed h.reading
  have down := step.downstream h.minds
  refine ⟨plain, up.keyed h.keyed, up.reading h.reading, h.orderly.step down,
    step.minds h up down, fun key named => ?_⟩
  rcases h.settled key named with settled | processed
  · exact (settled.step h.orderly h.reading up down).imp_right fun taken => taken.2
  · cases after : t.queue.processing.contains key.text with
    | true => exact .inr rfl
    | false =>
      -- its worker knew that it was settled, and it stays so, for nobody took it since
      have settled := settled_of_released down named processed after
      refine .inl ((settled.step h.orderly h.reading up down).resolve_right ?_)
      simp [after]

theorem sound_of_run {σ τ : Type} {retention : Nat} {stamp : Recorder.Stamp}
    {parts : Operator.Parts σ τ} {moves : List Move} {s : System}
    (run : after? step? (start retention stamp parts) moves = some s) : s.Sound :=
  after?_invariant (fun _ _ _ sound step => sound.step (stepped step)) moves
    (.start retention stamp parts) run

end MonitorOperator.System
