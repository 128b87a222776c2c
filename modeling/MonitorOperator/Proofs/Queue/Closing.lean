import MonitorOperator.Proofs.Queue.Signals

/-! A queue after its shutdown. Calls change nothing but the counts of failures and the keys that are
held, and these only by a release; consumers are dismissed, and none is served. -/

namespace MonitorOperator

namespace WorkQueue

/-- What a queue can have become since its shutdown. -/
structure Closed (q t : WorkQueue) : Prop where
  down : t.shuttingDown = true
  ready : t.ready = q.ready
  dirty : t.dirty = q.dirty
  waiting : t.waiting = ∅
  processing : ∀ key, t.processing.contains key = true → q.processing.contains key = true

theorem closed_shutdown (q : WorkQueue) : q.Closed q.shutdown := ⟨rfl, rfl, rfl, rfl, fun _ => id⟩

theorem Closed.refl {q : WorkQueue} (down : q.shuttingDown = true) (empty : q.waiting = ∅) :
    q.Closed q := ⟨down, rfl, rfl, empty, fun _ => id⟩

theorem Closed.trans {q t u : WorkQueue} (h : q.Closed t) (later : t.Closed u) : q.Closed u where
  down := later.down
  ready := later.ready.trans h.ready
  dirty := later.dirty.trans h.dirty
  waiting := later.waiting
  processing key held := h.processing key (later.processing key held)

inductive Idles (q t : WorkQueue) : Option String → Prop where
  | counted (backoff : Backoff) (queue : t = { q with backoff := backoff }) : Idles q t none
  | released (key : String) (queue : t = { q with processing := q.processing.erase key }) :
    Idles q t (some key)

theorem Idles.of_eq {q t : WorkQueue} (same : t = q) : q.Idles t none := .counted q.backoff same

theorem Closed.idles {q t u : WorkQueue} {released : Option String} (h : q.Closed t)
    (idles : t.Idles u released) : q.Closed u := by
  cases idles with
  | counted backoff queue =>
    subst queue
    exact ⟨h.down, h.ready, h.dirty, h.waiting, h.processing⟩
  | released key queue =>
    subst queue
    refine ⟨h.down, h.ready, h.dirty, h.waiting, fun other held => h.processing other ?_⟩
    rw [Table.contains_erase, Bool.and_eq_true] at held
    exact held.2

theorem add_down {q : WorkQueue} (down : q.shuttingDown = true) (key : String) : q.add key = q := by
  simp [add, down]

theorem done_down {q : WorkQueue} (down : q.shuttingDown = true) (key : String) :
    q.done key = { q with processing := q.processing.erase key } := by
  simp [done, down]

theorem addAfter_down {q : WorkQueue} (down : q.shuttingDown = true) (now : Moment) (key : String)
    (delay : Duration) : q.addAfter now key delay = (q, none) := by
  unfold addAfter
  split
  · rw [add_down down]
  · simp [down]

theorem addRateLimited_down {q : WorkQueue} (down : q.shuttingDown = true) (now : Moment)
    (key : String) :
    (q.addRateLimited now key).1 = { q with backoff := (q.backoff.fail key).1 } := by
  obtain ⟨_, _, fail, _, ⟨_, eq⟩ | ⟨⟨taking, _⟩, _⟩⟩ := q.addRateLimited_cases now key
  · rw [eq, fail]
  · rw [down] at taking
    contradiction

theorem shutdown_down {q : WorkQueue} (down : q.shuttingDown = true) (empty : q.waiting = ∅) :
    q.shutdown = q := by
  cases q
  cases down
  cases empty
  rfl

theorem take?_down {q : WorkQueue} (down : q.shuttingDown = true) : q.take? = none :=
  take?_eq_none.mpr (.inl down)

end WorkQueue

namespace Traffic

def Call.released? : Call → Option String
  | .done _ key => some key
  | _ => none

theorem step_idles {s t : Traffic} {c : Call} (down : s.queue.shuttingDown = true)
    (empty : s.queue.waiting = ∅) (step : s.step? c = some t) :
    s.queue.Idles t.queue c.released? := by
  cases c with
  | add key =>
    cases Option.some.inj step
    exact .of_eq (WorkQueue.add_down down key)
  | addAfter key delay =>
    cases Option.some.inj step
    exact .of_eq (congrArg (·.1) (WorkQueue.addAfter_down down s.now key delay))
  | addRateLimited key =>
    cases Option.some.inj step
    exact .counted _ (WorkQueue.addRateLimited_down down s.now key)
  | forget key =>
    cases Option.some.inj step
    exact .counted _ rfl
  | take worker =>
    simp only [step?, WorkQueue.take?_down down] at step
    contradiction
  | done worker key =>
    cases Option.some.inj step
    exact .released key (WorkQueue.done_down down key)
  | shutdown =>
    cases Option.some.inj step
    exact .of_eq (WorkQueue.shutdown_down down empty)
  | wait time =>
    cases Option.some.inj step
    exact .of_eq rfl
  | ring due key =>
    simp only [step?] at step
    split at step
    · cases Option.some.inj step
      have nothing : s.queue.release? key due = none := by simp [WorkQueue.release?, empty]
      refine .of_eq ?_
      simp only [ring, nothing]
    · contradiction
  | complete key =>
    simp only [step?] at step
    split at step
    · cases Option.some.inj step
      exact .of_eq (WorkQueue.add_down down key)
    · contradiction

end Traffic

def Consumer.visits : Consumer → Bool
  | .arriving => true
  | .looking _ => true
  | .blocked => true
  | _ => false

def Consumer.stays (c : Consumer) : Bool := c.visits || c.finished

namespace Lobby

def Move.released? : Move → Option String
  | .call c => c.released?
  | _ => none

/-- A move after the shutdown: the queue idles, and nobody is served. -/
theorem Turn.idles {s t : Lobby} {m : Move} (turn : Turn s m t)
    (down : s.traffic.queue.shuttingDown = true) (empty : s.traffic.queue.waiting = ∅) :
    s.traffic.queue.Idles t.traffic.queue m.released? := by
  cases turn with
  | called c traffic other step => exact Traffic.step_idles down empty step
  | served i passed was key queue taken =>
    rw [WorkQueue.take?_down down] at taken
    contradiction
  | _ => exact .of_eq rfl

theorem is_stays {s : Lobby} {i : Nat} (visits : s.is Consumer.visits i = true) :
    s.is Consumer.stays i = true := by
  obtain ⟨c, was, visits⟩ := is_iff.mp visits
  exact is_iff.mpr ⟨c, was, by rw [Consumer.stays, visits, Bool.true_or]⟩

theorem Turn.stays {s t : Lobby} {m : Move} {i : Nat} (turn : Turn s m t)
    (stays : s.is Consumer.stays i = true) (patient : m ≠ .giveUp i) :
    t.is Consumer.stays i = true := by
  have moved {j : Nat} {old new : Consumer} {u : Lobby} (was : s.consumers[j]? = some old)
      (consumers : u.consumers = s.consumers.set j new) (new_stays : new.stays = true) :
      u.is Consumer.stays i = true := by
    rw [is_set was consumers]
    split
    · exact new_stays
    · exact stays
  have left {j : Nat} {old new : Consumer} {u : Lobby} (was : s.consumers[j]? = some old)
      (consumers : u.consumers = s.consumers.set j new) (apart : i ≠ j) :
      u.is Consumer.stays i = true := by
    rw [is_set was consumers, if_neg apart]
    exact stays
  cases turn with
  | called c traffic other step => exact stays
  | signalled owed => exact stays
  | signalledAll closing => exact stays
  | came =>
    obtain ⟨c, was, stays⟩ := is_iff.mp stays
    refine is_iff.mpr ⟨c, ?_, stays⟩
    exact (List.getElem?_append_left (List.getElem?_eq_some_iff.mp was).1).trans was
  | passed j was permit => exact moved was rfl rfl
  | enrolled j was shut => exact moved was rfl rfl
  | dismissed j passed was down => exact moved was rfl rfl
  | served j passed was key queue taken => exact moved was rfl rfl
  | again j was empty => exact moved was rfl rfl
  | blocked j was taking empty => exact moved was rfl rfl
  | woke j was granted => exact moved was rfl rfl
  | left j member => exact stays
  | gaveUp j was => exact left was rfl fun same => patient (same ▸ rfl)
  | strayed j passed was => exact left was rfl fun same => patient (same ▸ rfl)

theorem Turn.served_before {s t : Lobby} {m : Move} {i : Nat} {key : String} (turn : Turn s m t)
    (down : s.traffic.queue.shuttingDown = true) (served : t.consumers[i]? = some (.served key)) :
    s.consumers[i]? = some (.served key) := by
  have given : ∀ {u : Lobby}, u.is (· == .served key) i = true ↔
      u.consumers[i]? = some (.served key) := by simp [is_iff]
  have moved {j : Nat} {old new : Consumer} {u : Lobby} (was : s.consumers[j]? = some old)
      (consumers : u.consumers = s.consumers.set j new)
      (after : u.consumers[i]? = some (.served key)) (other : new ≠ .served key) :
      s.consumers[i]? = some (.served key) := by
    have after := given.mpr after
    rw [is_set was consumers] at after
    split at after
    · exact (other (beq_iff_eq.mp after)).elim
    · exact given.mp after
  cases turn with
  | called c traffic other step => exact served
  | signalled owed => exact served
  | signalledAll closing => exact served
  | came =>
    have after := given.mpr served
    rw [is_came rfl rfl] at after
    exact given.mp after
  | passed j was permit => exact moved was rfl served nofun
  | enrolled j was shut => exact moved was rfl served nofun
  | dismissed j passed was down => exact moved was rfl served nofun
  | served j passed was other queue taken =>
    rw [WorkQueue.take?_down down] at taken
    contradiction
  | again j was empty => exact moved was rfl served nofun
  | blocked j was taking empty => exact moved was rfl served nofun
  | woke j was granted => exact moved was rfl served nofun
  | left j member => exact served
  | gaveUp j was => exact moved was rfl served nofun
  | strayed j passed was => exact moved was rfl served nofun

theorem effort_called {s : Lobby} {traffic : Traffic} {released : Option String}
    (down : s.traffic.queue.shuttingDown = true)
    (idles : s.traffic.queue.Idles traffic.queue released) :
    (s.update traffic).effort = s.effort := by
  have line : traffic.queue.length = s.traffic.queue.length := by
    cases idles with
    | counted backoff queue => rw [queue]; rfl
    | released key queue => rw [queue]; rfl
  simp only [effort, update, line, down, Nat.sub_self, Nat.add_zero, Bool.not_true, Bool.and_false,
    Bool.or_false]

theorem Sound.visits_down {s : Lobby} (sound : s.Sound) (quiet : s.Quiet)
    (down : s.traffic.queue.shuttingDown = true) (i : Nat) : s.is Consumer.visits i = false := by
  obtain ⟨_, closing, _, ungranted⟩ := quiet.rests sound.enrolled
  apply Bool.eq_false_iff.mpr
  intro visits
  obtain ⟨c, was, visits⟩ := is_iff.mp visits
  have still := quiet (.proceed i) rfl
  cases c with
  | blocked =>
    have waited : s.Waited := by
      have enrolled := sound.enrolled.waiting i (is_of was _)
      rw [Gate.visitors, ungranted, List.map_nil, List.append_nil] at enrolled
      exact ⟨i, enrolled, was⟩
    rw [sound.awake.closed down waited] at closing
    contradiction
  | arriving => simp [step?, was] at still
  | looking passed => simp [step?, was] at still
  | _ => contradiction

end Lobby

end MonitorOperator
