import MonitorOperator.Proofs.Queue.Coalescing
import MonitorOperator.Proofs.Queue.Deadlines

/-! How often a key comes back by itself. However many delayed requests are made for a key, one of
them is pending at a time, and what is asked for after an alarm lies a whole delay behind it. Main
statement: where no request asks for less than an interval, alarms release a key at most once in an
interval, and it is delivered no oftener than it was added at once and released so. -/

namespace MonitorOperator.Traffic

def delay? (s : Traffic) (key : String) : Call → Option Duration
  | .addAfter other delay => if other = key then some delay else none
  | .addRateLimited other => if other = key then some (s.queue.backoff.fail other).2 else none
  | _ => none

theorem waiting_later (s : Traffic) {q : WorkQueue} (same : q.waiting = s.queue.waiting)
    (other : String) (delay : Duration) {key : String} {ready : Moment}
    (found : (q.addAfter s.now other delay).1.waiting.get? key = some ready) :
    s.queue.waiting.get? key = some ready ∨
      other = key ∧ delay.isZero = false ∧ WorkQueue.isBeyond s.now delay = false ∧
        ready = s.now + delay.nanos := by
  obtain ⟨_, eq⟩ | ⟨positive, ⟨_, eq⟩ | ⟨⟨_, fits⟩, eq⟩⟩ := q.addAfter_cases s.now other delay
  · rw [eq, WorkQueue.add_waiting, same] at found
    exact .inl found
  · rw [eq, same] at found
    exact .inl found
  · rw [eq] at found
    simp only [Table.get?_insert, same] at found
    split at found
    · rename_i mine
      exact .inr ⟨mine.symm, positive, fits, (Option.some.inj found).symm⟩
    · exact .inl found

theorem waiting_step {s t : Traffic} {c : Call} (step : s.step? c = some t) {key : String}
    {ready : Moment} (found : t.queue.waiting.get? key = some ready) :
    s.queue.waiting.get? key = some ready ∨
      ∃ delay, s.delay? key c = some delay ∧ delay.isZero = false ∧
        WorkQueue.isBeyond s.now delay = false ∧ ready = s.now + delay.nanos := by
  cases c with
  | add other =>
    cases Option.some.inj step
    exact .inl (s.queue.add_waiting other ▸ found)
  | addAfter other delay =>
    cases Option.some.inj step
    refine (s.waiting_later rfl other delay found).imp_right ?_
    rintro ⟨mine, asked⟩
    exact ⟨delay, if_pos mine, asked⟩
  | addRateLimited other =>
    cases Option.some.inj step
    refine (s.waiting_later (q := { s.queue with backoff := (s.queue.backoff.fail other).1 }) rfl
      other (s.queue.backoff.fail other).2 found).imp_right ?_
    rintro ⟨mine, asked⟩
    exact ⟨_, if_pos mine, asked⟩
  | take worker =>
    simp only [step?] at step
    split at step
    · contradiction
    · rename_i taken
      obtain ⟨_, _, _, rfl⟩ := WorkQueue.take?_eq_some.mp taken
      cases Option.some.inj step
      exact .inl found
  | done worker other =>
    cases Option.some.inj step
    exact .inl (s.queue.done_waiting other ▸ found)
  | shutdown =>
    cases Option.some.inj step
    contradiction
  | ring due other =>
    simp only [step?] at step
    split at step
    · cases Option.some.inj step
      simp only [ring] at found
      split at found
      · exact .inl found
      · rename_i released
        obtain ⟨_, rfl⟩ := WorkQueue.release?_eq_some.mp released
        rw [Table.get?_erase] at found
        split at found
        · contradiction
        · exact .inl found
    · contradiction
  | complete other =>
    simp only [step?] at step
    split at step
    · cases Option.some.inj step
      exact .inl (s.queue.add_waiting other ▸ found)
    · contradiction
  | _ =>
    cases Option.some.inj step
    exact .inl found

theorem now_step {s t : Traffic} {c : Call} (step : s.step? c = some t) : s.now ≤ t.now := by
  cases c with
  | wait time =>
    cases Option.some.inj step
    exact Nat.le_add_right ..
  | take worker =>
    simp only [step?] at step
    split at step
    · contradiction
    · cases Option.some.inj step
      exact Nat.le_refl _
  | ring due other =>
    simp only [step?] at step
    split at step
    · cases Option.some.inj step
      simp only [ring]
      split <;> exact Nat.le_refl _
    · contradiction
  | complete other =>
    simp only [step?] at step
    split at step
    · cases Option.some.inj step
      exact Nat.le_refl _
    · contradiction
  | _ =>
    cases Option.some.inj step
    exact Nat.le_refl _

/-- An alarm releases a key no earlier than the key waited for, and the key waits no longer. -/
structure Frees (s t : Traffic) (key : String) (moment : Moment) : Prop where
  now : moment = s.now
  waited : ∃ due, s.queue.waiting.get? key = some due ∧ due ≤ s.now
  gone : t.queue.waiting.get? key = none
  still : t.now = s.now

theorem frees_of_fired {s t : Traffic} {c : Call} (step : s.step? c = some t) {key : String}
    {moment : Moment} (fired : s.note? c = some (.fired key moment)) : Frees s t key moment := by
  cases c with
  | ring due other =>
    simp only [note?] at fired
    split at fired
    · rename_i found
      cases Option.some.inj fired
      simp only [step?] at step
      split at step
      · rename_i allowed
        cases Option.some.inj step
        have released := WorkQueue.release?_eq_some.mpr ⟨found, rfl⟩
        refine ⟨rfl, ⟨due, found, allowed.2⟩, ?_, ?_⟩
        · simp [ring, released, Table.get?_erase]
        · simp only [ring, released]
      · contradiction
    · contradiction
  | addAfter other delay =>
    simp only [note?] at fired
    split at fired <;> simp at fired
  | addRateLimited other =>
    simp only [note?] at fired
    split at fired <;> simp at fired
  | _ => simp [note?] at fired

theorem firings_note (key : String) (note : Option Note) (notes : List Note) :
    (∃ moment, note = some (.fired key moment) ∧
        firings key (note.toList ++ notes) = moment :: firings key notes) ∨
      (∀ moment, note ≠ some (.fired key moment)) ∧
        firings key (note.toList ++ notes) = firings key notes := by
  cases note with
  | none => exact .inr ⟨nofun, rfl⟩
  | some note =>
    cases note with
    | fired other moment =>
      by_cases mine : other = key
      · subst mine
        exact .inl ⟨moment, rfl, if_pos rfl⟩
      · exact .inr ⟨by simp [mine], if_neg mine⟩
    | asked other ready => exact .inr ⟨nofun, rfl⟩
    | readded other moment => exact .inr ⟨nofun, rfl⟩

/-- The releases of a key are an interval apart, counted from the start, and so is the next one. -/
structure Spaced (interval : Duration) (key : String) (s : Traffic) (notes : List Note) : Prop where
  past : ∀ moment ∈ firings key notes ++ [0], moment ≤ s.now
  ahead : ∀ ready, s.queue.waiting.get? key = some ready →
    ∀ moment ∈ firings key notes ++ [0], moment + interval.nanos ≤ ready
  apart : (firings key notes ++ [0]).Pairwise fun later earlier => earlier + interval.nanos ≤ later

theorem Spaced.new (interval : Duration) (key name : String) (bounds : Backoff.Bounds) :
    Spaced interval key (new name bounds) [] where
  past := by simp [firings]
  ahead _ found := nomatch found
  apart := List.pairwise_singleton ..

theorem Spaced.step {interval : Duration} {key : String} {s t : Traffic} {notes : List Note}
    {c : Call} (h : Spaced interval key s notes) (step : s.step? c = some t)
    (patient : ∀ delay, s.delay? key c = some delay → delay.isZero = false → interval ≤ delay) :
    Spaced interval key t ((s.note? c).toList ++ notes) := by
  obtain ⟨moment, fired, firings⟩ | ⟨_, firings⟩ := firings_note key (s.note? c) notes
  · obtain ⟨rfl, ⟨due, waited, reached⟩, gone, still⟩ := frees_of_fired step fired
    constructor
    · rw [firings, still]
      intro moment member
      rcases List.mem_cons.mp member with rfl | earlier
      · exact Nat.le_refl _
      · exact h.past moment earlier
    · intro ready found
      rw [gone] at found
      contradiction
    · rw [firings]
      refine List.pairwise_cons.mpr ⟨fun earlier member => ?_, h.apart⟩
      exact Nat.le_trans (h.ahead due waited earlier member) reached
  · have later := now_step step
    constructor
    · rw [firings]
      intro moment member
      exact Nat.le_trans (h.past moment member) later
    · rw [firings]
      intro ready found moment member
      obtain before | ⟨delay, asked, positive, _, rfl⟩ := waiting_step step found
      · exact h.ahead ready before moment member
      · have long : interval.nanos ≤ delay.nanos := patient delay asked positive
        exact Nat.add_le_add (h.past moment member) long
    · rw [firings]
      exact h.apart

def begun (key : String) (s : Traffic) : Nat := s.history.count (.added key) + s.ringing.count key

def Supplied (key : String) (s : Traffic) : Prop :=
  (deliveries s.history).count key + (if s.queue.dirty.contains key then 1 else 0) ≤
    s.history.count (.added key)

theorem Supplied.step {key : String} {s t : Traffic} {c : Call} (h : Supplied key s)
    (line : s.queue.shuttingDown = false → s.queue.InLine) (effect : Effect s c t) :
    Supplied key t := by
  simp only [Supplied] at h ⊢
  cases effect with
  | add other queue _ history =>
    have needed : (s.queue.add other).dirty.contains key = true →
        other = key ∨ s.queue.dirty.contains key = true := by
      obtain ⟨_, same⟩ | ⟨_, ⟨_, eq⟩ | ⟨_, eq⟩⟩ := s.queue.add_cases other
      · rw [same]
        exact .inr
      all_goals
        rw [eq, Table.contains_insert, Bool.or_eq_true, decide_eq_true_iff]
        exact Or.imp_left Eq.symm
    rw [queue, history, deliveries, List.count_cons]
    by_cases mine : other = key
    · subst mine
      simp only [beq_self_eq_true, if_true]
      split <;> omega
    · cases dirty : (s.queue.add other).dirty.contains key with
      | false =>
        simp only [Bool.false_eq_true, if_false]
        omega
      | true =>
        rw [(needed dirty).resolve_left mine] at h
        simp only [if_true] at h ⊢
        omega
  | take worker other queue _ history =>
    obtain ⟨taking, _, _, eq⟩ := WorkQueue.take?_eq_some.mp queue
    have needed := ((line taking).free_of_take queue).1
    rw [history, deliveries, eq]
    by_cases mine : other = key
    · subst mine
      simpa [needed, Table.contains_erase] using h
    · simpa [Table.contains_erase, mine, Ne.symm mine] using h
  | done worker other _ queue _ history =>
    rw [queue, history, WorkQueue.done_dirty]
    exact h
  | aside _ dirty _ _ _ history =>
    rw [dirty, history]
    exact h

end MonitorOperator.Traffic
