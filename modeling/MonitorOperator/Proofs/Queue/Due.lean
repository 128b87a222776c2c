import MonitorOperator.Proofs.Queue.Deadlines

/-! How often a key failed, and by when it comes back. A key is due by a moment if it needs work, if
it waits for that moment at the latest, or if it waited so and its alarm has rung. Until it is
taken, no call puts that off. -/

namespace MonitorOperator

namespace Backoff

theorem attempts_forget (b : Backoff) (key other : String) :
    (b.forget key).attempts other = if other = key then 0 else b.attempts other := by
  simp only [attempts, forget, Table.get?_erase]
  split <;> rfl

theorem attempts_fail (b : Backoff) (key other : String) :
    (b.fail key).1.attempts other =
      if other = key then min (b.attempts key + 1) maxFailures else b.attempts other := by
  simp only [attempts, fail, Table.get?_insert]
  split <;> rfl

end Backoff

namespace WorkQueue

variable {q t : WorkQueue} {rung left : List (String × Moment)} {key other : String}
  {limit now due : Moment} {delay : Duration}

@[simp] theorem add_backoff (q : WorkQueue) (key : String) : (q.add key).backoff = q.backoff := by
  obtain ⟨_, h⟩ | ⟨_, ⟨_, h⟩ | ⟨_, h⟩⟩ := q.add_cases key <;> rw [h]

@[simp] theorem done_backoff (q : WorkQueue) (key : String) : (q.done key).backoff = q.backoff := by
  obtain ⟨_, _, h⟩ | ⟨_, h⟩ := q.done_cases key <;> rw [h]

@[simp] theorem addAfter_backoff (q : WorkQueue) (now : Moment) (key : String) (delay : Duration) :
    (q.addAfter now key delay).1.backoff = q.backoff := by
  obtain ⟨_, h⟩ | ⟨_, ⟨_, h⟩ | ⟨_, h⟩⟩ := q.addAfter_cases now key delay
  · rw [h, add_backoff]
  · rw [h]
  · rw [h]

theorem addRateLimited_backoff (q : WorkQueue) (now : Moment) (key : String) :
    (q.addRateLimited now key).1.backoff = (q.backoff.fail key).1 := addAfter_backoff ..

theorem addAfter_processing (q : WorkQueue) (now : Moment) (key : String) (delay : Duration) :
    (q.addAfter now key delay).1.processing = q.processing := by
  obtain ⟨_, h⟩ | ⟨_, ⟨_, h⟩ | ⟨_, h⟩⟩ := q.addAfter_cases now key delay
  · rw [h, add_processing]
  · rw [h]
  · rw [h]

theorem addRateLimited_processing (q : WorkQueue) (now : Moment) (key : String) :
    (q.addRateLimited now key).1.processing = q.processing := addAfter_processing ..

/-- A key comes back by a moment. Keys whose alarm has rung are given with the moment that the alarm
was set for. -/
inductive Due (q : WorkQueue) (rung : List (String × Moment)) (key : String) (limit : Moment) :
    Prop where
  | dirty (h : q.dirty.contains key = true)
  | waits (due : Moment) (h : q.waiting.get? key = some due) (early : due ≤ limit)
  | rung (due : Moment) (h : (key, due) ∈ rung) (early : due ≤ limit)

theorem Due.congr (h : q.Due rung key limit) (dirty : t.dirty = q.dirty)
    (waiting : t.waiting = q.waiting) : t.Due rung key limit := by
  cases h with
  | dirty h => exact .dirty (dirty ▸ h)
  | waits due h early => exact .waits due (waiting ▸ h) early
  | rung due h early => exact .rung due h early

theorem Due.add (h : q.Due rung key limit) (taking : q.shuttingDown = false)
    (kept : ∀ e ∈ rung, e.1 = other ∨ e ∈ left) : (q.add other).Due left key limit := by
  cases h with
  | dirty h => exact .dirty (by rw [dirty_add taking, h, Bool.or_true])
  | waits due h early => exact .waits due (by rw [add_waiting]; exact h) early
  | rung due h early =>
    rcases kept _ h with same | still
    · exact .dirty (by rw [dirty_add taking]; simp [← same])
    · exact .rung due still early

theorem Due.ring (h : q.Due rung key limit) (waits : q.waiting.get? other = some due) :
    ({ q with waiting := q.waiting.erase other } : WorkQueue).Due ((other, due) :: rung) key
      limit := by
  cases h with
  | dirty h => exact .dirty h
  | waits moment h early =>
    by_cases same : key = other
    · subst same
      cases Option.some.inj (waits.symm.trans h)
      exact .rung due (List.mem_cons_self ..) early
    · exact .waits moment (by rw [Table.get?_erase, if_neg same]; exact h) early
  | rung moment h early => exact .rung moment (List.mem_cons_of_mem _ h) early

theorem Due.take (h : q.Due rung key limit) (taken : q.take? = some (other, t))
    (apart : key ≠ other) : t.Due rung key limit := by
  obtain ⟨_, rest, _, rfl⟩ := take?_eq_some.mp taken
  cases h with
  | dirty h => exact .dirty (by rw [Table.contains_erase]; simp [apart, h])
  | waits due h early => exact .waits due h early
  | rung due h early => exact .rung due h early

/-- A later moment gives way to an earlier one, never the other way round. -/
theorem Due.addAfter (h : q.Due rung key limit) (taking : q.shuttingDown = false) (now : Moment)
    (other : String) (delay : Duration) : (q.addAfter now other delay).1.Due rung key limit := by
  cases zero : delay.isZero with
  | true =>
    simp only [WorkQueue.addAfter, zero, if_true]
    exact h.add taking fun e member => .inr member
  | false =>
    cases beyond : isBeyond now delay with
    | true =>
      rw [addAfter_beyond q other beyond]
      exact h
    | false =>
      obtain ⟨first, _, _, eq⟩ | ⟨earliest, eq⟩ := addAfter_delay taking other zero beyond
      · rw [eq]
        exact h
      · rw [eq]
        cases h with
        | dirty h => exact .dirty h
        | waits due h early =>
          by_cases same : key = other
          · -- the new moment replaced the old one because it is earlier
            have sooner := earliest due (same ▸ h)
            refine .waits (now + delay.nanos) ?_ (Nat.le_trans (Nat.le_of_lt sooner) early)
            rw [Table.get?_insert, if_pos same]
          · exact .waits due (by rw [Table.get?_insert, if_neg same]; exact h) early
        | rung due h early => exact .rung due h early

theorem due_addAfter (taking : q.shuttingDown = false) (key : String)
    (fits : isBeyond now delay = false) :
    (q.addAfter now key delay).1.Due rung key (now + delay.nanos) := by
  cases zero : delay.isZero with
  | true =>
    simp only [WorkQueue.addAfter, zero, if_true]
    exact .dirty (by rw [dirty_add taking]; simp)
  | false =>
    obtain ⟨first, found, early, eq⟩ | ⟨_, eq⟩ := addAfter_delay taking key zero fits
    · rw [eq]
      exact .waits first found early
    · rw [eq]
      exact .waits _ (by rw [Table.get?_insert, if_pos rfl]) (Nat.le_refl _)

theorem Due.addRateLimited (h : q.Due rung key limit) (taking : q.shuttingDown = false)
    (now : Moment) (other : String) : (q.addRateLimited now other).1.Due rung key limit := by
  have counted : ({ q with backoff := (q.backoff.fail other).1 } : WorkQueue).Due rung key limit :=
    h.congr rfl rfl
  exact counted.addAfter taking now other (q.backoff.fail other).2

theorem due_addRateLimited (taking : q.shuttingDown = false)
    (fits : isBeyond now (q.backoff.fail key).2 = false) :
    (q.addRateLimited now key).1.Due rung key (now + (q.addRateLimited now key).2.2.nanos) :=
  due_addAfter (q := { q with backoff := (q.backoff.fail key).1 }) taking key fits

end WorkQueue

end MonitorOperator
