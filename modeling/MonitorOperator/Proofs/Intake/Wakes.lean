import MonitorOperator.Proofs.Intake.Routing

/-! Changes one after the other, each routed by what the cache holds at its turn. The wake-ups that
come of them are told by the cache and the changes alone, and what the queue is afterwards by the
wake-ups alone. No wake-up reaches a monitor that the cache did not have and no change wrote. -/

namespace MonitorOperator

/-- What wake-ups make of a queue that hands out keys: the monitors that are woken need work, those
that are gone have no failures, and whatever else there is stays. -/
structure WorkQueue.Roused (q : WorkQueue) (wakes : List Wake) (t : WorkQueue) : Prop where
  dirty : ∀ text, t.dirty.contains text = true ↔
    q.dirty.contains text = true ∨ ∃ key, .monitor key ∈ wakes ∧ key.text = text
  forgotten : ∀ key, .forget key ∈ wakes → t.attempts key.text = 0
  remembered : ∀ text, (∀ key, .forget key ∈ wakes → key.text ≠ text) →
    t.attempts text = q.attempts text
  line : q.ready <+: t.ready
  processing : t.processing = q.processing
  waiting : t.waiting = q.waiting
  shuttingDown : t.shuttingDown = q.shuttingDown

namespace WorkQueue.Roused

variable {q t u : WorkQueue} {first second : List Wake}

theorem refl (q : WorkQueue) : q.Roused [] q where
  dirty text := by simp
  forgotten key member := nomatch member
  remembered text _ := rfl
  line := List.prefix_rfl
  processing := rfl
  waiting := rfl
  shuttingDown := rfl

theorem trans (h : q.Roused first t) (later : t.Roused second u) :
    q.Roused (first ++ second) u where
  dirty text := by
    rw [later.dirty, h.dirty, or_assoc]
    simp only [List.mem_append, or_and_right, exists_or]
  forgotten key member := by
    by_cases again : ∃ other, .forget other ∈ second ∧ other.text = key.text
    · obtain ⟨other, there, same⟩ := again
      rw [← same]
      exact later.forgotten other there
    · have kept := later.remembered key.text fun other there same => again ⟨other, there, same⟩
      rw [kept]
      rcases List.mem_append.mp member with there | there
      · exact h.forgotten key there
      · exact (again ⟨key, there, rfl⟩).elim
  remembered text apart := by
    rw [later.remembered text fun key there => apart key (List.mem_append_right _ there)]
    exact h.remembered text fun key there => apart key (List.mem_append_left _ there)
  line := h.line.trans later.line
  processing := later.processing.trans h.processing
  waiting := later.waiting.trans h.waiting
  shuttingDown := later.shuttingDown.trans h.shuttingDown

theorem idle {wake : Wake} (noKey : ∀ key, .monitor key ≠ wake)
    (noneGone : ∀ key, .forget key ≠ wake) : q.Roused [wake] q where
  dirty text := by simp [noKey]
  forgotten key member := (noneGone key (List.mem_singleton.mp member)).elim
  remembered text _ := rfl
  line := List.prefix_rfl
  processing := rfl
  waiting := rfl
  shuttingDown := rfl

theorem one (taking : q.shuttingDown = false) (wake : Wake) : q.Roused [wake] (wake.run q) := by
  cases wake with
  | monitor key =>
    constructor
    case dirty =>
      intro text
      rw [Wake.run, dirty_add taking, or_comm]
      simp only [Bool.or_eq_true, decide_eq_true_eq, List.mem_singleton, Wake.monitor.injEq,
        exists_eq_left, eq_comm (a := text)]
    case forgotten => simp
    case remembered => simp [Wake.run, attempts]
    case line =>
      rcases q.ready_add key.text with same | joined
      · simp only [Wake.run, same, List.prefix_rfl]
      · simp only [Wake.run, joined, List.prefix_append]
    case processing => exact q.add_processing key.text
    case waiting => exact q.add_waiting key.text
    case shuttingDown => exact q.add_shuttingDown key.text
  | forget key =>
    constructor
    case dirty => simp [Wake.run, forget]
    case forgotten =>
      intro other member
      cases List.mem_singleton.mp member
      exact (q.backoff.attempts_forget key.text key.text).trans (if_pos rfl)
    case remembered =>
      intro text apart
      have other : ¬ text = key.text := fun same => apart key (List.mem_singleton.mpr rfl) same.symm
      exact (q.backoff.attempts_forget key.text text).trans (if_neg other)
    case line => exact List.prefix_rfl
    case processing => rfl
    case waiting => rfl
    case shuttingDown => rfl
  | orphan pod owner => exact idle (by simp) (by simp)
  | nobody => exact idle (by simp) (by simp)

end WorkQueue.Roused

theorem WorkQueue.roused {q : WorkQueue} (taking : q.shuttingDown = false) (wakes : List Wake) :
    q.Roused wakes (wakes.foldl Wake.run q) := by
  induction wakes generalizing q with
  | nil => exact .refl q
  | cons wake wakes ih =>
    have one := Roused.one taking wake
    exact one.trans (ih (one.shuttingDown.trans taking))

namespace Cache

/-- The wake-ups of changes that a cache takes in one after the other. -/
def wakes (c : Cache) : List Change → List Wake
  | [] => []
  | change :: changes =>
    Wake.ofChange (c.absorb change) change :: (c.absorb change).wakes changes

theorem wakes_append (c : Cache) (first second : List Change) :
    c.wakes (first ++ second) = c.wakes first ++ (first.foldl absorb c).wakes second := by
  induction first generalizing c with
  | nil => rfl
  | cons change first ih => simp only [List.cons_append, wakes, ih, List.foldl_cons]

theorem wakes_of_gone (c : Cache) (gone : List Monitor) :
    c.wakes (gone.map (.deleted ∘ .monitor)) = gone.map fun m => .forget m.key := by
  induction gone generalizing c with
  | nil => rfl
  | cons m gone ih => exact congrArg (Wake.forget m.key :: ·) (ih _)

theorem forget_mem_wakes_iff {c : Cache} {changes : List Change} {key : Key} :
    .forget key ∈ c.wakes changes ↔ ∃ m, .deleted (.monitor m) ∈ changes ∧ m.key = key := by
  induction changes generalizing c with
  | nil => simp [wakes]
  | cons change changes ih =>
    have here : .forget key = Wake.ofChange (c.absorb change) change ↔
        ∃ m, .deleted (.monitor m) = change ∧ m.key = key := by
      obtain ⟨m, rfl | rfl⟩ | ⟨m, rfl⟩ | ⟨p, event⟩ := change.kinds
      · simp [Wake.ofChange]
      · simp [Wake.ofChange]
      · simp [Wake.ofChange, eq_comm]
      · rw [Wake.ofChange_pod event]
        refine iff_of_false (Wake.forget_ne_ofPod _ _ p) ?_
        rintro ⟨m, rfl, _⟩
        contradiction
    simp only [wakes, List.mem_cons, ih, here, or_and_right, exists_or]

theorem monitor_mem_wakes {changes : List Change} {change : Change} {key : Key}
    (member : change ∈ changes) (writes : change.Wakes key) (c : Cache) :
    .monitor key ∈ c.wakes changes := by
  induction changes generalizing c with
  | nil => contradiction
  | cons first changes ih =>
    rcases List.mem_cons.mp member with rfl | later
    · exact List.mem_cons.mpr (.inl (writes.ofChange _).symm)
    · exact List.mem_cons_of_mem _ (ih later _)

theorem contains_absorb {c : Cache} {change : Change} {key : Key}
    (there : (c.absorb change).monitors.contains key = true) :
    c.monitors.contains key = true ∨ change.Wakes key := by
  have put (m : Monitor) (h : (c.monitors.insert m.key m).contains key = true) :
      c.monitors.contains key = true ∨ m.key = key := by
    rw [Table.contains_insert, Bool.or_eq_true, decide_eq_true_eq] at h
    exact h.symm.imp_right Eq.symm
  obtain ⟨m, rfl | rfl⟩ | ⟨m, rfl⟩ | ⟨p, event⟩ := change.kinds
  · exact put m there
  · exact put m there
  · have kept : (c.monitors.erase m.key).contains key = true := there
    rw [Table.contains_erase, Bool.and_eq_true] at kept
    exact .inl kept.2
  · rw [monitors_absorb event] at there
    exact .inl there

theorem written_of_mem_wakes {known : Key → Prop} {c : Cache} {changes : List Change} {key : Key}
    (cached : ∀ key, c.monitors.contains key = true → known key)
    (writes : ∀ change ∈ changes, ∀ key, change.Wakes key → known key)
    (member : .monitor key ∈ c.wakes changes) : known key := by
  induction changes generalizing c with
  | nil => contradiction
  | cons change changes ih =>
    have after : ∀ key, (c.absorb change).monitors.contains key = true → known key := by
      intro key there
      rcases contains_absorb there with before | written
      · exact cached key before
      · exact writes change (List.mem_cons_self ..) key written
    rcases List.mem_cons.mp member with here | later
    · rcases Wake.woken_of_ofChange here.symm with written | there
      · exact writes change (List.mem_cons_self ..) key written
      · exact after key there
    · exact ih after (fun other there => writes other (List.mem_cons_of_mem _ there)) later

end Cache

namespace Intake

theorem cache_foldl_handle (changes : List Change) (i : Intake) :
    (changes.foldl handle i).cache = changes.foldl Cache.absorb i.cache := by
  induction changes generalizing i with
  | nil => rfl
  | cons change changes ih => exact ih (i.handle change)

theorem queue_foldl_handle (changes : List Change) (i : Intake) :
    (changes.foldl handle i).queue = (i.cache.wakes changes).foldl Wake.run i.queue := by
  induction changes generalizing i with
  | nil => rfl
  | cons change changes ih => exact ih (i.handle change)

end Intake

end MonitorOperator
