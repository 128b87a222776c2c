import MonitorOperator.Proofs.Queue.Exclusion

/-! No add is lost and coalescing is exact. Which keys need work follows from the history of adds
and deliveries alone, whatever is called. Where keys are released by their holders, the adds that
meet a held key lead to one delivery after its release, and to no second one. -/

namespace MonitorOperator.Traffic

/-- A key was added after it was last delivered. The latest entries come first. -/
def AddedSince (key : String) (history : List Entry) : Prop :=
  ∃ later earlier, history = later ++ .added key :: earlier ∧ .delivered key ∉ later

def deliveries : List Entry → List String
  | [] => []
  | .added _ :: rest => deliveries rest
  | .delivered key :: rest => deliveries rest ++ [key]

theorem deliveries_call {s t : Traffic} {c : Call} (other : ∀ worker, c ≠ .take worker)
    (step : s.step? c = some t) :
    deliveries t.history = deliveries s.history := by
  cases c with
  | take worker => exact (other worker rfl).elim
  | addAfter key delay =>
    cases Option.some.inj step
    simp only [later]
    split <;> rfl
  | addRateLimited key =>
    cases Option.some.inj step
    simp only [later]
    split <;> rfl
  | ring due key =>
    simp only [step?] at step
    split at step
    · cases Option.some.inj step
      simp only [ring]
      split <;> rfl
    · contradiction
  | complete key =>
    simp only [step?] at step
    split at step
    · cases Option.some.inj step
      rfl
    · contradiction
  | _ =>
    cases Option.some.inj step
    rfl

theorem not_addedSince_nil (key : String) : ¬ AddedSince key [] := by
  rintro ⟨later, earlier, split, _⟩
  simp at split

theorem addedSince_added (key other : String) (history : List Entry) :
    AddedSince key (.added other :: history) ↔ key = other ∨ AddedSince key history := by
  constructor
  · rintro ⟨later, earlier, split, none⟩
    cases later with
    | nil => exact .inl (Entry.added.inj (List.cons.inj split).1).symm
    | cons first later =>
      exact .inr ⟨later, earlier, (List.cons.inj split).2, fun h => none (List.mem_cons_of_mem _ h)⟩
  · rintro (rfl | ⟨later, earlier, rfl, none⟩)
    · exact ⟨[], history, rfl, by simp⟩
    · exact ⟨.added other :: later, earlier, rfl, by simpa using none⟩

theorem addedSince_delivered (key other : String) (history : List Entry) :
    AddedSince key (.delivered other :: history) ↔ key ≠ other ∧ AddedSince key history := by
  constructor
  · rintro ⟨later, earlier, split, none⟩
    cases later with
    | nil => cases (List.cons.inj split).1
    | cons first later =>
      obtain ⟨rfl, rfl⟩ := List.cons.inj split
      simp only [List.mem_cons, Entry.delivered.injEq, not_or] at none
      exact ⟨none.1, later, earlier, rfl, none.2⟩
  · rintro ⟨differ, later, earlier, rfl, none⟩
    exact ⟨.delivered other :: later, earlier, rfl, by simp [differ, none]⟩

/-- The keys that need work are those added since their last delivery, and each of them is in line
or held. Nothing is said of who holds what, so keys may be released by anyone. -/
structure Tracked (s : Traffic) : Prop where
  dirty : ∀ key, s.queue.dirty.contains key = true ↔ AddedSince key s.history
  placed : ∀ key, s.queue.dirty.contains key = true →
    key ∈ s.queue.ready ∨ s.queue.processing.contains key = true

theorem Tracked.new (name : String) (bounds : Backoff.Bounds) : (new name bounds).Tracked := by
  refine ⟨fun key => ?_, fun key dirty => ?_⟩
  · have clean : (Traffic.new name bounds).queue.dirty.contains key = false := rfl
    simp only [clean, Bool.false_eq_true, false_iff]
    exact not_addedSince_nil key
  · exact absurd dirty Bool.false_ne_true

theorem placed_add (q : WorkQueue) (key : String) (dirty : (q.add key).dirty.contains key = true)
    (placed : q.dirty.contains key = true → key ∈ q.ready ∨ q.processing.contains key = true) :
    key ∈ (q.add key).ready ∨ (q.add key).processing.contains key = true := by
  obtain ⟨_, same⟩ | ⟨_, ⟨held, eq⟩ | ⟨_, eq⟩⟩ := q.add_cases key
  · rw [same] at dirty ⊢
    exact placed dirty
  · exact .inr (by simp [held])
  · exact .inl (by simp [eq])

theorem Tracked.step {s t : Traffic} {c : Call} (h : s.Tracked)
    (taking : s.queue.shuttingDown = false) (effect : Effect s c t) : t.Tracked := by
  cases effect with
  | add key queue _ history =>
    have dirty := WorkQueue.dirty_add taking key
    refine ⟨fun other => ?_, fun other need => ?_⟩
    · rw [queue, history, dirty, addedSince_added, ← h.dirty]
      simp
    · rw [queue] at need ⊢
      by_cases same : other = key
      · subst same
        exact placed_add s.queue other need (h.placed other)
      · have old : s.queue.dirty.contains other = true := by simpa [dirty, same] using need
        rw [WorkQueue.add_processing]
        refine (h.placed other old).imp_left fun member => ?_
        rcases s.queue.ready_add key with eq | eq <;> simp [eq, member]
  | take worker key queue _ history =>
    obtain ⟨_, rest, line, eq⟩ := WorkQueue.take?_eq_some.mp queue
    refine ⟨fun other => ?_, fun other need => ?_⟩
    · rw [eq, history, Table.contains_erase, addedSince_delivered, ← h.dirty]
      simp
    · rw [eq] at need ⊢
      simp only [Table.contains_erase, Table.contains_insert] at need ⊢
      by_cases same : other = key
      · exact .inr (by simp [same])
      · have old : s.queue.dirty.contains other = true := by simpa [same] using need
        have place := h.placed other old
        rw [line] at place
        simpa [same] using place
  | done worker key _ queue _ history =>
    refine ⟨fun other => ?_, fun other need => ?_⟩
    · rw [queue, history, WorkQueue.done_dirty]
      exact h.dirty other
    · rw [queue, WorkQueue.done_dirty] at need
      rw [queue, WorkQueue.done_processing, Table.contains_erase]
      by_cases same : other = key
      · subst same
        obtain ⟨_, _, eq⟩ | ⟨idle, _⟩ := s.queue.done_cases other
        · exact .inl (by simp [eq])
        · simp [need, taking] at idle
      · have place := h.placed other need
        simp only [same, decide_false, Bool.not_false, Bool.true_and]
        refine place.imp_left fun member => ?_
        rcases s.queue.ready_done key with eq | eq <;> simp [eq, member]
  | aside ready dirty processing _ _ history =>
    refine ⟨fun other => ?_, fun other need => ?_⟩
    · rw [dirty, history]
      exact h.dirty other
    · rw [dirty] at need
      rw [ready, processing]
      exact h.placed other need

theorem tracked_of_run {s t : Traffic} {calls : List Call} (start : s.Tracked)
    (run : after? step? s calls = some t) (taking : t.queue.shuttingDown = false) : t.Tracked := by
  refine after?_invariant (P := fun s => s.queue.shuttingDown = false → s.Tracked) ?_ calls
    (fun _ => start) run taking
  intro s c t kept step taking
  have before := taking_of_step step taking
  exact (kept before).step before (step_effect step)

/-- First come, first served: the keys that stood in line, followed by those that joined, are the
keys that were delivered, followed by those that still stand there. -/
theorem line_served {s t : Traffic} {calls : List Call} (run : after? step? s calls = some t) :
    ∃ new joined, t.history = new ++ s.history ∧
      s.queue.ready ++ joined = deliveries new ++ t.queue.ready := by
  refine after?_invariant (P := fun t => ∃ new joined, t.history = new ++ s.history ∧
    s.queue.ready ++ joined = deliveries new ++ t.queue.ready) ?_ calls
    ⟨[], [], rfl, by simp [deliveries]⟩ run
  rintro u c v ⟨new, joined, split, served⟩ step
  cases step_effect step with
  | add key queue _ history =>
    rcases u.queue.ready_add key with eq | eq
    · refine ⟨.added key :: new, joined, by simp [history, split], ?_⟩
      rw [queue, eq, deliveries, served]
    · refine ⟨.added key :: new, joined ++ [key], by simp [history, split], ?_⟩
      rw [queue, eq, deliveries, ← List.append_assoc, served, List.append_assoc]
  | take _ key queue _ history =>
    obtain ⟨_, rest, line, eq⟩ := WorkQueue.take?_eq_some.mp queue
    refine ⟨.delivered key :: new, joined, by simp [history, split], ?_⟩
    rw [served, line, eq, deliveries, List.append_assoc, List.singleton_append]
  | done _ key _ queue _ history =>
    rcases u.queue.ready_done key with eq | eq
    · refine ⟨new, joined, history ▸ split, ?_⟩
      rw [queue, eq, served]
    · refine ⟨new, joined ++ [key], history ▸ split, ?_⟩
      rw [queue, eq, ← List.append_assoc, served, List.append_assoc]
  | aside ready _ _ _ _ history =>
    exact ⟨new, joined, history ▸ split, by rw [ready, served]⟩

theorem free_of_orderly {s t : Traffic} {calls : List Call}
    (run : after? orderly? s calls = some t) :
    after? step? s calls = some t := by
  induction calls generalizing s with
  | nil => exact run
  | cons c calls ih =>
    rw [after?_cons, Option.bind_eq_some_iff] at run ⊢
    obtain ⟨u, first, rest⟩ := run
    exact ⟨u, (orderly?_eq_some.mp first).2, ih rest⟩

/-- A key that is owed one delivery: it stands in line and was not delivered, or it was delivered
once and needs no more work. -/
def Owed (key : String) (new : List Entry) (s : Traffic) : Prop :=
  ((deliveries new).count key = 0 ∧ s.queue.dirty.contains key = true ∧
    s.queue.processing.contains key = false) ∨
  ((deliveries new).count key = 1 ∧ s.queue.dirty.contains key = false)

theorem Owed.step {key : String} {new old : List Entry} {s t : Traffic} {c : Call}
    (h : .added key ∉ new → Owed key new s) (split : s.history = new ++ old)
    (line : s.queue.InLine) (taking : s.queue.shuttingDown = false) (effect : Effect s c t) :
    ∃ more, t.history = more ++ old ∧ (.added key ∉ more → Owed key more t) := by
  cases effect with
  | add other queue _ history =>
    refine ⟨.added other :: new, by simp [history, split], fun none => ?_⟩
    simp only [List.mem_cons, Entry.added.injEq, not_or] at none
    have same := h none.2
    simpa [Owed, deliveries, queue, WorkQueue.dirty_add taking, none.1] using same
  | take worker other queue _ history =>
    refine ⟨.delivered other :: new, by simp [history, split], fun none => ?_⟩
    have before := h (fun member => none (List.mem_cons_of_mem _ member))
    have needed := (line.free_of_take queue).1
    obtain ⟨_, _, _, eq⟩ := WorkQueue.take?_eq_some.mp queue
    by_cases same : other = key
    · subst same
      rcases before with ⟨count, _, _⟩ | ⟨_, clean⟩
      · exact .inr ⟨by simp [deliveries, count], by simp [eq, Table.contains_erase]⟩
      · rw [clean] at needed; contradiction
    · have other' : ¬ key = other := fun eq => same eq.symm
      simpa [Owed, deliveries, List.count_cons, same, other', eq, Table.contains_erase,
        Table.contains_insert] using before
  | done worker other _ queue _ history =>
    refine ⟨new, history ▸ split, fun none => ?_⟩
    rcases h none with ⟨count, need, free⟩ | ⟨count, clean⟩
    · exact .inl ⟨count, by simpa [queue] using need, by simp [queue, Table.contains_erase, free]⟩
    · exact .inr ⟨count, by simpa [queue] using clean⟩
  | aside _ dirty processing _ _ history =>
    refine ⟨new, history ▸ split, fun none => ?_⟩
    simpa [Owed, dirty, processing] using h none

theorem owed_of_run {key : String} {s t : Traffic} {calls : List Call} (start : s.Exclusive)
    (due : s.queue.dirty.contains key = true ∧ s.queue.processing.contains key = false)
    (run : after? orderly? s calls = some t) (taking : t.queue.shuttingDown = false) :
    ∃ new, t.history = new ++ s.history ∧ (.added key ∉ new → Owed key new t) := by
  have kept := after?_invariant (P := fun t => t.queue.shuttingDown = false → t.Exclusive ∧
    ∃ new, t.history = new ++ s.history ∧ (.added key ∉ new → Owed key new t)) ?_ calls
    (fun _ => ⟨start, [], rfl, fun _ => .inl ⟨rfl, due⟩⟩) run taking
  · exact kept.2
  · intro u c v kept step taking
    have made := (orderly?_eq_some.mp step).2
    have before := taking_of_step made taking
    obtain ⟨exclusive, new, split, owed⟩ := kept before
    exact ⟨exclusive.step before step,
      Owed.step owed split exclusive.line before (step_effect made)⟩

theorem Owed.count_add_standing {key : String} {new : List Entry} {s : Traffic}
    (h : Owed key new s) (line : s.queue.InLine) :
    (deliveries new).count key + (if key ∈ s.queue.ready then 1 else 0) = 1 := by
  have standing := line.standing key
  rcases h with ⟨count, need, free⟩ | ⟨count, clean⟩
  · rw [count, if_pos (standing.mpr ⟨need, free⟩)]
  · have absent : key ∉ s.queue.ready := by
      intro member
      rw [(standing.mp member).1] at clean; contradiction
    rw [count, if_neg absent]

/-- Whatever is called, and until the shutdown: a key needs work exactly if it was added after its
last delivery, and then it is in line or held. And where keys are released once and by their
holders: each delivery uses up an add made since the one before, and adds that met a held key lead,
after its release and without further adds, to one delivery and no second, made at the latest when
as many keys were delivered as then stood in line. -/
theorem adds_coalesce (name : String) (bounds : Backoff.Bounds) (calls : List Call) (s : Traffic)
    (run : after? step? (new name bounds) calls = some s) (taking : s.queue.shuttingDown = false) :
    (∀ key, s.queue.dirty.contains key = true ↔ AddedSince key s.history) ∧
    (∀ key, s.queue.dirty.contains key = true →
      key ∈ s.queue.ready ∨ s.queue.processing.contains key = true) ∧
    (after? orderly? (new name bounds) calls = some s →
      (∀ key queue, s.queue.take? = some (key, queue) → AddedSince key s.history) ∧
      ∀ worker key t, (worker, key) ∈ s.held → AddedSince key s.history →
        s.step? (.done worker key) = some t →
        ∀ later u new, after? orderly? t later = some u → u.queue.shuttingDown = false →
          u.history = new ++ t.history → .added key ∉ new →
          (deliveries new).count key + (if key ∈ u.queue.ready then 1 else 0) = 1 ∧
          (t.queue.ready.length ≤ (deliveries new).length → (deliveries new).count key = 1)) := by
  have tracked := tracked_of_run (.new name bounds) run taking
  refine ⟨tracked.dirty, tracked.placed, fun orderly => ?_⟩
  have exclusive := exclusive_of_run (.new name bounds) orderly taking
  refine ⟨fun key queue taken => (tracked.dirty key).mp (exclusive.line.free_of_take taken).1, ?_⟩
  intro worker key t mine added release later u new more open_ split none
  have step : s.orderly? (.done worker key) = some t :=
    orderly?_eq_some.mpr ⟨by simp [permits, mine], release⟩
  have released := exclusive.step taking step
  cases Option.some.inj release
  have due : (s.queue.done key).dirty.contains key = true ∧
      (s.queue.done key).processing.contains key = false := by
    simp [Table.contains_erase, (tracked.dirty key).mpr added]
  obtain ⟨new', split', owed⟩ := owed_of_run released due more open_
  have same : new' = new := List.append_cancel_right (split'.symm.trans split)
  subst same
  have count := (owed none).count_add_standing (exclusive_of_run released more open_).line
  refine ⟨count, fun many => ?_⟩
  -- the line of the release is by now part of what was delivered
  obtain ⟨new, joined, split'', served⟩ := line_served (free_of_orderly more)
  have same : new = new' := List.append_cancel_right (split''.symm.trans split)
  subst same
  have prefix_ : (s.queue.done key).ready <+: deliveries new :=
    List.prefix_of_prefix_length_le ⟨joined, served⟩ (List.prefix_append _ _) many
  have member : key ∈ deliveries new :=
    prefix_.subset ((released.line.standing key).mpr due)
  have positive := List.count_pos_iff.mpr member
  omega

theorem adds_coalesce_twice_while_held :
    ∃ s t u, after? orderly? (new "keys" {})
        [.add "a/x", .take 0, .add "a/x", .add "a/y", .add "a/x"] = some s ∧
      s.queue.shuttingDown = false ∧ AddedSince "a/x" s.history ∧
      s.step? (.done 0 "a/x") = some t ∧ after? orderly? t [.take 1, .take 0] = some u ∧
      (deliveries [.delivered "a/x", .delivered "a/y"]).count "a/x" = 1 := by
  have h := adds_coalesce "keys" {} [.add "a/x", .take 0, .add "a/x", .add "a/y", .add "a/x"] _ rfl
    (by decide)
  have added := (h.1 "a/x").mp (by decide)
  have once := (h.2.2 rfl).2 0 "a/x" _ (by decide) added rfl [.take 1, .take 0] _
    [.delivered "a/x", .delivered "a/y"] rfl (by decide) rfl (by decide)
  exact ⟨_, _, _, rfl, by decide, added, rfl, rfl, once.2 (by decide)⟩

end MonitorOperator.Traffic
