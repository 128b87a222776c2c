import MonitorOperator.Proofs.Queue.Overtaking

/-! Releases of keys that nobody holds. A release asks only whether its key needs work, and so does
a key that stands in line. Main statement: a stray release changes nothing unless its key stands in
line; there it gives the key a second place, and two who ask for keys are both handed this one. -/

namespace MonitorOperator

theorem Table.erase_of_absent {κ α : Type} [Ord κ] [Std.TransOrd κ] [Std.LawfulEqOrd κ]
    [DecidableEq κ] {t : Table κ α} {k : κ} (absent : t.contains k = false) :
    t.erase k = t := by
  refine Table.ext_get? fun k' => ?_
  rw [Table.get?_erase]
  split
  · rename_i same
    rw [same]
    exact (Option.not_isSome_iff_eq_none.mp (Bool.eq_false_iff.mp absent)).symm
  · rfl

namespace WorkQueue

theorem done_of_free {q : WorkQueue} {key : String} (free : q.processing.contains key = false) :
    q.done key = { q with
      ready :=
        if q.dirty.contains key && !q.shuttingDown then q.ready ++ [key] else q.ready } := by
  obtain ⟨dirty, taking, eq⟩ | ⟨idle, eq⟩ := q.done_cases key
  · rw [eq, Table.erase_of_absent free]
    simp [dirty, taking]
  · have stays : (q.dirty.contains key && !q.shuttingDown) = false := by
      rcases idle with clean | down <;> simp [*]
    rw [eq, Table.erase_of_absent free]
    simp [stays]

end WorkQueue

namespace Traffic

def spares (s : Traffic) : Call → Bool
  | .done worker key => s.permits (.done worker key) ||
      !s.queue.processing.contains key && !s.queue.dirty.contains key
  | _ => true

/-- One step of workers who may release a key more often than they took it, though not while it
needs work or others hold it. -/
def careful? (s : Traffic) (c : Call) : Option Traffic := if s.spares c then s.step? c else none

theorem careful?_eq_some {s t : Traffic} {c : Call} :
    s.careful? c = some t ↔ s.spares c = true ∧ s.step? c = some t := by
  simp [careful?]

theorem Exclusive.careful_cases {s t : Traffic} {c : Call} (h : s.Exclusive)
    (step : s.careful? c = some t) : s.orderly? c = some t ∨ t = s := by
  obtain ⟨spared, made⟩ := careful?_eq_some.mp step
  cases c with
  | done worker key =>
    simp only [spares, Bool.or_eq_true, Bool.and_eq_true, Bool.not_eq_true'] at spared
    rcases spared with mine | ⟨free, clean⟩
    · exact .inl (orderly?_eq_some.mpr ⟨mine, made⟩)
    · have absent : (worker, key) ∉ s.held := fun member =>
        Bool.false_ne_true (free.symm.trans ((h.held key).mpr ⟨worker, member⟩))
      have same : s.queue.done key = s.queue := by
        rw [WorkQueue.done_of_free free]
        simp [clean]
      cases Option.some.inj made
      rw [same, List.erase_of_not_mem absent]
      exact .inr rfl
  | _ => exact .inl (orderly?_eq_some.mpr ⟨rfl, made⟩)

/-- Until the shutdown the line is in order; no key is in two hands, then or later. -/
structure Handed (s : Traffic) : Prop where
  exclusive : s.queue.shuttingDown = false → s.Exclusive
  once : (s.held.map Prod.snd).Nodup

theorem Handed.step {s t : Traffic} {c : Call} (h : s.Handed) (step : s.careful? c = some t) :
    t.Handed := by
  have made := (careful?_eq_some.mp step).2
  have kept (taking : s.queue.shuttingDown = false) : t.Exclusive := by
    rcases (h.exclusive taking).careful_cases step with orderly | rfl
    · exact (h.exclusive taking).step taking orderly
    · exact h.exclusive taking
  refine ⟨fun taking => kept (taking_of_step made taking), ?_⟩
  cases step_effect made with
  | add _ _ held => exact held ▸ h.once
  | take _ _ queue => exact (kept (WorkQueue.take?_eq_some.mp queue).1).hands
  | done _ _ _ _ held =>
    rw [held]
    exact h.once.sublist (List.erase_sublist.map Prod.snd)
  | aside _ _ _ _ held => exact held ▸ h.once

theorem handed_of_run {s t : Traffic} {calls : List Call} (start : s.Handed)
    (run : after? careful? s calls = some t) : t.Handed :=
  after?_invariant (fun _ _ _ h step => h.step step) calls start run

theorem takes_front {s : Traffic} (taking : s.queue.shuttingDown = false) (worker : Nat)
    {front back : List String} (line : s.queue.ready = front ++ back) :
    ∃ t, after? step? s (List.replicate front.length (.take worker)) = some t ∧
      t.queue.shuttingDown = false ∧ t.queue.ready = back ∧
      (∀ key ∈ front, (worker, key) ∈ t.held) ∧ s.held ⊆ t.held := by
  induction front generalizing s with
  | nil => exact ⟨s, rfl, taking, line, by simp, List.Subset.refl _⟩
  | cons first front ih =>
    obtain ⟨queue, taken⟩ : ∃ queue, s.queue.take? = some (first, queue) :=
      ⟨_, WorkQueue.take?_eq_some.mpr ⟨taking, _, line, rfl⟩⟩
    obtain ⟨_, rest, stands, rfl⟩ := WorkQueue.take?_eq_some.mp taken
    have tail : rest = front ++ back := (List.cons.inj (stands.symm.trans line)).2
    obtain ⟨t, run, still, ready, hands, kept⟩ := ih (s := { s with
      queue := { s.queue with
        ready := rest
        dirty := s.queue.dirty.erase first
        processing := s.queue.processing.insert first () }
      held := (worker, first) :: s.held
      history := .delivered first :: s.history }) taking tail
    refine ⟨t, ?_, still, ready, fun key member => ?_, fun hand member => ?_⟩
    · rw [List.length_cons, List.replicate_succ, after?_cons]
      simp only [step?, taken]
      exact run
    · rcases List.mem_cons.mp member with rfl | member
      · exact kept (List.mem_cons_self ..)
      · exact hands key member
    · exact kept (List.mem_cons_of_mem _ member)

/-- Once a key stands in line twice, two workers can come to hold it. -/
theorem two_hands_of_twice {s : Traffic} (taking : s.queue.shuttingDown = false) {key : String}
    {front : List String} (inside : key ∈ front) (line : s.queue.ready = front ++ [key]) :
    ∃ later t, after? step? s later = some t ∧ (∀ c ∈ later, c.isTake = true) ∧
      (0, key) ∈ t.held ∧ (1, key) ∈ t.held := by
  obtain ⟨t, run, taking, ready, hands, _⟩ := takes_front taking 0 line
  have alone : t.queue.ready = [key] ++ [] := ready
  obtain ⟨u, last, _, _, more, kept⟩ := takes_front taking 1 alone
  refine ⟨List.replicate front.length (.take 0) ++ [.take 1], u, ?_, ?_, kept (hands key inside),
    more key (List.mem_singleton_self key)⟩
  · rw [after?_append, run]
    exact last
  · intro c member
    rcases List.mem_append.mp member with early | late
    · rw [List.eq_of_mem_replicate early]
      rfl
    · rw [List.mem_singleton.mp late]
      rfl

/-- Whatever was called before, a release of a key that nobody holds changes neither the keys that
need work nor those that are held nor those that wait. It changes the line exactly if the key needs
work and keys are still handed out: the key then stands in line, the release gives it a second place
at the end, and two who ask for keys can both come to hold it. As long as a key is released by its
holder, or while nobody holds it and it needs no work, no key is in two hands, however often it is
released. -/
theorem stray_releases_harm_in_line (name : String) (bounds : Backoff.Bounds) (calls : List Call)
    (s : Traffic) (run : after? step? (new name bounds) calls = some s) :
    (∀ key, s.queue.processing.contains key = false →
      (s.queue.done key).dirty = s.queue.dirty ∧
      (s.queue.done key).processing = s.queue.processing ∧
      (s.queue.done key).waiting = s.queue.waiting ∧
      ((s.queue.done key).ready ≠ s.queue.ready ↔
        s.queue.dirty.contains key = true ∧ s.queue.shuttingDown = false) ∧
      (s.queue.dirty.contains key = true → s.queue.shuttingDown = false →
        key ∈ s.queue.ready ∧ (s.queue.done key).ready = s.queue.ready ++ [key] ∧
        ∀ worker, ∃ later t, after? step? s (.done worker key :: later) = some t ∧
          (∀ c ∈ later, c.isTake = true) ∧ (0, key) ∈ t.held ∧ (1, key) ∈ t.held)) ∧
    (after? careful? (new name bounds) calls = some s → (s.held.map Prod.snd).Nodup) := by
  refine ⟨fun key free => ?_, fun careful => ?_⟩
  · have release := WorkQueue.done_of_free free
    refine ⟨by rw [release], by rw [release], by rw [release], ?_, fun dirty taking => ?_⟩
    · rw [release]
      cases s.queue.dirty.contains key <;> cases s.queue.shuttingDown <;> simp
    · have tracked := tracked_of_run (.new name bounds) run taking
      have stands := (tracked.placed key dirty).resolve_right (by simp [free])
      have joined : (s.queue.done key).ready = s.queue.ready ++ [key] := by
        rw [release]
        simp [dirty, taking]
      refine ⟨stands, joined, fun worker => ?_⟩
      obtain ⟨later, t, more, takes, first, second⟩ := two_hands_of_twice
        (s := { s with queue := s.queue.done key, held := s.held.erase (worker, key) })
        (by simpa using taking) stands joined
      exact ⟨later, t, by rw [after?_cons]; exact more, takes, first, second⟩
  · exact (handed_of_run ⟨fun _ => .new name bounds, List.nodup_nil⟩ careful).once

theorem stray_releases_harm_in_line_of_second_release :
    ∃ s, after? step? (new "keys" {})
        [.add "a/x", .take 0, .add "a/y", .add "a/x", .done 0 "a/x"] = some s ∧
      s.queue.processing.contains "a/x" = false ∧ s.queue.ready = ["a/y", "a/x"] ∧
      (s.queue.done "a/x").ready = s.queue.ready ++ ["a/x"] ∧
      (∃ later t, after? step? s (.done 0 "a/x" :: later) = some t ∧
        (∀ c ∈ later, c.isTake = true) ∧ (0, "a/x") ∈ t.held ∧ (1, "a/x") ∈ t.held) ∧
      (s.held.map Prod.snd).Nodup := by
  have h := stray_releases_harm_in_line "keys" {}
    [.add "a/x", .take 0, .add "a/y", .add "a/x", .done 0 "a/x"] _ rfl
  obtain ⟨_, _, _, _, harm⟩ := h.1 "a/x" (by decide)
  obtain ⟨_, joined, both⟩ := harm (by decide) (by decide)
  exact ⟨_, rfl, by decide, by decide, joined, both 0, h.2 rfl⟩

/-- It is not so that a stray release always leaves the line as it is, nor that no key comes into
two hands whoever releases it. -/
theorem stray_release_doubles :
    ¬ ((∀ name bounds calls s, after? step? (new name bounds) calls = some s →
          ∀ key, s.queue.processing.contains key = false →
            (s.queue.done key).ready = s.queue.ready) ∨
        ∀ name bounds calls s, after? step? (new name bounds) calls = some s →
          (s.held.map Prod.snd).Nodup) := by
  rintro (unchanged | once)
  · exact absurd (unchanged "keys" {} [.add "a/x", .take 0, .add "a/x", .done 0 "a/x"] _ rfl "a/x"
      (by decide)) (by decide)
  · exact absurd (once "keys" {} [.add "a/x", .take 0, .add "a/x", .done 0 "a/x", .done 0 "a/x",
      .take 1, .take 2] _ rfl) (by decide)

end Traffic

end MonitorOperator
