import Mathlib.Data.List.Nodup
import MonitorOperator.Proofs.Queue.Traffic

/-! At most one in flight. While keys are released by their holders, the line is in order, a key is
held exactly if it is in some hand, and no key is in two hands. -/

namespace MonitorOperator.Traffic

/-- The line is in order, and the held keys are in one hand each. -/
structure Exclusive (s : Traffic) : Prop where
  line : s.queue.InLine
  hands : (s.held.map Prod.snd).Nodup
  held : ∀ key, s.queue.processing.contains key = true ↔ ∃ worker, (worker, key) ∈ s.held

theorem Exclusive.new (name : String) (bounds : Backoff.Bounds) : (new name bounds).Exclusive :=
  ⟨.new name bounds, List.nodup_nil, fun key => by
    simp [Traffic.new, WorkQueue.new, Table.contains]⟩

theorem mem_erase_hands {held : List (Nat × String)} (once : (held.map Prod.snd).Nodup)
    {worker : Nat} {key : String} (mine : (worker, key) ∈ held) (other : String) :
    (∃ w, (w, other) ∈ held.erase (worker, key)) ↔ other ≠ key ∧ ∃ w, (w, other) ∈ held := by
  have nodup : held.Nodup := List.Nodup.of_map Prod.snd once
  simp only [nodup.mem_erase_iff]
  constructor
  · rintro ⟨w, differ, member⟩
    refine ⟨fun same => differ ?_, w, member⟩
    exact List.inj_on_of_nodup_map once member mine same
  · rintro ⟨differ, w, member⟩
    exact ⟨w, fun same => differ (Prod.mk.inj same).2, member⟩

theorem Exclusive.step {s t : Traffic} {c : Call} (h : s.Exclusive)
    (taking : s.queue.shuttingDown = false) (step : s.orderly? c = some t) : t.Exclusive := by
  obtain ⟨permitted, made⟩ := orderly?_eq_some.mp step
  cases step_effect made with
  | add key queue held _ =>
    refine ⟨queue ▸ h.line.add key, held ▸ h.hands, fun other => ?_⟩
    rw [queue, held, WorkQueue.add_processing]
    exact h.held other
  | take worker key queue held _ =>
    have free := (h.line.free_of_take queue).2
    obtain ⟨_, _, _, processing⟩ := WorkQueue.take?_eq_some.mp queue
    -- a key is handed out only if it is free, and a free key is in no hand
    have fresh : key ∉ s.held.map Prod.snd := by
      intro member
      obtain ⟨⟨w, k⟩, mine, rfl⟩ := List.mem_map.mp member
      exact absurd ((h.held k).mpr ⟨w, mine⟩) (by simp [free])
    refine ⟨h.line.take queue, ?_, fun other => ?_⟩
    · rw [held]
      exact List.nodup_cons.mpr ⟨fresh, h.hands⟩
    · rw [held, processing, Table.contains_insert]
      have old := h.held other
      by_cases same : other = key
      · simp [same]
      · simp [same, old]
  | done worker key call queue held _ =>
    have mine : (worker, key) ∈ s.held := by simpa [call, permits] using permitted
    have holding := (h.held key).mpr ⟨worker, mine⟩
    refine ⟨queue ▸ h.line.done taking holding, ?_, fun other => ?_⟩
    · rw [held]
      exact h.hands.sublist (List.erase_sublist.map Prod.snd)
    · rw [queue, held, WorkQueue.done_processing, Table.contains_erase, mem_erase_hands h.hands mine,
        ← h.held other]
      simp
  | aside ready dirty processing _ held _ =>
    refine ⟨h.line.congr ready dirty processing, held ▸ h.hands, fun other => ?_⟩
    rw [processing, held]
    exact h.held other

theorem exclusive_of_run {s t : Traffic} {calls : List Call} (start : s.Exclusive)
    (run : after? orderly? s calls = some t) (taking : t.queue.shuttingDown = false) :
    t.Exclusive := by
  refine after?_invariant (P := fun s => s.queue.shuttingDown = false → s.Exclusive) ?_ calls
    (fun _ => start) run taking
  intro s c t kept step taking
  have before := taking_of_step (orderly?_eq_some.mp step).2 taking
  exact (kept before).step before step

/-- In every run of workers who release each key once and by its holder, whatever else is called,
and until the shutdown: the line holds every key once and is made of the keys that need work and are
not held, a key is held exactly if it is in some hand, no key is in two hands, and the next key to
be handed out is in none. -/
theorem one_hand_per_key (name : String) (bounds : Backoff.Bounds) (calls : List Call) (s : Traffic)
    (run : after? orderly? (new name bounds) calls = some s)
    (taking : s.queue.shuttingDown = false) :
    s.queue.ready.Nodup ∧
    (∀ key, key ∈ s.queue.ready ↔
      s.queue.dirty.contains key = true ∧ s.queue.processing.contains key = false) ∧
    s.queue.stats.queued + s.queue.stats.deferred = s.queue.dirty.size ∧
    (∀ key, s.queue.processing.contains key = true ↔ ∃ worker, (worker, key) ∈ s.held) ∧
    (s.held.map Prod.snd).Nodup ∧
    ∀ key queue, s.queue.take? = some (key, queue) → ∀ worker, (worker, key) ∉ s.held := by
  have h := exclusive_of_run (.new name bounds) run taking
  refine ⟨h.line.once, h.line.standing, h.line.queued_add_deferred, h.held, h.hands, ?_⟩
  intro key queue taken worker member
  have free := (h.line.free_of_take taken).2
  exact absurd ((h.held key).mpr ⟨worker, member⟩) (by simp [free])

theorem one_hand_per_key_busy :
    ∃ s, after? orderly? (new "keys" {})
        [.add "a/x", .take 0, .add "a/x", .add "a/y", .take 1, .addAfter "a/y" .zero,
          .done 0 "a/x", .addRateLimited "a/x"] = some s ∧
      s.queue.shuttingDown = false ∧ s.queue.ready = ["a/x"] ∧
      s.queue.stats.queued + s.queue.stats.deferred = s.queue.dirty.size ∧
      (s.held.map Prod.snd).Nodup := by
  have h := one_hand_per_key "keys" {}
    [.add "a/x", .take 0, .add "a/x", .add "a/y", .take 1, .addAfter "a/y" .zero,
      .done 0 "a/x", .addRateLimited "a/x"] _ rfl (by decide)
  exact ⟨_, rfl, by decide, by decide, h.2.2.1, h.2.2.2.2.1⟩

end MonitorOperator.Traffic
