import MonitorOperator.Proofs.System.Alarms
import MonitorOperator.Proofs.System.Falls

/-! No monitor is left behind, but by a worker that falls. Main statement: at any time, and whatever
came before, a monitor that is not completed has a wake-up on its way, unless its key is with a worker
that fell at a request beyond the end of the clock. Nobody takes such a key again. -/

namespace MonitorOperator.System

/-- A wake-up for a monitor. Its key is in line, or stands behind the worker that is at work on it, or
is with such a worker, or waits for its alarm, or is between the two halves of the alarm; or a change
that wakes it is unread and kept, or is in the hands of the router; or the router lists again, for
which an alarm is set if it rests. -/
inductive Outstanding (s : System) (key : Key) : Prop where
  | queued (h : key.text ∈ s.queue.ready)
  | deferred (dirty : s.queue.dirty.contains key.text = true) (worker : Nat)
      (works : s.WorksOn worker key.text)
  | processed (worker : Nat) (works : s.WorksOn worker key.text)
  | waiting (due : Moment) (waits : s.queue.waiting.get? key.text = some due)
      (alarm : (due, .add key.text) ∈ s.alarms)
  | rung (h : key.text ∈ s.ringing)
  | unread (i : Nat) (c : Change) (ahead : s.position ≤ i)
      (kept : s.store.feed.size ≤ s.position + Feed.window)
      (there : s.store.feed.changes[i]? = some c) (wakes : c.Wakes key)
  | inHand (h : s.stage.Heralds key)
  | relist (h : s.stage.Relists ∨ s.Lags)
      (alarm : s.stage = .resting → ∃ due, (due, .relist 0) ∈ s.alarms)

theorem Heralded.outstanding {s : System} {key : Key} (h : s.Heralded key) (alarmed : s.Alarmed) :
    s.Outstanding key := by
  cases h with
  | relists h => exact .relist (.inl h) alarmed.rests
  | inHand h => exact .inHand h
  | lags h => exact .relist (.inr h) alarmed.rests
  | unread i c ahead there wakes =>
    by_cases lost : s.Lags
    · exact .relist (.inr lost) alarmed.rests
    · exact .unread i c ahead (Nat.le_of_not_lt lost) there wakes

theorem Pending.outstanding {s : System} {key : Key} (h : s.Pending key.text) (orderly : s.Orderly)
    (alarmed : s.Alarmed) (stand : ∀ worker, s.hands worker ≠ .fallen (some key.text)) :
    s.Outstanding key := by
  cases h with
  | dirty h =>
    cases processed : s.queue.processing.contains key.text with
    | true =>
      obtain ⟨worker, holds⟩ := (orderly.held key.text).mp processed
      exact .deferred h worker (worksOn_of_held holds (stand worker))
    | false => exact .queued ((orderly.line.standing key.text).mpr ⟨h, processed⟩)
  | waits due h => exact .waiting due h (alarmed.waits key.text due h)
  | rung h => exact .rung h

theorem Sound.outstanding {s : System} {key : Key} {m : Monitor} (h : s.Sound) (alarmed : s.Alarmed)
    (named : key.WellFormed) (found : s.store.monitors.get? key = some m)
    (busy : m.status.phase ≠ .completed)
    (stand : ∀ worker, s.hands worker ≠ .fallen (some key.text)) : s.Outstanding key := by
  rcases h.settled key named with (quiet | heralded | pending) | processed
  · exact (busy (quiet m found)).elim
  · exact heralded.outstanding alarmed
  · exact pending.outstanding h.orderly alarmed stand
  · obtain ⟨worker, holds⟩ := (h.orderly.held key.text).mp processed
    exact .processed worker (worksOn_of_held holds (stand worker))

theorem alarmed_of_run {σ τ : Type} {retention : Nat} {stamp : Recorder.Stamp}
    {parts : Operator.Parts σ τ} {moves : List Move} {s : System}
    (run : after? step? (start retention stamp parts) moves = some s) : s.Alarmed := by
  refine (after?_invariant (P := fun s => s.Sound ∧ s.Alarmed) ?_ moves
    ⟨.start retention stamp parts, .start retention stamp parts⟩ run).2
  intro s move t ⟨sound, alarmed⟩ step
  have one := stepped step
  exact ⟨sound.step one, alarmed.step (one.downstream sound.minds) one⟩

/-- In every run, of whatever moves and in whatever order: a monitor that is stored under a
well-formed key and is not completed has a wake-up outstanding, unless a worker has fallen with its
key. A worker falls at a request beyond the end of the clock and nowhere else, and then nobody works
on its key any more. -/
theorem no_monitor_stranded {σ τ : Type} (retention : Nat) (stamp : Recorder.Stamp)
    (parts : Operator.Parts σ τ) (moves : List Move) (s : System)
    (run : after? step? (start retention stamp parts) moves = some s) :
    (∀ (key : Key) (m : Monitor), key.WellFormed → s.store.monitors.get? key = some m →
      m.status.phase ≠ .completed → (∀ worker, s.hands worker ≠ .fallen (some key.text)) →
        s.Outstanding key) ∧
    (∀ move t worker held, s.step? move = some t → t.hands worker = .fallen held →
      s.hands worker = .fallen held ∨ ∃ c next,
        s.hands worker = .working held (.call c next) ∧ Deployment.fails c s.site = true) ∧
    (∀ worker text, s.hands worker = .fallen (some text) →
      ∀ later t, after? step? s later = some t → t.Lost text) := by
  have sound := sound_of_run run
  have alarmed := alarmed_of_run run
  refine ⟨fun key m named found busy stand => sound.outstanding alarmed named found busy stand, ?_, ?_⟩
  · intro move t worker held step fallen
    exact (stepped step).fails_of_fallen fallen
  · intro worker text fallen later t run
    exact lost_of_fallen sound fallen run

theorem no_monitor_stranded_once_released :
    let moves : List Move := [.outside (.apply { metadata := { ns := "a", name := "x" } }), .route,
      .route, .route, .route, .route, .route, .take 0] ++ List.replicate 11 (.work 0)
    ∃ s m, after? step? (start 10 ⟨"0", ""⟩ ({} : Operator.Parts Unit Unit)) moves = some s ∧
      s.store.monitors.get? ⟨"a", "x"⟩ = some m ∧ m.status.phase = .pending ∧
      s.queue.ready = [] ∧ s.held 0 = none ∧ s.Outstanding ⟨"a", "x"⟩ := by
  intro moves
  have h := (no_monitor_stranded 10 ⟨"0", ""⟩ ({} : Operator.Parts Unit Unit) moves _ rfl).1
    ⟨"a", "x"⟩ _ (by decide) rfl (by decide) fun
      | 0 => nofun
      | _ + 1 => nofun
  exact ⟨_, _, rfl, rfl, rfl, rfl, rfl, h⟩

theorem stranded_by_fallen_worker : ∃ s m,
    after? step? (start 10 ⟨"0", ""⟩ overlongParts) overlongMoves = some s ∧
      s.store.monitors.get? ⟨"a", "x"⟩ = some m ∧ m.status.phase ≠ .completed ∧
      ¬ s.Outstanding ⟨"a", "x"⟩ := by
  obtain ⟨s, m, run, found, phase, fallen, ready, _, waiting, ringing, _, stage, position⟩ :=
    falls_at_resync
  have nothing : after? step? s [] = some s := rfl
  have lost := lost_of_fallen (sound_of_run run) fallen nothing
  refine ⟨s, m, run, found, by simp [phase], fun outstanding => ?_⟩
  -- the run has left no place where a wake-up could be
  cases outstanding with
  | queued h => simp [ready] at h
  | deferred _ worker works => exact lost.idle worker works
  | processed worker works => exact lost.idle worker works
  | waiting due waits alarm =>
    rw [waiting] at waits
    contradiction
  | rung h => simp [ringing] at h
  | unread i c ahead kept there wakes =>
    have inside := (Array.getElem?_eq_some_iff.mp there).1
    have size : s.store.feed.size = s.store.feed.changes.size := rfl
    omega
  | inHand h => simp [stage, Stage.Heralds] at h
  | relist h alarm =>
    rcases h with relists | lags
    · simp [stage, Stage.Relists] at relists
    · exact Nat.not_lt.mpr (position ▸ Nat.le_add_right ..) lags

end MonitorOperator.System
