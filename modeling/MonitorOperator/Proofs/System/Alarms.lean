import MonitorOperator.Proofs.System.Downstream

/-! A key that waits and a router that rests both have their alarm set. -/

namespace MonitorOperator.System

/-- What waits has its alarm. -/
structure Alarmed (s : System) : Prop where
  waits : ∀ text due, s.queue.waiting.get? text = some due → (due, .add text) ∈ s.alarms
  rests : s.stage = .resting → ∃ due, (due, .relist 0) ∈ s.alarms

variable {may : Nat → Prop} {s t : System} {move : Move}

theorem Alarmed.start {σ τ : Type} (retention : Nat) (stamp : Recorder.Stamp)
    (parts : Operator.Parts σ τ) : (start retention stamp parts).Alarmed :=
  ⟨fun _ _ waits => (nomatch waits), fun stage => nomatch stage⟩

theorem reply_alarms (d : Deployment) (c : Worker.Call) {a : Moment × Alarm}
    (set : a ∈ d.agenda.alarms) : a ∈ (Deployment.reply c d).1.agenda.alarms := by
  cases c with
  | pass c =>
    cases c with
    | report r =>
      have agenda := (d.report_reported r).agenda
      exact agenda ▸ set
    | _ => exact set
  | addAfter key delay =>
    have alarms := d.setAlarm_alarms (d.operator.queue.addAfter d.now key delay).1 key
      (d.operator.queue.addAfter d.now key delay).2
    exact alarms ▸ List.mem_append_left _ set
  | addRateLimited key =>
    have alarms := d.setAlarm_alarms (d.operator.queue.addRateLimited d.now key).1 key
      (d.operator.queue.addRateLimited d.now key).2.1
    exact alarms ▸ List.mem_append_left _ set
  | _ => exact set

theorem Stepped.alarms (h : Stepped s move t) {due : Moment} {alarm : Alarm}
    (set : (due, alarm) ∈ s.alarms) : (due, alarm) ∈ t.alarms ∨ t = s.ring due alarm := by
  cases h with
  | routed _ h => exact .inl (h.alarms set)
  | rang moment subject _ _ =>
    by_cases mine : (due, alarm) = (moment, subject)
    · cases mine
      exact .inr rfl
    · obtain ⟨_, _, _, alarms, _⟩ := s.ring_cases moment subject
      rw [alarms]
      exact .inl ((List.mem_erase_of_ne mine).mpr set)
  | called worker held c next _ _ => exact .inl (reply_alarms _ _ set)
  | fell worker held c next _ _ => exact .inl (reply_alarms _ _ set)
  | _ => exact .inl set

theorem ring_waiting (s : System) (due : Moment) (text : String) :
    (s.ring due (.add text)).queue.waiting.get? text ≠ some due := by
  simp only [ring]
  split
  · rename_i other
    intro waits
    simp [WorkQueue.release?, show s.queue.waiting.get? text = some due from waits] at other
  · rename_i queue released
    obtain ⟨_, rfl⟩ := WorkQueue.release?_eq_some.mp released
    change (s.queue.waiting.erase text).get? text ≠ some due
    simp [Table.get?_erase]

theorem Stepped.resting (h : Stepped s move t) (stage : t.stage = .resting) :
    s.stage = .resting ∨ ∃ due, (due, .relist 0) ∈ t.alarms := by
  cases h with
  | routed _ h => exact .inr (h.resting stage)
  | rang due alarm _ _ =>
    obtain ⟨_, _, _, _, same | listing⟩ := s.ring_cases due alarm
    · exact .inl (same.symm.trans stage)
    · rw [listing] at stage
      contradiction
  | _ => exact .inl stage

theorem Alarmed.step (h : s.Alarmed) (down : Downstream may s t) (step : Stepped s move t) :
    t.Alarmed := by
  have old : ∀ text due, s.queue.waiting.get? text = some due →
      t.queue.waiting.get? text = some due → (due, .add text) ∈ t.alarms := by
    intro text due waits still
    rcases step.alarms (h.waits text due waits) with set | rfl
    · exact set
    · exact (ring_waiting s due text still).elim
  refine ⟨fun text due waits => ?_, fun stage => ?_⟩
  · cases down with
    | still queue _ _ => exact old text due (queue.waiting ▸ waits) waits
    | add key queue _ _ => exact old text due (by rw [queue] at waits; simpa using waits) waits
    | waits key moment queue alarm _ _ =>
      have set := waits
      rw [queue.waiting, Table.get?_insert] at set
      split at set
      · rename_i same
        cases Option.some.inj set
        exact same ▸ alarm
      · exact old text due set waits
    | release key moment kept queue _ _ =>
      have set := waits
      rw [queue, Table.get?_erase] at set
      split at set
      · contradiction
      · exact old text due set waits
    | take worker key queue _ _ _ =>
      obtain ⟨_, _, _, eq⟩ := WorkQueue.take?_eq_some.mp queue
      exact old text due (by rw [eq] at waits; exact waits) waits
    | done worker key queue _ _ _ _ =>
      exact old text due (by rw [queue] at waits; simpa using waits) waits
  · rcases step.resting stage with before | set
    · obtain ⟨due, set⟩ := h.rests before
      rcases step.alarms set with still | rfl
      · exact ⟨due, still⟩
      · simp [ring, before] at stage
    · exact set

end MonitorOperator.System
