import MonitorOperator.Proofs.System.Sound

/-! Workers that fall. A worker falls at a request beyond the end of the clock and makes no step any
more; its key stays in its hand, so that nobody else takes it. -/

namespace MonitorOperator.System

def WorksOn (s : System) (worker : Nat) (text : String) : Prop :=
  ∃ rest, s.hands worker = .working (some text) rest

variable {s t : System} {move : Move} {text : String} {held : Option String}

theorem worksOn_of_held {worker : Nat} (holds : s.held worker = some text)
    (stands : s.hands worker ≠ .fallen (some text)) : s.WorksOn worker text := by
  unfold System.held at holds
  cases hand : s.hands worker with
  | free =>
    rw [hand] at holds
    contradiction
  | working held rest =>
    rw [hand] at holds
    cases holds
    exact ⟨rest, hand⟩
  | fallen held =>
    rw [hand] at holds
    cases holds
    exact (stands hand).elim

theorem hand_cases_of_update {mover : Nat} {hand : Hand}
    (moved : t.hands = Function.update s.hands mover hand)
    (stands : ∀ held, s.hands mover ≠ .fallen held)
    (falls : ∀ held, hand = .fallen held → ∃ c next,
      s.hands mover = .working held (.call c next) ∧ Deployment.fails c s.site = true)
    (worker : Nat) :
    t.hands worker = s.hands worker ∨
      (∀ held, s.hands worker ≠ .fallen held) ∧ ∀ held, t.hands worker = .fallen held →
        ∃ c next, s.hands worker = .working held (.call c next) ∧
          Deployment.fails c s.site = true := by
  rw [moved]
  by_cases own : worker = mover
  · subst own
    refine .inr ⟨stands, fun held fallen => falls held ?_⟩
    rwa [Function.update_self] at fallen
  · exact .inl (Function.update_of_ne own ..)

/-- The hand of a worker changes only while it stands, and it falls only at a call that fails. -/
theorem Stepped.hand_cases (h : Stepped s move t) (worker : Nat) :
    t.hands worker = s.hands worker ∨
      (∀ held, s.hands worker ≠ .fallen held) ∧ ∀ held, t.hands worker = .fallen held →
        ∃ c next, s.hands worker = .working held (.call c next) ∧
          Deployment.fails c s.site = true := by
  cases h with
  | routed _ h => exact .inl (congrFun h.hands worker)
  | rang due alarm _ _ => exact .inl (congrFun (s.ring_cases due alarm).2.2.1 worker)
  | took mover key queue free _ => exact hand_cases_of_update rfl (by simp [free]) (by simp) worker
  | ended mover held last => exact hand_cases_of_update rfl (by simp [last]) (by simp) worker
  | called mover held c next busy _ =>
    exact hand_cases_of_update rfl (by simp [busy]) (by simp) worker
  | fell mover held c next busy fails =>
    refine hand_cases_of_update rfl (by simp [busy]) (fun other fallen => ?_) worker
    cases fallen
    exact ⟨c, next, busy, fails⟩
  | _ => exact .inl rfl

theorem Stepped.fallen (h : Stepped s move t) {worker : Nat}
    (fallen : s.hands worker = .fallen held) : t.hands worker = .fallen held := by
  rcases h.hand_cases worker with same | ⟨stands, _⟩
  · exact same.trans fallen
  · exact (stands held fallen).elim

theorem Stepped.fails_of_fallen (h : Stepped s move t) {worker : Nat}
    (fallen : t.hands worker = .fallen held) :
    s.hands worker = .fallen held ∨ ∃ c next,
      s.hands worker = .working held (.call c next) ∧ Deployment.fails c s.site = true := by
  rcases h.hand_cases worker with same | ⟨_, fails⟩
  · exact .inl (same.symm.trans fallen)
  · exact .inr (fails held fallen)

structure Lost (s : System) (text : String) : Prop where
  processed : s.queue.processing.contains text = true
  idle : ∀ worker, ¬ s.WorksOn worker text

theorem lost_of_fallen {worker : Nat} {moves : List Move} (sound : s.Sound)
    (fallen : s.hands worker = .fallen (some text)) (run : after? step? s moves = some t) :
    t.Lost text := by
  have ⟨later, still⟩ : t.Sound ∧ t.hands worker = .fallen (some text) := by
    refine after?_invariant (P := fun t => t.Sound ∧ t.hands worker = .fallen (some text)) ?_ moves
      ⟨sound, fallen⟩ run
    rintro t move u ⟨sound, fallen⟩ step
    exact ⟨sound.step (stepped step), (stepped step).fallen fallen⟩
  have mine : t.held worker = some text := by rw [System.held, still, Hand.held]
  refine ⟨(later.orderly.held text).mpr ⟨worker, mine⟩, ?_⟩
  -- a text is in one hand only, so whoever worked on it would be the worker that has fallen
  rintro other ⟨rest, works⟩
  have same := later.orderly.alone worker other text mine (held_eq works)
  rw [← same, still] at works
  contradiction

/-- A monitor that runs is seen a second after the start, and again after a delay that leads beyond
the end of the clock. -/
def overlongMoves : List Move :=
  let m : Monitor := {
    metadata := { ns := "a", name := "x", uid := "1" }, status := { phase := .running } }
  [.outside (.apply m), .outside (.putPod (Child.build m {})), .wait nanosPerSecond] ++
    List.replicate 8 .route ++ [.take 0] ++ List.replicate 7 (.work 0)

def overlongParts : Operator.Parts Unit Unit where
  delays := { resync := WorkQueue.overlong }

theorem falls_at_resync : ∃ s m,
    after? step? (start 10 ⟨"0", ""⟩ overlongParts) overlongMoves = some s ∧
      s.store.monitors.get? ⟨"a", "x"⟩ = some m ∧ m.status.phase = .running ∧
      s.hands 0 = .fallen (some "a/x") ∧ s.queue.ready = [] ∧ s.queue.dirty = ∅ ∧
      s.queue.waiting = ∅ ∧ s.ringing = [] ∧ s.alarms = [] ∧ s.stage = .watching ∧
      s.position = s.store.feed.size :=
  ⟨_, _, rfl, rfl, rfl, rfl, rfl, rfl, rfl, rfl, rfl, rfl, rfl⟩

end MonitorOperator.System
