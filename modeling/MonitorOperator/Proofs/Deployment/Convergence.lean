import Mathlib.Logic.Function.Iterate
import MonitorOperator.Proofs.Cluster.Key
import MonitorOperator.Proofs.Deployment.Scene
import MonitorOperator.Proofs.Store.Ownership

/-! Repeated passes over a key that nothing disturbs. Each pass moves the scene of the key on by one
step, and no scene can be moved on more than three times. Main statement: from the fourth pass on
nothing changes any more, and every pass ends with the same action. -/

namespace MonitorOperator

namespace Pass.Scene

variable (d : Delays) (t : Child.Template) (target : Option Pod)

def next (v : Scene) : Scene := (v.pass d t target).1

/-- Another pass would change nothing. -/
def Rests (v : Scene) : Prop := v.next d t target = v

variable {d t target} {v : Scene} {m : Monitor} {child : Option Pod}

theorem Rests.next (h : v.Rests d t target) : (v.next d t target).Rests d t target := by
  unfold Rests at h
  rw [Rests, h, h]

theorem next_stored (m : Monitor) (child : Option Pod) :
    next d t target ⟨false, some m, child⟩ =
      ⟨false, some { m with status := (verdict d m target child).status },
        if (verdict d m target child).creates then some (Child.build m t) else child⟩ := rfl

theorem rests_of_verdict (same : (verdict d m target child).status = m.status)
    (stays : (verdict d m target child).creates = false) :
    Rests d t target ⟨false, some m, child⟩ := by
  rw [Rests, next_stored, same, stays]
  rfl

theorem next_of_stays (stays : (verdict d m target child).creates = false) :
    next d t target ⟨false, some m, child⟩ =
      ⟨false, some { m with status := (verdict d m target child).status }, child⟩ := by
  rw [next_stored, stays]
  rfl

theorem rests_of_phase (resting : Phase.Rests m.status.phase) :
    Rests d t target ⟨false, some m, child⟩ := by
  cases phase : m.status.phase with
  | completed => exact rests_of_verdict (by simp [verdict, phase]) (by simp [verdict, phase])
  | unrecognized raw => exact rests_of_verdict (by simp [verdict, phase]) (by simp [verdict, phase])
  | _ => rw [phase] at resting; exact resting.elim

theorem rests_of_running {pod : Pod} (phase : m.status.phase = .running)
    (ours : m.controls pod.metadata = true) :
    (next d t target ⟨false, some m, some pod⟩).Rests d t target := by
  cases ended : pod.status.phase.isTerminal with
  | false =>
    exact (rests_of_verdict (by simp [verdict, phase, ours, ended])
      (by simp [verdict, phase, ours, ended])).next
  | true =>
    rw [next_of_stays (by simp [verdict, phase, ours, ended])]
    refine rests_of_phase ?_
    simp [verdict, phase, ours, ended, MonitorStatus.plain, Phase.Rests]

theorem rests_of_created (phase : m.status.phase = .running) :
    Rests d t target ⟨false, some m, some (Child.build m t)⟩ := by
  have going : (Child.build m t).status.phase.isTerminal = false := rfl
  exact rests_of_verdict (by simp [verdict, phase, going]) (by simp [verdict, phase, going])

theorem rests_of_missing (phase : m.status.phase = .pending ∨ m.status.phase = .failed) :
    (next d t none ⟨false, some m, child⟩).Rests d t none := by
  have failed : next d t none ⟨false, some m, child⟩ = ⟨false, some { m with
      status := .failure ("monitored pod " ++ m.key.text ++ " not found") }, child⟩ := by
    rw [next_of_stays] <;> simp [verdict_start phase, verdict.start]
  rw [failed]
  exact rests_of_verdict (by rw [verdict_start (.inr rfl)]; rfl)
    (by rw [verdict_start (.inr rfl)]; rfl)

theorem rests_of_taken {found pod : Pod} (other : m.controls pod.metadata = false) :
    Rests d t (some found)
      ⟨false, some { m with status := (taken d m pod).status }, some pod⟩ := by
  have still : Monitor.controls { m with status := (taken d m pod).status } pod.metadata = false :=
    other
  -- The next pass finds the same conflict and would write the same reason.
  have failing : verdict d { m with status := (taken d m pod).status } (some found) (some pod) =
      taken d m pod := by
    rw [verdict_start (.inr rfl)]
    simp only [verdict.start, still, Bool.false_eq_true, if_false]
    rfl
  exact rests_of_verdict (by rw [failing]) (by rw [failing]; rfl)

theorem rests_of_start (phase : m.status.phase = .pending ∨ m.status.phase = .failed) :
    (next d t target (next d t target ⟨false, some m, child⟩)).Rests d t target := by
  cases target with
  | none => exact (rests_of_missing phase).next
  | some found =>
    cases child with
    | none =>
      have created : next d t (some found) ⟨false, some m, none⟩ =
          ⟨false, some { m with status := .plain .running }, some (Child.build m t)⟩ := by
        simp [next_stored, verdict_start phase, verdict.start]
      rw [created]
      exact (rests_of_created (m := { m with status := .plain .running }) rfl).next
    | some pod =>
      cases ours : m.controls pod.metadata with
      | true =>
        have running : next d t (some found) ⟨false, some m, some pod⟩ =
            ⟨false, some { m with status := .plain .running }, some pod⟩ := by
          simp [next_stored, verdict_start phase, verdict.start, ours]
        rw [running]
        exact rests_of_running rfl ours
      | false =>
        have failed : next d t (some found) ⟨false, some m, some pod⟩ =
            ⟨false, some { m with status := (taken d m pod).status }, some pod⟩ := by
          simp [next_stored, verdict_start phase, verdict.start, ours, taken]
        rw [failed]
        exact (rests_of_taken ours).next

theorem rests_of_run (phase : m.status.phase = .running) :
    (next d t target (next d t target ⟨false, some m, child⟩)).Rests d t target := by
  cases child with
  | none =>
    have created : next d t target ⟨false, some m, none⟩ =
        ⟨false, some m, some (Child.build m t)⟩ := by
      simp [next_stored, verdict, phase]
    rw [created]
    exact (rests_of_created phase).next
  | some pod =>
    cases ours : m.controls pod.metadata with
    | true => exact (rests_of_running phase ours).next
    | false =>
      have failed : next d t target ⟨false, some m, some pod⟩ =
          ⟨false, some { m with status := (taken d m pod).status }, some pod⟩ := by
        simp [next_stored, verdict, phase, ours, taken]
      rw [failed]
      -- Without the monitored pod the failure gets another reason, once.
      cases target with
      | none => exact rests_of_missing (.inr rfl)
      | some found => exact (rests_of_taken ours).next

/-- Three passes bring every scene to rest. -/
theorem rests_third (v : Scene) : ((next d t target)^[3] v).Rests d t target := by
  change (next d t target (next d t target (next d t target v))).Rests d t target
  obtain ⟨unavailable, monitor, child⟩ := v
  cases unavailable with
  | true => rfl
  | false =>
    cases monitor with
    | none => rfl
    | some m =>
      -- Two passes are enough for every phase but the first, which takes one more to begin.
      cases phase : m.status.phase with
      | unset =>
        have begun : next d t target ⟨false, some m, child⟩ =
            ⟨false, some { m with status := .plain .pending }, child⟩ := by
          simp [next_stored, verdict, phase]
        rw [begun]
        exact rests_of_start (.inl rfl)
      | pending => exact (rests_of_start (.inl phase)).next
      | failed => exact (rests_of_start (.inr phase)).next
      | running => exact (rests_of_run phase).next
      | completed => exact (rests_of_phase (by simp [phase, Phase.Rests])).next.next.next
      | unrecognized raw => exact (rests_of_phase (by simp [phase, Phase.Rests])).next.next.next

theorem iterate_rests (v : Scene) {n : Nat} (late : 3 ≤ n) :
    (next d t target)^[n] v = (next d t target)^[3] v := by
  induction late with
  | refl => rfl
  | step late ih => rw [Function.iterate_succ_apply', ih, rests_third v]

end Pass.Scene

namespace Deployment

open Pass (Scene)

def passes (d : Deployment) (text : String) (n : Nat) : Deployment :=
  (fun d => (d.sync text).1)^[n] d

theorem passes_succ (d : Deployment) (text : String) (n : Nat) :
    d.passes text (n + 1) = ((d.passes text n).sync text).1 :=
  Function.iterate_succ_apply' ..

variable {d : Deployment} {key : Key} {text : String}

def lookahead (d : Deployment) (key : Key) (n : Nat) : Scene :=
  (fun v => (d.foresee key v).1)^[n] (d.drill.store.scene key)

theorem lookahead_late (d : Deployment) (key : Key) {n : Nat} (late : 3 ≤ n) :
    d.lookahead key n = d.lookahead key 3 := Scene.iterate_rests _ late

theorem lookahead_rests (d : Deployment) (key : Key) :
    (d.foresee key (d.lookahead key 3)).1 = d.lookahead key 3 := Scene.rests_third _

theorem passes_served (parsed : Key.parse text = .ok key) (plain : d.Plain)
    (keyed : d.drill.store.Keyed) (n : Nat) :
    ((d.passes text n).drill.store.scene key).bare = (d.lookahead key n).bare ∧
      Served key d (d.passes text n) := by
  induction n with
  | zero => exact ⟨rfl, .refl plain keyed⟩
  | succ n ih =>
    obtain ⟨scene, served⟩ := ih
    obtain ⟨_, moved, _, further⟩ := sync_undisturbed parsed served.plain served.keyed
    rw [served.foresee] at moved
    rw [passes_succ, lookahead, Function.iterate_succ_apply']
    exact ⟨moved.trans (d.foresee_congr scene).1, served.trans further⟩

theorem passes_rest (parsed : Key.parse text = .ok key) (plain : d.Plain)
    (keyed : d.drill.store.Keyed) (up : d.drill.store.unavailable = false) {n : Nat}
    (late : 3 ≤ n) :
    (d.passes text n).drill.store.Published (d.passes text (n + 1)).drill.store ∧
      ((d.passes text n).sync text).2 = (d.foresee key (d.lookahead key 3)).2 := by
  obtain ⟨scene, served⟩ := passes_served parsed plain keyed n
  rw [d.lookahead_late key late] at scene
  obtain ⟨result, _⟩ := sync_undisturbed parsed served.plain served.keyed
  obtain ⟨moved, action⟩ := d.foresee_congr scene
  have idle : ((d.passes text n).foresee key ((d.passes text n).drill.store.scene key)).1.bare =
      ((d.passes text n).drill.store.scene key).bare := by
    rw [served.foresee, moved, lookahead_rests, scene]
  constructor
  · rw [passes_succ]
    exact sync_idle parsed served.plain served.keyed (served.beside.unavailable.trans up) idle
  · rw [result, served.foresee, action]

/-- Repeated passes over a key come to rest. Whatever state the store is in and whatever the cache
holds, at most the first three of them write a status or create a child. From the fourth on all that
happens to the store is that events are published, and every pass ends with the same action. -/
theorem passes_converge (d : Deployment) (retention : Nat) (ops : List Store.Operation) (key : Key)
    (formed : key.WellFormed) (up : ((Store.empty retention).after ops).unavailable = false) :
    let first := { d with drill := { store := (Store.empty retention).after ops } }
    ∃ action, ∀ n, 3 ≤ n →
      (first.passes key.text n).drill.store.Published (first.passes key.text (n + 1)).drill.store ∧
      ((first.passes key.text n).sync key.text).2 = .ok action := by
  intro first
  have parsed := Key.parse_text formed
  have keyed : first.drill.store.Keyed := (Store.Keyed.empty retention).after ops
  obtain ⟨scene, served⟩ := passes_served (d := first) parsed rfl keyed 3
  have clear : (first.lookahead key 3).unavailable = false :=
    (congrArg Scene.unavailable scene).symm.trans (served.beside.unavailable.trans up)
  obtain ⟨action, ok⟩ : ∃ action, (first.foresee key (first.lookahead key 3)).2 = .ok action :=
    Scene.pass_ok clear
  refine ⟨action, fun n late => ?_⟩
  obtain ⟨still, result⟩ := passes_rest (d := first) parsed rfl keyed up late
  exact ⟨still, result.trans ok⟩

theorem passes_converge_to_completion :
    let job : Monitor := { metadata := { ns := "a", name := "x", uid := "1" } }
    let ended : Pod := { Child.build job {} with status := { phase := .succeeded } }
    let d : Deployment :=
      { operator := .ofParts ({ cache := { pods := Table.ofList [(⟨"a", "x"⟩, ended)] } } :
          Operator.Parts Unit Unit)
        stamp := ⟨"0", ""⟩ }
    let first := { d with drill := { store := (Store.empty 10).after [.apply job, .putPod ended] } }
    (∃ action, ∀ n, 3 ≤ n →
      (first.passes "a/x" n).drill.store.Published (first.passes "a/x" (n + 1)).drill.store ∧
      ((first.passes "a/x" n).sync "a/x").2 = .ok action) ∧
    (List.range 5).map (fun n => (first.passes "a/x" n).drill.store.statusWrites) =
      [0, 1, 2, 3, 3] := by
  exact ⟨passes_converge _ 10 [.apply _, .putPod _] ⟨"a", "x"⟩ (by decide) rfl, rfl⟩

end Deployment

end MonitorOperator
