import MonitorOperator.Proofs.System.Moves

/-! A party that nobody interrupts. The steps of a worker add up to the work on its key, those of a
router to the intake of a listing or of a change, as a deployment has them in one piece. -/

namespace MonitorOperator.System

def Alone (move : Move) (s t : System) : Prop :=
  ∃ n, after? step? s (List.replicate n move) = some t

variable {move : Move} {s t u : System}

theorem Alone.refl (move : Move) (s : System) : Alone move s s := ⟨0, rfl⟩

theorem Alone.cons (step : s.step? move = some t) (rest : Alone move t u) : Alone move s u := by
  obtain ⟨n, run⟩ := rest
  refine ⟨n + 1, ?_⟩
  rw [List.replicate_succ, after?_cons, step]
  exact run

theorem Alone.trans (first : Alone move s t) (second : Alone move t u) : Alone move s u := by
  obtain ⟨n, run⟩ := first
  obtain ⟨m, rest⟩ := second
  refine ⟨n + m, ?_⟩
  rw [← List.replicate_append_replicate, after?_append, run]
  exact rest

theorem rest_alone {worker : Nat} {held : Option String} (rest : Worker.Steps Unit)
    (h : s.hands worker = .working held rest) :
    ∃ left, Alone (.work worker) s
      ({ s with site := (Deployment.carryOut rest s.site).1 }.hand worker
        (if (Deployment.carryOut rest s.site).2 then .free else .fallen left)) := by
  induction rest generalizing s held with
  | finish a =>
    refine ⟨none, .cons ?_ (.refl _ _)⟩
    simp only [step?, work?, h]
    rfl
  | call c next ih =>
    cases fails : Deployment.fails c s.site with
    | true =>
      refine ⟨held, .cons ?_ (.refl _ _)⟩
      simp only [step?, work?, h, Deployment.carryOut, fails, if_true, Bool.false_eq_true, if_false]
    | false =>
      have step : s.step? (.work worker) =
          some ({ s with site := (Deployment.reply c s.site).1 }.hand worker
            (.working (heldAfter held c) (next (Deployment.reply c s.site).2))) := by
        simp only [step?, work?, h, fails, Bool.false_eq_true, if_false]
      obtain ⟨left, later⟩ := ih _ (hands_hand { s with site := (Deployment.reply c s.site).1 }
        worker (.working (heldAfter held c) (next (Deployment.reply c s.site).2)))
      refine ⟨left, .cons step ?_⟩
      simp only [Deployment.carryOut, fails, Bool.false_eq_true, if_false]
      simp only [hand, Function.update_idem] at later ⊢
      exact later

/-- A worker that takes a key and is not interrupted does the work on the key in one piece. -/
theorem serve_alone {worker : Nat} {key : String} {queue : WorkQueue}
    (free : s.hands worker = .free)
    (taken : s.queue.take? = some (key, queue)) :
    ∃ t left, s.step? (.take worker) = some t ∧
      Alone (.work worker) t
        ({ s with site := ((s.site.setQueue queue).serve key).1 }.hand worker
          (if ((s.site.setQueue queue).serve key).2 then .free else .fallen left)) := by
  have step : s.step? (.take worker) =
      some ({ s with site := s.site.setQueue queue }.hand worker (.working (some key)
        (Worker.serve s.site.operator.delays s.site.operator.template key))) := by
    simp only [step?, take?, free, taken]
  obtain ⟨left, work⟩ := rest_alone _ (hands_hand { s with site := s.site.setQueue queue } worker
    (.working (some key) (Worker.serve s.site.operator.delays s.site.operator.template key)))
  refine ⟨_, left, step, ?_⟩
  simp only [hand, Function.update_idem] at work ⊢
  exact work

theorem handled_alone (todo : List Change) (syncs : Bool) (h : s.stage = .taking todo syncs) :
    Alone .route s { s with
      site := todo.foldl Deployment.handle s.site, stage := .taking [] syncs } := by
  induction todo generalizing s with
  | nil =>
    have same : { s with stage := .taking [] syncs } = s := by rw [← h]
    exact same ▸ .refl _ _
  | cons c todo ih =>
    have absorbed : s.step? .route = some (s.absorb c todo syncs) := by simp only [step?, route?, h]
    have roused : (s.absorb c todo syncs).step? .route = some ((s.absorb c todo syncs).rouse
        (Wake.ofChange (s.site.operator.cache.absorb c) c) todo syncs) := rfl
    exact .cons absorbed (.cons roused (ih rfl))

theorem drained_alone (todo : List Change) (syncs : Bool) (h : s.stage = .taking todo syncs) :
    Alone .route s ({ s with site := todo.foldl Deployment.handle s.site }.rejoin syncs) := by
  refine (handled_alone todo syncs h).trans (.cons ?_ (.refl _ _))
  rfl

theorem foldl_handle (changes : List Change) (i : Intake) :
    changes.foldl Intake.handle i =
      { changes.foldl Intake.handle { i with notices := [] } with
        notices :=
          i.notices ++ (changes.foldl Intake.handle { i with notices := [] }).notices } := by
  induction changes generalizing i with
  | nil => simp
  | cons c changes ih =>
    rw [List.foldl_cons, List.foldl_cons, ih (i.handle c),
      ih (Intake.handle { i with notices := [] } c)]
    simp [Intake.handle, List.append_assoc]

theorem takeIn_foldl (changes : List Change) (d : Deployment) :
    d.takeIn (fun i => changes.foldl Intake.handle i) = changes.foldl Deployment.handle d := by
  induction changes generalizing d with
  | nil => simp [Deployment.takeIn, Deployment.setCache, Deployment.setQueue]
  | cons c changes ih =>
    rw [List.foldl_cons, ← ih]
    simp only [Deployment.takeIn, Deployment.handle, List.foldl_cons]
    rw [foldl_handle changes (Intake.handle ⟨d.operator.cache, d.operator.queue, []⟩ c)]
    simp [Intake.handle, Deployment.setCache, Deployment.setQueue, ← List.append_toArray]

theorem relistFrom_eq (d : Deployment) (listing : List Object) :
    d.relistFrom listing =
      let e := (d.operator.cache.catchUp listing).foldl Deployment.handle d
      e.setCache e.operator.cache.markSynced := by
  rw [← takeIn_foldl]
  rfl

theorem filter_isMonitor {s : Store} {listing : List Object} (answer : s.list = .ok listing) :
    listing.filter Object.isMonitor ++ s.pods.values.map .pod = listing := by
  unfold Store.list at answer
  split at answer
  · contradiction
  · cases answer
    have monitors : ∀ o ∈ s.monitors.values.map Object.monitor, o.isMonitor = true := by
      simp [Object.isMonitor]
    have pods : ∀ o ∈ s.pods.values.map Object.pod, ¬ o.isMonitor = true := by
      simp [Object.isMonitor]
    rw [List.filter_append, List.filter_eq_self.mpr monitors, List.filter_eq_nil_iff.mpr pods,
      List.append_nil]

/-- A router that lists and is not interrupted takes the listing in as a whole. -/
theorem list_alone {listing : List Object} (h : s.stage = .listing)
    (answer : s.store.list = .ok listing) :
    Alone .route s { s with site := s.site.relistFrom listing, stage := .watching } := by
  have monitors : s.step? .route =
      some { s with stage := .listed (listing.filter Object.isMonitor) } := by
    simp only [step?, route?, h, listMonitors, answer]
  have pods : ({ s with stage := .listed (listing.filter Object.isMonitor) } : System).step? .route =
      some { s with stage := .taking (s.site.operator.cache.catchUp listing) true } := by
    simp only [step?, route?, listPods, filter_isMonitor answer]
  rw [relistFrom_eq]
  exact .cons monitors (.cons pods (drained_alone _ true rfl))

/-- A router that reads a change and is not interrupted handles it as a whole. -/
theorem read_alone {c : Change} {position : Nat} (h : s.stage = .watching)
    (delivered : s.store.feed.read s.position = (.change c, position)) :
    Alone .route s
      { s with site := s.site.handle c, stage := .watching, position := position } := by
  have read : s.step? .route =
      some { s with stage := .taking [c] false, position := position } := by
    simp only [step?, route?, h, read?, delivered]
  exact .cons read (drained_alone [c] false rfl)

end MonitorOperator.System
