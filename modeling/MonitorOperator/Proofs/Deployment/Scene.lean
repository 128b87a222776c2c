import MonitorOperator.Proofs.Deployment.Reply
import MonitorOperator.Proofs.Store.Scene

/-! Passes over a key, some of whose calls may fail on their way to the store. Main statement: a
whole pass comes to an outcome of the scene of its key and leaves everything else alone. -/

namespace MonitorOperator

open Pass (Scene)

namespace Deployment

open Pass

theorem reply_getPod {d : Deployment} (plain : d.Plain) (key : Key) :
    (replyToPass (.getPod key) d).1.drill = d.drill ∧
      (replyToPass (.getPod key) d).2 = d.drill.store.getPod key := by
  change (d.drill.getPod key).1 = d.drill ∧ (d.drill.getPod key).2 = _
  rw [plain]
  exact ⟨rfl, rfl⟩

variable {d : Deployment} {key : Key}

theorem replyToPass_answers (plain : d.Plain) (keyed : d.drill.store.Keyed) {c : Call}
    (within : c.Within key) :
    (d.drill.store.scene key).Answers d.drill.store.Down (d.operator.cache.pods.get? key) c
      (replyToPass c d).2 ((replyToPass c d).1.drill.store.scene key) ∧
    d.drill.store.Beside key (replyToPass c d).1.drill.store := by
  cases c with
  | getMonitor k =>
    obtain rfl : k = key := within
    obtain ⟨drill, reply⟩ := reply_getMonitor plain k
    change (replyToPass (.getMonitor k) d).1.drill = _ at drill
    change (replyToPass (.getMonitor k) d).2 = _ at reply
    rw [drill, reply]
    exact ⟨d.drill.store.getMonitor_answers k, .refl ..⟩
  | updateStatus m =>
    obtain rfl : m.key = key := within
    obtain ⟨store, reply⟩ := reply_updateStatus plain m
    change (replyToPass (.updateStatus m) d).1.drill.store = _ at store
    change (replyToPass (.updateStatus m) d).2 = _ at reply
    rw [store, reply]
    exact Store.updateStatus_answers keyed m
  | getPod k =>
    obtain rfl : k = key.child := within
    obtain ⟨drill, reply⟩ := reply_getPod plain key.child
    rw [drill, reply]
    exact ⟨d.drill.store.getPod_answers key, .refl ..⟩
  | createPod p =>
    simpa only [replyToPass_createPod plain p] using d.drill.store.createPod_answers within
  | cachedPod k =>
    obtain rfl : k = key := within
    exact ⟨⟨rfl, rfl⟩, .refl ..⟩
  | report r =>
    have published := replyToPass_published plain (c := .report r) nofun nofun
    exact ⟨published.scene key, published.beside key⟩

inductive Fault where
  | unavailable (message : String)
  | conflict (kind key : String) (observed current : UInt64)

def Fault.error : Fault → StoreError
  | .unavailable message => .unavailable message
  | .conflict kind key observed current => .conflict kind key observed current

def fail? (e : StoreError) : (c : Call) → Option (Reply c)
  | .getMonitor _ => some (.error e)
  | .updateStatus _ => some (.error e)
  | .getPod _ => some (.error e)
  | .createPod _ => some (.error e)
  | .cachedPod _ => none
  | .report _ => none

def replyOver (faults : Nat → Option Fault) (c : Call) (s : Deployment × Nat) :
    (Deployment × Nat) × Reply c :=
  match (faults s.2).bind fun fault => fail? fault.error c with
  | some reply => ((s.1, s.2 + 1), reply)
  | none => (((replyToPass c s.1).1, s.2 + 1), (replyToPass c s.1).2)

theorem replyOver_number (faults : Nat → Option Fault) (c : Call) (s : Deployment × Nat) :
    (replyOver faults c s).1.2 = s.2 + 1 := by
  unfold replyOver
  split <;> rfl

def syncOver (faults : Nat → Option Fault) (d : Deployment) (text : String) :
    Deployment × Except Error Action :=
  let s := (Pass.sync d.operator.delays d.operator.template text).run (replyOver faults) (d, 0)
  (s.1.1, s.2)

def logOver (faults : Nat → Option Fault) (d : Deployment) (text : String) : Log :=
  (Pass.sync d.operator.delays d.operator.template text).transcript (replyOver faults) (d, 0)

theorem run_replyOver_none {α : Type} (p : Steps α) (d : Deployment) (n : Nat) :
    (p.run (replyOver fun _ => none) (d, n)).1.1 = (p.run replyToPass d).1 ∧
      (p.run (replyOver fun _ => none) (d, n)).2 = (p.run replyToPass d).2 ∧
      p.transcript (replyOver fun _ => none) (d, n) = p.transcript replyToPass d := by
  induction p generalizing d n with
  | finish a => exact ⟨rfl, rfl, rfl⟩
  | call c next ih =>
    obtain ⟨site, result, log⟩ := ih (replyToPass c d).2 (replyToPass c d).1 (n + 1)
    exact ⟨site, result, congrArg (⟨c, (replyToPass c d).2⟩ :: · : Log → Log) log⟩

theorem syncOver_none (d : Deployment) (text : String) :
    d.syncOver (fun _ => none) text = d.sync text := by
  obtain ⟨site, result, _⟩ := run_replyOver_none
    (Pass.sync d.operator.delays d.operator.template text) d 0
  exact Prod.ext site result

/-- The errors that a pass can meet for no fault of its scene. -/
def Struck (faults : Nat → Option Fault) (s : Store) (e : StoreError) : Prop :=
  s.Down e ∨ ∃ n fault, faults n = some fault ∧ fault.error = e

theorem faulty_struck (faults : Nat → Option Fault) (s : Store) : Faulty (Struck faults s) := by
  rintro e (down | ⟨_, fault, _, rfl⟩)
  · exact s.faulty_down e down
  · cases fault <;> exact ⟨rfl, rfl⟩

structure Served (key : Key) (d e : Deployment) : Prop where
  plain : e.Plain
  keyed : e.drill.store.Keyed
  beside : d.drill.store.Beside key e.drill.store
  operator : ∃ metrics recorder, e.operator =
    { d.operator with metrics := metrics, recorder := recorder }

theorem Served.trans {e f : Deployment} (h : Served key d e) (h' : Served key e f) :
    Served key d f where
  plain := h'.plain
  keyed := h'.keyed
  beside := h.beside.trans h'.beside
  operator := by
    obtain ⟨_, _, first⟩ := h.operator
    obtain ⟨metrics, recorder, second⟩ := h'.operator
    exact ⟨metrics, recorder, by rw [second, first]⟩

theorem Served.refl (plain : d.Plain) (keyed : d.drill.store.Keyed) : Served key d d :=
  ⟨plain, keyed, .refl .., _, _, rfl⟩

theorem Served.cache {e : Deployment} (h : Served key d e) :
    e.operator.cache = d.operator.cache := by
  obtain ⟨_, _, same⟩ := h.operator
  rw [same]

def foresee (d : Deployment) (key : Key) (v : Scene) : Scene × Except Error Action :=
  v.pass d.operator.delays d.operator.template (d.operator.cache.pods.get? key)

theorem Served.foresee {e : Deployment} (h : Served key d e) : e.foresee = d.foresee := by
  obtain ⟨_, _, same⟩ := h.operator
  unfold Deployment.foresee
  rw [same]

theorem foresee_congr (d : Deployment) {v w : Scene} (same : v.bare = w.bare) :
    (d.foresee key v).1.bare = (d.foresee key w).1.bare ∧
      (d.foresee key v).2 = (d.foresee key w).2 := Scene.pass_congr same

theorem replyToPass_served (plain : d.Plain) (keyed : d.drill.store.Keyed) {c : Call}
    (within : c.Within key) : Served key d (replyToPass c d).1 := by
  have replied := reply_replied plain keyed (.pass c)
  obtain ⟨written, effect⟩ := replied.store
  exact ⟨replied.plain, keyed.step effect, (replyToPass_answers plain keyed within).2,
    replyToPass_operator c d⟩

theorem answers_of_fail {fault : StoreError → Prop} {target : Option Pod} {v : Scene}
    {e : StoreError} {c : Call} {reply : Reply c} (failed : fail? e c = some reply) (struck : fault e) :
    v.Answers fault target c reply v := by
  cases c with
  | cachedPod key => contradiction
  | report r => contradiction
  | _ =>
    cases Option.some.inj failed
    exact ⟨.inl struck, rfl⟩

theorem replyOver_answers (faults : Nat → Option Fault) (plain : d.Plain)
    (keyed : d.drill.store.Keyed) {c : Call} (within : c.Within key) (n : Nat) :
    (d.drill.store.scene key).Answers (Struck faults d.drill.store)
      (d.operator.cache.pods.get? key) c (replyOver faults c (d, n)).2
      ((replyOver faults c (d, n)).1.1.drill.store.scene key) ∧
    Served key d (replyOver faults c (d, n)).1.1 := by
  unfold replyOver
  split
  · rename_i reply failed
    obtain ⟨fault, met, failed⟩ := Option.bind_eq_some_iff.mp failed
    exact ⟨answers_of_fail failed (.inr ⟨n, fault, met, rfl⟩), .refl plain keyed⟩
  · exact ⟨(replyToPass_answers plain keyed within).1.mono fun _ down => .inl down,
      replyToPass_served plain keyed within⟩

theorem through_run (faults : Nat → Option Fault) {fault : StoreError → Prop} {target : Option Pod}
    {v : Scene} {delays : Delays} {t : Child.Template} {text : String} {log : Log}
    {p : Steps (Except Error Action)} (parsed : Key.parse text = .ok key)
    (named : ∀ m, v.monitor = some m → m.key = key) (plain : d.Plain) (keyed : d.drill.store.Keyed)
    (cached : d.operator.cache.pods.get? key = target)
    (struck : ∀ e, Struck faults d.drill.store e → fault e)
    (leaves : (Pass.sync delays t text).Leaves log p)
    (through : Scene.Through fault target log v (d.drill.store.scene key)) (n : Nat) :
    Scene.Through fault target (log ++ p.transcript (replyOver faults) (d, n)) v
      ((p.run (replyOver faults) (d, n)).1.1.drill.store.scene key) ∧
    Served key d (p.run (replyOver faults) (d, n)).1.1 := by
  induction p generalizing d log n with
  | finish result =>
    change Scene.Through fault target (log ++ []) v _ ∧ _
    rw [List.append_nil]
    exact ⟨through, .refl plain keyed⟩
  | call c next ih =>
    have within := within_of_leaves leaves parsed through named
    obtain ⟨answers, served⟩ := replyOver_answers faults plain keyed within n
    -- A pass does not turn its store off, so that later calls meet no faults but those met so far.
    have down (e : StoreError) (h : Struck faults (replyOver faults c (d, n)).1.1.drill.store e) :
        fault e := by
      refine struck e (h.imp_left fun down => ?_)
      rwa [Store.Down, served.beside.unavailable] at down
    have step := Scene.through_snoc.mpr ⟨_, through, cached ▸ answers.mono struck⟩
    have rest := ih (replyOver faults c (d, n)).2 served.plain served.keyed
      (by rw [served.cache]; exact cached) down (leaves.step _) step (n + 1)
    have state : ((replyOver faults c (d, n)).1.1, n + 1) = (replyOver faults c (d, n)).1 :=
      Prod.ext rfl (replyOver_number faults c (d, n)).symm
    rw [List.append_assoc, state] at rest
    exact ⟨rest.1, served.trans rest.2⟩

theorem syncOver_outcome (faults : Nat → Option Fault) {text : String}
    (parsed : Key.parse text = .ok key) (plain : d.Plain) (keyed : d.drill.store.Keyed) :
    Pass.Outcome (Struck faults d.drill.store) d.operator.delays d.operator.template
      (d.operator.cache.pods.get? key) (d.drill.store.scene key) (d.logOver faults text)
      (d.syncOver faults text).2 ((d.syncOver faults text).1.drill.store.scene key) ∧
    Served key d (d.syncOver faults text).1 := by
  obtain ⟨through, served⟩ := through_run faults parsed
    (fun m found => keyed.monitors key m found) plain keyed rfl (fun _ struck => struck) .start rfl
    0
  have synced := Pass.synced_of_tells (Program.tells_transcript (replyOver faults)
    (Pass.sync d.operator.delays d.operator.template text) (d, 0))
  exact ⟨synced.outcome (faulty_struck faults d.drill.store) parsed through, served⟩

theorem down_of_struck {s : Store} {e : StoreError} (h : Struck (fun _ => none) s e) :
    s.Down e := by
  rcases h with down | ⟨_, _, no, _⟩
  · exact down
  · contradiction

/-- A pass that meets no faults ends as the function says. -/
theorem sync_undisturbed {text : String} (parsed : Key.parse text = .ok key) (plain : d.Plain)
    (keyed : d.drill.store.Keyed) :
    (d.sync text).2 = (d.foresee key (d.drill.store.scene key)).2 ∧
      ((d.sync text).1.drill.store.scene key).bare =
        (d.foresee key (d.drill.store.scene key)).1.bare ∧
      (∀ p, d.drill.store.pods.get? key.child = some p →
        (d.sync text).1.drill.store.pods.get? key.child = some p) ∧
      Served key d (d.sync text).1 := by
  obtain ⟨outcome, served⟩ := syncOver_outcome (fun _ => none) parsed plain keyed
  rw [syncOver_none] at outcome served
  obtain ⟨result, scene, kept⟩ := outcome.undisturbed fun _ struck => down_of_struck struck
  exact ⟨result, scene, kept, served⟩

theorem published_of_quiet {α : Type} (p : Steps α) (plain : d.Plain) (keyed : d.drill.store.Keyed)
    (writes : Log.writes (p.transcript replyToPass d) = [])
    (creations : Log.creations (p.transcript replyToPass d) = []) :
    d.drill.store.Published (p.run replyToPass d).1.drill.store := by
  induction p generalizing d with
  | finish a => exact .refl _
  | call c next ih =>
    have replied := reply_replied plain keyed (.pass c)
    obtain ⟨written, effect⟩ := replied.store
    rw [Program.transcript, Log.writes_cons, List.append_eq_nil_iff] at writes
    rw [Program.transcript, Log.creations_cons, List.append_eq_nil_iff] at creations
    have first := replyToPass_published plain (c := c)
      (fun m same => by subst same; simp [Log.writes] at writes)
      (fun p same => by subst same; simp [Log.creations] at creations)
    exact first.trans (ih _ replied.plain (keyed.step effect) writes.2 creations.2)

theorem sync_idle {text : String} (parsed : Key.parse text = .ok key) (plain : d.Plain)
    (keyed : d.drill.store.Keyed) (up : d.drill.store.unavailable = false)
    (idle : (d.foresee key (d.drill.store.scene key)).1.bare = (d.drill.store.scene key).bare) :
    d.drill.store.Published (d.sync text).1.drill.store := by
  have log : d.logOver (fun _ => none) text =
      (Pass.sync d.operator.delays d.operator.template text).transcript replyToPass d :=
    (run_replyOver_none (Pass.sync d.operator.delays d.operator.template text) d 0).2.2
  have unstruck (e : StoreError) : ¬ Struck (fun _ => none) d.drill.store e := fun struck => by
    have down := (down_of_struck struck).1
    rw [up] at down
    contradiction
  obtain ⟨outcome, _⟩ := syncOver_outcome (fun _ => none) parsed plain keyed
  obtain ⟨writes, creations⟩ := outcome.quiet unstruck idle
  rw [log] at writes creations
  exact published_of_quiet _ plain keyed writes creations

end Deployment

end MonitorOperator
